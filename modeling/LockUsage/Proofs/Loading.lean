import LockUsage.Program.Reader
import LockUsage.Proofs.Lists

/-! What loading a program description can give. Each part of the resolver either fails with one of
few errors or gives something whose references are all in range. Instructions are numbered twice, by
the names in scope before they are resolved and by the blocks that list them after, and the two
numberings agree. So the final check of the program can only find an empty block. -/

namespace LockUsage

/-- The computation gives a result with a property, or fails with one of some errors. -/
structure Yields {ε α : Type} (E : ε → Prop) (Q : α → Prop) (x : Except ε α) : Prop where
  of_ok : ∀ {a}, x = .ok a → Q a
  of_error : ∀ {e}, x = .error e → E e

namespace Yields

variable {ε α β : Type} {E E' : ε → Prop} {Q R : α → Prop} {x : Except ε α}

theorem pure {a : α} (h : Q a) : Yields E Q (Pure.pure a) where
  of_ok := fun ha => by cases ha; exact h
  of_error := fun he => by cases he

theorem throw {e : ε} (h : E e) : Yields E Q (.error e) where
  of_ok := fun ha => by cases ha
  of_error := fun he => by cases he; exact h

theorem imp (h : Yields E Q x) (hE : ∀ e, E e → E' e) (hQ : ∀ a, x = .ok a → Q a → R a) :
    Yields E' R x where
  of_ok := fun ha => hQ _ ha (h.of_ok ha)
  of_error := fun he => hE _ (h.of_error he)

theorem bind {f : α → Except ε β} {R : β → Prop} (h : Yields E Q x)
    (hf : ∀ a, x = .ok a → Q a → Yields E R (f a)) : Yields E R (x >>= f) := by
  cases x with
  | ok a => exact hf a rfl (h.of_ok rfl)
  | error e => exact throw (h.of_error rfl)

theorem map {f : α → β} {R : β → Prop} (h : Yields E Q x) (hf : ∀ a, Q a → R (f a)) :
    Yields E R (x.map f) := by
  cases x with
  | ok a => exact pure (hf a (h.of_ok rfl))
  | error e => exact throw (h.of_error rfl)

theorem mapM {f : α → Except ε β} {as : List α} {R : α → β → Prop}
    (h : ∀ a ∈ as, Yields E (R a) (f a)) : Yields E (List.Forall₂ R as) (as.mapM f) := by
  induction as with
  | nil => exact pure List.Forall₂.nil
  | cons a as ih =>
    rw [List.mapM_cons]
    refine (h a List.mem_cons_self).bind fun b _ hb => ?_
    refine (ih fun a ha => h a (List.mem_cons_of_mem _ ha)).bind fun bs _ hbs => ?_
    exact pure (List.Forall₂.cons hb hbs)

end Yields

namespace ProgramError

def IsUnresolved (e : ProgramError) : Prop := ∃ scope name, e = .unresolved scope name

def IsNaming (e : ProgramError) : Prop :=
  e.IsUnresolved ∨ ∃ scope name, e = .duplicateName scope name

def IsLoading (e : ProgramError) : Prop :=
  e.IsNaming ∨ ∃ function block, e = .emptyBlock function block

theorem IsLoading.ne_malformed {e : ProgramError} (h : e.IsLoading) : e ≠ .malformed := by
  rcases h with (⟨_, _, rfl⟩ | ⟨_, _, rfl⟩) | ⟨_, _, rfl⟩ <;> simp

end ProgramError

open ProgramError

namespace Description

theorem firstRepeat?_of_mem {seen rest : List String} {name : String} (h : name ∈ seen) :
    firstRepeat? seen (name :: rest) = some name := if_pos h

theorem firstRepeat?_of_not_mem {seen rest : List String} {name : String} (h : name ∉ seen) :
    firstRepeat? seen (name :: rest) = firstRepeat? (name :: seen) rest := if_neg h

theorem firstRepeat?_eq_none {seen names : List String} (h : firstRepeat? seen names = none) :
    names.Nodup ∧ ∀ name ∈ names, name ∉ seen := by
  induction names generalizing seen with
  | nil => exact ⟨List.nodup_nil, fun _ h => by cases h⟩
  | cons name rest ih =>
    by_cases hn : name ∈ seen
    · cases (firstRepeat?_of_mem hn).symm.trans h
    · rw [firstRepeat?_of_not_mem hn] at h
      obtain ⟨hrest, hnew⟩ := ih h
      refine ⟨List.nodup_cons.mpr ⟨fun hm => hnew name hm List.mem_cons_self, hrest⟩, ?_⟩
      intro other ho hseen
      rcases List.mem_cons.mp ho with rfl | ho
      · exact hn hseen
      · exact hnew other ho (List.mem_cons_of_mem _ hseen)

theorem yields_distinct (scope : String) (names : List String) :
    Yields IsNaming (fun _ => names.Nodup) (distinct scope names) := by
  rw [distinct]
  cases h : firstRepeat? [] names with
  | none => exact .pure (firstRepeat?_eq_none h).1
  | some name => exact .throw (.inr ⟨scope, name, rfl⟩)

namespace Scope

variable (s : Scope)

theorem yields_found {α : Type} (name : String) (o : Option α) :
    Yields IsUnresolved (fun a => o = some a) (s.found name o) := by
  cases o with
  | some a => exact .pure rfl
  | none => exact .throw ⟨functionScope s.function, name, rfl⟩

theorem yields_block (name : String) :
    Yields IsUnresolved (fun b => b < s.blocks.length) (s.block name) := by
  refine (s.yields_found name _).imp (fun _ he => he) fun b _ hb => ?_
  exact (List.idxOf?_eq_some_iff.mp hb).1

theorem getElem?_of_lastIndex? {name : String} {names : List String} {i : Nat}
    (h : lastIndex? name names = some i) : names[i]? = some name := by
  induction names generalizing i with
  | nil => cases h
  | cons other rest ih =>
    rw [lastIndex?] at h
    cases hr : lastIndex? name rest with
    | some j =>
      rw [hr] at h
      obtain rfl := Option.some.inj h
      exact ih hr
    | none =>
      rw [hr] at h
      by_cases he : other = name
      · rw [if_pos he] at h
        obtain rfl := Option.some.inj h
        rw [he, List.getElem?_cons_zero]
      · rw [if_neg he] at h
        cases h

/-- A text that denotes an operand is its name with a mark before it, or a constant. -/
theorem operand?_cases {s : Scope} {text : String} {o : Operand} (h : s.operand? text = some o) :
    (∃ id name, o = .global id ∧ s.globals[id]? = some name ∧ text = "@" ++ name) ∨
    (∃ index name, o = .arg index ∧ s.params[index]? = some name ∧ text = "%" ++ name) ∨
    (∃ id name, o = .inst id ∧ s.insts[id]? = some (some name) ∧ text = "%" ++ name) ∨
    ∃ value, o = .const value ∧ constant? text = some value := by
  have htext {c : Char} {rest : List Char} (ht : text.toList = c :: rest) :
      text = String.singleton c ++ String.ofList rest := by
    rw [← String.ofList_cons, ← ht, String.ofList_toList]
  simp only [operand?] at h
  split at h
  · next name ht =>
    obtain ⟨id, hid, rfl⟩ := Option.map_eq_some_iff.mp h
    exact .inl ⟨id, _, rfl, getElem?_of_idxOf? hid, htext ht⟩
  · next name ht =>
    simp only [local?] at h
    split at h
    · next index hindex =>
      obtain rfl := Option.some.inj h
      exact .inr (.inl ⟨index, _, rfl, getElem?_of_lastIndex? hindex, htext ht⟩)
    · obtain ⟨id, hid, rfl⟩ := Option.map_eq_some_iff.mp h
      exact .inr (.inr (.inl ⟨id, _, rfl, getElem?_of_idxOf? hid, htext ht⟩))
  · obtain ⟨value, hvalue, rfl⟩ := Option.map_eq_some_iff.mp h
    exact .inr (.inr (.inr ⟨value, rfl, hvalue⟩))

def Denotes (o : Operand) : Prop := ∃ written, s.operand written = .ok o

theorem operand_eq (written : String) :
    s.operand written = s.found (Text.trim written) (s.operand? (Text.trim written)) := rfl

theorem yields_operand (written : String) :
    Yields IsUnresolved s.Denotes (s.operand written) := by
  have h := s.yields_found (Text.trim written) (s.operand? (Text.trim written))
  rw [← operand_eq] at h
  exact h.imp (fun _ he => he) fun _ ho _ => ⟨written, ho⟩

def AdmitsCallee : Callee → Prop
  | .direct func => func < s.functions.length
  | .indirect target => s.Denotes target

theorem yields_callee (written : String) :
    Yields IsUnresolved s.AdmitsCallee (s.callee written) := by
  simp only [callee]
  split
  · next id hid => exact .pure (List.idxOf?_eq_some_iff.mp hid).1
  · exact (s.yields_operand written).map fun o ho => ho

/-- Everything that an instruction refers to is there. -/
structure Admits (kind : InstKind) : Prop where
  targets : ∀ b ∈ kind.successors, b < s.blocks.length
  callee : ∀ func args, kind = .call (.direct func) args → func < s.functions.length
  operands : ∀ o ∈ kind.operands, s.Denotes o

theorem admits_call {callee : Callee} {args : List Operand} (hc : s.AdmitsCallee callee)
    (hargs : ∀ o ∈ args, s.Denotes o) : s.Admits (.call callee args) where
  targets := fun _ hb => by cases hb
  callee := fun _ _ h => by cases h; exact hc
  operands := by
    cases callee with
    | direct func => exact hargs
    | indirect target => exact List.forall_mem_cons.mpr ⟨hc, hargs⟩

theorem yields_operands (written : List String) :
    Yields IsUnresolved (fun os => ∀ o ∈ os, s.Denotes o) (written.mapM s.operand) := by
  refine (Yields.mapM fun w _ => s.yields_operand w).imp (fun _ he => he) fun os _ hos o ho => ?_
  obtain ⟨w, -, hw⟩ := exists_mem_of_forall₂ hos ho
  exact hw

theorem yields_cases (cases : List (Int × String)) :
    Yields IsUnresolved (fun targets : List (Int × BlockId) => ∀ c ∈ targets, c.2 < s.blocks.length)
      (cases.mapM fun (number, target) => return (number, ← s.block target)) := by
  have hcase (c : Int × String) : Yields IsUnresolved
      (fun target : Int × BlockId => target.2 < s.blocks.length)
      (do return (c.1, ← s.block c.2)) := (s.yields_block c.2).bind fun b _ hb => .pure hb
  refine (Yields.mapM fun c _ => hcase c).imp (fun _ he => he) fun targets _ ht c hc => ?_
  obtain ⟨w, -, hw⟩ := exists_mem_of_forall₂ ht hc
  exact hw

theorem yields_kind (inst : Inst) : Yields IsUnresolved s.Admits (s.kind inst) := by
  cases inst with
  | call name callee args =>
    rw [kind]
    refine (s.yields_callee callee).bind fun c _ hc => ?_
    exact (s.yields_operands args).bind fun os _ hos => .pure (s.admits_call hc hos)
  | br target =>
    rw [kind]
    refine (s.yields_block target).bind fun b _ hb => .pure ?_
    exact ⟨by simpa [InstKind.successors] using hb, by simp, by simp [InstKind.operands]⟩
  | condBr cond thenTo elseTo =>
    rw [kind]
    refine (s.yields_operand cond).bind fun o _ ho => ?_
    refine (s.yields_block thenTo).bind fun b _ hb => ?_
    refine (s.yields_block elseTo).bind fun b' _ hb' => .pure ?_
    exact ⟨by simpa [InstKind.successors] using ⟨hb, hb'⟩, by simp,
      by simpa [InstKind.operands] using ho⟩
  | switch value default cases =>
    rw [kind]
    refine (s.yields_operand value).bind fun o _ ho => ?_
    refine (s.yields_block default).bind fun b _ hb => ?_
    refine (s.yields_cases cases).bind fun targets _ ht => .pure ⟨?_, by simp, ?_⟩
    · simp only [InstKind.successors, List.forall_mem_cons, List.forall_mem_map]
      exact ⟨hb, ht⟩
    · simpa [InstKind.operands] using ho
  | ret value =>
    cases value with
    | none =>
      rw [kind]
      exact .pure ⟨by simp [InstKind.successors], by simp, by simp [InstKind.operands]⟩
    | some value =>
      rw [kind]
      refine (s.yields_operand value).bind fun o _ ho => .pure ?_
      exact ⟨by simp [InstKind.successors], by simp, by simpa [InstKind.operands] using ho⟩
  | unreachable =>
    rw [kind]
    exact .pure ⟨by simp [InstKind.successors], by simp, by simp [InstKind.operands]⟩
  | cmp name pred lhs rhs =>
    rw [kind]
    refine (s.yields_operand lhs).bind fun o _ ho => ?_
    refine (s.yields_operand rhs).bind fun o' _ ho' => .pure ?_
    exact ⟨by simp [InstKind.successors], by simp, by simpa [InstKind.operands] using ⟨ho, ho'⟩⟩
  | other name operands =>
    rw [kind]
    refine (s.yields_operands operands).bind fun os _ hos => .pure ?_
    exact ⟨by simp [InstKind.successors], by simp, hos⟩

/-- An instruction of block number `b` after it was resolved. -/
structure Resolved (b : BlockId) (di : Inst) (inst : LockUsage.Inst) : Prop where
  name : inst.name = di.name?
  block : inst.block = b
  admits : s.Admits inst.kind

theorem yields_resolve (b : BlockId) (block : Block) :
    Yields IsUnresolved (List.Forall₂ (s.Resolved b) block.insts) (s.resolve b block) := by
  refine Yields.mapM fun di _ => ?_
  exact (s.yields_kind di).bind fun kind _ hk => .pure ⟨rfl, rfl, hk⟩

/-- The instructions of some blocks of which the first has number `k`, block by block. -/
def ResolvedFrom (k : BlockId) (blocks : List Block) (lists : List (List LockUsage.Inst)) : Prop :=
  List.Forall₂ (fun entry insts => List.Forall₂ (s.Resolved entry.2) entry.1.insts insts)
    (blocks.zipIdx k) lists

variable {s}

theorem ResolvedFrom.cons {k : BlockId} {block : Block} {blocks : List Block}
    {lists : List (List LockUsage.Inst)} (h : s.ResolvedFrom k (block :: blocks) lists) :
    ∃ insts rest, List.Forall₂ (s.Resolved k) block.insts insts ∧
      s.ResolvedFrom (k + 1) blocks rest ∧ lists = insts :: rest := by
  simpa only [ResolvedFrom, List.zipIdx_cons, List.forall₂_cons_left_iff] using h

theorem ResolvedFrom.nil {k : BlockId} {lists : List (List LockUsage.Inst)}
    (h : s.ResolvedFrom k [] lists) : lists = [] := by
  simpa [ResolvedFrom] using h

end Scope

theorem map_name_numbered (start : InstId) (sizes : List (String × Nat)) :
    (numbered start sizes).map (·.name) = sizes.map Prod.fst := by
  induction sizes generalizing start with
  | nil => rfl
  | cons size sizes ih => simp only [numbered, List.map_cons, ih]

section ResolvedFrom

variable {s : Scope} {k start : Nat} {blocks : List Block}
  {lists : List (List LockUsage.Inst)}

theorem flatMap_insts_numbered (h : s.ResolvedFrom k blocks lists) :
    (numbered start (blocks.map fun block => (block.name, block.insts.length))).flatMap (·.insts) =
      List.range' start lists.flatten.length := by
  induction blocks generalizing k start lists with
  | nil => simp [numbered, h.nil]
  | cons block blocks ih =>
    obtain ⟨insts, rest, hinsts, hrest, rfl⟩ := h.cons
    have hlen := hinsts.length_eq
    rw [List.map_cons, numbered, List.flatMap_cons, ih hrest, hlen, List.flatten_cons,
      List.length_append, List.range'_append_1]

/-- What a block lists are its own instructions. -/
theorem own_numbered (h : s.ResolvedFrom k blocks lists) {b : Nat} {block : LockUsage.Block}
    (hb : (numbered start (blocks.map fun block => (block.name, block.insts.length)))[b]? =
      some block) {id : Nat} (hid : id ∈ block.insts) :
    start ≤ id ∧ ∃ inst, lists.flatten[id - start]? = some inst ∧ inst.block = k + b := by
  -- Either it is the first of the blocks, or it is one of the others, numbered from where the first
  -- one ends.
  induction blocks generalizing k start lists b with
  | nil => simp [numbered] at hb
  | cons first blocks ih =>
    obtain ⟨insts, rest, hinsts, hrest, rfl⟩ := h.cons
    have hlen := hinsts.length_eq
    rw [List.flatten_cons]
    cases b with
    | zero =>
      obtain rfl := Option.some.inj hb
      have hrange : start ≤ id ∧ id < start + first.insts.length := List.mem_range'_1.mp hid
      have hlt : id - start < insts.length := by omega
      obtain ⟨di, -, hdi⟩ := exists_getElem?_of_forall₂ hinsts (List.getElem?_eq_getElem hlt)
      exact ⟨hrange.1, insts[id - start], by simp [List.getElem?_append_left hlt], hdi.block⟩
    | succ b =>
      obtain ⟨hle, inst, hinst, hblock⟩ := ih hrest hb
      have hle : start + first.insts.length ≤ id := hle
      have hge : insts.length ≤ id - start := by omega
      refine ⟨by omega, inst, ?_, hblock.trans (Nat.add_right_comm k 1 b)⟩
      rwa [List.getElem?_append_right hge, ← hlen, Nat.sub_sub]

theorem map_name_flatten (h : s.ResolvedFrom k blocks lists) :
    lists.flatten.map (·.name) = blocks.flatMap fun block => block.insts.map Inst.name? := by
  induction blocks generalizing k lists with
  | nil => simp [h.nil]
  | cons block blocks ih =>
    obtain ⟨insts, rest, hinsts, hrest, rfl⟩ := h.cons
    have hnames := map_eq_of_forall₂ hinsts fun _ _ h => h.name
    rw [List.flatten_cons, List.map_append, hnames, ih hrest, List.flatMap_cons]

theorem admits_of_mem_flatten (h : s.ResolvedFrom k blocks lists) {inst : LockUsage.Inst}
    (hi : inst ∈ lists.flatten) : inst.block < k + blocks.length ∧ s.Admits inst.kind := by
  obtain ⟨insts, hl, hi⟩ := List.mem_flatten.mp hi
  obtain ⟨⟨block, b⟩, hb, hinsts⟩ := exists_mem_of_forall₂ h hl
  obtain ⟨di, -, hdi⟩ := exists_mem_of_forall₂ hinsts hi
  have hlt := (List.mem_zipIdx hb).2.1
  exact ⟨by rw [hdi.block]; omega, hdi.admits⟩

end ResolvedFrom

/-- A function as it is loaded from its description. -/
structure Loads (d : Description) (df : Func) (f : LockUsage.Func) : Prop where
  name : f.name = df.name
  params : f.params = df.params
  blockNames : f.blocks.toList.map (·.name) = df.blocks.map (·.name)
  instNames : f.insts.toList.map (·.name) = (Scope.of d df).insts
  nodup_blocks : (df.blocks.map (·.name)).Nodup
  nodup_insts : ((Scope.of d df).insts.filterMap id).Nodup
  listed : f.listed = List.range f.insts.size
  own : ∀ b block, f.blocks[b]? = some block → ∀ id ∈ block.insts, ∃ inst : LockUsage.Inst,
    f.insts[id]? = some inst ∧ inst.block = b
  admits : ∀ inst ∈ f.insts.toList,
    inst.block < df.blocks.length ∧ (Scope.of d df).Admits inst.kind

namespace Loads

variable {d : Description} {df : Func} {f : LockUsage.Func}

theorem filterMap_name (h : d.Loads df f) :
    f.insts.toList.filterMap (·.name) = (Scope.of d df).insts.filterMap id := by
  rw [← h.instNames, List.filterMap_map]
  rfl

theorem exists_own (h : d.Loads df f) {i : InstId} {inst : LockUsage.Inst}
    (hi : f.insts[i]? = some inst) :
    ∃ block, f.blocks[inst.block]? = some block ∧ i ∈ block.insts := by
  have hmem : i ∈ f.listed := by
    rw [h.listed, List.mem_range]
    exact (Array.getElem?_eq_some_iff.mp hi).1
  obtain ⟨block, hblock, hib⟩ := List.mem_flatMap.mp hmem
  obtain ⟨b, hb⟩ := List.mem_iff_getElem?.mp hblock
  rw [Array.getElem?_toList] at hb
  obtain ⟨own, hown, rfl⟩ := h.own b block hb i hib
  obtain rfl := Option.some.inj (hown.symm.trans hi)
  exact ⟨block, hb, hib⟩

end Loads

theorem yields_function (d : Description) (df : Func) :
    Yields IsNaming (d.Loads df) (d.function df) := by
  rw [function]
  refine (yields_distinct _ _).bind fun _ _ hblocks => ?_
  refine (yields_distinct _ _).bind fun _ _ hinsts => ?_
  have hresolve : Yields IsNaming ((Scope.of d df).ResolvedFrom 0 df.blocks)
      (df.blocks.zipIdx.mapM fun entry => (Scope.of d df).resolve entry.2 entry.1) := by
    refine (Yields.mapM fun entry _ => ?_).imp (fun _ he => .inl he) fun _ _ h => h
    exact (Scope.of d df).yields_resolve entry.2 entry.1
  -- The names in scope were taken from the description, the blocks are numbered after resolving.
  refine hresolve.bind fun lists _ hlists => .pure ?_
  constructor
  · rfl
  · rfl
  · simp [map_name_numbered]
  · exact map_name_flatten hlists
  · exact hblocks
  · exact hinsts
  · exact (flatMap_insts_numbered hlists).trans (by simp [List.range_eq_range'])
  · intro b block hb id hid
    rw [List.getElem?_toArray] at hb
    obtain ⟨-, inst, hinst, hblock⟩ := own_numbered hlists hb hid
    rw [Nat.zero_add] at hblock
    exact ⟨inst, by simpa using hinst, hblock⟩
  · intro inst hi
    obtain ⟨hlt, hadmits⟩ := admits_of_mem_flatten hlists hi
    rw [Nat.zero_add] at hlt
    exact ⟨hlt, hadmits⟩

/-- A program as it is put together from its description. -/
structure Gives (d : Description) (p : Program) : Prop where
  globals : p.globals.toList = d.globals
  nodup_globals : d.globals.Nodup
  nodup_functions : (d.functions.map (·.name)).Nodup
  functions : List.Forall₂ d.Loads d.functions p.functions.toList

end Description

namespace Description.Gives

variable {d : Description} {df : Func} {p : Program} {f : LockUsage.Func}

theorem map_name (hp : d.Gives p) :
    p.functions.toList.map (·.name) = d.functions.map (·.name) :=
  map_eq_of_forall₂ hp.functions fun _ _ h => h.name

theorem operandFault?_eq_none (hp : d.Gives p) (hf : d.Loads df f) {o : Operand}
    (ho : (Scope.of d df).Denotes o) : f.operandFault? p o = none := by
  obtain ⟨written, hw⟩ := ho
  rw [Scope.operand_eq] at hw
  rcases Scope.operand?_cases ((Scope.yields_found ..).of_ok hw) with
    ⟨id, name, rfl, hget, -⟩ | ⟨index, name, rfl, hget, -⟩ | ⟨id, name, rfl, hget, -⟩ |
    ⟨value, rfl, -⟩
  · have hlt := (List.getElem?_eq_some_iff.mp hget).1
    have hsize : p.globals.size = d.globals.length := by rw [← hp.globals, Array.length_toList]
    exact if_pos (hsize ▸ hlt)
  · have hlt := (List.getElem?_eq_some_iff.mp hget).1
    exact if_pos (hf.params ▸ hlt)
  · have hlt := (List.getElem?_eq_some_iff.mp hget).1
    have hsize : f.insts.size = (Scope.of d df).insts.length := by
      rw [← hf.instNames, List.length_map, Array.length_toList]
    exact if_pos (hsize ▸ hlt)
  · rfl

theorem instFault?_eq_none (hp : d.Gives p) (hf : d.Loads df f) {inst : LockUsage.Inst}
    (hi : inst ∈ f.insts.toList) : f.instFault? p inst = none := by
  obtain ⟨hblock, hadmits⟩ := hf.admits inst hi
  have hblocks : f.blocks.size = df.blocks.length := by
    rw [← List.length_map (f := fun block : Block => block.name), ← hf.blockNames, List.length_map,
      Array.length_toList]
  have hscope : (Scope.of d df).blocks.length = df.blocks.length := List.length_map _
  have hfunctions : p.functions.size = (Scope.of d df).functions.length := by
    rw [← Array.length_toList, ← hp.functions.length_eq]
    exact (List.length_map _).symm
  simp only [Func.instFault?, Option.or_eq_none_iff, List.findSome?_eq_none_iff,
    List.forall_mem_cons]
  refine ⟨⟨if_pos (hblocks ▸ hblock), fun b hb => ?_⟩, ?_, fun o ho => ?_⟩
  · exact if_pos (hblocks ▸ hscope ▸ hadmits.targets b hb)
  · cases hkind : inst.kind with
    | call callee args =>
      cases callee with
      | direct func => exact if_pos (hfunctions ▸ hadmits.callee func args hkind)
      | indirect => rfl
    | br | condBr | switch | ret | unreachable | cmp | other => rfl
  · exact hp.operandFault?_eq_none hf (hadmits.operands o ho)

/-- A block can only be empty. -/
theorem blockFault?_cases (hf : d.Loads df f) {b : BlockId} {block : LockUsage.Block}
    (hb : f.blocks[b]? = some block) {e : ProgramError} (he : f.blockFault? b block = some e) :
    e = .emptyBlock f.name block.name := by
  by_cases hempty : block.insts.isEmpty = true
  · rw [Func.blockFault?, if_pos hempty] at he
    exact (Option.some.inj he).symm
  · rw [Func.blockFault?, if_neg hempty] at he
    obtain ⟨id, hid, he⟩ := List.exists_of_findSome?_eq_some he
    obtain ⟨inst, hinst, hblock⟩ := hf.own b block hb id hid
    simp [hinst, hblock] at he

theorem fault?_cases (hp : d.Gives p) {e : ProgramError} (he : p.fault? = some e) :
    ∃ function block, e = .emptyBlock function block := by
  obtain ⟨f, hf, he⟩ := List.exists_of_findSome?_eq_some he
  obtain ⟨df, -, hloads⟩ := exists_mem_of_forall₂ hp.functions hf
  have hinsts : f.insts.toList.findSome? (f.instFault? p) = none :=
    List.findSome?_eq_none_iff.mpr fun inst hi => hp.instFault?_eq_none hloads hi
  -- All references are in range, so it is a block that fails.
  rw [Func.fault?, hinsts, Option.or_none] at he
  obtain ⟨⟨block, b⟩, hb, he⟩ := List.exists_of_findSome?_eq_some he
  have hget : f.blocks[b]? = some block := by
    rw [← Array.getElem?_toList]
    exact List.mem_zipIdx_iff_getElem?.mp hb
  exact ⟨_, _, blockFault?_cases hloads hget he⟩

theorem yields_check (hp : d.Gives p) :
    Yields IsLoading (fun q => q = p ∧ p.fault? = none) p.check := by
  rw [Program.check]
  cases h : p.fault? with
  | none => exact .pure ⟨rfl, rfl⟩
  | some e => exact .throw (.inr (hp.fault?_cases h))

end Description.Gives

theorem Description.yields_load (d : Description) :
    Yields IsLoading (fun p => d.Gives p ∧ p.fault? = none) d.load := by
  rw [load]
  refine ((yields_distinct _ _).imp (fun _ => .inl) fun _ _ h => h).bind fun _ _ hglobals => ?_
  refine ((yields_distinct _ _).imp (fun _ => .inl) fun _ _ h => h).bind fun _ _ hfunctions => ?_
  have hall : Yields IsLoading (List.Forall₂ d.Loads d.functions) (d.functions.mapM d.function) :=
    (Yields.mapM fun df _ => d.yields_function df).imp (fun _ => .inl) fun _ _ h => h
  refine hall.bind fun functions _ hloads => ?_
  have hgives : d.Gives ⟨d.name, d.globals.toArray, functions.toArray⟩ :=
    ⟨rfl, hglobals, hfunctions, hloads⟩
  refine hgives.yields_check.imp (fun _ h => h) fun p _ h => ?_
  obtain ⟨rfl, hfault⟩ := h
  exact ⟨hgives, hfault⟩

/-- The description that a text holds. -/
def Description.ofText? (text : String) : Option Description :=
  (Json.parse? text).bind Description.ofJson?

theorem Program.parse_eq (text : String) : parse text =
    ((Description.ofText? text).map Description.load).getD (.error .malformed) := by
  rw [parse, Description.ofText?]
  cases Json.parse? text with
  | none => rfl
  | some json =>
    rw [Option.bind_some]
    simp only [ofJson]
    cases Description.ofJson? json <;> rfl

/-- The program that some characters describe. -/
def Program.ofChars (cs : List Char) : Except ProgramError Program :=
  match Json.value? (2 * cs.length + 2) cs with
  | some (json, rest) => if (Json.skipSpace rest).isEmpty then ofJson json else .error .malformed
  | none => .error .malformed

theorem Program.parse_ofList (cs : List Char) : parse (String.ofList cs) = ofChars cs := by
  simp only [parse, Json.parse?, ofChars, String.toList_ofList]
  split
  · next json h => split at h <;> simp_all
  · next h => split at h <;> simp_all

theorem Program.exists_of_parse {text : String} {p : Program} (h : parse text = .ok p) :
    ∃ d, Description.ofText? text = some d ∧ d.Gives p ∧ p.fault? = none := by
  rw [parse_eq] at h
  cases hd : Description.ofText? text with
  | none => simp [hd] at h
  | some d =>
    rw [hd] at h
    exact ⟨d, rfl, d.yields_load.of_ok h⟩

theorem Program.parse_eq_malformed_iff (text : String) :
    parse text = .error .malformed ↔ Description.ofText? text = none := by
  rw [parse_eq]
  cases Description.ofText? text with
  | none => simp
  | some d =>
    refine iff_of_false (fun h => ?_) (by simp)
    exact (d.yields_load.of_error h).ne_malformed rfl

/-- Loading fails for few reasons, as malformed exactly if there is no description in the text. What
it gives passes the check, its functions, globals, blocks and named instructions have different
names, and the blocks of a function, one after the other, list its instructions in order, each in
the block that it names as its own. -/
theorem Program.parse_gives_well_formed (text : String) :
    (parse text = .error .malformed ↔ Description.ofText? text = none) ∧
    (∀ e, parse text = .error e → e = .malformed ∨ (∃ scope name, e = .duplicateName scope name) ∨
      (∃ scope name, e = .unresolved scope name) ∨
      ∃ function block, e = .emptyBlock function block) ∧
    ∀ p, parse text = .ok p → p.fault? = none ∧
      (p.functions.toList.map (·.name)).Nodup ∧ p.globals.toList.Nodup ∧
      ∀ f ∈ p.functions.toList,
        (f.blocks.toList.map (·.name)).Nodup ∧ (f.insts.toList.filterMap (·.name)).Nodup ∧
        f.blocks.toList.flatMap (·.insts) = List.range f.insts.size ∧
        ∀ (i : InstId) (inst : Inst), f.insts[i]? = some inst →
          ∃ block, f.blocks[inst.block]? = some block ∧ i ∈ block.insts := by
  refine ⟨parse_eq_malformed_iff text, fun e he => ?_, fun p hp => ?_⟩
  · rw [parse_eq] at he
    cases hd : Description.ofText? text with
    | none =>
      rw [hd] at he
      exact .inl (Except.error.inj he).symm
    | some d =>
      rw [hd] at he
      rcases d.yields_load.of_error he with (hunresolved | hduplicate) | hempty
      · exact .inr (.inr (.inl hunresolved))
      · exact .inr (.inl hduplicate)
      · exact .inr (.inr (.inr hempty))
  · obtain ⟨d, -, hgives, hfault⟩ := exists_of_parse hp
    refine ⟨hfault, hgives.map_name ▸ hgives.nodup_functions, hgives.globals ▸ hgives.nodup_globals,
      fun f hf => ?_⟩
    obtain ⟨df, -, hf⟩ := exists_mem_of_forall₂ hgives.functions hf
    exact ⟨hf.blockNames ▸ hf.nodup_blocks, hf.filterMap_name ▸ hf.nodup_insts, hf.listed,
      fun i inst hi => hf.exists_own hi⟩

def crossedText : String :=
  r#"["m",["l","k"],[["f",["x"],[["A",[["other","v",["%w"]],["call",null,"g",["@k"]],["cond_br","%w","B","A"]]],["B",[["cmp","w","eq","%x","0"],["ret","%v"]]]]],["g",["y"]]]]"#

/-- Refers to a value, a block and a function that come later. -/
def crossedFunc : Func where
  name := "f"
  params := ["x"]
  blocks := #[⟨"A", [0, 1, 2]⟩, ⟨"B", [3, 4]⟩]
  insts := #[⟨some "v", 0, .other [.inst 3]⟩, ⟨none, 0, .call (.direct 1) [.global 1]⟩,
    ⟨none, 0, .condBr (.inst 3) 1 0⟩, ⟨some "w", 1, .cmp .eq (.arg 0) (.const (.int 0))⟩,
    ⟨none, 1, .ret (some (.inst 0))⟩]

def crossed : Program := ⟨"m", #["l", "k"], #[crossedFunc, ⟨"g", ["y"], #[], #[]⟩]⟩

set_option maxRecDepth 2000 in
theorem crossed_text_well_formed :
    (Program.parse crossedText = .ok crossed ∧ crossed.fault? = none ∧
      (crossed.functions.toList.map (·.name)).Nodup ∧ crossed.globals.toList.Nodup ∧
      (crossedFunc.blocks.toList.map (·.name)).Nodup ∧
      (crossedFunc.insts.toList.filterMap (·.name)).Nodup ∧
      crossedFunc.blocks.toList.flatMap (·.insts) = List.range 5 ∧
      ∃ block, crossedFunc.blocks[1]? = some block ∧ 3 ∈ block.insts) ∧
    (Program.parse "[]" = .error .malformed ∧ Description.ofText? "[]" = none) ∧
    Program.parse r#"["m",["l","l"],[]]"# = .error (.duplicateName "m" "l") ∧
    Program.parse r#"["m",[],[["f",[],[["A",[["ret","%x"]]]]]]]"# =
      .error (.unresolved "function `f`" "%x") ∧
    Program.parse r#"["m",[],[["f",[],[["A",[]]]]]]"# = .error (.emptyBlock "f" "A") := by
  have hparse : Program.parse crossedText = .ok crossed :=
    (Program.parse_ofList _).trans (by decide +kernel)
  obtain ⟨hfault, hfunctions, hglobals, hall⟩ :=
    (Program.parse_gives_well_formed crossedText).2.2 crossed hparse
  obtain ⟨hblocks, hinsts, hlisted, hown⟩ := hall crossedFunc List.mem_cons_self
  have hmalformed : Program.parse "[]" = .error .malformed :=
    (Program.parse_ofList _).trans (by decide +kernel)
  exact ⟨⟨hparse, hfault, hfunctions, hglobals, hblocks, hinsts, hlisted, hown 3 _ rfl⟩,
    ⟨hmalformed, (Program.parse_gives_well_formed _).1.mp hmalformed⟩,
    (Program.parse_ofList _).trans (by decide +kernel),
    (Program.parse_ofList _).trans (by decide +kernel),
    (Program.parse_ofList _).trans (by decide +kernel)⟩

end LockUsage
