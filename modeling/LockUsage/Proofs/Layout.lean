import LockUsage.Flow.Edge
import LockUsage.Proofs.Loading

/-! How programs are laid out. In one that passes the check every id is in range, and every block
lists at least one instruction, and only its own. In a loaded one each is listed once, and the edges
between instructions run along the blocks: what follows an instruction in its block is entered from
there only. -/

namespace LockUsage

namespace Func

/-- Everything that the check of a function looks at is in order. -/
structure Checked (p : Program) (f : Func) : Prop where
  insts_ne_nil : ∀ block ∈ f.blocks.toList, block.insts ≠ []
  listed : ∀ (b : BlockId) (block : Block), f.blocks[b]? = some block → ∀ id ∈ block.insts,
    ∃ inst : Inst, f.insts[id]? = some inst ∧ inst.block = b
  blocks_lt : ∀ inst ∈ f.insts.toList, ∀ b ∈ inst.block :: inst.kind.successors, b < f.blocks.size
  callees : ∀ inst ∈ f.insts.toList, ∀ callee args, inst.kind = .call (.direct callee) args →
    callee < p.functions.size
  operands : ∀ inst ∈ f.insts.toList, ∀ o ∈ inst.kind.operands, f.operandFault? p o = none

theorem checked_of_fault? {p : Program} {f : Func} (h : f.fault? p = none) : f.Checked p := by
  simp only [fault?, Option.or_eq_none_iff, List.findSome?_eq_none_iff] at h
  obtain ⟨hblocks, hinsts⟩ := h
  have hblock {b : BlockId} {block : Block} (hb : f.blocks[b]? = some block) :
      f.blockFault? b block = none := by
    refine hblocks (block, b) (List.mem_zipIdx_iff_getElem?.mpr ?_)
    rwa [Array.getElem?_toList]
  have hinst {inst : Inst} (hi : inst ∈ f.insts.toList) := hinsts inst hi
  simp only [instFault?, Option.or_eq_none_iff, List.findSome?_eq_none_iff] at hinst
  constructor
  · intro block hb hnil
    obtain ⟨b, hb⟩ := List.mem_iff_getElem?.mp hb
    have hf := hblock (Array.getElem?_toList.symm.trans hb)
    simp [blockFault?, hnil] at hf
  · intro b block hb id hid
    have hf := hblock hb
    have hne : block.insts.isEmpty = false := by
      cases hl : block.insts with
      | nil => simp [hl] at hid
      | cons => rfl
    simp only [blockFault?, hne, Bool.false_eq_true, if_false, List.findSome?_eq_none_iff] at hf
    have hid := hf id hid
    cases hi : f.insts[id]? with
    | none => simp [hi] at hid
    | some inst => exact ⟨inst, rfl, by simpa [hi] using hid⟩
  · intro inst hi b hb
    simpa [targetFault?] using (hinst hi).1 b hb
  · intro inst hi callee args hkind
    simpa [calleeFault?, hkind] using (hinst hi).2.1
  · exact fun inst hi o ho => (hinst hi).2.2 o ho

theorem Checked.wellIndexed {p : Program} {f : Func} (h : f.Checked p) : f.WellIndexed := by
  constructor
  · intro block hb id hid
    obtain ⟨b, hb⟩ := List.mem_iff_getElem?.mp hb
    obtain ⟨inst, hi, -⟩ := h.listed b block (Array.getElem?_toList.symm.trans hb) id hid
    exact (Array.getElem?_eq_some_iff.mp hi).1
  · intro inst hi
    refine ⟨h.blocks_lt inst hi _ List.mem_cons_self,
      fun b hb => h.blocks_lt inst hi b (List.mem_cons_of_mem _ hb), fun id hid => ?_⟩
    obtain ⟨o, ho, hoid⟩ := List.mem_filterMap.mp hid
    have hf := h.operands inst hi o ho
    cases o with
    | inst id' =>
      obtain rfl := Option.some.inj hoid
      simpa [operandFault?] using hf
    | arg | global | const => simp [Operand.inst?] at hoid

end Func

namespace Program

/-- Every function is in order, and no block lists an instruction twice. -/
def Loaded (p : Program) : Prop :=
  ∀ f ∈ p.functions.toList, f.Checked p ∧ ∀ block ∈ f.blocks.toList, block.insts.Nodup

end Program

theorem Program.loaded_of_parse {text : String} {p : Program} (h : parse text = .ok p) :
    p.Loaded := by
  obtain ⟨d, -, hgives, hfault⟩ := exists_of_parse h
  intro f hf
  obtain ⟨df, -, hloads⟩ := exists_mem_of_forall₂ hgives.functions hf
  refine ⟨Func.checked_of_fault? (List.findSome?_eq_none_iff.mp hfault f hf), ?_⟩
  -- The blocks together list each instruction once.
  have hlisted : f.listed.Nodup := hloads.listed ▸ List.nodup_range
  exact (List.nodup_flatMap.mp hlisted).1

namespace Body

/-- Every block lists at least one instruction, and only its own. -/
structure Checked (b : Body) : Prop where
  ne_nil : ∀ bb, b.listed bb ≠ []
  own : ∀ bb, ∀ i ∈ b.listed bb, b.blockOf i = bb

/-- Moreover, no block lists an instruction twice. -/
structure WellListed (b : Body) : Prop extends b.Checked where
  nodup : ∀ bb, (b.listed bb).Nodup

theorem exists_map_val_listed (b : Body) (bb : b.BlockIx) :
    ∃ block, b.func.blocks[bb.val]? = some block ∧ (b.listed bb).map Fin.val = block.insts :=
  ⟨b.func.blocks[bb], by simp, by simp [listed, List.map_pmap]⟩

theorem checked {p : Program} {b : Body} (hc : b.func.Checked p) : b.Checked := by
  constructor
  · intro bb hnil
    obtain ⟨block, hblock, hval⟩ := b.exists_map_val_listed bb
    rw [hnil, List.map_nil] at hval
    have hmem := List.mem_of_getElem? (Array.getElem?_toList.trans hblock)
    exact hc.insts_ne_nil block hmem hval.symm
  · intro bb i hi
    obtain ⟨block, hblock, hval⟩ := b.exists_map_val_listed bb
    have hid : i.val ∈ block.insts := hval ▸ List.mem_map_of_mem hi
    obtain ⟨own, hown, hin⟩ := hc.listed bb.val block hblock i.val hid
    have hi : b.inst i = own := by simpa [inst] using hown
    exact Fin.ext ((congrArg Inst.block hi).trans hin)

theorem wellListed {p : Program} {b : Body} (hc : b.func.Checked p)
    (hn : ∀ block ∈ b.func.blocks.toList, block.insts.Nodup) : b.WellListed := by
  refine ⟨checked hc, fun bb => ?_⟩
  obtain ⟨block, hblock, hval⟩ := b.exists_map_val_listed bb
  have hmem := List.mem_of_getElem? (Array.getElem?_toList.trans hblock)
  exact List.Nodup.of_map Fin.val (hval ▸ hn block hmem)

variable {b : Body} {i j : b.InstIx} {way : Branch}

theorem getElem?_of_position? {k : Nat} (h : b.position? i = some k) :
    (b.listed (b.blockOf i))[k]? = some i := by
  obtain ⟨hlt, hget, -⟩ := List.idxOf?_eq_some_iff.mp h
  exact List.getElem?_eq_some_iff.mpr ⟨hlt, by simpa using hget⟩

/-- The position of an instruction is the first place at which it is listed. -/
theorem position?_le {k m : Nat} (h : (b.listed (b.blockOf i))[k]? = some i)
    (hm : b.position? i = some m) : m ≤ k := by
  obtain ⟨hk, hget⟩ := List.getElem?_eq_some_iff.mp h
  obtain ⟨_, _, hfirst⟩ := List.idxOf?_eq_some_iff.mp hm
  by_contra hlt
  exact hfirst k (by omega) (by simpa using hget)

theorem Checked.exists_position_of_next? (hb : b.Checked) (h : b.next? i = some j) :
    ∃ k, b.position? i = some k ∧ b.blockOf j = b.blockOf i ∧
      (b.listed (b.blockOf i))[k + 1]? = some j := by
  simp only [next?] at h
  split at h
  · next k hk => exact ⟨k, hk, hb.own _ j (List.mem_of_getElem? h), h⟩
  · cases h

theorem WellListed.position? (hb : b.WellListed) {bb : b.BlockIx} {k : Nat}
    (h : (b.listed bb)[k]? = some i) : b.position? i = some k ∧ b.blockOf i = bb := by
  have hi := hb.own bb i (List.mem_of_getElem? h)
  obtain ⟨hk, h⟩ := List.getElem?_eq_some_iff.mp h
  refine ⟨?_, hi⟩
  rw [Body.position?, hi, ← h, List.idxOf?_eq_some_iff]
  refine ⟨hk, by simp, fun m hm he => ?_⟩
  have := (hb.nodup bb).getElem_inj_iff.mp (by simpa using he)
  omega

theorem WellListed.prev?_of_next? (hb : b.WellListed) (h : b.next? i = some j) :
    b.prev? j = some i := by
  obtain ⟨k, hk, hblock, hj⟩ := hb.exists_position_of_next? h
  simp only [prev?, (hb.position? hj).1, hblock]
  exact getElem?_of_position? hk

theorem WellListed.next?_of_prev? (hb : b.WellListed) (h : b.prev? j = some i) :
    b.next? i = some j := by
  simp only [prev?] at h
  split at h
  · next k hk =>
    obtain ⟨hpos, hblock⟩ := hb.position? h
    simp only [next?, hpos, hblock]
    exact getElem?_of_position? hk
  · cases h
  · cases h

theorem Checked.position?_first (hb : b.Checked) {bb : b.BlockIx} (h : b.first? bb = some i) :
    b.position? i = some 0 := by
  obtain ⟨rest, hrest⟩ := List.head?_eq_some_iff.mp h
  rw [position?, hb.own bb i (List.mem_of_mem_head? h), hrest]
  simp [List.idxOf?_cons]

theorem Checked.prev?_of_first? (hb : b.Checked) {bb : b.BlockIx} (h : b.first? bb = some i) :
    b.prev? i = none := by
  simp [prev?, hb.position?_first h]

theorem Checked.prev?_entry (hb : b.Checked) (h : b.entry? = some i) : b.prev? i = none := by
  obtain ⟨bb, -, hbb⟩ := Option.bind_eq_some_iff.mp h
  exact hb.prev?_of_first? hbb

theorem Checked.exists_headNode (hb : b.Checked) (bb : b.BlockIx) :
    ∃ j, b.headNode bb = .inst j ∧ b.first? bb = some j := by
  cases h : b.first? bb with
  | none => exact absurd (List.head?_eq_none_iff.mp h) (hb.ne_nil bb)
  | some j => exact ⟨j, by simp [headNode, h], rfl⟩

theorem Checked.exists_entry (hb : b.Checked) (h : b.func.isDeclaration = false) :
    ∃ entry, b.entry? = some entry := by
  have hpos : 0 < b.func.blocks.size := by
    simpa [Func.isDeclaration, Array.isEmpty, Nat.pos_iff_ne_zero] using h
  obtain ⟨entry, -, hentry⟩ := hb.exists_headNode ⟨0, hpos⟩
  refine ⟨entry, Option.bind_eq_some_iff.mpr ⟨⟨0, hpos⟩, ?_, hentry⟩⟩
  simp [entryBlock?, blocks, List.head?_eq_getElem?, hpos]

theorem target_lt {bb : BlockId} (h : bb ∈ (b.kind i).successors) : bb < b.func.blocks.size :=
  (b.inst_wellIndexed i).2.1 bb h

/-- Control passes to the next instruction of the block or to the first one of a block. -/
theorem Checked.follow_cases (hb : b.Checked) (h : b.follow i way = .inst j) :
    (b.next? i = some j ∧ b.isConditional i = false) ∨ ∃ bb, b.first? bb = some j := by
  have hhead {bb : BlockId} (hbb : bb ∈ (b.kind i).successors) (h : b.headNode bb = .inst j) :
      ∃ bb, b.first? bb = some j := by
    obtain ⟨k, hk, hfirst⟩ := hb.exists_headNode ⟨bb, target_lt hbb⟩
    obtain rfl : k = j := Node.inst.inj (hk.symm.trans h)
    exact ⟨_, hfirst⟩
  cases hkind : b.kind i with
  | condBr cond thenTo elseTo =>
    simp only [follow, hkind] at h
    refine .inr (hhead ?_ h)
    cases way <;> simp [hkind, InstKind.successors, Branch.isTaken]
  | br target =>
    simp only [follow, hkind] at h
    exact .inr (hhead (by simp [hkind, InstKind.successors]) h)
  | switch value default cases =>
    simp only [follow, hkind] at h
    exact .inr (hhead (by simp [hkind, InstKind.successors]) h)
  | ret | unreachable => simp [follow, hkind] at h
  | call | cmp | other =>
    refine .inl ⟨?_, by simp [isConditional, hkind]⟩
    simp only [follow, hkind] at h
    split at h
    · next hnext => rw [hnext, Node.inst.inj h]
    · cases h

theorem Checked.follow_eq_ret_iff (hb : b.Checked) :
    b.follow i way = .ret ↔ b.leaves i = true := by
  have hhead {bb : BlockId} (hbb : bb ∈ (b.kind i).successors) : b.headNode bb ≠ .ret := by
    obtain ⟨k, hk, -⟩ := hb.exists_headNode ⟨bb, target_lt hbb⟩
    intro h
    cases hk.symm.trans h
  cases hkind : b.kind i with
  | condBr cond thenTo elseTo =>
    have hne : b.headNode (if way.isTaken then thenTo else elseTo) ≠ .ret :=
      hhead (by cases way <;> simp [hkind, InstKind.successors, Branch.isTaken])
    simp [follow, leaves, hkind, hne, InstKind.isExit, InstKind.isTerminator]
  | br target =>
    have hne : b.headNode target ≠ .ret := hhead (by simp [hkind, InstKind.successors])
    simp [follow, leaves, hkind, hne, InstKind.isExit, InstKind.isTerminator]
  | switch value default cases =>
    have hne : b.headNode default ≠ .ret := hhead (by simp [hkind, InstKind.successors])
    simp [follow, leaves, hkind, hne, InstKind.isExit, InstKind.isTerminator]
  | ret | unreachable => simp [follow, leaves, hkind, InstKind.isExit]
  | call | cmp | other =>
    cases hnext : b.next? i <;>
      simp [follow, leaves, hkind, hnext, InstKind.isExit, InstKind.isTerminator]

theorem edge_of_not_conditional (h : b.isConditional i = false) (way way' : Branch) :
    b.edge i way = b.edge i way' := by simp [edge, Body.way, h]

/-- What follows an instruction in its block is entered from there only. -/
theorem WellListed.edge_eq_of_prev? (hb : b.WellListed) (h : (b.edge i way).target = .inst j)
    {k : b.InstIx} (hk : b.prev? j = some k) : b.edge i way = b.edge k .taken := by
  rcases hb.follow_cases h with ⟨hnext, hc⟩ | ⟨bb, hbb⟩
  · obtain rfl : i = k := Option.some.inj ((hb.prev?_of_next? hnext).symm.trans hk)
    exact edge_of_not_conditional hc _ _
  · cases (hb.prev?_of_first? hbb).symm.trans hk

theorem Checked.edge_taken_ne_notTaken (hb : b.Checked) (h : b.isConditional i = true) :
    b.edge i .taken ≠ b.edge i .notTaken := by
  intro he
  simp only [edge, way, h, if_true, Edge.flow.injEq, true_and] at he
  cases hkind : b.kind i with
  | condBr cond thenTo elseTo =>
    have hthen : thenTo ∈ (b.kind i).successors := by simp [hkind, InstKind.successors]
    have helse : elseTo ∈ (b.kind i).successors := by simp [hkind, InstKind.successors]
    obtain ⟨k, hk, hfirst⟩ := hb.exists_headNode ⟨thenTo, target_lt hthen⟩
    obtain ⟨k', hk', hfirst'⟩ := hb.exists_headNode ⟨elseTo, target_lt helse⟩
    simp only [follow, hkind, Branch.isTaken, if_true, Bool.false_eq_true, if_false] at he
    obtain rfl : k = k' := Node.inst.inj (hk.symm.trans (he.trans hk'))
    have hown := hb.own _ k (List.mem_of_mem_head? hfirst)
    have hown' := hb.own _ k (List.mem_of_mem_head? hfirst')
    have : thenTo = elseTo := congrArg Fin.val (hown.symm.trans hown')
    simp [isConditional, hkind, this] at h
  | br | switch | ret | unreachable | call | cmp | other => simp [isConditional, hkind] at h

theorem Checked.way_eq_of_edge_eq (hb : b.Checked) {way' : Branch}
    (h : b.edge i way = b.edge j way') : i = j ∧ b.way i way = b.way i way' := by
  obtain rfl : i = j := (Edge.flow.inj h).1
  refine ⟨rfl, ?_⟩
  by_cases hc : b.isConditional i = true
  · have hne := hb.edge_taken_ne_notTaken hc
    cases way <;> cases way'
    · rfl
    · exact absurd h hne
    · exact absurd h.symm hne
    · rfl
  · simp [Body.way, hc]

end Body

theorem Body.func_of_of? {f : Func} {b : Body} (h : Body.of? f = some b) : b.func = f := by
  simp only [Body.of?] at h
  split at h
  · obtain rfl := Option.some.inj h
    rfl
  · cases h

namespace Program

variable {p : Program} {func : FuncId} {f : Func}

theorem mem_functions (hf : p.functions[func]? = some f) : f ∈ p.functions.toList :=
  List.mem_of_getElem? (Array.getElem?_toList.trans hf)

theorem checked_of_fault? (hp : p.fault? = none) (hf : p.functions[func]? = some f) :
    f.Checked p :=
  Func.checked_of_fault? (List.findSome?_eq_none_iff.mp hp f (mem_functions hf))

end Program

theorem Func.Checked.exists_body {p : Program} {f : Func} (h : f.Checked p) :
    ∃ b, Body.of? f = some b :=
  ⟨⟨f, h.wellIndexed⟩, by simp [Body.of?, h.wellIndexed]⟩

namespace Program.Loaded

variable {p : Program} {func : FuncId} {f : Func}

theorem exists_body (hp : p.Loaded) (hf : p.functions[func]? = some f) :
    ∃ b, Body.of? f = some b := (hp f (mem_functions hf)).1.exists_body

theorem wellListed (hp : p.Loaded) (hf : p.functions[func]? = some f) {b : Body}
    (hb : Body.of? f = some b) : b.WellListed := by
  obtain rfl := Body.func_of_of? hb
  obtain ⟨hc, hn⟩ := hp _ (mem_functions hf)
  exact Body.wellListed hc hn

end Program.Loaded

end LockUsage
