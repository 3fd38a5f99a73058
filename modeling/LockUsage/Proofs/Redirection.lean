import LockUsage.Proofs.ControlDependence
import LockUsage.Proofs.Lookups
import LockUsage.Usage.Pairs

/-! Programs whose direct calls go elsewhere. Only call graphs and lock operations depend on whom a
call goes to: values derive from the same values and have the same names, and control flows the same
way. -/

namespace LockUsage

def Callee.redirect (r : FuncId → FuncId) : Callee → Callee
  | .direct func => .direct (r func)
  | .indirect target => .indirect target

namespace InstKind

variable (r : FuncId → FuncId) (kind : InstKind)

def redirect : InstKind → InstKind
  | .call callee args => .call (callee.redirect r) args
  | kind => kind

@[simp] theorem successors_redirect : (kind.redirect r).successors = kind.successors := by
  cases kind <;> rfl

@[simp] theorem isTerminator_redirect : (kind.redirect r).isTerminator = kind.isTerminator := by
  cases kind <;> rfl

@[simp] theorem isExit_redirect : (kind.redirect r).isExit = kind.isExit := by
  cases kind <;> rfl

@[simp] theorem operands_redirect : (kind.redirect r).operands = kind.operands := by
  cases kind with
  | call callee args => cases callee <;> rfl
  | _ => rfl

@[simp] theorem roles_redirect : (kind.redirect r).roles = kind.roles := by
  rw [roles, roles, operands_redirect]
  cases kind <;> rfl

end InstKind

def Inst.redirect (r : FuncId → FuncId) (inst : Inst) : Inst :=
  { inst with kind := inst.kind.redirect r }

/-- The call with another callee, which may depend on where it is. -/
def CallSite.redirect (r : InstId → FuncId → FuncId) (site : CallSite) : CallSite :=
  { site with callee := site.callee.redirect (r site.inst) }

/-- The instructions with calls that go elsewhere. -/
def redirectInsts (r : InstId → FuncId → FuncId) (insts : Array Inst) : Array Inst :=
  insts.mapIdx fun id inst => inst.redirect (r id)

section

variable (r : InstId → FuncId → FuncId) (insts : Array Inst)

@[simp] theorem size_redirectInsts : (redirectInsts r insts).size = insts.size := Array.size_mapIdx

@[simp] theorem getElem?_redirectInsts (id : InstId) :
    (redirectInsts r insts)[id]? = insts[id]?.map (Inst.redirect (r id)) := Array.getElem?_mapIdx

theorem toList_redirectInsts : (redirectInsts r insts).toList =
    insts.toList.mapIdx fun id inst => inst.redirect (r id) := Array.toList_mapIdx

end

namespace Func

variable (r : InstId → FuncId → FuncId) (f : Func)

-- Reducible, so that the blocks of the function are seen to be the same.
abbrev redirect (f : Func) : Func := { f with insts := redirectInsts r f.insts }

theorem parent?_redirect (id : InstId) : (f.redirect r).parent? id = f.parent? id := by
  simp only [parent?, getElem?_redirectInsts]
  cases f.insts[id]? with
  | none => rfl
  | some inst => simp [Inst.redirect]

theorem rootFrom_redirect (fuel : Nat) (seen : List InstId) (o : Operand) :
    (f.redirect r).rootFrom fuel seen o = f.rootFrom fuel seen o := by
  induction fuel generalizing seen o with
  | zero => rfl
  | succ fuel ih =>
    cases o with
    | inst id =>
      simp only [rootFrom, parent?_redirect]
      cases f.parent? id with
      | none => rfl
      | some parent => simp only [ih]
    | _ => rfl

@[simp] theorem root_redirect (o : Operand) : (f.redirect r).root o = f.root o := by
  rw [root, root, size_redirectInsts, rootFrom_redirect]

@[simp] theorem hasUses_redirect (id : InstId) : (f.redirect r).hasUses id = f.hasUses id := by
  have hoperands : (f.redirect r).insts.toList.flatMap (·.kind.operands) =
      f.insts.toList.flatMap (·.kind.operands) := by
    rw [toList_redirectInsts, List.flatMap_def, List.flatMap_def]
    congr 1
    refine List.ext_getElem? fun id => ?_
    simp only [List.getElem?_map, List.getElem?_mapIdx, Option.map_map]
    exact congrArg (Option.map · _) (funext fun inst => inst.kind.operands_redirect _)
  rw [hasUses, hasUses, useCount, useCount, hoperands]

theorem call?_redirect (id : InstId) :
    (f.redirect r).call? id = (f.call? id).map (Option.map (CallSite.redirect r)) := by
  simp only [call?, getElem?_redirectInsts, Option.map_map]
  cases f.insts[id]? with
  | none => rfl
  | some inst =>
    obtain ⟨name, block, kind⟩ := inst
    cases kind <;> rfl

theorem callSites?_redirect :
    (f.redirect r).callSites? = f.callSites?.map (List.map (CallSite.redirect r)) := by
  have hlisted : (f.redirect r).listed = f.listed := rfl
  rw [callSites?, callSites?, hlisted, funext (call?_redirect r f), mapM_map, Option.map_map,
    Option.map_map]
  congr 1
  funext calls
  simp [List.filterMap_map, List.map_filterMap]

theorem wellIndexed_redirect (h : f.WellIndexed) : (f.redirect r).WellIndexed := by
  obtain ⟨hblocks, hinsts⟩ := h
  refine ⟨fun block hblock id hid => ?_, fun inst hinst => ?_⟩
  · rw [size_redirectInsts]
    exact hblocks block hblock id hid
  · rw [toList_redirectInsts, List.mem_mapIdx] at hinst
    obtain ⟨id, hid, rfl⟩ := hinst
    have hinst := hinsts _ (List.getElem_mem hid)
    simpa [Inst.WellIndexed, Inst.redirect] using hinst

end Func

namespace Program

variable (r : FuncId → InstId → FuncId → FuncId) (p : Program)

def redirect (p : Program) : Program :=
  { p with functions := p.functions.mapIdx fun id f => f.redirect (r id) }

@[simp] theorem size_functions_redirect : (p.redirect r).functions.size = p.functions.size :=
  Array.size_mapIdx

@[simp] theorem getElem?_functions_redirect (func : FuncId) :
    (p.redirect r).functions[func]? = p.functions[func]?.map (Func.redirect (r func)) :=
  Array.getElem?_mapIdx

@[simp] theorem defined_redirect : (p.redirect r).defined = p.defined := by
  rw [defined, defined, size_functions_redirect]
  refine List.filter_congr fun func _ => ?_
  rw [getElem?_functions_redirect]
  cases p.functions[func]? <;> rfl

@[simp] theorem valueName?_redirect (func : FuncId) (o : Operand) :
    (p.redirect r).valueName? func o = p.valueName? func o := by
  rw [valueName?, valueName?, getElem?_functions_redirect]
  cases p.functions[func]? with
  | none => rfl
  | some f =>
    cases o with
    | inst id => simp [Function.comp_def, Inst.redirect]
    | _ => rfl

@[simp] theorem predicateName?_redirect (func : FuncId) (f : Func) (r' : InstId → FuncId → FuncId)
    (o : Operand) :
    (p.redirect r).predicateName? func (f.redirect r') o = p.predicateName? func f o := by
  simp [predicateName?]

theorem guardOf?_redirect (func : FuncId) (f : Func) (r' : InstId → FuncId → FuncId)
    (cond : Operand) :
    (p.redirect r).guardOf? func (f.redirect r') cond = p.guardOf? func f cond := by
  cases cond with
  | inst id =>
    simp only [guardOf?, predicateName?_redirect, getElem?_redirectInsts]
    cases f.insts[id]? with
    | none => rfl
    | some inst =>
      obtain ⟨name, block, kind⟩ := inst
      cases kind <;> rfl
  | _ => simp [guardOf?]

end Program

section Faults

variable (r : FuncId → InstId → FuncId → FuncId) (p : Program)

theorem Func.blockFault?_redirect (r' : InstId → FuncId → FuncId) (f : Func) (b : BlockId)
    (block : Block) : (f.redirect r').blockFault? b block = f.blockFault? b block := by
  simp only [blockFault?, getElem?_redirectInsts]
  congr 2
  funext id
  cases f.insts[id]? <;> rfl

theorem Func.operandFault?_redirect (r' : InstId → FuncId → FuncId) (f : Func) (o : Operand) :
    (f.redirect r').operandFault? (p.redirect r) o = f.operandFault? p o := by
  cases o with
  | inst id => simp [operandFault?]
  | _ => rfl

theorem Func.instFault?_redirect (r' : InstId → FuncId → FuncId) (f : Func) {s : FuncId → FuncId}
    (hs : ∀ g < p.functions.size, s g < p.functions.size) {inst : Inst}
    (h : f.instFault? p inst = none) :
    (f.redirect r').instFault? (p.redirect r) (inst.redirect s) = none := by
  obtain ⟨name, block, kind⟩ := inst
  simp only [instFault?, Inst.redirect, InstKind.successors_redirect, InstKind.operands_redirect,
    funext (operandFault?_redirect r p r' f), Option.or_eq_none_iff] at h ⊢
  refine ⟨h.1, ?_, h.2.2⟩
  cases kind with
  | call callee args =>
    cases callee with
    | direct g =>
      have hg : g < p.functions.size := by simpa [calleeFault?] using h.2.1
      simp [InstKind.redirect, Callee.redirect, calleeFault?, hs g hg]
    | indirect => rfl
  | _ => rfl

/-- A program stays without fault if its calls go to functions that are there. -/
theorem Program.fault?_redirect
    (hr : ∀ f id, ∀ g < p.functions.size, r f id g < p.functions.size)
    (hp : p.fault? = none) : (p.redirect r).fault? = none := by
  simp only [fault?, List.findSome?_eq_none_iff] at hp ⊢
  intro f' hf'
  obtain ⟨func, hfunc⟩ := List.mem_iff_getElem?.mp hf'
  rw [Array.getElem?_toList, getElem?_functions_redirect, Option.map_eq_some_iff] at hfunc
  obtain ⟨f, hf, rfl⟩ := hfunc
  have hfault := hp f (mem_functions hf)
  simp only [Func.fault?, Option.or_eq_none_iff, List.findSome?_eq_none_iff,
    Func.blockFault?_redirect] at hfault ⊢
  refine ⟨hfault.1, fun inst' hinst' => ?_⟩
  rw [toList_redirectInsts, List.mem_mapIdx] at hinst'
  obtain ⟨id, hid, rfl⟩ := hinst'
  exact Func.instFault?_redirect r p _ f (hr func id) (hfault.2 _ (List.getElem_mem hid))

end Faults

@[simp] theorem ScopedValue.name?_redirect (r : FuncId → InstId → FuncId → FuncId) (p : Program)
    (v : ScopedValue) : v.name? (p.redirect r) = v.name? p := by
  obtain ⟨func, o⟩ := v
  simp only [name?, Program.valueName?_redirect, Program.getElem?_functions_redirect]
  cases p.functions[func]? <;> rfl

@[simp] theorem AliasSource.aliases?_redirect (source : AliasSource)
    (r : FuncId → InstId → FuncId → FuncId) (p : Program) (threshold : AliasKind)
    (v v' : ScopedValue) :
    source.aliases? (p.redirect r) threshold v v' = source.aliases? p threshold v v' := by
  cases source <;> simp [aliases?, alias?]

theorem idxOf?_map_cast (h : n = m) (l : List (Fin n)) (i : Fin n) :
    (l.map (Fin.cast h)).idxOf? (i.cast h) = l.idxOf? i := by
  subst h
  simp

namespace Body

variable (r : InstId → FuncId → FuncId) (b : Body)

abbrev redirect (b : Body) : Body := ⟨b.func.redirect r, b.func.wellIndexed_redirect r b.indexed⟩

theorem of?_redirect {f : Func} (h : of? f = some b) :
    of? (f.redirect r) = some (b.redirect r) := by
  obtain rfl := func_of_of? h
  rw [of?, dif_pos (b.func.wellIndexed_redirect r b.indexed)]

theorem size_redirect : b.func.insts.size = (b.redirect r).func.insts.size :=
  (size_redirectInsts r b.func.insts).symm

/-- The instruction in the same place. -/
def lift (i : b.InstIx) : (b.redirect r).InstIx := i.cast (b.size_redirect r)

variable {b} (i : b.InstIx) (bb : b.BlockIx)

@[simp] theorem val_lift : (b.lift r i).val = i.val := rfl

theorem inst_lift : (b.redirect r).inst (b.lift r i) = (b.inst i).redirect (r i.val) :=
  Array.getElem_mapIdx ..

theorem kind_lift : (b.redirect r).kind (b.lift r i) = (b.kind i).redirect (r i.val) :=
  congrArg Inst.kind (inst_lift r i)

theorem blockOf_lift : (b.redirect r).blockOf (b.lift r i) = b.blockOf i :=
  Fin.ext ((congrArg Inst.block (inst_lift r i)).trans rfl)

theorem listed_redirect : (b.redirect r).listed bb = (b.listed bb).map (b.lift r) := by
  refine List.map_injective_iff.mpr (fun _ _ => Fin.ext) ?_
  simp [listed, List.map_pmap]

theorem map_val_targets : (b.targets i).map Fin.val = (b.kind i).successors :=
  (List.map_pmap ..).trans ((List.pmap_eq_map ..).trans (List.map_id _))

theorem targets_lift : (b.redirect r).targets (b.lift r i) = b.targets i := by
  refine List.map_injective_iff.mpr (fun _ _ => Fin.ext) ((map_val_targets _).trans ?_)
  rw [kind_lift, InstKind.successors_redirect]
  exact (map_val_targets i).symm

theorem first?_redirect : (b.redirect r).first? bb = (b.first? bb).map (b.lift r) := by
  rw [first?, listed_redirect, List.head?_map, first?]

theorem terminator?_redirect :
    (b.redirect r).terminator? bb = (b.terminator? bb).map (b.lift r) := by
  rw [terminator?, terminator?, listed_redirect, List.getLast?_map]
  cases (b.listed bb).getLast? with
  | none => rfl
  | some i =>
    simp only [Option.map_some, Option.filter_some, kind_lift, InstKind.isTerminator_redirect]
    split <;> rfl

theorem successors_redirect : (b.redirect r).successors bb = b.successors bb := by
  rw [successors, successors, terminator?_redirect]
  cases b.terminator? bb with
  | none => rfl
  | some i => exact targets_lift r i

theorem entry?_redirect : Body.entry? (b.redirect r) = Option.map (b.lift r) b.entry? := by
  have hblock : (b.redirect r).entryBlock? = b.entryBlock? := rfl
  unfold Body.entry?
  rw [hblock, Option.map_bind]
  exact congrArg (Option.bind _) (funext (first?_redirect (b := b) r))

theorem position?_lift : (b.redirect r).position? (b.lift r i) = b.position? i := by
  rw [position?, position?, blockOf_lift, listed_redirect]
  exact idxOf?_map_cast _ _ _

theorem next?_lift : (b.redirect r).next? (b.lift r i) = (b.next? i).map (b.lift r) := by
  rw [next?, next?, position?_lift, blockOf_lift, listed_redirect]
  cases b.position? i with
  | none => rfl
  | some k => exact List.getElem?_map ..

theorem prev?_lift : (b.redirect r).prev? (b.lift r i) = (b.prev? i).map (b.lift r) := by
  rw [prev?, prev?, position?_lift, blockOf_lift, listed_redirect]
  cases b.position? i with
  | none => rfl
  | some k =>
    cases k with
    | zero => rfl
    | succ k => exact List.getElem?_map ..

theorem isConditional_lift : (b.redirect r).isConditional (b.lift r i) = b.isConditional i := by
  rw [isConditional, isConditional, kind_lift]
  cases b.kind i <;> rfl

theorem way_lift (way : Branch) : (b.redirect r).way (b.lift r i) way = b.way i way := by
  rw [Body.way, Body.way, isConditional_lift]

theorem leaves_lift : (b.redirect r).leaves (b.lift r i) = b.leaves i := by
  rw [leaves, leaves, kind_lift, next?_lift, InstKind.isExit_redirect,
    InstKind.isTerminator_redirect, Option.isNone_map]

theorem predecessors_redirect :
    (b.redirect r).predecessors bb = (b.predecessors bb).map (b.lift r) := by
  have hblocks : (b.redirect r).blocks = b.blocks := rfl
  rw [predecessors, predecessors, hblocks, List.map_filterMap,
    funext (terminator?_redirect (b := b) r)]
  congr 1
  exact List.filter_congr fun p _ => by rw [successors_redirect]

section Blocks

theorem neighbours_redirect : (b.redirect r).neighbours bb = b.neighbours bb := by
  rw [neighbours, neighbours, terminator?_redirect]
  cases b.terminator? bb with
  | none => rfl
  | some i =>
    simp only [Option.map_some, kind_lift, InstKind.isExit_redirect]
    split
    · rfl
    · rw [targets_lift]

theorem nextBlocks_redirect : (b.redirect r).nextBlocks bb = b.nextBlocks bb := by
  rw [nextBlocks, nextBlocks, neighbours_redirect]

theorem examineFrom_redirect (fuel : Nat) (entered : List b.BlockIx)
    (pending : List (b.BlockIx × b.BlockIx)) :
    (b.redirect r).examineFrom fuel entered pending = b.examineFrom fuel entered pending := by
  induction fuel generalizing entered pending with
  | zero => rfl
  | succ fuel ih =>
    cases pending with
    | nil => rfl
    | cons edge pending =>
      obtain ⟨source, target⟩ := edge
      by_cases hin : target ∈ entered
      · rw [examineFrom_of_mem (b := b.redirect r) hin, examineFrom_of_mem hin, ih]
      · rw [examineFrom_of_not_mem (b := b.redirect r) hin, examineFrom_of_not_mem hin,
          nextBlocks_redirect, ih]

theorem immediate_redirect : (b.redirect r).immediate = b.immediate := by
  have hgraph : (b.redirect r).graph = b.graph :=
    congrArg Vector.ofFn (funext (neighbours_redirect (b := b) r))
  rw [immediate, immediate, hgraph]

theorem dependences_redirect : (b.redirect r).dependences = b.dependences := by
  have hblock : (b.redirect r).entryBlock? = b.entryBlock? := rfl
  have hexamined (start : b.BlockIx) : (b.redirect r).examined start = b.examined start := by
    have hcount : (b.redirect r).edgeCount = b.edgeCount :=
      congrArg (fun next => (b.blocks.flatMap next).length)
        (funext (nextBlocks_redirect (b := b) r))
    rw [examined, examined, hcount, nextBlocks_redirect, examineFrom_redirect]
  rw [dependences, dependences, hblock, immediate_redirect]
  cases b.entryBlock? with
  | none => rfl
  | some start =>
    simp only [hexamined]
    rfl

end Blocks

section Pairs

theorem lift_injective : Function.Injective (b.lift r) := by
  intro i j h
  have hval : (b.lift r i).val = (b.lift r j).val := congrArg Fin.val h
  exact Fin.ext hval

variable {r}

def LockPair.lift (r : InstId → FuncId → FuncId) (pair : b.LockPair) : (b.redirect r).LockPair :=
  ⟨b.lift r pair.acquire, b.lift r pair.release⟩

def PairState.lift (r : InstId → FuncId → FuncId) (s : b.PairState) : (b.redirect r).PairState :=
  ⟨s.last.map (b.lift r), s.pairs.map (LockPair.lift r)⟩

variable (op : InstId → Option LockOp)

theorem passInst_lift (s : b.PairState) : (b.redirect r).passInst (fun i => op i.val) (s.lift r)
    (b.lift r i) = (b.passInst (fun i => op i.val) s i).lift r := by
  obtain ⟨last, pairs⟩ := s
  simp only [passInst, PairState.lift, val_lift]
  cases op i.val with
  | none => cases last <;> rfl
  | some operation =>
    cases operation with
    | acquire => rfl
    | release =>
      cases last with
      | none => rfl
      | some a =>
        have hany : ((pairs.map (LockPair.lift r)).any fun pair => pair.acquire == b.lift r a) =
            pairs.any fun pair => pair.acquire == a := by
          rw [List.any_map]
          congr 1
          funext pair
          exact Bool.eq_iff_iff.mpr (by simp [LockPair.lift, (lift_injective r).eq_iff])
        simp only [Option.map_some, hany, Option.map_none]
        split
        · rfl
        · rw [List.map_append]
          rfl

theorem passBlock_lift (s : b.PairState) : (b.redirect r).passBlock (fun i => op i.val) (s.lift r)
    bb = (b.passBlock (fun i => op i.val) s bb).lift r := by
  rw [passBlock, passBlock, listed_redirect, List.foldl_map]
  generalize b.listed bb = insts
  induction insts generalizing s with
  | nil => rfl
  | cons i insts ih => rw [List.foldl_cons, List.foldl_cons, passInst_lift, ih]

theorem pairsFrom_lift (fuel : Nat) (passed : b.Passed)
    (pending : List (b.BlockIx × Option b.InstIx)) (pairs : List b.LockPair) :
    (b.redirect r).pairsFrom (fun i => op i.val) fuel
        (passed.map (List.map (Option.map (b.lift r))))
        (pending.map (Prod.map id (Option.map (b.lift r)))) (pairs.map (LockPair.lift r)) =
      (b.pairsFrom (fun i => op i.val) fuel passed pending pairs).map (LockPair.lift r) := by
  induction fuel generalizing passed pending pairs with
  | zero => rfl
  | succ fuel ih =>
    cases pending with
    | nil => rfl
    | cons next pending =>
      obtain ⟨bb, last⟩ := next
      have hpassed : (passed.map (List.map (Option.map (b.lift r))))[bb] =
          (passed[bb]).map (Option.map (b.lift r)) := Vector.getElem_map ..
      have hmem : last.map (b.lift r) ∈ (passed.map (List.map (Option.map (b.lift r))))[bb] ↔
          last ∈ passed[bb] := by
        rw [hpassed]
        exact List.mem_map_of_injective (Option.map_injective (lift_injective r))
      have hstate := passBlock_lift (r := r) bb op ⟨last, pairs⟩
      simp only [List.map_cons, Prod.map_apply, id_eq]
      by_cases hin : last ∈ passed[bb]
      · exact (if_pos (hmem.mpr hin)).trans
          ((ih passed pending pairs).trans (congrArg _ (if_pos hin).symm))
      · refine (if_neg (mt hmem.mp hin)).trans (Eq.trans ?_ (congrArg _ (if_neg hin).symm))
        simp only [PairState.lift] at hstate
        rw [← ih, List.map_append, List.map_map, Vector.map_set]
        simp only [hstate, hpassed, successors_redirect]
        rfl

theorem findPairs_redirect : (b.redirect r).findPairs (fun i => op i.val) =
    (b.findPairs fun i => op i.val).map (LockPair.lift r) := by
  have hblock : (b.redirect r).entryBlock? = b.entryBlock? := rfl
  have hfuel : (b.redirect r).pairFuel = b.pairFuel := by
    rw [pairFuel, pairFuel, ← size_redirect, funext (successors_redirect (b := b) r)]
    rfl
  rw [findPairs, findPairs, hblock, hfuel]
  cases b.entryBlock? with
  | none => rfl
  | some start =>
    simp only [← pairsFrom_lift, Vector.map_replicate]
    rfl

theorem testedValue?_redirect : (b.redirect r).testedValue? bb = b.testedValue? bb := by
  rw [testedValue?, testedValue?, terminator?_redirect]
  cases b.terminator? bb with
  | none => rfl
  | some i =>
    simp only [Option.map_some, Option.bind_some, kind_lift]
    cases b.kind i <;> simp [InstKind.redirect]

theorem classify_lift (deps : Dependences b.func.blocks.size) (pair : b.LockPair) :
    (b.redirect r).classify deps (pair.lift r) = b.classify deps pair := by
  have hacquire : (b.redirect r).blockOf (pair.lift r).acquire = b.blockOf pair.acquire :=
    blockOf_lift r _
  have hrelease : (b.redirect r).blockOf (pair.lift r).release = b.blockOf pair.release :=
    blockOf_lift r _
  dsimp only [classify]
  rw [hacquire, hrelease, Func.hasUses_redirect, funext (testedValue?_redirect (b := b) (r := r))]
  congr 1
  cases deps.controlling? (b.blockOf pair.acquire) <;>
    cases deps.controlling? (b.blockOf pair.release) <;> rfl

end Pairs

end Body

theorem Program.guard?_redirect (p : Program) (r : FuncId → InstId → FuncId → FuncId)
    (func : FuncId) {b : Body} (r' : InstId → FuncId → FuncId) (i : b.InstIx) :
    (p.redirect r).guard? func (b.redirect r') (b.lift r' i) = p.guard? func b i := by
  rw [guard?, guard?, Body.kind_lift]
  cases b.kind i with
  | condBr cond => exact guardOf?_redirect r p func b.func r' cond
  | _ => rfl

end LockUsage
