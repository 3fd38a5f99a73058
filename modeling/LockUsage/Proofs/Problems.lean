import LockUsage.Proofs.Layout
import LockUsage.Proofs.Lists
import LockUsage.Solver.Run

/-! How the problem of following a lock is posed. It can be posed whenever all values and
instructions that it is about are there. -/

namespace LockUsage

/-- A value of a function that is there. -/
def ScopedValue.InRange (p : Program) (v : ScopedValue) : Prop :=
  ∃ f, p.functions[v.func]? = some f ∧ f.operandFault? p v.value = none

/-- All sites are at instructions of a function and on values of it. -/
def SiteMap.InRange (p : Program) (func : FuncId) (f : Func) (m : SiteMap) : Prop :=
  ∀ entry ∈ m.entries, entry.1 < f.insts.size ∧
    ∀ site ∈ entry.2, ScopedValue.InRange p ⟨func, site.lock⟩

section InRange

variable {p : Program} {func : FuncId} {f : Func}

theorem isSome_valueName? (hf : p.functions[func]? = some f) {o : Operand}
    (ho : f.operandFault? p o = none) : (p.valueName? func o).isSome := by
  cases o with
  | inst id =>
    have hid : id < f.insts.size := by simpa [Func.operandFault?] using ho
    simp [Program.valueName?, hf, hid]
  | global id =>
    have hid : id < p.globals.size := by simpa [Func.operandFault?] using ho
    simp [Program.valueName?, hf, hid]
  | arg | const => simp [Program.valueName?, hf]

theorem ScopedValue.InRange.isSome_name? {v : ScopedValue} (h : v.InRange p) :
    (v.name? p).isSome := by
  obtain ⟨f, hf, hv⟩ := h
  obtain ⟨name, hname⟩ := Option.isSome_iff_exists.mp (isSome_valueName? hf hv)
  obtain ⟨func, o⟩ := v
  cases o <;> simp_all [ScopedValue.name?]

theorem isSome_aliases? {a b : ScopedValue} (ha : a.InRange p) (hb : b.InRange p)
    (source : AliasSource) (threshold : AliasKind) : (source.aliases? p threshold a b).isSome := by
  obtain ⟨nameA, hA⟩ := Option.isSome_iff_exists.mp ha.isSome_name?
  obtain ⟨nameB, hB⟩ := Option.isSome_iff_exists.mp hb.isSome_name?
  cases source with
  | everything => rfl
  | names =>
    simp only [AliasSource.aliases?, AliasSource.alias?]
    split_ifs <;> simp [hA, hB]
  | sets groups =>
    simp only [AliasSource.aliases?, AliasSource.alias?]
    split_ifs <;> simp [hA, hB]

theorem isSome_firstOp? {isOn : LockSite → Option Bool} {sites : List LockSite}
    (h : ∀ site ∈ sites, (isOn site).isSome) : (firstOp? isOn sites).isSome := by
  induction sites with
  | nil => rfl
  | cons site sites ih =>
    obtain ⟨on, hon⟩ := Option.isSome_iff_exists.mp (h site List.mem_cons_self)
    have hrest := ih fun site hs => h site (List.mem_cons_of_mem _ hs)
    cases on <;> simp [firstOp?, hon, hrest]

/-- Sites that are there have events, all at instructions of the function. -/
theorem SiteMap.InRange.exists_events {m : SiteMap} (h : m.InRange p func f) {lock : ScopedValue}
    (hlock : lock.InRange p) (source : AliasSource) (config : Config) :
    ∃ events, m.events? (LockSite.isOn? source config p func lock) = some events ∧
      ∀ event ∈ events, event.1 < f.insts.size := by
  refine exists_mapM fun entry hentry => ?_
  obtain ⟨hlt, hlocks⟩ := h entry hentry
  obtain ⟨op, hop⟩ := Option.isSome_iff_exists.mp (isSome_firstOp? fun site hsite =>
    isSome_aliases? (hlocks site hsite) hlock source
      (if site.viaWrapper then config.interAlias else config.intraAlias))
  exact ⟨(entry.1, op), Option.map_eq_some_iff.mpr ⟨op, hop, rfl⟩, hlt⟩

end InRange

namespace Func.Checked

variable {p : Program} {f : Func}

theorem operandFault?_parent? (h : f.Checked p) {id : InstId} {o : Operand}
    (ho : f.parent? id = some o) : f.operandFault? p o = none := by
  simp only [parent?, Option.bind_eq_bind, Option.bind_eq_some_iff, Option.map_eq_some_iff] at ho
  obtain ⟨inst, hinst, entry, hentry, rfl⟩ := ho
  have hmem := List.mem_of_find?_eq_some hentry
  simp only [InstKind.roles, List.mem_map] at hmem
  obtain ⟨entry, hmem, rfl⟩ := hmem
  exact h.operands inst (List.mem_of_getElem? (Array.getElem?_toList.trans hinst)) entry.1
    (List.fst_mem_of_mem_zipIdx hmem)

/-- What an operand derives from is there if the operand is. -/
theorem operandFault?_rootFrom (h : f.Checked p) {fuel : Nat} {seen : List InstId} {o : Operand}
    (ho : f.operandFault? p o = none) : f.operandFault? p (f.rootFrom fuel seen o) = none := by
  fun_induction rootFrom with
  | case1 => exact ho
  | case2 fuel seen id hid parent hparent ih => exact ih (h.operandFault?_parent? hparent)
  | case3 => exact ho
  | case4 => exact ho

theorem isSome_predicateName? (h : f.Checked p) {func : FuncId} (hf : p.functions[func]? = some f)
    {o : Operand} (ho : f.operandFault? p o = none) : (p.predicateName? func f o).isSome :=
  isSome_valueName? hf (h.operandFault?_rootFrom ho)

theorem isSome_guardOf? (h : f.Checked p) {func : FuncId} (hf : p.functions[func]? = some f)
    {cond : Operand} (hcond : f.operandFault? p cond = none) :
    (p.guardOf? func f cond).isSome := by
  have hplain := h.isSome_predicateName? hf hcond
  cases cond with
  | const | arg | global => simp [Program.guardOf?, hplain]
  | inst id =>
    have hid : id < f.insts.size := by simpa [operandFault?] using hcond
    have hinst : f.insts[id]? = some f.insts[id] := Array.getElem?_eq_getElem hid
    simp only [Program.guardOf?, hinst]
    split
    · next pred lhs rhs hkind =>
      have hoperand (o : Operand) (ho : o ∈ [lhs, rhs]) : f.operandFault? p o = none :=
        h.operands f.insts[id] (Array.getElem_mem_toList hid) o (by rwa [hkind])
      have hl := h.isSome_predicateName? hf (hoperand lhs (by simp))
      have hr := h.isSome_predicateName? hf (hoperand rhs (by simp))
      split <;> simp [hl, hr]
    · simp [hplain]

end Func.Checked

namespace Problem

variable {source : AliasSource} {config : Config} {p : Program} {func : FuncId} {b : Body}
  {sites : SiteMap} {lock : TrackedLock} {P : Problem}

/-- The operations on the lock. -/
def events? (source : AliasSource) (config : Config) (p : Program) (func : FuncId) (b : Body)
    (sites : SiteMap) (lock : TrackedLock) : Option LockEvents :=
  if b.entry?.isSome then sites.events? (LockSite.isOn? source config p func lock.value)
  else some []

/-- The events at which something happens. -/
def active (events : LockEvents) : LockEvents := events.filter fun event => event.2.isSome

/-- The instructions in range among those of some events. -/
def known (b : Body) (events : LockEvents) : List b.InstIx :=
  events.filterMap fun event =>
    if h : event.1 < b.func.insts.size then some ⟨event.1, h⟩ else none

/-- The problem with given operations on the lock. -/
def pose (config : Config) (p : Program) (func : FuncId) (b : Body) (lock : TrackedLock)
    (events : LockEvents) : Problem where
  body := b
  lock := lock.name
  unlockWrapper := lock.unlockWrapper
  op := fun i => events.op i.val
  guard := fun i => (p.guard? func b i).getD (.unknown, none)
  sites := known b (active events)
  filter := config.filterInfeasible
  order := config.worklistOrder
  maxSteps := config.maxSteps

theorem of?_eq : of? source config p func b sites lock =
    (events? source config p func b sites lock).bind fun events =>
      (b.insts.mapM (p.guard? func b)).bind fun _ =>
        if (known b (active events)).length != (active events).length then none
        else some (pose config p func b lock events) := by
  simp only [of?, events?]
  split <;> rfl

theorem of?_eq_pose {events : LockEvents}
    (he : events? source config p func b sites lock = some events)
    (hg : (b.insts.mapM (p.guard? func b)).isSome)
    (hk : (known b (active events)).length = (active events).length) :
    of? source config p func b sites lock = some (pose config p func b lock events) := by
  obtain ⟨guards, hg⟩ := Option.isSome_iff_exists.mp hg
  simp [of?_eq, he, hg, hk]

theorem of?_eq_some (h : of? source config p func b sites lock = some P) :
    ∃ events, P = pose config p func b lock events := by
  simp only [of?_eq, Option.bind_eq_some_iff] at h
  obtain ⟨events, -, -, -, h⟩ := h
  split at h
  · cases h
  · exact ⟨events, (Option.some.inj h).symm⟩

/-- The problem of a lock and sites that are there can be posed. -/
theorem exists_of?_of_checked {f : Func} (hc : f.Checked p) (hf : p.functions[func]? = some f)
    (hb : Body.of? f = some b) (source : AliasSource) (config : Config)
    (hsites : sites.InRange p func f) (hlock : lock.value.InRange p) :
    ∃ P, of? source config p func b sites lock = some P := by
  obtain rfl := Body.func_of_of? hb
  have hevents : ∃ events, events? source config p func b sites lock = some events ∧
      ∀ event ∈ events, event.1 < b.func.insts.size := by
    rw [events?]
    split
    · exact hsites.exists_events hlock source config
    · exact ⟨[], rfl, fun _ h => by cases h⟩
  have hguard (i : b.InstIx) : (p.guard? func b i).isSome := by
    rw [Program.guard?]
    split
    · next cond thenTo elseTo hkind =>
      have hkind : (b.inst i).kind = .condBr cond thenTo elseTo := hkind
      have hcond : cond ∈ (b.inst i).kind.operands := by simp [hkind, InstKind.operands]
      exact hc.isSome_guardOf? hf
        (hc.operands (b.inst i) (Array.getElem_mem_toList i.isLt) cond hcond)
    · rfl
  obtain ⟨events, hevents, hlt⟩ := hevents
  have hall : ∀ i ∈ b.insts, ∃ guard, p.guard? func b i = some guard ∧ True := fun i _ =>
    (Option.isSome_iff_exists.mp (hguard i)).imp fun _ h => ⟨h, trivial⟩
  obtain ⟨guards, hguards, -⟩ := exists_mapM hall
  refine ⟨_, of?_eq_pose hevents (Option.isSome_iff_exists.mpr ⟨guards, hguards⟩) ?_⟩
  refine List.filterMap_length_eq_length.mpr fun event hevent => ?_
  rw [dif_pos (hlt event (List.mem_filter.mp hevent).1)]
  rfl

theorem exists_of? (hp : p.Loaded) {f : Func} (hf : p.functions[func]? = some f)
    (hb : Body.of? f = some b) (source : AliasSource) (config : Config)
    (hsites : sites.InRange p func f) (hlock : lock.value.InRange p) :
    ∃ P, of? source config p func b sites lock = some P :=
  exists_of?_of_checked (hp f (Program.mem_functions hf)).1 hf hb source config hsites hlock

theorem body_of_of? (h : of? source config p func b sites lock = some P) : P.body = b := by
  obtain ⟨events, rfl⟩ := of?_eq_some h
  rfl

theorem lock_of_of? (h : of? source config p func b sites lock = some P) : P.lock = lock.name := by
  obtain ⟨events, rfl⟩ := of?_eq_some h
  rfl

theorem filter_of_of? (h : of? source config p func b sites lock = some P) :
    P.filter = config.filterInfeasible := by
  obtain ⟨events, rfl⟩ := of?_eq_some h
  rfl

/-- The order of work and the limit on steps bear on nothing else. -/
theorem of?_with (h : of? source config p func b sites lock = some P) (n : Nat)
    (order : SelectionOrder) :
    of? source { config with maxSteps := n, worklistOrder := order } p func b sites lock =
      some { P with maxSteps := n, order := order } := by
  rw [of?_eq] at h ⊢
  simp only [Option.bind_eq_some_iff] at h ⊢
  obtain ⟨events, he, guards, hg, h⟩ := h
  refine ⟨events, he, guards, hg, ?_⟩
  split at h
  · cases h
  · next hk =>
    obtain rfl := Option.some.inj h
    rw [if_neg hk]
    rfl

/-- Every instruction with an operation on the lock is looked at for anomalies. -/
theorem mem_sites_of_op (h : of? source config p func b sites lock = some P)
    {i : P.body.InstIx} {op : LockOp} (hop : P.op i = some op) : i ∈ P.sites := by
  obtain ⟨events, rfl⟩ := of?_eq_some h
  have hmem : (i.val, some op) ∈ events := by
    obtain ⟨before, after, he, -⟩ := List.lookup_eq_some_iff.mp (Option.join_eq_some_iff.mp hop)
    simp [he]
  exact List.mem_filterMap.mpr ⟨_, List.mem_filter.mpr ⟨hmem, rfl⟩, dif_pos i.isLt⟩

theorem checked_of_of? {f : Func} (hc : f.Checked p) (hb : Body.of? f = some b)
    (h : of? source config p func b sites lock = some P) : P.body.Checked := by
  rw [body_of_of? h]
  obtain rfl := Body.func_of_of? hb
  exact Body.checked hc

theorem wellListed_of_of? (hp : p.Loaded) {f : Func} (hf : p.functions[func]? = some f)
    (hb : Body.of? f = some b) (h : of? source config p func b sites lock = some P) :
    P.body.WellListed := by
  rw [body_of_of? h]
  exact hp.wellListed hf hb

end Problem

end LockUsage
