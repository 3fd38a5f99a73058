import LockUsage.Proofs.BottomUp

/-! What a summary is made of. A function is examined lock by lock: the sites that are on a lock
give the numbers, and the first one of each instruction is what the instruction does to the lock
when the lock is followed and when pairs are looked for. -/

namespace LockUsage

theorem AliasKind.must_satisfies (threshold : AliasKind) : must.satisfies threshold = true := by
  cases threshold <;> rfl

namespace LockStatistic

/-- How often the lock is acquired or released. -/
def operations (s : LockStatistic) : LockOp → Nat
  | .acquire => s.acquires
  | .release => s.releases

theorem operations_foldl_record (s : LockStatistic) (usages : List Usage) (op : LockOp) :
    (usages.foldl record s).operations op = s.operations op := by
  refine List.foldlRecOn (motive := fun t : LockStatistic => t.operations op = s.operations op)
    usages _ rfl ?_
  intro t ht usage _
  rw [← ht]
  cases usage <;> cases op <;> rfl

theorem wrappers_foldl_record (s : LockStatistic) (usages : List Usage) :
    (usages.foldl record s).lockWrapper = s.lockWrapper ∧
      (usages.foldl record s).unlockWrapper = s.unlockWrapper := by
  refine List.foldlRecOn (motive := fun t : LockStatistic =>
    t.lockWrapper = s.lockWrapper ∧ t.unlockWrapper = s.unlockWrapper) usages _ ⟨rfl, rfl⟩ ?_
  intro t ht usage _
  cases usage <;> exact ht

theorem usage_foldl_record (s : LockStatistic) (usages : List Usage) :
    (usages.foldl record s).usage = s.usage + usages.length := by
  induction usages generalizing s with
  | nil => rfl
  | cons usage usages ih =>
    have hone : (s.record usage).usage = s.usage + 1 := by cases usage <;> rfl
    rw [List.foldl_cons, ih, hone, List.length_cons]
    omega

end LockStatistic

/-- The numbers of locks are those of the locks that are listed. -/
structure FunctionStatistic.Tallied (s : FunctionStatistic) : Prop where
  lockNumber : s.lockNumber = s.locks.length
  globalLockNumber : s.globalLockNumber = s.locks.countP fun lock => lock.scope = .ofProgram
  localLockNumber : s.localLockNumber = s.locks.countP fun lock => lock.scope ≠ .ofProgram

theorem FunctionStatistic.Tallied.push {s : FunctionStatistic} (h : s.Tallied)
    (lock : LockStatistic) : (s.push lock).Tallied := by
  by_cases hscope : lock.scope = .ofProgram <;> constructor <;>
    simp [FunctionStatistic.push, hscope, h.lockNumber, h.globalLockNumber, h.localLockNumber]

namespace Analysis

/-- The lock operations of a function, given the summaries of the functions that it calls. -/
def lockSites? (A : Analysis) (summaries : Summaries) (func : FuncId) : Option SiteMap := do
  let f ← A.program.functions[func]?
  let calls ← f.callSites?
  return .ofList (calls.flatMap (A.sitesOf summaries f))

/-- What is found of a lock, given its operations and the problem of following it. -/
def finding (b : Body) (deps : Body.Dependences b.func.blocks.size) (lock : TrackedLock)
    (statistic : LockStatistic) (events : LockEvents) (P : Problem) : LockFinding where
  statistic := ((b.findPairs fun i => events.op i.val).map (b.classify deps)).foldl
    LockStatistic.record statistic
  converged := P.solve.converged
  log :=
    if !statistic.lockWrapper && P.solve.holdsAtExit lock.name then
      P.solve.log.report ⟨.unreleasedLock, b.func.name, lock.name, none⟩
    else P.solve.log

section Examinations

variable {A : Analysis} {func : FuncId} {b : Body} {deps : Body.Dependences b.func.blocks.size}
  {sites : SiteMap} {lock : TrackedLock}

theorem examineLock?_eq : A.examineLock? func b deps sites lock =
    (sites.sites.filterM (LockSite.isOn? A.source A.config A.program func lock.value)).bind
      fun on => (sites.events? (LockSite.isOn? A.source A.config A.program func lock.value)).bind
        fun events => (Problem.of? A.source A.config A.program func b sites
            { lock with unlockWrapper :=
                (siteStatistic lock on).unlockWrapper && isArgument lock.value.value }).bind
          fun P => some (finding b deps lock (siteStatistic lock on) events P) := by
  simp only [finding, List.foldl_map]
  rfl

/-- The lock as it is followed. -/
def followed (lock : TrackedLock) (on : List LockSite) : TrackedLock :=
  { lock with
    unlockWrapper := (siteStatistic lock on).unlockWrapper && isArgument lock.value.value }

/-- One lock of a function: the sites on it, and what the instructions do to it. -/
structure Examination (A : Analysis) (func : FuncId) (b : Body) (sites : SiteMap) where
  lock : TrackedLock
  on : List LockSite
  events : LockEvents
  on_eq : sites.sites.filterM (LockSite.isOn? A.source A.config A.program func lock.value) =
    some on
  events_eq : sites.events? (LockSite.isOn? A.source A.config A.program func lock.value) =
    some events
  posed : Problem.of? A.source A.config A.program func b sites (followed lock on) =
    some (.pose A.config A.program func b (followed lock on) events)

namespace Examination

/-- The problem of following the lock. -/
def problem (x : A.Examination func b sites) : Problem :=
  .pose A.config A.program func b (followed x.lock x.on) x.events

/-- What is reported on the lock. -/
def statistic (x : A.Examination func b sites) : LockStatistic :=
  ((b.findPairs x.problem.op).map (b.classify b.dependences)).foldl LockStatistic.record
    (siteStatistic x.lock x.on)

theorem mem_on (x : A.Examination func b sites) {site : LockSite} :
    site ∈ x.on ↔ site ∈ sites.sites ∧
      LockSite.isOn? A.source A.config A.program func x.lock.value site = some true := by
  rw [← (filterM_eq_some_iff.mp x.on_eq).2, List.mem_filter, beq_iff_eq]

theorem exists_answer (x : A.Examination func b sites) {site : LockSite}
    (hsite : site ∈ sites.sites) :
    ∃ answer, A.source.alias? A.program ⟨func, site.lock⟩ x.lock.value = some answer := by
  have hsome := (filterM_eq_some_iff.mp x.on_eq).1 site hsite
  obtain ⟨keep, hkeep⟩ := Option.isSome_iff_exists.mp hsome
  obtain ⟨answer, hanswer, -⟩ := Option.map_eq_some_iff.mp hkeep
  exact ⟨answer, hanswer⟩

theorem operations_statistic (x : A.Examination func b sites) (op : LockOp) :
    x.statistic.operations op = x.on.countP fun site => site.op == op := by
  rw [statistic, LockStatistic.operations_foldl_record]
  cases op <;> simp [siteStatistic, LockStatistic.operations, List.countP_eq_length_filter]

/-- The pairs that are classified are those of the operations that the run sees. -/
theorem usage_statistic (x : A.Examination func b sites) :
    x.statistic.usage = (b.findPairs x.problem.op).length := by
  rw [statistic, LockStatistic.usage_foldl_record, List.length_map]
  exact Nat.zero_add _

end Examination

theorem exists_examination (hentry : b.entry?.isSome) {found : LockFinding}
    (h : A.examineLock? func b b.dependences sites lock = some found) :
    ∃ x : A.Examination func b sites, x.lock = lock ∧ x.statistic = found.statistic := by
  simp only [examineLock?_eq, Option.bind_eq_some_iff] at h
  obtain ⟨on, hon, events, hevents, P, hP, h⟩ := h
  obtain rfl := Option.some.inj h
  have hposed := hP
  simp only [Problem.of?_eq, Problem.events?, if_pos hentry, Option.bind_eq_some_iff] at hposed
  obtain ⟨events', hevents', -, -, hposed⟩ := hposed
  obtain rfl : events = events' := Option.some.inj (hevents.symm.trans hevents')
  split_ifs at hposed
  obtain rfl := Option.some.inj hposed
  exact ⟨⟨lock, on, events, hon, hevents, hP⟩, rfl, rfl⟩

/-- The locks of a function are examined one after another. -/
theorem exists_examinations (hentry : b.entry?.isSome) {locks : List TrackedLock}
    {found found' : Summary × Log}
    (h : locks.foldlM (fun found lock => do
      return addFinding found lock (← A.examineLock? func b b.dependences sites lock)) found =
        some found') :
    ∃ xs : List (A.Examination func b sites), xs.map (·.lock) = locks ∧
      found'.1.locks = found.1.locks ++ xs.map (·.lock.value) ∧
      found'.1.statistic.locks = found.1.statistic.locks ++ xs.map (·.statistic) ∧
      found'.1.statistic.name = found.1.statistic.name ∧
      (found.1.statistic.Tallied → found'.1.statistic.Tallied) := by
  induction locks generalizing found with
  | nil =>
    obtain rfl := Option.some.inj h
    exact ⟨[], rfl, by simp, by simp, rfl, id⟩
  | cons lock locks ih =>
    simp only [List.foldlM_cons, Option.bind_eq_bind, Option.bind_eq_some_iff] at h
    obtain ⟨_, ⟨finding, hfinding, hadd⟩, h⟩ := h
    obtain rfl := Option.some.inj hadd
    obtain ⟨x, rfl, hx⟩ := exists_examination hentry hfinding
    obtain ⟨xs, rfl, hvalues, hlocks, hname, htallied⟩ := ih h
    refine ⟨x :: xs, rfl, ?_, ?_, hname, fun ht => htallied ?_⟩
    · simp [hvalues, addFinding]
    · simp [hlocks, addFinding, FunctionStatistic.push, hx]
    · obtain ⟨hnumber, hglobal, hlocal⟩ := ht.push finding.statistic
      exact ⟨hnumber, hglobal, hlocal⟩

end Examinations

/-- How a function of a trace came to its summary: what was known then, the lock operations, and
the locks one by one. -/
structure Account (A : Analysis) (trace : Trace) (func : FuncId) where
  before : Trace
  found : Summary × Log
  after : Trace
  f : Func
  body : Body
  sites : SiteMap
  locks : List (A.Examination func body sites)
  trace_eq : trace = before ++ (func, found) :: after
  f_eq : A.program.functions[func]? = some f
  body_eq : Body.of? f = some body
  isSome_entry : body.entry?.isSome
  sites_eq : A.lockSites? before.summaries func = some sites
  locks_eq : A.distinctLocks? func sites = some (locks.map (·.lock))
  values : found.1.locks = locks.map (·.lock.value)
  name : found.1.statistic.name = f.name
  statistics : found.1.statistic.locks = locks.map (·.statistic)
  tallied : found.1.statistic.Tallied

variable {A : Analysis} {trace : Trace} {func : FuncId}

/-- The statistic of the function. -/
def Account.statistic (x : A.Account trace func) : FunctionStatistic := x.found.1.statistic

theorem Summarizes.exists_account (hp : A.program.fault? = none) (h : A.Summarizes trace)
    (hfunc : func ∈ trace.funcs) :
    ∃ x : A.Account trace func, trace.summaries.lookup func = some x.found.1 := by
  obtain ⟨found, hmem⟩ := Trace.mem_funcs.mp hfunc
  have hlookup := Trace.lookup_summaries h.nodup hmem
  obtain ⟨before, after, rfl⟩ := List.append_of_mem hmem
  have hdef := h.mem_defined hfunc
  obtain ⟨f, hf, hbody⟩ := Program.mem_defined.mp hdef
  have hc := Program.checked_of_fault? hp hf
  obtain ⟨b, hb⟩ := hc.exists_body
  obtain ⟨calls, hcalls, -⟩ := hc.exists_callSites
  have hfound := h.split.2.1
  simp only [summarize?, hf, hb, hcalls, Option.bind_eq_bind, Option.bind_some,
    Option.bind_eq_some_iff] at hfound
  obtain ⟨locks, hlocks, hfound⟩ := hfound
  obtain rfl := Body.func_of_of? hb
  obtain ⟨entry, hentry⟩ := (Body.checked hc).exists_entry hbody
  obtain ⟨xs, rfl, hvalues, hstatistics, hname, htallied⟩ :=
    exists_examinations (Option.isSome_iff_exists.mpr ⟨entry, hentry⟩) hfound
  exact ⟨{
    before, found, after, f := b.func, body := b
    sites := .ofList (calls.flatMap (A.sitesOf (Trace.summaries before) b.func))
    locks := xs
    trace_eq := rfl
    f_eq := hf
    body_eq := hb
    isSome_entry := Option.isSome_iff_exists.mpr ⟨entry, hentry⟩
    sites_eq := by simp [lockSites?, hf, hcalls]
    locks_eq := hlocks
    values := hvalues
    name := hname
    statistics := hstatistics
    tallied := htallied ⟨rfl, rfl, rfl⟩ }, hlookup⟩

/-- There is an account of each function whose summary is looked up. -/
theorem Summarizes.forall₂_accounts (hp : A.program.fault? = none) (h : A.Summarizes trace)
    {funcs : List FuncId} (hfuncs : funcs ⊆ trace.funcs) :
    List.Forall₂ (fun func statistic => ∃ x : A.Account trace func, x.statistic = statistic) funcs
      (funcs.filterMap fun f => (trace.summaries.lookup f).map (·.statistic)) := by
  induction funcs with
  | nil => exact .nil
  | cons func funcs ih =>
    obtain ⟨hfunc, hfuncs⟩ := List.cons_subset.mp hfuncs
    obtain ⟨x, hx⟩ := h.exists_account hp hfunc
    rw [List.filterMap_cons, hx]
    exact .cons ⟨x, rfl⟩ (ih hfuncs)

/-- The report lists the functions with a body in order, and there is an account of each. -/
theorem exists_report_accounts (hp : A.program.fault? = none)
    (hgraph : CallGraph.of? A.program = some A.graph) :
    ∃ trace report, A.visitAll = some trace.state ∧ A.Summarizes trace ∧
      A.report? = some report ∧
      List.Forall₂ (fun func statistic => ∃ x : A.Account trace func, x.statistic = statistic)
        A.program.defined report.functions := by
  obtain ⟨trace, hrun, ht, hperm, report, hreport, hfunctions, -⟩ := exists_report_trace hp hgraph
  refine ⟨trace, report, hrun, ht, hreport, ?_⟩
  rw [hfunctions]
  exact ht.forall₂_accounts hp hperm.symm.subset

end Analysis

/-- Every program that passes the check has a report, and an account of each of its functions. -/
theorem Program.exists_accounts {p : Program} (hp : p.fault? = none) (source : AliasSource)
    (config : Config) (api : LockApi) :
    ∃ graph trace report, CallGraph.of? p = some graph ∧
      Analysis.visitAll ⟨p, source, config, api, graph⟩ = some trace.state ∧
      p.report? source config api = some report ∧
      List.Forall₂ (fun func statistic =>
          ∃ x : Analysis.Account ⟨p, source, config, api, graph⟩ trace func,
            x.statistic = statistic) p.defined report.functions := by
  obtain ⟨graph, hgraph, -⟩ := CallGraph.exists_of? hp
  obtain ⟨trace, report, hrun, -, hreport, hall⟩ :=
    Analysis.exists_report_accounts (A := ⟨p, source, config, api, graph⟩) hp hgraph
  exact ⟨graph, trace, report, hgraph, hrun, by simp [report?, hgraph, hreport], hall⟩

end LockUsage
