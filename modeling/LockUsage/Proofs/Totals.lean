import LockUsage.Proofs.KeptSites
import LockUsage.Proofs.PairSearch
import LockUsage.Proofs.SiteCounts

/-! The numbers of a report belong together: pairs and operations of a lock, locks of a function,
functions of a program, and the totals. -/

namespace LockUsage

structure LockStatistic.AddsUp (s : LockStatistic) : Prop where
  usage : s.usage = s.direct + s.ifGuarded + s.testBeforeUse + s.other
  usage_le : s.usage ≤ s.acquires
  used : 1 ≤ s.acquires + s.releases
  wrappers : ¬(s.lockWrapper = true ∧ s.unlockWrapper = true)
  unpaired : s.lockWrapper = true ∨ s.unlockWrapper = true → s.usage = 0

structure FunctionStatistic.AddsUp (s : FunctionStatistic) : Prop where
  tallied : s.Tallied
  lockNumber : s.lockNumber = s.globalLockNumber + s.localLockNumber
  locks : ∀ lock ∈ s.locks, lock.AddsUp

/-- The pairs of all locks. -/
def FunctionStatistic.usage (s : FunctionStatistic) : Nat :=
  s.locks.foldr (fun lock n => lock.usage + n) 0

structure ModuleStatistic.AddsUp (s : ModuleStatistic) : Prop where
  functionNumber : s.functionNumber = s.functions.length
  lockFunctionNumber : s.lockFunctionNumber = s.functions.countP fun f => 0 < f.lockNumber
  totals : Usage.all.foldr (fun usage n => s.total usage + n) 0 =
    s.functions.foldr (fun f n => f.usage + n) 0

theorem FunctionStatistic.Tallied.lockNumber_eq {s : FunctionStatistic} (h : s.Tallied) :
    s.lockNumber = s.globalLockNumber + s.localLockNumber := by
  rw [h.lockNumber, h.globalLockNumber, h.localLockNumber,
    List.length_eq_countP_add_countP fun lock : LockStatistic => lock.scope = .ofProgram]
  simp

namespace LockStatistic

theorem usage_record {s : LockStatistic}
    (h : s.usage = s.direct + s.ifGuarded + s.testBeforeUse + s.other) (usage : Usage) :
    (s.record usage).usage = (s.record usage).direct + (s.record usage).ifGuarded +
      (s.record usage).testBeforeUse + (s.record usage).other := by
  cases usage <;> simp only [record] <;> omega

theorem sum_count {s : LockStatistic}
    (h : s.usage = s.direct + s.ifGuarded + s.testBeforeUse + s.other) :
    Usage.all.foldr (fun usage n => s.count usage + n) 0 = s.usage := by
  simp only [Usage.all, List.foldr_cons, List.foldr_nil, count]
  omega

end LockStatistic

/-- Sums over the usages and over a list can be taken in either order. -/
theorem sum_foldr (g : α → Usage → Nat) (as : List α) :
    Usage.all.foldr (fun usage n => as.foldr (fun a n => g a usage + n) 0 + n) 0 =
      as.foldr (fun a n => Usage.all.foldr (fun usage n => g a usage + n) 0 + n) 0 := by
  induction as with
  | nil => rfl
  | cons a as ih =>
    rw [List.foldr_cons, ← ih]
    simp only [Usage.all, List.foldr_cons, List.foldr_nil]
    omega

theorem ModuleStatistic.sum_total {s : ModuleStatistic}
    (h : ∀ f ∈ s.functions, ∀ lock ∈ f.locks, lock.AddsUp) :
    Usage.all.foldr (fun usage n => s.total usage + n) 0 =
      s.functions.foldr (fun f n => f.usage + n) 0 := by
  have hfunction : ∀ f ∈ s.functions,
      Usage.all.foldr (fun usage n => f.count usage + n) 0 = f.usage := by
    intro f hf
    refine (sum_foldr LockStatistic.count f.locks).trans (List.foldr_ext _ _ _ ?_)
    exact fun lock hlock n => by rw [LockStatistic.sum_count (h f hf lock hlock).usage]
  refine (sum_foldr FunctionStatistic.count s.functions).trans (List.foldr_ext _ _ _ ?_)
  exact fun f hf n => by rw [hfunction f hf]

namespace Analysis

variable {A : Analysis} {func : FuncId} {b : Body} {sites : SiteMap}

namespace Examination

variable (x : A.Examination func b sites)

theorem usage_eq_sum : x.statistic.usage = x.statistic.direct + x.statistic.ifGuarded +
    x.statistic.testBeforeUse + x.statistic.other := by
  refine List.foldlRecOn (motive := fun s : LockStatistic =>
    s.usage = s.direct + s.ifGuarded + s.testBeforeUse + s.other) _ _ rfl ?_
  exact fun s hs usage _ => LockStatistic.usage_record hs usage

/-- The flags say which operations the lock has. -/
theorem wrappers_statistic :
    x.statistic.lockWrapper =
      (decide (0 < x.statistic.operations .acquire) && x.statistic.operations .release == 0) ∧
    x.statistic.unlockWrapper =
      (decide (0 < x.statistic.operations .release) && x.statistic.operations .acquire == 0) := by
  have h := LockStatistic.wrappers_foldl_record (siteStatistic x.lock x.on)
    ((b.findPairs x.problem.op).map (b.classify b.dependences))
  simp only [statistic, LockStatistic.operations_foldl_record]
  exact h

theorem countP_le_operations (hentry : b.entry?.isSome) (hsites : sites.insts.Nodup)
    (op : LockOp) :
    (b.insts.countP fun i => x.problem.op i == some op) ≤ x.statistic.operations op := by
  rw [x.operations_eq hentry hsites op]
  exact Nat.le_add_right _ _

theorem usage_eq_zero (hentry : b.entry?.isSome) (hsites : sites.insts.Nodup) {op : LockOp}
    (h : x.statistic.operations op = 0) : x.statistic.usage = 0 := by
  have hcount := Nat.le_zero.mp (h ▸ x.countP_le_operations hentry hsites op)
  rw [x.usage_statistic]
  cases op with
  | acquire => exact Nat.le_zero.mp (hcount ▸ Body.length_findPairs_le _)
  | release => exact congrArg List.length (Body.findPairs_eq_nil (b := b) hcount)

/-- The lock is the value of a site, and this site is on it. -/
theorem exists_mem_on {site : LockSite} (hsite : site ∈ sites.sites)
    (hconst : site.lock.isConst = false) (hlock : x.lock.value = ⟨func, site.lock⟩) :
    site ∈ x.on := by
  obtain hon | hshadows := x.on_or_shadows hsite hconst (.inl hlock)
  · exact hon
  · have hmay := hshadows.may
    rw [hlock] at hmay
    cases AliasSource.alias?_self hconst hmay

theorem addsUp (hentry : b.entry?.isSome) (hsites : sites.insts.Nodup)
    (hon : ∃ site, site ∈ x.on) : x.statistic.AddsUp := by
  obtain ⟨hlock, hunlock⟩ := x.wrappers_statistic
  refine ⟨x.usage_eq_sum, ?_, ?_, ?_, ?_⟩
  · calc x.statistic.usage
      _ = (b.findPairs x.problem.op).length := x.usage_statistic
      _ ≤ b.insts.countP fun i => x.problem.op i == some .acquire := Body.length_findPairs_le _
      _ ≤ x.statistic.acquires := x.countP_le_operations hentry hsites .acquire
  · obtain ⟨site, hsite⟩ := hon
    have hpos : 0 < x.statistic.operations site.op := by
      rw [x.operations_statistic]
      exact List.countP_pos_iff.mpr ⟨site, hsite, beq_self_eq_true _⟩
    cases hop : site.op <;> simp only [hop, LockStatistic.operations] at hpos <;> omega
  · rintro ⟨htrue, htrue'⟩
    simp only [hlock, hunlock, Bool.and_eq_true, decide_eq_true_eq, beq_iff_eq] at htrue htrue'
    omega
  · rintro (htrue | htrue)
    · rw [hlock, Bool.and_eq_true, beq_iff_eq] at htrue
      exact x.usage_eq_zero hentry hsites htrue.2
    · rw [hunlock, Bool.and_eq_true, beq_iff_eq] at htrue
      exact x.usage_eq_zero hentry hsites htrue.2

end Examination

theorem Account.addsUp {trace : Trace} (x : A.Account trace func) : x.statistic.AddsUp := by
  refine ⟨x.tallied, x.tallied.lockNumber_eq, fun lock hlock => ?_⟩
  rw [Account.statistic, x.statistics] at hlock
  obtain ⟨e, he, rfl⟩ := List.mem_map.mp hlock
  obtain ⟨site, hsite, hconst, hvalue⟩ :=
    distinctLocks?_origin x.locks_eq (List.mem_map_of_mem he)
  exact e.addsUp x.isSome_entry x.nodup_insts ⟨site, e.exists_mem_on hsite hconst hvalue⟩

end Analysis

theorem Program.pairwise_defined (p : Program) : p.defined.Pairwise (· < ·) :=
  List.pairwise_lt_range.filter _

/-- The report on a program that passes the check adds up: it lists the functions with a body, each
once and in order, and all its numbers are those of what it lists. -/
theorem Program.report_adds_up {p : Program} (hp : p.fault? = none) (source : AliasSource)
    (config : Config) (api : LockApi) :
    p.defined.Pairwise (· < ·) ∧
    (∀ func, func ∈ p.defined ↔ ∃ f, p.functions[func]? = some f ∧ f.isDeclaration = false) ∧
    ∃ graph trace report, CallGraph.of? p = some graph ∧
      Analysis.visitAll ⟨p, source, config, api, graph⟩ = some trace.state ∧
      p.report? source config api = some report ∧
      List.Forall₂ (fun func statistic =>
          ∃ x : Analysis.Account ⟨p, source, config, api, graph⟩ trace func,
            x.statistic = statistic ∧ statistic.name = x.f.name ∧ statistic.AddsUp)
        p.defined report.functions ∧
      report.AddsUp := by
  refine ⟨p.pairwise_defined, fun _ => mem_defined, ?_⟩
  obtain ⟨graph, trace, report, hgraph, hrun, hreport, hall⟩ := exists_accounts hp source config api
  refine ⟨graph, trace, report, hgraph, hrun, hreport, hall.imp ?_, ?_⟩
  · rintro func _ ⟨x, rfl⟩
    exact ⟨x, rfl, x.name, x.addsUp⟩
  · have hlocks : ∀ f ∈ report.functions, ∀ lock ∈ f.locks, lock.AddsUp := by
      intro f hf
      obtain ⟨func, -, x, rfl⟩ := exists_mem_of_forall₂ hall hf
      exact x.addsUp.locks
    simp only [report?, hgraph, Analysis.report?, hrun, Option.bind_eq_bind, Option.bind_some,
      Option.pure_def, Option.some.injEq] at hreport
    refine ⟨?_, ?_, ModuleStatistic.sum_total hlocks⟩
    · rw [← hreport]
    · rw [← hreport, List.countP_eq_length_filter]

theorem tangled_report_adds_up : tangled.fault? = none ∧
    ∃ api report, LockApi.of? .default = some api ∧
      tangled.report? .names .default api = some report ∧ report.functions.length = 2 ∧
      (∀ f ∈ report.functions, f.AddsUp) ∧ report.AddsUp := by
  have hfault : tangled.fault? = none := by decide +kernel
  have hapi : (LockApi.of? .default).isSome := by decide +kernel
  obtain ⟨api, hapi⟩ := Option.isSome_iff_exists.mp hapi
  obtain ⟨-, -, graph, trace, report, -, -, hreport, hall, hsum⟩ :=
    Program.report_adds_up hfault .names .default api
  have hdefined : tangled.defined.length = 2 := by decide +kernel
  refine ⟨hfault, api, report, hapi, hreport, hall.length_eq.symm.trans hdefined, ?_, hsum⟩
  intro f hf
  obtain ⟨func, -, x, -, -, hf⟩ := exists_mem_of_forall₂ hall hf
  exact hf

end LockUsage
