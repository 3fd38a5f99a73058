import LockUsage.Proofs.Summaries

/-! Which lock operations are counted. The locks of a function are told apart by one threshold for
alias answers, and operations are assigned to locks by another if they are calls of wrappers. -/

namespace LockUsage

/-- The answer that one threshold accepts and another does not. -/
theorem AliasKind.eq_may_of_satisfies {answer threshold threshold' : AliasKind}
    (h : answer.satisfies threshold = true) (h' : answer.satisfies threshold' = false) :
    answer = .may ∧ threshold ≠ .must ∧ threshold' = .must := by
  revert h h'
  cases answer <;> cases threshold <;> cases threshold' <;> decide

namespace AliasSource

theorem relation_comm (groups : List AliasSet) (a b : ScopedName) :
    relation groups a b = relation groups b a := by
  simp only [relation, Bool.and_right_comm]

theorem alias?_comm (source : AliasSource) (p : Program) (a b : ScopedValue) :
    source.alias? p a b = source.alias? p b a := by
  cases source with
  | everything => rfl
  | names =>
    simp only [alias?, Bool.or_comm b.value.isConst, eq_comm (a := b)]
    cases a.name? p <;> cases b.name? p <;> try rfl
    next name name' => simp only [Option.bind_eq_bind, Option.bind_some, eq_comm (a := name')]
  | sets groups =>
    simp only [alias?, Bool.or_comm b.value.isConst]
    cases a.name? p <;> cases b.name? p <;> try rfl
    next name name' =>
      simp only [Option.bind_eq_bind, Option.bind_some, eq_comm (a := name'),
        relation_comm groups name']

theorem alias?_self {source : AliasSource} {p : Program} {v : ScopedValue}
    (hv : v.value.isConst = false) {answer : AliasKind} (h : source.alias? p v v = some answer) :
    answer = .must := by
  cases source with
  | everything => exact (Option.some.inj h).symm
  | names => simpa [alias?, hv, eq_comm] using h
  | sets groups =>
    simp only [alias?, hv, Bool.or_self, Bool.false_eq_true, if_false, Option.bind_eq_bind,
      Option.bind_eq_some_iff] at h
    obtain ⟨name, hname, name', hname', h⟩ := h
    obtain rfl := Option.some.inj (hname.symm.trans hname')
    simpa [eq_comm] using h

/-- Only sets give an answer that is not sure. -/
theorem exists_sets_of_may {source : AliasSource} {p : Program} {a b : ScopedValue}
    (h : source.alias? p a b = some .may) : ∃ groups, source = .sets groups := by
  cases source with
  | everything => cases h
  | names =>
    simp only [alias?] at h
    split_ifs at h
    · cases h
    · cases h
    · cases ha : a.name? p <;> cases hb : b.name? p <;> simp [ha, hb] at h
      split_ifs at h
  | sets groups => exact ⟨groups, rfl⟩

end AliasSource

namespace Analysis

variable {A : Analysis} {func : FuncId} {locks locks' : List TrackedLock} {site : LockSite}

/-- When locks are told apart, the lock is taken for that of the site. -/
def Stands (A : Analysis) (func : FuncId) (site : LockSite) (lock : TrackedLock) : Prop :=
  lock.value = ⟨func, site.lock⟩ ∨
    A.source.aliases? A.program A.config.intraAlias lock.value ⟨func, site.lock⟩ = some true

/-- What a site does to the list of locks. -/
theorem addLock?_cases (h : A.addLock? func locks site = some locks') :
    (site.lock.isConst = true ∧ locks' = locks) ∨
    (site.lock.isConst = false ∧ (∃ lock ∈ locks, A.Stands func site lock) ∧ locks' = locks) ∨
    (site.lock.isConst = false ∧ ∃ name, locks' = locks ++ [⟨name, ⟨func, site.lock⟩, false⟩]) := by
  rw [addLock?] at h
  split_ifs at h with hconst
  · exact .inl ⟨hconst, (Option.some.inj h).symm⟩
  · replace hconst := eq_false_of_ne_true hconst
    simp only [Option.bind_eq_bind, Option.bind_eq_some_iff] at h
    obtain ⟨known, hknown, h⟩ := h
    cases known with
    | true =>
      obtain ⟨lock, hlock, halias⟩ := exists_of_anyM hknown
      exact .inr (.inl ⟨hconst, ⟨lock, hlock, .inr halias⟩, (Option.some.inj h).symm⟩)
    | false =>
      simp only [Bool.false_eq_true, if_false, Option.bind_eq_some_iff] at h
      obtain ⟨name, -, h⟩ := h
      exact .inr (.inr ⟨hconst, name, (Option.some.inj h).symm⟩)

theorem addLock?_extends (h : A.addLock? func locks site = some locks') : locks <+: locks' := by
  obtain ⟨-, rfl⟩ | ⟨-, -, rfl⟩ | ⟨-, name, rfl⟩ := addLock?_cases h
  · exact List.prefix_rfl
  · exact List.prefix_rfl
  · exact List.prefix_append _ _

theorem addLocks?_extends {sites : List LockSite}
    (h : sites.foldlM (A.addLock? func) locks = some locks') : locks <+: locks' := by
  induction sites generalizing locks with
  | nil => exact Option.some.inj h ▸ List.prefix_rfl
  | cons site sites ih =>
    obtain ⟨next, hnext, h⟩ := Option.bind_eq_some_iff.mp h
    exact (addLock?_extends hnext).trans (ih h)

/-- Each lock is the value of a site. -/
theorem distinctLocks?_origin {m : SiteMap} (h : A.distinctLocks? func m = some locks)
    {lock : TrackedLock} (hlock : lock ∈ locks) :
    ∃ site ∈ m.sites, site.lock.isConst = false ∧ lock.value = ⟨func, site.lock⟩ := by
  have hfold {sites : List LockSite} {known : List TrackedLock}
      (h : sites.foldlM (A.addLock? func) known = some locks) : lock ∈ known ∨
        ∃ site ∈ sites, site.lock.isConst = false ∧ lock.value = ⟨func, site.lock⟩ := by
    induction sites generalizing known with
    | nil => exact .inl (Option.some.inj h ▸ hlock)
    | cons site sites ih =>
      obtain ⟨next, hnext, h⟩ := Option.bind_eq_some_iff.mp h
      obtain hmem | ⟨site', hsite', horigin⟩ := ih h
      · obtain ⟨-, rfl⟩ | ⟨-, -, rfl⟩ | ⟨hconst, name, rfl⟩ := addLock?_cases hnext
        · exact .inl hmem
        · exact .inl hmem
        · obtain hmem | hnew := List.mem_append.mp hmem
          · exact .inl hmem
          · obtain rfl := List.mem_singleton.mp hnew
            exact .inr ⟨site, List.mem_cons_self, hconst, rfl⟩
      · exact .inr ⟨site', List.mem_cons_of_mem _ hsite', horigin⟩
  exact (hfold h).resolve_left (by simp)

/-- Each site that is not on a constant has a lock that stands for it. -/
theorem distinctLocks?_covers {m : SiteMap} (h : A.distinctLocks? func m = some locks)
    (hsite : site ∈ m.sites) (hconst : site.lock.isConst = false) :
    ∃ lock ∈ locks, A.Stands func site lock := by
  have hfold {sites : List LockSite} {known : List TrackedLock}
      (h : sites.foldlM (A.addLock? func) known = some locks) (hsite : site ∈ sites) :
      ∃ lock ∈ locks, A.Stands func site lock := by
    induction sites generalizing known with
    | nil => cases hsite
    | cons first sites ih =>
      obtain ⟨next, hnext, hrest⟩ := Option.bind_eq_some_iff.mp h
      obtain rfl | hsite := List.mem_cons.mp hsite
      · have hkept := (addLocks?_extends hrest).subset
        obtain ⟨hc, -⟩ | ⟨-, ⟨lock, hlock, hstands⟩, rfl⟩ | ⟨-, name, rfl⟩ := addLock?_cases hnext
        · exact absurd (hc.symm.trans hconst) (by decide)
        · exact ⟨lock, hkept hlock, hstands⟩
        · exact ⟨⟨name, _, false⟩, hkept (List.mem_append_right _ List.mem_cons_self), .inl rfl⟩
      · exact ih hrest hsite
  exact hfold h hsite

/-- The site is a call of a wrapper on a value that may be the lock. That is enough to take the two
for one lock, and not enough for the site to count. -/
structure Shadows (A : Analysis) (func : FuncId) (lock : TrackedLock) (site : LockSite) : Prop where
  viaWrapper : site.viaWrapper = true
  intraAlias : A.config.intraAlias ≠ .must
  interAlias : A.config.interAlias = .must
  sets : ∃ groups, A.source = .sets groups
  may : A.source.alias? A.program lock.value ⟨func, site.lock⟩ = some .may

variable {b : Body} {sites : SiteMap}

theorem Examination.on_or_shadows (x : A.Examination func b sites) (hsite : site ∈ sites.sites)
    (hconst : site.lock.isConst = false) (hstands : A.Stands func site x.lock) :
    site ∈ x.on ∨ A.Shadows func x.lock site := by
  obtain ⟨answer, hanswer⟩ := x.exists_answer hsite
  have hback := (AliasSource.alias?_comm ..).trans hanswer
  have hintra : answer.satisfies A.config.intraAlias = true := by
    obtain heq | halias := hstands
    · rw [heq] at hanswer
      rw [AliasSource.alias?_self hconst hanswer]
      exact AliasKind.must_satisfies _
    · simpa [AliasSource.aliases?, hback] using halias
  have hon : LockSite.isOn? A.source A.config A.program func x.lock.value site =
      some (answer.satisfies
        (if site.viaWrapper then A.config.interAlias else A.config.intraAlias)) := by
    rw [LockSite.isOn?, AliasSource.aliases?, hanswer, Option.map_some]
  rw [x.mem_on, hon]
  by_cases hvia : site.viaWrapper = true
  · cases hinter : answer.satisfies A.config.interAlias with
    | true => exact .inl ⟨hsite, by rw [if_pos hvia, hinter]⟩
    | false =>
      obtain ⟨rfl, hne, heq⟩ := AliasKind.eq_may_of_satisfies hintra hinter
      exact .inr ⟨hvia, hne, heq, AliasSource.exists_sets_of_may hanswer, hback⟩
  · exact .inl ⟨hsite, by rw [if_neg hvia, hintra]⟩

theorem Account.kept_or_shadowed {trace : Trace} (x : A.Account trace func)
    (hsite : site ∈ x.sites.sites) (hconst : site.lock.isConst = false) :
    ∃ e ∈ x.locks, site ∈ e.on ∨ A.Shadows func e.lock site := by
  obtain ⟨lock, hlock, hstands⟩ := distinctLocks?_covers x.locks_eq hsite hconst
  obtain ⟨e, he, rfl⟩ := List.mem_map.mp hlock
  exact ⟨e, he, e.on_or_shadows hsite hconst hstands⟩

end Analysis

/-- Every lock operation that is not on a constant is counted for a lock of its function, unless it
is a call of a wrapper on a value that may be one of the locks, where that is enough to take the two
for one lock and not enough for the call to count. -/
theorem Program.sites_are_counted {p : Program} (hp : p.fault? = none) (source : AliasSource)
    (config : Config) (api : LockApi) :
    ∃ graph trace report, CallGraph.of? p = some graph ∧
      Analysis.visitAll ⟨p, source, config, api, graph⟩ = some trace.state ∧
      p.report? source config api = some report ∧
      List.Forall₂ (fun func statistic =>
          ∃ x : Analysis.Account ⟨p, source, config, api, graph⟩ trace func,
            x.statistic = statistic ∧
            (∀ e ∈ x.locks, e.statistic ∈ statistic.locks ∧
              ∀ op, e.statistic.operations op = e.on.countP fun site => site.op == op) ∧
            ∀ site ∈ x.sites.sites, site.lock.isConst = false → ∃ e ∈ x.locks, site ∈ e.on ∨
              Analysis.Shadows ⟨p, source, config, api, graph⟩ func e.lock site)
        p.defined report.functions := by
  obtain ⟨graph, trace, report, hgraph, hrun, hreport, hall⟩ := exists_accounts hp source config api
  refine ⟨graph, trace, report, hgraph, hrun, hreport, hall.imp ?_⟩
  rintro func _ ⟨x, rfl⟩
  refine ⟨x, rfl, fun e he => ⟨?_, e.operations_statistic⟩, fun site => x.kept_or_shadowed⟩
  exact x.statistics ▸ List.mem_map_of_mem he

/-- Two globals that may be one lock, and a function that takes both. -/
def twins : Program where
  name := "m"
  globals := #["a", "b"]
  functions := #[
    ⟨"rw_lock", ["m"], #[], #[]⟩,
    ⟨"take", ["m"], #[⟨"a", [0, 1]⟩],
      #[⟨none, 0, .call (.direct 0) [.arg 0]⟩, ⟨none, 0, .ret none⟩]⟩,
    ⟨"main", [], #[⟨"a", [0, 1, 2]⟩],
      #[⟨none, 0, .call (.direct 1) [.global 0]⟩, ⟨none, 0, .call (.direct 1) [.global 1]⟩,
        ⟨none, 0, .ret none⟩]⟩]

def twinSets : AliasSource := .sets [⟨.may, [(none, "@a"), (none, "@b")]⟩]

/-- Calls of wrappers need a sure answer, and the routines themselves do not. -/
def strictWrappers : Config :=
  { Config.default with
    acquire := ["rw_lock"], release := ["rw_unlock"], intraAlias := .may, interAlias := .must }

theorem twins_counted : twins.fault? = none ∧ ∃ api, LockApi.of? strictWrappers = some api ∧
    ∃ graph trace report, CallGraph.of? twins = some graph ∧
      twins.report? twinSets strictWrappers api = some report ∧
      List.Forall₂ (fun func statistic =>
          ∃ x : Analysis.Account ⟨twins, twinSets, strictWrappers, api, graph⟩ trace func,
            x.statistic = statistic ∧
            ∀ site ∈ x.sites.sites, site.lock.isConst = false → ∃ e ∈ x.locks, site ∈ e.on ∨
              Analysis.Shadows ⟨twins, twinSets, strictWrappers, api, graph⟩ func e.lock site)
        [1, 2] report.functions := by
  have hfault : twins.fault? = none := by decide +kernel
  have hapi : (LockApi.of? strictWrappers).isSome := by decide +kernel
  obtain ⟨api, hapi⟩ := Option.isSome_iff_exists.mp hapi
  obtain ⟨graph, trace, report, hgraph, -, hreport, hall⟩ :=
    Program.sites_are_counted hfault twinSets strictWrappers api
  have hdefined : twins.defined = [1, 2] := by decide +kernel
  refine ⟨hfault, api, hapi, graph, trace, report, hgraph, hreport, hdefined ▸ hall.imp ?_⟩
  rintro func statistic ⟨x, hx, -, hsites⟩
  exact ⟨x, hx, hsites⟩

/-- The call that takes the second global counts for no lock. -/
theorem second_twin_lost : twins.fault? = none ∧
    ∃ api graph s report main sites locks, LockApi.of? strictWrappers = some api ∧
      CallGraph.of? twins = some graph ∧
      Analysis.visitAll ⟨twins, twinSets, strictWrappers, api, graph⟩ = some s ∧
      twins.report? twinSets strictWrappers api = some report ∧
      report.function? "main" = some main ∧ main.locks.map (·.name) = ["@a"] ∧
      main.locks.map (·.acquires) = [1] ∧
      Analysis.lockSites? ⟨twins, twinSets, strictWrappers, api, graph⟩ s.summaries 2 =
        some sites ∧
      Analysis.distinctLocks? ⟨twins, twinSets, strictWrappers, api, graph⟩ 2 sites = some locks ∧
      ∃ site ∈ sites.sites, site.lock.isConst = false ∧ ∀ lock ∈ locks,
        LockSite.isOn? twinSets strictWrappers twins 2 lock.value site = some false := by
  have hfault : twins.fault? = none := by decide +kernel
  have hrun : ((LockApi.of? strictWrappers).bind fun api => (CallGraph.of? twins).bind fun graph =>
      (Analysis.visitAll ⟨twins, twinSets, strictWrappers, api, graph⟩).bind fun s =>
      (twins.report? twinSets strictWrappers api).bind fun report =>
      (report.function? "main").bind fun main =>
      (Analysis.lockSites? ⟨twins, twinSets, strictWrappers, api, graph⟩ s.summaries 2).bind
        fun sites =>
      (Analysis.distinctLocks? ⟨twins, twinSets, strictWrappers, api, graph⟩ 2 sites).bind
        fun locks =>
      some (main.locks.map (·.name), main.locks.map (·.acquires), sites.sites.any fun site =>
        !site.lock.isConst && locks.all fun lock =>
          LockSite.isOn? twinSets strictWrappers twins 2 lock.value site == some false)) =
        some (["@a"], [1], true) := by decide +kernel
  simp only [Option.bind_eq_some_iff, Option.some.injEq, Prod.mk.injEq, List.any_eq_true,
    Bool.and_eq_true, Bool.not_eq_true', List.all_eq_true, beq_iff_eq] at hrun
  obtain ⟨api, hapi, graph, hgraph, s, hs, report, hreport, main, hmain, sites, hsites, locks,
    hlocks, hnames, hacquires, hlost⟩ := hrun
  exact ⟨hfault, api, graph, s, report, main, sites, locks, hapi, hgraph, hs, hreport, hmain,
    hnames, hacquires, hsites, hlocks, hlost⟩

end LockUsage
