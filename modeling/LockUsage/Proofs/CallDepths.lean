import LockUsage.Proofs.Totals
import Mathlib.Data.List.Chain

/-! The depth of a lock counts wrappers. Each one of them is a function of its own: a summary only
knows functions that were summarized before, so that a depth leads down a chain of calls through
different functions to a call of a lock routine. -/

namespace LockUsage

theorem foldl_max_mem {ns : List Nat} (h : ns ≠ []) : ns.foldl max 0 ∈ ns := by
  obtain ⟨n, hn⟩ : ∃ n, ns.max? = some n := Option.isSome_iff_exists.mp (by simpa using h)
  have hfold : ns.foldl max 0 = n := by rw [List.foldl_max, hn, Option.getD_some, Nat.zero_max]
  exact hfold ▸ List.max?_mem hn

theorem LockStatistic.callDepth_foldl_record (s : LockStatistic) (usages : List Usage) :
    (usages.foldl record s).callDepth = s.callDepth := by
  refine List.foldlRecOn (motive := fun t : LockStatistic => t.callDepth = s.callDepth)
    usages _ rfl ?_
  intro t ht usage _
  cases usage <;> exact ht

def LockStatistic.isWrapper (s : LockStatistic) : Bool := s.lockWrapper || s.unlockWrapper

namespace SiteMap

theorem mem_sites_push {m : SiteMap} {site new : LockSite} (h : site ∈ (m.push new).sites) :
    site ∈ m.sites ∨ site = new := by
  obtain ⟨entries⟩ := m
  simp only [sites, push] at h ⊢
  induction entries with
  | nil => exact .inr (by simpa [SiteMap.insert] using h)
  | cons entry rest ih =>
    rw [SiteMap.insert] at h
    split_ifs at h
    · simp only [List.flatMap_cons, List.mem_append, List.mem_singleton] at h ⊢
      tauto
    · rw [List.flatMap_cons, List.mem_append] at h ⊢
      rcases h with h | h
      · exact .inl (.inl h)
      · exact (ih h).imp_left .inr

theorem mem_sites_ofList {sites : List LockSite} {site : LockSite}
    (h : site ∈ (ofList sites).sites) : site ∈ sites := by
  have hfold : ∀ s ∈ (ofList sites).sites, s ∈ sites := by
    refine List.foldlRecOn (motive := fun m : SiteMap => ∀ s ∈ m.sites, s ∈ sites) sites _
      (fun _ hs => by cases hs) ?_
    intro m hm new hnew s hs
    rcases mem_sites_push hs with hs | rfl
    · exact hm s hs
    · exact hnew
  exact hfold site h

end SiteMap

namespace Program

/-- A function lists a direct call of a lock routine. -/
def CallsRoutine (p : Program) (api : LockApi) (f : FuncId) : Prop :=
  ∃ func calls, p.functions[f]? = some func ∧ func.callSites? = some calls ∧
    ∃ site ∈ calls, (api.primitiveCall? p site).isSome

/-- The report lists the lock for the function. -/
def Reports (p : Program) (report : ModuleStatistic) (f : FuncId) (lock : LockStatistic) : Prop :=
  ∃ statistic, (f, statistic) ∈ p.defined.zip report.functions ∧ lock ∈ statistic.locks

/-- Different functions with a body, each of which calls the next one, down from a function to one
that calls a lock routine. All but the first have a lock that they only acquire or only release. -/
structure WrapperChain (p : Program) (api : LockApi) (reports : FuncId → LockStatistic → Prop)
    (f : FuncId) (depth : Nat) (chain : List FuncId) : Prop where
  head : chain.head? = some f
  length : chain.length = depth + 1
  nodup : chain.Nodup
  defined : chain ⊆ p.defined
  calls : chain.IsChain p.Calls
  wrappers : ∀ g ∈ chain.tail, ∃ lock, reports g lock ∧ lock.isWrapper = true
  routine : ∃ g, chain.getLast? = some g ∧ p.CallsRoutine api g

theorem length_defined_le (p : Program) : p.defined.length ≤ p.functions.size := by
  have hle : p.defined.length ≤ (List.range p.functions.size).length := List.length_filter_le ..
  rwa [List.length_range] at hle

namespace WrapperChain

variable {p : Program} {api : LockApi} {reports reports' : FuncId → LockStatistic → Prop}
  {f g : FuncId} {depth : Nat} {chain : List FuncId}

theorem mono (h : p.WrapperChain api reports f depth chain)
    (hreports : ∀ g lock, reports g lock → reports' g lock) :
    p.WrapperChain api reports' f depth chain where
  __ := h
  wrappers g hg := by
    obtain ⟨lock, hlock, hwrapper⟩ := h.wrappers g hg
    exact ⟨lock, hreports g lock hlock, hwrapper⟩

theorem single (hdef : f ∈ p.defined) (hcalls : p.CallsRoutine api f) :
    p.WrapperChain api reports f 0 [f] where
  head := rfl
  length := rfl
  nodup := List.nodup_singleton f
  defined := List.cons_subset.mpr ⟨hdef, List.nil_subset _⟩
  calls := .singleton f
  wrappers _ h := by cases h
  routine := ⟨f, rfl, hcalls⟩

theorem cons (h : p.WrapperChain api reports g depth chain) (hcall : p.Calls f g)
    (hnew : f ∉ chain) {lock : LockStatistic} (hlock : reports g lock)
    (hwrapper : lock.isWrapper = true) :
    p.WrapperChain api reports f (depth + 1) (f :: chain) := by
  obtain ⟨rest, rfl⟩ := List.head?_eq_some_iff.mp h.head
  refine ⟨rfl, by rw [List.length_cons, h.length], List.nodup_cons.mpr ⟨hnew, h.nodup⟩,
    List.cons_subset.mpr ⟨hcall.mem_defined, h.defined⟩, .cons_cons hcall h.calls, ?_, ?_⟩
  · exact List.forall_mem_cons.mpr ⟨⟨lock, hlock, hwrapper⟩, h.wrappers⟩
  · obtain ⟨last, hlast, hroutine⟩ := h.routine
    exact ⟨last, by rw [List.getLast?_cons_cons, hlast], hroutine⟩

theorem depth_lt (h : p.WrapperChain api reports f depth chain) : depth < p.defined.length := by
  have hle := (h.nodup.subperm h.defined).length_le
  rw [h.length] at hle
  exact hle

end WrapperChain

end Program

/-- The lock is among what was found in the function. -/
def Trace.Reports (trace : Trace) (f : FuncId) (lock : LockStatistic) : Prop :=
  ∃ found, (f, found) ∈ trace ∧ lock ∈ found.1.statistic.locks

namespace Analysis

variable {A : Analysis} {trace : Trace} {func : FuncId}

/-- A lock operation of a call is that of a routine, or one level above a lock of a wrapper that is
called. -/
theorem sitesOf_cases {summaries : Summaries} {caller : Func} {call : CallSite} {site : LockSite}
    (h : site ∈ A.sitesOf summaries caller call) :
    ((A.api.primitiveCall? A.program call).isSome ∧ site.depth = 0) ∨
    ∃ g summary lock, call.callee = .direct g ∧ summaries.lookup g = some summary ∧
      lock ∈ summary.statistic.locks ∧ lock.isWrapper = true ∧ site.depth = lock.callDepth + 1 := by
  cases hprimitive : A.api.primitiveSite? A.program caller call with
  | some primitive =>
    rw [sitesOf_primitive hprimitive, List.mem_singleton] at h
    obtain ⟨found, hfound, rfl⟩ := Option.map_eq_some_iff.mp hprimitive
    exact .inl ⟨by rw [hfound, Option.isSome_some], by rw [h]⟩
  | none =>
    cases hcallee : call.callee with
    | indirect target =>
      rw [sitesOf_indirect hprimitive hcallee] at h
      cases h
    | direct g =>
      rw [sitesOf_direct hprimitive hcallee] at h
      split_ifs at h
      · cases hsummary : summaries.lookup g with
        | none => simp [hsummary] at h
        | some summary =>
          rw [hsummary, Option.map_some, Option.getD_some, wrapperSites] at h
          obtain ⟨⟨lock, value⟩, hmem, hsite⟩ := List.mem_filterMap.mp h
          simp only [wrapperSite?_eq, Option.bind_eq_some_iff, Option.some.injEq] at hsite
          obtain ⟨op, hop, operand, -, rfl⟩ := hsite
          refine .inr ⟨g, summary, lock, rfl, hsummary, (List.of_mem_zip hmem).1, ?_, rfl⟩
          rw [LockStatistic.isWrapper]
          split_ifs at hop with hlock hunlock
          · rw [hlock, Bool.true_or]
          · rw [hunlock, Bool.or_true]
      · cases h

/-- The depth of a lock is that of one of its operations. -/
theorem Account.exists_deepest (x : A.Account trace func) {lock : LockStatistic}
    (hlock : lock ∈ x.found.1.statistic.locks) :
    ∃ site ∈ x.sites.sites, site.depth = lock.callDepth := by
  rw [x.statistics] at hlock
  obtain ⟨e, he, rfl⟩ := List.mem_map.mp hlock
  obtain ⟨site, hsite, hconst, hvalue⟩ :=
    distinctLocks?_origin x.locks_eq (List.mem_map_of_mem he)
  have hon : e.on ≠ [] := List.ne_nil_of_mem (e.exists_mem_on hsite hconst hvalue)
  have hdepth : e.statistic.callDepth = (e.on.map (·.depth)).foldl max 0 :=
    LockStatistic.callDepth_foldl_record ..
  obtain ⟨deepest, hdeepest, heq⟩ :=
    List.mem_map.mp (foldl_max_mem (mt List.map_eq_nil_iff.mp hon))
  exact ⟨deepest, (e.mem_on.mp hdeepest).1, heq.trans hdepth.symm⟩

section Order

variable (x : A.Account trace func)

theorem Account.mem_trace : (func, x.found) ∈ trace := by
  have h : (func, x.found) ∈ x.before ++ (func, x.found) :: x.after := by simp
  rwa [← x.trace_eq] at h

theorem Account.before_subset : x.before ⊆ trace := by
  have h : x.before ⊆ x.before ++ (func, x.found) :: x.after := List.subset_append_left ..
  rwa [← x.trace_eq] at h

theorem Account.length_before_lt : x.before.length < trace.length := by
  have h := congrArg List.length x.trace_eq
  rw [List.length_append, List.length_cons] at h
  omega

theorem Account.funcs_subset : func :: x.before.funcs ⊆ trace.funcs :=
  List.cons_subset.mpr ⟨List.mem_map_of_mem x.mem_trace, List.map_subset _ x.before_subset⟩

theorem Account.summarizes_before (h : A.Summarizes trace) : A.Summarizes x.before :=
  (x.trace_eq ▸ h).split.1

theorem Account.notMem_before (h : A.Summarizes trace) : func ∉ x.before.funcs := by
  have hnodup := h.nodup
  rw [x.trace_eq, Trace.funcs, List.map_append, List.map_cons] at hnodup
  exact fun hf => List.disjoint_of_nodup_append hnodup hf List.mem_cons_self

theorem Account.reports_of_before {g : FuncId} {lock : LockStatistic}
    (h : x.before.Reports g lock) : trace.Reports g lock := by
  obtain ⟨found, hfound, hlock⟩ := h
  exact ⟨found, x.before_subset hfound, hlock⟩

end Order

/-- Each depth leads down a chain of functions that were summarized one before the other. The
induction is on how much was summarized before. -/
theorem Account.exists_chain (x : A.Account trace func) (hp : A.program.fault? = none)
    (h : A.Summarizes trace) {site : LockSite} (hsite : site ∈ x.sites.sites) :
    ∃ chain ⊆ func :: x.before.funcs,
      A.program.WrapperChain A.api x.before.Reports func site.depth chain := by
  induction hn : x.before.length using Nat.strong_induction_on generalizing trace func site with
  | _ n ih =>
    obtain ⟨calls, hcalls, hsites⟩ := x.exists_calls
    rw [hsites] at hsite
    obtain ⟨call, hcall, hsite⟩ := List.mem_flatMap.mp (SiteMap.mem_sites_ofList hsite)
    obtain ⟨hprimitive, hdepth⟩ | ⟨g, summary, lock, hcallee, hsummary, hlock, hwrapper, hdepth⟩ :=
      sitesOf_cases hsite
    · have hdef := h.mem_defined (x.funcs_subset List.mem_cons_self)
      have hroutine : A.program.CallsRoutine A.api func :=
        ⟨x.f, calls, x.f_eq, hcalls, call, hcall, hprimitive⟩
      refine ⟨[func], by simp, ?_⟩
      rw [hdepth]
      exact .single hdef hroutine
    · have hbefore := x.summarizes_before h
      have hg : g ∈ x.before.funcs := Trace.isSummarized_state.mp (Option.isSome_of_mem hsummary)
      obtain ⟨y, hy⟩ := hbefore.exists_account hp hg
      obtain rfl : summary = y.found.1 := Option.some.inj (hsummary.symm.trans hy)
      obtain ⟨deepest, hdeepest, heq⟩ := y.exists_deepest hlock
      obtain ⟨chain, hsub, hchain⟩ := ih _ (hn ▸ y.length_before_lt) y hbefore hdeepest rfl
      have hmem : chain ⊆ x.before.funcs := List.Subset.trans hsub y.funcs_subset
      have hchain' : A.program.WrapperChain A.api x.before.Reports g lock.callDepth chain := by
        rw [← heq]
        exact hchain.mono fun _ _ => y.reports_of_before
      have hcalls : A.program.Calls func g := ⟨x.f, calls, x.f_eq, hcalls, call, hcall, hcallee⟩
      refine ⟨func :: chain, List.cons_subset_cons _ hmem, ?_⟩
      rw [hdepth]
      exact hchain'.cons hcalls (fun hf => x.notMem_before h (hmem hf)) ⟨_, y.mem_trace, hlock⟩
        hwrapper

theorem Account.exists_lock_chain (x : A.Account trace func) (hp : A.program.fault? = none)
    (h : A.Summarizes trace) {lock : LockStatistic} (hlock : lock ∈ x.statistic.locks) :
    ∃ chain, A.program.WrapperChain A.api trace.Reports func lock.callDepth chain := by
  obtain ⟨deepest, hdeepest, heq⟩ := x.exists_deepest hlock
  obtain ⟨chain, -, hchain⟩ := x.exists_chain hp h hdeepest
  rw [← heq]
  exact ⟨chain, hchain.mono fun _ _ => x.reports_of_before⟩

theorem Summarizes.reports_of_trace (h : A.Summarizes trace) {report : ModuleStatistic}
    (hall : List.Forall₂ (fun func statistic => ∃ x : A.Account trace func, x.statistic = statistic)
      A.program.defined report.functions) {lock : LockStatistic}
    (hlock : trace.Reports func lock) : A.program.Reports report func lock := by
  obtain ⟨found, hfound, hlock⟩ := hlock
  have hdef : func ∈ A.program.defined := h.mem_defined (List.mem_map_of_mem hfound)
  obtain ⟨i, hi⟩ := List.mem_iff_getElem?.mp hdef
  obtain ⟨hlen, hzip⟩ := List.forall₂_iff_zip.mp hall
  have hlt : i < report.functions.length := hlen ▸ (List.getElem?_eq_some_iff.mp hi).1
  have hmem : (func, report.functions[i]) ∈ A.program.defined.zip report.functions :=
    List.mem_of_getElem? (i := i) (by simp [List.getElem?_zip_eq_some, hi, hlt])
  obtain ⟨x, hx⟩ := hzip hmem
  have heq : x.found.1 = found.1 := Option.some.inj
    ((Trace.lookup_summaries h.nodup x.mem_trace).symm.trans
      (Trace.lookup_summaries h.nodup hfound))
  exact ⟨_, hmem, by rw [← hx, Account.statistic, heq]; exact hlock⟩

end Analysis

/-- The depth of every lock in the report on a checked program is that of a chain of wrappers: as
many different functions, one called by the other, from one that the function calls to one that
calls a lock routine. So it is less than the number of functions with a body, and the depths that
are made of it by adding one are numbers of 32 bits if the number of functions is. -/
theorem Program.call_depth_is_realized {p : Program} (hp : p.fault? = none) (source : AliasSource)
    (config : Config) (api : LockApi) :
    ∃ graph trace report, CallGraph.of? p = some graph ∧
      Analysis.visitAll ⟨p, source, config, api, graph⟩ = some trace.state ∧
      p.report? source config api = some report ∧
      List.Forall₂ (fun func statistic =>
          ∃ x : Analysis.Account ⟨p, source, config, api, graph⟩ trace func,
            x.statistic = statistic ∧
            (∀ lock ∈ statistic.locks,
              (∃ chain, p.WrapperChain api (p.Reports report) func lock.callDepth chain) ∧
              lock.callDepth < p.defined.length) ∧
            (p.functions.size < Text.valuesOf 32 →
              ∀ site ∈ x.sites.sites, site.depth < Text.valuesOf 32))
        p.defined report.functions := by
  obtain ⟨graph, hgraph, -⟩ := CallGraph.exists_of? hp
  obtain ⟨trace, report, hrun, ht, hreport, hall⟩ :=
    Analysis.exists_report_accounts (A := ⟨p, source, config, api, graph⟩) hp hgraph
  have hreports (f : FuncId) (lock : LockStatistic) (h : trace.Reports f lock) :
      p.Reports report f lock := ht.reports_of_trace hall h
  refine ⟨graph, trace, report, hgraph, hrun, by simp [report?, hgraph, hreport], hall.imp ?_⟩
  rintro func _ ⟨x, rfl⟩
  refine ⟨x, rfl, fun lock hlock => ?_, fun hsize site hsite => ?_⟩
  · obtain ⟨chain, hchain⟩ := x.exists_lock_chain hp ht hlock
    exact ⟨⟨chain, hchain.mono hreports⟩, hchain.depth_lt⟩
  · obtain ⟨chain, -, hchain⟩ := x.exists_chain hp ht hsite
    exact (hchain.depth_lt.trans_le p.length_defined_le).trans hsize

/-- The depth of the lock in `main` leads through both functions of the cycle to `take`. -/
theorem relay_depth_realized : relay.fault? = none ∧ relay.functions.size < Text.valuesOf 32 ∧
    ∃ api report lock, LockApi.of? shortNames = some api ∧
      relay.report? .names shortNames api = some report ∧ relay.Reports report 0 lock ∧
      lock.callDepth = 3 ∧ relay.defined.length = 4 ∧
      (∃ chain, relay.WrapperChain api (relay.Reports report) 0 3 chain) ∧
      ∃ graph trace, ∃ x : Analysis.Account ⟨relay, .names, shortNames, api, graph⟩ trace 0,
        ∀ site ∈ x.sites.sites, site.depth < Text.valuesOf 32 := by
  have hfault : relay.fault? = none := by decide +kernel
  have hsize : relay.functions.size < Text.valuesOf 32 := by decide +kernel
  have hdefined : relay.defined = [0, 1, 2, 3] := by decide +kernel
  have hrun : ((LockApi.of? shortNames).bind fun api => (relay.report? .names shortNames api).bind
      fun report => some (report.functions.map fun f => f.locks.map (·.callDepth))) =
        some [[3], [2], [1], [0]] := by decide +kernel
  obtain ⟨api, hapi, hrun⟩ := Option.bind_eq_some_iff.mp hrun
  obtain ⟨report, hreport, hrun⟩ := Option.bind_eq_some_iff.mp hrun
  obtain ⟨graph, trace, report', -, -, hreport', hall⟩ :=
    Program.call_depth_is_realized hfault .names shortNames api
  obtain rfl := Option.some.inj (hreport.symm.trans hreport')
  obtain ⟨main, others, hfunctions, hmain, -⟩ := List.map_eq_cons_iff.mp (Option.some.inj hrun)
  obtain ⟨lock, rest, hlocks, hdepth, -⟩ := List.map_eq_cons_iff.mp hmain
  have hzip : (0, main) ∈ relay.defined.zip report.functions := by simp [hdefined, hfunctions]
  have hlock : lock ∈ main.locks := hlocks ▸ List.mem_cons_self
  obtain ⟨x, -, hdepths, hsites⟩ := List.forall₂_zip hall hzip
  obtain ⟨⟨chain, hchain⟩, -⟩ := hdepths lock hlock
  exact ⟨hfault, hsize, api, report, lock, hapi, hreport, ⟨main, hzip, hlock⟩, hdepth,
    by rw [hdefined]; rfl, ⟨chain, hdepth ▸ hchain⟩, graph, trace, x, hsites hsize⟩

end LockUsage
