import LockUsage.Proofs.Postorder
import LockUsage.Proofs.RedirectedSummaries

/-! Wrappers of lock routines. A function that only passes its parameters on to a routine is as good
as the routine: if calls go to the routine instead, the analysis finds the same in every function,
apart from how deep the calls go. -/

namespace LockUsage

/-- The body is one block, which passes all parameters on to another function and returns. -/
def Func.Forwards (f : Func) (callee : FuncId) : Prop :=
  ∃ name call ret value, f.blocks = #[⟨name, [call, ret]⟩] ∧
    f.insts[call]?.map Inst.kind =
      some (.call (.direct callee) ((List.range f.params.length).map .arg)) ∧
    f.insts[ret]?.map Inst.kind = some (.ret value)

theorem Func.Forwards.callSites {f : Func} {callee : FuncId} (h : f.Forwards callee) :
    ∃ inst, f.callSites? =
      some [⟨inst, .direct callee, (List.range f.params.length).map .arg⟩] := by
  obtain ⟨name, call, ret, value, hblocks, hcall, hret⟩ := h
  have hlisted : f.listed = [call, ret] := by simp [listed, hblocks]
  obtain ⟨first, hfirst, hkind⟩ := Option.map_eq_some_iff.mp hcall
  obtain ⟨last, hlast, hkind'⟩ := Option.map_eq_some_iff.mp hret
  exact ⟨call, by simp [callSites?, hlisted, call?, hfirst, hkind, hlast, hkind']⟩

/-- A function that is no lock routine by its name forwards to a declared one that does the given
operation, with the lock among the parameters. -/
structure Program.Wraps (p : Program) (api : LockApi) (op : LockOp) (wrapper routine : FuncId) :
    Prop where
  forwards : ∃ f, p.functions[wrapper]? = some f ∧ api.classify f.name = none ∧
    f.Forwards routine ∧ api.lockArgIndex < f.params.length
  declared : ∃ g, p.functions[routine]? = some g ∧ g.isDeclaration = true ∧
    api.classify g.name = some op

namespace Program

variable {p q q' : Program} {api : LockApi} {op : LockOp} {wrapper routine f g : FuncId}

namespace Wraps

theorem wrapper_mem_defined (h : p.Wraps api op wrapper routine) : wrapper ∈ p.defined := by
  obtain ⟨f, hf, -, ⟨name, call, ret, value, hblocks, -⟩, -⟩ := h.forwards
  exact mem_defined.mpr ⟨f, hf, by simp [Func.isDeclaration, hblocks]⟩

theorem routine_notMem_defined (h : p.Wraps api op wrapper routine) : routine ∉ p.defined := by
  obtain ⟨g, hg, hdecl, -⟩ := h.declared
  intro hmem
  obtain ⟨g', hg', hbody⟩ := mem_defined.mp hmem
  obtain rfl := Option.some.inj (hg.symm.trans hg')
  simp [hdecl] at hbody

theorem eq_routine_of_calls (h : p.Wraps api op wrapper routine) (hcall : p.Calls wrapper g) :
    g = routine := by
  obtain ⟨f, hf, -, hforwards, -⟩ := h.forwards
  obtain ⟨inst, hcalls⟩ := hforwards.callSites
  obtain ⟨f', calls, hf', hcalls', site, hsite, hcallee⟩ := hcall
  obtain rfl := Option.some.inj (hf.symm.trans hf')
  obtain rfl := Option.some.inj (hcalls.symm.trans hcalls')
  obtain rfl := List.mem_singleton.mp hsite
  exact (Callee.direct.inj hcallee).symm

theorem not_routine_calls (h : p.Wraps api op wrapper routine) : ¬ p.Calls routine g :=
  fun hcall => h.routine_notMem_defined hcall.mem_defined

/-- Chains of calls from the wrapper end at the routine. -/
theorem eq_of_chain (h : p.Wraps api op wrapper routine)
    (hchain : Relation.ReflTransGen p.Calls wrapper g) : g = wrapper ∨ g = routine := by
  induction hchain with
  | refl => exact .inl rfl
  | tail _ hcall ih =>
    rcases ih with rfl | rfl
    · exact .inr (h.eq_routine_of_calls hcall)
    · exact absurd hcall h.not_routine_calls

/-- Chains of calls to other functions pass neither the wrapper nor the routine. -/
theorem transGen_of_calls (h : q.Wraps api op wrapper routine)
    (hcalls : ∀ f g, g ≠ wrapper → g ≠ routine → q.Calls f g → q'.Calls f g)
    (hchain : Relation.TransGen q.Calls f g) (hw : g ≠ wrapper) (hr : g ≠ routine) :
    Relation.TransGen q'.Calls f g := by
  induction hchain with
  | single hcall => exact .single (hcalls _ _ hw hr hcall)
  | tail _ hcall ih =>
    refine (ih ?_ ?_).tail (hcalls _ _ hw hr hcall)
    · rintro rfl
      exact hr (h.eq_routine_of_calls hcall)
    · rintro rfl
      exact h.not_routine_calls hcall

theorem cycle_of_calls (h : q.Wraps api op wrapper routine)
    (hcalls : ∀ f g, g ≠ wrapper → g ≠ routine → q.Calls f g → q'.Calls f g)
    (hcycle : Relation.TransGen q.Calls f f) : Relation.TransGen q'.Calls f f := by
  obtain ⟨g, hcall, hback⟩ := Relation.TransGen.head'_iff.mp hcycle
  have hr : f ≠ routine := by
    rintro rfl
    exact h.not_routine_calls hcall
  refine h.transGen_of_calls hcalls hcycle ?_ hr
  rintro rfl
  obtain rfl := h.eq_routine_of_calls hcall
  rcases Relation.ReflTransGen.cases_head_iff.mp hback with rfl | ⟨_, hcall, -⟩
  · exact hr rfl
  · exact h.not_routine_calls hcall

end Wraps

theorem calls_redirect_iff {r : FuncId → InstId → FuncId → FuncId} :
    (p.redirect r).Calls f g ↔ ∃ func calls, p.functions[f]? = some func ∧
      func.callSites? = some calls ∧
        ∃ site ∈ calls, ∃ callee, site.callee = .direct callee ∧ r f site.inst callee = g := by
  constructor
  · rintro ⟨func', calls', hfunc', hcalls', site', hsite', hcallee'⟩
    rw [getElem?_functions_redirect, Option.map_eq_some_iff] at hfunc'
    obtain ⟨func, hfunc, rfl⟩ := hfunc'
    rw [Func.callSites?_redirect, Option.map_eq_some_iff] at hcalls'
    obtain ⟨calls, hcalls, rfl⟩ := hcalls'
    obtain ⟨site, hsite, rfl⟩ := List.mem_map.mp hsite'
    refine ⟨func, calls, hfunc, hcalls, site, hsite, ?_⟩
    cases hcallee : site.callee with
    | direct callee =>
      simp only [CallSite.redirect, hcallee, Callee.redirect] at hcallee'
      exact ⟨callee, rfl, Callee.direct.inj hcallee'⟩
    | indirect => simp [CallSite.redirect, hcallee, Callee.redirect] at hcallee'
  · rintro ⟨func, calls, hfunc, hcalls, site, hsite, callee, hcallee, rfl⟩
    refine ⟨func.redirect (r f), calls.map (CallSite.redirect (r f)), ?_, ?_,
      site.redirect (r f), List.mem_map_of_mem hsite, ?_⟩
    · rw [getElem?_functions_redirect, hfunc, Option.map_some]
    · rw [Func.callSites?_redirect, hcalls, Option.map_some]
    · rw [CallSite.redirect, hcallee]
      rfl

/-- Where a call goes if the chosen calls of a wrapper, other than its own, go to the routine. -/
def bypassing (wrapper routine : FuncId) (chosen : FuncId → InstId → Bool) (caller : FuncId)
    (inst : InstId) (callee : FuncId) : FuncId :=
  if caller ≠ wrapper ∧ callee = wrapper ∧ chosen caller inst then routine else callee

/-- The program whose chosen calls of a wrapper go to the routine. -/
def bypass (p : Program) (wrapper routine : FuncId) (chosen : FuncId → InstId → Bool) : Program :=
  p.redirect (bypassing wrapper routine chosen)

section Bypass

variable {chosen : FuncId → InstId → Bool} {caller callee : FuncId} {inst : InstId}

theorem bypassing_wrapper : bypassing wrapper routine chosen wrapper inst callee = callee := by
  simp [bypassing]

theorem Wraps.bypass (h : p.Wraps api op wrapper routine) (chosen : FuncId → InstId → Bool) :
    (p.bypass wrapper routine chosen).Wraps api op wrapper routine := by
  obtain ⟨f, hf, hname, ⟨name, call, ret, value, hblocks, hcall, hret⟩, hindex⟩ := h.forwards
  obtain ⟨g, hg, hdecl, hop⟩ := h.declared
  constructor
  · refine ⟨f.redirect (bypassing wrapper routine chosen wrapper), ?_, hname,
      ⟨name, call, ret, value, hblocks, ?_, ?_⟩, hindex⟩
    · rw [Program.bypass, getElem?_functions_redirect, hf, Option.map_some]
    · obtain ⟨inst, hinst, hkind⟩ := Option.map_eq_some_iff.mp hcall
      simp [hinst, Inst.redirect, hkind, InstKind.redirect, Callee.redirect, bypassing_wrapper]
    · obtain ⟨inst, hinst, hkind⟩ := Option.map_eq_some_iff.mp hret
      simp [hinst, Inst.redirect, hkind, InstKind.redirect]
  · refine ⟨g.redirect (bypassing wrapper routine chosen routine), ?_, hdecl, hop⟩
    rw [Program.bypass, getElem?_functions_redirect, hg, Option.map_some]

theorem Calls.of_bypass (hcall : (p.bypass wrapper routine chosen).Calls f g) (hr : g ≠ routine) :
    p.Calls f g := by
  obtain ⟨func, calls, hf, hcalls, site, hsite, callee, hcallee, heq⟩ :=
    calls_redirect_iff.mp hcall
  rw [bypassing] at heq
  split_ifs at heq
  · exact absurd heq.symm hr
  · exact ⟨func, calls, hf, hcalls, site, hsite, heq ▸ hcallee⟩

theorem Calls.bypass (hcall : p.Calls f g) (hw : g ≠ wrapper) :
    (p.bypass wrapper routine chosen).Calls f g := by
  obtain ⟨func, calls, hf, hcalls, site, hsite, hcallee⟩ := hcall
  exact calls_redirect_iff.mpr ⟨func, calls, hf, hcalls, site, hsite, g, hcallee,
    if_neg fun hb => hw hb.2.1⟩

theorem fault?_bypass (hp : p.fault? = none) (h : p.Wraps api op wrapper routine)
    (chosen : FuncId → InstId → Bool) :
    (p.bypass wrapper routine chosen).fault? = none := by
  obtain ⟨routine', hroutine, -⟩ := h.declared
  refine fault?_redirect _ p (fun caller inst callee hlt => ?_) hp
  rw [bypassing]
  split_ifs
  · exact (Array.getElem?_eq_some_iff.mp hroutine).1
  · exact hlt

/-- The same functions are recursive. -/
theorem isRecursive_bypass (hp : p.fault? = none) (h : p.Wraps api op wrapper routine)
    {graph graph' : CallGraph} (hgraph : CallGraph.of? p = some graph)
    (hgraph' : CallGraph.of? (p.bypass wrapper routine chosen) = some graph') :
    graph'.isRecursive f = graph.isRecursive f := by
  rw [Bool.eq_iff_iff, CallGraph.isRecursive_iff hp hgraph,
    CallGraph.isRecursive_iff (fault?_bypass hp h chosen) hgraph']
  exact ⟨(h.bypass chosen).cycle_of_calls fun _ _ _ hr hcall => hcall.of_bypass hr,
    h.cycle_of_calls fun _ _ hw _ hcall => hcall.bypass hw⟩

end Bypass

end Program

namespace LockApi

variable {p : Program} {f : Func} {site : CallSite} {g : FuncId}

theorem primitiveSite?_direct (api : LockApi) (caller : Func) (hcallee : site.callee = .direct g)
    (hg : p.functions[g]? = some f) :
    api.primitiveSite? p caller site = (api.classify f.name).bind fun op =>
      site.args[api.lockArgIndex]?.map fun lock =>
        ⟨site.inst, op, caller.root lock, false, 0⟩ := by
  simp only [primitiveSite?, primitiveCall?, hcallee, hg, Option.bind_eq_bind, Option.bind_some]
  cases api.classify f.name with
  | none => rfl
  | some op => cases site.args[api.lockArgIndex]? <;> rfl

end LockApi

/-- A function does one operation, on the lock that it is given at a position. -/
def Summary.IsWrapper (s : Summary) (func : FuncId) (op : LockOp) (index : Nat) : Prop :=
  ∃ lock, s.statistic.locks = [lock] ∧ s.locks = [⟨func, .arg index⟩] ∧
    lock.lockWrapper = (op == .acquire) ∧ lock.unlockWrapper = (op == .release)

theorem AliasSource.aliases?_self {v : ScopedValue} (h : v.value.isConst = false) (p : Program)
    (threshold : AliasKind) : names.aliases? p threshold v v = some true := by
  simp only [aliases?, alias?, h, Bool.or_self, Bool.false_eq_true, if_false, if_true,
    Option.map_some]
  cases threshold <;> rfl

namespace Analysis

section Wrapper

variable {p : Program} {config : Config} {api : LockApi} {graph : CallGraph} {op : LockOp}
  {wrapper routine func : FuncId} {site : LockSite}

theorem sites_singleton (site : LockSite) : (SiteMap.ofList [site]).sites = [site] := rfl

/-- A function with one operation on a lock has that lock only. -/
theorem distinctLocks?_singleton (h : site.lock.isConst = false) {name : String}
    (hname : p.valueName? func site.lock = some name) :
    distinctLocks? ⟨p, .names, config, api, graph⟩ func (.ofList [site]) =
      some [⟨name, ⟨func, site.lock⟩, false⟩] := by
  simp [distinctLocks?, sites_singleton, addLock?, h, hname]

/-- A function with one operation on a lock is a wrapper for that operation. -/
theorem examineLock?_singleton (h : site.lock.isConst = false) {b : Body}
    {deps : Body.Dependences b.func.blocks.size} {name : String} {finding : LockFinding}
    (hfinding : examineLock? ⟨p, .names, config, api, graph⟩ func b deps (.ofList [site])
      ⟨name, ⟨func, site.lock⟩, false⟩ = some finding) :
    finding.statistic.lockWrapper = (site.op == .acquire) ∧
      finding.statistic.unlockWrapper = (site.op == .release) := by
  have hon : [site].filterM (LockSite.isOn? .names config p func ⟨func, site.lock⟩) =
      some [site] := by
    have hself : LockSite.isOn? .names config p func ⟨func, site.lock⟩ site = some true :=
      AliasSource.aliases?_self h p _
    simp [List.filterM, List.filterAuxM, hself]
  rw [examineLock?_eq, sites_singleton, hon, Option.bind_some] at hfinding
  simp only [Option.bind_eq_some_iff] at hfinding
  obtain ⟨events, -, P, -, hfinding⟩ := hfinding
  obtain rfl := Option.some.inj hfinding
  obtain ⟨hlock, hunlock⟩ := LockStatistic.wrappers_foldl_record
    (siteStatistic ⟨name, ⟨func, site.lock⟩, false⟩ [site])
    ((b.findPairs fun i => events.op i.val).map (b.classify deps))
  refine ⟨hlock.trans ?_, hunlock.trans ?_⟩
  · cases hop : site.op <;> simp [siteStatistic, hop]
  · cases hop : site.op <;> simp [siteStatistic, hop]

/-- The summary of a wrapper says what the routine does. -/
theorem isWrapper_summary (h : p.Wraps api op wrapper routine) {summaries : Summaries}
    {found : Summary × Log}
    (hfound : summarize? ⟨p, .names, config, api, graph⟩ summaries wrapper = some found) :
    found.1.IsWrapper wrapper op api.lockArgIndex := by
  obtain ⟨f, hf, -, hforwards, hindex⟩ := h.forwards
  obtain ⟨g, hg, -, hop⟩ := h.declared
  obtain ⟨inst, hcalls⟩ := hforwards.callSites
  have hsite : sitesOf ⟨p, .names, config, api, graph⟩ summaries f
      ⟨inst, .direct routine, (List.range f.params.length).map .arg⟩ =
        [⟨inst, op, .arg api.lockArgIndex, false, 0⟩] := by
    refine sitesOf_primitive ((api.primitiveSite?_direct f rfl hg).trans ?_)
    rw [hop, Option.bind_some, List.getElem?_map, List.getElem?_range hindex]
    rfl
  obtain ⟨name, hname⟩ : ∃ name, p.valueName? wrapper (.arg api.lockArgIndex) = some name := by
    simp [Program.valueName?, hf]
  have hlocks : distinctLocks? ⟨p, .names, config, api, graph⟩ wrapper
      (.ofList [⟨inst, op, .arg api.lockArgIndex, false, 0⟩]) =
        some [⟨name, ⟨wrapper, .arg api.lockArgIndex⟩, false⟩] := distinctLocks?_singleton rfl hname
  simp only [summarize?, hf, hcalls, Option.bind_eq_bind, Option.bind_some, List.flatMap_cons,
    List.flatMap_nil, List.append_nil, hsite, hlocks, List.foldlM_cons, List.foldlM_nil,
    Option.bind_eq_some_iff] at hfound
  obtain ⟨b, -, _, ⟨finding, hfinding, heq⟩, hfound⟩ := hfound
  obtain rfl := Option.some.inj heq
  obtain rfl := Option.some.inj hfound
  exact ⟨finding.statistic, rfl, rfl, examineLock?_singleton rfl hfinding⟩

/-- The lock operation of a call that is given the lock at a position. -/
def operation (caller : Func) (site : CallSite) (op : LockOp) (index : Nat) : List LockSite :=
  (site.args[index]?.map fun lock => ⟨site.inst, op, caller.root lock, false, 0⟩).toList

theorem map_plain_operation (caller : Func) (site : CallSite) (op : LockOp) (index : Nat) :
    (operation caller site op index).map LockSite.plain = operation caller site op index := by
  rw [operation]
  cases site.args[index]? <;> rfl

/-- A call of the routine does the operation. -/
theorem sitesOf_routine {A : Analysis} (h : A.program.Wraps A.api op wrapper routine)
    {summaries : Summaries} (hlookup : summaries.lookup routine = none) {caller : Func}
    {site : CallSite} (hcallee : site.callee = .direct routine) :
    A.sitesOf summaries caller site = operation caller site op A.api.lockArgIndex := by
  obtain ⟨g, hg, -, hop⟩ := h.declared
  have hprimitive := A.api.primitiveSite?_direct caller hcallee hg
  rw [hop, Option.bind_some] at hprimitive
  rw [operation]
  cases hlock : site.args[A.api.lockArgIndex]? with
  | none =>
    rw [hlock, Option.map_none] at hprimitive
    simp [sitesOf_direct hprimitive hcallee, hlookup]
  | some lock =>
    rw [hlock, Option.map_some] at hprimitive
    exact sitesOf_primitive hprimitive

/-- A call of the wrapper does the operation. -/
theorem map_plain_sitesOf_wrapper {A : Analysis} (h : A.program.Wraps A.api op wrapper routine)
    (hinter : A.config.interprocedural = true) {summaries : Summaries} {summary : Summary}
    (hlookup : summaries.lookup wrapper = some summary)
    (hsummary : summary.IsWrapper wrapper op A.api.lockArgIndex) {caller : Func}
    {site : CallSite} (hcallee : site.callee = .direct wrapper) :
    (A.sitesOf summaries caller site).map LockSite.plain =
      operation caller site op A.api.lockArgIndex := by
  obtain ⟨f, hf, hname, -⟩ := h.forwards
  have hprimitive := A.api.primitiveSite?_direct caller hcallee hf
  rw [hname, Option.bind_none] at hprimitive
  obtain ⟨lock, hlocks, hvalues, hacquire, hrelease⟩ := hsummary
  rw [sitesOf_direct hprimitive hcallee, if_pos hinter, hlookup, Option.map_some, Option.getD_some,
    wrapperSites, hlocks, hvalues, operation]
  simp only [List.zip_cons_cons, List.zip_nil_right, List.filterMap_cons, List.filterMap_nil,
    wrapperSite?_eq, callerValue?, hacquire, hrelease]
  cases op <;> cases site.args[A.api.lockArgIndex]? <;> rfl

end Wrapper

theorem redirect_bypassing (wrapper routine : FuncId) (chosen : FuncId → InstId → Bool)
    (func : FuncId) (site : CallSite) :
    site.redirect (Program.bypassing wrapper routine chosen func) = site ∨
      site.callee = .direct wrapper ∧
        (site.redirect (Program.bypassing wrapper routine chosen func)).callee =
          .direct routine := by
  obtain ⟨inst, callee, args⟩ := site
  cases callee with
  | indirect => exact .inl rfl
  | direct g =>
    by_cases h : func ≠ wrapper ∧ g = wrapper ∧ chosen func inst
    · exact .inr ⟨by rw [h.2.1], congrArg Callee.direct (if_pos h)⟩
    · exact .inl (congrArg (fun g => (⟨inst, .direct g, args⟩ : CallSite)) (if_neg h))

section Order

variable {A : Analysis} {op : LockOp} {wrapper routine func : FuncId}

/-- A wrapper is summarized before its callers: no chain of calls leads back. -/
theorem Summarizes.wrapper_first {before after : Trace} {found : Summary × Log}
    (h : A.program.Wraps A.api op wrapper routine)
    (ht : A.Summarizes (before ++ (func, found) :: after)) (hcall : A.program.Calls func wrapper) :
    wrapper ∈ before.funcs := by
  refine (ht.split.2.2 wrapper h.wrapper_mem_defined hcall).resolve_right fun hback => ?_
  rcases h.eq_of_chain hback with rfl | rfl
  · exact h.routine_notMem_defined (h.eq_routine_of_calls hcall ▸ hcall.mem_defined)
  · exact h.not_routine_calls hcall

theorem bodies_wrapper (h : A.program.Wraps A.api op wrapper routine)
    (hgraph : CallGraph.of? A.program = some A.graph) : A.bodies wrapper = [] := by
  refine List.filter_eq_nil_iff.mpr fun g hg hdef => h.routine_notMem_defined ?_
  rw [CallGraph.mem_callees_iff hgraph] at hg
  exact h.eq_routine_of_calls hg ▸ of_decide_eq_true hdef

theorem Summarizes.filter_before {before after before' after' : Trace}
    {found found' : Summary × Log} (ht : A.Summarizes (before ++ (func, found) :: after))
    (horder : (Trace.funcs (before' ++ (func, found') :: after')).filter (· ≠ wrapper) =
      (Trace.funcs (before ++ (func, found) :: after)).filter (· ≠ wrapper))
    (hw : func ≠ wrapper) :
    before'.funcs.filter (· ≠ wrapper) = before.funcs.filter (· ≠ wrapper) := by
  have hfuncs (t u : Trace) (entry : FuncId × Summary × Log) :
      Trace.funcs (t ++ entry :: u) = t.funcs ++ entry.1 :: u.funcs := List.map_append
  have hnodup := ht.nodup
  rw [hfuncs, List.nodup_middle, List.nodup_cons, List.mem_append, not_or] at hnodup
  have hnot (l : List FuncId) (hl : func ∉ l) : func ∉ l.filter (· ≠ wrapper) :=
    fun hmem => hl (List.mem_filter.mp hmem).1
  rw [hfuncs, hfuncs, List.filter_append, List.filter_append, List.filter_cons_of_pos (by simpa),
    List.filter_cons_of_pos (by simpa), eq_comm,
    List.append_cons_inj_of_notMem (hnot _ hnodup.1.1) (hnot _ hnodup.1.2)] at horder
  exact horder.1.symm

end Order

/-- Analyses of a program and of what it becomes if chosen calls of a wrapper go to the routine. -/
structure Bypasses (A A' : Analysis) (op : LockOp) (wrapper routine : FuncId)
    (chosen : FuncId → InstId → Bool) : Prop where
  faultless : A.program.fault? = none
  wraps : A.program.Wraps A.api op wrapper routine
  names : A.source = .names
  interprocedural : A.config.interprocedural = true
  graph : CallGraph.of? A.program = some A.graph
  graph' : CallGraph.of? A'.program = some A'.graph
  eq : A' = { A with program := A.program.bypass wrapper routine chosen, graph := A'.graph }

namespace Bypasses

variable {A A' : Analysis} {op : LockOp} {wrapper routine func : FuncId}
  {chosen : FuncId → InstId → Bool} (h : Bypasses A A' op wrapper routine chosen)
include h

theorem program : A'.program = A.program.bypass wrapper routine chosen := by rw [h.eq]

theorem config : A'.config = A.config := by rw [h.eq]

theorem api : A'.api = A.api := by rw [h.eq]

theorem defined : A'.program.defined = A.program.defined := by
  rw [h.program, Program.bypass, Program.defined_redirect]

theorem wraps' : A'.program.Wraps A'.api op wrapper routine := by
  rw [h.program, h.api]
  exact h.wraps.bypass chosen

theorem faultless' : A'.program.fault? = none :=
  h.program ▸ Program.fault?_bypass h.faultless h.wraps chosen

theorem calls_of_calls' {g : FuncId} (hcall : A'.program.Calls func g) (hr : g ≠ routine) :
    A.program.Calls func g := by
  rw [h.program] at hcall
  exact hcall.of_bypass hr

theorem calls'_of_calls {g : FuncId} (hcall : A.program.Calls func g) (hw : g ≠ wrapper) :
    A'.program.Calls func g := by
  rw [h.program]
  exact hcall.bypass hw

/-- Calls do the same whether or not they go to the routine, if their callees have the same
summaries. -/
theorem map_plain_sitesOf {summaries summaries' : Summaries} {f : Func} {calls : List CallSite}
    (hf : A.program.functions[func]? = some f) (hcalls : f.callSites? = some calls)
    (hroutine : summaries'.lookup routine = none)
    (hwrapper : A.program.Calls func wrapper → ∃ summary,
      summaries.lookup wrapper = some summary ∧
        summary.IsWrapper wrapper op A.api.lockArgIndex)
    (hlookup : ∀ g, A'.program.Calls func g →
      (summaries'.lookup g).map Summary.flat = (summaries.lookup g).map Summary.flat)
    (site : CallSite) (hsite : site ∈ calls) :
    (A'.sitesOf summaries' (f.redirect (Program.bypassing wrapper routine chosen func))
        (site.redirect (Program.bypassing wrapper routine chosen func))).map LockSite.plain =
      (A.sitesOf summaries f site).map LockSite.plain := by
  rcases redirect_bypassing wrapper routine chosen func site with hsame | ⟨hcallee, hcallee'⟩
  · rw [hsame]
    refine map_plain_sitesOf_redirect _ _ f site h.program h.config h.api hsame
      fun g hg => hlookup g ?_
    have hg' := congrArg CallSite.callee hsame
    rw [hg, CallSite.redirect, hg] at hg'
    rw [h.program]
    exact Program.calls_redirect_iff.mpr
      ⟨f, calls, hf, hcalls, site, hsite, g, hg, Callee.direct.inj hg'⟩
  · obtain ⟨summary, hsummary, hshape⟩ := hwrapper ⟨f, calls, hf, hcalls, site, hsite, hcallee⟩
    rw [map_plain_sitesOf_wrapper h.wraps h.interprocedural hsummary hshape hcallee,
      sitesOf_routine h.wraps' hroutine hcallee', map_plain_operation, h.api]
    simp only [operation, Func.root_redirect]
    rfl

/-- The other functions with a body are called in the same order. -/
theorem filter_bodies (func : FuncId) :
    (A'.bodies func).filter (· ≠ wrapper) = (A.bodies func).filter (· ≠ wrapper) := by
  refine List.Pairwise.eq_of_mem_iff ((A'.pairwise_bodies func).filter _)
    ((A.pairwise_bodies func).filter _) fun g => ?_
  simp only [List.mem_filter, mem_bodies h.graph, mem_bodies h.graph', h.defined,
    decide_eq_true_eq, and_assoc]
  refine and_congr_left_iff.mpr fun ⟨hdef, hw⟩ => ⟨fun hcall => h.calls_of_calls' hcall ?_,
    fun hcall => h.calls'_of_calls hcall hw⟩
  rintro rfl
  exact h.wraps.routine_notMem_defined hdef

/-- The other functions are summarized in the same order. -/
theorem filter_funcs {trace trace' : Trace} (hrun : A.visitAll = some trace.state)
    (hrun' : A'.visitAll = some trace'.state) :
    trace'.funcs.filter (· ≠ wrapper) = trace.funcs.filter (· ≠ wrapper) := by
  have hfuncs (t : Trace) : t.state.funcs = t.funcs := List.map_map
  have horder := funcs_foldlM_visit hrun
  have horder' := funcs_foldlM_visit hrun'
  rw [hfuncs] at horder horder'
  have hsize : A'.program.functions.size = A.program.functions.size := by
    rw [h.program, Program.bypass, Program.size_functions_redirect]
  rw [horder, horder', h.defined, hsize]
  exact (filter_foldl_postorder (bodies_wrapper h.wraps' h.graph') _ _).trans
    ((congrArg (fun next => (A.program.defined.filter (· ≠ wrapper)).foldl
      (postorder next A.program.functions.size []) []) (funext h.filter_bodies)).trans
    (filter_foldl_postorder (bodies_wrapper h.wraps h.graph) _ _).symm)

theorem isRecursive (func : FuncId) : A'.graph.isRecursive func = A.graph.isRecursive func := by
  have hgraph' := h.graph'
  rw [h.program] at hgraph'
  exact Program.isRecursive_bypass h.faultless h.wraps h.graph hgraph'

/-- What is found in a function is the same if what is found in its callees is. -/
theorem flat_summarize? {summaries summaries' : Summaries} (hdef : func ∈ A.program.defined)
    (hroutine : summaries'.lookup routine = none)
    (hwrapper : A.program.Calls func wrapper → ∃ summary,
      summaries.lookup wrapper = some summary ∧
        summary.IsWrapper wrapper op A.api.lockArgIndex)
    (hlookup : ∀ g, A'.program.Calls func g →
      (summaries'.lookup g).map Summary.flat = (summaries.lookup g).map Summary.flat) :
    (A'.summarize? summaries' func).map flat = (A.summarize? summaries func).map flat := by
  obtain ⟨f, hf, -⟩ := Program.mem_defined.mp hdef
  have hc := Program.checked_of_fault? h.faultless hf
  obtain ⟨b, hb⟩ := hc.exists_body
  obtain ⟨calls, hcalls, -⟩ := hc.exists_callSites
  have hsites := h.map_plain_sitesOf hf hcalls hroutine hwrapper hlookup
  have hrec := h.isRecursive func
  obtain ⟨p, source, config, api, graph⟩ := A
  obtain rfl : source = .names := h.names
  rw [h.eq] at hsites ⊢
  exact Analysis.flat_summarize? _ hf hb hcalls hrec hsites

/-- The callers of the wrapper know what it does. -/
theorem exists_isWrapper {before after : Trace} {found : Summary × Log}
    (ht : A.Summarizes (before ++ (func, found) :: after)) (hcall : A.program.Calls func wrapper) :
    ∃ summary, before.summaries.lookup wrapper = some summary ∧
      summary.IsWrapper wrapper op A.api.lockArgIndex := by
  obtain ⟨found', hentry⟩ := Trace.mem_funcs.mp (ht.wrapper_first h.wraps hcall)
  have hbefore := ht.split.1
  refine ⟨found'.1, Trace.lookup_summaries hbefore.nodup hentry, ?_⟩
  obtain ⟨before', between, rfl⟩ := List.append_of_mem hentry
  have hfound := hbefore.split.2.1
  obtain ⟨p, source, config, api, graph⟩ := A
  obtain rfl : source = .names := h.names
  exact isWrapper_summary h.wraps hfound

section Traces

variable {before after before' after' : Trace} {found found' : Summary × Log}
  (ht : A.Summarizes (before ++ (func, found) :: after))
  (ht' : A'.Summarizes (before' ++ (func, found') :: after'))
  (horder : (Trace.funcs (before' ++ (func, found') :: after')).filter (· ≠ wrapper) =
    (Trace.funcs (before ++ (func, found) :: after)).filter (· ≠ wrapper))
include ht ht' horder

/-- The same callees are summarized before their callers. -/
theorem mem_before_iff {g : FuncId} (hcall : A'.program.Calls func g) :
    g ∈ before'.funcs ↔ g ∈ before.funcs := by
  by_cases hr : g = routine
  · subst hr
    exact ⟨fun hmem => absurd (ht'.split.1.mem_defined hmem) h.wraps'.routine_notMem_defined,
      fun hmem => absurd (ht.split.1.mem_defined hmem) h.wraps.routine_notMem_defined⟩
  by_cases hw : g = wrapper
  · subst hw
    exact ⟨fun _ => ht.wrapper_first h.wraps (h.calls_of_calls' hcall hr),
      fun _ => ht'.wrapper_first h.wraps' hcall⟩
  · have hfunc : func ≠ wrapper := by
      rintro rfl
      exact hr (h.wraps'.eq_routine_of_calls hcall)
    have hmem := congrArg (g ∈ ·) (ht.filter_before horder hfunc)
    simpa [hw] using hmem

end Traces

/-- What is found in each function is the same, apart from call depths. -/
theorem flat_found {trace trace' : Trace} (ht : A.Summarizes trace) (ht' : A'.Summarizes trace')
    (horder : trace'.funcs.filter (· ≠ wrapper) = trace.funcs.filter (· ≠ wrapper))
    {before after before' after' : Trace} {found found' : Summary × Log}
    (htrace : trace = before ++ (func, found) :: after)
    (htrace' : trace' = before' ++ (func, found') :: after') : flat found' = flat found := by
  -- The callees that are summarized in both come earlier.
  induction hn : before.length using Nat.strong_induction_on
    generalizing func before after before' after' found found' with
  | _ n ih =>
    subst htrace htrace'
    obtain ⟨hbefore, hfound, -⟩ := ht.split
    obtain ⟨hbefore', hfound', -⟩ := ht'.split
    have hdef : func ∈ A.program.defined := ht.mem_defined (by simp [Trace.funcs])
    have hroutine : before'.summaries.lookup routine = none :=
      Trace.lookup_summaries_eq_none fun hmem =>
        h.wraps'.routine_notMem_defined (hbefore'.mem_defined hmem)
    have hsame := h.flat_summarize? hdef hroutine (h.exists_isWrapper ht) fun g hcall => ?_
    · rw [hfound, hfound', Option.map_some, Option.map_some] at hsame
      exact Option.some.inj hsame
    have hiff := h.mem_before_iff ht ht' horder hcall
    by_cases hmem : g ∈ before.funcs
    · obtain ⟨found₁, hentry⟩ := Trace.mem_funcs.mp hmem
      obtain ⟨found₁', hentry'⟩ := Trace.mem_funcs.mp (hiff.mpr hmem)
      rw [Trace.lookup_summaries hbefore.nodup hentry,
        Trace.lookup_summaries hbefore'.nodup hentry']
      obtain ⟨before₁, between, rfl⟩ := List.append_of_mem hentry
      obtain ⟨before₁', between', rfl⟩ := List.append_of_mem hentry'
      rw [List.length_append, List.length_cons] at hn
      have hflat := ih before₁.length (by omega) (List.append_assoc ..) (List.append_assoc ..) rfl
      exact congrArg (fun found => some found.1) hflat
    · rw [Trace.lookup_summaries_eq_none hmem,
        Trace.lookup_summaries_eq_none fun hmem' => hmem (hiff.mp hmem')]

/-- The reports differ in call depths and in the order of anomalies only. -/
theorem reports : ∃ report report', A.report? = some report ∧ A'.report? = some report' ∧
    report'.functions.map FunctionStatistic.flat = report.functions.map FunctionStatistic.flat ∧
    ∀ d, d ∈ report'.diagnostics ↔ d ∈ report.diagnostics := by
  obtain ⟨trace, hrun, ht, hperm, report, hreport, hfunctions, hdiagnostics⟩ :=
    exists_report_trace h.faultless h.graph
  obtain ⟨trace', hrun', ht', hperm', report', hreport', hfunctions', hdiagnostics'⟩ :=
    exists_report_trace h.faultless' h.graph'
  rw [h.defined] at hperm' hfunctions'
  have hflat {f : FuncId} {found found' : Summary × Log} (hmem : (f, found) ∈ trace)
      (hmem' : (f, found') ∈ trace') : flat found' = flat found := by
    obtain ⟨before, after, hsplit⟩ := List.append_of_mem hmem
    obtain ⟨before', after', hsplit'⟩ := List.append_of_mem hmem'
    exact h.flat_found ht ht' (h.filter_funcs hrun hrun') hsplit hsplit'
  refine ⟨report, report', hreport, hreport', ?_, fun d => ?_⟩
  · rw [hfunctions, hfunctions', List.map_filterMap, List.map_filterMap]
    refine List.filterMap_congr fun f hf => ?_
    obtain ⟨found, hmem⟩ := Trace.mem_funcs.mp (hperm.mem_iff.mpr hf)
    obtain ⟨found', hmem'⟩ := Trace.mem_funcs.mp (hperm'.mem_iff.mpr hf)
    rw [Trace.lookup_summaries ht.nodup hmem, Trace.lookup_summaries ht'.nodup hmem']
    exact congrArg (fun found => some found.1.statistic) (hflat hmem hmem')
  · have hfuncs (f : FuncId) : f ∈ trace'.funcs ↔ f ∈ trace.funcs :=
      hperm'.mem_iff.trans hperm.mem_iff.symm
    rw [hdiagnostics, hdiagnostics', Trace.mem_log, Trace.mem_log]
    constructor
    · rintro ⟨f, found', hmem', hd⟩
      obtain ⟨found, hmem⟩ := Trace.mem_funcs.mp ((hfuncs f).mp (Trace.mem_funcs.mpr ⟨_, hmem'⟩))
      obtain ⟨-, hlog⟩ := Prod.mk.inj (hflat hmem hmem')
      exact ⟨f, found, hmem, hlog ▸ hd⟩
    · rintro ⟨f, found, hmem, hd⟩
      obtain ⟨found', hmem'⟩ := Trace.mem_funcs.mp ((hfuncs f).mpr (Trace.mem_funcs.mpr ⟨_, hmem⟩))
      obtain ⟨-, hlog⟩ := Prod.mk.inj (hflat hmem hmem')
      exact ⟨f, found', hmem', hlog ▸ hd⟩

end Bypasses

end Analysis

/-- A wrapper is as good as the routine: calls may go to either, and every function has the same
numbers, apart from call depths, and the same anomalies. -/
theorem Program.wrapper_transparent {p : Program} (hp : p.fault? = none) {config : Config}
    (hinter : config.interprocedural = true) {api : LockApi} {op : LockOp}
    {wrapper routine : FuncId} (h : p.Wraps api op wrapper routine)
    (chosen : FuncId → InstId → Bool) :
    ∃ report report', p.report? .names config api = some report ∧
      (p.bypass wrapper routine chosen).report? .names config api = some report' ∧
      report'.functions.map FunctionStatistic.flat = report.functions.map FunctionStatistic.flat ∧
      ∀ d, d ∈ report'.diagnostics ↔ d ∈ report.diagnostics := by
  obtain ⟨graph, hgraph, -⟩ := CallGraph.exists_of? hp
  obtain ⟨graph', hgraph', -⟩ := CallGraph.exists_of? (fault?_bypass hp h chosen)
  have hbypasses : Analysis.Bypasses ⟨p, .names, config, api, graph⟩
      ⟨p.bypass wrapper routine chosen, .names, config, api, graph'⟩ op wrapper routine chosen :=
    ⟨hp, h, rfl, hinter, hgraph, hgraph', rfl⟩
  simp only [report?, hgraph, hgraph', Option.bind_eq_bind, Option.bind_some]
  exact hbypasses.reports

/-- A wrapper of a lock routine that is called by two functions which call each other. One of them
acquires a lock twice, the other one calls the wrapper without a lock. -/
def courier : Program where
  name := "m"
  globals := #["l"]
  functions := #[
    ⟨"main", ["m"], #[⟨"a", [0, 1, 2, 3, 4]⟩],
      #[⟨none, 0, .call (.direct 2) [.arg 0]⟩, ⟨none, 0, .call (.direct 1) []⟩,
        ⟨none, 0, .call (.direct 2) [.arg 0]⟩, ⟨none, 0, .call (.direct 4) [.arg 0]⟩,
        ⟨none, 0, .ret none⟩]⟩,
    ⟨"again", [], #[⟨"a", [0, 1, 2, 3]⟩],
      #[⟨none, 0, .call (.direct 2) [.global 0]⟩, ⟨none, 0, .call (.direct 0) [.global 0]⟩,
        ⟨none, 0, .call (.direct 2) []⟩, ⟨none, 0, .ret none⟩]⟩,
    ⟨"take", ["m", "n"], #[⟨"a", [0, 1]⟩],
      #[⟨none, 0, .call (.direct 3) [.arg 0, .arg 1]⟩, ⟨none, 0, .ret none⟩]⟩,
    ⟨"rw_lock", ["m"], #[], #[]⟩,
    ⟨"rw_unlock", ["m"], #[], #[]⟩]

/-- The calls of the first function and the one without a lock go to the routine. -/
theorem courier_bypassed : courier.fault? = none ∧ Config.default.interprocedural = true ∧
    ∃ api, LockApi.of? .default = some api ∧ courier.Wraps api .acquire 2 3 ∧
      ∃ report report', courier.report? .names .default api = some report ∧
        (courier.bypass 2 3 fun caller inst => caller == 0 || inst == 2).report? .names .default
          api = some report' ∧
        report'.functions.map FunctionStatistic.flat =
          report.functions.map FunctionStatistic.flat ∧
        ∀ d, d ∈ report'.diagnostics ↔ d ∈ report.diagnostics := by
  have hfault : courier.fault? = none := by decide +kernel
  have hapi : ((LockApi.of? .default).map fun api =>
      (api.classify "take", api.classify "rw_lock", api.lockArgIndex)) =
        some (none, some .acquire, 0) := by decide +kernel
  obtain ⟨api, hapi, hfacts⟩ := Option.map_eq_some_iff.mp hapi
  simp only [Prod.mk.injEq] at hfacts
  obtain ⟨htake, hlock, hindex⟩ := hfacts
  have hwraps : courier.Wraps api .acquire 2 3 :=
    ⟨⟨_, rfl, htake, ⟨"a", 0, 1, none, rfl, rfl, rfl⟩, hindex ▸ Nat.zero_lt_two⟩,
      ⟨_, rfl, rfl, hlock⟩⟩
  exact ⟨hfault, rfl, api, hapi, hwraps,
    Program.wrapper_transparent hfault rfl hwraps _⟩

end LockUsage
