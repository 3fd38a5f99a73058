import LockUsage.Proofs.CallGraphs

/-! The order in which an analysis summarizes functions. Each function is summarized once, and after
the functions that it calls unless they call it back. Where no cycle of calls can be reached, what
is found is what a plain recursion over the callees finds. -/

namespace LockUsage

namespace Log

variable {log later : Log} {d d' : Diagnostic}

theorem mem_report : d ∈ (log.report d').diagnostics ↔ d ∈ log.diagnostics ∨ d = d' := by
  by_cases hknown : log.isKnown d' = true
  · have hd' : d' ∈ log.diagnostics := of_decide_eq_true hknown
    rw [report, if_pos hknown]
    exact ⟨.inl, fun h => h.elim id fun he => he ▸ hd'⟩
  · rw [report, if_neg hknown, List.mem_append, List.mem_singleton]

theorem mem_append :
    d ∈ (log.append later).diagnostics ↔ d ∈ log.diagnostics ∨ d ∈ later.diagnostics := by
  have hfold (ds : List Diagnostic) (log : Log) :
      d ∈ (ds.foldl report log).diagnostics ↔ d ∈ log.diagnostics ∨ d ∈ ds := by
    induction ds generalizing log with
    | nil => simp
    | cons d' ds ih => rw [List.foldl_cons, ih, mem_report, List.mem_cons, or_assoc]
  exact hfold later.diagnostics log

end Log

/-- The functions that are summarized, in order, with what is found in each. -/
abbrev Trace := List (FuncId × Summary × Log)

namespace Trace

def funcs (trace : Trace) : List FuncId := trace.map (·.1)

def summaries (trace : Trace) : Summaries := trace.map fun entry => (entry.1, entry.2.1)

def log (trace : Trace) : Log := trace.foldl (fun log entry => log.append entry.2.2) .empty

/-- The state of an analysis after the trace. -/
def state (trace : Trace) : AnalysisState := ⟨trace.summaries, trace.log⟩

variable {trace : Trace} {func : FuncId}

theorem state_append_singleton (found : Summary × Log) : state (trace ++ [(func, found)]) =
    ⟨trace.state.summaries ++ [(func, found.1)], trace.state.log.append found.2⟩ := by
  simp [state, summaries, log]

theorem funcs_append_singleton (entry : FuncId × Summary × Log) :
    funcs (trace ++ [entry]) = trace.funcs ++ [entry.1] := List.map_append

theorem mem_funcs : func ∈ trace.funcs ↔ ∃ found, (func, found) ∈ trace := by
  simp [funcs]

theorem isSummarized_state : trace.state.isSummarized func = true ↔ func ∈ trace.funcs := by
  simp [AnalysisState.isSummarized, state, summaries, funcs, List.lookup_isSome_iff]

theorem lookup_summaries (h : trace.funcs.Nodup) {found : Summary × Log}
    (hmem : (func, found) ∈ trace) : trace.summaries.lookup func = some found.1 := by
  have hkeys : (trace.summaries.map (·.1)).Nodup := by
    rw [summaries, List.map_map]
    exact h
  exact lookup_of_mem hkeys (List.mem_map.mpr ⟨_, hmem, rfl⟩)

theorem lookup_summaries_eq_none (h : func ∉ trace.funcs) :
    trace.summaries.lookup func = none := by
  rw [← Option.not_isSome_iff_eq_none]
  exact fun hs => h (isSummarized_state.mp hs)

theorem mem_log {d : Diagnostic} :
    d ∈ trace.log.diagnostics ↔ ∃ f found, (f, found) ∈ trace ∧ d ∈ found.2.diagnostics := by
  induction trace using List.reverseRecOn with
  | nil => simp [log, Log.empty]
  | append_singleton trace entry ih =>
    rw [log] at ih
    rw [log, List.foldl_append, List.foldl_cons, List.foldl_nil, Log.mem_append, ih]
    constructor
    · rintro (⟨f, found, hmem, hd⟩ | hd)
      · exact ⟨f, found, List.mem_append_left _ hmem, hd⟩
      · exact ⟨entry.1, entry.2, List.mem_append_right _ List.mem_cons_self, hd⟩
    · rintro ⟨f, found, hmem, hd⟩
      rcases List.mem_append.mp hmem with hmem | hmem
      · exact .inl ⟨f, found, hmem, hd⟩
      · exact .inr (List.mem_singleton.mp hmem ▸ hd)

end Trace

/-- Functions in progress, each of which leads to another one that is not. -/
structure CallStack.LeadsTo (p : Program) (stack : CallStack) (func : FuncId) : Prop where
  nodup : stack.frames.Nodup
  notMem : func ∉ stack.frames
  defined : ∀ f ∈ stack.frames, f ∈ p.defined
  leads : ∀ f ∈ stack.frames, Relation.ReflTransGen p.Calls f func

namespace CallStack.LeadsTo

variable {p : Program} {stack : CallStack} {func callee : FuncId}

theorem empty (p : Program) (func : FuncId) : CallStack.empty.LeadsTo p func :=
  ⟨List.nodup_nil, List.not_mem_nil, fun _ h => (by cases h), fun _ h => (by cases h)⟩

theorem push (h : stack.LeadsTo p func) (hcall : p.Calls func callee)
    (hnot : callee ∉ (stack.push func).frames) : (stack.push func).LeadsTo p callee where
  nodup := List.nodup_cons.mpr ⟨h.notMem, h.nodup⟩
  notMem := hnot
  defined := List.forall_mem_cons.mpr ⟨hcall.mem_defined, h.defined⟩
  leads := List.forall_mem_cons.mpr ⟨.single hcall, fun f hf => (h.leads f hf).tail hcall⟩

theorem length_lt (h : stack.LeadsTo p func) (hdef : func ∈ p.defined) :
    stack.frames.length < p.functions.size := by
  have hnodup : (func :: stack.frames).Nodup := List.nodup_cons.mpr ⟨h.notMem, h.nodup⟩
  have hsub : func :: stack.frames ⊆ List.range p.functions.size :=
    List.cons_subset.mpr ⟨(List.mem_filter.mp hdef).1,
      fun f hf => (List.mem_filter.mp (h.defined f hf)).1⟩
  have hle := (hnodup.subperm hsub).length_le
  rw [List.length_cons, List.length_range] at hle
  exact hle

end CallStack.LeadsTo

namespace Program

variable {p : Program} {f g : FuncId}

/-- Some chain of calls, perhaps none, leads from a function to a cycle of calls. -/
def LeadsToCycle (p : Program) (f : FuncId) : Prop :=
  ∃ g, Relation.ReflTransGen p.Calls f g ∧ Relation.TransGen p.Calls g g

theorem Calls.onCommonCycle (h : p.Calls f g) (hback : Relation.ReflTransGen p.Calls g f) :
    p.OnCommonCycle f g := by
  refine ⟨.single h, ?_⟩
  rcases Relation.reflTransGen_iff_eq_or_transGen.mp hback with rfl | hback
  · exact .single h
  · exact hback

theorem OnCommonCycle.leadsToCycle (h : p.OnCommonCycle f g) : p.LeadsToCycle f :=
  ⟨f, .refl, h.1.trans h.2⟩

theorem LeadsToCycle.of_calls (h : p.LeadsToCycle g) (hcall : p.Calls f g) : p.LeadsToCycle f := by
  obtain ⟨c, hchain, hcycle⟩ := h
  exact ⟨c, .head hcall hchain, hcycle⟩

end Program

namespace Analysis

variable {A : Analysis} {trace : Trace} {f g func : FuncId}

/-- The callees of a function that have a body. -/
def bodies (A : Analysis) (func : FuncId) : List FuncId :=
  (A.graph.callees func).filter (· ∈ A.program.defined)

theorem mem_bodies (hgraph : CallGraph.of? A.program = some A.graph) :
    g ∈ A.bodies func ↔ A.program.Calls func g ∧ g ∈ A.program.defined := by
  rw [bodies, List.mem_filter, CallGraph.mem_callees_iff hgraph, decide_eq_true_iff]

theorem pairwise_bodies (A : Analysis) (func : FuncId) : (A.bodies func).Pairwise (· < ·) :=
  (A.graph.pairwise_callees func).filter _

/-- What a plain recursion finds in a function: it goes into all callees with a body first, to the
given depth, and remembers nothing. -/
def bottomUp? (A : Analysis) : Nat → FuncId → Option (Summary × Log)
  | 0, _ => none
  | depth + 1, func => do
    let summaries ← (A.bodies func).mapM fun callee =>
      (A.bottomUp? depth callee).map fun found => (callee, found.1)
    A.summarize? summaries func

section Sites

variable {summaries : Summaries} {caller : Func} {site : CallSite}

theorem sitesOf_primitive {primitive : LockSite}
    (h : A.api.primitiveSite? A.program caller site = some primitive) :
    A.sitesOf summaries caller site = [primitive] := by
  rw [sitesOf, h]

theorem sitesOf_direct (h : A.api.primitiveSite? A.program caller site = none)
    (hcallee : site.callee = .direct g) : A.sitesOf summaries caller site =
      if A.config.interprocedural then
        ((summaries.lookup g).map (wrapperSites caller site)).getD []
      else [] := by
  rw [sitesOf, h, hcallee]
  cases A.config.interprocedural with
  | false => rfl
  | true => cases hl : summaries.lookup g <;> simp [hl]

theorem sitesOf_indirect (h : A.api.primitiveSite? A.program caller site = none) {target : Operand}
    (hcallee : site.callee = .indirect target) : A.sitesOf summaries caller site = [] := by
  rw [sitesOf, h, hcallee]
  cases A.config.interprocedural <;> rfl

end Sites

/-- A summary depends on the callees' summaries only. -/
theorem summarize?_congr {summaries summaries' : Summaries}
    (h : ∀ g, A.program.Calls func g → summaries.lookup g = summaries'.lookup g) :
    A.summarize? summaries func = A.summarize? summaries' func := by
  simp only [summarize?, Option.bind_eq_bind]
  refine Option.bind_congr fun f hf => Option.bind_congr fun b _ =>
    Option.bind_congr fun calls hcalls => ?_
  have hsites (site : CallSite) (hsite : site ∈ calls) :
      A.sitesOf summaries f site = A.sitesOf summaries' f site := by
    cases hprimitive : A.api.primitiveSite? A.program f site with
    | some => rw [sitesOf_primitive hprimitive, sitesOf_primitive hprimitive]
    | none =>
      cases hcallee : site.callee with
      | direct g =>
        rw [sitesOf_direct hprimitive hcallee, sitesOf_direct hprimitive hcallee,
          h g ⟨f, calls, hf, hcalls, site, hsite, hcallee⟩]
      | indirect =>
        rw [sitesOf_indirect hprimitive hcallee, sitesOf_indirect hprimitive hcallee]
  rw [List.flatMap_congr hsites]

/-- The trace of summaries made one after another, each of a new function and with all callees
summarized from which there is no way back. -/
inductive Summarizes (A : Analysis) : Trace → Prop
  | start : Summarizes A []
  | next {trace func found} : Summarizes A trace → func ∈ A.program.defined →
      func ∉ trace.funcs → A.summarize? trace.summaries func = some found →
      (∀ g ∈ A.program.defined, A.program.Calls func g →
        g ∈ trace.funcs ∨ Relation.ReflTransGen A.program.Calls g func) →
      Summarizes A (trace ++ [(func, found)])

namespace Summarizes

theorem nodup (h : A.Summarizes trace) : trace.funcs.Nodup := by
  induction h with
  | start => exact List.nodup_nil
  | next _ _ hnew _ _ ih =>
    rw [Trace.funcs, List.map_append]
    exact ih.append (List.nodup_singleton _) (List.disjoint_singleton.mpr hnew)

theorem mem_defined (h : A.Summarizes trace) (hf : f ∈ trace.funcs) : f ∈ A.program.defined := by
  induction h with
  | start => cases hf
  | next _ hdef _ _ _ ih =>
    rw [Trace.funcs, List.map_append, List.mem_append] at hf
    exact hf.elim ih fun h => List.mem_singleton.mp h ▸ hdef

theorem inRange (hp : A.program.fault? = none) (h : A.Summarizes trace) :
    Summaries.InRange A.program trace.summaries := by
  induction h with
  | start => exact fun _ h => by cases h
  | next _ hdef _ hfound _ ih =>
    obtain ⟨f, hf, -⟩ := Program.exists_of_mem_defined hdef
    obtain ⟨found', hfound', hrange⟩ := exists_summarize hp ih hf
    obtain rfl := Option.some.inj (hfound.symm.trans hfound')
    rw [Trace.summaries, List.map_append]
    exact List.forall_mem_append.mpr ⟨ih, List.forall_mem_singleton.mpr hrange⟩

/-- What was done for one function of the trace. -/
theorem split {before after : Trace} {found : Summary × Log}
    (h : A.Summarizes (before ++ (func, found) :: after)) :
    A.Summarizes before ∧ A.summarize? before.summaries func = some found ∧
      ∀ g ∈ A.program.defined, A.program.Calls func g →
        g ∈ before.funcs ∨ Relation.ReflTransGen A.program.Calls g func := by
  generalize htrace : before ++ (func, found) :: after = trace at h
  induction h generalizing after with
  | start => simp at htrace
  | next h hdef hnew hfound hcallees ih =>
    rcases after.eq_nil_or_concat with rfl | ⟨after, entry, rfl⟩
    · obtain ⟨rfl, hentry⟩ := List.append_inj' htrace rfl
      cases hentry
      exact ⟨h, hfound, hcallees⟩
    · rw [List.concat_eq_append, ← List.cons_append, ← List.append_assoc] at htrace
      exact ih (List.append_inj' htrace rfl).1

end Summarizes

/-- What visits may do to a trace while some functions are in progress: they summarize others. -/
structure Extends (A : Analysis) (frames : List FuncId) (trace trace' : Trace) : Prop where
  summarizes : A.Summarizes trace'
  keeps : trace.funcs ⊆ trace'.funcs
  spares : ∀ f ∈ frames, f ∈ trace'.funcs → f ∈ trace.funcs

theorem Extends.refl (frames : List FuncId) (h : A.Summarizes trace) :
    A.Extends frames trace trace := ⟨h, List.Subset.refl _, fun _ _ hf => hf⟩

theorem Extends.trans {frames : List FuncId} {trace' trace'' : Trace}
    (h : A.Extends frames trace trace') (h' : A.Extends frames trace' trace'') :
    A.Extends frames trace trace'' :=
  ⟨h'.summarizes, List.Subset.trans h.keeps h'.keeps,
    fun f hf hmem => h.spares f hf (h'.spares f hf hmem)⟩

/-- Visits of some functions one after another summarize each, except those in progress. -/
theorem exists_foldlM_trace (frames : List FuncId) {funcs : List FuncId}
    {visit : AnalysisState → FuncId → Option AnalysisState}
    (hvisit : ∀ trace, A.Summarizes trace → ∀ f ∈ funcs, ∃ trace',
      visit trace.state f = some trace'.state ∧ A.Extends frames trace trace' ∧
        (f ∈ A.program.defined → f ∈ trace'.funcs ∨ f ∈ frames)) (h : A.Summarizes trace) :
    ∃ trace', funcs.foldlM visit trace.state = some trace'.state ∧ A.Extends frames trace trace' ∧
      ∀ f ∈ funcs, f ∈ A.program.defined → f ∈ trace'.funcs ∨ f ∈ frames := by
  induction funcs generalizing trace with
  | nil => exact ⟨trace, rfl, .refl frames h, fun _ hf => by cases hf⟩
  | cons f funcs ih =>
    obtain ⟨trace₁, hrun₁, hext₁, hdone₁⟩ := hvisit trace h f List.mem_cons_self
    obtain ⟨trace₂, hrun₂, hext₂, hdone₂⟩ :=
      ih (fun trace ht f hf => hvisit trace ht f (List.mem_cons_of_mem _ hf)) hext₁.summarizes
    refine ⟨trace₂, by simp [List.foldlM_cons, hrun₁, hrun₂], hext₁.trans hext₂, ?_⟩
    exact List.forall_mem_cons.mpr
      ⟨fun hdef => (hdone₁ hdef).imp_left fun hmem => hext₂.keeps hmem, hdone₂⟩

section Visits

variable (hp : A.program.fault? = none) (hgraph : CallGraph.of? A.program = some A.graph)
include hp hgraph

theorem exists_visitCallee_trace {fuel : Nat} {stack : CallStack} {callee : FuncId}
    (h : A.Summarizes trace) (hcall : A.program.Calls func callee)
    (hstack : stack.LeadsTo A.program func)
    (hvisit : callee ∈ A.program.defined → (stack.push func).LeadsTo A.program callee →
      ∃ trace', A.visit fuel (stack.push func) trace.state callee = some trace'.state ∧
        A.Extends (func :: stack.frames) trace trace' ∧ callee ∈ trace'.funcs) :
    ∃ trace', A.visitCallee? fuel (stack.push func) trace.state callee = some trace'.state ∧
      A.Extends (func :: stack.frames) trace trace' ∧
      (callee ∈ A.program.defined → callee ∈ trace'.funcs ∨ callee ∈ func :: stack.frames) := by
  obtain ⟨e, he, -, rfl⟩ := (CallGraph.exists_edge_iff hgraph).mpr hcall
  obtain ⟨hsize, hrange⟩ := CallGraph.inRange_of? hp hgraph
  have hf := Array.getElem?_eq_getElem (hsize ▸ (hrange e he).2)
  simp only [visitCallee?, hf, Option.bind_eq_bind, Option.bind_some]
  split_ifs with hdescend
  · simp only [CallStack.shouldDescend, CallStack.contains, Bool.and_eq_true, Bool.not_eq_true',
      List.contains_eq_mem, decide_eq_false_iff_not] at hdescend
    have hdef := Program.mem_defined.mpr ⟨_, hf, hdescend.1⟩
    obtain ⟨trace', hrun, hext, hmem⟩ := hvisit hdef (hstack.push hcall hdescend.2.2)
    exact ⟨trace', hrun, hext, fun _ => .inl hmem⟩
  · refine ⟨trace, rfl, .refl _ h, fun hdef => ?_⟩
    obtain ⟨f, hf', hbody⟩ := Program.mem_defined.mp hdef
    obtain rfl := Option.some.inj (hf'.symm.trans hf)
    by_contra hnot
    rw [not_or, ← Trace.isSummarized_state] at hnot
    refine hdescend ?_
    simp [CallStack.shouldDescend, CallStack.contains, CallStack.push, hbody, hnot]

/-- A visit summarizes the function if the fuel is enough for all that are not in progress. Those in
progress lead to the function, so a callee among them is on a cycle with it. -/
theorem exists_visit_trace (fuel : Nat) {stack : CallStack} (h : A.Summarizes trace)
    (hdef : func ∈ A.program.defined) (hstack : stack.LeadsTo A.program func)
    (hfuel : A.program.functions.size ≤ fuel + stack.frames.length) :
    ∃ trace', A.visit fuel stack trace.state func = some trace'.state ∧
      A.Extends stack.frames trace trace' ∧ func ∈ trace'.funcs := by
  induction fuel generalizing func stack trace with
  | zero =>
    have hlt := hstack.length_lt hdef
    omega
  | succ fuel ih =>
    rw [visit_succ]
    split_ifs with hsum
    · exact ⟨trace, rfl, .refl _ h, Trace.isSummarized_state.mp hsum⟩
    · rw [Trace.isSummarized_state] at hsum
      obtain ⟨trace₁, hrun, hext, hdone⟩ := exists_foldlM_trace (func :: stack.frames)
        (fun trace ht callee hcallee => exists_visitCallee_trace hp hgraph ht
          ((CallGraph.mem_callees_iff hgraph).mp hcallee) hstack
          fun hdef hstack => ih ht hdef hstack (by
            simp only [CallStack.push, List.length_cons]
            omega)) h
      have hnew : func ∉ trace₁.funcs := fun hmem => hsum (hext.spares func List.mem_cons_self hmem)
      obtain ⟨f, hf, -⟩ := Program.exists_of_mem_defined hdef
      obtain ⟨found, hfound, -⟩ := exists_summarize hp (hext.summarizes.inRange hp) hf
      refine ⟨trace₁ ++ [(func, found)], ?_, ⟨?_, ?_, ?_⟩, ?_⟩
      · rw [hrun, Option.bind_some, Trace.state_append_singleton]
        simp [Trace.state, hfound]
      · refine .next hext.summarizes hdef hnew hfound fun g hg hcall => ?_
        refine (hdone g ((CallGraph.mem_callees_iff hgraph).mpr hcall) hg).imp_right fun hmem => ?_
        rcases List.mem_cons.mp hmem with rfl | hmem
        · exact .refl
        · exact hstack.leads g hmem
      · rw [Trace.funcs_append_singleton]
        exact List.subset_append_of_subset_left _ hext.keeps
      · intro g hg hmem
        rw [Trace.funcs_append_singleton, List.mem_append, List.mem_singleton] at hmem
        rcases hmem with hmem | rfl
        · exact hext.spares g (List.mem_cons_of_mem _ hg) hmem
        · exact absurd hg hstack.notMem
      · simp [Trace.funcs_append_singleton]

/-- Functions are analysed one after another without failure, whichever come first. -/
theorem exists_starts_trace {starts : List FuncId} (hstarts : starts ⊆ A.program.defined) :
    ∃ trace, starts.foldlM (A.visit A.program.functions.size .empty) .empty = some trace.state ∧
      A.Summarizes trace ∧ starts ⊆ trace.funcs := by
  obtain ⟨trace, hrun, hext, hdone⟩ := exists_foldlM_trace []
    (fun trace ht f hf => by
      obtain ⟨trace', hrun, hext, hmem⟩ := exists_visit_trace hp hgraph A.program.functions.size ht
        (hstarts hf) (.empty A.program f) (by simp)
      exact ⟨trace', hrun, hext, fun _ => .inl hmem⟩) (.start (A := A))
  refine ⟨trace, hrun, hext.summarizes, fun f hf => ?_⟩
  exact (hdone f hf (hstarts hf)).resolve_right List.not_mem_nil

/-- The report shows what is found in each function with a body, in order. -/
theorem exists_report_trace : ∃ trace, A.visitAll = some trace.state ∧ A.Summarizes trace ∧
    trace.funcs.Perm A.program.defined ∧ ∃ report, A.report? = some report ∧
      report.functions = A.program.defined.filterMap
        (fun f => (trace.summaries.lookup f).map (·.statistic)) ∧
      report.diagnostics = trace.log.diagnostics := by
  obtain ⟨trace, hrun, ht, hall⟩ := exists_starts_trace hp hgraph (List.Subset.refl _)
  have hperm : trace.funcs.Perm A.program.defined :=
    (List.perm_ext_iff_of_nodup ht.nodup A.program.nodup_defined).mpr fun f =>
      ⟨ht.mem_defined, fun hf => hall hf⟩
  refine ⟨trace, hrun, ht, hperm, ?_⟩
  have hvisit : A.visitAll = some trace.state := hrun
  exact ⟨_, by simp only [report?, hvisit, Option.bind_eq_bind, Option.bind_some]; rfl, rfl, rfl⟩

end Visits

/-- The summaries of the callees with a body are as good as all those of a trace. -/
theorem Summarizes.summarize?_callees {before : Trace} (h : A.Summarizes before)
    {summaries : Summaries}
    (hsummaries : ∀ entry ∈ summaries, before.summaries.lookup entry.1 = some entry.2)
    (hkeys : ∀ g ∈ A.program.defined, A.program.Calls func g → g ∈ summaries.map (·.1)) :
    A.summarize? summaries func = A.summarize? before.summaries func := by
  refine summarize?_congr fun g hcall => ?_
  cases hl : summaries.lookup g with
  | some summary =>
    obtain ⟨_, _, hsplit, -⟩ := List.lookup_eq_some_iff.mp hl
    exact (hsummaries (g, summary) (by simp [hsplit])).symm
  | none =>
    refine (Trace.lookup_summaries_eq_none fun hmem => ?_).symm
    obtain ⟨entry, hentry, rfl⟩ := List.mem_map.mp (hkeys g (h.mem_defined hmem) hcall)
    have hne := List.lookup_eq_none_iff.mp hl entry hentry
    simp at hne

section Recursion

variable (hgraph : CallGraph.of? A.program = some A.graph)
include hgraph

/-- A function from which no cycle of calls can be reached has the summary of the recursion. -/
theorem Summarizes.bottomUp?_eq {before after : Trace} {found : Summary × Log}
    (h : A.Summarizes (before ++ (func, found) :: after))
    (hcycle : ¬ A.program.LeadsToCycle func) {depth : Nat} (hdepth : before.length < depth) :
    A.bottomUp? depth func = some found := by
  induction hn : before.length using Nat.strong_induction_on
    generalizing before after func found depth with
  | _ n ih =>
    obtain ⟨depth, rfl⟩ : ∃ d, depth = d + 1 := ⟨depth - 1, by omega⟩
    obtain ⟨hbefore, hfound, hcallees⟩ := h.split
    have hrec : ∀ g ∈ A.bodies func, ∃ entry,
        ((A.bottomUp? depth g).map fun found => (g, found.1)) = some entry ∧
          before.summaries.lookup entry.1 = some entry.2 := by
      intro g hg
      obtain ⟨hcall, hdef⟩ := (mem_bodies hgraph).mp hg
      have hmem : g ∈ before.funcs := (hcallees g hdef hcall).resolve_right
        fun hback => hcycle (hcall.onCommonCycle hback).leadsToCycle
      obtain ⟨found', hentry⟩ := Trace.mem_funcs.mp hmem
      obtain ⟨before', between, rfl⟩ := List.append_of_mem hentry
      rw [List.length_append, List.length_cons] at hn hdepth
      rw [List.append_assoc, List.cons_append] at h
      have hg := ih before'.length (by omega) h (fun hc => hcycle (hc.of_calls hcall))
        (Nat.lt_of_lt_of_le (by omega) (Nat.le_of_lt_succ hdepth)) rfl
      exact ⟨(g, found'.1), by rw [hg, Option.map_some],
        Trace.lookup_summaries hbefore.nodup hentry⟩
    obtain ⟨summaries, hsummaries, hlookup⟩ := exists_mapM hrec
    have hkeys : ∀ g ∈ A.program.defined, A.program.Calls func g → g ∈ summaries.map (·.1) := by
      intro g hdef hcall
      obtain ⟨entry, hentry, heq⟩ :=
        exists_result_of_mapM hsummaries ((mem_bodies hgraph).mpr ⟨hcall, hdef⟩)
      obtain ⟨_, -, rfl⟩ := Option.map_eq_some_iff.mp heq
      exact List.mem_map_of_mem hentry
    rw [bottomUp?, Option.bind_eq_bind, hsummaries, Option.bind_some,
      hbefore.summarize?_callees hlookup hkeys, hfound]

end Recursion

/-- Each function of a trace was summarized with the summaries before it, and all callees with a
body are among these but those on a cycle with it. Where no cycle of calls can be reached, it has
the summary and the log of a plain recursion over the callees. -/
structure IsBottomUp (A : Analysis) (trace : Trace) : Prop where
  summarized : ∀ (before : Trace) func found after, trace = before ++ (func, found) :: after →
    A.summarize? before.summaries func = some found
  callees_first : ∀ (before : Trace) func found after, trace = before ++ (func, found) :: after →
    ∀ g ∈ A.program.defined, A.program.Calls func g → ¬ A.program.OnCommonCycle func g →
      g ∈ before.funcs
  recursive : ∀ func found, (func, found) ∈ trace → ¬ A.program.LeadsToCycle func →
    ∀ depth, A.program.functions.size ≤ depth → A.bottomUp? depth func = some found

theorem Summarizes.isBottomUp (hgraph : CallGraph.of? A.program = some A.graph)
    (h : A.Summarizes trace) : A.IsBottomUp trace where
  summarized before func found after heq := (heq ▸ h).split.2.1
  callees_first before func found after heq g hdef hcall hcycle :=
    ((heq ▸ h).split.2.2 g hdef hcall).resolve_right fun hback =>
      hcycle (hcall.onCommonCycle hback)
  recursive func found hmem hcycle depth hdepth := by
    have hlen : trace.length ≤ A.program.functions.size := by
      have hsub : trace.funcs ⊆ List.range A.program.functions.size :=
        fun f hf => (List.mem_filter.mp (h.mem_defined hf)).1
      simpa [Trace.funcs] using (h.nodup.subperm hsub).length_le
    obtain ⟨before, after, rfl⟩ := List.append_of_mem hmem
    rw [List.length_append, List.length_cons] at hlen
    exact h.bottomUp?_eq hgraph hcycle (by omega)

end Analysis

/-- An analysis goes bottom-up: each function with a body is summarized once, after those that it
calls unless they are on a cycle with it, and as in a plain recursion if there is no cycle below it.
That holds whichever functions it starts from and in whatever order. -/
theorem Program.summarized_bottom_up {p : Program} (hp : p.fault? = none) (source : AliasSource)
    (config : Config) (api : LockApi) :
    ∃ graph, CallGraph.of? p = some graph ∧
      (∃ trace : Trace, Analysis.visitAll ⟨p, source, config, api, graph⟩ = some trace.state ∧
        trace.funcs.Perm p.defined ∧
        Analysis.IsBottomUp ⟨p, source, config, api, graph⟩ trace ∧
        ∃ report, p.report? source config api = some report ∧
          report.functions =
            p.defined.filterMap (fun f => (trace.summaries.lookup f).map (·.statistic)) ∧
          report.diagnostics = trace.log.diagnostics) ∧
      ∀ starts ⊆ p.defined, ∃ trace : Trace,
        starts.foldlM (Analysis.visit ⟨p, source, config, api, graph⟩ p.functions.size .empty)
          .empty = some trace.state ∧
        trace.funcs.Nodup ∧ starts ⊆ trace.funcs ∧ trace.funcs ⊆ p.defined ∧
        Analysis.IsBottomUp ⟨p, source, config, api, graph⟩ trace := by
  obtain ⟨graph, hgraph, -⟩ := CallGraph.exists_of? hp
  have hstarts (starts : List FuncId) (h : starts ⊆ p.defined) :=
    Analysis.exists_starts_trace (A := ⟨p, source, config, api, graph⟩) hp hgraph h
  refine ⟨graph, hgraph, ?_, fun starts h => ?_⟩
  · obtain ⟨trace, hrun, ht, hperm, report, hreport, hfunctions, hdiagnostics⟩ :=
      Analysis.exists_report_trace (A := ⟨p, source, config, api, graph⟩) hp hgraph
    refine ⟨trace, hrun, hperm, ht.isBottomUp hgraph, report, ?_, hfunctions, hdiagnostics⟩
    simp only [report?, hgraph, Option.bind_eq_bind, Option.bind_some, hreport]
  · obtain ⟨trace, hrun, ht, hmem⟩ := hstarts starts h
    exact ⟨trace, hrun, ht.nodup, hmem, fun f => ht.mem_defined, ht.isBottomUp hgraph⟩

/-- Two functions that call each other, one of which also calls a wrapper of a lock routine, and a
caller of both that comes first. -/
def relay : Program where
  name := "m"
  globals := #["l"]
  functions := #[
    ⟨"main", [], #[⟨"a", [0, 1, 2]⟩],
      #[⟨none, 0, .call (.direct 2) []⟩, ⟨none, 0, .call (.direct 1) []⟩, ⟨none, 0, .ret none⟩]⟩,
    ⟨"ping", [], #[⟨"a", [0, 1]⟩], #[⟨none, 0, .call (.direct 2) []⟩, ⟨none, 0, .ret none⟩]⟩,
    ⟨"pong", [], #[⟨"a", [0, 1, 2]⟩],
      #[⟨none, 0, .call (.direct 3) [.global 0]⟩, ⟨none, 0, .call (.direct 1) []⟩,
        ⟨none, 0, .ret none⟩]⟩,
    ⟨"take", ["m"], #[⟨"a", [0, 1]⟩],
      #[⟨none, 0, .call (.direct 4) [.arg 0]⟩, ⟨none, 0, .ret none⟩]⟩,
    ⟨"rw_lock", ["m"], #[], #[]⟩]

theorem relay_bottom_up : relay.fault? = none ∧ [2, 0] ⊆ relay.defined ∧
    ∃ api, LockApi.of? .default = some api ∧ ∃ graph, CallGraph.of? relay = some graph ∧
      (∃ trace : Trace, Analysis.visitAll ⟨relay, .names, .default, api, graph⟩ = some trace.state ∧
        trace.funcs.Perm [0, 1, 2, 3] ∧
        Analysis.IsBottomUp ⟨relay, .names, .default, api, graph⟩ trace) ∧
      ∃ trace : Trace, [2, 0].foldlM
          (Analysis.visit ⟨relay, .names, .default, api, graph⟩ relay.functions.size .empty)
          .empty = some trace.state ∧
        2 ∈ trace.funcs ∧ Analysis.IsBottomUp ⟨relay, .names, .default, api, graph⟩ trace := by
  have hfault : relay.fault? = none := by decide +kernel
  have hstarts : [2, 0] ⊆ relay.defined := by decide +kernel
  have hdefined : relay.defined = [0, 1, 2, 3] := by decide +kernel
  have hapi : (LockApi.of? .default).isSome := by decide +kernel
  obtain ⟨api, hapi⟩ := Option.isSome_iff_exists.mp hapi
  obtain ⟨graph, hgraph, ⟨trace, hrun, hperm, hup, -⟩, hall⟩ :=
    Program.summarized_bottom_up hfault .names .default api
  obtain ⟨trace', hrun', -, hmem, -, hup'⟩ := hall [2, 0] hstarts
  exact ⟨hfault, hstarts, api, hapi, graph, hgraph, ⟨trace, hrun, hdefined ▸ hperm, hup⟩,
    trace', hrun', hmem List.mem_cons_self, hup'⟩

end LockUsage
