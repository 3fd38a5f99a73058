import LockUsage.Analysis.Basic
import LockUsage.Proofs.Problems

/-! On a program that passes the check, no look-up of the analysis fails. Ids come from the program,
where the check has seen them, or from summaries. All locks in summaries are values of the functions
that they were found in, so what a callee's lock stands for in a caller is a value of the caller:
what an argument derives from, or a global. -/

namespace LockUsage

variable {p : Program} {func : FuncId} {f : Func}

/-- A call that the function has. -/
def CallSite.In (f : Func) (site : CallSite) : Prop :=
  ∃ inst, f.insts[site.inst]? = some inst ∧ inst.kind = .call site.callee site.args

namespace CallSite.In

variable {site : CallSite}

theorem inst_lt (h : site.In f) : site.inst < f.insts.size := by
  obtain ⟨inst, hinst, -⟩ := h
  exact (Array.getElem?_eq_some_iff.mp hinst).1

theorem exists_mem (h : site.In f) :
    ∃ inst ∈ f.insts.toList, inst.kind = .call site.callee site.args := by
  obtain ⟨inst, hinst, hkind⟩ := h
  exact ⟨inst, List.mem_of_getElem? (Array.getElem?_toList.trans hinst), hkind⟩

theorem callee_lt (h : site.In f) (hc : f.Checked p) {callee : FuncId}
    (hcallee : site.callee = .direct callee) : callee < p.functions.size := by
  obtain ⟨inst, hinst, hkind⟩ := h.exists_mem
  exact hc.callees inst hinst callee site.args (hcallee ▸ hkind)

/-- What an argument derives from is a value of the calling function. -/
theorem operandFault?_root (h : site.In f) (hc : f.Checked p) {o : Operand} (ho : o ∈ site.args) :
    f.operandFault? p (f.root o) = none := by
  obtain ⟨inst, hinst, hkind⟩ := h.exists_mem
  have hmem : o ∈ inst.kind.operands := by
    rw [hkind]
    cases site.callee with
    | direct => exact ho
    | indirect => exact List.mem_cons_of_mem _ ho
  exact hc.operandFault?_rootFrom (hc.operands inst hinst o hmem)

end CallSite.In

theorem Func.Checked.exists_callSites (hc : f.Checked p) :
    ∃ calls, f.callSites? = some calls ∧ ∀ site ∈ calls, site.In f := by
  have hcall : ∀ id ∈ f.listed, ∃ call, f.call? id = some call ∧ ∀ site ∈ call, site.In f := by
    intro id hid
    obtain ⟨block, hblock, hid⟩ := List.mem_flatMap.mp hid
    have hinst := Array.getElem?_eq_getElem (hc.wellIndexed.1 block hblock id hid)
    refine ⟨_, by rw [call?, hinst, Option.map_some], fun site hsite => ?_⟩
    split at hsite
    · next callee args hkind =>
      obtain rfl := Option.some.inj hsite
      exact ⟨_, hinst, hkind⟩
    · cases hsite
  obtain ⟨calls, hcalls, hin⟩ := exists_mapM hcall
  refine ⟨calls.filterMap id, by simp [callSites?, hcalls], fun site hsite => ?_⟩
  obtain ⟨call, hmem, hcall⟩ := List.mem_filterMap.mp hsite
  exact hin call hmem site hcall

theorem Program.exists_of_mem_defined (h : func ∈ p.defined) :
    ∃ f, p.functions[func]? = some f ∧ f.isDeclaration = false := by
  have hdef := (List.mem_filter.mp h).2
  cases hf : p.functions[func]? with
  | none => simp [hf] at hdef
  | some f => exact ⟨f, rfl, by simpa [hf] using hdef⟩

namespace CallGraph

theorem forall_mem_addCall {Q : FuncId → FuncId → Prop} {edges : List CallEdge}
    (h : ∀ e ∈ edges, Q e.caller e.callee) {caller callee : FuncId} (hq : Q caller callee)
    (site : InstId) : ∀ e ∈ addCall edges caller callee site, Q e.caller e.callee := by
  fun_induction addCall with
  | case1 => simpa using hq
  | case2 e rest heq =>
    rw [List.forall_mem_cons] at h ⊢
    exact h
  | case3 e rest hne ih =>
    rw [List.forall_mem_cons] at h ⊢
    exact ⟨h.1, ih h.2⟩

theorem mem_callees {g : CallGraph} {caller callee : FuncId} :
    callee ∈ g.callees caller ↔
      callee < g.size ∧ ∃ e ∈ g.edges, e.caller = caller ∧ e.callee = callee := by
  simp [callees, and_assoc]

theorem exists_directCalls {caller : FuncId} (hf : p.functions[caller]? = some f)
    (hc : f.Checked p) :
    ∃ calls, directCalls? p caller = some calls ∧ ∀ call ∈ calls, call.1 < p.functions.size := by
  obtain ⟨calls, hcalls, hin⟩ := hc.exists_callSites
  simp only [directCalls?, hf, hcalls, Option.bind_eq_bind, Option.bind_some]
  suffices h : _ from
    ⟨_, if_pos (List.all_eq_true.mpr fun call hcall => decide_eq_true (h call hcall)), h⟩
  intro call hcall
  obtain ⟨site, hsite, hcall⟩ := List.mem_filterMap.mp hcall
  split at hcall
  · next callee hcallee =>
    obtain rfl := Option.some.inj hcall
    exact (hin site hsite).callee_lt hc hcallee
  · cases hcall

/-- A graph all of whose edges are between functions. -/
def InRange (g : CallGraph) : Prop := ∀ e ∈ g.edges, e.caller < g.size ∧ e.callee < g.size

theorem exists_of? (hp : p.fault? = none) :
    ∃ graph, of? p = some graph ∧ graph.size = p.functions.size ∧ graph.InRange := by
  have hdirect : ∀ caller ∈ p.defined, ∃ calls,
      ((directCalls? p caller).map fun direct => direct.map fun call => (caller, call)) =
        some calls ∧
      ∀ call ∈ calls, call.1 < p.functions.size ∧ call.2.1 < p.functions.size := by
    intro caller hcaller
    obtain ⟨f, hf, -⟩ := Program.exists_of_mem_defined hcaller
    obtain ⟨direct, hdirect, hlt⟩ := exists_directCalls hf (Program.checked_of_fault? hp hf)
    refine ⟨_, by rw [hdirect, Option.map_some], fun call hcall => ?_⟩
    obtain ⟨call, hmem, rfl⟩ := List.mem_map.mp hcall
    exact ⟨(Array.getElem?_eq_some_iff.mp hf).1, hlt call hmem⟩
  obtain ⟨calls, hcalls, hlt⟩ := exists_mapM hdirect
  refine ⟨_, by rw [of?, hcalls]; rfl, rfl, ?_⟩
  refine List.foldlRecOn (motive := fun edges : List CallEdge =>
    ∀ e ∈ edges, e.caller < p.functions.size ∧ e.callee < p.functions.size) _ _
    (fun _ h => by cases h) ?_
  intro edges hedges call hcall
  obtain ⟨group, hgroup, hcall⟩ := List.mem_flatten.mp hcall
  exact forall_mem_addCall (Q := fun caller callee => caller < _ ∧ callee < _) hedges
    (hlt group hgroup call hcall) call.2.2

end CallGraph

namespace SiteMap

variable {m : SiteMap} {site : LockSite}

theorem InRange.push (h : m.InRange p func f) (hinst : site.inst < f.insts.size)
    (hlock : ScopedValue.InRange p ⟨func, site.lock⟩) : (m.push site).InRange p func f := by
  obtain ⟨entries⟩ := m
  simp only [InRange, SiteMap.push] at h ⊢
  induction entries with
  | nil => simp [SiteMap.insert, hinst, hlock]
  | cons entry rest ih =>
    rw [List.forall_mem_cons] at h
    rw [SiteMap.insert]
    split
    · refine List.forall_mem_cons.mpr ⟨⟨h.1.1, ?_⟩, h.2⟩
      exact List.forall_mem_append.mpr ⟨h.1.2, List.forall_mem_singleton.mpr hlock⟩
    · exact List.forall_mem_cons.mpr ⟨h.1, ih h.2⟩

theorem inRange_ofList {sites : List LockSite} (h : ∀ site ∈ sites,
    site.inst < f.insts.size ∧ ScopedValue.InRange p ⟨func, site.lock⟩) :
    (ofList sites).InRange p func f := by
  refine List.foldlRecOn sites _ (fun _ h => by cases h) fun m hm site hsite => ?_
  exact hm.push (h site hsite).1 (h site hsite).2

theorem InRange.of_mem_sites (h : m.InRange p func f) (hsite : site ∈ m.sites) :
    ScopedValue.InRange p ⟨func, site.lock⟩ := by
  obtain ⟨entry, hentry, hsite⟩ := List.mem_flatMap.mp hsite
  exact (h entry hentry).2 site hsite

end SiteMap

/-- All locks are values of the functions that they were found in. -/
def Summary.InRange (p : Program) (summary : Summary) : Prop := ∀ v ∈ summary.locks, v.InRange p

def Summaries.InRange (p : Program) (summaries : Summaries) : Prop :=
  ∀ entry ∈ summaries, entry.2.InRange p

theorem Summaries.InRange.of_lookup {summaries : Summaries}
    (h : Summaries.InRange p summaries) {summary : Summary}
    (hl : summaries.lookup func = some summary) : summary.InRange p := by
  obtain ⟨before, after, hs, -⟩ := List.lookup_eq_some_iff.mp hl
  exact h (func, summary) (by simp [hs])

/-- A global that one function knows is there for every other. -/
theorem ScopedValue.InRange.global {id : GlobalId} (h : ScopedValue.InRange p ⟨func, .global id⟩)
    (f : Func) : f.operandFault? p (.global id) = none := by
  obtain ⟨g, -, hid⟩ := h
  have hlt : id < p.globals.size := by simpa [Func.operandFault?] using hid
  simp [Func.operandFault?, hlt]

namespace Analysis

variable {A : Analysis} {summaries : Summaries}

/-- The value in the caller that a lock of the callee stands for. -/
def callerValue? (caller : Func) (site : CallSite) : Operand → Option Operand
  | .arg index => site.args[index]?.map caller.root
  | .global id => some (.global id)
  | .inst _ | .const _ => none

theorem wrapperSite?_eq (caller : Func) (site : CallSite) (lock : LockStatistic)
    (value : Operand) : wrapperSite? caller site lock value =
      (if lock.lockWrapper then some LockOp.acquire
        else if lock.unlockWrapper then some LockOp.release else none).bind fun op =>
      (callerValue? caller site value).bind fun o =>
        some ⟨site.inst, op, o, true, lock.callDepth + 1⟩ := by
  rw [wrapperSite?]
  split_ifs <;> cases value <;> rfl

theorem operandFault?_callerValue? (hc : f.Checked p) {site : CallSite} (hsite : site.In f)
    {v : ScopedValue} (hv : v.InRange p) {o : Operand} (ho : callerValue? f site v.value = some o) :
    f.operandFault? p o = none := by
  obtain ⟨g, value⟩ := v
  cases value with
  | arg index =>
    obtain ⟨arg, harg, rfl⟩ := Option.map_eq_some_iff.mp ho
    exact hsite.operandFault?_root hc (List.mem_of_getElem? harg)
  | global id =>
    obtain rfl := Option.some.inj ho
    exact hv.global f
  | inst | const => cases ho

theorem operandFault?_primitiveCall? (hc : f.Checked p) {site : CallSite} (hsite : site.In f)
    {api : LockApi} {op : LockOp} {lock : Operand}
    (h : api.primitiveCall? p site = some (op, lock)) : f.operandFault? p (f.root lock) = none := by
  simp only [LockApi.primitiveCall?] at h
  split at h
  · simp only [Option.bind_eq_bind, Option.bind_eq_some_iff] at h
    obtain ⟨callee, -, op, -, lock, hlock, heq⟩ := h
    cases heq
    exact hsite.operandFault?_root hc (List.mem_of_getElem? hlock)
  · cases h

/-- The lock operations of a call are on values of the caller. -/
theorem operandFault?_sitesOf (hc : f.Checked A.program)
    (hsum : Summaries.InRange A.program summaries) {site : CallSite} (hsite : site.In f)
    {s : LockSite} (hs : s ∈ A.sitesOf summaries f site) :
    s.inst = site.inst ∧ f.operandFault? A.program s.lock = none := by
  simp only [sitesOf] at hs
  split at hs
  · next primitive hprimitive =>
    obtain rfl := List.mem_singleton.mp hs
    obtain ⟨call, hcall, rfl⟩ := Option.map_eq_some_iff.mp hprimitive
    exact ⟨rfl, operandFault?_primitiveCall? hc hsite hcall⟩
  · split at hs
    · split at hs
      · next summary hsummary =>
        obtain ⟨⟨lock, v⟩, hmem, hs⟩ := List.mem_filterMap.mp hs
        simp only [wrapperSite?_eq, Option.bind_eq_some_iff, Option.some.injEq] at hs
        obtain ⟨op, -, o, ho, rfl⟩ := hs
        have hv := hsum.of_lookup hsummary v (List.of_mem_zip hmem).2
        exact ⟨rfl, operandFault?_callerValue? hc hsite hv ho⟩
      · cases hs
    · cases hs

section Function

variable {sites : SiteMap} (hsites : sites.InRange A.program func f)
include hsites

theorem exists_distinctLocks : ∃ locks, A.distinctLocks? func sites = some locks ∧
    ∀ lock ∈ locks, lock.value.InRange A.program := by
  refine exists_foldlM (fun locks hlocks site hsite => ?_) (fun _ h => by cases h)
  have hsite := hsites.of_mem_sites hsite
  rw [addLock?]
  split_ifs
  · exact ⟨locks, rfl, hlocks⟩
  · obtain ⟨known, hknown⟩ := Option.isSome_iff_exists.mp (isSome_anyM fun l hl =>
      isSome_aliases? (hlocks l hl) hsite A.source A.config.intraAlias)
    obtain ⟨f, hf, hfault⟩ := hsite
    obtain ⟨name, hname⟩ := Option.isSome_iff_exists.mp (isSome_valueName? hf hfault)
    cases known with
    | true => exact ⟨locks, by simp [hknown], hlocks⟩
    | false =>
      refine ⟨locks ++ [⟨name, ⟨func, site.lock⟩, false⟩], by simp [hknown, hname], ?_⟩
      exact List.forall_mem_append.mpr ⟨hlocks, List.forall_mem_singleton.mpr ⟨f, hf, hfault⟩⟩

theorem isSome_examineLock? (hf : A.program.functions[func]? = some f)
    (hc : f.Checked A.program) {b : Body} (hb : Body.of? f = some b) {lock : TrackedLock}
    (hlock : lock.value.InRange A.program) :
    (A.examineLock? func b b.dependences sites lock).isSome := by
  obtain ⟨onLock, hon⟩ : ∃ onLock,
      sites.sites.filterM (LockSite.isOn? A.source A.config A.program func lock.value) =
        some onLock :=
    ⟨_, filterM_eq_some_iff.mpr ⟨fun site hsite =>
      isSome_aliases? (hsites.of_mem_sites hsite) hlock A.source _, rfl⟩⟩
  obtain ⟨events, hevents, -⟩ := hsites.exists_events hlock A.source A.config
  obtain ⟨P, hP⟩ : ∃ P, Problem.of? A.source A.config A.program func b sites
      { lock with unlockWrapper :=
          (siteStatistic lock onLock).unlockWrapper && isArgument lock.value.value } = some P :=
    Problem.exists_of?_of_checked hc hf hb A.source A.config hsites hlock
  simp [examineLock?, hon, hevents, hP]

end Function

/-- A function has a summary, whatever was found in the functions that it calls. -/
theorem exists_summarize (hp : A.program.fault? = none)
    (hsum : Summaries.InRange A.program summaries)
    (hf : A.program.functions[func]? = some f) :
    ∃ found, A.summarize? summaries func = some found ∧ found.1.InRange A.program := by
  have hc := Program.checked_of_fault? hp hf
  obtain ⟨b, hb⟩ := hc.exists_body
  obtain ⟨calls, hcalls, hin⟩ := hc.exists_callSites
  have hsites :
      (SiteMap.ofList (calls.flatMap (A.sitesOf summaries f))).InRange A.program func f := by
    refine SiteMap.inRange_ofList fun site hsite => ?_
    obtain ⟨call, hcall, hsite⟩ := List.mem_flatMap.mp hsite
    obtain ⟨hinst, hlock⟩ := operandFault?_sitesOf hc hsum (hin call hcall) hsite
    exact ⟨hinst ▸ (hin call hcall).inst_lt, f, hf, hlock⟩
  obtain ⟨locks, hlocks, hrange⟩ := exists_distinctLocks hsites
  simp only [summarize?, hf, hb, hcalls, hlocks, Option.bind_eq_bind, Option.bind_some]
  refine exists_foldlM (Q := fun found : Summary × Log => found.1.InRange A.program)
    (fun found hfound lock hlock => ?_) (fun _ h => by cases h)
  obtain ⟨finding, hfinding⟩ := Option.isSome_iff_exists.mp
    (isSome_examineLock? hsites hf hc hb (hrange lock hlock))
  refine ⟨addFinding found lock finding, by simp [hfinding], ?_⟩
  exact List.forall_mem_append.mpr ⟨hfound, List.forall_mem_singleton.mpr (hrange lock hlock)⟩

/-- Analyses a callee unless it has no body, or that is done or in progress. -/
def visitCallee? (A : Analysis) (fuel : Nat) (stack : CallStack) (s : AnalysisState)
    (callee : FuncId) : Option AnalysisState := do
  let f ← A.program.functions[callee]?
  if !f.isDeclaration && stack.shouldDescend callee (s.isSummarized callee) then
    A.visit fuel stack s callee
  else return s

theorem visit_succ (fuel : Nat) (stack : CallStack) (s : AnalysisState) (func : FuncId) :
    A.visit (fuel + 1) stack s func =
      if s.isSummarized func then some s
      else ((A.graph.callees func).foldlM (A.visitCallee? fuel (stack.push func)) s).bind fun s =>
        (A.summarize? s.summaries func).bind fun found =>
          some ⟨s.summaries ++ [(func, found.1)], s.log.append found.2⟩ := rfl

/-- A function is analysed without failure, however deep that may go into callees. -/
theorem exists_visit (hp : A.program.fault? = none)
    (hg : ∀ e ∈ A.graph.edges, e.callee < A.program.functions.size) (fuel : Nat)
    {stack : CallStack} {s : AnalysisState} (hs : Summaries.InRange A.program s.summaries)
    (hf : A.program.functions[func]? = some f) :
    ∃ s', A.visit fuel stack s func = some s' ∧ Summaries.InRange A.program s'.summaries := by
  induction fuel generalizing func f stack s with
  | zero => exact ⟨s, rfl, hs⟩
  | succ fuel ih =>
    rw [visit_succ]
    split_ifs
    · exact ⟨s, rfl, hs⟩
    · have hcallee : ∀ s : AnalysisState, Summaries.InRange A.program s.summaries →
          ∀ callee ∈ A.graph.callees func,
            ∃ s', A.visitCallee? fuel (stack.push func) s callee = some s' ∧
              Summaries.InRange A.program s'.summaries := by
        intro s hs callee hcallee
        obtain ⟨-, e, he, -, rfl⟩ := CallGraph.mem_callees.mp hcallee
        have hf := Array.getElem?_eq_getElem (hg e he)
        simp only [visitCallee?, hf, Option.bind_eq_bind, Option.bind_some]
        split_ifs
        · exact ih hs hf
        · exact ⟨s, rfl, hs⟩
      obtain ⟨s', hs', hsum⟩ := exists_foldlM hcallee hs
      obtain ⟨found, hfound, hrange⟩ := exists_summarize hp hsum hf
      refine ⟨_, by rw [hs', Option.bind_some, hfound, Option.bind_some], ?_⟩
      exact List.forall_mem_append.mpr ⟨hsum, List.forall_mem_singleton.mpr hrange⟩

theorem exists_visits (hp : A.program.fault? = none)
    (hg : ∀ e ∈ A.graph.edges, e.callee < A.program.functions.size) (fuel : Nat) :
    ∃ s, A.program.defined.foldlM (A.visit fuel .empty) .empty = some s ∧
      Summaries.InRange A.program s.summaries := by
  refine exists_foldlM (Q := fun s : AnalysisState => Summaries.InRange A.program s.summaries)
    (fun s hs func hfunc => ?_) (fun _ h => by cases h)
  obtain ⟨f, hf, -⟩ := Program.exists_of_mem_defined hfunc
  exact exists_visit hp hg fuel hs hf

end Analysis

/-- What the parts of an analysis look up in a function is there: the blocks and instructions that
its blocks, branches and operands name, the functions that it calls, and the values that its
operands are or derive from. -/
structure Func.InRange (p : Program) (func : FuncId) (f : Func) : Prop where
  indexed : f.WellIndexed
  body : ∃ b, Body.of? f = some b
  calls : ∃ calls, f.callSites? = some calls ∧ ∀ site ∈ calls, site.inst < f.insts.size ∧
    ∀ callee, site.callee = .direct callee → callee < p.functions.size
  names : ∀ inst ∈ f.insts.toList, ∀ o ∈ inst.kind.operands,
    (p.valueName? func o).isSome ∧ (p.valueName? func (f.root o)).isSome

theorem Func.Checked.inRange (hc : f.Checked p) (hf : p.functions[func]? = some f) :
    f.InRange p func := by
  refine ⟨hc.wellIndexed, hc.exists_body, ?_, fun inst hinst o ho => ?_⟩
  · obtain ⟨calls, hcalls, hin⟩ := hc.exists_callSites
    exact ⟨calls, hcalls, fun site hsite =>
      ⟨(hin site hsite).inst_lt, fun callee => (hin site hsite).callee_lt hc⟩⟩
  · have hfault := hc.operands inst hinst o ho
    exact ⟨isSome_valueName? hf hfault, hc.isSome_predicateName? hf hfault⟩

/-- No look-up fails on a program that passes the check, whatever the aliases, the configuration and
the lock routines are: not in a single function, not in the call graph, and not in the analysis, to
whatever depth of calls it goes. -/
theorem Program.checked_analysis_in_range {p : Program} (hp : p.fault? = none)
    (source : AliasSource) (config : Config) (api : LockApi) :
    (∀ (func : FuncId) (f : Func), p.functions[func]? = some f → f.InRange p func) ∧
    ∃ graph, CallGraph.of? p = some graph ∧ graph.size = p.functions.size ∧ graph.InRange ∧
      (∀ fuel, ∃ s, p.defined.foldlM
        (Analysis.visit ⟨p, source, config, api, graph⟩ fuel .empty) .empty = some s) ∧
      ∃ report, p.report? source config api = some report := by
  refine ⟨fun func f hf => (checked_of_fault? hp hf).inRange hf, ?_⟩
  obtain ⟨graph, hgraph, hsize, hrange⟩ := CallGraph.exists_of? hp
  have hvisit (fuel : Nat) := Analysis.exists_visits (A := ⟨p, source, config, api, graph⟩) hp
    (fun e he => hsize ▸ (hrange e he).2) fuel
  refine ⟨graph, hgraph, hsize, hrange, fun fuel => (hvisit fuel).imp fun _ h => h.1, ?_⟩
  obtain ⟨s, hs, -⟩ := hvisit p.functions.size
  simp [report?, hgraph, Analysis.report?, Analysis.visitAll, hs]

-- Without the check a callee may be missing.
example : (CallGraph.of?
    ⟨"m", #[], #[⟨"f", [], #[⟨"a", [0]⟩], #[⟨none, 0, .call (.direct 1) []⟩]⟩]⟩).isNone := by
  decide

/-- A wrapper of a lock routine and its caller, which has an instruction that no block lists and
that derives from itself, one that is listed twice, and a branch in the middle of a block. -/
def tangled : Program where
  name := "m"
  globals := #["l"]
  functions := #[
    ⟨"rw_lock", ["m"], #[], #[]⟩,
    ⟨"take", ["m"], #[⟨"a", [0, 1]⟩],
      #[⟨none, 0, .call (.direct 0) [.arg 0]⟩, ⟨none, 0, .ret none⟩]⟩,
    ⟨"main", [], #[⟨"a", [0, 1, 0, 2]⟩, ⟨"b", [4]⟩],
      #[⟨none, 0, .call (.direct 1) [.inst 3]⟩, ⟨none, 0, .condBr (.inst 3) 1 0⟩,
        ⟨none, 0, .call (.direct 1) [.global 0]⟩, ⟨some "x", 1, .other [.inst 3]⟩,
        ⟨none, 1, .ret none⟩]⟩]

theorem tangled_in_range : tangled.fault? = none ∧
    ∃ api, LockApi.of? .default = some api ∧
      (∀ (func : FuncId) (f : Func), tangled.functions[func]? = some f → f.InRange tangled func) ∧
      ∃ report, tangled.report? .names .default api = some report := by
  have hfault : tangled.fault? = none := by decide +kernel
  have hapi : (LockApi.of? .default).isSome := by decide +kernel
  obtain ⟨api, hapi⟩ := Option.isSome_iff_exists.mp hapi
  obtain ⟨hrange, _, _, _, _, _, hreport⟩ :=
    Program.checked_analysis_in_range hfault .names .default api
  exact ⟨hfault, api, hapi, hrange, hreport⟩

end LockUsage
