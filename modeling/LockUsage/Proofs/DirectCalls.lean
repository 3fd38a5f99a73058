import LockUsage.Proofs.CallGraphs

/-! The call graph holds every direct call once: the calls of one function to another are those that
its blocks list, in their order, and the cycles of the graph are the chains of calls that lead back
to where they start. -/

namespace LockUsage

def InstKind.calls (kind : InstKind) (g : FuncId) : Bool :=
  match kind with
  | .call (.direct callee) _ => callee == g
  | _ => false

/-- The listed instructions that call a function directly, in program order. -/
def Func.callsTo (f : Func) (g : FuncId) : List InstId :=
  f.listed.filter fun id => f.insts[id]?.any fun inst => inst.kind.calls g

/-- The listed instructions at which one function calls another directly, in program order. -/
def Program.callsBetween (p : Program) (f g : FuncId) : List InstId :=
  (p.functions[f]?.map fun func => func.callsTo g).getD []

theorem Func.callSites?_eq {f : Func} {sites : List CallSite} (h : f.callSites? = some sites) :
    sites = f.listed.filterMap fun id => (f.call? id).join := by
  obtain ⟨calls, hcalls, rfl⟩ := Option.map_eq_some_iff.mp h
  have hjoin : calls.filterMap id = (calls.map some).filterMap Option.join := by
    rw [List.filterMap_map]
    rfl
  rw [hjoin, ← mapM_eq_some_iff.mp hcalls, List.filterMap_map]
  rfl

namespace CallGraph

variable {p : Program} {graph : CallGraph} {f g : FuncId} {edges : List CallEdge}

/-- The direct calls of a function to one other are the instructions that call it. -/
theorem filterMap_directCalls {calls : List (FuncId × InstId)}
    (h : directCalls? p f = some calls) :
    (calls.filterMap fun call => if call.1 = g then some call.2 else none) =
      p.callsBetween f g := by
  simp only [directCalls?, Option.bind_eq_bind, Option.bind_eq_some_iff] at h
  obtain ⟨func, hf, sites, hsites, h⟩ := h
  split_ifs at h
  obtain rfl := Option.some.inj h
  rw [Func.callSites?_eq hsites, List.filterMap_filterMap, List.filterMap_filterMap,
    Program.callsBetween, hf, Option.map_some, Option.getD_some, Func.callsTo,
    ← List.filterMap_eq_filter]
  refine List.filterMap_congr fun id _ => ?_
  cases hinst : func.insts[id]? with
  | none => simp [Func.call?, hinst, Option.guard]
  | some inst =>
    cases hkind : inst.kind with
    | call callee args =>
      cases callee with
      | direct callee =>
        by_cases hcallee : callee = g <;>
          simp [Func.call?, hinst, hkind, InstKind.calls, Option.guard, hcallee]
      | indirect o => simp [Func.call?, hinst, hkind, InstKind.calls, Option.guard]
    | _ => simp [Func.call?, hinst, hkind, InstKind.calls, Option.guard]

theorem calls_iff (hp : p.fault? = none) : p.Calls f g ↔ p.callsBetween f g ≠ [] := by
  cases hf : p.functions[f]? with
  | none => simp [Program.Calls, Program.callsBetween, hf]
  | some func =>
    obtain ⟨calls, hcalls, -⟩ := exists_directCalls hf (Program.checked_of_fault? hp hf)
    rw [← mem_directCalls hcalls, ← filterMap_directCalls hcalls, ne_eq,
      List.filterMap_eq_nil_iff]
    push Not
    constructor
    · rintro ⟨site, hsite⟩
      exact ⟨(g, site), hsite, by simp⟩
    · rintro ⟨⟨callee, site⟩, hmem, hne⟩
      by_cases hcallee : callee = g
      · exact ⟨site, hcallee ▸ hmem⟩
      · simp [hcallee] at hne

/-- The calls that the edges hold between two functions. -/
def sitesOf (edges : List CallEdge) (ends : FuncId × FuncId) : List InstId :=
  ((edges.find? fun e => e.ends = ends).map CallEdge.sites).getD []

theorem sitesOf_addCall (edges : List CallEdge) (caller callee : FuncId) (site : InstId)
    (ends : FuncId × FuncId) : sitesOf (addCall edges caller callee site) ends =
      sitesOf edges ends ++ if (caller, callee) = ends then [site] else [] := by
  fun_induction addCall with
  | case1 => by_cases hends : (caller, callee) = ends <;> simp [sitesOf, CallEdge.ends, hends]
  | case2 e rest heq =>
    obtain ⟨rfl, rfl⟩ := heq
    by_cases hends : (e.caller, e.callee) = ends <;> simp [sitesOf, CallEdge.ends, hends]
  | case3 e rest hne ih =>
    by_cases hends : (e.caller, e.callee) = ends
    · have hother : (caller, callee) ≠ ends :=
        fun he => hne (Prod.mk.inj (hends.trans he.symm))
      simp [sitesOf, CallEdge.ends, hends, hother]
    · have hrest (edges : List CallEdge) : sitesOf (e :: edges) ends = sitesOf edges ends := by
        simp [sitesOf, CallEdge.ends, hends]
      rw [hrest, hrest, ih]

/-- Each pair of functions gathers its calls in the order in which they come. -/
theorem sitesOf_foldl_addCall (calls : List (FuncId × FuncId × InstId)) (edges : List CallEdge)
    (f g : FuncId) :
    sitesOf (calls.foldl (fun edges (caller, callee, site) => addCall edges caller callee site)
      edges) (f, g) = sitesOf edges (f, g) ++
        calls.filterMap fun call => if call.1 = f ∧ call.2.1 = g then some call.2.2 else none := by
  induction calls generalizing edges with
  | nil => simp
  | cons call calls ih =>
    obtain ⟨caller, callee, site⟩ := call
    rw [List.foldl_cons, ih, sitesOf_addCall, List.append_assoc]
    by_cases hends : caller = f ∧ callee = g <;> simp [hends]

/-- An edge is the only one between its functions, so that its calls are all of theirs. -/
theorem sitesOf_ends {e : CallEdge} (hnodup : (edges.map CallEdge.ends).Nodup) (he : e ∈ edges) :
    sitesOf edges e.ends = e.sites := by
  induction edges with
  | nil => cases he
  | cons first rest ih =>
    obtain ⟨hfirst, hnodup⟩ := List.nodup_cons.mp hnodup
    rcases List.mem_cons.mp he with rfl | he
    · simp [sitesOf]
    · have hne : first.ends ≠ e.ends := fun heq => hfirst (heq ▸ List.mem_map_of_mem he)
      rw [← ih hnodup he]
      simp [sitesOf, hne]

/-- Of the calls of several functions, those between two functions stand in the list of the first
one of these. -/
theorem filterMap_flatten {callers : List FuncId} {groups : List (List (FuncId × FuncId × InstId))}
    (h : callers.mapM (fun caller => (directCalls? p caller).map fun direct =>
      direct.map fun call => (caller, call)) = some groups) (hnodup : callers.Nodup) :
    (groups.flatten.filterMap fun call =>
      if call.1 = f ∧ call.2.1 = g then some call.2.2 else none) =
      if f ∈ callers then p.callsBetween f g else [] := by
  induction callers generalizing groups with
  | nil =>
    obtain rfl := Option.some.inj h
    rfl
  | cons caller callers ih =>
    simp only [List.mapM_cons, Option.bind_eq_bind, Option.bind_eq_some_iff] at h
    obtain ⟨group, hgroup, rest, hrest, h⟩ := h
    obtain rfl := Option.some.inj h
    obtain ⟨direct, hdirect, rfl⟩ := Option.map_eq_some_iff.mp hgroup
    obtain ⟨hcaller, hnodup⟩ := List.nodup_cons.mp hnodup
    rw [List.flatten_cons, List.filterMap_append, ih hrest hnodup, List.filterMap_map]
    by_cases hf : caller = f
    · subst hf
      rw [if_neg hcaller, if_pos (List.mem_cons_self ..), List.append_nil,
        ← filterMap_directCalls hdirect]
      simp
    · have hmem : f ∈ caller :: callers ↔ f ∈ callers := by simp [Ne.symm hf]
      simp [hf, hmem]

/-- The calls of an edge are the listed ones. -/
theorem sites_of? (h : of? p = some graph) {e : CallEdge} (he : e ∈ graph.edges) :
    e.sites = p.callsBetween e.caller e.callee := by
  have hends := ends_of? h
  have hcall : p.Calls e.caller e.callee := (hends.2 _ _).mp (List.mem_map_of_mem he)
  rw [← sitesOf_ends hends.1 he]
  simp only [of?, Option.bind_eq_bind, Option.bind_eq_some_iff] at h
  obtain ⟨calls, hcalls, h⟩ := h
  obtain rfl := Option.some.inj h
  refine (sitesOf_foldl_addCall calls.flatten [] e.caller e.callee).trans ?_
  rw [filterMap_flatten hcalls p.nodup_defined, if_pos hcall.mem_defined]
  rfl

end CallGraph

/-- The call graph of a checked program is exact. There is one edge a pair of functions of which the
first calls the second directly, and it holds these calls in program order. The callees of a
function are those it calls, by increasing id. A function is recursive if a chain of one call or
more leads from it back to it. -/
theorem Program.call_graph_is_exact {p : Program} (hp : p.fault? = none) :
    ∃ graph, CallGraph.of? p = some graph ∧
      (graph.edges.map fun e => (e.caller, e.callee)).Nodup ∧
      (∀ f g, (∃ e ∈ graph.edges, e.caller = f ∧ e.callee = g) ↔ p.callsBetween f g ≠ []) ∧
      (∀ e ∈ graph.edges, e.sites = p.callsBetween e.caller e.callee) ∧
      (∀ f, (graph.callees f).Pairwise (· < ·) ∧
        ∀ g, g ∈ graph.callees f ↔ p.callsBetween f g ≠ []) ∧
      ∀ f, graph.isRecursive f = true ↔
        Relation.TransGen (fun f g => p.callsBetween f g ≠ []) f f := by
  obtain ⟨graph, hgraph, -⟩ := CallGraph.exists_of? hp
  have hcallees (f g : FuncId) : g ∈ graph.callees f ↔ p.callsBetween f g ≠ [] :=
    (CallGraph.mem_callees_iff hgraph).trans (CallGraph.calls_iff hp)
  have hcalls : p.Calls = fun f g => p.callsBetween f g ≠ [] := by
    funext f g
    exact propext (CallGraph.calls_iff hp)
  refine ⟨graph, hgraph, (CallGraph.ends_of? hgraph).1, fun f g => ?_, fun e he => ?_,
    fun f => ⟨graph.pairwise_callees f, hcallees f⟩, fun f => ?_⟩
  · exact (CallGraph.exists_edge_iff hgraph).trans (CallGraph.calls_iff hp)
  · exact CallGraph.sites_of? hgraph he
  · rw [← hcalls]
    exact CallGraph.isRecursive_iff hp hgraph

/-- Two functions that call each other, one of them twice and against the order of its
instructions, one that calls itself, and one that only leads to the cycle. -/
def parity : Program where
  name := "m"
  globals := #[]
  functions := #[
    ⟨"main", [], #[⟨"a", [0, 1]⟩], #[⟨none, 0, .call (.direct 1) []⟩, ⟨none, 0, .ret none⟩]⟩,
    ⟨"even", ["f"], #[⟨"a", [2, 4]⟩, ⟨"b", [1, 0, 3]⟩],
      #[⟨none, 1, .call (.direct 2) []⟩, ⟨none, 1, .call (.indirect (.arg 0)) []⟩,
        ⟨none, 0, .call (.direct 2) []⟩, ⟨none, 1, .ret none⟩, ⟨none, 0, .br 1⟩]⟩,
    ⟨"odd", [], #[⟨"a", [0, 1, 2]⟩], #[⟨none, 0, .call (.direct 3) []⟩,
      ⟨none, 0, .call (.direct 1) []⟩, ⟨none, 0, .ret none⟩]⟩,
    ⟨"again", [], #[⟨"a", [0, 1]⟩], #[⟨none, 0, .call (.direct 3) []⟩, ⟨none, 0, .ret none⟩]⟩]

theorem parity_call_graph_exact : parity.fault? = none ∧ parity.callsBetween 1 2 = [2, 0] ∧
    ∃ graph, CallGraph.of? parity = some graph ∧ graph.callees 2 = [1, 3] ∧
      (List.range 4).map graph.isRecursive = [false, true, true, true] ∧
      (∀ e ∈ graph.edges, e.sites = parity.callsBetween e.caller e.callee) ∧
      ∀ f, graph.isRecursive f = true ↔
        Relation.TransGen (fun f g => parity.callsBetween f g ≠ []) f f := by
  have hfault : parity.fault? = none := by decide +kernel
  obtain ⟨graph, hgraph, -, -, hsites, -, hrec⟩ := Program.call_graph_is_exact hfault
  have hrun : (CallGraph.of? parity).map (fun graph =>
      (graph.callees 2, (List.range 4).map graph.isRecursive)) =
      some ([1, 3], [false, true, true, true]) := by decide +kernel
  rw [hgraph] at hrun
  obtain ⟨hcallees, hcycles⟩ := Prod.mk.inj (Option.some.inj hrun)
  exact ⟨hfault, by decide +kernel, graph, hgraph, hcallees, hcycles, hsites, hrec⟩

end LockUsage
