import LockUsage.Proofs.ComponentSearches
import LockUsage.Proofs.Lookups
import Mathlib.Logic.Relation

/-! The call graph against the calls that the functions of a program list: which function calls
which one, and which functions chains of calls lead to. -/

namespace LockUsage

namespace Program

variable {p : Program} {f g : FuncId}

/-- A function lists a direct call of another one. -/
def Calls (p : Program) (f g : FuncId) : Prop :=
  ∃ func calls, p.functions[f]? = some func ∧ func.callSites? = some calls ∧
    ∃ site ∈ calls, site.callee = .direct g

/-- Chains of calls lead from each of two functions to the other. -/
def OnCommonCycle (p : Program) (f g : FuncId) : Prop :=
  Relation.TransGen p.Calls f g ∧ Relation.TransGen p.Calls g f

theorem mem_defined :
    f ∈ p.defined ↔ ∃ func, p.functions[f]? = some func ∧ func.isDeclaration = false := by
  refine ⟨exists_of_mem_defined, fun ⟨func, hf, hdecl⟩ => List.mem_filter.mpr ⟨?_, ?_⟩⟩
  · exact List.mem_range.mpr (Array.getElem?_eq_some_iff.mp hf).1
  · simp [hf, hdecl]

theorem nodup_defined (p : Program) : p.defined.Nodup := List.nodup_range.filter _

theorem Calls.mem_defined (h : p.Calls f g) : f ∈ p.defined := by
  obtain ⟨func, calls, hf, hcalls, site, hsite, -⟩ := h
  refine Program.mem_defined.mpr ⟨func, hf, ?_⟩
  by_contra hdecl
  -- A function without blocks lists nothing.
  have hnil : func.listed = [] := by
    have hblocks : func.blocks = #[] := by simpa [Func.isDeclaration] using hdecl
    simp [Func.listed, hblocks]
  rw [Func.callSites?, hnil] at hcalls
  obtain rfl := Option.some.inj hcalls
  cases hsite

end Program

def CallEdge.ends (e : CallEdge) : FuncId × FuncId := (e.caller, e.callee)

namespace CallGraph

variable {p : Program} {graph : CallGraph} {f g : FuncId}

section Edges

/-- A call adds the pair of its functions unless it is there. -/
theorem ends_addCall (edges : List CallEdge) (caller callee : FuncId) (site : InstId) :
    (addCall edges caller callee site).map CallEdge.ends =
      if (caller, callee) ∈ edges.map CallEdge.ends then edges.map CallEdge.ends
      else edges.map CallEdge.ends ++ [(caller, callee)] := by
  fun_induction addCall with
  | case1 => rfl
  | case2 e rest heq =>
    obtain ⟨rfl, rfl⟩ := heq
    rw [if_pos (by simp [CallEdge.ends])]
    rfl
  | case3 e rest hne ih =>
    have hends : (caller, callee) ≠ e.ends :=
      fun he => hne ((Prod.mk.inj he).imp Eq.symm Eq.symm)
    simp only [List.map_cons, ih, List.mem_cons, hends, false_or]
    split_ifs <;> rfl

theorem mem_ends_addCall {edges : List CallEdge} {caller callee : FuncId} {site : InstId}
    {ends : FuncId × FuncId} : ends ∈ (addCall edges caller callee site).map CallEdge.ends ↔
      ends ∈ edges.map CallEdge.ends ∨ ends = (caller, callee) := by
  rw [ends_addCall]
  split_ifs with hold
  · exact ⟨.inl, fun h => h.elim id fun he => he ▸ hold⟩
  · rw [List.mem_append, List.mem_singleton]

theorem nodup_ends_addCall {edges : List CallEdge} (h : (edges.map CallEdge.ends).Nodup)
    (caller callee : FuncId) (site : InstId) :
    ((addCall edges caller callee site).map CallEdge.ends).Nodup := by
  rw [ends_addCall]
  split_ifs with hold
  · exact h
  · exact List.nodup_append.mpr ⟨h, List.nodup_singleton _, fun a ha b hb he =>
      hold (List.mem_singleton.mp hb ▸ he ▸ ha)⟩

/-- The calls in any order join each pair of functions once. -/
theorem ends_foldl_addCall (calls : List (FuncId × FuncId × InstId)) (edges : List CallEdge)
    (h : (edges.map CallEdge.ends).Nodup) :
    let all := calls.foldl
      (fun edges (caller, callee, site) => addCall edges caller callee site) edges
    (all.map CallEdge.ends).Nodup ∧ ∀ ends, ends ∈ all.map CallEdge.ends ↔
      ends ∈ edges.map CallEdge.ends ∨ ∃ site, (ends.1, ends.2, site) ∈ calls := by
  induction calls generalizing edges with
  | nil => simpa using h
  | cons call calls ih =>
    obtain ⟨caller, callee, site⟩ := call
    obtain ⟨hnodup, hmem⟩ := ih _ (nodup_ends_addCall h caller callee site)
    refine ⟨hnodup, fun ends => (hmem ends).trans ?_⟩
    rw [mem_ends_addCall, or_assoc]
    refine or_congr_right ?_
    simp only [List.mem_cons, Prod.mk.injEq, exists_or, exists_and_left, exists_eq, and_true]
    exact or_congr_left Prod.ext_iff

theorem mem_directCalls {calls : List (FuncId × InstId)} (h : directCalls? p f = some calls) :
    (∃ site, (g, site) ∈ calls) ↔ p.Calls f g := by
  simp only [directCalls?, Option.bind_eq_bind, Option.bind_eq_some_iff] at h
  obtain ⟨func, hf, sites, hsites, h⟩ := h
  split_ifs at h
  obtain rfl := Option.some.inj h
  constructor
  · rintro ⟨inst, hmem⟩
    obtain ⟨site, hsite, hcall⟩ := List.mem_filterMap.mp hmem
    split at hcall
    · next callee hcallee =>
      cases hcall
      exact ⟨func, sites, hf, hsites, site, hsite, hcallee⟩
    · cases hcall
  · rintro ⟨func', sites', hf', hsites', site, hsite, hcallee⟩
    obtain rfl := Option.some.inj (hf.symm.trans hf')
    obtain rfl := Option.some.inj (hsites.symm.trans hsites')
    exact ⟨site.inst, List.mem_filterMap.mpr ⟨site, hsite, by rw [hcallee]⟩⟩

theorem lt_of_mem_directCalls {calls : List (FuncId × InstId)} (h : directCalls? p f = some calls)
    {call : FuncId × InstId} (hcall : call ∈ calls) : call.1 < p.functions.size := by
  simp only [directCalls?, Option.bind_eq_bind, Option.bind_eq_some_iff] at h
  obtain ⟨func, -, sites, -, h⟩ := h
  split_ifs at h with hall
  obtain rfl := Option.some.inj h
  exact of_decide_eq_true (List.all_eq_true.mp hall call hcall)

/-- There is one edge a pair of functions of which the first calls the second. -/
theorem ends_of? (h : of? p = some graph) : (graph.edges.map CallEdge.ends).Nodup ∧
    ∀ f g, (f, g) ∈ graph.edges.map CallEdge.ends ↔ p.Calls f g := by
  simp only [of?, Option.bind_eq_bind, Option.bind_eq_some_iff] at h
  obtain ⟨calls, hcalls, h⟩ := h
  obtain rfl := Option.some.inj h
  obtain ⟨hnodup, hmem⟩ := ends_foldl_addCall calls.flatten [] List.nodup_nil
  refine ⟨hnodup, fun f g => (hmem (f, g)).trans ?_⟩
  rw [List.map_nil, List.mem_nil_iff, false_or]
  constructor
  · rintro ⟨site, hsite⟩
    obtain ⟨group, hgroup, hsite⟩ := List.mem_flatten.mp hsite
    obtain ⟨caller, -, hcaller⟩ := exists_source_of_mapM hcalls hgroup
    obtain ⟨direct, hdirect, rfl⟩ := Option.map_eq_some_iff.mp hcaller
    obtain ⟨call, hcall, heq⟩ := List.mem_map.mp hsite
    obtain ⟨rfl, rfl⟩ := Prod.mk.inj heq
    exact (mem_directCalls hdirect).mp ⟨site, hcall⟩
  · intro hcall
    obtain ⟨group, hgroup, hcaller⟩ := exists_result_of_mapM hcalls hcall.mem_defined
    obtain ⟨direct, hdirect, rfl⟩ := Option.map_eq_some_iff.mp hcaller
    obtain ⟨site, hsite⟩ := (mem_directCalls hdirect).mpr hcall
    exact ⟨site, List.mem_flatten.mpr ⟨_, hgroup, List.mem_map_of_mem hsite⟩⟩

theorem exists_edge_iff (h : of? p = some graph) :
    (∃ e ∈ graph.edges, e.caller = f ∧ e.callee = g) ↔ p.Calls f g := by
  rw [← (ends_of? h).2, List.mem_map]
  simp [CallEdge.ends]

theorem callee_lt_size (h : of? p = some graph) (hcall : p.Calls f g) : g < graph.size := by
  simp only [of?, Option.bind_eq_bind, Option.bind_eq_some_iff] at h
  obtain ⟨calls, hcalls, h⟩ := h
  obtain rfl := Option.some.inj h
  obtain ⟨group, -, hcaller⟩ := exists_result_of_mapM hcalls hcall.mem_defined
  obtain ⟨direct, hdirect, -⟩ := Option.map_eq_some_iff.mp hcaller
  obtain ⟨site, hsite⟩ := (mem_directCalls hdirect).mpr hcall
  exact lt_of_mem_directCalls hdirect hsite

theorem mem_callees_iff (h : of? p = some graph) : g ∈ graph.callees f ↔ p.Calls f g := by
  rw [mem_callees, exists_edge_iff h]
  exact and_iff_right_of_imp (callee_lt_size h)

/-- Callees stand by increasing id. -/
theorem pairwise_callees (graph : CallGraph) (f : FuncId) :
    (graph.callees f).Pairwise (· < ·) := List.pairwise_lt_range.filter _

end Edges

section Chains

variable {size : Nat} {v w : Fin size}

theorem leads_addTarget (targets : Adjacency size) (e : CallEdge) :
    (addTarget targets e).Leads v w ↔
      targets.Leads v w ∨ e.caller = v.val ∧ e.callee = w.val := by
  rw [addTarget]
  split_ifs with hlt
  · have hget : (targets.set e.caller (⟨e.callee, hlt.2⟩ :: targets.get ⟨e.caller, hlt.1⟩)
        hlt.1).get v = if e.caller = v.val then
          ⟨e.callee, hlt.2⟩ :: targets.get ⟨e.caller, hlt.1⟩ else targets.get v :=
      Vector.getElem_set hlt.1 v.isLt
    rw [Adjacency.Leads, hget]
    by_cases heq : e.caller = v.val
    · simp [heq, Adjacency.Leads, Fin.ext_iff, eq_comm, or_comm]
    · simp [heq, Adjacency.Leads]
  · have hout : ¬(e.caller = v.val ∧ e.callee = w.val) :=
      fun h => hlt ⟨h.1 ▸ v.isLt, h.2 ▸ w.isLt⟩
    simp [hout]

/-- One function leads to another if there is an edge between them. -/
theorem leads_adjacency (edges : List CallEdge) :
    (adjacency size edges).Leads v w ↔ ∃ e ∈ edges, e.caller = v.val ∧ e.callee = w.val := by
  induction edges using List.reverseRecOn with
  | nil =>
    have hnil : (adjacency size []).get v = [] := Vector.getElem_replicate v.isLt
    simp [Adjacency.Leads, hnil]
  | append_singleton edges e ih =>
    rw [adjacency, List.foldl_concat, leads_addTarget, ← adjacency, ih]
    simp [or_and_right, exists_or]

theorem inRange_of? (hp : p.fault? = none) (h : of? p = some graph) :
    graph.size = p.functions.size ∧ graph.InRange := by
  obtain ⟨graph', hgraph, hrange⟩ := exists_of? hp
  exact Option.some.inj (h.symm.trans hgraph) ▸ hrange

/-- The chains of calls are those of the nodes of the graph. -/
theorem transGen_leads_iff (hp : p.fault? = none) (h : of? p = some graph)
    {v w : Fin graph.size} :
    Relation.TransGen (adjacency graph.size graph.edges).Leads v w ↔
      Relation.TransGen p.Calls v.val w.val := by
  have hleads {v w : Fin graph.size} :
      (adjacency graph.size graph.edges).Leads v w ↔ p.Calls v.val w.val := by
    rw [leads_adjacency, exists_edge_iff h]
  have hback {f g : FuncId} (hchain : Relation.TransGen p.Calls f g) (hf : f < graph.size)
      (hg : g < graph.size) :
      Relation.TransGen (adjacency graph.size graph.edges).Leads ⟨f, hf⟩ ⟨g, hg⟩ := by
    induction hchain with
    | single hcall => exact .single (hleads.mpr hcall)
    | tail hchain hcall ih =>
      obtain ⟨e, he, rfl, rfl⟩ := (exists_edge_iff h).mpr hcall
      exact (ih ((inRange_of? hp h).2 e he).1).tail (hleads.mpr hcall)
  exact ⟨fun hchain => hchain.lift _ fun _ _ hlead => hleads.mp hlead,
    fun hchain => hback hchain v.isLt w.isLt⟩

/-- A function is recursive if a chain of calls leads from it back to it. -/
theorem isRecursive_iff (hp : p.fault? = none) (h : of? p = some graph) :
    graph.isRecursive f = true ↔ Relation.TransGen p.Calls f f := by
  have hrec : graph.recursive = (adjacency graph.size graph.edges).cyclic.map (·.val) := by
    simp only [of?, Option.bind_eq_bind, Option.bind_eq_some_iff] at h
    obtain ⟨calls, -, h⟩ := h
    obtain rfl := Option.some.inj h
    rfl
  rw [isRecursive, List.contains_iff_mem, hrec, List.mem_map]
  constructor
  · rintro ⟨v, hv, rfl⟩
    exact (transGen_leads_iff hp h).mp (Adjacency.mem_cyclic_iff.mp hv)
  · intro hcycle
    obtain ⟨g, hcall, -⟩ := Relation.TransGen.head'_iff.mp hcycle
    obtain ⟨e, he, rfl, -⟩ := (exists_edge_iff h).mpr hcall
    have hlt := ((inRange_of? hp h).2 e he).1
    refine ⟨⟨e.caller, hlt⟩, Adjacency.mem_cyclic_iff.mpr ?_, rfl⟩
    exact (transGen_leads_iff hp h).mpr hcycle

end Chains

end CallGraph

end LockUsage
