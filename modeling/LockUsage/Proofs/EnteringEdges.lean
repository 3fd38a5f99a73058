import LockUsage.Proofs.CleanFunctions

/-! The edges that enter an instruction against the edges that leave instructions. In a function
whose terminators stand at the ends of its blocks, an edge is said to enter just where it leads,
whatever edges were asked for before: what is not the first of its block is entered from the
instruction before it, and the first one from the terminators that name its block. -/

namespace LockUsage

/-- A request for edges: the one out of a node, all those into an instruction, or one of them. -/
inductive EdgeRequest (n : Nat) where
  | out (node : Node n) (way : Branch)
  | into (i : Fin n)
  | slot (i : Fin n) (k : Nat)

namespace EdgeLog

variable {b : Body}

/-- What is noted after a request. -/
def serve (log : EdgeLog b.func.insts.size) :
    EdgeRequest b.func.insts.size → EdgeLog b.func.insts.size
  | .out node way => (log.outEdge node way).1
  | .into i => (log.inEdges i).1
  | .slot i k => (log.inEdge? i k).1

/-- What is noted after requests that were made one after the other. -/
def after (requests : List (EdgeRequest b.func.insts.size)) : EdgeLog b.func.insts.size :=
  requests.foldl serve .empty

end EdgeLog

namespace Body

variable {b : Body} {i j : b.InstIx} {way : Branch}

/-- Every instruction is listed by its block. -/
def Complete (b : Body) : Prop := ∀ i, i ∈ b.listed (b.blockOf i)

theorem terminator?_of_last (hcomplete : b.Complete) (hlast : b.TerminatorsLast)
    (hi : (b.kind i).isTerminator = true) : b.terminator? (b.blockOf i) = some i := by
  have hmem := hcomplete i
  have hne : b.listed (b.blockOf i) ≠ [] := List.ne_nil_of_mem hmem
  -- A terminator does not stand before the last instruction, so it is the last one.
  rw [← List.dropLast_append_getLast hne, List.mem_append, List.mem_singleton] at hmem
  rcases hmem with hmem | hmem
  · cases (hlast _ i hmem).symm.trans hi
  · rw [terminator?, List.getLast?_eq_some_getLast hne, ← hmem]
    simp [hi]

/-- What leads to the first instruction of a block is a terminator that names the block. -/
theorem Checked.mem_targets (hb : b.Checked) (h : b.follow i way = .inst j)
    (hnext : b.next? i ≠ some j) :
    (b.kind i).isTerminator = true ∧ b.blockOf j ∈ b.targets i := by
  have hhead {bb : BlockId} (hbb : bb ∈ (b.kind i).successors) (hj : b.headNode bb = .inst j) :
      b.blockOf j ∈ b.targets i := by
    obtain ⟨k, hk, hfirst⟩ := hb.exists_headNode ⟨bb, target_lt hbb⟩
    obtain rfl : k = j := Node.inst.inj (hk.symm.trans hj)
    rw [hb.own _ k (List.mem_of_mem_head? hfirst)]
    exact List.mem_pmap.mpr ⟨bb, hbb, rfl⟩
  cases hkind : b.kind i with
  | condBr cond thenTo elseTo =>
    simp only [follow, hkind] at h
    refine ⟨rfl, hhead ?_ h⟩
    cases way <;> simp [hkind, InstKind.successors, Branch.isTaken]
  | br target =>
    simp only [follow, hkind] at h
    exact ⟨rfl, hhead (by simp [hkind, InstKind.successors]) h⟩
  | switch value default cases =>
    simp only [follow, hkind] at h
    exact ⟨rfl, hhead (by simp [hkind, InstKind.successors]) h⟩
  | ret | unreachable => simp [follow, hkind] at h
  | call | cmp | other =>
    simp only [follow, hkind] at h
    split at h
    · next k hk =>
      obtain rfl := Node.inst.inj h
      exact absurd hk hnext
    · cases h

/-- Edges into the first instruction of a block come from the terminators that lead to the block. -/
theorem WellListed.mem_predecessors (hb : b.WellListed) (hcomplete : b.Complete)
    (hlast : b.TerminatorsLast) (hj : b.prev? j = none) (h : (b.edge i way).target = .inst j) :
    i ∈ b.predecessors (b.blockOf j) := by
  have hnext : b.next? i ≠ some j := fun hnext => by
    cases (hb.prev?_of_next? hnext).symm.trans hj
  obtain ⟨hterm, htarget⟩ := hb.mem_targets h hnext
  have hi := terminator?_of_last hcomplete hlast hterm
  refine List.mem_filterMap.mpr ⟨b.blockOf i, List.mem_filter.mpr ⟨List.mem_finRange _, ?_⟩, hi⟩
  simpa only [successors, hi, decide_eq_true_eq] using htarget

end Body

namespace EdgeLog

variable {b : Body} {i : b.InstIx}

/-- The entry edge, if it leads to the instruction. -/
def entering? (b : Body) (i : b.InstIx) : Option (Edge b.func.insts.size) :=
  b.entryEdge?.filter fun e => e.target == .inst i

/-- The edges from the terminators that lead to the block of an instruction, as far as they lead to
the instruction. -/
def fromTerminators (b : Body) (i : b.InstIx) : List (Edge b.func.insts.size) :=
  ((b.predecessors (b.blockOf i)).flatMap fun t => [b.edge t .taken, b.edge t .notTaken]).filter
    fun e => e.target == .inst i

theorem mem_entering? {e : Edge b.func.insts.size} :
    entering? b i = some e ↔ b.entry? = some i ∧ e = .entry i := by
  rw [entering?, Option.filter_eq_some_iff, Body.entryEdge?_eq_some_iff, beq_iff_eq]
  constructor
  · rintro ⟨⟨j, hj, rfl⟩, ht⟩
    obtain rfl := Node.inst.inj ht
    exact ⟨hj, rfl⟩
  · rintro ⟨hi, rfl⟩
    exact ⟨⟨i, hi, rfl⟩, rfl⟩

/-- An edge is noted as it is. -/
theorem outEdge_inst (log : EdgeLog b.func.insts.size) (i : b.InstIx) (way : Branch) :
    (log.outEdge (.inst i) way).2 = b.edge i way := by
  cases h : log.noted? i way with
  | none => simp only [outEdge, h, Option.getD_none]
  | some e =>
    obtain ⟨key, hkey, rfl⟩ := Option.map_eq_some_iff.mp h
    obtain rfl : key = (i, b.way i way) := by simpa using List.find?_some hkey
    simp only [outEdge, h, Option.getD_some]
    by_cases hc : b.isConditional i = true <;> simp [Body.edge, Body.way, hc]

theorem exists_of_mem_edges {log : EdgeLog b.func.insts.size} {e : Edge b.func.insts.size}
    (h : e ∈ log.edges) : ∃ j way, e = b.edge j way := by
  obtain ⟨⟨j, way⟩, -, rfl⟩ := List.mem_map.mp h
  exact ⟨j, way, rfl⟩

theorem mem_fromTerminators (hb : b.WellListed) (hcomplete : b.Complete)
    (hlast : b.TerminatorsLast) (hi : b.prev? i = none) {e : Edge b.func.insts.size} :
    e ∈ fromTerminators b i ↔ ∃ j way, e = b.edge j way ∧ e.target = .inst i := by
  simp only [fromTerminators, List.mem_filter, List.mem_flatMap, beq_iff_eq]
  constructor
  · rintro ⟨⟨t, -, he⟩, ht⟩
    rcases List.mem_pair.mp he with rfl | rfl
    · exact ⟨t, .taken, rfl, ht⟩
    · exact ⟨t, .notTaken, rfl, ht⟩
  · rintro ⟨j, way, rfl, ht⟩
    refine ⟨⟨j, hb.mem_predecessors hcomplete hlast hi ht, ?_⟩, ht⟩
    cases way <;> simp

/-- What was asked for before adds nothing to the edges into the first instruction of a block. -/
theorem inEdges_of_first (hb : b.WellListed) (hcomplete : b.Complete) (hlast : b.TerminatorsLast)
    (hi : b.prev? i = none) (log : EdgeLog b.func.insts.size) :
    (log.inEdges i).2 = ((entering? b i).toList ++ fromTerminators b i).eraseDups := by
  simp only [inEdges, hi, List.filter_append]
  rw [← List.append_assoc]
  refine eraseDups_append_of_subset fun e he => ?_
  obtain ⟨he, ht⟩ := List.mem_filter.mp he
  obtain ⟨j, way, rfl⟩ := exists_of_mem_edges he
  refine List.mem_append_right _ ((mem_fromTerminators hb hcomplete hlast hi).mpr ?_)
  exact ⟨j, way, rfl, by simpa using ht⟩

theorem inEdges_of_later (log : EdgeLog b.func.insts.size) {j : b.InstIx}
    (hi : b.prev? i = some j) : (log.inEdges i).2 = [b.edge j .taken] := by
  simp only [inEdges, hi]

/-- Exactly the edges that lead to an instruction enter it. -/
theorem mem_inEdges (hb : b.WellListed) (hcomplete : b.Complete) (hlast : b.TerminatorsLast)
    (log : EdgeLog b.func.insts.size) {e : Edge b.func.insts.size} :
    e ∈ (log.inEdges i).2 ↔ (b.entry? = some i ∧ e = .entry i) ∨
      ∃ j way, e = b.edge j way ∧ e.target = .inst i := by
  cases hi : b.prev? i with
  | none =>
    rw [inEdges_of_first hb hcomplete hlast hi, List.mem_eraseDups, List.mem_append,
      Option.mem_toList, mem_entering?, mem_fromTerminators hb hcomplete hlast hi]
  | some k =>
    rw [inEdges_of_later log hi, List.mem_singleton]
    constructor
    · rintro rfl
      have hk := hlast.isTerminator_of_prev? hb hi
      exact .inr ⟨k, .taken, rfl, hb.target_edge_of_prev? hi hk .taken⟩
    · rintro (⟨hentry, -⟩ | ⟨j, way, rfl, ht⟩)
      · cases (hb.prev?_entry hentry).symm.trans hi
      · exact hb.edge_eq_of_prev? ht hi

theorem nodup_inEdges (log : EdgeLog b.func.insts.size) (i : b.InstIx) :
    (log.inEdges i).2.Nodup := by
  cases hi : b.prev? i with
  | none =>
    simp only [inEdges, hi]
    exact nodup_eraseDups _
  | some k => simp [inEdges_of_later log hi]

theorem head?_inEdges (hb : b.WellListed) (hcomplete : b.Complete) (hlast : b.TerminatorsLast)
    (log : EdgeLog b.func.insts.size) (hi : b.entry? = some i) :
    (log.inEdges i).2.head? = some (.entry i) := by
  rw [inEdges_of_first hb hcomplete hlast (hb.prev?_entry hi),
    mem_entering?.mpr ⟨hi, rfl⟩, Option.toList_some, List.singleton_append, List.eraseDups_cons,
    List.head?_cons]

theorem inEdges_eq (hb : b.WellListed) (hcomplete : b.Complete) (hlast : b.TerminatorsLast)
    (log other : EdgeLog b.func.insts.size) (i : b.InstIx) :
    (log.inEdges i).2 = (other.inEdges i).2 := by
  cases hi : b.prev? i with
  | none =>
    rw [inEdges_of_first hb hcomplete hlast hi, inEdges_of_first hb hcomplete hlast hi]
  | some k => rw [inEdges_of_later log hi, inEdges_of_later other hi]

end EdgeLog

theorem Program.complete_of_parse {text : String} {p : Program} {func : FuncId} {f : Func}
    {b : Body} (hp : parse text = .ok p) (hf : p.functions[func]? = some f)
    (hb : Body.of? f = some b) : b.Complete := by
  obtain ⟨d, -, hgives, -⟩ := exists_of_parse hp
  obtain ⟨df, -, hloads⟩ := exists_mem_of_forall₂ hgives.functions (mem_functions hf)
  obtain rfl := Body.func_of_of? hb
  intro i
  have hi : b.func.insts[i.val]? = some (b.inst i) := by simp [Body.inst]
  obtain ⟨block, hblock, hmem⟩ := hloads.exists_own hi
  obtain ⟨own, hown, hval⟩ := b.exists_map_val_listed (b.blockOf i)
  obtain rfl : own = block := Option.some.inj (hown.symm.trans hblock)
  obtain ⟨j, hj, hij⟩ := List.mem_map.mp (hval ▸ hmem)
  exact Fin.ext hij ▸ hj

/-- The edges that enter an instruction are exactly those that lead there. In a loaded function in
which terminators stand only at the ends of blocks, whatever was asked for before, the edges that
enter an instruction are the entry edge, which comes first, if control enters there, and every edge
out of an instruction that leads to it, each once. Neither they nor the edges out of nodes depend on
what was asked for before. -/
theorem Program.entering_edges_are_exact {text : String} {p : Program} {func : FuncId} {f : Func}
    (hp : parse text = .ok p) (hf : p.functions[func]? = some f) :
    ∃ b, Body.of? f = some b ∧ (b.TerminatorsLast →
      ∀ requests : List (EdgeRequest b.func.insts.size),
        let log : EdgeLog b.func.insts.size := .after requests
        (∀ i, (log.inEdges i).2.Nodup ∧
          (∀ e, e ∈ (log.inEdges i).2 ↔ (b.entry? = some i ∧ e = .entry i) ∨
            ∃ j way, e = (log.outEdge (.inst j) way).2 ∧ e.target = .inst i) ∧
          (b.entry? = some i → (log.inEdges i).2.head? = some (.entry i)) ∧
          (log.inEdges i).2 = (EdgeLog.empty.inEdges i).2 ∧
          ∀ k, (log.inEdge? i k).2 = (log.inEdges i).2[k]?) ∧
        ∀ node way, (log.outEdge node way).2 = (EdgeLog.empty.outEdge node way).2) := by
  have hloaded := loaded_of_parse hp
  obtain ⟨b, hb⟩ := hloaded.exists_body hf
  refine ⟨b, hb, fun hlast requests => ?_⟩
  have hlisted := hloaded.wellListed hf hb
  have hcomplete := complete_of_parse hp hf hb
  refine ⟨fun i => ⟨EdgeLog.nodup_inEdges _ i, fun e => ?_, ?_, ?_, fun k => rfl⟩, ?_⟩
  · simp only [EdgeLog.outEdge_inst]
    exact EdgeLog.mem_inEdges hlisted hcomplete hlast _
  · exact EdgeLog.head?_inEdges hlisted hcomplete hlast _
  · exact EdgeLog.inEdges_eq hlisted hcomplete hlast _ _ i
  · intro node way
    cases node with
    | inst j => rw [EdgeLog.outEdge_inst, EdgeLog.outEdge_inst]
    | ret => rfl

def rejoiningText : String :=
  r#"["m",[],[["f",["c"],[["A",[["other","x",["%c"]],["cond_br","%c","A","B"]]],["B",[["switch","%c","A",[[1,"C"]]]]],["C",[["cond_br","%c","A","A"]]]]]]]"#

/-- Comes back to its first block from every block: by one way of a branch, by the default of a
switch and by both ways of a branch. The last block is named by a case of the switch only. -/
def rejoiningFunc : Func where
  name := "f"
  params := ["c"]
  blocks := #[⟨"A", [0, 1]⟩, ⟨"B", [2]⟩, ⟨"C", [3]⟩]
  insts := #[⟨some "x", 0, .other [.arg 0]⟩, ⟨none, 0, .condBr (.arg 0) 0 1⟩,
    ⟨none, 1, .switch (.arg 0) 0 [(1, 2)]⟩, ⟨none, 2, .condBr (.arg 0) 0 0⟩]

def rejoining : Program := ⟨"m", #[], #[rejoiningFunc]⟩

def rejoiningBody : Body := ⟨rejoiningFunc, by decide +kernel⟩

/-- The ways into the first block. -/
def rejoiningEdges : List (Edge rejoiningBody.func.insts.size) :=
  [.entry (0 : Fin 4), .flow (1 : Fin 4) (.inst (0 : Fin 4)),
    .flow (2 : Fin 4) (.inst (0 : Fin 4)), .flow (3 : Fin 4) (.inst (0 : Fin 4))]

set_option maxRecDepth 1000 in
theorem rejoining_edges_exact :
    Program.parse rejoiningText = .ok rejoining ∧ rejoining.functions[0]? = some rejoiningFunc ∧
    Body.of? rejoiningFunc = some rejoiningBody ∧ rejoiningBody.TerminatorsLast ∧
    rejoiningBody.entry? = some (0 : Fin 4) ∧
    (EdgeLog.empty.inEdges (b := rejoiningBody) (0 : Fin 4)).2 = rejoiningEdges ∧
    ∀ requests : List (EdgeRequest rejoiningBody.func.insts.size),
      ((EdgeLog.after requests).inEdges (b := rejoiningBody) (0 : Fin 4)).2 = rejoiningEdges := by
  have hparse : Program.parse rejoiningText = .ok rejoining :=
    (Program.parse_ofList _).trans (by decide +kernel)
  have hf : rejoining.functions[0]? = some rejoiningFunc := rfl
  have hlast : rejoiningBody.TerminatorsLast := by decide +kernel
  have hfirst : (EdgeLog.empty.inEdges (b := rejoiningBody) (0 : Fin 4)).2 = rejoiningEdges := by
    decide +kernel
  obtain ⟨b, hb, hexact⟩ := Program.entering_edges_are_exact hparse hf
  obtain rfl : rejoiningBody = b := Option.some.inj hb
  refine ⟨hparse, hf, rfl, hlast, rfl, hfirst, fun requests => ?_⟩
  obtain ⟨-, -, -, hsame, -⟩ := (hexact hlast requests).1 (0 : Fin 4)
  exact hsame.trans hfirst

end LockUsage
