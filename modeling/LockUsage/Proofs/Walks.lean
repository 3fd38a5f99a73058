import LockUsage.Proofs.Layout

/-! Walks through a body. A walk starts on the edge by which control enters and passes one node at a
time, on one of its ways out. It stands on an edge. -/

namespace LockUsage

theorem Edge.ne_exit_of_target {n : Nat} {e : Edge n} {i : Fin n} (h : e.target = .inst i) :
    e ≠ .exit := by
  rintro rfl
  cases h

namespace Body

/-- The edge out of a node. -/
def out (b : Body) : Node b.func.insts.size → Branch → Edge b.func.insts.size
  | .inst i, way => b.edge i way
  | .ret, _ => .exit

/-- A walk that passed some nodes, each on some way, and stands on an edge. -/
inductive Walk (b : Body) :
    List (Node b.func.insts.size × Branch) → Edge b.func.insts.size → Prop
  | start {e} : b.entryEdge? = some e → Walk b [] e
  | step {steps e} (way : Branch) : Walk b steps e →
      Walk b (steps ++ [(e.target, way)]) (b.out e.target way)

/-- Some walk stands on the edge. -/
def Reaches (b : Body) (e : Edge b.func.insts.size) : Prop := ∃ steps, b.Walk steps e

/-- The nodes passed from an edge on, along given ways. -/
def passing (b : Body) (e : Edge b.func.insts.size) :
    List Branch → List (Node b.func.insts.size × Branch)
  | [] => []
  | way :: ways => (e.target, way) :: b.passing (b.out e.target way) ways

/-- Where given ways lead from an edge. -/
def along (b : Body) (e : Edge b.func.insts.size) : List Branch → Edge b.func.insts.size
  | [] => e
  | way :: ways => b.along (b.out e.target way) ways

variable {b : Body} {e : Edge b.func.insts.size}

theorem eq_of_out_eq {node node' : Node b.func.insts.size} {way way' : Branch}
    (h : b.out node way = b.out node' way') : node = node' := by
  cases node <;> cases node' <;> simp_all [out, edge]

theorem Walk.along {steps : List (Node b.func.insts.size × Branch)} (h : b.Walk steps e)
    (ways : List Branch) : b.Walk (steps ++ b.passing e ways) (b.along e ways) := by
  induction ways generalizing steps e with
  | nil => rwa [passing, List.append_nil]
  | cons way ways ih =>
    have hnext := ih (h.step way)
    rwa [List.append_assoc, List.singleton_append] at hnext

theorem Walk.of_append_singleton {steps : List (Node b.func.insts.size × Branch)}
    {node : Node b.func.insts.size} {way : Branch} (h : b.Walk (steps ++ [(node, way)]) e) :
    ∃ e', b.Walk steps e' ∧ e'.target = node ∧ e = b.out node way := by
  generalize hsteps : steps ++ [(node, way)] = all at h
  cases h with
  | start => simp at hsteps
  | @step steps' e' way' hw =>
    obtain ⟨rfl, hlast⟩ := List.append_inj' hsteps rfl
    simp only [List.cons.injEq, Prod.mk.injEq, and_true] at hlast
    obtain ⟨rfl, rfl⟩ := hlast
    exact ⟨e', hw, rfl, rfl⟩

theorem Walk.unique {steps : List (Node b.func.insts.size × Branch)}
    {e' : Edge b.func.insts.size} (h : b.Walk steps e) (h' : b.Walk steps e') : e = e' := by
  induction h generalizing e' with
  | start h =>
    generalize hsteps : [] = all at h'
    cases h' with
    | start h'' => exact Option.some.inj (h.symm.trans h'')
    | step => simp at hsteps
  | step way _ ih =>
    obtain ⟨e₁, -, -, rfl⟩ := h'.of_append_singleton
    rfl

theorem Walk.exists_of_prefix {pre steps : List (Node b.func.insts.size × Branch)}
    (h : b.Walk steps e) (hpre : pre <+: steps) : ∃ e', b.Walk pre e' := by
  induction h with
  | start h =>
    obtain rfl := List.prefix_nil.mp hpre
    exact ⟨_, .start h⟩
  | step way hw ih =>
    rcases List.prefix_concat_iff.mp hpre with rfl | hpre
    · exact ⟨_, hw.step way⟩
    · exact ih hpre

/-- What a walk sums up to is among some marks on its edge, if these hold the start and are closed
under passing a node. -/
theorem Walk.mem_of_closed {α : Type} {next : α → Node b.func.insts.size × Branch → α} {a : α}
    {marks : List (Edge b.func.insts.size × α)}
    (hstart : ∀ e ∈ b.entryEdge?, (e, a) ∈ marks)
    (hclosed : ∀ mark ∈ marks, ∀ way ∈ [Branch.taken, .notTaken],
      (b.out mark.1.target way, next mark.2 (mark.1.target, way)) ∈ marks)
    {steps : List (Node b.func.insts.size × Branch)} (h : b.Walk steps e) :
    (e, steps.foldl next a) ∈ marks := by
  induction h with
  | start h => exact hstart _ h
  | step way _ ih =>
    rw [List.foldl_append]
    exact hclosed _ ih way (by cases way <;> simp)

theorem Reaches.entry (h : b.entryEdge? = some e) : b.Reaches e := ⟨[], .start h⟩

theorem Reaches.next (h : b.Reaches e) (way : Branch) : b.Reaches (b.out e.target way) :=
  h.imp' _ fun _ hw => hw.step way

theorem Reaches.cases (h : b.Reaches e) :
    b.entryEdge? = some e ∨ (∃ i way, e = b.edge i way) ∨ e = .exit := by
  obtain ⟨steps, hw⟩ := h
  cases hw with
  | start h => exact .inl h
  | @step steps e way hw =>
    cases e.target with
    | inst i => exact .inr (.inl ⟨i, way, rfl⟩)
    | ret => exact .inr (.inr rfl)

theorem entryEdge?_eq_some_iff :
    b.entryEdge? = some e ↔ ∃ i, b.entry? = some i ∧ e = .entry i := by
  rw [entryEdge?, Option.map_eq_some_iff]
  exact exists_congr fun i => and_congr_right fun _ => eq_comm

/-- An edge out of a node is reached through an edge into it. -/
theorem Reaches.exists_into {node : Node b.func.insts.size} {way : Branch}
    (h : b.Reaches (b.out node way)) : ∃ e, b.Reaches e ∧ e.target = node ∧ e ≠ .exit := by
  obtain ⟨steps, hw⟩ := h
  generalize hout : b.out node way = e at hw
  induction hw with
  | start h =>
    obtain ⟨i, -, rfl⟩ := entryEdge?_eq_some_iff.mp h
    cases node <;> cases hout
  | @step steps e way' hw ih =>
    have ht := eq_of_out_eq hout
    by_cases hexit : e = .exit
    · exact ih (by rw [hout, hexit]; rfl)
    · exact ⟨e, ⟨steps, hw⟩, ht.symm, hexit⟩

theorem Walk.exists_entry {steps : List (Node b.func.insts.size × Branch)}
    (hw : b.Walk steps e) : ∃ entry, b.entry? = some entry := by
  induction hw with
  | start h => exact (entryEdge?_eq_some_iff.mp h).imp fun _ h => h.1
  | step _ _ ih => exact ih

theorem WellListed.eq_edge_of_prev? (hb : b.WellListed) (h : b.Reaches e) {j k : b.InstIx}
    (ht : e.target = .inst j) (hk : b.prev? j = some k) : e = b.edge k .taken := by
  rcases h.cases with h | ⟨i, way, rfl⟩ | rfl
  · obtain ⟨i, hi, rfl⟩ := entryEdge?_eq_some_iff.mp h
    obtain rfl := Node.inst.inj ht
    cases (hb.prev?_entry hi).symm.trans hk
  · exact hb.edge_eq_of_prev? ht hk
  · cases ht

/-- A walk to an instruction comes along the edges between those that its block lists before. -/
theorem Checked.exists_before (hb : b.Checked) {steps : List (Node b.func.insts.size × Branch)}
    (hw : b.Walk steps e) {j : b.InstIx} (ht : e.target = .inst j) {m k : Nat}
    (hm : b.position? j = some m) (hk : k < m) :
    ∃ x y pre, (b.listed (b.blockOf j))[k]? = some x ∧ (b.listed (b.blockOf j))[k + 1]? = some y ∧
      (b.edge x .taken).target = .inst y ∧ pre <+: steps ∧ b.Walk pre (b.edge x .taken) := by
  induction hw generalizing j m k with
  | start h =>
    obtain ⟨i, hi, rfl⟩ := entryEdge?_eq_some_iff.mp h
    obtain rfl := Node.inst.inj ht
    obtain ⟨bb, -, hbb⟩ := Option.bind_eq_some_iff.mp hi
    cases (hb.position?_first hbb).symm.trans hm
    cases hk
  | @step steps e way hw ih =>
    have hstep := hw.step way
    cases htarget : e.target with
    | ret =>
      rw [htarget] at ht
      cases ht
    | inst i =>
      rw [htarget] at ht hstep
      rcases hb.follow_cases ht with ⟨hnext, hc⟩ | ⟨bb, hbb⟩
      · obtain ⟨q, hq, hblock, hj⟩ := hb.exists_position_of_next? hnext
        have hle := position?_le (hblock ▸ hj) hm
        rw [hblock]
        rcases Nat.lt_or_eq_of_le (Nat.le_of_lt_succ (Nat.lt_of_lt_of_le hk hle)) with hkq | rfl
        · obtain ⟨x, y, pre, hx, hy, hxy, hpre, hwalk⟩ := ih htarget hq hkq
          exact ⟨x, y, pre, hx, hy, hxy, hpre.trans (List.prefix_append _ _), hwalk⟩
        · have hedge : b.out (.inst i) way = b.edge i .taken := edge_of_not_conditional hc _ _
          rw [hedge] at ht hstep
          exact ⟨i, j, _, getElem?_of_position? hq, hj, ht, List.prefix_refl _, hstep⟩
      · cases (hb.position?_first hbb).symm.trans hm
        cases hk

theorem Checked.exists_prev (hb : b.Checked) {steps : List (Node b.func.insts.size × Branch)}
    (hw : b.Walk steps e) {j k : b.InstIx} (ht : e.target = .inst j) (hk : b.prev? j = some k) :
    (b.edge k .taken).target = .inst j ∧ ∃ pre, pre <+: steps ∧ b.Walk pre (b.edge k .taken) := by
  simp only [prev?] at hk
  split at hk
  · next m hm =>
    obtain ⟨x, y, pre, hx, hy, hxy, hpre, hwalk⟩ := hb.exists_before hw ht hm (Nat.lt_succ_self m)
    obtain rfl := Option.some.inj (hx.symm.trans hk)
    obtain rfl := Option.some.inj (hy.symm.trans (getElem?_of_position? hm))
    exact ⟨hxy, pre, hpre, hwalk⟩
  · cases hk
  · cases hk

/-- Whether the facts on an edge are taken to enter a node. What is not the first of its block is
entered from the instruction listed before it, whatever else leads there. -/
def feeds (b : Body) (e : Edge b.func.insts.size) : Node b.func.insts.size → Bool
  | .inst j =>
    match b.prev? j with
    | some k => e == b.edge k .taken
    | none => e.target == .inst j
  | .ret => e.target == .ret && e != .exit

theorem feeds_of_prev? {j k : b.InstIx} (h : b.prev? j = some k) :
    b.feeds e (.inst j) = true ↔ e = b.edge k .taken := by simp [feeds, h]

theorem feeds_of_no_prev? {j : b.InstIx} (h : b.prev? j = none) :
    b.feeds e (.inst j) = true ↔ e.target = .inst j := by simp [feeds, h]

theorem feeds_ret : b.feeds e .ret = true ↔ e.target = .ret ∧ e ≠ .exit := by simp [feeds]

/-- What feeds a node that walks come to leads there. -/
theorem Checked.target_of_feeds (hb : b.Checked) {e₀ : Edge b.func.insts.size}
    (h₀ : b.Reaches e₀) (h : b.feeds e e₀.target = true) : e.target = e₀.target ∧ e ≠ .exit := by
  cases ht : e₀.target with
  | ret => exact feeds_ret.mp (ht ▸ h)
  | inst j =>
    rw [ht] at h
    have htarget : e.target = .inst j := by
      cases hk : b.prev? j with
      | some k =>
        obtain ⟨steps, hw⟩ := h₀
        rw [(feeds_of_prev? hk).mp h]
        exact (hb.exists_prev hw ht hk).1
      | none => exact (feeds_of_no_prev? hk).mp h
    exact ⟨htarget, fun hexit => by simp [hexit, Edge.target] at htarget⟩

/-- Of the edges that walks reach, exactly those into a node feed it. -/
theorem WellListed.feeds_iff (hb : b.WellListed) {e₀ : Edge b.func.insts.size}
    (h₀ : b.Reaches e₀) (he : b.Reaches e) :
    b.feeds e e₀.target = true ↔ e.target = e₀.target ∧ e ≠ .exit := by
  refine ⟨hb.target_of_feeds h₀, fun ⟨ht, hexit⟩ => ?_⟩
  rw [← ht]
  cases htarget : e.target with
  | ret => exact feeds_ret.mpr ⟨htarget, hexit⟩
  | inst j =>
    cases hk : b.prev? j with
    | some k => exact (feeds_of_prev? hk).mpr (hb.eq_edge_of_prev? he htarget hk)
    | none => exact (feeds_of_no_prev? hk).mpr htarget

end Body

namespace EdgeLog

variable {b : Body} {log : EdgeLog b.func.insts.size} {i j : b.InstIx}

theorem mem_asked_ask {way : Branch} {entry : b.InstIx × Branch} :
    entry ∈ (log.ask i way).asked ↔ entry ∈ log.asked ∨ entry = (i, b.way i way) := by
  by_cases h : (i, b.way i way) ∈ log.asked
  · simp only [ask, if_pos h]
    exact ⟨.inl, fun h' => h'.elim id fun he => he ▸ h⟩
  · simp [ask, if_neg h]

theorem asked_subset_foldl_ask (terminators : List b.InstIx) (log : EdgeLog b.func.insts.size) :
    log.asked ⊆
      (terminators.foldl (fun log t => (log.ask t .taken).ask t .notTaken) log).asked := by
  induction terminators generalizing log with
  | nil => exact fun _ h => h
  | cons t terminators ih =>
    exact fun entry h => ih _ (mem_asked_ask.mpr (.inl (mem_asked_ask.mpr (.inl h))))

theorem asked_subset_inEdges : log.asked ⊆ (log.inEdges i).1.asked := by
  simp only [inEdges]
  split
  · exact fun entry h => mem_asked_ask.mpr (.inl h)
  · exact asked_subset_foldl_ask _ log

theorem edge_mem_edges {way : Branch} (h : (i, b.way i way) ∈ log.asked) :
    b.edge i way ∈ log.edges := by
  refine List.mem_map.mpr ⟨_, h, ?_⟩
  by_cases hc : b.isConditional i = true <;> simp [Body.edge, Body.way, hc]

/-- Of the edges that walks reach, exactly those that feed an instruction are taken to enter it. -/
theorem mem_inEdges_iff {e : Edge b.func.insts.size} (he : b.Reaches e)
    (ha : ∀ i way, e = b.edge i way → (i, b.way i way) ∈ log.asked) :
    e ∈ (log.inEdges j).2 ↔ b.feeds e (.inst j) = true := by
  cases hp : b.prev? j with
  | some k => simp only [inEdges, hp, List.mem_singleton, Body.feeds_of_prev? hp]
  | none =>
    simp only [inEdges, hp, List.mem_eraseDups, List.mem_append, List.mem_filter, Option.mem_toList,
      Option.filter_eq_some_iff, beq_iff_eq, Body.feeds_of_no_prev? hp]
    constructor
    · rintro (⟨-, ht⟩ | ⟨-, ht⟩) <;> exact ht
    · intro ht
      rcases he.cases with he | ⟨i, way, rfl⟩ | rfl
      · exact .inl ⟨he, ht⟩
      · have hasked := asked_subset_foldl_ask (b.predecessors (b.blockOf j)) log (ha i way rfl)
        exact .inr ⟨.inr (edge_mem_edges hasked), ht⟩
      · cases ht

/-- Of the edges that walks reach, exactly those into the return node are taken to return. -/
theorem mem_returnEdges_iff (hb : b.Checked) {e : Edge b.func.insts.size} (he : b.Reaches e)
    (ha : ∀ i way, e = b.edge i way → (i, b.way i way) ∈ log.asked) :
    e ∈ log.returnEdges ↔ b.feeds e .ret = true := by
  simp only [returnEdges, List.mem_map, List.mem_filter, Body.feeds_ret]
  constructor
  · rintro ⟨⟨i, way⟩, ⟨-, hl⟩, rfl⟩
    exact ⟨hb.follow_eq_ret_iff.mpr hl, by simp [Body.edge]⟩
  · rintro ⟨ht, hne⟩
    rcases he.cases with he | ⟨i, way, rfl⟩ | rfl
    · obtain ⟨i, -, rfl⟩ := Body.entryEdge?_eq_some_iff.mp he
      cases ht
    · refine ⟨_, ⟨ha i way rfl, hb.follow_eq_ret_iff.mp ht⟩, ?_⟩
      by_cases hc : b.isConditional i = true <;> simp [Body.edge, Body.way, hc]
    · exact absurd rfl hne

end EdgeLog

end LockUsage
