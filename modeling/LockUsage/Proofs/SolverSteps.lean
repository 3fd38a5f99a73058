import LockUsage.Proofs.FlowFunctions
import LockUsage.Proofs.Walks

/-! What one step of a run does. A step takes up a node, merges the facts on the edges into it, and
puts the result on the edges out of it. The targets of edges whose facts change become pending, and
nothing else does. -/

namespace LockUsage

namespace FactTable

variable {n : Nat} {t : FactTable n}

theorem get?_cons (e e' : Edge n) (facts : FactSet) (t : FactTable n) :
    get? ((e', facts) :: t) e = if e = e' then some facts else t.get? e := by
  by_cases he : e = e'
  · simp [get?, he]
  · have hne : (e == e') = false := by simpa using he
    simp [get?, List.lookup_cons, hne, he]

theorem get?_put (t : FactTable n) (edge e : Edge n) (facts : FactSet) :
    (t.put edge facts).get? e = if e = edge then some facts else t.get? e := by
  induction t with
  | nil => rw [put, get?_cons]
  | cons entry t ih =>
    obtain ⟨e', old⟩ := entry
    by_cases h' : e' = edge
    · subst h'
      rw [put, if_pos rfl, get?_cons, get?_cons]
      by_cases he : e = e' <;> simp [he]
    · rw [put, if_neg h', get?_cons, get?_cons, ih]
      by_cases he : e = e'
      · simp [he, h']
      · simp [he]

theorem get?_put_self (t : FactTable n) (edge : Edge n) (facts : FactSet) :
    (t.put edge facts).get? edge = some facts := by rw [get?_put, if_pos rfl]

theorem get?_put_of_ne {edge e : Edge n} (h : e ≠ edge) (facts : FactSet) :
    (t.put edge facts).get? e = t.get? e := by rw [get?_put, if_neg h]

theorem mem_keys_of_get? {e : Edge n} {facts : FactSet} (h : t.get? e = some facts) :
    e ∈ t.map Prod.fst := by
  induction t with
  | nil => simp [get?] at h
  | cons entry t ih =>
    obtain ⟨e', old⟩ := entry
    rw [get?_cons] at h
    by_cases he : e = e'
    · simp [he]
    · rw [if_neg he] at h
      exact List.mem_cons_of_mem _ (ih h)

theorem mem_filterMap_get? {q : Edge n → Prop} [DecidablePred q] {facts : FactSet} :
    facts ∈ (t.map Prod.fst).filterMap (fun e => if q e then t.get? e else none) ↔
      ∃ e, q e ∧ t.get? e = some facts := by
  rw [List.mem_filterMap]
  constructor
  · rintro ⟨e, -, h⟩
    by_cases he : q e
    · exact ⟨e, he, by rwa [if_pos he] at h⟩
    · simp [if_neg he] at h
  · rintro ⟨e, he, h⟩
    exact ⟨e, mem_keys_of_get? h, by rw [if_pos he, h]⟩

/-- The sets on the edges into a node, but for the edge from the return node to itself. -/
def into (t : FactTable n) (node : Node n) : List FactSet :=
  (t.map Prod.fst).filterMap fun e => if e.target = node ∧ e ≠ .exit then t.get? e else none

theorem mem_into {node : Node n} {facts : FactSet} :
    facts ∈ t.into node ↔ ∃ e, e.target = node ∧ e ≠ .exit ∧ t.get? e = some facts := by
  rw [into, mem_filterMap_get?]
  exact exists_congr fun e => and_assoc

/-- The union of the sets on the edges into a node, grouped. -/
def merged (t : FactTable n) (node : Node n) : FactSet := .merge (t.into node)

variable {b : Body}

/-- The sets on the edges that feed a node. -/
def feeding (t : FactTable b.func.insts.size) (node : Node b.func.insts.size) : List FactSet :=
  (t.map Prod.fst).filterMap fun e => if b.feeds e node then t.get? e else none

theorem mem_feeding {t : FactTable b.func.insts.size} {node : Node b.func.insts.size}
    {facts : FactSet} :
    facts ∈ t.feeding node ↔ ∃ e, b.feeds e node = true ∧ t.get? e = some facts :=
  mem_filterMap_get?

/-- The union of the sets on the edges that feed a node, grouped. -/
def fed (t : FactTable b.func.insts.size) (node : Node b.func.insts.size) : FactSet :=
  .merge (t.feeding node)

end FactTable

namespace FactSet

theorem distinct_merge (sets : List FactSet) : (merge sets).Distinct := (distinct_unions sets).group

theorem merge_equiv {ss ts : List FactSet}
    (h : ∀ k, (∃ s ∈ ss, k ∈ s.keys) ↔ ∃ t ∈ ts, k ∈ t.keys) : (merge ss).Equiv (merge ts) := by
  have hu : (unions ss).Equiv (unions ts) := fun k => by
    rw [mem_keys_unions, mem_keys_unions, h]
  exact hu.group (distinct_unions ss) (distinct_unions ts)

theorem merge_equiv_of_mem_iff {ss ts : List FactSet} (h : ∀ s, s ∈ ss ↔ s ∈ ts) :
    (merge ss).Equiv (merge ts) :=
  merge_equiv fun _ => exists_congr fun s => and_congr_left fun _ => h s

end FactSet

namespace FactTable

theorem mem_keys_getD {n : Nat} {t : FactTable n} {e : Edge n} {k : LockKey × Region} :
    k ∈ ((t.get? e).getD .empty).keys ↔ ∃ s, t.get? e = some s ∧ k ∈ s.keys := by
  cases t.get? e <;> simp [FactSet.keys, FactSet.empty]

/-- The union of what stands on some edges depends on that only. -/
theorem merge_filterMap_get? {n : Nat} {t t' : FactTable n} {q : Edge n → Prop} [DecidablePred q]
    (h : ∀ e, q e → ((t.get? e).getD .empty).Equiv ((t'.get? e).getD .empty)) :
    (FactSet.merge ((t.map Prod.fst).filterMap fun e => if q e then t.get? e else none)).Equiv
      (.merge ((t'.map Prod.fst).filterMap fun e => if q e then t'.get? e else none)) := by
  have hkeys (t : FactTable n) (k : LockKey × Region) :
      (∃ s ∈ (t.map Prod.fst).filterMap fun e => if q e then t.get? e else none, k ∈ s.keys) ↔
        ∃ e, q e ∧ k ∈ ((t.get? e).getD .empty).keys := by
    simp only [mem_filterMap_get?, mem_keys_getD]
    constructor
    · rintro ⟨s, ⟨e, he, hs⟩, hk⟩
      exact ⟨e, he, s, hs, hk⟩
    · rintro ⟨e, he, s, hs, hk⟩
      exact ⟨s, ⟨e, he, hs⟩, hk⟩
  refine FactSet.merge_equiv fun k => ?_
  rw [hkeys, hkeys]
  exact exists_congr fun e => and_congr_right fun he => h e he k

theorem merged_equiv {n : Nat} {t t' : FactTable n} {node : Node n}
    (h : ∀ e, e.target = node ∧ e ≠ .exit →
      ((t.get? e).getD .empty).Equiv ((t'.get? e).getD .empty)) :
    (t.merged node).Equiv (t'.merged node) := merge_filterMap_get? h

theorem fed_equiv {b : Body} {t t' : FactTable b.func.insts.size} {node : Node b.func.insts.size}
    (h : ∀ e, b.feeds e node = true →
      ((t.get? e).getD .empty).Equiv ((t'.get? e).getD .empty)) :
    (t.fed node).Equiv (t'.fed node) := merge_filterMap_get? h

end FactTable

/-- What holds of all sets of facts in a run: no fact is there twice, all are on the lock that is
followed, and grouping changes nothing. -/
structure FactSet.Proper (name : String) (s : FactSet) : Prop where
  distinct : s.Distinct
  wellFormed : s.WellFormed
  tracks : s.Tracks name
  grouped : s.group.Equiv s

namespace FactSet

variable {name : String}

theorem proper_initial (name : String) : (single .initial).Proper name where
  distinct := distinct_single _
  wellFormed := by
    intro f hf
    obtain rfl := List.mem_singleton.mp hf
    exact PathState.wellFormed_unconstrained
  tracks := by
    intro f hf
    obtain rfl := List.mem_singleton.mp hf
    exact ⟨0, LockState.tracks_empty name⟩
  grouped := by
    rw [group_of_size_le_one (by simp [size, single])]
    exact .refl _

/-- Two facts in which the lock is in the same state say the same. -/
theorem Proper.key_eq {s : FactSet} (h : s.Proper name) {f g : Fact} {m n : Int}
    (hf : f ∈ s.facts) (hg : g ∈ s.facts) (hm : f.locks.Tracks name m)
    (hn : g.locks.Tracks name n) (hsign : m.sign = n.sign) : f.key = g.key := by
  obtain ⟨f', hf', hkf⟩ := h.grouped.symm.exists_mem hf
  obtain ⟨g', hg', hkg⟩ := h.grouped.symm.exists_mem hg
  rw [← hkf, ← hkg]
  exact key_eq_of_mem_group hf' hg' (hm.of_key_eq (Fact.locks_key_eq hkf).symm)
    (hn.of_key_eq (Fact.locks_key_eq hkg).symm) hsign

theorem proper_merge {sets : List FactSet} (h : ∀ s ∈ sets, s.Proper name) :
    (merge sets).Proper name where
  distinct := distinct_merge sets
  wellFormed := by
    refine WellFormed.group fun f hf => ?_
    obtain ⟨s, hs, hf⟩ := mem_of_mem_unions hf
    exact (h s hs).wellFormed f hf
  tracks := by
    refine Tracks.group fun f hf => ?_
    obtain ⟨s, hs, hf⟩ := mem_of_mem_unions hf
    exact (h s hs).tracks f hf
  grouped := group_group _

/-- Every level in a union, and every outcome recorded there, is found in one of the sets. -/
theorem exists_of_mem_merge {sets : List FactSet} (h : ∀ s ∈ sets, s.Tracks name) {f : Fact}
    (hf : f ∈ (merge sets).facts) : ∃ n, f.locks.Tracks name n ∧
      (∃ s ∈ sets, ∃ g ∈ s.facts, ∃ k, g.locks.Tracks name k ∧ Collapses k n) ∧
      ∀ entry ∈ f.path.conditions, ∃ s ∈ sets, ∃ g ∈ s.facts, ∃ k,
        g.locks.Tracks name k ∧ Collapses k n ∧ entry ∈ g.path.conditions := by
  have htracks : (unions sets).Tracks name := fun g hg => by
    obtain ⟨s, hs, hg⟩ := mem_of_mem_unions hg
    exact h s hs g hg
  obtain ⟨n, hn, ⟨g, hg, k, hk, hkn⟩, hentry⟩ := exists_of_mem_group htracks hf
  obtain ⟨s, hs, hg⟩ := mem_of_mem_unions hg
  refine ⟨n, hn, ⟨s, hs, g, hg, k, hk, hkn⟩, fun entry hen => ?_⟩
  obtain ⟨g, hg, k, hk, hkn, hen⟩ := hentry entry hen
  obtain ⟨s, hs, hg⟩ := mem_of_mem_unions hg
  exact ⟨s, hs, g, hg, k, hk, hkn, hen⟩

theorem merge_singleton {s : FactSet} (h : s.Proper name) : (merge [s]).Equiv s := by
  have hu : (unions [s]).Equiv s := fun k => by simp [mem_keys_unions]
  exact (hu.group (distinct_unions _) h.distinct).trans h.grouped

end FactSet

namespace Problem

variable {P : Problem}

theorem proper_transfer {s : FactSet} (h : s.Proper P.lock) (i : P.body.InstIx) :
    (P.transfer i s).Proper P.lock where
  distinct := P.distinct_transfer h.distinct i
  wellFormed := P.wellFormed_transfer h.wellFormed i
  tracks := P.tracks_transfer h.tracks
  grouped := by
    cases hop : P.op i with
    | none => rw [P.transfer_of_no_op hop]; exact h.grouped
    | some op => rw [P.transfer_of_op hop]; exact FactSet.group_group _

theorem proper_flow {s : FactSet} (h : s.Proper P.lock) (i : P.body.InstIx) (way : Branch) :
    (P.flow i way s).Proper P.lock where
  distinct := P.distinct_flow h.distinct i way
  wellFormed := P.wellFormed_flow h.wellFormed i way
  tracks := P.tracks_flow h.tracks
  grouped := by
    by_cases hc : P.body.isConditional i = true
    · rw [P.flow_of_conditional hc]
      exact FactSet.group_group _
    · rw [P.flow_of_not_conditional hc]
      exact (proper_transfer h i).grouped

/-- What a node passes on, on one way out of it. -/
def flowOut (P : Problem) : P.Node → Branch → FactSet → FactSet
  | .inst i, way, facts => P.flow i way facts
  | .ret, _, facts => facts

/-- How a node changes the level of the lock. -/
def shift (P : Problem) : P.Node → Int
  | .inst i => P.delta i
  | .ret => 0

/-- The outcome of the test at a node, if there is one that is tracked. -/
def outcomeAt? (P : Problem) : P.Node × Branch → Option (String × Bool)
  | (.inst i, way) => P.outcome? i way
  | (.ret, _) => none

/-- The nodes that a walk passes, with the ways out of them. -/
abbrev Route (P : Problem) : Type := List (P.Node × Branch)

/-- How far the acquires on a route outnumber the releases. -/
def level (P : Problem) : P.Route → Int
  | [] => 0
  | step :: rest => P.shift step.1 + P.level rest

theorem level_append_singleton (route : P.Route) (step : P.Node × Branch) :
    P.level (route ++ [step]) = P.level route + P.shift step.1 := by
  induction route with
  | nil => simp [level]
  | cons first route ih => simp only [List.cons_append, level, ih]; omega

theorem foldl_shift (route : P.Route) (n : Int) :
    route.foldl (fun n step => n + P.shift step.1) n = n + P.level route := by
  induction route generalizing n with
  | nil => simp [level]
  | cons step route ih => rw [List.foldl_cons, ih, level]; omega

theorem proper_flowOut {s : FactSet} (h : s.Proper P.lock) (node : P.Node) (way : Branch) :
    (P.flowOut node way s).Proper P.lock := by
  cases node with
  | inst i => exact proper_flow h i way
  | ret => exact h

theorem equiv_flowOut {s t : FactSet} (h : s.Equiv t) (node : P.Node) (way : Branch) :
    (P.flowOut node way s).Equiv (P.flowOut node way t) := by
  cases node with
  | inst i => exact P.equiv_flow h i way
  | ret => exact h

/-- The table holds facts on edges that walks reach only, and these edges were asked for. -/
structure Recorded (P : Problem) (edges : EdgeLog P.body.func.insts.size)
    (facts : FactTable P.body.func.insts.size) : Prop where
  reaches : ∀ e s, facts.get? e = some s → P.body.Reaches e
  asked : ∀ i way s, facts.get? (P.body.edge i way) = some s → (i, P.body.way i way) ∈ edges.asked
  proper : ∀ e s, facts.get? e = some s → s.Proper P.lock

theorem Recorded.asked_of_get? {edges : EdgeLog P.body.func.insts.size}
    {facts : FactTable P.body.func.insts.size} (h : P.Recorded edges facts) {e : P.Edge}
    {fs : FactSet} (he : facts.get? e = some fs) (i : P.body.InstIx) (way : Branch)
    (hedge : e = P.body.edge i way) : (i, P.body.way i way) ∈ edges.asked :=
  h.asked i way fs (hedge ▸ he)

/-- The sets that are looked up for an instruction are those on the edges that feed it. -/
theorem Recorded.mem_found_iff {edges : EdgeLog P.body.func.insts.size}
    {facts : FactTable P.body.func.insts.size} (h : P.Recorded edges facts) (j : P.body.InstIx)
    (fs : FactSet) :
    fs ∈ (edges.inEdges j).2.filterMap facts.get? ↔ fs ∈ facts.feeding (.inst j) := by
  rw [FactTable.mem_feeding, List.mem_filterMap]
  refine exists_congr fun e => and_congr_left fun he => ?_
  exact EdgeLog.mem_inEdges_iff (h.reaches e fs he) (h.asked_of_get? he)

theorem Recorded.proper_of_feeding {edges : EdgeLog P.body.func.insts.size}
    {facts : FactTable P.body.func.insts.size} (h : P.Recorded edges facts) {node : P.Node}
    {fs : FactSet} (hfs : fs ∈ facts.feeding node) : fs.Proper P.lock := by
  obtain ⟨e, -, he⟩ := FactTable.mem_feeding.mp hfs
  exact h.proper e fs he

/-- The facts that enter an instruction are those on the edges that feed it, merged. -/
theorem Recorded.exists_input {s : P.State} (h : P.Recorded s.edges s.facts) {j : P.body.InstIx}
    (hfed : s.facts.feeding (.inst j) ≠ []) :
    ∃ edges facts, P.input s j = ({ s with edges }, some facts) ∧
      s.edges.asked ⊆ edges.asked ∧ facts.Proper P.lock ∧
      facts.Equiv (s.facts.fed (.inst j)) := by
  have hmem := h.mem_found_iff j
  obtain ⟨fs, hfs⟩ := List.exists_mem_of_ne_nil _ hfed
  have hfound := (hmem fs).mpr hfs
  simp only [input]
  by_cases hlen : (s.edges.inEdges j).2.length > 1
  · rw [if_pos hlen, if_neg (by simpa using List.ne_nil_of_mem hfound)]
    refine ⟨_, _, rfl, EdgeLog.asked_subset_inEdges, ?_, FactSet.merge_equiv_of_mem_iff hmem⟩
    exact FactSet.proper_merge fun fs hfs => h.proper_of_feeding ((hmem fs).mp hfs)
  · rw [if_neg hlen]
    have hone : (s.edges.inEdges j).2.filterMap s.facts.get? = [fs] := by
      have hle := List.length_filterMap_le s.facts.get? (s.edges.inEdges j).2
      obtain ⟨fs', hfs'⟩ := List.length_eq_one_iff.mp
        (Nat.le_antisymm (by omega) (List.length_pos_of_mem hfound))
      rw [hfs', List.mem_singleton] at hfound
      rw [hfs', hfound]
    rw [hone, List.head?_cons]
    refine ⟨_, _, rfl, EdgeLog.asked_subset_inEdges, h.proper_of_feeding hfs, ?_⟩
    exact (FactSet.merge_singleton (h.proper_of_feeding hfs)).symm.trans
      (FactSet.merge_equiv_of_mem_iff fun fs => hone ▸ hmem fs)

/-- In a loaded program these are the facts on all edges into the node. -/
theorem Recorded.mem_feeding_iff (hb : P.body.WellListed) {edges : EdgeLog P.body.func.insts.size}
    {facts : FactTable P.body.func.insts.size} (h : P.Recorded edges facts) {e : P.Edge}
    {fs : FactSet} (he : facts.get? e = some fs) (fs' : FactSet) :
    fs' ∈ facts.feeding e.target ↔ fs' ∈ facts.into e.target := by
  rw [FactTable.mem_feeding, FactTable.mem_into]
  refine exists_congr fun e' => ?_
  rw [← and_assoc]
  exact and_congr_left fun he' => hb.feeds_iff (h.reaches e fs he) (h.reaches e' fs' he')

theorem Recorded.feeding_ne_nil (hb : P.body.WellListed) {edges : EdgeLog P.body.func.insts.size}
    {facts : FactTable P.body.func.insts.size} (h : P.Recorded edges facts) {e : P.Edge}
    {fs : FactSet} (he : facts.get? e = some fs) {j : P.body.InstIx} (ht : e.target = .inst j) :
    facts.feeding (.inst j) ≠ [] := by
  have hexit : e ≠ .exit := fun hx => by simp [hx, Edge.target] at ht
  have hmem := (h.mem_feeding_iff hb he fs).mpr (FactTable.mem_into.mpr ⟨e, rfl, hexit, he⟩)
  exact List.ne_nil_of_mem (ht ▸ hmem)

theorem Recorded.fed_equiv_merged (hb : P.body.WellListed)
    {edges : EdgeLog P.body.func.insts.size} {facts : FactTable P.body.func.insts.size}
    (h : P.Recorded edges facts) {e : P.Edge} {fs : FactSet} (he : facts.get? e = some fs) :
    (facts.fed e.target).Equiv (facts.merged e.target) :=
  FactSet.merge_equiv_of_mem_iff (h.mem_feeding_iff hb he)

/-- A set is put on an edge: what was there stays if it says the same, and otherwise the target of
the edge becomes pending. -/
structure Puts (P : Problem) (s s' : P.State) (e : P.Edge) (facts : FactSet) : Prop where
  asked_subset : s.edges.asked ⊆ s'.edges.asked
  asked : ∀ i way, e = P.body.edge i way → (i, P.body.way i way) ∈ s'.edges.asked
  change :
    (s'.facts = s.facts ∧ s'.work = s.work ∧
      ∃ old, s.facts.get? e = some old ∧ old.Equiv facts) ∨
    (s'.facts = s.facts.put e facts ∧
      s'.work = (if e = .exit then s.work else (s.work.push e.target).1) ∧
      ∀ old, s.facts.get? e = some old → ¬ old.Equiv facts)

theorem propagate_cases {s : P.State} {e : P.Edge} {facts : FactSet} (hd : facts.Distinct)
    (hold : ∀ old, s.facts.get? e = some old → old.Distinct) :
    (P.propagate s e facts).edges = s.edges ∧
      (((P.propagate s e facts).facts = s.facts ∧ (P.propagate s e facts).work = s.work ∧
        ∃ old, s.facts.get? e = some old ∧ old.Equiv facts) ∨
      ((P.propagate s e facts).facts = s.facts.put e facts ∧
        (P.propagate s e facts).work = (if e = .exit then s.work else (s.work.push e.target).1) ∧
        ∀ old, s.facts.get? e = some old → ¬ old.Equiv facts)) := by
  cases hget : s.facts.get? e with
  | none => simp [propagate, hget]
  | some old =>
    have hiff := FactSet.differsFrom_eq_false_iff hd (hold old hget)
    cases hdiff : facts.differsFrom old with
    | false =>
      refine ⟨by simp [propagate, hget, hdiff], .inl ?_⟩
      simpa [propagate, hget, hdiff] using (hiff.mp hdiff).symm
    | true =>
      refine ⟨by simp [propagate, hget, hdiff], .inr ?_⟩
      have hne : ¬ old.Equiv facts := fun he => by simp [hiff.mpr he.symm] at hdiff
      simpa [propagate, hget, hdiff] using hne

section Puts

variable {s s' : P.State} {e : P.Edge} {facts : FactSet}

theorem Puts.get?_of_ne (h : P.Puts s s' e facts) {e' : P.Edge} (hne : e' ≠ e) :
    s'.facts.get? e' = s.facts.get? e' := by
  rcases h.change with ⟨hf, -, -⟩ | ⟨hf, -, -⟩
  · rw [hf]
  · rw [hf, FactTable.get?_put_of_ne hne]

theorem Puts.get?_self (h : P.Puts s s' e facts) : ∃ new, s'.facts.get? e = some new ∧
    new.Equiv facts ∧ (new = facts ∨ s.facts.get? e = some new) := by
  rcases h.change with ⟨hf, -, old, hold, heq⟩ | ⟨hf, -, -⟩
  · exact ⟨old, hf ▸ hold, heq, .inr hold⟩
  · exact ⟨facts, hf ▸ FactTable.get?_put_self _ _ _, .refl _, .inl rfl⟩

theorem Puts.exists_get? (h : P.Puts s s' e facts) {e' : P.Edge} {fs : FactSet}
    (he : s.facts.get? e' = some fs) : ∃ fs', s'.facts.get? e' = some fs' := by
  by_cases hne : e' = e
  · obtain ⟨new, hnew, -, -⟩ := h.get?_self
    exact ⟨new, hne ▸ hnew⟩
  · exact ⟨fs, (h.get?_of_ne hne).trans he⟩

theorem Puts.queue_subset (h : P.Puts s s' e facts) : s.work.queue ⊆ s'.work.queue := by
  rcases h.change with ⟨-, hw, -⟩ | ⟨-, hw, -⟩
  · exact fun _ hn => hw ▸ hn
  · intro node hn
    rw [hw]
    split
    · exact hn
    · exact Worklist.mem_queue_push.mpr (.inl hn)

theorem Puts.mem_queue (h : P.Puts s s' e facts) {node : P.Node} (hn : node ∈ s'.work.queue) :
    node ∈ s.work.queue ∨ (node = e.target ∧ e ≠ .exit) := by
  rcases h.change with ⟨-, hw, -⟩ | ⟨-, hw, -⟩
  · exact .inl (hw ▸ hn)
  · rw [hw] at hn
    split at hn
    · exact .inl hn
    · next hne => exact (Worklist.mem_queue_push.mp hn).imp_right fun h => ⟨h, hne⟩

/-- An edge whose facts change has a pending target. -/
theorem Puts.target_mem_queue (h : P.Puts s s' e facts) {e' : P.Edge} (hexit : e' ≠ .exit)
    (hne : s'.facts.get? e' ≠ s.facts.get? e') : e'.target ∈ s'.work.queue := by
  rcases h.change with ⟨hf, -, -⟩ | ⟨hf, hw, -⟩
  · exact absurd (by rw [hf]) hne
  · obtain rfl : e' = e := by
      by_contra hne'
      exact hne (h.get?_of_ne hne')
    rw [hw, if_neg hexit]
    exact Worklist.mem_queue_push.mpr (.inr rfl)

theorem Puts.recorded (h : P.Puts s s' e facts) (hr : P.Recorded s.edges s.facts)
    (he : P.body.Reaches e) (hp : facts.Proper P.lock) : P.Recorded s'.edges s'.facts := by
  constructor
  · intro e' fs hfs
    by_cases hne : e' = e
    · exact hne ▸ he
    · exact hr.reaches e' fs (h.get?_of_ne hne ▸ hfs)
  · intro i way fs hfs
    by_cases hne : P.body.edge i way = e
    · exact h.asked i way hne.symm
    · exact h.asked_subset (hr.asked i way fs (h.get?_of_ne hne ▸ hfs))
  · intro e' fs hfs
    by_cases hne : e' = e
    · subst hne
      obtain ⟨new, hnew, -, hfrom⟩ := h.get?_self
      obtain rfl := Option.some.inj (hfs.symm.trans hnew)
      rcases hfrom with rfl | hold
      · exact hp
      · exact hr.proper e' fs hold
    · exact hr.proper e' fs (h.get?_of_ne hne ▸ hfs)

end Puts

/-- The ways out of a node on which it passes facts. -/
def ways (P : Problem) : P.Node → List Branch
  | .inst i => if P.body.isConditional i then [.taken, .notTaken] else [.taken]
  | .ret => [.taken]

/-- Facts that enter a node are passed on along some of the ways out of it, one after the other. -/
inductive Sends (P : Problem) (node : P.Node) (facts : FactSet) :
    List Branch → P.State → P.State → Prop
  | nil {s} : Sends P node facts [] s s
  | cons {way ways s s₁ s'} : P.Puts s s₁ (P.body.out node way) (P.flowOut node way facts) →
      Sends P node facts ways s₁ s' → Sends P node facts (way :: ways) s s'

theorem puts_send (hb : P.body.Checked) {s : P.State} (hr : P.Recorded s.edges s.facts)
    (i : P.body.InstIx) (way : Branch) {facts : FactSet} (hd : facts.Distinct) :
    P.Puts s (P.send s i way facts) (P.body.edge i way) facts := by
  obtain ⟨hedges, hchange⟩ := propagate_cases
    (s := { s with edges := s.edges.ask i way }) (e := P.body.edge i way) hd
    (fun old hold => (hr.proper _ old hold).distinct)
  refine ⟨?_, ?_, hchange⟩
  · intro entry he
    rw [send, hedges]
    exact EdgeLog.mem_asked_ask.mpr (.inl he)
  · intro j way' he
    rw [send, hedges]
    obtain ⟨rfl, hway⟩ := hb.way_eq_of_edge_eq he
    exact EdgeLog.mem_asked_ask.mpr (.inr (by rw [hway]))

theorem useGuard_facts (s : P.State) (i : P.body.InstIx) :
    (P.useGuard s i).facts = s.facts ∧ (P.useGuard s i).work = s.work ∧
      (P.useGuard s i).edges = s.edges := by
  by_cases h : i ∈ s.guarded <;> simp [useGuard, h]

/-- A step passes on the merged facts of the edges that feed the node that it takes up. -/
theorem Recorded.exists_sends (hb : P.body.Checked) {s : P.State}
    (hr : P.Recorded s.edges s.facts) {e : P.Edge} {fs : FactSet}
    (he : s.facts.get? e = some fs)
    (hfed : ∀ j, e.target = .inst j → s.facts.feeding (.inst j) ≠ []) :
    ∃ s₁ facts, s₁.facts = s.facts ∧ s₁.work = s.work ∧ s.edges.asked ⊆ s₁.edges.asked ∧
      facts.Proper P.lock ∧ facts.Equiv (s.facts.fed e.target) ∧
      P.Sends e.target facts (P.ways e.target) s₁ (P.step s e.target) := by
  have hreach (way : Branch) := (hr.reaches e fs he).next way
  cases ht : e.target with
  | inst i =>
    obtain ⟨edges, facts, hinput, hasked, hp, heq⟩ := hr.exists_input (hfed i ht)
    have hr₁ : P.Recorded edges s.facts :=
      ⟨hr.reaches, fun i way fs hfs => hasked (hr.asked i way fs hfs), hr.proper⟩
    simp only [ht] at hreach
    by_cases hc : P.body.isConditional i = true
    · obtain ⟨hfacts, hwork, hedges⟩ := useGuard_facts (P := P) { s with edges } i
      have hr₂ : P.Recorded (P.useGuard { s with edges } i).edges
          (P.useGuard { s with edges } i).facts := by rwa [hfacts, hedges]
      have hputs := puts_send hb hr₂ i .taken (P.distinct_flow hp.distinct i .taken)
      have hr₃ := hputs.recorded hr₂ (hreach .taken) (proper_flow hp i .taken)
      have hputs' := puts_send hb hr₃ i .notTaken (P.distinct_flow hp.distinct i .notTaken)
      refine ⟨_, facts, hfacts, hwork, fun _ h => hedges ▸ hasked h, hp, heq, ?_⟩
      have hstep : P.step s (.inst i) = P.send (P.send (P.useGuard { s with edges } i) i .taken
          (P.flow i .taken facts)) i .notTaken (P.flow i .notTaken facts) := by
        simp [step, stepInst, hinput, hc, flow]
      rw [hstep, ways, if_pos hc]
      exact .cons hputs (.cons hputs' .nil)
    · refine ⟨{ s with edges }, facts, rfl, rfl, hasked, hp, heq, ?_⟩
      have hstep : P.step s (.inst i) =
          P.send { s with edges } i .taken (P.flow i .taken facts) := by
        simp [step, stepInst, hinput, hc, flow]
      rw [hstep, ways, if_neg hc]
      exact .cons (puts_send hb hr₁ i .taken (P.distinct_flow hp.distinct i .taken)) .nil
  | ret =>
    have hmem (fs : FactSet) :
        fs ∈ s.edges.returnEdges.filterMap s.facts.get? ↔ fs ∈ s.facts.feeding .ret := by
      rw [FactTable.mem_feeding, List.mem_filterMap]
      refine exists_congr fun e' => and_congr_left fun he' => ?_
      exact EdgeLog.mem_returnEdges_iff hb (hr.reaches e' fs he') (hr.asked_of_get? he')
    have hp : (FactSet.merge (s.edges.returnEdges.filterMap s.facts.get?)).Proper P.lock :=
      FactSet.proper_merge fun fs hfs => hr.proper_of_feeding ((hmem fs).mp hfs)
    refine ⟨s, _, rfl, rfl, fun _ h => h, hp, FactSet.merge_equiv_of_mem_iff hmem, .cons ?_ .nil⟩
    obtain ⟨hedges, hchange⟩ := propagate_cases (P := P) (e := .exit) hp.distinct
      (fun old hold => (hr.proper _ old hold).distinct)
    refine ⟨fun _ h => ?_, fun i way h => ?_, hchange⟩
    · rwa [step, stepReturn, hedges]
    · cases h

end Problem

end LockUsage
