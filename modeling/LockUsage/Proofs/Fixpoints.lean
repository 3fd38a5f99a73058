import LockUsage.Proofs.Balance

/-! Runs on loaded programs that converge end in a fixpoint. There a node is fed by all edges into
it, so that a balanced node is settled: what stands on the edges out of it is what it passes on of
the facts on all edges into it. When nothing is pending any more, every node that is reached is
settled. -/

namespace LockUsage

namespace Problem

variable {P : Problem}

/-- What stands on the edges out of a node is what it passes on. -/
def Settled (P : Problem) (t : FactTable P.body.func.insts.size) (node : P.Node) : Prop :=
  ∀ way, ∃ fs, t.get? (P.body.out node way) = some fs ∧
    fs.Equiv (P.flowOut node way (t.merged node))

/-- What holds before and after every step of a run, and, but for the node taken up, all along a
step. -/
structure Invariant (P : Problem) (busy : Option P.Node) (s : P.State) : Prop where
  recorded : P.Recorded s.edges s.facts
  entry : ∀ e, P.body.entryEdge? = some e → s.facts.get? e = some (.single .initial)
  pending : ∀ node ∈ s.work.queue, ∃ e fs, s.facts.get? e = some fs ∧ e.target = node ∧ e ≠ .exit
  settled : ∀ e fs, s.facts.get? e = some fs →
    e.target ∈ s.work.queue ∨ some e.target = busy ∨ P.Settled s.facts e.target

theorem Recorded.settled_iff (hb : P.body.WellListed) {edges : EdgeLog P.body.func.insts.size}
    {t : FactTable P.body.func.insts.size} (hr : P.Recorded edges t) {e : P.Edge} {fs : FactSet}
    (he : t.get? e = some fs) : P.Settled t e.target ↔ P.Balanced t e.target := by
  have heq := hr.fed_equiv_merged hb he
  refine forall_congr' fun way => exists_congr fun s => and_congr_right fun _ => ?_
  have hflow := equiv_flowOut (P := P) heq e.target way
  exact ⟨fun h => h.trans hflow.symm, fun h => h.trans hflow⟩

theorem Recorded.isFed (hb : P.body.WellListed) {edges : EdgeLog P.body.func.insts.size}
    {t : FactTable P.body.func.insts.size} (hr : P.Recorded edges t) : P.Fed t :=
  fun _ _ _ he ht => hr.feeding_ne_nil hb he ht

theorem Invariant.run (hb : P.body.WellListed) {s : P.State} {busy : Option P.Node}
    (hi : P.Invariant busy s) : P.RunInvariant busy s :=
  ⟨hi.recorded, hi.entry, hi.pending, fun e fs he =>
    (hi.settled e fs he).imp_right (Or.imp_right (hi.recorded.settled_iff hb he).mp)⟩

theorem RunInvariant.invariant (hb : P.body.WellListed) {s : P.State} {busy : Option P.Node}
    (hi : P.RunInvariant busy s) : P.Invariant busy s :=
  ⟨hi.recorded, hi.entry, hi.pending, fun e fs he =>
    (hi.balanced e fs he).imp_right (Or.imp_right (hi.recorded.settled_iff hb he).mpr)⟩

/-- A node that is taken up passes on the merged facts of the edges into it. -/
theorem Invariant.exists_sends (hb : P.body.WellListed) {s : P.State} {node : P.Node}
    {work : Worklist P.Node} (hi : P.Invariant none s)
    (hpop : s.work.pop? = some (node, work)) :
    (∃ e fs, s.facts.get? e = some fs ∧ e.target = node ∧ e ≠ .exit) ∧
    ∃ s₁ facts, s₁.facts = s.facts ∧ s₁.work = work ∧ s.edges.asked ⊆ s₁.edges.asked ∧
      facts.Proper P.lock ∧ facts.Equiv (s.facts.merged node) ∧
      P.Sends node facts (P.ways node) s₁ (P.step { s with work } node) := by
  obtain ⟨⟨e, fs, he, rfl, hexit⟩, s₁, facts, hfacts, hwork, hasked, hp, heq, hsends⟩ :=
    (hi.run hb).exists_sends hb.toChecked (hi.recorded.isFed hb) hpop
  exact ⟨⟨e, fs, he, rfl, hexit⟩, s₁, facts, hfacts, hwork, hasked, hp,
    heq.trans (hi.recorded.fed_equiv_merged hb he), hsends⟩

theorem Invariant.step (hb : P.body.WellListed) {s : P.State} {node : P.Node}
    {work : Worklist P.Node} (hi : P.Invariant none s)
    (hpop : s.work.pop? = some (node, work)) :
    P.Invariant none (P.step { s with work } node) :=
  ((hi.run hb).step hb.toChecked (hi.recorded.isFed hb) hpop).invariant hb

theorem invariant_start {entry : P.body.InstIx} (h : P.body.entry? = some entry) :
    P.Invariant none (P.start entry) := by
  have hi := runInvariant_start h
  refine ⟨hi.recorded, hi.entry, hi.pending, fun e fs hfs => ?_⟩
  obtain ⟨rfl, -⟩ := get?_start.mp hfs
  exact .inl (by simp [queue_start, Edge.target])

/-- What a step does to the table: the edges out of one node get what the node passes on. -/
structure Advances (P : Problem) (t t' : FactTable P.body.func.insts.size) (node : P.Node) :
    Prop where
  out : ∀ way, ∃ s, t'.get? (P.body.out node way) = some s ∧
    s.Equiv (P.flowOut node way (t.merged node))
  frame : ∀ e, (∀ way, e ≠ P.body.out node way) → t'.get? e = t.get? e

theorem Invariant.advances (hb : P.body.WellListed) {s : P.State} {node : P.Node}
    {work : Worklist P.Node} (hi : P.Invariant none s)
    (hpop : s.work.pop? = some (node, work)) :
    P.Advances s.facts (P.step { s with work } node).facts node := by
  obtain ⟨-, s₁, facts, hfacts, -, -, -, heq, hsends⟩ := hi.exists_sends hb hpop
  constructor
  · intro way
    obtain ⟨way', hway', hout, hflow⟩ := exists_mem_ways node way
    obtain ⟨fs, hfs, hequiv⟩ := hsends.get?_out (pairwise_out hb.toChecked _) hway'
    exact ⟨fs, hout ▸ hfs, hflow _ ▸ hequiv.trans (equiv_flowOut heq node way')⟩
  · intro e he
    rw [hsends.get?_of_ne fun way _ => he way, hfacts]

/-- A table in which every node that has facts on an edge into it is settled. -/
structure Fixpoint (P : Problem) (t : FactTable P.body.func.insts.size) : Prop where
  entry : ∀ e, P.body.entryEdge? = some e → t.get? e = some (.single .initial)
  proper : ∀ e s, t.get? e = some s → s.Proper P.lock
  settled : ∀ e s, t.get? e = some s → P.Settled t e.target

theorem Invariant.fixpoint {s : P.State} (hi : P.Invariant none s) (hq : s.work.queue = []) :
    P.Fixpoint s.facts := by
  refine ⟨hi.entry, hi.recorded.proper, fun e fs hfs => ?_⟩
  rcases hi.settled e fs hfs with hpend | hbusy | hset
  · simp [hq] at hpend
  · cases hbusy
  · exact hset

theorem Fixpoint.exists_of_reaches {t : FactTable P.body.func.insts.size} (ht : P.Fixpoint t)
    {e : P.Edge} (he : P.body.Reaches e) : ∃ s, t.get? e = some s := by
  obtain ⟨steps, hw⟩ := he
  induction hw with
  | start h => exact ⟨_, ht.entry _ h⟩
  | step way _ ih =>
    obtain ⟨s, hs⟩ := ih
    exact (ht.settled _ s hs way).imp fun _ h => h.1

/-- No level on an edge into a node is lost when facts are merged there, but for its distance from
zero. -/
theorem exists_mem_merged {t : FactTable P.body.func.insts.size} {e : P.Edge} {s : FactSet}
    (he : t.get? e = some s) (hexit : e ≠ .exit) {f : Fact} {n : Int} (hf : f ∈ s.facts)
    (hn : f.locks.Tracks P.lock n) :
    ∃ g ∈ (t.merged e.target).facts, ∃ m, g.locks.Tracks P.lock m ∧ Collapses n m ∧
      (f.path.region = .top → g.path.region = .top) := by
  have hk : f.key ∈ (FactSet.unions (t.into e.target)).keys :=
    FactSet.mem_keys_unions.mpr
      ⟨s, FactTable.mem_into.mpr ⟨e, rfl, hexit, he⟩, FactSet.key_mem_keys hf⟩
  obtain ⟨f', hf', hkey⟩ := FactSet.mem_keys.mp hk
  obtain ⟨g, hg, m, hm, hnm, htop⟩ :=
    FactSet.exists_mem_group hf' (hn.of_key_eq (Fact.locks_key_eq hkey).symm)
  exact ⟨g, hg, m, hm, hnm, fun ht => htop ((Fact.region_eq hkey).trans ht)⟩

/-- Every level on an edge passes the node at its end, unless a branch there drops all facts that
have it. A fact without path conditions stays one where nothing is tested. -/
theorem Fixpoint.exists_level_out {t : FactTable P.body.func.insts.size} (ht : P.Fixpoint t)
    {e : P.Edge} {s : FactSet} (he : t.get? e = some s) {f : Fact} {n : Int} (hf : f ∈ s.facts)
    (hn : f.locks.Tracks P.lock n) (way : Branch)
    (hpass : ∀ i, e.target = .inst i → ∀ g ∈ (P.transfer i (t.merged e.target)).facts, ∀ k m,
      g.locks.Tracks P.lock m → Collapses n k → Collapses (k + P.delta i) m →
      (f.path.region = .top → g.path.region = .top) → P.body.isConditional i = true →
      (P.pass? (P.guard i).1 way g).isSome) :
    ∃ s', t.get? (P.body.out e.target way) = some s' ∧ ∃ g ∈ s'.facts, ∃ k m,
      g.locks.Tracks P.lock m ∧ Collapses n k ∧ Collapses (k + P.shift e.target) m ∧
      (f.path.region = .top → P.outcomeAt? (e.target, way) = none → g.path.region = .top) := by
  by_cases hexit : e = .exit
  · subst hexit
    exact ⟨s, he, f, hf, n, n, hn, .refl n, (Int.add_zero n).symm ▸ .refl n, fun htop _ => htop⟩
  · obtain ⟨g, hg, k, hk, hnk, htop⟩ := exists_mem_merged he hexit hf hn
    obtain ⟨s', hs', heq⟩ := ht.settled e s he way
    have hflow : ∃ g' ∈ (P.flowOut e.target way (t.merged e.target)).facts, ∃ m,
        g'.locks.Tracks P.lock m ∧ Collapses (k + P.shift e.target) m ∧
        (f.path.region = .top → P.outcomeAt? (e.target, way) = none →
          g'.path.region = .top) := by
      cases htarget : e.target with
      | inst i =>
        rw [htarget] at hg hpass
        have hpasses : ∀ h ∈ (P.transfer i (t.merged (.inst i))).facts, ∀ m,
            h.locks.Tracks P.lock m → Collapses (k + P.delta i) m →
            (g.path.region = .top → h.path.region = .top) → P.body.isConditional i = true →
            (P.pass? (P.guard i).1 way h).isSome :=
          fun h hh m hm hkm hgh hc => hpass i rfl h hh k m hm hnk hkm (hgh ∘ htop) hc
        obtain ⟨g', hg', m, hm, hkm, htop'⟩ := P.exists_mem_flow hg hk hpasses
        exact ⟨g', hg', m, hm, hkm, fun ht ho => htop' (htop ht) ho⟩
      | ret =>
        rw [htarget] at hg
        exact ⟨g, hg, k, hk, (Int.add_zero k).symm ▸ .refl k, fun ht _ => htop ht⟩
    obtain ⟨g', hg', m, hm, hkm, htop'⟩ := hflow
    obtain ⟨g'', hg'', hkey⟩ := heq.symm.exists_mem hg'
    exact ⟨s', hs', g'', hg'', k, m, hm.of_key_eq (Fact.locks_key_eq hkey).symm, hnk, hkm,
      fun ht ho => (Fact.region_eq hkey).trans (htop' ht ho)⟩

theorem invariant_final (hb : P.body.WellListed) {entry : P.body.InstIx}
    (h : P.body.entry? = some entry) (hc : P.solve.converged = true) :
    P.Invariant none (P.final entry) ∧ P.Fixpoint (P.final entry).facts := by
  obtain ⟨hi, hq⟩ := final_preserves h hc (invariant_start h) fun s node work hi hpop =>
    hi.step hb hpop
  exact ⟨hi, hi.fixpoint hq⟩

end Problem

end LockUsage
