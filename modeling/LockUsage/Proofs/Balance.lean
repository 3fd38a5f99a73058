import LockUsage.Proofs.SolverSteps

/-! The balance of a run. All along a run, a node that some edge with facts leads to is pending or
balanced: what stands on the edges out of it is what it passes on of the facts that feed it. A step
upsets the balance of nodes only that it makes pending. -/

namespace LockUsage

namespace Problem

variable {P : Problem}

/-- What stands on the edges out of a node is what it passes on of the facts that feed it. -/
def Balanced (P : Problem) (t : FactTable P.body.func.insts.size) (node : P.Node) : Prop :=
  ∀ way, ∃ fs, t.get? (P.body.out node way) = some fs ∧
    fs.Equiv (P.flowOut node way (t.fed node))

/-- What holds before and after every step of a run, and, but for the node taken up, all along a
step. -/
structure RunInvariant (P : Problem) (busy : Option P.Node) (s : P.State) : Prop where
  recorded : P.Recorded s.edges s.facts
  entry : ∀ e, P.body.entryEdge? = some e → s.facts.get? e = some (.single .initial)
  pending : ∀ node ∈ s.work.queue, ∃ e fs, s.facts.get? e = some fs ∧ e.target = node ∧ e ≠ .exit
  balanced : ∀ e fs, s.facts.get? e = some fs →
    e.target ∈ s.work.queue ∨ some e.target = busy ∨ P.Balanced s.facts e.target

theorem out_ne_entryEdge {e : P.Edge} (h : P.body.entryEdge? = some e) (node : P.Node)
    (way : Branch) : e ≠ P.body.out node way := by
  obtain ⟨i, -, rfl⟩ := Body.entryEdge?_eq_some_iff.mp h
  cases node <;> simp [Body.out, Body.edge]

section Sends

variable {s s' : P.State} {node : P.Node} {facts : FactSet}

theorem RunInvariant.puts (hb : P.body.Checked) {way : Branch}
    (hi : P.RunInvariant (some node) s) (h : P.Puts s s' (P.body.out node way) facts)
    (he : P.body.Reaches (P.body.out node way)) (hp : facts.Proper P.lock) :
    P.RunInvariant (some node) s' := by
  refine ⟨h.recorded hi.recorded he hp, fun e hentry => ?_, fun n hn => ?_, fun e fs hfs => ?_⟩
  · rw [h.get?_of_ne (out_ne_entryEdge hentry node way)]
    exact hi.entry e hentry
  · rcases h.mem_queue hn with hn | ⟨rfl, hexit⟩
    · obtain ⟨e, fs, hfs, ht, hexit⟩ := hi.pending n hn
      obtain ⟨new, hnew⟩ := h.exists_get? hfs
      exact ⟨e, new, hnew, ht, hexit⟩
    · obtain ⟨new, hnew, -, -⟩ := h.get?_self
      exact ⟨_, new, hnew, rfl, hexit⟩
  · -- Only the target of the edge can lose its balance, and it is pending then.
    by_cases hbusy : e.target = node
    · exact .inr (.inl (congrArg some hbusy))
    by_cases hpend : e.target ∈ s'.work.queue
    · exact .inl hpend
    have hsame (e' : P.Edge) (ht : e'.target = e.target) (hexit : e' ≠ .exit) :
        s'.facts.get? e' = s.facts.get? e' := by
      by_contra hne
      exact hpend (ht ▸ h.target_mem_queue hexit hne)
    have hold : s.facts.get? e = some fs := by
      by_cases hout : e = P.body.out node way
      · have hexit : e ≠ .exit := by
          rintro rfl
          cases node with
          | inst i => cases hout
          | ret => exact hbusy rfl
        rw [← hsame e rfl hexit, hfs]
      · rw [← h.get?_of_ne hout, hfs]
    rcases hi.balanced e fs hold with hq | hb' | hset
    · exact absurd (h.queue_subset hq) hpend
    · exact absurd (Option.some.inj hb') hbusy
    · refine .inr (.inr fun way' => ?_)
      obtain ⟨out, hout, heq⟩ := hset way'
      have hfed : (s.facts.fed e.target).Equiv (s'.facts.fed e.target) :=
        FactTable.fed_equiv fun e' hfeeds => by
          obtain ⟨ht, hexit⟩ := hb.target_of_feeds (hi.recorded.reaches e fs hold) hfeeds
          rw [hsame e' ht hexit]
          exact .refl _
      refine ⟨out, ?_, heq.trans (equiv_flowOut hfed _ _)⟩
      rw [h.get?_of_ne fun he => hbusy (Body.eq_of_out_eq he)]
      exact hout

theorem Sends.queue_subset {ways : List Branch} (h : P.Sends node facts ways s s') :
    s.work.queue ⊆ s'.work.queue := by
  induction h with
  | nil => exact fun _ h => h
  | cons hput _ ih => exact fun _ h => ih (hput.queue_subset h)

theorem Sends.get?_of_ne {ways : List Branch} (h : P.Sends node facts ways s s') {e : P.Edge}
    (he : ∀ way ∈ ways, e ≠ P.body.out node way) : s'.facts.get? e = s.facts.get? e := by
  induction h with
  | nil => rfl
  | cons hput _ ih =>
    rw [ih fun way hway => he way (List.mem_cons_of_mem _ hway),
      hput.get?_of_ne (he _ List.mem_cons_self)]

/-- Nothing changes if what is sent is there already. -/
theorem Sends.unchanged {ways : List Branch} (h : P.Sends node facts ways s s')
    (hset : ∀ way, ∃ fs, s.facts.get? (P.body.out node way) = some fs ∧
      fs.Equiv (P.flowOut node way facts)) : s'.facts = s.facts ∧ s'.work = s.work := by
  induction h with
  | nil => exact ⟨rfl, rfl⟩
  | @cons way ways s s₁ s' hput _ ih =>
    rcases hput.change with ⟨hfacts, hwork, -⟩ | ⟨-, -, hne⟩
    · obtain ⟨hfacts', hwork'⟩ := ih (hfacts ▸ hset)
      exact ⟨hfacts'.trans hfacts, hwork'.trans hwork⟩
    · obtain ⟨fs, hfs, heq⟩ := hset way
      exact absurd heq (hne fs hfs)

theorem Sends.target_mem_queue {ways : List Branch} (h : P.Sends node facts ways s s')
    {e : P.Edge} (hexit : e ≠ .exit) (hne : s'.facts.get? e ≠ s.facts.get? e) :
    e.target ∈ s'.work.queue := by
  induction h with
  | nil => exact absurd rfl hne
  | @cons way ways s s₁ s' hput hrest ih =>
    by_cases h₁ : s₁.facts.get? e = s.facts.get? e
    · exact ih (h₁ ▸ hne)
    · exact hrest.queue_subset (hput.target_mem_queue hexit h₁)

theorem Sends.get?_out {ways : List Branch} (h : P.Sends node facts ways s s')
    (hways : ways.Pairwise fun way way' => P.body.out node way ≠ P.body.out node way')
    {way : Branch} (hway : way ∈ ways) : ∃ fs, s'.facts.get? (P.body.out node way) = some fs ∧
      fs.Equiv (P.flowOut node way facts) := by
  induction h with
  | nil => cases hway
  | @cons first ways s s₁ s' hput hrest ih =>
    obtain ⟨hfirst, hways⟩ := List.pairwise_cons.mp hways
    rcases List.mem_cons.mp hway with rfl | hway
    · obtain ⟨fs, hfs, heq, -⟩ := hput.get?_self
      exact ⟨fs, (hrest.get?_of_ne hfirst).trans hfs, heq⟩
    · exact ih hways hway

theorem RunInvariant.sends (hb : P.body.Checked) {ways : List Branch}
    (h : P.Sends node facts ways s s') (he : ∀ way, P.body.Reaches (P.body.out node way))
    (hp : facts.Proper P.lock) (hi : P.RunInvariant (some node) s) :
    P.RunInvariant (some node) s' := by
  induction h with
  | nil => exact hi
  | cons hput _ ih => exact ih (hi.puts hb hput (he _) (proper_flowOut hp node _))

end Sends

theorem pairwise_out (hb : P.body.Checked) (node : P.Node) :
    (P.ways node).Pairwise fun way way' => P.body.out node way ≠ P.body.out node way' := by
  cases node with
  | inst i =>
    by_cases hc : P.body.isConditional i = true
    · simpa [ways, hc, Body.out] using hb.edge_taken_ne_notTaken hc
    · simp [ways, hc]
  | ret => simp [ways]

/-- Every way out of a node is like one of those on which facts are passed. -/
theorem exists_mem_ways (node : P.Node) (way : Branch) : ∃ way' ∈ P.ways node,
    P.body.out node way = P.body.out node way' ∧ ∀ facts, P.flowOut node way facts =
      P.flowOut node way' facts := by
  cases node with
  | inst i =>
    by_cases hc : P.body.isConditional i = true
    · exact ⟨way, by cases way <;> simp [ways, hc], rfl, fun _ => rfl⟩
    · refine ⟨.taken, by simp [ways, hc], ?_, fun facts => ?_⟩
      · exact Body.edge_of_not_conditional (by simpa using hc) _ _
      · simp only [flowOut, P.flow_of_not_conditional hc]
  | ret => exact ⟨.taken, by simp [ways], rfl, fun _ => rfl⟩

/-- Every instruction that an edge with facts leads to is fed. -/
def Fed (P : Problem) (t : FactTable P.body.func.insts.size) : Prop :=
  ∀ e fs j, t.get? e = some fs → e.target = .inst j → t.feeding (.inst j) ≠ []

/-- A node that is taken up passes on the merged facts of the edges that feed it. -/
theorem RunInvariant.exists_sends (hb : P.body.Checked) {s : P.State} {node : P.Node}
    {work : Worklist P.Node} (hi : P.RunInvariant none s) (hfed : P.Fed s.facts)
    (hpop : s.work.pop? = some (node, work)) :
    (∃ e fs, s.facts.get? e = some fs ∧ e.target = node ∧ e ≠ .exit) ∧
    ∃ s₁ facts, s₁.facts = s.facts ∧ s₁.work = work ∧ s.edges.asked ⊆ s₁.edges.asked ∧
      facts.Proper P.lock ∧ facts.Equiv (s.facts.fed node) ∧
      P.Sends node facts (P.ways node) s₁ (P.step { s with work } node) := by
  have hmem : node ∈ s.work.queue :=
    (Worklist.perm_of_pop? hpop).mem_iff.mpr List.mem_cons_self
  obtain ⟨e, fs, hfs, rfl, hexit⟩ := hi.pending node hmem
  have hrecorded : P.Recorded ({ s with work } : P.State).edges ({ s with work } : P.State).facts :=
    hi.recorded
  exact ⟨⟨e, fs, hfs, rfl, hexit⟩, hrecorded.exists_sends hb hfs fun j => hfed e fs j hfs⟩

theorem RunInvariant.step (hb : P.body.Checked) {s : P.State} {node : P.Node}
    {work : Worklist P.Node} (hi : P.RunInvariant none s) (hfed : P.Fed s.facts)
    (hpop : s.work.pop? = some (node, work)) :
    P.RunInvariant none (P.step { s with work } node) := by
  have hperm := Worklist.perm_of_pop? hpop
  obtain ⟨⟨e, fs, hfs, rfl, hexit⟩, s₁, facts, hfacts, hwork, hasked, hp, heq, hsends⟩ :=
    hi.exists_sends hb hfed hpop
  have hbusy : P.RunInvariant (some e.target) s₁ := by
    refine ⟨⟨?_, ?_, ?_⟩, ?_, fun n hn => ?_, fun e' fs' hfs' => ?_⟩
    · exact hfacts ▸ hi.recorded.reaches
    · exact fun i way fs h => hasked (hi.recorded.asked i way fs (hfacts ▸ h))
    · exact hfacts ▸ hi.recorded.proper
    · exact hfacts ▸ hi.entry
    · rw [hwork] at hn
      rw [hfacts]
      exact hi.pending n (hperm.mem_iff.mpr (List.mem_cons_of_mem _ hn))
    · rw [hfacts] at hfs' ⊢
      rw [hwork]
      rcases hi.balanced e' fs' hfs' with hq | hnone | hset
      · rcases List.mem_cons.mp (hperm.mem_iff.mp hq) with ht | hq
        · exact .inr (.inl (congrArg some ht))
        · exact .inl hq
      · cases hnone
      · exact .inr (.inr hset)
  have hreach := hi.recorded.reaches e fs hfs
  have hdone := hbusy.sends hb hsends hreach.next hp
  refine ⟨hdone.recorded, hdone.entry, hdone.pending, fun e' fs' hfs' => ?_⟩
  rcases hdone.balanced e' fs' hfs' with hq | ht | hset
  · exact .inl hq
  · -- The node that was taken up is balanced now, unless it is its own successor.
    obtain ht := Option.some.inj ht
    rw [ht]
    by_cases hpend : e.target ∈ (P.step { s with work } e.target).work.queue
    · exact .inl hpend
    · refine .inr (.inr fun way => ?_)
      obtain ⟨way', hway', hout, hflow⟩ := exists_mem_ways (P := P) e.target way
      obtain ⟨fs'', hfs'', heq''⟩ := hsends.get?_out (pairwise_out hb _) hway'
      refine ⟨fs'', hout ▸ hfs'', (heq''.trans ?_)⟩
      rw [← hflow]
      refine equiv_flowOut (heq.trans (FactTable.fed_equiv fun e' hfeeds => ?_)) _ _
      obtain ⟨ht', hx⟩ := hb.target_of_feeds hreach hfeeds
      have hsame : (P.step { s with work } e.target).facts.get? e' = s₁.facts.get? e' := by
        by_contra hne
        exact hpend (ht' ▸ hsends.target_mem_queue hx hne)
      rw [hsame, hfacts]
      exact .refl _
  · exact .inr (.inr hset)

/-- What every step preserves holds at the end of a run. -/
theorem iterate_preserves {Inv : P.State → Prop}
    (hstep : ∀ s node work, Inv s → s.work.pop? = some (node, work) →
      Inv (P.step { s with work } node))
    (n : Nat) {s : P.State} (hs : Inv s) (hc : (P.iterate n s).2.2 = true) :
    Inv (P.iterate n s).1 ∧ (P.iterate n s).1.work.queue = [] := by
  induction n generalizing s with
  | zero =>
    rw [iterate] at hc ⊢
    cases hpop : s.work.pop? with
    | none => exact ⟨hs, Worklist.pop?_eq_none_iff.mp hpop⟩
    | some next => simp [hpop] at hc
  | succ n ih =>
    rw [iterate] at hc ⊢
    cases hpop : s.work.pop? with
    | none => exact ⟨hs, Worklist.pop?_eq_none_iff.mp hpop⟩
    | some next =>
      simp only [hpop] at hc ⊢
      exact ih (hstep s next.1 next.2 hs hpop) hc

/-- At the end of a run that gave up, no more than the node that it dropped is lost. -/
theorem iterate_exists {Inv : P.State → Prop}
    (hstep : ∀ s node work, Inv s → s.work.pop? = some (node, work) →
      Inv (P.step { s with work } node))
    (n : Nat) {s : P.State} (hs : Inv s) :
    ∃ s', Inv s' ∧ (P.iterate n s).1.facts = s'.facts ∧ (P.iterate n s).1.edges = s'.edges := by
  induction n generalizing s with
  | zero =>
    rw [iterate]
    cases hpop : s.work.pop? with
    | none => exact ⟨s, hs, rfl, rfl⟩
    | some next => exact ⟨s, hs, rfl, rfl⟩
  | succ n ih =>
    rw [iterate]
    cases hpop : s.work.pop? with
    | none => exact ⟨s, hs, rfl, rfl⟩
    | some next => exact ih (hstep s next.1 next.2 hs hpop)

theorem get?_start {entry : P.body.InstIx} {e : P.Edge} {fs : FactSet} :
    (P.start entry).facts.get? e = some fs ↔ e = .entry entry ∧ fs = .single .initial := by
  rw [start, FactTable.get?_cons]
  by_cases he : e = .entry entry
  · simp [he, eq_comm]
  · simp [he, FactTable.get?]

theorem queue_start (entry : P.body.InstIx) : (P.start entry).work.queue = [.inst entry] := by
  rfl

theorem runInvariant_start {entry : P.body.InstIx} (h : P.body.entry? = some entry) :
    P.RunInvariant none (P.start entry) := by
  have hentry : P.body.entryEdge? = some (.entry entry) :=
    Body.entryEdge?_eq_some_iff.mpr ⟨entry, h, rfl⟩
  refine ⟨⟨?_, ?_, ?_⟩, ?_, ?_, ?_⟩
  · intro e fs hfs
    obtain ⟨rfl, -⟩ := get?_start.mp hfs
    exact .entry hentry
  · intro i way fs hfs
    cases (get?_start.mp hfs).1
  · intro e fs hfs
    obtain ⟨-, rfl⟩ := get?_start.mp hfs
    exact FactSet.proper_initial P.lock
  · intro e he
    obtain rfl := Option.some.inj (he.symm.trans hentry)
    exact get?_start.mpr ⟨rfl, rfl⟩
  · intro node hn
    rw [queue_start, List.mem_singleton] at hn
    exact ⟨_, _, get?_start.mpr ⟨rfl, rfl⟩, hn.symm, by simp⟩
  · intro e fs hfs
    obtain ⟨rfl, -⟩ := get?_start.mp hfs
    exact .inl (by simp [queue_start, Edge.target])

/-- The state in which a run ends from which its result is read off. -/
def final (P : Problem) (entry : P.body.InstIx) : P.State :=
  (P.iterate P.maxSteps (P.start entry)).1

theorem facts_solve {entry : P.body.InstIx} (h : P.body.entry? = some entry) :
    P.solve.facts = (P.final entry).facts := by simp [solve, h, final]

theorem diagnostics_solve {entry : P.body.InstIx} (h : P.body.entry? = some entry) :
    P.solve.log.diagnostics = (P.anomalies (P.final entry) P.sites).eraseDups := by
  simp [solve, h, final]

theorem converged_solve {entry : P.body.InstIx} (h : P.body.entry? = some entry) :
    P.solve.converged = (P.iterate P.maxSteps (P.start entry)).2.2 := by simp [solve, h]

theorem final_preserves {Inv : P.State → Prop} {entry : P.body.InstIx}
    (h : P.body.entry? = some entry) (hc : P.solve.converged = true) (hs : Inv (P.start entry))
    (hstep : ∀ s node work, Inv s → s.work.pop? = some (node, work) →
      Inv (P.step { s with work } node)) :
    Inv (P.final entry) ∧ (P.final entry).work.queue = [] :=
  iterate_preserves hstep P.maxSteps hs (converged_solve h ▸ hc)

end Problem

end LockUsage
