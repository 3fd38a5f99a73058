import LockUsage.Proofs.Balance

/-! What is reported. An anomaly is found at an instruction whose operation is anomalous at the
level of some fact that feeds it. -/

namespace LockUsage

namespace Problem

variable {P : Problem}

theorem mem_anomaliesAt_iff {i : P.body.InstIx} {s : FactSet} (hs : s.Tracks P.lock)
    {d : Diagnostic} :
    d ∈ P.anomaliesAt i s ↔ ∃ op kind, P.op i = some op ∧ d = P.anomaly i kind ∧
      ∃ f ∈ s.facts, ∃ n, f.locks.Tracks P.lock n ∧ P.anomalyAt op n = some kind := by
  cases hop : P.op i with
  | none => simp [anomaliesAt, hop]
  | some op =>
    simp only [anomaliesAt, hop, List.mem_filterMap, Option.map_eq_some_iff, Option.some.injEq]
    constructor
    · rintro ⟨f, hf, kind, hk, rfl⟩
      obtain ⟨n, hn⟩ := hs f hf
      exact ⟨op, kind, rfl, rfl, f, hf, n, hn, P.apply_anomaly hn op ▸ hk⟩
    · rintro ⟨op', kind, rfl, rfl, f, hf, n, hn, hk⟩
      exact ⟨f, hf, kind, (P.apply_anomaly hn op).trans hk, rfl⟩

theorem anomaliesAt_congr {i : P.body.InstIx} {s t : FactSet} (h : s.Equiv t)
    (hs : s.Tracks P.lock) (ht : t.Tracks P.lock) (d : Diagnostic) :
    d ∈ P.anomaliesAt i s ↔ d ∈ P.anomaliesAt i t := by
  have hmono {s t : FactSet} (h : s.Equiv t) {op : LockOp} {kind : DiagnosticKind}
      (hf : ∃ f ∈ s.facts, ∃ n, f.locks.Tracks P.lock n ∧ P.anomalyAt op n = some kind) :
      ∃ f ∈ t.facts, ∃ n, f.locks.Tracks P.lock n ∧ P.anomalyAt op n = some kind := by
    obtain ⟨f, hf, n, hn, hk⟩ := hf
    obtain ⟨g, hg, hkey⟩ := h.exists_mem hf
    exact ⟨g, hg, n, hn.of_key_eq (Fact.locks_key_eq hkey).symm, hk⟩
  rw [mem_anomaliesAt_iff hs, mem_anomaliesAt_iff ht]
  refine exists_congr fun op => exists_congr fun kind => and_congr_right fun _ =>
    and_congr_right fun _ => ⟨hmono h, hmono h.symm⟩

theorem Recorded.input {s : P.State} (hr : P.Recorded s.edges s.facts) (i : P.body.InstIx) :
    P.Recorded (P.input s i).1.edges (P.input s i).1.facts :=
  ⟨hr.reaches, fun j way fs h => EdgeLog.asked_subset_inEdges (hr.asked j way fs h), hr.proper⟩

theorem Recorded.input_eq_none {s : P.State} (hr : P.Recorded s.edges s.facts) {i : P.body.InstIx}
    (h : s.facts.feeding (.inst i) = []) : (P.input s i).2 = none := by
  have hfound : (s.edges.inEdges i).2.filterMap s.facts.get? = [] :=
    List.eq_nil_iff_forall_not_mem.mpr fun fs hfs => by
      simpa [h] using (hr.mem_found_iff i fs).mp hfs
  simp [Problem.input, hfound]

theorem Recorded.proper_fed {s : P.State} (hr : P.Recorded s.edges s.facts) (node : P.Node) :
    (s.facts.fed node).Proper P.lock :=
  FactSet.proper_merge fun _ hfs => hr.proper_of_feeding hfs

/-- The anomalies that are reported are those of the facts that feed the lock operations. -/
theorem Recorded.mem_anomalies_iff {s : P.State} (hr : P.Recorded s.edges s.facts)
    {sites : List P.body.InstIx} {d : Diagnostic} :
    d ∈ P.anomalies s sites ↔ ∃ i ∈ sites, d ∈ P.anomaliesAt i (s.facts.fed (.inst i)) := by
  induction sites generalizing s with
  | nil => simp [anomalies]
  | cons i sites ih =>
    have hrest : d ∈ P.anomalies (P.input s i).1 sites ↔
        ∃ j ∈ sites, d ∈ P.anomaliesAt j (s.facts.fed (.inst j)) := ih (hr.input i)
    simp only [anomalies, List.mem_append, List.exists_mem_cons_iff, hrest]
    refine or_congr_left ?_
    by_cases hfed : s.facts.feeding (.inst i) = []
    · have hempty : s.facts.fed (.inst i) = .empty := by rw [FactTable.fed, hfed]; rfl
      rw [hr.input_eq_none hfed, hempty, mem_anomaliesAt_iff FactSet.tracks_empty]
      simp [FactSet.empty]
    · obtain ⟨edges, facts, hinput, -, hp, heq⟩ := hr.exists_input hfed
      rw [hinput]
      exact anomaliesAt_congr heq hp.tracks (hr.proper_fed _).tracks d

end Problem

end LockUsage
