import LockUsage.Proofs.Convergence
import LockUsage.Proofs.FirstAnomaly

/-! Nothing is reported of a clean function. If no walk meets an anomaly, all walks keep the level
of the lock between -1 and 1, so whatever is filtered, grouped or replaced in a run, and whenever it
ends, the facts on each edge are at levels that walks have there. An operation that no walk finds
anomalous is then not anomalous at any fact that feeds it. -/

namespace LockUsage

namespace Body

/-- No terminator stands before the end of a block. -/
def TerminatorsLast (b : Body) : Prop :=
  ∀ bb, ∀ i ∈ (b.listed bb).dropLast, (b.kind i).isTerminator = false

instance (b : Body) : Decidable b.TerminatorsLast :=
  inferInstanceAs (Decidable (∀ bb, ∀ i ∈ (b.listed bb).dropLast, _))

variable {b : Body} {i j : b.InstIx}

theorem mem_dropLast_of_next? (h : b.next? i = some j) :
    i ∈ (b.listed (b.blockOf i)).dropLast := by
  simp only [next?] at h
  split at h
  · next k hk =>
    have hlt := (List.getElem?_eq_some_iff.mp h).1
    refine List.mem_of_getElem? (i := k) ?_
    rw [List.getElem?_dropLast, if_pos (by omega)]
    exact getElem?_of_position? hk
  · cases h

/-- What is no terminator leads on to what stands after it. -/
theorem WellListed.target_edge_of_prev? (hb : b.WellListed) (h : b.prev? j = some i)
    (hi : (b.kind i).isTerminator = false) (way : Branch) : (b.edge i way).target = .inst j := by
  simp only [edge, Edge.target, follow]
  cases hcase : b.kind i with
  | call | cmp | other => simp only [hb.next?_of_prev? h]
  | br | condBr | switch | ret | unreachable => simp [hcase, InstKind.isTerminator] at hi

theorem TerminatorsLast.isTerminator_of_prev? (h : b.TerminatorsLast) (hb : b.WellListed)
    (hi : b.prev? j = some i) : (b.kind i).isTerminator = false :=
  h _ i (mem_dropLast_of_next? (hb.next?_of_prev? hi))

theorem TerminatorsLast.target_of_feeds (hb : b.WellListed) (h : b.TerminatorsLast)
    {e : Edge b.func.insts.size} (he : b.feeds e (.inst j) = true) : e.target = .inst j := by
  cases hk : b.prev? j with
  | none => exact (feeds_of_no_prev? hk).mp he
  | some k =>
    rw [(feeds_of_prev? hk).mp he]
    exact hb.target_edge_of_prev? hk (h.isTerminator_of_prev? hb hk) .taken

end Body

namespace Problem

/-- No walk meets an anomaly. -/
def Clean (P : Problem) : Prop :=
  ∀ steps e, P.body.Walk steps e → ∃ last, P.replay .initial (steps.map Prod.fst) = .ok last

variable {P : Problem}

/-- It is enough that no operation is anomalous at a level at which a walk comes to it. -/
theorem clean_of_levels (h : ∀ steps e i op, P.body.Walk steps e → e.target = .inst i →
    P.op i = some op → P.anomalyAt op (P.level steps) = none) : P.Clean := by
  intro steps e hw
  induction hw with
  | start => exact ⟨_, rfl⟩
  | @step steps e way hw ih =>
    obtain ⟨last, hlast⟩ := ih
    rw [List.map_append, List.map_singleton, replay_append_singleton hlast]
    cases ht : e.target with
    | ret => exact ⟨last, rfl⟩
    | inst i =>
      rcases replay_inst (tracks_of_replay hlast).1 i with ⟨op, kind, hop, hk, -⟩ | ⟨-, g, hg, -⟩
      · cases (h steps e i op hw ht hop).symm.trans hk
      · exact ⟨g, hg⟩

theorem Clean.anomalyAt_eq_none (h : P.Clean) {steps : P.Route} {e : P.Edge}
    (hw : P.body.Walk steps e) {i : P.body.InstIx} (ht : e.target = .inst i) {op : LockOp}
    (hop : P.op i = some op) : P.anomalyAt op (P.level steps) = none := by
  obtain ⟨last, hlast⟩ := h steps e hw
  obtain ⟨next, hnext⟩ := h _ _ (hw.step .taken)
  rw [List.map_append, List.map_singleton, replay_append_singleton hlast, ht] at hnext
  rcases replay_inst (tracks_of_replay hlast).1 i with ⟨_, _, _, _, herr⟩ | ⟨hnone, -⟩
  · cases herr.symm.trans hnext
  · exact hnone op hop

theorem Clean.sign_level (h : P.Clean) {steps : P.Route} {e : P.Edge}
    (hw : P.body.Walk steps e) : (P.level steps).sign = P.level steps := by
  obtain ⟨last, hlast⟩ := h steps e hw
  exact (tracks_of_replay hlast).2

variable {t : FactTable P.body.func.insts.size}

/-- In a clean function, every fact is at the level of some walk to its edge. -/
theorem Clean.exists_walk (h : P.Clean) (hs : P.Sourced t) {e : P.Edge} {s : FactSet}
    (he : t.get? e = some s) {f : Fact} (hf : f ∈ s.facts) :
    ∃ steps, P.body.Walk steps e ∧ f.locks.Tracks P.lock (P.level steps) := by
  obtain ⟨n, hn, ⟨steps, hsource⟩, -⟩ := hs e s he f hf
  have hlevel := hsource.leaves.eq_level fun pre hpre => by
    obtain ⟨e', hw'⟩ := hsource.walk.exists_of_prefix hpre
    exact h.sign_level hw'
  exact ⟨steps, hsource.walk, hlevel ▸ hn⟩

/-- Every level in what feeds a node stands on an edge that feeds it, or collapsed from there. -/
theorem exists_of_mem_fed (hproper : ∀ e s, t.get? e = some s → s.Proper P.lock) {node : P.Node}
    {f : Fact} {n : Int} (hf : f ∈ (t.fed node).facts) (hn : f.locks.Tracks P.lock n) :
    ∃ e s, P.body.feeds e node = true ∧ t.get? e = some s ∧ ∃ g ∈ s.facts, ∃ k,
      g.locks.Tracks P.lock k ∧ Collapses k n := by
  have htracks : ∀ s ∈ t.feeding node, s.Tracks P.lock := fun s hs => by
    obtain ⟨e, -, he⟩ := FactTable.mem_feeding.mp hs
    exact (hproper e s he).tracks
  obtain ⟨n', hn', ⟨s, hs, hlevel⟩, -⟩ := FactSet.exists_of_mem_merge htracks hf
  obtain rfl := hn.unique hn'
  obtain ⟨e, hfeeds, he⟩ := FactTable.mem_feeding.mp hs
  exact ⟨e, s, hfeeds, he, hlevel⟩

theorem Clean.anomalies_eq_nil (h : P.Clean) (hb : P.body.WellListed)
    (hlast : P.body.TerminatorsLast) {s : P.State} (hr : P.Recorded s.edges s.facts)
    (hs : P.Sourced s.facts) (sites : List P.body.InstIx) : P.anomalies s sites = [] := by
  refine List.eq_nil_iff_forall_not_mem.mpr fun d hd => ?_
  obtain ⟨i, -, hd⟩ := hr.mem_anomalies_iff.mp hd
  obtain ⟨op, kind, hop, -, f, hf, n, hn, hk⟩ :=
    (mem_anomaliesAt_iff (hr.proper_fed _).tracks).mp hd
  obtain ⟨e, fs, hfeeds, he, g, hg, k, hgk, hkn⟩ := exists_of_mem_fed hr.proper hf hn
  obtain ⟨steps, hw, hlevel⟩ := h.exists_walk hs he hg
  obtain rfl := hgk.unique hlevel
  obtain rfl := hkn.eq_of_sign (h.sign_level hw)
  cases (h.anomalyAt_eq_none hw (hlast.target_of_feeds hb hfeeds) hop).symm.trans hk

/-- A fact with which a clean function is left is at the level of a walk that returns. -/
theorem Clean.exists_returning (h : P.Clean) (hs : P.Sourced t) {s : FactSet}
    (he : t.get? .exit = some s) {f : Fact} (hf : f ∈ s.facts) :
    ∃ steps e last, P.body.Walk steps e ∧ e.target = .ret ∧
      P.replay .initial (steps.map Prod.fst) = .ok last ∧
      (last.locks.holds P.lock = true ↔ f.locks.holds P.lock = true) := by
  obtain ⟨steps, hw, hn⟩ := h.exists_walk hs he hf
  generalize hexit : Edge.exit = e at hw
  cases hw with
  | start hentry =>
    obtain ⟨i, -, rfl⟩ := Body.entryEdge?_eq_some_iff.mp hentry
    cases hexit
  | @step steps e way hw =>
    have ht : e.target = .ret := by
      cases ht : e.target with
      | ret => rfl
      | inst i => rw [ht] at hexit; cases hexit
    obtain ⟨last, hlast⟩ := h steps e hw
    rw [level_append_singleton, ht, shift, Int.add_zero] at hn
    exact ⟨steps, e, last, hw, ht, hlast,
      (tracks_of_replay hlast).1.holds_iff.trans hn.holds_iff.symm⟩

/-- The facts of a run come from walks, also if it gave up. -/
theorem sourced_final (hb : P.body.WellListed) {entry : P.body.InstIx}
    (h : P.body.entry? = some entry) :
    P.Recorded (P.final entry).edges (P.final entry).facts ∧ P.Sourced (P.final entry).facts := by
  obtain ⟨s, hs, hfacts, hedges⟩ := iterate_exists (fun _ _ _ hs hpop => Traced.step hb hs hpop)
    P.maxSteps (traced_start h)
  rw [final, hfacts, hedges]
  exact ⟨hs.invariant.recorded, hs.sourced⟩

end Problem

/-- Where no walk meets an anomaly, nothing is reported, whatever is filtered, in whatever order and
however far the run goes. Where moreover no walk returns with the lock, the lock does not show at
the exit. -/
theorem Problem.clean_function_unreported {text : String} {p : Program} {func : FuncId} {f : Func}
    (hp : Program.parse text = .ok p) (hf : p.functions[func]? = some f) (source : AliasSource)
    (config : Config) (sites : SiteMap) (lock : TrackedLock) :
    ∃ b, Body.of? f = some b ∧
      (sites.InRange p func f → lock.value.InRange p →
        ∃ P, of? source config p func b sites lock = some P) ∧
      ∀ P, of? source config p func b sites lock = some P → b.TerminatorsLast → P.Clean →
        P.solve.log.diagnostics = [] ∧
        ((∀ steps e last, P.body.Walk steps e → e.target = .ret →
            P.replay .initial (steps.map Prod.fst) = .ok last →
            last.locks.holds lock.name = false) →
          P.solve.holdsAtExit lock.name = false) := by
  have hloaded := Program.loaded_of_parse hp
  obtain ⟨b, hb⟩ := hloaded.exists_body hf
  refine ⟨b, hb, fun hsites hlock => exists_of? hloaded hf hb source config hsites hlock,
    fun P hP hlast hclean => ?_⟩
  have hlisted := wellListed_of_of? hloaded hf hb hP
  have hname := lock_of_of? hP
  obtain rfl := body_of_of? hP
  cases hentry : P.body.entry? with
  | none => simp [solve, hentry, Log.empty, Result.holdsAtExit, Result.exit, FactTable.get?,
      FactSet.empty]
  | some entry =>
    obtain ⟨hr, hs⟩ := sourced_final hlisted hentry
    refine ⟨?_, fun hfree => ?_⟩
    · rw [diagnostics_solve hentry, hclean.anomalies_eq_nil hlisted hlast hr hs]
      rfl
    · rw [Result.holdsAtExit, Result.exit, facts_solve hentry, ← hname]
      cases hexit : (P.final entry).facts.get? .exit with
      | none => rfl
      | some s =>
        refine List.any_eq_false.mpr fun g hg hheld => ?_
        obtain ⟨steps, e, last, hw, ht, hlast, hiff⟩ := hclean.exists_returning hs hexit hg
        have hnot := hfree steps e last hw ht hlast
        rw [← hname] at hnot
        simp [hiff.mpr hheld] at hnot

/-- No operation of the loop is anomalous at the one level at which walks come to it. -/
theorem clean_polling : pollingProblem.Clean := by
  have hquiet : ∀ mark ∈ pollingMarks, ∀ i : pollingProblem.body.InstIx, mark.1.target = .inst i →
      ∀ op ∈ (pollingProblem.op i).toList, (pollingProblem.anomalyAt op mark.2).isNone := by
    decide +kernel
  exact Problem.clean_of_levels fun steps e i op hw ht hop =>
    Option.isNone_iff_eq_none.mp (hquiet _ (mem_pollingMarks hw) i ht op (by simp [hop]))

set_option maxRecDepth 1000 in
theorem polling_unreported :
    Program.parse pollingText = .ok polling ∧ polling.functions[2]? = some pollingFunc ∧
    Body.of? pollingFunc = some pollingBody ∧
    Problem.of? .names .default polling 2 pollingBody pollingSites polledLock =
      some pollingProblem ∧
    pollingBody.TerminatorsLast ∧ pollingProblem.Clean ∧
    pollingProblem.solve.log.diagnostics = [] ∧
    pollingProblem.solve.holdsAtExit "@l" = false := by
  have hparse : Program.parse pollingText = .ok polling :=
    (Program.parse_ofList _).trans (by decide +kernel)
  have hP : Problem.of? .names .default polling 2 pollingBody pollingSites polledLock =
      some pollingProblem :=
    Problem.of?_eq_pose (by decide +kernel) (by decide +kernel) (by decide +kernel)
  have hlast : pollingBody.TerminatorsLast := by decide +kernel
  have hreturn : ∀ mark ∈ pollingMarks, mark.1.target = .ret → mark.2 = 0 := by decide +kernel
  have hf : polling.functions[2]? = some pollingFunc := rfl
  obtain ⟨b, hb, -, hclean⟩ := Problem.clean_function_unreported hparse hf .names .default
    pollingSites polledLock
  obtain rfl : pollingBody = b := Option.some.inj hb
  obtain ⟨hnone, hfree⟩ := hclean pollingProblem hP hlast clean_polling
  refine ⟨hparse, hf, rfl, hP, hlast, clean_polling, hnone, hfree fun steps e last hw ht hr => ?_⟩
  have hzero : pollingProblem.level steps = 0 := hreturn _ (mem_pollingMarks hw) ht
  have htracks := (Problem.tracks_of_replay hr).1
  rw [hzero] at htracks
  exact Bool.eq_false_iff.mpr fun hheld => absurd (htracks.holds_iff.mp hheld) (by decide)

end LockUsage
