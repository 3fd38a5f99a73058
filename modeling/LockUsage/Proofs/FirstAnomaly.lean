import LockUsage.Proofs.Diagnostics
import LockUsage.Proofs.Fixpoints
import LockUsage.Proofs.Problems
import Mathlib.Data.List.Induction

/-! No walk hides its first anomaly. When infeasible paths are not dropped and a run converges, the
first anomaly that shows when the lock operations of a walk are replayed is reported: up to there
the level of the lock is its own sign, so grouping never changes it. -/

namespace LockUsage

namespace Problem

/-- Replays the operations of some nodes on a fact, up to the first anomaly. -/
def replay (P : Problem) : Fact → List P.Node → Except Diagnostic Fact
  | fact, [] => .ok fact
  | fact, .ret :: rest => P.replay fact rest
  | fact, .inst i :: rest =>
    match P.op i with
    | none => P.replay fact rest
    | some op =>
      match (P.apply op fact).2 with
      | some kind => .error (P.anomaly i kind)
      | none => P.replay (P.apply op fact).1 rest

variable {P : Problem}

theorem replay_append (fact : Fact) (nodes rest : List P.Node) :
    P.replay fact (nodes ++ rest) = (P.replay fact nodes).bind fun f => P.replay f rest := by
  induction nodes generalizing fact with
  | nil => rfl
  | cons node nodes ih =>
    cases node with
    | ret => simpa only [List.cons_append, replay] using ih fact
    | inst i =>
      cases hop : P.op i with
      | none => simpa only [List.cons_append, replay, hop] using ih fact
      | some op =>
        cases hk : (P.apply op fact).2 with
        | none => simpa only [List.cons_append, replay, hop, hk] using ih _
        | some kind => simp only [List.cons_append, replay, hop, hk, Except.bind]

theorem replay_append_singleton {fact f : Fact} {nodes : List P.Node}
    (h : P.replay fact nodes = .ok f) (node : P.Node) :
    P.replay fact (nodes ++ [node]) = P.replay f [node] := by
  rw [replay_append, h]
  rfl

theorem replay_inst {f : Fact} {n : Int} (hn : f.locks.Tracks P.lock n) (i : P.body.InstIx) :
    (∃ op kind, P.op i = some op ∧ P.anomalyAt op n = some kind ∧
      P.replay f [.inst i] = .error (P.anomaly i kind)) ∨
    ((∀ op, P.op i = some op → P.anomalyAt op n = none) ∧
      ∃ g, P.replay f [.inst i] = .ok g ∧ g.locks.Tracks P.lock (n + P.delta i)) := by
  cases hop : P.op i with
  | none =>
    refine .inr ⟨fun op h => (by cases h), f, by simp [replay, hop], ?_⟩
    rwa [P.delta_of_no_op hop, Int.add_zero]
  | some op =>
    have hanom := P.apply_anomaly hn op
    have htracks := P.tracks_apply hn op
    cases hk : P.anomalyAt op n with
    | some kind =>
      exact .inl ⟨op, kind, rfl, hk, by simp [replay, hop, hanom, hk]⟩
    | none =>
      refine .inr ⟨fun op' h => Option.some.inj h ▸ hk, (P.apply op f).1, ?_, ?_⟩
      · simp [replay, hop, hanom, hk]
      · rwa [P.delta_of_op hop]

/-- Without an anomaly a level between -1 and 1 stays there. -/
theorem sign_add_delta {n : Int} (hn : n.sign = n) {i : P.body.InstIx}
    (h : ∀ op, P.op i = some op → P.anomalyAt op n = none) :
    (n + P.delta i).sign = n + P.delta i := by
  cases hop : P.op i with
  | none => rwa [P.delta_of_no_op hop, Int.add_zero]
  | some op =>
    have hnone := h op hop
    rw [P.delta_of_op hop]
    have hcases : n = -1 ∨ n = 0 ∨ n = 1 := by
      rcases lt_trichotomy n 0 with h0 | rfl | h0
      · exact .inl (hn ▸ Int.sign_eq_neg_one_of_neg h0)
      · exact .inr (.inl rfl)
      · exact .inr (.inr (hn ▸ Int.sign_eq_one_of_pos h0))
    rcases hcases with rfl | rfl | rfl <;> cases op <;> simp_all [anomalyAt, LockOp.delta]

/-- A route without anomaly keeps the level of the lock between -1 and 1. -/
theorem tracks_of_replay {route : P.Route} {f : Fact}
    (h : P.replay .initial (route.map Prod.fst) = .ok f) :
    f.locks.Tracks P.lock (P.level route) ∧ (P.level route).sign = P.level route := by
  induction route using List.reverseRecOn generalizing f with
  | nil =>
    obtain rfl : Fact.initial = f := Except.ok.inj h
    exact ⟨LockState.tracks_empty P.lock, rfl⟩
  | append_singleton route step ih =>
    rw [List.map_append, List.map_singleton] at h
    cases hr : P.replay .initial (route.map Prod.fst) with
    | error d => simp [replay_append, hr, Except.bind] at h
    | ok f₀ =>
      obtain ⟨hn, hsign⟩ := ih hr
      rw [replay_append_singleton hr] at h
      rw [level_append_singleton]
      cases hnode : step.1 with
      | inst i =>
        rw [hnode] at h
        rcases replay_inst hn i with ⟨op, kind, -, -, herr⟩ | ⟨hnone, f', hf', hn'⟩
        · cases herr.symm.trans h
        · obtain rfl := Except.ok.inj (hf'.symm.trans h)
          exact ⟨hn', sign_add_delta hsign hnone⟩
      | ret =>
        rw [hnode] at h
        obtain rfl := Except.ok.inj h
        rw [shift, Int.add_zero]
        exact ⟨hn, hsign⟩

theorem replay_of_append {route rest : List P.Node} {f : Fact}
    (h : P.replay .initial (route ++ rest) = .ok f) : ∃ f₀, P.replay .initial route = .ok f₀ := by
  cases hr : P.replay .initial route with
  | error d => simp [replay_append, hr, Except.bind] at h
  | ok f₀ => exact ⟨f₀, rfl⟩

section Fixpoint

variable {t : FactTable P.body.func.insts.size}

/-- If nothing is dropped, every edge of a walk without anomaly carries its level. -/
theorem Fixpoint.exists_level_of_replay (ht : P.Fixpoint t) (hfilter : P.filter = false)
    {route : P.Route} {e : P.Edge} (hw : P.body.Walk route e) {f : Fact}
    (hr : P.replay .initial (route.map Prod.fst) = .ok f) :
    ∃ s, t.get? e = some s ∧ ∃ g ∈ s.facts, g.locks.Tracks P.lock (P.level route) := by
  induction hw generalizing f with
  | start h =>
    exact ⟨_, ht.entry _ h, .initial, List.mem_singleton.mpr rfl, LockState.tracks_empty P.lock⟩
  | @step route e way hw ih =>
    have hsign := (tracks_of_replay hr).2
    rw [List.map_append] at hr
    obtain ⟨f₀, hf₀⟩ := replay_of_append hr
    obtain ⟨s, hs, g, hg, hn⟩ := ih hf₀
    obtain ⟨s', hs', g', hg', k, m, hm, hnk, hkm, -⟩ := ht.exists_level_out hs hg hn way
      fun i _ g _ _ _ _ _ _ _ _ => P.pass?_isSome_of_filter hfilter _ _ g
    obtain rfl := hnk.eq_of_sign (tracks_of_replay hf₀).2
    rw [level_append_singleton] at hsign ⊢
    obtain rfl := hkm.eq_of_sign hsign
    exact ⟨s', hs', g', hg', hm⟩

/-- An anomaly that shows at the level of a fact on an edge into a lock operation is reported. -/
theorem Recorded.mem_anomalies (hb : P.body.WellListed) {s : P.State}
    (hr : P.Recorded s.edges s.facts) {sites : List P.body.InstIx} {i : P.body.InstIx}
    (hi : i ∈ sites) {e : P.Edge} {fs : FactSet} (he : s.facts.get? e = some fs)
    (ht : e.target = .inst i) {f : Fact} {n : Int} (hf : f ∈ fs.facts)
    (hn : f.locks.Tracks P.lock n) (hsign : n.sign = n) {op : LockOp} (hop : P.op i = some op)
    {kind : DiagnosticKind} (hk : P.anomalyAt op n = some kind) :
    P.anomaly i kind ∈ P.anomalies s sites := by
  have hexit : e ≠ .exit := fun hx => by simp [hx, Edge.target] at ht
  obtain ⟨g, hg, m, hm, hnm, -⟩ := exists_mem_merged he hexit hf hn
  obtain rfl := hnm.eq_of_sign hsign
  obtain ⟨g', hg', hkey⟩ := (hr.fed_equiv_merged hb he).symm.exists_mem hg
  rw [ht] at hg'
  refine hr.mem_anomalies_iff.mpr ⟨i, hi, (mem_anomaliesAt_iff (hr.proper_fed _).tracks).mpr ?_⟩
  exact ⟨op, kind, hop, rfl, g', hg', m, hm.of_key_eq (Fact.locks_key_eq hkey).symm, hk⟩

/-- The first anomaly of a walk is reported. -/
theorem Fixpoint.mem_anomalies_of_replay (hb : P.body.WellListed) {s : P.State}
    (hr : P.Recorded s.edges s.facts) (ht : P.Fixpoint s.facts) (hfilter : P.filter = false)
    (hsites : ∀ i op, P.op i = some op → i ∈ P.sites) {steps : P.Route} {e : P.Edge}
    (hw : P.body.Walk steps e) {d : Diagnostic}
    (hd : P.replay .initial (steps.map Prod.fst) = .error d) : d ∈ P.anomalies s P.sites := by
  induction hw with
  | start => cases hd
  | @step steps e way hw ih =>
    rw [List.map_append, List.map_singleton] at hd
    cases hf : P.replay .initial (steps.map Prod.fst) with
    | error d₀ =>
      rw [replay_append, hf] at hd
      exact ih (hf.trans hd)
    | ok f =>
      obtain ⟨hn, hsign⟩ := tracks_of_replay hf
      obtain ⟨fs, hfs, g, hg, hgn⟩ := ht.exists_level_of_replay hfilter hw hf
      rw [replay_append_singleton hf] at hd
      cases htarget : e.target with
      | inst i =>
        rw [htarget] at hd
        rcases replay_inst hn i with ⟨op, kind, hop, hk, herr⟩ | ⟨-, f', hf', -⟩
        · obtain rfl := Except.error.inj (herr.symm.trans hd)
          exact hr.mem_anomalies hb (hsites i op hop) hfs htarget hg hgn hsign hop hk
        · cases hf'.symm.trans hd
      | ret =>
        rw [htarget] at hd
        cases hd

/-- A walk without anomaly that returns with the lock held shows at the exit. -/
theorem Fixpoint.exists_held_of_replay (ht : P.Fixpoint t) (hfilter : P.filter = false)
    {steps : P.Route} {e : P.Edge} (hw : P.body.Walk steps e) {f : Fact}
    (hf : P.replay .initial (steps.map Prod.fst) = .ok f) (hret : e.target = .ret)
    (hheld : f.locks.holds P.lock = true) :
    ∃ s, t.get? .exit = some s ∧ ∃ g ∈ s.facts, g.locks.holds P.lock = true := by
  have hstep : P.replay .initial ((steps ++ [(e.target, Branch.taken)]).map Prod.fst) = .ok f := by
    rw [List.map_append, List.map_singleton, replay_append_singleton hf, hret]
    rfl
  obtain ⟨s, hs, g, hg, hgn⟩ := ht.exists_level_of_replay hfilter (hw.step .taken) hstep
  rw [hret] at hs
  exact ⟨s, hs, g, hg, hgn.holds_iff.mpr ((tracks_of_replay hstep).1.holds_iff.mp hheld)⟩

end Fixpoint

end Problem

/-- Without filtering, a run that converges reports the first anomaly of every walk, and knows of
every walk that leaves the function with the lock held. -/
theorem Problem.reports_first_anomaly {text : String} {p : Program} {func : FuncId} {f : Func}
    {b : Body} {source : AliasSource} {config : Config} {sites : SiteMap} {lock : TrackedLock}
    {P : Problem} (hp : Program.parse text = .ok p) (hf : p.functions[func]? = some f)
    (hb : Body.of? f = some b) (hP : of? source config p func b sites lock = some P)
    (hfilter : config.filterInfeasible = false) (hc : P.solve.converged = true)
    {steps : P.Route} {e : P.Edge} (hw : P.body.Walk steps e) :
    match P.replay .initial (steps.map Prod.fst) with
    | .error anomaly => anomaly ∈ P.solve.log.diagnostics
    | .ok last => e.target = .ret → last.locks.holds lock.name = true →
        P.solve.holdsAtExit lock.name = true := by
  rw [← lock_of_of? hP]
  have hlisted := wellListed_of_of? (Program.loaded_of_parse hp) hf hb hP
  have hoff := (filter_of_of? hP).trans hfilter
  obtain ⟨entry, hentry⟩ := hw.exists_entry
  obtain ⟨hi, ht⟩ := invariant_final hlisted hentry hc
  cases hr : P.replay .initial (steps.map Prod.fst) with
  | error d =>
    show d ∈ P.solve.log.diagnostics
    rw [diagnostics_solve hentry, List.mem_eraseDups]
    exact ht.mem_anomalies_of_replay hlisted hi.recorded hoff
      (fun i op hop => mem_sites_of_op hP hop) hw hr
  | ok last =>
    intro hret hheld
    obtain ⟨s, hs, g, hg, hgheld⟩ := ht.exists_held_of_replay hoff hw hr hret hheld
    rw [Result.holdsAtExit, Result.exit, facts_solve hentry, hs]
    exact List.any_eq_true.mpr ⟨g, hg, hgheld⟩

def relockingText : String :=
  r#"["m",["l"],[["k",["x"]],["f",["a"],[["A",[["call",null,"k",["@l"]],["cond_br","%a","A","B"]]],["B",[["ret"]]]]]]]"#

/-- Acquires its lock each time round a loop, and returns with it. -/
def relockingLoop : Func where
  name := "f"
  params := ["a"]
  blocks := #[⟨"A", [0, 1]⟩, ⟨"B", [2]⟩]
  insts := #[⟨none, 0, .call (.direct 0) [.global 0]⟩, ⟨none, 0, .condBr (.arg 0) 0 1⟩,
    ⟨none, 1, .ret none⟩]

def relocking : Program := ⟨"m", #["l"], #[⟨"k", ["x"], #[], #[]⟩, relockingLoop]⟩

def relockingBody : Body := ⟨relockingLoop, by decide +kernel⟩

def relockingSites : SiteMap := .ofList [⟨0, .acquire, .global 0, false, 0⟩]

def relockedLock : TrackedLock := ⟨"@l", ⟨1, .global 0⟩, false⟩

def unfiltered : Config := { Config.default with filterInfeasible := false }

def relockingProblem : Problem :=
  .pose unfiltered relocking 1 relockingBody relockedLock [(0, some .acquire)]

theorem relocking_loop_reported :
    Program.parse relockingText = .ok relocking ∧ relocking.functions[1]? = some relockingLoop ∧
    Body.of? relockingLoop = some relockingBody ∧
    Problem.of? .names unfiltered relocking 1 relockingBody relockingSites relockedLock =
      some relockingProblem ∧
    unfiltered.filterInfeasible = false ∧ relockingProblem.solve.converged = true ∧
    (∃ steps e, relockingProblem.body.Walk steps e ∧
      relockingProblem.replay .initial (steps.map Prod.fst) =
        .error ⟨.doubleAcquire, "f", "@l", some 0⟩) ∧
    ⟨.doubleAcquire, "f", "@l", some 0⟩ ∈ relockingProblem.solve.log.diagnostics ∧
    relockingProblem.solve.holdsAtExit "@l" = true := by
  have hparse : Program.parse relockingText = .ok relocking :=
    (Program.parse_ofList _).trans (by decide +kernel)
  have hP : Problem.of? .names unfiltered relocking 1 relockingBody relockingSites relockedLock =
      some relockingProblem :=
    Problem.of?_eq_pose (by decide +kernel) (by decide +kernel) (by decide +kernel)
  have hc : relockingProblem.solve.converged = true := by decide +kernel
  have hentry : relockingBody.Walk [] (.entry (0 : Fin 3)) := .start rfl
  -- Twice through the acquire, and once through it and out.
  have hround := Problem.reports_first_anomaly hparse rfl rfl hP rfl hc
    (hentry.along [.taken, .taken, .taken])
  have hout := Problem.reports_first_anomaly hparse rfl rfl hP rfl hc
    (hentry.along [.taken, .notTaken, .taken])
  have hanomaly : relockingProblem.replay .initial ((relockingBody.passing (.entry (0 : Fin 3))
      [.taken, .taken, .taken]).map Prod.fst) = .error ⟨.doubleAcquire, "f", "@l", some 0⟩ := by
    decide +kernel
  have hheld : relockingProblem.replay .initial ((relockingBody.passing (.entry (0 : Fin 3))
      [.taken, .notTaken, .taken]).map Prod.fst) = .ok ⟨⟨[⟨"@l", ""⟩], []⟩, .unconstrained⟩ := by
    decide +kernel
  rw [List.nil_append, hanomaly] at hround
  rw [List.nil_append, hheld] at hout
  exact ⟨hparse, rfl, rfl, hP, rfl, hc,
    ⟨_, _, hentry.along [.taken, .taken, .taken], hanomaly⟩, hround,
    hout (by decide +kernel) (by decide +kernel)⟩

end LockUsage
