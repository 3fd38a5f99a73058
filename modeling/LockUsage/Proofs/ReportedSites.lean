import LockUsage.Proofs.CleanFunctions

/-! Where reports point. An operation is replayed on the facts of the edges that feed it, and only
edges that walks come to have facts. Such an edge leads to the operation, except behind a terminator
in the middle of a block: there the facts that leave the terminator are replayed on code that does
not run. -/

namespace LockUsage

namespace Body

/-- The instruction stands right behind a terminator that some walk comes to. -/
def FollowsTerminator (b : Body) (i : b.InstIx) : Prop :=
  ∃ k, b.prev? i = some k ∧ (b.kind k).isTerminator = true ∧ b.Visits k

variable {b : Body} {i : b.InstIx}

theorem visits_of_reaches_edge {way : Branch} (h : b.Reaches (b.edge i way)) : b.Visits i := by
  obtain ⟨steps, hw⟩ := h
  generalize he : b.edge i way = e at hw
  cases hw with
  | start hentry =>
    obtain ⟨first, -, rfl⟩ := entryEdge?_eq_some_iff.mp hentry
    cases he
  | @step steps e way' hw =>
    have hout : b.out (.inst i) way = b.out e.target way' := he
    exact ⟨e, ⟨steps, hw⟩, (eq_of_out_eq hout).symm⟩

/-- Where an edge feeds an instruction that walks do not come to, a terminator is in between. -/
theorem WellListed.visits_of_feeds (hb : b.WellListed) {e : Edge b.func.insts.size}
    (h : b.Reaches e) (he : b.feeds e (.inst i) = true) : b.Visits i ∨ b.FollowsTerminator i := by
  cases hk : b.prev? i with
  | none => exact .inl ⟨e, h, (feeds_of_no_prev? hk).mp he⟩
  | some k =>
    -- It is fed from the instruction before it, wherever the edge from there leads.
    rw [(feeds_of_prev? hk).mp he] at h
    cases hkind : (b.kind k).isTerminator with
    | true => exact .inr ⟨k, hk, hkind, visits_of_reaches_edge h⟩
    | false => exact .inl ⟨_, h, hb.target_edge_of_prev? hk hkind .taken⟩

theorem TerminatorsLast.not_followsTerminator (h : b.TerminatorsLast) (hb : b.WellListed) :
    ¬ b.FollowsTerminator i := by
  rintro ⟨k, hk, hkind, -⟩
  simp [h.isTerminator_of_prev? hb hk] at hkind

end Body

namespace Problem

variable {P : Problem}

theorem Recorded.exists_site {s : P.State} (hr : P.Recorded s.edges s.facts)
    {sites : List P.body.InstIx} {d : Diagnostic} (hd : d ∈ P.anomalies s sites) :
    ∃ i ∈ sites, d.site = some i.val ∧
      ∃ e, P.body.Reaches e ∧ P.body.feeds e (.inst i) = true := by
  obtain ⟨i, hi, hd⟩ := hr.mem_anomalies_iff.mp hd
  obtain ⟨op, kind, -, rfl, f, hf, n, hn, -⟩ :=
    (mem_anomaliesAt_iff (hr.proper_fed _).tracks).mp hd
  obtain ⟨e, fs, hfeeds, he, -⟩ := exists_of_mem_fed hr.proper hf hn
  exact ⟨i, hi, rfl, e, hr.reaches e fs he, hfeeds⟩

theorem site_of_mem_diagnostics (hb : P.body.WellListed) {d : Diagnostic}
    (hd : d ∈ P.solve.log.diagnostics) :
    ∃ i : P.body.InstIx, d.site = some i.val ∧
      (P.body.Visits i ∨ P.body.FollowsTerminator i) := by
  cases hentry : P.body.entry? with
  | none => simp [solve, hentry, Log.empty] at hd
  | some entry =>
    rw [diagnostics_solve hentry, List.mem_eraseDups] at hd
    obtain ⟨i, -, hsite, e, hreach, hfeeds⟩ := (sourced_final hb hentry).1.exists_site hd
    exact ⟨i, hsite, hb.visits_of_feeds hreach hfeeds⟩

end Problem

/-- Every report has a site. Some walk comes to it, or it stands right behind a terminator that some
walk comes to. Where terminators stand at the ends of blocks only, reports point at code that runs.
-/
theorem Problem.reported_sites {text : String} {p : Program} {func : FuncId} {f : Func}
    (hp : Program.parse text = .ok p) (hf : p.functions[func]? = some f) (source : AliasSource)
    (config : Config) (sites : SiteMap) (lock : TrackedLock) :
    ∃ b, Body.of? f = some b ∧
      (sites.InRange p func f → lock.value.InRange p →
        ∃ P, of? source config p func b sites lock = some P) ∧
      ∀ P, of? source config p func b sites lock = some P →
        ∀ d ∈ P.solve.log.diagnostics, ∃ i : b.InstIx, d.site = some i.val ∧
          (b.Visits i ∨ b.FollowsTerminator i) ∧ (b.TerminatorsLast → b.Visits i) := by
  have hloaded := Program.loaded_of_parse hp
  obtain ⟨b, hb⟩ := hloaded.exists_body hf
  refine ⟨b, hb, fun hsites hlock => exists_of? hloaded hf hb source config hsites hlock,
    fun P hP d hd => ?_⟩
  have hlisted := wellListed_of_of? hloaded hf hb hP
  obtain rfl := body_of_of? hP
  obtain ⟨i, hsite, hi⟩ := site_of_mem_diagnostics hlisted hd
  exact ⟨i, hsite, hi, fun hlast => hi.resolve_right (hlast.not_followsTerminator hlisted)⟩

theorem relocking_site_visited :
    Program.parse relockingText = .ok relocking ∧ relocking.functions[1]? = some relockingLoop ∧
    Body.of? relockingLoop = some relockingBody ∧
    Problem.of? .names unfiltered relocking 1 relockingBody relockingSites relockedLock =
      some relockingProblem ∧
    ⟨.doubleAcquire, "f", "@l", some 0⟩ ∈ relockingProblem.solve.log.diagnostics ∧
    relockingBody.TerminatorsLast ∧ relockingBody.Visits (0 : Fin 3) := by
  have hparse : Program.parse relockingText = .ok relocking :=
    (Program.parse_ofList _).trans (by decide +kernel)
  have hP : Problem.of? .names unfiltered relocking 1 relockingBody relockingSites relockedLock =
      some relockingProblem :=
    Problem.of?_eq_pose (by decide +kernel) (by decide +kernel) (by decide +kernel)
  have hd : ⟨.doubleAcquire, "f", "@l", some 0⟩ ∈ relockingProblem.solve.log.diagnostics := by
    decide +kernel
  have hlast : relockingBody.TerminatorsLast := by decide +kernel
  have hf : relocking.functions[1]? = some relockingLoop := rfl
  obtain ⟨b, hb, -, hsites⟩ := Problem.reported_sites hparse hf .names unfiltered relockingSites
    relockedLock
  obtain rfl : relockingBody = b := Option.some.inj hb
  obtain ⟨i, hsite, -, hvisits⟩ := hsites relockingProblem hP _ hd
  obtain rfl : (0 : Fin 3) = i := Fin.ext (Option.some.inj hsite)
  exact ⟨hparse, hf, rfl, hP, hd, hlast, hvisits hlast⟩

def leftoverText : String :=
  r#"["m",["l"],[["k",["x"]],["f",[],[["A",[["ret"],["call",null,"k",["@l"]],["ret"]]]]]]]"#

/-- Returns at once, and would then release its lock. -/
def leftoverFunc : Func where
  name := "f"
  params := []
  blocks := #[⟨"A", [0, 1, 2]⟩]
  insts := #[⟨none, 0, .ret none⟩, ⟨none, 0, .call (.direct 0) [.global 0]⟩, ⟨none, 0, .ret none⟩]

def leftover : Program := ⟨"m", #["l"], #[⟨"k", ["x"], #[], #[]⟩, leftoverFunc]⟩

def leftoverBody : Body := ⟨leftoverFunc, by decide +kernel⟩

def leftoverSites : SiteMap := .ofList [⟨1, .release, .global 0, false, 0⟩]

def leftoverLock : TrackedLock := ⟨"@l", ⟨1, .global 0⟩, false⟩

def leftoverProblem : Problem :=
  .pose .default leftover 1 leftoverBody leftoverLock [(1, some .release)]

def leftoverMarks : List (Edge leftoverBody.func.insts.size × Unit) :=
  [(.entry (0 : Fin 3), ()), (.flow (0 : Fin 3) .ret, ()), (.exit, ())]

theorem leftover_release_reported :
    Program.parse leftoverText = .ok leftover ∧ leftover.functions[1]? = some leftoverFunc ∧
    Body.of? leftoverFunc = some leftoverBody ∧
    Problem.of? .names .default leftover 1 leftoverBody leftoverSites leftoverLock =
      some leftoverProblem ∧
    leftoverProblem.solve.converged = true ∧
    ⟨.releaseWithoutAcquire, "f", "@l", some 1⟩ ∈ leftoverProblem.solve.log.diagnostics ∧
    ¬ leftoverBody.Visits (1 : Fin 3) := by
  have hmarks : ∀ mark ∈ leftoverMarks, mark.1.target ≠ .inst (1 : Fin 3) := by decide +kernel
  refine ⟨(Program.parse_ofList _).trans (by decide +kernel), rfl, rfl,
    Problem.of?_eq_pose (by decide +kernel) (by decide +kernel) (by decide +kernel),
    by decide +kernel, by decide +kernel, ?_⟩
  rintro ⟨e, ⟨steps, hw⟩, he⟩
  have hmem : (e, steps.foldl (fun _ _ => ()) ()) ∈ leftoverMarks :=
    hw.mem_of_closed (by decide +kernel) (by decide +kernel)
  exact hmarks _ hmem he

end LockUsage
