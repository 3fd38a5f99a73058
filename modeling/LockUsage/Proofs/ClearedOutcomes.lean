import LockUsage.Proofs.Provenance

/-! Outcomes that other walks bring to an instruction, and where they are cleared. Facts that meet
with the lock in one class are merged, and a merged fact records what was found on any of the walks
behind it, unless one of them brings no condition at all or another outcome of the same key. -/

namespace LockUsage

namespace Problem

variable {P : Problem}

/-- Every fact on the edge records the outcome: the edge leads out of its test, before which no
other equality on the subject was tested, or out of a node that only such edges lead to. -/
inductive Records (P : Problem) (outcome : String × Bool) : P.Edge → Prop
  | tested {node : P.Node} {way : Branch} : P.outcomeAt? (node, way) = some outcome →
      (∀ other e, P.body.Walk other e → e.target = node → ∀ entry ∈ P.outcomes other,
        SameKey entry.1 outcome.1 → entry.1 = outcome.1) →
      Records P outcome (P.body.out node way)
  | passed {node : P.Node} (way : Branch) :
      (∀ e, P.body.Reaches e → e.target = node → Records P outcome e) →
      Records P outcome (P.body.out node way)

/-- A walk to an instruction that may pass it with the lock in a class, and has found something that
rules out the outcome. -/
structure Rival (P : Problem) (outcome : String × Bool) (i : P.body.InstIx) (sign : Int)
    (other : P.Route) (n : Int) : Prop where
  walk : ∃ e, P.body.Walk other e ∧ e.target = .inst i
  opens : ∀ step ∈ other, P.Opens step
  leaves : P.MayLeave other n
  sign_eq : (n + P.delta i).sign = sign
  excludes : ∃ entry ∈ P.outcomes other, Excludes entry outcome.1 outcome.2

/-- What rules out an outcome is cleared at an instruction, for the lock in a class: by a walk that
has met no test; by a walk that brings the outcome itself, if its facts are not dropped before; or
earlier, at the instructions that its rivals come from. -/
inductive Clears (P : Problem) : String × Bool → P.body.InstIx → Int → Prop
  | absorbed {outcome : String × Bool} {i : P.body.InstIx} {sign : Int} {other : P.Route}
      {e : P.Edge} : P.body.Walk other e → e.target = .inst i → (∀ step ∈ other, P.Opens step) →
      P.outcomes other = [] → (∀ n, P.MayLeave other n → (n + P.delta i).sign = sign) →
      Clears P outcome i sign
  | cancelled {outcome : String × Bool} {i : P.body.InstIx} {sign : Int} {other : P.Route}
      {e : P.Edge} : P.body.Walk other e → e.target = .inst i → (∀ step ∈ other, P.Opens step) →
      (∀ pre j way entry, pre ++ [(.inst j, way)] <+: other → P.outcome? j way = some entry →
        P.outcomes pre ≠ [] → ∀ n, P.MayLeave pre n → Clears P entry j (n + P.delta j).sign) →
      P.Records outcome e → P.op i = none → (∀ n, P.MayLeave other n → n.sign = sign) →
      Clears P outcome i sign
  | before {outcome : String × Bool} {i : P.body.InstIx} {sign : Int} :
      (∀ other j way n, P.Rival outcome i sign (other ++ [(.inst j, way)]) n →
        ∀ entry, P.outcome? j way = some entry → ¬ Excludes entry outcome.1 outcome.2) →
      (∀ other j way n, P.Rival outcome i sign (other ++ [(.inst j, way)]) n →
        Clears P outcome j n.sign) →
      Clears P outcome i sign

theorem Clears.of_no_rival {outcome : String × Bool} {i : P.body.InstIx} {sign : Int}
    (h : ∀ other n, ¬ P.Rival outcome i sign other n) : P.Clears outcome i sign :=
  .before (fun _ _ _ _ hr => absurd hr (h _ _)) fun _ _ _ _ hr => absurd hr (h _ _)

/-- Whether something that rules out the outcome was found so far, after one more node. -/
def found (P : Problem) (outcome : String × Bool) (before : Bool) (step : P.Node × Branch) : Bool :=
  before || (P.outcomeAt? step).any fun entry => Excludes entry outcome.1 outcome.2

/-- An edge carries a level at which the walk may leave the lock. -/
def Keeps (P : Problem) (t : FactTable P.body.func.insts.size) (route : P.Route) (e : P.Edge) :
    Prop :=
  ∃ s, t.get? e = some s ∧ ∃ f ∈ s.facts, ∃ n, f.locks.Tracks P.lock n ∧ P.MayLeave route n

/-- No fact of a class rules out the outcome after an instruction. -/
def Admits (P : Problem) (t : FactTable P.body.func.insts.size) (outcome : String × Bool)
    (i : P.body.InstIx) (sign : Int) : Prop :=
  ∀ f ∈ (P.transfer i (t.merged (.inst i))).facts, ∀ m, f.locks.Tracks P.lock m →
    m.sign = sign → ∀ entry ∈ f.path.conditions, ¬ Excludes entry outcome.1 outcome.2

/-- A walk to an instruction on which something was found comes there from an instruction. -/
theorem exists_last {other : P.Route} {e : P.Edge} (hw : P.body.Walk other e) {i : P.body.InstIx}
    (ht : e.target = .inst i) {entry : String × Bool} (h : entry ∈ P.outcomes other) :
    ∃ route j way, other = route ++ [(.inst j, way)] ∧ e = P.body.edge j way := by
  cases hw with
  | start => cases h
  | @step route e' way hw =>
    cases htarget : e'.target with
    | inst j => exact ⟨route, j, way, rfl, rfl⟩
    | ret =>
      rw [htarget] at ht
      cases ht

section Recording

variable {entry : String × Bool} {s : FactSet}

/-- A fact passes a test with the outcome recorded, or has another equality on its subject. -/
theorem mem_pass? (hfilter : P.filter = true) {i : P.body.InstIx} {way : Branch}
    (hout : P.outcome? i way = some entry) {f g : Fact}
    (hg : P.pass? (P.guard i).1 way f = some g) : entry ∈ g.path.conditions ∨
      ∃ other ∈ f.path.conditions, SameKey other.1 entry.1 ∧ other.1 ≠ entry.1 := by
  obtain ⟨-, name, negated, hguard, rfl⟩ := P.guard_of_outcome? hout
  rw [hguard] at hg
  simp only [pass?, hfilter] at hg
  split at hg
  · next path hpath =>
    obtain rfl := Option.some.inj hg
    exact PathState.mem_assume? hpath
  · simp at hg

theorem pass?_isSome_of_not_excludes {i : P.body.InstIx} {way : Branch}
    (hout : P.outcome? i way = some entry) {f : Fact}
    (hf : ∀ other ∈ f.path.conditions, ¬ Excludes other entry.1 entry.2) :
    (P.pass? (P.guard i).1 way f).isSome := by
  obtain ⟨-, name, negated, hguard, rfl⟩ := P.guard_of_outcome? hout
  rw [hguard]
  cases hassume : f.path.assume? name (way.isTaken != negated) with
  | some path => simp [pass?, hassume]
  | none =>
    obtain ⟨other, hother, hex⟩ := PathState.exists_of_assume?_eq_none hassume
    exact absurd hex (hf other hother)

theorem mem_flowOut (hs : s.WellFormed) (hall : ∀ f ∈ s.facts, entry ∈ f.path.conditions)
    {node : P.Node} {way : Branch} {g : Fact} (hg : g ∈ (P.flowOut node way s).facts) :
    entry ∈ g.path.conditions := by
  cases node with
  | ret => exact hall g hg
  | inst i =>
    have htransfer : ∀ f ∈ (P.transfer i s).facts, entry ∈ f.path.conditions := by
      intro f hf
      cases hop : P.op i with
      | none => exact hall f (P.transfer_of_no_op hop s ▸ hf)
      | some op =>
        rw [P.transfer_of_op hop] at hf
        refine hs.mem_through (fun f g hf hg => ?_) (fun f hf g hg => ?_) hf
        · obtain rfl := Option.some.inj hg
          rwa [P.path_apply]
        · obtain rfl := Option.some.inj hg
          rw [P.path_apply]
          exact hall f hf
    by_cases hc : P.body.isConditional i = true
    · have hg : g ∈ ((P.transfer i s).through (P.pass? (P.guard i).1 way)).facts :=
        P.flow_of_conditional hc way s ▸ hg
      refine (P.wellFormed_transfer hs i).mem_through (fun f g hf hg => P.wellFormed_pass? hf hg)
        (fun f hf g hg => ?_) hg
      rcases P.pass?_cases hg with rfl | ⟨name, negated, path, -, hpath, rfl⟩
      · exact htransfer g hf
      · exact PathState.conditions_subset_assume? hpath (htransfer f hf)
    · exact htransfer g (P.flow_of_not_conditional hc way s ▸ hg)

end Recording

section Fixpoint

variable {t : FactTable P.body.func.insts.size} {outcome : String × Bool}

theorem Fixpoint.proper_merged (ht : P.Fixpoint t) (node : P.Node) :
    (t.merged node).Proper P.lock := by
  refine FactSet.proper_merge fun s hs => ?_
  obtain ⟨e, -, -, he⟩ := FactTable.mem_into.mp hs
  exact ht.proper e s he

theorem Fixpoint.wellFormed_unions (ht : P.Fixpoint t) (node : P.Node) :
    (FactSet.unions (t.into node)).WellFormed := by
  intro f hf
  obtain ⟨s, hs, hf⟩ := FactSet.mem_of_mem_unions hf
  obtain ⟨e, -, -, he⟩ := FactTable.mem_into.mp hs
  exact (ht.proper e s he).wellFormed f hf

/-- What stands on an edge out of a node is what the node passes on. -/
theorem Fixpoint.exists_mem_flowOut (ht : P.Fixpoint t) (hs : P.Sourced t) {node : P.Node}
    {way : Branch} {s : FactSet} (he : t.get? (P.body.out node way) = some s) {f : Fact}
    (hf : f ∈ s.facts) :
    ∃ g ∈ (P.flowOut node way (t.merged node)).facts, g.key = f.key := by
  obtain ⟨_, _, ⟨route, hroute⟩, -⟩ := hs _ s he f hf
  obtain ⟨e, hreach, rfl, -⟩ := Body.Reaches.exists_into ⟨route, hroute.walk⟩
  obtain ⟨s₀, hs₀⟩ := ht.exists_of_reaches hreach
  obtain ⟨s', hs', heq⟩ := ht.settled e s₀ hs₀ way
  obtain rfl := Option.some.inj (hs'.symm.trans he)
  exact heq.exists_mem hf

/-- Every outcome recorded in a fact that is about to pass a branch was found on a walk to the
branch that may have brought the lock there in the class of the fact. -/
theorem Sourced.exists_of_mem_transfer (hs : P.Sourced t)
    (hproper : ∀ e s, t.get? e = some s → s.Proper P.lock) {i : P.body.InstIx} {f : Fact} {m : Int}
    (hf : f ∈ (P.transfer i (t.merged (.inst i))).facts) (hm : f.locks.Tracks P.lock m)
    {entry : String × Bool} (hentry : entry ∈ f.path.conditions) :
    ∃ e s, t.get? e = some s ∧ e.target = .inst i ∧ ∃ g ∈ s.facts, entry ∈ g.path.conditions ∧
      ∃ k n other, g.locks.Tracks P.lock k ∧ Collapses k n ∧ Collapses (n + P.delta i) m ∧
        P.Source t e k other ∧ entry ∈ P.outcomes other := by
  have hmerged : (t.merged (.inst i)).Tracks P.lock := fun f hf =>
    (exists_of_mem_merged hproper hf).imp fun _ h => h.1
  obtain ⟨m', hm', -, hentries⟩ := P.exists_of_mem_transfer hmerged hf
  obtain rfl := hm.unique hm'
  obtain ⟨g, hg, n, hn, hnm, hen⟩ := hentries entry hentry
  obtain ⟨n', hn', -, hentries⟩ := exists_of_mem_merged hproper hg
  obtain rfl := hn.unique hn'
  obtain ⟨e, s, he, ht, -, g, hg, k, hk, hkn, hen⟩ := hentries entry hen
  obtain ⟨k', hk', -, hroutes⟩ := hs e s he g hg
  obtain rfl := hk.unique hk'
  obtain ⟨other, hother, hfound⟩ := hroutes entry hen
  exact ⟨e, s, he, ht, g, hg, hen, k, n, other, hk, hkn, hnm, hother, hfound⟩

/-- The last edge of a walk without tests carries a fact without conditions. -/
theorem Fixpoint.exists_top (ht : P.Fixpoint t) {route : P.Route} {e : P.Edge}
    (hw : P.body.Walk route e) (ho : ∀ step ∈ route, P.Opens step) (hu : P.outcomes route = []) :
    ∃ s, t.get? e = some s ∧ ∃ f ∈ s.facts, f.path.region = .top ∧
      ∃ n, f.locks.Tracks P.lock n ∧ P.MayLeave route n := by
  induction hw with
  | start h =>
    exact ⟨_, ht.entry _ h, .initial, List.mem_singleton.mpr rfl, rfl, 0,
      LockState.tracks_empty P.lock, .start⟩
  | @step route e way hw ih =>
    rw [outcomes, List.filterMap_append, List.append_eq_nil_iff] at hu
    have hstep : P.outcomeAt? (e.target, way) = none :=
      List.filterMap_eq_nil_iff.mp hu.2 _ (List.mem_singleton.mpr rfl)
    have hopen := ho _ (List.mem_append_right _ (List.mem_singleton.mpr rfl))
    obtain ⟨s, hs, f, hf, htop, n, hn, hleave⟩ :=
      ih (fun step h => ho step (List.mem_append_left _ h)) hu.1
    obtain ⟨s', hs', g, hg, k, m, hm, hnk, hkm, htop'⟩ := ht.exists_level_out hs hf hn way
      fun i htarget g _ k m _ _ _ _ hc => by
        rw [htarget] at hopen hstep
        exact pass?_isSome_of_opens hopen hstep hc g
    exact ⟨s', hs', g, hg, htop' htop hstep, m, hm,
      ((hleave.collapse hnk).step _ way).collapse hkm⟩

/-- A fact without conditions takes the place of all others of its class. -/
theorem Fixpoint.admits_of_untested (ht : P.Fixpoint t) {other : P.Route} {e : P.Edge}
    {i : P.body.InstIx} {sign : Int} (hw : P.body.Walk other e) (htarget : e.target = .inst i)
    (ho : ∀ step ∈ other, P.Opens step) (hu : P.outcomes other = [])
    (hlevel : ∀ n, P.MayLeave other n → (n + P.delta i).sign = sign) :
    P.Admits t outcome i sign := by
  intro f hf m hm hsign entry hentry
  obtain ⟨s, he, g, hg, htop, n, hn, hleave⟩ := ht.exists_top hw ho hu
  have hexit := Edge.ne_exit_of_target htarget
  obtain ⟨g₁, hg₁, k, hk, hnk, htop₁⟩ := exists_mem_merged he hexit hg hn
  rw [htarget] at hg₁
  obtain ⟨g₂, hg₂, l, hl, hkl, htop₂⟩ := P.exists_mem_transfer (i := i) hg₁ hk
  have hsame : l.sign = m.sign :=
    hkl.sign_eq.trans ((hlevel k (hleave.collapse hnk)).trans hsign.symm)
  have hkey := (proper_transfer (ht.proper_merged _) i).key_eq hg₂ hf hl hm hsame
  have hregion := (Fact.region_eq hkey).symm.trans (htop₂ (htop₁ htop))
  simp [PathState.conditions, hregion] at hentry

/-- A walk keeps its facts if they are admitted at each of its tests but the first. -/
theorem Fixpoint.keeps_of_admits (ht : P.Fixpoint t) {route : P.Route} {e : P.Edge}
    (hw : P.body.Walk route e) (ho : ∀ step ∈ route, P.Opens step)
    (h : ∀ pre i way entry, pre ++ [(.inst i, way)] <+: route → P.outcome? i way = some entry →
      P.outcomes pre ≠ [] → P.filter = true → ∀ n, P.MayLeave pre n →
      P.Admits t entry i (n + P.delta i).sign) : P.Keeps t route e := by
  induction hw with
  | start hentry =>
    exact ⟨_, ht.entry _ hentry, .initial, List.mem_singleton.mpr rfl, 0,
      LockState.tracks_empty P.lock, .start⟩
  | @step route e way hw ih =>
    have hopen := ho _ (List.mem_append_right _ (List.mem_singleton.mpr rfl))
    have ho' : ∀ step ∈ route, P.Opens step := fun step hs => ho step (List.mem_append_left _ hs)
    have hih := ih ho' fun pre i way entry hpre =>
      h pre i way entry (hpre.trans (List.prefix_append _ _))
    -- Before the first test there is a fact without conditions.
    obtain ⟨s, hs, f, hf, n, hn, hleave, htop⟩ : ∃ s, t.get? e = some s ∧ ∃ f ∈ s.facts, ∃ n,
        f.locks.Tracks P.lock n ∧ P.MayLeave route n ∧
        (P.outcomes route = [] → f.path.region = .top) := by
      by_cases hu : P.outcomes route = []
      · obtain ⟨s, hs, f, hf, htop, n, hn, hleave⟩ := ht.exists_top hw ho' hu
        exact ⟨s, hs, f, hf, n, hn, hleave, fun _ => htop⟩
      · obtain ⟨s, hs, f, hf, n, hn, hleave⟩ := hih
        exact ⟨s, hs, f, hf, n, hn, hleave, fun h => absurd h hu⟩
    obtain ⟨s', hs', g, hg, k, m, hm, hnk, hkm, -⟩ := ht.exists_level_out hs hf hn way
      fun i htarget g hg k m hm hnk hkm hfg hc => by
        rw [htarget] at hopen hg h
        by_cases hfilter : P.filter = true
        · cases hout : P.outcome? i way with
          | none => exact pass?_isSome_of_opens hopen hout hc g
          | some entry =>
            refine pass?_isSome_of_not_excludes hout fun other hother => ?_
            by_cases hu : P.outcomes route = []
            · simp [PathState.conditions, hfg (htop hu)] at hother
            · exact h route i way entry (List.prefix_refl _) hout hu hfilter k
                (hleave.collapse hnk) g hg m hm hkm.sign_eq other hother
        · exact P.pass?_isSome_of_filter (Bool.eq_false_iff.mpr hfilter) _ _ g
    exact ⟨s', hs', g, hg, m, hm, ((hleave.collapse hnk).step _ way).collapse hkm⟩

variable (hfilter : P.filter = true) (ht : P.Fixpoint t) (hs : P.Sourced t)
include hfilter ht hs

theorem Records.mem {e : P.Edge} (h : P.Records outcome e) {s : FactSet}
    (he : t.get? e = some s) {f : Fact} (hf : f ∈ s.facts) : outcome ∈ f.path.conditions := by
  induction h generalizing s f with
  | @tested node way hout hfirst =>
    obtain ⟨g, hg, hkey⟩ := ht.exists_mem_flowOut hs he hf
    rw [← Fact.conditions_eq hkey]
    cases node with
    | ret => cases hout
    | inst i =>
      have hc := (P.guard_of_outcome? hout).1
      have hmerged := ht.proper_merged (.inst i)
      have hg : g ∈ ((P.transfer i (t.merged (.inst i))).through
          (P.pass? (P.guard i).1 way)).facts := P.flow_of_conditional hc way _ ▸ hg
      refine (P.wellFormed_transfer hmerged.wellFormed i).mem_through
        (fun f g hf hg => P.wellFormed_pass? hf hg) (fun f hf g hg => ?_) hg
      rcases mem_pass? hfilter hout hg with hmem | ⟨entry, hentry, hsame, hne⟩
      · exact hmem
      · -- Another equality on the subject would have been found on a walk to the test.
        obtain ⟨m, hm⟩ := P.tracks_transfer hmerged.tracks f hf
        obtain ⟨e', _, _, ht', _, _, _, _, _, other, _, _, _, hother, hfound⟩ :=
          hs.exists_of_mem_transfer ht.proper hf hm hentry
        exact absurd (hfirst other e' hother.walk ht' entry hfound hsame) hne
  | @passed node way hinto ih =>
    obtain ⟨g, hg, hkey⟩ := ht.exists_mem_flowOut hs he hf
    rw [← Fact.conditions_eq hkey]
    refine mem_flowOut (ht.proper_merged node).wellFormed (fun k hk => ?_) hg
    refine (ht.wellFormed_unions node).mem_group (fun f hf => ?_) hk
    obtain ⟨s', hs', hf'⟩ := FactSet.mem_of_mem_unions hf
    obtain ⟨e', htarget, -, he'⟩ := FactTable.mem_into.mp hs'
    obtain ⟨_, _, ⟨other, hother⟩, -⟩ := hs e' s' he' f hf'
    exact ih e' ⟨other, hother.walk⟩ htarget he' hf'

/-- A fact that records the outcome is in the way of all that would rule it out. -/
theorem Records.admits {other : P.Route} {e : P.Edge} {i : P.body.InstIx} {sign : Int}
    (hr : P.Records outcome e) (hk : P.Keeps t other e) (htarget : e.target = .inst i)
    (hop : P.op i = none) (hlevel : ∀ n, P.MayLeave other n → n.sign = sign) :
    P.Admits t outcome i sign := by
  intro f hf m hm hsign entry hentry hex
  obtain ⟨s, he, g, hg, n, hn, hleave⟩ := hk
  have hmem := hr.mem hfilter ht hs he hg
  have hexit := Edge.ne_exit_of_target htarget
  obtain ⟨g', hg', hkey⟩ := FactSet.mem_keys.mp (FactSet.mem_keys_unions.mpr
    ⟨s, FactTable.mem_into.mpr ⟨e, htarget, hexit, he⟩, FactSet.key_mem_keys hg⟩)
  rw [← Fact.conditions_eq hkey] at hmem
  have hn' : g'.locks.Tracks P.lock n := hn.of_key_eq (Fact.locks_key_eq hkey).symm
  rw [P.transfer_of_no_op hop] at hf
  have heq := (ht.wellFormed_unions _).eq_of_mem_group hg' hn' hf hm
    ((hlevel n hleave).trans hsign.symm) hmem hentry hex.1.symm
  exact hex.ne heq.symm

omit hfilter in
/-- What rules out an outcome comes from instructions that its rivals pass. -/
theorem admits_of_rivals {i : P.body.InstIx} {sign : Int}
    (hown : ∀ other j way n, P.Rival outcome i sign (other ++ [(.inst j, way)]) n →
      ∀ entry, P.outcome? j way = some entry → ¬ Excludes entry outcome.1 outcome.2)
    (hfrom : ∀ other j way n, P.Rival outcome i sign (other ++ [(.inst j, way)]) n →
      P.Admits t outcome j n.sign) : P.Admits t outcome i sign := by
  intro f hf m hm hsign entry hentry hex
  obtain ⟨e, s, he, htarget, g, hg, hen, k, n, other, hk, hkn, hnm, hother, hfound⟩ :=
    hs.exists_of_mem_transfer ht.proper hf hm hentry
  obtain ⟨other, j, way, rfl, rfl⟩ := exists_last hother.walk htarget hfound
  have hrival : P.Rival outcome i sign (other ++ [(.inst j, way)]) n :=
    ⟨⟨_, hother.walk, htarget⟩, hother.opens, hother.leaves.collapse hkn,
      hnm.sign_eq.symm.trans hsign, entry, hfound, hex⟩
  have he : t.get? (P.body.out (.inst j) way) = some s := he
  obtain ⟨g', hg', hkey⟩ := ht.exists_mem_flowOut hs he hg
  obtain ⟨k', hk', -, hentries⟩ :=
    P.exists_of_mem_way (P.tracks_transfer (ht.proper_merged _).tracks) hg'
  obtain rfl := hk'.unique (hk.of_key_eq (Fact.locks_key_eq hkey).symm)
  rcases hentries entry (Fact.conditions_eq hkey ▸ hen) with hout | ⟨g'', hg'', l, hl, hlk, hen''⟩
  · exact hown other j way n hrival entry hout hex
  · have hl' : l.sign = n.sign := hlk.sign_eq.symm.trans hkn.sign_eq.symm
    exact hfrom other j way n hrival g'' hg'' l hl hl' entry hen'' hex

/-- Where what rules out an outcome is cleared, no fact of the class rules it out. -/
theorem Clears.admits {i : P.body.InstIx} {sign : Int} (h : P.Clears outcome i sign) :
    P.Admits t outcome i sign := by
  induction h with
  | absorbed hw htarget ho hu hlevel => exact ht.admits_of_untested hw htarget ho hu hlevel
  | cancelled hw htarget ho _ hrecords hop hlevel ih =>
    have hkeeps := ht.keeps_of_admits hw ho fun pre j way entry hpre hout hu _ n hn =>
      ih pre j way entry hpre hout hu n hn
    exact hrecords.admits hfilter ht hs hkeeps htarget hop hlevel
  | before hown _ ih => exact admits_of_rivals ht hs hown ih

end Fixpoint

end Problem

end LockUsage
