import LockUsage.Proofs.Fixpoints
import Mathlib.Data.List.Induction

/-! Where facts come from. Every fact in the table of a run is left there by some walk to its edge:
the walk may leave the lock at the level of the fact, and every outcome recorded in the fact was
found on such a walk. What a walk without test and without anomaly leaves is never taken away. -/

namespace LockUsage

namespace Problem

/-- Whether facts can leave a node on a way. A branch on a constant has one way only, if facts that
contradict it are dropped. -/
def Opens (P : Problem) : P.Node × Branch → Prop
  | (.inst i, way) => P.body.isConditional i = true → ∀ value, (P.guard i).1 = .constant value →
      value = way.isTaken ∨ P.filter = false
  | (.ret, _) => True

/-- The outcomes of the tests on a route. -/
def outcomes (P : Problem) (route : P.Route) : List (String × Bool) :=
  route.filterMap P.outcomeAt?

/-- The levels at which a route may leave the lock, if at any time only the sign is kept. -/
inductive MayLeave (P : Problem) : P.Route → Int → Prop
  | start : MayLeave P [] 0
  | step {route n} (node : P.Node) (way : Branch) : MayLeave P route n →
      MayLeave P (route ++ [(node, way)]) (n + P.shift node)
  | group {route n} : MayLeave P route n → MayLeave P route n.sign

/-- A route that meets no closed way, no test and no level beyond -1 and 1. -/
structure Plain (P : Problem) (route : P.Route) : Prop where
  opens : ∀ step ∈ route, P.Opens step
  untested : P.outcomes route = []
  steady : ∀ pre, pre <+: route → (P.level pre).sign = P.level pre

variable {P : Problem} {route : P.Route}

theorem MayLeave.collapse {n m : Int} (h : P.MayLeave route n) (hnm : Collapses n m) :
    P.MayLeave route m := by
  rcases hnm with rfl | rfl
  · exact h
  · exact h.group

theorem MayLeave.eq_level {n : Int} (h : P.MayLeave route n)
    (hs : ∀ pre, pre <+: route → (P.level pre).sign = P.level pre) : n = P.level route := by
  induction h with
  | start => rfl
  | step node way _ ih =>
    rw [level_append_singleton, ih fun pre hpre => hs pre (hpre.trans (List.prefix_append _ _))]
  | group _ ih => rw [ih hs, hs _ (List.prefix_refl _)]

theorem Plain.of_append {rest : P.Route} (h : P.Plain (route ++ rest)) : P.Plain route where
  opens := fun step hstep => h.opens step (List.mem_append_left _ hstep)
  untested := by
    have hu := h.untested
    rw [outcomes, List.filterMap_append, List.append_eq_nil_iff] at hu
    exact hu.1
  steady := fun pre hpre => h.steady pre (hpre.trans (List.prefix_append _ _))

theorem Plain.outcomeAt? {step : P.Node × Branch} (h : P.Plain (route ++ [step])) :
    P.outcomeAt? step = none := by
  have hu := h.untested
  rw [outcomes, List.filterMap_append, List.append_eq_nil_iff] at hu
  exact List.filterMap_eq_nil_iff.mp hu.2 step (List.mem_singleton.mpr rfl)

/-- An edge carries a level without any path condition. -/
def Bears (P : Problem) (t : FactTable P.body.func.insts.size) (e : P.Edge) (n : Int) : Prop :=
  ∃ s, t.get? e = some s ∧ ∃ f ∈ s.facts, f.locks.Tracks P.lock n ∧ f.path.region = .top

/-- All along the part of a route that is plain, the edges carry its level. -/
def Live (P : Problem) (t : FactTable P.body.func.insts.size) (route : P.Route) : Prop :=
  ∀ pre e, pre <+: route → P.body.Walk pre e → P.Plain pre → P.Bears t e (P.level pre)

/-- A walk to an edge that may have left the lock there at a level. -/
structure Source (P : Problem) (t : FactTable P.body.func.insts.size) (e : P.Edge) (n : Int)
    (route : P.Route) : Prop where
  walk : P.body.Walk route e
  opens : ∀ step ∈ route, P.Opens step
  leaves : P.MayLeave route n
  live : P.Live t route

/-- Every fact comes from some walk, and so does every outcome that is recorded in it. -/
def Sourced (P : Problem) (t : FactTable P.body.func.insts.size) : Prop :=
  ∀ e s, t.get? e = some s → ∀ f ∈ s.facts, ∃ n, f.locks.Tracks P.lock n ∧
    (∃ route, P.Source t e n route) ∧
    ∀ entry ∈ f.path.conditions, ∃ route, P.Source t e n route ∧ entry ∈ P.outcomes route

/-- Where the way is open and nothing is tested, every fact passes. -/
theorem pass?_isSome_of_opens {i : P.body.InstIx} {way : Branch} (ho : P.Opens (.inst i, way))
    (hu : P.outcome? i way = none) (hc : P.body.isConditional i = true) (f : Fact) :
    (P.pass? (P.guard i).1 way f).isSome := by
  cases hguard : (P.guard i).1 with
  | predicate name negated => simp [outcome?, hc, hguard] at hu
  | constant value =>
    rcases ho hc value hguard with rfl | hfilter
    · simp [pass?]
    · simp [pass?, hfilter]
  | unknown => rfl

/-- Where some fact passes, the way is open. -/
theorem opens_of_mem_flow {i : P.body.InstIx} {way : Branch} {s : FactSet} {f : Fact}
    (hf : f ∈ (P.flow i way s).facts) : P.Opens (.inst i, way) := by
  intro hc value hguard
  rw [P.flow_of_conditional hc] at hf
  by_contra hclosed
  rw [not_or] at hclosed
  have hnil : (P.transfer i s).facts.filterMap (P.pass? (P.guard i).1 way) = [] :=
    List.filterMap_eq_nil_iff.mpr fun g _ => by simp [hguard, pass?, hclosed.1, hclosed.2]
  have hsize : (FactSet.ofList []).size ≤ 1 := Nat.zero_le 1
  rw [FactSet.through, hnil, FactSet.group_of_size_le_one hsize] at hf
  cases hf

section Advances

variable {t t' : FactTable P.body.func.insts.size}

theorem Advances.bears_out {e : P.Edge} (ha : P.Advances t t' e.target) (hexit : e ≠ .exit)
    {n : Int} (hbears : P.Bears t e n) (hsign : n.sign = n) {way : Branch}
    (ho : P.Opens (e.target, way)) (hu : P.outcomeAt? (e.target, way) = none)
    (hsign' : (n + P.shift e.target).sign = n + P.shift e.target) :
    P.Bears t' (P.body.out e.target way) (n + P.shift e.target) := by
  obtain ⟨s, hs, f, hf, hn, htop⟩ := hbears
  obtain ⟨g, hg, m, hm, hnm, htop'⟩ := exists_mem_merged hs hexit hf hn
  obtain rfl := hnm.eq_of_sign hsign
  obtain ⟨s', hs', heq⟩ := ha.out way
  have hflow : ∃ k ∈ (P.flowOut e.target way (t.merged e.target)).facts,
      k.locks.Tracks P.lock (m + P.shift e.target) ∧ k.path.region = .top := by
    cases htarget : e.target with
    | inst i =>
      rw [htarget] at hg ho hu hsign'
      obtain ⟨k, hk, l, hl, hml, hktop⟩ := P.exists_mem_flow hg hm
        fun g _ _ _ _ _ hc => pass?_isSome_of_opens ho hu hc g
      obtain rfl := hml.eq_of_sign hsign'
      exact ⟨k, hk, hl, hktop (htop' htop) hu⟩
    | ret =>
      rw [htarget] at hg
      exact ⟨g, hg, (Int.add_zero m).symm ▸ hm, htop' htop⟩
  obtain ⟨k, hk, hl, hktop⟩ := hflow
  obtain ⟨k', hk', hkey⟩ := heq.symm.exists_mem hk
  exact ⟨s', hs', k', hk', hl.of_key_eq (Fact.locks_key_eq hkey).symm,
    (Fact.region_eq hkey).trans hktop⟩

/-- The level of a plain route is carried past the node that is taken up. -/
theorem Advances.bears_append {e : P.Edge} {way : Branch} (ha : P.Advances t t' e.target)
    (hp : P.Plain (route ++ [(e.target, way)])) (hbears : P.Bears t e (P.level route))
    (hexit : e = .exit → P.Bears t' .exit (P.level route)) :
    P.Bears t' (P.body.out e.target way) (P.level (route ++ [(e.target, way)])) := by
  rw [level_append_singleton]
  by_cases he : e = .exit
  · -- The edge from the return node leads back to itself.
    have hstays := hexit he
    subst he
    rwa [← Int.add_zero (P.level route)] at hstays
  · have hsteady := hp.steady _ (List.prefix_refl _)
    rw [level_append_singleton] at hsteady
    exact ha.bears_out he hbears (hp.of_append.steady _ (List.prefix_refl _))
      (hp.opens _ (List.mem_append_right _ (List.mem_singleton.mpr rfl))) hp.outcomeAt? hsteady

theorem bears_entry {e : P.Edge} (h : t.get? e = some (.single .initial)) : P.Bears t e 0 :=
  ⟨_, h, .initial, List.mem_singleton.mpr rfl, LockState.tracks_empty P.lock, rfl⟩

variable {node : P.Node}

/-- What a live route carries stays. -/
theorem Live.advance (ha : P.Advances t t' node)
    (hentry : ∀ e, P.body.entryEdge? = some e → t'.get? e = some (.single .initial))
    (hl : P.Live t route) : P.Live t' route := by
  intro pre
  induction pre using List.reverseRecOn with
  | nil =>
    intro e _ hw _
    generalize hnil : [] = steps at hw
    cases hw with
    | start h => exact bears_entry (hentry e h)
    | step => simp at hnil
  | append_singleton pre step ih =>
    intro e hpre hw hp
    obtain ⟨stepNode, way⟩ := step
    obtain ⟨e', hw', rfl, rfl⟩ := hw.of_append_singleton
    have hpre' := (List.prefix_append pre _).trans hpre
    by_cases hnode : e'.target = node
    · subst hnode
      exact ha.bears_append hp (hl pre e' hpre' hw' hp.of_append)
        fun hexit => ih .exit hpre' (hexit ▸ hw') hp.of_append
    · obtain ⟨s, hs, hbears⟩ := hl _ _ hpre hw hp
      refine ⟨s, ?_, hbears⟩
      rw [ha.frame _ fun way' h => hnode (Body.eq_of_out_eq h)]
      exact hs

/-- A live route whose last edge leads to the node that is taken up stays live past it. -/
theorem Live.advance_append (ha : P.Advances t t' node)
    (hentry : ∀ e, P.body.entryEdge? = some e → t'.get? e = some (.single .initial))
    (hl : P.Live t route) {e : P.Edge} (hw : P.body.Walk route e) (ht : e.target = node)
    (way : Branch) : P.Live t' (route ++ [(node, way)]) := by
  have hl' := hl.advance ha hentry
  intro pre e' hpre hw' hp
  rcases List.prefix_concat_iff.mp hpre with rfl | hpre
  · subst ht
    obtain ⟨e₁, hw₁, ht₁, rfl⟩ := hw'.of_append_singleton
    exact ha.bears_append hp (hl route e (List.prefix_refl _) hw hp.of_append)
      fun hexit => hl' route .exit (List.prefix_refl _) (hexit ▸ hw) hp.of_append
  · exact hl' pre e' hpre hw' hp

theorem Source.advance (ha : P.Advances t t' node)
    (hentry : ∀ e, P.body.entryEdge? = some e → t'.get? e = some (.single .initial))
    {e : P.Edge} {n : Int} (h : P.Source t e n route) : P.Source t' e n route :=
  { h with live := h.live.advance ha hentry }

theorem Source.advance_append (ha : P.Advances t t' node)
    (hentry : ∀ e, P.body.entryEdge? = some e → t'.get? e = some (.single .initial))
    {e : P.Edge} {k n m : Int} (h : P.Source t e k route) (ht : e.target = node)
    (hkn : Collapses k n) {way : Branch} (ho : P.Opens (node, way))
    (hnm : Collapses (n + P.shift node) m) :
    P.Source t' (P.body.out node way) m (route ++ [(node, way)]) where
  walk := ht ▸ h.walk.step way
  opens := by
    intro step hstep
    rcases List.mem_append.mp hstep with hstep | hstep
    · exact h.opens step hstep
    · obtain rfl := List.mem_singleton.mp hstep
      exact ho
  leaves := ((h.leaves.collapse hkn).step node way).collapse hnm
  live := h.live.advance_append ha hentry h.walk ht way

/-- Every level in merged facts, and every outcome recorded there, stands on an edge into the
node. -/
theorem exists_of_mem_merged (hproper : ∀ e s, t.get? e = some s → s.Proper P.lock) {f : Fact}
    (hf : f ∈ (t.merged node).facts) : ∃ n, f.locks.Tracks P.lock n ∧
      (∃ e s, t.get? e = some s ∧ e.target = node ∧ e ≠ .exit ∧ ∃ g ∈ s.facts, ∃ k,
        g.locks.Tracks P.lock k ∧ Collapses k n) ∧
      ∀ entry ∈ f.path.conditions, ∃ e s, t.get? e = some s ∧ e.target = node ∧ e ≠ .exit ∧
        ∃ g ∈ s.facts, ∃ k, g.locks.Tracks P.lock k ∧ Collapses k n ∧
          entry ∈ g.path.conditions := by
  have htracks : ∀ s ∈ t.into node, s.Tracks P.lock := fun s hs => by
    obtain ⟨e, -, -, he⟩ := FactTable.mem_into.mp hs
    exact (hproper e s he).tracks
  obtain ⟨n, hn, ⟨s, hs, hlevel⟩, hentry⟩ := FactSet.exists_of_mem_merge htracks hf
  obtain ⟨e, ht, hexit, he⟩ := FactTable.mem_into.mp hs
  refine ⟨n, hn, ⟨e, s, he, ht, hexit, hlevel⟩, fun entry hen => ?_⟩
  obtain ⟨s, hs, hlevel⟩ := hentry entry hen
  obtain ⟨e, ht, hexit, he⟩ := FactTable.mem_into.mp hs
  exact ⟨e, s, he, ht, hexit, hlevel⟩

/-- What a node passes on comes from what enters it, but for the outcome of its own test. -/
theorem exists_of_mem_flowOut {s : FactSet} (hs : s.Tracks P.lock) {way : Branch} {f : Fact}
    (hf : f ∈ (P.flowOut node way s).facts) : P.Opens (node, way) ∧ ∃ m, f.locks.Tracks P.lock m ∧
      (∃ g ∈ s.facts, ∃ n, g.locks.Tracks P.lock n ∧ Collapses (n + P.shift node) m) ∧
      ∀ entry ∈ f.path.conditions,
        (∃ g ∈ s.facts, ∃ n, g.locks.Tracks P.lock n ∧ Collapses (n + P.shift node) m ∧
          entry ∈ g.path.conditions) ∨
        ((∃ g ∈ s.facts, ∃ n, g.locks.Tracks P.lock n ∧ Collapses (n + P.shift node) m) ∧
          P.outcomeAt? (node, way) = some entry) := by
  cases node with
  | inst i => exact ⟨opens_of_mem_flow hf, P.exists_of_mem_flow hs hf⟩
  | ret =>
    obtain ⟨n, hn⟩ := hs f hf
    have hzero : Collapses (n + P.shift .ret) n := (Int.add_zero n).symm ▸ .refl n
    exact ⟨trivial, n, hn, ⟨f, hf, n, hn, hzero⟩, fun entry he => .inl ⟨f, hf, n, hn, hzero, he⟩⟩

theorem Sourced.advance (ha : P.Advances t t' node)
    (hentry : ∀ e, P.body.entryEdge? = some e → t'.get? e = some (.single .initial))
    (hproper : ∀ e s, t.get? e = some s → s.Proper P.lock) (hs : P.Sourced t) :
    P.Sourced t' := by
  intro e s' hs' f hf
  by_cases hout : ∃ way, e = P.body.out node way
  · obtain ⟨way, rfl⟩ := hout
    obtain ⟨s, hget, heq⟩ := ha.out way
    obtain rfl := Option.some.inj (hget.symm.trans hs')
    obtain ⟨g, hg, hkey⟩ := heq.exists_mem hf
    have hmerged : (t.merged node).Tracks P.lock := fun f hf =>
      (exists_of_mem_merged hproper hf).imp fun _ h => h.1
    obtain ⟨ho, m, hm, hlevel, hentries⟩ := exists_of_mem_flowOut hmerged hg
    -- A walk to a fact that enters the node goes on along the way.
    have hsource {g : Fact} {n : Int} (hg : g ∈ (t.merged node).facts)
        (hn : g.locks.Tracks P.lock n) (hnm : Collapses (n + P.shift node) m) :
        (∃ route, P.Source t' (P.body.out node way) m (route ++ [(node, way)])) ∧
          ∀ entry ∈ g.path.conditions, ∃ route,
            P.Source t' (P.body.out node way) m (route ++ [(node, way)]) ∧
              entry ∈ P.outcomes route := by
      obtain ⟨n', hn', ⟨e, s, he, ht, -, k, hk, l, hl, hln⟩, hmore⟩ :=
        exists_of_mem_merged hproper hg
      obtain rfl := hn.unique hn'
      constructor
      · obtain ⟨l', hl', ⟨route, hroute⟩, -⟩ := hs e s he k hk
        obtain rfl := hl.unique hl'
        exact ⟨route, hroute.advance_append ha hentry ht hln ho hnm⟩
      · intro entry hen
        obtain ⟨e, s, he, ht, -, k, hk, l, hl, hln, hen⟩ := hmore entry hen
        obtain ⟨l', hl', -, hall⟩ := hs e s he k hk
        obtain rfl := hl.unique hl'
        obtain ⟨route, hroute, hen⟩ := hall entry hen
        exact ⟨route, hroute.advance_append ha hentry ht hln ho hnm, hen⟩
    refine ⟨m, hm.of_key_eq (Fact.locks_key_eq hkey), ?_, ?_⟩
    · obtain ⟨g, hg, n, hn, hnm⟩ := hlevel
      obtain ⟨route, hroute⟩ := (hsource hg hn hnm).1
      exact ⟨_, hroute⟩
    · intro entry hen
      rw [← Fact.conditions_eq hkey] at hen
      rcases hentries entry hen with ⟨g, hg, n, hn, hnm, hen⟩ | ⟨⟨g, hg, n, hn, hnm⟩, hown⟩
      · obtain ⟨route, hroute, hen⟩ := (hsource hg hn hnm).2 entry hen
        refine ⟨_, hroute, ?_⟩
        rw [outcomes, List.filterMap_append]
        exact List.mem_append_left _ hen
      · obtain ⟨route, hroute⟩ := (hsource hg hn hnm).1
        refine ⟨_, hroute, ?_⟩
        rw [outcomes, List.filterMap_append]
        exact List.mem_append_right _ (List.mem_filterMap.mpr ⟨_, List.mem_singleton.mpr rfl, hown⟩)
  · rw [ha.frame e fun way h => hout ⟨way, h⟩] at hs'
    obtain ⟨n, hn, ⟨route, hroute⟩, hentries⟩ := hs e s' hs' f hf
    refine ⟨n, hn, ⟨route, hroute.advance ha hentry⟩, fun entry hen => ?_⟩
    obtain ⟨route, hroute, hen⟩ := hentries entry hen
    exact ⟨route, hroute.advance ha hentry, hen⟩

end Advances

theorem sourced_start {entry : P.body.InstIx} (h : P.body.entry? = some entry) :
    P.Sourced (P.start entry).facts := by
  intro e s hs f hf
  obtain ⟨rfl, rfl⟩ := get?_start.mp hs
  obtain rfl := List.mem_singleton.mp hf
  have hedge : P.body.entryEdge? = some (.entry entry) :=
    Body.entryEdge?_eq_some_iff.mpr ⟨entry, h, rfl⟩
  have hlive : P.Live (P.start entry).facts [] := by
    intro pre e hpre hw _
    obtain rfl := List.prefix_nil.mp hpre
    obtain rfl := hw.unique (.start hedge)
    exact bears_entry hs
  have hsource : P.Source (P.start entry).facts (.entry entry) 0 [] :=
    ⟨.start hedge, fun _ h => (by cases h), .start, hlive⟩
  exact ⟨0, LockState.tracks_empty P.lock, ⟨[], hsource⟩, fun _ h => (by cases h)⟩

/-- All along a run facts come from walks. -/
structure Traced (P : Problem) (s : P.State) : Prop where
  invariant : P.Invariant none s
  sourced : P.Sourced s.facts

theorem Traced.step (hb : P.body.WellListed) {s : P.State} {node : P.Node}
    {work : Worklist P.Node} (h : P.Traced s) (hpop : s.work.pop? = some (node, work)) :
    P.Traced (P.step { s with work } node) := by
  have hi := h.invariant.step hb hpop
  exact ⟨hi, h.sourced.advance (h.invariant.advances hb hpop) hi.entry h.invariant.recorded.proper⟩

theorem traced_start {entry : P.body.InstIx} (h : P.body.entry? = some entry) :
    P.Traced (P.start entry) := ⟨invariant_start h, sourced_start h⟩

end Problem

end LockUsage
