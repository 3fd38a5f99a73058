import LockUsage.Proofs.Provenance
import Mathlib.Algebra.GroupWithZero.Nat
import Mathlib.Algebra.Order.BigOperators.Group.List
import Mathlib.Data.Fintype.Card
import Mathlib.Data.Fintype.EquivFin
import Mathlib.Logic.Relation

/-! Runs that end. Facts replace each other, and round a loop they can do so for ever, unless the
loop passes an anchor: there every class of the lock comes first by a walk without test and without
anomaly, and what that walk leaves absorbs whatever else comes in the class. -/

namespace LockUsage

/-- Without cycles, a relation on finitely many things can be followed only so far. -/
theorem wellFounded_of_acyclic {n : Nat} {r : Fin n → Fin n → Prop}
    (h : ∀ i, ¬ Relation.TransGen r i i) : WellFounded fun j i => r i j := by
  have : IsTrans (Fin n) fun j i => Relation.TransGen r i j := ⟨fun _ _ _ hab hbc => hbc.trans hab⟩
  have : Std.Irrefl fun j i => Relation.TransGen r i j := ⟨h⟩
  exact Subrelation.wf (fun hr => Relation.TransGen.single hr)
    (Finite.wellFounded_of_trans_of_irrefl fun j i => Relation.TransGen r i j)

theorem acyclic_of_rank {α : Type} {r : α → α → Prop} (rank : α → Nat)
    (h : ∀ a b, r a b → rank a < rank b) (a : α) : ¬ Relation.TransGen r a a := by
  have hlt {a b : α} (hab : Relation.TransGen r a b) : rank a < rank b := by
    induction hab with
    | single hr => exact h _ _ hr
    | tail _ hr ih => exact ih.trans (h _ _ hr)
  exact fun ha => Nat.lt_irrefl _ (hlt ha)

namespace Body

/-- Control can pass from one instruction to another. -/
def Follows (b : Body) (i j : b.InstIx) : Prop := ∃ way, (b.edge i way).target = .inst j

/-- Some walk comes to an instruction. -/
def Visits (b : Body) (i : b.InstIx) : Prop := ∃ e, b.Reaches e ∧ e.target = .inst i

end Body

namespace Problem

/-- In whatever class the lock may be when a walk comes to an instruction, the walk has come there
in that class before, or comes now, after no test and no anomaly. -/
def Anchor (P : Problem) (i : P.body.InstIx) : Prop :=
  ∀ route e n, P.body.Walk route e → (∀ step ∈ route, P.Opens step) → e.target = .inst i →
    P.MayLeave route n → ∃ pre e', pre <+: route ∧ P.body.Walk pre e' ∧ e'.target = .inst i ∧
      P.Plain pre ∧ P.level pre = n.sign

/-- Control passes from an instruction that is no anchor. -/
def Drifts (P : Problem) (i j : P.body.InstIx) : Prop :=
  P.body.Visits i ∧ ¬ P.Anchor i ∧ P.body.Follows i j

/-- Every loop that walks can reach passes an anchor. -/
def Anchored (P : Problem) : Prop := ∀ i, ¬ Relation.TransGen P.Drifts i i

variable {P : Problem}

section Weight

open Classical

theorem Anchored.wellFounded (h : P.Anchored) : WellFounded fun j i => P.Drifts i j :=
  wellFounded_of_acyclic h

/-- The weight of a node, given that of the instructions. -/
def nodeWeight (weight : P.body.InstIx → Nat) : P.Node → Nat
  | .inst i => weight i
  | .ret => 1

/-- Taking up an instruction costs one step, and those that its successors can cause. -/
noncomputable def instWeight (h : P.Anchored) : P.body.InstIx → Nat :=
  h.wellFounded.fix fun i weight =>
    1 + nodeWeight (fun j => if hd : P.Drifts i j then weight j hd else 0)
        (P.body.edge i .taken).target +
      nodeWeight (fun j => if hd : P.Drifts i j then weight j hd else 0)
        (P.body.edge i .notTaken).target

theorem instWeight_eq (h : P.Anchored) {i : P.body.InstIx} (hv : P.body.Visits i)
    (ha : ¬ P.Anchor i) :
    instWeight h i = 1 + nodeWeight (instWeight h) (P.body.edge i .taken).target +
      nodeWeight (instWeight h) (P.body.edge i .notTaken).target := by
  have hbeyond (way : Branch) :
      nodeWeight (fun j => if P.Drifts i j then instWeight h j else 0)
        (P.body.edge i way).target = nodeWeight (instWeight h) (P.body.edge i way).target := by
    cases ht : (P.body.edge i way).target with
    | inst j =>
      have hd : P.Drifts i j := ⟨hv, ha, way, ht⟩
      simp only [nodeWeight, if_pos hd]
    | ret => rfl
  rw [← hbeyond, ← hbeyond]
  exact WellFounded.fix_eq _ _ i

theorem nodeWeight_pos (h : P.Anchored) (node : P.Node) : 0 < nodeWeight (instWeight h) node := by
  cases node with
  | inst i =>
    rw [nodeWeight, instWeight, WellFounded.fix_eq, Nat.add_assoc]
    exact Nat.lt_add_right _ Nat.one_pos
  | ret => exact Nat.one_pos

end Weight

section Anchors

variable {t t' : FactTable P.body.func.insts.size} {node : P.Node} {i : P.body.InstIx} {c : Int}

/-- A class of the lock that came to an instruction by a walk without test and anomaly. -/
def Rooted (P : Problem) (t : FactTable P.body.func.insts.size) (i : P.body.InstIx) (c : Int) :
    Prop :=
  ∃ route e, P.body.Walk route e ∧ e.target = .inst i ∧ P.Plain route ∧ P.Live t route ∧
    P.level route = c

theorem Rooted.sign_eq (h : P.Rooted t i c) : c.sign = c := by
  obtain ⟨route, e, -, -, hp, -, rfl⟩ := h
  exact hp.steady _ (List.prefix_refl _)

theorem Rooted.mem (h : P.Rooted t i c) : c ∈ [-1, 0, 1] := by
  rw [← h.sign_eq]
  rcases lt_trichotomy c 0 with hc | rfl | hc
  · simp [Int.sign_eq_neg_one_of_neg hc]
  · simp
  · simp [Int.sign_eq_one_of_pos hc]

theorem Rooted.advance (ha : P.Advances t t' node)
    (hentry : ∀ e, P.body.entryEdge? = some e → t'.get? e = some (.single .initial))
    (h : P.Rooted t i c) : P.Rooted t' i c := by
  obtain ⟨route, e, hw, ht, hp, hl, hc⟩ := h
  exact ⟨route, e, hw, ht, hp, hl.advance ha hentry, hc⟩

theorem Rooted.exists_mem_merged (h : P.Rooted t i c) :
    ∃ f ∈ (t.merged (.inst i)).facts, f.locks.Tracks P.lock c ∧ f.path.region = .top := by
  have hsign := h.sign_eq
  obtain ⟨route, e, hw, ht, hp, hl, rfl⟩ := h
  obtain ⟨s, hs, f, hf, hn, htop⟩ := hl route e (List.prefix_refl _) hw hp
  have hexit : e ≠ .exit := fun he => by simp [he, Edge.target] at ht
  obtain ⟨g, hg, m, hm, hnm, hgtop⟩ := Problem.exists_mem_merged hs hexit hf hn
  obtain rfl := hnm.eq_of_sign hsign
  exact ⟨g, ht ▸ hg, hm, hgtop htop⟩

/-- Whatever enters an anchor is in a class that is rooted there, and has no path condition. -/
theorem Anchor.rooted_of_mem (hi : P.Anchor i) (hs : P.Sourced t)
    (hproper : ∀ e s, t.get? e = some s → s.Proper P.lock) {f : Fact}
    (hf : f ∈ (t.merged (.inst i)).facts) :
    ∃ c, P.Rooted t i c ∧ ∃ g ∈ (t.merged (.inst i)).facts, g.key = f.key ∧
      g.locks.Tracks P.lock c ∧ g.path.region = .top := by
  obtain ⟨n, hn, ⟨e, s, he, ht, -, g, hg, k, hk, hkn⟩, -⟩ := exists_of_mem_merged hproper hf
  obtain ⟨k', hk', ⟨route, hroute⟩, -⟩ := hs e s he g hg
  obtain rfl := hk.unique hk'
  obtain ⟨pre, e', hpre, hw, ht', hplain, hlevel⟩ :=
    hi route e k hroute.walk hroute.opens ht hroute.leaves
  have hroot : P.Rooted t i k.sign := ⟨pre, e', hw, ht', hplain,
    fun pre' e hpre' => hroute.live pre' e (hpre'.trans hpre), hlevel⟩
  obtain ⟨g', hg', hm, htop⟩ := hroot.exists_mem_merged
  refine ⟨k.sign, hroot, g', hg', FactSet.key_eq_of_mem_group hg' hf hm hn ?_, hm, htop⟩
  rw [Int.sign_sign, hkn.sign_eq]

/-- What enters an anchor depends on the rooted classes only. -/
theorem Anchor.merged_equiv (hi : P.Anchor i) (hs : P.Sourced t) (hs' : P.Sourced t')
    (hproper : ∀ e s, t.get? e = some s → s.Proper P.lock)
    (hproper' : ∀ e s, t'.get? e = some s → s.Proper P.lock)
    (h : ∀ c, P.Rooted t i c ↔ P.Rooted t' i c) :
    (t.merged (.inst i)).Equiv (t'.merged (.inst i)) := by
  have hsub {t t' : FactTable P.body.func.insts.size} (hs : P.Sourced t)
      (hproper : ∀ e s, t.get? e = some s → s.Proper P.lock)
      (h : ∀ c, P.Rooted t i c → P.Rooted t' i c) {k : LockKey × Region}
      (hk : k ∈ (t.merged (.inst i)).keys) : k ∈ (t'.merged (.inst i)).keys := by
    obtain ⟨f, hf, rfl⟩ := FactSet.mem_keys.mp hk
    obtain ⟨c, hc, g, -, hgf, hgc, hgtop⟩ := hi.rooted_of_mem hs hproper hf
    obtain ⟨g', hg', hgc', hgtop'⟩ := (h c hc).exists_mem_merged
    have hkey : g'.key = g.key := by
      rw [Fact.key, Fact.key, hgc.key_eq, hgc'.key_eq, hgtop, hgtop']
    exact FactSet.mem_keys.mpr ⟨g', hg', hkey.trans hgf⟩
  exact fun k => ⟨hsub hs hproper fun c => (h c).mp, hsub hs' hproper' fun c => (h c).mpr⟩

end Anchors

section Phases

open Classical

variable {t t' : FactTable P.body.func.insts.size} {node : P.Node} {i : P.body.InstIx}

/-- How many classes have not come to an instruction yet. -/
noncomputable def missing (P : Problem) (t : FactTable P.body.func.insts.size)
    (i : P.body.InstIx) : Nat :=
  ([-1, 0, 1].map fun c => if P.Rooted t i c then 0 else 1).sum

/-- How often an anchor may still change what it passes on. -/
noncomputable def phase (P : Problem) (t : FactTable P.body.func.insts.size) (i : P.body.InstIx) :
    Nat :=
  if P.Anchor i then 2 * P.missing t i + if P.Settled t (.inst i) then 0 else 1 else 0

theorem ite_rooted_le (h : ∀ c, P.Rooted t i c → P.Rooted t' i c) (c : Int) :
    (if P.Rooted t' i c then 0 else 1) ≤ if P.Rooted t i c then 0 else 1 := by
  by_cases hc : P.Rooted t i c
  · simp [hc, h c hc]
  · by_cases hc' : P.Rooted t' i c <;> simp [hc, hc']

theorem missing_le (h : ∀ c, P.Rooted t i c → P.Rooted t' i c) :
    P.missing t' i ≤ P.missing t i := List.sum_le_sum fun c _ => ite_rooted_le h c

theorem missing_lt (h : ∀ c, P.Rooted t i c → P.Rooted t' i c) {c : Int}
    (hc : ¬ P.Rooted t i c) (hc' : P.Rooted t' i c) : P.missing t' i < P.missing t i :=
  List.sum_lt_sum _ _ (fun c _ => ite_rooted_le h c) ⟨_, hc'.mem, by simp [hc, hc']⟩

/-- A step settles the node that it takes up, and unsettles no other, as long as what enters does
not change. -/
theorem Advances.settled (ha : P.Advances t t' node) {node' : P.Node}
    (heq : (t.merged node').Equiv (t'.merged node')) (h : node' = node ∨ P.Settled t node') :
    P.Settled t' node' := by
  intro way
  by_cases hnode : node' = node
  · subst hnode
    obtain ⟨s, hs, hs'⟩ := ha.out way
    exact ⟨s, hs, hs'.trans (equiv_flowOut heq _ _)⟩
  · obtain ⟨s, hs, hs'⟩ := h.resolve_left hnode way
    refine ⟨s, ?_, hs'.trans (equiv_flowOut heq _ _)⟩
    rw [ha.frame _ fun way' he => hnode (Body.eq_of_out_eq he), hs]

/-- A step never takes an anchor back, and takes it on if it was taken up and was not settled. -/
theorem Advances.phase_le (ha : P.Advances t t' node)
    (hroot : ∀ c, P.Rooted t i c → P.Rooted t' i c)
    (hmerged : P.Anchor i → (∀ c, P.Rooted t i c ↔ P.Rooted t' i c) →
      (t.merged (.inst i)).Equiv (t'.merged (.inst i))) :
    P.phase t' i ≤ P.phase t i ∧ (P.Anchor i → node = .inst i → ¬ P.Settled t node →
      P.phase t' i < P.phase t i) := by
  by_cases hi : P.Anchor i
  · simp only [phase, if_pos hi]
    by_cases hnew : ∃ c, ¬ P.Rooted t i c ∧ P.Rooted t' i c
    · obtain ⟨c, hc, hc'⟩ := hnew
      have hlt := missing_lt hroot hc hc'
      constructor
      · split_ifs <;> omega
      · intro _ _ _
        split_ifs <;> omega
    · have hiff (c : Int) : P.Rooted t i c ↔ P.Rooted t' i c :=
        ⟨hroot c, fun hc' => by_contra fun hc => hnew ⟨c, hc, hc'⟩⟩
      have hle := missing_le hroot
      have hsettled := ha.settled (hmerged hi hiff)
      constructor
      · by_cases hset : P.Settled t (.inst i)
        · rw [if_pos hset, if_pos (hsettled (.inr hset))]
          omega
        · split_ifs <;> omega
      · rintro - rfl hset
        rw [if_pos (hsettled (.inl rfl)), if_neg hset]
        omega
  · simp [phase, hi]

end Phases

section Load

variable {s s' : P.State} {node : P.Node} {v : P.Node → Nat}

theorem load_push_le (w : Worklist P.Node) (node : P.Node) :
    ((w.push node).1.queue.map v).sum ≤ (w.queue.map v).sum + v node := by
  by_cases h : node ∈ w.queue
  · simp [Worklist.push_of_mem h]
  · simp [Worklist.push_of_not_mem h, Worklist.add]

theorem Puts.load_le {e : P.Edge} {facts : FactSet} (h : P.Puts s s' e facts) :
    (s'.work.queue.map v).sum ≤ (s.work.queue.map v).sum + v e.target := by
  rcases h.change with ⟨-, hw, -⟩ | ⟨-, hw, -⟩
  · rw [hw]
    omega
  · rw [hw]
    split
    · omega
    · exact load_push_le _ _

theorem Sends.load_le {facts : FactSet} {ways : List Branch}
    (h : P.Sends node facts ways s s') : (s'.work.queue.map v).sum ≤
      (s.work.queue.map v).sum + (ways.map fun way => v (P.body.out node way).target).sum := by
  induction h with
  | nil => exact Nat.le_refl _
  | cons hput _ ih =>
    have hle := hput.load_le (v := v)
    rw [List.map_cons, List.sum_cons]
    omega

theorem Sends.work_eq_of_ret {facts : FactSet} {ways : List Branch}
    (h : P.Sends .ret facts ways s s') : s'.work = s.work := by
  induction h with
  | nil => rfl
  | cons hput _ ih =>
    rcases hput.change with ⟨-, hwork, -⟩ | ⟨-, hwork, -⟩
    · rw [ih, hwork]
    · rw [ih, hwork, if_pos (by rfl)]

end Load

section Runs

variable {s : P.State} {node : P.Node} {work : Worklist P.Node}

/-- What anchors may still do, and what pending nodes may cause before the next anchor. -/
noncomputable def cost (h : P.Anchored) (s : P.State) : Nat × Nat :=
  ((P.body.insts.map (P.phase s.facts)).sum, (s.work.queue.map (nodeWeight (instWeight h))).sum)

theorem Traced.phase_le (hb : P.body.WellListed) (hs : P.Traced s)
    (hpop : s.work.pop? = some (node, work)) (i : P.body.InstIx) :
    P.phase (P.step { s with work } node).facts i ≤ P.phase s.facts i ∧
      (P.Anchor i → node = .inst i → ¬ P.Settled s.facts node →
        P.phase (P.step { s with work } node).facts i < P.phase s.facts i) := by
  have hs' := hs.step hb hpop
  have ha := hs.invariant.advances hb hpop
  exact ha.phase_le (fun c hc => hc.advance ha hs'.invariant.entry) fun hi hiff =>
    hi.merged_equiv hs.sourced hs'.sourced hs.invariant.recorded.proper
      hs'.invariant.recorded.proper hiff

/-- Unless it takes an anchor on, a step takes up more than it causes. -/
theorem Traced.load_lt (hb : P.body.WellListed) (h : P.Anchored) (hs : P.Traced s)
    (hpop : s.work.pop? = some (node, work))
    (hnode : ∀ i, node = .inst i → P.Anchor i → P.Settled s.facts node) :
    ((P.step { s with work } node).work.queue.map (nodeWeight (instWeight h))).sum <
      (s.work.queue.map (nodeWeight (instWeight h))).sum := by
  obtain ⟨⟨e, fs, hfs, ht, -⟩, s₁, facts, hfacts, hwork, -, -, heq, hsends⟩ :=
    hs.invariant.exists_sends hb hpop
  have hpos := nodeWeight_pos h node
  rw [((Worklist.perm_of_pop? hpop).map _).sum_eq, List.map_cons, List.sum_cons]
  cases node with
  | ret =>
    rw [hsends.work_eq_of_ret, hwork]
    omega
  | inst i =>
    by_cases hi : P.Anchor i
    · have hset := hnode i rfl hi
      rw [(hsends.unchanged fun way => ?_).2, hwork]
      · omega
      · obtain ⟨fs, hfs, hequiv⟩ := hset way
        exact ⟨fs, hfacts ▸ hfs, hequiv.trans (equiv_flowOut heq.symm _ _)⟩
    · have hle := hsends.load_le (v := nodeWeight (instWeight h))
      have hweight := instWeight_eq h ⟨e, hs.invariant.recorded.reaches e fs hfs, ht⟩ hi
      rw [hwork] at hle
      rw [nodeWeight, hweight]
      refine Nat.lt_of_le_of_lt hle ?_
      by_cases hc : P.body.isConditional i = true
      · simp only [ways, if_pos hc, List.map_cons, List.map_nil, List.sum_cons, List.sum_nil,
          Body.out]
        omega
      · simp only [ways, if_neg hc, List.map_cons, List.map_nil, List.sum_cons, List.sum_nil,
          Body.out]
        omega

theorem Traced.cost_lt (hb : P.body.WellListed) (h : P.Anchored) (hs : P.Traced s)
    (hpop : s.work.pop? = some (node, work)) :
    Prod.Lex (· < ·) (· < ·) (cost h (P.step { s with work } node)) (cost h s) := by
  rw [Prod.lex_def]
  have hle := hs.phase_le hb hpop
  by_cases hnode : ∃ i, node = .inst i ∧ P.Anchor i ∧ ¬ P.Settled s.facts node
  · obtain ⟨i, hi, ha, hset⟩ := hnode
    exact .inl (List.sum_lt_sum _ _ (fun j _ => (hle j).1)
      ⟨i, List.mem_finRange i, (hle i).2 ha hi hset⟩)
  · have hlt := hs.load_lt hb h hpop fun i hi ha => by_contra fun hset => hnode ⟨i, hi, ha, hset⟩
    have hphase : (cost h (P.step { s with work } node)).1 ≤ (cost h s).1 :=
      List.sum_le_sum fun j _ => (hle j).1
    exact (Nat.lt_or_eq_of_le hphase).imp_right fun heq => ⟨heq, hlt⟩

/-- A run whose steps lower some cost ends, given enough of them. -/
theorem exists_converges {α : Type} {r : α → α → Prop} (hwf : WellFounded r) (cost : P.State → α)
    {Inv : P.State → Prop}
    (hstep : ∀ s node work, Inv s → s.work.pop? = some (node, work) →
      Inv (P.step { s with work } node) ∧ r (cost (P.step { s with work } node)) (cost s))
    (s : P.State) (hs : Inv s) : ∃ k, ∀ n ≥ k, (P.iterate n s).2.2 = true := by
  induction s using (InvImage.wf cost hwf).induction with
  | h s ih =>
    cases hpop : s.work.pop? with
    | none => exact ⟨0, fun n _ => by rw [iterate, hpop]⟩
    | some next =>
      obtain ⟨hnext, hlt⟩ := hstep s next.1 next.2 hs hpop
      obtain ⟨k, hk⟩ := ih _ hlt hnext
      refine ⟨k + 1, fun n hn => ?_⟩
      obtain ⟨m, rfl⟩ := Nat.exists_eq_add_of_le' (Nat.le_of_add_left_le hn)
      rw [iterate, hpop]
      exact hk m (by omega)

theorem step_with (limit : Nat) (order : SelectionOrder) (s : P.State) (node : P.Node) :
    ({ P with maxSteps := limit, order := order } : Problem).step s node = P.step s node := by
  cases node with
  | inst i =>
    have hinput : ({ P with maxSteps := limit, order := order } : Problem).input s i =
        P.input s i := rfl
    rw [step, step, stepInst, stepInst, hinput]
    obtain ⟨s', facts⟩ := P.input s i
    cases facts <;> rfl
  | ret => rfl

/-- A run does not depend on the limit, until it comes to it, nor on the order, but for the pending
nodes with which it starts. -/
theorem iterate_with (limit : Nat) (order : SelectionOrder) (n : Nat) (s : P.State) :
    ({ P with maxSteps := limit, order := order } : Problem).iterate n s = P.iterate n s := by
  induction n generalizing s with
  | zero =>
    rw [iterate, iterate]
    cases s.work.pop? <;> rfl
  | succ n ih =>
    rw [iterate, iterate]
    cases s.work.pop? with
    | none => rfl
    | some next => exact (ih _).trans (congrArg (P.iterate n) (step_with limit order _ next.1))

theorem converged_with {entry : P.body.InstIx} (h : P.body.entry? = some entry) (n : Nat) :
    ({ P with maxSteps := n } : Problem).solve.converged =
      (P.iterate n (P.start entry)).2.2 := by
  rw [← iterate_with n P.order]
  exact converged_solve (P := { P with maxSteps := n }) h

theorem converged_of_declaration (h : P.body.entry? = none) : P.solve.converged = true := by
  simp [solve, h]

/-- If every loop passes an anchor, the run ends, given enough steps. -/
theorem Anchored.exists_converges (hb : P.body.WellListed) (h : P.Anchored) :
    ∃ k, ∀ n ≥ k, ({ P with maxSteps := n } : Problem).solve.converged = true := by
  cases hentry : P.body.entry? with
  | none => exact ⟨0, fun n _ => converged_of_declaration (P := { P with maxSteps := n }) hentry⟩
  | some entry =>
    obtain ⟨k, hk⟩ := Problem.exists_converges (Prod.lex Nat.lt_wfRel Nat.lt_wfRel).wf (cost h)
      (fun _ _ _ hs hpop => ⟨hs.step hb hpop, hs.cost_lt hb h hpop⟩) _ (traced_start hentry)
    exact ⟨k, fun n hn => (converged_with hentry n).trans (hk n hn)⟩

end Runs

end Problem

end LockUsage
