import LockUsage.Proofs.Sweeps

/-! The candidates that no sweep changes are the nearest post-dominators. While candidates move, no
post-dominator is passed over: it stays on the chain of each block that it post-dominates. Once they
have settled, a chain has no other blocks either, as the chain of a block goes on in the chains of
all its neighbours. -/

namespace LockUsage.Body

open BlockGraph Candidates

variable {b : Body} {q bb : b.BlockIx} {ranks : Ranks b.func.blocks.size}
  {order : List b.BlockIx} {c : Candidates b.func.blocks.size}
  {x y node : BlockNode b.func.blocks.size}

/-- A block is on all paths from a node to the exit. -/
def OnAllPaths (b : Body) (q : b.BlockIx) : BlockNode b.func.blocks.size → Prop
  | .block bb => b.PostDominates q bb
  | .exit => False

/-- No candidate is further on than a post-dominator. -/
def PassesOverNone (b : Body) (c : Candidates b.func.blocks.size) : Prop :=
  ∀ bb node, c.get bb = some node →
    ∀ q, q ≠ bb → b.PostDominates q bb → b.OnAllPaths q node

/-- What is on all paths from a block, the block itself apart, is on all paths from its neighbours.
-/
theorem OnAllPaths.of_neighbour (h : b.PostDominates q bb) (hne : q ≠ bb)
    (hx : x ∈ b.graph.get bb) : b.OnAllPaths q x := by
  rw [get_graph] at hx
  cases x with
  | block next => exact h.of_next hne (mem_nextBlocks.mpr hx)
  | exit => exact hne (List.mem_singleton.mp (h [bb] (.leave hx)))

namespace PassesOverNone

theorem climbs (h : b.PassesOverNone c) (hclosed : Closed ranks order c)
    (hlast : ranks.ExitLast) (hx : c.has x = true) (hq : b.OnAllPaths q x) :
    c.Climbs x (.block q) := by
  induction hk : b.func.blocks.size - ranks.rank x using Nat.strong_induction_on
    generalizing x with
  | _ k ih =>
    cases x with
    | exit => exact hq.elim
    | block bb =>
      by_cases hne : q = bb
      · exact hne ▸ .refl
      · obtain ⟨node, hnode⟩ := has_block.mp hx
        obtain ⟨-, hknown, hlt⟩ := hclosed bb node hnode
        have hle := hlast.rank_le node
        have hrest := ih _ (by omega) hknown (h bb node hnode q hne hq) rfl
        exact Relation.ReflTransGen.head (above_of_get hnode) hrest

/-- A post-dominator stays ahead as long as its chain has not come to it. -/
theorem onAllPaths (h : b.PassesOverNone c) (hclosed : Closed ranks order c)
    (hlast : ranks.ExitLast) (hx : c.has x = true) (hq : b.OnAllPaths q x) (hy : c.Climbs x y)
    (hyq : c.Climbs y (.block q)) : b.OnAllPaths q y := by
  induction hy with
  | refl => exact hq
  | @tail w _ hw hstep ih =>
    subst hstep
    have hwq := ih ((Climbs.above w).trans hyq)
    cases w with
    | exit => exact hwq.elim
    | block bb =>
      have hne : q ≠ bb := by
        rintro rfl
        have hle := hyq.rank_le (hclosed.rising hlast)
        exact absurd (hclosed.rising hlast q) (Nat.not_lt.mpr hle)
      obtain ⟨node, hnode⟩ := has_block.mp (hclosed.has_of_climbs hx hw)
      rw [above_of_get hnode]
      exact h bb node hnode q hne hwq

theorem put (h : b.PassesOverNone c) (hclosed : Closed ranks order c) (hlast : ranks.ExitLast)
    (himp : b.graph.Improves ranks c bb node) : b.PassesOverNone (c.put bb node) := by
  intro bb' node' hget q hne hdom
  rw [get_put] at hget
  split_ifs at hget with he
  · cases hget
    subst he
    have hnode : c.Climbs node (.block q) := himp.first _ fun s hs hsome =>
      h.climbs hclosed hlast hsome (.of_neighbour hdom hne hs)
    -- If no neighbour were known, the new candidate would be of no later place than the block.
    obtain ⟨s, hs, hsome⟩ : ∃ s ∈ b.graph.get bb, c.has s = true := by
      by_contra hnone
      have hclimb := himp.first (.block bb) fun s hs hsome => absurd ⟨s, hs, hsome⟩ hnone
      exact absurd (hclimb.rank_le (hclosed.rising hlast)) (Nat.not_le.mpr himp.lt)
    exact h.onAllPaths hclosed hlast hsome (.of_neighbour hdom hne hs) (himp.shared s hs hsome)
      hnode
  · exact h bb' node' hget q hne hdom

end PassesOverNone

/-- What is known of the candidates in the end. -/
theorem nearest_facts (b : Body) :
    b.graph.leavingOrder.foldr (b.graph.improve (.ofOrder b.graph.leavingOrder)) b.graph.nearest =
        b.graph.nearest ∧
      b.graph.Sweeping (.ofOrder b.graph.leavingOrder) b.graph.leavingOrder 0 b.graph.nearest ∧
      b.PassesOverNone b.graph.nearest := by
  refine nearest_settled (fun c bb node hclosed himp h =>
    h.put hclosed b.graph.ranked_leavingOrder.exitLast himp) fun bb node h => ?_
  cases (Vector.getElem_replicate bb.isLt).symm.trans h

/-- Every block with a path to the exit has a candidate. -/
theorem exists_get_nearest (h : b.CanExit bb) : ∃ node, b.graph.nearest.get bb = some node :=
  has_block.mp (b.nearest_facts.2.1.reached bb (mem_leavingOrder.mpr h) (Nat.zero_le _))

/-- A chain of settled candidates passes no other blocks than the paths do. -/
theorem postDominates_of_climbs (h : b.graph.nearest.Climbs (.block bb) (.block q)) :
    b.PostDominates q bb := by
  obtain ⟨hstable, hsweep, -⟩ := b.nearest_facts
  have hr := b.graph.ranked_leavingOrder
  have hon {bb : b.BlockIx} (hbb : b.CanExit bb) {s : BlockNode b.func.blocks.size}
      (hs : s ∈ b.neighbours bb) (hhas : b.graph.nearest.has s = true) :
      b.graph.nearest.Climbs s (b.graph.nearest.above (.block bb)) :=
    climbs_above_of_improve_eq hr.exitLast (hsweep.rising hr)
      (improve_eq_of_foldr_eq hr.nodup hstable (mem_leavingOrder.mpr hbb))
      (b.get_graph bb ▸ hs) hhas
  intro path hpath
  induction hpath with
  | @leave bb hexit =>
    have habove := (hon ⟨_, .leave hexit⟩ hexit rfl).exit_eq
    rcases h.eq_or_above with heq | hq
    · cases heq
      exact List.mem_cons_self
    · rw [habove] at hq
      cases hq.exit_eq
  | @step bb next path hnext hpath ih =>
    have hhas := has_block.mpr (exists_get_nearest ⟨path, hpath⟩)
    have habove := hon ⟨_, .step hnext hpath⟩ hnext hhas
    rcases h.eq_or_above with heq | hq
    · cases heq
      exact List.mem_cons_self
    · exact List.mem_cons_of_mem _ (ih (habove.trans hq))

theorem get_nearest : b.graph.nearest.get bb = some (.block q) ↔ b.Nearest q bb := by
  obtain ⟨-, hsweep, hnone⟩ := b.nearest_facts
  have hnearest {q : b.BlockIx} (h : b.graph.nearest.get bb = some (.block q)) :
      b.Nearest q bb := by
    obtain ⟨hbb, -, hlt⟩ := hsweep.closed bb _ h
    refine ⟨mem_leavingOrder.mp hbb, ?_, ?_, hnone bb _ h⟩
    · rintro rfl
      exact lt_irrefl _ hlt
    · exact postDominates_of_climbs (.single (above_of_get h))
  refine ⟨hnearest, fun h => ?_⟩
  obtain ⟨node, hnode⟩ := exists_get_nearest h.canExit
  cases node with
  | exit => exact (hnone bb _ hnode q h.ne h.dominates).elim
  | block r => rw [hnode, (hnearest hnode).unique h]

theorem get_immediate : b.immediate.get bb = some q ↔ b.Nearest q bb := by
  have hget : b.immediate.get bb = (b.graph.nearest.get bb).bind BlockNode.block? :=
    Vector.getElem_map _ bb.isLt
  rw [hget, ← get_nearest]
  cases b.graph.nearest.get bb with
  | none => simp
  | some node => cases node <;> simp [BlockNode.block?]

/-- The sweeps over the candidates end with one that changes nothing. The immediate post-dominator
that they give is the first other block that all paths from a block to the exit pass, and a block
has none just if it has no such path or no other block is on all of them. -/
theorem immediate_is_nearest (b : Body) (bb : b.BlockIx) :
    b.graph.leavingOrder.foldr (b.graph.improve (.ofOrder b.graph.leavingOrder)) b.graph.nearest =
        b.graph.nearest ∧
      (∀ p, b.immediate.get bb = some p ↔
        b.CanExit bb ∧ p ≠ bb ∧ b.PostDominates p bb ∧
          ∀ q, q ≠ bb → b.PostDominates q bb → b.PostDominates q p) ∧
      (b.immediate.get bb = none ↔
        ¬ b.CanExit bb ∨ ∀ q, q ≠ bb → ¬ b.PostDominates q bb) := by
  obtain ⟨hstable, -, hnone⟩ := b.nearest_facts
  refine ⟨hstable, fun p => get_immediate.trans ?_, fun h => ?_, fun h => ?_⟩
  · exact ⟨fun h => ⟨h.canExit, h.ne, h.dominates, h.first⟩,
      fun ⟨hexit, hne, hdom, hfirst⟩ => ⟨hexit, hne, hdom, hfirst⟩⟩
  · refine or_iff_not_imp_left.mpr fun hexit q hne hdom => ?_
    obtain ⟨node, hnode⟩ := exists_get_nearest (not_not.mp hexit)
    cases node with
    | exit => exact hnone bb _ hnode q hne hdom
    | block r =>
      have hsome := get_immediate.mpr (get_nearest.mp hnode)
      rw [h] at hsome
      cases hsome
  · refine Option.eq_none_iff_forall_not_mem.mpr fun p hp => ?_
    have hp := get_immediate.mp hp
    exact h.elim (fun hexit => hexit hp.canExit) fun hall => hall p hp.ne hp.dominates

end LockUsage.Body
