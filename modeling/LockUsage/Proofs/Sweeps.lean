import LockUsage.Proofs.Climbing
import LockUsage.Proofs.LeavingOrder
import LockUsage.Proofs.Saturation
import Mathlib.Data.Fintype.Prod

/-! Sweeps over the blocks. Each sweep moves candidates only up their own chains, so that after as
many sweeps as there are places for all candidates, none moves any more. -/

namespace LockUsage.BlockGraph

open Candidates

variable {n place : Nat} {g : BlockGraph n} {ranks : Ranks n} {order : List (Fin n)}
  {c : Candidates n} {x y s node : BlockNode n} {bb : Fin n}

/-- An order of blocks and its places, where each block leads to a node with a later place. -/
structure Ranked (g : BlockGraph n) (ranks : Ranks n) (order : List (Fin n)) : Prop where
  nodup : order.Nodup
  rank_block : ∀ bb, ranks.rank (.block bb) = order.idxOf bb
  later : ∀ bb ∈ order, ∃ node ∈ g.get bb, (∀ next, node = .block next → next ∈ order) ∧
    ranks.rank (.block bb) < ranks.rank node

/-- An order without repetition leaves room for one more place. -/
theorem idxOf_lt_size (hnodup : order.Nodup) (bb : Fin n) : order.idxOf bb < n := by
  by_cases hbb : bb ∈ order
  · exact (List.idxOf_lt_length_of_mem hbb).trans_le
      (hnodup.length_le_card.trans_eq (Fintype.card_fin n))
  · rw [List.idxOf_eq_length hbb]
    exact (List.nodup_cons.mpr ⟨hbb, hnodup⟩).length_le_card.trans_eq (Fintype.card_fin n)

namespace Ranked

theorem exitLast (h : g.Ranked ranks order) : ranks.ExitLast := by
  intro bb
  rw [h.rank_block]
  exact idxOf_lt_size h.nodup bb

theorem rank_lt (h : g.Ranked ranks order) (hbb : bb ∈ order) :
    ranks.rank (.block bb) < order.length := by
  rw [h.rank_block]
  exact List.idxOf_lt_length_of_mem hbb

theorem eq_of_rank_eq (h : g.Ranked ranks order) {bb' : Fin n} (hbb : bb ∈ order)
    (heq : ranks.rank (.block bb) = ranks.rank (.block bb')) : bb = bb' := by
  rw [h.rank_block, h.rank_block] at heq
  exact (List.idxOf_inj hbb).mp heq

end Ranked

theorem ranked_leavingOrder (g : BlockGraph n) :
    g.Ranked (.ofOrder g.leavingOrder) g.leavingOrder := by
  have hrank (bb : Fin n) :
      (Ranks.ofOrder g.leavingOrder).rank (.block bb) = g.leavingOrder.idxOf bb := get_ofFn _ bb
  refine ⟨g.nodup_leavingOrder, hrank, fun bb hbb => ?_⟩
  rcases g.leadsOn_leavingOrder.exists_later g.nodup_leavingOrder hbb with hexit | hnext
  · refine ⟨.exit, hexit, fun next h => (by cases h), ?_⟩
    rw [hrank]
    exact idxOf_lt_size g.nodup_leavingOrder bb
  · obtain ⟨next, hnext, hleads, hlt⟩ := hnext
    refine ⟨.block next, hleads, fun next' h => (by cases h; exact hnext), ?_⟩
    rwa [hrank, hrank]

/-- Candidates are nodes with a later place that are known themselves. -/
def Closed (ranks : Ranks n) (order : List (Fin n)) (c : Candidates n) : Prop :=
  ∀ bb node, c.get bb = some node →
    bb ∈ order ∧ c.has node = true ∧ ranks.rank (.block bb) < ranks.rank node

namespace Candidates

theorem has_block : c.has (.block bb) = true ↔ ∃ node, c.get bb = some node :=
  Option.isSome_iff_exists

theorem above_of_get (h : c.get bb = some node) : c.above (.block bb) = node := by
  rw [above, h, Option.getD_some]

theorem has_put : (c.put bb node).has x = true ↔ x = .block bb ∨ c.has x = true := by
  cases x with
  | exit => simp [has]
  | block bb' =>
    rw [has, get_put]
    split_ifs with h
    · simp [h]
    · simp [has, Ne.symm h]

/-- Other blocks keep what they have. -/
theorem of_has_put {bb' : Fin n} (h : (c.put bb node).has (.block bb') = true) (hne : bb' ≠ bb) :
    c.has (.block bb') = true ∧ (c.put bb node).above (.block bb') = c.above (.block bb') := by
  have hne : BlockNode.block bb' ≠ .block bb := fun he => hne (by cases he; rfl)
  exact ⟨(has_put.mp h).resolve_left hne, above_put_of_ne hne⟩

theorem put_eq_self (h : c.get bb = some node) : c.put bb node = c := by
  refine Vector.ext fun i hi => ?_
  have hget : (c.put bb node).get ⟨i, hi⟩ = c.get ⟨i, hi⟩ := by
    rw [get_put]
    split_ifs with he
    · rw [← he, h]
    · rfl
  exact hget

end Candidates

namespace Closed

theorem mem_order (h : Closed ranks order c) (hbb : c.has (.block bb) = true) : bb ∈ order := by
  obtain ⟨node, hnode⟩ := has_block.mp hbb
  exact (h bb node hnode).1

theorem rising (h : Closed ranks order c) (hlast : ranks.ExitLast) : c.Rising ranks := by
  intro bb
  cases hnode : c.get bb with
  | some node =>
    rw [above_of_get hnode]
    exact (h bb node hnode).2.2
  | none =>
    rw [above, hnode, Option.getD_none]
    exact hlast bb

theorem has_of_climbs (h : Closed ranks order c) (hx : c.has x = true) (hy : c.Climbs x y) :
    c.has y = true := by
  induction hy with
  | refl => exact hx
  | @tail y _ _ hstep ih =>
    subst hstep
    cases y with
    | exit => rfl
    | block bb =>
      obtain ⟨node, hnode⟩ := has_block.mp ih
      rw [above_of_get hnode]
      exact (h bb node hnode).2.1

theorem put (h : Closed ranks order c) (hbb : bb ∈ order) (hnode : c.has node = true)
    (hlt : ranks.rank (.block bb) < ranks.rank node) : Closed ranks order (c.put bb node) := by
  intro bb' node' hget
  rw [get_put] at hget
  split_ifs at hget with he
  · cases hget
    subst he
    exact ⟨hbb, has_put.mpr (.inr hnode), hlt⟩
  · obtain ⟨hmem, hhas, hlt⟩ := h bb' node' hget
    exact ⟨hmem, has_put.mpr (.inr hhas), hlt⟩

end Closed

/-- A better candidate for a block: where the chains of its neighbours meet, further up its own
chain. -/
structure Improves (g : BlockGraph n) (ranks : Ranks n) (c : Candidates n) (bb : Fin n)
    (node : BlockNode n) : Prop where
  known : c.has node = true
  lt : ranks.rank (.block bb) < ranks.rank node
  shared : ∀ s ∈ g.get bb, c.has s = true → c.Climbs s node
  first : ∀ x, (∀ s ∈ g.get bb, c.has s = true → c.Climbs s x) → c.Climbs node x
  up : c.has (.block bb) = true → c.Climbs (c.above (.block bb)) node

/-- Chains of known nodes only lose nodes. -/
theorem Improves.climbs_of_put (h : g.Improves ranks c bb node) (hclosed : Closed ranks order c)
    (hx : c.has x = true) (hy : (c.put bb node).Climbs x y) : c.Climbs x y := by
  rcases hy.of_put with hy | ⟨hbb, hy⟩
  · exact hy
  · exact ((hbb.tail rfl).trans (h.up (hclosed.has_of_climbs hx hbb))).trans hy

theorem candidate?_eq_none : g.candidate? ranks c bb = none ↔ ∀ s ∈ g.get bb, c.has s = false := by
  rw [candidate?]
  split
  · next h => simpa [List.filter_eq_nil_iff] using h
  · next first rest h =>
    have hmem : first ∈ (g.get bb).filter c.has := h ▸ List.mem_cons_self
    rw [List.mem_filter] at hmem
    simp only [reduceCtorEq, false_iff, not_forall]
    exact ⟨first, hmem.1, by simp [hmem.2]⟩

theorem climbs_candidate? (hlast : ranks.ExitLast) (hrising : c.Rising ranks)
    (h : g.candidate? ranks c bb = some node) :
    (∀ s ∈ g.get bb, c.has s = true → c.Climbs s node) ∧
      ∀ x, (∀ s ∈ g.get bb, c.has s = true → c.Climbs s x) → c.Climbs node x := by
  rw [candidate?] at h
  split at h
  · cases h
  · next first rest hfilter =>
    cases h
    have hmem (s : BlockNode n) : s ∈ first :: rest ↔ s ∈ g.get bb ∧ c.has s = true := by
      rw [← hfilter, List.mem_filter]
    obtain ⟨hall, hlow⟩ := climbs_foldl_meet hlast hrising first rest
    exact ⟨fun s hs hhas => hall s ((hmem s).mpr ⟨hs, hhas⟩), fun x hx =>
      hlow x fun s hs => hx s ((hmem s).mp hs).1 ((hmem s).mp hs).2⟩

/-- What holds in a sweep that has come to a place, and has improved the blocks from there on. -/
structure Sweeping (g : BlockGraph n) (ranks : Ranks n) (order : List (Fin n)) (place : Nat)
    (c : Candidates n) : Prop where
  closed : Closed ranks order c
  reached : ∀ bb ∈ order, place ≤ ranks.rank (.block bb) → c.has (.block bb) = true
  /-- In the first sweep, nothing is known of the blocks that it has not come to. -/
  even : (∀ bb ∈ order, c.has (.block bb) = true) ∨
    ∀ bb, c.has (.block bb) = true → place ≤ ranks.rank (.block bb)
  lowest : ∀ bb, c.has (.block bb) = true → ∀ x,
    (∀ s ∈ g.get bb, c.has s = true → c.Climbs s x) →
    ranks.rank (c.above (.block bb)) ≤ ranks.rank x
  /-- Where the sweep has been, the candidate is on the chains of the neighbours further on. -/
  behind : ∀ bb, c.has (.block bb) = true → place ≤ ranks.rank (.block bb) → ∀ s ∈ g.get bb,
    c.has s = true → ranks.rank (.block bb) < ranks.rank s → c.Climbs s (c.above (.block bb))
  /-- Where it has not been, this was so before. Such a chain has changed only behind the place that
  the sweep has come to, and there the chain of the candidate has changed with it. -/
  ahead : ∀ bb, c.has (.block bb) = true → ranks.rank (.block bb) < place → ∀ s ∈ g.get bb,
    c.has s = true → ranks.rank (.block bb) < ranks.rank s →
    (ranks.rank (c.above (.block bb)) ≤ place → c.Climbs s (c.above (.block bb))) ∧
      ∀ x, c.Climbs s x → ranks.rank (c.above (.block bb)) ≤ ranks.rank x →
        c.Climbs (c.above (.block bb)) x

namespace Sweeping

theorem rising (h : g.Sweeping ranks order place c) (hr : g.Ranked ranks order) :
    c.Rising ranks := h.closed.rising hr.exitLast

/-- The next block of a sweep gets a better candidate. -/
theorem exists_improves (hr : g.Ranked ranks order) (hbb : bb ∈ order)
    (h : g.Sweeping ranks order (ranks.rank (.block bb) + 1) c) :
    ∃ node, g.improve ranks bb c = c.put bb node ∧ g.Improves ranks c bb node := by
  have hrising := h.rising hr
  obtain ⟨later, hlater, horder, hlt⟩ := hr.later bb hbb
  have hhas : c.has later = true := by
    cases later with
    | exit => rfl
    | block next => exact h.reached next (horder next rfl) hlt
  cases hnode : g.candidate? ranks c bb with
  | none =>
    rw [candidate?_eq_none.mp hnode later hlater] at hhas
    cases hhas
  | some node =>
    obtain ⟨hshared, hfirst⟩ := climbs_candidate? hr.exitLast hrising hnode
    have hon := hshared later hlater hhas
    refine ⟨node, by rw [improve, hnode], h.closed.has_of_climbs hhas hon,
      hlt.trans_le (hon.rank_le hrising), hshared, hfirst, fun hknown => ?_⟩
    exact (h.ahead bb hknown (Nat.lt_succ_self _) later hlater hhas hlt).2 node hon
      (h.lowest bb hknown node hshared)

/-- What a step of a sweep does to the blocks that it has not come to. -/
theorem ahead_put (hr : g.Ranked ranks order) (hbb : bb ∈ order)
    (h : g.Sweeping ranks order (ranks.rank (.block bb) + 1) c)
    (himp : g.Improves ranks c bb node) {bb' : Fin n} (hhas : c.has (.block bb') = true)
    (hlt : ranks.rank (.block bb') < ranks.rank (.block bb)) (hs : s ∈ g.get bb')
    (hsome : (c.put bb node).has s = true) (hup : ranks.rank (.block bb') < ranks.rank s) :
    (ranks.rank (c.above (.block bb')) ≤ ranks.rank (.block bb) →
      (c.put bb node).Climbs s (c.above (.block bb'))) ∧
      ∀ x, (c.put bb node).Climbs s x → ranks.rank (c.above (.block bb')) ≤ ranks.rank x →
        (c.put bb node).Climbs (c.above (.block bb')) x := by
  have hrising := h.rising hr
  have hall : ∀ bb ∈ order, c.has (.block bb) = true := by
    refine h.even.resolve_right fun hnone => ?_
    have := hnone bb' hhas
    omega
  have hsome : c.has s = true := by
    rcases has_put.mp hsome with rfl | hsome
    · exact hall bb hbb
    · exact hsome
  obtain ⟨hon, hbeyond⟩ := h.ahead bb' hhas (by omega) s hs hsome hup
  refine ⟨fun hle => (hon (by omega)).put_of_le hrising hle, fun x hx hle => ?_⟩
  by_cases hmeets : c.Climbs (c.above (.block bb')) (.block bb)
  · -- Both chains come to the block, and run together from there.
    have hbelow := hmeets.rank_le hrising
    have hsbb : c.Climbs s (.block bb) := (hon (by omega)).trans hmeets
    rcases Nat.lt_or_ge (ranks.rank x) (ranks.rank (.block bb)) with hxlt | hxge
    · exact (hbeyond x (himp.climbs_of_put h.closed hsome hx) hle).put_of_le hrising hxlt.le
    · have hrest : (c.put bb node).Climbs (.block bb) x :=
        Climbs.of_rank_le (hrising.put himp.lt) (hsbb.put_of_le hrising le_rfl) hx hxge
      exact (hmeets.put_of_le hrising le_rfl).trans hrest
  · exact (climbs_put_of_not hmeets).mpr (hbeyond x (himp.climbs_of_put h.closed hsome hx) hle)

/-- One step of a sweep. -/
theorem put (hr : g.Ranked ranks order) (hbb : bb ∈ order)
    (h : g.Sweeping ranks order (ranks.rank (.block bb) + 1) c)
    (himp : g.Improves ranks c bb node) :
    g.Sweeping ranks order (ranks.rank (.block bb)) (c.put bb node) where
  closed := h.closed.put hbb himp.known himp.lt
  reached bb' hbb' hle := by
    rcases hle.eq_or_lt with heq | hlt
    · exact has_put.mpr (.inl (congrArg _ (hr.eq_of_rank_eq hbb' heq.symm)))
    · exact has_put.mpr (.inr (h.reached bb' hbb' hlt))
  even := by
    refine h.even.imp (fun hall bb' hbb' => has_put.mpr (.inr (hall bb' hbb'))) ?_
    intro hnone bb' hhas
    rcases has_put.mp hhas with he | hhas
    · cases he
      exact le_rfl
    · exact Nat.le_of_succ_le (hnone bb' hhas)
  lowest bb' hhas x hx := by
    have hx' (s : BlockNode n) (hs : s ∈ g.get bb') (hsome : c.has s = true) : c.Climbs s x :=
      himp.climbs_of_put h.closed hsome (hx s hs (has_put.mpr (.inr hsome)))
    by_cases hne : bb' = bb
    · subst hne
      rw [above_put_self]
      exact (himp.first x hx').rank_le (h.rising hr)
    · obtain ⟨hhas, habove⟩ := of_has_put hhas hne
      rw [habove]
      exact h.lowest bb' hhas x hx'
  behind bb' hhas hle s hs hsome hup := by
    -- The neighbour is further on than the block, so its chain does not come there.
    have hoff : ¬ c.Climbs s (.block bb) := fun hclimb => by
      have := hclimb.rank_le (h.rising hr)
      omega
    have hknown : c.has s = true := (has_put.mp hsome).resolve_left fun he => hoff (he ▸ .refl)
    rw [climbs_put_of_not hoff]
    by_cases hne : bb' = bb
    · subst hne
      rw [above_put_self]
      exact himp.shared s hs hknown
    · obtain ⟨hhas, habove⟩ := of_has_put hhas hne
      rw [habove]
      refine h.behind bb' hhas (hle.lt_of_ne fun heq => hne ?_) s hs hknown hup
      exact (hr.eq_of_rank_eq hbb heq).symm
  ahead bb' hhas hlt s hs hsome hup := by
    obtain ⟨hhas, habove⟩ := of_has_put hhas fun he => absurd hlt (he ▸ lt_irrefl _)
    rw [habove]
    exact h.ahead_put hr hbb himp hhas hlt hs hsome hup

/-- A sweep keeps whatever each of its steps keeps. -/
theorem sweep {Q : Candidates n → Prop} (hr : g.Ranked ranks order)
    (hstep : ∀ c bb node, Closed ranks order c → g.Improves ranks c bb node →
      Q c → Q (c.put bb node))
    (h : g.Sweeping ranks order order.length c) (hc : Q c) :
    g.Sweeping ranks order 0 (order.foldr (g.improve ranks) c) ∧
      Q (order.foldr (g.improve ranks) c) := by
  -- From the last block on: those behind `done` have been improved.
  have hrun (done rest : List (Fin n)) (horder : done ++ rest = order) :
      g.Sweeping ranks order done.length (rest.foldr (g.improve ranks) c) ∧
        Q (rest.foldr (g.improve ranks) c) := by
    induction rest generalizing done with
    | nil =>
      rw [List.append_nil] at horder
      exact ⟨horder ▸ h, hc⟩
    | cons bb rest ih =>
      obtain ⟨hsweep, hq⟩ := ih (done ++ [bb]) (by simpa using horder)
      have hbb : bb ∈ order := horder ▸ List.mem_append_right _ List.mem_cons_self
      have hrank : ranks.rank (.block bb) = done.length := by
        have hdone : bb ∉ done := fun hmem =>
          (List.nodup_append.mp (horder ▸ hr.nodup)).2.2 bb hmem bb List.mem_cons_self rfl
        rw [hr.rank_block, ← horder, List.idxOf_append_of_notMem hdone, List.idxOf_cons_self,
          Nat.add_zero]
      rw [List.length_append, List.length_singleton, ← hrank] at hsweep
      obtain ⟨node, heq, himp⟩ := hsweep.exists_improves hr hbb
      rw [List.foldr_cons, heq, ← hrank]
      exact ⟨hsweep.put hr hbb himp, hstep _ bb node hsweep.closed himp hq⟩
  exact hrun [] order rfl

/-- After a sweep, the next one can start. -/
theorem restart (hr : g.Ranked ranks order) (h : g.Sweeping ranks order 0 c) :
    g.Sweeping ranks order order.length c := by
  have hrising := h.rising hr
  have hlt {bb : Fin n} (hbb : bb ∈ order) : ¬ order.length ≤ ranks.rank (.block bb) :=
    Nat.not_le.mpr (hr.rank_lt hbb)
  refine ⟨h.closed, fun bb hbb hle => absurd hle (hlt hbb),
    .inl fun bb hbb => h.reached bb hbb (Nat.zero_le _), h.lowest,
    fun bb hhas hle => absurd hle (hlt (h.closed.mem_order hhas)), ?_⟩
  intro bb hhas _ s hs hsome hup
  have hon := h.behind bb hhas (Nat.zero_le _) s hs hsome hup
  exact ⟨fun _ => hon, fun x hx hle => hon.of_rank_le hrising hx hle⟩

theorem start (hr : g.Ranked ranks order) :
    g.Sweeping ranks order order.length (Vector.replicate n none) := by
  have hget (bb : Fin n) : (Vector.replicate n (none : Option (BlockNode n))).get bb = none :=
    Vector.getElem_replicate bb.isLt
  have hhas (bb : Fin n) :
      ¬ Candidates.has (Vector.replicate n none) (.block bb : BlockNode n) = true := by
    rw [has, hget]
    exact Bool.false_ne_true
  refine ⟨fun bb node h => ?_, fun bb hbb hle => absurd hle (Nat.not_le.mpr (hr.rank_lt hbb)),
    .inr fun bb h => absurd h (hhas bb), fun bb h => absurd h (hhas bb),
    fun bb h => absurd h (hhas bb), fun bb h => absurd h (hhas bb)⟩
  rw [hget] at h
  cases h

end Sweeping

/-! Each change of a candidate gives it a later place, so that there are only so many sweeps. -/

namespace Candidates

/-- How far a candidate has come. -/
def progress (ranks : Ranks n) (c : Candidates n) (bb : Fin n) : Nat :=
  match c.get bb with
  | some node => ranks.rank node
  | none => 0

theorem progress_of_get (h : c.get bb = some node) : c.progress ranks bb = ranks.rank node := by
  rw [progress, h]

theorem progress_le (hlast : ranks.ExitLast) (bb : Fin n) : c.progress ranks bb ≤ n := by
  cases h : c.get bb with
  | some node => exact (progress_of_get h).trans_le (hlast.rank_le node)
  | none =>
    rw [progress, h]
    exact Nat.zero_le n

/-- No candidate has gone back, and one has gone on unless all are the same. -/
structure Advances (ranks : Ranks n) (c c' : Candidates n) : Prop where
  le : ∀ bb, c.progress ranks bb ≤ c'.progress ranks bb
  lt : c' ≠ c → ∃ bb, c.progress ranks bb < c'.progress ranks bb

theorem Advances.refl (c : Candidates n) : c.Advances ranks c :=
  ⟨fun _ => le_rfl, fun h => absurd rfl h⟩

theorem Advances.trans {c' c'' : Candidates n} (h : c.Advances ranks c')
    (h' : c'.Advances ranks c'') : c.Advances ranks c'' := by
  refine ⟨fun bb => (h.le bb).trans (h'.le bb), fun hne => ?_⟩
  by_cases heq : c' = c
  · obtain ⟨bb, hlt⟩ := h'.lt (heq ▸ hne)
    exact ⟨bb, (h.le bb).trans_lt hlt⟩
  · obtain ⟨bb, hlt⟩ := h.lt heq
    exact ⟨bb, hlt.trans_le (h'.le bb)⟩

/-- The places that all candidates have left behind. -/
def size (ranks : Ranks n) (c : Candidates n) : Nat :=
  (Finset.univ.filter fun p : Fin n × Fin n => p.2.val < c.progress ranks p.1).card

theorem size_le (c : Candidates n) : c.size ranks ≤ n * n := by
  refine (Finset.card_le_univ _).trans_eq ?_
  rw [Fintype.card_prod, Fintype.card_fin]

theorem Advances.size_lt (hlast : ranks.ExitLast) {c' : Candidates n} (h : c.Advances ranks c')
    (hne : c' ≠ c) : c.size ranks < c'.size ranks := by
  obtain ⟨bb, hlt⟩ := h.lt hne
  have hplace : c.progress ranks bb < n := hlt.trans_le (progress_le hlast bb)
  refine Finset.card_lt_card (Finset.ssubset_iff_of_subset (fun p hp => ?_) |>.mpr
    ⟨(bb, ⟨_, hplace⟩), ?_, ?_⟩)
  · simp only [Finset.mem_filter, Finset.mem_univ, true_and] at hp ⊢
    exact hp.trans_le (h.le p.1)
  · simpa using hlt
  · simp

end Candidates

theorem Improves.advances (h : g.Improves ranks c bb node) (hclosed : Closed ranks order c)
    (hlast : ranks.ExitLast) : c.Advances ranks (c.put bb node) := by
  have hnew : (c.put bb node).progress ranks bb = ranks.rank node :=
    progress_of_get (by rw [get_put, if_pos rfl])
  have hother {bb' : Fin n} (hne : bb ≠ bb') :
      (c.put bb node).progress ranks bb' = c.progress ranks bb' := by
    rw [progress, get_put, if_neg hne, progress]
  -- The candidate of the block stays where it is or goes on.
  have hself : c.put bb node = c ∨ c.progress ranks bb < ranks.rank node := by
    cases hget : c.get bb with
    | none =>
      rw [progress, hget]
      exact .inr ((Nat.zero_le _).trans_lt h.lt)
    | some old =>
      have hup := h.up (has_block.mpr ⟨old, hget⟩)
      rw [above_of_get hget] at hup
      rcases hup.eq_or_lt (hclosed.rising hlast) with rfl | hlt
      · exact .inl (put_eq_self hget)
      · exact .inr ((progress_of_get hget).trans_lt hlt)
  rcases hself with heq | hlt
  · rw [heq]
    exact .refl c
  · refine ⟨fun bb' => ?_, fun _ => ⟨bb, hnew ▸ hlt⟩⟩
    by_cases hne : bb = bb'
    · exact hne ▸ hnew ▸ hlt.le
    · exact (hother hne).ge

theorem improveWithin_eq (rounds : Nat) (c : Candidates n) :
    g.improveWithin ranks order rounds c =
      untilStable (fun c => order.foldr (g.improve ranks) c) rounds c := by
  induction rounds generalizing c with
  | zero => rfl
  | succ rounds ih => simp only [improveWithin, untilStable, ih]

/-- In the end the blocks have candidates that another sweep leaves as they are, and of which all
holds that each step keeps. -/
theorem nearest_settled {Q : Candidates n → Prop}
    (hstep : ∀ c bb node, Closed (.ofOrder g.leavingOrder) g.leavingOrder c →
      g.Improves (.ofOrder g.leavingOrder) c bb node → Q c → Q (c.put bb node))
    (hstart : Q (Vector.replicate n none)) :
    g.leavingOrder.foldr (g.improve (.ofOrder g.leavingOrder)) g.nearest = g.nearest ∧
      g.Sweeping (.ofOrder g.leavingOrder) g.leavingOrder 0 g.nearest ∧ Q g.nearest := by
  have hr := g.ranked_leavingOrder
  have hkeep (c : Candidates n) (h : g.Sweeping _ _ g.leavingOrder.length c ∧ Q c) :=
    (h.1.sweep hr hstep h.2).imp_left (Sweeping.restart hr)
  have hbegin := And.intro (Sweeping.start hr) hstart
  have hstable : g.leavingOrder.foldr (g.improve (.ofOrder g.leavingOrder)) g.nearest =
      g.nearest := by
    rw [nearest, improveWithin_eq]
    refine untilStable_stable hkeep (Candidates.size _) (n * n) (fun c _ => size_le c)
      (fun c h hne => Advances.size_lt hr.exitLast ?_ hne) hbegin (by omega)
    exact (h.1.sweep (Q := c.Advances _) hr (fun c' bb node hclosed himp hc' =>
      hc'.trans (himp.advances hclosed hr.exitLast)) (.refl c)).2
  have hend : g.Sweeping (.ofOrder g.leavingOrder) g.leavingOrder g.leavingOrder.length g.nearest ∧
      Q g.nearest := by
    rw [nearest, improveWithin_eq]
    exact untilStable_preserves hkeep hbegin _
  have hlast := hend.1.sweep hr hstep hend.2
  rw [hstable] at hlast
  exact ⟨hstable, hlast⟩

/-- A sweep that changes nothing in the end changes nothing on its way. -/
theorem improve_eq_of_foldr_eq (hnodup : order.Nodup)
    (h : order.foldr (g.improve ranks) c = c) (hbb : bb ∈ order) : g.improve ranks bb c = c := by
  have hother {bb bb' : Fin n} (hne : bb' ≠ bb) (c : Candidates n) :
      (g.improve ranks bb' c).get bb = c.get bb := by
    rw [improve]
    split
    · rw [get_put, if_neg hne]
    · rfl
  have hout {bb : Fin n} (bbs : List (Fin n)) (hnot : bb ∉ bbs) :
      (bbs.foldr (g.improve ranks) c).get bb = c.get bb := by
    induction bbs with
    | nil => rfl
    | cons first bbs ih =>
      rw [List.mem_cons, not_or] at hnot
      rw [List.foldr_cons, hother (Ne.symm hnot.1), ih hnot.2]
  induction order with
  | nil => cases hbb
  | cons first order ih =>
    obtain ⟨hfirst, hnodup⟩ := List.nodup_cons.mp hnodup
    rw [List.foldr_cons] at h
    have hrest : order.foldr (g.improve ranks) c = c := by
      refine Vector.ext fun i hi => ?_
      by_cases he : first = ⟨i, hi⟩
      · have hnot : ⟨i, hi⟩ ∉ order := he ▸ hfirst
        exact hout order hnot
      · have hget := hother he (order.foldr (g.improve ranks) c)
        rw [h] at hget
        exact hget.symm
    rcases List.mem_cons.mp hbb with rfl | hbb
    · rwa [hrest] at h
    · exact ih hnodup hrest hbb

/-- Where a block's candidate stays, the chains of its neighbours come to it. -/
theorem climbs_above_of_improve_eq (hlast : ranks.ExitLast) (hrising : c.Rising ranks)
    (h : g.improve ranks bb c = c) (hs : s ∈ g.get bb) (hhas : c.has s = true) :
    c.Climbs s (c.above (.block bb)) := by
  cases hnode : g.candidate? ranks c bb with
  | none =>
    rw [candidate?_eq_none.mp hnode s hs] at hhas
    cases hhas
  | some node =>
    have habove : c.above (.block bb) = node := by
      rw [improve, hnode] at h
      exact (congrArg (fun c => Candidates.above c (.block bb)) h).symm.trans above_put_self
    rw [habove]
    exact (climbs_candidate? hlast hrising hnode).1 s hs hhas

end LockUsage.BlockGraph
