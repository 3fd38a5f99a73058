import LockUsage.Graph.PostDominance
import Mathlib.Logic.Relation
import Mathlib.Order.Nat
import Mathlib.Tactic.SplitIfs

/-! Candidates as a tree. Each node has one candidate, which has a later place, so from each node
one chain climbs to the exit. The chains of two nodes run together from the node where they meet. -/

namespace LockUsage.BlockGraph

variable {n : Nat} {ranks : Ranks n} {c : Candidates n} {x y z node : BlockNode n} {bb : Fin n}

/-- The exit has the last place. -/
def Ranks.ExitLast (ranks : Ranks n) : Prop := ∀ bb, ranks.rank (.block bb) < ranks.rank .exit

theorem Ranks.ExitLast.rank_le (h : ranks.ExitLast) (x : BlockNode n) : ranks.rank x ≤ n := by
  cases x with
  | block bb => exact (h bb).le
  | exit => exact le_rfl

namespace Candidates

theorem get_put {bb' : Fin n} :
    (c.put bb node).get bb' = if bb = bb' then some node else c.get bb' :=
  (Vector.getElem_set bb.isLt bb'.isLt).trans (by simp only [Fin.val_inj]; rfl)

theorem above_put_self : (c.put bb node).above (.block bb) = node := by
  rw [above, get_put, if_pos rfl, Option.getD_some]

theorem above_put_of_ne (h : x ≠ .block bb) : (c.put bb node).above x = c.above x := by
  cases x with
  | block bb' => rw [above, get_put, if_neg fun he => h (congrArg _ he.symm), above]
  | exit => rfl

/-- Candidates lead from one node to another. -/
def Climbs (c : Candidates n) : BlockNode n → BlockNode n → Prop :=
  Relation.ReflTransGen fun x y => c.above x = y

/-- Every candidate has a later place. -/
def Rising (ranks : Ranks n) (c : Candidates n) : Prop :=
  ∀ bb, ranks.rank (.block bb) < ranks.rank (c.above (.block bb))

namespace Climbs

theorem above (x : BlockNode n) : c.Climbs x (c.above x) := .single rfl

theorem eq_or_above (h : c.Climbs x y) : x = y ∨ c.Climbs (c.above x) y := by
  rcases Relation.ReflTransGen.cases_head h with h | ⟨_, rfl, h⟩
  · exact .inl h
  · exact .inr h

theorem exit_eq (h : c.Climbs .exit y) : y = .exit := by
  induction h with
  | refl => rfl
  | tail _ hstep ih =>
    subst ih
    exact hstep.symm

/-- Of two nodes on one chain, one climbs to the other. -/
theorem total (hy : c.Climbs x y) (hz : c.Climbs x z) : c.Climbs y z ∨ c.Climbs z y :=
  Relation.ReflTransGen.total_of_right_unique (fun _ _ _ h h' => h.symm.trans h') hy hz

theorem eq_or_lt (hrising : c.Rising ranks) (h : c.Climbs x y) :
    x = y ∨ ranks.rank x < ranks.rank y := by
  induction h with
  | refl => exact .inl rfl
  | @tail y _ _ hstep ih =>
    subst hstep
    cases y with
    | block bb =>
      have hlt := hrising bb
      rcases ih with rfl | ih
      · exact .inr hlt
      · exact .inr (ih.trans hlt)
    | exit => exact ih

theorem rank_le (hrising : c.Rising ranks) (h : c.Climbs x y) : ranks.rank x ≤ ranks.rank y := by
  rcases h.eq_or_lt hrising with rfl | hlt
  · exact le_rfl
  · exact hlt.le

/-- On one chain, the node with the later place is climbed to from the other. -/
theorem of_rank_le (hrising : c.Rising ranks) (hy : c.Climbs x y) (hz : c.Climbs x z)
    (hle : ranks.rank y ≤ ranks.rank z) : c.Climbs y z := by
  rcases hy.total hz with h | h
  · exact h
  · rcases h.eq_or_lt hrising with rfl | hlt
    · exact .refl
    · omega

end Climbs

/-- Two chains meet at the first node that they share. -/
theorem climbs_meetWithin (hlast : ranks.ExitLast) (hrising : c.Rising ranks) {fuel : Nat}
    (hfuel : 2 * n < fuel + ranks.rank x + ranks.rank y) :
    c.Climbs x (c.meetWithin ranks fuel x y) ∧ c.Climbs y (c.meetWithin ranks fuel x y) ∧
      ∀ z, c.Climbs x z → c.Climbs y z → c.Climbs (c.meetWithin ranks fuel x y) z := by
  induction fuel generalizing x y with
  | zero =>
    have hx := hlast.rank_le x
    have hy := hlast.rank_le y
    omega
  | succ fuel ih =>
    rw [meetWithin]
    split_ifs with heq hlt
    · subst heq
      exact ⟨.refl, .refl, fun _ hz _ => hz⟩
    · cases x with
      | exit =>
        have hy := hlast.rank_le y
        exact absurd hlt (Nat.not_lt.mpr hy)
      | block bb =>
        have hup := hrising bb
        obtain ⟨hx, hy, hall⟩ := ih (x := c.above (.block bb)) (y := y) (by omega)
        refine ⟨(Climbs.above _).trans hx, hy, fun z hz hyz => hall z ?_ hyz⟩
        refine hz.eq_or_above.resolve_left ?_
        -- The node behind is not on the chain of the other one.
        rintro rfl
        have hle := hyz.rank_le hrising
        omega
    · cases y with
      | exit =>
        cases x with
        | exit => exact absurd rfl heq
        | block bb => exact absurd (hlast bb) hlt
      | block bb =>
        have hup := hrising bb
        obtain ⟨hx, hy, hall⟩ := ih (x := x) (y := c.above (.block bb)) (by omega)
        refine ⟨hx, (Climbs.above _).trans hy, fun z hxz hz => hall z hxz ?_⟩
        refine hz.eq_or_above.resolve_left ?_
        rintro rfl
        rcases hxz.eq_or_lt hrising with h | h
        · exact heq h
        · exact hlt h

theorem climbs_meet (hlast : ranks.ExitLast) (hrising : c.Rising ranks) (x y : BlockNode n) :
    c.Climbs x (c.meet ranks x y) ∧ c.Climbs y (c.meet ranks x y) ∧
      ∀ z, c.Climbs x z → c.Climbs y z → c.Climbs (c.meet ranks x y) z :=
  climbs_meetWithin hlast hrising (by omega)

/-- Many chains meet at the first node that all share. -/
theorem climbs_foldl_meet (hlast : ranks.ExitLast) (hrising : c.Rising ranks)
    (first : BlockNode n) (rest : List (BlockNode n)) :
    (∀ s ∈ first :: rest, c.Climbs s (rest.foldl (c.meet ranks) first)) ∧
      ∀ z, (∀ s ∈ first :: rest, c.Climbs s z) →
        c.Climbs (rest.foldl (c.meet ranks) first) z := by
  induction rest generalizing first with
  | nil =>
    refine ⟨fun s hs => ?_, fun z hz => hz first List.mem_cons_self⟩
    obtain rfl := List.mem_singleton.mp hs
    exact .refl
  | cons second rest ih =>
    rw [List.foldl_cons]
    obtain ⟨hfirst, hsecond, hmeet⟩ := climbs_meet hlast hrising first second
    obtain ⟨hall, hlow⟩ := ih (c.meet ranks first second)
    have hon := hall _ List.mem_cons_self
    refine ⟨fun s hs => ?_, fun z hz => hlow z fun s hs => ?_⟩
    · rcases List.mem_cons.mp hs with rfl | hs
      · exact hfirst.trans hon
      rcases List.mem_cons.mp hs with rfl | hs
      · exact hsecond.trans hon
      · exact hall s (List.mem_cons_of_mem _ hs)
    · rcases List.mem_cons.mp hs with rfl | hs
      · exact hmeet z (hz _ List.mem_cons_self) (hz _ (List.mem_cons_of_mem _ List.mem_cons_self))
      · exact hz s (List.mem_cons_of_mem _ (List.mem_cons_of_mem _ hs))

section Put

/-! A block gets a candidate with a later place. Chains that do not come to the block stay as they
are, and the others go on from the new candidate. -/

theorem Rising.put (hrising : c.Rising ranks) (h : ranks.rank (.block bb) < ranks.rank node) :
    (c.put bb node).Rising ranks := by
  intro bb'
  by_cases he : bb' = bb
  · subst he
    rwa [above_put_self]
  · rw [above_put_of_ne fun h => he (by cases h; rfl)]
    exact hrising bb'

theorem climbs_put_of_not (h : ¬ c.Climbs x (.block bb)) :
    (c.put bb node).Climbs x y ↔ c.Climbs x y := by
  have habove {w : BlockNode n} (hw : c.Climbs x w) : (c.put bb node).above w = c.above w :=
    above_put_of_ne fun he => h (he ▸ hw)
  constructor
  · intro hy
    induction hy with
    | refl => exact .refl
    | tail _ hstep ih => exact ih.tail ((habove ih).symm.trans hstep)
  · intro hy
    induction hy with
    | refl => exact .refl
    | tail hw hstep ih => exact ih.tail ((habove hw).trans hstep)

/-- Up to the place of the block, chains stay as they are. -/
theorem Climbs.put_of_le (hrising : c.Rising ranks) (h : c.Climbs x y)
    (hle : ranks.rank y ≤ ranks.rank (.block bb)) : (c.put bb node).Climbs x y := by
  induction h with
  | refl => exact .refl
  | @tail w _ _ hstep ih =>
    subst hstep
    have hne : w ≠ .block bb := by
      rintro rfl
      exact absurd (hrising bb) (Nat.not_lt.mpr hle)
    refine (ih ?_).tail (above_put_of_ne hne)
    exact (Climbs.above w).rank_le hrising |>.trans hle

theorem Climbs.of_put (h : (c.put bb node).Climbs x y) :
    c.Climbs x y ∨ c.Climbs x (.block bb) ∧ c.Climbs node y := by
  by_cases hbb : c.Climbs x (.block bb)
  · induction h with
    | refl => exact .inl .refl
    | @tail w _ _ hstep ih =>
      subst hstep
      by_cases hw : w = .block bb
      · subst hw
        rw [above_put_self]
        exact .inr ⟨hbb, .refl⟩
      · rw [above_put_of_ne hw]
        exact ih.imp (fun h => h.tail rfl) fun ⟨h, hy⟩ => ⟨h, hy.tail rfl⟩
  · exact .inl ((climbs_put_of_not hbb).mp h)

end Put

end Candidates

end LockUsage.BlockGraph
