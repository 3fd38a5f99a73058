import LockUsage.Proofs.ClearedOutcomes
import LockUsage.Proofs.Problems
import Mathlib.Data.List.Infix

/-! Which feasible paths are kept when infeasible ones are dropped. A walk is consistent if one
assignment of truth values agrees with all branches on it. It can lose its facts at a branch whose
test had another outcome on another walk to it, unless that outcome is cleared on the way. -/

namespace LockUsage

namespace Problem

variable {P : Problem}

/-- Whether a way out of a node agrees with an assignment. -/
def agrees (P : Problem) (a : Assignment) : P.Node × Branch → Bool
  | (.inst i, way) => !P.body.isConditional i ||
      match (P.guard i).1 with
      | .predicate name negated => way.isTaken == (a.holds name != negated)
      | .constant value => way.isTaken == value
      | .unknown => true
  | (.ret, _) => true

/-- The assignment agrees with all branches on a route. -/
def Consistent (P : Problem) (a : Assignment) (route : P.Route) : Prop :=
  ∀ step ∈ route, P.agrees a step = true

instance (a : Assignment) (route : P.Route) : Decidable (P.Consistent a route) :=
  inferInstanceAs (Decidable (∀ step ∈ route, _))

/-- At every test on the route but the first, what other walks found out and rules out the outcome
there is cleared, for the lock in the class in which the route brings it. -/
def Unrivalled (P : Problem) (route : P.Route) : Prop :=
  ∀ pre i way outcome, pre ++ [(.inst i, way)] <+: route → P.outcome? i way = some outcome →
    P.outcomes pre ≠ [] → ∀ n, P.MayLeave pre n → P.Clears outcome i (n + P.delta i).sign

theorem holds_of_agrees {a : Assignment} {i : P.body.InstIx} {way : Branch} {outcome : String × Bool}
    (h : P.agrees a (.inst i, way) = true) (hout : P.outcome? i way = some outcome) :
    a.holds outcome.1 = outcome.2 := by
  obtain ⟨hc, name, negated, hguard, rfl⟩ := P.guard_of_outcome? hout
  have hway : way.isTaken = (a.holds name != negated) := by simpa [agrees, hc, hguard] using h
  rw [hway]
  cases a.holds name <;> cases negated <;> rfl

/-- It is enough if no walk that comes to such a test in the same class has found anything on what
is tested there that the assignment disagrees with. -/
theorem Consistent.unrivalled {a : Assignment} {route : P.Route} (hcons : P.Consistent a route)
    (h : ∀ pre i way outcome, pre ++ [(.inst i, way)] <+: route → P.outcome? i way = some outcome →
      P.outcomes pre = [] ∨ ∀ other e, P.body.Walk other e → e.target = .inst i →
        (∀ step ∈ other, P.Opens step) → ∀ m n, P.MayLeave pre m → P.MayLeave other n →
        (n + P.delta i).sign = (m + P.delta i).sign →
        ∀ entry ∈ P.outcomes other, SameKey entry.1 outcome.1 → a.holds entry.1 = entry.2) :
    P.Unrivalled route := by
  intro pre i way outcome hpre hout htested m hm
  have hagree := (h pre i way outcome hpre hout).resolve_left htested
  have hholds := holds_of_agrees (hcons (.inst i, way) (hpre.subset (by simp))) hout
  refine .of_no_rival fun other n hrival => ?_
  obtain ⟨e, hw, ht⟩ := hrival.walk
  obtain ⟨entry, hentry, hex⟩ := hrival.excludes
  exact hex.holds_ne hholds
    (hagree other e hw ht hrival.opens m n hm hrival.leaves hrival.sign_eq entry hentry hex.1)

end Problem

end LockUsage
