import Mathlib.Tactic.SplitIfs

/-! Passes that are repeated until one changes nothing. A pass that only ever adds marks, to a fixed
number of places, has nothing more to add after as many rounds as there are places. -/

namespace LockUsage

/-- Applies a function until that changes nothing, at most so many times. -/
def untilStable [DecidableEq α] (f : α → α) : Nat → α → α
  | 0, a => a
  | rounds + 1, a => if f a = a then a else untilStable f rounds (f a)

variable [DecidableEq α] {f : α → α} {Q : α → Prop} (hf : ∀ a, Q a → Q (f a))
include hf

theorem untilStable_preserves {a : α} (ha : Q a) (rounds : Nat) : Q (untilStable f rounds a) := by
  induction rounds generalizing a with
  | zero => exact ha
  | succ rounds ih =>
    rw [untilStable]
    split_ifs
    · exact ha
    · exact ih (hf a ha)

/-- If each change raises a number that has a bound, so many rounds are enough. -/
theorem untilStable_stable (size : α → Nat) (bound : Nat)
    (hle : ∀ a, Q a → size a ≤ bound) (hlt : ∀ a, Q a → f a ≠ a → size a < size (f a))
    {rounds : Nat} {a : α} (ha : Q a) (h : bound < size a + rounds) :
    f (untilStable f rounds a) = untilStable f rounds a := by
  induction rounds generalizing a with
  | zero =>
    have := hle a ha
    omega
  | succ rounds ih =>
    rw [untilStable]
    split_ifs with hs
    · exact hs
    · have hgrow := hlt a ha hs
      exact ih (hf a ha) (by omega)

end LockUsage
