import LockUsage.Proofs.Problems
import LockUsage.Proofs.Termination
import Mathlib.Logic.Function.Iterate

/-! Which runs converge. A run converges, given enough steps, if every loop passes an anchor. Other
runs come back to a state in which they were before, and so go on for ever: round a loop, levels
beyond -1 and 1 and path conditions that come from before the loop need not settle. -/

namespace LockUsage

attribute [ext] SolverState

deriving instance DecidableEq for EdgeLog, Worklist

namespace Problem

variable {P : Problem}

/-- One step of a run, if anything is pending. -/
def advance (P : Problem) (s : P.State) : P.State :=
  match s.work.pop? with
  | none => s
  | some (node, work) => P.step { s with work } node

end Problem

def pollingText : String :=
  r#"["m",["l"],[["k",["x"]],["u",["x"]],["f",["n"],[["A",[["br","H"]]],["H",[["cmp","more","ne","%n","0"],["cond_br","%more","B","X"]]],["B",[["call",null,"k",["@l"]],["call",null,"u",["@l"]],["br","H"]]],["X",[["ret"]]]]]]]"#

/-- Acquires and releases its lock each time round a loop, as long as a condition holds. -/
def pollingFunc : Func where
  name := "f"
  params := ["n"]
  blocks := #[⟨"A", [0]⟩, ⟨"H", [1, 2]⟩, ⟨"B", [3, 4, 5]⟩, ⟨"X", [6]⟩]
  insts := #[⟨none, 0, .br 1⟩, ⟨some "more", 1, .cmp .ne (.arg 0) (.const (.int 0))⟩,
    ⟨none, 1, .condBr (.inst 1) 2 3⟩, ⟨none, 2, .call (.direct 0) [.global 0]⟩,
    ⟨none, 2, .call (.direct 1) [.global 0]⟩, ⟨none, 2, .br 1⟩, ⟨none, 3, .ret none⟩]

def polling : Program :=
  ⟨"m", #["l"], #[⟨"k", ["x"], #[], #[]⟩, ⟨"u", ["x"], #[], #[]⟩, pollingFunc]⟩

def pollingBody : Body := ⟨pollingFunc, by decide +kernel⟩

def pollingSites : SiteMap :=
  .ofList [⟨3, .acquire, .global 0, false, 0⟩, ⟨4, .release, .global 0, false, 0⟩]

def polledLock : TrackedLock := ⟨"@l", ⟨2, .global 0⟩, false⟩

def pollingProblem : Problem :=
  .pose .default polling 2 pollingBody polledLock [(3, some .acquire), (4, some .release)]

/-- The edge by which control enters. -/
def pollingEntry : pollingProblem.Edge := .entry ⟨0, by decide +kernel⟩

/-- The level of the lock on each edge. -/
def pollingMarks : List (pollingProblem.Edge × Int) :=
  ([[.taken, .taken, .taken, .taken, .taken, .taken],
    [.taken, .taken, .notTaken, .taken, .taken]].flatMap List.inits).map fun ways =>
      (pollingBody.along pollingEntry ways,
        pollingProblem.level (pollingBody.passing pollingEntry ways))

theorem mem_pollingMarks {route : pollingProblem.Route} {e : pollingProblem.Edge}
    (hw : pollingProblem.body.Walk route e) : (e, pollingProblem.level route) ∈ pollingMarks := by
  rw [← Int.zero_add (pollingProblem.level route), ← Problem.foldl_shift]
  exact hw.mem_of_closed (by decide +kernel) (by decide +kernel)

/-- Returns, or goes round a loop with a branch in it. -/
def waitingFunc : Func where
  name := "f"
  params := ["q", "p"]
  blocks := #[⟨"A", [0]⟩, ⟨"H", [1]⟩, ⟨"M", [2]⟩, ⟨"L", [3]⟩, ⟨"X", [4]⟩]
  insts := #[⟨none, 0, .condBr (.arg 0) 1 4⟩, ⟨none, 1, .condBr (.arg 1) 3 2⟩, ⟨none, 2, .br 3⟩,
    ⟨none, 3, .br 1⟩, ⟨none, 4, .ret none⟩]

def waiting : Program := ⟨"m", #["l"], #[waitingFunc]⟩

end LockUsage
