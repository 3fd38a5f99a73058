import LockUsage.Flow.Edge
import LockUsage.Report.Diagnostic
import LockUsage.Solver.Guard
import LockUsage.State.Grouping
import LockUsage.Usage.LockEvents

/-! Following one lock through one function: what instructions and branches do to facts. -/

namespace LockUsage

structure Problem where
  body : Body
  /-- The name of the lock that is followed. -/
  lock : String
  /-- Releases without an acquire are to be expected. -/
  unlockWrapper : Bool
  /-- What an instruction does to the lock. -/
  op : body.InstIx → Option LockOp
  guard : body.InstIx → Guarded
  /-- The instructions with lock operations, in the order in which anomalies are reported. -/
  sites : List body.InstIx
  /-- Whether facts that contradict a branch are dropped. -/
  filter : Bool
  order : SelectionOrder
  maxSteps : Nat

namespace Problem

variable (P : Problem)

abbrev Node : Type := LockUsage.Node P.body.func.insts.size

abbrev Edge : Type := LockUsage.Edge P.body.func.insts.size

/-- Applies a lock operation to a fact, and gives the anomaly that shows in it. -/
def apply (op : LockOp) (fact : Fact) : Fact × Option DiagnosticKind :=
  match op with
  | .acquire =>
    let (locks, outcome) := fact.locks.acquire P.lock fact.path.last
    ({ fact with locks }, match outcome with
      | .reacquired => some .doubleAcquire
      | .acquired | .matched => none)
  | .release =>
    let (locks, outcome) := fact.locks.release P.lock fact.path.last
    ({ fact with locks }, match outcome with
      | .released => none
      | .unmatched => if P.unlockWrapper then none else some .releaseWithoutAcquire
      | .doubleRelease => some .doubleRelease)

/-- The facts after an instruction. -/
def transfer (i : P.body.InstIx) (facts : FactSet) : FactSet :=
  match P.op i with
  | none => facts
  | some op => (FactSet.ofList (facts.facts.map fun f => (P.apply op f).1)).group

/-- A fact on one way out of a branch, unless it contradicts the branch and is dropped for that. -/
def pass? (guard : Guard) (way : Branch) (fact : Fact) : Option Fact :=
  match guard with
  | .predicate name negated =>
    match fact.path.assume? name (way.isTaken != negated) with
    | some path => some { fact with path }
    | none => if P.filter then none else some fact
  | .constant value => if value == way.isTaken || !P.filter then some fact else none
  | .unknown => some fact

/-- The facts on one way out of a branch. -/
def branch (i : P.body.InstIx) (way : Branch) (facts : FactSet) : FactSet :=
  (FactSet.ofList (facts.facts.filterMap (P.pass? (P.guard i).1 way))).group

/-- The problem of following a lock through a function. There is none if an id is out of range. In a
function that is never entered the sites do not matter. -/
def of? (source : AliasSource) (config : Config) (p : Program) (func : FuncId) (b : Body)
    (sites : SiteMap) (lock : TrackedLock) : Option Problem := do
  let events ← if b.entry?.isSome then
      sites.events? (LockSite.isOn? source config p func lock.value)
    else some []
  let _ ← b.insts.mapM (p.guard? func b)
  let active := events.filter fun event => event.2.isSome
  let known := active.filterMap fun event =>
    if h : event.1 < b.func.insts.size then some (⟨event.1, h⟩ : b.InstIx) else none
  if known.length != active.length then none
  else
    return {
      body := b
      lock := lock.name
      unlockWrapper := lock.unlockWrapper
      op := fun i => events.op i.val
      guard := fun i => (p.guard? func b i).getD (.unknown, none)
      sites := known
      filter := config.filterInfeasible
      order := config.worklistOrder
      maxSteps := config.maxSteps }

end Problem

end LockUsage
