import LockUsage.State.FactSet

/-! Grouping: one fact for each class of lock states.

There is a class for facts that hold nothing, one for each lock held, and one for each lock with a
pending release among the facts that hold none. The fact that stands for a class has the merged path
conditions of its members. -/

namespace LockUsage

inductive LockClass where
  | init
  | held (name : String)
  | pending (name : String)
deriving DecidableEq

/-- The classes that a lock state belongs to. -/
def LockState.classes (s : LockState) : List LockClass :=
  if s.isInit then [.init]
  else if s.held.isEmpty then (LockState.names s.pending).eraseDups.map .pending
  else (LockState.names s.held).eraseDups.map .held

/-- The equality predicate on which all conditions agree. -/
def agreed? : List (String × Bool) → Option (String × Bool)
  | [] => none
  | entry :: rest => if rest.all (· == entry) then some entry else none

/-- The different names in increasing order. -/
def sortedSet (names : List String) : List String :=
  (names.foldr (fun name => Conditions.insert name true) []).map (·.1)

/-- The plain predicates that some condition gives the value, in increasing order. -/
def plainNames (conditions : List (String × Bool)) (value : Bool) : List String :=
  sortedSet ((conditions.filter fun entry =>
    entry.2 == value && (subject? entry.1).isNone).map (·.1))

/-- The equalities on which all conditions on their subject agree, by increasing subject. -/
def agreedEqualities (conditions : List (String × Bool)) : List (String × Bool) :=
  (sortedSet (conditions.filterMap fun entry => subject? entry.1)).filterMap fun subject =>
    agreed? (conditions.filter fun entry => subject? entry.1 == some subject)

/-- The conditions in the order in which they are settled: the larger group of plain predicates, the
smaller one, the equalities. -/
def settlingOrder (conditions : List (String × Bool)) : List (String × Bool) :=
  let trues := (plainNames conditions true).map (·, true)
  let falses := (plainNames conditions false).map (·, false)
  (if trues.length > falses.length then trues ++ falses else falses ++ trues) ++
    agreedEqualities conditions

/-- The path condition of a class. It is unconstrained if a member is. Otherwise plain predicates
with both values cancel, and an equality survives if the conditions on its subject agree. -/
def mergePaths (paths : List PathState) : PathState :=
  if paths.any PathState.isTop then .unconstrained
  else if paths.all PathState.isBottom then .unreachable
  else
    (settlingOrder (paths.flatMap PathState.conditions)).foldl
      (fun s entry => s.settle entry.1 entry.2) .unconstrained

/-- The path condition with which a lock was first touched. -/
def firstPre (name : String) (locks : List Lock) : String :=
  match locks.find? fun l => l.name == name with
  | some lock => lock.pre
  | none => ""

/-- The lock state that stands for a class. -/
def LockClass.locks (c : LockClass) (members : List Fact) : LockState :=
  match c with
  | .init => .empty
  | .held name =>
    (LockState.empty.acquire name (firstPre name (members.flatMap (·.locks.held)))).1
  | .pending name =>
    (LockState.empty.release name (firstPre name (members.flatMap (·.locks.pending)))).1

def LockClass.representative (c : LockClass) (members : List Fact) : Fact :=
  ⟨c.locks members, mergePaths (members.map (·.path))⟩

namespace FactSet

/-- The classes of the facts, in the order of their arrival. -/
def classes (s : FactSet) : List LockClass := (s.facts.flatMap (·.locks.classes)).eraseDups

def members (s : FactSet) (c : LockClass) : List Fact :=
  s.facts.filter fun f => decide (c ∈ f.locks.classes)

/-- One fact for each class. A set of at most one fact stays as it is. -/
def group (s : FactSet) : FactSet :=
  if s.size ≤ 1 then s else ofList (s.classes.map fun c => c.representative (s.members c))

end FactSet

end LockUsage
