/-! Path conditions: what is known of the branch predicates along the paths that a fact stands for.

A predicate is plain, or it is an equality such as `%x==3`, whose subject is the text before the
first `==`. A path condition allows every path, allows none, or gives truth values to some
predicates, with at most one equality a subject. -/

namespace LockUsage

/-- Predicates with their truth values, in strictly increasing order of the names. -/
abbrev Conditions := List (String × Bool)

namespace Conditions

def get? (c : Conditions) (name : String) : Option Bool := c.lookup name

def insert (name : String) (value : Bool) : Conditions → Conditions
  | [] => [(name, value)]
  | (key, v) :: rest =>
    if key < name then (key, v) :: insert name value rest
    else if key = name then (name, value) :: rest
    else (name, value) :: (key, v) :: rest

def erase (c : Conditions) (name : String) : Conditions := c.filter fun entry => entry.1 != name

end Conditions

def subjectFrom? (read : List Char) : List Char → Option String
  | '=' :: '=' :: _ => some (String.ofList read.reverse)
  | c :: rest => subjectFrom? (c :: read) rest
  | [] => none

/-- The subject of an equality. Plain predicates have none. -/
def subject? (name : String) : Option String := subjectFrom? [] name.toList

/-- The paths that a condition allows. -/
inductive Region where
  | top
  | bottom
  | within (conditions : Conditions)
deriving DecidableEq

structure PathState where
  region : Region
  /-- The predicate recorded last along the path. -/
  last : String
deriving DecidableEq

namespace PathState

def unconstrained : PathState := ⟨.top, ""⟩

def unreachable : PathState := ⟨.bottom, ""⟩

def isTop (s : PathState) : Bool := s.region == .top

def isBottom (s : PathState) : Bool := s.region == .bottom

def conditions (s : PathState) : Conditions :=
  match s.region with
  | .within conditions => conditions
  | .top | .bottom => []

def get? (s : PathState) (name : String) : Option Bool := s.conditions.get? name

/-- The same paths, whatever was recorded last. -/
def same (s t : PathState) : Bool := s.region == t.region

def record (s : PathState) (name : String) (value : Bool) : PathState :=
  ⟨.within (s.conditions.insert name value), name⟩

/-- The truth value of the first recorded equality on the same subject, if `name` is one. -/
def sibling? (s : PathState) (name : String) : Option Bool :=
  match subject? name with
  | none => none
  | some subject => (s.conditions.find? fun entry => subject? entry.1 == some subject).map (·.2)

/-- The path condition after a branch on which the predicate has the given value. There is none if
the opposite is recorded, or if two equalities on one subject would both hold. An equality whose
subject has one recorded is not recorded as well. -/
def assume? (s : PathState) (name : String) (value : Bool) : Option PathState :=
  match s.get? name with
  | some recorded => if recorded = value then some s else none
  | none =>
    match s.sibling? name with
    | some fixed => if fixed && value then none else some s
    | none => some (s.record name value)

/-- Takes in another path condition: all paths if either allows all, else the conditions of `other`
that do not contradict those recorded. -/
def absorb (s other : PathState) : PathState :=
  if s.isTop || other.isTop then { s with region := .top }
  else other.conditions.foldl (fun s entry => (s.assume? entry.1 entry.2).getD s) s

/-- Records a condition while facts are merged. It cancels with its opposite, and a state without
conditions is unconstrained. -/
def settle (s : PathState) (name : String) (value : Bool) : PathState :=
  match s.get? name with
  | some recorded =>
    if recorded = value then s
    else
      let rest := s.conditions.erase name
      { s with region := if rest.isEmpty then .top else .within rest }
  | none => s.record name value

def conditionText (entry : String × Bool) : String := if entry.2 then entry.1 else "!" ++ entry.1

def text (s : PathState) : String :=
  match s.region with
  | .top => "all"
  | .bottom => "none"
  | .within conditions =>
    "\x7b" ++ String.intercalate " && " (conditions.map conditionText) ++ "\x7d"

end PathState

end LockUsage
