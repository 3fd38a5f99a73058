/-! The locks held along one path, and the releases that no acquire has matched yet.

Each list keeps its entries in the order in which they were made. Two states are the same if they
name the same locks equally often. -/

namespace LockUsage

structure Lock where
  name : String
  /-- The path condition recorded last when the lock was touched. -/
  pre : String
deriving DecidableEq

structure LockState where
  held : List Lock
  pending : List Lock
deriving DecidableEq

inductive AcquireOutcome where
  | acquired
  /-- The acquire cancels an earlier release that was unmatched. -/
  | matched
  /-- The lock was held already. -/
  | reacquired
deriving DecidableEq

inductive ReleaseOutcome where
  | released
  /-- No acquire precedes the release. -/
  | unmatched
  /-- Unmatched, and an unmatched release was pending already. -/
  | doubleRelease
deriving DecidableEq

namespace LockState

def empty : LockState := ⟨[], []⟩

def isInit (s : LockState) : Bool := s.held.isEmpty && s.pending.isEmpty

def holds (s : LockState) (name : String) : Bool := s.held.any fun l => l.name == name

def hasPending (s : LockState) (name : String) : Bool := s.pending.any fun l => l.name == name

/-- The locks without the first one of the given name. -/
def without (name : String) (locks : List Lock) : List Lock := locks.eraseP fun l => l.name == name

def acquire (s : LockState) (name pre : String) : LockState × AcquireOutcome :=
  if s.hasPending name then ({ s with pending := without name s.pending }, .matched)
  else
    ({ s with held := s.held ++ [⟨name, pre⟩] },
      if s.holds name then .reacquired else .acquired)

def release (s : LockState) (name pre : String) : LockState × ReleaseOutcome :=
  if s.holds name then ({ s with held := without name s.held }, .released)
  else
    ({ s with pending := s.pending ++ [⟨name, pre⟩] },
      if s.hasPending name then .doubleRelease else .unmatched)

/-- Acquires what `other` holds, then releases what is pending in `other`. -/
def replay (s other : LockState) : LockState :=
  let acquired := other.held.foldl (fun s l => (s.acquire l.name l.pre).1) s
  other.pending.foldl (fun s l => (s.release l.name l.pre).1) acquired

def names (locks : List Lock) : List String := locks.map (·.name)

def same (s t : LockState) : Bool :=
  (names s.held).isPerm (names t.held) && (names s.pending).isPerm (names t.pending)

def text (s : LockState) : String :=
  if s.isInit then "init"
  else
    let held := String.intercalate ", " (names s.held)
    let pending := String.intercalate ", " (names s.pending)
    s!"held[{held}] pending[{pending}]"

end LockState

end LockUsage
