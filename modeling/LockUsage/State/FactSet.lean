import LockUsage.State.Locks
import LockUsage.State.Path

/-! Flow facts and the sets of them that control-flow edges carry. A set holds no two facts that are
the same, and lists them in the order of their arrival. -/

namespace LockUsage

/-- If the path condition holds, the locks are held. -/
structure Fact where
  locks : LockState
  path : PathState
deriving DecidableEq

namespace Fact

/-- Nothing is held, on any path. -/
def initial : Fact := ⟨.empty, .unconstrained⟩

def same (f g : Fact) : Bool := f.locks.same g.locks && f.path.same g.path

def text (f : Fact) : String := s!"<{f.locks.text} | {f.path.text}>"

end Fact

structure FactSet where
  facts : List Fact
deriving DecidableEq

namespace FactSet

def empty : FactSet := ⟨[]⟩

def single (f : Fact) : FactSet := ⟨[f]⟩

def size (s : FactSet) : Nat := s.facts.length

def isEmpty (s : FactSet) : Bool := s.facts.isEmpty

def contains (s : FactSet) (f : Fact) : Bool := s.facts.any f.same

/-- Adds a fact unless the set has it. -/
def insert (s : FactSet) (f : Fact) : FactSet :=
  if s.contains f then s else ⟨s.facts ++ [f]⟩

def union (s t : FactSet) : FactSet := t.facts.foldl insert s

def ofList (facts : List Fact) : FactSet := facts.foldl insert empty

/-- Whether `s` has another size than `old`, or a fact that `old` has not. -/
def differsFrom (s old : FactSet) : Bool :=
  s.size != old.size || s.facts.any fun f => !old.contains f

/-- The same facts, in whatever order. -/
def same (s t : FactSet) : Bool := !s.differsFrom t && !t.differsFrom s

def text (s : FactSet) : String :=
  "\x7b" ++ String.intercalate ", " (s.facts.map Fact.text) ++ "\x7d"

end FactSet

end LockUsage
