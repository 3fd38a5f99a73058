import LockUsage.Program.Basic

/-! The functions whose analysis is in progress, the innermost first. -/

namespace LockUsage

structure CallStack where
  frames : List FuncId

namespace CallStack

def empty : CallStack := ⟨[]⟩

def push (s : CallStack) (f : FuncId) : CallStack := ⟨f :: s.frames⟩

def pop? (s : CallStack) : Option (FuncId × CallStack) :=
  match s.frames with
  | [] => none
  | f :: rest => some (f, ⟨rest⟩)

def contains (s : CallStack) (f : FuncId) : Bool := s.frames.contains f

def depth (s : CallStack) : Nat := s.frames.length

/-- A callee is analysed first unless that is done, or in progress further out. -/
def shouldDescend (s : CallStack) (callee : FuncId) (summarized : Bool) : Bool :=
  !summarized && !s.contains callee

end CallStack

end LockUsage
