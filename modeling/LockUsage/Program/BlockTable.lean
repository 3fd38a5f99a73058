import LockUsage.Program.Basic
import LockUsage.Text.Quoted

/-! A value for each block, by block id. -/

namespace LockUsage

structure BlockTable (α : Type) where
  entries : Array α

namespace BlockTable

def empty : BlockTable α := ⟨#[]⟩

def ofList (values : List α) : BlockTable α := ⟨values.toArray⟩

/-- The same value for each of the first blocks. -/
def replicate (size : Nat) (value : α) : BlockTable α := ⟨Array.replicate size value⟩

def size (t : BlockTable α) : Nat := t.entries.size

def isEmpty (t : BlockTable α) : Bool := t.entries.isEmpty

def toList (t : BlockTable α) : List α := t.entries.toList

/-- The blocks that have a value. -/
def ids (t : BlockTable α) : List BlockId := List.range t.size

/-- The block that the next value pushed belongs to. -/
def nextId (t : BlockTable α) : BlockId := t.size

def contains (t : BlockTable α) (id : BlockId) : Bool := id < t.size

def push (t : BlockTable α) (value : α) : BlockTable α := ⟨t.entries.push value⟩

def get? (t : BlockTable α) (id : BlockId) : Option α := t.entries[id]?

/-- Replaces the value of a block. There is no result for a block without one. -/
def set? (t : BlockTable α) (id : BlockId) (value : α) : Option (BlockTable α) :=
  if h : id < t.entries.size then some ⟨t.entries.set id value h⟩ else none

def text (t : BlockTable String) : String :=
  let entries := t.toList.zipIdx.map fun (value, id) => blockText id ++ ": " ++ Text.quoted value
  "\x7b" ++ String.intercalate ", " entries ++ "\x7d"

end BlockTable

end LockUsage
