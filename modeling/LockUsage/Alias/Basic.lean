import LockUsage.Program.Basic

/-! Three-valued answers on whether two values denote the same lock. -/

namespace LockUsage

inductive AliasKind where
  | no
  | may
  | must
deriving DecidableEq

namespace AliasKind

def rank : AliasKind → Nat
  | no => 0
  | may => 1
  | must => 2

/-- Whether an answer is strong enough. `no` never is. -/
def satisfies (answer threshold : AliasKind) : Bool :=
  answer != no && threshold.rank ≤ answer.rank

end AliasKind

/-- A value within the function it lives in. -/
structure ScopedValue where
  func : FuncId
  value : Operand
deriving DecidableEq

/-- A function's name and the text of one of its values. Globals have no function. -/
abbrev ScopedName := Option String × String

/-- The name of a value in its scope. There is none for an id out of range. -/
def ScopedValue.name? (p : Program) (v : ScopedValue) : Option ScopedName := do
  let name ← p.valueName? v.func v.value
  match v.value with
  | .global _ => return (none, name)
  | _ => return (some (← p.functions[v.func]?).name, name)

/-- Values known to alias each other. -/
structure AliasSet where
  kind : AliasKind
  members : List ScopedName
deriving DecidableEq

/-- Where alias answers come from. -/
inductive AliasSource where
  /-- Two values alias if they have the same name in the same scope. -/
  | names
  /-- All values alias. -/
  | everything
  /-- Values alias as the sets say, and if they have the same name. -/
  | sets (sets : List AliasSet)

/-- The kind of the first set that relates the two names. -/
def relation (sets : List AliasSet) (a b : ScopedName) : AliasKind :=
  match sets.find? fun s => s.kind != .no && decide (a ∈ s.members) && decide (b ∈ s.members) with
  | some s => s.kind
  | none => .no

namespace AliasSource

/-- Whether two values denote the same lock. There is no answer if a name is needed of an id out of
range. -/
def alias? (source : AliasSource) (p : Program) (a b : ScopedValue) : Option AliasKind :=
  match source with
  | everything => some .must
  | names =>
    if a.value.isConst || b.value.isConst then some .no
    else if a = b then some .must
    else do return if (← a.name? p) = (← b.name? p) then .must else .no
  | sets groups =>
    if a.value.isConst || b.value.isConst then some .no
    else do
      let nameA ← a.name? p
      let nameB ← b.name? p
      return if nameA = nameB then .must else relation groups nameA nameB

def aliases? (source : AliasSource) (p : Program) (threshold : AliasKind) (a b : ScopedValue) :
    Option Bool :=
  (source.alias? p a b).map (·.satisfies threshold)

end AliasSource

end LockUsage
