import LockUsage.Analysis.Config
import LockUsage.NamePattern.Reader
import LockUsage.Program.Derivation

/-! The routines that acquire and release locks, and the calls that do so. -/

namespace LockUsage

inductive LockOp where
  | acquire
  | release
deriving DecidableEq

/-- The routines, by patterns for their names. -/
structure LockApi where
  acquire : List NamePattern.Pattern
  release : List NamePattern.Pattern
  /-- The position of the lock among the arguments. -/
  lockArgIndex : Nat

namespace LockApi

/-- A pattern has to match a whole name. -/
def wholeName? (pattern : String) : Option NamePattern.Pattern :=
  NamePattern.parse? ("^(?:" ++ pattern ++ ")$")

/-- The routines that a configuration names, if its patterns are well formed. -/
def of? (config : Config) : Option LockApi := do
  return ⟨← config.acquire.mapM wholeName?, ← config.release.mapM wholeName?, config.lockArgIndex⟩

/-- What a routine does to its lock. A name that fits both kinds of patterns releases. -/
def classify (api : LockApi) (name : String) : Option LockOp :=
  if api.release.any (·.isFoundIn name) then some .release
  else if api.acquire.any (·.isFoundIn name) then some .acquire
  else none

/-- The operation and the lock of a direct call to one of the routines. -/
def primitiveCall? (api : LockApi) (p : Program) (site : CallSite) : Option (LockOp × Operand) := do
  match site.callee with
  | .direct callee =>
    let op ← api.classify (← p.functions[callee]?).name
    return (op, ← site.args[api.lockArgIndex]?)
  | .indirect _ => none

end LockApi

/-- A call that acquires or releases a lock of the calling function. -/
structure LockSite where
  inst : InstId
  op : LockOp
  /-- The value that the lock derives from, in the caller. -/
  lock : Operand
  /-- The callee is a wrapper, not one of the routines. -/
  viaWrapper : Bool
  /-- The wrappers between the call and the routine. -/
  depth : Nat
deriving DecidableEq

/-- The sites of each instruction, in the order of first sites. -/
structure SiteMap where
  entries : List (InstId × List LockSite)

namespace SiteMap

def empty : SiteMap := ⟨[]⟩

def insert (site : LockSite) : List (InstId × List LockSite) → List (InstId × List LockSite)
  | [] => [(site.inst, [site])]
  | (inst, sites) :: rest =>
    if inst = site.inst then (inst, sites ++ [site]) :: rest
    else (inst, sites) :: insert site rest

def push (m : SiteMap) (site : LockSite) : SiteMap := ⟨insert site m.entries⟩

def ofList (sites : List LockSite) : SiteMap := sites.foldl push empty

def insts (m : SiteMap) : List InstId := m.entries.map (·.1)

/-- All sites, instruction by instruction. -/
def sites (m : SiteMap) : List LockSite := m.entries.flatMap (·.2)

end SiteMap

/-- The sites of calls to the routines themselves. -/
def LockApi.primitiveSite? (api : LockApi) (p : Program) (f : Func) (site : CallSite) :
    Option LockSite :=
  (api.primitiveCall? p site).map fun (op, lock) => ⟨site.inst, op, f.root lock, false, 0⟩

end LockUsage
