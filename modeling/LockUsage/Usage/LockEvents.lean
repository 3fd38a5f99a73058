import LockUsage.Flow.Body
import LockUsage.Usage.LockApi

/-! What the instructions of a function do to one lock. -/

namespace LockUsage

/-- The lock that an analysis follows through a function. -/
structure TrackedLock where
  name : String
  value : ScopedValue
  /-- The lock is a parameter that the function only releases, for its callers. Releases without an
  acquire are to be expected. -/
  unlockWrapper : Bool
deriving DecidableEq

/-- Whether a site operates on a lock, as surely as the way to the routine asks for. -/
def LockSite.isOn? (source : AliasSource) (config : Config) (p : Program) (func : FuncId)
    (lock : ScopedValue) (site : LockSite) : Option Bool :=
  source.aliases? p (if site.viaWrapper then config.interAlias else config.intraAlias)
    ⟨func, site.lock⟩ lock

/-- The operation of the first site that a test accepts. -/
def firstOp? (isOn : LockSite → Option Bool) : List LockSite → Option (Option LockOp)
  | [] => some none
  | site :: rest => do if ← isOn site then some (some site.op) else firstOp? isOn rest

/-- The operation of each instruction with sites on one lock. -/
abbrev LockEvents := List (InstId × Option LockOp)

def SiteMap.events? (m : SiteMap) (isOn : LockSite → Option Bool) : Option LockEvents :=
  m.entries.mapM fun (inst, sites) => (firstOp? isOn sites).map (inst, ·)

/-- What an instruction does to the lock. -/
def LockEvents.op (events : LockEvents) (inst : InstId) : Option LockOp := (events.lookup inst).join

end LockUsage
