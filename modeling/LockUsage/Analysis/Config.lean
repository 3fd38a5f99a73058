import LockUsage.Alias.Basic
import LockUsage.Solver.Worklist

/-! What the analysis can be told. -/

namespace LockUsage

structure Config where
  /-- Patterns for the names of routines that acquire a lock. -/
  acquire : List String
  /-- Patterns for the names of routines that release a lock. -/
  release : List String
  /-- The position of the lock among the arguments of such a routine. -/
  lockArgIndex : Nat
  /-- The alias answer needed for calls of the routines themselves. -/
  intraAlias : AliasKind
  /-- The alias answer needed for calls of wrappers. -/
  interAlias : AliasKind
  /-- The number of steps after which a run gives up. -/
  maxSteps : Nat
  /-- Whether facts on contradictory paths are dropped. -/
  filterInfeasible : Bool
  /-- Whether calls of wrappers count as acquires and releases. -/
  interprocedural : Bool
  worklistOrder : SelectionOrder
deriving DecidableEq

def Config.default : Config where
  acquire := ["pthread_mutex_lock", "pthread_mutex_try_?lock", "pthread_rwlock_(rd|wr)lock",
    "pthread_spin_lock", "rw_lock"]
  release := ["pthread_mutex_unlock", "pthread_mutex_try_?unlock", "pthread_rwlock_unlock",
    "pthread_spin_unlock", "rw_unlock"]
  lockArgIndex := 0
  intraAlias := .must
  interAlias := .may
  maxSteps := 100000
  filterInfeasible := true
  interprocedural := true
  worklistOrder := .fifo

end LockUsage
