import LockUsage.Graph.CallGraph
import LockUsage.Report.Statistic
import LockUsage.Solver.Run

/-! What the analysis finds in one function, given what it has found in the functions that this one
calls. Calls of lock and unlock wrappers count as acquires and releases, with the wrapper's lock
replaced by the argument of the call. -/

namespace LockUsage

/-- What callers need to know of a function. -/
structure Summary where
  statistic : FunctionStatistic
  /-- The locks of the statistic, as values of the function. -/
  locks : List ScopedValue

/-- Functions with their summaries, in the order in which they were summarized. -/
abbrev Summaries := List (FuncId × Summary)

structure Analysis where
  program : Program
  source : AliasSource
  config : Config
  api : LockApi
  graph : CallGraph

namespace Analysis

variable (A : Analysis)

/-- What a call of a function with one of the callee's locks amounts to in the caller. Locks that
live in the callee have no counterpart. -/
def wrapperSite? (caller : Func) (site : CallSite) (lock : LockStatistic) (value : Operand) :
    Option LockSite := do
  let op ← if lock.lockWrapper then some LockOp.acquire
    else if lock.unlockWrapper then some LockOp.release
    else none
  let operand ← match value with
    | .arg index => site.args[index]?.map caller.root
    | .global id => some (.global id)
    | .inst _ | .const _ => none
  return ⟨site.inst, op, operand, true, lock.callDepth + 1⟩

def wrapperSites (caller : Func) (site : CallSite) (callee : Summary) : List LockSite :=
  (callee.statistic.locks.zip callee.locks).filterMap fun (lock, value) =>
    wrapperSite? caller site lock value.value

/-- The lock operations of a call. -/
def sitesOf (summaries : Summaries) (caller : Func) (site : CallSite) : List LockSite :=
  match A.api.primitiveSite? A.program caller site with
  | some primitive => [primitive]
  | none =>
    match A.config.interprocedural, site.callee with
    | true, .direct callee =>
      match summaries.lookup callee with
      | some summary => wrapperSites caller site summary
      | none => []
    | _, _ => []

def callWarning? (caller : Func) (site : CallSite) : Option String :=
  match site.callee with
  | .direct _ => none
  | .indirect _ => some s!"`{caller.name}`: indirect call {instText site.inst} is not followed"

/-- Adds the lock of a site unless it is known under one of the values. Constants are no locks. -/
def addLock? (func : FuncId) (locks : List TrackedLock) (site : LockSite) :
    Option (List TrackedLock) :=
  if site.lock.isConst then some locks
  else do
    let value : ScopedValue := ⟨func, site.lock⟩
    let known ← locks.anyM fun l => A.source.aliases? A.program A.config.intraAlias l.value value
    if known then return locks
    else return locks ++ [⟨← A.program.valueName? func site.lock, value, false⟩]

/-- The different locks of the sites, in the order of first use. -/
def distinctLocks? (func : FuncId) (sites : SiteMap) : Option (List TrackedLock) :=
  sites.sites.foldlM (A.addLock? func) []

/-- The numbers of a lock that its sites decide. -/
def siteStatistic (lock : TrackedLock) (sites : List LockSite) : LockStatistic :=
  let acquires := (sites.filter fun s => s.op == .acquire).length
  let releases := (sites.filter fun s => s.op == .release).length
  let scope := match lock.value.value with
    | .global _ => LockScope.ofProgram
    | _ => LockScope.ofFunction
  { LockStatistic.empty lock.name scope with
    acquires := acquires
    releases := releases
    callDepth := (sites.map (·.depth)).foldl max 0
    lockWrapper := 0 < acquires && releases == 0
    unlockWrapper := 0 < releases && acquires == 0 }

def isArgument (o : Operand) : Bool :=
  match o with
  | .arg _ => true
  | _ => false

/-- What is found of one lock. -/
structure LockFinding where
  statistic : LockStatistic
  converged : Bool
  log : Log

/-- Follows one lock through a function and classifies its pairs. A lock that is held at the exit is
an anomaly unless the function only acquires it. -/
def examineLock? (func : FuncId) (b : Body) (deps : Body.Dependences b.func.blocks.size)
    (sites : SiteMap) (lock : TrackedLock) : Option LockFinding := do
  let isOn := LockSite.isOn? A.source A.config A.program func lock.value
  let statistic := siteStatistic lock (← sites.sites.filterM isOn)
  let events ← sites.events? isOn
  let tracked :=
    { lock with unlockWrapper := statistic.unlockWrapper && isArgument lock.value.value }
  let P ← Problem.of? A.source A.config A.program func b sites tracked
  let result := P.solve
  let log :=
    if !statistic.lockWrapper && result.holdsAtExit lock.name then
      result.log.report ⟨.unreleasedLock, b.func.name, lock.name, none⟩
    else result.log
  let pairs := b.findPairs fun i => events.op i.val
  return ⟨pairs.foldl (fun s pair => s.record (b.classify deps pair)) statistic, result.converged,
    log⟩

/-- Adds the finding on a lock to what is found so far. -/
def addFinding (found : Summary × Log) (lock : TrackedLock) (finding : LockFinding) :
    Summary × Log :=
  let statistic := found.1.statistic.push finding.statistic
  (⟨{ statistic with converged := statistic.converged && finding.converged },
    found.1.locks ++ [lock.value]⟩, found.2.append finding.log)

/-- The summary of a function, and what is found while it is made. There is none if an id is out of
range. -/
def summarize? (summaries : Summaries) (func : FuncId) : Option (Summary × Log) := do
  let f ← A.program.functions[func]?
  let b ← Body.of? f
  let calls ← f.callSites?
  let sites := SiteMap.ofList (calls.flatMap (A.sitesOf summaries f))
  let locks ← A.distinctLocks? func sites
  let statistic := { FunctionStatistic.empty f.name with recursive := A.graph.isRecursive func }
  let deps := b.dependences
  locks.foldlM (fun found lock => do
      return addFinding found lock (← A.examineLock? func b deps sites lock))
    (⟨statistic, []⟩, ⟨[], calls.filterMap (callWarning? f)⟩)

end Analysis

end LockUsage
