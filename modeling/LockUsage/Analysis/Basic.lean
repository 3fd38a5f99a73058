import LockUsage.Analysis.CallStack
import LockUsage.Analysis.Summary

/-! The analysis of a whole program. Functions are summarized after the functions that they call. A
call that closes a cycle finds its callee without a summary, and is taken to touch no lock. -/

namespace LockUsage

structure AnalysisState where
  summaries : Summaries
  log : Log

namespace AnalysisState

def empty : AnalysisState := ⟨[], .empty⟩

def isSummarized (s : AnalysisState) (func : FuncId) : Bool := (s.summaries.lookup func).isSome

end AnalysisState

namespace Analysis

variable (A : Analysis)

/-- Summarizes a function after its callees, unless it has a summary. The fuel bounds the functions
in progress at a time. -/
def visit : Nat → CallStack → AnalysisState → FuncId → Option AnalysisState
  | 0, _, s, _ => some s
  | fuel + 1, stack, s, func =>
    if s.isSummarized func then some s
    else do
      let stack := stack.push func
      let s ← (A.graph.callees func).foldlM (fun s callee => do
        let f ← A.program.functions[callee]?
        if !f.isDeclaration && stack.shouldDescend callee (s.isSummarized callee) then
          visit fuel stack s callee
        else return s) s
      let (summary, log) ← A.summarize? s.summaries func
      return ⟨s.summaries ++ [(func, summary)], s.log.append log⟩

/-- Summarizes all functions with a body, in order. -/
def visitAll : Option AnalysisState :=
  A.program.defined.foldlM (A.visit A.program.functions.size .empty) .empty

/-- The report of the analysis. The time it took is for others to fill in. -/
def report? : Option ModuleStatistic := do
  let s ← A.visitAll
  let functions := A.program.defined.filterMap fun func =>
    (s.summaries.lookup func).map (·.statistic)
  return {
    name := A.program.name
    functionNumber := functions.length
    lockFunctionNumber := (functions.filter fun f => 0 < f.lockNumber).length
    functions := functions
    diagnostics := s.log.diagnostics
    warnings := s.log.warnings
    time := ⟨0, 0⟩ }

end Analysis

/-- The report on a program. There is none if an id of the program is out of range. -/
def Program.report? (p : Program) (source : AliasSource) (config : Config) (api : LockApi) :
    Option ModuleStatistic := do
  let graph ← CallGraph.of? p
  Analysis.report? ⟨p, source, config, api, graph⟩

end LockUsage
