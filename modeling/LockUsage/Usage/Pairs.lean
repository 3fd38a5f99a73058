import LockUsage.Graph.ControlDependence
import LockUsage.Program.Derivation
import LockUsage.Usage.LockApi

/-! Acquires with the releases that follow them, and how control flow relates the two calls. -/

namespace LockUsage

/-- How an acquire and its release belong together. -/
inductive Usage where
  /-- They run under the same conditions. -/
  | direct
  /-- Both run under tests of one value. -/
  | ifGuarded
  /-- The release depends on a test of what the acquire returned. -/
  | testBeforeUse
  | other
deriving DecidableEq

def Usage.all : List Usage := [.direct, .ifGuarded, .testBeforeUse, .other]

def Usage.text : Usage → String
  | direct => "direct"
  | ifGuarded => "if-guarded"
  | testBeforeUse => "test-before-use"
  | other => "other"

namespace Body

variable (b : Body)

structure LockPair where
  acquire : b.InstIx
  release : b.InstIx
deriving DecidableEq

/-- The last acquire without a release on the way, and the pairs found. -/
structure PairState where
  last : Option b.InstIx
  pairs : List b.LockPair

/-- An instruction is passed. An acquire is paired at most once. -/
def passInst (op : b.InstIx → Option LockOp) (s : b.PairState) (i : b.InstIx) : b.PairState :=
  match op i, s.last with
  | some .acquire, _ => { s with last := some i }
  | some .release, some a =>
    ⟨none, if s.pairs.any fun pair => pair.acquire == a then s.pairs else s.pairs ++ [⟨a, i⟩]⟩
  | _, _ => s

def passBlock (op : b.InstIx → Option LockOp) (s : b.PairState) (bb : b.BlockIx) : b.PairState :=
  (b.listed bb).foldl (b.passInst op) s

/-- For each block the last acquires with which it was passed. -/
abbrev Passed := Vector (List (Option b.InstIx)) b.func.blocks.size

/-- Walks blocks depth first. A block is passed once for each last acquire it is reached with. -/
def pairsFrom (op : b.InstIx → Option LockOp) : Nat → b.Passed →
    List (b.BlockIx × Option b.InstIx) → List b.LockPair → List b.LockPair
  | fuel + 1, passed, (bb, last) :: pending, pairs =>
    if last ∈ passed[bb] then pairsFrom op fuel passed pending pairs
    else
      let state := b.passBlock op ⟨last, pairs⟩ bb
      pairsFrom op fuel (passed.set bb.val (last :: passed[bb]) bb.isLt)
        ((b.successors bb).map (·, state.last) ++ pending) state.pairs
  | _, _, _, pairs => pairs

/-- A bound on the blocks taken up: each block is passed at most once for each last acquire, and
makes its successors pending. -/
def pairFuel : Nat := 1 + (b.func.insts.size + 1) * (b.blocks.flatMap b.successors).length

/-- The acquires with the first release that is reached after them. -/
def findPairs (op : b.InstIx → Option LockOp) : List b.LockPair :=
  match b.entryBlock? with
  | none => []
  | some bb => b.pairsFrom op b.pairFuel (Vector.replicate _ []) [(bb, none)] []

/-- The value that the branch at the end of a block tests. -/
def testedValue? (bb : b.BlockIx) : Option Operand :=
  (b.terminator? bb).bind fun i =>
    match b.kind i with
    | .condBr cond _ _ => some (b.func.root cond)
    | .switch value _ _ => some (b.func.root value)
    | _ => none

def classify (deps : Dependences b.func.blocks.size) (pair : b.LockPair) : Usage :=
  let acquired := b.blockOf pair.acquire
  let released := b.blockOf pair.release
  if acquired = released then .direct
  else
    let tested := b.func.hasUses pair.acquire.val
    match deps.controlling? acquired, deps.controlling? released with
    | none, none => .direct
    | none, some _ => if tested then .testBeforeUse else .direct
    | some _, none => .other
    | some a, some r =>
      if a = r then .direct
      else if (b.testedValue? a).isSome && b.testedValue? a == b.testedValue? r then .ifGuarded
      else if tested then .testBeforeUse
      else .other

end Body

end LockUsage
