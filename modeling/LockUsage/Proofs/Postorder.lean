import LockUsage.Proofs.BottomUp

/-! Which function is summarized when depends on the callees only: functions come in the order in
which a depth-first walk leaves them. A function that calls none with a body can be left out of the
walk without changing the order of the others. -/

namespace LockUsage

/-- The functions done after a walk from a function, in the order in which it leaves them. Those on
the stack are in progress. -/
def postorder (next : FuncId → List FuncId) :
    Nat → List FuncId → List FuncId → FuncId → List FuncId
  | 0, _, done, _ => done
  | fuel + 1, stack, done, func =>
    if func ∈ done then done
    else
      (next func).foldl (fun done callee =>
        if callee ∈ done ∨ callee ∈ func :: stack then done
        else postorder next fuel (func :: stack) done callee) done ++ [func]

/-- Walks on to a callee unless that is done or in progress. -/
def walkCallee (next : FuncId → List FuncId) (fuel : Nat) (stack done : List FuncId)
    (callee : FuncId) : List FuncId :=
  if callee ∈ done ∨ callee ∈ stack then done else postorder next fuel stack done callee

theorem postorder_succ (next : FuncId → List FuncId) (fuel : Nat) (stack done : List FuncId)
    (func : FuncId) : postorder next (fuel + 1) stack done func =
      if func ∈ done then done
      else (next func).foldl (walkCallee next fuel (func :: stack)) done ++ [func] := rfl

def AnalysisState.funcs (s : AnalysisState) : List FuncId := s.summaries.map (·.1)

theorem AnalysisState.isSummarized_iff {s : AnalysisState} {func : FuncId} :
    s.isSummarized func = true ↔ func ∈ s.funcs := by
  simp [isSummarized, funcs, List.lookup_isSome_iff]

namespace Analysis

variable {A : Analysis} {s s' : AnalysisState} {stack : CallStack} {func callee : FuncId}

theorem funcs_visitCallee {fuel : Nat}
    (hvisit : ∀ s', A.visit fuel (stack.push func) s callee = some s' →
      s'.funcs = postorder A.bodies fuel (func :: stack.frames) s.funcs callee)
    (h : A.visitCallee? fuel (stack.push func) s callee = some s') :
    s'.funcs = if callee ∈ A.program.defined then
        walkCallee A.bodies fuel (func :: stack.frames) s.funcs callee
      else s.funcs := by
  simp only [visitCallee?, Option.bind_eq_bind, Option.bind_eq_some_iff] at h
  obtain ⟨f, hf, h⟩ := h
  have hdef : callee ∈ A.program.defined ↔ f.isDeclaration = false := by
    rw [Program.mem_defined, hf]
    simp
  have hdescend : (!f.isDeclaration && (stack.push func).shouldDescend callee
      (s.isSummarized callee)) = true ↔ callee ∈ A.program.defined ∧
        ¬ (callee ∈ s.funcs ∨ callee ∈ func :: stack.frames) := by
    rw [hdef, ← AnalysisState.isSummarized_iff]
    simp [CallStack.shouldDescend, CallStack.contains, CallStack.push]
  split_ifs at h with hd
  · rw [hdescend] at hd
    rw [if_pos hd.1, walkCallee, if_neg hd.2, hvisit s' h]
  · obtain rfl := Option.some.inj h
    rw [hdescend, not_and_not_right] at hd
    split_ifs with hin
    · rw [walkCallee, if_pos (hd hin)]
    · rfl

/-- A visit does functions in the order of the walk. -/
theorem funcs_visit {fuel : Nat} (h : A.visit fuel stack s func = some s') :
    s'.funcs = postorder A.bodies fuel stack.frames s.funcs func := by
  induction fuel generalizing stack s s' func with
  | zero =>
    obtain rfl := Option.some.inj h
    rfl
  | succ fuel ih =>
    rw [visit_succ] at h
    rw [postorder_succ]
    split_ifs at h with hsum
    · obtain rfl := Option.some.inj h
      rw [if_pos (AnalysisState.isSummarized_iff.mp hsum)]
    · rw [if_neg (mt AnalysisState.isSummarized_iff.mpr hsum)]
      simp only [Option.bind_eq_some_iff] at h
      obtain ⟨s₁, h₁, found, -, h⟩ := h
      obtain rfl := Option.some.inj h
      have hfold := foldl_eq_of_foldlM AnalysisState.funcs (fun done callee =>
          if callee ∈ A.program.defined then
            walkCallee A.bodies fuel (func :: stack.frames) done callee
          else done)
        (fun s callee s' h => funcs_visitCallee (fun s' => ih) h) h₁
      have hfilter : (A.bodies func).foldl (walkCallee A.bodies fuel (func :: stack.frames))
          s.funcs = s₁.funcs := by
        rw [hfold, bodies, List.foldl_filter]
        simp only [decide_eq_true_eq]
      rw [hfilter]
      simp [AnalysisState.funcs]

theorem funcs_foldlM_visit {fuel : Nat} {starts : List FuncId}
    (h : starts.foldlM (A.visit fuel .empty) s = some s') :
    s'.funcs = starts.foldl (postorder A.bodies fuel []) s.funcs :=
  foldl_eq_of_foldlM AnalysisState.funcs _ (fun _ _ _ h => funcs_visit h) h

end Analysis

section Leaf

variable {next : FuncId → List FuncId} {w : FuncId}

/-- A walk from one function after another, with one of them left out. -/
theorem filter_foldl {visit visit' : List FuncId → FuncId → List FuncId}
    (hleaf : ∀ done, (visit done w).filter (· ≠ w) = done.filter (· ≠ w))
    (hvisit : ∀ done, ∀ f ≠ w,
      (visit done f).filter (· ≠ w) = visit' (done.filter (· ≠ w)) f)
    (funcs done : List FuncId) : (funcs.foldl visit done).filter (· ≠ w) =
      (funcs.filter (· ≠ w)).foldl visit' (done.filter (· ≠ w)) := by
  induction funcs generalizing done with
  | nil => rfl
  | cons f funcs ih =>
    by_cases hf : f = w
    · subst hf
      rw [List.foldl_cons, ih, hleaf]
      simp
    · rw [List.foldl_cons, ih, hvisit done f hf]
      simp [hf]

variable (hw : next w = [])
include hw

theorem filter_postorder_leaf (fuel : Nat) (stack done : List FuncId) :
    (postorder next fuel stack done w).filter (· ≠ w) = done.filter (· ≠ w) := by
  cases fuel with
  | zero => rfl
  | succ fuel =>
    rw [postorder_succ, hw]
    split_ifs <;> simp

/-- The order of the other functions is that of a walk that leaves out a leaf. -/
theorem filter_postorder (fuel : Nat) {stack : List FuncId} (hstack : w ∉ stack)
    (done : List FuncId) {func : FuncId} (hfunc : func ≠ w) :
    (postorder next fuel stack done func).filter (· ≠ w) =
      postorder (fun f => (next f).filter (· ≠ w)) fuel stack (done.filter (· ≠ w)) func := by
  induction fuel generalizing stack done func with
  | zero => rfl
  | succ fuel ih =>
    have hmem (done : List FuncId) {f : FuncId} (hf : f ≠ w) :
        f ∈ done.filter (· ≠ w) ↔ f ∈ done := by simp [hf]
    rw [postorder_succ, postorder_succ]
    by_cases hdone : func ∈ done
    · rw [if_pos hdone, if_pos ((hmem done hfunc).mpr hdone)]
    · rw [if_neg hdone, if_neg (mt (hmem done hfunc).mp hdone), List.filter_append]
      congr 1
      · refine filter_foldl (fun done => ?_) (fun done f hf => ?_) _ _
        · rw [walkCallee]
          split_ifs
          · rfl
          · exact filter_postorder_leaf hw fuel _ done
        · simp only [walkCallee, hmem done hf]
          split_ifs
          · rfl
          · exact ih (List.not_mem_cons_of_ne_of_not_mem hfunc.symm hstack) done hf
      · simp [hfunc]

theorem filter_foldl_postorder (fuel : Nat) (starts : List FuncId) :
    (starts.foldl (postorder next fuel []) []).filter (· ≠ w) =
      (starts.filter (· ≠ w)).foldl
        (postorder (fun f => (next f).filter (· ≠ w)) fuel []) [] :=
  filter_foldl (fun done => filter_postorder_leaf hw fuel [] done)
    (fun done _ hf => filter_postorder hw fuel List.not_mem_nil done hf) starts []

end Leaf

end LockUsage
