import LockUsage.Proofs.Balance
import LockUsage.Proofs.Problems

/-! Runs that converge are stable: taking up any node once more changes nothing. This holds of every
program that passes the check, even where a block lists an instruction twice, so that an edge can
lead to an instruction which it does not feed. What feeds an instruction then lies on every walk
there, and a run puts facts on all edges of some walk to each edge that it comes to. -/

namespace LockUsage

namespace Problem

variable {P : Problem} {s s' : P.State} {t : FactTable P.body.func.insts.size}

/-- Some walk to every edge with facts has facts all along. -/
def Trodden (P : Problem) (t : FactTable P.body.func.insts.size) : Prop :=
  ∀ e fs, t.get? e = some fs → ∃ steps, P.body.Walk steps e ∧
    ∀ pre e', pre <+: steps → P.body.Walk pre e' → ∃ fs', t.get? e' = some fs'

theorem Trodden.fed (hb : P.body.Checked) (h : P.Trodden t) : P.Fed t := by
  intro e fs j he ht
  obtain ⟨steps, hw, hall⟩ := h e fs he
  cases hk : P.body.prev? j with
  | some k =>
    obtain ⟨-, pre, hpre, hwalk⟩ := hb.exists_prev hw ht hk
    obtain ⟨fs', he'⟩ := hall pre _ hpre hwalk
    exact List.ne_nil_of_mem (FactTable.mem_feeding.mpr ⟨_, (Body.feeds_of_prev? hk).mpr rfl, he'⟩)
  | none =>
    exact List.ne_nil_of_mem (FactTable.mem_feeding.mpr ⟨e, (Body.feeds_of_no_prev? hk).mpr ht, he⟩)

theorem Trodden.puts (h : P.Trodden s.facts) {e : P.Edge} {fs facts : FactSet} {way : Branch}
    (he : s.facts.get? e = some fs) (hput : P.Puts s s' (P.body.out e.target way) facts) :
    P.Trodden s'.facts := by
  intro e' fs' he'
  by_cases hnew : e' = P.body.out e.target way
  · subst hnew
    obtain ⟨steps, hw, hall⟩ := h e fs he
    refine ⟨_, hw.step way, fun pre e₁ hpre hw₁ => ?_⟩
    rcases List.prefix_concat_iff.mp hpre with rfl | hpre
    · exact ⟨fs', (hw₁.unique (hw.step way)) ▸ he'⟩
    · obtain ⟨fs₁, he₁⟩ := hall pre e₁ hpre hw₁
      exact hput.exists_get? he₁
  · rw [hput.get?_of_ne hnew] at he'
    obtain ⟨steps, hw, hall⟩ := h e' fs' he'
    refine ⟨steps, hw, fun pre e₁ hpre hw₁ => ?_⟩
    obtain ⟨fs₁, he₁⟩ := hall pre e₁ hpre hw₁
    exact hput.exists_get? he₁

theorem Trodden.sends {e : P.Edge} {facts : FactSet} {ways : List Branch}
    (hsends : P.Sends e.target facts ways s s') (h : P.Trodden s.facts) {fs : FactSet}
    (he : s.facts.get? e = some fs) : P.Trodden s'.facts := by
  generalize hnode : e.target = node at hsends
  induction hsends generalizing fs with
  | nil => exact h
  | cons hput _ ih =>
    subst hnode
    obtain ⟨fs', he'⟩ := hput.exists_get? he
    exact ih (h.puts he hput) he'

theorem trodden_start {entry : P.body.InstIx} (h : P.body.entry? = some entry) :
    P.Trodden (P.start entry).facts := by
  intro e fs he
  obtain ⟨rfl, -⟩ := get?_start.mp he
  have hw : P.body.Walk [] (.entry entry) :=
    .start (Body.entryEdge?_eq_some_iff.mpr ⟨entry, h, rfl⟩)
  refine ⟨[], hw, fun pre e' hpre hw' => ⟨fs, ?_⟩⟩
  obtain rfl := List.prefix_nil.mp hpre
  exact (hw'.unique hw) ▸ he

/-- What holds before and after every step of a run on a program that passes the check. -/
structure Tended (P : Problem) (s : P.State) : Prop where
  invariant : P.RunInvariant none s
  trodden : P.Trodden s.facts

theorem Tended.step (hb : P.body.Checked) {node : P.Node} {work : Worklist P.Node}
    (h : P.Tended s) (hpop : s.work.pop? = some (node, work)) :
    P.Tended (P.step { s with work } node) := by
  have hfed := h.trodden.fed hb
  obtain ⟨⟨e, fs, he, rfl, -⟩, s₁, facts, hfacts, -, -, -, -, hsends⟩ :=
    h.invariant.exists_sends hb hfed hpop
  refine ⟨h.invariant.step hb hfed hpop, ?_⟩
  rw [← hfacts] at he
  exact Trodden.sends hsends (hfacts ▸ h.trodden) he

/-- A balanced node passes on what stands on the edges out of it already. -/
theorem Recorded.step_eq (hb : P.body.Checked) (hr : P.Recorded s.edges s.facts)
    (hfed : P.Fed s.facts) {e : P.Edge} {fs : FactSet} (he : s.facts.get? e = some fs)
    (hset : P.Balanced s.facts e.target) : (P.step s e.target).facts = s.facts := by
  obtain ⟨s₁, facts, hfacts, -, -, -, heq, hsends⟩ :=
    hr.exists_sends hb he fun j => hfed e fs j he
  refine (hsends.unchanged fun way => ?_).1.trans hfacts
  obtain ⟨out, hout, hequiv⟩ := hset way
  exact ⟨out, hfacts ▸ hout, hequiv.trans (equiv_flowOut heq.symm _ _)⟩

/-- What stands on the edges out of a balanced instruction is what it passes on of the facts that
are found to enter it. -/
theorem Recorded.exists_input_same (hr : P.Recorded s.edges s.facts) (hfed : P.Fed s.facts)
    {e : P.Edge} {fs : FactSet} (he : s.facts.get? e = some fs) {i : P.body.InstIx}
    (ht : e.target = .inst i) (hset : P.Balanced s.facts (.inst i)) :
    ∃ facts, (P.input s i).2 = some facts ∧ ∀ way, ∃ out,
      s.facts.get? (P.body.edge i way) = some out ∧ out.same (P.flow i way facts) = true := by
  obtain ⟨edges, facts, hinput, -, hp, heq⟩ := hr.exists_input (hfed e fs i he ht)
  refine ⟨facts, by rw [hinput], fun way => ?_⟩
  obtain ⟨out, hout, hequiv⟩ := hset way
  refine ⟨out, hout, (FactSet.same_iff_equiv ?_ ?_).mpr ?_⟩
  · exact (hr.proper _ out hout).distinct
  · exact P.distinct_flow hp.distinct i way
  · exact hequiv.trans (P.equiv_flow heq.symm i way)

/-- What stands on the edge from the return node to itself is the union of what comes there. -/
theorem Recorded.exit_same (hr : P.Recorded s.edges s.facts)
    (hset : ∀ e fs, s.facts.get? e = some fs → P.Balanced s.facts e.target) :
    ((s.facts.get? .exit).getD .empty).same (s.facts.merged .ret) = true := by
  have hfed : (s.facts.fed .ret).Equiv (s.facts.merged .ret) := by
    refine FactSet.merge_equiv_of_mem_iff fun fs => ?_
    rw [FactTable.mem_feeding, FactTable.mem_into]
    exact exists_congr fun e => by rw [Body.feeds_ret, and_assoc]
  cases hexit : s.facts.get? .exit with
  | some fs =>
    obtain ⟨out, hout, heq⟩ := hset .exit fs hexit .taken
    obtain rfl : out = fs := Option.some.inj (hout.symm.trans hexit)
    have hdistinct := (hr.proper _ out hexit).distinct
    exact (FactSet.same_iff_equiv hdistinct (FactSet.distinct_merge _)).mpr (heq.trans hfed)
  | none =>
    have hinto : s.facts.into .ret = [] := List.eq_nil_iff_forall_not_mem.mpr fun fs hfs => by
      obtain ⟨e, ht, -, he⟩ := FactTable.mem_into.mp hfs
      obtain ⟨out, hout, -⟩ := hset e fs he .taken
      rw [ht] at hout
      cases hout.symm.trans hexit
    rw [FactTable.merged, hinto]
    rfl

theorem tended_final (hb : P.body.Checked) {entry : P.body.InstIx}
    (h : P.body.entry? = some entry) (hc : P.solve.converged = true) :
    P.Tended (P.final entry) ∧ ∀ e fs, (P.final entry).facts.get? e = some fs →
      P.Balanced (P.final entry).facts e.target := by
  obtain ⟨ht, hq⟩ := final_preserves h hc ⟨runInvariant_start h, trodden_start h⟩
    fun s node work ht hpop => Tended.step hb ht hpop
  refine ⟨ht, fun e fs he => ?_⟩
  rcases ht.invariant.balanced e fs he with hpend | hbusy | hset
  · simp [hq] at hpend
  · cases hbusy
  · exact hset

end Problem

/-- When a run on a program that passes the check has converged, taking up any node once more that
an edge with facts leads to changes nothing, whatever edges have been asked for since. Each such
instruction has passed on all that enters it, and the function is left with all that comes to the
return node. -/
theorem Problem.converged_run_stable {p : Program} {func : FuncId} {f : Func} {b : Body}
    {source : AliasSource} {config : Config} {sites : SiteMap} {lock : TrackedLock} {P : Problem}
    (hp : p.fault? = none) (hf : p.functions[func]? = some f) (hdef : f.isDeclaration = false)
    (hb : Body.of? f = some b) (hP : of? source config p func b sites lock = some P)
    (hc : P.solve.converged = true) :
    ∃ entry, P.body.entry? = some entry ∧ (P.final entry).facts = P.solve.facts ∧
      (∀ s : P.State, s.facts = P.solve.facts → (P.final entry).edges.asked ⊆ s.edges.asked →
        ∀ e fs, P.solve.facts.get? e = some fs →
          (P.step s e.target).facts = P.solve.facts ∧
          ∀ i, e.target = .inst i → ∃ facts, (P.input s i).2 = some facts ∧ ∀ way, ∃ out,
            P.solve.facts.get? (P.body.edge i way) = some out ∧
            out.same (P.flow i way facts) = true) ∧
      P.solve.exit.same (P.solve.facts.merged .ret) = true := by
  have hchecked := checked_of_of? (Program.checked_of_fault? hp hf) hb hP
  have hfunc : P.body.func = f := by rw [body_of_of? hP, Body.func_of_of? hb]
  obtain ⟨entry, hentry⟩ := hchecked.exists_entry (hfunc ▸ hdef)
  obtain ⟨ht, hset⟩ := tended_final hchecked hentry hc
  have hfacts := facts_solve hentry
  refine ⟨entry, hentry, hfacts.symm, fun s hs hasked e fs he => ?_, ?_⟩
  · rw [← hs] at he ⊢
    rw [hfacts] at hs
    have hr : P.Recorded s.edges s.facts := by
      rw [hs]
      have hr := ht.invariant.recorded
      exact ⟨hr.reaches, fun i way fs h => hasked (hr.asked i way fs h), hr.proper⟩
    have hfed : P.Fed s.facts := hs ▸ ht.trodden.fed hchecked
    have hbalanced : P.Balanced s.facts e.target := hs ▸ hset e fs (hs ▸ he)
    exact ⟨hr.step_eq hchecked hfed he hbalanced,
      fun i hi => hr.exists_input_same hfed he hi (hi ▸ hbalanced)⟩
  · rw [Result.exit, hfacts]
    exact ht.invariant.recorded.exit_same hset

/-- Lists the acquire a second time, so that control goes round between the two places. -/
def circlingFunc : Func where
  name := "f"
  params := []
  blocks := #[⟨"A", [0, 1, 2, 1, 3]⟩]
  insts := #[⟨none, 0, .other []⟩, ⟨none, 0, .call (.direct 0) [.global 0]⟩, ⟨none, 0, .other []⟩,
    ⟨none, 0, .ret none⟩, ⟨none, 0, .unreachable⟩]

def circling : Program := ⟨"m", #["l"], #[⟨"k", ["x"], #[], #[]⟩, circlingFunc]⟩

def circlingBody : Body := ⟨circlingFunc, by decide +kernel⟩

def circlingSites : SiteMap := .ofList [⟨1, .acquire, .global 0, false, 0⟩]

def circledLock : TrackedLock := ⟨"@l", ⟨1, .global 0⟩, false⟩

def circlingProblem : Problem :=
  .pose .default circling 1 circlingBody circledLock [(1, some .acquire)]

theorem circling_run_stable :
    circling.fault? = none ∧ circling.functions[1]? = some circlingFunc ∧
    circlingFunc.isDeclaration = false ∧ Body.of? circlingFunc = some circlingBody ∧
    Problem.of? .names .default circling 1 circlingBody circlingSites circledLock =
      some circlingProblem ∧
    circlingProblem.solve.converged = true ∧
    -- The acquire is entered from the second place too, but not fed from there.
    (∃ e fs, circlingProblem.solve.facts.get? e = some fs ∧ e.target = .inst (1 : Fin 5) ∧
      circlingBody.feeds e (.inst (1 : Fin 5)) = false) ∧
    ∃ entry, circlingProblem.body.entry? = some entry ∧
      ∀ e fs, circlingProblem.solve.facts.get? e = some fs →
        (circlingProblem.step (circlingProblem.final entry) e.target).facts =
          circlingProblem.solve.facts := by
  have hP : Problem.of? .names .default circling 1 circlingBody circlingSites circledLock =
      some circlingProblem :=
    Problem.of?_eq_pose (by decide +kernel) (by decide +kernel) (by decide +kernel)
  have hc : circlingProblem.solve.converged = true := by decide +kernel
  have hround :
      (circlingProblem.solve.facts.get? (circlingBody.edge (2 : Fin 5) .taken)).isSome := by
    decide +kernel
  obtain ⟨fs, hfs⟩ := Option.isSome_iff_exists.mp hround
  obtain ⟨entry, hentry, hfacts, hstable, -⟩ :=
    Problem.converged_run_stable (by decide +kernel) rfl rfl rfl hP hc
  refine ⟨by decide +kernel, rfl, rfl, rfl, hP, hc,
    ⟨_, fs, hfs, by decide +kernel, by decide +kernel⟩, entry, hentry, fun e fs he => ?_⟩
  exact (hstable _ hfacts (List.Subset.refl _) e fs he).1

end LockUsage
