import LockUsage.Program.Derivation
import Mathlib.Data.List.Iterate
import Mathlib.Dynamics.PeriodicPts.Defs

/-! The value that an operand derives from in the end. Parents form chains that may lead forwards
and around in cycles. If an operand without a parent counts as its own parent, then the root of an
operand is the first one on its chain that comes back to itself. -/

namespace LockUsage

namespace Func

/-- The operand that another one derives from. -/
def source? (f : Func) : Operand → Option Operand
  | .inst id => f.parent? id
  | _ => none

/-- What an operand derives from in so many steps. -/
def ancestor? (f : Func) (o : Operand) : Nat → Option Operand
  | 0 => some o
  | n + 1 => (f.ancestor? o n).bind f.source?

/-- The operand derives from itself. -/
def OnCycle (f : Func) (x : Operand) : Prop := ∃ n > 0, f.ancestor? x n = some x

/-- The search for the root with nothing to bound it: from an operand, and with the instructions
that it has passed, it ends with a result. -/
inductive TracesTo (f : Func) : List InstId → Operand → Operand → Prop
  | value {seen o} : (∀ id, o ≠ .inst id) → TracesTo f seen o o
  | again {seen id} : id ∈ seen → TracesTo f seen (.inst id) (.inst id)
  | bare {seen id} : id ∉ seen → f.parent? id = none → TracesTo f seen (.inst id) (.inst id)
  | up {seen id parent result} : id ∉ seen → f.parent? id = some parent →
      TracesTo f (id :: seen) parent result → TracesTo f seen (.inst id) result

variable {f : Func} {o x y e : Operand} {seen : List InstId} {n k : Nat}

theorem lt_of_parent? {id : InstId} (h : f.parent? id = some o) : id < f.insts.size := by
  simp only [parent?, Option.bind_eq_bind, Option.bind_eq_some_iff] at h
  obtain ⟨inst, hinst, -⟩ := h
  exact (Array.getElem?_eq_some_iff.mp hinst).1

theorem rootFrom_of_mem {fuel : Nat} {id : InstId} (h : id ∈ seen) :
    f.rootFrom (fuel + 1) seen (.inst id) = .inst id := if_pos h

theorem rootFrom_of_notMem {fuel : Nat} {id : InstId} (h : id ∉ seen) :
    f.rootFrom (fuel + 1) seen (.inst id) =
      (f.parent? id).elim (.inst id) (f.rootFrom fuel (id :: seen)) := by
  have hnew : f.rootFrom (fuel + 1) seen (.inst id) = _ := if_neg h
  rw [hnew]
  cases f.parent? id <;> rfl

/-- The search ends before the bound is reached: each instruction that it passes is a new one. -/
theorem tracesTo_rootFrom {fuel : Nat} (hnodup : seen.Nodup)
    (hseen : ∀ id ∈ seen, id < f.insts.size) (hfuel : f.insts.size < fuel + seen.length) :
    f.TracesTo seen o (f.rootFrom fuel seen o) := by
  induction fuel generalizing seen o with
  | zero =>
    have hle := (hnodup.subperm fun id h => List.mem_range.mpr (hseen id h)).length_le
    rw [List.length_range] at hle
    omega
  | succ fuel ih =>
    cases o with
    | inst id =>
      by_cases hmem : id ∈ seen
      · rw [rootFrom_of_mem hmem]
        exact .again hmem
      · rw [rootFrom_of_notMem hmem]
        cases hparent : f.parent? id with
        | none => exact .bare hmem hparent
        | some parent =>
          refine .up hmem hparent (ih (List.nodup_cons.mpr ⟨hmem, hnodup⟩) ?_ ?_)
          · exact List.forall_mem_cons.mpr ⟨lt_of_parent? hparent, hseen⟩
          · rw [List.length_cons]
            omega
    | _ => exact .value fun _ h => by cases h

theorem tracesTo_root (f : Func) (o : Operand) : f.TracesTo [] o (f.root o) :=
  tracesTo_rootFrom List.nodup_nil (fun _ h => by cases h) (by simp)

theorem TracesTo.unique (h : f.TracesTo seen o x) (h' : f.TracesTo seen o y) : x = y := by
  induction h with
  | value hother =>
    cases h' with
    | value => rfl
    | again | bare | up => exact absurd rfl (hother _)
  | again hmem =>
    cases h' with
    | value hother => exact absurd rfl (hother _)
    | again => rfl
    | bare hnew | up hnew => exact absurd hmem hnew
  | bare hnew hparent =>
    cases h' with
    | value hother => exact absurd rfl (hother _)
    | again hmem => exact absurd hmem hnew
    | bare => rfl
    | up _ hparent' => cases hparent.symm.trans hparent'
  | up hnew hparent _ ih =>
    cases h' with
    | value hother => exact absurd rfl (hother _)
    | again hmem => exact absurd hmem hnew
    | bare _ hparent' => cases hparent.symm.trans hparent'
    | up _ hparent' h' =>
      obtain rfl := Option.some.inj (hparent.symm.trans hparent')
      exact ih h'

/-- One step up the chain, which stays where it ends. -/
def derive (f : Func) (o : Operand) : Operand := (f.source? o).getD o

theorem derive_of_source? (h : f.source? o = some x) : f.derive o = x := by
  rw [derive, h, Option.getD_some]

theorem derive_of_end (h : f.source? e = none) : f.derive e = e := by
  rw [derive, h, Option.getD_none]

theorem ancestor?_eq_some_iff : f.ancestor? o n = some x ↔
    f.derive^[n] o = x ∧ ∀ k < n, f.source? (f.derive^[k] o) ≠ none := by
  induction n generalizing x with
  | zero => simp [ancestor?]
  | succ n ih =>
    rw [ancestor?, Option.bind_eq_some_iff, Function.iterate_succ_apply']
    constructor
    · rintro ⟨y, hy, hx⟩
      obtain ⟨rfl, hk⟩ := ih.mp hy
      refine ⟨derive_of_source? hx, fun k hlt => ?_⟩
      rcases Nat.lt_succ_iff_lt_or_eq.mp hlt with hlt | rfl
      · exact hk k hlt
      · simp [hx]
    · rintro ⟨rfl, hk⟩
      obtain ⟨y, hy⟩ := Option.ne_none_iff_exists'.mp (hk n n.lt_succ_self)
      refine ⟨_, ih.mpr ⟨rfl, fun k hlt => hk k (hlt.trans n.lt_succ_self)⟩, ?_⟩
      rw [derive_of_source? hy, hy]

/-- A search goes up the chain through new operands, to one that is without a parent or was
passed. -/
theorem TracesTo.exists_steps (h : f.TracesTo seen o x) : ∃ n, x = f.derive^[n] o ∧
    (List.iterate f.derive o n).Nodup ∧
    (∀ y ∈ List.iterate f.derive o n, f.source? y ≠ none ∧ ∀ id ∈ seen, y ≠ .inst id) ∧
    (f.source? x = none ∨ (∃ id ∈ seen, x = .inst id) ∨ x ∈ List.iterate f.derive o n) := by
  induction h with
  | @value _ o hother =>
    have hend : f.source? o = none := by
      cases o with
      | inst id => exact absurd rfl (hother id)
      | _ => rfl
    exact ⟨0, rfl, List.nodup_nil, fun _ hy => (by cases hy), .inl hend⟩
  | again hmem =>
    exact ⟨0, rfl, List.nodup_nil, fun _ hy => (by cases hy), .inr (.inl ⟨_, hmem, rfl⟩)⟩
  | bare _ hparent => exact ⟨0, rfl, List.nodup_nil, fun _ hy => (by cases hy), .inl hparent⟩
  | @up seen id parent result hnew hparent _ ih =>
    obtain ⟨n, hresult, hnodup, hpassed, hend⟩ := ih
    have hderive : f.derive (.inst id) = parent := derive_of_source? hparent
    have hiterate : List.iterate f.derive (.inst id) (n + 1) =
        .inst id :: List.iterate f.derive parent n := by rw [List.iterate, hderive]
    have hfirst : Operand.inst id ∉ List.iterate f.derive parent n :=
      fun hmem => (hpassed _ hmem).2 id List.mem_cons_self rfl
    refine ⟨n + 1, ?_, ?_, ?_, ?_⟩
    · rw [Function.iterate_succ_apply, hderive, hresult]
    · rw [hiterate]
      exact List.nodup_cons.mpr ⟨hfirst, hnodup⟩
    · rw [hiterate]
      refine List.forall_mem_cons.mpr ⟨⟨?_, ?_⟩, fun y hy => ⟨(hpassed y hy).1, ?_⟩⟩
      · simp [source?, hparent]
      · exact fun id' hid' heq => hnew (Operand.inst.inj heq ▸ hid')
      · exact fun id' hid' => (hpassed y hy).2 id' (List.mem_cons_of_mem _ hid')
    · rw [hiterate]
      rcases hend with hend | ⟨id', hid', heq⟩ | hmem
      · exact .inl hend
      · rcases List.mem_cons.mp hid' with rfl | hid'
        · exact .inr (.inr (heq ▸ List.mem_cons_self))
        · exact .inr (.inl ⟨id', hid', heq⟩)
      · exact .inr (.inr (List.mem_cons_of_mem _ hmem))

/-- The operand at this place of the chain comes back to itself, and none before it does. -/
def FirstRecurrent (f : Func) (o : Operand) (n : Nat) : Prop :=
  f.derive^[n] o ∈ Function.periodicPts f.derive ∧
    ∀ k < n, f.derive^[k] o ∉ Function.periodicPts f.derive

theorem FirstRecurrent.unique (h : f.FirstRecurrent o n) (h' : f.FirstRecurrent o k) : n = k := by
  rcases Nat.lt_trichotomy n k with hlt | heq | hlt
  · exact absurd h.1 (h'.2 n hlt)
  · exact heq
  · exact absurd h'.1 (h.2 k hlt)

/-- Whatever an operand leads to leads back, if the operand comes back to itself. -/
theorem exists_iterate_back (h : x ∈ Function.periodicPts f.derive) (hy : f.derive^[n] x = y) :
    ∃ k, f.derive^[k] y = x := by
  obtain ⟨m, hm, hperiod⟩ := Function.mem_periodicPts.mp h
  refine ⟨m * n - n, ?_⟩
  have hle : n ≤ m * n := Nat.le_mul_of_pos_left n hm
  rw [← hy, ← Function.iterate_add_apply, Nat.sub_add_cancel hle]
  exact hperiod.mul_const n

theorem mem_periodicPts_of_end (h : f.source? e = none) : e ∈ Function.periodicPts f.derive :=
  Function.mk_mem_periodicPts one_pos (derive_of_end h)

theorem eq_of_leads_to_end (h : x ∈ Function.periodicPts f.derive) (he : f.source? e = none)
    (hx : f.derive^[n] x = e) : x = e := by
  obtain ⟨k, hk⟩ := exists_iterate_back h hx
  rw [← hk, Function.iterate_fixed (derive_of_end he)]

theorem exists_firstRecurrent (f : Func) (o : Operand) :
    ∃ n, f.root o = f.derive^[n] o ∧ f.FirstRecurrent o n := by
  obtain ⟨n, hroot, hnodup, hpassed, hend⟩ := (f.tracesTo_root o).exists_steps
  have hinj {i j : Nat} (hi : i < n) (hj : j < n) (heq : f.derive^[i] o = f.derive^[j] o) :
      i = j := by
    rw [← List.range_map_iterate] at hnodup
    exact List.inj_on_of_nodup_map hnodup (List.mem_range.mpr hi) (List.mem_range.mpr hj) heq
  rcases hend with hend | ⟨id, hid, -⟩ | hmem
  · refine ⟨n, hroot, hroot ▸ mem_periodicPts_of_end hend, fun k hk hrec => ?_⟩
    have hsource := (hpassed _ (List.mem_iterate.mpr ⟨k, hk, rfl⟩)).1
    have hleads : f.derive^[n - k] (f.derive^[k] o) = f.root o := by
      rw [← Function.iterate_add_apply, Nat.sub_add_cancel hk.le, hroot]
    exact hsource (eq_of_leads_to_end hrec hend hleads ▸ hend)
  · cases hid
  · obtain ⟨j, hj, hroot'⟩ := List.mem_iterate.mp hmem
    have hperiod : Function.IsPeriodicPt f.derive (n - j) (f.derive^[j] o) := by
      rw [Function.IsPeriodicPt, Function.IsFixedPt, ← Function.iterate_add_apply,
        Nat.sub_add_cancel hj.le, ← hroot, hroot']
    refine ⟨j, hroot', Function.mk_mem_periodicPts (Nat.sub_pos_of_lt hj) hperiod, ?_⟩
    intro k hk hrec
    -- The chain comes back from place `j` to place `k`, within one turn, where all are different.
    have hleads : f.derive^[j - k] (f.derive^[k] o) = f.derive^[j] o := by
      rw [← Function.iterate_add_apply, Nat.sub_add_cancel hk.le]
    obtain ⟨i, hi⟩ := exists_iterate_back hrec hleads
    rw [← hperiod.iterate_mod_apply, ← Function.iterate_add_apply] at hi
    have hlt := Nat.mod_lt i (Nat.sub_pos_of_lt hj)
    have heq := hinj (by omega) (hk.trans hj) hi
    omega

theorem FirstRecurrent.root_eq (h : f.FirstRecurrent o n) : f.root o = f.derive^[n] o := by
  obtain ⟨k, hroot, hk⟩ := f.exists_firstRecurrent o
  rw [hroot, h.unique hk]

theorem mem_periodicPts_iff :
    x ∈ Function.periodicPts f.derive ↔ f.source? x = none ∨ f.OnCycle x := by
  constructor
  · intro h
    by_cases hsource : f.source? x = none
    · exact .inl hsource
    · obtain ⟨n, hn, hperiod⟩ := Function.mem_periodicPts.mp h
      refine .inr ⟨n, hn, ancestor?_eq_some_iff.mpr ⟨hperiod, fun k _ hk => ?_⟩⟩
      exact hsource (eq_of_leads_to_end h hk rfl ▸ hk)
  · rintro (h | ⟨n, hn, h⟩)
    · exact mem_periodicPts_of_end h
    · exact Function.mk_mem_periodicPts hn (ancestor?_eq_some_iff.mp h).1

theorem root_of_mem_periodicPts (h : x ∈ Function.periodicPts f.derive) : f.root x = x :=
  FirstRecurrent.root_eq (n := 0) ⟨h, fun _ hk => absurd hk (Nat.not_lt_zero _)⟩

theorem root_mem_periodicPts (f : Func) (o : Operand) :
    f.root o ∈ Function.periodicPts f.derive := by
  obtain ⟨n, hroot, hrec, -⟩ := f.exists_firstRecurrent o
  exact hroot ▸ hrec

theorem root_of_end (he : f.ancestor? o n = some e) (hend : f.source? e = none)
    (hx : f.ancestor? o k = some x) : f.root x = e := by
  obtain ⟨rfl, -⟩ := ancestor?_eq_some_iff.mp he
  obtain ⟨rfl, -⟩ := ancestor?_eq_some_iff.mp hx
  obtain ⟨j, hroot, -⟩ := f.exists_firstRecurrent (f.derive^[k] o)
  refine eq_of_leads_to_end (f.root_mem_periodicPts _) hend (n := n) ?_
  calc f.derive^[n] (f.root (f.derive^[k] o))
    _ = f.derive^[n + (j + k)] o := by
      rw [hroot, Function.iterate_add_apply, Function.iterate_add_apply]
    _ = f.derive^[j + k] (f.derive^[n] o) := by rw [Nat.add_comm, Function.iterate_add_apply]
    _ = f.derive^[n] o := Function.iterate_fixed (derive_of_end hend) _

theorem root_of_onCycle (hx : f.ancestor? o n = some x) (hcycle : f.OnCycle x)
    (hfirst : ∀ k < n, ∀ y, f.ancestor? o k = some y → ¬ f.OnCycle y) : f.root o = x := by
  obtain ⟨rfl, hsources⟩ := ancestor?_eq_some_iff.mp hx
  refine FirstRecurrent.root_eq ⟨mem_periodicPts_iff.mpr (.inr hcycle), fun k hk hrec => ?_⟩
  have hk' : f.ancestor? o k = some (f.derive^[k] o) :=
    ancestor?_eq_some_iff.mpr ⟨rfl, fun i hi => hsources i (hi.trans hk)⟩
  rcases mem_periodicPts_iff.mp hrec with hend | hrec
  · exact hsources k hk hend
  · exact hfirst k hk _ hk' hrec

/-- Every chain of parents ends or enters a cycle. -/
theorem exists_end_or_cycle (f : Func) (o : Operand) :
    (∃ n e, f.ancestor? o n = some e ∧ f.source? e = none) ∨
    ∃ n x, f.ancestor? o n = some x ∧ f.OnCycle x ∧
      ∀ k < n, ∀ y, f.ancestor? o k = some y → ¬ f.OnCycle y := by
  obtain ⟨n, -, hrec, hfirst⟩ := f.exists_firstRecurrent o
  have hn : f.ancestor? o n = some (f.derive^[n] o) :=
    ancestor?_eq_some_iff.mpr ⟨rfl, fun k hk hend => hfirst k hk (mem_periodicPts_of_end hend)⟩
  rcases mem_periodicPts_iff.mp hrec with hend | hcycle
  · exact .inl ⟨n, _, hn, hend⟩
  · refine .inr ⟨n, _, hn, hcycle, fun k hk y hy hy' => hfirst k hk ?_⟩
    rw [(ancestor?_eq_some_iff.mp hy).1]
    exact mem_periodicPts_iff.mpr (.inr hy')

/-- Roots are well defined on all chains of parents. The search for the root ends, and the root is
its result. Other values than instructions are their own roots. If the chain of an operand ends,
the root of everything on it is its end. If it enters a cycle, which is the only other case, the
root is the first operand on the chain that lies on the cycle. A root is its own root. -/
theorem root_is_well_defined (f : Func) (o : Operand) :
    (∀ x, f.TracesTo [] o x ↔ x = f.root o) ∧
    ((∀ id, o ≠ .inst id) → f.root o = o) ∧
    (∀ n e, f.ancestor? o n = some e → f.source? e = none →
      ∀ k x, f.ancestor? o k = some x → f.root x = e) ∧
    (∀ n x, f.ancestor? o n = some x → f.OnCycle x →
      (∀ k < n, ∀ y, f.ancestor? o k = some y → ¬ f.OnCycle y) → f.root o = x) ∧
    ((∃ n e, f.ancestor? o n = some e ∧ f.source? e = none) ∨
      ∃ n x, f.ancestor? o n = some x ∧ f.OnCycle x ∧
        ∀ k < n, ∀ y, f.ancestor? o k = some y → ¬ f.OnCycle y) ∧
    f.root (f.root o) = f.root o := by
  refine ⟨fun x => ⟨fun h => h.unique (f.tracesTo_root o), fun h => h ▸ f.tracesTo_root o⟩,
    fun hother => ?_, fun n e he hend k x hx => root_of_end he hend hx,
    fun n x hx hcycle hfirst => root_of_onCycle hx hcycle hfirst, f.exists_end_or_cycle o,
    root_of_mem_periodicPts (f.root_mem_periodicPts o)⟩
  exact (f.tracesTo_root o).unique (.value hother)

end Func

/-- Instructions 1 to 3 derive from each other in a cycle, which instruction 0 leads to. Instruction
5 derives from 4, and 4 from a global. -/
def selfFed : Func where
  name := "f"
  params := []
  blocks := #[⟨"a", [0, 1, 2, 3, 4, 5, 6]⟩]
  insts := #[⟨none, 0, .other [.inst 2, .inst 5]⟩, ⟨none, 0, .other [.inst 2]⟩,
    ⟨none, 0, .cmp .eq (.const .null) (.inst 3)⟩, ⟨none, 0, .other [.inst 1]⟩,
    ⟨none, 0, .other [.global 0]⟩, ⟨none, 0, .cmp .eq (.inst 4) (.inst 0)⟩, ⟨none, 0, .ret none⟩]

theorem self_fed_roots_well_defined :
    selfFed.ancestor? (.inst 0) 1 = some (.inst 2) ∧ selfFed.OnCycle (.inst 2) ∧
    (∀ k < 1, ∀ y, selfFed.ancestor? (.inst 0) k = some y → ¬ selfFed.OnCycle y) ∧
    selfFed.root (.inst 0) = .inst 2 ∧
    selfFed.ancestor? (.inst 5) 2 = some (.global 0) ∧ selfFed.source? (.global 0) = none ∧
    selfFed.ancestor? (.inst 5) 1 = some (.inst 4) ∧ selfFed.root (.inst 4) = .global 0 ∧
    (∀ id, Operand.const .null ≠ .inst id) ∧ selfFed.root (.const .null) = .const .null := by
  have hcycle : selfFed.OnCycle (.inst 2) := ⟨3, by decide, by decide⟩
  have hfirst : ∀ k < 1, ∀ y, selfFed.ancestor? (.inst 0) k = some y → ¬ selfFed.OnCycle y := by
    intro k hk y hy hy'
    obtain rfl := Nat.lt_one_iff.mp hk
    obtain rfl := Option.some.inj hy
    have hroot := (selfFed.root_is_well_defined (.inst 0)).2.2.2.1 0 _ rfl hy'
      fun _ h => absurd h (Nat.not_lt_zero _)
    exact absurd hroot (by decide)
  have hconst : ∀ id, Operand.const .null ≠ .inst id := fun _ h => by cases h
  exact ⟨by decide, hcycle, hfirst,
    (selfFed.root_is_well_defined (.inst 0)).2.2.2.1 1 _ (by decide) hcycle hfirst,
    by decide, rfl, by decide,
    (selfFed.root_is_well_defined (.inst 5)).2.2.1 2 _ (by decide) rfl 1 _ (by decide),
    hconst, (selfFed.root_is_well_defined (.const .null)).2.1 hconst⟩

end LockUsage
