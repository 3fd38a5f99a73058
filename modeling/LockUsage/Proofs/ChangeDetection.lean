import LockUsage.Proofs.FactSets

/-! A run stops when no set of facts changes. Whether a set has changed is told from its size and
from one inclusion. That is enough for sets without duplicates, and the answer does not depend on
the order in which facts arrived. -/

namespace LockUsage

theorem Fact.same_equivalence : Equivalence fun f g : Fact => f.same g = true where
  refl _ := Fact.same_iff.mpr rfl
  symm h := Fact.same_iff.mpr (Fact.same_iff.mp h).symm
  trans h h' := Fact.same_iff.mpr ((Fact.same_iff.mp h).trans (Fact.same_iff.mp h'))

namespace FactSet

variable {s t : FactSet} {f : Fact}

/-- A fact of the set is the same as this one. -/
def Has (s : FactSet) (f : Fact) : Prop := ∃ g ∈ s.facts, g.same f = true

theorem has_iff : s.Has f ↔ f.key ∈ s.keys := by
  simp only [Has, Fact.same_iff, mem_keys]

theorem equiv_iff_has : s.Equiv t ↔ ∀ f, s.Has f ↔ t.Has f := by
  simp only [has_iff]
  have hsub {s t : FactSet} (h : ∀ f : Fact, f.key ∈ s.keys → f.key ∈ t.keys) :
      s.keys ⊆ t.keys := by
    intro k hk
    obtain ⟨f, -, rfl⟩ := mem_keys.mp hk
    exact h f hk
  constructor
  · exact fun h f => h f.key
  · exact fun h k => ⟨fun hk => hsub (fun f => (h f).mp) hk, fun hk => hsub (fun f => (h f).mpr) hk⟩

theorem Distinct.pairwise (h : s.Distinct) : s.facts.Pairwise fun f g => f.same g = false := by
  have hkeys : s.facts.Pairwise fun f g => f.key ≠ g.key := List.pairwise_map.mp h
  refine hkeys.imp fun hne => ?_
  rw [Bool.eq_false_iff]
  exact fun hsame => hne (Fact.same_iff.mp hsame)

theorem same_iff_size : s.same t = true ↔ s.size = t.size ∧ s.Equiv t := by
  simp only [same, Bool.and_eq_true, Bool.not_eq_true', differsFrom_eq_false_iff_subset]
  constructor
  · rintro ⟨⟨hsize, hsub⟩, -, hsub'⟩
    exact ⟨hsize, fun k => ⟨fun hk => hsub hk, fun hk => hsub' hk⟩⟩
  · rintro ⟨hsize, heq⟩
    exact ⟨⟨hsize, fun k hk => (heq k).mp hk⟩, hsize.symm, fun k hk => (heq k).mpr hk⟩

/-- Equality of sets is an equivalence, be they free of duplicates or not. -/
theorem same_equivalence : Equivalence fun s t : FactSet => s.same t = true where
  refl s := same_iff_size.mpr ⟨rfl, .refl s⟩
  symm h := by
    obtain ⟨hsize, heq⟩ := same_iff_size.mp h
    exact same_iff_size.mpr ⟨hsize.symm, heq.symm⟩
  trans h h' := by
    obtain ⟨hsize, heq⟩ := same_iff_size.mp h
    obtain ⟨hsize', heq'⟩ := same_iff_size.mp h'
    exact same_iff_size.mpr ⟨hsize.trans hsize', heq.trans heq'⟩

theorem differsFrom_comm (hs : s.Distinct) (ht : t.Distinct) :
    s.differsFrom t = t.differsFrom s := by
  have hiff : s.differsFrom t = false ↔ t.differsFrom s = false := by
    rw [differsFrom_eq_false_iff hs ht, differsFrom_eq_false_iff ht hs]
    exact ⟨Equiv.symm, Equiv.symm⟩
  exact Bool.not_inj (Bool.coe_false_iff_false.mp hiff)

theorem equiv_foldl_insert {facts facts' : List Fact} (h : facts.Perm facts') (s : FactSet) :
    (facts.foldl insert s).Equiv (facts'.foldl insert s) := by
  intro k
  rw [mem_keys_foldl_insert, mem_keys_foldl_insert, (h.map Fact.key).mem_iff]

theorem has_union : (s.union t).Has f ↔ s.Has f ∨ t.Has f := by
  simp only [has_iff, mem_keys_union]

/-- Change detection is exact. Facts are compared up to an equivalence, and no set that can be made
holds two that are the same. One set differs from another exactly if some fact is in one of them
and not in the other, whichever of the two is asked. Equality of sets is an equivalence that does
not depend on the order of insertions, and the union has the facts of both sets. -/
theorem change_is_inequality :
    (Equivalence fun f g : Fact => f.same g = true) ∧
    (∀ s : FactSet, s.Built → s.facts.Pairwise fun f g => f.same g = false) ∧
    (∀ s t : FactSet, s.Built → t.Built →
      (s.differsFrom t = false ↔ ∀ f, s.Has f ↔ t.Has f) ∧
      s.differsFrom t = t.differsFrom s ∧
      (s.same t = true ↔ ∀ f, s.Has f ↔ t.Has f)) ∧
    (Equivalence fun s t : FactSet => s.same t = true) ∧
    (∀ (s : FactSet) (facts facts' : List Fact), s.Built → facts.Perm facts' →
      (facts.foldl insert s).same (facts'.foldl insert s) = true) ∧
    ∀ (s t : FactSet) (f : Fact), (s.union t).Has f ↔ s.Has f ∨ t.Has f := by
  refine ⟨Fact.same_equivalence, fun s hs => hs.distinct.pairwise, fun s t hs ht => ?_,
    same_equivalence, fun s facts facts' hs hperm => ?_, fun s t f => has_union⟩
  · rw [← equiv_iff_has]
    exact ⟨differsFrom_eq_false_iff hs.distinct ht.distinct,
      differsFrom_comm hs.distinct ht.distinct, same_iff_equiv hs.distinct ht.distinct⟩
  · have hdistinct (facts : List Fact) := hs.distinct.foldl_insert facts
    exact (same_iff_equiv (hdistinct facts) (hdistinct facts')).mpr (equiv_foldl_insert hperm s)

/-- A lock is held, and another one is pending, under the given notes on conditions. -/
def heldFact (pre last : String) : Fact := ⟨⟨[⟨"@l", pre⟩], []⟩, ⟨.within [("%p", true)], last⟩⟩

def pendingFact (pre last : String) : Fact := ⟨⟨[], [⟨"@m", pre⟩]⟩, ⟨.top, last⟩⟩

def heldFirst : FactSet :=
  ((single (heldFact "" "%p")).insert (pendingFact "" "")).insert (heldFact "%q" "")

def pendingFirst : FactSet := ofList [pendingFact "%r" "%r", heldFact "%p" "%r"]

/-- The two sets have the same facts, with other notes and in another order. -/
theorem notes_are_no_change : heldFirst.Built ∧ pendingFirst.Built ∧ heldFirst ≠ pendingFirst ∧
    heldFirst.differsFrom pendingFirst = false ∧ pendingFirst.differsFrom heldFirst = false ∧
    (∀ f, heldFirst.Has f ↔ pendingFirst.Has f) ∧
    (heldFirst.facts.Pairwise fun f g => f.same g = false) ∧
    ([pendingFact "%r" "%r", heldFact "%p" "%r"].foldl insert heldFirst).same
      ([heldFact "%p" "%r", pendingFact "%r" "%r"].foldl insert heldFirst) = true := by
  have hheld : heldFirst.Built := .insert _ (.insert _ (.single _))
  have hpending : pendingFirst.Built := .ofList _
  have hsame : heldFirst.differsFrom pendingFirst = false := by decide +kernel
  obtain ⟨-, hpairwise, hdiffers, -, horder, -⟩ := change_is_inequality
  obtain ⟨hiff, hcomm, -⟩ := hdiffers _ _ hheld hpending
  exact ⟨hheld, hpending, by decide +kernel, hsame, hcomm ▸ hsame, hiff.mp hsame,
    hpairwise _ hheld, horder _ _ _ hheld (.swap ..)⟩

end FactSet

end LockUsage
