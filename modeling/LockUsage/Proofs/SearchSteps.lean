import LockUsage.Graph.Components
import Mathlib.Data.Fintype.Card
import Mathlib.Data.List.Nodup
import Mathlib.Logic.Relation

/-! What holds between the steps of a component search, and that entering a node, lowering a root
and leaving a node to wait keep it. The numbers that nodes were given are not part of the state;
they are carried along as a function. -/

namespace LockUsage

variable {n : Nat}

namespace Adjacency

def Leads (g : Adjacency n) (v w : Fin n) : Prop := w ∈ g.get v

abbrev Reaches (g : Adjacency n) : Fin n → Fin n → Prop := Relation.ReflTransGen g.Leads

/-- A list of all nodes that edges lead to from each of its nodes and back. -/
def IsComponent (g : Adjacency n) (c : List (Fin n)) : Prop :=
  c.Nodup ∧ ∀ v ∈ c, ∀ w, w ∈ c ↔ g.Reaches v w ∧ g.Reaches w v

end Adjacency

namespace ComponentSearch

variable {g : Adjacency n} {s s' : ComponentSearch n} {num num' : Fin n → Nat}
  {path members new : List (Fin n)} {v w x y : Fin n} {root number : Nat} {m : Mark}

section Marks

theorem mark_setMark : (s.setMark v m).mark x = if v = x then m else s.mark x :=
  (Vector.getElem_set v.isLt x.isLt).trans (by simp only [Fin.val_inj]; rfl)

/-- Lowering a root leaves the active nodes active, and the others as they are. -/
theorem active_setMark_iff (hv : s.mark v = .active root) :
    (∃ other, (s.setMark v (.active number)).mark x = .active other) ↔
      ∃ other, s.mark x = .active other := by
  rw [mark_setMark]
  split_ifs with he
  · subst he
    simp [hv]
  · rfl

theorem done_setMark_iff (hv : s.mark v = .active root) :
    (s.setMark v (.active number)).mark x = .done ↔ s.mark x = .done := by
  rw [mark_setMark]
  split_ifs with he
  · subst he
    simp [hv]
  · rfl

theorem mark_enter : (s.enter v).mark x = if v = x then .active s.next else s.mark x :=
  mark_setMark

theorem mark_foldl_set (vs : List (Fin n)) (marks : Vector Mark n) :
    (vs.foldl (fun marks w => marks.set w.val m w.isLt) marks).get x =
      if x ∈ vs then m else marks.get x := by
  induction vs generalizing marks with
  | nil => rfl
  | cons w vs ih =>
    rw [List.foldl_cons, ih]
    have hset : (marks.set w.val m w.isLt).get x = if w = x then m else marks.get x :=
      mark_setMark (s := ⟨0, marks, [], []⟩)
    by_cases hvs : x ∈ vs
    · rw [if_pos hvs, if_pos (List.mem_cons_of_mem _ hvs)]
    · rw [if_neg hvs, hset]
      simp [hvs, eq_comm]

/-- The root of a node only falls, and to that of a node that it leads to. -/
theorem lower_cases (hv : s.mark v = .active root) :
    (s.lower v w = s ∧ ∀ other, s.mark w = .active other → root ≤ other) ∨
      ∃ other, s.mark w = .active other ∧ other < root ∧
        s.lower v w = s.setMark v (.active other) := by
  rw [lower, hv]
  cases hw : s.mark w with
  | unseen => exact .inl ⟨rfl, fun _ h => Mark.noConfusion h⟩
  | done => exact .inl ⟨rfl, fun _ h => Mark.noConfusion h⟩
  | active other =>
    by_cases hlt : other < root
    · exact .inr ⟨other, rfl, hlt, if_pos hlt⟩
    · refine .inl ⟨if_neg hlt, fun other' h => ?_⟩
      cases h
      omega

end Marks

/-- The node is complete, or its number is a bound or comes after it. -/
def Settled (s : ComponentSearch n) (num : Fin n → Nat) (bound : Nat) (y : Fin n) : Prop :=
  s.mark y = .done ∨ ∃ root, s.mark y = .active root ∧ bound ≤ num y

theorem Settled.setMark {bound bound' : Nat} (h : s.Settled num bound y)
    (hv : s.mark v = .active root) (hle : bound' ≤ bound) :
    (s.setMark v (.active number)).Settled num bound' y := by
  rcases h with hy | ⟨other, hy, hnum⟩
  · exact .inl ((done_setMark_iff hv).mpr hy)
  · obtain ⟨other', hother⟩ := (active_setMark_iff hv).mpr ⟨other, hy⟩
    exact .inr ⟨other', hother, by omega⟩

/-- What a search adds from a node on: nodes that were seen keep their marks and numbers, and the
members are the new nodes whose components are not complete. -/
structure Extends (g : Adjacency n) (v : Fin n) (num : Fin n → Nat) (s : ComponentSearch n)
    (num' : Fin n → Nat) (s' : ComponentSearch n) (members : List (Fin n)) : Prop where
  mark_eq : ∀ x, s.mark x ≠ .unseen → s'.mark x = s.mark x
  num_eq : ∀ x, s.mark x ≠ .unseen → num' x = num x
  next_eq : s'.next = s.next + members.length
  nodup : members.Nodup
  unseen : ∀ x ∈ members, s.mark x = .unseen
  seen : ∀ x ∈ members, s'.mark x ≠ .unseen
  reaches : ∀ x ∈ members, g.Reaches v x
  next_le : ∀ x ∈ members, s.next ≤ num' x

namespace Extends

variable {num'' : Fin n → Nat} {s'' : ComponentSearch n} {members' : List (Fin n)}

theorem enter (hv : s.mark v = .unseen) :
    Extends g v num s (Function.update num v s.next) (s.enter v) [v] where
  mark_eq x hx := by
    rw [mark_enter, if_neg]
    rintro rfl
    exact hx hv
  num_eq x hx := Function.update_of_ne (by rintro rfl; exact hx hv) _ _
  next_eq := rfl
  nodup := List.nodup_singleton v
  unseen := by simpa using hv
  seen := by simp [mark_enter]
  reaches := by simp [Relation.ReflTransGen.refl]
  next_le := by simp

theorem unseen_of_unseen (h : Extends g v num s num' s' members) (hx : s'.mark x = .unseen) :
    s.mark x = .unseen := by
  by_contra hne
  exact hne (h.mark_eq x hne ▸ hx)

theorem trans (h : Extends g v num s num' s' members)
    (h' : Extends g w num' s' num'' s'' members') (hvw : g.Reaches v w) :
    Extends g v num s num'' s'' (members' ++ members) where
  mark_eq x hx := by
    have heq := h.mark_eq x hx
    rw [h'.mark_eq x (heq ▸ hx), heq]
  num_eq x hx := by
    have heq := h.mark_eq x hx
    rw [h'.num_eq x (heq ▸ hx), h.num_eq x hx]
  next_eq := by
    have := h.next_eq
    have := h'.next_eq
    rw [List.length_append]
    omega
  nodup := List.nodup_append.mpr ⟨h'.nodup, h.nodup, by
    rintro x hx' y hx rfl
    exact h.seen x hx (h'.unseen x hx')⟩
  unseen x hx := (List.mem_append.mp hx).elim
    (fun hx => h.unseen_of_unseen (h'.unseen x hx)) (h.unseen x)
  seen x hx := (List.mem_append.mp hx).elim (h'.seen x)
    (fun hx => h'.mark_eq x (h.seen x hx) ▸ h.seen x hx)
  reaches x hx := (List.mem_append.mp hx).elim
    (fun hx => hvw.trans (h'.reaches x hx)) (h.reaches x)
  next_le x hx := by
    rcases List.mem_append.mp hx with hx | hx
    · have := h'.next_le x hx
      have := h.next_eq
      omega
    · rw [h'.num_eq x (h.seen x hx)]
      exact h.next_le x hx

theorem perm (h : Extends g v num s num' s' members) (hp : members.Perm members') :
    Extends g v num s num' s' members' where
  mark_eq := h.mark_eq
  num_eq := h.num_eq
  next_eq := hp.length_eq ▸ h.next_eq
  nodup := hp.nodup_iff.mp h.nodup
  unseen x hx := h.unseen x (hp.mem_iff.mpr hx)
  seen x hx := h.seen x (hp.mem_iff.mpr hx)
  reaches x hx := h.reaches x (hp.mem_iff.mpr hx)
  next_le x hx := h.next_le x (hp.mem_iff.mpr hx)

theorem settled (h : Extends g v num s num' s' members) (hy : s.Settled num root y) :
    s'.Settled num' root y := by
  rcases hy with hy | ⟨other, hy, hle⟩
  · exact .inl (by rw [h.mark_eq y (by simp [hy]), hy])
  · have hseen : s.mark y ≠ .unseen := by simp [hy]
    exact .inr ⟨other, by rw [h.mark_eq y hseen, hy], by rwa [h.num_eq y hseen]⟩

end Extends

/-- What holds between the steps of a search. The path are the nodes that were entered and not
left, and `num` are the numbers that the active nodes were given. -/
structure Consistent (g : Adjacency n) (num : Fin n → Nat) (path : List (Fin n))
    (s : ComponentSearch n) : Prop where
  active_iff : ∀ x, (∃ root, s.mark x = .active root) ↔ x ∈ path ∨ x ∈ s.waiting
  num_lt : ∀ x root, s.mark x = .active root → num x < s.next
  root_le : ∀ x root, s.mark x = .active root → root ≤ num x
  root_reached : ∀ x root, s.mark x = .active root →
    ∃ y other, s.mark y = .active other ∧ num y = root ∧ g.Reaches x y
  root_lt : ∀ x ∈ s.waiting, ∀ root, s.mark x = .active root → root < num x
  scanned : ∀ x ∈ s.waiting, ∀ root, s.mark x = .active root →
    ∀ y, g.Leads x y → s.Settled num root y
  done_iff : ∀ x, s.mark x = .done ↔ ∃ c ∈ s.found, x ∈ c
  done_leads : ∀ x y, s.mark x = .done → g.Leads x y → s.mark y = .done
  found : ∀ c ∈ s.found, g.IsComponent c

namespace Consistent

theorem done_reaches (h : Consistent g num path s) (hx : s.mark x = .done)
    (hxy : g.Reaches x y) : s.mark y = .done := by
  induction hxy with
  | refl => exact hx
  | tail _ hlead ih => exact h.done_leads _ _ ih hlead

theorem start : Consistent g num [] .start := by
  have hmark (x : Fin n) : ComponentSearch.start.mark x = .unseen :=
    Vector.getElem_replicate x.isLt
  constructor <;> intros <;> simp_all [ComponentSearch.start]

/-- No node is active once all nodes were left: the one with the least number would have a root
before it. -/
theorem not_active (h : Consistent g num [] s) (hx : s.mark x = .active root) : False := by
  induction hk : num x using Nat.strong_induction_on generalizing x root with
  | _ k ih =>
    have hwait : x ∈ s.waiting := ((h.active_iff x).mp ⟨root, hx⟩).resolve_left List.not_mem_nil
    obtain ⟨y, other, hy, hroot, -⟩ := h.root_reached x root hx
    have hlt := h.root_lt x hwait root hx
    exact ih (num y) (by omega) hy rfl

theorem enter (h : Consistent g num path s) (hv : s.mark v = .unseen) :
    Consistent g (Function.update num v s.next) (v :: path) (s.enter v) := by
  have hext : Extends g v num s _ (s.enter v) [v] := .enter hv
  have hself : (s.enter v).mark v = .active s.next := by simp [mark_enter]
  have hkeep {x root} (hx : s.mark x = .active root) : (s.enter v).mark x = .active root := by
    rw [hext.mark_eq x (by simp [hx]), hx]
  have hnum {x root} (hx : s.mark x = .active root) : Function.update num v s.next x = num x :=
    hext.num_eq x (by simp [hx])
  have hactive {x root} (hx : (s.enter v).mark x = .active root) :
      v = x ∧ root = s.next ∨ s.mark x = .active root := by
    rw [mark_enter] at hx
    split_ifs at hx with he
    · exact .inl ⟨he, (Mark.active.inj hx).symm⟩
    · exact .inr hx
  have hdone {x} : (s.enter v).mark x = .done ↔ s.mark x = .done := by
    rw [mark_enter]
    split_ifs with he
    · subst he
      simp [hv]
    · rfl
  -- Waiting nodes were active before.
  have hwait {x root} (hx : x ∈ s.waiting) (hroot : (s.enter v).mark x = .active root) :
      s.mark x = .active root := by
    obtain ⟨r, hr⟩ := (h.active_iff x).mpr (.inr hx)
    rw [← hroot, hkeep hr, hr]
  constructor
  · intro x
    have hmem : x ∈ v :: path ∨ x ∈ s.waiting ↔ x = v ∨ ∃ root, s.mark x = .active root := by
      rw [h.active_iff x, List.mem_cons, or_assoc]
    refine Iff.trans ?_ hmem.symm
    rw [mark_enter]
    by_cases he : v = x <;> simp [he, eq_comm]
  · intro x root hx
    show _ < s.next + 1
    rcases hactive hx with ⟨rfl, -⟩ | hx
    · simp
    · have := h.num_lt x root hx
      rw [hnum hx]
      omega
  · intro x root hx
    rcases hactive hx with ⟨rfl, rfl⟩ | hx
    · simp
    · rw [hnum hx]
      exact h.root_le x root hx
  · intro x root hx
    rcases hactive hx with ⟨rfl, rfl⟩ | hx
    · exact ⟨v, s.next, hself, by simp, .refl⟩
    · obtain ⟨y, other, hy, hroot, hreach⟩ := h.root_reached x root hx
      exact ⟨y, other, hkeep hy, by rw [hnum hy, hroot], hreach⟩
  · intro x hx root hroot
    have hx' := hwait hx hroot
    rw [hnum hx']
    exact h.root_lt x hx root hx'
  · intro x hx root hroot y hlead
    exact hext.settled (h.scanned x hx root (hwait hx hroot) y hlead)
  · intro x
    rw [hdone]
    exact h.done_iff x
  · intro x y hx hlead
    exact hdone.mpr (h.done_leads x y (hdone.mp hx) hlead)
  · exact h.found

theorem lower (h : Consistent g num path s) (hv : s.mark v = .active root) (hlead : g.Leads v w) :
    Consistent g num path (s.lower v w) := by
  obtain ⟨heq, -⟩ | ⟨other, hw, hlt, heq⟩ := lower_cases (w := w) hv
  · rwa [heq]
  rw [heq]
  have hactive {x r} (hx : (s.setMark v (.active other)).mark x = .active r) :
      v = x ∧ r = other ∨ s.mark x = .active r := by
    rw [mark_setMark] at hx
    split_ifs at hx with he
    · exact .inl ⟨he, (Mark.active.inj hx).symm⟩
    · exact .inr hx
  constructor
  · intro x
    exact (active_setMark_iff hv).trans (h.active_iff x)
  · intro x r hx
    rcases hactive hx with ⟨rfl, -⟩ | hx
    · exact h.num_lt v root hv
    · exact h.num_lt x r hx
  · intro x r hx
    rcases hactive hx with ⟨rfl, rfl⟩ | hx
    · have := h.root_le v root hv
      omega
    · exact h.root_le x r hx
  · intro x r hx
    have hback : ∃ y r', s.mark y = .active r' ∧ num y = r ∧ g.Reaches x y := by
      rcases hactive hx with ⟨rfl, rfl⟩ | hx
      · obtain ⟨y, r', hy, hnum, hreach⟩ := h.root_reached w r hw
        exact ⟨y, r', hy, hnum, .head hlead hreach⟩
      · exact h.root_reached x r hx
    obtain ⟨y, r', hy, hnum, hreach⟩ := hback
    obtain ⟨r'', hr''⟩ := (active_setMark_iff hv).mpr ⟨r', hy⟩
    exact ⟨y, r'', hr'', hnum, hreach⟩
  · intro x hx r hr
    rcases hactive hr with ⟨rfl, rfl⟩ | hr
    · have := h.root_lt v hx root hv
      omega
    · exact h.root_lt x hx r hr
  · intro x hx r hr y hy
    rcases hactive hr with ⟨rfl, rfl⟩ | hr
    · exact (h.scanned v hx root hv y hy).setMark hv (by omega)
    · exact (h.scanned x hx r hr y hy).setMark hv le_rfl
  · intro x
    rw [done_setMark_iff hv]
    exact h.done_iff x
  · intro x y hx hy
    exact (done_setMark_iff hv).mpr (h.done_leads x y ((done_setMark_iff hv).mp hx) hy)
  · exact h.found

/-- A node that leads back to one before it waits when it is left. -/
theorem park (h : Consistent g num (v :: path) s) (hv : s.mark v = .active root)
    (hlt : root < num v) (hscan : ∀ y, g.Leads v y → s.Settled num root y) :
    Consistent g num path { s with waiting := v :: s.waiting } where
  active_iff x := by
    refine (h.active_iff x).trans ?_
    simp only [List.mem_cons]
    tauto
  num_lt := h.num_lt
  root_le := h.root_le
  root_reached := h.root_reached
  root_lt := by
    intro x hx r hr
    rcases List.mem_cons.mp hx with rfl | hx
    · cases hv.symm.trans hr
      exact hlt
    · exact h.root_lt x hx r hr
  scanned := by
    intro x hx r hr
    rcases List.mem_cons.mp hx with rfl | hx
    · cases hv.symm.trans hr
      exact hscan
    · exact h.scanned x hx r hr
  done_iff := h.done_iff
  done_leads := h.done_leads
  found := h.found

end Consistent

end ComponentSearch

end LockUsage
