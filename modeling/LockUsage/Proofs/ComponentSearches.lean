import LockUsage.Proofs.SearchSteps

/-! The component search finds the strongly connected components: each list it completes holds the
nodes that lead to one another, and every node ends up in one. A visit turns what was known before
it into `Visited`, by way of `Scanning` after each of its edges. -/

namespace LockUsage

variable {n : Nat}

namespace ComponentSearch

variable {g : Adjacency n} {s s' : ComponentSearch n} {num num' : Fin n → Nat}
  {path members new : List (Fin n)} {v w x y : Fin n} {root : Nat}

/-- A node was entered in the state `s`, and some of its edges were followed. -/
structure Entered (g : Adjacency n) (path : List (Fin n)) (v : Fin n) (num : Fin n → Nat)
    (s : ComponentSearch n) (num' : Fin n → Nat) (s' : ComponentSearch n)
    (new : List (Fin n)) (root : Nat) (edges : List (Fin n)) : Prop where
  before : Consistent g num path s
  consistent : Consistent g num' (v :: path) s'
  extends_enter : Extends g v num s num' s' (v :: new)
  num_self : num' v = s.next
  waiting_eq : s'.waiting = new ++ s.waiting
  mark_self : s'.mark v = .active root
  settled : ∀ y ∈ edges, s'.Settled num' root y

/-- Besides, the nodes that were added have roots from that of the node on. -/
structure Scanning (g : Adjacency n) (path : List (Fin n)) (v : Fin n) (num : Fin n → Nat)
    (s : ComponentSearch n) (num' : Fin n → Nat) (s' : ComponentSearch n)
    (new : List (Fin n)) (root : Nat) (edges : List (Fin n)) : Prop
    extends Entered g path v num s num' s' new root edges where
  root_le : ∀ x ∈ new, ∀ other, s'.mark x = .active other → root ≤ other

/-- A node was entered in the state `s` and left: its component is complete, or it waits with the
nodes that were added, and its root is the first of theirs. -/
structure Visited (g : Adjacency n) (path : List (Fin n)) (v : Fin n) (num : Fin n → Nat)
    (s : ComponentSearch n) (num' : Fin n → Nat) (s' : ComponentSearch n)
    (members : List (Fin n)) : Prop where
  consistent : Consistent g num' path s'
  extends_visit : Extends g v num s num' s' members
  waiting_eq : s'.waiting = members ++ s.waiting
  outcome : s'.mark v = .done ∧ members = [] ∨ ∃ root, s'.mark v = .active root ∧
    ∀ x ∈ members, ∀ other, s'.mark x = .active other → root ≤ other

theorem Visited.seen (h : Visited g path v num s num' s' members) : s'.mark v ≠ .unseen := by
  rcases h.outcome with ⟨hdone, -⟩ | ⟨root, hroot, -⟩
  · simp [hdone]
  · simp [hroot]

/-- Lowering the root along an edge, to a node that was seen before or was just visited. What was
added has a root from one of the two on. -/
theorem Entered.lower {edges : List (Fin n)} (h : Entered g path v num s num' s' new root edges)
    (hlead : g.Leads v w) (hw : s'.mark w ≠ .unseen)
    (hle : ∀ x ∈ new, ∀ other, s'.mark x = .active other →
      root ≤ other ∨ ∃ first, s'.mark w = .active first ∧ first ≤ other) :
    ∃ root', Scanning g path v num s num' (s'.lower v w) new root' (w :: edges) := by
  obtain ⟨heq, hmin⟩ | ⟨other, hother, hlt, heq⟩ := lower_cases (w := w) h.mark_self
  · rw [heq]
    refine ⟨root, { h with settled := List.forall_mem_cons.mpr ⟨?_, h.settled⟩ }, ?_⟩
    · cases hmark : s'.mark w with
      | unseen => exact absurd hmark hw
      | done => exact .inl hmark
      | active r => exact .inr ⟨r, hmark, (hmin r hmark).trans (h.consistent.root_le w r hmark)⟩
    · intro x hx r hr
      rcases hle x hx r hr with hle | ⟨first, hfirst, hle⟩
      · exact hle
      · exact (hmin first hfirst).trans hle
  · have hcons := h.consistent.lower h.mark_self hlead
    rw [heq] at hcons ⊢
    have hself : (s'.setMark v (.active other)).mark v = .active other := by simp [mark_setMark]
    have hkeep {x} (hx : v ≠ x) : (s'.setMark v (.active other)).mark x = s'.mark x := by
      rw [mark_setMark, if_neg hx]
    refine ⟨other, ⟨h.before, hcons, ?_, h.num_self, h.waiting_eq, hself, ?_⟩, ?_⟩
    · refine { h.extends_enter with mark_eq := fun x hx => ?_, seen := fun x hx => ?_ }
      · have hne : v ≠ x := by
          rintro rfl
          exact hx (h.extends_enter.unseen v (List.mem_cons_self ..))
        rw [hkeep hne, h.extends_enter.mark_eq x hx]
      · by_cases hvx : v = x
        · simp [← hvx, hself]
        · rw [hkeep hvx]
          exact h.extends_enter.seen x hx
    · refine List.forall_mem_cons.mpr ⟨?_, fun y hy => (h.settled y hy).setMark h.mark_self hlt.le⟩
      have hsettled : s'.Settled num' other w :=
        .inr ⟨other, hother, h.consistent.root_le w other hother⟩
      exact hsettled.setMark h.mark_self le_rfl
    · intro x hx r hr
      have hne : v ≠ x := by
        rintro rfl
        exact (List.nodup_cons.mp h.extends_enter.nodup).1 hx
      rw [hkeep hne] at hr
      rcases hle x hx r hr with hle | ⟨first, hfirst, hle⟩
      · omega
      · cases hother.symm.trans hfirst
        exact hle

namespace Scanning

variable {edges : List (Fin n)}

theorem start (h : Consistent g num path s) (hv : s.mark v = .unseen) :
    Scanning g path v num s (Function.update num v s.next) (s.enter v) [] s.next [] where
  before := h
  consistent := h.enter hv
  extends_enter := .enter hv
  num_self := Function.update_self ..
  waiting_eq := rfl
  mark_self := by simp [mark_enter]
  settled _ hy := nomatch hy
  root_le _ hx := nomatch hx

/-- A visit along an edge adds its nodes to those that were added before. -/
theorem entered_visit {num'' : Fin n → Nat} {s'' : ComponentSearch n}
    (h : Scanning g path v num s num' s' new root edges) (hlead : g.Leads v w)
    (hw : Visited g (v :: path) w num' s' num'' s'' members) :
    Entered g path v num s num'' s'' (members ++ new) root edges := by
  have hseen : s'.mark v ≠ .unseen := by simp [h.mark_self]
  constructor
  · exact h.before
  · exact hw.consistent
  · exact (h.extends_enter.trans hw.extends_visit (.single hlead)).perm List.perm_middle
  · rw [hw.extends_visit.num_eq v hseen, h.num_self]
  · rw [hw.waiting_eq, h.waiting_eq, List.append_assoc]
  · rw [hw.extends_visit.mark_eq v hseen, h.mark_self]
  · exact fun y hy => hw.extends_visit.settled (h.settled y hy)

/-- One more edge is followed, after a visit of its target unless that was seen. -/
theorem step (h : Scanning g path v num s num' s' new root edges) (hlead : g.Leads v w)
    {visit : ComponentSearch n → Fin n → ComponentSearch n}
    (hvisit : s'.mark w = .unseen →
      ∃ num'' members, Visited g (v :: path) w num' s' num'' (visit s' w) members) :
    ∃ num'' new' root', Scanning g path v num s num''
      ((if s'.mark w = .unseen then visit s' w else s').lower v w) new' root' (w :: edges) := by
  by_cases hw : s'.mark w = .unseen
  · rw [if_pos hw]
    obtain ⟨num'', members, hvisited⟩ := hvisit hw
    refine ⟨num'', members ++ new,
      (h.entered_visit hlead hvisited).lower hlead hvisited.seen fun x hx other hother => ?_⟩
    rcases List.mem_append.mp hx with hx | hx
    · rcases hvisited.outcome with ⟨-, rfl⟩ | ⟨first, hfirst, hmin⟩
      · cases hx
      · exact .inr ⟨first, hfirst, hmin x hx other hother⟩
    · have hseen := h.extends_enter.seen x (List.mem_cons_of_mem v hx)
      rw [hvisited.extends_visit.mark_eq x hseen] at hother
      exact .inl (h.root_le x hx other hother)
  · rw [if_neg hw]
    exact ⟨num', new, h.lower hlead hw fun x hx other hother => .inl (h.root_le x hx other hother)⟩

section Complete

variable (h : Scanning g path v num s num' s' new s.next edges)
  (hall : ∀ y, g.Leads v y → y ∈ edges)

include h

/-- The nodes that were active before the visit have smaller numbers. -/
theorem num_lt_next (hx : x ∈ path ∨ x ∈ s.waiting) : num' x < s.next := by
  obtain ⟨root, hroot⟩ := (h.before.active_iff x).mpr hx
  rw [h.extends_enter.num_eq x (by simp [hroot])]
  exact h.before.num_lt x root hroot

theorem notMem_of_before (hx : x ∈ path ∨ x ∈ s.waiting) : x ∉ v :: new := by
  intro hmem
  have := h.num_lt_next hx
  have := h.extends_enter.next_le x hmem
  omega

theorem active_cases (hx : s'.mark x = .active root) :
    x ∈ v :: new ∨ x ∈ path ∨ x ∈ s.waiting := by
  have hmem := (h.consistent.active_iff x).mp ⟨root, hx⟩
  rw [h.waiting_eq] at hmem
  simp only [List.mem_cons, List.mem_append] at hmem ⊢
  tauto

theorem mem_of_next_le (hx : s'.mark x = .active root) (hle : s.next ≤ num' x) : x ∈ v :: new := by
  refine (h.active_cases hx).resolve_right fun hbefore => ?_
  have := h.num_lt_next hbefore
  omega

theorem active_of_mem (hx : x ∈ v :: new) : ∃ root, s'.mark x = .active root ∧ s.next ≤ root := by
  rcases List.mem_cons.mp hx with rfl | hx
  · exact ⟨s.next, h.mark_self, le_rfl⟩
  · obtain ⟨root, hroot⟩ := (h.consistent.active_iff x).mpr
      (.inr (h.waiting_eq ▸ List.mem_append_left _ hx))
    exact ⟨root, hroot, h.root_le x hx root hroot⟩

/-- All members lead back to the node: the root of a member is the number of another one before it
that it leads to. -/
theorem reaches_self (hx : x ∈ v :: new) : g.Reaches x v := by
  induction hk : num' x using Nat.strong_induction_on generalizing x with
  | _ k ih =>
    by_cases hxv : x = v
    · rw [hxv]
    have hnew : x ∈ new := (List.mem_cons.mp hx).resolve_left hxv
    obtain ⟨root, hroot, hle⟩ := h.active_of_mem hx
    have hlt := h.consistent.root_lt x (h.waiting_eq ▸ List.mem_append_left _ hnew) root hroot
    obtain ⟨y, other, hy, hnum, hreach⟩ := h.consistent.root_reached x root hroot
    have hmem := h.mem_of_next_le hy (by omega)
    exact hreach.trans (ih (num' y) (by omega) hmem rfl)

include hall

theorem leads_cases (hx : x ∈ v :: new) (hxy : g.Leads x y) :
    y ∈ v :: new ∨ s'.mark y = .done := by
  have hsettled : s'.Settled num' s.next y := by
    rcases List.mem_cons.mp hx with rfl | hnew
    · exact h.settled y (hall y hxy)
    · obtain ⟨root, hroot, hle⟩ := h.active_of_mem hx
      refine (h.consistent.scanned x (h.waiting_eq ▸ List.mem_append_left _ hnew) root hroot y
        hxy).imp_right fun ⟨other, hother, hnum⟩ => ⟨other, hother, by omega⟩
  rcases hsettled with hdone | ⟨other, hother, hle⟩
  · exact .inr hdone
  · exact .inl (h.mem_of_next_le hother hle)

theorem reaches_cases (hx : x ∈ v :: new) (hxy : g.Reaches x y) :
    y ∈ v :: new ∨ s'.mark y = .done := by
  induction hxy with
  | refl => exact .inl hx
  | tail _ hlead ih =>
    rcases ih with hmem | hdone
    · exact h.leads_cases hall hmem hlead
    · exact .inr (h.consistent.done_leads _ _ hdone hlead)

theorem isComponent : g.IsComponent (v :: new) := by
  refine ⟨h.extends_enter.nodup, fun x hx y => ⟨fun hy => ⟨?_, ?_⟩, fun ⟨hxy, hyx⟩ => ?_⟩⟩
  · exact (h.reaches_self hx).trans (h.extends_enter.reaches y hy)
  · exact (h.reaches_self hy).trans (h.extends_enter.reaches x hx)
  · -- A complete node leads to complete ones only, and the members are active.
    refine (h.reaches_cases hall hx hxy).resolve_right fun hdone => ?_
    obtain ⟨root, hroot, -⟩ := h.active_of_mem hx
    have := h.consistent.done_reaches hdone hyx
    simp [hroot] at this

omit hall

theorem isFrom_of_mem (hx : x ∈ new) : s'.isFrom s.next x = true := by
  obtain ⟨root, hroot, hle⟩ := h.active_of_mem (List.mem_cons_of_mem v hx)
  simp [isFrom, hroot, hle]

theorem not_isFrom_of_waiting (hx : x ∈ s.waiting) : s'.isFrom s.next x = false := by
  obtain ⟨root, hroot⟩ := (h.consistent.active_iff x).mpr
    (.inr (h.waiting_eq ▸ List.mem_append_right _ hx))
  have hlt := h.num_lt_next (.inr hx)
  have hle := h.consistent.root_le x root hroot
  simp only [isFrom, hroot, decide_eq_false_iff_not]
  omega

theorem takeWhile_waiting : s'.waiting.takeWhile (s'.isFrom s.next) = new := by
  rw [h.waiting_eq, List.takeWhile_append_of_pos fun x hx => h.isFrom_of_mem hx]
  cases hold : s.waiting with
  | nil => simp
  | cons x old => simp [h.not_isFrom_of_waiting (x := x) (by simp [hold])]

theorem dropWhile_waiting : s'.waiting.dropWhile (s'.isFrom s.next) = s.waiting := by
  rw [h.waiting_eq, List.dropWhile_append_of_pos fun x hx => h.isFrom_of_mem hx]
  cases hold : s.waiting with
  | nil => simp
  | cons x old => simp [h.not_isFrom_of_waiting (x := x) (by simp [hold])]

theorem mark_complete :
    (s'.complete v s.next).mark x = if x ∈ v :: new then .done else s'.mark x := by
  rw [mark, complete, h.takeWhile_waiting, mark_foldl_set]
  rfl

theorem next_complete : (s'.complete v s.next).next = s.next := by
  have := h.extends_enter.next_eq
  rw [complete, h.takeWhile_waiting]
  show s'.next - (v :: new).length = s.next
  omega

theorem waiting_complete : (s'.complete v s.next).waiting = s.waiting := h.dropWhile_waiting

theorem found_complete : (s'.complete v s.next).found = (v :: new) :: s'.found := by
  rw [complete, h.takeWhile_waiting]

theorem active_complete_iff : (s'.complete v s.next).mark x = .active root ↔
    x ∉ v :: new ∧ s'.mark x = .active root := by
  rw [h.mark_complete]
  split_ifs with hx <;> simp [hx]

theorem done_complete_iff : (s'.complete v s.next).mark x = .done ↔
    x ∈ v :: new ∨ s'.mark x = .done := by
  rw [h.mark_complete]
  split_ifs with hx <;> simp [hx]

theorem consistent_complete (hall : ∀ y, g.Leads v y → y ∈ edges) :
    Consistent g num' path (s'.complete v s.next) where
  active_iff x := by
    simp only [h.active_complete_iff, exists_and_left]
    rw [h.waiting_complete]
    refine ⟨fun ⟨hx, root, hroot⟩ => (h.active_cases hroot).resolve_left hx, fun hx => ?_⟩
    refine ⟨h.notMem_of_before hx, (h.consistent.active_iff x).mpr ?_⟩
    exact hx.imp (List.mem_cons_of_mem v) fun hx => h.waiting_eq ▸ List.mem_append_right new hx
  num_lt x root hroot := by
    obtain ⟨hx, hroot⟩ := h.active_complete_iff.mp hroot
    rw [h.next_complete]
    exact h.num_lt_next ((h.active_cases hroot).resolve_left hx)
  root_le x root hroot := h.consistent.root_le x root (h.active_complete_iff.mp hroot).2
  root_reached x root hroot := by
    obtain ⟨hx, hroot⟩ := h.active_complete_iff.mp hroot
    obtain ⟨y, other, hy, hnum, hreach⟩ := h.consistent.root_reached x root hroot
    refine ⟨y, other, h.active_complete_iff.mpr ⟨fun hmem => ?_, hy⟩, hnum, hreach⟩
    -- A root is no later than the number of its node, which comes before the members.
    have := h.extends_enter.next_le y hmem
    have := h.consistent.root_le x root hroot
    have := h.num_lt_next ((h.active_cases hroot).resolve_left hx)
    omega
  root_lt x hx root hroot := h.consistent.root_lt x
    (h.waiting_eq ▸ List.mem_append_right new (h.waiting_complete ▸ hx)) root
    (h.active_complete_iff.mp hroot).2
  scanned x hx root hroot y hxy := by
    rw [h.waiting_complete] at hx
    rcases h.consistent.scanned x (h.waiting_eq ▸ List.mem_append_right new hx) root
      (h.active_complete_iff.mp hroot).2 y hxy with hdone | ⟨other, hother, hle⟩
    · exact .inl (h.done_complete_iff.mpr (.inr hdone))
    · by_cases hy : y ∈ v :: new
      · exact .inl (h.done_complete_iff.mpr (.inl hy))
      · exact .inr ⟨other, h.active_complete_iff.mpr ⟨hy, hother⟩, hle⟩
  done_iff x := by
    rw [h.done_complete_iff, h.found_complete, h.consistent.done_iff x]
    simp
  done_leads x y hx hxy := by
    refine h.done_complete_iff.mpr ?_
    rcases h.done_complete_iff.mp hx with hmem | hdone
    · exact h.leads_cases hall hmem hxy
    · exact .inr (h.consistent.done_leads x y hdone hxy)
  found := by
    rw [h.found_complete]
    exact List.forall_mem_cons.mpr ⟨h.isComponent hall, h.consistent.found⟩

theorem extends_complete : Extends g v num s num' (s'.complete v s.next) [] where
  mark_eq x hx := by
    have hne : x ∉ v :: new := fun hmem => hx (h.extends_enter.unseen x hmem)
    rw [h.mark_complete, if_neg hne, h.extends_enter.mark_eq x hx]
  num_eq := h.extends_enter.num_eq
  next_eq := h.next_complete
  nodup := List.nodup_nil
  unseen _ hx := nomatch hx
  seen _ hx := nomatch hx
  reaches _ hx := nomatch hx
  next_le _ hx := nomatch hx

end Complete

/-- What is known when all edges of the node were followed gives what is known when it is left. -/
theorem leave (h : Scanning g path v num s num' s' new root edges)
    (hall : ∀ y, g.Leads v y → y ∈ edges) :
    ∃ members, Visited g path v num s num' (s'.leave v s.next) members := by
  by_cases hroot : root = s.next
  · subst hroot
    rw [ComponentSearch.leave, if_pos h.mark_self]
    refine ⟨[], h.consistent_complete hall, h.extends_complete, h.waiting_complete, .inl ⟨?_, rfl⟩⟩
    exact h.done_complete_iff.mpr (.inl (List.mem_cons_self ..))
  · have hle := h.consistent.root_le v root h.mark_self
    have hnum := h.num_self
    have hne : s'.mark v ≠ .active s.next := by
      rw [h.mark_self]
      exact fun he => hroot (Mark.active.inj he)
    rw [ComponentSearch.leave, if_neg hne]
    have he := h.extends_enter
    refine ⟨v :: new, h.consistent.park h.mark_self (by omega) fun y hy => h.settled y (hall y hy),
      ⟨he.mark_eq, he.num_eq, he.next_eq, he.nodup, he.unseen, he.seen, he.reaches, he.next_le⟩,
      congrArg (v :: ·) h.waiting_eq, .inr ⟨root, h.mark_self, fun x hx r hr => ?_⟩⟩
    rcases List.mem_cons.mp hx with rfl | hx
    · exact le_of_eq (Mark.active.inj (h.mark_self.symm.trans hr))
    · exact h.root_le x hx r hr

end Scanning

section Visits

def unseenNodes (s : ComponentSearch n) : Finset (Fin n) := {x | s.mark x = .unseen}

theorem mem_unseenNodes : x ∈ s.unseenNodes ↔ s.mark x = .unseen := by simp [unseenNodes]

/-- Fewer nodes are unseen within a visit than before it. -/
theorem Extends.card_unseenNodes_lt (h : Extends g v num s num' s' members) (hv : v ∈ members) :
    s'.unseenNodes.card < s.unseenNodes.card := by
  refine Finset.card_lt_card (Finset.ssubset_iff_of_subset (fun x hx => ?_) |>.mpr ⟨v, ?_, ?_⟩)
  · exact mem_unseenNodes.mpr (h.unseen_of_unseen (mem_unseenNodes.mp hx))
  · exact mem_unseenNodes.mpr (h.unseen v hv)
  · exact fun hmem => h.seen v hv (mem_unseenNodes.mp hmem)

/-- A visit that may go as deep as there are unseen nodes does what it should. -/
theorem exists_visited (depth : Nat) (h : Consistent g num path s) (hv : s.mark v = .unseen)
    (hdepth : s.unseenNodes.card ≤ depth) :
    ∃ num' members, Visited g path v num s num' (g.visit depth s v) members := by
  induction depth generalizing num path s v with
  | zero =>
    have := Finset.card_pos.mpr ⟨v, mem_unseenNodes.mpr hv⟩
    omega
  | succ depth ih =>
    -- The edges are followed one after the other.
    have hscan (ws : List (Fin n)) (hws : ∀ w ∈ ws, g.Leads v w) :
        ∃ num' new root, Scanning g path v num s num' (ws.foldl (fun s w =>
          (if s.mark w = .unseen then g.visit depth s w else s).lower v w) (s.enter v))
          new root ws.reverse := by
      induction ws using List.reverseRecOn with
      | nil => exact ⟨_, [], s.next, .start h hv⟩
      | append_singleton ws w ihws =>
        obtain ⟨num', new, root, hscan⟩ := ihws fun w hw => hws w (List.mem_append_left _ hw)
        rw [List.foldl_concat, List.reverse_concat]
        refine hscan.step (hws w (by simp)) fun hw => ih hscan.consistent hw ?_
        have := hscan.extends_enter.card_unseenNodes_lt (List.mem_cons_self ..)
        omega
    obtain ⟨num', new, root, hscan⟩ := hscan (g.get v) fun _ hw => hw
    obtain ⟨members, hvisited⟩ := hscan.leave fun y hy => List.mem_reverse.mpr hy
    exact ⟨num', members, hvisited⟩

end Visits

end ComponentSearch

namespace Adjacency

variable {g : Adjacency n} {v w : Fin n}

open ComponentSearch in
theorem exists_searched (g : Adjacency n) (vs : List (Fin n)) :
    ∃ num s, vs.foldl (fun s v => if s.mark v = .unseen then g.visit n s v else s) .start = s ∧
      Consistent g num [] s ∧ ∀ v ∈ vs, s.mark v ≠ .unseen := by
  induction vs using List.reverseRecOn with
  | nil => exact ⟨fun _ => 0, _, rfl, .start, fun v hv => nomatch hv⟩
  | append_singleton vs v ih =>
    obtain ⟨num, s, hs, h, hseen⟩ := ih
    rw [List.foldl_concat, hs]
    by_cases hv : s.mark v = .unseen
    · have hcard : s.unseenNodes.card ≤ n := by
        simpa using Finset.card_le_univ s.unseenNodes
      obtain ⟨num', members, hvisited⟩ := exists_visited n h hv hcard
      refine ⟨num', _, if_pos hv, hvisited.consistent, fun w hw => ?_⟩
      rcases List.mem_append.mp hw with hw | hw
      · rw [hvisited.extends_visit.mark_eq w (hseen w hw)]
        exact hseen w hw
      · rw [List.mem_singleton.mp hw]
        exact hvisited.seen
    · refine ⟨num, s, if_neg hv, h, fun w hw => ?_⟩
      rcases List.mem_append.mp hw with hw | hw
      · exact hseen w hw
      · rwa [List.mem_singleton.mp hw]

/-- In the end all nodes are in components. -/
theorem search_spec (g : Adjacency n) :
    ∃ num, ComponentSearch.Consistent g num [] g.search ∧ ∀ v, g.search.mark v = .done := by
  obtain ⟨num, s, hs, h, hseen⟩ := g.exists_searched (List.finRange n)
  rw [search, hs]
  refine ⟨num, h, fun v => ?_⟩
  cases hv : s.mark v with
  | unseen => exact absurd hv (hseen v (List.mem_finRange v))
  | active root => exact (h.not_active hv).elim
  | done => rfl

theorem isComponent_of_mem {c : List (Fin n)} (hc : c ∈ g.components) : g.IsComponent c := by
  obtain ⟨num, h, -⟩ := g.search_spec
  exact h.found c hc

theorem exists_component (g : Adjacency n) (v : Fin n) : ∃ c ∈ g.components, v ∈ c := by
  obtain ⟨num, h, hdone⟩ := g.search_spec
  exact (h.done_iff v).mp (hdone v)

/-- A component has a cycle if it has two nodes or an edge of its only node to itself. -/
theorem IsComponent.isCyclic_iff {c : List (Fin n)} (h : g.IsComponent c) (hv : v ∈ c) :
    g.isCyclic c = true ↔ Relation.TransGen g.Leads v v := by
  obtain ⟨hnodup, hmem⟩ := h
  -- Another node of the component lies on a cycle with this one.
  have hother {w} (hw : w ∈ c) (hne : v ≠ w) : Relation.TransGen g.Leads v v := by
    obtain ⟨hvw, hwv⟩ := (hmem v hv w).mp hw
    obtain ⟨u, hvu, huw⟩ := (Relation.ReflTransGen.cases_head hvw).resolve_left hne
    exact .head' hvu (huw.trans hwv)
  cases c with
  | nil => cases hv
  | cons first others =>
    simp only [isCyclic, Bool.or_eq_true, List.contains_iff_mem]
    constructor
    · rintro (hothers | hself)
      · obtain ⟨w, hw, hne⟩ : ∃ w ∈ first :: others, v ≠ w := by
          by_cases hfirst : v = first
          · obtain ⟨w, hw⟩ := List.exists_mem_of_ne_nil others (by simpa using hothers)
            refine ⟨w, List.mem_cons_of_mem _ hw, ?_⟩
            rintro rfl
            exact (List.nodup_cons.mp hnodup).1 (hfirst ▸ hw)
          · exact ⟨first, List.mem_cons_self .., hfirst⟩
        exact hother hw hne
      · by_cases hfirst : v = first
        · exact .single (hfirst ▸ hself)
        · exact hother (List.mem_cons_self ..) hfirst
    · intro hcycle
      by_cases hothers : others = []
      · subst hothers
        obtain rfl := List.mem_singleton.mp hv
        obtain ⟨w, hvw, hwv⟩ := Relation.TransGen.head'_iff.mp hcycle
        have hw := (hmem v hv w).mpr ⟨.single hvw, hwv⟩
        exact .inr (List.mem_singleton.mp hw ▸ hvw)
      · exact .inl (by simpa using hothers)

/-- The nodes on cycles are those that edges lead from back to themselves. -/
theorem mem_cyclic_iff : v ∈ g.cyclic ↔ Relation.TransGen g.Leads v v := by
  simp only [cyclic, List.mem_flatten, List.mem_filter]
  constructor
  · rintro ⟨c, ⟨hc, hcyclic⟩, hv⟩
    exact ((isComponent_of_mem hc).isCyclic_iff hv).mp hcyclic
  · intro hcycle
    obtain ⟨c, hc, hv⟩ := g.exists_component v
    exact ⟨c, ⟨hc, ((isComponent_of_mem hc).isCyclic_iff hv).mpr hcycle⟩, hv⟩

end Adjacency

end LockUsage
