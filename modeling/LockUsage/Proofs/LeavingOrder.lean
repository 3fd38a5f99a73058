import LockUsage.Proofs.PostDominators
import Mathlib.Data.Fintype.Card

/-! The order in which a depth-first walk against the edges leaves the blocks. It holds just the
blocks with a path to the exit, each once, and each block but the ones that lead to the exit itself
leads to a block that is left after it. -/

namespace LockUsage

namespace BlockGraph

/-- A walk that has entered some blocks does its tasks, and leaves blocks in an order. -/
inductive Walk (g : BlockGraph n) : List (Fin n) → List (Task n) → List (Fin n) → Prop
  | done {entered} : Walk g entered [] []
  | skip {entered bb tasks order} : bb ∈ entered → Walk g entered tasks order →
      Walk g entered (.enter bb :: tasks) order
  | enter {entered bb tasks order} : bb ∉ entered →
      Walk g (bb :: entered) ((g.sources (.block bb)).map .enter ++ .leave bb :: tasks) order →
      Walk g entered (.enter bb :: tasks) order
  | leave {entered bb tasks order} : Walk g entered tasks order →
      Walk g entered (.leave bb :: tasks) (bb :: order)

variable {n fuel : Nat} {g : BlockGraph n} {bb next : Fin n} {entered order : List (Fin n)}
  {tasks : List (Task n)}

@[simp]
theorem mem_sources {node : BlockNode n} : bb ∈ g.sources node ↔ node ∈ g.get bb := by
  simp [sources]

theorem length_sources_le (node : BlockNode n) : (g.sources node).length ≤ n :=
  (List.length_filter_le _ _).trans (List.length_finRange).le

/-- Entering a block puts off leaving the others. -/
theorem leave_mem_entering {bbs : List (Fin n)} :
    .leave bb ∈ bbs.map .enter ++ .leave next :: tasks ↔ bb = next ∨ .leave bb ∈ tasks := by
  simp

def Task.block : Task n → Fin n
  | .enter bb => bb
  | .leave bb => bb

/-- A walk comes to its end if there is fuel for its tasks and for those of the blocks not yet
entered. -/
theorem walk_leaveFrom (hentered : entered.Nodup)
    (hfuel : tasks.length + (n - entered.length) * (n + 1) ≤ fuel) :
    Walk g entered tasks (g.leaveFrom fuel entered tasks) := by
  induction fuel generalizing entered tasks with
  | zero =>
    obtain rfl : tasks = [] := List.length_eq_zero_iff.mp (by omega)
    exact .done
  | succ fuel ih =>
    match tasks with
    | [] => exact .done
    | .leave bb :: tasks =>
      rw [List.length_cons] at hfuel
      exact .leave (ih hentered (by omega))
    | .enter bb :: tasks =>
      rw [List.length_cons] at hfuel
      by_cases hbb : bb ∈ entered
      · rw [show g.leaveFrom (fuel + 1) entered (.enter bb :: tasks) = _ from if_pos hbb]
        exact .skip hbb (ih hentered (by omega))
      · rw [show g.leaveFrom (fuel + 1) entered (.enter bb :: tasks) = _ from if_neg hbb]
        have hnodup : (bb :: entered).Nodup := List.nodup_cons.mpr ⟨hbb, hentered⟩
        have hcard : (bb :: entered).length ≤ n :=
          hnodup.length_le_card.trans_eq (Fintype.card_fin n)
        refine .enter hbb (ih hnodup ?_)
        -- The tasks that the block makes are paid for by its being entered.
        obtain ⟨left, hleft⟩ := Nat.exists_eq_add_of_le hcard
        have hsources := g.length_sources_le (.block bb)
        rw [List.length_cons] at hleft
        rw [show n - entered.length = left + 1 by omega, Nat.add_mul] at hfuel
        rw [List.length_append, List.length_map, List.length_cons, List.length_cons,
          show n - (entered.length + 1) = left by omega]
        omega

theorem walk_leavingOrder (g : BlockGraph n) :
    Walk g [] ((g.sources .exit).map .enter) g.leavingOrder := by
  refine walk_leaveFrom List.nodup_nil ?_
  have hsources := g.length_sources_le .exit
  rw [List.length_map, List.length_nil, Nat.sub_zero, Nat.mul_succ n (n + 1)]
  omega

namespace Walk

theorem mem_of_leave (h : Walk g entered tasks order) (hbb : .leave bb ∈ tasks) : bb ∈ order := by
  induction h with
  | done => cases hbb
  | skip _ _ ih => exact ih (by simpa using hbb)
  | enter _ _ ih => exact ih (by simp_all)
  | leave _ ih =>
    rcases List.mem_cons.mp hbb with hbb | hbb
    · cases hbb
      exact List.mem_cons_self
    · exact List.mem_cons_of_mem _ (ih hbb)

theorem mem_of_enter (h : Walk g entered tasks order) (hbb : .enter bb ∈ tasks) :
    bb ∈ entered ∨ bb ∈ order := by
  induction h with
  | done => cases hbb
  | skip hmem _ ih =>
    rcases List.mem_cons.mp hbb with hbb | hbb
    · cases hbb
      exact .inl hmem
    · exact ih hbb
  | @enter _ first _ order _ hwalk ih =>
    have hfirst : first ∈ order := hwalk.mem_of_leave (by simp)
    rcases List.mem_cons.mp hbb with hbb | hbb
    · cases hbb
      exact .inr hfirst
    · rcases ih (by simp [hbb]) with hmem | hmem
      · rcases List.mem_cons.mp hmem with rfl | hmem
        · exact .inr hfirst
        · exact .inl hmem
      · exact .inr hmem
  | leave _ ih => exact (ih (by simpa using hbb)).imp_right (List.mem_cons_of_mem _)

/-- What leads to a block that the walk enters is entered as well. -/
theorem mem_of_source (h : Walk g entered tasks order) (hnext : next ∈ order)
    (hbb : .block next ∈ g.get bb) : .leave next ∈ tasks ∨ bb ∈ entered ∨ bb ∈ order := by
  induction h with
  | done => cases hnext
  | skip _ _ ih => exact (ih hnext).imp_left (List.mem_cons_of_mem _)
  | @enter entered first tasks order _ hwalk ih =>
    have hfirst : first ∈ order := hwalk.mem_of_leave (by simp)
    have hmem : .leave next ∈ tasks ∨ bb ∈ first :: entered ∨ bb ∈ order := by
      rcases ih hnext with htask | hmem
      · rcases leave_mem_entering.mp htask with rfl | htask
        · exact .inr (hwalk.mem_of_enter (by simp [hbb]))
        · exact .inl htask
      · exact .inr hmem
    rcases hmem with htask | hmem | hmem
    · exact .inl (List.mem_cons_of_mem _ htask)
    · rcases List.mem_cons.mp hmem with rfl | hmem
      · exact .inr (.inr hfirst)
      · exact .inr (.inl hmem)
    · exact .inr (.inr hmem)
  | leave _ ih =>
    rcases List.mem_cons.mp hnext with rfl | hnext
    · exact .inl List.mem_cons_self
    · rcases ih hnext with htask | hmem | hmem
      · exact .inl (List.mem_cons_of_mem _ htask)
      · exact .inr (.inl hmem)
      · exact .inr (.inr (List.mem_cons_of_mem _ hmem))

/-- A block is left because it was entered before, or is entered now. -/
theorem leave_or_not_entered (h : Walk g entered tasks order) (hbb : bb ∈ order) :
    .leave bb ∈ tasks ∨ bb ∉ entered := by
  induction h with
  | done => cases hbb
  | skip _ _ ih => exact (ih hbb).imp_left (List.mem_cons_of_mem _)
  | enter hfirst _ ih =>
    rcases ih hbb with htask | hmem
    · rcases leave_mem_entering.mp htask with rfl | htask
      · exact .inr hfirst
      · exact .inl (List.mem_cons_of_mem _ htask)
    · exact .inr fun h => hmem (List.mem_cons_of_mem _ h)
  | leave _ ih =>
    rcases List.mem_cons.mp hbb with rfl | hbb
    · exact .inl List.mem_cons_self
    · exact (ih hbb).imp_left (List.mem_cons_of_mem _)

end Walk

/-- No block is to be left twice. -/
def LeftOnce (tasks : List (Task n)) : Prop :=
  tasks.Pairwise fun task task' => ∀ bb, task = .leave bb → task' ≠ .leave bb

theorem leftOnce_enter_append (bbs : List (Fin n)) (h : LeftOnce tasks) :
    LeftOnce (bbs.map .enter ++ tasks) := by
  refine List.pairwise_append.mpr ⟨List.pairwise_map.mpr ?_, h, ?_⟩
  · exact List.pairwise_of_forall fun _ _ _ h => by cases h
  · intro task htask _ _ bb hbb
    simp [hbb] at htask

theorem Walk.nodup (h : Walk g entered tasks order) (honce : LeftOnce tasks)
    (hentered : ∀ bb, .leave bb ∈ tasks → bb ∈ entered) : order.Nodup := by
  induction h with
  | done => exact List.nodup_nil
  | skip _ _ ih =>
    exact ih (List.pairwise_cons.mp honce).2 fun bb h => hentered bb (List.mem_cons_of_mem _ h)
  | @enter entered first tasks _ hfirst _ ih =>
    obtain ⟨-, honce⟩ := List.pairwise_cons.mp honce
    refine ih (leftOnce_enter_append _ (List.pairwise_cons.mpr ⟨?_, honce⟩)) fun bb h => ?_
    · rintro task htask bb hbb rfl
      cases hbb
      exact hfirst (hentered first (List.mem_cons_of_mem _ htask))
    · rcases leave_mem_entering.mp h with rfl | h
      · exact List.mem_cons_self
      · exact List.mem_cons_of_mem _ (hentered bb (List.mem_cons_of_mem _ h))
  | @leave _ first _ _ hwalk ih =>
    refine List.nodup_cons.mpr ⟨fun hmem => ?_, ih (List.pairwise_cons.mp honce).2 fun bb h =>
      hentered bb (List.mem_cons_of_mem _ h)⟩
    rcases hwalk.leave_or_not_entered hmem with htask | hnot
    · exact (List.pairwise_cons.mp honce).1 _ htask first rfl rfl
    · exact hnot (hentered first List.mem_cons_self)

theorem nodup_leavingOrder (g : BlockGraph n) : g.leavingOrder.Nodup := by
  refine g.walk_leavingOrder.nodup ?_ fun bb h => by simp at h
  simpa using leftOnce_enter_append (g.sources .exit) List.Pairwise.nil

/-- The block of each task leads to the exit, or to a block that is to be left later. -/
def Guided (g : BlockGraph n) : List (Task n) → Prop
  | [] => True
  | task :: tasks =>
    (.exit ∈ g.get task.block ∨ ∃ next, .block next ∈ g.get task.block ∧ .leave next ∈ tasks) ∧
      Guided g tasks

/-- Each block leads to the exit, or to a block further on. -/
def LeadsOn (g : BlockGraph n) : List (Fin n) → Prop
  | [] => True
  | bb :: bbs => (.exit ∈ g.get bb ∨ ∃ next ∈ bbs, .block next ∈ g.get bb) ∧ LeadsOn g bbs

theorem guided_enter_append {bbs : List (Fin n)} (h : g.Guided tasks)
    (hbbs : ∀ bb ∈ bbs, .exit ∈ g.get bb ∨
      ∃ next, .block next ∈ g.get bb ∧ .leave next ∈ tasks) :
    g.Guided (bbs.map .enter ++ tasks) := by
  induction bbs with
  | nil => exact h
  | cons bb bbs ih =>
    refine ⟨(hbbs bb List.mem_cons_self).imp_right fun ⟨next, hnext, htask⟩ => ?_,
      ih fun bb hbb => hbbs bb (List.mem_cons_of_mem _ hbb)⟩
    exact ⟨next, hnext, List.mem_append_right _ htask⟩

theorem Walk.leadsOn (h : Walk g entered tasks order) (hguided : g.Guided tasks) :
    g.LeadsOn order := by
  induction h with
  | done => trivial
  | skip _ _ ih => exact ih hguided.2
  | @enter _ first _ _ _ _ ih =>
    refine ih (guided_enter_append ⟨hguided.1, hguided.2⟩ fun bb hbb => ?_)
    exact .inr ⟨first, mem_sources.mp hbb, List.mem_cons_self⟩
  | leave hwalk ih =>
    refine ⟨hguided.1.imp_right fun ⟨next, hnext, htask⟩ => ?_, ih hguided.2⟩
    exact ⟨next, hwalk.mem_of_leave htask, hnext⟩

theorem leadsOn_leavingOrder (g : BlockGraph n) : g.LeadsOn g.leavingOrder := by
  refine g.walk_leavingOrder.leadsOn ?_
  have hguided : g.Guided ((g.sources .exit).map .enter ++ []) :=
    guided_enter_append trivial fun bb hbb => .inl (mem_sources.mp hbb)
  simpa using hguided

/-- In an order without repetition, a block further on has a later place. -/
theorem LeadsOn.exists_later (h : g.LeadsOn order) (hnodup : order.Nodup) (hbb : bb ∈ order) :
    .exit ∈ g.get bb ∨
      ∃ next ∈ order, .block next ∈ g.get bb ∧ order.idxOf bb < order.idxOf next := by
  induction order with
  | nil => cases hbb
  | cons first order ih =>
    obtain ⟨hfirst, hnodup⟩ := List.nodup_cons.mp hnodup
    have hidx {next : Fin n} (hnext : next ∈ order) :
        (first :: order).idxOf next = order.idxOf next + 1 :=
      List.idxOf_cons_ne order fun he => hfirst (he ▸ hnext)
    rcases List.mem_cons.mp hbb with rfl | hbb
    · refine h.1.imp_right fun ⟨next, hnext, hleads⟩ => ?_
      refine ⟨next, List.mem_cons_of_mem _ hnext, hleads, ?_⟩
      rw [hidx hnext, List.idxOf_cons_self]
      omega
    · refine (ih h.2 hnodup hbb).imp_right fun ⟨next, hnext, hleads, hlt⟩ => ?_
      refine ⟨next, List.mem_cons_of_mem _ hnext, hleads, ?_⟩
      rw [hidx hnext, hidx hbb]
      omega

end BlockGraph

namespace Body

open BlockGraph

/-- The walk comes to the blocks with a path to the exit, and to no others. -/
theorem mem_leavingOrder {b : Body} {bb : b.BlockIx} :
    bb ∈ b.graph.leavingOrder ↔ b.CanExit bb := by
  constructor
  · have hleads := b.graph.leadsOn_leavingOrder
    generalize b.graph.leavingOrder = order at hleads
    intro hbb
    induction order generalizing bb with
    | nil => cases hbb
    | cons first order ih =>
      rcases List.mem_cons.mp hbb with rfl | hbb
      · rcases hleads.1 with hexit | ⟨next, hnext, hblock⟩
        · exact ⟨_, .leave (get_graph b bb ▸ hexit)⟩
        · obtain ⟨path, hpath⟩ := ih hleads.2 hnext
          exact ⟨_, .step (get_graph b bb ▸ hblock) hpath⟩
      · exact ih hleads.2 hbb
  · rintro ⟨path, hpath⟩
    have hwalk := b.graph.walk_leavingOrder
    induction hpath with
    | @leave bb hexit =>
      rw [← get_graph] at hexit
      exact (hwalk.mem_of_enter (by simpa using hexit)).resolve_left List.not_mem_nil
    | @step bb next _ hnext _ ih =>
      rw [← get_graph] at hnext
      exact ((hwalk.mem_of_source ih hnext).resolve_left (by simp)).resolve_left List.not_mem_nil

end Body

end LockUsage
