import LockUsage.Graph.PostDominance
import Mathlib.Tactic.ByContra
import Mathlib.Tactic.Push

/-! Post-dominators by paths. A block post-dominates another one if it is on every path from there
to the exit. The post-dominators of a block form a chain, and the nearest other block of it is
unique. -/

namespace LockUsage

theorem get_ofFn (f : Fin n → α) (i : Fin n) : (Vector.ofFn f).get i = f i :=
  Vector.getElem_ofFn i.isLt

namespace Body

variable (b : Body)

/-- A path from a block to the exit, with the blocks that it passes. -/
inductive ExitPath : b.BlockIx → List b.BlockIx → Prop
  | leave {bb} : .exit ∈ b.neighbours bb → ExitPath bb [bb]
  | step {bb next path} : .block next ∈ b.neighbours bb → ExitPath next path →
      ExitPath bb (bb :: path)

def CanExit (bb : b.BlockIx) : Prop := ∃ path, b.ExitPath bb path

/-- The block is on every path from another one to the exit. -/
def PostDominates (q bb : b.BlockIx) : Prop := ∀ path, b.ExitPath bb path → q ∈ path

variable {b} {q r bb next : b.BlockIx} {path : List b.BlockIx}

theorem mem_nextBlocks : next ∈ b.nextBlocks bb ↔ .block next ∈ b.neighbours bb := by
  rw [nextBlocks, List.mem_filterMap]
  constructor
  · rintro ⟨node, hnode, h⟩
    cases node with
    | block node => exact Option.some.inj h ▸ hnode
    | exit => cases h
  · exact fun h => ⟨_, h, rfl⟩

namespace ExitPath

theorem self_mem (h : b.ExitPath bb path) : bb ∈ path := by
  cases h <;> exact List.mem_cons_self

/-- The rest of a path from one of its blocks on. -/
theorem exists_from (h : b.ExitPath bb path) (hq : q ∈ path) :
    ∃ rest, b.ExitPath q rest ∧ rest ⊆ path := by
  induction h with
  | leave hexit =>
    obtain rfl := List.mem_singleton.mp hq
    exact ⟨_, .leave hexit, List.Subset.refl _⟩
  | step hnext hpath ih =>
    rcases List.mem_cons.mp hq with rfl | hq
    · exact ⟨_, .step hnext hpath, List.Subset.refl _⟩
    · obtain ⟨rest, hrest, hsub⟩ := ih hq
      exact ⟨rest, hrest, List.subset_cons_of_subset _ hsub⟩

end ExitPath

namespace PostDominates

theorem refl (bb : b.BlockIx) : b.PostDominates bb bb := fun _ hpath => hpath.self_mem

theorem trans (hq : b.PostDominates q r) (hr : b.PostDominates r bb) : b.PostDominates q bb := by
  intro path hpath
  obtain ⟨rest, hrest, hsub⟩ := hpath.exists_from (hr path hpath)
  exact hsub (hq rest hrest)

theorem canExit (h : b.PostDominates q bb) (hbb : b.CanExit bb) : b.CanExit q := by
  obtain ⟨path, hpath⟩ := hbb
  obtain ⟨rest, hrest, -⟩ := hpath.exists_from (h path hpath)
  exact ⟨rest, hrest⟩

/-- What post-dominates a block post-dominates what follows it, unless it is the block itself. -/
theorem of_next (h : b.PostDominates q bb) (hne : q ≠ bb) (hnext : next ∈ b.nextBlocks bb) :
    b.PostDominates q next := fun _ hpath =>
  (List.mem_cons.mp (h _ (.step (mem_nextBlocks.mp hnext) hpath))).resolve_left hne

theorem antisymm (hqr : b.PostDominates q r) (hrq : b.PostDominates r q) (hr : b.CanExit r) :
    q = r := by
  by_contra hne
  -- From the exit backwards, no path comes to one of the two: it would have to pass the other.
  have hclear {bb path} (hpath : b.ExitPath bb path) : q ∉ path ∧ r ∉ path := by
    induction hpath with
    | leave hexit =>
      simp only [List.mem_singleton]
      constructor
      · rintro rfl
        exact hne (List.mem_singleton.mp (hrq _ (.leave hexit))).symm
      · rintro rfl
        exact hne (List.mem_singleton.mp (hqr _ (.leave hexit)))
    | step hnext hpath ih =>
      simp only [List.mem_cons, not_or]
      refine ⟨⟨?_, ih.1⟩, ?_, ih.2⟩
      · rintro rfl
        exact (List.mem_cons.mp (hrq _ (.step hnext hpath))).elim (fun h => hne h.symm) ih.2
      · rintro rfl
        exact (List.mem_cons.mp (hqr _ (.step hnext hpath))).elim hne ih.1
  obtain ⟨path, hpath⟩ := hr
  exact (hclear hpath).2 hpath.self_mem

/-- Of two blocks that post-dominate a third, one post-dominates the other. -/
theorem total (hq : b.PostDominates q bb) (hr : b.PostDominates r bb) (hbb : b.CanExit bb) :
    b.PostDominates q r ∨ b.PostDominates r q := by
  by_contra hnone
  simp only [PostDominates, not_or, not_forall] at hnone
  obtain ⟨⟨pathR, hpathR, hqR⟩, pathQ, hpathQ, hrQ⟩ := hnone
  have havoid {bb path} (hpath : b.ExitPath bb path) :
      ∃ path, b.ExitPath bb path ∧ (q ∉ path ∨ r ∉ path) := by
    induction hpath with
    | @leave bb hexit =>
      by_cases hne : q = bb
      · exact ⟨pathQ, hne ▸ hpathQ, .inr hrQ⟩
      · exact ⟨[bb], .leave hexit, .inl (by simpa using hne)⟩
    | @step bb next path hnext _ ih =>
      by_cases hneq : q = bb
      · exact ⟨pathQ, hneq ▸ hpathQ, .inr hrQ⟩
      by_cases hner : r = bb
      · exact ⟨pathR, hner ▸ hpathR, .inl hqR⟩
      obtain ⟨path, hpath, havoid⟩ := ih
      refine ⟨bb :: path, .step hnext hpath, ?_⟩
      simpa [hneq, hner] using havoid
  obtain ⟨path, hpath⟩ := hbb
  obtain ⟨path, hpath, havoid⟩ := havoid hpath
  exact havoid.elim (fun h => h (hq path hpath)) fun h => h (hr path hpath)

end PostDominates

theorem get_graph (b : Body) (bb : b.BlockIx) : b.graph.get bb = b.neighbours bb :=
  get_ofFn _ bb

/-- The nearest post-dominator other than the block itself: all others are further on. -/
structure Nearest (b : Body) (q bb : b.BlockIx) : Prop where
  canExit : b.CanExit bb
  ne : q ≠ bb
  dominates : b.PostDominates q bb
  first : ∀ r, r ≠ bb → b.PostDominates r bb → b.PostDominates r q

theorem Nearest.unique (hq : b.Nearest q bb) (hr : b.Nearest r bb) : q = r :=
  (hr.first q hq.ne hq.dominates).antisymm (hq.first r hr.ne hr.dominates)
    (hr.dominates.canExit hr.canExit)

/-- A block that strictly post-dominates one that leads to it is the nearest. -/
theorem nearest_of_next (hexit : b.CanExit bb) (hnext : next ∈ b.nextBlocks bb) (hne : next ≠ bb)
    (h : b.PostDominates next bb) : b.Nearest next bb :=
  ⟨hexit, hne, h, fun _ hr hdom => hdom.of_next hr hnext⟩

end Body

end LockUsage
