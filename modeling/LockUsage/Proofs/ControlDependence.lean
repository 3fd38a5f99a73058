import LockUsage.Graph.ControlDependence
import LockUsage.Proofs.ImmediateBlocks
import LockUsage.Proofs.Lists
import Mathlib.Logic.Relation

/-! Control dependence against its classical definition: a block depends on a branch if it lies on
all ways from one of the branch's successors to the exit, and not on all ways from the branch. The
proof goes along the edges in the order in which they are examined: the first one that reaches a
block decides on what it depends. -/

namespace LockUsage

namespace Body

variable (b : Body)

/-- Control passes from one block to another in some steps, or none. -/
def Leads : b.BlockIx → b.BlockIx → Prop :=
  Relation.ReflTransGen fun bb next => next ∈ b.nextBlocks bb

/-- The branch at the end of `p` decides whether `bb` runs. -/
def ControlDepends (bb p : b.BlockIx) : Prop :=
  (∃ s ∈ b.nextBlocks p, bb = s ∨ b.PostDominates bb s) ∧ ¬ (bb ≠ p ∧ b.PostDominates bb p)

/-- The edges of the part of the graph that a block leads to, in an order in which a walk from there
may examine them: an edge comes after one to its source, unless that is the start. -/
structure Examines (start : b.BlockIx) (edges : List (b.BlockIx × b.BlockIx)) : Prop where
  mem_iff : ∀ bb next, (bb, next) ∈ edges ↔ b.Leads start bb ∧ next ∈ b.nextBlocks bb
  entered : ∀ before edge after, edges = before ++ edge :: after →
    edge.1 = start ∨ edge.1 ∈ before.map (·.2)

/-- What each block depends on if the edges are examined in a given order. -/
def dependencesAlong (start : b.BlockIx) (edges : List (b.BlockIx × b.BlockIx)) :
    Dependences b.func.blocks.size :=
  let reached := edges.foldl (recordEdge b.immediate) [(start, none)]
  reached ++ (b.blocks.filter fun bb => (reached.lookup bb).isNone).map (·, none)

variable {b} {start : b.BlockIx}

/-- A block that leads to another one does not leave the function. -/
theorem exit_notMem_neighbours {bb next : b.BlockIx} (h : next ∈ b.nextBlocks bb) :
    .exit ∉ b.neighbours bb := by
  have h := mem_nextBlocks.mp h
  rw [neighbours] at h ⊢
  split at h
  · simp at h
  · split_ifs at h ⊢
    · simp at h
    · simp

theorem dependences_eq (hstart : b.entryBlock? = some start) :
    b.dependences = b.dependencesAlong start (b.examined start) := by
  rw [dependences, hstart]
  rfl

section Examined

variable {entered : List b.BlockIx} {pending : List (b.BlockIx × b.BlockIx)} {fuel : Nat}

/-- The number of edges out of blocks that are not entered. -/
def edgesLeft (b : Body) (entered : List b.BlockIx) : Nat :=
  ((b.blocks.filter fun bb => !entered.contains bb).flatMap b.nextBlocks).length

theorem edgesLeft_of_not_mem {bb : b.BlockIx} (h : bb ∉ entered) :
    b.edgesLeft entered = (b.nextBlocks bb).length + b.edgesLeft (bb :: entered) := by
  have hcount := length_flatMap_filter (l := b.blocks) (List.nodup_finRange _)
    (p := fun bb => !entered.contains bb) (List.mem_finRange bb) (by simpa using h)
    (f := b.nextBlocks)
  have hrest : b.blocks.filter (fun bb' => bb' != bb && !entered.contains bb') =
      b.blocks.filter fun bb' => !(bb :: entered).contains bb' :=
    List.filter_congr fun bb' _ => by simp [bne, beq_eq_decide]
  rw [hrest] at hcount
  exact hcount

theorem examineFrom_nil : b.examineFrom fuel entered [] = [] := by
  cases fuel <;> rfl

section Equations

variable {source target : b.BlockIx}

theorem examineFrom_of_mem (h : target ∈ entered) :
    b.examineFrom (fuel + 1) entered ((source, target) :: pending) =
      (source, target) :: b.examineFrom fuel entered pending :=
  congrArg ((source, target) :: ·) (if_pos h)

theorem examineFrom_of_not_mem (h : target ∉ entered) :
    b.examineFrom (fuel + 1) entered ((source, target) :: pending) =
      (source, target) :: b.examineFrom fuel (target :: entered)
        ((b.nextBlocks target).map (target, ·) ++ pending) :=
  congrArg ((source, target) :: ·) (if_neg h)

end Equations

theorem entered_examineFrom (hsource : ∀ edge ∈ pending, edge.1 ∈ entered)
    {before after : List (b.BlockIx × b.BlockIx)} {edge : b.BlockIx × b.BlockIx}
    (h : b.examineFrom fuel entered pending = before ++ edge :: after) :
    edge.1 ∈ entered ∨ edge.1 ∈ before.map (·.2) := by
  induction fuel generalizing entered pending before with
  | zero =>
    have hnil : before ++ edge :: after = [] := h.symm
    simp at hnil
  | succ fuel ih =>
    cases pending with
    | nil => simp [examineFrom_nil] at h
    | cons first pending =>
      obtain ⟨source, target⟩ := first
      have hrest : ∀ edge ∈ pending, edge.1 ∈ entered := fun e he =>
        hsource e (List.mem_cons_of_mem _ he)
      cases before with
      | nil =>
        obtain rfl : (source, target) = edge := (List.cons.inj h).1
        exact .inl (hsource _ List.mem_cons_self)
      | cons e before =>
        rw [List.map_cons, List.mem_cons]
        by_cases hin : target ∈ entered
        · rw [examineFrom_of_mem hin] at h
          exact (ih hrest (List.cons.inj h).2).imp_right .inr
        · rw [examineFrom_of_not_mem hin] at h
          obtain ⟨rfl, htail⟩ := List.cons.inj h
          have hnew : ∀ edge ∈ (b.nextBlocks target).map (target, ·) ++ pending,
              edge.1 ∈ target :: entered := by
            intro e he
            rcases List.mem_append.mp he with he | he
            · obtain ⟨next, -, rfl⟩ := List.mem_map.mp he
              exact List.mem_cons_self
            · exact List.mem_cons_of_mem _ (hrest e he)
          rcases ih hnew htail with hin | hin
          · exact (List.mem_cons.mp hin).elim (fun h => .inr (.inl h)) .inl
          · exact .inr (.inr hin)

theorem mem_nextBlocks_of_examineFrom (hpending : ∀ edge ∈ pending, edge.2 ∈ b.nextBlocks edge.1) :
    ∀ edge ∈ b.examineFrom fuel entered pending, edge.2 ∈ b.nextBlocks edge.1 := by
  induction fuel generalizing entered pending with
  | zero => exact fun _ h => by cases h
  | succ fuel ih =>
    cases pending with
    | nil => simp [examineFrom_nil]
    | cons first pending =>
      obtain ⟨source, target⟩ := first
      obtain ⟨hfirst, hrest⟩ := List.forall_mem_cons.mp hpending
      by_cases hin : target ∈ entered
      · rw [examineFrom_of_mem hin]
        exact List.forall_mem_cons.mpr ⟨hfirst, ih hrest⟩
      · rw [examineFrom_of_not_mem hin]
        refine List.forall_mem_cons.mpr ⟨hfirst, ih (List.forall_mem_append.mpr ⟨?_, hrest⟩)⟩
        intro edge hedge
        obtain ⟨next, hnext, rfl⟩ := List.mem_map.mp hedge
        exact hnext

/-- With enough fuel the walk comes to all pending edges, and to all edges out of the blocks that it
enters. -/
theorem examineFrom_covers (fuel : Nat) (entered : List b.BlockIx)
    (pending : List (b.BlockIx × b.BlockIx))
    (hfuel : pending.length + b.edgesLeft entered ≤ fuel) :
    pending ⊆ b.examineFrom fuel entered pending ∧
      ∀ edge ∈ b.examineFrom fuel entered pending, edge.2 ∈ entered ∨
        ∀ next ∈ b.nextBlocks edge.2, (edge.2, next) ∈ b.examineFrom fuel entered pending := by
  induction fuel generalizing entered pending with
  | zero =>
    obtain rfl : pending = [] := List.length_eq_zero_iff.mp (by omega)
    simp [examineFrom_nil]
  | succ fuel ih =>
    cases pending with
    | nil => simp [examineFrom_nil]
    | cons first pending =>
      obtain ⟨source, target⟩ := first
      rw [List.length_cons] at hfuel
      by_cases hin : target ∈ entered
      · obtain ⟨hsub, hout⟩ := ih entered pending (by omega)
        rw [examineFrom_of_mem hin]
        refine ⟨List.cons_subset_cons _ hsub, List.forall_mem_cons.mpr ⟨.inl hin, ?_⟩⟩
        exact fun edge hedge => (hout edge hedge).imp_right fun h next hnext =>
          List.mem_cons_of_mem _ (h next hnext)
      · have hleft := edgesLeft_of_not_mem hin
        obtain ⟨hsub, hout⟩ := ih (target :: entered)
          ((b.nextBlocks target).map (target, ·) ++ pending) (by simp; omega)
        have htarget : ∀ next ∈ b.nextBlocks target, (target, next) ∈
            b.examineFrom fuel (target :: entered)
              ((b.nextBlocks target).map (target, ·) ++ pending) :=
          fun next hnext => hsub (List.mem_append_left _ (List.mem_map_of_mem hnext))
        rw [examineFrom_of_not_mem hin]
        refine ⟨List.cons_subset_cons _ (List.Subset.trans (List.subset_append_right _ _) hsub),
          List.forall_mem_cons.mpr ⟨.inr fun next hnext => List.mem_cons_of_mem _
            (htarget next hnext), fun edge hedge => ?_⟩⟩
        rcases hout edge hedge with hin | h
        · rcases List.mem_cons.mp hin with he | hin
          · exact .inr fun next hnext =>
              List.mem_cons_of_mem _ (he ▸ htarget next (he ▸ hnext))
          · exact .inl hin
        · exact .inr fun next hnext => List.mem_cons_of_mem _ (h next hnext)

end Examined

/-- The walk of the analysis examines all edges that it can come to. -/
theorem examines_examined (b : Body) (start : b.BlockIx) : b.Examines start (b.examined start) := by
  have hsource : ∀ edge ∈ (b.nextBlocks start).map (start, ·), edge.1 ∈ [start] := by
    intro edge hedge
    obtain ⟨next, -, rfl⟩ := List.mem_map.mp hedge
    exact List.mem_singleton_self _
  have hentered : ∀ before edge after, b.examined start = before ++ edge :: after →
      edge.1 = start ∨ edge.1 ∈ before.map (·.2) := fun before edge after h =>
    (entered_examineFrom hsource h).imp_left List.mem_singleton.mp
  have hedge : ∀ edge ∈ b.examined start, edge.2 ∈ b.nextBlocks edge.1 := by
    refine mem_nextBlocks_of_examineFrom fun edge hedge => ?_
    obtain ⟨next, hnext, rfl⟩ := List.mem_map.mp hedge
    exact hnext
  have hleads : ∀ before edge after, b.examined start = before ++ edge :: after →
      b.Leads start edge.1 := by
    intro before
    induction hn : before.length using Nat.strong_induction_on generalizing before with
    | _ n ih =>
      intro edge after h
      rcases hentered before edge after h with he | hin
      · exact he ▸ .refl
      · obtain ⟨edge', hmem, he⟩ := List.mem_map.mp hin
        obtain ⟨before', after', rfl⟩ := List.append_of_mem hmem
        have hsplit : b.examined start = before' ++ edge' :: (after' ++ edge :: after) := by
          simpa using h
        have hlt : before'.length < n := by
          simp only [List.length_append, List.length_cons] at hn
          omega
        exact (ih before'.length hlt before' rfl edge' _ hsplit).tail
          (he ▸ hedge edge' (hsplit ▸ by simp))
  have hcount : b.edgeCount = (b.nextBlocks start).length + b.edgesLeft [start] := by
    rw [← edgesLeft_of_not_mem List.not_mem_nil, edgesLeft, edgeCount]
    simp
  obtain ⟨hsub, hout⟩ := examineFrom_covers b.edgeCount [start]
    ((b.nextBlocks start).map (start, ·)) (by simp [hcount])
  refine ⟨fun bb next => ⟨fun h => ?_, ?_⟩, hentered⟩
  · obtain ⟨before, after, hsplit⟩ := List.append_of_mem h
    exact ⟨hleads before (bb, next) after hsplit, hedge _ h⟩
  · rintro ⟨hbb, hnext⟩
    induction hbb generalizing next with
    | refl => exact hsub (List.mem_map_of_mem hnext)
    | @tail u bb _ hbb ih =>
      rcases hout (u, bb) (ih bb hbb) with hin | h
      · obtain rfl := List.mem_singleton.mp hin
        exact hsub (List.mem_map_of_mem hnext)
      · exact h next hnext

/-- Dependences recorded along edges, each from a block that has one to a block that has none. -/
inductive Recorded (b : Body) (start : b.BlockIx) : Dependences b.func.blocks.size → Prop
  | start : Recorded b start [(start, none)]
  | record {deps u v} : Recorded b start deps → u ∈ deps.map (·.1) → v ∈ b.nextBlocks u →
      v ∉ deps.map (·.1) → Recorded b start (deps ++ [(v, resolve b.immediate deps u v)])

theorem recorded_foldl {edges : List (b.BlockIx × b.BlockIx)}
    (hedge : ∀ edge ∈ edges, edge.2 ∈ b.nextBlocks edge.1)
    (hentered : ∀ before edge after, edges = before ++ edge :: after →
      edge.1 = start ∨ edge.1 ∈ before.map (·.2)) :
    b.Recorded start (edges.foldl (recordEdge b.immediate) [(start, none)]) ∧
      ∀ bb, bb ∈ (edges.foldl (recordEdge b.immediate) [(start, none)]).map (·.1) ↔
        bb = start ∨ bb ∈ edges.map (·.2) := by
  induction edges using List.reverseRecOn with
  | nil => exact ⟨.start, by simp⟩
  | append_singleton edges edge ih =>
    obtain ⟨hrec, hkeys⟩ := ih (fun e he => hedge e (List.mem_append_left _ he))
      fun before e after h => hentered before e (after ++ [edge]) (by simp [h])
    rw [List.foldl_append, List.foldl_cons, List.foldl_nil, recordEdge]
    have hsource := (hkeys edge.1).mpr (hentered edges edge [] rfl)
    split_ifs with hknown
    · refine ⟨hrec, fun bb => ?_⟩
      have htarget := (hkeys edge.2).mp (isSome_lookup_iff.mp hknown)
      rw [hkeys, List.map_append, List.mem_append, List.map_singleton, List.mem_singleton,
        ← or_assoc]
      exact ⟨.inl, fun h => h.elim id fun he => he ▸ htarget⟩
    · refine ⟨.record hrec hsource (hedge edge (by simp)) fun hin =>
        hknown (isSome_lookup_iff.mpr hin), fun bb => ?_⟩
      rw [List.map_append, List.mem_append, hkeys, List.map_append, List.mem_append, or_assoc]
      simp

/-- Going up from a block to what it depends on, with the blocks that were passed, and with nothing
to bound it. It ends at a block that decides whether `child` runs, or at one that depends on the
entry only, and goes on only to blocks that were not passed. -/
inductive ResolvesTo (near : ImmediateBlocks n) (deps : Dependences n) (child : Fin n) :
    List (Fin n) → Fin n → Option (Fin n) → Prop
  | branch {seen parent} : near.get parent ≠ some child →
      ResolvesTo near deps child seen parent (some parent)
  | entry {seen parent} : near.get parent = some child → deps.lookup parent = some none →
      ResolvesTo near deps child seen parent none
  | up {seen parent up d} : near.get parent = some child → deps.lookup parent = some (some up) →
      up ∉ seen → ResolvesTo near deps child (up :: seen) up d →
      ResolvesTo near deps child seen parent d

/-- Going up stops at a block whose nearest post-dominator is another one, goes on with what the
block depends on, or comes to an end. -/
theorem resolveFrom_cases (near : ImmediateBlocks n) (deps : Dependences n) (child : Fin n)
    (fuel : Nat) (seen : List (Fin n)) (parent : Fin n) :
    near.get parent ≠ some child ∧
        resolveFrom near deps child (fuel + 1) seen parent = some parent ∨
      near.get parent = some child ∧
        ((∃ up, deps.lookup parent = some (some up) ∧ up ∉ seen ∧
            resolveFrom near deps child (fuel + 1) seen parent =
              resolveFrom near deps child fuel (up :: seen) up) ∨
          (∀ up, deps.lookup parent = some (some up) → up ∈ seen) ∧
            resolveFrom near deps child (fuel + 1) seen parent = none) := by
  by_cases hnear : near.get parent = some child
  · refine .inr ⟨hnear, ?_⟩
    by_cases hup : ∃ up, deps.lookup parent = some (some up) ∧ up ∉ seen
    · obtain ⟨up, hup, hseen⟩ := hup
      refine .inl ⟨up, hup, hseen, (if_neg (not_not.mpr hnear)).trans ?_⟩
      rw [hup]
      exact if_neg hseen
    · have hseen : ∀ up, deps.lookup parent = some (some up) → up ∈ seen := fun up h =>
        by_contra fun hin => hup ⟨up, h, hin⟩
      refine .inr ⟨hseen, (if_neg (not_not.mpr hnear)).trans ?_⟩
      cases hl : deps.lookup parent with
      | none => rfl
      | some d =>
        cases d with
        | none => rfl
        | some up => exact if_pos (hseen up hl)
  · exact .inl ⟨hnear, if_pos hnear⟩

theorem mem_of_resolveFrom {deps : Dependences b.func.blocks.size} {near : ImmediateBlocks _}
    (hdeps : ∀ bb p, deps.lookup bb = some (some p) → p ∈ deps.map (·.1))
    {child parent p : b.BlockIx} {fuel : Nat} {seen : List b.BlockIx}
    (hparent : parent ∈ deps.map (·.1))
    (h : resolveFrom near deps child fuel seen parent = some p) : p ∈ deps.map (·.1) := by
  induction fuel generalizing seen parent with
  | zero => cases h
  | succ fuel ih =>
    rcases resolveFrom_cases near deps child fuel seen parent with
      ⟨-, heq⟩ | ⟨-, ⟨up, hup, -, heq⟩ | ⟨-, heq⟩⟩
    · exact Option.some.inj (heq.symm.trans h) ▸ hparent
    · exact ih (hdeps _ up hup) (heq.symm.trans h)
    · cases heq.symm.trans h

namespace Recorded

variable {deps : Dependences b.func.blocks.size} (h : b.Recorded start deps)
include h

/-- A block depends only on blocks that were recorded before it. -/
theorem idxOf_lt {bb p : b.BlockIx} (hp : deps.lookup bb = some (some p)) :
    (deps.map (·.1)).idxOf p < (deps.map (·.1)).idxOf bb := by
  induction h generalizing bb p with
  | start =>
    obtain hp | ⟨-, -, hp⟩ := lookup_append_singleton (l := []).mp hp
    · cases hp
    · cases hp
  | @record deps u v _ hu _ hv ih =>
    have hmem (bb p : b.BlockIx) (hp : deps.lookup bb = some (some p)) : p ∈ deps.map (·.1) :=
      List.idxOf_lt_length_iff.mp ((ih hp).trans_le List.idxOf_le_length)
    rw [List.map_append]
    rcases lookup_append_singleton.mp hp with hp | ⟨-, rfl, hp⟩
    · have hbb : bb ∈ deps.map (·.1) := isSome_lookup_iff.mp (by rw [hp]; rfl)
      rw [List.idxOf_append_of_mem (hmem bb p hp), List.idxOf_append_of_mem hbb]
      exact ih hp
    · have hp : p ∈ deps.map (·.1) := mem_of_resolveFrom hmem hu hp
      rw [List.idxOf_append_of_mem hp, List.idxOf_append, if_neg hv]
      exact (List.idxOf_lt_length_iff.mpr hp).trans_le (Nat.le_add_left _ _)

theorem nodup_keys : (deps.map (·.1)).Nodup := by
  induction h with
  | start => exact List.nodup_singleton _
  | @record deps u v _ _ _ hv ih =>
    rw [List.map_append, List.map_singleton]
    refine List.nodup_append.mpr ⟨ih, List.nodup_singleton _, fun bb hbb bb' hbb' => ?_⟩
    obtain rfl := List.mem_singleton.mp hbb'
    exact fun he => hv (he ▸ hbb)

-- The induction is on the fuel. Going up, blocks come earlier and earlier among those recorded, so
-- no block comes up twice and the fuel lasts.
theorem resolvesTo_resolveFrom (near : ImmediateBlocks _) (v : b.BlockIx) {fuel : Nat}
    {seen : List b.BlockIx} {parent : b.BlockIx} (hparent : parent ∈ deps.map (·.1))
    (hseen : ∀ bb ∈ seen, (deps.map (·.1)).idxOf parent ≤ (deps.map (·.1)).idxOf bb)
    (hfuel : (deps.map (·.1)).idxOf parent < fuel) :
    ResolvesTo near deps v seen parent (resolveFrom near deps v fuel seen parent) := by
  induction fuel generalizing seen parent with
  | zero => cases hfuel
  | succ fuel ih =>
    rcases resolveFrom_cases near deps v fuel seen parent with
      ⟨hne, heq⟩ | ⟨hnear, ⟨up, hup, hnew, heq⟩ | ⟨hnone, heq⟩⟩
    · exact heq ▸ .branch hne
    · have hlt := h.idxOf_lt hup
      have hup' : up ∈ deps.map (·.1) :=
        List.idxOf_lt_length_iff.mp (hlt.trans_le List.idxOf_le_length)
      rw [heq]
      exact .up hnear hup hnew (ih hup' (List.forall_mem_cons.mpr ⟨le_rfl, fun bb hbb =>
        hlt.le.trans (hseen bb hbb)⟩) (by omega))
    · obtain ⟨d, hd⟩ := Option.isSome_iff_exists.mp (isSome_lookup_iff.mpr hparent)
      cases d with
      | none => exact heq ▸ .entry hnear hd
      | some up => exact absurd (hseen up (hnone up hd)) (not_le.mpr (h.idxOf_lt hd))

theorem resolvesTo_resolve (near : ImmediateBlocks _) {u : b.BlockIx} (hu : u ∈ deps.map (·.1))
    (v : b.BlockIx) : ResolvesTo near deps v [] u (resolve near deps u v) := by
  refine h.resolvesTo_resolveFrom near v hu (fun _ hin => by cases hin) ?_
  have hcard := h.nodup_keys.length_le_card
  rw [Fintype.card_fin] at hcard
  have hidx := List.idxOf_lt_length_iff.mpr hu
  omega

theorem start_mem : start ∈ deps.map (·.1) := by
  induction h with
  | start => exact List.mem_singleton_self _
  | record _ _ _ _ ih =>
    rw [List.map_append]
    exact List.mem_append_left _ ih

/-- The blocks recorded are reached through such blocks only. -/
theorem connected {bb : b.BlockIx} (hbb : bb ∈ deps.map (·.1)) :
    Relation.ReflTransGen (fun u v => v ∈ b.nextBlocks u ∧ v ∈ deps.map (·.1)) start bb := by
  induction h generalizing bb with
  | start =>
    obtain rfl := List.mem_singleton.mp hbb
    exact .refl
  | @record deps u v _ hu hv _ ih =>
    rw [List.map_append, List.map_singleton] at hbb ⊢
    have hold {bb : b.BlockIx} (hbb : bb ∈ deps.map (·.1)) :
        Relation.ReflTransGen
          (fun u w => w ∈ b.nextBlocks u ∧ w ∈ deps.map (·.1) ++ [v]) start bb :=
      Relation.ReflTransGen.mono (fun _ _ hstep => ⟨hstep.1, List.mem_append_left _ hstep.2⟩) _ _
        (ih hbb)
    rcases List.mem_append.mp hbb with hbb | hbb
    · exact hold hbb
    · obtain rfl := List.mem_singleton.mp hbb
      exact (hold hu).tail ⟨hv, List.mem_append_right _ (List.mem_singleton_self _)⟩

theorem leads {bb : b.BlockIx} (hbb : bb ∈ deps.map (·.1)) : b.Leads start bb :=
  Relation.ReflTransGen.mono (fun _ _ hstep => hstep.1) _ _ (h.connected hbb)

end Recorded

/-- A way to the exit around `v`: a walk that stays clear of it, and then a path that does. -/
theorem exists_exitPath_around {v p x : b.BlockIx} (hx : x ≠ v)
    (hwalk : Relation.ReflTransGen (fun u w => w ∈ b.nextBlocks u ∧ w ≠ v) x p)
    {path : List b.BlockIx} (hpath : b.ExitPath p path) (hv : v ∉ path) :
    ∃ path, b.ExitPath x path ∧ v ∉ path := by
  induction hwalk using Relation.ReflTransGen.head_induction_on with
  | refl => exact ⟨path, hpath, hv⟩
  | @head x y hstep _ ih =>
    obtain ⟨path, hpath, hv⟩ := ih hstep.2
    refine ⟨x :: path, .step (mem_nextBlocks.mp hstep.1) hpath, ?_⟩
    simpa using ⟨hx.symm, hv⟩

/-- A block that decides whether another one runs has two ways out. -/
theorem ControlDepends.exists_ne {bb p : b.BlockIx} (h : b.ControlDepends bb p) (hne : bb ≠ p) :
    ∃ s ∈ b.nextBlocks p, ∃ t ∈ b.nextBlocks p, s ≠ t := by
  obtain ⟨⟨s, hs, hdom⟩, hundecided⟩ := h
  have hdom : b.PostDominates bb s := hdom.elim (fun he => he ▸ .refl bb) id
  refine ⟨s, hs, ?_⟩
  by_contra hone
  simp only [not_exists, not_and, not_not] at hone
  refine hundecided ⟨hne, fun path hpath => ?_⟩
  cases hpath with
  | leave hexit => exact absurd hexit (exit_notMem_neighbours hs)
  | step hnext hrest =>
    obtain rfl := hone _ (mem_nextBlocks.mpr hnext)
    exact List.mem_cons_of_mem _ (hdom _ hrest)

/-- Going up from a block to what it depends on: if the nearest post-dominator of the block
post-dominates the branch as well, it is the nearest one of the branch. -/
theorem ControlDepends.nearest {v parent up : b.BlockIx} (hdep : b.ControlDepends parent up)
    (hnear : b.Nearest v parent) (hexit : b.CanExit up)
    (hnext : ∀ s ∈ b.nextBlocks up, b.CanExit s) (hv : v ≠ up) (hdom : b.PostDominates v up) :
    b.Nearest v up := by
  obtain ⟨⟨s, hs, hparent⟩, hundecided⟩ := hdep
  have hparent : b.PostDominates parent s := hparent.elim (fun he => he ▸ .refl parent) id
  refine ⟨hexit, hv, hdom, fun r hr hrdom => ?_⟩
  rcases (hrdom.of_next hr hs).total hparent (hnext s hs) with hrp | hpr
  · by_cases he : r = parent
    · exact absurd ⟨he ▸ hr, he ▸ hrdom⟩ hundecided
    · exact hnear.first r he hrp
  · have he : parent ≠ up := by
      rintro rfl
      exact hr (hrdom.antisymm hpr hexit)
    exact absurd ⟨he, hpr.trans hrdom⟩ hundecided

/-- The dependence of a block is right: none if the block runs whenever the function does, else a
branch that decides. -/
def Explains (b : Body) (start bb : b.BlockIx) : Option b.BlockIx → Prop
  | none => bb = start ∨ b.PostDominates bb start
  | some p => b.ControlDepends bb p ∧ ¬ (bb = start ∨ b.PostDominates bb start)

namespace Recorded

variable {deps : Dependences b.func.blocks.size} (h : b.Recorded start deps)
  (hexit : ∀ bb, b.Leads start bb → b.CanExit bb)
include h hexit

/-- By induction on the way up: the block stays one that all ways from some successor pass. -/
theorem explains_of_resolvesTo (hdeps : ∀ bb d, deps.lookup bb = some d → b.Explains start bb d)
    {v : b.BlockIx} (hv : v ∉ deps.map (·.1)) {seen : List b.BlockIx} {parent : b.BlockIx}
    {d : Option b.BlockIx} (hresolves : ResolvesTo b.immediate deps v seen parent d)
    (hparent : parent ∈ deps.map (·.1))
    (hbranch : ∃ s ∈ b.nextBlocks parent, b.PostDominates v s)
    (hnear : b.PostDominates v parent → b.Nearest v parent) : b.Explains start v d := by
  induction hresolves with
  | @branch _ parent hne =>
    have hundecided : ¬ b.PostDominates v parent :=
      fun hdom => hne (get_immediate.mpr (hnear hdom))
    refine ⟨⟨hbranch.imp fun s hs => ⟨hs.1, .inr hs.2⟩, fun hdom => hundecided hdom.2⟩, ?_⟩
    rintro (rfl | hstart)
    · exact hv h.start_mem
    · obtain ⟨path, hpath, hclear⟩ : ∃ path, b.ExitPath parent path ∧ v ∉ path := by
        simpa [PostDominates] using hundecided
      have hwalk : Relation.ReflTransGen (fun u w => w ∈ b.nextBlocks u ∧ w ≠ v) start parent :=
        Relation.ReflTransGen.mono (fun _ _ hstep => ⟨hstep.1, fun he => hv (he ▸ hstep.2)⟩) _ _
          (h.connected hparent)
      have hne : start ≠ v := fun he => hv (he ▸ h.start_mem)
      obtain ⟨path, hpath, hclear⟩ := exists_exitPath_around hne hwalk hpath hclear
      exact hclear (hstart path hpath)
  | @entry _ parent hnearest hd =>
    have hnearest : b.Nearest v parent := get_immediate.mp hnearest
    rcases hdeps parent none hd with rfl | hdom
    · exact .inr hnearest.dominates
    · exact .inr (hnearest.dominates.trans hdom)
  | @up _ parent up _ hnearest hup _ _ ih =>
    have hnearest : b.Nearest v parent := get_immediate.mp hnearest
    have hup' : up ∈ deps.map (·.1) :=
      List.idxOf_lt_length_iff.mp ((h.idxOf_lt hup).trans_le List.idxOf_le_length)
    have hdep := (hdeps parent (some up) hup).1
    have hreach (s : b.BlockIx) (hs : s ∈ b.nextBlocks up) : b.CanExit s :=
      hexit s ((h.leads hup').tail hs)
    refine ih hup' ?_ fun hdom => ?_
    · obtain ⟨s, hs, hparent⟩ := hdep.1
      refine ⟨s, hs, hnearest.dominates.trans ?_⟩
      exact hparent.elim (fun he => he ▸ .refl parent) id
    · exact hdep.nearest hnearest (hexit up (h.leads hup')) hreach
        (fun he => hv (he ▸ hup')) hdom

theorem explains {bb : b.BlockIx} {d : Option b.BlockIx} (hd : deps.lookup bb = some d) :
    b.Explains start bb d := by
  induction h generalizing bb d with
  | start =>
    obtain hd | ⟨-, rfl, rfl⟩ := lookup_append_singleton (l := []).mp hd
    · cases hd
    · exact .inl rfl
  | @record deps u v hrec hu hv hnew ih =>
    rcases lookup_append_singleton.mp hd with hd | ⟨-, rfl, rfl⟩
    · exact ih hd
    · exact hrec.explains_of_resolvesTo hexit (fun _ _ => ih) hnew
        (hrec.resolvesTo_resolve b.immediate hu _) hu ⟨_, hv, .refl _⟩
        fun hdom => nearest_of_next (hexit u (hrec.leads hu)) hv (fun he => hnew (he ▸ hu)) hdom

end Recorded

/-- Control dependence is the classical one wherever the exit can be reached. A block that control
may come to depends on nothing just if it is the entry or post-dominates it, and else on a block
that decides whether it runs, which is another block with at least two ways out. That holds in
whatever order the edges are examined, and in particular in the order of the analysis. -/
theorem dependences_are_classical (b : Body) {start : b.BlockIx}
    (hstart : b.entryBlock? = some start) (hexit : ∀ bb, b.Leads start bb → b.CanExit bb) :
    (b.Examines start (b.examined start) ∧
      b.dependences = b.dependencesAlong start (b.examined start)) ∧
    ∀ edges, b.Examines start edges → ∀ bb, b.Leads start bb →
      ((b.dependencesAlong start edges).controlling? bb = none ↔
        bb = start ∨ b.PostDominates bb start) ∧
      ∀ p, (b.dependencesAlong start edges).controlling? bb = some p →
        b.ControlDepends bb p ∧ p ≠ bb ∧
          ∃ s ∈ b.nextBlocks p, ∃ t ∈ b.nextBlocks p, s ≠ t := by
  refine ⟨⟨examines_examined b start, dependences_eq hstart⟩, fun edges hedges bb hbb => ?_⟩
  obtain ⟨hrec, hkeys⟩ := recorded_foldl (fun edge hedge => ((hedges.mem_iff _ _).mp hedge).2)
    hedges.entered
  have hmem : bb ∈ (edges.foldl (recordEdge b.immediate) [(start, none)]).map (·.1) := by
    refine (hkeys bb).mpr ?_
    cases hbb with
    | refl => exact .inl rfl
    | tail hu hv => exact .inr (List.mem_map.mpr ⟨_, (hedges.mem_iff _ _).mpr ⟨hu, hv⟩, rfl⟩)
  obtain ⟨d, hd⟩ := Option.isSome_iff_exists.mp (isSome_lookup_iff.mpr hmem)
  have hcontrolling : (b.dependencesAlong start edges).controlling? bb = d := by
    rw [Dependences.controlling?, dependencesAlong, List.lookup_append, hd]
    rfl
  have hexplains := hrec.explains hexit hd
  rw [hcontrolling]
  cases d with
  | none => exact ⟨iff_of_true rfl hexplains, fun p hp => by cases hp⟩
  | some p =>
    refine ⟨iff_of_false (by simp) hexplains.2, fun q hq => ?_⟩
    obtain rfl := Option.some.inj hq
    have hne : p ≠ bb := by
      rintro rfl
      exact lt_irrefl _ (hrec.idxOf_lt hd)
    exact ⟨hexplains.1, hne, hexplains.1.exists_ne hne.symm⟩

end Body

/-- A loop whose body has a branch with a join. Only the head of the loop decides whether the join
runs. -/
def joining : Func where
  name := "f"
  params := ["c", "d", "e"]
  blocks := #[⟨"entry", [0]⟩, ⟨"head", [1]⟩, ⟨"test", [2]⟩, ⟨"then", [3]⟩, ⟨"join", [4]⟩,
    ⟨"exit", [5]⟩]
  insts := #[⟨none, 0, .condBr (.arg 0) 1 5⟩, ⟨none, 1, .condBr (.arg 1) 2 5⟩,
    ⟨none, 2, .condBr (.arg 2) 3 4⟩, ⟨none, 3, .br 4⟩, ⟨none, 4, .br 1⟩, ⟨none, 5, .ret none⟩]

def joiningBody : Body := ⟨joining, by decide +kernel⟩

theorem join_depends_on_loop :
    ∃ entry join head : joiningBody.BlockIx, entry.val = 0 ∧ join.val = 4 ∧ head.val = 1 ∧
      joiningBody.entryBlock? = some entry ∧
      (∀ bb, joiningBody.Leads entry bb → joiningBody.CanExit bb) ∧ joiningBody.Leads entry join ∧
      joiningBody.dependences.controlling? join = some head ∧
      joiningBody.ControlDepends join head ∧ ¬ joiningBody.PostDominates join entry := by
  have hstart : joiningBody.entryBlock? = some ⟨0, by decide⟩ := by decide +kernel
  have hleft : ∀ bb, bb ∈ joiningBody.graph.leavingOrder := by decide +kernel
  have hexit (bb : joiningBody.BlockIx) : joiningBody.CanExit bb :=
    Body.mem_leavingOrder.mp (hleft bb)
  have hhead : ⟨1, by decide⟩ ∈ joiningBody.nextBlocks ⟨0, by decide⟩ := by decide +kernel
  have htest : ⟨2, by decide⟩ ∈ joiningBody.nextBlocks ⟨1, by decide⟩ := by decide +kernel
  have hjoin : ⟨4, by decide⟩ ∈ joiningBody.nextBlocks ⟨2, by decide⟩ := by decide +kernel
  have hleads : joiningBody.Leads ⟨0, by decide⟩ ⟨4, by decide⟩ :=
    ((Relation.ReflTransGen.single hhead).tail htest).tail hjoin
  have hdep : joiningBody.dependences.controlling? ⟨4, by decide⟩ = some ⟨1, by decide⟩ := by
    decide +kernel
  obtain ⟨⟨hexamines, heq⟩, hall⟩ :=
    Body.dependences_are_classical joiningBody hstart fun bb _ => hexit bb
  obtain ⟨hnone, hsome⟩ := hall _ hexamines _ hleads
  rw [← heq, hdep] at hnone hsome
  exact ⟨_, _, _, rfl, rfl, rfl, hstart, fun bb _ => hexit bb, hleads, hdep, (hsome _ rfl).1,
    fun h => by simpa using hnone.mpr (.inr h)⟩

end LockUsage
