import LockUsage.Proofs.ControlDependence

/-! Chains of control dependences. A block depends only on blocks that were recorded before it, so
going up from a block comes to an end. That needs no way to the exit: it holds as well where a loop
never ends, where control never comes, and where it comes back to the entry. -/

namespace LockUsage

namespace Body

/-- What a block depends on in so many steps. -/
def Dependences.above (deps : Dependences n) (bb : Fin n) : Nat → Option (Fin n)
  | 0 => some bb
  | steps + 1 => (deps.above bb steps).bind deps.controlling?

variable {b : Body} {start : b.BlockIx}

theorem exists_entryBlock (bb : b.BlockIx) : ∃ start, b.entryBlock? = some start := by
  have hbb : bb ∈ b.blocks := List.mem_finRange bb
  cases hblocks : b.blocks with
  | nil => simp [hblocks] at hbb
  | cons start rest => exact ⟨start, by simp [entryBlock?, hblocks]⟩

/-- When an edge is examined, its source is among the blocks recorded so far. -/
theorem Examines.recorded {edges before after : List (b.BlockIx × b.BlockIx)}
    {edge : b.BlockIx × b.BlockIx} (h : b.Examines start edges)
    (hsplit : edges = before ++ edge :: after) :
    b.Recorded start (before.foldl (recordEdge b.immediate) [(start, none)]) ∧
      edge.1 ∈ (before.foldl (recordEdge b.immediate) [(start, none)]).map (·.1) := by
  have hedge : ∀ e ∈ before, e.2 ∈ b.nextBlocks e.1 := fun e he =>
    ((h.mem_iff _ _).mp (hsplit ▸ List.mem_append_left _ he)).2
  have hentered : ∀ before' e after', before = before' ++ e :: after' →
      e.1 = start ∨ e.1 ∈ before'.map (·.2) := fun before' e after' hbefore =>
    h.entered before' e (after' ++ edge :: after) (by simp [hsplit, hbefore])
  obtain ⟨hrec, hkeys⟩ := recorded_foldl hedge hentered
  exact ⟨hrec, (hkeys edge.1).mpr (h.entered before edge after hsplit)⟩

/-- The blocks that the walk comes to are recorded first, and then the others, which depend on
nothing. -/
theorem exists_recorded (b : Body) (bb : b.BlockIx) : ∃ start deps, b.Recorded start deps ∧
    b.dependences = deps ++ (b.blocks.filter fun bb => (deps.lookup bb).isNone).map (·, none) := by
  obtain ⟨start, hstart⟩ := exists_entryBlock bb
  have hexamines := examines_examined b start
  obtain ⟨hrec, -⟩ := recorded_foldl (fun edge hedge => ((hexamines.mem_iff _ _).mp hedge).2)
    hexamines.entered
  exact ⟨start, _, hrec, dependences_eq hstart⟩

theorem isSome_lookup_dependences (bb : b.BlockIx) : (b.dependences.lookup bb).isSome := by
  obtain ⟨_, deps, -, heq⟩ := b.exists_recorded bb
  rw [heq, isSome_lookup_iff, List.map_append, List.mem_append]
  cases hd : deps.lookup bb with
  | some d => exact .inl (isSome_lookup_iff.mp (by rw [hd]; rfl))
  | none =>
    refine .inr (List.mem_map.mpr ⟨(bb, none), List.mem_map_of_mem ?_, rfl⟩)
    exact List.mem_filter.mpr ⟨List.mem_finRange bb, by rw [hd]; rfl⟩

theorem nodup_keys_dependences (b : Body) : (b.dependences.map (·.1)).Nodup := by
  cases hentry : b.entryBlock? with
  | none => simp [dependences, hentry]
  | some start =>
    obtain ⟨_, deps, hrec, heq⟩ := b.exists_recorded start
    rw [heq, List.map_append, List.map_map, List.nodup_append]
    refine ⟨hrec.nodup_keys, ?_, fun bb hbb bb' hbb' he => ?_⟩
    · exact (List.map_id _).symm ▸ (List.nodup_finRange _).filter _
    · obtain ⟨other, hother, rfl⟩ := List.mem_map.mp hbb'
      have hnone := (List.mem_filter.mp hother).2
      have hsome := isSome_lookup_iff.mpr hbb
      rw [he] at hsome
      simp [Option.isNone_iff_eq_none.mp hnone] at hsome

/-- A block depends only on blocks that stand before it in the table. -/
theorem idxOf_lt_of_controlling? {bb p : b.BlockIx} (h : b.dependences.controlling? bb = some p) :
    (b.dependences.map (·.1)).idxOf p < (b.dependences.map (·.1)).idxOf bb := by
  obtain ⟨_, deps, hrec, heq⟩ := b.exists_recorded bb
  rw [Dependences.controlling?, heq, List.lookup_append, Option.join_eq_some_iff,
    Option.or_eq_some_iff] at h
  rcases h with hp | ⟨-, hp⟩
  · have hlt := hrec.idxOf_lt hp
    have hpin : p ∈ deps.map (·.1) :=
      List.idxOf_lt_length_iff.mp (hlt.trans_le List.idxOf_le_length)
    have hbb : bb ∈ deps.map (·.1) := isSome_lookup_iff.mp (by rw [hp]; rfl)
    rwa [heq, List.map_append, List.idxOf_append_of_mem hpin, List.idxOf_append_of_mem hbb]
  · obtain ⟨_, _, hsplit, -⟩ := List.lookup_eq_some_iff.mp hp
    obtain ⟨_, -, hnone⟩ := List.mem_map.mp (hsplit ▸ List.mem_append_right _ List.mem_cons_self)
    cases hnone

theorem idxOf_add_le_of_above {bb p : b.BlockIx} {steps : Nat}
    (h : b.dependences.above bb steps = some p) :
    (b.dependences.map (·.1)).idxOf p + steps ≤ (b.dependences.map (·.1)).idxOf bb := by
  induction steps generalizing p with
  | zero =>
    obtain rfl := Option.some.inj h
    exact le_rfl
  | succ steps ih =>
    obtain ⟨q, hq, hp⟩ := Option.bind_eq_some_iff.mp h
    have hle := ih hq
    have hlt := idxOf_lt_of_controlling? hp
    omega

theorem above_size (bb : b.BlockIx) : b.dependences.above bb b.func.blocks.size = none := by
  by_contra hne
  obtain ⟨p, hp⟩ := Option.ne_none_iff_exists'.mp hne
  have hle := idxOf_add_le_of_above hp
  have hmem : bb ∈ b.dependences.map (·.1) :=
    isSome_lookup_iff.mp (isSome_lookup_dependences bb)
  have hlt := List.idxOf_lt_length_iff.mpr hmem
  have hcard := b.nodup_keys_dependences.length_le_card
  rw [Fintype.card_fin] at hcard
  omega

/-- Going up along control dependences ends on every graph. Each block is recorded once, none
depends on itself, and after as many steps as there are blocks, if not before, nothing is left to
depend on. Whenever an edge is examined, the search for what its target depends on ends at a branch
or at a block that depends on the entry only: it meets no block twice. -/
theorem dependence_chains_end (b : Body) :
    (∀ bb, (b.dependences.lookup bb).isSome) ∧ (b.dependences.map (·.1)).Nodup ∧
    (∀ bb, b.dependences.controlling? bb ≠ some bb) ∧
    (∀ bb, ∃ steps ≤ b.func.blocks.size, b.dependences.above bb steps = none) ∧
    ∀ start before parent child after, b.examined start = before ++ (parent, child) :: after →
      let deps := before.foldl (recordEdge b.immediate) [(start, none)]
      ResolvesTo b.immediate deps child [] parent (resolve b.immediate deps parent child) := by
  refine ⟨isSome_lookup_dependences, b.nodup_keys_dependences, fun bb hbb => ?_,
    fun bb => ⟨_, le_rfl, above_size bb⟩, fun start before parent child after hsplit => ?_⟩
  · exact lt_irrefl _ (idxOf_lt_of_controlling? hbb)
  · obtain ⟨hrec, hparent⟩ := (examines_examined b start).recorded hsplit
    exact hrec.resolvesTo_resolve b.immediate hparent child

end Body

/-- A loop that starts at the entry. One way out of it leads into a loop without end, and no way
leads to the last block. -/
def wandering : Func where
  name := "f"
  params := ["c", "d"]
  blocks := #[⟨"entry", [0]⟩, ⟨"body", [1]⟩, ⟨"back", [2]⟩, ⟨"exit", [3]⟩, ⟨"spin", [4]⟩,
    ⟨"lost", [5]⟩]
  insts := #[⟨none, 0, .condBr (.arg 0) 1 3⟩, ⟨none, 1, .condBr (.arg 1) 2 4⟩, ⟨none, 2, .br 0⟩,
    ⟨none, 3, .ret none⟩, ⟨none, 4, .br 4⟩, ⟨none, 5, .br 3⟩]

def wanderingBody : Body := ⟨wandering, by decide +kernel⟩

/-- The loop without end depends on the body of the other one, and that on the entry. So does the
way back, as going up from the body shows. -/
theorem wandering_chains_end :
    ∃ entry body back spin lost : wanderingBody.BlockIx,
      wanderingBody.entryBlock? = some entry ∧ entry ∈ wanderingBody.nextBlocks back ∧
      ¬ wanderingBody.CanExit spin ∧ (∀ bb, lost ∉ wanderingBody.nextBlocks bb) ∧
      wanderingBody.dependences.above spin 2 = some entry ∧
      (∃ steps ≤ 6, wanderingBody.dependences.above spin steps = none) ∧
      (wanderingBody.dependences.lookup lost).isSome ∧
      ∃ before after, wanderingBody.examined entry = before ++ (body, back) :: after ∧
        Body.ResolvesTo wanderingBody.immediate
          (before.foldl (Body.recordEdge wanderingBody.immediate) [(entry, none)]) back [] body
          (some entry) := by
  obtain ⟨hsome, -, -, hends, hresolves⟩ := Body.dependence_chains_end wanderingBody
  let entry : wanderingBody.BlockIx := ⟨0, by decide⟩
  let body : wanderingBody.BlockIx := ⟨1, by decide⟩
  let back : wanderingBody.BlockIx := ⟨2, by decide⟩
  let before := (wanderingBody.examined entry).takeWhile (· ≠ (body, back))
  let after := ((wanderingBody.examined entry).dropWhile (· ≠ (body, back))).tail
  have hsplit : wanderingBody.examined entry = before ++ (body, back) :: after := by decide +kernel
  have hup : Body.resolve wanderingBody.immediate
      (before.foldl (Body.recordEdge wanderingBody.immediate) [(entry, none)]) body back =
        some entry := by
    decide +kernel
  have hspin : (⟨4, by decide⟩ : wanderingBody.BlockIx) ∉ wanderingBody.graph.leavingOrder := by
    decide +kernel
  refine ⟨entry, body, back, ⟨4, by decide⟩, ⟨5, by decide⟩,
    by decide +kernel, by decide +kernel, fun hexit => hspin (Body.mem_leavingOrder.mpr hexit),
    by decide +kernel, by decide +kernel, hends _, hsome _,
    before, after, hsplit, ?_⟩
  exact hup ▸ hresolves entry before body back after hsplit

end LockUsage
