import LockUsage.Proofs.ControlDependence
import LockUsage.Proofs.PairSearch
import Mathlib.Data.List.ProdSigma

/-! The pairs that the search finds against walks of blocks. An acquire is paired just if some walk
from the entry block passes it and comes to a release before anything else is done to the lock. The
search takes a block up once for each acquire that may wait there, so it ends on every graph, and no
such walk is missed. -/

namespace LockUsage.Body

variable {b : Body} {op : b.InstIx → Option LockOp}

/-- A walk from the entry block that passed some blocks and stands before another one. -/
inductive BlockWalk (b : Body) : List b.BlockIx → b.BlockIx → Prop
  | start {bb} : b.entryBlock? = some bb → BlockWalk b [] bb
  | step {walk bb next} : BlockWalk b walk bb → next ∈ b.successors bb →
      BlockWalk b (walk ++ [bb]) next

/-- The instructions of the blocks, in the order in which they are passed. -/
def executed (b : Body) (walk : List b.BlockIx) : List b.InstIx := walk.flatMap b.listed

/-- Some walk passes an acquire and later a release, and in between nothing is done to the lock. -/
def ReleasedBy (op : b.InstIx → Option LockOp) (a r : b.InstIx) : Prop :=
  ∃ walk bb before between after, b.BlockWalk walk bb ∧
    b.executed (walk ++ [bb]) = before ++ a :: between ++ r :: after ∧
    op a = some .acquire ∧ op r = some .release ∧ ∀ i ∈ between, op i = none

section Waiting

/-- The acquire that waits for a release after an instruction. -/
def passLast (op : b.InstIx → Option LockOp) (last : Option b.InstIx) (i : b.InstIx) :
    Option b.InstIx :=
  match op i with
  | some .acquire => some i
  | some .release => none
  | none => last

variable {a r i : b.InstIx} {last : Option b.InstIx} {insts : List b.InstIx}

theorem foldl_passLast_of_none (h : ∀ i ∈ insts, op i = none) :
    insts.foldl (passLast op) last = last :=
  List.foldlRecOn (motive := (· = last)) insts _ rfl fun _ heq i hi => by
    rw [passLast, h i hi, heq]

/-- An acquire waits if nothing was done to the lock since. -/
theorem foldl_passLast_eq_some : insts.foldl (passLast op) none = some a ↔
    ∃ before between, insts = before ++ a :: between ∧ op a = some .acquire ∧
      ∀ i ∈ between, op i = none := by
  constructor
  · intro h
    induction insts using List.reverseRecOn with
    | nil => cases h
    | append_singleton insts i ih =>
      rw [List.foldl_append, List.foldl_cons, List.foldl_nil, passLast] at h
      split at h
      · next hop =>
        obtain rfl := Option.some.inj h
        exact ⟨insts, [], rfl, hop, by simp⟩
      · cases h
      · next hop =>
        obtain ⟨before, between, rfl, ha, hnone⟩ := ih h
        refine ⟨before, between ++ [i], by simp, ha, ?_⟩
        exact List.forall_mem_append.mpr ⟨hnone, List.forall_mem_singleton.mpr hop⟩
  · rintro ⟨before, between, rfl, ha, hnone⟩
    rw [List.foldl_append, List.foldl_cons, foldl_passLast_of_none hnone, passLast, ha]

/-- Among instructions that are passed while an acquire may wait already, a release ends the wait
of an acquire. -/
def Completes (op : b.InstIx → Option LockOp) (last : Option b.InstIx) (insts : List b.InstIx)
    (a r : b.InstIx) : Prop :=
  ∃ before after, insts = before ++ r :: after ∧ op r = some .release ∧
    before.foldl (passLast op) last = some a

theorem not_completes_nil : ¬ Completes op last [] a r := by
  rintro ⟨before, after, h, -⟩
  simp at h

theorem completes_cons : Completes op last (i :: insts) a r ↔
    (r = i ∧ op i = some .release ∧ last = some a) ∨
      Completes op (passLast op last i) insts a r := by
  constructor
  · rintro ⟨before, after, heq, hr, hlast⟩
    cases before with
    | nil =>
      obtain ⟨rfl, -⟩ := List.cons.inj heq
      exact .inl ⟨rfl, hr, hlast⟩
    | cons j before =>
      obtain ⟨rfl, rfl⟩ := List.cons.inj heq
      exact .inr ⟨before, after, rfl, hr, hlast⟩
  · rintro (⟨rfl, hr, hlast⟩ | ⟨before, after, rfl, hr, hlast⟩)
    · exact ⟨[], insts, rfl, hr, hlast⟩
    · exact ⟨i :: before, after, rfl, hr, hlast⟩

theorem completes_append {before : List b.InstIx} : Completes op last (before ++ insts) a r ↔
    Completes op last before a r ∨ Completes op (before.foldl (passLast op) last) insts a r := by
  induction before generalizing last with
  | nil => simp [not_completes_nil]
  | cons i before ih =>
    rw [List.cons_append, completes_cons, completes_cons, ih, or_assoc, List.foldl_cons]

theorem executed_append_singleton (walk : List b.BlockIx) (bb : b.BlockIx) :
    b.executed (walk ++ [bb]) = b.executed walk ++ b.listed bb := by
  simp [executed]

/-- A release follows an acquire if it ends its wait on some walk. -/
theorem releasedBy_iff : ReleasedBy op a r ↔
    ∃ walk bb, b.BlockWalk walk bb ∧ Completes op none (b.executed (walk ++ [bb])) a r := by
  constructor
  · rintro ⟨walk, bb, before, between, after, hwalk, heq, ha, hr, hnone⟩
    exact ⟨walk, bb, hwalk, before ++ a :: between, after, heq, hr,
      foldl_passLast_eq_some.mpr ⟨before, between, rfl, ha, hnone⟩⟩
  · rintro ⟨walk, bb, hwalk, passed, after, heq, hr, hlast⟩
    obtain ⟨before, between, rfl, ha, hnone⟩ := foldl_passLast_eq_some.mp hlast
    exact ⟨walk, bb, before, between, after, hwalk, heq, ha, hr, hnone⟩

theorem last_passInst (s : b.PairState) :
    (b.passInst op s i).last = passLast op s.last i := by
  obtain ⟨last, pairs⟩ := s
  rw [passInst, passLast]
  cases op i with
  | none => rfl
  | some o => cases o <;> cases last <;> rfl

theorem last_foldl_passInst (s : b.PairState) (insts : List b.InstIx) :
    (insts.foldl (b.passInst op) s).last = insts.foldl (passLast op) s.last := by
  induction insts generalizing s with
  | nil => rfl
  | cons i insts ih => rw [List.foldl_cons, List.foldl_cons, ih, last_passInst]

theorem pairs_subset_passInst (s : b.PairState) (i : b.InstIx) :
    s.pairs ⊆ (b.passInst op s i).pairs := by
  rw [passInst]
  split
  · exact List.Subset.refl _
  · dsimp only
    split_ifs
    · exact List.Subset.refl _
    · exact List.subset_append_left _ _
  · exact List.Subset.refl _

theorem mem_pairs_passInst {s : b.PairState} {pair : b.LockPair}
    (h : pair ∈ (b.passInst op s i).pairs) : pair ∈ s.pairs ∨
      (pair.release = i ∧ op i = some .release ∧ s.last = some pair.acquire) := by
  rw [passInst] at h
  split at h
  · exact .inl h
  · next a hop hlast =>
    dsimp only at h
    split_ifs at h
    · exact .inl h
    · refine (List.mem_append.mp h).imp_right fun hpair => ?_
      obtain rfl := List.mem_singleton.mp hpair
      exact ⟨rfl, hop, hlast⟩
  · exact .inl h

/-- A release gives the waiting acquire a pair, if it had none. -/
theorem acquire_mem_passInst {s : b.PairState} (hop : op i = some .release)
    (hlast : s.last = some a) : a ∈ (b.passInst op s i).pairs.map (·.acquire) := by
  obtain ⟨last, pairs⟩ := s
  obtain rfl : last = some a := hlast
  simp only [passInst, hop]
  split_ifs with hany
  · obtain ⟨pair, hpair, heq⟩ := List.any_eq_true.mp hany
    exact List.mem_map.mpr ⟨pair, hpair, beq_iff_eq.mp heq⟩
  · simp

theorem pairs_subset_foldl (s : b.PairState) (insts : List b.InstIx) :
    s.pairs ⊆ (insts.foldl (b.passInst op) s).pairs :=
  List.foldlRecOn (motive := fun t : b.PairState => s.pairs ⊆ t.pairs) insts _
    (List.Subset.refl _) fun t ht i _ => List.Subset.trans ht (pairs_subset_passInst t i)

theorem mem_pairs_foldl {s : b.PairState} {pair : b.LockPair}
    (h : pair ∈ (insts.foldl (b.passInst op) s).pairs) :
    pair ∈ s.pairs ∨ Completes op s.last insts pair.acquire pair.release := by
  induction insts generalizing s with
  | nil => exact .inl h
  | cons i insts ih =>
    rw [completes_cons]
    rcases ih h with h | h
    · exact (mem_pairs_passInst h).imp_right .inl
    · exact .inr (.inr (last_passInst s ▸ h))

theorem acquire_mem_foldl {s : b.PairState} (h : Completes op s.last insts a r) :
    a ∈ (insts.foldl (b.passInst op) s).pairs.map (·.acquire) := by
  induction insts generalizing s with
  | nil => exact absurd h not_completes_nil
  | cons i insts ih =>
    rcases completes_cons.mp h with ⟨-, hop, hlast⟩ | h
    · exact List.map_subset _ (pairs_subset_foldl _ insts) (acquire_mem_passInst hop hlast)
    · exact ih (s := b.passInst op s i) (last_passInst s ▸ h)

end Waiting

section Search

/-- Where the search stands: with which acquires each block was passed, what is to be taken up, and
the pairs found. -/
structure Search (b : Body) where
  passed : b.Passed
  pending : List (b.BlockIx × Option b.InstIx)
  pairs : List b.LockPair

/-- The entry block is to be taken up, with no acquire waiting. -/
def Search.start (b : Body) : b.Search :=
  ⟨Vector.replicate _ [], (b.entryBlock?.map (·, none)).toList, []⟩

/-- A block is taken up. It is passed unless it was passed before with the same acquire waiting. -/
inductive SearchStep (op : b.InstIx → Option LockOp) : b.Search → b.Search → Prop
  | skip {passed : b.Passed} {bb last pending pairs} : last ∈ passed.get bb →
      SearchStep op ⟨passed, (bb, last) :: pending, pairs⟩ ⟨passed, pending, pairs⟩
  | pass {passed : b.Passed} {bb last pending pairs} : last ∉ passed.get bb →
      SearchStep op ⟨passed, (bb, last) :: pending, pairs⟩
        ⟨passed.set bb.val (last :: passed.get bb) bb.isLt,
          (b.successors bb).map (·, (b.passBlock op ⟨last, pairs⟩ bb).last) ++ pending,
          (b.passBlock op ⟨last, pairs⟩ bb).pairs⟩

/-- So many steps, one after the other. -/
inductive SearchRun (op : b.InstIx → Option LockOp) : Nat → b.Search → b.Search → Prop
  | done (s : b.Search) : SearchRun op 0 s s
  | step {n : Nat} {s t u : b.Search} : SearchStep op s t → SearchRun op n t u →
      SearchRun op (n + 1) s u

/-- The pairs that a search goes on to find with some fuel. -/
def Search.found (op : b.InstIx → Option LockOp) (fuel : Nat) (s : b.Search) : List b.LockPair :=
  b.pairsFrom op fuel s.passed s.pending s.pairs

theorem found_of_step {s t : b.Search} (h : SearchStep op s t) (fuel : Nat) :
    s.found op (fuel + 1) = t.found op fuel := by
  cases h with
  | skip hin => exact if_pos hin
  | pass hnew => exact if_neg hnew

theorem found_of_pending_eq_nil {s : b.Search} (h : s.pending = []) (fuel : Nat) :
    s.found op fuel = s.pairs := by
  obtain ⟨passed, pending, pairs⟩ := s
  obtain rfl : pending = [] := h
  cases fuel <;> rfl

theorem exists_step {s : b.Search} (h : s.pending ≠ []) : ∃ t, SearchStep op s t := by
  obtain ⟨passed, pending, pairs⟩ := s
  cases pending with
  | nil => exact absurd rfl h
  | cons item pending =>
    obtain ⟨bb, last⟩ := item
    by_cases hin : last ∈ passed.get bb
    · exact ⟨_, .skip hin⟩
    · exact ⟨_, .pass hin⟩

theorem findPairs_eq_found (op : b.InstIx → Option LockOp) :
    b.findPairs op = (Search.start b).found op b.pairFuel := by
  rw [findPairs, Search.found, Search.start]
  cases b.entryBlock? with
  | none => exact (found_of_pending_eq_nil (s := ⟨_, [], []⟩) rfl _).symm
  | some bb => rfl

theorem get_set (passed : b.Passed) (bb bb' : b.BlockIx) (lasts : List (Option b.InstIx)) :
    (passed.set bb.val lasts bb.isLt).get bb' = if bb = bb' then lasts else passed.get bb' :=
  (Vector.getElem_set bb.isLt bb'.isLt).trans (by simp only [Fin.val_inj]; rfl)

/-- A block with the acquire that may wait there, or none. -/
def waits (b : Body) : List (b.BlockIx × Option b.InstIx) :=
  b.blocks ×ˢ (none :: b.insts.map some)

theorem mem_waits (item : b.BlockIx × Option b.InstIx) : item ∈ b.waits := by
  obtain ⟨bb, last⟩ := item
  refine List.pair_mem_product.mpr ⟨List.mem_finRange bb, ?_⟩
  cases last with
  | none => exact List.mem_cons_self
  | some i => exact List.mem_cons_of_mem _ (List.mem_map_of_mem (List.mem_finRange i))

theorem nodup_waits (b : Body) : b.waits.Nodup := by
  refine List.Nodup.product (List.nodup_finRange _) (List.nodup_cons.mpr ⟨by simp, ?_⟩)
  exact (List.nodup_finRange _).map (Option.some_injective _)

/-- The number of successors of blocks for each acquire with which they are still to be passed. -/
def waysLeft (b : Body) (passed : b.Passed) : Nat :=
  ((b.waits.filter fun item => !(passed.get item.1).contains item.2).flatMap
    fun item => b.successors item.1).length

theorem waysLeft_of_not_mem {passed : b.Passed} {bb : b.BlockIx} {last : Option b.InstIx}
    (h : last ∉ passed.get bb) : b.waysLeft passed = (b.successors bb).length +
      b.waysLeft (passed.set bb.val (last :: passed.get bb) bb.isLt) := by
  have hcount := length_flatMap_filter (nodup_waits b)
    (p := fun item => !(passed.get item.1).contains item.2) (mem_waits (bb, last))
    (by simpa using h) (f := fun item => b.successors item.1)
  have hrest : b.waits.filter (fun item => item != (bb, last) &&
        !(passed.get item.1).contains item.2) = b.waits.filter fun item =>
      !((passed.set bb.val (last :: passed.get bb) bb.isLt).get item.1).contains item.2 := by
    refine List.filter_congr fun item _ => ?_
    obtain ⟨bb', last'⟩ := item
    rw [get_set]
    by_cases hbb : bb = bb'
    · subst hbb
      simp [bne, beq_eq_decide]
    · simp [hbb, Ne.symm hbb]
  rw [hrest] at hcount
  exact hcount

/-- A bound on the steps still to be taken. -/
def Search.left (s : b.Search) : Nat := s.pending.length + b.waysLeft s.passed

theorem left_lt_of_step {s t : b.Search} (h : SearchStep op s t) : t.left < s.left := by
  cases h with
  | skip hin =>
    simp only [Search.left, List.length_cons]
    omega
  | pass hnew =>
    simp only [Search.left, List.length_cons, List.length_append, List.length_map,
      waysLeft_of_not_mem hnew]
    omega

theorem length_flatMap_product (f : b.BlockIx → List β) (bbs : List b.BlockIx)
    (lasts : List (Option b.InstIx)) : ((bbs ×ˢ lasts).flatMap fun item => f item.1).length =
      lasts.length * (bbs.flatMap f).length := by
  induction bbs with
  | nil => rfl
  | cons bb bbs ih =>
    have hfirst : ((lasts.map (bb, ·)).flatMap fun item => f item.1).length =
        lasts.length * (f bb).length := by
      rw [List.flatMap_map]
      dsimp only
      rw [List.length_flatMap, List.map_const', List.sum_replicate_nat]
    rw [List.product_cons, List.flatMap_append, List.flatMap_cons, List.length_append,
      List.length_append, ih, hfirst, Nat.mul_add]

theorem left_start_le (b : Body) : (Search.start b).left ≤ b.pairFuel := by
  have hpending : (Search.start b).pending.length ≤ 1 := by
    rw [Search.start]
    cases b.entryBlock? <;> simp
  have hnone (bb : b.BlockIx) : (Search.start b).passed.get bb = [] :=
    Vector.getElem_replicate bb.isLt
  have hways : b.waysLeft (Search.start b).passed =
      (b.func.insts.size + 1) * (b.blocks.flatMap b.successors).length := by
    have hall : b.waits.filter (fun item =>
        !((Search.start b).passed.get item.1).contains item.2) = b.waits :=
      List.filter_eq_self.mpr fun item _ => by rw [hnone]; rfl
    rw [waysLeft, hall, waits, length_flatMap_product]
    simp [insts]
  rw [Search.left, hways, pairFuel]
  omega

/-- The search ends with nothing pending, and the fuel is enough for it. -/
theorem exists_run (op : b.InstIx → Option LockOp) (fuel : Nat) (s : b.Search)
    (hfuel : s.left ≤ fuel) :
    ∃ n ≤ fuel, ∃ t, SearchRun op n s t ∧ t.pending = [] ∧ t.pairs = s.found op fuel := by
  induction fuel generalizing s with
  | zero =>
    have hnil : s.pending = [] := by
      rw [Search.left] at hfuel
      exact List.length_eq_zero_iff.mp (by omega)
    exact ⟨0, le_rfl, s, .done s, hnil, (found_of_pending_eq_nil hnil 0).symm⟩
  | succ fuel ih =>
    by_cases hnil : s.pending = []
    · exact ⟨0, Nat.zero_le _, s, .done s, hnil, (found_of_pending_eq_nil hnil _).symm⟩
    · obtain ⟨t, hstep⟩ : ∃ t, SearchStep op s t := exists_step hnil
      have hlt := left_lt_of_step hstep
      obtain ⟨n, hn, u, hrun, hpending, hpairs⟩ := ih t (by omega)
      exact ⟨n + 1, by omega, u, .step hstep hrun, hpending,
        hpairs.trans (found_of_step hstep fuel).symm⟩

section Exact

variable {s t : b.Search} {bb : b.BlockIx}

theorem mem_get_set {passed : b.Passed} {last last' : Option b.InstIx} {bb' : b.BlockIx} :
    last' ∈ (passed.set bb.val (last :: passed.get bb) bb.isLt).get bb' ↔
      (bb', last') = (bb, last) ∨ last' ∈ passed.get bb' := by
  rw [get_set]
  by_cases h : bb = bb'
  · subst h
    simp
  · simp [h, Ne.symm h]

/-- The block is to be taken up with the acquire waiting, or was passed with it. -/
def Search.Knows (s : b.Search) (item : b.BlockIx × Option b.InstIx) : Prop :=
  item ∈ s.pending ∨ item.2 ∈ s.passed.get item.1

theorem SearchStep.knows (h : SearchStep op s t) {item : b.BlockIx × Option b.InstIx}
    (hitem : s.Knows item) : t.Knows item := by
  cases h with
  | skip hin =>
    rcases hitem with hitem | hitem
    · rcases List.mem_cons.mp hitem with rfl | hitem
      · exact .inr hin
      · exact .inl hitem
    · exact .inr hitem
  | pass hnew =>
    rcases hitem with hitem | hitem
    · rcases List.mem_cons.mp hitem with rfl | hitem
      · exact .inr (mem_get_set.mpr (.inl rfl))
      · exact .inl (List.mem_append_right _ hitem)
    · exact .inr (mem_get_set.mpr (.inr hitem))

/-- What is to be taken up stands at the end of a walk, and every pair on one. What was passed has
its acquires paired and its successors known. -/
structure Searched (op : b.InstIx → Option LockOp) (s : b.Search) : Prop where
  arrives : ∀ item ∈ s.pending, ∃ walk, b.BlockWalk walk item.1 ∧
    (b.executed walk).foldl (passLast op) none = item.2
  released : ∀ pair ∈ s.pairs, ReleasedBy op pair.acquire pair.release
  entry : ∀ bb, b.entryBlock? = some bb → s.Knows (bb, none)
  paired : ∀ bb, ∀ last ∈ s.passed.get bb, ∀ a r, Completes op last (b.listed bb) a r →
    a ∈ s.pairs.map (·.acquire)
  next : ∀ bb, ∀ last ∈ s.passed.get bb, ∀ succ ∈ b.successors bb,
    s.Knows (succ, (b.listed bb).foldl (passLast op) last)

theorem searched_start (op : b.InstIx → Option LockOp) : Searched op (Search.start b) := by
  have hnone (bb : b.BlockIx) (last : Option b.InstIx) :
      last ∉ (Search.start b).passed.get bb := by
    have hget : (Search.start b).passed.get bb = [] := Vector.getElem_replicate bb.isLt
    simp [hget]
  have hpending (item : b.BlockIx × Option b.InstIx) : item ∈ (Search.start b).pending ↔
      ∃ bb, b.entryBlock? = some bb ∧ (bb, none) = item := by
    simp [Search.start]
  refine ⟨fun item hitem => ?_, fun pair hpair => ?_, fun bb hbb => ?_, fun bb last hlast => ?_,
    fun bb last hlast => ?_⟩
  · obtain ⟨bb, hbb, rfl⟩ := (hpending item).mp hitem
    exact ⟨[], .start hbb, rfl⟩
  · cases hpair
  · exact .inl ((hpending _).mpr ⟨bb, hbb, rfl⟩)
  · exact absurd hlast (hnone bb last)
  · exact absurd hlast (hnone bb last)

theorem Searched.step (h : Searched op s) (hstep : SearchStep op s t) : Searched op t := by
  have hentry (bb : b.BlockIx) (hbb : b.entryBlock? = some bb) : t.Knows (bb, none) :=
    hstep.knows (h.entry bb hbb)
  have hnext (bb : b.BlockIx) (last : Option b.InstIx) (hlast : last ∈ s.passed.get bb)
      (succ : b.BlockIx) (hsucc : succ ∈ b.successors bb) :
      t.Knows (succ, (b.listed bb).foldl (passLast op) last) :=
    hstep.knows (h.next bb last hlast succ hsucc)
  cases hstep with
  | skip hin =>
    exact ⟨fun item hitem => h.arrives item (List.mem_cons_of_mem _ hitem), h.released, hentry,
      h.paired, hnext⟩
  | @pass passed bb last pending pairs hnew =>
    obtain ⟨walk, hwalk, hlast⟩ := h.arrives _ List.mem_cons_self
    dsimp only at hwalk hlast
    have hafter : (b.passBlock op ⟨last, pairs⟩ bb).last =
        (b.listed bb).foldl (passLast op) last := last_foldl_passInst _ _
    refine ⟨?_, fun pair hpair => ?_, hentry, fun bb' last' hpassed a r hcomp => ?_,
      fun bb' last' hpassed succ hsucc => ?_⟩
    · refine List.forall_mem_append.mpr ⟨fun item hitem => ?_, fun item hitem =>
        h.arrives item (List.mem_cons_of_mem _ hitem)⟩
      obtain ⟨succ, hsucc, rfl⟩ := List.mem_map.mp hitem
      refine ⟨walk ++ [bb], hwalk.step hsucc, ?_⟩
      rw [executed_append_singleton, List.foldl_append, hlast, hafter]
    · rcases mem_pairs_foldl hpair with hpair | hcomp
      · exact h.released pair hpair
      · refine releasedBy_iff.mpr ⟨walk, bb, hwalk, ?_⟩
        rw [executed_append_singleton, completes_append, hlast]
        exact .inr hcomp
    · rcases mem_get_set.mp hpassed with heq | hpassed
      · obtain ⟨rfl, rfl⟩ := Prod.mk.inj heq
        exact acquire_mem_foldl hcomp
      · exact List.map_subset _ (pairs_subset_foldl _ _) (h.paired bb' last' hpassed a r hcomp)
    · rcases mem_get_set.mp hpassed with heq | hpassed
      · obtain ⟨rfl, rfl⟩ := Prod.mk.inj heq
        exact .inl (List.mem_append_left _ (List.mem_map.mpr ⟨succ, hsucc, by rw [hafter]⟩))
      · exact hnext bb' last' hpassed succ hsucc

theorem Searched.run {n : Nat} (h : Searched op s) (hrun : SearchRun op n s t) :
    Searched op t := by
  induction hrun with
  | done => exact h
  | step hstep _ ih => exact ih (h.step hstep)

/-- When nothing is left to be taken up, every walk was followed. -/
theorem Searched.mem_passed (h : Searched op s) (hdone : s.pending = []) {walk : List b.BlockIx}
    (hwalk : b.BlockWalk walk bb) :
    (b.executed walk).foldl (passLast op) none ∈ s.passed.get bb := by
  have hpassed {item : b.BlockIx × Option b.InstIx} (hknows : s.Knows item) :
      item.2 ∈ s.passed.get item.1 := hknows.resolve_left (by simp [hdone])
  induction hwalk with
  | start hbb => exact hpassed (h.entry _ hbb)
  | step _ hnext ih =>
    rw [executed_append_singleton, List.foldl_append]
    exact hpassed (h.next _ _ ih _ hnext)

theorem Searched.acquire_mem (h : Searched op s) (hdone : s.pending = []) {a r : b.InstIx}
    {walk : List b.BlockIx} (hwalk : b.BlockWalk walk bb)
    (hcomp : Completes op none (b.executed (walk ++ [bb])) a r) :
    a ∈ s.pairs.map (·.acquire) := by
  induction hwalk with
  | start hbb =>
    refine h.paired _ none (h.mem_passed hdone (.start hbb)) a r ?_
    simpa [executed] using hcomp
  | @step walk bb next hwalk hnext ih =>
    rw [executed_append_singleton, completes_append] at hcomp
    rcases hcomp with hcomp | hcomp
    · exact ih hcomp
    · exact h.paired next _ (h.mem_passed hdone (hwalk.step hnext)) a r hcomp

end Exact

end Search

/-- The pairs are exact. No acquire is in two of them, every pair is made on some walk by an acquire
and the first operation that follows it there, a release, and every acquire that some walk so
releases has a pair. The search ends with nothing left to be taken up, within its fuel. -/
theorem pairs_are_exact (b : Body) (op : b.InstIx → Option LockOp) :
    ((b.findPairs op).map (·.acquire)).Nodup ∧
    (∀ pair ∈ b.findPairs op, ReleasedBy op pair.acquire pair.release) ∧
    (∀ a r, ReleasedBy op a r → a ∈ (b.findPairs op).map (·.acquire)) ∧
    ∃ n ≤ b.pairFuel, ∃ s, SearchRun op n (Search.start b) s ∧ s.pending = [] ∧
      s.pairs = b.findPairs op := by
  obtain ⟨n, hn, s, hrun, hdone, hpairs⟩ := exists_run op b.pairFuel _ (left_start_le b)
  rw [← findPairs_eq_found] at hpairs
  have hs := (searched_start op).run hrun
  refine ⟨(paired_findPairs op).nodup, hpairs ▸ hs.released, fun a r hreleased => ?_,
    n, hn, s, hrun, hdone, hpairs⟩
  obtain ⟨walk, bb, hwalk, hcomp⟩ := releasedBy_iff.mp hreleased
  exact hpairs ▸ hs.acquire_mem hdone hwalk hcomp

end LockUsage.Body
