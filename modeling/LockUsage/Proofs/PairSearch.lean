import LockUsage.Usage.Pairs
import Mathlib.Data.List.Nodup
import Mathlib.Data.List.Perm.Subperm

/-! The search for pairs. Whatever way the walk takes, a pair is made of an acquire and a release,
and no acquire is in two pairs. -/

namespace LockUsage.Body

variable {b : Body} {op : b.InstIx → Option LockOp}

/-- The acquire that waits for a release. -/
def Opens (op : b.InstIx → Option LockOp) (last : Option b.InstIx) : Prop :=
  ∀ a, last = some a → op a = some .acquire

structure Paired (op : b.InstIx → Option LockOp) (pairs : List b.LockPair) : Prop where
  acquires : ∀ pair ∈ pairs, op pair.acquire = some .acquire
  releases : ∀ pair ∈ pairs, op pair.release = some .release
  nodup : (pairs.map (·.acquire)).Nodup

theorem Paired.append {pairs : List b.LockPair} (h : Paired op pairs) {pair : b.LockPair}
    (ha : op pair.acquire = some .acquire) (hr : op pair.release = some .release)
    (hnew : ∀ other ∈ pairs, other.acquire ≠ pair.acquire) : Paired op (pairs ++ [pair]) := by
  refine ⟨?_, ?_, ?_⟩
  · exact List.forall_mem_append.mpr ⟨h.acquires, List.forall_mem_singleton.mpr ha⟩
  · exact List.forall_mem_append.mpr ⟨h.releases, List.forall_mem_singleton.mpr hr⟩
  · rw [List.map_append]
    refine h.nodup.append (List.nodup_singleton _) (List.disjoint_singleton.mpr fun hmem => ?_)
    obtain ⟨other, hother, heq⟩ := List.mem_map.mp hmem
    exact hnew other hother heq

theorem paired_passInst {s : b.PairState} (hlast : Opens op s.last) (h : Paired op s.pairs)
    (i : b.InstIx) :
    Opens op (b.passInst op s i).last ∧ Paired op (b.passInst op s i).pairs := by
  rw [passInst]
  split
  · next hop =>
    refine ⟨fun a ha => ?_, h⟩
    obtain rfl := Option.some.inj ha
    exact hop
  · next a hop hopen =>
    refine ⟨fun _ ha => (by cases ha), ?_⟩
    dsimp only
    split_ifs with hany
    · exact h
    · refine h.append (hlast a hopen) hop fun other hother heq => hany ?_
      exact List.any_eq_true.mpr ⟨other, hother, beq_iff_eq.mpr heq⟩
  · exact ⟨hlast, h⟩

theorem paired_passBlock {s : b.PairState} (hlast : Opens op s.last) (h : Paired op s.pairs)
    (bb : b.BlockIx) :
    Opens op (b.passBlock op s bb).last ∧ Paired op (b.passBlock op s bb).pairs :=
  List.foldlRecOn (motive := fun s : b.PairState => Opens op s.last ∧ Paired op s.pairs)
    (b.listed bb) _ ⟨hlast, h⟩ fun _ hs i _ => paired_passInst hs.1 hs.2 i

/-- The invariant of the walk: every block is pending with an acquire, or with none. -/
theorem paired_pairsFrom (fuel : Nat) (passed : b.Passed)
    {pending : List (b.BlockIx × Option b.InstIx)} (hpending : ∀ item ∈ pending, Opens op item.2)
    {pairs : List b.LockPair} (h : Paired op pairs) :
    Paired op (b.pairsFrom op fuel passed pending pairs) := by
  induction fuel generalizing passed pending pairs with
  | zero => exact h
  | succ fuel ih =>
    cases pending with
    | nil => exact h
    | cons next pending =>
      obtain ⟨bb, last⟩ := next
      obtain ⟨hlast, hpending⟩ := List.forall_mem_cons.mp hpending
      by_cases hin : last ∈ passed[bb]
      · exact Eq.mpr (congrArg (Paired op) (if_pos hin)) (ih passed hpending h)
      · refine Eq.mpr (congrArg (Paired op) (if_neg hin)) ?_
        obtain ⟨hopen, hpairs⟩ := paired_passBlock (s := ⟨last, pairs⟩) hlast h bb
        refine ih _ (List.forall_mem_append.mpr ⟨fun item hitem => ?_, hpending⟩) hpairs
        obtain ⟨succ, -, rfl⟩ := List.mem_map.mp hitem
        exact hopen

theorem paired_findPairs (op : b.InstIx → Option LockOp) : Paired op (b.findPairs op) := by
  have hnil : Paired op ([] : List b.LockPair) := ⟨by simp, by simp, List.nodup_nil⟩
  rw [findPairs]
  split
  · exact hnil
  · refine paired_pairsFrom _ _ (fun item hitem a ha => ?_) hnil
    obtain rfl := List.mem_singleton.mp hitem
    cases ha

/-- There are no more pairs than acquires. -/
theorem length_findPairs_le (op : b.InstIx → Option LockOp) :
    (b.findPairs op).length ≤ b.insts.countP fun i => op i == some .acquire := by
  have h := paired_findPairs op
  have hsub : (b.findPairs op).map (·.acquire) ⊆ b.insts.filter fun i => op i == some .acquire := by
    intro i hi
    obtain ⟨pair, hpair, rfl⟩ := List.mem_map.mp hi
    exact List.mem_filter.mpr ⟨List.mem_finRange _, beq_iff_eq.mpr (h.acquires pair hpair)⟩
  simpa [List.countP_eq_length_filter] using (h.nodup.subperm hsub).length_le

/-- Without a release there are no pairs. -/
theorem findPairs_eq_nil (h : (b.insts.countP fun i => op i == some .release) = 0) :
    b.findPairs op = [] := by
  refine List.eq_nil_iff_forall_not_mem.mpr fun pair hpair => ?_
  refine List.countP_eq_zero.mp h pair.release (List.mem_finRange _) (beq_iff_eq.mpr ?_)
  exact (paired_findPairs op).releases pair hpair

end LockUsage.Body
