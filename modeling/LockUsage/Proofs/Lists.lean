import Mathlib.Data.List.DropRight
import Mathlib.Data.List.Nodup
import Mathlib.Data.List.Perm.Basic
import Mathlib.Data.Option.Basic

/-! Lists: going through them with steps that may fail, lists without duplicates, look-ups. -/

namespace LockUsage

section Traversal

theorem mapM_eq_some_iff {f : α → Option β} {as : List α} {bs : List β} :
    as.mapM f = some bs ↔ as.map f = bs.map some := by
  induction as generalizing bs with
  | nil => cases bs <;> simp
  | cons a as ih =>
    cases bs with
    | nil => simp [List.mapM_cons, Option.bind_eq_some_iff]
    | cons b bs => simp [List.mapM_cons, Option.bind_eq_some_iff, ← ih]

theorem exists_source_of_mapM {f : α → Option β} {as : List α} {bs : List β}
    (h : as.mapM f = some bs) {b : β} (hb : b ∈ bs) : ∃ a ∈ as, f a = some b :=
  List.mem_map.mp (mapM_eq_some_iff.mp h ▸ List.mem_map_of_mem hb)

theorem exists_result_of_mapM {f : α → Option β} {as : List α} {bs : List β}
    (h : as.mapM f = some bs) {a : α} (ha : a ∈ as) : ∃ b ∈ bs, f a = some b := by
  obtain ⟨b, hb, heq⟩ := List.mem_map.mp (mapM_eq_some_iff.mp h ▸ List.mem_map_of_mem ha)
  exact ⟨b, hb, heq.symm⟩

theorem mapM_eq_map {f : α → Option β} {g : α → β} (h : ∀ a b, f a = some b → b = g a)
    {as : List α} {bs : List β} (hbs : as.mapM f = some bs) : bs = as.map g := by
  have hsome : bs.map some = (as.map g).map some := by
    rw [← mapM_eq_some_iff.mp hbs, List.map_map]
    refine List.map_congr_left fun a ha => ?_
    obtain ⟨b, -, hb⟩ := exists_result_of_mapM hbs ha
    exact hb.trans (congrArg some (h a b hb))
  exact List.map_injective_iff.mpr (Option.some_injective β) hsome

theorem mapM_map (g : β → γ) (f : α → Option β) (as : List α) :
    as.mapM (fun a => (f a).map g) = (as.mapM f).map (List.map g) := by
  induction as with
  | nil => rfl
  | cons a as ih =>
    simp only [List.mapM_cons, ih]
    cases f a with
    | none => rfl
    | some b => cases as.mapM f <;> rfl

theorem exists_mapM {f : α → Option β} {as : List α} {Q : β → Prop}
    (h : ∀ a ∈ as, ∃ b, f a = some b ∧ Q b) : ∃ bs, as.mapM f = some bs ∧ ∀ b ∈ bs, Q b := by
  induction as with
  | nil => exact ⟨[], rfl, fun _ h => by cases h⟩
  | cons a as ih =>
    obtain ⟨b, hb, hq⟩ := h a List.mem_cons_self
    obtain ⟨bs, hbs, hqs⟩ := ih fun a ha => h a (List.mem_cons_of_mem _ ha)
    exact ⟨b :: bs, by simp [List.mapM_cons, hb, hbs], List.forall_mem_cons.mpr ⟨hq, hqs⟩⟩

theorem exists_foldlM {f : β → α → Option β} {as : List α} {Q : β → Prop}
    (h : ∀ b, Q b → ∀ a ∈ as, ∃ b', f b a = some b' ∧ Q b') {b : β} (hb : Q b) :
    ∃ b', as.foldlM f b = some b' ∧ Q b' := by
  induction as generalizing b with
  | nil => exact ⟨b, rfl, hb⟩
  | cons a as ih =>
    obtain ⟨b', hb', hq⟩ := h b hb a List.mem_cons_self
    obtain ⟨r, hr, hqr⟩ := ih (fun b hb a ha => h b hb a (List.mem_cons_of_mem _ ha)) hq
    exact ⟨r, by simp [List.foldlM_cons, hb', hr], hqr⟩

theorem foldl_eq_of_foldlM {visit : σ → α → Option σ} (view : σ → τ) (order : τ → α → τ)
    (hvisit : ∀ s a s', visit s a = some s' → view s' = order (view s) a) {as : List α} {s s' : σ}
    (h : as.foldlM visit s = some s') : view s' = as.foldl order (view s) := by
  induction as generalizing s with
  | nil =>
    obtain rfl := Option.some.inj h
    rfl
  | cons a as ih =>
    rw [List.foldlM_cons, Option.bind_eq_bind, Option.bind_eq_some_iff] at h
    obtain ⟨s₁, h₁, h⟩ := h
    rw [ih h, List.foldl_cons, hvisit s a s₁ h₁]

theorem map_foldlM_congr {view : β → γ} {f f' : β → α → Option β}
    (h : ∀ b b' a, view b = view b' → (f b a).map view = (f' b' a).map view) (as : List α)
    {b b' : β} (hb : view b = view b') : (as.foldlM f b).map view = (as.foldlM f' b').map view := by
  induction as generalizing b b' with
  | nil => exact congrArg some hb
  | cons a as ih =>
    have ha := h b b' a hb
    simp only [List.foldlM_cons, Option.bind_eq_bind]
    cases hf : f b a with
    | none =>
      rw [hf, Option.map_none, eq_comm, Option.map_eq_none_iff] at ha
      rw [ha]
      rfl
    | some c =>
      rw [hf, Option.map_some, eq_comm, Option.map_eq_some_iff] at ha
      obtain ⟨c', hc', hview⟩ := ha
      rw [hc']
      exact ih hview.symm

theorem isSome_anyM {f : α → Option Bool} {as : List α} (h : ∀ a ∈ as, (f a).isSome) :
    (as.anyM f).isSome := by
  induction as with
  | nil => rfl
  | cons a as ih =>
    obtain ⟨b, hb⟩ := Option.isSome_iff_exists.mp (h a List.mem_cons_self)
    have hrest := ih fun a ha => h a (List.mem_cons_of_mem _ ha)
    cases b <;> simp [List.anyM, hb, hrest]

theorem exists_of_anyM {f : α → Option Bool} {as : List α} (h : as.anyM f = some true) :
    ∃ a ∈ as, f a = some true := by
  induction as with
  | nil => cases h
  | cons a as ih =>
    simp only [List.anyM, Option.bind_eq_bind, Option.bind_eq_some_iff] at h
    obtain ⟨found, hfound, h⟩ := h
    cases found with
    | true => exact ⟨a, List.mem_cons_self, hfound⟩
    | false =>
      obtain ⟨a', ha', htrue⟩ := ih h
      exact ⟨a', List.mem_cons_of_mem _ ha', htrue⟩

theorem filterAuxM_eq_some_iff {f : α → Option Bool} {as acc bs : List α} :
    as.filterAuxM f acc = some bs ↔ (∀ a ∈ as, (f a).isSome) ∧
      (as.filter fun a => f a == some true).reverse ++ acc = bs := by
  induction as generalizing acc with
  | nil => simp [List.filterAuxM]
  | cons a as ih =>
    cases hkeep : f a with
    | none => simp [List.filterAuxM, hkeep]
    | some keep => cases keep <;> simp [List.filterAuxM, hkeep, ih]

theorem filterM_eq_some_iff {f : α → Option Bool} {as bs : List α} :
    as.filterM f = some bs ↔
      (∀ a ∈ as, (f a).isSome) ∧ (as.filter fun a => f a == some true) = bs := by
  simp only [List.filterM, Option.bind_eq_bind, Option.bind_eq_some_iff, filterAuxM_eq_some_iff]
  simp

theorem filterM_map (g : α → β) (f : β → Option Bool) (as : List α) :
    (as.map g).filterM f = (as.filterM fun a => f (g a)).map (List.map g) := by
  refine Option.ext fun bs => ?_
  rw [filterM_eq_some_iff, Option.map_eq_some_iff]
  simp [filterM_eq_some_iff, List.filter_map, Function.comp_def]

end Traversal

section Duplicates

theorem nodup_eraseDups [DecidableEq α] (l : List α) : l.eraseDups.Nodup := by
  induction hn : l.length using Nat.strong_induction_on generalizing l with
  | _ n ih =>
    cases l with
    | nil => simp
    | cons a l =>
      have hlen := List.length_filter_le (fun b => !b == a) l
      have hl : (l.filter fun b => !b == a).length < n := by
        simp only [List.length_cons] at hn
        omega
      rw [List.eraseDups_cons, List.nodup_cons]
      exact ⟨by simp, ih _ hl _ rfl⟩

theorem eraseDups_append_of_subset [DecidableEq α] {l m : List α} (h : m ⊆ l) :
    (l ++ m).eraseDups = l.eraseDups := by
  have hnone : m.removeAll l = [] := by
    rw [List.removeAll, List.filter_eq_nil_iff]
    intro a ha
    simpa using h ha
  rw [List.eraseDups_append, hnone, List.eraseDups_nil, List.append_nil]

theorem length_le_one_of_nodup {l : List α} (h : l.Nodup) (heq : ∀ a ∈ l, ∀ b ∈ l, a = b) :
    l.length ≤ 1 := by
  cases l with
  | nil => exact Nat.zero_le 1
  | cons a rest =>
    have hall : a :: rest = List.replicate (a :: rest).length a :=
      List.eq_replicate_iff.mpr ⟨rfl, fun b hb => heq b hb a List.mem_cons_self⟩
    rw [hall] at h
    exact List.nodup_replicate.mp h

theorem index_eq_of_nodup {as : List α} (h : as.Nodup) {i j : Nat} {a : α}
    (hi : as[i]? = some a) (hj : as[j]? = some a) : i = j := by
  obtain ⟨hi, rfl⟩ := List.getElem?_eq_some_iff.mp hi
  obtain ⟨hj, he⟩ := List.getElem?_eq_some_iff.mp hj
  exact h.getElem_inj_iff.mp he.symm

/-- What one element adds to what the elements of a list with a property are mapped to. -/
theorem length_flatMap_filter [BEq α] [LawfulBEq α] {l : List α} (hl : l.Nodup) {p : α → Bool}
    {a : α} (ha : a ∈ l) (hp : p a = true) {f : α → List β} : ((l.filter p).flatMap f).length =
      (f a).length + ((l.filter fun x => x != a && p x).flatMap f).length := by
  have hmem : a ∈ l.filter p := List.mem_filter.mpr ⟨ha, hp⟩
  have hperm := ((List.perm_cons_erase hmem).flatMap_right f).length_eq
  rwa [(hl.filter p).erase_eq_filter, List.filter_filter, List.flatMap_cons,
    List.length_append] at hperm

end Duplicates

section Lookup

theorem lookup_of_mem [BEq α] [LawfulBEq α] {as : List (α × β)} (h : (as.map (·.1)).Nodup) {a : α}
    {b : β} (hmem : (a, b) ∈ as) : as.lookup a = some b := by
  induction as with
  | nil => cases hmem
  | cons entry as ih =>
    obtain ⟨hnot, hnodup⟩ := List.nodup_cons.mp h
    rcases List.mem_cons.mp hmem with rfl | hmem
    · exact List.lookup_cons_self
    · have hne : (a == entry.1) = false :=
        beq_false_of_ne fun he => hnot (List.mem_map.mpr ⟨_, hmem, he⟩)
      exact (List.lookup_cons ..).trans (by rw [hne]; exact ih hnodup hmem)

theorem lookup_append_singleton [DecidableEq α] {l : List (α × β)} {a k : α} {v d : β} :
    (l ++ [(k, v)]).lookup a = some d ↔
      l.lookup a = some d ∨ l.lookup a = none ∧ a = k ∧ v = d := by
  rw [List.lookup_append, Option.or_eq_some_iff]
  by_cases h : a = k
  · simp [h]
  · have hb : (a == k) = false := beq_false_of_ne h
    simp [List.lookup_cons, hb, h]

theorem isSome_lookup_iff [DecidableEq α] {l : List (α × β)} {a : α} :
    (l.lookup a).isSome ↔ a ∈ l.map (·.1) := by
  simp [List.lookup_isSome_iff]

theorem getElem?_of_idxOf? [BEq α] [LawfulBEq α] {a : α} {as : List α} {i : Nat}
    (h : as.idxOf? a = some i) : as[i]? = some a := by
  obtain ⟨hi, ha, -⟩ := List.idxOf?_eq_some_iff.mp h
  exact List.getElem?_eq_some_iff.mpr ⟨hi, ha⟩

end Lookup

section Pairing

variable {R : α → β → Prop} {as : List α} {bs : List β} (h : List.Forall₂ R as bs)
include h

theorem exists_getElem?_of_forall₂ {i : Nat} {b : β} (hb : bs[i]? = some b) :
    ∃ a, as[i]? = some a ∧ R a b := by
  obtain ⟨hi, rfl⟩ := List.getElem?_eq_some_iff.mp hb
  have hi' : i < as.length := h.length_eq ▸ hi
  exact ⟨as[i], List.getElem?_eq_getElem hi', h.get hi' hi⟩

theorem exists_mem_of_forall₂ {b : β} (hb : b ∈ bs) : ∃ a ∈ as, R a b := by
  obtain ⟨i, hi⟩ := List.mem_iff_getElem?.mp hb
  obtain ⟨a, ha, hab⟩ := exists_getElem?_of_forall₂ h hi
  exact ⟨a, List.mem_of_getElem? ha, hab⟩

theorem map_eq_of_forall₂ {f : α → γ} {g : β → γ} (hfg : ∀ a b, R a b → g b = f a) :
    bs.map g = as.map f := by
  induction h with
  | nil => rfl
  | cons hab _ ih => rw [List.map_cons, List.map_cons, ih, hfg _ _ hab]

end Pairing

section Ends

/-- A list that ends within another two ends before the second of them, or within it. -/
theorem prefix_append_cases {cut first second : List α} (h : cut <+: first ++ second) :
    (cut <+: first ∧ cut ≠ first) ∨ ∃ behind, cut = first ++ behind ∧ behind <+: second := by
  rcases List.prefix_or_prefix_of_prefix h (List.prefix_append first second) with hpre | hpre
  · by_cases heq : cut = first
    · exact .inr ⟨[], by rw [heq, List.append_nil], List.nil_prefix⟩
    · exact .inl ⟨hpre, heq⟩
  · obtain ⟨behind, rfl⟩ := hpre
    exact .inr ⟨behind, rfl, (List.prefix_append_right_inj first).mp h⟩

theorem dropWhile_rdropWhile {p : α → Bool} {l : List α} (h : l.dropWhile p = l) :
    (List.rdropWhile p l).dropWhile p = List.rdropWhile p l := by
  have hpre := List.rdropWhile_prefix p l
  refine List.dropWhile_eq_self_iff.mpr fun hl => ?_
  rw [hpre.getElem hl]
  exact List.dropWhile_eq_self_iff.mp h (Nat.lt_of_lt_of_le hl hpre.length_le)

end Ends

end LockUsage
