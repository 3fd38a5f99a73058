import LockUsage.Alias.SetText
import LockUsage.Proofs.ValueNames

/-! Alias sets written as text are read back. Every reader of a part is given by the words that it
takes: with anything behind them it leaves just that, and if some of them are missing at the end it
says so. Readers in sequence do the same for the words in sequence. -/

namespace LockUsage

namespace Text

/-- The words in their order, with white space between each two of them and perhaps around them. -/
inductive Spaced : List String → List Char → Prop
  | nil : Spaced [] []
  | blank {words text} (c : Char) : isBlank c = true → Spaced words text → Spaced words (c :: text)
  | word {words text} (w : String) : Spaced words text → (∀ c ∈ text.head?, isBlank c = true) →
      Spaced (w :: words) (w.toList ++ text)

def IsWord (w : String) : Prop := w ≠ "" ∧ w.toList.any isBlank = false

instance (w : String) : Decidable (IsWord w) := inferInstanceAs (Decidable (_ ∧ _))

theorem wordsFrom_append {cs : List Char} (h : cs.any isBlank = false) (word text : List Char) :
    wordsFrom word (cs ++ text) = wordsFrom (cs.reverse ++ word) text := by
  induction cs generalizing word with
  | nil => rfl
  | cons c cs ih =>
    obtain ⟨hc, hcs⟩ := Bool.or_eq_false_iff.mp h
    rw [List.cons_append, wordsFrom, hc, if_neg Bool.false_ne_true, ih hcs]
    simp

theorem wordsFrom_blank {c : Char} (h : isBlank c = true) (word text : List Char) :
    wordsFrom word (c :: text) = pendingWord word ++ wordsFrom [] text := by
  rw [wordsFrom, if_pos h]

theorem pendingWord_reverse {w : String} (h : w ≠ "") : pendingWord w.toList.reverse = [w] := by
  have hne : w.toList ≠ [] := fun hnil => h (String.toList_eq_nil_iff.mp hnil)
  simp [pendingWord, hne]

theorem wordsFrom_spaced {words : List String} {text : List Char} (h : Spaced words text)
    (hwords : ∀ w ∈ words, IsWord w) : wordsFrom [] text = words := by
  induction h with
  | nil => rfl
  | blank c hc _ ih =>
    rw [wordsFrom_blank hc, ih hwords]
    rfl
  | @word words text w _ hnext ih =>
    obtain ⟨⟨hne, hw⟩, hwords⟩ := List.forall_mem_cons.mp hwords
    have hrest := ih hwords
    rw [wordsFrom_append hw, List.append_nil]
    -- Behind the word, the text is at its end or goes on with white space.
    cases text with
    | nil => rw [wordsFrom, pendingWord_reverse hne, ← hrest]; rfl
    | cons c text =>
      have hc : isBlank c = true := hnext c rfl
      rw [wordsFrom_blank hc] at hrest ⊢
      rw [pendingWord_reverse hne, ← hrest]
      rfl

theorem Spaced.pending {words : List String} {text : List Char} (h : Spaced words text)
    (htext : ∀ c ∈ text.head?, isBlank c = true) (word : List Char) :
    Spaced (pendingWord word ++ words) (word.reverse ++ text) := by
  cases word with
  | nil => exact h
  | cons c word =>
    have hword := h.word (String.ofList (c :: word).reverse) htext
    rwa [String.toList_ofList] at hword

theorem spaced_wordsFrom (word text : List Char) :
    Spaced (wordsFrom word text) (word.reverse ++ text) := by
  induction text generalizing word with
  | nil =>
    have hend := Spaced.nil.pending (fun _ hc => by cases hc) word
    rwa [List.append_nil] at hend
  | cons c text ih =>
    by_cases hc : isBlank c = true
    · rw [wordsFrom_blank hc]
      exact (Spaced.blank c hc (ih [])).pending (fun _ hx => Option.some.inj hx ▸ hc) word
    · have hgrow := ih (c :: word)
      rw [List.reverse_cons, List.append_assoc] at hgrow
      rw [wordsFrom, if_neg hc]
      exact hgrow

theorem isWord_toString (n : Nat) : IsWord (toString n) := by
  have htext : (toString n).toList = Nat.toDigits 10 n := Nat.toList_repr
  constructor
  · intro h
    rw [h] at htext
    exact Nat.toDigits_ne_nil htext.symm
  · rw [htext, List.any_eq_false]
    intro c hc
    rw [isBlank_of_isDigit (Nat.isDigit_of_mem_toDigits (by decide) (by decide) hc)]
    exact Bool.false_ne_true

theorem count?_toString {n : Nat} (h : n < valuesOf 64) : count? (toString n) = some n := by
  have htext : (toString n).toList = Nat.toDigits 10 n := Nat.toList_repr
  have hsign {rest : List Char} (hcs : Nat.toDigits 10 n = '+' :: rest) : '+'.isDigit = true :=
    Nat.isDigit_of_mem_toDigits (by decide) (by decide) (hcs ▸ List.mem_cons_self)
  rw [count?, htext]
  split
  · next hcs => cases hsign hcs
  · rw [natural?_toDigits]
    exact if_pos h

end Text

namespace AliasSet

variable {α β : Type}

def Reader.give (a : α) : Reader α := fun words => .ok (a, words)

def Reader.bind (r : Reader α) (next : α → Reader β) : Reader β :=
  fun words => (r words).bind fun found => next found.1 found.2

def Reader.map (g : α → β) (r : Reader α) : Reader β := r.bind fun a => .give (g a)

/-- The reader takes these words for this value. It misses them if they are not all there. -/
structure Reads (r : Reader α) (words : List String) (a : α) : Prop where
  whole : ∀ rest, r (words ++ rest) = .ok (a, rest)
  cut : ∀ cut, cut <+: words → cut ≠ words → r cut = .error .unexpectedEnd

namespace Reads

variable {r : Reader α} {next : α → Reader β} {words words' : List String} {a : α} {b : β}

theorem give (a : α) : Reads (.give a) [] a where
  whole _ := rfl
  cut _ hcut hne := absurd (List.prefix_nil.mp hcut) hne

theorem cons {r' : Reader α} {w : String} (hnil : r [] = .error .unexpectedEnd)
    (hcons : ∀ rest, r (w :: rest) = r' rest) (h : Reads r' words a) : Reads r (w :: words) a where
  whole rest := (hcons _).trans (h.whole rest)
  cut cut hcut hne := by
    rcases List.prefix_cons_iff.mp hcut with rfl | ⟨rest, rfl, hrest⟩
    · exact hnil
    · rw [hcons]
      exact h.cut rest hrest fun heq => hne (heq ▸ rfl)

theorem bind (h : Reads r words a) (h' : Reads (next a) words' b) :
    Reads (r.bind next) (words ++ words') b where
  whole rest := by
    rw [Reader.bind, List.append_assoc, h.whole]
    exact h'.whole rest
  cut cut hcut hne := by
    rcases prefix_append_cases hcut with ⟨hpre, hshort⟩ | ⟨behind, rfl, hpre⟩
    · rw [Reader.bind, h.cut cut hpre hshort]
      rfl
    · rw [Reader.bind, h.whole]
      exact h'.cut behind hpre fun heq => hne (heq ▸ rfl)

theorem map (h : Reads r words a) (g : α → β) : Reads (r.map g) words (g a) := by
  have hmap : Reads (r.map g) (words ++ []) (g a) := h.bind (give (g a))
  rwa [List.append_nil] at hmap

end Reads

theorem reads_word (w : String) : Reads readWord [w] w :=
  .cons rfl (fun _ => rfl) (.give w)

theorem reads_count {n : Nat} (h : n < Text.valuesOf 64) : Reads readCount [toString n] n := by
  refine .cons rfl (fun rest => ?_) (.give n)
  rw [readCount, Text.count?_toString h]
  rfl

theorem readMember_global {first : String} (h : first.startsWith "@" = true)
    (rest : List String) : readMember (first :: rest) = .ok ((none, first), rest) := if_pos h

theorem readMember_local {first : String} (h : first.startsWith "@" = false)
    (rest : List String) : readMember (first :: rest) =
      readWord.map (fun value => (some first, localName value)) rest :=
  if_neg (Bool.eq_false_iff.mp h)

theorem readMembers_succ (n : Nat) : readMembers (n + 1) =
    readMember.bind fun member => (readMembers n).map (member :: ·) := rfl

theorem readSet_eq (kind : AliasKind) : readSet kind = readWord.bind fun _ =>
    readCount.bind fun n => (readMembers n).map fun members => ⟨kind, members.eraseDups⟩ := rfl

theorem readSets_succ (kind : AliasKind) (n : Nat) : readSets kind (n + 1) =
    (readSet kind).bind fun set => (readSets kind n).map (set :: ·) := rfl

/-- Text without white space, as tags and names are. -/
structure Word where
  text : String
  isWord : Text.IsWord text

/-- A member as it is written. -/
inductive MemberText where
  | global (name : Word) (h : name.text.startsWith "@" = true)
  | inFunction (function value : Word) (h : function.text.startsWith "@" = false)

namespace MemberText

def words : MemberText → List String
  | global name _ => [name.text]
  | inFunction function value _ => [function.text, value.text]

/-- The name that is meant. Values of functions have a leading `%` even if it is not written. -/
def name : MemberText → ScopedName
  | global name _ => (none, name.text)
  | inFunction function value _ =>
    (some function.text, if value.text.startsWith "%" then value.text else "%" ++ value.text)

theorem reads (m : MemberText) : Reads readMember m.words m.name := by
  cases m with
  | global name h => exact .cons rfl (readMember_global h) (.give _)
  | inFunction function value h => exact .cons rfl (readMember_local h) ((reads_word _).map _)

end MemberText

/-- A set as it is written. Numbers of members have 64 bits. -/
structure SetText where
  tag : Word
  members : List MemberText
  countable : members.length < Text.valuesOf 64

namespace SetText

def words (s : SetText) : List String :=
  s.tag.text :: toString s.members.length :: s.members.flatMap MemberText.words

/-- The set that is meant, each member once and in the order of first mention. -/
def set (s : SetText) (kind : AliasKind) : AliasSet :=
  ⟨kind, (s.members.map MemberText.name).eraseDups⟩

theorem reads_members (members : List MemberText) : Reads (readMembers members.length)
    (members.flatMap MemberText.words) (members.map MemberText.name) := by
  induction members with
  | nil => exact .give []
  | cons m members ih =>
    rw [List.length_cons, readMembers_succ, List.flatMap_cons, List.map_cons]
    exact m.reads.bind (ih.map _)

theorem reads (s : SetText) (kind : AliasKind) : Reads (readSet kind) s.words (s.set kind) := by
  rw [readSet_eq]
  have hmembers := (reads_members s.members).map
    fun members => (⟨kind, members.eraseDups⟩ : AliasSet)
  exact (reads_word s.tag.text).bind ((reads_count s.countable).bind hmembers)

end SetText

/-- A group as it is written. Numbers of sets have 64 bits. -/
structure GroupText where
  kind : AliasKind
  sets : List SetText
  countable : sets.length < Text.valuesOf 64

namespace GroupText

def kindWord : AliasKind → String
  | .must => "must"
  | .may => "may"
  | .no => "no"

def words (g : GroupText) : List String :=
  kindWord g.kind :: toString g.sets.length :: g.sets.flatMap SetText.words

def aliasSets (g : GroupText) : List AliasSet := g.sets.map fun s => s.set g.kind

theorem reads_sets (kind : AliasKind) (sets : List SetText) :
    Reads (readSets kind sets.length) (sets.flatMap SetText.words)
      (sets.map fun s => s.set kind) := by
  induction sets with
  | nil => exact .give []
  | cons s sets ih =>
    rw [List.length_cons, readSets_succ, List.flatMap_cons, List.map_cons]
    exact (s.reads kind).bind (ih.map _)

theorem kind?_kindWord (kind : AliasKind) : kind? (kindWord kind) = some kind := by
  cases kind <;> rfl

/-- Behind its kind, a group is read like any other part. -/
theorem reads_behind_kind (g : GroupText) : Reads (readCount.bind (readSets g.kind))
    (toString g.sets.length :: g.sets.flatMap SetText.words) g.aliasSets :=
  (reads_count g.countable).bind (reads_sets g.kind g.sets)

theorem readGroups_kindWord (fuel : Nat) (kind : AliasKind) (words : List String) :
    readGroups (fuel + 1) (kindWord kind :: words) =
      (readCount.bind (readSets kind) words).bind fun found =>
        (readGroups fuel found.2).bind fun rest => .ok (found.1 ++ rest) := by
  rw [readGroups, kind?_kindWord, Reader.bind]
  cases readCount words <;> rfl

variable {groups : List GroupText} {fuel : Nat}

theorem length_le_words (groups : List GroupText) :
    groups.length ≤ (groups.flatMap words).length := by
  induction groups with
  | nil => exact Nat.le_refl 0
  | cons g groups ih =>
    rw [List.flatMap_cons, List.length_append, List.length_cons, words, List.length_cons]
    omega

theorem readGroups_words (h : groups.length ≤ fuel) :
    readGroups fuel (groups.flatMap words) = .ok (groups.flatMap aliasSets) := by
  induction groups generalizing fuel with
  | nil => cases fuel <;> rfl
  | cons g groups ih =>
    obtain ⟨fuel, rfl⟩ := Nat.exists_eq_add_one_of_ne_zero (Nat.ne_zero_of_lt h)
    rw [List.flatMap_cons, List.flatMap_cons, words, List.cons_append, readGroups_kindWord,
      g.reads_behind_kind.whole, Except.bind, ih (Nat.le_of_succ_le_succ h)]
    rfl

/-- Words that end within a group are too few. -/
theorem readGroups_cut {cut : List String} (hfuel : cut.length ≤ fuel)
    (hcut : cut <+: groups.flatMap words)
    (hwithin : ∀ k, cut ≠ (groups.take k).flatMap words) :
    readGroups fuel cut = .error .unexpectedEnd := by
  induction groups generalizing fuel cut with
  | nil => exact absurd (List.prefix_nil.mp hcut) (hwithin 0)
  | cons g groups ih =>
    rw [List.flatMap_cons] at hcut
    rcases prefix_append_cases hcut with ⟨hpre, hshort⟩ | ⟨behind, rfl, hpre⟩
    · rcases List.prefix_cons_iff.mp hpre with rfl | ⟨rest, rfl, hrest⟩
      · exact absurd rfl (hwithin 0)
      · obtain ⟨fuel, rfl⟩ := Nat.exists_eq_add_one_of_ne_zero (Nat.ne_zero_of_lt hfuel)
        have hmissing := g.reads_behind_kind.cut rest hrest fun heq => hshort (heq ▸ rfl)
        rw [readGroups_kindWord, hmissing]
        rfl
    · obtain ⟨fuel, rfl⟩ := Nat.exists_eq_add_one_of_ne_zero (Nat.ne_zero_of_lt hfuel)
      have hbehind : readGroups fuel behind = .error .unexpectedEnd := by
        refine ih ?_ hpre fun k heq => hwithin (k + 1) ?_
        · rw [List.length_append, words, List.length_cons] at hfuel
          omega
        · rw [List.take_succ_cons, List.flatMap_cons, heq]
      rw [words, List.cons_append, readGroups_kindWord, g.reads_behind_kind.whole, Except.bind,
        hbehind]
      rfl

theorem isWord_of_mem {g : GroupText} {w : String} (h : w ∈ g.words) : Text.IsWord w := by
  have hkind : Text.IsWord (kindWord g.kind) := by cases g.kind <;> decide
  have hmember (m : MemberText) : ∀ w ∈ m.words, Text.IsWord w := by
    cases m with
    | global name => exact List.forall_mem_singleton.mpr name.isWord
    | inFunction function value =>
      exact List.forall_mem_cons.mpr
        ⟨function.isWord, List.forall_mem_singleton.mpr value.isWord⟩
  have hset (s : SetText) : ∀ w ∈ s.words, Text.IsWord w := by
    refine List.forall_mem_cons.mpr ⟨s.tag.isWord, List.forall_mem_cons.mpr
      ⟨Text.isWord_toString _, fun w hw => ?_⟩⟩
    obtain ⟨m, -, hw⟩ := List.mem_flatMap.mp hw
    exact hmember m w hw
  rcases List.mem_cons.mp h with rfl | h
  · exact hkind
  · rcases List.mem_cons.mp h with rfl | h
    · exact Text.isWord_toString _
    · obtain ⟨s, -, h⟩ := List.mem_flatMap.mp h
      exact hset s w h

end GroupText

/-- Written sets are read back: from the words of the groups, with whatever white space between
them, come the sets in their order, each of the kind of its group and with the members that are
meant. If the text ends anywhere but behind a group, this is what is reported. -/
theorem written_sets_are_read (groups : List GroupText) :
    (∀ text : String, Text.Spaced (groups.flatMap GroupText.words) text.toList →
      parse text = .ok (groups.flatMap GroupText.aliasSets)) ∧
    ∀ (cut : List String) (text : String), cut <+: groups.flatMap GroupText.words →
      (∀ k, cut ≠ (groups.take k).flatMap GroupText.words) → Text.Spaced cut text.toList →
      parse text = .error .unexpectedEnd := by
  have hwords : ∀ w ∈ groups.flatMap GroupText.words, Text.IsWord w := by
    intro w hw
    obtain ⟨g, -, hw⟩ := List.mem_flatMap.mp hw
    exact GroupText.isWord_of_mem hw
  constructor
  · intro text htext
    have hread : Text.words text = groups.flatMap GroupText.words :=
      Text.wordsFrom_spaced htext hwords
    rw [parse, hread]
    exact GroupText.readGroups_words (GroupText.length_le_words groups)
  · intro cut text hcut hwithin htext
    have hread : Text.words text = cut :=
      Text.wordsFrom_spaced htext fun w hw => hwords w (hcut.subset hw)
    rw [parse, hread]
    exact GroupText.readGroups_cut (Nat.le_refl _) hcut hwithin

/-- Names and tags that look like kinds and numbers, and a member that is written three times. -/
def lookalikes : List GroupText :=
  [⟨.must, [
      ⟨⟨"set", by decide⟩, [
        .inFunction ⟨"1", by decide⟩ ⟨"lock", by decide⟩ (by decide +kernel),
        .global ⟨"@m", by decide⟩ (by decide +kernel),
        .inFunction ⟨"1", by decide⟩ ⟨"%lock", by decide⟩ (by decide +kernel),
        .inFunction ⟨"1", by decide⟩ ⟨"lock", by decide⟩ (by decide +kernel)], by decide⟩,
      ⟨⟨"2", by decide⟩, [], by decide⟩], by decide⟩,
    ⟨.no, [
      ⟨⟨"must", by decide⟩, [
        .inFunction ⟨"may", by decide⟩ ⟨"@m", by decide⟩ (by decide +kernel)], by decide⟩],
      by decide⟩]

theorem lookalikes_are_read :
    Text.Spaced (lookalikes.flatMap GroupText.words)
      "must 2\n set 4 1 lock @m 1 %lock 1 lock\n\t2 0\nno 1 must 1 may @m\n".toList ∧
    parse "must 2\n set 4 1 lock @m 1 %lock 1 lock\n\t2 0\nno 1 must 1 may @m\n" =
      .ok [⟨.must, [(some "1", "%lock"), (none, "@m")]⟩, ⟨.must, []⟩,
        ⟨.no, [(some "may", "%@m")]⟩] ∧
    ["must", "2", "set", "4", "1"] <+: lookalikes.flatMap GroupText.words ∧
    (∀ k, ["must", "2", "set", "4", "1"] ≠ (lookalikes.take k).flatMap GroupText.words) ∧
    Text.Spaced ["must", "2", "set", "4", "1"] "must 2 set 4\n1".toList ∧
    parse "must 2 set 4\n1" = .error .unexpectedEnd := by
  have hspaced (words : List String) (text : String) (h : Text.words text = words) :
      Text.Spaced words text.toList := h ▸ Text.spaced_wordsFrom [] text.toList
  have htext := hspaced (lookalikes.flatMap GroupText.words)
    "must 2\n set 4 1 lock @m 1 %lock 1 lock\n\t2 0\nno 1 must 1 may @m\n" (by decide +kernel)
  have hcut := hspaced ["must", "2", "set", "4", "1"] "must 2 set 4\n1" (by decide +kernel)
  have hprefix : ["must", "2", "set", "4", "1"] <+: lookalikes.flatMap GroupText.words := by
    decide +kernel
  have hwithin (k : Nat) :
      ["must", "2", "set", "4", "1"] ≠ (lookalikes.take k).flatMap GroupText.words := by
    match k with
    | 0 | 1 => decide +kernel
    | k + 2 =>
      rw [List.take_of_length_le (Nat.le_add_left 2 k : lookalikes.length ≤ k + 2)]
      decide +kernel
  obtain ⟨hread, hmissing⟩ := written_sets_are_read lookalikes
  have hsets : lookalikes.flatMap GroupText.aliasSets =
      [⟨.must, [(some "1", "%lock"), (none, "@m")]⟩, ⟨.must, []⟩,
        ⟨.no, [(some "may", "%@m")]⟩] := by decide +kernel
  exact ⟨htext, (hread _ htext).trans (congrArg _ hsets), hprefix, hwithin, hcut,
    hmissing _ _ hprefix hwithin hcut⟩

end AliasSet

end LockUsage
