import LockUsage.Alias.Basic
import LockUsage.Proofs.Loading

/-! The names of values in loaded programs. Resolving the name of a value that a function mentions
gives this value again. So names tell the values of a function apart, and values of two functions
alias by name exactly if they are the same value. -/

namespace LockUsage

namespace Text

theorem toList_trim (s : String) :
    (trim s).toList = List.rdropWhile isBlank (s.toList.dropWhile isBlank) := by
  rw [trim, String.toList_ofList]
  rfl

theorem trim_trim (s : String) : trim (trim s) = trim s := by
  have hdrop := List.dropWhile_idempotent isBlank s.toList
  rw [← String.toList_inj, toList_trim, toList_trim, dropWhile_rdropWhile hdrop,
    List.rdropWhile_idempotent]

theorem trim_eq_self {s : String} (h : ∀ c ∈ s.toList, isBlank c = false) : trim s = s := by
  have hdrop : s.toList.dropWhile isBlank = s.toList :=
    List.dropWhile_eq_self_iff.mpr fun hl => by simp [h _ (List.getElem_mem hl)]
  rw [← String.toList_inj, toList_trim, hdrop]
  exact List.rdropWhile_eq_self_iff.mpr fun hl => by simp [h _ (List.getLast_mem hl)]

theorem isDigit_iff {c : Char} : c.isDigit = true ↔ '0' ≤ c ∧ c ≤ '9' := by
  simp [Char.isDigit, Char.le_def]

theorem digit?_of_isDigit {c : Char} (h : c.isDigit = true) : digit? c = some (c.toNat - 48) :=
  if_pos (isDigit_iff.mp h)

theorem isBlank_of_isDigit {c : Char} (h : c.isDigit = true) : isBlank c = false := by
  have hc : 48 ≤ c.toNat ∧ c.toNat ≤ 57 := isDigit_iff.mp h
  simp only [isBlank, inRanges, blankRanges]
  simp
  omega

theorem digitsFrom?_eq {cs : List Char} (h : ∀ c ∈ cs, c.isDigit = true) (value : Nat) :
    digitsFrom? value cs = some (Nat.ofDigitChars 10 cs value) := by
  induction cs generalizing value with
  | nil => rfl
  | cons c cs ih =>
    rw [digitsFrom?, digit?_of_isDigit (h c List.mem_cons_self), Nat.ofDigitChars_cons]
    exact ih (fun c hc => h c (List.mem_cons_of_mem _ hc)) _

theorem natural?_toDigits (n : Nat) : natural? (Nat.toDigits 10 n) = some n := by
  have hdigits : ∀ c ∈ Nat.toDigits 10 n, c.isDigit = true := fun c hc =>
    Nat.isDigit_of_mem_toDigits (by decide) (by decide) hc
  have hread := digitsFrom?_eq hdigits 0
  rw [Nat.ofDigitChars_ten_toDigits] at hread
  cases hcs : Nat.toDigits 10 n with
  | nil => exact absurd hcs Nat.toDigits_ne_nil
  | cons c cs =>
    rw [hcs] at hread
    exact hread

theorem toList_toString_ofNat (n : Nat) :
    (toString (Int.ofNat n)).toList = Nat.toDigits 10 n := Nat.toList_repr

theorem toList_toString_negSucc (n : Nat) :
    (toString (Int.negSucc n)).toList = '-' :: Nat.toDigits 10 (n + 1) := by
  show ("-" ++ (n + 1).repr).toList = _
  rw [String.toList_append, Nat.toList_repr]
  rfl

/-- A numeral has at least one character, and only signs and digits. -/
theorem toList_toString (v : Int) : ∃ c rest, (toString v).toList = c :: rest ∧
    ∀ x ∈ c :: rest, x = '-' ∨ x.isDigit = true := by
  have hdigits (n : Nat) : ∀ x ∈ Nat.toDigits 10 n, x = '-' ∨ x.isDigit = true := fun x hx =>
    .inr (Nat.isDigit_of_mem_toDigits (by decide) (by decide) hx)
  cases v with
  | ofNat n =>
    rw [toList_toString_ofNat]
    obtain ⟨c, rest, hcs⟩ := List.exists_cons_of_ne_nil (Nat.toDigits_ne_nil (n := n) (b := 10))
    exact ⟨c, rest, hcs, hcs ▸ hdigits n⟩
  | negSucc n =>
    rw [toList_toString_negSucc]
    exact ⟨_, _, rfl, List.forall_mem_cons.mpr ⟨.inl rfl, hdigits _⟩⟩

/-- The numbers of 64 bits with a sign. -/
def IsInt64 (v : Int) : Prop := -(valuesOf 63 : Int) ≤ v ∧ v < valuesOf 63

theorem bind_within_eq_some_iff {read : Option Int} {v : Int} :
    (read.bind fun value =>
      if -(valuesOf 63 : Int) ≤ value ∧ value < valuesOf 63 then some value else none) = some v ↔
    read = some v ∧ IsInt64 v := by
  simp only [Option.bind_eq_some_iff, Option.ite_none_right_eq_some, Option.some.injEq]
  constructor
  · rintro ⟨w, hread, hw, rfl⟩
    exact ⟨hread, hw⟩
  · rintro ⟨hread, hv⟩
    exact ⟨v, hread, hv, rfl⟩

/-- A numeral within the range is read as what it was written for. -/
theorem int64?_toString {v : Int} (h : IsInt64 v) : int64? (toString v) = some v := by
  rw [int64?]
  cases v with
  | ofNat n =>
    rw [toList_toString_ofNat]
    -- Without a sign, the numeral starts with a digit.
    have hsign {c : Char} {rest : List Char} (hcs : Nat.toDigits 10 n = c :: rest) :
        c.isDigit = true :=
      Nat.isDigit_of_mem_toDigits (by decide) (by decide) (hcs ▸ List.mem_cons_self)
    split
    · next hcs => cases hsign hcs
    · next hcs => cases hsign hcs
    · refine bind_within_eq_some_iff.mpr ⟨?_, h⟩
      rw [natural?_toDigits]
      rfl
  | negSucc n =>
    rw [toList_toString_negSucc]
    refine bind_within_eq_some_iff.mpr ⟨?_, h⟩
    rw [natural?_toDigits]
    rfl

theorem isInt64_of_int64? {s : String} {v : Int} (h : int64? s = some v) : IsInt64 v := by
  rw [int64?] at h
  split at h <;> exact (bind_within_eq_some_iff.mp h).2

end Text

namespace Description.Scope

theorem constant?_toString {v : Int} (h : Text.IsInt64 v) :
    constant? (toString v) = some (.int v) := by
  obtain ⟨c, rest, hv, hall⟩ := Text.toList_toString v
  have hne {word : String} {first : Char} {tail : List Char} (hword : word.toList = first :: tail)
      (hminus : first ≠ '-') (hdigit : first.isDigit = false) : toString v ≠ word := by
    rintro rfl
    obtain ⟨rfl, -⟩ := List.cons.inj (hword.symm.trans hv)
    rcases hall first List.mem_cons_self with hc | hc
    · exact hminus hc
    · simp [hdigit] at hc
  have hnull : toString v ≠ "null" := hne rfl (by decide) rfl
  have htrue : toString v ≠ "true" := hne rfl (by decide) rfl
  have hfalse : toString v ≠ "false" := hne rfl (by decide) rfl
  rw [constant?, if_neg hnull, if_neg htrue, if_neg hfalse, Text.int64?_toString h]
  rfl

theorem isInt64_of_constant? {text : String} {v : Int} (h : constant? text = some (.int v)) :
    Text.IsInt64 v := by
  rw [constant?] at h
  split at h
  · cases h
  · split at h
    · cases h
      exact ⟨by decide, by decide⟩
    · split at h
      · cases h
        exact ⟨by decide, by decide⟩
      · obtain ⟨w, hw, he⟩ := Option.map_eq_some_iff.mp h
        cases he
        exact Text.isInt64_of_int64? hw

variable (s : Scope)

theorem operand_of_constant? {text : String} {c : Constant}
    (hplain : ∀ x ∈ text.toList, Text.isBlank x = false ∧ x ≠ '@' ∧ x ≠ '%')
    (h : constant? text = some c) : s.operand text = .ok (.const c) := by
  have ho : s.operand? text = some (.const c) := by
    rw [operand?]
    split
    · next hcs => exact absurd rfl (hplain '@' (hcs ▸ List.mem_cons_self)).2.1
    · next hcs => exact absurd rfl (hplain '%' (hcs ▸ List.mem_cons_self)).2.2
    · rw [h]
      rfl
  rw [operand_eq, Text.trim_eq_self fun x hx => (hplain x hx).1, ho]
  rfl

/-- A constant is what its text denotes, however it was written. -/
theorem operand_text {text : String} {c : Constant} (h : constant? text = some c) :
    s.operand c.text = .ok (.const c) := by
  cases c with
  | null =>
    refine s.operand_of_constant? (fun x hx => ?_) (if_pos rfl)
    have hx : x = 'n' ∨ x = 'u' ∨ x = 'l' := by simpa [Constant.text] using hx
    rcases hx with rfl | rfl | rfl <;> decide
  | int v =>
    obtain ⟨c, rest, hv, hall⟩ := Text.toList_toString v
    refine s.operand_of_constant? (fun x hx => ?_) (constant?_toString (isInt64_of_constant? h))
    rcases hall x (hv ▸ hx) with rfl | hdigit
    · decide
    · refine ⟨Text.isBlank_of_isDigit hdigit, ?_, ?_⟩ <;> rintro rfl <;> cases hdigit

end Description.Scope

/-- The operand occurs in an instruction of the function. -/
def Func.Mentions (f : Func) (o : Operand) : Prop := ∃ inst ∈ f.insts.toList, o ∈ inst.kind.operands

instance (f : Func) (o : Operand) : Decidable (f.Mentions o) :=
  inferInstanceAs (Decidable (∃ inst ∈ f.insts.toList, o ∈ inst.kind.operands))

namespace ScopedValue

def OccursIn (v : ScopedValue) (p : Program) : Prop :=
  ∃ f, p.functions[v.func]? = some f ∧ f.Mentions v.value

/-- The same global, or the same local value of the same function. -/
def Same (v w : ScopedValue) : Prop := v = w ∨ ∃ g, v.value = .global g ∧ w.value = .global g

theorem name?_global {p : Program} {v : ScopedValue} {f : Func} {g : GlobalId}
    (hf : p.functions[v.func]? = some f) (hv : v.value = .global g) :
    v.name? p = p.globals[g]?.map fun name => (none, "@" ++ name) := by
  cases hg : p.globals[g]? <;> simp [name?, Program.valueName?, hf, hv, hg]

end ScopedValue

namespace Description.Gives

variable {d : Description} {df : Func} {p : Program} {f : LockUsage.Func} {func : FuncId}

theorem exists_operand_valueName? (hp : d.Gives p) (hf : p.functions[func]? = some f)
    (hl : d.Loads df f) {o : Operand} (ho : (Scope.of d df).Denotes o) :
    ∃ name, p.valueName? func o = some name ∧ (Scope.of d df).operand name = .ok o := by
  obtain ⟨written, hw⟩ := ho
  rw [Scope.operand_eq] at hw
  -- What was written is the name, except for white space around it and for constants.
  have hname : (Scope.of d df).operand (Text.trim written) = .ok o := by
    rw [Scope.operand_eq, Text.trim_trim]
    exact hw
  rcases Scope.operand?_cases ((Scope.yields_found ..).of_ok hw) with
    ⟨id, name, rfl, hget, ht⟩ | ⟨index, name, rfl, hget, ht⟩ | ⟨id, name, rfl, hget, ht⟩ |
    ⟨value, rfl, hvalue⟩
  · have hglobal : p.globals[id]? = some name := by
      rw [← Array.getElem?_toList, hp.globals]
      exact hget
    exact ⟨_, by simp [Program.valueName?, hf, hglobal, ht], hname⟩
  · have hparam : f.params[index]? = some name := hl.params ▸ hget
    exact ⟨_, by simp [Program.valueName?, hf, hparam, ht], hname⟩
  · rw [← hl.instNames, List.getElem?_map, Array.getElem?_toList] at hget
    obtain ⟨inst, hinst, hn⟩ := Option.map_eq_some_iff.mp hget
    exact ⟨_, by simp [Program.valueName?, hf, hinst, hn, ht], hname⟩
  · exact ⟨_, by simp [Program.valueName?, hf], Scope.operand_text _ hvalue⟩

theorem exists_loads (hp : d.Gives p) (hf : p.functions[func]? = some f) :
    ∃ df, d.functions[func]? = some df ∧ d.Loads df f := by
  rw [← Array.getElem?_toList] at hf
  exact exists_getElem?_of_forall₂ hp.functions hf

theorem exists_operand_of_mentions (hp : d.Gives p) (hf : p.functions[func]? = some f)
    (hl : d.Loads df f) {o : Operand} (ho : f.Mentions o) :
    ∃ name, p.valueName? func o = some name ∧ (Scope.of d df).operand name = .ok o := by
  obtain ⟨inst, hi, ho⟩ := ho
  exact hp.exists_operand_valueName? hf hl ((hl.admits inst hi).2.operands o ho)

theorem eq_of_valueName?_eq (hp : d.Gives p) (hf : p.functions[func]? = some f) {o o' : Operand}
    (ho : f.Mentions o) (ho' : f.Mentions o')
    (h : p.valueName? func o = p.valueName? func o') : o = o' := by
  obtain ⟨df, -, hl⟩ := hp.exists_loads hf
  obtain ⟨name, hname, hres⟩ := hp.exists_operand_of_mentions hf hl ho
  obtain ⟨name', hname', hres'⟩ := hp.exists_operand_of_mentions hf hl ho'
  obtain rfl := Option.some.inj (hname.symm.trans (h.trans hname'))
  exact Except.ok.inj (hres.symm.trans hres')

end Description.Gives

namespace Description.Gives

variable {d : Description} {p : Program} {v w : ScopedValue}

theorem func_eq_of_name_eq (hp : d.Gives p) {func func' : FuncId} {f f' : LockUsage.Func}
    (hf : p.functions[func]? = some f) (hf' : p.functions[func']? = some f')
    (h : f.name = f'.name) : func = func' := by
  have hname {i : FuncId} {g : LockUsage.Func} (hg : p.functions[i]? = some g) :
      (d.functions.map (·.name))[i]? = some g.name := by
    rw [← hp.map_name, List.getElem?_map, Array.getElem?_toList, hg]
    rfl
  exact index_eq_of_nodup hp.nodup_functions (hname hf) (h ▸ hname hf')

theorem global_eq_of_name_eq (hp : d.Gives p) {g g' : GlobalId} {name : String}
    (hg : p.globals[g]? = some name) (hg' : p.globals[g']? = some name) : g = g' := by
  rw [← Array.getElem?_toList, hp.globals] at hg hg'
  exact index_eq_of_nodup hp.nodup_globals hg hg'

/-- Globals are named alike everywhere, other values together with their function. -/
theorem name?_cases (hp : d.Gives p) (hv : v.OccursIn p) :
    (∃ g name, v.value = .global g ∧ p.globals[g]? = some name ∧
      v.name? p = some (none, "@" ++ name)) ∨
    ∃ f name, p.functions[v.func]? = some f ∧ f.Mentions v.value ∧
      p.valueName? v.func v.value = some name ∧ (∀ g, v.value ≠ .global g) ∧
      v.name? p = some (some f.name, name) := by
  obtain ⟨f, hf, hv⟩ := hv
  obtain ⟨df, -, hl⟩ := hp.exists_loads hf
  obtain ⟨name, hname, -⟩ := hp.exists_operand_of_mentions hf hl hv
  obtain ⟨func, o⟩ := v
  cases o with
  | global g =>
    have hglobal : p.globals[g]?.map ("@" ++ ·) = some name := by
      simpa [Program.valueName?, hf] using hname
    obtain ⟨x, hx, -⟩ := Option.map_eq_some_iff.mp hglobal
    exact .inl ⟨g, x, rfl, hx, by rw [ScopedValue.name?_global hf rfl, hx]; rfl⟩
  | inst | arg | const =>
    exact .inr ⟨f, name, hf, hv, hname, by simp, by simp [ScopedValue.name?, hname, hf]⟩

theorem exists_name? (hp : d.Gives p) (hv : v.OccursIn p) : ∃ name, v.name? p = some name := by
  rcases hp.name?_cases hv with ⟨g, name, -, -, hname⟩ | ⟨f, name, -, -, -, -, hname⟩
  · exact ⟨_, hname⟩
  · exact ⟨_, hname⟩

/-- Two values have one name in their scopes exactly if they are the same value. -/
theorem name?_eq_iff (hp : d.Gives p) (hv : v.OccursIn p) (hw : w.OccursIn p) :
    v.name? p = w.name? p ↔ v.Same w := by
  constructor
  · intro h
    rcases hp.name?_cases hv with ⟨g, x, hvg, hx, hvn⟩ | ⟨f, x, hf, hvm, hx, hvl, hvn⟩ <;>
      rcases hp.name?_cases hw with ⟨g', y, hwg, hy, hwn⟩ | ⟨f', y, hf', hwm, hy, hwl, hwn⟩ <;>
      rw [hvn, hwn] at h
    · have hxy : x = y := by simpa using h
      subst hxy
      obtain rfl := hp.global_eq_of_name_eq hx hy
      exact .inr ⟨g, hvg, hwg⟩
    · simp at h
    · simp at h
    -- Equal names of functions make it one function, within which names tell values apart.
    · have hboth : f.name = f'.name ∧ x = y := by simpa using h
      obtain ⟨hnames, rfl⟩ := hboth
      have hfunc := hp.func_eq_of_name_eq hf hf' hnames
      rw [← hfunc] at hf' hy
      obtain rfl := Option.some.inj (hf.symm.trans hf')
      have hvalue := hp.eq_of_valueName?_eq hf hvm hwm (hx.trans hy.symm)
      exact .inl (by cases v; cases w; simp_all)
  · rintro (rfl | ⟨g, hvg, hwg⟩)
    · rfl
    · obtain ⟨f, hf, -⟩ := hv
      obtain ⟨f', hf', -⟩ := hw
      rw [ScopedValue.name?_global hf hvg, ScopedValue.name?_global hf' hwg]

end Description.Gives

theorem AliasSource.alias?_names {p : Program} {v w : ScopedValue} {a b : ScopedName}
    (hv : v.value.isConst = false) (hw : w.value.isConst = false) (ha : v.name? p = some a)
    (hb : w.name? p = some b) :
    names.alias? p v w = some (if a = b then .must else .no) := by
  simp only [alias?, hv, hw, Bool.or_self, Bool.false_eq_true, if_false]
  by_cases h : v = w
  · have hab : a = b := Option.some.inj (ha.symm.trans (h ▸ hb))
    rw [if_pos h, if_pos hab]
  · rw [if_neg h, ha, hb]
    rfl

/-- In a loaded program, resolving the name of a value that a function mentions, within this
function, gives the value again. So different values of a function have different names, and two
values that are no constants alias by name exactly if they are the same. -/
theorem Program.names_identify_values {text : String} {p : Program} (h : parse text = .ok p) :
    (∃ d, Description.ofText? text = some d ∧
      ∀ func f, p.functions[func]? = some f → ∃ df, d.functions[func]? = some df ∧
        ∀ o, f.Mentions o → ∃ name, p.valueName? func o = some name ∧
          (Description.Scope.of d df).operand name = .ok o) ∧
    (∀ func f, p.functions[func]? = some f → ∀ o o', f.Mentions o → f.Mentions o' → o ≠ o' →
      p.valueName? func o ≠ p.valueName? func o') ∧
    ∀ v w : ScopedValue, v.OccursIn p → w.OccursIn p →
      v.value.isConst = false → w.value.isConst = false →
      (v.Same w → AliasSource.names.alias? p v w = some .must) ∧
      (¬ v.Same w → AliasSource.names.alias? p v w = some .no) := by
  obtain ⟨d, hd, hp, -⟩ := exists_of_parse h
  refine ⟨⟨d, hd, fun func f hf => ?_⟩, fun func f hf o o' ho ho' hne he => ?_,
    fun v w hv hw hvc hwc => ?_⟩
  · obtain ⟨df, hdf, hl⟩ := hp.exists_loads hf
    exact ⟨df, hdf, fun o ho => hp.exists_operand_of_mentions hf hl ho⟩
  · exact hne (hp.eq_of_valueName?_eq hf ho ho' he)
  · obtain ⟨a, ha⟩ := hp.exists_name? hv
    obtain ⟨b, hb⟩ := hp.exists_name? hw
    have hiff : a = b ↔ v.Same w := by rw [← hp.name?_eq_iff hv hw, ha, hb, Option.some.injEq]
    rw [AliasSource.alias?_names hvc hwc ha hb]
    exact ⟨fun hs => by rw [if_pos (hiff.mpr hs)], fun hs => by rw [if_neg (mt hiff.mp hs)]⟩

def shadowingText : String :=
  r#"["m",["x","0"],[["f",["x","x","v"],[["A",[["other","v",["%x"]],["other",null,["%i1","@x"]],["cmp","i1","eq"," -00","@0"],["ret"," %v "]]]]],["g",["x"],[["A",[["other","v",["%x"," @x","true"]],["ret","%v"]]]]]]]"#

/-- Two parameters are called `x`, as is a global, and a parameter has the name of an instruction.
The unnamed instruction 1 would be printed like the next one, which is called `i1`. -/
def shadowingFunc : Func where
  name := "f"
  params := ["x", "x", "v"]
  blocks := #[⟨"A", [0, 1, 2, 3]⟩]
  insts := #[⟨some "v", 0, .other [.arg 1]⟩, ⟨none, 0, .other [.inst 2, .global 0]⟩,
    ⟨some "i1", 0, .cmp .eq (.const (.int 0)) (.global 1)⟩, ⟨none, 0, .ret (some (.arg 2))⟩]

def sharingFunc : Func where
  name := "g"
  params := ["x"]
  blocks := #[⟨"A", [0, 1]⟩]
  insts := #[⟨some "v", 0, .other [.arg 0, .global 0, .const (.int 1)]⟩,
    ⟨none, 0, .ret (some (.inst 0))⟩]

def shadowing : Program := ⟨"m", #["x", "0"], #[shadowingFunc, sharingFunc]⟩

set_option maxRecDepth 2000 in
theorem shadowing_names_identify_values :
    Program.parse shadowingText = .ok shadowing ∧
    (∃ d df name, Description.ofText? shadowingText = some d ∧ d.functions[0]? = some df ∧
      shadowing.valueName? 0 (.inst 2) = some name ∧
      (Description.Scope.of d df).operand name = .ok (.inst 2)) ∧
    shadowing.valueName? 0 (.arg 1) ≠ shadowing.valueName? 0 (.global 0) ∧
    AliasSource.names.alias? shadowing ⟨0, .global 0⟩ ⟨1, .global 0⟩ = some .must ∧
    AliasSource.names.alias? shadowing ⟨0, .arg 1⟩ ⟨1, .arg 0⟩ = some .no := by
  have hparse : Program.parse shadowingText = .ok shadowing :=
    (Program.parse_ofList _).trans (by decide +kernel)
  obtain ⟨⟨d, hd, hresolve⟩, hdiffer, halias⟩ := Program.names_identify_values hparse
  have hf : shadowing.functions[0]? = some shadowingFunc := rfl
  have hg : shadowing.functions[1]? = some sharingFunc := rfl
  obtain ⟨df, hdf, hresolve⟩ := hresolve 0 _ hf
  obtain ⟨name, hname, hoperand⟩ := hresolve (.inst 2) (by decide)
  refine ⟨hparse, ⟨d, df, name, hd, hdf, hname, hoperand⟩, ?_, ?_, ?_⟩
  · exact hdiffer 0 _ hf _ _ (by decide) (by decide) (by decide)
  · exact (halias _ _ ⟨_, hf, by decide⟩ ⟨_, hg, by decide⟩ rfl rfl).1 (.inr ⟨0, rfl, rfl⟩)
  · refine (halias _ _ ⟨_, hf, by decide⟩ ⟨_, hg, by decide⟩ rfl rfl).2 ?_
    rintro (h | ⟨g, h, -⟩) <;> cases h

end LockUsage
