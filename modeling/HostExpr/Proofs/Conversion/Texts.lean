import HostExpr.Proofs.Conversion.Conforms

/-!
Conversion to texts and back.

An integer and a boolean are read back from the texts that they are written as
(`Number.read_text`, `readText_boolean`), over the whole range of either width. A list is converted
element by element, even where it needs no conversion (`convert_list`). So conversion to texts can
be taken back on lists of integers and booleans as well, on lists of such lists, and so on:
`texts_convert_back`.
-/

namespace HostExpr

/-- Lists of a type, lists of such lists, and so on, to a depth. -/
def ValueType.nested (t : ValueType) : Nat → ValueType
  | 0 => t
  | depth + 1 => .list (t.nested depth)

/-! ### Texts of integers and booleans -/

theorem Text.isBlank_of_isDigit {c : Char} (digit : c.isDigit) : Text.isBlank c = false := by
  simp only [Char.isDigit, Bool.and_eq_true, decide_eq_true_eq] at digit
  have bounds : 48 ≤ c.toNat ∧ c.toNat ≤ 57 := digit
  simp [isBlank]
  omega

theorem Text.isBlank_of_mem_integerChars {i : Int} {c : Char} (mem : c ∈ Decimal.integerChars i) :
    Text.isBlank c = false := by
  have digit : c ∈ Nat.toDigits 10 i.natAbs → isBlank c = false := fun mem =>
    isBlank_of_isDigit (Nat.isDigit_of_mem_toDigits (by decide) (by decide) mem)
  unfold Decimal.integerChars at mem
  split at mem
  · rcases List.mem_cons.mp mem with rfl | mem
    · rfl
    · exact digit mem
  · exact digit mem

/-- The text of an integer has no white space at its ends. -/
theorem Text.trim_integerText (i : Int) :
    Text.trim (Decimal.integerText i).toList = (Decimal.integerText i).toList := by
  simp only [Decimal.integerText, String.toList_ofList]
  refine trim_of_not_isBlank (fun c head => ?_) fun c last => ?_
  · exact isBlank_of_mem_integerChars (List.mem_of_mem_head? head)
  · exact isBlank_of_mem_integerChars (List.mem_of_mem_getLast? last)

/-- An integer is read back from its text: whatever its width holds is in the range that is
checked. -/
theorem Number.read_text {n : Number} (integral : n.kind = .int ∨ n.kind = .long)
    (style : RealStyle) : Number.read n.kind (Text.trim (n.text style).toList) = some n := by
  cases n with
  | int i =>
    have fits : Int32.minValue.toInt ≤ i.toInt ∧ i.toInt ≤ Int32.maxValue.toInt :=
      ⟨i.minValue_le_toInt, i.toInt_le⟩
    simp only [read, kind, text, Text.trim_integerText, Decimal.readInteger_integerText,
      Option.bind_eq_bind, Option.bind_some, if_pos fits, Int32.ofInt_toInt]
  | long i =>
    have fits : Int64.minValue.toInt ≤ i.toInt ∧ i.toInt ≤ Int64.maxValue.toInt :=
      ⟨i.minValue_le_toInt, i.toInt_le⟩
    simp only [read, kind, text, Text.trim_integerText, Decimal.readInteger_integerText,
      Option.bind_eq_bind, Option.bind_some, if_pos fits, Int64.ofInt_toInt]
  | float x => simp [kind] at integral
  | double x => simp [kind] at integral

namespace StandardConverter

variable {c : StandardConverter} {view : View}

/-- An integer is read back as a value from its text. -/
theorem readText_number {n : Number} (integral : n.kind = .int ∨ n.kind = .long)
    (style : RealStyle) : readText (n.text style) (.number n.kind) = .ok (.number n) := by
  simp [readText, Number.read_text integral]

/-- A boolean is read back from its text. -/
theorem readText_boolean (b : Bool) :
    readText (if b then "true" else "false") .boolean = .ok (.boolean b) := by
  cases b <;> rfl

/-! ### Conversion step by step -/

/-- A text becomes what it is read as. -/
theorem convert_string {s : String} {t : ValueType} (primitive : t.isPrimitive) :
    c.convert view (.string s) t = readText s t := by
  have asked : ¬(t = .any ∨ (Value.string s).valueType view = t) := by
    rintro (rfl | rfl) <;> simp [ValueType.isPrimitive, ValueType.isNumeric, ValueType.kind?,
      Value.valueType] at primitive
  unfold convert
  rw [if_neg asked]
  simp [primitive]

/-- `null` stays what it is for every type of lists. -/
theorem convert_null_list (element : ValueType) :
    c.convert view .null (.list element) = .ok .null := by
  unfold convert
  simp [Value.valueType, ValueType.isPrimitive, ValueType.isNumeric, ValueType.kind?]

/-- A list is converted element by element. One that is of the type already has elements that are,
and is what they make up. -/
theorem convert_list (items : List Value) (element : ValueType) :
    c.convert view (.list items) (.list element) =
      (items.mapM fun v => c.convert view v element).map .list := by
  by_cases trivial : (Value.list items).valueType view = .list element
  · have shared : Value.commonType (items.map (Value.valueType view)) = element := by
      simpa [Value.valueType] using trivial
    have unchanged : ∀ v ∈ items, c.convert view v element = .ok v := by
      intro v mem
      refine convert_of_trivial (or_iff_not_imp_left.mpr fun notAny => ?_)
      rw [← shared] at notAny ⊢
      exact Value.eq_of_mem_of_commonType_ne_any (List.mem_map_of_mem mem) notAny
    rw [convert_of_trivial (.inr trivial), mapM_eq_ok_self unchanged]
    rfl
  · rw [← convertAll_eq_mapM]
    unfold convert
    simp [trivial]

/-- An integer or boolean becomes a text and is read back from it. -/
theorem exists_text_back {v : Value} {t : ValueType} (leaf : t = .int ∨ t = .long ∨ t = .boolean)
    (conforms : c.Conforms view v t) :
    ∃ s, c.convert view v .string = .ok (.string s) ∧ c.convert view (.string s) t = .ok v := by
  have integer : ∀ {n : Number} {k : NumericKind}, n.kind = k → k = .int ∨ k = .long →
      ∃ s, c.convert view (.number n) .string = .ok (.string s) ∧
        c.convert view (.string s) (.number k) = .ok (.number n) := by
    rintro n k rfl integral
    refine ⟨n.text .plain, ?_, ?_⟩
    · unfold convert
      simp [Value.valueType]
    · rw [convert_string rfl, readText_number integral]
  rcases leaf with rfl | rfl | rfl
  · cases conforms with
    | null reference => cases reference
    | number kind => exact integer kind (.inl rfl)
  · cases conforms with
    | null reference => cases reference
    | number kind => exact integer kind (.inr rfl)
  · cases conforms with
    | null reference => cases reference
    | @boolean b =>
      refine ⟨if b then "true" else "false", ?_, ?_⟩
      · unfold convert
        simp [Value.valueType]
      · rw [convert_string rfl, readText_boolean]

/-- **Conversion to texts can be taken back.** A value that conforms to a type of integers or
booleans under a number of lists becomes one of texts, and that becomes the value again. -/
theorem texts_convert_back (c : StandardConverter) (view : View) {t : ValueType}
    (leaf : t = .int ∨ t = .long ∨ t = .boolean) (depth : Nat) {v : Value}
    (conforms : c.Conforms view v (t.nested depth)) :
    ∃ u, c.convert view v (ValueType.string.nested depth) = .ok u ∧
      c.convert view u (t.nested depth) = .ok v := by
  induction depth generalizing v with
  | zero =>
    obtain ⟨s, there, back⟩ := exists_text_back leaf conforms
    exact ⟨.string s, there, back⟩
  | succ depth ih =>
    simp only [ValueType.nested] at conforms ⊢
    cases conforms with
    | null reference => exact ⟨.null, convert_null_list _, convert_null_list _⟩
    | @list items element each =>
      obtain ⟨texts, there, back⟩ := exists_mapM_back fun v mem => ih (each v mem)
      refine ⟨.list texts, ?_, ?_⟩
      · rw [convert_list, there]
        rfl
      · rw [convert_list, back]
        rfl

/-- Lists of the least narrow integer, of nothing, and no list at all. -/
theorem texts_convert_back_of_lists :
    let c : StandardConverter := {}
    let view : View := fun _ => none
    let v : Value := .list [.list [.number (.int Int32.minValue)], .list [], .null]
    c.Conforms view v (ValueType.int.nested 2) ∧
      ∃ u, c.convert view v (ValueType.string.nested 2) = .ok u ∧
        c.convert view u (ValueType.int.nested 2) = .ok v := by
  intro c view v
  have conforms : c.Conforms view v (ValueType.int.nested 2) := by
    refine .list fun row mem => ?_
    simp only [List.mem_cons, List.not_mem_nil, or_false] at mem
    rcases mem with rfl | rfl | rfl
    · refine .list fun n mem => ?_
      rw [List.mem_singleton.mp mem]
      exact .number rfl
    · exact .list fun n mem => absurd mem List.not_mem_nil
    · exact .null rfl
  exact ⟨conforms, texts_convert_back c view (.inl rfl) 2 conforms⟩

end StandardConverter

end HostExpr
