import HostExpr.Proofs.Expr.Building
import HostExpr.Proofs.Floating.Overflow

/-!
The texts of real literals, and the amounts that they stand for.

A real literal is digits, a fraction and an exponent, of which the last two may be absent, and maybe
a letter that fixes its format (`RealText`); its amount is an exact rational, however many digits it
has. Whatever the grammar matches as a real is such a text (`realText_of_found`). It can always be
read, and the result is what its amount rounds to (`RealText.value_rounds`).
-/

namespace HostExpr

open Lexeme (digits toLower_of_isDigit)

/-! ### Digits -/

structure Digits (t : List Char) : Prop where
  nonempty : t ≠ []
  each : t.all Char.isDigit

theorem digits_of_found {cs t rest : List Char} (h : digits cs = some (t, rest)) : Digits t := by
  rw [digits] at h
  split at h
  · cases h
  · rename_i nonempty
    cases h
    exact ⟨nonempty, List.all_takeWhile⟩

/-- Digits denote a number. -/
theorem Digits.readDigits {t : List Char} (h : Digits t) :
    Decimal.readDigits t = some (Nat.ofDigitChars 10 t 0) :=
  if_pos ⟨h.nonempty, h.each⟩

theorem Digits.exists_cons {t : List Char} (h : Digits t) : ∃ d ds, t = d :: ds ∧ d.isDigit := by
  cases t with
  | nil => exact absurd rfl h.nonempty
  | cons d ds =>
    refine ⟨d, ds, rfl, ?_⟩
    have each := h.each
    rw [List.all_cons, Bool.and_eq_true] at each
    exact each.1

theorem Digits.exists_concat {t : List Char} (h : Digits t) :
    ∃ ds d, t = ds ++ [d] ∧ d.isDigit := by
  refine ⟨t.dropLast, t.getLast h.nonempty, (List.dropLast_append_getLast h.nonempty).symm, ?_⟩
  exact List.all_eq_true.mp h.each _ (List.getLast_mem h.nonempty)

/-- So many digits denote less than that power of ten. -/
theorem ofDigitChars_lt {ds : List Char} (each : ds.all Char.isDigit) :
    Nat.ofDigitChars 10 ds 0 < 10 ^ ds.length := by
  induction ds with
  | nil => exact Nat.one_pos
  | cons d ds ih =>
    rw [List.all_cons, Bool.and_eq_true] at each
    have small : d.toNat - '0'.toNat ≤ 9 := by
      have le : d.toNat ≤ '9'.toNat := (Char.isDigit_iff_toNat.mp each.1).2
      exact Nat.sub_le_sub_right le '0'.toNat
    rw [Nat.ofDigitChars_cons, Nat.ofDigitChars_eq_ofDigitChars_zero, Nat.mul_zero, Nat.zero_add,
      List.length_cons, Nat.pow_succ]
    have scaled := Nat.mul_le_mul_left (10 ^ ds.length) small
    have rest := ih each.2
    omega

/-- Digits after a point add their part of the last place before it. -/
theorem ofDigitChars_point (ds fs : List Char) (k : Int) :
    (Nat.ofDigitChars 10 (ds ++ fs) 0 : ℚ) * 10 ^ (k - fs.length) =
      (Nat.ofDigitChars 10 ds 0 + Nat.ofDigitChars 10 fs 0 / 10 ^ fs.length) * 10 ^ k := by
  rw [Nat.ofDigitChars_append, Nat.ofDigitChars_eq_ofDigitChars_zero, zpow_sub₀ (by norm_num),
    zpow_natCast]
  push_cast
  field_simp

/-! ### Texts -/

/-- A sign or nothing, and whether it is a minus sign. -/
inductive Sign : List Char → Bool → Prop where
  | none : Sign [] false
  | plus : Sign ['+'] false
  | minus : Sign ['-'] true

/-- A fraction or nothing, and its amount. -/
inductive Fraction : List Char → ℚ → Prop where
  | none : Fraction [] 0
  | point {ds : List Char} (each : Digits ds) :
      Fraction ('.' :: ds) (Nat.ofDigitChars 10 ds 0 / 10 ^ ds.length)

/-- An exponent or nothing, and the integer that it is. -/
inductive Exponent : List Char → Int → Prop where
  | none : Exponent [] 0
  | letter {e : Char} {sign ds : List Char} {negative : Bool} (is_letter : e = 'e' ∨ e = 'E')
      (is_sign : Sign sign negative) (each : Digits ds) :
      Exponent (e :: (sign ++ ds)) (Floating.signed negative (Nat.ofDigitChars 10 ds 0))

/-- A real literal without its suffix, and its amount. -/
inductive RealBody : List Char → ℚ → Prop where
  | mk {ds fraction exponent : List Char} {q : ℚ} {k : Int} (whole : Digits ds)
      (is_fraction : Fraction fraction q) (is_exponent : Exponent exponent k) :
      RealBody (ds ++ fraction ++ exponent) ((Nat.ofDigitChars 10 ds 0 + q) * 10 ^ k)

/-- A real literal, the format that it asks for, and its amount. -/
inductive RealText : List Char → FloatFormat → ℚ → Prop where
  | bare {body : List Char} {q : ℚ} (is_body : RealBody body q) : RealText body .double q
  | single {body : List Char} {c : Char} {q : ℚ} (is_body : RealBody body q)
      (letter : c = 'f' ∨ c = 'F') : RealText (body ++ [c]) .single q
  | double {body : List Char} {c : Char} {q : ℚ} (is_body : RealBody body q)
      (letter : c = 'd' ∨ c = 'D') : RealText (body ++ [c]) .double q

variable {cs : List Char} {q : ℚ} {k : Int}

/-- A digit comes first. -/
theorem RealBody.exists_cons (h : RealBody cs q) : ∃ d rest, cs = d :: rest ∧ d.isDigit := by
  obtain ⟨whole, _, _⟩ := h
  obtain ⟨d, ds, rfl, digit⟩ := whole.exists_cons
  exact ⟨d, _, rfl, digit⟩

/-- A digit comes last. -/
theorem RealBody.exists_concat (h : RealBody cs q) :
    ∃ before d, cs = before ++ [d] ∧ d.isDigit := by
  have after : ∀ {ds : List Char} (s : List Char), Digits ds →
      ∃ before d, s ++ ds = before ++ [d] ∧ d.isDigit := by
    intro ds s each
    obtain ⟨before, d, rfl, digit⟩ := each.exists_concat
    exact ⟨s ++ before, d, (List.append_assoc _ _ _).symm, digit⟩
  obtain @⟨ds, fraction, exponent, _, _, whole, is_fraction, is_exponent⟩ := h
  cases is_exponent with
  | @letter e sign es _ _ _ each =>
    have joined : ds ++ fraction ++ e :: (sign ++ es) = ds ++ fraction ++ e :: sign ++ es := by simp
    rw [joined]
    exact after _ each
  | none =>
    rw [List.append_nil]
    cases is_fraction with
    | none => simpa using after [] whole
    | @point fs each =>
      have joined : ds ++ '.' :: fs = ds ++ ['.'] ++ fs := by simp
      rw [joined]
      exact after _ each

/-- An exponent begins with its letter, if there is one. -/
theorem Exponent.head (h : Exponent cs k) : ∀ c ∈ cs.head?, c = 'e' ∨ c = 'E' := by
  intro c mem
  cases h with
  | none => cases mem
  | letter is_letter =>
    cases mem
    exact is_letter

theorem Exponent.no_digit (h : Exponent cs k) : ∀ c ∈ cs.head?, c.isDigit = false := by
  intro c mem
  rcases h.head c mem with rfl | rfl <;> rfl

/-! ### Reading -/

/-- An integer is read as its digits with its sign. -/
theorem Sign.readInteger_eq {sign ds : List Char} {negative : Bool} (h : Sign sign negative)
    (each : Digits ds) : Decimal.readInteger (sign ++ ds) =
      some (Floating.signed negative (Nat.ofDigitChars 10 ds 0)) := by
  cases h with
  | none =>
    obtain ⟨d, rest, rfl, digit⟩ := each.exists_cons
    rw [List.nil_append, Decimal.readInteger_of_isDigit digit, each.readDigits]
    rfl
  | plus =>
    show (Decimal.readDigits ds).map _ = _
    rw [each.readDigits]
    rfl
  | minus =>
    show (Decimal.readDigits ds).map _ = _
    rw [each.readDigits]
    rfl

/-- A number with an exponent is read with the power of ten that it is. -/
theorem Exponent.reads {α : Type} (number : Int → Option α) (h : Exponent cs k) :
    (match cs with
      | [] => number 0
      | c :: rest => if c = 'e' ∨ c = 'E' then (Decimal.readInteger rest).bind number
        else Option.none) = number k := by
  cases h with
  | none => rfl
  | letter is_letter is_sign each =>
    simp only [if_pos is_letter, is_sign.readInteger_eq each, Option.bind_some]

variable {f : FloatFormat}

/-- Digits, a fraction and an exponent are read as the decimal that they are. -/
theorem RealBody.readUnsigned_eq (h : RealBody cs q) (negative : Bool) :
    ∃ (digits count : Nat) (exponent : Int), digits < 10 ^ count ∧ digits * 10 ^ exponent = q ∧
      Floating.readUnsigned negative cs =
        some (Floating.ofDecimal negative digits count exponent : Floating f) := by
  obtain @⟨ds, fraction, exponent, q, k, whole, is_fraction, is_exponent⟩ := h
  have starts : ∀ c ∈ (fraction ++ exponent).head?, c.isDigit = false := by
    cases is_fraction with
    | none => exact is_exponent.no_digit
    | point each =>
      intro c mem
      cases mem
      rfl
  have run := run_append whole.each starts
  rw [← List.append_assoc] at run
  let number (fs : List Char) (k : Int) : Option (Floating f) :=
    if ds ++ fs = [] then none
    else some (Floating.ofDecimal negative (Nat.ofDigitChars 10 (ds ++ fs) 0) (ds ++ fs).length
      (k - fs.length))
  have number_eq : ∀ fs, number fs k = some (Floating.ofDecimal negative
      (Nat.ofDigitChars 10 (ds ++ fs) 0) (ds ++ fs).length (k - fs.length)) := fun fs =>
    if_neg (by simp [whole.nonempty])
  have below : ∀ fs : List Char, fs.all Char.isDigit →
      Nat.ofDigitChars 10 (ds ++ fs) 0 < 10 ^ (ds ++ fs).length := fun fs each =>
    ofDigitChars_lt (by rw [List.all_append, whole.each, each]; rfl)
  rw [Floating.readUnsigned, run.1, run.2]
  cases is_fraction with
  | none =>
    refine ⟨_, _, k - ([] : List Char).length, below [] rfl, ?_, ?_⟩
    · simp
    · have read := (is_exponent.reads (number [])).trans (number_eq [])
      cases is_exponent with
      | none => exact read
      | letter is_letter is_sign each =>
        rcases is_letter with rfl | rfl
        · exact read
        · exact read
  | @point fs each =>
    have run' := run_append each.each is_exponent.no_digit
    refine ⟨_, _, _, below fs each.each, ofDigitChars_point ds fs k, ?_⟩
    simp only [List.cons_append, run'.1, run'.2]
    have read := (is_exponent.reads (number fs)).trans (number_eq fs)
    cases is_exponent with
    | none => exact read
    | letter => exact read

/-- **A real literal without its suffix is read as what its amount rounds to.** -/
theorem RealBody.readReal_rounds (covers : f.Covers) (h : RealBody cs q) :
    ∃ x : Floating f, LiteralText.readReal cs = .ok x ∧ x.Rounds false q := by
  obtain ⟨digits, count, exponent, lt, amount, read⟩ := h.readUnsigned_eq (f := f) false
  refine ⟨_, ?_, amount ▸ Floating.rounds_ofDecimal covers lt false exponent⟩
  obtain ⟨d, rest, rfl, digit⟩ := h.exists_cons
  have unsigned : (Floating.read (d :: rest) : Option (Floating f)) =
      Floating.readMagnitude false (d :: rest) := by
    unfold Floating.read
    split
    · next heq => cases heq; exact absurd digit (by decide)
    · next heq => cases heq; exact absurd digit (by decide)
    · rfl
  -- The names of special numbers begin with letters.
  have no_name : ∀ {name : List Char}, name.head?.any Char.isDigit = false →
      (d :: rest).map Char.toLower ≠ name := by
    rintro _ letter rfl
    rw [List.map_cons, toLower_of_isDigit digit, List.head?_cons, Option.any_some, digit] at letter
    cases letter
  rw [LiteralText.readReal, unsigned, Floating.readMagnitude, if_neg (no_name rfl),
    if_neg (not_or.mpr ⟨no_name rfl, no_name rfl⟩), read]

/-- A number of the kind of a format that a magnitude rounds to. -/
inductive Number.Rounds (q : ℚ) : FloatFormat → Number → Prop where
  | float {x : Single} (rounds : x.Rounds false q) : Rounds q .single (.float x)
  | double {x : Double} (rounds : x.Rounds false q) : Rounds q .double (.double x)

/-- **A real literal stands for what its amount rounds to in its format**; it is never rejected. -/
theorem RealText.value_rounds {t : List Char} (h : RealText t f q) :
    ∃ n, LiteralText.realValue t = .ok n ∧ n.Rounds q f := by
  cases h with
  | bare is_body =>
    obtain ⟨x, read, rounds⟩ := is_body.readReal_rounds FloatFormat.double_covers
    obtain ⟨before, d, rfl, digit⟩ := is_body.exists_concat
    refine ⟨.double x, ?_, .double rounds⟩
    have last : (before ++ [d]).getLast?.map Char.toLower = some d := by
      rw [List.getLast?_concat, Option.map_some, toLower_of_isDigit digit]
    rw [LiteralText.realValue, last, read]
    split
    · next same => cases same; cases digit
    · next same => cases same; cases digit
    · rfl
  | single is_body letter =>
    obtain ⟨x, read, rounds⟩ := is_body.readReal_rounds FloatFormat.single_covers
    refine ⟨.float x, ?_, .float rounds⟩
    rw [LiteralText.realValue, List.getLast?_concat, List.dropLast_concat, read]
    rcases letter with rfl | rfl <;> rfl
  | double is_body letter =>
    obtain ⟨x, read, rounds⟩ := is_body.readReal_rounds FloatFormat.double_covers
    refine ⟨.double x, ?_, .double rounds⟩
    rw [LiteralText.realValue, List.getLast?_concat, List.dropLast_concat]
    rcases letter with rfl | rfl <;> exact congrArg (Except.map Number.double) read

/-! ### What matchers of reals find -/

theorem exponent_of_found {cs t rest : List Char} (h : Lexeme.exponent cs = some (t, rest)) :
    ∃ k, Exponent t k := by
  obtain ⟨a, middle, b, letter, tail, rfl⟩ := found_of_seq h
  obtain ⟨sign, middle', ds, signed, run, rfl⟩ := found_of_seq tail
  obtain ⟨e, is_letter, rfl⟩ := found_of_oneOf letter
  have each := digits_of_found run
  have is_sign : ∃ negative, Sign sign negative := by
    rcases found_of_optional signed with one | ⟨rfl, _⟩
    · obtain ⟨c, mem, rfl⟩ := found_of_oneOf one
      simp only [List.mem_cons, List.not_mem_nil, or_false] at mem
      rcases mem with rfl | rfl
      · exact ⟨_, .plus⟩
      · exact ⟨_, .minus⟩
    · exact ⟨_, .none⟩
  obtain ⟨negative, is_sign⟩ := is_sign
  show ∃ k, Exponent (e :: (sign ++ ds)) k
  exact ⟨_, .letter (by simpa using is_letter) is_sign each⟩

theorem optional_exponent_of_found {cs t rest : List Char}
    (h : Lexeme.optional Lexeme.exponent cs = some (t, rest)) : ∃ k, Exponent t k := by
  rcases found_of_optional h with one | ⟨rfl, _⟩
  · exact exponent_of_found one
  · exact ⟨0, .none⟩

/-- A letter fixes the format. -/
theorem RealBody.suffixed {cs t rest body : List Char} (h : RealBody body q)
    (suffix : Lexeme.realSuffix cs = some (t, rest)) : ∃ f q, RealText (body ++ t) f q := by
  obtain ⟨c, mem, rfl⟩ := found_of_oneOf suffix
  simp only [List.mem_cons, List.not_mem_nil, or_false] at mem
  rcases mem with rfl | rfl | rfl | rfl
  · exact ⟨_, _, .single h (.inl rfl)⟩
  · exact ⟨_, _, .single h (.inr rfl)⟩
  · exact ⟨_, _, .double h (.inl rfl)⟩
  · exact ⟨_, _, .double h (.inr rfl)⟩

theorem RealBody.optional_suffixed {cs t rest body : List Char} (h : RealBody body q)
    (suffix : Lexeme.optional Lexeme.realSuffix cs = some (t, rest)) :
    ∃ f q, RealText (body ++ t) f q := by
  rcases found_of_optional suffix with one | ⟨rfl, _⟩
  · exact h.suffixed one
  · rw [List.append_nil]
    exact ⟨_, _, .bare h⟩

/-- **What is found as a real is the text of one.** -/
theorem realText_of_found {cs t rest : List Char}
    (h : Lexeme.whole (Lexeme.seq digits Lexeme.realTail) cs = some (t, rest)) :
    ∃ f q, RealText t f q := by
  obtain ⟨ds, middle, tail, run, found, rfl⟩ := found_of_seq (found_of_whole h)
  have whole := digits_of_found run
  rcases found_of_either found with withPoint | withoutPoint
  · obtain ⟨point, middle', others, pointed, more, rfl⟩ := found_of_seq withPoint
    obtain ⟨fs, middle'', last, run', more', rfl⟩ := found_of_seq more
    obtain ⟨exponent, middle''', suffix, powered, suffixed, rfl⟩ := found_of_seq more'
    obtain rfl := eq_of_mark pointed
    obtain ⟨k, is_exponent⟩ := optional_exponent_of_found powered
    have body := RealBody.mk whole (.point (digits_of_found run')) is_exponent
    simpa using body.optional_suffixed suffixed
  · rcases found_of_either withoutPoint with withExponent | onlySuffix
    · obtain ⟨exponent, middle', suffix, powered, suffixed, rfl⟩ := found_of_seq withExponent
      obtain ⟨k, is_exponent⟩ := exponent_of_found powered
      have body := RealBody.mk whole .none is_exponent
      simpa using body.optional_suffixed suffixed
    · have body := RealBody.mk whole .none .none
      simpa using body.suffixed onlySuffix

end HostExpr
