import HostExpr.Proofs.Expr.Reals

/-!
What literals decode to as they are found in a source.

An integer decodes to exactly what its digits denote, with any number of leading zeros, or is too
large for its width. Every other literal has a value.
-/

namespace HostExpr

open Lexeme (digits)

/-! ### Values of literals -/

namespace LiteralText

variable {t : LiteralText}

/-- The number that an integer denotes in base ten; a wide one has a letter after its digits. -/
def value? (t : LiteralText) : Option Nat :=
  match t.kind with
  | .integer => some (Nat.ofDigitChars 10 t.chars 0)
  | .long => some (Nat.ofDigitChars 10 t.chars.dropLast 0)
  | _ => none

/-- An integer beyond its width: above `2 ^ 31 - 1`, or above `2 ^ 63 - 1` if it is wide. -/
def Overflows (t : LiteralText) : Prop :=
  ∃ n : Nat, t.value? = some n ∧ (t.kind = .integer ∧ Int32.maxValue.toInt < n ∨
    t.kind = .long ∧ Int64.maxValue.toInt < n)

/-- A literal is what a text denotes; an integer is of its width and has exactly its value. -/
structure Denotes (t : LiteralText) (l : Literal) : Prop where
  decode : t.decode = .ok l
  int : t.kind = .integer →
    ∃ (i : Int32) (n : Nat), l = .number (.int i) ∧ t.value? = some n ∧ i.toInt = n
  long : t.kind = .long →
    ∃ (i : Int64) (n : Nat), l = .number (.long i) ∧ t.value? = some n ∧ i.toInt = n

/-- What a literal comes to: it is too large, or it has its value. -/
inductive Settles (t : LiteralText) : Except LiteralFault Literal → Prop where
  | tooLarge (overflows : t.Overflows) : Settles t (.error .tooLarge)
  | value {l : Literal} (fits : ¬ t.Overflows) (denotes : t.Denotes l) : Settles t (.ok l)

/-- A literal was found by the matcher of its kind. -/
theorem Found.matched (h : t.Found) :
    ∃ m cs rest, (t.kind, m) ∈ Lexeme.literalMatchers ∧ m cs = some (t.chars, rest) := by
  obtain ⟨cs, rest, found⟩ := h
  rw [Lexeme.literal] at found
  obtain ⟨⟨kind, m⟩, mem, found⟩ := List.exists_of_findSome?_eq_some found
  rw [Option.map_eq_some_iff] at found
  obtain ⟨_, found, same⟩ := found
  cases same
  exact ⟨m, cs, rest, mem, found⟩

/-- Unless it is an integer, a literal with a value has just that. -/
theorem settles_of_decode {l : Literal} (decode : t.decode = .ok l) (not_int : t.kind ≠ .integer)
    (not_long : t.kind ≠ .long) : t.Settles t.decode := by
  rw [decode]
  refine .value ?_ ⟨decode, fun int => absurd int not_int, fun long => absurd long not_long⟩
  rintro ⟨_, _, ⟨int, _⟩ | ⟨long, _⟩⟩
  · exact not_int int
  · exact not_long long

/-- An integer of some width settles, read up to the greatest of that width. -/
theorem settles_of_read {n : Nat} {bound : Int} {l : Literal}
    (decode : t.decode = if (n : Int) ≤ bound then .ok l else .error .tooLarge)
    (overflows : t.Overflows ↔ bound < n) (denotes : n ≤ bound → t.decode = .ok l → t.Denotes l) :
    t.Settles t.decode := by
  by_cases fits : (n : Int) ≤ bound
  · rw [if_pos fits] at decode
    have denoted := denotes fits decode
    rw [decode]
    exact .value (fun beyond => absurd (overflows.mp beyond) (by omega)) denoted
  · rw [if_neg fits] at decode
    rw [decode]
    exact .tooLarge (overflows.mpr (by omega))

/-- Digits settle as a narrow integer. -/
theorem settles_integer {ds : List Char} (run : Digits ds) :
    Settles ⟨.integer, ds⟩ (decode ⟨.integer, ds⟩) := by
  obtain ⟨n, denotes⟩ : ∃ n, Nat.ofDigitChars 10 ds 0 = n := ⟨_, rfl⟩
  have value : value? ⟨.integer, ds⟩ = some n := congrArg some denotes
  have decoded : decode ⟨.integer, ds⟩ = if (n : Int) ≤ Int32.maxValue.toInt
      then .ok (.number (.int (.ofInt n))) else .error .tooLarge := by
    simp only [decode, readBounded_eq run.readDigits, denotes]
    split <;> rfl
  refine settles_of_read decoded ?_ fun fits denoted => ⟨denoted, fun _ => ?_, by simp⟩
  · simp [Overflows, value]
  · have top : Int32.maxValue.toInt < 2 ^ 31 := by decide
    exact ⟨.ofInt n, n, rfl, value, Int32.toInt_ofInt_of_le (by omega) (by omega)⟩

/-- Digits before a letter settle as a wide integer. -/
theorem settles_long {t : List Char} (run : Digits t.dropLast) :
    Settles ⟨.long, t⟩ (decode ⟨.long, t⟩) := by
  obtain ⟨n, denotes⟩ : ∃ n, Nat.ofDigitChars 10 t.dropLast 0 = n := ⟨_, rfl⟩
  have value : value? ⟨.long, t⟩ = some n := congrArg some denotes
  have decoded : decode ⟨.long, t⟩ = if (n : Int) ≤ Int64.maxValue.toInt
      then .ok (.number (.long (.ofInt n))) else .error .tooLarge := by
    simp only [decode, readBounded_eq run.readDigits, denotes]
    split <;> rfl
  refine settles_of_read decoded ?_ fun fits denoted => ⟨denoted, by simp, fun _ => ?_⟩
  · simp [Overflows, value]
  · have top : Int64.maxValue.toInt < 2 ^ 63 := by decide
    exact ⟨.ofInt n, n, rfl, value, Int64.toInt_ofInt_of_le (by omega) (by omega)⟩

/-- **Every literal that is found is too large or has its value.** -/
theorem Found.settles (h : t.Found) : t.Settles t.decode := by
  obtain ⟨kind, chars⟩ := t
  obtain ⟨m, cs, rest, mem, found⟩ := h.matched
  cases kind with
  | null => exact settles_of_decode rfl (by simp) (by simp)
  | boolean => exact settles_of_decode rfl (by simp) (by simp)
  | quoted quote => exact settles_of_decode rfl (by simp) (by simp)
  | real =>
    obtain rfl : m = Lexeme.whole (Lexeme.seq digits Lexeme.realTail) := by
      simpa [Lexeme.literalMatchers] using mem
    obtain ⟨f, q, is_real⟩ := realText_of_found found
    obtain ⟨n, value, -⟩ := is_real.value_rounds
    have decoded : decode ⟨.real, chars⟩ = .ok (.number n) := by
      rw [decode, value]
      rfl
    exact settles_of_decode decoded (by simp) (by simp)
  | integer =>
    obtain rfl : m = Lexeme.whole digits := by simpa [Lexeme.literalMatchers] using mem
    exact settles_integer (digits_of_found (found_of_whole found))
  | long =>
    obtain rfl : m = Lexeme.whole (Lexeme.seq digits (Lexeme.oneOf ['l', 'L'])) := by
      simpa [Lexeme.literalMatchers] using mem
    obtain ⟨ds, middle, letter, run, last, rfl⟩ := found_of_seq (found_of_whole found)
    obtain ⟨c, _, rfl⟩ := found_of_oneOf last
    refine settles_long ?_
    rw [List.dropLast_concat]
    exact digits_of_found run

end LiteralText

end HostExpr
