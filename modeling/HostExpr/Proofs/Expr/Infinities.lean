import HostExpr.Proofs.Expr.Totality

/-!
Real literals beyond their formats.

A real literal is no reason to reject a source, whatever its amount: it becomes the number of its
format that the amount rounds to. An infinite literal thus stands in an expression exactly if the
source has a real literal whose amount exceeds its format (`Builder.parse_reals`). Integers are not
treated so: a source with one that is too large is rejected.
-/

namespace HostExpr

def Literal.IsInfinite (l : Literal) : Prop :=
  ∃ s, l = .number (.float (.infinite s)) ∨ l = .number (.double (.infinite s))

/-- A number that a magnitude rounds to is infinite exactly if the magnitude exceeds its format. -/
theorem Number.Rounds.isInfinite_iff {q : ℚ} {f : FloatFormat} {n : Number} (h : n.Rounds q f) :
    Literal.IsInfinite (.number n) ↔ f.Exceeds q := by
  cases h with
  | float rounds =>
    rw [← rounds.infinite_iff]
    simp [Literal.IsInfinite]
  | double rounds =>
    rw [← rounds.infinite_iff]
    simp [Literal.IsInfinite]

namespace LiteralText

variable {t : LiteralText} {l : Literal}

/-- A real whose amount exceeds the format that it asks for. -/
def ExceedsFormat (t : LiteralText) : Prop :=
  t.kind = .real ∧ ∃ f q, RealText t.chars f q ∧ f.Exceeds q

/-- What is found as a real has a format and an amount. -/
theorem Found.exists_realText (h : t.Found) (real : t.kind = .real) :
    ∃ f q, RealText t.chars f q := by
  obtain ⟨m, cs, rest, mem, found⟩ := h.matched
  rw [real] at mem
  obtain rfl : m = Lexeme.whole (Lexeme.seq Lexeme.digits Lexeme.realTail) := by
    simpa [Lexeme.literalMatchers] using mem
  exact realText_of_found found

/-- A real becomes a number that its amount rounds to. -/
theorem Denotes.rounds {f : FloatFormat} {q : ℚ} (h : t.Denotes l) (real : t.kind = .real)
    (text : RealText t.chars f q) : ∃ n, l = .number n ∧ n.Rounds q f := by
  obtain ⟨n, value, rounds⟩ := text.value_rounds
  refine ⟨n, ?_, rounds⟩
  have decoded : t.decode = .ok (.number n) := by
    rw [LiteralText.decode, real, value]
    rfl
  exact Except.ok.inj (h.decode.symm.trans decoded)

/-- No literal of another kind becomes infinite. -/
theorem Denotes.real_of_isInfinite (h : t.Denotes l) (infinite : l.IsInfinite) :
    t.kind = .real := by
  obtain ⟨kind, chars⟩ := t
  have decoded := h.decode
  cases kind with
  | real => rfl
  | integer =>
    obtain ⟨i, _, rfl, -⟩ := h.int rfl
    simp [Literal.IsInfinite] at infinite
  | long =>
    obtain ⟨i, _, rfl, -⟩ := h.long rfl
    simp [Literal.IsInfinite] at infinite
  | null =>
    cases decoded
    simp [Literal.IsInfinite] at infinite
  | boolean =>
    cases decoded
    simp [Literal.IsInfinite] at infinite
  | quoted quote =>
    cases decoded
    simp [Literal.IsInfinite] at infinite

/-- **A literal becomes infinite exactly if it is a real that exceeds its format.** -/
theorem Denotes.isInfinite_iff (h : t.Denotes l) (found : t.Found) :
    l.IsInfinite ↔ t.ExceedsFormat := by
  constructor
  · intro infinite
    have real := h.real_of_isInfinite infinite
    obtain ⟨f, q, text⟩ := found.exists_realText real
    obtain ⟨n, rfl, rounds⟩ := h.rounds real text
    exact ⟨real, f, q, text, rounds.isInfinite_iff.mp infinite⟩
  · rintro ⟨real, f, q, text, exceeds⟩
    obtain ⟨n, rfl, rounds⟩ := h.rounds real text
    exact rounds.isInfinite_iff.mpr exceeds

end LiteralText

namespace Builder

structure RealsOn (source : String) (pairs : List Pair) : Prop where
  /-- Each has a format and an amount. -/
  amount : ∀ l ∈ Pair.literals pairs, l.2.kind = .real → ∃ f q, RealText l.2.chars f q
  /-- None is ever rejected: what is reported is an integer. -/
  rejected : ∀ failure, parse source = .error failure → ∃ l ∈ Pair.literals pairs,
    (l.2.kind = .integer ∨ l.2.kind = .long) ∧
      failure = .parse (.invalidLiteral (String.ofList l.2.chars) l.1 .tooLarge)
  /-- Each becomes the number of its format that its amount rounds to, where it stands. -/
  become : ∀ e, parse source = .ok e → List.Forall₂
    (fun l node => node.1 = l.1 ∧ ∀ f q, l.2.kind = .real → RealText l.2.chars f q →
      ∃ n, node.2 = .number n ∧ n.Rounds q f) (Pair.literals pairs) e.literals
  /-- A literal is infinite exactly where one exceeds its format. -/
  infinite : ∀ e, parse source = .ok e → List.Forall₂
    (fun l node => node.2.IsInfinite ↔ l.2.ExceedsFormat) (Pair.literals pairs) e.literals

/-- **Reals are rounded and never rejected**, so those that exceed their formats become infinite. -/
theorem parse_reals {source : String} {pairs : List Pair}
    (matched : Pair.ofSource? source = some pairs) : RealsOn source pairs where
  amount l mem := by
    obtain ⟨q, _, whole⟩ := Pair.whole_of_ofSource? matched
    exact (whole.found l mem).exists_realText
  rejected failure failed := by
    obtain ⟨e, unread, rfl⟩ := parse_eq_error.mp failed
    obtain ⟨l, mem, ⟨_, _, large⟩, _, rfl⟩ := Expr.error_of_parse matched unread
    exact ⟨l, mem, large.imp And.left And.left, rfl⟩
  become e built := by
    refine (Expr.become_of_parse matched (parse_eq_ok.mp built)).imp ?_
    rintro l node ⟨place, denotes⟩
    exact ⟨place, fun f q => denotes.rounds⟩
  infinite e built := by
    obtain ⟨q, _, whole⟩ := Pair.whole_of_ofSource? matched
    have each := (List.forall₂_and_left _ _).mpr
      ⟨whole.found, Expr.become_of_parse matched (parse_eq_ok.mp built)⟩
    refine each.imp ?_
    rintro l node ⟨found, _, denotes⟩
    exact denotes.isInfinite_iff found

theorem parse_reals_of_sum : ∃ pairs, Pair.ofSource? "2.5f + 1e400" = some pairs ∧
    RealsOn "2.5f + 1e400" pairs :=
  ⟨_, rfl, parse_reals rfl⟩

/-- With a digit too many in its exponent, a number is no mistake but an infinity. -/
theorem parse_exceeding_double : ∃ pairs e, Pair.ofSource? "1e2000" = some pairs ∧
    (∃ l ∈ Pair.literals pairs, l.2.ExceedsFormat) ∧ parse "1e2000" = .ok e ∧
      e.literals = [(⟨0, 6⟩, .number (.double (.infinite false)))] := by
  have read : (Pair.ofSource? "1e2000").map Pair.literals =
      some [(⟨0, 6⟩, ⟨.real, "1e2000".toList⟩)] := by decide +kernel
  obtain ⟨pairs, matched, literals⟩ := Option.map_eq_some_iff.mp read
  have exceeds : LiteralText.ExceedsFormat ⟨.real, "1e2000".toList⟩ := by
    have whole : Digits ['1'] := ⟨by decide, rfl⟩
    have thousands : Digits ['2', '0', '0', '0'] := ⟨by decide, rfl⟩
    have exponent : Exponent ['e', '2', '0', '0', '0'] 2000 := .letter (.inl rfl) .none thousands
    have body := RealBody.mk whole .none exponent
    refine ⟨rfl, .double, _, .bare body, FloatFormat.exceeds_of_two_pow_le ?_⟩
    have one : Nat.ofDigitChars 10 ['1'] 0 = 1 := rfl
    rw [one, Nat.cast_one, add_zero, one_mul]
    calc (2 : ℚ) ^ ((FloatFormat.double.fractionBits : Int) + 1 + FloatFormat.double.greatest)
      _ ≤ 2 ^ (2000 : Int) := zpow_le_zpow_right₀ one_le_two (by decide)
      _ ≤ 10 ^ (2000 : Int) := Floating.two_zpow_le_ten_zpow (by decide)
  have values := Expr.literals_parse matched
  rw [literals] at values
  cases parsed : Expr.parse "1e2000" with
  | error failure =>
    rw [parsed] at values
    cases values
  | ok e =>
    rw [parsed] at values
    refine ⟨pairs, e, matched, ?_, parse_eq_ok.mpr parsed, Except.ok.inj values⟩
    rw [literals]
    exact ⟨_, .head _, exceeds⟩

end Builder

end HostExpr
