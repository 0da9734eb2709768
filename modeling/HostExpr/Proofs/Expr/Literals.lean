import HostExpr.Proofs.Expr.Operators

/-!
What is found where a path begins.

A literal is found with its kind, whichever way it is written (`Literal.Writes.found`), and a name
is found as a whole. At a name, a bracket or the mark of a variable no literal is found.
-/

namespace HostExpr

open Lexeme (isNameChar isSpace lowered)

namespace Lexeme

/-! ### Matchers in a row -/

theorem seq_of_none {m k : Matcher} {cs : List Char} (h : m cs = none) : seq m k cs = none := by
  simp [seq, h]

theorem seq_of_some {m k : Matcher} {cs t rest : List Char} (h : m cs = some (t, rest)) :
    seq m k cs = (k rest).map fun found => (t ++ found.1, found.2) := by
  simp only [seq, h, Option.bind_eq_bind, Option.bind_some]
  cases k rest <;> rfl

/-- A match that ends with its token is whole. -/
theorem whole_of_ends {m : Matcher} {cs t rest : List Char} (h : m cs = some (t, rest))
    (ends : Ends rest) : whole m cs = some (t, rest) := by
  simp [whole, h, ends.endsWord]

theorem whole_of_none {m : Matcher} {cs : List Char} (h : m cs = none) : whole m cs = none := by
  simp [whole, h]

theorem oneOf_of_not_mem {chars cs : List Char} (h : ∀ c ∈ cs.head?, c ∉ chars) :
    oneOf chars cs = none := by
  cases cs with
  | nil => rfl
  | cons c cs => exact if_neg (by simpa using h c rfl)

/-! ### Numbers -/

theorem isNameChar_of_isDigit {c : Char} (h : c.isDigit) : isNameChar c := by
  simp [isNameChar, Char.isAlphanum, h]

/-- Digits have no letter case. -/
theorem toLower_of_isDigit {c : Char} (h : c.isDigit) : c.toLower = c := by
  simp only [Char.isDigit, Bool.and_eq_true, decide_eq_true_eq] at h
  refine dif_neg ?_
  rintro ⟨ge, -⟩
  exact absurd (UInt32.le_trans ge h.2) (by decide)

/-- A run of digits is found up to where another character stands. -/
theorem digits_append {t rest : List Char} (nonempty : t ≠ []) (each : t.all Char.isDigit)
    (other : ∀ c ∈ rest.head?, c.isDigit = false) : digits (t ++ rest) = some (t, rest) := by
  obtain ⟨run, after⟩ := run_append each other
  rw [digits, run, after, if_neg nonempty]

theorem digits_of_head {c : Char} {cs : List Char} (other : c.isDigit = false) :
    digits (c :: cs) = none := by
  simp [digits, other]

/-- No fraction, exponent or suffix begins with another character than theirs. -/
theorem realTail_of_head {cs : List Char}
    (h : ∀ c ∈ cs.head?, c ∉ ['.', 'e', 'E', 'f', 'F', 'd', 'D']) : realTail cs = none := by
  have point : mark ['.'] cs = none := by
    cases cs with
    | nil => rfl
    | cons c cs =>
      refine mark_of_ne ?_
      rintro rfl
      exact h '.' rfl (by decide)
  have letter : oneOf ['e', 'E'] cs = none :=
    oneOf_of_not_mem fun c head mem => h c head (by grind)
  have suffix : realSuffix cs = none :=
    oneOf_of_not_mem fun c head mem => h c head (by grind)
  simp [realTail, either, exponent, seq_of_none, point, letter, suffix]

/-- Without digits there is no number. -/
theorem no_number {cs : List Char} (h : digits cs = none) :
    whole (seq digits realTail) cs = none ∧ whole (seq digits (oneOf ['l', 'L'])) cs = none ∧
      whole digits cs = none :=
  ⟨whole_of_none (seq_of_none h), whole_of_none (seq_of_none h), whole_of_none h⟩

/-- A run of name characters that begins with a digit. -/
structure IsNumeral (t : Token) : Prop where
  chars : t.all isNameChar
  digit : ∃ d ∈ t.head?, d.isDigit

namespace IsNumeral

variable {t rest : List Char}

theorem of_digits (nonempty : t ≠ []) (each : t.all Char.isDigit) : IsNumeral t := by
  have every : ∀ c ∈ t, c.isDigit := List.all_eq_true.mp each
  constructor
  · exact List.all_eq_true.mpr fun c mem => isNameChar_of_isDigit (every c mem)
  · exact ⟨_, List.head?_eq_some_head nonempty, every _ (List.head_mem nonempty)⟩

theorem append (h : IsNumeral t) {c : Char} (char : isNameChar c) : IsNumeral (t ++ [c]) := by
  obtain ⟨d, first, digit⟩ := h.digit
  constructor
  · rw [List.all_append, h.chars]
    simpa using char
  · refine ⟨d, ?_, digit⟩
    rw [List.head?_append, show t.head? = some d from first]
    rfl

/-- A numeral is no word, as words do not begin with digits. -/
theorem lowered_ne (h : IsNumeral t) {w : String}
    (letter : w.toList.head?.any Char.isDigit = false) : lowered t ≠ w := by
  rintro rfl
  obtain ⟨d, first, digit⟩ := h.digit
  have head : (lowered t).toList.head? = some d := by
    rw [lowered, String.toList_ofList, List.head?_map, show t.head? = some d from first]
    exact congrArg some (toLower_of_isDigit digit)
  rw [head, Option.any_some, digit] at letter
  cases letter

theorem word_eq_none (h : IsNumeral t) (ends : Ends rest) {words : List String}
    (letters : ∀ w ∈ words, w.toList.head?.any Char.isDigit = false) :
    word words (t ++ rest) = none := by
  rw [word_of_word h.chars ends]
  refine if_neg fun contains => ?_
  have mem : lowered t ∈ words := by simpa using contains
  exact h.lowered_ne (letters _ mem) rfl

end IsNumeral

/-! ### Quoted texts -/

/-- A quoted text is found up to its closing quote. -/
theorem untilQuote_doubled (quote : Char) {rest : List Char} (noQuote : rest.head? ≠ some quote)
    (cs : List Char) :
    untilQuote quote (doubled quote cs ++ quote :: rest) =
      some (doubled quote cs ++ [quote], rest) := by
  induction cs with
  | nil =>
    cases rest with
    | nil => simp [doubled, untilQuote]
    | cons d ds =>
      have other : d ≠ quote := by simpa using noQuote
      simp [doubled, untilQuote, other]
  | cons c cs ih =>
    by_cases is_quote : c = quote
    · have twice : doubled quote (c :: cs) = quote :: quote :: doubled quote cs := by
        simp [doubled, is_quote]
      simp [twice, untilQuote, ih]
    · have once : doubled quote (c :: cs) = c :: doubled quote cs := by
        simp [doubled, is_quote]
      rw [once, List.cons_append]
      cases others : doubled quote cs ++ quote :: rest with
      | nil => simp at others
      | cons d ds =>
        rw [untilQuote, if_neg is_quote, ← others, ih]
        rfl

theorem quotedText_doubled (quote : Char) {rest : List Char} (noQuote : rest.head? ≠ some quote)
    (cs : List Char) :
    quotedText quote (quote :: (doubled quote cs ++ quote :: rest)) =
      some (quote :: doubled quote cs ++ [quote], rest) := by
  have opening := mark_append [quote] (doubled quote cs ++ quote :: rest)
  rw [List.singleton_append] at opening
  rw [quotedText, seq_of_some opening, untilQuote_doubled quote noQuote]
  rfl

/-! ### Literals -/

/-- At a character that no name has, a quoted text is all that may be found. -/
theorem literal_of_not_isNameChar {c : Char} {cs : List Char} (other : isNameChar c = false) :
    literal (c :: cs) = [(.quoted '\'', quotedText '\''), (.quoted '"', quotedText '"')].findSome?
      fun (kind, m) => (m (c :: cs)).map (kind, ·) := by
  have noWord {words : List String} (nonempty : "" ∉ words) : word words (c :: cs) = none :=
    word_of_not_isNameChar other nonempty
  have noDigits : digits (c :: cs) = none := by
    refine digits_of_head (Bool.eq_false_iff.mpr fun digit => ?_)
    rw [isNameChar_of_isDigit digit] at other
    cases other
  simp [literal, literalMatchers, noWord, no_number noDigits]

section

variable {t rest : List Char}

/-- Digits are an integer, and no real, since neither a point nor a letter follows. -/
theorem literal_of_digits (nonempty : t ≠ []) (each : t.all Char.isDigit) (ends : Ends rest) :
    literal (t ++ rest) = some (.integer, t, rest) := by
  have no_letter {cs : List Char} (solid : cs.any isSpace = false) : ∀ c ∈ rest.head?, c ∉ cs :=
    fun c head mem => List.any_eq_false.mp solid c mem (ends c head)
  have numeral := IsNumeral.of_digits nonempty each
  have run := digits_append nonempty each fun c head => isDigit_of_isSpace (ends c head)
  have noNull : word ["null"] (t ++ rest) = none := numeral.word_eq_none ends (by decide)
  have noBoolean : word ["true", "false"] (t ++ rest) = none :=
    numeral.word_eq_none ends (by decide)
  have noReal : whole (seq digits realTail) (t ++ rest) = none :=
    whole_of_none (by rw [seq_of_some run, realTail_of_head (no_letter rfl)]; rfl)
  have noLong : whole (seq digits (oneOf ['l', 'L'])) (t ++ rest) = none :=
    whole_of_none (by rw [seq_of_some run, oneOf_of_not_mem (no_letter rfl)]; rfl)
  simp [literal, literalMatchers, noNull, noBoolean, noReal, noLong, whole_of_ends run ends]

/-- Digits before the letter of the wide integers are one. -/
theorem literal_of_wide (nonempty : t ≠ []) (each : t.all Char.isDigit) {letter : Char}
    (wide : letter = 'l' ∨ letter = 'L') (ends : Ends rest) :
    literal (t ++ [letter] ++ rest) = some (.long, t ++ [letter], rest) := by
  have numeral : IsNumeral (t ++ [letter]) :=
    (IsNumeral.of_digits nonempty each).append (by rcases wide with rfl | rfl <;> rfl)
  have noNull : word ["null"] (t ++ [letter] ++ rest) = none :=
    numeral.word_eq_none ends (by decide)
  have noBoolean : word ["true", "false"] (t ++ [letter] ++ rest) = none :=
    numeral.word_eq_none ends (by decide)
  have text : t ++ [letter] ++ rest = t ++ letter :: rest := by simp
  rw [text] at noNull noBoolean ⊢
  have run : digits (t ++ letter :: rest) = some (t, letter :: rest) := by
    refine digits_append nonempty each ?_
    rintro c ⟨⟩
    rcases wide with rfl | rfl <;> rfl
  have noTail : realTail (letter :: rest) = none := by
    refine realTail_of_head ?_
    rintro c ⟨⟩
    rcases wide with rfl | rfl <;> decide
  have noReal : whole (seq digits realTail) (t ++ letter :: rest) = none :=
    whole_of_none (by rw [seq_of_some run, noTail]; rfl)
  have found : seq digits (oneOf ['l', 'L']) (t ++ letter :: rest) =
      some (t ++ [letter], rest) := by
    rw [seq_of_some run, oneOf, if_pos (by simpa using wide)]
    rfl
  simp [literal, literalMatchers, noNull, noBoolean, noReal, whole_of_ends found ends]

/-- A quoted text is found whichever quotes it stands between. -/
theorem literal_of_quoted {quote : Char} (is_quote : quote = '\'' ∨ quote = '"') (cs : List Char)
    (ends : Ends rest) : literal (quote :: doubled quote cs ++ [quote] ++ rest) =
      some (.quoted quote, quote :: doubled quote cs ++ [quote], rest) := by
  have text : quote :: doubled quote cs ++ [quote] ++ rest =
      quote :: (doubled quote cs ++ quote :: rest) := by simp
  rw [text]
  rcases is_quote with rfl | rfl
  · have noQuote : rest.head? ≠ some '\'' := fun head => absurd (ends _ head) (by decide)
    rw [literal_of_not_isNameChar rfl]
    simp [quotedText_doubled _ noQuote]
  · have noQuote : rest.head? ≠ some '"' := fun head => absurd (ends _ head) (by decide)
    have noSingle : quotedText '\'' ('"' :: (doubled '"' cs ++ '"' :: rest)) = none :=
      seq_of_none (mark_of_ne (by decide))
    rw [literal_of_not_isNameChar rfl]
    simp [noSingle, quotedText_doubled _ noQuote]

end

end Lexeme

open Lexeme

/-- **A literal is found** with its kind, as it was written. -/
theorem Literal.Writes.found {l : Literal} {t rest : List Char} (h : l.Writes t)
    (ends : Ends rest) : Lexeme.literal (t ++ rest) = some ((l.textOf t).kind, t, rest) := by
  cases h with
  | null lower =>
    have chars : t.all isNameChar := all_isNameChar_of_lowered lower (by decide)
    have found : word ["null"] (t ++ rest) = some (t, rest) := by
      rw [word_of_word chars ends, lower]
      rfl
    simp [literal, literalMatchers, found, textOf]
  | @boolean b t lower =>
    have chars : t.all isNameChar := all_isNameChar_of_lowered lower (by cases b <;> decide)
    have noNull : word ["null"] (t ++ rest) = none := by
      rw [word_of_word chars ends, lower]
      cases b <;> rfl
    have found : word ["true", "false"] (t ++ rest) = some (t, rest) := by
      rw [word_of_word chars ends, lower]
      cases b <;> rfl
    simp [literal, literalMatchers, noNull, found, textOf]
  | int nonempty each value => exact literal_of_digits nonempty each ends
  | long nonempty each value wide => exact literal_of_wide nonempty each (by simpa using wide) ends
  | string is_quote => exact literal_of_quoted (by simpa using is_quote) _ ends

/-- A path may begin with a numeral. -/
theorem Lexeme.IsNumeral.opens {t : Token} (h : IsNumeral t) : Opens t := by
  refine .word h.chars ?_ (h.lowered_ne rfl)
  rintro rfl
  obtain ⟨d, first, -⟩ := h.digit
  cases first

/-- A path may begin with a literal. -/
theorem Literal.Writes.opens {l : Literal} {t : Token} (h : l.Writes t) : Opens t := by
  have of_lowered {w : String} (lower : lowered t = w) (chars : w.toList.all isNameChar)
      (nonempty : w ≠ "") (other : w ≠ "not") : Opens t := by
    refine .word (all_isNameChar_of_lowered lower chars) ?_ (lower ▸ other)
    rintro rfl
    exact nonempty lower.symm
  cases h with
  | null lower => exact of_lowered lower (by decide) (by decide) (by decide)
  | @boolean b t lower =>
    cases b with
    | true => exact of_lowered lower (by decide) (by decide) (by decide)
    | false => exact of_lowered lower (by decide) (by decide) (by decide)
  | int nonempty each value => exact (IsNumeral.of_digits nonempty each).opens
  | long nonempty each value wide =>
    refine ((IsNumeral.of_digits nonempty each).append ?_).opens
    simp only [List.mem_cons, List.not_mem_nil, or_false] at wide
    rcases wide with rfl | rfl <;> rfl
  | string is_quote =>
    refine .mark ?_
    simp only [List.mem_cons, List.not_mem_nil, or_false] at is_quote ⊢
    exact .inr (.inr (.inr is_quote))

/-- No literal is found at a bracket or at the mark of a variable. -/
theorem Lexeme.literal_of_bracket {d : Char} {cs : List Char}
    (h : d ∈ ['(', ')', '\x7b', '\x7d', '#']) : Lexeme.literal (d :: cs) = none := by
  have noQuote {quote : Char} (other : d ≠ quote) : quotedText quote (d :: cs) = none :=
    seq_of_none (mark_of_ne other)
  have noName : isNameChar d = false := by
    simp only [List.mem_cons, List.not_mem_nil, or_false] at h
    rcases h with rfl | rfl | rfl | rfl | rfl <;> rfl
  rw [literal_of_not_isNameChar noName]
  simp only [List.mem_cons, List.not_mem_nil, or_false] at h
  rcases h with rfl | rfl | rfl | rfl | rfl <;> simp [noQuote]

/-! ### Names -/

theorem Lexeme.name_of_not_isNameChar {d : Char} {cs : List Char} (other : isNameChar d = false) :
    Lexeme.name (d :: cs) = none := by
  simp [Lexeme.name, other]

theorem isDigit_of_isNameStart {c : Char} (h : isNameStart c) : c.isDigit = false := by
  simp only [isNameStart, Bool.or_eq_true, decide_eq_true_eq] at h
  refine Bool.eq_false_iff.mpr fun digit => ?_
  simp only [Char.isDigit, Bool.and_eq_true, decide_eq_true_eq] at digit
  rcases h with (letter | rfl) | rfl
  · rcases Bool.or_eq_true_iff.mp letter with upper | lower
    · exact absurd (UInt32.le_trans (of_decide_eq_true upper).1 digit.2) (by decide)
    · have ge := of_decide_eq_true (Bool.and_eq_true_iff.mp lower).1
      exact absurd (UInt32.le_trans ge digit.2) (by decide)
  · exact absurd digit.2 (by decide)
  · exact absurd digit.1 (by decide)

namespace IsName

variable {t rest : List Char}

theorem nonempty (h : IsName t) : t ≠ [] := by
  obtain ⟨c, first, -⟩ := h.start
  rintro rfl
  cases first

/-- **A name is found** as a whole. -/
theorem found (h : IsName t) (ends : Ends rest) : Lexeme.name (t ++ rest) = some (t, rest) := by
  obtain ⟨run, after⟩ := run_append h.chars fun c head => isNameChar_of_isSpace (ends c head)
  obtain ⟨c, first, start⟩ := h.start
  have head : t.head? = some c := first
  rw [Lexeme.name, run, after, head]
  exact if_pos (by simp [start, h.not_keyword])

/-- A name is no word that is a keyword. -/
theorem word_eq_none (h : IsName t) (ends : Ends rest) {words : List String}
    (keywords : words ⊆ Lexeme.keywords) : word words (t ++ rest) = none := by
  rw [word_of_word h.chars ends]
  refine if_neg fun contains => h.not_keyword (keywords ?_)
  simpa using contains

/-- No literal is found at a name. -/
theorem literal_eq_none (h : IsName t) (ends : Ends rest) : Lexeme.literal (t ++ rest) = none := by
  have noNull : word ["null"] (t ++ rest) = none := h.word_eq_none ends (by decide)
  have noBoolean : word ["true", "false"] (t ++ rest) = none := h.word_eq_none ends (by decide)
  have noDigits : digits (t ++ rest) = none := by
    obtain ⟨c, first, start⟩ := h.start
    cases t with
    | nil => cases first
    | cons d ds =>
      cases first
      exact digits_of_head (isDigit_of_isNameStart start)
  have noSingle : quotedText '\'' (t ++ rest) = none :=
    seq_of_none (mark_of_word h.chars h.nonempty rfl)
  have noDouble : quotedText '"' (t ++ rest) = none :=
    seq_of_none (mark_of_word h.chars h.nonempty rfl)
  simp [literal, literalMatchers, noNull, noBoolean, no_number noDigits, noSingle, noDouble]

theorem opens (h : IsName t) : Opens t :=
  .word h.chars h.nonempty fun lower => h.not_keyword (lower ▸ by decide)

end IsName

end HostExpr
