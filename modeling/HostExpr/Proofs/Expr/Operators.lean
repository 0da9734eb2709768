import HostExpr.Proofs.Expr.Tokens

/-!
Which operators and signs are found at a token.

An operator is found among those of its level (`Cursor.choose_operator`). What may follow an
expression of a level, `Follows`, is no operator of that level
(`Cursor.choose_operators_of_closes`), and a token with which a path may begin, `Opens`, is no sign
(`Cursor.choose_signs_of_opens`).
-/

namespace HostExpr

open Lexeme (isNameChar isSpace lowered)

/-! ### Operators -/

def Level.operators : Level → List (BinaryOperator × Matcher)
  | .or => Grammar.orOperators
  | .and => Grammar.andOperators
  | .relation => Grammar.relations
  | .sum => Grammar.sumOperators
  | .product => Grammar.productOperators
  | _ => []

/-- The level of the operators whose marks begin with a character, if there are such. -/
def markLevel : Char → Option Level
  | '|' => some .or
  | '&' => some .and
  | '=' | '!' | '<' | '>' => some .relation
  | '+' | '-' => some .sum
  | '*' | '/' | '%' => some .product
  | _ => none

/-- Where a mark begins tells the level of its operator. -/
theorem BinaryOperator.sign_eq_cons (op : BinaryOperator) :
    ∃ d ds, op.sign = d :: ds ∧ markLevel d = some op.level ∧ isNameChar d = false := by
  cases op with
  | arithmetic op => cases op <;> exact ⟨_, _, rfl, rfl, rfl⟩
  | _ => exact ⟨_, _, rfl, rfl, rfl⟩

theorem BinaryOperator.word_facts {op : BinaryOperator} {w : String} (h : w ∈ op.word?) :
    w.toList.all isNameChar ∧ w ≠ "" := by
  cases op with
  | arithmetic op => cases op <;> cases h <;> decide
  | _ => cases h; decide

/-- A word stands for one operator. -/
theorem BinaryOperator.word_injective {op op' : BinaryOperator} {w : String} (h : w ∈ op.word?)
    (h' : w ∈ op'.word?) : op = op' := by
  cases op with
  | arithmetic a =>
    cases a <;> cases h <;> cases op' with
    | arithmetic b => cases b <;> first | rfl | exact absurd h' (by decide)
    | _ => exact absurd h' (by decide)
  | _ =>
    cases h
    cases op' with
    | arithmetic b => cases b <;> first | rfl | exact absurd h' (by decide)
    | _ => first | rfl | exact absurd h' (by decide)

/-- The ways to write the operators of a level are their marks and their words. -/
theorem Level.operators_spelled (l : Level) : ∀ p ∈ l.operators,
    p.1.level = l ∧ (p.2 = Lexeme.mark p.1.sign ∨ ∃ w ∈ p.1.word?, p.2 = Lexeme.word [w]) := by
  cases l <;> simp [operators, Grammar.orOperators, Grammar.andOperators, Grammar.relations,
    Grammar.sumOperators, Grammar.productOperators, BinaryOperator.level, BinaryOperator.sign,
    BinaryOperator.word?]

theorem Level.word_mem_operators {op : BinaryOperator} {w : String} (h : w ∈ op.word?) :
    (op, Lexeme.word [w]) ∈ op.level.operators := by
  cases op with
  | arithmetic op =>
    cases op <;> cases h <;> simp [operators, BinaryOperator.level, Grammar.productOperators]
  | _ =>
    cases h
    simp [operators, BinaryOperator.level, Grammar.orOperators, Grammar.andOperators,
      Grammar.relations]

/-- A token that is the word of an operator is a run of name characters. -/
theorem BinaryOperator.chars_of_lowered {op : BinaryOperator} {w : String} (word : w ∈ op.word?)
    {t : Token} (lower : lowered t = w) : t.all isNameChar ∧ t ≠ [] := by
  obtain ⟨chars, nonempty⟩ := op.word_facts word
  refine ⟨all_isNameChar_of_lowered lower chars, ?_⟩
  rintro rfl
  exact nonempty lower.symm

theorem BinaryOperator.mark_sign_of_word (op : BinaryOperator) {t rest : List Char}
    (chars : t.all isNameChar) (nonempty : t ≠ []) : Lexeme.mark op.sign (t ++ rest) = none := by
  obtain ⟨e, es, sign, -, other⟩ := op.sign_eq_cons
  rw [sign]
  exact Lexeme.mark_of_word chars nonempty other

/-- **An operator is found** among those of its level, in any spelling. -/
theorem Cursor.choose_operator {op : BinaryOperator} {t rest : List Char} (spelled : op.Spelled t)
    (ends : Ends rest) {c : Cursor} (at_t : c.rest = t ++ rest) :
    ∃ c', c.choose op.level.operators = some (op, c') ∧ c'.rest = rest := by
  rcases spelled with rfl | ⟨w, word, lower⟩
  · have noEquals : ['='].isPrefixOf rest = false := ends.not_isPrefixOf rfl
    refine ⟨⟨c.offset + byteLength op.sign, rest⟩, ?_, rfl⟩
    cases op with
    | arithmetic op =>
      cases op <;> simp [choose, take, at_t, Level.operators, BinaryOperator.level, Lexeme.mark,
        BinaryOperator.sign, Grammar.sumOperators, Grammar.productOperators]
    | _ =>
      simp [choose, take, at_t, Level.operators, BinaryOperator.level, Lexeme.mark, noEquals,
        BinaryOperator.sign, Grammar.orOperators, Grammar.andOperators, Grammar.relations]
  · obtain ⟨chars, nonempty⟩ := op.chars_of_lowered word lower
    have found : Lexeme.word [w] c.rest = some (t, rest) := by
      rw [at_t, Lexeme.word_of_word chars ends, lower]
      simp
    refine ⟨_, choose_of_mem (Level.word_mem_operators word) found ?_, rfl⟩
    intro p mem
    obtain ⟨-, is_mark | ⟨w', word', is_word⟩⟩ := op.level.operators_spelled p mem
    · left
      rw [is_mark, at_t]
      exact p.1.mark_sign_of_word chars nonempty
    · by_cases same : w' = w
      · right
        subst same
        exact Prod.ext (op.word_injective word word' |>.symm) is_word
      · left
        rw [is_word, at_t, Lexeme.word_of_word chars ends, lower]
        simp [Ne.symm same]

/-! ### What may follow an expression -/

/-- **What may follow an expression of a level**: a mark that closes something, or the sign of
something looser. -/
inductive Follows : Level → Token → Prop where
  | close {l : Level} {d : Char} (h : d ∈ [')', '\x7d', ',', ':']) : Follows l [d]
  | mark {l : Level} {d : Char} (h : d ∈ ['?', '=']) (tight : 0 < l.rank) : Follows l [d]
  | operator {l : Level} {op : BinaryOperator} {t : Token} (spelled : op.Spelled t)
      (tight : op.level.rank < l.rank) : Follows l t
  | point {l : Level} (tight : Level.path.rank < l.rank) : Follows l ['.']

theorem Level.rank_le_tighter (l : Level) : l.rank ≤ l.tighter.rank := by
  cases l <;> decide

/-- What may follow an expression may follow a tighter one. -/
theorem Follows.tighter {l : Level} {t : Token} (h : Follows l t) : Follows l.tighter t := by
  have le := l.rank_le_tighter
  cases h with
  | close h => exact .close h
  | mark h tight => exact .mark h (by omega)
  | operator spelled tight => exact .operator spelled (by omega)
  | point tight => exact .point (by omega)

/-- A character that follows and belongs to no operator. -/
theorem Follows.head {l : Level} {t : Token} (h : Follows l t) {d : Char} (head : t.head? = some d)
    (noMark : markLevel d = none) (noName : isNameChar d = false) :
    d ∈ [')', '\x7d', ',', ':'] ∨ d = '?' ∧ 0 < l.rank ∨ d = '.' ∧ Level.path.rank < l.rank := by
  cases h with
  | close h =>
    cases head
    exact .inl h
  | @mark d' h tight =>
    cases head
    rcases List.mem_cons.mp h with rfl | h
    · exact .inr (.inl ⟨rfl, tight⟩)
    · rw [List.mem_singleton.mp h] at noMark
      cases noMark
  | @operator op t spelled tight =>
    rcases spelled with rfl | ⟨w, word, lower⟩
    · obtain ⟨e, es, sign, level, -⟩ := op.sign_eq_cons
      rw [sign] at head
      cases head
      rw [level] at noMark
      cases noMark
    · obtain ⟨chars, -⟩ := op.chars_of_lowered word lower
      have name := List.all_eq_true.mp chars d (List.mem_of_mem_head? head)
      rw [noName] at name
      cases name
  | point tight =>
    cases head
    exact .inr (.inr ⟨rfl, tight⟩)

/-- The tokens after an expression of a level do not extend it. -/
def Closes (l : Level) (ts : List Token) : Prop :=
  ∀ t ∈ ts.head?, Follows l t

theorem Closes.tighter {l : Level} {ts : List Token} (h : Closes l ts) : Closes l.tighter ts :=
  fun t first => (h t first).tighter

theorem Closes.cons {l : Level} {t : Token} {ts : List Token} (h : Follows l t) :
    Closes l (t :: ts) := by
  rintro _ ⟨⟩
  exact h

namespace Cursor

variable {c : Cursor} {l : Level} {ts : List Token}

theorem choose_operators_of_none
    (marks : ∀ op : BinaryOperator, op.level = l → Lexeme.mark op.sign c.rest = none)
    (words : ∀ op : BinaryOperator, ∀ w ∈ op.word?, op.level = l →
      Lexeme.word [w] c.rest = none) :
    c.choose l.operators = none := by
  refine choose_eq_none fun p mem => ?_
  obtain ⟨level, is_mark | ⟨w, word, is_word⟩⟩ := l.operators_spelled p mem
  · rw [is_mark]
    exact marks p.1 level
  · rw [is_word]
    exact words p.1 w word level

theorem choose_operators_of_head {d : Char} {cs : List Char} (at_d : c.rest = d :: cs)
    (noName : isNameChar d = false) (noMark : markLevel d ≠ some l) :
    c.choose l.operators = none := by
  refine choose_operators_of_none (fun op level => ?_) fun op w word level => ?_
  · obtain ⟨e, es, sign, at_level, -⟩ := op.sign_eq_cons
    rw [at_d, sign]
    refine Lexeme.mark_of_ne ?_
    rintro rfl
    rw [at_level, level] at noMark
    exact noMark rfl
  · rw [at_d]
    refine Lexeme.word_of_not_isNameChar noName ?_
    simpa using (op.word_facts word).2.symm

/-- The sign of an assignment is no `==`, since the token ends with it. -/
theorem choose_operators_of_equals {rest : List Char} (at_sign : c.rest = '=' :: rest)
    (ends : Ends rest) : c.choose l.operators = none := by
  have noEquals : ['='].isPrefixOf rest = false := ends.not_isPrefixOf rfl
  refine choose_operators_of_none (fun op level => ?_) fun op w word level => ?_
  · rw [at_sign]
    cases op with
    | arithmetic op => cases op <;> rfl
    | _ => simp [Lexeme.mark, BinaryOperator.sign, noEquals]
  · rw [at_sign]
    exact Lexeme.word_of_not_isNameChar rfl (by simpa using (op.word_facts word).2.symm)

theorem choose_operators_of_spelled {op : BinaryOperator} {t rest : List Char}
    (spelled : op.Spelled t) (other : op.level ≠ l) (ends : Ends rest) (at_t : c.rest = t ++ rest) :
    c.choose l.operators = none := by
  rcases spelled with rfl | ⟨w, word, lower⟩
  · obtain ⟨d, ds, sign, at_level, noName⟩ := op.sign_eq_cons
    rw [sign] at at_t
    refine choose_operators_of_head at_t noName ?_
    rw [at_level]
    exact fun same => other (Option.some.inj same)
  · obtain ⟨chars, nonempty⟩ := op.chars_of_lowered word lower
    refine choose_operators_of_none (fun op' level => ?_) fun op' w' word' level => ?_
    · rw [at_t]
      exact op'.mark_sign_of_word chars nonempty
    · rw [at_t, Lexeme.word_of_word chars ends, lower]
      refine if_neg fun contains => ?_
      have same : w = w' := by simpa using contains
      subst same
      rw [op.word_injective word word'] at other
      exact other level

/-- **What follows an expression is no operator** of its level. -/
theorem choose_operators_of_closes (closes : Closes l ts) (laid : Laid ts c.rest) :
    c.choose l.operators = none := by
  generalize at_c : c.rest = cs at laid
  cases laid with
  | nil =>
    refine choose_operators_of_none (fun op level => ?_) fun op w word level => ?_
    · obtain ⟨e, es, sign, -⟩ := op.sign_eq_cons
      rw [at_c, sign]
      rfl
    · rw [at_c]
      exact if_neg (by simpa [lowered] using (op.word_facts word).2.symm)
  | @cons t ts rest solid ends others =>
    cases closes t rfl with
    | close h =>
      simp only [List.mem_cons, List.not_mem_nil, or_false] at h
      rcases h with rfl | rfl | rfl | rfl <;>
        exact choose_operators_of_head at_c rfl (by simp [markLevel])
    | mark h tight =>
      simp only [List.mem_cons, List.not_mem_nil, or_false] at h
      rcases h with rfl | rfl
      · exact choose_operators_of_head at_c rfl (by simp [markLevel])
      · exact choose_operators_of_equals at_c ends
    | @operator op t spelled tight =>
      refine choose_operators_of_spelled spelled ?_ ends at_c
      rintro rfl
      exact Nat.lt_irrefl _ tight
    | point tight => exact choose_operators_of_head at_c rfl (by simp [markLevel])

/-- A mark that is no operator's and does not follow is not there. -/
theorem expect_of_closes (closes : Closes l ts) (laid : Laid ts c.rest) {d : Char}
    (noMark : markLevel d = none) (noName : isNameChar d = false)
    (other : ¬ (d ∈ [')', '\x7d', ',', ':'] ∨ d = '?' ∧ 0 < l.rank ∨
      d = '.' ∧ Level.path.rank < l.rank)) : c.expect d = none := by
  refine expect_of_ne fun head => ?_
  generalize c.rest = cs at laid head
  cases laid with
  | nil => cases head
  | @cons t ts rest solid ends others =>
    obtain ⟨e, ds, rfl, -⟩ := solid
    exact other ((closes _ rfl).head head noMark noName)

/-- No mark is found where another is laid out. -/
theorem expect_of_laid_ne {d e : Char} {es : List Char} (laid : Laid ((e :: es) :: ts) c.rest)
    (other : e ≠ d) : c.expect d = none := by
  refine expect_of_ne fun head => ?_
  generalize c.rest = cs at laid head
  cases laid with
  | cons solid ends others => exact other (Option.some.inj head)

/-- A mark of one character is found where it is laid out. -/
theorem expect_of_laid {d : Char} (laid : Laid ([d] :: ts) c.rest) :
    ∃ c', c.expect d = some c' ∧ Laid ts c'.skip.rest ∧ c'.rest.length < c.rest.length := by
  generalize at_c : c.rest = cs at laid
  cases laid with
  | @cons _ _ rest solid ends others =>
    obtain ⟨c', found, rfl⟩ := expect_of_eq at_c
    exact ⟨c', found, others, solid.shorter _⟩

/-- The sign of an assignment is found where it is laid out. -/
theorem take_assignSign_of_laid (laid : Laid (['='] :: ts) c.rest) :
    ∃ t c', c.take Grammar.assignSign = some (t, c') ∧ Laid ts c'.skip.rest ∧
      c'.rest.length < c.rest.length := by
  generalize at_c : c.rest = cs at laid
  cases laid with
  | @cons _ _ rest solid ends others =>
    have found : Grammar.assignSign c.rest = some (['='], rest) := by
      rw [at_c]
      exact Grammar.notBeforeEquals_of_ends (Lexeme.mark_append ['='] rest) ends
    exact ⟨_, _, take_of_some found, others, solid.shorter rest⟩

/-- No assignment goes on where an assignment is closed. -/
theorem take_assignSign_of_closes (closes : Closes .assignment ts) (laid : Laid ts c.rest) :
    c.take Grammar.assignSign = none := by
  refine take_of_none (Grammar.notBeforeEquals_of_none ?_)
  generalize c.rest = cs at laid
  cases laid with
  | nil => rfl
  | @cons t ts rest solid ends others =>
    cases closes t rfl with
    | close h =>
      refine Lexeme.mark_of_ne ?_
      rintro rfl
      simp at h
    | mark h tight => exact absurd tight (Nat.lt_irrefl 0)
    | operator spelled tight => exact absurd tight (Nat.not_lt_zero _)
    | point tight => exact absurd tight (by decide)

end Cursor

/-! ### Where a path begins -/

/-- A token with which a path may begin: a word other than that of a sign, a quote, a bracket or the
mark of a variable. -/
inductive Opens : Token → Prop where
  | word {t : Token} (chars : t.all isNameChar) (nonempty : t ≠ []) (noSign : lowered t ≠ "not") :
      Opens t
  | mark {d : Char} {ds : Token} (h : d ∈ ['(', '\x7b', '#', '\'', '"']) : Opens (d :: ds)

namespace Cursor

variable {c : Cursor} {ts : List Token}

/-- **No sign is chosen where a path begins.** -/
theorem choose_signs_of_opens {t : Token} (opens : Opens t) (laid : Laid (t :: ts) c.rest) :
    c.choose Grammar.signs = none := by
  generalize at_c : c.rest = cs at laid
  cases laid with
  | @cons _ _ rest solid ends others =>
    refine choose_eq_none ?_
    rw [at_c]
    cases opens with
    | word chars nonempty noSign =>
      have word : Lexeme.word ["not"] (t ++ rest) = none := by
        rw [Lexeme.word_of_word chars ends]
        simp [noSign]
      have mark {d : Char} (other : isNameChar d = false) : Lexeme.mark [d] (t ++ rest) = none :=
        Lexeme.mark_of_word chars nonempty other
      simp only [Grammar.signs, List.forall_mem_cons]
      exact ⟨Grammar.notBeforeEquals_of_none (mark rfl), word, mark rfl, mark rfl, nofun⟩
    | @mark d ds h =>
      simp only [List.mem_cons, List.not_mem_nil, or_false] at h
      rcases h with rfl | rfl | rfl | rfl | rfl <;>
        simp [Grammar.signs, Grammar.notBeforeEquals, Lexeme.mark, Lexeme.word_of_not_isNameChar,
          isNameChar]

/-- **A sign is found** in any spelling. -/
theorem choose_sign {op : UnaryOperator} {t : Token} (spelled : op.Spelled t)
    (laid : Laid (t :: ts) c.rest) :
    ∃ c', c.choose Grammar.signs = some (op, c') ∧ Laid ts c'.skip.rest ∧
      c'.rest.length < c.rest.length := by
  generalize at_c : c.rest = cs at laid
  cases laid with
  | @cons _ _ rest solid ends others =>
    refine ⟨⟨c.offset + byteLength t, rest⟩, ?_, others, solid.shorter rest⟩
    rcases spelled with rfl | ⟨w, word, lower⟩
    · have noEquals : rest.head? ≠ some '=' := fun head => absurd (ends _ head) (by decide)
      have noWord {d : Char} {ds : List Char} (other : isNameChar d = false) :
          Lexeme.word ["not"] (d :: ds) = none :=
        Lexeme.word_of_not_isNameChar other (by decide)
      cases op with
      | not => simp [choose, take, Grammar.signs, Grammar.notBeforeEquals, at_c, Lexeme.mark,
          UnaryOperator.sign, noEquals]
      | minus => simp [choose, take, Grammar.signs, Grammar.notBeforeEquals, at_c, Lexeme.mark,
          UnaryOperator.sign, noWord, isNameChar]
      | plus => simp [choose, take, Grammar.signs, Grammar.notBeforeEquals, at_c, Lexeme.mark,
          UnaryOperator.sign, noWord, isNameChar]
    · cases op with
      | not =>
        cases word
        have chars : t.all isNameChar := all_isNameChar_of_lowered lower (by decide)
        have nonempty : t ≠ [] := by
          rintro rfl
          exact absurd lower (by decide)
        have mark : Lexeme.mark ['!'] (t ++ rest) = none := Lexeme.mark_of_word chars nonempty rfl
        have found : Lexeme.word ["not"] (t ++ rest) = some (t, rest) := by
          rw [Lexeme.word_of_word chars ends, lower]
          rfl
        rw [Grammar.signs, choose_cons_of_none, choose_cons_of_some]
        · rw [at_c]
          exact found
        · rw [at_c]
          exact Grammar.notBeforeEquals_of_none mark
      | minus => cases word
      | plus => cases word

end Cursor

end HostExpr
