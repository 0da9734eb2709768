import HostExpr.Proofs.Expr.Decoding

/-!
Tokens in a text, and what a matcher finds at one.

A token is followed by a space or by nothing (`Ends`), so a word is found whole and a mark does not
run into the next token. `Laid` is the view of a text that the readers have: from one token on, with
the spaces before it skipped.
-/

namespace HostExpr

open Lexeme (isNameChar isSpace lowered)

/-! ### Where tokens end -/

/-- What may follow a token: nothing, or a space. -/
def Ends (rest : List Char) : Prop :=
  ∀ c ∈ rest.head?, isSpace c

theorem isNameChar_of_isSpace {c : Char} (h : isSpace c) : isNameChar c = false := by
  simp only [isSpace, Bool.or_eq_true, decide_eq_true_eq] at h
  rcases h with ((rfl | rfl) | rfl) | rfl <;> rfl

theorem isDigit_of_isSpace {c : Char} (h : isSpace c) : c.isDigit = false := by
  simp only [isSpace, Bool.or_eq_true, decide_eq_true_eq] at h
  rcases h with ((rfl | rfl) | rfl) | rfl <;> rfl

theorem Ends.ne_of_not_isSpace {c d : Char} {rest : List Char} (h : Ends (c :: rest))
    (solid : isSpace d = false) : c ≠ d := by
  rintro rfl
  have space := h c rfl
  rw [solid] at space
  cases space

/-- No mark begins where a token ends. -/
theorem Ends.not_isPrefixOf {rest : List Char} (h : Ends rest) {d : Char} {ds : List Char}
    (solid : isSpace d = false) : (d :: ds).isPrefixOf rest = false := by
  cases rest with
  | nil => rfl
  | cons c cs => simp [List.isPrefixOf, (h.ne_of_not_isSpace solid).symm]

theorem Ends.endsWord {rest : List Char} (h : Ends rest) : Lexeme.endsWord rest := by
  cases rest with
  | nil => rfl
  | cons c cs => simp [Lexeme.endsWord, isNameChar_of_isSpace (h c rfl)]

/-- A run of characters ends where another character stands. -/
theorem run_append {p : Char → Bool} {t rest : List Char} (all : t.all p)
    (other : ∀ c ∈ rest.head?, p c = false) :
    (t ++ rest).takeWhile p = t ∧ (t ++ rest).dropWhile p = rest := by
  have each : ∀ c ∈ t, p c := List.all_eq_true.mp all
  rw [List.takeWhile_append_of_pos each, List.dropWhile_append_of_pos each]
  cases rest with
  | nil => simp
  | cons c cs => simp [other c rfl]

/-- A token begins with a character that is no space. -/
def Solid (t : Token) : Prop :=
  ∃ d ds, t = d :: ds ∧ isSpace d = false

theorem Solid.shorter {t : Token} (h : Solid t) (rest : List Char) :
    rest.length < (t ++ rest).length := by
  obtain ⟨d, ds, rfl, -⟩ := h
  simp only [List.length_append, List.length_cons]
  omega

/-- **Tokens laid out in a text**, from the first of them on: each ends where a space or the text's
end is, and the others stand after the spaces. -/
inductive Laid : List Token → List Char → Prop where
  | nil : Laid [] []
  | cons {t : Token} {ts : List Token} {rest : List Char} (solid : Solid t) (ends : Ends rest)
      (others : Laid ts (rest.dropWhile isSpace)) : Laid (t :: ts) (t ++ rest)

theorem Laid.dropWhile {ts : List Token} {cs : List Char} (h : Laid ts cs) :
    cs.dropWhile isSpace = cs := by
  cases h with
  | nil => rfl
  | cons solid ends others =>
    obtain ⟨d, ds, rfl, space⟩ := solid
    simp [space]

/-- Tokens with spaces between them are laid out. -/
theorem Spaced.laid {ts : List Token} {cs : List Char} (h : Spaced ts cs)
    (solid : ∀ t ∈ ts, Solid t) : Laid ts cs := by
  induction h with
  | nil => exact .nil
  | @cons t ts gap cs spaces apart rest ih =>
    have each : ∀ c ∈ gap, isSpace c := List.all_eq_true.mp spaces
    have others := ih fun t mem => solid t (List.mem_cons_of_mem _ mem)
    have ends : Ends (gap ++ cs) := by
      intro c first
      cases gap with
      | nil =>
        cases rest with
        | nil => cases first
        | cons => exact absurd rfl (apart (List.cons_ne_nil _ _))
      | cons g gs => exact each c (by cases first; exact List.mem_cons_self)
    refine .cons (solid t List.mem_cons_self) ends ?_
    rw [List.dropWhile_append_of_pos each, others.dropWhile]
    exact others

/-! ### Words and marks -/

theorem isNameChar_of_toLower {c : Char} (h : isNameChar c.toLower) : isNameChar c := by
  by_cases upper : c.isUpper
  · have letter : c.isAlpha := Bool.or_eq_true_iff.mpr (.inl upper)
    simp [isNameChar, Char.isAlphanum, letter]
  · have same : c.toLower = c := dif_neg fun within => upper (decide_eq_true within)
    rwa [same] at h

/-- A token that is a word in some letter case consists of name characters. -/
theorem all_isNameChar_of_lowered {t : Token} {w : String} (h : lowered t = w)
    (word : w.toList.all isNameChar) : t.all isNameChar := by
  have chars : t.map Char.toLower = w.toList := by
    rw [← h, lowered, String.toList_ofList]
  rw [← chars, List.all_map] at word
  exact List.all_eq_true.mpr fun c mem =>
    isNameChar_of_toLower (List.all_eq_true.mp word c mem)

/-- A word is found whole. -/
theorem Lexeme.word_of_word {words : List String} {t rest : List Char} (all : t.all isNameChar)
    (ends : Ends rest) :
    Lexeme.word words (t ++ rest) =
      if words.contains (lowered t) then some (t, rest) else none := by
  obtain ⟨run, after⟩ := run_append all fun c head => isNameChar_of_isSpace (ends c head)
  rw [Lexeme.word, run, after]

theorem Lexeme.word_of_not_isNameChar {words : List String} {c : Char} {cs : List Char}
    (other : isNameChar c = false) (nonempty : "" ∉ words) :
    Lexeme.word words (c :: cs) = none := by
  have run : (c :: cs).takeWhile isNameChar = [] := by simp [other]
  rw [Lexeme.word, run]
  exact if_neg (by simpa [lowered] using nonempty)

theorem Lexeme.mark_append (t rest : List Char) : Lexeme.mark t (t ++ rest) = some (t, rest) := by
  simp [Lexeme.mark]

theorem Lexeme.mark_of_ne {d c : Char} {ds cs : List Char} (other : c ≠ d) :
    Lexeme.mark (d :: ds) (c :: cs) = none := by
  simp [Lexeme.mark, List.isPrefixOf, other.symm]

theorem Lexeme.mark_of_word {t rest : List Char} {d : Char} {ds : List Char}
    (chars : t.all isNameChar) (nonempty : t ≠ []) (other : isNameChar d = false) :
    Lexeme.mark (d :: ds) (t ++ rest) = none := by
  cases t with
  | nil => exact absurd rfl nonempty
  | cons e es =>
    refine Lexeme.mark_of_ne ?_
    rintro rfl
    simp [other] at chars

/-- What a matcher finds takes up some of the text. -/
def Lexeme.Shortens (m : Matcher) : Prop :=
  ∀ {cs found rest : List Char}, m cs = some (found, rest) → rest.length < cs.length

theorem Lexeme.Shortens.mark (d : Char) (ds : List Char) : Shortens (Lexeme.mark (d :: ds)) := by
  intro cs found rest h
  cases cs with
  | nil => cases h
  | cons c cs =>
    rw [Lexeme.mark] at h
    split at h
    · cases h
      simp only [List.length_drop, List.length_cons]
      omega
    · cases h

theorem Lexeme.Shortens.word {words : List String} (nonempty : "" ∉ words) :
    Shortens (Lexeme.word words) := by
  intro cs found rest h
  rw [Lexeme.word] at h
  split at h
  · rename_i contains
    cases h
    have all : cs.takeWhile isNameChar ++ cs.dropWhile isNameChar = cs :=
      List.takeWhile_append_dropWhile
    have some_char : cs.takeWhile isNameChar ≠ [] := by
      intro empty
      rw [empty] at contains
      exact nonempty (by simpa [lowered] using contains)
    have lengths := congrArg List.length all
    have positive := List.length_pos_iff.mpr some_char
    rw [List.length_append] at lengths
    omega
  · cases h

theorem Lexeme.Shortens.notBeforeEquals {m : Matcher} (h : Shortens m) :
    Shortens (Grammar.notBeforeEquals m) := by
  intro cs found rest some_found
  rw [Grammar.notBeforeEquals, Option.filter_eq_some_iff] at some_found
  exact h some_found.1

/-- An equals sign does not come right after a token. -/
theorem Grammar.notBeforeEquals_of_ends {m : Matcher} {cs found rest : List Char}
    (h : m cs = some (found, rest)) (ends : Ends rest) :
    Grammar.notBeforeEquals m cs = some (found, rest) := by
  have noEquals : rest.head? ≠ some '=' := fun head => absurd (ends _ head) (by decide)
  simp [notBeforeEquals, h, noEquals]

theorem Grammar.notBeforeEquals_of_none {m : Matcher} {cs : List Char} (h : m cs = none) :
    Grammar.notBeforeEquals m cs = none := by
  simp [notBeforeEquals, h]

/-! ### Choices at a place -/

namespace Cursor

variable {α : Type} {a : α} {m : Matcher} {more : List (α × Matcher)} {c : Cursor}

theorem take_of_some {found rest : List Char} (h : m c.rest = some (found, rest)) :
    c.take m = some (found, ⟨c.offset + byteLength found, rest⟩) := by
  rw [take, h]
  rfl

theorem take_of_none (h : m c.rest = none) : c.take m = none := by
  rw [take, h]
  rfl

theorem choose_cons_of_none (h : m c.rest = none) : c.choose ((a, m) :: more) = c.choose more := by
  simp [choose, take, h]

theorem choose_cons_of_some {found rest : List Char} (h : m c.rest = some (found, rest)) :
    c.choose ((a, m) :: more) = some (a, ⟨c.offset + byteLength found, rest⟩) := by
  simp [choose, take, h]

theorem choose_eq_none {choices : List (α × Matcher)}
    (h : ∀ p ∈ choices, p.2 c.rest = none) : c.choose choices = none := by
  induction choices with
  | nil => rfl
  | cons p ps ih =>
    rw [choose_cons_of_none (h p List.mem_cons_self)]
    exact ih fun q mem => h q (List.mem_cons_of_mem _ mem)

/-- What is chosen takes up some of the text. -/
theorem shorter_of_choose {choices : List (α × Matcher)}
    (each : ∀ p ∈ choices, Lexeme.Shortens p.2) {c' : Cursor}
    (h : c.choose choices = some (a, c')) : c'.rest.length < c.rest.length := by
  rw [choose] at h
  obtain ⟨p, mem, chosen⟩ := List.exists_of_findSome?_eq_some h
  cases found : p.2 c.rest with
  | none => simp [take, found] at chosen
  | some result =>
    have shorter := each p mem found
    simp only [take, found, Option.map_some, Option.some.injEq, Prod.mk.injEq] at chosen
    rw [← chosen.2]
    exact shorter

/-- What is found is chosen if nothing else is found. -/
theorem choose_of_mem {choices : List (α × Matcher)} {t rest : List Char}
    (mem : (a, m) ∈ choices) (found : m c.rest = some (t, rest))
    (only : ∀ p ∈ choices, p.2 c.rest = none ∨ p = (a, m)) :
    c.choose choices = some (a, ⟨c.offset + byteLength t, rest⟩) := by
  induction choices with
  | nil => cases mem
  | cons p ps ih =>
    rcases only p List.mem_cons_self with nothing | rfl
    · rcases List.mem_cons.mp mem with rfl | later
      · cases nothing.symm.trans found
      · rw [choose_cons_of_none nothing]
        exact ih later fun q mem => only q (List.mem_cons_of_mem _ mem)
    · exact choose_cons_of_some found

theorem expect_of_eq {d : Char} {cs : List Char} (h : c.rest = d :: cs) :
    ∃ c', c.expect d = some c' ∧ c'.rest = cs := by
  have found : Lexeme.mark [d] c.rest = some ([d], cs) := by
    rw [h]
    exact Lexeme.mark_append [d] cs
  refine ⟨⟨c.offset + byteLength [d], cs⟩, ?_, rfl⟩
  rw [expect, take, found]
  rfl

theorem expect_of_ne {d : Char} (h : c.rest.head? ≠ some d) : c.expect d = none := by
  cases at_c : c.rest with
  | nil => simp [expect, take, at_c, Lexeme.mark]
  | cons e es =>
    have other : e ≠ d := by simpa [at_c] using h
    simp [expect, take, at_c, Lexeme.mark_of_ne other]

end Cursor

end HostExpr
