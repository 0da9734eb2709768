import HostExpr.Proofs.Expr.RoundTrip
import HostExpr.Proofs.Expr.Totality

/-!
Strings and the literals for them.

Between quotes of a style every character stands for itself, but for the quote, which is written
twice. What the grammar matches as a string is such a quotation (`QuoteStyle.isToken_iff`), and a
quotation is parsed as the text that was quoted. So a source that is one string token has one
value, and a text has one quotation of each style: `Builder.parse_quotation`.
-/

namespace HostExpr

namespace Lexeme

/-- Up to the closing quote there are only quotes written twice and other characters. -/
theorem exists_doubled_of_untilQuote {quote : Char} {cs t rest : List Char}
    (found : untilQuote quote cs = some (t, rest)) : ∃ body, t = doubled quote body ++ [quote] := by
  induction cs using untilQuote.induct quote generalizing t with
  | case1 after ih =>
    rw [untilQuote, if_pos rfl, if_pos rfl, Option.map_eq_some_iff] at found
    obtain ⟨⟨t', last⟩, inner, same⟩ := found
    cases same
    obtain ⟨body, rfl⟩ := ih inner
    exact ⟨quote :: body, by simp [doubled]⟩
  | case2 d after other =>
    rw [untilQuote, if_pos rfl, if_neg other] at found
    cases found
    exact ⟨[], rfl⟩
  | case3 c d after other ih =>
    rw [untilQuote, if_neg other, Option.map_eq_some_iff] at found
    obtain ⟨⟨t', last⟩, inner, same⟩ := found
    cases same
    obtain ⟨body, rfl⟩ := ih inner
    exact ⟨c :: body, by simp [doubled, other]⟩
  | case4 =>
    rw [untilQuote, if_pos rfl] at found
    cases found
    exact ⟨[], rfl⟩
  | case5 c other =>
    rw [untilQuote, if_neg other] at found
    cases found
  | case6 => cases found

/-- What is found as a quoted text is the quotation of some text. -/
theorem exists_doubled_of_quotedText {quote : Char} {cs t rest : List Char}
    (found : quotedText quote cs = some (t, rest)) :
    ∃ body, t = quote :: doubled quote body ++ [quote] := by
  obtain ⟨first, middle, others, opened, inner, rfl⟩ := found_of_seq found
  obtain rfl := eq_of_mark opened
  obtain ⟨body, rfl⟩ := exists_doubled_of_untilQuote inner
  exact ⟨body, rfl⟩

end Lexeme

inductive QuoteStyle where
  | single
  | double
  deriving DecidableEq

namespace QuoteStyle

def quote : QuoteStyle → Char
  | .single => '\''
  | .double => '"'

def rule : QuoteStyle → Rule
  | .single => .sqString
  | .double => .dqString

def innerRule : QuoteStyle → Rule
  | .single => .sqInner
  | .double => .dqInner

/-- The source is one string token, from its first character to its last. -/
def IsToken (q : QuoteStyle) (source : String) : Prop :=
  ∃ found, Production.quoted q.rule q.innerRule q.quote (Cursor.start source) = some found ∧
    found.2.rest = []

/-- A text between quotes, with each quote in it written twice. -/
def quotation (q : QuoteStyle) (w : String) : String :=
  String.ofList (q.quote :: doubled q.quote w.toList ++ [q.quote])

variable (q : QuoteStyle)

/-- The rule matches what the matcher of quoted texts finds. -/
theorem finds : Production.Finds (Production.quoted q.rule q.innerRule q.quote) (.quoted q.quote)
    (Lexeme.quotedText q.quote) := by
  cases q with
  | single => exact Production.finds_quoted rfl rfl
  | double => exact Production.finds_quoted rfl rfl

/-- A source is a token if the matcher of quoted texts leaves nothing of it. -/
theorem isToken_iff_found {source : String} :
    q.IsToken source ↔ ∃ t, Lexeme.quotedText q.quote source.toList = some (t, []) := by
  have taken : (∃ t, Lexeme.quotedText q.quote source.toList = some (t, [])) ↔
      ∃ found, (Cursor.start source).take (Lexeme.quotedText q.quote) = some found ∧
        found.2.rest = [] := by
    simp [Cursor.take, Cursor.start]
  have same := q.finds (Cursor.start source)
  rw [taken, IsToken]
  generalize Production.quoted q.rule q.innerRule q.quote (Cursor.start source) = scanned at same ⊢
  generalize (Cursor.start source).take (Lexeme.quotedText q.quote) = found at same ⊢
  cases same with
  | none => simp
  | some related =>
    obtain ⟨p, rfl, -⟩ := related
    simp

/-- **The tokens of a style are the quotations.** -/
theorem isToken_iff {source : String} : q.IsToken source ↔ ∃ w, source = q.quotation w := by
  rw [isToken_iff_found]
  constructor
  · rintro ⟨t, found⟩
    obtain ⟨body, rfl⟩ := Lexeme.exists_doubled_of_quotedText found
    have whole := Production.splits_quotedText q.quote found
    rw [List.append_nil] at whole
    refine ⟨String.ofList body, ?_⟩
    rw [quotation, String.toList_ofList, ← whole, String.ofList_toList]
  · rintro ⟨w, rfl⟩
    refine ⟨q.quote :: doubled q.quote w.toList ++ [q.quote], ?_⟩
    have noQuote : ([] : List Char).head? ≠ some q.quote := by simp
    have found := Lexeme.quotedText_doubled q.quote noQuote w.toList
    rwa [quotation, String.toList_ofList]

end QuoteStyle

namespace Builder

def ParsesAs (source : String) (l : Literal) : Prop :=
  ∃ id span, parse source = .ok (.literal id span l)

/-- A source is parsed as one literal at most. -/
theorem ParsesAs.unique {source : String} {l l' : Literal} (h : ParsesAs source l)
    (h' : ParsesAs source l') : l = l' := by
  obtain ⟨id, span, parsed⟩ := h
  obtain ⟨id', span', parsed'⟩ := h'
  rw [parsed] at parsed'
  cases parsed'
  rfl

/-- What is written as a literal is parsed as it. -/
theorem parsesAs_of_writes {l : Literal} {t : Token} (written : l.Writes t) :
    ParsesAs (String.ofList t) l := by
  have writes : HostExpr.Writes .assignment (.literal 0 ⟨0, 0⟩ l) [t] :=
    (Writes.literal written).at_looser (by decide)
  have spaced : Spaced [t] (t ++ ([] ++ [])) := .cons rfl (absurd rfl) .nil
  have spaces : ([] : List Char).all Lexeme.isSpace := rfl
  obtain ⟨e, parsed, same⟩ := writes.parse spaces spaced
  rw [List.nil_append, List.append_nil, List.append_nil] at parsed
  cases e with
  | literal id span value =>
    cases same
    exact ⟨id, span, parse_eq_ok.mpr parsed⟩
  | _ => cases same

theorem parsesAs_quotation (q : QuoteStyle) (w : String) :
    ParsesAs (q.quotation w) (.string w) :=
  parsesAs_of_writes (.string (by cases q <;> simp [QuoteStyle.quote]))

/-- **String literals are a bijection with strings.** The quotation of a text is parsed as the text,
and it is the only token of its style that is; and every token is parsed as one text. -/
theorem parse_quotation (q : QuoteStyle) (source : String) :
    (∀ w, q.IsToken source ∧ ParsesAs source (.string w) ↔ source = q.quotation w) ∧
      (q.IsToken source → ∃! w, ParsesAs source (.string w)) := by
  constructor
  · intro w
    constructor
    · rintro ⟨token, parsed⟩
      obtain ⟨v, rfl⟩ := q.isToken_iff.mp token
      cases parsed.unique (parsesAs_quotation q v)
      rfl
    · rintro rfl
      exact ⟨q.isToken_iff.mpr ⟨w, rfl⟩, parsesAs_quotation q w⟩
  · intro token
    obtain ⟨v, rfl⟩ := q.isToken_iff.mp token
    refine ⟨v, parsesAs_quotation q v, fun w parsed => ?_⟩
    cases parsed.unique (parsesAs_quotation q v)
    rfl

/-- Quotes at either end, and quotes of the other style. -/
example : QuoteStyle.single.quotation "'it's \"so\"'" = "'''it''s \"so\"'''" := by decide

end Builder

end HostExpr
