import HostExpr.Proofs.Expr.Building
import HostExpr.Proofs.Expr.Reading
import Mathlib.Data.List.DropRight

/-!
The rules of the grammar match what the readers of phrases read.

A scanner and a reader agree (`Meets`) if at any place that is not a space both fail, or the pairs
that the scanner finds stand for the phrase that is read. The places after them may differ in the
spaces before the next token, since in a sequence spaces are passed over also before a part that is
absent.
-/

namespace HostExpr

open Scanner

variable {α β : Type}

/-! ### Places -/

theorem Cursor.skip_skip (c : Cursor) : c.skip.skip = c.skip := by
  have again : (c.rest.dropWhile Lexeme.isSpace).dropWhile Lexeme.isSpace =
      c.rest.dropWhile Lexeme.isSpace := List.dropWhile_idempotent _ _
  have none : (c.rest.dropWhile Lexeme.isSpace).takeWhile Lexeme.isSpace = [] := by
    have split : (c.rest.dropWhile Lexeme.isSpace).takeWhile Lexeme.isSpace ++
        (c.rest.dropWhile Lexeme.isSpace).dropWhile Lexeme.isSpace =
          c.rest.dropWhile Lexeme.isSpace := List.takeWhile_append_dropWhile
    rw [again] at split
    exact List.append_left_eq_self.mp split
  rw [skip, skip, none, again]
  rfl

/-- The same place, but for the spaces before the next token. -/
def Cursor.Near (c c' : Cursor) : Prop :=
  c.skip = c'.skip

theorem Cursor.near_skip (c : Cursor) : c.skip.Near c :=
  c.skip_skip

/-! ### Correspondence -/

/-- Both found nothing, or what they found and where it ends correspond. -/
def Meets (R : List Pair → α → Prop) (E : Cursor → Cursor → Prop) :
    Option (List Pair × Cursor) → Option (α × Cursor) → Prop :=
  Option.Rel fun x y => R x.1 y.1 ∧ E x.2 y.2

variable {R : List Pair → α → Prop} {Q : List Pair → β → Prop} {E F : Cursor → Cursor → Prop}

theorem Meets.mono {R' : List Pair → α → Prop} {x : Option (List Pair × Cursor)}
    {y : Option (α × Cursor)} (h : Meets R E x y) (results : ∀ ps a, R ps a → R' ps a)
    (places : ∀ c c', E c c' → F c c') : Meets R' F x y := by
  cases h with
  | none => exact .none
  | some related => exact .some ⟨results _ _ related.1, places _ _ related.2⟩

theorem Meets.bind {x : Option (List Pair × Cursor)} {y : Option (α × Cursor)}
    {f : List Pair × Cursor → Option (List Pair × Cursor)} {g : α × Cursor → Option (β × Cursor)}
    (h : Meets R E x y)
    (next : ∀ ps a c c', R ps a → E c c' → Meets Q F (f (ps, c)) (g (a, c'))) :
    Meets Q F (x.bind f) (y.bind g) := by
  cases h with
  | none => exact .none
  | some related => exact next _ _ _ _ related.1 related.2

theorem Meets.orElse {x x' : Option (List Pair × Cursor)} {y y' : Option (α × Cursor)}
    (h : Meets R E x y) (others : Meets R E x' y') :
    Meets R E (x.orElse fun _ => x') (y.orElse fun _ => y') := by
  cases h with
  | none => exact others
  | some related => exact .some related

theorem Meets.cases {x : Option (List Pair × Cursor)} {y : Option (α × Cursor)}
    (h : Meets R E x y) : x = none ∧ y = none ∨
      ∃ ps c a c', x = some (ps, c) ∧ y = some (a, c') ∧ R ps a ∧ E c c' := by
  cases h with
  | none => exact .inl ⟨rfl, rfl⟩
  | @some x y related => exact .inr ⟨x.1, x.2, y.1, y.2, rfl, rfl, related.1, related.2⟩

def Alone (ps : List Pair) (q : Phrase) : Prop :=
  ∃ p, ps = [p] ∧ Builder.Stands p q

/-! ### Repetition -/

namespace Scanner

def Shrinks (s : Scanner) : Prop :=
  ∀ ⦃c ps c'⦄, s c = some (ps, c') → c'.rest.length < c.rest.length

variable {s t : Scanner}

theorem Shrinks.mute {m : Matcher} (shortens : Lexeme.Shortens m) :
    Shrinks (Scanner.mute m) := by
  intro c ps c' h
  simp only [Scanner.mute, Cursor.take, Option.map_map, Option.map_eq_some_iff] at h
  obtain ⟨⟨found, rest⟩, matched, same⟩ := h
  cases same
  exact shortens matched

theorem Shrinks.rule (h : Shrinks s) (r : Rule) : Shrinks (Scanner.rule r s) := by
  intro c ps c' found
  rw [Scanner.rule, Option.map_eq_some_iff] at found
  obtain ⟨⟨inner, last⟩, scanned, same⟩ := found
  cases same
  exact h scanned

theorem Shrinks.seq (first : Shrinks s) (second : Cuts t) : Shrinks (Scanner.seq s t) := by
  intro c ps c' h
  obtain ⟨qs, middle, rs, one, other, rfl⟩ := parts_of_seq h
  have before := (middle.before_skip.trans (second other).before).length_le
  exact Nat.lt_of_le_of_lt before (first one)

/-- The bound on repetition is of no consequence if it is no less than the length of the text. -/
theorem more_limit (h : Shrinks s) {limit limit' : Nat} {c : Cursor}
    (enough : c.skip.rest.length ≤ limit) (enough' : c.skip.rest.length ≤ limit') :
    more s limit c = more s limit' c := by
  induction limit generalizing limit' c with
  | zero =>
    cases limit' with
    | zero => rfl
    | succ limit' =>
      have nothing : s c.skip = none := by
        cases found : s c.skip with
        | none => rfl
        | some result => exact absurd (h found) (by omega)
      rw [more, more, nothing]
  | succ limit ih =>
    cases limit' with
    | zero =>
      have nothing : s c.skip = none := by
        cases found : s c.skip with
        | none => rfl
        | some result => exact absurd (h found) (by omega)
      rw [more, more, nothing]
    | succ limit' =>
      rw [more, more]
      cases found : s c.skip with
      | none => rfl
      | some result =>
        obtain ⟨ps, afterOne⟩ := result
        have shorter := h found
        have le := afterOne.length_skip_le
        dsimp only
        have same : more s limit afterOne = more s limit' afterOne := ih (by omega) (by omega)
        rw [same]

/-- Repetition after spaces. If nothing is repeated it leaves off after the spaces. -/
theorem star_skip (h : Shrinks s) {limit : Nat} {c : Cursor}
    (enough : c.skip.rest.length ≤ limit) :
    ∃ d, star s c.skip = some ((more s limit c).1, d) ∧ d.Near (more s limit c).2 ∧
      ((more s limit c).1 = [] ∨ d = (more s limit c).2) := by
  cases found : s c.skip with
  | none =>
    have nothing : more s limit c = ([], c) := by
      cases limit with
      | zero => rfl
      | succ limit => rw [more, found]
    rw [nothing]
    refine ⟨c.skip, ?_, c.near_skip, .inl rfl⟩
    rw [star, found]
  | some result =>
    obtain ⟨ps, afterOne⟩ := result
    have shorter := h found
    have le := afterOne.length_skip_le
    refine ⟨(more s limit c).2, ?_, rfl, .inr rfl⟩
    cases limit with
    | zero => omega
    | succ limit =>
      rw [star, more, found]
      dsimp only
      rw [more_limit h le (by omega : afterOne.skip.rest.length ≤ limit)]

/-- At most one more after spaces. -/
theorem optional_skip (s : Scanner) (c : Cursor) :
    ∃ d, optional s c.skip = some ((more s 1 c).1, d) ∧ d.Near (more s 1 c).2 := by
  cases found : s c.skip with
  | none =>
    refine ⟨c.skip, ?_, ?_⟩
    · rw [optional, more, found]
      rfl
    · rw [more, found]
      exact c.near_skip
  | some result =>
    refine ⟨result.2, ?_, ?_⟩
    · rw [optional, more, found]
      simp [more]
    · rw [more, found]
      rfl

/-! ### Sequences -/

theorem seq_of_none {c : Cursor} (h : s c = none) : seq s t c = none := by
  rw [seq, h]
  rfl

theorem seq_of_some {c d : Cursor} {ps : List Pair} (h : s c = some (ps, d)) :
    seq s t c = (t d.skip).map fun found => (ps ++ found.1, found.2) := by
  rw [seq, h]
  simp only [Option.bind_eq_bind, Option.bind_some]
  cases t d.skip with
  | none => rfl
  | some found => rfl

theorem seq_star_of_none {c : Cursor} (h : s c = none) : seq (star s) t c = t c.skip := by
  rw [seq_of_some (by rw [star, h] : star s c = some ([], c))]
  cases t c.skip with
  | none => rfl
  | some found => rfl

/-- One of what is repeated comes first. -/
theorem seq_star_of_some (shrinks : Shrinks s) {c d : Cursor} {ps : List Pair}
    (h : s c = some (ps, d)) :
    seq (star s) t c = (seq (star s) t d.skip).map fun found => (ps ++ found.1, found.2) := by
  obtain ⟨e, repeated, near, _⟩ := star_skip shrinks d.length_skip_le
  have first : star s c = some (ps ++ (more s d.rest.length d).1, (more s d.rest.length d).2) := by
    rw [star, h]
  rw [seq_of_some first, seq_of_some repeated, near, Option.map_map]
  simp only [Function.comp_def, List.append_assoc]

theorem optional_of_none {c : Cursor} (h : s c = none) : optional s c = some ([], c) := by
  rw [optional, h]
  rfl

theorem optional_of_some {c : Cursor} {found : List Pair × Cursor} (h : s c = some found) :
    optional s c = some found := by
  rw [optional, h]
  rfl

theorem seq_mute (m : Matcher) (s : Scanner) (c : Cursor) :
    seq (mute m) s c = (c.take m).bind fun found => s found.2.skip := by
  rw [seq, mute]
  cases taken : c.take m with
  | none => rfl
  | some found =>
    show (s found.2.skip).bind (fun r => some ([] ++ r.1, r.2)) = s found.2.skip
    cases s found.2.skip with
    | none => rfl
    | some r => rfl

theorem mute_eq (m : Matcher) (c : Cursor) :
    mute m c = (c.take m).map fun found => ([], found.2) := rfl

theorem rule_of_some {c last : Cursor} {inner : List Pair} {text : List Char}
    (h : s c = some (inner, last)) (passes : c.Passes text last) (r : Rule) :
    rule r s c = some ([.mk r ⟨c.offset, last.offset⟩ text inner], last) := by
  rw [rule, h, ← passes.take_eq]
  rfl

theorem rule_eq (r : Rule) (s : Scanner) (c : Cursor) : rule r s c = (s c).bind fun found =>
    some ([.mk r ⟨c.offset, found.2.offset⟩
      (c.rest.take (c.rest.length - found.2.rest.length)) found.1], found.2) := by
  rw [rule]
  cases s c with
  | none => rfl
  | some found => rfl

theorem rule_of_none {c : Cursor} (h : s c = none) (r : Rule) : rule r s c = none := by
  rw [rule, h]
  rfl

/-- A token is what a matcher takes. -/
theorem token_eq {m : Matcher} (splits : m.Splits) (r : Rule) (c : Cursor) :
    token r m c = (c.take m).map fun found =>
      ([.mk r ⟨c.offset, found.2.offset⟩ found.1 []], found.2) := by
  cases taken : c.take m with
  | none => exact rule_of_none (by rw [mute_eq, taken]; rfl) r
  | some found =>
    exact rule_of_some (by rw [mute_eq, taken]; rfl) (Cursor.passes_of_take splits taken) r

end Scanner

/-! ### Tokens -/

open Builder (Stands StandEach)

/-- A pair for a way to write what a table knows. -/
def Names (table : List (String × α)) (r : Rule) (first : Nat) (ps : List Pair) (a : α) : Prop :=
  ∃ last t, ps = [.mk r ⟨first, last⟩ t []] ∧ table.lookup (Lexeme.lowered t) = some a

namespace Production

/-- What is found among the ways to write operators is the operator that is chosen. -/
theorem operator_meets {table : List (String × α)} {operators : List (α × Matcher)}
    (spelled : Spelled table operators) (r : Rule) (c : Cursor) :
    Meets (Names table r c.offset) Eq (operator r operators c) (c.choose operators) := by
  rw [operator, token_eq spelled.splits]
  induction operators with
  | nil => exact .none
  | cons p others ih =>
    obtain ⟨a, m⟩ := p
    have first : Spells table a m := spelled _ List.mem_cons_self
    cases found : m c.rest with
    | none =>
      have same : c.take (anyOf (((a, m) :: others).map (·.2))) =
          c.take (anyOf (others.map (·.2))) := by
        simp [Cursor.take, anyOf, found]
      rw [same, Cursor.choose_cons_of_none found]
      exact ih fun p mem => spelled p (List.mem_cons_of_mem _ mem)
    | some result =>
      obtain ⟨t, rest⟩ := result
      have taken : c.take (anyOf (((a, m) :: others).map (·.2))) =
          some (t, ⟨c.offset + byteLength t, rest⟩) := by
        simp [Cursor.take, anyOf, found]
      rw [taken, Cursor.choose_cons_of_some found]
      exact .some ⟨⟨_, t, rfl, first.lookup found⟩, rfl⟩

theorem sign_eq (d : Char) (c : Cursor) : sign d c = (c.expect d).map fun c' => ([], c') := by
  rw [sign, mute_eq, Cursor.expect, Option.map_map]
  rfl

theorem seq_sign (d : Char) (s : Scanner) (c : Cursor) :
    seq (sign d) s c = (c.expect d).bind fun c' => s c'.skip := by
  rw [sign, seq_mute, Cursor.expect, Option.bind_map]
  rfl

theorem identifier_eq (c : Cursor) :
    identifier c = (c.take Lexeme.name).map fun found =>
      ([.mk .identifier ⟨c.offset, found.2.offset⟩ found.1 []], found.2) :=
  token_eq .name _ c

/-! ### Literals -/

/-- A scanner finds what a matcher takes, as a literal of a kind. -/
def Finds (s : Scanner) (kind : Lexeme.Kind) (m : Matcher) : Prop :=
  ∀ c, Option.Rel (fun x y => ∃ p, x = ([p], y.2) ∧
    (LiteralText.Found ⟨kind, y.1⟩ →
      Stands p (.literal () ⟨c.offset, y.2.offset⟩ ⟨kind, y.1⟩))) (s c) (c.take m)

theorem finds_token {r : Rule} {kind : Lexeme.Kind} {m : Matcher} (splits : m.Splits)
    (is_kind : r.literalKind? = some kind) (bare : ∀ quote, kind ≠ .quoted quote) :
    Finds (token r m) kind m := by
  intro c
  rw [token_eq splits]
  cases c.take m with
  | none => exact .none
  | some found => exact .some ⟨_, rfl, Stands.literal is_kind bare⟩

/-- What is between the quotes ends where the closing one must stand. -/
theorem quotedBody_untilQuote (quote : Char) (cs : List Char) :
    ∃ body rest, quotedBody quote cs = some (body, rest) ∧ Lexeme.untilQuote quote cs =
      (Lexeme.mark [quote] rest).map fun found => (body ++ found.1, found.2) := by
  induction cs using quotedBody.induct quote with
  | case1 after ih =>
    obtain ⟨body, rest, inner, closes⟩ := ih
    refine ⟨quote :: quote :: body, rest, ?_, ?_⟩
    · rw [quotedBody, if_pos rfl, if_pos rfl, inner]
      rfl
    · rw [Lexeme.untilQuote, if_pos rfl, if_pos rfl, closes, Option.map_map]
      rfl
  | case2 d after other =>
    refine ⟨[], quote :: d :: after, ?_, ?_⟩
    · rw [quotedBody, if_pos rfl, if_neg other]
    · rw [Lexeme.untilQuote, if_pos rfl, if_neg other]
      rw [show Lexeme.mark [quote] (quote :: d :: after) = some ([quote], d :: after) from
        Lexeme.mark_append [quote] (d :: after)]
      rfl
  | case3 c d after other ih =>
    obtain ⟨body, rest, inner, closes⟩ := ih
    refine ⟨c :: body, rest, ?_, ?_⟩
    · rw [quotedBody, if_neg other, inner]
      rfl
    · rw [Lexeme.untilQuote, if_neg other, closes, Option.map_map]
      rfl
  | case4 =>
    refine ⟨[], [quote], ?_, ?_⟩
    · rw [quotedBody, if_pos rfl]
    · rw [Lexeme.untilQuote, if_pos rfl]
      rw [show Lexeme.mark [quote] [quote] = some ([quote], []) from Lexeme.mark_append [quote] []]
      rfl
  | case5 c other =>
    refine ⟨[c], [], ?_, ?_⟩
    · rw [quotedBody, if_neg other]
    · rw [Lexeme.untilQuote, if_neg other]
      rfl
  | case6 => exact ⟨[], [], rfl, rfl⟩

theorem splits_quotedText (quote : Char) : Matcher.Splits (Lexeme.quotedText quote) := by
  refine .seq (.mark _) fun cs found rest h => ?_
  obtain ⟨text, atClose, inner, closes⟩ := quotedBody_untilQuote quote cs
  rw [closes, Option.map_eq_some_iff] at h
  obtain ⟨⟨t, last⟩, closed, same⟩ := h
  cases same
  rw [Matcher.Splits.quotedBody quote inner, Matcher.Splits.mark [quote] closed, List.append_assoc]

theorem finds_quoted {r body : Rule} {quote : Char}
    (is_kind : r.literalKind? = some (.quoted quote)) (noLiteral : body.literalKind? = none) :
    Finds (quoted r body quote) (.quoted quote) (Lexeme.quotedText quote) := by
  intro c
  cases opened : Lexeme.mark [quote] c.rest with
  | none =>
    have nothing : Lexeme.quotedText quote c.rest = none := Lexeme.seq_of_none opened
    rw [Cursor.take_of_none nothing, quoted, rule, adjacent, sign_eq, Cursor.expect,
      Cursor.take_of_none opened]
    exact .none
  | some first =>
    obtain ⟨t, afterOpen⟩ := first
    obtain rfl := eq_of_mark opened
    obtain ⟨text, atClose, inner, closes⟩ := quotedBody_untilQuote quote afterOpen
    cases closed : Lexeme.mark [quote] atClose with
    | none =>
      have nothing : Lexeme.quotedText quote c.rest = none := by
        rw [Lexeme.quotedText, Lexeme.seq_of_some opened, closes, closed]
        rfl
      rw [Cursor.take_of_none nothing, quoted, rule, adjacent, sign_eq, Cursor.expect,
        Cursor.take_of_some opened]
      simp [adjacent, token_eq (.quotedBody quote), sign_eq, Cursor.take, inner, Cursor.expect,
        closed]
    | some second =>
      obtain ⟨t', last⟩ := second
      obtain rfl := eq_of_mark closed
      have matched : Lexeme.quotedText quote c.rest = some (quote :: text ++ [quote], last) := by
        rw [Lexeme.quotedText, Lexeme.seq_of_some opened, closes, closed]
        rfl
      have taken := Cursor.take_of_some matched
      have offset : c.offset + byteLength [quote] + byteLength text + byteLength [quote] =
          c.offset + byteLength (quote :: text ++ [quote]) := by
        rw [show quote :: text ++ [quote] = [quote] ++ text ++ [quote] from rfl, byteLength_append,
          byteLength_append]
        omega
      have scanned :
          adjacent (sign quote) (adjacent (token body (quotedBody quote)) (sign quote)) c =
            some ([.mk body ⟨c.offset + byteLength [quote],
              c.offset + byteLength [quote] + byteLength text⟩ text []],
              ⟨c.offset + byteLength (quote :: text ++ [quote]), last⟩) := by
        rw [← offset]
        simp [adjacent, token_eq (.quotedBody quote), sign_eq, Cursor.expect, Cursor.take, opened,
          inner, closed]
      rw [taken, quoted,
        rule_of_some scanned (Cursor.passes_of_take (splits_quotedText quote) taken)]
      exact .some ⟨_, rfl, Stands.quoted is_kind noLiteral⟩

/-- The first scanner that finds something goes with the first matcher that does. -/
theorem firstOf_finds {ss : List Scanner} {ms : List (Lexeme.Kind × Matcher)}
    (each : List.Forall₂ (fun s m => Finds s m.1 m.2) ss ms) (c : Cursor) :
    Option.Rel (fun x y => ∃ p, x = ([p], ⟨c.offset + byteLength y.2.1, y.2.2⟩) ∧
      (LiteralText.Found ⟨y.1, y.2.1⟩ →
        Stands p (.literal () ⟨c.offset, c.offset + byteLength y.2.1⟩ ⟨y.1, y.2.1⟩)))
      (firstOf ss c) (ms.findSome? fun m => (m.2 c.rest).map (m.1, ·)) := by
  induction each with
  | nil => exact .none
  | @cons s m ss ms first _ ih =>
    have one := first c
    rw [firstOf, List.findSome?_cons]
    rw [Cursor.take] at one
    cases found : m.2 c.rest with
    | none =>
      rw [found] at one
      cases scanned : s c with
      | some x =>
        rw [scanned] at one
        cases one
      | none => exact ih
    | some result =>
      rw [found] at one
      cases scanned : s c with
      | none =>
        rw [scanned] at one
        cases one
      | some x =>
        rw [scanned] at one
        cases one with
        | some related => exact .some related

theorem literal_meets (c : Cursor) : Meets Alone Eq (literal c) (Grammar.literal c) := by
  have each : List.Forall₂ (fun s m => Finds s m.1 m.2) literals Lexeme.literalMatchers :=
    .cons (finds_token (.word _) rfl (by simp)) <|
      .cons (finds_token (.word _) rfl (by simp)) <|
      .cons (finds_token (.whole (.seq .digits .realTail)) rfl (by simp)) <|
      .cons (finds_token (.whole (.seq .digits (.oneOf _))) rfl (by simp)) <|
      .cons (finds_token (.whole .digits) rfl (by simp)) <|
      .cons (finds_quoted rfl rfl) <| .cons (finds_quoted rfl rfl) .nil
  have related := firstOf_finds each c
  rw [literal, Grammar.literal]
  cases found : Lexeme.literal c.rest with
  | none =>
    rw [Lexeme.literal] at found
    rw [found] at related
    cases scanned : firstOf literals c with
    | none => exact .none
    | some x =>
      rw [scanned] at related
      cases related
  | some y =>
    obtain ⟨kind, t, rest⟩ := y
    have isFound : LiteralText.Found ⟨kind, t⟩ := ⟨c.rest, rest, found⟩
    rw [Lexeme.literal] at found
    rw [found] at related
    cases scanned : firstOf literals c with
    | none =>
      rw [scanned] at related
      cases related
    | some x =>
      rw [scanned] at related
      cases related with
      | some matched =>
        obtain ⟨p, rfl, stands⟩ := matched
        exact .some ⟨⟨p, rfl, stands isFound⟩, rfl⟩

end Production

end HostExpr
