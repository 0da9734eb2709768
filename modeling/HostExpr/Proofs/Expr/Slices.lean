import HostExpr.Proofs.Expr.Spelling

/-!
Pairs are slices of the source.

Whatever a scanner of the grammar finds stands in the source where its span says, and of two
literals the left one ends before the right one begins (`Scanner.Cuts`). This holds of tokens and is
kept by each way of putting scanners together, hence it holds of each production.
-/

namespace HostExpr

/-! ### Places -/

theorem byteLength_append (s t : List Char) :
    byteLength (s ++ t) = byteLength s + byteLength t := by
  induction s with
  | nil => exact (Nat.zero_add _).symm
  | cons c cs ih => rw [List.cons_append, byteLength, byteLength, ih, Nat.add_assoc]

namespace Cursor

/-- From one place to another, over a text. -/
structure Passes (c : Cursor) (t : List Char) (c' : Cursor) : Prop where
  text : c.rest = t ++ c'.rest
  offset : c'.offset = c.offset + byteLength t

def Before (c c' : Cursor) : Prop :=
  ∃ t, c.Passes t c'

variable {c c' c'' : Cursor} {t t' : List Char}

theorem Passes.trans (first : c.Passes t c') (second : c'.Passes t' c'') :
    c.Passes (t ++ t') c'' where
  text := by rw [first.text, second.text, List.append_assoc]
  offset := by rw [second.offset, first.offset, byteLength_append, Nat.add_assoc]

/-- The text between two places is what the rests of the source differ in. -/
theorem Passes.take_eq (h : c.Passes t c') :
    c.rest.take (c.rest.length - c'.rest.length) = t := by
  rw [h.text, List.length_append, Nat.add_sub_cancel, List.take_left]

theorem Before.refl (c : Cursor) : c.Before c :=
  ⟨[], rfl, rfl⟩

theorem Before.trans (first : c.Before c') (second : c'.Before c'') : c.Before c'' := by
  obtain ⟨t, passes⟩ := first
  obtain ⟨t', passes'⟩ := second
  exact ⟨t ++ t', passes.trans passes'⟩

theorem Before.offset_le (h : c.Before c') : c.offset ≤ c'.offset := by
  obtain ⟨t, passes⟩ := h
  rw [passes.offset]
  exact Nat.le_add_right _ _

theorem Before.length_le (h : c.Before c') : c'.rest.length ≤ c.rest.length := by
  obtain ⟨t, passes⟩ := h
  rw [passes.text, List.length_append]
  exact Nat.le_add_left _ _

theorem before_skip (c : Cursor) : c.Before c.skip :=
  ⟨c.rest.takeWhile Lexeme.isSpace, List.takeWhile_append_dropWhile.symm, rfl⟩

/-- What is taken is passed. -/
theorem passes_of_take {m : Matcher} (splits : m.Splits) (h : c.take m = some (t, c')) :
    c.Passes t c' := by
  rw [take, Option.map_eq_some_iff] at h
  obtain ⟨⟨found, rest⟩, matched, same⟩ := h
  cases same
  exact ⟨splits matched, rfl⟩

end Cursor

/-! ### Pairs -/

def Rule.literalKind? : Rule → Option Lexeme.Kind
  | .nullLit => some .null
  | .boolLit => some .boolean
  | .realLit => some .real
  | .longLit => some .long
  | .intLit => some .integer
  | .sqString => some (.quoted '\'')
  | .dqString => some (.quoted '"')
  | _ => none

namespace Pair

def literal? (p : Pair) : Option (Span × LiteralText) :=
  p.rule.literalKind?.map fun kind => (p.span, ⟨kind, p.text⟩)

def literals (ps : List Pair) : List (Span × LiteralText) :=
  (flattenAll ps).filterMap literal?

@[simp] theorem flattenAll_append (ps qs : List Pair) :
    flattenAll (ps ++ qs) = flattenAll ps ++ flattenAll qs := by
  induction ps with
  | nil => rfl
  | cons p ps ih => rw [List.cons_append, flattenAll, flattenAll, ih, List.append_assoc]

@[simp] theorem flattenAll_single (r : Rule) (s : Span) (t : List Char) (inner : List Pair) :
    flattenAll [.mk r s t inner] = .mk r s t inner :: flattenAll inner := by
  rw [flattenAll, flattenAll, List.append_nil, flatten]

@[simp] theorem literals_append (ps qs : List Pair) :
    literals (ps ++ qs) = literals ps ++ literals qs := by
  rw [literals, flattenAll_append, List.filterMap_append]
  rfl

/-- A pair that is no literal has those of its inner pairs. -/
theorem literals_of_none {r : Rule} (h : r.literalKind? = none) (s : Span) (t : List Char)
    (inner : List Pair) : literals [.mk r s t inner] = literals inner := by
  have nothing : literal? (.mk r s t inner) = none := by
    rw [literal?, rule, h]
    rfl
  rw [literals, flattenAll_single, List.filterMap_cons_none nothing]
  rfl

/-- A pair that is a literal is the only one in it. -/
theorem literals_of_some {r : Rule} {kind : Lexeme.Kind} (h : r.literalKind? = some kind) (s : Span)
    (t : List Char) {inner : List Pair} (alone : literals inner = []) :
    literals [.mk r s t inner] = [(s, ⟨kind, t⟩)] := by
  have found : literal? (.mk r s t inner) = some (s, ⟨kind, t⟩) := by
    rw [literal?, rule, h]
    rfl
  rw [literals, flattenAll_single, List.filterMap_cons_some found]
  exact congrArg _ alone

/-- A pair stands between two places of the source where its span says. -/
def StandsBetween (p : Pair) (c c' : Cursor) : Prop :=
  ∃ a b, c.Before a ∧ a.Passes p.text b ∧ b.Before c' ∧ p.span = ⟨a.offset, b.offset⟩

theorem StandsBetween.wider {p : Pair} {a b c d : Cursor} (h : p.StandsBetween b c)
    (before : a.Before b) (after : c.Before d) : p.StandsBetween a d := by
  obtain ⟨first, last, begins, passes, ends, span⟩ := h
  exact ⟨first, last, before.trans begins, passes, ends.trans after, span⟩

end Pair

/-- Pairs that are slices of the source between two places, the literals among them in order. -/
structure Slices (c : Cursor) (ps : List Pair) (c' : Cursor) : Prop where
  before : c.Before c'
  stand : ∀ p ∈ Pair.flattenAll ps, p.StandsBetween c c'
  ordered : (Pair.literals ps).Pairwise fun l l' => l.1.last ≤ l'.1.first

namespace Slices

variable {a b c d : Cursor} {ps qs : List Pair}

theorem nil (h : a.Before b) : Slices a [] b where
  before := h
  stand p mem := by cases mem
  ordered := List.Pairwise.nil

/-- A literal among slices lies between the places. -/
theorem literal_between (h : Slices a ps b) {l : Span × LiteralText} (mem : l ∈ Pair.literals ps) :
    a.offset ≤ l.1.first ∧ l.1.last ≤ b.offset := by
  obtain ⟨p, mem_p, is_literal⟩ := List.mem_filterMap.mp mem
  obtain ⟨first, last, begins, _, ends, span⟩ := h.stand p mem_p
  have same : l.1 = p.span := by
    rw [Pair.literal?, Option.map_eq_some_iff] at is_literal
    obtain ⟨kind, _, rfl⟩ := is_literal
    rfl
  rw [same, span]
  exact ⟨begins.offset_le, ends.offset_le⟩

/-- Slices side by side. -/
theorem append (first : Slices a ps b) (between : b.Before c) (second : Slices c qs d) :
    Slices a (ps ++ qs) d where
  before := (first.before.trans between).trans second.before
  stand := by
    intro p mem
    rw [Pair.flattenAll_append, List.mem_append] at mem
    rcases mem with left | right
    · exact (first.stand p left).wider (.refl a) (between.trans second.before)
    · exact (second.stand p right).wider (first.before.trans between) (.refl d)
  ordered := by
    rw [Pair.literals_append, List.pairwise_append]
    refine ⟨first.ordered, second.ordered, fun l left l' right => ?_⟩
    have middle := between.offset_le
    have ends := (first.literal_between left).2
    have begins := (second.literal_between right).1
    omega

/-- What a rule matches is a slice. If the rule is for a literal, there are none in it. -/
theorem rule {r : Rule} (h : Slices a ps b)
    (only : r.literalKind? = none ∨ Pair.literals ps = []) :
    Slices a [.mk r ⟨a.offset, b.offset⟩ (a.rest.take (a.rest.length - b.rest.length)) ps] b where
  before := h.before
  stand := by
    intro p mem
    rw [Pair.flattenAll_single, List.mem_cons] at mem
    rcases mem with rfl | inner
    · obtain ⟨t, passes⟩ := h.before
      refine ⟨a, b, .refl a, ?_, .refl b, rfl⟩
      rw [Pair.text, passes.take_eq]
      exact passes
    · exact h.stand p inner
  ordered := by
    cases kind : r.literalKind? with
    | none =>
      rw [Pair.literals_of_none kind]
      exact h.ordered
    | some k =>
      rw [kind] at only
      rw [Pair.literals_of_some kind _ _ (only.resolve_left (by simp))]
      exact List.pairwise_singleton _ _

end Slices

/-! ### Scanners -/

namespace Scanner

/-- What is found side by side is found in two parts. -/
theorem parts_of_adjacent {s t : Scanner} {c c' : Cursor} {ps : List Pair}
    (h : adjacent s t c = some (ps, c')) :
    ∃ qs middle rs, s c = some (qs, middle) ∧ t middle = some (rs, c') ∧ ps = qs ++ rs := by
  simp only [adjacent, Option.bind_eq_bind, Option.bind_eq_some_iff, Prod.exists, Option.pure_def,
    Option.some.injEq, Prod.mk.injEq] at h
  obtain ⟨qs, middle, one, rs, last, other, rfl, rfl⟩ := h
  exact ⟨qs, middle, rs, one, other, rfl⟩

/-- What is found in sequence is found in two parts, the second after any spaces. -/
theorem parts_of_seq {s t : Scanner} {c c' : Cursor} {ps : List Pair}
    (h : seq s t c = some (ps, c')) :
    ∃ qs middle rs, s c = some (qs, middle) ∧ t middle.skip = some (rs, c') ∧ ps = qs ++ rs := by
  simp only [seq, Option.bind_eq_bind, Option.bind_eq_some_iff, Prod.exists, Option.pure_def,
    Option.some.injEq, Prod.mk.injEq] at h
  obtain ⟨qs, middle, one, rs, last, other, rfl, rfl⟩ := h
  exact ⟨qs, middle, rs, one, other, rfl⟩

def Barren (s : Scanner) : Prop :=
  ∀ ⦃c ps c'⦄, s c = some (ps, c') → Pair.literals ps = []

theorem Barren.mute (m : Matcher) : Barren (Scanner.mute m) := by
  intro c ps c' h
  rw [Scanner.mute, Option.map_eq_some_iff] at h
  obtain ⟨_, _, same⟩ := h
  cases same
  rfl

theorem Barren.rule {r : Rule} {s : Scanner} (h : Barren s) (noLiteral : r.literalKind? = none) :
    Barren (Scanner.rule r s) := by
  intro c ps c' found
  rw [Scanner.rule, Option.map_eq_some_iff] at found
  obtain ⟨⟨inner, last⟩, scanned, same⟩ := found
  cases same
  rw [Pair.literals_of_none noLiteral]
  exact h scanned

theorem Barren.adjacent {s t : Scanner} (first : Barren s) (second : Barren t) :
    Barren (Scanner.adjacent s t) := by
  intro c ps c' h
  obtain ⟨qs, middle, rs, one, other, rfl⟩ := parts_of_adjacent h
  rw [Pair.literals_append, first one, second other]
  rfl

def Cuts (s : Scanner) : Prop :=
  ∀ ⦃c ps c'⦄, s c = some (ps, c') → Slices c ps c'

namespace Cuts

variable {s t : Scanner}

theorem mute {m : Matcher} (splits : m.Splits) : Cuts (Scanner.mute m) := by
  intro c ps c' h
  rw [Scanner.mute, Option.map_eq_some_iff] at h
  obtain ⟨⟨found, last⟩, taken, same⟩ := h
  cases same
  exact .nil ⟨found, Cursor.passes_of_take splits taken⟩

theorem rule {r : Rule} (h : Cuts s) (noLiteral : r.literalKind? = none) :
    Cuts (Scanner.rule r s) := by
  intro c ps c' found
  rw [Scanner.rule, Option.map_eq_some_iff] at found
  obtain ⟨⟨inner, last⟩, scanned, same⟩ := found
  cases same
  exact (h scanned).rule (.inl noLiteral)

/-- In a literal there is no other literal. -/
theorem literal {r : Rule} (h : Cuts s) (barren : Barren s) : Cuts (Scanner.rule r s) := by
  intro c ps c' found
  rw [Scanner.rule, Option.map_eq_some_iff] at found
  obtain ⟨⟨inner, last⟩, scanned, same⟩ := found
  cases same
  exact (h scanned).rule (.inr (barren scanned))

theorem token {m : Matcher} (splits : m.Splits) (r : Rule) : Cuts (Scanner.token r m) :=
  .literal (.mute splits) (.mute m)

theorem adjacent (first : Cuts s) (second : Cuts t) : Cuts (Scanner.adjacent s t) := by
  intro c ps c' h
  obtain ⟨qs, middle, rs, one, other, rfl⟩ := parts_of_adjacent h
  exact (first one).append (.refl middle) (second other)

theorem seq (first : Cuts s) (second : Cuts t) : Cuts (Scanner.seq s t) := by
  intro c ps c' h
  obtain ⟨qs, middle, rs, one, other, rfl⟩ := parts_of_seq h
  exact (first one).append middle.before_skip (second other)

theorem optional (h : Cuts s) : Cuts (Scanner.optional s) := by
  intro c ps c' found
  cases one : s c with
  | some result =>
    rw [Scanner.optional, one] at found
    cases found
    exact h one
  | none =>
    rw [Scanner.optional, one] at found
    cases found
    exact .nil (.refl c)

theorem firstOf {ss : List Scanner} (each : ∀ s ∈ ss, Cuts s) : Cuts (Scanner.firstOf ss) := by
  intro c ps c' found
  induction ss with
  | nil => cases found
  | cons s ss ih =>
    cases one : s c with
    | some result =>
      rw [Scanner.firstOf, one] at found
      cases found
      exact each s List.mem_cons_self one
    | none =>
      rw [Scanner.firstOf, one] at found
      exact ih (fun t mem => each t (List.mem_cons_of_mem _ mem)) found

theorem more (h : Cuts s) (limit : Nat) (c : Cursor) :
    Slices c (Scanner.more s limit c).1 (Scanner.more s limit c).2 := by
  induction limit generalizing c with
  | zero => exact .nil (.refl c)
  | succ limit ih =>
    rw [Scanner.more]
    cases one : s c.skip with
    | none => exact .nil (.refl c)
    | some result =>
      obtain ⟨ps, afterOne⟩ := result
      have first : Slices c ([] ++ ps) afterOne :=
        (Slices.nil (.refl c)).append c.before_skip (h one)
      exact first.append (.refl afterOne) (ih afterOne)

theorem star (h : Cuts s) : Cuts (Scanner.star s) := by
  intro c ps c' found
  rw [Scanner.star] at found
  cases one : s c with
  | none =>
    rw [one] at found
    cases found
    exact .nil (.refl c)
  | some result =>
    obtain ⟨qs, afterOne⟩ := result
    rw [one] at found
    cases found
    exact (h one).append (.refl afterOne) (more h _ afterOne)

end Cuts

end Scanner

/-! ### Productions -/

namespace Production

open Scanner

variable {nested : Scanner} {operand : Scanner}

theorem cuts_sign (d : Char) : Cuts (sign d) :=
  .mute (.mark [d])

theorem cuts_operator {α : Type} {table : List (String × α)} {operators : List (α × Matcher)}
    (spelled : Spelled table operators) (r : Rule) : Cuts (operator r operators) :=
  .token spelled.splits r

theorem cuts_identifier : Cuts identifier :=
  .token .name _

theorem cuts_quoted {r body : Rule} (noLiteral : body.literalKind? = none) (quote : Char) :
    Cuts (quoted r body quote) := by
  refine .literal ?_ ?_
  · exact .adjacent (cuts_sign quote) (.adjacent (.token (.quotedBody quote) _) (cuts_sign quote))
  · exact .adjacent (.mute _) (.adjacent (.rule (.mute _) noLiteral) (.mute _))

theorem cuts_literal : Cuts literal := by
  refine .firstOf fun s mem => ?_
  simp only [literals, List.mem_cons, List.not_mem_nil, or_false] at mem
  rcases mem with rfl | rfl | rfl | rfl | rfl | rfl | rfl
  · exact .token (.word _) _
  · exact .token (.word _) _
  · exact .token (.whole (.seq .digits .realTail)) _
  · exact .token (.whole (.seq .digits (.oneOf _))) _
  · exact .token (.whole .digits) _
  · exact cuts_quoted rfl _
  · exact cuts_quoted rfl _

theorem cuts_items (h : Cuts nested) : Cuts (items nested) :=
  .optional (.seq h (.star (.seq (cuts_sign ',') h)))

theorem cuts_property : Cuts property :=
  .rule cuts_identifier rfl

theorem cuts_methodCall (h : Cuts nested) : Cuts (methodCall nested) :=
  .rule (.seq cuts_identifier (.seq (cuts_sign _) (.seq (cuts_items h) (cuts_sign _)))) rfl

theorem cuts_node (h : Cuts nested) : Cuts (node nested) := by
  refine .firstOf fun s mem => ?_
  simp only [List.mem_cons, List.not_mem_nil, or_false] at mem
  rcases mem with rfl | rfl
  · exact cuts_methodCall h
  · exact cuts_property

theorem cuts_startNode (h : Cuts nested) : Cuts (startNode nested) := by
  refine .firstOf fun s mem => ?_
  simp only [List.mem_cons, List.not_mem_nil, or_false] at mem
  rcases mem with rfl | rfl | rfl | rfl | rfl | rfl
  · exact cuts_literal
  · exact .rule (.seq (cuts_sign _) (.seq h (cuts_sign _))) rfl
  · exact .rule (.seq (cuts_sign _) (.seq (cuts_items h) (cuts_sign _))) rfl
  · exact .rule (.adjacent (cuts_sign _) cuts_identifier) rfl
  · exact cuts_methodCall h
  · exact cuts_property

theorem cuts_primary (h : Cuts nested) : Cuts (primary nested) :=
  .rule (.seq (cuts_startNode h) (.star (.seq (cuts_sign _) (cuts_node h)))) rfl

theorem cuts_unary (h : Cuts nested) : Cuts (unary nested) :=
  .rule (.seq (.star (cuts_operator spelled_signs _)) (cuts_primary h)) rfl

theorem cuts_operands {r opRule : Rule} {operators : List (BinaryOperator × Matcher)}
    (spelled : Spelled Builder.binaryOperators operators) (noLiteral : r.literalKind? = none)
    (h : Cuts operand) : Cuts (operands r opRule operators operand) :=
  .rule (.seq h (.star (.seq (cuts_operator spelled _) h))) noLiteral

theorem cuts_multiplicative (h : Cuts nested) : Cuts (multiplicative nested) :=
  cuts_operands spelled_products rfl (cuts_unary h)

theorem cuts_additive (h : Cuts nested) : Cuts (additive nested) :=
  cuts_operands spelled_sums rfl (cuts_multiplicative h)

theorem cuts_relational (h : Cuts nested) : Cuts (relational nested) :=
  .rule (.seq (cuts_additive h)
    (.optional (.seq (cuts_operator spelled_relations _) (cuts_additive h)))) rfl

theorem cuts_logicalAnd (h : Cuts nested) : Cuts (logicalAnd nested) :=
  cuts_operands spelled_and rfl (cuts_relational h)

theorem cuts_logicalOr (h : Cuts nested) : Cuts (logicalOr nested) :=
  cuts_operands spelled_or rfl (cuts_logicalAnd h)

theorem cuts_ternary (h : Cuts nested) : Cuts (ternary nested) :=
  .rule (.seq (cuts_logicalOr h)
    (.optional (.seq (cuts_sign _) (.seq h (.seq (cuts_sign _) h))))) rfl

theorem cuts_assignment (h : Cuts nested) : Cuts (assignment nested) :=
  .rule (.seq (cuts_ternary h)
    (.optional (.seq (.mute (.notBeforeEquals (.mark _))) h))) rfl

theorem cuts_assignmentUpTo (depth : Nat) : Cuts (assignmentUpTo depth) := by
  induction depth with
  | zero =>
    intro c ps c' found
    cases found
  | succ depth ih => exact cuts_assignment ih

theorem cuts_expression (depth : Nat) : Cuts (expression depth) := by
  have atStart : Cuts startOfInput := by
    intro c ps c' found
    rw [startOfInput] at found
    split at found
    · cases found
      exact .nil (.refl c)
    · cases found
  have atEnd : Cuts endOfInput := by
    refine .rule ?_ rfl
    intro c ps c' found
    dsimp only at found
    split at found
    · cases found
      exact .nil (.refl c)
    · cases found
  exact .rule (.seq atStart (.seq (cuts_assignmentUpTo depth) atEnd)) rfl

end Production

/-- What the grammar matches are slices of the source. -/
theorem Pair.slices_of_ofSource? {source : String} {ps : List Pair}
    (h : ofSource? source = some ps) : ∃ c, Slices (Cursor.start source) ps c := by
  rw [ofSource?, Option.map_eq_some_iff] at h
  obtain ⟨⟨qs, c⟩, found, rfl⟩ := h
  exact ⟨c, Production.cuts_expression _ found⟩

end HostExpr
