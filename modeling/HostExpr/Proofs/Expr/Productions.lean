import HostExpr.Proofs.Expr.Matching

/-!
Each production matches what its reader reads.

There is one lemma for each production, over a scanner and a reader for what is nested in it that
agree (`Nested`). The circle is closed by induction on the depth
(`Production.nested_assignmentUpTo`). So a source is matched by the grammar if and only if it is a
phrase, and its builder builds what decoding and numbering the phrase gives: `Builder.parse_eq`.
-/

namespace HostExpr

open Scanner
open Builder (Stands StandEach Joins Signed assemble buildPrimary buildEach parts)

/-- A scanner and a reader agree on what is nested in brackets, arguments and so on. -/
structure Nested (nested : Scanner) (reader : Grammar.Reader Phrase) : Prop where
  cuts : Cuts nested
  meets : ∀ c : Cursor, c.skip = c → Meets Alone Eq (nested c) (reader c)

namespace Production

variable {nested : Scanner} {reader : Grammar.Reader Phrase}

/-! ### Lists of items -/

theorem shrinks_sign (d : Char) : Shrinks (sign d) :=
  .mute (Lexeme.Shortens.mark d [])

/-- Items after separators. -/
theorem more_meets {item : Scanner} {itemReader : Grammar.Reader Phrase}
    (agree : ∀ c : Cursor, c.skip = c → Meets Alone Eq (item c) (itemReader c)) (separator : Char)
    (limit : Nat) (c : Cursor) :
    StandEach (more (seq (sign separator) item) limit c).1
        (Grammar.moreAfter separator itemReader limit c).1 ∧
      (more (seq (sign separator) item) limit c).2 =
        (Grammar.moreAfter separator itemReader limit c).2 := by
  induction limit generalizing c with
  | zero => exact ⟨.nil, rfl⟩
  | succ limit ih =>
    rw [more, Grammar.moreAfter, seq_sign]
    cases c.skip.expect separator with
    | none => exact ⟨.nil, rfl⟩
    | some afterSeparator =>
      simp only [Option.bind_some]
      rcases (agree afterSeparator.skip afterSeparator.skip_skip).cases with
        ⟨nothing, nothing'⟩ | ⟨ps, d, q, d', found, read, ⟨p, rfl, stands⟩, rfl⟩
      · rw [nothing, nothing']
        exact ⟨.nil, rfl⟩
      · rw [found, read]
        exact ⟨.cons stands (ih d).1, (ih d).2⟩

/-- Items between commas, and the bracket that closes them. -/
theorem items_meets (agree : Nested nested reader) (close : Char) (c : Cursor) :
    Meets StandEach Eq (seq (items nested) (sign close) c.skip)
      (Grammar.items reader close c) := by
  have closes : ∀ {ps : List Pair} {qs : List Phrase} {d d' : Cursor}, StandEach ps qs →
      items nested c.skip = some (ps, d) → d.Near d' →
      Meets StandEach Eq (seq (items nested) (sign close) c.skip)
        ((d'.skip.expect close).map fun afterClose => (qs, afterClose)) := by
    intro ps qs d d' stands found near
    rw [seq_of_some found, sign_eq, show d.skip = d'.skip from near]
    cases d'.skip.expect close with
    | none => exact .none
    | some afterClose =>
      refine .some ⟨?_, rfl⟩
      show StandEach (ps ++ []) qs
      rw [List.append_nil]
      exact stands
  rw [Grammar.items]
  rcases (agree.meets c.skip c.skip_skip).cases with
    ⟨nothing, nothing'⟩ | ⟨ps, d, q, d', found, read, ⟨p, rfl, stands⟩, rfl⟩
  · rw [nothing']
    exact closes .nil (optional_of_none (seq_of_none nothing)) c.near_skip
  · rw [read]
    have others := more_meets agree.meets ',' d.rest.length d
    have shrinks : Shrinks (seq (sign ',') nested) := (shrinks_sign ',').seq agree.cuts
    obtain ⟨e, repeated, near, _⟩ := star_skip shrinks d.length_skip_le
    rw [others.2] at near
    refine closes (.cons stands others.1) ?_ near
    exact optional_of_some (by rw [seq_of_some found, repeated]; rfl)

/-! ### Segments of paths -/

theorem parenthesised_meets (agree : Nested nested reader) (c : Cursor) :
    Meets Alone Eq (parenthesised nested c) (Grammar.parenthesised reader c) := by
  rw [parenthesised, rule_eq, seq_sign, Grammar.parenthesised]
  cases c.expect '(' with
  | none => exact .none
  | some afterOpen =>
    simp only [Option.bind_eq_bind, Option.bind_some]
    rcases (agree.meets afterOpen.skip afterOpen.skip_skip).cases with
      ⟨nothing, nothing'⟩ | ⟨ps, d, q, d', found, read, ⟨p, rfl, stands⟩, rfl⟩
    · rw [seq_of_none nothing, nothing']
      exact .none
    · rw [seq_of_some found, read, sign_eq]
      simp only [Option.bind_some]
      cases d.skip.expect ')' with
      | none => exact .none
      | some last => exact .some ⟨⟨_, rfl, stands.wrap rfl rfl⟩, rfl⟩

theorem inlineList_meets (agree : Nested nested reader) (c : Cursor) :
    Meets Alone Eq (inlineList nested c) (Grammar.inlineList reader c) := by
  rw [inlineList, rule_eq, seq_sign, Grammar.inlineList]
  cases c.expect '\x7b' with
  | none => exact .none
  | some afterOpen =>
    refine (items_meets agree '\x7d' afterOpen).bind fun ps qs d d' stands same => ?_
    subst same
    exact .some ⟨⟨_, rfl, Stands.list stands⟩, rfl⟩

theorem reference_meets (c : Cursor) : Meets Alone Eq (reference c) (Grammar.hashName c) := by
  rw [reference, rule_eq, adjacent, sign_eq, Grammar.hashName]
  cases c.expect '#' with
  | none => exact .none
  | some afterHash =>
    simp only [Option.map_some, Option.bind_eq_bind, Option.bind_some, identifier_eq]
    cases afterHash.take Lexeme.name with
    | none => exact .none
    | some found => exact .some ⟨⟨_, rfl, Stands.variable _ _⟩, rfl⟩

/-- A method call, or else a property, is a member. -/
theorem node_meets (agree : Nested nested reader) (c : Cursor) :
    Meets Alone Eq (node nested c) (Grammar.member reader c) := by
  rw [node, firstOf, methodCall, rule_eq, firstOf, property, rule_eq, Grammar.member, identifier_eq]
  cases named : c.take Lexeme.name with
  | none =>
    rw [seq_of_none (by rw [identifier_eq, named]; rfl)]
    exact .none
  | some found =>
    obtain ⟨name, afterName⟩ := found
    have isNamed : identifier c =
        some ([.mk .identifier ⟨c.offset, afterName.offset⟩ name []], afterName) := by
      rw [identifier_eq, named]
      rfl
    rw [seq_of_some isNamed, seq_sign]
    simp only [Option.bind_eq_bind, Option.bind_some, Option.map_some]
    cases afterName.skip.expect '(' with
    | none => exact .some ⟨⟨_, rfl, Stands.property _ _⟩, rfl⟩
    | some afterOpen =>
      simp only [Option.bind_some]
      rcases (items_meets agree ')' afterOpen).cases with
        ⟨nothing, nothing'⟩ | ⟨ps, d, qs, d', found, read, stands, rfl⟩
      · rw [nothing, nothing']
        exact .some ⟨⟨_, rfl, Stands.property _ _⟩, rfl⟩
      · rw [found, read]
        exact .some ⟨⟨_, rfl, Stands.call stands _ _⟩, rfl⟩

theorem startNode_meets (agree : Nested nested reader) (c : Cursor) :
    Meets Alone Eq (startNode nested c) (Grammar.head reader c) := by
  rw [Grammar.head, startNode]
  simp only [firstOf, Grammar.firstOf]
  refine (literal_meets c).orElse ?_
  refine (parenthesised_meets agree c).orElse ?_
  refine (inlineList_meets agree c).orElse ?_
  refine (reference_meets c).orElse ?_
  have last : (Grammar.member reader c).orElse (fun _ => none) = Grammar.member reader c := by
    cases Grammar.member reader c with
    | none => rfl
    | some found => rfl
  rw [last]
  exact node_meets agree c

/-! ### Paths and signs -/

/-- A single pair of a rule, which stands for a phrase. -/
def Match (r : Rule) (ps : List Pair) (q : Phrase) : Prop :=
  ∃ s t inner, ps = [.mk r s t inner] ∧ Stands (.mk r s t inner) q

/-- Nothing more was read if there are no more items. -/
theorem moreAfter_nil {separator : Char} {item : Grammar.Reader Phrase} {limit : Nat} {c : Cursor}
    (h : (Grammar.moreAfter separator item limit c).1 = []) :
    (Grammar.moreAfter separator item limit c).2 = c := by
  cases limit with
  | zero => rfl
  | succ limit =>
    rw [Grammar.moreAfter] at h ⊢
    cases expected : c.skip.expect separator with
    | none => rfl
    | some afterSeparator =>
      rw [expected] at h
      cases read : item afterSeparator.skip with
      | none =>
        simp only [read]
      | some found =>
        simp only [read] at h
        cases h

theorem primary_meets (agree : Nested nested reader) (c : Cursor) :
    Meets (Match .primary) Cursor.Near (primary nested c) (Grammar.path reader c) := by
  rw [primary, rule_eq, Grammar.path]
  rcases (startNode_meets agree c).cases with
    ⟨nothing, nothing'⟩ | ⟨ps, d, q, d', found, read, ⟨p, rfl, stands⟩, rfl⟩
  · rw [seq_of_none nothing, nothing']
    exact .none
  · have others := more_meets (fun c _ => node_meets agree c) '.' d.rest.length d
    have shrinks : Shrinks (seq (sign '.') (node nested)) :=
      (shrinks_sign '.').seq (cuts_node agree.cuts)
    obtain ⟨e, repeated, near, exact_or_nil⟩ := star_skip shrinks d.length_skip_le
    rw [seq_of_some found, repeated, read]
    simp only [Option.bind_eq_bind, Option.bind_some, Option.map_some]
    rw [others.2] at near exact_or_nil
    have unread : (Grammar.moreAfter '.' (Grammar.member reader) d.rest.length d).1 = [] →
        (Grammar.moreAfter '.' (Grammar.member reader) d.rest.length d).2 = d := moreAfter_nil
    generalize (more (seq (sign '.') (node nested)) d.rest.length d).1 = ps at others exact_or_nil
    generalize Grammar.moreAfter '.' (Grammar.member reader) d.rest.length d = rest at *
    obtain ⟨qs, last⟩ := rest
    obtain ⟨each, _⟩ := others
    cases each with
    | nil =>
      obtain rfl : last = d := unread rfl
      refine .some ⟨⟨_, _, _, rfl, stands.wrap rfl ?_⟩, near⟩
      simp [assemble, Pair.rule, buildPrimary, buildEach, parts]
    | cons second others =>
      obtain rfl : e = last := exact_or_nil.resolve_left (by simp)
      exact .some ⟨⟨_, _, _, rfl, Stands.path stands second others⟩, rfl⟩

theorem shrinks_operator {α : Type} {table : List (String × α)} {operators : List (α × Matcher)}
    (spelled : Spelled table operators) (r : Rule) : Shrinks (operator r operators) :=
  (Shrinks.mute spelled.shortens).rule r

/-- Signs before an operand, one after another. -/
theorem signed_meets (agree : Nested nested reader) {limit : Nat} {c : Cursor}
    (solid : c.skip = c) (enough : c.rest.length < limit) :
    Meets Signed Cursor.Near
      (seq (star (operator .unaryOp Grammar.signs)) (primary nested) c)
      (Grammar.signed reader limit c) := by
  induction limit generalizing c with
  | zero => omega
  | succ limit ih =>
    have shrinks : Shrinks (operator .unaryOp Grammar.signs) := shrinks_operator spelled_signs _
    rw [Grammar.signed]
    rcases (operator_meets spelled_signs .unaryOp c).cases with
      ⟨nothing, nothing'⟩ | ⟨ps, d, op, d', found, chosen, ⟨last, t, rfl, known⟩, rfl⟩
    · rw [seq_star_of_none nothing, nothing', solid]
      refine (primary_meets agree c).mono ?_ fun _ _ near => near
      rintro ps q ⟨s, t, inner, rfl, stands⟩
      exact Signed.operand stands (by simp [Pair.rule])
    · have shorter := shrinks found
      have le := d.length_skip_le
      have operand := ih d.skip_skip (by omega)
      rw [seq_star_of_some shrinks found, chosen]
      dsimp only
      rcases operand.cases with
        ⟨nothing, nothing'⟩ | ⟨ps, e, q, e', found', read, signed, near⟩
      · rw [nothing, nothing']
        exact .none
      · rw [found', read]
        exact .some ⟨signed.sign rfl known rfl, near⟩

theorem unary_meets (agree : Nested nested reader) (c : Cursor) (solid : c.skip = c) :
    Meets Alone Cursor.Near (unary nested c) (Grammar.unary reader c) := by
  rw [unary, rule_eq, Grammar.unary]
  rcases (signed_meets agree solid (Nat.lt_succ_self _)).cases with
    ⟨nothing, nothing'⟩ | ⟨ps, d, q, d', found, read, signed, near⟩
  · rw [nothing, nothing']
    exact .none
  · rw [found, read]
    exact .some ⟨⟨_, rfl, Stands.signed signed⟩, near⟩

/-! ### Operands between operators -/

variable {operand : Scanner} {operandReader : Grammar.Reader Phrase}
  {operators : List (BinaryOperator × Matcher)}

/-- Further operands, each after an operator. -/
theorem moreOperands_meets
    (agree : ∀ c : Cursor, c.skip = c → Meets Alone Cursor.Near (operand c) (operandReader c))
    (spelled : Spelled Builder.binaryOperators operators) {opRule : Rule}
    (noLiteral : opRule.literalKind? = none) (first limit : Nat) (left : Phrase) {c c' : Cursor}
    (near : c.Near c') :
    Joins first (more (seq (operator opRule operators) operand) limit c).1 left
        (Grammar.moreOperands operators operandReader first limit left c').1 ∧
      (more (seq (operator opRule operators) operand) limit c).2.Near
        (Grammar.moreOperands operators operandReader first limit left c').2 := by
  induction limit generalizing left c c' with
  | zero => exact ⟨.nil first left, near⟩
  | succ limit ih =>
    rw [more, Grammar.moreOperands, show c.skip = c'.skip from near]
    rcases (operator_meets spelled opRule c'.skip).cases with
      ⟨nothing, nothing'⟩ | ⟨ps, d, op, d', found, chosen, ⟨last, t, rfl, known⟩, rfl⟩
    · rw [seq_of_none nothing, nothing']
      exact ⟨.nil first left, near⟩
    · rw [seq_of_some found, chosen]
      dsimp only
      rcases (agree d.skip d.skip_skip).cases with
        ⟨nothing, nothing'⟩ | ⟨ps, e, q, e', found', read, ⟨p, rfl, stands⟩, near'⟩
      · rw [nothing, nothing']
        exact ⟨.nil first left, near⟩
      · rw [found', read]
        have others := ih (.binary () ⟨first, q.span.last⟩ op left q) near'
        exact ⟨.cons known (Pair.literals_of_none noLiteral _ _ _) stands others.1, others.2⟩

/-- An operand and what may come after it. -/
theorem joined_meets
    (agree : ∀ c : Cursor, c.skip = c → Meets Alone Cursor.Near (operand c) (operandReader c))
    (spelled : Spelled Builder.binaryOperators operators) {r opRule : Rule}
    (noLiteral : opRule.literalKind? = none) (noLiteral' : r.literalKind? = none)
    (binary : ∀ s t ps, assemble (.mk r s t ps) (parts ps) =
      Builder.buildBinary (.mk r s t ps) (parts ps)) (tail : Scanner) (limit : Cursor → Nat)
    (tail_eq : ∀ d d' : Cursor, d.Near d' → ∃ e,
      tail d.skip = some ((more (seq (operator opRule operators) operand) (limit d') d).1, e) ∧
        e.Near (more (seq (operator opRule operators) operand) (limit d') d).2)
    {c : Cursor} (solid : c.skip = c) :
    Meets Alone Cursor.Near (rule r (seq operand tail) c) ((operandReader c).map fun found =>
      Grammar.moreOperands operators operandReader c.offset (limit found.2) found.1 found.2) := by
  rw [rule_eq]
  rcases (agree c solid).cases with
    ⟨nothing, nothing'⟩ | ⟨ps, d, q, d', found, read, ⟨p, rfl, stands⟩, near⟩
  · rw [seq_of_none nothing, nothing']
    exact .none
  · obtain ⟨e, scanned, near'⟩ := tail_eq d d' near
    have others := moreOperands_meets agree spelled noLiteral c.offset (limit d') q near
    rw [seq_of_some found, scanned, read]
    refine .some ⟨⟨_, rfl, stands.joined others.1 (binary _ _ _) noLiteral'⟩, ?_⟩
    exact near'.trans others.2

/-- Any number of operands between operators. -/
theorem operands_meets
    (agree : ∀ c : Cursor, c.skip = c → Meets Alone Cursor.Near (operand c) (operandReader c))
    (cuts : Cuts operand) (spelled : Spelled Builder.binaryOperators operators) {r opRule : Rule}
    (noLiteral : opRule.literalKind? = none) (noLiteral' : r.literalKind? = none)
    (binary : ∀ s t ps, assemble (.mk r s t ps) (parts ps) =
      Builder.buildBinary (.mk r s t ps) (parts ps)) (c : Cursor) (solid : c.skip = c) :
    Meets Alone Cursor.Near (operands r opRule operators operand c)
      (Grammar.operands operators operandReader c) := by
  have shrinks : Shrinks (seq (operator opRule operators) operand) :=
    (shrinks_operator spelled opRule).seq cuts
  have joined := joined_meets agree spelled noLiteral noLiteral' binary
    (star (seq (operator opRule operators) operand)) (fun d => d.rest.length)
    (fun d d' near => ?_) solid
  · have read : Grammar.operands operators operandReader c = (operandReader c).map fun found =>
        Grammar.moreOperands operators operandReader c.offset found.2.rest.length found.1
          found.2 := by
      rw [Grammar.operands]
      cases operandReader c with
      | none => rfl
      | some found => rfl
    rw [read]
    exact joined
  · have le : d.skip.rest.length ≤ d'.rest.length := by
      rw [show d.skip = d'.skip from near]
      exact d'.length_skip_le
    obtain ⟨e, repeated, near', _⟩ := star_skip shrinks le
    exact ⟨e, repeated, near'⟩

theorem multiplicative_meets (agree : Nested nested reader) (c : Cursor) (solid : c.skip = c) :
    Meets Alone Cursor.Near (multiplicative nested c) (Grammar.product reader c) :=
  operands_meets (unary_meets agree) (cuts_unary agree.cuts) spelled_products rfl rfl
    (fun _ _ _ => rfl) c solid

theorem additive_meets (agree : Nested nested reader) (c : Cursor) (solid : c.skip = c) :
    Meets Alone Cursor.Near (additive nested c) (Grammar.sum reader c) :=
  operands_meets (multiplicative_meets agree) (cuts_multiplicative agree.cuts) spelled_sums rfl rfl
    (fun _ _ _ => rfl) c solid

/-- At most one relation between two operands. -/
theorem relational_meets (agree : Nested nested reader) (c : Cursor) (solid : c.skip = c) :
    Meets Alone Cursor.Near (relational nested c) (Grammar.relation reader c) := by
  have joined := joined_meets (additive_meets agree) spelled_relations
    (rfl : Rule.relOp.literalKind? = none) (rfl : Rule.relational.literalKind? = none)
    (fun _ _ _ => rfl) (optional (seq (operator .relOp Grammar.relations) (additive nested)))
    (fun _ => 1) (fun d d' _ => optional_skip _ d) solid
  have read : Grammar.relation reader c = (Grammar.sum reader c).map fun found =>
      Grammar.moreOperands Grammar.relations (Grammar.sum reader) c.offset 1 found.1 found.2 := by
    rw [Grammar.relation, Grammar.operandPair]
    cases Grammar.sum reader c with
    | none => rfl
    | some found => rfl
  rw [read]
  exact joined

theorem logicalAnd_meets (agree : Nested nested reader) (c : Cursor) (solid : c.skip = c) :
    Meets Alone Cursor.Near (logicalAnd nested c) (Grammar.conjunction reader c) :=
  operands_meets (relational_meets agree) (cuts_relational agree.cuts) spelled_and rfl rfl
    (fun _ _ _ => rfl) c solid

theorem logicalOr_meets (agree : Nested nested reader) (c : Cursor) (solid : c.skip = c) :
    Meets Alone Cursor.Near (logicalOr nested c) (Grammar.disjunction reader c) :=
  operands_meets (logicalAnd_meets agree) (cuts_logicalAnd agree.cuts) spelled_or rfl rfl
    (fun _ _ _ => rfl) c solid

/-! ### Choices and assignments -/

/-- The two branches of a choice. -/
theorem branches_meets (agree : Nested nested reader) {c c' : Cursor} (near : c.Near c') :
    Meets (fun ps q => ∃ p p', ps = [p, p'] ∧ Stands p q.1 ∧ Stands p' q.2) Eq
      (seq (sign '?') (seq nested (seq (sign ':') nested)) c.skip)
      (Grammar.branches reader c') := by
  rw [show c.skip = c'.skip from near, seq_sign, Grammar.branches]
  cases c'.skip.expect '?' with
  | none => exact .none
  | some afterMark =>
    simp only [Option.bind_eq_bind, Option.bind_some]
    rcases (agree.meets afterMark.skip afterMark.skip_skip).cases with
      ⟨nothing, nothing'⟩ | ⟨ps, d, q, d', found, read, ⟨p, rfl, stands⟩, rfl⟩
    · rw [seq_of_none nothing, nothing']
      exact .none
    · rw [seq_of_some found, read, seq_sign]
      simp only [Option.bind_some]
      cases d.skip.expect ':' with
      | none => exact .none
      | some afterColon =>
        simp only [Option.bind_some]
        rcases (agree.meets afterColon.skip afterColon.skip_skip).cases with
          ⟨nothing, nothing'⟩ | ⟨ps, e, q', e', found', read', ⟨p', rfl, stands'⟩, rfl⟩
        · rw [nothing, nothing']
          exact .none
        · rw [found', read']
          exact .some ⟨⟨p, p', rfl, stands, stands'⟩, rfl⟩

theorem ternary_meets (agree : Nested nested reader) (c : Cursor) (solid : c.skip = c) :
    Meets Alone Cursor.Near (ternary nested c) (Grammar.ternary reader c) := by
  rw [ternary, rule_eq, Grammar.ternary]
  rcases (logicalOr_meets agree c solid).cases with
    ⟨nothing, nothing'⟩ | ⟨ps, d, q, d', found, read, ⟨p, rfl, stands⟩, near⟩
  · rw [seq_of_none nothing, nothing']
    exact .none
  · rw [seq_of_some found, read]
    simp only [Option.bind_eq_bind, Option.bind_some]
    rcases (branches_meets agree near).cases with
      ⟨nothing, nothing'⟩ | ⟨ps, e, q', e', found', read', ⟨p', p'', rfl, whenTrue, whenFalse⟩, rfl⟩
    · rw [optional_of_none nothing, nothing']
      refine .some ⟨⟨_, rfl, stands.wrap rfl ?_⟩, d.near_skip.trans near⟩
      exact bind_pure (Builder.build p)
    · rw [optional_of_some found', read']
      exact .some ⟨⟨_, rfl, Stands.ternary stands whenTrue whenFalse⟩, rfl⟩

theorem assignment_meets (agree : Nested nested reader) (c : Cursor) (solid : c.skip = c) :
    Meets Alone Eq (assignment nested c) (Grammar.assignment reader c) := by
  rw [assignment, rule_eq, Grammar.assignment]
  rcases (ternary_meets agree c solid).cases with
    ⟨nothing, nothing'⟩ | ⟨ps, d, q, d', found, read, ⟨p, rfl, stands⟩, near⟩
  · rw [seq_of_none nothing, nothing']
    exact .none
  · rw [seq_of_some found, read, show d.skip = d'.skip from near]
    simp only [Option.bind_eq_bind, Option.bind_some]
    have assigned : Meets Alone Eq (seq (mute Grammar.assignSign) nested d'.skip)
        ((d'.skip.take Grammar.assignSign).bind fun found => reader found.2.skip) := by
      rw [seq_mute]
      cases d'.skip.take Grammar.assignSign with
      | none => exact .none
      | some found => exact agree.meets found.2.skip found.2.skip_skip
    rcases assigned.cases with
      ⟨nothing, nothing'⟩ | ⟨ps, e, q', e', found', read', ⟨p', rfl, value⟩, rfl⟩
    · rw [optional_of_none nothing, nothing']
      exact .some ⟨⟨_, rfl, stands.wrap rfl rfl⟩, rfl⟩
    · rw [optional_of_some found', read']
      exact .some ⟨⟨_, rfl, Stands.assign stands value⟩, rfl⟩

/-- The production of a whole assignment and its reader agree, to any depth. -/
theorem nested_assignmentUpTo (depth : Nat) :
    Nested (assignmentUpTo depth) (Grammar.assignmentUpTo depth) := by
  refine ⟨cuts_assignmentUpTo depth, ?_⟩
  induction depth with
  | zero =>
    intro c _
    exact .none
  | succ depth ih =>
    intro c solid
    exact assignment_meets ⟨cuts_assignmentUpTo depth, ih⟩ c solid

end Production

/-- The pairs of a whole source, whose inner pair stands for a phrase. -/
def Whole (ps : List Pair) (q : Phrase) : Prop :=
  ∃ s t p e, ps = [.mk .expression s t [p, e]] ∧ Stands p q ∧ Pair.literals [e] = []

theorem Whole.literals {ps : List Pair} {q : Phrase} (h : Whole ps q) :
    Pair.literals ps = q.literals := by
  obtain ⟨s, t, p, e, rfl, stands, nothing⟩ := h
  rw [Pair.literals_of_none rfl, Builder.literals_cons, stands.literals, nothing, List.append_nil]

theorem Whole.found {ps : List Pair} {q : Phrase} (h : Whole ps q) :
    ∀ l ∈ Pair.literals ps, l.2.Found := by
  rw [h.literals]
  obtain ⟨s, t, p, e, rfl, stands, _⟩ := h
  exact stands.found

/-- **The grammar matches the sources that are phrases.** -/
theorem Pair.ofSource?_meets (source : String) :
    Option.Rel Whole (Pair.ofSource? source) (Phrase.ofSource? source) := by
  have agree := Production.nested_assignmentUpTo ((Cursor.start source).rest.length + 1)
  rw [Pair.ofSource?, Phrase.ofSource?]
  dsimp only
  generalize (Cursor.start source).rest.length + 1 = depth at agree
  have begins : Production.startOfInput (Cursor.start source) = some ([], Cursor.start source) :=
    if_pos rfl
  rw [Production.expression, rule_eq, seq_of_some begins]
  rcases (agree.meets (Cursor.start source).skip (Cursor.start source).skip_skip).cases with
    ⟨nothing, nothing'⟩ | ⟨ps, d, q, d', found, read, ⟨p, rfl, stands⟩, rfl⟩
  · rw [seq_of_none nothing, nothing']
    exact .none
  · rw [seq_of_some found, read, Production.endOfInput, rule_eq]
    simp only [Option.bind_eq_bind, Option.bind_some]
    by_cases ends : d.skip.rest = []
    · rw [if_pos ends, if_pos ends]
      exact .some ⟨_, _, p, _, rfl, stands, Pair.literals_of_none rfl _ _ _⟩
    · rw [if_neg ends, if_neg ends]
      exact .none

/-- **The builder builds what the source is**, and its unexpected states do not occur. -/
theorem Builder.parse_eq (source : String) :
    Builder.parse source = (Expr.parse source).mapError BuildFailure.parse := by
  have agree := Pair.ofSource?_meets source
  unfold Builder.parse Expr.parse
  generalize Pair.ofSource? source = matched at agree
  generalize Phrase.ofSource? source = read at agree
  cases agree with
  | none => rfl
  | @some _ q whole =>
    obtain ⟨s, t, p, e, rfl, stands, _⟩ := whole
    show (Builder.build p 0).map (·.1) = ((Expr.ofPhrase q 0).map (·.1)).mapError BuildFailure.parse
    rw [stands.build, Builder.lift]
    cases Expr.ofPhrase q 0 with
    | error failure => rfl
    | ok built => rfl

end HostExpr
