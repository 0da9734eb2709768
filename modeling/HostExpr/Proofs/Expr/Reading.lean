import HostExpr.Proofs.Expr.Literals

/-!
How the readers of the grammar read what is written.

`Reads level e tokens` is the contract of a level's reader: where the tokens are laid out and what
stands after them does not extend an expression of the level, it finds a phrase for `e` and stops
after the tokens. The readers that group to the left also meet `Extends`, in which what stands after
the tokens may be a further operand. There is a lemma for each way of writing an expression.
-/

namespace HostExpr

open Grammar

/-! ### Places -/

namespace Cursor

variable {c : Cursor} {ts : List Token}

theorem length_skip_le (c : Cursor) : c.skip.rest.length ≤ c.rest.length :=
  (List.dropWhile_sublist _).length_le

theorem skip_of_laid (laid : Laid ts c.rest) : c.skip.rest = c.rest :=
  laid.dropWhile

theorem choose_operator_of_laid {op : BinaryOperator} {t : Token} (spelled : op.Spelled t)
    (laid : Laid (t :: ts) c.rest) :
    ∃ c', c.choose op.level.operators = some (op, c') ∧ Laid ts c'.skip.rest ∧
      c'.rest.length < c.rest.length := by
  generalize at_c : c.rest = cs at laid
  cases laid with
  | @cons _ _ rest solid ends others =>
    obtain ⟨c', found, rfl⟩ := choose_operator spelled ends at_c
    exact ⟨c', found, others, solid.shorter _⟩

theorem take_name_of_laid {t : Token} (h : IsName t) (laid : Laid (t :: ts) c.rest) :
    ∃ c', c.take Lexeme.name = some (t, c') ∧ Laid ts c'.skip.rest ∧
      c'.rest.length < c.rest.length := by
  generalize at_c : c.rest = cs at laid
  cases laid with
  | @cons _ _ rest solid ends others =>
    have found : Lexeme.name c.rest = some (t, rest) := by
      rw [at_c]
      exact h.found ends
    exact ⟨_, take_of_some found, others, solid.shorter rest⟩

end Cursor

/-! ### Contracts -/

def Level.reader (l : Level) (nested : Reader Phrase) : Reader Phrase :=
  match l with
  | .assignment => Grammar.assignment nested
  | .or => Grammar.disjunction nested
  | .and => Grammar.conjunction nested
  | .relation => Grammar.relation nested
  | .sum => Grammar.sum nested
  | .product => Grammar.product nested
  | .unary => Grammar.unary nested
  | .path => Grammar.path nested
  | .atom => Grammar.head nested
  | .member => Grammar.member nested

/-- A result is a phrase for an expression, with the other tokens after it. -/
def Found (e : Expr) (more : List Token) (c : Cursor) (r : Option (Phrase × Cursor)) : Prop :=
  ∃ p c', r = some (p, c') ∧ Decodes p e ∧ Laid more c'.skip.rest ∧ c'.rest.length < c.rest.length

/-- **The contract of a level's reader** for an expression and the tokens it is written as. -/
def Reads (l : Level) (e : Expr) (ts : List Token) : Prop :=
  ∀ (depth : Nat) (more : List Token) (c : Cursor), Closes l more → Laid (ts ++ more) c.rest →
    c.rest.length ≤ depth → Found e more c (l.reader (assignmentUpTo depth) c)

/-- Whether the operators of a level group to the left. -/
def Level.chains : Level → Bool
  | .or | .and | .sum | .product => true
  | _ => false

theorem Level.reader_of_chains {l : Level} (h : l.chains) (nested : Reader Phrase) :
    l.reader nested = operands l.operators (l.tighter.reader nested) := by
  cases l <;> first | rfl | cases h

theorem Level.reader_relation (nested : Reader Phrase) : Level.relation.reader nested =
    operandPair Level.relation.operators (Level.sum.reader nested) := rfl

theorem Level.rank_lt_tighter {l : Level} (h : l.chains) : l.rank < l.tighter.rank := by
  cases l <;> first | decide | cases h

/-- The contract of a reader that groups to the left: once it has read the tokens, it goes on with
the operands after them. -/
def Extends (l : Level) (e : Expr) (ts : List Token) : Prop :=
  ∀ (depth : Nat) (more : List Token) (c : Cursor), Closes l.tighter more →
    Laid (ts ++ more) c.rest → c.rest.length ≤ depth →
      ∃ p c' limit, l.reader (assignmentUpTo depth) c = some (moreOperands l.operators
          (l.tighter.reader (assignmentUpTo depth)) c.offset limit p c') ∧
        Decodes p e ∧ Laid more c'.skip.rest ∧ c'.rest.length < c.rest.length ∧
        c'.rest.length ≤ limit

/-! ### Operators -/

theorem moreOperands_of_none {operators : List (BinaryOperator × Matcher)} {operand : Reader Phrase}
    {c : Cursor} (h : c.skip.choose operators = none) (first limit : Nat) (left : Phrase) :
    moreOperands operators operand first limit left c = (left, c) := by
  cases limit with
  | zero => rfl
  | succ limit => rw [moreOperands, h]

section Operators

variable {l : Level} {d e : Expr} {ts ls rs : List Token}

/-- A reader that goes on stops where its level is closed. -/
theorem Extends.reads (h : Extends l e ts) : Reads l e ts := by
  intro depth more c closes laid enough
  obtain ⟨p, c', limit, read, decodes, others, shorter, -⟩ :=
    h depth more c closes.tighter laid enough
  rw [moreOperands_of_none (Cursor.choose_operators_of_closes closes others)] at read
  exact ⟨p, c', read, decodes, others, shorter⟩

/-- One operand may be the first of several. -/
theorem Reads.extends (chains : l.chains) (h : Reads l.tighter e ts) : Extends l e ts := by
  intro depth more c closes laid enough
  obtain ⟨p, c', read, decodes, others, shorter⟩ := h depth more c closes laid enough
  refine ⟨p, c', c'.rest.length, ?_, decodes, others, shorter, Nat.le_refl _⟩
  rw [Level.reader_of_chains chains, operands, read]
  rfl

/-- **One more operand** is read after an operator. -/
theorem moreOperands_operator {op : BinaryOperator} {t : Token} (spelled : op.Spelled t)
    (right : Reads op.level.tighter e rs) {more : List Token}
    (closes : Closes op.level.tighter more) {c : Cursor}
    (laid : Laid (t :: rs ++ more) c.skip.rest) {depth : Nat}
    (enough : c.rest.length ≤ depth) (first limit : Nat) (left : Phrase) :
    ∃ s q c', moreOperands op.level.operators (op.level.tighter.reader (assignmentUpTo depth)) first
        (limit + 1) left c =
      moreOperands op.level.operators (op.level.tighter.reader (assignmentUpTo depth)) first limit
        (.binary () s op left q) c' ∧
      Decodes q e ∧ Laid more c'.skip.rest ∧ c'.rest.length < c.rest.length := by
  obtain ⟨afterOperator, chosen, others, shorter⟩ := Cursor.choose_operator_of_laid spelled laid
  have le := c.length_skip_le
  have le' := afterOperator.length_skip_le
  obtain ⟨q, c', read, decodes, after, shorter'⟩ :=
    right depth more afterOperator.skip closes others (by omega)
  refine ⟨⟨first, q.span.last⟩, q, c', ?_, decodes, after, by omega⟩
  rw [moreOperands, chosen]
  dsimp only
  rw [read]

/-- An operator that groups to the left takes what stands before it. -/
theorem Extends.binary {i : NodeId} {s : Span} {op : BinaryOperator} {t : Token}
    (left : Extends op.level d ls) (spelled : op.Spelled t) (right : Reads op.level.tighter e rs)
    (chains : op.level.chains) : Extends op.level (.binary i s op d e) (ls ++ t :: rs) := by
  intro depth more c closes laid enough
  rw [List.append_assoc] at laid
  have next : Closes op.level.tighter (t :: rs ++ more) :=
    .cons (.operator spelled (Level.rank_lt_tighter chains))
  obtain ⟨p, c', limit, read, decodes, others, shorter, within⟩ := left depth _ c next laid enough
  have enough' : c'.rest.length ≤ depth := by omega
  obtain ⟨s', q, c'', more_read, decodes', after, shorter'⟩ :=
    moreOperands_operator spelled right closes others enough' c.offset (limit - 1) p
  -- An operand takes up some of the text, which is no longer than the limit.
  have step : limit - 1 + 1 = limit := by omega
  rw [step] at more_read
  exact ⟨.binary () s' op p q, c'', limit - 1, read.trans (congrArg some more_read),
    .binary op decodes decodes', after, by omega, by omega⟩

/-- A relation stands between two operands. -/
theorem Reads.relation {i : NodeId} {s : Span} {op : BinaryOperator} {t : Token}
    (left : Reads .sum d ls) (spelled : op.Spelled t) (right : Reads .sum e rs)
    (level : op.level = .relation) : Reads .relation (.binary i s op d e) (ls ++ t :: rs) := by
  intro depth more c closes laid enough
  rw [List.append_assoc] at laid
  have next : Closes .sum (t :: rs ++ more) := .cons (.operator spelled (by rw [level]; decide))
  obtain ⟨p, c', read, decodes, others, shorter⟩ := left depth _ c next laid enough
  have tighter : op.level.tighter = .sum := by rw [level]; rfl
  have enough' : c'.rest.length ≤ depth := by omega
  obtain ⟨s', q, c'', more_read, decodes', after, shorter'⟩ :=
    moreOperands_operator spelled (tighter ▸ right) (tighter ▸ closes.tighter) others enough'
      c.offset 0 p
  rw [level] at more_read
  refine ⟨.binary () s' op p q, c'', ?_, .binary op decodes decodes', after, by omega⟩
  rw [Level.reader_relation, operandPair, read]
  exact congrArg some more_read

/-- One operand may stand where a relation may. -/
theorem Reads.no_relation (h : Reads .sum e ts) : Reads .relation e ts := by
  intro depth more c closes laid enough
  obtain ⟨p, c', read, decodes, others, shorter⟩ := h depth more c closes.tighter laid enough
  refine ⟨p, c', ?_, decodes, others, shorter⟩
  have none := Cursor.choose_operators_of_closes closes others
  rw [Level.reader_relation, operandPair, read]
  exact congrArg some (moreOperands_of_none none c.offset 1 p)

end Operators

/-! ### Signs -/

theorem shorter_of_choose_signs {c c' : Cursor} {op : UnaryOperator}
    (h : c.choose signs = some (op, c')) : c'.rest.length < c.rest.length := by
  refine Cursor.shorter_of_choose (fun p mem => ?_) h
  simp only [signs, List.mem_cons, List.not_mem_nil, or_false] at mem
  rcases mem with rfl | rfl | rfl | rfl
  · exact Lexeme.Shortens.notBeforeEquals (Lexeme.Shortens.mark _ _)
  · exact Lexeme.Shortens.word (by decide)
  · exact Lexeme.Shortens.mark _ _
  · exact Lexeme.Shortens.mark _ _

/-- Whatever the limit, if the text is shorter, signs are read alike. -/
theorem signed_limit {nested : Reader Phrase} {k l : Nat} {c : Cursor} (hk : c.rest.length < k)
    (hl : c.rest.length < l) : signed nested k c = signed nested l c := by
  induction k generalizing l c with
  | zero => exact absurd hk (Nat.not_lt_zero _)
  | succ k ih =>
    cases l with
    | zero => exact absurd hl (Nat.not_lt_zero _)
    | succ l =>
      cases chosen : c.choose signs with
      | none => rw [signed, signed, chosen]
      | some found =>
        obtain ⟨op, afterSign⟩ := found
        have shorter := shorter_of_choose_signs chosen
        have le := afterSign.length_skip_le
        rw [signed, signed, chosen]
        dsimp only
        rw [ih (c := afterSign.skip) (l := l) (by omega) (by omega)]

section Signs

variable {e : Expr} {ts : List Token}

/-- A sign is read, and then what it applies to. -/
theorem Reads.unary {i : NodeId} {s : Span} {op : UnaryOperator} {t : Token}
    (spelled : op.Spelled t) (operand : Reads .unary e ts) :
    Reads .unary (.unary i s op e) (t :: ts) := by
  intro depth more c closes laid enough
  obtain ⟨afterSign, chosen, others, shorter⟩ := Cursor.choose_sign spelled laid
  have le := afterSign.length_skip_le
  obtain ⟨p, c', read, decodes, after, shorter'⟩ :=
    operand depth more afterSign.skip closes others (by omega)
  refine ⟨.unary () ⟨c.offset, p.span.last⟩ op p, c', ?_, .unary op decodes, after, by omega⟩
  have read' : signed (assignmentUpTo depth) c.rest.length afterSign.skip = some (p, c') := by
    rw [signed_limit (l := afterSign.skip.rest.length + 1) (by omega) (by omega)]
    exact read
  show signed _ (c.rest.length + 1) c = _
  rw [signed, chosen]
  dsimp only
  rw [read']
  rfl

/-- A path may stand where signs may. -/
theorem Reads.no_sign (opens : ∃ t us, ts = t :: us ∧ Opens t) (h : Reads .path e ts) :
    Reads .unary e ts := by
  intro depth more c closes laid enough
  obtain ⟨p, c', read, decodes, others, shorter⟩ := h depth more c closes.tighter laid enough
  refine ⟨p, c', ?_, decodes, others, shorter⟩
  obtain ⟨t, us, rfl, first⟩ := opens
  show signed _ (c.rest.length + 1) c = _
  rw [signed, Cursor.choose_signs_of_opens first laid]
  exact read

end Signs

/-! ### Choices and assignments -/

/-- What is nested is read as an assignment, one level of nesting deeper. -/
theorem Reads.nested {e : Expr} {ts : List Token} (h : Reads .assignment e ts) {depth : Nat}
    {more : List Token} {c : Cursor} (closes : Closes .assignment more)
    (laid : Laid (ts ++ more) c.rest) (enough : c.rest.length < depth) :
    Found e more c (assignmentUpTo depth c) := by
  cases depth with
  | zero => exact absurd enough (Nat.not_lt_zero _)
  | succ depth => exact h depth more c closes laid (by omega)

section Choices

variable {d e f : Expr} {cs ts us : List Token}

/-- Without a question mark there is no choice. -/
theorem ternary_of_no_mark {nested : Reader Phrase} {c c' : Cursor} {p : Phrase}
    (read : disjunction nested c = some (p, c')) (noMark : c'.skip.expect '?' = none) :
    ternary nested c = some (p, c') := by
  have noBranches : branches nested c' = none := by rw [branches, noMark]; rfl
  rw [Grammar.ternary, read]
  dsimp only [Option.bind_eq_bind, Option.bind_some]
  rw [noBranches]
  rfl

/-- Without its sign there is no assignment. -/
theorem assignment_of_no_sign {nested : Reader Phrase} {c c' : Cursor} {p : Phrase}
    (read : ternary nested c = some (p, c')) (noSign : c'.skip.take assignSign = none) :
    Grammar.assignment nested c = some (p, c'.skip) := by
  rw [Grammar.assignment, read]
  dsimp only [Option.bind_eq_bind, Option.bind_some]
  rw [noSign]
  rfl

/-- A disjunction may stand where an assignment may. -/
theorem Reads.no_assignment (h : Reads .or e ts) : Reads .assignment e ts := by
  intro depth more c closes laid enough
  obtain ⟨p, c', read, decodes, others, shorter⟩ := h depth more c closes.tighter laid enough
  have noMark : c'.skip.expect '?' = none :=
    Cursor.expect_of_closes closes others rfl rfl (by decide)
  have noSign : c'.skip.take assignSign = none := Cursor.take_assignSign_of_closes closes others
  have le := c'.length_skip_le
  refine ⟨p, c'.skip, assignment_of_no_sign (ternary_of_no_mark read noMark) noSign, decodes, ?_,
    by omega⟩
  rw [Cursor.skip_of_laid others]
  exact others

/-- A choice is read with its branches, the last of which goes as far as it can. -/
theorem Reads.ternary {i : NodeId} {s : Span} (condition : Reads .or d cs)
    (whenTrue : Reads .assignment e ts) (whenFalse : Reads .assignment f us) :
    Reads .assignment (.ternary i s d e f) (cs ++ ['?'] :: ts ++ [':'] :: us) := by
  intro depth more c closes laid enough
  have text : cs ++ ['?'] :: ts ++ [':'] :: us ++ more =
      cs ++ ['?'] :: (ts ++ [':'] :: (us ++ more)) := by simp
  rw [text] at laid
  obtain ⟨p, c', read, decodes, others, shorter⟩ :=
    condition depth _ c (.cons (.mark (by decide) (by decide))) laid enough
  obtain ⟨afterMark, marked, others₁, shorter₁⟩ := Cursor.expect_of_laid others
  have le := c'.length_skip_le
  have le₁ := afterMark.length_skip_le
  obtain ⟨q, afterTrue, readTrue, decodesTrue, others₂, shorter₂⟩ :=
    whenTrue.nested (.cons (.close (by decide))) others₁
      (by omega : afterMark.skip.rest.length < depth)
  obtain ⟨afterColon, colon, others₃, shorter₃⟩ := Cursor.expect_of_laid others₂
  have le₂ := afterTrue.length_skip_le
  have le₃ := afterColon.length_skip_le
  obtain ⟨r, last, readFalse, decodesFalse, others₄, shorter₄⟩ :=
    whenFalse.nested closes others₃ (by omega : afterColon.skip.rest.length < depth)
  have both : branches (assignmentUpTo depth) c' = some ((q, r), last) := by
    rw [branches, marked]
    dsimp only [Option.bind_eq_bind, Option.bind_some]
    rw [readTrue]
    dsimp only [Option.bind_some]
    rw [colon]
    dsimp only [Option.bind_some]
    rw [readFalse]
    rfl
  have choice : Grammar.ternary (assignmentUpTo depth) c =
      some (.ternary () ⟨c.offset, last.offset⟩ p q r, last) := by
    rw [Grammar.ternary, show disjunction _ c = _ from read]
    dsimp only [Option.bind_eq_bind, Option.bind_some]
    rw [both]
    rfl
  have noSign := Cursor.take_assignSign_of_closes closes others₄
  have le₄ := last.length_skip_le
  refine ⟨_, last.skip, assignment_of_no_sign choice noSign,
    .ternary decodes decodesTrue decodesFalse, ?_, by omega⟩
  rw [Cursor.skip_of_laid others₄]
  exact others₄

/-- An assignment is read with its value. -/
theorem Reads.assign {i : NodeId} {s : Span} (target : Reads .or d ts)
    (value : Reads .assignment e us) : Reads .assignment (.assign i s d e) (ts ++ ['='] :: us) := by
  intro depth more c closes laid enough
  rw [List.append_assoc] at laid
  have next : Closes .or (['='] :: us ++ more) := .cons (.mark (by decide) (by decide))
  obtain ⟨p, c', read, decodes, others, shorter⟩ := target depth _ c next laid enough
  have noMark : c'.skip.expect '?' = none := Cursor.expect_of_laid_ne others (by decide)
  obtain ⟨t, afterSign, taken, others', shorter'⟩ := Cursor.take_assignSign_of_laid others
  have le := c'.length_skip_le
  have le' := afterSign.length_skip_le
  obtain ⟨q, c'', read', decodes', after, shorter''⟩ :=
    value.nested closes others' (by omega : afterSign.skip.rest.length < depth)
  refine ⟨.assign () ⟨c.offset, c''.offset⟩ p q, c'', ?_, .assign decodes decodes', after, by omega⟩
  show Grammar.assignment _ c = _
  rw [Grammar.assignment, ternary_of_no_mark read noMark]
  dsimp only [Option.bind_eq_bind, Option.bind_some]
  rw [taken]
  dsimp only [Option.bind_some]
  rw [read']
  rfl

end Choices

end HostExpr
