import HostExpr.Expr.Parse

/-!
How expressions are written.

`Writes level e tokens` says that an expression may be written as some tokens where the grammar
expects one of a level: operators in any spelling, parentheses where an expression binds looser than
its place demands and, if one likes, around whatever stands at its own place. `Spaced` puts the
tokens into a text, with spaces between them. Every tree of the language can be written
(`Expr.Expressible.exists_writes`).
-/

namespace HostExpr

abbrev Token := List Char

/-! ### Operators -/

def BinaryOperator.sign : BinaryOperator → Token
  | .or => ['|', '|']
  | .and => ['&', '&']
  | .equal => ['=', '=']
  | .notEqual => ['!', '=']
  | .lessThan => ['<']
  | .lessThanEqual => ['<', '=']
  | .greaterThan => ['>']
  | .greaterThanEqual => ['>', '=']
  | .arithmetic .add => ['+']
  | .arithmetic .subtract => ['-']
  | .arithmetic .multiply => ['*']
  | .arithmetic .divide => ['/']
  | .arithmetic .remainder => ['%']

def BinaryOperator.word? : BinaryOperator → Option String
  | .or => some "or"
  | .and => some "and"
  | .equal => some "eq"
  | .notEqual => some "ne"
  | .lessThan => some "lt"
  | .lessThanEqual => some "le"
  | .greaterThan => some "gt"
  | .greaterThanEqual => some "ge"
  | .arithmetic .divide => some "div"
  | .arithmetic .remainder => some "mod"
  | .arithmetic _ => none

/-- A binary operator is written as its mark, or as its word in any letter case. -/
def BinaryOperator.Spelled (op : BinaryOperator) (t : Token) : Prop :=
  t = op.sign ∨ ∃ w ∈ op.word?, Lexeme.lowered t = w

def UnaryOperator.sign : UnaryOperator → Token
  | .not => ['!']
  | .minus => ['-']
  | .plus => ['+']

def UnaryOperator.word? : UnaryOperator → Option String
  | .not => some "not"
  | _ => none

def UnaryOperator.Spelled (op : UnaryOperator) (t : Token) : Prop :=
  t = op.sign ∨ ∃ w ∈ op.word?, Lexeme.lowered t = w

/-! ### Names and literals -/

/-- A name that is no keyword in any letter case. -/
structure IsName (t : Token) : Prop where
  start : ∃ c ∈ t.head?, Lexeme.isNameStart c
  chars : t.all Lexeme.isNameChar
  not_keyword : Lexeme.lowered t ∉ Lexeme.keywords

/-- A text with each quote written twice. -/
def doubled (quote : Char) (cs : List Char) : List Char :=
  cs.flatMap fun c => if c = quote then [c, c] else [c]

/-- How a literal is written. Numbers are integers that are not negative, with a letter after the
wide ones; strings stand between single or double quotes. -/
inductive Literal.Writes : Literal → Token → Prop where
  | null {t : Token} (word : Lexeme.lowered t = "null") : Literal.null.Writes t
  | boolean {b : Bool} {t : Token} (word : Lexeme.lowered t = if b then "true" else "false") :
      (Literal.boolean b).Writes t
  | int {i : Int32} {digits : Token} (nonempty : digits ≠ []) (each : digits.all Char.isDigit)
      (value : (Nat.ofDigitChars 10 digits 0 : Int) = i.toInt) :
      (Literal.number (.int i)).Writes digits
  | long {i : Int64} {digits : Token} {letter : Char} (nonempty : digits ≠ [])
      (each : digits.all Char.isDigit) (value : (Nat.ofDigitChars 10 digits 0 : Int) = i.toInt)
      (wide : letter ∈ ['l', 'L']) : (Literal.number (.long i)).Writes (digits ++ [letter])
  | string {s : String} {quote : Char} (h : quote ∈ ['\'', '"']) :
      (Literal.string s).Writes (quote :: doubled quote s.toList ++ [quote])

/-! ### Expressions -/

/-- The levels of the grammar, from the loosest to the tightest. -/
inductive Level where
  | assignment
  | or
  | and
  | relation
  | sum
  | product
  | unary
  | path
  | atom
  | member
  deriving DecidableEq

namespace Level

def rank : Level → Nat
  | .assignment => 0
  | .or => 1
  | .and => 2
  | .relation => 3
  | .sum => 4
  | .product => 5
  | .unary => 6
  | .path => 7
  | .atom => 8
  | .member => 9

def tighter : Level → Level
  | .assignment => .or
  | .or => .and
  | .and => .relation
  | .relation => .sum
  | .sum => .product
  | .product => .unary
  | .unary => .path
  | .path => .atom
  | .atom => .member
  | .member => .member

theorem rank_le (l : Level) : l.rank ≤ 9 := by
  cases l <;> decide

theorem rank_tighter (l : Level) (h : l.rank < 9) : l.tighter.rank = l.rank + 1 := by
  cases l <;> first | rfl | exact absurd h (by decide)

theorem rank_injective {k l : Level} (h : k.rank = l.rank) : k = l := by
  cases k <;> cases l <;> first | rfl | cases h

end Level

def BinaryOperator.level : BinaryOperator → Level
  | .or => .or
  | .and => .and
  | .arithmetic .add | .arithmetic .subtract => .sum
  | .arithmetic _ => .product
  | _ => .relation

/-- The level of an operator's left operand. Relations do not chain; the others group to the left.
-/
def BinaryOperator.leftLevel (op : BinaryOperator) : Level :=
  if op.level = .relation then .sum else op.level

/-- Atoms may be operands. -/
theorem BinaryOperator.operand_levels (op : BinaryOperator) :
    op.leftLevel.rank ≤ Level.atom.rank ∧ op.level.tighter.rank ≤ Level.atom.rank := by
  cases op with
  | arithmetic op => cases op <;> decide
  | _ => decide

def separated (pieces : List (List Token)) : List Token :=
  [[',']].intercalate pieces

/-- **How an expression is written** where the grammar expects one of a level. Arguments, items and
segments are written as the pieces beside them. -/
inductive Writes : Level → Expr → List Token → Prop where
  | literal {i : NodeId} {s : Span} {l : Literal} {t : Token} (written : l.Writes t) :
      Writes .atom (.literal i s l) [t]
  | variable {i : NodeId} {s : Span} {name : String} (h : IsName name.toList) :
      Writes .atom (.variable i s name) ['#' :: name.toList]
  | property {i : NodeId} {s : Span} {name : String} (h : IsName name.toList) :
      Writes .member (.property i s name) [name.toList]
  | call {i : NodeId} {s : Span} {name : String} {args : List Expr} {pieces : List (List Token)}
      (h : IsName name.toList) (beside : args.length = pieces.length)
      (each : ∀ p ∈ args.zip pieces, Writes .assignment p.1 p.2) :
      Writes .member (.call i s name args) (name.toList :: ['('] :: separated pieces ++ [[')']])
  | list {i : NodeId} {s : Span} {items : List Expr} {pieces : List (List Token)}
      (beside : items.length = pieces.length)
      (each : ∀ p ∈ items.zip pieces, Writes .assignment p.1 p.2) :
      Writes .atom (.list i s items) (['\x7b'] :: separated pieces ++ [['\x7d']])
  | parentheses {e : Expr} {ts : List Token} (inner : Writes .assignment e ts) :
      Writes .atom e (['('] :: ts ++ [[')']])
  | path {i : NodeId} {s : Span} {first : Expr} {ts : List Token} {segments : List Expr}
      {pieces : List (List Token)} (head : Writes .atom first ts) (nonempty : segments ≠ [])
      (beside : segments.length = pieces.length)
      (each : ∀ p ∈ segments.zip pieces, Writes .member p.1 p.2) :
      Writes .path (.path i s (first :: segments)) (ts ++ pieces.flatMap (['.'] :: ·))
  | unary {i : NodeId} {s : Span} {op : UnaryOperator} {t : Token} {operand : Expr}
      {ts : List Token} (spelled : op.Spelled t) (inner : Writes .unary operand ts) :
      Writes .unary (.unary i s op operand) (t :: ts)
  | binary {i : NodeId} {s : Span} {op : BinaryOperator} {t : Token} {l r : Expr}
      {ls rs : List Token} (left : Writes op.leftLevel l ls) (spelled : op.Spelled t)
      (right : Writes op.level.tighter r rs) : Writes op.level (.binary i s op l r) (ls ++ t :: rs)
  /-- The branches are delimited on the left only, so they extend as far as they can. -/
  | ternary {i : NodeId} {s : Span} {c a b : Expr} {cs as bs : List Token}
      (condition : Writes .or c cs) (whenTrue : Writes .assignment a as)
      (whenFalse : Writes .assignment b bs) :
      Writes .assignment (.ternary i s c a b) (cs ++ ['?'] :: as ++ [':'] :: bs)
  /-- An equals sign after a ternary belongs to its last branch, so a ternary cannot be a target
  without parentheses. -/
  | assign {i : NodeId} {s : Span} {target value : Expr} {ts vs : List Token}
      (left : Writes .or target ts) (right : Writes .assignment value vs) :
      Writes .assignment (.assign i s target value) (ts ++ ['='] :: vs)
  | loosen {level : Level} {e : Expr} {ts : List Token} (h : Writes level.tighter e ts) :
      Writes level e ts

/-- A text of tokens, each followed by spaces; after the last one there may be none. -/
inductive Spaced : List Token → List Char → Prop where
  | nil : Spaced [] []
  | cons {t : Token} {ts : List Token} {gap cs : List Char} (spaces : gap.all Lexeme.isSpace)
      (apart : ts ≠ [] → gap ≠ []) (rest : Spaced ts cs) : Spaced (t :: ts) (t ++ (gap ++ cs))

/-! ### The language -/

/-- A literal other than a real or a negative number. -/
def Literal.Plain : Literal → Prop
  | .number (.int i) => 0 ≤ i.toInt
  | .number (.long i) => 0 ≤ i.toInt
  | .number _ => False
  | _ => True

def Tree.isMember {ι α : Type} : Tree ι α → Bool
  | .property .. => true
  | .call .. => true
  | _ => false

/-- **The trees of the language**: those whose names are names, whose literals are plain, and whose
paths have at least two segments, all but the first of which are properties or calls. -/
inductive Expr.Expressible : Expr → Prop where
  | literal {i : NodeId} {s : Span} {l : Literal} (plain : l.Plain) :
      Expressible (.literal i s l)
  | variable {i : NodeId} {s : Span} {name : String} (h : IsName name.toList) :
      Expressible (.variable i s name)
  | property {i : NodeId} {s : Span} {name : String} (h : IsName name.toList) :
      Expressible (.property i s name)
  | call {i : NodeId} {s : Span} {name : String} {args : List Expr} (h : IsName name.toList)
      (each : ∀ e ∈ args, Expressible e) : Expressible (.call i s name args)
  | path {i : NodeId} {s : Span} {first : Expr} {segments : List Expr} (head : Expressible first)
      (nonempty : segments ≠ []) (each : ∀ e ∈ segments, Expressible e)
      (members : ∀ e ∈ segments, e.isMember) : Expressible (.path i s (first :: segments))
  | binary {i : NodeId} {s : Span} {op : BinaryOperator} {l r : Expr} (left : Expressible l)
      (right : Expressible r) : Expressible (.binary i s op l r)
  | unary {i : NodeId} {s : Span} {op : UnaryOperator} {e : Expr} (operand : Expressible e) :
      Expressible (.unary i s op e)
  | ternary {i : NodeId} {s : Span} {c a b : Expr} (condition : Expressible c)
      (whenTrue : Expressible a) (whenFalse : Expressible b) : Expressible (.ternary i s c a b)
  | list {i : NodeId} {s : Span} {items : List Expr} (each : ∀ e ∈ items, Expressible e) :
      Expressible (.list i s items)
  | assign {i : NodeId} {s : Span} {target value : Expr} (left : Expressible target)
      (right : Expressible value) : Expressible (.assign i s target value)

/-- A plain literal can be written. -/
theorem Literal.Plain.exists_writes {l : Literal} (plain : l.Plain) : ∃ t, l.Writes t := by
  have digits (n : Nat) : (Nat.toDigits 10 n).all Char.isDigit :=
    List.all_eq_true.mpr fun c mem => Nat.isDigit_of_mem_toDigits (by decide) (by decide) mem
  cases l with
  | null => exact ⟨"null".toList, .null (by decide)⟩
  | boolean b => exact ⟨(if b then "true" else "false").toList, .boolean (by cases b <;> decide)⟩
  | number n =>
    cases n with
    | int i =>
      refine ⟨Nat.toDigits 10 i.toInt.toNat, .int Nat.toDigits_ne_nil (digits _) ?_⟩
      rw [Nat.ofDigitChars_ten_toDigits]
      exact Int.toNat_of_nonneg plain
    | long i =>
      refine ⟨Nat.toDigits 10 i.toInt.toNat ++ ['l'],
        .long Nat.toDigits_ne_nil (digits _) ?_ (by simp)⟩
      rw [Nat.ofDigitChars_ten_toDigits]
      exact Int.toNat_of_nonneg plain
    | _ => exact plain.elim
  | string s =>
    have quote : '"' ∈ ['\'', '"'] := by decide
    exact ⟨_, .string quote⟩

/-- What is written at a level can be written at any looser one. -/
theorem Writes.at_looser {k l : Level} {e : Expr} {ts : List Token} (h : Writes k e ts)
    (looser : l.rank ≤ k.rank) : Writes l e ts := by
  induction steps : k.rank - l.rank generalizing l with
  | zero =>
    have same : l = k := Level.rank_injective (by omega)
    rw [same]
    exact h
  | succ n ih =>
    have next := l.rank_tighter (by have := k.rank_le; omega)
    exact .loosen (ih (by omega) (by omega))

/-- Trees that can be written can be written side by side. -/
theorem exists_pieces {level : Level} {es : List Expr} (each : ∀ e ∈ es, ∃ ts, Writes level e ts) :
    ∃ pieces : List (List Token), es.length = pieces.length ∧
      ∀ p ∈ es.zip pieces, Writes level p.1 p.2 := by
  induction es with
  | nil => exact ⟨[], rfl, nofun⟩
  | cons e es ih =>
    obtain ⟨ts, here⟩ := each e List.mem_cons_self
    obtain ⟨pieces, beside, others⟩ := ih fun e mem => each e (List.mem_cons_of_mem _ mem)
    refine ⟨ts :: pieces, by simp [beside], fun p mem => ?_⟩
    rcases List.mem_cons.mp mem with rfl | later
    · exact here
    · exact others p later

/-- **Every tree of the language can be written**, wherever it stands: in parentheses as an atom,
and a property or a call also as it is. -/
theorem Expr.Expressible.exists_writes {e : Expr} (h : e.Expressible) :
    (∃ ts, Writes .atom e ts) ∧ (e.isMember → ∃ ts, Writes .member e ts) := by
  have as_atom : ∀ {level : Level} {e : Expr} {ts : List Token}, Writes level e ts →
      ∃ ts, Writes .atom e ts := fun written =>
    ⟨_, .parentheses (written.at_looser (Nat.zero_le _))⟩
  induction h with
  | literal plain =>
    obtain ⟨t, written⟩ := plain.exists_writes
    exact ⟨⟨_, .literal written⟩, nofun⟩
  | «variable» h => exact ⟨⟨_, .variable h⟩, nofun⟩
  | property h => exact ⟨as_atom (.property h), fun _ => ⟨_, .property h⟩⟩
  | call h each ih =>
    obtain ⟨pieces, beside, written⟩ := exists_pieces fun e mem => (ih e mem).1
    have args := fun p mem => (written p mem).at_looser (l := .assignment) (Nat.zero_le _)
    exact ⟨as_atom (.call h beside args), fun _ => ⟨_, .call h beside args⟩⟩
  | path head nonempty each members ihHead ihEach =>
    obtain ⟨ts, first⟩ := ihHead.1
    obtain ⟨pieces, beside, written⟩ := exists_pieces fun e mem => (ihEach e mem).2 (members e mem)
    exact ⟨as_atom (.path first nonempty beside written), nofun⟩
  | binary left right ihl ihr =>
    obtain ⟨ls, left⟩ := ihl.1
    obtain ⟨rs, right⟩ := ihr.1
    refine ⟨as_atom (.binary (left.at_looser ?_) (.inl rfl) (right.at_looser ?_)), nofun⟩
    · exact (BinaryOperator.operand_levels _).1
    · exact (BinaryOperator.operand_levels _).2
  | unary operand ih =>
    obtain ⟨ts, operand⟩ := ih.1
    exact ⟨as_atom (.unary (.inl rfl) (operand.at_looser (by decide))), nofun⟩
  | ternary condition whenTrue whenFalse ihc iha ihb =>
    obtain ⟨cs, condition⟩ := ihc.1
    obtain ⟨as, whenTrue⟩ := iha.1
    obtain ⟨bs, whenFalse⟩ := ihb.1
    exact ⟨as_atom (.ternary (condition.at_looser (by decide)) (whenTrue.at_looser (by decide))
      (whenFalse.at_looser (by decide))), nofun⟩
  | list each ih =>
    obtain ⟨pieces, beside, written⟩ := exists_pieces fun e mem => (ih e mem).1
    exact ⟨⟨_, .list beside fun p mem => (written p mem).at_looser (Nat.zero_le _)⟩, nofun⟩
  | assign left right ihl ihr =>
    obtain ⟨ts, target⟩ := ihl.1
    obtain ⟨vs, value⟩ := ihr.1
    exact ⟨as_atom (.assign (target.at_looser (by decide)) (value.at_looser (by decide))), nofun⟩

end HostExpr
