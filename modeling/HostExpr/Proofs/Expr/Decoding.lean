import HostExpr.Proofs.Expr.Rendering

/-!
From what the grammar finds to the expression that was written.

`Tree.bare` forgets the identities and places of nodes. `Decodes p e` says that decoding and
numbering the phrase `p`, from any number on, gives the expression `e` up to these. Each kind of
node decodes if its parts do, and a literal does if it was written as its text (`Decodes.literal`).
-/

namespace HostExpr

/-! ### Trees without identities and places -/

namespace Tree

variable {ι κ α : Type}

mutual

/-- The tree with the identities and places of its nodes forgotten. -/
def bare : Tree ι α → Tree Unit α
  | .literal _ _ value => .literal () ⟨0, 0⟩ value
  | .variable _ _ name => .variable () ⟨0, 0⟩ name
  | .property _ _ name => .property () ⟨0, 0⟩ name
  | .call _ _ name args => .call () ⟨0, 0⟩ name (bareAll args)
  | .path _ _ segments => .path () ⟨0, 0⟩ (bareAll segments)
  | .binary _ _ op l r => .binary () ⟨0, 0⟩ op (bare l) (bare r)
  | .unary _ _ op t => .unary () ⟨0, 0⟩ op (bare t)
  | .ternary _ _ c a b => .ternary () ⟨0, 0⟩ (bare c) (bare a) (bare b)
  | .list _ _ items => .list () ⟨0, 0⟩ (bareAll items)
  | .assign _ _ t v => .assign () ⟨0, 0⟩ (bare t) (bare v)

def bareAll : List (Tree ι α) → List (Tree Unit α)
  | [] => []
  | t :: ts => bare t :: bareAll ts

end

end Tree

/-! ### Decoding phrases -/

namespace Expr

/-- A step of numbering that succeeds is followed by the next. -/
theorem Numbering.bind_of_ok {α β : Type} {a : Numbering α} {f : α → Numbering β} {n m : NodeId}
    {x : α} (h : a n = .ok (x, m)) : (a >>= f) n = f x m := by
  show (a n).bind _ = _
  rw [h]
  rfl

/-- A sequence of steps that succeeds does so in each of them. -/
theorem Numbering.bind_eq_ok {α β : Type} {a : Numbering α} {f : α → Numbering β} {n : NodeId}
    {r : β × NodeId} (h : (a >>= f) n = .ok r) : ∃ x m, a n = .ok (x, m) ∧ f x m = .ok r := by
  change (a n).bind _ = _ at h
  cases one : a n with
  | error e =>
    rw [one] at h
    cases h
  | ok result =>
    rw [one] at h
    exact ⟨result.1, result.2, rfl, h⟩

end Expr

/-- The phrase stands for the expression, whatever number the numbering has reached. -/
def Decodes (p : Phrase) (e : Expr) : Prop :=
  ∀ n, ∃ e' m, Expr.ofPhrase p n = .ok (e', m) ∧ e'.bare = e.bare

def DecodesAll (ps : List Phrase) (es : List Expr) : Prop :=
  ∀ n, ∃ es' m, Expr.ofPhrases ps n = .ok (es', m) ∧ Tree.bareAll es' = Tree.bareAll es

namespace DecodesAll

theorem nil : DecodesAll [] [] :=
  fun n => ⟨[], n, rfl, rfl⟩

theorem cons {p : Phrase} {e : Expr} {ps : List Phrase} {es : List Expr} (first : Decodes p e)
    (rest : DecodesAll ps es) : DecodesAll (p :: ps) (e :: es) := by
  intro n
  obtain ⟨e', m, decoded, same⟩ := first n
  obtain ⟨es', k, others, sameAll⟩ := rest m
  refine ⟨e' :: es', k, ?_, ?_⟩
  · rw [Expr.ofPhrases, Expr.Numbering.bind_of_ok decoded, Expr.Numbering.bind_of_ok others]
    rfl
  · rw [Tree.bareAll, Tree.bareAll, same, sameAll]

end DecodesAll

namespace Decodes

attribute [local simp] Tree.bare

variable {s s' : Span} {i : NodeId} {p q r : Phrase} {d e f : Expr} {ps : List Phrase}
  {es : List Expr}

theorem hashName (name : String) : Decodes (.variable () s name) (.variable i s' name) :=
  fun n => ⟨.variable n s name, n + 1, rfl, rfl⟩

theorem property (name : String) : Decodes (.property () s name) (.property i s' name) :=
  fun n => ⟨.property n s name, n + 1, rfl, rfl⟩

theorem call (name : String) (args : DecodesAll ps es) :
    Decodes (.call () s name ps) (.call i s' name es) := by
  intro n
  obtain ⟨es', m, decoded, same⟩ := args n
  refine ⟨.call m s name es', m + 1, ?_, ?_⟩
  · exact Expr.Numbering.bind_of_ok decoded
  · simp [same]

theorem path (segments : DecodesAll ps es) : Decodes (.path () s ps) (.path i s' es) := by
  intro n
  obtain ⟨es', m, decoded, same⟩ := segments n
  refine ⟨.path m s es', m + 1, ?_, ?_⟩
  · exact Expr.Numbering.bind_of_ok decoded
  · simp [same]

theorem list (items : DecodesAll ps es) : Decodes (.list () s ps) (.list i s' es) := by
  intro n
  obtain ⟨es', m, decoded, same⟩ := items n
  refine ⟨.list m s es', m + 1, ?_, ?_⟩
  · exact Expr.Numbering.bind_of_ok decoded
  · simp [same]

theorem unary (op : UnaryOperator) (operand : Decodes p e) :
    Decodes (.unary () s op p) (.unary i s' op e) := by
  intro n
  obtain ⟨e', m, decoded, same⟩ := operand n
  refine ⟨.unary m s op e', m + 1, ?_, ?_⟩
  · exact Expr.Numbering.bind_of_ok decoded
  · simp [same]

theorem binary (op : BinaryOperator) (left : Decodes p d) (right : Decodes q e) :
    Decodes (.binary () s op p q) (.binary i s' op d e) := by
  intro n
  obtain ⟨d', m, decoded, same⟩ := left n
  obtain ⟨e', k, decoded', same'⟩ := right m
  refine ⟨.binary k s op d' e', k + 1, ?_, ?_⟩
  · exact (Expr.Numbering.bind_of_ok decoded).trans (Expr.Numbering.bind_of_ok decoded')
  · simp [same, same']

theorem assign (target : Decodes p d) (value : Decodes q e) :
    Decodes (.assign () s p q) (.assign i s' d e) := by
  intro n
  obtain ⟨d', m, decoded, same⟩ := target n
  obtain ⟨e', k, decoded', same'⟩ := value m
  refine ⟨.assign k s d' e', k + 1, ?_, ?_⟩
  · exact (Expr.Numbering.bind_of_ok decoded).trans (Expr.Numbering.bind_of_ok decoded')
  · simp [same, same']

theorem ternary (condition : Decodes p d) (whenTrue : Decodes q e) (whenFalse : Decodes r f) :
    Decodes (.ternary () s p q r) (.ternary i s' d e f) := by
  intro n
  obtain ⟨d', m, decoded, same⟩ := condition n
  obtain ⟨e', k, decoded', same'⟩ := whenTrue m
  obtain ⟨f', l, decoded'', same''⟩ := whenFalse k
  refine ⟨.ternary l s d' e' f', l + 1, ?_, ?_⟩
  · exact (Expr.Numbering.bind_of_ok decoded).trans
      ((Expr.Numbering.bind_of_ok decoded').trans (Expr.Numbering.bind_of_ok decoded''))
  · simp [same, same', same'']

end Decodes

/-! ### Decoding literals -/

/-- The kind of literal that a token is, and the token. -/
def Literal.textOf (l : Literal) (t : Token) : LiteralText :=
  { kind :=
      match l with
      | .null => .null
      | .boolean _ => .boolean
      | .number (.int _) => .integer
      | .number (.long _) => .long
      | .number _ => .real
      | .string _ => .quoted (t.headD '"')
    chars := t }

/-- Quotes that were written twice are made single again. -/
theorem undouble_doubled (quote : Char) (cs : List Char) :
    LiteralText.undouble quote (doubled quote cs) = cs := by
  induction cs with
  | nil => rfl
  | cons c cs ih =>
    by_cases is_quote : c = quote
    · have twice : doubled quote (c :: cs) = quote :: quote :: doubled quote cs := by
        simp [doubled, is_quote]
      rw [twice, LiteralText.undouble, if_pos ⟨rfl, rfl⟩, ih, is_quote]
    · have once : doubled quote (c :: cs) = c :: doubled quote cs := by
        simp [doubled, is_quote]
      rw [once]
      cases others : doubled quote cs with
      | nil =>
        rw [others] at ih
        rw [← ih]
        rfl
      | cons d rest =>
        rw [LiteralText.undouble, if_neg fun both => is_quote both.1, ← others, ih]

/-- Digits are read as their number, up to a bound. -/
theorem LiteralText.readBounded_eq {digits : Token} {n : Nat}
    (read : Decimal.readDigits digits = some n) (bound : Int) :
    readBounded bound digits = if (n : Int) ≤ bound then .ok n else .error .tooLarge := by
  rw [readBounded, read]

/-- Digits of an integer within a bound are read as it. -/
theorem readBounded_of_le {bound i : Int} {digits : Token} (nonempty : digits ≠ [])
    (each : digits.all Char.isDigit) (value : (Nat.ofDigitChars 10 digits 0 : Int) = i)
    (within : i ≤ bound) : LiteralText.readBounded bound digits = .ok i := by
  have read : Decimal.readDigits digits = some (Nat.ofDigitChars 10 digits 0) :=
    if_pos ⟨nonempty, each⟩
  rw [LiteralText.readBounded_eq read, value, if_pos within]

/-- A literal is decoded from what it was written as. -/
theorem Literal.Writes.decode {l : Literal} {t : Token} (h : l.Writes t) :
    (l.textOf t).decode = .ok l := by
  cases h with
  | null word => rfl
  | @boolean b t word =>
    show Except.ok (Literal.boolean (Lexeme.lowered t = "true")) = _
    rw [word]
    cases b <;> rfl
  | @int i _ nonempty each value =>
    have read := readBounded_of_le nonempty each value i.toInt_le
    simp only [LiteralText.decode, textOf, read]
    show Except.ok (Literal.number (.int (.ofInt i.toInt))) = _
    rw [Int32.ofInt_toInt]
  | @long i digits letter nonempty each value wide =>
    have read := readBounded_of_le nonempty each value i.toInt_le
    simp only [LiteralText.decode, textOf, List.dropLast_concat, read]
    show Except.ok (Literal.number (.long (.ofInt i.toInt))) = _
    rw [Int64.ofInt_toInt]
  | @string s quote is_quote =>
    have inner : LiteralText.content quote (quote :: doubled quote s.toList ++ [quote]) =
        s.toList := by
      rw [LiteralText.content, List.cons_append, List.drop_one, List.tail_cons,
        List.dropLast_concat, undouble_doubled]
    show Except.ok (Literal.string (String.ofList
      (LiteralText.content quote (quote :: doubled quote s.toList ++ [quote])))) = _
    rw [inner, String.ofList_toList]

theorem Decodes.literal {s s' : Span} {i : NodeId} {l : Literal} {t : Token} (h : l.Writes t) :
    Decodes (.literal () s (l.textOf t)) (.literal i s' l) := by
  intro n
  have decoded : Expr.decodeLiteral s (l.textOf t) n = .ok (l, n) := by
    rw [Expr.decodeLiteral, h.decode]
  refine ⟨.literal n s l, n + 1, ?_, rfl⟩
  exact Expr.Numbering.bind_of_ok decoded

end HostExpr
