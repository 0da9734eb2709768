import HostExpr.Proofs.Expr.Reading

/-!
How paths are read, and what stands in brackets.

What is written with separators is read piece by piece (`moreAfter_found`), be it the segments of a
path, the arguments of a call or the items of a list (`items_found`). Where a bracket closes at
once, no reader finds anything.
-/

namespace HostExpr

open Grammar

/-! ### Nothing before a closing bracket -/

section Closing

variable {nested : Reader Phrase} {c : Cursor}

theorem operands_of_none {operators : List (BinaryOperator × Matcher)} {operand : Reader Phrase}
    (h : operand c = none) : operands operators operand c = none := by
  rw [operands, h]
  rfl

/-- Nothing begins with a bracket that closes. -/
theorem head_of_closing {d : Char} {cs : List Char} (h : d ∈ [')', '\x7d'])
    (at_d : c.rest = d :: cs) : head nested c = none := by
  have noLiteral : Lexeme.literal c.rest = none := by
    rw [at_d]
    exact Lexeme.literal_of_bracket (by grind)
  have noMark {e : Char} (other : d ≠ e) : c.expect e = none :=
    Cursor.expect_of_ne (by rw [at_d]; exact fun head => other (Option.some.inj head))
  have noName : c.take Lexeme.name = none := by
    refine Cursor.take_of_none ?_
    rw [at_d]
    refine Lexeme.name_of_not_isNameChar ?_
    simp only [List.mem_cons, List.not_mem_nil, or_false] at h
    rcases h with rfl | rfl <;> rfl
  simp only [List.mem_cons, List.not_mem_nil, or_false] at h
  rcases h with rfl | rfl <;>
    simp [head, firstOf, Grammar.literal, parenthesised, inlineList, hashName, member, noLiteral,
      noMark, noName]

/-- So nothing is read there. -/
theorem assignmentUpTo_of_closing {d : Char} {cs : List Char} (h : d ∈ [')', '\x7d'])
    (at_d : c.rest = d :: cs) (depth : Nat) : assignmentUpTo depth c = none := by
  cases depth with
  | zero => rfl
  | succ depth =>
    have noSign : c.choose signs = none := by
      refine Cursor.choose_eq_none ?_
      rw [at_d]
      simp only [List.mem_cons, List.not_mem_nil, or_false] at h
      rcases h with rfl | rfl <;>
        simp [signs, notBeforeEquals, Lexeme.mark, Lexeme.word_of_not_isNameChar,
          Lexeme.isNameChar]
    have noPath : path (assignmentUpTo depth) c = none := by
      rw [path, head_of_closing h at_d]
      rfl
    have noUnary : unary (assignmentUpTo depth) c = none := by
      rw [unary, signed, noSign]
      exact noPath
    have noSum : sum (assignmentUpTo depth) c = none := operands_of_none (operands_of_none noUnary)
    have noRelation : relation (assignmentUpTo depth) c = none := by
      rw [relation, operandPair, noSum]
      rfl
    have noDisjunction : disjunction (assignmentUpTo depth) c = none :=
      operands_of_none (operands_of_none noRelation)
    have noTernary : ternary (assignmentUpTo depth) c = none := by
      rw [ternary, noDisjunction]
      rfl
    rw [assignmentUpTo, assignment, noTernary]
    rfl

end Closing

/-! ### Pieces -/

section Pieces

variable {es : List Expr} {pieces : List (List Token)} {more : List Token} {c : Cursor}

/-- **Pieces after separators** are read one by one. -/
theorem moreAfter_found {separator : Char} {item : Reader Phrase} {l : Level} {bound : Nat}
    (follows : Follows l [separator]) (closes : Closes l more)
    (ends : ∀ c : Cursor, Laid more c.rest → c.expect separator = none)
    (beside : es.length = pieces.length)
    (reads : ∀ p ∈ es.zip pieces, ∀ (more : List Token) (c : Cursor), Closes l more →
      Laid (p.2 ++ more) c.rest → c.rest.length < bound → Found p.1 more c (item c))
    (laid : Laid (pieces.flatMap ([separator] :: ·) ++ more) c.skip.rest) {limit : Nat}
    (within : c.rest.length ≤ limit) (enough : c.rest.length ≤ bound) :
    ∃ ps c', moreAfter separator item limit c = (ps, c') ∧ ps.length = es.length ∧
      DecodesAll ps es ∧ Laid more c'.skip.rest ∧ c'.rest.length ≤ c.rest.length := by
  induction pieces generalizing es c limit with
  | nil =>
    obtain rfl : es = [] := List.eq_nil_of_length_eq_zero beside
    refine ⟨[], c, ?_, rfl, .nil, laid, Nat.le_refl _⟩
    cases limit with
    | zero => rfl
    | succ limit => rw [moreAfter, ends c.skip laid]
  | cons piece pieces ih =>
    cases es with
    | nil => cases beside
    | cons e es =>
      have text : (piece :: pieces).flatMap ([separator] :: ·) ++ more =
          [separator] :: (piece ++ (pieces.flatMap ([separator] :: ·) ++ more)) := by simp
      rw [text] at laid
      obtain ⟨afterSeparator, expected, others, shorter⟩ := Cursor.expect_of_laid laid
      have le := c.length_skip_le
      have le' := afterSeparator.length_skip_le
      have next : Closes l (pieces.flatMap ([separator] :: ·) ++ more) := by
        cases pieces with
        | nil => exact closes
        | cons => exact .cons follows
      obtain ⟨p, afterItem, read, decodes, others', shorter'⟩ :=
        reads (e, piece) List.mem_cons_self _ afterSeparator.skip next others (by omega)
      cases limit with
      | zero => omega
      | succ limit =>
        obtain ⟨ps, c', read_more, lengths, decodes_more, after, le''⟩ :=
          ih (Nat.succ.inj beside) (fun p mem => reads p (List.mem_cons_of_mem _ mem)) others'
            (by omega : afterItem.rest.length ≤ limit) (by omega)
        refine ⟨p :: ps, c', ?_, by simp [lengths], .cons decodes decodes_more, after, by omega⟩
        rw [moreAfter, expected]
        dsimp only
        rw [read]
        dsimp only
        rw [read_more]

theorem separated_cons (piece : List Token) (pieces : List (List Token)) :
    separated (piece :: pieces) = piece ++ pieces.flatMap ([','] :: ·) := by
  induction pieces generalizing piece with
  | nil => simp [separated]
  | cons next pieces ih =>
    have step : separated (piece :: next :: pieces) =
        piece ++ [[',']] ++ separated (next :: pieces) := List.intercalate_cons_cons
    rw [step, ih]
    simp

/-- **Pieces between commas** are read up to the bracket that closes them. -/
theorem items_found {close : Char} (h : close ∈ [')', '\x7d']) (beside : es.length = pieces.length)
    (reads : ∀ p ∈ es.zip pieces, Reads .assignment p.1 p.2) {depth : Nat}
    (laid : Laid (separated pieces ++ [close] :: more) c.skip.rest)
    (enough : c.rest.length < depth) :
    ∃ ps c', items (assignmentUpTo depth) close c = some (ps, c') ∧ DecodesAll ps es ∧
      Laid more c'.skip.rest ∧ c'.rest.length < c.rest.length := by
  have closed : Follows .assignment [close] := .close (by grind)
  have le := c.length_skip_le
  cases pieces with
  | nil =>
    obtain rfl : es = [] := List.eq_nil_of_length_eq_zero beside
    have nothing : assignmentUpTo depth c.skip = none := by
      generalize at_close : c.skip.rest = cs at laid
      cases laid with
      | cons solid ends others => exact assignmentUpTo_of_closing h at_close depth
    obtain ⟨c', expected, others, shorter⟩ := Cursor.expect_of_laid laid
    refine ⟨[], c', ?_, .nil, others, by omega⟩
    rw [items, nothing]
    dsimp only
    rw [expected]
    rfl
  | cons piece pieces =>
    cases es with
    | nil => cases beside
    | cons e es =>
      rw [separated_cons, List.append_assoc] at laid
      have next : Closes .assignment (pieces.flatMap ([','] :: ·) ++ [close] :: more) := by
        cases pieces with
        | nil => exact .cons closed
        | cons => exact .cons (.close (by decide))
      obtain ⟨p, afterItem, read, decodes, others, shorter⟩ :=
        (reads (e, piece) List.mem_cons_self).nested next laid
          (by omega : c.skip.rest.length < depth)
      have noComma (c : Cursor) (laid : Laid ([close] :: more) c.rest) : c.expect ',' = none :=
        Cursor.expect_of_laid_ne laid (by grind)
      obtain ⟨ps, last, read_more, -, decodes_more, others', le'⟩ :=
        moreAfter_found (.close (by decide)) (.cons closed) noComma (Nat.succ.inj beside)
          (fun p mem more c closes laid =>
            (reads p (List.mem_cons_of_mem _ mem)).nested closes laid)
          others (Nat.le_refl _) (by omega : afterItem.rest.length ≤ depth)
      have le'' := last.length_skip_le
      obtain ⟨c', expected, after, shorter'⟩ := Cursor.expect_of_laid others'
      refine ⟨p :: ps, c', ?_, .cons decodes decodes_more, after, by omega⟩
      rw [items, read]
      dsimp only
      rw [read_more]
      dsimp only
      rw [expected]
      rfl

end Pieces

/-! ### Paths and their segments -/

section Segments

variable {e : Expr} {es : List Expr} {ts : List Token} {pieces : List (List Token)} {i : NodeId}
  {s : Span} {name : String}

/-- A name that no parenthesis follows is a property. -/
theorem Reads.property (h : IsName name.toList) :
    Reads .member (.property i s name) [name.toList] := by
  intro depth more c closes laid enough
  obtain ⟨c', taken, others, shorter⟩ := Cursor.take_name_of_laid h laid
  have noCall : c'.skip.expect '(' = none :=
    Cursor.expect_of_closes closes others rfl rfl (by decide)
  refine ⟨.property () ⟨c.offset, c'.offset⟩ name, c', ?_, .property name, others, shorter⟩
  show member _ c = _
  rw [member, taken]
  dsimp only [Option.bind_eq_bind, Option.bind_some]
  rw [noCall]
  dsimp only [Option.bind_none]
  rw [String.ofList_toList]
  rfl

/-- A name and arguments in parentheses are a call. -/
theorem Reads.call (h : IsName name.toList) (beside : es.length = pieces.length)
    (each : ∀ p ∈ es.zip pieces, Reads .assignment p.1 p.2) :
    Reads .member (.call i s name es) (name.toList :: ['('] :: separated pieces ++ [[')']]) := by
  intro depth more c closes laid enough
  have text : name.toList :: ['('] :: separated pieces ++ [[')']] ++ more =
      name.toList :: ['('] :: (separated pieces ++ [')'] :: more) := by simp
  rw [text] at laid
  obtain ⟨afterName, taken, others, shorter⟩ := Cursor.take_name_of_laid h laid
  obtain ⟨afterOpen, expected, others', shorter'⟩ := Cursor.expect_of_laid others
  have le := afterName.length_skip_le
  obtain ⟨ps, c', read, decodes, after, shorter''⟩ := items_found (by decide) beside each others'
    (by omega : afterOpen.rest.length < depth)
  refine ⟨.call () ⟨c.offset, c'.offset⟩ name ps, c', ?_, .call name decodes, after, by omega⟩
  show member _ c = _
  rw [member, taken]
  dsimp only [Option.bind_eq_bind, Option.bind_some]
  rw [expected]
  dsimp only [Option.bind_some]
  rw [read]
  dsimp only
  rw [String.ofList_toList]
  rfl

/-- An atom without segments after it may stand where a path may. -/
theorem Reads.no_segment (h : Reads .atom e ts) : Reads .path e ts := by
  intro depth more c closes laid enough
  obtain ⟨p, c', read, decodes, others, shorter⟩ := h depth more c closes.tighter laid enough
  have noPoint : c'.skip.expect '.' = none :=
    Cursor.expect_of_closes closes others rfl rfl (by decide)
  refine ⟨p, c', ?_, decodes, others, shorter⟩
  have alone (limit : Nat) :
      moreAfter '.' (member (assignmentUpTo depth)) limit c' = ([], c') := by
    cases limit with
    | zero => rfl
    | succ limit => rw [moreAfter, noPoint]
  show path _ c = _
  rw [path, show head _ c = _ from read]
  dsimp only [Option.bind_eq_bind, Option.bind_some]
  rw [alone]
  rfl

/-- A path is read with its segments. -/
theorem Reads.path (first : Reads .atom e ts) (nonempty : es ≠ [])
    (beside : es.length = pieces.length) (each : ∀ p ∈ es.zip pieces, Reads .member p.1 p.2) :
    Reads .path (.path i s (e :: es)) (ts ++ pieces.flatMap (['.'] :: ·)) := by
  intro depth more c closes laid enough
  rw [List.append_assoc] at laid
  have next : Closes .atom (pieces.flatMap (['.'] :: ·) ++ more) := by
    cases pieces with
    | nil => exact closes.tighter
    | cons => exact .cons (.point (by decide))
  obtain ⟨p, c', read, decodes, others, shorter⟩ := first depth _ c next laid enough
  have noPoint (c : Cursor) (laid : Laid more c.rest) : c.expect '.' = none :=
    Cursor.expect_of_closes closes laid rfl rfl (by decide)
  obtain ⟨ps, last, read_more, lengths, decodes_more, after, le⟩ :=
    moreAfter_found (.point (by decide)) closes.tighter.tighter noPoint beside
      (fun p mem more c closes laid short => each p mem depth more c closes laid (by omega)) others
      (Nat.le_refl _) (by omega : c'.rest.length ≤ depth)
  refine ⟨.path () ⟨c.offset, last.offset⟩ (p :: ps), last, ?_, .path (.cons decodes decodes_more),
    after, by omega⟩
  show Grammar.path _ c = _
  rw [Grammar.path, show head _ c = _ from read]
  dsimp only [Option.bind_eq_bind, Option.bind_some]
  rw [show moreAfter '.' (member _) _ _ = _ from read_more]
  cases ps with
  | nil => exact absurd (List.eq_nil_of_length_eq_zero lengths.symm) nonempty
  | cons => rfl

end Segments

/-! ### Atoms -/

section Choice

variable {r : Reader Phrase} {rs : List (Reader Phrase)} {c : Cursor} {found : Phrase × Cursor}

theorem firstOf_of_some (h : r c = some found) : firstOf (r :: rs) c = some found := by
  rw [firstOf, h]
  rfl

theorem firstOf_of_none (h : r c = none) : firstOf (r :: rs) c = firstOf rs c := by
  rw [firstOf, h]
  rfl

/-- No literal is read at a bracket or at the mark of a variable. -/
theorem literal_of_bracket {d : Char} {ds : List Char} {ts : List Token}
    (h : d ∈ ['(', ')', '\x7b', '\x7d', '#']) (laid : Laid ((d :: ds) :: ts) c.rest) :
    Grammar.literal c = none := by
  generalize at_c : c.rest = cs at laid
  cases laid with
  | cons solid ends others =>
    rw [List.cons_append] at at_c
    rw [Grammar.literal, at_c, Lexeme.literal_of_bracket h]
    rfl

end Choice

section Atoms

variable {e : Expr} {es : List Expr} {ts : List Token} {pieces : List (List Token)} {i : NodeId}
  {s : Span} {name : String}

/-- A literal is read as it was written. -/
theorem Reads.literal {l : Literal} {t : Token} (written : l.Writes t) :
    Reads .atom (.literal i s l) [t] := by
  intro depth more c closes laid enough
  generalize at_c : c.rest = cs at laid
  cases laid with
  | @cons _ _ rest solid ends others =>
    have found := written.found ends
    rw [← at_c] at found
    have shorter : rest.length < c.rest.length := by
      rw [at_c]
      exact solid.shorter rest
    refine ⟨.literal () ⟨c.offset, c.offset + byteLength t⟩ (l.textOf t),
      ⟨c.offset + byteLength t, rest⟩, firstOf_of_some ?_, .literal written, others, shorter⟩
    rw [Grammar.literal, found]
    rfl

/-- Parentheses leave no trace. -/
theorem Reads.parentheses (inner : Reads .assignment e ts) :
    Reads .atom e (['('] :: ts ++ [[')']]) := by
  intro depth more c closes laid enough
  have text : ['('] :: ts ++ [[')']] ++ more = ['('] :: (ts ++ [')'] :: more) := by simp
  rw [text] at laid
  obtain ⟨afterOpen, opened, others, shorter⟩ := Cursor.expect_of_laid laid
  have le := afterOpen.length_skip_le
  obtain ⟨p, afterInner, read, decodes, others', shorter'⟩ :=
    inner.nested (.cons (.close (by decide))) others (by omega : afterOpen.skip.rest.length < depth)
  have le' := afterInner.length_skip_le
  obtain ⟨c', closed, after, shorter''⟩ := Cursor.expect_of_laid others'
  refine ⟨p, c', ?_, decodes, after, by omega⟩
  show firstOf _ c = _
  rw [firstOf_of_none (literal_of_bracket (by decide) laid)]
  refine firstOf_of_some ?_
  rw [parenthesised, opened]
  dsimp only [Option.bind_eq_bind, Option.bind_some]
  rw [read]
  dsimp only [Option.bind_some]
  rw [closed]
  rfl

theorem Reads.list (beside : es.length = pieces.length)
    (each : ∀ p ∈ es.zip pieces, Reads .assignment p.1 p.2) :
    Reads .atom (.list i s es) (['\x7b'] :: separated pieces ++ [['\x7d']]) := by
  intro depth more c closes laid enough
  have text : ['\x7b'] :: separated pieces ++ [['\x7d']] ++ more =
      ['\x7b'] :: (separated pieces ++ ['\x7d'] :: more) := by simp
  rw [text] at laid
  obtain ⟨afterOpen, opened, others, shorter⟩ := Cursor.expect_of_laid laid
  obtain ⟨ps, c', read, decodes, after, shorter'⟩ := items_found (by decide) beside each others
    (by omega : afterOpen.rest.length < depth)
  have noParenthesis : parenthesised (assignmentUpTo depth) c = none := by
    rw [parenthesised, Cursor.expect_of_laid_ne laid (by decide)]
    rfl
  refine ⟨.list () ⟨c.offset, c'.offset⟩ ps, c', ?_, .list decodes, after, by omega⟩
  show firstOf _ c = _
  rw [firstOf_of_none (literal_of_bracket (by decide) laid), firstOf_of_none noParenthesis]
  refine firstOf_of_some ?_
  rw [inlineList, opened]
  dsimp only [Option.bind_eq_bind, Option.bind_some]
  rw [read]
  rfl

theorem Reads.variable (h : IsName name.toList) :
    Reads .atom (.variable i s name) ['#' :: name.toList] := by
  intro depth more c closes laid enough
  have noLiteral := literal_of_bracket (by decide) laid
  have noParenthesis : parenthesised (assignmentUpTo depth) c = none := by
    rw [parenthesised, Cursor.expect_of_laid_ne laid (by decide)]
    rfl
  have noList : inlineList (assignmentUpTo depth) c = none := by
    rw [inlineList, Cursor.expect_of_laid_ne laid (by decide)]
    rfl
  generalize at_c : c.rest = cs at laid
  cases laid with
  | @cons _ _ rest solid ends others =>
    obtain ⟨afterHash, marked, at_name⟩ := Cursor.expect_of_eq at_c
    have found : Lexeme.name afterHash.rest = some (name.toList, rest) := by
      rw [at_name]
      exact h.found ends
    have taken := Cursor.take_of_some found
    have shorter : rest.length < c.rest.length := by
      rw [at_c]
      exact solid.shorter rest
    refine ⟨.variable () ⟨c.offset, afterHash.offset + byteLength name.toList⟩ name,
      ⟨afterHash.offset + byteLength name.toList, rest⟩, ?_, .hashName name, others, shorter⟩
    show firstOf _ c = _
    rw [firstOf_of_none noLiteral, firstOf_of_none noParenthesis, firstOf_of_none noList]
    refine firstOf_of_some ?_
    rw [hashName, marked]
    dsimp only [Option.bind_eq_bind, Option.bind_some]
    rw [taken]
    dsimp only [Option.bind_some]
    rw [String.ofList_toList]
    rfl

/-- A property or a call may stand where an atom may. -/
theorem Reads.no_atom (named : ∃ t us, ts = t :: us ∧ IsName t) (h : Reads .member e ts) :
    Reads .atom e ts := by
  intro depth more c closes laid enough
  obtain ⟨p, c', read, decodes, others, shorter⟩ := h depth more c closes.tighter laid enough
  refine ⟨p, c', ?_, decodes, others, shorter⟩
  obtain ⟨t, us, rfl, name⟩ := named
  generalize at_c : c.rest = cs at laid
  cases laid with
  | @cons _ _ rest solid ends others =>
    have noLiteral : Grammar.literal c = none := by
      rw [Grammar.literal, at_c, name.literal_eq_none ends]
      rfl
    have noMark {d : Char} (other : Lexeme.isNameChar d = false) : c.expect d = none := by
      have none : Lexeme.mark [d] c.rest = none := by
        rw [at_c]
        exact Lexeme.mark_of_word name.chars name.nonempty other
      rw [Cursor.expect, Cursor.take_of_none none]
      rfl
    have noParenthesis : parenthesised (assignmentUpTo depth) c = none := by
      rw [parenthesised, noMark rfl]
      rfl
    have noList : inlineList (assignmentUpTo depth) c = none := by
      rw [inlineList, noMark rfl]
      rfl
    have noVariable : hashName c = none := by
      rw [hashName, noMark rfl]
      rfl
    show firstOf _ c = _
    rw [firstOf_of_none noLiteral, firstOf_of_none noParenthesis, firstOf_of_none noList,
      firstOf_of_none noVariable]
    exact firstOf_of_some read

end Atoms

end HostExpr
