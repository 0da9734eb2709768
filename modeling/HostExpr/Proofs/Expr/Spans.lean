import HostExpr.Proofs.Expr.Matching
import HostExpr.Proofs.Expr.Numbering
import HostExpr.Proofs.Expr.Places

/-!
The places of the nodes of a parsed expression.

Whatever a matcher of tokens finds takes up some characters (`Matcher.Consumes`), so what a reader
of the grammar finds lies between the places before and after it (`Grammar.Places`), spaces and
parentheses left out. Numbering keeps the places. `Builder.parse_spansNest` is the result for
sources: spans are within the source and nest as the nodes do.
-/

namespace HostExpr

/-! ### Tokens -/

/-- What a matcher finds is not empty, and with what follows it is what the matcher was given. -/
structure Matcher.Consumes (m : Matcher) : Prop where
  splits : m.Splits
  nonempty : ∀ {cs t rest : List Char}, m cs = some (t, rest) → t ≠ []

namespace Matcher.Consumes

variable {m k : Matcher}

theorem of_shortens (splits : m.Splits) (shortens : Lexeme.Shortens m) : Consumes m where
  splits := splits
  nonempty := by
    rintro cs t rest found rfl
    have shorter := shortens found
    rw [splits found] at shorter
    exact Nat.lt_irrefl _ shorter

theorem mark (d : Char) (ds : List Char) : Consumes (Lexeme.mark (d :: ds)) :=
  .of_shortens (.mark _) (Lexeme.Shortens.mark d ds)

theorem word {words : List String} (nonempty : "" ∉ words) : Consumes (Lexeme.word words) :=
  .of_shortens (.word _) (Lexeme.Shortens.word nonempty)

theorem name : Consumes Lexeme.name where
  splits := .name
  nonempty := by
    rintro cs t rest found rfl
    rw [Lexeme.name] at found
    split at found
    · rename_i begins
      have no_char : cs.takeWhile Lexeme.isNameChar = [] :=
        congrArg Prod.fst (Option.some.inj found)
      rw [no_char] at begins
      cases begins
    · cases found

theorem digits : Consumes Lexeme.digits where
  splits := .digits
  nonempty := by
    intro cs t rest found
    rw [Lexeme.digits] at found
    split at found
    · cases found
    · rename_i nonempty
      cases found
      exact nonempty

theorem seq (first : Consumes m) (splits : (Lexeme.seq m k).Splits) :
    Consumes (Lexeme.seq m k) where
  splits := splits
  nonempty := by
    intro cs t rest found
    obtain ⟨a, middle, b, one, other, rfl⟩ := found_of_seq found
    exact List.append_ne_nil_of_left_ne_nil (first.nonempty one) b

theorem whole (h : Consumes m) : Consumes (Lexeme.whole m) where
  splits := .whole h.splits
  nonempty found := h.nonempty (found_of_whole found)

theorem literal : ∀ l ∈ Lexeme.literalMatchers, Consumes l.2 := by
  intro l mem
  simp only [Lexeme.literalMatchers, List.mem_cons, List.not_mem_nil, or_false] at mem
  rcases mem with rfl | rfl | rfl | rfl | rfl | rfl | rfl
  · exact .word (by decide)
  · exact .word (by decide)
  · exact .whole (.seq .digits (.seq .digits .realTail))
  · exact .whole (.seq .digits (.seq .digits (.oneOf _)))
  · exact .whole .digits
  · exact .seq (.mark _ _) (Production.splits_quotedText _)
  · exact .seq (.mark _ _) (Production.splits_quotedText _)

end Matcher.Consumes

theorem Spelled.consumes {α : Type} {table : List (String × α)} {operators : List (α × Matcher)}
    (h : Spelled table operators) : ∀ p ∈ operators, p.2.Consumes :=
  fun p mem => Matcher.Consumes.of_shortens (h p mem).splits (h p mem).shortens

namespace Cursor

variable {α : Type} {c c' : Cursor}

theorem strictlyBefore_of_take {m : Matcher} (consumes : m.Consumes) {t : List Char}
    (h : c.take m = some (t, c')) : c.StrictlyBefore c' := by
  have passes := passes_of_take consumes.splits h
  rw [take, Option.map_eq_some_iff] at h
  obtain ⟨⟨found, rest⟩, matched, same⟩ := h
  cases same
  exact ⟨t, consumes.nonempty matched, passes⟩

theorem strictlyBefore_of_expect {d : Char} (h : c.expect d = some c') : c.StrictlyBefore c' := by
  rw [expect, Option.map_eq_some_iff] at h
  obtain ⟨⟨t, last⟩, taken, rfl⟩ := h
  exact strictlyBefore_of_take (.mark d []) taken

theorem before_of_skip_expect {d : Char} (h : c.skip.expect d = some c') : c.Before c' :=
  c.before_skip.trans (strictlyBefore_of_expect h).before

theorem strictlyBefore_of_choose {choices : List (α × Matcher)}
    (each : ∀ p ∈ choices, p.2.Consumes) {a : α} (h : c.choose choices = some (a, c')) :
    c.StrictlyBefore c' := by
  obtain ⟨p, mem, chosen⟩ := List.exists_of_findSome?_eq_some h
  rw [Option.map_eq_some_iff] at chosen
  obtain ⟨⟨t, last⟩, taken, same⟩ := chosen
  cases same
  exact strictlyBefore_of_take (each p mem) taken

end Cursor

/-! ### Readers -/

namespace Grammar

/-- What a reader finds lies between the places before and after it. -/
def Places (r : Reader Phrase) : Prop :=
  ∀ ⦃c p c'⦄, r c = some (p, c') → Lies c c' p

variable {nested operand item : Reader Phrase} {c c' : Cursor}

theorem beside_moreAfter (h : Places item) (separator : Char) (limit : Nat) (c : Cursor) :
    Beside c (moreAfter separator item limit c).1 (moreAfter separator item limit c).2 := by
  induction limit generalizing c with
  | zero => exact .nil (.refl c)
  | succ limit ih =>
    rw [moreAfter]
    cases expected : c.skip.expect separator with
    | none => exact .nil (.refl c)
    | some afterSeparator =>
      dsimp only
      cases read : item afterSeparator.skip with
      | none => exact .nil (.refl c)
      | some found =>
        obtain ⟨p, afterItem⟩ := found
        have gap := (Cursor.before_of_skip_expect expected).trans afterSeparator.before_skip
        exact .cons ((h read).wider gap (.refl afterItem)) (.refl afterItem) (ih afterItem)

theorem beside_items (h : Places nested) {close : Char} {ps : List Phrase}
    (read : items nested close c = some (ps, c')) : Beside c ps c' := by
  rw [items] at read
  cases first : nested c.skip with
  | none =>
    rw [first, Option.map_eq_some_iff] at read
    obtain ⟨_, closed, same⟩ := read
    cases same
    exact .nil (Cursor.before_of_skip_expect closed)
  | some found =>
    obtain ⟨p, afterItem⟩ := found
    rw [first, Option.map_eq_some_iff] at read
    obtain ⟨_, closed, same⟩ := read
    cases same
    have others := beside_moreAfter h ',' afterItem.rest.length afterItem
    have row := Beside.cons (h first) (.refl afterItem) others
    exact row.wider c.before_skip (Cursor.before_of_skip_expect closed)

theorem places_literal : Places literal := by
  intro c p c' read
  simp only [literal, Option.bind_eq_bind, Option.bind_eq_some_iff, Prod.exists, Option.pure_def,
    Option.some.injEq, Prod.mk.injEq] at read
  obtain ⟨kind, chars, rest, found, rfl, rfl⟩ := read
  obtain ⟨⟨kind', m⟩, mem, matched⟩ := List.exists_of_findSome?_eq_some found
  rw [Option.map_eq_some_iff] at matched
  obtain ⟨⟨t, last⟩, one, same⟩ := matched
  cases same
  have taken := Cursor.strictlyBefore_of_take (Matcher.Consumes.literal _ mem)
    (Cursor.take_of_some one)
  exact Beside.whole (.nil taken.before) rfl taken

theorem places_hashName : Places hashName := by
  intro c p c' read
  simp only [hashName, Option.bind_eq_bind, Option.bind_eq_some_iff, Prod.exists, Option.pure_def,
    Option.some.injEq, Prod.mk.injEq] at read
  obtain ⟨afterHash, expected, name, last, taken, rfl, rfl⟩ := read
  have hash := Cursor.strictlyBefore_of_expect expected
  have named := Cursor.strictlyBefore_of_take .name taken
  have both := hash.trans_before named.before
  exact Beside.whole (.nil both.before) rfl both

theorem places_member (h : Places nested) : Places (member nested) := by
  intro c p c' read
  simp only [member, Option.bind_eq_bind, Option.bind_eq_some_iff, Prod.exists] at read
  obtain ⟨name, afterName, taken, read⟩ := read
  have named := Cursor.strictlyBefore_of_take .name taken
  split at read
  · rename_i args last call
    cases read
    obtain ⟨afterOpen, expected, call⟩ := Option.bind_eq_some_iff.mp call
    have toArgs := named.trans_before (Cursor.before_of_skip_expect expected)
    have row := beside_items h call
    exact Beside.whole (row.wider toArgs.before (.refl _)) rfl (toArgs.trans_before row.before)
  · cases read
    exact Beside.whole (.nil named.before) rfl named

/-- Parentheses leave the place of what stands in them as it is. -/
theorem places_parenthesised (h : Places nested) : Places (parenthesised nested) := by
  intro c p c' read
  simp only [parenthesised, Option.bind_eq_bind, Option.bind_eq_some_iff, Prod.exists,
    Option.pure_def, Option.some.injEq, Prod.mk.injEq] at read
  obtain ⟨afterOpen, opened, inner, afterInner, found, last, closed, rfl, rfl⟩ := read
  have opens := (Cursor.strictlyBefore_of_expect opened).before
  have closes := Cursor.before_of_skip_expect closed
  exact (h found).wider (opens.trans afterOpen.before_skip) closes

theorem places_inlineList (h : Places nested) : Places (inlineList nested) := by
  intro c p c' read
  simp only [inlineList, Option.bind_eq_bind, Option.bind_eq_some_iff, Prod.exists,
    Option.pure_def, Option.some.injEq, Prod.mk.injEq] at read
  obtain ⟨afterOpen, opened, found, last, read, rfl, rfl⟩ := read
  have opens := Cursor.strictlyBefore_of_expect opened
  have row := beside_items h read
  exact Beside.whole (row.wider opens.before (.refl _)) rfl (opens.trans_before row.before)

theorem places_firstOf {rs : List (Reader Phrase)} (each : ∀ r ∈ rs, Places r) :
    Places (firstOf rs) := by
  intro c p c' read
  induction rs with
  | nil => cases read
  | cons r rs ih =>
    rw [firstOf] at read
    cases first : r c with
    | some found =>
      rw [first] at read
      cases read
      exact each r List.mem_cons_self first
    | none =>
      rw [first] at read
      exact ih (fun s mem => each s (List.mem_cons_of_mem r mem)) read

theorem places_head (h : Places nested) : Places (head nested) := by
  refine places_firstOf fun r mem => ?_
  simp only [List.mem_cons, List.not_mem_nil, or_false] at mem
  rcases mem with rfl | rfl | rfl | rfl | rfl
  · exact places_literal
  · exact places_parenthesised h
  · exact places_inlineList h
  · exact places_hashName
  · exact places_member h

theorem places_path (h : Places nested) : Places (path nested) := by
  intro c p c' read
  simp only [path, Option.bind_eq_bind, Option.bind_eq_some_iff, Prod.exists] at read
  obtain ⟨first, afterFirst, found, read⟩ := read
  have lies := places_head h found
  have others := beside_moreAfter (places_member h) '.' afterFirst.rest.length afterFirst
  split at read
  · cases read
    exact lies
  · rename_i segments last _ more
    cases read
    rw [more] at others
    have some_char := lies.between.strictlyBefore.trans_before others.before
    exact Beside.whole (.cons lies (.refl afterFirst) others) rfl some_char

theorem places_signed (h : Places nested) (limit : Nat) : Places (signed nested limit) := by
  induction limit with
  | zero =>
    intro c p c' read
    cases read
  | succ limit ih =>
    intro c p c' read
    rw [signed] at read
    cases chosen : c.choose signs with
    | none =>
      rw [chosen] at read
      exact places_path h read
    | some found =>
      obtain ⟨op, afterSign⟩ := found
      rw [chosen] at read
      obtain ⟨⟨inner, last⟩, applied, same⟩ := Option.bind_eq_some_iff.mp read
      cases same
      have sign := (Cursor.strictlyBefore_of_choose spelled_signs.consumes chosen).before
      have lies := (ih applied).wider (sign.trans afterSign.before_skip) (.refl c')
      have row : Beside c ([] ++ [inner]) c' := .single lies
      exact row.joined rfl rfl

section Operators

variable {operators : List (BinaryOperator × Matcher)}

/-- Each further operand makes a node with what stands before it, from the first place on. -/
theorem lies_moreOperands (spelled : Spelled Builder.binaryOperators operators)
    (h : Places operand) {a : Cursor} (limit : Nat) {left : Phrase} (lies : Lies a c left) :
    Lies a (moreOperands operators operand a.offset limit left c).2
      (moreOperands operators operand a.offset limit left c).1 := by
  -- What stands on the left so far lies between the first place and the current one.
  induction limit generalizing left c with
  | zero => exact lies
  | succ limit ih =>
    rw [moreOperands]
    cases chosen : c.skip.choose operators with
    | none => exact lies
    | some found =>
      obtain ⟨op, afterOperator⟩ := found
      dsimp only
      cases read : operand afterOperator.skip with
      | none => exact lies
      | some result =>
        obtain ⟨right, afterRight⟩ := result
        have sign := (Cursor.strictlyBefore_of_choose spelled.consumes chosen).before
        have gap := c.before_skip.trans (sign.trans afterOperator.before_skip)
        have row := (Beside.single lies).append gap (.single (h read))
        exact ih (row.joined rfl rfl)

theorem places_operands (spelled : Spelled Builder.binaryOperators operators)
    (h : Places operand) : Places (operands operators operand) := by
  intro c p c' read
  obtain ⟨⟨left, afterLeft⟩, first, same⟩ := Option.bind_eq_some_iff.mp read
  have lies := lies_moreOperands spelled h afterLeft.rest.length (h first)
  rw [Option.some.inj same] at lies
  exact lies

theorem places_operandPair (spelled : Spelled Builder.binaryOperators operators)
    (h : Places operand) : Places (operandPair operators operand) := by
  intro c p c' read
  obtain ⟨⟨left, afterLeft⟩, first, same⟩ := Option.bind_eq_some_iff.mp read
  have lies := lies_moreOperands spelled h 1 (h first)
  rw [Option.some.inj same] at lies
  exact lies

end Operators

theorem places_disjunction (h : Places nested) : Places (disjunction nested) := by
  have unary : Places (unary nested) := fun c p c' read => places_signed h _ read
  have product : Places (product nested) := places_operands spelled_products unary
  have sum : Places (sum nested) := places_operands spelled_sums product
  have relation : Places (relation nested) := places_operandPair spelled_relations sum
  have conjunction : Places (conjunction nested) := places_operands spelled_and relation
  exact places_operands spelled_or conjunction

theorem places_ternary (h : Places nested) : Places (ternary nested) := by
  intro c p c' read
  obtain ⟨⟨condition, afterCondition⟩, first, read⟩ := Option.bind_eq_some_iff.mp read
  have lies := places_disjunction h first
  dsimp only at read
  split at read
  · cases read
    exact lies
  · rename_i whenTrue whenFalse last both
    cases read
    simp only [branches, Option.bind_eq_bind, Option.bind_eq_some_iff, Prod.exists,
      Option.pure_def, Option.some.injEq, Prod.mk.injEq] at both
    obtain ⟨afterMark, marked, t, afterTrue, readTrue, afterColon, colon, f, last', readFalse,
      ⟨rfl, rfl⟩, rfl⟩ := both
    have toTrue := (Cursor.before_of_skip_expect marked).trans afterMark.before_skip
    have toFalse := (Cursor.before_of_skip_expect colon).trans afterColon.before_skip
    have row := Beside.cons lies toTrue (.cons (h readTrue) toFalse (.single (h readFalse)))
    have some_char := (h readFalse).between.strictlyBefore
    have before := lies.before.trans (toTrue.trans ((h readTrue).before.trans toFalse))
    exact Beside.whole row rfl (before.trans_strictly some_char)

theorem places_assignment (h : Places nested) : Places (assignment nested) := by
  intro c p c' read
  obtain ⟨⟨target, afterTarget⟩, first, read⟩ := Option.bind_eq_some_iff.mp read
  have lies := places_ternary h first
  dsimp only at read
  split at read
  · cases read
    exact lies.wider (.refl c) afterTarget.before_skip
  · rename_i value last assigned
    cases read
    obtain ⟨⟨t, afterSign⟩, taken, readValue⟩ := Option.bind_eq_some_iff.mp assigned
    have sign := Cursor.passes_of_take (.notBeforeEquals (.mark ['='])) taken
    have toValue := afterTarget.before_skip.trans (.trans ⟨t, sign⟩ afterSign.before_skip)
    have row := Beside.cons lies toValue (.single (h readValue))
    have before := lies.before.trans toValue
    exact Beside.whole row rfl (before.trans_strictly (h readValue).between.strictlyBefore)

theorem places_assignmentUpTo (depth : Nat) : Places (assignmentUpTo depth) := by
  induction depth with
  | zero =>
    intro c p c' read
    cases read
  | succ depth ih => exact places_assignment ih

end Grammar

/-- The phrase of a source lies in it. -/
theorem Phrase.lies_of_ofSource? {source : String} {p : Phrase}
    (h : Phrase.ofSource? source = some p) : ∃ c, Lies (Cursor.start source) c p := by
  obtain ⟨⟨q, last⟩, read, whole⟩ := Option.bind_eq_some_iff.mp h
  dsimp only at whole
  split at whole
  · cases whole
    have lies := Grammar.places_assignmentUpTo _ read
    exact ⟨last, lies.wider (Cursor.before_skip _) (.refl last)⟩
  · cases whole

/-! ### The places of a parsed expression -/

namespace Expr

/-- Numbering keeps the places of phrases that stand side by side. -/
theorem map_span_of_ofPhrases {ps : List Phrase} {es : List Expr} {n m : NodeId}
    (h : ofPhrases ps n = .ok (es, m)) : es.map Tree.span = ps.map Tree.span := by
  induction ps generalizing es n with
  | nil =>
    cases h
    rfl
  | cons p ps ih =>
    rw [ofPhrases] at h
    obtain ⟨e, k, first, h⟩ := Numbering.bind_eq_ok h
    obtain ⟨es', k', others, rest⟩ := Numbering.bind_eq_ok h
    cases rest
    have span : e.span = p.span := span_of_ofPhrase p first
    rw [List.map_cons, List.map_cons, span, ih others]

theorem exists_of_mem_ofPhrases {ps : List Phrase} {es : List Expr} {n m : NodeId}
    (h : ofPhrases ps n = .ok (es, m)) {e : Expr} (mem : e ∈ es) :
    ∃ p ∈ ps, ∃ k l, ofPhrase p k = .ok (e, l) := by
  induction ps generalizing es n with
  | nil =>
    cases h
    cases mem
  | cons p ps ih =>
    rw [ofPhrases] at h
    obtain ⟨e', k, first, h⟩ := Numbering.bind_eq_ok h
    obtain ⟨es', k', others, rest⟩ := Numbering.bind_eq_ok h
    cases rest
    rcases List.mem_cons.mp mem with rfl | later
    · exact ⟨p, List.mem_cons_self, n, k, first⟩
    · obtain ⟨q, mem_q, found⟩ := ih others later
      exact ⟨q, List.mem_cons_of_mem p mem_q, found⟩

/-- An expression lies where its phrase does. -/
theorem lies_of_ofPhrase {p : Phrase} {e : Expr} {n m : NodeId} {c c' : Cursor}
    (lies : Lies c c' p) (h : ofPhrase p n = .ok (e, m)) : Lies c c' e := by
  induction lies generalizing e n m with
  | @node p here below ih =>
    have numbered := children_of_ofPhrase h
    have span : e.span = p.span := span_of_ofPhrase p h
    have spans := map_span_of_ofPhrases numbered.children
    refine .node ⟨?_, ?_, ?_⟩ fun u mem => ?_
    · rw [span]
      exact here.between
    · rw [span, spans]
      exact here.inside
    · rw [spans]
      exact here.ordered
    · obtain ⟨q, child, k, l, found⟩ := exists_of_mem_ofPhrases numbered.children mem
      exact ih q child found

/-- The places of all nodes are in the source and nest as the nodes do. -/
structure SpansNest (source : String) (e : Expr) : Prop where
  /-- A node covers some bytes of the source. -/
  bounds : ∀ t ∈ e.subtrees, t.span.first < t.span.last ∧ t.span.last ≤ source.utf8ByteSize
  /-- It begins and ends between two characters. -/
  boundaries : ∀ t ∈ e.subtrees, String.Pos.Raw.IsValid source ⟨t.span.first⟩ ∧
    String.Pos.Raw.IsValid source ⟨t.span.last⟩
  /-- A child lies within the node. -/
  inside : ∀ t ∈ e.subtrees, ∀ u ∈ t.children,
    t.span.first ≤ u.span.first ∧ u.span.last ≤ t.span.last
  /-- Of two children the left one ends before the right one begins. -/
  ordered : ∀ t ∈ e.subtrees, t.children.Pairwise fun u v => u.span.last ≤ v.span.first

/-- The places of an expression that lies in a source nest. -/
theorem SpansNest.of_lies {source : String} {e : Expr} {c : Cursor}
    (lies : Lies (Cursor.start source) c e) : e.SpansNest source where
  bounds := by
    intro t mem
    have between := (lies.placed_of_mem_subtrees mem).between
    refine ⟨between.first_lt_last, ?_⟩
    obtain ⟨a, b, begins, middle, _, same⟩ := between
    rw [same]
    exact (begins.trans middle.before).of_start.1
  boundaries := by
    intro t mem
    obtain ⟨a, b, begins, middle, _, same⟩ := (lies.placed_of_mem_subtrees mem).between
    rw [same]
    exact ⟨begins.of_start.2, (begins.trans middle.before).of_start.2⟩
  inside t mem u child :=
    (lies.placed_of_mem_subtrees mem).inside u.span (List.mem_map_of_mem child)
  ordered t mem := List.pairwise_map.mp (lies.placed_of_mem_subtrees mem).ordered

end Expr

/-- **The places of the nodes of a parsed expression nest** as the nodes do, on the boundaries of
the characters of the source. -/
theorem Builder.parse_spansNest {source : String} {e : Expr}
    (parsed : Builder.parse source = .ok e) : e.SpansNest source := by
  obtain ⟨p, m, read, numbered⟩ := Expr.exists_phrase_of_parse (parse_eq_ok.mp parsed)
  obtain ⟨c, lies⟩ := Phrase.lies_of_ofSource? read
  exact .of_lies (Expr.lies_of_ofPhrase lies numbered)

theorem Builder.parse_spansNest_of_sum :
    let e : Expr := .binary 3 ⟨0, 12⟩ (.arithmetic .add)
      (.unary 1 ⟨0, 4⟩ .minus (.property 0 ⟨3, 4⟩ "a")) (.call 2 ⟨9, 12⟩ "f" [])
    Builder.parse "-( a ) + f()" = .ok e ∧ e.SpansNest "-( a ) + f()" := by
  intro e
  have parsed : Builder.parse "-( a ) + f()" = .ok e := parse_eq_ok.mpr (by rfl)
  exact ⟨parsed, parse_spansNest parsed⟩

end HostExpr
