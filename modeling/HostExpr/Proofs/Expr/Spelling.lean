import HostExpr.Expr.Builder
import HostExpr.Proofs.Expr.Literals

/-!
What matchers of tokens find.

A matcher splits the text that it is given (`Matcher.Splits`). The grammar's tables of operators and
the builder's agree: whatever is found in one of the ways to write an operator, its text in lower
case is looked up as that operator (`Spelled`).
-/

namespace HostExpr

variable {α : Type}

/-! ### What matchers find -/

section Found

variable {m k : Matcher} {cs t rest : List Char}

theorem eq_of_mark {ds : List Char} (h : Lexeme.mark ds cs = some (t, rest)) : t = ds := by
  rw [Lexeme.mark] at h
  split at h
  · cases h
    rfl
  · cases h

theorem found_of_seq (h : Lexeme.seq m k cs = some (t, rest)) :
    ∃ a middle b, m cs = some (a, middle) ∧ k middle = some (b, rest) ∧ t = a ++ b := by
  cases first : m cs with
  | none =>
    rw [Lexeme.seq_of_none first] at h
    cases h
  | some found =>
    obtain ⟨a, middle⟩ := found
    rw [Lexeme.seq_of_some first, Option.map_eq_some_iff] at h
    obtain ⟨⟨b, last⟩, second, same⟩ := h
    cases same
    exact ⟨a, middle, b, rfl, second, rfl⟩

theorem found_of_either (h : Lexeme.either m k cs = some (t, rest)) :
    m cs = some (t, rest) ∨ k cs = some (t, rest) := by
  cases first : m cs with
  | none =>
    rw [Lexeme.either, first] at h
    exact .inr h
  | some found =>
    rw [Lexeme.either, first] at h
    exact .inl h

theorem found_of_optional (h : Lexeme.optional m cs = some (t, rest)) :
    m cs = some (t, rest) ∨ t = [] ∧ rest = cs := by
  cases first : m cs with
  | none =>
    rw [Lexeme.optional, first] at h
    cases h
    exact .inr ⟨rfl, rfl⟩
  | some found =>
    rw [Lexeme.optional, first] at h
    exact .inl h

theorem found_of_whole (h : Lexeme.whole m cs = some (t, rest)) : m cs = some (t, rest) :=
  (Option.filter_eq_some_iff.mp h).1

theorem found_of_notBeforeEquals (h : Grammar.notBeforeEquals m cs = some (t, rest)) :
    m cs = some (t, rest) :=
  (Option.filter_eq_some_iff.mp h).1

theorem found_of_oneOf {chars : List Char} (h : Lexeme.oneOf chars cs = some (t, rest)) :
    ∃ c ∈ chars, t = [c] := by
  cases cs with
  | nil => cases h
  | cons c cs =>
    rw [Lexeme.oneOf] at h
    split at h
    · rename_i contains
      cases h
      exact ⟨c, by simpa using contains, rfl⟩
    · cases h

end Found

/-! ### Splitting -/

/-- What a matcher finds and what follows are together what it was given. -/
def Matcher.Splits (m : Matcher) : Prop :=
  ∀ ⦃cs found rest : List Char⦄, m cs = some (found, rest) → cs = found ++ rest

namespace Matcher.Splits

variable {m k : Matcher}

theorem mark (ds : List Char) : Splits (Lexeme.mark ds) := by
  intro cs found rest h
  rw [Lexeme.mark] at h
  split at h
  · rename_i begins
    cases h
    obtain ⟨after, rfl⟩ := List.isPrefixOf_iff_prefix.mp begins
    rw [List.drop_left]
  · cases h

theorem word (words : List String) : Splits (Lexeme.word words) := by
  intro cs found rest h
  rw [Lexeme.word] at h
  split at h
  · cases h
    exact List.takeWhile_append_dropWhile.symm
  · cases h

theorem name : Splits Lexeme.name := by
  intro cs found rest h
  rw [Lexeme.name] at h
  split at h
  · cases h
    exact List.takeWhile_append_dropWhile.symm
  · cases h

theorem digits : Splits Lexeme.digits := by
  intro cs found rest h
  rw [Lexeme.digits] at h
  split at h
  · cases h
  · cases h
    exact List.takeWhile_append_dropWhile.symm

theorem oneOf (chars : List Char) : Splits (Lexeme.oneOf chars) := by
  intro cs found rest h
  cases cs with
  | nil => cases h
  | cons c cs =>
    rw [Lexeme.oneOf] at h
    split at h
    · cases h
      rfl
    · cases h

theorem seq (first : Splits m) (second : Splits k) : Splits (Lexeme.seq m k) := by
  intro cs found rest h
  obtain ⟨a, middle, b, one, other, rfl⟩ := found_of_seq h
  rw [first one, second other, List.append_assoc]

theorem either (first : Splits m) (second : Splits k) : Splits (Lexeme.either m k) := by
  intro cs found rest h
  rcases found_of_either h with one | other
  · exact first one
  · exact second other

theorem optional (h : Splits m) : Splits (Lexeme.optional m) := by
  intro cs found rest some_found
  rcases found_of_optional some_found with one | ⟨rfl, rfl⟩
  · exact h one
  · rfl

theorem whole (h : Splits m) : Splits (Lexeme.whole m) := by
  intro cs found rest some_found
  exact h (found_of_whole some_found)

theorem notBeforeEquals (h : Splits m) : Splits (Grammar.notBeforeEquals m) := by
  intro cs found rest some_found
  exact h (found_of_notBeforeEquals some_found)

theorem exponent : Splits Lexeme.exponent :=
  .seq (.oneOf _) (.seq (.optional (.oneOf _)) .digits)

theorem realTail : Splits Lexeme.realTail := by
  have suffix : Splits Lexeme.realSuffix := .oneOf _
  refine .either (.seq (.mark _) (.seq .digits (.seq (.optional exponent) (.optional suffix)))) ?_
  exact .either (.seq exponent (.optional suffix)) suffix

theorem anyOf {ms : List Matcher} (each : ∀ m ∈ ms, Splits m) : Splits (Production.anyOf ms) := by
  intro cs found rest h
  obtain ⟨m, mem, one⟩ := List.exists_of_findSome?_eq_some h
  exact each m mem one

theorem quotedBody (quote : Char) : Splits (Production.quotedBody quote) := by
  intro cs found rest h
  induction cs using Production.quotedBody.induct quote generalizing found with
  | case1 after ih =>
    rw [Production.quotedBody, if_pos rfl, if_pos rfl, Option.map_eq_some_iff] at h
    obtain ⟨⟨body, last⟩, inner, same⟩ := h
    cases same
    rw [ih inner]
    rfl
  | case2 d after other =>
    rw [Production.quotedBody, if_pos rfl, if_neg other] at h
    cases h
    rfl
  | case3 c d after other ih =>
    rw [Production.quotedBody, if_neg other, Option.map_eq_some_iff] at h
    obtain ⟨⟨body, last⟩, inner, same⟩ := h
    cases same
    rw [ih inner]
    rfl
  | case4 =>
    rw [Production.quotedBody, if_pos rfl] at h
    cases h
    rfl
  | case5 c other =>
    rw [Production.quotedBody, if_neg other] at h
    cases h
    rfl
  | case6 =>
    cases h
    rfl

end Matcher.Splits

/-! ### Ways to write operators -/

/-- A matcher finds a way to write what a table knows by the text in lower case. -/
inductive Spells (table : List (String × α)) : α → Matcher → Prop where
  | mark {a : α} {d : Char} {ds : List Char}
      (known : table.lookup (Lexeme.lowered (d :: ds)) = some a) :
      Spells table a (Lexeme.mark (d :: ds))
  | word {a : α} {w : String} (nonempty : w ≠ "") (known : table.lookup w = some a) :
      Spells table a (Lexeme.word [w])
  | notBeforeEquals {a : α} {m : Matcher} (h : Spells table a m) :
      Spells table a (Grammar.notBeforeEquals m)

namespace Spells

variable {table : List (String × α)} {a : α} {m : Matcher}

theorem splits (h : Spells table a m) : m.Splits := by
  induction h with
  | mark _ => exact .mark _
  | word _ _ => exact .word _
  | notBeforeEquals _ ih => exact .notBeforeEquals ih

theorem shortens (h : Spells table a m) : Lexeme.Shortens m := by
  induction h with
  | mark _ => exact Lexeme.Shortens.mark _ _
  | word nonempty _ => exact Lexeme.Shortens.word (by simpa using nonempty.symm)
  | notBeforeEquals _ ih => exact Lexeme.Shortens.notBeforeEquals ih

/-- What is found is looked up. -/
theorem lookup (h : Spells table a m) {cs t rest : List Char} (found : m cs = some (t, rest)) :
    table.lookup (Lexeme.lowered t) = some a := by
  induction h with
  | mark known =>
    rw [eq_of_mark found]
    exact known
  | word _ known =>
    rw [Lexeme.word] at found
    split at found
    · rename_i contains
      cases found
      rw [List.contains_iff_mem, List.mem_singleton] at contains
      rw [contains]
      exact known
    · cases found
  | notBeforeEquals _ ih =>
    exact ih (found_of_notBeforeEquals found)

end Spells

/-- Each of some ways to write operators is known to a table. -/
def Spelled (table : List (String × α)) (operators : List (α × Matcher)) : Prop :=
  ∀ p ∈ operators, Spells table p.1 p.2

namespace Spelled

variable {table : List (String × α)} {operators : List (α × Matcher)}

theorem nil : Spelled table [] := by
  intro p mem
  cases mem

theorem cons {a : α} {m : Matcher} (first : Spells table a m) (others : Spelled table operators) :
    Spelled table ((a, m) :: operators) :=
  List.forall_mem_cons.mpr ⟨first, others⟩

theorem splits (h : Spelled table operators) :
    Matcher.Splits (Production.anyOf (operators.map (·.2))) := by
  refine .anyOf fun m mem => ?_
  obtain ⟨p, mem_p, rfl⟩ := List.mem_map.mp mem
  exact (h p mem_p).splits

theorem shortens (h : Spelled table operators) :
    Lexeme.Shortens (Production.anyOf (operators.map (·.2))) := by
  intro cs t rest found
  obtain ⟨m, mem, one⟩ := List.exists_of_findSome?_eq_some found
  obtain ⟨p, mem_p, rfl⟩ := List.mem_map.mp mem
  exact (h p mem_p).shortens one

end Spelled

theorem spelled_signs : Spelled Builder.unaryOperators Grammar.signs :=
  .cons (.notBeforeEquals (.mark rfl)) (.cons (.word (by decide) rfl)
    (.cons (.mark rfl) (.cons (.mark rfl) .nil)))

theorem spelled_products : Spelled Builder.binaryOperators Grammar.productOperators :=
  .cons (.mark rfl) (.cons (.mark rfl) (.cons (.mark rfl)
    (.cons (.word (by decide) rfl) (.cons (.word (by decide) rfl) .nil))))

theorem spelled_sums : Spelled Builder.binaryOperators Grammar.sumOperators :=
  .cons (.mark rfl) (.cons (.mark rfl) .nil)

theorem spelled_relations : Spelled Builder.binaryOperators Grammar.relations :=
  .cons (.mark rfl) (.cons (.mark rfl) (.cons (.mark rfl) (.cons (.mark rfl) (.cons (.mark rfl)
    (.cons (.mark rfl) (.cons (.word (by decide) rfl) (.cons (.word (by decide) rfl)
      (.cons (.word (by decide) rfl) (.cons (.word (by decide) rfl)
        (.cons (.word (by decide) rfl) (.cons (.word (by decide) rfl) .nil)))))))))))

theorem spelled_and : Spelled Builder.binaryOperators Grammar.andOperators :=
  .cons (.mark rfl) (.cons (.word (by decide) rfl) .nil)

theorem spelled_or : Spelled Builder.binaryOperators Grammar.orOperators :=
  .cons (.mark rfl) (.cons (.word (by decide) rfl) .nil)

end HostExpr
