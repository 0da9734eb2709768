import HostExpr.Proofs.Expr.Induction
import HostExpr.Proofs.Expr.Numerals
import HostExpr.Proofs.Expr.Productions
import HostExpr.Proofs.Value.Induction

/-!
What becomes of a source that the grammar matches.

Decoding and numbering a phrase takes its literals from left to right: it fails as the first of them
that has no value does, or the literals of its result are theirs (`Expr.Takes`). With what a literal
comes to (`LiteralText.Found.settles`), with the order of the literals in the source
(`Pair.slices_of_ofSource?`) and with the builder being decoding and numbering
(`Builder.parse_eq`), an integer too large for its width is the only reason to fail, and the first
one is reported (`Builder.parse_total`).
-/

namespace HostExpr

/-- The value of a literal with its place, or why it has none. -/
def decodeAt (l : Span × LiteralText) : Except ParseError (Span × Literal) :=
  match l.2.decode with
  | .ok value => .ok (l.1, value)
  | .error fault => .error (.invalidLiteral (String.ofList l.2.chars) l.1 fault)

namespace Expr

/-! ### Literals in the order of numbering -/

section Takes

variable {α β : Type}

/-- A step of numbering takes some literals, after those that were taken before: it succeeds if they
all have values, and `taken` gives those of its result. -/
def Takes (a : Numbering α) (taken : α → List (Span × Literal)) (before : List (Span × Literal))
    (ls : List (Span × LiteralText)) : Prop :=
  ∀ n, (a n).map (fun r => taken r.1) = (ls.mapM decodeAt).map (before ++ ·)

variable {a : Numbering α} {f : α → Numbering β} {taken : α → List (Span × Literal)}
  {taken' : β → List (Span × Literal)} {before : List (Span × Literal)}
  {ls ls' : List (Span × LiteralText)}

/-- A step that takes nothing. -/
theorem Takes.nothing {x : NodeId → α} {k : NodeId → NodeId}
    (same : ∀ n, taken (x n) = before) : Takes (fun n => .ok (x n, k n)) taken before [] := by
  intro n
  show Except.ok (taken (x n)) = Except.ok (before ++ [])
  rw [same, List.append_nil]

/-- What was taken before stays. -/
theorem Takes.after (h : Takes a taken [] ls) (before : List (Span × Literal)) :
    Takes a (fun x => before ++ taken x) before ls := by
  intro n
  calc (a n).map (fun r => before ++ taken r.1)
    _ = ((a n).map fun r => taken r.1).map (before ++ ·) := by cases a n <;> rfl
    _ = ((ls.mapM decodeAt).map ([] ++ ·)).map (before ++ ·) := by rw [h n]
    _ = (ls.mapM decodeAt).map (before ++ ·) := by cases ls.mapM decodeAt <;> rfl

/-- One step after another takes the literals of both. -/
theorem Takes.bind (first : Takes a taken before ls)
    (rest : ∀ x, Takes (f x) taken' (taken x) ls') :
    Takes (a >>= f) taken' before (ls ++ ls') := by
  intro n
  have took := first n
  rw [List.mapM_append]
  show ((a n).bind fun r => f r.1 r.2).map _ = _
  cases values : ls.mapM decodeAt with
  | error e =>
    rw [values] at took
    cases step : a n with
    | error e' =>
      rw [step] at took
      cases took
      rfl
    | ok r =>
      rw [step] at took
      cases took
  | ok vs =>
    rw [values] at took
    cases step : a n with
    | error e =>
      rw [step] at took
      cases took
    | ok r =>
      rw [step] at took
      have same : taken r.1 = before ++ vs := Except.ok.inj took
      have others := rest r.1 r.2
      show (f r.1 r.2).map _ = _
      rw [others, same]
      cases ls'.mapM decodeAt with
      | error e => rfl
      | ok vs' =>
        show Except.ok (before ++ vs ++ vs') = Except.ok (before ++ (vs ++ vs'))
        rw [List.append_assoc]

/-- A node takes nothing of its own. -/
theorem Takes.node {e : NodeId → Expr} (same : ∀ id, (e id).literals = before) :
    Takes (do return e (← nextId)) Tree.literals before [] :=
  .nothing (x := e) (k := (· + 1)) same

end Takes

/-- Decoding and numbering phrases takes the literals of each. -/
theorem takes_ofPhrases {ps : List Phrase}
    (each : ∀ p ∈ ps, Takes (ofPhrase p) Tree.literals [] p.literals) :
    Takes (ofPhrases ps) Tree.literalsAll [] (Tree.literalsAll ps) := by
  induction ps with
  | nil => exact .nothing (x := fun _ => []) (k := id) fun _ => rfl
  | cons p ps ih =>
    have others := ih fun q mem => each q (List.mem_cons_of_mem p mem)
    rw [ofPhrases, Tree.literalsAll_cons, ← List.append_nil (Tree.literalsAll ps)]
    refine (each p List.mem_cons_self).bind fun e => (others.after e.literals).bind fun es => ?_
    exact .nothing (x := fun _ => e :: es) (k := id) fun _ => Tree.literalsAll_cons e es

/-- **Decoding and numbering takes the literals of a phrase from left to right.** -/
theorem takes_ofPhrase (p : Phrase) : Takes (ofPhrase p) Tree.literals [] p.literals := by
  induction p using Tree.induction with
  | literal _ s text =>
    rw [ofPhrase]
    have decoded : Takes (decodeLiteral s text) (fun v => [(s, v)]) [] [(s, text)] := by
      intro n
      rw [decodeLiteral, List.mapM_cons, decodeAt]
      cases text.decode <;> rfl
    exact decoded.bind fun v => .node fun i => Tree.literals_literal i s v
  | var _ s name =>
    rw [ofPhrase, Tree.literals_variable]
    exact .node fun i => Tree.literals_variable i s name
  | property _ s name =>
    rw [ofPhrase, Tree.literals_property]
    exact .node fun i => Tree.literals_property i s name
  | call _ s name args ih =>
    rw [ofPhrase, Tree.literals_call, ← List.append_nil (Tree.literalsAll args)]
    exact (takes_ofPhrases ih).bind fun es => .node fun i => Tree.literals_call i s name es
  | path _ s segments ih =>
    rw [ofPhrase, Tree.literals_path, ← List.append_nil (Tree.literalsAll segments)]
    exact (takes_ofPhrases ih).bind fun es => .node fun i => Tree.literals_path i s es
  | list _ s items ih =>
    rw [ofPhrase, Tree.literals_list, ← List.append_nil (Tree.literalsAll items)]
    exact (takes_ofPhrases ih).bind fun es => .node fun i => Tree.literals_list i s es
  | unary _ s op operand ih =>
    rw [ofPhrase, Tree.literals_unary, ← List.append_nil operand.literals]
    exact ih.bind fun e => .node fun i => Tree.literals_unary i s op e
  | binary _ s op l r left right =>
    rw [ofPhrase, Tree.literals_binary, ← List.append_nil r.literals]
    refine left.bind fun d => (right.after d.literals).bind fun e => ?_
    exact .node fun i => Tree.literals_binary i s op d e
  | assign _ s target value first second =>
    rw [ofPhrase, Tree.literals_assign, ← List.append_nil value.literals]
    refine first.bind fun d => (second.after d.literals).bind fun e => ?_
    exact .node fun i => Tree.literals_assign i s d e
  | ternary _ s c t f condition whenTrue whenFalse =>
    rw [ofPhrase, Tree.literals_ternary, List.append_assoc, ← List.append_nil f.literals]
    refine condition.bind fun d => (whenTrue.after d.literals).bind fun e => ?_
    refine (whenFalse.after (d.literals ++ e.literals)).bind fun g => ?_
    exact .node fun i => Tree.literals_ternary i s d e g

end Expr

/-! ### Sources -/

/-- A literal that was found is an integer too large for its width, which is reported with its text
and place, or is decoded. -/
theorem decodeAt_of_found {l : Span × LiteralText} (found : l.2.Found) :
    (l.2.Overflows ∧
      decodeAt l = .error (.invalidLiteral (String.ofList l.2.chars) l.1 .tooLarge)) ∨
      (¬ l.2.Overflows ∧ ∃ v, decodeAt l = .ok (l.1, v) ∧ l.2.Denotes v) := by
  have settles := found.settles
  rw [decodeAt]
  generalize l.2.decode = result at settles
  cases settles with
  | tooLarge overflows => exact .inl ⟨overflows, rfl⟩
  | value fits denotes => exact .inr ⟨fits, _, rfl, denotes⟩

section Sources

variable {source : String} {pairs : List Pair} (matched : Pair.ofSource? source = some pairs)

include matched

/-- A source that the grammar matches is a phrase. -/
theorem Pair.whole_of_ofSource? : ∃ q, Phrase.ofSource? source = some q ∧ Whole pairs q := by
  have agree := ofSource?_meets source
  rw [matched] at agree
  generalize Phrase.ofSource? source = read at agree
  cases agree with
  | some whole => exact ⟨_, rfl, whole⟩

/-- Parsing a source takes the literals that the grammar matches in it. -/
theorem Expr.literals_parse :
    (Expr.parse source).map Tree.literals = (Pair.literals pairs).mapM decodeAt := by
  obtain ⟨q, read, whole⟩ := Pair.whole_of_ofSource? matched
  rw [Expr.parse, read, whole.literals]
  have takes := takes_ofPhrase q 0
  show (((ofPhrase q) 0).map (·.1)).map Tree.literals = _
  calc (((ofPhrase q) 0).map (·.1)).map Tree.literals
    _ = ((ofPhrase q) 0).map fun r => r.1.literals := by cases ofPhrase q 0 <;> rfl
    _ = (q.literals.mapM decodeAt).map ([] ++ ·) := takes
    _ = q.literals.mapM decodeAt := by cases q.literals.mapM decodeAt <;> rfl

/-- A literal stands in the source where its span says. -/
theorem Pair.literal_stands {l : Span × LiteralText} (mem : l ∈ Pair.literals pairs) :
    ∃ before after, source.toList = before ++ l.2.chars ++ after ∧
      l.1 = ⟨byteLength before, byteLength before + byteLength l.2.chars⟩ := by
  obtain ⟨c, slices⟩ := Pair.slices_of_ofSource? matched
  obtain ⟨p, mem, is_literal⟩ := List.mem_filterMap.mp mem
  obtain ⟨first, last, ⟨before, begins⟩, passes, _, span⟩ := slices.stand p mem
  rw [Pair.literal?, Option.map_eq_some_iff] at is_literal
  obtain ⟨kind, _, rfl⟩ := is_literal
  refine ⟨before, last.rest, ?_, ?_⟩
  · exact (begins.trans passes).text
  · have offset : first.offset = byteLength before := by
      rw [begins.offset]
      exact Nat.zero_add _
    rw [span, passes.offset, offset]

/-- Of two literals the left one ends before the right one begins. -/
theorem Pair.literals_ordered :
    (Pair.literals pairs).Pairwise fun l l' => l.1.last ≤ l'.1.first := by
  obtain ⟨c, slices⟩ := Pair.slices_of_ofSource? matched
  exact slices.ordered

/-- If there is an expression, each literal is in it, with what it denotes. -/
theorem Expr.become_of_parse {e : Expr} (parsed : Expr.parse source = .ok e) :
    List.Forall₂ (fun l node => node.1 = l.1 ∧ l.2.Denotes node.2) (Pair.literals pairs)
      e.literals := by
  obtain ⟨q, _, whole⟩ := Pair.whole_of_ofSource? matched
  have values := Expr.literals_parse matched
  rw [parsed] at values
  have each := (List.forall₂_and_left _ _).mpr
    ⟨whole.found, forall₂_of_mapM_eq_ok values.symm⟩
  refine each.imp fun l node ⟨found, decoded⟩ => ?_
  rcases decodeAt_of_found found with ⟨_, failed⟩ | ⟨_, v, decoded', denotes⟩
  · rw [failed] at decoded
    cases decoded
  · obtain rfl : (l.1, v) = node := Except.ok.inj (decoded'.symm.trans decoded)
    exact ⟨rfl, denotes⟩

/-- If there is an expression, no integer is too large. -/
theorem Expr.fits_of_parse {e : Expr} (parsed : Expr.parse source = .ok e) :
    ∀ l ∈ Pair.literals pairs, ¬ l.2.Overflows := by
  obtain ⟨q, _, whole⟩ := Pair.whole_of_ofSource? matched
  have values := Expr.literals_parse matched
  rw [parsed] at values
  intro l mem
  obtain ⟨v, decoded⟩ := exists_of_mapM_eq_ok values.symm mem
  rcases decodeAt_of_found (whole.found l mem) with ⟨_, failed⟩ | ⟨fits, _⟩
  · rw [failed] at decoded
    cases decoded
  · exact fits

/-- If there is none, an integer is too large, and the leftmost such one is reported. -/
theorem Expr.error_of_parse {failure : ParseError} (failed : Expr.parse source = .error failure) :
    ∃ l ∈ Pair.literals pairs, l.2.Overflows ∧
      (∀ l' ∈ Pair.literals pairs, l'.2.Overflows → l' = l ∨ l.1.last ≤ l'.1.first) ∧
      failure = .invalidLiteral (String.ofList l.2.chars) l.1 .tooLarge := by
  obtain ⟨q, _, whole⟩ := Pair.whole_of_ofSource? matched
  have values := Expr.literals_parse matched
  have ordered := Pair.literals_ordered matched
  have found := whole.found
  rw [failed] at values
  obtain ⟨before, l, after, split, earlier, fault⟩ := exists_first_of_mapM_eq_error values.symm
  rw [split] at ordered found ⊢
  have mem : l ∈ before ++ l :: after := by simp
  rcases decodeAt_of_found (found l mem) with ⟨overflows, reported⟩ | ⟨_, v, decoded, _⟩
  · refine ⟨l, mem, overflows, fun l' mem' overflows' => ?_, ?_⟩
    · rcases List.mem_append.mp mem' with left | right
      · -- what stands before the first failure was decoded
        obtain ⟨r, decoded⟩ := earlier l' left
        rcases decodeAt_of_found (found l' mem') with ⟨_, reported'⟩ | ⟨fits, _⟩
        · rw [reported'] at decoded
          cases decoded
        · exact absurd overflows' fits
      · rcases List.mem_cons.mp right with same | later
        · exact .inl same
        · have order := (List.pairwise_append.mp ordered).2.1
          exact .inr (List.rel_of_pairwise_cons order later)
    · rw [reported] at fault
      exact (Except.error.inj fault).symm
  · rw [decoded] at fault
    cases fault

end Sources

namespace Builder

structure TotalOn (source : String) (pairs : List Pair) : Prop where
  /-- Literals stand in the source where their spans say. -/
  stand : ∀ l ∈ Pair.literals pairs, ∃ before after,
    source.toList = before ++ l.2.chars ++ after ∧
      l.1 = ⟨byteLength before, byteLength before + byteLength l.2.chars⟩
  /-- Building fails just if an integer is too large for its width. -/
  fails_iff : (∃ failure, parse source = .error failure) ↔
    ∃ l ∈ Pair.literals pairs, l.2.Overflows
  /-- The leftmost such integer is reported, with its text and place. -/
  failure_eq : ∀ failure, parse source = .error failure → ∃ l ∈ Pair.literals pairs,
    l.2.Overflows ∧
      (∀ l' ∈ Pair.literals pairs, l'.2.Overflows → l' = l ∨ l.1.last ≤ l'.1.first) ∧
      failure = .parse (.invalidLiteral (String.ofList l.2.chars) l.1 .tooLarge)
  /-- Otherwise each literal becomes a literal node with what it denotes, in the same order. -/
  become : ∀ e, parse source = .ok e →
    List.Forall₂ (fun l node => node.1 = l.1 ∧ l.2.Denotes node.2) (Pair.literals pairs) e.literals
  /-- What is built is what the source is parsed as. -/
  agrees : parse source = (Expr.parse source).mapError BuildFailure.parse

theorem parse_eq_error {source : String} {failure : BuildFailure} :
    parse source = .error failure ↔ ∃ e, Expr.parse source = .error e ∧ failure = .parse e := by
  rw [parse_eq]
  cases Expr.parse source with
  | error e => simp [Except.mapError, eq_comm]
  | ok e => simp [Except.mapError]

theorem parse_eq_ok {source : String} {e : Expr} :
    parse source = .ok e ↔ Expr.parse source = .ok e := by
  rw [parse_eq]
  cases Expr.parse source <;> simp [Except.mapError]

/-- **The builder is total on the grammar**, and decodes integers exactly. -/
theorem parse_total {source : String} {pairs : List Pair}
    (matched : Pair.ofSource? source = some pairs) : TotalOn source pairs where
  stand _ mem := Pair.literal_stands matched mem
  fails_iff := by
    constructor
    · rintro ⟨failure, failed⟩
      obtain ⟨e, failed, _⟩ := parse_eq_error.mp failed
      obtain ⟨l, mem, overflows, _⟩ := Expr.error_of_parse matched failed
      exact ⟨l, mem, overflows⟩
    · rintro ⟨l, mem, overflows⟩
      cases parsed : Expr.parse source with
      | error e => exact ⟨.parse e, parse_eq_error.mpr ⟨e, parsed, rfl⟩⟩
      | ok e => exact absurd overflows (Expr.fits_of_parse matched parsed l mem)
  failure_eq := by
    intro failure failed
    obtain ⟨e, rejected, rfl⟩ := parse_eq_error.mp failed
    obtain ⟨l, mem, overflows, leftmost, rfl⟩ := Expr.error_of_parse matched rejected
    exact ⟨l, mem, overflows, leftmost, rfl⟩
  become _ built := Expr.become_of_parse matched (parse_eq_ok.mp built)
  agrees := parse_eq source

theorem parse_total_of_sum : ∃ pairs, Pair.ofSource? "007L + 2147483648" = some pairs ∧
    TotalOn "007L + 2147483648" pairs :=
  ⟨_, rfl, parse_total rfl⟩

end Builder

end HostExpr
