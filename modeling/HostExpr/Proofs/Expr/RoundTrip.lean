import HostExpr.Proofs.Expr.Paths

/-!
Parsing undoes writing.

Whatever is written at a level is read by its reader (`Writes.reads`), by induction on how it is
written. So a text written for an expression parses as the expression, up to the numbers and places
of its nodes (`Writes.parse`).
-/

namespace HostExpr

/-! ### First tokens -/

theorem BinaryOperator.level_rank_lt (op : BinaryOperator) : op.level.rank < Level.unary.rank := by
  cases op with
  | arithmetic op => cases op <;> decide
  | _ => decide

/-- What is written as a member begins with its name. -/
theorem Writes.named {l : Level} {e : Expr} {ts : List Token} (h : Writes l e ts)
    (is_member : l = .member) : ∃ t us, ts = t :: us ∧ IsName t := by
  induction h with
  | property h => exact ⟨_, _, rfl, h⟩
  | call h beside each ih => exact ⟨_, _, rfl, h⟩
  | loosen h ih =>
    subst is_member
    exact ih rfl
  | @binary i s op t l r ls rs left spelled right ihl ihr =>
    have lt := op.level_rank_lt
    rw [is_member] at lt
    exact absurd lt (by decide)
  | _ => cases is_member

/-- A path begins with no sign. -/
theorem Writes.opens {l : Level} {e : Expr} {ts : List Token} (h : Writes l e ts)
    (tight : Level.path.rank ≤ l.rank) : ∃ t us, ts = t :: us ∧ Opens t := by
  induction h with
  | literal written => exact ⟨_, _, rfl, written.opens⟩
  | «variable» h => exact ⟨_, _, rfl, .mark (by decide)⟩
  | property h => exact ⟨_, _, rfl, h.opens⟩
  | call h beside each ih => exact ⟨_, _, rfl, h.opens⟩
  | list beside each ih => exact ⟨_, _, rfl, .mark (by decide)⟩
  | parentheses inner ih => exact ⟨_, _, rfl, .mark (by decide)⟩
  | path first nonempty beside each ih ihEach =>
    obtain ⟨t, us, rfl, opens⟩ := ih (by decide)
    exact ⟨t, _, rfl, opens⟩
  | unary spelled inner ih => exact absurd tight (by decide)
  | @binary i s op t l r ls rs left spelled right ihl ihr =>
    have lt := op.level_rank_lt
    simp only [Level.rank] at lt tight
    omega
  | ternary => exact absurd tight (by decide)
  | assign => exact absurd tight (by decide)
  | @loosen l e ts h ih => exact ih (Nat.le_trans tight l.rank_le_tighter)

/-! ### Tokens that are laid out -/

theorem solid_of_word {t : Token} (chars : t.all Lexeme.isNameChar) (nonempty : t ≠ []) :
    Solid t := by
  cases t with
  | nil => exact absurd rfl nonempty
  | cons d ds =>
    refine ⟨d, ds, rfl, Bool.eq_false_iff.mpr fun space => ?_⟩
    simp [isNameChar_of_isSpace space] at chars

theorem Opens.solid {t : Token} (h : Opens t) : Solid t := by
  cases h with
  | word chars nonempty noSign => exact solid_of_word chars nonempty
  | mark h =>
    simp only [List.mem_cons, List.not_mem_nil, or_false] at h
    rcases h with rfl | rfl | rfl | rfl | rfl <;> exact ⟨_, _, rfl, rfl⟩

theorem BinaryOperator.Spelled.solid {op : BinaryOperator} {t : Token} (h : op.Spelled t) :
    Solid t := by
  rcases h with rfl | ⟨w, word, lower⟩
  · cases op with
    | arithmetic op => cases op <;> exact ⟨_, _, rfl, rfl⟩
    | _ => exact ⟨_, _, rfl, rfl⟩
  · obtain ⟨chars, nonempty⟩ := op.chars_of_lowered word lower
    exact solid_of_word chars nonempty

theorem UnaryOperator.Spelled.solid {op : UnaryOperator} {t : Token} (h : op.Spelled t) :
    Solid t := by
  rcases h with rfl | ⟨w, word, lower⟩
  · cases op <;> exact ⟨_, _, rfl, rfl⟩
  · cases op with
    | not =>
      cases word
      refine solid_of_word (all_isNameChar_of_lowered lower (by decide)) ?_
      rintro rfl
      exact absurd lower (by decide)
    | _ => cases word

/-- Pieces beside trees are solid if each one is. -/
theorem solid_of_zip {es : List Expr} {pieces : List (List Token)}
    (beside : es.length = pieces.length) (each : ∀ p ∈ es.zip pieces, ∀ t ∈ p.2, Solid t)
    {piece : List Token} (mem : piece ∈ pieces) : ∀ t ∈ piece, Solid t := by
  rw [← List.map_snd_zip (Nat.le_of_eq beside.symm)] at mem
  obtain ⟨p, pair, rfl⟩ := List.mem_map.mp mem
  exact each p pair

theorem solid_of_flatMap {mark : Token} (solid : Solid mark) {pieces : List (List Token)}
    (each : ∀ piece ∈ pieces, ∀ t ∈ piece, Solid t) :
    ∀ t ∈ pieces.flatMap (mark :: ·), Solid t := by
  intro t mem
  obtain ⟨piece, inside, mem⟩ := List.mem_flatMap.mp mem
  rcases List.mem_cons.mp mem with rfl | mem
  · exact solid
  · exact each piece inside t mem

theorem solid_of_separated {pieces : List (List Token)}
    (each : ∀ piece ∈ pieces, ∀ t ∈ piece, Solid t) : ∀ t ∈ separated pieces, Solid t := by
  cases pieces with
  | nil => exact nofun
  | cons piece pieces =>
    intro t mem
    rw [separated_cons] at mem
    rcases List.mem_append.mp mem with mem | mem
    · exact each piece List.mem_cons_self t mem
    · exact solid_of_flatMap ⟨_, _, rfl, rfl⟩
        (fun piece inside => each piece (List.mem_cons_of_mem _ inside)) t mem

/-- Every token that is written begins with a character that is no space. -/
theorem Writes.solid {l : Level} {e : Expr} {ts : List Token} (h : Writes l e ts) :
    ∀ t ∈ ts, Solid t := by
  have mark {d : Char} (h : Lexeme.isSpace d = false) : Solid [d] := ⟨d, [], rfl, h⟩
  induction h with
  | literal written => exact List.forall_mem_singleton.mpr written.opens.solid
  | «variable» h => exact List.forall_mem_singleton.mpr ⟨_, _, rfl, rfl⟩
  | property h => exact List.forall_mem_singleton.mpr h.opens.solid
  | call h beside each ih =>
    simp only [List.cons_append, List.forall_mem_cons, List.forall_mem_append]
    exact ⟨h.opens.solid, mark rfl,
      solid_of_separated fun piece => solid_of_zip beside ih, mark rfl, nofun⟩
  | list beside each ih =>
    simp only [List.cons_append, List.forall_mem_cons, List.forall_mem_append]
    exact ⟨mark rfl, solid_of_separated fun piece => solid_of_zip beside ih, mark rfl, nofun⟩
  | parentheses inner ih =>
    simp only [List.cons_append, List.forall_mem_cons, List.forall_mem_append]
    exact ⟨mark rfl, ih, mark rfl, nofun⟩
  | path first nonempty beside each ih ihEach =>
    rw [List.forall_mem_append]
    exact ⟨ih, solid_of_flatMap (mark rfl) fun piece => solid_of_zip beside ihEach⟩
  | unary spelled inner ih => exact List.forall_mem_cons.mpr ⟨spelled.solid, ih⟩
  | binary left spelled right ihl ihr =>
    rw [List.forall_mem_append, List.forall_mem_cons]
    exact ⟨ihl, spelled.solid, ihr⟩
  | ternary condition whenTrue whenFalse ihc iht ihf =>
    simp only [List.cons_append, List.append_assoc, List.forall_mem_cons, List.forall_mem_append]
    exact ⟨ihc, mark rfl, iht, mark rfl, ihf⟩
  | assign left right ihl ihr =>
    rw [List.forall_mem_append, List.forall_mem_cons]
    exact ⟨ihl, mark rfl, ihr⟩
  | loosen h ih => exact ih

/-! ### Reading what is written -/

/-- The operators of a level are relations, or group to the left. -/
theorem BinaryOperator.level_chains (op : BinaryOperator) :
    op.level = .relation ∨ op.level.chains := by
  cases op with
  | arithmetic op => cases op <;> exact .inr rfl
  | or => exact .inr rfl
  | and => exact .inr rfl
  | _ => exact .inl rfl

/-- **What is written at a level is read by its reader.** -/
theorem Writes.reads {l : Level} {e : Expr} {ts : List Token} (h : Writes l e ts) :
    Reads l e ts ∧ (l.chains → Extends l e ts) := by
  induction h with
  | literal written => exact ⟨.literal written, nofun⟩
  | «variable» h => exact ⟨.variable h, nofun⟩
  | property h => exact ⟨.property h, nofun⟩
  | call h beside each ih => exact ⟨.call h beside fun p mem => (ih p mem).1, nofun⟩
  | list beside each ih => exact ⟨.list beside fun p mem => (ih p mem).1, nofun⟩
  | parentheses inner ih => exact ⟨.parentheses ih.1, nofun⟩
  | path first nonempty beside each ih ihEach =>
    exact ⟨.path ih.1 nonempty beside fun p mem => (ihEach p mem).1, nofun⟩
  | unary spelled inner ih => exact ⟨.unary spelled ih.1, nofun⟩
  | @binary i s op t d e ls rs left spelled right ihl ihr =>
    -- Relations do not chain, so both operands are sums; the others go on from what stands before.
    rcases op.level_chains with level | chains
    · have leftLevel : op.leftLevel = .sum := if_pos level
      have rightLevel : op.level.tighter = .sum := by rw [level]; rfl
      rw [leftLevel] at ihl
      rw [rightLevel] at ihr
      rw [level]
      exact ⟨.relation ihl.1 spelled ihr.1 level, nofun⟩
    · have leftLevel : op.leftLevel = op.level :=
        if_neg fun level => by rw [level] at chains; cases chains
      rw [leftLevel] at ihl
      have grouped : Extends op.level (.binary i s op d e) (ls ++ t :: rs) :=
        .binary (ihl.2 chains) spelled ihr.1 chains
      exact ⟨grouped.reads, fun _ => grouped⟩
  | ternary condition whenTrue whenFalse ihc iht ihf => exact ⟨.ternary ihc.1 iht.1 ihf.1, nofun⟩
  | assign left right ihl ihr => exact ⟨.assign ihl.1 ihr.1, nofun⟩
  | @loosen l e ts h ih =>
    -- Each reader adds nothing of its own to what the next tighter one has read.
    cases l with
    | assignment => exact ⟨.no_assignment ih.1, nofun⟩
    | relation => exact ⟨.no_relation ih.1, nofun⟩
    | unary => exact ⟨.no_sign (h.opens (Nat.le_refl _)) ih.1, nofun⟩
    | path => exact ⟨.no_segment ih.1, nofun⟩
    | atom => exact ⟨.no_atom (h.named rfl) ih.1, nofun⟩
    | member => exact ih
    | or | and | sum | product =>
      have grouped := Reads.extends rfl ih.1
      exact ⟨grouped.reads, fun _ => grouped⟩

def spread (ts : List Token) : List Char :=
  ts.flatMap (· ++ [' '])

theorem spaced_spread (ts : List Token) : Spaced ts (spread ts) := by
  induction ts with
  | nil => exact .nil
  | cons t ts ih =>
    have text : spread (t :: ts) = t ++ ([' '] ++ spread ts) := by simp [spread]
    rw [text]
    exact .cons rfl (fun _ => nofun) ih

/-- **A text written for an expression parses as it**, up to the numbers and places of nodes. -/
theorem Writes.parse {e : Expr} {ts : List Token} (h : Writes .assignment e ts)
    {lead text : List Char} (spaces : lead.all Lexeme.isSpace) (spaced : Spaced ts text) :
    ∃ e', Expr.parse (String.ofList (lead ++ text)) = .ok e' ∧ e'.bare = e.bare := by
  have laid := spaced.laid h.solid
  have each : ∀ c ∈ lead, Lexeme.isSpace c := List.all_eq_true.mp spaces
  have at_text : (Cursor.start (String.ofList (lead ++ text))).skip.rest = text := by
    rw [Cursor.skip, Cursor.start]
    dsimp only
    rw [String.toList_ofList, List.dropWhile_append_of_pos each, laid.dropWhile]
  generalize String.ofList (lead ++ text) = source at at_text
  have le := (Cursor.start source).length_skip_le
  rw [← List.append_nil ts, ← at_text] at laid
  have closes : Closes .assignment [] := nofun
  obtain ⟨p, last, read, decodes, others, -⟩ := h.reads.1.nested closes laid (Nat.lt_succ_of_le le)
  have at_end : last.skip.rest = [] := by
    generalize last.skip.rest = cs at others
    cases others
    rfl
  have phrase : Phrase.ofSource? source = some p := by
    rw [Phrase.ofSource?, read]
    exact if_pos at_end
  obtain ⟨e', m, decoded, same⟩ := decodes 0
  refine ⟨e', ?_, same⟩
  rw [Expr.parse, phrase, Option.elim_some, show (Expr.ofPhrase p).run 0 = _ from decoded]
  rfl

/-- What is written as the same tokens is the same expression. -/
theorem Writes.unambiguous {d e : Expr} {ts : List Token} (hd : Writes .assignment d ts)
    (he : Writes .assignment e ts) : d.bare = e.bare := by
  have no_lead : ([] : List Char).all Lexeme.isSpace := rfl
  obtain ⟨d', parsed, same⟩ := hd.parse no_lead (spaced_spread ts)
  obtain ⟨e', parsed', same'⟩ := he.parse no_lead (spaced_spread ts)
  rw [parsed] at parsed'
  cases parsed'
  exact same.symm.trans same'

/-- **Parsing undoes writing for the whole language.** Every tree can be written, and however it is
written, with whatever spaces, the text parses as the tree. -/
theorem Expr.Expressible.parse_written {e : Expr} (h : e.Expressible) :
    (∃ ts text, Writes .assignment e ts ∧ Spaced ts text) ∧
      ∀ (ts : List Token) (lead text : List Char), Writes .assignment e ts →
        lead.all Lexeme.isSpace → Spaced ts text →
        ∃ e', Expr.parse (String.ofList (lead ++ text)) = .ok e' ∧ e'.bare = e.bare := by
  constructor
  · obtain ⟨ts, written⟩ := h.exists_writes.1
    exact ⟨ts, spread ts, written.at_looser (Nat.zero_le _), spaced_spread ts⟩
  · intro ts lead text written spaces spaced
    exact written.parse spaces spaced

/-- A choice as a target stands in parentheses. -/
theorem parse_written_of_choice_as_target :
    let target : Expr := .ternary 0 ⟨0, 0⟩ (.variable 0 ⟨0, 0⟩ "a")
      (.literal 0 ⟨0, 0⟩ (.number (.int 1))) (.property 0 ⟨0, 0⟩ "b")
    let value : Expr := .unary 0 ⟨0, 0⟩ .not
      (.path 0 ⟨0, 0⟩ [.property 0 ⟨0, 0⟩ "c", .call 0 ⟨0, 0⟩ "d" []])
    let e : Expr := .assign 0 ⟨0, 0⟩ target value
    let ts : List Token := ["(", "#a", "?", "1", ":", "b", ")", "=", "NOT", "c", ".", "d", "(",
      ")"].map String.toList
    ∃ e', Expr.parse (String.ofList (['\t'] ++ spread ts)) = .ok e' ∧ e'.bare = e.bare := by
  intro target value e ts
  have a : IsName "a".toList := ⟨⟨'a', rfl, rfl⟩, rfl, by decide⟩
  have b : IsName "b".toList := ⟨⟨'b', rfl, rfl⟩, rfl, by decide⟩
  have c : IsName "c".toList := ⟨⟨'c', rfl, rfl⟩, rfl, by decide⟩
  have d : IsName "d".toList := ⟨⟨'d', rfl, rfl⟩, rfl, by decide⟩
  have one : (Literal.number (.int 1)).Writes "1".toList := .int (by decide) rfl (by decide)
  have expressible : e.Expressible := by
    have plain : (Literal.number (.int 1)).Plain := Int.zero_le_ofNat 1
    refine .assign (.ternary (.variable a) (.literal plain) (.property b))
      (.unary (.path (.property c) nofun ?_ ?_))
    · exact List.forall_mem_singleton.mpr (.call d nofun)
    · exact List.forall_mem_singleton.mpr rfl
  have written_target : Writes .atom target _ :=
    .parentheses (.ternary ((Writes.variable a).at_looser (by decide))
      ((Writes.literal one).at_looser (by decide)) ((Writes.property b).at_looser (by decide)))
  have noArguments : ∀ p ∈ ([] : List Expr).zip [], Writes .assignment p.1 p.2 := nofun
  have call : Writes .member (.call 0 ⟨0, 0⟩ "d" []) ["d".toList, ['('], [')']] :=
    .call d rfl noArguments
  have path : Writes .path (.path 0 ⟨0, 0⟩ [.property 0 ⟨0, 0⟩ "c", .call 0 ⟨0, 0⟩ "d" []])
      (["c".toList] ++ [["d".toList, ['('], [')']]].flatMap (['.'] :: ·)) := by
    refine .path (.loosen (.property c)) nofun rfl ?_
    rintro p mem
    rw [List.mem_singleton.mp mem]
    exact call
  have spelled : UnaryOperator.not.Spelled "NOT".toList := .inr ⟨"not", rfl, by decide⟩
  have written_value : Writes .unary value _ := .unary spelled (.loosen path)
  have written : Writes .assignment e ts :=
    .assign (written_target.at_looser (by decide)) (written_value.at_looser (by decide))
  exact expressible.parse_written.2 ts ['\t'] _ written rfl (spaced_spread ts)

end HostExpr
