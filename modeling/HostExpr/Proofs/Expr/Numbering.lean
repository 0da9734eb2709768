import HostExpr.Proofs.Expr.Subtrees
import HostExpr.Proofs.Expr.Totality
import HostExpr.ResolutionCache
import Mathlib.Data.List.Intervals

/-!
The numbers of the nodes of a parsed expression.

A node of any kind is numbered directly after its children, which are numbered one after another
(`Expr.children_of_ofPhrase`). So the numbers of a whole tree, in the order of its subtrees, run
without gaps from the first to the last (`Expr.ids_of_ofPhrase`), and those of a subtree are a
stretch that ends with the number of its root. `Builder.parse_postordered` is the result for
sources: a node is known by its number, and so by a key of the resolution cache.
-/

namespace HostExpr

namespace Expr

/-! ### Numbering a node after its children -/

theorem ofPhrases_single {p : Phrase} {e : Expr} {n m : NodeId} (h : ofPhrase p n = .ok (e, m)) :
    ofPhrases [p] n = .ok ([e], m) := by
  rw [ofPhrases, Numbering.bind_of_ok h]
  rfl

theorem ofPhrases_cons {p : Phrase} {ps : List Phrase} {e : Expr} {es : List Expr} {n m k : NodeId}
    (first : ofPhrase p n = .ok (e, m)) (others : ofPhrases ps m = .ok (es, k)) :
    ofPhrases (p :: ps) n = .ok (e :: es, k) := by
  rw [ofPhrases, Numbering.bind_of_ok first, Numbering.bind_of_ok others]
  rfl

/-- The step from a phrase to a numbered expression: its children come first and from left to
right, and its number is the next. -/
structure NumberedAfter (p : Phrase) (n : NodeId) (e : Expr) (m : NodeId) : Prop where
  children : ofPhrases p.children n = .ok (e.children, e.id)
  next : m = e.id + 1

/-- **A node is numbered after its children**, whatever its kind. -/
theorem children_of_ofPhrase {p : Phrase} {e : Expr} {n m : NodeId}
    (h : ofPhrase p n = .ok (e, m)) : NumberedAfter p n e m := by
  cases p with
  | literal _ s text =>
    rw [ofPhrase] at h
    obtain ⟨value, k, decoded, rest⟩ := Numbering.bind_eq_ok h
    cases rest
    rw [decodeLiteral] at decoded
    split at decoded
    · cases decoded
      exact ⟨rfl, rfl⟩
    · cases decoded
  | «variable» _ s name =>
    rw [ofPhrase] at h
    cases h
    exact ⟨rfl, rfl⟩
  | property _ s name =>
    rw [ofPhrase] at h
    cases h
    exact ⟨rfl, rfl⟩
  | call _ s name args =>
    rw [ofPhrase] at h
    obtain ⟨es, k, numbered, rest⟩ := Numbering.bind_eq_ok h
    cases rest
    exact ⟨numbered, rfl⟩
  | path _ s segments =>
    rw [ofPhrase] at h
    obtain ⟨es, k, numbered, rest⟩ := Numbering.bind_eq_ok h
    cases rest
    exact ⟨numbered, rfl⟩
  | list _ s items =>
    rw [ofPhrase] at h
    obtain ⟨es, k, numbered, rest⟩ := Numbering.bind_eq_ok h
    cases rest
    exact ⟨numbered, rfl⟩
  | unary _ s op operand =>
    rw [ofPhrase] at h
    obtain ⟨e', k, numbered, rest⟩ := Numbering.bind_eq_ok h
    cases rest
    exact ⟨ofPhrases_single numbered, rfl⟩
  | binary _ s op l r =>
    rw [ofPhrase] at h
    obtain ⟨l', k, left, h⟩ := Numbering.bind_eq_ok h
    obtain ⟨r', k', right, rest⟩ := Numbering.bind_eq_ok h
    cases rest
    exact ⟨ofPhrases_cons left (ofPhrases_single right), rfl⟩
  | assign _ s target value =>
    rw [ofPhrase] at h
    obtain ⟨t', k, first, h⟩ := Numbering.bind_eq_ok h
    obtain ⟨v', k', second, rest⟩ := Numbering.bind_eq_ok h
    cases rest
    exact ⟨ofPhrases_cons first (ofPhrases_single second), rfl⟩
  | ternary _ s c t f =>
    rw [ofPhrase] at h
    obtain ⟨c', k, condition, h⟩ := Numbering.bind_eq_ok h
    obtain ⟨t', k', whenTrue, h⟩ := Numbering.bind_eq_ok h
    obtain ⟨f', k'', whenFalse, rest⟩ := Numbering.bind_eq_ok h
    cases rest
    have branches := ofPhrases_cons whenTrue (ofPhrases_single whenFalse)
    exact ⟨ofPhrases_cons condition branches, rfl⟩

/-! ### The numbers of a tree -/

/-- The numbers of all nodes, each after those below it, from left to right. -/
def ids (e : Expr) : List NodeId :=
  e.subtrees.map Tree.id

/-- Phrases are numbered one after another. -/
theorem ids_of_ofPhrases {ps : List Phrase} {es : List Expr} {n m : NodeId}
    (each : ∀ p ∈ ps, ∀ {e : Expr} {n m : NodeId}, ofPhrase p n = .ok (e, m) →
      n ≤ m ∧ e.ids = List.Ico n m)
    (h : ofPhrases ps n = .ok (es, m)) : n ≤ m ∧ es.flatMap ids = List.Ico n m := by
  induction ps generalizing es n with
  | nil =>
    cases h
    exact ⟨Nat.le_refl _, List.Ico.self_empty.symm⟩
  | cons p ps ih =>
    rw [ofPhrases] at h
    obtain ⟨e, k, first, h⟩ := Numbering.bind_eq_ok h
    obtain ⟨es', k', others, rest⟩ := Numbering.bind_eq_ok h
    cases rest
    obtain ⟨le, same⟩ := each p List.mem_cons_self first
    obtain ⟨le', same'⟩ := ih (fun q mem => each q (List.mem_cons_of_mem p mem)) others
    refine ⟨le.trans le', ?_⟩
    rw [List.flatMap_cons, same, same', List.Ico.append_consecutive le le']

/-- **The nodes of a phrase are numbered without gaps**, each after those below it. -/
theorem ids_of_ofPhrase {p : Phrase} {e : Expr} {n m : NodeId} (h : ofPhrase p n = .ok (e, m)) :
    n ≤ m ∧ e.ids = List.Ico n m := by
  induction p using Tree.childInduction generalizing e n m with
  | node p ih =>
    have numbered := children_of_ofPhrase h
    obtain ⟨le, below⟩ := ids_of_ofPhrases (fun q mem => ih q mem) numbered.children
    rw [numbered.next]
    refine ⟨le.trans (Nat.le_succ _), ?_⟩
    calc e.ids
      _ = e.children.flatMap ids ++ [e.id] := by
        rw [ids, Tree.subtrees_eq, List.map_append, List.map_flatMap]
        rfl
      _ = List.Ico n e.id ++ [e.id] := by rw [below]
      _ = List.Ico n (e.id + 1) := (List.Ico.succ_top le).symm

/-! ### The numbers of a parsed expression -/

/-- The nodes are numbered from zero without gaps, each after those below it. -/
structure PostOrdered (e : Expr) : Prop where
  /-- The numbers of all nodes in order are all numbers below their count. -/
  all : e.subtrees.map Tree.id = List.range e.nodeCount
  /-- Those of a subtree are as many as it has nodes, up to the number of its root. -/
  below : ∀ t ∈ e.subtrees, t.nodeCount ≤ t.id + 1 ∧
    t.subtrees.map Tree.id = List.Ico (t.id + 1 - t.nodeCount) (t.id + 1)
  /-- All nodes of a child are numbered before those of the children on its right. -/
  siblings : ∀ t ∈ e.subtrees, t.children.Pairwise fun u v =>
    ∀ x ∈ u.subtrees, ∀ y ∈ v.subtrees, x.id < y.id
  /-- No key of the resolution cache is one of two nodes. -/
  keys : e.subtrees.Pairwise fun t u =>
    ∀ key key' : CacheKey, key.node = t.id → key'.node = u.id → key ≠ key'

/-- A stretch of the numbers from zero on begins as many before its end as it is long. -/
theorem eq_Ico_of_stretch {before after ids : List Nat} {i count : Nat}
    (split : before ++ (ids ++ [i]) ++ after = List.range count) :
    ids.length ≤ i ∧ ids ++ [i] = List.Ico (i - ids.length) (i + 1) := by
  rw [List.range_eq_range', List.append_assoc] at split
  obtain ⟨first, _, _, rest⟩ := List.range'_eq_append_iff.mp split.symm
  obtain ⟨length, _, stretch, _⟩ := List.range'_eq_append_iff.mp rest.symm
  rw [Nat.zero_add, Nat.mul_one] at stretch
  obtain rfl : ids.length + 1 = length := by
    have lengths := congrArg List.length stretch
    rwa [List.length_append, List.length_singleton, List.length_range'] at lengths
  have last : i = first + ids.length := by
    rw [List.range'_concat, Nat.one_mul] at stretch
    exact List.head_eq_of_cons_eq (List.append_inj' stretch rfl).2
  refine ⟨by omega, ?_⟩
  rw [stretch, List.Ico]
  congr 1 <;> omega

/-- Numbers without gaps from zero on are those of a postorder. -/
theorem PostOrdered.of_ids {e : Expr} (ids_eq : e.ids = List.range e.nodeCount) :
    e.PostOrdered where
  all := ids_eq
  below := by
    intro t mem
    obtain ⟨before, after, split⟩ := Tree.infix_of_mem_subtrees mem
    have numbers := congrArg (List.map Tree.id) split
    rw [List.map_append, List.map_append, Tree.subtrees_eq t, List.map_append] at numbers
    obtain ⟨le, stretch⟩ := eq_Ico_of_stretch (numbers.trans ids_eq)
    rw [List.length_map] at le stretch
    rw [Tree.nodeCount_eq, Nat.add_sub_add_right, Tree.subtrees_eq t, List.map_append]
    exact ⟨Nat.add_le_add_right le 1, stretch⟩
  siblings := by
    intro t mem
    have increasing : e.ids.Pairwise (· < ·) := by
      rw [ids_eq]
      exact List.pairwise_lt_range
    have sorted := (List.pairwise_map.mp increasing).sublist
      (Tree.infix_of_mem_subtrees mem).sublist
    rw [Tree.subtrees_eq t, List.pairwise_append] at sorted
    exact (List.pairwise_flatMap.mp sorted.1).2
  keys := by
    have distinct : e.ids.Nodup := by
      rw [ids_eq]
      exact List.nodup_range
    refine (List.pairwise_map.mp distinct).imp ?_
    rintro t u other key key' rfl' of_other rfl
    exact other (rfl'.symm.trans of_other)

/-- A parsed expression is a phrase of the source, decoded and numbered from zero on. -/
theorem exists_phrase_of_parse {source : String} {e : Expr} (parsed : parse source = .ok e) :
    ∃ p m, Phrase.ofSource? source = some p ∧ ofPhrase p 0 = .ok (e, m) := by
  rw [parse] at parsed
  cases read : Phrase.ofSource? source with
  | none =>
    rw [read] at parsed
    cases parsed
  | some p =>
    rw [read] at parsed
    change (ofPhrase p 0).map (·.1) = .ok e at parsed
    cases numbered : ofPhrase p 0 with
    | error failure =>
      rw [numbered] at parsed
      cases parsed
    | ok result =>
      rw [numbered] at parsed
      cases parsed
      exact ⟨p, result.2, rfl, numbered⟩

end Expr

/-- **The nodes of a parsed expression are numbered in a postorder without gaps.** -/
theorem Builder.parse_postordered {source : String} {e : Expr}
    (parsed : Builder.parse source = .ok e) : e.PostOrdered := by
  obtain ⟨p, m, _, numbered⟩ := Expr.exists_phrase_of_parse (parse_eq_ok.mp parsed)
  have all := (Expr.ids_of_ofPhrase numbered).2
  have count : e.nodeCount = m := by
    have lengths := congrArg List.length all
    rwa [Expr.ids, List.length_map, List.Ico.length, Nat.sub_zero] at lengths
  refine .of_ids ?_
  rw [all, count, List.Ico.zero_bot]

/-- The numbers of at most `2 ^ 32` nodes fit 32 bits. -/
theorem Expr.PostOrdered.ids_fit {e : Expr} (h : e.PostOrdered) (few : e.nodeCount ≤ UInt32.size)
    {t : Expr} (mem : t ∈ e.subtrees) : (UInt32.ofNat t.id).toNat = t.id := by
  have numbered : t.id ∈ List.range e.nodeCount := by
    rw [← h.all]
    exact List.mem_map_of_mem mem
  exact UInt32.toNat_ofNat_of_lt ((List.mem_range.mp numbered).trans_le few)

theorem Builder.parse_postordered_of_difference :
    let e : Expr := .binary 4 ⟨0, 9⟩ (.arithmetic .subtract)
      (.unary 1 ⟨0, 2⟩ .minus (.property 0 ⟨1, 2⟩ "a"))
      (.call 3 ⟨5, 9⟩ "f" [.literal 2 ⟨7, 8⟩ (.number (.int 1))])
    Builder.parse "-a - f(1)" = .ok e ∧ e.PostOrdered := by
  intro e
  have parsed : Builder.parse "-a - f(1)" = .ok e := parse_eq_ok.mpr (by rfl)
  exact ⟨parsed, parse_postordered parsed⟩

end HostExpr
