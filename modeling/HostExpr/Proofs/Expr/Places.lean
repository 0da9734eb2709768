import HostExpr.Proofs.Expr.Slices
import HostExpr.Proofs.Expr.Subtrees

/-!
Trees between two places of a source.

A tree lies between two places if each tree in it covers some characters between them, with its
children inside and one after another (`Lies`). Trees that lie side by side (`Beside`) can be made
the children of a node in two ways: its span goes from the place before them to the place after
them (`Beside.whole`), or only to where the last of them ends (`Beside.joined`).
-/

namespace HostExpr

/-! ### Places -/

theorem byteLength_eq (t : List Char) : byteLength t = (String.ofList t).utf8ByteSize := by
  induction t with
  | nil => rfl
  | cons c cs ih =>
    rw [byteLength, ih, String.ofList_cons, String.utf8ByteSize_append,
      String.utf8ByteSize_singleton]

namespace Cursor

/-- One place comes before another, with a character between them. -/
def StrictlyBefore (c c' : Cursor) : Prop :=
  ∃ t, t ≠ [] ∧ c.Passes t c'

variable {a b c : Cursor}

theorem StrictlyBefore.before (h : a.StrictlyBefore b) : a.Before b := by
  obtain ⟨t, _, passes⟩ := h
  exact ⟨t, passes⟩

theorem StrictlyBefore.offset_lt (h : a.StrictlyBefore b) : a.offset < b.offset := by
  obtain ⟨t, nonempty, passes⟩ := h
  obtain ⟨d, ds, rfl⟩ := List.exists_cons_of_ne_nil nonempty
  have positive := d.utf8Size_pos
  rw [passes.offset, byteLength]
  omega

theorem StrictlyBefore.trans_before (first : a.StrictlyBefore b) (second : b.Before c) :
    a.StrictlyBefore c := by
  obtain ⟨t, nonempty, passes⟩ := first
  obtain ⟨t', passes'⟩ := second
  exact ⟨t ++ t', List.append_ne_nil_of_left_ne_nil nonempty t', passes.trans passes'⟩

theorem Before.trans_strictly (first : a.Before b) (second : b.StrictlyBefore c) :
    a.StrictlyBefore c := by
  obtain ⟨t, passes⟩ := first
  obtain ⟨t', nonempty, passes'⟩ := second
  exact ⟨t ++ t', List.append_ne_nil_of_right_ne_nil t nonempty, passes.trans passes'⟩

/-- The places in a source are within it, and on the boundaries of its characters. -/
theorem Before.of_start {source : String} (h : (start source).Before c) :
    c.offset ≤ source.utf8ByteSize ∧ String.Pos.Raw.IsValid source ⟨c.offset⟩ := by
  obtain ⟨t, text, offset⟩ := h
  have split : source = String.ofList t ++ String.ofList c.rest := by
    rw [← String.ofList_append, ← text]
    exact String.ofList_toList.symm
  have size : c.offset = (String.ofList t).utf8ByteSize := by
    rw [offset, byteLength_eq]
    exact Nat.zero_add _
  rw [size]
  constructor
  · rw [split, String.utf8ByteSize_append]
    exact Nat.le_add_right _ _
  · exact String.Pos.Raw.isValid_iff_exists_append.mpr ⟨_, _, split, rfl⟩

end Cursor

/-! ### Trees between places -/

def Span.Between (s : Span) (c c' : Cursor) : Prop :=
  ∃ a b, c.Before a ∧ a.StrictlyBefore b ∧ b.Before c' ∧ s = ⟨a.offset, b.offset⟩

namespace Span.Between

variable {s : Span} {a b c d : Cursor}

theorem wider (h : s.Between b c) (before : a.Before b) (after : c.Before d) : s.Between a d := by
  obtain ⟨first, last, begins, between, ends, same⟩ := h
  exact ⟨first, last, before.trans begins, between, ends.trans after, same⟩

theorem strictlyBefore (h : s.Between a b) : a.StrictlyBefore b := by
  obtain ⟨first, last, begins, between, ends, -⟩ := h
  exact (begins.trans_strictly between).trans_before ends

theorem offset_le_first (h : s.Between a b) : a.offset ≤ s.first := by
  obtain ⟨first, last, begins, _, _, rfl⟩ := h
  exact begins.offset_le

theorem last_le_offset (h : s.Between a b) : s.last ≤ b.offset := by
  obtain ⟨first, last, _, _, ends, rfl⟩ := h
  exact ends.offset_le

theorem first_lt_last (h : s.Between a b) : s.first < s.last := by
  obtain ⟨first, last, _, between, _, rfl⟩ := h
  exact between.offset_lt

end Span.Between

section Trees

variable {ι α : Type} {t u : Tree ι α} {ts us : List (Tree ι α)} {a b c d : Cursor}

/-- A node between two places, its children within it and one after another. -/
structure Tree.Placed (t : Tree ι α) (c c' : Cursor) : Prop where
  between : t.span.Between c c'
  inside : ∀ s ∈ t.children.map Tree.span, t.span.first ≤ s.first ∧ s.last ≤ t.span.last
  ordered : (t.children.map Tree.span).Pairwise fun s s' => s.last ≤ s'.first

/-- **A tree lies between two places**, as do all trees in it. -/
inductive Lies (c c' : Cursor) : Tree ι α → Prop where
  | node {t : Tree ι α} (here : t.Placed c c') (below : ∀ u ∈ t.children, Lies c c' u) :
    Lies c c' t

namespace Lies

theorem between (h : Lies a b t) : t.span.Between a b := by
  cases h with
  | node here below => exact here.between

theorem before (h : Lies a b t) : a.Before b :=
  h.between.strictlyBefore.before

theorem wider (h : Lies b c t) (before : a.Before b) (after : c.Before d) : Lies a d t := by
  induction h with
  | node here below ih =>
    exact .node ⟨here.between.wider before after, here.inside, here.ordered⟩ ih

/-- All trees in a tree are placed where it lies. -/
theorem placed_of_mem_subtrees (h : Lies a b t) (mem : u ∈ t.subtrees) : u.Placed a b := by
  induction h with
  | @node t here below ih =>
    rw [Tree.subtrees_eq t, List.mem_append, List.mem_singleton] at mem
    rcases mem with below | rfl
    · obtain ⟨child, is_child, within⟩ := List.mem_flatMap.mp below
      exact ih child is_child within
    · exact here

end Lies

structure Beside (c : Cursor) (ts : List (Tree ι α)) (c' : Cursor) : Prop where
  before : c.Before c'
  each : ∀ t ∈ ts, Lies c c' t
  ordered : (ts.map Tree.span).Pairwise fun s s' => s.last ≤ s'.first

namespace Beside

theorem nil (h : a.Before b) : Beside a ([] : List (Tree ι α)) b where
  before := h
  each := List.forall_mem_nil _
  ordered := List.Pairwise.nil

theorem single (h : Lies a b t) : Beside a [t] b where
  before := h.before
  each := List.forall_mem_singleton.mpr h
  ordered := List.pairwise_singleton _ _

theorem append (first : Beside a ts b) (between : b.Before c) (second : Beside c us d) :
    Beside a (ts ++ us) d where
  before := (first.before.trans between).trans second.before
  each := by
    intro t mem
    rcases List.mem_append.mp mem with left | right
    · exact (first.each t left).wider (.refl a) (between.trans second.before)
    · exact (second.each t right).wider (first.before.trans between) (.refl d)
  ordered := by
    rw [List.map_append, List.pairwise_append]
    refine ⟨first.ordered, second.ordered, ?_⟩
    intro s left s' right
    obtain ⟨t, mem, rfl⟩ := List.mem_map.mp left
    obtain ⟨u, mem', rfl⟩ := List.mem_map.mp right
    have ends := (first.each t mem).between.last_le_offset
    have middle := between.offset_le
    have begins := (second.each u mem').between.offset_le_first
    omega

theorem cons (first : Lies a b t) (between : b.Before c) (others : Beside c us d) :
    Beside a (t :: us) d :=
  (single first).append between others

theorem wider (h : Beside b ts c) (before : a.Before b) (after : c.Before d) :
    Beside a ts d where
  before := (before.trans h.before).trans after
  each t mem := (h.each t mem).wider before after
  ordered := h.ordered

/-- A node whose span is all that stands between two places. -/
theorem whole (row : Beside a t.children b) (span : t.span = ⟨a.offset, b.offset⟩)
    (some_char : a.StrictlyBefore b) : Lies a b t := by
  refine .node ⟨⟨a, b, .refl a, some_char, .refl b, span⟩, ?_, row.ordered⟩ row.each
  intro s mem
  obtain ⟨u, child, rfl⟩ := List.mem_map.mp mem
  have between := (row.each u child).between
  rw [span]
  exact ⟨between.offset_le_first, between.last_le_offset⟩

/-- A node whose span ends where that of its last child does. -/
theorem joined (row : Beside a (ts ++ [u]) b) (children : t.children = ts ++ [u])
    (span : t.span = ⟨a.offset, u.span.last⟩) : Lies a b t := by
  rw [← children] at row
  have last := row.each u (by rw [children]; exact List.mem_append_right ts List.mem_cons_self)
  obtain ⟨first, after, begins, between, ends, place⟩ := last.between
  refine .node ⟨⟨a, after, .refl a, begins.trans_strictly between, ends, ?_⟩, ?_, row.ordered⟩
    row.each
  · rw [span, place]
  · intro s mem
    obtain ⟨v, child, rfl⟩ := List.mem_map.mp mem
    rw [span]
    refine ⟨(row.each v child).between.offset_le_first, ?_⟩
    rw [children, List.mem_append, List.mem_singleton] at child
    rcases child with left | rfl
    · have ordered := row.ordered
      rw [children, List.map_append, List.pairwise_append] at ordered
      have apart := ordered.2.2 v.span (List.mem_map_of_mem left) u.span List.mem_cons_self
      exact apart.trans last.between.first_lt_last.le
    · exact Nat.le_refl _

end Beside

end Trees

end HostExpr
