import HostExpr.Proofs.Expr.Induction
import Mathlib.Data.List.Infix

/-!
Subtrees by way of children.

Whatever the kind of its root, a tree's subtrees are those of its children, from left to right, and
the tree itself (`Tree.subtrees_eq`). So the subtrees of a subtree are a stretch of those of the
tree (`Tree.infix_of_mem_subtrees`).
-/

namespace HostExpr.Tree

variable {ι α β : Type}

/-- Induction on trees, with a hypothesis for each child of the root. -/
@[elab_as_elim]
theorem childInduction {P : Tree ι α → Prop} (node : ∀ t, (∀ u ∈ t.children, P u) → P t)
    (t : Tree ι α) : P t := by
  induction t using Tree.induction with
  | literal i s value => exact node _ (List.forall_mem_nil _)
  | var i s name => exact node _ (List.forall_mem_nil _)
  | property i s name => exact node _ (List.forall_mem_nil _)
  | call i s name args each => exact node _ each
  | path i s segments each => exact node _ each
  | binary i s op l r left right =>
    exact node _ (List.forall_mem_cons.mpr ⟨left, List.forall_mem_singleton.mpr right⟩)
  | unary i s op operand ih => exact node _ (List.forall_mem_singleton.mpr ih)
  | ternary i s c t f condition whenTrue whenFalse =>
    refine node _ (List.forall_mem_cons.mpr ⟨condition, ?_⟩)
    exact List.forall_mem_cons.mpr ⟨whenTrue, List.forall_mem_singleton.mpr whenFalse⟩
  | list i s items each => exact node _ each
  | assign i s target value first second =>
    exact node _ (List.forall_mem_cons.mpr ⟨first, List.forall_mem_singleton.mpr second⟩)

theorem subtreesAll_eq_flatMap (ts : List (Tree ι α)) : subtreesAll ts = ts.flatMap subtrees := by
  induction ts with
  | nil => rfl
  | cons t ts ih => exact congrArg (t.subtrees ++ ·) ih

/-- The subtrees of a tree are those of its children and the tree itself. -/
theorem subtrees_eq (t : Tree ι α) : t.subtrees = t.children.flatMap subtrees ++ [t] := by
  cases t <;> simp [subtrees, children, subtreesAll_eq_flatMap]

/-- What is picked from the subtrees of a tree is what is picked below its children and, at the end,
at its root. -/
theorem filterMap_subtrees (pick : Tree ι α → Option β) (t : Tree ι α) :
    t.subtrees.filterMap pick =
      (subtreesAll t.children).filterMap pick ++ (pick t).toList := by
  have root : [t].filterMap pick = (pick t).toList := by
    cases found : pick t with
    | none => exact List.filterMap_cons_none found
    | some b => exact List.filterMap_cons_some found
  rw [subtrees_eq, List.filterMap_append, root, subtreesAll_eq_flatMap]

theorem filterMap_subtreesAll_cons (pick : Tree ι α → Option β) (t : Tree ι α)
    (ts : List (Tree ι α)) :
    (subtreesAll (t :: ts)).filterMap pick =
      t.subtrees.filterMap pick ++ (subtreesAll ts).filterMap pick :=
  List.filterMap_append

/-- The nodes of a tree are those below its children, counted together, and the root. -/
theorem nodeCount_eq (t : Tree ι α) :
    t.nodeCount = (t.children.flatMap subtrees).length + 1 := by
  rw [nodeCount, subtrees_eq, List.length_append, List.length_singleton]

/-- The subtrees of a subtree are a stretch of those of the tree. -/
theorem infix_of_mem_subtrees {t u : Tree ι α} (mem : u ∈ t.subtrees) :
    u.subtrees <:+: t.subtrees := by
  induction t using childInduction with
  | node t ih =>
    rw [subtrees_eq t, List.mem_append, List.mem_singleton] at mem
    rcases mem with below | rfl
    · obtain ⟨child, is_child, within⟩ := List.mem_flatMap.mp below
      have here : child.subtrees <:+: t.children.flatMap subtrees :=
        List.infix_of_mem_flatten (List.mem_map_of_mem is_child)
      rw [subtrees_eq t]
      exact ((ih child is_child within).trans here).trans (List.prefix_append _ _).isInfix
    · exact List.infix_refl _

end HostExpr.Tree
