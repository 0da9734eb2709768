import HostExpr.Expr.Tree

/-!
Going through expression trees.

`Tree.induction` is the induction on trees whose hypothesis for a node with any number of subtrees
is about each of them.
-/

namespace HostExpr

/-- Induction on trees, with a hypothesis for each of several subtrees. -/
@[elab_as_elim]
theorem Tree.induction {ι α : Type} {P : Tree ι α → Prop}
    (literal : ∀ i s value, P (.literal i s value)) (var : ∀ i s name, P (.variable i s name))
    (property : ∀ i s name, P (.property i s name))
    (call : ∀ i s name args, (∀ t ∈ args, P t) → P (.call i s name args))
    (path : ∀ i s segments, (∀ t ∈ segments, P t) → P (.path i s segments))
    (binary : ∀ i s op l r, P l → P r → P (.binary i s op l r))
    (unary : ∀ i s op operand, P operand → P (.unary i s op operand))
    (ternary : ∀ i s c t f, P c → P t → P f → P (.ternary i s c t f))
    (list : ∀ i s items, (∀ t ∈ items, P t) → P (.list i s items))
    (assign : ∀ i s target value, P target → P value → P (.assign i s target value)) : ∀ t, P t
  | .literal i s value => literal i s value
  | .variable i s name => var i s name
  | .property i s name => property i s name
  | .call i s name args => call i s name args (each args)
  | .path i s segments => path i s segments (each segments)
  | .binary i s op l r => binary i s op l r (one l) (one r)
  | .unary i s op operand => unary i s op operand (one operand)
  | .ternary i s c t f => ternary i s c t f (one c) (one t) (one f)
  | .list i s items => list i s items (each items)
  | .assign i s target value => assign i s target value (one target) (one value)
where
  one (t : Tree ι α) : P t :=
    Tree.induction literal var property call path binary unary ternary list assign t
  each : ∀ ts : List (Tree ι α), ∀ t ∈ ts, P t
    | [], _, mem => absurd mem List.not_mem_nil
    | u :: us, t, mem => by
      rcases List.mem_cons.mp mem with same | later
      · rw [same]
        exact one u
      · exact each us t later

end HostExpr
