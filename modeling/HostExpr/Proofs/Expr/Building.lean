import HostExpr.Expr.Builder
import HostExpr.Proofs.Expr.Slices
import HostExpr.Proofs.Expr.Subtrees
import Mathlib.Data.List.Forall2

/-!
What the builder makes of pairs.

A pair stands for a phrase (`Builder.Stands`) if building it is decoding and numbering the phrase.
Every production has its lemma: with pairs in it that stand for phrases, its match stands for the
phrase that is put together from them. None of the builder's unexpected states is involved, as
decoding and numbering have none.
-/

namespace HostExpr

variable {α β : Type}

/-! ### Literals of a tree -/

namespace Tree

variable {ι : Type}

/-- The literal that the root node is, with its place. -/
def literal? : Tree ι α → Option (Span × α)
  | .literal _ s value => some (s, value)
  | _ => none

def literals (t : Tree ι α) : List (Span × α) :=
  t.subtrees.filterMap literal?

def literalsAll (ts : List (Tree ι α)) : List (Span × α) :=
  (subtreesAll ts).filterMap literal?

@[simp] theorem literalsAll_nil : literalsAll ([] : List (Tree ι α)) = [] := rfl

@[simp] theorem literalsAll_cons (t : Tree ι α) (ts : List (Tree ι α)) :
    literalsAll (t :: ts) = t.literals ++ literalsAll ts :=
  filterMap_subtreesAll_cons literal? t ts

/-- The literals of a tree are those of its children or, if it is a literal, its own. -/
theorem literals_eq (t : Tree ι α) : t.literals = literalsAll t.children ++ t.literal?.toList :=
  filterMap_subtrees literal? t

@[simp] theorem literals_literal (i : ι) (s : Span) (value : α) :
    (Tree.literal i s value).literals = [(s, value)] := rfl

@[simp] theorem literals_variable (i : ι) (s : Span) (name : String) :
    (Tree.variable i s name : Tree ι α).literals = [] := rfl

@[simp] theorem literals_property (i : ι) (s : Span) (name : String) :
    (Tree.property i s name : Tree ι α).literals = [] := rfl

@[simp] theorem literals_call (i : ι) (s : Span) (name : String) (args : List (Tree ι α)) :
    (Tree.call i s name args).literals = literalsAll args := by
  have parts : (Tree.call i s name args).literals = literalsAll args ++ [] := literals_eq _
  simpa using parts

@[simp] theorem literals_path (i : ι) (s : Span) (segments : List (Tree ι α)) :
    (Tree.path i s segments).literals = literalsAll segments := by
  have parts : (Tree.path i s segments).literals = literalsAll segments ++ [] := literals_eq _
  simpa using parts

@[simp] theorem literals_binary (i : ι) (s : Span) (op : BinaryOperator) (l r : Tree ι α) :
    (Tree.binary i s op l r).literals = l.literals ++ r.literals := by
  have parts : (Tree.binary i s op l r).literals = literalsAll [l, r] ++ [] := literals_eq _
  simpa using parts

@[simp] theorem literals_unary (i : ι) (s : Span) (op : UnaryOperator) (t : Tree ι α) :
    (Tree.unary i s op t).literals = t.literals := by
  have parts : (Tree.unary i s op t).literals = literalsAll [t] ++ [] := literals_eq _
  simpa using parts

@[simp] theorem literals_ternary (i : ι) (s : Span) (c t f : Tree ι α) :
    (Tree.ternary i s c t f).literals = c.literals ++ t.literals ++ f.literals := by
  have parts : (Tree.ternary i s c t f).literals = literalsAll [c, t, f] ++ [] := literals_eq _
  simpa using parts

@[simp] theorem literals_list (i : ι) (s : Span) (items : List (Tree ι α)) :
    (Tree.list i s items).literals = literalsAll items := by
  have parts : (Tree.list i s items).literals = literalsAll items ++ [] := literals_eq _
  simpa using parts

@[simp] theorem literals_assign (i : ι) (s : Span) (t v : Tree ι α) :
    (Tree.assign i s t v).literals = t.literals ++ v.literals := by
  have parts : (Tree.assign i s t v).literals = literalsAll [t, v] ++ [] := literals_eq _
  simpa using parts

end Tree

/-! ### Numbering as building -/

namespace Expr

/-- Whatever a step of numbering gives has a property. -/
def Gives (a : Numbering α) (P : α → Prop) : Prop :=
  ∀ ⦃n r⦄, a n = .ok r → P r.1

theorem Gives.after {a : Numbering α} {f : α → Numbering β} {P : β → Prop}
    (h : ∀ x, Gives (f x) P) : Gives (a >>= f) P := by
  intro n r gave
  obtain ⟨x, m, _, rest⟩ := Numbering.bind_eq_ok gave
  exact h x rest

theorem Gives.node {e : NodeId → Expr} {P : Expr → Prop} (h : ∀ id, P (e id)) :
    Gives (do return e (← nextId)) P := by
  intro n r gave
  cases gave
  exact h n

/-- Decoding and numbering leaves the place of a node. -/
theorem span_of_ofPhrase (p : Phrase) : Gives (ofPhrase p) (·.span = p.span) := by
  cases p with
  | literal =>
    rw [ofPhrase]
    exact .after fun _ => .node fun _ => rfl
  | «variable» =>
    rw [ofPhrase]
    exact .node fun _ => rfl
  | property =>
    rw [ofPhrase]
    exact .node fun _ => rfl
  | call =>
    rw [ofPhrase]
    exact .after fun _ => .node fun _ => rfl
  | path =>
    rw [ofPhrase]
    exact .after fun _ => .node fun _ => rfl
  | binary =>
    rw [ofPhrase]
    exact .after fun _ => .after fun _ => .node fun _ => rfl
  | unary =>
    rw [ofPhrase]
    exact .after fun _ => .node fun _ => rfl
  | ternary =>
    rw [ofPhrase]
    exact .after fun _ => .after fun _ => .after fun _ => .node fun _ => rfl
  | list =>
    rw [ofPhrase]
    exact .after fun _ => .node fun _ => rfl
  | assign =>
    rw [ofPhrase]
    exact .after fun _ => .after fun _ => .node fun _ => rfl

end Expr

def LiteralText.Found (t : LiteralText) : Prop :=
  ∃ cs rest, Lexeme.literal cs = some (t.kind, t.chars, rest)

namespace Builder

def lift (a : Expr.Numbering α) : Building α := fun n =>
  (a n).mapError .parse

theorem lift_bind (a : Expr.Numbering α) (f : α → Expr.Numbering β) :
    lift (a >>= f) = lift a >>= fun x => lift (f x) := by
  funext n
  show ((a n).bind fun r => f r.1 r.2).mapError BuildFailure.parse =
    ((a n).mapError BuildFailure.parse).bind fun r => (f r.1 r.2).mapError BuildFailure.parse
  cases a n with
  | error e => rfl
  | ok r => rfl

/-- What is built on may count on the place of the node. -/
theorem lift_ofPhrase_bind {q : Phrase} {f g : Expr → Building β}
    (same : ∀ e, e.span = q.span → f e = g e) :
    lift (Expr.ofPhrase q) >>= f = lift (Expr.ofPhrase q) >>= g := by
  funext n
  show ((Expr.ofPhrase q n).mapError BuildFailure.parse).bind (fun r => f r.1 r.2) =
    ((Expr.ofPhrase q n).mapError BuildFailure.parse).bind fun r => g r.1 r.2
  cases numbered : Expr.ofPhrase q n with
  | error e => rfl
  | ok r =>
    show f r.1 r.2 = g r.1 r.2
    rw [same r.1 (Expr.span_of_ofPhrase q numbered)]

/-- Building a pair is decoding and numbering a phrase, which has the same literals. -/
structure Stands (p : Pair) (q : Phrase) : Prop where
  build : build p = lift (Expr.ofPhrase q)
  literals : Pair.literals [p] = q.literals
  found : ∀ l ∈ q.literals, l.2.Found

/-! ### Pairs side by side -/

variable {p : Pair} {q : Phrase} {ps : List Pair} {qs : List Phrase}

abbrev StandEach (ps : List Pair) (qs : List Phrase) : Prop :=
  List.Forall₂ Stands ps qs

theorem literals_cons (p : Pair) (ps : List Pair) :
    Pair.literals (p :: ps) = Pair.literals [p] ++ Pair.literals ps :=
  Pair.literals_append [p] ps

theorem StandEach.build (h : StandEach ps qs) :
    buildEach (parts ps) = lift (Expr.ofPhrases qs) := by
  induction h with
  | nil => rfl
  | @cons p q ps qs first _ ih =>
    rw [buildEach, parts, List.mapM_cons, Expr.ofPhrases, lift_bind, ← first.build]
    simp only [lift_bind, ← ih]
    rfl

theorem StandEach.literals (h : StandEach ps qs) : Pair.literals ps = Tree.literalsAll qs := by
  induction h with
  | nil => rfl
  | cons first _ ih => rw [literals_cons, Tree.literalsAll_cons, first.literals, ih]

theorem StandEach.found (h : StandEach ps qs) : ∀ l ∈ Tree.literalsAll qs, l.2.Found := by
  induction h with
  | nil =>
    intro l mem
    cases mem
  | cons first _ ih =>
    intro l mem
    rw [Tree.literalsAll_cons, List.mem_append] at mem
    rcases mem with left | right
    · exact first.found l left
    · exact ih l right

/-! ### Nodes -/

variable {r : Rule} {s : Span} {t : List Char}

/-- A match with a single pair in it that leaves no node stands for what the pair stands for. -/
theorem Stands.wrap (h : Stands p q) (noLiteral : r.literalKind? = none)
    (passes : assemble (.mk r s t [p]) (parts [p]) = Builder.build p) :
    Stands (.mk r s t [p]) q where
  build := by rw [Builder.build, passes, h.build]
  literals := by rw [Pair.literals_of_none noLiteral, h.literals]
  found := h.found

theorem Stands.list (h : StandEach ps qs) : Stands (.mk .inlineList s t ps) (.list () s qs) where
  build := by
    rw [Builder.build, Expr.ofPhrase, lift_bind, ← h.build]
    rfl
  literals := by rw [Pair.literals_of_none rfl, h.literals, Tree.literals_list]
  found := by
    rw [Tree.literals_list]
    exact h.found

theorem Stands.call (h : StandEach ps qs) (s' : Span) (name : List Char) :
    Stands (.mk .methodCall s t (.mk .identifier s' name [] :: ps))
      (.call () s (String.ofList name) qs) where
  build := by
    rw [Builder.build, Expr.ofPhrase, lift_bind, ← h.build]
    rfl
  literals := by
    rw [Pair.literals_of_none rfl, literals_cons, h.literals, Tree.literals_call]
    rfl
  found := by
    rw [Tree.literals_call]
    exact h.found

theorem Stands.property (s' : Span) (name : List Char) :
    Stands (.mk .property s t [.mk .identifier s' name []])
      (.property () s (String.ofList name)) where
  build := by
    rw [Builder.build, Expr.ofPhrase]
    rfl
  literals := rfl
  found := by
    intro l mem
    cases mem

theorem Stands.variable (s' : Span) (name : List Char) :
    Stands (.mk .variable s t [.mk .identifier s' name []])
      (.variable () s (String.ofList name)) where
  build := by
    rw [Builder.build, Expr.ofPhrase]
    rfl
  literals := rfl
  found := by
    intro l mem
    cases mem

theorem Stands.path {p' : Pair} {q' : Phrase} (first : Stands p q) (second : Stands p' q')
    (others : StandEach ps qs) :
    Stands (.mk .primary s t (p :: p' :: ps)) (.path () s (q :: q' :: qs)) where
  build := by
    have each : StandEach (p :: p' :: ps) (q :: q' :: qs) := .cons first (.cons second others)
    rw [Builder.build, Expr.ofPhrase, lift_bind, ← each.build]
    show buildPrimary _ _ = _
    simp only [buildPrimary, buildEach, parts, List.mapM_cons, bind_assoc, pure_bind]
    rfl
  literals := by
    have each : StandEach (p :: p' :: ps) (q :: q' :: qs) := .cons first (.cons second others)
    rw [Pair.literals_of_none rfl, each.literals, Tree.literals_path]
  found := by
    have each : StandEach (p :: p' :: ps) (q :: q' :: qs) := .cons first (.cons second others)
    rw [Tree.literals_path]
    exact each.found

theorem Stands.assign {p' : Pair} {q' : Phrase} (target : Stands p q) (value : Stands p' q') :
    Stands (.mk .assignment s t [p, p']) (.assign () s q q') where
  build := by
    rw [Builder.build, Expr.ofPhrase, lift_bind, ← target.build]
    simp only [lift_bind, ← value.build]
    rfl
  literals := by
    rw [Pair.literals_of_none rfl, literals_cons, target.literals, value.literals,
      Tree.literals_assign]
  found := by
    intro l mem
    rw [Tree.literals_assign, List.mem_append] at mem
    rcases mem with left | right
    · exact target.found l left
    · exact value.found l right

theorem Stands.ternary {p' p'' : Pair} {q' q'' : Phrase} (condition : Stands p q)
    (whenTrue : Stands p' q') (whenFalse : Stands p'' q'') :
    Stands (.mk .ternary s t [p, p', p'']) (.ternary () s q q' q'') where
  build := by
    rw [Builder.build, Expr.ofPhrase, lift_bind, ← condition.build]
    simp only [lift_bind, ← whenTrue.build, ← whenFalse.build]
    rfl
  literals := by
    have each : StandEach [p, p', p''] [q, q', q''] :=
      .cons condition (.cons whenTrue (.cons whenFalse .nil))
    rw [Pair.literals_of_none rfl, each.literals]
    simp
  found := by
    have each : StandEach [p, p', p''] [q, q', q''] :=
      .cons condition (.cons whenTrue (.cons whenFalse .nil))
    simpa using each.found

/-- A literal other than a quoted text. -/
theorem Stands.literal {kind : Lexeme.Kind} (is_kind : r.literalKind? = some kind)
    (bare : ∀ quote, kind ≠ .quoted quote) (found : LiteralText.Found ⟨kind, t⟩) :
    Stands (.mk r s t []) (.literal () s ⟨kind, t⟩) where
  build := by
    have same : decoded kind (.mk r s t []) = lift (Expr.decodeLiteral s ⟨kind, t⟩) := by
      funext n
      show _ = (Expr.decodeLiteral s ⟨kind, t⟩ n).mapError BuildFailure.parse
      rw [decoded, Expr.decodeLiteral, Pair.text]
      cases (LiteralText.mk kind t).decode with
      | ok l => rfl
      | error fault => rfl
    rw [Builder.build, Expr.ofPhrase, lift_bind, ← same]
    cases r <;> cases is_kind
    all_goals first | rfl | exact absurd rfl (bare _)
  literals := by rw [Pair.literals_of_some is_kind s t rfl, Tree.literals_literal]
  found := by
    intro l mem
    rw [Tree.literals_literal, List.mem_singleton] at mem
    rw [mem]
    exact found

/-- A quoted text. -/
theorem Stands.quoted {quote : Char} {body : Rule} {s' : Span} {t : List Char}
    (is_kind : r.literalKind? = some (.quoted quote)) (noLiteral : body.literalKind? = none)
    (found : LiteralText.Found ⟨.quoted quote, quote :: t ++ [quote]⟩) :
    Stands (.mk r s (quote :: t ++ [quote]) [.mk body s' t []])
      (.literal () s ⟨.quoted quote, quote :: t ++ [quote]⟩) where
  build := by
    have content : LiteralText.content quote (quote :: t ++ [quote]) =
        LiteralText.undouble quote t := by
      rw [LiteralText.content, List.cons_append, List.drop_one, List.tail_cons,
        List.dropLast_concat]
    have decodes : (LiteralText.mk (.quoted quote) (quote :: t ++ [quote])).decode =
        .ok (.string (String.ofList (LiteralText.undouble quote t))) := by
      rw [← content]
      rfl
    have same : lift (Expr.decodeLiteral s ⟨.quoted quote, quote :: t ++ [quote]⟩) =
        pure (.string (String.ofList (LiteralText.undouble quote t))) := by
      funext n
      show (Expr.decodeLiteral s ⟨.quoted quote, quote :: t ++ [quote]⟩ n).mapError
        BuildFailure.parse = _
      rw [Expr.decodeLiteral, decodes]
      rfl
    rw [Builder.build, Expr.ofPhrase, lift_bind, same]
    cases r <;> cases is_kind
    all_goals rfl
  literals := by
    have alone : Pair.literals [.mk body s' t []] = [] := Pair.literals_of_none noLiteral s' t []
    rw [Pair.literals_of_some is_kind s _ alone, Tree.literals_literal]
  found := by
    intro l mem
    rw [Tree.literals_literal, List.mem_singleton] at mem
    rw [mem]
    exact found

/-! ### Operands between operators -/

/-- Operators and operands after a phrase on their left make another phrase. -/
structure Joins (first : Nat) (ps : List Pair) (left result : Phrase) : Prop where
  build : lift (Expr.ofPhrase result) =
    lift (Expr.ofPhrase left) >>= joinOperands first (parts ps)
  literals : result.literals = left.literals ++ Pair.literals ps
  found : (∀ l ∈ left.literals, l.2.Found) → ∀ l ∈ result.literals, l.2.Found

variable {first : Nat} {left result : Phrase} {op : BinaryOperator} {o : Pair}

theorem Joins.nil (first : Nat) (left : Phrase) : Joins first [] left left where
  build := (bind_pure _).symm
  literals := (List.append_nil _).symm
  found h := h

theorem Joins.cons (known : operatorOf binaryOperators o = some op)
    (noLiterals : Pair.literals [o] = []) (right : Stands p q)
    (others : Joins first ps (.binary () ⟨first, q.span.last⟩ op left q) result) :
    Joins first (o :: p :: ps) left result where
  build := by
    rw [others.build, Expr.ofPhrase, lift_bind, bind_assoc]
    congr 1
    funext l
    rw [lift_bind, bind_assoc, parts, parts, joinOperands]
    dsimp only
    rw [known]
    dsimp only
    rw [right.build]
    refine lift_ofPhrase_bind fun e same => ?_
    rw [same]
    rfl
  literals := by
    rw [others.literals, Tree.literals_binary, ← right.literals, literals_cons o,
      literals_cons p ps, noLiterals, List.nil_append, List.append_assoc]
  found := by
    intro h
    refine others.found fun l mem => ?_
    rw [Tree.literals_binary, List.mem_append] at mem
    rcases mem with one | other
    · exact h l one
    · exact right.found l other

theorem Stands.joined (h : Stands p q) (joins : Joins s.first ps q result)
    (binary : assemble (.mk r s t (p :: ps)) (parts (p :: ps)) =
      buildBinary (.mk r s t (p :: ps)) (parts (p :: ps)))
    (noLiteral : r.literalKind? = none) : Stands (.mk r s t (p :: ps)) result where
  build := by
    rw [Builder.build, binary, joins.build, ← h.build]
    rfl
  literals := by
    rw [Pair.literals_of_none noLiteral, literals_cons, h.literals, joins.literals]
  found := joins.found h.found

/-! ### Signs -/

def settle (p : Pair) : List (UnaryOperator × Nat) × Option Expr → Building Expr
  | (_, none) => unexpected 10 p
  | (signs, some operand) => applySigns signs operand

/-- Signs and an operand make a phrase, to which signs before them are applied. -/
structure Signed (inner : List Pair) (q : Phrase) : Prop where
  build : ∀ p signs, gatherSigns (parts inner) signs none >>= settle p =
    lift (Expr.ofPhrase q) >>= applySigns signs
  literals : Pair.literals inner = q.literals
  found : ∀ l ∈ q.literals, l.2.Found

theorem Signed.operand (h : Stands p q) (noSign : p.rule ≠ .unaryOp) : Signed [p] q where
  build := by
    intro p' signs
    rw [parts, parts, gatherSigns, if_neg noSign, ← h.build, bind_assoc]
    rfl
  literals := h.literals
  found := h.found

theorem Signed.sign {op : UnaryOperator} {inner : List Pair} (is_sign : o.rule = .unaryOp)
    (known : operatorOf unaryOperators o = some op) (noLiterals : Pair.literals [o] = [])
    (h : Signed inner q) :
    Signed (o :: inner) (.unary () ⟨o.span.first, q.span.last⟩ op q) where
  build := by
    intro p' signs
    rw [parts, gatherSigns, if_pos is_sign]
    dsimp only
    rw [known]
    dsimp only
    rw [h.build, Expr.ofPhrase, lift_bind, bind_assoc]
    refine lift_ofPhrase_bind fun e same => ?_
    rw [applySigns, same, lift_bind, bind_assoc]
    rfl
  literals := by rw [literals_cons, noLiterals, h.literals, Tree.literals_unary, List.nil_append]
  found := by
    rw [Tree.literals_unary]
    exact h.found

theorem Stands.signed {inner : List Pair} (h : Signed inner q) :
    Stands (.mk .unary s t inner) q where
  build := by
    rw [Builder.build]
    show buildUnary _ _ = _
    have settled := h.build (.mk .unary s t inner) []
    have alone : (applySigns [] : Expr → Building Expr) = pure := rfl
    rw [alone, bind_pure] at settled
    rw [← settled, buildUnary]
    rfl
  literals := by rw [Pair.literals_of_none rfl, h.literals]
  found := h.found

end Builder

end HostExpr
