import HostExpr.Proofs.Eval.Agenda

/-!
Every expression is evaluated by turns.

There is one lemma for each kind of node with operands: with operands that are evaluated by turns,
so is the node, and so is an assignment to it. `Context.conducted_by_turns` puts them together.
-/

namespace HostExpr

variable {σ : Type}

namespace Context

variable [Host σ]

variable {ctx : Context σ} {reenter : Reenter σ}

/-- Every assignment to an expression is conducted by turns, on its own or after other operands of a
task. -/
def AssignsByTurns (ctx : Context σ) (reenter : Reenter σ) (target : Expr) : Prop :=
  ∀ (s : EvalState σ) (task : Task) (base : List Value) (value : Value),
    (∀ view vs, ctx.turn view (s.active.head?.getD ctx.root) task (base ++ vs) =
      assignTurn (s.active.head?.getD ctx.root) target value vs) →
    (ctx.assign reenter target value >>= fun _ => pure value).Follows
      (ctx.Conducts reenter (s.active.head?.getD ctx.root) task base) s

theorem assignsByTurns_property (i : NodeId) (p : Span) (name : String) :
    ctx.AssignsByTurns reenter (.property i p name) := by
  intro s task base value turns
  have at_once := turns (Host.view s.world) []
  rw [List.append_nil] at at_once
  rw [assign, bind_assoc]
  apply EvalM.Follows.after (EvalM.outcome_activeObject ctx.root s)
  exact follows_of_access (writeProperty_follows i name _ value fun _ => rfl) at_once

theorem assignsByTurns_path (i : NodeId) (p : Span) {segments : List Expr}
    (each : ∀ e ∈ segments, ctx.EvaluatesByTurns reenter e) :
    ctx.AssignsByTurns reenter (.path i p segments) := by
  intro s task base value turns
  have ends := EvalM.outcome_ofExcept (lastProperty segments) s
  simp only [assignTurn_path] at turns
  rw [assign, bind_assoc]
  cases named : lastProperty segments with
  | error e =>
    rw [named] at ends
    simp only [named] at turns
    have at_once := turns (Host.view s.world) []
    rw [List.append_nil] at at_once
    exact follows_of_finish (EvalM.outcome_bind_of_error ends) at_once
  | ok entry =>
    obtain ⟨node, name⟩ := entry
    rw [named] at ends
    simp only [named] at turns
    apply EvalM.Follows.after ends
    rw [bind_assoc]
    apply EvalM.Follows.after (EvalM.outcome_activeObject ctx.root s)
    rw [bind_assoc, evaluatePrefix_eq]
    refine evaluatePath_follows (fun e mem => each e (List.dropLast_subset _ mem)) turns ?_
    intro v vs s' _ at_last
    exact follows_of_access (writeProperty_follows node name v value fun _ => rfl) (at_last _)

/-- Nothing else can be assigned to. -/
theorem assignsByTurns_other {e : Expr} (notProperty : ∀ i p name, e = .property i p name → False)
    (notPath : ∀ i p segments, e = .path i p segments → False) :
    ctx.AssignsByTurns reenter e := by
  intro s task base value turns
  have at_once := turns (Host.view s.world) []
  rw [List.append_nil, assignTurn] at at_once
  · rw [assign]
    · exact follows_of_finish (EvalM.outcome_bind_of_error rfl) at_once
    · exact notProperty
    · exact notPath
  · exact notProperty
  · exact notPath

omit [Host σ] in
theorem outcome_variableValue (name : String) (s : EvalState σ) :
    (ctx.variableValue name).outcome s =
      (ctx.valueOf (s.active.head?.getD ctx.root) name, s) := by
  rw [variableValue, valueOf]
  split
  · rfl
  · split
    · rfl
    · split <;> simp [*]

theorem evaluatesByTurns_call (i : NodeId) (p : Span) (name : String) {args : List Expr}
    (each : ∀ e ∈ args, ctx.EvaluatesByTurns reenter e) :
    ctx.EvaluatesByTurns reenter (.call i p name args) := by
  intro s
  rw [evaluate]
  apply EvalM.Follows.after (EvalM.outcome_activeObject ctx.root s)
  have row := evaluateEach_follows each { s with active := ctx.root :: s.active }
  refine follows_of_row row.withActive (fun view vs => rfl) fun vs s' same at_last => ?_
  exact follows_of_access (callMethod_follows i name _ vs) (at_last _)

theorem evaluatesByTurns_list (i : NodeId) (p : Span) {items : List Expr}
    (each : ∀ e ∈ items, ctx.EvaluatesByTurns reenter e) :
    ctx.EvaluatesByTurns reenter (.list i p items) := by
  intro s
  rw [evaluate]
  have turns : ∀ view vs, ctx.turn view (s.active.head?.getD ctx.root)
      (.evaluate (.list i p items)) vs =
        .eachOf (s.active.head?.getD ctx.root) items vs (.finish (.ok (.list vs))) :=
    fun _ _ => rfl
  refine follows_of_row (evaluateEach_follows each s) turns fun vs s' same at_last => ?_
  exact follows_of_finish rfl (at_last _)

theorem evaluatesByTurns_path (i : NodeId) (p : Span) {segments : List Expr}
    (each : ∀ e ∈ segments, ctx.EvaluatesByTurns reenter e) :
    ctx.EvaluatesByTurns reenter (.path i p segments) := by
  intro s
  rw [evaluate]
  apply EvalM.Follows.after (EvalM.outcome_activeObject ctx.root s)
  have turns : ∀ view vs, ctx.turn view (s.active.head?.getD ctx.root)
      (.evaluate (.path i p segments)) ([] ++ vs) =
        .along (s.active.head?.getD ctx.root) segments vs fun v => .finish (.ok v) :=
    fun _ _ => rfl
  rw [← bind_pure (ctx.evaluatePath reenter _ segments)]
  refine evaluatePath_follows each turns fun v vs s' same at_last => ?_
  exact follows_of_finish rfl (at_last _)

theorem evaluatesByTurns_unary (i : NodeId) (p : Span) (op : UnaryOperator) {operand : Expr}
    (visited : ctx.EvaluatesByTurns reenter operand) :
    ctx.EvaluatesByTurns reenter (.unary i p op operand) := by
  intro s
  rw [evaluate]
  refine follows_of_visit (visited s) rfl fun v s' same => ?_
  apply EvalM.Follows.after (EvalM.outcome_view s')
  exact follows_of_finish (EvalM.outcome_ofExcept _ s') rfl

theorem evaluatesByTurns_ternary (i : NodeId) (p : Span) {c t f : Expr}
    (condition : ctx.EvaluatesByTurns reenter c) (whenTrue : ctx.EvaluatesByTurns reenter t)
    (whenFalse : ctx.EvaluatesByTurns reenter f) :
    ctx.EvaluatesByTurns reenter (.ternary i p c t f) := by
  intro s
  rw [evaluate]
  refine follows_of_visit (condition s) rfl fun test s' same => ?_
  refine follows_of_truth rfl fun b at_branch => ?_
  have branch : ctx.EvaluatesByTurns reenter (if b then t else f) := by
    cases b
    · exact whenFalse
    · exact whenTrue
  have ran := branch s'
  rw [same] at ran
  have visited := follows_of_visit ran at_branch (f := pure) fun v s'' _ =>
    follows_of_finish rfl rfl
  rw [bind_pure] at visited
  cases b
  · exact visited
  · exact visited

/-- An operator that needs both of its operands visits both. -/
theorem follows_of_both {op : BinaryOperator} {i : NodeId} {p : Span} {l r : Expr}
    (left : ctx.EvaluatesByTurns reenter l) (right : ctx.EvaluatesByTurns reenter r)
    (undecided : op.decidedBy = none) (s : EvalState σ) :
    (do
      let a ← ctx.evaluate reenter l
      let b ← ctx.evaluate reenter r
      EvalM.ofExcept (strictBinary (← EvalM.view) op a b)).Follows
    (ctx.Conducts reenter (s.active.head?.getD ctx.root) (.evaluate (.binary i p op l r)) [])
    s := by
  refine follows_of_visit (left s) rfl fun a s' same => ?_
  have ran := right s'
  rw [same] at ran
  refine follows_of_visit ran ?_ fun b s'' _ => ?_
  · simp [turn, evaluateTurn, binaryTurn, undecided]
  · apply EvalM.Follows.after (EvalM.outcome_view s'')
    refine follows_of_finish (EvalM.outcome_ofExcept _ s'') ?_
    simp [turn, evaluateTurn, binaryTurn, undecided]

/-- An operator that one operand may decide visits the other only if it does not. -/
theorem follows_of_decisive {op : BinaryOperator} {decisive : Bool} {i : NodeId} {p : Span}
    {l r : Expr} (left : ctx.EvaluatesByTurns reenter l) (right : ctx.EvaluatesByTurns reenter r)
    (decides : op.decidedBy = some decisive) (s : EvalState σ) {f : Bool → EvalM σ Value}
    (decided : f decisive = pure (.boolean decisive))
    (undecided : f (!decisive) = do
      let b ← ctx.evaluate reenter r
      return .boolean (← truthOf op.symbol b)) :
    (do
      let a ← ctx.evaluate reenter l
      let b ← truthOf op.symbol a
      f b).Follows
    (ctx.Conducts reenter (s.active.head?.getD ctx.root) (.evaluate (.binary i p op l r)) [])
    s := by
  refine follows_of_visit (left s) rfl fun a s' same => ?_
  have at_truth : ctx.turn (Host.view s'.world) (s.active.head?.getD ctx.root)
      (.evaluate (.binary i p op l r)) ([] ++ [a]) =
        .byTruth (Host.view s'.world) op.symbol a fun b =>
          if b = decisive then .finish (.ok (.boolean decisive))
          else .visit (s.active.head?.getD ctx.root) r := by
    simp [turn, evaluateTurn, binaryTurn, decides]
  refine follows_of_truth at_truth fun b at_branch => ?_
  by_cases same_truth : b = decisive
  · rw [if_pos same_truth] at at_branch
    rw [same_truth, decided]
    exact follows_of_finish rfl at_branch
  · rw [if_neg same_truth] at at_branch
    rw [Bool.eq_not_of_ne same_truth, undecided]
    have ran := right s'
    rw [same] at ran
    refine follows_of_visit ran at_branch fun b' s'' _ => ?_
    have at_last : ctx.turn (Host.view s''.world) (s.active.head?.getD ctx.root)
        (.evaluate (.binary i p op l r)) ([] ++ [a] ++ [b']) =
          .byTruth (Host.view s''.world) op.symbol b' fun b => .finish (.ok (.boolean b)) := by
      simp [turn, evaluateTurn, binaryTurn, decides]
    exact follows_of_truth at_last fun b answers => follows_of_finish rfl answers

theorem evaluatesByTurns_binary (i : NodeId) (p : Span) (op : BinaryOperator) {l r : Expr}
    (left : ctx.EvaluatesByTurns reenter l) (right : ctx.EvaluatesByTurns reenter r) :
    ctx.EvaluatesByTurns reenter (.binary i p op l r) := by
  intro s
  cases op with
  | and =>
    rw [evaluate]
    exact follows_of_decisive left right rfl s rfl rfl
  | or =>
    rw [evaluate]
    exact follows_of_decisive left right rfl s rfl rfl
  | _ =>
    rw [evaluate]
    · exact follows_of_both left right rfl s
    all_goals simp

theorem evaluatesByTurns_assign (i : NodeId) (p : Span) {target value : Expr}
    (assigned : ctx.AssignsByTurns reenter target) (visited : ctx.EvaluatesByTurns reenter value) :
    ctx.EvaluatesByTurns reenter (.assign i p target value) := by
  intro s
  rw [evaluate]
  refine follows_of_visit (visited s) rfl fun v s' same => ?_
  rw [← same]
  exact assigned s' _ [v] v fun view vs => rfl

/-- **Every expression is evaluated and assigned to by turns.** -/
theorem conducted_by_turns (e : Expr) :
    ctx.EvaluatesByTurns reenter e ∧ ctx.AssignsByTurns reenter e := by
  induction e using Tree.induction with
  | literal i p value =>
    refine ⟨fun s => ?_, assignsByTurns_other (by simp) (by simp)⟩
    rw [evaluate]
    exact follows_of_finish rfl rfl
  | var i p name =>
    refine ⟨fun s => ?_, assignsByTurns_other (by simp) (by simp)⟩
    rw [evaluate]
    exact follows_of_finish (outcome_variableValue name s) rfl
  | property i p name =>
    refine ⟨fun s => ?_, assignsByTurns_property i p name⟩
    rw [evaluate]
    apply EvalM.Follows.after (EvalM.outcome_activeObject ctx.root s)
    exact follows_of_access (readProperty_follows i name _) rfl
  | call i p name args each =>
    refine ⟨evaluatesByTurns_call i p name fun e mem => (each e mem).1, ?_⟩
    exact assignsByTurns_other (by simp) (by simp)
  | path i p segments each =>
    refine ⟨evaluatesByTurns_path i p fun e mem => (each e mem).1, ?_⟩
    exact assignsByTurns_path i p fun e mem => (each e mem).1
  | binary i p op l r left right =>
    refine ⟨evaluatesByTurns_binary i p op left.1 right.1, ?_⟩
    exact assignsByTurns_other (by simp) (by simp)
  | unary i p op operand visited =>
    refine ⟨evaluatesByTurns_unary i p op visited.1, ?_⟩
    exact assignsByTurns_other (by simp) (by simp)
  | ternary i p c t f condition whenTrue whenFalse =>
    refine ⟨evaluatesByTurns_ternary i p condition.1 whenTrue.1 whenFalse.1, ?_⟩
    exact assignsByTurns_other (by simp) (by simp)
  | list i p items each =>
    refine ⟨evaluatesByTurns_list i p fun e mem => (each e mem).1, ?_⟩
    exact assignsByTurns_other (by simp) (by simp)
  | assign i p target value assigned visited =>
    refine ⟨evaluatesByTurns_assign i p assigned.2 visited.1, ?_⟩
    exact assignsByTurns_other (by simp) (by simp)

end Context

end HostExpr
