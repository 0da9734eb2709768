import HostExpr.Proofs.Eval.Agreement
import HostExpr.Proofs.Expr.Accesses

/-!
The evaluator respects what its accesses respect.

A relation between states is a `Context.Congruence` if the single accesses of an expression, at the
nodes and under the names that occur in it, respect the relation. Then whole evaluations and
assignments respect it: `Context.evaluate_agrees` and `Context.assign_agrees`.
-/

namespace HostExpr

namespace Context

variable {σ : Type} [Host σ]

/-- A relation between states that every access of some expressions respects. `site` tells which
names are accessed by which nodes. -/
structure Congruence (ctx : Context σ) (reenter : Reenter σ) (site : NodeId → String → Prop)
    (R : EvalState σ → EvalState σ → Prop) : Prop where
  view : ∀ {s t}, R s t → Host.view s.world = Host.view t.world
  active : ∀ {s t}, R s t → s.active = t.active
  setActive : ∀ {s t} (active : List Value), R s t → R { s with active } { t with active }
  read : ∀ {node name} (target : Value), site node name →
    EvalM.Agree R (ctx.readProperty reenter node name target)
      (ctx.readProperty reenter node name target)
  write : ∀ {node name} (target value : Value), site node name →
    EvalM.Agree R (ctx.writeProperty reenter node name target value)
      (ctx.writeProperty reenter node name target value)
  call : ∀ {node name} (target : Value) (args : List Value), site node name →
    EvalM.Agree R (ctx.callMethod reenter node name target args)
      (ctx.callMethod reenter node name target args)

namespace Congruence

open EvalM (Agree)

variable {ctx : Context σ} {reenter : Reenter σ} {site : NodeId → String → Prop}
  {R : EvalState σ → EvalState σ → Prop} {α : Type}

theorem view_agrees (c : ctx.Congruence reenter site R) :
    Agree R (EvalM.view : EvalM σ View) EvalM.view := by
  intro s t h
  rw [EvalM.outcome_view, EvalM.outcome_view, c.view h]
  exact ⟨rfl, h⟩

theorem activeObject_agrees (c : ctx.Congruence reenter site R) (root : Value) :
    Agree R (EvalM.activeObject root) (EvalM.activeObject root) := by
  intro s t h
  rw [EvalM.outcome_activeObject, EvalM.outcome_activeObject, c.active h]
  exact ⟨rfl, h⟩

theorem withActive_agrees (c : ctx.Congruence reenter site R) (object : Value) {a b : EvalM σ α}
    (h : Agree R a b) : Agree R (EvalM.withActive object a) (EvalM.withActive object b) := by
  intro s t hst
  have pushed := c.setActive (object :: s.active) hst
  obtain ⟨same, related⟩ := h pushed
  rw [EvalM.outcome_withActive, EvalM.outcome_withActive, ← c.active hst]
  refine ⟨same, ?_⟩
  rw [← c.active related]
  exact c.setActive _ related

theorem truthOf_agrees (c : ctx.Congruence reenter site R) (operator : String) (v : Value) :
    Agree R (truthOf operator v : EvalM σ Bool) (truthOf operator v) :=
  c.view_agrees.bind fun view => .ofExcept (v.truth view operator)

theorem variableValue_agrees (c : ctx.Congruence reenter site R) (name : String) :
    Agree R (ctx.variableValue name) (ctx.variableValue name) := by
  unfold variableValue
  refine .ite (.pure _) (.ite (c.activeObject_agrees _) ?_)
  cases ctx.bindings.find? name with
  | none => exact .throw _
  | some value => exact .pure value

end Congruence

section Evaluation

open EvalM (Agree)

variable {ctx : Context σ} {reenter : Reenter σ} {site : NodeId → String → Prop}
  {R : EvalState σ → EvalState σ → Prop}

/-- The last property of a path is one of the accesses of its segments. -/
theorem lastProperty_mem_accesses {segments : List Expr} {node : NodeId} {name : String}
    (h : lastProperty segments = .ok (node, name)) : (node, name) ∈ Tree.accessesAll segments := by
  unfold lastProperty at h
  cases last : segments.getLast? with
  | none => simp [last] at h
  | some e =>
    rw [last] at h
    cases e with
    | property i span text =>
      obtain ⟨rfl, rfl⟩ : i = node ∧ text = name := by simpa using h
      exact Tree.mem_accessesAll (List.mem_of_getLast? last) (by simp)
    | _ => simp at h

mutual

/-- **A relation that the accesses of an expression respect is respected by its evaluation.** -/
theorem evaluate_agrees (c : ctx.Congruence reenter site R) :
    ∀ e : Expr, (∀ p ∈ e.accesses, site p.1 p.2) →
      Agree R (ctx.evaluate reenter e) (ctx.evaluate reenter e)
  | .literal .., _ => .pure _
  | .variable _ _ name, _ => c.variableValue_agrees name
  | .property node _ name, within => by
    rw [evaluate]
    exact (c.activeObject_agrees _).bind fun target => c.read target (within (node, name) (by simp))
  | .call node _ name args, within => by
    rw [evaluate]
    refine (c.activeObject_agrees _).bind fun target => ?_
    refine (c.withActive_agrees _ (evaluateEach_agrees c args ?_)).bind fun values => ?_
    · exact fun p hp => within p (by simp [hp])
    · exact c.call target values (within (node, name) (by simp))
  | .path _ _ segments, within => by
    rw [evaluate]
    refine (c.activeObject_agrees _).bind fun first => evaluatePath_agrees c first segments ?_
    exact fun p hp => within p (by simpa using hp)
  | .binary _ _ op left right, within => by
    have l := evaluate_agrees c left fun p hp => within p (by simp [hp])
    have r := evaluate_agrees c right fun p hp => within p (by simp [hp])
    cases op with
    | and =>
      rw [evaluate]
      refine l.bind fun x => (c.truthOf_agrees _ x).bind fun b => .ite ?_ (.pure _)
      exact r.bind fun y => (c.truthOf_agrees _ y).bind fun _ => .pure _
    | or =>
      rw [evaluate]
      refine l.bind fun x => (c.truthOf_agrees _ x).bind fun b => .ite (.pure _) ?_
      exact r.bind fun y => (c.truthOf_agrees _ y).bind fun _ => .pure _
    | _ =>
      rw [evaluate]
      · exact l.bind fun x => r.bind fun y => c.view_agrees.bind fun view => .ofExcept _
      all_goals exact nofun
  | .unary _ _ op operand, within => by
    rw [evaluate]
    refine (evaluate_agrees c operand fun p hp => within p (by simpa using hp)).bind fun v => ?_
    exact c.view_agrees.bind fun view => .ofExcept _
  | .ternary _ _ condition whenTrue whenFalse, within => by
    rw [evaluate]
    refine (evaluate_agrees c condition fun p hp => within p (by simp [hp])).bind fun test => ?_
    refine (c.truthOf_agrees _ test).bind fun b => .ite ?_ ?_
    · exact evaluate_agrees c whenTrue fun p hp => within p (by simp [hp])
    · exact evaluate_agrees c whenFalse fun p hp => within p (by simp [hp])
  | .list _ _ items, within => by
    rw [evaluate]
    refine (evaluateEach_agrees c items fun p hp => within p (by simpa using hp)).bind fun vs => ?_
    exact .pure _
  | .assign _ _ target value, within => by
    rw [evaluate]
    refine (evaluate_agrees c value fun p hp => within p (by simp [hp])).bind fun v => ?_
    refine (assign_agrees c target (fun p hp => within p (by simp [hp])) v).bind fun _ => ?_
    exact .pure _

/-- Evaluating several expressions respects what their accesses respect. -/
theorem evaluateEach_agrees (c : ctx.Congruence reenter site R) :
    ∀ es : List Expr, (∀ p ∈ Tree.accessesAll es, site p.1 p.2) →
      Agree R (ctx.evaluateEach reenter es) (ctx.evaluateEach reenter es)
  | [], _ => .pure _
  | e :: es, within => by
    rw [evaluateEach]
    refine (evaluate_agrees c e fun p hp => within p (by simp [hp])).bind fun v => ?_
    refine (evaluateEach_agrees c es fun p hp => within p (by simp [hp])).bind fun vs => ?_
    exact .pure _

/-- Evaluating a path respects what the accesses of its segments respect. -/
theorem evaluatePath_agrees (c : ctx.Congruence reenter site R) (current : Value) :
    ∀ segments : List Expr, (∀ p ∈ Tree.accessesAll segments, site p.1 p.2) →
      Agree R (ctx.evaluatePath reenter current segments)
        (ctx.evaluatePath reenter current segments)
  | [], _ => .pure _
  | e :: es, within => by
    rw [evaluatePath]
    have segment := evaluate_agrees c e fun p hp => within p (by simp [hp])
    refine (c.withActive_agrees _ segment).bind fun next => ?_
    exact evaluatePath_agrees c next es fun p hp => within p (by simp [hp])

/-- So does evaluating a path but for its last segment. -/
theorem evaluatePrefix_agrees (c : ctx.Congruence reenter site R) (current : Value) :
    ∀ segments : List Expr, (∀ p ∈ Tree.accessesAll segments, site p.1 p.2) →
      Agree R (ctx.evaluatePrefix reenter current segments)
        (ctx.evaluatePrefix reenter current segments)
  | [], _ => .pure _
  | e :: es, within => by
    rw [evaluatePrefix]
    refine .ite (.pure _) ?_
    have segment := evaluate_agrees c e fun p hp => within p (by simp [hp])
    refine (c.withActive_agrees _ segment).bind fun next => ?_
    exact evaluatePrefix_agrees c next es fun p hp => within p (by simp [hp])

/-- **A relation that the accesses of an expression respect is respected by an assignment to it.**
-/
theorem assign_agrees (c : ctx.Congruence reenter site R) :
    ∀ e : Expr, (∀ p ∈ e.accesses, site p.1 p.2) → ∀ value : Value,
      Agree R (ctx.assign reenter e value) (ctx.assign reenter e value)
  | .property node _ name, within, value => by
    rw [assign]
    refine (c.activeObject_agrees _).bind fun object => ?_
    exact c.write object value (within (node, name) (by simp))
  | .path i span segments, within, value => by
    rw [assign]
    cases last : lastProperty segments with
    | error e =>
      rw [EvalM.ofExcept_error_bind]
      exact .throw e
    | ok found =>
      obtain ⟨node, name⟩ := found
      rw [EvalM.ofExcept_ok_bind]
      have accessed : (node, name) ∈ (Tree.path i span segments).accesses := by
        rw [Tree.accesses_path]
        exact lastProperty_mem_accesses last
      refine (c.activeObject_agrees _).bind fun first => ?_
      refine (evaluatePrefix_agrees c first segments ?_).bind fun object => ?_
      · exact fun p hp => within p (by simpa using hp)
      · exact c.write object value (within (node, name) accessed)
  | .literal .., _, _ => .throw _
  | .variable .., _, _ => .throw _
  | .call .., _, _ => .throw _
  | .binary .., _, _ => .throw _
  | .unary .., _, _ => .throw _
  | .ternary .., _, _ => .throw _
  | .list .., _, _ => .throw _
  | .assign .., _, _ => .throw _

end

end Evaluation

end Context

end HostExpr
