import HostExpr.Proofs.Cache.Lookup
import HostExpr.Proofs.Eval.Search
import HostExpr.Proofs.Session.Basic

/-!
Resolvers that decline a shape of access.

If the answers of a resolver are settled by the shape of the access, it declines all accesses of a
shape as soon as it declines one (`PropertyResolver.ByShape.declinesRead` and its companions). A
question that changes nothing is `EvalM.Unnoticed`: its answer depends on the host's state alone and
all it leaves is a note that is no performance.
-/

namespace HostExpr

/-! ### Questions that change nothing -/

namespace EvalM

variable {σ α : Type}

/-- Asked in a state of the host, a question has an answer and leaves only a note of itself. -/
def Unnoticed (world : σ) (answer : Except EvalError (Option α)) (ask : EvalM σ (Option α)) :
    Prop :=
  ∀ s : EvalState σ, s.world = world →
    ∃ note : Event σ, note.interaction.isPerformance = false ∧
      ask.outcome s = (answer, { s with trail := note :: s.trail })

/-- Asking for something that is found without changing the host is not noticed. -/
theorem unnoticed_perform {resolver : String} {act : HostM σ (Option α)}
    {note : Except AccessError (Option α) → Interaction} {world : σ}
    (query : ∀ answer, (note answer).isPerformance = false)
    (quiet : (act.run.run world).2 = world) :
    Unnoticed world ((act.run.run world).1.mapError (EvalError.ofAccess resolver))
      (EvalM.perform resolver act note) := by
  intro s hs
  subst hs
  refine ⟨⟨s.world, note (act.run.run s.world).1⟩, query _, ?_⟩
  rw [outcome_perform, quiet]

def ability (resolver : String) (answer : Except AccessError Bool) :
    Except EvalError (Option Unit) :=
  match answer with
  | .ok able => .ok (if able then some () else none)
  | .error e => .error (.ofAccess resolver e)

@[simp] theorem ability_eq_none_iff {resolver : String} {answer : Except AccessError Bool} :
    ability resolver answer = .ok none ↔ answer = .ok false := by
  cases answer with
  | error e => simp [ability]
  | ok able => cases able <;> simp [ability]

/-- Asking whether something can be done, without changing the host, is not noticed. -/
theorem unnoticed_ability {resolver : String} {act : HostM σ Bool}
    {note : Except AccessError Bool → Interaction} {world : σ}
    (query : ∀ answer, (note answer).isPerformance = false)
    (quiet : (act.run.run world).2 = world) :
    Unnoticed world (ability resolver (act.run.run world).1)
      (do return if ← EvalM.perform resolver act note then some () else none) := by
  intro s hs
  subst hs
  refine ⟨⟨s.world, note (act.run.run s.world).1⟩, query _, ?_⟩
  rw [outcome_bind, outcome_perform, quiet]
  cases (act.run.run s.world).1 <;> rfl

end EvalM

variable {σ : Type} {reenter : Context σ → Reenter σ}

theorem PropertyResolver.Quiet.askReader_unnoticed {r : PropertyResolver σ}
    (quiet : r.Quiet reenter) (ctx : Context σ) (target : Value) (name : String) (i : Nat)
    (world : σ) :
    EvalM.Unnoticed world
      (EvalM.ability r.name
        ((r.canRead (ctx.environment (reenter ctx)) target name).run.run world).1)
      (ctx.askReader (reenter ctx) target name i r) :=
  EvalM.unnoticed_ability (fun _ => rfl) (quiet.canRead ctx target name world)

theorem PropertyResolver.Quiet.askWriter_unnoticed {r : PropertyResolver σ}
    (quiet : r.Quiet reenter) (ctx : Context σ) (target : Value) (name : String) (i : Nat)
    (world : σ) :
    EvalM.Unnoticed world
      (EvalM.ability r.name
        ((r.canWrite (ctx.environment (reenter ctx)) target name).run.run world).1)
      (ctx.askWriter (reenter ctx) target name i r) :=
  EvalM.unnoticed_ability (fun _ => rfl) (quiet.canWrite ctx target name world)

theorem MethodResolver.Quiet.askMethod_unnoticed {r : MethodResolver σ} (quiet : r.Quiet reenter)
    (ctx : Context σ) (target : Value) (name : String) (argTypes : List ValueType) (i : Nat)
    (world : σ) :
    EvalM.Unnoticed world
      (((r.resolve (ctx.environment (reenter ctx)) target name argTypes).run.run world).1.mapError
        (EvalError.ofAccess r.name))
      (ctx.askMethod (reenter ctx) target name argTypes i r) :=
  EvalM.unnoticed_perform (fun _ => rfl) (quiet.resolve ctx target name argTypes world)

variable [Host σ]

/-! ### Declining a shape -/

section Shapes

variable (reenter)

/-- The resolver declines to read a property of any target of a type. -/
def PropertyResolver.DeclinesRead (r : PropertyResolver σ) (name : String) (type : ValueType) :
    Prop :=
  ∀ (ctx : Context σ) target world, target.valueType (Host.view world) = type →
    ((r.canRead (ctx.environment (reenter ctx)) target name).run.run world).1 = .ok false

def PropertyResolver.DeclinesWrite (r : PropertyResolver σ) (name : String) (type : ValueType) :
    Prop :=
  ∀ (ctx : Context σ) target world, target.valueType (Host.view world) = type →
    ((r.canWrite (ctx.environment (reenter ctx)) target name).run.run world).1 = .ok false

/-- The resolver finds no method for arguments of some types on any target of a type. -/
def MethodResolver.DeclinesCall (r : MethodResolver σ) (name : String) (type : ValueType)
    (argTypes : List ValueType) : Prop :=
  ∀ (ctx : Context σ) target world, target.valueType (Host.view world) = type →
    ((r.resolve (ctx.environment (reenter ctx)) target name argTypes).run.run world).1 = .ok none

end Shapes

private theorem eq_ok_of_toOption {α ε : Type} {answer : Except ε α} {a : α}
    (h : answer.toOption = some a) : answer = .ok a := by
  cases answer with
  | error e => simp [Except.toOption] at h
  | ok b => simpa [Except.toOption] using h

/-- Who declines to read once declines that shape always. -/
theorem PropertyResolver.ByShape.declinesRead {r : PropertyResolver σ} (h : r.ByShape reenter)
    {ctx : Context σ} {target : Value} {name : String} {world : σ}
    (declined :
      ((r.canRead (ctx.environment (reenter ctx)) target name).run.run world).1 = .ok false) :
    r.DeclinesRead reenter name (target.valueType (Host.view world)) := by
  obtain ⟨verdict, settled⟩ := h.canRead
  have here := settled ctx target name world
  rw [declined] at here
  intro ctx' target' world' sameType
  apply eq_ok_of_toOption
  rw [settled, sameType, ← here]
  rfl

/-- Who declines to write once declines that shape always. -/
theorem PropertyResolver.ByShape.declinesWrite {r : PropertyResolver σ} (h : r.ByShape reenter)
    {ctx : Context σ} {target : Value} {name : String} {world : σ}
    (declined :
      ((r.canWrite (ctx.environment (reenter ctx)) target name).run.run world).1 = .ok false) :
    r.DeclinesWrite reenter name (target.valueType (Host.view world)) := by
  obtain ⟨verdict, settled⟩ := h.canWrite
  have here := settled ctx target name world
  rw [declined] at here
  intro ctx' target' world' sameType
  apply eq_ok_of_toOption
  rw [settled, sameType, ← here]
  rfl

/-- Who finds no method once finds none for that shape ever. -/
theorem MethodResolver.ByShape.declinesCall {r : MethodResolver σ} (h : r.ByShape reenter)
    {ctx : Context σ} {target : Value} {name : String} {argTypes : List ValueType} {world : σ}
    (declined :
      ((r.resolve (ctx.environment (reenter ctx)) target name argTypes).run.run world).1 =
        .ok none) :
    r.DeclinesCall reenter name (target.valueType (Host.view world)) argTypes := by
  obtain ⟨verdict, settled⟩ := h.resolve
  have here := settled ctx target name argTypes world
  rw [declined] at here
  intro ctx' target' world' sameType
  have there := settled ctx' target' name argTypes world'
  rw [sameType, ← here] at there
  obtain ⟨found, answered, none_found⟩ := Option.map_eq_some_iff.mp there
  rw [eq_ok_of_toOption answered]
  cases found with
  | none => rfl
  | some executor => simp at none_found

end HostExpr
