import HostExpr.Proofs.Eval.Boundary
import HostExpr.Proofs.Session.Declining

/-!
Who serves a call.

An evaluation that remembers nothing searches the method resolvers of its context in their order. So
whoever executes a method is the first resolver that finds one (`Context.callMethod_served`).
-/

namespace HostExpr

variable {σ : Type} [Host σ] {reenter : Context σ → Reenter σ} {ctx : Context σ}

/-- If a method was entered, it received what was prepared of some given arguments, and it was found
by the first resolver of a context that finds one for the types of these, in the state of the host
in which it was entered. -/
def Event.ServedFirst (reenter : Context σ → Reenter σ) (ctx : Context σ) (event : Event σ) :
    Prop :=
  ∀ index resolver target name signature args answer,
    event.interaction = .execute index resolver target name signature args answer →
    ∃ given r executor, ctx.Prepares (Host.view event.before) name signature given args ∧
      let argTypes := given.map (Value.valueType (Host.view event.before))
      ctx.methods.get? index = some r ∧ r.name = resolver ∧ executor.signature = signature ∧
      ((r.resolve (ctx.environment (reenter ctx)) target name argTypes).run.run event.before).1 =
        .ok (some executor) ∧
      ∀ j < index, ∀ q, ctx.methods.get? j = some q →
        ((q.resolve (ctx.environment (reenter ctx)) target name argTypes).run.run event.before).1 =
          .ok none

theorem Event.servedFirst_of_not_execution {world : σ} {i : Interaction}
    (other : i.isExecution = false) : Event.ServedFirst reenter ctx ⟨world, i⟩ := by
  intro index resolver target name signature args answer same
  exact absurd same (Interaction.not_execution other)

omit [Host σ] in
/-- A question that changes nothing is answered in a state as it is for the world of that state. -/
theorem MethodResolver.Quiet.outcome_askMethod {r : MethodResolver σ} (quiet : r.Quiet reenter)
    (target : Value) (name : String) (argTypes : List ValueType) (i : Nat) (s : EvalState σ) :
    ((ctx.askMethod (reenter ctx) target name argTypes i r).outcome s).2.world = s.world ∧
      ∀ {found}, ((ctx.askMethod (reenter ctx) target name argTypes i r).outcome s).1 = .ok found →
        ((r.resolve (ctx.environment (reenter ctx)) target name argTypes).run.run s.world).1 =
          .ok found := by
  obtain ⟨note, -, outcome⟩ :=
    quiet.askMethod_unnoticed ctx target name argTypes i s.world s rfl
  rw [outcome]
  exact ⟨rfl, mapError_eq_ok_iff.mp⟩

omit [Host σ] in
/-- Without a memory, who is located is the first that finds a method in this state of the host. -/
theorem Context.locate_method_first (quiet : ∀ r ∈ ctx.methods.order, r.Quiet reenter)
    {target : Value} {name : String} {argTypes : List ValueType} {key : CacheKey}
    {s s' : EvalState σ}
    (forgetful : s.cache = none) {i : Nat} {r : MethodResolver σ} {executor : Executor σ}
    (located : (Context.locate key ctx.methods.generation
      (ctx.findMethod (reenter ctx) target name argTypes)).outcome s =
        (.ok (some (i, r, executor)), s')) :
    s'.world = s.world ∧ ctx.methods.get? i = some r ∧
      ((r.resolve (ctx.environment (reenter ctx)) target name argTypes).run.run s.world).1 =
        .ok (some executor) ∧
      ∀ j < i, ∀ q, ctx.methods.get? j = some q →
        ((q.resolve (ctx.environment (reenter ctx)) target name argTypes).run.run s.world).1 =
          .ok none := by
  rw [Context.locate, EvalM.outcome_bind_of_ok (EvalM.outcome_hintFor ..), forgetful,
    Option.bind_none] at located
  rcases searched : (ctx.findMethod (reenter ctx) target name argTypes none).outcome s with
    ⟨found, t⟩
  cases found with
  | error e =>
    rw [EvalM.outcome_bind_of_error searched] at located
    cases located
  | ok found =>
    rw [EvalM.outcome_bind_of_ok searched] at located
    cases found with
    | none => cases located
    | some entry =>
      cases located
      -- The search asks one resolver after the other, each in a state of the same world.
      obtain ⟨at_i, declined, ⟨t, same, accepted⟩, still⟩ :=
        EvalM.search_none_eq_some (I := fun t => t.world = s.world)
          (fun i r mem t same =>
            ((quiet r mem).outcome_askMethod target name argTypes i t).1.trans same) rfl searched
      refine ⟨still, at_i, ?_, fun j less q at_j => ?_⟩
      · rw [← same]
        exact ((quiet r (Chain.mem_order_of_get? at_i)).outcome_askMethod ..).2 accepted
      · obtain ⟨t, same, declined⟩ := declined j less q at_j
        rw [← same]
        exact ((quiet q (Chain.mem_order_of_get? at_j)).outcome_askMethod ..).2 declined

/-- **A call that remembers nothing is served by the first resolver that finds a method.** -/
theorem Context.callMethod_served (quiet : ∀ r ∈ ctx.methods.order, r.Quiet reenter) {node : NodeId}
    {name : String} {target : Value} {args : List Value} {s : EvalState σ}
    (forgetful : s.cache = none) (before : ∀ e ∈ s.trail, e.ServedFirst reenter ctx) :
    ∀ e ∈ ((ctx.callMethod (reenter ctx) node name target args).outcome s).2.trail,
      e.ServedFirst reenter ctx := by
  have others : ∀ (world : σ) i, i.isExecution = false →
      Event.ServedFirst reenter ctx ⟨world, i⟩ := fun _ _ => Event.servedFirst_of_not_execution
  unfold callMethod
  rw [EvalM.outcome_bind_of_ok (EvalM.outcome_view s)]
  dsimp only
  generalize types : args.map (Value.valueType (Host.view s.world)) = argTypes
  generalize (CacheKey.mk node .call (target.valueType (Host.view s.world)) (some argTypes)) = key
  have locating : EvalM.Agree (OnTrail (Event.ServedFirst reenter ctx))
      (Context.locate key ctx.methods.generation
        (ctx.findMethod (reenter ctx) target name argTypes))
      (Context.locate key ctx.methods.generation
        (ctx.findMethod (reenter ctx) target name argTypes)) :=
    OnTrail.locate_agrees fun hint => OnTrail.search_agrees fun i r =>
      OnTrail.perform_agrees fun world answer => others world _ rfl
  have located := (locating ⟨rfl, before⟩).2.2
  rcases ran : (Context.locate key ctx.methods.generation
    (ctx.findMethod (reenter ctx) target name argTypes)).outcome s with ⟨answer, s'⟩
  rw [ran] at located
  cases answer with
  | error e =>
    rw [EvalM.outcome_bind_of_error ran]
    exact located
  | ok found =>
    rw [EvalM.outcome_bind_of_ok ran]
    cases found with
    | none => exact located
    | some entry =>
      obtain ⟨i, r, executor⟩ := entry
      obtain ⟨still, at_i, accepted, declined⟩ := locate_method_first quiet forgetful ran
      obtain ⟨answer, prepares, received⟩ :=
        ctx.outcome_prepareArguments name executor.signature args s'
      cases answer with
      | error e =>
        rw [EvalM.outcome_bind_of_error prepares]
        exact located
      | ok prepared =>
        rw [EvalM.outcome_bind_of_ok prepares, EvalM.outcome_perform]
        refine List.forall_mem_cons.mpr ⟨?_, located⟩
        intro index resolver target' name' signature args' answer same
        cases same
        rw [← still] at accepted declined types
        subst types
        exact ⟨args, r, executor, received prepared rfl, at_i, rfl, rfl, accepted, declined⟩

end HostExpr
