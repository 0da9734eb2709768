import HostExpr.Proofs.Eval.Conduct

/-!
What an evaluation takes from the active objects.

A computation goes by the active object (`EvalM.ByActive`) if of the active objects it uses only the
current one, and leaves all of them as they were. Accesses do, and so do sequences of such
computations, with or without an active object of their own; hence evaluations and assignments do
(`Context.goesByActive`). Within an evaluation such a computation does what it does on its own with
the current active object (`EvalM.alone`), so the active objects can be passed along as parameters:
the root object to the arguments of a call, and to each segment of a path the value of the one
before. `Context.keeps_to_active` is the result.
-/

namespace HostExpr

/-! ### Computations that go by the active object -/

namespace EvalM

variable {σ α β ρ : Type}

abbrev current (root : Value) (active : List Value) : Value :=
  active.head?.getD root

/-- Whatever the active objects are, if the same one is current, a computation gives the same
answer, leaves the same state of the host and the same cache, and has the same interactions; and it
leaves the active objects as they were. -/
def ByActive (root : Value) (act : EvalM σ α) : Prop :=
  ∀ (world : σ) (cache : Option ResolutionCache) (object : Value),
    ∃ answer world' cache' events, ∀ active trail, current root active = object →
      act.outcome ⟨world, active, cache, trail⟩ =
        (answer, ⟨world', active, cache', events ++ trail⟩)

/-- Runs a computation as an evaluation of its own, with only one active object and nothing on the
trail. The active objects and the trail of before are there again after it. -/
def alone (object : Value) (act : EvalM σ α) : EvalM σ α := fun state =>
  let (answer, after) :=
    act.run.run { world := state.world, active := [object], cache := state.cache }
  (answer, { after with active := state.active, trail := after.trail ++ state.trail })

theorem outcome_alone (object : Value) (act : EvalM σ α) (s : EvalState σ) :
    (alone object act).outcome s =
      ((act.outcome ⟨s.world, [object], s.cache, []⟩).1,
        { (act.outcome ⟨s.world, [object], s.cache, []⟩).2 with
          active := s.active
          trail := (act.outcome ⟨s.world, [object], s.cache, []⟩).2.trail ++ s.trail }) := rfl

theorem ext {a b : EvalM σ α} (h : ∀ s, a.outcome s = b.outcome s) : a = b :=
  funext h

namespace ByActive

variable {root : Value} {act : EvalM σ α} {f : α → EvalM σ β}

theorem restored (h : ByActive root act) (s : EvalState σ) :
    (act.outcome s).2.active = s.active := by
  obtain ⟨answer, world, cache, events, ran⟩ := h s.world s.cache (current root s.active)
  have at_s := ran s.active s.trail rfl
  exact congrArg (fun r => r.2.active) at_s

/-- Within an evaluation it does what it does alone. -/
theorem outcome_eq (h : ByActive root act) (s : EvalState σ) :
    act.outcome s = (alone (current root s.active) act).outcome s := by
  obtain ⟨answer, world, cache, events, ran⟩ := h s.world s.cache (current root s.active)
  have single := ran [current root s.active] [] rfl
  rw [List.append_nil] at single
  rw [outcome_alone, single]
  exact ran s.active s.trail rfl

/-- An active object of its own is all that it has. -/
theorem withActive_eq (h : ByActive root act) (object : Value) :
    withActive object act = alone object act := by
  refine ext fun s => ?_
  rw [outcome_withActive, h.outcome_eq]
  rfl

theorem pure (a : α) : ByActive root (Pure.pure a : EvalM σ α) :=
  fun world cache _ => ⟨.ok a, world, cache, [], fun _ _ _ => rfl⟩

theorem throw (e : EvalError) : ByActive root (throw e : EvalM σ α) :=
  fun world cache _ => ⟨.error e, world, cache, [], fun _ _ _ => rfl⟩

theorem ofExcept (e : Except EvalError α) : ByActive root (EvalM.ofExcept e : EvalM σ α) :=
  fun world cache _ => ⟨e, world, cache, [], fun _ _ _ => outcome_ofExcept e _⟩

theorem view [Host σ] : ByActive root (EvalM.view : EvalM σ View) :=
  fun world cache _ => ⟨.ok (Host.view world), world, cache, [], fun _ _ _ => rfl⟩

theorem activeObject : ByActive root (EvalM.activeObject root : EvalM σ Value) := by
  intro world cache object
  refine ⟨.ok object, world, cache, [], ?_⟩
  rintro active trail rfl
  rfl

theorem hintFor (key : CacheKey) (g : Generation) :
    ByActive root (EvalM.hintFor key g : EvalM σ (Option Nat)) :=
  fun world cache _ => ⟨.ok (cache.bind fun c => c.lookup key g), world, cache, [],
    fun _ _ _ => rfl⟩

theorem remember (key : CacheKey) (g : Generation) (i : Nat) :
    ByActive root (EvalM.remember key g i : EvalM σ Unit) :=
  fun world cache _ => ⟨.ok (), world, cache.map fun c => c.record key g i, [],
    fun _ _ _ => rfl⟩

theorem perform (resolver : String) (act : HostM σ α) (note : Except AccessError α → Interaction) :
    ByActive root (EvalM.perform resolver act note) := by
  intro world cache object
  let acted := act.run.run world
  refine ⟨acted.1.mapError (.ofAccess resolver), acted.2, cache, [⟨world, note acted.1⟩], ?_⟩
  intro active trail _
  rw [outcome_perform]
  rfl

/-- What goes by the active object may go on by it. -/
theorem bind (first : ByActive root act) (next : ∀ a, ByActive root (f a)) :
    ByActive root (act >>= f) := by
  intro world cache object
  obtain ⟨answer, world', cache', events, ran⟩ := first world cache object
  cases answer with
  | error e =>
    refine ⟨.error e, world', cache', events, fun active trail at_object => ?_⟩
    exact outcome_bind_of_error (ran active trail at_object)
  | ok a =>
    -- The active objects are as they were, so the same one is current for the second step.
    obtain ⟨answer, world'', cache'', later, others⟩ := next a world' cache' object
    refine ⟨answer, world'', cache'', later ++ events, fun active trail at_object => ?_⟩
    rw [outcome_bind_of_ok (ran active trail at_object), others active _ at_object,
      List.append_assoc]

theorem ite {p : Prop} [Decidable p] {a b : EvalM σ α} (yes : ByActive root a)
    (no : ByActive root b) : ByActive root (if p then a else b) := by
  by_cases h : p
  · rw [if_pos h]
    exact yes
  · rw [if_neg h]
    exact no

/-- What has an active object of its own has the same one in any state. -/
theorem withActive (h : ByActive root act) (object : Value) :
    ByActive root (EvalM.withActive object act) := by
  intro world cache _
  obtain ⟨answer, world', cache', events, ran⟩ := h world cache object
  refine ⟨answer, world', cache', events, fun active trail _ => ?_⟩
  rw [outcome_withActive, ran (object :: active) trail rfl]
  rfl

theorem firstMatch {query : Nat → ρ → EvalM σ (Option α)}
    (each : ∀ i r, ByActive root (query i r)) (l : List (Nat × ρ)) :
    ByActive root (Chain.firstMatch query l) := by
  induction l with
  | nil => exact .pure none
  | cons e rest ih =>
    rw [Chain.firstMatch]
    refine (each e.1 e.2).bind fun found => ?_
    cases found with
    | none => exact ih
    | some a => exact .pure _

theorem search {query : Nat → ρ → EvalM σ (Option α)} (each : ∀ i r, ByActive root (query i r))
    (c : Chain ρ) (hint : Option Nat) : ByActive root (c.search hint query) := by
  rw [Chain.search_eq_firstMatch]
  exact firstMatch each _

end ByActive

/-- An active object lasts for a sequence if the first step leaves it. -/
theorem withActive_bind {act : EvalM σ α} {f : α → EvalM σ β} (object : Value)
    (restored : ∀ s, (act.outcome s).2.active = s.active) :
    withActive object (act >>= f) = withActive object act >>= fun a => withActive object (f a) := by
  refine ext fun s => ?_
  have kept := restored { s with active := object :: s.active }
  rw [outcome_withActive, outcome_bind, outcome_bind, outcome_withActive]
  rcases ran : act.outcome { s with active := object :: s.active } with ⟨answer, s'⟩
  rw [ran] at kept
  cases answer with
  | error e => rfl
  | ok a =>
    dsimp only at kept ⊢
    rw [outcome_withActive, kept]
    have same : { s' with active := object :: s.active } = s' := by rw [← kept]
    dsimp only [List.tail_cons]
    rw [same]

end EvalM

namespace Context

open EvalM (ByActive)

variable {σ ρ : Type} {ctx : Context σ} {reenter : Reenter σ} {root : Value}

/-! ### Variables and accesses -/

theorem variableValue_byActive (name : String) : ByActive ctx.root (ctx.variableValue name) := by
  rw [variableValue]
  refine .ite (.pure _) (.ite .activeObject ?_)
  cases ctx.bindings.find? name with
  | none => exact .throw _
  | some value => exact .pure value

theorem locate_byActive {β : Type} {key : CacheKey} {g : Generation}
    {find : Option Nat → EvalM σ (Option (Nat × β))} (finds : ∀ hint, ByActive root (find hint)) :
    ByActive root (locate key g find) := by
  refine (ByActive.hintFor key g).bind fun hint => (finds hint).bind fun found => ?_
  cases found with
  | none => exact (ByActive.pure ()).bind fun _ => .pure none
  | some entry => exact (ByActive.remember key g entry.1).bind fun _ => .pure (some entry)

variable [Host σ]

/-- Asking whether somebody has an ability, and having it made use of. -/
theorem ability_byActive {γ : Type} {key : View → CacheKey} {g : Generation} {c : Chain ρ}
    {query : Nat → ρ → EvalM σ (Option Unit)} {use : Option (Nat × ρ) → EvalM σ γ}
    (asks : ∀ i r, ByActive root (query i r)) (uses : ∀ located, ByActive root (use located)) :
    ByActive root (do
      let view ← EvalM.view
      let located ← locate (key view) g fun hint => do
        let found ← c.search hint query
        return found.map fun (i, r, _) => (i, r)
      use located) := by
  refine ByActive.view.bind fun view => (locate_byActive fun hint => ?_).bind uses
  exact ByActive.bind (.search asks c hint) fun _ => .pure _

theorem readProperty_byActive (node : NodeId) (property : String) (target : Value) :
    ByActive root (ctx.readProperty reenter node property target) := by
  refine ability_byActive (fun i r => (ByActive.perform _ _ _).bind fun _ => .pure _) fun found => ?_
  cases found with
  | none => exact ByActive.view.bind fun _ => .throw _
  | some entry => exact .perform _ _ _

theorem writeProperty_byActive (node : NodeId) (property : String) (target value : Value) :
    ByActive root (ctx.writeProperty reenter node property target value) := by
  refine ability_byActive (fun i r => (ByActive.perform _ _ _).bind fun _ => .pure _) fun found => ?_
  cases found with
  | none => exact ByActive.view.bind fun _ => .throw _
  | some entry => exact .perform _ _ _

theorem callMethod_byActive (node : NodeId) (method : String) (target : Value)
    (args : List Value) : ByActive root (ctx.callMethod reenter node method target args) := by
  refine ByActive.view.bind fun view => (locate_byActive fun hint => ?_).bind fun found => ?_
  · exact .search (fun i r => .perform _ _ _) _ _
  · cases found with
    | none => exact ByActive.view.bind fun _ => .throw _
    | some entry =>
      refine ByActive.bind ?_ fun prepared => .perform _ _ _
      unfold prepareArguments
      cases entry.2.2.signature with
      | none => exact .pure args
      | some s => exact ByActive.view.bind fun _ => .ofExcept _

/-! ### Evaluations -/

theorem truthOf_byActive (operator : String) (v : Value) :
    ByActive root (truthOf operator v : EvalM σ Bool) :=
  ByActive.view.bind fun _ => .ofExcept _

structure GoesByActive (ctx : Context σ) (reenter : Reenter σ) (e : Expr) : Prop where
  evaluate : ByActive ctx.root (ctx.evaluate reenter e)
  assign : ∀ value, ByActive ctx.root (ctx.assign reenter e value)

section Operands

variable {es : List Expr} (each : ∀ e ∈ es, ByActive ctx.root (ctx.evaluate reenter e))

include each

theorem evaluateEach_byActive : ByActive ctx.root (ctx.evaluateEach reenter es) := by
  induction es with
  | nil => exact .pure []
  | cons e es ih =>
    have others := ih fun u mem => each u (List.mem_cons_of_mem e mem)
    rw [evaluateEach]
    exact (each e List.mem_cons_self).bind fun v => others.bind fun vs => .pure _

theorem evaluatePath_byActive (first : Value) :
    ByActive ctx.root (ctx.evaluatePath reenter first es) := by
  induction es generalizing first with
  | nil => exact .pure first
  | cons e es ih =>
    have others := ih fun u mem => each u (List.mem_cons_of_mem e mem)
    rw [evaluatePath]
    exact ((each e List.mem_cons_self).withActive first).bind others

/-- With an object active for all of them, expressions are evaluated one by one on their own. -/
theorem withActive_evaluateEach (object : Value) :
    EvalM.withActive object (ctx.evaluateEach reenter es) =
      es.mapM fun e => EvalM.alone object (ctx.evaluate reenter e) := by
  induction es with
  | nil => rfl
  | cons e es ih =>
    have mine := each e List.mem_cons_self
    have rest : ∀ u ∈ es, ByActive ctx.root (ctx.evaluate reenter u) :=
      fun u mem => each u (List.mem_cons_of_mem e mem)
    have others := evaluateEach_byActive rest
    rw [evaluateEach, EvalM.withActive_bind object mine.restored, mine.withActive_eq,
      List.mapM_cons, ← ih rest]
    congr 1
    funext v
    rw [EvalM.withActive_bind object others.restored]
    rfl

/-- Along a path each segment is evaluated on its own with the value of the one before. -/
theorem evaluatePath_eq_foldlM (first : Value) :
    ctx.evaluatePath reenter first es =
      es.foldlM (fun object e => EvalM.alone object (ctx.evaluate reenter e)) first := by
  induction es generalizing first with
  | nil => rfl
  | cons e es ih =>
    have others := ih fun u mem => each u (List.mem_cons_of_mem e mem)
    rw [evaluatePath, (each e List.mem_cons_self).withActive_eq, List.foldlM_cons, funext others]

end Operands

/-- **Every expression is evaluated and assigned to by the current active object.** -/
theorem goesByActive (ctx : Context σ) (reenter : Reenter σ) (e : Expr) :
    ctx.GoesByActive reenter e := by
  induction e using Tree.induction with
  | literal i s value => exact ⟨.pure _, fun _ => .throw _⟩
  | var i s name =>
    refine ⟨?_, fun _ => .throw _⟩
    rw [evaluate]
    exact variableValue_byActive name
  | property i s name =>
    constructor
    · rw [evaluate]
      exact ByActive.activeObject.bind fun target => readProperty_byActive i name target
    · intro value
      rw [assign]
      exact ByActive.activeObject.bind fun object => writeProperty_byActive i name object value
  | call i s name args each =>
    refine ⟨?_, fun _ => .throw _⟩
    have values := evaluateEach_byActive fun e mem => (each e mem).evaluate
    rw [evaluate]
    refine ByActive.activeObject.bind fun target => (values.withActive _).bind fun vs => ?_
    exact callMethod_byActive i name target vs
  | path i s segments each =>
    constructor
    · rw [evaluate]
      refine ByActive.activeObject.bind fun first => ?_
      exact evaluatePath_byActive (fun e mem => (each e mem).evaluate) first
    · intro value
      rw [assign]
      refine (ByActive.ofExcept _).bind fun found => ByActive.activeObject.bind fun first => ?_
      rw [evaluatePrefix_eq]
      have before_last : ∀ e ∈ segments.dropLast, ByActive ctx.root (ctx.evaluate reenter e) :=
        fun e mem => (each e (List.dropLast_subset _ mem)).evaluate
      refine (evaluatePath_byActive before_last first).bind fun object => ?_
      exact writeProperty_byActive found.1 found.2 object value
  | binary i s op l r left right =>
    refine ⟨?_, fun _ => .throw _⟩
    cases op with
    | and =>
      rw [evaluate]
      refine left.evaluate.bind fun x => (truthOf_byActive _ x).bind fun b => .ite ?_ (.pure _)
      exact right.evaluate.bind fun y => (truthOf_byActive _ y).bind fun _ => .pure _
    | or =>
      rw [evaluate]
      refine left.evaluate.bind fun x => (truthOf_byActive _ x).bind fun b => .ite (.pure _) ?_
      exact right.evaluate.bind fun y => (truthOf_byActive _ y).bind fun _ => .pure _
    | _ =>
      rw [evaluate]
      · refine left.evaluate.bind fun x => right.evaluate.bind fun y => ?_
        exact ByActive.view.bind fun view => .ofExcept _
      all_goals simp
  | unary i s op operand visited =>
    refine ⟨?_, fun _ => .throw _⟩
    rw [evaluate]
    exact visited.evaluate.bind fun v => ByActive.view.bind fun view => .ofExcept _
  | ternary i s c t f condition whenTrue whenFalse =>
    refine ⟨?_, fun _ => .throw _⟩
    rw [evaluate]
    refine condition.evaluate.bind fun test => (truthOf_byActive _ test).bind fun b => ?_
    exact .ite whenTrue.evaluate whenFalse.evaluate
  | list i s items each =>
    refine ⟨?_, fun _ => .throw _⟩
    rw [evaluate]
    exact (evaluateEach_byActive fun e mem => (each e mem).evaluate).bind fun vs => .pure _
  | assign i s target value assigned visited =>
    refine ⟨?_, fun _ => .throw _⟩
    rw [evaluate]
    exact visited.evaluate.bind fun v => (assigned.assign v).bind fun _ => .pure v

structure KeepsToActive (ctx : Context σ) (reenter : Reenter σ) : Prop where
  /-- An evaluation uses the current one only, and restores all of them, also if it fails. -/
  evaluation : ∀ e, ByActive ctx.root (ctx.evaluate reenter e)
  /-- So does an assignment. -/
  assignment : ∀ e value, ByActive ctx.root (ctx.assign reenter e value)
  /-- The arguments of a call are evaluated one by one, up to the first failure, as expressions of
  their own with the root object active, whatever the call is a member of. -/
  arguments : ∀ node span name args, ctx.evaluate reenter (.call node span name args) = do
    let target ← EvalM.activeObject ctx.root
    let values ← args.mapM fun arg => EvalM.alone ctx.root (ctx.evaluate reenter arg)
    ctx.callMethod reenter node name target values
  /-- On its own with the root object active an expression is evaluated as a compiled one is, with
  the same answer and the same interactions. -/
  own : ∀ (c : Compiled) (s : EvalState σ), s.cache = (c.entry ctx s.world).cache →
    let ran := (EvalM.alone ctx.root (ctx.evaluate reenter c.expr)).outcome s
    let outcome := c.getValue ctx reenter s.world
    ran.1 = outcome.result ∧ ran.2.world = outcome.world ∧ ran.2.trail = outcome.trail ++ s.trail
  /-- The segments of a path are evaluated one by one on their own, each with the value of the one
  before active. -/
  segments : ∀ node span segments, ctx.evaluate reenter (.path node span segments) = do
    let first ← EvalM.activeObject ctx.root
    segments.foldlM (fun object e => EvalM.alone object (ctx.evaluate reenter e)) first

/-- **Of the active objects only the current one matters, and all are restored.** The arguments of
calls are evaluated as expressions of their own with the root object active. -/
theorem keeps_to_active (ctx : Context σ) (reenter : Reenter σ) : ctx.KeepsToActive reenter where
  evaluation e := (ctx.goesByActive reenter e).evaluate
  assignment e := (ctx.goesByActive reenter e).assign
  arguments node span name args := by
    rw [evaluate, withActive_evaluateEach fun e _ => (ctx.goesByActive reenter e).evaluate]
  own c s at_entry := by
    rw [EvalM.outcome_alone, at_entry]
    exact ⟨rfl, rfl, rfl⟩
  segments node span segments := by
    rw [evaluate]
    congr 1
    funext first
    exact evaluatePath_eq_foldlM (fun e _ => (ctx.goesByActive reenter e).evaluate) first

end Context

end HostExpr
