import HostExpr.Proofs.Eval.Succession
import HostExpr.Proofs.Registry.Inheritance

/-!
What an assignment does once its operands have values.

The value comes first, then the object whose property is named, then the question who can write it,
and a write is the last thing of all. `Context.Course` has one case for each place where an
assignment can end: in all but the last of them nothing is written. Assignments take this course
whatever their target, and a resolver over a registry that cannot convert the value leaves the host
as it is: `Context.failed_assignment_writes_nothing`.
-/

namespace HostExpr

variable {σ : Type}

/-- What can be assigned to: a property, alone or after other segments of a path. -/
inductive Expr.NamesProperty : Expr → List Expr → NodeId → String → Prop where
  | alone {node : NodeId} {p : Span} {name : String} :
      NamesProperty (.property node p name) [] node name
  | afterOthers {i node : NodeId} {p q : Span} {segments : List Expr} {name : String} :
      NamesProperty (.path i p (segments ++ [.property node q name])) segments node name

namespace Question

variable {ρ α : Type} {q : Question σ ρ α} {members : List (Nat × ρ)} {w w' : σ}
  {events : List (Event σ)} {found : Except EvalError (Option (Nat × ρ × α))}

/-- Whoever is found is one of those that may be asked. -/
theorem Answered.mem {i : Nat} {r : ρ} {a : α}
    (asked : q.Answered members w events (.ok (some (i, r, a))) w') : (i, r) ∈ members := by
  generalize accepts : (.ok (some (i, r, a)) : Except EvalError _) = found at asked
  induction asked with
  | byNobody => cases accepts
  | declined _ _ ih => exact List.mem_cons_of_mem _ (ih accepts)
  | accepted _ =>
    cases accepts
    exact List.mem_cons_self
  | failed _ _ => cases accepts

/-- A question that changes nothing can be put to any number of resolvers without a change. -/
theorem Answered.world_eq (asked : q.Answered members w events found w')
    (quiet : ∀ e ∈ members, ∀ w answer w', (q.ask e.2).run.run w = (answer, w') → w' = w) :
    w' = w := by
  induction asked with
  | byNobody => rfl
  | declined asked _ ih =>
    rw [ih fun e mem => quiet e (List.mem_cons_of_mem _ mem)]
    exact quiet _ List.mem_cons_self _ _ _ asked
  | accepted asked => exact quiet _ List.mem_cons_self _ _ _ asked
  | failed asked _ => exact quiet _ List.mem_cons_self _ _ _ asked

end Question

namespace Context

variable [Host σ] (ctx : Context σ) (reenter : Reenter σ)

/-! ### The course of an assignment -/

/-- The object whose property is named after some segments of a path. -/
def owner (segments : List Expr) : EvalM σ Value := do
  ctx.evaluatePath reenter (← EvalM.activeObject ctx.root) segments

/-- The operands of an assignment have values: first what is to be written, then the object whose
property the target names. -/
def Ready (target : Expr) (given : EvalM σ Value) (s : EvalState σ) (value object : Value)
    (property : String) (left : EvalState σ) : Prop :=
  ∃ segments node between, target.NamesProperty segments node property ∧
    given.outcome s = (.ok value, between) ∧
    (ctx.owner reenter segments).outcome between = (.ok object, left)

/-- The course of an assignment of what a computation gives: the state in which its operands were
left, the questions who can write, the write if there is one, and what becomes of it all. -/
inductive Course (target : Expr) (given : EvalM σ Value) (s : EvalState σ) :
    EvalState σ → List (Event σ) → Option (Event σ) → Except EvalError Value × EvalState σ →
      Prop where
  | valueFailed {e : EvalError} {left : EvalState σ} (valued : given.outcome s = (.error e, left)) :
      Course target given s left [] none (.error e, left)
  | notAssignable {value : Value} {what : NotAProperty} {left : EvalState σ}
      (valued : given.outcome s = (.ok value, left))
      (unnamed : ∀ segments node property, ¬target.NamesProperty segments node property) :
      Course target given s left [] none (.error (.notAssignable what), left)
  | ownerFailed {segments : List Expr} {node : NodeId} {property : String} {value : Value}
      {between left : EvalState σ} {e : EvalError}
      (named : target.NamesProperty segments node property)
      (valued : given.outcome s = (.ok value, between))
      (owned : (ctx.owner reenter segments).outcome between = (.error e, left)) :
      Course target given s left [] none (.error e, left)
  | noWriter {value object : Value} {property : String} {left : EvalState σ} {hint : Option Nat}
      {asked : List (Event σ)} {w : σ} {cache : Option ResolutionCache}
      (ready : ctx.Ready reenter target given s value object property left)
      (declined : (ctx.writeQuestion reenter object property).Answered
        (ctx.properties.queryOrder hint) left.world asked (.ok none) w) :
      Course target given s left asked none
        (.error (.unwritableProperty property (object.valueType (Host.view w))),
          { left with world := w, cache, trail := asked.reverse ++ left.trail })
  | askingFailed {value object : Value} {property : String} {left : EvalState σ}
      {hint : Option Nat} {asked : List (Event σ)} {w : σ} {cache : Option ResolutionCache}
      {e : EvalError} (ready : ctx.Ready reenter target given s value object property left)
      (failed : (ctx.writeQuestion reenter object property).Answered
        (ctx.properties.queryOrder hint) left.world asked (.error e) w) :
      Course target given s left asked none
        (.error e, { left with world := w, cache, trail := asked.reverse ++ left.trail })
  /-- Whoever says that it can write does so, and that is the end, whatever comes of it. -/
  | written {value object : Value} {property : String} {left : EvalState σ} {hint : Option Nat}
      {asked : List (Event σ)} {i : Nat} {r : PropertyResolver σ} {w w' : σ}
      {cache : Option ResolutionCache} {e : Event σ} {answer : Except EvalError Value}
      (ready : ctx.Ready reenter target given s value object property left)
      (accepted : (ctx.writeQuestion reenter object property).Answered
        (ctx.properties.queryOrder hint) left.world asked (.ok (some (i, r, ()))) w)
      (performed : Performed r.name (r.write (ctx.environment reenter) object property value)
        (.write i r.name object property value) (fun _ => value) w [e] answer w') :
      Course target given s left asked (some e)
        (answer, { left with
          world := w', cache, trail := e :: (asked.reverse ++ left.trail) })

variable {ctx : Context σ} {reenter : Reenter σ} {target : Expr} {given : EvalM σ Value}
  {s left : EvalState σ} {value : Value} {segments : List Expr} {node : NodeId}
  {property : String} {asked : List (Event σ)} {written : Option (Event σ)}
  {outcome : Except EvalError Value × EvalState σ}

/-- A path names the property that it ends with, or cannot be assigned to. -/
theorem lastProperty_cases (segments : List Expr) :
    (∃ others node q property, segments = others ++ [.property node q property] ∧
      lastProperty segments = .ok (node, property)) ∨
    ∃ what, lastProperty segments = .error (.notAssignable what) := by
  unfold lastProperty
  split
  · exact .inr ⟨_, rfl⟩
  · next node q property ends =>
    obtain ⟨others, rfl⟩ := List.getLast?_eq_some_iff.mp ends
    exact .inl ⟨others, node, q, property, rfl, rfl⟩
  · exact .inr ⟨_, rfl⟩

theorem assign_of_named (named : target.NamesProperty segments node property) (value : Value) :
    ctx.assign reenter target value = (do
      let object ← ctx.owner reenter segments
      ctx.writeProperty reenter node property object value) := by
  cases named with
  | alone => simp [assign, owner, evaluatePath]
  | @afterOthers i node p q segments property =>
    have ends : lastProperty (segments ++ [.property node q property]) = .ok (node, property) := by
      simp [lastProperty]
    rw [assign, ends, EvalM.ofExcept_ok_bind, owner, bind_assoc]
    simp only [evaluatePrefix_eq, List.dropLast_concat]

/-- Nothing but a property can be assigned to, alone or at the end of a path. -/
theorem assign_of_unnamed (ctx : Context σ) (reenter : Reenter σ)
    (unnamed : ∀ segments node property, ¬target.NamesProperty segments node property) :
    ∃ what, ∀ value, ctx.assign reenter target value = throw (.notAssignable what) := by
  cases target with
  | property node p name => exact absurd .alone (unnamed [] node name)
  | path i p segments =>
    rcases lastProperty_cases segments with ⟨others, node, q, property, rfl, -⟩ | ⟨what, ends⟩
    · exact absurd .afterOthers (unnamed others node property)
    · refine ⟨what, fun value => ?_⟩
      rw [assign, ends, EvalM.ofExcept_error_bind]
  | _ => exact ⟨_, fun value => by rw [assign] <;> simp⟩

def assignment (ctx : Context σ) (reenter : Reenter σ) (target : Expr) (given : EvalM σ Value) :
    EvalM σ Value := do
  let value ← given
  ctx.assign reenter target value
  return value

/-- Once the operands have values, what is left is to search for a writer, and to write. -/
theorem write_takes_course {object : Value}
    (ready : ctx.Ready reenter target given s value object property left) (node : NodeId) :
    ∃ asked written, ctx.Course reenter target given s left asked written
      ((ctx.writeProperty reenter node property object value >>= fun _ => pure value).outcome
        left) := by
  have follows : (ctx.writeProperty reenter node property object value >>=
      fun _ => pure value).Follows (ctx.Accesses reenter (.write object property value)) left :=
    writeProperty_follows node property object value fun _ => rfl
  obtain ⟨events, answer, w, cache, ran, accessed⟩ := follows
  rw [ran]
  cases accessed with
  | missing declined => exact ⟨_, _, .noWriter ready declined⟩
  | failed failed => exact ⟨_, _, .askingFailed ready failed⟩
  | found accepted used =>
    obtain ⟨wrote, -, rfl⟩ := used.noted
    rw [List.reverse_append, List.reverse_singleton, List.singleton_append, List.cons_append]
    exact ⟨_, _, .written ready accepted used⟩

/-- **An assignment takes its course**, whatever it is assigned to. -/
theorem assignment_takes_course (ctx : Context σ) (reenter : Reenter σ) (target : Expr)
    (given : EvalM σ Value) (s : EvalState σ) :
    ∃ left asked written, ctx.Course reenter target given s left asked written
      ((ctx.assignment reenter target given).outcome s) := by
  unfold assignment
  rcases valued : given.outcome s with ⟨answer, between⟩
  cases answer with
  | error e =>
    rw [EvalM.outcome_bind_of_error valued]
    exact ⟨_, _, _, .valueFailed valued⟩
  | ok value =>
    rw [EvalM.outcome_bind_of_ok valued]
    by_cases named : ∃ segments node property, target.NamesProperty segments node property
    · obtain ⟨segments, node, property, named⟩ := named
      rw [assign_of_named named, bind_assoc]
      rcases owned : (ctx.owner reenter segments).outcome between with ⟨answer, left⟩
      cases answer with
      | error e =>
        rw [EvalM.outcome_bind_of_error owned]
        exact ⟨_, _, _, .ownerFailed named valued owned⟩
      | ok object =>
        rw [EvalM.outcome_bind_of_ok owned]
        exact ⟨left, write_takes_course ⟨segments, node, between, named, valued, owned⟩ node⟩
    · have unnamed : ∀ segments node property, ¬target.NamesProperty segments node property :=
        fun segments node property names => named ⟨segments, node, property, names⟩
      obtain ⟨what, refused⟩ := ctx.assign_of_unnamed reenter unnamed
      rw [refused]
      exact ⟨_, _, _, .notAssignable valued unnamed⟩

/-! ### Along the course -/

/-- The resolvers of a context say whether they can write without changing the host. -/
def WritersQuiet (ctx : Context σ) (reenter : Reenter σ) : Prop :=
  ∀ r ∈ ctx.properties.order, ∀ object property w,
    ((r.canWrite (ctx.environment reenter) object property).run.run w).2 = w

omit [Host σ] in
theorem WritersQuiet.world_eq (quiet : ctx.WritersQuiet reenter) {object : Value}
    {hint : Option Nat} {w w' : σ} {events : List (Event σ)}
    {found : Except EvalError (Option (Nat × PropertyResolver σ × Unit))}
    (asked : (ctx.writeQuestion reenter object property).Answered
      (ctx.properties.queryOrder hint) w events found w') : w' = w := by
  refine asked.world_eq fun e mem w answer w' ran => ?_
  have member := Chain.mem_order_of_get? (Chain.mem_queryOrder.mp mem)
  have unmoved := quiet e.2 member object property w
  change (e.2.canWrite (ctx.environment reenter) object property >>= fun able =>
    pure (if able then some () else none)).run.run w = (answer, w') at ran
  rw [HostM.run_bind] at ran
  rcases answered : (e.2.canWrite (ctx.environment reenter) object property).run.run w
    with ⟨able, world⟩
  rw [answered] at ran unmoved
  cases able <;> (cases ran; exact unmoved)

/-- Those over registries do. -/
theorem writersQuiet_of_registries
    (registries : ∀ r ∈ ctx.properties.order,
      ∃ registry : TypeRegistry σ, r = registry.propertyResolver) : ctx.WritersQuiet reenter := by
  intro r mem object property w
  obtain ⟨registry, rfl⟩ := registries r mem
  rw [registry.run_canWrite]

structure Aftermath (ctx : Context σ) (reenter : Reenter σ) (target : Expr) (given : EvalM σ Value)
    (s left : EvalState σ) (asked : List (Event σ)) (written : Option (Event σ))
    (outcome : Except EvalError Value × EvalState σ) : Prop where
  /-- After the operands there are questions, and last of all the write, if there is one. -/
  trail : outcome.2.trail = written.toList ++ (asked.reverse ++ left.trail)
  asks : ∀ e ∈ asked, ∃ i name object property answer,
    e.interaction = .canWrite i name object property answer
  /-- What is written is the value, to the object whose property the target names. -/
  writes : ∀ e ∈ written, ∃ i name object property value answer,
    ctx.Ready reenter target given s value object property left ∧
      e.interaction = .write i name object property value answer
  failed : written = none → ∃ e, outcome.1 = .error e
  /-- Without a write, the host is as the operands left it, unless the questions changed it. -/
  untouched : ctx.WritersQuiet reenter → written = none → outcome.2.world = left.world
  untouched_before : ctx.WritersQuiet reenter → ∀ e ∈ written, e.before = left.world
  /-- A resolver over a registry that cannot convert the value changes nothing. -/
  unconverted : ∀ (registry : TypeRegistry σ) (e : Event σ) i name object property value answer p x,
    written = some e → e.interaction = .write i name object property value answer →
    ctx.properties.get? i = some registry.propertyResolver →
    registry.findProperty (object.typeName (Host.view e.before)) property = some p →
    ctx.converter.convert (Host.view e.before) value p.valueType = .error x →
      outcome.2.world = e.before ∧ ∃ failure, outcome.1 = .error failure

theorem Course.aftermath (course : ctx.Course reenter target given s left asked written outcome) :
    ctx.Aftermath reenter target given s left asked written outcome where
  trail := by cases course <;> rfl
  asks e mem := by
    cases course with
    | noWriter _ search | askingFailed _ search | written _ search _ =>
      obtain ⟨i, r, answer, same⟩ := search.poses e mem
      exact ⟨i, r.name, _, _, _, same⟩
    | _ => cases mem
  writes e mem := by
    cases course with
    | written ready _ performed =>
      cases mem
      obtain ⟨wrote, -, same⟩ := performed.noted
      cases same
      exact ⟨_, _, _, _, _, wrote, ready, rfl⟩
    | _ => cases mem
  failed unwritten := by
    cases course with
    | written => cases unwritten
    | _ => exact ⟨_, rfl⟩
  untouched quiet unwritten := by
    cases course with
    | noWriter _ declined => exact quiet.world_eq declined
    | askingFailed _ failed => exact quiet.world_eq failed
    | written => cases unwritten
    | _ => rfl
  untouched_before quiet e mem := by
    cases course with
    | written _ accepted performed =>
      cases mem
      obtain ⟨wrote, -, same⟩ := performed.noted
      cases same
      exact quiet.world_eq accepted
    | _ => cases mem
  unconverted registry e i name object property value answer p x writes acts writer declared
      unconverted := by
    cases course with
    | written _ accepted performed =>
      cases writes
      obtain ⟨wrote, -, same⟩ := performed.noted
      cases same
      cases acts
      cases (Chain.mem_queryOrder.mp accepted.mem).symm.trans writer
      have refused : ∃ failure, (registry.propertyResolver.write (ctx.environment reenter) object
          property value).run.run _ = (.error failure, _) :=
        registry.run_write_of_unconverted declared unconverted
      obtain ⟨failure, ran⟩ := refused
      cases performed with
      | achieved acted => cases acted.symm.trans ran
      | failed acted _ =>
        cases acted.symm.trans ran
        exact ⟨rfl, _, rfl⟩
    | _ => cases writes

/-- Setting a value is an assignment of that value. -/
theorem outcome_assignment_of_setValue (ctx : Context σ) (reenter : Reenter σ) (c : Compiled)
    (value : Value) (world : σ) :
    (ctx.assignment reenter c.expr (pure value)).outcome (c.entry ctx world) =
      ((c.setValue ctx reenter value world).result.map fun _ => value,
        ((ctx.assign reenter c.expr value).outcome (c.entry ctx world)).2) := by
  have result : (c.setValue ctx reenter value world).result =
      ((ctx.assign reenter c.expr value).outcome (c.entry ctx world)).1 := rfl
  rw [assignment, pure_bind, EvalM.outcome_bind, result]
  rcases (ctx.assign reenter c.expr value).outcome (c.entry ctx world) with ⟨answer, after⟩
  cases answer <;> rfl

/-- **A failed assignment writes nothing.** An assignment takes its course, as part of an evaluation
or on its own, from whatever state and whatever is assigned to. It writes once at most, after its
value, the object and the question who can write, and says nothing to resolvers afterwards. If it
ends before, the host is as its operands left it, unless the questions changed it; and so it is if a
resolver over a registry cannot convert the value to the type of the property. Nothing is said to
resolvers about what names no property. -/
theorem failed_assignment_writes_nothing (ctx : Context σ) (reenter : Reenter σ) :
    (∀ target node span operand s, ∃ left asked written,
      ctx.Course reenter target (ctx.evaluate reenter operand) s left asked written
        ((ctx.evaluate reenter (.assign node span target operand)).outcome s)) ∧
    (∀ (c : Compiled) value world, ∃ left asked written after,
      ctx.Course reenter c.expr (pure value) (c.entry ctx world) left asked written
        ((c.setValue ctx reenter value world).result.map fun _ => value, after) ∧
      (c.setValue ctx reenter value world).world = after.world ∧
      (c.setValue ctx reenter value world).trail = after.trail) ∧
    (∀ target given s left asked written outcome,
      ctx.Course reenter target given s left asked written outcome →
        ctx.Aftermath reenter target given s left asked written outcome) ∧
    ∀ (c : Compiled) value world,
      (∀ segments node property, ¬c.expr.NamesProperty segments node property) →
        (c.setValue ctx reenter value world).trail = [] ∧
        (c.setValue ctx reenter value world).world = world ∧
        ∃ what, (c.setValue ctx reenter value world).result = .error (.notAssignable what) := by
  refine ⟨fun target node span operand s => ?_, fun c value world => ?_,
    fun _ _ _ _ _ _ _ course => course.aftermath, fun c value world unnamed => ?_⟩
  · rw [evaluate]
    exact ctx.assignment_takes_course reenter target _ s
  · obtain ⟨left, asked, written, course⟩ :=
      ctx.assignment_takes_course reenter c.expr (pure value) (c.entry ctx world)
    rw [outcome_assignment_of_setValue] at course
    exact ⟨left, asked, written, _, course, rfl, rfl⟩
  · obtain ⟨what, refused⟩ := ctx.assign_of_unnamed reenter unnamed
    unfold Compiled.setValue
    rw [refused]
    exact ⟨rfl, rfl, what, rfl⟩

/-- The nickname is assigned within the assignment of the age, and stays assigned when it turns out
that it is no age. A literal cannot be assigned to. -/
theorem failed_assignment_writes_nothing_of_text :
    let person (nick : String) : View := fun _ => some ⟨"Person", fun _ => false, nick⟩
    let nick : PropertyDef View :=
      { valueType := .string, get := fun _ => pure .null
        set := some fun _ v => set (person (v.string?.getD "")) }
    let age : PropertyDef View :=
      { valueType := .int, get := fun _ => pure .null, set := some fun _ _ => set (person "") }
    let registry : TypeRegistry View := ({} : TypeRegistry View).register
      { name := "Person", properties := (Table.empty.insert "nick" nick).insert "age" age }
    let ctx : Context View :=
      { root := .object ⟨0⟩
        converter := ({} : StandardConverter).toConverter
        properties := ⟨[registry.propertyResolver], none, ⟨0⟩⟩
        methods := ⟨[], none, ⟨1⟩⟩ }
    let reenter : Reenter View := fun _ => pure (.ok .null)
    let operand : Expr :=
      .assign 3 ⟨6, 18⟩ (.property 1 ⟨6, 10⟩ "nick") (.literal 2 ⟨13, 18⟩ (.string "Bob"))
    let target : Expr := .property 0 ⟨0, 3⟩ "age"
    let s : EvalState View := { world := person "Robert", active := [], cache := none }
    let outcome := (ctx.evaluate reenter (.assign 4 ⟨0, 18⟩ target operand)).outcome s
    outcome.2.world = person "Bob" ∧ (∃ failure, outcome.1 = .error failure) ∧
      ((Compiled.new "3" (.literal 0 ⟨0, 1⟩ (.number (.int 3))) true).setValue ctx reenter .null
        (person "Robert")).trail = [] := by
  intro person nick age registry ctx reenter operand target s outcome
  let object : Value := .object ⟨0⟩
  let refusal : AccessError :=
    .causedBy "cannot assign 'age'" (.typeMismatch (.unreadable "Bob" .int))
  let able (world : View) (property : String) : Event View :=
    ⟨world, .canWrite 0 "reflective" object property (.ok true)⟩
  let write (world : View) (property : String) (answer : Except AccessError Unit) : Event View :=
    ⟨world, .write 0 "reflective" object property (.string "Bob") answer⟩
  let left : EvalState View :=
    { world := person "Bob", active := [], cache := none
      trail := [write (person "Robert") "nick" (.ok ()), able (person "Robert") "nick"] }
  have valued : (ctx.evaluate reenter operand).outcome s = (.ok (.string "Bob"), left) := rfl
  have ready : ctx.Ready reenter target (ctx.evaluate reenter operand) s (.string "Bob") object
      "age" left := ⟨[], 0, left, .alone, valued, rfl⟩
  have accepted : (ctx.writeQuestion reenter object "age").Answered (ctx.properties.queryOrder none)
      left.world [able left.world "age"] (.ok (some (0, registry.propertyResolver, ())))
      left.world := .accepted rfl
  have acted : (registry.propertyResolver.write (ctx.environment reenter) object "age"
      (.string "Bob")).run.run left.world = (.error refusal, left.world) := rfl
  have ends : outcome = (.error (.resolverAccess "reflective" refusal), { left with
      cache := none
      trail := write left.world "age" (.error refusal) :: able left.world "age" :: left.trail }) :=
    Prod.ext rfl rfl
  obtain ⟨-, -, aftermath, unnamed⟩ := failed_assignment_writes_nothing ctx reenter
  have course : ctx.Course reenter target (ctx.evaluate reenter operand) s left
      [able left.world "age"] (some (write left.world "age" (.error refusal))) outcome := by
    rw [ends]
    exact .written ready accepted (.failed acted .wrapped)
  have quiet : ctx.WritersQuiet reenter := writersQuiet_of_registries fun r mem =>
    ⟨registry, List.mem_singleton.mp mem⟩
  have aftermath := aftermath _ _ _ _ _ _ _ course
  obtain ⟨world, failed⟩ := aftermath.unconverted registry _ 0 "reflective" object "age"
    (.string "Bob") _ age _ rfl rfl rfl rfl rfl
  refine ⟨world.trans (aftermath.untouched_before quiet _ rfl), failed, (unnamed _ _ _ ?_).1⟩
  intro segments node property names
  cases names

end Context

end HostExpr
