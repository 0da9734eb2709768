import HostExpr.Proofs.Registry.Shape
import HostExpr.Proofs.Session.Serving
import HostExpr.Proofs.Session.Transparency

/-!
Runs in which the converter is replaced.

What an expression remembers is tied to the members of a chain, not to the converter, although a
resolver over a registry asks the converter which overloads fit. So a remembered position is still
the first to answer only as long as nobody before it finds more under a later converter
(`Session.run_replacing_converters`). Resolvers by shape never do, and a resolver over a registry
does not if the converters only get to convert less (`TypeRegistry.methodResolver_keepsDeclining`).
A converter that can convert more may be overlooked (`run_replacing_converters_overlooks`).
-/

namespace HostExpr

variable {σ : Type}

/-- A step of a host with one context: it evaluates, or it replaces the converter. -/
inductive ConverterStep where
  | evaluate
  | replace (converter : TypeConverter)

namespace ConverterStep

def action : ConverterStep → Action σ
  | .evaluate => .evaluate 0
  | .replace converter => .edit 0 (.setConverter converter)

/-- The converters that a context has in the course of some steps, the present one first. -/
def converters (present : TypeConverter) : List ConverterStep → List TypeConverter
  | [] => [present]
  | .evaluate :: rest => converters present rest
  | .replace converter :: rest => present :: converters converter rest

/-- The converters under which the evaluations among some steps take place. -/
def atEvaluations (present : TypeConverter) : List ConverterStep → List TypeConverter
  | [] => []
  | .evaluate :: rest => present :: atEvaluations present rest
  | .replace converter :: rest => atEvaluations converter rest

theorem converters_eq_cons (present : TypeConverter) (steps : List ConverterStep) :
    ∃ later, converters present steps = present :: later := by
  induction steps with
  | nil => exact ⟨[], rfl⟩
  | cons step rest ih =>
    cases step with
    | evaluate => exact ih
    | replace converter => exact ⟨_, rfl⟩

end ConverterStep

variable [Host σ] (reenter : Context σ → Reenter σ)

/-- The resolver is one over a registry, or it is one of the host whose questions change nothing and
are answered by shape. -/
def MethodResolver.Predictable (r : MethodResolver σ) : Prop :=
  (∃ registry : TypeRegistry σ, r = registry.methodResolver) ∨ r.Quiet reenter ∧ r.ByShape reenter

def PropertyResolver.Predictable (r : PropertyResolver σ) : Prop :=
  (∃ registry : TypeRegistry σ, r = registry.propertyResolver) ∨
    r.Quiet reenter ∧ r.ByShape reenter

/-- In a context the resolver finds no method for arguments of some types on any target of a type.
-/
def MethodResolver.DeclinesCallIn (ctx : Context σ) (r : MethodResolver σ) (name : String)
    (type : ValueType) (argTypes : List ValueType) : Prop :=
  ∀ target world, target.valueType (Host.view world) = type →
    ((r.resolve (ctx.environment (reenter ctx)) target name argTypes).run.run world).1 = .ok none

/-- The calls that the resolver declines under one of some converters, it declines under those that
follow. -/
def MethodResolver.KeepsDeclining (ctx : Context σ) (r : MethodResolver σ)
    (converters : List TypeConverter) : Prop :=
  ∀ name type argTypes, converters.Pairwise fun earlier later =>
    r.DeclinesCallIn reenter (ctx.setConverter earlier) name type argTypes →
      r.DeclinesCallIn reenter (ctx.setConverter later) name type argTypes

variable {reenter}

theorem PropertyResolver.Predictable.quiet {r : PropertyResolver σ} (h : r.Predictable reenter) :
    r.Quiet reenter := by
  rcases h with ⟨registry, rfl⟩ | ⟨quiet, -⟩
  · exact registry.propertyResolver_quiet reenter
  · exact quiet

theorem PropertyResolver.Predictable.byShape {r : PropertyResolver σ} (h : r.Predictable reenter) :
    r.ByShape reenter := by
  rcases h with ⟨registry, rfl⟩ | ⟨-, byShape⟩
  · exact registry.propertyResolver_byShape reenter
  · exact byShape

theorem MethodResolver.Predictable.quiet {r : MethodResolver σ} (h : r.Predictable reenter) :
    r.Quiet reenter := by
  rcases h with ⟨registry, rfl⟩ | ⟨quiet, -⟩
  · exact registry.methodResolver_quiet reenter
  · exact quiet

/-- A resolver over a registry keeps declining while converters only get to convert less. -/
theorem TypeRegistry.methodResolver_keepsDeclining (registry : TypeRegistry σ) (ctx : Context σ)
    {converters : List TypeConverter}
    (within : converters.Pairwise fun earlier later => later.Within earlier) :
    registry.methodResolver.KeepsDeclining reenter ctx converters := by
  intro name type argTypes
  refine within.imp fun {earlier later} within declines target world typed => ?_
  exact registry.resolve_eq_none_of_within within rfl (declines target world typed)

/-- Who finds no method once finds none for that shape, now and under later converters. -/
theorem MethodResolver.Predictable.declinesCallIn {r : MethodResolver σ}
    (h : r.Predictable reenter) {ctx : Context σ} {later : List TypeConverter}
    (keeps : ∀ registry : TypeRegistry σ, r = registry.methodResolver →
      r.KeepsDeclining reenter ctx (ctx.converter :: later))
    {target : Value} {name : String} {argTypes : List ValueType} {world : σ}
    (declined :
      ((r.resolve (ctx.environment (reenter ctx)) target name argTypes).run.run world).1 =
        .ok none) :
    ∀ c ∈ ctx.converter :: later, r.DeclinesCallIn reenter (ctx.setConverter c) name
      (target.valueType (Host.view world)) argTypes := by
  intro c mem
  rcases h with ⟨registry, rfl⟩ | ⟨-, byShape⟩
  · have now : registry.methodResolver.DeclinesCallIn reenter ctx name
        (target.valueType (Host.view world)) argTypes := fun target' world' same =>
      registry.resolve_eq_none_of_within (fun _ _ able => able) same declined
    rcases List.mem_cons.mp mem with rfl | mem
    · exact now
    · exact (List.pairwise_cons.mp (keeps registry rfl name _ argTypes)).1 c mem now
  · intro target' world' same
    exact byShape.declinesCall declined _ target' world' same

/-! ### What is remembered -/

variable (reenter) (site : NodeId → String → Prop)

/-- What a remembered position stands for in a context that will have some converters: the resolvers
before it decline the shape for each name that the node accesses, under each of the converters. -/
structure Context.Recalls (ctx : Context σ) (converters : List TypeConverter) (key : CacheKey)
    (g : Generation) (i : Nat) : Prop where
  read : key.access = .read → g = ctx.properties.generation → ∀ name, site key.node name →
    ∀ r ∈ ctx.properties.order.take i, r.DeclinesRead reenter name key.target
  write : key.access = .write → g = ctx.properties.generation → ∀ name, site key.node name →
    ∀ r ∈ ctx.properties.order.take i, r.DeclinesWrite reenter name key.target
  call : key.access = .call → g = ctx.methods.generation → ∀ name, site key.node name →
    ∀ r ∈ ctx.methods.order.take i, ∀ c ∈ converters,
      r.DeclinesCallIn reenter (ctx.setConverter c) name key.target (key.argTypes.getD [])

/-- The resolvers of a context are predictable, and a resolver over a registry stands before another
one only if it keeps declining under the converters. -/
structure Context.Steady (ctx : Context σ) (converters : List TypeConverter) : Prop where
  properties : ∀ r ∈ ctx.properties.order, r.Predictable reenter
  methods : ∀ r ∈ ctx.methods.order, r.Predictable reenter
  keeps : ∀ registry : TypeRegistry σ, registry.methodResolver ∈ ctx.methods.order.dropLast →
    registry.methodResolver.KeepsDeclining reenter ctx converters

variable {reenter} {site}

section Accesses

variable {ctx : Context σ} {later : List TypeConverter}
  (steady : ctx.Steady reenter (ctx.converter :: later))
  (functional : ∀ {node a b}, site node a → site node b → a = b)

include steady functional

/-- **All accesses keep evaluations alike** in a steady context. -/
theorem Context.Steady.congruence_alike : ctx.Congruence (reenter ctx) site
    (Alike (ctx.Recalls reenter site (ctx.converter :: later))) := by
  have quiet : ∀ r ∈ ctx.properties.order, r.Quiet reenter :=
    fun r mem => (steady.properties r mem).quiet
  have byShape : ∀ r ∈ ctx.properties.order.dropLast, r.ByShape reenter :=
    fun r mem => (steady.properties r (List.dropLast_subset _ mem)).byShape
  refine Alike.congruence (fun {node name} target accessed => ?_)
    (fun {node name} target value accessed => ?_) fun {node name} target args accessed => ?_
  · refine Alike.readProperty_agrees (fun type r => r.DeclinesRead reenter name type)
      (Asking.readers quiet byShape target name)
      fun type i => ⟨fun recalled => ?_, fun before => ?_⟩
    · exact recalled.read rfl rfl name accessed
    · refine ⟨fun _ _ other also => ?_, nofun, nofun⟩
      rw [functional also accessed]
      exact before
  · refine Alike.writeProperty_agrees (fun type r => r.DeclinesWrite reenter name type) value
      (Asking.writers quiet byShape target name)
      fun type i => ⟨fun recalled => ?_, fun before => ?_⟩
    · exact recalled.write rfl rfl name accessed
    · refine ⟨nofun, fun _ _ other also => ?_, nofun⟩
      rw [functional also accessed]
      exact before
  · refine Alike.callMethod_agrees (fun type argTypes r => ∀ c ∈ ctx.converter :: later,
        r.DeclinesCallIn reenter (ctx.setConverter c) name type argTypes) args
      (fun argTypes world => Asking.methods (fun r mem => (steady.methods r mem).quiet)
        (fun r _ declines => ?_) fun r before declined => ?_)
      fun type argTypes i => ⟨fun recalled => ?_, fun before => ?_⟩
    · exact declines ctx.converter List.mem_cons_self target world rfl
    · refine (steady.methods r (List.dropLast_subset _ before)).declinesCallIn ?_ declined
      rintro registry rfl
      exact steady.keeps registry before
    · exact recalled.call rfl rfl name accessed
    · refine ⟨nofun, nofun, fun _ _ other also => ?_⟩
      rw [functional also accessed]
      exact before

variable (site) in
/-- **An evaluation that remembers nothing has its calls served by the first resolver** that finds a
method. -/
theorem Context.Steady.evaluation_served {c : Compiled} (forgetful : c.cache = none)
    (accesses : ∀ p ∈ c.expr.accesses, site p.1 p.2) (world : σ) :
    ∀ e ∈ (c.run ctx (ctx.evaluate (reenter ctx) c.expr) world).trail,
      e.ServedFirst reenter ctx := by
  have alike : ctx.Congruence (reenter ctx) site
      (Alike (ctx.Recalls reenter site (ctx.converter :: later))) :=
    steady.congruence_alike functional
  have others : ∀ (world : σ) i, i.isExecution = false →
      Event.ServedFirst reenter ctx ⟨world, i⟩ := fun _ _ => Event.servedFirst_of_not_execution
  -- Beside being alike, the evaluations keep the property on the trail of the forgetful one.
  have congruence : ctx.Congruence (reenter ctx) site fun s t =>
      Alike (ctx.Recalls reenter site (ctx.converter :: later)) s t ∧
        ∀ e ∈ t.trail, e.ServedFirst reenter ctx :=
    { view := fun related => alike.view related.1
      active := fun related => alike.active related.1
      setActive := fun active related => ⟨alike.setActive active related.1, related.2⟩
      read := fun {node name} target accessed s t related => by
        obtain ⟨same, after⟩ := alike.read target accessed related.1
        exact ⟨same, after,
          (Context.readProperty_notes others node name target ⟨rfl, related.2⟩).2.2⟩
      write := fun {node name} target value accessed s t related => by
        obtain ⟨same, after⟩ := alike.write target value accessed related.1
        exact ⟨same, after,
          (Context.writeProperty_notes others node name target value ⟨rfl, related.2⟩).2.2⟩
      call := fun {node name} target args accessed s t related => by
        obtain ⟨same, after⟩ := alike.call target args accessed related.1
        exact ⟨same, after, Context.callMethod_served (fun r mem => (steady.methods r mem).quiet)
          related.1.forgetful related.2⟩ }
  have uncached : (c.entry ctx world).cache = none := by
    rw [Compiled.entry, forgetful]
    exact ite_self none
  have start : Alike (ctx.Recalls reenter site (ctx.converter :: later)) (c.entry ctx world)
      (c.entry ctx world) := ⟨rfl, rfl, rfl, by simp [uncached], uncached⟩
  have silent : ∀ e ∈ (c.entry ctx world).trail, e.ServedFirst reenter ctx :=
    fun _ mem => absurd mem List.not_mem_nil
  exact (Context.evaluate_agrees congruence c.expr accesses ⟨start, silent⟩).2.2

end Accesses

/-! ### Steps and runs -/

open ConverterStep (action converters)

/-- What is recalled for some converters is recalled once the present one was replaced. -/
theorem Context.Recalls.replace {ctx : Context σ} {converter : TypeConverter}
    {later : List TypeConverter} {key : CacheKey} {g : Generation} {i : Nat}
    (h : ctx.Recalls reenter site (ctx.converter :: later) key g i) :
    (ctx.setConverter converter).Recalls reenter site later key g i where
  read := h.read
  write := h.write
  call is current name accessed r before c mem :=
    h.call is current name accessed r before c (List.mem_cons_of_mem _ mem)

/-- A context stays steady when its converter is replaced as foreseen. -/
theorem Context.Steady.replace {ctx : Context σ} {converter : TypeConverter}
    {later : List TypeConverter} (h : ctx.Steady reenter (ctx.converter :: later)) :
    (ctx.setConverter converter).Steady reenter later where
  properties := h.properties
  methods := h.methods
  keeps registry mem name type argTypes :=
    (List.pairwise_cons.mp (h.keeps registry mem name type argTypes)).2

/-- The only context of a session is evaluated in. -/
theorem Session.act_evaluate {s : Session σ} {ctx : Context σ} (only : s.contexts = [ctx]) :
    s.act reenter (action .evaluate) =
      let o := s.compiled.run ctx (ctx.evaluate (reenter ctx) s.compiled.expr) s.world
      (some (o.report some), s.after o) := by
  rw [action, act, only]
  rfl

/-- The only context of a session gets another converter. -/
theorem Session.act_replace {s : Session σ} {ctx : Context σ} (only : s.contexts = [ctx])
    (converter : TypeConverter) :
    s.act reenter (action (.replace converter)) =
      (none, { s with contexts := [ctx.setConverter converter] }) := by
  rw [action, act, update, only]
  rfl

/-- Twins with one steady context report an evaluation alike, with calls served by the first
resolver, and are twins afterwards. -/
theorem Session.Twin.act_evaluate {s t : Session σ} (twin : s.Twin t) {ctx : Context σ}
    (only : s.contexts = [ctx]) {later : List TypeConverter}
    (steady : ctx.Steady reenter (ctx.converter :: later))
    (remembered : ∀ cache ∈ s.compiled.cache,
      cache.Answers (ctx.Recalls reenter s.compiled.site (ctx.converter :: later)))
    (distinct : (s.compiled.expr.subtrees.map Tree.id).Nodup) :
    let s' := (s.act reenter (action .evaluate)).2
    let t' := (t.act reenter (action .evaluate)).2
    ∃ report, (s.act reenter (action .evaluate)).1 = some report ∧
      (t.act reenter (action .evaluate)).1 = some report ∧
      (∀ e ∈ report.performed, e.ServedFirst reenter ctx) ∧ s'.Twin t' ∧
      s'.contexts = [ctx] ∧ s'.compiled.expr = s.compiled.expr ∧
      ∀ cache ∈ s'.compiled.cache,
        cache.Answers (ctx.Recalls reenter s.compiled.site (ctx.converter :: later)) := by
  have sameTree : t.compiled.expr = s.compiled.expr := by rw [twin.compiled]
  have functional : ∀ {node a b}, s.compiled.site node a → s.compiled.site node b → a = b :=
    fun ha hb => Tree.accesses_functional distinct ha hb
  have congruence : ctx.Congruence (reenter ctx) s.compiled.site
      (Alike (ctx.Recalls reenter s.compiled.site (ctx.converter :: later))) :=
    steady.congruence_alike functional
  have agrees := Context.evaluate_agrees congruence s.compiled.expr fun p mem => mem
  have within : ∀ p ∈ t.compiled.expr.accesses, s.compiled.site p.1 p.2 := by
    intro p mem
    rw [sameTree] at mem
    exact mem
  have forgetful : t.compiled.cache = none := by rw [twin.compiled]
  have served := steady.evaluation_served s.compiled.site functional forgetful within t.world
  obtain ⟨report, twin', remembered'⟩ := twin.after_run remembered ctx agrees some
  rw [Session.act_evaluate only, Session.act_evaluate (twin.contexts ▸ only), sameTree]
  rw [sameTree] at served
  refine ⟨_, rfl, congrArg some report.symm, fun e mem => ?_, twin', only, s.compiled.run_expr ..,
    remembered'⟩
  rw [report] at mem
  exact served e (List.mem_of_mem_filter mem)

/-- Twins with one steady context report whole runs alike, with calls served by the first resolver.
-/
theorem Session.Twin.run_replacing {s t : Session σ} (twin : s.Twin t) {ctx : Context σ}
    (only : s.contexts = [ctx]) {steps : List ConverterStep}
    (steady : ctx.Steady reenter (converters ctx.converter steps))
    (remembered : ∀ cache ∈ s.compiled.cache,
      cache.Answers (ctx.Recalls reenter s.compiled.site (converters ctx.converter steps)))
    (distinct : (s.compiled.expr.subtrees.map Tree.id).Nodup) :
    (s.run reenter (steps.map action)).1 = (t.run reenter (steps.map action)).1 ∧
      (s.run reenter (steps.map action)).2.Twin (t.run reenter (steps.map action)).2 ∧
      List.Forall₂ (fun report c =>
          ∀ e ∈ report.performed, e.ServedFirst reenter (ctx.setConverter c))
        (s.run reenter (steps.map action)).1
        (ConverterStep.atEvaluations ctx.converter steps) := by
  induction steps generalizing s t ctx with
  | nil => exact ⟨rfl, twin, .nil⟩
  | cons step rest ih =>
    simp only [List.map_cons, Session.run]
    cases step with
    | evaluate =>
      obtain ⟨later, foreseen⟩ := ConverterStep.converters_eq_cons ctx.converter rest
      rw [converters, foreseen] at steady remembered
      obtain ⟨report, reportS, reportT, served, twin', only', sameTree, remembered'⟩ :=
        twin.act_evaluate only steady remembered distinct
      have sameSite : (s.act reenter (action .evaluate)).2.compiled.site = s.compiled.site := by
        unfold Compiled.site
        rw [sameTree]
      rw [← foreseen] at steady remembered'
      obtain ⟨reports, last, allServed⟩ := ih twin' only' steady
        (by rw [sameSite]; exact remembered') (by rw [sameTree]; exact distinct)
      rw [reportS, reportT, reports]
      rw [reports] at allServed
      exact ⟨rfl, last, .cons served allServed⟩
    | replace converter =>
      rw [Session.act_replace only, Session.act_replace (twin.contexts ▸ only)]
      have remembered' : ∀ cache ∈ s.compiled.cache, cache.Answers
          ((ctx.setConverter converter).Recalls reenter s.compiled.site
            (converters converter rest)) :=
        fun cache mem => (remembered cache mem).mono fun key g i recalled => recalled.replace
      exact ih (s := { s with contexts := [ctx.setConverter converter] })
        (t := { t with contexts := [ctx.setConverter converter] })
        ⟨rfl, twin.supply, twin.world, twin.compiled⟩ rfl steady.replace remembered' distinct

/-- **Replacing the converter leaves no stale resolution in force** in a steady context. Every
evaluation gives the same value or failure as one that may not remember, and performs the same
reads, writes and executions through the same resolvers; and each call is served by the first
resolver that finds a method under the converter that is installed then. -/
theorem Session.run_replacing_converters (ctx : Context σ) (world : σ) (source : String)
    {expr : Expr} (distinct : (expr.subtrees.map Tree.id).Nodup) {steps : List ConverterStep}
    (steady : ctx.Steady reenter (converters ctx.converter steps)) :
    let start (caching : Bool) : Session σ :=
      { contexts := [ctx], world, compiled := Compiled.new source expr caching }
    let remembering := (start true).run reenter (steps.map action)
    let forgetful := (start false).run reenter (steps.map action)
    remembering.1 = forgetful.1 ∧ remembering.2.world = forgetful.2.world ∧
      List.Forall₂ (fun report c =>
          ∀ e ∈ report.performed, e.ServedFirst reenter (ctx.setConverter c))
        remembering.1 (ConverterStep.atEvaluations ctx.converter steps) := by
  intro start
  have twin : (start true).Twin (start false) := ⟨rfl, rfl, rfl, rfl⟩
  have empty : ∀ cache ∈ (start true).compiled.cache, cache.Answers
      (ctx.Recalls reenter (start true).compiled.site (converters ctx.converter steps)) := by
    intro cache mem
    obtain rfl : {} = cache := by simpa [start, Compiled.new] using mem
    exact .empty
  obtain ⟨reports, last, served⟩ := twin.run_replacing rfl steady empty distinct
  exact ⟨reports, last.world, served⟩

/-! ### Two resolvers -/

def MethodResolver.constant (name : String) (answer : Value) : MethodResolver σ where
  name
  resolve _ _ _ _ := pure (some { signature := none, execute := fun _ _ _ => pure answer })

theorem MethodResolver.constant_predictable (name : String) (answer : Value) :
    (MethodResolver.constant name answer).Predictable reenter :=
  .inr ⟨⟨fun _ _ _ _ _ => rfl⟩, ⟨fun _ _ _ => some true, fun _ _ _ _ _ => rfl⟩⟩

def TypeRegistry.takingInteger (answer : Value) : TypeRegistry σ :=
  ({} : TypeRegistry σ).register
    (({ name := "String" } : TypeDescriptor σ).addMethod "f" { fixed := [.int] }
      fun _ _ _ => pure answer)

/-- The converter stops narrowing: the registered method, which was remembered, is not found any
more, and the next resolver serves the call. -/
theorem run_replacing_converters_of_stricter :
    let reenter : Context Unit → Reenter Unit := fun _ _ => pure (.ok .null)
    let never := StandardConverter.toConverter { narrowing := .never }
    let ctx : Context Unit :=
      { root := .string "x"
        converter := StandardConverter.toConverter { narrowing := .truncating }
        properties := ⟨[], none, ⟨0⟩⟩
        methods := ⟨[(TypeRegistry.takingInteger (.int 1)).methodResolver,
          .constant "host" (.int 2)], none, ⟨1⟩⟩ }
    let expr : Expr := .call 1 ⟨0, 6⟩ "f" [.literal 0 ⟨2, 5⟩ (.number (.double (.zero false)))]
    let steps : List ConverterStep := [.evaluate, .replace never, .evaluate]
    let start (caching : Bool) : Session Unit :=
      { contexts := [ctx], world := (), compiled := Compiled.new "f(0.0)" expr caching }
    let remembering := (start true).run reenter (steps.map action)
    let forgetful := (start false).run reenter (steps.map action)
    remembering.1.map (·.result) = [.ok (some (.int 1)), .ok (some (.int 2))] ∧
      remembering.1 = forgetful.1 ∧
      List.Forall₂ (fun report c =>
          ∀ e ∈ report.performed, e.ServedFirst reenter (ctx.setConverter c))
        remembering.1 (ConverterStep.atEvaluations ctx.converter steps) := by
  intro reenter never ctx expr steps start remembering forgetful
  have steady : ctx.Steady reenter (converters ctx.converter steps) :=
    { properties := nofun
      methods := by
        intro r mem
        rcases List.mem_cons.mp mem with rfl | mem
        · exact .inl ⟨_, rfl⟩
        · obtain rfl := List.mem_singleton.mp mem
          exact MethodResolver.constant_predictable ..
      keeps := by
        intro registry _
        refine registry.methodResolver_keepsDeclining ctx (.cons (fun c mem => ?_) ?_)
        · obtain rfl := List.mem_singleton.mp mem
          exact StandardConverter.never_within .truncating none
        · exact .cons nofun .nil }
  have distinct : (expr.subtrees.map Tree.id).Nodup := by decide
  have transparent := Session.run_replacing_converters ctx () "f(0.0)" distinct steady
  exact ⟨rfl, transparent.1, transparent.2.2⟩

/-- The converter starts to narrow: the registered method, which comes first, is found then, but the
next resolver was remembered and still serves the call. -/
theorem run_replacing_converters_overlooks :
    let reenter : Context Unit → Reenter Unit := fun _ _ => pure (.ok .null)
    let ctx : Context Unit :=
      { root := .string "x"
        converter := StandardConverter.toConverter { narrowing := .never }
        properties := ⟨[], none, ⟨0⟩⟩
        methods := ⟨[(TypeRegistry.takingInteger (.int 1)).methodResolver,
          .constant "host" (.int 2)], none, ⟨1⟩⟩ }
    let expr : Expr := .call 1 ⟨0, 6⟩ "f" [.literal 0 ⟨2, 5⟩ (.number (.double (.zero false)))]
    let steps : List ConverterStep :=
      [.evaluate, .replace (StandardConverter.toConverter { narrowing := .truncating }), .evaluate]
    let start (caching : Bool) : Session Unit :=
      { contexts := [ctx], world := (), compiled := Compiled.new "f(0.0)" expr caching }
    (∀ r ∈ ctx.methods.order, r.Predictable reenter) ∧
      (expr.subtrees.map Tree.id).Nodup ∧
      ((start true).run reenter (steps.map action)).1.map (·.result) =
        [.ok (some (.int 2)), .ok (some (.int 2))] ∧
      ((start false).run reenter (steps.map action)).1.map (·.result) =
        [.ok (some (.int 2)), .ok (some (.int 1))] := by
  intro reenter ctx expr steps start
  refine ⟨?_, by decide, rfl, rfl⟩
  intro r mem
  rcases List.mem_cons.mp mem with rfl | mem
  · exact .inl ⟨_, rfl⟩
  · obtain rfl := List.mem_singleton.mp mem
    exact MethodResolver.constant_predictable ..

end HostExpr
