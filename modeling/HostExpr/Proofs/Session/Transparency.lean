import HostExpr.Proofs.Session.Remembering
import Mathlib.Data.List.Infix

/-!
Remembering cannot be seen.

Two sessions that differ only in that the expression of one of them remembers are `Twin`s. A step of
an orderly host is reported alike by twins and leaves twins (`Session.Twin.act`), so a whole run is
reported alike (`Session.Twin.run`).
-/

namespace HostExpr

variable {σ : Type}

/-! ### Twins -/

/-- Sessions that own the same, but that only the expression of the first one may remember. -/
structure Session.Twin (s t : Session σ) : Prop where
  contexts : s.contexts = t.contexts
  supply : s.supply = t.supply
  world : s.world = t.world
  compiled : t.compiled = { s.compiled with cache := none }

theorem Session.Twin.update {s t : Session σ} (twin : s.Twin t) (number : Nat)
    (change : Context σ → Fresh (Context σ)) :
    (s.update number change).Twin (t.update number change) := by
  obtain ⟨contexts, supply, world, compiled⟩ := twin
  unfold Session.update
  rw [← contexts]
  cases s.contexts[number]? with
  | none => exact ⟨contexts, supply, world, compiled⟩
  | some ctx =>
    rw [← supply]
    exact ⟨rfl, rfl, world, compiled⟩

theorem Session.update_compiled (s : Session σ) (number : Nat)
    (change : Context σ → Fresh (Context σ)) :
    (s.update number change).compiled = s.compiled := by
  unfold Session.update
  cases s.contexts[number]? <;> rfl

def Compiled.site (c : Compiled) (node : NodeId) (name : String) : Prop :=
  (node, name) ∈ c.expr.accesses

/-- An expression remembers what the evaluation left, if the context allows it. -/
theorem Compiled.run_compiled {α : Type} (c : Compiled) (ctx : Context σ) (act : EvalM σ α)
    (world : σ) :
    (c.run ctx act world).compiled =
      { c with
        cache := if ctx.config.resolutionCache then (act.outcome (c.entry ctx world)).2.cache
          else c.cache } := by
  show (if _ then _ else _) = _
  by_cases caching : ctx.config.resolutionCache
  · simp only [if_pos caching, Compiled.entry]
    rfl
  · simp only [if_neg caching]

theorem Compiled.run_expr {α : Type} (c : Compiled) (ctx : Context σ) (act : EvalM σ α)
    (world : σ) : (c.run ctx act world).compiled.expr = c.expr := by
  rw [run_compiled]

/-- Twins start evaluations that are alike. -/
theorem Session.Twin.entry_alike {s t : Session σ} (twin : s.Twin t)
    {sound : CacheKey → Generation → Nat → Prop}
    (remembered : ∀ cache ∈ s.compiled.cache, cache.Answers sound) (ctx : Context σ) :
    Alike sound (s.compiled.entry ctx s.world) (t.compiled.entry ctx t.world) := by
  refine ⟨twin.world, rfl, rfl, fun cache mem => ?_, ?_⟩
  · rw [Compiled.entry] at mem
    dsimp only at mem
    split at mem
    · exact remembered cache mem
    · cases mem
  · rw [twin.compiled, Compiled.entry]
    dsimp only
    split <;> rfl

/-- What keeps evaluations alike is reported alike by twins and leaves twins. -/
theorem Session.Twin.after_run {α : Type} {s t : Session σ} (twin : s.Twin t)
    {sound : CacheKey → Generation → Nat → Prop}
    (remembered : ∀ cache ∈ s.compiled.cache, cache.Answers sound) (ctx : Context σ)
    {act : EvalM σ α} (agrees : EvalM.Agree (Alike sound) act act) (value : α → Option Value) :
    let o := s.compiled.run ctx act s.world
    let p := t.compiled.run ctx act t.world
    o.report value = p.report value ∧ (s.after o).Twin (t.after p) ∧
      ∀ cache ∈ (s.after o).compiled.cache, cache.Answers sound := by
  intro o p
  obtain ⟨same, related⟩ := agrees (twin.entry_alike remembered ctx)
  have results : o.result = p.result := same
  have performed : performances o.trail = performances p.trail := related.performed
  have remembers : o.compiled = _ := s.compiled.run_compiled ctx act s.world
  have forgets : p.compiled = _ := t.compiled.run_compiled ctx act t.world
  refine ⟨?_, ⟨twin.contexts, twin.supply, related.world, ?_⟩, fun cache mem => ?_⟩
  · rw [Outcome.report, Outcome.report, results, performed]
  · show p.compiled = { o.compiled with cache := none }
    rw [forgets, remembers, related.forgetful, twin.compiled]
    split <;> rfl
  · change cache ∈ o.compiled.cache at mem
    rw [remembers] at mem
    dsimp only at mem
    split at mem
    · exact related.remembered cache mem
    · exact remembered cache mem

variable [Host σ] {reenter : Context σ → Reenter σ}

/-! ### Steps and runs -/

section Steps

variable {s t : Session σ} (twin : s.Twin t) (sound : s.Sound reenter s.compiled.site)
  (orderly : s.Orderly reenter) (distinct : (s.compiled.expr.subtrees.map Tree.id).Nodup)

include twin sound orderly distinct

/-- Twins report evaluations and assignments alike, and are twins afterwards. -/
theorem Session.Twin.act_of_computation {α : Type} (number : Nat) {a : Action σ}
    (computation : Context σ → EvalM σ α) (value : α → Option Value)
    (agrees : ∀ ctx R, ctx.Congruence (reenter ctx) s.compiled.site R →
      EvalM.Agree R (computation ctx) (computation ctx))
    (acts : ∀ u : Session σ, u.compiled.expr = s.compiled.expr → u.act reenter a =
      match u.contexts[number]? with
      | none => (none, u)
      | some ctx =>
        (some ((u.compiled.run ctx (computation ctx) u.world).report value),
          u.after (u.compiled.run ctx (computation ctx) u.world))) :
    (s.act reenter a).1 = (t.act reenter a).1 ∧ (s.act reenter a).2.Twin (t.act reenter a).2 ∧
      (s.act reenter a).2.Sound reenter s.compiled.site := by
  have sameTree : t.compiled.expr = s.compiled.expr := by rw [twin.compiled]
  rw [acts s rfl, acts t sameTree, ← twin.contexts]
  cases at_number : s.contexts[number]? with
  | none => exact ⟨rfl, twin, sound⟩
  | some ctx =>
    have mem := List.mem_of_getElem? at_number
    have congruence := sound.congruence_alike mem (orderly ctx mem) fun ha hb =>
      Tree.accesses_functional distinct ha hb
    obtain ⟨report, after, remembered⟩ :=
      twin.after_run sound.remembered ctx (agrees ctx _ congruence) value
    exact ⟨congrArg some report, after, sound.extend (.inl ⟨rfl, rfl⟩) remembered⟩

/-- **A step is reported alike by twins and leaves twins.** -/
theorem Session.Twin.act (a : Action σ) :
    (s.act reenter a).1 = (t.act reenter a).1 ∧ (s.act reenter a).2.Twin (t.act reenter a).2 ∧
      (s.act reenter a).2.Sound reenter s.compiled.site := by
  have step := s.extends_act reenter a
  have unchanged : ∀ {s' : Session σ}, s.Extends s' → s'.compiled = s.compiled →
      s'.Sound reenter s.compiled.site := fun step same =>
    sound.extend step fun cache mem => sound.remembered cache (same ▸ mem)
  cases a with
  | evaluate number =>
    refine twin.act_of_computation sound orderly distinct number
      (fun ctx => ctx.evaluate (reenter ctx) s.compiled.expr) some
      (fun ctx R c => Context.evaluate_agrees c _ fun p mem => mem) fun u same => ?_
    rw [← same]
    rfl
  | assign number value =>
    refine twin.act_of_computation sound orderly distinct number
      (fun ctx => ctx.assign (reenter ctx) s.compiled.expr value) (fun _ => none)
      (fun ctx R c => Context.assign_agrees c _ (fun p mem => mem) value) fun u same => ?_
    rw [← same]
    rfl
  | forget =>
    refine ⟨rfl, ⟨twin.contexts, twin.supply, twin.world, ?_⟩, ?_⟩
    · simp only [Session.act, twin.compiled, Compiled.forget, Option.map_none]
    · refine sound.extend step fun cache mem => ?_
      obtain ⟨old, -, rfl⟩ := Option.map_eq_some_iff.mp mem
      exact .empty
  | create config =>
    refine ⟨rfl, ?_, unchanged step rfl⟩
    simp only [Session.act, ← twin.contexts, ← twin.supply]
    exact ⟨rfl, rfl, twin.world, twin.compiled⟩
  | edit number change =>
    exact ⟨rfl, twin.update number change.apply, unchanged step (s.update_compiled ..)⟩
  | copyProperties source target =>
    simp only [Session.act, ← twin.contexts] at step ⊢
    cases at_source : s.contexts[source]? with
    | none => exact ⟨rfl, twin, sound⟩
    | some giver =>
      rw [at_source] at step
      have changed := twin.update target fun ctx => pure { ctx with properties := giver.properties }
      exact ⟨rfl, changed, unchanged step (s.update_compiled ..)⟩
  | copyMethods source target =>
    simp only [Session.act, ← twin.contexts] at step ⊢
    cases at_source : s.contexts[source]? with
    | none => exact ⟨rfl, twin, sound⟩
    | some giver =>
      rw [at_source] at step
      have changed := twin.update target fun ctx => pure { ctx with methods := giver.methods }
      exact ⟨rfl, changed, unchanged step (s.update_compiled ..)⟩
  | touch change =>
    refine ⟨rfl, ⟨twin.contexts, twin.supply, ?_, twin.compiled⟩, unchanged step rfl⟩
    exact congrArg change twin.world

end Steps

theorem Session.act_expr (reenter : Context σ → Reenter σ) (s : Session σ) (a : Action σ) :
    (s.act reenter a).2.compiled.expr = s.compiled.expr := by
  cases a with
  | edit number change => exact congrArg Compiled.expr (s.update_compiled number change.apply)
  | copyProperties source target =>
    rw [Session.act]
    cases s.contexts[source]? with
    | none => rfl
    | some giver => exact congrArg Compiled.expr (s.update_compiled ..)
  | copyMethods source target =>
    rw [Session.act]
    cases s.contexts[source]? with
    | none => rfl
    | some giver => exact congrArg Compiled.expr (s.update_compiled ..)
  | evaluate number =>
    rw [Session.act]
    cases s.contexts[number]? with
    | none => rfl
    | some ctx =>
      exact s.compiled.run_expr ctx (ctx.evaluate (reenter ctx) s.compiled.expr) s.world
  | assign number value =>
    rw [Session.act]
    cases s.contexts[number]? with
    | none => rfl
    | some ctx =>
      exact s.compiled.run_expr ctx (ctx.assign (reenter ctx) s.compiled.expr value) s.world
  | _ => rfl

def Session.AlwaysOrderly (reenter : Context σ → Reenter σ) (s : Session σ)
    (steps : List (Action σ)) : Prop :=
  ∀ before after, steps = before ++ after → (s.run reenter before).2.Orderly reenter

/-- Twins report whole runs alike. -/
theorem Session.Twin.run {s t : Session σ} (twin : s.Twin t)
    (sound : s.Sound reenter s.compiled.site)
    (distinct : (s.compiled.expr.subtrees.map Tree.id).Nodup) {steps : List (Action σ)}
    (orderly : s.AlwaysOrderly reenter steps) :
    (s.run reenter steps).1 = (t.run reenter steps).1 ∧
      (s.run reenter steps).2.Twin (t.run reenter steps).2 := by
  induction steps generalizing s t with
  | nil => exact ⟨rfl, twin⟩
  | cons a rest ih =>
    obtain ⟨report, twin', sound'⟩ := twin.act sound (orderly [] _ rfl) distinct a
    have sameTree := s.act_expr reenter a
    have orderly' : (s.act reenter a).2.AlwaysOrderly reenter rest := by
      intro before after split
      exact orderly (a :: before) after (by rw [split]; rfl)
    -- The invariant speaks of the accesses of the expression, which no step replaces.
    have sound'' : (s.act reenter a).2.Sound reenter (s.act reenter a).2.compiled.site := by
      rw [show (s.act reenter a).2.compiled.site = s.compiled.site from
        funext fun node => funext fun name => by rw [Compiled.site, Compiled.site, sameTree]]
      exact sound'
    obtain ⟨reports, last⟩ := ih twin' sound'' (by rw [sameTree]; exact distinct) orderly'
    simp only [Session.run]
    rw [report, reports]
    exact ⟨rfl, last⟩

/-- **Remembering cannot be seen.** Whatever a host with orderly contexts does, every evaluation and
assignment of an expression that may remember gives the same value or failure as that of one that
may not, and performs the same reads, writes and executions in the same states of the host. -/
theorem Session.run_transparent (world : σ) (source : String) {expr : Expr}
    (distinct : (expr.subtrees.map Tree.id).Nodup) {steps : List (Action σ)}
    (orderly : (Session.start world (Compiled.new source expr true)).AlwaysOrderly reenter steps) :
    let remembering := (Session.start world (Compiled.new source expr true)).run reenter steps
    let forgetful := (Session.start world (Compiled.new source expr false)).run reenter steps
    remembering.1 = forgetful.1 ∧ remembering.2.world = forgetful.2.world := by
  have twin : (Session.start world (Compiled.new source expr true)).Twin
      (Session.start world (Compiled.new source expr false)) := ⟨rfl, rfl, rfl, rfl⟩
  obtain ⟨reports, last⟩ := twin.run (.start ..) distinct orderly
  exact ⟨reports, last.world⟩

/-! ### Two resolvers -/

def PropertyResolver.constant (name : String) (answer : Option Value) : PropertyResolver σ where
  name
  canRead _ _ _ := pure answer.isSome
  read _ _ _ := pure (answer.getD .null)

theorem Context.Orderly.of_constants {ctx : Context σ} (answers : List (String × Option Value))
    (properties : ctx.properties.order = answers.map fun a => .constant a.1 a.2)
    (methods : ctx.methods.order = []) : ctx.Orderly reenter := by
  have quiet : ∀ r ∈ ctx.properties.order, r.Quiet reenter := by
    rw [properties]
    intro r mem
    obtain ⟨a, -, rfl⟩ := List.mem_map.mp mem
    exact ⟨fun _ _ _ _ => rfl, fun _ _ _ _ => rfl⟩
  have byShape : ∀ r ∈ ctx.properties.order, r.ByShape reenter := by
    rw [properties]
    intro r mem
    obtain ⟨a, -, rfl⟩ := List.mem_map.mp mem
    exact ⟨⟨fun _ _ => some a.2.isSome, fun _ _ _ _ => rfl⟩,
      ⟨fun _ _ => some false, fun _ _ _ _ => rfl⟩⟩
  refine ⟨quiet, fun r mem => byShape r (List.dropLast_subset _ mem), ?_, ?_⟩
  · rw [methods]
    nofun
  · rw [methods]
    nofun

/-- The second of two resolvers answers twice, once searched and once remembered. -/
theorem run_transparent_of_two_resolvers :
    let steps : List (Action Unit) :=
      [.create {}, .edit 0 (.properties (.add (.constant "none" none))),
        .edit 0 (.properties (.add (.constant "one" (some (.boolean true))))),
        .evaluate 0, .evaluate 0]
    let expr : Expr := .property 0 ⟨0, 1⟩ "a"
    let reenter : Context Unit → Reenter Unit := fun _ _ => pure (.ok .null)
    let remembering := (Session.start () (Compiled.new "a" expr true)).run reenter steps
    let forgetful := (Session.start () (Compiled.new "a" expr false)).run reenter steps
    remembering.2.compiled.remembered = 1 ∧ remembering.1.length = 2 ∧
      remembering.1 = forgetful.1 ∧ remembering.2.world = forgetful.2.world := by
  intro steps expr reenter remembering forgetful
  refine ⟨by decide, by decide, Session.run_transparent () "a" (by decide) ?_⟩
  intro before after split ctx mem
  have reached : before ∈ steps.inits := (List.mem_inits ..).mpr ⟨after, split.symm⟩
  simp only [steps, List.inits, List.map_cons, List.map_nil, List.mem_cons, List.not_mem_nil,
    or_false] at reached
  rcases reached with rfl | rfl | rfl | rfl | rfl | rfl
  · cases mem
  · obtain rfl := List.mem_singleton.mp mem
    exact .of_constants [] rfl rfl
  · obtain rfl := List.mem_singleton.mp mem
    exact .of_constants [("none", none)] rfl rfl
  · obtain rfl := List.mem_singleton.mp mem
    exact .of_constants [("none", none), ("one", some (.boolean true))] rfl rfl
  · obtain rfl := List.mem_singleton.mp mem
    exact .of_constants [("none", none), ("one", some (.boolean true))] rfl rfl
  · obtain rfl := List.mem_singleton.mp mem
    exact .of_constants [("none", none), ("one", some (.boolean true))] rfl rfl

end HostExpr
