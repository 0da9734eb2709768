import HostExpr.Proofs.Eval.Congruence
import HostExpr.Proofs.Session.Invariant

/-!
Accesses with and without memory.

Two evaluations are `Alike` if they differ only in that one of them remembers, and in the questions
that they asked. If the questions of a context are orderly and what is remembered is justified, each
access keeps evaluations alike: `Session.Sound.congruence_alike`. For that the search with a hint
has to find whom the search by position finds, and what it finds has to be justified again
(`Alike.readProperty_agrees` and its companions).
-/

namespace HostExpr

variable {σ : Type}

/-! ### Evaluations that are alike -/

/-- Evaluations in the same state of the host, with the same active objects, that performed the same
accesses. The first one may remember what is sound; the second one remembers nothing. -/
structure Alike (sound : CacheKey → Generation → Nat → Prop) (s t : EvalState σ) : Prop where
  world : s.world = t.world
  active : s.active = t.active
  performed : performances s.trail = performances t.trail
  remembered : ∀ cache ∈ s.cache, cache.Answers sound
  forgetful : t.cache = none

def AlikeAt (world : σ) (sound : CacheKey → Generation → Nat → Prop) (s t : EvalState σ) : Prop :=
  Alike sound s t ∧ s.world = world

section Accesses

open EvalM (Agree AgreeTo Silent Unnoticed)

variable {sound : CacheKey → Generation → Nat → Prop} {world : σ} {α β : Type}

theorem Alike.perform_agrees (resolver : String) (act : HostM σ α)
    (note : Except AccessError α → Interaction) :
    Agree (Alike sound) (EvalM.perform resolver act note) (EvalM.perform resolver act note) := by
  intro s t h
  rw [EvalM.outcome_perform, EvalM.outcome_perform, h.world]
  refine ⟨rfl, ⟨rfl, h.active, ?_, h.remembered, h.forgetful⟩⟩
  have same := h.performed
  unfold performances at same ⊢
  rw [List.filter_cons, List.filter_cons, same]

theorem Alike.agree_of_view [Host σ] {f g : View → EvalM σ α}
    (h : ∀ world, AgreeTo (AlikeAt world sound) (Alike sound) (f (Host.view world))
      (g (Host.view world))) :
    Agree (Alike sound) (EvalM.view >>= f) (EvalM.view >>= g) := by
  intro s t alike
  rw [EvalM.outcome_bind_of_ok (EvalM.outcome_view s),
    EvalM.outcome_bind_of_ok (EvalM.outcome_view t), ← alike.world]
  exact h s.world ⟨alike, rfl⟩

/-- What keeps evaluations alike does so in every state of the host. -/
theorem AlikeAt.agreeTo {a b : EvalM σ α} (h : Agree (Alike sound) a b) :
    AgreeTo (AlikeAt world sound) (Alike sound) a b :=
  fun _ _ alike => h alike.1

theorem performances_cons_of_query {note : Event σ} (h : note.interaction.isPerformance = false)
    (trail : List (Event σ)) : performances (note :: trail) = performances trail :=
  List.filter_cons_of_neg (by simp [h])

theorem EvalM.Unnoticed.agrees {answer : Except EvalError (Option α)} {ask : EvalM σ (Option α)}
    (h : Unnoticed world answer ask) : Agree (AlikeAt world sound) ask ask := by
  rintro s t ⟨alike, at_world⟩
  obtain ⟨noteS, queryS, askedS⟩ := h s at_world
  obtain ⟨noteT, queryT, askedT⟩ := h t (alike.world ▸ at_world)
  rw [askedS, askedT]
  refine ⟨rfl, ⟨alike.world, alike.active, ?_, alike.remembered, alike.forgetful⟩, at_world⟩
  rw [performances_cons_of_query queryS, performances_cons_of_query queryT]
  exact alike.performed

theorem EvalM.Unnoticed.unique {a b : Except EvalError (Option α)} {ask : EvalM σ (Option α)}
    (ha : Unnoticed world a ask) (hb : Unnoticed world b ask) : a = b := by
  let s : EvalState σ := { world, active := [], cache := none }
  obtain ⟨_, -, askedA⟩ := ha s rfl
  obtain ⟨_, -, askedB⟩ := hb s rfl
  rw [askedA] at askedB
  exact (Prod.mk.inj askedB).1

/-- An unnoticed question that is declined may be left out. -/
theorem EvalM.Unnoticed.silent {ask : EvalM σ (Option α)}
    (h : Unnoticed world (.ok none) ask) : Silent (AlikeAt world sound) ask := by
  rintro s t ⟨alike, at_world⟩
  obtain ⟨noteS, queryS, askedS⟩ := h s at_world
  obtain ⟨noteT, queryT, askedT⟩ := h t (alike.world ▸ at_world)
  refine ⟨⟨_, askedS, ⟨alike.world, alike.active, ?_, alike.remembered, alike.forgetful⟩, at_world⟩,
    ⟨_, askedT, ⟨alike.world, alike.active, ?_, alike.remembered, alike.forgetful⟩, at_world⟩⟩
  · rw [performances_cons_of_query queryS]
    exact alike.performed
  · rw [performances_cons_of_query queryT]
    exact alike.performed

/-! ### Searches -/

/-- Questions to the members of a chain in a state of the host. None is noticed; those who decline a
shape are silent, and of those before another one whoever declines a question declines the shape. -/
structure Asking {ρ : Type} (world : σ) (c : Chain ρ) (query : Nat → ρ → EvalM σ (Option α))
    (declines : ρ → Prop) : Prop where
  unnoticed : ∀ r ∈ c.order, ∃ answer, ∀ i, Unnoticed world answer (query i r)
  silent : ∀ r ∈ c.order, declines r → ∀ i, Unnoticed world (.ok none) (query i r)
  byShape : ∀ r ∈ c.order.dropLast, ∀ i, Unnoticed world (.ok none) (query i r) → declines r

namespace Asking

variable {ρ : Type} {c : Chain ρ} {query : Nat → ρ → EvalM σ (Option α)} {declines : ρ → Prop}

/-- A hint changes nothing if all before it decline the shape. -/
theorem search_agrees (h : Asking world c query declines) {hint : Option Nat}
    (justified : ∀ i ∈ hint, ∀ r ∈ c.order.take i, declines r) :
    Agree (AlikeAt world sound) (c.search hint query) (c.search none query) := by
  refine EvalM.search_hinted_agrees (fun i r mem => ?_) fun i hinted j r before => ?_
  · obtain ⟨answer, unnoticed⟩ := h.unnoticed r mem
    exact (unnoticed i).agrees
  · exact (h.silent r (List.mem_of_mem_take before) (justified i hinted r before) j).silent

/-- All before the one who is found decline the shape. -/
theorem declines_of_search (h : Asking world c query declines) {s s' : EvalState σ}
    (at_world : s.world = world) {i : Nat} {r : ρ} {found : α}
    (search : (c.search none query).outcome s = (.ok (some (i, r, found)), s')) :
    ∀ q ∈ c.order.take i, declines q := by
  have kept : ∀ i, ∀ r ∈ c.order, ∀ s : EvalState σ, s.world = world →
      ((query i r).outcome s).2.world = world := by
    intro i r mem s hs
    obtain ⟨answer, unnoticed⟩ := h.unnoticed r mem
    obtain ⟨note, -, asked⟩ := unnoticed i s hs
    rw [asked]
    exact hs
  obtain ⟨at_i, declined, -⟩ :=
    EvalM.search_none_eq_some (I := fun s => s.world = world) kept at_world search
  intro q before
  obtain ⟨j, inside, rfl⟩ := List.mem_iff_getElem.mp before
  rw [List.length_take] at inside
  have at_j : c.get? j = some (c.order.take i)[j] := by
    rw [List.getElem_take]
    exact Chain.get?_eq_some_iff.mpr ⟨_, rfl⟩
  obtain ⟨t, ht, answered⟩ := declined j (by omega) _ at_j
  obtain ⟨answer, unnoticed⟩ := h.unnoticed _ (List.mem_of_mem_take before)
  obtain ⟨note, -, asked⟩ := unnoticed j t ht
  rw [asked] at answered
  obtain rfl : answer = .ok none := answered
  refine h.byShape _ ?_ j (unnoticed j)
  -- A member stands at `i`, so the one at `j` is not the last.
  obtain ⟨last, -⟩ := Chain.get?_eq_some_iff.mp at_i
  rw [List.getElem_take, List.dropLast_eq_take]
  refine List.mem_take_iff_getElem.mpr ⟨j, by omega, rfl⟩

end Asking

/-! ### Locating -/

/-- Remembering does not change who is located, if the position that is remembered does not change
the search and the position that is found is sound. -/
theorem locate_agrees {key : CacheKey} {g : Generation}
    {find : Option Nat → EvalM σ (Option (Nat × β))}
    (hinted : ∀ hint, (∀ i ∈ hint, sound key g i) →
      Agree (AlikeAt world sound) (find hint) (find none))
    (found : ∀ {s s' i b}, s.world = world → (find none).outcome s = (.ok (some (i, b)), s') →
      sound key g i) :
    Agree (AlikeAt world sound) (Context.locate key g find) (Context.locate key g find) := by
  rintro s t ⟨alike, at_world⟩
  have soundHint : ∀ i ∈ s.cache.bind fun c => c.lookup key g, sound key g i := by
    intro i mem
    obtain ⟨cache, is_cache, answer⟩ := Option.mem_bind_iff.mp mem
    exact alike.remembered cache is_cache key g i answer
  obtain ⟨same, related⟩ := hinted _ soundHint ⟨alike, at_world⟩
  rw [Context.locate, EvalM.outcome_bind_of_ok (EvalM.outcome_hintFor key g s),
    EvalM.outcome_bind_of_ok (EvalM.outcome_hintFor key g t), alike.forgetful, Option.bind_none]
  rcases ranS : (find (s.cache.bind fun c => c.lookup key g)).outcome s with ⟨answer, s'⟩
  rcases ranT : (find none).outcome t with ⟨answer', t'⟩
  rw [ranS, ranT] at same related
  cases same
  cases answer with
  | error e =>
    rw [EvalM.outcome_bind_of_error ranS, EvalM.outcome_bind_of_error ranT]
    exact ⟨rfl, related⟩
  | ok located =>
    rw [EvalM.outcome_bind_of_ok ranS, EvalM.outcome_bind_of_ok ranT]
    cases located with
    | none => exact ⟨rfl, related⟩
    | some entry =>
      obtain ⟨i, b⟩ := entry
      have new : sound key g i := found (alike.world ▸ at_world) ranT
      obtain ⟨⟨world', active, performed, remembered, forgetful⟩, still⟩ := related
      refine ⟨rfl, ⟨world', active, performed, ?_, ?_⟩, still⟩
      · intro cache mem
        obtain ⟨old, is_old, rfl⟩ := Option.map_eq_some_iff.mp mem
        exact (remembered old is_old).record new
      · show t'.cache.map _ = none
        rw [forgetful]
        rfl

end Accesses

/-! ### The accesses of a context -/

section Chains

open EvalM (Agree AgreeTo)

variable [Host σ] {sound : CacheKey → Generation → Nat → Prop} {ctx : Context σ}
  {reenter : Reenter σ} {node : NodeId} {name : String} {target : Value}

/-- What is done with whoever has an ability keeps evaluations alike if what is remembered tells of
those before a position that they decline. -/
theorem Alike.ability_agrees {ρ γ : Type} {kind : AccessKind} {g : Generation} {c : Chain ρ}
    {query : Nat → ρ → EvalM σ (Option Unit)} {use : Option (Nat × ρ) → EvalM σ γ}
    (declines : ValueType → ρ → Prop)
    (asking : ∀ world, Asking world c query (declines (target.valueType (Host.view world))))
    (recalls : ∀ type i, sound ⟨node, kind, type, none⟩ g i ↔
      ∀ r ∈ c.order.take i, declines type r)
    (uses : ∀ located, Agree (Alike sound) (use located) (use located)) :
    let access : EvalM σ γ := do
      let view ← EvalM.view
      let located ← Context.locate ⟨node, kind, target.valueType view, none⟩ g fun hint => do
        let found ← c.search hint query
        return found.map fun (i, r, _) => (i, r)
      use located
    Agree (Alike sound) access access := by
  refine Alike.agree_of_view fun world => ?_
  refine AgreeTo.bind (locate_agrees (fun hint justified => ?_) fun at_world found => ?_)
    (fun located => AlikeAt.agreeTo (uses located)) fun _ _ h => h.1
  · refine ((asking world).search_agrees fun i hinted => ?_).bind fun found => .pure _
    exact (recalls _ i).mp (justified i hinted)
  · obtain ⟨_, search⟩ := EvalM.search_of_found found
    exact (recalls _ _).mpr ((asking world).declines_of_search at_world search)

/-- **Reading keeps evaluations alike** if what is remembered tells of the resolvers before a
position that they decline. -/
theorem Alike.readProperty_agrees (declines : ValueType → PropertyResolver σ → Prop)
    (asking : ∀ world, Asking world ctx.properties (ctx.askReader reenter target name)
      (declines (target.valueType (Host.view world))))
    (recalls : ∀ type i, sound ⟨node, .read, type, none⟩ ctx.properties.generation i ↔
      ∀ r ∈ ctx.properties.order.take i, declines type r) :
    Agree (Alike sound) (ctx.readProperty reenter node name target)
      (ctx.readProperty reenter node name target) := by
  refine Alike.ability_agrees declines asking recalls fun located => ?_
  cases located with
  | none => exact Alike.agree_of_view fun world => AlikeAt.agreeTo (.throw _)
  | some found => exact Alike.perform_agrees ..

/-- **Writing keeps evaluations alike** if what is remembered tells of the resolvers before a
position that they decline. -/
theorem Alike.writeProperty_agrees (declines : ValueType → PropertyResolver σ → Prop)
    (value : Value)
    (asking : ∀ world, Asking world ctx.properties (ctx.askWriter reenter target name)
      (declines (target.valueType (Host.view world))))
    (recalls : ∀ type i, sound ⟨node, .write, type, none⟩ ctx.properties.generation i ↔
      ∀ r ∈ ctx.properties.order.take i, declines type r) :
    Agree (Alike sound) (ctx.writeProperty reenter node name target value)
      (ctx.writeProperty reenter node name target value) := by
  refine Alike.ability_agrees declines asking recalls fun located => ?_
  cases located with
  | none => exact Alike.agree_of_view fun world => AlikeAt.agreeTo (.throw _)
  | some found => exact Alike.perform_agrees ..

/-- **Calling keeps evaluations alike** if what is remembered tells of the resolvers before a
position that they decline. -/
theorem Alike.callMethod_agrees
    (declines : ValueType → List ValueType → MethodResolver σ → Prop) (args : List Value)
    (asking : ∀ argTypes world, Asking world ctx.methods
      (ctx.askMethod reenter target name argTypes)
      (declines (target.valueType (Host.view world)) argTypes))
    (recalls : ∀ type argTypes i,
      sound ⟨node, .call, type, some argTypes⟩ ctx.methods.generation i ↔
        ∀ r ∈ ctx.methods.order.take i, declines type argTypes r) :
    Agree (Alike sound) (ctx.callMethod reenter node name target args)
      (ctx.callMethod reenter node name target args) := by
  refine Alike.agree_of_view fun world => ?_
  have asked := asking (args.map (Value.valueType (Host.view world))) world
  refine AgreeTo.bind (locate_agrees (fun hint justified => ?_) fun at_world found => ?_)
    (fun located => AlikeAt.agreeTo ?_) fun _ _ h => h.1
  · exact asked.search_agrees fun i hinted => (recalls _ _ i).mp (justified i hinted)
  · exact (recalls _ _ _).mpr (asked.declines_of_search at_world found)
  · cases located with
    | none => exact Alike.agree_of_view fun world => AlikeAt.agreeTo (.throw _)
    | some found =>
      obtain ⟨i, r, executor⟩ := found
      refine EvalM.Agree.bind ?_ fun prepared => Alike.perform_agrees ..
      unfold Context.prepareArguments
      cases executor.signature with
      | none => exact .pure args
      | some signature =>
        exact Alike.agree_of_view fun world => AlikeAt.agreeTo (.ofExcept _)

/-- All accesses keep evaluations alike if those of each kind do. -/
theorem Alike.congruence {site : NodeId → String → Prop}
    (read : ∀ {node name} (target : Value), site node name →
      Agree (Alike sound) (ctx.readProperty reenter node name target)
        (ctx.readProperty reenter node name target))
    (write : ∀ {node name} (target value : Value), site node name →
      Agree (Alike sound) (ctx.writeProperty reenter node name target value)
        (ctx.writeProperty reenter node name target value))
    (call : ∀ {node name} (target : Value) (args : List Value), site node name →
      Agree (Alike sound) (ctx.callMethod reenter node name target args)
        (ctx.callMethod reenter node name target args)) :
    ctx.Congruence reenter site (Alike sound) where
  view alike := by rw [alike.world]
  active alike := alike.active
  setActive active alike := ⟨alike.world, rfl, alike.performed, alike.remembered, alike.forgetful⟩
  read := read
  write := write
  call := call

end Chains

section Contexts

open EvalM (Agree)

variable [Host σ] {reenter : Context σ → Reenter σ} {ctx : Context σ}

/-- Questions to readers of which those before another one decide by shape. -/
theorem Asking.readers (quiet : ∀ r ∈ ctx.properties.order, r.Quiet reenter)
    (byShape : ∀ r ∈ ctx.properties.order.dropLast, r.ByShape reenter) (target : Value)
    (name : String) (world : σ) :
    Asking world ctx.properties (ctx.askReader (reenter ctx) target name)
      (·.DeclinesRead reenter name (target.valueType (Host.view world))) where
  unnoticed r mem := ⟨_, fun i => (quiet r mem).askReader_unnoticed ctx target name i world⟩
  silent r mem declines i := by
    have asked := (quiet r mem).askReader_unnoticed ctx target name i world
    rw [declines ctx target world rfl] at asked
    exact asked
  byShape r mem i asked := by
    have answer := ((quiet r (List.dropLast_subset _ mem)).askReader_unnoticed ctx target name i
      world).unique asked
    exact (byShape r mem).declinesRead (EvalM.ability_eq_none_iff.mp answer)

/-- Questions to writers of which those before another one decide by shape. -/
theorem Asking.writers (quiet : ∀ r ∈ ctx.properties.order, r.Quiet reenter)
    (byShape : ∀ r ∈ ctx.properties.order.dropLast, r.ByShape reenter) (target : Value)
    (name : String) (world : σ) :
    Asking world ctx.properties (ctx.askWriter (reenter ctx) target name)
      (·.DeclinesWrite reenter name (target.valueType (Host.view world))) where
  unnoticed r mem := ⟨_, fun i => (quiet r mem).askWriter_unnoticed ctx target name i world⟩
  silent r mem declines i := by
    have asked := (quiet r mem).askWriter_unnoticed ctx target name i world
    rw [declines ctx target world rfl] at asked
    exact asked
  byShape r mem i asked := by
    have answer := ((quiet r (List.dropLast_subset _ mem)).askWriter_unnoticed ctx target name i
      world).unique asked
    exact (byShape r mem).declinesWrite (EvalM.ability_eq_none_iff.mp answer)

omit [Host σ] in
/-- Questions for methods to resolvers that are quiet. Whoever declines a shape finds nothing, and
of those before another one whoever finds nothing declines the shape. -/
theorem Asking.methods (quiet : ∀ r ∈ ctx.methods.order, r.Quiet reenter) {target : Value}
    {name : String} {argTypes : List ValueType} {world : σ} {declines : MethodResolver σ → Prop}
    (silent : ∀ r ∈ ctx.methods.order, declines r →
      ((r.resolve (ctx.environment (reenter ctx)) target name argTypes).run.run world).1 = .ok none)
    (byShape : ∀ r ∈ ctx.methods.order.dropLast,
      ((r.resolve (ctx.environment (reenter ctx)) target name argTypes).run.run world).1 =
        .ok none → declines r) :
    Asking world ctx.methods (ctx.askMethod (reenter ctx) target name argTypes) declines where
  unnoticed r mem :=
    ⟨_, fun i => (quiet r mem).askMethod_unnoticed ctx target name argTypes i world⟩
  silent r mem declined i := by
    have asked := (quiet r mem).askMethod_unnoticed ctx target name argTypes i world
    rw [silent r mem declined] at asked
    exact asked
  byShape r mem i asked := by
    have answer := ((quiet r (List.dropLast_subset _ mem)).askMethod_unnoticed ctx target name
      argTypes i world).unique asked
    exact byShape r mem (mapError_eq_ok_iff.mp answer)

variable {site : NodeId → String → Prop} {s : Session σ}
  (chains : s.Sound reenter site) (mem : ctx ∈ s.contexts) (orderly : ctx.Orderly reenter)
  (functional : ∀ {node a b}, site node a → site node b → a = b)
  {node : NodeId} {name : String} (accessed : site node name)

include chains mem orderly functional accessed

/-- Reading keeps evaluations of a session alike. -/
theorem Session.Sound.readProperty_agrees (target : Value) :
    Agree (Alike (Justified reenter site s.contexts s.supply))
      (ctx.readProperty (reenter ctx) node name target)
      (ctx.readProperty (reenter ctx) node name target) := by
  have chain : ctx.properties ∈ s.contexts.map (·.properties) := List.mem_map_of_mem mem
  refine Alike.readProperty_agrees (fun type r => r.DeclinesRead reenter name type)
    (Asking.readers orderly.properties_quiet orderly.properties_byShape target name)
    fun type i => ⟨fun justified => ?_, fun before => ?_⟩
  · exact justified.read rfl name accessed _ chain rfl
  · refine ⟨chains.properties.drawn _ chain, fun _ other also => ?_, nofun, nofun⟩
    rw [functional also accessed]
    exact chains.properties.vouched chain before

/-- Writing keeps evaluations of a session alike. -/
theorem Session.Sound.writeProperty_agrees (target value : Value) :
    Agree (Alike (Justified reenter site s.contexts s.supply))
      (ctx.writeProperty (reenter ctx) node name target value)
      (ctx.writeProperty (reenter ctx) node name target value) := by
  have chain : ctx.properties ∈ s.contexts.map (·.properties) := List.mem_map_of_mem mem
  refine Alike.writeProperty_agrees (fun type r => r.DeclinesWrite reenter name type) value
    (Asking.writers orderly.properties_quiet orderly.properties_byShape target name)
    fun type i => ⟨fun justified => ?_, fun before => ?_⟩
  · exact justified.write rfl name accessed _ chain rfl
  · refine ⟨chains.properties.drawn _ chain, nofun, fun _ other also => ?_, nofun⟩
    rw [functional also accessed]
    exact chains.properties.vouched chain before

/-- Calling keeps evaluations of a session alike. -/
theorem Session.Sound.callMethod_agrees (target : Value) (args : List Value) :
    Agree (Alike (Justified reenter site s.contexts s.supply))
      (ctx.callMethod (reenter ctx) node name target args)
      (ctx.callMethod (reenter ctx) node name target args) := by
  have chain : ctx.methods ∈ s.contexts.map (·.methods) := List.mem_map_of_mem mem
  refine Alike.callMethod_agrees (fun type argTypes r => r.DeclinesCall reenter name type argTypes)
    args (fun argTypes world =>
      Asking.methods orderly.methods_quiet (fun r _ declined => ?_) fun r before declined => ?_)
    fun type argTypes i => ⟨fun justified => ?_, fun before => ?_⟩
  · exact declined ctx target world rfl
  · exact (orderly.methods_byShape r before).declinesCall declined
  · exact justified.call rfl name accessed _ chain rfl
  · refine ⟨chains.methods.drawn _ chain, nofun, nofun, fun _ other also => ?_⟩
    rw [functional also accessed]
    exact chains.methods.vouched chain before

omit accessed in
/-- **All accesses of an orderly context keep evaluations alike** if what is remembered is
justified. -/
theorem Session.Sound.congruence_alike :
    ctx.Congruence (reenter ctx) site (Alike (Justified reenter site s.contexts s.supply)) :=
  Alike.congruence
    (fun target accessed =>
      chains.readProperty_agrees mem orderly functional accessed target)
    (fun target value accessed =>
      chains.writeProperty_agrees mem orderly functional accessed target value)
    (fun target args accessed =>
      chains.callMethod_agrees mem orderly functional accessed target args)

end Contexts

end HostExpr
