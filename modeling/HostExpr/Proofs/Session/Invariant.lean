import HostExpr.Proofs.Session.Declining

/-!
What the chains of a session and the memory of its expression have to do with each other.

A generation tells the members of a chain: among `Chain.Coherent` chains those of one generation
have the same members in the same order. `Justified` is what a remembered position stands for: in
every chain of that generation all resolvers before it decline the remembered shape. Both survive
every change of a context, since a chain that changes gets a generation for which nothing was
remembered (`Session.extends_act`, `Session.Sound.extend`).
-/

namespace HostExpr

/-! ### Chains and their generations -/

section Chains

variable {ρ : Type}

/-- A chain that was there before, or whose generation was drawn in between. -/
def Chain.KeptOrNew (old : List (Chain ρ)) (before after : TokenSupply) (c : Chain ρ) : Prop :=
  c ∈ old ∨ before.next ≤ c.generation.token ∧ c.generation.token < after.next

/-- A chain of a generation that was drawn before was there before. -/
theorem Chain.KeptOrNew.mem_of_drawn {old : List (Chain ρ)} {before after : TokenSupply}
    {c : Chain ρ} (h : c.KeptOrNew old before after)
    (drawn : c.generation.token < before.next) : c ∈ old := by
  rcases h with kept | ⟨new, -⟩
  · exact kept
  · omega

/-- A change of a chain leaves it as it is or draws a generation for it. -/
theorem ChainEdit.apply_cases (edit : ChainEdit ρ) (c : Chain ρ) (supply : TokenSupply) :
    (edit.apply c).run supply = (c, supply) ∨
      ((edit.apply c).run supply).1.generation = ⟨supply.next⟩ ∧
        ((edit.apply c).run supply).2 = ⟨supply.next + 1⟩ := by
  cases edit with
  | remove test =>
    rw [apply, Chain.removeFirst]
    cases c.resolvers.find? test with
    | none => exact .inl rfl
    | some r => exact .inr ⟨rfl, rfl⟩
  | _ => exact .inr ⟨rfl, rfl⟩

theorem ChainEdit.apply_keptOrNew (edit : ChainEdit ρ) {old : List (Chain ρ)}
    {c : Chain ρ} (mem : c ∈ old) (supply : TokenSupply) :
    supply.next ≤ ((edit.apply c).run supply).2.next ∧
      ((edit.apply c).run supply).1.KeptOrNew old supply ((edit.apply c).run supply).2 := by
  rcases edit.apply_cases c supply with same | ⟨generation, drawn⟩
  · rw [same]
    exact ⟨Nat.le_refl _, .inl mem⟩
  · rw [drawn]
    refine ⟨Nat.le_succ _, .inr ?_⟩
    rw [generation]
    exact ⟨Nat.le_refl _, Nat.lt_succ_self _⟩

/-- Generations that chains carry are not drawn again. -/
theorem Chain.drawn_extend {old chains : List (Chain ρ)} {before after : TokenSupply}
    (drawn : ∀ c ∈ old, c.generation.token < before.next) (later : before.next ≤ after.next)
    {new : Chain ρ} (from_old : new.KeptOrNew old before after)
    (sub : ∀ c ∈ chains, c ∈ old ∨ c = new) : ∀ c ∈ chains, c.generation.token < after.next := by
  have within : ∀ c ∈ old, c.generation.token < after.next := fun c kept =>
    Nat.lt_of_lt_of_le (drawn c kept) later
  intro c mem
  rcases sub c mem with kept | rfl
  · exact within c kept
  · rcases from_old with kept | ⟨-, new⟩
    · exact within c kept
    · exact new

/-- What chains of one generation have in common they keep when one of them is replaced, or one is
added, that was there before or is of a new generation. -/
theorem Chain.common_extend {R : Chain ρ → Chain ρ → Prop} (refl : ∀ c, R c c)
    {old chains : List (Chain ρ)} {before after : TokenSupply}
    (common : ∀ c ∈ old, ∀ d ∈ old, c.generation = d.generation → R c d)
    (drawn : ∀ c ∈ old, c.generation.token < before.next) {new : Chain ρ}
    (from_old : new.KeptOrNew old before after) (sub : ∀ c ∈ chains, c ∈ old ∨ c = new) :
    ∀ c ∈ chains, ∀ d ∈ chains, c.generation = d.generation → R c d := by
  have within : ∀ c ∈ chains, c.KeptOrNew old before after := by
    intro c mem
    rcases sub c mem with kept | rfl
    · exact .inl kept
    · exact from_old
  intro c hc d hd same
  by_cases known : c.generation.token < before.next
  · have oldC := (within c hc).mem_of_drawn known
    have oldD := (within d hd).mem_of_drawn (same ▸ known)
    exact common c oldC d oldD same
  · -- A generation that was not drawn before is that of the new chain alone.
    have is_new : ∀ e ∈ chains, e.generation = c.generation → e = new := by
      intro e he eq
      rcases sub e he with kept | rfl
      · have := drawn e kept
        rw [eq] at this
        exact absurd this known
      · rfl
    rw [is_new c hc rfl, is_new d hd same.symm]
    exact refl new

/-- Chains of one generation have the same members in the same order, and no generation of theirs
is still to be drawn. -/
structure Chain.Coherent (chains : List (Chain ρ)) (supply : TokenSupply) : Prop where
  same_order : ∀ c ∈ chains, ∀ d ∈ chains, c.generation = d.generation → c.order = d.order
  drawn : ∀ c ∈ chains, c.generation.token < supply.next

/-- Coherent chains stay so when one of them is replaced, or one is added, that was there before or
is of a new generation. -/
theorem Chain.Coherent.extend {old chains : List (Chain ρ)} {before after : TokenSupply}
    (h : Coherent old before) (later : before.next ≤ after.next) {new : Chain ρ}
    (from_old : new.KeptOrNew old before after) (sub : ∀ c ∈ chains, c ∈ old ∨ c = new) :
    Coherent chains after where
  same_order :=
    common_extend (R := fun c d => c.order = d.order) (fun _ => rfl) h.same_order h.drawn from_old
      sub
  drawn := drawn_extend h.drawn later from_old sub

/-- In every chain of a generation the resolvers before a position have a property. -/
def Chain.Vouched (chains : List (Chain ρ)) (g : Generation) (i : Nat) (holds : ρ → Prop) : Prop :=
  ∀ c ∈ chains, c.generation = g → ∀ r ∈ c.order.take i, holds r

/-- What is known of one chain is known of all coherent chains of its generation. -/
theorem Chain.Coherent.vouched {chains : List (Chain ρ)} {supply : TokenSupply}
    (h : Coherent chains supply) {c : Chain ρ} (mem : c ∈ chains) {i : Nat} {holds : ρ → Prop}
    (before : ∀ r ∈ c.order.take i, holds r) : Vouched chains c.generation i holds := by
  intro d hd same
  rw [h.same_order d hd c mem same]
  exact before

theorem Chain.Vouched.extend {old chains : List (Chain ρ)} {before after : TokenSupply}
    {g : Generation} {i : Nat} {holds : ρ → Prop} (h : Vouched old g i holds)
    (drawn : g.token < before.next) {new : Chain ρ} (from_old : new.KeptOrNew old before after)
    (sub : ∀ c ∈ chains, c ∈ old ∨ c = new) : Vouched chains g i holds := by
  intro c mem same
  have kept : c ∈ old := by
    rcases sub c mem with kept | rfl
    · exact kept
    · exact from_old.mem_of_drawn (same ▸ drawn)
  exact h c kept same

end Chains

variable {σ : Type}

/-! ### Steps of a host -/

structure Context.KeptOrNew (old : List (Context σ)) (before after : TokenSupply)
    (ctx : Context σ) : Prop where
  later : before.next ≤ after.next
  properties : ctx.properties.KeptOrNew (old.map (·.properties)) before after
  methods : ctx.methods.KeptOrNew (old.map (·.methods)) before after

theorem Context.KeptOrNew.of_kept {old : List (Context σ)} {supply : TokenSupply}
    {ctx p m : Context σ} (hp : p ∈ old) (hm : m ∈ old) (properties : ctx.properties = p.properties)
    (methods : ctx.methods = m.methods) : ctx.KeptOrNew old supply supply where
  later := Nat.le_refl _
  properties := .inl (List.mem_map.mpr ⟨p, hp, properties.symm⟩)
  methods := .inl (List.mem_map.mpr ⟨m, hm, methods.symm⟩)

/-- The contexts of a session and its supply are those of an earlier one, but for one context. -/
def Session.Extends (s s' : Session σ) : Prop :=
  (s'.contexts = s.contexts ∧ s'.supply = s.supply) ∨
    ∃ new : Context σ, new.KeptOrNew s.contexts s.supply s'.supply ∧
      ∀ ctx ∈ s'.contexts, ctx ∈ s.contexts ∨ ctx = new

theorem Session.extends_update {s : Session σ} (number : Nat)
    {change : Context σ → Fresh (Context σ)}
    (h : ∀ ctx ∈ s.contexts, ((change ctx).run s.supply).1.KeptOrNew s.contexts s.supply
      ((change ctx).run s.supply).2) :
    s.Extends (s.update number change) := by
  unfold update
  cases at_number : s.contexts[number]? with
  | none => exact .inl ⟨rfl, rfl⟩
  | some ctx =>
    refine .inr ⟨_, h ctx (List.mem_of_getElem? at_number), fun other mem => ?_⟩
    exact List.mem_or_eq_of_mem_set mem

variable [Host σ]

/-- Every change of a context leaves each of its chains as it was or draws a generation for it. -/
theorem ContextEdit.apply_keptOrNew (edit : ContextEdit σ) {old : List (Context σ)}
    {ctx : Context σ} (mem : ctx ∈ old) (supply : TokenSupply) :
    ((edit.apply ctx).run supply).1.KeptOrNew old supply ((edit.apply ctx).run supply).2 := by
  have keptP : ctx.properties ∈ old.map (·.properties) := List.mem_map_of_mem mem
  have keptM : ctx.methods ∈ old.map (·.methods) := List.mem_map_of_mem mem
  cases edit with
  | installRegistry registry =>
    exact
      { later := Nat.le_add_right supply.next 2
        properties := .inr ⟨Nat.le_refl supply.next, Nat.lt_succ_of_lt (Nat.lt_succ_self _)⟩
        methods := .inr ⟨Nat.le_succ supply.next, Nat.lt_succ_self (supply.next + 1)⟩ }
  | properties edit =>
    obtain ⟨later, chain⟩ := edit.apply_keptOrNew keptP supply
    exact ⟨later, chain, .inl keptM⟩
  | methods edit =>
    obtain ⟨later, chain⟩ := edit.apply_keptOrNew keptM supply
    exact ⟨later, .inl keptP, chain⟩
  | _ => exact .of_kept mem mem rfl rfl

/-- **A step changes at most one context**, and a chain that it changes gets a new generation. -/
theorem Session.extends_act (reenter : Context σ → Reenter σ) (s : Session σ) (a : Action σ) :
    s.Extends (s.act reenter a).2 := by
  cases a with
  | create config =>
    refine .inr ⟨((Context.new config).run s.supply).1, ?_, fun ctx mem => ?_⟩
    · exact
        { later := Nat.le_add_right s.supply.next 2
          properties := .inr ⟨Nat.le_refl s.supply.next, Nat.lt_succ_of_lt (Nat.lt_succ_self _)⟩
          methods := .inr ⟨Nat.le_succ s.supply.next, Nat.lt_succ_self (s.supply.next + 1)⟩ }
    · rcases List.mem_append.mp mem with kept | added
      · exact .inl kept
      · exact .inr (List.mem_singleton.mp added)
  | edit number change =>
    exact extends_update number fun ctx mem => change.apply_keptOrNew mem s.supply
  | copyProperties source target =>
    rw [act]
    cases at_source : s.contexts[source]? with
    | none => exact .inl ⟨rfl, rfl⟩
    | some giver =>
      have given := List.mem_of_getElem? at_source
      exact extends_update target fun ctx mem => .of_kept given mem rfl rfl
  | copyMethods source target =>
    rw [act]
    cases at_source : s.contexts[source]? with
    | none => exact .inl ⟨rfl, rfl⟩
    | some giver =>
      have given := List.mem_of_getElem? at_source
      exact extends_update target fun ctx mem => .of_kept mem given rfl rfl
  | touch change => exact .inl ⟨rfl, rfl⟩
  | forget => exact .inl ⟨rfl, rfl⟩
  | evaluate number =>
    rw [act]
    cases s.contexts[number]? with
    | none => exact .inl ⟨rfl, rfl⟩
    | some ctx => exact .inl ⟨rfl, rfl⟩
  | assign number value =>
    rw [act]
    cases s.contexts[number]? with
    | none => exact .inl ⟨rfl, rfl⟩
    | some ctx => exact .inl ⟨rfl, rfl⟩

/-! ### Justified memories -/

private theorem map_mem_or_eq {α β : Type} (f : α → β) {old new : List α} {a : α}
    (sub : ∀ x ∈ new, x ∈ old ∨ x = a) : ∀ y ∈ new.map f, y ∈ old.map f ∨ y = f a := by
  intro y mem
  obtain ⟨x, hx, rfl⟩ := List.mem_map.mp mem
  rcases sub x hx with kept | rfl
  · exact .inl (List.mem_map_of_mem kept)
  · exact .inr rfl

variable (reenter : Context σ → Reenter σ) (site : NodeId → String → Prop)

/-- What a remembered position stands for: the resolvers before it, in any chain of the generation,
decline the shape for each name that the node accesses. -/
structure Justified (contexts : List (Context σ)) (supply : TokenSupply) (key : CacheKey)
    (g : Generation) (i : Nat) : Prop where
  drawn : g.token < supply.next
  read : key.access = .read → ∀ name, site key.node name →
    Chain.Vouched (contexts.map (·.properties)) g i (·.DeclinesRead reenter name key.target)
  write : key.access = .write → ∀ name, site key.node name →
    Chain.Vouched (contexts.map (·.properties)) g i (·.DeclinesWrite reenter name key.target)
  call : key.access = .call → ∀ name, site key.node name →
    Chain.Vouched (contexts.map (·.methods)) g i
      (·.DeclinesCall reenter name key.target (key.argTypes.getD []))

/-- The invariant of a session: its chains are coherent and its expression remembers nothing but
what is justified. -/
structure Session.Sound (s : Session σ) : Prop where
  properties : Chain.Coherent (s.contexts.map (·.properties)) s.supply
  methods : Chain.Coherent (s.contexts.map (·.methods)) s.supply
  remembered : ∀ cache ∈ s.compiled.cache,
    cache.Answers (Justified reenter site s.contexts s.supply)

variable {reenter site}

theorem Session.Sound.start (world : σ) (source : String) (expr : Expr) (caching : Bool) :
    (Session.start world (Compiled.new source expr caching)).Sound reenter site where
  properties := ⟨nofun, nofun⟩
  methods := ⟨nofun, nofun⟩
  remembered := by
    intro cache mem
    cases caching with
    | true =>
      obtain rfl : {} = cache := by simpa [Session.start, Compiled.new] using mem
      exact .empty
    | false => simp [Session.start, Compiled.new] at mem

/-- What is justified stays so when at most one context changes. -/
theorem Justified.extend {s s' : Session σ} {key : CacheKey} {g : Generation} {i : Nat}
    (h : Justified reenter site s.contexts s.supply key g i) (step : s.Extends s') :
    Justified reenter site s'.contexts s'.supply key g i := by
  rcases step with ⟨contexts, supply⟩ | ⟨new, kept, sub⟩
  · rw [contexts, supply]
    exact h
  · have subP := map_mem_or_eq (fun ctx : Context σ => ctx.properties) sub
    have subM := map_mem_or_eq (fun ctx : Context σ => ctx.methods) sub
    exact
      { drawn := Nat.lt_of_lt_of_le h.drawn kept.later
        read := fun is name at_site => (h.read is name at_site).extend h.drawn kept.properties subP
        write := fun is name at_site =>
          (h.write is name at_site).extend h.drawn kept.properties subP
        call := fun is name at_site => (h.call is name at_site).extend h.drawn kept.methods subM }

/-- A step that leaves the memory of the expression alone, or takes some of it, keeps the
invariant. -/
theorem Session.Sound.extend {s s' : Session σ} (h : s.Sound reenter site) (step : s.Extends s')
    (remembered : ∀ cache ∈ s'.compiled.cache,
      cache.Answers (Justified reenter site s.contexts s.supply)) :
    s'.Sound reenter site := by
  have justified : ∀ cache ∈ s'.compiled.cache,
      cache.Answers (Justified reenter site s'.contexts s'.supply) :=
    fun cache mem => (remembered cache mem).mono fun _ _ _ just => just.extend step
  rcases step with ⟨contexts, supply⟩ | ⟨new, kept, sub⟩
  · refine ⟨?_, ?_, justified⟩
    · rw [contexts, supply]
      exact h.properties
    · rw [contexts, supply]
      exact h.methods
  · refine ⟨?_, ?_, justified⟩
    · exact h.properties.extend kept.later kept.properties (map_mem_or_eq _ sub)
    · exact h.methods.extend kept.later kept.methods (map_mem_or_eq _ sub)

end HostExpr
