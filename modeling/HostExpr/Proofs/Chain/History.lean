import HostExpr.Proofs.Session.Invariant

/-!
What a generation tells of a chain.

Chains are made, copied and changed in any order; a copy carries the generation of what it was
copied from until one of the two is changed. At whatever moments two chains are looked at, if they
carry one generation they have the same members: `Chains.generation_identifies`. So a position that
was noted for a generation names the same resolver in every chain that ever carries it.
-/

namespace HostExpr

/-- Any number of chains, and the generations that none of them has had yet. -/
structure Chains (ρ : Type) where
  all : List (Chain ρ) := []
  supply : TokenSupply := {}

/-- A step in the history of some chains, which are named by their numbers. A step that names no
chain does nothing. -/
inductive ChainStep (ρ : Type) where
  | new
  | clone (number : Nat)
  | edit (number : Nat) (change : ChainEdit ρ)

namespace Chains

variable {ρ : Type}

def step (s : Chains ρ) : ChainStep ρ → Chains ρ
  | .new =>
    let (made, supply) := Chain.new.run s.supply
    { all := s.all ++ [made], supply }
  | .clone number =>
    match s.all[number]? with
    | none => s
    | some c => { s with all := s.all ++ [c] }
  | .edit number change =>
    match s.all[number]? with
    | none => s
    | some c =>
      let (changed, supply) := (change.apply c).run s.supply
      { all := s.all.set number changed, supply }

/-- The chains at each moment of a history, from its beginning to its end. -/
def moments (s : Chains ρ) : List (ChainStep ρ) → List (Chains ρ)
  | [] => [s]
  | first :: rest => s :: (s.step first).moments rest

/-! ### One step -/

/-- The later chains are the earlier ones, but for one of them. -/
structure Extends (s s' : Chains ρ) : Prop where
  later : s.supply.next ≤ s'.supply.next
  changed : (∀ c ∈ s'.all, c ∈ s.all) ∨
    ∃ new : Chain ρ, new.KeptOrNew s.all s.supply s'.supply ∧ ∀ c ∈ s'.all, c ∈ s.all ∨ c = new

theorem Extends.refl (s : Chains ρ) : s.Extends s where
  later := Nat.le_refl _
  changed := .inl fun _ kept => kept

/-- **A step changes at most one chain**, and a chain that it changes gets a new generation. -/
theorem extends_step (s : Chains ρ) (a : ChainStep ρ) : s.Extends (s.step a) := by
  cases a with
  | new =>
    constructor
    · exact Nat.le_succ _
    · refine .inr ⟨(Chain.new.run s.supply).1, .inr ⟨Nat.le_refl _, Nat.lt_succ_self _⟩, ?_⟩
      intro c mem
      rcases List.mem_append.mp mem with kept | made
      · exact .inl kept
      · exact .inr (List.mem_singleton.mp made)
  | clone number =>
    rw [step]
    cases at_number : s.all[number]? with
    | none => exact .refl s
    | some c =>
      refine ⟨Nat.le_refl _, .inl fun d mem => ?_⟩
      rcases List.mem_append.mp mem with kept | copied
      · exact kept
      · rw [List.mem_singleton.mp copied]
        exact List.mem_of_getElem? at_number
  | edit number change =>
    rw [step]
    cases at_number : s.all[number]? with
    | none => exact .refl s
    | some c =>
      obtain ⟨later, changed⟩ :=
        change.apply_keptOrNew (List.mem_of_getElem? at_number) s.supply
      refine ⟨later, .inr ⟨_, changed, fun d mem => ?_⟩⟩
      exact List.mem_or_eq_of_mem_set mem

/-! ### Histories -/

/-- Of the chains that were seen those of one generation are equal, and no generation of theirs is
still to be drawn. -/
structure Identified (seen : List (Chain ρ)) (supply : TokenSupply) : Prop where
  equal : ∀ c ∈ seen, ∀ d ∈ seen, c.generation = d.generation → c = d
  drawn : ∀ c ∈ seen, c.generation.token < supply.next

/-- What was seen before a step may be remembered together with the chains after it. -/
theorem Identified.step {seen : List (Chain ρ)} {s : Chains ρ} (h : Identified seen s.supply)
    (current : ∀ c ∈ s.all, c ∈ seen) (a : ChainStep ρ) :
    Identified (seen ++ (s.step a).all) (s.step a).supply := by
  obtain ⟨later, unchanged | ⟨new, kept, sub⟩⟩ := s.extends_step a
  · have only_seen : ∀ c ∈ seen ++ (s.step a).all, c ∈ seen := by
      intro c mem
      rcases List.mem_append.mp mem with known | now
      · exact known
      · exact current c (unchanged c now)
    constructor
    · intro c hc d hd
      exact h.equal c (only_seen c hc) d (only_seen d hd)
    · intro c hc
      exact Nat.lt_of_lt_of_le (h.drawn c (only_seen c hc)) later
  · have kept_seen : new.KeptOrNew seen s.supply (s.step a).supply := kept.imp_left (current new)
    have seen_or_new : ∀ c ∈ seen ++ (s.step a).all, c ∈ seen ∨ c = new := by
      intro c mem
      rcases List.mem_append.mp mem with known | now
      · exact .inl known
      · exact (sub c now).imp_left (current c)
    constructor
    · exact Chain.common_extend (fun _ => rfl) h.equal h.drawn kept_seen seen_or_new
    · exact Chain.drawn_extend h.drawn later kept_seen seen_or_new

/-- All chains of a history may be remembered together. -/
theorem Identified.moments {seen : List (Chain ρ)} {s : Chains ρ} (h : Identified seen s.supply)
    (current : ∀ c ∈ s.all, c ∈ seen) (steps : List (ChainStep ρ)) :
    ∃ all supply, Identified all supply ∧ (∀ c ∈ seen, c ∈ all) ∧
      ∀ t ∈ s.moments steps, ∀ c ∈ t.all, c ∈ all := by
  induction steps generalizing seen s with
  | nil =>
    refine ⟨seen, s.supply, h, fun _ known => known, fun t mem => ?_⟩
    rw [List.mem_singleton.mp mem]
    exact current
  | cons a rest ih =>
    obtain ⟨all, supply, identified, remembered, covered⟩ :=
      ih (h.step current a) fun c now => List.mem_append.mpr (.inr now)
    have remembers : ∀ c ∈ seen, c ∈ all := fun c known =>
      remembered c (List.mem_append.mpr (.inl known))
    refine ⟨all, supply, identified, remembers, fun t mem => ?_⟩
    rcases List.mem_cons.mp mem with rfl | later
    · exact fun c now => remembers c (current c now)
    · exact covered t later

/-- A removal that finds nothing leaves all chains as they are. -/
theorem step_remove_of_none {s : Chains ρ} {number : Nat} {c : Chain ρ} {test : ρ → Bool}
    (at_number : s.all[number]? = some c) (none_passes : ∀ r ∈ c.resolvers, test r = false) :
    s.step (.edit number (.remove test)) = s := by
  have nothing : c.resolvers.find? test = none := by
    apply List.find?_eq_none.mpr
    intro r mem
    rw [none_passes r mem]
    exact Bool.false_ne_true
  have unchanged : (ChainEdit.apply (.remove test) c).run s.supply = (c, s.supply) := by
    rw [ChainEdit.apply, Chain.removeFirst, nothing]
    rfl
  have same : s.all.set number c = s.all := by
    obtain ⟨inside, rfl⟩ := List.getElem?_eq_some_iff.mp at_number
    exact List.set_getElem_self inside
  simp only [step, at_number, unchanged, same]

/-- **A generation identifies the members of a chain.** In every history of chains that are made,
copied and changed, any two chains that carry one generation, at whatever moments, have the same
resolvers of the host and the same default resolver. So they have the same order, size and members
by position, and a position of the one names the same resolver in the other. A removal that finds
nothing changes neither members nor generation. -/
theorem generation_identifies (supply : TokenSupply) (steps : List (ChainStep ρ)) :
    let history := ({ supply } : Chains ρ).moments steps
    (∀ s ∈ history, ∀ t ∈ history, ∀ c ∈ s.all, ∀ d ∈ t.all, c.generation = d.generation →
      (c.resolvers = d.resolvers ∧ c.default = d.default) ∧
      (c.order = d.order ∧ c.size = d.size ∧ ∀ i, c.get? i = d.get? i) ∧
      ∀ i r, c.get? i = some r → i < d.size ∧ d.get? i = some r) ∧
    ∀ s ∈ history, ∀ number c test, s.all[number]? = some c →
      (∀ r ∈ c.resolvers, test r = false) → s.step (.edit number (.remove test)) = s := by
  intro history
  have start : Identified ([] : List (Chain ρ)) supply := ⟨nofun, nofun⟩
  obtain ⟨all, last, identified, -, covered⟩ :=
    Identified.moments (s := { supply }) start nofun steps
  constructor
  · intro s hs t ht c hc d hd same
    obtain rfl : c = d := identified.equal c (covered s hs c hc) d (covered t ht d hd) same
    refine ⟨⟨rfl, rfl⟩, ⟨rfl, rfl, fun _ => rfl⟩, fun i r found => ⟨?_, found⟩⟩
    rw [Chain.size_eq_length]
    exact (Chain.get?_eq_some_iff.mp found).1
  · intro s _ number c test at_number none_passes
    exact step_remove_of_none at_number none_passes

/-- A copy that is left alone tells what was in a chain before the chain changed. -/
theorem generation_identifies_of_copy :
    let steps : List (ChainStep String) :=
      [.new, .edit 0 (.add "a"), .edit 0 (.setDefault (some "z")), .clone 0,
        .edit 0 (.addFirst "b"), .edit 1 (.remove (· = "z"))]
    let history := ({} : Chains String).moments steps
    let early : Chain String := ⟨["a"], some "z", ⟨2⟩⟩
    ∃ s ∈ history, ∃ t ∈ history, early ∈ s.all ∧ early ∈ t.all ∧
      t.all[0]? = some ⟨["b", "a"], some "z", ⟨3⟩⟩ ∧
      ∀ i r, early.get? i = some r → i < early.size ∧ early.get? i = some r := by
  intro steps history early
  let before : Chains String := { all := [early], supply := ⟨3⟩ }
  let after : Chains String :=
    { all := [⟨["b", "a"], some "z", ⟨3⟩⟩, early], supply := ⟨4⟩ }
  have at_before : history[3]? = some before := rfl
  have at_after : history[6]? = some after := rfl
  have hs := List.mem_of_getElem? at_before
  have ht := List.mem_of_getElem? at_after
  have in_before : early ∈ before.all := List.mem_singleton_self early
  have in_after : early ∈ after.all := List.mem_cons_of_mem _ (List.mem_singleton_self early)
  refine ⟨before, hs, after, ht, in_before, in_after, rfl, ?_⟩
  exact ((generation_identifies {} steps).1 before hs after ht early in_before early in_after
    rfl).2.2

end Chains

end HostExpr
