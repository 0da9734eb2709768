import HostExpr.Hierarchy

/-!
The lineage of a type is what can be reached from it.

`Hierarchy.Reaches` goes from a type to its parent as long as the types are registered, and may go
round a cycle any number of times. The walk that `Hierarchy.lineage` takes ends where a cycle would
close, and misses nothing by that: `Hierarchy.mem_lineage_iff`. So the lineage of a type that is
reached is part of the lineage of the type that it is reached from, wherever the two walks are cut.
Each step of the walk leaves a smaller hierarchy, which is what `Hierarchy.lineage_induction` is
about.
-/

namespace HostExpr.Hierarchy

variable {h : Hierarchy} {a b c name target : String}

/-- **Induction along a lineage.** The hypothesis for a type that has a parent is about the parent,
in the hierarchy without the type. -/
@[elab_as_elim]
theorem lineage_induction {P : Hierarchy → String → Prop}
    (unregistered : ∀ h name, h.find? name = none → h.lineage name = [] → P h name)
    (top : ∀ h name n, h.find? name = some ⟨n, none⟩ → h.lineage name = [name] → P h name)
    (child : ∀ h name n parent, h.find? name = some ⟨n, some parent⟩ →
      h.lineage name = name :: Hierarchy.lineage (h.erase name) parent →
      P (h.erase name) parent → P h name)
    (h : Hierarchy) (name : String) : P h name := by
  generalize size : h.size = n
  induction n using Nat.strongRecOn generalizing h name with
  | ind n ih =>
    have lists := h.lineage_eq name
    cases found : h.find? name with
    | none =>
      rw [found] at lists
      exact unregistered h name found lists
    | some entry =>
      obtain ⟨bears, parent?⟩ := entry
      rw [found] at lists
      cases parent? with
      | none => exact top h name bears found lists
      | some parent =>
        have smaller : (h.erase name).size < n := size ▸ Table.size_erase_lt found
        exact child h name bears parent found lists (ih _ smaller _ _ rfl)

theorem find?_of_erase {e : TypeEntry} (found : (h.erase name).find? target = some e) :
    target ≠ name ∧ h.find? target = some e := by
  rw [Table.find?_erase] at found
  split at found
  · cases found
  · next other => exact ⟨other, found⟩

/-- What is listed is registered. -/
theorem isSome_of_mem_lineage (mem : target ∈ h.lineage name) : (h.find? target).isSome := by
  induction h, name using lineage_induction with
  | unregistered h name missing lists =>
    rw [lists] at mem
    cases mem
  | top h name bears found lists =>
    rw [lists, List.mem_singleton] at mem
    rw [mem, found]
    rfl
  | child h name bears parent found lists ih =>
    rw [lists] at mem
    rcases List.mem_cons.mp mem with rfl | above
    · rw [found]
      rfl
    · obtain ⟨e, above⟩ := Option.isSome_iff_exists.mp (ih above)
      rw [(find?_of_erase above).2]
      rfl

/-! ### Reaching -/

/-- A registered type has a parent, which need not be registered. -/
def Leads (h : Hierarchy) (name parent : String) : Prop :=
  ∃ e, h.find? name = some e ∧ e.parent = some parent

theorem Leads.of_erase (link : Leads (h.erase name) a b) : h.Leads a b := by
  obtain ⟨e, found, parent⟩ := link
  exact ⟨e, (find?_of_erase found).2, parent⟩

/-- A registered type that is the first one or is reached from it in so many steps, each from a type
to its parent. -/
inductive ReachesIn (h : Hierarchy) : Nat → String → String → Prop where
  | here {name : String} (registered : (h.find? name).isSome) : ReachesIn h 0 name name
  | up {n : Nat} {name parent target : String} (link : h.Leads name parent)
      (rest : ReachesIn h n parent target) : ReachesIn h (n + 1) name target

/-- A registered type that is the first one or one of its ancestors. -/
def Reaches (h : Hierarchy) (name target : String) : Prop :=
  ∃ n, h.ReachesIn n name target

theorem ReachesIn.trans {m n : Nat} (first : h.ReachesIn m a b) (second : h.ReachesIn n b c) :
    h.ReachesIn (m + n) a c := by
  induction first with
  | here registered =>
    rw [Nat.zero_add]
    exact second
  | up link _ ih =>
    rw [Nat.succ_add]
    exact .up link (ih second)

theorem Reaches.trans (first : h.Reaches a b) (second : h.Reaches b c) : h.Reaches a c := by
  obtain ⟨m, first⟩ := first
  obtain ⟨n, second⟩ := second
  exact ⟨m + n, first.trans second⟩

/-- A walk that never meets a type is one in the hierarchy without it; one that meets it goes on
from there in no more steps. -/
theorem ReachesIn.avoids_or_meets {n : Nat} (walk : h.ReachesIn n a b) (name : String) :
    ReachesIn (h.erase name) n a b ∨ ∃ m ≤ n, h.ReachesIn m name b := by
  induction walk with
  | @here a registered =>
    by_cases meets : a = name
    · subst meets
      exact .inr ⟨0, Nat.le_refl 0, .here registered⟩
    · left
      apply ReachesIn.here
      rw [Table.find?_erase, if_neg meets]
      exact registered
  | @up n a parent b link rest ih =>
    by_cases meets : a = name
    · subst meets
      exact .inr ⟨n + 1, Nat.le_refl _, .up link rest⟩
    · rcases ih with avoids | ⟨m, less, later⟩
      · left
        refine .up ?_ avoids
        rw [Leads, Table.find?_erase, if_neg meets]
        exact link
      · exact .inr ⟨m, Nat.le_succ_of_le less, later⟩

/-- What is reached without a type is reached. -/
theorem ReachesIn.of_erase {n : Nat} (walk : ReachesIn (h.erase name) n a b) :
    h.ReachesIn n a b := by
  induction walk with
  | here registered =>
    obtain ⟨e, found⟩ := Option.isSome_iff_exists.mp registered
    apply ReachesIn.here
    rw [(find?_of_erase found).2]
    rfl
  | up link _ ih => exact .up link.of_erase ih

/-- What is listed in a lineage is reached. -/
theorem reaches_of_mem_lineage (mem : target ∈ h.lineage name) : h.Reaches name target := by
  induction h, name using lineage_induction with
  | unregistered h name missing lists =>
    rw [lists] at mem
    cases mem
  | top h name bears found lists =>
    rw [lists, List.mem_singleton] at mem
    rw [mem]
    exact ⟨0, .here (by rw [found]; rfl)⟩
  | child h name bears parent found lists ih =>
    rw [lists] at mem
    rcases List.mem_cons.mp mem with rfl | above
    · exact ⟨0, .here (by rw [found]; rfl)⟩
    · obtain ⟨n, walk⟩ := ih above
      exact ⟨n + 1, .up ⟨_, found, rfl⟩ walk.of_erase⟩

/-- What is reached is listed in the lineage. -/
theorem ReachesIn.mem_lineage {n : Nat} (walk : h.ReachesIn n name target) :
    target ∈ h.lineage name := by
  -- A walk that comes back to its beginning can be replaced by its shorter rest.
  induction n using Nat.strongRecOn generalizing h name with
  | ind n ih =>
    rw [lineage_eq]
    cases walk with
    | here registered =>
      obtain ⟨⟨bears, parent?⟩, found⟩ := Option.isSome_iff_exists.mp registered
      rw [found]
      cases parent? with
      | none => exact List.mem_singleton_self _
      | some parent => exact List.mem_cons_self
    | @up m _ parent _ link rest =>
      obtain ⟨⟨bears, _⟩, link, rfl⟩ := link
      rw [link]
      rcases rest.avoids_or_meets name with avoids | ⟨k, less, again⟩
      · exact List.mem_cons_of_mem name (ih m (Nat.lt_succ_self m) avoids)
      · have listed := ih k (Nat.lt_succ_of_le less) again
        rw [lineage_eq, link] at listed
        exact listed

/-- **The lineage of a type lists what is reached from it.** -/
theorem mem_lineage_iff :
    target ∈ h.lineage name ↔ h.Reaches name target := by
  constructor
  · exact reaches_of_mem_lineage
  · rintro ⟨n, walk⟩
    exact walk.mem_lineage

/-- The lineage of a type includes that of each type in it. -/
theorem lineage_subset_of_mem {sub sup : String} (above : sup ∈ h.lineage sub) :
    h.lineage sup ⊆ h.lineage sub := fun _ mem =>
  mem_lineage_iff.mpr ((mem_lineage_iff.mp above).trans (mem_lineage_iff.mp mem))

/-! ### Names -/

/-- Each type bears the name under which it is registered. -/
def StoredByName (h : Hierarchy) : Prop :=
  ∀ name e, h.find? name = some e → e.name = name

/-- A subtype is told by the names in its lineage. -/
theorem isSubtype_iff_bears {sub sup : String} :
    h.isSubtype sub sup ↔
      sub = sup ∨ ∃ name ∈ h.lineage sub, ∃ e, h.find? name = some e ∧ e.name = sup := by
  simp [isSubtype, Option.any_eq_true]

/-- Where types are stored by name, a subtype is told by its lineage. -/
theorem StoredByName.isSubtype_iff_mem (stored : h.StoredByName) {sub sup : String} :
    h.isSubtype sub sup ↔ sub = sup ∨ sup ∈ h.lineage sub := by
  rw [isSubtype_iff_bears]
  refine or_congr_right ⟨?_, fun listed => ?_⟩
  · rintro ⟨name, listed, e, found, rfl⟩
    rw [stored name e found]
    exact listed
  · obtain ⟨e, found⟩ := Option.isSome_iff_exists.mp (isSome_of_mem_lineage listed)
    exact ⟨sup, listed, e, found, stored sup e found⟩

end HostExpr.Hierarchy
