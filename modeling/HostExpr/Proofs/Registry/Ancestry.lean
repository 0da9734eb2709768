import HostExpr.Proofs.Hierarchy.Climb
import HostExpr.Proofs.Registry.Inheritance

/-!
The lineage of a registered type.

`TypeRegistry.Ascends` tells a lineage by the parents that are registered: it starts with the type,
each description is that of the parent of the one before, and it stops where there is nothing new to
list. It tells nothing of how a lineage is found. Whatever the parents are, a lineage is found in as
many rounds as it is long, it ascends, and a type is a subtype of those that parents lead to:
`TypeRegistry.lineage_follows_parents`.
-/

namespace HostExpr.TypeRegistry

variable {σ : Type} {r : TypeRegistry σ} {typeName name : String} {d : TypeDescriptor σ}

/-! ### Names and descriptions -/

theorem find?_hierarchy_eq_none_iff : r.hierarchy.find? name = none ↔ r.find? name = none := by
  rw [find?_hierarchy, Option.map_eq_none_iff]

/-- A lineage holds a description for each of its names. -/
theorem lineage_forall₂ (r : TypeRegistry σ) (typeName : String) :
    List.Forall₂ (fun name d => r.find? name = some d) (r.hierarchy.lineage typeName)
      (r.lineage typeName) := by
  have registered : ∀ name ∈ r.hierarchy.lineage typeName, ∃ d, r.find? name = some d :=
    fun name listed => find?_of_mem_lineage listed
  unfold lineage
  generalize r.hierarchy.lineage typeName = names at registered
  induction names with
  | nil => exact .nil
  | cons name names ih =>
    obtain ⟨d, found⟩ := registered name List.mem_cons_self
    rw [List.filterMap_cons_some found]
    exact .cons found (ih fun other mem => registered other (List.mem_cons_of_mem name mem))

theorem lineage_eq_nil_iff : r.lineage typeName = [] ↔ r.find? typeName = none := by
  rw [← find?_hierarchy_eq_none_iff, ← Hierarchy.lineage_eq_nil_iff, ← List.length_eq_zero_iff,
    ← (r.lineage_forall₂ typeName).length_eq, List.length_eq_zero_iff]

/-- What is in a lineage is stored under its own name. -/
theorem StoredByName.find?_of_mem_lineage (stored : r.StoredByName) (mem : d ∈ r.lineage typeName) :
    r.find? d.name = some d := by
  obtain ⟨name, -, found⟩ := mem_lineage_iff.mp mem
  rw [stored name d found]
  exact found

/-- The names of a lineage are those of its descriptions. -/
theorem StoredByName.names_lineage (stored : r.StoredByName) (typeName : String) :
    (r.lineage typeName).map (·.name) = r.hierarchy.lineage typeName := by
  have each := r.lineage_forall₂ typeName
  generalize r.hierarchy.lineage typeName = names at each ⊢
  generalize r.lineage typeName = listed at each ⊢
  induction each with
  | nil => rfl
  | cons found _ ih => rw [List.map_cons, ih, stored _ _ found]

/-! ### Ascending -/

/-- A registered type names another one as its parent. -/
def Names (r : TypeRegistry σ) (child parent : String) : Prop :=
  ∃ d, r.find? child = some d ∧ d.parent = some parent

theorem leads_hierarchy {child parent : String} :
    r.hierarchy.Leads child parent ↔ r.Names child parent := by
  simp [Hierarchy.Leads, Names, find?_hierarchy]

/-- The descriptions that one comes by from a type upwards, going from each to its registered
parent, as far as there is something new. -/
structure Ascends (r : TypeRegistry σ) (typeName : String) (listed : List (TypeDescriptor σ)) :
    Prop where
  registered : ∀ d ∈ listed, r.find? d.name = some d
  distinct : (listed.map (·.name)).Nodup
  /-- Nothing is listed exactly if there is nothing to start from. -/
  nothing : listed = [] ↔ r.find? typeName = none
  first : ∀ d ∈ listed.head?, d.name = typeName
  linked : listed.IsChain fun d e => d.parent = some e.name
  last : ∀ d ∈ listed.getLast?, ∀ parent, d.parent = some parent →
    r.find? parent = none ∨ parent ∈ listed.map (·.name)

/-- A lineage ascends. -/
theorem StoredByName.ascends_lineage (stored : r.StoredByName) (typeName : String) :
    r.Ascends typeName (r.lineage typeName) := by
  have names := stored.names_lineage typeName
  have parents : ∀ d ∈ r.lineage typeName, ∀ parent,
      r.hierarchy.Leads d.name parent ↔ d.parent = some parent := by
    intro d mem parent
    rw [leads_hierarchy, Names, stored.find?_of_mem_lineage mem]
    simp
  refine ⟨fun d mem => stored.find?_of_mem_lineage mem, ?_, lineage_eq_nil_iff, ?_, ?_, ?_⟩
  · rw [names]
    exact Hierarchy.nodup_lineage _ _
  · intro d mem
    apply Hierarchy.head?_lineage (h := r.hierarchy)
    rw [← names, List.head?_map, Option.mem_def.mp mem]
    rfl
  · have linked := Hierarchy.isChain_lineage r.hierarchy typeName
    rw [← names, List.isChain_map] at linked
    exact linked.imp_of_mem_imp fun d e mem _ link => (parents d mem e.name).mp link
  · intro d mem parent link
    have named : d.name ∈ (r.hierarchy.lineage typeName).getLast? := by
      rw [← names, List.getLast?_map, Option.mem_def.mp mem]
      rfl
    rw [names, ← find?_hierarchy_eq_none_iff]
    exact Hierarchy.lineage_stops named ((parents d (List.mem_of_getLast? mem) parent).mpr link)

/-- A type is a subtype of itself and of the registered types to which parents lead from it. -/
theorem StoredByName.isSubtype_iff_names (stored : r.StoredByName) {sub sup : String} :
    r.isSubtype sub sup ↔
      sub = sup ∨ (r.find? sup).isSome ∧ Relation.ReflTransGen r.Names sub sup := by
  have link : r.hierarchy.Leads = r.Names := by
    funext a b
    exact propext leads_hierarchy
  unfold isSubtype
  rw [stored.hierarchy.isSubtype_iff, Hierarchy.reaches_iff, link, find?_hierarchy,
    Option.isSome_map]

/-- **Lineages and subtypes follow the parents.** Whatever the parents of the registered types are,
a climb to them ends, in no more rounds than there are types, and lists the lineage of the type. The
lineage ascends from each type to its registered parent and stops only where nothing new comes. A
type is a subtype of itself and of the registered types to which parents lead from it, and so of
what those are subtypes of. -/
theorem lineage_follows_parents (r : TypeRegistry σ) (stored : r.StoredByName) :
    (∀ typeName,
      (∃ rounds stop, rounds ≤ r.types.size ∧
        Hierarchy.Climb.Rounds r.hierarchy rounds { next := some typeName } stop ∧
        stop.step r.hierarchy = none ∧ stop.listed = (r.lineage typeName).map (·.name)) ∧
      r.Ascends typeName (r.lineage typeName)) ∧
    (∀ sub sup, r.isSubtype sub sup ↔
      sub = sup ∨ (r.find? sup).isSome ∧ Relation.ReflTransGen r.Names sub sup) ∧
    (∀ name, r.isSubtype name name) ∧
    ∀ a b c, r.isSubtype a b → r.isSubtype b c → r.isSubtype a c := by
  refine ⟨fun typeName => ⟨?_, stored.ascends_lineage typeName⟩,
    fun sub sup => stored.isSubtype_iff_names, fun name => ?_,
    fun a b c => stored.hierarchy.isSubtype_trans⟩
  · obtain ⟨stop, rounds, stops, listed⟩ := r.hierarchy.climb_lists_lineage typeName
    have few : (r.hierarchy.lineage typeName).length ≤ r.types.size := by
      have := r.hierarchy.length_lineage_le typeName
      rwa [show r.hierarchy.size = r.types.size from Table.size_map _ _] at this
    exact ⟨_, stop, few, rounds, stops, listed.trans (stored.names_lineage typeName).symm⟩
  · exact stored.isSubtype_iff_names.mpr (.inl rfl)

/-- Two types that are each other's parents, the second one only since it was changed, are both
listed, once each, from a type below them. -/
theorem lineage_follows_parents_of_cycle :
    let registry : TypeRegistry Unit :=
      ((({} : TypeRegistry Unit).register { name := "Person", parent := some "Manager" }).register
        { name := "Manager", parent := some "Board" }).setParent "Manager" (some "Person")
    let registry := registry.register { name := "Clerk", parent := some "Person" }
    registry.StoredByName ∧ registry.Ascends "Clerk" (registry.lineage "Clerk") ∧
      (registry.lineage "Clerk").map (·.name) = ["Clerk", "Person", "Manager"] ∧
      registry.isSubtype "Clerk" "Manager" := by
  intro built registry
  have stored : registry.StoredByName :=
    (((storedByName_empty.register _).register _).setParent _ _).register _
  obtain ⟨ascends, -, -, trans⟩ := lineage_follows_parents registry stored
  have below : registry.isSubtype "Clerk" "Person" := by decide
  have above : registry.isSubtype "Person" "Manager" := by decide
  exact ⟨stored, (ascends "Clerk").2, rfl, trans _ _ _ below above⟩

end HostExpr.TypeRegistry
