import HostExpr.Proofs.Hierarchy.Lineage
import HostExpr.Proofs.Registry.Acceptance
import HostExpr.Proofs.Registry.Shape

/-!
What a type inherits.

All that is declared along the lineage of a type can be found on its subtypes, since their lineages
include it, whatever cycles the parents form. A property may be found nearer, and an overload may be
hidden, but only by one of the same signature. A call that finds an overload on a type therefore
finds one on each subtype: `TypeRegistry.subtype_substitutable`.
-/

namespace HostExpr.TypeRegistry

variable {σ : Type} {r : TypeRegistry σ} {sub sup typeName method : String}

/-! ### Storing by name -/

/-- Each description is stored under its own name, as registering does. -/
def StoredByName (r : TypeRegistry σ) : Prop :=
  ∀ name d, r.find? name = some d → d.name = name

theorem storedByName_empty : ({} : TypeRegistry σ).StoredByName := by
  intro name d found
  cases found

theorem StoredByName.register (stored : r.StoredByName) (d : TypeDescriptor σ) :
    (r.register d).StoredByName := by
  intro name e found
  unfold TypeRegistry.register find? at found
  rw [Table.find?_insert] at found
  split at found
  · next same =>
    cases found
    exact same.symm
  · exact stored name e found

theorem StoredByName.modify (stored : r.StoredByName) (name : String)
    {change : TypeDescriptor σ → TypeDescriptor σ} (keeps : ∀ d, (change d).name = d.name) :
    (r.modify name change).StoredByName := by
  intro name' e found
  unfold TypeRegistry.modify at found
  split at found
  · next d registered =>
    unfold find? at found
    rw [Table.find?_insert] at found
    split at found
    · next same =>
      cases found
      rw [same, keeps]
      exact stored name d registered
    · exact stored name' e found
  · exact stored name' e found

theorem StoredByName.setParent (stored : r.StoredByName) (name : String)
    (parent : Option String) : (r.setParent name parent).StoredByName :=
  stored.modify name fun _ => rfl

/-- What is in the lineage of a type is what stands under the names of its hierarchy. -/
theorem mem_lineage_iff {d : TypeDescriptor σ} :
    d ∈ r.lineage typeName ↔ ∃ name ∈ r.hierarchy.lineage typeName, r.find? name = some d := by
  rw [lineage, List.mem_filterMap]

theorem find?_hierarchy (r : TypeRegistry σ) (name : String) :
    r.hierarchy.find? name = (r.find? name).map fun d => ⟨d.name, d.parent⟩ :=
  Table.find?_map _ _ _

/-- A registered name is found. -/
theorem find?_of_mem_lineage {name : String} (listed : name ∈ r.hierarchy.lineage typeName) :
    ∃ d, r.find? name = some d := by
  have registered := Hierarchy.isSome_of_mem_lineage listed
  rw [find?_hierarchy, Option.isSome_map] at registered
  exact Option.isSome_iff_exists.mp registered

/-- **A subtype is told by the names of the descriptions in its lineage.** -/
theorem isSubtype_iff :
    r.isSubtype sub sup ↔ sub = sup ∨ ∃ d ∈ r.lineage sub, d.name = sup := by
  unfold isSubtype
  rw [Hierarchy.isSubtype_iff_bears]
  refine or_congr_right ⟨?_, ?_⟩
  · rintro ⟨name, listed, e, found, named⟩
    rw [find?_hierarchy, Option.map_eq_some_iff] at found
    obtain ⟨d, found, rfl⟩ := found
    exact ⟨d, mem_lineage_iff.mpr ⟨name, listed, found⟩, named⟩
  · rintro ⟨d, mem, named⟩
    obtain ⟨name, listed, found⟩ := mem_lineage_iff.mp mem
    exact ⟨name, listed, ⟨d.name, d.parent⟩, by rw [find?_hierarchy, found]; rfl, named⟩

theorem StoredByName.hierarchy (stored : r.StoredByName) : r.hierarchy.StoredByName := by
  intro name e found
  rw [find?_hierarchy, Option.map_eq_some_iff] at found
  obtain ⟨d, found, rfl⟩ := found
  exact stored name d found

/-- One type is the other, or the other is in its lineage. Where types are stored by name, this is
to be a subtype. -/
def Below (r : TypeRegistry σ) (sub sup : String) : Prop :=
  sub = sup ∨ sup ∈ r.hierarchy.lineage sub

theorem StoredByName.isSubtype_iff_below (stored : r.StoredByName) :
    r.isSubtype sub sup ↔ r.Below sub sup :=
  stored.hierarchy.isSubtype_iff_mem

/-- The lineage of a type includes that of each type that it is below. -/
theorem Below.lineage_subset (below : r.Below sub sup) : r.lineage sup ⊆ r.lineage sub := by
  rcases below with rfl | above
  · exact fun _ mem => mem
  · intro d mem
    obtain ⟨name, listed, found⟩ := mem_lineage_iff.mp mem
    exact mem_lineage_iff.mpr ⟨name, Hierarchy.lineage_subset_of_mem above listed, found⟩

/-! ### Members -/

/-- A property is found if a type of the lineage declares it. -/
theorem findProperty_isSome_iff {property : String} :
    (r.findProperty typeName property).isSome ↔
      ∃ d ∈ r.lineage typeName, (d.properties.find? property).isSome := by
  rw [findProperty, List.findSome?_isSome_iff]

/-- Overloads lose none of their signatures when repeated ones are left out. -/
theorem mem_signatures_distinctSignatures {overloads : List (MethodDef σ)} {s : Signature} :
    s ∈ (distinctSignatures overloads).map (·.signature) ↔ s ∈ overloads.map (·.signature) := by
  induction overloads with
  | nil => exact Iff.rfl
  | cons m rest ih =>
    rw [distinctSignatures, List.map_cons, List.map_cons, List.mem_cons, List.mem_cons, ← ih]
    by_cases same : s = m.signature
    · simp [same]
    · have kept : s ∈ ((distinctSignatures rest).filter fun n => n.signature ≠ m.signature).map
          (·.signature) ↔ s ∈ (distinctSignatures rest).map (·.signature) := by
        constructor
        · intro mem
          obtain ⟨n, filtered, rfl⟩ := List.mem_map.mp mem
          exact List.mem_map_of_mem (List.mem_filter.mp filtered).1
        · intro mem
          obtain ⟨n, distinct, rfl⟩ := List.mem_map.mp mem
          exact List.mem_map_of_mem (List.mem_filter.mpr ⟨distinct, by simpa using same⟩)
      rw [kept]

/-- The visible signatures of a method are those that the types of the lineage declare. -/
theorem mem_signatures_findMethods {s : Signature} :
    s ∈ (r.findMethods typeName method).map (·.signature) ↔
      ∃ d ∈ r.lineage typeName, ∃ m ∈ (d.methods.find? method).getD [], m.signature = s := by
  rw [findMethods, mem_signatures_distinctSignatures, List.mem_map]
  constructor
  · rintro ⟨m, mem, rfl⟩
    obtain ⟨d, listed, declared⟩ := List.mem_flatMap.mp mem
    exact ⟨d, listed, m, declared, rfl⟩
  · rintro ⟨d, listed, m, declared, rfl⟩
    exact ⟨m, List.mem_flatMap.mpr ⟨d, listed, declared⟩, rfl⟩

/-- A property that is found on a type is found on those below it. -/
theorem Below.findProperty (below : r.Below sub sup) {property : String}
    (found : (r.findProperty sup property).isSome) : (r.findProperty sub property).isSome := by
  obtain ⟨d, listed, declared⟩ := findProperty_isSome_iff.mp found
  exact findProperty_isSome_iff.mpr ⟨d, below.lineage_subset listed, declared⟩

/-- A signature that is visible on a type is visible on those below it. -/
theorem Below.findMethods (below : r.Below sub sup) {m : MethodDef σ}
    (visible : m ∈ r.findMethods sup method) :
    ∃ n ∈ r.findMethods sub method, n.signature = m.signature := by
  obtain ⟨d, listed, declared⟩ := mem_signatures_findMethods.mp (List.mem_map_of_mem visible)
  exact List.mem_map.mp
    (mem_signatures_findMethods.mpr ⟨d, below.lineage_subset listed, declared⟩)

/-! ### Accesses -/

variable [Host σ]

theorem typeName_of_object {view : View} {target : Value} {name : String}
    (h : target.valueType view = .object name) : target.typeName view = name := by
  rw [target.typeName_eq, h]
  rfl

theorem not_isNull_of_object {view : View} {target : Value} {name : String}
    (h : target.valueType view = .object name) : target.isNull = false := by
  rw [target.isNull_eq view, h]
  rfl

/-- On one type all properties of another are found and all signatures of its methods are visible,
and its objects may stand for those of the other in calls and reads. -/
structure Substitutable (r : TypeRegistry σ) (sub sup : String) : Prop where
  properties : ∀ property,
    (r.findProperty sup property).isSome → (r.findProperty sub property).isSome
  methods : ∀ method, ∀ m ∈ r.findMethods sup method,
    ∃ n ∈ r.findMethods sub method, n.signature = m.signature
  /-- A call that finds a method finds one, for the same argument types in the same environment. -/
  calls : ∀ (env : Environment σ) (target target' : Value) (world world' : σ),
    target.valueType (Host.view world) = .object sup →
    target'.valueType (Host.view world') = .object sub →
    ∀ method argTypes executor,
      ((r.methodResolver.resolve env target method argTypes).run.run world).1 =
        .ok (some executor) →
      ∃ executor', (r.methodResolver.resolve env target' method argTypes).run.run world' =
        (.ok (some executor'), world')
  reads : ∀ (env : Environment σ) (target target' : Value) (world world' : σ),
    target.valueType (Host.view world) = .object sup →
    target'.valueType (Host.view world') = .object sub →
    ∀ property,
      ((r.propertyResolver.canRead env target property).run.run world).1 = .ok true →
      (r.propertyResolver.canRead env target' property).run.run world' = (.ok true, world')

theorem Below.substitutable (below : r.Below sub sup) : r.Substitutable sub sup where
  properties _ := below.findProperty
  methods _ _ := below.findMethods
  calls := by
    intro env target target' world world' isSup isSub method argTypes executor resolved
    rw [r.run_resolve env (not_isNull_of_object isSup), typeName_of_object isSup] at resolved
    cases selected : r.select env.converter sup method argTypes with
    | error failure =>
      rw [selected] at resolved
      cases resolved
    | ok found =>
      cases found with
      | none =>
        rw [selected] at resolved
        cases resolved
      | some m =>
        obtain ⟨fit, best⟩ := best?_of_select selected
        obtain ⟨visible, fits⟩ := fit_of_best? best
        obtain ⟨n, inherited, same⟩ := below.findMethods visible
        rw [← same] at fits
        rw [← typeName_of_object isSub] at inherited
        obtain ⟨chosen, -, finds⟩ :=
          r.resolve_of_fit env (not_isNull_of_object isSub) inherited fits
        exact ⟨_, finds⟩
  reads := by
    intro env target target' world world' isSup isSub property readable
    rw [run_canRead, isSup] at readable
    have found : (r.findProperty sup property).isSome := Except.ok.inj readable
    rw [run_canRead, isSub]
    show (Except.ok (r.findProperty sub property).isSome, world') = _
    rw [below.findProperty found]

/-- **A subtype may stand for a type in reads and calls.** Whatever the parents of the registered
types are, a type may stand for each type in its lineage; so, where types are stored by name, it may
for each that it is a subtype of. -/
theorem subtype_substitutable (r : TypeRegistry σ) :
    (∀ sub sup, r.Below sub sup → r.Substitutable sub sup) ∧
    (r.StoredByName → ∀ sub sup, r.isSubtype sub sup → r.Substitutable sub sup) :=
  ⟨fun _ _ below => below.substitutable,
    fun stored _ _ subtype => (stored.isSubtype_iff_below.mp subtype).substitutable⟩

/-- What is known of the objects is all that this host has. -/
instance hostOfView : Host View := ⟨id⟩

/-- Two types may each be the other's parent; then either may stand for the other. -/
theorem subtype_substitutable_of_cycle :
    let person : TypeDescriptor View :=
      (({ name := "Person", parent := some "Manager" } : TypeDescriptor View).addMethod "raise"
        { fixed := [.long] } fun _ _ _ => pure .null).addProperty "age" .int fun _ => pure (.int 40)
    let manager : TypeDescriptor View := { name := "Manager", parent := some "Person" }
    let registry := (({} : TypeRegistry View).register person).register manager
    let view : View := fun ref =>
      some ⟨if ref.key = 0 then "Person" else "Manager", fun _ => false, ""⟩
    let env : Environment View :=
      { converter := ({} : StandardConverter).toConverter
        reenter := fun _ => pure (.ok .null) }
    registry.StoredByName ∧ registry.isSubtype "Manager" "Person" ∧
      (∃ executor, (registry.methodResolver.resolve env (.object ⟨1⟩) "raise" [.int]).run.run view =
        (.ok (some executor), view)) ∧
      (registry.propertyResolver.canRead env (.object ⟨1⟩) "age").run.run view =
        (.ok true, view) := by
  intro person manager registry view env
  have stored : registry.StoredByName := (storedByName_empty.register _).register _
  have subtype : registry.isSubtype "Manager" "Person" := by decide
  have inherits := (subtype_substitutable registry).2 stored "Manager" "Person" subtype
  exact ⟨stored, subtype,
    inherits.calls env (.object ⟨0⟩) (.object ⟨1⟩) view view rfl rfl "raise" [.int] _ rfl,
    inherits.reads env (.object ⟨0⟩) (.object ⟨1⟩) view view rfl rfl "age" rfl⟩

end HostExpr.TypeRegistry
