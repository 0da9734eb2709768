import HostExpr.Proofs.Registry.Ancestry

/-!
Which members a type inherits.

A property is that of the nearest type that declares it. For overloads the same holds signature by
signature: a declaration hides those of its signature that stand farther up the lineage or after it
on the same type, and `TypeRegistry.findMethods` lists what nothing hides, in the order of the
declarations. Two signatures with the same parameters differ if only one of them collects the last
arguments (`Signature.eq_iff`). All this is stated by `TypeRegistry.nearest_members`, with what it
comes to for a type and its parent.
-/

namespace HostExpr

/-- A signature is told by its parameters and by whether the last one collects arguments. -/
theorem Signature.eq_iff {s t : Signature} :
    s = t ↔ s.params = t.params ∧ s.isVariadic = t.isVariadic := by
  constructor
  · rintro rfl
    exact ⟨rfl, rfl⟩
  · rintro ⟨params, variadic⟩
    obtain ⟨fixed, rest⟩ := s
    obtain ⟨fixed', rest'⟩ := t
    cases rest with
    | none =>
      cases rest' with
      | none =>
        have same : fixed ++ [] = fixed' ++ [] := params
        rw [List.append_nil, List.append_nil] at same
        rw [same]
      | some element' => cases variadic
    | some element =>
      cases rest' with
      | none => cases variadic
      | some element' =>
        have same : fixed ++ [.list element] = fixed' ++ [.list element'] := params
        obtain ⟨rfl, last⟩ := List.append_inj' same rfl
        cases last
        rfl

namespace TypeRegistry

variable {σ : Type} {r : TypeRegistry σ} {typeName method : String}

/-! ### Leaving out repeated signatures -/

theorem nodup_signatures_distinctSignatures (overloads : List (MethodDef σ)) :
    ((distinctSignatures overloads).map (·.signature)).Nodup := by
  induction overloads with
  | nil => exact List.nodup_nil
  | cons m rest ih =>
    rw [distinctSignatures, List.map_cons, List.nodup_cons]
    constructor
    · intro again
      obtain ⟨n, kept, same⟩ := List.mem_map.mp again
      exact of_decide_eq_true (List.mem_filter.mp kept).2 same
    · exact (List.filter_sublist.map _).nodup ih

/-- Of what follows some overloads, what remains is what repeats none of them. -/
theorem distinctSignatures_append (nearer farther : List (MethodDef σ)) :
    distinctSignatures (nearer ++ farther) =
      distinctSignatures nearer ++
        (distinctSignatures farther).filter fun n => n.signature ∉ nearer.map (·.signature) := by
  induction nearer with
  | nil => simp [distinctSignatures]
  | cons m rest ih =>
    rw [List.cons_append, distinctSignatures, ih, List.filter_append, List.filter_filter,
      distinctSignatures, List.cons_append]
    congr 2
    refine List.filter_congr fun n _ => ?_
    simp [not_or]

/-- No two visible overloads have the same signature. -/
theorem nodup_signatures_findMethods (r : TypeRegistry σ) (typeName method : String) :
    ((r.findMethods typeName method).map (·.signature)).Nodup :=
  nodup_signatures_distinctSignatures _

/-! ### Declarations -/

/-- An overload with the place of its declaration: so many types away in the lineage, and after so
many other overloads of the method on that type. -/
structure Declaration (σ : Type) where
  distance : Nat
  position : Nat
  overload : MethodDef σ

namespace Declaration

/-- A declaration is on a nearer type than another one, or before it on the same type. -/
def Before (e e' : Declaration σ) : Prop :=
  e.distance < e'.distance ∨ e.distance = e'.distance ∧ e.position < e'.position

/-- A declaration hides those of the same signature that come after it. -/
def Hides (e e' : Declaration σ) : Prop :=
  e.Before e' ∧ e.overload.signature = e'.overload.signature

theorem Before.asymm {e e' : Declaration σ} (before : e.Before e') : ¬e'.Before e := by
  unfold Before at *
  omega

theorem not_before_self (e : Declaration σ) : ¬e.Before e :=
  fun before => before.asymm before

/-- Of declarations in order, those that nothing hides are what remains if repeated signatures are
left out. -/
theorem exists_visible {declared : List (Declaration σ)} (ordered : declared.Pairwise Before) :
    ∃ visible : List (Declaration σ),
      visible.map (·.overload) = distinctSignatures (declared.map (·.overload)) ∧
      visible.Sublist declared ∧
      ∀ e, e ∈ visible ↔ e ∈ declared ∧ ∀ e' ∈ declared, ¬e'.Hides e := by
  induction declared with
  | nil => exact ⟨[], rfl, .slnil, by simp⟩
  | cons first rest ih =>
    obtain ⟨firstBefore, ordered⟩ := List.pairwise_cons.mp ordered
    obtain ⟨visible, overloads, sublist, mem_iff⟩ := ih ordered
    refine ⟨first :: visible.filter fun e => e.overload.signature ≠ first.overload.signature,
      ?_, (List.filter_sublist.trans sublist).cons_cons first, fun e => ?_⟩
    · rw [List.map_cons, List.map_cons, distinctSignatures, ← overloads, List.filter_map]
      rfl
    · rw [List.mem_cons, List.mem_cons, List.forall_mem_cons]
      by_cases isFirst : e = first
      · subst isFirst
        have unhidden : ∀ e' ∈ rest, ¬e'.Hides e :=
          fun e' later hides => (firstBefore e' later).asymm hides.1
        simpa [Hides, not_before_self] using unhidden
      · have unhidden (later : e ∈ rest) :
            ¬first.Hides e ↔ e.overload.signature ≠ first.overload.signature := by
          simp [Hides, firstBefore e later, eq_comm]
        rw [List.mem_filter, mem_iff, decide_eq_true_eq]
        simp only [isFirst, false_or]
        constructor
        · rintro ⟨⟨later, none⟩, differs⟩
          exact ⟨later, (unhidden later).mpr differs, none⟩
        · rintro ⟨later, notByFirst, none⟩
          exact ⟨⟨later, none⟩, (unhidden later).mp notByFirst⟩

end Declaration

open Declaration

def Declares (r : TypeRegistry σ) (typeName method : String) (e : Declaration σ) : Prop :=
  ∃ d, (r.lineage typeName)[e.distance]? = some d ∧
    ((d.methods.find? method).getD [])[e.position]? = some e.overload

def declarations (r : TypeRegistry σ) (typeName method : String) : List (Declaration σ) :=
  (r.lineage typeName).zipIdx.flatMap fun (d, distance) =>
    ((d.methods.find? method).getD []).zipIdx.map fun (overload, position) =>
      { distance, position, overload }

theorem mem_declarations_iff {e : Declaration σ} :
    e ∈ r.declarations typeName method ↔ r.Declares typeName method e := by
  unfold declarations Declares
  rw [List.mem_flatMap]
  constructor
  · rintro ⟨⟨d, distance⟩, listed, mem⟩
    obtain ⟨⟨overload, position⟩, declared, rfl⟩ := List.mem_map.mp mem
    exact ⟨d, List.mem_zipIdx_iff_getElem?.mp listed, List.mem_zipIdx_iff_getElem?.mp declared⟩
  · rintro ⟨d, listed, declared⟩
    exact ⟨(d, e.distance), List.mem_zipIdx_iff_getElem?.mpr listed, List.mem_map.mpr
      ⟨(e.overload, e.position), List.mem_zipIdx_iff_getElem?.mpr declared, rfl⟩⟩

theorem ordered_declarations (r : TypeRegistry σ) (typeName method : String) :
    (r.declarations typeName method).Pairwise Before := by
  have ascending {α : Type} (l : List α) : l.zipIdx.Pairwise fun a b => a.2 < b.2 := by
    rw [← List.pairwise_map (R := (· < ·)), List.zipIdx_map_snd]
    exact List.pairwise_lt_range'
  unfold declarations
  rw [List.pairwise_flatMap]
  constructor
  · rintro ⟨d, distance⟩ -
    rw [List.pairwise_map]
    exact (ascending _).imp fun later => .inr ⟨rfl, later⟩
  · refine (ascending _).imp ?_
    rintro ⟨d, distance⟩ ⟨d', distance'⟩ farther e mem e' mem'
    obtain ⟨_, -, rfl⟩ := List.mem_map.mp mem
    obtain ⟨_, -, rfl⟩ := List.mem_map.mp mem'
    exact .inl farther

/-- What is visible of the declared overloads. -/
theorem findMethods_eq (r : TypeRegistry σ) (typeName method : String) :
    r.findMethods typeName method =
      distinctSignatures ((r.declarations typeName method).map (·.overload)) := by
  have overloads (l : List (MethodDef σ)) (distance : Nat) :
      (l.zipIdx.map fun p => (⟨distance, p.2, p.1⟩ : Declaration σ)).map (·.overload) = l := by
    rw [List.map_map]
    exact List.zipIdx_map_fst 0 l
  have types : r.lineage typeName = (r.lineage typeName).zipIdx.map (·.1) :=
    (List.zipIdx_map_fst 0 _).symm
  unfold findMethods declarations
  rw [List.map_flatMap]
  simp only [overloads]
  nth_rewrite 1 [types]
  rw [List.flatMap_map]

/-- A declaration that no other one of the method hides. -/
def Nearest (r : TypeRegistry σ) (typeName method : String) (e : Declaration σ) : Prop :=
  r.Declares typeName method e ∧ ∀ e', r.Declares typeName method e' → ¬e'.Hides e

/-- The visible overloads are those of the nearest declarations, in order. Each signature that is
declared has one, and no declaration of the signature comes before it. -/
theorem findMethods_lists_nearest (r : TypeRegistry σ) (typeName method : String) :
    ∃ visible : List (Declaration σ),
      visible.map (·.overload) = r.findMethods typeName method ∧ visible.Pairwise Before ∧
      (∀ e, e ∈ visible ↔ r.Nearest typeName method e) ∧
      ∀ e, r.Declares typeName method e →
        ∃ n ∈ visible, n.overload.signature = e.overload.signature ∧ ¬e.Before n := by
  have ordered := r.ordered_declarations typeName method
  obtain ⟨visible, overloads, sublist, mem_iff⟩ := exists_visible ordered
  simp only [mem_declarations_iff] at mem_iff
  refine ⟨visible, overloads.trans (r.findMethods_eq typeName method).symm, ordered.sublist sublist,
    mem_iff, fun e declared => ?_⟩
  have listed : e.overload.signature ∈
      ((r.declarations typeName method).map (·.overload)).map (·.signature) :=
    List.mem_map_of_mem (List.mem_map_of_mem (mem_declarations_iff.mpr declared))
  rw [← mem_signatures_distinctSignatures, ← overloads, List.map_map] at listed
  obtain ⟨n, shown, same⟩ := List.mem_map.mp listed
  exact ⟨n, shown, same, fun before => ((mem_iff n).mp shown).2 e declared ⟨before, same.symm⟩⟩

/-! ### A type and its parent -/

/-- The lineage of a type goes on with that of its parent, unless it comes back to the type. -/
theorem lineage_of_parent {d : TypeDescriptor σ} {parent : String}
    (found : r.find? typeName = some d) (link : d.parent = some parent)
    (apart : typeName ∉ r.hierarchy.lineage parent) :
    r.lineage typeName = d :: r.lineage parent := by
  unfold lineage
  rw [Hierarchy.lineage_eq, find?_hierarchy, found, Option.map_some, link]
  show List.filterMap _ (typeName :: _) = _
  rw [List.filterMap_cons_some found, Hierarchy.lineage_erase apart]

/-- What is visible on a type is what it declares, then what is visible on its parent and not
declared anew. -/
theorem findMethods_of_parent {d : TypeDescriptor σ} {parent : String}
    (found : r.find? typeName = some d) (link : d.parent = some parent)
    (apart : typeName ∉ r.hierarchy.lineage parent) (method : String) :
    let own := (d.methods.find? method).getD []
    r.findMethods typeName method =
      distinctSignatures own ++
        (r.findMethods parent method).filter fun n => n.signature ∉ own.map (·.signature) := by
  intro own
  unfold findMethods
  rw [lineage_of_parent found link apart, List.flatMap_cons, distinctSignatures_append]

/-- **The nearest declaration is the one that counts.** No two overloads of a method that are
visible on a type have the same signature: if their parameters are the same, one is variadic and
the other is not. They are the nearest declarations along the lineage, in order, and every declared
signature is among them. If the lineage of the parent of a type does not come back to the type, they
are the overloads of the type itself, but for repeated signatures, and then those visible on the
parent, but for signatures that the type declares. The property of a name is that of the nearest
type that declares one. -/
theorem nearest_members (r : TypeRegistry σ) (typeName : String) :
    (∀ method,
      ((r.findMethods typeName method).map (·.signature)).Nodup ∧
      ((r.findMethods typeName method).Pairwise fun m n =>
        m.signature.params = n.signature.params →
          m.signature.isVariadic ≠ n.signature.isVariadic) ∧
      (∃ visible : List (Declaration σ),
        visible.map (·.overload) = r.findMethods typeName method ∧ visible.Pairwise Before ∧
        (∀ e, e ∈ visible ↔ r.Nearest typeName method e) ∧
        ∀ e, r.Declares typeName method e →
          ∃ n ∈ visible, n.overload.signature = e.overload.signature ∧ ¬e.Before n) ∧
      ∀ d parent, r.find? typeName = some d → d.parent = some parent →
        typeName ∉ r.hierarchy.lineage parent →
        let own := (d.methods.find? method).getD []
        r.findMethods typeName method =
          distinctSignatures own ++
            (r.findMethods parent method).filter fun n => n.signature ∉ own.map (·.signature)) ∧
    ∀ property,
      (∀ p, r.findProperty typeName property = some p ↔
        ∃ nearer d farther, r.lineage typeName = nearer ++ d :: farther ∧
          d.properties.find? property = some p ∧
          ∀ e ∈ nearer, e.properties.find? property = none) ∧
      (r.findProperty typeName property = none ↔
        ∀ d ∈ r.lineage typeName, d.properties.find? property = none) := by
  constructor
  · intro method
    have nodup := r.nodup_signatures_findMethods typeName method
    refine ⟨nodup, (List.pairwise_map.mp nodup).imp fun differ params variadic => ?_,
      r.findMethods_lists_nearest typeName method,
      fun d parent found link apart => findMethods_of_parent found link apart method⟩
    exact differ (Signature.eq_iff.mpr ⟨params, variadic⟩)
  · exact fun property => ⟨fun p => List.findSome?_eq_some_iff, List.findSome?_eq_none_iff⟩

/-- A subtype hides the overload without parameters, and declares one that collects texts beside an
inherited one that takes a list of them. -/
theorem nearest_members_of_manager :
    let greet (text : String) (signature : Signature) : MethodDef Unit :=
      ⟨signature, fun _ _ _ => pure (.string text)⟩
    let none : Signature := { fixed := [] }
    let texts : Signature := { fixed := [.list .string] }
    let variadic : Signature := { fixed := [], rest := some .string }
    let person : TypeDescriptor Unit :=
      { name := "Person"
        methods := Table.empty.insert "greet" [greet "person" none, greet "person" texts] }
    let manager : TypeDescriptor Unit :=
      { name := "Manager"
        parent := some "Person"
        methods := Table.empty.insert "greet"
          [greet "manager" none, greet "manager" variadic, greet "late" none] }
    let registry := (({} : TypeRegistry Unit).register person).register manager
    texts.params = variadic.params ∧ "Manager" ∉ registry.hierarchy.lineage "Person" ∧
      registry.findMethods "Manager" "greet" =
        [greet "manager" none, greet "manager" variadic, greet "person" texts] := by
  intro greet none texts variadic person manager registry
  have apart : "Manager" ∉ registry.hierarchy.lineage "Person" := by decide
  obtain ⟨methods, -⟩ := nearest_members registry "Manager"
  obtain ⟨-, -, -, inherited⟩ := methods "greet"
  exact ⟨rfl, apart, (inherited manager "Person" rfl rfl apart).trans rfl⟩

end TypeRegistry

end HostExpr
