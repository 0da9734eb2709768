import HostExpr.Proofs.Hierarchy.Lineage
import Mathlib.Data.List.Chain
import Mathlib.Data.List.Perm.Subperm
import Mathlib.Logic.Relation

/-!
A lineage as a climb.

A `Climb` lists the type it is at and goes to its parent, until there is none, or none that is
registered, or it comes back to a type that it has listed. `Hierarchy.lineage` takes the types it
has passed out of the hierarchy instead of looking them up in a list, and lists the same:
`Hierarchy.climb_lists_lineage`. What a lineage looks like is told by the parents alone. No type
occurs twice, each is the parent of the one before, and it stops only where a climb has to.
-/

namespace HostExpr.Hierarchy

variable {h : Hierarchy} {name parent target : String}

/-! ### The shape of a lineage -/

theorem lineage_eq_nil_iff : h.lineage name = [] ↔ h.find? name = none := by
  rw [lineage_eq]
  cases h.find? name with
  | none => simp
  | some e =>
    obtain ⟨bears, parent?⟩ := e
    cases parent? <;> simp

/-- A lineage starts with the type itself. -/
theorem head?_lineage (mem : target ∈ (h.lineage name).head?) : target = name := by
  rw [lineage_eq] at mem
  cases found : h.find? name with
  | none => simp [found] at mem
  | some e =>
    obtain ⟨bears, parent?⟩ := e
    cases parent? <;> simp_all

/-- No type occurs twice. -/
theorem nodup_lineage (h : Hierarchy) (name : String) : (h.lineage name).Nodup := by
  induction h, name using lineage_induction with
  | unregistered h name missing lists =>
    rw [lists]
    exact List.nodup_nil
  | top h name bears found lists =>
    rw [lists]
    exact List.pairwise_singleton _ name
  | child h name bears parent found lists ih =>
    rw [lists]
    refine List.nodup_cons.mpr ⟨fun again => ?_, ih⟩
    obtain ⟨e, again⟩ := Option.isSome_iff_exists.mp (isSome_of_mem_lineage again)
    exact (find?_of_erase again).1 rfl

/-- Each type is followed by its parent. -/
theorem isChain_lineage (h : Hierarchy) (name : String) :
    (h.lineage name).IsChain h.Leads := by
  induction h, name using lineage_induction with
  | unregistered h name missing lists =>
    rw [lists]
    exact List.isChain_nil
  | top h name bears found lists =>
    rw [lists]
    exact List.isChain_singleton name
  | child h name bears parent found lists ih =>
    rw [lists, List.isChain_cons]
    refine ⟨fun next mem => ?_, ih.imp fun a b link => link.of_erase⟩
    rw [head?_lineage mem]
    exact ⟨_, found, rfl⟩

/-- A lineage stops only at a parent that is not registered or that is listed already. -/
theorem lineage_stops {last : String} (mem : last ∈ (h.lineage name).getLast?)
    (link : h.Leads last parent) :
    h.find? parent = none ∨ parent ∈ h.lineage name := by
  obtain ⟨e, link, parentOf⟩ := link
  induction h, name using lineage_induction with
  | unregistered h name missing lists =>
    rw [lists] at mem
    cases mem
  | top h name bears found lists =>
    rw [lists, List.getLast?_singleton] at mem
    cases mem
    rw [found] at link
    cases link
    cases parentOf
  | child h name bears next found lists ih =>
    rw [lists] at mem ⊢
    -- A parent that is missing once the type is taken out may be the type itself.
    have of_missing : (h.erase name).find? parent = none →
        h.find? parent = none ∨ parent ∈ name :: Hierarchy.lineage (h.erase name) next := by
      intro missing
      rw [Table.find?_erase] at missing
      split at missing
      · next same => exact .inr (same ▸ List.mem_cons_self)
      · exact .inl missing
    cases above : (Hierarchy.lineage (h.erase name) next).getLast? with
    | none =>
      have alone : Hierarchy.lineage (h.erase name) next = [] := List.getLast?_eq_none_iff.mp above
      rw [alone, List.getLast?_singleton] at mem
      cases mem
      rw [found] at link
      cases link
      cases parentOf
      exact of_missing (lineage_eq_nil_iff.mp alone)
    | some top =>
      obtain rfl : top = last := by
        rw [List.getLast?_cons, above] at mem
        exact Option.some.inj mem
      have listed := List.mem_of_getLast? above
      obtain ⟨e', within⟩ := Option.isSome_iff_exists.mp (isSome_of_mem_lineage listed)
      have kept : (h.erase name).find? top = some e := by
        rw [within, ← link, (find?_of_erase within).2]
      rcases ih above kept with missing | again
      · exact of_missing missing
      · exact .inr (List.mem_cons_of_mem name again)

/-- A type that is not listed may as well not be registered. -/
theorem lineage_erase {other : String} (absent : other ∉ h.lineage name) :
    Hierarchy.lineage (h.erase other) name = h.lineage name := by
  have unchanged : ∀ {h : Hierarchy} {name : String}, name ≠ other →
      (h.erase other).find? name = h.find? name := fun different => by
    rw [Table.find?_erase, if_neg different]
  induction h, name using lineage_induction with
  | unregistered h name missing lists =>
    rw [lists, lineage_eq_nil_iff, Table.find?_erase, missing, ite_self]
  | top h name bears found lists =>
    rw [lists, List.mem_singleton] at absent
    rw [lineage_eq, unchanged (Ne.symm absent), found, lists]
  | child h name bears parent found lists ih =>
    rw [lists, List.mem_cons, not_or] at absent
    rw [lineage_eq, unchanged (Ne.symm absent.1), found, lists]
    show name :: Hierarchy.lineage ((h.erase other).erase name) parent = _
    rw [Table.erase_comm, ih absent.2]

/-- A lineage is no longer than there are registered types. -/
theorem length_lineage_le (h : Hierarchy) (name : String) : (h.lineage name).length ≤ h.size := by
  have registered : h.lineage name ⊆ h.keys := fun target mem =>
    (h.mem_keys_iff target).mpr (isSome_of_mem_lineage mem)
  rw [← h.length_keys]
  exact ((h.nodup_lineage name).subperm registered).length_le

/-! ### Climbing -/

/-- How far a climb has come: the types listed so far, and the one to come next. -/
structure Climb where
  listed : List String := []
  next : Option String

/-- One round of a climb lists the next type and turns to its parent. There is no further round
without a next type, after one that is listed already, and after one that is not registered. -/
def Climb.step (h : Hierarchy) (c : Climb) : Option Climb :=
  match c.next with
  | none => none
  | some name =>
    if name ∈ c.listed then none
    else (h.find? name).map fun e => ⟨c.listed ++ [name], e.parent⟩

/-- So many rounds lead from one to the other. -/
inductive Climb.Rounds (h : Hierarchy) : Nat → Climb → Climb → Prop where
  | rest {c : Climb} : Rounds h 0 c c
  | round {n : Nat} {c c' c'' : Climb} (step : c.step h = some c') (rest : Rounds h n c' c'') :
      Rounds h (n + 1) c c''

/-- A climb that has listed some types goes on as in the hierarchy without them. -/
theorem climb_lists_rest {g : Hierarchy} {listed : List String} {name : String}
    (passed : ∀ k, h.find? k = if k ∈ listed then none else g.find? k) :
    ∃ stop, Climb.Rounds g (h.lineage name).length ⟨listed, some name⟩ stop ∧
      stop.step g = none ∧ stop.listed = listed ++ h.lineage name := by
  induction h, name using lineage_induction generalizing listed with
  | unregistered h name missing lists =>
    rw [lists, List.append_nil]
    refine ⟨_, .rest, ?_, rfl⟩
    rw [passed] at missing
    unfold Climb.step
    split at missing
    · next again => simp [again]
    · next new => simp [new, missing]
  | top h name bears found lists =>
    rw [passed] at found
    split at found
    · cases found
    · next new =>
      have step : Climb.step g ⟨listed, some name⟩ = some ⟨listed ++ [name], none⟩ := by
        simp [Climb.step, new, found]
      rw [lists]
      exact ⟨_, .round step .rest, rfl, rfl⟩
  | child h name bears parent found lists ih =>
    rw [passed] at found
    split at found
    · cases found
    · next new =>
      have step : Climb.step g ⟨listed, some name⟩ = some ⟨listed ++ [name], some parent⟩ := by
        simp [Climb.step, new, found]
      have passedToo : ∀ k, (h.erase name).find? k =
          if k ∈ listed ++ [name] then none else g.find? k := by
        intro k
        rw [Table.find?_erase, passed]
        by_cases same : k = name <;> simp [same]
      obtain ⟨stop, rounds, stops, all⟩ := ih passedToo
      rw [lists]
      refine ⟨stop, .round step rounds, stops, ?_⟩
      rw [all, List.append_assoc, List.singleton_append]

/-- **A climb ends**, after as many rounds as the lineage is long, and has listed the lineage. -/
theorem climb_lists_lineage (h : Hierarchy) (name : String) :
    ∃ stop, Climb.Rounds h (h.lineage name).length { next := some name } stop ∧
      stop.step h = none ∧ stop.listed = h.lineage name :=
  climb_lists_rest fun k => by simp

/-! ### Ancestors -/

/-- An ancestor is a registered type to which parents lead. -/
theorem reaches_iff :
    h.Reaches name target ↔
      (h.find? target).isSome ∧ Relation.ReflTransGen h.Leads name target := by
  constructor
  · rintro ⟨n, walk⟩
    induction walk with
    | here registered => exact ⟨registered, .refl⟩
    | up link _ ih => exact ⟨ih.1, ih.2.head link⟩
  · rintro ⟨registered, walk⟩
    induction walk using Relation.ReflTransGen.head_induction_on with
    | refl => exact ⟨0, .here registered⟩
    | head link _ ih =>
      obtain ⟨n, rest⟩ := ih
      exact ⟨n + 1, .up link rest⟩

theorem StoredByName.isSubtype_iff (stored : h.StoredByName) {sub sup : String} :
    h.isSubtype sub sup ↔ sub = sup ∨ h.Reaches sub sup := by
  rw [stored.isSubtype_iff_mem, mem_lineage_iff]

theorem StoredByName.isSubtype_trans (stored : h.StoredByName) {a b c : String}
    (first : h.isSubtype a b) (second : h.isSubtype b c) : h.isSubtype a c := by
  rcases stored.isSubtype_iff.mp first with rfl | below
  · exact second
  · rcases stored.isSubtype_iff.mp second with rfl | above
    · exact first
    · exact stored.isSubtype_iff.mpr (.inr (below.trans above))

end HostExpr.Hierarchy
