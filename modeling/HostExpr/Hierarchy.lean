import HostExpr.Table

/-!
Registered types and their parents.

The lineage of a type is the type itself and its ancestors, the nearest first. It ends at a type
without a parent, at a parent that is not registered, and where a cycle would close: a type that
has been passed is taken out of the hierarchy for the rest of the walk.

The walk goes by the names under which types are registered, but an ancestor is known by the name
that it bears. The two differ only if a type was given another name after it was registered.
-/

namespace HostExpr

/-- What a hierarchy tells of a type that is registered: the name that it bears, and its parent. -/
structure TypeEntry where
  name : String
  parent : Option String

/-- The registered types, by the names under which they are registered. -/
abbrev Hierarchy := Table String TypeEntry

namespace Hierarchy

/-- The walk from a type to its ancestors, in at most so many steps. -/
def lineageUpTo : Nat → Hierarchy → String → List String
  | 0, _, _ => []
  | steps + 1, h, name =>
    match h.find? name with
    | none => []
    | some ⟨_, none⟩ => [name]
    | some ⟨_, some parent⟩ => name :: lineageUpTo steps (h.erase name) parent

/-- The names under which a type and its ancestors are registered, the nearest first. -/
def lineage (h : Hierarchy) (name : String) : List String :=
  lineageUpTo h.size h name

/-- Whether a type is another one, or that is the name of one in its lineage. -/
def isSubtype (h : Hierarchy) (sub sup : String) : Bool :=
  sub = sup || (h.lineage sub).any fun name => (h.find? name).any (·.name = sup)

/-- More steps than there are types change nothing. -/
theorem lineageUpTo_of_size_le {steps : Nat} {h : Hierarchy} {name : String}
    (enough : h.size ≤ steps) : lineageUpTo steps h name = h.lineage name := by
  have key : ∀ (m n : Nat) (h : Hierarchy) (name : String), h.size ≤ m → h.size ≤ n →
      lineageUpTo m h name = lineageUpTo n h name := by
    intro m
    induction m with
    | zero =>
      intro n h name hm _
      have empty : h.find? name = none := by
        cases found : h.find? name with
        | none => rfl
        | some a => exact absurd (Table.size_erase_lt found) (by omega)
      cases n with
      | zero => rfl
      | succ n => simp [lineageUpTo, empty]
    | succ m ih =>
      intro n h name hm hn
      cases n with
      | zero =>
        have empty : h.find? name = none := by
          cases found : h.find? name with
          | none => rfl
          | some a => exact absurd (Table.size_erase_lt found) (by omega)
        simp [lineageUpTo, empty]
      | succ n =>
        simp only [lineageUpTo]
        split
        · rfl
        · rfl
        · next _ parent found =>
          have smaller := Table.size_erase_lt found
          rw [ih n (h.erase name) parent (by omega) (by omega)]
  exact key _ _ h name enough (Nat.le_refl _)

/-- The lineage of a type, one step at a time. -/
theorem lineage_eq (h : Hierarchy) (name : String) :
    h.lineage name =
      match h.find? name with
      | none => []
      | some ⟨_, none⟩ => [name]
      | some ⟨_, some parent⟩ => name :: Hierarchy.lineage (h.erase name) parent := by
  rw [← lineageUpTo_of_size_le (Nat.le_succ h.size)]
  simp only [lineageUpTo]
  split <;> simp_all
  next _ parent found =>
    exact lineageUpTo_of_size_le (Nat.le_of_lt (Table.size_erase_lt found))

end Hierarchy

end HostExpr
