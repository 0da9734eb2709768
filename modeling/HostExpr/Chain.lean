/-!
Chains of resolvers in the order in which they are asked.

The resolvers of the host come first; a default resolver, if there is one, stays last whatever is
added. Each change gives the chain a new generation, so a generation tells the members of a chain
and their order.

Generations are unique identifiers: no two that are drawn are alike, and they are only compared and
shown. Where they come from is no part of a chain. A supply of tokens stands for any such
source; it draws the natural numbers one after another.
-/

namespace HostExpr

/-- The identity of the members of a chain and their order. -/
structure Generation where
  token : Nat
  deriving DecidableEq

/-- A source of unique identifiers: those from `next` on were not drawn yet. -/
structure TokenSupply where
  next : Nat := 0

abbrev Fresh := StateM TokenSupply

def Generation.fresh : Fresh Generation := fun supply =>
  (⟨supply.next⟩, ⟨supply.next + 1⟩)

structure Chain (ρ : Type) where
  /-- The resolvers of the host. -/
  resolvers : List ρ
  /-- Asked after all others. -/
  default : Option ρ
  generation : Generation

namespace Chain

variable {ρ : Type}

def ofMembers (resolvers : List ρ) (default : Option ρ) : Fresh (Chain ρ) := do
  return { resolvers, default, generation := ← Generation.fresh }

def new : Fresh (Chain ρ) :=
  ofMembers [] none

/-- Adds a resolver after those of the host. -/
def add (c : Chain ρ) (r : ρ) : Fresh (Chain ρ) :=
  ofMembers (c.resolvers ++ [r]) c.default

/-- Adds a resolver before all others. -/
def addFirst (c : Chain ρ) (r : ρ) : Fresh (Chain ρ) :=
  ofMembers (r :: c.resolvers) c.default

/-- Removes the first resolver of the host that passes a test, if any, and gives it. -/
def removeFirst (c : Chain ρ) (test : ρ → Bool) : Fresh (Option ρ × Chain ρ) :=
  match c.resolvers.find? test with
  | some r => do return (some r, ← ofMembers (c.resolvers.eraseP test) c.default)
  | none => return (none, c)

def setDefault (c : Chain ρ) (r : Option ρ) : Fresh (Chain ρ) :=
  ofMembers c.resolvers r

/-- Replaces all members; there is no default resolver afterwards. -/
def replaceAll (_ : Chain ρ) (resolvers : List ρ) : Fresh (Chain ρ) :=
  ofMembers resolvers none

/-- The resolvers in the order in which they are asked. -/
def order (c : Chain ρ) : List ρ :=
  c.resolvers ++ c.default.toList

/-- The resolvers in that order, each with its position. -/
def positions (c : Chain ρ) : List (Nat × ρ) :=
  c.order.zipIdx.map fun (r, i) => (i, r)

/-- The resolver at a position of the order: one of the host, or the default right after them. -/
def get? (c : Chain ρ) (index : Nat) : Option ρ :=
  if index < c.resolvers.length then
    c.resolvers[index]?
  else if index = c.resolvers.length then
    c.default
  else
    none

def size (c : Chain ρ) : Nat :=
  c.resolvers.length + c.default.toList.length

/-- The default stands where the resolvers of the host end. -/
theorem get?_eq_getElem? (c : Chain ρ) (i : Nat) : c.get? i = c.order[i]? := by
  unfold get? order
  split
  · next inside => rw [List.getElem?_append_left inside]
  · next outside =>
    rw [List.getElem?_append_right (Nat.le_of_not_lt outside)]
    split
    · next last =>
      rw [last, Nat.sub_self]
      cases c.default <;> rfl
    · next beyond =>
      have atMostOne : c.default.toList.length ≤ 1 := by cases c.default <;> simp
      exact (List.getElem?_eq_none (by omega)).symm

theorem size_eq_length (c : Chain ρ) : c.size = c.order.length :=
  List.length_append.symm

theorem get?_eq_some_iff {c : Chain ρ} {i : Nat} {r : ρ} :
    c.get? i = some r ↔ ∃ inside : i < c.order.length, c.order[i] = r := by
  rw [get?_eq_getElem?, List.getElem?_eq_some_iff]

theorem mem_order_of_get? {c : Chain ρ} {i : Nat} {r : ρ} (h : c.get? i = some r) :
    r ∈ c.order :=
  List.mem_of_getElem? (c.get?_eq_getElem? i ▸ h)

def firstMatch {m : Type → Type} [Monad m] {α : Type} (query : Nat → ρ → m (Option α)) :
    List (Nat × ρ) → m (Option (Nat × ρ × α))
  | [] => pure none
  | (i, r) :: rest => do
    match ← query i r with
    | some found => pure (some (i, r, found))
    | none => firstMatch query rest

/-- Asks the resolvers until one accepts: the one at the hinted position, if there is one, and then
those at all other positions in order. -/
def search {m : Type → Type} [Monad m] {α : Type} (c : Chain ρ) (hint : Option Nat)
    (query : Nat → ρ → m (Option α)) : m (Option (Nat × ρ × α)) := do
  if let some i := hint then
    if let some r := c.get? i then
      if let some found ← query i r then
        return some (i, r, found)
  firstMatch query (c.positions.filter fun e => some e.1 ≠ hint)

def inspect (c : Chain ρ) (generation : Generation → String) : String :=
  let truth (b : Bool) := if b then "true" else "false"
  "ResolverChain \x7b resolvers: " ++ String.ofList (Nat.toDigits 10 c.resolvers.length) ++
    ", has_default: " ++ truth c.default.isSome ++ ", generation: " ++
    generation c.generation ++ " \x7d"

end Chain

end HostExpr
