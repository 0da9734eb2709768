import HostExpr.Chain

/-!
The order in which a chain is asked.

Without a hint the members are asked by position. A hint moves one member to the front and leaves
the order of the others as it is: `Chain.queryOrder_hinted`. A hint beyond the chain is no hint:
`Chain.queryOrder_of_get?_eq_none`. A search tries the hint by itself and then goes through the
others; both together ask in this order: `Chain.search_eq_firstMatch`.
-/

namespace HostExpr.Chain

variable {ρ : Type}

/-- What stands at a position. -/
theorem mem_positions {c : Chain ρ} {i : Nat} {r : ρ} :
    (i, r) ∈ c.positions ↔ c.get? i = some r := by
  rw [get?_eq_getElem?]
  constructor
  · intro h
    obtain ⟨⟨r', j⟩, mem, same⟩ := List.mem_map.mp h
    cases same
    exact List.mem_zipIdx_iff_getElem?.mp mem
  · intro h
    exact List.mem_map.mpr ⟨(r, i), List.mem_zipIdx_iff_getElem?.mpr h, rfl⟩

/-- Positions increase along a chain. -/
theorem positions_increasing (c : Chain ρ) : c.positions.Pairwise fun a b => a.1 < b.1 := by
  have firsts : c.positions.map (·.1) = List.range' 0 c.order.length := by
    rw [positions, List.map_map, ← List.zipIdx_map_snd 0 c.order]
    rfl
  rw [← List.pairwise_map (R := (· < ·)) (f := Prod.fst), firsts]
  exact List.pairwise_lt_range' 

/-- The members with their positions, in the order in which they are asked when the one at some
position is tried first. -/
def queryOrder (c : Chain ρ) (hint : Option Nat) : List (Nat × ρ) :=
  match hint.bind fun i => (c.get? i).map fun r => (i, r) with
  | some hinted => hinted :: c.positions.filter fun e => e.1 ≠ hinted.1
  | none => c.positions

/-- Without a hint the members are asked by position. -/
theorem queryOrder_none (c : Chain ρ) : c.queryOrder none = c.positions := rfl

/-- A hint at a member has it asked before all others. -/
theorem queryOrder_of_get?_eq_some {c : Chain ρ} {i : Nat} {r : ρ} (h : c.get? i = some r) :
    c.queryOrder (some i) = (i, r) :: c.positions.filter fun e => e.1 ≠ i := by
  simp [queryOrder, h]

/-- A hint beyond the chain is no hint. -/
theorem queryOrder_of_get?_eq_none {c : Chain ρ} {i : Nat} (h : c.get? i = none) :
    c.queryOrder (some i) = c.positions := by
  simp [queryOrder, h]

def positionsBefore (c : Chain ρ) (i : Nat) : List (Nat × ρ) :=
  (c.order.take i).zipIdx.map fun (r, j) => (j, r)

def positionsAfter (c : Chain ρ) (i : Nat) : List (Nat × ρ) :=
  ((c.order.drop (i + 1)).zipIdx (i + 1)).map fun (r, j) => (j, r)

/-- The members around a position. -/
theorem positions_eq_append {c : Chain ρ} {i : Nat} {r : ρ} (h : c.get? i = some r) :
    c.positions = c.positionsBefore i ++ (i, r) :: c.positionsAfter i := by
  obtain ⟨inside, rfl⟩ := get?_eq_some_iff.mp h
  have split : c.order = c.order.take i ++ c.order[i] :: c.order.drop (i + 1) := by
    rw [← List.drop_eq_getElem_cons, List.take_append_drop]
  have length : (c.order.take i).length = i := by
    rw [List.length_take]
    omega
  calc c.positions
      = ((c.order.take i ++ c.order[i] :: c.order.drop (i + 1)).zipIdx).map
          fun (r, j) => (j, r) := by rw [← split]; rfl
    _ = c.positionsBefore i ++ (i, c.order[i]) :: c.positionsAfter i := by
        rw [List.zipIdx_append, length, Nat.zero_add, List.zipIdx_cons, List.map_append]
        rfl

/-- A member that stands before a position is one of the members up to there. -/
theorem mem_take_of_mem_positionsBefore {c : Chain ρ} {i : Nat} {e : Nat × ρ}
    (h : e ∈ c.positionsBefore i) : e.1 < i ∧ e.2 ∈ c.order.take i := by
  obtain ⟨⟨r, j⟩, mem, rfl⟩ := List.mem_map.mp h
  have found := List.mem_zipIdx_iff_getElem?.mp mem
  obtain ⟨inside, -⟩ := List.getElem?_eq_some_iff.mp found
  rw [List.length_take] at inside
  exact ⟨by dsimp only at inside ⊢; omega, List.mem_of_getElem? found⟩

/-- **A hint moves one member to the front**; the others are asked in their order. -/
theorem queryOrder_hinted {c : Chain ρ} {i : Nat} {r : ρ} (h : c.get? i = some r) :
    c.queryOrder (some i) = (i, r) :: (c.positionsBefore i ++ c.positionsAfter i) := by
  have before : (c.positionsBefore i).filter (fun e => e.1 ≠ i) = c.positionsBefore i := by
    refine List.filter_eq_self.mpr fun e mem => ?_
    have := (mem_take_of_mem_positionsBefore mem).1
    simp only [decide_eq_true_eq]
    omega
  have after : (c.positionsAfter i).filter (fun e => e.1 ≠ i) = c.positionsAfter i := by
    refine List.filter_eq_self.mpr fun e mem => ?_
    obtain ⟨⟨r', j⟩, later, rfl⟩ := List.mem_map.mp mem
    have := List.le_snd_of_mem_zipIdx later
    simp only [decide_eq_true_eq]
    dsimp only at this ⊢
    omega
  rw [queryOrder_of_get?_eq_some h, positions_eq_append h, List.filter_append,
    List.filter_cons_of_neg (by simp), before, after]

/-- The members of a chain as they are asked: each of them once, the one at the hinted position, if
there is one, before the others, and those by position. -/
structure InQueryOrder (c : Chain ρ) (hint : Option Nat) (asked : List (Nat × ρ)) : Prop where
  everybody : ∀ i r, (i, r) ∈ asked ↔ c.order[i]? = some r
  once : (asked.map (·.1)).Nodup
  hinted : ∀ i ∈ hint, ∀ r, c.order[i]? = some r →
    ∃ others, asked = (i, r) :: others ∧ others.Pairwise fun a b => a.1 < b.1
  unhinted : (∀ i ∈ hint, c.order[i]? = none) → asked.Pairwise fun a b => a.1 < b.1

/-- **A hint only moves a member to the front**: nobody is lost and nobody is asked twice. -/
theorem queryOrder_inQueryOrder (c : Chain ρ) (hint : Option Nat) :
    c.InQueryOrder hint (c.queryOrder hint) := by
  have member : ∀ i r, (i, r) ∈ c.positions ↔ c.order[i]? = some r := fun i r => by
    rw [mem_positions, get?_eq_getElem?]
  have distinct : (c.positions.map (·.1)).Nodup :=
    List.pairwise_map.mpr (c.positions_increasing.imp fun less => Nat.ne_of_lt less)
  cases at_hint : hint.bind c.get? with
  | none =>
    have by_position : c.queryOrder hint = c.positions := by
      cases hint with
      | none => exact c.queryOrder_none
      | some i => exact queryOrder_of_get?_eq_none at_hint
    rw [by_position]
    refine ⟨member, distinct, fun i hinted r at_i => ?_, fun _ => c.positions_increasing⟩
    rw [hinted, Option.bind_some, get?_eq_getElem?, at_i] at at_hint
    cases at_hint
  | some r =>
    obtain ⟨i, rfl, at_i⟩ := Option.bind_eq_some_iff.mp at_hint
    have increasing := c.positions_increasing.filter fun e => e.1 ≠ i
    rw [queryOrder_of_get?_eq_some at_i]
    rw [get?_eq_getElem?] at at_i
    refine ⟨fun j q => ?_, ?_, ?_, fun nobody => ?_⟩
    · rw [List.mem_cons, List.mem_filter, member]
      constructor
      · rintro (same | ⟨at_j, -⟩)
        · cases same
          exact at_i
        · exact at_j
      · intro at_j
        by_cases same : j = i
        · subst same
          cases at_i.symm.trans at_j
          exact .inl rfl
        · exact .inr ⟨at_j, decide_eq_true same⟩
    · refine List.nodup_cons.mpr ⟨by simp, ?_⟩
      exact List.pairwise_map.mpr (increasing.imp fun less => Nat.ne_of_lt less)
    · rintro j hinted q at_j
      cases hinted
      cases at_i.symm.trans at_j
      exact ⟨_, rfl, increasing⟩
    · rw [nobody i rfl] at at_i
      cases at_i

/-- Whoever is asked stands at a position of the chain. -/
theorem mem_queryOrder {c : Chain ρ} {hint : Option Nat} {i : Nat} {r : ρ} :
    (i, r) ∈ c.queryOrder hint ↔ c.get? i = some r := by
  rw [get?_eq_getElem?]
  exact (c.queryOrder_inQueryOrder hint).everybody i r

/-! ### Searching -/

/-- **A search asks in query order.** The member that a hint names is asked before the others are
gone through, and left out there; if nobody stands at the hinted position, nobody is left out. -/
theorem search_eq_firstMatch {m : Type → Type} [Monad m] [LawfulMonad m] {α : Type} (c : Chain ρ)
    (hint : Option Nat) (query : Nat → ρ → m (Option α)) :
    c.search hint query = firstMatch query (c.queryOrder hint) := by
  cases hint with
  | none =>
    have everybody : (c.positions.filter fun e => some e.1 ≠ none) = c.positions := by simp
    rw [queryOrder_none, ← everybody]
    rfl
  | some i =>
    have others : (c.positions.filter fun e => some e.1 ≠ some i) =
        c.positions.filter fun e => e.1 ≠ i := by simp
    cases at_i : c.get? i with
    | none =>
      have nobody : c.positions.filter (fun e => e.1 ≠ i) = c.positions :=
        List.filter_eq_self.mpr fun e mem => by
          have at_e : c.get? e.1 = some e.2 := mem_positions.mp mem
          have : e.1 ≠ i := fun same => by rw [same, at_i] at at_e; cases at_e
          exact decide_eq_true this
      rw [queryOrder_of_get?_eq_none at_i, search]
      simp only [at_i, others, nobody]
    | some r =>
      rw [queryOrder_of_get?_eq_some at_i, search, firstMatch]
      simp only [at_i, others]
      refine bind_congr fun found => ?_
      cases found with
      | none => rfl
      | some a => rfl

end HostExpr.Chain
