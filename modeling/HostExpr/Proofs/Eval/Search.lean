import HostExpr.Proofs.Chain.Order
import HostExpr.Proofs.Eval.Agreement

/-!
Searching a chain within an evaluation.

A search asks members in turn until one accepts or fails. A member that always declines, and whose
question leaves no trace that a relation sees, can be asked or left out: `EvalM.Silent`. So a search
agrees with the search by position whenever the members before the hint are silent:
`EvalM.search_hinted_agrees`.
-/

namespace HostExpr.EvalM

variable {σ ρ α : Type} {R : EvalState σ → EvalState σ → Prop}
  {query : Nat → ρ → EvalM σ (Option α)}

/-! ### One search -/

/-- A search asks its first member and goes on if that declines. -/
theorem outcome_firstMatch_cons (i : Nat) (r : ρ) (rest : List (Nat × ρ)) (s : EvalState σ) :
    (Chain.firstMatch query ((i, r) :: rest)).outcome s =
      match (query i r).outcome s with
      | (.ok (some found), s') => (.ok (some (i, r, found)), s')
      | (.ok none, s') => (Chain.firstMatch query rest).outcome s'
      | (.error e, s') => (.error e, s') := by
  rw [Chain.firstMatch, outcome_bind]
  rcases (query i r).outcome s with ⟨answer, s'⟩
  cases answer with
  | error e => rfl
  | ok found => cases found <;> rfl

/-- Who is found was asked after all before it had declined. `I` holds where a search starts and
is kept by its questions. -/
theorem firstMatch_eq_some {I : EvalState σ → Prop} {l : List (Nat × ρ)}
    (kept : ∀ e ∈ l, ∀ s, I s → I ((query e.1 e.2).outcome s).2)
    {s s' : EvalState σ} (hs : I s) {i : Nat} {r : ρ} {found : α}
    (h : (Chain.firstMatch query l).outcome s = (.ok (some (i, r, found)), s')) :
    (∃ before after, l = before ++ (i, r) :: after ∧
      ∀ e ∈ before, ∃ t, I t ∧ ((query e.1 e.2).outcome t).1 = .ok none) ∧
    (∃ t, I t ∧ ((query i r).outcome t).1 = .ok (some found)) ∧ I s' := by
  induction l generalizing s with
  | nil => simp [Chain.firstMatch] at h
  | cons e rest ih =>
    obtain ⟨j, q⟩ := e
    have keptFirst := kept (j, q) (by simp) s hs
    rw [outcome_firstMatch_cons] at h
    rcases asked : (query j q).outcome s with ⟨answer, s₁⟩
    rw [asked] at h keptFirst
    cases answer with
    | error e => simp at h
    | ok accepted =>
      cases accepted with
      | some a =>
        obtain ⟨⟨rfl, rfl, rfl⟩, rfl⟩ : (j = i ∧ q = r ∧ a = found) ∧ s₁ = s' := by simpa using h
        exact ⟨⟨[], rest, rfl, by simp⟩, ⟨s, hs, by rw [asked]⟩, keptFirst⟩
      | none =>
        have keptRest : ∀ e ∈ rest, ∀ s, I s → I ((query e.1 e.2).outcome s).2 :=
          fun e mem => kept e (List.mem_cons_of_mem _ mem)
        obtain ⟨⟨before, after, rfl, declined⟩, accepted⟩ := ih keptRest keptFirst h
        refine ⟨⟨(j, q) :: before, after, rfl, fun e mem => ?_⟩, accepted⟩
        rcases List.mem_cons.mp mem with rfl | later
        · exact ⟨s, hs, by rw [asked]⟩
        · exact declined e later

/-- A search without a hint finds a member where it stands, after all before it declined. -/
theorem search_none_eq_some {I : EvalState σ → Prop} {c : Chain ρ}
    (kept : ∀ i, ∀ r ∈ c.order, ∀ s, I s → I ((query i r).outcome s).2)
    {s s' : EvalState σ} (hs : I s) {i : Nat} {r : ρ} {found : α}
    (h : (c.search none query).outcome s = (.ok (some (i, r, found)), s')) :
    c.get? i = some r ∧
      (∀ j < i, ∀ q, c.get? j = some q → ∃ t, I t ∧ ((query j q).outcome t).1 = .ok none) ∧
      (∃ t, I t ∧ ((query i r).outcome t).1 = .ok (some found)) ∧ I s' := by
  have member : ∀ e ∈ c.positions, e.2 ∈ c.order := fun e mem =>
    Chain.mem_order_of_get? (Chain.mem_positions.mp mem)
  rw [Chain.search_eq_firstMatch, Chain.queryOrder_none] at h
  obtain ⟨⟨before, after, split, declined⟩, accepted⟩ :=
    firstMatch_eq_some (fun e mem => kept e.1 e.2 (member e mem)) hs h
  refine ⟨Chain.mem_positions.mp (by rw [split]; simp), fun j less q at_j => ?_, accepted⟩
  have sorted := c.positions_increasing
  have mem := Chain.mem_positions.mpr at_j
  rw [split] at sorted mem
  rcases List.mem_append.mp mem with earlier | later
  · exact declined (j, q) earlier
  · have tail := (List.pairwise_append.mp sorted).2.1
    rcases List.mem_cons.mp later with same | later
    · cases same
      omega
    · have := (List.pairwise_cons.mp tail).1 (j, q) later
      dsimp only at this
      omega

/-- Who is found was found by a search. -/
theorem search_of_found {c : Chain ρ} {hint : Option Nat}
    {st st' : EvalState σ} {i : Nat} {r : ρ}
    (h : (do let found ← c.search hint query; return found.map fun (i, r, _) => (i, r) :
      EvalM σ (Option (Nat × ρ))).outcome st = (.ok (some (i, r)), st')) :
    ∃ a, (c.search hint query).outcome st = (.ok (some (i, r, a)), st') := by
  rw [outcome_bind] at h
  rcases ran : (c.search hint query).outcome st with ⟨answer, after⟩
  rw [ran] at h
  cases answer with
  | error e => simp at h
  | ok found =>
    cases found with
    | none => simp at h
    | some entry =>
      obtain ⟨j, q, a⟩ := entry
      cases h
      exact ⟨a, rfl⟩

/-! ### Two searches -/

/-- Members that agree one by one make searches agree. -/
theorem firstMatch_agrees {l : List (Nat × ρ)}
    (each : ∀ e ∈ l, Agree R (query e.1 e.2) (query e.1 e.2)) :
    Agree R (Chain.firstMatch query l) (Chain.firstMatch query l) := by
  induction l with
  | nil => exact .pure none
  | cons e rest ih =>
    obtain ⟨i, r⟩ := e
    refine (each (i, r) (by simp)).bind fun answer => ?_
    cases answer with
    | some found => exact .pure _
    | none => exact ih fun e mem => each e (List.mem_cons_of_mem _ mem)

/-- A question that is declined, and that `R` does not see on either side. -/
def Silent (R : EvalState σ → EvalState σ → Prop) (a : EvalM σ (Option α)) : Prop :=
  ∀ ⦃s t⦄, R s t →
    (∃ s', a.outcome s = (.ok none, s') ∧ R s' t) ∧ ∃ t', a.outcome t = (.ok none, t') ∧ R s t'

/-- If all members are silent, so is the search. -/
theorem Silent.firstMatch {l : List (Nat × ρ)} (each : ∀ e ∈ l, Silent R (query e.1 e.2)) :
    Silent R (Chain.firstMatch query l) := by
  induction l with
  | nil => exact fun s t h => ⟨⟨s, rfl, h⟩, ⟨t, rfl, h⟩⟩
  | cons e rest ih =>
    obtain ⟨i, r⟩ := e
    have first := each (i, r) (by simp)
    have others := ih fun e mem => each e (List.mem_cons_of_mem _ mem)
    intro s t h
    obtain ⟨⟨s₁, askedS, hs₁⟩, ⟨t₁, askedT, ht₁⟩⟩ := first h
    obtain ⟨⟨s₂, restS, hs₂⟩, -⟩ := others hs₁
    obtain ⟨-, ⟨t₂, restT, ht₂⟩⟩ := others ht₁
    refine ⟨⟨s₂, ?_, hs₂⟩, ⟨t₂, ?_, ht₂⟩⟩
    · rw [outcome_firstMatch_cons, askedS]
      exact restS
    · rw [outcome_firstMatch_cons, askedT]
      exact restT

/-- Members that decline are passed over. -/
theorem outcome_firstMatch_append {l m : List (Nat × ρ)} {s s' : EvalState σ}
    (h : (Chain.firstMatch query l).outcome s = (.ok none, s')) :
    (Chain.firstMatch query (l ++ m)).outcome s = (Chain.firstMatch query m).outcome s' := by
  induction l generalizing s with
  | nil =>
    cases h
    rfl
  | cons e rest ih =>
    obtain ⟨i, r⟩ := e
    rw [List.cons_append, outcome_firstMatch_cons]
    rw [outcome_firstMatch_cons] at h
    rcases asked : (query i r).outcome s with ⟨answer, s₁⟩
    rw [asked] at h
    cases answer with
    | error e => simp at h
    | ok found =>
      cases found with
      | some a => simp at h
      | none => exact ih h

/-- **A hint changes nothing that `R` sees** if all before the hinted member are silent. -/
theorem search_hinted_agrees {c : Chain ρ}
    (each : ∀ i, ∀ r ∈ c.order, Agree R (query i r) (query i r)) {hint : Option Nat}
    (silent : ∀ i ∈ hint, ∀ j, ∀ r ∈ c.order.take i, Silent R (query j r)) :
    Agree R (c.search hint query) (c.search none query) := by
  have eachPosition : ∀ e ∈ c.positions, Agree R (query e.1 e.2) (query e.1 e.2) :=
    fun e mem => each e.1 e.2 (Chain.mem_order_of_get? (Chain.mem_positions.mp mem))
  have unhinted : Agree R (Chain.firstMatch query c.positions)
      (Chain.firstMatch query c.positions) := firstMatch_agrees eachPosition
  rw [Chain.search_eq_firstMatch, Chain.search_eq_firstMatch, Chain.queryOrder_none]
  cases hint with
  | none => exact unhinted
  | some i =>
    cases at_i : c.get? i with
    | none =>
      rw [Chain.queryOrder_of_get?_eq_none at_i]
      exact unhinted
    | some r =>
      have split := Chain.positions_eq_append at_i
      have before : Silent R (Chain.firstMatch query (c.positionsBefore i)) :=
        .firstMatch fun e mem =>
          silent i rfl e.1 e.2 (Chain.mem_take_of_mem_positionsBefore mem).2
      have hinted : Agree R (query i r) (query i r) :=
        eachPosition (i, r) (by rw [split]; simp)
      have after : Agree R (Chain.firstMatch query (c.positionsAfter i))
          (Chain.firstMatch query (c.positionsAfter i)) :=
        firstMatch_agrees fun e mem => eachPosition e (by rw [split]; simp [mem])
      rw [Chain.queryOrder_hinted at_i, split]
      intro s t h
      -- By position, the members before the hint are passed over first.
      obtain ⟨-, ⟨t₁, passedT, ht₁⟩⟩ := before h
      rw [outcome_firstMatch_append passedT, outcome_firstMatch_cons, outcome_firstMatch_cons]
      obtain ⟨same, related⟩ := hinted ht₁
      rcases askedS : (query i r).outcome s with ⟨answer, s₂⟩
      rcases askedT : (query i r).outcome t₁ with ⟨answer', t₂⟩
      rw [askedS, askedT] at same related
      cases same
      cases answer with
      | error e => exact ⟨rfl, related⟩
      | ok found =>
        cases found with
        | some a => exact ⟨rfl, related⟩
        | none =>
          -- With the hint, they are passed over only now.
          obtain ⟨⟨s₃, passedS, hs₃⟩, -⟩ := before related
          simp only [outcome_firstMatch_append passedS]
          exact after hs₃

end HostExpr.EvalM
