import HostExpr.Conversion
import Mathlib.Data.List.Forall2

/-!
Going through values and through lists of them.

`Value.induction` is the induction on values whose hypothesis for a list is about its elements. A
step that may fail, taken for each element, succeeds for all or fails for one of them
(`forall₂_of_mapM_eq_ok`, `exists_of_mapM_eq_error`). Converting several values is such a series:
`StandardConverter.convertAll_eq_mapM`.
-/

namespace HostExpr

/-- Induction on values, with a hypothesis for each element of a list. -/
@[elab_as_elim, induction_eliminator]
theorem Value.induction {P : Value → Prop} (null : P .null) (boolean : ∀ b, P (.boolean b))
    (number : ∀ n, P (.number n)) (string : ∀ s, P (.string s))
    (list : ∀ items, (∀ v ∈ items, P v) → P (.list items)) (object : ∀ ref, P (.object ref)) :
    ∀ v, P v
  | .null => null
  | .boolean b => boolean b
  | .number n => number n
  | .string s => string s
  | .list items => list items (each items)
  | .object ref => object ref
where
  each : ∀ items : List Value, ∀ v ∈ items, P v
    | [], _, mem => absurd mem List.not_mem_nil
    | w :: ws, v, mem => by
      rcases List.mem_cons.mp mem with same | later
      · rw [same]
        exact Value.induction null boolean number string list object w
      · exact each ws v later

section Series

variable {α β ε : Type} {f : α → Except ε β} {e : ε}

/-- A series that succeeds gives the result of each step. -/
theorem forall₂_of_mapM_eq_ok {l : List α} {results : List β} (h : l.mapM f = .ok results) :
    List.Forall₂ (fun a b => f a = .ok b) l results := by
  induction l generalizing results with
  | nil =>
    cases h
    exact .nil
  | cons a rest ih =>
    rw [List.mapM_cons] at h
    cases first : f a with
    | error e => simp [first, bind, Except.bind] at h
    | ok b =>
      cases others : rest.mapM f with
      | error e => simp [first, others, bind, Except.bind] at h
      | ok bs =>
        obtain rfl : b :: bs = results := by
          simpa [first, others, bind, Except.bind, pure, Except.pure] using h
        exact .cons first (ih others)

/-- A series succeeds if each of its steps does. -/
theorem mapM_eq_ok_of_forall₂ {l : List α} {results : List β}
    (h : List.Forall₂ (fun a b => f a = .ok b) l results) : l.mapM f = .ok results := by
  induction h with
  | nil => rfl
  | cons first _ ih =>
    rw [List.mapM_cons, first, ih]
    rfl

/-- A series gives what another one gives if each step does. -/
theorem mapM_eq_ok_of_imp {g : α → Except ε β} {l : List α} {results : List β}
    (imp : ∀ a ∈ l, ∀ b, f a = .ok b → g a = .ok b) (h : l.mapM f = .ok results) :
    l.mapM g = .ok results := by
  refine mapM_eq_ok_of_forall₂ ?_
  have each := forall₂_of_mapM_eq_ok h
  clear h
  induction each with
  | nil => exact .nil
  | @cons a b _ _ first _ ih =>
    refine .cons (imp a List.mem_cons_self b first) (ih fun x mem => ?_)
    exact imp x (List.mem_cons_of_mem a mem)

/-- What a series gives, one of its steps gave. -/
theorem exists_of_mem_of_mapM_eq_ok {l : List α} {results : List β} (h : l.mapM f = .ok results)
    {b : β} (mem : b ∈ results) : ∃ a ∈ l, f a = .ok b := by
  have each := forall₂_of_mapM_eq_ok h
  clear h
  induction each with
  | nil => cases mem
  | cons first _ ih =>
    rcases List.mem_cons.mp mem with rfl | later
    · exact ⟨_, List.mem_cons_self, first⟩
    · obtain ⟨a, mem, gave⟩ := ih later
      exact ⟨a, List.mem_cons_of_mem _ mem, gave⟩

/-- A series that succeeds succeeds in each of its steps. -/
theorem exists_of_mapM_eq_ok {l : List α} {results : List β} (h : l.mapM f = .ok results) {a : α}
    (mem : a ∈ l) : ∃ b, f a = .ok b := by
  have each := forall₂_of_mapM_eq_ok h
  clear h
  induction each with
  | nil => cases mem
  | cons first _ ih =>
    rcases List.mem_cons.mp mem with rfl | later
    · exact ⟨_, first⟩
    · exact ih later

/-- Steps that each give back what they were given do so as a series. -/
theorem mapM_eq_ok_self {f : α → Except ε α} {l : List α} (h : ∀ a ∈ l, f a = .ok a) :
    l.mapM f = .ok l := by
  induction l with
  | nil => rfl
  | cons a rest ih =>
    rw [List.mapM_cons, h a List.mem_cons_self, ih fun b mem => h b (List.mem_cons_of_mem a mem)]
    rfl

/-- Steps that can each be taken back can be taken back as a series. -/
theorem exists_mapM_back {g : β → Except ε α} {l : List α}
    (each : ∀ a ∈ l, ∃ b, f a = .ok b ∧ g b = .ok a) :
    ∃ results, l.mapM f = .ok results ∧ results.mapM g = .ok l := by
  induction l with
  | nil => exact ⟨[], rfl, rfl⟩
  | cons a rest ih =>
    obtain ⟨b, there, back⟩ := each a List.mem_cons_self
    obtain ⟨bs, thereOthers, backOthers⟩ := ih fun x mem => each x (List.mem_cons_of_mem a mem)
    refine ⟨b :: bs, ?_, ?_⟩
    · rw [List.mapM_cons, there, thereOthers]
      rfl
    · rw [List.mapM_cons, back, backOthers]
      rfl

/-- A series that fails does so in its first step that fails. -/
theorem exists_first_of_mapM_eq_error {l : List α} (h : l.mapM f = .error e) :
    ∃ before a after, l = before ++ a :: after ∧ (∀ b ∈ before, ∃ r, f b = .ok r) ∧
      f a = .error e := by
  induction l with
  | nil => cases h
  | cons a rest ih =>
    rw [List.mapM_cons] at h
    cases first : f a with
    | error e' =>
      obtain rfl : e' = e := by simpa [first, bind, Except.bind] using h
      exact ⟨[], a, rest, rfl, by simp, first⟩
    | ok b =>
      cases others : rest.mapM f with
      | error e' =>
        obtain rfl : e' = e := by simpa [first, others, bind, Except.bind] using h
        obtain ⟨before, x, after, rfl, earlier, failed⟩ := ih others
        refine ⟨a :: before, x, after, rfl, ?_, failed⟩
        intro c mem
        rcases List.mem_cons.mp mem with rfl | later
        · exact ⟨b, first⟩
        · exact earlier c later
      | ok bs => simp [first, others, bind, Except.bind, pure, Except.pure] at h

/-- A series that fails does so in one of its steps. -/
theorem exists_of_mapM_eq_error {l : List α} (h : l.mapM f = .error e) :
    ∃ a ∈ l, f a = .error e := by
  obtain ⟨before, a, after, rfl, _, failed⟩ := exists_first_of_mapM_eq_error h
  exact ⟨a, by simp, failed⟩

end Series

/-- Converting values to one type converts each. -/
theorem StandardConverter.convertAll_eq_mapM (c : StandardConverter) (view : View)
    (items : List Value) (element : ValueType) :
    c.convertAll view items element = items.mapM fun v => c.convert view v element := by
  induction items with
  | nil => rfl
  | cons v vs ih => rw [convertAll, List.mapM_cons, ih]

end HostExpr
