import HostExpr.Eval.Compiled

/-!
Relational reasoning about evaluations.

`EvalM.outcome` runs a computation from a state; each way of building a computation has one lemma
that says what it does there. `EvalM.Agree R a b` says that the computations `a` and `b`, started in
states that are related by `R`, answer alike and leave related states; `EvalM.AgreeTo R Q a b` that
they leave states that are related by another relation. Taking for `R` the diagonal of an invariant
gives what a computation preserves; taking for `R` a relation between two kinds of states compares
two computations.
-/

namespace HostExpr

/-! ### Running computations -/

@[simp] theorem mapError_eq_ok_iff {α ε δ : Type} {answer : Except ε α} {f : ε → δ} {a : α} :
    answer.mapError f = .ok a ↔ answer = .ok a := by
  cases answer with
  | error e => exact ⟨nofun, nofun⟩
  | ok b => constructor <;> (rintro ⟨⟩; rfl)

namespace EvalM

variable {σ α β : Type}

/-- The answer of a computation from a state, and the state that it leaves. -/
def outcome (act : EvalM σ α) (s : EvalState σ) : Except EvalError α × EvalState σ :=
  act.run.run s

@[simp] theorem outcome_pure (a : α) (s : EvalState σ) :
    (pure a : EvalM σ α).outcome s = (.ok a, s) := rfl

@[simp] theorem outcome_throw (e : EvalError) (s : EvalState σ) :
    (throw e : EvalM σ α).outcome s = (.error e, s) := rfl

/-- A sequence goes on only after success. -/
theorem outcome_bind (a : EvalM σ α) (f : α → EvalM σ β) (s : EvalState σ) :
    (a >>= f).outcome s =
      match a.outcome s with
      | (.ok x, s') => (f x).outcome s'
      | (.error e, s') => (.error e, s') := by
  show (a >>= f) s = _
  simp only [bind, ExceptT.bind, ExceptT.mk, StateT.bind, outcome, ExceptT.run, StateT.run]
  rcases a s with ⟨answer, s'⟩
  cases answer <;> rfl

theorem outcome_bind_of_ok {a : EvalM σ α} {f : α → EvalM σ β} {s s' : EvalState σ} {x : α}
    (h : a.outcome s = (.ok x, s')) : (a >>= f).outcome s = (f x).outcome s' := by
  rw [outcome_bind, h]

theorem outcome_bind_of_error {a : EvalM σ α} {f : α → EvalM σ β} {s s' : EvalState σ}
    {e : EvalError} (h : a.outcome s = (.error e, s')) :
    (a >>= f).outcome s = (.error e, s') := by
  rw [outcome_bind, h]

@[simp] theorem outcome_view [Host σ] (s : EvalState σ) :
    (EvalM.view : EvalM σ View).outcome s = (.ok (Host.view s.world), s) := rfl

@[simp] theorem outcome_ofExcept (e : Except EvalError α) (s : EvalState σ) :
    (EvalM.ofExcept e : EvalM σ α).outcome s = (e, s) := by
  cases e <;> rfl

theorem ofExcept_ok_bind (a : α) (f : α → EvalM σ β) :
    (EvalM.ofExcept (.ok a) >>= f) = f a := rfl

theorem ofExcept_error_bind (e : EvalError) (f : α → EvalM σ β) :
    (EvalM.ofExcept (.error e) >>= f) = throw e := rfl

@[simp] theorem outcome_activeObject (root : Value) (s : EvalState σ) :
    (EvalM.activeObject root).outcome s = (.ok (s.active.head?.getD root), s) := rfl

/-- What an act of a resolver does: it changes the host's state and is noted. -/
theorem outcome_perform (resolver : String) (act : HostM σ α)
    (note : Except AccessError α → Interaction) (s : EvalState σ) :
    (EvalM.perform resolver act note).outcome s =
      ((act.run.run s.world).1.mapError (EvalError.ofAccess resolver),
        { s with
          world := (act.run.run s.world).2
          trail := ⟨s.world, note (act.run.run s.world).1⟩ :: s.trail }) := rfl

@[simp] theorem outcome_hintFor (key : CacheKey) (g : Generation) (s : EvalState σ) :
    (EvalM.hintFor key g).outcome s = (.ok (s.cache.bind fun c => c.lookup key g), s) := rfl

@[simp] theorem outcome_remember (key : CacheKey) (g : Generation) (i : Nat) (s : EvalState σ) :
    (EvalM.remember key g i).outcome s =
      (.ok (), { s with cache := s.cache.map fun c => c.record key g i }) := rfl

@[simp] theorem outcome_withActive (object : Value) (act : EvalM σ α) (s : EvalState σ) :
    (EvalM.withActive object act).outcome s =
      ((act.outcome { s with active := object :: s.active }).1,
        { (act.outcome { s with active := object :: s.active }).2 with
          active := (act.outcome { s with active := object :: s.active }).2.active.tail }) := rfl

end EvalM

def Compiled.entry {σ : Type} (c : Compiled) (ctx : Context σ) (world : σ) : EvalState σ :=
  { world, active := [ctx.root], cache := if ctx.config.resolutionCache then c.cache else none }

namespace EvalM

variable {σ α β : Type}

/-! ### Agreement -/

variable {R Q P : EvalState σ → EvalState σ → Prop}

/-- From states related by `R` two computations answer alike and leave states related by `Q`. -/
def AgreeTo (R Q : EvalState σ → EvalState σ → Prop) (a b : EvalM σ α) : Prop :=
  ∀ ⦃s t : EvalState σ⦄, R s t →
    (a.outcome s).1 = (b.outcome t).1 ∧ Q (a.outcome s).2 (b.outcome t).2

def Agree (R : EvalState σ → EvalState σ → Prop) (a b : EvalM σ α) : Prop :=
  AgreeTo R R a b

/-- Agreement goes through sequences, if the relations after the first steps are those before the
second ones and include those after them. -/
theorem AgreeTo.bind {a b : EvalM σ α} {f g : α → EvalM σ β} (first : AgreeTo R Q a b)
    (next : ∀ x, AgreeTo Q P (f x) (g x)) (failed : ∀ s t, Q s t → P s t) :
    AgreeTo R P (a >>= f) (b >>= g) := by
  intro s t h
  obtain ⟨same, related⟩ := first h
  rw [outcome_bind, outcome_bind]
  rcases ha : a.outcome s with ⟨x, s'⟩
  rcases hb : b.outcome t with ⟨y, t'⟩
  rw [ha, hb] at same related
  cases same
  cases x with
  | ok x => exact next x related
  | error e => exact ⟨rfl, failed _ _ related⟩

namespace Agree

theorem pure (a : α) : Agree R (Pure.pure a : EvalM σ α) (Pure.pure a) :=
  fun _ _ h => ⟨rfl, h⟩

theorem throw (e : EvalError) : Agree R (throw e : EvalM σ α) (MonadExcept.throw e) :=
  fun _ _ h => ⟨rfl, h⟩

theorem ofExcept (e : Except EvalError α) :
    Agree R (EvalM.ofExcept e : EvalM σ α) (EvalM.ofExcept e) := by
  intro s t h
  rw [outcome_ofExcept, outcome_ofExcept]
  exact ⟨rfl, h⟩

theorem bind {a b : EvalM σ α} {f g : α → EvalM σ β} (first : Agree R a b)
    (next : ∀ x, Agree R (f x) (g x)) : Agree R (a >>= f) (b >>= g) :=
  AgreeTo.bind first next fun _ _ h => h

/-- What is done with equal answers may be chosen by the answer. -/
theorem ite {p : Prop} [Decidable p] {a b c d : EvalM σ α} (yes : Agree R a b)
    (no : Agree R c d) : Agree R (if p then a else c) (if p then b else d) := by
  by_cases h : p
  · rw [if_pos h, if_pos h]
    exact yes
  · rw [if_neg h, if_neg h]
    exact no

end Agree

end EvalM

end HostExpr
