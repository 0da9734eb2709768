import HostExpr.Proofs.Eval.Congruence
import HostExpr.Proofs.Eval.Conversation
import HostExpr.Proofs.Eval.Search
import HostExpr.Proofs.Registry.Access

/-!
What reaches the code of the host.

Methods and setters of the host are entered with values of the declared types only. The evaluator
enters a method in one place, after the arguments were prepared for its signature. So it is enough
to know which notes an access adds to the trail (`Context.Accesses.all_noted`); whole evaluations
follow, as they do nothing but accesses (`getValue_conforming`).
-/

namespace HostExpr

variable {σ α : Type}

/-! ### Trails -/

/-- The same state twice, with a trail all of whose events have a property. -/
def OnTrail (holds : Event σ → Prop) (s t : EvalState σ) : Prop :=
  s = t ∧ ∀ event ∈ s.trail, holds event

namespace OnTrail

open EvalM (Agree)

variable {holds : Event σ → Prop}

/-- What notes only what has the property keeps it on the trail. -/
theorem agree_of_notes {act : EvalM σ α}
    (h : ∀ s, ∃ new, (act.outcome s).2.trail = new ++ s.trail ∧ ∀ event ∈ new, holds event) :
    Agree (OnTrail holds) act act := by
  rintro s _ ⟨rfl, all⟩
  obtain ⟨new, trail, fine⟩ := h s
  refine ⟨rfl, rfl, fun event mem => ?_⟩
  rw [trail] at mem
  rcases List.mem_append.mp mem with added | old
  · exact fine event added
  · exact all event old

theorem agree_of_silence {act : EvalM σ α} (h : ∀ s, (act.outcome s).2.trail = s.trail) :
    Agree (OnTrail holds) act act :=
  agree_of_notes fun s => ⟨[], h s, nofun⟩

/-- What follows an account whose events all have the property keeps it on the trail. -/
theorem agree_of_follows {β : Type} {account : Account σ β} {act : EvalM σ α} (value : α → β)
    (follows : ∀ s, (act >>= fun a => pure (value a)).Follows account s)
    (all : ∀ {w events answer w'}, account w events answer w' → ∀ e ∈ events, holds e) :
    Agree (OnTrail holds) act act := by
  refine agree_of_notes fun s => ?_
  obtain ⟨events, answer, world, cache, ran, noted⟩ := follows s
  refine ⟨events.reverse, ?_, fun e mem => all noted e (List.mem_reverse.mp mem)⟩
  rw [EvalM.outcome_bind] at ran
  rcases acted : act.outcome s with ⟨answer', s'⟩
  rw [acted] at ran
  cases answer' with
  | error e =>
    cases ran
    rfl
  | ok a =>
    cases ran
    rfl

theorem perform_agrees {resolver : String} {act : HostM σ α}
    {note : Except AccessError α → Interaction} (h : ∀ world answer, holds ⟨world, note answer⟩) :
    Agree (OnTrail holds) (EvalM.perform resolver act note) (EvalM.perform resolver act note) := by
  refine agree_of_notes fun s => ⟨[⟨s.world, note (act.run.run s.world).1⟩], ?_, ?_⟩
  · rw [EvalM.outcome_perform]
    rfl
  · intro event mem
    rw [List.mem_singleton.mp mem]
    exact h s.world _

theorem locate_agrees {β : Type} {key : CacheKey} {g : Generation}
    {find : Option Nat → EvalM σ (Option (Nat × β))}
    (each : ∀ hint, Agree (OnTrail holds) (find hint) (find hint)) :
    Agree (OnTrail holds) (Context.locate key g find) (Context.locate key g find) := by
  refine Agree.bind (agree_of_silence fun s => rfl) fun hint => ?_
  refine (each hint).bind fun found => ?_
  cases found with
  | none => exact .pure none
  | some entry => exact Agree.bind (agree_of_silence fun s => rfl) fun _ => .pure _

theorem search_agrees {ρ : Type} {c : Chain ρ} {hint : Option Nat}
    {query : Nat → ρ → EvalM σ (Option α)}
    (each : ∀ i r, Agree (OnTrail holds) (query i r) (query i r)) :
    Agree (OnTrail holds) (c.search hint query) (c.search hint query) := by
  rw [Chain.search_eq_firstMatch]
  exact EvalM.firstMatch_agrees fun e _ => each e.1 e.2

end OnTrail

/-! ### Accesses -/

/-- Whether what was found was entered to execute a method. -/
def Interaction.isExecution : Interaction → Bool
  | .execute .. => true
  | _ => false

namespace Context

open EvalM (Agree)

variable [Host σ] {ctx : Context σ} {reenter : Reenter σ} {holds : Event σ → Prop}

/-- What an executor of a signature receives for evaluated arguments; without a signature, just
these. -/
def Prepares (ctx : Context σ) (view : View) (method : String) (signature : Option Signature)
    (args prepared : List Value) : Prop :=
  match signature with
  | none => prepared = args
  | some s => ctx.converter.convertArguments view method s args = .ok prepared

omit [Host σ] in
theorem prepares_of_coerced {view : View} {method : String} {signature : Option Signature}
    {args prepared : List Value}
    (coercion : ctx.coerced view method signature args = .ok prepared) :
    ctx.Prepares view method signature args prepared := by
  cases signature with
  | none => exact (Except.ok.inj coercion).symm
  | some signature => exact coercion

/-- Preparing arguments leaves the state as it is. -/
theorem outcome_prepareArguments (method : String) (signature : Option Signature)
    (args : List Value) (s : EvalState σ) :
    ∃ answer, (ctx.prepareArguments method signature args).outcome s = (answer, s) ∧
      ∀ prepared, answer = .ok prepared →
        ctx.Prepares (Host.view s.world) method signature args prepared :=
  ⟨_, outcome_prepareArguments_eq method signature args s, fun _ => prepares_of_coerced⟩

section

variable (others : ∀ world i, i.isExecution = false → holds ⟨world, i⟩)

include others

/-- **An access enters a method with prepared arguments only**, and nothing else of it is an
execution. -/
theorem Accesses.all_noted {a : Access} {w w' : σ} {events : List (Event σ)}
    {answer : Except EvalError Value} (accessed : ctx.Accesses reenter a w events answer w')
    (execution : ∀ target name args, a = .call target name args →
      ∀ world index resolver signature prepared answer,
        ctx.Prepares (Host.view world) name signature args prepared →
          holds ⟨world, .execute index resolver target name signature prepared answer⟩) :
    ∀ e ∈ events, holds e := by
  cases a with
  | read target property =>
    refine Pursued.all_noted accessed (fun world i r answer => others world _ rfl) ?_
    exact fun performed => performed.all_noted fun acted => others _ _ rfl
  | write target property value =>
    refine Pursued.all_noted accessed (fun world i r answer => others world _ rfl) ?_
    exact fun performed => performed.all_noted fun acted => others _ _ rfl
  | call target name args =>
    refine Pursued.all_noted accessed (fun world i r answer => others world _ rfl) fun called => ?_
    cases called with
    | refused _ => exact nofun
    | entered coercion performed =>
      refine performed.all_noted fun acted => ?_
      exact execution target name args rfl _ _ _ _ _ _ (prepares_of_coerced coercion)

theorem readProperty_notes (node : NodeId) (name : String) (target : Value) :
    Agree (OnTrail holds) (ctx.readProperty reenter node name target)
      (ctx.readProperty reenter node name target) := by
  have follows (s : EvalState σ) :
      (ctx.readProperty reenter node name target >>= fun v => pure (id v)).Follows
        (ctx.Accesses reenter (.read target name)) s := by
    simp only [id, bind_pure]
    exact readProperty_follows node name target
  exact OnTrail.agree_of_follows id follows fun accessed => accessed.all_noted others nofun

theorem writeProperty_notes (node : NodeId) (name : String) (target value : Value) :
    Agree (OnTrail holds) (ctx.writeProperty reenter node name target value)
      (ctx.writeProperty reenter node name target value) :=
  OnTrail.agree_of_follows (fun _ => value)
    (fun _ => writeProperty_follows node name target value fun _ => rfl)
    fun accessed => accessed.all_noted others nofun

end

end Context

/-! ### Methods and setters -/

section Entered

variable [Host σ] {c : StandardConverter} {ctx : Context σ} {reenter : Reenter σ}

/-- Executions are the only interactions in which a method is entered. -/
theorem Interaction.not_execution {i : Interaction} (h : i.isExecution = false) {index : Nat}
    {resolver : String} {target : Value} {name : String} {signature : Option Signature}
    {args : List Value} {answer : Except AccessError Value} :
    i ≠ .execute index resolver target name signature args answer := by
  rintro rfl
  cases h

end Entered

end HostExpr
