import HostExpr.Proofs.Eval.Conduct
import HostExpr.Proofs.Session.Basic
import Mathlib.Data.List.Chain

/-!
What follows what on a trail.

`Context.LeadsTo` lists what may come directly after an event. A resolver that accepts is the one
that acts next, and no failure has a successor; after a refusal the same question goes to another
resolver, and after an act a new access begins. `Context.EndsWith` lists the answers that the last
event leaves open. `Compiled.evaluation_committed` is the result: the trail of an evaluation or an
assignment is a chain of such steps, and it is the trail of a task that is conducted by turns.
-/

namespace HostExpr

variable {σ ρ α : Type}

/-- The resolver that failed, by name, and its failure. -/
def Interaction.failure? : Interaction → Option (String × AccessError)
  | .canRead _ r _ _ (.error e) => some (r, e)
  | .read _ r _ _ (.error e) => some (r, e)
  | .canWrite _ r _ _ (.error e) => some (r, e)
  | .write _ r _ _ _ (.error e) => some (r, e)
  | .resolve _ r _ _ _ (.error e) => some (r, e)
  | .execute _ r _ _ _ _ (.error e) => some (r, e)
  | _ => none

namespace Event

def Asks (e : Event σ) : Prop :=
  e.interaction.isPerformance = false

/-- A resolver acted, and did not fail. -/
def Achieves (e : Event σ) : Prop :=
  e.interaction.isPerformance = true ∧ e.interaction.failure? = none

end Event

namespace Context

variable [Host σ]

inductive LeadsTo (ctx : Context σ) : Event σ → Event σ → Prop where
  | otherReader {w w' : σ} {i j : Nat} {r r' property : String} {target : Value}
      {answer : Except AccessError Bool} :
      LeadsTo ctx ⟨w, .canRead i r target property (.ok false)⟩
        ⟨w', .canRead j r' target property answer⟩
  | read {w w' : σ} {i : Nat} {r property : String} {target : Value}
      {answer : Except AccessError Value} :
      LeadsTo ctx ⟨w, .canRead i r target property (.ok true)⟩
        ⟨w', .read i r target property answer⟩
  | otherWriter {w w' : σ} {i j : Nat} {r r' property : String} {target : Value}
      {answer : Except AccessError Bool} :
      LeadsTo ctx ⟨w, .canWrite i r target property (.ok false)⟩
        ⟨w', .canWrite j r' target property answer⟩
  | write {w w' : σ} {i : Nat} {r property : String} {target value : Value}
      {answer : Except AccessError Unit} :
      LeadsTo ctx ⟨w, .canWrite i r target property (.ok true)⟩
        ⟨w', .write i r target property value answer⟩
  | otherMethod {w w' : σ} {i j : Nat} {r r' method : String} {target : Value}
      {argTypes : List ValueType} {answer : Except AccessError (Option (Option Signature))} :
      LeadsTo ctx ⟨w, .resolve i r target method argTypes (.ok none)⟩
        ⟨w', .resolve j r' target method argTypes answer⟩
  /-- What is executed is what was found, with the arguments as they could be coerced. -/
  | execute {w w' : σ} {i : Nat} {r method : String} {target : Value} {view : View}
      {signature : Option Signature} {args prepared : List Value}
      {answer : Except AccessError Value}
      (coercion : ctx.coerced (Host.view w') method signature args = .ok prepared) :
      LeadsTo ctx
        ⟨w, .resolve i r target method (args.map (Value.valueType view)) (.ok (some signature))⟩
        ⟨w', .execute i r target method signature prepared answer⟩
  | nextAccess {e e' : Event σ} (achieved : e.Achieves) (asks : e'.Asks) : LeadsTo ctx e e'

/-- What the last event of a trail leaves open for the result. -/
inductive EndsWith (ctx : Context σ) (answer : Except EvalError Value) : Event σ → Prop where
  | failed {e : Event σ} {r : String} {x : AccessError} {x' : EvalError}
      (failure : e.interaction.failure? = some (r, x)) (reported : x.ReportedAs r x')
      (same : answer = .error x') : EndsWith ctx answer e
  | noReader {w : σ} {i : Nat} {r property : String} {target : Value} {view : View}
      (same : answer = .error (.unresolvedProperty property (target.valueType view))) :
      EndsWith ctx answer ⟨w, .canRead i r target property (.ok false)⟩
  | noWriter {w : σ} {i : Nat} {r property : String} {target : Value} {view : View}
      (same : answer = .error (.unwritableProperty property (target.valueType view))) :
      EndsWith ctx answer ⟨w, .canWrite i r target property (.ok false)⟩
  | noMethod {w : σ} {i : Nat} {r method : String} {target : Value} {argTypes : List ValueType}
      {view : View}
      (same : answer = .error (.unresolvedMethod method (target.valueType view) argTypes)) :
      EndsWith ctx answer ⟨w, .resolve i r target method argTypes (.ok none)⟩
  /-- What was found is not executed if the arguments cannot be coerced. -/
  | refused {w : σ} {i : Nat} {r method : String} {target : Value} {view view' : View}
      {signature : Option Signature} {args : List Value} {x : EvalError}
      (coercion : ctx.coerced view' method signature args = .error x) (same : answer = .error x) :
      EndsWith ctx answer
        ⟨w, .resolve i r target method (args.map (Value.valueType view)) (.ok (some signature))⟩
  /-- After an act, anything but the host may still fail. -/
  | achieved {e : Event σ} (achieved : e.Achieves) : EndsWith ctx answer e

/-- Events that lead from one to the next, with what is known of the first and of the last. -/
structure Stretch (ctx : Context σ) (opens closes : Event σ → Prop) (events : List (Event σ)) :
    Prop where
  begins : ∀ e ∈ events.head?, opens e
  linked : events.IsChain ctx.LeadsTo
  ends : ∀ e ∈ events.getLast?, closes e

/-- A trail that keeps to what follows what, up to an answer. -/
abbrev Committed (ctx : Context σ) (events : List (Event σ)) (answer : Except EvalError Value) :
    Prop :=
  ctx.Stretch Event.Asks (ctx.EndsWith answer) events

variable {ctx : Context σ} {reenter : Reenter σ}

/-! ### Stretches -/

section Stretches

variable {opens closes middle middle' : Event σ → Prop} {events later : List (Event σ)}

theorem Stretch.nil : ctx.Stretch opens closes [] where
  begins e mem := by cases mem
  linked := List.isChain_nil
  ends e mem := by cases mem

theorem Stretch.single {e : Event σ} (first : opens e) (last : closes e) :
    ctx.Stretch opens closes [e] where
  begins := by
    intro e' mem
    cases mem
    exact first
  linked := List.isChain_singleton e
  ends := by
    intro e' mem
    cases mem
    exact last

/-- Stretches join where the end of one leads to the beginning of the other. -/
theorem Stretch.append (first : ctx.Stretch opens middle events)
    (second : ctx.Stretch middle' closes later)
    (link : ∀ e e', middle e → middle' e' → ctx.LeadsTo e e')
    (before : events = [] → ∀ e, middle' e → opens e)
    (after : later = [] → ∀ e, middle e → closes e) :
    ctx.Stretch opens closes (events ++ later) where
  begins := by
    intro e mem
    cases events with
    | nil => exact before rfl e (second.begins e mem)
    | cons e' es => exact first.begins e mem
  linked := by
    rw [List.isChain_append]
    refine ⟨first.linked, second.linked, fun e last e' head => ?_⟩
    exact link e e' (first.ends e last) (second.begins e' head)
  ends := by
    intro e mem
    rw [List.getLast?_append] at mem
    cases last : later.getLast? with
    | some e' =>
      rw [last] at mem
      exact second.ends e (by rw [last]; exact mem)
    | none =>
      rw [last] at mem
      exact after (List.getLast?_eq_none_iff.mp last) e (first.ends e mem)

theorem Stretch.mono {opens' : Event σ → Prop} (stretch : ctx.Stretch opens middle events)
    (first : ∀ e, opens e → opens' e) (last : ∀ e, middle e → closes e) :
    ctx.Stretch opens' closes events :=
  ⟨fun e mem => first e (stretch.begins e mem), stretch.linked,
    fun e mem => last e (stretch.ends e mem)⟩

end Stretches

omit [Host σ] in
/-- Only an act is left behind with a value. -/
theorem EndsWith.achieves {v : Value} {e : Event σ} (h : ctx.EndsWith (.ok v) e) : e.Achieves := by
  cases h with
  | achieved done => exact done
  | failed _ _ same => cases same
  | noReader same => cases same
  | noWriter same => cases same
  | noMethod same => cases same
  | refused _ same => cases same

/-- After a value, one goes on. -/
theorem Committed.append {events later : List (Event σ)} {v : Value}
    {answer : Except EvalError Value} (first : ctx.Committed events (.ok v))
    (second : ctx.Committed later answer) : ctx.Committed (events ++ later) answer := by
  refine Stretch.append first second ?_ ?_ ?_
  · intro e e' last asks
    exact .nextAccess last.achieves asks
  · intro _ e asks
    exact asks
  · intro _ e last
    exact .achieved last.achieves

end Context

/-- An act that is noted is all that happens, and its failure is the answer. -/
theorem Performed.stretch [Host σ] {ctx : Context σ} {opens : Event σ → Prop} {name : String}
    {act : HostM σ α} {note : Except AccessError α → Interaction} {value : α → Value} {w w' : σ}
    {events : List (Event σ)} {answer : Except EvalError Value}
    (performed : Performed name act note value w events answer w')
    (performs : ∀ a, (note a).isPerformance = true)
    (succeeds : ∀ a, (note (.ok a)).failure? = none)
    (fails : ∀ x, (note (.error x)).failure? = some (name, x)) (first : ∀ a, opens ⟨w, note a⟩) :
    ctx.Stretch opens (ctx.EndsWith answer) events := by
  cases performed with
  | achieved acted => exact .single (first _) (.achieved ⟨performs _, succeeds _⟩)
  | failed acted reported => exact .single (first _) (.failed (fails _) reported rfl)

/-! ### Questions -/

namespace Question

variable {q : Question σ ρ α} {missing : View → EvalError} {members : List (Nat × ρ)} {w w' : σ}
  {events : List (Event σ)} {found : Except EvalError (Option (Nat × ρ × α))}

/-- Nothing is noted only where nobody is left to be asked. -/
theorem Answered.eq_none_of_nil (asked : q.Answered members w [] found w') :
    found = .ok none := by
  cases asked
  rfl

variable [Host σ] {ctx : Context σ}

/-- What is noted last when a search has found somebody, nobody, or has failed. -/
def Leaves (q : Question σ ρ α) (ctx : Context σ) :
    Except EvalError (Option (Nat × ρ × α)) → Event σ → Prop
  | .ok none, e => ∃ i r, e.interaction = q.note i r (.ok none)
  | .ok (some (i, r, a)), e => e.interaction = q.note i r (.ok (some a))
  | .error x, e => ctx.EndsWith (.error x) e

/-- The question and the answers to it are noted as such. -/
structure Noted (q : Question σ ρ α) (ctx : Context σ) (missing : View → EvalError) : Prop where
  asks : ∀ i r answer, (q.note i r answer).isPerformance = false
  others : ∀ w w' i j r r' answer,
    ctx.LeadsTo ⟨w, q.note i r (.ok none)⟩ ⟨w', q.note j r' answer⟩
  fails : ∀ i r x, (q.note i r (.error x)).failure? = some (q.name r, x)
  nobody : ∀ w i r view, ctx.EndsWith (.error (missing view)) ⟨w, q.note i r (.ok none)⟩

/-- Whoever accepts or fails is the last to be asked. -/
theorem Answered.stretch (noted : q.Noted ctx missing)
    (asked : q.Answered members w events found w') :
    ctx.Stretch q.Poses (q.Leaves ctx found) events := by
  induction asked with
  | byNobody => exact .nil
  | @declined i r rest w w' w'' later answer asked others ih =>
    have first :
        ctx.Stretch q.Poses (· = ⟨w, q.note i r (.ok none)⟩) [⟨w, q.note i r (.ok none)⟩] :=
      .single ⟨i, r, _, rfl⟩ rfl
    refine first.append ih ?_ nofun ?_
    · rintro _ ⟨w₂, _⟩ rfl ⟨j, r', answer', rfl⟩
      exact noted.others w w₂ i j r r' answer'
    · rintro rfl e rfl
      rw [others.eq_none_of_nil]
      exact ⟨i, r, rfl⟩
  | @accepted i r rest w w' a asked => exact .single ⟨i, r, _, rfl⟩ rfl
  | @failed i r rest w w' x x' asked reported =>
    exact .single ⟨i, r, _, rfl⟩ (.failed (noted.fails i r x) reported rfl)

end Question

/-- A pursuit is committed if making use of what is found is. -/
theorem Pursued.committed [Host σ] {ctx : Context σ} {q : Question σ ρ α} {c : Chain ρ}
    {missing : View → EvalError} {use : Nat → ρ → α → Account σ Value} {w w' : σ}
    {events : List (Event σ)} {answer : Except EvalError Value} (noted : q.Noted ctx missing)
    (pursued : Pursued q c missing use w events answer w')
    (used : ∀ {i r a w later answer w'}, use i r a w later answer w' →
      ctx.Stretch (fun e => ∀ w₀, ctx.LeadsTo ⟨w₀, q.note i r (.ok (some a))⟩ e)
        (ctx.EndsWith answer) later)
    (unused : ∀ {i r a w answer w'}, use i r a w [] answer w' →
      ∀ w₀, ctx.EndsWith answer ⟨w₀, q.note i r (.ok (some a))⟩) :
    ctx.Committed events answer := by
  have asks : ∀ e, q.Poses e → e.Asks := by
    rintro ⟨w₀, _⟩ ⟨i, r, answer, rfl⟩
    exact noted.asks i r answer
  cases pursued with
  | missing asked =>
    refine (asked.stretch noted).mono asks ?_
    rintro ⟨w₀, _⟩ ⟨i, r, rfl⟩
    exact noted.nobody w₀ i r _
  | failed asked => exact (asked.stretch noted).mono asks fun e last => last
  | found asked later =>
    refine ((asked.stretch noted).mono asks fun e last => last).append (used later) ?_ ?_ ?_
    · rintro ⟨w₀, _⟩ e rfl follows
      exact follows w₀
    · rintro rfl
      cases asked.eq_none_of_nil
    · rintro rfl ⟨w₀, _⟩ rfl
      exact unused later w₀

namespace Context

variable [Host σ] {ctx : Context σ} {reenter : Reenter σ}

/-- **Every access is committed** to the resolver that accepts it. -/
theorem Accesses.committed {a : Access} {w w' : σ} {events : List (Event σ)}
    {answer : Except EvalError Value} (accessed : ctx.Accesses reenter a w events answer w') :
    ctx.Committed events answer := by
  cases a with
  | read target property =>
    refine Pursued.committed ⟨?_, ?_, ?_, ?_⟩ accessed ?_ ?_
    · intro i r answer
      rfl
    · intro w w' i j r r' answer
      exact .otherReader
    · intro i r x
      rfl
    · intro w i r view
      exact .noReader rfl
    · intro i r a w later answer w' performed
      exact performed.stretch (fun _ => rfl) (fun _ => rfl) (fun _ => rfl) fun _ _ => .read
    · intro i r a w answer w' performed
      cases performed
  | write target property value =>
    refine Pursued.committed ⟨?_, ?_, ?_, ?_⟩ accessed ?_ ?_
    · intro i r answer
      rfl
    · intro w w' i j r r' answer
      exact .otherWriter
    · intro i r x
      rfl
    · intro w i r view
      exact .noWriter rfl
    · intro i r a w later answer w' performed
      exact performed.stretch (fun _ => rfl) (fun _ => rfl) (fun _ => rfl) fun _ _ => .write
    · intro i r a w answer w' performed
      cases performed
  | call target method args =>
    refine Pursued.committed ⟨?_, ?_, ?_, ?_⟩ accessed ?_ ?_
    · intro i r answer
      rfl
    · intro w w' i j r r' answer
      exact .otherMethod
    · intro i r x
      rfl
    · intro w i r view
      exact .noMethod rfl
    · intro i r a w later answer w' called
      cases called with
      | refused _ => exact .nil
      | entered coercion performed =>
        exact performed.stretch (fun _ => rfl) (fun _ => rfl) (fun _ => rfl)
          fun _ _ => .execute coercion
    · intro i r a w answer w' called
      cases called with
      | refused coercion => exact fun _ => .refused coercion rfl
      | entered _ performed => cases performed

/-- **Every task that is conducted by turns is committed.** -/
theorem Conducts.committed {active : Value} {task : Task} {values : List Value} {w w' : σ}
    {events : List (Event σ)} {answer : Except EvalError Value}
    (conducted : ctx.Conducts reenter active task values w events answer w') :
    ctx.Committed events answer := by
  induction conducted with
  | finish next => exact .nil
  | access next accessed => exact accessed.committed
  | visit next visited others first later => exact first.append later
  | fail next visited first => exact first

/-- No failure leads anywhere. -/
theorem LeadsTo.failure_eq_none {e e' : Event σ} (h : ctx.LeadsTo e e') :
    e.interaction.failure? = none := by
  cases h with
  | nextAccess achieved _ => exact achieved.2
  | _ => rfl

omit [Host σ] in
/-- The failure of an event that comes last is the answer. -/
theorem EndsWith.reports_failure {answer : Except EvalError Value} {e : Event σ} {r : String}
    {x : AccessError} (h : ctx.EndsWith answer e) (failure : e.interaction.failure? = some (r, x)) :
    ∃ x', x.ReportedAs r x' ∧ answer = .error x' := by
  cases h with
  | failed failure' reported same =>
    rw [failure] at failure'
    cases failure'
    exact ⟨_, reported, same⟩
  | achieved done =>
    rw [done.2] at failure
    cases failure
  | _ => cases failure

/-- **The first failure of a resolver wins**: nothing comes after it, and it is the answer, as it is
reported. -/
theorem Committed.failure_last {events : List (Event σ)} {answer : Except EvalError Value}
    (committed : ctx.Committed events answer) {e : Event σ} (mem : e ∈ events) {r : String}
    {x : AccessError} (failure : e.interaction.failure? = some (r, x)) :
    events.getLast? = some e ∧ ∃ x', x.ReportedAs r x' ∧ answer = .error x' := by
  obtain ⟨before, after, rfl⟩ := List.append_of_mem mem
  have last : after = [] := by
    cases after with
    | nil => rfl
    | cons e' rest =>
      have linked := (List.isChain_append.mp committed.linked).2.1
      have none := (List.isChain_cons_cons.mp linked).1.failure_eq_none
      rw [failure] at none
      cases none
  subst last
  have at_end : (before ++ [e]).getLast? = some e := List.getLast?_concat
  exact ⟨at_end, (committed.ends e at_end).reports_failure failure⟩

end Context

/-! ### Whole evaluations -/

/-- What happened when a task was carried out from the beginning: the trail is what the task
conducts, what follows what on it is in order, and the failure of a resolver is the last event and,
as it is reported, the result. -/
structure Outcome.CarriesOut [Host σ] (o : Outcome σ α) (ctx : Context σ) (reenter : Reenter σ)
    (task : Task) (world : σ) (value : α → Value) : Prop where
  conducted : ctx.Conducts reenter ctx.root task [] world o.trail.reverse (o.result.map value)
    o.world
  committed : ctx.Committed o.trail.reverse (o.result.map value)
  failure_last : ∀ e ∈ o.trail, ∀ r x, e.interaction.failure? = some (r, x) →
    o.trail.head? = some e ∧ ∃ x', x.ReportedAs r x' ∧ o.result = .error x'

variable [Host σ]

/-- Running a computation that conducts a task carries the task out. -/
theorem Compiled.run_carriesOut {ctx : Context σ} {reenter : Reenter σ} {c : Compiled} {world : σ}
    {act : EvalM σ α} {value : α → Value} {task : Task}
    (follows : (act >>= fun a => pure (value a)).Follows (ctx.Conducts reenter ctx.root task [])
      (c.entry ctx world)) :
    (c.run ctx act world).CarriesOut ctx reenter task world value := by
  have conducted : ctx.Conducts reenter ctx.root task [] world (c.run ctx act world).trail.reverse
      ((c.run ctx act world).result.map value) (c.run ctx act world).world := by
    obtain ⟨events, answer, world', cache, ran, holds⟩ := follows
    show ctx.Conducts reenter ctx.root task [] world
      (act.outcome (c.entry ctx world)).2.trail.reverse
      ((act.outcome (c.entry ctx world)).1.map value) (act.outcome (c.entry ctx world)).2.world
    rw [EvalM.outcome_bind] at ran
    have trail : events.reverse ++ (c.entry ctx world).trail = events.reverse := List.append_nil _
    rw [trail] at ran
    rcases happened : act.outcome (c.entry ctx world) with ⟨result, after⟩
    rw [happened] at ran
    cases result with
    | error e =>
      cases ran
      rw [List.reverse_reverse]
      exact holds
    | ok a =>
      cases ran
      rw [List.reverse_reverse]
      exact holds
  refine ⟨conducted, conducted.committed, fun e mem r x failure => ?_⟩
  obtain ⟨last, x', reported, same⟩ :=
    conducted.committed.failure_last (List.mem_reverse.mpr mem) failure
  rw [List.getLast?_reverse] at last
  refine ⟨last, x', reported, ?_⟩
  cases result : (c.run ctx act world).result with
  | error e => simpa [result, Except.map] using same
  | ok a => simp [result, Except.map] at same

/-- **Commitment, and the first error wins.** Whatever its resolvers do and whatever is remembered,
an evaluation carries out the task of evaluating the expression, and an assignment that of assigning
to it. -/
theorem Compiled.evaluation_committed (ctx : Context σ) (reenter : Reenter σ) (c : Compiled)
    (world : σ) :
    (c.getValue ctx reenter world).CarriesOut ctx reenter (.evaluate c.expr) world id ∧
    ∀ value, (c.setValue ctx reenter value world).CarriesOut ctx reenter (.assign c.expr value)
      world fun _ => value := by
  have byTurns : ctx.EvaluatesByTurns reenter c.expr ∧ ctx.AssignsByTurns reenter c.expr :=
    Context.conducted_by_turns c.expr
  constructor
  · apply Compiled.run_carriesOut
    simp only [id, bind_pure]
    exact byTurns.1 (c.entry ctx world)
  · intro value
    apply Compiled.run_carriesOut
    exact byTurns.2 (c.entry ctx world) (.assign c.expr value) [] value fun view vs => rfl

end HostExpr
