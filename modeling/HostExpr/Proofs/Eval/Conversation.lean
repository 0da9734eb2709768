import HostExpr.Proofs.Chain.Order
import HostExpr.Proofs.Eval.Agreement

/-!
What is said in one access.

An access is a conversation of the evaluator with the resolvers of a chain. They are asked one after
another; whoever accepts performs the access, whatever comes of it, and nobody is asked any more.
`Context.Accesses` says so as a relation between the host's states before and after an access, the
events between them and the answer. It knows nothing of the cache, except that some position may be
tried first. The accesses of a context follow it: `Context.readProperty_follows`,
`Context.writeProperty_follows` and `Context.callMethod_follows`.
-/

namespace HostExpr

variable {σ ρ α β : Type}

/-! ### Computations and their events -/

/-- A relation between the states of the host before and after a computation, the events between
them, the first one first, and the answer. -/
abbrev Account (σ α : Type) := σ → List (Event σ) → Except EvalError α → σ → Prop

namespace EvalM

/-- From a state, a computation notes some events and gives an answer as a relation tells, and
leaves the active objects as they were. -/
def Follows (act : EvalM σ α) (account : Account σ α) (s : EvalState σ) : Prop :=
  ∃ events answer world cache,
    act.outcome s =
      (answer, { world, active := s.active, cache, trail := events.reverse ++ s.trail }) ∧
    account s.world events answer world

variable {account : Account σ α} {s : EvalState σ} {act : EvalM σ α}

theorem Follows.mono {weaker : Account σ α} (h : act.Follows account s)
    (imp : ∀ events answer world, account s.world events answer world →
      weaker s.world events answer world) : act.Follows weaker s := by
  obtain ⟨events, answer, world, cache, ran, holds⟩ := h
  exact ⟨events, answer, world, cache, ran, imp events answer world holds⟩

/-- A computation that changes nothing notes nothing. -/
theorem Follows.of_outcome {answer : Except EvalError α} (ran : act.outcome s = (answer, s))
    (holds : account s.world [] answer s.world) : act.Follows account s :=
  ⟨[], answer, s.world, s.cache, ran, holds⟩

/-- A sequence goes on only after success, and its events are those of both parts. -/
theorem Follows.bind {first : Account σ α} {whole : Account σ β} {f : α → EvalM σ β}
    (h : act.Follows first s)
    (failed : ∀ events e world, first s.world events (.error e) world →
      whole s.world events (.error e) world)
    (next : ∀ events x world, first s.world events (.ok x) world →
      ∀ s' : EvalState σ, s'.world = world → s'.active = s.active →
        (f x).Follows (fun _ later => whole s.world (events ++ later)) s') :
    (act >>= f).Follows whole s := by
  obtain ⟨events, answer, world, cache, ran, holds⟩ := h
  cases answer with
  | error e =>
    exact ⟨events, .error e, world, cache, outcome_bind_of_error ran, failed events e world holds⟩
  | ok x =>
    obtain ⟨later, answer, world', cache', ranNext, holdsNext⟩ :=
      next events x world holds
        { world, active := s.active, cache, trail := events.reverse ++ s.trail } rfl rfl
    refine ⟨events ++ later, answer, world', cache', ?_, holdsNext⟩
    rw [outcome_bind_of_ok ran, ranNext, List.reverse_append, List.append_assoc]

/-- A step that changes nothing may come first. -/
theorem Follows.after {x : α} {account : Account σ β} {f : α → EvalM σ β}
    (ran : act.outcome s = (.ok x, s)) (h : (f x).Follows account s) :
    (act >>= f).Follows account s := by
  obtain ⟨events, answer, world, cache, ranNext, holds⟩ := h
  exact ⟨events, answer, world, cache, by rw [outcome_bind_of_ok ran, ranNext], holds⟩

/-- An active object of its own is of no consequence for what is noted. -/
theorem Follows.withActive {object : Value}
    (h : act.Follows account { s with active := object :: s.active }) :
    (EvalM.withActive object act).Follows account s := by
  obtain ⟨events, answer, world, cache, ran, holds⟩ := h
  refine ⟨events, answer, world, cache, ?_, holds⟩
  rw [outcome_withActive, ran]
  rfl

end EvalM

/-! ### Failures -/

/-- What a failure of a resolver becomes. It is wrapped with the resolver's name, except that a
failure of arity keeps its kind, so that it can be told apart. -/
inductive AccessError.ReportedAs (resolver : String) : AccessError → EvalError → Prop where
  | wrapped {message : String} {causes : List String} :
      ReportedAs resolver (.failed message causes)
        (.resolverAccess resolver (.failed message causes))
  | arity {name expected : String} {supplied : Nat} :
      ReportedAs resolver (.arityMismatch name expected supplied)
        (.arityMismatch name expected supplied)

theorem AccessError.reportedAs_ofAccess (resolver : String) (e : AccessError) :
    e.ReportedAs resolver (.ofAccess resolver e) := by
  cases e with
  | failed message causes => exact .wrapped
  | arityMismatch name expected supplied => exact .arity

/-! ### Asking -/

structure Question (σ ρ α : Type) where
  name : ρ → String
  ask : ρ → HostM σ (Option α)
  note : Nat → ρ → Except AccessError (Option α) → Interaction

namespace Question

variable {q : Question σ ρ α} {query : Nat → ρ → EvalM σ (Option α)}

/-- The question is put to one after another until one accepts or fails. -/
inductive Answered (q : Question σ ρ α) :
    List (Nat × ρ) → Account σ (Option (Nat × ρ × α)) where
  | byNobody {w : σ} : q.Answered [] w [] (.ok none) w
  | declined {i : Nat} {r : ρ} {rest : List (Nat × ρ)} {w w' w'' : σ} {events : List (Event σ)}
      {answer : Except EvalError (Option (Nat × ρ × α))}
      (asked : (q.ask r).run.run w = (.ok none, w'))
      (others : q.Answered rest w' events answer w'') :
      q.Answered ((i, r) :: rest) w (⟨w, q.note i r (.ok none)⟩ :: events) answer w''
  | accepted {i : Nat} {r : ρ} {rest : List (Nat × ρ)} {w w' : σ} {found : α}
      (asked : (q.ask r).run.run w = (.ok (some found), w')) :
      q.Answered ((i, r) :: rest) w [⟨w, q.note i r (.ok (some found))⟩]
        (.ok (some (i, r, found))) w'
  | failed {i : Nat} {r : ρ} {rest : List (Nat × ρ)} {w w' : σ} {e : AccessError} {x : EvalError}
      (asked : (q.ask r).run.run w = (.error e, w')) (reported : e.ReportedAs (q.name r) x) :
      q.Answered ((i, r) :: rest) w [⟨w, q.note i r (.error e)⟩] (.error x) w'

def Poses (q : Question σ ρ α) (e : Event σ) : Prop :=
  ∃ i r answer, e.interaction = q.note i r answer

/-- All that is noted of a search is the question. -/
theorem Answered.poses {members : List (Nat × ρ)} {w w' : σ} {events : List (Event σ)}
    {found : Except EvalError (Option (Nat × ρ × α))} (asked : q.Answered members w events found w') :
    ∀ e ∈ events, q.Poses e := by
  induction asked with
  | byNobody => exact fun e mem => by cases mem
  | declined _ _ ih =>
    refine fun e mem => (List.mem_cons.mp mem).elim ?_ (ih e)
    rintro rfl
    exact ⟨_, _, _, rfl⟩
  | accepted _ =>
    intro e mem
    obtain rfl := List.mem_singleton.mp mem
    exact ⟨_, _, _, rfl⟩
  | failed _ _ =>
    intro e mem
    obtain rfl := List.mem_singleton.mp mem
    exact ⟨_, _, _, rfl⟩

/-- A query of the evaluator puts the question and notes it. -/
def PosedBy (q : Question σ ρ α) (query : Nat → ρ → EvalM σ (Option α)) : Prop :=
  ∀ i r (s : EvalState σ), (query i r).outcome s =
    (((q.ask r).run.run s.world).1.mapError (.ofAccess (q.name r)),
      { s with
        world := ((q.ask r).run.run s.world).2
        trail := ⟨s.world, q.note i r ((q.ask r).run.run s.world).1⟩ :: s.trail })

/-- Searching is asking one after another. -/
theorem PosedBy.firstMatch_follows (posed : q.PosedBy query) (members : List (Nat × ρ))
    (s : EvalState σ) : (Chain.firstMatch query members).Follows (q.Answered members) s := by
  induction members generalizing s with
  | nil => exact .of_outcome rfl .byNobody
  | cons member rest ih =>
    obtain ⟨i, r⟩ := member
    rw [Chain.firstMatch]
    have first := posed i r s
    rcases asked : (q.ask r).run.run s.world with ⟨answer, w⟩
    rw [asked] at first
    cases answer with
    | error e =>
      exact ⟨[⟨s.world, q.note i r (.error e)⟩], .error (.ofAccess (q.name r) e), w, s.cache,
        EvalM.outcome_bind_of_error first, .failed asked (e.reportedAs_ofAccess (q.name r))⟩
    | ok found =>
      cases found with
      | some a =>
        exact ⟨[⟨s.world, q.note i r (.ok (some a))⟩], .ok (some (i, r, a)), w, s.cache,
          EvalM.outcome_bind_of_ok first, .accepted asked⟩
      | none =>
        obtain ⟨events, answer, w', cache, ran, others⟩ := ih
          { s with world := w, trail := ⟨s.world, q.note i r (.ok none)⟩ :: s.trail }
        refine ⟨_, answer, w', cache, ?_, .declined asked others⟩
        rw [EvalM.outcome_bind_of_ok first]
        simp [ran]

end Question

/-! ### Accesses -/

inductive Access where
  | read (target : Value) (property : String)
  | write (target : Value) (property : String) (value : Value)
  | call (target : Value) (method : String) (args : List Value)

/-- An act of a resolver, with the one event that notes it. -/
inductive Performed (name : String) (act : HostM σ α) (note : Except AccessError α → Interaction)
    (value : α → Value) : Account σ Value where
  | achieved {w w' : σ} {a : α} (acted : act.run.run w = (.ok a, w')) :
      Performed name act note value w [⟨w, note (.ok a)⟩] (.ok (value a)) w'
  | failed {w w' : σ} {e : AccessError} {x : EvalError} (acted : act.run.run w = (.error e, w'))
      (reported : e.ReportedAs name x) :
      Performed name act note value w [⟨w, note (.error e)⟩] (.error x) w'

/-- One event is noted, whatever comes of the act. -/
theorem Performed.noted {name : String} {act : HostM σ α}
    {note : Except AccessError α → Interaction} {value : α → Value} {w w' : σ}
    {events : List (Event σ)} {answer : Except EvalError Value}
    (performed : Performed name act note value w events answer w') :
    ∃ acted, act.run.run w = (acted, w') ∧ events = [⟨w, note acted⟩] := by
  cases performed with
  | achieved acted => exact ⟨_, acted, rfl⟩
  | failed acted _ => exact ⟨_, acted, rfl⟩

/-- Somebody is sought in a chain, in its order or with some position first, and what is found is
made use of. -/
inductive Pursued [Host σ] (q : Question σ ρ α) (c : Chain ρ) (missing : View → EvalError)
    (use : Nat → ρ → α → Account σ Value) : Account σ Value where
  | missing {hint : Option Nat} {w w' : σ} {events : List (Event σ)}
      (asked : q.Answered (c.queryOrder hint) w events (.ok none) w') :
      Pursued q c missing use w events (.error (missing (Host.view w'))) w'
  | failed {hint : Option Nat} {w w' : σ} {events : List (Event σ)} {e : EvalError}
      (asked : q.Answered (c.queryOrder hint) w events (.error e) w') :
      Pursued q c missing use w events (.error e) w'
  | found {hint : Option Nat} {w w' w'' : σ} {events later : List (Event σ)} {i : Nat} {r : ρ}
      {a : α} {answer : Except EvalError Value}
      (asked : q.Answered (c.queryOrder hint) w events (.ok (some (i, r, a))) w')
      (used : use i r a w' later answer w'') :
      Pursued q c missing use w (events ++ later) answer w''

theorem Performed.all_noted {name : String} {act : HostM σ α}
    {note : Except AccessError α → Interaction} {value : α → Value} {w w' : σ}
    {events : List (Event σ)} {answer : Except EvalError Value} {holds : Event σ → Prop}
    (performed : Performed name act note value w events answer w')
    (acts : ∀ acted, holds ⟨w, note acted⟩) : ∀ e ∈ events, holds e := by
  obtain ⟨acted, -, rfl⟩ := performed.noted
  exact List.forall_mem_singleton.mpr (acts acted)

/-- All that is noted of a pursuit is the question, and what use is made of what is found. -/
theorem Pursued.all_noted [Host σ] {q : Question σ ρ α} {c : Chain ρ} {missing : View → EvalError}
    {use : Nat → ρ → α → Account σ Value} {w w' : σ} {events : List (Event σ)}
    {answer : Except EvalError Value} {holds : Event σ → Prop}
    (pursued : Pursued q c missing use w events answer w')
    (asks : ∀ w i r answer, holds ⟨w, q.note i r answer⟩)
    (uses : ∀ {i r a w later answer w'}, use i r a w later answer w' → ∀ e ∈ later, holds e) :
    ∀ e ∈ events, holds e := by
  have posed : ∀ e, q.Poses e → holds e := by
    rintro ⟨w, _⟩ ⟨i, r, answer, rfl⟩
    exact asks w i r answer
  cases pursued with
  | missing asked => exact fun e mem => posed e (asked.poses e mem)
  | failed asked => exact fun e mem => posed e (asked.poses e mem)
  | found asked used =>
    intro e mem
    rcases List.mem_append.mp mem with before | later
    · exact posed e (asked.poses e before)
    · exact uses used e later

namespace Context

variable [Host σ] (ctx : Context σ) (reenter : Reenter σ)

def readQuestion (target : Value) (property : String) : Question σ (PropertyResolver σ) Unit where
  name r := r.name
  ask r := do return if ← r.canRead (ctx.environment reenter) target property then some () else none
  note i r answer := .canRead i r.name target property (answer.map (·.isSome))

def writeQuestion (target : Value) (property : String) : Question σ (PropertyResolver σ) Unit where
  name r := r.name
  ask r := do
    return if ← r.canWrite (ctx.environment reenter) target property then some () else none
  note i r answer := .canWrite i r.name target property (answer.map (·.isSome))

def callQuestion (target : Value) (method : String) (argTypes : List ValueType) :
    Question σ (MethodResolver σ) (Executor σ) where
  name r := r.name
  ask r := r.resolve (ctx.environment reenter) target method argTypes
  note i r answer := .resolve i r.name target method argTypes
    (answer.map fun found => found.map (·.signature))

/-- The arguments as an executor of a signature receives them. -/
def coerced (view : View) (method : String) (signature : Option Signature) (args : List Value) :
    Except EvalError (List Value) :=
  match signature with
  | none => .ok args
  | some s => ctx.converter.convertArguments view method s args

/-- A method that was found is entered with coerced arguments, or not at all. -/
inductive Called (target : Value) (method : String) (args : List Value) (i : Nat)
    (r : MethodResolver σ) (executor : Executor σ) : Account σ Value where
  | refused {w : σ} {e : EvalError}
      (coercion : ctx.coerced (Host.view w) method executor.signature args = .error e) :
      Called target method args i r executor w [] (.error e) w
  | entered {w w' : σ} {events : List (Event σ)} {answer : Except EvalError Value}
      {prepared : List Value}
      (coercion : ctx.coerced (Host.view w) method executor.signature args = .ok prepared)
      (performed : Performed r.name
        (executor.execute (ctx.environment reenter) target prepared)
        (.execute i r.name target method executor.signature prepared) id w events answer w') :
      Called target method args i r executor w events answer w'

/-- What an access does. A write that succeeds answers with what was written. -/
def Accesses : Access → Account σ Value
  | .read target property =>
    Pursued (ctx.readQuestion reenter target property) ctx.properties
      (fun view => .unresolvedProperty property (target.valueType view))
      fun i r _ => Performed r.name (r.read (ctx.environment reenter) target property)
        (.read i r.name target property) id
  | .write target property value =>
    Pursued (ctx.writeQuestion reenter target property) ctx.properties
      (fun view => .unwritableProperty property (target.valueType view))
      fun i r _ => Performed r.name (r.write (ctx.environment reenter) target property value)
        (.write i r.name target property value) fun _ => value
  | .call target method args => fun w =>
    let argTypes := args.map (Value.valueType (Host.view w))
    Pursued (ctx.callQuestion reenter target method argTypes) ctx.methods
      (fun view => .unresolvedMethod method (target.valueType view) argTypes)
      (ctx.Called reenter target method args) w

end Context

/-! ### The accesses of a context -/

section Steps

variable {s : EvalState σ}

/-- An act of a resolver is performed as it is noted. -/
theorem EvalM.perform_follows (name : String) (act : HostM σ α)
    (note : Except AccessError α → Interaction) (value : α → Value) {f : α → EvalM σ Value}
    (gives : ∀ a, f a = pure (value a)) :
    (EvalM.perform name act note >>= f).Follows (Performed name act note value) s := by
  have ran := EvalM.outcome_perform name act note s
  rcases acted : act.run.run s.world with ⟨answer, w⟩
  rw [acted] at ran
  cases answer with
  | error e =>
    exact ⟨[⟨s.world, note (.error e)⟩], .error (.ofAccess name e), w, s.cache,
      EvalM.outcome_bind_of_error ran, .failed acted (e.reportedAs_ofAccess name)⟩
  | ok a =>
    refine ⟨[⟨s.world, note (.ok a)⟩], .ok (value a), w, s.cache, ?_, .achieved acted⟩
    rw [EvalM.outcome_bind_of_ok ran, gives a]
    rfl

/-- Locating somebody asks the resolvers in their order, or with a remembered position first. -/
theorem Context.locate_follows {account : Option Nat → Account σ (Option (Nat × β))}
    {key : CacheKey} {g : Generation} {find : Option Nat → EvalM σ (Option (Nat × β))}
    (found : ∀ hint, (find hint).Follows (account hint) s) :
    (locate key g find).Follows (fun w events answer w' => ∃ hint, account hint w events answer w')
      s := by
  obtain ⟨events, answer, world, cache, ran, holds⟩ := found (s.cache.bind fun c => c.lookup key g)
  rw [locate]
  apply EvalM.Follows.after (EvalM.outcome_hintFor key g s)
  cases answer with
  | error e =>
    exact ⟨events, .error e, world, cache, EvalM.outcome_bind_of_error ran, _, holds⟩
  | ok located =>
    cases located with
    | none =>
      refine ⟨events, .ok none, world, cache, ?_, _, holds⟩
      rw [EvalM.outcome_bind_of_ok ran]
      rfl
    | some entry =>
      refine ⟨events, .ok (some entry), world, cache.map fun c => c.record key g entry.1, ?_, _,
        holds⟩
      rw [EvalM.outcome_bind_of_ok ran]
      rfl

/-- A question about an ability is put and noted. -/
theorem Question.posedBy_ability {q : Question σ (PropertyResolver σ) Unit}
    {can : PropertyResolver σ → HostM σ Bool}
    {note : Nat → PropertyResolver σ → Except AccessError Bool → Interaction}
    (name : ∀ r, q.name r = r.name)
    (ask : ∀ r, q.ask r = (do return if ← can r then some () else none))
    (notes : ∀ i r answer, q.note i r answer = note i r (answer.map (·.isSome))) :
    q.PosedBy fun i r => do
      let able ← EvalM.perform r.name (can r) (note i r)
      return if able then some () else none := by
  intro i r s
  have asked : (q.ask r).run.run s.world =
      (((can r).run.run s.world).1.map fun able => if able then some () else none,
        ((can r).run.run s.world).2) := by
    rw [ask r]
    show (can r >>= fun able => pure (if able then some () else none)) s.world = _
    simp only [bind, ExceptT.bind, ExceptT.mk, StateT.bind, ExceptT.run, StateT.run]
    rcases (can r) s.world with ⟨answer, w⟩
    cases answer <;> rfl
  rw [asked, name r, notes i r, EvalM.outcome_bind, EvalM.outcome_perform]
  rcases (can r).run.run s.world with ⟨answer, w⟩
  cases answer with
  | error e => rfl
  | ok able => cases able <;> rfl

/-- The found member of a chain, but for what is known of it. -/
theorem Question.PosedBy.search_follows {q : Question σ ρ α}
    {query : Nat → ρ → EvalM σ (Option α)} (posed : q.PosedBy query) (c : Chain ρ)
    (hint : Option Nat) (view : ρ × α → β) {f : Option (Nat × ρ × α) → EvalM σ (Option (Nat × β))}
    (gives : ∀ found, f found = pure (found.map fun e => (e.1, view e.2))) :
    (c.search hint query >>= f).Follows
      (fun w events answer w' => ∃ found, q.Answered (c.queryOrder hint) w events found w' ∧
        answer = found.map fun o => o.map fun e => (e.1, view e.2)) s := by
  obtain ⟨events, answer, world, cache, ran, answered⟩ :=
    posed.firstMatch_follows (c.queryOrder hint) s
  refine ⟨events, _, world, cache, ?_, answer, answered, rfl⟩
  rw [← Chain.search_eq_firstMatch] at ran
  cases answer with
  | error e => rw [EvalM.outcome_bind_of_error ran]; rfl
  | ok found => rw [EvalM.outcome_bind_of_ok ran, gives found]; rfl

variable [Host σ]

/-- Locating somebody and making use of who was found is a pursuit. -/
theorem Pursued.locate_follows {q : Question σ ρ α} {c : Chain ρ} {missing : View → EvalError}
    {use : Nat → ρ → α → Account σ Value} {key : CacheKey} {g : Generation} (view : ρ × α → β)
    {find : Option Nat → EvalM σ (Option (Nat × β))} {k : Option (Nat × β) → EvalM σ Value}
    (found : ∀ hint, (find hint).Follows
      (fun w events answer w' => ∃ found, q.Answered (c.queryOrder hint) w events found w' ∧
        answer = found.map fun o => o.map fun e => (e.1, view e.2)) s)
    (absent : ∀ s : EvalState σ,
      (k none).outcome s = (.error (missing (Host.view s.world)), s))
    (used : ∀ i r a s, (k (some (i, view (r, a)))).Follows (use i r a) s) :
    (Context.locate key g find >>= k).Follows (Pursued q c missing use) s := by
  refine (Context.locate_follows found).bind ?_ ?_
  · rintro events e world ⟨hint, answer, asked, same⟩
    cases answer with
    | ok o => cases same
    | error e' =>
      cases same
      exact .failed asked
  · rintro events located world ⟨hint, answer, asked, same⟩ s' rfl _
    cases answer with
    | error e => cases same
    | ok o =>
      cases o with
      | none =>
        cases same
        refine .of_outcome (absent s') ?_
        rw [List.append_nil]
        exact .missing asked
      | some entry =>
        obtain ⟨i, r, a⟩ := entry
        cases same
        exact (used i r a s').mono fun later answer world' holds => .found asked holds

end Steps

namespace Context

theorem readQuestion_posedBy (ctx : Context σ) (reenter : Reenter σ) (target : Value)
    (property : String) :
    (ctx.readQuestion reenter target property).PosedBy (ctx.askReader reenter target property) :=
  Question.posedBy_ability (fun _ => rfl) (fun _ => rfl) fun _ _ _ => rfl

theorem writeQuestion_posedBy (ctx : Context σ) (reenter : Reenter σ) (target : Value)
    (property : String) :
    (ctx.writeQuestion reenter target property).PosedBy (ctx.askWriter reenter target property) :=
  Question.posedBy_ability (fun _ => rfl) (fun _ => rfl) fun _ _ _ => rfl

theorem callQuestion_posedBy (ctx : Context σ) (reenter : Reenter σ) (target : Value)
    (method : String) (argTypes : List ValueType) :
    (ctx.callQuestion reenter target method argTypes).PosedBy
      (ctx.askMethod reenter target method argTypes) :=
  fun _ _ _ => rfl

variable [Host σ] {ctx : Context σ} {reenter : Reenter σ} {s : EvalState σ}

/-- Preparing arguments coerces them. -/
theorem outcome_prepareArguments_eq (method : String) (signature : Option Signature)
    (args : List Value) (s : EvalState σ) :
    (ctx.prepareArguments method signature args).outcome s =
      (ctx.coerced (Host.view s.world) method signature args, s) := by
  cases signature with
  | none => rfl
  | some signature =>
    rw [prepareArguments, EvalM.outcome_bind_of_ok (EvalM.outcome_view s), EvalM.outcome_ofExcept]
    rfl

/-- **Reading a property** is the access of that kind. -/
theorem readProperty_follows (node : NodeId) (property : String) (target : Value) :
    (ctx.readProperty reenter node property target).Follows
      (ctx.Accesses reenter (.read target property)) s := by
  rw [readProperty]
  apply EvalM.Follows.after (EvalM.outcome_view s)
  refine Pursued.locate_follows (fun e => e.1) (fun hint => ?_) (fun s' => ?_)
    fun i r a s' => ?_
  · exact (ctx.readQuestion_posedBy reenter target property).search_follows ctx.properties hint _
      fun found => rfl
  · rfl
  · dsimp only
    rw [← bind_pure (EvalM.perform _ _ _)]
    exact EvalM.perform_follows _ _ _ id fun _ => rfl

/-- **Writing a property** is the access of that kind. -/
theorem writeProperty_follows (node : NodeId) (property : String) (target value : Value)
    {f : Unit → EvalM σ Value} (gives : ∀ u, f u = pure value) :
    (ctx.writeProperty reenter node property target value >>= f).Follows
      (ctx.Accesses reenter (.write target property value)) s := by
  rw [writeProperty, bind_assoc]
  apply EvalM.Follows.after (EvalM.outcome_view s)
  rw [bind_assoc]
  refine Pursued.locate_follows (fun e => e.1) (fun hint => ?_) (fun s' => ?_)
    fun i r a s' => ?_
  · exact (ctx.writeQuestion_posedBy reenter target property).search_follows ctx.properties hint _
      fun found => rfl
  · rfl
  · exact EvalM.perform_follows _ _ _ (fun _ => value) gives

/-- **Calling a method** is the access of that kind. -/
theorem callMethod_follows (node : NodeId) (method : String) (target : Value) (args : List Value) :
    (ctx.callMethod reenter node method target args).Follows
      (ctx.Accesses reenter (.call target method args)) s := by
  let argTypes := args.map (Value.valueType (Host.view s.world))
  rw [callMethod]
  apply EvalM.Follows.after (EvalM.outcome_view s)
  show EvalM.Follows _ (Pursued (ctx.callQuestion reenter target method argTypes) ctx.methods
    (fun view => .unresolvedMethod method (target.valueType view) argTypes)
    (ctx.Called reenter target method args)) s
  refine Pursued.locate_follows id (fun hint => ?_) (fun s' => ?_) fun i r a s' => ?_
  · rw [← bind_pure (ctx.findMethod _ _ _ _ _)]
    refine (ctx.callQuestion_posedBy reenter target method argTypes).search_follows ctx.methods
      hint id fun found => ?_
    cases found <;> rfl
  · rfl
  · have prepared : (ctx.prepareArguments method a.signature args).outcome s' = _ :=
      outcome_prepareArguments_eq method a.signature args s'
    cases coercion : ctx.coerced (Host.view s'.world) method a.signature args with
    | error e =>
      rw [coercion] at prepared
      exact .of_outcome (EvalM.outcome_bind_of_error prepared) (.refused coercion)
    | ok values =>
      rw [coercion] at prepared
      apply EvalM.Follows.after prepared
      rw [← bind_pure (EvalM.perform _ _ _)]
      exact (EvalM.perform_follows _ _ _ id fun _ => rfl).mono
        fun events answer world performed => .entered coercion performed

end Context

end HostExpr
