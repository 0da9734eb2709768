import HostExpr.Proofs.Eval.Conversation

/-!
Searches and what the members of a chain would say.

Suppose that all members of a chain are asked in turn, whatever they answer: `Question.poll`. A
search asks the same of the same members in the same states, but stops at the first one that does
not decline, and answers what that one said (`Question.PosedBy.outcome_firstMatch`). So the searches
of a context are known from the polls of its chains: `Context.searches_in_order`.
-/

namespace HostExpr

variable {σ ρ α β : Type}

/-- A member of a chain that was asked, with the state of the host in which it was asked, its answer
and the state that it left. -/
structure Polled (σ ρ α : Type) where
  index : Nat
  member : ρ
  before : σ
  answer : Except AccessError (Option α)
  after : σ

namespace Polled

/-- Whether the search goes on after this answer. -/
def declines (p : Polled σ ρ α) : Bool :=
  match p.answer with
  | .ok none => true
  | _ => false

def event (q : Question σ ρ α) (p : Polled σ ρ α) : Event σ :=
  ⟨p.before, q.note p.index p.member p.answer⟩

/-- What comes of a search that ends here. A failure is given the name of the member, but for a
failure of arity, which keeps its kind. -/
def verdict (q : Question σ ρ α) (p : Polled σ ρ α) : Except EvalError (Option (Nat × ρ × α)) :=
  match p.answer with
  | .ok found => .ok (found.map fun a => (p.index, p.member, a))
  | .error (.failed message causes) =>
    .error (.resolverAccess (q.name p.member) (.failed message causes))
  | .error (.arityMismatch name expected supplied) =>
    .error (.arityMismatch name expected supplied)

theorem verdict_of_error {q : Question σ ρ α} {p : Polled σ ρ α} {e : AccessError}
    (failed : p.answer = .error e) : p.verdict q = .error (.ofAccess (q.name p.member) e) := by
  rw [verdict, failed]
  cases e <;> rfl

end Polled

namespace Question

variable (q : Question σ ρ α)

/-- The answers of all members when they are asked in turn, whatever they answer. -/
def poll : List (Nat × ρ) → σ → List (Polled σ ρ α)
  | [], _ => []
  | (i, r) :: rest, w =>
    let (answer, w') := (q.ask r).run.run w
    ⟨i, r, w, answer, w'⟩ :: poll rest w'

/-- Those who are asked in a search: all before the first that does not decline, and that one. -/
def asked (members : List (Nat × ρ)) (w : σ) : List (Polled σ ρ α) :=
  (q.poll members w).takeWhile (·.declines) ++ ((q.poll members w).find? (!·.declines)).toList

/-- What comes of a search: what the first says that does not decline, and nothing without any. -/
def verdict (members : List (Nat × ρ)) (w : σ) : Except EvalError (Option (Nat × ρ × α)) :=
  match (q.poll members w).find? (!·.declines) with
  | some p => p.verdict q
  | none => .ok none

/-- The state after a search: the host's is as the last one left it who was asked, and all who were
asked are noted. -/
def afterwards (members : List (Nat × ρ)) (s : EvalState σ) : EvalState σ :=
  { s with
    world := ((q.asked members s.world).getLast?.map (·.after)).getD s.world
    trail := ((q.asked members s.world).map (Polled.event q)).reverse ++ s.trail }

variable {q} {members rest : List (Nat × ρ)} {i : Nat} {r : ρ} {w w' : σ}

theorem poll_cons {answer : Except AccessError (Option α)}
    (ran : (q.ask r).run.run w = (answer, w')) :
    q.poll ((i, r) :: rest) w = ⟨i, r, w, answer, w'⟩ :: q.poll rest w' := by
  rw [poll, ran]

/-- Everybody is polled. -/
theorem map_poll (members : List (Nat × ρ)) (w : σ) :
    (q.poll members w).map (fun p => (p.index, p.member)) = members := by
  induction members generalizing w with
  | nil => rfl
  | cons e rest ih => rw [poll_cons rfl, List.map_cons, ih]

/-- Whoever is polled answers in the state that those before leave. -/
theorem asked_of_mem_poll {p : Polled σ ρ α} (h : p ∈ q.poll members w) :
    (q.ask p.member).run.run p.before = (p.answer, p.after) := by
  induction members generalizing w with
  | nil => cases h
  | cons e rest ih =>
    rw [poll_cons rfl] at h
    rcases List.mem_cons.mp h with rfl | later
    · rfl
    · exact ih later

/-- Those who are asked are the first of a poll. -/
theorem asked_prefix (members : List (Nat × ρ)) (w : σ) :
    q.asked members w <+: q.poll members w := by
  unfold asked
  induction q.poll members w with
  | nil => exact List.prefix_rfl
  | cons p rest ih =>
    cases declines : p.declines with
    | true => simpa [declines] using ih
    | false => simp [declines]

/-- After a member that declines the search goes on. -/
theorem asked_cons_of_declined (ran : (q.ask r).run.run w = (.ok none, w')) :
    q.asked ((i, r) :: rest) w = ⟨i, r, w, .ok none, w'⟩ :: q.asked rest w' := by
  rw [asked, poll_cons ran]
  rfl

theorem verdict_cons_of_declined (ran : (q.ask r).run.run w = (.ok none, w')) :
    q.verdict ((i, r) :: rest) w = q.verdict rest w' := by
  rw [verdict, poll_cons ran]
  rfl

/-- A member that does not decline ends the search. -/
theorem asked_cons_of_decided {answer : Except AccessError (Option α)}
    (ran : (q.ask r).run.run w = (answer, w')) (decided : answer ≠ .ok none) :
    q.asked ((i, r) :: rest) w = [⟨i, r, w, answer, w'⟩] := by
  rw [asked, poll_cons ran]
  rcases answer with e | _ | a
  · rfl
  · contradiction
  · rfl

theorem verdict_cons_of_decided {answer : Except AccessError (Option α)}
    (ran : (q.ask r).run.run w = (answer, w')) (decided : answer ≠ .ok none) :
    q.verdict ((i, r) :: rest) w = Polled.verdict q ⟨i, r, w, answer, w'⟩ := by
  rw [verdict, poll_cons ran]
  rcases answer with e | _ | a
  · rfl
  · contradiction
  · rfl

theorem afterwards_cons_of_declined {s : EvalState σ}
    (ran : (q.ask r).run.run s.world = (.ok none, w')) :
    q.afterwards ((i, r) :: rest) s = q.afterwards rest
      { s with world := w', trail := ⟨s.world, q.note i r (.ok none)⟩ :: s.trail } := by
  have world (l : List (Polled σ ρ α)) (p : Polled σ ρ α) :
      ((p :: l).getLast?.map (·.after)).getD s.world = (l.getLast?.map (·.after)).getD p.after := by
    rw [List.getLast?_cons]
    cases l.getLast? <;> rfl
  simp [afterwards, asked_cons_of_declined ran, world, Polled.event]

theorem afterwards_cons_of_decided {answer : Except AccessError (Option α)} {s : EvalState σ}
    (ran : (q.ask r).run.run s.world = (answer, w')) (decided : answer ≠ .ok none) :
    q.afterwards ((i, r) :: rest) s =
      { s with world := w', trail := ⟨s.world, q.note i r answer⟩ :: s.trail } := by
  simp [afterwards, asked_cons_of_decided ran decided, Polled.event]

/-- Nothing is found and nothing fails exactly if everybody declines. -/
theorem verdict_eq_none_iff (members : List (Nat × ρ)) (w : σ) :
    q.verdict members w = .ok none ↔ ∀ p ∈ q.poll members w, p.declines := by
  unfold verdict
  cases first : (q.poll members w).find? (!·.declines) with
  | none => simpa using first
  | some p =>
    have decides := List.find?_some first
    refine ⟨fun nothing => ?_, fun all => ?_⟩
    · rcases p with ⟨i, r, before, e | _ | a, after⟩
      · cases (Polled.verdict_of_error rfl).symm.trans nothing
      · cases decides
      · cases nothing
    · rw [all p (List.mem_of_find?_eq_some first)] at decides
      cases decides

/-- **A search asks no further than the first member that does not decline.** -/
theorem PosedBy.outcome_firstMatch {query : Nat → ρ → EvalM σ (Option α)} (posed : q.PosedBy query)
    (members : List (Nat × ρ)) (s : EvalState σ) :
    (Chain.firstMatch query members).outcome s =
      (q.verdict members s.world, q.afterwards members s) := by
  induction members generalizing s with
  | nil => rfl
  | cons member rest ih =>
    obtain ⟨i, r⟩ := member
    rw [Chain.firstMatch]
    have first := posed i r s
    rcases ran : (q.ask r).run.run s.world with ⟨answer, w⟩
    rw [ran] at first
    rcases answer with e | _ | a
    · rw [verdict_cons_of_decided ran (by simp), afterwards_cons_of_decided ran (by simp),
        Polled.verdict_of_error rfl]
      exact EvalM.outcome_bind_of_error first
    · rw [verdict_cons_of_declined ran, afterwards_cons_of_declined ran,
        EvalM.outcome_bind_of_ok first]
      exact ih _
    · rw [verdict_cons_of_decided ran (by simp), afterwards_cons_of_decided ran (by simp)]
      exact EvalM.outcome_bind_of_ok first

/-- What a search makes of a question to members that are asked in some order, where `view` is what
it tells of the member that accepts. -/
structure SearchedBy (q : Question σ ρ α) (members : List (Nat × ρ)) (view : ρ × α → β)
    (find : EvalM σ (Option (Nat × β))) (s : EvalState σ) : Prop where
  /-- It ends with the first member that does not decline. -/
  outcome : find.outcome s =
    ((q.verdict members s.world).map fun found => found.map fun e => (e.1, view e.2),
      q.afterwards members s)
  /-- The members are asked in their order, -/
  inOrder : (q.asked members s.world).map (fun p => (p.index, p.member)) <+: members
  /-- no position twice, -/
  once : ((q.asked members s.world).map (·.index)).Nodup
  /-- and each answers by itself, in the state that those before it leave. -/
  answered : ∀ p ∈ q.asked members s.world,
    (q.ask p.member).run.run p.before = (p.answer, p.after)
  /-- Nobody is found exactly if everybody would decline. -/
  nobody : (find.outcome s).1 = .ok none ↔ ∀ p ∈ q.poll members s.world, p.declines

/-- A search of a chain is known from the poll of the chain in query order. -/
theorem PosedBy.searchedBy {query : Nat → ρ → EvalM σ (Option α)} (posed : q.PosedBy query)
    (c : Chain ρ) (hint : Option Nat) (view : ρ × α → β)
    {f : Option (Nat × ρ × α) → EvalM σ (Option (Nat × β))}
    (gives : ∀ found, f found = pure (found.map fun e => (e.1, view e.2))) (s : EvalState σ) :
    q.SearchedBy (c.queryOrder hint) view (c.search hint query >>= f) s := by
  have ran := posed.outcome_firstMatch (c.queryOrder hint) s
  rw [← Chain.search_eq_firstMatch] at ran
  have outcome : (c.search hint query >>= f).outcome s =
      ((q.verdict (c.queryOrder hint) s.world).map fun found => found.map fun e => (e.1, view e.2),
        q.afterwards (c.queryOrder hint) s) := by
    rw [EvalM.outcome_bind, ran]
    cases q.verdict (c.queryOrder hint) s.world with
    | error e => rfl
    | ok found =>
      dsimp only
      rw [gives found]
      rfl
  have asked := q.asked_prefix (c.queryOrder hint) s.world
  have inOrder := asked.map fun p => (p.index, p.member)
  rw [map_poll] at inOrder
  refine ⟨outcome, inOrder, ?_, fun p mem => asked_of_mem_poll (asked.mem mem), ?_⟩
  · have distinct := (inOrder.map Prod.fst).sublist.nodup (c.queryOrder_inQueryOrder hint).once
    rwa [List.map_map] at distinct
  · rw [outcome, ← verdict_eq_none_iff]
    rcases q.verdict (c.queryOrder hint) s.world with e | _ | found <;> simp [Except.map]

end Question

namespace Context

/-- **The search law.** With or without a hint, at a member or beyond the chain, all members are put
in an order: the hinted one first, if there is one, and the others by position. Whoever looks for a
reader, a writer or a method asks them in that order, nobody twice, stops at the first one that does
not decline and answers with its position and what it said. A failure is given the name of the
member, but for a failure of arity, which keeps its kind. Nobody is found exactly if everybody
declines. -/
theorem searches_in_order (ctx : Context σ) (reenter : Reenter σ) (hint : Option Nat) :
    (ctx.properties.InQueryOrder hint (ctx.properties.queryOrder hint) ∧
      ctx.methods.InQueryOrder hint (ctx.methods.queryOrder hint)) ∧
    ∀ (target : Value) (name : String) (s : EvalState σ),
      (ctx.readQuestion reenter target name).SearchedBy (ctx.properties.queryOrder hint) Prod.fst
        (ctx.findReader reenter target name hint) s ∧
      (ctx.writeQuestion reenter target name).SearchedBy (ctx.properties.queryOrder hint) Prod.fst
        (ctx.findWriter reenter target name hint) s ∧
      ∀ argTypes,
        (ctx.callQuestion reenter target name argTypes).SearchedBy (ctx.methods.queryOrder hint) id
          (ctx.findMethod reenter target name argTypes hint) s := by
  refine ⟨⟨Chain.queryOrder_inQueryOrder _ _, Chain.queryOrder_inQueryOrder _ _⟩,
    fun target name s => ⟨?_, ?_, fun argTypes => ?_⟩⟩
  · exact (ctx.readQuestion_posedBy reenter target name).searchedBy ctx.properties hint Prod.fst
      (fun _ => rfl) s
  · exact (ctx.writeQuestion_posedBy reenter target name).searchedBy ctx.properties hint Prod.fst
      (fun _ => rfl) s
  · rw [← bind_pure (ctx.findMethod _ _ _ _ _)]
    refine (ctx.callQuestion_posedBy reenter target name argTypes).searchedBy ctx.methods hint id
      (fun found => ?_) s
    cases found <;> rfl

/-- A failure of arity is not given the name of the member, so that it can be told apart. -/
theorem findReader_arity_unnamed :
    let picky : PropertyResolver Unit :=
      { name := "picky"
        canRead := fun _ _ _ => throw (.arityMismatch "rate" "1" 2)
        read := fun _ _ _ => pure .null }
    let ctx : Context Unit :=
      { converter := ({} : StandardConverter).toConverter
        properties := ⟨[picky], none, ⟨0⟩⟩
        methods := ⟨[], none, ⟨1⟩⟩ }
    let found := (ctx.findReader (fun _ => pure (.ok .null)) (.string "x") "rate" none).outcome
      { world := (), active := [], cache := none }
    found.1 = .error (.arityMismatch "rate" "1" 2) ∧
      ¬∃ source, found.1 = .error (.resolverAccess picky.name source) := by
  intro picky ctx found
  have kept : found.1 = .error (.arityMismatch "rate" "1" 2) := rfl
  refine ⟨kept, ?_⟩
  rintro ⟨source, wrapped⟩
  cases kept.symm.trans wrapped

end Context

end HostExpr
