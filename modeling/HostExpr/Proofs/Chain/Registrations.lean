import HostExpr.Proofs.Session.Basic
import Mathlib.Data.List.Nodup

/-!
The members of a chain, told from its history.

`Changes.standing` reads the resolvers of the host off the changes of a chain, without running any
of them: those put at the front since all members were last replaced, the latest first, then those
of the replacement, then those put at the end, the latest last; and of these the ones that no
removal has taken. Chains that are changed in any way from the empty one have these members and the
default resolver that was set last: `Chain.order_of_history`.

The same resolver may be registered many times, so what is removed is not a resolver but one of its
registrations.
-/

namespace HostExpr

variable {ρ : Type}

/-- A resolver as it was registered: by which change of a chain, and at which place among the
resolvers of that change. -/
structure Registration (ρ : Type) where
  change : Nat
  place : Nat
  resolver : ρ

/-- What tells a registration from all others of a history. -/
def Registration.ticket (g : Registration ρ) : Nat × Nat :=
  (g.change, g.place)

/-- Changes of a chain, the latest first, with their numbers. -/
abbrev Changes (ρ : Type) := List (Nat × ChainEdit ρ)

namespace Changes

/-- Changes that were made one after another; here the latest stands first. -/
def numbered : List (ChainEdit ρ) → Changes ρ
  | [] => []
  | e :: past => (past.length, e) :: numbered past

/-- The changes since all members were last replaced. -/
def recent (past : Changes ρ) : Changes ρ :=
  past.takeWhile fun
    | (_, .replaceAll _) => false
    | _ => true

/-- What was put at the front since then, the latest first. -/
def fronts (past : Changes ρ) : List (Registration ρ) :=
  (recent past).filterMap fun
    | (n, .addFirst r) => some ⟨n, 0, r⟩
    | _ => none

/-- What all members were last replaced by. -/
def replacement (past : Changes ρ) : List (Registration ρ) :=
  (past.findSome? fun
    | (n, .replaceAll members) => some (members.zipIdx.map fun (r, place) => ⟨n, place, r⟩)
    | _ => none).getD []

/-- What was put at the end since then, the latest last. -/
def backs (past : Changes ρ) : List (Registration ρ) :=
  ((recent past).filterMap fun
    | (n, .add r) => some ⟨n, 0, r⟩
    | _ => none).reverse

/-- All that was registered since then, in the order in which it is asked. -/
def registered (past : Changes ρ) : List (Registration ρ) :=
  fronts past ++ replacement past ++ backs past

/-- What removals have taken: each of them the first that was left of what passes its test. -/
def removed : Changes ρ → List (Nat × Nat)
  | [] => []
  | (_, .remove test) :: past =>
    let left := (registered past).filter fun g => g.ticket ∉ removed past
    ((left.find? fun g => test g.resolver).map (·.ticket)).toList ++ removed past
  | _ :: past => removed past

def standing (past : Changes ρ) : List (Registration ρ) :=
  (registered past).filter fun g => g.ticket ∉ removed past

/-- The default resolver that was set last, if all members were not replaced since. -/
def lastDefault (past : Changes ρ) : Option ρ :=
  ((recent past).findSome? fun
    | (_, .setDefault r) => some r
    | _ => none).getD none

variable {past : Changes ρ} {n : Nat}

/-! ### What one change registers -/

theorem registered_add (r : ρ) :
    registered ((n, .add r) :: past) = registered past ++ [⟨n, 0, r⟩] := by
  simp [registered, fronts, replacement, backs, recent]

theorem registered_addFirst (r : ρ) :
    registered ((n, .addFirst r) :: past) = ⟨n, 0, r⟩ :: registered past := by
  simp [registered, fronts, replacement, backs, recent]

theorem registered_remove (test : ρ → Bool) :
    registered ((n, .remove test) :: past) = registered past := by
  simp [registered, fronts, replacement, backs, recent]

theorem registered_setDefault (r : Option ρ) :
    registered ((n, .setDefault r) :: past) = registered past := by
  simp [registered, fronts, replacement, backs, recent]

theorem registered_replaceAll (members : List ρ) :
    registered ((n, .replaceAll members) :: past) =
      members.zipIdx.map fun (r, place) => ⟨n, place, r⟩ := by
  simp [registered, fronts, replacement, backs, recent]

/-! ### Tickets -/

/-- Whatever is registered is so by a change of the history. -/
theorem change_of_mem_registered {g : Registration ρ} (h : g ∈ registered past) :
    g.change ∈ past.map (·.1) := by
  induction past with
  | nil => cases h
  | cons e past ih =>
    obtain ⟨n, e⟩ := e
    cases e with
    | add r =>
      rw [registered_add] at h
      rcases List.mem_append.mp h with before | now
      · exact List.mem_cons_of_mem _ (ih before)
      · rw [List.mem_singleton.mp now]
        exact List.mem_cons_self
    | addFirst r =>
      rw [registered_addFirst] at h
      rcases List.mem_cons.mp h with rfl | before
      · exact List.mem_cons_self
      · exact List.mem_cons_of_mem _ (ih before)
    | remove test =>
      rw [registered_remove] at h
      exact List.mem_cons_of_mem _ (ih h)
    | setDefault r =>
      rw [registered_setDefault] at h
      exact List.mem_cons_of_mem _ (ih h)
    | replaceAll members =>
      rw [registered_replaceAll] at h
      obtain ⟨member, listed, rfl⟩ := List.mem_map.mp h
      exact List.mem_cons_self

/-- Whatever was removed was registered by a change of the history. -/
theorem change_of_mem_removed {ticket : Nat × Nat} (h : ticket ∈ removed past) :
    ticket.1 ∈ past.map (·.1) := by
  induction past with
  | nil => cases h
  | cons e past ih =>
    obtain ⟨n, e⟩ := e
    cases e with
    | remove test =>
      rcases List.mem_append.mp h with now | before
      · obtain ⟨g, found, rfl⟩ := Option.map_eq_some_iff.mp (Option.mem_toList.mp now)
        have left := List.mem_of_find?_eq_some found
        exact List.mem_cons_of_mem _ (change_of_mem_registered (List.mem_filter.mp left).1)
      · exact List.mem_cons_of_mem _ (ih before)
    | _ => exact List.mem_cons_of_mem _ (ih h)

/-- No two registrations have the same ticket. -/
theorem nodup_tickets (distinct : (past.map (·.1)).Nodup) :
    ((registered past).map (·.ticket)).Nodup := by
  induction past with
  | nil => exact List.nodup_nil
  | cons e past ih =>
    obtain ⟨n, e⟩ := e
    obtain ⟨new, before⟩ := List.nodup_cons.mp distinct
    have unused : (n, 0) ∉ (registered past).map (·.ticket) := fun used => by
      obtain ⟨⟨n, place, r⟩, mem, same⟩ := List.mem_map.mp used
      cases same
      exact new (change_of_mem_registered mem)
    cases e with
    | add r =>
      rw [registered_add, List.map_append]
      exact (ih before).append (List.nodup_singleton _) (List.disjoint_singleton.mpr unused)
    | addFirst r =>
      rw [registered_addFirst]
      exact List.nodup_cons.mpr ⟨unused, ih before⟩
    | remove test =>
      rw [registered_remove]
      exact ih before
    | setDefault r =>
      rw [registered_setDefault]
      exact ih before
    | replaceAll members =>
      have places : (members.zipIdx.map Prod.snd).Nodup := by
        rw [List.zipIdx_map_snd]
        exact List.nodup_range'
      have tickets := places.map (f := Prod.mk n) fun _ _ same => (Prod.mk.inj same).2
      rw [List.map_map] at tickets
      rwa [registered_replaceAll, List.map_map]

/-- The numbers of changes are distinct. -/
theorem nodup_numbered (edits : List (ChainEdit ρ)) : ((numbered edits).map (·.1)).Nodup := by
  have countdown : (numbered edits).map (·.1) = (List.range edits.length).reverse := by
    induction edits with
    | nil => rfl
    | cons e past ih => rw [numbered, List.map_cons, ih, List.length_cons, List.range_succ,
        List.reverse_append, List.reverse_singleton, List.singleton_append]
  rw [countdown]
  exact List.nodup_reverse.mpr List.nodup_range

/-- To leave out what is found first is to erase it. -/
theorem filter_notFound_eq_eraseP {l : List (Registration ρ)} (distinct : (l.map (·.ticket)).Nodup)
    (test : Registration ρ → Bool) :
    l.filter (fun g => g.ticket ∉ ((l.find? test).map (·.ticket)).toList) = l.eraseP test := by
  induction l with
  | nil => rfl
  | cons g rest ih =>
    obtain ⟨new, distinct⟩ := List.nodup_cons.mp distinct
    cases passes : test g with
    | true =>
      have others : rest.filter (fun h => h.ticket ∉ [g.ticket]) = rest :=
        List.filter_eq_self.mpr fun h mem => by
          have : h.ticket ≠ g.ticket := fun same => new (List.mem_map.mpr ⟨h, mem, same⟩)
          simpa using this
      simpa [passes] using others
    | false =>
      have kept : g.ticket ∉ ((rest.find? test).map (·.ticket)).toList := fun found => by
        obtain ⟨h, first, same⟩ := Option.map_eq_some_iff.mp (Option.mem_toList.mp found)
        exact new (List.mem_map.mpr ⟨h, List.mem_of_find?_eq_some first, same⟩)
      rw [List.find?_cons_of_neg (by simp [passes]), List.eraseP_cons_of_neg (by simp [passes]),
        List.filter_cons_of_pos (by simpa using kept), ih distinct]

/-! ### What one change leaves standing -/

/-- What is registered now was not removed before. -/
theorem notMem_removed (new : n ∉ past.map (·.1)) (place : Nat) : (n, place) ∉ removed past :=
  fun gone => new (change_of_mem_removed gone)

theorem standing_add (new : n ∉ past.map (·.1)) (r : ρ) :
    standing ((n, .add r) :: past) = standing past ++ [⟨n, 0, r⟩] := by
  have kept := decide_eq_true (notMem_removed new 0)
  calc standing ((n, .add r) :: past)
      = List.filter (fun g => g.ticket ∉ removed past) (registered past ++ [⟨n, 0, r⟩]) := by
        rw [standing, registered_add]
        rfl
    _ = standing past ++ [⟨n, 0, r⟩] := by
        rw [List.filter_append, List.filter_singleton, Registration.ticket, kept]
        rfl

theorem standing_addFirst (new : n ∉ past.map (·.1)) (r : ρ) :
    standing ((n, .addFirst r) :: past) = ⟨n, 0, r⟩ :: standing past := by
  have kept := decide_eq_true (notMem_removed new 0)
  calc standing ((n, .addFirst r) :: past)
      = List.filter (fun g => g.ticket ∉ removed past) (⟨n, 0, r⟩ :: registered past) := by
        rw [standing, registered_addFirst]
        rfl
    _ = ⟨n, 0, r⟩ :: standing past := by
        rw [List.filter_cons, Registration.ticket, if_pos kept]
        rfl

theorem standing_setDefault (r : Option ρ) :
    standing ((n, .setDefault r) :: past) = standing past := by
  rw [standing, registered_setDefault]
  rfl

theorem standing_replaceAll (new : n ∉ past.map (·.1)) (members : List ρ) :
    standing ((n, .replaceAll members) :: past) =
      members.zipIdx.map fun (r, place) => ⟨n, place, r⟩ := by
  rw [standing, registered_replaceAll]
  refine List.filter_eq_self.mpr fun g mem => ?_
  obtain ⟨⟨r, place⟩, listed, rfl⟩ := List.mem_map.mp mem
  exact decide_eq_true (notMem_removed new place)

/-- A removal takes the first that stands and passes. -/
theorem standing_remove (distinct : (past.map (·.1)).Nodup) (test : ρ → Bool) :
    standing ((n, .remove test) :: past) = (standing past).eraseP fun g => test g.resolver := by
  have tickets : ((standing past).map (·.ticket)).Nodup :=
    (List.filter_sublist.map _).nodup (nodup_tickets distinct)
  rw [← filter_notFound_eq_eraseP tickets, standing, registered_remove]
  conv => rhs; rw [standing, List.filter_filter]
  refine List.filter_congr fun g _ => ?_
  simp [removed]

/-! ### The chain of a history -/

/-- The changes tell the members of a chain. -/
structure Tell (past : Changes ρ) (c : Chain ρ) : Prop where
  resolvers : c.resolvers = (standing past).map (·.resolver)
  default : c.default = lastDefault past

/-- **One more change** is told like those before it. -/
theorem Tell.step {c : Chain ρ} (h : past.Tell c) (distinct : (past.map (·.1)).Nodup)
    (new : n ∉ past.map (·.1)) (e : ChainEdit ρ) (supply : TokenSupply) :
    Tell ((n, e) :: past) ((e.apply c).run supply).1 := by
  cases e with
  | add r =>
    constructor
    · rw [standing_add new, List.map_append, ← h.resolvers]
      rfl
    · exact h.default
  | addFirst r =>
    constructor
    · rw [standing_addFirst new, List.map_cons, ← h.resolvers]
      rfl
    · exact h.default
  | remove test =>
    have erased : (standing ((n, .remove test) :: past)).map (·.resolver) =
        c.resolvers.eraseP test := by
      rw [standing_remove distinct, h.resolvers, List.eraseP_map]
      rfl
    constructor
    · rw [erased, ChainEdit.apply, Chain.removeFirst]
      cases found : c.resolvers.find? test with
      | none =>
        exact (List.eraseP_of_forall_not (List.find?_eq_none.mp found)).symm
      | some r => rfl
    · rw [ChainEdit.apply, Chain.removeFirst]
      cases c.resolvers.find? test <;> exact h.default
  | setDefault r =>
    constructor
    · rw [standing_setDefault, ← h.resolvers]
      rfl
    · rfl
  | replaceAll members =>
    constructor
    · rw [standing_replaceAll new, List.map_map]
      exact (List.zipIdx_map_fst 0 members).symm
    · rfl

end Changes

namespace Chain

/-- The chain that changes, the first one first, make of the empty one. -/
def ofChanges (edits : List (ChainEdit ρ)) : Fresh (Chain ρ) := do
  edits.foldlM (fun c e => e.apply c) (← new)

/-- The last change is made to the chain that the others make. -/
theorem run_ofChanges_concat (edits : List (ChainEdit ρ)) (e : ChainEdit ρ) (supply : TokenSupply) :
    (ofChanges (edits ++ [e])).run supply =
      (e.apply ((ofChanges edits).run supply).1).run ((ofChanges edits).run supply).2 := by
  simp [ofChanges, List.foldlM_append]
  rfl

/-- Every history tells the chain that comes of it. -/
theorem tell_ofChanges (past : List (ChainEdit ρ)) (supply : TokenSupply) :
    (Changes.numbered past).Tell ((ofChanges past.reverse).run supply).1 := by
  induction past with
  | nil => exact ⟨rfl, rfl⟩
  | cons e past ih =>
    rw [List.reverse_cons, run_ofChanges_concat]
    obtain ⟨new, distinct⟩ := List.nodup_cons.mp (Changes.nodup_numbered (e :: past))
    exact ih.step distinct new e _

/-- **The history of a chain tells the order in which it is asked.** -/
theorem order_of_history (edits : List (ChainEdit ρ)) (supply : TokenSupply) :
    let c := ((ofChanges edits).run supply).1
    let past := Changes.numbered edits.reverse
    let told := past.standing.map (·.resolver) ++ past.lastDefault.toList
    c.order = told ∧ (∀ i, c.get? i = told[i]?) ∧ c.size = told.length := by
  intro c past told
  have tells := tell_ofChanges edits.reverse supply
  rw [List.reverse_reverse] at tells
  have order : c.order = told := by
    rw [Chain.order, tells.resolvers, tells.default]
  refine ⟨order, fun i => ?_, ?_⟩
  · rw [get?_eq_getElem?, order]
  · rw [size_eq_length, order]

-- Of three resolvers of one name the removal takes the first one of the replacement.
example :
    let past := Changes.numbered (ρ := String)
      [.remove (· = "a"), .add "a", .addFirst "d", .replaceAll ["c", "a", "a"],
        .setDefault (some "z"), .add "b"]
    past.standing.map (·.ticket) = [(3, 0), (2, 0), (2, 2), (4, 0)] ∧ past.lastDefault = none := by
  decide

end Chain

end HostExpr
