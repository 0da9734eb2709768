import HostExpr.Proofs.Expr.Subtrees
import Mathlib.Data.List.Nodup

/-!
The accesses to members that an expression can make.

Each property and each call of a tree accesses a name for its node. If the identities of the nodes
are distinct, a node accesses one name only: `Tree.accesses_functional`.
-/

namespace HostExpr

namespace Tree

variable {ι α : Type}

/-- The node and name of an access to a member, if the root node makes one. -/
def access? : Tree ι α → Option (ι × String)
  | .property node _ name => some (node, name)
  | .call node _ name _ => some (node, name)
  | _ => none

/-- The accesses to members that an expression can make, by node and name. -/
def accesses (t : Tree ι α) : List (ι × String) :=
  t.subtrees.filterMap access?

def accessesAll (ts : List (Tree ι α)) : List (ι × String) :=
  (subtreesAll ts).filterMap access?

@[simp] theorem accessesAll_nil : accessesAll ([] : List (Tree ι α)) = [] := rfl

@[simp] theorem accessesAll_cons (t : Tree ι α) (ts : List (Tree ι α)) :
    accessesAll (t :: ts) = t.accesses ++ accessesAll ts :=
  filterMap_subtreesAll_cons access? t ts

/-- The accesses of a tree are those of its children and, at the end, that of its root. -/
theorem accesses_eq (t : Tree ι α) : t.accesses = accessesAll t.children ++ t.access?.toList :=
  filterMap_subtrees access? t

/-- The accesses of one of some expressions are among those of all. -/
theorem mem_accessesAll {ts : List (Tree ι α)} {t : Tree ι α} (mem : t ∈ ts) {p : ι × String}
    (h : p ∈ t.accesses) : p ∈ accessesAll ts := by
  induction ts with
  | nil => cases mem
  | cons u us ih =>
    rw [accessesAll_cons, List.mem_append]
    rcases List.mem_cons.mp mem with rfl | later
    · exact .inl h
    · exact .inr (ih later)

@[simp] theorem accesses_property (i : ι) (s : Span) (name : String) :
    (Tree.property i s name : Tree ι α).accesses = [(i, name)] := rfl

@[simp] theorem accesses_call (i : ι) (s : Span) (name : String) (args : List (Tree ι α)) :
    (Tree.call i s name args).accesses = accessesAll args ++ [(i, name)] :=
  accesses_eq _

@[simp] theorem accesses_path (i : ι) (s : Span) (segments : List (Tree ι α)) :
    (Tree.path i s segments).accesses = accessesAll segments := by
  have parts : (Tree.path i s segments).accesses = accessesAll segments ++ [] := accesses_eq _
  simpa using parts

@[simp] theorem accesses_binary (i : ι) (s : Span) (op : BinaryOperator) (l r : Tree ι α) :
    (Tree.binary i s op l r).accesses = l.accesses ++ r.accesses := by
  have parts : (Tree.binary i s op l r).accesses = accessesAll [l, r] ++ [] := accesses_eq _
  simpa using parts

@[simp] theorem accesses_unary (i : ι) (s : Span) (op : UnaryOperator) (t : Tree ι α) :
    (Tree.unary i s op t).accesses = t.accesses := by
  have parts : (Tree.unary i s op t).accesses = accessesAll [t] ++ [] := accesses_eq _
  simpa using parts

@[simp] theorem accesses_ternary (i : ι) (s : Span) (c t f : Tree ι α) :
    (Tree.ternary i s c t f).accesses = c.accesses ++ (t.accesses ++ f.accesses) := by
  have parts : (Tree.ternary i s c t f).accesses = accessesAll [c, t, f] ++ [] := accesses_eq _
  simpa using parts

@[simp] theorem accesses_list (i : ι) (s : Span) (items : List (Tree ι α)) :
    (Tree.list i s items).accesses = accessesAll items := by
  have parts : (Tree.list i s items).accesses = accessesAll items ++ [] := accesses_eq _
  simpa using parts

@[simp] theorem accesses_assign (i : ι) (s : Span) (t v : Tree ι α) :
    (Tree.assign i s t v).accesses = t.accesses ++ v.accesses := by
  have parts : (Tree.assign i s t v).accesses = accessesAll [t, v] ++ [] := accesses_eq _
  simpa using parts

/-- If node identities are distinct, a node makes at most one access. -/
theorem accesses_functional {t : Tree ι α} (distinct : (t.subtrees.map Tree.id).Nodup) {i : ι}
    {a b : String} (ha : (i, a) ∈ t.accesses) (hb : (i, b) ∈ t.accesses) : a = b := by
  have id_of : ∀ {u : Tree ι α} {name : String}, u.access? = some (i, name) → u.id = i := by
    intro u name h
    cases u <;> simp_all [access?, Tree.id]
  obtain ⟨u, hu, accessU⟩ := List.mem_filterMap.mp ha
  obtain ⟨v, hv, accessV⟩ := List.mem_filterMap.mp hb
  have same : u = v :=
    List.inj_on_of_nodup_map distinct hu hv ((id_of accessU).trans (id_of accessV).symm)
  rw [same, accessV] at accessU
  simpa using accessU.symm

end Tree

end HostExpr
