import HostExpr.Proofs.Cache.Lookup
import Mathlib.Data.Finset.Card
import Mathlib.Data.List.DropRight

/-!
What a cache holds, told from its history.

A history is what was done to one cache, for whichever chains, in the order in which it was done.
Only what came after the last clearing counts (`CacheChange.sinceClear`): under each key the last
record is the answer, for its generation and no other, and there is one entry for each key, however
many generations were recorded under it. This holds of the empty cache and is kept by each change
(`Reflects.change`), hence it holds of every history (`ResolutionCache.ofHistory_lastWrites`).
-/

namespace HostExpr

inductive CacheChange where
  | record (key : CacheKey) (generation : Generation) (index : Nat)
  | clear
  deriving DecidableEq

namespace CacheChange

def key? : CacheChange → Option CacheKey
  | .record key .. => some key
  | .clear => none

/-- What was done since the cache was last cleared. -/
def sinceClear (history : List CacheChange) : List CacheChange :=
  history.rtakeWhile (· ≠ .clear)

/-- The keys under which something was recorded since then. -/
def keys (history : List CacheChange) : List CacheKey :=
  (sinceClear history).filterMap key?

/-- The last record under a key, among some changes, is that of a generation and a position. -/
def LastRecord (changes : List CacheChange) (key : CacheKey) (g : Generation) (i : Nat) : Prop :=
  ∃ before after, changes = before ++ .record key g i :: after ∧
    ∀ change ∈ after, change.key? ≠ some key

variable {history : List CacheChange} {key k : CacheKey} {g h : Generation} {i j : Nat}

theorem sinceClear_record :
    sinceClear (history ++ [.record key g i]) = sinceClear history ++ [.record key g i] :=
  List.rtakeWhile_concat_pos _ _ _ (by simp)

theorem sinceClear_clear : sinceClear (history ++ [.clear]) = [] :=
  List.rtakeWhile_concat_neg _ _ _ (by simp)

/-- Since the last clearing there were records only. -/
theorem exists_record_of_mem_sinceClear {change : CacheChange} (mem : change ∈ sinceClear history) :
    ∃ key g i, change = .record key g i := by
  cases change with
  | record key g i => exact ⟨key, g, i, rfl⟩
  | clear => simpa using List.mem_rtakeWhile_imp mem

theorem not_lastRecord_nil : ¬LastRecord [] key g i := by
  rintro ⟨before, after, split, -⟩
  simp at split

/-- The last change is the last record under its key; under other keys nothing is new. -/
theorem lastRecord_concat {changes : List CacheChange} {change : CacheChange} :
    LastRecord (changes ++ [change]) key g i ↔
      change = .record key g i ∨ change.key? ≠ some key ∧ LastRecord changes key g i := by
  constructor
  · rintro ⟨before, after, split, others⟩
    rcases List.eq_nil_or_concat after with rfl | ⟨between, last, rfl⟩
    · exact .inl (List.singleton_inj.mp (List.append_inj_right' split rfl))
    · have split' : changes ++ [change] = (before ++ .record key g i :: between) ++ [last] := by
        simpa using split
      obtain ⟨rfl, same⟩ := List.append_inj' split' rfl
      obtain rfl := List.singleton_inj.mp same
      exact .inr ⟨others _ (by simp), before, between, rfl, fun c mem => others c (by simp [mem])⟩
  · rintro (rfl | ⟨other, before, after, rfl, others⟩)
    · exact ⟨changes, [], rfl, by simp⟩
    · refine ⟨before, after ++ [change], by simp, fun c mem => ?_⟩
      rcases List.mem_append.mp mem with earlier | last
      · exact others c earlier
      · exact List.mem_singleton.mp last ▸ other

end CacheChange

namespace ResolutionCache

open CacheChange

def change (c : ResolutionCache) : CacheChange → ResolutionCache
  | .record key g i => c.record key g i
  | .clear => c.clear

def ofHistory (history : List CacheChange) : ResolutionCache :=
  history.foldl change {}

/-- A cache stands as a history left it. -/
structure Reflects (c : ResolutionCache) (history : List CacheChange) : Prop where
  lookup_iff : ∀ key g i, c.lookup key g = some i ↔ LastRecord (sinceClear history) key g i
  mem_keys_iff : ∀ key, key ∈ c.entries.keys ↔ key ∈ keys history

variable {c : ResolutionCache} {history : List CacheChange}

theorem reflects_empty : ({} : ResolutionCache).Reflects [] where
  lookup_iff key g i := by
    rw [lookup_empty]
    exact iff_of_false nofun not_lastRecord_nil
  mem_keys_iff _ := .rfl

/-- A record is the answer under its key from then on, for its generation; and its key is added. -/
theorem Reflects.record (h : c.Reflects history) (key : CacheKey) (g : Generation) (i : Nat) :
    (c.record key g i).Reflects (history ++ [.record key g i]) where
  lookup_iff k g' j := by
    rw [lookup_record, sinceClear_record, lastRecord_concat]
    by_cases same : k = key
    · obtain rfl := same
      by_cases current : g = g'
      · simp [current, key?]
      · simp [current, key?]
    · rw [if_neg same, h.lookup_iff]
      simp [key?, Ne.symm same]
  mem_keys_iff k := by
    rw [ResolutionCache.record, Table.mem_keys_insert, h.mem_keys_iff, keys, keys,
      sinceClear_record, List.filterMap_append, List.mem_append]
    simp [key?, or_comm]

/-- What was before a clearing does not count. -/
theorem reflects_clear (c : ResolutionCache) (history : List CacheChange) :
    c.clear.Reflects (history ++ [.clear]) where
  lookup_iff key g i := by
    rw [lookup_clear, sinceClear_clear]
    exact iff_of_false nofun not_lastRecord_nil
  mem_keys_iff key := by
    rw [keys, sinceClear_clear]
    exact .rfl

/-- **Each change keeps a cache as its history says.** -/
theorem Reflects.change (h : c.Reflects history) (change : CacheChange) :
    (c.change change).Reflects (history ++ [change]) := by
  cases change with
  | record key g i => exact h.record key g i
  | clear => exact reflects_clear c history

/-- **A cache stands as its history left it.** -/
theorem reflects_ofHistory (history : List CacheChange) :
    (ofHistory history).Reflects history := by
  induction history using List.reverseRecOn with
  | nil => exact reflects_empty
  | append_singleton history change ih =>
    rw [ofHistory, List.foldl_append]
    exact ih.change change

/-! ### Size -/

/-- There are as many entries as keys. -/
theorem Reflects.size_eq (h : c.Reflects history) : c.size = (keys history).toFinset.card := by
  have distinct : c.entries.keys.toFinset.card = c.entries.keys.length :=
    List.toFinset_card_of_nodup c.entries.nodup_keys
  rw [size, ← Table.length_keys, ← distinct]
  congr 1
  ext key
  rw [List.mem_toFinset, List.mem_toFinset, h.mem_keys_iff]

theorem Reflects.isEmpty_iff (h : c.Reflects history) :
    c.isEmpty ↔ ∀ key g i, .record key g i ∉ sinceClear history := by
  rw [isEmpty, decide_eq_true_eq, h.size_eq, Finset.card_eq_zero, List.toFinset_eq_empty_iff, keys,
    List.filterMap_eq_nil_iff]
  constructor
  · intro nothing key g i mem
    cases nothing _ mem
  · intro nothing change mem
    obtain ⟨key, g, i, rfl⟩ := exists_record_of_mem_sinceClear mem
    exact absurd mem (nothing key g i)

structure LastWrites (history : List CacheChange) (c : ResolutionCache) : Prop where
  /-- The answer under a key is the last record since the last clearing, for its generation. -/
  lookup_iff : ∀ key g i, c.lookup key g = some i ↔ LastRecord (sinceClear history) key g i
  /-- There is an entry for each key under which something was recorded since then. -/
  size_eq : c.size = (keys history).toFinset.card
  /-- There is none exactly if nothing was recorded since then. -/
  isEmpty_iff : c.isEmpty ↔ ∀ key g i, .record key g i ∉ sinceClear history

/-- **A cache is a map of last writes**, and holds one entry for each key, whatever generations were
recorded under it. -/
theorem ofHistory_lastWrites (history : List CacheChange) :
    LastWrites history (ofHistory history) where
  lookup_iff := (reflects_ofHistory history).lookup_iff
  size_eq := (reflects_ofHistory history).size_eq
  isEmpty_iff := (reflects_ofHistory history).isEmpty_iff

/-- A call without arguments is not an access without any. -/
example :
    let read : CacheKey := ⟨0, .call, .string, none⟩
    let call : CacheKey := { read with argTypes := some [] }
    let c := ofHistory [.record read ⟨1⟩ 4, .clear, .record read ⟨1⟩ 0, .record call ⟨1⟩ 2,
      .record read ⟨2⟩ 1]
    c.size = 2 ∧ c.lookup read ⟨2⟩ = some 1 ∧ c.lookup read ⟨1⟩ = none := by
  decide

end ResolutionCache

end HostExpr
