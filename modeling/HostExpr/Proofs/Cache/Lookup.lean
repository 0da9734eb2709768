import HostExpr.ResolutionCache

/-!
What a cache answers after it changed.

The last record under a key is all that counts for that key, and it counts for its own generation
only (`lookup_record`). A property of all answers of a cache, `Answers`, is therefore kept by
recording an answer that has it.
-/

namespace HostExpr.ResolutionCache

@[simp] theorem lookup_empty (key : CacheKey) (g : Generation) :
    ({} : ResolutionCache).lookup key g = none := rfl

@[simp] theorem lookup_clear (c : ResolutionCache) (key : CacheKey) (g : Generation) :
    c.clear.lookup key g = none := rfl

/-- What was recorded last under a key is the answer for its generation, and for no other. -/
theorem lookup_record (c : ResolutionCache) (key k : CacheKey) (g h : Generation) (i : Nat) :
    (c.record key g i).lookup k h =
      if k = key then if g = h then some i else none else c.lookup k h := by
  simp only [lookup, record, Table.find?_insert]
  by_cases same : k = key
  · rw [if_pos same, if_pos same]
    by_cases current : g = h
    · simp [current, Option.filter]
    · simp [current]
  · rw [if_neg same, if_neg same]

def Answers (holds : CacheKey → Generation → Nat → Prop) (c : ResolutionCache) : Prop :=
  ∀ key g i, c.lookup key g = some i → holds key g i

variable {holds : CacheKey → Generation → Nat → Prop} {c : ResolutionCache}

/-- A cache without entries answers nothing. -/
theorem Answers.empty : ({} : ResolutionCache).Answers holds := by
  intro key g i h
  simp at h

/-- Recording an answer that has the property keeps it. -/
theorem Answers.record (answers : c.Answers holds) {key : CacheKey} {g : Generation} {i : Nat}
    (new : holds key g i) : (c.record key g i).Answers holds := by
  intro k h j found
  rw [lookup_record] at found
  by_cases same : k = key
  · rw [if_pos same] at found
    by_cases current : g = h
    · rw [if_pos current] at found
      cases found
      rw [same, ← current]
      exact new
    · rw [if_neg current] at found
      cases found
  · rw [if_neg same] at found
    exact answers k h j found

/-- A weaker property holds as well. -/
theorem Answers.mono (answers : c.Answers holds) {weaker : CacheKey → Generation → Nat → Prop}
    (h : ∀ key g i, holds key g i → weaker key g i) : c.Answers weaker :=
  fun key g i found => h key g i (answers key g i found)

end HostExpr.ResolutionCache
