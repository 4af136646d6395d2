import Mathlib.Data.List.Basic

/-!
# Stores of named properties, and association lists

`Store ε κ ν` gives every entry a partial table from names to values; `set` overwrites one name of
one entry.  The lemmas say that a write is read back where it was made and nowhere else, and that
writing twice at one place is writing once.

The second half is the same for one table kept as an association list: `setObject` replaces the
value of a name in place or appends it, `removeObject` drops the name.

* `set_self`, `set_of_ne_entry`, `set_of_ne_key` — reading after a write;
* `getObject_setObject_self` / `getObject_setObject_of_ne` — the same for an association list;
* `setObject_setObject` — writing twice.
-/

namespace PropertyStore

variable {ε κ ν : Type*} [DecidableEq ε] [DecidableEq κ]

/-- Every entry's partial table of named properties. -/
abbrev Store (ε κ ν : Type*) := ε → κ → Option ν

/-- Overwrite the property `k` of the entry `e`. -/
def set (r : Store ε κ ν) (e : ε) (k : κ) (v : ν) : Store ε κ ν :=
  fun e' k' => if e' = e ∧ k' = k then some v else r e' k'

theorem set_apply (r : Store ε κ ν) (e e' : ε) (k k' : κ) (v : ν) :
    set r e k v e' k' = if e' = e ∧ k' = k then some v else r e' k' := rfl

@[simp] theorem set_self (r : Store ε κ ν) (e : ε) (k : κ) (v : ν) : set r e k v e k = some v := by
  simp [set]

theorem set_of_ne_entry (r : Store ε κ ν) {e e' : ε} (h : e' ≠ e) (k k' : κ) (v : ν) :
    set r e k v e' k' = r e' k' := by
  simp [set, h]

theorem set_of_ne_key (r : Store ε κ ν) (e e' : ε) {k k' : κ} (h : k' ≠ k) (v : ν) :
    set r e k v e' k' = r e' k' := by
  simp [set, h]

/-! ### One table as an association list -/

def getObject (k : κ) : List (κ × ν) → Option ν
  | [] => none
  | (k', v) :: kvs => if k' = k then some v else getObject k kvs

/-- Replace the value of a name in place, or append the pair. -/
def setObject (k : κ) (v : ν) : List (κ × ν) → List (κ × ν)
  | [] => [(k, v)]
  | (k', v') :: kvs => if k' = k then (k, v) :: kvs else (k', v') :: setObject k v kvs

def removeObject (k : κ) : List (κ × ν) → List (κ × ν)
  | [] => []
  | (k', v') :: kvs => if k' = k then removeObject k kvs else (k', v') :: removeObject k kvs

theorem getObject_setObject_self (k : κ) (v : ν) (kvs : List (κ × ν)) :
    getObject k (setObject k v kvs) = some v := by
  induction kvs with
  | nil => simp [setObject, getObject]
  | cons p kvs ih =>
      obtain ⟨k', v'⟩ := p
      by_cases h : k' = k
      · simp [setObject, getObject, h]
      · simpa [setObject, getObject, h] using ih

theorem getObject_setObject_of_ne {k k' : κ} (h : k' ≠ k) (v : ν) (kvs : List (κ × ν)) :
    getObject k' (setObject k v kvs) = getObject k' kvs := by
  induction kvs with
  | nil => simp [setObject, getObject, Ne.symm h]
  | cons p kvs ih =>
      obtain ⟨j, w⟩ := p
      by_cases hj : j = k
      · subst hj
        simp [setObject, getObject, Ne.symm h]
      · by_cases hj' : j = k'
        · subst hj'
          simp [setObject, getObject, hj]
        · simpa [setObject, getObject, hj, hj'] using ih

theorem getObject_removeObject_self (k : κ) (kvs : List (κ × ν)) :
    getObject k (removeObject k kvs) = none := by
  induction kvs with
  | nil => rfl
  | cons p kvs ih =>
      obtain ⟨j, w⟩ := p
      by_cases hj : j = k
      · simpa [removeObject, hj] using ih
      · simpa [removeObject, getObject, hj] using ih

theorem getObject_removeObject_of_ne {k k' : κ} (h : k' ≠ k) (kvs : List (κ × ν)) :
    getObject k' (removeObject k kvs) = getObject k' kvs := by
  induction kvs with
  | nil => rfl
  | cons p kvs ih =>
      obtain ⟨j, w⟩ := p
      by_cases hj : j = k
      · subst hj
        simpa [removeObject, getObject, Ne.symm h] using ih
      · by_cases hj' : j = k'
        · subst hj'
          simp [removeObject, getObject, hj]
        · simpa [removeObject, getObject, hj, hj'] using ih

/-- Writing a name twice is writing the last value. -/
theorem setObject_setObject (k : κ) (v w : ν) (kvs : List (κ × ν)) :
    setObject k w (setObject k v kvs) = setObject k w kvs := by
  induction kvs with
  | nil => simp [setObject]
  | cons p kvs ih =>
      obtain ⟨j, u⟩ := p
      by_cases hj : j = k
      · simp [setObject, hj]
      · simpa [setObject, hj] using ih

/-- Writing the value that is there changes nothing. -/
theorem setObject_of_getObject {k : κ} {v : ν} {kvs : List (κ × ν)} (h : getObject k kvs = some v) :
    setObject k v kvs = kvs := by
  induction kvs with
  | nil => exact absurd h (by simp [getObject])
  | cons p kvs ih =>
      obtain ⟨j, u⟩ := p
      by_cases hj : j = k
      · subst hj
        simp only [getObject, if_true, Option.some.injEq] at h
        simp [setObject, h]
      · simp only [getObject, if_neg hj] at h
        simp [setObject, hj, ih h]

end PropertyStore
