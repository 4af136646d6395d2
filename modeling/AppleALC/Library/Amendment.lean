import Mathlib.Data.Option.Basic
import Mathlib.Logic.Function.Basic
import AppleALC.Library.PropertyStore

/-!
# Lists of amendments to a property table

A program that prepares a table of named properties does one of two things with a name: it gives it a
value, or it gives it one unless it has one.  A list of such amendments, applied in order, is what a
run of it does to the table.  As data the list can be compared with what the program is meant to do,
and read: a name that is not in it is kept, and a name that occurs in it once gets what is said there.

`amendAt` amends the table of one entry of a store.  Amendments of one entry compose by appending the
lists, and those of different entries do not see each other.

* `amend` / `amendAt` — the table after a list of amendments, and the store;
* `amend_of_not_mem` / `amend_of_defaults` — what is kept: a name that is not in the list, and the
  value of one that the list only fills;
* `amendAt_append` — amendments compose.
-/

namespace PropertyStore

variable {ε κ ν : Type*}

/-- What happens to one property. -/
inductive Amendment (ν : Type*) where
  /-- It gets this value. -/
  | overwrite (v : ν)
  /-- It gets this value unless it has one. -/
  | default (v : ν)
  deriving DecidableEq, Repr

/-- The property after the amendment. -/
def Amendment.apply : Amendment ν → Option ν → Option ν
  | overwrite v, _ => some v
  | default v, old => old.or (some v)

@[simp] theorem Amendment.apply_overwrite (v : ν) (old : Option ν) :
    (overwrite v).apply old = some v := rfl

@[simp] theorem Amendment.apply_default (v : ν) (old : Option ν) :
    (default v).apply old = old.or (some v) := rfl

theorem Amendment.apply_isSome (a : Amendment ν) (old : Option ν) : (a.apply old).isSome = true := by
  cases a <;> simp

section Table

variable [DecidableEq κ]

def amend : List (κ × Amendment ν) → (κ → Option ν) → κ → Option ν
  | [], p => p
  | (k, a) :: t, p => amend t (Function.update p k (a.apply (p k)))

@[simp] theorem amend_nil (p : κ → Option ν) : amend [] p = p := rfl

theorem amend_cons (k : κ) (a : Amendment ν) (t : List (κ × Amendment ν)) (p : κ → Option ν) :
    amend ((k, a) :: t) p = amend t (Function.update p k (a.apply (p k))) := rfl

theorem amend_append (t u : List (κ × Amendment ν)) (p : κ → Option ν) :
    amend (t ++ u) p = amend u (amend t p) := by
  induction t generalizing p with
  | nil => rfl
  | cons ka t ih => exact ih _

/-- A name that is not amended is kept. -/
theorem amend_of_not_mem {t : List (κ × Amendment ν)} {k : κ} (h : k ∉ t.map Prod.fst)
    (p : κ → Option ν) : amend t p k = p k := by
  induction t generalizing p with
  | nil => rfl
  | cons ka t ih =>
      rw [List.map_cons, List.mem_cons, not_or] at h
      rw [amend_cons, ih h.2, Function.update_of_ne h.1]

/-- A value is kept by amendments that only fill gaps there. -/
theorem amend_of_defaults {t : List (κ × Amendment ν)} {k : κ}
    (h : ∀ a, (k, a) ∈ t → ∃ v, a = .default v) {p : κ → Option ν} {old : ν} (hold : p k = some old) :
    amend t p k = some old := by
  induction t generalizing p with
  | nil => exact hold
  | cons ka t ih =>
      apply ih fun a ha => h a (List.mem_cons_of_mem _ ha)
      by_cases hk : k = ka.1
      · obtain ⟨v, hv⟩ := h ka.2 (by rw [hk]; exact List.mem_cons_self)
        rw [hk, Function.update_self, hv, ← hk, hold, Amendment.apply_default, Option.some_or]
      · rw [Function.update_of_ne hk, hold]

/-- No property is lost. -/
theorem amend_isSome (t : List (κ × Amendment ν)) {p : κ → Option ν} {k : κ}
    (h : (p k).isSome = true) : (amend t p k).isSome = true := by
  induction t generalizing p with
  | nil => exact h
  | cons ka t ih =>
      apply ih
      by_cases hk : k = ka.1
      · subst hk
        rw [Function.update_self]
        exact ka.2.apply_isSome _
      · rw [Function.update_of_ne hk]
        exact h

end Table

/-! ### One entry of a store -/

section Entry

variable [DecidableEq ε] [DecidableEq κ]

def amendAt (r : Store ε κ ν) (e : ε) (t : List (κ × Amendment ν)) : Store ε κ ν :=
  Function.update r e (amend t (r e))

@[simp] theorem amendAt_self (r : Store ε κ ν) (e : ε) (t : List (κ × Amendment ν)) :
    amendAt r e t e = amend t (r e) := Function.update_self ..

theorem amendAt_of_ne (r : Store ε κ ν) {e e' : ε} (h : e' ≠ e) (t : List (κ × Amendment ν)) :
    amendAt r e t e' = r e' := Function.update_of_ne h ..

@[simp] theorem amendAt_nil (r : Store ε κ ν) (e : ε) : amendAt r e [] = r :=
  Function.update_eq_self e r

theorem amendAt_append (r : Store ε κ ν) (e : ε) (t u : List (κ × Amendment ν)) :
    amendAt r e (t ++ u) = amendAt (amendAt r e t) e u := by
  rw [amendAt, amendAt, amendAt_self, amend_append, amendAt, Function.update_idem]

theorem set_eq_amendAt (r : Store ε κ ν) (e : ε) (k : κ) (v : ν) :
    set r e k v = amendAt r e [(k, .overwrite v)] := by
  funext e' k'
  rw [set_apply]
  by_cases he : e' = e
  · subst he
    by_cases hk : k' = k
    · subst hk
      simp [amend_cons]
    · simp [amend_cons, hk]
  · simp [amendAt_of_ne r he, he]

/-- Giving a value only where there is none. -/
theorem default_eq_amendAt (r : Store ε κ ν) (e : ε) (k : κ) (v : ν) :
    (if (r e k).isNone then set r e k v else r) = amendAt r e [(k, .default v)] := by
  have hamend : ∀ old, r e k = old →
      amendAt r e [(k, .default v)] = Function.update r e (Function.update (r e) k (old.or (some v))) := by
    rintro old rfl
    rfl
  cases hold : r e k with
  | none =>
      rw [hamend _ hold, if_pos (show (none : Option ν).isNone = true from rfl), set_eq_amendAt]
      rfl
  | some old =>
      rw [hamend _ hold, if_neg (by simp), Option.some_or, ← hold, Function.update_eq_self,
        Function.update_eq_self]

end Entry

end PropertyStore
