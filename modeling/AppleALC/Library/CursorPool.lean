import Mathlib.Data.List.Basic
import Mathlib.Data.List.Induction

/-!
# A pool of slots with usage marks and a cursor

Slots are numbered from zero up to a limit.  A mark says whether a slot is in use, and the cursor
never moves back: taking a slot skips the used ones from the cursor on and claims the first unused
one.  Slots may also be marked from outside before the takes begin; those are the reserved ones.

A ledger adds the owners.  `claim` takes a slot for an owner that has none yet, and `Consistent` says
what the marks mean then: a slot is marked exactly when it is reserved or owned, and no slot has two
owners.  A consistent ledger therefore knows the whole history of its pool.

When the owners of a list claim one after the other, the first distinct ones get a slot, as many as
there are unused slots ahead of the cursor, and the others get none.

* `takeFrom_spec` — what is taken is the first free slot;
* `Ledger.Consistent` / `Consistent.claim` — the invariant, and that a claim keeps it;
* `claimAll_spec` — which of many owners get a slot.
-/

namespace CursorPool

structure Pool where
  used : ℕ → Bool
  cursor : ℕ

/-- Look at `remaining` more slots from the cursor on, and claim the first unused one. -/
def takeFrom : (remaining : ℕ) → Pool → Option ℕ × Pool
  | 0, p => (none, p)
  | n + 1, p =>
      if p.used p.cursor then takeFrom n { p with cursor := p.cursor + 1 }
      else (some p.cursor, { used := Function.update p.used p.cursor true, cursor := p.cursor + 1 })

/-- Claim the first unused slot below the limit from the cursor on. -/
def take (limit : ℕ) (p : Pool) : Option ℕ × Pool := takeFrom (limit - p.cursor) p

/-- **What a take does.**  Either it claims an unused slot at or after the cursor and marks exactly
that one, or it finds none and marks nothing. -/
theorem takeFrom_spec (n : ℕ) (p : Pool) :
    (∃ k, (takeFrom n p).1 = some k ∧ p.cursor ≤ k ∧ k < p.cursor + n ∧ p.used k = false ∧
        (takeFrom n p).2.used = Function.update p.used k true ∧ (takeFrom n p).2.cursor = k + 1) ∨
      ((takeFrom n p).1 = none ∧ (takeFrom n p).2.used = p.used ∧
        (takeFrom n p).2.cursor = p.cursor + n) := by
  induction n generalizing p with
  | zero => exact Or.inr ⟨rfl, rfl, rfl⟩
  | succ n ih =>
      by_cases hused : p.used p.cursor = true
      · have hstep : takeFrom (n + 1) p = takeFrom n { p with cursor := p.cursor + 1 } := by
          simp [takeFrom, hused]
        rw [hstep]
        rcases ih { p with cursor := p.cursor + 1 } with ⟨k, h1, h2, h3, h4, h5, h6⟩ | ⟨h1, h2, h3⟩
        · simp only at h2 h3
          exact Or.inl ⟨k, h1, by omega, by omega, h4, h5, h6⟩
        · simp only at h3
          exact Or.inr ⟨h1, h2, by omega⟩
      · have hunused : p.used p.cursor = false := by simpa using hused
        refine Or.inl ⟨p.cursor, ?_, Nat.le_refl _, by omega, hunused, ?_, ?_⟩
        all_goals simp [takeFrom, hunused]

/-- A claimed slot lies below the limit, was unused, and is the only one marked. -/
theorem take_some {limit k : ℕ} {p : Pool} (h : (take limit p).1 = some k) :
    k < limit ∧ p.used k = false ∧ (take limit p).2.used = Function.update p.used k true := by
  rcases takeFrom_spec (limit - p.cursor) p with ⟨k', h1, h2, h3, h4, h5, -⟩ | ⟨h1, -, -⟩
  · have hk : k' = k := Option.some.inj (h1.symm.trans h)
    subst hk
    exact ⟨by omega, h4, h5⟩
  · exact absurd (h1.symm.trans h) (by simp)

/-- A take that fails marks nothing. -/
theorem take_none {limit : ℕ} {p : Pool} (h : (take limit p).1 = none) :
    (take limit p).2.used = p.used := by
  rcases takeFrom_spec (limit - p.cursor) p with ⟨k', h1, -⟩ | ⟨-, h2, -⟩
  · exact absurd (h1.symm.trans h) (by simp)
  · exact h2

/-! ### Free slots -/

/-- The unused slots that a take can still reach. -/
def free (limit : ℕ) (p : Pool) : ℕ :=
  (List.range' p.cursor (limit - p.cursor)).countP fun k => !p.used k

theorem takeFrom_free (n : ℕ) (p : Pool) :
    ((takeFrom n p).1.isSome ↔ 0 < free (p.cursor + n) p) ∧
      free (p.cursor + n) (takeFrom n p).2 = free (p.cursor + n) p - 1 := by
  induction n generalizing p with
  | zero => simp [takeFrom, free]
  | succ n ih =>
      have hrange : List.range' p.cursor (p.cursor + (n + 1) - p.cursor) =
          p.cursor :: List.range' (p.cursor + 1) n := by
        rw [show p.cursor + (n + 1) - p.cursor = n + 1 by omega, List.range'_succ]
      by_cases hused : p.used p.cursor = true
      · have hstep : takeFrom (n + 1) p = takeFrom n { p with cursor := p.cursor + 1 } := by
          simp [takeFrom, hused]
        have hsame : free (p.cursor + (n + 1)) p =
            free (p.cursor + 1 + n) { p with cursor := p.cursor + 1 } := by
          rw [free, free, hrange, List.countP_cons_of_neg (by simp [hused])]
          simp
        rw [hstep, hsame, show p.cursor + (n + 1) = p.cursor + 1 + n by omega]
        exact ih { p with cursor := p.cursor + 1 }
      · have hunused : p.used p.cursor = false := by simpa using hused
        have hfree : free (p.cursor + (n + 1)) p =
            (List.range' (p.cursor + 1) n).countP (fun k => !p.used k) + 1 := by
          rw [free, hrange, List.countP_cons_of_pos (by simp [hunused])]
        have hstep : takeFrom (n + 1) p = (some p.cursor,
            { used := Function.update p.used p.cursor true, cursor := p.cursor + 1 }) := by
          simp [takeFrom, hunused]
        -- marking the slot at the cursor changes no slot behind it
        have hrest : free (p.cursor + (n + 1))
            { used := Function.update p.used p.cursor true, cursor := p.cursor + 1 } =
              (List.range' (p.cursor + 1) n).countP (fun k => !p.used k) := by
          unfold free
          simp only
          rw [show p.cursor + (n + 1) - (p.cursor + 1) = n by omega]
          apply List.countP_congr
          intro k hk
          have hne : k ≠ p.cursor := by
            have hle := (List.mem_range'_1.mp hk).1
            omega
          simp [Function.update_of_ne hne]
        rw [hstep, hfree, hrest]
        simp

/-- A take succeeds exactly when a slot is free, and there is one less afterwards. -/
theorem take_free (limit : ℕ) (p : Pool) :
    ((take limit p).1.isSome ↔ 0 < free limit p) ∧
      free limit (take limit p).2 = free limit p - 1 := by
  unfold take
  by_cases hle : p.cursor ≤ limit
  · have h := takeFrom_free (limit - p.cursor) p
    rwa [Nat.add_sub_cancel' hle] at h
  · rw [show limit - p.cursor = 0 by omega]
    simp [takeFrom, free, show limit - p.cursor = 0 by omega]

/-! ### The first distinct members of a list -/

section AmongFirst

variable {κ : Type*} [DecidableEq κ] {xs ys : List κ} {x : κ}

/-- `x` is among the first `n` distinct members of the list. -/
def AmongFirst (n : ℕ) (xs : List κ) (x : κ) : Prop := x ∈ xs.eraseDups.take n

instance (n : ℕ) (xs : List κ) (x : κ) : Decidable (AmongFirst n xs x) := by
  unfold AmongFirst; infer_instance

theorem eraseDups_snoc_of_mem (h : x ∈ xs) : (xs ++ [x]).eraseDups = xs.eraseDups := by
  rw [List.eraseDups_append]
  simp [List.removeAll, h]

theorem eraseDups_snoc_of_not_mem (h : x ∉ xs) : (xs ++ [x]).eraseDups = xs.eraseDups ++ [x] := by
  rw [List.eraseDups_append]
  simp [List.removeAll, h, List.eraseDups_cons]

omit [DecidableEq κ] in
theorem mem_take_singleton {n : ℕ} {y : κ} : y ∈ [x].take n ↔ y = x ∧ 0 < n := by
  cases n <;> simp

/-- What comes behind a member does not change whether it is among the first. -/
theorem amongFirst_append {n : ℕ} (h : x ∈ xs) (ys : List κ) :
    AmongFirst n (xs ++ ys) x ↔ AmongFirst n xs x := by
  have hnew : x ∉ ((ys.removeAll xs).eraseDups.take (n - xs.eraseDups.length)) := by
    intro hmem
    have hremoved := List.mem_eraseDups.mp (List.mem_of_mem_take hmem)
    rw [List.removeAll, List.mem_filter] at hremoved
    exact absurd h (by simpa using hremoved.2)
  rw [AmongFirst, AmongFirst, List.eraseDups_append, List.take_append, List.mem_append]
  exact or_iff_left hnew

end AmongFirst

/-! ### Ledgers -/

variable {κ : Type*} [DecidableEq κ]

/-- A pool with the slot that each owner holds. -/
structure Ledger (κ : Type*) where
  pool : Pool
  owned : κ → Option ℕ

/-- Take a slot for an owner that has none; an owner that has one keeps it. -/
def Ledger.claim (limit : ℕ) (l : Ledger κ) (x : κ) : Ledger κ :=
  match l.owned x with
  | some _ => l
  | none =>
      let r := take limit l.pool
      { pool := r.2, owned := Function.update l.owned x r.1 }

/-- Marks are the reserved slots and the owned ones, and no slot has two owners. -/
structure Ledger.Consistent (limit : ℕ) (reserved : ℕ → Bool) (l : Ledger κ) : Prop where
  marks : ∀ k, l.pool.used k = true ↔ reserved k = true ∨ ∃ x, l.owned x = some k
  fresh : ∀ x k, l.owned x = some k → k < limit ∧ reserved k = false
  injective : ∀ x y k, l.owned x = some k → l.owned y = some k → x = y

/-- The later ledger keeps every slot where it was. -/
def Ledger.Extends (l l' : Ledger κ) : Prop := ∀ x k, l.owned x = some k → l'.owned x = some k

namespace Ledger

variable {limit : ℕ} {reserved : ℕ → Bool} {l l₁ l₂ : Ledger κ} {x y : κ}

omit [DecidableEq κ] in
theorem Extends.refl (l : Ledger κ) : Extends l l := fun _ _ h => h

omit [DecidableEq κ] in
theorem Extends.trans (h₁ : Extends l l₁) (h₂ : Extends l₁ l₂) : Extends l l₂ :=
  fun x k h => h₂ x k (h₁ x k h)

/-- A claim changes nobody else. -/
theorem claim_owned_of_ne (limit : ℕ) (l : Ledger κ) (h : y ≠ x) :
    (l.claim limit x).owned y = l.owned y := by
  unfold claim
  split
  · rfl
  · exact Function.update_of_ne h _ _

theorem claim_of_owned {k : ℕ} (h : l.owned x = some k) : l.claim limit x = l := by
  simp [claim, h]

theorem claim_extends (limit : ℕ) (l : Ledger κ) (x : κ) : Extends l (l.claim limit x) := by
  intro y k hy
  by_cases hyx : y = x
  · subst hyx
    rwa [claim_of_owned hy]
  · rwa [claim_owned_of_ne limit l hyx]

/-- Who owns what once `x`, who had nothing, is given the slot `k`. -/
theorem update_owned_eq_some {j k : ℕ} (hx : l.owned x = none) :
    Function.update l.owned x (some k) y = some j ↔ (y = x ∧ j = k) ∨ l.owned y = some j := by
  by_cases hyx : y = x
  · subst hyx
    simp [hx, eq_comm]
  · simp [hyx]

/-- Giving an unmarked slot below the limit to somebody who has none, and marking it. -/
theorem Consistent.give (h : Consistent limit reserved l) {k : ℕ} {p : Pool}
    (hx : l.owned x = none) (hlt : k < limit) (hunused : l.pool.used k = false)
    (hp : p.used = Function.update l.pool.used k true) :
    Consistent limit reserved ⟨p, Function.update l.owned x (some k)⟩ := by
  have hnew : ¬(reserved k = true ∨ ∃ y, l.owned y = some k) := by
    rw [← h.marks k, hunused]
    decide
  refine ⟨?_, ?_, ?_⟩
  · intro j
    simp only [update_owned_eq_some hx, hp]
    by_cases hjk : j = k
    · subst hjk
      simp only [Function.update_self, true_iff]
      exact Or.inr ⟨x, Or.inl ⟨rfl, trivial⟩⟩
    · simp only [Function.update_of_ne hjk, h.marks j, hjk, and_false, false_or]
  · intro y j hy
    rcases (update_owned_eq_some hx).mp hy with ⟨-, rfl⟩ | hy
    · exact ⟨hlt, by simpa using fun hr => hnew (Or.inl hr)⟩
    · exact h.fresh y j hy
  · intro y z j hy hz
    rcases (update_owned_eq_some hx).mp hy with ⟨hyx, rfl⟩ | hy' <;>
      rcases (update_owned_eq_some hx).mp hz with ⟨hzx, hjk⟩ | hz'
    · rw [hyx, hzx]
    · exact absurd (Or.inr ⟨z, hz'⟩) hnew
    · exact absurd (Or.inr ⟨y, hjk ▸ hy'⟩) hnew
    · exact h.injective y z j hy' hz'

/-- **A claim keeps the ledger consistent.** -/
theorem Consistent.claim (h : Consistent limit reserved l) (x : κ) :
    Consistent limit reserved (l.claim limit x) := by
  cases hx : l.owned x with
  | some k => rwa [claim_of_owned hx]
  | none =>
      have hclaim : l.claim limit x =
          { pool := (take limit l.pool).2
            owned := Function.update l.owned x (take limit l.pool).1 } := by
        simp [Ledger.claim, hx]
      rw [hclaim]
      cases htake : (take limit l.pool).1 with
      | none =>
          -- the owner stays without a slot, so only the cursor has moved
          have howned : Function.update l.owned x none = l.owned := by
            rw [← hx]
            exact Function.update_eq_self x l.owned
          rw [howned]
          exact ⟨by rw [take_none htake]; exact h.marks, h.fresh, h.injective⟩
      | some k =>
          obtain ⟨hlt, hunused, hused⟩ := take_some htake
          exact h.give hx hlt hunused hused

/-- The claims of a list of owners, in order. -/
def claimAll (limit : ℕ) (xs : List κ) (l : Ledger κ) : Ledger κ :=
  xs.foldl (fun l x => l.claim limit x) l

theorem claimAll_append (xs ys : List κ) (l : Ledger κ) :
    l.claimAll limit (xs ++ ys) = (l.claimAll limit xs).claimAll limit ys := by
  rw [claimAll, List.foldl_append]
  rfl

theorem Consistent.claimAll (h : Consistent limit reserved l) (xs : List κ) :
    Consistent limit reserved (l.claimAll limit xs) := by
  induction xs generalizing l with
  | nil => exact h
  | cons x xs ih => exact ih (h.claim x)

/-- A claim of somebody without a slot: he gets one exactly when there is a free one, and there is
one less then. -/
theorem claim_of_none (limit : ℕ) (h : l.owned x = none) :
    (((l.claim limit x).owned x).isSome ↔ 0 < free limit l.pool) ∧
      free limit (l.claim limit x).pool = free limit l.pool - 1 := by
  have hclaim : l.claim limit x =
      { pool := (take limit l.pool).2
        owned := Function.update l.owned x (take limit l.pool).1 } := by
    simp [Ledger.claim, h]
  rw [hclaim]
  simp only [Function.update_self]
  exact take_free limit l.pool

/-- **Who gets a slot.**  When nobody has one, the claimants of a list that get one are the first
distinct ones, as many as there are free slots. -/
theorem claimAll_spec (hnone : ∀ x, l.owned x = none) (xs : List κ) :
    (∀ x, ((l.claimAll limit xs).owned x).isSome ↔ AmongFirst (free limit l.pool) xs x) ∧
      free limit (l.claimAll limit xs).pool = free limit l.pool - xs.eraseDups.length := by
  induction xs using List.reverseRecOn with
  | nil => exact ⟨fun x => by simp [claimAll, AmongFirst, hnone x], by simp [claimAll]⟩
  | append_singleton xs x ih =>
      obtain ⟨howned, hfree⟩ := ih
      rw [claimAll_append]
      generalize l.claimAll limit xs = l' at howned hfree ⊢
      change (∀ y, ((l'.claim limit x).owned y).isSome ↔ _) ∧
        free limit (l'.claim limit x).pool = _
      by_cases hx : x ∈ xs
      · -- the claimant is not new: he has a slot, or there was none left
        rw [eraseDups_snoc_of_mem hx]
        have hsame : ∀ y, AmongFirst (free limit l.pool) (xs ++ [x]) y ↔
            AmongFirst (free limit l.pool) xs y := fun y => by
          rw [AmongFirst, AmongFirst, eraseDups_snoc_of_mem hx]
        simp only [hsame]
        cases hslot : l'.owned x with
        | some k => rw [claim_of_owned hslot]; exact ⟨howned, hfree⟩
        | none =>
            have hlate : ¬AmongFirst (free limit l.pool) xs x := by
              rw [← howned x, hslot]
              decide
            have hlong : free limit l.pool < xs.eraseDups.length := by
              by_contra hshort
              refine hlate ?_
              rw [AmongFirst, List.take_of_length_le (Nat.le_of_not_lt hshort)]
              exact List.mem_eraseDups.mpr hx
            obtain ⟨hsome, hfree'⟩ := claim_of_none limit hslot
            refine ⟨fun y => ?_, by omega⟩
            by_cases hy : y = x
            · subst hy
              rw [hsome]
              exact ⟨fun h => absurd h (by omega), fun h => absurd h hlate⟩
            · rw [claim_owned_of_ne limit l' hy]
              exact howned y
      · have hslot : l'.owned x = none := by
          rw [← Option.not_isSome_iff_eq_none, howned x]
          exact fun h => hx (List.mem_eraseDups.mp (List.mem_of_mem_take h))
        have hlast : ∀ y, AmongFirst (free limit l.pool) (xs ++ [x]) y ↔
            AmongFirst (free limit l.pool) xs y ∨
              y = x ∧ xs.eraseDups.length < free limit l.pool := fun y => by
          rw [AmongFirst, AmongFirst, eraseDups_snoc_of_not_mem hx, List.take_append,
            List.mem_append, mem_take_singleton, Nat.sub_pos_iff_lt]
        obtain ⟨hsome, hfree'⟩ := claim_of_none limit hslot
        refine ⟨fun y => ?_, ?_⟩
        · rw [hlast]
          by_cases hy : y = x
          · subst hy
            have hnot : ¬AmongFirst (free limit l.pool) xs y := fun h =>
              hx (List.mem_eraseDups.mp (List.mem_of_mem_take h))
            rw [hsome, hfree]
            simp only [hnot, false_or, true_and]
            omega
          · rw [claim_owned_of_ne limit l' hy, howned y]
            simp [hy]
        · rw [hfree', hfree, eraseDups_snoc_of_not_mem hx, List.length_append]
          simp only [List.length_singleton]
          omega

end Ledger

end CursorPool
