import Mathlib.Data.Finset.Card

/-!
# Giving duplicates spare values

A list is gone through from the front.  A value that comes for the first time is kept; one that has
come before gives way to the next spare value, as long as there are any.  If no spare value is in the
list, the result has no value twice, and the spare values last exactly if there are enough of them for
all that come again.

* `reassign` — the walk;
* `nodup_reassign` — no value twice;
* `none_notMem_reassign_iff` — when the spare values last.
-/

namespace Reassign

variable {α : Type*} [DecidableEq α]

/-- The new values, after `seen`.  A value that no spare one is left for is lost. -/
def reassign : (spare seen : List α) → List α → List (Option α)
  | _, _, [] => []
  | spare, seen, a :: as =>
      if a ∈ seen then spare.head? :: reassign spare.tail seen as
      else some a :: reassign spare (a :: seen) as

theorem length_reassign (spare seen as : List α) : (reassign spare seen as).length = as.length := by
  induction as generalizing spare seen with
  | nil => rfl
  | cons a as ih =>
      rw [reassign]
      split
      · rw [List.length_cons, ih, List.length_cons]
      · rw [List.length_cons, ih, List.length_cons]

/-- A new value is a spare one, or it is old and not seen before. -/
theorem mem_reassign {spare seen as : List α} {x : α} (h : some x ∈ reassign spare seen as) :
    x ∈ spare ∨ x ∈ as ∧ x ∉ seen := by
  induction as generalizing spare seen with
  | nil => exact absurd h List.not_mem_nil
  | cons a as ih =>
      rw [reassign] at h
      split at h
      · rcases List.mem_cons.mp h with hx | hx
        · exact Or.inl (List.mem_of_mem_head? hx.symm)
        · rcases ih hx with hspare | ⟨hmem, hseen⟩
          · exact Or.inl (List.mem_of_mem_tail hspare)
          · exact Or.inr ⟨List.mem_cons_of_mem _ hmem, hseen⟩
      · next ha =>
        rcases List.mem_cons.mp h with hx | hx
        · rw [Option.some.inj hx]
          exact Or.inr ⟨List.mem_cons_self, ha⟩
        · rcases ih hx with hspare | ⟨hmem, hseen⟩
          · exact Or.inl hspare
          · rw [List.mem_cons, not_or] at hseen
            exact Or.inr ⟨List.mem_cons_of_mem _ hmem, hseen.2⟩

/-- No new value comes twice. -/
theorem nodup_reassign {spare seen as : List α} (hspare : spare.Nodup) (hnew : ∀ x ∈ spare, x ∉ as)
    (hall : none ∉ reassign spare seen as) : (reassign spare seen as).Nodup := by
  induction as generalizing spare seen with
  | nil => exact List.nodup_nil
  | cons a as ih =>
      rw [reassign] at hall ⊢
      have hnew' : ∀ x ∈ spare, x ∉ as := fun x hx hmem => hnew x hx (List.mem_cons_of_mem _ hmem)
      split at hall
      · next ha =>
        rw [if_pos ha]
        rw [List.mem_cons, not_or] at hall
        cases spare with
        | nil => exact absurd rfl hall.1
        | cons x spare =>
            rw [List.nodup_cons] at hspare
            refine List.nodup_cons.mpr ⟨fun hx => ?_, ih hspare.2 (fun y hy =>
              hnew' y (List.mem_cons_of_mem _ hy)) hall.2⟩
            rcases mem_reassign hx with hx | ⟨hx, -⟩
            · exact hspare.1 hx
            · exact hnew' x List.mem_cons_self hx
      · next ha =>
        rw [if_neg ha]
        rw [List.mem_cons, not_or] at hall
        refine List.nodup_cons.mpr ⟨fun hx => ?_, ih hspare hnew' hall.2⟩
        rcases mem_reassign hx with hx | ⟨-, hx⟩
        · exact hnew a hx List.mem_cons_self
        · exact hx List.mem_cons_self

/-- **The spare values last** exactly if there are as many as values that come again. -/
theorem none_notMem_reassign_iff (spare seen as : List α) :
    none ∉ reassign spare seen as ↔
      as.length ≤ spare.length + (as.toFinset \ seen.toFinset).card := by
  induction as generalizing spare seen with
  | nil => simp [reassign]
  | cons a as ih =>
      rw [reassign, List.length_cons, List.toFinset_cons]
      split
      · next ha =>
        rw [Finset.insert_sdiff_of_mem _ (List.mem_toFinset.mpr ha), List.mem_cons, not_or, ih]
        cases spare with
        | nil =>
            have hcard : (as.toFinset \ seen.toFinset).card ≤ as.length :=
              (Finset.card_le_card Finset.sdiff_subset).trans (List.toFinset_card_le as)
            simp only [List.head?_nil, List.tail_nil, List.length_nil, not_true_eq_false, false_and,
              false_iff]
            omega
        | cons x spare =>
            simp only [List.head?_cons, List.tail_cons, List.length_cons, reduceCtorEq,
              not_false_eq_true, true_and]
            omega
      · next ha =>
        have hcard : (insert a as.toFinset \ seen.toFinset).card =
            (as.toFinset \ (a :: seen).toFinset).card + 1 := by
          rw [Finset.insert_sdiff_of_notMem _ (mt List.mem_toFinset.mp ha), List.toFinset_cons,
            Finset.sdiff_insert, ← Finset.card_erase_add_one (Finset.mem_insert_self a _),
            Finset.erase_insert_eq_erase]
        rw [hcard, List.mem_cons, not_or, ih]
        simp only [reduceCtorEq, not_false_eq_true, true_and]
        omega

end Reassign
