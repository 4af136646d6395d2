import Mathlib.Data.List.Nodup
import Mathlib.Logic.Function.Basic

/-!
# Logs of writes

A log of writes to keyed places.  A place that is overwritten holds what was written to it last; an
accumulator joins everything that was written to it.  The two agree where the last write is the join,
and in particular where nothing is written twice.

* `last` / `joined` — what a place holds at the end, and what an accumulator holds;
* `writesTo_of_nodup` — the only write to a place;
* `joined_eq_last_iff` — when the two agree.
-/

namespace WriteLog

variable {κ α : Type*} [DecidableEq κ]

/-- What was written to a place, first to last. -/
def writesTo (log : List (κ × α)) (k : κ) : List α :=
  (log.filter fun w => w.1 = k).map Prod.snd

/-- What a place holds when every write replaces the one before. -/
def last (log : List (κ × α)) (k : κ) : Option α := (writesTo log k).getLast?

/-- What it holds when every write is joined to the ones before. -/
def joined (op : α → α → α) (log : List (κ × α)) (k : κ) : Option α :=
  (writesTo log k).foldl (fun held a => some (held.elim a (op · a))) none

variable {op : α → α → α} {log log' : List (κ × α)} {k : κ}

theorem writesTo_append : writesTo (log ++ log') k = writesTo log k ++ writesTo log' k := by
  rw [writesTo, List.filter_append, List.map_append]
  rfl

theorem writesTo_concat (j : κ) (a : α) :
    writesTo (log ++ [(j, a)]) k = if j = k then writesTo log k ++ [a] else writesTo log k := by
  rw [writesTo_append]
  by_cases h : j = k
  · simp [writesTo, h]
  · simp [writesTo, h]

theorem joined_concat (j : κ) (a : α) :
    joined op (log ++ [(j, a)]) k =
      if j = k then some ((joined op log k).elim a (op · a)) else joined op log k := by
  rw [joined, writesTo_concat]
  by_cases h : j = k
  · rw [if_pos h, if_pos h, List.foldl_append]
    rfl
  · rw [if_neg h, if_neg h]
    rfl

/-- The only write to a place is what it holds. -/
theorem writesTo_of_nodup (hnodup : (log.map Prod.fst).Nodup) {a : α} (h : (k, a) ∈ log) :
    writesTo log k = [a] := by
  induction log with
  | nil => exact absurd h List.not_mem_nil
  | cons w log ih =>
      rw [List.map_cons, List.nodup_cons] at hnodup
      rcases List.mem_cons.mp h with rfl | h
      · have hnil : log.filter (fun w => w.1 = k) = [] := by
          refine List.filter_eq_nil_iff.mpr fun w hw => ?_
          have hne : w.1 ≠ k := fun heq => hnodup.1 (List.mem_map.mpr ⟨w, hw, heq⟩)
          simpa using hne
        simp [writesTo, hnil]
      · have hne : w.1 ≠ k := by
          intro heq
          exact hnodup.1 (List.mem_map.mpr ⟨_, h, heq.symm⟩)
        have hrest := ih hnodup.2 h
        rw [writesTo] at hrest ⊢
        rw [List.filter_cons_of_neg (by simpa using hne), hrest]

/-- Writes that come sorted into parts by their places: a place finds its own in one part. -/
theorem writesTo_flatMap {ι : Type*} [DecidableEq ι] (part : κ → ι) {is : List ι}
    (hnodup : is.Nodup) {f : ι → List (κ × α)} (hf : ∀ i ∈ is, ∀ w ∈ f i, part w.1 = i) :
    writesTo (is.flatMap f) k = if part k ∈ is then writesTo (f (part k)) k else [] := by
  induction is with
  | nil => rfl
  | cons i is ih =>
      rw [List.nodup_cons] at hnodup
      obtain ⟨hi, his⟩ := List.forall_mem_cons.mp hf
      rw [List.flatMap_cons, writesTo_append, ih hnodup.2 his]
      by_cases hk : part k = i
      · rw [if_neg (hk ▸ hnodup.1), if_pos (hk ▸ List.mem_cons_self), hk, List.append_nil]
      · have hnil : writesTo (f i) k = [] := by
          refine List.map_eq_nil_iff.mpr (List.filter_eq_nil_iff.mpr fun w hw => ?_)
          have hne : w.1 ≠ k := fun heq => hk (heq ▸ hi w hw)
          simpa using hne
        rw [hnil, List.nil_append]
        simp only [List.mem_cons, hk, false_or]

/-! ### Where joining is overwriting -/

theorem joined_eq (op : α → α → α) (log : List (κ × α)) (k : κ) :
    joined op log k = match writesTo log k with
      | [] => none
      | a :: as => some (as.foldl op a) := by
  have hsome : ∀ (as : List α) (a : α),
      as.foldl (fun held b => some (held.elim b (op · b))) (some a) = some (as.foldl op a) := by
    intro as
    induction as with
    | nil => exact fun a => rfl
    | cons b as ih => exact fun a => ih (op a b)
  rw [joined]
  cases writesTo log k with
  | nil => rfl
  | cons a as => exact hsome as a

/-- A place holds something exactly if something was written to it. -/
theorem joined_eq_none_iff : joined op log k = none ↔ ∀ w ∈ log, w.1 ≠ k := by
  have hnil : writesTo log k = [] ↔ ∀ w ∈ log, w.1 ≠ k := by
    rw [writesTo, List.map_eq_nil_iff, List.filter_eq_nil_iff]
    simp
  rw [joined_eq, ← hnil]
  cases writesTo log k <;> simp

section Join

variable (hassoc : ∀ a b c, op (op a b) c = op a (op b c))

include hassoc

theorem foldl_absorbed {as : List α} {a p : α} (ha : op a p = p) (has : ∀ q ∈ as, op q p = p) :
    op (as.foldl op a) p = p := by
  induction as generalizing a with
  | nil => exact ha
  | cons b as ih =>
      obtain ⟨hb, has⟩ := List.forall_mem_cons.mp has
      refine ih ?_ has
      rw [hassoc, hb, ha]

variable (hcomm : ∀ a b, op a b = op b a) (hidem : ∀ a, op a a = a)

include hcomm hidem

/-- What is joined absorbs everything that was written. -/
theorem op_foldl (as : List α) (a : α) :
    op a (as.foldl op a) = as.foldl op a ∧ ∀ q ∈ as, op q (as.foldl op a) = as.foldl op a := by
  induction as generalizing a with
  | nil => exact ⟨hidem a, fun q hq => absurd hq List.not_mem_nil⟩
  | cons b as ih =>
      obtain ⟨habsorb, hrest⟩ := ih (op a b)
      rw [List.foldl_cons]
      refine ⟨?_, List.forall_mem_cons.mpr ⟨?_, hrest⟩⟩
      · rw [← habsorb, ← hassoc, ← hassoc, hidem]
      · rw [← habsorb, ← hassoc, hcomm b (op a b), hassoc a b b, hidem]

/-- **Joining is overwriting** exactly where the last write absorbs all the others. -/
theorem joined_eq_last_iff (log : List (κ × α)) (k : κ) :
    joined op log k = last log k ↔
      ∀ p, last log k = some p → ∀ q ∈ writesTo log k, op q p = p := by
  rw [joined_eq, last]
  cases hwrites : writesTo log k with
  | nil => simp
  | cons a as =>
      obtain ⟨p, hp⟩ : ∃ p, (a :: as).getLast? = some p :=
        ⟨_, List.getLast?_eq_some_getLast (List.cons_ne_nil a as)⟩
      obtain ⟨habsorb, hrest⟩ := op_foldl hassoc hcomm hidem as a
      rw [hp]
      simp only [Option.some.injEq, forall_eq']
      constructor
      · rintro rfl
        exact List.forall_mem_cons.mpr ⟨habsorb, hrest⟩
      · intro hall
        obtain ⟨ha, has⟩ := List.forall_mem_cons.mp hall
        -- the last write is one of those that were joined
        have hjoined : op p (as.foldl op a) = as.foldl op a := by
          rcases List.mem_cons.mp (List.mem_of_getLast? hp) with rfl | hmem
          · exact habsorb
          · exact hrest p hmem
        rw [← hjoined, hcomm p]
        exact foldl_absorbed hassoc ha has

end Join

end WriteLog
