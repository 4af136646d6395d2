import Mathlib.Data.List.Basic
import Mathlib.Data.Int.Order.Basic

/-!
# Outlines

Items in order, each with the items under it, and lists of entries that stand for them by how deep
every entry is.  In such a list what is under an entry follows it and is deeper, and what is beside
it is not deeper.  A list of entries stands for one outline at most.

* `Outline` / `flatten` — an outline, and its entries in order;
* `LaidOut` — every entry has a level that fits its place;
* `flatten_inj` — two outlines that are laid out over one list are the same;
* `withParents_eq` — what an entry is under is the nearest entry before it with a smaller level.
-/

/-- Items in order, each with the items under it. -/
inductive Outline (α : Type*)
  | nil
  | cons (item : α) (subitems rest : Outline α)
  deriving DecidableEq

namespace Outline

variable {α β : Type*}

/-- All entries from the top, each before those under it. -/
def flatten : Outline α → List α
  | nil => []
  | cons a sub rest => a :: (sub.flatten ++ rest.flatten)

def tops : Outline α → List (α × Outline α)
  | nil => []
  | cons a sub rest => (a, sub) :: rest.tops

/-- The outline with these items at its top. -/
def ofList : List (α × Outline α) → Outline α
  | [] => nil
  | (a, sub) :: l => cons a sub (ofList l)

@[simp] theorem tops_ofList (l : List (α × Outline α)) : (ofList l).tops = l := by
  induction l with
  | nil => rfl
  | cons e l ih => rw [ofList, tops, ih]

def map (f : α → β) : Outline α → Outline β
  | nil => nil
  | cons a sub rest => cons (f a) (sub.map f) (rest.map f)

/-- The entries from the top, each with the one that it is under. -/
def withParents : (parent : Option α) → Outline α → List (α × Option α)
  | _, nil => []
  | parent, cons a sub rest =>
      (a, parent) :: (sub.withParents (some a) ++ rest.withParents parent)

variable (level : α → ℤ)

/-- Every entry of a list with the last one before it that is less deep.  `before` are the entries in
front of the list, the last one first. -/
def nearestParents : (before : List α) → List α → List (α × Option α)
  | _, [] => []
  | before, a :: l =>
      (a, before.find? fun p => level p < level a) :: nearestParents (a :: before) l

/-- A list goes on no deeper than a bound. -/
def Ends (b : ℤ) (l : List α) : Prop := ∀ a ∈ l.head?, level a ≤ b

/-- Every item is deeper than the bound, what is under it is deeper than the item, and what is beside
it is not. -/
def LaidOut : (b : ℤ) → Outline α → Prop
  | _, nil => True
  | b, cons a sub rest =>
      b < level a ∧ sub.LaidOut (level a) ∧ Ends level (level a) rest.flatten ∧ rest.LaidOut b

variable {level}

theorem Ends.mono {b c : ℤ} {l : List α} (h : Ends level b l) (hbc : b ≤ c) : Ends level c l :=
  fun a ha => le_trans (h a ha) hbc

/-- Where an outline ends, the list goes on as after it. -/
theorem Ends.append {b c : ℤ} {l r : List α} (hl : Ends level c l) (hr : Ends level b r)
    (hbc : b ≤ c) : Ends level c (l ++ r) := by
  cases l with
  | nil => exact hr.mono hbc
  | cons a l => exact hl

/-- A list does not begin with an item of an outline where it ends. -/
theorem LaidOut.not_ends {b : ℤ} {a : α} {sub rest : Outline α}
    (h : (cons a sub rest).LaidOut level b) {l r : List α} (hr : Ends level b r) :
    r ≠ a :: l := by
  rintro rfl
  exact absurd (hr a (by simp)) (not_le.mpr h.1)

/-- **A list of entries stands for one outline at most.** -/
theorem flatten_append_inj {b : ℤ} {f g : Outline α} (hf : f.LaidOut level b)
    (hg : g.LaidOut level b) {r s : List α} (hr : Ends level b r) (hs : Ends level b s)
    (h : f.flatten ++ r = g.flatten ++ s) : f = g ∧ r = s := by
  induction f generalizing b g r s with
  | nil =>
      cases g with
      | nil => exact ⟨rfl, h⟩
      | cons c sub' rest' => exact absurd h (hg.not_ends hr)
  | cons a sub rest ihsub ihrest =>
      cases g with
      | nil => exact absurd h.symm (hf.not_ends hs)
      | cons c sub' rest' =>
          obtain ⟨hlt, hsub, hend, hrest⟩ := hf
          obtain ⟨hlt', hsub', hend', hrest'⟩ := hg
          simp only [flatten, List.cons_append, List.append_assoc, List.cons.injEq] at h
          obtain ⟨rfl, h⟩ := h
          -- the items below are cut off where the next item beside begins
          obtain ⟨rfl, hbeside⟩ := ihsub hsub hsub' (hend.append hr (le_of_lt hlt))
            (hend'.append hs (le_of_lt hlt')) h
          obtain ⟨rfl, hrs⟩ := ihrest hrest hrest' hr hs hbeside
          exact ⟨rfl, hrs⟩

theorem nearestParents_append (before l r : List α) :
    nearestParents level before (l ++ r) =
      nearestParents level before l ++ nearestParents level (l.reverse ++ before) r := by
  induction l generalizing before with
  | nil => rfl
  | cons a l ih =>
      rw [List.cons_append, nearestParents, ih, nearestParents, List.reverse_cons, List.append_assoc]
      rfl

/-- Everything in an outline is deeper than its bound. -/
theorem LaidOut.lt_level {b : ℤ} {f : Outline α} (h : f.LaidOut level b) :
    ∀ a ∈ f.flatten, b < level a := by
  induction f generalizing b with
  | nil => exact fun _ ha => nomatch ha
  | cons a sub rest ihsub ihrest =>
      obtain ⟨hlt, hsub, -, hrest⟩ := h
      intro c hc
      rw [flatten, List.mem_cons, List.mem_append] at hc
      rcases hc with rfl | hc | hc
      · exact hlt
      · exact lt_trans hlt (ihsub hsub c hc)
      · exact ihrest hrest c hc

/-- **An item is under the last entry before it that is less deep.**  The entries in front of the
outline count, if they are such for the items at its top. -/
theorem withParents_eq {b : ℤ} {f : Outline α} (hf : f.LaidOut level b) (before : List α)
    (parent : Option α) (h : ∀ a ∈ f.flatten.head?, ∀ d, b < d → d ≤ level a →
      before.find? (fun p => level p < d) = parent) :
    f.withParents parent = nearestParents level before f.flatten := by
  induction f generalizing b before parent with
  | nil => rfl
  | cons a sub rest ihsub ihrest =>
      have hdeeper := hf.2.1.lt_level
      obtain ⟨hlt, hsub, hend, hrest⟩ := hf
      rw [withParents, flatten, nearestParents, h a (by simp [flatten]) _ hlt le_rfl,
        nearestParents_append]
      congr 2
      · refine ihsub hsub (a :: before) (some a) fun c _ d hd _ => ?_
        rw [List.find?_cons_of_pos (by simpa using hd)]
      · refine ihrest hrest _ parent fun c hc d hd hdc => ?_
        -- what is beside is no deeper than the item, and so than all under it
        have hda : d ≤ level a := le_trans hdc (hend c hc)
        have hunder : ∀ p ∈ sub.flatten.reverse, ¬ decide (level p < d) = true := by
          intro p hp
          have := hdeeper p (List.mem_reverse.mp hp)
          simp only [decide_eq_true_eq]
          omega
        rw [List.find?_append, List.find?_eq_none.mpr hunder, Option.none_or,
          List.find?_cons_of_neg (by simpa using hda)]
        exact h a (by simp [flatten]) d hd hda

theorem flatten_inj {b : ℤ} {f g : Outline α} (hf : f.LaidOut level b) (hg : g.LaidOut level b)
    (h : f.flatten = g.flatten) : f = g :=
  (flatten_append_inj hf hg (r := []) (s := []) (fun _ h => nomatch h) (fun _ h => nomatch h)
    (by rw [h])).1

end Outline
