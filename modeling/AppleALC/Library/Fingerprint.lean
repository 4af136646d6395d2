import Mathlib.Data.List.Basic

/-!
# Outputs kept under a fingerprint

A build keeps its output together with a fingerprint of the input, and hands the output out again
while the input has the same fingerprint.  `Cache.Valid` says that what is kept was built from an
input of that fingerprint.  It is enough for a hit to be right when the fingerprint determines the
input, and it survives everything that drops one of the two halves.

The fingerprint of many files is often taken of a text with one line for each of them.  The last
section reads the lines back from such a text.

* `Cache.Valid` — what is kept was built from an input with the kept fingerprint;
* `Cache.Valid.hit` — a hit is what a build would give;
* `Cache.valid_store` — what has just been built may be kept;
* `lines_injective` — the lines of a text.
-/

namespace Fingerprint

variable {κ σ ο : Type*}

/-- A kept output and the fingerprint it is kept under.  Either may be missing. -/
structure Cache (κ ο : Type*) where
  key : Option κ
  output : Option ο

/-- Inputs with a common fingerprint are equal. -/
def Determines (describes : κ → σ → Prop) : Prop :=
  ∀ k s t, describes k s → describes k t → s = t

/-- The kept output was built from an input with the kept fingerprint. -/
def Cache.Valid (describes : κ → σ → Prop) (build : σ → Option ο) (c : Cache κ ο) : Prop :=
  ∀ k o, c.key = some k → c.output = some o → ∃ s, describes k s ∧ build s = some o

variable {describes : κ → σ → Prop} {build : σ → Option ο}

/-- **A hit is right.**  What is kept under the fingerprint of the input is what a build would give. -/
theorem Cache.Valid.hit (hdet : Determines describes) {c : Cache κ ο} (hc : c.Valid describes build)
    {k : κ} {s : σ} (hkey : c.key = some k) (houtput : c.output.isSome) (hs : describes k s) :
    c.output = build s := by
  obtain ⟨o, ho⟩ := Option.isSome_iff_exists.mp houtput
  obtain ⟨t, ht, hbuild⟩ := hc k o hkey ho
  rw [ho, hdet k s t hs ht, hbuild]

/-- What has just been built may be kept. -/
theorem Cache.valid_store {k : κ} {s : σ} (hs : describes k s) :
    Cache.Valid describes build ⟨some k, build s⟩ := by
  rintro _ o hkey ho
  rw [Option.some.injEq] at hkey
  exact ⟨s, hkey ▸ hs, ho⟩

/-- Without an output there is nothing to be wrong. -/
theorem Cache.valid_of_no_output (key : Option κ) : Cache.Valid describes build ⟨key, none⟩ :=
  fun _ _ _ ho => absurd ho nofun

/-- An output without a fingerprint is never handed out. -/
theorem Cache.valid_of_no_key (output : Option ο) : Cache.Valid describes build ⟨none, output⟩ :=
  fun _ _ hkey _ => absurd hkey nofun

/-! ### Lines -/

/-- A text falls apart at the first end of line in one way only. -/
theorem append_eol_injective {α : Type*} {eol : α} {x y r s : List α} (hx : eol ∉ x) (hy : eol ∉ y)
    (h : x ++ eol :: r = y ++ eol :: s) : x = y ∧ r = s := by
  rcases List.append_eq_append_iff.mp h with ⟨a, hy', hr⟩ | ⟨a, hx', hs⟩
  · cases a with
    | nil => exact ⟨by simpa using hy'.symm, List.tail_eq_of_cons_eq hr⟩
    | cons b a =>
        obtain ⟨rfl, -⟩ := List.cons.inj hr
        exact absurd (by simp [hy']) hy
  · cases a with
    | nil => exact ⟨by simpa using hx', (List.tail_eq_of_cons_eq hs).symm⟩
    | cons b a =>
        obtain ⟨rfl, -⟩ := List.cons.inj hs
        exact absurd (by simp [hx']) hx

/-- Lines that do not contain the end of line can be read back from their text. -/
theorem lines_injective {α : Type*} {eol : α} {xs ys : List (List α)} (hxs : ∀ x ∈ xs, eol ∉ x)
    (hys : ∀ y ∈ ys, eol ∉ y) (h : xs.flatMap (· ++ [eol]) = ys.flatMap (· ++ [eol])) : xs = ys := by
  induction xs generalizing ys with
  | nil =>
      cases ys with
      | nil => rfl
      | cons y ys => simp at h
  | cons x xs ih =>
      cases ys with
      | nil => simp at h
      | cons y ys =>
          rw [List.forall_mem_cons] at hxs hys
          simp only [List.flatMap_cons, List.append_assoc, List.singleton_append] at h
          obtain ⟨hhead, htail⟩ := append_eol_injective hxs.1 hys.1 h
          rw [hhead, ih hxs.2 hys.2 htail]

end Fingerprint
