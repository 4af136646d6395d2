import Mathlib.Data.List.Induction
import AppleALC.Library.IntegerLiteral

/-!
# Hexadecimal words of a fixed width

Lower-case hexadecimal with leading zeros, as `printf` writes a number that fits, and its value.

* `hexPad` — the word of a number;
* `hexPad_valueIn` / `valueIn_hexPad` — the word of the value, and the value of the word.
-/

namespace HexWord

open IntegerLiteral

def digitChar (d : ℕ) : Char := if d < 10 then Char.ofNat (48 + d) else Char.ofNat (87 + d)

def hexPad : (w : ℕ) → ℕ → List Char
  | 0, _ => []
  | w + 1, n => hexPad w (n / 16) ++ [digitChar (n % 16)]

def isLowerHex (c : Char) : Bool := "0123456789abcdef".toList.contains c

/-- A lower-case digit has a value, and is the digit of it. -/
theorem digit_spec {c : Char} (h : isLowerHex c = true) :
    isDigitIn 16 c = true ∧ ∃ d < 16, digitValue c = some d ∧ digitChar d = c := by
  have hall : "0123456789abcdef".toList.all fun c => isDigitIn 16 c &&
      (digitValue c).any fun d => decide (d < 16) && digitChar d == c := by decide
  have hc := List.all_eq_true.mp hall c (List.contains_iff_mem.mp h)
  rw [Bool.and_eq_true, Option.any_eq_true] at hc
  obtain ⟨hdigit, d, hd, hspec⟩ := hc
  rw [Bool.and_eq_true, decide_eq_true_eq, beq_iff_eq] at hspec
  exact ⟨hdigit, d, hspec.1, hd, hspec.2⟩

theorem digitChar_spec {d : ℕ} (hd : d < 16) :
    isLowerHex (digitChar d) = true ∧ digitValue (digitChar d) = some d := by
  have hall : (List.range 16).all fun d => isLowerHex (digitChar d) &&
      digitValue (digitChar d) == some d := by decide
  have h := List.all_eq_true.mp hall d (List.mem_range.mpr hd)
  rwa [Bool.and_eq_true, beq_iff_eq] at h

theorem valueIn_concat (b : ℕ) (cs : List Char) (c : Char) :
    valueIn b (cs ++ [c]) = b * valueIn b cs + (digitValue c).getD 0 := by
  rw [valueIn, List.foldl_append]
  rfl

/-- The digits in front count as many places higher as there are digits behind them. -/
theorem valueIn_append (b : ℕ) (cs ds : List Char) :
    valueIn b (cs ++ ds) = valueIn b cs * b ^ ds.length + valueIn b ds := by
  induction ds using List.reverseRecOn with
  | nil => rw [List.append_nil, List.length_nil, pow_zero, Nat.mul_one]; rfl
  | append_singleton ds d ih =>
      rw [← List.append_assoc, valueIn_concat, valueIn_concat, ih, List.length_append,
        List.length_singleton, pow_succ]
      ring

variable {cs : List Char}

theorem valueIn_lt (h : ∀ c ∈ cs, isLowerHex c = true) : valueIn 16 cs < 16 ^ cs.length := by
  induction cs using List.reverseRecOn with
  | nil => decide
  | append_singleton cs c ih =>
      obtain ⟨-, d, hd, hval, -⟩ := digit_spec (h c (by simp))
      have hrest := ih fun c hc => h c (List.mem_append_left _ hc)
      rw [valueIn_concat, hval, Option.getD_some, List.length_append, List.length_singleton, pow_succ]
      omega

/-- Writing the value of a word gives the word back. -/
theorem hexPad_valueIn (h : ∀ c ∈ cs, isLowerHex c = true) :
    hexPad cs.length (valueIn 16 cs) = cs := by
  induction cs using List.reverseRecOn with
  | nil => rfl
  | append_singleton cs c ih =>
      obtain ⟨-, d, hd, hval, hchar⟩ := digit_spec (h c (by simp))
      have hrest := ih fun c hc => h c (List.mem_append_left _ hc)
      rw [valueIn_concat, hval, Option.getD_some, List.length_append, List.length_singleton, hexPad]
      rw [show (16 * valueIn 16 cs + d) / 16 = valueIn 16 cs by omega,
        show (16 * valueIn 16 cs + d) % 16 = d by omega, hrest, hchar]

/-- All characters of a word are digits. -/
theorem isLowerHex_of_mem_hexPad {w n : ℕ} {c : Char} (h : c ∈ hexPad w n) :
    isLowerHex c = true := by
  induction w generalizing n with
  | zero => exact nomatch h
  | succ w ih =>
      rw [hexPad, List.mem_append, List.mem_singleton] at h
      rcases h with h | rfl
      · exact ih h
      · exact (digitChar_spec (Nat.mod_lt n (by decide))).1

/-- A word that is long enough has the value that it was written for. -/
theorem valueIn_hexPad {w n : ℕ} (h : n < 16 ^ w) : valueIn 16 (hexPad w n) = n := by
  induction w generalizing n with
  | zero => rw [Nat.lt_one_iff.mp h]; rfl
  | succ w ih =>
      rw [pow_succ] at h
      rw [hexPad, valueIn_concat, ih (Nat.div_lt_of_lt_mul (by omega)),
        (digitChar_spec (Nat.mod_lt n (by decide))).2, Option.getD_some]
      omega

end HexWord
