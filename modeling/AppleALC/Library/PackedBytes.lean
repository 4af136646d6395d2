import Mathlib.Data.Nat.Bitwise
import Mathlib.Logic.Function.Basic

/-!
# Bytes packed into a word

A word of `n` bytes, least significant first, which is filled by shifting bytes to their places and
joining them with a bitwise or.  Joining a byte to a place that is already filled joins it to the byte
there.

* `pack` / `byteAt` — the word of some bytes, and the byte at a place of a word;
* `byteAt_pack` — the bytes are read back;
* `pack_or` — joining a byte to a word joins it to the byte that is there.
-/

namespace PackedBytes

/-- The word of the bytes `b 0`, …, `b (n - 1)`. -/
def pack (b : ℕ → ℕ) : ℕ → ℕ
  | 0 => 0
  | n + 1 => pack b n ||| b n <<< (8 * n)

def byteAt (w k : ℕ) : ℕ := (w >>> (8 * k)) &&& 0xFF

variable {b c : ℕ → ℕ} {k n p : ℕ}

theorem pack_congr (h : ∀ k < n, b k = c k) : pack b n = pack c n := by
  induction n with
  | zero => rfl
  | succ n ih =>
      rw [pack, pack, ih (fun k hk => h k (by omega)), h n (by omega)]

/-- A byte that is joined in its place. -/
theorem pack_or (hk : k < n) :
    pack b n ||| p <<< (8 * k) = pack (Function.update b k (b k ||| p)) n := by
  induction n with
  | zero => omega
  | succ n ih =>
      rw [pack, pack]
      by_cases hlast : k = n
      · subst hlast
        have hbelow : pack (Function.update b k (b k ||| p)) k = pack b k :=
          pack_congr fun j hj => Function.update_of_ne (by omega) _ _
        rw [hbelow, Function.update_self, Nat.shiftLeft_or_distrib, Nat.or_assoc]
      · rw [← ih (by omega), Function.update_of_ne (by omega)]
        -- the new byte goes past the last one
        rw [Nat.or_assoc, Nat.or_comm (b n <<< (8 * n)), ← Nat.or_assoc]

theorem byteAt_or (v w k : ℕ) : byteAt (v ||| w) k = byteAt v k ||| byteAt w k := by
  rw [byteAt, Nat.shiftRight_or_distrib, Nat.and_or_distrib_right]
  rfl

/-- A shifted byte is at its place. -/
theorem byteAt_shiftLeft (hp : p < 256) (j k : ℕ) :
    byteAt (p <<< (8 * j)) k = if k = j then p else 0 := by
  have hmask : ∀ v, v &&& 0xFF = v % 256 := fun v => Nat.and_two_pow_sub_one_eq_mod v 8
  rw [byteAt, hmask]
  rcases Nat.lt_trichotomy k j with hlt | heq | hgt
  · rw [if_neg (by omega), show 8 * j = 8 * (j - k) + 8 * k by omega, Nat.shiftLeft_add,
      Nat.shiftLeft_shiftRight, Nat.shiftLeft_eq, show 8 * (j - k) = 8 + 8 * (j - k - 1) by omega,
      pow_add, show 2 ^ 8 = 256 by decide, Nat.mul_left_comm]
    exact Nat.mul_mod_right 256 _
  · rw [heq, if_pos rfl, Nat.shiftLeft_shiftRight, Nat.mod_eq_of_lt hp]
  · rw [if_neg (by omega), show 8 * k = 8 * j + 8 * (k - j) by omega, Nat.shiftRight_add,
      Nat.shiftLeft_shiftRight, Nat.shiftRight_eq_div_pow]
    have hpow : 256 ≤ 2 ^ (8 * (k - j)) := by
      calc 256 = 2 ^ 8 := by decide
        _ ≤ 2 ^ (8 * (k - j)) := Nat.pow_le_pow_right (by omega) (by omega)
    rw [Nat.div_eq_of_lt (by omega)]

/-- Every byte is at its place. -/
theorem byteAt_pack (hb : ∀ k, b k < 256) (n k : ℕ) :
    byteAt (pack b n) k = if k < n then b k else 0 := by
  induction n with
  | zero => simp [pack, byteAt]
  | succ n ih =>
      rw [pack, byteAt_or, ih, byteAt_shiftLeft (hb n)]
      by_cases hlast : k = n
      · rw [hlast, if_neg (by omega), if_pos rfl, if_pos (by omega), Nat.zero_or]
      · rw [if_neg hlast, Nat.or_zero]
        by_cases hk : k < n
        · rw [if_pos hk, if_pos (by omega)]
        · rw [if_neg hk, if_neg (by omega)]

/-- A word of bytes as a number. -/
theorem pack_succ (hb : ∀ k, b k < 256) (n : ℕ) :
    pack b n < 256 ^ n ∧ pack b (n + 1) = b n * 256 ^ n + pack b n := by
  have hpow : ∀ m : ℕ, 256 ^ m = 2 ^ (8 * m) := fun m => by
    rw [pow_mul]
    rfl
  have hsum : ∀ m : ℕ, pack b m < 256 ^ m → pack b (m + 1) = b m * 256 ^ m + pack b m := by
    intro m hm
    rw [pack, Nat.or_comm, ← Nat.shiftLeft_add_eq_or_of_lt (hpow m ▸ hm), Nat.shiftLeft_eq, ← hpow]
  have hlt : pack b n < 256 ^ n := by
    induction n with
    | zero => exact Nat.one_pos
    | succ n ih =>
        rw [hsum n ih, pow_succ]
        have hmul : b n * 256 ^ n ≤ 255 * 256 ^ n :=
          Nat.mul_le_mul_right _ (Nat.le_of_lt_succ (hb n))
        omega
  exact ⟨hlt, hsum n hlt⟩

/-- A word of four bytes. -/
theorem pack_four (hb : ∀ k, b k < 256) :
    pack b 4 = ((b 3 * 256 + b 2) * 256 + b 1) * 256 + b 0 := by
  rw [(pack_succ hb 3).2, (pack_succ hb 2).2, (pack_succ hb 1).2, (pack_succ hb 0).2, pack]
  omega

end PackedBytes
