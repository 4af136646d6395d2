import Mathlib.Data.Nat.Digits.Defs

/-!
# Numerals in source text

Unsigned numbers as a generator prints them, in decimal and in upper-case hexadecimal, and the
reader of such numerals.  A numeral of either form reads back as the number it was printed from.

* `decimal`, `hexNumeral`, `hexByte` — the numerals of a number;
* `read` — the reader;
* `read_decimal`, `read_hexNumeral`, `read_hexByte` — every numeral reads back.
-/

namespace Numeral

def digitChar (d : ℕ) : Char :=
  if d < 10 then Char.ofNat (48 + d) else Char.ofNat (55 + d)

def digitValue (c : Char) : Option ℕ :=
  if 48 ≤ c.toNat ∧ c.toNat < 58 then some (c.toNat - 48)
  else if 65 ≤ c.toNat ∧ c.toNat < 71 then some (c.toNat - 55)
  else none

/-- The digits of a number, most significant first, at least one. -/
def digits (b n : ℕ) : List Char :=
  if n = 0 then ['0'] else ((Nat.digits b n).map digitChar).reverse

def pushDigit (b v : ℕ) (c : Char) : Option ℕ :=
  (digitValue c).bind fun d => if d < b then some (b * v + d) else none

/-- The number a list of digits stands for; no digit at all is no number. -/
def value (b : ℕ) : List Char → Option ℕ
  | [] => none
  | c :: cs => (c :: cs).foldlM (pushDigit b) 0

/-- `%zu`: the decimal numeral of a number. -/
def decimal (n : ℕ) : String := String.ofList (digits 10 n)

/-- `0x%X`: the hexadecimal numeral of a number. -/
def hexNumeral (n : ℕ) : String := String.ofList ('0' :: 'x' :: digits 16 n)

/-- `0x%0.2X`: the hexadecimal numeral of a byte, always with two digits. -/
def hexByte (b : UInt8) : String :=
  String.ofList ['0', 'x', digitChar (b.toNat / 16), digitChar (b.toNat % 16)]

/-- The number a word stands for, `0x` marking a hexadecimal one. -/
def read (word : String) : Option ℕ :=
  match word.toList with
  | '0' :: 'x' :: ds => value 16 ds
  | ds => value 10 ds

/-! ### Reading what was printed -/

theorem digitValue_digitChar {d : ℕ} (hd : d < 16) : digitValue (digitChar d) = some d := by
  have hall : ∀ e < 16, digitValue (digitChar e) = some e := by decide
  exact hall d hd

theorem pushDigit_digitChar {b d : ℕ} (hb : b ≤ 16) (hd : d < b) (v : ℕ) :
    pushDigit b v (digitChar d) = some (b * v + d) := by
  rw [pushDigit, digitValue_digitChar (show d < 16 by omega), Option.bind_some, if_pos hd]

theorem foldlM_digits {b : ℕ} (hb : 2 ≤ b) (hb' : b ≤ 16) (n : ℕ) :
    ((Nat.digits b n).map digitChar).reverse.foldlM (pushDigit b) 0 = some n := by
  induction n using Nat.strong_induction_on with
  | _ n ih =>
      by_cases hn : n = 0
      · rw [hn, Nat.digits_zero]
        rfl
      · have hpos : 0 < n := Nat.pos_of_ne_zero hn
        rw [Nat.digits_def' (show 1 < b by omega) hpos, List.map_cons, List.reverse_cons,
          List.foldlM_append, ih (n / b) (Nat.div_lt_self hpos (show 1 < b by omega))]
        show (pushDigit b (n / b) (digitChar (n % b))).bind some = some n
        rw [pushDigit_digitChar hb' (Nat.mod_lt n (show 0 < b by omega)), Option.bind_some,
          Nat.div_add_mod]

theorem digits_ne_nil (b n : ℕ) : digits b n ≠ [] := by
  unfold digits
  by_cases hn : n = 0
  · rw [if_pos hn]
    exact List.cons_ne_nil _ _
  · rw [if_neg hn]
    intro h
    rw [List.reverse_eq_nil_iff, List.map_eq_nil_iff] at h
    exact Nat.digits_ne_nil_iff_ne_zero.mpr hn h

theorem value_of_ne_nil {b : ℕ} {cs : List Char} (h : cs ≠ []) :
    value b cs = cs.foldlM (pushDigit b) 0 := by
  cases cs with
  | nil => exact absurd rfl h
  | cons c cs => rfl

theorem value_digits {b : ℕ} (hb : 2 ≤ b) (hb' : b ≤ 16) (n : ℕ) :
    value b (digits b n) = some n := by
  rw [value_of_ne_nil (digits_ne_nil b n), digits]
  by_cases hn : n = 0
  · rw [if_pos hn, hn]
    show (pushDigit b 0 (digitChar 0)).bind some = some 0
    rw [pushDigit_digitChar hb' (show 0 < b by omega), Option.bind_some, Nat.mul_zero]
  · rw [if_neg hn]
    exact foldlM_digits hb hb' n

/-- Every character of a numeral is a digit of its base. -/
theorem mem_digits {b n : ℕ} (hb : 2 ≤ b) {c : Char} (hc : c ∈ digits b n) :
    ∃ d, d < b ∧ c = digitChar d := by
  unfold digits at hc
  by_cases hn : n = 0
  · rw [if_pos hn, List.mem_singleton] at hc
    exact ⟨0, by omega, hc⟩
  · rw [if_neg hn, List.mem_reverse, List.mem_map] at hc
    obtain ⟨d, hd, rfl⟩ := hc
    exact ⟨d, Nat.digits_lt_base (show 1 < b by omega) hd, rfl⟩

theorem digitChar_ne_x {d : ℕ} (hd : d < 16) : digitChar d ≠ 'x' := by
  have hall : ∀ e < 16, digitChar e ≠ 'x' := by decide
  exact hall d hd

@[simp] theorem read_decimal (n : ℕ) : read (decimal n) = some n := by
  have hx : 'x' ∉ digits 10 n := by
    intro h
    obtain ⟨d, hd, hc⟩ := mem_digits (show 2 ≤ 10 by omega) h
    exact digitChar_ne_x (show d < 16 by omega) hc.symm
  rw [read, decimal, String.toList_ofList]
  split
  · next h => exact absurd (h ▸ List.mem_cons_of_mem _ (List.mem_cons_self)) hx
  · exact value_digits (by omega) (by omega) n

@[simp] theorem read_hexNumeral (n : ℕ) : read (hexNumeral n) = some n := by
  rw [read, hexNumeral, String.toList_ofList]
  exact value_digits (by omega) (by omega) n

@[simp] theorem read_hexByte (b : UInt8) : read (hexByte b) = some b.toNat := by
  have hb : b.toNat < 256 := b.toNat_lt
  rw [read, hexByte, String.toList_ofList]
  show (pushDigit 16 0 (digitChar (b.toNat / 16))).bind
    (fun v => (pushDigit 16 v (digitChar (b.toNat % 16))).bind some) = some b.toNat
  rw [pushDigit_digitChar (by omega) (show b.toNat / 16 < 16 by omega), Option.bind_some,
    pushDigit_digitChar (by omega) (show b.toNat % 16 < 16 by omega), Option.bind_some,
    Nat.mul_zero, Nat.zero_add, Nat.div_add_mod]

theorem decimal_injective {m n : ℕ} (h : decimal m = decimal n) : m = n := by
  have hread : read (decimal m) = read (decimal n) := by rw [h]
  rw [read_decimal, read_decimal] at hread
  exact Option.some.inj hread

end Numeral
