import Mathlib.Data.List.TakeWhile
import AppleALC.Library.Numeral

/-!
# C integer literals and `strtol`

`Literal s v` says that the whole text `s` is a C integer literal without a suffix, decimal,
hexadecimal or octal, and that `v` is its value.

`strtol` with base zero reads a longer grammar, and reads it from the front: it passes over blanks,
takes a sign, clamps the value to the range of `long`, and leaves the rest of the text unread.  On a
text that starts with a digit these liberties come down to one: such a text is a literal exactly if
`strtol` leaves nothing unread.

* `Literal` — the grammar of literals, with their values;
* `strtol` — the value, and the text that is left;
* `strtol_spec` — on a text that starts with a digit: nothing is left exactly for a literal, and
  then the value is that of the literal, clamped.
-/

namespace IntegerLiteral

/-! ### Digits -/

def digitValue (c : Char) : Option ℕ := Numeral.digitValue c.toUpper

/-- A digit in the base `b`. -/
def isDigitIn (b : ℕ) (c : Char) : Bool := (digitValue c).any fun d => decide (d < b)

/-- The number a list of digits stands for in the base `b`. -/
def valueIn (b : ℕ) (cs : List Char) : ℕ := cs.foldl (fun v c => b * v + (digitValue c).getD 0) 0

def isDecimal (c : Char) : Bool := isDigitIn 10 c

def isHexMark (c : Char) : Bool := c == 'x' || c == 'X'

def isSpace (c : Char) : Bool :=
  c == ' ' || c == '\t' || c == '\n' || c == '\r' || c.toNat == 11 || c.toNat == 12

/-! ### Literals -/

/-- The text is a C integer literal with this value. -/
inductive Literal : List Char → ℕ → Prop
  | decimal (c : Char) (cs : List Char) (hfirst : c ≠ '0')
      (hdigits : ∀ d ∈ c :: cs, isDigitIn 10 d = true) : Literal (c :: cs) (valueIn 10 (c :: cs))
  | octal (cs : List Char) (hdigits : ∀ d ∈ cs, isDigitIn 8 d = true) :
      Literal ('0' :: cs) (valueIn 8 ('0' :: cs))
  | hexadecimal (x c : Char) (cs : List Char) (hmark : isHexMark x = true)
      (hdigits : ∀ d ∈ c :: cs, isDigitIn 16 d = true) :
      Literal ('0' :: x :: c :: cs) (valueIn 16 (c :: cs))

/-! ### Reading a number from the front of a text -/

/-- `LONG_MAX` where `long` has 64 bits. -/
def longMax : ℤ := 9223372036854775807

/-- `LONG_MIN` where `long` has 64 bits. -/
def longMin : ℤ := -9223372036854775808

/-- The longest run of digits at the front, as a number, and the text behind it. -/
def readDigits (b : ℕ) (cs : List Char) : ℕ × List Char :=
  (valueIn b (cs.takeWhile (isDigitIn b)), cs.dropWhile (isDigitIn b))

/-- The mark of a hexadecimal number counts only in front of a digit. -/
def isHexNumber : List Char → Bool
  | '0' :: x :: c :: _ => isHexMark x && isDigitIn 16 c
  | _ => false

/-- A number without a sign, in the base that its front shows. -/
def readUnsigned (cs : List Char) : Option (ℕ × List Char) :=
  if isHexNumber cs then some (readDigits 16 (cs.drop 2))
  else
    match cs with
    | [] => none
    | c :: _ =>
        if c = '0' then some (readDigits 8 cs)
        else if isDecimal c then some (readDigits 10 cs)
        else none

/-- `strtol(s, &rest, 0)`: the value, and the rest.  A text without a number is left unread, and its
value is zero. -/
def strtol (s : List Char) : ℤ × List Char :=
  match s.dropWhile isSpace with
  | '-' :: cs =>
      match readUnsigned cs with
      | some (v, rest) => (max longMin (-v), rest)
      | none => (0, s)
  | '+' :: cs =>
      match readUnsigned cs with
      | some (v, rest) => (min longMax v, rest)
      | none => (0, s)
  | cs =>
      match readUnsigned cs with
      | some (v, rest) => (min longMax v, rest)
      | none => (0, s)

/-! ### Texts that start with a digit -/

def StartsWithDigit (s : List Char) : Prop := ∃ c cs, s = c :: cs ∧ isDecimal c = true

instance (s : List Char) : Decidable (StartsWithDigit s) :=
  match s with
  | [] => isFalse (by rintro ⟨c, cs, h, -⟩; exact absurd h (by simp))
  | c :: cs => decidable_of_iff (isDecimal c = true)
      ⟨fun h => ⟨c, cs, rfl, h⟩, by rintro ⟨c', cs', h, hc⟩; cases h; exact hc⟩

/-- A digit is neither a blank nor a sign. -/
theorem isDecimal_spec {c : Char} (h : isDecimal c = true) :
    isSpace c = false ∧ c ≠ '-' ∧ c ≠ '+' := by
  refine ⟨?_, ?_, ?_⟩
  · by_contra hspace
    rw [Bool.not_eq_false] at hspace
    simp only [isSpace, Bool.or_eq_true, beq_iff_eq] at hspace
    rcases hspace with ((((rfl | rfl) | rfl) | rfl) | hc) | hc
    · exact absurd h (by decide)
    · exact absurd h (by decide)
    · exact absurd h (by decide)
    · exact absurd h (by decide)
    · rw [← Char.ofNat_toNat c, hc] at h
      exact absurd h (by decide)
    · rw [← Char.ofNat_toNat c, hc] at h
      exact absurd h (by decide)
  · rintro rfl
    exact absurd h (by decide)
  · rintro rfl
    exact absurd h (by decide)

/-- The upper case of a letter is no digit, so a digit is its own. -/
theorem toUpper_of_isDecimal {c : Char} (h : isDecimal c = true) : c.toUpper = c := by
  have hlt : c.toUpper.toNat < 58 := by
    simp only [isDecimal, isDigitIn, digitValue, Option.any_eq_true, decide_eq_true_eq] at h
    obtain ⟨d, hd, hd10⟩ := h
    unfold Numeral.digitValue at hd
    split at hd
    · omega
    · split at hd
      · simp only [Option.some.injEq] at hd
        omega
      · exact absurd hd (by simp)
  unfold Char.toUpper at hlt ⊢
  split at hlt
  · next hcase =>
    have hlow : 97 ≤ c.val.toNat := UInt32.le_iff_toNat_le.mp hcase.1
    have hhigh : c.val.toNat ≤ 122 := UInt32.le_iff_toNat_le.mp hcase.2
    have hval : (c.val + ('A'.val - 'a'.val)).toNat = c.val.toNat - 32 := by
      rw [UInt32.toNat_add, show ('A'.val - 'a'.val).toNat = 4294967264 by decide]
      omega
    change (c.val + ('A'.val - 'a'.val)).toNat < 58 at hlt
    omega
  · next hcase => rw [dif_neg hcase]

/-- On such a text there is nothing to pass over and no sign. -/
theorem strtol_of_startsWithDigit {s : List Char} (h : StartsWithDigit s) :
    strtol s = match readUnsigned s with
      | some (v, rest) => (min longMax v, rest)
      | none => (0, s) := by
  obtain ⟨c, cs, rfl, hc⟩ := h
  obtain ⟨hspace, hminus, hplus⟩ := isDecimal_spec hc
  have hdrop : (c :: cs).dropWhile isSpace = c :: cs := by
    rw [List.dropWhile_cons, hspace]
    rfl
  unfold strtol
  rw [hdrop]
  split
  · next heq => exact absurd (List.cons.inj heq).1 hminus
  · next heq => exact absurd (List.cons.inj heq).1 hplus
  · rfl

/-- A run of digits is read to its end exactly if it is all digits, and then as its value. -/
theorem readDigits_spec (b : ℕ) (cs : List Char) :
    ((readDigits b cs).2 = [] ↔ ∀ d ∈ cs, isDigitIn b d = true) ∧
      ((∀ d ∈ cs, isDigitIn b d = true) → (readDigits b cs).1 = valueIn b cs) := by
  refine ⟨List.dropWhile_eq_nil_iff, ?_⟩
  intro h
  rw [readDigits, List.takeWhile_eq_self_iff.mpr h]

theorem isHexNumber_iff {s : List Char} : isHexNumber s = true ↔
    ∃ x c cs, s = '0' :: x :: c :: cs ∧ isHexMark x = true ∧ isDigitIn 16 c = true := by
  constructor
  · intro h
    unfold isHexNumber at h
    split at h
    · next x c cs => exact ⟨x, c, cs, rfl, (Bool.and_eq_true_iff.mp h).1, (Bool.and_eq_true_iff.mp h).2⟩
    · exact absurd h (by decide)
  · rintro ⟨x, c, cs, rfl, hx, hc⟩
    simp [isHexNumber, hx, hc]

/-- The mark of a hexadecimal number is no octal digit. -/
theorem isDigitIn_of_isHexMark {x : Char} (h : isHexMark x = true) : isDigitIn 8 x = false := by
  simp only [isHexMark, Bool.or_eq_true, beq_iff_eq] at h
  rcases h with rfl | rfl <;> decide

/-- The first character of a literal is a digit. -/
theorem Literal.startsWithDigit {s : List Char} {v : ℕ} (h : Literal s v) : StartsWithDigit s := by
  cases h with
  | decimal c cs _ hdigits => exact ⟨c, cs, rfl, hdigits c List.mem_cons_self⟩
  | octal cs _ => exact ⟨'0', cs, rfl, by decide⟩
  | hexadecimal x c cs _ _ => exact ⟨'0', x :: c :: cs, rfl, by decide⟩

/-- A text that is a literal exactly if the characters `ds` are digits in the base `b`, and that is
read in this base. -/
theorem readUnsigned_of_base (b : ℕ) {s : List Char} (ds : List Char)
    (hread : readUnsigned s = some (readDigits b ds))
    (hliteral : (∀ d ∈ ds, isDigitIn b d = true) → Literal s (valueIn b ds))
    (honly : ∀ w, Literal s w → w = valueIn b ds ∧ ∀ d ∈ ds, isDigitIn b d = true) :
    ∃ v rest, readUnsigned s = some (v, rest) ∧ (rest = [] ↔ ∃ w, Literal s w) ∧
      ∀ w, Literal s w → w = v := by
  obtain ⟨hrest, hvalue⟩ := readDigits_spec b ds
  refine ⟨_, _, hread, hrest.trans ⟨fun hdigits => ⟨_, hliteral hdigits⟩, ?_⟩, ?_⟩
  · rintro ⟨w, hw⟩
    exact (honly w hw).2
  · intro w hw
    obtain ⟨hval, hdigits⟩ := honly w hw
    exact hval.trans (hvalue hdigits).symm

/-- The three forms do not overlap, and each is read in its own base. -/
theorem readUnsigned_spec {s : List Char} (h : StartsWithDigit s) :
    ∃ v rest, readUnsigned s = some (v, rest) ∧ (rest = [] ↔ ∃ w, Literal s w) ∧
      ∀ w, Literal s w → w = v := by
  obtain ⟨first, others, rfl, hfirst⟩ := h
  by_cases hhex : isHexNumber (first :: others) = true
  · obtain ⟨x, c, cs, hs, hx, -⟩ := isHexNumber_iff.mp hhex
    rw [hs] at hhex ⊢
    refine readUnsigned_of_base 16 (c :: cs) ?_ ?_ ?_
    · rw [readUnsigned, if_pos hhex]
      rfl
    · exact fun hdigits => Literal.hexadecimal x c cs hx hdigits
    · intro w hw
      cases hw with
      | decimal _ _ hne _ => exact absurd rfl hne
      | octal _ hdigits =>
          have hoctal := hdigits x List.mem_cons_self
          rw [isDigitIn_of_isHexMark hx] at hoctal
          exact absurd hoctal (by decide)
      | hexadecimal _ _ _ _ hdigits => exact ⟨rfl, hdigits⟩
  · by_cases hzero : first = '0'
    · subst hzero
      refine readUnsigned_of_base 8 ('0' :: others) ?_ ?_ ?_
      · rw [readUnsigned, if_neg hhex]
        rfl
      · exact fun hdigits => Literal.octal others (List.forall_mem_cons.mp hdigits).2
      · intro w hw
        cases hw with
        | decimal _ _ hne _ => exact absurd rfl hne
        | octal _ hdigits => exact ⟨rfl, List.forall_mem_cons.mpr ⟨by decide, hdigits⟩⟩
        | hexadecimal x c cs hx hdigits =>
            have hc := hdigits c List.mem_cons_self
            exact absurd (isHexNumber_iff.mpr ⟨x, c, cs, rfl, hx, hc⟩) hhex
    · refine readUnsigned_of_base 10 (first :: others) ?_ ?_ ?_
      · rw [readUnsigned, if_neg hhex]
        simp only [if_neg hzero, if_pos hfirst]
      · exact fun hdigits => Literal.decimal first others hzero hdigits
      · intro w hw
        cases hw with
        | decimal _ _ _ hdigits => exact ⟨rfl, hdigits⟩
        | octal _ _ => exact absurd rfl hzero
        | hexadecimal _ _ _ _ _ => exact absurd rfl hzero

/-- **What `strtol` reads to the end.**  A text that starts with a digit is a literal exactly if
`strtol` leaves nothing of it unread, and its value is then the literal's, up to the clamp. -/
theorem strtol_spec {s : List Char} (h : StartsWithDigit s) :
    ((strtol s).2 = [] ↔ ∃ w, Literal s w) ∧
      ∀ w, Literal s w → (strtol s).1 = min longMax (w : ℤ) := by
  obtain ⟨v, rest, hread, hrest, hvalue⟩ := readUnsigned_spec h
  have hstrtol : strtol s = (min longMax (v : ℤ), rest) := by
    rw [strtol_of_startsWithDigit h, hread]
  rw [hstrtol]
  refine ⟨hrest, ?_⟩
  intro w hw
  rw [hvalue w hw]

end IntegerLiteral
