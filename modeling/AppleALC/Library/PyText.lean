import Mathlib.Data.List.DropRight
import Mathlib.Data.List.Infix
import AppleALC.Library.HexWord

/-!
# Text in Python

The string methods, the numerals and the formats that a script uses to read a dump of text and to
name things after numbers.

* `lstrip`, `split`, `splitComma`, `findBrackets` — the methods;
* `split_intercalate` / `splitComma_intercalate` — words that were joined are read back;
* `int_hexNumeral` / `int_decimal` — and so are numerals;
* `hex02_injective` / `decimal_injective` — names after numbers are different.
-/

namespace PyText

open HexWord IntegerLiteral

abbrev Str := List Char

/-! ### String methods -/

def lstrip (s : Str) : Str := s.dropWhile isSpace

def strip (s : Str) : Str := (lstrip s).rdropWhile isSpace

/-- `s.split()`: the words of a string. -/
def split (s : Str) : List Str := (s.splitOnP isSpace).filter (· ≠ [])

/-- `s.split(c, 1)`, where two strings are expected. -/
def splitFirst (c : Char) (s : Str) : Option (Str × Str) :=
  if c ∈ s then some (s.takeWhile (· ≠ c), (s.dropWhile (· ≠ c)).tail) else none

/-- `s.split(', ')`. -/
def splitComma : Str → List Str
  | [] => [[]]
  | ',' :: ' ' :: s => [] :: splitComma s
  | c :: s => (splitComma s).modifyHead (c :: ·)

/-- `t in s`. -/
def isIn (t s : Str) : Bool := decide (t <:+: s)

/-- `re.findall(r'\[([^]]*)\]', s)`, inside brackets after a text. -/
def findBrackets : (inside : Option Str) → Str → List Str
  | _, [] => []
  | none, c :: s => findBrackets (if c = '[' then some [] else none) s
  | some t, c :: s => if c = ']' then t :: findBrackets none s else findBrackets (some (t ++ [c])) s

/-! ### Numbers -/

/-- `int(s, b)`: blanks around the number, a sign, and `0x` in base 16 are passed over. -/
def int (b : ℕ) (s : Str) : Option ℤ :=
  let s := strip s
  let (sign, s) :=
    match s with
    | '-' :: s => ((-1 : ℤ), s)
    | '+' :: s => (1, s)
    | s => (1, s)
  let digits :=
    match b, s with
    | 16, '0' :: x :: t => if isHexMark x then t else s
    | _, s => s
  if digits ≠ [] ∧ digits.all (isDigitIn b) then some (sign * valueIn b digits) else none

/-- `'%02x' % n`. -/
def hex02 : ℤ → Str
  | .ofNat n => hexPad (max 2 (Nat.digits 16 n).length) n
  | .negSucc n => '-' :: hexPad (Nat.digits 16 (n + 1)).length (n + 1)

/-- `'%d' % n`. -/
def decimal : ℤ → Str
  | .ofNat n => Numeral.digits 10 n
  | .negSucc n => '-' :: Numeral.digits 10 (n + 1)

/-! ### Reading what was written -/

theorem isPrefixOf?_append (front s : Str) : front.isPrefixOf? (front ++ s) = some s := by
  induction front with
  | nil => rfl
  | cons c front ih => rw [List.cons_append, List.isPrefixOf?, if_pos (beq_self_eq_true c), ih]

/-- The run of characters at the front of a string, where the next one is of another kind. -/
theorem takeWhile_append_cons {p : Char → Bool} {run : Str} {c : Char} (hrun : ∀ d ∈ run, p d = true)
    (hc : p c = false) (s : Str) :
    (run ++ c :: s).takeWhile p = run ∧ (run ++ c :: s).dropWhile p = c :: s := by
  rw [List.takeWhile_append_of_pos hrun, List.dropWhile_append_of_pos hrun,
    List.takeWhile_cons_of_neg (by simp [hc]), List.dropWhile_cons_of_neg (by simp [hc])]
  exact ⟨List.append_nil run, rfl⟩

/-- A string without blanks is not changed. -/
theorem strip_eq_self {s : Str} (h : ∀ c ∈ s, isSpace c = false) : strip s = s := by
  have hl : lstrip s = s := by
    cases s with
    | nil => rfl
    | cons c s => exact List.dropWhile_cons_of_neg (by simp [h c])
  rw [strip, hl, List.rdropWhile_eq_self_iff]
  intro hne
  simp [h _ (List.getLast_mem hne)]

theorem isSpace_of_isLowerHex {c : Char} (h : isLowerHex c = true) : isSpace c = false := by
  have hall : "0123456789abcdef".toList.all fun c => !isSpace c := by decide
  simpa using List.all_eq_true.mp hall c (List.contains_iff_mem.mp h)

theorem mem_intercalate {sep : Char} {ss : List Str} {c : Char} (h : c ∈ [sep].intercalate ss) :
    c = sep ∨ ∃ s ∈ ss, c ∈ s := by
  induction ss with
  | nil => cases h
  | cons s ss ih =>
      by_cases hnil : ss = []
      · rw [hnil, List.intercalate_singleton] at h
        exact Or.inr ⟨s, List.mem_cons_self, h⟩
      · rw [List.intercalate_cons_of_ne_nil hnil, List.mem_append, List.mem_append,
          List.mem_singleton] at h
        rcases h with (h | h) | h
        · exact Or.inr ⟨s, List.mem_cons_self, h⟩
        · exact Or.inl h
        · exact (ih h).imp_right fun ⟨t, ht, hc⟩ => ⟨t, List.mem_cons_of_mem s ht, hc⟩

/-- Words with one blank between them. -/
theorem split_intercalate {ws : List Str} (h : ∀ w ∈ ws, w ≠ [] ∧ ∀ c ∈ w, isSpace c = false) :
    split ([' '].intercalate ws) = ws := by
  induction ws with
  | nil => rfl
  | cons w ws ih =>
      obtain ⟨⟨hne, hw⟩, hws⟩ := List.forall_mem_cons.mp h
      rw [split]
      by_cases hnil : ws = []
      · rw [hnil, List.intercalate_singleton, List.splitOnP_eq_singleton hw]
        simp [hne]
      · rw [List.intercalate_cons_of_ne_nil hnil, List.append_assoc,
          show [' '] ++ [' '].intercalate ws = ' ' :: [' '].intercalate ws from rfl,
          List.splitOnP_append_cons_of_forall_mem hw ' ' rfl, List.filter_cons_of_pos (by simpa)]
        exact congrArg (w :: ·) (ih hws)

theorem splitFirst_append {c : Char} {s : Str} (h : c ∉ s) (t : Str) :
    splitFirst c (s ++ c :: t) = some (s, t) := by
  have hs : ∀ d ∈ s, decide (d ≠ c) = true := by
    intro d hd
    exact decide_eq_true fun hdc => h (hdc ▸ hd)
  obtain ⟨htake, hdrop⟩ := takeWhile_append_cons hs (show decide (c ≠ c) = false by simp) t
  rw [splitFirst, if_pos (by simp), htake, hdrop]
  rfl

theorem splitComma_self {s : Str} (h : ',' ∉ s) : splitComma s = [s] := by
  induction s with
  | nil => rfl
  | cons c s ih =>
      obtain ⟨hc, hs⟩ := not_or.mp (mt List.mem_cons.mpr h)
      rw [splitComma, ih hs]
      · rfl
      · intro _ hcomma
        exact absurd hcomma.symm hc

theorem splitComma_append {s : Str} (h : ',' ∉ s) (t : Str) :
    splitComma (s ++ ',' :: ' ' :: t) = s :: splitComma t := by
  induction s with
  | nil => rfl
  | cons c s ih =>
      obtain ⟨hc, hs⟩ := not_or.mp (mt List.mem_cons.mpr h)
      rw [List.cons_append, splitComma, ih hs]
      · rfl
      · intro _ hcomma
        exact absurd hcomma.symm hc

theorem splitComma_intercalate {ss : List Str} (h : ∀ s ∈ ss, ',' ∉ s) (hne : ss ≠ []) :
    splitComma ([',', ' '].intercalate ss) = ss := by
  induction ss with
  | nil => exact absurd rfl hne
  | cons s ss ih =>
      obtain ⟨hs, hss⟩ := List.forall_mem_cons.mp h
      by_cases hnil : ss = []
      · rw [hnil, List.intercalate_singleton, splitComma_self hs]
      · rw [List.intercalate_cons_of_ne_nil hnil, List.append_assoc]
        exact (splitComma_append hs _).trans (congrArg (s :: ·) (ih hss hnil))

theorem findBrackets_inside {v : Str} (h : ']' ∉ v) (front rest : Str) :
    findBrackets (some front) (v ++ ']' :: rest) = (front ++ v) :: findBrackets none rest := by
  induction v generalizing front with
  | nil => rw [List.nil_append, findBrackets, if_pos rfl, List.append_nil]
  | cons c v ih =>
      obtain ⟨hc, hv⟩ := not_or.mp (mt List.mem_cons.mpr h)
      rw [List.cons_append, findBrackets, if_neg (Ne.symm hc), ih hv, List.append_assoc]
      rfl

/-- Texts in brackets with a blank in front of each. -/
theorem findBrackets_flatMap {vs : List Str} (h : ∀ v ∈ vs, ']' ∉ v) :
    findBrackets none (vs.flatMap fun v => ' ' :: '[' :: (v ++ [']'])) = vs := by
  induction vs with
  | nil => rfl
  | cons v vs ih =>
      obtain ⟨hv, hvs⟩ := List.forall_mem_cons.mp h
      have hblank : ∀ s, findBrackets none (' ' :: '[' :: s) = findBrackets (some []) s := fun _ => rfl
      rw [List.flatMap_cons, List.cons_append, List.cons_append, List.append_assoc, hblank,
        List.singleton_append, findBrackets_inside hv, ih hvs, List.nil_append]

/-- Blanks in front of the brackets do not count. -/
theorem findBrackets_lstrip (s : Str) : findBrackets none (lstrip s) = findBrackets none s := by
  induction s with
  | nil => rfl
  | cons c s ih =>
      rw [lstrip]
      by_cases hc : isSpace c = true
      · have hbracket : c ≠ '[' := by
          rintro rfl
          exact absurd hc (by decide)
        rw [List.dropWhile_cons_of_pos hc, findBrackets, if_neg hbracket]
        exact ih
      · rw [List.dropWhile_cons_of_neg hc]

/-- The digits of a number that is not negative. -/
theorem hex02_natCast (n : ℕ) :
    (∀ c ∈ hex02 n, isLowerHex c = true) ∧ hex02 n ≠ [] ∧ valueIn 16 (hex02 n) = n := by
  have hlen : n < 16 ^ max 2 (Nat.digits 16 n).length :=
    lt_of_lt_of_le (Nat.lt_base_pow_length_digits (by decide))
      (Nat.pow_le_pow_right (by decide) (le_max_right _ _))
  have hval : valueIn 16 (hex02 n) = n := valueIn_hexPad hlen
  refine ⟨fun c hc => isLowerHex_of_mem_hexPad hc, fun hnil => ?_, hval⟩
  obtain ⟨w, hw⟩ : ∃ w, max 2 (Nat.digits 16 n).length = w + 1 :=
    Nat.exists_eq_succ_of_ne_zero (by omega)
  rw [show hex02 n = hexPad (max 2 (Nat.digits 16 n).length) n from rfl, hw, hexPad] at hnil
  exact absurd hnil (by simp)

/-- A hexadecimal numeral with its mark. -/
theorem int_hexNumeral {digits : Str} (h : ∀ c ∈ digits, isLowerHex c = true) (hne : digits ≠ []) :
    int 16 ('0' :: 'x' :: digits) = some (valueIn 16 digits : ℤ) := by
  have hstrip : strip ('0' :: 'x' :: digits) = '0' :: 'x' :: digits := by
    refine strip_eq_self fun c hc => ?_
    rcases List.mem_cons.mp hc with rfl | hc
    · decide
    · rcases List.mem_cons.mp hc with rfl | hc
      · decide
      · exact isSpace_of_isLowerHex (h c hc)
  have hall : digits.all (isDigitIn 16) = true :=
    List.all_eq_true.mpr fun c hc => (digit_spec (h c hc)).1
  rw [int, hstrip]
  show (if digits ≠ [] ∧ digits.all (isDigitIn 16) = true then
    some (1 * (valueIn 16 digits : ℤ)) else none) = _
  rw [if_pos ⟨hne, hall⟩, one_mul]

theorem hex02_injective {m n : ℤ} (hm : 0 ≤ m) (hn : 0 ≤ n) (h : hex02 m = hex02 n) : m = n := by
  obtain ⟨m, rfl⟩ := Int.eq_ofNat_of_zero_le hm
  obtain ⟨n, rfl⟩ := Int.eq_ofNat_of_zero_le hn
  rw [← (hex02_natCast m).2.2, ← (hex02_natCast n).2.2, h]

theorem digits_injective {m n : ℕ} (h : Numeral.digits 10 m = Numeral.digits 10 n) : m = n := by
  have hval := Numeral.value_digits (show 2 ≤ 10 by omega) (show 10 ≤ 16 by omega) m
  rw [h, Numeral.value_digits (by omega) (by omega)] at hval
  exact (Option.some.inj hval).symm

/-- Both readings of a decimal numeral agree. -/
theorem foldlM_pushDigit {cs : List Char} (h : ∀ c ∈ cs, ∃ d < 10, c = Numeral.digitChar d) (v : ℕ) :
    cs.foldlM (Numeral.pushDigit 10) v =
      some (cs.foldl (fun v c => 10 * v + (digitValue c).getD 0) v) := by
  have hdigit : ∀ d < 10, digitValue (Numeral.digitChar d) = some d := by decide
  induction cs generalizing v with
  | nil => rfl
  | cons c cs ih =>
      obtain ⟨⟨d, hd, rfl⟩, hcs⟩ := List.forall_mem_cons.mp h
      rw [List.foldlM_cons, Numeral.pushDigit_digitChar (by decide) hd, List.foldl_cons, hdigit d hd]
      exact ih hcs _

theorem int_decimal (n : ℕ) : int 10 (decimal n) = some (n : ℤ) := by
  have hmem : ∀ c ∈ Numeral.digits 10 n, ∃ d < 10, c = Numeral.digitChar d :=
    fun c hc => Numeral.mem_digits (by decide) hc
  have hdigit : ∀ d < 10, isDigitIn 10 (Numeral.digitChar d) = true ∧
      isSpace (Numeral.digitChar d) = false ∧ Numeral.digitChar d ≠ '-' ∧
      Numeral.digitChar d ≠ '+' := by decide
  have hstrip : strip (decimal n) = Numeral.digits 10 n := by
    refine strip_eq_self fun c hc => ?_
    obtain ⟨d, hd, rfl⟩ := hmem c hc
    exact (hdigit d hd).2.1
  have hall : (Numeral.digits 10 n).all (isDigitIn 10) = true := by
    refine List.all_eq_true.mpr fun c hc => ?_
    obtain ⟨d, hd, rfl⟩ := hmem c hc
    exact (hdigit d hd).1
  have hval : valueIn 10 (Numeral.digits 10 n) = n := by
    have h := Numeral.value_digits (show 2 ≤ 10 by omega) (show 10 ≤ 16 by omega) n
    rw [Numeral.value_of_ne_nil (Numeral.digits_ne_nil 10 n), foldlM_pushDigit hmem] at h
    exact Option.some.inj h
  obtain ⟨c, cs, hcs⟩ := List.exists_cons_of_ne_nil (Numeral.digits_ne_nil 10 n)
  obtain ⟨d, hd, hcd⟩ := hmem c (hcs ▸ List.mem_cons_self)
  have hsign := (hdigit d hd).2.2
  rw [← hcd] at hsign
  rw [hcs] at hstrip hall hval
  rw [int, hstrip]
  simp only
  split
  · next heq => exact absurd (List.cons.inj heq).1 hsign.1
  · next heq => exact absurd (List.cons.inj heq).1 hsign.2
  · rw [if_pos ⟨List.cons_ne_nil c cs, hall⟩, one_mul, hval]

theorem minus_notMem_digits (n : ℕ) : '-' ∉ Numeral.digits 10 n := by
  intro h
  obtain ⟨d, hd, hc⟩ := Numeral.mem_digits (show 2 ≤ 10 by omega) h
  have hall : ∀ e < 10, '-' ≠ Numeral.digitChar e := by decide
  exact hall d hd hc

theorem decimal_injective {m n : ℤ} (h : decimal m = decimal n) : m = n := by
  cases m with
  | ofNat m =>
      cases n with
      | ofNat n => exact congrArg Int.ofNat (digits_injective h)
      | negSucc n =>
          refine absurd ?_ (minus_notMem_digits m)
          rw [show Numeral.digits 10 m = '-' :: Numeral.digits 10 (n + 1) from h]
          exact List.mem_cons_self
  | negSucc m =>
      cases n with
      | ofNat n =>
          refine absurd ?_ (minus_notMem_digits n)
          rw [← show '-' :: Numeral.digits 10 (m + 1) = Numeral.digits 10 n from h]
          exact List.mem_cons_self
      | negSucc n =>
          have hd := digits_injective (List.cons.inj h).2
          rw [Nat.succ.inj hd]

end PyText
