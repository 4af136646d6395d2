import AppleALC.HdaTools.ConvertWrites
import AppleALC.HdaTools.VerbitAssocs

/-!
# From a codec dump to a table of pins

The line of verbs that verbit.sh prints is what convert.sh reads.  As long as the associations last,
every pin of use becomes one entry of the table: its default configuration with the association it
was given, the sequence zero, no misc bits, and no location but the rear one or none.

* `ValidPin` — a pin as ALSA prints it;
* `correctedPin` — the default configuration that verbit.sh wants it to have;
* `writesOf_oneLine` — what the verbs of verbit.sh write, place by place;
* `verbit_convert` — the table that convert.sh makes of them.
-/

namespace AppleALC.HdaTools

open HexWord IntegerLiteral ShellText PackedBytes WriteLog

/-! ### Reading words -/

theorem verbsOf_digits {ds : List Char} (hds : ∀ c ∈ ds, isDigitIn 16 c = true) {front : List Char}
    (hlength : front.length + ds.length = 8) (hne : ds ≠ []) (rest : List Char) :
    verbsOf front (ds ++ rest) = valueIn 16 (front ++ ds) :: verbsOf [] rest := by
  induction ds generalizing front with
  | nil => exact absurd rfl hne
  | cons c ds ih =>
      obtain ⟨hc, hds⟩ := List.forall_mem_cons.mp hds
      rw [List.cons_append, verbsOf]
      simp only [hc, if_true, List.length_append, List.length_singleton]
      rw [List.length_cons] at hlength
      by_cases hlast : ds = []
      · rw [hlast, List.length_nil] at hlength
        rw [if_pos (by omega), hlast, List.nil_append]
      · have hpos : 0 < ds.length := List.length_pos_iff.mpr hlast
        rw [if_neg (by omega), ih hds (by rw [List.length_append, List.length_singleton]; omega) hlast,
          List.append_assoc, List.singleton_append]

/-- Words of eight digits are read as they stand. -/
theorem verbsOf_words {ws : List Line}
    (h : ∀ w ∈ ws, w.length = 8 ∧ ∀ c ∈ w, isDigitIn 16 c = true) :
    verbsOf [] (ws.flatMap fun w => ' ' :: w) = ws.map (valueIn 16) := by
  induction ws with
  | nil => rfl
  | cons w ws ih =>
      obtain ⟨⟨hlength, hw⟩, hws⟩ := List.forall_mem_cons.mp h
      rw [List.flatMap_cons, List.cons_append, verbsOf]
      have hblank : isDigitIn 16 ' ' = false := by decide
      have hne : w ≠ [] := by
        rintro rfl
        exact absurd hlength (by decide)
      simp only [hblank, Bool.false_eq_true, if_false, List.length_nil]
      rw [if_neg (by omega), verbsOf_digits hw (by rw [List.length_nil]; omega) hne, ih hws,
        List.map_cons, List.nil_append]

/-! ### The verbs of a pin -/

/-- A pin as ALSA prints it. -/
structure ValidPin (p : VerbPin) : Prop where
  node_length : p.vnode.length = 2
  node_hex : ∀ c ∈ p.vnode, isLowerHex c = true
  node_lt : valueIn 16 p.vnode < 128
  pin_length : p.pin.length = 8
  pin_hex : ∀ c ∈ p.pin, isLowerHex c = true

instance (p : VerbPin) : Decidable (ValidPin p) :=
  decidable_of_iff (p.vnode.length = 2 ∧ p.vnode.all isLowerHex ∧ valueIn 16 p.vnode < 128 ∧
      p.pin.length = 8 ∧ p.pin.all isLowerHex)
    ⟨fun ⟨h1, h2, h3, h4, h5⟩ => ⟨h1, List.all_eq_true.mp h2, h3, h4, List.all_eq_true.mp h5⟩,
      fun ⟨h1, h2, h3, h4, h5⟩ => ⟨h1, List.all_eq_true.mpr h2, h3, h4, List.all_eq_true.mpr h5⟩⟩

def VerbPin.node (p : VerbPin) : ℕ := valueIn 16 p.vnode

/-- What becomes of the location. -/
def correctedLocation (c : Char) : Char := if c = '1' ∨ c = '2' then '1' else '0'

/-- The digits of a byte of the corrected configuration. -/
def pinDigits (p : VerbPin) (a : Char) : ℕ → Line
  | 0 => [a, '0']
  | 1 => cutChars 5 5 p.pin ++ ['0']
  | 2 => cutChars 3 4 p.pin
  | _ => cutChars 1 1 p.pin ++ (cutChars 2 2 p.pin).map correctedLocation

/-- The command that writes a byte. -/
def cmdDigits : ℕ → Line
  | 0 => "71c".toList
  | 1 => "71d".toList
  | 2 => "71e".toList
  | _ => "71f".toList

def pinWord (codecaddr : Line) (p : VerbPin) (a : Char) (k : ℕ) : Line :=
  codecaddr ++ p.vnode ++ cmdDigits k ++ pinDigits p a k

/-- A byte of the corrected configuration. -/
def pinByte (p : VerbPin) (a : Char) (k : ℕ) : ℕ := valueIn 16 (pinDigits p a k)

/-- The corrected configuration. -/
def correctedPin (p : VerbPin) (a : Char) : Line :=
  pinDigits p a 3 ++ pinDigits p a 2 ++ pinDigits p a 1 ++ pinDigits p a 0

theorem eight_digits {s : Line} (h : s.length = 8) :
    ∃ c1 c2 c3 c4 c5 c6 c7 c8, s = [c1, c2, c3, c4, c5, c6, c7, c8] := by
  match s, h with
  | [c1, c2, c3, c4, c5, c6, c7, c8], _ => exact ⟨c1, c2, c3, c4, c5, c6, c7, c8, rfl⟩

theorem two_digits {s : Line} (h : s.length = 2) : ∃ c1 c2, s = [c1, c2] := by
  match s, h with
  | [c1, c2], _ => exact ⟨c1, c2, rfl⟩

section Pin

variable {x : Char} {p : VerbPin}

theorem pinDigits_spec (hp : ValidPin p) {a : Char} (ha : isLowerHex a = true) (k : ℕ) :
    (pinDigits p a k).length = 2 ∧ ∀ c ∈ pinDigits p a k, isLowerHex c = true := by
  obtain ⟨c1, c2, c3, c4, c5, c6, c7, c8, hpin⟩ := eight_digits hp.pin_length
  have hhex := hp.pin_hex
  rw [hpin] at hhex
  simp only [List.forall_mem_cons] at hhex
  obtain ⟨h1, -, h3, h4, h5, -⟩ := hhex
  have hzero : isLowerHex '0' = true := by decide
  have hloc : isLowerHex (correctedLocation c2) = true := by
    unfold correctedLocation
    split <;> decide
  match k with
  | 0 => simp [pinDigits, ha, hzero]
  | 1 => simp [pinDigits, cutChars, hpin, h5, hzero]
  | 2 => simp [pinDigits, cutChars, hpin, h3, h4]
  | k + 3 => simp [pinDigits, cutChars, hpin, h1, hloc]

theorem pinByte_lt (hp : ValidPin p) {a : Char} (ha : isLowerHex a = true) (k : ℕ) :
    pinByte p a k < 256 := by
  obtain ⟨hlength, hhex⟩ := pinDigits_spec hp ha k
  have hlt := valueIn_lt hhex
  rw [hlength] at hlt
  exact hlt

/-- **A verb of a pin writes its byte.** -/
theorem writeOf_pinWord (hx : isLowerHex x = true) (hp : ValidPin p) {a : Char}
    (ha : isLowerHex a = true) {k : ℕ} (hk : k < 4) :
    writeOf (valueIn 16 (pinWord [x] p a k)) = some ((p.node, k), pinByte p a k) := by
  obtain ⟨hlength, -⟩ := pinDigits_spec hp ha k
  have hbyte := pinByte_lt hp ha k
  have haddr : valueIn 16 [x] < 16 := by
    have hone : ∀ c ∈ [x], isLowerHex c = true := by simpa using hx
    exact valueIn_lt hone
  have hcmd : (cmdDigits k).length = 3 ∧ valueIn 16 (cmdDigits k) = 0x71c + k := by
    have hk' : k = 0 ∨ k = 1 ∨ k = 2 ∨ k = 3 := by omega
    rcases hk' with rfl | rfl | rfl | rfl <;> decide
  have hvalue : valueIn 16 (pinWord [x] p a k) =
      valueIn 16 [x] * 268435456 + p.node * 1048576 + (0x71c + k) * 256 + pinByte p a k := by
    rw [pinWord, valueIn_append, valueIn_append, valueIn_append, hlength, hcmd.1, hcmd.2,
      hp.node_length, pinByte, VerbPin.node]
    omega
  have hnode := hp.node_lt
  rw [← VerbPin.node] at hnode
  simp only [writeOf, shifty_eq, hvalue]
  rw [if_pos (by omega)]
  simp only [Option.some.injEq, Prod.mk.injEq]
  omega

/-- A verb of a pin has eight digits. -/
theorem pinWord_spec (hx : isLowerHex x = true) (hp : ValidPin p) {a : Char}
    (ha : isLowerHex a = true) {k : ℕ} (hk : k < 4) :
    (pinWord [x] p a k).length = 8 ∧ ∀ c ∈ pinWord [x] p a k, isDigitIn 16 c = true := by
  obtain ⟨hlength, hhex⟩ := pinDigits_spec hp ha k
  have hcmd : (cmdDigits k).length = 3 ∧ ∀ c ∈ cmdDigits k, isDigitIn 16 c = true := by
    have hk' : k = 0 ∨ k = 1 ∨ k = 2 ∨ k = 3 := by omega
    rw [← List.all_eq_true]
    rcases hk' with rfl | rfl | rfl | rfl <;> decide
  refine ⟨by simp [pinWord, hlength, hcmd.1, hp.node_length], ?_⟩
  intro c hc
  simp only [pinWord, List.mem_append, List.mem_singleton] at hc
  rcases hc with ((rfl | hc) | hc) | hc
  · exact (digit_spec hx).1
  · exact (digit_spec (hp.node_hex c hc)).1
  · exact hcmd.2 c hc
  · exact (digit_spec (hhex c hc)).1

/-- Three of the verbs are corrected one by one. -/
theorem corrected_verbs (x : Char) (hp : ValidPin p) (a : Char) :
    nverbd (verbd [x] p) = pinWord [x] p a 1 ∧ verbe [x] p = pinWord [x] p a 2 ∧
      nverbf (verbf [x] p) = pinWord [x] p a 3 := by
  obtain ⟨n1, n2, hnode⟩ := two_digits hp.node_length
  obtain ⟨c1, c2, c3, c4, c5, c6, c7, c8, hpin⟩ := eight_digits hp.pin_length
  refine ⟨?_, ?_, ?_⟩
  · simp [nverbd, verbd, pinWord, pinDigits, cmdDigits, cutChars, hnode, hpin]
  · simp [verbe, pinWord, pinDigits, cmdDigits, cutChars, hpin]
  · have hlower : "0123456789abcdef".toList.all fun c => decide (
        (if (if [c.toUpper] = ['2'] then ['1'] else [c.toUpper]) ≠ ['1'] then ['0']
          else if [c.toUpper] = ['2'] then ['1'] else [c.toUpper]) = [correctedLocation c]) := by
      decide
    have hc2 : isLowerHex c2 = true := hp.pin_hex c2 (by rw [hpin]; simp)
    have hmisc := of_decide_eq_true
      (List.all_eq_true.mp hlower c2 (List.contains_iff_mem.mp hc2))
    simp only [nverbf, verbf, pinWord, pinDigits, cmdDigits, cutChars, hnode, hpin]
    simpa using hmisc

/-- The first one has the association digit in its place. -/
theorem verbc_eq (x : Char) (hp : ValidPin p) :
    ∃ front c d, verbc [x] p = front ++ [c, d] ∧ front.length = 6 ∧ isLowerHex c = true ∧
      ∀ a, front ++ [a, '0'] = pinWord [x] p a 0 := by
  obtain ⟨n1, n2, hnode⟩ := two_digits hp.node_length
  obtain ⟨c1, c2, c3, c4, c5, c6, c7, c8, hpin⟩ := eight_digits hp.pin_length
  refine ⟨[x, n1, n2, '7', '1', 'c'], c7, c8, ?_, rfl, hp.pin_hex c7 (by rw [hpin]; simp), ?_⟩
  · simp [verbc, cutChars, hnode, hpin]
  · intro a
    simp [pinWord, pinDigits, cmdDigits, hnode]

theorem verbc_valid (x : Char) (hp : ValidPin p) : ValidVerb (verbc [x] p) := by
  obtain ⟨front, c, d, hverbc, hfront, hc, -⟩ := verbc_eq x hp
  rw [ValidVerb, hverbc]
  refine ⟨by simp [hfront], ?_⟩
  rw [assocDigit, List.getElem?_append_right (by omega), hfront]
  exact hc

end Pin

/-! ### All pins -/

section Pins

variable {x : Char} {pins : List VerbPin}

/-- The verbs of all pins with their new associations. -/
def pinWords (codecaddr : Line) (pins : List VerbPin) (as : List Char) : List Line :=
  (pins.zip as).flatMap fun (p, a) => (List.range 4).map (pinWord codecaddr p a)

def pinWrites (pins : List VerbPin) (as : List Char) : List ((ℕ × ℕ) × ℕ) :=
  (pins.zip as).flatMap fun (p, a) => (List.range 4).map fun k => ((p.node, k), pinByte p a k)

/-- The first verbs of the pins, when every pin has a new association. -/
theorem zipWith_correctedVerb (hpins : ∀ p ∈ pins, ValidPin p) (news : List (Option Char))
    (hlength : news.length = pins.length) (hall : none ∉ news) :
    ∃ as : List Char, as.length = pins.length ∧
      List.zipWith correctedAssoc ((pins.map (verbc [x])).map assocDigit) news = as.map some ∧
      List.zipWith (fun verbc new => correctedVerb verbc (countedAssoc (assocDigit verbc)) new)
        (pins.map (verbc [x])) news = List.zipWith (fun p a => pinWord [x] p a 0) pins as := by
  induction pins generalizing news with
  | nil => exact ⟨[], rfl, rfl, rfl⟩
  | cons p pins ih =>
      cases news with
      | nil => exact absurd hlength nofun
      | cons new news =>
          obtain ⟨hp, hpins⟩ := List.forall_mem_cons.mp hpins
          rw [List.mem_cons, not_or] at hall
          obtain ⟨as, has, hdigits, hverbs⟩ := ih hpins news (by simpa using hlength) hall.2
          obtain ⟨front, c, d, hverbc, hfront, -, hword⟩ := verbc_eq x hp
          have hdigit : assocDigit (verbc [x] p) = c := by
            rw [hverbc, assocDigit, List.getElem?_append_right (by omega), hfront]
            rfl
          obtain ⟨a, ha⟩ := Option.ne_none_iff_exists'.mp
            (correctedAssoc_ne_none (ne_comm.mp hall.1) c)
          refine ⟨a :: as, by rw [List.length_cons, has, List.length_cons], ?_, ?_⟩
          · rw [List.map_cons, List.map_cons, List.zipWith_cons_cons, hdigits, hdigit, ha]
            rfl
          · rw [List.map_cons, List.zipWith_cons_cons, List.zipWith_cons_cons, hverbs, hdigit,
              hverbc, correctedVerb_eq hfront c d ha, hword]

/-- The line of verbs. -/
theorem oneLine_eq (hpins : ∀ p ∈ pins, ValidPin p) {as : List Char}
    (hverbs : nverbcs (pins.map (verbc [x])) =
      List.zipWith (fun p a => pinWord [x] p a 0) pins as) :
    oneLine [x] pins = (pinWords [x] pins as).flatMap fun w => ' ' :: w := by
  rw [oneLine, hverbs, pinWords, List.flatMap_assoc]
  clear hverbs
  induction pins generalizing as with
  | nil => rfl
  | cons p pins ih =>
      obtain ⟨hp, hpins⟩ := List.forall_mem_cons.mp hpins
      cases as with
      | nil => rfl
      | cons a as =>
          obtain ⟨hd, he, hf⟩ := corrected_verbs x hp a
          rw [List.zipWith_cons_cons, List.zip_cons_cons, List.zip_cons_cons, List.flatMap_cons,
            List.flatMap_cons, ih hpins]
          simp [hd, he, hf, List.range_succ]

/-- **What convert.sh reads.**  The verbs of the pins are read back, and each writes its byte. -/
theorem writesOf_oneLine (hx : isLowerHex x = true) (hpins : ∀ p ∈ pins, ValidPin p) {as : List Char}
    (has : ∀ a ∈ as, isLowerHex a = true)
    (hverbs : nverbcs (pins.map (verbc [x])) =
      List.zipWith (fun p a => pinWord [x] p a 0) pins as) :
    writesOf (verbsOf [] (oneLine [x] pins)) = pinWrites pins as ∧
      ∀ v ∈ verbsOf [] (oneLine [x] pins), writeOf v ≠ none := by
  have hmem : ∀ pa ∈ pins.zip as, ValidPin pa.1 ∧ isLowerHex pa.2 = true := by
    intro pa hpa
    exact ⟨hpins _ (List.of_mem_zip hpa).1, has _ (List.of_mem_zip hpa).2⟩
  have hwords : ∀ w ∈ pinWords [x] pins as,
      w.length = 8 ∧ ∀ c ∈ w, isDigitIn 16 c = true := by
    intro w hw
    obtain ⟨pa, hpa, hw⟩ := List.mem_flatMap.mp hw
    obtain ⟨k, hk, rfl⟩ := List.mem_map.mp hw
    exact pinWord_spec hx (hmem pa hpa).1 (hmem pa hpa).2 (List.mem_range.mp hk)
  rw [oneLine_eq hpins hverbs, verbsOf_words hwords, writesOf, List.filterMap_map, pinWords,
    pinWrites]
  generalize pins.zip as = pas at hmem ⊢
  constructor
  · induction pas with
    | nil => rfl
    | cons pa pas ih =>
        obtain ⟨⟨hp, ha⟩, hmem⟩ := List.forall_mem_cons.mp hmem
        rw [List.flatMap_cons, List.filterMap_append, ih hmem, List.flatMap_cons, List.filterMap_map]
        congr 1
        simp [List.range_succ, Function.comp_def, writeOf_pinWord hx hp ha]
  · intro v hv
    obtain ⟨w, hw, rfl⟩ := List.mem_map.mp hv
    obtain ⟨pa, hpa, hw⟩ := List.mem_flatMap.mp hw
    obtain ⟨k, hk, rfl⟩ := List.mem_map.mp hw
    rw [writeOf_pinWord hx (hmem pa hpa).1 (hmem pa hpa).2 (List.mem_range.mp hk)]
    exact Option.some_ne_none _

/-- No place is written twice, if the pins are of different nodes. -/
theorem nodup_pinWrites (hnodes : (pins.map VerbPin.node).Nodup) {as : List Char}
    (hlength : as.length = pins.length) : ((pinWrites pins as).map Prod.fst).Nodup := by
  have hzip : ((pins.zip as).map fun pa => pa.1.node).Nodup := by
    have hfst : (pins.zip as).map Prod.fst = pins := List.map_fst_zip (by omega)
    rw [← hfst, List.map_map] at hnodes
    exact hnodes
  rw [pinWrites, List.map_flatMap, List.nodup_flatMap]
  constructor
  · intro pa _
    rw [List.map_map]
    exact List.nodup_range.map fun j k h => (Prod.mk.inj h).2
  · refine List.Pairwise.imp ?_ (List.pairwise_map.mp hzip)
    intro pa qb hne w hw hw'
    simp only [List.map_map, List.mem_map, Function.comp_apply] at hw hw'
    obtain ⟨j, -, rfl⟩ := hw
    obtain ⟨k, -, heq⟩ := hw'
    exact hne (Prod.mk.inj heq).1.symm

/-- What is held of a list of verbs that write every place of some nodes once. -/
theorem heldByte_pinWrites {verbs : List ℕ} {as : List Char}
    (hnodup : ((pinWrites pins as).map Prod.fst).Nodup)
    (hwrites : writesOf verbs = pinWrites pins as) :
    (∀ p a, (p, a) ∈ pins.zip as → ∀ k < 4, heldByte verbs p.node k = some (pinByte p a k)) ∧
      ∀ i k, heldByte verbs i k ≠ none → ∃ p a, (p, a) ∈ pins.zip as ∧ p.node = i := by
  constructor
  · intro p a hpa k hk
    have hmem : ((p.node, k), pinByte p a k) ∈ pinWrites pins as :=
      List.mem_flatMap.mpr ⟨(p, a), hpa, List.mem_map.mpr ⟨k, List.mem_range.mpr hk, rfl⟩⟩
    rw [heldByte, joined_eq, hwrites, writesTo_of_nodup hnodup hmem]
    rfl
  · intro i k hne
    by_contra hnot
    refine hne ?_
    have hnil : writesTo (pinWrites pins as) (i, k) = [] := by
      refine List.map_eq_nil_iff.mpr (List.filter_eq_nil_iff.mpr fun w hw => ?_)
      obtain ⟨pa, hpa, hw⟩ := List.mem_flatMap.mp hw
      obtain ⟨j, -, rfl⟩ := List.mem_map.mp hw
      rw [decide_eq_true_eq, Prod.mk.injEq]
      exact fun h => hnot ⟨pa.1, pa.2, hpa, h.1⟩
    rw [heldByte, joined_eq, hwrites, hnil]

/-- The value of a corrected configuration. -/
theorem pack_pinByte {p : VerbPin} (hp : ValidPin p) {a : Char} (ha : isLowerHex a = true) :
    pack (pinByte p a) 4 = valueIn 16 (correctedPin p a) ∧
      hexPad 8 (valueIn 16 (correctedPin p a)) = correctedPin p a := by
  have hdigits := pinDigits_spec hp ha
  constructor
  · rw [pack_four (pinByte_lt hp ha), correctedPin, valueIn_append, valueIn_append, valueIn_append,
      (hdigits 0).1, (hdigits 1).1, (hdigits 2).1]
    rfl
  · have hlength : (correctedPin p a).length = 8 := by
      simp [correctedPin, (hdigits _).1]
    have hhex : ∀ c ∈ correctedPin p a, isLowerHex c = true := by
      intro c hc
      simp only [correctedPin, List.mem_append] at hc
      rcases hc with ((hc | hc) | hc) | hc
      · exact (hdigits 3).2 c hc
      · exact (hdigits 2).2 c hc
      · exact (hdigits 1).2 c hc
      · exact (hdigits 0).2 c hc
    rw [← hlength]
    exact hexPad_valueIn hhex

/-- The table has the pins and nothing else, and no verb is left over. -/
theorem table_of_pinWrites {verbs : List ℕ} {s : ConvertState} (h : Holds verbs s) {as : List Char}
    (hpins : ∀ p ∈ pins, ValidPin p) (has : ∀ a ∈ as, isLowerHex a = true)
    (hnodup : ((pinWrites pins as).map Prod.fst).Nodup)
    (hwrites : writesOf verbs = pinWrites pins as) (hall : ∀ v ∈ verbs, writeOf v ≠ none) :
    (∀ entry, entry ∈ s.configs ↔ ∃ p a, (p, a) ∈ pins.zip as ∧
        entry = (p.node, valueIn 16 (correctedPin p a))) ∧ s.otherVerbs = [] := by
  obtain ⟨hheld, hnode⟩ := heldByte_pinWrites hnodup hwrites
  have hfull : ∀ p a, (p, a) ∈ pins.zip as →
      s.configFill p.node = some allFilled ∧ s.incomplete p.node = [] := by
    intro p a hpa
    refine incomplete_of_full s (h.fill p.node) fun k hk => ?_
    rw [hheld p a hpa k hk]
    rfl
  have hvalue : ∀ p a, (p, a) ∈ pins.zip as →
      s.configDefault p.node = some (valueIn 16 (correctedPin p a)) := by
    intro p a hpa
    have hsome : (s.configDefault p.node).isSome = true := by
      rw [h.both, (hfull p a hpa).1]
      rfl
    obtain ⟨d, hd⟩ := Option.isSome_iff_exists.mp hsome
    have hget := h.value p.node
    have hcongr : pack (fun k => (heldByte verbs p.node k).getD 0) 4 = pack (pinByte p a) 4 := by
      refine pack_congr fun k hk => ?_
      rw [hheld p a hpa k hk]
      rfl
    rw [hd, Option.getD_some, hcongr,
      (pack_pinByte (hpins p (List.of_mem_zip hpa).1) (has a (List.of_mem_zip hpa).2)).1] at hget
    rw [hd, hget]
  -- a node that is no pin holds nothing
  have hnone : ∀ i, (∀ p a, (p, a) ∈ pins.zip as → p.node ≠ i) → ∀ k, heldByte verbs i k = none := by
    intro i hi k
    by_contra hne
    obtain ⟨p, a, hpa, hp⟩ := hnode i k hne
    exact hi p a hpa hp
  constructor
  · rintro ⟨i, d⟩
    rw [ConvertState.configs, List.mem_filterMap]
    constructor
    · rintro ⟨j, -, hj⟩
      split at hj
      · next hfill =>
        obtain ⟨e, he, heq⟩ := Option.map_eq_some_iff.mp hj
        obtain ⟨rfl, rfl⟩ := Prod.mk.inj heq
        have hall := (fillOf_spec fun k => (heldByte verbs j k).isSome).1.mp
          (by rw [← h.fill, hfill]; rfl)
        have hflag : (heldByte verbs j 0).isSome = true := hall 0 (by decide)
        obtain ⟨p, a, hpa, rfl⟩ := hnode j 0 (Option.isSome_iff_ne_none.mp hflag)
        exact ⟨p, a, hpa, by rw [Option.some.inj (he.symm.trans (hvalue p a hpa))]⟩
      · cases hj
    · rintro ⟨p, a, hpa, heq⟩
      obtain ⟨rfl, rfl⟩ := Prod.mk.inj heq
      have hlt : p.node < 128 := (hpins p (List.of_mem_zip hpa).1).node_lt
      refine ⟨p.node, List.mem_range.mpr (by omega), ?_⟩
      rw [if_pos (hfull p a hpa).1, hvalue p a hpa]
      rfl
  · have hunknown : s.unknownVerbs = [] := by
      rw [h.unknown]
      exact List.filter_eq_nil_iff.mpr fun v hv => by simpa using hall v hv
    rw [ConvertState.otherVerbs, hunknown, List.append_nil, List.flatMap_eq_nil_iff]
    intro i _
    by_cases hi : ∃ p a, (p, a) ∈ pins.zip as ∧ p.node = i
    · obtain ⟨p, a, hpa, rfl⟩ := hi
      exact (hfull p a hpa).2
    · have hempty := hnone i fun p a hpa hp => hi ⟨p, a, hpa, hp⟩
      have hfill := h.fill i
      simp only [hempty] at hfill
      have hpart : ¬∀ k < 4, (none : Option ℕ).isSome = true := fun hall => absurd (hall 0) (by decide)
      rw [incomplete_eq s hfill hpart]
      rfl

end Pins

/-! ### A sample dump -/

/-- Two pins of association one and an empty one. -/
def Sample.dump : List Line :=
  ["Codec: Realtek ALC292", "Address: 0", "AFG Function Id: 0x1 (unsol 1)", "Vendor Id: 0x10ec0292",
    "Node 0x14 [Pin Complex] wcaps 0x40058d: Stereo Amp-Out",
    "  Pin Default 0x90170110: [Fixed] Speaker at Int N/A", "    Conn = Analog, Color = Unknown",
    "Node 0x15 [Pin Complex] wcaps 0x40058d: Stereo Amp-Out",
    "  Pin Default 0x0221401f: [Jack] HP Out at Ext Front", "    Conn = 1/8, Color = Green",
    "Node 0x16 [Pin Complex] wcaps 0x40058d: Stereo Amp-Out",
    "  Pin Default 0x411111f0: [N/A] Speaker at Ext Rear",
    "    Conn = 1/8, Color = Black"].map String.toList

/-! ### The table of a dump -/

/-- **From the dump to the table.**  For a dump of one codec whose pins of use are of different nodes,
and no more than the associations: convert.sh makes of the line of verbs that verbit.sh prints one
line for each pin and nothing else.  The pin has its own configuration there, with an association of
its own, the sequence zero, no misc bits and the corrected location. -/
theorem verbit_convert {codecfile : List Line} {text : List Char} (htext : verbit codecfile = some text)
    {x : Char} (haddr : codecAddress codecfile = [x]) (hx : isLowerHex x = true)
    (hpins : ∀ p ∈ readPins codecfile, ValidPin p)
    (hnodes : ((readPins codecfile).map VerbPin.node).Nodup)
    (hcount : (readPins codecfile).length ≤
      if 'f' ∈ ((readPins codecfile).map (verbc [x])).map assocDigit then 15 else 14) :
    ∃ as : List Char, as.length = (readPins codecfile).length ∧ as.Nodup ∧
      (nverbcs ((readPins codecfile).map (verbc [x]))).map (cutChars 7 7) = as.map (fun a => [a]) ∧
      (∀ line, line ∈ (convertInput text).configs.map configLine ↔
        ∃ p a, (p, a) ∈ (readPins codecfile).zip as ∧
          line = "  0x".toList ++ p.vnode ++ ", 0x".toList ++ correctedPin p a ++ ",\n".toList) ∧
      (convertInput text).otherVerbs = [] := by
  have hline : text = oneLine [x] (readPins codecfile) := by
    unfold verbit at htext
    split at htext
    · rw [← Option.some.inj htext, haddr]
    · exact absurd htext nofun
  generalize readPins codecfile = pins at hpins hnodes hcount hline ⊢
  have hvalid : ∀ v ∈ pins.map (verbc [x]), ValidVerb v := by
    intro v hv
    obtain ⟨p, hp, rfl⟩ := List.mem_map.mp hv
    exact verbc_valid x (hpins p hp)
  have hall : none ∉ newAssocs (pins.map (verbc [x])) :=
    (none_notMem_newAssocs_iff hvalid).mpr (by rw [List.length_map]; exact hcount)
  obtain ⟨as, hlength, hdigits, hverbs⟩ := zipWith_correctedVerb hpins
    (newAssocs (pins.map (verbc [x]))) (by rw [newAssocs_length, List.length_map]) hall
  rw [← nverbcs_eq hvalid] at hverbs
  have hnew : newDigits (pins.map (verbc [x])) = as.map some := hdigits
  have has : ∀ a ∈ as, isLowerHex a = true := by
    intro a ha
    exact newDigits_lower hvalid (hnew ▸ List.mem_map_of_mem ha)
  have hnodup : as.Nodup := List.Nodup.of_map some (hnew ▸ nodup_newDigits hall)
  obtain ⟨hwrites, hconfig⟩ := writesOf_oneLine hx hpins has hverbs
  rw [← hline] at hwrites hconfig
  obtain ⟨htable, hother⟩ := table_of_pinWrites (holds_convertInput text) hpins has
    (nodup_pinWrites hnodes hlength) hwrites hconfig
  have hassocs : (nverbcs (pins.map (verbc [x]))).map (cutChars 7 7) = as.map fun a => [a] := by
    rw [nverbcs_digits hvalid hall, hnew, List.map_map]
    rfl
  refine ⟨as, hlength, hnodup, hassocs, fun line => ?_, hother⟩
  have hentry : ∀ p a, (p, a) ∈ pins.zip as →
      configLine (p.node, valueIn 16 (correctedPin p a)) =
        "  0x".toList ++ p.vnode ++ ", 0x".toList ++ correctedPin p a ++ ",\n".toList := by
    intro p a hpa
    have hp := hpins p (List.of_mem_zip hpa).1
    have hnode : hexPad 2 p.node = p.vnode := by
      rw [VerbPin.node, ← hp.node_length]
      exact hexPad_valueIn hp.node_hex
    rw [configLine, hnode, (pack_pinByte hp (has a (List.of_mem_zip hpa).2)).2]
  rw [List.mem_map]
  constructor
  · rintro ⟨entry, hmem, rfl⟩
    obtain ⟨p, a, hpa, rfl⟩ := (htable entry).mp hmem
    exact ⟨p, a, hpa, hentry p a hpa⟩
  · rintro ⟨p, a, hpa, rfl⟩
    exact ⟨_, (htable _).mpr ⟨p, a, hpa, rfl⟩, hentry p a hpa⟩

/-- The second pin of the sample gets an association of its own. -/
theorem verbit_convert_sample :
    ∃ text as, verbit Sample.dump = some text ∧ as.length = 2 ∧ as.Nodup ∧
      ∀ line, line ∈ (convertInput text).configs.map configLine ↔
        ∃ p a, (p, a) ∈ (readPins Sample.dump).zip as ∧
          line = "  0x".toList ++ p.vnode ++ ", 0x".toList ++ correctedPin p a ++ ",\n".toList := by
  have hpins : (readPins Sample.dump).length = 2 ∧ (∀ p ∈ readPins Sample.dump, ValidPin p) ∧
      ((readPins Sample.dump).map VerbPin.node).Nodup := by decide +kernel
  obtain ⟨text, htext⟩ : ∃ text, verbit Sample.dump = some text :=
    Option.isSome_iff_exists.mp (by decide +kernel)
  have haddr : codecAddress Sample.dump = ['0'] := by decide +kernel
  obtain ⟨as, hlength, hnodup, -, hlines, -⟩ := verbit_convert htext haddr (by decide) hpins.2.1
    hpins.2.2 (by rw [hpins.1]; split <;> decide)
  exact ⟨text, as, htext, hlength.trans hpins.1, hnodup, hlines⟩

end AppleALC.HdaTools
