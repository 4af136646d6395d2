import Mathlib.Data.List.Nodup
import AppleALC.AlcVerb
import AppleALC.Library.IntegerLiteral

/-!
# The arguments of alc-verb

`main` takes three texts from the command line: the node, the verb and the parameter.  The node is a
number; the other two are numbers when they start with a digit, and otherwise abbreviations of a key
in a table.  A text that is refused ends the program with a message; three texts that pass are sent as
a command, which crosses three width conversions before it reaches `executeVerb`.

Keys are checked to be unique, numbers to lie in a range.  What is not checked is where `strtol`
stopped: the texts that pass are those of the documented grammar, and the numbers with something
around them.

The characters of an argument are its bytes; `getopt` has already taken the options away.

* `sent` — what `main` makes of its three texts: a command, or a refusal;
* `InGrammar` — the documented grammar of the arguments, without a word about `strtol`;
* `sent_of_inGrammar` / `main_executes_sent` — everything in the grammar is sent, and what is sent
  is what `executeVerb` gets;
* `sent_in_grammar_iff` — a command that passes the checks is in the grammar exactly if every number
  in it was read to its end.
-/

namespace AppleALC

open IntegerLiteral

/-! ### Tables of keys -/

structure Strtbl where
  val : ℤ
  str : String
  deriving DecidableEq, Repr

def hdaVerbs : List Strtbl :=
  [⟨0x0a00, "GET_STREAM_FORMAT"⟩, ⟨0x0b00, "GET_AMP_GAIN_MUTE"⟩, ⟨0x0c00, "GET_PROC_COEF"⟩,
    ⟨0x0d00, "GET_COEF_INDEX"⟩, ⟨0x0f00, "PARAMETERS"⟩, ⟨0x0f01, "GET_CONNECT_SEL"⟩,
    ⟨0x0f02, "GET_CONNECT_LIST"⟩, ⟨0x0f03, "GET_PROC_STATE"⟩, ⟨0x0f04, "GET_SDI_SELECT"⟩,
    ⟨0x0f05, "GET_POWER_STATE"⟩, ⟨0x0f06, "GET_CONV"⟩, ⟨0x0f07, "GET_PIN_WIDGET_CONTROL"⟩,
    ⟨0x0f08, "GET_UNSOLICITED_RESPONSE"⟩, ⟨0x0f09, "GET_PIN_SENSE"⟩, ⟨0x0f0a, "GET_BEEP_CONTROL"⟩,
    ⟨0x0f0c, "GET_EAPD_BTLENABLE"⟩, ⟨0x0f0d, "GET_DIGI_CONVERT_1"⟩, ⟨0x0f0e, "GET_DIGI_CONVERT_2"⟩,
    ⟨0x0f0f, "GET_VOLUME_KNOB_CONTROL"⟩, ⟨0x0f15, "GET_GPIO_DATA"⟩, ⟨0x0f16, "GET_GPIO_MASK"⟩,
    ⟨0x0f17, "GET_GPIO_DIRECTION"⟩, ⟨0x0f18, "GET_GPIO_WAKE_MASK"⟩,
    ⟨0x0f19, "GET_GPIO_UNSOLICITED_RSP_MASK"⟩, ⟨0x0f1a, "GET_GPIO_STICKY_MASK"⟩,
    ⟨0x0f1c, "GET_CONFIG_DEFAULT"⟩, ⟨0x0f20, "GET_SUBSYSTEM_ID"⟩, ⟨0x200, "SET_STREAM_FORMAT"⟩,
    ⟨0x300, "SET_AMP_GAIN_MUTE"⟩, ⟨0x400, "SET_PROC_COEF"⟩, ⟨0x500, "SET_COEF_INDEX"⟩,
    ⟨0x701, "SET_CONNECT_SEL"⟩, ⟨0x703, "SET_PROC_STATE"⟩, ⟨0x704, "SET_SDI_SELECT"⟩,
    ⟨0x705, "SET_POWER_STATE"⟩, ⟨0x706, "SET_CHANNEL_STREAMID"⟩, ⟨0x707, "SET_PIN_WIDGET_CONTROL"⟩,
    ⟨0x708, "SET_UNSOLICITED_ENABLE"⟩, ⟨0x709, "SET_PIN_SENSE"⟩, ⟨0x70a, "SET_BEEP_CONTROL"⟩,
    ⟨0x70c, "SET_EAPD_BTLENABLE"⟩, ⟨0x70d, "SET_DIGI_CONVERT_1"⟩, ⟨0x70e, "SET_DIGI_CONVERT_2"⟩,
    ⟨0x70f, "SET_VOLUME_KNOB_CONTROL"⟩, ⟨0x715, "SET_GPIO_DATA"⟩, ⟨0x716, "SET_GPIO_MASK"⟩,
    ⟨0x717, "SET_GPIO_DIRECTION"⟩, ⟨0x718, "SET_GPIO_WAKE_MASK"⟩,
    ⟨0x719, "SET_GPIO_UNSOLICITED_RSP_MASK"⟩, ⟨0x71a, "SET_GPIO_STICKY_MASK"⟩,
    ⟨0x71c, "SET_CONFIG_DEFAULT_BYTES_0"⟩, ⟨0x71d, "SET_CONFIG_DEFAULT_BYTES_1"⟩,
    ⟨0x71e, "SET_CONFIG_DEFAULT_BYTES_2"⟩, ⟨0x71f, "SET_CONFIG_DEFAULT_BYTES_3"⟩,
    ⟨0x7ff, "SET_CODEC_RESET"⟩]

def hdaParams : List Strtbl :=
  [⟨0x00, "VENDOR_ID"⟩, ⟨0x01, "SUBSYSTEM_ID"⟩, ⟨0x02, "REV_ID"⟩, ⟨0x04, "NODE_COUNT"⟩,
    ⟨0x05, "FUNCTION_TYPE"⟩, ⟨0x08, "AUDIO_FG_CAP"⟩, ⟨0x09, "AUDIO_WIDGET_CAP"⟩, ⟨0x0a, "PCM"⟩,
    ⟨0x0b, "STREAM"⟩, ⟨0x0c, "PIN_CAP"⟩, ⟨0x0d, "AMP_IN_CAP"⟩, ⟨0x0e, "CONNLIST_LEN"⟩,
    ⟨0x0f, "POWER_STATE"⟩, ⟨0x10, "PROC_CAP"⟩, ⟨0x11, "GPIO_CAP"⟩, ⟨0x12, "AMP_OUT_CAP"⟩,
    ⟨0x13, "VOL_KNB_CAP"⟩]

/-- The loop of `lookup_str` over the rest of a table, with the key found before: the value, and the
lines it prints. -/
def lookupFrom (str : List Char) : (tbl : List Strtbl) → (found : Option Strtbl) → ℤ × List String
  | [], found =>
      match found with
      | none => (-1, ["No key matching with '" ++ String.ofList str ++ "'"])
      | some found => (found.val, [])
  | p :: tbl, found =>
      if str.isPrefixOf p.str.toList then
        match found with
        | some _ => (-1, ["No unique key '" ++ String.ofList str ++ "'"])
        | none => lookupFrom str tbl (some p)
      else lookupFrom str tbl found

def lookupStr (tbl : List Strtbl) (str : List Char) : ℤ × List String := lookupFrom str tbl none

def strtoupper (str : List Char) : List Char := str.map Char.toUpper

/-! ### Reading the arguments -/

def readNid (arg : List Char) : Except (List String) ℤ :=
  let nid := (strtol arg).1
  if nid < 0 ∨ nid > 0xff then .error ["invalid nid " ++ String.ofList arg] else .ok nid

/-- A verb or a parameter: a key of the table, or a number up to `max`. -/
def readKeyOrNumber (what : String) (tbl : List Strtbl) (max : ℤ) (arg : List Char) :
    Except (List String) ℤ :=
  if ¬StartsWithDigit arg then
    let found := lookupStr tbl (strtoupper arg)
    if found.1 < 0 then .error found.2 else .ok found.1
  else
    let value := (strtol arg).1
    if value < 0 ∨ value > max then .error ["invalid " ++ what ++ " " ++ String.ofList arg]
    else .ok value

def readVerb (arg : List Char) : Except (List String) ℤ :=
  readKeyOrNumber "verb" hdaVerbs 0xfff arg

def readParam (arg : List Char) : Except (List String) ℤ :=
  readKeyOrNumber "param" hdaParams 0xffff arg

/-- The three numbers, or the message of the first text that is refused. -/
def readArguments (nid verb param : List Char) : Except (List String) (ℤ × ℤ × ℤ) := do
  let nid ← readNid nid
  let verb ← readVerb verb
  let params ← readParam param
  return (nid, verb, params)

/-- The arguments of `execute_command`, each a `long` converted to 16 bits. -/
structure Command where
  nid : UInt16
  verb : UInt16
  param : UInt16
  deriving DecidableEq, Repr

def Command.ofLongs (r : ℤ × ℤ × ℤ) : Command :=
  ⟨UInt16.ofInt r.1, UInt16.ofInt r.2.1, UInt16.ofInt r.2.2⟩

/-- The command after the scalar inputs of 64 bits and the casts of the user client. -/
def Command.delivered (c : Command) : Command :=
  ⟨c.nid.toUInt64.toUInt16, c.verb.toUInt64.toUInt16, c.param.toUInt64.toUInt16⟩

/-- `main` behind the options. -/
def main (machine : Machine) (quiet : Bool) (dev : ℤ) (nid verb param : List Char) : ToolRun :=
  match readArguments nid verb param with
  | .error lines => { lines := lines, result := "", exitCode := 1 }
  | .ok r =>
      let c := Command.ofLongs r
      runVerb machine quiet dev c.nid c.verb c.param

/-- The command that reaches `executeVerb`, when one is sent. -/
def sent (nid verb param : List Char) : Option Command :=
  match readArguments nid verb param with
  | .error _ => none
  | .ok r => some (Command.ofLongs r).delivered

/-! ### What reaches the codec -/

/-- Widening and narrowing again loses nothing. -/
theorem Command.delivered_eq (c : Command) : c.delivered = c := by
  simp [Command.delivered]

/-- The service of the device index is there, opens, is called, and has a codec behind it. -/
structure Reaches (machine : Machine) (dev : ℤ) (executeVerb : ExecuteVerb) : Prop where
  matching : machine.matchingResult = kIOReturnSuccess
  service : ∃ service, nextService dev machine.services = some service ∧
    service.openResult = kIOReturnSuccess ∧ service.callResult = kIOReturnSuccess ∧
      service.provider.readyForVerbs = true ∧ service.provider.sharedAlc = some executeVerb

/-- **The codec executes what is sent.**  On a machine that reaches a codec, the tool prints the
answer of `executeVerb` to the command that is sent; when none is sent, it fails whatever the
machine. -/
theorem main_executes_sent {machine : Machine} {dev : ℤ} {executeVerb : ExecuteVerb}
    (h : Reaches machine dev executeVerb) (quiet : Bool) (nid verb param : List Char) :
    match sent nid verb param with
    | some c => (main machine quiet dev nid verb param).result =
        "0x" ++ hex8 (executeVerb c.nid c.verb c.param).2
    | none => (main machine quiet dev nid verb param).exitCode = 1 := by
  obtain ⟨hmatching, service, hservice, hopen, hcall, hready, hshared⟩ := h
  unfold sent main
  cases readArguments nid verb param with
  | error lines => rfl
  | ok r =>
      simp only [Command.delivered_eq, runVerb]
      rw [executeCommand, if_neg (not_not.mpr hmatching), hservice]
      simp only [hopen, ne_eq, not_true, if_false, callExecuteVerb, hcall, methodExecuteVerb,
        ALCUserClientProvider.sendHdaCommand, hready, Bool.not_true, Bool.false_eq_true, hshared,
        UInt16.toUInt16_toUInt64, UInt32.toUInt32_toUInt64]

/-! ### Keys -/

/-- What the loop makes of the keys that the text is a prefix of. -/
theorem lookupFrom_eq (str : List Char) (tbl : List Strtbl) :
    ∀ found : Option Strtbl, lookupFrom str tbl found =
      match found.toList ++ tbl.filter fun key => str.isPrefixOf key.str.toList with
      | [] => (-1, ["No key matching with '" ++ String.ofList str ++ "'"])
      | [key] => (key.val, [])
      | _ => (-1, ["No unique key '" ++ String.ofList str ++ "'"]) := by
  induction tbl with
  | nil => intro found; cases found <;> rfl
  | cons p tbl ih =>
      intro found
      unfold lookupFrom
      rw [List.filter_cons]
      split
      · cases found with
        | none => exact ih (some p)
        | some key => rfl
      · exact ih found

/-- The upper-cased text is a prefix of exactly one key of the table, and this is its value. -/
def NamesKey (tbl : List Strtbl) (arg : List Char) (value : ℤ) : Prop :=
  ∃ key ∈ tbl, key.val = value ∧ ∀ other ∈ tbl, strtoupper arg <+: other.str.toList ↔ other = key

/-- The keys of a table differ, and none has a negative value or starts with a digit. -/
structure WellFormed (tbl : List Strtbl) : Prop where
  nodup : tbl.Nodup
  range : ∀ key ∈ tbl, 0 ≤ key.val ∧ key.val ≤ 0xffff
  letter : ∀ key ∈ tbl, ¬StartsWithDigit key.str.toList

theorem hdaVerbs_wellFormed : WellFormed hdaVerbs :=
  ⟨List.Nodup.of_map Strtbl.val (by decide), by decide, by decide⟩

theorem hdaParams_wellFormed : WellFormed hdaParams :=
  ⟨List.Nodup.of_map Strtbl.val (by decide), by decide, by decide⟩

section Keys

variable {tbl : List Strtbl} {arg : List Char}

/-- The look-up succeeds exactly on the texts that name a key, with its value. -/
theorem lookupStr_iff (h : WellFormed tbl) (value : ℤ) :
    (0 ≤ (lookupStr tbl (strtoupper arg)).1 ∧ (lookupStr tbl (strtoupper arg)).1 = value) ↔
      NamesKey tbl arg value := by
  have hmem : ∀ key, key ∈ tbl.filter (fun key => (strtoupper arg).isPrefixOf key.str.toList) ↔
      key ∈ tbl ∧ strtoupper arg <+: key.str.toList := by
    intro key
    rw [List.mem_filter, List.isPrefixOf_iff_prefix]
  rw [lookupStr, lookupFrom_eq, Option.toList_none, List.nil_append]
  generalize hfound : tbl.filter (fun key => (strtoupper arg).isPrefixOf key.str.toList) = found
  rw [hfound] at hmem
  have hnodup : found.Nodup := hfound ▸ h.nodup.filter _
  constructor
  · intro hlookup
    split at hlookup
    · exact absurd hlookup.1 (show ¬(0 : ℤ) ≤ -1 by decide)
    · next key =>
      obtain ⟨hkey, -⟩ := (hmem key).mp List.mem_cons_self
      refine ⟨key, hkey, hlookup.2, ?_⟩
      intro other hother
      have hone := hmem other
      rw [List.mem_singleton] at hone
      rw [hone]
      exact ⟨fun hp => ⟨hother, hp⟩, fun hp => hp.2⟩
    · exact absurd hlookup.1 (show ¬(0 : ℤ) ≤ -1 by decide)
  · rintro ⟨key, hkey, hvalue, hunique⟩
    have hsingle : found = [key] := by
      rw [← List.perm_singleton, List.perm_ext_iff_of_nodup hnodup (by simp)]
      intro other
      rw [hmem, List.mem_singleton]
      constructor
      · rintro ⟨hother, hp⟩
        exact (hunique other hother).mp hp
      · rintro rfl
        exact ⟨hkey, (hunique other hkey).mpr rfl⟩
    rw [hsingle]
    exact ⟨(h.range key hkey).1, hvalue⟩

/-- A text that names a key does not start with a digit. -/
theorem NamesKey.not_startsWithDigit (h : WellFormed tbl) {value : ℤ}
    (hnames : NamesKey tbl arg value) : ¬StartsWithDigit arg := by
  rintro ⟨c, cs, rfl, hc⟩
  obtain ⟨key, hkey, -, hunique⟩ := hnames
  obtain ⟨rest, hrest⟩ := (hunique key hkey).mpr rfl
  have hfirst : key.str.toList = c :: (cs.map Char.toUpper ++ rest) := by
    rw [← hrest, strtoupper, List.map_cons, toUpper_of_isDecimal hc, List.cons_append]
  exact h.letter key hkey ⟨c, _, hfirst, hc⟩

end Keys

/-! ### What is accepted -/

/-- The text is entirely an integer literal with this value, which is at most `max`. -/
def IsNumber (max : ℕ) (arg : List Char) (value : ℕ) : Prop := Literal arg value ∧ value ≤ max

/-- The documented grammar, with the command that three texts denote. -/
structure InGrammar (nid verb param : List Char) (c : Command) : Prop where
  nid : IsNumber 0xff nid c.nid.toNat
  verb : (StartsWithDigit verb ∧ IsNumber 0xfff verb c.verb.toNat) ∨
    NamesKey hdaVerbs verb c.verb.toNat
  param : (StartsWithDigit param ∧ IsNumber 0xffff param c.param.toNat) ∨
    NamesKey hdaParams param c.param.toNat

/-- The text starts with a digit, and `strtol` reads it to its end. -/
def ReadWhole (arg : List Char) : Prop := StartsWithDigit arg ∧ (strtol arg).2 = []

instance (arg : List Char) : Decidable (ReadWhole arg) := by
  unfold ReadWhole; infer_instance

theorem toNat_ofInt {v : ℤ} (hlow : 0 ≤ v) (hhigh : v ≤ 0xffff) :
    ((UInt16.ofInt v).toNat : ℤ) = v := by
  rw [UInt16.ofInt, UInt16.toNat_ofNat']
  omega

theorem readNid_ok {arg : List Char} {v : ℤ} :
    readNid arg = .ok v ↔ v = (strtol arg).1 ∧ 0 ≤ v ∧ v ≤ 0xff := by
  unfold readNid
  simp only
  split
  · next hbad =>
    refine ⟨fun h => absurd h (by simp), ?_⟩
    rintro ⟨rfl, hlow, hhigh⟩
    omega
  · next hgood =>
    rw [Except.ok.injEq]
    constructor
    · rintro rfl
      omega
    · rintro ⟨rfl, -, -⟩
      rfl

theorem readKeyOrNumber_ok {what : String} {tbl : List Strtbl} (h : WellFormed tbl) {max : ℤ}
    {arg : List Char} {v : ℤ} :
    readKeyOrNumber what tbl max arg = .ok v ↔
      (StartsWithDigit arg ∧ v = (strtol arg).1 ∧ 0 ≤ v ∧ v ≤ max) ∨ NamesKey tbl arg v := by
  unfold readKeyOrNumber
  simp only
  by_cases hdigit : StartsWithDigit arg
  · have hno : ¬NamesKey tbl arg v := fun hnames => hnames.not_startsWithDigit h hdigit
    rw [if_neg (not_not.mpr hdigit)]
    simp only [hdigit, true_and, hno, or_false]
    split
    · next hbad =>
      refine ⟨fun h => absurd h (by simp), ?_⟩
      rintro ⟨rfl, hlow, hhigh⟩
      omega
    · next hgood =>
      rw [Except.ok.injEq]
      constructor
      · rintro rfl
        omega
      · rintro ⟨rfl, -, -⟩
        rfl
  · rw [if_pos hdigit, ← lookupStr_iff h v]
    simp only [hdigit, false_and, false_or]
    split
    · next hbad =>
      refine ⟨fun h => absurd h (by simp), ?_⟩
      rintro ⟨hlow, -⟩
      omega
    · next hgood =>
      rw [Except.ok.injEq]
      exact ⟨fun heq => ⟨by omega, heq⟩, fun heq => heq.2⟩

theorem sent_eq_some {nid verb param : List Char} {c : Command} :
    sent nid verb param = some c ↔ ∃ n v p, readNid nid = .ok n ∧ readVerb verb = .ok v ∧
      readParam param = .ok p ∧ c = Command.ofLongs (n, v, p) := by
  unfold sent readArguments
  simp only [Command.delivered_eq]
  cases readNid nid with
  | error lines => simp [bind, Except.bind]
  | ok n =>
      cases readVerb verb with
      | error lines => simp [bind, Except.bind]
      | ok v =>
          cases readParam param with
          | error lines => simp [bind, Except.bind]
          | ok p => simp [bind, Except.bind, pure, Except.pure, eq_comm]

/-- A command is sent when the three texts pass their checks. -/
theorem sent_isSome {nid verb param : List Char} : (sent nid verb param).isSome ↔
    (readNid nid).isOk ∧ (readVerb verb).isOk ∧ (readParam param).isOk := by
  unfold sent readArguments
  cases readNid nid with
  | error lines => simp [bind, Except.bind, Except.toBool]
  | ok n =>
      cases readVerb verb with
      | error lines => simp [bind, Except.bind, Except.toBool]
      | ok v =>
          cases readParam param <;> simp [bind, Except.bind, pure, Except.pure, Except.toBool]

/-- A number in range that `strtol` made of a text is the text's exactly if the text was read to its
end. -/
theorem isNumber_iff {arg : List Char} (max : ℕ) (hmax : max ≤ 0xffff) (hlow : 0 ≤ (strtol arg).1)
    (hhigh : (strtol arg).1 ≤ max) :
    IsNumber max arg (UInt16.ofInt (strtol arg).1).toNat ↔ ReadWhole arg := by
  have hnat := toNat_ofInt hlow (by omega)
  constructor
  · rintro ⟨hliteral, -⟩
    exact ⟨hliteral.startsWithDigit, (strtol_spec hliteral.startsWithDigit).1.mpr ⟨_, hliteral⟩⟩
  · rintro ⟨hdigit, hrest⟩
    obtain ⟨w, hw⟩ := (strtol_spec hdigit).1.mp hrest
    have hvalue := (strtol_spec hdigit).2 w hw
    simp only [longMax] at hvalue
    have hsame : (UInt16.ofInt (strtol arg).1).toNat = w := by omega
    rw [hsame]
    exact ⟨hw, by omega⟩

/-- The number of a literal in range is what `strtol` makes of it. -/
theorem strtol_of_isNumber {arg : List Char} {max : ℕ} (hmax : max ≤ 0xffff) {v : UInt16}
    (h : IsNumber max arg v.toNat) : (strtol arg).1 = v.toNat := by
  obtain ⟨hliteral, hle⟩ := h
  rw [(strtol_spec hliteral.startsWithDigit).2 _ hliteral, longMax]
  omega

theorem ofInt_toNat (v : UInt16) : UInt16.ofInt (v.toNat : ℤ) = v := by
  have hlt : v.toNat < 65536 := v.toNat_lt
  apply UInt16.toNat_inj.mp
  have hnat := toNat_ofInt (v := (v.toNat : ℤ)) (by omega) (by omega)
  omega

/-- Every command of the grammar is sent, as the command it denotes. -/
theorem sent_of_inGrammar {nid verb param : List Char} {c : Command}
    (h : InGrammar nid verb param c) : sent nid verb param = some c := by
  rw [sent_eq_some]
  refine ⟨c.nid.toNat, c.verb.toNat, c.param.toNat, ?_, ?_, ?_, ?_⟩
  · exact readNid_ok.mpr ⟨(strtol_of_isNumber (by decide) h.nid).symm, by omega,
      by exact_mod_cast h.nid.2⟩
  · refine (readKeyOrNumber_ok hdaVerbs_wellFormed).mpr (h.verb.imp_left ?_)
    rintro ⟨hdigit, hnumber⟩
    exact ⟨hdigit, (strtol_of_isNumber (by decide) hnumber).symm, by omega,
      by exact_mod_cast hnumber.2⟩
  · refine (readKeyOrNumber_ok hdaParams_wellFormed).mpr (h.param.imp_left ?_)
    rintro ⟨hdigit, hnumber⟩
    exact ⟨hdigit, (strtol_of_isNumber (by decide) hnumber).symm, by omega,
      by exact_mod_cast hnumber.2⟩
  · simp only [Command.ofLongs, ofInt_toNat]

/-- A key's value survives the conversions. -/
theorem NamesKey.toNat_ofInt {tbl : List Strtbl} (hwf : WellFormed tbl) {arg : List Char} {v : ℤ}
    (h : NamesKey tbl arg v) : NamesKey tbl arg (UInt16.ofInt v).toNat := by
  obtain ⟨key, hkey, rfl, hunique⟩ := h
  obtain ⟨hlow, hhigh⟩ := hwf.range key hkey
  rw [AppleALC.toNat_ofInt hlow hhigh]
  exact ⟨key, hkey, rfl, hunique⟩

/-- One of the last two arguments: what was accepted is in the grammar exactly if a number was read
to its end. -/
theorem accepted_iff {what : String} {tbl : List Strtbl} (hwf : WellFormed tbl) (max : ℕ)
    (hmax : max ≤ 0xffff) {arg : List Char} {v : ℤ}
    (h : readKeyOrNumber what tbl max arg = .ok v) :
    ((StartsWithDigit arg ∧ IsNumber max arg (UInt16.ofInt v).toNat) ∨
        NamesKey tbl arg (UInt16.ofInt v).toNat) ↔ (StartsWithDigit arg → ReadWhole arg) := by
  rcases (readKeyOrNumber_ok hwf).mp h with ⟨hdigit, rfl, hlow, hhigh⟩ | hnames
  · have hno : ¬NamesKey tbl arg (UInt16.ofInt (strtol arg).1).toNat := fun hnames =>
      hnames.not_startsWithDigit hwf hdigit
    simp only [hdigit, true_and, hno, or_false, forall_const]
    exact isNumber_iff max hmax hlow hhigh
  · have hno := hnames.not_startsWithDigit hwf
    simp only [hno, false_and, false_or, false_implies, iff_true]
    exact hnames.toNat_ofInt hwf

/-- **The accepted arguments.**  What is sent is in the grammar, with the values that reach the codec
being the denoted ones, exactly if of three texts that pass their checks each number starts with a
digit and is read to its end. -/
theorem sent_in_grammar_iff (nid verb param : List Char) :
    (∀ c, sent nid verb param = some c → InGrammar nid verb param c) ↔
      ((readNid nid).isOk → (readVerb verb).isOk → (readParam param).isOk →
        ReadWhole nid ∧ (StartsWithDigit verb → ReadWhole verb) ∧
          (StartsWithDigit param → ReadWhole param)) := by
  rw [← and_imp, ← and_imp, and_assoc, ← sent_isSome]
  cases hsent : sent nid verb param with
  | none => simp
  | some c =>
      obtain ⟨n, v, p, hn, hv, hp, rfl⟩ := sent_eq_some.mp hsent
      obtain ⟨rfl, hlow, hhigh⟩ := readNid_ok.mp hn
      have hnid := isNumber_iff 0xff (by decide) hlow hhigh
      have hverb := accepted_iff hdaVerbs_wellFormed 0xfff (by decide) hv
      have hparam := accepted_iff hdaParams_wellFormed 0xffff (by decide) hp
      simp only [Option.some.injEq, forall_eq', Option.isSome_some, forall_const]
      constructor
      · intro h
        exact ⟨hnid.mp h.nid, hverb.mp h.verb, hparam.mp h.param⟩
      · rintro ⟨h₁, h₂, h₃⟩
        exact ⟨hnid.mpr h₁, hverb.mpr h₂, hparam.mpr h₃⟩

/-- A node that is no number is taken for node 0. -/
theorem not_sent_in_grammar_sample :
    sent "zzz".toList "0xf00".toList "0x4".toList = some ⟨0, 0xf00, 4⟩ ∧
      ¬∀ c, sent "zzz".toList "0xf00".toList "0x4".toList = some c →
        InGrammar "zzz".toList "0xf00".toList "0x4".toList c := by
  have hsent : sent "zzz".toList "0xf00".toList "0x4".toList = some ⟨0, 0xf00, 4⟩ := by decide
  refine ⟨hsent, fun h => ?_⟩
  exact absurd (h _ hsent).nid.1.startsWithDigit (by decide)

end AppleALC
