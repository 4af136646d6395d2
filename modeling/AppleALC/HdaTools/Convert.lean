import Mathlib.Data.Nat.Bitwise
import AppleALC.Library.HexWord
import AppleALC.Library.PackedBytes
import AppleALC.Library.WriteLog

/-!
# convert.sh

The script that turns a list of codec verbs into pin configurations.  A configuration verb writes one
byte of the default configuration of a node.  The script joins the bytes of every node with a bitwise
or; a node with all four bytes goes to the table of configurations, and the bytes of the others go
back to verbs, in front of all verbs of other kinds.

`xxd`, which lays out the other verbs, is a parameter.

* `ConvertState` — the verbs, the bytes and the fill of every node while the input is read;
* `addVerb` / `convertInput` — one verb, and the whole input;
* `convert` — what the script prints;
* `writesOf` — what a list of verbs writes, which is how the codec sees it.
-/

namespace AppleALC.HdaTools

open HexWord IntegerLiteral PackedBytes WriteLog

/-- `shifty`: the bits of a number from one place to another. -/
def shifty (v first last : ℕ) : ℕ := (v >>> first) &&& ((1 <<< (last - first + 1)) - 1)

structure ConvertState where
  verb : List Char := []
  configDefault : ℕ → Option ℕ := fun _ => none
  configFill : ℕ → Option ℕ := fun _ => none
  unknownVerbs : List ℕ := []

def addToArray (node payload shift : ℕ) (s : ConvertState) : ConvertState :=
  let cur := (s.configDefault node).getD 0
  let fill := (s.configFill node).getD 0
  { s with
    configDefault := Function.update s.configDefault node (some (cur ||| payload <<< shift))
    configFill := Function.update s.configFill node (some (fill ||| 0x1 <<< shift)) }

def addToUnknown (verb : ℕ) (s : ConvertState) : ConvertState :=
  { s with unknownVerbs := s.unknownVerbs ++ [verb] }

def addVerb (verb_n : ℕ) (s : ConvertState) : ConvertState :=
  let cmd := shifty verb_n 8 19
  let payload := shifty verb_n 0 7
  let node := shifty verb_n 20 26
  if cmd = 0x71c then addToArray node payload 0 s
  else if cmd = 0x71d then addToArray node payload 8 s
  else if cmd = 0x71e then addToArray node payload 16 s
  else if cmd = 0x71f then addToArray node payload 24 s
  else addToUnknown verb_n s

/-- One iteration of the loop over the input.  Everything that is no digit is passed over. -/
def convertChar (s : ConvertState) (ch : Char) : ConvertState :=
  let verb := if isDigitIn 16 ch then s.verb ++ [ch] else s.verb
  if verb.length = 8 then addVerb (valueIn 16 verb) { s with verb := [] }
  else { s with verb := verb }

/-- The state at the end of the input. -/
def convertInput (input : List Char) : ConvertState := input.foldl convertChar {}

/-! ### The output -/

/-- `g_configFill` of a node with all its bytes. -/
def allFilled : ℕ := 0x01010101

def ConvertState.configs (s : ConvertState) : List (ℕ × ℕ) :=
  (List.range 256).filterMap fun i =>
    if s.configFill i = some allFilled then (s.configDefault i).map fun d => (i, d) else none

/-- A verb that writes the byte `k` of a node. -/
def configVerb (node k x : ℕ) : ℕ := node <<< 20 ||| (0x71c + k) <<< 8 ||| byteAt x k

/-- The bytes of a node that lacks some of them, as verbs. -/
def ConvertState.incomplete (s : ConvertState) (i : ℕ) : List ℕ :=
  match s.configFill i with
  | none => []
  | some fill =>
      if fill = allFilled then []
      else
        let x := (s.configDefault i).getD 0
        (if fill &&& 0x01 ≠ 0 then [configVerb i 0 x] else [])
          ++ (if fill &&& 0x0100 ≠ 0 then [configVerb i 1 x] else [])
          ++ (if fill &&& 0x010000 ≠ 0 then [configVerb i 2 x] else [])
          ++ (if fill &&& 0x01000000 ≠ 0 then [configVerb i 3 x] else [])

/-- The verbs of the second part of the output. -/
def ConvertState.otherVerbs (s : ConvertState) : List ℕ :=
  (List.range 256).flatMap s.incomplete ++ s.unknownVerbs

/-- `total_temp`: how many verbs are unknown, and how many nodes are incomplete.  The fill is compared
with `0x1111`, which it never is. -/
def ConvertState.total (s : ConvertState) : ℕ :=
  s.unknownVerbs.length
    + ((List.range 256).filter fun i => (s.configFill i).any fun fill => fill ≠ 0x1111).length

def configLine (entry : ℕ × ℕ) : List Char :=
  "  0x".toList ++ hexPad 2 entry.1 ++ ", 0x".toList ++ hexPad 8 entry.2 ++ ",\n".toList

/-- `convert.sh`: what it prints, by its argument. -/
def convert (xxd : List Char → List Char) (mode : String) (input : List Char) : List Char :=
  let s := convertInput input
  (if mode = "" ∧ (List.range 256).any fun i => (s.configDefault i).isSome then
      "Config Data:\n".toList else [])
    ++ (if mode = "" ∨ mode = "config" then s.configs.flatMap configLine else [])
    ++ (if mode = "" ∧ s.total ≠ 0 then "Unknown Verbs:\n".toList else [])
    ++ (if (mode = "" ∨ mode = "other") ∧ 0 < s.total then
        xxd ([' '].intercalate (s.otherVerbs.map (hexPad 8)) ++ ['\n']) else [])

/-! ### Verbs as writes -/

/-- The configuration byte that a verb writes: its node, its place, and its value. -/
def writeOf (verb : ℕ) : Option ((ℕ × ℕ) × ℕ) :=
  let cmd := shifty verb 8 19
  if 0x71c ≤ cmd ∧ cmd ≤ 0x71f then some ((shifty verb 20 26, cmd - 0x71c), shifty verb 0 7)
  else none

/-- What a list of verbs writes, first to last. -/
def writesOf (verbs : List ℕ) : List ((ℕ × ℕ) × ℕ) := verbs.filterMap writeOf

/-- The verbs of a text, after some digits of the first one. -/
def verbsOf : (verb : List Char) → (input : List Char) → List ℕ
  | _, [] => []
  | verb, ch :: input =>
      let verb := if isDigitIn 16 ch then verb ++ [ch] else verb
      if verb.length = 8 then valueIn 16 verb :: verbsOf [] input else verbsOf verb input

/-- What the output writes: the table first, the verbs after it. -/
def ConvertState.writes (s : ConvertState) : List ((ℕ × ℕ) × ℕ) :=
  s.configs.flatMap (fun entry => (List.range 4).map fun k => ((entry.1, k), byteAt entry.2 k))
    ++ writesOf s.otherVerbs

theorem shifty_eq (v first last : ℕ) :
    shifty v first last = v / 2 ^ first % 2 ^ (last - first + 1) := by
  rw [shifty, Nat.one_shiftLeft, Nat.and_two_pow_sub_one_eq_mod, Nat.shiftRight_eq_div_pow]

/-- A verb is joined to the byte that it writes, or it is kept. -/
theorem addVerb_cases (v : ℕ) (s : ConvertState) :
    (writeOf v = none ∧ addVerb v s = addToUnknown v s) ∨
      ∃ node k p, writeOf v = some ((node, k), p) ∧ node < 128 ∧ k < 4 ∧ p < 256 ∧
        addVerb v s = addToArray node p (8 * k) s := by
  have hnode : shifty v 20 26 < 128 := by
    rw [shifty_eq]
    exact Nat.mod_lt _ (by decide)
  have hp : shifty v 0 7 < 256 := by
    rw [shifty_eq]
    exact Nat.mod_lt _ (by decide)
  by_cases hcmd : 0x71c ≤ shifty v 8 19 ∧ shifty v 8 19 ≤ 0x71f
  · have hplace : shifty v 8 19 = 0x71c ∨ shifty v 8 19 = 0x71d ∨ shifty v 8 19 = 0x71e ∨
        shifty v 8 19 = 0x71f := by omega
    refine Or.inr ⟨_, _, _, if_pos hcmd, hnode, by omega, hp, ?_⟩
    rcases hplace with h | h | h | h
    · simp [addVerb, h]
    · simp [addVerb, h]
    · simp [addVerb, h]
    · simp [addVerb, h]
  · refine Or.inl ⟨if_neg hcmd, ?_⟩
    rw [addVerb, if_neg (by omega), if_neg (by omega), if_neg (by omega), if_neg (by omega)]

/-- Writing a byte as a verb. -/
theorem writeOf_configVerb {node k : ℕ} (hnode : node < 128) (hk : k < 4) (x : ℕ) :
    writeOf (configVerb node k x) = some ((node, k), byteAt x k) := by
  have hbyte : byteAt x k < 256 := by
    rw [byteAt, show (0xFF : ℕ) = 2 ^ 8 - 1 by decide, Nat.and_two_pow_sub_one_eq_mod]
    exact Nat.mod_lt _ (by decide)
  have hsum : configVerb node k x = node * 1048576 + (0x71c + k) * 256 + byteAt x k := by
    rw [configVerb, Nat.or_assoc, ← Nat.shiftLeft_add_eq_or_of_lt (i := 8) (by omega),
      ← Nat.shiftLeft_add_eq_or_of_lt (i := 20) (by rw [Nat.shiftLeft_eq]; omega),
      Nat.shiftLeft_eq, Nat.shiftLeft_eq]
    omega
  simp only [writeOf, shifty_eq, hsum]
  rw [if_pos (by omega)]
  simp only [Option.some.injEq, Prod.mk.injEq]
  omega

end AppleALC.HdaTools
