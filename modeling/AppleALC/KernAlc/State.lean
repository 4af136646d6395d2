import Mathlib.Data.Nat.Bitwise
import AppleALC.KernResources

/-!
# The state of `AlcEnabler`

The members of the class that outlive a call.  `ControllerInfo` and `CodecInfo` carry one field the
source does not have, `entry`: the registry entry the record was made from, as it stood at that
moment.  No function of the model reads it; it is there so that a property can name the device a
controller or a codec came from.

* `ControllerInfo` / `CodecInfo` — the records of the two lists;
* `ProcessingState` — the flags of `progressState`;
* `AlcEnabler` — the plugin, with its own copy of the mod table.
-/

namespace AppleALC

/-- A registry entry at the moment a record is made from it. -/
structure Entry where
  device : Device
  properties : Properties

/-- `AlcEnabler::ControllerInfo`.  `info` points into `controllerMod`. -/
structure ControllerInfo where
  entry : Entry
  info : Option ℕ := none
  detect : Option Device
  vendor : UInt32
  device : UInt32
  revision : UInt32
  platform : UInt32
  layout : UInt32
  nopatch : Bool

/-- `AlcEnabler::CodecInfo`.  `info` points into the constant table `vendorMod`. -/
structure CodecInfo where
  entry : Properties
  info : Option CodecModInfo := none
  controller : ℕ
  vendor : UInt16
  codec : UInt16
  revision : UInt32

/-- `CodecInfo::create(ctrl, ven, rev)`. -/
def CodecInfo.create (entry : Properties) (ctrl : ℕ) (ven rev : UInt32) : CodecInfo where
  entry := entry
  controller := ctrl
  vendor := ((ven &&& 0xFFFF0000) >>> 16).toUInt16
  codec := (ven &&& 0xFFFF).toUInt16
  revision := rev

/-- The bits of `progressState`. -/
structure ProcessingState where
  controllersLoaded : Bool := false
  codecsLoaded : Bool := false
  callbacksWantRouting : Bool := false
  patchHDAFamily : Bool := false
  patchHDAController : Bool := false
  deriving DecidableEq, Repr

def MaxNvidiaDeviceIds : ℕ := 16

/-- `NvidiaSpecialFind`, the bytes `NVDA`. -/
def NvidiaSpecialFind : UInt32 := 0x4144564E

/-- NVIDIA HDAU device-ids available for replacement. -/
def nvidiaDeviceIdList : List UInt32 :=
  [0x0E0A10DE, 0x0E0B10DE, 0x0E1B10DE, 0x0E1A10DE, 0x0BE510DE, 0x0BEB10DE, 0x0BE910DE, 0x0BEA10DE,
    0x0E0910DE, 0x0BEE10DE, 0x0E0810DE, 0x0BE310DE, 0x0AC010DE, 0x0D9410DE, 0x0BE210DE, 0x0BE410DE]

/-- The members of `AlcEnabler`, and the writable table `controllerMod`. -/
structure AlcEnabler where
  controllers : List ControllerInfo := []
  codecs : List CodecInfo := []
  progressState : ProcessingState := {}
  computerModel : UInt32 := 0
  nvidiaDeviceIdUsage : ℕ → Bool := fun _ => false
  currentFreeNvidiaDeviceId : ℕ := 0
  controllerMod : List ControllerModInfo

/-- `insertController(ven, dev, rev, np, p, lid, d)`, in the positional order of its parameters.
The vector is assumed to grow. -/
def AlcEnabler.insertController (alc : AlcEnabler) (entry : Entry) (ven dev rev : UInt32)
    (np : Bool) (p : UInt32) (lid : UInt32) (d : Option Device) : AlcEnabler :=
  { alc with controllers := alc.controllers ++
      [{ entry := entry, detect := d, vendor := ven, device := dev, revision := rev, platform := p,
         layout := lid, nopatch := np }] }

/-- The two halves of a codec id put back together, as `initializePinConfig` does. -/
def CodecInfo.id (ci : CodecInfo) : UInt32 :=
  ci.vendor.toUInt32 <<< 16 ||| ci.codec.toUInt32

theorem testBit_lowHalf (i : ℕ) : (0xFFFF : ℕ).testBit i = decide (i < 16) :=
  Nat.testBit_two_pow_sub_one 16 i

theorem testBit_highHalf (i : ℕ) :
    (0xFFFF0000 : ℕ).testBit i = (decide (16 ≤ i) && decide (i < 32)) := by
  rw [show (0xFFFF0000 : ℕ) = 0xFFFF <<< 16 by decide, Nat.testBit_shiftLeft, testBit_lowHalf]
  by_cases h : 16 ≤ i
  · simp only [h, decide_true, Bool.true_and, decide_eq_decide]
    omega
  · simp [h]

/-- Splitting `IOHDACodecVendorID` into vendor and codec loses nothing. -/
theorem CodecInfo.create_id (entry : Properties) (ctrl : ℕ) (ven rev : UInt32) :
    (CodecInfo.create entry ctrl ven rev).id = ven := by
  apply UInt32.toNat_inj.mp
  simp only [CodecInfo.id, CodecInfo.create, UInt32.toNat_or, UInt32.toNat_shiftLeft,
    UInt16.toNat_toUInt32, UInt32.toNat_toUInt16, UInt32.toNat_and, UInt32.toNat_shiftRight,
    UInt32.reduceToNat]
  apply Nat.eq_of_testBit_eq
  intro i
  simp only [Nat.testBit_lor, Nat.testBit_mod_two_pow, Nat.testBit_shiftLeft,
    Nat.testBit_shiftRight, Nat.testBit_land, testBit_lowHalf, testBit_highHalf]
  by_cases h16 : i < 16
  · simp [h16, show ¬16 ≤ i by omega]
  · by_cases h32 : i < 32
    · simp [h16, h32, show 16 ≤ i by omega, show i - 16 < 16 by omega]
    · -- above the word both sides are zero
      have hlt : ven.toNat < 2 ^ i :=
        lt_of_lt_of_le ven.toNat_lt (Nat.pow_le_pow_right (by decide) (by omega))
      simp [h16, h32, Nat.testBit_lt_two_pow hlt]

end AppleALC
