import Mathlib.Data.List.Basic
import AppleALC.Library.PropertyStore

/-!
# What Lilu and the kernel hand to AppleALC

AppleALC is a Lilu plugin: the objects of the IORegistry, the device inventory and the kernel
patcher are not its own code.  This module names the part of them that the plugin uses.

The values the plugin only receives (the inventory, property tables, boot arguments) are plain data.
The Lilu functions it calls are fields of `Lilu`; what a result relies on about them is a named
hypothesis, and `Lilu.documented` is a concrete instance that behaves as their documentation says.
Only `renameDevice_of_ne` is assumed throughout: every part of the boot may rename a device first.

* `OSObject` / `Properties` — the objects that the plugin casts to, and the table of an entry;
* `DeviceInfo` — the inventory;
* `Lilu` — the functions, with the assumptions `ChecksRange`, `ReadsWords` and `KeepsCompatible`;
* `Lilu.documented` — an instance that meets them.
-/

namespace AppleALC

open PropertyStore

/-! ### IORegistry objects -/

/-- The OSObject classes that the plugin casts to. -/
inductive OSObject where
  | data (bytes : List UInt8)
  | number (value : UInt64)
  | boolean (value : Bool)
  | string (value : String)
  | array (objects : List OSObject)
  | dictionary (objects : List (String × OSObject))
  deriving Repr, Inhabited

namespace OSObject

/-- `OSDynamicCast(OSData, _)`. -/
def asData : OSObject → Option (List UInt8)
  | data bytes => some bytes
  | _ => none

/-- `OSDynamicCast(OSNumber, _)`. -/
def asNumber : OSObject → Option UInt64
  | number value => some value
  | _ => none

/-- `OSDynamicCast(OSBoolean, _)`. -/
def asBoolean : OSObject → Option Bool
  | boolean value => some value
  | _ => none

/-- `OSDynamicCast(OSArray, _)`. -/
def asArray : OSObject → Option (List OSObject)
  | array objects => some objects
  | _ => none

/-- `OSDynamicCast(OSDictionary, _)`. -/
def asDictionary : OSObject → Option (List (String × OSObject))
  | dictionary objects => some objects
  | _ => none

end OSObject

/-- The property table of one registry entry. -/
abbrev Properties := String → Option OSObject

/-- The property tables of a family of registry entries. -/
abbrev Registry (ε : Type*) := Store ε String OSObject

/-! ### Raw bytes -/

/-- The four bytes of a 32-bit value in memory, least significant first. -/
def bytesOfUInt32 (v : UInt32) : List UInt8 :=
  [UInt8.ofNat v.toNat, UInt8.ofNat (v.toNat / 256), UInt8.ofNat (v.toNat / 65536),
    UInt8.ofNat (v.toNat / 16777216)]

/-- `*reinterpret_cast<const uint32_t *>(p)`: the 32-bit value at the start of a buffer. -/
def uint32OfBytes (bytes : List UInt8) : UInt32 :=
  UInt32.ofNat ((bytes.getD 0 0).toNat + 256 * (bytes.getD 1 0).toNat
    + 65536 * (bytes.getD 2 0).toNat + 16777216 * (bytes.getD 3 0).toNat)

@[simp] theorem uint32OfBytes_bytesOfUInt32 (v : UInt32) :
    uint32OfBytes (bytesOfUInt32 v) = v := by
  have hv : v.toNat < 4294967296 := v.toNat_lt
  apply UInt32.toNat_inj.mp
  simp only [uint32OfBytes, bytesOfUInt32, List.getD_cons_zero, List.getD_cons_succ,
    UInt8.toNat_ofNat', UInt32.toNat_ofNat']
  omega

/-- The bytes of a value determine it. -/
theorem bytesOfUInt32_injective : Function.Injective bytesOfUInt32 := by
  intro v w h
  rw [← uint32OfBytes_bytesOfUInt32 v, h, uint32OfBytes_bytesOfUInt32]

/-- The bytes of a C string of ASCII characters, with the terminating zero. -/
def cString (s : String) : List UInt8 :=
  s.toList.map (fun c => UInt8.ofNat c.toNat) ++ [0]

/-! ### Devices -/

/-- The PCI functions that `DeviceInfo` classifies, by the role it finds them in. -/
inductive Device where
  | audioBuiltinAnalog
  | audioBuiltinDigital
  | videoBuiltin
  | externalAudio (gpu : ℕ)
  | externalVideo (gpu : ℕ)
  deriving DecidableEq, Repr

/-- HDEF, HDAU and the audio functions of the external GPUs. -/
def Device.IsAudio : Device → Prop
  | .audioBuiltinAnalog | .audioBuiltinDigital | .externalAudio _ => True
  | .videoBuiltin | .externalVideo _ => False

instance : DecidablePred Device.IsAudio := fun d => by
  cases d <;> unfold Device.IsAudio <;> infer_instance

/-- An external GPU: its vendor, and whether an audio function was found beside it. -/
structure ExternalVideo where
  vendor : UInt32
  audio : Bool
  deriving DecidableEq, Repr

/-- The firmware vendors that matter to the plugin. -/
inductive FirmwareVendor where
  | apple
  | other
  deriving DecidableEq, Repr

/-- The device inventory of `DeviceInfo::create()`.  A built-in function is a flag that says whether
the pointer is non-null. -/
structure DeviceInfo where
  audioBuiltinAnalog : Bool := false
  audioBuiltinDigital : Bool := false
  videoBuiltin : Bool := false
  videoExternal : List ExternalVideo := []
  reportedFramebufferIsConnectorLess : Bool := false
  reportedFramebufferId : UInt32 := 0
  reportedLayoutId : UInt32 := 0
  firmwareVendor : FirmwareVendor := .other
  deriving Repr

def VendorID.Intel : UInt32 := 0x8086

def VendorID.NVIDIA : UInt32 := 0x10DE

/-! ### Lilu functions -/

/-- The Lilu functions the plugin calls for their value. -/
structure Lilu where
  /-- `WIOKit::getOSDataValue` on a 32-bit variable: the value, when the object is readable so. -/
  getOSDataValue : OSObject → Option UInt32
  /-- `KernelPatcher::compatibleKernel(min, max)`. -/
  compatibleKernel : UInt32 → UInt32 → Bool
  /-- `getBitField(value, hi, lo)`. -/
  getBitField : UInt8 → ℕ → ℕ → UInt8
  /-- `WIOKit::bruteMax`. -/
  bruteMax : ℕ
  /-- `WIOKit::renameDevice(entry, name)`: the properties of the entry once it has the name. -/
  renameDevice : String → Properties → Properties
  /-- Beside the name, only the property `compatible` may change. -/
  renameDevice_of_ne : ∀ (name : String) (props : Properties) (key : String), key ≠ "compatible" →
    renameDevice name props key = props key

def KernelAny : UInt32 := 0

def ComputerLaptop : UInt32 := 1

def ComputerDesktop : UInt32 := 2

/-- `WIOKit::ComputerModel::ComputerAny`: any of the two. -/
def ComputerAny : UInt32 := 3

/-- The kernel version `running` lies in the inclusive range, where `KernelAny` is an open end. -/
def Admits (running min max : UInt32) : Prop :=
  (min = KernelAny ∨ min ≤ running) ∧ (max = KernelAny ∨ running ≤ max)

instance (running min max : UInt32) : Decidable (Admits running min max) := by
  unfold Admits; infer_instance

/-- `compatibleKernel` is the inclusive range check on the running kernel. -/
def Lilu.ChecksRange (lilu : Lilu) (running : UInt32) : Prop :=
  ∀ min max, lilu.compatibleKernel min max = true ↔ Admits running min max

/-- `getOSDataValue` reads back a 32-bit value that was stored as its four bytes. -/
def Lilu.ReadsWords (lilu : Lilu) : Prop :=
  ∀ v, lilu.getOSDataValue (.data (bytesOfUInt32 v)) = some v

/-- `renameDevice` does not take `compatible` away. -/
def Lilu.KeepsCompatible (lilu : Lilu) : Prop :=
  ∀ name props, (props "compatible").isSome → (lilu.renameDevice name props "compatible").isSome

/-- `WIOKit::getOSDataValue(sect, name, value)`. -/
def Lilu.read (lilu : Lilu) (props : Properties) (name : String) : Option UInt32 :=
  (props name).bind lilu.getOSDataValue

/-- A new name is put behind the names in `compatible`, unless it is one of them. -/
def extendCompatible (name : String) (props : Properties) : Properties :=
  match (props "compatible").bind OSObject.asData with
  | some bytes =>
      if (bytes.splitOn 0).contains (cString name).dropLast then props
      else Function.update props "compatible" (some (.data (bytes ++ cString name)))
  | none => props

theorem extendCompatible_of_ne (name : String) (props : Properties) {key : String}
    (h : key ≠ "compatible") : extendCompatible name props key = props key := by
  unfold extendCompatible
  cases (props "compatible").bind OSObject.asData with
  | none => rfl
  | some bytes =>
      simp only
      split
      · rfl
      · exact Function.update_of_ne h _ _

/-- Lilu as documented: 32-bit values are read from data of exactly four bytes, kernel ranges are
inclusive, a bit field is shifted down and masked, and a device that is renamed stays compatible with
its old names. -/
def Lilu.documented (running : UInt32) (bruteMax : ℕ) : Lilu where
  getOSDataValue o := (o.asData).bind fun bytes =>
    if bytes.length = 4 then some (uint32OfBytes bytes) else none
  compatibleKernel min max := decide (Admits running min max)
  getBitField value hi lo := (value >>> UInt8.ofNat lo) &&& ((1 <<< UInt8.ofNat (hi - lo + 1)) - 1)
  bruteMax := bruteMax
  renameDevice := extendCompatible
  renameDevice_of_ne name props _ := extendCompatible_of_ne name props

theorem Lilu.documented_checksRange (running : UInt32) (bruteMax : ℕ) :
    (Lilu.documented running bruteMax).ChecksRange running := by
  intro min max
  simp [Lilu.documented]

theorem Lilu.documented_readsWords (running : UInt32) (bruteMax : ℕ) :
    (Lilu.documented running bruteMax).ReadsWords := by
  intro v
  have hlen : (bytesOfUInt32 v).length = 4 := rfl
  simp [Lilu.documented, OSObject.asData, hlen]

theorem Lilu.documented_keepsCompatible (running : UInt32) (bruteMax : ℕ) :
    (Lilu.documented running bruteMax).KeepsCompatible := by
  intro name props h
  show (extendCompatible name props "compatible").isSome
  unfold extendCompatible
  cases (props "compatible").bind OSObject.asData with
  | none => exact h
  | some bytes =>
      simp only
      split
      · exact h
      · rw [Function.update_self]
        rfl

end AppleALC
