import AppleALC.Lilu

/-!
# The generated resource tables

The types of `kern_resources.hpp`: what `ResourceConverter` writes and the kernel extension reads.
A pointer with a count is a list, a nullable pointer with a count is an `Option` of a list.  A
pointer into `kextList` is the index of the slot it points to.

`controllerMod` is the one table the extension writes to: the find pattern of a patch is replaced in
place.  It therefore travels in the state, and a pointer to one of its entries is an index.

* `KextPatch` / `File` — the entries of the patch and the file tables;
* `CodecModInfo`, `VendorModInfo`, `ControllerModInfo` — the tables of mods;
* `Resources` — the generated tables, with the `KextId` constants.
-/

namespace AppleALC

structure LookupPatch where
  kext : ℕ
  find : List UInt8
  replace : List UInt8
  size : ℕ
  count : ℕ := 0
  deriving DecidableEq, Repr

structure KextPatch where
  patch : LookupPatch
  minKernel : UInt32 := KernelAny
  maxKernel : UInt32 := KernelAny
  deriving DecidableEq, Repr

def PlatformAny : UInt32 := 0

/-- A `Controllers.plist` entry. -/
structure ControllerModInfo where
  name : String
  vendor : UInt32
  device : UInt32
  revisions : List UInt32
  platform : UInt32
  computerModel : UInt32
  patches : List KextPatch
  deriving DecidableEq, Repr

/-- `CodecModInfo::File`.  A null `data` pointer is `none`. -/
structure File where
  data : Option (List UInt8)
  dataLength : UInt32
  minKernel : UInt32 := KernelAny
  maxKernel : UInt32 := KernelAny
  layout : UInt32
  deriving DecidableEq, Repr

/-- The `Info.plist` resource file of one codec. -/
structure CodecModInfo where
  name : String
  codec : UInt16
  revisions : List UInt32
  platforms : Option (List File)
  layouts : Option (List File)
  patches : List KextPatch
  deriving DecidableEq, Repr

def CodecModInfo.platformNum (info : CodecModInfo) : ℕ := (info.platforms.getD []).length

def CodecModInfo.layoutNum (info : CodecModInfo) : ℕ := (info.layouts.getD []).length

/-- The supported codecs of one vendor. -/
structure VendorModInfo where
  name : String
  vendor : UInt16
  codecs : List CodecModInfo
  deriving DecidableEq, Repr

/-- `KernelPatcher::KextInfo`, with the slot Lilu gave the kext and the `Detect` user flag. -/
structure KextInfo where
  id : String
  loadIndex : ℕ
  detect : Bool := false
  deriving DecidableEq, Repr

/-- The generated tables that are only read, with the `KextId...` constants. -/
structure Resources where
  kextList : List KextInfo
  vendorMod : List VendorModInfo
  kextIdAppleHDAController : ℕ
  kextIdAppleHDA : ℕ
  kextIdAppleGFXHDA : ℕ
  kextIdIOHDAFamily : ℕ

def Resources.loadIndex (res : Resources) (kext : ℕ) : Option ℕ :=
  (res.kextList[kext]?).map KextInfo.loadIndex

end AppleALC
