import AppleALC.ResourceConverter.ReadBack
import AppleALC.ResourceConverter.ResourceTree

/-!
# The tables a resource tree stands for

What the tables of `kern_resources.hpp` should hold for a given tree, entry by entry and without any
regard to how the converter gets there: every dictionary becomes one entry with its own data, a file
is what is at its path, and a kext is its position among the kexts.  Ids are 16-bit numbers.

* `KextDict.entry`, `FileDict.entry`, `PatchDict.entry`, `CodecDict.entry`, `ControllerDict.entry` —
  the entry of a dictionary;
* `tablesOf` — the tables.
-/

namespace AppleALC.ResourceConverter

def computerModelOf (model : Option String) : UInt32 :=
  if model = some "Laptop" then ComputerLaptop
  else if model = some "Desktop" then ComputerDesktop
  else ComputerAny

/-- The vendor id with a name, zero for an unknown vendor. -/
def vendorOf (vendors : List (String × ℕ)) (vendor : Option String) : ℕ :=
  (vendor.bind fun v => vendors.lookup v).getD 0

def filePath (tree : ResourceTree) (dir : String) (p : FileDict) : String :=
  tree.basePath ++ "/" ++ dir ++ "/" ++ p.path

def KextDict.entry (kext : KextDict) : KextEntry where
  id := kext.id
  paths := kext.paths
  reloadable := kext.reloadable.isSome
  detect := kext.detect.isSome

def FileDict.entry (tree : ResourceTree) (dir : String) (p : FileDict) : File where
  data := tree.contentsAtPath (filePath tree dir p)
  dataLength := UInt32.ofNat ((tree.contentsAtPath (filePath tree dir p)).getD []).length
  minKernel := p.minKernel.getD KernelAny
  maxKernel := p.maxKernel.getD KernelAny
  layout := p.id

def PatchDict.entry (kexts : List (String × KextDict)) (p : PatchDict) : KextPatch where
  patch :=
    { kext := (kexts.map Prod.fst).idxOf p.name
      find := p.find
      replace := p.replace
      size := p.find.length
      count := p.count.getD 0 }
  minKernel := p.minKernel.getD KernelAny
  maxKernel := p.maxKernel.getD KernelAny

def CodecDict.entry (tree : ResourceTree) (kexts : List (String × KextDict)) (dir : String)
    (codec : CodecDict) : CodecModInfo where
  name := codec.codecName
  codec := UInt16.ofNat codec.codecID
  revisions := codec.revisions.getD []
  platforms := codec.platforms.map fun ps => ps.map (FileDict.entry tree dir)
  layouts := codec.layouts.map fun ps => ps.map (FileDict.entry tree dir)
  patches := (codec.patches.getD []).map (PatchDict.entry kexts)

def ControllerDict.entry (vendors : List (String × ℕ)) (kexts : List (String × KextDict))
    (ctrl : ControllerDict) : ControllerModInfo where
  name := ctrl.name
  vendor := (UInt16.ofNat (vendorOf vendors ctrl.vendor)).toUInt32
  device := (UInt16.ofNat ctrl.device).toUInt32
  revisions := ctrl.revisions.getD []
  platform := ctrl.platform.getD PlatformAny
  computerModel := computerModelOf ctrl.model
  patches := (ctrl.patches.getD []).map (PatchDict.entry kexts)

/-- The entry of a directory, if it is a codec directory of the vendor. -/
def codecOf (tree : ResourceTree) (kexts : List (String × KextDict)) (vendor : String)
    (entry : DirectoryEntry) : Option CodecModInfo :=
  entry.2.bind fun codec =>
    if codec.vendor = some vendor then some (codec.entry tree kexts entry.1) else none

def vendorEntry (tree : ResourceTree) (kexts : List (String × KextDict)) (vendor : String × ℕ) :
    VendorModInfo where
  name := vendor.1
  vendor := UInt16.ofNat vendor.2
  codecs := (tree.contentsOfDirectory vendor.1).filterMap (codecOf tree kexts vendor.1)

def tablesOf (tree : ResourceTree) (vendors : List (String × ℕ)) (kexts : List (String × KextDict))
    (ctrls : List ControllerDict) : Tables where
  kextList := kexts.map fun kext => kext.2.entry
  vendorMod := vendors.map (vendorEntry tree kexts)
  controllerMod := ctrls.map (ControllerDict.entry vendors kexts)

end AppleALC.ResourceConverter
