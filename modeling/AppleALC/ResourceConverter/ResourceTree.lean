import Mathlib.Data.List.Basic

/-!
# The resource tree

What `ResourceConverter` reads: three property lists, one directory for each codec with an
`Info.plist`, and the files these name.  A dictionary is the list of its entries in the order in
which it enumerates its keys, so a result about every list is a result about every order.  Keys that
may be missing are optional.

* `KextDict`, `PatchDict`, `FileDict`, `CodecDict`, `ControllerDict` — the dictionaries;
* `ResourceTree` — all that is read, with the listing of the directory for each vendor.
-/

namespace AppleALC.ResourceConverter

/-- An entry of `Kexts.plist`.  Of the two flags only the presence counts. -/
structure KextDict where
  id : String
  paths : List String
  reloadable : Option Bool := none
  detect : Option Bool := none
  deriving DecidableEq, Repr

structure PatchDict where
  name : String
  find : List UInt8
  replace : List UInt8
  count : Option ℕ := none
  minKernel : Option UInt32 := none
  maxKernel : Option UInt32 := none
  deriving DecidableEq, Repr

/-- An entry of the `Platforms` or `Layouts` array of `Files`. -/
structure FileDict where
  path : String
  minKernel : Option UInt32 := none
  maxKernel : Option UInt32 := none
  id : UInt32
  deriving DecidableEq, Repr

/-- The `Info.plist` of a codec directory. -/
structure CodecDict where
  vendor : Option String
  codecName : String
  codecID : ℕ
  revisions : Option (List UInt32) := none
  platforms : Option (List FileDict) := none
  layouts : Option (List FileDict) := none
  patches : Option (List PatchDict) := none
  deriving DecidableEq, Repr

structure ControllerDict where
  name : String
  vendor : Option String
  device : ℕ
  revisions : Option (List UInt32) := none
  platform : Option UInt32 := none
  model : Option String := none
  patches : Option (List PatchDict) := none
  deriving DecidableEq, Repr

/-- A directory entry, with its `Info.plist` if it is a codec directory. -/
abbrev DirectoryEntry := String × Option CodecDict

/-- Everything the converter reads.  A property list that cannot be read is `none`.  The base
directory is listed once for each vendor, and each listing may have its own order. -/
structure ResourceTree where
  basePath : String
  vendors : Option (List (String × ℕ))
  kexts : Option (List (String × KextDict))
  ctrls : Option (List ControllerDict)
  contentsOfDirectory : String → List DirectoryEntry
  contentsAtPath : String → Option (List UInt8)

/-! ### A sample tree -/

namespace Sample

/-- Two vendors, of which one has codecs. -/
def vendors : List (String × ℕ) := [("Intel", 0x8086), ("Realtek", 0x10EC)]

def kexts : List (String × KextDict) :=
  [("AppleHDA", { id := "com.apple.driver.AppleHDA", paths := ["AppleHDA.kext/AppleHDA"]
                  detect := some true }),
    ("IOHDAFamily", { id := "com.apple.iokit.IOHDAFamily", paths := [] })]

def ctrls : List ControllerDict :=
  [{ name := "HD4600 HDMI Audio", vendor := some "Intel", device := 3084
     patches := some [{ name := "IOHDAFamily", find := [12, 10], replace := [12, 12]
                        count := some 4, minKernel := some 13, maxKernel := some 13 }] }]

/-- A codec that lists a layout twice, with a patch that shares bytes with the controller's. -/
def alc292 : CodecDict where
  vendor := some "Realtek"
  codecName := "ALC292"
  codecID := 658
  platforms := some [{ path := "Platforms18.xml.zlib", id := 18, minKernel := some 14 }]
  layouts := some [{ path := "layout18.xml.zlib", id := 18 },
    { path := "layout18.xml.zlib", id := 28 }]
  patches := some [{ name := "AppleHDA", find := [12, 12], replace := [0, 0] }]

def directory : List DirectoryEntry := [("ALC292", some alc292), ("PinConfigs.kext", none)]

def tree (contentsAtPath : String → Option (List UInt8)) : ResourceTree where
  basePath := "Resources"
  vendors := some vendors
  kexts := some kexts
  ctrls := some ctrls
  contentsOfDirectory vendor := if vendor = "Intel" then directory.reverse else directory
  contentsAtPath := contentsAtPath

def complete : ResourceTree := tree fun _ => some [0x78, 0x9C, 0x03]

def missing : ResourceTree := tree fun _ => none

end Sample

end AppleALC.ResourceConverter
