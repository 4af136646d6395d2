import AppleALC.KernResources
import AppleALC.Library.Definitions
import AppleALC.Library.Initializer

/-!
# Reading the tables back

What a C++ compiler makes of `kern_resources.cpp`: the tables of `kern_resources.hpp` that its
definitions denote.  The reader is as strict as a compiler about names (each is defined once, and
before its first use) and stricter about counts: a count next to a pointer must be the number of
initialisers of the table that is pointed to, and a patch must have buffers of its own length.
A length that does not fit into its field is reduced to 32 bits; a compiler would refuse it.

The `KextId` constants are no tables and are passed over.

* `Tables` / `Value` — the tables, and what a name stands for;
* `readFile`, `readPatch`, `readCodec`, `readController`, `readVendor`, `readKext` — the entries;
* `language` — the definitions of the file;
* `readBack` — the tables that a text denotes.
-/

namespace AppleALC.ResourceConverter

open SourceText Initializer Definitions

structure KextEntry where
  id : String
  paths : List String
  reloadable : Bool
  detect : Bool
  deriving DecidableEq, Repr

structure Tables where
  kextList : List KextEntry
  vendorMod : List VendorModInfo
  controllerMod : List ControllerModInfo
  deriving DecidableEq, Repr

/-- What a name can stand for. -/
inductive Value where
  | strings (xs : List String)
  | numbers (xs : List UInt32)
  | bytes (xs : List UInt8)
  | files (xs : List File)
  | patches (xs : List KextPatch)
  | codecs (xs : List CodecModInfo)
  | kexts (xs : List KextEntry)
  | controllers (xs : List ControllerModInfo)
  | vendors (xs : List VendorModInfo)
  | size (n : ℕ)

namespace Value

def asStrings : Value → Option (List String)
  | strings xs => some xs
  | _ => none

def asNumbers : Value → Option (List UInt32)
  | numbers xs => some xs
  | _ => none

def asBytes : Value → Option (List UInt8)
  | bytes xs => some xs
  | _ => none

def asFiles : Value → Option (List File)
  | files xs => some xs
  | _ => none

def asPatches : Value → Option (List KextPatch)
  | patches xs => some xs
  | _ => none

def asCodecs : Value → Option (List CodecModInfo)
  | codecs xs => some xs
  | _ => none

def asKexts : Value → Option (List KextEntry)
  | kexts xs => some xs
  | _ => none

def asControllers : Value → Option (List ControllerModInfo)
  | controllers xs => some xs
  | _ => none

def asVendors : Value → Option (List VendorModInfo)
  | vendors xs => some xs
  | _ => none

def asSize : Value → Option ℕ
  | size n => some n
  | _ => none

end Value

/-! ### Single initialisers -/

/-- `A::B::C`. -/
def qualified (names : List String) : List Token :=
  [Token.punct ':', .punct ':'].intercalate (names.map fun n => [.word n])

/-- The constants of the headers, with their values. -/
def constants : List (List Token × ℕ) :=
  [(qualified ["KernelPatcher", "KernelAny"], KernelAny.toNat),
    (qualified ["ControllerModInfo", "PlatformAny"], PlatformAny.toNat),
    (qualified ["WIOKit", "ComputerModel", "ComputerLaptop"], ComputerLaptop.toNat),
    (qualified ["WIOKit", "ComputerModel", "ComputerDesktop"], ComputerDesktop.toNat),
    (qualified ["WIOKit", "ComputerModel", "ComputerAny"], ComputerAny.toNat)]

def readString : Init → Option String
  | .leaf [.str s] => some s
  | _ => none

def readNumber : Init → Option ℕ
  | .leaf [.word w] => Numeral.read w
  | .leaf ts => constants.lookup ts
  | .braces _ => none

def readUInt8 (i : Init) : Option UInt8 :=
  (readNumber i).bind fun n => if n < 256 then some (UInt8.ofNat n) else none

def readUInt16 (i : Init) : Option UInt16 :=
  (readNumber i).bind fun n => if n < 65536 then some (UInt16.ofNat n) else none

def readUInt32 (i : Init) : Option UInt32 :=
  (readNumber i).bind fun n => if n < 4294967296 then some (UInt32.ofNat n) else none

def readBool : Init → Option Bool
  | .leaf [.word w] => if w = "true" then some true else if w = "false" then some false else none
  | _ => none

variable (scope : Scope String Value)

/-- The table behind a pointer that is not null. -/
def readPointer {α : Type} (select : Value → Option (List α)) : Init → Option (List α)
  | .leaf [.word w] => (scope.lookup w).bind select
  | _ => none

/-- A pointer with its count, both null or agreeing with each other. -/
def readArray {α : Type} (select : Value → Option (List α)) (pointer count : Init) :
    Option (Option (List α)) :=
  match pointer, readNumber count with
  | .leaf [.word w], some n =>
      if w = "nullptr" then (if n = 0 then some none else none)
      else ((scope.lookup w).bind select).bind fun xs =>
        if xs.length = n then some (some xs) else none
  | _, _ => none

/-- `&ADDPR(kextList)[slot]`, for a slot of the list. -/
def readKextSlot : Init → Option ℕ
  | .leaf [.punct '&', .word "ADDPR", .punct '(', .word "kextList", .punct ')', .punct '[',
      .word slot, .punct ']'] => do
      let i ← Numeral.read slot
      let kexts ← (scope.lookup "kextList").bind Value.asKexts
      if i < kexts.length then some i else none
  | _ => none

/-! ### Entries -/

def readFile : Init → Option File
  | .braces [data, dataLength, minKernel, maxKernel, layout] => do
      let bytes ← readArray scope Value.asBytes data dataLength
      let length ← readNumber dataLength
      let min ← readUInt32 minKernel
      let max ← readUInt32 maxKernel
      let id ← readUInt32 layout
      some { data := bytes, dataLength := UInt32.ofNat length, minKernel := min, maxKernel := max
             layout := id }
  | _ => none

def readPatch : Init → Option KextPatch
  | .braces [.braces [kext, find, replace, size, count], minKernel, maxKernel] => do
      let slot ← readKextSlot scope kext
      let find ← readPointer scope Value.asBytes find
      let replace ← readPointer scope Value.asBytes replace
      let n ← readNumber size
      let count ← readNumber count
      let min ← readUInt32 minKernel
      let max ← readUInt32 maxKernel
      if find.length = n ∧ replace.length = n then
        some { patch := { kext := slot, find := find, replace := replace, size := n, count := count }
               minKernel := min, maxKernel := max }
      else none
  | _ => none

def readCodec : Init → Option CodecModInfo
  | .braces [name, codec, revisions, revisionNum, platforms, platformNum, layouts, layoutNum,
      patches, patchNum] => do
      let name ← readString name
      let codec ← readUInt16 codec
      let revisions ← readArray scope Value.asNumbers revisions revisionNum
      let platforms ← readArray scope Value.asFiles platforms platformNum
      let layouts ← readArray scope Value.asFiles layouts layoutNum
      let patches ← readArray scope Value.asPatches patches patchNum
      some { name := name, codec := codec, revisions := revisions.getD [], platforms := platforms,
             layouts := layouts, patches := patches.getD [] }
  | _ => none

def readController : Init → Option ControllerModInfo
  | .braces [name, vendor, device, revisions, revisionNum, platform, computerModel, patches,
      patchNum] => do
      let name ← readString name
      let vendor ← readUInt32 vendor
      let device ← readUInt32 device
      let revisions ← readArray scope Value.asNumbers revisions revisionNum
      let platform ← readUInt32 platform
      let computerModel ← readUInt32 computerModel
      let patches ← readArray scope Value.asPatches patches patchNum
      some { name := name, vendor := vendor, device := device, revisions := revisions.getD [],
             platform := platform, computerModel := computerModel, patches := patches.getD [] }
  | _ => none

def readVendor : Init → Option VendorModInfo
  | .braces [name, vendor, codecs, codecsNum] => do
      let name ← readString name
      let vendor ← readUInt16 vendor
      let codecs ← readArray scope Value.asCodecs codecs codecsNum
      some { name := name, vendor := vendor, codecs := codecs.getD [] }
  | _ => none

def readKext : Init → Option KextEntry
  | .braces [id, paths, pathNum, .braces [_, reloadable], .braces user, _] => do
      let id ← readString id
      let paths ← readArray scope Value.asStrings paths pathNum
      let reloadable ← readBool reloadable
      some { id := id, paths := paths.getD [], reloadable := reloadable,
             detect := (user.head?.bind readBool).getD false }
  | _ => none

/-! ### Definitions -/

/-- The tables of the file by their element types. -/
inductive Kind where
  | strings
  | numbers
  | bytes
  | files
  | patches
  | codecs
  | kexts
  | controllers
  | vendors
  | size
  deriving DecidableEq

namespace Kind

def all : List Kind :=
  [strings, numbers, bytes, files, patches, codecs, kexts, controllers, vendors, size]

def front : Kind → List Token
  | strings => [.word "static", .word "const", .word "char", .punct '*']
  | numbers => [.word "static", .word "const", .word "uint32_t"]
  | bytes => [.word "static", .word "const", .word "uint8_t"]
  | files => [.word "static", .word "const", .word "CodecModInfo", .punct ':', .punct ':',
      .word "File"]
  | patches => [.word "static", .word "KextPatch"]
  | codecs => [.word "static", .word "CodecModInfo"]
  | kexts => [.word "KernelPatcher", .punct ':', .punct ':', .word "KextInfo", .word "ADDPR",
      .punct '(']
  | controllers => [.word "ControllerModInfo", .word "ADDPR", .punct '(']
  | vendors => [.word "VendorModInfo", .word "ADDPR", .punct '(']
  | size => [.word "const", .word "size_t", .word "ADDPR", .punct '(']

def back : Kind → List Token
  | strings | numbers | bytes | files | patches | codecs => [.punct '[', .punct ']']
  | kexts | controllers | vendors => [.punct ')', .punct '[', .punct ']']
  | size => [.punct ')']

def nameIn (k : Kind) (header : List Token) : Option String :=
  match header.drop k.front.length with
  | .word n :: rest => if header.take k.front.length = k.front ∧ rest = k.back then some n else none
  | _ => none

end Kind

/-- The kind and the name of a definition. -/
def readHeader (header : List Token) : Option (Kind × String) :=
  Kind.all.findSome? fun k => (k.nameIn header).map fun n => (k, n)

/-- The value of the initialisers of a definition. -/
def readTable (k : Kind) (is : List Init) : Option Value :=
  match k with
  | .strings => (is.mapM readString).map .strings
  | .numbers => (is.mapM readUInt32).map .numbers
  | .bytes => (is.mapM readUInt8).map .bytes
  | .files => (is.mapM (readFile scope)).map .files
  | .patches => (is.mapM (readPatch scope)).map .patches
  | .codecs => (is.mapM (readCodec scope)).map .codecs
  | .kexts => (is.mapM (readKext scope)).map .kexts
  | .controllers => (is.mapM (readController scope)).map .controllers
  | .vendors => (is.mapM (readVendor scope)).map .vendors
  | .size => (is.head?.bind readNumber).map .size

/-- The words that the headers or the language define. -/
def reservedWords : List String :=
  ["KernelPatcher", "KernelAny", "KextInfo", "Unloaded", "ControllerModInfo", "PlatformAny",
    "WIOKit", "ComputerModel", "ComputerLaptop", "ComputerDesktop", "ComputerAny", "ADDPR",
    "nullptr", "true", "false"]

/-- The word is a name that the file itself has to define. -/
def isIdentifier (word : String) : Bool :=
  (word.toList.head?.elim false fun c => !c.isDigit) && !reservedWords.contains word

def identifiers (is : List Init) : List String := (wordsOf is).filter isIdentifier

/-- The definitions of `kern_resources.cpp`. -/
def language : Language String Declaration Value where
  ignores d := d.header.head? == some (.word "__attribute__") && d.body.isNone
  name d := (readHeader d.header).map Prod.snd
  uses d := identifiers (d.body.getD [])
  value scope d :=
    match readHeader d.header, d.body with
    | some (k, _), some is => readTable scope k is
    | _, _ => none

theorem language_value {header : List Token} {k : Kind} {name : String}
    (h : readHeader header = some (k, name)) (is : List Init) :
    language.value scope ⟨header, some is⟩ = readTable scope k is := by
  simp only [language, h]

/-- A table together with the constant that holds its size. -/
def readSized {α : Type} (select : Value → Option (List α)) (name size : String) :
    Option (List α) := do
  let xs ← (scope.lookup name).bind select
  let n ← (scope.lookup size).bind Value.asSize
  if xs.length = n then some xs else none

/-- The tables a text denotes. -/
def readBack (text : String) : Option Tables := do
  let ds ← declarations text
  let scope ← resolve language ds []
  let kextList ← readSized scope Value.asKexts "kextList" "kextListSize"
  let vendorMod ← readSized scope Value.asVendors "vendorMod" "vendorModSize"
  let controllerMod ← readSized scope Value.asControllers "controllerMod" "controllerModSize"
  some { kextList := kextList, vendorMod := vendorMod, controllerMod := controllerMod }

end AppleALC.ResourceConverter
