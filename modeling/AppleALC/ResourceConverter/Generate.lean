import AppleALC.Library.Initializer
import AppleALC.ResourceConverter.ResourceTree

/-!
# Generating `kern_resources.cpp`

The generators of `main.mm`, with the text they write.  Their static variables (six running numbers,
the files already written and the patch buffers already written) and the output file are the state
that every generator passes on.  Some text goes to the output at once, some is collected and goes
there later; the order in which a generator does both is the order here.

Of the banner only the `#include` line is kept, the rest is a comment.

* `Converter` — the static variables and the output;
* `generateKexts`, `generateFile`, `generateRevisions`, `generateFiles`, `generatePatches`,
  `generateCodecs`, `generateControllers`, `generateVendors` — the generators, in the order of the
  source;
* `resourceConverter` — `main`, which has no output if a property list is missing.
-/

namespace AppleALC.ResourceConverter

open Numeral SourceText Initializer

/-- The output file and the static variables of the generators. -/
structure Converter where
  output : String := ""
  fileIndex : ℕ := 0
  fileList : List (String × ℕ) := []
  revisionIndex : ℕ := 0
  platformIndex : ℕ := 0
  layoutIndex : ℕ := 0
  patchIndex : ℕ := 0
  patchBufIndex : ℕ := 0
  patchBufMap : List (List UInt8 × ℕ) := []

def resourceHeader : String := "#include \"kern_resources.hpp\"                      \n\n"

def Converter.appendFile (c : Converter) (data : String) : Converter :=
  { c with output := c.output ++ data }

/-- The pointer and the count of what is not there. -/
def nullTable : String := "nullptr, 0"

def unsignedShortValue (n : ℕ) : ℕ := n % 65536

/-- `makeStringList`, for items that are formatted already. -/
def makeList (type name : String) (index : ℕ) (items : List String) : String :=
  "static const " ++ type ++ " " ++ numbered name index ++ "[] \x7b "
    ++ items.foldl (fun str item => str ++ item ++ ", ") "" ++ "\x7d;\n"

/-- `makeStringList` for `char *`. -/
def makeStringList (name : String) (index : ℕ) (array : List String) : String :=
  makeList "char *" name index (array.map quoted)

/-- `makeStringList` for any other type. -/
def makeNumberList (name : String) (index : ℕ) (array : List UInt32) (type : String) : String :=
  makeList type name index (array.map fun item => hexNumeral item.toNat)

/-! ### Kexts -/

/-- `stringByReplacingOccurrencesOfString:withString:@""`, with the number of characters of an
occurrence that are still to be dropped. -/
def removeOccurrences (pattern : List Char) : ℕ → List Char → List Char
  | _, [] => []
  | skip + 1, _ :: cs => removeOccurrences pattern skip cs
  | 0, c :: cs =>
      if pattern.isPrefixOf (c :: cs) then removeOccurrences pattern (pattern.length - 1) cs
      else c :: removeOccurrences pattern 0 cs

def normKextID (kextID : String) : String :=
  String.ofList (removeOccurrences ".".toList 0 (removeOccurrences "com.apple.iokit.".toList 0
    (removeOccurrences "com.apple.driver.".toList 0 kextID.toList)))

structure KextSections where
  kextPathsSection : String := "\n// Kext section\n\n"
  kextSection : String := "KernelPatcher::KextInfo ADDPR(kextList)[] \x7b\n"
  kextNums : List (String × ℕ) := []
  kextIndex : ℕ := 0

def kextEntryText (index : ℕ) (kextInfo : KextDict) : String :=
  "\t\x7b " ++ fields [quoted kextInfo.id,
    fields [numbered "kextPath" index, decimal kextInfo.paths.length],
    "\x7b" ++ fields ["false", if kextInfo.reloadable.isSome then "true" else "false"] ++ "\x7d",
    "\x7b" ++ (if kextInfo.detect.isSome then "true" else "") ++ "\x7d",
    "KernelPatcher::KextInfo::Unloaded"] ++ " \x7d,\n"

def kextIdText (index : ℕ) (kextInfo : KextDict) : String :=
  "__attribute__((unused))\nconst size_t " ++ ("KextId" ++ normKextID kextInfo.id) ++ " = "
    ++ decimal index ++ ";\n"

def kextStep (s : KextSections) (kext : String × KextDict) : KextSections where
  kextPathsSection := s.kextPathsSection
    ++ makeStringList "kextPath" s.kextIndex kext.2.paths ++ kextIdText s.kextIndex kext.2
  kextSection := s.kextSection ++ kextEntryText s.kextIndex kext.2
  kextNums := s.kextNums ++ [(kext.1, s.kextIndex)]
  kextIndex := s.kextIndex + 1

def sizeText (name : String) (size : ℕ) : String :=
  "\nconst size_t ADDPR(" ++ name ++ ") \x7b" ++ decimal size ++ "\x7d;\n"

def generateKexts (kexts : List (String × KextDict)) (c : Converter) :
    List (String × ℕ) × Converter :=
  let s := kexts.foldl kextStep {}
  let kextSection := s.kextSection ++ "\x7d;\n" ++ sizeText "kextListSize" kexts.length
  (s.kextNums, (c.appendFile s.kextPathsSection).appendFile kextSection)

/-! ### Files -/

/-- The bytes of a file, 24 in a line.  `column` is the number of bytes in the line so far. -/
def fileLines : ℕ → List UInt8 → String
  | column, [] => if column = 0 then "" else "\n"
  | column, b :: bytes =>
      (if column = 0 then "\t" else "") ++ (hexByte b ++ ", ")
        ++ (if column = 23 then "\n" else "") ++ fileLines ((column + 1) % 24) bytes

def generateFile (contentsAtPath : String → Option (List UInt8)) (path inFile : String)
    (c : Converter) : String × Converter :=
  let fullInPath := path ++ "/" ++ inFile
  match c.fileList.lookup fullInPath, contentsAtPath fullInPath with
  | some index, data => (fields [numbered "file" index, decimal (data.getD []).length], c)
  | none, some bytes =>
      let c := c.appendFile ("static const uint8_t " ++ numbered "file" c.fileIndex ++ "[] \x7b\n"
        ++ fileLines 0 bytes ++ "\x7d;\n")
      (fields [numbered "file" c.fileIndex, decimal bytes.length],
        { c with fileList := (fullInPath, c.fileIndex) :: c.fileList, fileIndex := c.fileIndex + 1 })
  | none, none => (nullTable, c)

def generateRevisions (revs : Option (List UInt32)) (c : Converter) : String × Converter :=
  match revs with
  | none => (nullTable, c)
  | some revs =>
      let c := c.appendFile (makeNumberList "revisions" c.revisionIndex revs "uint32_t")
      (fields [numbered "revisions" c.revisionIndex, decimal revs.length],
        { c with revisionIndex := c.revisionIndex + 1 })

inductive FileTable where
  | platforms
  | layouts
  deriving DecidableEq, Repr

namespace FileTable

def stem : FileTable → String
  | platforms => "platforms"
  | layouts => "layouts"

def entryEnd : FileTable → String
  | platforms => "\x7d,\n"
  | layouts => " \x7d,\n"

/-- `platformIndex`, `layoutIndex`. -/
def index (c : Converter) : FileTable → ℕ
  | platforms => c.platformIndex
  | layouts => c.layoutIndex

/-- `platformIndex++`, `layoutIndex++`. -/
def next (c : Converter) : FileTable → Converter
  | platforms => { c with platformIndex := c.platformIndex + 1 }
  | layouts => { c with layoutIndex := c.layoutIndex + 1 }

end FileTable

/-- `[p objectForKey:@"MinKernel"] ?: @"KernelPatcher::KernelAny"`. -/
def kernelText (kernel : Option UInt32) : String :=
  match kernel with
  | some v => decimal v.toNat
  | none => "KernelPatcher::KernelAny"

def fileStep (t : FileTable) (contentsAtPath : String → Option (List UInt8)) (path : String)
    (s : String × Converter) (p : FileDict) : String × Converter :=
  let r := generateFile contentsAtPath path p.path s.2
  (s.1 ++ ("\t\x7b " ++ fields [r.1, kernelText p.minKernel, kernelText p.maxKernel,
    decimal p.id.toNat] ++ t.entryEnd), r.2)

/-- The common body of `generatePlatforms` and `generateLayouts`. -/
def generateFiles (t : FileTable) (contentsAtPath : String → Option (List UInt8))
    (files : Option (List FileDict)) (path : String) (c : Converter) : String × Converter :=
  match files with
  | none => (nullTable, c)
  | some files =>
      let s := files.foldl (fileStep t contentsAtPath path)
        ("static const CodecModInfo::File " ++ numbered t.stem (t.index c) ++ "[] \x7b\n", c)
      let c := t.next (s.2.appendFile (s.1 ++ "\x7d;\n"))
      (fields [numbered t.stem (t.index c - 1), decimal files.length], c)

def generatePlatforms (contentsAtPath : String → Option (List UInt8)) (codecDict : CodecDict) :
    String → Converter → String × Converter :=
  generateFiles .platforms contentsAtPath codecDict.platforms

def generateLayouts (contentsAtPath : String → Option (List UInt8)) (codecDict : CodecDict) :
    String → Converter → String × Converter :=
  generateFiles .layouts contentsAtPath codecDict.layouts

/-! ### Patches -/

def lookupPatchBufIndex (c : Converter) (patch : List UInt8) : Option ℕ :=
  c.patchBufMap.lookup patch

def storePatchBufIndex (c : Converter) (patch : List UInt8) (index : ℕ) : Converter :=
  { c with patchBufMap := (patch, index) :: c.patchBufMap }

structure PatchText where
  pStr : String
  pbStr : String := ""
  c : Converter

def patchBufText (index : ℕ) (patchBuf : List UInt8) : String :=
  makeList "uint8_t" "patchBuf" index (patchBuf.map hexByte)

/-- The buffer loop: the index of the buffer, which is defined when it is new. -/
def patchBufStep (s : PatchText) (patchBuf : List UInt8) : ℕ × PatchText :=
  match lookupPatchBufIndex s.c patchBuf with
  | some index => (index, s)
  | none =>
      let index := s.c.patchBufIndex
      (index, { s with
        pbStr := s.pbStr ++ patchBufText index patchBuf
        c := storePatchBufIndex { s.c with patchBufIndex := index + 1 } patchBuf index })

def kextSlotText (kextIndexes : List (String × ℕ)) (name : String) : String :=
  "&ADDPR(kextList)[" ++ ((kextIndexes.lookup name).elim "(null)" decimal) ++ "]"

def patchEntryText (kextIndexes : List (String × ℕ)) (p : PatchDict) (find replace : ℕ) : String :=
  "\t\x7b " ++ fields ["\x7b " ++ fields [kextSlotText kextIndexes p.name,
    numbered "patchBuf" find, numbered "patchBuf" replace, decimal p.find.length,
    decimal (p.count.getD 0)] ++ " \x7d",
    kernelText p.minKernel, kernelText p.maxKernel] ++ " \x7d,\n"

def patchStep (kextIndexes : List (String × ℕ)) (s : PatchText) (p : PatchDict) : PatchText :=
  if p.find.length ≠ p.replace.length then
    { s with pStr := s.pStr ++ "#error not matching patch lengths\n" }
  else
    let find := patchBufStep s p.find
    let replace := patchBufStep find.2 p.replace
    { replace.2 with
      pStr := replace.2.pStr ++ patchEntryText kextIndexes p find.1 replace.1 }

def generatePatches (patches : Option (List PatchDict)) (kextIndexes : List (String × ℕ))
    (c : Converter) : String × Converter :=
  match patches with
  | none => (nullTable, c)
  | some patches =>
      let s := patches.foldl (patchStep kextIndexes)
        { pStr := "static KextPatch " ++ numbered "patches" c.patchIndex ++ "[] \x7b\n", c := c }
      let c := (s.c.appendFile s.pbStr).appendFile (s.pStr ++ "\x7d;\n")
      let c := { c with patchIndex := c.patchIndex + 1 }
      (fields [numbered "patches" (c.patchIndex - 1), decimal patches.length], c)

/-! ### Codecs, controllers and vendors -/

structure CodecText where
  codecModSection : String
  codecs : ℕ := 0
  c : Converter

/-- One iteration of the codec loop: a directory without `Info.plist` and one of another vendor are
passed over. -/
def codecStep (tree : ResourceTree) (kextIndexes : List (String × ℕ)) (vendor : String)
    (s : CodecText) (entry : DirectoryEntry) : CodecText :=
  match entry.2 with
  | none => s
  | some codecDict =>
      if codecDict.vendor = some vendor then
        let baseDirStr := tree.basePath ++ "/" ++ entry.1
        let revs := generateRevisions codecDict.revisions s.c
        let platforms := generatePlatforms tree.contentsAtPath codecDict baseDirStr revs.2
        let layouts := generateLayouts tree.contentsAtPath codecDict baseDirStr platforms.2
        let patches := generatePatches codecDict.patches kextIndexes layouts.2
        { codecModSection := s.codecModSection ++ ("\t\x7b " ++ fields [quoted codecDict.codecName,
            hexNumeral (unsignedShortValue codecDict.codecID), revs.1, platforms.1, layouts.1,
            patches.1] ++ " \x7d,\n")
          codecs := s.codecs + 1
          c := patches.2 }
      else s

def generateCodecs (tree : ResourceTree) (kextIndexes : List (String × ℕ)) (vendor : String)
    (c : Converter) : ℕ × Converter :=
  let c := c.appendFile ("\n// " ++ vendor ++ " CodecMod section\n\n")
  let s := (tree.contentsOfDirectory vendor).foldl (codecStep tree kextIndexes vendor)
    { codecModSection := "static CodecModInfo " ++ ("codecMod" ++ vendor) ++ "[] \x7b\n", c := c }
  (s.codecs, s.c.appendFile (s.codecModSection ++ "\x7d;\n"))

def modelText (model : Option String) : String :=
  if model = some "Laptop" then "WIOKit::ComputerModel::ComputerLaptop"
  else if model = some "Desktop" then "WIOKit::ComputerModel::ComputerDesktop"
  else "WIOKit::ComputerModel::ComputerAny"

def platformText (platform : Option UInt32) : String :=
  match platform with
  | some v => decimal v.toNat
  | none => "ControllerModInfo::PlatformAny"

/-- The number a vendor name stands for, zero for an unknown one. -/
def vendorNumber (vendors : List (String × ℕ)) (vendor : Option String) : ℕ :=
  (vendor.bind fun v => vendors.lookup v).getD 0

def controllerStep (vendors : List (String × ℕ)) (kextIndexes : List (String × ℕ))
    (s : String × Converter) (entry : ControllerDict) : String × Converter :=
  let revs := generateRevisions entry.revisions s.2
  let patches := generatePatches entry.patches kextIndexes revs.2
  (s.1 ++ ("\t\x7b " ++ fields [quoted entry.name,
    hexNumeral (unsignedShortValue (vendorNumber vendors entry.vendor)),
    hexNumeral (unsignedShortValue entry.device), revs.1, platformText entry.platform,
    modelText entry.model, patches.1] ++ " \x7d,\n"), patches.2)

def generateControllers (ctrls : List ControllerDict) (vendors : List (String × ℕ))
    (kextIndexes : List (String × ℕ)) (c : Converter) : Converter :=
  let c := c.appendFile "\n// ControllerMod section\n\n"
  let s := ctrls.foldl (controllerStep vendors kextIndexes)
    ("ControllerModInfo ADDPR(controllerMod)[] \x7b\n", c)
  s.2.appendFile (s.1 ++ "\x7d;\n" ++ sizeText "controllerModSize" ctrls.length)

def vendorStep (tree : ResourceTree) (kextIndexes : List (String × ℕ)) (s : String × Converter)
    (vendor : String × ℕ) : String × Converter :=
  let codecs := generateCodecs tree kextIndexes vendor.1 s.2
  (s.1 ++ ("\t\x7b " ++ fields [quoted vendor.1, hexNumeral (unsignedShortValue vendor.2),
    fields ["codecMod" ++ vendor.1, decimal codecs.1]] ++ " \x7d,\n"), codecs.2)

def generateVendors (tree : ResourceTree) (vendors : List (String × ℕ))
    (kextIndexes : List (String × ℕ)) (c : Converter) : Converter :=
  let s := vendors.foldl (vendorStep tree kextIndexes)
    ("\n// Vendor section\n\n" ++ "VendorModInfo ADDPR(vendorMod)[] \x7b\n", c)
  s.2.appendFile (s.1 ++ "\x7d;\n" ++ sizeText "vendorModSize" vendors.length)

/-- `main`: the text of the output file.  With a property list missing the converter gives up. -/
def resourceConverter (tree : ResourceTree) : Option String :=
  match tree.vendors, tree.kexts, tree.ctrls with
  | some vendors, some kexts, some ctrls =>
      let c : Converter := ({} : Converter).appendFile resourceHeader
      let kextIndexes := generateKexts kexts c
      let c := generateVendors tree vendors kextIndexes.1 kextIndexes.2
      let c := generateControllers ctrls vendors kextIndexes.1 c
      some c.output
  | _, _, _ => none

end AppleALC.ResourceConverter
