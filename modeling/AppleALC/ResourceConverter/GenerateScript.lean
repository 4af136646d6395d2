import Mathlib.Logic.Function.Basic
import AppleALC.Library.Fingerprint
import AppleALC.ResourceConverter.Generate

/-!
# The build script

`generate.sh`, which runs `zlib_pack.command` first, and the files that stay behind from one run to
the next: a packed file beside every `.xml`, a stamp beside every `.xml` and `.plist`, the generated
`kern_resources.cpp`, and `Resources.md5`.  Git ignores all of these, so an edit of the resources
leaves them alone, also where the file that they belong to goes away.

The tools that the scripts call are parameters.  Where a tool may fail, a run says whether it does
and what it leaves behind then.  `xargs` runs the scripts of several files at once; no file's script
touches what belongs to another file, so the order does not matter.

* `BuildFiles` — the files;
* `Tools` / `Tools.Documented` — the tools, and what is assumed of them;
* `GenerateRun` / `generate` — what a run meets, and the run;
* `Action` / `act` — edits and builds.
-/

namespace AppleALC.ResourceConverter

/-- A file that is packed or formatted, by its path without the extension. -/
inductive SourceFile where
  | plist (path : String)
  | xml (path : String)
  deriving DecidableEq, Repr

/-- The name of the file, which `md5` prints beside the sum. -/
def SourceFile.name : SourceFile → String
  | plist path => path ++ ".plist"
  | xml path => path ++ ".xml"

/-- What Foundation reads in a property list when it is asked for each of these. -/
structure PropertyList where
  vendors : Option (List (String × ℕ)) := none
  kexts : Option (List (String × KextDict)) := none
  ctrls : Option (List ControllerDict) := none
  codec : Option CodecDict := none

/-- The tools that the scripts and the converter use. -/
structure Tools where
  /-- The line that `md5` prints for a file of this name with this content. -/
  md5 : String → String → String
  /-- `perl Tools/zlib.pl deflate`. -/
  deflate : String → List UInt8
  /-- `plutil -convert xml1` and the substitution after it. -/
  format : String → String
  /-- `dictionaryWithContentsOfFile` and `arrayWithContentsOfFile`. -/
  read : String → PropertyList
  /-- `contentsOfDirectoryAtPath` of the resources, when these property lists are there. -/
  contentsOfDirectory : (String → Bool) → List String
  /-- The `.xml` whose packed file a path leads to. -/
  packedAt : String → Option String
  /-- The files that neither script touches. -/
  otherFiles : String → Option (List UInt8)

/-- What the build relies on: sums do not collide and take one line, and formatting a property list
does not change what it says. -/
structure Tools.Documented (T : Tools) : Prop where
  md5_inj : ∀ {name name' content content'},
    T.md5 name content = T.md5 name' content' → name = name' ∧ content = content'
  md5_line : ∀ name content, '\n' ∉ (T.md5 name content).toList
  read_format : ∀ content, T.read (T.format content) = T.read content

/-- The files under `Resources`, what the scripts leave beside them, and the output. -/
structure BuildFiles where
  content : SourceFile → Option String
  zlib : String → Option (List UInt8) := fun _ => none
  stamp : SourceFile → Option String := fun _ => none
  kernResources : Option String := none
  resourcesMd5 : Option String := none

variable (T : Tools)

/-- What the converter finds under `Resources`. -/
def resourceTree (plist : String → Option PropertyList) (zlib : String → Option (List UInt8)) :
    ResourceTree where
  basePath := "Resources"
  vendors := (plist "Resources/Vendors").bind (·.vendors)
  kexts := (plist "Resources/Kexts").bind (·.kexts)
  ctrls := (plist "Resources/Controllers").bind (·.ctrls)
  contentsOfDirectory _ := (T.contentsOfDirectory fun path => (plist path).isSome).map fun entry =>
    (entry, (plist ("Resources/" ++ entry ++ "/Info")).bind (·.codec))
  contentsAtPath path :=
    match T.packedAt path with
    | some xml => zlib xml
    | none => T.otherFiles path

def BuildFiles.plists (s : BuildFiles) (path : String) : Option PropertyList :=
  (s.content (.plist path)).map T.read

/-! ### One run -/

/-- What a run of the build meets: the flag `-e` of the shell, the order in which `find` lists the
files, and the steps that fail, with what each leaves behind. -/
structure GenerateRun where
  errexit : Bool := true
  xmls : List String
  plists : List String
  stamps : List SourceFile
  /-- The packed file of a packing that fails. -/
  packFailure : String → Option (List UInt8) := fun _ => none
  /-- The property list of a formatting that fails. -/
  formatFailure : String → Option String := fun _ => none
  /-- `find` or `cat` fails on the stamps. -/
  catFailure : Bool := false
  /-- The `kern_resources.cpp` of a converter that fails, if it has created one. -/
  converterFailure : Option (Option String) := none

inductive Outcome where
  | trusted
  | rebuilt
  | failed
  deriving DecidableEq, Repr

/-- `xargs`: a script for each path.  It goes on after a failure and reports it in the end. -/
def xargs (script : String → BuildFiles → BuildFiles × Bool) :
    List String → BuildFiles → BuildFiles × Bool
  | [], s => (s, true)
  | path :: paths, s =>
      let first := script path s
      let rest := xargs script paths first.1
      (rest.1, first.2 && rest.2)

/-- What both scripts do with one file.  Nothing is done when the stamp is the sum of the file and
its output is there.  Otherwise the file is processed, and stamped if that succeeds; the stamp is the
sum from before. -/
def stampScript (file : SourceFile) (hasOutput : Bool) (process : String → BuildFiles × Bool)
    (s : BuildFiles) : BuildFiles × Bool :=
  match s.content file with
  | none => (s, true)
  | some content =>
      let h := T.md5 file.name content
      if hasOutput ∧ s.stamp file = some h then (s, true)
      else
        let done := process content
        if done.2 then ({ done.1 with stamp := Function.update done.1.stamp file (some h) }, true)
        else (done.1, false)

/-- The script of `zlib_pack.command` for one `.xml`. -/
def packScript (failure : String → Option (List UInt8)) (path : String) (s : BuildFiles) :
    BuildFiles × Bool :=
  stampScript T (.xml path) (s.zlib path).isSome (fun content =>
    match failure path with
    | some left => ({ s with zlib := Function.update s.zlib path (some left) }, false)
    | none => ({ s with zlib := Function.update s.zlib path (some (T.deflate content)) }, true)) s

/-- The script of `generate.sh` for one `.plist`. -/
def formatScript (failure : String → Option String) (path : String) (s : BuildFiles) :
    BuildFiles × Bool :=
  stampScript T (.plist path) true (fun content =>
    match failure path with
    | some left =>
        ({ s with content := Function.update s.content (.plist path) (some left) }, false)
    | none =>
        ({ s with content := Function.update s.content (.plist path) (some (T.format content)) },
          true)) s

/-- The sum of `Resources.tmp.md5`, a file with the line of every stamp. -/
def resourcesSum (stamps : List String) : String :=
  T.md5 "Resources.tmp.md5" (String.join (stamps.map (· ++ "\n")))

/-- The end of `generate.sh`: the output is trusted or built again. -/
def buildResources (r : GenerateRun) (s : BuildFiles) : BuildFiles × Outcome :=
  if r.catFailure then (s, .failed)
  else
    let h := resourcesSum T (r.stamps.filterMap s.stamp)
    if s.kernResources.isSome ∧ s.resourcesMd5 = some h then (s, .trusted)
    else
      match r.converterFailure, resourceConverter (resourceTree T (s.plists T) s.zlib) with
      | some left, _ => ({ s with kernResources := left }, .failed)
      | none, none => ({ s with kernResources := none }, .failed)
      | none, some text => ({ s with kernResources := some text, resourcesMd5 := some h }, .rebuilt)

def packed (r : GenerateRun) (s : BuildFiles) : BuildFiles × Bool :=
  xargs (packScript T r.packFailure) r.xmls s

def formatted (r : GenerateRun) (s : BuildFiles) : BuildFiles × Bool :=
  xargs (formatScript T r.formatFailure) r.plists (packed T r s).1

def generate (r : GenerateRun) (s : BuildFiles) : BuildFiles × Outcome :=
  if r.errexit ∧ (packed T r s).2 = false then ((packed T r s).1, .failed)
  else if r.errexit ∧ (formatted T r s).2 = false then ((formatted T r s).1, .failed)
  else buildResources T r (formatted T r s).1

/-! ### Many runs -/

/-- What happens to the files: a resource is added, changed or deleted, or the project is built. -/
inductive Action where
  | edit (file : SourceFile) (content : Option String)
  | generate (r : GenerateRun)

/-- One action.  A build reports how it ended. -/
def act : Action → BuildFiles → BuildFiles × List Outcome
  | .edit file content, s => ({ s with content := Function.update s.content file content }, [])
  | .generate r, s => ((generate T r s).1, [(generate T r s).2])

/-- A fresh checkout, which has none of the files that git ignores. -/
def checkout (content : SourceFile → Option String) : BuildFiles := { content := content }

/-- `find` lists the files that are there. -/
structure GenerateRun.Finds (r : GenerateRun) (s : BuildFiles) : Prop where
  xmls : ∀ path, path ∈ r.xmls ↔ (s.content (.xml path)).isSome
  plists : ∀ path, path ∈ r.plists ↔ (s.content (.plist path)).isSome
  stamps : ∀ file, file ∈ r.stamps ↔ ((formatted T r s).1.stamp file).isSome

/-! ### A sample project -/

namespace Sample

def vendorsPlist : String := "<dict><key>Realtek</key><integer>4332</integer></dict>"

def kextsPlist : String := "<dict/>"

def ctrlsPlist : String := "<array/>"

def infoPlist : String := "<dict><key>CodecID</key><integer>658</integer><key>CodecName</key>"
  ++ "<string>ALC292</string><key>Vendor</key><string>Realtek</string></dict>"

def editedPlist : String := "<dict><key>CodecID</key><integer>659</integer><key>CodecName</key>"
  ++ "<string>ALC292</string><key>Vendor</key><string>Realtek</string></dict>"

/-- A character of a sum.  A sum takes one line, and its file name ends at the bar. -/
def sumChar (c : Char) : List Char := if c = '\n' then ['\\', 'n'] else ['=', c]

/-- Tools for a project without packed files, whose property lists are formatted already.  The sums
are the names and the contents themselves. -/
def tools : Tools where
  md5 name content := String.ofList (name.toList.flatMap sumChar ++ '|' :: content.toList.flatMap sumChar)
  deflate content := content.toList.map fun c => UInt8.ofNat c.toNat
  format content := content
  read content :=
    if content = vendorsPlist then { vendors := some [("Realtek", 0x10EC)] }
    else if content = kextsPlist then { kexts := some [] }
    else if content = ctrlsPlist then { ctrls := some [] }
    else if content = infoPlist then
      { codec := some { vendor := some "Realtek", codecName := "ALC292", codecID := 658 } }
    else if content = editedPlist then
      { codec := some { vendor := some "Realtek", codecName := "ALC292", codecID := 659 } }
    else {}
  contentsOfDirectory _ := ["ALC292"]
  packedAt _ := none
  otherFiles _ := none

def content (file : SourceFile) : Option String :=
  if file = .plist "Resources/Vendors" then some vendorsPlist
  else if file = .plist "Resources/Kexts" then some kextsPlist
  else if file = .plist "Resources/Controllers" then some ctrlsPlist
  else if file = .plist "Resources/ALC292/Info" then some infoPlist
  else none

def paths : List String := ["Resources/Vendors", "Resources/Kexts", "Resources/Controllers"]

def withCodec : GenerateRun where
  xmls := []
  plists := "Resources/ALC292/Info" :: paths
  stamps := ("Resources/ALC292/Info" :: paths).map .plist

/-- A build after the codec has been deleted.  Its stamp is still there. -/
def withoutCodec : GenerateRun := { withCodec with plists := paths }

/-- The project is built, the id of the codec is edited, and the project is built twice. -/
def edition : List Action :=
  [.generate withCodec, .edit (.plist "Resources/ALC292/Info") (some editedPlist),
    .generate withCodec, .generate withCodec]

/-- The project is built, the codec is deleted, and the project is built again. -/
def deletion : List Action :=
  [.generate withCodec, .edit (.plist "Resources/ALC292/Info") none, .generate withoutCodec]

end Sample

end AppleALC.ResourceConverter
