import AppleALC.Library.CursorPool
import AppleALC.Library.OutputMachine
import AppleALC.KernAlc.Detection

/-!
# Processing a loaded kext

`AlcEnabler::processKext` is called once for every kext of `kextList` that is loaded, and again when
it is reloaded.  Controllers are detected on the first call that gets that far, codecs on a later
call for a `Detect` kext; then the patches of the bound mods that target the current kext are
submitted, and the hooks of the current kext are routed.

The patcher is an opaque sink: what is handed to it is the list of events a call returns.

* `Event` — what a call hands to the patcher;
* `assignNvidiaIds` / `applyPatches` — the two loops over the patches of a mod;
* `detect`, `patchControllers`, `patchLoadedCodecs`, `routeAppleHDA` — the stages of a call;
* `processKext` — the call.
-/

namespace AppleALC

open OutputMachine CursorPool

/-- What a call hands to the kernel patcher.  A submitted patch is tagged with the loop it comes
from and with its position in the patch list of the mod or codec. -/
inductive Event where
  | controllerPatch (mod position : ℕ) (patch : LookupPatch)
  | codecPatch (codec position : ℕ) (patch : LookupPatch)
  | logPatch (patch : LookupPatch)
  | route (index : ℕ) (symbols : List String)
  deriving DecidableEq, Repr

/-- What stays fixed while kexts are processed. -/
structure Config where
  lilu : Lilu
  res : Resources
  debugEnabled : Bool := false

variable (cfg : Config)

/-! ### Patches -/

/-- The patch targets the kext with this load index, and its range admits the running kernel. -/
def Applies (index : ℕ) (patch : KextPatch) : Prop :=
  cfg.res.loadIndex patch.patch.kext = some index ∧
    cfg.lilu.compatibleKernel patch.minKernel patch.maxKernel = true

instance (index : ℕ) (patch : KextPatch) : Decidable (Applies cfg index patch) := by
  unfold Applies; infer_instance

/-- `applyPatches` from position `p` on: the submitted patches with their positions. -/
def applyPatches (index : ℕ) : (p : ℕ) → List KextPatch → List (ℕ × LookupPatch)
  | _, [] => []
  | p, patch :: patches =>
      if Applies cfg index patch then (p, patch.patch) :: applyPatches index (p + 1) patches
      else applyPatches index (p + 1) patches

def eraseRedundantLogs (index : ℕ) : List Event :=
  let logAssertFind : List UInt8 := [0x53, 0x6F, 0x75, 0x6E, 0x64, 0x20, 0x61, 0x73]
  let nullReplace : List UInt8 := [0x00, 0x00, 0x00, 0x00, 0x00, 0x00, 0x00, 0x00]
  if index = cfg.res.kextIdAppleHDAController ∨ index = cfg.res.kextIdAppleHDA then
    [.logPatch { kext := index, find := logAssertFind, replace := nullReplace, size := 8
                 count := if index = cfg.res.kextIdAppleHDAController then 3 else 2 }]
  else []

/-! ### Choosing a free device-id for NVIDIA HDAU -/

/-- The patch waits for a device-id: four bytes, and they are still the special find. -/
def IsPlaceholder (p : LookupPatch) : Prop :=
  p.size = 4 ∧ uint32OfBytes p.find = NvidiaSpecialFind

instance (p : LookupPatch) : Decidable (IsPlaceholder p) := by
  unfold IsPlaceholder; infer_instance

/-- Point the find of a waiting patch at the first free device-id, if there is one. -/
def assignNvidiaId (pool : Pool) (patch : KextPatch) : Pool × KextPatch :=
  if IsPlaceholder patch.patch then
    match take MaxNvidiaDeviceIds pool with
    | (some k, pool) =>
        let find := bytesOfUInt32 (nvidiaDeviceIdList.getD k 0)
        (pool, { patch with patch := { patch.patch with find := find } })
    | (none, pool) => (pool, patch)
  else (pool, patch)

/-- The patch loop over one mod. -/
def assignNvidiaIds : Pool → List KextPatch → Pool × List KextPatch
  | pool, [] => (pool, [])
  | pool, patch :: patches =>
      let head := assignNvidiaId pool patch
      let rest := assignNvidiaIds head.1 patches
      (rest.1, head.2 :: rest.2)

/-- The usage marks and the cursor, as a pool. -/
def AlcEnabler.pool (alc : AlcEnabler) : Pool :=
  ⟨alc.nvidiaDeviceIdUsage, alc.currentFreeNvidiaDeviceId⟩

/-- Write a mod's patches and the pool back. -/
def AlcEnabler.storePatches (alc : AlcEnabler) (mod : ℕ) (info : ControllerModInfo)
    (r : Pool × List KextPatch) : AlcEnabler :=
  { alc with controllerMod := alc.controllerMod.set mod { info with patches := r.2 }
             nvidiaDeviceIdUsage := r.1.used
             currentFreeNvidiaDeviceId := r.1.cursor }

/-! ### The controller and codec loops -/

def patchController (index : ℕ) (c : ControllerInfo) (alc : AlcEnabler) :
    AlcEnabler × List Event :=
  match c.info with
  | none => (alc, [])
  | some mod =>
      match alc.controllerMod[mod]? with
      | none => (alc, [])
      | some info =>
          let r := if info.vendor = VendorID.NVIDIA then assignNvidiaIds alc.pool info.patches
            else (alc.pool, info.patches)
          let alc := alc.storePatches mod info r
          if c.nopatch then (alc, [])
          else (alc, (applyPatches cfg index 0 r.2).map fun jp => .controllerPatch mod jp.1 jp.2)

/-- The codec loop, from codec `i` on: whether resource callbacks are wanted, and the patches. -/
def patchCodecs (index : ℕ) : (i : ℕ) → List CodecInfo → Bool × List Event
  | _, [] => (false, [])
  | i, ci :: cis =>
      let rest := patchCodecs index (i + 1) cis
      match ci.info with
      | none => rest
      | some info =>
          (decide (info.platformNum > 0 ∨ info.layoutNum > 0) || rest.1,
            ((applyPatches cfg index 0 info.patches).map fun jp => .codecPatch i jp.1 jp.2)
              ++ rest.2)

/-! ### The stages of one call -/

/-- The slot of `kextList` a kinfo handle resolves to: the first with this load index. -/
def Resources.kextSlot (res : Resources) (index : ℕ) : Option ℕ :=
  res.kextList.findIdx? fun kext => kext.loadIndex == index

/-- Controllers first, and on a later call for a `Detect` kext the codecs. -/
def detect (load : KextLoad) (kextIndex : ℕ) (alc : AlcEnabler) : AlcEnabler :=
  if !alc.progressState.controllersLoaded then
    let alc := grabControllers cfg.lilu load alc
    { alc with progressState := { alc.progressState with controllersLoaded := true } }
  else if !alc.progressState.codecsLoaded
      && ((cfg.res.kextList[kextIndex]?).map KextInfo.detect).getD false then
    let r := grabCodecs cfg.lilu cfg.res load alc
    if r.2 then
      { r.1 with progressState := { r.1.progressState with codecsLoaded := true } }
    else r.1
  else alc

/-- Continue to patch controllers. -/
def patchControllers (index kextIndex : ℕ) (alc : AlcEnabler) : AlcEnabler × List Event :=
  if alc.progressState.controllersLoaded then
    (run (patchController cfg index) alc.controllers alc,
      outputs (patchController cfg index) alc.controllers alc
        ++ if cfg.debugEnabled then [] else eraseRedundantLogs cfg kextIndex)
  else (alc, [])

/-- Patch codecs, and see whether the resource callbacks are wanted. -/
def patchLoadedCodecs (index : ℕ) (alc : AlcEnabler) : AlcEnabler × List Event :=
  if alc.progressState.codecsLoaded then
    let r := patchCodecs cfg index 0 alc.codecs
    ({ alc with progressState := { alc.progressState with
        callbacksWantRouting := alc.progressState.callbacksWantRouting || r.1 } }, r.2)
  else (alc, [])

def routeAppleHDA (index kextIndex : ℕ) (alc : AlcEnabler) : List Event :=
  if alc.progressState.callbacksWantRouting ∧ kextIndex = cfg.res.kextIdAppleHDA then
    .route index ["__ZN14AppleHDADriver18layoutLoadCallbackEjiPKvjPv",
      "__ZN14AppleHDADriver20platformLoadCallbackEjiPKvjPv",
      "__ZN14AppleHDADriver23performPowerStateChangeE24_IOAudioDevicePowerStateS0_Pj",
      "__ZN20AppleHDACodecGeneric38initializePinConfigDefaultFromOverrideEP9IOService"]
      :: if cfg.debugEnabled then [] else eraseRedundantLogs cfg kextIndex
  else []

/-- Route the verb hook of IOHDAFamily, once. -/
def routeHDAFamily (index kextIndex : ℕ) (alc : AlcEnabler) : AlcEnabler × List Event :=
  if !alc.progressState.patchHDAFamily ∧ kextIndex = cfg.res.kextIdIOHDAFamily then
    ({ alc with progressState := { alc.progressState with patchHDAFamily := true } },
      [.route index ["__ZN16IOHDACodecDevice11executeVerbEtttPjb"]])
  else (alc, [])

/-- Route the start hook of AppleHDAController, once. -/
def routeHDAController (index kextIndex : ℕ) (alc : AlcEnabler) : AlcEnabler × List Event :=
  if !alc.progressState.patchHDAController ∧ kextIndex = cfg.res.kextIdAppleHDAController then
    ({ alc with progressState := { alc.progressState with patchHDAController := true } },
      [.route index ["__ZN18AppleHDAController5startEP9IOService"]])
  else (alc, [])

/-- `processKext`: the plugin after the call, and what the call handed to the patcher. -/
def processKext (load : KextLoad) (alc : AlcEnabler) : AlcEnabler × List Event :=
  match cfg.res.kextSlot load.index with
  | none => (alc, [])
  | some kextIndex =>
      if kextIndex = cfg.res.kextIdAppleGFXHDA then
        (alc, [.route load.index ["__ZN21AppleGFXHDAController5probeEP9IOServicePi"]])
      else
        let alc := detect cfg load kextIndex alc
        let controllers := patchControllers cfg load.index kextIndex alc
        let codecs := patchLoadedCodecs cfg load.index controllers.1
        let hda := routeAppleHDA cfg load.index kextIndex codecs.1
        let family := routeHDAFamily cfg load.index kextIndex codecs.1
        let controller := routeHDAController cfg load.index kextIndex family.1
        (controller.1, controllers.2 ++ codecs.2 ++ hda ++ family.2 ++ controller.2)

/-- The plugin when the patcher is loaded, with the generated mod table. -/
def bootAlc (lilu : Lilu) (boot : Boot) (controllerMod : List ControllerModInfo) : AlcEnabler :=
  (updateProperties lilu boot { controllerMod := controllerMod }).alc

/-! ### A sample machine

A board whose analog function has a mod of its own, with an ALC292 below it, and the kext list of
`Kexts.plist`. -/

namespace Sample

/-- The ALC292 of Realtek, with one layout and one platform, and patches of two kexts. -/
def codecMod : CodecModInfo where
  name := "ALC292"
  codec := 0x0292
  revisions := []
  platforms := some [{ data := some [0x78, 0xDA], dataLength := 2, layout := 18 }]
  layouts := some [{ data := some [0x78, 0x9C, 0x03], dataLength := 3, layout := 18 }]
  patches := [{ patch := { kext := 1, find := [0xC6, 0x06, 0x00], replace := [0xC6, 0x06, 0x01]
                           size := 3, count := 1 } },
    { patch := { kext := 2, find := [0x83, 0xF8, 0x00], replace := [0x83, 0xF8, 0x01]
                 size := 3, count := 1 } }]

def resources : Resources where
  kextList := [{ id := "com.apple.driver.AppleGFXHDA", loadIndex := 10 },
    { id := "com.apple.driver.AppleHDA", loadIndex := 11, detect := true },
    { id := "com.apple.driver.AppleHDAController", loadIndex := 12 },
    { id := "com.apple.iokit.IOHDAFamily", loadIndex := 13 }]
  vendorMod := [{ name := "Realtek", vendor := 0x10EC, codecs := [codecMod] }]
  kextIdAppleGFXHDA := 0
  kextIdAppleHDA := 1
  kextIdAppleHDAController := 2
  kextIdIOHDAFamily := 3

def config : Config where
  lilu := Lilu.documented 19 4
  res := resources

/-- The mod of the analog function, with one patch of AppleHDAController. -/
def controllerMod : List ControllerModInfo :=
  [{ name := "8 Series HD Audio", vendor := 0x8086, device := 0x8C20, revisions := []
     platform := PlatformAny, computerModel := 3
     patches := [{ patch := { kext := 2, find := [0x70, 0xA1], replace := [0x20, 0x8C]
                              size := 2, count := 1 } }] }]

/-- HDEF with a layout, and with the opt-out properties `flags`. -/
def hdef (flags : List String) : Properties := fun key =>
  if key = "vendor-id" then some (.data (bytesOfUInt32 0x8086))
  else if key = "device-id" then some (.data (bytesOfUInt32 0x8C20))
  else if key = "revision-id" then some (.data (bytesOfUInt32 4))
  else if key = "alc-layout-id" then some (.data (bytesOfUInt32 18))
  else if key ∈ flags then some (.data [1])
  else none

def registry (flags : List String) : Registry Device := fun d =>
  if d = .audioBuiltinAnalog then hdef flags else fun _ => none

def codecEntry : Properties := fun key =>
  if key = "IOHDACodecVendorID" then some (.number 0x10EC0292)
  else if key = "IOHDACodecRevisionID" then some (.number 0x100001)
  else none

def boot (flags : List String) : Boot where
  devInfo := some { audioBuiltinAnalog := true }
  registry := registry flags

/-- The board when the kext of a load index is loaded. -/
def load (flags : List String) (index : ℕ) : KextLoad where
  index := index
  devInfo := some { audioBuiltinAnalog := true }
  registry := registry flags
  modelType := 1
  iterateOver d _ := if d = .audioBuiltinAnalog then some [codecEntry] else none

end Sample

end AppleALC
