import AppleALC.KernAlc.State

/-!
# Updating the device properties

`AlcEnabler::updateProperties` runs once, when the patcher is loaded.  It walks over the inventory
in four stages (the built-in digital function, the built-in analog function, the IGPU, the external
GPUs), fixes names and properties, and registers the digital controllers.

Everything it does to a device is recorded in `World.effects`, so that a property can say what was
done to a device and not only what the tables look like afterwards.

* `World` / `Effect` — the machine while the boot goes over it, and what is done to its devices;
* `updateDeviceProperties` — one audio device;
* `validateInjection` — the device has not opted out;
* `updateProperties` — the boot.
-/

namespace AppleALC

open PropertyStore

/-! ### The world around the plugin -/

inductive Effect where
  | setProperty (device : Device) (key : String) (value : OSObject)
  | renameDevice (device : Device) (name : String)
  | awaitPublishing (device : Device)
  | requestTerminate (device : Device)
  | terminate (device : Device)
  | stop (device : Device)
  | configWrite8 (device : Device) (offset : ℕ) (value : UInt8)

def Effect.device : Effect → Device
  | setProperty d _ _ | renameDevice d _ | awaitPublishing d | requestTerminate d | terminate d
  | stop d | configWrite8 d _ _ => d

/-- What the machine shows to `updateProperties`: the inventory (`none` when `DeviceInfo::create`
fails), the property tables and names before it runs, the boot arguments, and the outcomes of the
calls it makes on devices. -/
structure Boot where
  devInfo : Option DeviceInfo
  registry : Registry Device
  name : Device → Option String := fun _ => none
  bootArgs : String → Option UInt32 := fun _ => none
  isPCIDevice : Device → Bool := fun _ => true
  configRead8 : Device → ℕ → UInt8 := fun _ _ => 0
  hdauCasts : Bool := true
  requestTerminate : Bool := true
  terminate : Bool := true

/-- The registry, the plugin, and what was done to the devices so far. -/
structure World where
  registry : Registry Device
  name : Device → Option String
  alc : AlcEnabler
  effects : List Effect

namespace World

def setProperty (w : World) (d : Device) (key : String) (value : OSObject) : World :=
  { w with registry := set w.registry d key value
           effects := w.effects ++ [.setProperty d key value] }

def renameDevice (w : World) (lilu : Lilu) (d : Device) (name : String) : World :=
  { w with registry := Function.update w.registry d (lilu.renameDevice name (w.registry d))
           name := Function.update w.name d (some name)
           effects := w.effects ++ [.renameDevice d name] }

theorem renameDevice_registry (w : World) (lilu : Lilu) (d : Device) (name : String) :
    (w.renameDevice lilu d name).registry =
      Function.update w.registry d (lilu.renameDevice name (w.registry d)) := rfl

/-- An effect that shows neither in the properties nor in the names. -/
def act (w : World) (e : Effect) : World :=
  { w with effects := w.effects ++ [e] }

/-- Give a property a value unless it is there already. -/
def setDefault (w : World) (d : Device) (key : String) (bytes : List UInt8) : World :=
  if (w.registry d key).isNone then w.setProperty d key (.data bytes) else w

/-- `insertController` from a device, with `lid` and `d` left at their defaults. -/
def insertController (w : World) (d : Device) (ven dev rev : UInt32) (np : Bool) (p : UInt32) :
    World :=
  { w with alc := w.alc.insertController ⟨d, w.registry d⟩ ven dev rev np p 0 none }

end World

/-! ### Updating one audio device -/

section UpdateDevice

variable (lilu : Lilu) (boot : Boot) (info : DeviceInfo)

/-- AppleHDAController only recognises HDEF and HDAU. -/
def fixPlaneName (lilu : Lilu) (hdaService : Device) (isAnalog : Bool) (w : World) : World :=
  let wanted := if isAnalog then "HDEF" else "HDAU"
  if w.name hdaService ≠ some wanted then w.renameDevice lilu hdaService wanted else w

/-- Refresh our own layout-id named alc-layout-id. -/
def updateLayoutId (hdaService : Device) (w : World) : World :=
  match boot.bootArgs "alcid" with
  | some layout => w.setProperty hdaService "alc-layout-id" (.data (bytesOfUInt32 layout))
  | none =>
      if info.firmwareVendor = .apple
          ∧ (lilu.read (w.registry hdaService) "alc-layout-id").isSome then w
      else if info.firmwareVendor ≠ .apple
          ∨ (w.registry hdaService "use-layout-id").isSome then
        match lilu.read (w.registry hdaService) "layout-id" with
        | some alcId => w.setProperty hdaService "alc-layout-id" (.data (bytesOfUInt32 alcId))
        | none => w
      else w

/-- The part of `updateDeviceProperties` for the analog device only. -/
def updateAnalogProperties (hdaService : Device) (w : World) : World :=
  let w := updateLayoutId lilu boot info hdaService w
  let w := w.setDefault hdaService "MaximumBootBeepVolume" [0x7F]
  let w := w.setDefault hdaService "MaximumBootBeepVolumeAlt" [0x7F]
  w.setDefault hdaService "PinConfigurations" [0x00]

/-- For every client only set layout-id itself. -/
def reportLayoutId (hdaService : Device) (w : World) : World :=
  if info.firmwareVendor ≠ .apple ∨ (w.registry hdaService "use-apple-layout-id").isSome then
    w.setProperty hdaService "layout-id" (.data (bytesOfUInt32 info.reportedLayoutId))
  else w

/-- Pass onboard-X if requested. -/
def passHdaGfx (hdaService : Device) (hdaGfx : Option String) (w : World) : World :=
  match hdaGfx with
  | some name => w.setProperty hdaService "hda-gfx" (.data (cString name))
  | none => w

def updateDeviceProperties (hdaService : Device) (hdaGfx : Option String) (isAnalog : Bool)
    (w : World) : World :=
  let w := fixPlaneName lilu hdaService isAnalog w
  let w := if isAnalog then updateAnalogProperties lilu boot info hdaService w else w
  let w := reportLayoutId info hdaService w
  let w := passHdaGfx hdaService hdaGfx w
  w.setDefault hdaService "built-in" [0x00]

end UpdateDevice

/-! ### The four stages -/

/-- Checks for a set no-controller-inject property. -/
def validateInjection (w : World) (hdaService : Device) : Bool :=
  (w.registry hdaService "no-controller-inject").isNone

section Stages

variable (lilu : Lilu) (boot : Boot) (info : DeviceInfo)

/-- Assume that IGPU with connections means built-in digital audio, and respect the desire to
disable digital audio. -/
def hasBuiltinDigitalAudio (w : World) : Bool :=
  let has := !info.reportedFramebufferIsConnectorLess && info.videoBuiltin
  if has && info.audioBuiltinAnalog && (w.registry .audioBuiltinAnalog "No-hda-gfx").isSome then
    false
  else has

/-- Register the digital controller `d` when its device-id and revision-id are readable: HDAU, or
the IGPU in its place. -/
def insertDigital (d : Device) (ven platform : UInt32) (w : World) : World :=
  match lilu.read (w.registry d) "device-id", lilu.read (w.registry d) "revision-id" with
  | some dev, some rev =>
      w.insertController d ven dev rev (w.registry d "no-controller-patch").isSome platform
  | _, _ => w

/-- Terminate built-in HDAU audio, as we are using no connectors. -/
def terminateDigital (w : World) : World :=
  let w := w.act (.awaitPublishing .audioBuiltinDigital)
  if boot.hdauCasts then
    let w := w.act (.requestTerminate .audioBuiltinDigital)
    if boot.requestTerminate then
      let w := w.act (.terminate .audioBuiltinDigital)
      if boot.terminate then w.act (.stop .audioBuiltinDigital) else w
    else w
  else w

/-- Firstly, update the HDAU device for built-in digital audio. -/
def updateBuiltinDigital (has : Bool) (w : World) : World :=
  if info.audioBuiltinDigital && validateInjection w .audioBuiltinDigital then
    if has then
      let w := updateDeviceProperties lilu boot info .audioBuiltinDigital (some "onboard-1") false w
      insertDigital lilu .audioBuiltinDigital VendorID.Intel info.reportedFramebufferId w
    else terminateDigital boot w
  else w

def RegTCSEL : ℕ := 0x44

/-- Update Traffic Class Select Register to TC0. -/
def updateTcsel (w : World) : World :=
  let hdef := Device.audioBuiltinAnalog
  if lilu.read (w.registry hdef) "vendor-id" = some VendorID.Intel then
    let updateTcsel :=
      (boot.bootArgs "alctcsel").getD ((lilu.read (w.registry hdef) "alctcsel").getD 0)
    if updateTcsel ≠ 0 then
      let w := w.act (.awaitPublishing hdef)
      if boot.isPCIDevice hdef then
        w.act (.configWrite8 hdef RegTCSEL (lilu.getBitField (boot.configRead8 hdef RegTCSEL) 7 3))
      else w
    else w
  else w

/-- Secondly, update the HDEF device and make it support digital audio. -/
def updateBuiltinAnalog (has : Bool) (w : World) : World :=
  if info.audioBuiltinAnalog && validateInjection w .audioBuiltinAnalog then
    let w := updateTcsel lilu boot w
    let hdaGfx := if has && !info.audioBuiltinDigital then some "onboard-1" else none
    updateDeviceProperties lilu boot info .audioBuiltinAnalog hdaGfx true w
  else w

/-- Thirdly, update the IGPU device in case we have digital audio. -/
def updateVideoBuiltin (has : Bool) (w : World) : World :=
  if has && validateInjection w .videoBuiltin then
    let w := w.setProperty .videoBuiltin "hda-gfx" (.data (cString "onboard-1"))
    if !info.audioBuiltinDigital then
      insertDigital lilu .videoBuiltin VendorID.Intel info.reportedFramebufferId w
    else w
  else w

/-- Disable the id of a registered NVIDIA audio function in the list if any. -/
def disableNvidiaId (alc : AlcEnabler) (dev : UInt32) : AlcEnabler :=
  let device := (dev <<< 16) ||| VendorID.NVIDIA
  { alc with nvidiaDeviceIdUsage := fun i =>
      alc.nvidiaDeviceIdUsage i
        || (decide (i < MaxNvidiaDeviceIds) && nvidiaDeviceIdList.getD i 0 == device) }

/-- Register the audio function of an external GPU. -/
def registerExternal (gpu : ℕ) (ven : UInt32) (w : World) : World :=
  let hdaService := Device.externalAudio gpu
  match lilu.read (w.registry hdaService) "device-id",
      lilu.read (w.registry hdaService) "revision-id" with
  | some dev, some rev =>
      let w := w.insertController hdaService ven dev rev
        (w.registry hdaService "no-controller-patch").isSome PlatformAny
      if ven = VendorID.NVIDIA then { w with alc := disableNvidiaId w.alc dev } else w
  | _, _ => w

/-- `snprintf(hdaGfx, 16, "onboard-%u", counter)`: fifteen characters and the terminator. -/
def onboardName (counter : UInt32) : String :=
  String.ofList (("onboard-" ++ toString counter.toNat).toList.take 15)

/-- The property name `@i,connector-type`. -/
def connectorType (i : ℕ) : String := "@" ++ toString i ++ ",connector-type"

def MaxConnectorCount : ℕ := 6

/-- Refresh connector types from connector `i` on, up to the first one that exists. -/
def fixConnectors (gpuService : Device) : (remaining i : ℕ) → World → World
  | 0, _, w => w
  | n + 1, i, w =>
      if (w.registry gpuService (connectorType i)).isNone then
        fixConnectors gpuService n (i + 1)
          (w.setProperty gpuService (connectorType i) (.data [0x00, 0x08, 0x00, 0x00]))
      else w

/-- Refresh connector types on NVIDIA, since they are required for HDMI audio to function. -/
def updateConnectors (gpu : ℕ) (ven : UInt32) (w : World) : World :=
  if ven = VendorID.NVIDIA ∧ (w.registry (.externalVideo gpu) "no-audio-fixconn").isNone then
    fixConnectors (.externalVideo gpu) MaxConnectorCount 0 w
  else w

/-- One iteration of the external GPU loop: the counter after it and the world after it. -/
def updateExternal (gpu : ℕ) (ext : ExternalVideo) (hdaGfxCounter : UInt32) (w : World) :
    UInt32 × World :=
  if !ext.audio || !validateInjection w (.externalAudio gpu) then (hdaGfxCounter, w)
  else
    let w := registerExternal lilu gpu ext.vendor w
    let hdaGfx := onboardName hdaGfxCounter
    let w := updateDeviceProperties lilu boot info (.externalAudio gpu) (some hdaGfx) false w
    let w := w.setProperty (.externalVideo gpu) "hda-gfx" (.data (cString hdaGfx))
    (hdaGfxCounter + 1, updateConnectors gpu ext.vendor w)

/-- Fourthly, update all the GPU devices if any. -/
def updateVideoExternal : (gpu : ℕ) → List ExternalVideo → UInt32 → World → World
  | _, [], _, w => w
  | gpu, ext :: exts, counter, w =>
      let next := updateExternal lilu boot info gpu ext counter w
      updateVideoExternal (gpu + 1) exts next.1 next.2

/-- The body of `updateProperties` on a non-null inventory. -/
def updateInventory (w : World) : World :=
  let has := hasBuiltinDigitalAudio info w
  let w := updateBuiltinDigital lilu boot info has w
  let w := updateBuiltinAnalog lilu boot info has w
  let w := updateVideoBuiltin lilu info has w
  updateVideoExternal lilu boot info 0 info.videoExternal (if has then 2 else 1) w

end Stages

def updateProperties (lilu : Lilu) (boot : Boot) (alc : AlcEnabler) : World :=
  let w : World := { registry := boot.registry, name := boot.name, alc := alc, effects := [] }
  match boot.devInfo with
  | none => w
  | some info => updateInventory lilu boot info w

end AppleALC
