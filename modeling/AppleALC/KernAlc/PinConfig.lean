import AppleALC.KernAlc.State

/-!
# The pin configuration hooks

`initializePinConfig` and `performPowerChange` are hooked into AppleHDA.  The first replaces the
`HDAConfigDefault` list of the config device by the one entry that belongs to the detected analog
codec, and marks the codec for reinitialisation when the entry asks for it; the second replays the
pin configuration of a marked codec after a sleep.

The originals behind the trampolines are closed code that may change the registry.  Each hook takes
what they do as a parameter, and returns which of them it called.

* `getAudioLayout` / `selectAnalog` — the layout that AppleHDA reports, and the detected analog
  codec;
* `findConfig` — the entry of a list that is for them;
* `initializePinConfig` / `performPowerChange` — the two hooks;
* `updateSleepStatus` — what the second does with a power change.
-/

namespace AppleALC

open PropertyStore

variable {ε : Type*} [DecidableEq ε]

/-- The service plane as the hooks see it: the ancestors of an entry, nearest first, and the
names. -/
structure ServicePlane (ε : Type*) where
  ancestors : ε → List ε
  name : ε → Option String

/-- A call of an original function. -/
inductive Original (ε : Type*) where
  | performPowerChange (hdaDriver : Option ε) (fromState toState : UInt32)
  | initializePinConfig (hdaCodec configDevice : Option ε)
  deriving DecidableEq

/-- What an original does to the registry. -/
abbrev RegistryChange (ε : Type*) := Registry ε → Registry ε

def getAudioLayout (lilu : Lilu) (plane : ServicePlane ε) (registry : Registry ε)
    (hdaDriver : ε) : UInt32 :=
  match (plane.ancestors hdaDriver).find? fun parent =>
      plane.name parent == some "HDEF" || plane.name parent == some "HDAU" with
  | some parent => (lilu.read (registry parent) "layout-id").getD 0
  | none => 0

/-- The codec loop of `initializePinConfig`: the id and the layout of the first codec whose
controller has a layout, both zero when there is none. -/
def selectAnalog (controllers : List ControllerInfo) : List CodecInfo → UInt32 × UInt32
  | [] => (0, 0)
  | ci :: cis =>
      match controllers[ci.controller]? with
      | some c => if c.layout > 0 then (ci.id, c.layout) else selectAnalog controllers cis
      | none => selectAnalog controllers cis

/-! ### Configuration entries -/

/-- A dictionary of an `HDAConfigDefault` entry. -/
abbrev ConfigEntry := List (String × OSObject)

/-- The entry belongs to this codec and this layout. -/
def ConfigEntry.isFor (config : ConfigEntry) (codec layout : UInt32) : Bool :=
  match (getObject "CodecID" config).bind OSObject.asNumber,
      (getObject "LayoutID" config).bind OSObject.asNumber with
  | some currCodec, some currLayout =>
      currCodec.toUInt32 == codec && currLayout.toUInt32 == layout
  | _, _ => false

/-- The entry the loop over the list stops at. -/
def findConfig (configList : List OSObject) (codec layout : UInt32) : Option ConfigEntry :=
  (configList.filterMap OSObject.asDictionary).find? fun config => config.isFor codec layout

def ConfigEntry.reinit (config : ConfigEntry) : Bool :=
  ((getObject "WakeVerbReinit" config).bind OSObject.asBoolean).getD false

/-- Actually fix the LayoutID number we hook in. -/
def ConfigEntry.withLayout (config : ConfigEntry) (layout : UInt32) : ConfigEntry :=
  setObject "LayoutID" (.number layout.toUInt64) config

/-- The copy `newConfig` of `config` for the codec: the wake configuration takes the place of the
boot one. -/
def ConfigEntry.forWake (config newConfig : ConfigEntry) : ConfigEntry :=
  match (getObject "WakeConfigData" config).bind OSObject.asData with
  | some wakeConfigData =>
      let newConfig := match (getObject "ConfigData" config).bind OSObject.asData with
        | some configData => setObject "BootConfigData" (.data configData) newConfig
        | none => newConfig
      removeObject "WakeConfigData" (setObject "ConfigData" (.data wakeConfigData) newConfig)
  | none => newConfig

def configListOf (config : ConfigEntry) : OSObject := .array [.dictionary config]

/-! ### The hooks -/

section Hooks

variable (lilu : Lilu) (plane : ServicePlane ε) (alc : AlcEnabler)

/-- The part of `initializePinConfig` behind the checks, for a matching entry. -/
def installConfig (hdaCodec configDevice : ε) (appleLayout : UInt32) (config : ConfigEntry)
    (registry : Registry ε) : Registry ε :=
  let newConfig := config.withLayout appleLayout
  -- Replace the config list with a new list to avoid multiple iterations
  let registry := set registry configDevice "HDAConfigDefault" (configListOf newConfig)
  if config.reinit then
    let registry := set registry hdaCodec "HDAConfigDefault" (configListOf (config.forWake newConfig))
    set registry hdaCodec "alc-pinconfig-status" (.boolean true)
  else registry

/-- The two status properties of a codec that is seen for the first time. -/
def resetStatus (hdaCodec : ε) (registry : Registry ε) : Registry ε :=
  set (set registry hdaCodec "alc-pinconfig-status" (.boolean false))
    hdaCodec "alc-sleep-status" (.boolean false)

/-- The body of `initializePinConfig` on a codec without status. -/
def configureCodec (hdaCodec configDevice : ε) (registry : Registry ε) : Registry ε :=
  let appleLayout := getAudioLayout lilu plane registry hdaCodec
  let analog := selectAnalog alc.controllers alc.codecs
  let registry := resetStatus hdaCodec registry
  if appleLayout ≠ 0 ∧ analog.1 ≠ 0 ∧ analog.2 ≠ 0 then
    match (registry configDevice "HDAConfigDefault").bind OSObject.asArray with
    | some configList =>
        match findConfig configList analog.1 analog.2 with
        | some config => installConfig hdaCodec configDevice appleLayout config registry
        | none => registry
    | none => registry
  else registry

/-- `initializePinConfig`: the registry after it, and the originals it called. -/
def initializePinConfig (original : RegistryChange ε) (hdaCodec configDevice : Option ε)
    (registry : Registry ε) : Registry ε × List (Original ε) :=
  let registry := match hdaCodec, configDevice with
    | some codec, some config =>
        if (registry codec "alc-pinconfig-status").isNone then
          configureCodec lilu plane alc codec config registry
        else registry
    | _, _ => registry
  (original registry, [.initializePinConfig hdaCodec configDevice])

def ALCAudioDeviceSleep : UInt32 := 0

def ALCAudioDeviceIdle : UInt32 := 1

def ALCAudioDeviceActive : UInt32 := 2

/-- The part of `performPowerChange` on the codec above the driver. -/
def updateSleepStatus (replay : RegistryChange ε) (hdaCodec : ε) (toState : UInt32)
    (registry : Registry ε) : Registry ε × List (Original ε) :=
  match (registry hdaCodec "alc-pinconfig-status").bind OSObject.asBoolean,
      (registry hdaCodec "alc-sleep-status").bind OSObject.asBoolean with
  | some pin, some sleep =>
      if pin then
        if toState = ALCAudioDeviceSleep then
          (set registry hdaCodec "alc-sleep-status" (.boolean true), [])
        else if sleep ∧ (toState = ALCAudioDeviceIdle ∨ toState = ALCAudioDeviceActive) then
          (set (replay registry) hdaCodec "alc-sleep-status" (.boolean false),
            [.initializePinConfig (some hdaCodec) (some hdaCodec)])
        else (registry, [])
      else (registry, [])
  | _, _ => (registry, [])

/-- `performPowerChange`: the registry after it, and the originals it called. -/
def performPowerChange (original replay : RegistryChange ε) (hdaDriver : Option ε)
    (fromState toState : UInt32) (registry : Registry ε) : Registry ε × List (Original ε) :=
  let registry := original registry
  match hdaDriver.bind fun driver => (plane.ancestors driver).head? with
  | some hdaCodec =>
      let r := updateSleepStatus replay hdaCodec toState registry
      (r.1, .performPowerChange hdaDriver fromState toState :: r.2)
  | none => (registry, [.performPowerChange hdaDriver fromState toState])

end Hooks

end AppleALC
