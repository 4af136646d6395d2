import AppleALC.KernAlc.Injection

/-!
# What the boot comes to

`updateProperties` goes through the inventory in four stages.  This module says what it leaves,
without the stages: the properties of every device, the name of every device and the state of the
plugin, as functions of the inventory and of the properties and names that the machine started with.
What Lilu does to `compatible` when it renames a device goes through unchanged.

The stages are connected to these functions one by one.  Each works on devices of its own, so what it
reads there is what the machine started with.  The loop over the external GPUs is an induction, in
which the GPUs still to come are as they were.

* `injection` — the amendments that are meant for each device;
* `renamedProperties` — its properties under the name that it gets;
* `SettledOn` — some devices are as they are meant to be, and the others as they were;
* `updateProperties_outcome` — the registry, the names and the plugin after the boot, all in closed
  form;
* `updateProperties_keeps_settings` — the settings of the machine survive it.
-/

namespace AppleALC

open PropertyStore

/-! ### Which device gets what -/

section Devices

variable (lilu : Lilu) (boot : Boot)

/-- The inventory; without one there are no devices. -/
def Boot.info : DeviceInfo := boot.devInfo.getD {}

/-- The device is not opted out. -/
def Boot.lets (d : Device) : Bool := (boot.registry d "no-controller-inject").isNone

/-- The IGPU has connectors, and the user does not object to digital audio. -/
def Boot.digitalAudio : Bool :=
  boot.info.videoBuiltin && !boot.info.reportedFramebufferIsConnectorLess &&
    !(boot.info.audioBuiltinAnalog && (boot.registry .audioBuiltinAnalog "No-hda-gfx").isSome)

/-- The number of the first external GPU. -/
def Boot.firstNumber : ℕ := if boot.digitalAudio then 2 else 1

/-- The processed external GPUs with their numbers. -/
def Boot.gpuNumbers : List (ℕ × ℕ) :=
  numbers boot.registry 0 boot.info.videoExternal boot.firstNumber

/-- The name with the number of an external GPU, when it is processed. -/
def Boot.gpuName (i : ℕ) : Option String :=
  (boot.gpuNumbers.lookup i).map fun n => onboardName (UInt32.ofNat n)

/-- The amendments of each device. -/
def injection (d : Device) : Amendments :=
  match d with
  | .audioBuiltinDigital =>
      if boot.info.audioBuiltinDigital && boot.lets d && boot.digitalAudio then
        audioInjection lilu boot boot.info false (some "onboard-1") (boot.registry d)
      else []
  | .audioBuiltinAnalog =>
      if boot.info.audioBuiltinAnalog && boot.lets d then
        audioInjection lilu boot boot.info true
          (if boot.digitalAudio && !boot.info.audioBuiltinDigital then some "onboard-1" else none)
          (boot.registry d)
      else []
  | .videoBuiltin =>
      if boot.digitalAudio && boot.lets d then gfxInjection (some "onboard-1") else []
  | .externalAudio i =>
      (boot.gpuName i).elim [] fun name =>
        audioInjection lilu boot boot.info false (some name) (boot.registry d)
  | .externalVideo i =>
      (boot.gpuName i).elim [] fun name =>
        gpuInjection ((boot.info.videoExternal[i]?).elim 0 (·.vendor)) name (boot.registry d)

/-- The name that a device is given, when it is an audio device that is worked on. -/
def planeName (d : Device) : Option String :=
  match d with
  | .audioBuiltinDigital =>
      if boot.info.audioBuiltinDigital && boot.lets d && boot.digitalAudio then some "HDAU" else none
  | .audioBuiltinAnalog =>
      if boot.info.audioBuiltinAnalog && boot.lets d then some "HDEF" else none
  | .externalAudio i => (boot.gpuName i).map fun _ => "HDAU"
  | .videoBuiltin | .externalVideo _ => none

/-- The properties of a device under the name that it is given. -/
def renamedProperties (d : Device) : Properties :=
  (planeName boot d).elim (boot.registry d) fun wanted =>
    renamed lilu wanted (boot.name d) (boot.registry d)

def injected (d : Device) : Properties :=
  amend (injection lilu boot d) (renamedProperties lilu boot d)

end Devices

/-! ### What the plugin registers -/

section Records

variable (lilu : Lilu) (boot : Boot)

/-- The record of the digital controller `d`, when its ids are readable.  `q` is its property table at
that moment. -/
def bootRecord (d : Device) (ven platform : UInt32) (q : Properties) : Option ControllerInfo :=
  match lilu.read (boot.registry d) "device-id", lilu.read (boot.registry d) "revision-id" with
  | some dev, some rev =>
      some { entry := ⟨d, q⟩, detect := none, vendor := ven, device := dev, revision := rev,
             platform := platform, layout := 0,
             nopatch := (boot.registry d "no-controller-patch").isSome }
  | _, _ => none

/-- The digital controller of the board: HDAU, or the IGPU when there is no HDAU. -/
def bootDigital : Option ControllerInfo :=
  let d := if boot.info.audioBuiltinDigital then Device.audioBuiltinDigital else .videoBuiltin
  if boot.digitalAudio && boot.lets d then
    bootRecord lilu boot d VendorID.Intel boot.info.reportedFramebufferId (injected lilu boot d)
  else none

/-- The audio functions of the external GPUs with these numbers. -/
def bootExternals (exts : ℕ → Option ExternalVideo) (numbers : List (ℕ × ℕ)) : List ControllerInfo :=
  numbers.filterMap fun x =>
    bootRecord lilu boot (.externalAudio x.1) ((exts x.1).elim 0 (·.vendor)) PlatformAny
      (boot.registry (.externalAudio x.1))

def bootControllers : List ControllerInfo :=
  (bootDigital lilu boot).toList ++
    bootExternals lilu boot (boot.info.videoExternal[·]?) boot.gpuNumbers

/-- The plugin with these controllers, and the device-ids of the NVIDIA ones among them marked. -/
def bootedAlc (table : List ControllerModInfo) (controllers : List ControllerInfo) : AlcEnabler where
  controllers := controllers
  controllerMod := table
  nvidiaDeviceIdUsage k := decide (k < MaxNvidiaDeviceIds) && controllers.any fun c =>
    c.vendor == VendorID.NVIDIA && nvidiaDeviceIdList.getD k 0 == nvidiaDevice c.device

end Records

/-! ### Names, and what is not touched -/

section Parts

variable (lilu : Lilu) (boot : Boot) (info : DeviceInfo) (d : Device) (w : World)

theorem setDefault_name (key : String) (bytes : List UInt8) :
    (w.setDefault d key bytes).name = w.name := by
  unfold World.setDefault
  split <;> rfl

theorem updateLayoutId_name : (updateLayoutId lilu boot info d w).name = w.name := by
  unfold updateLayoutId
  split
  · rfl
  · split
    · rfl
    · split
      · split <;> rfl
      · rfl

theorem reportLayoutId_name : (reportLayoutId info d w).name = w.name := by
  unfold reportLayoutId
  split <;> rfl

theorem passHdaGfx_name (hdaGfx : Option String) : (passHdaGfx d hdaGfx w).name = w.name := by
  cases hdaGfx <;> rfl

theorem fixPlaneName_name (isAnalog : Bool) : (fixPlaneName lilu d isAnalog w).name =
    Function.update w.name d (some (wantedName isAnalog)) := by
  unfold fixPlaneName wantedName
  generalize (if isAnalog then "HDEF" else "HDAU") = wanted
  simp only
  split
  · rfl
  · next hname =>
    rw [not_not] at hname
    rw [← hname, Function.update_eq_self]

theorem updateDeviceProperties_name (hdaGfx : Option String) (isAnalog : Bool) :
    (updateDeviceProperties lilu boot info d hdaGfx isAnalog w).name =
      Function.update w.name d (some (wantedName isAnalog)) := by
  unfold updateDeviceProperties
  simp only
  rw [setDefault_name, passHdaGfx_name, reportLayoutId_name, ← fixPlaneName_name lilu]
  cases isAnalog with
  | false => rfl
  | true =>
      simp only [if_true, updateAnalogProperties, setDefault_name]
      rw [updateLayoutId_name]

theorem fixConnectors_name (n : ℕ) : ∀ (i : ℕ) (w : World), (fixConnectors d n i w).name = w.name := by
  induction n with
  | zero => intro i w; rfl
  | succ n ih =>
      intro i w
      unfold fixConnectors
      split
      · exact ih _ _
      · rfl

theorem updateConnectors_name (gpu : ℕ) (ven : UInt32) :
    (updateConnectors gpu ven w).name = w.name := by
  unfold updateConnectors
  split
  · exact fixConnectors_name _ _ _ w
  · rfl

theorem updateDeviceProperties_alc (hdaGfx : Option String) (isAnalog : Bool) :
    (updateDeviceProperties lilu boot info d hdaGfx isAnalog w).alc = w.alc :=
  (updateDeviceProperties_acts lilu boot info d w not_isOptOut_audioKeys hdaGfx isAnalog).touches.alc

theorem updateConnectors_alc (gpu : ℕ) (ven : UInt32) : (updateConnectors gpu ven w).alc = w.alc :=
  (updateConnectors_acts w not_isOptOut_connectorType gpu ven).touches.alc

/-- Registering a digital controller appends its record to the list. -/
theorem insertDigital_eq (ven platform : UInt32) {q : Properties} (hq : w.registry d = q)
    (hkeys : ∀ key ∈ ["device-id", "revision-id", "no-controller-patch"],
      q key = boot.registry d key) :
    insertDigital lilu d ven platform w = { w with alc := { w.alc with controllers :=
      w.alc.controllers ++ (bootRecord lilu boot d ven platform q).toList } } := by
  subst hq
  have hread : ∀ key ∈ ["device-id", "revision-id", "no-controller-patch"],
      lilu.read (w.registry d) key = lilu.read (boot.registry d) key := by
    intro key hkey
    rw [Lilu.read, Lilu.read, hkeys key hkey]
  unfold insertDigital bootRecord
  rw [hread "device-id" (by decide), hread "revision-id" (by decide),
    hkeys "no-controller-patch" (by decide)]
  cases lilu.read (boot.registry d) "device-id" with
  | none => simp
  | some dev =>
      cases lilu.read (boot.registry d) "revision-id" with
      | none => simp
      | some rev => rfl

end Parts

/-! ### The names of what is amended -/

section Keys

variable (lilu : Lilu) (boot : Boot) (info : DeviceInfo)

theorem gfxInjection_keys (hdaGfx : Option String) :
    ∀ key ∈ (gfxInjection hdaGfx).map Prod.fst, key = "hda-gfx" := by
  cases hdaGfx <;> simp [gfxInjection]

theorem layoutInjection_keys (p : Properties) :
    ∀ key ∈ (layoutInjection info p).map Prod.fst, key = "layout-id" := by
  unfold layoutInjection
  split <;> simp

theorem audioInjection_keys (isAnalog : Bool) (hdaGfx : Option String) (p : Properties) :
    ∀ key ∈ (audioInjection lilu boot info isAnalog hdaGfx p).map Prod.fst, key ∈ audioKeys := by
  intro key hkey
  rw [audioInjection, List.map_append, List.map_append, List.map_append, List.mem_append,
    List.mem_append, List.mem_append] at hkey
  rcases hkey with ((hkey | hkey) | hkey) | hkey
  · cases isAnalog with
    | false => exact absurd hkey (by simp)
    | true => exact List.mem_append_left _ (analogInjection_keys lilu boot info p key hkey)
  · rw [layoutInjection_keys info p key hkey]
    decide
  · rw [gfxInjection_keys hdaGfx key hkey]
    decide
  · rw [List.map_singleton, List.mem_singleton] at hkey
    rw [hkey]
    decide

theorem gpuInjection_keys (ven : UInt32) (hdaGfx : String) (p : Properties) :
    ∀ key ∈ (gpuInjection ven hdaGfx p).map Prod.fst,
      key = "hda-gfx" ∨ ∃ i, key = connectorType i := by
  intro key hkey
  rw [gpuInjection, List.map_append, List.mem_append] at hkey
  rcases hkey with hkey | hkey
  · exact Or.inl (gfxInjection_keys _ key hkey)
  · split at hkey
    · rw [connectorInjection_names] at hkey
      obtain ⟨i, -, rfl⟩ := List.mem_map.mp (List.takeWhile_prefix _ |>.mem hkey)
      exact Or.inr ⟨i, rfl⟩
    · exact absurd hkey (by simp)

/-- What a device is given is among a few names. -/
theorem injection_keys (d : Device) : ∀ key ∈ (injection lilu boot d).map Prod.fst,
    key ∈ audioKeys ∨ ∃ i, key = connectorType i := by
  intro key hkey
  cases d with
  | audioBuiltinDigital =>
      rw [injection] at hkey
      split at hkey
      · exact Or.inl (audioInjection_keys _ _ _ _ _ _ key hkey)
      · exact absurd hkey (by simp)
  | audioBuiltinAnalog =>
      rw [injection] at hkey
      split at hkey
      · exact Or.inl (audioInjection_keys _ _ _ _ _ _ key hkey)
      · exact absurd hkey (by simp)
  | videoBuiltin =>
      rw [injection] at hkey
      split at hkey
      · rw [gfxInjection_keys _ key hkey]
        exact Or.inl (by decide)
      · exact absurd hkey (by simp)
  | externalAudio i =>
      rw [injection] at hkey
      cases hname : boot.gpuName i with
      | none => rw [hname] at hkey; exact absurd hkey (by simp)
      | some name =>
          rw [hname] at hkey
          exact Or.inl (audioInjection_keys _ _ _ _ _ _ key hkey)
  | externalVideo i =>
      rw [injection] at hkey
      cases hname : boot.gpuName i with
      | none => rw [hname] at hkey; exact absurd hkey (by simp)
      | some name =>
          rw [hname] at hkey
          rcases gpuInjection_keys _ _ _ key hkey with rfl | hconnector
          · exact Or.inl (by decide)
          · exact Or.inr hconnector

theorem renamedProperties_of_ne (d : Device) {key : String} (h : key ≠ "compatible") :
    renamedProperties lilu boot d key = boot.registry d key := by
  unfold renamedProperties
  cases planeName boot d with
  | none => rfl
  | some wanted => exact renamed_of_ne lilu h wanted _ _

/-- Any other property is kept. -/
theorem injected_keeps (d : Device) {key : String} (haudio : key ∉ audioKeys)
    (hhead : key.toList.head? ≠ some '@') :
    injected lilu boot d key = boot.registry d key := by
  have hcompatible : key ≠ "compatible" := fun heq => haudio (by rw [heq]; decide)
  rw [injected, amend_of_not_mem, renamedProperties_of_ne lilu boot d hcompatible]
  intro hmem
  rcases injection_keys lilu boot d key hmem with hkey | ⟨i, rfl⟩
  · exact haudio hkey
  · exact hhead (connectorType_head i)

end Keys

/-! ### The stages -/

/-- The devices `S` are as they will be, the others as they were, and these controllers are
registered. -/
structure SettledOn (lilu : Lilu) (boot : Boot) (table : List ControllerModInfo)
    (S : Device → Prop) (controllers : List ControllerInfo) (w : World) : Prop where
  registry : ∀ d, S d → w.registry d = injected lilu boot d
  name : ∀ d, S d → w.name d = (planeName boot d).or (boot.name d)
  registry_todo : ∀ d, ¬S d → w.registry d = boot.registry d
  name_todo : ∀ d, ¬S d → w.name d = boot.name d
  alc : w.alc = bootedAlc table controllers

section Stages

variable {lilu : Lilu} {boot : Boot} {table : List ControllerModInfo}
variable {S : Device → Prop} {controllers : List ControllerInfo} {w w' : World}

theorem settledOn_start (lilu : Lilu) (boot : Boot) (table : List ControllerModInfo)
    (effects : List Effect) : SettledOn lilu boot table (fun _ => False) []
      { registry := boot.registry, name := boot.name, alc := { controllerMod := table },
        effects := effects } where
  registry _ h := h.elim
  name _ h := h.elim
  registry_todo _ _ := rfl
  name_todo _ _ := rfl
  alc := by simp [bootedAlc]

/-- Work on one more device. -/
theorem SettledOn.work (h : SettledOn lilu boot table S controllers w) {d : Device} (hd : ¬S d)
    (w' : World)
    (hregistry : w'.registry = Function.update w.registry d (injected lilu boot d))
    (hname : w'.name = Function.update w.name d ((planeName boot d).or (w.name d)))
    (halc : w'.alc = w.alc) :
    SettledOn lilu boot table (fun d' => S d' ∨ d' = d) controllers w' := by
  refine { registry := ?_, name := ?_, registry_todo := ?_, name_todo := ?_, alc := halc.trans h.alc }
  · intro d' hd'
    by_cases heq : d' = d
    · rw [heq, hregistry, Function.update_self]
    · rw [hregistry, Function.update_of_ne heq, h.registry d' (hd'.resolve_right heq)]
  · intro d' hd'
    by_cases heq : d' = d
    · rw [heq, hname, Function.update_self, h.name_todo d hd]
    · rw [hname, Function.update_of_ne heq, h.name d' (hd'.resolve_right heq)]
  · intro d' hd'
    rw [not_or] at hd'
    rw [hregistry, Function.update_of_ne hd'.2, h.registry_todo d' hd'.1]
  · intro d' hd'
    rw [not_or] at hd'
    rw [hname, Function.update_of_ne hd'.2, h.name_todo d' hd'.1]

/-- Register more controllers. -/
theorem SettledOn.register (h : SettledOn lilu boot table S controllers w)
    {controllers' : List ControllerInfo} (hregistry : w'.registry = w.registry)
    (hname : w'.name = w.name) (halc : w'.alc = bootedAlc table controllers') :
    SettledOn lilu boot table S controllers' w' where
  registry d hd := by rw [hregistry, h.registry d hd]
  name d hd := by rw [hname, h.name d hd]
  registry_todo d hd := by rw [hregistry, h.registry_todo d hd]
  name_todo d hd := by rw [hname, h.name_todo d hd]
  alc := halc

/-- The same devices, said in another way; devices that nothing is done to count as done. -/
theorem SettledOn.congr (h : SettledOn lilu boot table S controllers w) {S' : Device → Prop}
    (hsub : ∀ d, S d → S' d)
    (hmore : ∀ d, S' d → ¬S d → injection lilu boot d = [] ∧ planeName boot d = none) :
    SettledOn lilu boot table S' controllers w where
  registry d hd := by
    by_cases hS : S d
    · exact h.registry d hS
    · rw [h.registry_todo d hS, injected, renamedProperties, (hmore d hd hS).1, (hmore d hd hS).2,
        amend_nil, Option.elim_none]
  name d hd := by
    by_cases hS : S d
    · exact h.name d hS
    · rw [h.name_todo d hS, (hmore d hd hS).2, Option.none_or]
  registry_todo d hd := h.registry_todo d fun hS => hd (hsub d hS)
  name_todo d hd := h.name_todo d fun hS => hd (hsub d hS)
  alc := h.alc

/-- What is asked of a device that is still to be worked on. -/
theorem SettledOn.validate (h : SettledOn lilu boot table S controllers w) {d : Device} (hd : ¬S d) :
    validateInjection w d = boot.lets d := by
  rw [validateInjection, h.registry_todo d hd, Boot.lets]

/-- An Intel controller marks no device-id. -/
theorem bootedAlc_insert {c : ControllerInfo} (hven : c.vendor ≠ VendorID.NVIDIA) :
    { bootedAlc table controllers with controllers := controllers ++ [c] } =
      bootedAlc table (controllers ++ [c]) := by
  have hc : (c.vendor == VendorID.NVIDIA) = false := beq_eq_false_iff_ne.mpr hven
  simp [bootedAlc, hc]

theorem bootRecord_vendor {d : Device} {ven platform : UInt32} {q : Properties} {c : ControllerInfo}
    (h : bootRecord lilu boot d ven platform q = some c) : c.vendor = ven := by
  unfold bootRecord at h
  split at h
  · rw [← Option.some.inj h]
  · exact absurd h (by simp)

/-- Registering an Intel controller, in the state of the plugin. -/
theorem SettledOn.insertDigital (h : SettledOn lilu boot table S controllers w) {d : Device}
    (hd : S d) (platform : UInt32) :
    SettledOn lilu boot table S (controllers ++ (bootRecord lilu boot d VendorID.Intel platform
        (injected lilu boot d)).toList)
      (insertDigital lilu d VendorID.Intel platform w) := by
  rw [insertDigital_eq lilu boot d w VendorID.Intel platform (h.registry d hd)
    (fun key hkey => by
      have hkeys : key ∉ audioKeys ∧ key.toList.head? ≠ some '@' := by
        revert key
        decide
      exact injected_keeps lilu boot d hkeys.1 hkeys.2)]
  refine h.register rfl rfl ?_
  simp only [h.alc]
  cases hrecord : bootRecord lilu boot d VendorID.Intel platform (injected lilu boot d) with
  | none => rw [Option.toList_none, List.append_nil, List.append_nil]
  | some c =>
      refine bootedAlc_insert ?_
      rw [bootRecord_vendor hrecord]
      decide

theorem hasBuiltinDigitalAudio_eq (h : w.registry .audioBuiltinAnalog = boot.registry .audioBuiltinAnalog) :
    hasBuiltinDigitalAudio boot.info w = boot.digitalAudio := by
  unfold hasBuiltinDigitalAudio Boot.digitalAudio
  rw [h]
  cases boot.info.reportedFramebufferIsConnectorLess <;> cases boot.info.videoBuiltin <;>
    cases boot.info.audioBuiltinAnalog <;>
    cases (boot.registry .audioBuiltinAnalog "No-hda-gfx").isSome <;> rfl

theorem terminateDigital_name (boot : Boot) (w : World) : (terminateDigital boot w).name = w.name := by
  unfold terminateDigital
  simp only
  split
  · split
    · split <;> rfl
    · rfl
  · rfl

theorem updateTcsel_name (lilu : Lilu) (boot : Boot) (w : World) :
    (updateTcsel lilu boot w).name = w.name := by
  unfold updateTcsel
  simp only
  split
  · split
    · split <;> rfl
    · rfl
  · rfl

/-- HDAU. -/
theorem SettledOn.updateBuiltinDigital (h : SettledOn lilu boot table (fun _ => False) [] w) :
    SettledOn lilu boot table (fun d => d = .audioBuiltinDigital)
      (if boot.info.audioBuiltinDigital then (bootDigital lilu boot).toList else [])
      (updateBuiltinDigital lilu boot boot.info boot.digitalAudio w) := by
  have hnone : (boot.info.audioBuiltinDigital && boot.lets .audioBuiltinDigital &&
      boot.digitalAudio) = false → ∀ d, d = .audioBuiltinDigital → ¬False →
        injection lilu boot d = [] ∧ planeName boot d = none := by
    rintro hno d rfl -
    rw [injection, planeName]
    simp only [hno]
    exact ⟨rfl, rfl⟩
  unfold AppleALC.updateBuiltinDigital
  rw [h.validate not_false]
  by_cases hguard : (boot.info.audioBuiltinDigital && boot.lets .audioBuiltinDigital) = true
  · rw [if_pos hguard]
    rw [Bool.and_eq_true] at hguard
    rw [if_pos hguard.1]
    split
    · next hhas =>
      have hinjection : injection lilu boot .audioBuiltinDigital =
          audioInjection lilu boot boot.info false (some "onboard-1")
            (boot.registry .audioBuiltinDigital) := by
        rw [injection]
        simp only [hguard.1, hguard.2, hhas, Bool.and_self, if_true]
      have hplane : planeName boot .audioBuiltinDigital = some "HDAU" := by
        rw [planeName]
        simp only [hguard.1, hguard.2, hhas, Bool.and_self, if_true]
      have hdigital : bootDigital lilu boot = bootRecord lilu boot .audioBuiltinDigital
          VendorID.Intel boot.info.reportedFramebufferId
          (injected lilu boot .audioBuiltinDigital) := by
        unfold bootDigital
        simp only [hguard.1, hguard.2, hhas, Bool.and_self, if_true]
      have hwork := h.work (d := .audioBuiltinDigital) not_false
        (updateDeviceProperties lilu boot boot.info .audioBuiltinDigital (some "onboard-1")
          false w)
        (by rw [updateDeviceProperties_registry, h.registry_todo _ not_false,
              h.name_todo _ not_false, injected, renamedProperties, hinjection, hplane]; rfl)
        (by rw [updateDeviceProperties_name, hplane]; rfl)
        (updateDeviceProperties_alc lilu boot boot.info _ w _ _)
      rw [hdigital]
      refine (hwork.insertDigital (Or.inr rfl) _).congr (fun d hd => hd.resolve_left id) ?_
      intro d hd hno
      exact absurd (Or.inr hd) hno
    · next hhas =>
      have hdigital : bootDigital lilu boot = none := by
        unfold bootDigital
        simp [hhas]
      rw [hdigital]
      have hterminate : SettledOn lilu boot table (fun _ => False) []
          (terminateDigital boot w) :=
        h.register (Acts.registry (terminateDigital_acts boot w)) (terminateDigital_name boot w)
          ((Acts.touches (terminateDigital_acts boot w)).alc.trans h.alc)
      exact hterminate.congr (fun d hd => hd.elim) (hnone (by simp [hhas]))
  · rw [if_neg hguard]
    rw [Bool.not_eq_true] at hguard
    have hlist : (if boot.info.audioBuiltinDigital then (bootDigital lilu boot).toList else []) = [] := by
      split
      · next hdev =>
        have hlets : boot.lets .audioBuiltinDigital = false := by
          rwa [hdev, Bool.true_and] at hguard
        unfold bootDigital
        simp [hdev, hlets]
      · rfl
    rw [hlist]
    exact h.congr (fun d hd => hd.elim) (hnone (by rw [hguard, Bool.false_and]))

/-- HDEF. -/
theorem SettledOn.updateBuiltinAnalog (h : SettledOn lilu boot table S controllers w)
    (hS : ¬S .audioBuiltinAnalog) :
    SettledOn lilu boot table (fun d => S d ∨ d = .audioBuiltinAnalog) controllers
      (updateBuiltinAnalog lilu boot boot.info boot.digitalAudio w) := by
  unfold AppleALC.updateBuiltinAnalog
  rw [h.validate hS]
  split
  · next hguard =>
    have hregistry : (updateTcsel lilu boot w).registry = w.registry :=
      Acts.registry (updateTcsel_acts lilu boot w)
    refine h.work hS _ ?_ ?_ ?_
    · rw [updateDeviceProperties_registry, hregistry, updateTcsel_name, h.registry_todo _ hS,
        h.name_todo _ hS, injected, renamedProperties, injection, planeName]
      simp only [hguard, if_true, Option.elim_some]
      rfl
    · rw [updateDeviceProperties_name, updateTcsel_name, planeName]
      simp only [hguard, if_true, Option.some_or]
      rfl
    · rw [updateDeviceProperties_alc]
      exact (Acts.touches (updateTcsel_acts lilu boot w)).alc
  · next hguard =>
    refine h.congr (fun d hd => Or.inl hd) ?_
    rintro d hd hno
    obtain rfl := hd.resolve_left hno
    rw [injection, planeName]
    simp only [Bool.not_eq_true] at hguard
    simp [hguard]

/-- The IGPU. -/
theorem SettledOn.updateVideoBuiltin (h : SettledOn lilu boot table S
      (if boot.info.audioBuiltinDigital then (bootDigital lilu boot).toList else []) w)
    (hS : ¬S .videoBuiltin) :
    SettledOn lilu boot table (fun d => S d ∨ d = .videoBuiltin) (bootDigital lilu boot).toList
      (updateVideoBuiltin lilu boot.info boot.digitalAudio w) := by
  unfold AppleALC.updateVideoBuiltin
  rw [h.validate hS]
  split
  · next hguard =>
    have hinjection : injection lilu boot .videoBuiltin = gfxInjection (some "onboard-1") := by
      rw [injection]
      simp only [hguard, if_true]
    have hwork := h.work hS (w.setProperty .videoBuiltin "hda-gfx" (.data (cString "onboard-1")))
      (by rw [setProperty_registry, amendAt, h.registry_todo _ hS, injected, hinjection]; rfl)
      (by rw [planeName, Option.none_or, Function.update_eq_self]; rfl) rfl
    simp only
    split
    · next hdev =>
      rw [Bool.not_eq_true'] at hdev
      have hdigital : bootDigital lilu boot = bootRecord lilu boot .videoBuiltin
          VendorID.Intel boot.info.reportedFramebufferId
          (injected lilu boot .videoBuiltin) := by
        unfold bootDigital
        simp only [hdev, Bool.false_eq_true, if_false, hguard, if_true]
      have hregistered := hwork.insertDigital (Or.inr rfl) boot.info.reportedFramebufferId
      rw [if_neg (by rw [hdev]; decide), List.nil_append, ← hdigital] at hregistered
      exact hregistered
    · next hdev =>
      rw [Bool.not_eq_true', Bool.not_eq_false] at hdev
      rw [if_pos hdev] at hwork
      exact hwork
  · next hguard =>
    rw [Bool.not_eq_true] at hguard
    have hlist : (if boot.info.audioBuiltinDigital then (bootDigital lilu boot).toList else []) =
        (bootDigital lilu boot).toList := by
      split
      · rfl
      · next hdev =>
        unfold bootDigital
        simp [hdev, hguard]
    rw [hlist] at h
    refine h.congr (fun d hd => Or.inl hd) ?_
    rintro d hd hno
    obtain rfl := hd.resolve_left hno
    rw [injection, planeName]
    simp [hguard]

end Stages

/-! ### The external GPUs -/

section Externals

/-- The numbers of a list in two parts. -/
theorem numbers_append (registry : Registry Device) (xs ys : List ExternalVideo) : ∀ (gpu n : ℕ),
    numbers registry gpu (xs ++ ys) n = numbers registry gpu xs n ++
      numbers registry (gpu + xs.length) ys (n + (numbers registry gpu xs n).length) := by
  induction xs with
  | nil => intro gpu n; rfl
  | cons x xs ih =>
      intro gpu n
      rw [List.cons_append, numbers, numbers]
      split
      · rw [ih, List.cons_append, List.length_cons, List.length_cons]
        rw [show gpu + 1 + xs.length = gpu + (xs.length + 1) by omega, Nat.add_right_comm n 1,
          Nat.add_assoc n]
      · rw [ih, List.length_cons, show gpu + 1 + xs.length = gpu + (xs.length + 1) by omega]

theorem numbers_lt (registry : Registry Device) (xs : List ExternalVideo) : ∀ {gpu n : ℕ},
    ∀ x ∈ numbers registry gpu xs n, x.1 < gpu + xs.length := by
  induction xs with
  | nil => intro gpu n x hx; exact absurd hx (by simp [numbers])
  | cons y xs ih =>
      intro gpu n x hx
      rw [numbers] at hx
      rw [List.length_cons]
      split at hx
      · rcases List.mem_cons.mp hx with rfl | hx
        · simp only
          omega
        · have hlt := ih x hx
          omega
      · have hlt := ih x hx
        omega

/-- A GPU outside the list has no number. -/
theorem lookup_numbers_none {registry : Registry Device} {xs : List ExternalVideo} {gpu n i : ℕ}
    (h : i < gpu ∨ gpu + xs.length ≤ i) : (numbers registry gpu xs n).lookup i = none := by
  rw [List.lookup_eq_none_iff]
  intro x hx
  rw [bne_iff_ne]
  have hlt := numbers_lt registry xs x hx
  have hge := (numbers_bounds xs x hx).1
  omega

variable {lilu : Lilu} {boot : Boot} {table : List ControllerModInfo}
variable {controllers : List ControllerInfo} {w : World}

/-- The number after those of the GPUs `pre`. -/
def Boot.nextNumber (boot : Boot) (pre : List ExternalVideo) : ℕ :=
  boot.firstNumber + (numbers boot.registry 0 pre boot.firstNumber).length

/-- The number of the GPU that comes after `pre`. -/
theorem lookup_gpuNumbers {pre suf : List ExternalVideo} {ext : ExternalVideo}
    (h : boot.info.videoExternal = pre ++ ext :: suf) :
    boot.gpuNumbers.lookup pre.length =
      if Processed boot.registry pre.length ext then some (boot.nextNumber pre) else none := by
  rw [Boot.gpuNumbers, h, numbers_append, List.lookup_append,
    lookup_numbers_none (Or.inr (by rw [Nat.zero_add])), Option.none_or, numbers, Nat.zero_add]
  split
  · rw [List.lookup_cons_self]
    rfl
  · exact lookup_numbers_none (Or.inl (Nat.lt_succ_self _))

/-- The number of the GPU after the next one. -/
theorem nextNumber_append (pre : List ExternalVideo) (ext : ExternalVideo) :
    boot.nextNumber (pre ++ [ext]) = if Processed boot.registry pre.length ext then
      boot.nextNumber pre + 1 else boot.nextNumber pre := by
  unfold Boot.nextNumber
  rw [numbers_append, List.length_append, Nat.zero_add, numbers, numbers]
  split <;> rfl

/-- Everything but the external GPUs from `gpu` on. -/
def DoneBefore (gpu : ℕ) : Device → Prop
  | .externalAudio i | .externalVideo i => i < gpu
  | .audioBuiltinAnalog | .audioBuiltinDigital | .videoBuiltin => True

/-- With the next GPU, its audio function and the GPU itself are done. -/
theorem doneBefore_succ {gpu : ℕ} {d : Device} :
    DoneBefore (gpu + 1) d ↔
      (DoneBefore gpu d ∨ d = .externalAudio gpu) ∨ d = .externalVideo gpu := by
  cases d with
  | externalAudio i =>
      simp only [DoneBefore, Device.externalAudio.injEq, reduceCtorEq, or_false]
      omega
  | externalVideo i =>
      simp only [DoneBefore, Device.externalVideo.injEq, reduceCtorEq, or_false]
      omega
  | _ => simp [DoneBefore]

/-- A GPU without a number is left alone, with its audio function. -/
theorem injection_of_gpuName_none (lilu : Lilu) {i : ℕ} (h : boot.gpuName i = none) {d : Device}
    (hd : d = .externalAudio i ∨ d = .externalVideo i) :
    injection lilu boot d = [] ∧ planeName boot d = none := by
  rcases hd with rfl | rfl
  · rw [injection, planeName, h]
    exact ⟨rfl, rfl⟩
  · rw [injection, planeName, h]
    exact ⟨rfl, rfl⟩

/-- Registering an audio function, in the state of the plugin. -/
theorem registerExternal_alc (gpu : ℕ) (ven : UInt32)
    (hregistry : w.registry (.externalAudio gpu) = boot.registry (.externalAudio gpu))
    (halc : w.alc = bootedAlc table controllers) :
    (registerExternal lilu gpu ven w).alc = bootedAlc table (controllers ++
      (bootRecord lilu boot (.externalAudio gpu) ven PlatformAny
        (boot.registry (.externalAudio gpu))).toList) := by
  unfold registerExternal bootRecord
  simp only [hregistry]
  cases lilu.read (boot.registry (.externalAudio gpu)) "device-id" with
  | none => simp [halc]
  | some dev =>
      cases lilu.read (boot.registry (.externalAudio gpu)) "revision-id" with
      | none => simp [halc]
      | some rev =>
          have hinsert : (w.insertController (.externalAudio gpu) ven dev rev
              (boot.registry (.externalAudio gpu) "no-controller-patch").isSome PlatformAny).alc =
              { bootedAlc table controllers with controllers := controllers ++
                  [{ entry := ⟨.externalAudio gpu, boot.registry (.externalAudio gpu)⟩
                     detect := none, vendor := ven, device := dev, revision := rev
                     platform := PlatformAny, layout := 0
                     nopatch :=
                       (boot.registry (.externalAudio gpu) "no-controller-patch").isSome }] } := by
            rw [World.insertController, halc, hregistry]
            rfl
          simp only [Option.toList_some]
          split
          · next hven =>
            rw [disableNvidiaId, hinsert, bootedAlc, bootedAlc, AlcEnabler.mk.injEq]
            refine ⟨rfl, rfl, rfl, rfl, ?_, rfl, rfl⟩
            funext k
            simp only [List.any_append, List.any_cons, List.any_nil, Bool.or_false, hven,
              beq_self_eq_true, Bool.true_and, nvidiaDevice, Bool.and_or_distrib_left]
          · next hven => exact hinsert.trans (bootedAlc_insert hven)

theorem registerExternal_registry (lilu : Lilu) (gpu : ℕ) (ven : UInt32) (w : World) :
    (registerExternal lilu gpu ven w).registry = w.registry ∧
      (registerExternal lilu gpu ven w).name = w.name := by
  unfold registerExternal
  simp only
  split
  · split <;> exact ⟨rfl, rfl⟩
  · exact ⟨rfl, rfl⟩

/-- The GPU itself, after its audio function. -/
theorem updateVideo_registry (gpu : ℕ) (ven : UInt32) (name : String) (w : World) :
    (updateConnectors gpu ven
        (w.setProperty (.externalVideo gpu) "hda-gfx" (.data (cString name)))).registry =
      amendAt w.registry (.externalVideo gpu)
        (gpuInjection ven name (w.registry (.externalVideo gpu))) := by
  have hkept : ∀ {key : String}, key ≠ "hda-gfx" →
      (w.setProperty (.externalVideo gpu) "hda-gfx" (.data (cString name))).registry
        (.externalVideo gpu) key = w.registry (.externalVideo gpu) key :=
    fun hkey => set_of_ne_key _ _ _ hkey _
  have hconnectors := connectorInjection_congr MaxConnectorCount (i := 0)
    fun j _ => hkept (connectorType_ne_hdaGfx j)
  rw [updateConnectors_registry, hkept (show "no-audio-fixconn" ≠ "hda-gfx" by decide), hconnectors,
    setProperty_registry, ← amendAt_append]
  rfl

/-- A GPU with a number: its audio function is registered and updated, then the GPU. -/
theorem SettledOn.updateNumbered {gpu : ℕ} {ext : ExternalVideo} {name : String}
    (hext : boot.info.videoExternal[gpu]? = some ext) (hname : boot.gpuName gpu = some name)
    (h : SettledOn lilu boot table (DoneBefore gpu) controllers w) :
    SettledOn lilu boot table (DoneBefore (gpu + 1)) (controllers ++
        (bootRecord lilu boot (.externalAudio gpu) ext.vendor PlatformAny
          (boot.registry (.externalAudio gpu))).toList)
      (updateConnectors gpu ext.vendor
        ((updateDeviceProperties lilu boot boot.info (.externalAudio gpu) (some name) false
          (registerExternal lilu gpu ext.vendor w)).setProperty (.externalVideo gpu) "hda-gfx"
          (.data (cString name)))) := by
  have haudio : ¬DoneBefore gpu (.externalAudio gpu) := Nat.lt_irrefl gpu
  have hvideo : ¬(DoneBefore gpu (.externalVideo gpu) ∨
      Device.externalVideo gpu = .externalAudio gpu) := by
    rintro (hlt | heq)
    · exact Nat.lt_irrefl gpu hlt
    · exact absurd heq (by simp)
  obtain ⟨hregistry, hnames⟩ := registerExternal_registry lilu gpu ext.vendor w
  have h₁ := h.register hregistry hnames
    (registerExternal_alc gpu ext.vendor (h.registry_todo _ haudio) h.alc)
  have h₂ := h₁.work haudio
    (updateDeviceProperties lilu boot boot.info (.externalAudio gpu) (some name) false
      (registerExternal lilu gpu ext.vendor w))
    (by rw [updateDeviceProperties_registry, h₁.registry_todo _ haudio, h₁.name_todo _ haudio,
          injected, renamedProperties, injection, planeName, hname]; rfl)
    (by rw [updateDeviceProperties_name, planeName, hname]; rfl)
    (updateDeviceProperties_alc lilu boot boot.info _ _ _ _)
  have h₃ := h₂.work hvideo (updateConnectors gpu ext.vendor
      ((updateDeviceProperties lilu boot boot.info (.externalAudio gpu) (some name) false
        (registerExternal lilu gpu ext.vendor w)).setProperty (.externalVideo gpu) "hda-gfx"
        (.data (cString name))))
    (by rw [updateVideo_registry, amendAt, h₂.registry_todo _ hvideo, injected, injection, hname,
          hext]; rfl)
    (by rw [updateConnectors_name, planeName, Option.none_or, Function.update_eq_self]; rfl)
    (updateConnectors_alc _ _ _)
  exact h₃.congr (fun d hd => doneBefore_succ.mpr hd)
    (fun d hd hno => absurd (doneBefore_succ.mp hd) hno)

/-- **One iteration of the loop**: the GPU after `pre`. -/
theorem SettledOn.updateExternal {pre suf : List ExternalVideo} {ext : ExternalVideo}
    (hexts : boot.info.videoExternal = pre ++ ext :: suf)
    (h : SettledOn lilu boot table (DoneBefore pre.length) controllers w) :
    let next := updateExternal lilu boot boot.info pre.length ext (UInt32.ofNat (boot.nextNumber pre)) w
    next.1 = UInt32.ofNat (boot.nextNumber (pre ++ [ext])) ∧
      SettledOn lilu boot table (DoneBefore (pre ++ [ext]).length) (controllers ++
        bootExternals lilu boot (boot.info.videoExternal[·]?)
          (if Processed boot.registry pre.length ext then [(pre.length, boot.nextNumber pre)] else []))
        next.2 := by
  have hguard : (!ext.audio || !validateInjection w (.externalAudio pre.length)) = true ↔
      ¬Processed boot.registry pre.length ext := by
    rw [h.validate (Nat.lt_irrefl _), Processed, Boot.lets]
    cases ext.audio <;> simp [Option.isSome_iff_ne_none]
  have hext : boot.info.videoExternal[pre.length]? = some ext := by
    rw [hexts]
    simp
  have hname : boot.gpuName pre.length = if Processed boot.registry pre.length ext then
      some (onboardName (UInt32.ofNat (boot.nextNumber pre))) else none := by
    rw [Boot.gpuName, lookup_gpuNumbers hexts]
    split <;> rfl
  rw [nextNumber_append, List.length_append, List.length_singleton]
  unfold AppleALC.updateExternal
  by_cases hprocessed : Processed boot.registry pre.length ext
  · rw [if_pos hprocessed] at hname
    have hrecords : bootExternals lilu boot (boot.info.videoExternal[·]?)
        [(pre.length, boot.nextNumber pre)] = (bootRecord lilu boot (.externalAudio pre.length)
          ext.vendor PlatformAny (boot.registry (.externalAudio pre.length))).toList := by
      rw [bootExternals, List.filterMap_cons, List.filterMap_nil]
      simp only [hext, Option.elim_some]
      cases bootRecord lilu boot (.externalAudio pre.length) ext.vendor PlatformAny
        (boot.registry (.externalAudio pre.length)) <;> rfl
    rw [if_neg (fun hg => hguard.mp hg hprocessed), if_pos hprocessed, if_pos hprocessed, hrecords]
    exact ⟨(UInt32.ofNat_add _ 1).symm, h.updateNumbered hext hname⟩
  · rw [if_neg hprocessed] at hname
    rw [if_pos (hguard.mpr hprocessed), if_neg hprocessed, if_neg hprocessed, bootExternals,
      List.filterMap_nil, List.append_nil]
    refine ⟨rfl, h.congr (fun d hd => doneBefore_succ.mpr (Or.inl (Or.inl hd))) ?_⟩
    intro d hd hno
    rw [doneBefore_succ, or_assoc] at hd
    exact injection_of_gpuName_none lilu hname (hd.resolve_left hno)

theorem bootExternals_append (exts : ℕ → Option ExternalVideo) (xs ys : List (ℕ × ℕ)) :
    bootExternals lilu boot exts (xs ++ ys) =
      bootExternals lilu boot exts xs ++ bootExternals lilu boot exts ys :=
  List.filterMap_append

/-- **The whole loop**, from the GPU after `pre` on. -/
theorem SettledOn.updateVideoExternal (suf : List ExternalVideo) : ∀ (pre : List ExternalVideo)
    {w : World}, boot.info.videoExternal = pre ++ suf →
      SettledOn lilu boot table (DoneBefore pre.length) ((bootDigital lilu boot).toList ++
        bootExternals lilu boot (boot.info.videoExternal[·]?)
          (numbers boot.registry 0 pre boot.firstNumber)) w →
      SettledOn lilu boot table (DoneBefore boot.info.videoExternal.length)
        (bootControllers lilu boot)
        (updateVideoExternal lilu boot boot.info pre.length suf
          (UInt32.ofNat (boot.nextNumber pre)) w) := by
  induction suf with
  | nil =>
      intro pre w hexts h
      rw [List.append_nil] at hexts
      rw [bootControllers, Boot.gpuNumbers, hexts]
      rw [hexts] at h
      exact h
  | cons ext suf ih =>
      intro pre w hexts h
      obtain ⟨hcounter, hnext⟩ := SettledOn.updateExternal hexts h
      rw [AppleALC.updateVideoExternal]
      simp only [hcounter]
      have hlength : pre.length + 1 = (pre ++ [ext]).length := by
        rw [List.length_append, List.length_singleton]
      rw [hlength]
      refine ih (pre ++ [ext]) (by rw [hexts, List.append_assoc]; rfl) ?_
      rw [numbers_append, bootExternals_append, ← List.append_assoc, Nat.zero_add, numbers, numbers]
      exact hnext

end Externals

/-! ### The outcome -/

/-- All four stages. -/
theorem settledOn_inventory (lilu : Lilu) (boot : Boot) (table : List ControllerModInfo) :
    SettledOn lilu boot table (fun _ => True) (bootControllers lilu boot)
      (updateInventory lilu boot boot.info { registry := boot.registry, name := boot.name,
                                             alc := { controllerMod := table }, effects := [] }) := by
  have hloop : SettledOn lilu boot table (DoneBefore boot.info.videoExternal.length)
      (bootControllers lilu boot)
      (updateInventory lilu boot boot.info { registry := boot.registry, name := boot.name,
                                             alc := { controllerMod := table }, effects := [] }) := by
    have h₁ := (settledOn_start lilu boot table []).updateBuiltinDigital
    have h₂ := h₁.updateBuiltinAnalog (by simp)
    have h₃ := h₂.updateVideoBuiltin (by simp)
    have hfirst : (if boot.digitalAudio then 2 else 1 : UInt32) =
        UInt32.ofNat (boot.nextNumber []) := by
      rw [Boot.nextNumber, numbers, Boot.firstNumber]
      cases boot.digitalAudio <;> rfl
    unfold updateInventory
    rw [hasBuiltinDigitalAudio_eq rfl]
    simp only
    rw [hfirst]
    refine SettledOn.updateVideoExternal boot.info.videoExternal [] rfl ?_
    rw [numbers, bootExternals, List.filterMap_nil, List.append_nil]
    refine h₃.congr ?_ ?_
    · rintro d ((rfl | rfl) | rfl) <;> trivial
    · intro d hd hno
      cases d with
      | externalAudio i => exact absurd hd (Nat.not_lt_zero i)
      | externalVideo i => exact absurd hd (Nat.not_lt_zero i)
      | _ => exact absurd (by simp) hno
  refine hloop.congr (fun _ _ => trivial) ?_
  intro d _ hno
  have hnumber : ∀ i, ¬i < boot.info.videoExternal.length → boot.gpuName i = none := by
    intro i hi
    rw [Boot.gpuName, Boot.gpuNumbers, lookup_numbers_none (Or.inr (by omega)), Option.map_none]
  cases d with
  | externalAudio i => exact injection_of_gpuName_none lilu (hnumber i hno) (Or.inl rfl)
  | externalVideo i => exact injection_of_gpuName_none lilu (hnumber i hno) (Or.inr rfl)
  | _ => exact absurd trivial hno

theorem settledOn_boot (lilu : Lilu) (boot : Boot) (table : List ControllerModInfo) :
    SettledOn lilu boot table (fun _ => True) (bootControllers lilu boot)
      (updateProperties lilu boot { controllerMod := table }) := by
  have hall := settledOn_inventory lilu boot table
  unfold updateProperties
  cases hinfo : boot.devInfo with
  | some info =>
      rw [show boot.info = info by rw [Boot.info, hinfo]; rfl] at hall
      exact hall
  | none =>
      -- without an inventory nothing is done, as with an empty one
      rw [show boot.info = {} by rw [Boot.info, hinfo]; rfl] at hall
      exact hall

/-- **What the boot comes to.**  Whatever the machine shows to `updateProperties`, it leaves every
device with its name and, on the properties that the device has under that name, with the amendments
that are meant for it; and the plugin with the digital controllers registered and their NVIDIA
device-ids marked. -/
theorem updateProperties_outcome (lilu : Lilu) (boot : Boot) (table : List ControllerModInfo) :
    (∀ d, (updateProperties lilu boot { controllerMod := table }).registry d =
        amend (injection lilu boot d) (renamedProperties lilu boot d)) ∧
      (∀ d, (updateProperties lilu boot { controllerMod := table }).name d =
        (planeName boot d).or (boot.name d)) ∧
      (updateProperties lilu boot { controllerMod := table }).alc =
        bootedAlc table (bootControllers lilu boot) := by
  have hend := settledOn_boot lilu boot table
  exact ⟨fun d => hend.registry d trivial, fun d => hend.name d trivial, hend.alc⟩

/-! ### What the user has set -/

/-- The properties that are given a value whether they have one or not. -/
def overwrittenKeys : List String := ["alc-layout-id", "layout-id", "hda-gfx"]

/-- Whatever else is given fills a gap. -/
def FillsGaps (t : Amendments) : Prop :=
  ∀ key a, (key, a) ∈ t → key ∉ overwrittenKeys → ∃ v, a = .default v

theorem FillsGaps.append {t u : Amendments} (ht : FillsGaps t) (hu : FillsGaps u) :
    FillsGaps (t ++ u) := by
  intro key a h hkey
  rcases List.mem_append.mp h with h | h
  · exact ht key a h hkey
  · exact hu key a h hkey

theorem fillsGaps_nil : FillsGaps [] := fun _ _ h => absurd h (by simp)

theorem fillsGaps_gfx (hdaGfx : Option String) : FillsGaps (gfxInjection hdaGfx) := by
  intro key a h hkey
  have hmem := List.mem_map_of_mem (f := Prod.fst) h
  exact absurd (gfxInjection_keys hdaGfx key hmem) (fun heq => hkey (by rw [heq]; decide))

theorem fillsGaps_audio (lilu : Lilu) (boot : Boot) (info : DeviceInfo) (isAnalog : Bool)
    (hdaGfx : Option String) (p : Properties) :
    FillsGaps (audioInjection lilu boot info isAnalog hdaGfx p) := by
  have hlayout : FillsGaps (layoutInjection info p) := by
    intro key a h hkey
    have hmem := List.mem_map_of_mem (f := Prod.fst) h
    exact absurd (layoutInjection_keys info p key hmem) (fun heq => hkey (by rw [heq]; decide))
  have hanalog : FillsGaps (analogInjection lilu boot info p) := by
    apply FillsGaps.append
    · intro key a h hkey
      obtain ⟨layout, -, heq⟩ := List.mem_map.mp h
      rw [← (Prod.mk.inj heq).1] at hkey
      exact absurd (by decide) hkey
    · intro key a h _
      simp only [List.mem_cons, Prod.mk.injEq, List.not_mem_nil, or_false] at h
      rcases h with ⟨-, rfl⟩ | ⟨-, rfl⟩ | ⟨-, rfl⟩ <;> exact ⟨_, rfl⟩
  have hbuiltin : FillsGaps [("built-in", .default (.data [0x00]))] := by
    intro key a h _
    rw [List.mem_singleton, Prod.mk.injEq] at h
    exact ⟨_, h.2⟩
  refine ((FillsGaps.append ?_ hlayout).append (fillsGaps_gfx hdaGfx)).append hbuiltin
  cases isAnalog with
  | false => exact fillsGaps_nil
  | true => exact hanalog

theorem fillsGaps_gpu (ven : UInt32) (hdaGfx : String) (p : Properties) :
    FillsGaps (gpuInjection ven hdaGfx p) := by
  refine (fillsGaps_gfx _).append ?_
  split
  · intro key a h _
    obtain ⟨connector, -, heq⟩ := List.mem_map.mp h
    exact ⟨_, (Prod.mk.inj heq).2.symm⟩
  · exact fillsGaps_nil

theorem fillsGaps_injection (lilu : Lilu) (boot : Boot) (d : Device) :
    FillsGaps (injection lilu boot d) := by
  cases d with
  | audioBuiltinDigital | audioBuiltinAnalog =>
      rw [injection]
      split
      · exact fillsGaps_audio _ _ _ _ _ _
      · exact fillsGaps_nil
  | videoBuiltin =>
      rw [injection]
      split
      · exact fillsGaps_gfx _
      · exact fillsGaps_nil
  | externalAudio i =>
      rw [injection]
      cases boot.gpuName i with
      | none => exact fillsGaps_nil
      | some name => exact fillsGaps_audio _ _ _ _ _ _
  | externalVideo i =>
      rw [injection]
      cases boot.gpuName i with
      | none => exact fillsGaps_nil
      | some name => exact fillsGaps_gpu _ _ _

/-- The device is given a name that it did not have. -/
def IsRenamed (boot : Boot) (d : Device) : Prop :=
  ∃ wanted, planeName boot d = some wanted ∧ boot.name d ≠ some wanted

theorem renamedProperties_of_not_isRenamed (lilu : Lilu) {boot : Boot} {d : Device}
    (h : ¬IsRenamed boot d) : renamedProperties lilu boot d = boot.registry d := by
  unfold renamedProperties
  cases hplane : planeName boot d with
  | none => rfl
  | some wanted =>
      have hname : boot.name d = some wanted := by
        by_contra hne
        exact h ⟨wanted, hplane, hne⟩
      rw [Option.elim_some, renamed, if_pos hname]

theorem renamedProperties_isSome {lilu : Lilu} (hkeeps : lilu.KeepsCompatible) {boot : Boot}
    {d : Device} {key : String} (h : (boot.registry d key).isSome) :
    (renamedProperties lilu boot d key).isSome := by
  by_cases hkey : key = "compatible"
  · subst hkey
    unfold renamedProperties renamed
    cases planeName boot d with
    | none => exact h
    | some wanted =>
        rw [Option.elim_some]
        split
        · exact h
        · exact hkeeps wanted _ h
  · rw [renamedProperties_of_ne lilu boot d hkey]
    exact h

/-- **Settings survive the boot.**  A property of a device that has a value keeps it, unless it is
one of the three that the plugin decides on, or `compatible` of a device that gets a new name; and no
device loses a property. -/
theorem updateProperties_keeps_settings (lilu : Lilu) (hkeeps : lilu.KeepsCompatible) (boot : Boot)
    (table : List ControllerModInfo) (d : Device) (key : String) :
    (key ∉ overwrittenKeys → ¬(key = "compatible" ∧ IsRenamed boot d) →
        ∀ v, boot.registry d key = some v →
          (updateProperties lilu boot { controllerMod := table }).registry d key = some v) ∧
      ((boot.registry d key).isSome →
        ((updateProperties lilu boot { controllerMod := table }).registry d key).isSome) := by
  rw [(settledOn_boot lilu boot table).registry d trivial, injected]
  constructor
  · intro hkey hcompatible v hv
    have hold : renamedProperties lilu boot d key = some v := by
      rcases not_and_or.mp hcompatible with hne | hnot
      · rw [renamedProperties_of_ne lilu boot d hne, hv]
      · rw [renamedProperties_of_not_isRenamed lilu hnot, hv]
    exact amend_of_defaults (fun a ha => fillsGaps_injection lilu boot d key a ha hkey) hold
  · intro hsome
    exact amend_isSome _ (renamedProperties_isSome hkeeps hsome)

/-- An HDEF called `HDAS` with the default of a property set by the user, among its other names. -/
def sampleSettings : Boot where
  devInfo := some { audioBuiltinAnalog := true }
  registry d key :=
    if d = .audioBuiltinAnalog then
      if key = "PinConfigurations" then some (.data [0x17])
      else if key = "compatible" then some (.data (cString "pci8086,8c20"))
      else none
    else none
  name d := if d = .audioBuiltinAnalog then some "HDAS" else none

/-- The pin configurations stay; HDEF becomes one of the names. -/
theorem updateProperties_keeps_settings_sample :
    let w := updateProperties (.documented 0 1) sampleSettings { controllerMod := [] }
    w.registry .audioBuiltinAnalog "PinConfigurations" = some (.data [0x17]) ∧
      (w.registry .audioBuiltinAnalog "compatible").isSome :=
  ⟨(updateProperties_keeps_settings (.documented 0 1) (Lilu.documented_keepsCompatible 0 1)
      sampleSettings [] .audioBuiltinAnalog "PinConfigurations").1 (by decide)
      (fun h => absurd h.1 (by decide)) _ rfl,
    (updateProperties_keeps_settings (.documented 0 1) (Lilu.documented_keepsCompatible 0 1)
      sampleSettings [] .audioBuiltinAnalog "compatible").2 rfl⟩

end AppleALC
