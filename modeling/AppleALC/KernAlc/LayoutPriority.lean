import AppleALC.KernAlc.Stages

/-!
# Which layout wins

Three sources give the layout of the analog controller: the `alcid` boot argument, the property
`alc-layout-id` and the property `layout-id`.  `updateProperties` settles on one and leaves it in
`alc-layout-id`, before it puts the layout that macOS is to see into `layout-id`;
`grabControllers` reads `alc-layout-id` back.

The comment in `updateDeviceProperties` names the sources in this order.  The code asks for
`alc-layout-id` on Apple firmware only: on any other firmware a readable `layout-id` goes first.

* `settledLayout` / `documentedLayout` — the layout by the code and by the comment;
* `settledLayout_eq_documented_iff` — when they are the same;
* `read_settled` — what the boot leaves in `alc-layout-id`;
* `analogLayouts_settled` — the layout of the analog controller, and so of every later lookup.
-/

namespace AppleALC

open PropertyStore

/-! ### What is written where -/

/-- `w'` differs from `w` at most in the properties `keys` of the device `d`. -/
def Writes (d : Device) (keys : List String) (w w' : World) : Prop :=
  ∀ d' key, d' ≠ d ∨ key ∉ keys → w'.registry d' key = w.registry d' key

namespace Writes

variable {d : Device} {keys keys' : List String} {w w₁ w₂ : World}

theorem trans (h₁ : Writes d keys w w₁) (h₂ : Writes d keys' w₁ w₂) :
    Writes d (keys ++ keys') w w₂ := by
  intro d' key h
  rw [List.mem_append, not_or] at h
  rw [h₂ d' key (h.imp_right And.right), h₁ d' key (h.imp_right And.left)]

/-- A property that is not among those written is kept. -/
theorem kept (h : Writes d keys w w₁) {d' : Device} {key : String} (hkey : d' ≠ d ∨ key ∉ keys) :
    w₁.registry d' key = w.registry d' key :=
  h d' key hkey

end Writes

theorem Acts.writes {d : Device} {keys : List String} {w w' : World}
    (h : Acts d (fun key => key ∈ keys) w w') : Writes d keys w w' :=
  fun _ _ => h.registry_eq

section Device

variable (lilu : Lilu) (boot : Boot) (info : DeviceInfo) (d : Device) (w : World)

theorem fixPlaneName_writes (isAnalog : Bool) :
    Writes d ["compatible"] w (fixPlaneName lilu d isAnalog w) :=
  (fixPlaneName_acts lilu d w (List.mem_singleton.mpr rfl) isAnalog).writes

theorem updateLayoutId_writes : Writes d ["alc-layout-id"] w (updateLayoutId lilu boot info d w) :=
  (updateLayoutId_acts lilu boot info d w (List.mem_singleton.mpr rfl)).writes

/-- The properties of an audio device that are written after its layout is settled. -/
def laterKeys : List String :=
  ["MaximumBootBeepVolume", "MaximumBootBeepVolumeAlt", "PinConfigurations", "layout-id", "hda-gfx",
    "built-in"]

/-- After the layout of the analog device is settled, everything else it is given. -/
theorem updateDeviceProperties_analog (hdaGfx : Option String) :
    Writes d laterKeys (updateLayoutId lilu boot info d (fixPlaneName lilu d true w))
      (updateDeviceProperties lilu boot info d hdaGfx true w) := by
  have h₀ : Acts d (fun key => key ∈ laterKeys) _
      (updateLayoutId lilu boot info d (fixPlaneName lilu d true w)) := .refl
  have h₁ := h₀.setDefault (show "MaximumBootBeepVolume" ∈ laterKeys by decide) [0x7F]
  have h₂ := h₁.setDefault (show "MaximumBootBeepVolumeAlt" ∈ laterKeys by decide) [0x7F]
  have h₃ := h₂.setDefault (show "PinConfigurations" ∈ laterKeys by decide) [0x00]
  have h₄ := h₃.trans (reportLayoutId_acts info d _ (show "layout-id" ∈ laterKeys by decide))
  have h₅ := h₄.trans (passHdaGfx_acts d _ (show "hda-gfx" ∈ laterKeys by decide) hdaGfx)
  exact (h₅.setDefault (show "built-in" ∈ laterKeys by decide) [0x00]).writes

end Device

/-! ### HDEF through the four stages -/

section Hdef

variable (lilu : Lilu) (boot : Boot) (info : DeviceInfo) (w : World)

/-- HDEF has the same properties in both worlds. -/
def SameHdef (w w' : World) : Prop :=
  w'.registry .audioBuiltinAnalog = w.registry .audioBuiltinAnalog

theorem SameHdef.trans {w w₁ w₂ : World} (h₁ : SameHdef w w₁) (h₂ : SameHdef w₁ w₂) :
    SameHdef w w₂ :=
  Eq.trans h₂ h₁

theorem Acts.sameHdef {w w' : World} {d : Device} (h : Acts d (fun _ => True) w w')
    (hd : d ≠ .audioBuiltinAnalog) : SameHdef w w' :=
  funext fun _ => h.registry_eq (Or.inl hd.symm)

theorem sameHdef_setProperty {d : Device} (hd : d ≠ .audioBuiltinAnalog) (key : String)
    (value : OSObject) : SameHdef w (w.setProperty d key value) :=
  Acts.sameHdef (Acts.single w d trivial value) hd

theorem sameHdef_updateDeviceProperties {d : Device} (hd : d ≠ .audioBuiltinAnalog)
    (hdaGfx : Option String) (isAnalog : Bool) :
    SameHdef w (updateDeviceProperties lilu boot info d hdaGfx isAnalog w) :=
  Acts.sameHdef (updateDeviceProperties_acts lilu boot info d w (fun _ _ => trivial) hdaGfx isAnalog)
    hd

theorem sameHdef_insertDigital (d : Device) (ven platform : UInt32) :
    SameHdef w (insertDigital lilu d ven platform w) := by
  unfold insertDigital
  split <;> rfl

theorem sameHdef_updateBuiltinDigital (has : Bool) :
    SameHdef w (updateBuiltinDigital lilu boot info has w) := by
  unfold updateBuiltinDigital
  split
  · split
    · exact (sameHdef_updateDeviceProperties lilu boot info w (by decide) _ _).trans
        (sameHdef_insertDigital lilu _ _ _ _)
    · exact Acts.sameHdef (terminateDigital_acts boot w) (by decide)
  · rfl

theorem sameHdef_updateTcsel : SameHdef w (updateTcsel lilu boot w) :=
  congrFun (Acts.registry (updateTcsel_acts lilu boot w)) _

theorem sameHdef_updateVideoBuiltin (has : Bool) :
    SameHdef w (updateVideoBuiltin lilu info has w) := by
  unfold updateVideoBuiltin
  split
  · simp only
    split
    · exact (sameHdef_setProperty w (by decide) _ _).trans (sameHdef_insertDigital lilu _ _ _ _)
    · exact sameHdef_setProperty w (by decide) _ _
  · rfl

theorem sameHdef_registerExternal (gpu : ℕ) (ven : UInt32) :
    SameHdef w (registerExternal lilu gpu ven w) := by
  unfold registerExternal
  simp only
  split
  · split <;> rfl
  · rfl

theorem sameHdef_updateExternal (gpu : ℕ) (ext : ExternalVideo) (counter : UInt32) :
    SameHdef w (updateExternal lilu boot info gpu ext counter w).2 := by
  unfold updateExternal
  split
  · rfl
  · have h₁ := sameHdef_registerExternal lilu w gpu ext.vendor
    have h₂ := h₁.trans (sameHdef_updateDeviceProperties lilu boot info _
      (show Device.externalAudio gpu ≠ .audioBuiltinAnalog by simp) (some (onboardName counter)) false)
    have h₃ := h₂.trans (sameHdef_setProperty _
      (show Device.externalVideo gpu ≠ .audioBuiltinAnalog by simp) "hda-gfx"
      (.data (cString (onboardName counter))))
    exact h₃.trans
      (Acts.sameHdef (updateConnectors_acts _ (fun _ => trivial) gpu ext.vendor) (by simp))

theorem sameHdef_updateVideoExternal (exts : List ExternalVideo) :
    ∀ (gpu : ℕ) (counter : UInt32) (w : World),
      SameHdef w (updateVideoExternal lilu boot info gpu exts counter w) := by
  induction exts with
  | nil => intro _ _ _; rfl
  | cons ext exts ih =>
      intro gpu counter w
      exact (sameHdef_updateExternal lilu boot info w gpu ext counter).trans (ih (gpu + 1) _ _)

end Hdef

/-! ### The settled layout -/

section Settled

variable (lilu : Lilu) (boot : Boot) (info : DeviceInfo)

/-- Whether `layout-id` may give the layout. -/
def TakesLayoutId : Prop :=
  info.firmwareVendor ≠ .apple ∨ (boot.registry .audioBuiltinAnalog "use-layout-id").isSome

instance : Decidable (TakesLayoutId boot info) := by
  unfold TakesLayoutId; infer_instance

/-- The order of the comment: `alcid`, then `alc-layout-id`, then `layout-id`. -/
def documentedLayout : Option UInt32 :=
  let hdef := boot.registry .audioBuiltinAnalog
  boot.bootArgs "alcid"
    <|> lilu.read hdef "alc-layout-id"
    <|> if TakesLayoutId boot info then lilu.read hdef "layout-id" else none

/-- The order of the code: `alc-layout-id` goes before `layout-id` on Apple firmware only, elsewhere
it is what remains when there is no `layout-id`. -/
def settledLayout : Option UInt32 :=
  let hdef := boot.registry .audioBuiltinAnalog
  boot.bootArgs "alcid"
    <|> (if info.firmwareVendor = .apple ∨ lilu.read hdef "layout-id" = none then
          lilu.read hdef "alc-layout-id" else none)
    <|> if TakesLayoutId boot info then lilu.read hdef "layout-id" else none

/-- A `layout-id` on firmware that is not Apple's replaces a different `alc-layout-id`. -/
def LayoutIdOverrides : Prop :=
  let hdef := boot.registry .audioBuiltinAnalog
  boot.bootArgs "alcid" = none ∧ info.firmwareVendor ≠ .apple ∧
    ∃ alc legacy, lilu.read hdef "alc-layout-id" = some alc ∧
      lilu.read hdef "layout-id" = some legacy ∧ alc ≠ legacy

/-- The two orders differ in that case and in no other. -/
theorem settledLayout_eq_documented_iff :
    settledLayout lilu boot info = documentedLayout lilu boot info ↔
      ¬LayoutIdOverrides lilu boot info := by
  unfold settledLayout documentedLayout LayoutIdOverrides TakesLayoutId
  simp only
  cases boot.bootArgs "alcid" with
  | some layout => simp
  | none =>
      cases lilu.read (boot.registry .audioBuiltinAnalog) "alc-layout-id" with
      | none => simp
      | some alc =>
          cases lilu.read (boot.registry .audioBuiltinAnalog) "layout-id" with
          | none => simp
          | some legacy =>
              by_cases hvendor : info.firmwareVendor = .apple
              · simp [hvendor]
              · simpa [hvendor] using eq_comm

/-- What `updateLayoutId` leaves in `alc-layout-id`. -/
theorem read_updateLayoutId (hlilu : lilu.ReadsWords) {w : World}
    (hw : ∀ key, key ≠ "compatible" →
      w.registry .audioBuiltinAnalog key = boot.registry .audioBuiltinAnalog key) :
    lilu.read ((updateLayoutId lilu boot info .audioBuiltinAnalog w).registry .audioBuiltinAnalog)
      "alc-layout-id" = settledLayout lilu boot info := by
  have hstored : ∀ v : UInt32, lilu.read ((w.setProperty .audioBuiltinAnalog "alc-layout-id"
      (.data (bytesOfUInt32 v))).registry .audioBuiltinAnalog) "alc-layout-id" = some v := by
    intro v
    simp [Lilu.read, World.setProperty, hlilu v]
  have hread : ∀ key, key ≠ "compatible" → lilu.read (w.registry .audioBuiltinAnalog) key =
      lilu.read (boot.registry .audioBuiltinAnalog) key := by
    intro key hkey
    rw [Lilu.read, Lilu.read, hw key hkey]
  have hkept := hread "alc-layout-id" (by decide)
  unfold updateLayoutId settledLayout TakesLayoutId
  simp only [hkept, hread "layout-id" (by decide), hw "use-layout-id" (by decide)]
  cases boot.bootArgs "alcid" with
  | some layout => simp [hstored layout]
  | none =>
      simp only
      cases halc : lilu.read (boot.registry .audioBuiltinAnalog) "alc-layout-id" with
      | none =>
          by_cases huse : info.firmwareVendor ≠ .apple ∨
              (boot.registry .audioBuiltinAnalog "use-layout-id").isSome
          · cases hlegacy : lilu.read (boot.registry .audioBuiltinAnalog) "layout-id" with
            | none => simp [huse, hkept, halc]
            | some legacy => simp [huse, hstored legacy]
          · simp [huse, hkept, halc]
      | some alc =>
          by_cases hvendor : info.firmwareVendor = .apple
          · simp [hvendor, hkept, halc]
          · cases hlegacy : lilu.read (boot.registry .audioBuiltinAnalog) "layout-id" with
            | none => simp [hvendor, hkept, halc]
            | some legacy => simp [hvendor, hstored legacy]

end Settled

/-! ### From the boot to the controllers -/

section Stored

variable {lilu : Lilu} {boot : Boot} {info : DeviceInfo} {table : List ControllerModInfo}

/-- HDEF is in the inventory of the boot, may be injected, and shows its three ids. -/
structure HasHdef (lilu : Lilu) (boot : Boot) (info : DeviceInfo) : Prop where
  devInfo : boot.devInfo = some info
  present : info.audioBuiltinAnalog = true
  injected : boot.registry .audioBuiltinAnalog "no-controller-inject" = none
  vendor : (lilu.read (boot.registry .audioBuiltinAnalog) "vendor-id").isSome
  device : (lilu.read (boot.registry .audioBuiltinAnalog) "device-id").isSome
  revision : (lilu.read (boot.registry .audioBuiltinAnalog) "revision-id").isSome

/-- The call finds HDEF in the inventory as the boot left it in `w`. -/
structure FindsHdef (load : KextLoad) (w : World) : Prop where
  present : ∃ info, load.devInfo = some info ∧ info.audioBuiltinAnalog = true
  kept : load.registry .audioBuiltinAnalog = w.registry .audioBuiltinAnalog

/-- HDEF is as at the boot until its layout is settled, but for the names in `compatible`, and after
that only the later properties are written. -/
theorem updateProperties_hdef (table : List ControllerModInfo) (h : HasHdef lilu boot info) :
    ∃ w₁ w₂, (∀ key, key ≠ "compatible" →
        w₁.registry .audioBuiltinAnalog key = boot.registry .audioBuiltinAnalog key) ∧
      Writes .audioBuiltinAnalog laterKeys
        (updateLayoutId lilu boot info .audioBuiltinAnalog w₁) w₂ ∧
      SameHdef w₂ (updateProperties lilu boot { controllerMod := table }) := by
  let w₀ : World :=
    { registry := boot.registry, name := boot.name, alc := { controllerMod := table }, effects := [] }
  let has := hasBuiltinDigitalAudio info w₀
  let wd := updateBuiltinDigital lilu boot info has w₀
  have hd : SameHdef w₀ wd := sameHdef_updateBuiltinDigital lilu boot info w₀ has
  have ht : SameHdef wd (updateTcsel lilu boot wd) := sameHdef_updateTcsel lilu boot wd
  have hv : validateInjection wd .audioBuiltinAnalog = true := by
    have hinject : w₀.registry .audioBuiltinAnalog "no-controller-inject" = none := h.injected
    rw [validateInjection, hd, hinject, Option.isNone_none]
  let hdaGfx := if has && !info.audioBuiltinDigital then some "onboard-1" else none
  have ha : updateBuiltinAnalog lilu boot info has wd = updateDeviceProperties lilu boot info
      .audioBuiltinAnalog hdaGfx true (updateTcsel lilu boot wd) := by
    unfold updateBuiltinAnalog
    rw [h.present, hv]
    rfl
  refine ⟨fixPlaneName lilu .audioBuiltinAnalog true (updateTcsel lilu boot wd),
    updateBuiltinAnalog lilu boot info has wd, ?_, ?_, ?_⟩
  · intro key hkey
    have hplane := fixPlaneName_writes lilu .audioBuiltinAnalog (updateTcsel lilu boot wd) true
    rw [hplane.kept (Or.inr (mt List.mem_singleton.mp hkey))]
    exact congrFun (hd.trans ht) key
  · rw [ha]
    exact updateDeviceProperties_analog lilu boot info .audioBuiltinAnalog _ hdaGfx
  · have hend : updateProperties lilu boot { controllerMod := table } = updateVideoExternal lilu boot
        info 0 info.videoExternal (if has then 2 else 1)
        (updateVideoBuiltin lilu info has (updateBuiltinAnalog lilu boot info has wd)) := by
      unfold updateProperties
      rw [h.devInfo]
      rfl
    rw [hend]
    exact (sameHdef_updateVideoBuiltin lilu info _ has).trans
      (sameHdef_updateVideoExternal lilu boot info info.videoExternal 0 _ _)

/-- The layout that a later call reads from HDEF. -/
theorem read_settled (hlilu : lilu.ReadsWords) (h : HasHdef lilu boot info) :
    lilu.read ((updateProperties lilu boot { controllerMod := table }).registry
      .audioBuiltinAnalog) "alc-layout-id" = settledLayout lilu boot info := by
  obtain ⟨w₁, w₂, h₁, h₂, h₃⟩ := updateProperties_hdef table h
  have hkept : w₂.registry .audioBuiltinAnalog "alc-layout-id" =
      (updateLayoutId lilu boot info .audioBuiltinAnalog w₁).registry .audioBuiltinAnalog
        "alc-layout-id" := h₂.kept (Or.inr (by decide))
  rw [h₃, Lilu.read, hkept]
  exact read_updateLayoutId lilu boot info hlilu h₁

/-- A property of HDEF that none of the writes is about. -/
theorem read_kept (h : HasHdef lilu boot info) {key : String}
    (hkey : key ∉ "compatible" :: "alc-layout-id" :: laterKeys) :
    lilu.read ((updateProperties lilu boot { controllerMod := table }).registry
      .audioBuiltinAnalog) key = lilu.read (boot.registry .audioBuiltinAnalog) key := by
  obtain ⟨w₁, w₂, h₁, h₂, h₃⟩ := updateProperties_hdef table h
  have hwrites := (updateLayoutId_writes lilu boot info .audioBuiltinAnalog w₁).trans h₂
  obtain ⟨hcompatible, hwritten⟩ := not_or.mp (mt List.mem_cons.mpr hkey)
  have hkept : w₂.registry .audioBuiltinAnalog key = w₁.registry .audioBuiltinAnalog key :=
    hwrites.kept (Or.inr hwritten)
  rw [h₃, Lilu.read, hkept, h₁ key hcompatible, Lilu.read]

/-- The layouts of the controllers that have a codec to detect, the analog ones. -/
def analogLayouts (alc : AlcEnabler) : List UInt32 :=
  (alc.controllers.filter (·.detect.isSome)).map ControllerInfo.layout

/-- Among controllers without a detect entry the analog record is the only one. -/
theorem analogLayouts_grabControllers (load : KextLoad) {alc : AlcEnabler}
    (h : ∀ c ∈ alc.controllers, c.detect = none) :
    analogLayouts (grabControllers lilu load alc) =
      ((grabbed lilu load).map ControllerInfo.layout).toList := by
  have hold : alc.controllers.filter (·.detect.isSome) = [] := by
    rw [List.filter_eq_nil_iff]
    intro c hc
    rw [h c hc]
    decide
  have hbind : ∀ cs : List ControllerInfo,
      ((cs.map (bindController load.modelType alc.controllerMod)).filter (·.detect.isSome)).map
        ControllerInfo.layout = (cs.filter (·.detect.isSome)).map ControllerInfo.layout := by
    intro cs
    rw [List.filter_map, List.map_map]
    simp only [Function.comp_def, bindController_detect, bindController_layout]
  rw [analogLayouts, grabControllers_eq]
  simp only
  rw [hbind, List.filter_append, hold, List.nil_append]
  cases hg : grabbed lilu load with
  | none => rfl
  | some c => simp [(grabbed_spec hg).2.1]

/-- When the ids of HDEF are readable, its layout decides whether it is registered. -/
theorem grabbed_layout {load : KextLoad}
    (hpresent : ∃ info, load.devInfo = some info ∧ info.audioBuiltinAnalog = true)
    (hvendor : (lilu.read (load.registry .audioBuiltinAnalog) "vendor-id").isSome)
    (hdevice : (lilu.read (load.registry .audioBuiltinAnalog) "device-id").isSome)
    (hrevision : (lilu.read (load.registry .audioBuiltinAnalog) "revision-id").isSome) :
    (grabbed lilu load).map ControllerInfo.layout =
      lilu.read (load.registry .audioBuiltinAnalog) "alc-layout-id" := by
  cases hlid : lilu.read (load.registry .audioBuiltinAnalog) "alc-layout-id" with
  | none =>
      have hnone : ¬(grabbed lilu load).isSome = true := by
        rw [grabbed_isSome]
        rintro ⟨-, -, -, -, hsome⟩
        rw [hlid] at hsome
        exact absurd hsome (by decide)
      rw [Option.not_isSome_iff_eq_none] at hnone
      rw [hnone, Option.map_none]
  | some lid =>
      have hsome : (grabbed lilu load).isSome := by
        rw [grabbed_isSome]
        exact ⟨hpresent, hvendor, hdevice, hrevision, by rw [hlid]; rfl⟩
      obtain ⟨c, hc⟩ := Option.isSome_iff_exists.mp hsome
      rw [hc, Option.map_some, ← (grabbed_spec hc).2.2.2.2, hlid]

/-- **The layout of the analog controller is the settled one**, and there is no analog controller
when no source gives a layout. -/
theorem analogLayouts_settled (hlilu : lilu.ReadsWords) (h : HasHdef lilu boot info)
    {load : KextLoad} (hload : FindsHdef load (updateProperties lilu boot { controllerMod := table })) :
    analogLayouts (grabControllers lilu load
      (updateProperties lilu boot { controllerMod := table }).alc) =
        (settledLayout lilu boot info).toList := by
  have hboot := updateProperties_booted lilu boot table
  rw [analogLayouts_grabControllers load fun c hc => (hboot.controllers c hc).detect]
  have hids : ∀ key ∈ ["vendor-id", "device-id", "revision-id"],
      lilu.read (load.registry .audioBuiltinAnalog) key =
        lilu.read (boot.registry .audioBuiltinAnalog) key := by
    intro key hkey
    rw [hload.kept]
    refine read_kept h ?_
    revert key
    decide
  have hlayout : (grabbed lilu load).map ControllerInfo.layout = _ := grabbed_layout hload.present
    (by rw [hids _ (by decide)]; exact h.vendor) (by rw [hids _ (by decide)]; exact h.device)
    (by rw [hids _ (by decide)]; exact h.revision)
  rw [hlayout, hload.kept, read_settled hlilu h]

end Stored

/-- An HDEF with readable ids, an `alc-layout-id` of 7 and a `layout-id` of 3. -/
def sampleHdef : Registry Device := fun d key =>
  if d = .audioBuiltinAnalog then
    if key = "vendor-id" then some (.data [0x86, 0x80, 0x00, 0x00])
    else if key = "device-id" then some (.data [0x20, 0x8C, 0x00, 0x00])
    else if key = "revision-id" then some (.data [0x04, 0x00, 0x00, 0x00])
    else if key = "alc-layout-id" then some (.data [0x07, 0x00, 0x00, 0x00])
    else if key = "layout-id" then some (.data [0x03, 0x00, 0x00, 0x00])
    else none
  else none

/-- The inventory of a machine with other firmware than Apple's that has that HDEF alone. -/
def sampleHdefInfo : DeviceInfo := { audioBuiltinAnalog := true, reportedLayoutId := 1 }

/-- The boot of that machine, without boot arguments. -/
def sampleHdefBoot : Boot := { devInfo := some sampleHdefInfo, registry := sampleHdef }

def sampleHdefLoad : KextLoad :=
  { index := 0, devInfo := some sampleHdefInfo,
    registry := (updateProperties (.documented 0 1) sampleHdefBoot { controllerMod := [] }).registry }

theorem sampleHdef_hasHdef : HasHdef (.documented 0 1) sampleHdefBoot sampleHdefInfo :=
  ⟨rfl, rfl, rfl, rfl, rfl, rfl⟩

theorem sampleHdef_findsHdef : FindsHdef sampleHdefLoad
    (updateProperties (.documented 0 1) sampleHdefBoot { controllerMod := [] }) :=
  ⟨⟨sampleHdefInfo, rfl, rfl⟩, rfl⟩

theorem analogLayouts_settled_sample :
    analogLayouts (grabControllers (.documented 0 1) sampleHdefLoad
      (updateProperties (.documented 0 1) sampleHdefBoot { controllerMod := [] }).alc) =
        (settledLayout (.documented 0 1) sampleHdefBoot sampleHdefInfo).toList :=
  analogLayouts_settled (Lilu.documented_readsWords 0 1) sampleHdef_hasHdef sampleHdef_findsHdef

/-- The order of the comment gives 7, the controller gets 3. -/
theorem analogLayouts_not_documented_sample :
    HasHdef (.documented 0 1) sampleHdefBoot sampleHdefInfo ∧
      FindsHdef sampleHdefLoad
        (updateProperties (.documented 0 1) sampleHdefBoot { controllerMod := [] }) ∧
      analogLayouts (grabControllers (.documented 0 1) sampleHdefLoad
        (updateProperties (.documented 0 1) sampleHdefBoot { controllerMod := [] }).alc) = [3] ∧
      documentedLayout (.documented 0 1) sampleHdefBoot sampleHdefInfo = some 7 :=
  ⟨sampleHdef_hasHdef, sampleHdef_findsHdef, by decide, by decide⟩

end AppleALC
