import AppleALC.KernAlc.ProcessKext

/-!
# What one boot leaves behind

Every part of `updateProperties` that works on a device is a run of actions on that device, which
write certain of its properties and leave the plugin alone.  `Acts` says so once for each part;
whatever is to be known of the parts follows from it.  `Touches` is the first such consequence: the
two opt-out properties are not written.

`Booted` collects what holds of the world after all the parts: which devices were touched, and what
is known about every controller registered so far.

* `Acts` — a run of actions on one device, with the keys it may write;
* `Touches` — the opt-out properties after it are those before it;
* `Booted` / `updateProperties_booted` — what holds after the whole boot, from any machine.
-/

namespace AppleALC

open PropertyStore

/-! ### Actions on one device -/

/-- A renamed device keeps its properties but `compatible`. -/
theorem World.renameDevice_registry_of_ne {lilu : Lilu} {w : World} {d d' : Device}
    {name key : String} (h : d' ≠ d ∨ key ≠ "compatible") :
    (w.renameDevice lilu d name).registry d' key = w.registry d' key := by
  by_cases hd : d' = d
  · rw [hd, World.renameDevice_registry, Function.update_self]
    exact lilu.renameDevice_of_ne name _ key (h.resolve_left (not_not_intro hd))
  · rw [World.renameDevice_registry, Function.update_of_ne hd]

/-- `w'` follows from `w` by actions on the device `d` that write none but these properties. -/
inductive Acts (d : Device) (keys : String → Prop) (w : World) : World → Prop
  | refl : Acts d keys w w
  | setProperty {w' : World} {key : String} (h : Acts d keys w w') (hkey : keys key)
      (value : OSObject) : Acts d keys w (w'.setProperty d key value)
  | renameDevice {w' : World} (h : Acts d keys w w') (hkey : keys "compatible") (lilu : Lilu)
      (name : String) : Acts d keys w (w'.renameDevice lilu d name)
  | act {w' : World} {e : Effect} (h : Acts d keys w w') (hd : e.device = d)
      (he : ∀ d' key value, e ≠ .setProperty d' key value) : Acts d keys w (w'.act e)

namespace Acts

variable {d : Device} {keys : String → Prop} {w w₁ w₂ : World}

theorem trans (h₁ : Acts d keys w w₁) (h₂ : Acts d keys w₁ w₂) : Acts d keys w w₂ := by
  induction h₂ with
  | refl => exact h₁
  | setProperty _ hkey value ih => exact ih.setProperty hkey value
  | renameDevice _ hkey lilu name ih => exact ih.renameDevice hkey lilu name
  | act _ hd he ih => exact ih.act hd he

theorem single (w : World) (d : Device) {key : String} (hkey : keys key) (value : OSObject) :
    Acts d keys w (w.setProperty d key value) := refl.setProperty hkey value

theorem setDefault (h : Acts d keys w w₁) {key : String} (hkey : keys key) (bytes : List UInt8) :
    Acts d keys w (w₁.setDefault d key bytes) := by
  unfold World.setDefault
  split
  · exact h.setProperty hkey _
  · exact h

/-- Other properties, and those of other devices, are kept. -/
theorem registry_eq (h : Acts d keys w w₁) {d' : Device} {key : String} (hkey : d' ≠ d ∨ ¬keys key) :
    w₁.registry d' key = w.registry d' key := by
  induction h with
  | refl => rfl
  | setProperty _ hwrites value ih =>
      rcases hkey with hd | hno
      · exact (set_of_ne_entry _ hd _ _ _).trans ih
      · exact (set_of_ne_key _ _ _ (fun heq => hno (by rw [heq]; exact hwrites)) _).trans ih
  | renameDevice _ hwrites lilu name ih =>
      refine (World.renameDevice_registry_of_ne ?_).trans ih
      exact hkey.imp_right fun hno heq => hno (by rw [heq]; exact hwrites)
  | act _ _ _ ih => exact ih

/-- Actions that write nothing. -/
theorem registry (h : Acts d (fun _ => False) w w₁) : w₁.registry = w.registry :=
  funext fun _ => funext fun _ => h.registry_eq (Or.inr id)

end Acts

section Device

variable (lilu : Lilu) (boot : Boot) (info : DeviceInfo) (d : Device) (w : World)
variable {keys : String → Prop}

theorem fixPlaneName_acts (hkey : keys "compatible") (isAnalog : Bool) :
    Acts d keys w (fixPlaneName lilu d isAnalog w) := by
  unfold fixPlaneName
  generalize (if isAnalog then "HDEF" else "HDAU") = wanted
  simp only
  split
  · exact Acts.refl.renameDevice hkey lilu _
  · exact .refl

theorem updateLayoutId_acts (hkey : keys "alc-layout-id") :
    Acts d keys w (updateLayoutId lilu boot info d w) := by
  unfold updateLayoutId
  split
  · exact Acts.single w d hkey _
  · split
    · exact .refl
    · split
      · split
        · exact Acts.single w d hkey _
        · exact .refl
      · exact .refl

/-- The properties that only the analog device is given. -/
def analogKeys : List String :=
  ["alc-layout-id", "MaximumBootBeepVolume", "MaximumBootBeepVolumeAlt", "PinConfigurations"]

/-- The properties that `updateDeviceProperties` writes. -/
def audioKeys : List String := analogKeys ++ ["layout-id", "hda-gfx", "built-in", "compatible"]

theorem updateAnalogProperties_acts (hkeys : ∀ key ∈ analogKeys, keys key) :
    Acts d keys w (updateAnalogProperties lilu boot info d w) := by
  have h₁ : Acts d keys w (updateLayoutId lilu boot info d w) :=
    updateLayoutId_acts lilu boot info d w (hkeys _ (by decide))
  have h₂ := h₁.setDefault (hkeys "MaximumBootBeepVolume" (by decide)) [0x7F]
  have h₃ := h₂.setDefault (hkeys "MaximumBootBeepVolumeAlt" (by decide)) [0x7F]
  exact h₃.setDefault (hkeys "PinConfigurations" (by decide)) [0x00]

theorem reportLayoutId_acts (hkey : keys "layout-id") : Acts d keys w (reportLayoutId info d w) := by
  unfold reportLayoutId
  split
  · exact Acts.single w d hkey _
  · exact .refl

theorem passHdaGfx_acts (hkey : keys "hda-gfx") (hdaGfx : Option String) :
    Acts d keys w (passHdaGfx d hdaGfx w) := by
  cases hdaGfx with
  | none => exact .refl
  | some name => exact Acts.single w d hkey _

theorem updateDeviceProperties_acts (hkeys : ∀ key ∈ audioKeys, keys key) (hdaGfx : Option String)
    (isAnalog : Bool) : Acts d keys w (updateDeviceProperties lilu boot info d hdaGfx isAnalog w) := by
  have h₁ : Acts d keys w (fixPlaneName lilu d isAnalog w) :=
    fixPlaneName_acts lilu d w (hkeys _ (by decide)) isAnalog
  have h₂ : Acts d keys w (if isAnalog then
      updateAnalogProperties lilu boot info d (fixPlaneName lilu d isAnalog w)
      else fixPlaneName lilu d isAnalog w) := by
    split
    · exact h₁.trans (updateAnalogProperties_acts lilu boot info d _
        fun key hkey => hkeys key (List.mem_append_left _ hkey))
    · exact h₁
  have h₃ := h₂.trans (reportLayoutId_acts info d _ (hkeys _ (by decide)))
  have h₄ := h₃.trans (passHdaGfx_acts d _ (hkeys _ (by decide)) hdaGfx)
  exact h₄.setDefault (hkeys "built-in" (by decide)) [0x00]

theorem terminateDigital_acts : Acts .audioBuiltinDigital keys w (terminateDigital boot w) := by
  have h₁ : Acts .audioBuiltinDigital keys w (w.act (.awaitPublishing .audioBuiltinDigital)) :=
    Acts.refl.act rfl nofun
  unfold terminateDigital
  simp only
  split
  · have h₂ := h₁.act (e := .requestTerminate .audioBuiltinDigital) rfl nofun
    split
    · have h₃ := h₂.act (e := .terminate .audioBuiltinDigital) rfl nofun
      split
      · exact h₃.act rfl nofun
      · exact h₃
    · exact h₂
  · exact h₁

theorem updateTcsel_acts : Acts .audioBuiltinAnalog keys w (updateTcsel lilu boot w) := by
  unfold updateTcsel
  simp only
  split
  · split
    · have h₁ : Acts .audioBuiltinAnalog keys w (w.act (.awaitPublishing .audioBuiltinAnalog)) :=
        Acts.refl.act rfl nofun
      split
      · exact h₁.act rfl nofun
      · exact h₁
    · exact .refl
  · exact .refl

theorem fixConnectors_acts (hkeys : ∀ i, keys (connectorType i)) :
    ∀ (n i : ℕ) (w : World), Acts d keys w (fixConnectors d n i w) := by
  intro n
  induction n with
  | zero => intro i w; exact .refl
  | succ n ih =>
      intro i w
      unfold fixConnectors
      split
      · exact (Acts.single w d (hkeys i) _).trans (ih (i + 1) _)
      · exact .refl

theorem updateConnectors_acts (hkeys : ∀ i, keys (connectorType i)) (gpu : ℕ) (ven : UInt32) :
    Acts (.externalVideo gpu) keys w (updateConnectors gpu ven w) := by
  unfold updateConnectors
  split
  · exact fixConnectors_acts _ hkeys _ _ w
  · exact .refl

theorem connectorType_head (i : ℕ) : (connectorType i).toList.head? = some '@' := by
  simp [connectorType, String.toList_append]

end Device

/-! ### The opt-out properties -/

/-- The properties by which the user opts a device out. -/
def IsOptOut (key : String) : Prop := key = "no-controller-inject" ∨ key = "no-controller-patch"

instance (key : String) : Decidable (IsOptOut key) := inferInstanceAs (Decidable (_ ∨ _))

/-- `w'` follows from `w` by actions on the device `d`. -/
structure Touches (d : Device) (w w' : World) : Prop where
  effects : ∃ es, w'.effects = w.effects ++ es ∧ ∀ e ∈ es, e.device = d
  optOuts : ∀ d' key, IsOptOut key → w'.registry d' key = w.registry d' key
  alc : w'.alc = w.alc

theorem Touches.refl (d : Device) (w : World) : Touches d w w :=
  ⟨⟨[], by simp⟩, fun _ _ _ => rfl, rfl⟩

theorem Touches.snoc {d : Device} {w w₁ w₂ : World} {e : Effect} (h : Touches d w w₁)
    (heffects : w₂.effects = w₁.effects ++ [e]) (hd : e.device = d)
    (hoptOuts : ∀ d' key, IsOptOut key → w₂.registry d' key = w₁.registry d' key)
    (halc : w₂.alc = w₁.alc) : Touches d w w₂ := by
  obtain ⟨es, hes, hdevice⟩ := h.effects
  refine ⟨⟨es ++ [e], by rw [heffects, hes, List.append_assoc], ?_⟩, ?_, halc.trans h.alc⟩
  · intro e' he'
    rcases List.mem_append.mp he' with he' | he'
    · exact hdevice e' he'
    · rw [List.mem_singleton.mp he']
      exact hd
  · intro d' key hkey
    rw [hoptOuts d' key hkey, h.optOuts d' key hkey]

theorem Acts.touches {d : Device} {w w' : World} (h : Acts d (fun key => ¬IsOptOut key) w w') :
    Touches d w w' := by
  induction h with
  | refl => exact .refl d w
  | setProperty _ hkey value ih =>
      refine ih.snoc rfl rfl ?_ rfl
      intro d' key' hkey'
      exact set_of_ne_key _ _ _ (fun heq => hkey (by rw [← heq]; exact hkey')) _
  | renameDevice _ hkey lilu name ih =>
      refine ih.snoc rfl rfl ?_ rfl
      intro d' key' hkey'
      exact World.renameDevice_registry_of_ne (Or.inr fun heq => hkey (by rw [← heq]; exact hkey'))
  | act _ hd _ ih => exact ih.snoc rfl hd (fun _ _ _ => rfl) rfl

theorem not_isOptOut_audioKeys : ∀ key ∈ audioKeys, ¬IsOptOut key := by decide

theorem not_isOptOut_connectorType (i : ℕ) : ¬IsOptOut (connectorType i) := by
  have hhead := connectorType_head i
  rintro (h | h) <;> rw [h] at hhead <;> exact absurd hhead (by decide)

/-! ### The world after the boot -/

/-- The user opted the audio device out of injection. -/
def OptedOut (registry : Registry Device) (d : Device) : Prop :=
  d.IsAudio ∧ (registry d "no-controller-inject").isSome

/-- What is known of a controller that `updateProperties` registered. -/
structure RegisteredAtBoot (boot : Boot) (c : ControllerInfo) : Prop where
  notOptedOut : ¬OptedOut boot.registry c.entry.device
  nopatch : c.nopatch = (c.entry.properties "no-controller-patch").isSome
  info : c.info = none
  detect : c.detect = none
  digital : c.entry.device ≠ .audioBuiltinAnalog

/-- The value `updateProperties` looks for in `nvidiaDeviceIdList`. -/
def nvidiaDevice (dev : UInt32) : UInt32 := (dev <<< 16) ||| VendorID.NVIDIA

/-- What holds throughout `updateProperties`, started on a plugin with the mod table `table`. -/
structure Booted (boot : Boot) (table : List ControllerModInfo) (w : World) : Prop where
  effects : ∀ e ∈ w.effects, ¬OptedOut boot.registry e.device
  optOuts : ∀ d key, IsOptOut key → w.registry d key = boot.registry d key
  controllers : ∀ c ∈ w.alc.controllers, RegisteredAtBoot boot c
  reserved : ∀ c ∈ w.alc.controllers, c.vendor = VendorID.NVIDIA → ∀ k < MaxNvidiaDeviceIds,
    nvidiaDeviceIdList.getD k 0 = nvidiaDevice c.device → w.alc.nvidiaDeviceIdUsage k = true
  codecs : w.alc.codecs = []
  progressState : w.alc.progressState = {}
  controllerMod : w.alc.controllerMod = table
  cursor : w.alc.currentFreeNvidiaDeviceId = 0

section Booted

variable (lilu : Lilu) {boot : Boot} (info : DeviceInfo) {table : List ControllerModInfo}
variable {w w' : World} {d : Device}

theorem Booted.touches (h : Booted boot table w) (ht : Touches d w w')
    (hd : ¬OptedOut boot.registry d) : Booted boot table w' := by
  obtain ⟨es, hes, hdev⟩ := ht.effects
  refine { effects := ?_, optOuts := ?_, controllers := ?_, reserved := ?_, codecs := ?_,
           progressState := ?_, controllerMod := ?_, cursor := ?_ }
  · intro e he
    rw [hes] at he
    rcases List.mem_append.mp he with he | he
    · exact h.effects e he
    · rw [hdev e he]
      exact hd
  · intro d' key hkey
    rw [ht.optOuts d' key hkey, h.optOuts d' key hkey]
  · rw [ht.alc]; exact h.controllers
  · rw [ht.alc]; exact h.reserved
  · rw [ht.alc]; exact h.codecs
  · rw [ht.alc]; exact h.progressState
  · rw [ht.alc]; exact h.controllerMod
  · rw [ht.alc]; exact h.cursor

/-- A device that passed `validateInjection` is not opted out. -/
theorem Booted.not_optedOut_of_validate (h : Booted boot table w)
    (hv : validateInjection w d = true) : ¬OptedOut boot.registry d := by
  rintro ⟨-, hsome⟩
  rw [← h.optOuts d _ (Or.inl rfl)] at hsome
  simp only [validateInjection, Option.isNone_iff_eq_none] at hv
  rw [hv] at hsome
  exact absurd hsome (by decide)

/-- Registering a device that is not opted out, when the marks cover it if it is NVIDIA's. -/
theorem Booted.insert (h : Booted boot table w) (hd : ¬OptedOut boot.registry d)
    (hdigital : d ≠ .audioBuiltinAnalog) {ven dev rev platform : UInt32} {usage : ℕ → Bool}
    (hmono : ∀ k, w.alc.nvidiaDeviceIdUsage k = true → usage k = true)
    (hcover : ven = VendorID.NVIDIA → ∀ k < MaxNvidiaDeviceIds,
      nvidiaDeviceIdList.getD k 0 = nvidiaDevice dev → usage k = true) :
    let w' := w.insertController d ven dev rev (w.registry d "no-controller-patch").isSome platform
    Booted boot table { w' with alc := { w'.alc with nvidiaDeviceIdUsage := usage } } := by
  refine { effects := h.effects, optOuts := h.optOuts, controllers := ?_, reserved := ?_,
           codecs := h.codecs, progressState := h.progressState,
           controllerMod := h.controllerMod, cursor := h.cursor }
  · intro c hc
    rcases List.mem_append.mp hc with hc | hc
    · exact h.controllers c hc
    · rw [List.mem_singleton] at hc
      subst hc
      exact ⟨hd, rfl, rfl, rfl, hdigital⟩
  · intro c hc hven k hk hid
    rcases List.mem_append.mp hc with hc | hc
    · exact hmono k (h.reserved c hc hven k hk hid)
    · rw [List.mem_singleton] at hc
      subst hc
      exact hcover hven k hk hid

theorem Booted.insertDigital (h : Booted boot table w) (hd : ¬OptedOut boot.registry d)
    (hdigital : d ≠ .audioBuiltinAnalog) (platform : UInt32) :
    Booted boot table (insertDigital lilu d VendorID.Intel platform w) := by
  unfold AppleALC.insertDigital
  split
  · exact h.insert hd hdigital (fun k hk => hk) (fun hven => absurd hven (by decide))
  · exact h

theorem Booted.registerExternal (h : Booted boot table w) (gpu : ℕ) (ven : UInt32)
    (hd : ¬OptedOut boot.registry (.externalAudio gpu)) :
    Booted boot table (registerExternal lilu gpu ven w) := by
  unfold AppleALC.registerExternal
  simp only
  split
  · split
    · refine h.insert hd (by simp) ?_ ?_
      · intro k hk
        simp [World.insertController, AlcEnabler.insertController, hk]
      · intro _ k hk hid
        simp only [World.insertController, AlcEnabler.insertController, Bool.or_eq_true,
          Bool.and_eq_true, decide_eq_true_eq, beq_iff_eq]
        exact Or.inr ⟨hk, hid⟩
    · next hven => exact h.insert hd (by simp) (fun k hk => hk) (fun hv => absurd hv hven)
  · exact h

theorem Booted.updateBuiltinDigital (h : Booted boot table w) (has : Bool) :
    Booted boot table (updateBuiltinDigital lilu boot info has w) := by
  unfold AppleALC.updateBuiltinDigital
  split
  · next hv =>
    have hd := h.not_optedOut_of_validate (Bool.and_eq_true_iff.mp hv).2
    split
    · have hacts := updateDeviceProperties_acts lilu boot info .audioBuiltinDigital w
        not_isOptOut_audioKeys (some "onboard-1") false
      exact (h.touches hacts.touches hd).insertDigital lilu hd (by simp) _
    · exact h.touches (terminateDigital_acts boot w).touches hd
  · exact h

theorem Booted.updateBuiltinAnalog (h : Booted boot table w) (has : Bool) :
    Booted boot table (updateBuiltinAnalog lilu boot info has w) := by
  unfold AppleALC.updateBuiltinAnalog
  split
  · next hv =>
    have hd := h.not_optedOut_of_validate (Bool.and_eq_true_iff.mp hv).2
    exact (h.touches (updateTcsel_acts lilu boot w).touches hd).touches
      (updateDeviceProperties_acts lilu boot info _ _ not_isOptOut_audioKeys _ _).touches hd
  · exact h

theorem Booted.updateVideoBuiltin (h : Booted boot table w) (has : Bool) :
    Booted boot table (updateVideoBuiltin lilu info has w) := by
  have hd : ¬OptedOut boot.registry .videoBuiltin := fun hopt => hopt.1
  unfold AppleALC.updateVideoBuiltin
  split
  · have hset := h.touches (Acts.single w .videoBuiltin (show ¬IsOptOut "hda-gfx" by decide)
      (.data (cString "onboard-1"))).touches hd
    simp only
    split
    · exact hset.insertDigital lilu hd (by simp) _
    · exact hset
  · exact h

theorem Booted.updateExternal (h : Booted boot table w) (gpu : ℕ) (ext : ExternalVideo)
    (counter : UInt32) : Booted boot table (updateExternal lilu boot info gpu ext counter w).2 := by
  unfold AppleALC.updateExternal
  split
  · exact h
  · next hguard =>
    have hv : validateInjection w (.externalAudio gpu) = true := by
      simp only [Bool.or_eq_true, Bool.not_eq_true', not_or, Bool.not_eq_false] at hguard
      exact hguard.2
    have hd := h.not_optedOut_of_validate hv
    have hvideo : ¬OptedOut boot.registry (.externalVideo gpu) := fun hopt => hopt.1
    have h₁ := h.registerExternal lilu gpu ext.vendor hd
    have h₂ := h₁.touches (updateDeviceProperties_acts lilu boot info _ _ not_isOptOut_audioKeys
      (some (onboardName counter)) false).touches hd
    have h₃ := h₂.touches (Acts.single _ (.externalVideo gpu) (show ¬IsOptOut "hda-gfx" by decide)
      (.data (cString (onboardName counter)))).touches hvideo
    exact h₃.touches (updateConnectors_acts _ not_isOptOut_connectorType gpu ext.vendor).touches hvideo

theorem Booted.updateVideoExternal (exts : List ExternalVideo) :
    ∀ (gpu : ℕ) (counter : UInt32) {w : World}, Booted boot table w →
      Booted boot table (updateVideoExternal lilu boot info gpu exts counter w) := by
  induction exts with
  | nil => intro _ _ _ h; exact h
  | cons ext exts ih =>
      intro gpu counter w h
      exact ih (gpu + 1) _ (h.updateExternal lilu info gpu ext counter)

/-- **The boot invariant.**  It holds of the world `updateProperties` leaves, whatever the machine
shows to it. -/
theorem updateProperties_booted (boot : Boot) (table : List ControllerModInfo) :
    Booted boot table (updateProperties lilu boot { controllerMod := table }) := by
  have hstart : Booted boot table
      { registry := boot.registry, name := boot.name, alc := { controllerMod := table },
        effects := [] } := by
    constructor <;> simp
  unfold updateProperties
  simp only
  split
  · exact hstart
  · unfold updateInventory
    exact (((hstart.updateBuiltinDigital lilu _ _).updateBuiltinAnalog lilu _ _).updateVideoBuiltin
      lilu _ _).updateVideoExternal lilu _ _ _ _

end Booted

end AppleALC
