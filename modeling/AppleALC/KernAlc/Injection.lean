import AppleALC.Library.Amendment
import AppleALC.KernAlc.HdaGfx

/-!
# What is injected into one device

Each part of `updateProperties` walks over one device, and reads what earlier steps of it left there.
This module says what comes out without the walk: a list of amendments, as a function of the
properties that the device had before.  A step whose condition looks at a property that the steps
before it do not amend can look at the property as it was.

* `audioInjection` / `connectorInjection` — the amendments of an audio device and of a GPU;
* `renamed` — the properties under the new name;
* `updateDeviceProperties_registry` / `updateConnectors_registry` — the walks leave what the
  amendments say.
-/

namespace AppleALC

open PropertyStore

abbrev Amendments := List (String × Amendment OSObject)

/-! ### The lists -/

section Lists

variable (lilu : Lilu) (boot : Boot) (info : DeviceInfo)

/-- The value that is written into `alc-layout-id` of a device with these properties, if one is. -/
def givenLayout (p : Properties) : Option UInt32 :=
  match boot.bootArgs "alcid" with
  | some layout => some layout
  | none =>
      if info.firmwareVendor = .apple ∧
          ((lilu.read p "alc-layout-id").isSome ∨ (p "use-layout-id").isNone) then none
      else lilu.read p "layout-id"

/-- What is particular to the analog device. -/
def analogInjection (p : Properties) : Amendments :=
  (givenLayout lilu boot info p).toList.map (fun layout =>
      ("alc-layout-id", .overwrite (.data (bytesOfUInt32 layout)))) ++
    [("MaximumBootBeepVolume", .default (.data [0x7F])),
      ("MaximumBootBeepVolumeAlt", .default (.data [0x7F])),
      ("PinConfigurations", .default (.data [0x00]))]

/-- The layout that macOS is to see. -/
def layoutInjection (p : Properties) : Amendments :=
  if info.firmwareVendor = .apple ∧ (p "use-apple-layout-id").isNone then []
  else [("layout-id", .overwrite (.data (bytesOfUInt32 info.reportedLayoutId)))]

/-- The name that joins an audio function to a GPU. -/
def gfxInjection (hdaGfx : Option String) : Amendments :=
  hdaGfx.toList.map fun name => ("hda-gfx", .overwrite (.data (cString name)))

/-- What an audio device gets. -/
def audioInjection (isAnalog : Bool) (hdaGfx : Option String) (p : Properties) : Amendments :=
  (if isAnalog then analogInjection lilu boot info p else []) ++ layoutInjection info p ++
    gfxInjection hdaGfx ++ [("built-in", .default (.data [0x00]))]

/-- The connectors from `i` on that have no type, up to the first that has one. -/
def connectorInjection (n i : ℕ) (p : Properties) : Amendments :=
  (((List.range' i n).map connectorType).takeWhile fun key => (p key).isNone).map fun key =>
    (key, .default (.data [0x00, 0x08, 0x00, 0x00]))

/-- What an external GPU gets, beside its audio function. -/
def gpuInjection (ven : UInt32) (hdaGfx : String) (p : Properties) : Amendments :=
  gfxInjection (some hdaGfx) ++
    if ven = VendorID.NVIDIA ∧ (p "no-audio-fixconn").isNone then
      connectorInjection MaxConnectorCount 0 p
    else []

end Lists

/-! ### One device -/

section Device

variable (lilu : Lilu) (boot : Boot) (info : DeviceInfo) (d : Device) (w : World)

theorem setProperty_registry (key : String) (value : OSObject) :
    (w.setProperty d key value).registry = amendAt w.registry d [(key, .overwrite value)] :=
  set_eq_amendAt _ _ _ _

theorem setDefault_registry (key : String) (bytes : List UInt8) :
    (w.setDefault d key bytes).registry = amendAt w.registry d [(key, .default (.data bytes))] := by
  rw [← default_eq_amendAt, World.setDefault]
  split <;> rfl

theorem updateLayoutId_registry : (updateLayoutId lilu boot info d w).registry =
    amendAt w.registry d ((givenLayout lilu boot info (w.registry d)).toList.map fun layout =>
      ("alc-layout-id", .overwrite (.data (bytesOfUInt32 layout)))) := by
  unfold updateLayoutId givenLayout
  cases boot.bootArgs "alcid" with
  | some layout => exact setProperty_registry d w _ _
  | none =>
    simp only
    split
    · next happle =>
      rw [if_pos ⟨happle.1, Or.inl happle.2⟩]
      exact (amendAt_nil _ _).symm
    · next hno =>
      split
      · next huse =>
        have hgiven : ¬(info.firmwareVendor = .apple ∧
            ((lilu.read (w.registry d) "alc-layout-id").isSome ∨
              (w.registry d "use-layout-id").isNone)) := by
          rintro ⟨happle, hread | hmissing⟩
          · exact hno ⟨happle, hread⟩
          · rcases huse with hother | husesome
            · exact hother happle
            · rw [Option.isNone_iff_eq_none.mp hmissing] at husesome
              exact absurd husesome (by decide)
        rw [if_neg hgiven]
        cases lilu.read (w.registry d) "layout-id" with
        | some alcId => exact setProperty_registry d w _ _
        | none => exact (amendAt_nil _ _).symm
      · next huse =>
        rw [not_or, not_not, Bool.not_eq_true, Option.isSome_eq_false_iff] at huse
        rw [if_pos ⟨huse.1, Or.inr huse.2⟩]
        exact (amendAt_nil _ _).symm

theorem updateAnalogProperties_registry : (updateAnalogProperties lilu boot info d w).registry =
    amendAt w.registry d (analogInjection lilu boot info (w.registry d)) := by
  unfold updateAnalogProperties analogInjection
  simp only
  rw [setDefault_registry, setDefault_registry, setDefault_registry, updateLayoutId_registry,
    ← amendAt_append, ← amendAt_append, ← amendAt_append]
  simp only [List.cons_append, List.nil_append]

theorem reportLayoutId_registry : (reportLayoutId info d w).registry =
    amendAt w.registry d (layoutInjection info (w.registry d)) := by
  have hcond : (info.firmwareVendor ≠ .apple ∨ (w.registry d "use-apple-layout-id").isSome) ↔
      ¬(info.firmwareVendor = .apple ∧ (w.registry d "use-apple-layout-id").isNone) := by
    rw [not_and_or, Option.isNone_iff_eq_none, ← ne_eq (w.registry d _), ← Option.isSome_iff_ne_none]
  unfold reportLayoutId layoutInjection
  by_cases h : info.firmwareVendor = .apple ∧ (w.registry d "use-apple-layout-id").isNone
  · rw [if_pos h, if_neg (fun hc => hcond.mp hc h)]
    exact (amendAt_nil _ _).symm
  · rw [if_neg h, if_pos (hcond.mpr h)]
    exact setProperty_registry d w _ _

theorem passHdaGfx_registry (hdaGfx : Option String) : (passHdaGfx d hdaGfx w).registry =
    amendAt w.registry d (gfxInjection hdaGfx) := by
  cases hdaGfx with
  | none => exact (amendAt_nil _ _).symm
  | some name => exact setProperty_registry d w _ _

/-- What is reported as the layout does not depend on what the analog device was given before. -/
theorem layoutInjection_amend {p : Properties} {t : Amendments}
    (h : "use-apple-layout-id" ∉ t.map Prod.fst) :
    layoutInjection info (amend t p) = layoutInjection info p := by
  unfold layoutInjection
  rw [amend_of_not_mem h]

theorem analogInjection_keys (p : Properties) :
    ∀ key ∈ (analogInjection lilu boot info p).map Prod.fst, key ∈ analogKeys := by
  unfold analogInjection
  cases givenLayout lilu boot info p <;> simp [analogKeys]

/-- The name that AppleHDAController looks for. -/
def wantedName (isAnalog : Bool) : String := if isAnalog then "HDEF" else "HDAU"

/-- The properties `p` of a device with this name, once it has the name `wanted`. -/
def renamed (wanted : String) (name : Option String) (p : Properties) : Properties :=
  if name = some wanted then p else lilu.renameDevice wanted p

theorem renamed_of_ne {key : String} (h : key ≠ "compatible") (wanted : String)
    (name : Option String) (p : Properties) : renamed lilu wanted name p key = p key := by
  unfold renamed
  split
  · rfl
  · exact lilu.renameDevice_of_ne wanted p key h

/-- No part of the injection looks at what a new name changes. -/
theorem audioInjection_congr {p q : Properties} (h : ∀ key, key ≠ "compatible" → p key = q key)
    (isAnalog : Bool) (hdaGfx : Option String) :
    audioInjection lilu boot info isAnalog hdaGfx p =
      audioInjection lilu boot info isAnalog hdaGfx q := by
  have hlayout : givenLayout lilu boot info p = givenLayout lilu boot info q := by
    unfold givenLayout Lilu.read
    rw [h "alc-layout-id" (by decide), h "use-layout-id" (by decide), h "layout-id" (by decide)]
  unfold audioInjection analogInjection layoutInjection
  rw [hlayout, h "use-apple-layout-id" (by decide)]

theorem fixPlaneName_registry (isAnalog : Bool) : (fixPlaneName lilu d isAnalog w).registry =
    Function.update w.registry d
      (renamed lilu (wantedName isAnalog) (w.name d) (w.registry d)) := by
  unfold fixPlaneName renamed wantedName
  generalize (if isAnalog then "HDEF" else "HDAU") = wanted
  by_cases hname : w.name d = some wanted
  · simp only [hname, ne_eq, not_true_eq_false, if_false, if_true, Function.update_eq_self]
  · simp only [hname, ne_eq, not_false_eq_true, if_false, if_true, World.renameDevice_registry]

theorem updateDeviceProperties_registry (hdaGfx : Option String) (isAnalog : Bool) :
    (updateDeviceProperties lilu boot info d hdaGfx isAnalog w).registry =
      Function.update w.registry d
        (amend (audioInjection lilu boot info isAnalog hdaGfx (w.registry d))
          (renamed lilu (wantedName isAnalog) (w.name d) (w.registry d))) := by
  have hanalog : (if isAnalog then
        updateAnalogProperties lilu boot info d (fixPlaneName lilu d isAnalog w)
      else fixPlaneName lilu d isAnalog w).registry =
        amendAt (fixPlaneName lilu d isAnalog w).registry d (if isAnalog then
          analogInjection lilu boot info ((fixPlaneName lilu d isAnalog w).registry d) else []) := by
    cases isAnalog with
    | false => exact (amendAt_nil _ _).symm
    | true => exact updateAnalogProperties_registry lilu boot info d _
  have hkeys : "use-apple-layout-id" ∉ (if isAnalog then
      analogInjection lilu boot info ((fixPlaneName lilu d isAnalog w).registry d) else []).map
        Prod.fst := by
    intro hmem
    cases isAnalog with
    | false => exact absurd hmem (by simp)
    | true => exact absurd (analogInjection_keys lilu boot info _ _ hmem) (by decide)
  have hwhole : (updateDeviceProperties lilu boot info d hdaGfx isAnalog w).registry =
      amendAt (fixPlaneName lilu d isAnalog w).registry d (audioInjection lilu boot info isAnalog
        hdaGfx ((fixPlaneName lilu d isAnalog w).registry d)) := by
    unfold updateDeviceProperties audioInjection
    simp only
    rw [setDefault_registry, passHdaGfx_registry, reportLayoutId_registry, hanalog, amendAt_self,
      layoutInjection_amend info hkeys, ← amendAt_append, ← amendAt_append, ← amendAt_append]
    simp only [List.append_assoc]
  rw [hwhole, fixPlaneName_registry, amendAt, Function.update_self, Function.update_idem,
    audioInjection_congr lilu boot info fun key hkey => renamed_of_ne lilu hkey _ _ _]

/-- Different connectors have different names. -/
theorem connectorType_injective : Function.Injective connectorType := by
  intro i j h
  have hlists := congrArg String.toList h
  simp only [connectorType, String.toList_append] at hlists
  have hnumbers := List.append_cancel_left (List.append_cancel_right hlists)
  have hvalues := congrArg (fun digits => Nat.ofDigitChars 10 digits 0) hnumbers
  simpa [Nat.toString_eq_ofList_toDigits] using hvalues

theorem connectorInjection_names (n i : ℕ) (p : Properties) : (connectorInjection n i p).map Prod.fst =
    ((List.range' i n).map connectorType).takeWhile fun key => (p key).isNone := by
  simp [connectorInjection, Function.comp_def]

theorem connectorInjection_succ (n i : ℕ) (p : Properties) :
    connectorInjection (n + 1) i p =
      if (p (connectorType i)).isNone then
        (connectorType i, .default (.data [0x00, 0x08, 0x00, 0x00])) :: connectorInjection n (i + 1) p
      else [] := by
  unfold connectorInjection
  rw [List.range'_succ, List.map_cons, List.takeWhile_cons]
  split <;> rfl

/-- Only the connectors from the first on matter. -/
theorem connectorInjection_congr (n : ℕ) : ∀ {i : ℕ} {p q : Properties},
    (∀ j, i ≤ j → p (connectorType j) = q (connectorType j)) →
      connectorInjection n i p = connectorInjection n i q := by
  induction n with
  | zero => intro i p q _; rfl
  | succ n ih =>
      intro i p q h
      rw [connectorInjection_succ, connectorInjection_succ, h i (Nat.le_refl i),
        ih fun j hj => h j (by omega)]

theorem fixConnectors_registry (n : ℕ) : ∀ (i : ℕ) (w : World),
    (fixConnectors d n i w).registry = amendAt w.registry d (connectorInjection n i (w.registry d)) := by
  induction n with
  | zero => intro i w; exact (amendAt_nil _ _).symm
  | succ n ih =>
      intro i w
      rw [connectorInjection_succ]
      unfold fixConnectors
      split
      · next hmissing =>
        have hset := setDefault_registry d w (connectorType i) [0x00, 0x08, 0x00, 0x00]
        rw [World.setDefault, if_pos hmissing] at hset
        -- the later connectors are still as they were
        have hlater : connectorInjection n (i + 1) (amendAt w.registry d
            [(connectorType i, .default (.data [0x00, 0x08, 0x00, 0x00]))] d) =
              connectorInjection n (i + 1) (w.registry d) := by
          apply connectorInjection_congr
          intro j hj
          rw [amendAt_self, amend_of_not_mem]
          rw [List.map_singleton, List.mem_singleton]
          exact fun heq => absurd (connectorType_injective heq) (by omega)
        rw [ih, hset, hlater, ← amendAt_append]
        rfl
      · exact (amendAt_nil _ _).symm

theorem updateConnectors_registry (gpu : ℕ) (ven : UInt32) :
    (updateConnectors gpu ven w).registry = amendAt w.registry (.externalVideo gpu)
      (if ven = VendorID.NVIDIA ∧ (w.registry (.externalVideo gpu) "no-audio-fixconn").isNone then
        connectorInjection MaxConnectorCount 0 (w.registry (.externalVideo gpu))
      else []) := by
  unfold updateConnectors
  split
  · exact fixConnectors_registry _ _ _ w
  · exact (amendAt_nil _ _).symm

end Device

end AppleALC
