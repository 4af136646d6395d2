import AppleALC.KernAlc.BootFrame

/-!
# What each stage of a call can change

`processKext` is a sequence of stages.  Detection is the only one that changes controllers and
codecs, the controller loop the only one that changes the mod table and the device-id pool, and the
rest only raise flags.  The lemmas of this module say so once; the invariants of the later modules
are derived from them and never unfold `processKext` again.

* `grabControllers_eq` / `detect_cases` — what detection does, case by case;
* `Proceeds` / `processKext_of_proceeds` — the calls that get past the two early returns, and their
  stages;
* `mem_processKext` — where an event of a call comes from;
* `mem_controllers_step` — a controller was there before, or is the one that this call grabs.
-/

namespace AppleALC

open OutputMachine CursorPool

variable (cfg : Config)

/-! ### Binding a controller -/

section Bind

variable (model : UInt32) (table : List ControllerModInfo) (c : ControllerInfo)

theorem bindController_eq : ∃ info, bindController model table c = { c with info := info } := by
  unfold bindController
  split
  · exact ⟨_, rfl⟩
  · exact ⟨c.info, rfl⟩

@[simp] theorem bindController_entry : (bindController model table c).entry = c.entry := by
  obtain ⟨info, h⟩ := bindController_eq model table c
  rw [h]

@[simp] theorem bindController_detect : (bindController model table c).detect = c.detect := by
  obtain ⟨info, h⟩ := bindController_eq model table c
  rw [h]

@[simp] theorem bindController_layout : (bindController model table c).layout = c.layout := by
  obtain ⟨info, h⟩ := bindController_eq model table c
  rw [h]

@[simp] theorem bindController_nopatch : (bindController model table c).nopatch = c.nopatch := by
  obtain ⟨info, h⟩ := bindController_eq model table c
  rw [h]

@[simp] theorem bindController_vendor : (bindController model table c).vendor = c.vendor := by
  obtain ⟨info, h⟩ := bindController_eq model table c
  rw [h]

@[simp] theorem bindController_device : (bindController model table c).device = c.device := by
  obtain ⟨info, h⟩ := bindController_eq model table c
  rw [h]

end Bind

/-! ### Detection -/

/-- The record `grabAnalog` appends, when there is an analog device and its ids and its layout are
readable. -/
def analogRecord (lilu : Lilu) (load : KextLoad) (info : DeviceInfo) : Option ControllerInfo :=
  let sect := load.registry .audioBuiltinAnalog
  if info.audioBuiltinAnalog then
    match lilu.read sect "vendor-id", lilu.read sect "device-id", lilu.read sect "revision-id",
        lilu.read sect "alc-layout-id" with
    | some ven, some dev, some rev, some lid =>
        some { entry := ⟨.audioBuiltinAnalog, sect⟩, detect := some .audioBuiltinAnalog,
               vendor := ven, device := dev, revision := rev,
               platform := uint32OfBool (sect "no-controller-patch").isSome, layout := lid,
               nopatch := false }
    | _, _, _, _ => none
  else none

/-- The analog controller a call would register. -/
def grabbed (lilu : Lilu) (load : KextLoad) : Option ControllerInfo :=
  load.devInfo.bind (analogRecord lilu load)

theorem grabAnalog_eq (lilu : Lilu) (load : KextLoad) (info : DeviceInfo) (alc : AlcEnabler) :
    grabAnalog lilu load info alc =
      { alc with controllers := alc.controllers ++ (analogRecord lilu load info).toList } := by
  unfold grabAnalog analogRecord
  simp only
  by_cases hpresent : info.audioBuiltinAnalog = true
  · rw [if_pos hpresent, if_pos hpresent]
    cases lilu.read (load.registry .audioBuiltinAnalog) "vendor-id" <;>
      cases lilu.read (load.registry .audioBuiltinAnalog) "device-id" <;>
      cases lilu.read (load.registry .audioBuiltinAnalog) "revision-id" <;>
      cases lilu.read (load.registry .audioBuiltinAnalog) "alc-layout-id" <;>
      simp [AlcEnabler.insertController, boolOfUInt32, PlatformAny]
  · rw [if_neg hpresent, if_neg hpresent]
    simp

/-- **What `grabControllers` does.**  It appends the analog record, binds every controller to the
mod table, and changes nothing else but the computer model. -/
theorem grabControllers_eq (lilu : Lilu) (load : KextLoad) (alc : AlcEnabler) :
    grabControllers lilu load alc = { alc with
      computerModel := load.modelType
      controllers := (alc.controllers ++ (grabbed lilu load).toList).map
        (bindController load.modelType alc.controllerMod) } := by
  unfold grabControllers grabbed
  cases load.devInfo with
  | none =>
      simp only [Option.bind_none, Option.toList_none, List.append_nil]
      split
      · rfl
      · next hnil =>
        have hempty : alc.controllers = [] := List.eq_nil_of_length_eq_zero (by omega)
        simp [hempty]
  | some info =>
      simp only [grabAnalog_eq, Option.bind_some]
      split
      · rfl
      · next hnil =>
        have hempty : alc.controllers ++ (analogRecord lilu load info).toList = [] :=
          List.eq_nil_of_length_eq_zero (by omega)
        simp [hempty]

theorem grabbed_spec {lilu : Lilu} {load : KextLoad} {c : ControllerInfo}
    (h : grabbed lilu load = some c) :
    c.entry = ⟨.audioBuiltinAnalog, load.registry .audioBuiltinAnalog⟩ ∧
      c.detect = some .audioBuiltinAnalog ∧ c.nopatch = false ∧ c.info = none ∧
      lilu.read (load.registry .audioBuiltinAnalog) "alc-layout-id" = some c.layout := by
  obtain ⟨info, -, h⟩ := Option.bind_eq_some_iff.mp h
  unfold analogRecord at h
  simp only at h
  split at h
  · split at h
    · next hlid =>
      cases h
      exact ⟨rfl, rfl, rfl, rfl, hlid⟩
    · exact absurd h (by simp)
  · exact absurd h (by simp)

def Resources.detects (res : Resources) (kextIndex : ℕ) : Bool :=
  ((res.kextList[kextIndex]?).map KextInfo.detect).getD false

/-- The first call that gets to detection loads the controllers. -/
theorem detect_controllers {load : KextLoad} {kextIndex : ℕ} {alc : AlcEnabler}
    (h : alc.progressState.controllersLoaded = false) :
    detect cfg load kextIndex alc = { grabControllers cfg.lilu load alc with
      progressState := { alc.progressState with controllersLoaded := true } } := by
  simp [detect, h, grabControllers_eq]

/-- A later call for a `Detect` kext looks for codecs until some are found. -/
theorem detect_codecs {load : KextLoad} {kextIndex : ℕ} {alc : AlcEnabler}
    (h : alc.progressState.controllersLoaded = true)
    (hcodecs : alc.progressState.codecsLoaded = false)
    (hdetect : cfg.res.detects kextIndex = true) :
    detect cfg load kextIndex alc = { alc with
      codecs := (grabCodecs cfg.lilu cfg.res load alc).1.codecs
      progressState := { alc.progressState with
        codecsLoaded := (grabCodecs cfg.lilu cfg.res load alc).2 } } := by
  have hd : ((cfg.res.kextList[kextIndex]?).map KextInfo.detect).getD false = true := hdetect
  unfold detect
  rw [if_neg (by simp [h]), if_pos (by simp [hcodecs, hd])]
  simp only
  split
  · next hr =>
    rw [hr]
    rfl
  · next hr =>
    rw [Bool.not_eq_true] at hr
    rw [hr, ← hcodecs]
    rfl

/-- Otherwise detection does nothing. -/
theorem detect_idle {load : KextLoad} {kextIndex : ℕ} {alc : AlcEnabler}
    (h : alc.progressState.controllersLoaded = true)
    (hidle : alc.progressState.codecsLoaded = true ∨ cfg.res.detects kextIndex = false) :
    detect cfg load kextIndex alc = alc := by
  unfold detect
  simp only [h, Bool.not_true, Bool.false_eq_true, if_false]
  rcases hidle with hidle | hidle
  · simp [hidle]
  · have hd : ((cfg.res.kextList[kextIndex]?).map KextInfo.detect).getD false = false := hidle
    simp [hd]

/-- **The three cases of detection.** -/
theorem detect_cases (load : KextLoad) (kextIndex : ℕ) (alc : AlcEnabler) :
    (alc.progressState.controllersLoaded = false ∧
      detect cfg load kextIndex alc = { grabControllers cfg.lilu load alc with
        progressState := { alc.progressState with controllersLoaded := true } }) ∨
    (alc.progressState.controllersLoaded = true ∧ alc.progressState.codecsLoaded = false ∧
      cfg.res.detects kextIndex = true ∧
      detect cfg load kextIndex alc = { alc with
        codecs := (grabCodecs cfg.lilu cfg.res load alc).1.codecs
        progressState := { alc.progressState with
          codecsLoaded := (grabCodecs cfg.lilu cfg.res load alc).2 } }) ∨
    (alc.progressState.controllersLoaded = true ∧
      (alc.progressState.codecsLoaded = true ∨ cfg.res.detects kextIndex = false) ∧
      detect cfg load kextIndex alc = alc) := by
  cases hload : alc.progressState.controllersLoaded with
  | false => exact Or.inl ⟨rfl, detect_controllers cfg hload⟩
  | true =>
      by_cases hidle : alc.progressState.codecsLoaded = true ∨ cfg.res.detects kextIndex = false
      · exact Or.inr (Or.inr ⟨rfl, hidle, detect_idle cfg hload hidle⟩)
      · simp only [not_or, Bool.not_eq_true, Bool.not_eq_false] at hidle
        exact Or.inr (Or.inl ⟨rfl, hidle.1, hidle.2, detect_codecs cfg hload hidle.1 hidle.2⟩)

theorem detect_loaded (load : KextLoad) (kextIndex : ℕ) (alc : AlcEnabler) :
    (detect cfg load kextIndex alc).progressState.controllersLoaded = true := by
  rcases detect_cases cfg load kextIndex alc with ⟨_, h⟩ | ⟨hl, _, _, h⟩ | ⟨hl, _, h⟩
  · rw [h]
  · rw [h]; exact hl
  · rw [h]; exact hl

/-- Detection never touches the mod table or the device-id pool. -/
theorem detect_pool (load : KextLoad) (kextIndex : ℕ) (alc : AlcEnabler) :
    (detect cfg load kextIndex alc).controllerMod = alc.controllerMod ∧
      (detect cfg load kextIndex alc).pool = alc.pool := by
  rcases detect_cases cfg load kextIndex alc with ⟨_, h⟩ | ⟨_, _, _, h⟩ | ⟨_, _, h⟩
  · rw [h, grabControllers_eq]; exact ⟨rfl, rfl⟩
  · rw [h]; exact ⟨rfl, rfl⟩
  · rw [h]; exact ⟨rfl, rfl⟩

/-! ### The stages after detection -/

/-- The two states agree on what was detected. -/
structure SameDetection (alc alc' : AlcEnabler) : Prop where
  controllers : alc'.controllers = alc.controllers
  codecs : alc'.codecs = alc.codecs
  controllersLoaded : alc'.progressState.controllersLoaded = alc.progressState.controllersLoaded
  codecsLoaded : alc'.progressState.codecsLoaded = alc.progressState.codecsLoaded

namespace SameDetection

variable {alc alc₁ alc₂ : AlcEnabler}

theorem refl (alc : AlcEnabler) : SameDetection alc alc := ⟨rfl, rfl, rfl, rfl⟩

theorem trans (h₁ : SameDetection alc alc₁) (h₂ : SameDetection alc₁ alc₂) :
    SameDetection alc alc₂ :=
  ⟨h₂.1.trans h₁.1, h₂.2.trans h₁.2, h₂.3.trans h₁.3, h₂.4.trans h₁.4⟩

end SameDetection

theorem patchController_same (index : ℕ) (c : ControllerInfo) (alc : AlcEnabler) :
    SameDetection alc (patchController cfg index c alc).1 := by
  unfold patchController
  split
  · exact SameDetection.refl alc
  · split
    · exact SameDetection.refl alc
    · simp only
      split <;> exact ⟨rfl, rfl, rfl, rfl⟩

theorem patchLoop_same (index : ℕ) (cs : List ControllerInfo) (alc : AlcEnabler) :
    SameDetection alc (run (patchController cfg index) cs alc) :=
  run_invariant (P := fun alc' => SameDetection alc alc')
    (fun c alc' h => h.trans (patchController_same cfg index c alc')) cs (SameDetection.refl alc)

/-- The flags raised after the controller loop leave detection, mod table and pool alone. -/
structure SameButFlags (alc alc' : AlcEnabler) : Prop where
  detection : SameDetection alc alc'
  controllerMod : alc'.controllerMod = alc.controllerMod
  pool : alc'.pool = alc.pool

theorem SameButFlags.trans {alc alc₁ alc₂ : AlcEnabler} (h₁ : SameButFlags alc alc₁)
    (h₂ : SameButFlags alc₁ alc₂) : SameButFlags alc alc₂ :=
  ⟨h₁.1.trans h₂.1, h₂.2.trans h₁.2, h₂.3.trans h₁.3⟩

theorem patchLoadedCodecs_same (index : ℕ) (alc : AlcEnabler) :
    SameButFlags alc (patchLoadedCodecs cfg index alc).1 := by
  unfold patchLoadedCodecs
  split <;> exact ⟨⟨rfl, rfl, rfl, rfl⟩, rfl, rfl⟩

theorem routeHDAFamily_same (index kextIndex : ℕ) (alc : AlcEnabler) :
    SameButFlags alc (routeHDAFamily cfg index kextIndex alc).1 := by
  unfold routeHDAFamily
  split <;> exact ⟨⟨rfl, rfl, rfl, rfl⟩, rfl, rfl⟩

theorem routeHDAController_same (index kextIndex : ℕ) (alc : AlcEnabler) :
    SameButFlags alc (routeHDAController cfg index kextIndex alc).1 := by
  unfold routeHDAController
  split <;> exact ⟨⟨rfl, rfl, rfl, rfl⟩, rfl, rfl⟩

/-! ### One call -/

/-- The call gets past the two early returns, in the slot `kextIndex`. -/
def Proceeds (load : KextLoad) (kextIndex : ℕ) : Prop :=
  cfg.res.kextSlot load.index = some kextIndex ∧ kextIndex ≠ cfg.res.kextIdAppleGFXHDA

/-- A call that takes an early return leaves the plugin alone. -/
theorem processKext_of_not_proceeds {load : KextLoad} {alc : AlcEnabler}
    (h : ∀ k, ¬Proceeds cfg load k) : (processKext cfg load alc).1 = alc := by
  unfold processKext
  split
  · rfl
  · next k hslot =>
    by_cases hgfx : k = cfg.res.kextIdAppleGFXHDA
    · rw [if_pos hgfx]
    · exact absurd ⟨hslot, hgfx⟩ (h k)

/-- **What a call does to the plugin.**  It runs detection, then the controller loop over the
controllers detected so far, then raises flags. -/
theorem processKext_of_proceeds {load : KextLoad} {kextIndex : ℕ} (h : Proceeds cfg load kextIndex)
    (alc : AlcEnabler) :
    SameButFlags (run (patchController cfg load.index) (detect cfg load kextIndex alc).controllers
      (detect cfg load kextIndex alc)) (processKext cfg load alc).1 := by
  obtain ⟨hslot, hgfx⟩ := h
  have hloop : (patchControllers cfg load.index kextIndex (detect cfg load kextIndex alc)).1 =
      run (patchController cfg load.index) (detect cfg load kextIndex alc).controllers
        (detect cfg load kextIndex alc) := by
    simp [patchControllers, detect_loaded]
  unfold processKext
  rw [hslot]
  simp only [if_neg hgfx, hloop]
  exact ((patchLoadedCodecs_same cfg load.index _).trans (routeHDAFamily_same cfg _ _ _)).trans
    (routeHDAController_same cfg _ _ _)

/-- Detection is the only part of a call that shows in what was detected. -/
theorem processKext_same {load : KextLoad} {kextIndex : ℕ} (h : Proceeds cfg load kextIndex)
    (alc : AlcEnabler) :
    SameDetection (detect cfg load kextIndex alc) (processKext cfg load alc).1 :=
  (patchLoop_same cfg load.index _ _).trans (processKext_of_proceeds cfg h alc).detection

/-! ### What a call submits -/

/-- The events that come from neither of the two patch loops. -/
def Event.IsHook : Event → Prop
  | .logPatch _ | .route _ _ => True
  | .controllerPatch _ _ _ | .codecPatch _ _ _ => False

theorem eraseRedundantLogs_isHook (index : ℕ) : ∀ e ∈ eraseRedundantLogs cfg index, e.IsHook := by
  intro e he
  unfold eraseRedundantLogs at he
  simp only at he
  split at he
  · rw [List.mem_singleton] at he
    subst he
    trivial
  · exact absurd he (by simp)

theorem routeAppleHDA_isHook (index kextIndex : ℕ) (alc : AlcEnabler) :
    ∀ e ∈ routeAppleHDA cfg index kextIndex alc, e.IsHook := by
  intro e he
  unfold routeAppleHDA at he
  split at he
  · rcases List.mem_cons.mp he with rfl | he
    · trivial
    · split at he
      · exact absurd he (by simp)
      · exact eraseRedundantLogs_isHook cfg _ e he
  · exact absurd he (by simp)

theorem routeHDAFamily_isHook (index kextIndex : ℕ) (alc : AlcEnabler) :
    ∀ e ∈ (routeHDAFamily cfg index kextIndex alc).2, e.IsHook := by
  intro e he
  unfold routeHDAFamily at he
  split at he
  · rw [List.mem_singleton] at he
    subst he
    trivial
  · exact absurd he (by simp)

theorem routeHDAController_isHook (index kextIndex : ℕ) (alc : AlcEnabler) :
    ∀ e ∈ (routeHDAController cfg index kextIndex alc).2, e.IsHook := by
  intro e he
  unfold routeHDAController at he
  split at he
  · rw [List.mem_singleton] at he
    subst he
    trivial
  · exact absurd he (by simp)

/-- The codec loop submits codec patches only. -/
theorem patchCodecs_events (index : ℕ) (codecs : List CodecInfo) :
    ∀ (i : ℕ), ∀ e ∈ (patchCodecs cfg index i codecs).2, ∃ ci j p, e = .codecPatch ci j p := by
  induction codecs with
  | nil => intro i e he; exact absurd he (by simp [patchCodecs])
  | cons ci cis ih =>
      intro i e he
      unfold patchCodecs at he
      simp only at he
      split at he
      · exact ih (i + 1) e he
      · rcases List.mem_append.mp he with he | he
        · obtain ⟨jp, -, rfl⟩ := List.mem_map.mp he
          exact ⟨_, _, _, rfl⟩
        · exact ih (i + 1) e he

theorem mem_patchControllers {index kextIndex : ℕ} {alc : AlcEnabler} {e : Event}
    (hloaded : alc.progressState.controllersLoaded = true) (he : ¬e.IsHook) :
    e ∈ (patchControllers cfg index kextIndex alc).2 ↔
      e ∈ outputs (patchController cfg index) alc.controllers alc := by
  have hlogs : e ∉ if cfg.debugEnabled then [] else eraseRedundantLogs cfg kextIndex := by
    split
    · simp
    · exact fun h => he (eraseRedundantLogs_isHook cfg _ e h)
  simp only [patchControllers, hloaded, if_true, List.mem_append, hlogs, or_false]

theorem mem_patchLoadedCodecs {index : ℕ} {alc : AlcEnabler} {e : Event} :
    e ∈ (patchLoadedCodecs cfg index alc).2 ↔
      alc.progressState.codecsLoaded = true ∧ e ∈ (patchCodecs cfg index 0 alc.codecs).2 := by
  unfold patchLoadedCodecs
  split
  · next h => simp [h]
  · next h => simp [h]

/-- **What a call submits.**  A patch of one of the two loops is submitted exactly by the calls that
proceed, by the loop it is tagged with, over what was detected by then. -/
theorem mem_processKext {load : KextLoad} {alc : AlcEnabler} {e : Event} (he : ¬e.IsHook) :
    e ∈ (processKext cfg load alc).2 ↔ ∃ k, Proceeds cfg load k ∧
      (e ∈ outputs (patchController cfg load.index) (detect cfg load k alc).controllers
          (detect cfg load k alc) ∨
        (detect cfg load k alc).progressState.codecsLoaded = true ∧
          e ∈ (patchCodecs cfg load.index 0 (detect cfg load k alc).codecs).2) := by
  unfold processKext
  cases hslot : cfg.res.kextSlot load.index with
  | none =>
      have hno : ¬∃ k, Proceeds cfg load k := by
        rintro ⟨k, hk, -⟩
        rw [hslot] at hk
        exact absurd hk (by simp)
      simp only [List.not_mem_nil, false_iff]
      rintro ⟨k, hk, -⟩
      exact hno ⟨k, hk⟩
  | some k =>
      have hproceeds : ∀ k', Proceeds cfg load k' → k' = k := by
        rintro k' ⟨hk', -⟩
        exact Option.some.inj (hk'.symm.trans hslot)
      by_cases hgfx : k = cfg.res.kextIdAppleGFXHDA
      · simp only [if_pos hgfx, List.mem_singleton]
        constructor
        · rintro rfl
          exact absurd trivial he
        · rintro ⟨k', hk', -⟩
          exact absurd (hproceeds k' hk' ▸ hgfx) hk'.2
      · have hloaded := detect_loaded cfg load k alc
        have hsame := patchLoop_same cfg load.index (detect cfg load k alc).controllers
          (detect cfg load k alc)
        have hloop : (patchControllers cfg load.index k (detect cfg load k alc)).1 =
            run (patchController cfg load.index) (detect cfg load k alc).controllers
              (detect cfg load k alc) := by
          simp [patchControllers, hloaded]
        have hhda : ∀ alc', e ∉ routeAppleHDA cfg load.index k alc' :=
          fun alc' h => he (routeAppleHDA_isHook cfg load.index k alc' e h)
        have hfamily : ∀ alc', e ∉ (routeHDAFamily cfg load.index k alc').2 :=
          fun alc' h => he (routeHDAFamily_isHook cfg load.index k alc' e h)
        have hcontroller : ∀ alc', e ∉ (routeHDAController cfg load.index k alc').2 :=
          fun alc' h => he (routeHDAController_isHook cfg load.index k alc' e h)
        simp only [if_neg hgfx, List.mem_append, mem_patchControllers cfg hloaded he, hhda,
          hfamily, hcontroller, or_false, mem_patchLoadedCodecs, hloop, hsame.codecs,
          hsame.codecsLoaded]
        constructor
        · intro h
          exact ⟨k, ⟨hslot, hgfx⟩, h⟩
        · rintro ⟨k', hk', h⟩
          rw [hproceeds k' hk'] at h
          exact h

/-! ### Which patches the loops submit -/

theorem mem_applyPatches {index j : ℕ} {p : LookupPatch} {patches : List KextPatch} :
    ∀ {start : ℕ}, (j, p) ∈ applyPatches cfg index start patches ↔
      ∃ i patch, patches[i]? = some patch ∧ j = start + i ∧ p = patch.patch ∧
        Applies cfg index patch := by
  induction patches with
  | nil => intro start; simp [applyPatches]
  | cons patch patches ih =>
      intro start
      have hrest : (∃ i q, (patch :: patches)[i]? = some q ∧ j = start + i ∧ p = q.patch ∧
            Applies cfg index q) ↔
          (j = start ∧ p = patch.patch ∧ Applies cfg index patch) ∨
            ∃ i q, patches[i]? = some q ∧ j = start + 1 + i ∧ p = q.patch ∧
              Applies cfg index q := by
        constructor
        · rintro ⟨i, q, hq, hj, hp⟩
          cases i with
          | zero =>
              simp only [List.getElem?_cons_zero, Option.some.injEq] at hq
              subst hq
              exact Or.inl ⟨hj, hp⟩
          | succ i => exact Or.inr ⟨i, q, by simpa using hq, by omega, hp⟩
        · rintro (⟨hj, hp⟩ | ⟨i, q, hq, hj, hp⟩)
          · exact ⟨0, patch, rfl, hj, hp⟩
          · exact ⟨i + 1, q, by simpa using hq, by omega, hp⟩
      rw [hrest]
      by_cases happlies : Applies cfg index patch
      · rw [applyPatches, if_pos happlies, List.mem_cons, ih, Prod.mk.injEq]
        simp only [happlies, and_true]
      · rw [applyPatches, if_neg happlies, ih]
        simp only [happlies, and_false, false_or]

/-- The patches of a mod once the waiting ones were offered a device-id. -/
def chosenPatches (alc : AlcEnabler) (info : ControllerModInfo) : List KextPatch :=
  (if info.vendor = VendorID.NVIDIA then assignNvidiaIds alc.pool info.patches
    else (alc.pool, info.patches)).2

/-- **What one controller submits**: patches of the mod it is bound to, unless it is skipped. -/
theorem mem_patchController {index mod j : ℕ} {p : LookupPatch} {c : ControllerInfo}
    {alc : AlcEnabler} :
    .controllerPatch mod j p ∈ (patchController cfg index c alc).2 ↔
      c.info = some mod ∧ c.nopatch = false ∧ ∃ info patch, alc.controllerMod[mod]? = some info ∧
        (chosenPatches alc info)[j]? = some patch ∧ p = patch.patch ∧ Applies cfg index patch := by
  unfold patchController chosenPatches
  cases hinfo : c.info with
  | none => simp
  | some m =>
      cases hmod : alc.controllerMod[m]? with
      | none =>
          simp only [hmod, List.not_mem_nil, Option.some.injEq, false_iff]
          rintro ⟨rfl, -, info, patch, hm, -⟩
          rw [hmod] at hm
          exact absurd hm (by simp)
      | some info =>
          cases hnopatch : c.nopatch with
          | true => simp [hmod]
          | false =>
              simp only [hmod, Bool.false_eq_true, if_false, List.mem_map, Event.controllerPatch.injEq,
                Prod.exists, mem_applyPatches, Nat.zero_add, Option.some.injEq, true_and]
              constructor
              · rintro ⟨j', p', ⟨i, patch, hpatch, rfl, rfl, happlies⟩, rfl, rfl, rfl⟩
                exact ⟨rfl, info, patch, hmod, hpatch, rfl, happlies⟩
              · rintro ⟨rfl, info', patch, hm, hpatch, rfl, happlies⟩
                have hinfo' : info' = info := Option.some.inj (hm.symm.trans hmod)
                subst hinfo'
                exact ⟨j, patch.patch, ⟨j, patch, hpatch, rfl, rfl, happlies⟩, rfl, rfl, rfl⟩

/-- A submitted controller patch comes from one iteration of the controller loop. -/
theorem mem_processKext_controllerPatch {load : KextLoad} {alc : AlcEnabler} {mod j : ℕ}
    {p : LookupPatch} :
    .controllerPatch mod j p ∈ (processKext cfg load alc).2 ↔ ∃ k pre c post,
      Proceeds cfg load k ∧ (detect cfg load k alc).controllers = pre ++ c :: post ∧
        .controllerPatch mod j p ∈ (patchController cfg load.index c
          (run (patchController cfg load.index) pre (detect cfg load k alc))).2 := by
  rw [mem_processKext cfg (by simp [Event.IsHook])]
  constructor
  · rintro ⟨k, hk, h | ⟨-, h⟩⟩
    · obtain ⟨pre, c, post, hsplit, he⟩ := mem_outputs.mp h
      exact ⟨k, pre, c, post, hk, hsplit, he⟩
    · obtain ⟨ci, j', p', he⟩ := patchCodecs_events cfg load.index _ 0 _ h
      exact absurd he (by simp)
  · rintro ⟨k, pre, c, post, hk, hsplit, he⟩
    exact ⟨k, hk, Or.inl (mem_outputs.mpr ⟨pre, c, post, hsplit, he⟩)⟩

/-! ### Controllers across a call -/

/-- The call is the one that loads the controllers. -/
def Grabs (load : KextLoad) (alc : AlcEnabler) : Prop :=
  alc.progressState.controllersLoaded = false ∧ ∃ k, Proceeds cfg load k

theorem controllers_of_grabs {load : KextLoad} {alc : AlcEnabler} (h : Grabs cfg load alc) :
    (processKext cfg load alc).1.controllers =
      (alc.controllers ++ (grabbed cfg.lilu load).toList).map
        (bindController load.modelType alc.controllerMod) := by
  obtain ⟨hload, k, hk⟩ := h
  rw [(processKext_same cfg hk alc).controllers, detect_controllers cfg hload, grabControllers_eq]

theorem controllers_of_not_grabs {load : KextLoad} {alc : AlcEnabler} (h : ¬Grabs cfg load alc) :
    (processKext cfg load alc).1.controllers = alc.controllers := by
  by_cases hproceeds : ∃ k, Proceeds cfg load k
  · obtain ⟨k, hk⟩ := hproceeds
    rw [(processKext_same cfg hk alc).controllers]
    rcases detect_cases cfg load k alc with ⟨hload, -⟩ | ⟨-, -, -, hd⟩ | ⟨-, -, hd⟩
    · exact absurd ⟨hload, k, hk⟩ h
    · rw [hd]
    · rw [hd]
  · rw [processKext_of_not_proceeds cfg (not_exists.mp hproceeds)]

/-- Controllers stay loaded. -/
theorem controllersLoaded_step (load : KextLoad) {alc : AlcEnabler}
    (h : alc.progressState.controllersLoaded = true) :
    (processKext cfg load alc).1.progressState.controllersLoaded = true := by
  by_cases hproceeds : ∃ k, Proceeds cfg load k
  · obtain ⟨k, hk⟩ := hproceeds
    rw [(processKext_same cfg hk alc).controllersLoaded, detect_loaded]
  · rw [processKext_of_not_proceeds cfg (not_exists.mp hproceeds)]
    exact h

/-- A call that proceeds leaves the controllers loaded. -/
theorem controllersLoaded_of_proceeds {load : KextLoad} {k : ℕ} (hk : Proceeds cfg load k)
    (alc : AlcEnabler) :
    (processKext cfg load alc).1.progressState.controllersLoaded = true := by
  rw [(processKext_same cfg hk alc).controllersLoaded, detect_loaded]

/-- HDEF is in the inventory of the call, with readable ids and a readable layout. -/
def AnalogReadable (lilu : Lilu) (load : KextLoad) : Prop :=
  let sect := load.registry .audioBuiltinAnalog
  (∃ info, load.devInfo = some info ∧ info.audioBuiltinAnalog = true) ∧
    (lilu.read sect "vendor-id").isSome ∧ (lilu.read sect "device-id").isSome ∧
    (lilu.read sect "revision-id").isSome ∧ (lilu.read sect "alc-layout-id").isSome

/-- The analog controller is registered exactly when HDEF is readable. -/
theorem grabbed_isSome (lilu : Lilu) (load : KextLoad) :
    (grabbed lilu load).isSome ↔ AnalogReadable lilu load := by
  unfold grabbed AnalogReadable
  cases load.devInfo with
  | none => simp
  | some info =>
      simp only [Option.bind_some, Option.some.injEq, exists_eq_left', analogRecord]
      cases info.audioBuiltinAnalog <;>
        cases lilu.read (load.registry .audioBuiltinAnalog) "vendor-id" <;>
        cases lilu.read (load.registry .audioBuiltinAnalog) "device-id" <;>
        cases lilu.read (load.registry .audioBuiltinAnalog) "revision-id" <;>
        cases lilu.read (load.registry .audioBuiltinAnalog) "alc-layout-id" <;> simp

/-- **Where a controller comes from.**  After a call it is one that was there before, or the analog
one that this call registered; binding it to a mod is all that happened to it since. -/
theorem mem_controllers_step {load : KextLoad} {alc : AlcEnabler} {c' : ControllerInfo}
    (h : c' ∈ (processKext cfg load alc).1.controllers) :
    ∃ c info, c' = { c with info := info } ∧ (c ∈ alc.controllers ∨
      Grabs cfg load alc ∧ grabbed cfg.lilu load = some c) := by
  by_cases hgrabs : Grabs cfg load alc
  · rw [controllers_of_grabs cfg hgrabs] at h
    obtain ⟨c, hc, rfl⟩ := List.mem_map.mp h
    obtain ⟨info, hinfo⟩ := bindController_eq load.modelType alc.controllerMod c
    refine ⟨c, info, hinfo, ?_⟩
    rcases List.mem_append.mp hc with hc | hc
    · exact Or.inl hc
    · exact Or.inr ⟨hgrabs, Option.mem_toList.mp hc⟩
  · rw [controllers_of_not_grabs cfg hgrabs] at h
    exact ⟨c', c'.info, rfl, Or.inl h⟩

end AppleALC
