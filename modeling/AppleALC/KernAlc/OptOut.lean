import AppleALC.KernAlc.Stages

/-!
# Opting a device out

Two properties keep AppleALC away from a device: `no-controller-inject` keeps it from being touched
and registered, `no-controller-patch` keeps its controller from being patched.  The three
registration sites of `updateProperties` honour both.  The fourth, in `grabControllers`, honours
neither: it registers HDEF without `validateInjection`, and it passes the no-controller-patch test
in the place of the platform.

So both guarantees hold of the runs in which the call that loads the controllers finds no readable
HDEF that was opted out, and the results below say that with a condition on the steps of a run.

* `GrabsWilling` / `submitsForWilling_of_grabsWilling` — in runs without an opted-out HDEF, what is
  submitted belongs to a controller that may be patched;
* `Unregistered` — no controller comes from the device;
* `ignored_iff_grabsOther` — an opted-out device is ignored exactly if no call registers it.
-/

namespace AppleALC

open OutputMachine

variable (cfg : Config) (boot : Boot) (table : List ControllerModInfo)

/-- The plugin after `updateProperties` and the `processKext` calls `loads`. -/
def stateAfter (loads : List KextLoad) : AlcEnabler :=
  run (processKext cfg) loads (bootAlc cfg.lilu boot table)

/-- The call registers the analog controller. -/
def GrabsAnalog (load : KextLoad) (alc : AlcEnabler) : Prop :=
  Grabs cfg load alc ∧ AnalogReadable cfg.lilu load

theorem grabsAnalog_of_grabbed {load : KextLoad} {alc : AlcEnabler} {c : ControllerInfo}
    (hgrabs : Grabs cfg load alc) (hc : grabbed cfg.lilu load = some c) :
    GrabsAnalog cfg load alc :=
  ⟨hgrabs, (grabbed_isSome cfg.lilu load).mp (by rw [hc]; rfl)⟩

/-! ### no-controller-patch -/

/-- Every patch submitted by a controller loop has a controller behind it that is bound to its mod
and was registered from a device without no-controller-patch. -/
def SubmitsForWilling (loads : List KextLoad) : Prop :=
  ∀ pre load post, loads = pre ++ load :: post → ∀ mod j p,
    .controllerPatch mod j p ∈ (processKext cfg load (stateAfter cfg boot table pre)).2 →
    ∃ c ∈ (processKext cfg load (stateAfter cfg boot table pre)).1.controllers,
      c.info = some mod ∧ c.entry.properties "no-controller-patch" = none

/-- A controller that is not skipped comes from a device without no-controller-patch. -/
def NopatchKept (alc : AlcEnabler) : Prop :=
  ∀ c ∈ alc.controllers, c.nopatch = false → c.entry.properties "no-controller-patch" = none

/-- The condition on a call: if it registers HDEF, then HDEF has no no-controller-patch. -/
def GrabsWilling (load : KextLoad) (alc : AlcEnabler) : Prop :=
  GrabsAnalog cfg load alc → load.registry .audioBuiltinAnalog "no-controller-patch" = none

theorem bootAlc_nopatchKept : NopatchKept (bootAlc cfg.lilu boot table) := by
  intro c hc hnopatch
  have hreg := (updateProperties_booted cfg.lilu boot table).controllers c hc
  rw [hreg.nopatch] at hnopatch
  simpa using hnopatch

theorem nopatchKept_step {load : KextLoad} {alc : AlcEnabler} (hcond : GrabsWilling cfg load alc)
    (h : NopatchKept alc) : NopatchKept (processKext cfg load alc).1 := by
  intro c' hc' hnopatch
  obtain ⟨c, info, rfl, hc | ⟨hgrabs, hc⟩⟩ := mem_controllers_step cfg hc'
  · exact h c hc hnopatch
  · have hentry := (grabbed_spec hc).1
    show c.entry.properties "no-controller-patch" = none
    rw [hentry]
    exact hcond (grabsAnalog_of_grabbed cfg hgrabs hc)

/-- What one call submits, once the controllers it leaves are known to keep the flag. -/
theorem willing_of_nopatchKept {load : KextLoad} {alc : AlcEnabler} {mod j : ℕ} {p : LookupPatch}
    (h : NopatchKept (processKext cfg load alc).1)
    (he : .controllerPatch mod j p ∈ (processKext cfg load alc).2) :
    ∃ c ∈ (processKext cfg load alc).1.controllers,
      c.info = some mod ∧ c.entry.properties "no-controller-patch" = none := by
  obtain ⟨k, pre, c, post, hk, hsplit, he⟩ := (mem_processKext_controllerPatch cfg).mp he
  obtain ⟨hinfo, hnopatch, -⟩ := (mem_patchController cfg).mp he
  have hc : c ∈ (processKext cfg load alc).1.controllers := by
    rw [(processKext_same cfg hk alc).controllers, hsplit]
    simp
  exact ⟨c, hc, hinfo, h c hc hnopatch⟩

/-- **No patch for an opted-out controller.**  It holds of every run in which the call that
registers HDEF finds no no-controller-patch on it. -/
theorem submitsForWilling_of_grabsWilling (loads : List KextLoad)
    (hcond : AllSteps (processKext cfg) (GrabsWilling cfg) loads (bootAlc cfg.lilu boot table)) :
    SubmitsForWilling cfg boot table loads := by
  intro pre load post hsplit mod j p he
  have hpre : NopatchKept (stateAfter cfg boot table pre) :=
    run_invariant_of_steps (fun _ _ hC h => nopatchKept_step cfg hC h)
      (AllSteps.of_append (hsplit ▸ hcond)) (bootAlc_nopatchKept cfg boot table)
  exact willing_of_nopatchKept cfg (nopatchKept_step cfg (hcond pre load post hsplit) hpre) he

/-- The condition is met by the sample board without flags. -/
theorem submitsForWilling_sample :
    SubmitsForWilling Sample.config (Sample.boot []) Sample.controllerMod
      [Sample.load [] 12, Sample.load [] 11] :=
  submitsForWilling_of_grabsWilling Sample.config (Sample.boot []) Sample.controllerMod
    [Sample.load [] 12, Sample.load [] 11] (by
      intro pre load post hsplit _
      have hmem : load ∈ [Sample.load [] 12, Sample.load [] 11] := by rw [hsplit]; simp
      simp only [List.mem_cons, List.not_mem_nil, or_false] at hmem
      rcases hmem with rfl | rfl <;> rfl)

/-- With no-controller-patch on HDEF its patch is submitted all the same, and there is no other
controller it could be for. -/
theorem not_submitsForWilling_sample :
    ¬SubmitsForWilling Sample.config (Sample.boot ["no-controller-patch"]) Sample.controllerMod
      [Sample.load ["no-controller-patch"] 12] := by
  intro h
  obtain ⟨c, hc, -, hnone⟩ := h [] (Sample.load ["no-controller-patch"] 12) [] rfl 0 0
    { kext := 2, find := [0x70, 0xA1], replace := [0x20, 0x8C], size := 2, count := 1 } (by decide)
  have hall : ∀ c ∈ (processKext Sample.config (Sample.load ["no-controller-patch"] 12)
      (stateAfter Sample.config (Sample.boot ["no-controller-patch"]) Sample.controllerMod
        [])).1.controllers, (c.entry.properties "no-controller-patch").isSome = true :=
    List.all_eq_true.mp (by decide)
  have hsome := hall c hc
  rw [hnone] at hsome
  exact absurd hsome (by decide)

/-! ### no-controller-inject -/

/-- The device is ignored: nothing is done to it, and no controller comes from it. -/
def Ignored (loads : List KextLoad) (d : Device) : Prop :=
  (∀ e ∈ (updateProperties cfg.lilu boot { controllerMod := table }).effects, e.device ≠ d) ∧
    ∀ pre post, loads = pre ++ post → ∀ c ∈ (stateAfter cfg boot table pre).controllers,
      c.entry.device ≠ d

/-- No controller comes from the device. -/
def Unregistered (d : Device) (alc : AlcEnabler) : Prop :=
  ∀ c ∈ alc.controllers, c.entry.device ≠ d

/-- The condition on a call: it does not register the device. -/
def GrabsOther (d : Device) (load : KextLoad) (alc : AlcEnabler) : Prop :=
  GrabsAnalog cfg load alc → d ≠ .audioBuiltinAnalog

theorem bootAlc_unregistered {d : Device} (hopt : OptedOut boot.registry d) :
    Unregistered d (bootAlc cfg.lilu boot table) := by
  intro c hc hd
  have hreg := (updateProperties_booted cfg.lilu boot table).controllers c hc
  exact hreg.notOptedOut (by rw [hd]; exact hopt)

theorem unregistered_step {d : Device} {load : KextLoad} {alc : AlcEnabler}
    (hcond : GrabsOther cfg d load alc) (h : Unregistered d alc) :
    Unregistered d (processKext cfg load alc).1 := by
  intro c' hc'
  obtain ⟨c, info, rfl, hc | ⟨hgrabs, hc⟩⟩ := mem_controllers_step cfg hc'
  · exact h c hc
  · show c.entry.device ≠ d
    rw [(grabbed_spec hc).1]
    exact (hcond (grabsAnalog_of_grabbed cfg hgrabs hc)).symm

/-- A call that registers the analog controller leaves one that comes from HDEF. -/
theorem registered_of_grabsAnalog {load : KextLoad} {alc : AlcEnabler}
    (h : GrabsAnalog cfg load alc) :
    ∃ c ∈ (processKext cfg load alc).1.controllers, c.entry.device = .audioBuiltinAnalog := by
  obtain ⟨hgrabs, hreadable⟩ := h
  obtain ⟨c, hc⟩ := Option.isSome_iff_exists.mp ((grabbed_isSome cfg.lilu load).mpr hreadable)
  refine ⟨bindController load.modelType alc.controllerMod c, ?_, ?_⟩
  · rw [controllers_of_grabs cfg hgrabs, hc]
    exact List.mem_map_of_mem (by simp)
  · rw [bindController_entry, (grabbed_spec hc).1]

/-- **An opted-out device is ignored exactly as long as no call registers it as HDEF.**  For HDAU
and the external audio functions the right side always holds; what the registry shows after the boot
makes no difference. -/
theorem ignored_iff_grabsOther (loads : List KextLoad) (d : Device)
    (hopt : OptedOut boot.registry d) :
    Ignored cfg boot table loads d ↔
      AllSteps (processKext cfg) (GrabsOther cfg d) loads (bootAlc cfg.lilu boot table) := by
  constructor
  · rintro ⟨-, hstates⟩ pre load post hsplit hgrabs rfl
    obtain ⟨c, hc, hd⟩ := registered_of_grabsAnalog cfg hgrabs
    refine hstates (pre ++ [load]) post (by simp [hsplit]) c ?_ hd
    simpa [stateAfter, run_append] using hc
  · intro hcond
    constructor
    · intro e he hd
      exact (updateProperties_booted cfg.lilu boot table).effects e he (by rw [hd]; exact hopt)
    · intro pre post hsplit
      exact run_invariant_of_steps (fun _ _ hC h => unregistered_step cfg hC h)
        (AllSteps.of_append (hsplit ▸ hcond)) (bootAlc_unregistered cfg boot table hopt)

/-- HDEF of the sample board is opted out, and registered by the first call. -/
theorem ignored_iff_grabsOther_sample :
    Ignored Sample.config (Sample.boot ["no-controller-inject"]) Sample.controllerMod
        [Sample.load ["no-controller-inject"] 12] .audioBuiltinAnalog ↔
      AllSteps (processKext Sample.config) (GrabsOther Sample.config .audioBuiltinAnalog)
        [Sample.load ["no-controller-inject"] 12]
        (bootAlc Sample.config.lilu (Sample.boot ["no-controller-inject"]) Sample.controllerMod) :=
  ignored_iff_grabsOther Sample.config (Sample.boot ["no-controller-inject"]) Sample.controllerMod
    [Sample.load ["no-controller-inject"] 12] .audioBuiltinAnalog ⟨trivial, by decide⟩

/-- HDEF carries no-controller-inject throughout, and becomes a controller. -/
theorem not_ignored_sample :
    OptedOut (Sample.boot ["no-controller-inject"]).registry .audioBuiltinAnalog ∧
      OptedOut (Sample.load ["no-controller-inject"] 12).registry .audioBuiltinAnalog ∧
      ¬Ignored Sample.config (Sample.boot ["no-controller-inject"]) Sample.controllerMod
        [Sample.load ["no-controller-inject"] 12] .audioBuiltinAnalog := by
  refine ⟨⟨trivial, by decide⟩, ⟨trivial, by decide⟩, ?_⟩
  rintro ⟨-, hstates⟩
  have hone : ∃ c ∈ (stateAfter Sample.config (Sample.boot ["no-controller-inject"])
      Sample.controllerMod [Sample.load ["no-controller-inject"] 12]).controllers,
      decide (c.entry.device = .audioBuiltinAnalog) = true :=
    List.any_eq_true.mp (by decide)
  obtain ⟨c, hc, hd⟩ := hone
  exact hstates _ [] (List.append_nil _).symm c hc (of_decide_eq_true hd)

end AppleALC
