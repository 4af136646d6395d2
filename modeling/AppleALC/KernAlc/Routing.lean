import AppleALC.KernAlc.Hooks
import AppleALC.KernAlc.CodecBinding

/-!
# Which hooks a call routes

Each hook belongs to one kext.  `gfxProbe` is asked for on every load of its kext, the hooks of
IOHDAFamily and AppleHDAController on the first load only, and the four hooks of AppleHDA on every
load once the detected codec is known to have files.  The last three depend on flags that earlier
calls raised, so the statement over runs needs to know what each flag says about the calls before.

* `asks_processKext` — the hooks that a call asks for, by the flags before it;
* `RoutingState` / `stateAfter_routing` — what the flags say about the calls so far;
* `asks_after` — the hooks that a call asks for, by the calls before it.
-/

namespace AppleALC

open OutputMachine

/-! ### The flags through one call -/

section Flags

variable (cfg : Config)

/-- Some codec has platforms or layouts. -/
def HasFiles (codecs : List CodecInfo) : Prop :=
  ∃ ci ∈ codecs, ∃ info, ci.info = some info ∧ (info.platformNum > 0 ∨ info.layoutNum > 0)

theorem patchCodecs_wants (index : ℕ) (codecs : List CodecInfo) :
    ∀ i, (patchCodecs cfg index i codecs).1 = true ↔ HasFiles codecs := by
  induction codecs with
  | nil => intro i; simp [patchCodecs, HasFiles]
  | cons ci cis ih =>
      intro i
      have hcons : HasFiles (ci :: cis) ↔
          (∃ info, ci.info = some info ∧ (info.platformNum > 0 ∨ info.layoutNum > 0)) ∨
            HasFiles cis := by
        simp only [HasFiles, List.mem_cons, exists_eq_or_imp]
      rw [hcons, ← ih (i + 1)]
      cases hinfo : ci.info with
      | none => simp only [patchCodecs, hinfo, reduceCtorEq, false_and, exists_false, false_or]
      | some info =>
          simp only [patchCodecs, hinfo, Bool.or_eq_true, decide_eq_true_eq, Option.some.injEq,
            exists_eq_left']

theorem patchLoop_progressState (index : ℕ) (cs : List ControllerInfo) (alc : AlcEnabler) :
    (run (patchController cfg index) cs alc).progressState = alc.progressState := by
  refine run_invariant (P := fun alc' : AlcEnabler => alc'.progressState = alc.progressState) ?_ cs
    rfl
  intro c alc' h
  unfold patchController
  split
  · exact h
  · split
    · exact h
    · simp only
      split <;> exact h

/-- The flags a hook of AppleHDA and the hooks routed once wait for. -/
structure SameFlags (alc alc' : AlcEnabler) : Prop where
  callbacksWantRouting :
    alc'.progressState.callbacksWantRouting = alc.progressState.callbacksWantRouting
  patchHDAFamily : alc'.progressState.patchHDAFamily = alc.progressState.patchHDAFamily
  patchHDAController : alc'.progressState.patchHDAController = alc.progressState.patchHDAController

theorem detect_flags (load : KextLoad) (kextIndex : ℕ) (alc : AlcEnabler) :
    SameFlags alc (detect cfg load kextIndex alc) := by
  rcases detect_cases cfg load kextIndex alc with ⟨_, h⟩ | ⟨_, _, _, h⟩ | ⟨_, _, h⟩
  · rw [h, grabControllers_eq]; exact ⟨rfl, rfl, rfl⟩
  · rw [h]; exact ⟨rfl, rfl, rfl⟩
  · rw [h]; exact ⟨rfl, rfl, rfl⟩

/-- The plugin when the hooks of a call are about to be routed. -/
def beforeRouting (load : KextLoad) (kextIndex : ℕ) (alc : AlcEnabler) : AlcEnabler :=
  (patchLoadedCodecs cfg load.index
    (patchControllers cfg load.index kextIndex (detect cfg load kextIndex alc)).1).1

theorem beforeRouting_eq (load : KextLoad) (kextIndex : ℕ) (alc : AlcEnabler) :
    SameDetection (detect cfg load kextIndex alc) (beforeRouting cfg load kextIndex alc) ∧
      ((beforeRouting cfg load kextIndex alc).progressState.callbacksWantRouting = true ↔
        alc.progressState.callbacksWantRouting = true ∨
          ((detect cfg load kextIndex alc).progressState.codecsLoaded = true ∧
            HasFiles (detect cfg load kextIndex alc).codecs)) ∧
      (beforeRouting cfg load kextIndex alc).progressState.patchHDAFamily =
        alc.progressState.patchHDAFamily ∧
      (beforeRouting cfg load kextIndex alc).progressState.patchHDAController =
        alc.progressState.patchHDAController := by
  have hflags := detect_flags cfg load kextIndex alc
  have hloop : (patchControllers cfg load.index kextIndex (detect cfg load kextIndex alc)).1 =
      run (patchController cfg load.index) (detect cfg load kextIndex alc).controllers
        (detect cfg load kextIndex alc) := by
    simp [patchControllers, detect_loaded]
  have hsame := patchLoop_same cfg load.index (detect cfg load kextIndex alc).controllers
    (detect cfg load kextIndex alc)
  have hprogress := patchLoop_progressState cfg load.index
    (detect cfg load kextIndex alc).controllers (detect cfg load kextIndex alc)
  unfold beforeRouting
  rw [hloop]
  refine ⟨hsame.trans (patchLoadedCodecs_same cfg load.index _).detection, ?_⟩
  unfold patchLoadedCodecs
  rw [hprogress, hsame.codecs]
  by_cases hloaded : (detect cfg load kextIndex alc).progressState.codecsLoaded = true
  · rw [if_pos hloaded]
    simp only [Bool.or_eq_true, patchCodecs_wants, hloaded, true_and,
      hflags.callbacksWantRouting, hflags.patchHDAFamily, hflags.patchHDAController, and_self]
  · rw [if_neg hloaded, hprogress]
    refine ⟨?_, hflags.patchHDAFamily, hflags.patchHDAController⟩
    rw [hflags.callbacksWantRouting]
    exact ⟨Or.inl, fun h => h.resolve_right fun hfiles => hloaded hfiles.1⟩

theorem routeHDAFamily_flags (index kextIndex : ℕ) (alc : AlcEnabler) :
    (routeHDAFamily cfg index kextIndex alc).1.progressState =
      { alc.progressState with patchHDAFamily :=
          alc.progressState.patchHDAFamily || decide (kextIndex = cfg.res.kextIdIOHDAFamily) } := by
  unfold routeHDAFamily
  split
  · next h => simp [h.2]
  · next h =>
    have hflag : (alc.progressState.patchHDAFamily ||
        decide (kextIndex = cfg.res.kextIdIOHDAFamily)) = alc.progressState.patchHDAFamily := by
      cases hf : alc.progressState.patchHDAFamily with
      | true => rfl
      | false => simpa [hf] using h
    rw [hflag]

theorem routeHDAController_flags (index kextIndex : ℕ) (alc : AlcEnabler) :
    (routeHDAController cfg index kextIndex alc).1.progressState =
      { alc.progressState with patchHDAController := (alc.progressState.patchHDAController ||
          decide (kextIndex = cfg.res.kextIdAppleHDAController)) } := by
  unfold routeHDAController
  split
  · next h => simp [h.2]
  · next h =>
    have hflag : (alc.progressState.patchHDAController ||
        decide (kextIndex = cfg.res.kextIdAppleHDAController)) =
          alc.progressState.patchHDAController := by
      cases hf : alc.progressState.patchHDAController with
      | true => rfl
      | false => simpa [hf] using h
    rw [hflag]

/-- What a call that proceeds leaves of the flags. -/
theorem processKext_progressState {load : KextLoad} {k : ℕ} (hk : Proceeds cfg load k)
    (alc : AlcEnabler) :
    (processKext cfg load alc).1.progressState =
      { (beforeRouting cfg load k alc).progressState with
        patchHDAFamily :=
          alc.progressState.patchHDAFamily || decide (k = cfg.res.kextIdIOHDAFamily)
        patchHDAController :=
          alc.progressState.patchHDAController || decide (k = cfg.res.kextIdAppleHDAController) } := by
  obtain ⟨-, -, hfamily, hcontroller⟩ := beforeRouting_eq cfg load k alc
  rw [← hfamily, ← hcontroller]
  unfold processKext
  rw [hk.1]
  simp only [if_neg hk.2]
  rw [← beforeRouting, routeHDAController_flags, routeHDAFamily_flags]

/-! ### What one call asks for -/

theorem not_asks_eraseRedundantLogs (hook : Hook) (kextIndex : ℕ) :
    ¬Asks hook (eraseRedundantLogs cfg kextIndex) := by
  rintro ⟨index, symbols, hmem, -⟩
  unfold eraseRedundantLogs at hmem
  simp only at hmem
  split at hmem <;> simp at hmem

theorem not_asks_logs (hook : Hook) (kextIndex : ℕ) :
    ¬Asks hook (if cfg.debugEnabled then [] else eraseRedundantLogs cfg kextIndex) := by
  split
  · exact asks_nil hook
  · exact not_asks_eraseRedundantLogs cfg hook kextIndex

theorem not_asks_patchControllers (hook : Hook) (index kextIndex : ℕ) (alc : AlcEnabler) :
    ¬Asks hook (patchControllers cfg index kextIndex alc).2 := by
  unfold patchControllers
  split
  · rw [asks_append]
    rintro (⟨index', symbols, hmem, -⟩ | hlogs)
    · obtain ⟨pre, c, post, -, hevent⟩ := mem_outputs.mp hmem
      unfold patchController at hevent
      split at hevent
      · exact absurd hevent (by simp)
      · split at hevent
        · exact absurd hevent (by simp)
        · simp only at hevent
          split at hevent <;> simp at hevent
    · exact not_asks_logs cfg hook kextIndex hlogs
  · exact asks_nil hook

theorem not_asks_patchLoadedCodecs (hook : Hook) (index : ℕ) (alc : AlcEnabler) :
    ¬Asks hook (patchLoadedCodecs cfg index alc).2 := by
  rintro ⟨index', symbols, hmem, -⟩
  obtain ⟨ci, j, p, hevent⟩ :=
    patchCodecs_events cfg index alc.codecs 0 _ ((mem_patchLoadedCodecs cfg).mp hmem).2
  exact absurd hevent (by simp)

/-- The hooks of AppleHDA. -/
def Hook.IsAppleHDA : Hook → Prop
  | layoutLoadCallback | platformLoadCallback | performPowerChange | initializePinConfig => True
  | gfxProbe | ioHDACodecDeviceExecuteVerb | appleHDAControllerStart => False

theorem asks_routeAppleHDA (hook : Hook) (index kextIndex : ℕ) (alc : AlcEnabler) :
    Asks hook (routeAppleHDA cfg index kextIndex alc) ↔
      (alc.progressState.callbacksWantRouting = true ∧ kextIndex = cfg.res.kextIdAppleHDA) ∧
        hook.IsAppleHDA := by
  unfold routeAppleHDA
  split
  · next h =>
    rw [← List.singleton_append, asks_append, asks_route,
      or_iff_left (not_asks_logs cfg hook kextIndex), and_iff_right h]
    cases hook <;> simp [Hook.symbol, Hook.IsAppleHDA]
  · next h => exact iff_of_false (asks_nil hook) fun hasks => h hasks.1

theorem asks_routeHDAFamily (hook : Hook) (index kextIndex : ℕ) (alc : AlcEnabler) :
    Asks hook (routeHDAFamily cfg index kextIndex alc).2 ↔
      (alc.progressState.patchHDAFamily = false ∧ kextIndex = cfg.res.kextIdIOHDAFamily) ∧
        hook = .ioHDACodecDeviceExecuteVerb := by
  unfold routeHDAFamily
  simp only [Bool.not_eq_true']
  split
  · next h =>
    rw [asks_route, and_iff_right h]
    cases hook <;> simp [Hook.symbol]
  · next h => exact iff_of_false (asks_nil hook) fun hasks => h hasks.1

theorem asks_routeHDAController (hook : Hook) (index kextIndex : ℕ) (alc : AlcEnabler) :
    Asks hook (routeHDAController cfg index kextIndex alc).2 ↔
      (alc.progressState.patchHDAController = false ∧
        kextIndex = cfg.res.kextIdAppleHDAController) ∧ hook = .appleHDAControllerStart := by
  unfold routeHDAController
  simp only [Bool.not_eq_true']
  split
  · next h =>
    rw [asks_route, and_iff_right h]
    cases hook <;> simp [Hook.symbol]
  · next h => exact iff_of_false (asks_nil hook) fun hasks => h hasks.1

/-- **What one call asks for**, by the flags it meets. -/
theorem asks_processKext (hook : Hook) (load : KextLoad) (alc : AlcEnabler) :
    Asks hook (processKext cfg load alc).2 ↔
      (cfg.res.kextSlot load.index = some cfg.res.kextIdAppleGFXHDA ∧ hook = .gfxProbe) ∨
      ∃ k, Proceeds cfg load k ∧
        (((beforeRouting cfg load k alc).progressState.callbacksWantRouting = true ∧
            k = cfg.res.kextIdAppleHDA) ∧ hook.IsAppleHDA ∨
          (alc.progressState.patchHDAFamily = false ∧ k = cfg.res.kextIdIOHDAFamily) ∧
            hook = .ioHDACodecDeviceExecuteVerb ∨
          (alc.progressState.patchHDAController = false ∧
            k = cfg.res.kextIdAppleHDAController) ∧ hook = .appleHDAControllerStart) := by
  cases hslot : cfg.res.kextSlot load.index with
  | none =>
      unfold processKext
      rw [hslot]
      refine iff_of_false (asks_nil hook) ?_
      rintro (⟨h, -⟩ | ⟨k, ⟨h, -⟩, -⟩)
      · exact absurd h (by simp)
      · rw [hslot] at h
        exact absurd h (by simp)
  | some k =>
      by_cases hgfx : k = cfg.res.kextIdAppleGFXHDA
      · have hno : ∀ k', ¬Proceeds cfg load k' := by
          rintro k' ⟨hk', hne⟩
          rw [hslot, Option.some.injEq] at hk'
          exact hne (hk' ▸ hgfx)
        unfold processKext
        rw [hslot]
        simp only [if_pos hgfx, hno, false_and, exists_false, or_false]
        rw [asks_route, hgfx]
        cases hook <;> simp [Hook.symbol]
      · have hk : Proceeds cfg load k := ⟨hslot, hgfx⟩
        have hproceeds : ∀ k', Proceeds cfg load k' ↔ k' = k := by
          intro k'
          refine ⟨fun h => Option.some.inj (h.1.symm.trans hslot), ?_⟩
          rintro rfl
          exact hk
        obtain ⟨-, -, hfamily, hcontroller⟩ := beforeRouting_eq cfg load k alc
        simp only [hproceeds, exists_eq_left, Option.some.injEq, hgfx, false_and, false_or]
        unfold processKext
        rw [hslot]
        simp only [if_neg hgfx, asks_append, not_asks_patchControllers, not_asks_patchLoadedCodecs,
          false_or, asks_routeAppleHDA, asks_routeHDAFamily, asks_routeHDAController]
        rw [← beforeRouting, routeHDAFamily_flags, hfamily, hcontroller, or_assoc]

end Flags

/-! ### What the flags say about the calls before -/

section Histories

variable (cfg : Config) (boot : Boot) (table : List ControllerModInfo)

/-- The flags of routing after the calls `loads`. -/
structure RoutingState (loads : List KextLoad) (alc : AlcEnabler) : Prop where
  family : alc.progressState.patchHDAFamily = true ↔
    ∃ load ∈ loads, Proceeds cfg load cfg.res.kextIdIOHDAFamily
  controller : alc.progressState.patchHDAController = true ↔
    ∃ load ∈ loads, Proceeds cfg load cfg.res.kextIdAppleHDAController
  wants : alc.progressState.callbacksWantRouting = true ↔
    alc.progressState.codecsLoaded = true ∧ HasFiles alc.codecs

theorem bootAlc_routing : RoutingState cfg [] (bootAlc cfg.lilu boot table) := by
  have hprogress : (bootAlc cfg.lilu boot table).progressState = {} :=
    (updateProperties_booted cfg.lilu boot table).progressState
  refine { family := ?_, controller := ?_, wants := ?_ }
  · simp [hprogress]
  · simp [hprogress]
  · simp [hprogress]

/-- Before the hooks are routed, the third flag already says what it says between calls. -/
theorem RoutingState.beforeRouting_wants {cfg : Config} {loads : List KextLoad} {alc : AlcEnabler}
    (h : RoutingState cfg loads alc) (load : KextLoad) (k : ℕ) :
    (beforeRouting cfg load k alc).progressState.callbacksWantRouting = true ↔
      (beforeRouting cfg load k alc).progressState.codecsLoaded = true ∧
        HasFiles (beforeRouting cfg load k alc).codecs := by
  obtain ⟨hsame, hwants, -, -⟩ := beforeRouting_eq cfg load k alc
  rw [hwants, h.wants, hsame.codecs, hsame.codecsLoaded]
  refine ⟨fun hor => hor.elim (fun hold => ?_) id, Or.inr⟩
  -- codecs that were loaded before are not looked for again
  rcases detect_cases cfg load k alc with ⟨hcontrollers, hd⟩ | ⟨-, hcodecs, -, -⟩ | ⟨-, -, hd⟩
  · rw [hd, grabControllers_eq]
    exact hold
  · rw [hcodecs] at hold
    exact absurd hold.1 (by decide)
  · rw [hd]
    exact hold

/-- What one call does to the flags. -/
theorem RoutingState.step {cfg : Config} {loads : List KextLoad} {alc : AlcEnabler}
    (h : RoutingState cfg loads alc) (load : KextLoad) :
    RoutingState cfg (loads ++ [load]) (processKext cfg load alc).1 := by
  have hlast : ∀ kext : ℕ, (∃ load' ∈ loads ++ [load], Proceeds cfg load' kext) ↔
      (∃ load' ∈ loads, Proceeds cfg load' kext) ∨ Proceeds cfg load kext := by
    intro kext
    simp [or_and_right, exists_or]
  by_cases hproceeds : ∃ k, Proceeds cfg load k
  · obtain ⟨k, hk⟩ := hproceeds
    have hslot : ∀ kext, Proceeds cfg load kext ↔ k = kext := by
      intro kext
      refine ⟨fun h' => Option.some.inj (hk.1.symm.trans h'.1), ?_⟩
      rintro rfl
      exact hk
    obtain ⟨hsame, -, -, -⟩ := beforeRouting_eq cfg load k alc
    have hcodecs := (processKext_same cfg hk alc).codecs
    refine { family := ?_, controller := ?_, wants := ?_ }
    · rw [processKext_progressState cfg hk, hlast, ← h.family, hslot]
      simp
    · rw [processKext_progressState cfg hk, hlast, ← h.controller, hslot]
      simp
    · rw [processKext_progressState cfg hk, hcodecs, ← hsame.codecs]
      exact h.beforeRouting_wants load k
  · rw [not_exists] at hproceeds
    rw [processKext_of_not_proceeds cfg hproceeds]
    refine { family := ?_, controller := ?_, wants := h.wants }
    · rw [hlast, or_iff_left (hproceeds _)]
      exact h.family
    · rw [hlast, or_iff_left (hproceeds _)]
      exact h.controller

theorem stateAfter_routing (loads : List KextLoad) :
    RoutingState cfg loads (stateAfter cfg boot table loads) :=
  run_history (P := fun pre alc => RoutingState cfg pre alc) (bootAlc_routing cfg boot table)
    (fun _ load h => h.step load) loads

/-- **What a call asks for, by the calls before it.**  After any calls `loads`, a call asks for
`gfxProbe` if it loads AppleGFXHDA; for the hooks of IOHDAFamily and AppleHDAController if it is the
first that loads their kext; and for the hooks of AppleHDA if it loads AppleHDA and leaves a loaded
codec that has files. -/
theorem asks_after (loads : List KextLoad) (load : KextLoad) (hook : Hook) :
    Asks hook (processKext cfg load (stateAfter cfg boot table loads)).2 ↔
      match hook with
      | .gfxProbe => cfg.res.kextSlot load.index = some cfg.res.kextIdAppleGFXHDA
      | .ioHDACodecDeviceExecuteVerb => Proceeds cfg load cfg.res.kextIdIOHDAFamily ∧
          ∀ earlier ∈ loads, ¬Proceeds cfg earlier cfg.res.kextIdIOHDAFamily
      | .appleHDAControllerStart => Proceeds cfg load cfg.res.kextIdAppleHDAController ∧
          ∀ earlier ∈ loads, ¬Proceeds cfg earlier cfg.res.kextIdAppleHDAController
      | .layoutLoadCallback | .platformLoadCallback | .performPowerChange | .initializePinConfig =>
          Proceeds cfg load cfg.res.kextIdAppleHDA ∧
            (stateAfter cfg boot table (loads ++ [load])).progressState.codecsLoaded = true ∧
            HasFiles (stateAfter cfg boot table (loads ++ [load])).codecs := by
  have hstate := stateAfter_routing cfg boot table loads
  have hcodecs : (∃ k, Proceeds cfg load k ∧
        (beforeRouting cfg load k (stateAfter cfg boot table loads)).progressState.callbacksWantRouting
          = true ∧ k = cfg.res.kextIdAppleHDA) ↔
      Proceeds cfg load cfg.res.kextIdAppleHDA ∧
        (stateAfter cfg boot table (loads ++ [load])).progressState.codecsLoaded = true ∧
        HasFiles (stateAfter cfg boot table (loads ++ [load])).codecs := by
    have hafter : stateAfter cfg boot table (loads ++ [load]) =
        (processKext cfg load (stateAfter cfg boot table loads)).1 := by
      rw [stateAfter_append]
      rfl
    constructor
    · rintro ⟨k, hk, hwants, rfl⟩
      obtain ⟨hsame, -, -, -⟩ := beforeRouting_eq cfg load _ (stateAfter cfg boot table loads)
      have hdetected := processKext_same cfg hk (stateAfter cfg boot table loads)
      rw [hstate.beforeRouting_wants load, hsame.codecsLoaded, hsame.codecs,
        ← hdetected.codecsLoaded, ← hdetected.codecs, ← hafter] at hwants
      exact ⟨hk, hwants⟩
    · rintro ⟨hk, hwants⟩
      obtain ⟨hsame, -, -, -⟩ := beforeRouting_eq cfg load _ (stateAfter cfg boot table loads)
      have hdetected := processKext_same cfg hk (stateAfter cfg boot table loads)
      refine ⟨_, hk, ?_, rfl⟩
      rw [hstate.beforeRouting_wants load, hsame.codecsLoaded, hsame.codecs,
        ← hdetected.codecsLoaded, ← hdetected.codecs, ← hafter]
      exact hwants
  have honce : ∀ (flag : Bool) (kext : ℕ),
      (flag = true ↔ ∃ earlier ∈ loads, Proceeds cfg earlier kext) →
      ((∃ k, Proceeds cfg load k ∧ flag = false ∧ k = kext) ↔
        Proceeds cfg load kext ∧ ∀ earlier ∈ loads, ¬Proceeds cfg earlier kext) := by
    intro flag kext hflag
    have hfalse : flag = false ↔ ∀ earlier ∈ loads, ¬Proceeds cfg earlier kext := by
      rw [← Bool.not_eq_true, hflag]
      simp only [not_exists, not_and]
    rw [← hfalse]
    constructor
    · rintro ⟨k, hk, hno, rfl⟩
      exact ⟨hk, hno⟩
    · rintro ⟨hk, hno⟩
      exact ⟨kext, hk, hno, rfl⟩
  rw [asks_processKext]
  cases hook with
  | gfxProbe => simp [Hook.IsAppleHDA]
  | ioHDACodecDeviceExecuteVerb => simpa [Hook.IsAppleHDA] using honce _ _ hstate.family
  | appleHDAControllerStart => simpa [Hook.IsAppleHDA] using honce _ _ hstate.controller
  | layoutLoadCallback => simpa [Hook.IsAppleHDA] using hcodecs
  | platformLoadCallback => simpa [Hook.IsAppleHDA] using hcodecs
  | performPowerChange => simpa [Hook.IsAppleHDA] using hcodecs
  | initializePinConfig => simpa [Hook.IsAppleHDA] using hcodecs

end Histories

end AppleALC
