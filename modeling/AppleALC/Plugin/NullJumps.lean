import AppleALC.Plugin

/-!
# Trampolines are there when they are used

A hook is only entered after its function was routed, so the trampoline of its own original is there.
Two jumps go through the trampoline of another hook.  The replay in `performPowerChange` uses the one
of `initializePinConfig`: it is for codecs that are marked, and only that hook marks codecs.  A user
client uses the one of `executeVerb`, and nothing ties the two together.

* `FamilyRouted` / `familyRouted_run` — the trampoline of the verb hook, after any calls;
* `MarkedRouted` / `MarkedRouted.step` — if a codec is marked, the hook that marks was routed;
* `null_jumps` — the jumps to address zero are those of clients before the verb hook was routed.
-/

namespace AppleALC

open PropertyStore OutputMachine

variable {ε : Type*}

section Trampolines

variable {cfg : PluginConfig}

/-! ### The trampoline of the verb hook -/

/-- The verb hook after the calls `pre`. -/
structure FamilyRouted (cfg : PluginConfig) (pre : List (Upcall ε)) (s : Plugin ε) : Prop where
  flag : s.alc.progressState.patchHDAFamily = (pre.findSome? (Upcall.familyLoad cfg)).isSome
  trampoline : s.org .ioHDACodecDeviceExecuteVerb = (familyTrampoline cfg pre).getD 0

/-- Loading a kext only matters for the verb hook when the kext is IOHDAFamily, and then only the
first time. -/
theorem FamilyRouted.processKext {pre : List (Upcall ε)} {s s' : Plugin ε}
    (h : FamilyRouted cfg pre s) {load : KextLoad} {routed : String → Option UInt64}
    (halc : s'.alc = (AppleALC.processKext cfg.toConfig load s.alc).1)
    (horg : s'.org = s.org.requests routed (AppleALC.processKext cfg.toConfig load s.alc).2) :
    FamilyRouted cfg (pre ++ [.processKext load routed]) s' := by
  have hasks : Asks .ioHDACodecDeviceExecuteVerb (AppleALC.processKext cfg.toConfig load s.alc).2 ↔
      s.alc.progressState.patchHDAFamily = false ∧
        Proceeds cfg.toConfig load cfg.res.kextIdIOHDAFamily := by
    rw [asks_processKext]
    simp only [reduceCtorEq, and_false, Hook.IsAppleHDA, false_or, and_true, or_false]
    constructor
    · rintro ⟨k, hk, hflag, rfl⟩
      exact ⟨hflag, hk⟩
    · rintro ⟨hflag, hk⟩
      exact ⟨_, hk, hflag, rfl⟩
  by_cases hfamily : Proceeds cfg.toConfig load cfg.res.kextIdIOHDAFamily
  · have hload : (Upcall.processKext load routed : Upcall ε).familyLoad cfg =
        some (routed Hook.ioHDACodecDeviceExecuteVerb.symbol) := if_pos hfamily
    have hflag : s'.alc.progressState.patchHDAFamily = true := by
      rw [halc, processKext_progressState _ hfamily]
      simp
    cases hfirst : pre.findSome? (Upcall.familyLoad cfg) with
    | none =>
        have hold : s.alc.progressState.patchHDAFamily = false := by rw [h.flag, hfirst]; rfl
        have hnull : s.org .ioHDACodecDeviceExecuteVerb = 0 := by
          rw [h.trampoline, familyTrampoline, hfirst]; rfl
        refine ⟨?_, ?_⟩
        · rw [hflag, List.findSome?_append, hfirst, List.findSome?_singleton, hload]; rfl
        · rw [horg, Trampolines.requests_of_asks (hasks.mpr ⟨hold, hfamily⟩), hnull,
            familyTrampoline, List.findSome?_append, hfirst, List.findSome?_singleton, hload]
          rfl
    | some first =>
        have hold : s.alc.progressState.patchHDAFamily = true := by rw [h.flag, hfirst]; rfl
        have hno : ¬Asks .ioHDACodecDeviceExecuteVerb
            (AppleALC.processKext cfg.toConfig load s.alc).2 := by
          rw [hasks, hold]
          simp
        refine ⟨?_, ?_⟩
        · rw [hflag, List.findSome?_append, hfirst]; rfl
        · rw [horg, Trampolines.requests_of_not_asks hno, h.trampoline, familyTrampoline,
            familyTrampoline, List.findSome?_append, hfirst]
          rfl
  · have hload : (Upcall.processKext load routed : Upcall ε).familyLoad cfg = none :=
      if_neg hfamily
    have hsame : (pre ++ [Upcall.processKext load routed]).findSome? (Upcall.familyLoad cfg) =
        pre.findSome? (Upcall.familyLoad cfg) := by
      rw [List.findSome?_append, List.findSome?_singleton, hload, Option.or_none]
    refine ⟨?_, ?_⟩
    · rw [hsame, ← h.flag, halc]
      by_cases hproceeds : ∃ k, Proceeds cfg.toConfig load k
      · obtain ⟨k, hk⟩ := hproceeds
        have hne : k ≠ cfg.res.kextIdIOHDAFamily := by
          rintro rfl
          exact hfamily hk
        rw [processKext_progressState _ hk]
        simp [hne]
      · rw [processKext_of_not_proceeds _ (not_exists.mp hproceeds)]
    · have hno : ¬Asks .ioHDACodecDeviceExecuteVerb
          (AppleALC.processKext cfg.toConfig load s.alc).2 := fun hask => hfamily (hasks.mp hask).2
      rw [horg, Trampolines.requests_of_not_asks hno, h.trampoline, familyTrampoline,
        familyTrampoline, hsame]

/-- A trampoline of the verb hook that is there is not null. -/
theorem familyTrampoline_ne_zero {calls : List (Upcall ε)} (htame : ∀ call ∈ calls, call.Tame)
    {address : UInt64} (h : familyTrampoline cfg calls = some address) : address ≠ 0 := by
  rw [familyTrampoline, Option.join_eq_some_iff] at h
  obtain ⟨call, hcall, hload⟩ := List.exists_of_findSome?_eq_some h
  cases call with
  | processKext load routed =>
      simp only [Upcall.familyLoad] at hload
      split at hload
      · rintro rfl
        exact htame _ hcall _ (Option.some.inj hload)
      · exact absurd hload (by simp)
  | _ => exact absurd hload (by simp [Upcall.familyLoad])

variable [DecidableEq ε]

theorem familyRouted_run {s : Plugin ε} (hflag : s.alc.progressState.patchHDAFamily = false)
    (horg : s.org = .unrouted) (hstarted : s.callbackAlc = true) (calls : List (Upcall ε)) :
    FamilyRouted cfg calls (run (Upcall.step cfg) calls s) := by
  have hall : FamilyRouted cfg calls (run (Upcall.step cfg) calls s) ∧
      (run (Upcall.step cfg) calls s).callbackAlc = true := by
    refine run_history (P := fun pre s' => FamilyRouted cfg pre s' ∧ s'.callbackAlc = true)
      ⟨⟨hflag, by rw [horg]; rfl⟩, hstarted⟩ ?_ calls
    rintro pre call ⟨h, hstart⟩
    refine ⟨?_, (Upcall.step_callbackAlc cfg call _).trans hstart⟩
    by_cases hload : ∃ load routed, call = Upcall.processKext load routed
    · obtain ⟨load, routed, rfl⟩ := hload
      refine h.processKext ?_ ?_
      · simp only [Upcall.step, hstart, if_true]
      · simp only [Upcall.step, hstart, if_true]
    · have hother : ∀ load routed, call ≠ Upcall.processKext load routed :=
        fun load routed heq => hload ⟨load, routed, heq⟩
      obtain ⟨-, halc, horg⟩ := Upcall.step_frame cfg hother (run (Upcall.step cfg) pre s)
      have hsame : (pre ++ [call]).findSome? (Upcall.familyLoad cfg) =
          pre.findSome? (Upcall.familyLoad cfg) := by
        have hnone : call.familyLoad cfg = none := by
          cases call with
          | processKext load routed => exact absurd rfl (hother load routed)
          | _ => rfl
        rw [List.findSome?_append, List.findSome?_singleton, hnone, Option.or_none]
      refine ⟨?_, ?_⟩
      · rw [halc, h.flag, hsame]
      · rw [horg, h.trampoline, familyTrampoline, familyTrampoline, hsame]
  exact hall.1

/-! ### The trampoline of the replay -/

/-- A codec is only marked for reinitialisation by the hook, so its function was routed. -/
def MarkedRouted (s : Plugin ε) : Prop :=
  ∀ codec, Marked codec s.registry → s.org .initializePinConfig ≠ 0

theorem MarkedRouted.step {s : Plugin ε} (h : MarkedRouted s) {call : Upcall ε} (htame : call.Tame) :
    MarkedRouted (call.step cfg s).1 := by
  intro codec hmarked
  cases call with
  | processKext load routed =>
      simp only [Upcall.step] at hmarked ⊢
      split at hmarked
      · next hstarted =>
        rw [if_pos hstarted]
        exact Trampolines.requests_ne_zero htame _ (h codec hmarked)
      · next hstarted =>
        rw [if_neg hstarted]
        exact h codec hmarked
  | initializePinConfig plane original hdaCodec configDevice =>
      simp only [Upcall.step] at hmarked ⊢
      split at hmarked
      · exact h codec (((htame _ codec).marked_iff).mp hmarked)
      · next hrouted => exact hrouted
  | performPowerChange plane original replay hdaDriver fromState toState =>
      simp only [Upcall.step] at hmarked ⊢
      refine h codec ?_
      split at hmarked
      · exact ((htame.1 _ codec).marked_iff).mp hmarked
      · exact (performPowerChange_marked htame.1 htame.2 _ _ _ _ codec).mp hmarked
  | appleHDAControllerStart service provider =>
      have hother : ∀ value, Marked codec (set s.registry provider "alc-delay" value) ↔
          Marked codec s.registry := by
        intro value
        rw [Marked, Marked, set_of_ne_key _ _ _ (by decide)]
      have hstart : Marked codec s.registry := by
        simp only [Upcall.step] at hmarked
        split at hmarked
        · exact hmarked
        · unfold AppleALC.appleHDAControllerStart at hmarked
          simp only at hmarked
          split at hmarked
          · rwa [hother] at hmarked
          · exact hmarked
      simp only [Upcall.step]
      split <;> exact h codec hstart
  | elsewhere change => exact h codec (((htame _ codec).marked_iff).mp hmarked)
  | matchProvider plane codec' superStart =>
      simp only [Upcall.step] at hmarked ⊢
      rw [Plugin.matchProvider_frame] at hmarked ⊢
      exact h codec hmarked
  | newUserClient provider owningTask superInit superStart =>
      simp only [Upcall.step] at hmarked ⊢
      rw [Plugin.newUserClient_frame] at hmarked ⊢
      exact h codec hmarked
  | _ => exact h codec hmarked

/-! ### Jumps to null -/

/-- A call that does not come from a user client goes through trampolines that are there. -/
theorem address_ne_zero {s : Plugin ε} (h : MarkedRouted s) {call : Upcall ε} (htame : call.Tame)
    (hclient : ¬call.IsClientCall) {jump : Jump ε} (hjump : jump ∈ (call.step cfg s).2) :
    jump.address ≠ 0 := by
  cases call with
  | gfxProbe name ctrl provider =>
      obtain ⟨hne, hmem⟩ := entered_ne_zero hjump
      unfold AppleALC.gfxProbe at hmem
      split at hmem
      · exact absurd hmem (by simp)
      · rw [List.mem_singleton.mp hmem]
        exact hne
  | layoutLoadCallback reply =>
      obtain ⟨hne, hmem⟩ := entered_ne_zero hjump
      rw [List.mem_singleton.mp hmem]
      exact hne
  | platformLoadCallback reply =>
      obtain ⟨hne, hmem⟩ := entered_ne_zero hjump
      rw [List.mem_singleton.mp hmem]
      exact hne
  | appleHDAControllerStart service provider =>
      obtain ⟨hne, hmem⟩ := entered_ne_zero hjump
      unfold AppleALC.appleHDAControllerStart at hmem
      simp only at hmem
      split at hmem
      · rw [List.mem_singleton.mp hmem]
        exact hne
      · rw [List.mem_singleton.mp hmem]
        exact hne
  | executeVerb hdaCodecDevice nid verb param =>
      obtain ⟨hne, hmem⟩ := entered_ne_zero hjump
      rw [List.mem_singleton.mp hmem]
      exact hne
  | initializePinConfig plane original hdaCodec configDevice =>
      obtain ⟨hne, hmem⟩ := entered_ne_zero hjump
      rw [List.mem_singleton.mp hmem]
      exact hne
  | performPowerChange plane original replay hdaDriver fromState toState =>
      obtain ⟨hne, hmem⟩ := entered_ne_zero hjump
      obtain ⟨o, ho, rfl⟩ := List.mem_map.mp hmem
      cases o with
      | performPowerChange => exact hne
      | initializePinConfig =>
          obtain ⟨codec, -, -, hmarked⟩ := marked_of_replay htame.1 ho
          exact h codec hmarked
  | processKext load routed =>
      simp only [Upcall.step] at hjump
      split at hjump <;> exact absurd hjump (by simp)
  | externalMethod => exact absurd trivial hclient
  | _ => exact absurd hjump (by simp [Upcall.step])

/-- **Trampolines are there when they are used.**  In every session, a jump goes to null exactly when
it comes from a user client and the first load of IOHDAFamily was not seen yet or did not give
`executeVerb` a trampoline.  That load is the only one that counts: the hook is not routed again. -/
theorem null_jumps (boot : Boot) (table : List ControllerModInfo) (started : Bool)
    {registry : Registry ε} (hregistry : ∀ codec, registry codec "alc-pinconfig-status" = none)
    (pre : List (Upcall ε)) (call : Upcall ε) (htame : ∀ c ∈ pre ++ [call], c.Tame) :
    ∀ jump ∈ (call.step cfg (run (Upcall.step cfg) pre
        (Plugin.boot started (bootAlc cfg.lilu boot table) registry))).2,
      jump.address = 0 ↔ call.IsClientCall ∧ familyTrampoline cfg pre = none := by
  have hpre : ∀ c ∈ pre, c.Tame := fun c hc => htame c (List.mem_append_left _ hc)
  have hstart : MarkedRouted (Plugin.boot started (bootAlc cfg.lilu boot table) registry) := by
    intro codec hmarked
    rw [Marked] at hmarked
    simp [Plugin.boot, hregistry] at hmarked
  have hmarked : MarkedRouted (run (Upcall.step cfg) pre
      (Plugin.boot started (bootAlc cfg.lilu boot table) registry)) :=
    run_invariant_of_steps (C := fun call _ => call.Tame) (fun _ _ htame h => h.step htame)
      (fun before c after hsplit => hpre c (by simp [hsplit])) hstart
  intro jump hjump
  by_cases hclient : call.IsClientCall
  · cases call with
    | externalMethod client selector args answer =>
        obtain ⟨-, -, p, -, -, -, hmem⟩ := Plugin.mem_externalMethod hjump
        obtain ⟨hshared, haddress⟩ := externalMethod_address hmem
        have hstarted : started = true := by
          rw [← hshared]
          exact (run_invariant (P := fun s : Plugin ε => s.callbackAlc = started)
            (fun c s h => (Upcall.step_callbackAlc cfg c s).trans h) pre rfl).symm
        have hflag : (Plugin.boot started (bootAlc cfg.lilu boot table)
            registry).alc.progressState.patchHDAFamily = false :=
          congrArg ProcessingState.patchHDAFamily
            (updateProperties_booted cfg.lilu boot table).progressState
        rw [haddress, (familyRouted_run hflag rfl hstarted pre).trampoline, and_iff_right hclient]
        cases hfound : familyTrampoline cfg pre with
        | none => simp
        | some address => simpa using familyTrampoline_ne_zero hpre hfound
    | _ => exact absurd hclient (by simp [Upcall.IsClientCall])
  · refine iff_of_false ?_ fun h => hclient h.1
    exact address_ne_zero hmarked (htame call (by simp)) hclient hjump

end Trampolines

/-- A verb of a client panics the machine when IOHDAFamily has no such symbol. -/
theorem null_jumps_sample :
    ∃ jump ∈ (Sample.verbCall.step Sample.pluginConfig (run (Upcall.step Sample.pluginConfig)
        Sample.session (Plugin.boot true (bootAlc Sample.pluginConfig.lilu (Sample.boot []) [])
          Sample.verbRegistry))).2, jump.address = 0 := by
  have htame : ∀ c ∈ Sample.session ++ [Sample.verbCall], c.Tame := by
    intro c hc
    simp only [Sample.session, List.cons_append, List.nil_append, List.mem_cons,
      List.not_mem_nil, or_false] at hc
    rcases hc with rfl | rfl | rfl | rfl
    · intro symbol
      simp
    all_goals exact trivial
  have hmem : (⟨.ioHDACodecDeviceExecuteVerb, 0, .verb 0 0 0xF00 0⟩ : Jump ℕ) ∈
      (Sample.verbCall.step Sample.pluginConfig (run (Upcall.step Sample.pluginConfig)
        Sample.session (Plugin.boot true (bootAlc Sample.pluginConfig.lilu (Sample.boot []) [])
          Sample.verbRegistry))).2 := by
    decide +kernel
  exact ⟨_, hmem, (null_jumps (Sample.boot []) [] true (fun codec => by simp [Sample.verbRegistry])
    Sample.session Sample.verbCall htame _ hmem).mpr ⟨trivial, by decide +kernel⟩⟩

end AppleALC
