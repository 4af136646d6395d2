import AppleALC.KernAlc.PinSelection

/-!
# What a wake replays

The replay hands the codec to the original as its own config device, so what it configures is the
list the codec carries by then.  That list was installed when the codec was initialised, any number
of calls earlier, and other codecs were initialised and power states changed since.  As long as
nobody uses the codec as the config device of another codec, it is still the list of the entry that
was selected, with its wake configuration in the place of the boot one.

* `SelectsForWake` — a first call installs this list on the codec;
* `CarriesWake` / `carriesWake_step` — a marked codec carries the list that was selected for it;
* `replays_wake_config` — what the original finds in every replay.
-/

namespace AppleALC

open PropertyStore OutputMachine

variable {ε : Type*}

/-- The original does not touch the configuration list of the codec. -/
def KeepsConfig (codec : ε) (change : RegistryChange ε) : Prop :=
  ∀ registry, change registry codec "HDAConfigDefault" = registry codec "HDAConfigDefault"

/-- The call does not use the codec as the config device of another codec, and its originals keep
the configuration list of the codec. -/
def HookCall.LeavesConfig (codec : ε) : HookCall ε → Prop
  | .initializePinConfig _ _ original hdaCodec configDevice =>
      KeepsConfig codec original ∧ (configDevice = some codec → hdaCodec = some codec)
  | .performPowerChange _ original replay _ _ _ => KeepsConfig codec original ∧ KeepsConfig codec replay

variable [DecidableEq ε] (lilu : Lilu)

/-- Initialising the codec on this registry selects this entry for reinitialisation, and `wake` is
the copy that the codec gets of it. -/
def SelectsForWake (plane : ServicePlane ε) (alc : AlcEnabler) (codec configDevice : ε)
    (registry : Registry ε) (entry wake : ConfigEntry) : Prop :=
  registry codec "alc-pinconfig-status" = none ∧
    matching alc configDevice registry = some entry ∧
    getObject "WakeVerbReinit" entry = some (.boolean true) ∧
    ∃ entry', Relaid (getAudioLayout lilu plane registry codec) entry entry' ∧
      CopiedForWake entry entry' wake

/-- Somewhere in the history the codec was initialised and `wake` was selected. -/
def SelectedInHistory (codec : ε) (registry : Registry ε) (pre : List (HookCall ε))
    (entry wake : ConfigEntry) : Prop :=
  ∃ before plane alc original configDevice after,
    pre = before ++ .initializePinConfig plane alc original (some codec) (some configDevice) :: after ∧
      SelectsForWake lilu plane alc codec configDevice
        (run (HookCall.step lilu) before registry) entry wake

/-- The codec carries the list of an entry that was selected for it. -/
def CarriesWake (codec : ε) (start : Registry ε) (pre : List (HookCall ε)) (registry : Registry ε) :
    Prop :=
  ∃ entry wake, SelectedInHistory lilu codec start pre entry wake ∧
    registry codec "HDAConfigDefault" = some (configListOf wake)

variable {lilu} {codec : ε} {start : Registry ε} {pre : List (HookCall ε)} {call : HookCall ε}

theorem CarriesWake.snoc {registry registry' : Registry ε}
    (h : CarriesWake lilu codec start pre registry)
    (hkept : registry' codec "HDAConfigDefault" = registry codec "HDAConfigDefault") :
    CarriesWake lilu codec start (pre ++ [call]) registry' := by
  obtain ⟨entry, wake, ⟨before, plane, alc, original, configDevice, after, rfl, hselects⟩, hlist⟩ := h
  exact ⟨entry, wake, ⟨before, plane, alc, original, configDevice, after ++ [call], by simp,
    hselects⟩, hkept.trans hlist⟩

/-- A codec is only marked by the call that initialises it, and then carries its list. -/
theorem configureCodec_marks {plane : ServicePlane ε} {alc : AlcEnabler} {configDevice : ε}
    {registry : Registry ε} (hfresh : registry codec "alc-pinconfig-status" = none)
    (hmarked : Marked codec (configureCodec lilu plane alc codec configDevice registry)) :
    ∃ entry wake, SelectsForWake lilu plane alc codec configDevice registry entry wake ∧
      configureCodec lilu plane alc codec configDevice registry codec "HDAConfigDefault" =
        some (configListOf wake) := by
  have hreset : ¬Marked codec (resetStatus codec registry) := by
    rw [Marked, resetStatus_apply, if_pos ⟨rfl, Or.inl rfl⟩]
    decide
  by_cases happle : getAudioLayout lilu plane registry codec = 0
  · have hidle : configureCodec lilu plane alc codec configDevice registry =
        resetStatus codec registry := by
      unfold configureCodec
      simp only [happle, ne_eq, not_true, false_and, if_false]
    rw [hidle] at hmarked
    exact absurd hmarked hreset
  · rw [configureCodec_eq lilu plane rfl happle] at hmarked ⊢
    cases hentry : matching alc configDevice registry with
    | none =>
        rw [hentry] at hmarked
        exact absurd hmarked hreset
    | some entry =>
        rw [hentry] at hmarked
        simp only [installConfig] at hmarked ⊢
        by_cases hreinit : entry.reinit = true
        · rw [if_pos hreinit]
          refine ⟨entry, _, ⟨hfresh, hentry, reinit_iff.mp hreinit, _,
            withLayout_relaid _ entry, forWake_copied entry _⟩, ?_⟩
          rw [set_of_ne_key _ _ _ (by decide), set_self]
        · rw [if_neg hreinit, Marked, set_of_ne_key _ _ _ (by decide)] at hmarked
          exact absurd hmarked hreset

/-- Configuring another codec leaves this one alone. -/
theorem configureCodec_other {plane : ServicePlane ε} {alc : AlcEnabler} {hdaCodec configDevice : ε}
    {registry : Registry ε} (hcodec : codec ≠ hdaCodec) (hdevice : codec ≠ configDevice) :
    configureCodec lilu plane alc hdaCodec configDevice registry codec = registry codec := by
  have hreset : resetStatus hdaCodec registry codec = registry codec := by
    funext key
    rw [resetStatus_apply, if_neg fun h => hcodec h.1]
  have hset : ∀ (r : Registry ε) (e : ε) (key : String) (value : OSObject), codec ≠ e →
      set r e key value codec = r codec := by
    intro r e key value hne
    funext key'
    exact set_of_ne_entry _ hne _ _ _
  unfold configureCodec
  simp only [ne_eq]
  by_cases hanalog : ¬getAudioLayout lilu plane registry hdaCodec = 0 ∧
      ¬(selectAnalog alc.controllers alc.codecs).1 = 0 ∧
      ¬(selectAnalog alc.controllers alc.codecs).2 = 0
  · rw [if_pos hanalog]
    cases (resetStatus hdaCodec registry configDevice "HDAConfigDefault").bind OSObject.asArray with
    | none => exact hreset
    | some configList =>
        simp only
        cases findConfig configList (selectAnalog alc.controllers alc.codecs).1
            (selectAnalog alc.controllers alc.codecs).2 with
        | none => exact hreset
        | some config =>
            simp only [installConfig]
            split
            · rw [hset _ _ _ _ hcodec, hset _ _ _ _ hcodec, hset _ _ _ _ hdevice, hreset]
            · rw [hset _ _ _ _ hdevice, hreset]
  · rw [if_neg hanalog]
    exact hreset

/-- A power change leaves the configuration list of the codec alone, and that of a replay too. -/
theorem performPowerChange_config {plane : ServicePlane ε} {original replay : RegistryChange ε}
    (horiginal : KeepsConfig codec original) (hreplay : KeepsConfig codec replay)
    (hdaDriver : Option ε) (fromState toState : UInt32) (registry : Registry ε) :
    (performPowerChange plane original replay hdaDriver fromState toState registry).1 codec
      "HDAConfigDefault" = registry codec "HDAConfigDefault" := by
  have hset : ∀ (r : Registry ε) (e : ε) (value : OSObject),
      set r e "alc-sleep-status" value codec "HDAConfigDefault" = r codec "HDAConfigDefault" :=
    fun r e value => set_of_ne_key _ _ _ (by decide) _
  rw [← horiginal registry]
  unfold performPowerChange
  simp only
  split
  · simp only [updateSleepStatus]
    split
    · split
      · split
        · exact hset _ _ _
        · split
          · exact (hset _ _ _).trans (hreplay _)
          · rfl
      · rfl
    · rfl
  · rfl

/-- **Step lemma.**  A marked codec carries the list that was selected for it. -/
theorem carriesWake_step (htame : call.Tame) (hleaves : call.LeavesConfig codec)
    (h : Marked codec (run (HookCall.step lilu) pre start) →
      CarriesWake lilu codec start pre (run (HookCall.step lilu) pre start))
    (hmarked : Marked codec (call.step lilu (run (HookCall.step lilu) pre start)).1) :
    CarriesWake lilu codec start (pre ++ [call])
      (call.step lilu (run (HookCall.step lilu) pre start)).1 := by
  cases call with
  | performPowerChange plane original replay hdaDriver fromState toState =>
      refine (h ?_).snoc ?_
      · exact (performPowerChange_marked htame.1 htame.2 _ _ _ _ codec).mp hmarked
      · exact performPowerChange_config hleaves.1 hleaves.2 _ _ _ _
  | initializePinConfig plane alc original hdaCodec configDevice =>
      generalize hregistry : run (HookCall.step lilu) pre start = registry at h hmarked ⊢
      simp only [HookCall.step, initializePinConfig] at hmarked ⊢
      rw [(htame _ codec).marked_iff] at hmarked
      split at hmarked
      · next hda d =>
        split at hmarked
        · next hnone =>
          by_cases hcodec : codec = hda
          · subst hcodec
            rw [Option.isNone_iff_eq_none] at hnone
            obtain ⟨entry, wake, hselects, hlist⟩ := configureCodec_marks hnone hmarked
            refine ⟨entry, wake, ⟨pre, plane, alc, original, d, [], rfl, ?_⟩, ?_⟩
            · rw [hregistry]
              exact hselects
            · rw [if_pos (by rw [hnone]; rfl), hleaves.1]
              exact hlist
          · have hdevice : codec ≠ d := by
              rintro rfl
              exact hcodec (Option.some.inj (hleaves.2 rfl)).symm
            rw [Marked, configureCodec_other hcodec hdevice] at hmarked
            refine (h hmarked).snoc ?_
            rw [if_pos hnone, hleaves.1, configureCodec_other hcodec hdevice]
        · next hsome =>
          refine (h hmarked).snoc ?_
          rw [if_neg hsome, hleaves.1]
      · exact (h hmarked).snoc (hleaves.1 _)

/-- **A wake replays the wake configuration.**  Take any history of hooked calls, on this codec and on
others, starting before the codec has a status, in which the originals keep the status properties and
the list of the codec, and nobody uses the codec as the config device of another.  When a power
change replays the pin configuration of the codec, the original finds on it the one entry that was
selected when the codec was initialised, with its wake configuration in the place of the boot one. -/
theorem replays_wake_config (hfresh : start codec "alc-pinconfig-status" = none)
    {plane : ServicePlane ε} {original replay : RegistryChange ε} {hdaDriver : Option ε}
    {fromState toState : UInt32}
    (hcalls : ∀ c ∈ pre ++ [.performPowerChange plane original replay hdaDriver fromState toState],
      c.Tame ∧ c.LeavesConfig codec)
    (hreplays : Replays lilu codec
      (.performPowerChange plane original replay hdaDriver fromState toState)
      (run (HookCall.step lilu) pre start)) :
    ∃ entry wake, SelectedInHistory lilu codec start pre entry wake ∧
      original (run (HookCall.step lilu) pre start) codec "HDAConfigDefault" =
        some (configListOf wake) := by
  have hrun : Marked codec (run (HookCall.step lilu) pre start) →
      CarriesWake lilu codec start pre (run (HookCall.step lilu) pre start) := by
    have hpre : ∀ c ∈ pre, c.Tame ∧ c.LeavesConfig codec :=
      fun c hc => hcalls c (List.mem_append_left _ hc)
    refine run_history (P := fun pre registry => (∀ c ∈ pre, c.Tame ∧ c.LeavesConfig codec) →
      Marked codec registry → CarriesWake lilu codec start pre registry) ?_ ?_ pre hpre
    · intro _ hmarked
      rw [Marked, hfresh] at hmarked
      exact absurd hmarked (by decide)
    · intro before c h hbefore hmarked
      obtain ⟨htame, hleaves⟩ := hbefore c (by simp)
      exact carriesWake_step htame hleaves
        (h fun c' hc' => hbefore c' (List.mem_append_left _ hc')) hmarked
  obtain ⟨htame, hleaves⟩ := hcalls _ (List.mem_append_right _ (List.mem_singleton_self _))
  obtain ⟨codec', hcodec, -, hmarked⟩ := marked_of_replay htame.1 hreplays
  obtain rfl : codec = codec' := Option.some.inj hcodec
  obtain ⟨entry, wake, hselected, hlist⟩ := hrun hmarked
  exact ⟨entry, wake, hselected, (hleaves.1 _).trans hlist⟩

/-- In the sample history the first wake finds the copy of the entry of the config device. -/
theorem replays_wake_config_sample :
    ∃ entry wake, SelectedInHistory (Lilu.documented 19 4) 2 Sample.services
        (Sample.history.take 2) entry wake ∧
      run (HookCall.step (Lilu.documented 19 4)) (Sample.history.take 2) Sample.services 2
        "HDAConfigDefault" = some (configListOf wake) := by
  have hstatus : KeepsStatus (id : RegistryChange ℕ) := fun _ _ _ _ => rfl
  have hconfig : KeepsConfig 2 (id : RegistryChange ℕ) := fun _ => rfl
  have hreplays : Replays (Lilu.documented 19 4) 2 (.performPowerChange Sample.plane id id (some 3) 0 1)
      (run (HookCall.step (Lilu.documented 19 4)) (Sample.history.take 2) Sample.services) := by
    decide +kernel
  refine replays_wake_config rfl ?_ hreplays
  intro c hc
  simp only [Sample.history, List.take_succ_cons, List.take_zero, List.cons_append, List.nil_append,
    List.mem_cons, List.not_mem_nil, or_false] at hc
  rcases hc with rfl | rfl | rfl
  · exact ⟨hstatus, hconfig, by simp⟩
  · exact ⟨⟨hstatus, hstatus⟩, hconfig, hconfig⟩
  · exact ⟨⟨hstatus, hstatus⟩, hconfig, hconfig⟩

end AppleALC
