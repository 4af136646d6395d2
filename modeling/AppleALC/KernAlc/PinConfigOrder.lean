import Mathlib.Data.List.Induction
import AppleALC.KernAlc.SleepCycle

/-!
# Codecs that share a config device

Each first call of `initializePinConfig` reads the `HDAConfigDefault` list of the config device and
puts a list of one entry in its place, with the layout changed to the one AppleHDA reports.  The
next codec below the same device finds that list, and its entry matches only if the two layouts are
equal.

So an entry that asks for reinitialisation goes to one codec, the one initialised first, unless the
layouts are equal, and then to all of them.  Everything else about the calls does not depend on
their order.

* `initializeBelow` / `Initialized` — the first call on a codec, and what it leaves;
* `initializeAll` / `InitializedAll` — the same of the calls on a list of codecs;
* `initializeAll_spec` — the list by induction, one codec at its end;
* `order_matters_for_reinit` — what each codec ends up with, and when the order counts.
-/

namespace AppleALC

open PropertyStore OutputMachine

/-! ### Rewritten entries -/

section Entries

variable {config : ConfigEntry} {codec layout apple : UInt32}

theorem getObject_withLayout_of_ne {key : String} (h : key ≠ "LayoutID") (config : ConfigEntry)
    (apple : UInt32) : getObject key (config.withLayout apple) = getObject key config :=
  getObject_setObject_of_ne h _ _

theorem getObject_withLayout (config : ConfigEntry) (apple : UInt32) :
    getObject "LayoutID" (config.withLayout apple) = some (.number apple.toUInt64) :=
  getObject_setObject_self _ _ _

/-- The copy for the codec keeps every name but the three it is about. -/
theorem getObject_forWake_of_ne {key : String} (hboot : key ≠ "BootConfigData")
    (hconfig : key ≠ "ConfigData") (hwake : key ≠ "WakeConfigData")
    (config newConfig : ConfigEntry) :
    getObject key (config.forWake newConfig) = getObject key newConfig := by
  unfold ConfigEntry.forWake
  split
  · simp only
    rw [getObject_removeObject_of_ne hwake, getObject_setObject_of_ne hconfig]
    split
    · exact getObject_setObject_of_ne hboot _ _
    · rfl
  · rfl

/-- Whether an entry asks for reinitialisation is not changed. -/
theorem reinit_congr {config config' : ConfigEntry}
    (h : getObject "WakeVerbReinit" config' = getObject "WakeVerbReinit" config) :
    config'.reinit = config.reinit := by
  unfold ConfigEntry.reinit
  rw [h]

/-- An entry that keeps its codec and is given the layout `apple` matches exactly if that is the
layout looked for. -/
theorem isFor_rewritten {config' : ConfigEntry} (h : config.isFor codec layout = true)
    (hcodec : getObject "CodecID" config' = getObject "CodecID" config)
    (hlayout : getObject "LayoutID" config' = some (.number apple.toUInt64)) :
    config'.isFor codec layout = decide (apple = layout) := by
  unfold ConfigEntry.isFor at h ⊢
  rw [hcodec, hlayout]
  simp only [Option.bind_some, OSObject.asNumber]
  split at h
  · next currCodec currLayout hcurr _ =>
    simp only [Bool.and_eq_true, beq_iff_eq] at h
    rw [hcurr]
    simp only [h.1, UInt32.toUInt32_toUInt64, beq_self_eq_true, Bool.true_and]
    exact beq_eq_decide apple layout
  · exact absurd h (by simp)

theorem withLayout_withLayout (config : ConfigEntry) (apple : UInt32) :
    (config.withLayout apple).withLayout apple = config.withLayout apple :=
  setObject_setObject _ _ _ _

/-- The two entries a matching entry is turned into: what stays on the config device, and what the
codec gets. -/
def ConfigEntry.onDevice (config : ConfigEntry) (apple : UInt32) : ConfigEntry :=
  config.withLayout apple

def ConfigEntry.onCodec (config : ConfigEntry) (apple : UInt32) : ConfigEntry :=
  config.forWake (config.withLayout apple)

theorem getObject_onCodec (config : ConfigEntry) (apple : UInt32) :
    getObject "LayoutID" (config.onCodec apple) = some (.number apple.toUInt64) := by
  rw [ConfigEntry.onCodec, getObject_forWake_of_ne (by decide) (by decide) (by decide),
    getObject_withLayout]

theorem onCodec_withLayout (config : ConfigEntry) (apple : UInt32) :
    (config.onCodec apple).withLayout apple = config.onCodec apple :=
  setObject_of_getObject (getObject_onCodec config apple)

/-- Rewriting what the device keeps gives the codec the same entry again. -/
theorem onDevice_onCodec (config : ConfigEntry) (apple : UInt32) :
    (config.onDevice apple).onCodec apple = config.onCodec apple := by
  unfold ConfigEntry.onDevice ConfigEntry.onCodec ConfigEntry.forWake
  rw [withLayout_withLayout, getObject_withLayout_of_ne (by decide),
    getObject_withLayout_of_ne (by decide)]

/-- Rewriting what a codec has changes nothing: its wake configuration is already in place. -/
theorem onCodec_onCodec (config : ConfigEntry) (apple : UInt32) :
    (config.onCodec apple).onCodec apple = config.onCodec apple := by
  have hwake : (getObject "WakeConfigData" (config.onCodec apple)).bind OSObject.asData = none := by
    unfold ConfigEntry.onCodec ConfigEntry.forWake
    split
    · rw [getObject_removeObject_self]
      rfl
    · next hnone => rw [getObject_withLayout_of_ne (by decide), hnone]
  have hlayout := onCodec_withLayout config apple
  generalize config.onCodec apple = config' at hwake hlayout ⊢
  unfold ConfigEntry.onCodec ConfigEntry.forWake
  rw [hwake, hlayout]

/-- The two rewritten entries, as the next call finds them. -/
theorem rewritten_spec {X : ConfigEntry} (h : config.isFor codec layout = true)
    (hX : X = config.onDevice apple ∨ X = config.onCodec apple) :
    X.isFor codec layout = decide (apple = layout) ∧ X.reinit = config.reinit ∧
      X.onDevice apple = X ∧ X.onCodec apple = config.onCodec apple := by
  rcases hX with rfl | rfl
  · exact ⟨isFor_rewritten h (getObject_withLayout_of_ne (by decide) _ _)
        (getObject_withLayout _ _), reinit_congr (getObject_withLayout_of_ne (by decide) _ _),
      withLayout_withLayout _ _, onDevice_onCodec _ _⟩
  · refine ⟨isFor_rewritten h ?_ (getObject_onCodec _ _), reinit_congr ?_,
      onCodec_withLayout _ _, onCodec_onCodec _ _⟩
    · rw [ConfigEntry.onCodec, getObject_forWake_of_ne (by decide) (by decide) (by decide),
        getObject_withLayout_of_ne (by decide)]
    · rw [ConfigEntry.onCodec, getObject_forWake_of_ne (by decide) (by decide) (by decide),
        getObject_withLayout_of_ne (by decide)]

end Entries

/-! ### One first call -/

section Calls

variable {ε : Type*} [DecidableEq ε]

/-- The original touches neither of the properties that the hook reads or writes. -/
def KeepsPinConfig (change : RegistryChange ε) : Prop :=
  ∀ registry e key, key = "alc-pinconfig-status" ∨ key = "HDAConfigDefault" ∨ key = "layout-id" →
    change registry e key = registry e key

variable (lilu : Lilu) (plane : ServicePlane ε) (alc : AlcEnabler) (original : ε → RegistryChange ε)
variable (configDevice : ε)

/-- The hook on one codec, below the shared config device. -/
def initializeBelow (codec : ε) (registry : Registry ε) : Registry ε × List (Original ε) :=
  initializePinConfig lilu plane alc (original codec) (some codec) (some configDevice) registry

/-- The entry of the config device that is for the detected analog codec and its layout. -/
def matching (registry : Registry ε) : Option ConfigEntry :=
  let analog := selectAnalog alc.controllers alc.codecs
  if analog.1 ≠ 0 ∧ analog.2 ≠ 0 then
    ((registry configDevice "HDAConfigDefault").bind OSObject.asArray).bind fun configList =>
      findConfig configList analog.1 analog.2
  else none

variable {alc configDevice} {registry : Registry ε} {codec : ε} {apple : UInt32}

omit [DecidableEq ε] in
/-- The layout AppleHDA reports depends on the layout-id properties only. -/
theorem getAudioLayout_congr {registry' : Registry ε}
    (h : ∀ e, registry' e "layout-id" = registry e "layout-id") (codec : ε) :
    getAudioLayout lilu plane registry' codec = getAudioLayout lilu plane registry codec := by
  unfold getAudioLayout Lilu.read
  split
  · rw [h]
  · rfl

theorem resetStatus_apply (codec e : ε) (key : String) (registry : Registry ε) :
    resetStatus codec registry e key =
      if e = codec ∧ (key = "alc-pinconfig-status" ∨ key = "alc-sleep-status") then
        some (.boolean false) else registry e key := by
  by_cases he : e = codec <;> by_cases hsleep : key = "alc-sleep-status" <;>
    by_cases hpin : key = "alc-pinconfig-status" <;> simp [resetStatus, set_apply, he, hsleep, hpin]

theorem resetStatus_of_ne (codec e : ε) {key : String} (hpin : key ≠ "alc-pinconfig-status")
    (hsleep : key ≠ "alc-sleep-status") (registry : Registry ε) :
    resetStatus codec registry e key = registry e key := by
  rw [resetStatus_apply, if_neg (by simp [hpin, hsleep])]

/-- A call on a codec without status and with a layout: it installs the matching entry, if there is
one. -/
theorem configureCodec_eq (hlayout : getAudioLayout lilu plane registry codec = apple)
    (happle : apple ≠ 0) :
    configureCodec lilu plane alc codec configDevice registry =
      match matching alc configDevice registry with
      | some config => installConfig codec configDevice apple config (resetStatus codec registry)
      | none => resetStatus codec registry := by
  unfold configureCodec matching
  simp only [hlayout]
  rw [resetStatus_of_ne codec configDevice (by decide) (by decide)]
  by_cases hanalog : (selectAnalog alc.controllers alc.codecs).1 ≠ 0 ∧
      (selectAnalog alc.controllers alc.codecs).2 ≠ 0
  · rw [if_pos ⟨happle, hanalog⟩, if_pos hanalog]
    cases (registry configDevice "HDAConfigDefault").bind OSObject.asArray with
    | none => rfl
    | some configList => rfl
  · rw [if_neg fun h => hanalog h.2, if_neg hanalog]

/-- The list of an entry after a call on `codec` that found the entry `found`. -/
def listAfter (registry : Registry ε) (codec configDevice : ε) (apple : UInt32) (e : ε) :
    (found : Option ConfigEntry) → Option OSObject
  | none => registry e "HDAConfigDefault"
  | some config =>
      if config.reinit ∧ e = codec then some (configListOf (config.onCodec apple))
      else if e = configDevice then some (configListOf (config.onDevice apple))
      else registry e "HDAConfigDefault"

/-- What one call leaves: the status of the codec, and the lists of everybody. -/
structure Initialized (registry registry' : Registry ε) (codec configDevice : ε) (apple : UInt32)
    (found : Option ConfigEntry) : Prop where
  layoutId : ∀ e, registry' e "layout-id" = registry e "layout-id"
  others : ∀ e, e ≠ codec →
    registry' e "alc-pinconfig-status" = registry e "alc-pinconfig-status"
  status : registry' codec "alc-pinconfig-status" =
    some (.boolean ((found.map ConfigEntry.reinit).getD false))
  lists : ∀ e,
    registry' e "HDAConfigDefault" = listAfter registry codec configDevice apple e found

/-- **What one first call does.** -/
theorem initializeBelow_spec (horiginal : KeepsPinConfig (original codec))
    (hstatus : registry codec "alc-pinconfig-status" = none)
    (hlayout : getAudioLayout lilu plane registry codec = apple) (happle : apple ≠ 0) :
    Initialized registry (initializeBelow lilu plane alc original configDevice codec registry).1
      codec configDevice apple (matching alc configDevice registry) := by
  have hafter : ∀ e key, key = "alc-pinconfig-status" ∨ key = "HDAConfigDefault" ∨
        key = "layout-id" →
      (initializeBelow lilu plane alc original configDevice codec registry).1 e key =
        configureCodec lilu plane alc codec configDevice registry e key := by
    intro e key hkey
    simp only [initializeBelow, initializePinConfig, hstatus, Option.isNone_none, if_true]
    exact horiginal _ e key hkey
  rw [configureCodec_eq lilu plane hlayout happle] at hafter
  cases hfound : matching alc configDevice registry with
  | none =>
      simp only [hfound] at hafter
      refine ⟨?_, ?_, ?_, ?_⟩
      · intro e
        rw [hafter e _ (by simp), resetStatus_of_ne _ _ (by decide) (by decide)]
      · intro e he
        rw [hafter e _ (by simp), resetStatus_apply, if_neg (by simp [he])]
      · rw [hafter codec _ (by simp), resetStatus_apply, if_pos (by simp)]
        rfl
      · intro e
        rw [hafter e _ (by simp), resetStatus_of_ne _ _ (by decide) (by decide), listAfter]
  | some config =>
      simp only [hfound] at hafter
      refine ⟨?_, ?_, ?_, ?_⟩
      · intro e
        rw [hafter e _ (by simp)]
        cases hreinit : config.reinit <;>
          simp [installConfig, hreinit, set_apply, resetStatus_of_ne]
      · intro e he
        rw [hafter e _ (by simp)]
        cases hreinit : config.reinit <;>
          simp [installConfig, hreinit, set_apply, he, resetStatus_apply]
      · rw [hafter codec _ (by simp)]
        cases hreinit : config.reinit <;>
          simp [installConfig, hreinit, set_apply, resetStatus_apply]
      · intro e
        rw [hafter e _ (by simp), listAfter]
        cases hreinit : config.reinit <;> by_cases he : e = codec <;>
          by_cases hd : e = configDevice <;>
          simp [installConfig, hreinit, set_apply, he, hd, resetStatus_of_ne, ConfigEntry.onCodec,
            ConfigEntry.onDevice]

/-! ### All codecs of a config device -/

variable (alc configDevice)

/-- The hook on the codecs of `order`, one after the other. -/
def initializeAll (order : List ε) (registry : Registry ε) : Registry ε :=
  run (initializeBelow lilu plane alc original configDevice) order registry

/-- The entry asks for reinitialisation, and either the layouts are equal or the codec comes
first. -/
def Receives (config : ConfigEntry) (apple layout : UInt32) (first codec : ε) : Prop :=
  config.reinit = true ∧ (apple = layout ∨ codec = first)

instance (config : ConfigEntry) (apple layout : UInt32) (first codec : ε) :
    Decidable (Receives config apple layout first codec) := by
  unfold Receives; infer_instance

/-- The status of an initialised codec. -/
def finalStatus (apple layout : UInt32) (first codec : ε) : (found : Option ConfigEntry) → Bool
  | none => false
  | some config => decide (Receives config apple layout first codec)

/-- The list of an entry once the codecs `done` are initialised. -/
def finalList (registry : Registry ε) (apple layout : UInt32) (first : ε) (done : List ε) (e : ε) :
    (found : Option ConfigEntry) → Option OSObject
  | none => registry e "HDAConfigDefault"
  | some config =>
      if e ∈ done ∧ Receives config apple layout first e then
        some (configListOf (config.onCodec apple))
      else if e = configDevice then some (configListOf (config.onDevice apple))
      else registry e "HDAConfigDefault"

/-- What holds once the codecs `done` are initialised, the first of them being `first`. -/
structure InitializedAll (registry registry' : Registry ε) (apple layout : UInt32) (first : ε)
    (done : List ε) (found : Option ConfigEntry) : Prop where
  layoutId : ∀ e, registry' e "layout-id" = registry e "layout-id"
  others : ∀ e, e ∉ done →
    registry' e "alc-pinconfig-status" = registry e "alc-pinconfig-status"
  status : ∀ codec ∈ done, registry' codec "alc-pinconfig-status" =
    some (.boolean (finalStatus apple layout first codec found))
  lists : ∀ e, registry' e "HDAConfigDefault" =
    finalList configDevice registry apple layout first done e found

variable {alc configDevice} {layout : UInt32} {registry' : Registry ε} {first : ε} {done : List ε}

omit [DecidableEq ε] in
theorem matching_spec {config : ConfigEntry} (h : matching alc configDevice registry = some config) :
    (selectAnalog alc.controllers alc.codecs).1 ≠ 0 ∧
      (selectAnalog alc.controllers alc.codecs).2 ≠ 0 ∧
      config.isFor (selectAnalog alc.controllers alc.codecs).1
        (selectAnalog alc.controllers alc.codecs).2 = true := by
  unfold matching at h
  simp only at h
  split at h
  · next hanalog =>
    obtain ⟨configList, -, hfind⟩ := Option.bind_eq_some_iff.mp h
    unfold findConfig at hfind
    exact ⟨hanalog.1, hanalog.2, (List.find?_eq_some_iff_append.mp hfind).1⟩
  · exact absurd h (by simp)

omit [DecidableEq ε] in
theorem matching_congr (h : registry' configDevice "HDAConfigDefault" =
    registry configDevice "HDAConfigDefault") :
    matching alc configDevice registry' = matching alc configDevice registry := by
  unfold matching
  rw [h]

omit [DecidableEq ε] in
/-- On a list of one entry, that entry matches or nothing does. -/
theorem matching_singleton {X : ConfigEntry}
    (hcodec : (selectAnalog alc.controllers alc.codecs).1 ≠ 0)
    (hlayout : (selectAnalog alc.controllers alc.codecs).2 ≠ 0)
    (h : registry configDevice "HDAConfigDefault" = some (configListOf X)) :
    matching alc configDevice registry =
      if X.isFor (selectAnalog alc.controllers alc.codecs).1
        (selectAnalog alc.controllers alc.codecs).2 then some X else none := by
  unfold matching
  simp only
  rw [if_pos ⟨hcodec, hlayout⟩, h]
  simp only [configListOf, Option.bind_some, OSObject.asArray, findConfig, List.filterMap_cons,
    OSObject.asDictionary, List.filterMap_nil, List.find?_cons, List.find?_nil]
  cases X.isFor (selectAnalog alc.controllers alc.codecs).1
    (selectAnalog alc.controllers alc.codecs).2 <;> rfl

theorem Initialized.single {found : Option ConfigEntry}
    (h : Initialized registry registry' first configDevice apple found) :
    InitializedAll configDevice registry registry' apple layout first [first] found := by
  refine ⟨h.layoutId, fun e he => h.others e (by simpa using he), ?_, ?_⟩
  · intro codec hcodec
    rw [List.mem_singleton] at hcodec
    subst hcodec
    rw [h.status]
    cases found <;> simp [finalStatus, Receives]
  · intro e
    rw [h.lists]
    cases found with
    | none => rfl
    | some config =>
        by_cases he : e = first <;> simp [listAfter, finalList, Receives, he]

/-- One more codec leaves the statuses of the others alone. -/
theorem InitializedAll.status_snoc {registry'' : Registry ε} {found found' : Option ConfigEntry}
    (h : InitializedAll configDevice registry registry' apple layout first done found)
    (hcodec : codec ∉ done)
    (hcall : Initialized registry' registry'' codec configDevice apple found')
    (hvalue : (found'.map ConfigEntry.reinit).getD false =
      finalStatus apple layout first codec found) :
    ∀ c ∈ done ++ [codec], registry'' c "alc-pinconfig-status" =
      some (.boolean (finalStatus apple layout first c found)) := by
  intro c hc
  rcases List.mem_append.mp hc with hc | hc
  · have hne : c ≠ codec := fun heq => hcodec (heq ▸ hc)
    rw [hcall.others c hne, h.status c hc]
  · rw [List.mem_singleton] at hc
    subst hc
    rw [hcall.status, hvalue]

/-- With equal layouts the next call installs the same two entries again. -/
theorem listAfter_of_equal {config X : ConfigEntry}
    (hlists : ∀ e, registry' e "HDAConfigDefault" =
      finalList configDevice registry apple layout first done e (some config))
    (hdevice : registry' configDevice "HDAConfigDefault" = some (configListOf X))
    (hequal : apple = layout) (hreinit : X.reinit = config.reinit) (hX : X.onDevice apple = X)
    (hcopy : X.onCodec apple = config.onCodec apple) (e : ε) :
    listAfter registry' codec configDevice apple e (some X) =
      finalList configDevice registry apple layout first (done ++ [codec]) e (some config) := by
  have hold := hlists e
  subst hequal
  simp only [listAfter, finalList, hreinit, hX, hcopy, Receives, true_or, and_true,
    List.mem_append, List.mem_singleton] at hold ⊢
  by_cases he : e = codec ∧ config.reinit = true
  · rw [if_pos ⟨he.2, he.1⟩, if_pos ⟨Or.inr he.1, he.2⟩]
  · rw [if_neg (fun h => he ⟨h.2, h.1⟩)]
    -- the codec is not added to those that have the copy
    have hsame : ((e ∈ done ∨ e = codec) ∧ config.reinit = true) ↔
        (e ∈ done ∧ config.reinit = true) := by
      constructor
      · rintro ⟨hmem | hmem, hr⟩
        · exact ⟨hmem, hr⟩
        · exact absurd ⟨hmem, hr⟩ he
      · rintro ⟨hmem, hr⟩
        exact ⟨Or.inl hmem, hr⟩
    simp only [hsame, ← hold]
    by_cases hd : e = configDevice
    · rw [if_pos hd, hd, hdevice]
    · rw [if_neg hd]

/-- **Step lemma.**  One more codec. -/
theorem InitializedAll.snoc {registry'' : Registry ε}
    (hlayout : layout = (selectAnalog alc.controllers alc.codecs).2)
    (h : InitializedAll configDevice registry registry' apple layout first done
      (matching alc configDevice registry))
    (hfirst : first ∈ done) (hcodec : codec ∉ done)
    (hcall : Initialized registry' registry'' codec configDevice apple
      (matching alc configDevice registry')) :
    InitializedAll configDevice registry registry'' apple layout first (done ++ [codec])
      (matching alc configDevice registry) := by
  have hothers : ∀ e, e ∉ done ++ [codec] →
      registry'' e "alc-pinconfig-status" = registry e "alc-pinconfig-status" := by
    intro e he
    simp only [List.mem_append, List.mem_singleton, not_or] at he
    rw [hcall.others e he.2, h.others e he.1]
  have hlayouts : ∀ e, registry'' e "layout-id" = registry e "layout-id" :=
    fun e => (hcall.layoutId e).trans (h.layoutId e)
  cases hfound : matching alc configDevice registry with
  | none =>
      rw [hfound] at h
      rw [matching_congr (h.lists configDevice), hfound] at hcall
      exact ⟨hlayouts, hothers, h.status_snoc hcodec hcall rfl,
        fun e => (hcall.lists e).trans (h.lists e)⟩
  | some config =>
      rw [hfound] at h
      obtain ⟨hanalogCodec, hanalogLayout, hfor⟩ := matching_spec hfound
      -- the device now has one of the two rewritten entries
      obtain ⟨X, hX, hdevice⟩ : ∃ X, (X = config.onDevice apple ∨ X = config.onCodec apple) ∧
          registry' configDevice "HDAConfigDefault" = some (configListOf X) := by
        rw [h.lists configDevice, finalList]
        split
        · exact ⟨_, Or.inr rfl, rfl⟩
        · exact ⟨_, Or.inl rfl, by rw [if_pos rfl]⟩
      obtain ⟨hXfor, hXreinit, hXdevice, hXcodec⟩ := rewritten_spec hfor hX
      rw [matching_singleton hanalogCodec hanalogLayout hdevice, hXfor, ← hlayout] at hcall
      by_cases hequal : apple = layout
      · rw [decide_eq_true hequal, if_pos rfl] at hcall
        refine ⟨hlayouts, hothers, h.status_snoc hcodec hcall ?_, ?_⟩
        · simp [finalStatus, Receives, hequal, hXreinit]
        · intro e
          rw [hcall.lists e]
          exact listAfter_of_equal h.lists hdevice hequal hXreinit hXdevice hXcodec e
      · have hne : codec ≠ first := fun heq => hcodec (heq ▸ hfirst)
        rw [decide_eq_false hequal, if_neg (by simp)] at hcall
        refine ⟨hlayouts, hothers, h.status_snoc hcodec hcall ?_, ?_⟩
        · simp [finalStatus, Receives, hequal, hne]
        · intro e
          rw [hcall.lists e, listAfter, h.lists e, finalList, finalList]
          by_cases he : e = codec
          · subst he
            simp [Receives, hequal, hne, hcodec]
          · simp [he]

/-- **Run lemma.**  The codecs of an order, initialised one after the other. -/
theorem initializeAll_spec (horiginal : ∀ codec, KeepsPinConfig (original codec))
    (happle : apple ≠ 0) (first : ε) (rest : List ε) (hnodup : (first :: rest).Nodup)
    (hstatus : ∀ codec ∈ first :: rest, registry codec "alc-pinconfig-status" = none)
    (hlayout : ∀ codec ∈ first :: rest, getAudioLayout lilu plane registry codec = apple) :
    InitializedAll configDevice registry
      (initializeAll lilu plane alc original configDevice (first :: rest) registry) apple
      (selectAnalog alc.controllers alc.codecs).2 first (first :: rest)
      (matching alc configDevice registry) := by
  induction rest using List.reverseRecOn with
  | nil =>
      exact (initializeBelow_spec lilu plane original (horiginal first)
        (hstatus first (by simp)) (hlayout first (by simp)) happle).single
  | append_singleton rest codec ih =>
      rw [← List.cons_append] at hnodup hstatus hlayout ⊢
      obtain ⟨hfront, -, hfresh⟩ := List.nodup_append.mp hnodup
      have hcodec : codec ∉ first :: rest := fun hmem => hfresh codec hmem codec (by simp) rfl
      have hall := ih hfront (fun c hc => hstatus c (List.mem_append_left _ hc))
        (fun c hc => hlayout c (List.mem_append_left _ hc))
      rw [initializeAll, run_append]
      refine hall.snoc rfl (by simp) hcodec ?_
      refine initializeBelow_spec lilu plane original (horiginal codec) ?_ ?_ happle
      · exact (hall.others codec hcodec).trans (hstatus codec (by simp))
      · exact (getAudioLayout_congr lilu plane hall.layoutId codec).trans (hlayout codec (by simp))

/-- The two properties a codec ends up with. -/
def IsOutcome (key : String) : Prop := key = "alc-pinconfig-status" ∨ key = "HDAConfigDefault"

/-- **When the order matters.**  Take distinct codecs without status below one config device, with
the same non-zero layout `apple`.  If no entry matches, or the matching entry does not ask for
reinitialisation, or `apple` is the layout of the analog codec, then the order in which they are
initialised makes no difference to what they end up with.  Otherwise the codec initialised first is
marked and gets its copy, and all the others are not marked and keep their lists; the config device,
if it is one of them, has the list that was installed on it. -/
theorem order_matters_for_reinit (horiginal : ∀ codec, KeepsPinConfig (original codec))
    (happle : apple ≠ 0) (order : List ε) (hnodup : order.Nodup)
    (hstatus : ∀ codec ∈ order, registry codec "alc-pinconfig-status" = none)
    (hlayout : ∀ codec ∈ order, getAudioLayout lilu plane registry codec = apple) :
    ((∀ config, matching alc configDevice registry = some config → config.reinit = true →
        apple = (selectAnalog alc.controllers alc.codecs).2) →
      ∀ order' : List ε, order'.Perm order → ∀ codec ∈ order, ∀ key, IsOutcome key →
        initializeAll lilu plane alc original configDevice order' registry codec key =
          initializeAll lilu plane alc original configDevice order registry codec key) ∧
    (∀ config, matching alc configDevice registry = some config → config.reinit = true →
      apple ≠ (selectAnalog alc.controllers alc.codecs).2 →
      ∀ first rest, order.Perm (first :: rest) →
        let after := initializeAll lilu plane alc original configDevice (first :: rest) registry
        after first "alc-pinconfig-status" = some (.boolean true) ∧
          after first "HDAConfigDefault" = some (configListOf (config.onCodec apple)) ∧
          ∀ codec ∈ rest, after codec "alc-pinconfig-status" = some (.boolean false) ∧
            (codec ≠ configDevice →
              after codec "HDAConfigDefault" = registry codec "HDAConfigDefault") ∧
            (codec = configDevice →
              after codec "HDAConfigDefault" = some (configListOf (config.onDevice apple)))) := by
  have hspec : ∀ first rest, (first :: rest).Perm order → InitializedAll configDevice registry
      (initializeAll lilu plane alc original configDevice (first :: rest) registry) apple
      (selectAnalog alc.controllers alc.codecs).2 first (first :: rest)
      (matching alc configDevice registry) := fun first rest hperm =>
    initializeAll_spec lilu plane original horiginal happle first rest
      (hperm.nodup_iff.mpr hnodup) (fun c hc => hstatus c (hperm.mem_iff.mp hc))
      (fun c hc => hlayout c (hperm.mem_iff.mp hc))
  constructor
  · intro hfree order' hperm codec hcodec key hkey
    cases order with
    | nil => exact absurd hcodec (by simp)
    | cons first rest =>
        cases order' with
        | nil => exact absurd (hperm.mem_iff.mpr hcodec) (by simp)
        | cons first' rest' =>
            have hafter := hspec first rest (List.Perm.refl _)
            have hafter' := hspec first' rest' hperm
            have hcodec' : codec ∈ first' :: rest' := hperm.mem_iff.mpr hcodec
            -- the first codec shows in no value
            have hreceives : ∀ config, matching alc configDevice registry = some config →
                (Receives config apple (selectAnalog alc.controllers alc.codecs).2 first' codec ↔
                  Receives config apple (selectAnalog alc.controllers alc.codecs).2 first codec) := by
              intro config hfound
              constructor <;> exact fun h => ⟨h.1, Or.inl (hfree config hfound h.1)⟩
            rcases hkey with rfl | rfl
            · rw [hafter.status codec hcodec, hafter'.status codec hcodec']
              cases hfound : matching alc configDevice registry with
              | none => rfl
              | some config => simp only [finalStatus, hreceives config hfound]
            · rw [hafter.lists codec, hafter'.lists codec]
              cases hfound : matching alc configDevice registry with
              | none => rfl
              | some config => simp only [finalList, hcodec, hcodec', hreceives config hfound]
  · intro config hfound hreinit hne first rest hperm
    have hafter := hspec first rest hperm.symm
    rw [hfound] at hafter
    have hnodup' : (first :: rest).Nodup := hperm.nodup_iff.mp hnodup
    refine ⟨?_, ?_, ?_⟩
    · rw [hafter.status first (by simp)]
      simp [finalStatus, Receives, hreinit]
    · rw [hafter.lists first, finalList, if_pos ⟨by simp, hreinit, Or.inr rfl⟩]
    · intro codec hcodec
      have hnotFirst : codec ≠ first := by
        rintro rfl
        exact (List.nodup_cons.mp hnodup').1 hcodec
      have hnot : ¬Receives config apple (selectAnalog alc.controllers alc.codecs).2 first codec :=
        fun h => h.2.elim hne hnotFirst
      have hlist := hafter.lists codec
      rw [finalList, if_neg (fun h => hnot h.2)] at hlist
      refine ⟨?_, fun hd => hlist.trans (if_neg hd), fun hd => hlist.trans (if_pos hd)⟩
      rw [hafter.status codec (by simp [hcodec])]
      simp [finalStatus, hnot]

end Calls

theorem id_keepsPinConfig : KeepsPinConfig (id : RegistryChange ℕ) := fun _ _ _ _ => rfl

/-- The two codecs of the sample services, whose entry asks for reinitialisation and whose layouts
differ: the second one is left out. -/
theorem order_matters_for_reinit_sample :
    initializeAll (Lilu.documented 19 4) Sample.plane Sample.detected (fun _ => id) 1 [2, 4]
      Sample.services 4 "alc-pinconfig-status" = some (.boolean false) := by
  have hmatch : matching Sample.detected 1 Sample.services = some Sample.configEntry := rfl
  have hlayout : ∀ codec ∈ [2, 4],
      getAudioLayout (Lilu.documented 19 4) Sample.plane Sample.services codec = 7 := by decide
  have hstatus : ∀ codec ∈ [2, 4], Sample.services codec "alc-pinconfig-status" = none := by
    simp [Sample.services]
  exact (((order_matters_for_reinit (Lilu.documented 19 4) Sample.plane (fun _ => id)
    (fun _ => id_keepsPinConfig) (by decide) [2, 4] (by decide) hstatus hlayout).2
    Sample.configEntry hmatch rfl (by decide) 2 [4] (List.Perm.refl _)).2.2 4 (by simp)).1

/-- Whether the codec is marked depends on the order. -/
theorem order_of_initialization_matters :
    [2, 4].Nodup ∧
      (∀ codec ∈ [2, 4], Sample.services codec "alc-pinconfig-status" = none ∧
        getAudioLayout (Lilu.documented 19 4) Sample.plane Sample.services codec = 7) ∧
      [4, 2].Perm [2, 4] ∧
      initializeAll (Lilu.documented 19 4) Sample.plane Sample.detected (fun _ => id) 1 [4, 2]
          Sample.services 2 "alc-pinconfig-status" ≠
        initializeAll (Lilu.documented 19 4) Sample.plane Sample.detected (fun _ => id) 1 [2, 4]
          Sample.services 2 "alc-pinconfig-status" := by
  refine ⟨by decide, ?_, List.Perm.swap 2 4 [], ?_⟩
  · intro codec hcodec
    simp only [List.mem_cons, List.not_mem_nil, or_false] at hcodec
    rcases hcodec with rfl | rfl <;> exact ⟨rfl, by decide⟩
  · intro h
    have hbool := congrArg (fun o : Option OSObject => o.bind OSObject.asBoolean) h
    exact absurd hbool (by decide)

end AppleALC
