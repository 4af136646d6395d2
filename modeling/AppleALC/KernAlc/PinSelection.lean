import AppleALC.KernAlc.PinConfigOrder

/-!
# Which entry a codec is given

One first call of `initializePinConfig`, on a codec that is not the config device itself.  The list
of the config device may hold objects of any class; the call looks for the first dictionary that
names the detected analog codec and its layout, leaves that entry alone on the config device with the
layout macOS knows, and gives the codec a copy when the entry asks for reinitialisation.

The numbers of an entry are compared in 32 bits, whatever their width in the property list.

* `NamesAnalog` — an object of the list is an entry for the analog codec and its layout;
* `Selected` / `Unselected` — what a call leaves with such an entry, and without one;
* `findConfig_first` — the loop stops at the first of them;
* `initializePinConfig_selects` — what the call leaves, for every list.
-/

namespace AppleALC

open PropertyStore

/-! ### The entry looked for -/

/-- A dictionary whose `CodecID` and `LayoutID` are numbers with these 32-bit values. -/
def NamesAnalog (codec layout : UInt32) (o : OSObject) : Prop :=
  ∃ config currCodec currLayout, o = .dictionary config ∧
    getObject "CodecID" config = some (.number currCodec) ∧
    getObject "LayoutID" config = some (.number currLayout) ∧
    currCodec.toUInt32 = codec ∧ currLayout.toUInt32 = layout

/-- A dictionary whose `CodecID` and `LayoutID` are these numbers and no longer ones. -/
def EqualsAnalog (codec layout : UInt32) (o : OSObject) : Prop :=
  ∃ config, o = .dictionary config ∧
    getObject "CodecID" config = some (.number codec.toUInt64) ∧
    getObject "LayoutID" config = some (.number layout.toUInt64)

/-- An object is a number exactly if it casts to one. -/
theorem bind_asNumber {o : Option OSObject} {v : UInt64} :
    o.bind OSObject.asNumber = some v ↔ o = some (.number v) := by
  cases o with
  | none => simp
  | some object => cases object <;> simp [OSObject.asNumber]

theorem bind_asData {o : Option OSObject} {bytes : List UInt8} :
    o.bind OSObject.asData = some bytes ↔ o = some (.data bytes) := by
  cases o with
  | none => simp
  | some object => cases object <;> simp [OSObject.asData]

/-- The check of the loop, on a dictionary. -/
theorem isFor_iff {config : ConfigEntry} {codec layout : UInt32} :
    config.isFor codec layout = true ↔ NamesAnalog codec layout (.dictionary config) := by
  constructor
  · intro h
    unfold ConfigEntry.isFor at h
    split at h
    · next currCodec currLayout hcodec hlayout =>
      simp only [Bool.and_eq_true, beq_iff_eq] at h
      exact ⟨config, currCodec, currLayout, rfl, bind_asNumber.mp hcodec,
        bind_asNumber.mp hlayout, h.1, h.2⟩
    · exact absurd h (by simp)
  · rintro ⟨config', currCodec, currLayout, heq, hcodec, hlayout, rfl, rfl⟩
    have hconfig : config' = config := (OSObject.dictionary.inj heq).symm
    subst hconfig
    simp [ConfigEntry.isFor, hcodec, hlayout, OSObject.asNumber]

/-- The loop finds nothing when no object names the codec. -/
theorem findConfig_eq_none {codec layout : UInt32} {configList : List OSObject}
    (h : ∀ o ∈ configList, ¬NamesAnalog codec layout o) :
    findConfig configList codec layout = none := by
  rw [findConfig, List.find?_eq_none]
  intro config hconfig
  obtain ⟨o, ho, hcast⟩ := List.mem_filterMap.mp hconfig
  rw [isFor_iff]
  have hdict : o = .dictionary config := by
    cases o <;> simp_all [OSObject.asDictionary]
  exact hdict ▸ h o ho

/-- The loop stops at the first object that names the codec. -/
theorem findConfig_first {codec layout : UInt32} {pre post : List OSObject} {entry : ConfigEntry}
    (hpre : ∀ o ∈ pre, ¬NamesAnalog codec layout o)
    (hentry : NamesAnalog codec layout (.dictionary entry)) :
    findConfig (pre ++ .dictionary entry :: post) codec layout = some entry := by
  have hnone : (pre.filterMap OSObject.asDictionary).find?
      (fun config => ConfigEntry.isFor config codec layout) = none := findConfig_eq_none hpre
  have hcast : OSObject.asDictionary (.dictionary entry) = some entry := rfl
  have hhead : (fun config => ConfigEntry.isFor config codec layout) entry = true :=
    isFor_iff.mpr hentry
  rw [findConfig, List.filterMap_append, List.filterMap_cons_some hcast, List.find?_append, hnone,
    Option.none_or]
  exact List.find?_cons_of_pos hhead

/-! ### What the two devices are left with -/

section Outcome

variable {ε : Type*}

/-- A dictionary with the layout replaced and nothing else. -/
structure Relaid (apple : UInt32) (entry entry' : ConfigEntry) : Prop where
  layout : getObject "LayoutID" entry' = some (.number apple.toUInt64)
  others : ∀ key, key ≠ "LayoutID" → getObject key entry' = getObject key entry

/-- The copy a codec gets of `entry'`: the wake configuration of `entry` takes the place of the boot
one, if there is a wake configuration. -/
structure CopiedForWake (entry entry' copy : ConfigEntry) : Prop where
  config : ∀ wake, getObject "WakeConfigData" entry = some (.data wake) →
    getObject "ConfigData" copy = some (.data wake) ∧ getObject "WakeConfigData" copy = none
  boot : ∀ wake boot, getObject "WakeConfigData" entry = some (.data wake) →
    getObject "ConfigData" entry = some (.data boot) →
      getObject "BootConfigData" copy = some (.data boot)
  noBoot : ∀ wake, getObject "WakeConfigData" entry = some (.data wake) →
    (∀ boot, getObject "ConfigData" entry ≠ some (.data boot)) →
      getObject "BootConfigData" copy = getObject "BootConfigData" entry'
  others : ∀ key, key ≠ "ConfigData" → key ≠ "WakeConfigData" → key ≠ "BootConfigData" →
    getObject key copy = getObject key entry'
  noWake : (∀ wake, getObject "WakeConfigData" entry ≠ some (.data wake)) → copy = entry'

/-- No entry was selected: the codec has its two statuses, and nothing else is written. -/
structure Unselected (registry registry' : Registry ε) (codec : ε) : Prop where
  pin : registry' codec "alc-pinconfig-status" = some (.boolean false)
  sleep : registry' codec "alc-sleep-status" = some (.boolean false)
  others : ∀ e key, e ≠ codec ∨ key ≠ "alc-pinconfig-status" ∧ key ≠ "alc-sleep-status" →
    registry' e key = registry e key

/-- The entry was selected: the config device has it alone, with the layout `apple`, and the codec
has a copy exactly if the entry asks for reinitialisation. -/
structure Selected (registry registry' : Registry ε) (codec configDevice : ε) (apple : UInt32)
    (entry : ConfigEntry) : Prop where
  lists : ∃ entry', Relaid apple entry entry' ∧
    registry' configDevice "HDAConfigDefault" = some (.array [.dictionary entry']) ∧
    (getObject "WakeVerbReinit" entry = some (.boolean true) → ∃ copy,
      CopiedForWake entry entry' copy ∧
        registry' codec "HDAConfigDefault" = some (.array [.dictionary copy]))
  reinit : getObject "WakeVerbReinit" entry = some (.boolean true) →
    registry' codec "alc-pinconfig-status" = some (.boolean true)
  noReinit : getObject "WakeVerbReinit" entry ≠ some (.boolean true) →
    registry' codec "alc-pinconfig-status" = some (.boolean false) ∧
      registry' codec "HDAConfigDefault" = registry codec "HDAConfigDefault"
  sleep : registry' codec "alc-sleep-status" = some (.boolean false)
  others : ∀ e key, ¬(e = configDevice ∧ key = "HDAConfigDefault") →
    ¬(e = codec ∧ (key = "alc-pinconfig-status" ∨ key = "alc-sleep-status" ∨
      key = "HDAConfigDefault")) → registry' e key = registry e key

theorem reinit_iff {entry : ConfigEntry} :
    entry.reinit = true ↔ getObject "WakeVerbReinit" entry = some (.boolean true) := by
  unfold ConfigEntry.reinit
  cases getObject "WakeVerbReinit" entry with
  | none => simp
  | some o => cases o <;> simp [OSObject.asBoolean]

theorem withLayout_relaid (apple : UInt32) (entry : ConfigEntry) :
    Relaid apple entry (entry.withLayout apple) :=
  ⟨getObject_withLayout entry apple, fun _ h => getObject_withLayout_of_ne h entry apple⟩

/-- The copy made for the codec is one for the wake. -/
theorem forWake_copied (entry entry' : ConfigEntry) :
    CopiedForWake entry entry' (entry.forWake entry') := by
  refine { config := ?_, boot := ?_, noBoot := ?_, others := ?_, noWake := ?_ }
  · intro wake hwake
    have hdata := bind_asData.mpr hwake
    unfold ConfigEntry.forWake
    rw [hdata]
    exact ⟨by rw [getObject_removeObject_of_ne (by decide), getObject_setObject_self],
      getObject_removeObject_self _ _⟩
  · intro wake boot hwake hboot
    unfold ConfigEntry.forWake
    rw [bind_asData.mpr hwake, bind_asData.mpr hboot]
    simp only
    rw [getObject_removeObject_of_ne (by decide), getObject_setObject_of_ne (by decide),
      getObject_setObject_self]
  · intro wake hwake hboot
    have hnone : (getObject "ConfigData" entry).bind OSObject.asData = none := by
      rw [Option.eq_none_iff_forall_ne_some]
      intro bytes hbytes
      exact hboot bytes (bind_asData.mp hbytes)
    unfold ConfigEntry.forWake
    rw [bind_asData.mpr hwake, hnone]
    simp only
    rw [getObject_removeObject_of_ne (by decide), getObject_setObject_of_ne (by decide)]
  · intro key hconfig hwake hboot
    exact getObject_forWake_of_ne hboot hconfig hwake entry entry'
  · intro hwake
    have hnone : (getObject "WakeConfigData" entry).bind OSObject.asData = none := by
      rw [Option.eq_none_iff_forall_ne_some]
      intro bytes hbytes
      exact hwake bytes (bind_asData.mp hbytes)
    unfold ConfigEntry.forWake
    rw [hnone]

variable [DecidableEq ε] {registry : Registry ε} {codec configDevice : ε} {apple : UInt32}

theorem resetStatus_unselected (registry : Registry ε) (codec : ε) :
    Unselected registry (resetStatus codec registry) codec := by
  refine ⟨?_, ?_, ?_⟩
  · rw [resetStatus_apply, if_pos ⟨rfl, Or.inl rfl⟩]
  · rw [resetStatus_apply, if_pos ⟨rfl, Or.inr rfl⟩]
  · intro e key h
    rw [resetStatus_apply, if_neg]
    rintro ⟨he, hkey⟩
    rcases h with h | ⟨hpin, hsleep⟩
    · exact h he
    · exact hkey.elim hpin hsleep

/-- Installing an entry selects it. -/
theorem installConfig_selected (hne : codec ≠ configDevice) (registry : Registry ε)
    (entry : ConfigEntry) :
    Selected registry
      (installConfig codec configDevice apple entry (resetStatus codec registry))
      codec configDevice apple entry := by
  have hreset := resetStatus_unselected registry codec
  cases hreinit : entry.reinit with
  | true =>
      have hset : installConfig codec configDevice apple entry (resetStatus codec registry) =
          set (set (set (resetStatus codec registry) configDevice "HDAConfigDefault"
            (configListOf (entry.withLayout apple))) codec "HDAConfigDefault"
            (configListOf (entry.forWake (entry.withLayout apple)))) codec "alc-pinconfig-status"
            (.boolean true) := by
        simp only [installConfig, hreinit, if_true]
      rw [hset]
      have hverb := reinit_iff.mp hreinit
      refine ⟨⟨entry.withLayout apple, withLayout_relaid apple entry, ?_, ?_⟩, ?_, ?_, ?_, ?_⟩
      · rw [set_of_ne_entry _ hne.symm, set_of_ne_entry _ hne.symm, set_self, configListOf]
      · intro _
        refine ⟨_, forWake_copied entry (entry.withLayout apple), ?_⟩
        rw [set_of_ne_key _ _ _ (by decide), set_self, configListOf]
      · intro _
        rw [set_self]
      · intro hfalse
        exact absurd hverb hfalse
      · rw [set_of_ne_key _ _ _ (by decide), set_of_ne_key _ _ _ (by decide),
          set_of_ne_key _ _ _ (by decide), hreset.sleep]
      · intro e key hdevice hcodec
        rw [set_apply, if_neg (fun h => hcodec ⟨h.1, Or.inl h.2⟩), set_apply,
          if_neg (fun h => hcodec ⟨h.1, Or.inr (Or.inr h.2)⟩), set_apply, if_neg hdevice]
        refine hreset.others e key ?_
        by_cases he : e = codec
        · exact Or.inr ⟨fun h => hcodec ⟨he, Or.inl h⟩, fun h => hcodec ⟨he, Or.inr (Or.inl h)⟩⟩
        · exact Or.inl he
  | false =>
      have hset : installConfig codec configDevice apple entry (resetStatus codec registry) =
          set (resetStatus codec registry) configDevice "HDAConfigDefault"
            (configListOf (entry.withLayout apple)) := by
        simp only [installConfig, hreinit, Bool.false_eq_true, if_false]
      rw [hset]
      have hverb : getObject "WakeVerbReinit" entry ≠ some (.boolean true) := by
        intro h
        rw [reinit_iff.mpr h] at hreinit
        exact absurd hreinit (by decide)
      refine ⟨⟨entry.withLayout apple, withLayout_relaid apple entry, ?_, ?_⟩, ?_, ?_, ?_, ?_⟩
      · rw [set_self, configListOf]
      · intro h
        exact absurd h hverb
      · intro h
        exact absurd h hverb
      · intro _
        rw [set_of_ne_entry _ hne, set_of_ne_entry _ hne]
        exact ⟨hreset.pin, hreset.others codec _ (Or.inr ⟨by decide, by decide⟩)⟩
      · rw [set_of_ne_entry _ hne, hreset.sleep]
      · intro e key hdevice hcodec
        rw [set_apply, if_neg hdevice]
        refine hreset.others e key ?_
        by_cases he : e = codec
        · exact Or.inr ⟨fun h => hcodec ⟨he, Or.inl h⟩, fun h => hcodec ⟨he, Or.inr (Or.inl h)⟩⟩
        · exact Or.inl he

/-! ### The call -/

variable (lilu : Lilu) (plane : ServicePlane ε) (alc : AlcEnabler)

omit [DecidableEq ε] in
/-- What the matching entry of a list is. -/
theorem matching_eq_findConfig {configList : List OSObject}
    (hlist : registry configDevice "HDAConfigDefault" = some (.array configList))
    (hcodec : (selectAnalog alc.controllers alc.codecs).1 ≠ 0)
    (hlayout : (selectAnalog alc.controllers alc.codecs).2 ≠ 0) :
    matching alc configDevice registry =
      findConfig configList (selectAnalog alc.controllers alc.codecs).1
        (selectAnalog alc.controllers alc.codecs).2 := by
  unfold matching
  simp only
  rw [if_pos ⟨hcodec, hlayout⟩, hlist]
  rfl

/-- **Which entry a first call selects.**  The registry handed on to the original function has the
first entry that names the analog codec and layout in 32 bits selected, or nothing selected when
there is none. -/
theorem initializePinConfig_selects (original : RegistryChange ε) (hne : codec ≠ configDevice)
    (hstatus : registry codec "alc-pinconfig-status" = none)
    (happle : getAudioLayout lilu plane registry codec ≠ 0)
    (hcodec : (selectAnalog alc.controllers alc.codecs).1 ≠ 0)
    (hlayout : (selectAnalog alc.controllers alc.codecs).2 ≠ 0) {configList : List OSObject}
    (hlist : registry configDevice "HDAConfigDefault" = some (.array configList)) :
    ∃ registry', initializePinConfig lilu plane alc original (some codec) (some configDevice)
        registry = (original registry', [.initializePinConfig (some codec) (some configDevice)]) ∧
      ((∀ o ∈ configList, ¬NamesAnalog (selectAnalog alc.controllers alc.codecs).1
          (selectAnalog alc.controllers alc.codecs).2 o) → Unselected registry registry' codec) ∧
      ∀ pre entry post, configList = pre ++ .dictionary entry :: post →
        (∀ o ∈ pre, ¬NamesAnalog (selectAnalog alc.controllers alc.codecs).1
          (selectAnalog alc.controllers alc.codecs).2 o) →
        NamesAnalog (selectAnalog alc.controllers alc.codecs).1
          (selectAnalog alc.controllers alc.codecs).2 (.dictionary entry) →
          Selected registry registry' codec configDevice
            (getAudioLayout lilu plane registry codec) entry := by
  refine ⟨configureCodec lilu plane alc codec configDevice registry, ?_, ?_, ?_⟩
  · simp only [initializePinConfig, hstatus, Option.isNone_none, if_true]
  · intro hnone
    rw [configureCodec_eq lilu plane rfl happle, matching_eq_findConfig alc hlist hcodec hlayout,
      findConfig_eq_none hnone]
    exact resetStatus_unselected registry codec
  · intro pre entry post hsplit hpre hentry
    rw [configureCodec_eq lilu plane rfl happle, matching_eq_findConfig alc hlist hcodec hlayout,
      hsplit, findConfig_first hpre hentry]
    exact installConfig_selected hne registry entry

end Outcome

namespace Sample

/-- The entry of the sample with a codec id of more than 32 bits. -/
def longEntry : ConfigEntry :=
  [("CodecID", .number 0x110EC0292), ("ConfigData", .data [0x01]), ("LayoutID", .number 18)]

/-- The sample services with that entry on the config device. -/
def longServices : Registry ℕ := fun e key =>
  if e = 0 ∧ key = "layout-id" then some (.data (bytesOfUInt32 7))
  else if e = 1 ∧ key = "HDAConfigDefault" then some (configListOf longEntry)
  else none

end Sample

/-- The sample entry is selected for codec 2 on the config device 1. -/
theorem initializePinConfig_selects_sample : ∃ registry' : Registry ℕ,
    initializePinConfig (Lilu.documented 19 4) Sample.plane Sample.detected id (some 2) (some 1)
        Sample.services = (id registry', [.initializePinConfig (some 2) (some 1)]) ∧
      Selected Sample.services registry' 2 1
        (getAudioLayout (Lilu.documented 19 4) Sample.plane Sample.services 2)
        Sample.configEntry := by
  obtain ⟨registry', hcall, -, hselected⟩ := initializePinConfig_selects (Lilu.documented 19 4)
    Sample.plane Sample.detected id (show (2 : ℕ) ≠ 1 by decide)
    (show Sample.services 2 "alc-pinconfig-status" = none from rfl) (by decide) (by decide)
    (by decide) (show Sample.services 1 "HDAConfigDefault" =
      some (.array [.dictionary Sample.configEntry]) from rfl)
  exact ⟨registry', hcall, hselected [] Sample.configEntry [] rfl (by simp)
    ⟨Sample.configEntry, 0x10EC0292, 18, rfl, rfl, rfl, rfl, rfl⟩⟩

/-- A longer number is taken for the codec id: no entry equals it, and the list of the config device
is replaced all the same. -/
theorem selects_longer_number_sample :
    selectAnalog Sample.detected.controllers Sample.detected.codecs = (0x10EC0292, 18) ∧
      getAudioLayout (Lilu.documented 19 4) Sample.plane Sample.longServices 2 = 7 ∧
      Sample.longServices 2 "alc-pinconfig-status" = none ∧
      Sample.longServices 1 "HDAConfigDefault" = some (.array [.dictionary Sample.longEntry]) ∧
      (∀ o ∈ [OSObject.dictionary Sample.longEntry], ¬EqualsAnalog 0x10EC0292 18 o) ∧
      (initializePinConfig (Lilu.documented 19 4) Sample.plane Sample.detected id (some 2) (some 1)
        Sample.longServices).1 1 "HDAConfigDefault" ≠
          Sample.longServices 1 "HDAConfigDefault" := by
  refine ⟨by decide, by decide, rfl, rfl, ?_, ?_⟩
  · intro o ho
    rw [List.mem_singleton] at ho
    subst ho
    rintro ⟨config, heq, hcodec, -⟩
    rw [← OSObject.dictionary.inj heq] at hcodec
    exact absurd (OSObject.number.inj (Option.some.inj hcodec)) (by decide)
  · intro h
    have hlayout := congrArg (fun o : Option OSObject =>
      ((((o.bind OSObject.asArray).bind List.head?).bind OSObject.asDictionary).bind
        (getObject "LayoutID")).bind OSObject.asNumber) h
    exact absurd hlayout (by decide)

end AppleALC
