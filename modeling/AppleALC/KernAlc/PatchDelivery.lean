import AppleALC.KernAlc.CodecBinding
import AppleALC.KernAlc.NvidiaIds

/-!
# Which patches reach a kext

A patch is only tried on calls for the kext it targets, and a kext that is loaded again has to be
patched again.  So what counts for a kext is its most recent call.

Controllers are bound by the first call that proceeds, at the latest by the call in question, and
stay bound; the patches of their mods are never missed.  Codecs are found later, on a call for a
`Detect` kext, and nothing goes back to the kexts that were loaded before: their most recent call is
too early for the patches of the codec.  A call for AppleGFXHDA patches nothing at all.

* `DeliversControllers` / `DeliversCodecs` — a call submits every patch that is due, of the mods of
  the controllers and of those of the codecs;
* `ShowsCodec` / `PublishesSupported` — a call that finds a codec, said by what the registry shows;
* `delivers_at_last_call` — what has been submitted at the end of any sequence of calls.
-/

namespace AppleALC

open OutputMachine CursorPool

/-! ### What the codec loop submits -/

theorem mem_patchCodecs (cfg : Config) {index j : ℕ} {p : LookupPatch} {codecs : List CodecInfo} :
    ∀ {start i : ℕ}, .codecPatch i j p ∈ (patchCodecs cfg index start codecs).2 ↔
      ∃ n ci info patch, codecs[n]? = some ci ∧ i = start + n ∧ ci.info = some info ∧
        info.patches[j]? = some patch ∧ p = patch.patch ∧ Applies cfg index patch := by
  induction codecs with
  | nil => intro start i; simp [patchCodecs]
  | cons ci cis ih =>
      intro start i
      have hrest : (∃ n ci' info patch, (ci :: cis)[n]? = some ci' ∧ i = start + n ∧
            ci'.info = some info ∧ info.patches[j]? = some patch ∧ p = patch.patch ∧
            Applies cfg index patch) ↔
          (∃ info patch, i = start ∧ ci.info = some info ∧ info.patches[j]? = some patch ∧
            p = patch.patch ∧ Applies cfg index patch) ∨
          ∃ n ci' info patch, cis[n]? = some ci' ∧ i = start + 1 + n ∧ ci'.info = some info ∧
            info.patches[j]? = some patch ∧ p = patch.patch ∧ Applies cfg index patch := by
        constructor
        · rintro ⟨n, ci', info, patch, hn, hi, h⟩
          cases n with
          | zero =>
              simp only [List.getElem?_cons_zero, Option.some.injEq] at hn
              subst hn
              exact Or.inl ⟨info, patch, hi, h⟩
          | succ n => exact Or.inr ⟨n, ci', info, patch, by simpa using hn, by omega, h⟩
        · rintro (⟨info, patch, hi, h⟩ | ⟨n, ci', info, patch, hn, hi, h⟩)
          · exact ⟨0, ci, info, patch, rfl, hi, h⟩
          · exact ⟨n + 1, ci', info, patch, by simpa using hn, by omega, h⟩
      rw [hrest, ← ih, patchCodecs]
      cases hinfo : ci.info with
      | none => simp
      | some info =>
          simp only [List.mem_append, List.mem_map, Event.codecPatch.injEq, Prod.exists,
            mem_applyPatches, Nat.zero_add, Option.some.injEq]
          constructor
          · rintro (⟨j', p', ⟨n, patch, hpatch, rfl, rfl, happlies⟩, rfl, rfl, rfl⟩ | h)
            · exact Or.inl ⟨info, patch, rfl, rfl, hpatch, rfl, happlies⟩
            · exact Or.inr h
          · rintro (⟨info', patch, rfl, hinfo', hpatch, rfl, happlies⟩ | h)
            · subst hinfo'
              exact Or.inl ⟨j, patch.patch, ⟨j, patch, hpatch, rfl, rfl, happlies⟩, rfl, rfl, rfl⟩
            · exact Or.inr h

/-! ### Finding the published codec -/

/-- A codec that a vendor table supports is published below HDEF: the first attempt that finds an
entry finds one with numbers for ids and a mod. -/
def PublishesSupported (cfg : Config) (load : KextLoad) : Prop :=
  ∃ n < cfg.lilu.bruteMax, ∃ e ven rev,
    (∀ i < n, (load.iterateOver .audioBuiltinAnalog i).bind firstCodecEntry = none) ∧
    (load.iterateOver .audioBuiltinAnalog n).bind firstCodecEntry = some e ∧
    e "IOHDACodecVendorID" = some (.number ven) ∧ e "IOHDACodecRevisionID" = some (.number rev) ∧
    (findCodecMod cfg.res.vendorMod (CodecInfo.create e 0 ven.toUInt32 rev.toUInt32)).isSome

theorem bruteCodecs_finds (load : KextLoad) (detect : Device) (ctrl : ℕ) (codecs : List CodecInfo)
    {e : Properties} {ven rev : UInt64} (hven : e "IOHDACodecVendorID" = some (.number ven))
    (hrev : e "IOHDACodecRevisionID" = some (.number rev)) {n : ℕ} :
    ∀ {remaining brute : ℕ}, n < remaining →
      (∀ i < n, (load.iterateOver detect (brute + i)).bind firstCodecEntry = none) →
      (load.iterateOver detect (brute + n)).bind firstCodecEntry = some e →
      bruteCodecs load detect ctrl remaining brute codecs =
        codecs ++ [CodecInfo.create e ctrl ven.toUInt32 rev.toUInt32] := by
  have happend : appendCodec ctrl e codecs =
      (true, codecs ++ [CodecInfo.create e ctrl ven.toUInt32 rev.toUInt32]) := by
    simp [appendCodec, hven, hrev, OSObject.asNumber]
  induction n with
  | zero =>
      intro remaining brute hlt _ hfound
      obtain ⟨r, rfl⟩ := Nat.exists_eq_succ_of_ne_zero (Nat.ne_of_gt hlt)
      rw [Nat.add_zero] at hfound
      simp only [bruteCodecs, hfound, happend]
  | succ n ih =>
      intro remaining brute hlt hnone hfound
      obtain ⟨r, rfl⟩ := Nat.exists_eq_succ_of_ne_zero (Nat.ne_of_gt (Nat.zero_lt_of_lt hlt))
      have hfirst := hnone 0 (Nat.succ_pos n)
      rw [Nat.add_zero] at hfirst
      simp only [bruteCodecs, hfirst]
      refine ih (by omega) ?_ ?_
      · intro i hi
        have h := hnone (i + 1) (by omega)
        rwa [show brute + (i + 1) = brute + 1 + i by omega] at h
      · rwa [show brute + (n + 1) = brute + 1 + n by omega] at hfound

/-- Below some controller of the list that has HDEF as its detect entry, the codec is appended. -/
theorem bruteControllers_finds (cfg : Config) {load : KextLoad} (h : PublishesSupported cfg load)
    {c : ControllerInfo} (hdetect : c.detect = some .audioBuiltinAnalog)
    {cs : List ControllerInfo} (hc : c ∈ cs) :
    ∀ (ctrl : ℕ) (codecs : List CodecInfo),
      ∃ ci ∈ bruteControllers cfg.lilu load ctrl cs codecs,
        (findCodecMod cfg.res.vendorMod ci).isSome := by
  obtain ⟨n, hn, e, ven, rev, hnone, hfound, hven, hrev, hsupported⟩ := h
  induction cs with
  | nil => exact absurd hc (by simp)
  | cons c' cs ih =>
      intro ctrl codecs
      rw [bruteControllers]
      rcases List.mem_cons.mp hc with rfl | hc
      · obtain ⟨found, heq, -, -⟩ := bruteControllers_spec cfg.lilu load cs (ctrl + 1)
          (bruteCodecs load .audioBuiltinAnalog ctrl cfg.lilu.bruteMax 0 codecs)
        simp only [hdetect]
        rw [heq, bruteCodecs_finds load .audioBuiltinAnalog ctrl codecs hven hrev hn
          (by simpa using hnone) (by simpa using hfound)]
        -- which controller the codec hangs below makes no difference to the vendor tables
        exact ⟨CodecInfo.create e ctrl ven.toUInt32 rev.toUInt32, by simp, hsupported⟩
      · split
        · exact ih hc _ _
        · exact ih hc _ _

theorem validateCodecs_pos {vendorMod : List VendorModInfo} {codecs : List CodecInfo}
    {ci : CodecInfo} (hci : ci ∈ codecs) (h : (findCodecMod vendorMod ci).isSome) :
    0 < (validateCodecs vendorMod codecs).length := by
  induction codecs with
  | nil => exact absurd hci (by simp)
  | cons ci' cis ih =>
      unfold validateCodecs
      split
      · exact Nat.succ_pos _
      · next hnone =>
        rcases List.mem_cons.mp hci with rfl | hci
        · rw [hnone] at h
          exact absurd h (by decide)
        · exact ih hci

/-! ### When the codec is found -/

section Delivery

variable (cfg : Config) (boot : Boot) (table : List ControllerModInfo)

/-- Controllers stay the same once they are loaded. -/
theorem controllers_stay (later : List KextLoad) {alc : AlcEnabler}
    (h : alc.progressState.controllersLoaded = true) :
    (run (processKext cfg) later alc).progressState.controllersLoaded = true ∧
      (run (processKext cfg) later alc).controllers = alc.controllers := by
  refine run_eq_of_fixed (Q := fun alc : AlcEnabler => alc.progressState.controllersLoaded = true)
    (f := AlcEnabler.controllers) ?_ later h
  intro load alc hload
  refine ⟨controllersLoaded_step cfg load hload, controllers_of_not_grabs cfg ?_⟩
  rintro ⟨hfalse, -⟩
  rw [hload] at hfalse
  exact absurd hfalse (by decide)

/-- A call for a `Detect` kext finds the published codec, if none was found before. -/
theorem codecsLoaded_of_publishes {load : KextLoad} {k : ℕ} {alc : AlcEnabler}
    (hk : Proceeds cfg load k) (hdetects : cfg.res.detects k = true)
    (hload : alc.progressState.controllersLoaded = true) {c : ControllerInfo}
    (hc : c ∈ alc.controllers) (hdetect : c.detect = some .audioBuiltinAnalog)
    (hpub : PublishesSupported cfg load) : Settled (processKext cfg load alc).1 := by
  have hsame := processKext_same cfg hk alc
  refine ⟨hsame.controllersLoaded.trans (detect_loaded cfg load k alc), ?_⟩
  rw [hsame.codecsLoaded]
  cases hcodecs : alc.progressState.codecsLoaded with
  | true => rw [detect_idle cfg hload (Or.inl hcodecs), hcodecs]
  | false =>
      obtain ⟨ci, hci, hsupported⟩ := bruteControllers_finds cfg hpub hdetect hc 0 alc.codecs
      rw [detect_codecs cfg hload hcodecs hdetects]
      simp only [grabCodecs, decide_eq_true_eq]
      exact validateCodecs_pos hci hsupported

/-- Among the calls there is a call for a `Detect` kext that shows a supported codec, after an
earlier call that proceeds; the first call that proceeds shows a readable HDEF. -/
def ShowsCodec (loads : List KextLoad) : Prop :=
  ∃ before first between hda after, loads = before ++ first :: (between ++ hda :: after) ∧
    (∀ load ∈ before, ∀ k, ¬Proceeds cfg load k) ∧ (∃ k, Proceeds cfg first k) ∧
    AnalogReadable cfg.lilu first ∧ (∃ k, Proceeds cfg hda k ∧ cfg.res.detects k = true) ∧
    PublishesSupported cfg hda

/-- Calls that take an early return leave the plugin as it was. -/
theorem run_of_not_proceeds {before : List KextLoad}
    (h : ∀ load ∈ before, ∀ k, ¬Proceeds cfg load k) (alc : AlcEnabler) :
    run (processKext cfg) before alc = alc := by
  induction before generalizing alc with
  | nil => rfl
  | cons load before ih =>
      rw [run_cons, processKext_of_not_proceeds cfg (h load (by simp))]
      exact ih (fun l hl => h l (by simp [hl])) alc

theorem settled_of_showsCodec {loads : List KextLoad} (h : ShowsCodec cfg loads) :
    Settled (stateAfter cfg boot table loads) := by
  obtain ⟨before, first, between, hda, after, rfl, hbefore, hfirst, hreadable, ⟨k, hk, hdetects⟩,
    hpub⟩ := h
  have hboot : (bootAlc cfg.lilu boot table).progressState = {} :=
    (updateProperties_booted cfg.lilu boot table).progressState
  rw [stateAfter, run_append, run_of_not_proceeds cfg hbefore, run_cons, run_append, run_cons]
  generalize bootAlc cfg.lilu boot table = alc at hboot ⊢
  have hgrabs : Grabs cfg first alc := ⟨by rw [hboot], hfirst⟩
  obtain ⟨c₀, hc₀⟩ := Option.isSome_iff_exists.mp ((grabbed_isSome cfg.lilu first).mpr hreadable)
  have hc : bindController first.modelType alc.controllerMod c₀ ∈
      (processKext cfg first alc).1.controllers := by
    rw [controllers_of_grabs cfg hgrabs, hc₀]
    exact List.mem_map_of_mem (by simp)
  obtain ⟨k₀, hk₀⟩ := hfirst
  obtain ⟨hloaded, hstay⟩ :=
    controllers_stay cfg between (controllersLoaded_of_proceeds cfg hk₀ alc)
  have hsettled := codecsLoaded_of_publishes cfg hk hdetects hloaded (hstay ▸ hc)
    (by rw [bindController_detect]; exact (grabbed_spec hc₀).2.1) hpub
  exact run_invariant (P := Settled) (fun load _ hs => (settled_step cfg load hs).1) after hsettled

/-! ### The most recent call of a kext -/

/-- What the claims below say was submitted: the patch at `(mod, j)` of the generated table, with its
find rewritten at most where it was an NVIDIA placeholder. -/
def SubmitsModPatch (events : List Event) (mod j : ℕ) (info : ControllerModInfo)
    (patch : KextPatch) : Prop :=
  ∃ slot, .controllerPatch mod j (patch.rewritten slot).patch ∈ events ∧
    (slot ≠ none → info.vendor = VendorID.NVIDIA ∧ IsPlaceholder patch.patch)

/-- Every patch of the kext that belongs to the mod of a controller which is not skipped is
submitted. -/
def DeliversControllers (load : KextLoad) (events : List Event) (final : AlcEnabler) : Prop :=
  ∀ c ∈ final.controllers, c.nopatch = false → ∀ mod info j patch, c.info = some mod →
    table[mod]? = some info → info.patches[j]? = some patch → Applies cfg load.index patch →
      SubmitsModPatch events mod j info patch

/-- Every patch of the kext that belongs to the mod of a detected codec is submitted. -/
def DeliversCodecs (load : KextLoad) (events : List Event) (final : AlcEnabler) : Prop :=
  ∀ i ci info j patch, final.codecs[i]? = some ci → ci.info = some info →
    info.patches[j]? = some patch → Applies cfg load.index patch →
      .codecPatch i j patch.patch ∈ events

theorem Applies.rewritten {cfg : Config} {index : ℕ} {patch : KextPatch}
    (h : Applies cfg index patch) (slot : Option ℕ) :
    Applies cfg index (patch.rewritten slot) := by
  cases slot <;> exact h

/-- A call that proceeds delivers the patches of the controllers it leaves. -/
theorem deliversControllers_of_proceeds {load : KextLoad} {k : ℕ} (hk : Proceeds cfg load k)
    (pre : List KextLoad) :
    DeliversControllers cfg table load (processKext cfg load (stateAfter cfg boot table pre)).2
      (processKext cfg load (stateAfter cfg boot table pre)).1 := by
  obtain ⟨l, hrep, -⟩ := stateAfter_represents cfg boot table pre
  generalize stateAfter cfg boot table pre = alc at hrep ⊢
  intro c hc hnopatch mod info j patch hinfo hmod hpatch happlies
  rw [(processKext_same cfg hk alc).controllers] at hc
  obtain ⟨front, back, hsplit⟩ := List.append_of_mem hc
  obtain ⟨hdmod, hdpool⟩ := detect_pool cfg load k alc
  have hstart : Follows table (bootAlc cfg.lilu boot table).nvidiaDeviceIdUsage l
      (detect cfg load k alc) :=
    Follows.of_same ⟨l, Ledger.Extends.refl l, hrep⟩ hdmod hdpool
  -- the table at the iteration of this controller
  obtain ⟨l', -, hrep'⟩ := follows_patchLoop cfg load.index front hstart
  obtain ⟨slot, hchosen, hslot⟩ := getElem?_chosenPatches hrep' hmod hpatch
  refine ⟨slot, (mem_processKext_controllerPatch cfg).mpr
    ⟨k, front, c, back, hk, hsplit, (mem_patchController cfg).mpr
      ⟨hinfo, hnopatch, rewriteMod l' mod info, patch.rewritten slot, ?_, hchosen, rfl,
        happlies.rewritten slot⟩⟩, hslot⟩
  rw [hrep'.controllerMod, rewriteTable, List.getElem?_mapIdx, hmod]
  rfl

/-- A call that proceeds once the codec is found delivers its patches. -/
theorem deliversCodecs_of_proceeds {load : KextLoad} {k : ℕ} (hk : Proceeds cfg load k)
    {alc : AlcEnabler} (h : (processKext cfg load alc).1.progressState.codecsLoaded = true) :
    DeliversCodecs cfg load (processKext cfg load alc).2 (processKext cfg load alc).1 := by
  have hsame := processKext_same cfg hk alc
  intro i ci info j patch hci hinfo hpatch happlies
  rw [hsame.codecs] at hci
  rw [hsame.codecsLoaded] at h
  exact (mem_processKext cfg (by simp [Event.IsHook])).mpr ⟨k, hk, Or.inr ⟨h,
    (mem_patchCodecs cfg).mpr ⟨i, ci, info, patch, hci, (Nat.zero_add i).symm, hinfo, hpatch, rfl,
      happlies⟩⟩⟩

/-- **What the most recent call of a kext delivers.**  For every kext but AppleGFXHDA it submits
every applicable patch of a controller's mod; and if the codec has shown by then, on a call for a
`Detect` kext after an earlier call, every applicable patch of the codec's mod. -/
theorem delivers_at_last_call (pre post : List KextLoad) (load : KextLoad) (k : ℕ)
    (hk : Proceeds cfg load k) :
    DeliversControllers cfg table load (processKext cfg load (stateAfter cfg boot table pre)).2
        (stateAfter cfg boot table (pre ++ load :: post)) ∧
      (ShowsCodec cfg (pre ++ [load]) →
        DeliversCodecs cfg load (processKext cfg load (stateAfter cfg boot table pre)).2
          (stateAfter cfg boot table (pre ++ load :: post))) := by
  have hcall : stateAfter cfg boot table (pre ++ [load]) =
      (processKext cfg load (stateAfter cfg boot table pre)).1 :=
    stateAfter_append cfg boot table pre [load]
  have hfinal : stateAfter cfg boot table (pre ++ load :: post) =
      run (processKext cfg) post (processKext cfg load (stateAfter cfg boot table pre)).1 :=
    stateAfter_append cfg boot table pre (load :: post)
  rw [hfinal]
  constructor
  · have hdeliver := deliversControllers_of_proceeds cfg boot table hk pre
    have hstay := (controllers_stay cfg post (controllersLoaded_of_proceeds cfg hk
      (stateAfter cfg boot table pre))).2
    intro c hc
    rw [hstay] at hc
    exact hdeliver c hc
  · intro hshows
    have hsettled := settled_of_showsCodec cfg boot table hshows
    rw [hcall] at hsettled
    have hstay := (run_eq_of_fixed (Q := Settled) (f := AlcEnabler.codecs)
      (fun l _ hs => ⟨(settled_step cfg l hs).1, congrArg Prod.snd (settled_step cfg l hs).2⟩)
      post hsettled).2
    have hdeliver := deliversCodecs_of_proceeds cfg hk hsettled.2
    intro i ci info j patch hci
    rw [hstay] at hci
    exact hdeliver i ci info j patch hci

/-- The sample board shows its codec on the AppleHDA call. -/
theorem showsCodec_sample : ShowsCodec Sample.config [Sample.load [] 12, Sample.load [] 11] := by
  refine ⟨[], Sample.load [] 12, [], Sample.load [] 11, [], rfl, by simp, ⟨2, by decide, by decide⟩,
    ⟨⟨_, rfl, rfl⟩, by decide, by decide, by decide, by decide⟩,
    ⟨1, ⟨by decide, by decide⟩, by decide⟩, ?_⟩
  exact ⟨0, by decide, Sample.codecEntry, 0x10EC0292, 0x100001, by simp, rfl, rfl, rfl, by decide⟩

/-- On the sample board the AppleHDA call comes last, and delivers everything. -/
theorem delivers_at_last_call_sample :
    DeliversControllers Sample.config Sample.controllerMod (Sample.load [] 11)
        (processKext Sample.config (Sample.load [] 11) (stateAfter Sample.config (Sample.boot [])
          Sample.controllerMod [Sample.load [] 12])).2
        (stateAfter Sample.config (Sample.boot []) Sample.controllerMod
          [Sample.load [] 12, Sample.load [] 11]) ∧
      DeliversCodecs Sample.config (Sample.load [] 11)
        (processKext Sample.config (Sample.load [] 11) (stateAfter Sample.config (Sample.boot [])
          Sample.controllerMod [Sample.load [] 12])).2
        (stateAfter Sample.config (Sample.boot []) Sample.controllerMod
          [Sample.load [] 12, Sample.load [] 11]) := by
  have h := delivers_at_last_call Sample.config (Sample.boot []) Sample.controllerMod
    [Sample.load [] 12] [] (Sample.load [] 11) 1 ⟨by decide, by decide⟩
  exact ⟨h.1, h.2 showsCodec_sample⟩

/-- The call for AppleHDAController comes before the codec is found, so its codec patch is submitted
neither then nor later. -/
theorem codec_patch_missed_sample :
    ShowsCodec Sample.config [Sample.load [] 12, Sample.load [] 11] ∧
      ¬DeliversCodecs Sample.config (Sample.load [] 12)
        (outputs (processKext Sample.config) [Sample.load [] 12, Sample.load [] 11]
          (stateAfter Sample.config (Sample.boot []) Sample.controllerMod []))
        (stateAfter Sample.config (Sample.boot []) Sample.controllerMod
          [Sample.load [] 12, Sample.load [] 11]) := by
  refine ⟨showsCodec_sample, ?_⟩
  intro h
  have hcodec : ((stateAfter Sample.config (Sample.boot []) Sample.controllerMod
      [Sample.load [] 12, Sample.load [] 11]).codecs[0]?).bind CodecInfo.info =
        some Sample.codecMod := by
    decide
  obtain ⟨ci, hci, hinfo⟩ := Option.bind_eq_some_iff.mp hcodec
  exact absurd (h 0 ci Sample.codecMod 1 _ hci hinfo rfl (by decide)) (by decide)

end Delivery

end AppleALC
