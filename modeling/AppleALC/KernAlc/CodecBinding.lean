import AppleALC.KernAlc.OptOut
import AppleALC.KernAlc.PinConfig
import AppleALC.KernAlc.UpdateResource

/-!
# The one codec everybody means

Three functions pick a codec by rules of their own: `updateResource` lets the last codec with a
suitable file win, `initializePinConfig` takes the first codec whose controller has a layout, and
`processKext` patches for all of them.  They agree because between calls there is at most one codec,
and it points to the one controller with a detect entry.  `CodecBinding` is that invariant.

It rests on two facts.  Only `grabControllers` registers a controller with a detect entry, and it
runs once.  Codecs are appended one per such controller, on calls that start without codecs: what
does not validate is erased before the call returns.

* `CodecBinding` / `stateAfter_codecBinding` — the invariant, and that every run keeps it;
* `Settled` / `stateAfter_settled` — when both detections are done, no call changes what they found;
* `Resolves` — the three functions mean this codec and this controller;
* `one_codec_for_everybody` — from detection on they do, in every later state.
-/

namespace AppleALC

open OutputMachine

/-! ### What the brute-force loops append -/

/-- A codec of the entry `ci.entry`, found below controller number `ctrl + j` of a list that starts
at `ctrl`. -/
def FoundBelow (ctrl : ℕ) (cs : List ControllerInfo) (ci : CodecInfo) : Prop :=
  (∃ j c, ci.controller = ctrl + j ∧ cs[j]? = some c ∧ c.detect.isSome) ∧
    ∃ num, (ci.entry "IOHDACodecVendorID").bind OSObject.asNumber = some num ∧
      ci.id = num.toUInt32

theorem FoundBelow.cons {ctrl : ℕ} {c : ControllerInfo} {cs : List ControllerInfo} {ci : CodecInfo}
    (h : FoundBelow (ctrl + 1) cs ci) : FoundBelow ctrl (c :: cs) ci := by
  obtain ⟨⟨j, c', hj, hc', hdetect⟩, hid⟩ := h
  exact ⟨⟨j + 1, c', by omega, by simpa using hc', hdetect⟩, hid⟩

theorem appendCodec_spec (ctrl : ℕ) (e : Properties) (codecs : List CodecInfo) :
    (appendCodec ctrl e codecs).2 = codecs ∨
      ∃ num rev, (e "IOHDACodecVendorID").bind OSObject.asNumber = some num ∧
        (appendCodec ctrl e codecs).2 = codecs ++ [CodecInfo.create e ctrl num.toUInt32 rev] := by
  unfold appendCodec
  split
  · next ven rev hven hrev =>
    split
    · next venNum revNum hnum _ =>
      exact Or.inr ⟨venNum, _, by rw [hven]; exact hnum, rfl⟩
    · exact Or.inl rfl
  · exact Or.inl rfl

/-- A failed attempt appends nothing. -/
theorem appendCodec_false {ctrl : ℕ} {e : Properties} {codecs codecs' : List CodecInfo}
    (h : appendCodec ctrl e codecs = (false, codecs')) : codecs' = codecs := by
  unfold appendCodec at h
  split at h
  · split at h <;> exact absurd (congrArg Prod.fst h) (by simp)
  · exact (congrArg Prod.snd h).symm

/-- The attempts below one detect entry append at most one codec. -/
theorem bruteCodecs_spec (load : KextLoad) (detect : Device) (ctrl : ℕ) (codecs : List CodecInfo) :
    ∀ (remaining brute : ℕ), bruteCodecs load detect ctrl remaining brute codecs = codecs ∨
      ∃ e num rev, (e "IOHDACodecVendorID").bind OSObject.asNumber = some num ∧
        bruteCodecs load detect ctrl remaining brute codecs =
          codecs ++ [CodecInfo.create e ctrl num.toUInt32 rev] := by
  intro remaining
  induction remaining with
  | zero => intro brute; exact Or.inl rfl
  | succ n ih =>
      intro brute
      unfold bruteCodecs
      split
      · next e _ =>
        split
        · next codecs' happend =>
          have hspec := appendCodec_spec ctrl e codecs
          rw [happend] at hspec
          rcases hspec with h | ⟨num, rev, hnum, h⟩
          · exact Or.inl h
          · exact Or.inr ⟨e, num, rev, hnum, h⟩
        · next codecs' happend =>
          rw [appendCodec_false happend]
          exact ih (brute + 1)
      · exact ih (brute + 1)

/-- **What the controller loop appends**: at most one codec per controller with a detect entry, each
found below its controller. -/
theorem bruteControllers_spec (lilu : Lilu) (load : KextLoad) (cs : List ControllerInfo) :
    ∀ (ctrl : ℕ) (codecs : List CodecInfo), ∃ found,
      bruteControllers lilu load ctrl cs codecs = codecs ++ found ∧
        found.length ≤ (cs.filter fun c => c.detect.isSome).length ∧
        ∀ ci ∈ found, FoundBelow ctrl cs ci := by
  induction cs with
  | nil => intro ctrl codecs; exact ⟨[], by simp [bruteControllers], by simp, by simp⟩
  | cons c cs ih =>
      intro ctrl codecs
      unfold bruteControllers
      cases hdetect : c.detect with
      | none =>
          obtain ⟨found, heq, hlen, hfound⟩ := ih (ctrl + 1) codecs
          refine ⟨found, heq, by simpa [hdetect] using hlen, ?_⟩
          intro ci hci
          exact (hfound ci hci).cons
      | some d =>
          rcases bruteCodecs_spec load d ctrl codecs lilu.bruteMax 0 with
            hsame | ⟨e, num, rev, hnum, happend⟩
          · obtain ⟨found, heq, hlen, hfound⟩ := ih (ctrl + 1) codecs
            refine ⟨found, by simp only [hsame, heq], ?_, fun ci hci => (hfound ci hci).cons⟩
            rw [List.filter_cons_of_pos (by simp [hdetect]), List.length_cons]
            omega
          · obtain ⟨found, heq, hlen, hfound⟩ :=
              ih (ctrl + 1) (codecs ++ [CodecInfo.create e ctrl num.toUInt32 rev])
            refine ⟨CodecInfo.create e ctrl num.toUInt32 rev :: found, ?_, ?_, ?_⟩
            · simp only [happend, heq, List.append_assoc, List.singleton_append]
            · rw [List.filter_cons_of_pos (by simp [hdetect]), List.length_cons, List.length_cons]
              omega
            · intro ci hci
              rcases List.mem_cons.mp hci with rfl | hci
              · exact ⟨⟨0, c, rfl, rfl, by simp [hdetect]⟩, num, hnum, CodecInfo.create_id _ _ _ _⟩
              · exact (hfound ci hci).cons

/-- Validation keeps codecs with a mod, and gives them that mod. -/
theorem validateCodecs_spec (vendorMod : List VendorModInfo) (codecs : List CodecInfo) :
    (validateCodecs vendorMod codecs).length ≤ codecs.length ∧
      ∀ ci' ∈ validateCodecs vendorMod codecs, ∃ ci ∈ codecs, ∃ m,
        findCodecMod vendorMod ci = some m ∧ ci' = { ci with info := some m } := by
  induction codecs with
  | nil => exact ⟨le_refl _, by simp [validateCodecs]⟩
  | cons ci cis ih =>
      unfold validateCodecs
      split
      · next m hm =>
        refine ⟨Nat.succ_le_succ ih.1, ?_⟩
        intro ci' hci'
        rcases List.mem_cons.mp hci' with rfl | hci'
        · exact ⟨ci, by simp, m, hm, rfl⟩
        · obtain ⟨ci₀, hmem, hrest⟩ := ih.2 ci' hci'
          exact ⟨ci₀, by simp [hmem], hrest⟩
      · refine ⟨Nat.le_succ_of_le ih.1, ?_⟩
        intro ci' hci'
        obtain ⟨ci₀, hmem, hrest⟩ := ih.2 ci' hci'
        exact ⟨ci₀, by simp [hmem], hrest⟩

/-! ### The invariant -/

/-- The controller was registered by `grabControllers`, from HDEF and with its alc-layout-id. -/
structure IsAnalog (lilu : Lilu) (c : ControllerInfo) : Prop where
  detect : c.detect.isSome
  device : c.entry.device = .audioBuiltinAnalog
  layout : lilu.read c.entry.properties "alc-layout-id" = some c.layout

/-- The codec has a mod, its id is the published one, and its controller is the analog one. -/
structure IsBound (lilu : Lilu) (controllers : List ControllerInfo) (ci : CodecInfo) : Prop where
  info : ci.info.isSome
  controller : ∃ c, controllers[ci.controller]? = some c ∧ IsAnalog lilu c
  id : ∃ num, (ci.entry "IOHDACodecVendorID").bind OSObject.asNumber = some num ∧
    ci.id = num.toUInt32

/-- Both detections are done. -/
def Settled (alc : AlcEnabler) : Prop :=
  alc.progressState.controllersLoaded = true ∧ alc.progressState.codecsLoaded = true

/-- What holds of the plugin between calls. -/
structure CodecBinding (lilu : Lilu) (alc : AlcEnabler) : Prop where
  unloaded : alc.progressState.controllersLoaded = false → ∀ c ∈ alc.controllers, c.detect = none
  analog : ∀ c ∈ alc.controllers, c.detect.isSome → IsAnalog lilu c
  oneAnalog : (alc.controllers.filter fun c => c.detect.isSome).length ≤ 1
  oneCodec : alc.codecs.length ≤ 1
  codecs : ∀ ci ∈ alc.codecs, IsBound lilu alc.controllers ci
  pending : alc.codecs ≠ [] → Settled alc

theorem filter_detect_eq_nil {cs : List ControllerInfo} (h : ∀ c ∈ cs, c.detect = none) :
    cs.filter (fun c => c.detect.isSome) = [] := by
  rw [List.filter_eq_nil_iff]
  intro c hc
  simp [h c hc]

section Invariant

variable (cfg : Config) (boot : Boot) (table : List ControllerModInfo)

theorem bootAlc_codecBinding (lilu : Lilu) : CodecBinding lilu (bootAlc lilu boot table) := by
  have hbooted := updateProperties_booted lilu boot table
  have hdetect : ∀ c ∈ (bootAlc lilu boot table).controllers, c.detect = none :=
    fun c hc => (hbooted.controllers c hc).detect
  have hcodecs : (bootAlc lilu boot table).codecs = [] := hbooted.codecs
  refine { unloaded := fun _ => hdetect, analog := ?_, oneAnalog := ?_, oneCodec := ?_,
           codecs := ?_, pending := ?_ }
  · intro c hc hsome
    rw [hdetect c hc] at hsome
    exact absurd hsome (by decide)
  · rw [filter_detect_eq_nil hdetect]
    exact Nat.zero_le 1
  · rw [hcodecs]; exact Nat.zero_le 1
  · rw [hcodecs]; simp
  · rw [hcodecs]; simp

theorem filter_bind (model : UInt32) (table : List ControllerModInfo) (cs : List ControllerInfo) :
    ((cs.map (bindController model table)).filter fun c => c.detect.isSome).length =
      (cs.filter fun c => c.detect.isSome).length := by
  rw [List.filter_map, List.length_map]
  congr 1
  apply List.filter_congr
  intro c _
  simp

/-- The call that loads the controllers: there are no codecs yet. -/
theorem CodecBinding.grab {lilu : Lilu} {load : KextLoad} {alc alc' : AlcEnabler}
    (h : CodecBinding lilu alc) (hload : alc.progressState.controllersLoaded = false)
    (hcontrollers : alc'.controllers = (alc.controllers ++ (grabbed lilu load).toList).map
      (bindController load.modelType alc.controllerMod))
    (hcodecs : alc'.codecs = alc.codecs)
    (hloaded : alc'.progressState.controllersLoaded = true) : CodecBinding lilu alc' := by
  have hnil : alc.codecs = [] := by
    by_contra hne
    rw [(h.pending hne).1] at hload
    exact absurd hload (by decide)
  refine { unloaded := ?_, analog := ?_, oneAnalog := ?_, oneCodec := ?_, codecs := ?_,
           pending := ?_ }
  · intro hfalse
    rw [hloaded] at hfalse
    exact absurd hfalse (by decide)
  · intro c' hc' hsome
    rw [hcontrollers] at hc'
    obtain ⟨c, hc, rfl⟩ := List.mem_map.mp hc'
    rw [bindController_detect] at hsome
    rcases List.mem_append.mp hc with hc | hc
    · rw [h.unloaded hload c hc] at hsome
      exact absurd hsome (by decide)
    · obtain ⟨hentry, hdetect, -, -, hlayout⟩ := grabbed_spec (Option.mem_toList.mp hc)
      refine ⟨by rw [bindController_detect, hdetect]; rfl, ?_, ?_⟩
      · rw [bindController_entry, hentry]
      · rw [bindController_entry, bindController_layout, hentry]
        exact hlayout
  · rw [hcontrollers, filter_bind, List.filter_append, filter_detect_eq_nil (h.unloaded hload),
      List.nil_append]
    refine (List.length_filter_le _ _).trans ?_
    cases grabbed lilu load <;> simp
  · rw [hcodecs, hnil]; exact Nat.zero_le 1
  · rw [hcodecs, hnil]; simp
  · rw [hcodecs, hnil]; simp

/-- A call that looks for codecs: it starts without any. -/
theorem CodecBinding.search {lilu : Lilu} (res : Resources) {load : KextLoad}
    {alc alc' : AlcEnabler} (h : CodecBinding lilu alc)
    (hpending : alc.progressState.codecsLoaded = false)
    (hcontrollers : alc'.controllers = alc.controllers)
    (hcodecs : alc'.codecs = (grabCodecs lilu res load alc).1.codecs)
    (hloaded : alc'.progressState.controllersLoaded = true)
    (hfound : alc'.progressState.codecsLoaded = (grabCodecs lilu res load alc).2) :
    CodecBinding lilu alc' := by
  have hnil : alc.codecs = [] := by
    by_contra hne
    rw [(h.pending hne).2] at hpending
    exact absurd hpending (by decide)
  obtain ⟨found, hbrute, hlen, hbelow⟩ := bruteControllers_spec lilu load alc.controllers 0 []
  obtain ⟨hvalid, hmem⟩ := validateCodecs_spec res.vendorMod found
  have hcodecs' : alc'.codecs = validateCodecs res.vendorMod found := by
    rw [hcodecs]
    simp only [grabCodecs, hnil, hbrute, List.nil_append]
  refine { unloaded := ?_, analog := ?_, oneAnalog := ?_, oneCodec := ?_, codecs := ?_,
           pending := ?_ }
  · intro hfalse
    rw [hloaded] at hfalse
    exact absurd hfalse (by decide)
  · rw [hcontrollers]; exact h.analog
  · rw [hcontrollers]; exact h.oneAnalog
  · rw [hcodecs']
    exact (hvalid.trans hlen).trans h.oneAnalog
  · rw [hcodecs', hcontrollers]
    intro ci' hci'
    obtain ⟨ci, hci, m, -, rfl⟩ := hmem ci' hci'
    obtain ⟨⟨j, c, hj, hc, hdetect⟩, hid⟩ := hbelow ci hci
    rw [Nat.zero_add] at hj
    subst hj
    exact ⟨rfl, ⟨c, hc, h.analog c (List.mem_of_getElem? hc) hdetect⟩, hid⟩
  · intro hne
    refine ⟨hloaded, ?_⟩
    rw [hfound]
    rw [hcodecs] at hne
    simpa [grabCodecs, List.length_pos_iff] using hne

/-- **Step lemma.**  Every call keeps the invariant. -/
theorem codecBinding_step (load : KextLoad) (alc : AlcEnabler) (h : CodecBinding cfg.lilu alc) :
    CodecBinding cfg.lilu (processKext cfg load alc).1 := by
  by_cases hproceeds : ∃ k, Proceeds cfg load k
  · obtain ⟨k, hk⟩ := hproceeds
    have hsame := processKext_same cfg hk alc
    rcases detect_cases cfg load k alc with ⟨hload, hd⟩ | ⟨hload, hpending, -, hd⟩ | ⟨-, -, hd⟩
    · rw [hd, grabControllers_eq] at hsame
      exact h.grab hload hsame.controllers hsame.codecs hsame.controllersLoaded
    · rw [hd] at hsame
      exact h.search cfg.res hpending hsame.controllers hsame.codecs
        (hsame.controllersLoaded.trans hload) hsame.codecsLoaded
    · rw [hd] at hsame
      refine { unloaded := ?_, analog := ?_, oneAnalog := ?_, oneCodec := ?_, codecs := ?_,
               pending := ?_ }
      · rw [hsame.controllersLoaded, hsame.controllers]; exact h.unloaded
      · rw [hsame.controllers]; exact h.analog
      · rw [hsame.controllers]; exact h.oneAnalog
      · rw [hsame.codecs]; exact h.oneCodec
      · rw [hsame.codecs, hsame.controllers]; exact h.codecs
      · rw [hsame.codecs, Settled, hsame.controllersLoaded, hsame.codecsLoaded]; exact h.pending
  · rw [processKext_of_not_proceeds cfg (not_exists.mp hproceeds)]
    exact h

/-- **Run lemma.**  The invariant holds between calls. -/
theorem stateAfter_codecBinding (loads : List KextLoad) :
    CodecBinding cfg.lilu (stateAfter cfg boot table loads) :=
  run_invariant (codecBinding_step cfg) loads (bootAlc_codecBinding boot table cfg.lilu)

/-! ### Later calls -/

/-- Once a codec is found, controllers and codecs are settled. -/
theorem settled_step (load : KextLoad) {alc : AlcEnabler} (h : Settled alc) :
    Settled (processKext cfg load alc).1 ∧
      ((processKext cfg load alc).1.controllers, (processKext cfg load alc).1.codecs) =
        (alc.controllers, alc.codecs) := by
  by_cases hproceeds : ∃ k, Proceeds cfg load k
  · obtain ⟨k, hk⟩ := hproceeds
    have hsame := processKext_same cfg hk alc
    rw [detect_idle cfg h.1 (Or.inl h.2)] at hsame
    exact ⟨⟨hsame.controllersLoaded.trans h.1, hsame.codecsLoaded.trans h.2⟩,
      by rw [hsame.controllers, hsame.codecs]⟩
  · rw [processKext_of_not_proceeds cfg (not_exists.mp hproceeds)]
    exact ⟨h, rfl⟩

theorem stateAfter_append (loads later : List KextLoad) :
    stateAfter cfg boot table (loads ++ later) =
      run (processKext cfg) later (stateAfter cfg boot table loads) :=
  run_append loads later _

theorem stateAfter_settled (loads later : List KextLoad)
    (h : (stateAfter cfg boot table loads).codecs ≠ []) :
    (stateAfter cfg boot table (loads ++ later)).controllers =
        (stateAfter cfg boot table loads).controllers ∧
      (stateAfter cfg boot table (loads ++ later)).codecs =
        (stateAfter cfg boot table loads).codecs := by
  have hfixed := run_eq_of_fixed (Q := Settled) (f := fun alc => (alc.controllers, alc.codecs))
    (fun load alc hQ => settled_step cfg load hQ) later
    ((stateAfter_codecBinding cfg boot table loads).pending h)
  rw [stateAfter_append]
  exact ⟨congrArg Prod.fst hfixed.2, congrArg Prod.snd hfixed.2⟩

/-! ### What the consumers see -/

theorem selectAnalog_singleton {controllers : List ControllerInfo} {ci : CodecInfo}
    {c : ControllerInfo} (hc : controllers[ci.controller]? = some c) (hlayout : c.layout ≠ 0) :
    selectAnalog controllers [ci] = (ci.id, c.layout) := by
  have hpos : c.layout > 0 := UInt32.pos_iff_ne_zero.mpr hlayout
  simp [selectAnalog, hc, hpos]

theorem updateResource_singleton {lilu : Lilu} {running : UInt32}
    (hrange : lilu.ChecksRange running) {alc : AlcEnabler} {ci : CodecInfo} {info : CodecModInfo}
    {c : ControllerInfo} (hcodecs : alc.codecs = [ci]) (hinfo : ci.info = some info)
    (hc : alc.controllers[ci.controller]? = some c) (type : Resource) (reply : ResourceReply) :
    RepliesFrom running c.layout ((type.files info).getD []) reply
      (updateResource lilu alc type reply) := by
  simp only [updateResource, hcodecs, List.foldl_cons, List.foldl_nil, updateFromCodec, hinfo,
    Option.bind_some, hc]
  cases type.files info with
  | none => exact Or.inl ⟨rfl, by simp⟩
  | some files => exact updateFromFiles_spec hrange c.layout files reply

/-- What the consumers find in a state whose codec is `ci`, with the mod `info` and below the
controller `c`. -/
structure Resolves (running : UInt32) (alc : AlcEnabler) (ci : CodecInfo) (info : CodecModInfo)
    (c : ControllerInfo) : Prop where
  codecs : alc.codecs = [ci]
  controller : alc.controllers[ci.controller]? = some c
  pinConfig : c.layout ≠ 0 → selectAnalog alc.controllers alc.codecs = (ci.id, c.layout)
  resource : ∀ type reply, RepliesFrom running c.layout ((type.files info).getD []) reply
    (updateResource cfg.lilu alc type reply)

/-- **One codec for everybody.**  Between calls there is at most one codec.  It has a mod, its id is
the published vendor id, and its controller is the one with a detect entry and the alc-layout-id
that was read there; and in every later state `initializePinConfig` and both resource requests go by
that codec, that mod and that layout. -/
theorem one_codec_for_everybody {running : UInt32} (hrange : cfg.lilu.ChecksRange running)
    (loads : List KextLoad) :
    (stateAfter cfg boot table loads).codecs.length ≤ 1 ∧
      ((stateAfter cfg boot table loads).codecs = [] → ∀ type reply,
        updateResource cfg.lilu (stateAfter cfg boot table loads) type reply = reply) ∧
      ∀ ci ∈ (stateAfter cfg boot table loads).codecs, ∃ info c,
        ci.info = some info ∧
        (stateAfter cfg boot table loads).controllers[ci.controller]? = some c ∧
        IsAnalog cfg.lilu c ∧
        (∃ num, (ci.entry "IOHDACodecVendorID").bind OSObject.asNumber = some num ∧
          ci.id = num.toUInt32) ∧
        ∀ later, Resolves cfg running (stateAfter cfg boot table (loads ++ later)) ci info c := by
  have hbinding := stateAfter_codecBinding cfg boot table loads
  refine ⟨hbinding.oneCodec, fun hnil type reply => by simp [updateResource, hnil], ?_⟩
  intro ci hci
  obtain ⟨hinfo, ⟨c, hc, hanalog⟩, hid⟩ := hbinding.codecs ci hci
  obtain ⟨info, hinfo⟩ := Option.isSome_iff_exists.mp hinfo
  refine ⟨info, c, hinfo, hc, hanalog, hid, ?_⟩
  intro later
  obtain ⟨hcontrollers, hcodecs⟩ := stateAfter_settled cfg boot table loads later
    (List.ne_nil_of_mem hci)
  have hone : (stateAfter cfg boot table loads).codecs = [ci] := by
    obtain ⟨a, ha⟩ := List.length_eq_one_iff.mp
      (le_antisymm hbinding.oneCodec (List.length_pos_of_mem hci))
    rw [ha, List.mem_singleton] at hci
    rw [ha, hci]
  rw [hone] at hcodecs
  rw [← hcontrollers] at hc
  exact { codecs := hcodecs
          controller := hc
          pinConfig := fun hlayout => by rw [hcodecs]; exact selectAnalog_singleton hc hlayout
          resource := updateResource_singleton hrange hcodecs hinfo hc }

/-- The sample board, whose codec is found by the AppleHDA call. -/
theorem one_codec_for_everybody_sample :
    (stateAfter Sample.config (Sample.boot []) Sample.controllerMod
        [Sample.load [] 12, Sample.load [] 11]).codecs.length = 1 ∧
      ∀ ci ∈ (stateAfter Sample.config (Sample.boot []) Sample.controllerMod
          [Sample.load [] 12, Sample.load [] 11]).codecs, ∃ info c, ci.info = some info ∧
        Resolves Sample.config 19 (stateAfter Sample.config (Sample.boot []) Sample.controllerMod
          [Sample.load [] 12, Sample.load [] 11]) ci info c := by
  refine ⟨by decide, ?_⟩
  intro ci hci
  obtain ⟨-, -, hcodec⟩ := one_codec_for_everybody Sample.config (Sample.boot [])
    Sample.controllerMod (Lilu.documented_checksRange 19 4) [Sample.load [] 12, Sample.load [] 11]
  obtain ⟨info, c, hinfo, -, -, -, hlater⟩ := hcodec ci hci
  exact ⟨info, c, hinfo, hlater []⟩

end Invariant

end AppleALC
