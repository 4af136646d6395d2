import Mathlib.Data.List.Forall2
import AppleALC.KernAlc.PatchDelivery

/-!
# Which codecs are supported

Both validations compare ids and an optional list of revisions with a table.  `validateControllers`
goes on when the revision of an entry does not fit.  `validateCodecs` does not: it takes the first
vendor entry with the vendor id and in it the first codec entry with the codec id, and erases the
codec when the revisions of that one entry do not fit, whatever comes later in the table.

`grabCodecs` has a loop of the same kind in front of it.  Of the registry entries below the analog
controller it looks at the first that has `IOHDACodecVendorID`, and at no other.

* `Supported` / `SupportedBy` — some entry of the tables is for the codec;
* `findCodecMod_eq_some` — what the search finds is the first entry with the ids;
* `keepsSupported_iff` — validation keeps the supported codecs exactly if these entries support
  them;
* `findsSupported_iff` — a supported codec below HDEF is found exactly if the first entry with a
  vendor id has its ids.
-/

namespace AppleALC

open OutputMachine

/-! ### Supported codecs -/

/-- `m` is an entry of the table for this vendor, this codec and this revision. -/
def SupportedBy (vendorMod : List VendorModInfo) (ci : CodecInfo) (m : CodecModInfo) : Prop :=
  ∃ v ∈ vendorMod, v.vendor = ci.vendor ∧ m ∈ v.codecs ∧ m.codec = ci.codec ∧
    (m.revisions = [] ∨ ci.revision ∈ m.revisions)

/-- Some entry of the table is for the codec. -/
def Supported (vendorMod : List VendorModInfo) (ci : CodecInfo) : Prop :=
  ∃ v ∈ vendorMod, v.vendor = ci.vendor ∧ ∃ m ∈ v.codecs, m.codec = ci.codec ∧
    (m.revisions = [] ∨ ci.revision ∈ m.revisions)

instance (vendorMod : List VendorModInfo) : DecidablePred (Supported vendorMod) := fun ci => by
  unfold Supported; infer_instance

theorem supported_iff {vendorMod : List VendorModInfo} {ci : CodecInfo} :
    Supported vendorMod ci ↔ ∃ m, SupportedBy vendorMod ci m := by
  constructor
  · rintro ⟨v, hv, hvendor, m, hm, h⟩
    exact ⟨m, v, hv, hvendor, hm, h⟩
  · rintro ⟨m, v, hv, hvendor, hm, h⟩
    exact ⟨v, hv, hvendor, m, hm, h⟩

/-- `m` is the first entry with the codec id, in the first vendor entry with the vendor id. -/
def IsFirstEntry (vendorMod : List VendorModInfo) (ci : CodecInfo) (m : CodecModInfo) : Prop :=
  ∃ vs v vs' ms ms', vendorMod = vs ++ v :: vs' ∧ v.vendor = ci.vendor ∧
    (∀ other ∈ vs, other.vendor ≠ ci.vendor) ∧ v.codecs = ms ++ m :: ms' ∧ m.codec = ci.codec ∧
    ∀ other ∈ ms, other.codec ≠ ci.codec

/-- The first entry with the ids of the codec is also for its revision. -/
def FirstEntrySupports (vendorMod : List VendorModInfo) (ci : CodecInfo) : Prop :=
  ∃ m, IsFirstEntry vendorMod ci m ∧ (m.revisions = [] ∨ ci.revision ∈ m.revisions)

section Search

variable {vendorMod : List VendorModInfo} {ci : CodecInfo} {m : CodecModInfo}

/-- **What the search finds**: the first entry with the ids, if it is for the revision. -/
theorem findCodecMod_eq_some :
    findCodecMod vendorMod ci = some m ↔
      IsFirstEntry vendorMod ci m ∧ (m.revisions = [] ∨ ci.revision ∈ m.revisions) := by
  unfold findCodecMod
  constructor
  · intro h
    split at h
    · exact absurd h (by simp)
    · next v hv =>
      split at h
      · exact absurd h (by simp)
      · next m' hm =>
        split at h
        · next hrevision =>
          cases h
          obtain ⟨hvendor, vs, vs', hvs, hearlier⟩ := List.find?_eq_some_iff_append.mp hv
          obtain ⟨hcodec, ms, ms', hms, hearlier'⟩ := List.find?_eq_some_iff_append.mp hm
          refine ⟨⟨vs, v, vs', ms, ms', hvs, by simpa using hvendor, ?_, hms, by simpa using hcodec,
            ?_⟩, (revisionMatches_iff _ _).mp hrevision⟩
          · intro other hother
            simpa using hearlier other hother
          · intro other hother
            simpa using hearlier' other hother
        · exact absurd h (by simp)
  · rintro ⟨⟨vs, v, vs', ms, ms', hvs, hvendor, hearlier, hms, hcodec, hearlier'⟩, hrevision⟩
    have hv : vendorMod.find? (fun v => v.vendor == ci.vendor) = some v :=
      List.find?_eq_some_iff_append.mpr ⟨by simpa using hvendor, vs, vs', hvs,
        fun other hother => by simpa using hearlier other hother⟩
    have hm : v.codecs.find? (fun m => m.codec == ci.codec) = some m :=
      List.find?_eq_some_iff_append.mpr ⟨by simpa using hcodec, ms, ms', hms,
        fun other hother => by simpa using hearlier' other hother⟩
    simp only [hv, hm, if_pos ((revisionMatches_iff _ _).mpr hrevision)]

theorem IsFirstEntry.supportedBy (h : IsFirstEntry vendorMod ci m)
    (hrevision : m.revisions = [] ∨ ci.revision ∈ m.revisions) : SupportedBy vendorMod ci m := by
  obtain ⟨vs, v, vs', ms, ms', hvs, hvendor, -, hms, hcodec, -⟩ := h
  exact ⟨v, by simp [hvs], hvendor, by simp [hms], hcodec, hrevision⟩

theorem supportedBy_of_findCodecMod (h : findCodecMod vendorMod ci = some m) :
    SupportedBy vendorMod ci m :=
  (findCodecMod_eq_some.mp h).1.supportedBy (findCodecMod_eq_some.mp h).2

theorem findCodecMod_isSome :
    (findCodecMod vendorMod ci).isSome = true ↔ FirstEntrySupports vendorMod ci := by
  rw [Option.isSome_iff_exists]
  exact exists_congr fun _ => findCodecMod_eq_some

theorem supported_of_findCodecMod (h : (findCodecMod vendorMod ci).isSome = true) :
    Supported vendorMod ci := by
  obtain ⟨m, hm⟩ := Option.isSome_iff_exists.mp h
  exact supported_iff.mpr ⟨m, supportedBy_of_findCodecMod hm⟩

end Search

/-! ### Validation -/

/-- `validateCodecs` as the member function it is: the plugin after it, and its result. -/
def AlcEnabler.validateCodecs (vendorMod : List VendorModInfo) (alc : AlcEnabler) :
    AlcEnabler × Bool :=
  let codecs := AppleALC.validateCodecs vendorMod alc.codecs
  ({ alc with codecs := codecs }, decide (codecs.length > 0))

/-- `grabCodecs` ends with it. -/
theorem grabCodecs_eq (lilu : Lilu) (res : Resources) (load : KextLoad) (alc : AlcEnabler) :
    grabCodecs lilu res load alc = AlcEnabler.validateCodecs res.vendorMod
      { alc with codecs := bruteControllers lilu load 0 alc.controllers alc.codecs } := rfl

/-- The kept codecs are the supported ones in their order, each with an entry that is for it; and the
result says whether there is one. -/
def KeepsSupported (vendorMod : List VendorModInfo) (alc : AlcEnabler) : Prop :=
  let r := alc.validateCodecs vendorMod
  List.Forall₂ (fun ci kept => ∃ m, SupportedBy vendorMod ci m ∧ kept = { ci with info := some m })
      (alc.codecs.filter fun ci => decide (Supported vendorMod ci)) r.1.codecs ∧
    (r.2 = true ↔ r.1.codecs ≠ [])

/-- Validation keeps the codecs that the search finds an entry for. -/
theorem validateCodecs_forall₂ (vendorMod : List VendorModInfo) (codecs : List CodecInfo) :
    List.Forall₂ (fun ci kept => ∃ m, findCodecMod vendorMod ci = some m ∧
        kept = { ci with info := some m })
      (codecs.filter fun ci => (findCodecMod vendorMod ci).isSome)
      (validateCodecs vendorMod codecs) := by
  induction codecs with
  | nil => exact List.Forall₂.nil
  | cons ci cis ih =>
      unfold validateCodecs
      cases hfound : findCodecMod vendorMod ci with
      | none =>
          rw [List.filter_cons_of_neg (by simp [hfound])]
          exact ih
      | some m =>
          rw [List.filter_cons_of_pos (by simp [hfound])]
          exact List.Forall₂.cons ⟨m, hfound, rfl⟩ ih

/-- **Exactly the supported codecs are kept if and only if no supported codec is shadowed**: for each
of them, the first entry with its ids is for its revision. -/
theorem keepsSupported_iff (vendorMod : List VendorModInfo) (alc : AlcEnabler) :
    KeepsSupported vendorMod alc ↔
      ∀ ci ∈ alc.codecs, Supported vendorMod ci → FirstEntrySupports vendorMod ci := by
  have hkept := validateCodecs_forall₂ vendorMod alc.codecs
  have hresult : (alc.validateCodecs vendorMod).2 = true ↔
      (alc.validateCodecs vendorMod).1.codecs ≠ [] := by
    simp [AlcEnabler.validateCodecs, List.length_pos_iff]
  -- what the search finds an entry for is supported
  have hsub : (alc.codecs.filter fun ci => (findCodecMod vendorMod ci).isSome).Sublist
      (alc.codecs.filter fun ci => decide (Supported vendorMod ci)) :=
    List.monotone_filter_right _ fun ci h => decide_eq_true (supported_of_findCodecMod h)
  constructor
  · rintro ⟨hall, -⟩ ci hci hsupported
    have hlength := hkept.length_eq.trans hall.length_eq.symm
    have hmem : ci ∈ alc.codecs.filter fun ci => (findCodecMod vendorMod ci).isSome := by
      rw [hsub.eq_of_length hlength]
      exact List.mem_filter.mpr ⟨hci, decide_eq_true hsupported⟩
    exact findCodecMod_isSome.mp (List.mem_filter.mp hmem).2
  · intro hfirst
    refine ⟨?_, hresult⟩
    have hsame : (alc.codecs.filter fun ci => decide (Supported vendorMod ci)) =
        alc.codecs.filter fun ci => (findCodecMod vendorMod ci).isSome := by
      apply List.filter_congr
      intro ci hci
      rw [Bool.eq_iff_iff, decide_eq_true_iff]
      exact ⟨fun h => findCodecMod_isSome.mpr (hfirst ci hci h), supported_of_findCodecMod⟩
    rw [hsame]
    exact hkept.imp fun ci kept ⟨m, hm, heq⟩ => ⟨m, supportedBy_of_findCodecMod hm, heq⟩

/-- Two entries of one codec for different revisions. -/
def Sample.twoRevisions : List VendorModInfo :=
  [{ name := "Realtek", vendor := 0x10EC, codecs := [{ Sample.codecMod with revisions := [0x100001] },
    { Sample.codecMod with revisions := [0x100002] }] }]

/-- The second of them is never looked at. -/
theorem not_keepsSupported_sample :
    ¬KeepsSupported Sample.twoRevisions
      { controllerMod := [], codecs := [CodecInfo.create Sample.codecEntry 0 0x10EC0292 0x100002] } := by
  rintro ⟨hall, -⟩
  exact absurd hall.length_eq (by decide)

/-! ### Detection -/

/-- Vendor ids are unique in the table, and codec ids in each vendor entry. -/
def UniqueIds (vendorMod : List VendorModInfo) : Prop :=
  (vendorMod.map VendorModInfo.vendor).Nodup ∧
    ∀ v ∈ vendorMod, (v.codecs.map CodecModInfo.codec).Nodup

/-- With unique ids nothing is shadowed. -/
theorem UniqueIds.firstEntrySupports {vendorMod : List VendorModInfo} {ci : CodecInfo}
    (h : UniqueIds vendorMod) (hsupported : Supported vendorMod ci) :
    FirstEntrySupports vendorMod ci := by
  obtain ⟨v, hv, hvendor, m, hm, hcodec, hrevision⟩ := hsupported
  obtain ⟨vs, vs', hvs⟩ := List.append_of_mem hv
  obtain ⟨ms, ms', hms⟩ := List.append_of_mem hm
  refine ⟨m, ⟨vs, v, vs', ms, ms', hvs, hvendor, ?_, hms, hcodec, ?_⟩, hrevision⟩
  · intro other hother hsame
    have hnodup := h.1
    rw [hvs, List.map_append, List.nodup_append] at hnodup
    exact hnodup.2.2 _ (List.mem_map_of_mem hother) v.vendor (by simp) (hsame.trans hvendor.symm)
  · intro other hother hsame
    have hnodup := h.2 v hv
    rw [hms, List.map_append, List.nodup_append] at hnodup
    exact hnodup.2.2 _ (List.mem_map_of_mem hother) m.codec (by simp) (hsame.trans hcodec.symm)

/-- The entry publishes these numbers as vendor id and revision. -/
def Publishes (e : Properties) (ven rev : UInt64) : Prop :=
  e "IOHDACodecVendorID" = some (.number ven) ∧ e "IOHDACodecRevisionID" = some (.number rev)

/-- What the brute-force loop appends when every attempt sees the same entries: what the first entry
with a vendor id gives. -/
theorem bruteCodecs_stable {load : KextLoad} {detect : Device} {entries : List Properties}
    (hstable : ∀ brute, load.iterateOver detect brute = some entries) (ctrl : ℕ)
    (codecs : List CodecInfo) :
    ∀ (remaining brute : ℕ), 0 < remaining →
      bruteCodecs load detect ctrl remaining brute codecs =
        match firstCodecEntry entries with
        | some e => (appendCodec ctrl e codecs).2
        | none => codecs := by
  intro remaining
  induction remaining with
  | zero => intro brute h; exact absurd h (Nat.lt_irrefl 0)
  | succ n ih =>
      intro brute _
      have hrest : (match firstCodecEntry entries with
            | some e => (appendCodec ctrl e codecs).2
            | none => codecs) = codecs →
          bruteCodecs load detect ctrl n (brute + 1) codecs = codecs := by
        intro hsame
        cases n with
        | zero => rfl
        | succ n => rw [ih (brute + 1) (Nat.succ_pos n), hsame]
      unfold bruteCodecs
      rw [hstable brute, Option.bind_some]
      cases hfirst : firstCodecEntry entries with
      | none =>
          rw [hfirst] at hrest
          exact hrest rfl
      | some e =>
          rw [hfirst] at hrest
          simp only at hrest ⊢
          split
          · next codecs' happend => rw [happend]
          · next codecs' happend =>
            -- the entry misses a property, and will miss it in every attempt
            have hsame := appendCodec_false happend
            rw [happend] at hrest ⊢
            rw [hsame] at hrest ⊢
            exact hrest rfl

theorem bruteControllers_skip (lilu : Lilu) (load : KextLoad) {pre : List ControllerInfo}
    (h : ∀ c ∈ pre, c.detect = none) (cs : List ControllerInfo) :
    ∀ (ctrl : ℕ) (codecs : List CodecInfo),
      bruteControllers lilu load ctrl (pre ++ cs) codecs =
        bruteControllers lilu load (ctrl + pre.length) cs codecs := by
  induction pre with
  | nil => intro ctrl codecs; rfl
  | cons c pre ih =>
      intro ctrl codecs
      rw [List.cons_append, bruteControllers]
      simp only [h c (by simp)]
      rw [ih (fun c' hc' => h c' (by simp [hc'])), List.length_cons,
        show ctrl + 1 + pre.length = ctrl + (pre.length + 1) by omega]

/-- With one detect entry, the controller loop searches below that one. -/
theorem bruteControllers_single (lilu : Lilu) (load : KextLoad) {pre post : List ControllerInfo}
    {c : ControllerInfo} {d : Device} (hpre : ∀ c ∈ pre, c.detect = none)
    (hdetect : c.detect = some d) (hpost : ∀ c ∈ post, c.detect = none)
    (codecs : List CodecInfo) :
    bruteControllers lilu load 0 (pre ++ c :: post) codecs =
      bruteCodecs load d pre.length lilu.bruteMax 0 codecs := by
  rw [bruteControllers_skip lilu load hpre, Nat.zero_add, bruteControllers]
  simp only [hdetect]
  have hend := bruteControllers_skip lilu load hpost [] (pre.length + 1)
    (bruteCodecs load d pre.length lilu.bruteMax 0 codecs)
  rw [List.append_nil] at hend
  exact hend

/-- The first of the entries that has a vendor id. -/
def IsFirstCodec (entries : List Properties) (first : Properties) : Prop :=
  ∃ pre post, entries = pre ++ first :: post ∧ (first "IOHDACodecVendorID").isSome = true ∧
    ∀ other ∈ pre, other "IOHDACodecVendorID" = none

theorem firstCodecEntry_eq_some {entries : List Properties} {first : Properties} :
    firstCodecEntry entries = some first ↔ IsFirstCodec entries first := by
  unfold firstCodecEntry IsFirstCodec
  rw [List.find?_eq_some_iff_append]
  constructor
  · rintro ⟨hsome, pre, post, hsplit, hpre⟩
    exact ⟨pre, post, hsplit, hsome, fun other hother => by simpa using hpre other hother⟩
  · rintro ⟨pre, post, hsplit, hsome, hpre⟩
    exact ⟨hsome, pre, post, hsplit, fun other hother => by simp [hpre other hother]⟩

/-- A codec comes of an entry that publishes numbers, and of no other. -/
theorem appendCodec_nil (ctrl : ℕ) (e : Properties) :
    (∃ ven rev, Publishes e ven rev ∧
        (appendCodec ctrl e []).2 = [CodecInfo.create e ctrl ven.toUInt32 rev.toUInt32]) ∨
      (appendCodec ctrl e []).2 = [] := by
  unfold appendCodec
  split
  · next ven rev hven hrev =>
    cases ven with
    | number ven =>
        cases rev with
        | number rev => exact Or.inl ⟨ven, rev, ⟨hven, hrev⟩, rfl⟩
        | _ => exact Or.inr rfl
    | _ => exact Or.inr rfl
  · exact Or.inr rfl

section Complete

variable (cfg : Config) (boot : Boot) (table : List ControllerModInfo)

/-- Before a codec is found, `grabCodecs` validates what the first entry below the analog controller
gives. -/
theorem grabCodecs_pending {loads : List KextLoad} {load : KextLoad} {entries : List Properties}
    {i : ℕ} {c : ControllerInfo} {d : Device} (hmax : 0 < cfg.lilu.bruteMax)
    (hpending : (stateAfter cfg boot table loads).progressState.codecsLoaded = false)
    (hc : (stateAfter cfg boot table loads).controllers[i]? = some c) (hdetect : c.detect = some d)
    (hstable : ∀ brute, load.iterateOver d brute = some entries) :
    (grabCodecs cfg.lilu cfg.res load (stateAfter cfg boot table loads)).1.codecs =
      validateCodecs cfg.res.vendorMod (match firstCodecEntry entries with
        | some e => (appendCodec i e []).2
        | none => []) := by
  have hbinding := stateAfter_codecBinding cfg boot table loads
  generalize stateAfter cfg boot table loads = alc at hpending hc hbinding ⊢
  have hnil : alc.codecs = [] := by
    by_contra hne
    rw [(hbinding.pending hne).2] at hpending
    exact absurd hpending (by decide)
  obtain ⟨pre, post, hsplit, rfl⟩ : ∃ pre post, alc.controllers = pre ++ c :: post ∧
      i = pre.length := by
    obtain ⟨hlt, hget⟩ := List.getElem?_eq_some_iff.mp hc
    refine ⟨alc.controllers.take i, alc.controllers.drop (i + 1), ?_, ?_⟩
    · rw [← hget, List.getElem_cons_drop, List.take_append_drop]
    · rw [List.length_take]
      omega
  -- nobody else has a detect entry
  have hone := hbinding.oneAnalog
  rw [hsplit, List.filter_append, List.filter_cons_of_pos (by simp [hdetect]), List.length_append,
    List.length_cons] at hone
  have hnone : ∀ cs : List ControllerInfo, (cs.filter fun c => c.detect.isSome).length = 0 →
      ∀ c ∈ cs, c.detect = none := by
    intro cs hlen c hc
    have hempty := List.filter_eq_nil_iff.mp (List.length_eq_zero_iff.mp hlen) c hc
    simpa using hempty
  rw [grabCodecs, hnil, hsplit, bruteControllers_single cfg.lilu load (hnone pre (by omega)) hdetect
    (hnone post (by omega)), bruteCodecs_stable hstable _ _ _ _ hmax]

/-- `grabCodecs` succeeds and finds the codec of every entry that publishes a supported one. -/
def FindsSupported (alc : AlcEnabler) (load : KextLoad) (i : ℕ) (entries : List Properties) : Prop :=
  ∀ e ∈ entries, ∀ ven rev, Publishes e ven rev →
    Supported cfg.res.vendorMod (CodecInfo.create e i ven.toUInt32 rev.toUInt32) →
    (grabCodecs cfg.lilu cfg.res load alc).2 = true ∧
      ∃ ci ∈ (grabCodecs cfg.lilu cfg.res load alc).1.codecs, ci.controller = i ∧
        ci.id = ven.toUInt32 ∧ ci.revision = rev.toUInt32

/-- Every entry that publishes a supported codec publishes the one that the first entry with a vendor
id publishes. -/
def FirstIsSupported (vendorMod : List VendorModInfo) (i : ℕ) (entries : List Properties) : Prop :=
  ∀ e ∈ entries, ∀ ven rev, Publishes e ven rev →
    Supported vendorMod (CodecInfo.create e i ven.toUInt32 rev.toUInt32) →
    ∃ first ven' rev', IsFirstCodec entries first ∧ Publishes first ven' rev' ∧
      ven'.toUInt32 = ven.toUInt32 ∧ rev'.toUInt32 = rev.toUInt32

/-- **Detection is complete exactly when the first entry is the supported one.**  Take any state in
which `processKext` would look for codecs, and any enumeration that is stable during the call. -/
theorem findsSupported_iff {loads : List KextLoad} {load : KextLoad} {entries : List Properties}
    {i : ℕ} {c : ControllerInfo} {d : Device} (hmax : 0 < cfg.lilu.bruteMax)
    (hunique : UniqueIds cfg.res.vendorMod)
    (hpending : (stateAfter cfg boot table loads).progressState.codecsLoaded = false)
    (hc : (stateAfter cfg boot table loads).controllers[i]? = some c) (hdetect : c.detect = some d)
    (hstable : ∀ brute, load.iterateOver d brute = some entries) :
    FindsSupported cfg (stateAfter cfg boot table loads) load i entries ↔
      FirstIsSupported cfg.res.vendorMod i entries := by
  have hcodecs := grabCodecs_pending cfg boot table hmax hpending hc hdetect hstable
  have hresult : (grabCodecs cfg.lilu cfg.res load (stateAfter cfg boot table loads)).2 =
      decide ((grabCodecs cfg.lilu cfg.res load (stateAfter cfg boot table loads)).1.codecs.length
        > 0) := rfl
  unfold FindsSupported FirstIsSupported
  rw [hresult]
  generalize (grabCodecs cfg.lilu cfg.res load (stateAfter cfg boot table loads)).1.codecs = found
    at hcodecs ⊢
  constructor
  · intro h e he ven rev hpub hsupported
    obtain ⟨-, ci, hci, -, hid, hrevision⟩ := h e he ven rev hpub hsupported
    rw [hcodecs] at hci
    obtain ⟨ci₀, hci₀, m, -, rfl⟩ := (validateCodecs_spec _ _).2 ci hci
    cases hfirst : firstCodecEntry entries with
    | none => rw [hfirst] at hci₀; exact absurd hci₀ (by simp)
    | some first =>
        rw [hfirst] at hci₀
        rcases appendCodec_nil i first with ⟨ven', rev', hpub', happend⟩ | hnone
        · simp only [happend, List.mem_singleton] at hci₀
          subst hci₀
          have hid' := CodecInfo.create_id first i ven'.toUInt32 rev'.toUInt32
          exact ⟨first, ven', rev', firstCodecEntry_eq_some.mp hfirst, hpub', hid'.symm.trans hid,
            hrevision⟩
        · simp only [hnone] at hci₀
          exact absurd hci₀ (by simp)
  · intro h e he ven rev hpub hsupported
    obtain ⟨first, ven', rev', hfirst, hpub', hven, hrev⟩ := h e he ven rev hpub hsupported
    have happend : (appendCodec i first []).2 =
        [CodecInfo.create first i ven'.toUInt32 rev'.toUInt32] := by
      simp [appendCodec, hpub'.1, hpub'.2, OSObject.asNumber]
    rw [firstCodecEntry_eq_some.mpr hfirst] at hcodecs
    simp only [happend, hven, hrev] at hcodecs
    obtain ⟨m, hm⟩ := Option.isSome_iff_exists.mp (findCodecMod_isSome.mpr
      (hunique.firstEntrySupports hsupported))
    have hm' : findCodecMod cfg.res.vendorMod
        (CodecInfo.create first i ven.toUInt32 rev.toUInt32) = some m := hm
    have hfound : found =
        [{ CodecInfo.create first i ven.toUInt32 rev.toUInt32 with info := some m }] := by
      rw [hcodecs]
      simp only [validateCodecs, hm']
    subst hfound
    exact ⟨rfl, _, List.mem_singleton.mpr rfl, rfl,
      CodecInfo.create_id first i ven.toUInt32 rev.toUInt32, rfl⟩

end Complete

/-- An HDMI codec that no table supports. -/
def Sample.hdmiEntry : Properties := fun key =>
  if key = "IOHDACodecVendorID" then some (.number 0x80862807)
  else if key = "IOHDACodecRevisionID" then some (.number 0x100000)
  else none

/-- The board of the sample with the HDMI codec beside the ALC292. -/
def Sample.loadBeside (entries : List Properties) : KextLoad :=
  { Sample.load [] 11 with iterateOver := fun _ _ => some entries }

theorem Sample.uniqueIds : UniqueIds Sample.config.res.vendorMod := by
  refine ⟨by decide, ?_⟩
  intro v hv
  rw [List.mem_singleton.mp hv]
  decide

/-- The analog controller of the sample board after the first call. -/
theorem Sample.analog_loaded :
    ∃ c, (stateAfter Sample.config (Sample.boot []) Sample.controllerMod
        [Sample.load [] 12]).controllers[0]? = some c ∧ c.detect = some .audioBuiltinAnalog :=
  ⟨_, rfl, rfl⟩

/-- In front of the HDMI codec the ALC292 is found. -/
theorem findsSupported_iff_sample :
    FindsSupported Sample.config (stateAfter Sample.config (Sample.boot []) Sample.controllerMod
      [Sample.load [] 12]) (Sample.loadBeside [Sample.codecEntry, Sample.hdmiEntry]) 0
      [Sample.codecEntry, Sample.hdmiEntry] := by
  obtain ⟨c, hc, hdetect⟩ := Sample.analog_loaded
  refine (findsSupported_iff Sample.config (Sample.boot []) Sample.controllerMod (by decide)
    Sample.uniqueIds rfl hc hdetect fun _ => rfl).mpr ?_
  intro e he ven rev hpub hsupported
  simp only [List.mem_cons, List.not_mem_nil, or_false] at he
  rcases he with rfl | rfl
  · exact ⟨Sample.codecEntry, ven, rev, ⟨[], [Sample.hdmiEntry], rfl, rfl, by simp⟩, hpub, rfl, rfl⟩
  · have hven : ven = 0x80862807 := by
      have h := hpub.1
      simp only [Sample.hdmiEntry, if_true, Option.some.injEq, OSObject.number.injEq] at h
      exact h.symm
    subst hven
    obtain ⟨v, hv, hvendor, -⟩ := hsupported
    rw [List.mem_singleton.mp hv] at hvendor
    have hids : (0x10EC : UInt16) = 0x8086 := hvendor
    exact absurd hids (by decide)

/-- Behind the HDMI codec it is missed, and nothing is found. -/
theorem not_findsSupported_sample :
    ¬FindsSupported Sample.config (stateAfter Sample.config (Sample.boot []) Sample.controllerMod
      [Sample.load [] 12]) (Sample.loadBeside [Sample.hdmiEntry, Sample.codecEntry]) 0
      [Sample.hdmiEntry, Sample.codecEntry] := by
  intro h
  have hfound := (h Sample.codecEntry (by simp) 0x10EC0292 0x100001 ⟨rfl, rfl⟩ (by decide)).1
  exact absurd hfound (by decide)

end AppleALC
