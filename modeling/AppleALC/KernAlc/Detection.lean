import AppleALC.KernAlc.UpdateProperties

/-!
# Detecting controllers and codecs

Controllers are completed and bound to their mods by `grabControllers`, on the first kext that gets
that far.  Codecs are looked for by `grabCodecs` below every controller with a detect entry, and
only those that a vendor table supports are kept.

* `bindController` — the walk of `validateControllers` over the mod table;
* `bruteCodecs` / `bruteControllers` — the attempts to find a codec below a controller;
* `findCodecMod` / `validateCodecs` — the search through the vendor tables;
* `grabControllers` / `grabCodecs` — the two detections.
-/

namespace AppleALC

/-- One `processKext` call, with what the machine shows while it runs: the inventory, the property
tables, the computer model, and for every brute-force attempt the entries that the registry iterator
yields below a device (`none` when there is no iterator). -/
structure KextLoad where
  index : ℕ
  devInfo : Option DeviceInfo := none
  registry : Registry Device := fun _ _ => none
  modelType : UInt32 := 0
  iterateOver : Device → ℕ → Option (List Properties) := fun _ _ => none

/-! ### Controllers -/

/-- The revision search both validations share: an empty list admits every revision. -/
def revisionMatches (revisions : List UInt32) (revision : UInt32) : Bool :=
  let rev := revisions.findIdx (· == revision)
  rev != revisions.length || revisions.length == 0

theorem revisionMatches_iff (revisions : List UInt32) (revision : UInt32) :
    revisionMatches revisions revision = true ↔ revisions = [] ∨ revision ∈ revisions := by
  have hlt : revisions.findIdx (· == revision) < revisions.length ↔ revision ∈ revisions := by
    rw [List.findIdx_lt_length]
    simp
  have hle : revisions.findIdx (· == revision) ≤ revisions.length := List.findIdx_le_length
  simp only [revisionMatches, Bool.or_eq_true, bne_iff_ne, ne_eq, beq_iff_eq,
    List.length_eq_zero_iff, ← hlt]
  constructor
  · rintro (h | h)
    · exact Or.inr (by omega)
    · exact Or.inl h
  · rintro (h | h)
    · exact Or.inr h
    · exact Or.inl (by omega)

/-- The inner loop of `validateControllers`: the index of the mod it breaks at, counted from
`mod`. -/
def findMod (computerModel : UInt32) (c : ControllerInfo) :
    (mod : ℕ) → List ControllerModInfo → Option ℕ
  | _, [] => none
  | mod, m :: ms =>
      if c.vendor = m.vendor ∧ c.device = m.device then
        -- Check AAPL,ig-platform-id if present
        if m.platform ≠ PlatformAny ∧ m.platform ≠ c.platform then
          findMod computerModel c (mod + 1) ms
        -- Check if computer model is suitable
        else if computerModel &&& m.computerModel = 0 then findMod computerModel c (mod + 1) ms
        else if revisionMatches m.revisions c.revision then some mod
        else findMod computerModel c (mod + 1) ms
      else findMod computerModel c (mod + 1) ms

/-- `validateControllers` on one controller. -/
def bindController (computerModel : UInt32) (controllerMod : List ControllerModInfo)
    (c : ControllerInfo) : ControllerInfo :=
  match findMod computerModel c 0 controllerMod with
  | some mod => { c with info := some mod }
  | none => c

/-- Compare found controllers with built-in mod lists. -/
def validateControllers (alc : AlcEnabler) : AlcEnabler :=
  { alc with controllers :=
      alc.controllers.map (bindController alc.computerModel alc.controllerMod) }

/-- C++ converts a number to `bool` by comparing it with zero. -/
def boolOfUInt32 (v : UInt32) : Bool := v != 0

/-- C++ converts `true` to 1 and `false` to 0. -/
def uint32OfBool (b : Bool) : UInt32 := if b then 1 else 0

/-- The analog part of `grabControllers`.  The call passes `PlatformAny` in the place of `np` and
the no-controller-patch test in the place of `p`. -/
def grabAnalog (lilu : Lilu) (load : KextLoad) (info : DeviceInfo) (alc : AlcEnabler) :
    AlcEnabler :=
  let sect := load.registry .audioBuiltinAnalog
  if info.audioBuiltinAnalog then
    match lilu.read sect "vendor-id", lilu.read sect "device-id", lilu.read sect "revision-id",
        lilu.read sect "alc-layout-id" with
    | some ven, some dev, some rev, some lid =>
        alc.insertController ⟨.audioBuiltinAnalog, sect⟩ ven dev rev (boolOfUInt32 PlatformAny)
          (uint32OfBool (sect "no-controller-patch").isSome) lid (some .audioBuiltinAnalog)
    | _, _, _, _ => alc
  else alc

/-- Detects audio controllers. -/
def grabControllers (lilu : Lilu) (load : KextLoad) (alc : AlcEnabler) : AlcEnabler :=
  let alc := { alc with computerModel := load.modelType }
  let alc := match load.devInfo with
    | some info => grabAnalog lilu load info alc
    | none => alc
  if alc.controllers.length > 0 then validateControllers alc else alc

/-! ### Codecs -/

/-- Appends registered codec, for the controller `ctrl`: true on success and false to continue
bruting. -/
def appendCodec (ctrl : ℕ) (e : Properties) (codecs : List CodecInfo) : Bool × List CodecInfo :=
  match e "IOHDACodecVendorID", e "IOHDACodecRevisionID" with
  | some ven, some rev =>
      match ven.asNumber, rev.asNumber with
      | some venNum, some revNum =>
          (true, codecs ++ [CodecInfo.create e ctrl venNum.toUInt32 revNum.toUInt32])
      | _, _ => (true, codecs)
  | _, _ => (false, codecs)

/-- The entry one pass of the registry iterator stops at. -/
def firstCodecEntry (entries : List Properties) : Option Properties :=
  entries.find? fun e => (e "IOHDACodecVendorID").isSome

/-- The brute-force loop below one detect entry, with `remaining` attempts left of which the next is
number `brute`. -/
def bruteCodecs (load : KextLoad) (detect : Device) (ctrl : ℕ) :
    (remaining brute : ℕ) → List CodecInfo → List CodecInfo
  | 0, _, codecs => codecs
  | n + 1, brute, codecs =>
      match (load.iterateOver detect brute).bind firstCodecEntry with
      | some e =>
          match appendCodec ctrl e codecs with
          | (true, codecs) => codecs
          | (false, codecs) => bruteCodecs load detect ctrl n (brute + 1) codecs
      | none => bruteCodecs load detect ctrl n (brute + 1) codecs

/-- The controller loop of `grabCodecs`, from controller `ctrl` on. -/
def bruteControllers (lilu : Lilu) (load : KextLoad) :
    (ctrl : ℕ) → List ControllerInfo → List CodecInfo → List CodecInfo
  | _, [], codecs => codecs
  | ctrl, c :: cs, codecs =>
      match c.detect with
      -- Digital controllers normally have no detectible codecs
      | none => bruteControllers lilu load (ctrl + 1) cs codecs
      | some detect =>
          bruteControllers lilu load (ctrl + 1) cs
            (bruteCodecs load detect ctrl lilu.bruteMax 0 codecs)

/-- The mod `validateCodecs` finds for a codec: the first vendor, in it the first codec, and of that
the revision. -/
def findCodecMod (vendorMod : List VendorModInfo) (ci : CodecInfo) : Option CodecModInfo :=
  match vendorMod.find? (fun v => v.vendor == ci.vendor) with
  | none => none
  | some v =>
      match v.codecs.find? (fun m => m.codec == ci.codec) with
      | none => none
      | some m => if revisionMatches m.revisions ci.revision then some m else none

/-- Compare found codecs with built-in mod lists, erasing the unsuitable ones. -/
def validateCodecs (vendorMod : List VendorModInfo) : List CodecInfo → List CodecInfo
  | [] => []
  | ci :: cis =>
      match findCodecMod vendorMod ci with
      | some m => { ci with info := some m } :: validateCodecs vendorMod cis
      | none => validateCodecs vendorMod cis

/-- Detects audio codecs: the plugin after it, and whether anything suitable was found. -/
def grabCodecs (lilu : Lilu) (res : Resources) (load : KextLoad) (alc : AlcEnabler) :
    AlcEnabler × Bool :=
  let codecs := validateCodecs res.vendorMod (bruteControllers lilu load 0 alc.controllers alc.codecs)
  ({ alc with codecs := codecs }, decide (codecs.length > 0))

end AppleALC
