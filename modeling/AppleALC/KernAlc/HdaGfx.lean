import Mathlib.Data.List.Pairwise
import AppleALC.KernAlc.BootFrame

/-!
# Who is given which hda-gfx

macOS connects an audio function to the GPU that has the same `hda-gfx`.  `updateProperties` hands
the names out: `onboard-1` to the IGPU and to whichever device plays its sound, and the following
numbers to the external GPUs that are processed, each shared with the audio function beside it.  When
there is no built-in digital audio, the first external GPU is `onboard-1`.

The assignments of a run are read off its effects.  Every stage appends some, and together they are
a list in which each GPU has a number of its own.

* `onboard` / `onboard_injective` — the names, through the buffer of sixteen bytes;
* `World.hdaGfx` — the assignments made so far, with a lemma for each stage;
* `updateProperties_hdaGfx` — those of a whole boot;
* `hdaGfx_of_own_gpu` — an audio device and a GPU with one name belong together.
-/

namespace AppleALC

open PropertyStore

/-! ### Names and their numbers -/

/-- The number at the end of an `onboard-%u` buffer. -/
def readOnboard (bytes : List UInt8) : ℕ :=
  Nat.ofDigitChars 10 ((bytes.drop 8).dropLast.map fun b => Char.ofNat b.toNat) 0

/-- Up to seven digits fit into the buffer. -/
theorem onboardName_toList {counter : UInt32} (h : counter.toNat ≤ 9999999) :
    (onboardName counter).toList = "onboard-".toList ++ Nat.toDigits 10 counter.toNat := by
  have hdigits : (Nat.toDigits 10 counter.toNat).length ≤ 7 :=
    (Nat.length_toDigits_le_iff (by decide) (by decide)).mpr (by omega)
  rw [onboardName, String.toList_ofList, String.toList_append, Nat.toString_eq_repr,
    Nat.toList_repr, List.take_of_length_le]
  rw [List.length_append]
  exact Nat.add_le_add (show "onboard-".toList.length ≤ 8 by decide) hdigits

/-- A digit survives the conversion to a byte. -/
theorem ofNat_toNat_digit {c : Char} (h : c.isDigit) :
    Char.ofNat (UInt8.ofNat c.toNat).toNat = c := by
  have hlt : c.toNat < 256 := by
    simp only [Char.isDigit, Bool.and_eq_true, decide_eq_true_eq] at h
    have hle : c.toNat ≤ 57 := UInt32.le_iff_toNat_le.mp h.2
    omega
  rw [UInt8.toNat_ofNat', Nat.mod_eq_of_lt hlt, Char.ofNat_toNat]

/-- The number can be read back from a buffer that it fits into. -/
theorem readOnboard_cString {counter : UInt32} (h : counter.toNat ≤ 9999999) :
    readOnboard (cString (onboardName counter)) = counter.toNat := by
  have hbytes : ((cString (onboardName counter)).drop 8).dropLast =
      (Nat.toDigits 10 counter.toNat).map fun c => UInt8.ofNat c.toNat := by
    rw [cString, onboardName_toList h, List.map_append, List.append_assoc]
    rw [List.drop_left' (show (List.map (fun c : Char => UInt8.ofNat c.toNat)
      "onboard-".toList).length = 8 by decide), List.dropLast_concat]
  have hchars : ((Nat.toDigits 10 counter.toNat).map fun c => UInt8.ofNat c.toNat).map
      (fun b => Char.ofNat b.toNat) = Nat.toDigits 10 counter.toNat := by
    rw [List.map_map]
    refine (List.map_congr_left ?_).trans (List.map_id _)
    intro c hc
    exact ofNat_toNat_digit (Nat.isDigit_of_mem_toDigits (by decide) (by decide) hc)
  rw [readOnboard, hbytes, hchars, Nat.ofDigitChars_toDigits (by decide) (by decide)]

def onboard (n : ℕ) : OSObject := .data (cString (onboardName (UInt32.ofNat n)))

/-- Different numbers of up to seven digits give different values. -/
theorem onboard_injective {n m : ℕ} (hn : n ≤ 9999999) (hm : m ≤ 9999999)
    (h : onboard n = onboard m) : n = m := by
  have hnat : ∀ k ≤ 9999999, (UInt32.ofNat k).toNat = k := by
    intro k hk
    rw [UInt32.toNat_ofNat', Nat.mod_eq_of_lt (by omega)]
  have hread := congrArg readOnboard (OSObject.data.inj h)
  rwa [readOnboard_cString (by rw [hnat n hn]; exact hn),
    readOnboard_cString (by rw [hnat m hm]; exact hm), hnat n hn, hnat m hm] at hread

theorem onboard_one : OSObject.data (cString "onboard-1") = onboard 1 := by
  have hname : onboardName (UInt32.ofNat 1) = "onboard-1" := by decide
  rw [onboard, hname]

/-! ### The assignments of a run -/

/-- The device and the value, when the effect sets `hda-gfx`. -/
def Effect.hdaGfx : Effect → Option (Device × OSObject)
  | .setProperty d key value => if key = "hda-gfx" then some (d, value) else none
  | _ => none

theorem Effect.hdaGfx_eq_none {e : Effect} (he : ∀ d key value, e ≠ .setProperty d key value) :
    e.hdaGfx = none := by
  cases e with
  | setProperty d key value => exact absurd rfl (he d key value)
  | _ => rfl

/-- The assignments of `hda-gfx` made so far. -/
def World.hdaGfx (w : World) : List (Device × OSObject) := w.effects.filterMap Effect.hdaGfx

/-- `w'` follows from `w` by these assignments, and others of other properties. -/
def Assigns (names : List (Device × OSObject)) (w w' : World) : Prop :=
  w'.hdaGfx = w.hdaGfx ++ names

namespace Assigns

variable {names names' : List (Device × OSObject)} {w w₁ w₂ : World}

theorem refl (w : World) : Assigns [] w w := (List.append_nil _).symm

theorem trans (h₁ : Assigns names w w₁) (h₂ : Assigns names' w₁ w₂) :
    Assigns (names ++ names') w w₂ := by
  rw [Assigns, h₂, h₁, List.append_assoc]

/-- Steps without assignments, before and after. -/
theorem after (h₁ : Assigns [] w w₁) (h₂ : Assigns names w₁ w₂) : Assigns names w w₂ :=
  h₁.trans h₂

theorem andThen (h₁ : Assigns names w w₁) (h₂ : Assigns [] w₁ w₂) : Assigns names w w₂ := by
  have h := h₁.trans h₂
  rwa [List.append_nil] at h

theorem hdaGfx (w : World) (d : Device) (value : OSObject) :
    Assigns [(d, value)] w (w.setProperty d "hda-gfx" value) := by
  rw [Assigns, World.hdaGfx, World.setProperty, List.filterMap_append]
  rfl

end Assigns

/-- Actions that do not write `hda-gfx` assign nothing. -/
theorem Acts.assigns {d : Device} {w w' : World} (h : Acts d (fun key => key ≠ "hda-gfx") w w') :
    Assigns [] w w' := by
  have hact : ∀ {w₁ w₂ : World} {e : Effect}, Assigns [] w w₁ → w₂.effects = w₁.effects ++ [e] →
      e.hdaGfx = none → Assigns [] w w₂ := by
    intro w₁ w₂ e h₁ heffects he
    rw [Assigns, World.hdaGfx, heffects, List.filterMap_append, List.filterMap_cons_none he]
    exact (List.append_nil _).trans h₁
  induction h with
  | refl => exact .refl w
  | setProperty _ hkey value ih => exact hact ih rfl (if_neg hkey)
  | renameDevice _ _ _ _ ih => exact hact ih rfl rfl
  | act _ _ he ih => exact hact ih rfl (Effect.hdaGfx_eq_none he)

section Parts

variable (lilu : Lilu) (boot : Boot) (info : DeviceInfo) (d : Device) (w : World)

def named (d : Device) (name : Option String) : List (Device × OSObject) :=
  (name.map fun n => (d, .data (cString n))).toList

theorem passHdaGfx_assigns (name : Option String) :
    Assigns (named d name) w (passHdaGfx d name w) := by
  cases name with
  | none => exact Assigns.refl w
  | some n => exact Assigns.hdaGfx w d _

/-- One device is assigned the name it is passed, and nothing else. -/
theorem updateDeviceProperties_assigns (name : Option String) (isAnalog : Bool) :
    Assigns (named d name) w (updateDeviceProperties lilu boot info d name isAnalog w) := by
  have h₁ : Acts d (fun key => key ≠ "hda-gfx") w (fixPlaneName lilu d isAnalog w) :=
    fixPlaneName_acts lilu d w (by decide) isAnalog
  have h₂ : Acts d (fun key => key ≠ "hda-gfx") w (if isAnalog then
      updateAnalogProperties lilu boot info d (fixPlaneName lilu d isAnalog w)
      else fixPlaneName lilu d isAnalog w) := by
    split
    · exact h₁.trans (updateAnalogProperties_acts lilu boot info d _ (by decide))
    · exact h₁
  have h₃ := h₂.trans (reportLayoutId_acts info d _ (show "layout-id" ≠ "hda-gfx" by decide))
  have h₄ := h₃.assigns.after (passHdaGfx_assigns d _ name)
  have h₅ : ∀ w', Acts d (fun key => key ≠ "hda-gfx") w' (w'.setDefault d "built-in" [0x00]) := by
    intro w'
    apply Acts.setDefault .refl
    decide
  exact h₄.andThen (h₅ _).assigns

theorem insertDigital_assigns (ven platform : UInt32) :
    Assigns [] w (insertDigital lilu d ven platform w) := by
  unfold insertDigital
  split
  · exact Assigns.refl w
  · exact Assigns.refl w

theorem registerExternal_assigns (gpu : ℕ) (ven : UInt32) :
    Assigns [] w (registerExternal lilu gpu ven w) := by
  unfold registerExternal
  simp only
  split
  · split <;> exact Assigns.refl w
  · exact Assigns.refl w

theorem connectorType_ne_hdaGfx (i : ℕ) : connectorType i ≠ "hda-gfx" := by
  have hhead := connectorType_head i
  intro h
  rw [h] at hhead
  exact absurd hhead (by decide)

end Parts

/-! ### The stages -/

section Stages

variable (lilu : Lilu) {boot : Boot} (info : DeviceInfo) {table : List ControllerModInfo} {w : World}

/-- An assignment of `onboard-1` in the first three stages, in the presence of built-in digital
audio. -/
def IsBuiltin (has : Bool) (x : Device × OSObject) : Prop :=
  has = true ∧ x.2 = onboard 1 ∧ (x.1 = .audioBuiltinDigital ∨
    x.1 = .audioBuiltinAnalog ∧ info.audioBuiltinDigital = false ∨ x.1 = .videoBuiltin)

theorem updateBuiltinDigital_assigns (boot : Boot) (has : Bool) (w : World) :
    ∃ names, Assigns names w (updateBuiltinDigital lilu boot info has w) ∧
      ∀ x ∈ names, IsBuiltin info has x := by
  unfold updateBuiltinDigital
  split
  · split
    · next hhas =>
      refine ⟨_, (updateDeviceProperties_assigns lilu boot info _ w (some "onboard-1") false).andThen
        (insertDigital_assigns lilu _ _ _ _), ?_⟩
      intro x hx
      rw [named, Option.map_some, Option.toList_some, List.mem_singleton] at hx
      subst hx
      exact ⟨hhas, onboard_one, Or.inl rfl⟩
    · exact ⟨[], (terminateDigital_acts boot w).assigns, by simp⟩
  · exact ⟨[], Assigns.refl w, by simp⟩

theorem updateBuiltinAnalog_assigns (boot : Boot) (has : Bool) (w : World) :
    ∃ names, Assigns names w (updateBuiltinAnalog lilu boot info has w) ∧
      ∀ x ∈ names, IsBuiltin info has x := by
  unfold updateBuiltinAnalog
  split
  · refine ⟨_, (updateTcsel_acts lilu boot w).assigns.after
      (updateDeviceProperties_assigns lilu boot info _ _ _ true), ?_⟩
    intro x hx
    split at hx
    · next hpass =>
      rw [Bool.and_eq_true, Bool.not_eq_true'] at hpass
      rw [named, Option.map_some, Option.toList_some, List.mem_singleton] at hx
      subst hx
      exact ⟨hpass.1, onboard_one, Or.inr (Or.inl ⟨rfl, hpass.2⟩)⟩
    · exact absurd hx (by simp [named])
  · exact ⟨[], Assigns.refl w, by simp⟩

theorem updateVideoBuiltin_assigns (has : Bool) (w : World) :
    ∃ names, Assigns names w (updateVideoBuiltin lilu info has w) ∧
      ∀ x ∈ names, IsBuiltin info has x := by
  have hset := Assigns.hdaGfx w .videoBuiltin (.data (cString "onboard-1"))
  unfold updateVideoBuiltin
  split
  · next hguard =>
    rw [Bool.and_eq_true] at hguard
    refine ⟨[(.videoBuiltin, .data (cString "onboard-1"))], ?_, ?_⟩
    · simp only
      split
      · exact hset.andThen (insertDigital_assigns lilu _ _ _ _)
      · exact hset
    · intro x hx
      rw [List.mem_singleton] at hx
      subst hx
      exact ⟨hguard.1, onboard_one, Or.inr (Or.inr rfl)⟩
  · exact ⟨[], Assigns.refl w, by simp⟩

/-- The external GPU number `gpu` is processed: its audio function is there and not opted out. -/
def Processed (registry : Registry Device) (gpu : ℕ) (ext : ExternalVideo) : Prop :=
  ext.audio = true ∧ registry (.externalAudio gpu) "no-controller-inject" = none

instance (registry : Registry Device) (gpu : ℕ) (ext : ExternalVideo) :
    Decidable (Processed registry gpu ext) := by
  unfold Processed
  have hdec : Decidable (registry (.externalAudio gpu) "no-controller-inject" = none) :=
    decidable_of_iff _ Option.isNone_iff_eq_none
  infer_instance

/-- The numbers that the processed GPUs of a list get, from the GPU `gpu` and the number `n` on. -/
def numbers (registry : Registry Device) : (gpu : ℕ) → List ExternalVideo → (n : ℕ) → List (ℕ × ℕ)
  | _, [], _ => []
  | gpu, ext :: exts, n =>
      if Processed registry gpu ext then (gpu, n) :: numbers registry (gpu + 1) exts (n + 1)
      else numbers registry (gpu + 1) exts n

/-- What a processed GPU and its audio function are assigned. -/
def bothNamed (x : ℕ × ℕ) : List (Device × OSObject) :=
  [(.externalAudio x.1, onboard x.2), (.externalVideo x.1, onboard x.2)]

theorem Booted.processed_iff (h : Booted boot table w) (gpu : ℕ) (ext : ExternalVideo) :
    Processed boot.registry gpu ext ↔
      ¬(!ext.audio || !validateInjection w (.externalAudio gpu)) = true := by
  rw [Processed, validateInjection, h.optOuts _ _ (Or.inl rfl)]
  simp

/-- One iteration of the loop over the external GPUs. -/
theorem updateExternal_assigns (h : Booted boot table w) (gpu : ℕ) (ext : ExternalVideo) (n : ℕ) :
    (updateExternal lilu boot info gpu ext (UInt32.ofNat n) w).1 =
        UInt32.ofNat (if Processed boot.registry gpu ext then n + 1 else n) ∧
      Assigns (if Processed boot.registry gpu ext then bothNamed (gpu, n) else []) w
        (updateExternal lilu boot info gpu ext (UInt32.ofNat n) w).2 := by
  unfold updateExternal
  by_cases hprocessed : Processed boot.registry gpu ext
  · rw [if_neg ((h.processed_iff gpu ext).mp hprocessed), if_pos hprocessed, if_pos hprocessed]
    refine ⟨(UInt32.ofNat_add n 1).symm, ?_⟩
    have h₁ := registerExternal_assigns lilu w gpu ext.vendor
    have h₂ := h₁.after (updateDeviceProperties_assigns lilu boot info (.externalAudio gpu) _
      (some (onboardName (UInt32.ofNat n))) false)
    have h₃ := h₂.trans (Assigns.hdaGfx _ (.externalVideo gpu)
      (.data (cString (onboardName (UInt32.ofNat n)))))
    exact h₃.andThen (updateConnectors_acts _ connectorType_ne_hdaGfx gpu ext.vendor).assigns
  · rw [if_pos (not_not.mp (fun hno => hprocessed ((h.processed_iff gpu ext).mpr hno))),
      if_neg hprocessed, if_neg hprocessed]
    exact ⟨rfl, Assigns.refl w⟩

theorem updateVideoExternal_assigns (exts : List ExternalVideo) :
    ∀ (gpu n : ℕ) {w : World}, Booted boot table w →
      Assigns ((numbers boot.registry gpu exts n).flatMap bothNamed) w
        (updateVideoExternal lilu boot info gpu exts (UInt32.ofNat n) w) := by
  induction exts with
  | nil => intro gpu n w _; exact Assigns.refl w
  | cons ext exts ih =>
      intro gpu n w h
      obtain ⟨hcounter, hassigns⟩ := updateExternal_assigns lilu info h gpu ext n
      have hnext := h.updateExternal lilu info gpu ext (UInt32.ofNat n)
      rw [updateVideoExternal, numbers]
      simp only [hcounter]
      split
      · next hprocessed =>
        rw [if_pos hprocessed] at hassigns
        rw [List.flatMap_cons]
        exact hassigns.trans (ih (gpu + 1) (n + 1) hnext)
      · next hprocessed =>
        rw [if_neg hprocessed] at hassigns
        exact hassigns.after (ih (gpu + 1) n hnext)

end Stages

/-! ### Numbers are not given twice -/

section Numbers

variable {registry : Registry Device}

theorem numbers_bounds (exts : List ExternalVideo) :
    ∀ {gpu n : ℕ}, ∀ x ∈ numbers registry gpu exts n,
      gpu ≤ x.1 ∧ n ≤ x.2 ∧ x.2 < n + exts.length := by
  induction exts with
  | nil => intro gpu n x hx; exact absurd hx (by simp [numbers])
  | cons ext exts ih =>
      intro gpu n x hx
      rw [numbers] at hx
      rw [List.length_cons]
      split at hx
      · rcases List.mem_cons.mp hx with rfl | hx
        · exact ⟨le_refl _, le_refl _, by simp⟩
        · obtain ⟨h₁, h₂, h₃⟩ := ih x hx
          omega
      · obtain ⟨h₁, h₂, h₃⟩ := ih x hx
        omega

/-- Along the list both the GPUs and the numbers grow. -/
theorem numbers_pairwise (exts : List ExternalVideo) :
    ∀ {gpu n : ℕ}, (numbers registry gpu exts n).Pairwise fun x y => x.1 < y.1 ∧ x.2 < y.2 := by
  induction exts with
  | nil => intro gpu n; exact List.Pairwise.nil
  | cons ext exts ih =>
      intro gpu n
      rw [numbers]
      split
      · refine List.Pairwise.cons ?_ ih
        intro y hy
        obtain ⟨h₁, h₂, -⟩ := numbers_bounds exts y hy
        constructor <;> simp only <;> omega
      · exact ih

/-- A GPU and its number determine each other. -/
theorem numbers_inj {exts : List ExternalVideo} {gpu n : ℕ} {x y : ℕ × ℕ}
    (hx : x ∈ numbers registry gpu exts n) (hy : y ∈ numbers registry gpu exts n) :
    x.1 = y.1 ↔ x.2 = y.2 := by
  have hforth : (numbers registry gpu exts n).Pairwise fun x y => x.1 = y.1 ↔ x.2 = y.2 := by
    refine (numbers_pairwise exts).imp ?_
    intro x y hlt
    omega
  have hback : (numbers registry gpu exts n).Pairwise
      (flip fun x y : ℕ × ℕ => x.1 = y.1 ↔ x.2 = y.2) := by
    refine (numbers_pairwise exts).imp ?_
    intro x y hlt
    simp only [flip]
    omega
  exact List.Pairwise.forall_of_forall_of_flip (fun x _ => by simp) hforth hback hx hy

/-- Every processed GPU has a number. -/
theorem mem_numbers {exts : List ExternalVideo} {i : ℕ} {ext : ExternalVideo} :
    ∀ {gpu n : ℕ}, exts[i]? = some ext → Processed registry (gpu + i) ext →
      ∃ k, (gpu + i, k) ∈ numbers registry gpu exts n := by
  induction exts generalizing i with
  | nil => intro gpu n h; exact absurd h (by simp)
  | cons e exts ih =>
      intro gpu n h hprocessed
      cases i with
      | zero =>
          rw [List.getElem?_cons_zero, Option.some.injEq] at h
          subst h
          rw [Nat.add_zero] at hprocessed ⊢
          exact ⟨n, by rw [numbers, if_pos hprocessed]; exact List.mem_cons_self⟩
      | succ i =>
          rw [List.getElem?_cons_succ] at h
          rw [show gpu + (i + 1) = gpu + 1 + i by omega] at hprocessed ⊢
          rw [numbers]
          split
          · obtain ⟨k, hk⟩ := ih (n := n + 1) h hprocessed
            exact ⟨k, List.mem_cons_of_mem _ hk⟩
          · exact ih h hprocessed

end Numbers

/-! ### The whole run -/

/-- The IGPU and the external GPUs. -/
def Device.IsGpu : Device → Prop
  | .videoBuiltin | .externalVideo _ => True
  | .audioBuiltinAnalog | .audioBuiltinDigital | .externalAudio _ => False

/-- The GPU whose sound an audio device plays. -/
def OwnGpu (info : DeviceInfo) : (audio gpu : Device) → Prop
  | .audioBuiltinDigital, .videoBuiltin => True
  | .audioBuiltinAnalog, .videoBuiltin => info.audioBuiltinDigital = false
  | .externalAudio i, .externalVideo j => i = j
  | _, _ => False

/-- The run sets `hda-gfx` of the device to this value. -/
def GivenHdaGfx (w : World) (d : Device) (value : OSObject) : Prop :=
  .setProperty d "hda-gfx" value ∈ w.effects

theorem givenHdaGfx_iff {w : World} {d : Device} {value : OSObject} :
    GivenHdaGfx w d value ↔ (d, value) ∈ w.hdaGfx := by
  rw [World.hdaGfx, List.mem_filterMap]
  constructor
  · intro h
    exact ⟨_, h, by rw [Effect.hdaGfx, if_pos rfl]⟩
  · rintro ⟨e, he, hsome⟩
    cases e with
    | setProperty d' key value' =>
        rw [Effect.hdaGfx] at hsome
        split at hsome
        · next hkey =>
          rw [Option.some.injEq, Prod.mk.injEq] at hsome
          obtain ⟨rfl, rfl⟩ := hsome
          rw [hkey] at he
          exact he
        · exact absurd hsome (by simp)
    | _ => exact absurd hsome (by simp [Effect.hdaGfx])

/-- An assignment of the loop over the external GPUs. -/
def IsExternal (registry : Registry Device) (exts : List ExternalVideo) (n : ℕ)
    (x : Device × OSObject) : Prop :=
  ∃ i k, (i, k) ∈ numbers registry 0 exts n ∧
    (x.1 = .externalAudio i ∨ x.1 = .externalVideo i) ∧ x.2 = onboard k

section Whole

variable (lilu : Lilu) {boot : Boot} {info : DeviceInfo} (table : List ControllerModInfo)

/-- **The assignments of a run**: the external GPUs have the numbers from the first free one on, and
what else there is are assignments of `onboard-1` when it is not free. -/
theorem updateProperties_hdaGfx (hinfo : boot.devInfo = some info) :
    ∃ has, (∀ x ∈ (updateProperties lilu boot { controllerMod := table }).hdaGfx,
        IsBuiltin info has x ∨
          IsExternal boot.registry info.videoExternal (if has then 2 else 1) x) ∧
      ∀ i k, (i, k) ∈ numbers boot.registry 0 info.videoExternal (if has then 2 else 1) →
        ∀ x ∈ bothNamed (i, k),
          x ∈ (updateProperties lilu boot { controllerMod := table }).hdaGfx := by
  let w₀ : World :=
    { registry := boot.registry, name := boot.name, alc := { controllerMod := table }, effects := [] }
  have hstart : Booted boot table w₀ := by constructor <;> simp [w₀]
  let has := hasBuiltinDigitalAudio info w₀
  have hd := hstart.updateBuiltinDigital lilu info has
  have ha := hd.updateBuiltinAnalog lilu info has
  have hv := ha.updateVideoBuiltin lilu info has
  obtain ⟨namesD, hassignsD, hnamesD⟩ := updateBuiltinDigital_assigns lilu info boot has w₀
  obtain ⟨namesA, hassignsA, hnamesA⟩ := updateBuiltinAnalog_assigns lilu info boot has
    (updateBuiltinDigital lilu boot info has w₀)
  obtain ⟨namesV, hassignsV, hnamesV⟩ := updateVideoBuiltin_assigns lilu info has
    (updateBuiltinAnalog lilu boot info has (updateBuiltinDigital lilu boot info has w₀))
  have hassigns := ((hassignsD.trans hassignsA).trans hassignsV).trans
    (updateVideoExternal_assigns lilu info info.videoExternal 0 (if has then 2 else 1) hv)
  have hend : updateProperties lilu boot { controllerMod := table } =
      updateVideoExternal lilu boot info 0 info.videoExternal
        (UInt32.ofNat (if has then 2 else 1)) (updateVideoBuiltin lilu info has
          (updateBuiltinAnalog lilu boot info has
            (updateBuiltinDigital lilu boot info has w₀))) := by
    have hcounter : UInt32.ofNat (if has then 2 else 1) = if has then 2 else 1 := by
      cases has <;> rfl
    unfold updateProperties
    rw [hinfo, hcounter]
    rfl
  have hgfx : (updateProperties lilu boot { controllerMod := table }).hdaGfx =
      namesD ++ namesA ++ namesV ++ (numbers boot.registry 0 info.videoExternal
        (if has then 2 else 1)).flatMap bothNamed := by
    rw [hend]
    exact hassigns
  refine ⟨has, ?_, ?_⟩
  · intro x hx
    rw [hgfx] at hx
    rcases List.mem_append.mp hx with hx | hx
    · left
      rcases List.mem_append.mp hx with hx | hx
      · rcases List.mem_append.mp hx with hx | hx
        · exact hnamesD x hx
        · exact hnamesA x hx
      · exact hnamesV x hx
    · right
      obtain ⟨⟨i, k⟩, hik, hx⟩ := List.mem_flatMap.mp hx
      refine ⟨i, k, hik, ?_⟩
      rcases List.mem_cons.mp hx with rfl | hx
      · exact ⟨Or.inl rfl, rfl⟩
      · rw [List.mem_singleton] at hx
        subst hx
        exact ⟨Or.inr rfl, rfl⟩
  · intro i k hik x hx
    rw [hgfx]
    exact List.mem_append_right _ (List.mem_flatMap.mpr ⟨(i, k), hik, hx⟩)

end Whole

/-- What two assignments of a run with the same value are: both are built-in, or both belong to the
same external GPU. -/
theorem same_value {registry : Registry Device} {info : DeviceInfo} {has : Bool}
    (hlen : info.videoExternal.length < 9999999) {d d' : Device} {value : OSObject}
    (h : IsBuiltin info has (d, value) ∨
      IsExternal registry info.videoExternal (if has then 2 else 1) (d, value))
    (h' : IsBuiltin info has (d', value) ∨
      IsExternal registry info.videoExternal (if has then 2 else 1) (d', value)) :
    (IsBuiltin info has (d, value) ∧ IsBuiltin info has (d', value)) ∨
      ∃ i, (d = .externalAudio i ∨ d = .externalVideo i) ∧
        (d' = .externalAudio i ∨ d' = .externalVideo i) := by
  -- an external number is not 1 when there is built-in digital audio
  have hapart : ∀ d d', IsBuiltin info has (d, value) →
      ¬IsExternal registry info.videoExternal (if has then 2 else 1) (d', value) := by
    rintro d d' ⟨hhas, hone, -⟩ ⟨i, k, hik, -, hk⟩
    obtain ⟨-, hlow, hhigh⟩ := numbers_bounds _ _ hik
    simp only [hhas, if_true] at hlow hhigh
    have heq := onboard_injective (by omega) (by omega) (hone.symm.trans hk)
    omega
  rcases h with h | h
  · rcases h' with h' | h'
    · exact Or.inl ⟨h, h'⟩
    · exact absurd h' (hapart d d' h)
  · rcases h' with h' | h'
    · exact absurd h (hapart d' d h')
    · obtain ⟨i, k, hik, hdev, hk⟩ := h
      obtain ⟨i', k', hik', hdev', hk'⟩ := h'
      obtain ⟨-, -, hhigh⟩ := numbers_bounds _ _ hik
      obtain ⟨-, -, hhigh'⟩ := numbers_bounds _ _ hik'
      simp only at hdev hdev' hk hk' hhigh hhigh'
      have hbound : (if has then 2 else 1) + info.videoExternal.length ≤ 10000000 := by
        cases has <;> simp <;> omega
      have heq : k = k' := onboard_injective (by omega) (by omega) (hk.symm.trans hk')
      have hsame : i = i' := (numbers_inj hik hik').mpr heq
      subst hsame
      exact Or.inr ⟨i, hdev, hdev'⟩

/-- The IGPU is the only GPU among the built-in devices. -/
theorem IsBuiltin.gpu {info : DeviceInfo} {has : Bool} {d : Device} {value : OSObject}
    (h : IsBuiltin info has (d, value)) (hd : d.IsGpu) : d = .videoBuiltin := by
  obtain ⟨-, -, hb⟩ := h
  simp only at hb
  rcases hb with rfl | ⟨rfl, -⟩ | rfl
  · exact absurd hd (by simp [Device.IsGpu])
  · exact absurd hd (by simp [Device.IsGpu])
  · rfl

/-- The GPU among an external GPU and its audio function. -/
theorem gpu_of_external {d : Device} {i : ℕ} (h : d = .externalAudio i ∨ d = .externalVideo i)
    (hd : d.IsGpu) : d = .externalVideo i := by
  rcases h with rfl | rfl
  · exact absurd hd (by simp [Device.IsGpu])
  · rfl

/-- **hda-gfx naming.**  In a run with fewer than 9,999,999 external GPUs, different GPUs are not
given the same value; each processed external GPU is given one value, the same as its audio function;
and an audio device is not given a value that a GPU other than its own is given. -/
theorem hdaGfx_of_own_gpu (lilu : Lilu) {boot : Boot} {info : DeviceInfo}
    (table : List ControllerModInfo) (hinfo : boot.devInfo = some info)
    (hlen : info.videoExternal.length < 9999999) :
    let w := updateProperties lilu boot { controllerMod := table }
    (∀ gpu gpu' value, gpu.IsGpu → gpu'.IsGpu → GivenHdaGfx w gpu value → GivenHdaGfx w gpu' value →
        gpu = gpu') ∧
      (∀ i ext, info.videoExternal[i]? = some ext → Processed boot.registry i ext →
        ∃ value, ∀ value', (GivenHdaGfx w (.externalVideo i) value' ↔ value' = value) ∧
          (GivenHdaGfx w (.externalAudio i) value' ↔ value' = value)) ∧
      ∀ audio gpu value, audio.IsAudio → gpu.IsGpu → GivenHdaGfx w audio value →
        GivenHdaGfx w gpu value → OwnGpu info audio gpu := by
  obtain ⟨has, hall, hexternal⟩ := updateProperties_hdaGfx lilu table hinfo
  simp only [givenHdaGfx_iff]
  refine ⟨?_, ?_, ?_⟩
  · intro gpu gpu' value hgpu hgpu' h h'
    rcases same_value hlen (hall _ h) (hall _ h') with ⟨hb, hb'⟩ | ⟨i, hi, hi'⟩
    · rw [hb.gpu hgpu, hb'.gpu hgpu']
    · rw [gpu_of_external hi hgpu, gpu_of_external hi' hgpu']
  · intro i ext hext hprocessed
    obtain ⟨k, hk⟩ : ∃ k, (0 + i, k) ∈ numbers boot.registry 0 info.videoExternal
        (if has then 2 else 1) := mem_numbers hext (by rwa [Nat.zero_add])
    rw [Nat.zero_add] at hk
    -- any value of the GPU or its audio function has the number k
    have honly : ∀ d value', (d = .externalAudio i ∨ d = .externalVideo i) →
        (d, value') ∈ (updateProperties lilu boot { controllerMod := table }).hdaGfx →
          value' = onboard k := by
      intro d value' hd hmem
      rcases hall _ hmem with ⟨-, -, hb⟩ | ⟨i', k', hik', hdev, hk'⟩
      · exact absurd hb (by rcases hd with rfl | rfl <;> simp)
      · have hsame : i = i' := by
          rcases hd with rfl | rfl <;> simpa using hdev
        have hnum : k = k' := (numbers_inj hk hik').mp hsame
        rw [hnum]
        exact hk'
    refine ⟨onboard k, fun value' => ⟨⟨honly _ value' (Or.inr rfl), ?_⟩,
      ⟨honly _ value' (Or.inl rfl), ?_⟩⟩⟩
    · rintro rfl
      exact hexternal i k hk _ (by simp [bothNamed])
    · rintro rfl
      exact hexternal i k hk _ (by simp [bothNamed])
  · intro audio gpu value haudio hgpu h h'
    rcases same_value hlen (hall _ h) (hall _ h') with ⟨⟨-, -, hb⟩, hb'⟩ | ⟨i, hi, hi'⟩
    · obtain rfl := hb'.gpu hgpu
      simp only at hb
      rcases hb with rfl | ⟨rfl, hdigital⟩ | rfl
      · exact trivial
      · exact hdigital
      · exact absurd haudio (by simp [Device.IsAudio])
    · obtain rfl := gpu_of_external hi' hgpu
      rcases hi with rfl | rfl
      · exact rfl
      · exact absurd haudio (by simp [Device.IsAudio])

/-- A board with an IGPU, HDEF and one external GPU with an audio function. -/
def sampleGfxBoot : Boot where
  devInfo := some { audioBuiltinAnalog := true, videoBuiltin := true,
                    videoExternal := [{ vendor := 0x1002, audio := true }] }
  registry := fun _ _ => none

/-- The external GPU of the board and its audio function are given one value, and the IGPU another
one. -/
theorem hdaGfx_of_own_gpu_sample :
    let w := updateProperties (.documented 19 4) sampleGfxBoot { controllerMod := [] }
    ∃ value, GivenHdaGfx w (.externalVideo 0) value ∧ GivenHdaGfx w (.externalAudio 0) value ∧
      ¬GivenHdaGfx w .videoBuiltin value := by
  obtain ⟨hgpus, hexternal, -⟩ := @hdaGfx_of_own_gpu (.documented 19 4) sampleGfxBoot _ [] rfl
    (by decide)
  obtain ⟨value, hvalue⟩ := hexternal 0 { vendor := 0x1002, audio := true } rfl ⟨rfl, rfl⟩
  have hvideo := (hvalue value).1.mpr rfl
  refine ⟨value, hvideo, (hvalue value).2.mpr rfl, ?_⟩
  intro higpu
  have hsame := hgpus .videoBuiltin (.externalVideo 0) value trivial trivial higpu hvideo
  exact absurd hsame (by decide)

end AppleALC
