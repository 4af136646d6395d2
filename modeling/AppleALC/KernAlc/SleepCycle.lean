import Mathlib.Data.List.Induction
import AppleALC.Library.OutputMachine
import AppleALC.KernAlc.PinConfig
import AppleALC.KernAlc.ProcessKext

/-!
# Sleep and wake

A codec is in one of four phases: not initialised yet, initialised without reinitialisation, and
marked for reinitialisation while awake or asleep.  The two status properties are the phase written
into the registry.  The hooks move a codec from phase to phase, whatever the other codecs and the
originals do, as long as the originals leave the two properties alone.

The phase remembers the last power change that counts, so the replay of `performPowerChange` comes
out as a statement about the history of calls: it happens on the first wake after a sleep.

* `PinPhase` / `InPhase` — the phases, and that the registry shows one;
* `HookCall.step` — a call of one of the two hooks, on any codec;
* `Recalls` / `run_recalls` — what the phase remembers of a history;
* `one_replay_per_sleep` — which calls replay, by the history before them.
-/

namespace AppleALC

open PropertyStore OutputMachine

/-! ### Phases -/

/-- The life of a codec under the two hooks. -/
inductive PinPhase where
  | fresh
  | plain
  | armed (asleep : Bool)
  deriving DecidableEq

namespace PinPhase

def pin : PinPhase → Option Bool
  | fresh => none
  | plain => some false
  | armed _ => some true

def sleep : PinPhase → Option Bool
  | fresh => none
  | plain => some false
  | armed asleep => some asleep

/-- The phase after a power change to `toState`. -/
def power (toState : UInt32) : PinPhase → PinPhase
  | fresh => fresh
  | plain => plain
  | armed asleep =>
      if toState = ALCAudioDeviceSleep then armed true
      else if toState = ALCAudioDeviceIdle ∨ toState = ALCAudioDeviceActive then armed false
      else armed asleep

theorem power_pin (toState : UInt32) (phase : PinPhase) : (phase.power toState).pin = phase.pin := by
  cases phase with
  | fresh => rfl
  | plain => rfl
  | armed asleep =>
      simp only [power]
      split
      · rfl
      · split <;> rfl

end PinPhase

variable {ε : Type*}

/-- The two status properties of the codec say this phase. -/
structure InPhase (codec : ε) (phase : PinPhase) (registry : Registry ε) : Prop where
  pin : registry codec "alc-pinconfig-status" = phase.pin.map .boolean
  sleep : registry codec "alc-sleep-status" = phase.sleep.map .boolean

/-- The two status properties. -/
def IsStatus (key : String) : Prop := key = "alc-pinconfig-status" ∨ key = "alc-sleep-status"

/-- The registries agree on the status properties of a codec. -/
def SameStatus (codec : ε) (registry registry' : Registry ε) : Prop :=
  ∀ key, IsStatus key → registry' codec key = registry codec key

theorem SameStatus.trans {codec : ε} {registry registry₁ registry₂ : Registry ε}
    (h₁ : SameStatus codec registry registry₁) (h₂ : SameStatus codec registry₁ registry₂) :
    SameStatus codec registry registry₂ :=
  fun key hkey => (h₂ key hkey).trans (h₁ key hkey)

theorem InPhase.of_same {codec : ε} {phase : PinPhase} {registry registry' : Registry ε}
    (h : InPhase codec phase registry) (hsame : SameStatus codec registry registry') :
    InPhase codec phase registry' :=
  ⟨(hsame _ (Or.inl rfl)).trans h.pin, (hsame _ (Or.inr rfl)).trans h.sleep⟩

/-- The original does not touch the two status properties. -/
def KeepsStatus (change : RegistryChange ε) : Prop :=
  ∀ registry codec, SameStatus codec registry (change registry)

/-! ### The hooks move codecs from phase to phase -/

section Hooks

variable [DecidableEq ε] (lilu : Lilu) (plane : ServicePlane ε) (alc : AlcEnabler)

theorem set_sameStatus {codec entry : ε} {key : String} (registry : Registry ε)
    (h : codec ≠ entry ∨ ¬IsStatus key) (value : OSObject) :
    SameStatus codec registry (set registry entry key value) := by
  intro key' hkey'
  rcases h with h | h
  · exact set_of_ne_entry _ h _ _ _
  · have hne : key' ≠ key := by
      rintro rfl
      exact h hkey'
    exact set_of_ne_key _ _ _ hne _

/-- Installing an entry writes at most the status of the codec it is installed for, and that to
true. -/
theorem installConfig_status (hdaCodec configDevice : ε) (appleLayout : UInt32)
    (config : ConfigEntry) (registry : Registry ε) :
    (∀ codec, codec ≠ hdaCodec →
      SameStatus codec registry (installConfig hdaCodec configDevice appleLayout config registry)) ∧
    (InPhase hdaCodec .plain registry →
      InPhase hdaCodec (if config.reinit then .armed false else .plain)
        (installConfig hdaCodec configDevice appleLayout config registry)) := by
  have hlist : ∀ (codec entry : ε) (r : Registry ε) (value : OSObject),
      SameStatus codec r (set r entry "HDAConfigDefault" value) := fun codec entry r value =>
    set_sameStatus r (Or.inr (by simp [IsStatus])) value
  unfold installConfig
  simp only
  by_cases hreinit : config.reinit = true
  · rw [if_pos hreinit]
    constructor
    · intro codec hne
      exact ((hlist codec configDevice _ _).trans (hlist codec hdaCodec _ _)).trans
        (set_sameStatus _ (Or.inl hne) _)
    · intro h
      have hsleep := (h.of_same ((hlist hdaCodec configDevice _
        (configListOf (config.withLayout appleLayout))).trans (hlist hdaCodec hdaCodec _
          (configListOf (config.forWake (config.withLayout appleLayout)))))).sleep
      rw [if_pos hreinit]
      exact ⟨set_self _ _ _ _, (set_of_ne_key _ _ _ (by decide) _).trans hsleep⟩
  · rw [if_neg hreinit]
    constructor
    · intro codec _
      exact hlist codec configDevice registry _
    · intro h
      rw [if_neg hreinit]
      exact h.of_same (hlist hdaCodec configDevice registry _)

/-- Configuring a codec puts it into one of the initialised phases, awake, and leaves the status of
every other codec alone. -/
theorem configureCodec_status (hdaCodec configDevice : ε) (registry : Registry ε) :
    (∀ codec, codec ≠ hdaCodec → SameStatus codec registry
      (configureCodec lilu plane alc hdaCodec configDevice registry)) ∧
    ∃ phase, (phase = .plain ∨ phase = .armed false) ∧
      InPhase hdaCodec phase (configureCodec lilu plane alc hdaCodec configDevice registry) := by
  have hreset : ∀ codec, codec ≠ hdaCodec →
      SameStatus codec registry (resetStatus hdaCodec registry) := by
    intro codec hne
    exact (set_sameStatus registry (Or.inl hne) _).trans (set_sameStatus _ (Or.inl hne) _)
  have hplain : InPhase hdaCodec .plain (resetStatus hdaCodec registry) :=
    ⟨(set_of_ne_key _ _ _ (by decide) _).trans (set_self _ _ _ _), set_self _ _ _ _⟩
  have hidle : ∃ phase, (phase = PinPhase.plain ∨ phase = .armed false) ∧
      InPhase hdaCodec phase (resetStatus hdaCodec registry) := ⟨_, Or.inl rfl, hplain⟩
  unfold configureCodec
  simp only
  split
  · split
    · split
      · next config _ =>
        obtain ⟨hothers, hphase⟩ := installConfig_status hdaCodec configDevice
          (getAudioLayout lilu plane registry hdaCodec) config (resetStatus hdaCodec registry)
        refine ⟨?_, _, ?_, hphase hplain⟩
        · intro codec hne
          exact (hreset codec hne).trans (hothers codec hne)
        · by_cases hreinit : config.reinit = true
          · exact Or.inr (if_pos hreinit)
          · exact Or.inl (if_neg hreinit)
      · exact ⟨hreset, hidle⟩
    · exact ⟨hreset, hidle⟩
  · exact ⟨hreset, hidle⟩

/-- What `performPowerChange` does to the codec above the driver: its phase follows the target, and
the original is replayed exactly when it was armed and asleep and is woken. -/
theorem updateSleepStatus_phase {replay : RegistryChange ε} (hreplay : KeepsStatus replay)
    {codec : ε} {phase : PinPhase} {registry : Registry ε} (h : InPhase codec phase registry)
    (toState : UInt32) :
    InPhase codec (phase.power toState) (updateSleepStatus replay codec toState registry).1 ∧
      (.initializePinConfig (some codec) (some codec) ∈
          (updateSleepStatus replay codec toState registry).2 ↔
        phase = .armed true ∧ (toState = ALCAudioDeviceIdle ∨ toState = ALCAudioDeviceActive)) := by
  unfold updateSleepStatus
  rw [h.pin, h.sleep]
  cases phase with
  | fresh => exact ⟨h, by simp [PinPhase.pin]⟩
  | plain => exact ⟨h, by simp [PinPhase.pin, PinPhase.sleep, OSObject.asBoolean]⟩
  | armed asleep =>
      simp only [PinPhase.pin, PinPhase.sleep, Option.map_some, Option.bind_some,
        OSObject.asBoolean, if_true, PinPhase.power, PinPhase.armed.injEq]
      by_cases hsleep : toState = ALCAudioDeviceSleep
      · rw [if_pos hsleep, if_pos hsleep]
        refine ⟨⟨(set_of_ne_key _ _ _ (by decide) _).trans h.pin, set_self _ _ _ _⟩, ?_⟩
        subst hsleep
        simp [ALCAudioDeviceSleep, ALCAudioDeviceIdle, ALCAudioDeviceActive]
      · rw [if_neg hsleep, if_neg hsleep]
        by_cases hwake : toState = ALCAudioDeviceIdle ∨ toState = ALCAudioDeviceActive
        · rw [if_pos hwake]
          cases asleep with
          | true =>
              have hkept := h.of_same (hreplay registry codec)
              simp only [hwake, and_self, if_true]
              exact ⟨⟨(set_of_ne_key _ _ _ (by decide) _).trans hkept.pin, set_self _ _ _ _⟩,
                by simp⟩
          | false => exact ⟨by simpa using h, by simp⟩
        · simp only [hwake, and_false, if_false]
          exact ⟨h, by simp⟩

/-- It leaves the status of every other codec alone. -/
theorem updateSleepStatus_others {replay : RegistryChange ε} (hreplay : KeepsStatus replay)
    {hdaCodec codec : ε} (hne : codec ≠ hdaCodec) (toState : UInt32) (registry : Registry ε) :
    SameStatus codec registry (updateSleepStatus replay hdaCodec toState registry).1 := by
  have hrefl : SameStatus codec registry registry := fun _ _ => rfl
  unfold updateSleepStatus
  split
  · split
    · split
      · exact set_sameStatus _ (Or.inl hne) _
      · split
        · exact (hreplay registry codec).trans (set_sameStatus _ (Or.inl hne) _)
        · exact hrefl
    · exact hrefl
  · exact hrefl

end Hooks

/-! ### One call -/

/-- One call of a hook, with the surroundings it sees and what the originals do meanwhile. -/
inductive HookCall (ε : Type*) where
  | initializePinConfig (plane : ServicePlane ε) (alc : AlcEnabler) (original : RegistryChange ε)
      (hdaCodec configDevice : Option ε)
  | performPowerChange (plane : ServicePlane ε) (original replay : RegistryChange ε)
      (hdaDriver : Option ε) (fromState toState : UInt32)

namespace HookCall

variable [DecidableEq ε]

/-- The call as a step on the registry, with the originals it called. -/
def step (lilu : Lilu) : HookCall ε → Registry ε → Registry ε × List (Original ε)
  | initializePinConfig plane alc original hdaCodec configDevice, registry =>
      AppleALC.initializePinConfig lilu plane alc original hdaCodec configDevice registry
  | performPowerChange plane original replay hdaDriver fromState toState, registry =>
      AppleALC.performPowerChange plane original replay hdaDriver fromState toState registry

/-- The originals behind the call do not touch the status properties. -/
def Tame : HookCall ε → Prop
  | initializePinConfig _ _ original _ _ => KeepsStatus original
  | performPowerChange _ original replay _ _ _ => KeepsStatus original ∧ KeepsStatus replay

/-- The call initialises this codec with a config device. -/
def Configures (codec : ε) : HookCall ε → Prop
  | initializePinConfig _ _ _ hdaCodec configDevice => hdaCodec = some codec ∧ configDevice.isSome
  | performPowerChange .. => False

def target (codec : ε) : HookCall ε → Option UInt32
  | initializePinConfig .. => none
  | performPowerChange plane _ _ hdaDriver _ toState =>
      if (hdaDriver.bind fun driver => (plane.ancestors driver).head?) = some codec then
        some toState
      else none

variable (lilu : Lilu) {call : HookCall ε} {codec : ε} {phase : PinPhase} {registry : Registry ε}

/-- A power change of the codec. -/
theorem step_of_target (htame : call.Tame) {toState : UInt32}
    (htarget : call.target codec = some toState) (h : InPhase codec phase registry) :
    InPhase codec (phase.power toState) (call.step lilu registry).1 ∧
      (.initializePinConfig (some codec) (some codec) ∈ (call.step lilu registry).2 ↔
        phase = .armed true ∧ (toState = ALCAudioDeviceIdle ∨ toState = ALCAudioDeviceActive)) := by
  cases call with
  | initializePinConfig plane alc original hdaCodec configDevice =>
      exact absurd htarget (by simp [target])
  | performPowerChange plane original replay hdaDriver fromState toState' =>
      obtain ⟨horiginal, hreplay⟩ := htame
      simp only [target] at htarget
      split at htarget
      · next hparent =>
        rw [Option.some.injEq] at htarget
        subst htarget
        have hphase := updateSleepStatus_phase hreplay (h.of_same (horiginal registry codec)) toState'
        simp only [step, AppleALC.performPowerChange, hparent, List.mem_cons, reduceCtorEq,
          false_or]
        exact hphase
      · exact absurd htarget (by simp)

/-- Initialising a codec that has no status. -/
theorem step_of_configures (htame : call.Tame) (hconf : call.Configures codec)
    (h : InPhase codec .fresh registry) :
    ∃ phase', (phase' = .plain ∨ phase' = .armed false) ∧
      InPhase codec phase' (call.step lilu registry).1 := by
  cases call with
  | performPowerChange => exact absurd hconf (by simp [Configures])
  | initializePinConfig plane alc original hdaCodec configDevice =>
      obtain ⟨rfl, hsome⟩ := hconf
      obtain ⟨config, rfl⟩ := Option.isSome_iff_exists.mp hsome
      obtain ⟨phase', hphase', hin⟩ :=
        (configureCodec_status lilu plane alc codec config registry).2
      have hnone : (registry codec "alc-pinconfig-status").isNone = true := by rw [h.pin]; rfl
      refine ⟨phase', hphase', ?_⟩
      simp only [step, AppleALC.initializePinConfig, hnone, if_true]
      exact hin.of_same (htame _ codec)

/-- Any other call, and initialising a codec again. -/
theorem step_of_other (htame : call.Tame) (htarget : call.target codec = none)
    (hconf : call.Configures codec → phase ≠ .fresh) (h : InPhase codec phase registry) :
    InPhase codec phase (call.step lilu registry).1 := by
  apply h.of_same
  cases call with
  | performPowerChange plane original replay hdaDriver fromState toState =>
      obtain ⟨horiginal, hreplay⟩ := htame
      simp only [step, AppleALC.performPowerChange]
      split
      · next hdaCodec hparent =>
        have hne : codec ≠ hdaCodec := by
          rintro rfl
          simp [target, hparent] at htarget
        exact (horiginal registry codec).trans (updateSleepStatus_others hreplay hne toState _)
      · exact horiginal registry codec
  | initializePinConfig plane alc original hdaCodec configDevice =>
      simp only [step, AppleALC.initializePinConfig]
      intro key hkey
      rw [htame _ codec key hkey]
      split
      · next hda config =>
        split
        · next hnone =>
          by_cases hcodec : codec = hda
          · subst hcodec
            have hfresh := hconf ⟨rfl, rfl⟩
            rw [h.pin] at hnone
            cases phase with
            | fresh => exact absurd rfl hfresh
            | plain => exact absurd hnone (by decide)
            | armed _ => exact absurd hnone (by simp [PinPhase.pin])
          · exact (configureCodec_status lilu plane alc hda config registry).1 codec hcodec key hkey
        · rfl
      · rfl

end HookCall

/-! ### Histories -/

section Histories

variable [DecidableEq ε] (lilu : Lilu) (codec : ε)

/-- The codec is marked for reinitialisation. -/
def Marked (registry : Registry ε) : Prop :=
  (registry codec "alc-pinconfig-status").bind OSObject.asBoolean = some true

instance (registry : Registry ε) : Decidable (Marked codec registry) := by
  unfold Marked; infer_instance

/-- The target of a power change that counts: the codec is marked, and the target is Sleep, Idle or
Active. -/
def countedTarget (call : HookCall ε) (registry : Registry ε) : List UInt32 :=
  match call.target codec with
  | some toState =>
      if Marked codec registry ∧ (toState = ALCAudioDeviceSleep ∨ toState = ALCAudioDeviceIdle ∨
          toState = ALCAudioDeviceActive) then [toState]
      else []
  | none => []

def countedTargets : List (HookCall ε) → Registry ε → List UInt32
  | [], _ => []
  | call :: calls, registry =>
      countedTarget codec call registry ++ countedTargets calls (call.step lilu registry).1

/-- The call replays the pin configuration of the codec. -/
def Replays (call : HookCall ε) (registry : Registry ε) : Prop :=
  .initializePinConfig (some codec) (some codec) ∈ (call.step lilu registry).2

instance (call : HookCall ε) (registry : Registry ε) : Decidable (Replays lilu codec call registry) := by
  unfold Replays; infer_instance

/-- How many power changes of a history replay. -/
def replayCount : List (HookCall ε) → Registry ε → ℕ
  | [], _ => 0
  | call :: calls, registry =>
      (if (call.target codec).isSome ∧ Replays lilu codec call registry then 1 else 0)
        + replayCount calls (call.step lilu registry).1

/-- How many targets follow a Sleep and are not Sleep themselves. -/
def wakeCount : List UInt32 → ℕ
  | [] => 0
  | [_] => 0
  | t :: t' :: ts =>
      (if t = ALCAudioDeviceSleep ∧ t' ≠ ALCAudioDeviceSleep then 1 else 0) + wakeCount (t' :: ts)

theorem countedTargets_append (pre post : List (HookCall ε)) (registry : Registry ε) :
    countedTargets lilu codec (pre ++ post) registry =
      countedTargets lilu codec pre registry ++
        countedTargets lilu codec post (run (HookCall.step lilu) pre registry) := by
  induction pre generalizing registry with
  | nil => rfl
  | cons call calls ih =>
      simp only [List.cons_append, countedTargets, ih, run_cons, List.append_assoc]

theorem replayCount_append (pre post : List (HookCall ε)) (registry : Registry ε) :
    replayCount lilu codec (pre ++ post) registry =
      replayCount lilu codec pre registry +
        replayCount lilu codec post (run (HookCall.step lilu) pre registry) := by
  induction pre generalizing registry with
  | nil => simp [replayCount]
  | cons call calls ih => simp only [List.cons_append, replayCount, ih, run_cons, Nat.add_assoc]

theorem wakeCount_append (ts : List UInt32) (t : UInt32) :
    wakeCount (ts ++ [t]) = wakeCount ts +
      if ts.getLast? = some ALCAudioDeviceSleep ∧ t ≠ ALCAudioDeviceSleep then 1 else 0 := by
  induction ts with
  | nil => simp [wakeCount]
  | cons a ts ih =>
      cases ts with
      | nil => simp [wakeCount]
      | cons b ts =>
          have hlast : (a :: b :: ts).getLast? = (b :: ts).getLast? := by simp
          rw [hlast, List.cons_append, List.cons_append, wakeCount, ← List.cons_append, ih,
            wakeCount, Nat.add_assoc]

/-- The phase agrees with the counted targets so far, and so does the number of replays. -/
structure Recalls (phase : PinPhase) (targets : List UInt32) (replays : ℕ) : Prop where
  unarmed : phase.pin ≠ some true → targets = []
  asleep : phase = .armed true ↔ targets.getLast? = some ALCAudioDeviceSleep
  replays : replays = wakeCount targets

variable {codec} {phase : PinPhase} {registry : Registry ε}

omit [DecidableEq ε] in
theorem InPhase.marked_iff (h : InPhase codec phase registry) :
    Marked codec registry ↔ phase.pin = some true := by
  unfold Marked
  rw [h.pin]
  cases phase.pin <;> simp [OSObject.asBoolean]

/-- **Step lemma.**  What one call does to the phase and to the record of the history. -/
theorem recalls_step {call : HookCall ε} (htame : call.Tame) {targets : List UInt32} {replays : ℕ}
    (hphase : InPhase codec phase registry) (h : Recalls phase targets replays) :
    ∃ phase', InPhase codec phase' (call.step lilu registry).1 ∧
      (phase ≠ .fresh → phase'.pin = phase.pin) ∧
      (call.Configures codec → phase' ≠ .fresh) ∧
      Recalls phase' (targets ++ countedTarget codec call registry)
        (replays + if (call.target codec).isSome ∧ Replays lilu codec call registry then 1 else 0) := by
  cases htarget : call.target codec with
  | some toState =>
      obtain ⟨hphase', hreplay⟩ := HookCall.step_of_target lilu htame htarget hphase
      have hnot : ¬call.Configures codec := by
        cases call with
        | initializePinConfig => exact absurd htarget (by simp [HookCall.target])
        | performPowerChange => exact id
      refine ⟨phase.power toState, hphase', fun _ => PinPhase.power_pin toState phase,
        fun hconf => absurd hconf hnot, ?_⟩
      have hreplay' : Replays lilu codec call registry ↔ phase = .armed true ∧
          (toState = ALCAudioDeviceIdle ∨ toState = ALCAudioDeviceActive) := hreplay
      simp only [countedTarget, htarget, Option.isSome_some, true_and, hreplay', hphase.marked_iff]
      cases phase with
      | fresh => simpa [PinPhase.pin, PinPhase.power] using h
      | plain => simpa [PinPhase.pin, PinPhase.power] using h
      | armed asleep =>
          by_cases hsleep : toState = ALCAudioDeviceSleep
          · subst hsleep
            refine ⟨by simp [PinPhase.pin, PinPhase.power], by simp [PinPhase.pin, PinPhase.power], ?_⟩
            simp [PinPhase.pin, wakeCount_append, h.replays, ALCAudioDeviceSleep,
              ALCAudioDeviceIdle, ALCAudioDeviceActive]
          · by_cases hwake : toState = ALCAudioDeviceIdle ∨ toState = ALCAudioDeviceActive
            · refine ⟨by simp [PinPhase.pin, PinPhase.power, hsleep, hwake],
                by simp [PinPhase.pin, PinPhase.power, hsleep, hwake], ?_⟩
              simp [PinPhase.pin, wakeCount_append, h.replays, hsleep, hwake, h.asleep]
            · simpa [PinPhase.pin, PinPhase.power, hsleep, hwake] using h
  | none =>
      have hrecord : Recalls phase (targets ++ countedTarget codec call registry)
          (replays + if (call.target codec).isSome ∧ Replays lilu codec call registry
            then 1 else 0) := by
        simpa [countedTarget, htarget] using h
      rw [htarget] at hrecord
      by_cases hconf : call.Configures codec → phase ≠ .fresh
      · exact ⟨phase, HookCall.step_of_other lilu htame htarget hconf hphase, fun _ => rfl, hconf,
          hrecord⟩
      · simp only [Classical.not_imp, not_not] at hconf
        obtain ⟨hconf, rfl⟩ := hconf
        obtain ⟨phase', hphase', hin⟩ := HookCall.step_of_configures lilu htame hconf hphase
        have hnil := hrecord.unarmed (by simp [PinPhase.pin])
        refine ⟨phase', hin, fun hne => absurd rfl hne, fun _ => ?_, fun _ => hnil, ?_,
          hrecord.replays⟩
        · rcases hphase' with rfl | rfl <;> simp
        · rw [hnil]
          rcases hphase' with rfl | rfl <;> simp

/-- **Run lemma.**  After every history of tame calls on a fresh codec, its phase agrees with the
record of the history. -/
theorem run_recalls (calls : List (HookCall ε)) (htame : ∀ call ∈ calls, call.Tame)
    (hfresh : InPhase codec .fresh registry) :
    ∃ phase, InPhase codec phase (run (HookCall.step lilu) calls registry) ∧
      Recalls phase (countedTargets lilu codec calls registry)
        (replayCount lilu codec calls registry) := by
  induction calls using List.reverseRecOn with
  | nil => exact ⟨.fresh, hfresh, fun _ => rfl, by simp [countedTargets], rfl⟩
  | append_singleton calls call ih =>
      obtain ⟨phase, hphase, hrecalls⟩ := ih fun c hc => htame c (by simp [hc])
      obtain ⟨phase', hphase', -, -, hrecalls'⟩ :=
        recalls_step lilu (htame call (by simp)) hphase hrecalls
      refine ⟨phase', by rw [run_append]; exact hphase', ?_⟩
      rw [countedTargets_append, replayCount_append]
      simpa [countedTargets, replayCount] using hrecalls'

/-- A codec that has a status keeps it. -/
theorem run_keeps_pin {calls : List (HookCall ε)} (htame : ∀ call ∈ calls, call.Tame)
    {targets : List UInt32} {replays : ℕ} (hphase : InPhase codec phase registry)
    (hset : phase ≠ .fresh) (h : Recalls phase targets replays) :
    run (HookCall.step lilu) calls registry codec "alc-pinconfig-status" =
      registry codec "alc-pinconfig-status" := by
  induction calls generalizing phase registry targets replays with
  | nil => rfl
  | cons call calls ih =>
      obtain ⟨phase', hphase', hpin, -, hrecalls'⟩ :=
        recalls_step lilu (htame call (by simp)) hphase h
      have hset' : phase' ≠ .fresh := by
        rintro rfl
        have hnone := hpin hset
        cases phase with
        | fresh => exact hset rfl
        | plain => exact absurd hnone (by simp [PinPhase.pin])
        | armed _ => exact absurd hnone (by simp [PinPhase.pin])
      rw [run_cons, ih (fun c hc => htame c (by simp [hc])) hphase' hset' hrecalls', hphase'.pin,
        hpin hset, hphase.pin]

/-- **One replay per sleep.**  Take any history of hooked calls, on this codec and on others, in
which the originals leave the two status properties alone, starting before the codec has either.
The two properties are always both absent or both present, and the first stays what the first
initialisation with a config device made it.  A power change of the codec replays the pin
configuration exactly when the codec is marked, the target is Idle or Active, and the last counted
target before it was Sleep; so there are as many replays as there are wakes after a Sleep. -/
theorem one_replay_per_sleep {calls : List (HookCall ε)} (htame : ∀ call ∈ calls, call.Tame)
    (hpin : registry codec "alc-pinconfig-status" = none)
    (hsleep : registry codec "alc-sleep-status" = none) :
    ((run (HookCall.step lilu) calls registry codec "alc-pinconfig-status").isSome =
      (run (HookCall.step lilu) calls registry codec "alc-sleep-status").isSome) ∧
    (∀ pre call post, calls = pre ++ call :: post → call.Configures codec →
      (run (HookCall.step lilu) (pre ++ [call]) registry codec "alc-pinconfig-status").isSome ∧
        run (HookCall.step lilu) calls registry codec "alc-pinconfig-status" =
          run (HookCall.step lilu) (pre ++ [call]) registry codec "alc-pinconfig-status") ∧
    (∀ pre call post toState, calls = pre ++ call :: post → call.target codec = some toState →
      (Replays lilu codec call (run (HookCall.step lilu) pre registry) ↔
        Marked codec (run (HookCall.step lilu) pre registry) ∧
          (toState = ALCAudioDeviceIdle ∨ toState = ALCAudioDeviceActive) ∧
          (countedTargets lilu codec pre registry).getLast? = some ALCAudioDeviceSleep)) ∧
    replayCount lilu codec calls registry = wakeCount (countedTargets lilu codec calls registry) := by
  have hfresh : InPhase codec .fresh registry := ⟨hpin, hsleep⟩
  refine ⟨?_, ?_, ?_, ?_⟩
  · obtain ⟨phase, hphase, -⟩ := run_recalls lilu calls htame hfresh
    rw [hphase.pin, hphase.sleep]
    cases phase <;> rfl
  · rintro pre call post rfl hconf
    obtain ⟨phase, hphase, hrecalls⟩ :=
      run_recalls lilu pre (fun c hc => htame c (by simp [hc])) hfresh
    obtain ⟨phase', hphase', -, hset, hrecalls'⟩ :=
      recalls_step lilu (htame call (by simp)) hphase hrecalls
    have hset := hset hconf
    rw [run_append, run_append, run_cons, run_cons, run_nil]
    refine ⟨?_, run_keeps_pin lilu (fun c hc => htame c (by simp [hc])) hphase' hset hrecalls'⟩
    rw [hphase'.pin]
    cases phase' with
    | fresh => exact absurd rfl hset
    | plain => rfl
    | armed _ => rfl
  · rintro pre call post toState rfl htarget
    obtain ⟨phase, hphase, hrecalls⟩ :=
      run_recalls lilu pre (fun c hc => htame c (by simp [hc])) hfresh
    have hreplay := (HookCall.step_of_target lilu (htame call (by simp)) htarget hphase).2
    rw [Replays, hreplay, hphase.marked_iff, ← hrecalls.asleep]
    constructor
    · rintro ⟨rfl, hwake⟩
      exact ⟨rfl, hwake, rfl⟩
    · rintro ⟨-, hwake, rfl⟩
      exact ⟨rfl, hwake⟩
  · obtain ⟨phase, -, hrecalls⟩ := run_recalls lilu calls htame hfresh
    exact hrecalls.replays

end Histories

/-! ### Marks -/

section Marks

/-- A change that leaves the status of a codec alone leaves its mark alone. -/
theorem SameStatus.marked_iff {codec : ε} {registry registry' : Registry ε}
    (h : SameStatus codec registry registry') : Marked codec registry' ↔ Marked codec registry := by
  rw [Marked, Marked, h _ (Or.inl rfl)]

variable [DecidableEq ε]

theorem performPowerChange_marked {plane : ServicePlane ε} {original replay : RegistryChange ε}
    (horiginal : KeepsStatus original) (hreplay : KeepsStatus replay) (hdaDriver : Option ε)
    (fromState toState : UInt32) (registry : Registry ε) (codec : ε) :
    Marked codec (performPowerChange plane original replay hdaDriver fromState toState registry).1 ↔
      Marked codec registry := by
  rw [← (horiginal registry codec).marked_iff]
  unfold performPowerChange
  simp only
  split
  · next hdaCodec _ =>
    -- the hook writes the other status property
    have hset : ∀ (r : Registry ε) (value : OSObject),
        Marked codec (set r hdaCodec "alc-sleep-status" value) ↔ Marked codec r := by
      intro r value
      rw [Marked, Marked, set_of_ne_key _ _ _ (by decide)]
    simp only [updateSleepStatus]
    split
    · split
      · split
        · exact hset _ _
        · split
          · rw [hset, (hreplay (original registry) codec).marked_iff]
          · exact Iff.rfl
      · exact Iff.rfl
    · exact Iff.rfl
  · exact Iff.rfl

/-- A replay is of a codec that is marked. -/
theorem marked_of_replay {plane : ServicePlane ε} {original replay : RegistryChange ε}
    (horiginal : KeepsStatus original) {hdaDriver : Option ε} {fromState toState : UInt32}
    {registry : Registry ε} {hdaCodec configDevice : Option ε}
    (h : .initializePinConfig hdaCodec configDevice ∈
      (performPowerChange plane original replay hdaDriver fromState toState registry).2) :
    ∃ codec, hdaCodec = some codec ∧ configDevice = some codec ∧ Marked codec registry := by
  unfold performPowerChange at h
  simp only at h
  split at h
  · next codec _ =>
    rw [List.mem_cons] at h
    replace h := h.resolve_left (by simp)
    rw [updateSleepStatus] at h
    split at h
    · next pin sleep hpin hsleep =>
      split at h
      · next htrue =>
        have hmarked : Marked codec registry := by
          rw [← (horiginal registry codec).marked_iff, Marked, hpin, htrue]
        split at h
        · exact absurd h (by simp)
        · split at h
          · rw [List.mem_singleton, Original.initializePinConfig.injEq] at h
            exact ⟨codec, h.1, h.2, hmarked⟩
          · exact absurd h (by simp)
      · exact absurd h (by simp)
    · exact absurd h (by simp)
  · exact absurd h (by simp)

end Marks

/-! ### A sample history -/

namespace Sample

/-- HDEF is entry 0, the config device 1, a codec 2 with its driver 3, and a second codec 4. -/
def plane : ServicePlane ℕ where
  ancestors e := if e = 3 then [2, 0] else if e = 0 then [] else [0]
  name e := if e = 0 then some "HDEF" else none

/-- The plugin with the ALC292 below a controller of layout 18. -/
def detected : AlcEnabler where
  controllers := [{ entry := ⟨.audioBuiltinAnalog, hdef []⟩, detect := some .audioBuiltinAnalog
                    vendor := 0x8086, device := 0x8C20, revision := 4, platform := 0, layout := 18
                    nopatch := false }]
  codecs := [CodecInfo.create codecEntry 0 0x10EC0292 0x100001]
  controllerMod := []

/-- An entry for the ALC292 and layout 18 that asks for reinitialisation. -/
def configEntry : ConfigEntry :=
  [("CodecID", .number 0x10EC0292), ("ConfigData", .data [0x01]), ("LayoutID", .number 18),
    ("WakeConfigData", .data [0x02]), ("WakeVerbReinit", .boolean true)]

/-- HDEF reports layout 7, and the config device carries the entry. -/
def services : Registry ℕ := fun e key =>
  if e = 0 ∧ key = "layout-id" then some (.data (bytesOfUInt32 7))
  else if e = 1 ∧ key = "HDAConfigDefault" then some (configListOf configEntry)
  else none

/-- Initialisation, a sleep, a wake, and a switch between the two wake states. -/
def history : List (HookCall ℕ) :=
  [.initializePinConfig plane detected id (some 2) (some 1),
    .performPowerChange plane id id (some 3) 2 0, .performPowerChange plane id id (some 3) 0 1,
    .performPowerChange plane id id (some 3) 1 2]

end Sample

/-- In the sample history the codec sleeps and wakes once, and is replayed once. -/
theorem one_replay_per_sleep_sample :
    replayCount (Lilu.documented 19 4) 2 Sample.history Sample.services =
        wakeCount (countedTargets (Lilu.documented 19 4) 2 Sample.history Sample.services) ∧
      wakeCount (countedTargets (Lilu.documented 19 4) 2 Sample.history Sample.services) = 1 := by
  have htame : ∀ call ∈ Sample.history, call.Tame := by
    intro call hcall
    have hid : KeepsStatus (id : RegistryChange ℕ) := fun _ _ _ _ => rfl
    simp only [Sample.history, List.mem_cons, List.not_mem_nil, or_false] at hcall
    rcases hcall with rfl | rfl | rfl | rfl
    · exact hid
    · exact ⟨hid, hid⟩
    · exact ⟨hid, hid⟩
    · exact ⟨hid, hid⟩
  have hpin : Sample.services 2 "alc-pinconfig-status" = none := rfl
  exact ⟨(one_replay_per_sleep (Lilu.documented 19 4) htame hpin rfl).2.2.2, by decide⟩

end AppleALC
