import AppleALC.KernAlc.ProcessKext
import AppleALC.KernAlc.PinConfig
import AppleALC.KernAlc.UpdateResource

/-!
# Hooks and trampolines

A routed function of another kext enters a hook of the plugin, and the hook goes on to the original
through the trampoline in the matching `org` member.  The member is null until the patcher routes the
symbol, and whether it does is up to the patcher: a symbol can be missing in a kext.

A hook never calls an original by name.  What it does with it is a jump: the hook it comes from, the
address it jumps to, and the arguments.

* `Hook` / `Trampolines` — the routed functions, and the members that point to their originals;
* `Trampolines.requests` — what a call to the patcher does to the members;
* `Jump` — what a hook does with its original;
* `Asks` — a call asks the patcher for a hook.
-/

namespace AppleALC

open PropertyStore

/-- The functions the plugin routes. -/
inductive Hook where
  | gfxProbe
  | layoutLoadCallback
  | platformLoadCallback
  | performPowerChange
  | initializePinConfig
  | ioHDACodecDeviceExecuteVerb
  | appleHDAControllerStart
  deriving DecidableEq, Repr

def Hook.symbol : Hook → String
  | gfxProbe => "__ZN21AppleGFXHDAController5probeEP9IOServicePi"
  | layoutLoadCallback => "__ZN14AppleHDADriver18layoutLoadCallbackEjiPKvjPv"
  | platformLoadCallback => "__ZN14AppleHDADriver20platformLoadCallbackEjiPKvjPv"
  | performPowerChange =>
      "__ZN14AppleHDADriver23performPowerStateChangeE24_IOAudioDevicePowerStateS0_Pj"
  | initializePinConfig =>
      "__ZN20AppleHDACodecGeneric38initializePinConfigDefaultFromOverrideEP9IOService"
  | ioHDACodecDeviceExecuteVerb => "__ZN16IOHDACodecDevice11executeVerbEtttPjb"
  | appleHDAControllerStart => "__ZN18AppleHDAController5startEP9IOService"

/-- The `org` members: an address for each hook, zero where nothing was routed. -/
abbrev Trampolines := Hook → UInt64

/-- The members of a plugin that was just started. -/
def Trampolines.unrouted : Trampolines := fun _ => 0

/-- What one request to the patcher does to the members.  `routed` says which of the symbols it asks
for were found in the loaded kext, and where their trampolines are. -/
def Trampolines.request (routed : String → Option UInt64) (org : Trampolines) : Event → Trampolines
  | .route _ symbols => fun hook =>
      if hook.symbol ∈ symbols then (routed hook.symbol).getD (org hook) else org hook
  | _ => org

def Trampolines.requests (routed : String → Option UInt64) (org : Trampolines)
    (events : List Event) : Trampolines :=
  events.foldl (Trampolines.request routed) org

/-! ### Jumps -/

inductive Arguments (ε : Type*) where
  | probe (ctrl provider : ε)
  | loaded (type : Resource) (reply : ResourceReply)
  | power (hdaDriver : Option ε) (fromState toState : UInt32)
  | pinConfig (hdaCodec configDevice : Option ε)
  | verb (hdaCodecDevice : ε) (nid verb param : UInt16)
  | start (service provider : ε)
  deriving DecidableEq

structure Jump (ε : Type*) where
  hook : Hook
  address : UInt64
  arguments : Arguments ε
  deriving DecidableEq

variable {ε : Type*} [DecidableEq ε]

/-- The original call as a jump. -/
def Original.jump (org : Trampolines) : Original ε → Jump ε
  | .performPowerChange hdaDriver fromState toState =>
      ⟨.performPowerChange, org .performPowerChange, .power hdaDriver fromState toState⟩
  | .initializePinConfig hdaCodec configDevice =>
      ⟨.initializePinConfig, org .initializePinConfig, .pinConfig hdaCodec configDevice⟩

/-! ### The hooks of the other kexts -/

/-- `gfxProbe`: nothing probes HDEF. -/
def gfxProbe (org : Trampolines) (name : ε → Option String) (ctrl provider : ε) : List (Jump ε) :=
  -- custom audio cards take HDEF over, so AppleGFXHDA is avoided for it
  if name provider = some "HDEF" then []
  else [⟨.gfxProbe, org .gfxProbe, .probe ctrl provider⟩]

/-- `layoutLoadCallback` and `platformLoadCallback`: the original receives the updated reply. -/
def resourceLoadCallback (lilu : Lilu) (alc : AlcEnabler) (org : Trampolines) (type : Resource)
    (reply : ResourceReply) : List (Jump ε) :=
  let hook := match type with
    | .layout => Hook.layoutLoadCallback
    | .platform => Hook.platformLoadCallback
  [⟨hook, org hook, .loaded type (updateResource lilu alc type reply)⟩]

def layoutLoadCallback (lilu : Lilu) (alc : AlcEnabler) (org : Trampolines)
    (reply : ResourceReply) : List (Jump ε) :=
  resourceLoadCallback lilu alc org .layout reply

def platformLoadCallback (lilu : Lilu) (alc : AlcEnabler) (org : Trampolines)
    (reply : ResourceReply) : List (Jump ε) :=
  resourceLoadCallback lilu alc org .platform reply

/-- `AppleHDAController_start`: the registry, the milliseconds it sleeps first, and the jump.
`alcdelay` is the boot argument. -/
def appleHDAControllerStart (lilu : Lilu) (alcdelay : Option UInt32) (org : Trampolines)
    (service provider : ε) (registry : Registry ε) : Registry ε × UInt32 × List (Jump ε) :=
  let jump : List (Jump ε) :=
    [⟨.appleHDAControllerStart, org .appleHDAControllerStart, .start service provider⟩]
  match alcdelay with
  | some delay =>
      (set registry provider "alc-delay" (.data (bytesOfUInt32 delay)),
        if delay > 3000 then 0 else delay, jump)
  | none =>
      let delay := (lilu.read (registry provider) "alc-delay").getD 0
      (registry, if delay > 3000 then 0 else delay, jump)

def ioHDACodecDeviceExecuteVerb (org : Trampolines) (hdaCodecDevice : ε)
    (nid verb param : UInt16) : List (Jump ε) :=
  [⟨.ioHDACodecDeviceExecuteVerb, org .ioHDACodecDeviceExecuteVerb,
    .verb hdaCodecDevice nid verb param⟩]

/-! ### Trampolines are only ever filled -/

/-- The patcher's trampolines are not null. -/
def NonNull (routed : String → Option UInt64) : Prop := ∀ symbol, routed symbol ≠ some 0

variable {routed : String → Option UInt64} {org : Trampolines}

theorem Trampolines.request_ne_zero (hrouted : NonNull routed) {hook : Hook} (h : org hook ≠ 0)
    (event : Event) : org.request routed event hook ≠ 0 := by
  unfold Trampolines.request
  split
  · split
    · cases hfound : routed hook.symbol with
      | none => exact h
      | some address =>
          rintro rfl
          exact hrouted _ hfound
    · exact h
  · exact h

/-- A trampoline that is there stays there. -/
theorem Trampolines.requests_ne_zero (hrouted : NonNull routed) {hook : Hook} (events : List Event)
    (h : org hook ≠ 0) : org.requests routed events hook ≠ 0 := by
  unfold Trampolines.requests
  induction events generalizing org with
  | nil => exact h
  | cons event events ih => exact ih (Trampolines.request_ne_zero hrouted h event)

/-- The call asks the patcher for the function of the hook. -/
def Asks (hook : Hook) (events : List Event) : Prop :=
  ∃ index symbols, .route index symbols ∈ events ∧ hook.symbol ∈ symbols

theorem asks_nil (hook : Hook) : ¬Asks hook [] := by
  rintro ⟨index, symbols, hmem, -⟩
  exact absurd hmem (by simp)

@[simp] theorem asks_append {hook : Hook} {events events' : List Event} :
    Asks hook (events ++ events') ↔ Asks hook events ∨ Asks hook events' := by
  constructor
  · rintro ⟨index, symbols, hmem, hsymbol⟩
    rcases List.mem_append.mp hmem with hmem | hmem
    · exact Or.inl ⟨index, symbols, hmem, hsymbol⟩
    · exact Or.inr ⟨index, symbols, hmem, hsymbol⟩
  · rintro (⟨index, symbols, hmem, hsymbol⟩ | ⟨index, symbols, hmem, hsymbol⟩)
    · exact ⟨index, symbols, List.mem_append_left _ hmem, hsymbol⟩
    · exact ⟨index, symbols, List.mem_append_right _ hmem, hsymbol⟩

theorem asks_route {hook : Hook} {index : ℕ} {symbols : List String} :
    Asks hook [.route index symbols] ↔ hook.symbol ∈ symbols := by
  constructor
  · rintro ⟨index', symbols', hmem, hsymbol⟩
    rw [List.mem_singleton, Event.route.injEq] at hmem
    exact hmem.2 ▸ hsymbol
  · intro h
    exact ⟨index, symbols, List.mem_singleton_self _, h⟩

/-- A trampoline the call does not ask for is left alone. -/
theorem Trampolines.requests_of_not_asks {hook : Hook} {events : List Event}
    (h : ¬Asks hook events) : org.requests routed events hook = org hook := by
  unfold Trampolines.requests
  induction events generalizing org with
  | nil => rfl
  | cons event events ih =>
      rw [← List.singleton_append, asks_append, not_or] at h
      rw [List.foldl_cons, ih h.2]
      cases event with
      | route index symbols => exact if_neg fun hmem => h.1 (asks_route.mpr hmem)
      | _ => rfl

/-- One that it asks for is where the patcher put it, if the patcher found the symbol. -/
theorem Trampolines.requests_of_asks {hook : Hook} {events : List Event} (h : Asks hook events) :
    org.requests routed events hook = (routed hook.symbol).getD (org hook) := by
  induction events generalizing org with
  | nil => exact absurd h (asks_nil hook)
  | cons event events ih =>
      rw [← List.singleton_append, asks_append] at h
      show (org.request routed event).requests routed events hook = _
      by_cases hlater : Asks hook events
      · rw [ih hlater]
        -- asking twice is asking once
        cases hfound : routed hook.symbol with
        | some address => rfl
        | none =>
            cases event with
            | route index symbols => simp [Trampolines.request, hfound]
            | _ => rfl
      · rw [Trampolines.requests_of_not_asks hlater]
        cases event with
        | route index symbols => exact if_pos (asks_route.mp (h.resolve_right hlater))
        | _ =>
            obtain ⟨index, symbols, hmem, -⟩ := h.resolve_right hlater
            exact absurd hmem (by simp)

end AppleALC
