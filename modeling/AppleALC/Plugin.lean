import AppleALC.AlcVerb.UserClient
import AppleALC.KernAlc.Routing
import AppleALC.KernAlc.SleepCycle

/-!
# The plugin as a whole

The kernel calls into the plugin from many sides: the patcher reports loaded kexts, routed functions
enter their hooks, IOKit matches verb providers, and processes call user clients.  A session is any
interleaving of these calls.

A function that was not routed never enters its hook; it runs as it is.  A user client needs no
routing to reach the plugin.

* `Plugin` — the state: the plugin with its trampolines, providers and clients, and the registry;
* `Upcall` / `Upcall.step` — a call from outside, and the jumps that it makes;
* `Tame` — what is assumed of the originals;
* `familyTrampoline` — what the first load of IOHDAFamily gave for the verb hook.

A call is one step; threads that are inside of two calls at once are not modelled.
-/

namespace AppleALC

open PropertyStore OutputMachine

variable {ε : Type*}

/-- What stays fixed over a session. -/
structure PluginConfig extends Config where
  alcverbs : Option UInt32 := none
  alcdelay : Option UInt32 := none
  check : MethodCheck

/-- What the plugin and IOKit hold between calls.  `callbackAlc` says whether the plugin was
started. -/
structure Plugin (ε : Type*) where
  callbackAlc : Bool
  alc : AlcEnabler
  org : Trampolines := .unrouted
  registry : Registry ε
  providers : List (VerbProvider ε) := []
  clients : List UserClient := []

/-- A call into the plugin, with what the code around it does meanwhile. -/
inductive Upcall (ε : Type*) where
  | processKext (load : KextLoad) (routed : String → Option UInt64)
  | gfxProbe (name : ε → Option String) (ctrl provider : ε)
  | layoutLoadCallback (reply : ResourceReply)
  | platformLoadCallback (reply : ResourceReply)
  | appleHDAControllerStart (service provider : ε)
  | executeVerb (hdaCodecDevice : ε) (nid verb param : UInt16)
  | initializePinConfig (plane : ServicePlane ε) (original : RegistryChange ε)
      (hdaCodec configDevice : Option ε)
  | performPowerChange (plane : ServicePlane ε) (original replay : RegistryChange ε)
      (hdaDriver : Option ε) (fromState toState : UInt32)
  | matchProvider (plane : ServicePlane ε) (codec : ε) (superStart : Bool)
  | newUserClient (provider : ℕ) (owningTask superInit superStart : Bool)
  | externalMethod (client : ℕ) (selector : UInt32) (args : MethodArguments) (answer : ExecuteVerb)
  | clientClose (client : ℕ)
  | elsewhere (change : RegistryChange ε)

section Step

variable [DecidableEq ε] (cfg : PluginConfig)

/-- IOKit matches a codec: it keeps a provider whose probe succeeded, and starts it. -/
def Plugin.matchProvider (plane : ServicePlane ε) (codec : ε) (superStart : Bool) (s : Plugin ε) :
    Plugin ε :=
  match VerbProvider.probe cfg.lilu cfg.alcverbs plane s.registry codec with
  | some p => { s with providers := s.providers ++ [p.start superStart] }
  | none => s

/-- IOKit makes a user client of a provider it keeps, and drops one that does not start. -/
def Plugin.newUserClient (provider : ℕ) (owningTask superInit superStart : Bool) (s : Plugin ε) :
    Plugin ε :=
  match UserClient.initWithTask owningTask superInit with
  | some client =>
      let target := if provider < s.providers.length then some provider else none
      match client.start target superStart with
      | (true, client) => { s with clients := s.clients ++ [client] }
      | (false, _) => s
  | none => s

/-- A process calls a client.  The plugin does not look whether the client was closed. -/
def Plugin.externalMethod (client : ℕ) (selector : UInt32) (args : MethodArguments)
    (answer : ExecuteVerb) (s : Plugin ε) : List (Jump ε) :=
  match s.clients[client]? with
  | some c =>
      match c.mProvider.bind fun provider => s.providers[provider]? with
      | some p => (AppleALC.externalMethod cfg.check p s.callbackAlc s.org answer selector args).2.2
      | none => []
  | none => []

/-- What a hook does when its function is called, and nothing when the function was not routed. -/
def Plugin.entered (s : Plugin ε) (hook : Hook) (jumps : List (Jump ε)) : List (Jump ε) :=
  if s.org hook = 0 then [] else jumps

/-- One call into the plugin, with the jumps it makes. -/
def Upcall.step : Upcall ε → Plugin ε → Plugin ε × List (Jump ε)
  | processKext load routed, s =>
      -- the patcher only knows a plugin that was started
      if s.callbackAlc then
        let r := AppleALC.processKext cfg.toConfig load s.alc
        ({ s with alc := r.1, org := s.org.requests routed r.2 }, [])
      else (s, [])
  | gfxProbe name ctrl provider, s =>
      (s, s.entered .gfxProbe (AppleALC.gfxProbe s.org name ctrl provider))
  | layoutLoadCallback reply, s =>
      (s, s.entered .layoutLoadCallback (AppleALC.layoutLoadCallback cfg.lilu s.alc s.org reply))
  | platformLoadCallback reply, s =>
      (s, s.entered .platformLoadCallback (AppleALC.platformLoadCallback cfg.lilu s.alc s.org reply))
  | appleHDAControllerStart service provider, s =>
      let r := AppleALC.appleHDAControllerStart cfg.lilu cfg.alcdelay s.org service provider s.registry
      (if s.org .appleHDAControllerStart = 0 then s else { s with registry := r.1 },
        s.entered .appleHDAControllerStart r.2.2)
  | executeVerb hdaCodecDevice nid verb param, s =>
      (s, s.entered .ioHDACodecDeviceExecuteVerb
        (ioHDACodecDeviceExecuteVerb s.org hdaCodecDevice nid verb param))
  | initializePinConfig plane original hdaCodec configDevice, s =>
      let r := AppleALC.initializePinConfig cfg.lilu plane s.alc original hdaCodec configDevice
        s.registry
      ({ s with registry := if s.org .initializePinConfig = 0 then original s.registry else r.1 },
        s.entered .initializePinConfig (r.2.map (Original.jump s.org)))
  | performPowerChange plane original replay hdaDriver fromState toState, s =>
      let r := AppleALC.performPowerChange plane original replay hdaDriver fromState toState
        s.registry
      ({ s with registry := if s.org .performPowerChange = 0 then original s.registry else r.1 },
        s.entered .performPowerChange (r.2.map (Original.jump s.org)))
  | matchProvider plane codec superStart, s => (s.matchProvider cfg plane codec superStart, [])
  | newUserClient provider owningTask superInit superStart, s =>
      (s.newUserClient provider owningTask superInit superStart, [])
  | externalMethod client selector args answer, s =>
      (s, s.externalMethod cfg client selector args answer)
  | clientClose client, s =>
      ({ s with clients := s.clients.modify client UserClient.clientClose }, [])
  | elsewhere change, s => ({ s with registry := change s.registry }, [])

end Step

/-- The plugin after `updateProperties`, when no codec was looked at yet. -/
def Plugin.boot (started : Bool) (alc : AlcEnabler) (registry : Registry ε) : Plugin ε where
  callbackAlc := started
  alc := alc
  registry := registry

namespace Upcall

/-- What the code around the call does is harmless: its trampolines are not null, and it does not
touch the status properties of a codec. -/
def Tame : Upcall ε → Prop
  | processKext _ routed => NonNull routed
  | initializePinConfig _ original _ _ => KeepsStatus original
  | performPowerChange _ original replay _ _ _ => KeepsStatus original ∧ KeepsStatus replay
  | elsewhere change => KeepsStatus change
  | _ => True

/-- The call comes from a user client. -/
def IsClientCall : Upcall ε → Prop
  | externalMethod .. => True
  | _ => False

/-- The load of IOHDAFamily, and where the patcher put the trampoline of `executeVerb`. -/
def familyLoad (cfg : PluginConfig) : Upcall ε → Option (Option UInt64)
  | processKext load routed =>
      if cfg.res.kextSlot load.index = some cfg.res.kextIdIOHDAFamily ∧
          cfg.res.kextIdIOHDAFamily ≠ cfg.res.kextIdAppleGFXHDA then
        some (routed Hook.ioHDACodecDeviceExecuteVerb.symbol)
      else none
  | _ => none

end Upcall

/-- Where the first load of IOHDAFamily put the trampoline of `executeVerb`, if there was one and the
patcher found the symbol. -/
def familyTrampoline (cfg : PluginConfig) (calls : List (Upcall ε)) : Option UInt64 :=
  (calls.findSome? (Upcall.familyLoad cfg)).join

namespace Sample

def checkCounts : MethodCheck := fun counts args =>
  if args.Fits counts then none else some 0xE00002C2

def pluginConfig : PluginConfig where
  toConfig := config
  check := checkCounts

/-- A codec below its controller below HDEF. -/
def verbPlane : ServicePlane ℕ where
  ancestors entry := if entry = 0 then [1, 2] else []
  name _ := none

/-- HDEF of the codec allows verbs. -/
def verbRegistry : Registry ℕ := fun entry key =>
  if entry = 2 ∧ key = "alc-verbs" then some (.data (bytesOfUInt32 1)) else none

/-- IOHDAFamily is loaded without the symbol, and a client opens the codec. -/
def session : List (Upcall ℕ) :=
  [.processKext (load [] 13) (fun _ => none), .matchProvider verbPlane 0 true,
    .newUserClient 0 true true true]

def verbCall : Upcall ℕ :=
  .externalMethod 0 kMethodExecuteVerb ⟨[0, 0xF00, 0], 0, 1, 0⟩ fun _ _ _ => (kIOReturnSuccess, 0)

end Sample

/-! ### What a call leaves alone -/

section Frame

variable (cfg : PluginConfig)

theorem Plugin.matchProvider_frame (plane : ServicePlane ε) (codec : ε) (superStart : Bool)
    (s : Plugin ε) :
    s.matchProvider cfg plane codec superStart =
      { s with providers := (s.matchProvider cfg plane codec superStart).providers } := by
  unfold Plugin.matchProvider
  split <;> rfl

theorem Plugin.newUserClient_frame (provider : ℕ) (owningTask superInit superStart : Bool)
    (s : Plugin ε) :
    s.newUserClient provider owningTask superInit superStart =
      { s with clients := (s.newUserClient provider owningTask superInit superStart).clients } := by
  unfold Plugin.newUserClient
  split
  · next client _ =>
    simp only
    rcases client.start (if provider < s.providers.length then some provider else none) superStart
      with ⟨ok, client⟩
    cases ok <;> rfl
  · rfl

/-- A client that is kept was opened by a task, and has a provider that is there. -/
theorem Plugin.mem_newUserClient {provider : ℕ} {owningTask superInit superStart : Bool}
    {s : Plugin ε} {c : UserClient}
    (h : c ∈ (s.newUserClient provider owningTask superInit superStart).clients) :
    c ∈ s.clients ∨ owningTask = true ∧ superInit = true ∧ superStart = true ∧
      c.mProvider = some provider ∧ provider < s.providers.length := by
  unfold Plugin.newUserClient at h
  split at h
  · next client hinit =>
    have hopened : owningTask = true ∧ superInit = true := by
      unfold UserClient.initWithTask at hinit
      cases owningTask <;> cases superInit <;> simp at hinit ⊢
    simp only [UserClient.start] at h
    split at h
    · next hstart =>
      obtain ⟨hok, rfl⟩ := Prod.mk.inj hstart
      obtain ⟨hprovider, hsuper⟩ := Bool.and_eq_true_iff.mp hok
      rcases List.mem_append.mp h with h | h
      · exact Or.inl h
      · rw [List.mem_singleton.mp h]
        split at hprovider
        · next hlt => exact Or.inr ⟨hopened.1, hopened.2, hsuper, if_pos hlt, hlt⟩
        · exact absurd hprovider (by simp)
    · exact Or.inl h
  · exact Or.inl h

variable [DecidableEq ε]

/-- Only loading a kext changes the plugin or the trampolines. -/
theorem Upcall.step_frame {call : Upcall ε} (hload : ∀ load routed, call ≠ .processKext load routed)
    (s : Plugin ε) :
    (call.step cfg s).1.callbackAlc = s.callbackAlc ∧ (call.step cfg s).1.alc = s.alc ∧
      (call.step cfg s).1.org = s.org := by
  cases call with
  | processKext load routed => exact absurd rfl (hload load routed)
  | matchProvider plane codec superStart =>
      simp only [step]
      rw [Plugin.matchProvider_frame]
      exact ⟨rfl, rfl, rfl⟩
  | newUserClient provider owningTask superInit superStart =>
      simp only [step]
      rw [Plugin.newUserClient_frame]
      exact ⟨rfl, rfl, rfl⟩
  | appleHDAControllerStart service provider =>
      simp only [step]
      split <;> exact ⟨rfl, rfl, rfl⟩
  | _ => exact ⟨rfl, rfl, rfl⟩

/-- A match is the only call that adds a provider: the one that its probe let through, started. -/
theorem Upcall.step_providers (call : Upcall ε) (s : Plugin ε) :
    (call.step cfg s).1.providers = s.providers ∨
      ∃ plane codec superStart p, call = .matchProvider plane codec superStart ∧
        VerbProvider.probe cfg.lilu cfg.alcverbs plane s.registry codec = some p ∧
        (call.step cfg s).1.providers = s.providers ++ [p.start superStart] := by
  cases call with
  | matchProvider plane codec superStart =>
      cases hprobe : VerbProvider.probe cfg.lilu cfg.alcverbs plane s.registry codec with
      | none => exact Or.inl (by simp only [step, Plugin.matchProvider, hprobe])
      | some p =>
          exact Or.inr ⟨plane, codec, superStart, p, rfl, hprobe,
            by simp only [step, Plugin.matchProvider, hprobe]⟩
  | processKext load routed =>
      left
      simp only [step]
      split <;> rfl
  | appleHDAControllerStart service provider =>
      left
      simp only [step]
      split <;> rfl
  | newUserClient provider owningTask superInit superStart =>
      left
      simp only [step]
      rw [Plugin.newUserClient_frame]
  | _ => exact Or.inl rfl

/-- The index of a provider means the same provider from then on. -/
theorem Upcall.step_provider_stays (call : Upcall ε) {s : Plugin ε} {i : ℕ} {p : VerbProvider ε}
    (hp : s.providers[i]? = some p) : (call.step cfg s).1.providers[i]? = some p := by
  rcases Upcall.step_providers cfg call s with hsame | ⟨_, _, _, _, _, _, hadded⟩
  · rw [hsame, hp]
  · rw [hadded, List.getElem?_append_left (List.getElem?_eq_some_iff.mp hp).1, hp]

/-- A client stays with its provider; a new one is opened by a task, on a provider that is there. -/
theorem Upcall.mem_step_clients {call : Upcall ε} {s : Plugin ε} {c : UserClient}
    (h : c ∈ (call.step cfg s).1.clients) :
    (∃ c' ∈ s.clients, c'.mProvider = c.mProvider) ∨
      ∃ provider, call = .newUserClient provider true true true ∧
        c.mProvider = some provider ∧ provider < s.providers.length := by
  cases call with
  | newUserClient provider owningTask superInit superStart =>
      rcases Plugin.mem_newUserClient h with h | ⟨rfl, rfl, rfl, hclient⟩
      · exact Or.inl ⟨c, h, rfl⟩
      · exact Or.inr ⟨provider, rfl, hclient⟩
  | clientClose client =>
      simp only [step] at h
      obtain ⟨i, hi⟩ := List.mem_iff_getElem?.mp h
      rw [List.getElem?_modify] at hi
      obtain ⟨c', hc', rfl⟩ := Option.map_eq_some_iff.mp hi
      refine Or.inl ⟨c', List.mem_of_getElem? hc', ?_⟩
      split
      · rw [UserClient.clientClose]
        split <;> rfl
      · rfl
  | processKext load routed =>
      refine Or.inl ⟨c, ?_, rfl⟩
      simp only [step] at h
      split at h <;> exact h
  | appleHDAControllerStart service provider =>
      refine Or.inl ⟨c, ?_, rfl⟩
      simp only [step] at h
      split at h <;> exact h
  | matchProvider plane codec superStart =>
      refine Or.inl ⟨c, ?_, rfl⟩
      simp only [step] at h
      rw [Plugin.matchProvider_frame] at h
      exact h
  | _ => exact Or.inl ⟨c, h, rfl⟩

theorem Upcall.step_callbackAlc (call : Upcall ε) (s : Plugin ε) :
    (call.step cfg s).1.callbackAlc = s.callbackAlc := by
  cases call with
  | processKext load routed =>
      simp only [step]
      split <;> rfl
  | _ => exact (Upcall.step_frame cfg (fun _ _ => by simp) s).1

end Frame

section Jumps

variable {cfg : PluginConfig}

/-! ### Where a jump comes from -/

theorem entered_ne_zero {s : Plugin ε} {hook : Hook} {jumps : List (Jump ε)} {jump : Jump ε}
    (h : jump ∈ s.entered hook jumps) : s.org hook ≠ 0 ∧ jump ∈ jumps := by
  unfold Plugin.entered at h
  split at h
  · exact absurd h (by simp)
  · next hne => exact ⟨hne, h⟩

theorem Plugin.mem_externalMethod {s : Plugin ε} {client : ℕ} {selector : UInt32}
    {args : MethodArguments} {answer : ExecuteVerb} {jump : Jump ε}
    (h : jump ∈ s.externalMethod cfg client selector args answer) :
    ∃ c provider p, s.clients[client]? = some c ∧ c.mProvider = some provider ∧
      s.providers[provider]? = some p ∧
      jump ∈ (AppleALC.externalMethod cfg.check p s.callbackAlc s.org answer selector args).2.2 := by
  unfold Plugin.externalMethod at h
  split at h
  · next c hc =>
    split at h
    · next p hp =>
      obtain ⟨provider, hprovider, hget⟩ := Option.bind_eq_some_iff.mp hp
      exact ⟨c, provider, p, hc, hprovider, hget, h⟩
    · exact absurd h (by simp)
  · exact absurd h (by simp)

/-- The jump of a user client goes to the trampoline of the verb hook. -/
theorem externalMethod_address {p : VerbProvider ε} {sharedAlc : Bool} {org : Trampolines}
    {check : MethodCheck} {answer : ExecuteVerb} {selector : UInt32} {args : MethodArguments}
    {jump : Jump ε} (h : jump ∈ (externalMethod check p sharedAlc org answer selector args).2.2) :
    sharedAlc = true ∧ jump.address = org .ioHDACodecDeviceExecuteVerb := by
  unfold externalMethod at h
  split at h
  · exact absurd h (by simp)
  · split at h
    · exact absurd h (by simp)
    · simp only [VerbProvider.sendHdaCommand] at h
      split at h
      · exact absurd h (by simp)
      · split at h
        · exact absurd h (by simp)
        · next hshared =>
          rw [List.mem_singleton.mp h]
          exact ⟨by simpa using hshared, rfl⟩

end Jumps

end AppleALC
