import AppleALC.Plugin

/-!
# Whose verbs get through

A verb from user space passes the dispatch table, a user client, and a verb provider.  The provider
is only kept when HDEF above its codec allows verbs, and that is looked at once, when the codec is
matched.

* `AllowedIn` / `providers_allowed` — every provider was matched while HDEF allowed verbs;
* `OpenedIn` / `clients_opened` — every client was opened on such a provider;
* `client_verbs_allowed` — every jump of a client call is a verb for such a codec.
-/

namespace AppleALC

open OutputMachine

variable {ε : Type*}

section Admission

variable [DecidableEq ε] {cfg : PluginConfig}

/-- Somewhere in the session the codec was matched by a provider that started, and HDEF above the
codec, or the boot argument, allowed verbs at that moment. -/
def AllowedIn (cfg : PluginConfig) (s : Plugin ε) (pre : List (Upcall ε)) (codec : ε) : Prop :=
  ∃ before plane after, pre = before ++ .matchProvider plane codec true :: after ∧
    ∃ enable, enableHdaVerbs cfg.lilu cfg.alcverbs plane
      (run (Upcall.step cfg) before s).registry codec = some enable ∧ enable ≠ 0

theorem AllowedIn.snoc {s : Plugin ε} {pre : List (Upcall ε)} {codec : ε}
    (h : AllowedIn cfg s pre codec) (call : Upcall ε) : AllowedIn cfg s (pre ++ [call]) codec := by
  obtain ⟨before, plane, after, rfl, henable⟩ := h
  exact ⟨before, plane, after ++ [call], by simp, henable⟩

/-- Every provider that is ready was allowed. -/
theorem providers_allowed {s : Plugin ε} (hs : s.providers = []) (calls : List (Upcall ε)) :
    ∀ p ∈ (run (Upcall.step cfg) calls s).providers, p.readyForVerbs = true →
      AllowedIn cfg s calls p.hdaCodecDevice := by
  refine run_history (P := fun pre (s' : Plugin ε) => ∀ p ∈ s'.providers, p.readyForVerbs = true →
    AllowedIn cfg s pre p.hdaCodecDevice) (by simp [hs]) ?_ calls
  intro pre call h p hp hready
  rcases Upcall.step_providers cfg call (run (Upcall.step cfg) pre s) with
    hsame | ⟨plane, codec, superStart, q, rfl, hprobe, hadded⟩
  · rw [hsame] at hp
    exact (h p hp hready).snoc call
  · rw [hadded] at hp
    rcases List.mem_append.mp hp with hp | hp
    · exact (h p hp hready).snoc _
    · obtain ⟨rfl, henable⟩ := VerbProvider.probe_eq_some.mp hprobe
      rw [List.mem_singleton] at hp
      subst hp
      have hstart : superStart = true := by
        cases superStart with
        | true => rfl
        | false => exact absurd hready (by simp [VerbProvider.start])
      subst hstart
      exact ⟨pre, plane, [], rfl, henable⟩

/-- A process opened a client on a provider of the codec, which was matched and allowed before. -/
def OpenedIn (cfg : PluginConfig) (s : Plugin ε) (pre : List (Upcall ε)) (codec : ε) : Prop :=
  ∃ before provider after, pre = before ++ .newUserClient provider true true true :: after ∧
    (∃ p, (run (Upcall.step cfg) before s).providers[provider]? = some p ∧
      p.hdaCodecDevice = codec) ∧
    AllowedIn cfg s before codec

theorem OpenedIn.snoc {s : Plugin ε} {pre : List (Upcall ε)} {codec : ε}
    (h : OpenedIn cfg s pre codec) (call : Upcall ε) : OpenedIn cfg s (pre ++ [call]) codec := by
  obtain ⟨before, provider, after, rfl, hopened⟩ := h
  exact ⟨before, provider, after ++ [call], by simp, hopened⟩

/-- Every client whose provider is ready was opened on a provider that was allowed. -/
theorem clients_opened {s : Plugin ε} (hs : s.providers = []) (hclients : s.clients = [])
    (calls : List (Upcall ε)) :
    ∀ c ∈ (run (Upcall.step cfg) calls s).clients, ∃ provider p, c.mProvider = some provider ∧
      (run (Upcall.step cfg) calls s).providers[provider]? = some p ∧
      (p.readyForVerbs = true → OpenedIn cfg s calls p.hdaCodecDevice) := by
  refine run_history (P := fun pre (s' : Plugin ε) => ∀ c ∈ s'.clients, ∃ provider p,
    c.mProvider = some provider ∧ s'.providers[provider]? = some p ∧
      (p.readyForVerbs = true → OpenedIn cfg s pre p.hdaCodecDevice)) (by simp [hclients]) ?_ calls
  intro pre call ih c hc
  rcases Upcall.mem_step_clients cfg hc with ⟨c', hc', hsame⟩ | ⟨provider, rfl, hc, hlt⟩
  · obtain ⟨provider, p, hprovider, hp, hopened⟩ := ih c' hc'
    exact ⟨provider, p, hsame ▸ hprovider, Upcall.step_provider_stays cfg call hp,
      fun hready => (hopened hready).snoc call⟩
  · have hp := List.getElem?_eq_getElem hlt
    refine ⟨provider, _, hc, Upcall.step_provider_stays cfg _ hp, fun hready => ?_⟩
    exact ⟨pre, provider, [], rfl, ⟨_, hp, rfl⟩,
      providers_allowed hs pre _ (List.mem_of_getElem? hp) hready⟩

/-- **Only allowed codecs get verbs from user space.**  In every session, a jump that a user client
causes is a call of the verb hook with the three scalars of the client, cut to sixteen bits, for a
codec on whose provider a process opened a client, after the provider was matched while HDEF allowed
verbs. -/
theorem client_verbs_allowed (hcheck : cfg.check.ChecksCounts) (started : Bool) (alc : AlcEnabler)
    (registry : Registry ε) (pre : List (Upcall ε)) (client : ℕ) (selector : UInt32)
    (args : MethodArguments) (answer : ExecuteVerb) {jump : Jump ε}
    (hjump : jump ∈ ((Upcall.externalMethod client selector args answer).step cfg
      (run (Upcall.step cfg) pre (Plugin.boot started alc registry))).2) :
    ∃ codec nid verb params, jump.hook = .ioHDACodecDeviceExecuteVerb ∧
      jump.arguments = .verb codec nid.toUInt16 verb.toUInt16 params.toUInt16 ∧
      args.scalarInput = [nid, verb, params] ∧ selector = kMethodExecuteVerb ∧
      OpenedIn cfg (Plugin.boot started alc registry) pre codec := by
  obtain ⟨c, provider, p, hc, hprovider, hp, hmem⟩ := Plugin.mem_externalMethod hjump
  obtain ⟨hready, -, hselector, -, nid, verb, params, hscalars, rfl⟩ :=
    (mem_externalMethod hcheck).mp hmem
  obtain ⟨provider', p', hprovider', hp', hopened⟩ :=
    clients_opened rfl rfl pre c (List.mem_of_getElem? hc)
  rw [hprovider, Option.some.injEq] at hprovider'
  subst hprovider'
  rw [hp, Option.some.injEq] at hp'
  subst hp'
  exact ⟨p.hdaCodecDevice, nid, verb, params, rfl, rfl, hscalars, hselector, hopened hready⟩

theorem Sample.checkCounts_checksCounts : Sample.checkCounts.ChecksCounts := by
  intro counts args
  unfold Sample.checkCounts
  split <;> simp_all

/-- The verb of the sample session is for the codec below HDEF. -/
theorem client_verbs_allowed_sample :
    OpenedIn Sample.pluginConfig (Plugin.boot true (bootAlc Sample.pluginConfig.lilu
      (Sample.boot []) []) Sample.verbRegistry) Sample.session 0 := by
  have hmem : (⟨.ioHDACodecDeviceExecuteVerb, 0, .verb 0 0 0xF00 0⟩ : Jump ℕ) ∈
      (Sample.verbCall.step Sample.pluginConfig (run (Upcall.step Sample.pluginConfig)
        Sample.session (Plugin.boot true (bootAlc Sample.pluginConfig.lilu (Sample.boot []) [])
          Sample.verbRegistry))).2 := by
    decide +kernel
  obtain ⟨codec, nid, verb, params, -, harguments, -, -, hopened⟩ :=
    client_verbs_allowed Sample.checkCounts_checksCounts true _ Sample.verbRegistry Sample.session 0
      kMethodExecuteVerb ⟨[0, 0xF00, 0], 0, 1, 0⟩ (fun _ _ _ => (kIOReturnSuccess, 0)) hmem
  rw [Arguments.verb.injEq] at harguments
  exact harguments.1 ▸ hopened

end Admission

end AppleALC
