import AppleALC.AlcVerb
import AppleALC.KernAlc.Hooks

/-!
# The user client

`ALCUserClientProvider` matches a codec; it is only kept when HDEF above the codec, or a boot
argument, allows custom verbs.  A process opens an `ALCUserClient` on it, and reaches the verb hook
through the dispatch table.

`IOUserClient` is not the plugin's code.  Its `externalMethod` checks the argument counts of a call
against the dispatch entry before it calls the method.

* `VerbProvider` with `probe`, `start` and `sendHdaCommand` — which codecs get a provider, and what
  it does with a command;
* `UserClient` / `externalMethod` — a client and its calls;
* `MethodCheck.ChecksCounts` — what is assumed of `IOUserClient`;
* `mem_externalMethod` — the jumps of a client call.

When the kernel destroys a client or a provider is not modelled.
-/

namespace AppleALC

variable {ε : Type*}

/-! ### The provider -/

/-- What the kernel keeps of an `ALCUserClientProvider`. -/
structure VerbProvider (ε : Type*) where
  hdaCodecDevice : ε
  readyForVerbs : Bool := false
  deriving DecidableEq

/-- `alc-verbs` of HDEF above the codec, or the boot argument `alcverbs` in its place, as
`probe` reads them.  There is no HDEF when the codec or its controller has no parent. -/
def enableHdaVerbs (lilu : Lilu) (alcverbs : Option UInt32) (plane : ServicePlane ε)
    (registry : Registry ε) (codec : ε) : Option UInt32 :=
  match plane.ancestors codec with
  | _ :: hdefDevice :: _ => some (alcverbs.getD ((lilu.read (registry hdefDevice) "alc-verbs").getD 0))
  | _ => none

def VerbProvider.probe (lilu : Lilu) (alcverbs : Option UInt32) (plane : ServicePlane ε)
    (registry : Registry ε) (provider : ε) : Option (VerbProvider ε) :=
  match enableHdaVerbs lilu alcverbs plane registry provider with
  | none => none
  | some enable => if enable = 0 then none else some { hdaCodecDevice := provider }

/-- `ALCUserClientProvider::start`, with what the superclass answers. -/
def VerbProvider.start (superStart : Bool) (p : VerbProvider ε) : VerbProvider ε :=
  if !superStart then p else { p with readyForVerbs := true }

/-- `ALCUserClientProvider::sendHdaCommand`: the word it returns, and the jump it makes.  `answer` is
what the original of the codec says. -/
def VerbProvider.sendHdaCommand (p : VerbProvider ε) (sharedAlc : Bool) (org : Trampolines)
    (answer : ExecuteVerb) (nid verb param : UInt16) : UInt64 × List (Jump ε) :=
  if !p.readyForVerbs then (IOReturn.toUInt64 kIOReturnError, [])
  else if !sharedAlc then (IOReturn.toUInt64 kIOReturnError, [])
  else ((answer nid verb param).2.toUInt64,
    ioHDACodecDeviceExecuteVerb org p.hdaCodecDevice nid verb param)

/-! ### The user client -/

def kIOReturnUnsupported : IOReturn := 0xE00002C7

def kMethodExecuteVerb : UInt32 := 0

def kNumberOfMethods : UInt32 := 1

/-- The checks of an `IOExternalMethodDispatch`. -/
structure MethodCounts where
  scalarInputs : ℕ
  structInputSize : ℕ
  scalarOutputs : ℕ
  structOutputSize : ℕ
  deriving DecidableEq, Repr

def executeVerbCounts : MethodCounts where
  scalarInputs := 3
  structInputSize := 0
  scalarOutputs := 1
  structOutputSize := 0

/-- The arguments of an external method call, with what it expects back. -/
structure MethodArguments where
  scalarInput : List UInt64
  structInputSize : ℕ
  scalarOutputCount : ℕ
  structOutputSize : ℕ
  deriving DecidableEq, Repr

/-- The call has the counts of the dispatch entry. -/
def MethodArguments.Fits (args : MethodArguments) (counts : MethodCounts) : Prop :=
  args.scalarInput.length = counts.scalarInputs ∧ args.structInputSize = counts.structInputSize ∧
    args.scalarOutputCount = counts.scalarOutputs ∧ args.structOutputSize = counts.structOutputSize

instance (args : MethodArguments) (counts : MethodCounts) : Decidable (args.Fits counts) := by
  unfold MethodArguments.Fits; infer_instance

/-- What `IOUserClient::externalMethod` returns instead of calling the method, if it does not. -/
abbrev MethodCheck := MethodCounts → MethodArguments → Option IOReturn

/-- The method is called exactly for calls with the counts of its dispatch entry. -/
def MethodCheck.ChecksCounts (check : MethodCheck) : Prop :=
  ∀ counts args, check counts args = none ↔ args.Fits counts

/-- What an external method call returns: the status, the scalar output, and the jumps made. -/
abbrev MethodReply (ε : Type*) := IOReturn × List UInt64 × List (Jump ε)

/-- `ALCUserClient::externalMethod`, with `methodExecuteVerb` behind it. -/
def externalMethod (check : MethodCheck) (mProvider : VerbProvider ε) (sharedAlc : Bool)
    (org : Trampolines) (answer : ExecuteVerb) (selector : UInt32) (args : MethodArguments) :
    MethodReply ε :=
  if selector ≥ kNumberOfMethods then (kIOReturnUnsupported, [], [])
  else
    match check executeVerbCounts args with
    | some err => (err, [], [])
    | none =>
        let nid := (args.scalarInput.getD 0 0).toUInt16
        let verb := (args.scalarInput.getD 1 0).toUInt16
        let params := (args.scalarInput.getD 2 0).toUInt16
        let r := mProvider.sendHdaCommand sharedAlc org answer nid verb params
        (kIOReturnSuccess, [r.1], r.2)

/-- An `ALCUserClient`: the provider it is attached to, and whether it was terminated. -/
structure UserClient where
  mProvider : Option ℕ := none
  inactive : Bool := false
  deriving DecidableEq, Repr

/-- `ALCUserClient::initWithTask`, with what the superclass answers. -/
def UserClient.initWithTask (owningTask superInit : Bool) : Option UserClient :=
  if !owningTask then none
  else if !superInit then none
  else some {}

/-- `ALCUserClient::start`.  The cast fails on a service that is no `ALCUserClientProvider`. -/
def UserClient.start (provider : Option ℕ) (superStart : Bool) (client : UserClient) :
    Bool × UserClient :=
  (provider.isSome && superStart, { client with mProvider := provider })

def UserClient.clientClose (client : UserClient) : UserClient :=
  if !client.inactive then { client with inactive := true } else client

/-! ### What a call can do -/

theorem VerbProvider.probe_eq_some {lilu : Lilu} {alcverbs : Option UInt32}
    {plane : ServicePlane ε} {registry : Registry ε} {provider : ε} {p : VerbProvider ε} :
    VerbProvider.probe lilu alcverbs plane registry provider = some p ↔
      p = { hdaCodecDevice := provider } ∧
        ∃ enable, enableHdaVerbs lilu alcverbs plane registry provider = some enable ∧ enable ≠ 0 := by
  unfold VerbProvider.probe
  cases enableHdaVerbs lilu alcverbs plane registry provider with
  | none => simp
  | some enable =>
      by_cases h : enable = 0
      · simp [h]
      · simp [h, eq_comm]

/-- The word is the one of the simpler provider, which does not say where the jump goes. -/
theorem VerbProvider.sendHdaCommand_word (p : VerbProvider ε) (sharedAlc : Bool)
    (org : Trampolines) (answer : ExecuteVerb) (nid verb param : UInt16) :
    (p.sendHdaCommand sharedAlc org answer nid verb param).1 =
      (ALCUserClientProvider.mk p.readyForVerbs
        (if sharedAlc then some answer else none)).sendHdaCommand nid verb param := by
  unfold VerbProvider.sendHdaCommand ALCUserClientProvider.sendHdaCommand
  cases p.readyForVerbs <;> cases sharedAlc <;> rfl

/-- An external method call jumps at most once, to the verb hook, with the codec of the provider and
its three scalars cut to sixteen bits. -/
theorem mem_externalMethod {check : MethodCheck} (hcheck : check.ChecksCounts)
    {p : VerbProvider ε} {sharedAlc : Bool} {org : Trampolines} {answer : ExecuteVerb}
    {selector : UInt32} {args : MethodArguments} {jump : Jump ε} :
    jump ∈ (externalMethod check p sharedAlc org answer selector args).2.2 ↔
      p.readyForVerbs = true ∧ sharedAlc = true ∧ selector = kMethodExecuteVerb ∧
        args.Fits executeVerbCounts ∧ ∃ nid verb params, args.scalarInput = [nid, verb, params] ∧
          jump = ⟨.ioHDACodecDeviceExecuteVerb, org .ioHDACodecDeviceExecuteVerb,
            .verb p.hdaCodecDevice nid.toUInt16 verb.toUInt16 params.toUInt16⟩ := by
  unfold externalMethod
  by_cases hselector : selector ≥ kNumberOfMethods
  · have hne : selector ≠ kMethodExecuteVerb := by
      rintro rfl
      exact absurd hselector (by decide)
    rw [if_pos hselector]
    simp [hne]
  · have heq : selector = kMethodExecuteVerb := by
      apply UInt32.toNat_inj.mp
      have hlt : selector.toNat < 1 := by
        simpa [kNumberOfMethods, UInt32.le_iff_toNat_le] using hselector
      show selector.toNat = 0
      omega
    rw [if_neg hselector]
    cases herr : check executeVerbCounts args with
    | some err =>
        have hfits : ¬args.Fits executeVerbCounts := fun h => by
          rw [(hcheck _ _).mpr h] at herr
          exact absurd herr (by simp)
        simp [hfits]
    | none =>
        have hfits : args.Fits executeVerbCounts := (hcheck _ _).mp herr
        obtain ⟨nid, verb, params, hscalars⟩ := List.length_eq_three.mp hfits.1
        simp only [hscalars, List.getD_cons_zero, List.getD_cons_succ, VerbProvider.sendHdaCommand,
          ioHDACodecDeviceExecuteVerb]
        cases p.readyForVerbs <;> cases sharedAlc <;> simp [heq, hfits]

end AppleALC
