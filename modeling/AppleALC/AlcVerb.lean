import Mathlib.Algebra.Group.Nat.Defs
import Mathlib.Data.List.Basic

/-!
# Executing a verb from user space

`alc-verb` opens an `ALCUserClientProvider` service and sends it a verb; `ALCUserClient` hands the
verb to the provider, and the provider to the hooked `executeVerb` of the codec.  Each layer has its
own way of reporting an error: `executeVerb` returns a status beside its output word, the provider
returns `kIOReturnError` in the place of the word, the user client returns a status beside the word,
and the tool prints the word.

What the codec and IOKit answer is data of the model, so that a statement can range over every
outcome of the chain.

* `sendHdaCommand`, `methodExecuteVerb`, `executeCommand` — the chain from the codec to the tool,
  with the status and the word that each layer returns;
* `runVerb` — what the tool prints and its exit code, for every outcome of the chain;
* `ErrorsReachUser` — an outcome that is an error can be told from one that is none;
* `errors_look_like_results` — it cannot: some successful run prints the same line and exits with
  the same code.
-/

namespace AppleALC

/-- `IOReturn` and `kern_return_t`, as the 32 bits of the number. -/
abbrev IOReturn := UInt32

def kIOReturnSuccess : IOReturn := 0

def kIOReturnError : IOReturn := 0xE00002BC

/-- A negative `IOReturn` widened to 64 bits keeps its sign. -/
def IOReturn.toUInt64 (r : IOReturn) : UInt64 :=
  if r ≥ 0x80000000 then 0xFFFFFFFF00000000 ||| UInt32.toUInt64 r else UInt32.toUInt64 r

/-! ### The kernel side -/

/-- The `executeVerb` of the codec: the status, and the output word after the call, which is zero
before it. -/
abbrev ExecuteVerb := UInt16 → UInt16 → UInt16 → IOReturn × UInt32

/-- `ALCUserClientProvider`: whether it was started, and the hook of the shared `AlcEnabler`, when
there is one. -/
structure ALCUserClientProvider where
  readyForVerbs : Bool
  sharedAlc : Option ExecuteVerb

def ALCUserClientProvider.sendHdaCommand (p : ALCUserClientProvider) (nid verb param : UInt16) :
    UInt64 :=
  if !p.readyForVerbs then IOReturn.toUInt64 kIOReturnError
  else
    match p.sharedAlc with
    | none => IOReturn.toUInt64 kIOReturnError
    | some executeVerb => (executeVerb nid verb param).2.toUInt64

/-- `ALCUserClient::methodExecuteVerb`: the status, and the scalar output. -/
def methodExecuteVerb (target : ALCUserClientProvider) (nid verb params : UInt64) :
    IOReturn × UInt64 :=
  (kIOReturnSuccess, target.sendHdaCommand nid.toUInt16 verb.toUInt16 params.toUInt16)

/-! ### The tool -/

/-- A matching service: what opening it returns, what the call returns when it does not reach the
user client, and the provider behind it. -/
structure Service where
  openResult : IOReturn
  callResult : IOReturn
  provider : ALCUserClientProvider

/-- What `alc-verb` meets: the result of the service lookup, and the services in iterator order. -/
structure Machine where
  matchingResult : IOReturn
  services : List Service

/-- The `do` loop over the iterator: the service it stops at. -/
def nextService : (dev : Int) → List Service → Option Service
  | _, [] => none
  | dev, service :: services =>
      if dev - 1 ≥ 0 then nextService (dev - 1) services else some service

/-- `IOConnectCallScalarMethod` for `kMethodExecuteVerb`. -/
def callExecuteVerb (service : Service) (nid verb param : UInt16) : IOReturn × UInt64 :=
  if service.callResult ≠ kIOReturnSuccess then (service.callResult, 0)
  else methodExecuteVerb service.provider nid.toUInt64 verb.toUInt64 param.toUInt64

def hexDigit (n : ℕ) : Char := if n < 10 then Char.ofNat (48 + n) else Char.ofNat (87 + n)

def hex8 (v : UInt32) : String :=
  String.ofList ((List.range 8).map fun i => hexDigit (v.toNat / 16 ^ (7 - i) % 16))

def hex (v : UInt16) : String := String.ofList (Nat.toDigits 16 v.toNat)

/-- `execute_command`: the lines it prints, and the word it returns. -/
def executeCommand (machine : Machine) (dev : Int) (nid verb param : UInt16) :
    List String × UInt32 :=
  if machine.matchingResult ≠ kIOReturnSuccess then
    (["Failed to iterate over ALC services: " ++ hex8 machine.matchingResult ++ "."],
      kIOReturnError)
  else
    match nextService dev machine.services with
    | none => (["Could not locate ALCUserClientProvider. Abort."], kIOReturnError)
    | some service =>
        if service.openResult ≠ kIOReturnSuccess then
          (["Failed to open ALCUserClientProvider service: " ++ hex8 service.openResult ++ "."],
            kIOReturnError)
        else
          let r := callExecuteVerb service nid verb param
          if r.1 ≠ kIOReturnSuccess then ([], 0xFFFFFFFF) else ([], r.2.toUInt32)

/-- What a run of `alc-verb` leaves: the lines before the result line, the result line, and the exit
code. -/
structure ToolRun where
  lines : List String
  result : String
  exitCode : ℕ
  deriving DecidableEq, Repr

/-- `main` once its arguments are read. -/
def runVerb (machine : Machine) (quiet : Bool) (dev : Int) (nid verb params : UInt16) : ToolRun :=
  let echo := if quiet then []
    else ["nid = 0x" ++ hex nid ++ ", verb = 0x" ++ hex verb ++ ", param = 0x" ++ hex params]
  let r := executeCommand machine dev nid verb params
  { lines := echo ++ r.1, result := "0x" ++ hex8 r.2, exitCode := 0 }

/-! ### Errors and results -/

/-- The codec's `executeVerb` was reached and returned success. -/
def Succeeds (machine : Machine) (dev : Int) (nid verb param : UInt16) : Prop :=
  machine.matchingResult = kIOReturnSuccess ∧
    ∃ service executeVerb, nextService dev machine.services = some service ∧
      service.openResult = kIOReturnSuccess ∧ service.callResult = kIOReturnSuccess ∧
      service.provider.readyForVerbs = true ∧ service.provider.sharedAlc = some executeVerb ∧
      (executeVerb nid verb param).1 = kIOReturnSuccess

/-- Errors of this command reach the user: a failing and a successful run of it differ in the result
line or in the exit code, and a status of `executeVerb` other than success is not turned into
success by the user client. -/
def ErrorsReachUser (quiet : Bool) (dev : Int) (nid verb param : UInt16) : Prop :=
  (∀ failing successful, ¬Succeeds failing dev nid verb param →
    Succeeds successful dev nid verb param →
    ¬((runVerb failing quiet dev nid verb param).result =
        (runVerb successful quiet dev nid verb param).result ∧
      (runVerb failing quiet dev nid verb param).exitCode =
        (runVerb successful quiet dev nid verb param).exitCode)) ∧
  ∀ executeVerb : ExecuteVerb, (executeVerb nid verb param).1 ≠ kIOReturnSuccess →
    (methodExecuteVerb ⟨true, some executeVerb⟩ nid.toUInt64 verb.toUInt64 param.toUInt64).1 ≠
      kIOReturnSuccess

/-- A machine whose codec answers every verb with success and this word. -/
def answering (dev : Int) (word : UInt32) : Machine where
  matchingResult := kIOReturnSuccess
  services := List.replicate (dev.toNat + 1)
    { openResult := kIOReturnSuccess
      callResult := kIOReturnSuccess
      provider := ⟨true, some fun _ _ _ => (kIOReturnSuccess, word)⟩ }

/-- The loop stops within `dev + 1` services. -/
theorem nextService_replicate (service : Service) (n : ℕ) :
    ∀ dev : Int, dev.toNat ≤ n →
      nextService dev (List.replicate (n + 1) service) = some service := by
  induction n with
  | zero =>
      intro dev hdev
      rw [List.replicate_succ, nextService, if_neg (by omega)]
  | succ n ih =>
      intro dev hdev
      rw [List.replicate_succ, nextService]
      split
      · exact ih (dev - 1) (by omega)
      · rfl

theorem nextService_answering (dev : Int) (word : UInt32) :
    nextService dev (answering dev word).services =
      some { openResult := kIOReturnSuccess
             callResult := kIOReturnSuccess
             provider := ⟨true, some fun _ _ _ => (kIOReturnSuccess, word)⟩ } :=
  nextService_replicate _ _ dev (Nat.le_refl _)

theorem answering_succeeds (dev : Int) (word : UInt32) (nid verb param : UInt16) :
    Succeeds (answering dev word) dev nid verb param :=
  ⟨rfl, _, _, nextService_answering dev word, rfl, rfl, rfl, rfl, rfl⟩

/-- Every word is the answer of a successful command. -/
theorem execute_answering (dev : Int) (word : UInt32) (nid verb param : UInt16) :
    executeCommand (answering dev word) dev nid verb param = ([], word) := by
  have hmatching : (answering dev word).matchingResult = kIOReturnSuccess := rfl
  unfold executeCommand
  rw [if_neg (not_not.mpr hmatching), nextService_answering]
  simp [callExecuteVerb, methodExecuteVerb, ALCUserClientProvider.sendHdaCommand]

/-- **Errors look like results.**  For every command and every outcome of it there is a successful
outcome with the same result line and the same exit code, and the user client returns success
whatever `executeVerb` returned.  So errors of no command reach the user. -/
theorem errors_look_like_results (quiet : Bool) (dev : Int) (nid verb param : UInt16) :
    ¬ErrorsReachUser quiet dev nid verb param ∧
      (∀ machine, ∃ successful, Succeeds successful dev nid verb param ∧
        (runVerb machine quiet dev nid verb param).result =
          (runVerb successful quiet dev nid verb param).result ∧
        (runVerb machine quiet dev nid verb param).exitCode =
          (runVerb successful quiet dev nid verb param).exitCode) ∧
      ∀ target, (methodExecuteVerb target nid.toUInt64 verb.toUInt64 param.toUInt64).1 =
        kIOReturnSuccess := by
  have hmethod : ∀ target, (methodExecuteVerb target nid.toUInt64 verb.toUInt64
      param.toUInt64).1 = kIOReturnSuccess := fun _ => rfl
  refine ⟨?_, ?_, hmethod⟩
  · rintro ⟨-, hstatus⟩
    exact hstatus (fun _ _ _ => (kIOReturnError, 0)) (by decide) (hmethod _)
  · intro machine
    refine ⟨answering dev (executeCommand machine dev nid verb param).2,
      answering_succeeds dev _ nid verb param, ?_, rfl⟩
    simp only [runVerb, execute_answering]

/-- `GET_PARAMETER` on the root node: a codec that fails to answer and one that answers zero print
the same. -/
theorem not_errorsReachUser_sample :
    ¬∀ quiet dev nid verb param, ErrorsReachUser quiet dev nid verb param := by
  intro h
  refine (h false 0 0 0xF00 0).1 { matchingResult := kIOReturnSuccess, services := [
    { openResult := kIOReturnSuccess, callResult := kIOReturnSuccess
      provider := ⟨true, some fun _ _ _ => (kIOReturnError, 0)⟩ }] } (answering 0 0) ?_
    (answering_succeeds 0 0 0 0xF00 0) ⟨by decide, rfl⟩
  rintro ⟨-, service, executeVerb, hservice, -, -, -, hshared, hsuccess⟩
  rw [nextService, if_neg (by decide), Option.some.injEq] at hservice
  subst hservice
  simp only [Option.some.injEq] at hshared
  subst hshared
  exact absurd hsuccess (by decide)

end AppleALC
