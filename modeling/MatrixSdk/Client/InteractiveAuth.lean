/-
User-interactive authentication: `interactive-auth.js`.

`attemptAuth` makes a promise, and requests are made until one succeeds: the first by itself, the
others by `submitAuthDict`, which lets one wait for the other with `_submitPromise`, and by `poll`, in
the background. What a request that fails says decides about the next stage.

The steps are the stretches of code between two awaits. [`Orderly`] is what the waiting is for: one
request at a time, none after one has succeeded, and the result goes to the promise.
[`orderly_along_iff`] says where it does not come out: the first request is not waited for, those that
wait go on after a success, and the errors of a background request are not always ignored.
-/
import MatrixSdk.Lib.System
import Mathlib.Data.Nat.Notation
import Mathlib.Logic.Function.Basic

set_option autoImplicit false

namespace MatrixSdk.UiAuth

open MatrixSdk.Lib

/-! ## Flows and stages -/

def EMAIL_STAGE_TYPE : String := "m.login.email.identity"

def MSISDN_STAGE_TYPE : String := "m.login.msisdn"

def DUMMY_STAGE_TYPE : String := "m.login.dummy"

/-- A flow; `none` when its stages are no list. -/
abbrev Flow := Option (List String)

/-- What the server says with an error, `_data`. -/
structure AuthData where
  session : Option String
  flows : Option (List Flow)
  completed : Option (List String)

/-- Which inputs the user has provided. -/
structure Inputs where
  emailAddress : Bool
  phoneCountry : Bool
  phoneNumber : Bool

/-- A string that passes `if (s)`. -/
def isTruthy (s : Option String) : Bool := s.any (· ≠ "")

/-- The loop of `_chooseFlow`. -/
def chooseFlow (haveEmail haveMsisdn : Bool) : List Flow → Except String (List String)
  | [] => .error "NoAuthFlowFoundError"
  | none :: _ => .error "TypeError"
  | some stages :: flows =>
    if stages.contains EMAIL_STAGE_TYPE = haveEmail ∧
        stages.contains MSISDN_STAGE_TYPE = haveMsisdn then
      .ok stages
    else chooseFlow haveEmail haveMsisdn flows

/-- `_firstUncompletedStage` -/
def firstUncompletedStage (data : AuthData) (stages : List String) : Option String :=
  stages.find? fun stageType => !((data.completed.getD []).contains stageType)

/-- "if the error didn't come with flows, completed flows or session ID, copy over the ones we
have" -/
def AuthData.complete (data errorData : AuthData) : AuthData :=
  if errorData.flows.isNone ∧ errorData.completed.isNone ∧ ¬ isTruthy errorData.session then data
  else errorData

/-! ## Requests and calls -/

inductive Phase
  | inFlight
  /-- It has failed, and an email token is requested. -/
  | requestingToken
  | settled
  deriving DecidableEq

/-- A call of `_doRequest`. -/
structure Request where
  background : Bool
  phase : Phase
  deriving DecidableEq

/-- A call of `submitAuthDict` that has not returned: it waits for another's request, or for its
own. -/
inductive Call
  | waiting (request : ℕ) (background : Bool)
  | running (request : ℕ)
  deriving DecidableEq

/-- The promise of `attemptAuth`. -/
inductive Outcome (ρ : Type*)
  | pending
  | resolved (result : ρ)
  | rejected

/-- What is settled stays as it is. -/
def Outcome.resolve {ρ : Type*} (result : ρ) : Outcome ρ → Outcome ρ
  | .pending => .resolved result
  | outcome => outcome

def Outcome.reject {ρ : Type*} : Outcome ρ → Outcome ρ
  | .pending => .rejected
  | outcome => outcome

def Outcome.isPending {ρ : Type*} : Outcome ρ → Bool
  | .pending => true
  | _ => false

def Outcome.isRejected {ρ : Type*} : Outcome ρ → Bool
  | .rejected => true
  | _ => false

/-- `InteractiveAuth`, with the requests and the calls there are. The last three fields observe: the
result of the first request that succeeded, whether one was started later, and whether one in the
background threw or rejected the promise when it failed. -/
structure InteractiveAuth (ρ : Type*) where
  inputs : Inputs
  data : AuthData
  attempted : Bool
  promise : Outcome ρ
  /-- Whether `_resolveFunc` and `_rejectFunc` are there. -/
  resolveFunc : Bool
  emailSid : Option String
  requestingEmailToken : Bool
  chosenFlow : Option (List String)
  currentStage : Option String
  submitPromise : Option ℕ
  requests : ℕ → Option Request
  nextRequest : ℕ
  calls : ℕ → Option Call
  nextCall : ℕ
  /-- The polls that ask for the identity server. -/
  polls : ℕ
  succeeded : Option ρ
  startedAfterSuccess : Bool
  backgroundHarmed : Bool

variable {ρ : Type*}

namespace InteractiveAuth

/-- `new InteractiveAuth(opts)` -/
def new (inputs : Inputs) (data : AuthData) (emailSid : Option String) : InteractiveAuth ρ where
  inputs := inputs
  data := data
  attempted := false
  promise := .pending
  resolveFunc := false
  emailSid := emailSid
  requestingEmailToken := false
  chosenFlow := none
  currentStage := none
  submitPromise := none
  requests := fun _ => none
  nextRequest := 0
  calls := fun _ => none
  nextCall := 0
  polls := 0
  succeeded := none
  startedAfterSuccess := false
  backgroundHarmed := false

variable (s : InteractiveAuth ρ)

/-- The request is made and not answered yet. -/
def InFlight (request : ℕ) : Prop := ∃ background, s.requests request = some ⟨background, .inFlight⟩

/-- `_doRequest` up to its `await`. -/
def doRequest (background : Bool) : InteractiveAuth ρ :=
  { s with
    requests := Function.update s.requests s.nextRequest (some ⟨background, .inFlight⟩)
    nextRequest := s.nextRequest + 1
    startedAfterSuccess := s.startedAfterSuccess || s.succeeded.isSome }

/-- A call of `submitAuthDict` makes its request. -/
def submit (call : ℕ) (background : Bool) : InteractiveAuth ρ :=
  { s.doRequest background with
    submitPromise := some s.nextRequest
    calls := Function.update s.calls call (some (.running s.nextRequest)) }

/-- `submitAuthDict` up to its first `await`; it may throw, which changes nothing. -/
def submitAuthDict (background : Bool) : InteractiveAuth ρ :=
  if s.resolveFunc = false then s
  else
    let s' := { s with nextCall := s.nextCall + 1 }
    match s.submitPromise with
    | some request =>
      { s' with calls := Function.update s.calls s.nextCall (some (.waiting request background)) }
    | none => s'.submit s.nextCall background

/-- The flow that is chosen, or that `_chooseFlow` chooses. -/
def activeFlow : Except String (List String) :=
  match s.chosenFlow with
  | some stages => .ok stages
  | none =>
    chooseFlow (s.inputs.emailAddress || isTruthy s.emailSid)
      (s.inputs.phoneCountry && s.inputs.phoneNumber) (s.data.flows.getD [])

/-- `_chooseStage`: the flow that is chosen then, and the stage. -/
def chooseStage : Option (List String) × Except String (Option String) :=
  match s.activeFlow with
  | .error e => (none, .error e)
  | .ok stages => (some stages, .ok (firstUncompletedStage s.data stages))

/-- `_startNextAuthStage`, and whether it throws; the callback may. -/
def startNextAuthStage (callbackThrows : Bool) : InteractiveAuth ρ × Bool :=
  let s' := { s with chosenFlow := s.chooseStage.1 }
  match s.chooseStage.2 with
  | .error _ => (s', true)
  | .ok nextStage =>
    if ¬ isTruthy nextStage then (s', true)
    else
      let s' := { s' with currentStage := nextStage }
      if nextStage = some DUMMY_STAGE_TYPE then (s'.submitAuthDict false, false)
      else (s', callbackThrows)

def rejectPromise : InteractiveAuth ρ := { s with promise := s.promise.reject }

/-- `attemptAuth` -/
def attemptAuth (callbackThrows : Bool) : InteractiveAuth ρ :=
  let s := { s with
    attempted := true
    resolveFunc := true }
  if s.data.flows.isNone then s.doRequest false
  else
    let (s', throws) := s.startNextAuthStage callbackThrows
    -- an error in the executor rejects the promise
    if throws then s'.rejectPromise else s'

/-- How the `catch` of `_doRequest` ends, or how it goes on. -/
inductive Ending
  | returns
  | throws
  | requestsToken
  deriving DecidableEq

/-- The end of the `catch`: "If we've picked a flow with email auth, we send the email now". -/
def sendEmail : InteractiveAuth ρ × Ending :=
  if isTruthy s.emailSid ∨ s.requestingEmailToken then (s, .returns)
  else
    match s.chosenFlow with
    | none => (s, .throws)
    | some stages =>
      if stages.contains EMAIL_STAGE_TYPE then
        ({ s with requestingEmailToken := true }, .requestsToken)
      else (s, .returns)

/-- `_rejectFunc(e)`, and then both functions are `null`. -/
def giveUp : InteractiveAuth ρ := { s.rejectPromise with resolveFunc := false }

/-- From the new data to the next stage. -/
def proceed (callbackThrows : Bool) : InteractiveAuth ρ × Ending :=
  let (s, throws) := s.startNextAuthStage callbackThrows
  if ¬ throws then s.sendEmail
  -- `_rejectFunc` is called when it is `null`, too
  else if s.resolveFunc = false then (s, .throws)
  else s.giveUp.sendEmail

/-- "doesn't look like an interactive-auth failure" -/
def isUnlikeAuth (unauthorized : Bool) (errorData : Option AuthData) : Bool :=
  let haveFlows := s.data.flows.isSome || errorData.any fun data => data.flows.isSome
  !unauthorized || errorData.isNone || !haveFlows

/-- The `catch` of `_doRequest` up to its `await`; `errorData` is `none` when the data of the error
is no object. -/
def catchError (background unauthorized : Bool) (errorData : Option AuthData)
    (callbackThrows : Bool) : InteractiveAuth ρ × Ending :=
  let rejects := s.isUnlikeAuth unauthorized errorData && !background
  -- `_rejectFunc` may be `null`
  if rejects && !s.resolveFunc then (s, .throws)
  else
    let s := if rejects then s.rejectPromise else s
    match errorData with
    | none => (s, .throws)
    | some errorData =>
      { s with data := s.data.complete errorData }.proceed callbackThrows

/-- The request goes on to another phase. -/
def setPhase (request : ℕ) (background : Bool) (phase : Phase) : InteractiveAuth ρ :=
  { s with requests := Function.update s.requests request (some ⟨background, phase⟩) }

/-- What is seen of a failure in the background: it has thrown, or the promise has been rejected. -/
def observe (before : Outcome ρ) (background : Bool) (ending : Ending) : InteractiveAuth ρ :=
  { s with
    backgroundHarmed := s.backgroundHarmed ||
      background && (ending = .throws || before.isPending && s.promise.isRejected) }

/-! ## Steps -/

/-- `doRequest` has succeeded. Without `_resolveFunc` the call throws, which changes nothing. -/
def succeed (request : ℕ) (background : Bool) (result : ρ) : InteractiveAuth ρ :=
  let s := s.setPhase request background .settled
  let s := { s with succeeded := s.succeeded.or (some result) }
  if s.resolveFunc = false then s
  else
    { s with
      resolveFunc := false
      promise := s.promise.resolve result }

/-- `doRequest` has failed. -/
def fail (request : ℕ) (background unauthorized : Bool) (errorData : Option AuthData)
    (callbackThrows : Bool) : InteractiveAuth ρ :=
  let (s', ending) := (s.setPhase request background .settled).catchError background unauthorized
    errorData callbackThrows
  let s' := if ending = .requestsToken then s'.setPhase request background .requestingToken else s'
  s'.observe s.promise background ending

/-- The email token has been requested; `none` when that has failed. -/
def tokenRequested (request : ℕ) (background : Bool) (sid : Option String) : InteractiveAuth ρ :=
  let s' := { s.setPhase request background .settled with requestingEmailToken := false }
  match sid with
  | some sid => { s' with emailSid := some sid }
  | none =>
    if s'.resolveFunc = false then s'.observe s.promise background .throws
    else s'.giveUp.observe s.promise background .returns

/-- `poll` up to its first `await`. -/
def poll : InteractiveAuth ρ :=
  if ¬ isTruthy s.data.session then s
  else if s.resolveFunc = false then s
  else if s.submitPromise.isSome then s
  else if s.currentStage = some EMAIL_STAGE_TYPE ∧ isTruthy s.emailSid then
    { s with polls := s.polls + 1 }
  else s.submitAuthDict true

/-- A call goes on after what it waited for. The call whose request it is was the first to wait, so
it goes on first. -/
def resume (call : ℕ) : Option (InteractiveAuth ρ) :=
  match s.calls call with
  | none => none
  | some (.running request) =>
    if (s.requests request).any (·.phase = .settled) then
      some { s with
        submitPromise := none
        calls := Function.update s.calls call none }
    else none
  | some (.waiting request background) =>
    if (s.requests request).any (·.phase = .settled) ∧ s.submitPromise ≠ some request then
      match s.submitPromise with
      | some request' =>
        some { s with
          calls := Function.update s.calls call (some (.waiting request' background)) }
      | none => some (s.submit call background)
    else none

end InteractiveAuth

inductive Event (ρ : Type*)
  | attemptAuth (callbackThrows : Bool)
  | submitAuthDict (background : Bool)
  | poll
  /-- The server says whether it requires the identity server; `false` when that fails. -/
  | pollGoesOn (answered : Bool)
  | setEmailSid (sid : Option String)
  | succeeds (request : ℕ) (result : ρ)
  | fails (request : ℕ) (unauthorized : Bool) (errorData : Option AuthData) (callbackThrows : Bool)
  | tokenRequested (request : ℕ) (sid : Option String)
  | resumes (call : ℕ)

open InteractiveAuth in
/-- One stretch of code. `attemptAuth` is called once. -/
def step (s : InteractiveAuth ρ) : Event ρ → Option (InteractiveAuth ρ)
  | .attemptAuth callbackThrows =>
    if s.attempted then none else some (s.attemptAuth callbackThrows)
  | .submitAuthDict background => some (s.submitAuthDict background)
  | .poll => some s.poll
  | .pollGoesOn answered =>
    if s.polls = 0 then none
    else
      let s := { s with polls := s.polls - 1 }
      some (if answered then s.submitAuthDict true else s)
  | .setEmailSid sid => some { s with emailSid := sid }
  | .succeeds request result =>
    match s.requests request with
    | some ⟨background, .inFlight⟩ => some (s.succeed request background result)
    | _ => none
  | .fails request unauthorized errorData callbackThrows =>
    match s.requests request with
    | some ⟨background, .inFlight⟩ =>
      some (s.fail request background unauthorized errorData callbackThrows)
    | _ => none
  | .tokenRequested request sid =>
    match s.requests request with
    | some ⟨background, .requestingToken⟩ => some (s.tokenRequested request background sid)
    | _ => none
  | .resumes call => s.resume call

/-- All runs of an authentication. -/
def system (ρ : Type*) (inputs : Inputs) (data : AuthData) (emailSid : Option String) :
    System (InteractiveAuth ρ) (Event ρ) where
  init := .new inputs data emailSid
  step := step

/-! ## What is to hold -/

/-- **The requests are made in order**: one at a time, none after one has succeeded, whose result the
promise is resolved with, and none in the background throws or rejects the promise when it fails. -/
structure Orderly (s : InteractiveAuth ρ) : Prop where
  single : ∀ i j, s.InFlight i → s.InFlight j → i = j
  noneAfter : s.startedAfterSuccess = false
  resolved : ∀ result, s.succeeded = some result → s.promise = .resolved result
  background : s.backgroundHarmed = false

namespace InteractiveAuth

variable (s : InteractiveAuth ρ)

/-- A request that is made now is the only one. -/
def StartsAlone : Prop := s.resolveFunc = true → s.submitPromise = none → ∀ i, ¬ s.InFlight i

/-- There is a next stage, which is submitted or which the callback takes. -/
def PicksStage (callbackThrows : Bool) : Prop :=
  ∃ stage, s.chooseStage.2 = .ok (some stage) ∧ stage ≠ "" ∧
    (stage = DUMMY_STAGE_TYPE ∨ callbackThrows = false)

/-- The failure of a request in the background goes unnoticed: the data of the error is an object, and
it leads to a next stage, unless the promise has been rejected before. -/
def Ignores (errorData : Option AuthData) (callbackThrows : Bool) : Prop :=
  ∃ data, errorData = some data ∧
    let s' := { s with data := s.data.complete data }
    s'.PicksStage callbackThrows ∨ s.promise.isPending = false ∧ s.resolveFunc = true ∧
      (isTruthy s.emailSid ∨ s.requestingEmailToken ∨ s'.chooseStage.1.isSome)

end InteractiveAuth

/-- **The step keeps the order**: no request is made while the first one is in flight, the promise is
pending when one succeeds, no call goes on to make one afterwards, and the failures in the background
are such that they are ignored. -/
def KeepsOrder (s : InteractiveAuth ρ) : Event ρ → Prop
  | .submitAuthDict _ => s.StartsAlone
  | .poll => isTruthy s.data.session → ¬ (s.currentStage = some EMAIL_STAGE_TYPE ∧
      isTruthy s.emailSid) → s.StartsAlone
  | .pollGoesOn answered => answered = true → s.StartsAlone
  | .succeeds _ _ => s.promise.isPending = true
  | .fails request _ errorData callbackThrows =>
    s.requests request = some ⟨true, .inFlight⟩ → s.Ignores errorData callbackThrows
  | .tokenRequested request sid =>
    s.requests request = some ⟨true, .requestingToken⟩ →
      sid.isSome ∨ s.promise.isPending = false ∧ s.resolveFunc = true
  | .resumes _ => s.submitPromise = none → s.succeeded = none
  | .attemptAuth _ | .setEmailSid _ => True

/-! ## The invariant -/

/-- How the requests and the calls belong together. -/
structure Inv (s : InteractiveAuth ρ) : Prop where
  unattempted : s.attempted = false →
    s.resolveFunc = false ∧ (∀ k, s.calls k = none) ∧ (∀ i, s.requests i = none) ∧
      s.succeeded = none
  pending : s.attempted = true → s.promise.isPending = true → s.resolveFunc = true
  running : ∀ p, s.submitPromise = some p → ∃ k, s.calls k = some (.running p)
  own : ∀ k p, s.calls k = some (.running p) → s.submitPromise = some p
  one : ∀ k k' p, s.calls k = some (.running p) → s.calls k' = some (.running p) → k = k'
  flights : ∀ i, s.InFlight i → s.submitPromise = some i ∨ ∀ k, s.calls k = none
  freshRequest : ∀ i, s.nextRequest ≤ i → s.requests i = none
  freshCall : ∀ k, s.nextCall ≤ k → s.calls k = none
  succeeded : s.succeeded ≠ none → s.resolveFunc = false ∧ ∀ i, ¬ s.InFlight i
  unresolved : s.succeeded = none → ∀ result, s.promise ≠ .resolved result

variable {s s' : InteractiveAuth ρ}

theorem Inv.new (inputs : Inputs) (data : AuthData) (emailSid : Option String) :
    Inv (.new inputs data emailSid : InteractiveAuth ρ) where
  unattempted := fun _ => ⟨rfl, fun _ => rfl, fun _ => rfl, rfl⟩
  pending := fun h => nomatch h
  running := fun _ h => nomatch h
  own := fun _ _ h => nomatch h
  one := fun _ _ _ h => nomatch h
  flights := fun _ ⟨_, h⟩ => nomatch h
  freshRequest := fun _ _ => rfl
  freshCall := fun _ _ => rfl
  succeeded := fun h => absurd rfl h
  unresolved := fun _ _ h => nomatch h

/-- The requests and the calls are the same. The promise may have been rejected, and what settles it
is there, or it is not and the promise is settled. -/
structure Quiet (s s' : InteractiveAuth ρ) : Prop where
  attempted : s'.attempted = s.attempted
  submitPromise : s'.submitPromise = s.submitPromise
  requests : s'.requests = s.requests
  nextRequest : s'.nextRequest = s.nextRequest
  calls : s'.calls = s.calls
  nextCall : s'.nextCall = s.nextCall
  succeeded : s'.succeeded = s.succeeded
  started : s'.startedAfterSuccess = s.startedAfterSuccess
  harmed : s'.backgroundHarmed = s.backgroundHarmed
  promise : s'.promise = s.promise ∨ s.promise.isPending = true ∧ s'.promise = .rejected
  resolveFunc : s'.resolveFunc = s.resolveFunc ∨
    s'.resolveFunc = false ∧ s'.promise.isPending = false

theorem Quiet.inFlight (h : Quiet s s') (i : ℕ) : s'.InFlight i ↔ s.InFlight i := by
  rw [InteractiveAuth.InFlight, InteractiveAuth.InFlight, h.requests]

theorem Quiet.trans {s'' : InteractiveAuth ρ} (h : Quiet s s') (h' : Quiet s' s'') :
    Quiet s s'' where
  attempted := h'.attempted.trans h.attempted
  submitPromise := h'.submitPromise.trans h.submitPromise
  requests := h'.requests.trans h.requests
  nextRequest := h'.nextRequest.trans h.nextRequest
  calls := h'.calls.trans h.calls
  nextCall := h'.nextCall.trans h.nextCall
  succeeded := h'.succeeded.trans h.succeeded
  started := h'.started.trans h.started
  harmed := h'.harmed.trans h.harmed
  promise := by
    rcases h'.promise with heq | ⟨hpending, hsettled⟩
    · rw [heq]
      exact h.promise
    · rcases h.promise with heq | ⟨hpending', -⟩
      · exact .inr ⟨heq ▸ hpending, hsettled⟩
      · exact .inr ⟨hpending', hsettled⟩
  resolveFunc := by
    rcases h'.resolveFunc with heq | hgone
    · rw [heq]
      rcases h.resolveFunc with heq' | ⟨hgone, hsettled⟩
      · exact .inl heq'
      · refine .inr ⟨hgone, ?_⟩
        rcases h'.promise with heq'' | ⟨-, hrejected⟩
        · rw [heq'']
          exact hsettled
        · rw [hrejected]
          rfl
    · exact .inr hgone

theorem Inv.quiet (h : Inv s) (hquiet : Quiet s s') : Inv s' where
  unattempted := by
    intro hattempted
    rw [hquiet.attempted] at hattempted
    obtain ⟨hresolve, hcalls, hrequests, hsucceeded⟩ := h.unattempted hattempted
    refine ⟨?_, ?_, ?_, ?_⟩
    · rcases hquiet.resolveFunc with heq | hgone
      · rw [heq]
        exact hresolve
      · exact hgone.1
    · rw [hquiet.calls]
      exact hcalls
    · rw [hquiet.requests]
      exact hrequests
    · rw [hquiet.succeeded]
      exact hsucceeded
  pending := by
    intro hattempted hpending
    rw [hquiet.attempted] at hattempted
    rcases hquiet.resolveFunc with heq | ⟨-, hsettled⟩
    · rw [heq]
      refine h.pending hattempted ?_
      rcases hquiet.promise with heq | ⟨hpending', -⟩
      · rw [← heq]
        exact hpending
      · exact hpending'
    · rw [hsettled] at hpending
      exact nomatch hpending
  running := by
    rw [hquiet.submitPromise, hquiet.calls]
    exact h.running
  own := by
    rw [hquiet.submitPromise, hquiet.calls]
    exact h.own
  one := by
    rw [hquiet.calls]
    exact h.one
  flights := by
    intro i hi
    rw [hquiet.inFlight] at hi
    rw [hquiet.submitPromise, hquiet.calls]
    exact h.flights i hi
  freshRequest := by
    rw [hquiet.nextRequest, hquiet.requests]
    exact h.freshRequest
  freshCall := by
    rw [hquiet.nextCall, hquiet.calls]
    exact h.freshCall
  succeeded := by
    rw [hquiet.succeeded]
    intro hsucceeded
    obtain ⟨hresolve, hflights⟩ := h.succeeded hsucceeded
    refine ⟨?_, fun i hi => hflights i ((hquiet.inFlight i).1 hi)⟩
    rcases hquiet.resolveFunc with heq | hgone
    · rw [heq]
      exact hresolve
    · exact hgone.1
  unresolved := by
    intro hsucceeded result hresult
    rw [hquiet.succeeded] at hsucceeded
    rcases hquiet.promise with heq | ⟨-, hrejected⟩
    · exact h.unresolved hsucceeded result (heq.symm.trans hresult)
    · exact nomatch hrejected.symm.trans hresult

theorem Orderly.quiet (h : Orderly s) (hquiet : Quiet s s') : Orderly s' where
  single := by
    intro i j hi hj
    exact h.single i j ((hquiet.inFlight i).1 hi) ((hquiet.inFlight j).1 hj)
  noneAfter := hquiet.started.trans h.noneAfter
  resolved := by
    intro result hresult
    rw [hquiet.succeeded] at hresult
    have hresolved := h.resolved result hresult
    rcases hquiet.promise with heq | ⟨hpending, -⟩
    · exact heq.trans hresolved
    · rw [hresolved] at hpending
      exact nomatch hpending
  background := hquiet.harmed.trans h.background

/-! ## Making a request -/

open InteractiveAuth

/-- A request is in flight after one is made when it was before, or when it is the new one. -/
theorem inFlight_doRequest (background : Bool) (i : ℕ) :
    (s.doRequest background).InFlight i ↔ i = s.nextRequest ∨ s.InFlight i ∧ i ≠ s.nextRequest := by
  rw [InFlight, doRequest]
  dsimp only
  by_cases hi : i = s.nextRequest
  · rw [hi, Function.update_self]
    exact iff_of_true ⟨background, rfl⟩ (.inl rfl)
  · rw [Function.update_of_ne hi, or_iff_right hi, and_iff_left hi]
    rfl

/-- **A call makes its request** when no other call does and nothing is in flight. -/
theorem Inv.submit (h : Inv s) {call : ℕ} (background : Bool) (hattempted : s.attempted = true)
    (hfree : s.submitPromise = none) (hnone : ∀ i, ¬ s.InFlight i) (hsucceeded : s.succeeded = none)
    (hcall : call < s.nextCall) : Inv (s.submit call background) := by
  have hcalls : ∀ k p, (s.submit call background).calls k = some (.running p) →
      k = call ∧ p = s.nextRequest := by
    intro k p hk
    rw [InteractiveAuth.submit] at hk
    dsimp only at hk
    by_cases hcall : k = call
    · rw [hcall, Function.update_self] at hk
      obtain rfl := Call.running.inj (Option.some.inj hk)
      exact ⟨hcall, rfl⟩
    · rw [Function.update_of_ne hcall] at hk
      exact nomatch (h.own k p hk).symm.trans hfree
  refine ⟨fun hcontra => ?_, h.pending, fun p hp => ?_, fun k p hk => ?_, fun k k' p hk hk' => ?_,
    fun i hi => ?_, fun i hi => ?_, fun k hk => ?_, fun hcontra => absurd hsucceeded hcontra,
    h.unresolved⟩
  · exact nomatch hcontra.symm.trans hattempted
  · obtain rfl := Option.some.inj hp
    exact ⟨call, Function.update_self _ _ _⟩
  · rw [(hcalls k p hk).2]
    rfl
  · rw [(hcalls k p hk).1, (hcalls k' p hk').1]
  · rcases (inFlight_doRequest background i).1 hi with rfl | ⟨hi, -⟩
    · exact .inl rfl
    · exact absurd hi (hnone i)
  · show Function.update s.requests s.nextRequest _ i = none
    have hlt : s.nextRequest + 1 ≤ i := hi
    rw [Function.update_of_ne (by omega)]
    exact h.freshRequest i (by omega)
  · show Function.update s.calls call _ k = none
    have hle : s.nextCall ≤ k := hk
    rw [Function.update_of_ne (by omega)]
    exact h.freshCall k hle

theorem Orderly.doRequest (h : Orderly s) (background : Bool) (hnone : ∀ i, ¬ s.InFlight i)
    (hsucceeded : s.succeeded = none) : Orderly (s.doRequest background) where
  single := by
    intro i j hi hj
    rw [inFlight_doRequest] at hi hj
    rcases hi with rfl | hi
    · rcases hj with rfl | hj
      · rfl
      · exact absurd hj.1 (hnone j)
    · exact absurd hi.1 (hnone i)
  noneAfter := by
    show (s.startedAfterSuccess || s.succeeded.isSome) = false
    rw [h.noneAfter, hsucceeded]
    rfl
  resolved := h.resolved
  background := h.background

theorem Orderly.submit (h : Orderly s) (call : ℕ) (background : Bool)
    (hnone : ∀ i, ¬ s.InFlight i) (hsucceeded : s.succeeded = none) :
    Orderly (s.submit call background) := by
  have hmade := h.doRequest background hnone hsucceeded
  exact ⟨hmade.single, hmade.noneAfter, hmade.resolved, hmade.background⟩

/-- The next call is counted. -/
theorem Inv.count (h : Inv s) : Inv { s with nextCall := s.nextCall + 1 } where
  unattempted := h.unattempted
  pending := h.pending
  running := h.running
  own := h.own
  one := h.one
  flights := h.flights
  freshRequest := h.freshRequest
  freshCall := by
    intro k hk
    have hlt : s.nextCall + 1 ≤ k := hk
    exact h.freshCall k (by omega)
  succeeded := h.succeeded
  unresolved := h.unresolved

/-- A call that waits, and not for its own request. -/
theorem Inv.wait (h : Inv s) {call : ℕ} (request : ℕ) (background : Bool)
    (hattempted : s.attempted = true) (hsubmit : s.submitPromise ≠ none)
    (hcall : call < s.nextCall) (hnot : ∀ p, s.calls call ≠ some (.running p)) :
    Inv { s with
      calls := Function.update s.calls call (some (.waiting request background)) } := by
  have hcalls : ∀ k p, Function.update s.calls call (some (.waiting request background)) k =
      some (.running p) ↔ s.calls k = some (.running p) := by
    intro k p
    by_cases hk : k = call
    · rw [hk, Function.update_self]
      exact iff_of_false (fun hcontra => nomatch Option.some.inj hcontra) (hnot p)
    · rw [Function.update_of_ne hk]
  refine ⟨fun hcontra => ?_, h.pending, fun p hp => ?_, fun k p hk => ?_, fun k k' p hk hk' => ?_,
    fun i hi => ?_, h.freshRequest, fun k hk => ?_, h.succeeded, h.unresolved⟩
  · exact nomatch hcontra.symm.trans hattempted
  · obtain ⟨k, hk⟩ := h.running p hp
    exact ⟨k, (hcalls k p).2 hk⟩
  · exact h.own k p ((hcalls k p).1 hk)
  · exact h.one k k' p ((hcalls k p).1 hk) ((hcalls k' p).1 hk')
  · rcases h.flights i hi with hi | hnone
    · exact .inl hi
    · -- the call that runs would be there
      obtain ⟨p, hp⟩ := Option.ne_none_iff_exists'.1 hsubmit
      obtain ⟨k, hk⟩ := h.running p hp
      exact nomatch (hnone k).symm.trans hk
  · have hle : s.nextCall ≤ k := hk
    show Function.update s.calls call _ k = none
    rw [Function.update_of_ne (by omega)]
    exact h.freshCall k hle

/-- **`submitAuthDict`** keeps the order exactly when a request it makes is the only one. -/
theorem Inv.submitAuthDict (h : Inv s) (hP : Orderly s) (background : Bool) :
    (Orderly (s.submitAuthDict background) ↔ s.StartsAlone) ∧
      (s.StartsAlone → Inv (s.submitAuthDict background)) := by
  rw [InteractiveAuth.submitAuthDict]
  by_cases hresolve : s.resolveFunc = false
  · rw [if_pos hresolve]
    have halone : s.StartsAlone := fun hcontra => nomatch hresolve.symm.trans hcontra
    exact ⟨iff_of_true hP halone, fun _ => h⟩
  · rw [if_neg hresolve]
    have hattempted : s.attempted = true := by
      rw [← Bool.not_eq_false]
      exact fun hcontra => hresolve (h.unattempted hcontra).1
    have hsucceeded : s.succeeded = none := by
      by_contra hcontra
      exact hresolve (h.succeeded hcontra).1
    have hfresh := h.freshCall s.nextCall (Nat.le_refl _)
    cases hsubmit : s.submitPromise with
    | some request =>
      have halone : s.StartsAlone := fun _ hcontra => nomatch hsubmit.symm.trans hcontra
      refine ⟨iff_of_true ⟨hP.single, hP.noneAfter, hP.resolved, hP.background⟩ halone,
        fun _ => ?_⟩
      have hwait := h.count.wait request background hattempted
        (hsubmit ▸ Option.some_ne_none request) (Nat.lt_succ_self _)
        fun p hcontra => nomatch hfresh.symm.trans hcontra
      simp only [hsubmit] at hwait
      exact hwait
    | none =>
      refine ⟨⟨fun hmade => ?_, fun halone => ?_⟩, fun halone => ?_⟩
      · intro _ _ i hi
        have hne : i ≠ s.nextRequest := by
          rintro rfl
          obtain ⟨background', hi⟩ := hi
          exact nomatch (h.freshRequest _ (Nat.le_refl _)).symm.trans hi
        exact hne (hmade.single i s.nextRequest
          ((inFlight_doRequest background i).2 (.inr ⟨hi, hne⟩))
          ((inFlight_doRequest background _).2 (.inl rfl)))
      · have hcounted : Orderly { s with nextCall := s.nextCall + 1 } :=
          ⟨hP.single, hP.noneAfter, hP.resolved, hP.background⟩
        exact hcounted.submit _ background
          (halone (Bool.not_eq_false _ ▸ hresolve) hsubmit) hsucceeded
      · exact h.count.submit background hattempted hsubmit
          (halone (Bool.not_eq_false _ ▸ hresolve) hsubmit) hsucceeded (Nat.lt_succ_self _)

/-! ## A request that is over -/

section SetPhase

variable {request : ℕ} {background : Bool} {phase : Phase}

theorem inFlight_setPhase (hphase : phase ≠ .inFlight) (i : ℕ) :
    (s.setPhase request background phase).InFlight i ↔ i ≠ request ∧ s.InFlight i := by
  rw [InFlight, setPhase]
  dsimp only
  by_cases hi : i = request
  · rw [hi, Function.update_self]
    refine iff_of_false ?_ fun hcontra => hcontra.1 rfl
    rintro ⟨background', heq⟩
    exact hphase (congrArg Request.phase (Option.some.inj heq))
  · rw [Function.update_of_ne hi, and_iff_right hi]
    rfl

theorem Inv.setPhase (h : Inv s) (hthere : s.requests request ≠ none)
    (hphase : phase ≠ .inFlight) : Inv (s.setPhase request background phase) where
  unattempted := fun hattempted => absurd ((h.unattempted hattempted).2.2.1 request) hthere
  pending := h.pending
  running := h.running
  own := h.own
  one := h.one
  flights := fun i hi => h.flights i ((inFlight_setPhase hphase i).1 hi).2
  freshRequest := by
    intro i hi
    show Function.update s.requests request _ i = none
    rw [Function.update_of_ne]
    · exact h.freshRequest i hi
    · rintro rfl
      exact hthere (h.freshRequest i hi)
  freshCall := h.freshCall
  succeeded := by
    intro hsucceeded
    obtain ⟨hresolve, hflights⟩ := h.succeeded hsucceeded
    exact ⟨hresolve, fun i hi => hflights i ((inFlight_setPhase hphase i).1 hi).2⟩
  unresolved := h.unresolved

theorem Orderly.setPhase (h : Orderly s) (hphase : phase ≠ .inFlight) :
    Orderly (s.setPhase request background phase) where
  single := by
    intro i j hi hj
    exact h.single i j ((inFlight_setPhase hphase i).1 hi).2 ((inFlight_setPhase hphase j).1 hj).2
  noneAfter := h.noneAfter
  resolved := h.resolved
  background := h.background

/-- When the request that is in flight is over, none is left. -/
theorem none_inFlight (h : Orderly s) (hphase : phase ≠ .inFlight) (hrequest : s.InFlight request)
    (i : ℕ) : ¬ (s.setPhase request background phase).InFlight i := by
  rw [inFlight_setPhase hphase]
  rintro ⟨hne, hi⟩
  exact hne (h.single i request hi hrequest)

end SetPhase

/-! ## The next stage -/

/-- The flow is chosen, and the stage is current. -/
def InteractiveAuth.choosing (s : InteractiveAuth ρ) (stage : Option String) : InteractiveAuth ρ :=
  { s with
    chosenFlow := s.chooseStage.1
    currentStage := stage }

theorem Quiet.choosing (s : InteractiveAuth ρ) (stage : Option String) :
    Quiet s (s.choosing stage) :=
  ⟨rfl, rfl, rfl, rfl, rfl, rfl, rfl, rfl, rfl, .inl rfl, .inl rfl⟩

/-- A stage that is chosen is of a flow. -/
theorem chosenFlow_of_stage {stage : Option String} (h : s.chooseStage.2 = .ok stage) :
    s.chooseStage.1.isSome := by
  rw [chooseStage] at h ⊢
  cases hactive : s.activeFlow with
  | error e =>
    rw [hactive] at h
    exact nomatch h
  | ok stages => rfl

/-- **What `_startNextAuthStage` does**: it submits the dummy stage or calls back, or it throws. -/
theorem startNextAuthStage_cases (s : InteractiveAuth ρ) (callbackThrows : Bool) :
    s.PicksStage callbackThrows ∧ s.chooseStage.1.isSome ∧
        (∃ stage, s.startNextAuthStage callbackThrows = (s.choosing stage, false) ∨
          s.startNextAuthStage callbackThrows =
            ((s.choosing stage).submitAuthDict false, false)) ∨
      ¬ s.PicksStage callbackThrows ∧
        ∃ stage, s.startNextAuthStage callbackThrows = (s.choosing stage, true) := by
  rw [startNextAuthStage, PicksStage]
  cases hstage : s.chooseStage.2 with
  | error e =>
    refine .inr ⟨?_, s.currentStage, rfl⟩
    rintro ⟨stage, hcontra, -⟩
    exact nomatch hcontra
  | ok nextStage =>
    dsimp only
    by_cases htruthy : isTruthy nextStage = true
    · rw [if_neg (not_not.2 htruthy)]
      obtain ⟨stage, rfl, hstage'⟩ : ∃ stage, nextStage = some stage ∧ stage ≠ "" := by
        cases nextStage with
        | none => exact nomatch htruthy
        | some stage => exact ⟨stage, rfl, of_decide_eq_true htruthy⟩
      by_cases hdummy : stage = DUMMY_STAGE_TYPE
      · rw [if_pos (congrArg some hdummy)]
        exact .inl ⟨⟨stage, rfl, hstage', .inl hdummy⟩, chosenFlow_of_stage hstage, some stage,
          .inr rfl⟩
      · rw [if_neg fun hcontra => hdummy (Option.some.inj hcontra)]
        cases callbackThrows with
        | false =>
          exact .inl ⟨⟨stage, rfl, hstage', .inr rfl⟩, chosenFlow_of_stage hstage, some stage,
            .inl rfl⟩
        | true =>
          refine .inr ⟨?_, some stage, rfl⟩
          rintro ⟨stage', heq, -, hdummy' | hcontra⟩
          · exact hdummy (Option.some.inj (Except.ok.inj heq) ▸ hdummy')
          · exact nomatch hcontra
    · rw [if_pos htruthy]
      refine .inr ⟨?_, s.currentStage, rfl⟩
      rintro ⟨stage, heq, hne, -⟩
      obtain rfl := Except.ok.inj heq
      exact htruthy (decide_eq_true hne)

/-! ## Failures -/

theorem Quiet.data (s : InteractiveAuth ρ) (data : AuthData) : Quiet s { s with data := data } :=
  ⟨rfl, rfl, rfl, rfl, rfl, rfl, rfl, rfl, rfl, .inl rfl, .inl rfl⟩

theorem Quiet.sendEmail (s : InteractiveAuth ρ) : Quiet s s.sendEmail.1 := by
  have hrefl : Quiet s s := ⟨rfl, rfl, rfl, rfl, rfl, rfl, rfl, rfl, rfl, .inl rfl, .inl rfl⟩
  rw [InteractiveAuth.sendEmail]
  split
  · exact hrefl
  · split
    · exact hrefl
    · split
      · exact ⟨rfl, rfl, rfl, rfl, rfl, rfl, rfl, rfl, rfl, .inl rfl, .inl rfl⟩
      · exact hrefl

theorem isPending_rejectPromise (s : InteractiveAuth ρ) :
    s.rejectPromise.promise.isPending = false := by
  show s.promise.reject.isPending = false
  cases s.promise <;> rfl

/-- The promise is rejected, and what settles it may be gone. -/
theorem Quiet.reject (s : InteractiveAuth ρ) (resolveFunc : Bool)
    (hresolve : resolveFunc = s.resolveFunc ∨ resolveFunc = false) :
    Quiet s { s.rejectPromise with resolveFunc := resolveFunc } := by
  refine ⟨rfl, rfl, rfl, rfl, rfl, rfl, rfl, rfl, rfl, ?_, ?_⟩
  · show s.promise.reject = s.promise ∨ s.promise.isPending = true ∧ s.promise.reject = .rejected
    cases s.promise with
    | pending => exact .inr ⟨rfl, rfl⟩
    | _ => exact .inl rfl
  · rcases hresolve with heq | hgone
    · exact .inl heq
    · exact .inr ⟨hgone, isPending_rejectPromise s⟩

theorem Quiet.giveUp (s : InteractiveAuth ρ) : Quiet s s.giveUp :=
  Quiet.reject s false (.inr rfl)

/-- Nothing is in flight, and all is in order. -/
structure Idle (s : InteractiveAuth ρ) : Prop where
  inv : Inv s
  orderly : Orderly s
  nothing : ∀ i, ¬ s.InFlight i

theorem Idle.quiet (h : Idle s) (hquiet : Quiet s s') : Idle s' where
  inv := h.inv.quiet hquiet
  orderly := h.orderly.quiet hquiet
  nothing := fun i hi => h.nothing i ((hquiet.inFlight i).1 hi)

/-- All is in order, and no request is forgotten. -/
def Follows (s s' : InteractiveAuth ρ) : Prop :=
  Inv s' ∧ Orderly s' ∧ ∀ i, s.requests i ≠ none → s'.requests i ≠ none

theorem Idle.follows (h : Idle s) (hquiet : Quiet s s') : Follows s s' := by
  refine ⟨h.inv.quiet hquiet, h.orderly.quiet hquiet, fun i hi => ?_⟩
  rw [hquiet.requests]
  exact hi

theorem Follows.quiet {s'' : InteractiveAuth ρ} (h : Follows s s') (hquiet : Quiet s' s'') :
    Follows s s'' := by
  refine ⟨h.1.quiet hquiet, h.2.1.quiet hquiet, fun i hi => ?_⟩
  rw [hquiet.requests]
  exact h.2.2 i hi

/-- The dummy stage is submitted. -/
theorem Idle.submitAuthDict (h : Idle s) (background : Bool) :
    Follows s (s.submitAuthDict background) := by
  have halone : s.StartsAlone := fun _ _ => h.nothing
  obtain ⟨horderly, hinv⟩ := h.inv.submitAuthDict h.orderly background
  refine ⟨hinv halone, horderly.2 halone, fun i hi => ?_⟩
  rw [InteractiveAuth.submitAuthDict]
  split
  · exact hi
  · split
    · exact hi
    · show Function.update s.requests s.nextRequest _ i ≠ none
      by_cases hnext : i = s.nextRequest
      · rw [hnext, Function.update_self]
        exact Option.some_ne_none _
      · rw [Function.update_of_ne hnext]
        exact hi

theorem Idle.proceed (h : Idle s) (callbackThrows : Bool) :
    Follows s (s.proceed callbackThrows).1 := by
  rw [InteractiveAuth.proceed]
  rcases startNextAuthStage_cases s callbackThrows with
    ⟨-, -, stage, hstart | hstart⟩ | ⟨-, stage, hstart⟩
  · rw [hstart]
    exact (h.follows (Quiet.choosing s stage)).quiet (Quiet.sendEmail _)
  · rw [hstart]
    exact ((h.quiet (Quiet.choosing s stage)).submitAuthDict false).quiet (Quiet.sendEmail _)
  · rw [hstart]
    simp only [not_true, if_false]
    split
    · exact h.follows (Quiet.choosing s stage)
    · exact ((h.follows (Quiet.choosing s stage)).quiet
        (Quiet.giveUp _)).quiet (Quiet.sendEmail _)

/-- **The handling of an error** keeps all in order. -/
theorem Idle.catchError (h : Idle s) (background unauthorized : Bool)
    (errorData : Option AuthData) (callbackThrows : Bool) :
    Follows s (s.catchError background unauthorized errorData callbackThrows).1 := by
  have hrefl : Follows s s := ⟨h.inv, h.orderly, fun _ hi => hi⟩
  rw [InteractiveAuth.catchError]
  generalize (s.isUnlikeAuth unauthorized errorData && !background) = rejects
  split
  · exact hrefl
  · have hidle : Idle (if rejects then s.rejectPromise else s) := by
      split
      · exact h.quiet (Quiet.reject s s.resolveFunc (.inl rfl))
      · exact h
    have hsame : (if rejects then s.rejectPromise else s).requests = s.requests := by
      split <;> rfl
    cases errorData with
    | none => exact ⟨hidle.inv, hidle.orderly, fun i hi => hsame ▸ hi⟩
    | some errorData =>
      obtain ⟨hinv, horderly, hkept⟩ :=
        (hidle.quiet (Quiet.data _ _)).proceed callbackThrows
      exact ⟨hinv, horderly, fun i hi => hkept i (hsame ▸ hi)⟩

/-- Sending the email throws when there is no flow. -/
theorem sendEmail_throws_iff (s : InteractiveAuth ρ) : s.sendEmail.2 = .throws ↔
    ¬ (isTruthy s.emailSid = true ∨ s.requestingEmailToken = true ∨ s.chosenFlow.isSome = true) := by
  rw [InteractiveAuth.sendEmail]
  by_cases hsent : isTruthy s.emailSid = true ∨ s.requestingEmailToken = true
  · rw [if_pos hsent]
    refine iff_of_false (fun hcontra => nomatch hcontra) (not_not.2 ?_)
    exact or_assoc.1 (.inl hsent)
  · rw [if_neg hsent, ← or_assoc, or_iff_right hsent]
    cases s.chosenFlow with
    | none => exact iff_of_true rfl (fun hcontra => nomatch hcontra)
    | some stages =>
      refine iff_of_false ?_ (not_not.2 rfl)
      dsimp only
      split
      · exact fun hcontra => nomatch hcontra
      · exact fun hcontra => nomatch hcontra

@[simp] theorem promise_sendEmail (s : InteractiveAuth ρ) :
    s.sendEmail.1.promise = s.promise := by
  rw [InteractiveAuth.sendEmail]
  split
  · rfl
  · split
    · rfl
    · split <;> rfl

theorem same_submitAuthDict (s : InteractiveAuth ρ) (background : Bool) :
    (s.submitAuthDict background).promise = s.promise ∧
      (s.submitAuthDict background).chosenFlow = s.chosenFlow := by
  rw [InteractiveAuth.submitAuthDict]
  split
  · exact ⟨rfl, rfl⟩
  · split
    · exact ⟨rfl, rfl⟩
    · exact ⟨rfl, rfl⟩

/-- What `proceed` leaves unnoticed: a stage is picked, or the promise was rejected before. -/
theorem proceed_harmed_iff (s : InteractiveAuth ρ) (callbackThrows : Bool) :
    ((s.proceed callbackThrows).2 = .throws ∨ s.promise.isPending = true ∧
        (s.proceed callbackThrows).1.promise.isRejected = true) ↔
      ¬ (s.PicksStage callbackThrows ∨ s.promise.isPending = false ∧ s.resolveFunc = true ∧
        (isTruthy s.emailSid = true ∨ s.requestingEmailToken = true ∨
          s.chooseStage.1.isSome = true)) := by
  have hnotRejected : ¬ (s.promise.isPending = true ∧ s.promise.isRejected = true) := by
    rintro ⟨hpending, hrejected⟩
    cases hpromise : s.promise with
    | pending =>
      rw [hpromise] at hrejected
      exact nomatch hrejected
    | resolved result =>
      rw [hpromise] at hpending
      exact nomatch hpending
    | rejected =>
      rw [hpromise] at hpending
      exact nomatch hpending
  rw [InteractiveAuth.proceed]
  rcases startNextAuthStage_cases s callbackThrows with
    ⟨hpicks, hflow, stage, hstart | hstart⟩ | ⟨hpicks, stage, hstart⟩
  · refine iff_of_false ?_ (not_not.2 (.inl hpicks))
    rw [hstart]
    simp only [Bool.false_eq_true, not_false_iff, if_true, sendEmail_throws_iff, promise_sendEmail]
    rintro (hthrows | hrejected)
    · exact hthrows (.inr (.inr hflow))
    · exact hnotRejected hrejected
  · obtain ⟨hpromise, hchosen⟩ := same_submitAuthDict (s.choosing stage) false
    refine iff_of_false ?_ (not_not.2 (.inl hpicks))
    rw [hstart]
    simp only [Bool.false_eq_true, not_false_iff, if_true, sendEmail_throws_iff, promise_sendEmail]
    rw [hpromise, hchosen]
    rintro (hthrows | hrejected)
    · exact hthrows (.inr (.inr hflow))
    · exact hnotRejected hrejected
  · rw [hstart, or_iff_right hpicks]
    simp only [not_true, if_false]
    by_cases hresolve : s.resolveFunc = false
    · rw [if_pos (show (s.choosing stage).resolveFunc = false from hresolve)]
      refine iff_of_true (.inl rfl) ?_
      rintro ⟨-, hcontra, -⟩
      exact nomatch hresolve.symm.trans hcontra
    · have hthere : s.resolveFunc = true := Bool.not_eq_false _ ▸ hresolve
      have hflow : (s.choosing stage).giveUp.chosenFlow = s.chooseStage.1 := rfl
      rw [if_neg (show ¬ (s.choosing stage).resolveFunc = false from hresolve),
        sendEmail_throws_iff, promise_sendEmail, hflow, hthere]
      by_cases hpending : s.promise.isPending = true
      · refine iff_of_true (.inr ⟨hpending, ?_⟩) fun hcontra => ?_
        · show s.promise.reject.isRejected = true
          cases hpromise : s.promise with
          | pending => rfl
          | _ =>
            rw [hpromise] at hpending
            exact nomatch hpending
        · exact nomatch hcontra.1.symm.trans hpending
      · rw [or_iff_left fun hcontra => hpending hcontra.1]
        rw [Bool.not_eq_true] at hpending
        rw [hpending, and_iff_right rfl, and_iff_right rfl]
        rfl

/-- **When a failure in the background goes unnoticed.** -/
theorem harmed_iff (s : InteractiveAuth ρ) (unauthorized : Bool) (errorData : Option AuthData)
    (callbackThrows : Bool) :
    ((s.catchError true unauthorized errorData callbackThrows).2 = .throws ∨
      s.promise.isPending = true ∧
        (s.catchError true unauthorized errorData callbackThrows).1.promise.isRejected = true) ↔
      ¬ s.Ignores errorData callbackThrows := by
  rw [InteractiveAuth.catchError]
  simp only [Bool.not_true, Bool.and_false, Bool.false_and, Bool.false_eq_true, if_false]
  cases errorData with
  | none =>
    refine iff_of_true (.inl rfl) ?_
    rintro ⟨data, hdata, -⟩
    exact nomatch hdata
  | some data =>
    refine (proceed_harmed_iff _ callbackThrows).trans (not_congr ⟨fun hor => ⟨data, rfl, hor⟩, ?_⟩)
    rintro ⟨data', heq, hor⟩
    obtain rfl := Option.some.inj heq
    exact hor

theorem Inv.observe (h : Inv s) (before : Outcome ρ) (background : Bool) (ending : Ending) :
    Inv (s.observe before background ending) :=
  ⟨h.unattempted, h.pending, h.running, h.own, h.one, h.flights, h.freshRequest, h.freshCall,
    h.succeeded, h.unresolved⟩

theorem orderly_observe (h : Orderly s) (before : Outcome ρ) (background : Bool)
    (ending : Ending) : Orderly (s.observe before background ending) ↔
      (background = true →
        ¬ (ending = .throws ∨ before.isPending = true ∧ s.promise.isRejected = true)) := by
  have hharmed : (s.observe before background ending).backgroundHarmed = false ↔
      (background = true →
        ¬ (ending = .throws ∨ before.isPending = true ∧ s.promise.isRejected = true)) := by
    rw [InteractiveAuth.observe]
    rw [h.background, Bool.false_or, ← Bool.not_eq_true, Bool.and_eq_true, Bool.or_eq_true,
      Bool.and_eq_true, decide_eq_true_iff, not_and]
  rw [← hharmed]
  exact ⟨fun hobserved => hobserved.background,
    fun hbackground => ⟨h.single, h.noneAfter, h.resolved, hbackground⟩⟩

/-! ## Steps -/

/-- **A request fails**: the order is kept unless it is one in the background that harms. -/
theorem Inv.fail (h : Inv s) (hP : Orderly s) {request : ℕ} {background : Bool}
    (hrequest : s.requests request = some ⟨background, .inFlight⟩) (unauthorized : Bool)
    (errorData : Option AuthData) (callbackThrows : Bool) :
    (Orderly (s.fail request background unauthorized errorData callbackThrows) ↔
      (background = true → s.Ignores errorData callbackThrows)) ∧
      Inv (s.fail request background unauthorized errorData callbackThrows) := by
  have hthere : s.requests request ≠ none := hrequest ▸ Option.some_ne_none _
  have hsettled : Phase.settled ≠ .inFlight := fun hcontra => nomatch hcontra
  have hidle : Idle (s.setPhase request background .settled) :=
    ⟨h.setPhase hthere hsettled, hP.setPhase hsettled, none_inFlight hP hsettled ⟨_, hrequest⟩⟩
  obtain ⟨hinv, horderly, hkept⟩ :=
    hidle.catchError background unauthorized errorData callbackThrows
  have hthere' : ((s.setPhase request background .settled).catchError background unauthorized
      errorData callbackThrows).1.requests request ≠ none := by
    refine hkept request ?_
    show Function.update s.requests request _ request ≠ none
    rw [Function.update_self]
    exact Option.some_ne_none _
  have hharmed : background = true →
      (((s.setPhase request background .settled).catchError background unauthorized errorData
          callbackThrows).2 = .throws ∨ s.promise.isPending = true ∧
        ((s.setPhase request background .settled).catchError background unauthorized errorData
          callbackThrows).1.promise.isRejected = true ↔ ¬ s.Ignores errorData callbackThrows) := by
    rintro rfl
    exact harmed_iff _ unauthorized errorData callbackThrows
  rw [InteractiveAuth.fail]
  generalize (s.setPhase request background .settled).catchError background unauthorized errorData
    callbackThrows = made at hinv horderly hthere' hharmed
  obtain ⟨s₁, ending⟩ := made
  dsimp only at hinv horderly hthere' hharmed ⊢
  have htoken : Phase.requestingToken ≠ .inFlight := fun hcontra => nomatch hcontra
  obtain ⟨s₂, hs₂, hinv₂, horderly₂, hpromise⟩ : ∃ s₂, s₂ = (if ending = .requestsToken then
      s₁.setPhase request background .requestingToken else s₁) ∧ Inv s₂ ∧ Orderly s₂ ∧
      s₂.promise = s₁.promise := by
    refine ⟨_, rfl, ?_⟩
    split
    · exact ⟨hinv.setPhase hthere' htoken, horderly.setPhase htoken, rfl⟩
    · exact ⟨hinv, horderly, rfl⟩
  rw [← hs₂, orderly_observe horderly₂, hpromise]
  refine ⟨forall_congr' fun hbackground => ?_, hinv₂.observe _ _ _⟩
  rw [hharmed hbackground, not_not]

/-- **A request succeeds**: the promise has to be pending. -/
theorem Inv.succeed (h : Inv s) (hP : Orderly s) {request : ℕ} {background : Bool}
    (hrequest : s.requests request = some ⟨background, .inFlight⟩) (result : ρ) :
    (Orderly (s.succeed request background result) ↔ s.promise.isPending = true) ∧
      Inv (s.succeed request background result) := by
  have hthere : s.requests request ≠ none := hrequest ▸ Option.some_ne_none _
  have hsettled : Phase.settled ≠ .inFlight := fun hcontra => nomatch hcontra
  have hinv : Inv (s.setPhase request background .settled) := h.setPhase hthere hsettled
  have hP' : Orderly (s.setPhase request background .settled) := hP.setPhase hsettled
  have hnone : ∀ i, ¬ (s.setPhase request background .settled).InFlight i :=
    none_inFlight hP hsettled ⟨_, hrequest⟩
  have hfirst : s.succeeded = none := by
    by_contra hcontra
    exact (h.succeeded hcontra).2 request ⟨_, hrequest⟩
  have hattempted : s.attempted = true := by
    rw [← Bool.not_eq_false]
    exact fun hcontra => hthere ((h.unattempted hcontra).2.2.1 request)
  have hor : (s.setPhase request background .settled).succeeded.or (some result) =
      some result := by
    show s.succeeded.or (some result) = some result
    rw [hfirst]
    rfl
  rw [InteractiveAuth.succeed]
  rw [hor]
  by_cases hresolve : s.resolveFunc = false
  · rw [if_pos (show (s.setPhase request background .settled).resolveFunc = false from hresolve)]
    refine ⟨⟨fun hordered => ?_, fun hpending => ?_⟩, ?_⟩
    · exact absurd (hordered.resolved result rfl) (h.unresolved hfirst result)
    · exact nomatch hresolve.symm.trans (h.pending hattempted hpending)
    · exact ⟨fun hcontra => (nomatch hcontra.symm.trans hattempted), hinv.pending, hinv.running,
        hinv.own, hinv.one, hinv.flights, hinv.freshRequest, hinv.freshCall,
        fun _ => ⟨hresolve, hnone⟩, fun hcontra => nomatch hcontra⟩
  · rw [if_neg (show ¬ (s.setPhase request background .settled).resolveFunc = false from hresolve)]
    refine ⟨⟨fun hordered => ?_, fun hpending => ?_⟩, ?_⟩
    · have hresolved : s.promise.resolve result = .resolved result := hordered.resolved result rfl
      cases hpromise : s.promise with
      | pending => rfl
      | resolved result' => exact absurd hpromise (h.unresolved hfirst result')
      | rejected =>
        rw [hpromise] at hresolved
        exact nomatch hresolved
    · refine ⟨hP'.single, hP'.noneAfter, fun result' hresult => ?_, hP'.background⟩
      rw [← Option.some.inj hresult]
      show s.promise.resolve result = .resolved result
      cases hpromise : s.promise with
      | pending => rfl
      | _ =>
        rw [hpromise] at hpending
        exact nomatch hpending
    · refine ⟨fun hcontra => ?_, fun _ hpending => ?_, hinv.running, hinv.own, hinv.one,
        hinv.flights, hinv.freshRequest, hinv.freshCall, fun _ => ⟨rfl, hnone⟩,
        fun hcontra => nomatch hcontra⟩
      · exact nomatch hcontra.symm.trans hattempted
      · have hsettledPromise : (s.promise.resolve result).isPending = false := by
          cases s.promise <;> rfl
        exact nomatch hsettledPromise.symm.trans hpending

/-- **The email token** is requested: in the background that has to succeed. -/
theorem Inv.tokenRequested (h : Inv s) (hP : Orderly s) {request : ℕ} {background : Bool}
    (hrequest : s.requests request = some ⟨background, .requestingToken⟩) (sid : Option String) :
    (Orderly (s.tokenRequested request background sid) ↔ (background = true →
      sid.isSome ∨ s.promise.isPending = false ∧ s.resolveFunc = true)) ∧
      Inv (s.tokenRequested request background sid) := by
  have hsettled : Phase.settled ≠ .inFlight := fun hcontra => nomatch hcontra
  have hquiet : Quiet (s.setPhase request background .settled)
      { s.setPhase request background .settled with requestingEmailToken := false } :=
    ⟨rfl, rfl, rfl, rfl, rfl, rfl, rfl, rfl, rfl, .inl rfl, .inl rfl⟩
  have hinv := (h.setPhase (hrequest ▸ Option.some_ne_none _) hsettled).quiet hquiet
  have horderly := (hP.setPhase hsettled).quiet hquiet
  unfold InteractiveAuth.tokenRequested
  cases sid with
  | some sid =>
    have hsid : Quiet { s.setPhase request background .settled with requestingEmailToken := false }
        { s.setPhase request background .settled with
          requestingEmailToken := false
          emailSid := some sid } :=
      ⟨rfl, rfl, rfl, rfl, rfl, rfl, rfl, rfl, rfl, .inl rfl, .inl rfl⟩
    exact ⟨iff_of_true (horderly.quiet hsid) fun _ => .inl rfl, hinv.quiet hsid⟩
  | none =>
    dsimp only
    by_cases hresolve : s.resolveFunc = false
    · rw [if_pos (show (s.setPhase request background .settled).resolveFunc = false from hresolve),
        orderly_observe horderly]
      refine ⟨forall_congr' fun _ => iff_of_false (not_not.2 (.inl rfl)) ?_, hinv.observe _ _ _⟩
      rintro (hcontra | ⟨-, hcontra⟩)
      · exact nomatch hcontra
      · exact nomatch hresolve.symm.trans hcontra
    · have hthere : s.resolveFunc = true := Bool.not_eq_false _ ▸ hresolve
      have hgiveUp := Quiet.giveUp
        { s.setPhase request background .settled with requestingEmailToken := false }
      rw [if_neg (show ¬ (s.setPhase request background .settled).resolveFunc = false from
        hresolve), orderly_observe (horderly.quiet hgiveUp)]
      refine ⟨forall_congr' fun _ => ?_, (hinv.quiet hgiveUp).observe _ _ _⟩
      show ¬ (_ ∨ s.promise.isPending = true ∧ s.promise.reject.isRejected = true) ↔ _
      rw [hthere]
      cases s.promise with
      | pending =>
        refine iff_of_false (not_not.2 (.inr ⟨rfl, rfl⟩)) ?_
        rintro (hcontra | ⟨hcontra, -⟩)
        · exact nomatch hcontra
        · exact nomatch hcontra
      | _ =>
        refine iff_of_true ?_ (.inr ⟨rfl, rfl⟩)
        rintro (hcontra | ⟨hcontra, -⟩)
        · exact nomatch hcontra
        · exact nomatch hcontra

/-- **A call goes on**: it makes no request after a success. -/
theorem Inv.resume (h : Inv s) (hP : Orderly s) {call : ℕ} (hresume : s.resume call = some s') :
    (Orderly s' ↔ (s.submitPromise = none → s.succeeded = none)) ∧
      ((s.submitPromise = none → s.succeeded = none) → Inv s') := by
  rw [InteractiveAuth.resume] at hresume
  cases hcall : s.calls call with
  | none =>
    rw [hcall] at hresume
    exact nomatch hresume
  | some waits =>
    have hattempted : s.attempted = true := by
      rw [← Bool.not_eq_false]
      exact fun hcontra => nomatch hcall.symm.trans ((h.unattempted hcontra).2.1 call)
    have hlt : call < s.nextCall := by
      by_contra hcontra
      exact nomatch hcall.symm.trans (h.freshCall call (Nat.le_of_not_lt hcontra))
    rw [hcall] at hresume
    cases waits with
    | running request =>
      have hown := h.own call request hcall
      dsimp only at hresume
      split at hresume
      next hsettled =>
        obtain rfl := Option.some.inj hresume
        -- nothing is in flight, since the request of the call was the one to wait for
        have hnone : ∀ i, ¬ s.InFlight i := by
          intro i hi
          rcases h.flights i hi with heq | hnone
          · obtain rfl := Option.some.inj (hown.symm.trans heq)
            obtain ⟨background, hi⟩ := hi
            rw [hi] at hsettled
            exact nomatch hsettled
          · exact nomatch hcall.symm.trans (hnone call)
        have hother : ∀ k p, Function.update s.calls call none k ≠ some (.running p) := by
          intro k p hk
          by_cases hkc : k = call
          · rw [hkc, Function.update_self] at hk
            exact nomatch hk
          · rw [Function.update_of_ne hkc] at hk
            obtain rfl := Option.some.inj (hown.symm.trans (h.own k p hk))
            exact hkc (h.one k call request hk hcall)
        have hfree : s.submitPromise = none → s.succeeded = none :=
          fun hcontra => nomatch hown.symm.trans hcontra
        refine ⟨iff_of_true ⟨hP.single, hP.noneAfter, hP.resolved, hP.background⟩ hfree,
          fun _ => ⟨fun hcontra => ?_, h.pending, fun p hp => (nomatch hp),
            fun k p hk => absurd hk (hother k p), fun k k' p hk => absurd hk (hother k p),
            fun i hi => absurd hi (hnone i), h.freshRequest, fun k hk => ?_, h.succeeded,
            h.unresolved⟩⟩
        · exact nomatch hcontra.symm.trans hattempted
        · show Function.update s.calls call none k = none
          have hle : s.nextCall ≤ k := hk
          rw [Function.update_of_ne (by omega)]
          exact h.freshCall k hle
      next => exact nomatch hresume
    | waiting request background =>
      dsimp only at hresume
      split at hresume
      next =>
        cases hsubmit : s.submitPromise with
        | some request' =>
          rw [hsubmit] at hresume
          obtain rfl := Option.some.inj hresume
          have hwait := h.wait request' background hattempted
            (hsubmit ▸ Option.some_ne_none _) hlt fun p hcontra =>
              nomatch hcall.symm.trans hcontra
          simp only [hsubmit] at hwait
          exact ⟨iff_of_true ⟨hP.single, hP.noneAfter, hP.resolved, hP.background⟩
            fun hcontra => (nomatch hcontra), fun _ => hwait⟩
        | none =>
          rw [hsubmit] at hresume
          obtain rfl := Option.some.inj hresume
          have hnone : ∀ i, ¬ s.InFlight i := by
            intro i hi
            rcases h.flights i hi with heq | hnone
            · exact nomatch hsubmit.symm.trans heq
            · exact nomatch hcall.symm.trans (hnone call)
          refine ⟨⟨fun hordered _ => ?_, fun hfirst => hP.submit call background hnone
            (hfirst rfl)⟩, fun hfirst => h.submit background hattempted hsubmit hnone
              (hfirst rfl) hlt⟩
          have hstarted : (s.startedAfterSuccess || s.succeeded.isSome) = false :=
            hordered.noneAfter
          rw [hP.noneAfter, Bool.false_or, Option.isSome_eq_false_iff,
            Option.isNone_iff_eq_none] at hstarted
          exact hstarted
      next => exact nomatch hresume

/-- The first request is one that no call waits for. -/
theorem Idle.doRequest (h : Idle s) (background : Bool) (hattempted : s.attempted = true)
    (hcalls : ∀ k, s.calls k = none) (hfirst : s.succeeded = none) :
    Orderly (s.doRequest background) ∧ Inv (s.doRequest background) := by
  refine ⟨h.orderly.doRequest background h.nothing hfirst, fun hcontra => ?_, h.inv.pending,
    h.inv.running, h.inv.own, h.inv.one, fun _ _ => .inr hcalls, fun i hi => ?_, h.inv.freshCall,
    fun hcontra => absurd hfirst hcontra, h.inv.unresolved⟩
  · exact nomatch hcontra.symm.trans hattempted
  · show Function.update s.requests s.nextRequest _ i = none
    have hlt : s.nextRequest + 1 ≤ i := hi
    rw [Function.update_of_ne (by omega)]
    exact h.inv.freshRequest i (by omega)

/-- **The attempt begins**: with the first request, or with the next stage. -/
theorem Inv.attemptAuth (h : Inv s) (hP : Orderly s) (hattempted : s.attempted = false)
    (callbackThrows : Bool) :
    Orderly (s.attemptAuth callbackThrows) ∧ Inv (s.attemptAuth callbackThrows) := by
  obtain ⟨-, hcalls, hrequests, hfirst⟩ := h.unattempted hattempted
  have hnone : ∀ i, ¬ s.InFlight i := by
    rintro i ⟨background, hi⟩
    exact nomatch (hrequests i).symm.trans hi
  have hidle : Idle { s with
      attempted := true
      resolveFunc := true } := by
    refine ⟨⟨fun hcontra => (nomatch hcontra), fun _ _ => rfl, h.running, h.own, h.one, h.flights,
      h.freshRequest, h.freshCall, fun hcontra => absurd hfirst hcontra, h.unresolved⟩,
      ⟨hP.single, hP.noneAfter, hP.resolved, hP.background⟩, hnone⟩
  rw [InteractiveAuth.attemptAuth]
  split
  · exact hidle.doRequest false rfl hcalls hfirst
  · rcases startNextAuthStage_cases { s with
      attempted := true
      resolveFunc := true } callbackThrows with
      ⟨-, -, stage, hstart | hstart⟩ | ⟨-, stage, hstart⟩
    · rw [hstart]
      exact ⟨hidle.orderly.quiet (Quiet.choosing _ stage), hidle.inv.quiet (Quiet.choosing _ stage)⟩
    · rw [hstart]
      obtain ⟨hinv, horderly, -⟩ := (hidle.quiet (Quiet.choosing _ stage)).submitAuthDict false
      exact ⟨horderly, hinv⟩
    · rw [hstart]
      have hquiet := (Quiet.choosing _ stage).trans (Quiet.reject
        (InteractiveAuth.choosing { s with
          attempted := true
          resolveFunc := true } stage) true (.inl rfl))
      exact ⟨hidle.orderly.quiet hquiet, hidle.inv.quiet hquiet⟩

/-- **One step** keeps the order exactly when it is one that does. -/
theorem Inv.step (h : Inv s) (hP : Orderly s) {e : Event ρ} (hstep : step s e = some s') :
    (Orderly s' ↔ KeepsOrder s e) ∧ (KeepsOrder s e → Inv s') := by
  cases e with
  | attemptAuth callbackThrows =>
    rw [UiAuth.step] at hstep
    split at hstep
    · exact nomatch hstep
    next hattempted =>
      obtain rfl := Option.some.inj hstep
      rw [Bool.not_eq_true] at hattempted
      obtain ⟨horderly, hinv⟩ := h.attemptAuth hP hattempted callbackThrows
      exact ⟨iff_of_true horderly trivial, fun _ => hinv⟩
  | submitAuthDict background =>
    obtain rfl := Option.some.inj hstep
    exact h.submitAuthDict hP background
  | poll =>
    obtain rfl := Option.some.inj hstep
    have halone : s.StartsAlone → KeepsOrder s .poll := fun halone _ _ => halone
    rw [InteractiveAuth.poll]
    by_cases hsession : isTruthy s.data.session = true
    · rw [if_neg (not_not.2 hsession)]
      by_cases hresolve : s.resolveFunc = false
      · rw [if_pos hresolve]
        exact ⟨iff_of_true hP (halone fun hcontra => nomatch hresolve.symm.trans hcontra),
          fun _ => h⟩
      · rw [if_neg hresolve]
        by_cases hsubmit : s.submitPromise.isSome = true
        · rw [if_pos hsubmit]
          refine ⟨iff_of_true hP (halone fun _ hcontra => ?_), fun _ => h⟩
          rw [hcontra] at hsubmit
          exact nomatch hsubmit
        · rw [if_neg hsubmit]
          by_cases hemail : s.currentStage = some EMAIL_STAGE_TYPE ∧ isTruthy s.emailSid = true
          · rw [if_pos hemail]
            have hquiet : Quiet s { s with polls := s.polls + 1 } :=
              ⟨rfl, rfl, rfl, rfl, rfl, rfl, rfl, rfl, rfl, .inl rfl, .inl rfl⟩
            exact ⟨iff_of_true (hP.quiet hquiet) fun _ hcontra => absurd hemail hcontra,
              fun _ => h.quiet hquiet⟩
          · rw [if_neg hemail]
            have hkeeps : KeepsOrder s .poll ↔ s.StartsAlone :=
              ⟨fun hkeeps => hkeeps hsession hemail, halone⟩
            rw [hkeeps]
            exact h.submitAuthDict hP true
    · rw [if_pos hsession]
      exact ⟨iff_of_true hP fun hcontra => absurd hcontra hsession, fun _ => h⟩
  | pollGoesOn answered =>
    rw [UiAuth.step] at hstep
    split at hstep
    · exact nomatch hstep
    · obtain rfl := Option.some.inj hstep
      have hquiet : Quiet s { s with polls := s.polls - 1 } :=
        ⟨rfl, rfl, rfl, rfl, rfl, rfl, rfl, rfl, rfl, .inl rfl, .inl rfl⟩
      cases answered with
      | false =>
        exact ⟨iff_of_true (hP.quiet hquiet) fun hcontra => (nomatch hcontra),
          fun _ => h.quiet hquiet⟩
      | true =>
        have hkeeps : KeepsOrder s (.pollGoesOn true) ↔ s.StartsAlone :=
          ⟨fun hkeeps => hkeeps rfl, fun halone _ => halone⟩
        rw [hkeeps]
        exact (h.quiet hquiet).submitAuthDict (hP.quiet hquiet) true
  | setEmailSid sid =>
    obtain rfl := Option.some.inj hstep
    have hquiet : Quiet s { s with emailSid := sid } :=
      ⟨rfl, rfl, rfl, rfl, rfl, rfl, rfl, rfl, rfl, .inl rfl, .inl rfl⟩
    exact ⟨iff_of_true (hP.quiet hquiet) trivial, fun _ => h.quiet hquiet⟩
  | succeeds request result =>
    rw [UiAuth.step] at hstep
    split at hstep
    next background hrequest =>
      obtain rfl := Option.some.inj hstep
      obtain ⟨horderly, hinv⟩ := h.succeed hP hrequest result
      exact ⟨horderly, fun _ => hinv⟩
    next => exact nomatch hstep
  | fails request unauthorized errorData callbackThrows =>
    rw [UiAuth.step] at hstep
    split at hstep
    next background hrequest =>
      obtain rfl := Option.some.inj hstep
      obtain ⟨horderly, hinv⟩ := h.fail hP hrequest unauthorized errorData callbackThrows
      refine ⟨horderly.trans ?_, fun _ => hinv⟩
      rw [KeepsOrder, hrequest, Option.some.injEq, Request.mk.injEq, and_iff_left rfl]
    next => exact nomatch hstep
  | tokenRequested request sid =>
    rw [UiAuth.step] at hstep
    split at hstep
    next background hrequest =>
      obtain rfl := Option.some.inj hstep
      obtain ⟨horderly, hinv⟩ := h.tokenRequested hP hrequest sid
      refine ⟨horderly.trans ?_, fun _ => hinv⟩
      rw [KeepsOrder, hrequest, Option.some.injEq, Request.mk.injEq, and_iff_left rfl]
    next => exact nomatch hstep
  | resumes call => exact h.resume hP hstep

/-- A user with no inputs, and nothing known of the flows. -/
abbrev passwordSystem : System (InteractiveAuth String) (Event String) :=
  system String ⟨false, false, false⟩ ⟨none, none, none⟩ none

/-- What the server answers to the first request. -/
def passwordFlow : AuthData := ⟨some "xyz", some [some ["m.login.password"]], none⟩

def logIn : List (Event String) :=
  [.attemptAuth false, .fails 0 true (some passwordFlow) false, .submitAuthDict false,
    .succeeds 1 "token", .resumes 0]

theorem logIn_runs : (passwordSystem.run logIn).isSome := by
  decide +kernel

/-- The second call waits for the first, and goes on after it has succeeded. -/
def logInTwice : List (Event String) :=
  [.attemptAuth false, .fails 0 true (some passwordFlow) false, .submitAuthDict false,
    .submitAuthDict false, .succeeds 1 "token", .resumes 0, .resumes 1]

theorem logInTwice_runs : (passwordSystem.run logInTwice).isSome := by
  decide +kernel

end MatrixSdk.UiAuth
