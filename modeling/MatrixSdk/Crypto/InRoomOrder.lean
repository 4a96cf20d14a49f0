/-
The events of a verification in a room, delivered as historical events: `handleEvent` of
`crypto/verification/request/InRoomChannel.js` on top of that of the request.

The channel learns who the other party is from the request event. Until then the request keeps the
first event of each type that anyone but us has sent, and drops the others; what is not of the other
party is thrown away when the request event is there. So an event of the other party may be lost
because of somebody else's, and then the phase depends on the order:
[`RoomTransaction.phaseAfter_iff`].
-/
import MatrixSdk.Crypto.RequestPhases
import Mathlib.Data.List.Induction

set_option autoImplicit false

namespace MatrixSdk.Crypto

open MatrixSdk.Lib

/-! ## The channel -/

/-- A verification event in a room. -/
structure InRoomEvent where
  type : VerificationType
  event : VerificationEvent
  /-- `content.to`, of a request event. -/
  receiver : String
  /-- It has the transaction id of something we have sent. -/
  isRemoteEcho : Bool
  expiring : Bool
  deriving DecidableEq

def InRoomEvent.sender (e : InRoomEvent) : String := e.event.sender

/-- `InRoomChannel.getOtherPartyUserId` -/
def getOtherPartyUserId (ownUserId : String) (e : InRoomEvent) : Option String :=
  if e.type ≠ .request then none
  else if e.sender = ownUserId then some e.receiver
  else if e.receiver = ownUserId then some e.sender
  else none

/-- A client in a room. -/
structure RoomClient where
  userId : String
  deviceId : String
  verificationMethods : List String

def RoomClient.context (client : RoomClient) : RequestContext where
  userId := client.userId
  deviceId := client.deviceId
  verificationMethods := client.verificationMethods
  canCreateFromStart := false
  receiveStartFromOtherDevices := true

def EventLog.hasEventId (log : EventLog) (eventId : String) : Bool :=
  (log.eventsByUs.entries ++ log.eventsByThem.entries).any fun entry => entry.2.id = eventId

/-- The user that the channel takes for the other party from this event on. -/
def adoptedUserId (ownUserId : String) (otherUserId : Option String) (e : InRoomEvent) :
    Option String :=
  match otherUserId with
  | some userId => some userId
  | none => getOtherPartyUserId ownUserId e

/-- Whether an event is from someone who has no part in the verification. -/
def isForeign (ownUserId : String) (otherUserId : Option String) (e : InRoomEvent) : Bool :=
  match otherUserId with
  | some userId => e.sender ≠ ownUserId ∧ e.sender ≠ userId
  | none => false

/-- The synchronous rest of a call. -/
def RequestRun.settle (s : RequestRun) : RequestRun :=
  match s.running with
  | some call => { s.setPhase call with running := none }
  | none => s

/-- `handleEvent` of the channel, for a historical event, with that of the request. -/
def handleHistorical (client : RoomClient) (s : RequestRun) (e : InRoomEvent) : RequestRun :=
  if s.request.log.hasEventId e.event.id then s
  else
    let otherUserId := adoptedUserId client.userId s.request.otherUserId e
    let s : RequestRun := { s with request := { s.request with otherUserId := otherUserId } }
    if isForeign client.userId otherUserId e then s
    else
      -- nothing is awaited
      (s.handleEvent client.context
        ⟨e.type, e.event, false, e.isRemoteEcho, e.sender = client.userId, e.expiring⟩).settle

/-! ## The events alone -/

/-- What becomes of the other party's id and of the events, while the request is not done. -/
def takeEvent (ownUserId : String) (taken : Option String × EventLog) (e : InRoomEvent) :
    Option String × EventLog :=
  let (otherUserId, log) := taken
  if log.hasEventId e.event.id then (otherUserId, log)
  else
    let otherUserId := adoptedUserId ownUserId otherUserId e
    let isSentByUs : Bool := e.sender = ownUserId
    let isDuplicateEvent :=
      if isSentByUs then (log.eventsByUs.get e.type).isSome
      else (log.eventsByThem.get e.type).isSome
    if isForeign ownUserId otherUserId e || isDuplicateEvent then (otherUserId, log)
    else (otherUserId, log.addEvent otherUserId e.type e.event isSentByUs)

/-- An event is dropped, or else it is the first of its type and side. -/
theorem takeEvent_log (ownUserId : String) (otherUserId : Option String) (log : EventLog)
    (e : InRoomEvent) :
    (takeEvent ownUserId (otherUserId, log) e).2 = log ∨
      (if decide (e.sender = ownUserId) = true then (log.eventsByUs.get e.type).isSome
        else (log.eventsByThem.get e.type).isSome) = false ∧
      (takeEvent ownUserId (otherUserId, log) e).2 =
        log.addEvent (adoptedUserId ownUserId otherUserId e) e.type e.event
          (decide (e.sender = ownUserId)) := by
  rw [takeEvent]
  dsimp only
  generalize (if decide (e.sender = ownUserId) = true then
    (log.eventsByUs.get e.type).isSome else (log.eventsByThem.get e.type).isSome) = isDuplicate
  split
  · exact .inl rfl
  · split
    · exact .inl rfl
    next hcond =>
      rw [Bool.not_eq_true, Bool.or_eq_false_iff] at hcond
      exact .inr ⟨hcond.2, rfl⟩

def emptyLog : EventLog := ⟨.empty, .empty, false, false⟩

/-- A request that just observes has no verifier, and its phase is where the events lead. -/
structure Observing (s : RequestRun) : Prop where
  verifier : s.request.verifier = none
  running : s.running = none
  phase : s.request.phase = s.request.log.lastPhase false

namespace RequestState

variable {ctx : RequestContext} {s : RequestState}

/-- Who observes makes no verifier, and no transition throws. -/
theorem transitionToPhase_observing (ctx : RequestContext) (s : RequestState)
    (transition : PhaseTransition) (h : s.observeOnly = true) :
    (s.transitionToPhase ctx transition).2 = true ∧
      (s.transitionToPhase ctx transition).1.observeOnly = true ∧
      (s.transitionToPhase ctx transition).1.verifier = s.verifier ∧
      (s.transitionToPhase ctx transition).1.otherUserId = s.otherUserId := by
  have hmake : ∀ (phase : Phase) (event : VerificationEvent),
      let result := ((s.takeMethods ctx phase event).observeOtherDevice ctx event).createVerifier
        ctx phase event
      result.2 = true ∧ result.1.observeOnly = true ∧ result.1.verifier = s.verifier ∧
        result.1.otherUserId = s.otherUserId := by
    intro phase event
    have hobserve : ((s.takeMethods ctx phase event).observeOtherDevice ctx event).observeOnly =
        true ∧ ((s.takeMethods ctx phase event).observeOtherDevice ctx event).verifier =
          s.verifier ∧ ((s.takeMethods ctx phase event).observeOtherDevice ctx event).otherUserId =
          s.otherUserId := by
      rw [observeOtherDevice, takeMethods]
      split
      · split
        · exact ⟨rfl, rfl, rfl⟩
        · exact ⟨rfl, rfl, rfl⟩
      · split
        · exact ⟨h, rfl, rfl⟩
        · exact ⟨h, rfl, rfl⟩
    rw [createVerifier, if_neg]
    · exact ⟨rfl, hobserve⟩
    · rintro ⟨-, -, hnot⟩
      cases hobserve.1.symm.trans hnot
  rw [transitionToPhase]
  split
  · exact hmake _ _
  · exact hmake _ _
  · exact hmake _ _
  · exact ⟨rfl, h, rfl, rfl⟩

theorem transitionToPhases_observing (ctx : RequestContext) (s : RequestState)
    (transitions : List PhaseTransition) (h : s.observeOnly = true) :
    (s.transitionToPhases ctx transitions).2 = true ∧
      (s.transitionToPhases ctx transitions).1.verifier = s.verifier ∧
      (s.transitionToPhases ctx transitions).1.otherUserId = s.otherUserId := by
  induction transitions generalizing s with
  | nil => exact ⟨rfl, rfl, rfl⟩
  | cons transition transitions ih =>
    obtain ⟨hreturns, hobserve, hverifier, huser⟩ :=
      s.transitionToPhase_observing ctx transition h
    rw [transitionToPhases]
    cases hresult : s.transitionToPhase ctx transition with
    | mk t returns =>
      rw [hresult] at hreturns hobserve hverifier huser
      obtain rfl : returns = true := hreturns
      obtain ⟨hreturns', hverifier', huser'⟩ := ih t hobserve
      exact ⟨hreturns', hverifier'.trans hverifier, huser'.trans huser⟩

end RequestState

/-- **Taking in a historical event.** The phase follows at once. -/
theorem Observing.process {s : RequestRun} (h : Observing s) (ctx : RequestContext)
    (call : HandleCall) (hctx : ctx.canCreateFromStart = false)
    (hobserve : s.request.observeOnly = true) (hlive : call.isLiveEvent = false)
    (hnew : s.request.isDuplicateEvent call = false) :
    (s.process ctx call).settle.request.verifier = none ∧
      (s.process ctx call).settle.running = none ∧
      (s.process ctx call).settle.request.otherUserId = s.request.otherUserId ∧
      (s.process ctx call).settle.request.log = (s.add call).request.log ∧
      (s.process ctx call).settle.request.phase = (s.add call).request.log.lastPhase false := by
  obtain ⟨hlog, hphase⟩ := RequestState.transitionToPhases_frame ctx
    (s.add call).request ((s.add call).request.pendingTransitions ctx)
  obtain ⟨hreturns, hverifier, huser⟩ := RequestState.transitionToPhases_observing ctx
    (s.add call).request ((s.add call).request.pendingTransitions ctx) hobserve
  rw [RequestRun.process, hnew, if_neg Bool.false_ne_true]
  dsimp only
  cases hresult : (s.add call).request.transitionToPhases ctx
      ((s.add call).request.pendingTransitions ctx) with
  | mk t returns =>
    rw [hresult] at hlog hphase hreturns hverifier huser
    obtain rfl : returns = true := hreturns
    replace hverifier : t.verifier = none := hverifier.trans h.verifier
    have hpass : t.passToVerifier ctx call = (t, false) := by
      rw [RequestState.passToVerifier, hverifier]
    dsimp only
    rw [hpass]
    have hrunning : (s.add call).running = none := h.running
    by_cases hpending : (s.add call).request.pendingTransitions ctx = []
    · rw [if_pos hpending, RequestRun.settle]
      rw [hrunning]
      refine ⟨hverifier, rfl, huser, hlog, hphase.trans ?_⟩
      rw [← RequestState.pendingTransitions_eq_nil hpending, hctx]
    · have hcreates :
          t.createsQRCode call ((s.add call).request.pendingTransitions ctx) = false := by
        rw [RequestState.createsQRCode, hlive]
        rfl
      rw [if_neg hpending, hcreates]
      refine ⟨hverifier, rfl, huser, hlog, ?_⟩
      show EventLog.phaseOf ((s.add call).request.pendingTransitions ctx) = _
      rw [RequestState.phaseOf_pendingTransitions hpending, hctx]

section HandleHistorical

variable (client : RoomClient) (e : InRoomEvent) {s : RequestRun}

/-- A request that is done keeps its events and its phase. -/
theorem handleHistorical_done (h : Observing s) (hdone : s.request.phase = .done) :
    Observing (handleHistorical client s e) ∧
      (handleHistorical client s e).request.log = s.request.log := by
  have hsettle : ∀ otherUserId, RequestRun.settle
      { s with request := { s.request with otherUserId := otherUserId } } =
        { s with request := { s.request with otherUserId := otherUserId } } := by
    intro otherUserId
    rw [RequestRun.settle]
    rw [h.running]
  rw [handleHistorical]
  split
  · exact ⟨h, rfl⟩
  · dsimp only
    split
    · exact ⟨⟨h.verifier, h.running, h.phase⟩, rfl⟩
    · rw [RequestRun.handleEvent, if_pos (.inl hdone), hsettle]
      exact ⟨⟨h.verifier, h.running, h.phase⟩, rfl⟩

/-- **A historical event.** A request that is not done takes the event. -/
theorem handleHistorical_eq (h : Observing s) (hdone : s.request.phase ≠ .done)
    (hcancelled : s.request.phase ≠ .cancelled) :
    Observing (handleHistorical client s e) ∧
      ((handleHistorical client s e).request.otherUserId,
        (handleHistorical client s e).request.log) =
      takeEvent client.userId (s.request.otherUserId, s.request.log) e := by
  rw [handleHistorical, takeEvent]
  dsimp only
  split
  · exact ⟨h, rfl⟩
  · generalize adoptedUserId client.userId s.request.otherUserId e = otherUserId
    by_cases hforeign : isForeign client.userId otherUserId e
    · rw [if_pos hforeign, hforeign, Bool.true_or, if_pos rfl]
      exact ⟨⟨h.verifier, h.running, h.phase⟩, rfl⟩
    · rw [if_neg hforeign, Bool.eq_false_iff.2 hforeign, Bool.false_or]
      rw [RequestRun.handleEvent, if_neg (by rintro (h' | h') <;> contradiction)]
      have hobserving : (s.request.observeOnly || !false || e.expiring) = true := by
        rw [Bool.not_false, Bool.or_true, Bool.true_or]
      rw [hobserving, if_neg (fun hcontra => by cases hcontra.1)]
      generalize hrun : ({ s with request := { s.request with
        otherUserId := otherUserId, observeOnly := true } } : RequestRun) = r
      generalize hcall : HandleCall.mk e.type e.event false e.isRemoteEcho
        (decide (e.sender = client.userId)) e.expiring = call
      have hr : Observing r := by
        rw [← hrun]
        exact ⟨h.verifier, h.running, h.phase⟩
      have hdup : r.request.isDuplicateEvent call =
          if decide (e.sender = client.userId) then (s.request.log.eventsByUs.get e.type).isSome
          else (s.request.log.eventsByThem.get e.type).isSome := by
        rw [← hrun, ← hcall]
        rfl
      by_cases hnew : r.request.isDuplicateEvent call
      · rw [RequestRun.process, if_pos hnew, if_pos (hdup ▸ hnew), RequestRun.settle, hr.running]
        refine ⟨hr, ?_⟩
        rw [← hrun]
      · have hprocess := hr.process client.context call rfl
          (by rw [← hrun]) (by rw [← hcall]) (Bool.eq_false_iff.2 hnew)
        obtain ⟨hverifier, hrunning, huser, hlog, hphase⟩ := hprocess
        rw [if_neg (hdup ▸ hnew)]
        refine ⟨⟨hverifier, hrunning, by rw [hphase, hlog]⟩, ?_⟩
        rw [huser, hlog, ← hrun, ← hcall]
        rfl

end HandleHistorical

/-! ## The events of a transaction -/

namespace EventLog

variable {log : EventLog} {otherUserId : Option String} {type : VerificationType}
  {event : VerificationEvent}

theorem byUs_addEvent (isSentByUs : Bool) (type' : VerificationType) :
    (log.addEvent otherUserId type event isSentByUs).eventsByUs.get type' =
      if isSentByUs then (log.eventsByUs.set type event).get type'
      else log.eventsByUs.get type' := by
  rw [addEvent]
  cases isSentByUs with
  | true =>
    split
    · rfl
    · rfl
  | false =>
    split
    · rfl
    · rfl

/-- A request event leaves nothing on their side but what is of the other party. -/
theorem byThem_addEvent (isSentByUs : Bool) (type' : VerificationType)
    (event' : VerificationEvent) :
    (log.addEvent otherUserId type event isSentByUs).eventsByThem.get type' = some event' ↔
      (if isSentByUs then log.eventsByThem.get type'
        else (log.eventsByThem.set type event).get type') = some event' ∧
        (type = .request → some event'.sender = otherUserId) := by
  have hfilter : ∀ events : JsObject VerificationType VerificationEvent,
      (events.filter fun type =>
          (events.get type).map VerificationEvent.sender = otherUserId).get type' = some event' ↔
        events.get type' = some event' ∧ some event'.sender = otherUserId := by
    intro events
    rw [JsObject.get_filter]
    cases hget : events.get type' with
    | none =>
      rw [ite_self]
      constructor
      · intro hcontra
        cases hcontra
      · intro hcontra
        cases hcontra.1
    | some found =>
      rw [Option.map_some]
      by_cases huser : some found.sender = otherUserId
      · rw [if_pos (decide_eq_true huser)]
        constructor
        · intro heq
          obtain rfl := Option.some.inj heq
          exact ⟨rfl, huser⟩
        · exact fun h => h.1
      · rw [if_neg (fun hcontra => huser (of_decide_eq_true hcontra))]
        constructor
        · exact fun hcontra => by cases hcontra
        · rintro ⟨heq, hsender⟩
          obtain rfl := Option.some.inj heq
          exact absurd hsender huser
  rw [addEvent]
  by_cases htype : type = .request
  · rw [if_pos htype]
    cases isSentByUs with
    | true => exact (hfilter _).trans (and_congr_right fun _ => ⟨fun h _ => h, fun h => h htype⟩)
    | false => exact (hfilter _).trans (and_congr_right fun _ => ⟨fun h _ => h, fun h => h htype⟩)
  · rw [if_neg htype]
    cases isSentByUs with
    | true => exact (and_iff_left fun hcontra => absurd hcontra htype).symm
    | false => exact (and_iff_left fun hcontra => absurd hcontra htype).symm

theorem addEvent_flags (log : EventLog) (otherUserId : Option String) (type : VerificationType)
    (event : VerificationEvent) (isSentByUs : Bool) :
    (log.addEvent otherUserId type event isSentByUs).verifierHasFinished =
        log.verifierHasFinished ∧
      (log.addEvent otherUserId type event isSentByUs).cancelled = log.cancelled := by
  rw [addEvent]
  cases isSentByUs with
  | true =>
    split
    · exact ⟨rfl, rfl⟩
    · exact ⟨rfl, rfl⟩
  | false =>
    split
    · exact ⟨rfl, rfl⟩
    · exact ⟨rfl, rfl⟩

end EventLog

/-- The events of one transaction, and the other party if the channel knows it from the beginning.
The id of the transaction is that of the request event, which is between us and someone. -/
structure RoomTransaction (ownUserId : String) where
  events : List InRoomEvent
  otherUserId : Option String
  nodup : events.Nodup
  ids : ∀ e ∈ events, ∀ f ∈ events, e.event.id = f.event.id → e = f
  onePerSender : ∀ e ∈ events, ∀ f ∈ events, e.type = f.type → e.sender = f.sender → e = f
  noCancel : ∀ e ∈ events, e.type ≠ .cancel
  oneRequest : ∀ e ∈ events, ∀ f ∈ events, e.type = .request → f.type = .request → e = f
  party : ∀ e ∈ events, e.type = .request → (getOtherPartyUserId ownUserId e).isSome

namespace RoomTransaction

variable {ownUserId : String} (tx : RoomTransaction ownUserId)

/-- No other event of its type can be on the other side. -/
def Alone (e : InRoomEvent) : Prop :=
  ∀ f ∈ tx.events, f.type = e.type → f.sender ≠ ownUserId →
    (∀ u, tx.otherUserId = some u → f.sender = u) → f = e

/-- What is known of the events once those of a list have been taken. -/
structure Taken (l : List InRoomEvent) (otherUserId : Option String) (log : EventLog) : Prop where
  known : ∀ u, tx.otherUserId = some u → otherUserId = some u
  learnt : tx.otherUserId = none → ∀ e ∈ l, e.type = .request →
    otherUserId = getOtherPartyUserId ownUserId e
  unknown : tx.otherUserId = none → (∀ e ∈ l, e.type ≠ .request) → otherUserId = none
  finished : log.verifierHasFinished = false
  cancelled : log.cancelled = false
  us : ∀ type event, log.eventsByUs.get type = some event ↔
    ∃ e ∈ l, e.type = type ∧ e.event = event ∧ e.sender = ownUserId
  them_sound : ∀ type event, log.eventsByThem.get type = some event →
    ∃ e ∈ l, e.type = type ∧ e.event = event ∧ e.sender ≠ ownUserId ∧
      ∀ u, otherUserId = some u → e.sender = u
  them_alone : ∀ e ∈ l, e.sender ≠ ownUserId → (∀ u, otherUserId = some u → e.sender = u) →
    tx.Alone e → log.eventsByThem.get e.type = some e.event
  them_some : otherUserId = none → ∀ e ∈ l, e.sender ≠ ownUserId →
    (log.eventsByThem.get e.type).isSome

variable {tx} {l : List InRoomEvent} {otherUserId : Option String} {log : EventLog}
  {e : InRoomEvent}

theorem taken_nil : tx.Taken [] tx.otherUserId emptyLog where
  known _ h := h
  learnt _ _ h := absurd h List.not_mem_nil
  unknown h _ := h
  finished := rfl
  cancelled := rfl
  us type event := by
    constructor
    · intro h
      exact nomatch h
    · rintro ⟨e, hmem, -⟩
      exact absurd hmem List.not_mem_nil
  them_sound _ _ h := nomatch h
  them_alone _ h := absurd h List.not_mem_nil
  them_some _ _ h := absurd h List.not_mem_nil

namespace Taken

theorem hasEventId (h : tx.Taken l otherUserId log) (hl : ∀ f ∈ l, f ∈ tx.events)
    (he : e ∈ tx.events) (hnew : e ∉ l) : log.hasEventId e.event.id = false := by
  rw [EventLog.hasEventId, List.any_eq_false]
  rintro ⟨type, event⟩ hmem hid
  have hevent : ∃ f ∈ l, f.event = event := by
    rcases List.mem_append.1 hmem with hmem | hmem
    · obtain ⟨f, hf, -, hfe, -⟩ := (h.us type event).1 (JsObject.mem_entries.1 hmem)
      exact ⟨f, hf, hfe⟩
    · obtain ⟨f, hf, -, hfe, -⟩ := h.them_sound type event (JsObject.mem_entries.1 hmem)
      exact ⟨f, hf, hfe⟩
  obtain ⟨f, hf, rfl⟩ := hevent
  obtain rfl := tx.ids f (hl f hf) e he (of_decide_eq_true hid)
  exact hnew hf

/-- A channel that learns who the other party is, learns it from the request event. -/
theorem adopted (h : tx.Taken l otherUserId log) :
    adoptedUserId ownUserId otherUserId e = otherUserId ∨
      otherUserId = none ∧ e.type = .request ∧
        adoptedUserId ownUserId otherUserId e = getOtherPartyUserId ownUserId e := by
  cases otherUserId with
  | some u => exact .inl rfl
  | none =>
    by_cases htype : e.type = .request
    · exact .inr ⟨rfl, htype, rfl⟩
    · exact .inl (if_pos htype)

theorem sender_of_party {u : String} (h : getOtherPartyUserId ownUserId e = some u)
    (hsender : e.sender ≠ ownUserId) : u = e.sender := by
  rw [getOtherPartyUserId] at h
  by_cases htype : e.type ≠ .request
  · rw [if_pos htype] at h
    exact nomatch h
  · rw [if_neg htype, if_neg hsender] at h
    by_cases hreceiver : e.receiver = ownUserId
    · rw [if_pos hreceiver] at h
      exact (Option.some.inj h).symm
    · rw [if_neg hreceiver] at h
      exact nomatch h

/-- What is known of the other party goes on to hold. -/
theorem user (h : tx.Taken l otherUserId log) (hl : ∀ f ∈ l, f ∈ tx.events)
    (he : e ∈ tx.events) (hnew : e ∉ l) :
    let otherUserId' := adoptedUserId ownUserId otherUserId e
    (∀ u, tx.otherUserId = some u → otherUserId' = some u) ∧
      (tx.otherUserId = none → ∀ f ∈ l ++ [e], f.type = .request →
        otherUserId' = getOtherPartyUserId ownUserId f) ∧
      (tx.otherUserId = none → (∀ f ∈ l ++ [e], f.type ≠ .request) → otherUserId' = none) := by
  refine ⟨?_, ?_, ?_⟩
  · intro u hu
    rw [h.known u hu]
    rfl
  · intro hnone f hf htype
    rcases List.mem_append.1 hf with hf | hf
    · have hlearnt := h.learnt hnone f hf htype
      obtain ⟨u, hu⟩ := Option.isSome_iff_exists.1 (tx.party f (hl f hf) htype)
      rw [hlearnt, hu]
      rfl
    · obtain rfl := List.mem_singleton.1 hf
      have hno : ∀ g ∈ l, g.type ≠ .request := by
        intro g hg hgtype
        exact hnew (tx.oneRequest g (hl g hg) f he hgtype htype ▸ hg)
      rw [h.unknown hnone hno]
      rfl
  · intro hnone hno
    have hother := h.unknown hnone fun f hf => hno f (List.mem_append_left _ hf)
    rw [hother]
    exact if_pos (hno e (List.mem_append_right _ (List.mem_singleton.2 rfl)))

/-- The event is not added: it is foreign, or one of its type is there. -/
theorem drop (h : tx.Taken l otherUserId log) (hl : ∀ f ∈ l, f ∈ tx.events) (he : e ∈ tx.events)
    (hnew : e ∉ l) (hsender : e.sender ≠ ownUserId)
    (hdrop : isForeign ownUserId (adoptedUserId ownUserId otherUserId e) e = true ∨
      (log.eventsByThem.get e.type).isSome) :
    tx.Taken (l ++ [e]) (adoptedUserId ownUserId otherUserId e) log := by
  obtain ⟨hknown, hlearnt, hunknown⟩ := h.user hl he hnew
  -- an event that tells who the other party is, is neither
  have hsame : adoptedUserId ownUserId otherUserId e = otherUserId := by
    rcases h.adopted (e := e) with hsame | ⟨hnone, htype, hparty⟩
    · exact hsame
    · exfalso
      rcases hdrop with hforeign | hdup
      · obtain ⟨u, hu⟩ := Option.isSome_iff_exists.1 (tx.party e he htype)
        rw [hparty, hu, isForeign] at hforeign
        exact (of_decide_eq_true hforeign).2 (sender_of_party hu hsender).symm
      · obtain ⟨event, hevent⟩ := Option.isSome_iff_exists.1 hdup
        obtain ⟨f, hf, hftype, -⟩ := h.them_sound _ _ hevent
        exact hnew (tx.oneRequest f (hl f hf) e he (hftype.trans htype) htype ▸ hf)
  refine ⟨hknown, hlearnt, hunknown, h.finished, h.cancelled, ?_, ?_, ?_, ?_⟩
  · intro type event
    rw [h.us]
    constructor
    · rintro ⟨f, hf, hrest⟩
      exact ⟨f, List.mem_append_left _ hf, hrest⟩
    · rintro ⟨f, hf, hrest⟩
      rcases List.mem_append.1 hf with hf | hf
      · exact ⟨f, hf, hrest⟩
      · obtain rfl := List.mem_singleton.1 hf
        exact absurd hrest.2.2 hsender
  · intro type event hevent
    obtain ⟨f, hf, hrest⟩ := h.them_sound type event hevent
    rw [hsame]
    exact ⟨f, List.mem_append_left _ hf, hrest⟩
  · intro f hf hfsender huser halone
    rw [hsame] at huser
    rcases List.mem_append.1 hf with hf | hf
    · exact h.them_alone f hf hfsender huser halone
    · obtain rfl := List.mem_singleton.1 hf
      rcases hdrop with hforeign | hdup
      · rw [hsame] at hforeign
        cases hother : otherUserId with
        | none =>
          rw [hother] at hforeign
          exact nomatch hforeign
        | some u =>
          rw [hother] at hforeign
          exact absurd (huser u hother) (of_decide_eq_true hforeign).2
      · obtain ⟨event, hevent⟩ := Option.isSome_iff_exists.1 hdup
        obtain ⟨g, hg, hgtype, -, hgsender, hgparty⟩ := h.them_sound _ _ hevent
        have hgknown : ∀ u, tx.otherUserId = some u → g.sender = u := by
          intro u hu
          exact hgparty u (h.known u hu)
        exact absurd (halone g (hl g hg) hgtype hgsender hgknown ▸ hg) hnew
  · intro hnone f hf hfsender
    rw [hsame] at hnone
    rcases List.mem_append.1 hf with hf | hf
    · exact h.them_some hnone f hf hfsender
    · obtain rfl := List.mem_singleton.1 hf
      rcases hdrop with hforeign | hdup
      · rw [hsame, hnone] at hforeign
        exact nomatch hforeign
      · exact hdup

/-- Who the other party is, is known once a request event has come. -/
theorem adopted_of_request (otherUserId : Option String) (he : e ∈ tx.events)
    (htype : e.type = .request) :
    ∃ u, adoptedUserId ownUserId otherUserId e = some u := by
  cases otherUserId with
  | some u => exact ⟨u, rfl⟩
  | none => exact Option.isSome_iff_exists.1 (tx.party e he htype)

/-- What is there of the other side after an event has been added. -/
theorem add_sound (h : tx.Taken l otherUserId log) (isSentByUs : Bool)
    (hby : isSentByUs = decide (e.sender = ownUserId))
    (hforeign : isForeign ownUserId (adoptedUserId ownUserId otherUserId e) e = false)
    {type : VerificationType} {event : VerificationEvent}
    (hget : (log.addEvent (adoptedUserId ownUserId otherUserId e) e.type e.event
      isSentByUs).eventsByThem.get type = some event) :
    ∃ f ∈ l ++ [e], f.type = type ∧ f.event = event ∧ f.sender ≠ ownUserId ∧
      ∀ u, adoptedUserId ownUserId otherUserId e = some u → f.sender = u := by
  rw [EventLog.byThem_addEvent] at hget
  obtain ⟨hget, hpurged⟩ := hget
  have hold : log.eventsByThem.get type = some event →
      ∃ f ∈ l ++ [e], f.type = type ∧ f.event = event ∧ f.sender ≠ ownUserId ∧
        ∀ u, adoptedUserId ownUserId otherUserId e = some u → f.sender = u := by
    intro hold
    obtain ⟨f, hf, hftype, rfl, hsender, hparty⟩ := h.them_sound type event hold
    refine ⟨f, List.mem_append_left _ hf, hftype, rfl, hsender, ?_⟩
    intro u hu
    rcases h.adopted (e := e) with hsame | ⟨-, htype, -⟩
    · exact hparty u (hsame ▸ hu)
    · exact Option.some.inj ((hpurged htype).trans hu)
  cases isSentByUs with
  | true => exact hold hget
  | false =>
    replace hget : (log.eventsByThem.set e.type e.event).get type = some event := hget
    by_cases htype : type = e.type
    · rw [htype, JsObject.get_set_self] at hget
      have hsender : e.sender ≠ ownUserId := of_decide_eq_false hby.symm
      refine ⟨e, List.mem_append_right _ (List.mem_singleton.2 rfl), htype.symm,
        Option.some.inj hget, hsender, ?_⟩
      intro u hu
      rw [hu] at hforeign
      by_contra hne
      exact of_decide_eq_false hforeign ⟨hsender, hne⟩
    · rw [JsObject.get_set_ne htype] at hget
      exact hold hget

/-- An event of the other party is there after an event has been added, if none of its type can
have taken its place. -/
theorem add_alone (h : tx.Taken l otherUserId log) (he : e ∈ tx.events) (isSentByUs : Bool)
    (hby : isSentByUs = decide (e.sender = ownUserId))
    (hdup : isSentByUs = false → log.eventsByThem.get e.type = none) {f : InRoomEvent}
    (hf : f ∈ l ++ [e]) (hsender : f.sender ≠ ownUserId)
    (hparty : ∀ u, adoptedUserId ownUserId otherUserId e = some u → f.sender = u)
    (halone : tx.Alone f) : (log.addEvent (adoptedUserId ownUserId otherUserId e) e.type e.event
      isSentByUs).eventsByThem.get f.type = some f.event := by
  rw [EventLog.byThem_addEvent]
  refine ⟨?_, ?_⟩
  · rcases List.mem_append.1 hf with hf | hf
    · have hget : log.eventsByThem.get f.type = some f.event := by
        refine h.them_alone f hf hsender ?_ halone
        rintro u rfl
        exact hparty u rfl
      cases isSentByUs with
      | true => exact hget
      | false =>
        show (log.eventsByThem.set e.type e.event).get f.type = some f.event
        rw [JsObject.get_set_ne, hget]
        intro htype
        rw [htype, hdup rfl] at hget
        exact nomatch hget
    · obtain rfl := List.mem_singleton.1 hf
      rw [hby, decide_eq_false hsender]
      show (log.eventsByThem.set f.type f.event).get f.type = some f.event
      rw [JsObject.get_set_self]
  · intro htype
    obtain ⟨u, hu⟩ := adopted_of_request otherUserId he htype
    rw [hu, ← hparty u hu]
    rfl

/-- An event is added: it is not foreign, and the first of its type on the other side. -/
theorem add (h : tx.Taken l otherUserId log) (hl : ∀ f ∈ l, f ∈ tx.events) (he : e ∈ tx.events)
    (hnew : e ∉ l) (isSentByUs : Bool) (hby : isSentByUs = decide (e.sender = ownUserId))
    (hforeign : isForeign ownUserId (adoptedUserId ownUserId otherUserId e) e = false)
    (hdup : isSentByUs = false → log.eventsByThem.get e.type = none) :
    tx.Taken (l ++ [e]) (adoptedUserId ownUserId otherUserId e)
      (log.addEvent (adoptedUserId ownUserId otherUserId e) e.type e.event isSentByUs) := by
  obtain ⟨hknown, hlearnt, hunknown⟩ := h.user hl he hnew
  obtain ⟨hfinished, hcancelled⟩ := EventLog.addEvent_flags log
    (adoptedUserId ownUserId otherUserId e) e.type e.event isSentByUs
  refine ⟨hknown, hlearnt, hunknown, hfinished.trans h.finished, hcancelled.trans h.cancelled,
    ?_, fun _ _ hget => h.add_sound isSentByUs hby hforeign hget,
    fun f hf hsender hparty halone => h.add_alone he isSentByUs hby hdup hf hsender hparty halone,
    ?_⟩
  · intro type event
    rw [EventLog.byUs_addEvent]
    cases isSentByUs with
    | false =>
      rw [if_neg Bool.false_ne_true, h.us]
      constructor
      · rintro ⟨f, hf, hrest⟩
        exact ⟨f, List.mem_append_left _ hf, hrest⟩
      · rintro ⟨f, hf, hrest⟩
        rcases List.mem_append.1 hf with hf | hf
        · exact ⟨f, hf, hrest⟩
        · obtain rfl := List.mem_singleton.1 hf
          exact absurd hrest.2.2 (of_decide_eq_false hby.symm)
    | true =>
      have hsender : e.sender = ownUserId := of_decide_eq_true hby.symm
      rw [if_pos rfl]
      by_cases htype : type = e.type
      · rw [htype, JsObject.get_set_self]
        constructor
        · intro hevent
          exact ⟨e, List.mem_append_right _ (List.mem_singleton.2 rfl), rfl,
            Option.some.inj hevent, hsender⟩
        · rintro ⟨f, hf, hftype, rfl, hfsender⟩
          have hfe : f = e := by
            rcases List.mem_append.1 hf with hf | hf
            · exact tx.onePerSender f (hl f hf) e he hftype (hfsender.trans hsender.symm)
            · exact List.mem_singleton.1 hf
          rw [hfe]
      · rw [JsObject.get_set_ne htype, h.us]
        constructor
        · rintro ⟨f, hf, hrest⟩
          exact ⟨f, List.mem_append_left _ hf, hrest⟩
        · rintro ⟨f, hf, hrest⟩
          rcases List.mem_append.1 hf with hf | hf
          · exact ⟨f, hf, hrest⟩
          · obtain rfl := List.mem_singleton.1 hf
            exact absurd hrest.1.symm htype
  · intro hnone f hf hsender
    -- nobody is known yet, so the event is no request and takes nothing away
    have htype : e.type ≠ .request := by
      intro htype
      obtain ⟨u, hu⟩ := adopted_of_request otherUserId he htype
      exact nomatch hnone.symm.trans hu
    have hother : otherUserId = none := by
      rcases h.adopted (e := e) with hsame | ⟨hother, -⟩
      · exact hsame.symm.trans hnone
      · exact hother
    rw [EventLog.addEvent_of_ne htype]
    rcases List.mem_append.1 hf with hf | hf
    · have hsome := h.them_some hother f hf hsender
      cases isSentByUs with
      | true => exact hsome
      | false =>
        show ((log.eventsByThem.set e.type e.event).get f.type).isSome
        rw [JsObject.get_set_ne]
        · exact hsome
        · intro hcontra
          rw [hcontra, hdup rfl] at hsome
          exact nomatch hsome
    · obtain rfl := List.mem_singleton.1 hf
      rw [hby, decide_eq_false hsender]
      show ((log.eventsByThem.set f.type f.event).get f.type).isSome
      rw [JsObject.get_set_self]
      rfl

/-- **Taking an event.** -/
theorem step (h : tx.Taken l otherUserId log) (hl : ∀ f ∈ l, f ∈ tx.events) (he : e ∈ tx.events)
    (hnew : e ∉ l) : tx.Taken (l ++ [e]) (takeEvent ownUserId (otherUserId, log) e).1
      (takeEvent ownUserId (otherUserId, log) e).2 := by
  rw [takeEvent]
  dsimp only
  rw [h.hasEventId hl he hnew, if_neg Bool.false_ne_true]
  by_cases hsender : e.sender = ownUserId
  · have hforeign : isForeign ownUserId (adoptedUserId ownUserId otherUserId e) e = false := by
      cases adoptedUserId ownUserId otherUserId e with
      | some u => exact decide_eq_false fun hcontra => hcontra.1 hsender
      | none => rfl
    have hnone : log.eventsByUs.get e.type = none := by
      rw [Option.eq_none_iff_forall_ne_some]
      intro event hevent
      obtain ⟨f, hf, hftype, -, hfsender⟩ := (h.us e.type event).1 hevent
      have hfe := tx.onePerSender f (hl f hf) e he hftype (hfsender.trans hsender.symm)
      exact hnew (hfe ▸ hf)
    rw [decide_eq_true hsender, if_pos rfl, hforeign, hnone]
    exact h.add hl he hnew true (decide_eq_true hsender).symm hforeign
      (fun hcontra => nomatch hcontra)
  · rw [decide_eq_false hsender, if_neg Bool.false_ne_true]
    cases hdrop : isForeign ownUserId (adoptedUserId ownUserId otherUserId e) e ||
        (log.eventsByThem.get e.type).isSome with
    | true => exact h.drop hl he hnew hsender (Bool.or_eq_true _ _ |>.mp hdrop)
    | false =>
      obtain ⟨hforeign, hdup⟩ := Bool.or_eq_false_iff.1 hdrop
      exact h.add hl he hnew false (decide_eq_false hsender).symm hforeign
        (fun _ => Option.isSome_eq_false_iff.1 hdup |> Option.isNone_iff_eq_none.1)

end Taken

/-! ## Every order -/

namespace Taken

theorem not_isCancelled (h : tx.Taken l otherUserId log) (hl : ∀ f ∈ l, f ∈ tx.events) :
    ¬ log.IsCancelled := by
  rintro (hcancelled | hcancel)
  · exact nomatch hcancelled.symm.trans h.cancelled
  · obtain ⟨event, hevent⟩ := Option.isSome_iff_exists.1 hcancel
    rw [EventLog.getEventByEither, Option.or_eq_some_iff] at hevent
    rcases hevent with hevent | ⟨-, hevent⟩
    · obtain ⟨f, hf, hftype, -⟩ := h.them_sound _ _ hevent
      exact tx.noCancel f (hl f hf) hftype
    · obtain ⟨f, hf, hftype, -⟩ := (h.us _ _).1 hevent
      exact tx.noCancel f (hl f hf) hftype

theorem lastPhase_ne_cancelled (h : tx.Taken l otherUserId log) (hl : ∀ f ∈ l, f ∈ tx.events) :
    log.lastPhase false ≠ .cancelled := by
  have hc := h.not_isCancelled hl
  intro hphase
  by_cases hcompletes : log.Completes false
  · exact nomatch (EventLog.lastPhase_of_completes hcompletes).symm.trans hphase
  · by_cases hstarts : log.Starts false
    · exact nomatch (EventLog.lastPhase_of_starts hcompletes hc hstarts).symm.trans hphase
    · rw [EventLog.lastPhase_of_not_starts hcompletes hc hstarts] at hphase
      split at hphase
      · exact nomatch hphase
      · split at hphase
        · exact nomatch hphase
        · exact nomatch hphase

/-- What has come of a request event is there. -/
theorem request_mem (h : tx.Taken l otherUserId log) (hrequest : log.requestEvent.isSome) :
    ∃ r ∈ l, r.type = .request := by
  obtain ⟨event, hevent⟩ := Option.isSome_iff_exists.1 hrequest
  rw [EventLog.requestEvent, EventLog.getEventBy] at hevent
  split at hevent
  · obtain ⟨r, hr, htype, -⟩ := h.them_sound _ _ hevent
    exact ⟨r, hr, htype⟩
  · obtain ⟨r, hr, htype, -⟩ := (h.us _ _).1 hevent
    exact ⟨r, hr, htype⟩

/-- Without a request the events lead nowhere. -/
theorem not_starts (h : tx.Taken l otherUserId log) (hno : ∀ f ∈ l, f.type ≠ .request) :
    log.requestEvent = none ∧ log.readyEvent = none ∧ ¬ log.Starts false := by
  have hrequest : log.requestEvent = none := by
    rw [← Option.not_isSome_iff_eq_none]
    intro hsome
    obtain ⟨r, hr, htype⟩ := h.request_mem hsome
    exact hno r hr htype
  have hready := EventLog.readyEvent_of_requestEvent hrequest
  refine ⟨hrequest, hready, ?_⟩
  rintro ⟨event, -, hcond⟩
  rw [hready, hrequest] at hcond
  rcases hcond with hcond | hcond | hcond
  · exact nomatch hcond
  · exact nomatch hcond.1
  · exact nomatch hcond.2

theorem lastPhase_unsent (h : tx.Taken l otherUserId log) (hl : ∀ f ∈ l, f ∈ tx.events)
    (hno : ∀ f ∈ l, f.type ≠ .request) : log.lastPhase false = .unsent := by
  obtain ⟨hrequest, hready, hstarts⟩ := h.not_starts hno
  have hcompletes : ¬ log.Completes false := by
    rintro (hfinished | hdone)
    · exact nomatch hfinished.symm.trans h.finished
    · exact hstarts hdone.2
  rw [EventLog.lastPhase_of_not_starts hcompletes (h.not_isCancelled hl) hstarts, hready, hrequest]
  rfl

/-- Further events do not undo that the verification is over. -/
theorem done (h : tx.Taken l otherUserId log) (hl : ∀ f ∈ l, f ∈ tx.events) (he : e ∈ tx.events)
    (hnew : e ∉ l) (hdone : log.lastPhase false = .done) :
    (takeEvent ownUserId (otherUserId, log) e).2.lastPhase false = .done := by
  have htype : e.type ≠ .request := by
    intro htype
    have hno : ∀ f ∈ l, f.type ≠ .request := by
      intro f hf hftype
      exact hnew (tx.oneRequest f (hl f hf) e he hftype htype ▸ hf)
    exact nomatch (h.lastPhase_unsent hl hno).symm.trans hdone
  have hforward : Phase.Forward (log.lastPhase false)
      ((takeEvent ownUserId (otherUserId, log) e).2.lastPhase false) := by
    rcases takeEvent_log ownUserId otherUserId log e with hsame | ⟨hfirst, hadded⟩
    · rw [hsame]
      exact .refl _
    · rw [hadded]
      exact EventLog.Grows.forward (EventLog.grows_addEvent htype hfirst)
        (fun hc => absurd hc (h.not_isCancelled hl))
  rw [hdone] at hforward
  rcases hforward with heq | hlt
  · exact heq.symm
  · exfalso
    revert hlt
    cases (takeEvent ownUserId (otherUserId, log) e).2.lastPhase false with
    | _ => decide

end Taken

end RoomTransaction

/-- What events delivered in the order of a list lead to. -/
def deliver (client : RoomClient) (otherUserId : Option String) (l : List InRoomEvent) :
    RequestRun :=
  l.foldl (handleHistorical client) (requestSystem client.context otherUserId).init

/-- What there is to be taken of events delivered in the order of a list. -/
def take (ownUserId : String) (otherUserId : Option String) (l : List InRoomEvent) :
    Option String × EventLog :=
  l.foldl (takeEvent ownUserId) (otherUserId, emptyLog)

namespace RoomTransaction

variable {l : List InRoomEvent}

theorem taken_take {ownUserId : String} (tx : RoomTransaction ownUserId)
    (hl : ∀ f ∈ l, f ∈ tx.events) (hnodup : l.Nodup) :
    tx.Taken l (take ownUserId tx.otherUserId l).1
      (take ownUserId tx.otherUserId l).2 := by
  induction l using List.reverseRecOn with
  | nil => exact taken_nil
  | append_singleton l e ih =>
    obtain ⟨hnodup, -, hnew⟩ := List.nodup_append.1 hnodup
    have hl' : ∀ f ∈ l, f ∈ tx.events := fun f hf => hl f (List.mem_append_left _ hf)
    rw [take, List.foldl_append]
    refine (ih hl' hnodup).step hl'
      (hl e (List.mem_append_right _ (List.mem_singleton.2 rfl))) ?_
    intro hmem
    exact hnew e hmem e (List.mem_singleton.2 rfl) rfl

/-- **Delivering events.** The phase is where the events lead that have been taken, and as long as
the request is not done, these are all. -/
theorem delivered (client : RoomClient) (tx : RoomTransaction client.userId)
    (hl : ∀ f ∈ l, f ∈ tx.events) (hnodup : l.Nodup) :
    Observing (deliver client tx.otherUserId l) ∧
      (deliver client tx.otherUserId l).request.phase =
        (take client.userId tx.otherUserId l).2.lastPhase false ∧
      ∃ l₁, (∀ f ∈ l₁, f ∈ l) ∧ l₁.Nodup ∧ (deliver client tx.otherUserId l).request.log =
          (take client.userId tx.otherUserId l₁).2 ∧
        ((deliver client tx.otherUserId l).request.phase ≠ .done →
          ((deliver client tx.otherUserId l).request.otherUserId,
            (deliver client tx.otherUserId l).request.log) =
              take client.userId tx.otherUserId l) := by
  induction l using List.reverseRecOn with
  | nil =>
    exact ⟨⟨rfl, rfl, rfl⟩, rfl, [], fun _ hf => hf, List.nodup_nil, rfl, fun _ => rfl⟩
  | append_singleton l e ih =>
    have hl' : ∀ f ∈ l, f ∈ tx.events := fun f hf => hl f (List.mem_append_left _ hf)
    have he := hl e (List.mem_append_right _ (List.mem_singleton.2 rfl))
    obtain ⟨hnodup', -, hnew⟩ := List.nodup_append.1 hnodup
    have hnotin : e ∉ l := fun hmem => hnew e hmem e (List.mem_singleton.2 rfl) rfl
    obtain ⟨hobserving, hphase, l₁, hsub, hnodup₁, hlog, hall⟩ := ih hl' hnodup'
    have htaken := taken_take tx hl' hnodup'
    have hdeliver : deliver client tx.otherUserId (l ++ [e]) =
        handleHistorical client (deliver client tx.otherUserId l) e := by
      rw [deliver, List.foldl_append]
      rfl
    have htake : take client.userId tx.otherUserId (l ++ [e]) =
        takeEvent client.userId (take client.userId tx.otherUserId l) e := by
      rw [take, List.foldl_append]
      rfl
    rw [hdeliver, htake]
    by_cases hdone : (deliver client tx.otherUserId l).request.phase = .done
    · obtain ⟨hobserving', hlog'⟩ := handleHistorical_done client e hobserving hdone
      have hphase' : (handleHistorical client (deliver client tx.otherUserId l) e).request.phase =
          .done := by
        rw [hobserving'.phase, hlog', ← hobserving.phase, hdone]
      refine ⟨hobserving', ?_, l₁, fun f hf => List.mem_append_left _ (hsub f hf), hnodup₁,
        hlog'.trans hlog, fun hcontra => absurd hphase' hcontra⟩
      rw [hphase', htaken.done hl' he hnotin (hphase.symm.trans hdone)]
    · have hcancelled : (deliver client tx.otherUserId l).request.phase ≠ .cancelled := by
        rw [hphase]
        exact htaken.lastPhase_ne_cancelled hl'
      obtain ⟨hobserving', heq⟩ := handleHistorical_eq client e hobserving
        hdone hcancelled
      rw [hall hdone] at heq
      refine ⟨hobserving', ?_, l ++ [e], fun f hf => hf, hnodup, ?_, fun _ => heq⟩
      · rw [hobserving'.phase, ← heq]
      · rw [htake, ← heq]

end RoomTransaction

/-! ## What the phase depends on -/

namespace EventLog

variable {log log' : EventLog} {request : VerificationEvent}

/-- After a request, a start event counts in one of two ways: once the request has been answered,
that of either side, and before, that of the side that is to answer. -/
theorem starts_iff (hrequest : log.requestEvent = some request) :
    log.Starts false ↔
      (log.getEventBy .ready !log.hasRequestByThem).isSome ∧
          ((log.eventsByUs.get .start).isSome ∨ (log.eventsByThem.get .start).isSome) ∨
        (log.getEventBy .ready !log.hasRequestByThem) = none ∧
          ∃ event, log.getEventBy .start (!log.hasRequestByThem) = some event ∧
            event.sender ≠ request.sender := by
  have hready : log.readyEvent = log.getEventBy .ready !log.hasRequestByThem := by
    rw [readyEvent, hrequest]
    rfl
  rw [Starts, hready, hrequest]
  cases hanswer : log.getEventBy .ready !log.hasRequestByThem with
  | none =>
    have hstart : log.startEvent = log.getEventBy .start !log.hasRequestByThem := by
      rw [startEvent, hready, hanswer, hrequest]
      rfl
    rw [hstart]
    constructor
    · rintro ⟨event, hevent, hcond | hcond | hcond⟩
      · cases hcond
      · refine .inr ⟨rfl, event, hevent, ?_⟩
        intro hsender
        exact hcond.2 (congrArg some hsender.symm)
      · cases hcond.2
    · rintro (hcond | ⟨-, event, hevent, hsender⟩)
      · cases hcond.1
      · refine ⟨event, hevent, .inr (.inl ⟨rfl, ?_⟩)⟩
        intro hcontra
        exact hsender (Option.some.inj hcontra).symm
  | some ready =>
    have hanswered : (log.readyEvent.isSome || log.requestEvent.isNone) = true := by
      rw [hready, hanswer]
      rfl
    constructor
    · rintro ⟨event, hevent, -⟩
      refine .inl ⟨rfl, ?_⟩
      obtain ⟨byThem, event', hevent'⟩ :=
        Grows.exists_start (Option.isSome_iff_exists.2 ⟨event, hevent⟩)
      cases byThem with
      | true => exact .inr (Option.isSome_iff_exists.2 ⟨event', hevent'⟩)
      | false => exact .inl (Option.isSome_iff_exists.2 ⟨event', hevent'⟩)
    · rintro (⟨-, hstart⟩ | ⟨hcontra, -⟩)
      · have hsome : log.startEvent.isSome := by
          rcases hstart with hstart | hstart
          · obtain ⟨event, hevent⟩ := Option.isSome_iff_exists.1 hstart
            exact Grows.startEvent_isSome hanswered
              (show log.getEventBy .start false = some event from hevent)
          · obtain ⟨event, hevent⟩ := Option.isSome_iff_exists.1 hstart
            exact Grows.startEvent_isSome hanswered
              (show log.getEventBy .start true = some event from hevent)
        obtain ⟨event, hevent⟩ := Option.isSome_iff_exists.1 hsome
        exact ⟨event, hevent, .inl rfl⟩
      · cases hcontra

/-- Two sets of events lead to the same phase if a start event counts in both or in neither, and in
the latter case the request has been answered in both or in neither. -/
theorem lastPhase_eq_iff (hfinished : log.verifierHasFinished = false)
    (hfinished' : log'.verifierHasFinished = false) (hc : ¬ log.IsCancelled)
    (hc' : ¬ log'.IsCancelled)
    (hdone : (log.eventsByUs.get .done).isSome = (log'.eventsByUs.get .done).isSome)
    (hrequest : log.requestEvent.isSome = log'.requestEvent.isSome) :
    log.lastPhase false = log'.lastPhase false ↔
      (log.Starts false ↔ log'.Starts false) ∧
        (¬ log.Starts false → log.readyEvent.isSome = log'.readyEvent.isSome) := by
  have hcompletes : ∀ g : EventLog, g.verifierHasFinished = false →
      (g.Completes false ↔ (g.eventsByUs.get .done).isSome ∧ g.Starts false) := by
    intro g hg
    rw [Completes, hg]
    exact or_iff_right Bool.false_ne_true
  -- what does not start leads no further than to an answer
  have hphase : ∀ g : EventLog, g.verifierHasFinished = false → ¬ g.IsCancelled →
      (g.Starts false → g.lastPhase false =
        if (g.eventsByUs.get .done).isSome then .done else .started) ∧
      (¬ g.Starts false → g.lastPhase false = if g.readyEvent.isSome then .ready
        else if g.requestEvent.isSome then .requested else .unsent) := by
    intro g hg hgc
    constructor
    · intro hstarts
      by_cases hgdone : (g.eventsByUs.get .done).isSome
      · rw [if_pos hgdone, lastPhase_of_completes ((hcompletes g hg).2 ⟨hgdone, hstarts⟩)]
      · rw [if_neg hgdone,
          lastPhase_of_starts (fun hcontra => hgdone ((hcompletes g hg).1 hcontra).1) hgc hstarts]
    · intro hstarts
      exact lastPhase_of_not_starts (fun hcontra => hstarts ((hcompletes g hg).1 hcontra).2) hgc
        hstarts
  have hne : ∀ (a b c : Bool), (if a then Phase.done else .started) ≠
      if b then .ready else if c then .requested else .unsent := by
    decide
  by_cases hs : log.Starts false
  · by_cases hs' : log'.Starts false
    · rw [(hphase log hfinished hc).1 hs, (hphase log' hfinished' hc').1 hs', hdone]
      exact ⟨fun _ => ⟨⟨fun _ => hs', fun _ => hs⟩, fun hcontra => absurd hs hcontra⟩, fun _ => rfl⟩
    · rw [(hphase log hfinished hc).1 hs, (hphase log' hfinished' hc').2 hs']
      exact ⟨fun hcontra => absurd hcontra (hne _ _ _), fun hcontra => absurd (hcontra.1.1 hs) hs'⟩
  · by_cases hs' : log'.Starts false
    · rw [(hphase log hfinished hc).2 hs, (hphase log' hfinished' hc').1 hs']
      exact ⟨fun hcontra => absurd hcontra.symm (hne _ _ _),
        fun hcontra => absurd (hcontra.1.2 hs') hs⟩
    · rw [(hphase log hfinished hc).2 hs, (hphase log' hfinished' hc').2 hs', hrequest]
      have hready : ∀ (a b c : Bool), (if a then Phase.ready else if c then .requested
          else .unsent) = (if b then .ready else if c then .requested else .unsent) ↔ a = b := by
        decide
      rw [hready]
      exact ⟨fun heq => ⟨⟨fun hcontra => absurd hcontra hs, fun hcontra => absurd hcontra hs'⟩,
        fun _ => heq⟩, fun h => h.2 hs⟩

end EventLog

namespace RoomTransaction

variable {ownUserId : String} (tx : RoomTransaction ownUserId)

/-! ## Displaced events -/

def Sent (userId : String) (type : VerificationType) : Prop :=
  ∃ e ∈ tx.events, e.type = type ∧ e.sender = userId

/-- The other party, of whom the channel has to learn from the request event. -/
def IsParty (userId : String) : Prop :=
  tx.otherUserId = none ∧
    ∃ r ∈ tx.events, r.type = .request ∧ getOtherPartyUserId ownUserId r = some userId

/-- There is an event of the other party, and one of the same type by somebody else. -/
def Displaced (userId : String) (type : VerificationType) : Prop :=
  userId ≠ ownUserId ∧ tx.Sent userId type ∧
    ∃ f ∈ tx.events, f.type = type ∧ f.sender ≠ ownUserId ∧ f.sender ≠ userId

/-- What somebody else has sent does not matter. If the request is ours, the answer is not
displaced, or the other party's start event shows all the same that there is one; and their start
event is not displaced, or we have sent one as well, and the answer is there. If the request is
theirs, their start event is not displaced, or else we have not answered yet or have sent one as
well. -/
def Undisturbed : Prop :=
  ∀ userId, tx.IsParty userId →
    (tx.Sent ownUserId .request →
      (tx.Displaced userId .ready → tx.Sent userId .start ∧ ¬ tx.Displaced userId .start) ∧
        (tx.Displaced userId .start → tx.Sent userId .ready ∧ tx.Sent ownUserId .start)) ∧
    (tx.Sent userId .request → tx.Displaced userId .start → tx.Sent ownUserId .ready →
      tx.Sent ownUserId .start)

variable {tx} {l : List InRoomEvent} {otherUserId : Option String} {log : EventLog}
  {e r : InRoomEvent} {userId : String} {type : VerificationType} {event : VerificationEvent}

theorem isParty_iff (hnone : tx.otherUserId = none) (hr : r ∈ tx.events)
    (htype : r.type = .request) :
    tx.IsParty userId ↔ getOtherPartyUserId ownUserId r = some userId := by
  constructor
  · rintro ⟨-, r', hr', htype', hparty⟩
    rw [tx.oneRequest r hr r' hr' htype htype', hparty]
  · exact fun hparty => ⟨hnone, r, hr, htype, hparty⟩

namespace Taken

section Complete

variable (h : tx.Taken l otherUserId log) (hl : ∀ f, f ∈ l ↔ f ∈ tx.events)

include h hl

theorem byUs_isSome (type : VerificationType) :
    (log.eventsByUs.get type).isSome ↔ tx.Sent ownUserId type := by
  rw [Option.isSome_iff_exists]
  constructor
  · rintro ⟨event, hevent⟩
    obtain ⟨f, hf, hftype, -, hsender⟩ := (h.us type event).1 hevent
    exact ⟨f, (hl f).1 hf, hftype, hsender⟩
  · rintro ⟨f, hf, hftype, hsender⟩
    exact ⟨f.event, (h.us type f.event).2 ⟨f, (hl f).2 hf, hftype, rfl, hsender⟩⟩

/-- Nothing but what the other party has sent is left. -/
theorem byThem_sent (hparty : tx.IsParty userId) {type : VerificationType}
    (hsome : (log.eventsByThem.get type).isSome) : userId ≠ ownUserId ∧ tx.Sent userId type := by
  obtain ⟨hnone, r, hr, htype, hparty⟩ := hparty
  obtain ⟨event, hevent⟩ := Option.isSome_iff_exists.1 hsome
  obtain ⟨f, hf, hftype, -, hsender, hfparty⟩ := h.them_sound type event hevent
  have huser : f.sender = userId :=
    hfparty userId ((h.learnt hnone r ((hl r).2 hr) htype).trans hparty)
  exact ⟨huser ▸ hsender, f, (hl f).1 hf, hftype, huser⟩

/-- What the other party has sent is there unless it is displaced. -/
theorem byThem_isSome (hparty : tx.IsParty userId) {type : VerificationType}
    (hne : userId ≠ ownUserId) (hsent : tx.Sent userId type)
    (hkept : ¬ tx.Displaced userId type) : (log.eventsByThem.get type).isSome := by
  obtain ⟨hnone, r, hr, htype, hparty⟩ := hparty
  obtain ⟨e, he, rfl, rfl⟩ := hsent
  have hother := (h.learnt hnone r ((hl r).2 hr) htype).trans hparty
  rw [h.them_alone e ((hl e).2 he) hne]
  · rfl
  · intro u hu
    exact Option.some.inj (hother.symm.trans hu)
  · intro f hf hftype hfsender _
    by_contra hfe
    refine hkept ⟨hne, ⟨e, he, rfl, rfl⟩, f, hf, hftype, hfsender, ?_⟩
    intro hsame
    exact hfe (tx.onePerSender f hf e he hftype hsame)

/-- We have sent the request, and the other party is to answer. -/
theorem starts_of_ours (hr : r ∈ tx.events) (htype : r.type = .request)
    (hsender : r.sender = ownUserId) :
    log.requestEvent.isSome ∧
    (log.Starts false ↔ (log.eventsByThem.get .ready).isSome ∧ tx.Sent ownUserId .start ∨
      (log.eventsByThem.get .start).isSome) ∧
    log.readyEvent.isSome = (log.eventsByThem.get .ready).isSome := by
  have hthem : log.eventsByThem.get .request = none := by
    rw [Option.eq_none_iff_forall_ne_some]
    intro event hevent
    obtain ⟨f, hf, hftype, -, hfsender, -⟩ := h.them_sound _ _ hevent
    rw [tx.oneRequest f ((hl f).1 hf) r hr hftype htype] at hfsender
    exact hfsender hsender
  have hby : log.hasRequestByThem = false := by
    rw [EventLog.hasRequestByThem, hthem]
    rfl
  have hrequest : log.requestEvent = some r.event := by
    rw [EventLog.requestEvent, hby]
    exact (h.us _ _).2 ⟨r, (hl r).2 hr, htype, rfl, hsender⟩
  have hstart : (∃ event, log.eventsByThem.get .start = some event ∧
      event.sender ≠ r.event.sender) ↔ (log.eventsByThem.get .start).isSome := by
    rw [Option.isSome_iff_exists]
    constructor
    · rintro ⟨event, hevent, -⟩
      exact ⟨event, hevent⟩
    · rintro ⟨event, hevent⟩
      obtain ⟨f, -, -, rfl, hfsender, -⟩ := h.them_sound _ _ hevent
      refine ⟨f.event, hevent, ?_⟩
      intro hsame
      exact hfsender (hsame.trans hsender)
  refine ⟨by rw [hrequest]; rfl, ?_, ?_⟩
  · rw [EventLog.starts_iff hrequest, hby, h.byUs_isSome hl]
    show (log.eventsByThem.get .ready).isSome ∧ _ ∨ log.eventsByThem.get .ready = none ∧
      (∃ event, log.eventsByThem.get .start = some event ∧ _) ↔ _
    rw [hstart, ← Option.not_isSome_iff_eq_none]
    tauto
  · rw [EventLog.readyEvent, hrequest, hby]
    rfl

/-- The other party has sent the request, and we are to answer. -/
theorem starts_of_theirs (hnone : tx.otherUserId = none) (hr : r ∈ tx.events)
    (htype : r.type = .request) (hsender : r.sender ≠ ownUserId) :
    log.requestEvent.isSome ∧
    (log.Starts false ↔ tx.Sent ownUserId .start ∨
      tx.Sent ownUserId .ready ∧ (log.eventsByThem.get .start).isSome) ∧
    (log.readyEvent.isSome ↔ tx.Sent ownUserId .ready) := by
  obtain ⟨userId, hparty⟩ := Option.isSome_iff_exists.1 (tx.party r hr htype)
  have huser := sender_of_party hparty hsender
  have hthem : log.eventsByThem.get .request = some r.event := by
    rw [← htype]
    refine h.them_alone r ((hl r).2 hr) hsender ?_ ?_
    · intro u hu
      rw [h.learnt hnone r ((hl r).2 hr) htype, hparty, huser] at hu
      exact Option.some.inj hu
    · intro f hf hftype _ _
      exact tx.oneRequest f hf r hr (hftype.trans htype) htype
  have hby : log.hasRequestByThem = true := by
    rw [EventLog.hasRequestByThem, hthem]
    rfl
  have hrequest : log.requestEvent = some r.event := by
    rw [EventLog.requestEvent, hby]
    exact hthem
  have hstart : (∃ event, log.eventsByUs.get .start = some event ∧
      event.sender ≠ r.event.sender) ↔ (log.eventsByUs.get .start).isSome := by
    rw [Option.isSome_iff_exists]
    constructor
    · rintro ⟨event, hevent, -⟩
      exact ⟨event, hevent⟩
    · rintro ⟨event, hevent⟩
      obtain ⟨f, -, -, rfl, hfsender⟩ := (h.us _ _).1 hevent
      refine ⟨f.event, hevent, ?_⟩
      intro hsame
      exact hsender (hsame.symm.trans hfsender)
  refine ⟨by rw [hrequest]; rfl, ?_, ?_⟩
  · rw [EventLog.starts_iff hrequest, hby]
    show (log.eventsByUs.get .ready).isSome ∧ _ ∨ log.eventsByUs.get .ready = none ∧
      (∃ event, log.eventsByUs.get .start = some event ∧ _) ↔ _
    rw [hstart, ← Option.not_isSome_iff_eq_none, h.byUs_isSome hl, h.byUs_isSome hl]
    tauto
  · rw [← h.byUs_isSome hl, EventLog.readyEvent, hrequest, hby]
    rfl

end Complete

/-- **What somebody else has sent does not matter.** -/
theorem lastPhase_eq {l' : List InRoomEvent} {otherUserId' : Option String} {log' : EventLog}
    (h : tx.Taken l otherUserId log) (hl : ∀ f, f ∈ l ↔ f ∈ tx.events)
    (h' : tx.Taken l' otherUserId' log') (hl' : ∀ f, f ∈ l' ↔ f ∈ tx.events)
    (hundisturbed : tx.Undisturbed) : log.lastPhase false = log'.lastPhase false := by
  have hc := h.not_isCancelled fun f hf => (hl f).1 hf
  have hc' := h'.not_isCancelled fun f hf => (hl' f).1 hf
  have hdone : (log.eventsByUs.get .done).isSome = (log'.eventsByUs.get .done).isSome := by
    rw [Bool.eq_iff_iff, h.byUs_isSome hl, h'.byUs_isSome hl']
  cases hknown : tx.otherUserId with
  | some u =>
    -- the events are the same
    refine EventLog.lastPhase_congr ?_ ?_ (h.finished.trans h'.finished.symm)
      (h.cancelled.trans h'.cancelled.symm)
    · intro type _
      apply Option.ext
      intro event
      rw [h.us, h'.us]
      simp only [hl, hl']
    · intro type _
      have hthem : ∀ {l : List InRoomEvent} {otherUserId : Option String} {log : EventLog},
          tx.Taken l otherUserId log → (∀ f, f ∈ l ↔ f ∈ tx.events) → ∀ event,
          (log.eventsByThem.get type = some event ↔ ∃ f ∈ tx.events, f.type = type ∧
            f.event = event ∧ f.sender ≠ ownUserId ∧ f.sender = u) := by
        intro l otherUserId log h hl event
        have hother := h.known u hknown
        constructor
        · intro hevent
          obtain ⟨f, hf, hftype, hfe, hsender, hparty⟩ := h.them_sound type event hevent
          exact ⟨f, (hl f).1 hf, hftype, hfe, hsender, hparty u hother⟩
        · rintro ⟨f, hf, rfl, rfl, hsender, hparty⟩
          refine h.them_alone f ((hl f).2 hf) hsender ?_ ?_
          · intro v hv
            exact hparty.trans (Option.some.inj (hother.symm.trans hv))
          · intro g hg hgtype hgsender hgparty
            exact tx.onePerSender g hg f hf hgtype ((hgparty u hknown).trans hparty.symm)
      apply Option.ext
      intro event
      rw [hthem h hl, hthem h' hl']
  | none =>
    by_cases hexists : ∃ r ∈ tx.events, r.type = .request
    · obtain ⟨r, hr, htype⟩ := hexists
      obtain ⟨userId, hparty⟩ := Option.isSome_iff_exists.1 (tx.party r hr htype)
      have hisParty := (isParty_iff hknown hr htype).2 hparty
      obtain ⟨hours, htheirs⟩ := hundisturbed userId hisParty
      -- their events are those that they have sent but for the displaced ones
      have hkept : ∀ type, tx.Displaced userId type ∨
          ((log.eventsByThem.get type).isSome ↔ (log'.eventsByThem.get type).isSome) := by
        intro type
        by_cases hdisplaced : tx.Displaced userId type
        · exact .inl hdisplaced
        · refine .inr ⟨?_, ?_⟩
          · intro hsome
            obtain ⟨hne, hsent⟩ := h.byThem_sent hl hisParty hsome
            exact h'.byThem_isSome hl' hisParty hne hsent hdisplaced
          · intro hsome
            obtain ⟨hne, hsent⟩ := h'.byThem_sent hl' hisParty hsome
            exact h.byThem_isSome hl hisParty hne hsent hdisplaced
      by_cases hsender : r.sender = ownUserId
      · obtain ⟨hrequest, hstarts, hready⟩ := h.starts_of_ours hl hr htype hsender
        obtain ⟨hrequest', hstarts', hready'⟩ := h'.starts_of_ours hl' hr htype hsender
        rw [EventLog.lastPhase_eq_iff h.finished h'.finished hc hc' hdone
          (hrequest.trans hrequest'.symm), hstarts, hstarts', hready, hready']
        obtain ⟨hanswer, hstart⟩ := hours ⟨r, hr, htype, hsender⟩
        by_cases hdisplacedReady : tx.Displaced userId .ready
        · -- their start event is there in both
          obtain ⟨hsent, hkeptStart⟩ := hanswer hdisplacedReady
          have hsome := h.byThem_isSome hl hisParty hdisplacedReady.1 hsent hkeptStart
          have hsome' := h'.byThem_isSome hl' hisParty hdisplacedReady.1 hsent hkeptStart
          exact ⟨⟨fun _ => .inr hsome', fun _ => .inr hsome⟩,
            fun hcontra => absurd (.inr hsome) hcontra⟩
        · have hsame := (hkept .ready).resolve_left hdisplacedReady
          refine ⟨?_, fun _ => Bool.eq_iff_iff.2 hsame⟩
          by_cases hdisplacedStart : tx.Displaced userId .start
          · -- our start event and their answer are there in both
            obtain ⟨hsent, hsentStart⟩ := hstart hdisplacedStart
            have hsome := h.byThem_isSome hl hisParty hdisplacedStart.1 hsent hdisplacedReady
            exact ⟨fun _ => .inl ⟨hsame.1 hsome, hsentStart⟩, fun _ => .inl ⟨hsome, hsentStart⟩⟩
          · rw [hsame, (hkept .start).resolve_left hdisplacedStart]
      · obtain ⟨hrequest, hstarts, hready⟩ := h.starts_of_theirs hl hknown hr htype hsender
        obtain ⟨hrequest', hstarts', hready'⟩ := h'.starts_of_theirs hl' hknown hr htype hsender
        rw [EventLog.lastPhase_eq_iff h.finished h'.finished hc hc' hdone
          (hrequest.trans hrequest'.symm), hstarts, hstarts']
        refine ⟨?_, fun _ => Bool.eq_iff_iff.2 (hready.trans hready'.symm)⟩
        by_cases hdisplaced : tx.Displaced userId .start
        · -- we have not answered, or we have sent a start event
          have hstart := htheirs ⟨r, hr, htype, (sender_of_party hparty hsender).symm⟩ hdisplaced
          constructor
          · rintro (hours | ⟨hsent, -⟩)
            · exact .inl hours
            · exact .inl (hstart hsent)
          · rintro (hours | ⟨hsent, -⟩)
            · exact .inl hours
            · exact .inl (hstart hsent)
        · rw [(hkept .start).resolve_left hdisplaced]
    · have hno : ∀ f ∈ tx.events, f.type ≠ .request := fun f hf htype => hexists ⟨f, hf, htype⟩
      rw [h.lastPhase_unsent (fun f hf => (hl f).1 hf) fun f hf => hno f ((hl f).1 hf),
        h'.lastPhase_unsent (fun f hf => (hl' f).1 hf) fun f hf => hno f ((hl' f).1 hf)]

end Taken

/-! ## The two extreme orders -/

/-- The request event before everything else. -/
def requestFirst (tx : RoomTransaction ownUserId) (r : InRoomEvent) : List InRoomEvent :=
  r :: tx.events.erase r

theorem requestFirst_perm (hr : r ∈ tx.events) : (tx.requestFirst r).Perm tx.events :=
  (List.perm_cons_erase hr).symm

/-- If the request event comes first, everything that the other party has sent is there. -/
theorem byThem_requestFirst (hr : r ∈ tx.events)
    (hparty : getOtherPartyUserId ownUserId r = some userId) (hne : userId ≠ ownUserId)
    (hsent : tx.Sent userId type) :
    ((take ownUserId none (tx.requestFirst r)).2.eventsByThem.get type).isSome := by
  -- as if the channel had always known
  let tx' : RoomTransaction ownUserId := { tx with otherUserId := some userId }
  have hsame : take ownUserId none (tx.requestFirst r) =
      take ownUserId tx'.otherUserId (tx.requestFirst r) := by
    have hfirst : takeEvent ownUserId (none, emptyLog) r =
        takeEvent ownUserId (some userId, emptyLog) r := by
      have hadopted : adoptedUserId ownUserId none r = some userId := hparty
      rw [takeEvent, takeEvent]
      rw [hadopted]
      rfl
    rw [take, take, requestFirst, List.foldl_cons, List.foldl_cons, hfirst]
  have hperm := requestFirst_perm hr
  have htaken : tx'.Taken (tx.requestFirst r) _ _ :=
    taken_take tx' (fun f hf => hperm.subset hf) (hperm.nodup_iff.2 tx.nodup)
  obtain ⟨e, he, rfl, rfl⟩ := hsent
  rw [hsame, htaken.them_alone e (hperm.symm.subset he) hne]
  · rfl
  · intro u hu
    exact Option.some.inj ((htaken.known e.sender rfl).symm.trans hu)
  · intro f hf hftype _ hfparty
    exact tx.onePerSender f hf e he hftype (hfparty e.sender rfl)

/-- The events of those who have no part first, and the request event after everything else. -/
def requestLast (tx : RoomTransaction ownUserId) (userId : String) (r : InRoomEvent) :
    List InRoomEvent :=
  ((tx.events.erase r).filter fun e => e.sender ≠ ownUserId ∧ e.sender ≠ userId) ++
    ((tx.events.erase r).filter fun e => !decide (e.sender ≠ ownUserId ∧ e.sender ≠ userId)) ++ [r]

theorem requestLast_perm (hr : r ∈ tx.events) : (tx.requestLast userId r).Perm tx.events :=
  ((List.filter_append_perm _ _).append_right [r]).trans
    ((List.perm_append_singleton r _).trans (List.perm_cons_erase hr).symm)

/-- An event that is no request takes nothing away. -/
theorem takeEvent_keeps (htype : e.type ≠ .request)
    (hget : log.eventsByThem.get type = some event) :
    (takeEvent ownUserId (otherUserId, log) e).2.eventsByThem.get type = some event := by
  rcases takeEvent_log ownUserId otherUserId log e with hsame | ⟨hfirst, hadded⟩
  · rw [hsame, hget]
  · rw [hadded]
    exact (EventLog.grows_addEvent htype hfirst).byThem _ _ hget

theorem foldl_keeps {taken : Option String × EventLog} (hno : ∀ f ∈ l, f.type ≠ .request)
    (hget : taken.2.eventsByThem.get type = some event) :
    (l.foldl (takeEvent ownUserId) taken).2.eventsByThem.get type = some event := by
  induction l generalizing taken with
  | nil => exact hget
  | cons e l ih =>
    exact ih (fun f hf => hno f (List.mem_cons_of_mem e hf))
      (takeEvent_keeps (hno e List.mem_cons_self) hget)

/-- What is there of another type than the event, has been there before. -/
theorem takeEvent_byThem (hne : type ≠ e.type)
    (hget : (takeEvent ownUserId (otherUserId, log) e).2.eventsByThem.get type = some event) :
    log.eventsByThem.get type = some event := by
  rcases takeEvent_log ownUserId otherUserId log e with hsame | ⟨-, hadded⟩
  · rwa [hsame] at hget
  · rw [hadded, EventLog.byThem_addEvent] at hget
    replace hget := hget.1
    split at hget
    · exact hget
    · rwa [JsObject.get_set_ne hne] at hget

/-- If the request event comes last, the displaced events are missing. -/
theorem byThem_requestLast (hnone : tx.otherUserId = none) (hr : r ∈ tx.events)
    (htype : r.type = .request) (hparty : getOtherPartyUserId ownUserId r = some userId)
    (hdisplaced : tx.Displaced userId type) :
    (take ownUserId none (tx.requestLast userId r)).2.eventsByThem.get type = none := by
  obtain ⟨hne, -, f, hf, rfl, hfown, hfuser⟩ := hdisplaced
  have hperm : (tx.requestLast userId r).Perm tx.events := requestLast_perm hr
  have hnodup := hperm.nodup_iff.2 tx.nodup
  have hno : ∀ g ∈ tx.events.erase r, g.type ≠ .request := by
    intro g hg hgtype
    have hgr := tx.oneRequest g (List.mem_of_mem_erase hg) r hr hgtype htype
    exact List.Nodup.not_mem_erase tx.nodup (hgr ▸ hg)
  have hfr : f ≠ r := by
    rintro rfl
    exact hfuser (Taken.sender_of_party hparty hfown).symm
  have hftype : f.type ≠ r.type := by
    intro hsame
    exact hfr (tx.oneRequest f hf r hr (hsame.trans htype) htype)
  rw [requestLast] at hperm hnodup ⊢
  generalize hforeign : ((tx.events.erase r).filter fun e =>
    e.sender ≠ ownUserId ∧ e.sender ≠ userId) = foreign at hperm hnodup ⊢
  generalize hothers : ((tx.events.erase r).filter fun e =>
    !decide (e.sender ≠ ownUserId ∧ e.sender ≠ userId)) = others at hperm hnodup ⊢
  have hmem : ∀ g ∈ foreign, g ∈ tx.events.erase r ∧ g.sender ≠ userId := by
    intro g hg
    rw [← hforeign, List.mem_filter] at hg
    exact ⟨hg.1, (of_decide_eq_true hg.2).2⟩
  -- the event of somebody else is there at first
  have hfirst : tx.Taken foreign (take ownUserId tx.otherUserId foreign).1
      (take ownUserId tx.otherUserId foreign).2 :=
    taken_take tx (fun g hg => List.mem_of_mem_erase (hmem g hg).1)
      (List.nodup_append.1 (List.nodup_append.1 hnodup).1).1
  have hunknown := hfirst.unknown hnone fun g hg => hno g (hmem g hg).1
  have hthere := hfirst.them_some hunknown f (by
    rw [← hforeign, List.mem_filter]
    exact ⟨(List.mem_erase_of_ne hfr).2 hf, decide_eq_true ⟨hfown, hfuser⟩⟩) hfown
  obtain ⟨event, hevent⟩ := Option.isSome_iff_exists.1 hthere
  obtain ⟨g, hg, -, hgevent, -⟩ := hfirst.them_sound _ _ hevent
  -- it stays until the request event comes
  have hkept : (take ownUserId none (foreign ++ others)).2.eventsByThem.get f.type =
      some event := by
    rw [take, List.foldl_append]
    rw [hnone] at hevent
    refine foldl_keeps ?_ hevent
    intro h hh
    rw [← hothers, List.mem_filter] at hh
    exact hno h hh.1
  rw [Option.eq_none_iff_forall_ne_some]
  intro event' hevent'
  have hlast : tx.Taken (foreign ++ others ++ [r])
      (take ownUserId tx.otherUserId (foreign ++ others ++ [r])).1
      (take ownUserId tx.otherUserId (foreign ++ others ++ [r])).2 :=
    taken_take tx (fun g hg => hperm.subset hg) hnodup
  rw [hnone] at hlast
  obtain ⟨g', -, -, hgevent', -, huser⟩ := hlast.them_sound _ _ hevent'
  have hsender : g'.sender = userId := by
    refine huser userId ((hlast.learnt hnone r ?_ htype).trans hparty)
    exact List.mem_append_right _ (List.mem_singleton.2 rfl)
  have hsame : event' = event := by
    rw [take, List.foldl_append] at hevent'
    exact Option.some.inj ((takeEvent_byThem hftype hevent').symm.trans hkept)
  refine (hmem g hg).2 ?_
  rw [← hsender, InRoomEvent.sender, InRoomEvent.sender, hgevent, hgevent', hsame]

/-! ## Independence of the order -/

/-- If the two extreme orders lead to the same phase, then what somebody else has sent does not
matter. -/
theorem undisturbed_of_extremes (hnone : tx.otherUserId = none) (hr : r ∈ tx.events)
    (htype : r.type = .request) (hparty : getOtherPartyUserId ownUserId r = some userId)
    (hsame : (take ownUserId none (tx.requestFirst r)).2.lastPhase false =
      (take ownUserId none (tx.requestLast userId r)).2.lastPhase false) :
    (tx.Sent ownUserId .request →
      (tx.Displaced userId .ready → tx.Sent userId .start ∧ ¬ tx.Displaced userId .start) ∧
        (tx.Displaced userId .start → tx.Sent userId .ready ∧ tx.Sent ownUserId .start)) ∧
    (tx.Sent userId .request → tx.Displaced userId .start → tx.Sent ownUserId .ready →
      tx.Sent ownUserId .start) := by
  have hisParty := (isParty_iff hnone hr htype).2 hparty
  have hperm := requestFirst_perm hr
  have hperm' : (tx.requestLast userId r).Perm tx.events := requestLast_perm hr
  have h : tx.Taken (tx.requestFirst r) (take ownUserId tx.otherUserId (tx.requestFirst r)).1
      (take ownUserId tx.otherUserId (tx.requestFirst r)).2 :=
    taken_take tx (fun f hf => hperm.subset hf) (hperm.nodup_iff.2 tx.nodup)
  have h' : tx.Taken (tx.requestLast userId r)
      (take ownUserId tx.otherUserId (tx.requestLast userId r)).1
      (take ownUserId tx.otherUserId (tx.requestLast userId r)).2 :=
    taken_take tx (fun f hf => hperm'.subset hf) (hperm'.nodup_iff.2 tx.nodup)
  rw [hnone] at h h'
  have hl : ∀ f, f ∈ tx.requestFirst r ↔ f ∈ tx.events := fun f => hperm.mem_iff
  have hl' : ∀ f, f ∈ tx.requestLast userId r ↔ f ∈ tx.events := fun f => hperm'.mem_iff
  have hc := h.not_isCancelled fun f hf => (hl f).1 hf
  have hc' := h'.not_isCancelled fun f hf => (hl' f).1 hf
  have hdone : ((take ownUserId none (tx.requestFirst r)).2.eventsByUs.get .done).isSome =
      ((take ownUserId none (tx.requestLast userId r)).2.eventsByUs.get .done).isSome := by
    rw [Bool.eq_iff_iff, h.byUs_isSome hl, h'.byUs_isSome hl']
  have hthere : ∀ type, tx.Displaced userId type →
      ((take ownUserId none (tx.requestFirst r)).2.eventsByThem.get type).isSome ∧
        (take ownUserId none (tx.requestLast userId r)).2.eventsByThem.get type = none := by
    intro type hdisplaced
    exact ⟨byThem_requestFirst hr hparty hdisplaced.1 hdisplaced.2.1,
      byThem_requestLast hnone hr htype hparty hdisplaced⟩
  have hsent' : ∀ type,
      ((take ownUserId none (tx.requestLast userId r)).2.eventsByThem.get type).isSome →
        tx.Sent userId type ∧ ¬ tx.Displaced userId type := by
    intro type hsome
    refine ⟨(h'.byThem_sent hl' hisParty hsome).2, ?_⟩
    intro hdisplaced
    rw [(hthere type hdisplaced).2] at hsome
    exact nomatch hsome
  by_cases hsender : r.sender = ownUserId
  · obtain ⟨hrequest, hstarts, hready⟩ := h.starts_of_ours hl hr htype hsender
    obtain ⟨hrequest', hstarts', hready'⟩ := h'.starts_of_ours hl' hr htype hsender
    rw [EventLog.lastPhase_eq_iff h.finished h'.finished hc hc' hdone
      (hrequest.trans hrequest'.symm), hstarts, hstarts', hready, hready'] at hsame
    obtain ⟨hsameStart, hsameReady⟩ := hsame
    refine ⟨fun _ => ⟨?_, ?_⟩, ?_⟩
    · intro hdisplaced
      obtain ⟨hsome, hmissing⟩ := hthere .ready hdisplaced
      rw [hmissing] at hsameStart hsameReady
      -- the answer is missing when the request comes last, so that it takes their start event
      by_cases hstart : ((take ownUserId none (tx.requestFirst r)).2.eventsByThem.get
          .ready).isSome ∧ tx.Sent ownUserId .start ∨
            ((take ownUserId none (tx.requestFirst r)).2.eventsByThem.get .start).isSome
      · rcases hsameStart.1 hstart with hcontra | hsome'
        · exact nomatch hcontra.1
        · exact hsent' .start hsome'
      · exact nomatch hsome.symm.trans (hsameReady hstart)
    · intro hdisplaced
      obtain ⟨hsome, hmissing⟩ := hthere .start hdisplaced
      rw [hmissing] at hsameStart
      rcases hsameStart.1 (.inr hsome) with ⟨hsome', hsentStart⟩ | hcontra
      · exact ⟨(hsent' .ready hsome').1, hsentStart⟩
      · exact nomatch hcontra
    · intro hsent hdisplaced
      exfalso
      obtain ⟨r', hr', htype', hsender'⟩ := hsent
      rw [tx.oneRequest r' hr' r hr htype' htype] at hsender'
      exact hdisplaced.1 (hsender'.symm.trans hsender)
  · obtain ⟨hrequest, hstarts, hready⟩ := h.starts_of_theirs hl hnone hr htype hsender
    obtain ⟨hrequest', hstarts', hready'⟩ := h'.starts_of_theirs hl' hnone hr htype hsender
    rw [EventLog.lastPhase_eq_iff h.finished h'.finished hc hc' hdone
      (hrequest.trans hrequest'.symm), hstarts, hstarts'] at hsame
    refine ⟨?_, ?_⟩
    · rintro ⟨r', hr', htype', hsender'⟩
      rw [tx.oneRequest r' hr' r hr htype' htype] at hsender'
      exact absurd hsender' hsender
    · intro _ hdisplaced hanswered
      obtain ⟨hsome, hmissing⟩ := hthere .start hdisplaced
      rcases hsame.1.1 (.inr ⟨hanswered, hsome⟩) with hours | ⟨-, hcontra⟩
      · exact hours
      · rw [hmissing] at hcontra
        exact nomatch hcontra

/-- **When the order of delivery does not matter.** The phase is the same for every order if and
only if what somebody else has sent does not matter. No event of the other party is ever kept out by
somebody else's, whatever the order, if and only if there are none of the same type. -/
theorem phaseAfter_iff (client : RoomClient) (tx : RoomTransaction client.userId) :
    ((∀ l l' : List InRoomEvent, l.Perm tx.events → l'.Perm tx.events →
        (deliver client tx.otherUserId l).request.phase =
          (deliver client tx.otherUserId l').request.phase) ↔ tx.Undisturbed) ∧
    ((∀ (pre post : List InRoomEvent) (e : InRoomEvent), (pre ++ e :: post).Perm tx.events →
        tx.IsParty e.sender → e.sender ≠ client.userId → ∀ event,
          (deliver client tx.otherUserId pre).request.log.eventsByThem.get e.type = some event →
            event.sender = e.sender) ↔
      ∀ userId, tx.IsParty userId → ∀ type, ¬ tx.Displaced userId type) := by
  refine ⟨⟨?_, ?_⟩, ?_, ?_⟩
  · intro hsame userId hisParty
    obtain ⟨hnone, r, hr, htype, hparty⟩ := hisParty
    refine undisturbed_of_extremes hnone hr htype hparty ?_
    have hperm : (tx.requestFirst r).Perm tx.events := requestFirst_perm hr
    have hperm' : (tx.requestLast userId r).Perm tx.events := requestLast_perm hr
    have hphase := (delivered client tx (fun f hf => hperm.subset hf)
      (hperm.nodup_iff.2 tx.nodup)).2.1
    have hphase' := (delivered client tx (fun f hf => hperm'.subset hf)
      (hperm'.nodup_iff.2 tx.nodup)).2.1
    rw [hnone] at hphase hphase' hsame
    rw [← hphase, ← hphase', hsame _ _ hperm hperm']
  · intro hundisturbed l l' hperm hperm'
    have hl : ∀ f ∈ l, f ∈ tx.events := fun f hf => hperm.subset hf
    have hl' : ∀ f ∈ l', f ∈ tx.events := fun f hf => hperm'.subset hf
    have hnodup := hperm.nodup_iff.2 tx.nodup
    have hnodup' := hperm'.nodup_iff.2 tx.nodup
    rw [(delivered client tx hl hnodup).2.1, (delivered client tx hl' hnodup').2.1]
    exact (taken_take tx hl hnodup).lastPhase_eq (fun f => hperm.mem_iff)
      (taken_take tx hl' hnodup') (fun f => hperm'.mem_iff) hundisturbed
  · rintro hkept userId hisParty type ⟨hne, ⟨e, he, rfl, rfl⟩, f, hf, hftype, hfown, hfuser⟩
    have hfe : f ≠ e := by
      rintro rfl
      exact hfuser rfl
    obtain ⟨hnone, r, hr, htype, hparty⟩ := hisParty
    have hfr : f.type ≠ .request := by
      intro hrequest
      rw [tx.oneRequest f hf r hr hrequest htype] at hfown hfuser
      exact hfuser (Taken.sender_of_party hparty hfown).symm
    -- the event of somebody else comes right before the one of the other party
    have hperm : ([f] ++ e :: (tx.events.erase f).erase e).Perm tx.events :=
      (((List.perm_cons_erase ((List.mem_erase_of_ne hfe.symm).2 he)).symm.cons f).trans
        (List.perm_cons_erase hf).symm)
    have hf' : ∀ g ∈ [f], g ∈ tx.events := by
      intro g hg
      rwa [List.mem_singleton.1 hg]
    have hnodup : [f].Nodup := List.nodup_singleton f
    obtain ⟨-, hphase, l₁, -, -, -, hall⟩ := delivered client tx hf' hnodup
    have htaken := taken_take tx hf' hnodup
    have hno : ∀ g ∈ [f], g.type ≠ .request := by
      intro g hg
      rwa [List.mem_singleton.1 hg]
    have hunsent := htaken.lastPhase_unsent hf' hno
    have hlog := congrArg Prod.snd (hall (by rw [hphase, hunsent]; exact fun h => nomatch h))
    obtain ⟨event, hevent⟩ := Option.isSome_iff_exists.1
      (htaken.them_some (htaken.unknown hnone hno) f (List.mem_singleton.2 rfl) hfown)
    obtain ⟨g, hg, -, rfl, -⟩ := htaken.them_sound _ _ hevent
    obtain rfl := List.mem_singleton.1 hg
    refine hfuser (hkept [g] _ e hperm ⟨hnone, r, hr, htype, hparty⟩ hne g.event ?_)
    rw [← hftype, ← hevent]
    exact congrArg (fun log : EventLog => log.eventsByThem.get g.type) hlog
  · intro hnot pre post e hperm hisParty hne event hevent
    have hpre : ∀ f ∈ pre, f ∈ tx.events := fun f hf => hperm.subset (List.mem_append_left _ hf)
    have hnodup : pre.Nodup := (List.nodup_append.1 (hperm.nodup_iff.2 tx.nodup)).1
    obtain ⟨-, -, l₁, hsub, hnodup₁, hlog, -⟩ := delivered client tx hpre hnodup
    have htaken := taken_take tx (fun f hf => hpre f (hsub f hf)) hnodup₁
    rw [hlog] at hevent
    obtain ⟨f, hf, hftype, rfl, hfown, -⟩ := htaken.them_sound _ _ hevent
    by_contra hsender
    have he : e ∈ tx.events :=
      hperm.subset (List.mem_append_right _ List.mem_cons_self)
    exact hnot e.sender hisParty e.type
      ⟨hne, ⟨e, he, rfl, rfl⟩, f, hpre f (hsub f hf), hftype, hfown, hsender⟩

def aliceInTheRoom : RoomClient := ⟨"@alice:hs", "ALICE", [SAS_NAME]⟩

def aliceAsksBob : InRoomEvent :=
  ⟨.request, ⟨"$request", "@alice:hs", some "ALICE", [SAS_NAME], none⟩, "@bob:hs", false, true⟩

def bobIsReady : InRoomEvent :=
  ⟨.ready, ⟨"$bob", "@bob:hs", some "BOB", [SAS_NAME], none⟩, "", false, true⟩

def eveIsReady : InRoomEvent :=
  ⟨.ready, ⟨"$eve", "@eve:hs", some "EVE", [SAS_NAME], none⟩, "", false, true⟩

def twoAnswers : RoomTransaction aliceInTheRoom.userId where
  events := [aliceAsksBob, bobIsReady, eveIsReady]
  otherUserId := none
  nodup := by decide
  ids := by decide
  onePerSender := by decide
  noCancel := by decide
  oneRequest := by decide
  party := by decide

/-- Somebody else's answer that comes before the request keeps that of the other party out. -/
theorem phaseAfter_fails :
    ¬ ∀ (client : RoomClient) (tx : RoomTransaction client.userId) (l l' : List InRoomEvent),
      l.Perm tx.events → l'.Perm tx.events →
        (deliver client tx.otherUserId l).request.phase =
          (deliver client tx.otherUserId l').request.phase := by
  intro h
  have hsame := h aliceInTheRoom twoAnswers [aliceAsksBob, bobIsReady, eveIsReady]
    [eveIsReady, bobIsReady, aliceAsksBob] (by decide) (by decide)
  have hfirst : (deliver aliceInTheRoom none
      [aliceAsksBob, bobIsReady, eveIsReady]).request.phase = .ready := by decide
  have hlast : (deliver aliceInTheRoom none
      [eveIsReady, bobIsReady, aliceAsksBob]).request.phase = .requested := by decide
  exact nomatch hfirst.symm.trans (hsame.trans hlast)

end RoomTransaction

end MatrixSdk.Crypto
