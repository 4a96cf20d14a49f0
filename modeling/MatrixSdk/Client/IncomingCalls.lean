/-
Which calls ring: `callEventHandler` over the batches of a sync, and what becomes of the
candidates.

A call is to ring once, and not when it was hung up or answered on another device before, see
[`RingsOnce`] and [`RingsInTime`]. What is known of the calls that are over is in `callList`,
where a hangup of a live call deletes the entry again and an answer for a call that is not there
is dropped. The candidates that come before an invite wait in `candidatesByCall`, which is never
cleared. So an invite does no harm where nothing but candidates has come for its call, or the call
is known to have ended; the condition on the steps of a run, [`InOrder`], says this and that the
handler can read the event.

The calls are watched: what the handler takes away, drops and hears is written down beside them.
-/
import MatrixSdk.Client.CallEventHandler

set_option autoImplicit false

namespace MatrixSdk.Calls.Incoming

open MatrixSdk.Lib JsObject

variable {χ : Type*}

/-! ## Calls that are watched -/

/-- The calls of a client, with the ids of the live calls that a hangup has removed, of the calls
that were answered on another device before there was a call, and the candidates that came for a
call from others while it had not ended. -/
structure Watched (χ : Type*) where
  client : Client χ
  removed : String → Bool
  dropped : String → Bool
  heard : String → List χ

namespace Watched

variable (w : Watched χ)

/-- The call of this id has ended, so far as the handler has been told. -/
def isOver (callId : String) : Bool :=
  match w.client.callList.get callId with
  | some a => (w.client.call a).state = .ended
  | none => w.removed callId

/-- A hangup removes a live call. -/
def removes (type : String) (content : CallContent χ) : Bool :=
  type = "m.call.hangup" &&
    match w.client.findCall content with
    | .call a => (w.client.call a).state ≠ .ended
    | _ => false

/-- An answer of the user's own comes when there is no call. -/
def drops (userId type : String) (content : CallContent χ) : Bool :=
  type = "m.call.answer" && content.sender = userId &&
    match w.client.findCall content with
    | .missing => true
    | _ => false

/-- Candidates come from someone else for a call that has not ended. -/
def hears (userId type : String) (content : CallContent χ) : Bool :=
  type = "m.call.candidates" && content.sender ≠ userId && !w.isOver content.key

/-- What is written down of an event. -/
def observe (userId type : String) (content : CallContent χ) : Watched χ :=
  { w with
    removed := if w.removes type content then Function.update w.removed content.key true
      else w.removed
    dropped := if w.drops userId type content then Function.update w.dropped content.key true
      else w.dropped
    heard := if w.hears userId type content then
        Function.update w.heard content.key
          (w.heard content.key ++ (content.candidates.getD []).filterMap id)
      else w.heard }

/-- `callEventHandler`, watched. -/
def handle (userId : String) (w : Watched χ) (type : String) (content : CallContent χ) :
    Except (Watched χ) (Watched χ) :=
  match w.client.callEventHandler userId type content with
  | .ok client => .ok { w.observe userId type content with client := client }
  | .error client => .error { w.observe userId type content with client := client }

end Watched

def watchedHandler (χ : Type*) (userId : String) :
    CallEventHandler (CallContent χ) (Watched χ) where
  callId := CallContent.key
  handle := Watched.handle userId

/-- A client whose calls are watched. -/
abbrev WatchedClient (χ : Type*) := EventBuffer (CallContent χ) (Watched χ)

/-- The events of calls are not encrypted here. -/
inductive CallsEvent (χ : Type*)
  | receive (i : ℕ) (type : String) (content : CallContent χ)
  /-- A batch is complete, and the client is syncing or not. -/
  | sync (syncing : Bool)
  | calls (event : LocalEvent)

def step (userId : String) (s : WatchedClient χ) : CallsEvent χ → Option (WatchedClient χ)
  | .receive i type content =>
    EventBuffer.step (watchedHandler χ userId) s (.event i ⟨.known type content, false⟩)
  | .sync syncing => EventBuffer.step (watchedHandler χ userId) s (.sync syncing)
  | .calls event => (s.calls.client.localStep event).map fun client =>
    { s with calls := { s.calls with client := client } }

/-- All runs of the client of this user. -/
def system (χ : Type*) (userId : String) : System (WatchedClient χ) (CallsEvent χ) where
  init := .new ⟨.new, fun _ => false, fun _ => false, fun _ => []⟩
  step := step userId

/-! ## What is to hold -/

/-- **A call rings at most once**, and its connection was passed the candidates that came for it
before it ended, each once and in order. -/
structure RingsOnce (s : WatchedClient χ) : Prop where
  once : s.calls.client.incoming.Nodup
  candidates : ∀ a < s.calls.client.created, ∀ passed,
    (s.calls.client.call a).peerConn = some passed →
      passed = s.calls.heard (s.calls.client.call a).callId

/-- An event that says that the call needs no ringing: a hangup, or an answer of the user's own. -/
def Settles (userId type : String) (content : CallContent χ) : Prop :=
  type = "m.call.hangup" ∨ type = "m.call.answer" ∧ content.sender = userId

/-- **A call rings in time**: in this step, no call begins to ring for which a hangup has been
received, or an answer of the user's own. -/
def RingsInTime (userId : String) (s s' : WatchedClient χ) : Prop :=
  ∀ callId ∈ s'.calls.client.incoming.drop s.calls.client.incoming.length, ∀ i type content,
    s'.events i = some ⟨.known type content, false⟩ → content.key = callId →
      ¬ Settles userId type content

/-! ## When -/

/-- An event of a call has a call id, and one that is no name that every object has. -/
def Names (content : CallContent χ) (callId : String) : Prop :=
  content.callId = some callId ∧ callId ≠ "" ∧ callId ∉ JsObject.inheritedNames

/-- **An invite that is new**: there is no call of its id, none was removed by a hangup, and it
was not answered before. The handler can read it, the candidates that wait for it and, where it
meets an outgoing call, the stream of that. -/
structure IsNew (w : Watched χ) (content : CallContent χ) (callId : String) : Prop where
  noCall : w.client.callList.get callId = none
  notRemoved : w.removed callId = false
  notDropped : w.dropped callId = false
  offer : content.offer = true
  stashed : none ∉ (w.client.candidatesByCall.get callId).getD []
  streams : ∀ callId' b, w.client.callList.get callId' = some b →
    (w.client.call b).roomId = content.roomId → (w.client.call b).outbound = true →
      (w.client.call b).state = .createOffer ∨ (w.client.call b).state = .inviteSent →
        (w.client.call b).localAVStream.isSome = true

/-- An event that the handler gets in order. -/
def EventInOrder (userId : String) (w : Watched χ) (type : String) (content : CallContent χ) :
    Prop :=
  ∃ callId, Names content callId ∧
    (type = "m.call.invite" → content.sender = userId ∨ content.isExpired = true ∨
      (∃ a, w.client.callList.get callId = some a ∧ (w.client.call a).state = .ended) ∨
        IsNew w content callId) ∧
    (type = "m.call.answer" → content.sender ≠ userId →
      ∀ a, w.client.callList.get callId = some a → (w.client.call a).state ≠ .ended →
        (w.client.call a).peerConn.isSome = true ∧ content.answer = true) ∧
    (type = "m.call.candidates" → content.sender ≠ userId →
      (∃ candidates, content.candidates = some candidates ∧ none ∉ candidates) ∧
        ∀ a, w.client.callList.get callId = some a → (w.client.call a).state ≠ .ended →
          (w.client.call a).peerConn.isSome = true)

/-- The events of the buffer that are handled are in order, each where it is handled. -/
def BufferInOrder (userId : String) (s : WatchedClient χ) (ignoreCallIds : List String) :
    List ℕ → Watched χ → Prop
  | [], _ => True
  | i :: is, w =>
    if s.isIgnored (watchedHandler χ userId) ignoreCallIds i then
      BufferInOrder userId s ignoreCallIds is w
    else
      match s.events i with
      | some ⟨.known type content, _⟩ =>
        EventInOrder userId w type content ∧
          BufferInOrder userId s ignoreCallIds is (afterwards (w.handle userId type content))
      | _ => BufferInOrder userId s ignoreCallIds is w

/-- An outgoing call gets its connection while it is in `callList`, and before candidates come for
it. -/
structure ConnectsFirst (w : Watched χ) (a : ℕ) : Prop where
  listed : w.client.callList.get (w.client.call a).callId = some a
  notRemoved : w.removed (w.client.call a).callId = false
  noneWaits : w.client.candidatesByCall.get (w.client.call a).callId = none
  nonePassed : (w.client.call a).peerConn.getD [] = []

/-- A call that was made is placed under an id of its own. -/
structure PlacedAlone (w : Watched χ) (a : ℕ) : Prop where
  made : a < w.client.created
  alone : w.client.callList.get (w.client.call a).callId = none ∨
    w.client.callList.get (w.client.call a).callId = some a
  notRemoved : w.removed (w.client.call a).callId = false

/-- What is asked of what happens to the calls besides. -/
def LocalInOrder (w : Watched χ) : LocalEvent → Prop
  | .placeCall a => PlacedAlone w a
  | .completes (.displayMedia a) .succeeds => PlacedAlone w a
  | .completes (.userMediaForInvite a) outcome =>
    outcome ≠ .fails → (w.client.call a).successor = none →
      (w.client.call a).state ≠ .ended → ConnectsFirst w a
  | _ => True

/-- **The events come in order**, and the outgoing calls do not get in their way. -/
def InOrder (userId : String) (s : WatchedClient χ) : CallsEvent χ → Prop
  | .receive _ _ _ => True
  | .sync syncing => syncing = true →
    BufferInOrder userId s (s.ignoreCallIds (watchedHandler χ userId)) s.callEventBuffer s.calls
  | .calls event => LocalInOrder s.calls event

/-! ## What a call does by itself -/

/-- The calls are found as before, with the connections they had, and none begins to ring. -/
structure SameCalls (s s' : Client χ) : Prop where
  created : s'.created = s.created
  callList : s'.callList = s.callList
  candidatesByCall : s'.candidatesByCall = s.candidatesByCall
  incoming : s'.incoming = s.incoming
  callId : ∀ a, (s'.call a).callId = (s.call a).callId
  peerConn : ∀ a, (s'.call a).peerConn = (s.call a).peerConn

variable {s s' s'' : Client χ} {a : ℕ} {callId type : String} {content : CallContent χ}

theorem SameCalls.refl (s : Client χ) : SameCalls s s :=
  ⟨rfl, rfl, rfl, rfl, fun _ => rfl, fun _ => rfl⟩

theorem SameCalls.trans (h : SameCalls s s') (h' : SameCalls s' s'') : SameCalls s s'' where
  created := h'.created.trans h.created
  callList := h'.callList.trans h.callList
  candidatesByCall := h'.candidatesByCall.trans h.candidatesByCall
  incoming := h'.incoming.trans h.incoming
  callId := fun a => (h'.callId a).trans (h.callId a)
  peerConn := fun a => (h'.peerConn a).trans (h.peerConn a)

theorem same_modify (s : Client χ) (a : ℕ) {f : MatrixCall χ → MatrixCall χ}
    (hcallId : ∀ call, (f call).callId = call.callId)
    (hpeerConn : ∀ call, (f call).peerConn = call.peerConn) : SameCalls s (s.modify a f) := by
  refine ⟨rfl, rfl, rfl, rfl, fun b => ?_, fun b => ?_⟩ <;> by_cases hb : b = a
  · rw [hb, modify_call_self, hcallId]
  · rw [modify_call_ne s hb]
  · rw [hb, modify_call_self, hpeerConn]
  · rw [modify_call_ne s hb]

theorem same_setState (s : Client χ) (a : ℕ) (state : CallState) :
    SameCalls s (s.setState a state) :=
  same_modify s a (fun _ => rfl) fun _ => rfl

theorem same_addTask (s : Client χ) (task : Task) : SameCalls s (s.addTask task) :=
  ⟨rfl, rfl, rfl, rfl, fun _ => rfl, fun _ => rfl⟩

theorem same_sendEvent (s : Client χ) (event : SentEvent) : SameCalls s (s.sendEvent event) :=
  ⟨rfl, rfl, rfl, rfl, fun _ => rfl, fun _ => rfl⟩

theorem same_stopAllMedia (s : Client χ) (a : ℕ) : SameCalls s (s.stopAllMedia a) :=
  ⟨rfl, rfl, rfl, rfl, fun _ => rfl, fun _ => rfl⟩

theorem same_emitHangup (s : Client χ) (a : ℕ) : SameCalls s (s.emitHangup a) :=
  same_modify s a (fun _ => rfl) fun _ => rfl

theorem same_endCall (s : Client χ) (a : ℕ) :
    SameCalls s ((s.setState a .ended).stopAllMedia a) :=
  (same_setState s a .ended).trans (same_stopAllMedia _ a)

theorem same_terminate (s : Client χ) (a : ℕ) (shouldEmit : Bool) :
    SameCalls s (s.terminate a shouldEmit) := by
  cases shouldEmit with
  | true => exact (same_endCall s a).trans (same_emitHangup _ a)
  | false => exact same_endCall s a

theorem same_hangup (s : Client χ) (a : ℕ) (suppressEvent : Bool) :
    SameCalls s (s.hangup a suppressEvent) := by
  rw [Client.hangup]
  split
  · exact .refl s
  · exact (same_terminate s a _).trans (same_sendEvent _ _)

theorem same_inviteExpires (s : Client χ) (a : ℕ) : SameCalls s (s.inviteExpires a) := by
  rw [Client.inviteExpires]
  split
  · dsimp only
    split
    · exact (same_endCall s a).trans (same_emitHangup _ a)
    · exact same_endCall s a
  · exact .refl s

theorem same_grant (s : Client χ) (a : ℕ) : SameCalls s (s.grant a) :=
  ⟨rfl, rfl, rfl, rfl, fun _ => rfl, fun _ => rfl⟩

theorem same_userMedia (s : Client χ) (a : ℕ) (outcome : Outcome) :
    SameCalls s (s.userMedia a outcome).1 := by
  cases outcome with
  | succeeds => exact same_grant s a
  | permissionDenied => exact .refl s
  | fails => exact .refl s

theorem same_takeStream (s : Client χ) (a : ℕ) (stream : MediaStream) :
    SameCalls s (s.takeStream a stream) := by
  have hmodified : SameCalls s (s.modify a fun call =>
      { call with localAVStream := some stream }) :=
    same_modify s a (fun _ => rfl) fun _ => rfl
  exact ⟨rfl, rfl, rfl, rfl, hmodified.callId, hmodified.peerConn⟩

theorem same_withScreen (s : Client χ) (a : ℕ) (stream : MediaStream) :
    SameCalls s (s.withScreen a stream) := by
  rw [Client.withScreen]
  split
  next screen _ =>
    have hmodified : SameCalls s (s.modify a fun call =>
        { call with screenSharingStream := some (screen ++ stream) }) :=
      same_modify s a (fun _ => rfl) fun _ => rfl
    exact hmodified.trans (same_takeStream _ a _)
  · exact same_takeStream s a stream

theorem same_startAnswer (s : Client χ) (a : ℕ) : SameCalls s (afterwards (s.startAnswer a)) := by
  rw [Client.startAnswer]
  split
  · exact (same_addTask s _).trans (same_setState _ a _)
  · exact .refl s

theorem same_maybeGotUserMediaForAnswer (s : Client χ) (a : ℕ) (media : UserMedia) :
    SameCalls s (afterwards (s.maybeGotUserMediaForAnswer a media)) := by
  unfold Client.maybeGotUserMediaForAnswer
  split
  · exact .refl s
  · split
    · exact (same_takeStream s a _).trans (same_startAnswer _ a)
    · exact same_startAnswer s a
    · exact same_terminate s a false

theorem same_sendAnswer (s : Client χ) (a : ℕ) : SameCalls s (s.sendAnswer a) :=
  (same_sendEvent s _).trans (same_addTask _ _)

theorem same_answer (s : Client χ) (a : ℕ) : SameCalls s (afterwards (s.answer a)) := by
  unfold Client.answer
  split
  · exact same_sendAnswer s a
  · split
    · exact same_maybeGotUserMediaForAnswer s a _
    · split
      · exact same_setState s a _
      · exact (same_addTask s _).trans (same_setState _ a _)

/-! ## Glare -/

/-- A function that returns, which leaves the calls as they are found. -/
theorem same_of_ok {made : Except (Client χ) (Client χ)} (h : SameCalls s (afterwards made))
    (hok : made = .ok s') : SameCalls s s' := by
  rw [hok] at h
  exact h

theorem startAnswer_ok (h : (s.call a).peerConn.isSome = true) : ∃ s', s.startAnswer a = .ok s' :=
  ⟨_, if_pos h⟩

/-- A call with a connection can be given whatever `getUserMedia` came to. -/
theorem maybeGotUserMediaForAnswer_ok (h : (s.call a).peerConn.isSome = true) (media : UserMedia) :
    ∃ s', s.maybeGotUserMediaForAnswer a media = .ok s' := by
  unfold Client.maybeGotUserMediaForAnswer
  split
  · exact ⟨s, rfl⟩
  · cases media with
    | stream stream =>
      refine startAnswer_ok ?_
      rw [(same_takeStream s a stream).peerConn]
      exact h
    | permissionDenied => exact startAnswer_ok h
    | failed => exact ⟨_, rfl⟩

theorem answer_ok (h : (s.call a).peerConn.isSome = true) : ∃ s', s.answer a = .ok s' := by
  unfold Client.answer
  split
  · exact ⟨_, rfl⟩
  · split
    · exact maybeGotUserMediaForAnswer_ok h _
    · split
      · exact ⟨_, rfl⟩
      · exact ⟨_, rfl⟩

/-- The stream is there to be handed. -/
theorem handStream_ok {b : ℕ} (hstream : (s.call a).localAVStream.isSome = true)
    (h : (s.call b).peerConn.isSome = true) : ∃ s', s.handStream a b = .ok s' ∧ SameCalls s s' := by
  obtain ⟨stream, hlocal⟩ := Option.isSome_iff_exists.1 hstream
  obtain ⟨s₁, hs₁⟩ := maybeGotUserMediaForAnswer_ok h (.stream stream)
  have hsame := same_of_ok (same_maybeGotUserMediaForAnswer s b (.stream stream)) hs₁
  unfold Client.handStream
  rw [hlocal]
  dsimp only
  rw [hs₁]
  exact ⟨_, rfl, hsame.trans (same_modify s₁ a (fun _ => rfl) fun _ => rfl)⟩

theorem handOver_ok {b : ℕ}
    (hstream : (s.call a).state = .createOffer ∨ (s.call a).state = .inviteSent →
      (s.call a).localAVStream.isSome = true) (h : (s.call b).peerConn.isSome = true) :
    ∃ s', s.handOver a b = .ok s' ∧ SameCalls s s' := by
  unfold Client.handOver
  split
  · exact ⟨_, rfl, same_modify s b (fun _ => rfl) fun _ => rfl⟩
  next hstate => exact handStream_ok (hstream (.inl hstate)) h
  next hstate => exact handStream_ok (hstream (.inr hstate)) h
  · exact ⟨s, rfl, .refl s⟩

theorem replacedBy_ok {b : ℕ}
    (hstream : (s.call a).state = .createOffer ∨ (s.call a).state = .inviteSent →
      (s.call a).localAVStream.isSome = true) (h : (s.call b).peerConn.isSome = true) :
    ∃ s', s.replacedBy a b = .ok s' ∧ SameCalls s s' := by
  obtain ⟨s₁, hs₁, hsame⟩ := handOver_ok hstream h
  have hgives : SameCalls s₁ (s₁.giveWay a b) := by
    have hmodified : SameCalls s₁ (s₁.modify a fun call => { call with successor := some b }) :=
      same_modify s₁ a (fun _ => rfl) fun _ => rfl
    exact hmodified.trans (same_hangup _ a false)
  rw [Client.replacedBy, hs₁]
  exact ⟨_, rfl, hsame.trans hgives⟩

/-- **A call that has its connection is announced**, or one of two is given up; it rings where there
is no outgoing call. -/
theorem announce_ok (h : (s.call a).peerConn.isSome = true)
    (hstream : ∀ b, s.isExistingCall a b = true → (∃ callId, s.callList.get callId = some b) →
      (s.call b).state = .createOffer ∨ (s.call b).state = .inviteSent →
        (s.call b).localAVStream.isSome = true) :
    ∃ s', s.announce a = .ok s' ∧ (SameCalls s s' ∨
      s' = { s with incoming := s.incoming ++ [(s.call a).callId] }) := by
  unfold Client.announce
  cases hexisting : s.existingCall a with
  | none => exact ⟨_, rfl, .inr rfl⟩
  | some b =>
    obtain ⟨his, hin⟩ := existingCall_spec hexisting
    dsimp only
    split
    · obtain ⟨s₁, hs₁, hsame₁⟩ := replacedBy_ok (b := a) (hstream b his hin) h
      have hconnected : (s₁.call a).peerConn.isSome = true := by
        rw [hsame₁.peerConn]
        exact h
      obtain ⟨s₂, hs₂⟩ := answer_ok hconnected
      refine ⟨s₂, ?_, .inl (hsame₁.trans (same_of_ok (same_answer s₁ a) hs₂))⟩
      rw [hs₁]
      exact hs₂
    · exact ⟨_, rfl, .inl (same_hangup s a false)⟩

/-! ## The invariant of the calls -/

/-- The candidates that wait for a call. -/
def stashed (s : Client χ) (callId : String) : List (Option χ) :=
  (s.candidatesByCall.get callId).getD []

/-- What is known of a call once it needs no ringing. -/
def Settled (w : Watched χ) (callId : String) : Prop :=
  (w.client.callList.get callId).isSome = true ∨ w.removed callId = true ∨ w.dropped callId = true

/-- Of each call that has rung there is something left, and the candidates of a call wait until
there is a connection, which is then passed them as they come. -/
structure Inv (w : Watched χ) : Prop where
  made : ∀ callId a, w.client.callList.get callId = some a → a < w.client.created
  named : ∀ callId a, w.client.callList.get callId = some a → (w.client.call a).callId = callId
  once : w.client.incoming.Nodup
  rung : ∀ callId ∈ w.client.incoming,
    (w.client.callList.get callId).isSome = true ∨ w.removed callId = true
  passed : ∀ a < w.client.created, ∀ passed, (w.client.call a).peerConn = some passed →
    passed = w.heard (w.client.call a).callId
  listed : ∀ a < w.client.created, (w.client.call a).peerConn.isSome = true →
    w.client.callList.get (w.client.call a).callId = some a ∨
      w.removed (w.client.call a).callId = true
  waiting : ∀ callId, w.removed callId = false →
    (∀ a, w.client.callList.get callId = some a → (w.client.call a).peerConn = none) →
      stashed w.client callId = (w.heard callId).map some
  again : ∀ callId a, w.removed callId = true → w.client.callList.get callId = some a →
    (w.client.call a).peerConn = none

variable {w : Watched χ} {outcome : Outcome} {ids : List String}

/-- What a call does by itself has nothing to do with it. -/
theorem Inv.same (h : Inv w) (hsame : SameCalls w.client s') : Inv { w with client := s' } := by
  refine ⟨fun callId a hget => ?_, fun callId a hget => ?_, ?_, fun callId hrung => ?_,
    fun a ha passed hpassed => ?_, fun a ha hsome => ?_, fun callId hremoved hnone => ?_,
    fun callId a hremoved hget => ?_⟩ <;> dsimp only at *
  · rw [hsame.callList] at hget
    rw [hsame.created]
    exact h.made callId a hget
  · rw [hsame.callList] at hget
    rw [hsame.callId]
    exact h.named callId a hget
  · rw [hsame.incoming]
    exact h.once
  · rw [hsame.incoming] at hrung
    rw [hsame.callList]
    exact h.rung callId hrung
  · rw [hsame.created] at ha
    rw [hsame.peerConn] at hpassed
    rw [hsame.callId]
    exact h.passed a ha passed hpassed
  · rw [hsame.created] at ha
    rw [hsame.peerConn] at hsome
    rw [hsame.callId, hsame.callList]
    exact h.listed a ha hsome
  · have hstashed : stashed s' callId = stashed w.client callId := by
      rw [stashed, stashed, hsame.candidatesByCall]
    rw [hstashed]
    refine h.waiting callId hremoved fun a hget => ?_
    rw [← hsame.peerConn]
    exact hnone a (by rw [hsame.callList]; exact hget)
  · rw [hsame.callList] at hget
    rw [hsame.peerConn]
    exact h.again callId a hremoved hget

theorem Settled.same (h : Settled w callId) (hsame : SameCalls w.client s') :
    Settled { w with client := s' } callId := by
  rw [Settled, hsame.callList]
  exact h

theorem newCall_call_self (s : Client χ) (callId roomId : String) :
    (s.newCall callId roomId).call s.created = .new callId roomId :=
  Function.update_self _ _ _

theorem newCall_call_of_lt (s : Client χ) (callId roomId : String) (ha : a < s.created) :
    (s.newCall callId roomId).call a = s.call a :=
  Function.update_of_ne (Nat.ne_of_lt ha) _ _

/-- A call is made, and is not found yet. -/
theorem Inv.newCall (h : Inv w) (callId roomId : String) :
    Inv { w with client := w.client.newCall callId roomId } where
  made := fun callId' a hget => Nat.lt_succ_of_lt (h.made callId' a hget)
  named := by
    intro callId' a hget
    rw [newCall_call_of_lt w.client callId roomId (h.made callId' a hget)]
    exact h.named callId' a hget
  once := h.once
  rung := h.rung
  passed := by
    intro a ha passed hpassed
    rcases Nat.lt_succ_iff_lt_or_eq.1 ha with hold | rfl
    · rw [newCall_call_of_lt w.client callId roomId hold] at hpassed ⊢
      exact h.passed a hold passed hpassed
    · rw [newCall_call_self] at hpassed
      exact nomatch hpassed
  listed := by
    intro a ha hsome
    rcases Nat.lt_succ_iff_lt_or_eq.1 ha with hold | rfl
    · rw [newCall_call_of_lt w.client callId roomId hold] at hsome ⊢
      exact h.listed a hold hsome
    · rw [newCall_call_self] at hsome
      exact nomatch hsome
  waiting := by
    intro callId' hremoved hnone
    refine h.waiting callId' hremoved fun a hget => ?_
    rw [← newCall_call_of_lt w.client callId roomId (h.made callId' a hget)]
    exact hnone a hget
  again := by
    intro callId' a hremoved hget
    rw [newCall_call_of_lt w.client callId roomId (h.made callId' a hget)]
    exact h.again callId' a hremoved hget

/-- A call is found under its id, which nothing else is. -/
theorem Inv.register (h : Inv w) (hmade : a < w.client.created)
    (hcallId : (w.client.call a).callId = callId)
    (hfree : w.client.callList.get callId = none ∧ (w.client.call a).peerConn = none ∨
      w.client.callList.get callId = some a) :
    Inv { w with client := { w.client with callList := w.client.callList.set callId a } } := by
  rcases hfree with ⟨hnone, hpeerConn⟩ | hsome
  · refine ⟨fun callId' b hget => ?_, fun callId' b hget => ?_, h.once, fun callId' hrung => ?_,
      h.passed, fun b hb hconnected => ?_, fun callId' hremoved hunconnected => ?_,
      fun callId' b hremoved hget => ?_⟩ <;> dsimp only at *
    · rw [get_set] at hget
      split at hget
      · rw [← Option.some.inj hget]
        exact hmade
      · exact h.made callId' b hget
    · rw [get_set] at hget
      split at hget
      next heq =>
        rw [← Option.some.inj hget, heq]
        exact hcallId
      · exact h.named callId' b hget
    · rw [get_set]
      split
      · exact .inl rfl
      · exact h.rung callId' hrung
    · rcases h.listed b hb hconnected with hget | hremoved
      · left
        rw [get_set_ne]
        · exact hget
        · rintro heq
          rw [heq, hnone] at hget
          exact nomatch hget
      · exact .inr hremoved
    · refine h.waiting callId' hremoved fun b hget => hunconnected b ?_
      rw [get_set_ne]
      · exact hget
      · rintro rfl
        rw [hnone] at hget
        exact nomatch hget
    · rw [get_set] at hget
      split at hget
      · rw [← Option.some.inj hget]
        exact hpeerConn
      · exact h.again callId' b hremoved hget
  · have hget : ∀ callId', (w.client.callList.set callId a).get callId' =
        w.client.callList.get callId' := by
      intro callId'
      rw [get_set]
      split
      next heq => rw [heq, hsome]
      · rfl
    refine ⟨fun callId' b => ?_, fun callId' b => ?_, h.once, fun callId' => ?_, h.passed,
      fun b => ?_, fun callId' => ?_, fun callId' b => ?_⟩ <;> dsimp only <;> rw [hget]
    · exact h.made callId' b
    · exact h.named callId' b
    · exact h.rung callId'
    · exact h.listed b
    · exact h.waiting callId'
    · exact h.again callId' b

/-! ## Passing candidates -/

/-- The candidates are passed to the connection of a call. -/
def passTo (s : Client χ) (a : ℕ) (passed : List χ) : Client χ :=
  s.modify a fun call => { call with peerConn := some passed }

theorem passTo_callId (s : Client χ) (a : ℕ) (passed : List χ) (b : ℕ) :
    ((passTo s a passed).call b).callId = (s.call b).callId := by
  by_cases hb : b = a
  · rw [hb, passTo, modify_call_self]
  · rw [passTo, modify_call_ne s hb]

theorem passTo_peerConn_self (s : Client χ) (a : ℕ) (passed : List χ) :
    ((passTo s a passed).call a).peerConn = some passed := by
  rw [passTo, modify_call_self]

theorem passTo_peerConn_ne (s : Client χ) {b : ℕ} (hb : b ≠ a) (passed : List χ) :
    ((passTo s a passed).call b).peerConn = (s.call b).peerConn := by
  rw [passTo, modify_call_ne s hb]

/-- **The candidates are passed in order.** -/
theorem foldlM_gotRemoteIceCandidate (candidates : List (Option χ)) (hvalid : none ∉ candidates) :
    ∀ (s : Client χ) (passed : List χ),
      (s.call a).state ≠ .ended → (s.call a).peerConn = some passed →
        candidates.foldlM (fun s cand => s.gotRemoteIceCandidate a cand) s =
          .ok (passTo s a (passed ++ candidates.filterMap id)) := by
  induction candidates with
  | nil =>
    intro s passed _ hpassed
    rw [List.filterMap_nil, List.append_nil, passTo, Client.modify, ← hpassed,
      Function.update_eq_self]
    rfl
  | cons cand candidates ih =>
    intro s passed hnot hpassed
    rw [List.mem_cons, not_or] at hvalid
    obtain ⟨cand, rfl⟩ := Option.ne_none_iff_exists'.1 (Ne.symm hvalid.1)
    have hfirst : s.gotRemoteIceCandidate a (some cand) =
        .ok (passTo s a (passed ++ [cand])) := by
      unfold Client.gotRemoteIceCandidate
      rw [if_neg hnot, hpassed]
      rfl
    have hcall : ((passTo s a (passed ++ [cand])).call a).state = (s.call a).state := by
      rw [passTo, modify_call_self]
    have hrest := ih hvalid.2 (passTo s a (passed ++ [cand])) (passed ++ [cand])
      (by rw [hcall]; exact hnot) (by rw [passTo, modify_call_self])
    rw [List.foldlM_cons, hfirst]
    refine hrest.trans ?_
    rw [List.filterMap_cons_some (f := id) rfl, List.append_assoc, List.singleton_append]
    congr 1
    rw [passTo, passTo, passTo, Client.modify, Client.modify, Client.modify]
    simp only [Function.update_self, Function.update_idem]

/-- A call that has ended is passed nothing. -/
theorem foldlM_of_ended (h : (s.call a).state = .ended) (candidates : List (Option χ)) :
    candidates.foldlM (fun s cand => s.gotRemoteIceCandidate a cand) s = .ok s := by
  induction candidates with
  | nil => rfl
  | cons cand candidates ih =>
    have hfirst : s.gotRemoteIceCandidate a cand = .ok s := by
      unfold Client.gotRemoteIceCandidate
      rw [if_pos h]
    rw [List.foldlM_cons, hfirst]
    exact ih

/-- A call that is found gets its connection, with the candidates heard so far. -/
theorem Inv.connect (h : Inv w) (hget : w.client.callList.get callId = some a)
    (hremoved : w.removed callId = false) :
    Inv { w with client := passTo w.client a (w.heard callId) } := by
  have hself := passTo_peerConn_self w.client a (w.heard callId)
  refine ⟨h.made, fun callId' b hget' => ?_, h.once, h.rung, fun b hb passed hpassed => ?_,
    fun b hb hsome => ?_, fun callId' hremoved' hnone => ?_, fun callId' b hremoved' hget' => ?_⟩
      <;> dsimp only at *
  · rw [passTo_callId]
    exact h.named callId' b hget'
  · rw [passTo_callId]
    by_cases hba : b = a
    · rw [hba, hself] at hpassed
      rw [hba, h.named callId a hget]
      exact (Option.some.inj hpassed).symm
    · rw [passTo_peerConn_ne _ hba] at hpassed
      exact h.passed b hb passed hpassed
  · rw [passTo_callId]
    by_cases hba : b = a
    · rw [hba, h.named callId a hget]
      exact .inl hget
    · rw [passTo_peerConn_ne _ hba] at hsome
      exact h.listed b hb hsome
  · refine h.waiting callId' hremoved' fun b hget' => ?_
    by_cases hba : b = a
    · rw [hba] at hget'
      exact nomatch hself.symm.trans (hnone a hget')
    · rw [← passTo_peerConn_ne _ hba (w.heard callId)]
      exact hnone b hget'
  · have hba : b ≠ a := by
      rintro rfl
      rw [← h.named callId' b hget', h.named callId b hget, hremoved] at hremoved'
      exact nomatch hremoved'
    rw [passTo_peerConn_ne _ hba]
    exact h.again callId' b hremoved' hget'

/-- Candidates of which each is one. -/
theorem map_some_filterMap {candidates : List (Option χ)} (h : none ∉ candidates) :
    (candidates.filterMap id).map some = candidates := by
  induction candidates with
  | nil => rfl
  | cons cand candidates ih =>
    rw [List.mem_cons, not_or] at h
    obtain ⟨cand, rfl⟩ := Option.ne_none_iff_exists'.1 (Ne.symm h.1)
    rw [List.filterMap_cons_some (f := id) rfl, List.map_cons, ih h.2]

/-! ## The handler -/

theorem Names.key (h : Names content callId) : content.key = callId := by
  rw [CallContent.key, h.1]
  rfl

theorem Names.findCall (h : Names content callId) (s : Client χ) :
    s.findCall content = match s.callList.get callId with
      | some a => .call a
      | none => .missing := by
  unfold Client.findCall
  rw [h.1]
  dsimp only
  rw [if_neg h.2.1, lookup_of_not_inherited h.2.2]
  cases s.callList.get callId <;> rfl

/-- The candidates wait, and are heard unless the call was removed. -/
theorem Inv.stash (h : Inv w) (hnames : Names content callId)
    (hnone : w.client.callList.get callId = none) {candidates : List (Option χ)}
    (hcandidates : content.candidates = some candidates) (hvalid : none ∉ candidates) :
    Inv { w with
      client := w.client.stash content
      heard := if w.removed callId then w.heard else
        Function.update w.heard callId (w.heard callId ++ candidates.filterMap id) } := by
  have hself : stashed (w.client.stash content) callId = stashed w.client callId ++ candidates := by
    rw [stashed, Client.stash, hnames.key, hcandidates]
    rw [get_set, if_pos rfl]
    rw [stashed]
    cases w.client.candidatesByCall.get callId <;> rfl
  have hother : ∀ callId', callId' ≠ callId →
      stashed (w.client.stash content) callId' = stashed w.client callId' := by
    intro callId' hne
    rw [stashed, Client.stash, hnames.key]
    rw [get_set_ne hne]
    rfl
  by_cases hremoved : w.removed callId = true
  · rw [if_pos hremoved]
    refine ⟨h.made, h.named, h.once, h.rung, h.passed, h.listed, fun callId' hremoved' hnone' => ?_,
      h.again⟩
    have hne : callId' ≠ callId := by
      rintro rfl
      exact nomatch hremoved.symm.trans hremoved'
    rw [hother callId' hne]
    exact h.waiting callId' hremoved' hnone'
  · rw [if_neg hremoved]
    refine ⟨h.made, h.named, h.once, h.rung, fun a ha passed hpassed => ?_, h.listed,
      fun callId' hremoved' hnone' => ?_, h.again⟩
    · -- no call of this id has a connection
      have hne : (w.client.call a).callId ≠ callId := by
        intro heq
        have hsome : (w.client.call a).peerConn.isSome = true :=
          Option.isSome_iff_exists.2 ⟨passed, hpassed⟩
        rcases h.listed a ha hsome with hget | hcontra
        · rw [heq, hnone] at hget
          exact nomatch hget
        · rw [heq] at hcontra
          exact hremoved hcontra
      show passed = Function.update w.heard callId _ (w.client.call a).callId
      rw [Function.update_of_ne hne]
      exact h.passed a ha passed hpassed
    · dsimp only
      by_cases hne : callId' = callId
      · rw [hne, hself, Function.update_self, List.map_append, map_some_filterMap hvalid,
          h.waiting callId (Bool.eq_false_iff.2 hremoved)
            fun a hget => (nomatch hnone.symm.trans hget)]
      · rw [hother callId' hne, Function.update_of_ne hne]
        exact h.waiting callId' hremoved' hnone'

/-- The candidates are heard, and passed to the connection of the call. -/
theorem Inv.hear (h : Inv w) (hget : w.client.callList.get callId = some a) {passed : List χ}
    (hpassed : (w.client.call a).peerConn = some passed) (candidates : List χ) :
    Inv { w with
      client := passTo w.client a (passed ++ candidates)
      heard := Function.update w.heard callId (w.heard callId ++ candidates) } := by
  have hmade := h.made callId a hget
  have hnamed := h.named callId a hget
  have hremoved : w.removed callId = false := by
    by_contra hcontra
    have hnone := h.again callId a (Bool.of_not_eq_false hcontra) hget
    exact nomatch hnone.symm.trans hpassed
  have hheard : passed = w.heard callId := by
    rw [← hnamed]
    exact h.passed a hmade passed hpassed
  -- no other call of this id has a connection
  have hothers : ∀ b < w.client.created, b ≠ a → (w.client.call b).peerConn.isSome = true →
      (w.client.call b).callId ≠ callId := by
    intro b hb hba hsome heq
    rcases h.listed b hb hsome with hget' | hcontra
    · rw [heq, hget] at hget'
      exact hba (Option.some.inj hget').symm
    · rw [heq, hremoved] at hcontra
      exact nomatch hcontra
  have hself := passTo_peerConn_self w.client a (passed ++ candidates)
  refine ⟨h.made, fun callId' b hget' => ?_, h.once, h.rung, fun b hb passed' hpassed' => ?_,
    fun b hb hsome => ?_, fun callId' hremoved' hnone => ?_, fun callId' b hremoved' hget' => ?_⟩
      <;> dsimp only at *
  · rw [passTo_callId]
    exact h.named callId' b hget'
  · rw [passTo_callId]
    by_cases hba : b = a
    · rw [hba, hself] at hpassed'
      rw [hba, hnamed, Function.update_self, ← Option.some.inj hpassed', hheard]
    · rw [passTo_peerConn_ne _ hba] at hpassed'
      have hne := hothers b hb hba (by rw [hpassed']; rfl)
      rw [Function.update_of_ne hne]
      exact h.passed b hb passed' hpassed'
  · rw [passTo_callId]
    by_cases hba : b = a
    · rw [hba, hnamed]
      exact .inl hget
    · rw [passTo_peerConn_ne _ hba] at hsome
      exact h.listed b hb hsome
  · have hne : callId' ≠ callId := by
      rintro rfl
      exact nomatch hself.symm.trans (hnone a hget)
    rw [Function.update_of_ne hne]
    refine h.waiting callId' hremoved' fun b hget' => ?_
    have hba : b ≠ a := by
      rintro rfl
      exact hne ((h.named callId' b hget').symm.trans hnamed)
    rw [← passTo_peerConn_ne _ hba (passed ++ candidates)]
    exact hnone b hget'
  · have hba : b ≠ a := by
      rintro rfl
      rw [← h.named callId' b hget', hnamed, hremoved] at hremoved'
      exact nomatch hremoved'
    rw [passTo_peerConn_ne _ hba]
    exact h.again callId' b hremoved' hget'

/-- A hangup removes the call. -/
theorem Inv.remove (h : Inv w) (callId : String) :
    Inv { w with
      client := { w.client with callList := w.client.callList.delete callId }
      removed := Function.update w.removed callId true } := by
  have hget : ∀ {callId' b}, (w.client.callList.delete callId).get callId' = some b →
      callId' ≠ callId ∧ w.client.callList.get callId' = some b := by
    intro callId' b hget
    rw [get_delete] at hget
    split at hget
    · exact nomatch hget
    next hne => exact ⟨hne, hget⟩
  refine ⟨fun callId' b hget' => ?_, fun callId' b hget' => ?_, h.once, fun callId' hrung => ?_,
    h.passed, fun b hb hsome => ?_, fun callId' hremoved' hnone => ?_,
    fun callId' b hremoved' hget' => ?_⟩ <;> dsimp only at *
  · exact h.made callId' b (hget hget').2
  · exact h.named callId' b (hget hget').2
  · by_cases hne : callId' = callId
    · rw [hne, Function.update_self]
      exact .inr rfl
    · rw [Function.update_of_ne hne, get_delete_ne hne]
      exact h.rung callId' hrung
  · by_cases hne : (w.client.call b).callId = callId
    · rw [hne, Function.update_self]
      exact .inr rfl
    · rw [Function.update_of_ne hne, get_delete_ne hne]
      exact h.listed b hb hsome
  · have hne : callId' ≠ callId := by
      rintro rfl
      rw [Function.update_self] at hremoved'
      exact nomatch hremoved'
    rw [Function.update_of_ne hne] at hremoved'
    refine h.waiting callId' hremoved' fun b hget' => hnone b ?_
    rw [get_delete_ne hne]
    exact hget'
  · obtain ⟨hne, hget'⟩ := hget hget'
    rw [Function.update_of_ne hne] at hremoved'
    exact h.again callId' b hremoved' hget'

/-- A call begins to ring, of which nothing was left. -/
theorem Inv.ring (h : Inv w) (hnew : callId ∉ w.client.incoming)
    (hfound : (w.client.callList.get callId).isSome = true) :
    Inv { w with client := { w.client with incoming := w.client.incoming ++ [callId] } } where
  made := h.made
  named := h.named
  once := by
    refine List.nodup_append'.2 ⟨h.once, List.nodup_singleton _, fun callId' hold hcontra => ?_⟩
    rw [List.mem_singleton.1 hcontra] at hold
    exact hnew hold
  rung := by
    intro callId' hrung
    rcases List.mem_append.1 hrung with hold | hnew
    · exact h.rung callId' hold
    · rw [List.mem_singleton.1 hnew]
      exact .inl hfound
  passed := h.passed
  listed := h.listed
  waiting := h.waiting
  again := h.again

/-! ## Invites -/

/-- The new call of an invite, before anything was passed to it. -/
structure Initialised (s s' : Client χ) (a : ℕ) : Prop where
  created : s'.created = s.created
  callList : s'.callList = s.callList
  candidatesByCall : s'.candidatesByCall = s.candidatesByCall
  incoming : s'.incoming = s.incoming
  other : ∀ b, b ≠ a → s'.call b = s.call b
  callId : (s'.call a).callId = (s.call a).callId
  roomId : (s'.call a).roomId = (s.call a).roomId
  outbound : (s'.call a).outbound = (s.call a).outbound
  peerConn : (s'.call a).peerConn = some []
  ringing : (s'.call a).state = .ringing

theorem initWithInvite_ok (hoffer : content.offer = true) (s : Client χ) (a : ℕ) :
    ∃ s', s.initWithInvite a content = .ok s' ∧ Initialised s s' a := by
  have hringing : Initialised s ((s.modify a fun call =>
      { call with peerConn := some [] }).setState a .ringing) a := by
    refine ⟨rfl, rfl, rfl, rfl, fun b hb => ?_, ?_, ?_, ?_, ?_, ?_⟩
    · rw [Client.setState, modify_call_ne _ hb, modify_call_ne s hb]
    all_goals rw [Client.setState, modify_call_self, modify_call_self]
  unfold Client.initWithInvite
  rw [hoffer]
  rw [if_neg (by decide)]
  split
  · exact ⟨_, rfl, hringing.created, hringing.callList, hringing.candidatesByCall,
      hringing.incoming, hringing.other, hringing.callId, hringing.roomId, hringing.outbound,
      hringing.peerConn, hringing.ringing⟩
  · exact ⟨_, rfl, hringing⟩

/-- What waits for a call is passed to it. -/
theorem playBack_ok (hcallId : callId ∉ inheritedNames) (hvalid : none ∉ stashed s callId)
    (hstate : (s.call a).state = .ringing) (hpeerConn : (s.call a).peerConn = some []) :
    s.playBack callId a = .ok (passTo s a ((stashed s callId).filterMap id)) := by
  have hnot : (s.call a).state ≠ .ended := by
    rw [hstate]
    exact nofun
  rw [Client.playBack, lookup_of_not_inherited hcallId]
  rw [stashed] at hvalid ⊢
  cases hget : s.candidatesByCall.get callId with
  | some candidates =>
    rw [hget] at hvalid
    exact foldlM_gotRemoteIceCandidate candidates hvalid s [] hnot hpeerConn
  | none => exact foldlM_gotRemoteIceCandidate [] List.not_mem_nil s [] hnot hpeerConn

/-- **A new invite** is handled: its call is made and found, with what waited for it, and rings or
meets an outgoing call. -/
theorem onInvite_new {userId : String} (hnames : Names content callId)
    (hsender : content.sender ≠ userId) (hage : content.isExpired = false)
    (hnew : IsNew w content callId) :
    ∃ s' s₁, w.client.onInvite userId content = .ok s' ∧
      SameCalls (passTo { w.client.newCall callId content.roomId with
        callList := w.client.callList.set callId w.client.created } w.client.created
          ((stashed w.client callId).filterMap id)) s₁ ∧
      (SameCalls s₁ s' ∨ s' = { s₁ with incoming := s₁.incoming ++ [callId] }) := by
  obtain ⟨s₀, hs₀, hinit⟩ := initWithInvite_ok hnew.offer
    (w.client.newCall callId content.roomId) w.client.created
  have hproto : callId ≠ "__proto__" := by
    rintro rfl
    exact hnames.2.2 (by decide)
  have hregister : s₀.register callId w.client.created =
      { s₀ with callList := s₀.callList.set callId w.client.created } := if_neg hproto
  have hstashed : stashed (s₀.register callId w.client.created) callId =
      stashed w.client callId := by
    rw [hregister, stashed, stashed]
    rw [hinit.candidatesByCall]
    rfl
  have hcall : (s₀.register callId w.client.created).call = s₀.call := by
    rw [hregister]
  have hplayed := playBack_ok (s := s₀.register callId w.client.created)
    (a := w.client.created) hnames.2.2 (by rw [hstashed]; exact hnew.stashed)
    (by rw [hcall]; exact hinit.ringing) (by rw [hcall]; exact hinit.peerConn)
  rw [hstashed, hregister] at hplayed
  have hself := newCall_call_self w.client callId content.roomId
  have hother : ∀ b, b ≠ w.client.created → s₀.call b = w.client.call b := by
    intro b hb
    rw [hinit.other b hb]
    exact Function.update_of_ne hb _ _
  generalize hpassed : (stashed w.client callId).filterMap id = passed at hplayed ⊢
  obtain ⟨s', hs', hannounced⟩ := announce_ok (a := w.client.created)
    (s := passTo { s₀ with callList := s₀.callList.set callId w.client.created } w.client.created
      passed) (by rw [passTo_peerConn_self]; rfl) (by
    rintro b his ⟨callId', hget⟩ hstate
    obtain ⟨hroom, houtbound, -⟩ := isExistingCall_spec his
    have hb : b ≠ w.client.created := by
      rintro rfl
      rw [passTo, modify_call_self] at houtbound
      have hinbound : (s₀.call w.client.created).outbound = false := by
        rw [hinit.outbound, hself]
        rfl
      exact nomatch hinbound.symm.trans houtbound
    rw [passTo, modify_call_ne _ hb, modify_call_self] at hroom
    rw [passTo, modify_call_ne _ hb] at houtbound hstate ⊢
    dsimp only at hroom houtbound hstate hget ⊢
    rw [hother b hb] at hroom houtbound hstate ⊢
    rw [hinit.roomId, hself] at hroom
    refine hnew.streams callId' b ?_ hroom.symm houtbound hstate
    have hget : (s₀.callList.set callId w.client.created).get callId' = some b := hget
    rw [hinit.callList, get_set] at hget
    split at hget
    · exact absurd (Option.some.inj hget).symm hb
    · exact hget)
  refine ⟨s', passTo { s₀ with callList := s₀.callList.set callId w.client.created }
    w.client.created passed, ?_, ?_, ?_⟩
  · unfold Client.onInvite
    rw [if_neg hsender, hage, hnames.findCall, hnew.noCall, hnames.key, if_neg Bool.false_ne_true,
      if_neg (show ¬ w.client.isStale .missing = true from Bool.false_ne_true)]
    dsimp only
    rw [hs₀]
    show ((s₀.register callId w.client.created).playBack callId w.client.created).bind _ = _
    rw [hregister, hplayed]
    exact hs'
  · refine ⟨hinit.created, ?_, hinit.candidatesByCall, hinit.incoming, fun b => ?_, fun b => ?_⟩
    · show s₀.callList.set callId w.client.created = _
      rw [hinit.callList]
      rfl
    · rw [passTo_callId, passTo_callId]
      show (s₀.call b).callId = ((w.client.newCall callId content.roomId).call b).callId
      by_cases hb : b = w.client.created
      · rw [hb, hinit.callId]
      · rw [hinit.other b hb]
    · by_cases hb : b = w.client.created
      · rw [hb, passTo_peerConn_self, passTo_peerConn_self]
      · rw [passTo_peerConn_ne _ hb, passTo_peerConn_ne _ hb]
        show (s₀.call b).peerConn = ((w.client.newCall callId content.roomId).call b).peerConn
        rw [hinit.other b hb]
  · refine hannounced.imp id fun hrings => ?_
    have hcallId : ((passTo { s₀ with callList := s₀.callList.set callId w.client.created }
        w.client.created passed).call w.client.created).callId = callId := by
      rw [passTo_callId]
      show (s₀.call w.client.created).callId = callId
      rw [hinit.callId, hself]
      rfl
    rw [hcallId] at hrings
    exact hrings

/-! ## One event -/

/-- What the handler leaves when an event comes in order. -/
structure Handled (userId type : String) (content : CallContent χ) (callId : String)
    (w w' : Watched χ) : Prop where
  inv : Inv w'
  keeps : ∀ callId', Settled w callId' → Settled w' callId'
  settles : Settles userId type content → Settled w' callId
  rings : w'.client.incoming = w.client.incoming ∨ type = "m.call.invite" ∧
    w'.client.incoming = w.client.incoming ++ [callId] ∧ ¬ Settled w callId

/-- An invite is not written down. -/
theorem observe_invite (w : Watched χ) (userId : String) (content : CallContent χ) :
    w.observe userId "m.call.invite" content = w := by
  simp [Watched.observe, Watched.removes, Watched.drops, Watched.hears]

theorem observe_answer (w : Watched χ) (userId : String) (content : CallContent χ) :
    w.observe userId "m.call.answer" content =
      { w with
        dropped := if w.drops userId "m.call.answer" content then
            Function.update w.dropped content.key true
          else w.dropped } := by
  simp [Watched.observe, Watched.removes, Watched.hears]

theorem observe_candidates (w : Watched χ) (userId : String) (content : CallContent χ) :
    w.observe userId "m.call.candidates" content =
      { w with
        heard := if w.hears userId "m.call.candidates" content then
            Function.update w.heard content.key
              (w.heard content.key ++ (content.candidates.getD []).filterMap id)
          else w.heard } := by
  simp [Watched.observe, Watched.removes, Watched.drops]

theorem observe_hangup (w : Watched χ) (userId : String) (content : CallContent χ) :
    w.observe userId "m.call.hangup" content =
      { w with
        removed := if w.removes "m.call.hangup" content then
            Function.update w.removed content.key true
          else w.removed } := by
  simp [Watched.observe, Watched.drops, Watched.hears]

/-- An event that changes nothing. -/
theorem Handled.refl (h : Inv w) {userId : String}
    (hsettles : Settles userId type content → Settled w callId) :
    Handled userId type content callId w w :=
  ⟨h, fun _ hsettled => hsettled, hsettles, .inl rfl⟩

/-- The call of a new invite, with what was heard of it, keeps the invariant. -/
theorem inv_of_invite (h : Inv w) (hnew : IsNew w content callId) {s₁ : Client χ}
    (hsame : SameCalls (passTo { w.client.newCall callId content.roomId with
        callList := w.client.callList.set callId w.client.created } w.client.created
          ((stashed w.client callId).filterMap id)) s₁) :
    Inv { w with client := s₁ } ∧ s₁.callList = w.client.callList.set callId w.client.created ∧
      s₁.incoming = w.client.incoming := by
  have hself := newCall_call_self w.client callId content.roomId
  have hregistered : Inv { w with client := { w.client.newCall callId content.roomId with
      callList := w.client.callList.set callId w.client.created } } := by
    refine (h.newCall callId content.roomId).register (Nat.lt_succ_self _) ?_
      (.inl ⟨hnew.noCall, ?_⟩)
    · rw [hself]
      rfl
    · rw [hself]
      rfl
  have hheard : (stashed w.client callId).filterMap id = w.heard callId := by
    rw [h.waiting callId hnew.notRemoved fun a hget => (nomatch hnew.noCall.symm.trans hget),
      List.filterMap_map]
    exact List.filterMap_some
  rw [hheard] at hsame
  refine ⟨(hregistered.connect ?_ hnew.notRemoved).same hsame, hsame.callList, hsame.incoming⟩
  show (w.client.callList.set callId w.client.created).get callId = _
  rw [get_set, if_pos rfl]

/-- **An invite** that comes in order rings only where nothing is known of its call. -/
theorem handle_invite (h : Inv w) {userId : String} (hnames : Names content callId)
    (horder : content.sender = userId ∨ content.isExpired = true ∨
      (∃ a, w.client.callList.get callId = some a ∧ (w.client.call a).state = .ended) ∨
        IsNew w content callId) :
    ∃ w', w.handle userId "m.call.invite" content = .ok w' ∧
      Handled userId "m.call.invite" content callId w w' := by
  have hsettles : Settles userId "m.call.invite" content → Settled w callId := by
    rintro (hcontra | ⟨hcontra, -⟩)
    · exact absurd hcontra (by decide)
    · exact absurd hcontra (by decide)
  have hhandler : w.client.callEventHandler userId "m.call.invite" content =
      w.client.onInvite userId content := if_pos rfl
  -- an invite that is not taken up
  have hsame : w.client.onInvite userId content = .ok w.client →
      ∃ w', w.handle userId "m.call.invite" content = .ok w' ∧
        Handled userId "m.call.invite" content callId w w' := by
    intro hignored
    refine ⟨w, ?_, .refl h hsettles⟩
    unfold Watched.handle
    rw [hhandler, hignored, observe_invite]
  by_cases hsender : content.sender = userId
  · exact hsame (if_pos hsender)
  · by_cases hage : content.isExpired = true
    · refine hsame ?_
      unfold Client.onInvite
      rw [if_neg hsender, if_pos hage]
    · rcases horder with hcontra | hcontra | ⟨a, hget, hended⟩ | hnew
      · exact absurd hcontra hsender
      · exact absurd hcontra hage
      · refine hsame ?_
        unfold Client.onInvite
        rw [if_neg hsender, if_neg hage, hnames.findCall, hget]
        exact if_pos (decide_eq_true hended)
      · obtain ⟨s', s₁, hs', hsame₁, hrings⟩ := onInvite_new hnames hsender
          (Bool.eq_false_iff.2 hage) hnew
        have hnotSettled : ¬ Settled w callId := by
          rintro (hcontra | hcontra | hcontra)
          · rw [hnew.noCall] at hcontra
            exact nomatch hcontra
          · rw [hnew.notRemoved] at hcontra
            exact nomatch hcontra
          · rw [hnew.notDropped] at hcontra
            exact nomatch hcontra
        refine ⟨{ w with client := s' }, ?_, ?_⟩
        · unfold Watched.handle
          rw [hhandler, hs', observe_invite]
        · obtain ⟨hinv₁, hcallList, hincoming⟩ := inv_of_invite h hnew hsame₁
          have hnotRung : callId ∉ s₁.incoming := by
            intro hcontra
            rw [hincoming] at hcontra
            rcases h.rung callId hcontra with hfound | hremoved
            · exact hnotSettled (.inl hfound)
            · exact hnotSettled (.inr (.inl hremoved))
          have hfound : (s₁.callList.get callId).isSome = true := by
            rw [hcallList, get_set, if_pos rfl]
            rfl
          have hkeeps : ∀ callId', Settled w callId' → Settled { w with client := s₁ } callId' := by
            rintro callId' (hsome | hsettled)
            · left
              show (s₁.callList.get callId').isSome = true
              rw [hcallList, get_set]
              split
              · rfl
              · exact hsome
            · exact .inr hsettled
          rcases hrings with hsame₂ | rfl
          · refine ⟨hinv₁.same hsame₂, fun callId' hsettled => ?_, fun hcontra => ?_, .inl ?_⟩
            · exact (hkeeps callId' hsettled).same hsame₂
            · exact absurd (hsettles hcontra) hnotSettled
            · exact hsame₂.incoming.trans hincoming
          · refine ⟨hinv₁.ring hnotRung hfound, hkeeps, fun hcontra => ?_,
              .inr ⟨rfl, ?_, hnotSettled⟩⟩
            · exact absurd (hsettles hcontra) hnotSettled
            · show s₁.incoming ++ [callId] = _
              rw [hincoming]

/-- A call that was found is known. -/
theorem Handled.same (h : Inv w) {userId : String} {s' : Client χ} (hsame : SameCalls w.client s')
    (hsettles : Settles userId type content → Settled w callId) :
    Handled userId type content callId w { w with client := s' } :=
  ⟨h.same hsame, fun _ hsettled => hsettled.same hsame,
    fun hcontra => (hsettles hcontra).same hsame, .inl hsame.incoming⟩

/-- **An answer** of the user's own settles the call, or is written down. -/
theorem handle_answer (h : Inv w) {userId : String} (hnames : Names content callId)
    (horder : content.sender ≠ userId →
      ∀ a, w.client.callList.get callId = some a → (w.client.call a).state ≠ .ended →
        (w.client.call a).peerConn.isSome = true ∧ content.answer = true) :
    ∃ w', w.handle userId "m.call.answer" content = .ok w' ∧
      Handled userId "m.call.answer" content callId w w' := by
  have hhandler : w.client.callEventHandler userId "m.call.answer" content =
      w.client.onAnswer userId content := by
    unfold Client.callEventHandler
    rw [if_neg (by decide), if_pos rfl]
  cases hget : w.client.callList.get callId with
  | none =>
    have hdrops : w.drops userId "m.call.answer" content = decide (content.sender = userId) := by
      simp [Watched.drops, hnames.findCall, hget]
    refine ⟨w.observe userId "m.call.answer" content, ?_, ?_⟩
    · unfold Watched.handle
      rw [hhandler, Client.onAnswer, hnames.findCall, hget, observe_answer]
    · rw [observe_answer, hnames.key, hdrops]
      refine ⟨⟨h.made, h.named, h.once, h.rung, h.passed, h.listed, h.waiting, h.again⟩,
        fun callId' hsettled => ?_, fun hsettles => ?_, .inl rfl⟩
      · refine hsettled.imp id (Or.imp id fun hdropped => ?_)
        dsimp only
        split
        · by_cases hne : callId' = callId
          · rw [hne, Function.update_self]
          · rw [Function.update_of_ne hne]
            exact hdropped
        · exact hdropped
      · rcases hsettles with hcontra | ⟨-, hsender⟩
        · exact absurd hcontra (by decide)
        · right
          right
          dsimp only
          rw [if_pos (decide_eq_true hsender), Function.update_self]
  | some a =>
    have hdrops : w.drops userId "m.call.answer" content = false := by
      simp [Watched.drops, hnames.findCall, hget]
    have hobserve : w.observe userId "m.call.answer" content = w := by
      rw [observe_answer, hdrops]
      rfl
    have hsettled : Settled w callId := by
      left
      rw [hget]
      rfl
    have hresult : ∃ s', w.client.onAnswer userId content = .ok s' ∧ SameCalls w.client s' := by
      unfold Client.onAnswer
      rw [hnames.findCall, hget]
      dsimp only
      split
      · split
        · exact ⟨_, rfl, same_terminate w.client a true⟩
        · exact ⟨_, rfl, .refl _⟩
      next hsender =>
        unfold Client.receivedAnswer
        split
        · exact ⟨_, rfl, .refl _⟩
        next hnot =>
          obtain ⟨hconnected, hanswer⟩ := horder hsender a hget hnot
          rw [hconnected, hanswer]
          exact ⟨_, rfl, same_setState w.client a _⟩
    obtain ⟨s', hs', hsame⟩ := hresult
    refine ⟨{ w with client := s' }, ?_, .same h hsame fun _ => hsettled⟩
    unfold Watched.handle
    rw [hhandler, hs', hobserve]

/-- **Candidates** are heard, and wait or are passed. -/
theorem handle_candidates (h : Inv w) {userId : String} (hnames : Names content callId)
    (horder : content.sender ≠ userId →
      (∃ candidates, content.candidates = some candidates ∧ none ∉ candidates) ∧
        ∀ a, w.client.callList.get callId = some a → (w.client.call a).state ≠ .ended →
          (w.client.call a).peerConn.isSome = true) :
    ∃ w', w.handle userId "m.call.candidates" content = .ok w' ∧
      Handled userId "m.call.candidates" content callId w w' := by
  have hhandler : w.client.callEventHandler userId "m.call.candidates" content =
      w.client.onCandidates userId content := by
    unfold Client.callEventHandler
    rw [if_neg (by decide), if_neg (by decide), if_pos rfl]
  have hsettles : Settles userId "m.call.candidates" content → Settled w callId := by
    rintro (hcontra | ⟨hcontra, -⟩)
    · exact absurd hcontra (by decide)
    · exact absurd hcontra (by decide)
  by_cases hsender : content.sender = userId
  · have hhears : w.hears userId "m.call.candidates" content = false := by
      simp [Watched.hears, hsender]
    refine ⟨w, ?_, .refl h hsettles⟩
    unfold Watched.handle
    rw [hhandler, Client.onCandidates, if_pos hsender, observe_candidates, hhears]
    rfl
  · obtain ⟨⟨candidates, hcandidates, hvalid⟩, hconnected⟩ := horder hsender
    have hhears : w.hears userId "m.call.candidates" content = !w.isOver callId := by
      simp [Watched.hears, hsender, hnames.key]
    have hobserve : w.observe userId "m.call.candidates" content =
        { w with
          heard := if !w.isOver callId then
              Function.update w.heard callId (w.heard callId ++ candidates.filterMap id)
            else w.heard } := by
      rw [observe_candidates, hhears, hnames.key, hcandidates]
      rfl
    cases hget : w.client.callList.get callId with
    | none =>
      have hover : w.isOver callId = w.removed callId := by
        rw [Watched.isOver, hget]
      refine ⟨{ w with
        client := w.client.stash content
        heard := if w.removed callId then w.heard else
          Function.update w.heard callId (w.heard callId ++ candidates.filterMap id) }, ?_,
        h.stash hnames hget hcandidates hvalid, fun _ hsettled => hsettled, hsettles, .inl rfl⟩
      unfold Watched.handle
      rw [hhandler, Client.onCandidates, if_neg hsender, hnames.findCall, hget, hobserve, hover]
      cases w.removed callId <;> rfl
    | some a =>
      have hover : w.isOver callId = decide ((w.client.call a).state = .ended) := by
        rw [Watched.isOver, hget]
      have hresult : w.client.onCandidates userId content =
          candidates.foldlM (fun s cand => s.gotRemoteIceCandidate a cand) w.client := by
        rw [Client.onCandidates, if_neg hsender, hnames.findCall, hget, hcandidates]
      by_cases hended : (w.client.call a).state = .ended
      · refine ⟨w, ?_, .refl h hsettles⟩
        unfold Watched.handle
        rw [hhandler, hresult, foldlM_of_ended hended, hobserve, hover, decide_eq_true hended]
        rfl
      · obtain ⟨passed, hpassed⟩ := Option.isSome_iff_exists.1 (hconnected a hget hended)
        refine ⟨_, ?_, h.hear hget hpassed (candidates.filterMap id), fun _ hsettled => hsettled,
          hsettles, .inl rfl⟩
        unfold Watched.handle
        rw [hhandler, hresult, foldlM_gotRemoteIceCandidate candidates hvalid _ passed hended
          hpassed, hobserve, hover, decide_eq_false hended]
        rfl

/-- **A hangup** settles the call: it has ended, or is written down as removed. -/
theorem handle_hangup (h : Inv w) (userId : String) (hnames : Names content callId) :
    ∃ w', w.handle userId "m.call.hangup" content = .ok w' ∧
      Handled userId "m.call.hangup" content callId w w' := by
  have hhandler : w.client.callEventHandler userId "m.call.hangup" content =
      w.client.onHangup content := by
    unfold Client.callEventHandler
    rw [if_neg (by decide), if_neg (by decide), if_neg (by decide), if_pos rfl]
  cases hget : w.client.callList.get callId with
  | none =>
    have hproto : callId ≠ "__proto__" := by
      rintro rfl
      exact hnames.2.2 (by decide)
    have hremoves : w.removes "m.call.hangup" content = false := by
      simp [Watched.removes, hnames.findCall, hget]
    have hobserve : w.observe userId "m.call.hangup" content = w := by
      rw [observe_hangup, hremoves]
      rfl
    have hmade := h.newCall callId content.roomId
    have hended := hmade.same (same_setState _ w.client.created .ended)
    have hself : (((w.client.newCall callId content.roomId).setState w.client.created
        .ended).call w.client.created).callId = callId ∧
        (((w.client.newCall callId content.roomId).setState w.client.created
          .ended).call w.client.created).peerConn = none := by
      rw [Client.setState, modify_call_self, newCall_call_self]
      exact ⟨rfl, rfl⟩
    have hregistered := hended.register (a := w.client.created) (Nat.lt_succ_self _) hself.1
      (.inl ⟨hget, hself.2⟩)
    have hkeeps : ∀ callId', (w.client.callList.get callId').isSome = true →
        ((w.client.callList.set callId w.client.created).get callId').isSome = true := by
      intro callId' hsome
      rw [get_set]
      split
      · rfl
      · exact hsome
    refine ⟨_, ?_, hregistered, fun callId' hsettled => hsettled.imp (hkeeps callId') id,
      fun _ => .inl ?_, .inl rfl⟩
    · unfold Watched.handle
      rw [hhandler, Client.onHangup, hnames.findCall, hget, hobserve, hnames.key]
      dsimp only
      rw [Client.register, if_neg hproto]
      rfl
    · show ((w.client.callList.set callId w.client.created).get callId).isSome = true
      rw [get_set, if_pos rfl]
      rfl
  | some a =>
    by_cases hended : (w.client.call a).state = .ended
    · have hremoves : w.removes "m.call.hangup" content = false := by
        simp [Watched.removes, hnames.findCall, hget, hended]
      have hsettled : Settled w callId := by
        left
        rw [hget]
        rfl
      refine ⟨w, ?_, .refl h fun _ => hsettled⟩
      unfold Watched.handle
      rw [hhandler, Client.onHangup, hnames.findCall, hget]
      dsimp only
      rw [if_pos hended, observe_hangup, hremoves]
      rfl
    · have hremoves : w.removes "m.call.hangup" content = true := by
        simp [Watched.removes, hnames.findCall, hget, hended]
      have hsame : SameCalls w.client (w.client.onHangupReceived a) :=
        same_terminate w.client a true
      have hremoved := (h.same hsame).remove callId
      refine ⟨_, ?_, hremoved, fun callId' hsettled => ?_, fun _ => .inr (.inl ?_),
        .inl hsame.incoming⟩
      · unfold Watched.handle
        rw [hhandler, Client.onHangup, hnames.findCall, hget]
        dsimp only
        rw [if_neg hended, observe_hangup, hremoves, hnames.key]
        rfl
      · by_cases hne : callId' = callId
        · right
          left
          rw [hne]
          exact Function.update_self _ _ _
        · rcases hsettled with hsome | hsettled | hsettled
          · left
            show ((w.client.onHangupReceived a).callList.delete callId).get callId' |>.isSome
            rw [get_delete_ne hne, hsame.callList]
            exact hsome
          · right
            left
            show Function.update w.removed callId true callId' = true
            rw [Function.update_of_ne hne]
            exact hsettled
          · exact .inr (.inr hsettled)
      · exact Function.update_self _ _ _

/-- An event of another type. -/
theorem handle_other (h : Inv w) {userId : String} (callId : String)
    (hinvite : type ≠ "m.call.invite") (hanswer : type ≠ "m.call.answer")
    (hcandidates : type ≠ "m.call.candidates") (hhangup : type ≠ "m.call.hangup") :
    ∃ w', w.handle userId type content = .ok w' ∧ Handled userId type content callId w w' := by
  refine ⟨w, ?_, .refl h ?_⟩
  · unfold Watched.handle Client.callEventHandler
    rw [if_neg hinvite, if_neg hanswer, if_neg hcandidates, if_neg hhangup]
    simp [Watched.observe, Watched.removes, Watched.drops, Watched.hears, hanswer, hcandidates,
      hhangup]
  · rintro (hcontra | ⟨hcontra, -⟩)
    · exact absurd hcontra hhangup
    · exact absurd hcontra hanswer

/-- **An event that comes in order.** -/
theorem handle_spec (h : Inv w) {userId : String} (horder : EventInOrder userId w type content) :
    ∃ callId w', Names content callId ∧ w.handle userId type content = .ok w' ∧
      Handled userId type content callId w w' := by
  obtain ⟨callId, hnames, hinvite, hanswer, hcandidates⟩ := horder
  refine ⟨callId, ?_⟩
  by_cases htype : type = "m.call.invite"
  · obtain ⟨w', hw'⟩ := handle_invite h hnames (hinvite htype)
    exact ⟨w', hnames, by rw [htype]; exact hw'⟩
  · by_cases htype₁ : type = "m.call.answer"
    · obtain ⟨w', hw'⟩ := handle_answer h hnames (hanswer htype₁)
      exact ⟨w', hnames, by rw [htype₁]; exact hw'⟩
    · by_cases htype₂ : type = "m.call.candidates"
      · obtain ⟨w', hw'⟩ := handle_candidates h hnames (hcandidates htype₂)
        exact ⟨w', hnames, by rw [htype₂]; exact hw'⟩
      · by_cases htype₃ : type = "m.call.hangup"
        · obtain ⟨w', hw'⟩ := handle_hangup h userId hnames
          exact ⟨w', hnames, by rw [htype₃]; exact hw'⟩
        · obtain ⟨w', hw'⟩ := handle_other h callId htype htype₁ htype₂ htype₃
          exact ⟨w', hnames, hw'⟩

/-! ## What else happens to the calls -/

/-- What is kept when no event is handled. -/
structure Kept (w : Watched χ) (s' : Client χ) : Prop where
  inv : Inv { w with client := s' }
  settled : ∀ callId, Settled w callId → Settled { w with client := s' } callId
  incoming : s'.incoming = w.client.incoming

theorem Kept.of_same (h : Inv w) (hsame : SameCalls w.client s') : Kept w s' :=
  ⟨h.same hsame, fun _ hsettled => hsettled.same hsame, hsame.incoming⟩

/-- What a call does by itself comes before, or after. -/
theorem Kept.after (h : Inv w) (hsame : SameCalls w.client s')
    (hkept : Inv { w with client := s' } → Kept { w with client := s' } s'') : Kept w s'' := by
  obtain ⟨hinv, hsettled, hincoming⟩ := hkept (h.same hsame)
  exact ⟨hinv, fun callId hold => hsettled callId (hold.same hsame),
    hincoming.trans hsame.incoming⟩

theorem Kept.trans_same (h : Kept w s') (hsame : SameCalls s' s'') : Kept w s'' :=
  ⟨h.inv.same hsame, fun callId hold => (h.settled callId hold).same hsame,
    hsame.incoming.trans h.incoming⟩

theorem PlacedAlone.same (h : PlacedAlone w a) (hsame : SameCalls w.client s') :
    PlacedAlone { w with client := s' } a := by
  constructor <;> dsimp only
  · rw [hsame.created]
    exact h.made
  · rw [hsame.callId, hsame.callList]
    exact h.alone
  · rw [hsame.callId]
    exact h.notRemoved

/-- **A call is placed.** -/
theorem kept_placeCallWithConstraints (h : Inv w) (halone : PlacedAlone w a) :
    Kept w (w.client.placeCallWithConstraints a) := by
  have hfree : w.client.callList.get (w.client.call a).callId = none ∧
      (w.client.call a).peerConn = none ∨
        w.client.callList.get (w.client.call a).callId = some a := by
    refine halone.alone.imp (fun hnone => ⟨hnone, ?_⟩) id
    by_contra hcontra
    rcases h.listed a halone.made (Option.isSome_iff_ne_none.2 hcontra) with hget | hremoved
    · exact nomatch hnone.symm.trans hget
    · exact nomatch halone.notRemoved.symm.trans hremoved
  have hregistered : Kept w
      { w.client with callList := w.client.callList.set (w.client.call a).callId a } := by
    refine ⟨h.register halone.made rfl hfree,
      fun callId hsettled => hsettled.imp (fun hsome => ?_) id, rfl⟩
    show ((w.client.callList.set (w.client.call a).callId a).get callId).isSome = true
    rw [get_set]
    split
    · rfl
    · exact hsome
  have hsame : SameCalls
      { w.client with callList := w.client.callList.set (w.client.call a).callId a }
      (w.client.placeCallWithConstraints a) := by
    have hwaits := (same_addTask { w.client with
      callList := w.client.callList.set (w.client.call a).callId a } (.userMediaForInvite a)).trans
        (same_setState _ a .waitLocalMedia)
    unfold Client.placeCallWithConstraints
    exact hwaits.trans (same_modify _ a (fun _ => rfl) fun _ => rfl)
  exact hregistered.trans_same hsame

theorem ConnectsFirst.same (h : ConnectsFirst w a) (hsame : SameCalls w.client s') :
    ConnectsFirst { w with client := s' } a := by
  constructor <;> dsimp only
  · rw [hsame.callId, hsame.callList]
    exact h.listed
  · rw [hsame.callId]
    exact h.notRemoved
  · rw [hsame.callId, hsame.candidatesByCall]
    exact h.noneWaits
  · rw [hsame.peerConn]
    exact h.nonePassed

/-- No candidates have been heard of a call that connects first. -/
theorem ConnectsFirst.heard (hfirst : ConnectsFirst w a) (h : Inv w) :
    w.heard (w.client.call a).callId = [] := by
  cases hpeerConn : (w.client.call a).peerConn with
  | some passed =>
    have hnone := hfirst.nonePassed
    rw [hpeerConn] at hnone
    rw [← h.passed a (h.made _ a hfirst.listed) passed hpeerConn]
    exact hnone
  | none =>
    have hwaiting := h.waiting _ hfirst.notRemoved fun b hget => by
      rw [hfirst.listed] at hget
      rw [← Option.some.inj hget]
      exact hpeerConn
    rw [stashed, hfirst.noneWaits] at hwaiting
    exact List.map_eq_nil_iff.1 hwaiting.symm

/-- **An outgoing call gets its connection.** -/
theorem kept_startOffer (h : Inv w) (hfirst : ConnectsFirst w a) :
    Kept w (w.client.startOffer a) := by
  have hconnected := h.connect hfirst.listed hfirst.notRemoved
  rw [hfirst.heard h] at hconnected
  have hkept : Kept w (passTo w.client a []) := ⟨hconnected, fun _ hsettled => hsettled, rfl⟩
  exact hkept.trans_same (.trans (same_addTask _ (.createOffer a)) (same_setState _ a _))

theorem kept_gotDisplayMedia (h : Inv w) (halone : outcome = .succeeds → PlacedAlone w a) :
    Kept w (w.client.gotDisplayMedia a outcome) := by
  cases outcome with
  | succeeds =>
    have hsame : SameCalls w.client ((w.client.grant a).modify a fun call =>
        { call with screenSharingStream := some [w.client.granted] }) :=
      (same_grant w.client a).trans (same_modify _ a (fun _ => rfl) fun _ => rfl)
    refine .after h hsame fun hinv => ?_
    exact kept_placeCallWithConstraints hinv ((halone rfl).same hsame)
  | permissionDenied => exact .of_same h (.refl _)
  | fails => exact .of_same h (.refl _)

/-- **The media of an outgoing call.** -/
theorem kept_maybeGotUserMediaForInvite (h : Inv w)
    (hfirst : outcome ≠ .fails → (w.client.call a).successor = none →
      (w.client.call a).state ≠ .ended → ConnectsFirst w a) :
    Kept w (afterwards ((w.client.userMedia a outcome).1.maybeGotUserMediaForInvite a
      (w.client.userMedia a outcome).2)) := by
  have hcall : (w.client.userMedia a outcome).1.call a = w.client.call a := by
    cases outcome <;> rfl
  have hsame := same_userMedia w.client a outcome
  unfold Client.maybeGotUserMediaForInvite
  rw [hcall]
  cases hsuccessor : (w.client.call a).successor with
  | some b => exact .of_same h (hsame.trans (same_maybeGotUserMediaForAnswer _ b _))
  | none =>
    dsimp only
    split
    · exact .of_same h hsame
    next hnot =>
      cases outcome with
      | succeeds =>
        have hscreen := hsame.trans (same_withScreen _ a [w.client.granted])
        exact .after h hscreen fun hinv =>
          kept_startOffer hinv ((hfirst nofun hsuccessor hnot).same hscreen)
      | permissionDenied => exact kept_startOffer h (hfirst nofun hsuccessor hnot)
      | fails => exact .of_same h (same_terminate w.client a false)

/-- **A task is completed.** -/
theorem kept_complete (h : Inv w) {task : Task}
    (horder : LocalInOrder w (.completes task outcome)) :
    Kept w (w.client.complete task outcome) := by
  cases task with
  | displayMedia a =>
    refine kept_gotDisplayMedia h fun hsucceeds => ?_
    subst hsucceeds
    exact horder
  | userMediaForInvite a => exact kept_maybeGotUserMediaForInvite h horder
  | userMediaForAnswer a =>
    exact .of_same h ((same_userMedia w.client a outcome).trans
      (same_maybeGotUserMediaForAnswer _ a _))
  | createOffer a =>
    cases outcome with
    | succeeds =>
      show Kept w (w.client.gotLocalOffer a)
      rw [Client.gotLocalOffer]
      split
      · exact .of_same h (.refl _)
      · exact .of_same h (same_addTask _ _)
    | permissionDenied => exact .of_same h (.refl _)
    | fails => exact .of_same h (.refl _)
  | setLocalOffer a =>
    cases outcome with
    | succeeds =>
      exact .of_same h ((same_sendEvent w.client (.invite a)).trans
        (same_addTask _ (.sendInvite a)))
    | permissionDenied => exact .of_same h (.refl _)
    | fails => exact .of_same h (.refl _)
  | sendInvite a =>
    cases outcome with
    | succeeds =>
      exact .of_same h ((same_setState w.client a .inviteSent).trans
        (same_addTask _ (.inviteTimeout a)))
    | permissionDenied => exact .of_same h (same_terminate w.client a false)
    | fails => exact .of_same h (same_terminate w.client a false)
  | inviteTimeout a =>
    show Kept w (w.client.inviteTimeout a)
    rw [Client.inviteTimeout]
    split
    · exact .of_same h (same_hangup w.client a false)
    · exact .of_same h (.refl _)
  | createAnswer a =>
    cases outcome with
    | succeeds => exact .of_same h (same_addTask w.client (.setLocalAnswer a))
    | permissionDenied => exact .of_same h (.refl _)
    | fails => exact .of_same h (.refl _)
  | setLocalAnswer a =>
    cases outcome with
    | succeeds =>
      have hset : SameCalls w.client (w.client.modify a fun call =>
          { call with answerContent := true }) :=
        same_modify w.client a (fun _ => rfl) fun _ => rfl
      exact .of_same h (hset.trans (same_sendAnswer _ a))
    | permissionDenied => exact .of_same h (.refl _)
    | fails => exact .of_same h (.refl _)
  | sendAnswer a =>
    cases outcome with
    | succeeds => exact .of_same h (same_setState w.client a .connecting)
    | permissionDenied => exact .of_same h (same_setState w.client a .ringing)
    | fails => exact .of_same h (same_setState w.client a .ringing)
  | inviteExpires a => exact .of_same h (same_inviteExpires w.client a)

/-- It makes no difference which other tasks are under way. -/
theorem localInOrder_completes {task : Task} (h : LocalInOrder w (.completes task outcome))
    (hsame : SameCalls w.client s') (hcall : s'.call = w.client.call) :
    LocalInOrder { w with client := s' } (.completes task outcome) := by
  cases task with
  | displayMedia a =>
    cases outcome with
    | succeeds => exact PlacedAlone.same h hsame
    | permissionDenied => trivial
    | fails => trivial
  | userMediaForInvite a =>
    intro hfails hsuccessor hnot
    dsimp only at hsuccessor hnot
    rw [hcall] at hsuccessor hnot
    exact (h hfails hsuccessor hnot).same hsame
  | _ => trivial

theorem kept_localStep (h : Inv w) {event : LocalEvent} (horder : LocalInOrder w event)
    (hstep : w.client.localStep event = some s') : Kept w s' := by
  cases event with
  | createCall callId roomId =>
    obtain ⟨-, heq⟩ := Option.ite_none_right_eq_some.1 hstep
    obtain rfl := Option.some.inj heq
    exact ⟨h.newCall callId roomId, fun _ hsettled => hsettled, rfl⟩
  | placeCall a =>
    obtain ⟨-, heq⟩ := Option.ite_none_right_eq_some.1 hstep
    obtain rfl := Option.some.inj heq
    exact kept_placeCallWithConstraints h horder
  | placeScreenSharingCall a =>
    obtain ⟨-, heq⟩ := Option.ite_none_right_eq_some.1 hstep
    obtain rfl := Option.some.inj heq
    exact .of_same h (same_addTask w.client _)
  | answer a =>
    obtain ⟨-, heq⟩ := Option.ite_none_right_eq_some.1 hstep
    obtain rfl := Option.some.inj heq
    exact .of_same h (same_answer w.client a)
  | hangup a suppressEvent =>
    obtain ⟨-, heq⟩ := Option.ite_none_right_eq_some.1 hstep
    obtain rfl := Option.some.inj heq
    exact .of_same h (same_hangup w.client a suppressEvent)
  | completes task outcome =>
    obtain ⟨-, heq⟩ := Option.ite_none_right_eq_some.1 hstep
    obtain rfl := Option.some.inj heq
    have hsame : SameCalls w.client { w.client with tasks := w.client.tasks.erase task } :=
      ⟨rfl, rfl, rfl, rfl, fun _ => rfl, fun _ => rfl⟩
    exact .after h hsame fun hinv => kept_complete hinv (localInOrder_completes horder hsame rfl)
  | iceConnectionStateChanges a ice =>
    obtain ⟨-, heq⟩ := Option.ite_none_right_eq_some.1 hstep
    obtain rfl := Option.some.inj heq
    unfold Client.onIceConnectionStateChanged
    split
    · exact .of_same h (.refl _)
    · cases ice with
      | connected => exact .of_same h (same_setState w.client a _)
      | failed => exact .of_same h (same_hangup w.client a false)
      | other => exact .of_same h (.refl _)
  | streamAdded a =>
    obtain ⟨-, heq⟩ := Option.ite_none_right_eq_some.1 hstep
    obtain rfl := Option.some.inj heq
    exact .of_same h (same_modify w.client a (fun _ => rfl) fun _ => rfl)
  | remoteStreamStarts a start =>
    obtain ⟨-, heq⟩ := Option.ite_none_right_eq_some.1 hstep
    obtain rfl := Option.some.inj heq
    cases start <;> exact .of_same h (same_setState w.client a _)
  | remoteStreamEnds a =>
    obtain ⟨-, heq⟩ := Option.ite_none_right_eq_some.1 hstep
    obtain rfl := Option.some.inj heq
    exact .of_same h ((same_endCall w.client a).trans (same_emitHangup _ a))

/-! ## The buffer -/

/-- What going through a part of the buffer leaves: a call that begins to ring was not known, and no
hangup or answer of the buffer is for it. -/
structure WentThrough (userId : String) (ids : List String) (is : List ℕ)
    (s s' : WatchedClient χ) : Prop where
  events : s'.events = s.events
  inv : Inv s'.calls
  keeps : ∀ callId, Settled s.calls callId → Settled s'.calls callId
  settles : ∀ i ∈ is, ∀ type content decrypting,
    s.events i = some ⟨.known type content, decrypting⟩ → Settles userId type content →
      Settled s'.calls content.key
  rings : ∃ new, s'.calls.client.incoming = s.calls.client.incoming ++ new ∧
    ∀ callId ∈ new, ¬ Settled s.calls callId ∧ callId ∉ ids

/-- An event that settles its call is no invite. -/
theorem not_invite_of_settles {userId : String} (h : Settles userId type content) :
    type ≠ "m.call.invite" := by
  rintro rfl
  rcases h with hcontra | ⟨hcontra, -⟩
  · exact absurd hcontra (by decide)
  · exact absurd hcontra (by decide)

/-- What is asked of the buffer depends on the events only. -/
theorem bufferInOrder_congr {userId : String} {s s' : WatchedClient χ}
    (hevents : s'.events = s.events) {is : List ℕ} : ∀ {w : Watched χ},
      BufferInOrder userId s' ids is w ↔ BufferInOrder userId s ids is w := by
  induction is with
  | nil => exact Iff.rfl
  | cons i is ih =>
    intro w
    rw [BufferInOrder, BufferInOrder, isIgnored_congr hevents, hevents]
    split
    · exact ih
    · split
      · exact and_congr_right fun _ => ih
      · exact ih

/-- An invite that is left out. -/
theorem leaveOut_through {userId : String} {s : WatchedClient χ} {i : ℕ} (h : Inv s.calls)
    (hignored : s.isIgnored (watchedHandler χ userId) ids i = true) :
    WentThrough userId ids [i] s (s.leaveOut (watchedHandler χ userId) ids i) ∧
      (s.leaveOut (watchedHandler χ userId) ids i).calls = s.calls := by
  obtain ⟨hinjects, hcalls, -, -⟩ :=
    leaveOut_spec (h := watchedHandler χ userId) (s := s) ids i
  refine ⟨⟨hinjects.events, ?_, fun callId => ?_,
    fun j hj type content decrypting hevent hsettles => ?_, [], ?_,
    fun _ hcontra => absurd hcontra List.not_mem_nil⟩, hcalls⟩
  · rw [hcalls]
    exact h
  · rw [hcalls]
    exact id
  · rw [List.mem_singleton.1 hj] at hevent
    rw [EventBuffer.isIgnored, EventBuffer.invitedCall, hevent] at hignored
    dsimp only at hignored
    rw [if_neg (not_invite_of_settles hsettles)] at hignored
    cases hignored
  · rw [hcalls, List.append_nil]

/-- An event of the buffer that is handled in order. -/
theorem callEventHandler_through {userId : String} {s : WatchedClient χ} {i : ℕ} {decrypting : Bool}
    (h : Inv s.calls) (hignored : ¬ s.isIgnored (watchedHandler χ userId) ids i = true)
    (hevent : s.events i = some ⟨.known type content, decrypting⟩)
    (horder : EventInOrder userId s.calls type content) :
    (s.callEventHandler (watchedHandler χ userId) i).2 = true ∧
      WentThrough userId ids [i] s (s.callEventHandler (watchedHandler χ userId) i).1 ∧
      (s.callEventHandler (watchedHandler χ userId) i).1.calls =
        afterwards (s.calls.handle userId type content) := by
  obtain ⟨callId, w', hnames, hhandle, hhandled⟩ := handle_spec h horder
  obtain ⟨hinjects, -, -⟩ := callEventHandler_spec (h := watchedHandler χ userId) hevent
  have hmade : (s.callEventHandler (watchedHandler χ userId) i).2 = true ∧
      (s.callEventHandler (watchedHandler χ userId) i).1.calls = w' := by
    unfold EventBuffer.callEventHandler
    rw [hevent]
    dsimp only
    rw [show (watchedHandler χ userId).handle s.calls type content = .ok w' from hhandle]
    exact ⟨rfl, rfl⟩
  refine ⟨hmade.1, ⟨hinjects.events, ?_, fun callId' => ?_, fun j hj type' content' decrypting'
    hevent' hsettles => ?_, ?_⟩, ?_⟩
  · rw [hmade.2]
    exact hhandled.inv
  · rw [hmade.2]
    exact hhandled.keeps callId'
  · rw [List.mem_singleton.1 hj, hevent] at hevent'
    obtain ⟨⟨rfl, rfl⟩, -⟩ := by simpa using hevent'
    rw [hmade.2, hnames.key]
    exact hhandled.settles hsettles
  · rw [hmade.2]
    rcases hhandled.rings with hsame | ⟨rfl, hrings, hnot⟩
    · exact ⟨[], by rw [hsame, List.append_nil], fun _ hcontra => absurd hcontra List.not_mem_nil⟩
    · refine ⟨[callId], hrings, fun callId' hcallId' => ?_⟩
      obtain rfl := List.mem_singleton.1 hcallId'
      refine ⟨hnot, fun hids => hignored ?_⟩
      unfold EventBuffer.isIgnored EventBuffer.invitedCall
      rw [hevent]
      dsimp only
      rw [if_pos rfl, Option.any_some, Bool.or_eq_true, List.contains_iff_mem]
      left
      rw [show (watchedHandler χ userId).callId content = callId' from hnames.key]
      exact hids
  · rw [hmade.2, hhandle]
    rfl

/-- **The buffer is gone through** to its end when its events are in order. -/
theorem inject_inOrder {userId : String} (ids : List String) (is : List ℕ) :
    ∀ s : WatchedClient χ, Inv s.calls → BufferInOrder userId s ids is s.calls →
      (EventBuffer.inject (watchedHandler χ userId) ids is s).2 = true ∧
        WentThrough userId ids is s (EventBuffer.inject (watchedHandler χ userId) ids is s).1 := by
  induction is with
  | nil =>
    intro s h _
    exact ⟨rfl, rfl, h, fun _ hsettled => hsettled,
      fun _ hcontra => absurd hcontra List.not_mem_nil, [], (List.append_nil _).symm,
      fun _ hcontra => absurd hcontra List.not_mem_nil⟩
  | cons i is ih =>
    intro s h horder
    -- from the state after the first event
    have hrest : ∀ s₁ : WatchedClient χ, WentThrough userId ids [i] s s₁ →
        BufferInOrder userId s ids is s₁.calls →
          (EventBuffer.inject (watchedHandler χ userId) ids is s₁).2 = true ∧
            WentThrough userId ids (i :: is) s
              (EventBuffer.inject (watchedHandler χ userId) ids is s₁).1 := by
      intro s₁ hfirst horder₁
      rw [← bufferInOrder_congr hfirst.events] at horder₁
      obtain ⟨hreturns, hthrough⟩ := ih s₁ hfirst.inv horder₁
      refine ⟨hreturns, hthrough.events.trans hfirst.events, hthrough.inv,
        fun callId hsettled => hthrough.keeps callId (hfirst.keeps callId hsettled),
        fun j hj type content decrypting hevent hsettles => ?_, ?_⟩
      · rcases List.mem_cons.1 hj with rfl | hj
        · exact hthrough.keeps _ (hfirst.settles j (List.mem_singleton_self j) type content
            decrypting hevent hsettles)
        · exact hthrough.settles j hj type content decrypting
            (by rw [hfirst.events]; exact hevent) hsettles
      · obtain ⟨new₁, hnew₁, hrings₁⟩ := hfirst.rings
        obtain ⟨new₂, hnew₂, hrings₂⟩ := hthrough.rings
        refine ⟨new₁ ++ new₂, by rw [hnew₂, hnew₁, List.append_assoc], fun callId hcallId => ?_⟩
        rcases List.mem_append.1 hcallId with hin | hin
        · exact hrings₁ callId hin
        · obtain ⟨hnot, hids⟩ := hrings₂ callId hin
          exact ⟨fun hsettled => hnot (hfirst.keeps callId hsettled), hids⟩
    rw [BufferInOrder] at horder
    rw [EventBuffer.inject]
    split at horder
    next hignored =>
      rw [if_pos hignored]
      obtain ⟨hthrough, hcalls⟩ := leaveOut_through h hignored
      refine hrest _ hthrough ?_
      rw [hcalls]
      exact horder
    next hignored =>
      rw [if_neg hignored]
      split at horder
      next type content decrypting hevent =>
        obtain ⟨hevent', horder'⟩ := horder
        obtain ⟨hreturns, hthrough, hcalls⟩ := callEventHandler_through h hignored hevent hevent'
        generalize s.callEventHandler (watchedHandler χ userId) i = made
          at hreturns hthrough hcalls
        obtain ⟨s₁, returned⟩ := made
        obtain rfl : returned = true := hreturns
        refine hrest s₁ hthrough ?_
        rw [show s₁.calls = _ from hcalls]
        exact horder'
      next hunknown =>
        have hmade : s.callEventHandler (watchedHandler χ userId) i = (s, true) := by
          unfold EventBuffer.callEventHandler
          split
          next type content decrypting hevent =>
            exact absurd hevent (hunknown type content decrypting)
          · rfl
        rw [hmade]
        refine hrest s ⟨rfl, h, fun _ hsettled => hsettled,
          fun j hj type content decrypting hevent _ => ?_, [], (List.append_nil _).symm,
          fun _ hcontra => absurd hcontra List.not_mem_nil⟩ horder
        rw [List.mem_singleton.1 hj] at hevent
        exact absurd hevent (hunknown type content decrypting)

/-! ## Runs -/

/-- The invariant of the client: what settles a call is known of it, or is still in the buffer. -/
structure BufferInv (userId : String) (s : WatchedClient χ) : Prop where
  calls : Inv s.calls
  clear : ∀ i event, s.events i = some event →
    ∃ type content, event = ⟨.known type content, false⟩
  settled : ∀ i type content, s.events i = some ⟨.known type content, false⟩ →
    Settles userId type content → i ∈ s.callEventBuffer ∨ Settled s.calls content.key

variable {userId : String}

theorem BufferInv.ringsOnce {s : WatchedClient χ} (h : BufferInv userId s) : RingsOnce s :=
  ⟨h.calls.once, h.calls.passed⟩

theorem BufferInv.new (userId : String) : BufferInv userId (system χ userId).init where
  calls := by
    refine ⟨fun _ _ hget => (nomatch hget), fun _ _ hget => (nomatch hget), List.nodup_nil,
      fun _ hcontra => absurd hcontra List.not_mem_nil, fun _ hcontra => (nomatch hcontra),
      fun _ hcontra => (nomatch hcontra), fun _ _ _ => rfl, fun _ _ hcontra => (nomatch hcontra)⟩
  clear := fun _ _ hevent => nomatch hevent
  settled := fun _ _ _ hevent => nomatch hevent

/-- No call begins to ring. -/
theorem ringsInTime_of_same {s s' : WatchedClient χ}
    (h : s'.calls.client.incoming = s.calls.client.incoming) : RingsInTime userId s s' := by
  intro callId hcallId
  rw [h, List.drop_length] at hcallId
  exact absurd hcallId List.not_mem_nil

/-- An answer or a hangup of the buffer is found before it is gone through. -/
theorem mem_ignoreCallIds {s : WatchedClient χ} {i : ℕ} (hi : i ∈ s.callEventBuffer)
    (hevent : s.events i = some ⟨.known type content, false⟩)
    (hsettles : Settles userId type content) :
    content.key ∈ s.ignoreCallIds (watchedHandler χ userId) := by
  refine List.mem_filterMap.2 ⟨i, hi, ?_⟩
  unfold EventBuffer.endedCall
  rw [hevent]
  exact if_pos (hsettles.elim .inr fun hanswer => .inl hanswer.1)

/-- **The buffer is evaluated**, with its events in order. -/
theorem BufferInv.evaluateEventBuffer {s : WatchedClient χ} (h : BufferInv userId s)
    (horder : s.syncing = true → BufferInOrder userId s
      (s.ignoreCallIds (watchedHandler χ userId)) s.callEventBuffer s.calls) :
    BufferInv userId (s.evaluateEventBuffer (watchedHandler χ userId)) ∧
      RingsInTime userId s (s.evaluateEventBuffer (watchedHandler χ userId)) := by
  unfold EventBuffer.evaluateEventBuffer
  split
  · exact ⟨h, ringsInTime_of_same rfl⟩
  next hsyncing =>
    split
    · exact ⟨h, ringsInTime_of_same rfl⟩
    · obtain ⟨hreturns, hthrough⟩ := inject_inOrder (s.ignoreCallIds (watchedHandler χ userId))
        s.callEventBuffer s h.calls (horder (not_not.1 hsyncing))
      generalize EventBuffer.inject (watchedHandler χ userId) _ s.callEventBuffer s = made
        at hreturns hthrough
      obtain ⟨s', returned⟩ := made
      obtain rfl : returned = true := hreturns
      have hevents : s'.events = s.events := hthrough.events
      refine ⟨⟨hthrough.inv, fun i event hevent => ?_,
        fun i type content hevent hsettles => ?_⟩, ?_⟩
      · have hevent : s'.events i = some event := hevent
        rw [hevents] at hevent
        exact h.clear i event hevent
      · have hevent : s'.events i = some ⟨.known type content, false⟩ := hevent
        rw [hevents] at hevent
        rcases h.settled i type content hevent hsettles with hi | hsettled
        · exact .inr (hthrough.settles i hi type content false hevent hsettles)
        · exact .inr (hthrough.keeps content.key hsettled)
      · obtain ⟨new, hnew, hrings⟩ := hthrough.rings
        rintro callId hcallId i type content hevent rfl hsettles
        have hcallId : content.key ∈ s'.calls.client.incoming.drop
          s.calls.client.incoming.length := hcallId
        rw [show s'.calls.client.incoming = s.calls.client.incoming ++ new from hnew,
          List.drop_left] at hcallId
        obtain ⟨hnot, hids⟩ := hrings content.key hcallId
        have hevent : s'.events i = some ⟨.known type content, false⟩ := hevent
        rw [hevents] at hevent
        rcases h.settled i type content hevent hsettles with hi | hsettled
        · exact hids (mem_ignoreCallIds hi hevent hsettles)
        · exact hnot hsettled

/-- **One step that is in order.** -/
theorem BufferInv.step {s s' : WatchedClient χ} (h : BufferInv userId s) {e : CallsEvent χ}
    (horder : InOrder userId s e) (hstep : Incoming.step userId s e = some s') :
    BufferInv userId s' ∧ RingsInTime userId s s' := by
  cases e with
  | receive i type content =>
    have hstep : EventBuffer.step (watchedHandler χ userId) s
      (.event i ⟨.known type content, false⟩) = some s' := hstep
    rw [EventBuffer.step] at hstep
    split at hstep
    · cases hstep
    · obtain rfl := Option.some.inj hstep
      have hbuffer : ∀ j ∈ s.callEventBuffer,
          j ∈ (s.onEvent i ⟨.known type content, false⟩).callEventBuffer := by
        intro j hj
        rw [EventBuffer.onEvent]
        split
        · exact List.mem_append_left _ hj
        · exact hj
      refine ⟨⟨h.calls, fun j event hevent => ?_, fun j type' content' hevent hsettles => ?_⟩,
        ringsInTime_of_same rfl⟩
      · have hevent : Function.update s.events i (some ⟨.known type content, false⟩) j =
          some event := hevent
        by_cases hj : j = i
        · rw [hj, Function.update_self] at hevent
          exact ⟨type, content, (Option.some.inj hevent).symm⟩
        · rw [Function.update_of_ne hj] at hevent
          exact h.clear j event hevent
      · have hevent : Function.update s.events i (some ⟨.known type content, false⟩) j =
          some ⟨.known type' content', false⟩ := hevent
        by_cases hj : j = i
        · rw [hj, Function.update_self] at hevent
          obtain ⟨rfl, rfl⟩ := by simpa using hevent
          have hcall : isCallType type = true := by
            rcases hsettles with rfl | ⟨rfl, -⟩ <;> decide
          left
          rw [hj, EventBuffer.onEvent, Cleartext.getType, hcall]
          exact List.mem_append_right _ (List.mem_singleton_self i)
        · rw [Function.update_of_ne hj] at hevent
          exact (h.settled j type' content' hevent hsettles).imp (hbuffer j) id
  | sync syncing =>
    obtain rfl := Option.some.inj hstep
    have h₁ : BufferInv userId { s with syncing := syncing } := ⟨h.calls, h.clear, h.settled⟩
    refine h₁.evaluateEventBuffer fun hsyncing => ?_
    have hevents : ({ s with syncing := syncing } : WatchedClient χ).events = s.events := rfl
    exact (bufferInOrder_congr hevents).2 (horder hsyncing)
  | calls event =>
    obtain ⟨client, hlocal, rfl⟩ := Option.map_eq_some_iff.1 hstep
    have hkept := kept_localStep h.calls horder hlocal
    refine ⟨⟨hkept.inv, h.clear, fun i type content hevent hsettles => ?_⟩,
      ringsInTime_of_same hkept.incoming⟩
    exact (h.settled i type content hevent hsettles).imp id (hkept.settled content.key)

/-- **When every call rings once, and in time**: all along a run whose events come in order. -/
theorem incoming_along {events : List (WatchedClient χ × CallsEvent χ)} {s : WatchedClient χ}
    (h : (system χ userId).Trace events s) (hmeets : System.Meets (InOrder userId) events) :
    System.HoldsAlong RingsOnce events s ∧
      ∀ p ∈ events, ∀ s', step userId p.1 p.2 = some s' → RingsInTime userId p.1 s' := by
  have hinv : System.HoldsAlong (BufferInv userId) events s :=
    h.holdsAlong_under (BufferInv.new userId)
      (fun _ _ _ hinv horder hstep => (hinv.step horder hstep).1) (fun _ hinv => hinv) hmeets
  refine ⟨⟨fun p hp => (hinv.1 p hp).ringsOnce, hinv.2.ringsOnce⟩, fun p hp s' hstep => ?_⟩
  exact ((hinv.1 p hp).step (hmeets p hp) hstep).2

/-- What bob sends for call "1". -/
def bobSends (candidates : List (Option String)) : CallContent String :=
  ⟨"@bob", "!room", none, some 60000, some "1", true, false, some candidates⟩

/-- Candidates that come before their invite. -/
def candidatesFirst : List (CallsEvent String) :=
  [.receive 0 "m.call.candidates" (bobSends [some "candidate"]), .sync true,
    .receive 1 "m.call.invite" (bobSends []), .sync true]

theorem candidatesFirst_runs : ((system String "@alice").run candidatesFirst).isSome := by
  decide +kernel

theorem incoming_along_candidatesFirst :
    System.HoldsAlong RingsOnce ((system String "@alice").steps candidatesFirst)
        (((system String "@alice").run candidatesFirst).get candidatesFirst_runs) ∧
      ∀ p ∈ (system String "@alice").steps candidatesFirst, ∀ s',
        step "@alice" p.1 p.2 = some s' → RingsInTime "@alice" p.1 s' := by
  refine incoming_along (System.trace_get candidatesFirst_runs) ?_
  have hnames : ∀ candidates, Names (bobSends candidates) "1" :=
    fun _ => ⟨rfl, by decide, by decide⟩
  refine List.forall_mem_cons.2 ⟨trivial, List.forall_mem_cons.2 ⟨?_, List.forall_mem_cons.2
    ⟨trivial, List.forall_mem_cons.2 ⟨?_, fun _ hp => absurd hp List.not_mem_nil⟩⟩⟩⟩
  · intro _
    refine ⟨⟨"1", hnames _, fun hcontra => absurd hcontra (by decide), fun hcontra =>
      absurd hcontra (by decide), fun _ _ => ⟨⟨[some "candidate"], rfl, by decide⟩, ?_⟩⟩, trivial⟩
    exact fun _ hget => nomatch hget
  · intro _
    refine ⟨⟨"1", hnames _, fun _ => .inr (.inr (.inr ⟨rfl, rfl, rfl, rfl, ?_, ?_⟩)), fun hcontra =>
      absurd hcontra (by decide), fun hcontra => absurd hcontra (by decide)⟩, trivial⟩
    · decide +kernel
    · exact fun _ _ hget => nomatch hget

/-- An invite, a hangup and the invite again, each in a batch of its own. -/
def invitedAgain : List (CallsEvent String) :=
  [.receive 0 "m.call.invite" (bobSends []), .sync true,
    .receive 1 "m.call.hangup" (bobSends []), .sync true,
    .receive 2 "m.call.invite" (bobSends []), .sync true]

theorem invitedAgain_runs : ((system String "@alice").run invitedAgain).isSome := by
  decide +kernel

/-- The call rings again after it was hung up. -/
theorem incoming_along_fails : ¬ ∀ (userId : String)
    (events : List (WatchedClient String × CallsEvent String)) (s : WatchedClient String),
    (system String userId).Trace events s → System.HoldsAlong RingsOnce events s ∧
      ∀ p ∈ events, ∀ s', step userId p.1 p.2 = some s' → RingsInTime userId p.1 s' := by
  intro h
  have honce := (h _ _ _ (System.trace_get invitedAgain_runs)).1.2.once
  exact absurd honce (by decide +kernel)

end MatrixSdk.Calls.Incoming
