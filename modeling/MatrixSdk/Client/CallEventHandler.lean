/-
The handler of call events: `callEventHandler` of `client.js`, over the calls of `MatrixCall`,
with the buffer it is fed from.

An invite makes a new call, unless the call is known to have ended; candidates that come before it
wait in `candidatesByCall`. A hangup that comes before its invite makes a call that has ended, so
that the invite is found to be stale. Where this side is calling the same room, one of the two
calls is given up.

A call is looked up in an object, so that a name every object has finds what is no call; the
handler throws when it uses it as one.
-/
import MatrixSdk.Client.CallEventBuffer
import MatrixSdk.Client.MatrixCall

set_option autoImplicit false

namespace MatrixSdk.Calls

open MatrixSdk.Lib

variable {χ : Type*}

/-! ## The events of calls -/

/-- What an event of a call says, with its sender, room and age. -/
structure CallContent (χ : Type*) where
  sender : String
  roomId : String
  age : Option ℤ
  lifetime : Option ℤ
  callId : Option String
  /-- A session description can be made of `offer`. -/
  offer : Bool
  /-- A session description can be made of `answer`. -/
  answer : Bool
  candidates : Option (List (Option χ))

namespace CallContent

/-- `call_id`, as the key of an object. -/
def key (content : CallContent χ) : String := content.callId.getD "undefined"

/-- `event.getAge() > content.lifetime` -/
def isExpired (content : CallContent χ) : Bool :=
  match content.age, content.lifetime with
  | some age, some lifetime => lifetime < age
  | _, _ => false

/-- `if (event.getAge())` -/
def hasAge (content : CallContent χ) : Bool := content.age.any (· ≠ 0)

end CallContent

/-- What `callList[call_id]` is: a call, or what every object has. -/
inductive Found
  | missing
  | call (a : ℕ)
  | inherited

/-- The `length` of what every object has under this name; all but `__proto__` are functions. -/
def inheritedLength (name : String) : ℕ :=
  if name ∈ ["constructor", "hasOwnProperty", "isPrototypeOf", "propertyIsEnumerable",
    "__lookupGetter__", "__lookupSetter__"] then 1
  else if name ∈ ["__defineGetter__", "__defineSetter__"] then 2
  else 0

namespace Client

variable (s : Client χ)

/-- `content.call_id ? client.callList[content.call_id] : undefined` -/
def findCall (content : CallContent χ) : Found :=
  match content.callId with
  | none => .missing
  | some callId =>
    if callId = "" then .missing
    else
      match s.callList.lookup callId with
      | .own a => .call a
      | .inherited => .inherited
      | .missing => .missing

/-- The call has ended. -/
def isStale : Found → Bool
  | .call a => (s.call a).state = .ended
  | _ => false

/-- `client.callList[call.callId] = call` -/
def register (callId : String) (a : ℕ) : Client χ :=
  if callId = "__proto__" then s else { s with callList := s.callList.set callId a }

/-- `_initWithInvite`, of a call that has just been made. -/
def initWithInvite (a : ℕ) (content : CallContent χ) : Except (Client χ) (Client χ) :=
  let s := s.modify a fun call => { call with peerConn := some [] }
  if ¬ content.offer then .error s
  else
    let s := s.setState a .ringing
    .ok (if content.hasAge then s.addTask (.inviteExpires a) else s)

/-- `_initWithHangup` -/
def initWithHangup (a : ℕ) : Client χ := s.setState a .ended

/-- "if we stashed candidate events for that call ID, play them back now" -/
def playBack (callId : String) (a : ℕ) : Except (Client χ) (Client χ) :=
  match s.candidatesByCall.lookup callId with
  | .own candidates => candidates.foldlM (fun s cand => s.gotRemoteIceCandidate a cand) s
  | .inherited =>
    (List.replicate (inheritedLength callId) none).foldlM
      (fun s cand => s.gotRemoteIceCandidate a cand) s
  | .missing => .ok s

/-- "Were we trying to call that user (room)?" -/
def isExistingCall (a b : ℕ) : Bool :=
  (s.call a).roomId = (s.call b).roomId && (s.call b).outbound &&
    ((s.call b).state = .waitLocalMedia || (s.call b).state = .createOffer ||
      (s.call b).state = .inviteSent)

/-- The outgoing call that the incoming call `a` meets. -/
def existingCall (a : ℕ) : Option ℕ :=
  (s.callList.entries.map Prod.snd).find? (s.isExistingCall a)

/-- "pick whichever call has the lowest call ID", unless the invite has not been sent yet: the
incoming call `a` is picked. -/
def picksIncoming (a b : ℕ) : Bool :=
  (s.call b).state = .waitLocalMedia || (s.call b).state = .createOffer ||
    (s.call a).callId < (s.call b).callId

/-- The incoming call is announced, or one of the two calls is given up. -/
def announce (a : ℕ) : Except (Client χ) (Client χ) :=
  match s.existingCall a with
  | some b =>
    if s.picksIncoming a b then (s.replacedBy b a).bind fun s => s.answer a
    else .ok (s.hangup a false)
  | none => .ok { s with incoming := s.incoming ++ [(s.call a).callId] }

def onInvite (userId : String) (content : CallContent χ) : Except (Client χ) (Client χ) :=
  if content.sender = userId then .ok s
  else if content.isExpired then .ok s
  else if s.isStale (s.findCall content) then .ok s
  else
    let a := s.created
    ((s.newCall content.key content.roomId).initWithInvite a content).bind fun s =>
      ((s.register content.key a).playBack content.key a).bind fun s => s.announce a

def onAnswer (userId : String) (content : CallContent χ) : Except (Client χ) (Client χ) :=
  match s.findCall content with
  | .missing => .ok s
  | .inherited => if content.sender = userId then .ok s else .error s
  | .call a =>
    if content.sender = userId then
      if (s.call a).state = .ringing then .ok (s.onAnsweredElsewhere a) else .ok s
    else s.receivedAnswer a content.answer

/-- `candidatesByCall[content.call_id]` as it is then. -/
def stash (content : CallContent χ) : Client χ :=
  let stashed :=
    match s.candidatesByCall.get content.key with
    | some stashed => stashed
    | none => []
  { s with candidatesByCall :=
      s.candidatesByCall.set content.key (stashed ++ content.candidates.getD [none]) }

def onCandidates (userId : String) (content : CallContent χ) : Except (Client χ) (Client χ) :=
  if content.sender = userId then .ok s
  else
    match s.findCall content, content.candidates with
    | .missing, _ => .ok (s.stash content)
    | .call _, none => .error s
    | .call a, some candidates => candidates.foldlM (fun s cand => s.gotRemoteIceCandidate a cand) s
    | .inherited, some [] => .ok s
    | .inherited, _ => .error s

/-- "Note that we also observe our own hangups here". -/
def onHangup (content : CallContent χ) : Except (Client χ) (Client χ) :=
  match s.findCall content with
  | .missing =>
    let a := s.created
    let s := (s.newCall content.key content.roomId).initWithHangup a
    .ok (s.register content.key a)
  | .inherited => .error s
  | .call a =>
    if (s.call a).state = .ended then .ok s
    else
      let s := s.onHangupReceived a
      .ok { s with callList := s.callList.delete content.key }

def callEventHandler (userId : String) (s : Client χ) (type : String) (content : CallContent χ) :
    Except (Client χ) (Client χ) :=
  if type = "m.call.invite" then s.onInvite userId content
  else if type = "m.call.answer" then s.onAnswer userId content
  else if type = "m.call.candidates" then s.onCandidates userId content
  else if type = "m.call.hangup" then s.onHangup content
  else .ok s

end Client

/-! ## Finding calls -/

/-- The outgoing call that is met is another call, and is in `callList`. -/
theorem existingCall_spec {s : Client χ} {a b : ℕ} (h : s.existingCall a = some b) :
    s.isExistingCall a b = true ∧ ∃ callId, s.callList.get callId = some b := by
  refine ⟨List.find?_some h, ?_⟩
  obtain ⟨⟨callId, b'⟩, hmem, rfl⟩ := List.mem_map.1 (List.mem_of_find?_eq_some h)
  exact ⟨callId, JsObject.mem_entries.1 hmem⟩

theorem isExistingCall_spec {s : Client χ} {a b : ℕ} (h : s.isExistingCall a b = true) :
    (s.call a).roomId = (s.call b).roomId ∧ (s.call b).outbound = true ∧
      (s.call b).state ≠ .ended := by
  unfold Client.isExistingCall at h
  simp only [Bool.and_eq_true, Bool.or_eq_true, decide_eq_true_eq] at h
  obtain ⟨⟨hroom, houtbound⟩, hstate⟩ := h
  refine ⟨hroom, houtbound, fun hcontra => ?_⟩
  rw [hcontra] at hstate
  exact absurd hstate (by decide)

/-- The handler of the client of this user. -/
def handlerOf (χ : Type*) (userId : String) : CallEventHandler (CallContent χ) (Client χ) where
  callId := CallContent.key
  handle := Client.callEventHandler userId

/-! ## The client with its buffer -/

inductive ClientEvent (χ : Type*)
  | buffer (event : BufferEvent (CallContent χ))
  /-- Something else happens to the calls. -/
  | calls (event : LocalEvent)

/-- A client that has the buffer, which has the calls. -/
abbrev BufferedClient (χ : Type*) := EventBuffer (CallContent χ) (Client χ)

def BufferedClient.step (userId : String) (s : BufferedClient χ) :
    ClientEvent χ → Option (BufferedClient χ)
  | .buffer event => EventBuffer.step (handlerOf χ userId) s event
  | .calls event => (s.calls.localStep event).map fun calls => { s with calls := calls }

/-- All runs of the client of this user. -/
def BufferedClient.system (χ : Type*) (userId : String) :
    System (BufferedClient χ) (ClientEvent χ) where
  init := .new .new
  step := BufferedClient.step userId

/-- The step loses no event of a call: where it is one of the buffer. -/
def BufferedClient.LosesNothing (userId : String) (s : BufferedClient χ) : ClientEvent χ → Prop
  | .buffer event => MatrixSdk.Calls.LosesNothing (handlerOf χ userId) s event
  | .calls _ => True

/-- **When every event of a call is handled once**: all along a run, exactly when no step loses
one. -/
theorem handledOnce_along_iff {userId : String}
    {events : List (BufferedClient χ × ClientEvent χ)} {s : BufferedClient χ}
    (h : (BufferedClient.system χ userId).Trace events s) :
    System.HoldsAlong HandledOnce events s ↔
      System.Meets (BufferedClient.LosesNothing userId) events := by
  have hboth : ∀ (s s' : BufferedClient χ) (e : ClientEvent χ), Inv s → HandledOnce s →
      BufferedClient.step userId s e = some s' →
        (HandledOnce s' ↔ BufferedClient.LosesNothing userId s e) ∧
          (BufferedClient.LosesNothing userId s e → Inv s') := by
    intro s s' e hinv hP hstep
    cases e with
    | buffer event => exact hinv.step hP hstep
    | calls event =>
      obtain ⟨calls, -, rfl⟩ := Option.map_eq_some_iff.1 hstep
      exact ⟨iff_of_true (hP.calls calls) trivial, fun _ => hinv.calls calls⟩
  refine h.holdsAlong_iff_of (I := Inv) (Inv.new _) ?_ ?_ ?_
  · exact ⟨fun _ => Nat.zero_le 1, fun _ hcontra => (nomatch hcontra), fun _ _ hcontra =>
      (nomatch hcontra), rfl⟩
  · intro s e s' hinv hP hstep hP'
    obtain ⟨hiff, hkeeps⟩ := hboth s s' e hinv hP hstep
    exact hkeeps (hiff.1 hP')
  · intro s e s' hinv hP hstep
    exact (hboth s s' e hinv hP hstep).1

/-- An event of the call "1" that bob has placed. -/
def bobsEvent (type : String) (candidates : Option (List (Option String))) :
    CallEvent (CallContent String) :=
  ⟨.known type ⟨"@bob", "!room", none, some 60000, some "1", true, false, candidates⟩, false⟩

/-- An invite, with the candidates in the next batch. -/
def inviteAndCandidates : List (ClientEvent String) :=
  [.buffer (.event 0 (bobsEvent "m.call.invite" none)), .buffer (.sync true),
    .buffer (.event 1 (bobsEvent "m.call.candidates" (some [some "candidate"]))),
    .buffer (.sync true)]

theorem inviteAndCandidates_runs :
    ((BufferedClient.system String "@alice").run inviteAndCandidates).isSome := by
  decide +kernel

theorem handledOnce_along_inviteAndCandidates :
    System.HoldsAlong HandledOnce
      ((BufferedClient.system String "@alice").steps inviteAndCandidates)
      (((BufferedClient.system String "@alice").run inviteAndCandidates).get
        inviteAndCandidates_runs) := by
  refine (handledOnce_along_iff (System.trace_get inviteAndCandidates_runs)).2 ?_
  refine List.forall_mem_cons.2 ⟨trivial, List.forall_mem_cons.2 ⟨?_, List.forall_mem_cons.2
    ⟨trivial, List.forall_mem_cons.2 ⟨?_, fun _ hp => absurd hp List.not_mem_nil⟩⟩⟩⟩
  · -- the invite is for call "1", which is no name that is inherited
    intro _ _
    refine ⟨⟨_, rfl, trivial⟩, fun i hi callId hcallId hinherited => ?_⟩
    obtain rfl := List.mem_singleton.1 hi
    obtain rfl := Option.some.inj hcallId
    exact absurd hinherited (by decide)
  · intro _ _
    refine ⟨⟨_, rfl, trivial⟩, fun i hi callId hcallId _ => ?_⟩
    obtain rfl := List.mem_singleton.1 hi
    exact nomatch hcallId

/-- An invite, and candidates without candidates, which make the handler throw. -/
def inviteAndNoCandidates : List (ClientEvent String) :=
  [.buffer (.event 0 (bobsEvent "m.call.invite" none)),
    .buffer (.event 1 (bobsEvent "m.call.candidates" none)), .buffer (.sync true),
    .buffer (.sync true)]

theorem inviteAndNoCandidates_runs :
    ((BufferedClient.system String "@alice").run inviteAndNoCandidates).isSome := by
  decide +kernel

/-- The invite is handled by each sync. -/
theorem handledOnce_along_fails : ¬ ∀ (userId : String)
    (events : List (BufferedClient String × ClientEvent String)) (s : BufferedClient String),
    (BufferedClient.system String userId).Trace events s →
      System.HoldsAlong HandledOnce events s := by
  intro h
  have htwice := (h _ _ _ (System.trace_get inviteAndNoCandidates_runs)).2.atMostOnce 0
  exact absurd htwice (by decide +kernel)

end MatrixSdk.Calls
