/-
New Olm sessions for wedged ones: `_onToDeviceBadEncrypted` of
`src/crypto/index.js`, over `ensureOlmSessionsForDevices`.

A message that cannot be decrypted gets a new session with its device, but not
more often than once in `MIN_FORCE_SESSION_INTERVAL_MS`: the one-time keys of the
device are at stake. The time of the last session is looked up when the message
comes, under its sender and sender key, and noted when the session is there.
In between the handling waits, for a download of devices and for the calls of
[`OlmSessions`], and other messages are handled.

So the interval is kept exactly as long as whatever was forced for a device in
the last interval was forced, and noted, for the same sender and sender key
before the message came ([`newSessionForced_iff`]). Nor does a call that returns
without an error mean that there is a new session: the record of the wedged
session says `fixed` all the same.

What comes after the record is made (the retried decryption, the dummy message
being sent and the key requests) changes nothing of this and is left out.
-/
import MatrixSdk.Crypto.OlmSessions

set_option autoImplicit false

namespace MatrixSdk.Crypto

open MatrixSdk.Lib

/-! ## State -/

/-- `MIN_FORCE_SESSION_INTERVAL_MS`. -/
def minForceSessionIntervalMs : ℕ := 60 * 60 * 1000

/-- Where the handling of a message is. -/
inductive BadEncryptedPhase
  | downloadingKeys
  /-- In the call `c` of `ensureOlmSessionsForDevices`. -/
  | ensuring (c : ℕ)
  /-- In `encryptMessageForDevice`, or waiting for it. -/
  | encrypting
  | settled

/-- A message being handled. `recorded` is no part of the code's state: once the time
of the forced session has been noted, it is the number of messages there were by then. -/
structure BadEncrypted (User Key : Type) where
  sender : User
  deviceKey : Key
  phase : BadEncryptedPhase
  recorded : Option ℕ

/-- An entry of `_lastNewSessionForced`, with the message it was made for. -/
structure LastForced where
  time : ℕ
  message : ℕ

/-- A session that was created for a message. -/
structure ForcedSession (Key : Type) where
  message : ℕ
  identityKey : Key
  time : ℕ

/-- What `recordSessionProblem` is given for a `"wedged"` session, and the message
whose session it goes by. -/
structure SessionProblem (Key : Type) where
  deviceKey : Key
  fixed : Bool
  message : ℕ

/-- The clock, the sessions and the messages. Messages are numbered in the order they
come. `rejected` says of a call of `ensureOlmSessionsForDevices` that it threw; `messageOf`
and `forced` are kept for the statements only. -/
structure WedgedSessions (User DeviceId Key : Type) where
  now : ℕ
  olm : OlmSessions User DeviceId Key
  rejected : ℕ → Bool
  lastNewSessionForced : User → Key → Option LastForced
  nextMessage : ℕ
  messages : ℕ → Option (BadEncrypted User Key)
  messageOf : ℕ → Option ℕ
  forced : List (ForcedSession Key)
  problems : List (SessionProblem Key)

inductive WedgedSessionsEvent (User DeviceId Key OneTimeKey : Type)
  | tick (ms : ℕ)
  /-- A message comes; `device` is the id and the identity key of the device that
  `getDeviceByIdentityKey` finds. -/
  | onToDeviceBadEncrypted (sender : Option User) (deviceKey : Option Key)
      (device : Option (DeviceId × Key))
  /-- `downloadKeys` has returned, and the device is looked up again. -/
  | keysDownloaded (m : ℕ) (device : Option (DeviceId × Key))
  | downloadFails (m : ℕ)
  /-- A step of some call of `ensureOlmSessionsForDevices`, or a call by other code. -/
  | olm (e : OlmSessionsEvent User DeviceId Key OneTimeKey)
  /-- The call made for the message has returned. -/
  | sessionEnsured (m : ℕ)
  | messageEncrypted (m : ℕ)
  | encryptFails (m : ℕ)

section Step

variable {User DeviceId Key OneTimeKey : Type} [DecidableEq User] [DecidableEq DeviceId]
  [DecidableEq Key]

/-- The call, which is the `c`-th, throws in the step. -/
def EnsureCall.throwsIn (c : ℕ) (call : EnsureCall User DeviceId Key) :
    OlmSessionsEvent User DeviceId Key OneTimeKey → Bool
  | .storeFails d => d = c
  | .claimFails d => d = c
  | .keysClaimed d res => d = c && call.claimThrows res
  | _ => false

namespace WedgedSessions

/-- Nothing has come yet, and the clock is `start` past the first interval. -/
def new (start : ℕ) : WedgedSessions User DeviceId Key where
  now := minForceSessionIntervalMs + start
  olm := .new
  rejected _ := false
  lastNewSessionForced _ _ := none
  nextMessage := 0
  messages _ := none
  messageOf _ := none
  forced := []
  problems := []

def setMessage (s : WedgedSessions User DeviceId Key) (m : ℕ) (msg : BadEncrypted User Key) :
    WedgedSessions User DeviceId Key :=
  { s with messages := Function.update s.messages m (some msg) }

def recordSessionProblem (s : WedgedSessions User DeviceId Key) (deviceKey : Key) (fixed : Bool)
    (m : ℕ) : WedgedSessions User DeviceId Key :=
  { s with problems := s.problems ++ [⟨deviceKey, fixed, m⟩] }

/-- Call `ensureOlmSessionsForDevices` for the device of a message, with `force`. -/
def ensureSession (s : WedgedSessions User DeviceId Key) (m : ℕ) (msg : BadEncrypted User Key)
    (device : DeviceId × Key) : WedgedSessions User DeviceId Key :=
  { s.setMessage m { msg with phase := .ensuring s.olm.nextCall } with
    olm := s.olm.ensureOlmSessionsForDevices [⟨msg.sender, device.1, device.2⟩] true false
    messageOf := Function.update s.messageOf s.olm.nextCall (some m) }

/-- A session has been forced with the device in the last interval. -/
def forcedRecently (s : WedgedSessions User DeviceId Key) (sender : User) (deviceKey : Key) :
    Bool :=
  s.now < ((s.lastNewSessionForced sender deviceKey).map LastForced.time).getD 0 +
    minForceSessionIntervalMs

/-- The handling of a message up to its first wait. -/
def onToDeviceBadEncrypted (s : WedgedSessions User DeviceId Key) (sender : Option User)
    (deviceKey : Option Key) (device : Option (DeviceId × Key)) :
    WedgedSessions User DeviceId Key :=
  match sender, deviceKey with
  | some sender, some deviceKey =>
    let m := s.nextMessage
    let s' := { s with nextMessage := m + 1 }
    if s.forcedRecently sender deviceKey then
      (s'.setMessage m ⟨sender, deviceKey, .settled, none⟩).recordSessionProblem deviceKey true
        (((s.lastNewSessionForced sender deviceKey).map LastForced.message).getD 0)
    else match device with
      | none => s'.setMessage m ⟨sender, deviceKey, .downloadingKeys, none⟩
      | some device => s'.ensureSession m ⟨sender, deviceKey, .downloadingKeys, none⟩ device
  | _, _ => s

def keysDownloaded (s : WedgedSessions User DeviceId Key) (m : ℕ)
    (device : Option (DeviceId × Key)) : Option (WedgedSessions User DeviceId Key) :=
  (s.messages m).bind fun msg =>
    match msg.phase, device with
    | .downloadingKeys, none =>
      some ((s.setMessage m { msg with phase := .settled }).recordSessionProblem
        msg.deviceKey false m)
    | .downloadingKeys, some device => some (s.ensureSession m msg device)
    | _, _ => none

/-- The handling throws. -/
def downloadFails (s : WedgedSessions User DeviceId Key) (m : ℕ) :
    Option (WedgedSessions User DeviceId Key) :=
  (s.messages m).bind fun msg =>
    match msg.phase with
    | .downloadingKeys => some (s.setMessage m { msg with phase := .settled })
    | _ => none

/-- The call of `ensureOlmSessionsForDevices` has returned without an error. -/
def returned (s : WedgedSessions User DeviceId Key) (c : ℕ) : Bool :=
  match (s.olm.calls c).map EnsureCall.phase with
  | some .settled => !s.rejected c
  | _ => false

/-- The time is noted, whether or not there is a session. -/
def sessionEnsured (s : WedgedSessions User DeviceId Key) (m : ℕ) :
    Option (WedgedSessions User DeviceId Key) :=
  (s.messages m).bind fun msg =>
    match msg.phase with
    | .ensuring c =>
      if s.returned c then
        some { s.setMessage m { msg with phase := .encrypting, recorded := some s.nextMessage } with
          lastNewSessionForced := Function.update s.lastNewSessionForced msg.sender
            (Function.update (s.lastNewSessionForced msg.sender) msg.deviceKey
              (some ⟨s.now, m⟩)) }
      else none
    | _ => none

/-- `encryptMessageForDevice` returns without an error also where there is no session. -/
def messageEncrypted (s : WedgedSessions User DeviceId Key) (m : ℕ) :
    Option (WedgedSessions User DeviceId Key) :=
  (s.messages m).bind fun msg =>
    match msg.phase with
    | .encrypting =>
      some ((s.setMessage m { msg with phase := .settled }).recordSessionProblem
        msg.deviceKey true m)
    | _ => none

/-- The handling throws. -/
def encryptFails (s : WedgedSessions User DeviceId Key) (m : ℕ) :
    Option (WedgedSessions User DeviceId Key) :=
  (s.messages m).bind fun msg =>
    match msg.phase with
    | .encrypting => some (s.setMessage m { msg with phase := .settled })
    | _ => none

/-- The sessions that the step creates for messages. -/
def created (s : WedgedSessions User DeviceId Key) :
    OlmSessionsEvent User DeviceId Key OneTimeKey → List (ForcedSession Key)
  | .sessionStarted c i (some _) =>
    match s.messageOf c, (s.olm.calls c).map EnsureCall.phase with
    | some m, some (.starting pending) => pending[i]?.toList.map fun t => ⟨m, t.key, s.now⟩
    | _, _ => []
  | _ => []

def olmStep (ownKey : Key) (s : WedgedSessions User DeviceId Key)
    (e : OlmSessionsEvent User DeviceId Key OneTimeKey) :
    Option (WedgedSessions User DeviceId Key) :=
  (olmSessionsStep ownKey s.olm e).map fun olm => { s with
    olm := olm
    rejected := fun c => s.rejected c || (s.olm.calls c).any fun call => call.throwsIn c e
    forced := s.forced ++ s.created e }

end WedgedSessions

/-- One synchronous stretch of code, or some time going by. -/
def wedgedSessionsStep (ownKey : Key) (s : WedgedSessions User DeviceId Key) :
    WedgedSessionsEvent User DeviceId Key OneTimeKey → Option (WedgedSessions User DeviceId Key)
  | .tick ms => some { s with now := s.now + ms }
  | .onToDeviceBadEncrypted sender deviceKey device =>
    some (s.onToDeviceBadEncrypted sender deviceKey device)
  | .keysDownloaded m device => s.keysDownloaded m device
  | .downloadFails m => s.downloadFails m
  | .olm e => s.olmStep ownKey e
  | .sessionEnsured m => s.sessionEnsured m
  | .messageEncrypted m => s.messageEncrypted m
  | .encryptFails m => s.encryptFails m

/-- All runs in which the own device has the identity key `ownKey`. -/
def wedgedSessionsSystem (ownKey : Key) (start : ℕ) : System (WedgedSessions User DeviceId Key)
    (WedgedSessionsEvent User DeviceId Key OneTimeKey) where
  init := .new start
  step := wedgedSessionsStep ownKey

/-! ## What is promised, and when it is kept -/

namespace WedgedSessions

/-- Sessions forced with one device are an interval apart. -/
def Apart (s : WedgedSessions User DeviceId Key) : Prop :=
  s.forced.Pairwise fun f g =>
    f.identityKey = g.identityKey → f.time + minForceSessionIntervalMs ≤ g.time

/-- A session has been created for the message `m`, which has the sender key. -/
def HasSession (s : WedgedSessions User DeviceId Key) (m : ℕ) (deviceKey : Key) : Prop :=
  ∃ f ∈ s.forced, f.message = m ∧ ∃ msg, s.messages m = some msg ∧ msg.deviceKey = deviceKey

/-- A record that says `fixed` goes by a message for which a session has been created. -/
def FixedRightly (s : WedgedSessions User DeviceId Key) : Prop :=
  ∀ p ∈ s.problems, p.fixed = true → s.HasSession p.message p.deviceKey

/-- The session `g` was forced for the sender and the sender key of the message `m`, and
its time had been noted when that message came. -/
def NotedBefore (s : WedgedSessions User DeviceId Key) (g : ForcedSession Key) (m : ℕ) : Prop :=
  ∃ msg msg', s.messages m = some msg ∧ s.messages g.message = some msg' ∧
    msg'.sender = msg.sender ∧ msg'.deviceKey = msg.deviceKey ∧ ∃ n ≤ m, msg'.recorded = some n

end WedgedSessions

/-- Whatever was forced for the device in the last interval had been noted, under the same
sender and sender key, when the message came that a session is now created for. -/
def ForcesInTurn (s : WedgedSessions User DeviceId Key) :
    WedgedSessionsEvent User DeviceId Key OneTimeKey → Prop
  | .olm e => ∀ f ∈ s.created e, ∀ g ∈ s.forced, g.identityKey = f.identityKey →
    s.now < g.time + minForceSessionIntervalMs → s.NotedBefore g f.message
  | _ => True

/-- No message is about the own device, the response to a claim made for one has a one-time key for
its device, and a session starts with it. -/
def GetsSessions (ownKey : Key) (s : WedgedSessions User DeviceId Key) :
    WedgedSessionsEvent User DeviceId Key OneTimeKey → Prop
  | .onToDeviceBadEncrypted _ _ device => ∀ d, device = some d → d.2 ≠ ownKey
  | .keysDownloaded _ device => ∀ d, device = some d → d.2 ≠ ownKey
  | .olm (.keysClaimed c (some res)) => (s.messageOf c).isSome → ∀ call, s.olm.calls c = some call →
    ∀ t ∈ call.devices, (EnsureCall.oneTimeKeyFor res t).isSome
  | .olm (.sessionStarted c _ sid) => (s.messageOf c).isSome → sid.isSome
  | _ => True

end Step

/-! ## The calls made for messages -/

section Calls

variable {User DeviceId Key OneTimeKey : Type}

/-- A call that forces a session with the device `t` alone: what is left of the loop is
that device, or the device is in `devicesWithoutSession`. -/
structure EnsureCall.Forcing (ownKey : Key) (t : Target User DeviceId Key)
    (call : EnsureCall User DeviceId Key) : Prop where
  devices : call.devices = [t]
  other : t.key ≠ ownKey
  force : call.force = true
  phase : match call.phase with
    | .marking rest => rest = [t] ∨ rest = [] ∧ call.devicesWithoutSession ≠ []
    | .waiting t' _ rest => t' = t ∧ rest = []
    | .reading t' rest => t' = t ∧ rest = []
    | .starting pending => pending = [t] ∨ pending = []
    | _ => True

/-- No session is still to be started. -/
def EnsureCall.Done (call : EnsureCall User DeviceId Key) : Prop :=
  call.phase = .starting [] ∨ call.phase = .settled

variable [DecidableEq User] [DecidableEq DeviceId] [DecidableEq Key]

namespace OlmSessions

variable {ownKey : Key} {s s' : OlmSessions User DeviceId Key}
  {e : OlmSessionsEvent User DeviceId Key OneTimeKey}

/-- What a step does with a call that forces a session: unless it throws, it is done
only once a session has been started or could not be. -/
def ForcesOn (ownKey : Key) (e : OlmSessionsEvent User DeviceId Key OneTimeKey) (c : ℕ)
    (call call' : EnsureCall User DeviceId Key) : Prop :=
  ∀ t, call.Forcing ownKey t →
    (∀ res, e = .keysClaimed c (some res) → (EnsureCall.oneTimeKeyFor res t).isSome) →
    call'.Forcing ownKey t ∧
      (call'.Done → call.Done ∨ call.throwsIn c e = true ∨ ∃ i sid, e = .sessionStarted c i sid)

/-- A step of the call `c`, up to its variables. -/
structure Moves (ownKey : Key) (s s' : OlmSessions User DeviceId Key)
    (e : OlmSessionsEvent User DeviceId Key OneTimeKey) (c : ℕ)
    (call call' : EnsureCall User DeviceId Key) : Prop where
  before : s.calls c = some call
  running : call.phase ≠ .settled
  calls : s'.calls = Function.update s.calls c (some call')
  nextCall : s'.nextCall = s.nextCall
  forces : ForcesOn ownKey e c call call'

variable {c : ℕ}

theorem nextDevice_moves (h : s.nextDevice ownKey c = some s') :
    ∃ call call', Moves ownKey s s'
      (.nextDevice c : OlmSessionsEvent User DeviceId Key OneTimeKey) c call call' := by
  obtain ⟨call, hcall, h⟩ := Option.bind_eq_some_iff.1 h
  split at h
  next hphase =>
    obtain rfl := Option.some.inj h
    refine ⟨call, _, hcall, by simp [hphase], rfl, rfl, fun t hF _ => ?_⟩
    -- the device is in `devicesWithoutSession`, so keys are claimed
    have hkeys : call.devicesWithoutSession ≠ [] := by
      have := hF.phase
      rw [hphase] at this
      simpa using this
    rw [if_neg hkeys]
    exact ⟨⟨hF.devices, hF.other, hF.force, trivial⟩, fun hd => by simp [EnsureCall.Done] at hd⟩
  next t' rest hphase =>
    have htarget : ∀ t, call.Forcing ownKey t → t' = t ∧ rest = [] := by
      intro t hF
      have := hF.phase
      rw [hphase] at this
      simpa using this
    split at h
    next hown =>
      obtain rfl := Option.some.inj h
      refine ⟨call, _, hcall, by simp [hphase], rfl, rfl, fun t hF _ => ?_⟩
      exact absurd ((htarget t hF).1 ▸ hown) hF.other
    next hown =>
      split at h
      · obtain rfl := Option.some.inj h
        refine ⟨call, _, hcall, by simp [hphase], rfl, rfl, fun t hF _ => ?_⟩
        exact ⟨⟨hF.devices, hF.other, hF.force, htarget t hF⟩,
          fun hd => by simp [EnsureCall.Done] at hd⟩
      next p hentry =>
        obtain rfl := Option.some.inj h
        refine ⟨call, _, hcall, by simp [hphase], rfl, rfl, fun t hF _ => ?_⟩
        refine ⟨⟨hF.devices, hF.other, hF.force, ?_⟩, fun hd => ?_⟩
        · by_cases hmine : (call.resolveSession.get t'.key).isSome
          · simpa only [if_pos hmine] using htarget t hF
          · simpa only [if_neg hmine] using htarget t hF
        · by_cases hmine : (call.resolveSession.get t'.key).isSome <;>
            simp [EnsureCall.Done, hmine] at hd
  · exact absurd h (by simp)

theorem sessionsRead_moves {sessions : List SessionInfo}
    (h : s.sessionsRead c sessions = some s') :
    ∃ call call', Moves ownKey s s'
      (.sessionsRead c sessions : OlmSessionsEvent User DeviceId Key OneTimeKey) c call call' := by
  obtain ⟨call, hcall, h⟩ := Option.bind_eq_some_iff.1 h
  split at h
  next t' rest hphase =>
    obtain rfl := Option.some.inj h
    refine ⟨call, _, hcall, by simp [hphase], rfl, rfl, fun t hF _ => ?_⟩
    have := hF.phase
    rw [hphase] at this
    refine ⟨⟨hF.devices, hF.other, hF.force, Or.inr ⟨this.2, ?_⟩⟩,
      fun hd => by simp [EnsureCall.Done] at hd⟩
    simp [hF.force]
  · exact absurd h (by simp)

omit [DecidableEq User] [DecidableEq DeviceId] in
theorem keysClaimed_moves {res : Option (ClaimResponse User DeviceId OneTimeKey)}
    (h : s.keysClaimed ownKey c res = some s') :
    ∃ call call', Moves ownKey s s' (.keysClaimed c res) c call call' := by
  obtain ⟨call, hcall, h⟩ := Option.bind_eq_some_iff.1 h
  split at h
  next response hphase _ =>
    split at h
    next hthrows =>
      obtain rfl := Option.some.inj h
      refine ⟨call, _, hcall, by simp [hphase], rfl, rfl, fun t hF _ => ?_⟩
      exact ⟨⟨hF.devices, hF.other, hF.force, trivial⟩,
        fun _ => .inr (.inl (by simp [EnsureCall.throwsIn, hthrows]))⟩
    next hthrows =>
      obtain rfl := Option.some.inj h
      refine ⟨call, _, hcall, by simp [hphase], rfl, rfl, fun t hF hkeys => ?_⟩
      have hneeds : call.needsSession ownKey t = true := by
        simp [EnsureCall.needsSession, hF.other, hF.force]
      -- there is a key for the device, so a session is to be started
      have hpending : (call.devices.filter (call.needsSession ownKey)).filter
          (fun t => (EnsureCall.oneTimeKeyFor response t).isSome) = [t] := by
        simp [hF.devices, hneeds, hkeys response rfl]
      refine ⟨⟨hF.devices, hF.other, hF.force, Or.inl hpending⟩, fun hd => ?_⟩
      simp only [EnsureCall.Done, hpending] at hd
      simp at hd
  next hphase _ =>
    obtain rfl := Option.some.inj h
    refine ⟨call, _, hcall, by simp [hphase], rfl, rfl, fun t hF _ => ?_⟩
    exact ⟨⟨hF.devices, hF.other, hF.force, trivial⟩,
      fun _ => .inr (.inl (by simp [EnsureCall.throwsIn, EnsureCall.claimThrows]))⟩
  · exact absurd h (by simp)

theorem sessionStarted_moves {i : ℕ} {sid : Option String}
    (h : s.sessionStarted c i sid = some s') :
    ∃ call call', Moves ownKey s s'
      (.sessionStarted c i sid : OlmSessionsEvent User DeviceId Key OneTimeKey) c call call' := by
  obtain ⟨call, hcall, h⟩ := Option.bind_eq_some_iff.1 h
  split at h
  next pending hphase =>
    obtain ⟨t', ht', rfl⟩ := Option.map_eq_some_iff.1 h
    refine ⟨call, _, hcall, by simp [hphase], rfl, rfl, fun t hF _ => ?_⟩
    refine ⟨⟨hF.devices, hF.other, hF.force, Or.inr ?_⟩, fun _ => .inr (.inr ⟨i, sid, rfl⟩)⟩
    have := hF.phase
    rw [hphase] at this
    rcases this with rfl | rfl
    · obtain ⟨hi, -⟩ := List.getElem?_eq_some_iff.1 ht'
      obtain rfl := Nat.lt_one_iff.1 hi
      rfl
    · exact absurd ht' (by simp)
  · exact absurd h (by simp)

/-- A step makes a new call, or moves one that has not settled. -/
theorem olmSessionsStep_moves (h : olmSessionsStep ownKey s e = some s') :
    (∃ devices force failedServers,
      e = .ensureOlmSessionsForDevices devices force failedServers ∧
        s' = s.ensureOlmSessionsForDevices devices force failedServers) ∨
      ∃ c call call', Moves ownKey s s' e c call call' := by
  cases e with
  | ensureOlmSessionsForDevices devices force failedServers =>
    exact .inl ⟨devices, force, failedServers, rfl, (Option.some.inj h).symm⟩
  | nextDevice c => exact .inr ⟨c, nextDevice_moves h⟩
  | promiseResolved c =>
    right
    obtain ⟨call, hcall, h⟩ := Option.bind_eq_some_iff.1 h
    split at h
    next t' p rest hphase =>
      split at h
      · obtain rfl := Option.some.inj h
        refine ⟨c, call, _, hcall, by simp [hphase], rfl, rfl, fun t hF _ => ?_⟩
        have := hF.phase
        rw [hphase] at this
        exact ⟨⟨hF.devices, hF.other, hF.force, this⟩, fun hd => by simp [EnsureCall.Done] at hd⟩
      · exact absurd h (by simp)
    · exact absurd h (by simp)
  | sessionsRead c sessions => exact .inr ⟨c, sessionsRead_moves h⟩
  | storeFails c =>
    right
    obtain ⟨call, hcall, h⟩ := Option.bind_eq_some_iff.1 h
    split at h
    next hphase =>
      obtain rfl := Option.some.inj h
      exact ⟨c, call, _, hcall, by simp [hphase], rfl, rfl, fun t hF _ =>
        ⟨⟨hF.devices, hF.other, hF.force, trivial⟩, fun _ =>
          .inr (.inl (by simp [EnsureCall.throwsIn]))⟩⟩
    · exact absurd h (by simp)
  | keysClaimed c res => exact .inr ⟨c, keysClaimed_moves h⟩
  | claimFails c =>
    right
    obtain ⟨call, hcall, h⟩ := Option.bind_eq_some_iff.1 h
    split at h
    next hphase =>
      obtain rfl := Option.some.inj h
      exact ⟨c, call, _, hcall, by simp [hphase], rfl, rfl, fun t hF _ =>
        ⟨⟨hF.devices, hF.other, hF.force, trivial⟩, fun _ =>
          .inr (.inl (by simp [EnsureCall.throwsIn]))⟩⟩
    · exact absurd h (by simp)
  | sessionStarted c i sid => exact .inr ⟨c, sessionStarted_moves h⟩
  | allStarted c =>
    right
    obtain ⟨call, hcall, h⟩ := Option.bind_eq_some_iff.1 h
    split at h
    next hphase =>
      obtain rfl := Option.some.inj h
      exact ⟨c, call, _, hcall, by simp [hphase], rfl, rfl, fun t hF _ =>
        ⟨⟨hF.devices, hF.other, hF.force, trivial⟩, fun _ => .inl (.inl hphase)⟩⟩
    · exact absurd h (by simp)

end OlmSessions

end Calls

/-! ## What holds in every run -/

section Runs

variable {User DeviceId Key OneTimeKey : Type}

/-- The handling has not come to the end of its call yet. -/
def BadEncrypted.Waits (msg : BadEncrypted User Key) : Prop :=
  msg.phase = .downloadingKeys ∨ ∃ c, msg.phase = .ensuring c

namespace WedgedSessions

/-- What has been noted is not older than the sessions it was noted for, and a message that
is still waiting came an interval after those noted for its own sender key. -/
structure Inv (s : WedgedSessions User DeviceId Key) : Prop where
  clock : minForceSessionIntervalMs ≤ s.now
  calls : ∀ c call, s.olm.calls c = some call → c < s.olm.nextCall
  numbered : ∀ m msg, s.messages m = some msg → m < s.nextMessage
  owned : ∀ c m, s.messageOf c = some m → ∃ call msg, s.olm.calls c = some call ∧
    s.messages m = some msg ∧ (call.phase = .settled ∨ msg.phase = .ensuring c)
  ensuring : ∀ m msg c, s.messages m = some msg → msg.phase = .ensuring c →
    s.messageOf c = some m
  unrecorded : ∀ m msg, s.messages m = some msg → msg.Waits → msg.recorded = none
  forced : ∀ f ∈ s.forced, f.time ≤ s.now ∧ ∃ msg, s.messages f.message = some msg
  noted : ∀ f ∈ s.forced, ∀ msg n, s.messages f.message = some msg → msg.recorded = some n →
    ∃ l, s.lastNewSessionForced msg.sender msg.deviceKey = some l ∧ f.time ≤ l.time
  checked : ∀ m msg, s.messages m = some msg → msg.Waits → ∀ f ∈ s.forced, s.NotedBefore f m →
    f.time + minForceSessionIntervalMs ≤ s.now

theorem Inv.new (start : ℕ) : (new start : WedgedSessions User DeviceId Key).Inv where
  clock := Nat.le_add_right _ _
  calls _ _ h := nomatch h
  numbered _ _ h := nomatch h
  owned _ _ h := nomatch h
  ensuring _ _ _ h := nomatch h
  unrecorded _ _ h := nomatch h
  forced _ hf := absurd hf List.not_mem_nil
  noted _ hf := absurd hf List.not_mem_nil
  checked _ _ h := nomatch h

variable {s s' : WedgedSessions User DeviceId Key} {m : ℕ} {msg : BadEncrypted User Key}
  {f : ForcedSession Key} {e : OlmSessionsEvent User DeviceId Key OneTimeKey}

theorem Inv.recordSessionProblem (hI : s.Inv) (deviceKey : Key) (fixed : Bool) (m : ℕ) :
    (s.recordSessionProblem deviceKey fixed m).Inv :=
  ⟨hI.clock, hI.calls, hI.numbered, hI.owned, hI.ensuring, hI.unrecorded, hI.forced, hI.noted,
    hI.checked⟩

theorem Inv.tick (hI : s.Inv) (ms : ℕ) : ({ s with now := s.now + ms } :
    WedgedSessions User DeviceId Key).Inv where
  clock := Nat.le_add_right_of_le hI.clock
  calls := hI.calls
  numbered := hI.numbered
  owned := hI.owned
  ensuring := hI.ensuring
  unrecorded := hI.unrecorded
  forced f hf := ⟨Nat.le_add_right_of_le (hI.forced f hf).1, (hI.forced f hf).2⟩
  noted := hI.noted
  checked m msg hm hw f hf hb := Nat.le_add_right_of_le (hI.checked m msg hm hw f hf hb)

/-- The messages after one of them has been set. -/
theorem messages_setMessage (s : WedgedSessions User DeviceId Key) (m : ℕ)
    (msg : BadEncrypted User Key) (k : ℕ) :
    (s.setMessage m msg).messages k = if k = m then some msg else s.messages k := by
  simp only [setMessage, Function.update_apply]

/-- What is compared when a message comes: it changes only when the time is noted. -/
def facts (s : WedgedSessions User DeviceId Key) (m : ℕ) : Option (User × Key × Option ℕ) :=
  (s.messages m).map fun msg => (msg.sender, msg.deviceKey, msg.recorded)

theorem notedBefore_iff_facts :
    s.NotedBefore f m ↔ ∃ sender deviceKey recorded n,
      s.facts m = some (sender, deviceKey, recorded) ∧
      s.facts f.message = some (sender, deviceKey, some n) ∧ n ≤ m := by
  constructor
  · rintro ⟨msg, msg', hm, hf, hsender, hkey, n, hn, hrec⟩
    refine ⟨msg.sender, msg.deviceKey, msg.recorded, n, ?_, ?_, hn⟩
    · simp only [facts, hm, Option.map_some]
    · simp only [facts, hf, Option.map_some, hsender, hkey, hrec]
  · rintro ⟨sender, deviceKey, recorded, n, hm, hf, hn⟩
    obtain ⟨msg, hmsg, hmeq⟩ := Option.map_eq_some_iff.1 hm
    obtain ⟨msg', hmsg', hfeq⟩ := Option.map_eq_some_iff.1 hf
    simp only [Prod.mk.injEq] at hmeq hfeq
    exact ⟨msg, msg', hmsg, hmsg', hfeq.1.trans hmeq.1.symm, hfeq.2.1.trans hmeq.2.1.symm, n, hn,
      hfeq.2.2⟩

theorem exists_of_facts_eq (h : s'.facts m = s.facts m) (hm : s'.messages m = some msg) :
    ∃ msg₀, s.messages m = some msg₀ ∧ msg₀.sender = msg.sender ∧
      msg₀.deviceKey = msg.deviceKey ∧ msg₀.recorded = msg.recorded := by
  simp only [facts, hm, Option.map_some] at h
  obtain ⟨msg₀, hm₀, heq⟩ := Option.map_eq_some_iff.1 h.symm
  simp only [Prod.mk.injEq] at heq
  exact ⟨msg₀, hm₀, heq.1, heq.2.1, heq.2.2⟩

/-- The invariant after a step that notes no time, creates no session and lets no message
wait that has not waited. -/
theorem Inv.of_facts (hI : s.Inv) (hfacts : ∀ k, s'.facts k = s.facts k) (hnow : s'.now = s.now)
    (hforced : s'.forced = s.forced) (hlast : s'.lastNewSessionForced = s.lastNewSessionForced)
    (hnext : s'.nextMessage = s.nextMessage)
    (hwaits : ∀ k msg, s'.messages k = some msg → msg.Waits →
      ∃ msg₀, s.messages k = some msg₀ ∧ msg₀.Waits)
    (calls : ∀ c call, s'.olm.calls c = some call → c < s'.olm.nextCall)
    (owned : ∀ c m, s'.messageOf c = some m → ∃ call msg, s'.olm.calls c = some call ∧
      s'.messages m = some msg ∧ (call.phase = .settled ∨ msg.phase = .ensuring c))
    (ensuring : ∀ m msg c, s'.messages m = some msg → msg.phase = .ensuring c →
      s'.messageOf c = some m) : s'.Inv where
  clock := hnow ▸ hI.clock
  calls := calls
  numbered k msg hk := by
    obtain ⟨msg₀, hk₀, -⟩ := exists_of_facts_eq (hfacts k) hk
    exact hnext ▸ hI.numbered k msg₀ hk₀
  owned := owned
  ensuring := ensuring
  unrecorded k msg hk hw := by
    obtain ⟨msg₀, hk₀, hw₀⟩ := hwaits k msg hk hw
    obtain ⟨msg₁, hk₁, -, -, hrec⟩ := exists_of_facts_eq (hfacts k) hk
    obtain rfl := Option.some.inj (hk₀.symm.trans hk₁)
    exact hrec ▸ hI.unrecorded k msg₀ hk₀ hw₀
  forced f hf := by
    rw [hforced] at hf
    obtain ⟨htime, msg, hm⟩ := hI.forced f hf
    obtain ⟨msg', hm', -⟩ := exists_of_facts_eq (hfacts f.message).symm hm
    exact ⟨hnow ▸ htime, msg', hm'⟩
  noted f hf msg n hm hrec := by
    rw [hforced] at hf
    obtain ⟨msg₀, hm₀, hsender, hkey, hrec₀⟩ := exists_of_facts_eq (hfacts f.message) hm
    have := hI.noted f hf msg₀ n hm₀ (hrec₀.trans hrec)
    rwa [hsender, hkey, ← hlast] at this
  checked k msg hk hw f hf hb := by
    rw [hforced] at hf
    obtain ⟨msg₀, hk₀, hw₀⟩ := hwaits k msg hk hw
    rw [hnow]
    refine hI.checked k msg₀ hk₀ hw₀ f hf (notedBefore_iff_facts.2 ?_)
    have := notedBefore_iff_facts.1 hb
    rwa [hfacts k, hfacts f.message] at this

theorem facts_setMessage (hm : s.messages m = some msg) (phase : BadEncryptedPhase) (k : ℕ) :
    (s.setMessage m { msg with phase := phase }).facts k = s.facts k := by
  simp only [facts, messages_setMessage]
  split
  next hk =>
    subst hk
    rw [hm, Option.map_some, Option.map_some]
  next => rfl

/-- The handling of a message that is not in its call ends. -/
theorem Inv.settle (hI : s.Inv) (hm : s.messages m = some msg)
    (hphase : ∀ c, msg.phase ≠ .ensuring c) :
    (s.setMessage m { msg with phase := .settled }).Inv := by
  refine hI.of_facts (facts_setMessage hm _) rfl rfl rfl rfl ?_ hI.calls ?_ ?_
  · intro k msg' hk hw
    rw [messages_setMessage] at hk
    split at hk
    · obtain rfl := Option.some.inj hk
      exact absurd hw (by simp [BadEncrypted.Waits])
    · exact ⟨msg', hk, hw⟩
  · intro c k hc
    obtain ⟨call, msg₀, hcall, hk, hor⟩ := hI.owned c k hc
    rw [messages_setMessage]
    split
    next hkm =>
      subst hkm
      obtain rfl := Option.some.inj (hm.symm.trans hk)
      exact ⟨call, _, hcall, rfl, .inl (hor.resolve_right (hphase c))⟩
    next => exact ⟨call, msg₀, hcall, hk, hor⟩
  · intro k msg' c hk hc
    rw [messages_setMessage] at hk
    split at hk
    · obtain rfl := Option.some.inj hk
      exact absurd hc (by simp)
    · exact hI.ensuring k msg' c hk hc

/-- A message goes into its call of `ensureOlmSessionsForDevices`. -/
theorem Inv.ensureSession (hI : s.Inv) (hm : s.messages m = some msg)
    (hphase : msg.phase = .downloadingKeys) (device : DeviceId × Key) :
    (s.ensureSession m msg device).Inv := by
  -- no call has the number of the new one
  have hnew : ∀ c k, s.messageOf c = some k → c ≠ s.olm.nextCall := by
    intro c k hc
    obtain ⟨call, -, hcall, -⟩ := hI.owned c k hc
    exact (hI.calls c call hcall).ne
  refine hI.of_facts (facts_setMessage hm _) rfl rfl rfl rfl ?_ ?_ ?_ ?_
  · intro k msg' hk hw
    change (s.setMessage m _).messages k = _ at hk
    rw [messages_setMessage] at hk
    split at hk
    next hkm => exact ⟨msg, hkm ▸ hm, .inl hphase⟩
    next => exact ⟨msg', hk, hw⟩
  · intro c call hc
    change Function.update s.olm.calls s.olm.nextCall _ c = _ at hc
    rw [Function.update_apply] at hc
    split at hc
    next hcn => exact hcn ▸ Nat.lt_succ_self _
    next => exact Nat.lt_succ_of_lt (hI.calls c call hc)
  · intro c k hc
    change Function.update s.messageOf s.olm.nextCall (some m) c = _ at hc
    change ∃ call msg', Function.update s.olm.calls s.olm.nextCall _ c = some call ∧
      (s.setMessage m _).messages k = some msg' ∧ _
    rw [Function.update_apply] at hc
    split at hc
    next hcn =>
      obtain rfl := Option.some.inj hc
      rw [hcn, Function.update_self]
      refine ⟨_, { msg with phase := .ensuring s.olm.nextCall }, rfl, ?_, .inr rfl⟩
      rw [messages_setMessage, if_pos rfl]
    next hcn =>
      obtain ⟨call, msg₀, hcall, hk, hor⟩ := hI.owned c k hc
      rw [Function.update_of_ne hcn, messages_setMessage]
      split
      next hkm =>
        subst hkm
        obtain rfl := Option.some.inj (hm.symm.trans hk)
        refine ⟨call, _, hcall, rfl, .inl (hor.resolve_right ?_)⟩
        rw [hphase]
        exact fun h => nomatch h
      next => exact ⟨call, msg₀, hcall, hk, hor⟩
  · intro k msg' c hk hc
    change (s.setMessage m _).messages k = _ at hk
    change Function.update s.messageOf s.olm.nextCall (some m) c = _
    rw [messages_setMessage] at hk
    split at hk
    next hkm =>
      obtain rfl := Option.some.inj hk
      obtain rfl := BadEncryptedPhase.ensuring.inj hc
      rw [Function.update_self, hkm]
    next =>
      have hold := hI.ensuring k msg' c hk hc
      rw [Function.update_of_ne (hnew c k hold), hold]

/-- A message that has just come: if it is going to wait, whatever was noted for its sender key is
an interval old. -/
theorem Inv.newMessage (hI : s.Inv) (sender : User) (deviceKey : Key) (phase : BadEncryptedPhase)
    (hphase : ∀ c, phase ≠ .ensuring c)
    (hold : phase = .downloadingKeys → ∀ l, s.lastNewSessionForced sender deviceKey = some l →
      l.time + minForceSessionIntervalMs ≤ s.now) :
    ({ s with nextMessage := s.nextMessage + 1 }.setMessage s.nextMessage
      ⟨sender, deviceKey, phase, none⟩ : WedgedSessions User DeviceId Key).Inv := by
  set s' := ({ s with nextMessage := s.nextMessage + 1 }.setMessage s.nextMessage
    ⟨sender, deviceKey, phase, none⟩ : WedgedSessions User DeviceId Key)
  have hmsg : ∀ k, s'.messages k =
      if k = s.nextMessage then some ⟨sender, deviceKey, phase, none⟩ else s.messages k :=
    messages_setMessage _ _ _
  have hkeep : ∀ k msg, s.messages k = some msg → s'.messages k = some msg := by
    intro k msg hk
    rw [hmsg, if_neg (hI.numbered k msg hk).ne, hk]
  -- the messages of forced sessions are old ones
  have hback : ∀ f ∈ s.forced, s'.messages f.message = s.messages f.message := by
    intro f hf
    obtain ⟨-, msg, hm⟩ := hI.forced f hf
    rw [hkeep _ msg hm, hm]
  refine ⟨hI.clock, hI.calls, ?_, ?_, ?_, ?_, ?_, ?_, ?_⟩
  · intro k msg hk
    rw [hmsg] at hk
    split at hk
    next hkm => exact hkm ▸ Nat.lt_succ_self _
    next => exact Nat.lt_succ_of_lt (hI.numbered k msg hk)
  · intro c k hc
    obtain ⟨call, msg, hcall, hk, hor⟩ := hI.owned c k hc
    exact ⟨call, msg, hcall, hkeep k msg hk, hor⟩
  · intro k msg c hk hc
    rw [hmsg] at hk
    split at hk
    · obtain rfl := Option.some.inj hk
      exact absurd hc (hphase c)
    · exact hI.ensuring k msg c hk hc
  · intro k msg hk hw
    rw [hmsg] at hk
    split at hk
    · obtain rfl := Option.some.inj hk
      rfl
    · exact hI.unrecorded k msg hk hw
  · intro f hf
    obtain ⟨htime, msg, hm⟩ := hI.forced f hf
    exact ⟨htime, msg, hkeep _ msg hm⟩
  · intro f hf msg n hm hrec
    rw [hback f hf] at hm
    exact hI.noted f hf msg n hm hrec
  · rintro k msg hk hw f hf ⟨msg₁, msg', hk₁, hf', hsender, hkey, n, hn, hrec⟩
    obtain rfl := Option.some.inj (hk.symm.trans hk₁)
    rw [hback f hf] at hf'
    rw [hmsg] at hk
    split at hk
    · -- the new message has been compared with what was noted
      obtain rfl := Option.some.inj hk
      have hdown : phase = .downloadingKeys := hw.resolve_right fun ⟨c, hc⟩ => hphase c hc
      obtain ⟨l, hl, hle⟩ := hI.noted f hf msg' n hf' hrec
      rw [hsender, hkey] at hl
      exact (Nat.add_le_add_right hle _).trans (hold hdown l hl)
    · exact hI.checked k msg hk hw f hf ⟨msg, msg', hk, hf', hsender, hkey, n, hn, hrec⟩

variable [DecidableEq User] [DecidableEq Key]

/-- The time is noted, for a session that may have been created before. -/
theorem Inv.sessionEnsured (hI : s.Inv) (h : s.sessionEnsured m = some s') : s'.Inv := by
  obtain ⟨msg, hm, h⟩ := Option.bind_eq_some_iff.1 h
  split at h
  next c hphase =>
    split at h
    next hreturned =>
      obtain rfl := Option.some.inj h
      have hwaits : msg.Waits := .inr ⟨c, hphase⟩
      set msg₁ : BadEncrypted User Key :=
        { msg with phase := .encrypting, recorded := some s.nextMessage } with hmsg₁
      have hmsg : ∀ k, (s.setMessage m msg₁).messages k =
          if k = m then some msg₁ else s.messages k :=
        messages_setMessage s m msg₁
      have hidle : ¬ msg₁.Waits := by simp [BadEncrypted.Waits, hmsg₁]
      refine ⟨hI.clock, hI.calls, ?_, ?_, ?_, ?_, ?_, ?_, ?_⟩
      · intro k msg' hk
        rw [hmsg] at hk
        split at hk
        next hkm => exact hkm ▸ hI.numbered m msg hm
        next => exact hI.numbered k msg' hk
      · intro c' k hc
        obtain ⟨call, msg', hcall, hk, hor⟩ := hI.owned c' k hc
        rw [hmsg]
        split
        next hkm =>
          -- its call is the one that has returned
          subst hkm
          obtain rfl := Option.some.inj (hm.symm.trans hk)
          refine ⟨call, msg₁, hcall, rfl, .inl ?_⟩
          rcases hor with hsettled | hens
          · exact hsettled
          · obtain rfl := BadEncryptedPhase.ensuring.inj (hphase.symm.trans hens)
            simp only [returned, hcall, Option.map_some] at hreturned
            split at hreturned
            next hs => exact Option.some.inj hs
            next => exact absurd hreturned (by simp)
        next => exact ⟨call, msg', hcall, hk, hor⟩
      · intro k msg' c' hk hc
        rw [hmsg] at hk
        split at hk
        · obtain rfl := Option.some.inj hk
          exact absurd (.inr ⟨c', hc⟩) hidle
        · exact hI.ensuring k msg' c' hk hc
      · intro k msg' hk hw
        rw [hmsg] at hk
        split at hk
        · obtain rfl := Option.some.inj hk
          exact absurd hw hidle
        · exact hI.unrecorded k msg' hk hw
      · intro f hf
        obtain ⟨htime, msg', hf'⟩ := hI.forced f hf
        refine ⟨htime, ?_⟩
        rw [hmsg]
        split
        · exact ⟨_, rfl⟩
        · exact ⟨msg', hf'⟩
      · intro f hf msg' n hf' hrec
        change ∃ l, Function.update s.lastNewSessionForced msg.sender _ msg'.sender
          msg'.deviceKey = some l ∧ _
        by_cases hsame : msg'.sender = msg.sender ∧ msg'.deviceKey = msg.deviceKey
        · rw [hsame.1, hsame.2, Function.update_self, Function.update_self]
          exact ⟨_, rfl, (hI.forced f hf).1⟩
        · rw [hmsg] at hf'
          split at hf'
          · obtain rfl := Option.some.inj hf'
            exact absurd ⟨rfl, rfl⟩ hsame
          · obtain ⟨l, hl, hle⟩ := hI.noted f hf msg' n hf' hrec
            refine ⟨l, ?_, hle⟩
            by_cases hsender : msg'.sender = msg.sender
            · rw [hsender, Function.update_self,
                Function.update_of_ne (fun h => hsame ⟨hsender, h⟩), ← hsender, hl]
            · rw [Function.update_of_ne hsender, hl]
      · rintro k msg' hk hw f hf ⟨msg₂, msg₃, hk₂, hf', hsender, hkey, n, hn, hrec⟩
        rw [hmsg] at hk hk₂ hf'
        split at hk
        · obtain rfl := Option.some.inj hk
          exact absurd hw hidle
        next hkm =>
          rw [if_neg hkm] at hk₂
          split at hf'
          · -- this message came before the time was noted
            obtain rfl := Option.some.inj hf'
            obtain rfl := Option.some.inj hrec
            exact absurd hn (hI.numbered k msg' hk).not_ge
          · exact hI.checked k msg' hk hw f hf ⟨msg₂, msg₃, hk₂, hf', hsender, hkey, n, hn, hrec⟩
    next => exact absurd h (by simp)
  · exact absurd h (by simp)

section

omit [DecidableEq User] [DecidableEq Key]

/-- A session is created at the present time, for the message whose call is starting it. -/
theorem mem_created (hf : f ∈ s.created e) : f.time = s.now ∧ ∃ c i sid call pending,
      e = .sessionStarted c i (some sid) ∧ s.messageOf c = some f.message ∧
        s.olm.calls c = some call ∧ call.phase = .starting pending := by
  unfold created at hf
  split at hf
  next c i sid =>
    split at hf
    next m pending hm hcall =>
      obtain ⟨call, hcall, hphase⟩ := Option.map_eq_some_iff.1 hcall
      obtain ⟨t, -, rfl⟩ := List.mem_map.1 hf
      exact ⟨rfl, c, i, sid, call, pending, rfl, hm, hcall, hphase⟩
    next => exact absurd hf List.not_mem_nil
  next => exact absurd hf List.not_mem_nil

/-- Two sessions are never created at once. -/
theorem created_pairwise (s : WedgedSessions User DeviceId Key)
    (e : OlmSessionsEvent User DeviceId Key OneTimeKey)
    (R : ForcedSession Key → ForcedSession Key → Prop) : (s.created e).Pairwise R := by
  unfold created
  split
  next c i sid =>
    split
    next m pending _ _ =>
      cases pending[i]? with
      | none => exact List.Pairwise.nil
      | some t => exact List.pairwise_singleton R _
    next => exact List.Pairwise.nil
  next => exact List.Pairwise.nil

/-- The message a session is created for is still waiting for it. -/
theorem Inv.waits_of_created (hI : s.Inv) (hf : f ∈ s.created e) :
    ∃ msg, s.messages f.message = some msg ∧ msg.Waits := by
  obtain ⟨-, c, i, sid, call, pending, -, hc, hcall, hphase⟩ := mem_created hf
  obtain ⟨call', msg, hcall', hm, hor⟩ := hI.owned c _ hc
  obtain rfl := Option.some.inj (hcall.symm.trans hcall')
  refine ⟨msg, hm, .inr ⟨c, hor.resolve_left ?_⟩⟩
  rw [hphase]
  exact fun h => nomatch h

end

variable [DecidableEq DeviceId] {ownKey : Key}

theorem Inv.olmStep (hI : s.Inv) (h : s.olmStep ownKey e = some s') : s'.Inv := by
  obtain ⟨olm, hstep, rfl⟩ := Option.map_eq_some_iff.1 h
  have hunrec : ∀ f ∈ s.created e, ∀ msg, s.messages f.message = some msg →
      msg.recorded = none := by
    intro f hf msg hm
    obtain ⟨msg₀, hm₀, hw⟩ := hI.waits_of_created hf
    obtain rfl := Option.some.inj (hm.symm.trans hm₀)
    exact hI.unrecorded _ msg hm hw
  refine ⟨hI.clock, ?_, hI.numbered, ?_, hI.ensuring, hI.unrecorded, ?_, ?_, ?_⟩
  · intro c call hc
    obtain ⟨devices, force, failedServers, -, rfl⟩ | ⟨d, call₁, call₂, hmove⟩ :=
      OlmSessions.olmSessionsStep_moves hstep
    · change Function.update s.olm.calls s.olm.nextCall _ c = _ at hc
      rw [Function.update_apply] at hc
      split at hc
      next hcn => exact hcn ▸ Nat.lt_succ_self _
      next => exact Nat.lt_succ_of_lt (hI.calls c call hc)
    · change olm.calls c = _ at hc
      change c < olm.nextCall
      rw [hmove.calls, Function.update_apply] at hc
      rw [hmove.nextCall]
      split at hc
      next hcd => exact hcd ▸ hI.calls d call₁ hmove.before
      next => exact hI.calls c call hc
  · intro c k hc
    obtain ⟨call, msg, hcall, hk, hor⟩ := hI.owned c k hc
    change ∃ call msg, olm.calls c = some call ∧ _
    obtain ⟨devices, force, failedServers, -, rfl⟩ | ⟨d, call₁, call₂, hmove⟩ :=
      OlmSessions.olmSessionsStep_moves hstep
    · refine ⟨call, msg, ?_, hk, hor⟩
      exact (Function.update_of_ne (hI.calls c call hcall).ne _ _).trans hcall
    · rw [hmove.calls, Function.update_apply]
      split
      next hcd =>
        -- a call that has not settled is still waited for
        subst hcd
        obtain rfl := Option.some.inj (hcall.symm.trans hmove.before)
        exact ⟨call₂, msg, rfl, hk, .inr (hor.resolve_left hmove.running)⟩
      next => exact ⟨call, msg, hcall, hk, hor⟩
  · intro f hf
    rcases List.mem_append.1 hf with hf | hf
    · exact hI.forced f hf
    · obtain ⟨msg, hm, -⟩ := hI.waits_of_created hf
      exact ⟨(mem_created hf).1.le, msg, hm⟩
  · intro f hf msg n hm hrec
    rcases List.mem_append.1 hf with hf | hf
    · exact hI.noted f hf msg n hm hrec
    · exact absurd ((hunrec f hf msg hm).symm.trans hrec) (by simp)
  · intro k msg hk hw f hf hb
    rcases List.mem_append.1 hf with hf | hf
    · exact hI.checked k msg hk hw f hf hb
    · obtain ⟨-, msg', -, hf', -, -, n, -, hrec⟩ := hb
      exact absurd ((hunrec f hf msg' hf').symm.trans hrec) (by simp)

omit [DecidableEq User] [DecidableEq Key] [DecidableEq DeviceId] in
theorem Inv.old_of_not_forcedRecently {sender : User} {deviceKey : Key}
    (hold : s.forcedRecently sender deviceKey = false) :
    ∀ l, s.lastNewSessionForced sender deviceKey = some l →
      l.time + minForceSessionIntervalMs ≤ s.now := by
  intro l hl
  simp only [forcedRecently, hl, Option.map_some, Option.getD_some, decide_eq_false_iff_not] at hold
  exact Nat.le_of_not_lt hold

omit [DecidableEq User] [DecidableEq Key] [DecidableEq DeviceId] in
theorem Inv.onToDeviceBadEncrypted (hI : s.Inv) (sender : Option User) (deviceKey : Option Key)
    (device : Option (DeviceId × Key)) :
    (s.onToDeviceBadEncrypted sender deviceKey device).Inv := by
  unfold WedgedSessions.onToDeviceBadEncrypted
  split
  next sender deviceKey =>
    split
    · exact (hI.newMessage sender deviceKey .settled (by simp) (by simp)).recordSessionProblem _ _ _
    next hrecent =>
      have hnew := hI.newMessage sender deviceKey .downloadingKeys (by simp)
        fun _ => Inv.old_of_not_forcedRecently (Bool.eq_false_iff.2 hrecent)
      cases device with
      | none => exact hnew
      | some device =>
        have := hnew.ensureSession ((messages_setMessage _ _ _ _).trans (if_pos rfl)) rfl device
        simpa only [WedgedSessions.ensureSession, setMessage, Function.update_idem] using this
  next => exact hI

theorem Inv.step {e : WedgedSessionsEvent User DeviceId Key OneTimeKey} (hI : s.Inv)
    (h : wedgedSessionsStep ownKey s e = some s') : s'.Inv := by
  cases e with
  | tick ms =>
    obtain rfl := Option.some.inj h
    exact hI.tick ms
  | onToDeviceBadEncrypted sender deviceKey device =>
    obtain rfl := Option.some.inj h
    exact hI.onToDeviceBadEncrypted sender deviceKey device
  | keysDownloaded m device =>
    obtain ⟨msg, hm, h⟩ := Option.bind_eq_some_iff.1 h
    split at h
    next hphase _ =>
      obtain rfl := Option.some.inj h
      exact (hI.settle hm fun c hc => by simp [hphase] at hc).recordSessionProblem _ _ _
    next device hphase _ =>
      obtain rfl := Option.some.inj h
      exact hI.ensureSession hm hphase device
    · exact absurd h (by simp)
  | downloadFails m =>
    obtain ⟨msg, hm, h⟩ := Option.bind_eq_some_iff.1 h
    split at h
    next hphase =>
      obtain rfl := Option.some.inj h
      exact hI.settle hm fun c hc => by simp [hphase] at hc
    · exact absurd h (by simp)
  | olm e => exact hI.olmStep h
  | sessionEnsured m => exact hI.sessionEnsured h
  | messageEncrypted m =>
    obtain ⟨msg, hm, h⟩ := Option.bind_eq_some_iff.1 h
    split at h
    next hphase =>
      obtain rfl := Option.some.inj h
      exact (hI.settle hm fun c hc => by simp [hphase] at hc).recordSessionProblem _ _ _
    · exact absurd h (by simp)
  | encryptFails m =>
    obtain ⟨msg, hm, h⟩ := Option.bind_eq_some_iff.1 h
    split at h
    next hphase =>
      obtain rfl := Option.some.inj h
      exact hI.settle hm fun c hc => by simp [hphase] at hc
    · exact absurd h (by simp)

/-! ### Sessions an interval apart -/

omit [DecidableEq User] [DecidableEq Key] [DecidableEq DeviceId] in
theorem forced_onToDeviceBadEncrypted (s : WedgedSessions User DeviceId Key)
    (sender : Option User) (deviceKey : Option Key) (device : Option (DeviceId × Key)) :
    (s.onToDeviceBadEncrypted sender deviceKey device).forced = s.forced := by
  unfold onToDeviceBadEncrypted
  split
  next sender deviceKey =>
    by_cases hrecent : s.forcedRecently sender deviceKey = true
    · simp only [hrecent, if_true, setMessage, recordSessionProblem]
    · cases device <;> simp only [hrecent, Bool.false_eq_true, if_false, setMessage, ensureSession]
  next => rfl

/-- **What one step does to the interval.** -/
theorem apart_step {e : WedgedSessionsEvent User DeviceId Key OneTimeKey} (hI : s.Inv)
    (hA : s.Apart) (h : wedgedSessionsStep ownKey s e = some s') :
    s'.Apart ↔ ForcesInTurn s e := by
  have hsame : s'.forced = s.forced → (s'.Apart ↔ True) := by
    intro heq
    simpa only [Apart, heq, iff_true] using hA
  cases e with
  | olm e =>
    obtain ⟨olm, hstep, rfl⟩ := Option.map_eq_some_iff.1 h
    have happend : Apart { s with
          olm := olm
          rejected := fun c => s.rejected c || (s.olm.calls c).any fun call => call.throwsIn c e
          forced := s.forced ++ s.created e } ↔
        ∀ g ∈ s.forced, ∀ f ∈ s.created e, g.identityKey = f.identityKey →
          g.time + minForceSessionIntervalMs ≤ f.time := by
      simp only [Apart, List.pairwise_append, created_pairwise, true_and]
      exact ⟨fun h => h.2, fun h => ⟨hA, h⟩⟩
    rw [happend]
    constructor
    · intro h f hf g hg hkey hnow
      have hapart := h g hg f hf hkey
      rw [(mem_created hf).1] at hapart
      exact absurd hapart hnow.not_ge
    · intro h g hg f hf hkey
      rw [(mem_created hf).1]
      by_contra hnow
      -- then the time had been noted, and was compared when the message came
      obtain ⟨msg, hm, hw⟩ := hI.waits_of_created hf
      have hbefore := h f hf g hg hkey (Nat.lt_of_not_le hnow)
      exact hnow (hI.checked f.message msg hm hw g hg hbefore)
  | tick ms =>
    obtain rfl := Option.some.inj h
    exact hsame rfl
  | onToDeviceBadEncrypted sender deviceKey device =>
    obtain rfl := Option.some.inj h
    exact hsame (forced_onToDeviceBadEncrypted s sender deviceKey device)
  | keysDownloaded m device =>
    obtain ⟨msg, -, h⟩ := Option.bind_eq_some_iff.1 h
    split at h
    · exact hsame (Option.some.inj h ▸ rfl)
    · exact hsame (Option.some.inj h ▸ rfl)
    · exact absurd h (by simp)
  | downloadFails m =>
    obtain ⟨msg, -, h⟩ := Option.bind_eq_some_iff.1 h
    split at h
    · exact hsame (Option.some.inj h ▸ rfl)
    · exact absurd h (by simp)
  | sessionEnsured m =>
    obtain ⟨msg, -, h⟩ := Option.bind_eq_some_iff.1 h
    split at h
    · split at h
      · exact hsame (Option.some.inj h ▸ rfl)
      · exact absurd h (by simp)
    · exact absurd h (by simp)
  | messageEncrypted m =>
    obtain ⟨msg, -, h⟩ := Option.bind_eq_some_iff.1 h
    split at h
    · exact hsame (Option.some.inj h ▸ rfl)
    · exact absurd h (by simp)
  | encryptFails m =>
    obtain ⟨msg, -, h⟩ := Option.bind_eq_some_iff.1 h
    split at h
    · exact hsame (Option.some.inj h ▸ rfl)
    · exact absurd h (by simp)

/-! ### Records that say `fixed` -/

/-- What the records go by: a call that is done has created a session, unless it threw, and so
has every message past its call. -/
structure Credited (ownKey : Key) (s : WedgedSessions User DeviceId Key) : Prop where
  calls : ∀ c m, s.messageOf c = some m → ∃ call t msg, s.olm.calls c = some call ∧
    call.Forcing ownKey t ∧ s.messages m = some msg ∧
      (call.Done → s.rejected c = false → s.HasSession m msg.deviceKey)
  noted : ∀ sender deviceKey l, s.lastNewSessionForced sender deviceKey = some l →
    s.HasSession l.message deviceKey
  encrypting : ∀ m msg, s.messages m = some msg → msg.phase = .encrypting →
    s.HasSession m msg.deviceKey
  fixed : s.FixedRightly

/-- Sessions stay, and so do the sender keys of the messages. -/
structure Grows (s s' : WedgedSessions User DeviceId Key) : Prop where
  forced : ∀ f ∈ s.forced, f ∈ s'.forced
  messages : ∀ k msg, s.messages k = some msg →
    ∃ msg', s'.messages k = some msg' ∧ msg'.deviceKey = msg.deviceKey

omit [DecidableEq User] [DecidableEq Key] [DecidableEq DeviceId]

theorem HasSession.mono (hG : s.Grows s') {deviceKey : Key} (h : s.HasSession m deviceKey) :
    s'.HasSession m deviceKey := by
  obtain ⟨f, hf, hfm, msg, hm, hkey⟩ := h
  obtain ⟨msg', hm', hkey'⟩ := hG.messages m msg hm
  exact ⟨f, hG.forced f hf, hfm, msg', hm', hkey'.trans hkey⟩

/-- What the records go by after a step in which no call moves and nothing is noted. -/
theorem Credited.of_grows (hC : s.Credited ownKey) (hG : s.Grows s')
    (hcalls : s'.olm.calls = s.olm.calls) (hof : s'.messageOf = s.messageOf)
    (hrejected : s'.rejected = s.rejected)
    (hlast : s'.lastNewSessionForced = s.lastNewSessionForced)
    (encrypting : ∀ k msg, s'.messages k = some msg → msg.phase = .encrypting →
      s.messages k = some msg)
    (fixed : ∀ p ∈ s'.problems, p ∈ s.problems ∨ (p.fixed = true →
      s.HasSession p.message p.deviceKey)) : s'.Credited ownKey where
  calls c k hc := by
    rw [hof] at hc
    obtain ⟨call, t, msg, hcall, hF, hk, hdone⟩ := hC.calls c k hc
    obtain ⟨msg', hk', hkey⟩ := hG.messages k msg hk
    refine ⟨call, t, msg', hcalls ▸ hcall, hF, hk', fun hd hr => ?_⟩
    rw [hkey]
    exact (hdone hd (hrejected ▸ hr)).mono hG
  noted sender deviceKey l hl := (hC.noted sender deviceKey l (hlast ▸ hl)).mono hG
  encrypting k msg hk hphase :=
    (hC.encrypting k msg (encrypting k msg hk hphase) hphase).mono hG
  fixed p hp hfixed := by
    rcases fixed p hp with hold | hnew
    · exact (hC.fixed p hold hfixed).mono hG
    · exact (hnew hfixed).mono hG

theorem grows_setMessage {msg' : BadEncrypted User Key}
    (hm : ∀ msg, s.messages m = some msg → msg.deviceKey = msg'.deviceKey)
    (hforced : s'.forced = s.forced)
    (hmessages : s'.messages = (s.setMessage m msg').messages) : s.Grows s' where
  forced f hf := hforced ▸ hf
  messages k msg hk := by
    rw [hmessages, messages_setMessage]
    split
    next hkm => exact ⟨msg', rfl, (hm msg (hkm ▸ hk)).symm⟩
    next => exact ⟨msg, hk, rfl⟩

/-- The handling of a message ends, with a record or without. -/
theorem Credited.settle (hC : s.Credited ownKey) (hm : s.messages m = some msg)
    (hs' : s' = s.setMessage m { msg with phase := .settled } ∨ ∃ fixed,
      s' = (s.setMessage m { msg with phase := .settled }).recordSessionProblem
        msg.deviceKey fixed m ∧ (fixed = true → msg.phase = .encrypting)) :
    s'.Credited ownKey := by
  have hG : ∀ {s' : WedgedSessions User DeviceId Key}, s'.forced = s.forced →
      s'.messages = (s.setMessage m { msg with phase := .settled }).messages → s.Grows s' :=
    grows_setMessage fun msg₀ hm₀ => by rw [Option.some.inj (hm₀.symm.trans hm)]
  have hold : ∀ k msg', (s.setMessage m { msg with phase := .settled }).messages k = some msg' →
      msg'.phase = .encrypting → s.messages k = some msg' := by
    intro k msg' hk hphase
    rw [messages_setMessage] at hk
    split at hk
    · obtain rfl := Option.some.inj hk
      exact absurd hphase (by simp)
    · exact hk
  rcases hs' with rfl | ⟨fixed, rfl, hfixed⟩
  · exact hC.of_grows (hG rfl rfl) rfl rfl rfl rfl hold fun p hp => .inl hp
  · refine hC.of_grows (hG rfl rfl) rfl rfl rfl rfl hold fun p hp => ?_
    rcases List.mem_append.1 hp with hp | hp
    · exact .inl hp
    · obtain rfl := List.mem_singleton.1 hp
      exact .inr fun hf => hC.encrypting m msg hm (hfixed hf)

/-- A new message, which no call has been made for. -/
theorem Credited.newMessage (hC : s.Credited ownKey) (hI : s.Inv) (sender : User) (deviceKey : Key)
    {phase : BadEncryptedPhase} (hphase : phase ≠ .encrypting) :
    ({ s with nextMessage := s.nextMessage + 1 }.setMessage s.nextMessage
      ⟨sender, deviceKey, phase, none⟩ : WedgedSessions User DeviceId Key).Credited ownKey := by
  refine hC.of_grows (grows_setMessage ?_ rfl rfl) rfl rfl rfl rfl ?_ fun p hp => .inl hp
  · intro msg hm
    exact absurd (hI.numbered _ msg hm) (Nat.lt_irrefl _)
  · intro k msg hk henc
    rw [messages_setMessage] at hk
    split at hk
    · obtain rfl := Option.some.inj hk
      exact absurd henc hphase
    · exact hk

theorem Credited.ensureSession (hC : s.Credited ownKey)
    (hm : s.messages m = some msg) (device : DeviceId × Key) (hdevice : device.2 ≠ ownKey) :
    (s.ensureSession m msg device).Credited ownKey := by
  have hG : s.Grows (s.ensureSession m msg device) := by
    refine grows_setMessage (fun msg₀ hm₀ => ?_) rfl rfl
    rw [Option.some.inj (hm₀.symm.trans hm)]
  refine ⟨?_, fun sender deviceKey l hl => (hC.noted sender deviceKey l hl).mono hG, ?_,
    fun p hp hfixed => (hC.fixed p hp hfixed).mono hG⟩
  · intro c k hc
    change Function.update s.messageOf s.olm.nextCall (some m) c = _ at hc
    change ∃ call t msg', Function.update s.olm.calls s.olm.nextCall _ c = some call ∧
      call.Forcing ownKey t ∧ (s.setMessage m _).messages k = some msg' ∧ _
    rw [Function.update_apply] at hc
    split at hc
    next hcn =>
      obtain rfl := Option.some.inj hc
      rw [hcn, Function.update_self, messages_setMessage, if_pos rfl]
      refine ⟨_, ⟨msg.sender, device.1, device.2⟩, _, rfl, ⟨rfl, hdevice, rfl, .inl rfl⟩, rfl, ?_⟩
      rintro (h | h) <;> exact nomatch h
    next hcn =>
      obtain ⟨call, t, msg₀, hcall, hF, hk, hdone⟩ := hC.calls c k hc
      obtain ⟨msg', hk', hkey⟩ := hG.messages k msg₀ hk
      refine ⟨call, t, msg', (Function.update_of_ne hcn _ _).trans hcall, hF, hk', fun hd hr => ?_⟩
      rw [hkey]
      exact (hdone hd hr).mono hG
  · intro k msg' hk hphase
    change (s.setMessage m _).messages k = _ at hk
    rw [messages_setMessage] at hk
    split at hk
    · obtain rfl := Option.some.inj hk
      exact absurd hphase (by simp)
    · exact (hC.encrypting k msg' hk hphase).mono hG

variable [DecidableEq User] [DecidableEq Key]

/-- The time is noted of a session that has been created. -/
theorem Credited.sessionEnsured (hC : s.Credited ownKey) (hI : s.Inv)
    (h : s.sessionEnsured m = some s') : s'.Credited ownKey := by
  obtain ⟨msg, hm, h⟩ := Option.bind_eq_some_iff.1 h
  split at h
  next c hphase =>
    split at h
    next hreturned =>
      obtain ⟨call, t, msg₀, hcall, -, hm₀, hdone⟩ :=
        hC.calls c m (hI.ensuring m msg c hm hphase)
      obtain rfl := Option.some.inj (hm.symm.trans hm₀)
      have hhas : s.HasSession m msg.deviceKey := by
        simp only [returned, hcall, Option.map_some] at hreturned
        split at hreturned
        next hs => exact hdone (.inr (Option.some.inj hs)) (by simpa using hreturned)
        next => exact absurd hreturned (by simp)
      have hG : s.Grows s' := by
        obtain rfl := Option.some.inj h
        refine grows_setMessage (fun msg₀ hm₀ => ?_) rfl rfl
        rw [Option.some.inj (hm₀.symm.trans hm)]
      obtain rfl := Option.some.inj h
      refine ⟨?_, ?_, ?_, fun p hp hfixed => (hC.fixed p hp hfixed).mono hG⟩
      · intro c' k hc
        obtain ⟨call', t', msg₀, hcall', hF, hk, hdone'⟩ := hC.calls c' k hc
        obtain ⟨msg', hk', hkey⟩ := hG.messages k msg₀ hk
        refine ⟨call', t', msg', hcall', hF, hk', fun hd hr => ?_⟩
        rw [hkey]
        exact (hdone' hd hr).mono hG
      · intro sender deviceKey l hl
        change Function.update s.lastNewSessionForced msg.sender _ sender deviceKey = some l at hl
        rw [Function.update_apply] at hl
        split at hl
        · rw [Function.update_apply] at hl
          split at hl
          next hkey =>
            obtain rfl := Option.some.inj hl
            exact hkey ▸ hhas.mono hG
          next hsender _ => exact (hC.noted _ deviceKey l hl).mono hG
        · exact (hC.noted sender deviceKey l hl).mono hG
      · intro k msg' hk henc
        change (s.setMessage m _).messages k = _ at hk
        rw [messages_setMessage] at hk
        split at hk
        next hkm =>
          obtain rfl := Option.some.inj hk
          exact hkm ▸ hhas.mono hG
        next => exact (hC.encrypting k msg' hk henc).mono hG
    next => exact absurd h (by simp)
  · exact absurd h (by simp)

variable [DecidableEq DeviceId]

/-- A session that is started for a message is created for it. -/
theorem exists_mem_created {c i : ℕ} {sid : String} {olm : OlmSessions User DeviceId Key}
    (hc : s.messageOf c = some m)
    (h : olmSessionsStep ownKey s.olm (.sessionStarted c i (some sid) :
      OlmSessionsEvent User DeviceId Key OneTimeKey) = some olm) :
    ∃ f ∈ s.created (.sessionStarted c i (some sid) :
      OlmSessionsEvent User DeviceId Key OneTimeKey), f.message = m := by
  obtain ⟨call, hcall, h⟩ := Option.bind_eq_some_iff.1 h
  split at h
  next pending hphase =>
    obtain ⟨t, ht, -⟩ := Option.map_eq_some_iff.1 h
    refine ⟨⟨m, t.key, s.now⟩, ?_, rfl⟩
    simp only [created, hc, hcall, Option.map_some, hphase, ht, Option.toList_some,
      List.map_singleton, List.mem_singleton]
  · exact absurd h (by simp)

theorem Credited.olmStep (hC : s.Credited ownKey) (hI : s.Inv)
    (hgets : GetsSessions ownKey s (.olm e)) (h : s.olmStep ownKey e = some s') :
    s'.Credited ownKey := by
  obtain ⟨olm, hstep, rfl⟩ := Option.map_eq_some_iff.1 h
  have hG : s.Grows { s with
      olm := olm
      rejected := fun c => s.rejected c || (s.olm.calls c).any fun call => call.throwsIn c e
      forced := s.forced ++ s.created e } :=
    ⟨fun f hf => List.mem_append_left _ hf, fun k msg hk => ⟨msg, hk, rfl⟩⟩
  refine ⟨?_, fun sender deviceKey l hl => (hC.noted sender deviceKey l hl).mono hG,
    fun k msg hk henc => (hC.encrypting k msg hk henc).mono hG,
    fun p hp hfixed => (hC.fixed p hp hfixed).mono hG⟩
  intro c k hc
  obtain ⟨call, t, msg, hcall, hF, hk, hdone⟩ := hC.calls c k hc
  have hkept : call.Done → (s.rejected c || (s.olm.calls c).any fun call =>
      call.throwsIn c e) = false → _ := fun hd hr =>
    (hdone hd (Bool.or_eq_false_iff.1 hr).1).mono hG
  obtain ⟨devices, force, failedServers, -, rfl⟩ | ⟨d, call₁, call₂, hmove⟩ :=
    OlmSessions.olmSessionsStep_moves hstep
  · exact ⟨call, t, msg, (Function.update_of_ne (hI.calls c call hcall).ne _ _).trans hcall, hF, hk,
      hkept⟩
  · by_cases hcd : c = d
    · subst hcd
      obtain rfl := Option.some.inj (hcall.symm.trans hmove.before)
      have hkeys : ∀ res, e = .keysClaimed c (some res) →
          (EnsureCall.oneTimeKeyFor res t).isSome := by
        rintro res rfl
        refine hgets (Option.isSome_iff_exists.2 ⟨k, hc⟩) call hcall t ?_
        rw [hF.devices]
        exact List.mem_singleton_self t
      obtain ⟨hF', hdone'⟩ := hmove.forces t hF hkeys
      refine ⟨call₂, t, msg, ?_, hF', hk, fun hd hr => ?_⟩
      · exact (congrFun hmove.calls c).trans (Function.update_self ..)
      · rcases hdone' hd with hd | hthrows | ⟨i, sid, rfl⟩
        · exact hkept hd hr
        · simp [hcall, hthrows] at hr
        · -- the session has just been created
          obtain ⟨sid, rfl⟩ := Option.isSome_iff_exists.1
            (hgets (Option.isSome_iff_exists.2 ⟨k, hc⟩))
          have hof : s.messageOf c = some k := hc
          obtain ⟨f, hf, rfl⟩ := exists_mem_created hof hstep
          exact ⟨f, List.mem_append_right _ hf, rfl, msg, hk, rfl⟩
    · refine ⟨call, t, msg, ?_, hF, hk, hkept⟩
      exact (congrFun hmove.calls c).trans ((Function.update_of_ne hcd _ _).trans hcall)

omit [DecidableEq User] [DecidableEq DeviceId] [DecidableEq Key] in
theorem Credited.onToDeviceBadEncrypted (hC : s.Credited ownKey) (hI : s.Inv)
    (sender : Option User) (deviceKey : Option Key) (device : Option (DeviceId × Key))
    (hdevice : ∀ d, device = some d → d.2 ≠ ownKey) :
    (s.onToDeviceBadEncrypted sender deviceKey device).Credited ownKey := by
  unfold WedgedSessions.onToDeviceBadEncrypted
  split
  next sender deviceKey =>
    split
    next hrecent =>
      -- there is an entry, for the clock is past the first interval
      have hlast : ∃ l, s.lastNewSessionForced sender deviceKey = some l := by
        rw [← Option.isSome_iff_exists, Option.isSome_iff_ne_none]
        intro hnone
        have := hI.clock
        rw [forcedRecently, hnone, decide_eq_true_eq] at hrecent
        exact absurd this (by simpa using hrecent)
      obtain ⟨l, hl⟩ := hlast
      have hnew := hC.newMessage hI sender deviceKey (by simp : BadEncryptedPhase.settled ≠ _)
      refine hnew.of_grows ⟨fun f hf => hf, fun k msg hk => ⟨msg, hk, rfl⟩⟩ rfl rfl rfl rfl
        (fun k msg hk _ => hk) fun p hp => ?_
      rcases List.mem_append.1 hp with hp | hp
      · exact .inl hp
      · obtain rfl := List.mem_singleton.1 hp
        right
        intro _
        rw [hl]
        exact hnew.noted sender deviceKey l hl
    next hrecent =>
      have hnew := hC.newMessage hI sender deviceKey (by simp :
        BadEncryptedPhase.downloadingKeys ≠ _)
      cases device with
      | none => exact hnew
      | some device =>
        have := hnew.ensureSession ((messages_setMessage _ _ _ _).trans (if_pos rfl)) device
          (hdevice device rfl)
        simpa only [WedgedSessions.ensureSession, setMessage, Function.update_idem] using this
  next => exact hC

theorem Credited.step {e : WedgedSessionsEvent User DeviceId Key OneTimeKey}
    (hC : s.Credited ownKey) (hI : s.Inv) (hgets : GetsSessions ownKey s e)
    (h : wedgedSessionsStep ownKey s e = some s') : s'.Credited ownKey := by
  cases e with
  | tick ms =>
    obtain rfl := Option.some.inj h
    exact ⟨hC.calls, hC.noted, hC.encrypting, hC.fixed⟩
  | onToDeviceBadEncrypted sender deviceKey device =>
    obtain rfl := Option.some.inj h
    exact hC.onToDeviceBadEncrypted hI sender deviceKey device hgets
  | keysDownloaded m device =>
    obtain ⟨msg, hm, h⟩ := Option.bind_eq_some_iff.1 h
    split at h
    · exact hC.settle hm (.inr ⟨false, (Option.some.inj h).symm, nofun⟩)
    next device _ _ =>
      obtain rfl := Option.some.inj h
      exact hC.ensureSession hm device (hgets device rfl)
    · exact absurd h (by simp)
  | downloadFails m =>
    obtain ⟨msg, hm, h⟩ := Option.bind_eq_some_iff.1 h
    split at h
    · exact hC.settle hm (.inl (Option.some.inj h).symm)
    · exact absurd h (by simp)
  | olm e => exact hC.olmStep hI hgets h
  | sessionEnsured m => exact hC.sessionEnsured hI h
  | messageEncrypted m =>
    obtain ⟨msg, hm, h⟩ := Option.bind_eq_some_iff.1 h
    split at h
    next hphase => exact hC.settle hm (.inr ⟨true, (Option.some.inj h).symm, fun _ => hphase⟩)
    · exact absurd h (by simp)
  | encryptFails m =>
    obtain ⟨msg, hm, h⟩ := Option.bind_eq_some_iff.1 h
    split at h
    · exact hC.settle hm (.inl (Option.some.inj h).symm)
    · exact absurd h (by simp)

omit [DecidableEq User] [DecidableEq Key] [DecidableEq DeviceId] in
theorem Credited.new (ownKey : Key) (start : ℕ) :
    (WedgedSessions.new start : WedgedSessions User DeviceId Key).Credited ownKey where
  calls _ _ h := nomatch h
  noted _ _ _ h := nomatch h
  encrypting _ _ h := nomatch h
  fixed _ hp := absurd hp List.not_mem_nil

end WedgedSessions

open WedgedSessions in
/-- **When sessions are forced in turn, and records say `fixed` rightly.** In every run, forced
sessions with one device are an interval apart exactly as long as a session is created only where
everything forced for the device in the last interval had been noted, for the same sender
and sender key, when the message came. Records say `fixed` rightly as long as every call
made for a message gets the session it is made for. -/
theorem newSessionForced_iff [DecidableEq User] [DecidableEq DeviceId] [DecidableEq Key]
    {ownKey : Key} {start : ℕ}
    {tr : List (WedgedSessions User DeviceId Key ×
      WedgedSessionsEvent User DeviceId Key OneTimeKey)}
    {s : WedgedSessions User DeviceId Key}
    (h : (wedgedSessionsSystem ownKey start).Trace tr s) :
    (System.HoldsAlong Apart tr s ↔ System.Meets ForcesInTurn tr) ∧
      (System.Meets (GetsSessions ownKey) tr → System.HoldsAlong FixedRightly tr s) := by
  constructor
  · refine h.holdsAlong_iff (Inv.new start) (fun s e s' hI hse => hI.step hse) List.Pairwise.nil ?_
    exact fun s e s' hI hA hse => apart_step hI hA hse
  · intro hgets
    have hinit : (WedgedSessions.new start : WedgedSessions User DeviceId Key).Inv ∧
        (WedgedSessions.new start : WedgedSessions User DeviceId Key).Credited ownKey :=
      ⟨Inv.new start, Credited.new ownKey start⟩
    refine h.holdsAlong_under (I := fun s => s.Inv ∧ s.Credited ownKey) hinit ?_
      (fun s hs => hs.2.fixed) hgets
    exact fun s e s' hs hgets hse => ⟨hs.1.step hse, hs.2.step hs.1 hgets hse⟩

end Runs

/-! ## Runs that fail, and one that does not -/

/-- Messages of numbered users, sender keys and devices. -/
abbrev numberedWedgedSessions : System (WedgedSessions ℕ ℕ ℕ) (WedgedSessionsEvent ℕ ℕ ℕ ℕ) :=
  wedgedSessionsSystem 0 0

/-- The response to a claim that has a one-time key for every device. -/
def keyForAll : ClaimResponse ℕ ℕ ℕ :=
  ⟨none, some fun _ => some fun _ => some
    (JsObject.empty.set "signed_curve25519:AAAAHQ" (some 7))⟩

/-- A message whose device gets a new session. -/
def oneMessage : List (WedgedSessionsEvent ℕ ℕ ℕ ℕ) :=
  [.onToDeviceBadEncrypted (some 1) (some 5) (some (2, 5)), .olm (.nextDevice 0),
    .olm (.sessionsRead 0 [⟨none, "wedged"⟩]), .olm (.nextDevice 0),
    .olm (.keysClaimed 0 (some keyForAll)), .olm (.sessionStarted 0 0 (some "new")),
    .olm (.allStarted 0), .sessionEnsured 0, .messageEncrypted 0]

theorem oneMessage_runs : (numberedWedgedSessions.run oneMessage).isSome := by decide

theorem newSessionForced_oneMessage :
    System.HoldsAlong WedgedSessions.Apart (numberedWedgedSessions.steps oneMessage)
        ((numberedWedgedSessions.run oneMessage).get oneMessage_runs) ∧
      System.HoldsAlong WedgedSessions.FixedRightly (numberedWedgedSessions.steps oneMessage)
        ((numberedWedgedSessions.run oneMessage).get oneMessage_runs) := by
  have h := newSessionForced_iff (System.trace_get oneMessage_runs)
  refine ⟨h.1.2 ?_, h.2 ?_⟩
  · show ∀ q ∈ [_, _, _, _, _, _, _, _, _], _
    simp only [List.forall_mem_cons]
    refine ⟨trivial, ?_, ?_, ?_, ?_, ?_, ?_, trivial, trivial, by simp⟩
    -- nothing has been forced before
    iterate 5 exact fun f hf g hg => absurd hg List.not_mem_nil
    exact fun f hf => absurd hf List.not_mem_nil
  · show ∀ q ∈ [_, _, _, _, _, _, _, _, _], _
    simp only [List.forall_mem_cons]
    refine ⟨?_, trivial, trivial, trivial, ?_, fun _ => rfl, trivial, trivial, trivial, by simp⟩
    · rintro d hd
      obtain rfl := Option.some.inj hd
      decide
    · exact fun _ call _ t _ => rfl

/-- Two messages from one device, the second of which comes while the session of the first is
being created. -/
def overlappingMessages : List (WedgedSessionsEvent ℕ ℕ ℕ ℕ) :=
  [.onToDeviceBadEncrypted (some 1) (some 5) (some (2, 5)),
    .onToDeviceBadEncrypted (some 1) (some 5) (some (2, 5)),
    .olm (.nextDevice 0), .olm (.sessionsRead 0 [⟨none, "wedged"⟩]), .olm (.nextDevice 0),
    .olm (.nextDevice 1), .olm (.sessionsRead 1 [⟨none, "wedged"⟩]), .olm (.nextDevice 1),
    .olm (.keysClaimed 0 (some keyForAll)), .olm (.sessionStarted 0 0 (some "new")),
    .olm (.keysClaimed 1 (some keyForAll)), .olm (.sessionStarted 1 0 (some "newer"))]

theorem overlappingMessages_runs : (numberedWedgedSessions.run overlappingMessages).isSome := by
  decide

/-- A message from a device that has no one-time keys left. -/
def noKeysLeft : List (WedgedSessionsEvent ℕ ℕ ℕ ℕ) :=
  [.onToDeviceBadEncrypted (some 1) (some 5) (some (2, 5)), .olm (.nextDevice 0),
    .olm (.sessionsRead 0 [⟨none, "wedged"⟩]), .olm (.nextDevice 0),
    .olm (.keysClaimed 0 (some ⟨none, none⟩)), .olm (.allStarted 0), .sessionEnsured 0,
    .messageEncrypted 0]

theorem noKeysLeft_runs : (numberedWedgedSessions.run noKeysLeft).isSome := by decide

/-- Overlapping messages force two sessions at once, and a session that could not be created
is recorded as fixed. -/
theorem newSessionForced_fails :
    (¬ ∀ s, numberedWedgedSessions.Reachable s → s.Apart) ∧
      ¬ ∀ s, numberedWedgedSessions.Reachable s → s.FixedRightly := by
  constructor
  · intro h
    have hapart := h _ (System.reachable_get overlappingMessages_runs)
    have := List.rel_of_pairwise_cons hapart (List.mem_singleton_self _) rfl
    exact absurd this (by decide)
  · intro h
    have hfixed := h _ (System.reachable_get noKeysLeft_runs)
    obtain ⟨f, hf, -⟩ := hfixed _ (List.mem_singleton_self _) rfl
    exact absurd hf List.not_mem_nil

end MatrixSdk.Crypto
