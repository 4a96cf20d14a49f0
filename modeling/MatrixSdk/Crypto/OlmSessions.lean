/-
`ensureOlmSessionsForDevices` (`src/crypto/olmlib.js`) with the session lookup of
`src/crypto/OlmDevice.js`, for any number of concurrent calls.

A call goes through its devices one at a time. For each it either marks the
identity key in `_sessionsInProgress` with a promise of its own, or waits for the
promise that is there, and then looks for a session in the store. Only after
all of them it claims one-time keys and starts the missing sessions, and only
then are its promises resolved.

A turn of the loop is a step of its own here, although in the source it follows
the end of the last lookup at once; this only adds interleavings. Calls and
promises are numbered in the order they are made.

Two things can go wrong. Calls that hold entries and wait for each other's
never get to claim keys, and calls that throw, or skip a device, leave entries
behind. [`sessionsInProgress_sound`] says that nothing else goes wrong, and
[`sessionsInProgress_sound_of_ordered`] that the first cannot happen to calls that
visit the devices in one common order.
-/
import MatrixSdk.Lib.JsObject
import MatrixSdk.Lib.System
import MatrixSdk.Lib.WaitsFor

set_option autoImplicit false

namespace MatrixSdk.Crypto

open MatrixSdk.Lib Relation

/-! ## Session lookup -/

/-- What `getSessionInfoForDevice` returns of a session. -/
structure SessionInfo where
  lastReceivedMessageTs : Option ℕ
  sessionId : String

/-- Whether a session is preferred to the best one so far. -/
def SessionInfo.betterThan (this best : SessionInfo) : Bool :=
  let thisLastReceived := this.lastReceivedMessageTs.getD 0
  let bestLastReceived := best.lastReceivedMessageTs.getD 0
  thisLastReceived > bestLastReceived ||
    (thisLastReceived == bestLastReceived && this.sessionId < best.sessionId)

/-- `getSessionIdForDevice`, once `getSessionInfoForDevice` has returned. -/
def getSessionIdForDevice : List SessionInfo → Option String
  | [] => none
  | info :: infos =>
    some (infos.foldl (fun best this => if this.betterThan best then this else best) info).sessionId

/-! ## State -/

/-- A device to ensure a session for, with the user it is listed under and its
identity key. -/
structure Target (User DeviceId Key : Type) where
  userId : User
  deviceId : DeviceId
  key : Key

/-- The response to a claim, `none` standing for what is absent; `failures` can be
present and `null`. -/
structure ClaimResponse (User DeviceId OneTimeKey : Type) where
  failures : Option (Option (List String))
  oneTimeKeys : Option (User → Option (DeviceId → Option (JsObject String (Option OneTimeKey))))

/-- Where a call is. -/
inductive EnsurePhase (User DeviceId Key : Type)
  /-- In the loop over the devices, those of `rest` to come. -/
  | marking (rest : List (Target User DeviceId Key))
  /-- In `getSessionInfoForDevice`, waiting for another call's promise. -/
  | waiting (t : Target User DeviceId Key) (promise : ℕ) (rest : List (Target User DeviceId Key))
  /-- In `getSessionInfoForDevice`, reading the store. -/
  | reading (t : Target User DeviceId Key) (rest : List (Target User DeviceId Key))
  /-- One-time keys have been asked for. -/
  | claiming
  /-- Sessions are being started, with the devices in `pending`. -/
  | starting (pending : List (Target User DeviceId Key))
  /-- The promise of the call has been resolved or rejected. -/
  | settled

/-- The arguments and variables of a call. `failedServers` says whether the array was
passed. -/
structure EnsureCall (User DeviceId Key : Type) where
  devices : List (Target User DeviceId Key)
  force : Bool
  failedServers : Bool
  resolveSession : JsObject Key ℕ
  result : JsObject (User × DeviceId) (Option String)
  devicesWithoutSession : List (User × DeviceId)
  phase : EnsurePhase User DeviceId Key

/-- `_sessionsInProgress`, the calls, and of every promise who made it and whether it
has been resolved. -/
structure OlmSessions (User DeviceId Key : Type) where
  sessionsInProgress : JsObject Key ℕ
  nextPromise : ℕ
  owner : ℕ → ℕ
  resolved : ℕ → Bool
  nextCall : ℕ
  calls : ℕ → Option (EnsureCall User DeviceId Key)

inductive OlmSessionsEvent (User DeviceId Key OneTimeKey : Type)
  | ensureOlmSessionsForDevices (devices : List (Target User DeviceId Key))
      (force failedServers : Bool)
  /-- The next turn of a call's loop, or its end. -/
  | nextDevice (c : ℕ)
  /-- The promise a call waits for has been resolved. -/
  | promiseResolved (c : ℕ)
  | sessionsRead (c : ℕ) (sessions : List SessionInfo)
  | storeFails (c : ℕ)
  /-- The response to a claim; `none` for `null`. -/
  | keysClaimed (c : ℕ) (res : Option (ClaimResponse User DeviceId OneTimeKey))
  | claimFails (c : ℕ)
  /-- A session has been started, or could not be, with the `i`-th pending device. -/
  | sessionStarted (c i : ℕ) (sid : Option String)
  /-- All sessions have been started. -/
  | allStarted (c : ℕ)

section Step

variable {User DeviceId Key OneTimeKey : Type} [DecidableEq User] [DecidableEq DeviceId]
  [DecidableEq Key]

namespace EnsureCall

/-- The one-time key a response has for a device: the last one of the right algorithm. -/
def oneTimeKeyFor (res : ClaimResponse User DeviceId OneTimeKey)
    (t : Target User DeviceId Key) : Option OneTimeKey :=
  let deviceRes := ((res.oneTimeKeys.bind fun users => users t.userId).bind fun devices =>
    devices t.deviceId).getD .empty
  deviceRes.keys.foldl (fun oneTimeKey keyId =>
    if "signed_curve25519:".toList.isPrefixOf keyId.toList then (deviceRes.get keyId).join
    else oneTimeKey) none

/-- Whether the code between the claim and the loop over the response throws. -/
def claimThrows (call : EnsureCall User DeviceId Key) :
    Option (ClaimResponse User DeviceId OneTimeKey) → Bool
  | none => true
  | some res => call.failedServers && res.failures == some none

/-- The loop over the response does not skip the device. `ownKey` is `deviceCurve25519Key`. -/
def needsSession (ownKey : Key) (call : EnsureCall User DeviceId Key)
    (t : Target User DeviceId Key) : Bool :=
  t.key ≠ ownKey && (call.force || ((call.result.get (t.userId, t.deviceId)).join).isNone)

end EnsureCall

namespace OlmSessions

/-- No call has been made yet. -/
def new : OlmSessions User DeviceId Key where
  sessionsInProgress := .empty
  nextPromise := 0
  owner _ := 0
  resolved _ := false
  nextCall := 0
  calls _ := none

/-- Call the resolvers that `call` has for the keys in `ks`: each resolves its promise
and deletes what `_sessionsInProgress` has under its key. -/
def resolveKeys (s : OlmSessions User DeviceId Key) (call : EnsureCall User DeviceId Key)
    (ks : List Key) : OlmSessions User DeviceId Key :=
  { s with
    sessionsInProgress := s.sessionsInProgress.filter fun k =>
      !(ks.contains k && (call.resolveSession.get k).isSome)
    resolved := fun p => s.resolved p || ks.any fun k => call.resolveSession.get k == some p }

def setCall (s : OlmSessions User DeviceId Key) (c : ℕ) (call : EnsureCall User DeviceId Key) :
    OlmSessions User DeviceId Key :=
  { s with calls := Function.update s.calls c (some call) }

/-- A new call, up to its loop. -/
def ensureOlmSessionsForDevices (s : OlmSessions User DeviceId Key)
    (devices : List (Target User DeviceId Key)) (force failedServers : Bool) :
    OlmSessions User DeviceId Key :=
  { s with
    nextCall := s.nextCall + 1
    calls := Function.update s.calls s.nextCall (some
      ⟨devices, force, failedServers, .empty, .empty, [], .marking devices⟩) }

/-- Mark the key of `t` as in progress, and look for a session without waiting. -/
def mark (s : OlmSessions User DeviceId Key) (c : ℕ) (call : EnsureCall User DeviceId Key)
    (t : Target User DeviceId Key) (rest : List (Target User DeviceId Key)) :
    OlmSessions User DeviceId Key :=
  { s with
    sessionsInProgress := s.sessionsInProgress.set t.key s.nextPromise
    nextPromise := s.nextPromise + 1
    owner := Function.update s.owner s.nextPromise c
    calls := Function.update s.calls c (some { call with
      resolveSession := call.resolveSession.set t.key s.nextPromise
      phase := .reading t rest }) }

/-- A turn of the loop up to its `await`, or what follows the loop. -/
def nextDevice (ownKey : Key) (s : OlmSessions User DeviceId Key) (c : ℕ) :
    Option (OlmSessions User DeviceId Key) :=
  (s.calls c).bind fun call =>
    match call.phase with
    | .marking [] => some (s.setCall c { call with
        phase := if call.devicesWithoutSession = [] then .settled else .claiming })
    | .marking (t :: rest) =>
      if t.key = ownKey then some (s.setCall c { call with
        result := call.result.set (t.userId, t.deviceId) none
        phase := .marking rest })
      else match s.sessionsInProgress.get t.key with
        | none => some (s.mark c call t rest)
        | some p => some (s.setCall c { call with
            phase := if (call.resolveSession.get t.key).isSome then .reading t rest
              else .waiting t p rest })
    | _ => none

def promiseResolved (s : OlmSessions User DeviceId Key) (c : ℕ) :
    Option (OlmSessions User DeviceId Key) :=
  (s.calls c).bind fun call =>
    match call.phase with
    | .waiting t p rest =>
      if s.resolved p then some (s.setCall c { call with phase := .reading t rest }) else none
    | _ => none

/-- The rest of the loop's turn. -/
def sessionsRead (s : OlmSessions User DeviceId Key) (c : ℕ) (sessions : List SessionInfo) :
    Option (OlmSessions User DeviceId Key) :=
  (s.calls c).bind fun call =>
    match call.phase with
    | .reading t rest =>
      let sessionId := getSessionIdForDevice sessions
      let unmarked := if sessionId.isSome then [t.key] else []
      some ((s.resolveKeys call unmarked).setCall c { call with
        resolveSession := call.resolveSession.filter fun k => k ∉ unmarked
        devicesWithoutSession :=
          if sessionId.isNone || call.force then
            call.devicesWithoutSession ++ [(t.userId, t.deviceId)]
          else call.devicesWithoutSession
        result := call.result.set (t.userId, t.deviceId) sessionId
        phase := .marking rest })
    | _ => none

/-- The lookup throws, and so does the call. -/
def storeFails (s : OlmSessions User DeviceId Key) (c : ℕ) :
    Option (OlmSessions User DeviceId Key) :=
  (s.calls c).bind fun call =>
    match call.phase with
    | .reading _ _ => some (s.setCall c { call with phase := .settled })
    | _ => none

/-- The loop over the response, unless the code before it throws. -/
def keysClaimed (ownKey : Key) (s : OlmSessions User DeviceId Key) (c : ℕ)
    (res : Option (ClaimResponse User DeviceId OneTimeKey)) :
    Option (OlmSessions User DeviceId Key) :=
  (s.calls c).bind fun call =>
    match call.phase, res with
    | .claiming, some response =>
      if call.claimThrows res then some (s.setCall c { call with phase := .settled })
      else
        let todo := call.devices.filter (call.needsSession ownKey)
        let hasKey := fun t => (EnsureCall.oneTimeKeyFor response t).isSome
        -- "No one-time keys": there is nothing to start
        some ((s.resolveKeys call ((todo.filter fun t => !hasKey t).map Target.key)).setCall c
          { call with phase := .starting (todo.filter hasKey) })
    | .claiming, none => some (s.setCall c { call with phase := .settled })
    | _, _ => none

/-- The claim is rejected: everything in progress is resolved, and the call throws. -/
def claimFails (s : OlmSessions User DeviceId Key) (c : ℕ) :
    Option (OlmSessions User DeviceId Key) :=
  (s.calls c).bind fun call =>
    match call.phase with
    | .claiming => some ((s.resolveKeys call call.resolveSession.keys).setCall c
        { call with phase := .settled })
    | _ => none

/-- The callback of `_verifyKeyAndStartSession`, which does not throw. -/
def sessionStarted (s : OlmSessions User DeviceId Key) (c i : ℕ) (sid : Option String) :
    Option (OlmSessions User DeviceId Key) :=
  (s.calls c).bind fun call =>
    match call.phase with
    | .starting pending => pending[i]?.map fun t =>
      (s.resolveKeys call [t.key]).setCall c { call with
        result := call.result.set (t.userId, t.deviceId) sid
        phase := .starting (pending.eraseIdx i) }
    | _ => none

def allStarted (s : OlmSessions User DeviceId Key) (c : ℕ) :
    Option (OlmSessions User DeviceId Key) :=
  (s.calls c).bind fun call =>
    match call.phase with
    | .starting [] => some (s.setCall c { call with phase := .settled })
    | _ => none

end OlmSessions

/-- One synchronous stretch of code. -/
def olmSessionsStep (ownKey : Key) (s : OlmSessions User DeviceId Key) :
    OlmSessionsEvent User DeviceId Key OneTimeKey → Option (OlmSessions User DeviceId Key)
  | .ensureOlmSessionsForDevices devices force failedServers =>
    some (s.ensureOlmSessionsForDevices devices force failedServers)
  | .nextDevice c => s.nextDevice ownKey c
  | .promiseResolved c => s.promiseResolved c
  | .sessionsRead c sessions => s.sessionsRead c sessions
  | .storeFails c => s.storeFails c
  | .keysClaimed c res => s.keysClaimed ownKey c res
  | .claimFails c => s.claimFails c
  | .sessionStarted c i sid => s.sessionStarted c i sid
  | .allStarted c => s.allStarted c

/-- All runs in which the own device has the identity key `ownKey`. -/
def olmSessionsSystem (ownKey : Key) : System (OlmSessions User DeviceId Key)
    (OlmSessionsEvent User DeviceId Key OneTimeKey) where
  init := .new
  step := olmSessionsStep ownKey

end Step

/-! ## What can go wrong, and the steps at which it does -/

section Sound

variable {User DeviceId Key OneTimeKey : Type} [DecidableEq User] [DecidableEq DeviceId]
  [DecidableEq Key]

namespace OlmSessions

omit [DecidableEq User] [DecidableEq DeviceId] [DecidableEq Key]

/-- The call `a` waits for a promise that the call `b` has made and not resolved. -/
def waitsOn (s : OlmSessions User DeviceId Key) (a b : ℕ) : Prop :=
  ∃ call t p rest, s.calls a = some call ∧ call.phase = .waiting t p rest ∧
    s.resolved p = false ∧ s.owner p = b

/-- Nothing in `_sessionsInProgress` was put there by `c`. -/
def NoEntryOf (s : OlmSessions User DeviceId Key) (c : ℕ) : Prop :=
  ∀ k p, s.sessionsInProgress.get k = some p → s.owner p ≠ c

/-- No calls wait for each other, and a settled call has left nothing behind. -/
structure Sound (s : OlmSessions User DeviceId Key) : Prop where
  noDeadlock : ∀ calls : Finset ℕ, ¬ MutuallyWaiting s.waitsOn calls
  noLeak : ∀ c call, s.calls c = some call → call.phase = .settled → s.NoEntryOf c

/-- In its next turn `c` begins to wait for a promise made by `o`. -/
def BeginsToWait (ownKey : Key) (s : OlmSessions User DeviceId Key) (c o : ℕ) : Prop :=
  ∃ call t rest p, s.calls c = some call ∧ call.phase = .marking (t :: rest) ∧ t.key ≠ ownKey ∧
    s.sessionsInProgress.get t.key = some p ∧ call.resolveSession.get t.key = none ∧ s.owner p = o

end OlmSessions

/-- A call begins to wait only for calls that do not wait, directly or through
others, for the call itself. -/
def ClosesNoCycle (ownKey : Key) (s : OlmSessions User DeviceId Key) :
    OlmSessionsEvent User DeviceId Key OneTimeKey → Prop
  | .nextDevice c => ∀ o, s.BeginsToWait ownKey c o → ¬ ReflTransGen s.waitsOn o c
  | _ => True

/-- A call throws, because of the store or of the response to its claim, only while it
has nothing in progress, and the loop over the response skips no device whose key
the call still has in progress. -/
def LeavesNothing (ownKey : Key) (s : OlmSessions User DeviceId Key) :
    OlmSessionsEvent User DeviceId Key OneTimeKey → Prop
  | .storeFails c => s.NoEntryOf c
  | .keysClaimed c res => ∀ call, s.calls c = some call →
    if call.claimThrows res then s.NoEntryOf c
    else ∀ k p, s.sessionsInProgress.get k = some p → s.owner p = c →
      ∃ t ∈ call.devices, t.key = k ∧ call.needsSession ownKey t
  | _ => True

/-! ## The shape of a step -/

/-- The devices a call has still to go through, with the one it waits for. -/
def EnsureCall.upcoming (call : EnsureCall User DeviceId Key) : List (Target User DeviceId Key) :=
  match call.phase with
  | .marking rest => rest
  | .waiting t _ rest => t :: rest
  | .reading _ rest => rest
  | _ => []

/-- The call is going to resolve what it has in progress under the key `k`. -/
def EnsureCall.Due (call : EnsureCall User DeviceId Key) (k : Key) : Prop :=
  match call.phase with
  | .marking _ => call.devicesWithoutSession ≠ []
  | .waiting _ _ _ => call.devicesWithoutSession ≠ []
  | .reading t _ => k = t.key ∨ call.devicesWithoutSession ≠ []
  | .claiming => True
  | .starting pending => ∃ t ∈ pending, t.key = k
  | .settled => False

namespace OlmSessions

/-- A step of the call `c` that makes no promise and begins no wait. -/
structure CallStep (s s' : OlmSessions User DeviceId Key) (c : ℕ)
    (call call' : EnsureCall User DeviceId Key) : Prop where
  before : s.calls c = some call
  calls : s'.calls = Function.update s.calls c (some call')
  nextCall : s'.nextCall = s.nextCall
  nextPromise : s'.nextPromise = s.nextPromise
  owner : s'.owner = s.owner
  entries : ∀ k p, s'.sessionsInProgress.get k = some p → s.sessionsInProgress.get k = some p
  resolved : ∀ p, s.resolved p = true → s'.resolved p = true
  noWait : ∀ t p rest, call'.phase ≠ .waiting t p rest
  upcoming : call'.upcoming.Sublist call.upcoming
  marked : ∀ k, (call'.resolveSession.get k).isSome → (call.resolveSession.get k).isSome

/-- What the call has in progress after the step is still going to be resolved. -/
def KeepsDue (s s' : OlmSessions User DeviceId Key) (c : ℕ)
    (call call' : EnsureCall User DeviceId Key) : Prop :=
  ∀ k p, s'.sessionsInProgress.get k = some p → s.owner p = c →
    call.resolveSession.get k = some p → call.Due k →
    call'.resolveSession.get k = some p ∧ call'.Due k

variable {s s' : OlmSessions User DeviceId Key} {c : ℕ} {call : EnsureCall User DeviceId Key}

section

omit [DecidableEq User] [DecidableEq DeviceId]

theorem get_resolveKeys (s : OlmSessions User DeviceId Key) (call : EnsureCall User DeviceId Key)
    (ks : List Key) (k : Key) :
    (s.resolveKeys call ks).sessionsInProgress.get k =
      if k ∈ ks ∧ (call.resolveSession.get k).isSome then none
      else s.sessionsInProgress.get k := by
  simp only [resolveKeys, JsObject.get_filter]
  by_cases hk : k ∈ ks <;> by_cases hr : (call.resolveSession.get k).isSome <;> simp [hk, hr]

/-- A key with a resolver is gone once the resolver has been called. -/
theorem not_mem_of_get_resolveKeys {ks : List Key} {k : Key} {p q : ℕ}
    (h : (s.resolveKeys call ks).sessionsInProgress.get k = some p)
    (hr : call.resolveSession.get k = some q) : k ∉ ks := by
  intro hk
  rw [get_resolveKeys, if_pos ⟨hk, by rw [hr]; rfl⟩] at h
  exact absurd h (by simp)

theorem callStep_resolveKeys (hcall : s.calls c = some call) (ks : List Key)
    {call' : EnsureCall User DeviceId Key} (hwait : ∀ t p rest, call'.phase ≠ .waiting t p rest)
    (hup : call'.upcoming.Sublist call.upcoming)
    (hmarked : ∀ k, (call'.resolveSession.get k).isSome → (call.resolveSession.get k).isSome) :
    s.CallStep ((s.resolveKeys call ks).setCall c call') c call call' where
  before := hcall
  calls := rfl
  nextCall := rfl
  nextPromise := rfl
  owner := rfl
  entries k p h := by
    change (s.resolveKeys call ks).sessionsInProgress.get k = some p at h
    rw [get_resolveKeys] at h
    split at h
    · exact absurd h (by simp)
    · exact h
  resolved p h := by simp [setCall, resolveKeys, h]
  noWait := hwait
  upcoming := hup
  marked := hmarked

end

omit [DecidableEq User] [DecidableEq DeviceId] [DecidableEq Key] in
/-- A step that only moves the call to another phase, or stores a result. -/
theorem callStep_setCall (hcall : s.calls c = some call)
    {call' : EnsureCall User DeviceId Key} (hwait : ∀ t p rest, call'.phase ≠ .waiting t p rest)
    (hup : call'.upcoming.Sublist call.upcoming)
    (hmarked : call'.resolveSession = call.resolveSession) :
    s.CallStep (s.setCall c call') c call call' :=
  ⟨hcall, rfl, rfl, rfl, rfl, fun _ _ h => h, fun _ h => h, hwait, hup, by simp [hmarked]⟩

end OlmSessions

/-- A step, up to what the calls are made of. -/
inductive OlmSessionsStep (ownKey : Key) (s : OlmSessions User DeviceId Key) :
    OlmSessionsEvent User DeviceId Key OneTimeKey → OlmSessions User DeviceId Key → Prop
  | newCall (devices : List (Target User DeviceId Key)) (force failedServers : Bool) :
      OlmSessionsStep ownKey s (.ensureOlmSessionsForDevices devices force failedServers)
        (s.ensureOlmSessionsForDevices devices force failedServers)
  | mark {c : ℕ} {call : EnsureCall User DeviceId Key} {t : Target User DeviceId Key}
      {rest : List (Target User DeviceId Key)} (hcall : s.calls c = some call)
      (hphase : call.phase = .marking (t :: rest)) :
      OlmSessionsStep ownKey s (.nextDevice c) (s.mark c call t rest)
  | wait {c : ℕ} {call : EnsureCall User DeviceId Key} {t : Target User DeviceId Key}
      {rest : List (Target User DeviceId Key)} {p : ℕ} (hcall : s.calls c = some call)
      (hphase : call.phase = .marking (t :: rest))
      (hentry : s.sessionsInProgress.get t.key = some p)
      (hbegins : s.BeginsToWait ownKey c (s.owner p)) :
      OlmSessionsStep ownKey s (.nextDevice c)
        (s.setCall c { call with phase := .waiting t p rest })
  | call {e : OlmSessionsEvent User DeviceId Key OneTimeKey}
      {s' : OlmSessions User DeviceId Key} {c : ℕ} {call call' : EnsureCall User DeviceId Key}
      (hstep : s.CallStep s' c call call')
      (hdue : LeavesNothing ownKey s e → s.KeepsDue s' c call call') :
      OlmSessionsStep ownKey s e s'

namespace OlmSessions

variable {ownKey : Key} {s s' : OlmSessions User DeviceId Key} {c : ℕ}

omit [DecidableEq DeviceId] [DecidableEq User] in
/-- The resolver of a key the call did not have to begin with is not called. -/
theorem keepsDue_of_due {call call' : EnsureCall User DeviceId Key} {ks : List Key}
    (hr : ∀ k, k ∉ ks → call'.resolveSession.get k = call.resolveSession.get k)
    (hdue : ∀ k, k ∉ ks → call.Due k → call'.Due k) :
    s.KeepsDue ((s.resolveKeys call ks).setCall c call') c call call' := by
  intro k p hp _ hk hd
  have hks := not_mem_of_get_resolveKeys hp hk
  exact ⟨(hr k hks).trans hk, hdue k hks hd⟩

theorem nextDevice_step (h : s.nextDevice ownKey c = some s') :
    OlmSessionsStep ownKey s
      (.nextDevice c : OlmSessionsEvent User DeviceId Key OneTimeKey) s' := by
  obtain ⟨call, hcall, h⟩ := Option.bind_eq_some_iff.1 h
  split at h
  next hphase =>
    -- the loop is over
    obtain rfl := Option.some.inj h
    by_cases hdone : call.devicesWithoutSession = []
    · simp only [if_pos hdone]
      refine .call (callStep_setCall hcall (by simp) (List.nil_sublist _) rfl) ?_
      intro _ k p _ _ _ hd
      simp only [EnsureCall.Due, hphase] at hd
      exact absurd hdone hd
    · simp only [if_neg hdone]
      refine .call (callStep_setCall hcall (by simp) (List.nil_sublist _) rfl) ?_
      intro _ k p _ _ hk _
      exact ⟨hk, trivial⟩
  next t rest hphase =>
    split at h
    · obtain rfl := Option.some.inj h
      refine .call (callStep_setCall hcall (by simp) ?_ rfl) ?_
      · simp only [EnsureCall.upcoming, hphase]
        exact List.sublist_cons_self t rest
      · intro _ k p _ _ hk hd
        simp only [EnsureCall.Due, hphase] at hd
        exact ⟨hk, hd⟩
    next hown =>
      split at h
      · obtain rfl := Option.some.inj h
        exact .mark hcall hphase
      next p hentry =>
        obtain rfl := Option.some.inj h
        by_cases hmine : (call.resolveSession.get t.key).isSome
        · simp only [if_pos hmine]
          refine .call (callStep_setCall hcall (by simp) ?_ rfl) ?_
          · simp only [EnsureCall.upcoming, hphase]
            exact List.sublist_cons_self t rest
          · intro _ k p _ _ hk hd
            simp only [EnsureCall.Due, hphase] at hd
            exact ⟨hk, .inr hd⟩
        · simp only [if_neg hmine]
          refine .wait hcall hphase hentry ⟨call, t, rest, p, hcall, hphase, hown, hentry, ?_, rfl⟩
          simpa using hmine
  · exact absurd h (by simp)

omit [DecidableEq User] [DecidableEq DeviceId] in
theorem promiseResolved_step (h : s.promiseResolved c = some s') :
    OlmSessionsStep ownKey s
      (.promiseResolved c : OlmSessionsEvent User DeviceId Key OneTimeKey) s' := by
  obtain ⟨call, hcall, h⟩ := Option.bind_eq_some_iff.1 h
  split at h
  next t p rest hphase =>
    split at h
    · obtain rfl := Option.some.inj h
      refine .call (callStep_setCall hcall (by simp) ?_ rfl) ?_
      · simp only [EnsureCall.upcoming, hphase]
        exact List.sublist_cons_self t rest
      · intro _ k p _ _ hk hd
        simp only [EnsureCall.Due, hphase] at hd
        exact ⟨hk, .inr hd⟩
    · exact absurd h (by simp)
  · exact absurd h (by simp)

/-- A key the call has marked and finds no session for gets the call to claim keys. -/
theorem sessionsRead_step {sessions : List SessionInfo} (h : s.sessionsRead c sessions = some s') :
    OlmSessionsStep ownKey s
      (.sessionsRead c sessions : OlmSessionsEvent User DeviceId Key OneTimeKey) s' := by
  obtain ⟨call, hcall, h⟩ := Option.bind_eq_some_iff.1 h
  split at h
  next t rest hphase =>
    obtain rfl := Option.some.inj h
    generalize getSessionIdForDevice sessions = sessionId
    generalize hun : (if sessionId.isSome then [t.key] else []) = unmarked
    refine .call (callStep_resolveKeys hcall unmarked (by simp) ?_ ?_) ?_
    · simp only [EnsureCall.upcoming, hphase]
      exact List.Sublist.refl _
    · intro k hk
      simp only [JsObject.get_filter] at hk
      split at hk
      · exact hk
      · exact absurd hk (by simp)
    · intro _
      refine keepsDue_of_due (fun k hk => ?_) (fun k hk hd => ?_)
      · simp [hk]
      · simp only [EnsureCall.Due, hphase] at hd ⊢
        cases sessionId with
        | none => simp
        | some sessionId =>
          -- the key of the device itself is unmarked, so another one is due
          have hne : k ≠ t.key := by simpa [← hun] using hk
          have hold := hd.resolve_left hne
          by_cases hforce : call.force <;> simp [hforce, hold]
  · exact absurd h (by simp)

section

omit [DecidableEq User] [DecidableEq DeviceId]

theorem storeFails_step (h : s.storeFails c = some s') :
    OlmSessionsStep ownKey s
      (.storeFails c : OlmSessionsEvent User DeviceId Key OneTimeKey) s' := by
  obtain ⟨call, hcall, h⟩ := Option.bind_eq_some_iff.1 h
  split at h
  · obtain rfl := Option.some.inj h
    refine .call (callStep_setCall hcall (by simp) ?_ rfl) ?_
    · exact List.nil_sublist _
    · intro hC k p hp howner
      exact absurd howner (hC k p hp)
  · exact absurd h (by simp)

theorem keysClaimed_step {res : Option (ClaimResponse User DeviceId OneTimeKey)}
    (h : s.keysClaimed ownKey c res = some s') :
    OlmSessionsStep ownKey s (.keysClaimed c res) s' := by
  obtain ⟨call, hcall, h⟩ := Option.bind_eq_some_iff.1 h
  have hthrows : call.claimThrows res = true →
      OlmSessionsStep ownKey s (.keysClaimed c res)
        (s.setCall c { call with phase := .settled }) := by
    intro ht
    refine .call (callStep_setCall hcall (by simp) (List.nil_sublist _) rfl) ?_
    intro hC k p hp howner
    have hnone := hC call hcall
    rw [if_pos ht] at hnone
    exact absurd howner (hnone k p hp)
  split at h
  next response hphase =>
    split at h
    next ht =>
      obtain rfl := Option.some.inj h
      exact hthrows ht
    next ht =>
      obtain rfl := Option.some.inj h
      refine .call (callStep_resolveKeys hcall _ (by simp) (List.nil_sublist _) (fun _ h => h)) ?_
      intro hC k p hp howner hk _
      refine ⟨hk, ?_⟩
      have hks := not_mem_of_get_resolveKeys hp hk
      have hfound := hC call hcall
      rw [if_neg ht] at hfound
      have hold : s.sessionsInProgress.get k = some p := by
        change (s.resolveKeys call _).sessionsInProgress.get k = some p at hp
        rw [get_resolveKeys, if_neg (fun h => hks h.1)] at hp
        exact hp
      obtain ⟨t, ht, htk, hneeds⟩ := hfound k p hold howner
      -- the device is not skipped, and its key has not been resolved: it is being started
      refine ⟨t, ?_, htk⟩
      rw [List.mem_filter]
      refine ⟨List.mem_filter.2 ⟨ht, hneeds⟩, ?_⟩
      by_contra hno
      refine hks (List.mem_map.2 ⟨t, ?_, htk⟩)
      rw [List.mem_filter]
      exact ⟨List.mem_filter.2 ⟨ht, hneeds⟩, by simpa using hno⟩
  next hphase =>
    obtain rfl := Option.some.inj h
    exact hthrows rfl
  · exact absurd h (by simp)

theorem claimFails_step (h : s.claimFails c = some s') :
    OlmSessionsStep ownKey s
      (.claimFails c : OlmSessionsEvent User DeviceId Key OneTimeKey) s' := by
  obtain ⟨call, hcall, h⟩ := Option.bind_eq_some_iff.1 h
  split at h
  · obtain rfl := Option.some.inj h
    refine .call (callStep_resolveKeys hcall _ (by simp) (List.nil_sublist _) (fun _ h => h)) ?_
    intro _ k p hp _ hk _
    exact absurd (JsObject.mem_keys_of_get hk) (not_mem_of_get_resolveKeys hp hk)
  · exact absurd h (by simp)

end

theorem sessionStarted_step {i : ℕ} {sid : Option String}
    (h : s.sessionStarted c i sid = some s') :
    OlmSessionsStep ownKey s
      (.sessionStarted c i sid : OlmSessionsEvent User DeviceId Key OneTimeKey) s' := by
  obtain ⟨call, hcall, h⟩ := Option.bind_eq_some_iff.1 h
  split at h
  next pending hphase =>
    obtain ⟨t, ht, rfl⟩ := Option.map_eq_some_iff.1 h
    refine .call (callStep_resolveKeys hcall _ (by simp) (List.nil_sublist _) (fun _ h => h)) ?_
    intro _
    refine keepsDue_of_due (fun _ _ => rfl) (fun k hk hd => ?_)
    simp only [EnsureCall.Due, hphase] at hd ⊢
    obtain ⟨t', ht', rfl⟩ := hd
    refine ⟨t', ?_, rfl⟩
    rw [List.mem_singleton] at hk
    obtain ⟨j, hj⟩ := List.mem_iff_getElem?.1 ht'
    -- it is another device, so it is still pending
    refine List.mem_eraseIdx_iff_getElem?.2 ⟨j, ?_, hj⟩
    rintro rfl
    rw [ht, Option.some.injEq] at hj
    exact hk (by rw [hj])
  · exact absurd h (by simp)

omit [DecidableEq User] [DecidableEq DeviceId] in
theorem allStarted_step (h : s.allStarted c = some s') :
    OlmSessionsStep ownKey s
      (.allStarted c : OlmSessionsEvent User DeviceId Key OneTimeKey) s' := by
  obtain ⟨call, hcall, h⟩ := Option.bind_eq_some_iff.1 h
  split at h
  next hphase =>
    obtain rfl := Option.some.inj h
    refine .call (callStep_setCall hcall (by simp) (List.nil_sublist _) rfl) ?_
    intro _ k p _ _ _ hd
    simp [EnsureCall.Due, hphase] at hd
  · exact absurd h (by simp)

end OlmSessions

theorem olmSessionsStep_cases {ownKey : Key} {s s' : OlmSessions User DeviceId Key}
    {e : OlmSessionsEvent User DeviceId Key OneTimeKey} (h : olmSessionsStep ownKey s e = some s') :
    OlmSessionsStep ownKey s e s' := by
  cases e with
  | ensureOlmSessionsForDevices devices force failedServers =>
    obtain rfl := Option.some.inj h
    exact .newCall devices force failedServers
  | nextDevice c => exact OlmSessions.nextDevice_step h
  | promiseResolved c => exact OlmSessions.promiseResolved_step h
  | sessionsRead c sessions => exact OlmSessions.sessionsRead_step h
  | storeFails c => exact OlmSessions.storeFails_step h
  | keysClaimed c res => exact OlmSessions.keysClaimed_step h
  | claimFails c => exact OlmSessions.claimFails_step h
  | sessionStarted c i sid => exact OlmSessions.sessionStarted_step h
  | allStarted c => exact OlmSessions.allStarted_step h

/-! ## What holds in every run -/

namespace OlmSessions

/-- Every entry of `_sessionsInProgress` belongs to a call that is going to resolve it, and
every awaited promise has been made. -/
structure Inv (s : OlmSessions User DeviceId Key) : Prop where
  entries : ∀ k p, s.sessionsInProgress.get k = some p → p < s.nextPromise ∧
    ∃ call, s.calls (s.owner p) = some call ∧ call.resolveSession.get k = some p ∧ call.Due k
  awaited : ∀ c call t p rest, s.calls c = some call → call.phase = .waiting t p rest →
    p < s.nextPromise
  calls : ∀ c call, s.calls c = some call → c < s.nextCall
  owner : ∀ p, p < s.nextPromise → s.owner p < s.nextCall

variable {ownKey : Key} {s s' : OlmSessions User DeviceId Key}
  {e : OlmSessionsEvent User DeviceId Key OneTimeKey} {call : EnsureCall User DeviceId Key}
  {t : Target User DeviceId Key} {rest : List (Target User DeviceId Key)}

omit [DecidableEq User] [DecidableEq DeviceId] [DecidableEq Key] in
theorem Inv.new : (new : OlmSessions User DeviceId Key).Inv where
  entries k p h := absurd h (by simp [OlmSessions.new])
  awaited c call t p rest h := absurd h (by simp [OlmSessions.new])
  calls c call h := absurd h (by simp [OlmSessions.new])
  owner p h := absurd h (Nat.not_lt_zero p)

omit [DecidableEq User] [DecidableEq DeviceId] [DecidableEq Key] in
/-- Steps of one call: the entries of the others are due as before. -/
theorem Inv.callStep (hI : s.Inv) {c : ℕ} {call' : EnsureCall User DeviceId Key}
    (h : s.CallStep s' c call call') (hdue : s.KeepsDue s' c call call') : s'.Inv := by
  refine ⟨fun k p hp => ?_, fun d dcall t p rest hd hphase => ?_, fun d dcall hd => ?_,
    by rw [h.nextPromise, h.owner, h.nextCall]; exact hI.owner⟩
  · obtain ⟨hlt, ocall, hocall, hres, hd⟩ := hI.entries k p (h.entries k p hp)
    rw [h.nextPromise, h.owner, h.calls]
    refine ⟨hlt, ?_⟩
    by_cases ho : s.owner p = c
    · rw [ho, h.before, Option.some.injEq] at hocall
      subst hocall
      exact ⟨call', by rw [ho, Function.update_self], hdue k p hp ho hres hd⟩
    · exact ⟨ocall, by rw [Function.update_of_ne ho, hocall], hres, hd⟩
  · rw [h.calls] at hd
    rw [h.nextPromise]
    by_cases hdc : d = c
    · subst hdc
      rw [Function.update_self, Option.some.injEq] at hd
      exact absurd hphase (hd ▸ h.noWait t p rest)
    · rw [Function.update_of_ne hdc] at hd
      exact hI.awaited d dcall t p rest hd hphase
  · rw [h.calls] at hd
    rw [h.nextCall]
    by_cases hdc : d = c
    · rw [hdc]
      exact hI.calls c call h.before
    · rw [Function.update_of_ne hdc] at hd
      exact hI.calls d dcall hd

omit [DecidableEq User] [DecidableEq DeviceId] in
/-- A new promise is entered under its key, for the call to resolve after its lookup. -/
theorem Inv.mark (hI : s.Inv) {c : ℕ} (hcall : s.calls c = some call)
    (hphase : call.phase = .marking (t :: rest)) : (s.mark c call t rest).Inv := by
  refine ⟨fun k p hp => ?_, fun d dcall t' p rest' hd hphase' => ?_, fun d dcall hd => ?_,
    fun p hp => ?_⟩
  · simp only [OlmSessions.mark, JsObject.get_set] at hp ⊢
    split at hp
    next hk =>
      rw [Option.some.injEq] at hp
      subst hp
      refine ⟨Nat.lt_succ_self _, _, by rw [Function.update_self, Function.update_self], ?_, ?_⟩
      · dsimp only
        rw [JsObject.get_set, if_pos hk]
      · exact .inl hk
    next hk =>
      obtain ⟨hlt, ocall, hocall, hres, hdue⟩ := hI.entries k p hp
      refine ⟨Nat.lt_succ_of_lt hlt, ?_⟩
      rw [Function.update_of_ne (Nat.ne_of_lt hlt)]
      by_cases ho : s.owner p = c
      · rw [ho, hcall, Option.some.injEq] at hocall
        subst hocall
        refine ⟨_, by rw [ho, Function.update_self], ?_, ?_⟩
        · dsimp only
          rw [JsObject.get_set_ne hk, hres]
        · simp only [EnsureCall.Due, hphase] at hdue
          exact .inr hdue
      · exact ⟨ocall, by rw [Function.update_of_ne ho, hocall], hres, hdue⟩
  · simp only [OlmSessions.mark] at hd ⊢
    by_cases hdc : d = c
    · subst hdc
      rw [Function.update_self, Option.some.injEq] at hd
      subst hd
      exact absurd hphase' (by simp)
    · rw [Function.update_of_ne hdc] at hd
      exact Nat.lt_succ_of_lt (hI.awaited d dcall t' p rest' hd hphase')
  · simp only [OlmSessions.mark] at hd ⊢
    by_cases hdc : d = c
    · rw [hdc]
      exact hI.calls c call hcall
    · rw [Function.update_of_ne hdc] at hd
      exact hI.calls d dcall hd
  · simp only [OlmSessions.mark] at hp ⊢
    rcases Nat.lt_succ_iff_lt_or_eq.1 hp with hlt | rfl
    · rw [Function.update_of_ne (Nat.ne_of_lt hlt)]
      exact hI.owner p hlt
    · rw [Function.update_self]
      exact hI.calls c call hcall

omit [DecidableEq User] [DecidableEq DeviceId] [DecidableEq Key] in
theorem Inv.wait (hI : s.Inv) {c p : ℕ} (hcall : s.calls c = some call)
    (hphase : call.phase = .marking (t :: rest))
    (hentry : s.sessionsInProgress.get t.key = some p) :
    (s.setCall c { call with phase := .waiting t p rest }).Inv := by
  refine ⟨fun k q hq => ?_, fun d dcall t' q rest' hd hphase' => ?_, fun d dcall hd => ?_,
    hI.owner⟩
  · obtain ⟨hlt, ocall, hocall, hres, hdue⟩ := hI.entries k q hq
    refine ⟨hlt, ?_⟩
    simp only [setCall]
    by_cases ho : s.owner q = c
    · rw [ho, hcall, Option.some.injEq] at hocall
      subst hocall
      simp only [EnsureCall.Due, hphase] at hdue
      exact ⟨{ call with phase := .waiting t p rest }, by rw [ho, Function.update_self], hres, hdue⟩
    · exact ⟨ocall, by rw [Function.update_of_ne ho, hocall], hres, hdue⟩
  · simp only [setCall] at hd ⊢
    by_cases hdc : d = c
    · subst hdc
      rw [Function.update_self, Option.some.injEq] at hd
      subst hd
      obtain ⟨rfl, rfl, rfl⟩ : t = t' ∧ p = q ∧ rest = rest' := by simpa using hphase'
      exact (hI.entries t.key p hentry).1
    · rw [Function.update_of_ne hdc] at hd
      exact hI.awaited d dcall t' q rest' hd hphase'
  · simp only [setCall] at hd ⊢
    by_cases hdc : d = c
    · rw [hdc]
      exact hI.calls c call hcall
    · rw [Function.update_of_ne hdc] at hd
      exact hI.calls d dcall hd

omit [DecidableEq User] [DecidableEq DeviceId] [DecidableEq Key] in
theorem Inv.newCall (hI : s.Inv) (devices : List (Target User DeviceId Key))
    (force failedServers : Bool) :
    (s.ensureOlmSessionsForDevices devices force failedServers).Inv := by
  have hne : ∀ d dcall, s.calls d = some dcall → d ≠ s.nextCall :=
    fun d dcall hd => Nat.ne_of_lt (hI.calls d dcall hd)
  refine ⟨fun k p hp => ?_, fun d dcall t p rest hd hphase => ?_, fun d dcall hd => ?_,
    fun p hp => Nat.lt_succ_of_lt (hI.owner p hp)⟩
  · obtain ⟨hlt, ocall, hocall, hdue⟩ := hI.entries k p hp
    refine ⟨hlt, ocall, ?_, hdue⟩
    simp only [ensureOlmSessionsForDevices]
    rw [Function.update_of_ne (hne _ _ hocall), hocall]
  · simp only [ensureOlmSessionsForDevices] at hd ⊢
    by_cases hdc : d = s.nextCall
    · subst hdc
      rw [Function.update_self, Option.some.injEq] at hd
      subst hd
      exact absurd hphase (by simp)
    · rw [Function.update_of_ne hdc] at hd
      exact hI.awaited d dcall t p rest hd hphase
  · simp only [ensureOlmSessionsForDevices] at hd ⊢
    by_cases hdc : d = s.nextCall
    · rw [hdc]
      exact Nat.lt_succ_self _
    · rw [Function.update_of_ne hdc] at hd
      exact Nat.lt_succ_of_lt (hI.calls d dcall hd)

theorem Inv.step (hI : s.Inv) (hC : LeavesNothing ownKey s e)
    (h : olmSessionsStep ownKey s e = some s') : s'.Inv := by
  cases olmSessionsStep_cases h with
  | newCall devices force failedServers => exact hI.newCall devices force failedServers
  | mark hcall hphase => exact hI.mark hcall hphase
  | wait hcall hphase hentry _ => exact hI.wait hcall hphase hentry
  | call hstep hdue => exact hI.callStep hstep (hdue hC)

omit [DecidableEq User] [DecidableEq DeviceId] [DecidableEq Key] in
/-- The entries of a settled call would have to be due, and nothing is. -/
theorem Inv.noLeak (hI : s.Inv) {c : ℕ} (hcall : s.calls c = some call)
    (hphase : call.phase = .settled) : s.NoEntryOf c := by
  rintro k p hp rfl
  obtain ⟨_, ocall, hocall, _, hdue⟩ := hI.entries k p hp
  rw [hcall, Option.some.injEq] at hocall
  subst hocall
  simp [EnsureCall.Due, hphase] at hdue

/-! ## Waiting -/

/-- A step adds at most the wait that a call begins. -/
theorem waitsOn_step (hI : s.Inv) (h : olmSessionsStep ownKey s e = some s') {a b : ℕ}
    (hab : s'.waitsOn a b) :
    s.waitsOn a b ∨ (e = .nextDevice a ∧ s.BeginsToWait ownKey a b) := by
  obtain ⟨dcall, t, p, rest, hd, hphase, hres, howner⟩ := hab
  cases olmSessionsStep_cases h with
  | newCall devices force failedServers =>
    simp only [ensureOlmSessionsForDevices] at hd hres howner
    by_cases hdc : a = s.nextCall
    · subst hdc
      rw [Function.update_self, Option.some.injEq] at hd
      subst hd
      exact absurd hphase (by simp)
    · rw [Function.update_of_ne hdc] at hd
      exact .inl ⟨dcall, t, p, rest, hd, hphase, hres, howner⟩
  | @mark c call t' rest' hcall hphase' =>
    simp only [OlmSessions.mark] at hd hres howner
    by_cases hdc : a = c
    · subst hdc
      rw [Function.update_self, Option.some.injEq] at hd
      subst hd
      exact absurd hphase (by simp)
    · rw [Function.update_of_ne hdc] at hd
      have hlt := hI.awaited a dcall t p rest hd hphase
      rw [Function.update_of_ne (Nat.ne_of_lt hlt)] at howner
      exact .inl ⟨dcall, t, p, rest, hd, hphase, hres, howner⟩
  | @wait c call t' rest' q hcall hphase' hentry hbegins =>
    simp only [setCall] at hd hres howner
    by_cases hdc : a = c
    · subst hdc
      rw [Function.update_self, Option.some.injEq] at hd
      subst hd
      obtain ⟨rfl, rfl, rfl⟩ : t' = t ∧ q = p ∧ rest' = rest := by simpa using hphase
      exact .inr ⟨rfl, howner ▸ hbegins⟩
    · rw [Function.update_of_ne hdc] at hd
      exact .inl ⟨dcall, t, p, rest, hd, hphase, hres, howner⟩
  | @call _ _ c call call' hstep hdue =>
    rw [hstep.calls] at hd
    by_cases hdc : a = c
    · subst hdc
      rw [Function.update_self, Option.some.injEq] at hd
      exact absurd hphase (hd ▸ hstep.noWait t p rest)
    · rw [Function.update_of_ne hdc] at hd
      have hres' : s.resolved p = false := by
        by_contra hne
        rw [hstep.resolved p (by simpa using hne)] at hres
        exact absurd hres (by simp)
      exact .inl ⟨dcall, t, p, rest, hd, hphase, hres', hstep.owner ▸ howner⟩

theorem acyclic_step (hI : s.Inv) (hA : Acyclic s.waitsOn) (hC : ClosesNoCycle ownKey s e)
    (h : olmSessionsStep ownKey s e = some s') : Acyclic s'.waitsOn := by
  by_cases hbegin : ∃ c o, e = .nextDevice c ∧ s.BeginsToWait ownKey c o
  · obtain ⟨c, o, rfl, hbegin⟩ := hbegin
    refine hA.insert (c := c) (o := o) (fun a b hab => ?_) (hC o hbegin)
    rcases waitsOn_step hI h hab with hold | ⟨hac, hbegin'⟩
    · exact .inl hold
    · obtain rfl : c = a := by simpa using hac
      -- the call begins one wait only
      obtain ⟨call, t, rest, p, hcall, hphase, _, hentry, _, rfl⟩ := hbegin
      obtain ⟨call', t', rest', p', hcall', hphase', _, hentry', _, rfl⟩ := hbegin'
      obtain rfl : call = call' := by simpa [hcall] using hcall'
      obtain ⟨rfl, rfl⟩ : t = t' ∧ rest = rest' := by simpa [hphase] using hphase'
      obtain rfl : p = p' := by simpa [hentry] using hentry'
      exact .inr ⟨rfl, rfl⟩
  · refine hA.mono fun a b hab => ?_
    rcases waitsOn_step hI h hab with hold | ⟨he, hbegins⟩
    · exact hold
    · exact absurd ⟨a, b, he, hbegins⟩ hbegin

end OlmSessions

section Ordered

variable (rank : Key → ℕ)

/-- A call lists the identity keys in increasing order. -/
def ListsInOrder : OlmSessionsEvent User DeviceId Key OneTimeKey → Prop
  | .ensureOlmSessionsForDevices devices _ _ =>
    devices.Pairwise fun t t' => rank t.key < rank t'.key
  | _ => True

namespace OlmSessions

/-- What a call has marked, and what others wait for that it has made, comes before
what the call has still to go through. -/
structure Ordered (s : OlmSessions User DeviceId Key) : Prop where
  upcoming : ∀ c call, s.calls c = some call →
    call.upcoming.Pairwise fun t t' => rank t.key < rank t'.key
  marked : ∀ c call, s.calls c = some call → ∀ k, (call.resolveSession.get k).isSome →
    ∀ u ∈ call.upcoming, rank k < rank u.key
  awaited : ∀ d dcall t p rest, s.calls d = some dcall → dcall.phase = .waiting t p rest →
    ∀ call, s.calls (s.owner p) = some call → ∀ u ∈ call.upcoming, rank t.key < rank u.key

variable {rank} {ownKey : Key} {s s' : OlmSessions User DeviceId Key}
  {e : OlmSessionsEvent User DeviceId Key OneTimeKey}

omit [DecidableEq User] [DecidableEq DeviceId] [DecidableEq Key] in
/-- What has to be checked when the call `c` is replaced by `call'`. -/
theorem Ordered.update (hO : s.Ordered rank) (hI : s.Inv) {c : ℕ}
    {call' : EnsureCall User DeviceId Key}
    (hcalls : s'.calls = Function.update s.calls c (some call'))
    (howner : ∀ p, p < s.nextPromise → s'.owner p = s.owner p)
    (hup : call'.upcoming.Pairwise fun t t' => rank t.key < rank t'.key)
    (hmarked : ∀ k, (call'.resolveSession.get k).isSome →
      ∀ u ∈ call'.upcoming, rank k < rank u.key)
    (hothers : ∀ d dcall t p rest, s.calls d = some dcall → dcall.phase = .waiting t p rest →
      s.owner p = c → ∀ u ∈ call'.upcoming, rank t.key < rank u.key)
    (hown : ∀ t p rest, call'.phase = .waiting t p rest →
      ∀ call, s'.calls (s'.owner p) = some call → ∀ u ∈ call.upcoming, rank t.key < rank u.key) :
    s'.Ordered rank := by
  have hcall : ∀ d dcall, s'.calls d = some dcall →
      (d = c ∧ dcall = call') ∨ (d ≠ c ∧ s.calls d = some dcall) := by
    intro d dcall hd
    rw [hcalls] at hd
    by_cases hdc : d = c
    · subst hdc
      rw [Function.update_self, Option.some.injEq] at hd
      exact .inl ⟨rfl, hd.symm⟩
    · rw [Function.update_of_ne hdc] at hd
      exact .inr ⟨hdc, hd⟩
  refine ⟨fun d dcall hd => ?_, fun d dcall hd => ?_, fun d dcall t p rest hd hphase => ?_⟩
  · rcases hcall d dcall hd with ⟨_, rfl⟩ | ⟨_, hd⟩
    · exact hup
    · exact hO.upcoming d dcall hd
  · rcases hcall d dcall hd with ⟨_, rfl⟩ | ⟨_, hd⟩
    · exact hmarked
    · exact hO.marked d dcall hd
  · rcases hcall d dcall hd with ⟨_, rfl⟩ | ⟨_, hd⟩
    · exact hown t p rest hphase
    · intro call hc
      rw [howner p (hI.awaited d dcall t p rest hd hphase)] at hc
      rcases hcall _ call hc with ⟨hoc, rfl⟩ | ⟨_, hc⟩
      · exact hothers d dcall t p rest hd hphase hoc
      · exact hO.awaited d dcall t p rest hd hphase call hc

theorem Ordered.step (hO : s.Ordered rank) (hI : s.Inv) (hC : ListsInOrder rank e)
    (h : olmSessionsStep ownKey s e = some s') : s'.Ordered rank := by
  cases olmSessionsStep_cases h with
  | newCall devices force failedServers =>
    refine hO.update hI (c := s.nextCall) rfl (fun _ _ => rfl) hC ?_ ?_ ?_
    · intro k hk
      exact absurd hk (by simp)
    · intro d dcall t p rest hd hphase howner
      have hlt := hI.owner p (hI.awaited d dcall t p rest hd hphase)
      exact absurd howner (Nat.ne_of_lt hlt)
    · intro t p rest hphase
      exact absurd hphase (by simp)
  | @mark c call t rest hcall hphase =>
    have hup := hO.upcoming c call hcall
    simp only [EnsureCall.upcoming, hphase, List.pairwise_cons] at hup
    refine hO.update hI (c := c) rfl ?_ hup.2 ?_ ?_ ?_
    · intro p hp
      exact Function.update_of_ne (Nat.ne_of_lt hp) ..
    · intro k hk u hu
      dsimp only at hk
      rw [JsObject.get_set] at hk
      split at hk
      next hkt =>
        rw [hkt]
        exact hup.1 u hu
      · refine hO.marked c call hcall k hk u ?_
        simp only [EnsureCall.upcoming, hphase]
        exact List.mem_cons_of_mem t hu
    · intro d dcall t' p rest' hd hphase' howner u hu
      refine hO.awaited d dcall t' p rest' hd hphase' call (by rw [howner, hcall]) u ?_
      simp only [EnsureCall.upcoming, hphase]
      exact List.mem_cons_of_mem t hu
    · intro t' p rest' hphase'
      exact absurd hphase' (by simp)
  | @wait c call t rest p hcall hphase hentry hbegins =>
    have hsame : call.upcoming = t :: rest := by simp only [EnsureCall.upcoming, hphase]
    refine hO.update hI (c := c) rfl (fun _ _ => rfl) ?_ ?_ ?_ ?_
    · have hup := hO.upcoming c call hcall
      rw [hsame] at hup
      exact hup
    · have hmarked := hO.marked c call hcall
      rw [hsame] at hmarked
      exact hmarked
    · intro d dcall t' q rest' hd hphase' howner u hu
      refine hO.awaited d dcall t' q rest' hd hphase' call (by rw [howner, hcall]) u ?_
      rw [hsame]
      exact hu
    · intro t' q rest' hwait ocall hocall
      obtain ⟨rfl, rfl, rfl⟩ : t = t' ∧ p = q ∧ rest = rest' := by simpa using hwait
      -- the key is marked by the owner of the entry, who is another call
      obtain ⟨_, ocall', hocall', hres, _⟩ := hI.entries t.key p hentry
      have hne : s.owner p ≠ c := by
        intro howner
        rw [howner, hcall, Option.some.injEq] at hocall'
        subst hocall'
        obtain ⟨call₁, t₁, rest₁, _, hcall₁, hphase₁, _, _, hnone, _⟩ := hbegins
        obtain rfl : call = call₁ := by simpa [hcall] using hcall₁
        obtain ⟨rfl, rfl⟩ : t = t₁ ∧ rest = rest₁ := by simpa [hphase] using hphase₁
        rw [hres] at hnone
        exact absurd hnone (by simp)
      change Function.update s.calls c _ (s.owner p) = some ocall at hocall
      rw [Function.update_of_ne hne, hocall', Option.some.injEq] at hocall
      subst hocall
      exact hO.marked _ ocall' hocall' t.key (by simp [hres])
  | @call _ _ c call call' hstep _ =>
    refine hO.update hI hstep.calls (fun p _ => by rw [hstep.owner]) ?_ ?_ ?_ ?_
    · exact (hO.upcoming c call hstep.before).sublist hstep.upcoming
    · intro k hk u hu
      exact hO.marked c call hstep.before k (hstep.marked k hk) u (hstep.upcoming.subset hu)
    · intro d dcall t p rest hd hphase howner u hu
      exact hO.awaited d dcall t p rest hd hphase call (by rw [howner, hstep.before]) u
        (hstep.upcoming.subset hu)
    · intro t p rest hphase
      exact absurd hphase (hstep.noWait t p rest)

/-- The key a call waits for. -/
def awaitedRank (rank : Key → ℕ) (s : OlmSessions User DeviceId Key) (c : ℕ) : ℕ :=
  match (s.calls c).map EnsureCall.phase with
  | some (.waiting t _ _) => rank t.key
  | _ => 0

omit [DecidableEq User] [DecidableEq DeviceId] [DecidableEq Key] in
/-- The awaited keys increase along a chain of waits. -/
theorem Ordered.acyclic (hO : s.Ordered rank) : Acyclic s.waitsOn := by
  refine .of_rank (s.awaitedRank rank) fun a b d hab hbd => ?_
  obtain ⟨acall, t, p, rest, ha, hpa, _, rfl⟩ := hab
  obtain ⟨bcall, t', p', rest', hb, hpb, _, _⟩ := hbd
  have hlt := hO.awaited a acall t p rest ha hpa bcall hb t' (by simp [EnsureCall.upcoming, hpb])
  simpa [awaitedRank, ha, hb, hpa, hpb] using hlt

end OlmSessions

/-- Calls that list the identity keys in one common order never wait for each other, so
only the leaks remain to be excluded. -/
theorem sessionsInProgress_sound_of_ordered {ownKey : Key} {s : OlmSessions User DeviceId Key}
    (h : (olmSessionsSystem ownKey :
        System _ (OlmSessionsEvent User DeviceId Key OneTimeKey)).ReachableUnder
      (fun s e => ListsInOrder rank e ∧ LeavesNothing ownKey s e) s) : s.Sound := by
  have hinv : s.Inv ∧ s.Ordered rank := by
    refine System.ReachableUnder.invariant (P := fun s => s.Inv ∧ s.Ordered rank) ?_ ?_ h
    · exact ⟨.new, fun c call hc => absurd hc (by simp [olmSessionsSystem, OlmSessions.new]),
        fun c call hc => absurd hc (by simp [olmSessionsSystem, OlmSessions.new]),
        fun d dcall t p rest hd => absurd hd (by simp [olmSessionsSystem, OlmSessions.new])⟩
    · intro s e s' hP hC hs
      exact ⟨hP.1.step hC.2 hs, hP.2.step hP.1 hC.1 hs⟩
  exact ⟨hinv.2.acyclic.not_mutuallyWaiting,
    fun c call hcall hphase => hinv.1.noLeak hcall hphase⟩

end Ordered

end Sound

/-! ## Runs that fail, and one that does not -/

/-- Calls about devices with the identity keys 1 and 2. -/
abbrev numberedSessions : System (OlmSessions ℕ ℕ ℕ) (OlmSessionsEvent ℕ ℕ ℕ ℕ) :=
  olmSessionsSystem 0

/-- One call for the device 1, which gets a session. -/
def oneSession : List (OlmSessionsEvent ℕ ℕ ℕ ℕ) :=
  [.ensureOlmSessionsForDevices [⟨0, 1, 1⟩] false false, .nextDevice 0, .sessionsRead 0 [],
    .nextDevice 0,
    .keysClaimed 0 (some ⟨none, some fun _ => some fun _ => some
      (JsObject.empty.set "signed_curve25519:AAAAHQ" (some 7))⟩),
    .sessionStarted 0 0 (some "session"), .allStarted 0]

theorem oneSession_runs : (numberedSessions.run oneSession).isSome := by decide

theorem oneSession_meets : System.Meets
    (fun s e => ClosesNoCycle 0 s e ∧ LeavesNothing 0 s e) (numberedSessions.steps oneSession) := by
  change ∀ q ∈ [_, _, _, _, _, _, _], _
  simp only [List.forall_mem_cons]
  refine ⟨⟨trivial, trivial⟩, ⟨?_, trivial⟩, ⟨trivial, trivial⟩, ⟨?_, trivial⟩, ⟨trivial, ?_⟩,
    ⟨trivial, trivial⟩, ⟨trivial, trivial⟩, by simp⟩
  · rintro o ⟨call, t, rest, p, _, _, _, hentry, _⟩
    cases hentry
  · rintro o ⟨call, t, rest, p, hcall, hphase, _⟩
    cases hcall
    cases hphase
  · intro call hcall
    cases hcall
    intro k p hk _
    refine ⟨_, List.mem_singleton_self _, ?_, rfl⟩
    -- the only entry is the one the call has made
    by_contra hne
    change ((JsObject.empty : JsObject ℕ ℕ).set 1 0).get k = some p at hk
    rw [JsObject.get_set_ne (Ne.symm hne)] at hk
    cases hk

/-- Two calls with the same devices in opposite orders. -/
def oppositeOrders : List (OlmSessionsEvent ℕ ℕ ℕ ℕ) :=
  [.ensureOlmSessionsForDevices [⟨0, 1, 1⟩, ⟨0, 2, 2⟩] false false, .nextDevice 0,
    .ensureOlmSessionsForDevices [⟨0, 2, 2⟩, ⟨0, 1, 1⟩] false false, .nextDevice 1,
    .sessionsRead 0 [], .nextDevice 0, .sessionsRead 1 [], .nextDevice 1]

theorem oppositeOrders_runs : (numberedSessions.run oppositeOrders).isSome := by decide

/-- A call whose lookup fails. -/
def failedLookup : List (OlmSessionsEvent ℕ ℕ ℕ ℕ) :=
  [.ensureOlmSessionsForDevices [⟨0, 1, 1⟩] false false, .nextDevice 0, .storeFails 0]

theorem failedLookup_runs : (numberedSessions.run failedLookup).isSome := by decide

end MatrixSdk.Crypto
