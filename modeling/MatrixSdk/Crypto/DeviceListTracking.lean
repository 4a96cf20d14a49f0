/-
`DeviceList` (`src/crypto/DeviceList.js`): which users' device lists are
tracked, which are being downloaded, and when a list counts as up to date.

The object's methods run synchronously; between them the callbacks of the
serialiser's requests and of the promises made by `_doKeyDownload` run in any
order. The response to a request is processed one user at a time, with other
code running in between, so processing is part of the state.

Two fields have no counterpart in the source and are only written:
`takenFrom u` is the number of the request whose response the stored list of
`u` comes from, and `lastInvalidation u` is how many requests had been sent when
`u` was last invalidated. A request was sent after the last invalidation of `u`
when its number is at least `lastInvalidation u`.

The result is [`upToDate_after_invalidation`]: the status UP_TO_DATE is only ever
given to a list taken from a request sent after the last invalidation.
-/
import MatrixSdk.Crypto.DeviceListSerialiser

set_option autoImplicit false

namespace MatrixSdk.Crypto

open MatrixSdk.Lib

/-! ## State -/

/-- `TRACKING_STATUS_*`. -/
inductive TrackingStatus
  | notTracked
  | pendingDownload
  | downloadInProgress
  | upToDate
  deriving DecidableEq, Repr

/-- A promise made by `_doKeyDownload` whose `finished` callback is still to run:
`deferred` is the serialiser's deferred it waits for. -/
structure KeyDownload (User : Type) where
  promise : ℕ
  users : List User
  deferred : ℕ

/-- The response to the request `download`, with the users still to be processed. -/
structure Processing (User Token Response : Type) where
  download : Download User Token
  remaining : List User
  response : User → Response

/-- The fields of a `DeviceList`, the callbacks still to run, and the two ghost
fields. -/
structure DeviceList (User Token Devices Response : Type) where
  devices : JsObject User Devices
  deviceTrackingStatus : JsObject User TrackingStatus
  keyDownloadsInProgressByUser : JsObject User ℕ
  syncToken : Option Token
  serialiser : DeviceListUpdateSerialiser User Token
  nextPromise : ℕ
  keyDownloads : List (KeyDownload User)
  processing : Option (Processing User Token Response)
  takenFrom : User → Option ℕ
  lastInvalidation : User → ℕ

namespace DeviceList

variable {User Token Devices Response : Type}

/-- The constructor. -/
def new : DeviceList User Token Devices Response where
  devices := .empty
  deviceTrackingStatus := .empty
  keyDownloadsInProgressByUser := .empty
  syncToken := none
  serialiser := .new
  nextPromise := 0
  keyDownloads := []
  processing := none
  takenFrom _ := none
  lastInvalidation _ := 0

/-- `this._deviceTrackingStatus[u]`; NOT_TRACKED and `undefined` are told apart nowhere. -/
def status (s : DeviceList User Token Devices Response) (u : User) : TrackingStatus :=
  (s.deviceTrackingStatus.get u).getD .notTracked

variable [DecidableEq User]

def setStatus (s : DeviceList User Token Devices Response) (u : User) (st : TrackingStatus) :
    DeviceList User Token Devices Response :=
  { s with deviceTrackingStatus := s.deviceTrackingStatus.set u st }

/-! ## Methods -/

def startTrackingDeviceList (s : DeviceList User Token Devices Response) (u : User) :
    DeviceList User Token Devices Response :=
  if s.status u = .notTracked then s.setStatus u .pendingDownload else s

def stopTrackingDeviceList (s : DeviceList User Token Devices Response) (u : User) :
    DeviceList User Token Devices Response :=
  if s.status u = .notTracked then s else s.setStatus u .notTracked

/-- The call is recorded even where it does nothing because the user is not tracked. -/
def invalidateUserDeviceList (s : DeviceList User Token Devices Response) (u : User) :
    DeviceList User Token Devices Response :=
  { s with
    lastInvalidation := Function.update s.lastInvalidation u s.serialiser.queriesSent
    deviceTrackingStatus :=
      if s.status u = .notTracked then s.deviceTrackingStatus
      else s.deviceTrackingStatus.set u .pendingDownload }

/-- The body of the loop `_doKeyDownload` ends with. -/
def recordDownload (promise : ℕ) (s : DeviceList User Token Devices Response) (u : User) :
    DeviceList User Token Devices Response :=
  { s with
    keyDownloadsInProgressByUser := s.keyDownloadsInProgressByUser.set u promise
    deviceTrackingStatus :=
      if s.status u = .pendingDownload then s.deviceTrackingStatus.set u .downloadInProgress
      else s.deviceTrackingStatus }

/-- `_doKeyDownload`. `none` if the serialiser throws, which it does not. -/
def doKeyDownload (s : DeviceList User Token Devices Response) (users : List User) :
    Option (DeviceList User Token Devices Response) :=
  if users = [] then some s
  else
    (s.serialiser.updateDevicesForUsers users s.syncToken).map fun r =>
      users.foldl (recordDownload s.nextPromise)
        { s with
          serialiser := r.1
          nextPromise := s.nextPromise + 1
          keyDownloads := s.keyDownloads ++ [⟨s.nextPromise, users, r.2⟩] }

def refreshOutdatedDeviceLists (s : DeviceList User Token Devices Response) :
    Option (DeviceList User Token Devices Response) :=
  s.doKeyDownload (s.deviceTrackingStatus.keys.filter (fun u => s.status u = .pendingDownload))

/-- `downloadKeys`: users with a download in progress only wait for it. -/
def downloadKeys (s : DeviceList User Token Devices Response) (userIds : List User)
    (forceDownload : Bool) : Option (DeviceList User Token Devices Response) :=
  s.doKeyDownload (userIds.filter fun u =>
    (s.keyDownloadsInProgressByUser.get u).isNone && (forceDownload || s.status u ≠ .upToDate))

/-- The body of the loop in `finished`. -/
def finishedUser (promise : ℕ) (success : Bool) (s : DeviceList User Token Devices Response)
    (u : User) : DeviceList User Token Devices Response :=
  -- another download was queued for this user: ignore the completion of this one
  if s.keyDownloadsInProgressByUser.get u ≠ some promise then s
  else { s with
    keyDownloadsInProgressByUser := s.keyDownloadsInProgressByUser.delete u
    deviceTrackingStatus :=
      if s.status u = .downloadInProgress then
        s.deviceTrackingStatus.set u (if success then .upToDate else .pendingDownload)
      else s.deviceTrackingStatus }

/-- The callback of a promise made by `_doKeyDownload`, once the deferred it waits
for is settled. -/
def finished (s : DeviceList User Token Devices Response) (promise : ℕ) :
    Option (DeviceList User Token Devices Response) :=
  (s.keyDownloads.find? (fun kd => kd.promise = promise)).bind fun kd =>
    (s.serialiser.settled kd.deferred).map fun r =>
      kd.users.foldl (finishedUser promise (r = .resolved))
        { s with keyDownloads := s.keyDownloads.filter (fun kd => kd.promise ≠ promise) }

/-! ## The callbacks of a request -/

/-- The response to a request arrives; its users are processed one by one later. -/
def responseArrives (s : DeviceList User Token Devices Response) (query : ℕ)
    (response : User → Response) : Option (DeviceList User Token Devices Response) :=
  if s.processing.isSome then none
  else
    (s.serialiser.downloads.find? (fun dl => dl.query = query)).map fun dl =>
      { s with processing := some ⟨dl, dl.downloadUsers, response⟩ }

/-- One turn of the loop over `downloadUsers`: `_processQueryResponseForUser`, whose
effect on the stored list is the parameter `process`. -/
def processUser (process : User → Option Devices → Response → Devices)
    (s : DeviceList User Token Devices Response) :
    Option (DeviceList User Token Devices Response) :=
  match s.processing with
  | some ⟨dl, u :: rest, response⟩ => some { s with
      devices := s.devices.set u (process u (s.devices.get u) (response u))
      takenFrom := Function.update s.takenFrom u (some dl.query)
      processing := some ⟨dl, rest, response⟩ }
  | _ => none

/-- The end of the loop: the serialiser's success callback. -/
def responseProcessed (s : DeviceList User Token Devices Response) :
    Option (DeviceList User Token Devices Response) :=
  match s.processing with
  | some ⟨dl, [], _⟩ => (s.serialiser.onSuccess dl).map fun ser =>
    { s with serialiser := ser, processing := none }
  | _ => none

/-- The request fails: the serialiser's failure callback. -/
def requestFails (s : DeviceList User Token Devices Response) (query : ℕ) :
    Option (DeviceList User Token Devices Response) :=
  if s.processing.isSome then none
  else
    (s.serialiser.downloads.find? (fun dl => dl.query = query)).map fun dl =>
      { s with serialiser := s.serialiser.onFailure dl }

end DeviceList

/-- A method call, or a callback. -/
inductive DeviceListEvent (User Token Response : Type)
  | setSyncToken (syncToken : Option Token)
  | startTrackingDeviceList (u : User)
  | stopTrackingDeviceList (u : User)
  | invalidateUserDeviceList (u : User)
  | refreshOutdatedDeviceLists
  | downloadKeys (userIds : List User) (forceDownload : Bool)
  | responseArrives (query : ℕ) (response : User → Response)
  | processUser
  | responseProcessed
  | requestFails (query : ℕ)
  | finished (promise : ℕ)

section Run

variable {User Token Devices Response : Type} [DecidableEq User]
variable (process : User → Option Devices → Response → Devices)

/-- One synchronous stretch of code. -/
def deviceListStep (s : DeviceList User Token Devices Response) :
    DeviceListEvent User Token Response → Option (DeviceList User Token Devices Response)
  | .setSyncToken t => some { s with syncToken := t }
  | .startTrackingDeviceList u => some (s.startTrackingDeviceList u)
  | .stopTrackingDeviceList u => some (s.stopTrackingDeviceList u)
  | .invalidateUserDeviceList u => some (s.invalidateUserDeviceList u)
  | .refreshOutdatedDeviceLists => s.refreshOutdatedDeviceLists
  | .downloadKeys us force => s.downloadKeys us force
  | .responseArrives q r => s.responseArrives q r
  | .processUser => s.processUser process
  | .responseProcessed => s.responseProcessed
  | .requestFails q => s.requestFails q
  | .finished p => s.finished p

/-- All runs of a fresh device list. -/
def deviceListSystem : System (DeviceList User Token Devices Response)
    (DeviceListEvent User Token Response) where
  init := .new
  step := deviceListStep process

end Run

/-! ## What the loops over users do -/

namespace DeviceList

variable {User Token Devices Response : Type} [DecidableEq User]

@[simp] theorem status_setStatus (s : DeviceList User Token Devices Response) (u v : User)
    (st : TrackingStatus) : (s.setStatus u st).status v = if v = u then st else s.status v := by
  simp only [status, setStatus, JsObject.get_set]
  split <;> rfl

/-- Two states that differ at most in what is tracked and in which promise is
recorded for whom. -/
structure SameDownloads (s s' : DeviceList User Token Devices Response) : Prop where
  serialiser : s'.serialiser = s.serialiser
  nextPromise : s'.nextPromise = s.nextPromise
  keyDownloads : s'.keyDownloads = s.keyDownloads
  processing : s'.processing = s.processing
  takenFrom : s'.takenFrom = s.takenFrom
  lastInvalidation : s'.lastInvalidation = s.lastInvalidation

omit [DecidableEq User] in
theorem SameDownloads.refl (s : DeviceList User Token Devices Response) : SameDownloads s s :=
  ⟨rfl, rfl, rfl, rfl, rfl, rfl⟩

omit [DecidableEq User] in
theorem SameDownloads.trans {s s' s'' : DeviceList User Token Devices Response}
    (h : SameDownloads s s') (h' : SameDownloads s' s'') : SameDownloads s s'' :=
  ⟨h'.serialiser.trans h.serialiser, h'.nextPromise.trans h.nextPromise,
    h'.keyDownloads.trans h.keyDownloads, h'.processing.trans h.processing,
    h'.takenFrom.trans h.takenFrom, h'.lastInvalidation.trans h.lastInvalidation⟩

section RecordDownload

variable (promise : ℕ) (s : DeviceList User Token Devices Response)

theorem recordDownload_sameDownloads (u : User) : SameDownloads s (recordDownload promise s u) :=
  ⟨rfl, rfl, rfl, rfl, rfl, rfl⟩

theorem recordDownload_get (u v : User) :
    (recordDownload promise s u).keyDownloadsInProgressByUser.get v =
      if v = u then some promise else s.keyDownloadsInProgressByUser.get v :=
  JsObject.get_set ..

theorem recordDownload_status (u v : User) :
    (recordDownload promise s u).status v =
      if v = u ∧ s.status v = .pendingDownload then .downloadInProgress else s.status v := by
  unfold recordDownload status
  by_cases hv : v = u
  · subst hv
    split <;> simp_all
  · split <;> simp [JsObject.get_set, hv]

/-- The loop of `_doKeyDownload` records the promise for every user of the list and
marks those that were waiting for a download. -/
theorem foldl_recordDownload (users : List User) :
    SameDownloads s (users.foldl (recordDownload promise) s) ∧ ∀ v,
      (users.foldl (recordDownload promise) s).keyDownloadsInProgressByUser.get v =
        (if v ∈ users then some promise else s.keyDownloadsInProgressByUser.get v) ∧
      (users.foldl (recordDownload promise) s).status v =
        if v ∈ users ∧ s.status v = .pendingDownload then .downloadInProgress
        else s.status v := by
  induction users generalizing s with
  | nil => exact ⟨.refl s, fun v => by simp⟩
  | cons u users ih =>
    obtain ⟨hsame, hv⟩ := ih (recordDownload promise s u)
    refine ⟨(recordDownload_sameDownloads promise s u).trans hsame, fun v => ?_⟩
    obtain ⟨hget, hst⟩ := hv v
    rw [List.foldl_cons, hget, hst, recordDownload_get, recordDownload_status]
    simp only [List.mem_cons]
    constructor <;> grind

end RecordDownload

section Finished

variable (promise : ℕ) (success : Bool) (s : DeviceList User Token Devices Response)

theorem finishedUser_sameDownloads (u : User) :
    SameDownloads s (finishedUser promise success s u) := by
  unfold finishedUser
  split <;> exact ⟨rfl, rfl, rfl, rfl, rfl, rfl⟩

theorem finishedUser_get (u v : User) :
    (finishedUser promise success s u).keyDownloadsInProgressByUser.get v =
      if v = u ∧ s.keyDownloadsInProgressByUser.get v = some promise then none
      else s.keyDownloadsInProgressByUser.get v := by
  unfold finishedUser
  by_cases hp : s.keyDownloadsInProgressByUser.get u = some promise
  · rw [if_neg (not_not.2 hp)]
    rw [JsObject.get_delete]
    by_cases hv : v = u <;> simp [hv, hp]
  · rw [if_pos hp, if_neg]
    rintro ⟨rfl, h⟩
    exact hp h

theorem finishedUser_status (u v : User) :
    (finishedUser promise success s u).status v =
      if v = u ∧ s.keyDownloadsInProgressByUser.get v = some promise ∧
          s.status v = .downloadInProgress then
        (if success then .upToDate else .pendingDownload)
      else s.status v := by
  unfold finishedUser
  by_cases hp : s.keyDownloadsInProgressByUser.get u = some promise
  · rw [if_neg (not_not.2 hp)]
    unfold status
    by_cases hv : v = u
    · subst hv
      by_cases hst : (s.deviceTrackingStatus.get v).getD .notTracked = .downloadInProgress <;>
        simp [hp, hst]
    · split <;> simp [JsObject.get_set, hv]
  · rw [if_pos hp, if_neg]
    rintro ⟨rfl, h, _⟩
    exact hp h

/-- The loop of `finished` only touches the users for whom the promise is still
the recorded one; a second occurrence of a user in the list finds nothing. -/
theorem foldl_finishedUser (users : List User) :
    SameDownloads s (users.foldl (finishedUser promise success) s) ∧ ∀ v,
      (users.foldl (finishedUser promise success) s).keyDownloadsInProgressByUser.get v =
        (if v ∈ users ∧ s.keyDownloadsInProgressByUser.get v = some promise then none
         else s.keyDownloadsInProgressByUser.get v) ∧
      (users.foldl (finishedUser promise success) s).status v =
        if v ∈ users ∧ s.keyDownloadsInProgressByUser.get v = some promise ∧
            s.status v = .downloadInProgress then
          (if success then .upToDate else .pendingDownload)
        else s.status v := by
  induction users generalizing s with
  | nil => exact ⟨.refl s, fun v => by simp⟩
  | cons u users ih =>
    obtain ⟨hsame, hv⟩ := ih (finishedUser promise success s u)
    refine ⟨(finishedUser_sameDownloads promise success s u).trans hsame, fun v => ?_⟩
    obtain ⟨hget, hst⟩ := hv v
    rw [List.foldl_cons, hget, hst, finishedUser_get, finishedUser_status]
    simp only [List.mem_cons]
    constructor <;> grind

end Finished

/-! ## The invariant -/

/-- A list taken from request `taken` is from after the invalidation at `last`. -/
def TakenAfter (last : ℕ) (taken : Option ℕ) : Prop := ∃ q, taken = some q ∧ last ≤ q

/-- What the serialiser still owes, or has given, to a promise that waits for the
deferred `d` on behalf of `u`: `u` is in the queue; or in the request in flight,
sent after the last invalidation; or its list has been taken from such a request;
or the request has failed. -/
def Expected (ser : DeviceListUpdateSerialiser User Token) (last : ℕ) (taken : Option ℕ)
    (u : User) (d : ℕ) : Prop :=
  (ser.queuedQueryDeferred = some d ∧ u ∈ ser.keyDownloadsQueuedByUser.keys) ∨
  (∃ dl ∈ ser.downloads, dl.deferred = d ∧ u ∈ dl.downloadUsers ∧ last ≤ dl.query) ∨
  (ser.settled d = some .resolved ∧ TakenAfter last taken) ∨
  ser.settled d = some .rejected

namespace Expected

variable {ser ser' : DeviceListUpdateSerialiser User Token} {last : ℕ} {taken : Option ℕ}
  {u : User} {d d' : ℕ} {dl : Download User Token}

theorem queue (h : Expected ser last taken u d) (users : List User) (tok : Option Token) :
    Expected (ser.queue users tok) last taken u d := by
  rcases h with ⟨hq, hu⟩ | h
  · refine .inl ⟨by simp [DeviceListUpdateSerialiser.queue, hq], ?_⟩
    exact JsObject.mem_keys_setAll.2 (.inr hu)
  · exact .inr h

omit [DecidableEq User] in
/-- The request that starts carries the whole queue, and is sent now. -/
theorem doQueuedQueries (h : Expected ser last taken u d) (hlast : last ≤ ser.queriesSent)
    (hs : ser.doQueuedQueries = some (ser', d')) : Expected ser' last taken u d := by
  obtain ⟨_, hq', rfl⟩ := DeviceListUpdateSerialiser.doQueuedQueries_eq_some.1 hs
  rcases h with ⟨hq, hu⟩ | ⟨dl, hdl, h⟩ | h
  · rw [hq, Option.some.injEq] at hq'
    exact .inr (.inl ⟨_, List.mem_append_right _ (List.mem_singleton_self _), hq'.symm, hu, hlast⟩)
  · exact .inr (.inl ⟨dl, List.mem_append_left _ hdl, h⟩)
  · exact .inr (.inr h)

omit [DecidableEq User] in
/-- A request that ends settles its own deferred, which was open until then. -/
theorem close (hwf : ser.WF) (hdl : dl ∈ ser.downloads) {r : Settlement}
    (hr : r = .resolved → u ∈ dl.downloadUsers → taken = some dl.query)
    (h : Expected ser last taken u d) : Expected (ser.close dl r) last taken u d := by
  obtain ⟨_, _, hopen, _⟩ := hwf.inFlight dl hdl
  have hkeep : ∀ x, ser.settled d = some x → (ser.close dl r).settled d = some x := by
    intro x hx
    have hne : d ≠ dl.deferred := by
      rintro rfl
      rw [hopen] at hx
      exact absurd hx (by simp)
    simpa [DeviceListUpdateSerialiser.close, DeviceListUpdateSerialiser.settle, hne] using hx
  rcases h with h | ⟨dl', hdl', rfl, hu, hlast⟩ | ⟨hset, h⟩ | hset
  · exact .inl h
  · rw [(hwf.downloads_eq_singleton hdl).1, List.mem_singleton] at hdl'
    subst hdl'
    have hset : (ser.close dl' r).settled dl'.deferred = some r := by
      simp [DeviceListUpdateSerialiser.close, DeviceListUpdateSerialiser.settle, hopen]
    cases r with
    | resolved => exact .inr (.inr (.inl ⟨hset, _, hr rfl hu, hlast⟩))
    | rejected => exact .inr (.inr (.inr hset))
  · exact .inr (.inr (.inl ⟨hkeep _ hset, h⟩))
  · exact .inr (.inr (.inr (hkeep _ hset)))

end Expected

/-- The invariant of all runs. The fields about users say that a download in
progress is recorded with a promise that will see it through, and that an
up-to-date list was taken after the last invalidation; the others are what they
need about the serialiser, the response being processed and the ghost fields. -/
structure Inv (s : DeviceList User Token Devices Response) : Prop where
  wf : s.serialiser.WF
  processing : ∀ p, s.processing = some p → p.download ∈ s.serialiser.downloads ∧
    ∀ u ∈ p.download.downloadUsers, u ∈ p.remaining ∨ s.takenFrom u = some p.download.query
  taken : ∀ u q, s.takenFrom u = some q →
    q < s.serialiser.queriesSent ∧ ∀ dl ∈ s.serialiser.downloads, q ≤ dl.query
  invalidated : ∀ u, s.lastInvalidation u ≤ s.serialiser.queriesSent
  promise_lt : ∀ kd ∈ s.keyDownloads, kd.promise < s.nextPromise
  promise_inj : ∀ kd ∈ s.keyDownloads, ∀ kd' ∈ s.keyDownloads, kd.promise = kd'.promise → kd = kd'
  inProgress : ∀ u, s.status u = .downloadInProgress → ∃ kd ∈ s.keyDownloads,
    s.keyDownloadsInProgressByUser.get u = some kd.promise ∧ u ∈ kd.users ∧
    Expected s.serialiser (s.lastInvalidation u) (s.takenFrom u) u kd.deferred
  upToDate : ∀ u, s.status u = .upToDate → TakenAfter (s.lastInvalidation u) (s.takenFrom u)

namespace Inv

variable {s s' : DeviceList User Token Devices Response}
  {process : User → Option Devices → Response → Devices}

omit [DecidableEq User] in
theorem new : (new : DeviceList User Token Devices Response).Inv where
  wf := .new
  processing _ h := by simp [DeviceList.new] at h
  taken _ _ h := by simp [DeviceList.new] at h
  invalidated _ := Nat.le_refl _
  promise_lt _ h := absurd h List.not_mem_nil
  promise_inj _ h := absurd h List.not_mem_nil
  inProgress _ h := absurd h TrackingStatus.noConfusion
  upToDate _ h := absurd h TrackingStatus.noConfusion

omit [DecidableEq User] in
/-- Changing what is tracked keeps the invariant if the users that are then in
progress or up to date were so before, with the same promise recorded. -/
theorem of_sameDownloads (hI : s.Inv) (h : SameDownloads s s')
    (hprog : ∀ u, s'.status u = .downloadInProgress → s.status u = .downloadInProgress ∧
      s'.keyDownloadsInProgressByUser.get u = s.keyDownloadsInProgressByUser.get u)
    (hup : ∀ u, s'.status u = .upToDate → s.status u = .upToDate) : s'.Inv := by
  obtain ⟨h1, h2, h3, h4, h5, h6⟩ := h
  refine ⟨?_, ?_, ?_, ?_, ?_, ?_, fun u hu => ?_, fun u hu => ?_⟩
  · rw [h1]; exact hI.wf
  · rw [h4, h1, h5]; exact hI.processing
  · rw [h5, h1]; exact hI.taken
  · rw [h6, h1]; exact hI.invalidated
  · rw [h3, h2]; exact hI.promise_lt
  · rw [h3]; exact hI.promise_inj
  · obtain ⟨hst, hget⟩ := hprog u hu
    rw [h3, hget, h1, h5, h6]
    exact hI.inProgress u hst
  · rw [h5, h6]
    exact hI.upToDate u (hup u hu)

theorem setStatus (hI : s.Inv) {u : User} {st : TrackingStatus} (h1 : st ≠ .downloadInProgress)
    (h2 : st ≠ .upToDate) : (s.setStatus u st).Inv := by
  refine hI.of_sameDownloads ⟨rfl, rfl, rfl, rfl, rfl, rfl⟩ (fun v hv => ?_) (fun v hv => ?_)
  · rw [status_setStatus] at hv
    split at hv
    · exact absurd hv h1
    · exact ⟨hv, rfl⟩
  · rw [status_setStatus] at hv
    split at hv
    · exact absurd hv h2
    · exact hv

theorem startTrackingDeviceList (hI : s.Inv) (u : User) : (s.startTrackingDeviceList u).Inv := by
  unfold DeviceList.startTrackingDeviceList
  split
  · exact hI.setStatus (by decide) (by decide)
  · exact hI

theorem stopTrackingDeviceList (hI : s.Inv) (u : User) : (s.stopTrackingDeviceList u).Inv := by
  unfold DeviceList.stopTrackingDeviceList
  split
  · exact hI
  · exact hI.setStatus (by decide) (by decide)

theorem status_invalidateUserDeviceList (u v : User) :
    (s.invalidateUserDeviceList u).status v =
      if v = u ∧ s.status v ≠ .notTracked then .pendingDownload else s.status v := by
  unfold DeviceList.invalidateUserDeviceList status
  by_cases hv : v = u
  · subst hv
    by_cases hn : (s.deviceTrackingStatus.get v).getD .notTracked = .notTracked <;>
      simp [hn]
  · split <;> simp [JsObject.get_set, hv]

/-- An invalidation leaves the user neither up to date nor in progress, whatever
request is under way for him. -/
theorem invalidateUserDeviceList (hI : s.Inv) (u : User) : (s.invalidateUserDeviceList u).Inv := by
  have hkeep : ∀ v st, (s.invalidateUserDeviceList u).status v = st →
      st = .downloadInProgress ∨ st = .upToDate → s.status v = st ∧
      (s.invalidateUserDeviceList u).lastInvalidation v = s.lastInvalidation v := by
    rintro v st rfl hst
    rw [status_invalidateUserDeviceList] at hst ⊢
    have hv : v ≠ u := by
      rintro rfl
      by_cases hn : s.status v = .notTracked <;> simp [hn] at hst
    rw [if_neg (fun h => hv h.1)]
    exact ⟨rfl, Function.update_of_ne hv _ _⟩
  refine ⟨hI.wf, hI.processing, hI.taken, fun v => ?_, hI.promise_lt, hI.promise_inj,
    fun v hv => ?_, fun v hv => ?_⟩
  · by_cases hv : v = u
    · subst hv
      exact Nat.le_of_eq (Function.update_self v _ s.lastInvalidation)
    · exact Nat.le_trans (Nat.le_of_eq (Function.update_of_ne hv _ s.lastInvalidation))
        (hI.invalidated v)
  · obtain ⟨hst, hlast⟩ := hkeep v _ hv (.inl rfl)
    rw [hlast]
    exact hI.inProgress v hst
  · obtain ⟨hst, hlast⟩ := hkeep v _ hv (.inr rfl)
    rw [hlast]
    exact hI.upToDate v hst

/-- A request is queued or sent for a new promise, which then can count on it. -/
theorem updateDevicesForUsers (hI : s.Inv) (users : List User)
    {r : DeviceListUpdateSerialiser User Token × ℕ}
    (hr : s.serialiser.updateDevicesForUsers users s.syncToken = some r) :
    let s₁ : DeviceList User Token Devices Response := { s with
      serialiser := r.1
      nextPromise := s.nextPromise + 1
      keyDownloads := s.keyDownloads ++ [⟨s.nextPromise, users, r.2⟩] }
    s₁.Inv ∧ ∀ u ∈ users,
      Expected r.1 (s.lastInvalidation u) (s.takenFrom u) u r.2 := by
  rw [DeviceListUpdateSerialiser.updateDevicesForUsers_eq] at hr
  -- what is needed of the new serialiser, whether the call queued or sent
  obtain ⟨hwf, hdls, hsent, hexp, hnew⟩ : r.1.WF ∧
      (∀ dl ∈ r.1.downloads, dl ∈ s.serialiser.downloads ∨ dl.query = s.serialiser.queriesSent) ∧
      (s.serialiser.queriesSent ≤ r.1.queriesSent ∧
        ∀ dl ∈ s.serialiser.downloads, dl ∈ r.1.downloads) ∧
      (∀ last taken u d, last ≤ s.serialiser.queriesSent →
        Expected s.serialiser last taken u d → Expected r.1 last taken u d) ∧
      (∀ last taken u, last ≤ s.serialiser.queriesSent → u ∈ users →
        Expected r.1 last taken u r.2) := by
    have hq : ∀ last taken u, u ∈ users → Expected (s.serialiser.queue users s.syncToken) last
        taken u (s.serialiser.queuedQueryDeferred.getD s.serialiser.nextDeferred) :=
      fun last taken u hu => .inl ⟨rfl, JsObject.mem_keys_setAll.2 (.inl hu)⟩
    split at hr
    · rw [Option.some.injEq] at hr
      subst hr
      exact ⟨hI.wf.queue _ _, fun dl hdl => .inl hdl, ⟨Nat.le_refl _, fun dl hdl => hdl⟩,
        fun _ _ _ _ _ h => h.queue _ _, fun last taken u _ hu => hq last taken u hu⟩
    · obtain ⟨ser, d⟩ := r
      obtain ⟨hp, hd, hser⟩ := DeviceListUpdateSerialiser.doQueuedQueries_eq_some.1 hr
      have hwf := hI.wf.queue users s.syncToken
      have hdd : s.serialiser.queuedQueryDeferred.getD s.serialiser.nextDeferred = d := by
        simpa [DeviceListUpdateSerialiser.queue] using hd
      refine ⟨hwf.doQueuedQueries hr, fun dl hdl => ?_, ⟨?_, fun dl hdl => ?_⟩,
        fun _ _ _ _ hlast h => (h.queue _ _).doQueuedQueries hlast hr,
        fun last taken u hlast hu => hdd ▸ (hq last taken u hu).doQueuedQueries hlast hr⟩
      · simp only [hser, List.mem_append, List.mem_singleton] at hdl
        exact hdl.imp id (fun h => by rw [h]; rfl)
      · simp only [hser]
        exact Nat.le_succ _
      · simp only [hser]
        exact List.mem_append_left _ hdl
  refine ⟨⟨hwf, fun p hp => ?_, fun u q hu => ?_, fun u => ?_, fun kd hkd => ?_,
    fun kd hkd kd' hkd' he => ?_, fun u hu => ?_, hI.upToDate⟩, fun u hu =>
    hnew _ _ u (hI.invalidated u) hu⟩
  · obtain ⟨h1, h2⟩ := hI.processing p hp
    exact ⟨hsent.2 _ h1, h2⟩
  · obtain ⟨h1, h2⟩ := hI.taken u q hu
    refine ⟨Nat.lt_of_lt_of_le h1 hsent.1, fun dl hdl => ?_⟩
    rcases hdls dl hdl with h | h
    · exact h2 dl h
    · rw [h]
      exact Nat.le_of_lt h1
  · exact Nat.le_trans (hI.invalidated u) hsent.1
  · rcases List.mem_append.1 hkd with h | h
    · exact Nat.lt_succ_of_lt (hI.promise_lt kd h)
    · rw [List.mem_singleton.1 h]
      exact Nat.lt_succ_self _
  · rcases List.mem_append.1 hkd with h | h <;> rcases List.mem_append.1 hkd' with h' | h'
    · exact hI.promise_inj kd h kd' h' he
    · have := hI.promise_lt kd h
      rw [he, List.mem_singleton.1 h'] at this
      exact absurd this (Nat.lt_irrefl _)
    · have := hI.promise_lt kd' h'
      rw [← he, List.mem_singleton.1 h] at this
      exact absurd this (Nat.lt_irrefl _)
    · rw [List.mem_singleton.1 h, List.mem_singleton.1 h']
  · obtain ⟨kd, hkd, hget, hmem, hexp'⟩ := hI.inProgress u hu
    exact ⟨kd, List.mem_append_left _ hkd, hget, hmem, hexp _ _ _ _ (hI.invalidated u) hexp'⟩

/-- `_doKeyDownload`: the users it marks as in progress are those it asks for. -/
theorem doKeyDownload (hI : s.Inv) {users : List User} (h : s.doKeyDownload users = some s') :
    s'.Inv := by
  unfold DeviceList.doKeyDownload at h
  split at h
  · rw [Option.some.injEq] at h
    exact h ▸ hI
  · obtain ⟨r, hr, rfl⟩ := Option.map_eq_some_iff.1 h
    obtain ⟨hI₁, hnew⟩ := hI.updateDevicesForUsers users hr
    obtain ⟨hsame, hv⟩ := foldl_recordDownload s.nextPromise
      { s with
        serialiser := r.1
        nextPromise := s.nextPromise + 1
        keyDownloads := s.keyDownloads ++ [⟨s.nextPromise, users, r.2⟩] } users
    obtain ⟨h1, h2, h3, h4, h5, h6⟩ := hsame
    refine ⟨?_, ?_, ?_, ?_, ?_, ?_, fun u hu => ?_, fun u hu => ?_⟩
    · rw [h1]; exact hI₁.wf
    · rw [h4, h1, h5]; exact hI₁.processing
    · rw [h5, h1]; exact hI₁.taken
    · rw [h6, h1]; exact hI₁.invalidated
    · rw [h3, h2]; exact hI₁.promise_lt
    · rw [h3]; exact hI₁.promise_inj
    · obtain ⟨hget, hst⟩ := hv u
      rw [h3, hget, h1, h6, h5]
      by_cases hmem : u ∈ users
      · rw [if_pos hmem]
        exact ⟨_, List.mem_append_right _ (List.mem_singleton_self _), rfl, hmem, hnew u hmem⟩
      · rw [if_neg hmem]
        rw [hst, if_neg (fun h => hmem h.1)] at hu
        exact hI₁.inProgress u hu
    · rw [h5, h6]
      rw [(hv u).2] at hu
      split at hu
      · exact absurd hu TrackingStatus.noConfusion
      · exact hI₁.upToDate u hu

omit [DecidableEq User] in
theorem responseArrives (hI : s.Inv) {q : ℕ} {response : User → Response}
    (h : s.responseArrives q response = some s') : s'.Inv := by
  unfold DeviceList.responseArrives at h
  split at h
  · exact absurd h (by simp)
  · obtain ⟨dl, hdl, rfl⟩ := Option.map_eq_some_iff.1 h
    refine { hI with processing := fun p hp => ?_ }
    obtain rfl : _ = p := Option.some.inj hp
    exact ⟨List.mem_of_find?_eq_some hdl, fun u hu => .inl hu⟩

/-- Processing a user replaces his list by one from the request in flight, which is
no older than the request the list came from before. -/
theorem processUser (hI : s.Inv) (h : s.processUser process = some s') : s'.Inv := by
  unfold DeviceList.processUser at h
  split at h
  next dl u rest response hp =>
    obtain rfl := Option.some.inj h
    obtain ⟨hdl, hrem⟩ := hI.processing _ hp
    have hlater : ∀ v, TakenAfter (s.lastInvalidation v) (s.takenFrom v) →
        TakenAfter (s.lastInvalidation v)
          (Function.update s.takenFrom u (some dl.query) v) := by
      rintro v ⟨q, hq, hle⟩
      by_cases hv : v = u
      · subst hv
        exact ⟨_, Function.update_self .., Nat.le_trans hle ((hI.taken v q hq).2 dl hdl)⟩
      · exact ⟨q, by rw [Function.update_of_ne hv, hq], hle⟩
    refine ⟨hI.wf, fun p hp' => ?_, fun v q hq => ?_, hI.invalidated, hI.promise_lt,
      hI.promise_inj, fun v hv => ?_, fun v hv => hlater v (hI.upToDate v hv)⟩
    · obtain rfl := Option.some.inj hp'
      refine ⟨hdl, fun v hv => ?_⟩
      by_cases hvu : v = u
      · subst hvu
        exact .inr (Function.update_self ..)
      · rcases hrem v hv with h | h
        · exact .inl ((List.mem_cons.1 h).resolve_left hvu)
        · exact .inr ((Function.update_of_ne hvu ..).trans h)
    · change Function.update s.takenFrom u (some dl.query) v = some q at hq
      by_cases hvu : v = u
      · subst hvu
        rw [Function.update_self, Option.some.injEq] at hq
        subst hq
        refine ⟨(hI.wf.inFlight dl hdl).1, fun dl' hdl' => ?_⟩
        rw [(hI.wf.downloads_eq_singleton hdl).1, List.mem_singleton] at hdl'
        subst hdl'
        exact Nat.le_refl _
      · rw [Function.update_of_ne hvu] at hq
        exact hI.taken v q hq
    · obtain ⟨kd, hkd, hget, hmem, hexp⟩ := hI.inProgress v hv
      refine ⟨kd, hkd, hget, hmem, ?_⟩
      rcases hexp with h | h | ⟨h, h'⟩ | h
      · exact .inl h
      · exact .inr (.inl h)
      · exact .inr (.inr (.inl ⟨h, hlater v h'⟩))
      · exact .inr (.inr (.inr h))
  · exact absurd h (by simp)

section

omit [DecidableEq User]

/-- Replacing the serialiser by one that owes every promise no less and has no
request in flight that the old one did not have. -/
theorem of_serialiser (hI : s.Inv) {ser : DeviceListUpdateSerialiser User Token} (hwf : ser.WF)
    (hsent : s.serialiser.queriesSent ≤ ser.queriesSent)
    (hdls : ∀ dl ∈ ser.downloads, s.serialiser.queriesSent ≤ dl.query)
    (hexp : ∀ u d, Expected s.serialiser (s.lastInvalidation u) (s.takenFrom u) u d →
      Expected ser (s.lastInvalidation u) (s.takenFrom u) u d) :
    ({ s with serialiser := ser, processing := none } :
      DeviceList User Token Devices Response).Inv := by
  refine ⟨hwf, fun p hp => absurd hp (by simp), fun u q hq => ?_,
    fun u => Nat.le_trans (hI.invalidated u) hsent, hI.promise_lt, hI.promise_inj, fun u hu => ?_,
    hI.upToDate⟩
  · obtain ⟨hlt, _⟩ := hI.taken u q hq
    exact ⟨Nat.lt_of_lt_of_le hlt hsent, fun dl hdl => Nat.le_trans (Nat.le_of_lt hlt) (hdls dl hdl)⟩
  · obtain ⟨kd, hkd, hget, hmem, h⟩ := hI.inProgress u hu
    exact ⟨kd, hkd, hget, hmem, hexp u _ h⟩

/-- At the end of the loop the list of every user of the request is from it. -/
theorem responseProcessed (hI : s.Inv) (h : s.responseProcessed = some s') : s'.Inv := by
  unfold DeviceList.responseProcessed at h
  split at h
  next dl response hp =>
    obtain ⟨ser, hser, rfl⟩ := Option.map_eq_some_iff.1 h
    obtain ⟨hdl, hdone⟩ := hI.processing _ hp
    have hclose : ∀ u d, Expected s.serialiser (s.lastInvalidation u) (s.takenFrom u) u d →
        Expected (s.serialiser.close dl .resolved) (s.lastInvalidation u) (s.takenFrom u) u d :=
      fun u d h => h.close hI.wf hdl fun _ hu =>
        (hdone u hu).resolve_left List.not_mem_nil
    have hwf := hI.wf.close hdl .resolved
    have hnil := hI.wf.close_downloads hdl .resolved
    rw [DeviceListUpdateSerialiser.onSuccess_eq] at hser
    split at hser
    · obtain ⟨r, hr, rfl⟩ := Option.map_eq_some_iff.1 hser
      obtain ⟨_, _, heq⟩ := DeviceListUpdateSerialiser.doQueuedQueries_eq_some.1 hr
      refine hI.of_serialiser (hwf.doQueuedQueries hr) ?_ (fun dl' hdl' => ?_)
        (fun u d h => (hclose u d h).doQueuedQueries (hI.invalidated u) hr)
      · rw [heq]
        exact Nat.le_succ _
      · rw [heq, hnil, List.nil_append, List.mem_singleton] at hdl'
        exact Nat.le_of_eq (by rw [hdl']; rfl)
    · obtain rfl := Option.some.inj hser
      refine hI.of_serialiser hwf (Nat.le_refl _) (fun dl' hdl' => ?_) hclose
      rw [hnil] at hdl'
      exact absurd hdl' List.not_mem_nil
  · exact absurd h (by simp)

theorem requestFails (hI : s.Inv) {q : ℕ} (h : s.requestFails q = some s') : s'.Inv := by
  unfold DeviceList.requestFails at h
  split at h
  · exact absurd h (by simp)
  next hnone =>
    obtain ⟨dl, hfind, rfl⟩ := Option.map_eq_some_iff.1 h
    have hdl := List.mem_of_find?_eq_some hfind
    have hI' := hI.of_serialiser (hI.wf.close hdl .rejected) (Nat.le_refl _)
      (fun dl' hdl' => by
        rw [hI.wf.close_downloads hdl .rejected] at hdl'
        exact absurd hdl' List.not_mem_nil)
      (fun u d h => h.close hI.wf hdl fun hr => absurd hr (by decide))
    have hp : s.processing = none := by simpa using hnone
    simpa [DeviceListUpdateSerialiser.onFailure, hp] using hI'

end

/-- A user is only marked up to date while the finished promise is the recorded
one, and then its request was sent after the last invalidation. -/
theorem finished (hI : s.Inv) {promise : ℕ} (h : s.finished promise = some s') : s'.Inv := by
  obtain ⟨kd, hfind, hkd⟩ := Option.bind_eq_some_iff.1 h
  obtain ⟨r, hr, rfl⟩ := Option.map_eq_some_iff.1 hkd
  have hmem := List.mem_of_find?_eq_some hfind
  obtain rfl : kd.promise = promise := by simpa using List.find?_some hfind
  obtain ⟨hsame, hv⟩ := foldl_finishedUser kd.promise (r = .resolved)
    { s with keyDownloads := s.keyDownloads.filter (fun kd' => kd'.promise ≠ kd.promise) } kd.users
  obtain ⟨h1, h2, h3, h4, h5, h6⟩ := hsame
  -- the record of a user in progress determines the promise, hence the deferred
  have hown : ∀ u, s.status u = .downloadInProgress →
      s.keyDownloadsInProgressByUser.get u = some kd.promise →
      u ∈ kd.users ∧ Expected s.serialiser (s.lastInvalidation u) (s.takenFrom u) u kd.deferred := by
    intro u hu hget
    obtain ⟨kd', hkd', hget', hmem', hexp⟩ := hI.inProgress u hu
    rw [hget, Option.some.injEq] at hget'
    obtain rfl := hI.promise_inj kd hmem kd' hkd' hget'
    exact ⟨hmem', hexp⟩
  refine ⟨?_, ?_, ?_, ?_, ?_, ?_, fun u hu => ?_, fun u hu => ?_⟩
  · rw [h1]; exact hI.wf
  · rw [h4, h1, h5]; exact hI.processing
  · rw [h5, h1]; exact hI.taken
  · rw [h6, h1]; exact hI.invalidated
  · rw [h3, h2]
    exact fun kd' hkd' => hI.promise_lt kd' (List.mem_of_mem_filter hkd')
  · rw [h3]
    exact fun a ha b hb => hI.promise_inj a (List.mem_of_mem_filter ha) b (List.mem_of_mem_filter hb)
  · obtain ⟨hget, hst⟩ := hv u
    rw [hst] at hu
    split at hu
    · split at hu <;> exact absurd hu TrackingStatus.noConfusion
    next hn =>
      have hne : s.keyDownloadsInProgressByUser.get u ≠ some kd.promise :=
        fun he => hn ⟨(hown u hu he).1, he, hu⟩
      obtain ⟨kd', hkd', hget', hmem', hexp⟩ := hI.inProgress u hu
      refine ⟨kd', ?_, ?_, hmem', ?_⟩
      · rw [h3]
        refine List.mem_filter.2 ⟨hkd', ?_⟩
        simpa using fun he => hne (by rw [hget', he])
      · rw [hget, if_neg (fun h => hne h.2)]
        exact hget'
      · rw [h1, h6, h5]
        exact hexp
  · rw [h5, h6]
    rw [(hv u).2] at hu
    split at hu
    next hc =>
      split at hu
      next hres =>
        rcases (hown u hc.2.2 hc.2.1).2 with ⟨hq, _⟩ | ⟨dl, hdl, hd, _⟩ | ⟨_, h⟩ | hrej
        · rw [(hI.wf.queued _ hq).2] at hr
          exact absurd hr (by simp)
        · rw [← hd, (hI.wf.inFlight dl hdl).2.2.1] at hr
          exact absurd hr (by simp)
        · exact h
        · rw [hrej, Option.some.injEq] at hr
          rw [← hr] at hres
          exact absurd hres (by decide)
      · exact absurd hu TrackingStatus.noConfusion
    · exact hI.upToDate u hu

theorem step (hI : s.Inv) {e : DeviceListEvent User Token Response}
    (h : deviceListStep process s e = some s') : s'.Inv := by
  cases e with
  | setSyncToken tok => exact Option.some.inj h ▸ { hI with }
  | startTrackingDeviceList u => exact Option.some.inj h ▸ hI.startTrackingDeviceList u
  | stopTrackingDeviceList u => exact Option.some.inj h ▸ hI.stopTrackingDeviceList u
  | invalidateUserDeviceList u => exact Option.some.inj h ▸ hI.invalidateUserDeviceList u
  | refreshOutdatedDeviceLists => exact hI.doKeyDownload h
  | downloadKeys us force => exact hI.doKeyDownload h
  | responseArrives q response => exact hI.responseArrives h
  | processUser => exact hI.processUser h
  | responseProcessed => exact hI.responseProcessed h
  | requestFails q => exact hI.requestFails h
  | finished promise => exact hI.finished h

end Inv

end DeviceList

/-! ## Up to date means queried after the last invalidation -/

section Run

variable {User Token Devices Response : Type} [DecidableEq User]
variable (process : User → Option Devices → Response → Devices)

/-- **In every reachable state**, the stored device list of a user whose status is
UP_TO_DATE was taken from a request sent after the last invalidation of that user. -/
theorem upToDate_after_invalidation {s : DeviceList User Token Devices Response}
    (h : (deviceListSystem process).Reachable s) {u : User} (hu : s.status u = .upToDate) :
    ∃ q, s.takenFrom u = some q ∧ s.lastInvalidation u ≤ q := by
  have hI : s.Inv := by
    refine System.Reachable.invariant (P := DeviceList.Inv) .new ?_ h
    intro s e s' hI hs
    exact hI.step hs
  exact hI.upToDate u hu

/-- Device lists whose content is a number, replaced by the one in the response. -/
abbrev numberListSystem : System (DeviceList ℕ ℕ ℕ ℕ) (DeviceListEvent ℕ ℕ ℕ) :=
  deviceListSystem fun _ _ r => r

/-- A user whose list is downloaded once. -/
def downloadedOnce : List (DeviceListEvent ℕ ℕ ℕ) :=
  [.startTrackingDeviceList 0, .refreshOutdatedDeviceLists, .responseArrives 0 id, .processUser,
    .responseProcessed, .finished 0]

theorem downloadedOnce_runs : (numberListSystem.run downloadedOnce).isSome := by decide

theorem upToDate_after_invalidation_downloadedOnce :
    ∃ s, numberListSystem.Reachable s ∧ s.status 0 = .upToDate ∧
      ∃ q, s.takenFrom 0 = some q ∧ s.lastInvalidation 0 ≤ q := by
  have hreach := System.reachable_get downloadedOnce_runs
  exact ⟨_, hreach, by decide, upToDate_after_invalidation _ hreach (by decide)⟩

end Run

end MatrixSdk.Crypto
