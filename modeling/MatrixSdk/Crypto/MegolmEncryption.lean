/-
The outbound group sessions of a room: `MegolmEncryption` of `crypto/algorithms/megolm.js`,
from the calls of `encryptMessage` and `prepareToEncrypt` to the keys that go out and the
messages that are encrypted.

The calls prepare their sessions one after the other, on `_setupPromise`. But a preparation
is over when its promise is settled, and three things then go on by themselves: the call
that has waited for it, which has yet to encrypt its message; the requests of a preparation that has
failed in another of its branches; and the second phase of the Olm sessions, which runs in the
background. The keys that these send are of the session that the next preparation finds.

Of a device only the identity key is kept, and of a notification of a blocked or failed device
only whether it succeeds. What the network and Olm make of a request comes with the step.
-/
import MatrixSdk.Lib.JsObject
import MatrixSdk.Lib.System
import Mathlib.Data.Int.Notation

set_option autoImplicit false

namespace MatrixSdk.Crypto

open MatrixSdk.Lib

/-! ## Devices -/

structure DeviceRef where
  userId : String
  deviceId : String
  deriving DecidableEq

/-- `devicesInRoom`: the identity keys of the devices, by user and device. -/
abbrev DevicesInRoom := JsObject String (JsObject String String)

def InRoom (devicesInRoom : DevicesInRoom) (device : DeviceRef) : Prop :=
  ((devicesInRoom.get device.userId).bind fun userDevices => userDevices.get device.deviceId).isSome

instance (devicesInRoom : DevicesInRoom) (device : DeviceRef) :
    Decidable (InRoom devicesInRoom device) :=
  inferInstanceAs (Decidable (Option.isSome _ = true))

/-- A map from a user to a list of his devices. -/
abbrev DevicesByUser := List (String × List String)

namespace DevicesByUser

def devices (devicesByUser : DevicesByUser) : List DeviceRef :=
  devicesByUser.flatMap fun (userId, deviceIds) => deviceIds.map (DeviceRef.mk userId)

/-- The devices with a property; a user without one is not in the map. -/
def filter (p : DeviceRef → Bool) (devicesByUser : DevicesByUser) : DevicesByUser :=
  devicesByUser.filterMap fun (userId, deviceIds) =>
    let deviceIds := deviceIds.filter fun deviceId => p ⟨userId, deviceId⟩
    if deviceIds = [] then none else some (userId, deviceIds)

/-- The map that pushing the devices one after the other gives. -/
def ofDevices (devices : List DeviceRef) : DevicesByUser :=
  (devices.map DeviceRef.userId).eraseDups.map fun userId =>
    (userId, (devices.filter fun device => device.userId = userId).map DeviceRef.deviceId)

/-- The body of the loop of `_splitDevices`: the slices that are full, and the current one. -/
def splitUser (slices : List (List DeviceRef) × List DeviceRef) (user : String × List String) :
    List (List DeviceRef) × List DeviceRef :=
  let currentSlice := slices.2 ++ user.2.map (DeviceRef.mk user.1)
  -- "its not a hard limit so that is fine"
  if currentSlice.length > 20 then (slices.1 ++ [currentSlice], [])
  else (slices.1, currentSlice)

/-- `_splitDevices`. -/
def splitDevices (devicesByUser : DevicesByUser) : List (List DeviceRef) :=
  let (mapSlices, currentSlice) := devicesByUser.foldl splitUser ([], [])
  if currentSlice = [] then mapSlices else mapSlices ++ [currentSlice]

end DevicesByUser

/-! ## Outbound sessions -/

/-- `OutboundSessionInfo`, and the message index of the Olm session. -/
structure OutboundSessionInfo where
  useCount : ℕ
  creationTime : ℤ
  sharedWithDevices : JsObject String (JsObject String ℕ)
  messageIndex : ℕ

/-- The two periods after which a session is replaced. -/
structure RotationConfig where
  rotationPeriodMsgs : ℕ
  rotationPeriodMs : ℤ

namespace OutboundSessionInfo

def new (creationTime : ℤ) : OutboundSessionInfo := ⟨0, creationTime, .empty, 0⟩

def needsRotation (session : OutboundSessionInfo) (config : RotationConfig) (now : ℤ) : Bool :=
  config.rotationPeriodMsgs ≤ session.useCount ||
    config.rotationPeriodMs ≤ now - session.creationTime

def markSharedWithDevice (chainIndex : ℕ) (session : OutboundSessionInfo) (device : DeviceRef) :
    OutboundSessionInfo :=
  let ofUser := (session.sharedWithDevices.get device.userId).getD .empty
  let ofUser := ofUser.set device.deviceId chainIndex
  { session with sharedWithDevices := session.sharedWithDevices.set device.userId ofUser }

def isShared (session : OutboundSessionInfo) (device : DeviceRef) : Bool :=
  ((session.sharedWithDevices.get device.userId).bind fun ofUser =>
    ofUser.get device.deviceId).isSome

def sharedWithTooManyDevices (session : OutboundSessionInfo) (devicesInRoom : DevicesInRoom) :
    Bool :=
  session.sharedWithDevices.keys.any fun userId =>
    match devicesInRoom.get userId with
    | none => true
    | some userDevices =>
      ((session.sharedWithDevices.get userId).getD .empty).keys.any fun deviceId =>
        (userDevices.get deviceId).isNone

/-- `shareMap`: the devices in the room that the session has not been shared with. -/
def shareMap (session : OutboundSessionInfo) (deviceCurve25519Key : String)
    (devicesInRoom : DevicesInRoom) : DevicesByUser :=
  let all : DevicesByUser := devicesInRoom.keys.map fun userId =>
    (userId, ((devicesInRoom.get userId).getD .empty).keys)
  all.filter fun device =>
    let key := (devicesInRoom.get device.userId).bind fun devices => devices.get device.deviceId
    -- "don't bother sending to ourself"
    key ≠ some deviceCurve25519Key ∧ !session.isShared device

end OutboundSessionInfo

/-! ## Preparing a session -/

/-- A call of `_ensureOutboundSession`: by `encryptMessage`, or by `prepareToEncrypt`, which does
not encrypt and wants a single phase of Olm sessions. -/
structure MegolmCall where
  devicesInRoom : DevicesInRoom
  encrypts : Bool

/-- What has been chained on `_setupPromise`. -/
inductive SetupJob
  | prepareSession (call : MegolmCall)
  | forceDiscardSession

/-- Where a preparation is. -/
inductive PrepareStage
  /-- `_prepareNewSession` -/
  | creating
  /-- `getExistingOlmSessions`; the key has been read at this index. -/
  | lookingUp (shareMap : DevicesByUser) (chainIndex : ℕ)
  /-- `Promise.all`, with this many branches left. -/
  | sharing (unfinished : ℕ)

/-- A preparation. They are numbered in the order in which they start. -/
structure Preparing where
  id : ℕ
  call : MegolmCall
  session : ℕ
  stage : PrepareStage

/-- Which devices a branch sends the key to: those we have an Olm session with, those
that one is established with, and those for which this is tried again. -/
inductive ShareKind
  | existing
  | new
  | retry
  deriving DecidableEq

/-- Where a branch is. `failed` are the devices there is no Olm session with. -/
inductive SharePhase
  /-- `ensureOlmSessionsForDevices` -/
  | claiming (devices : DevicesByUser) (failed : List DeviceRef)
  /-- The next slice is about to be encrypted. -/
  | sharing (slices : List (List DeviceRef)) (failed : List DeviceRef)
  /-- The request with the slice is on its way. -/
  | sending (slice : List DeviceRef) (slices : List (List DeviceRef)) (failed : List DeviceRef)
  /-- `_notifyBlockedDevices` -/
  | notifying

/-- A branch of a preparation. `owner` is the preparation that waits for it. -/
structure ShareTask where
  session : ℕ
  chainIndex : ℕ
  owner : Option ℕ
  kind : ShareKind
  singleOlmCreationPhase : Bool
  phase : SharePhase

/-- The devices that a branch may still send the key to. -/
def ShareTask.devices (task : ShareTask) : List DeviceRef :=
  let retried (failed : List DeviceRef) := if task.kind = .new then failed else []
  match task.phase with
  | .claiming devices failed => devices.devices ++ retried failed
  | .sharing slices failed => slices.flatten ++ retried failed
  | .sending _ slices failed => slices.flatten ++ retried failed
  | .notifying => []

structure KeySent where
  session : ℕ
  chainIndex : ℕ
  device : DeviceRef

structure MessageEncrypted where
  session : ℕ
  index : ℕ
  devicesInRoom : DevicesInRoom

/-- The sessions of a room, with the calls and requests in progress. The `id` of a session
is its number. `setup` is what `_setupPromise` resolves to, up to the jobs in the queue;
`prepared` are the calls that have a session and are to encrypt with it. -/
structure MegolmState where
  sessions : ℕ → OutboundSessionInfo
  nextSession : ℕ
  nextPrepare : ℕ
  setup : Option ℕ
  queue : List SetupJob
  running : Option Preparing
  tasks : List ShareTask
  prepared : List (MegolmCall × ℕ)
  sent : List KeySent
  encrypted : List MessageEncrypted

namespace MegolmState

def updateSession (s : MegolmState) (session : ℕ)
    (f : OutboundSessionInfo → OutboundSessionInfo) : MegolmState :=
  { s with sessions := Function.update s.sessions session (f (s.sessions session)) }

/-- The second half of `prepareSession`, up to its first `await`. -/
def shareSession (s : MegolmState) (deviceCurve25519Key : String) (id : ℕ) (call : MegolmCall)
    (session : ℕ) : MegolmState :=
  let info := s.sessions session
  let shareMap := info.shareMap deviceCurve25519Key call.devicesInRoom
  { s with running := some ⟨id, call, session, .lookingUp shareMap info.messageIndex⟩ }

/-- The session that a preparation takes over from the one before. -/
def oldSession (s : MegolmState) (config : RotationConfig) (now : ℤ) (call : MegolmCall) :
    Option ℕ :=
  s.setup.filter fun session =>
    !(s.sessions session).needsRotation config now &&
      !(s.sessions session).sharedWithTooManyDevices call.devicesInRoom

/-- `prepareSession` starts. -/
def prepareSession (s : MegolmState) (deviceCurve25519Key : String) (config : RotationConfig)
    (now : ℤ) (call : MegolmCall) : MegolmState :=
  let id := s.nextPrepare
  match s.oldSession config now call with
  | some session =>
    { s with nextPrepare := id + 1 }.shareSession deviceCurve25519Key id call session
  | none =>
    { s with
      nextPrepare := id + 1
      nextSession := s.nextSession + 1
      running := some ⟨id, call, s.nextSession, .creating⟩ }

/-- The promise of a preparation is fulfilled: its call can encrypt. -/
def fulfil (s : MegolmState) (prepare : Preparing) : MegolmState :=
  { s with
    setup := some prepare.session
    running := none
    prepared :=
      if prepare.call.encrypts then s.prepared ++ [(prepare.call, prepare.session)] else s.prepared }

/-- It is rejected: its call fails. "_setupPromise resolves to `session` whether or not the share
succeeds" -/
def reject (s : MegolmState) (session : Option ℕ) : MegolmState :=
  { s with setup := session, running := none }

/-- A branch is over. -/
def branchDone (s : MegolmState) (owner : Option ℕ) (ok : Bool) : MegolmState :=
  match s.running with
  | none => s
  | some prepare =>
    if owner = some prepare.id then
      if ok then
        match prepare.stage with
        | .sharing (unfinished + 2) =>
          { s with running := some { prepare with stage := .sharing (unfinished + 1) } }
        | .sharing _ => s.fulfil prepare
        | _ => s
      else s.reject prepare.session
    else s

/-- The three branches of a preparation. -/
def startBranches (s : MegolmState) (prepare : Preparing) (shareMap : DevicesByUser)
    (chainIndex : ℕ) (hasSession : DeviceRef → Bool) : MegolmState :=
  let task (kind : ShareKind) (phase : SharePhase) : ShareTask :=
    ⟨prepare.session, chainIndex, prepare.id, kind, !prepare.call.encrypts, phase⟩
  let withSession := shareMap.filter hasSession
  let devicesWithoutSession := shareMap.filter fun device => !hasSession device
  { s with
    running := some { prepare with stage := .sharing 3 }
    tasks := s.tasks ++
      [task .existing (.sharing withSession.splitDevices []),
        task .new (.claiming devicesWithoutSession []),
        -- "also, notify blocked devices that they're blocked"
        task .existing .notifying] }

/-- "mark the devices that failed as handled" -/
def markFailed (s : MegolmState) (task : ShareTask) (failed : List DeviceRef) : MegolmState :=
  s.updateSession task.session fun session =>
    failed.foldl (OutboundSessionInfo.markSharedWithDevice task.chainIndex) session

/-- All slices of a branch have been sent. -/
def finishTask (s : MegolmState) (i : ℕ) (task : ShareTask) (failed : List DeviceRef)
    (fast : Bool) (failedServer : String → Bool) : MegolmState :=
  let notify := (s.markFailed task failed)
  let notify := { notify with tasks := s.tasks.set i { task with phase := .notifying } }
  match task.kind with
  | .existing => { s with tasks := s.tasks.eraseIdx i }.branchDone task.owner true
  | .retry => notify
  | .new =>
    if !task.singleOlmCreationPhase && fast then
      -- "Retry sending keys to devices that we were unable to establish an olm session for."
      let retryDevices := failed.filter fun device => failedServer device.userId
      let failedDevices := failed.filter fun device => !failedServer device.userId
      let retry := { task with
        owner := none, kind := .retry
        phase := .claiming (.ofDevices retryDevices) failedDevices }
      { s with tasks := s.tasks.set i retry }.branchDone task.owner true
    else notify

/-- The end of `encryptMessage`. -/
def encryptMessage (s : MegolmState) (call : MegolmCall) (session : ℕ) : MegolmState :=
  let index := (s.sessions session).messageIndex
  let message : MessageEncrypted := ⟨session, index, call.devicesInRoom⟩
  { s with encrypted := s.encrypted ++ [message] }.updateSession session fun info =>
    { info with useCount := info.useCount + 1, messageIndex := index + 1 }

end MegolmState

/-! ## The system -/

inductive MegolmStep
  /-- A call has read the devices in the room. -/
  | call (call : MegolmCall)
  | forceDiscardSession
  /-- The next job on `_setupPromise` starts. -/
  | start (now : ℤ)
  /-- `_prepareNewSession` is over, at this time if it does not throw. -/
  | created (now : Option ℤ)
  /-- `getExistingOlmSessions` is over: which devices we have a session with, if it does not
  throw. -/
  | lookedUp (hasSession : Option (DeviceRef → Bool))
  /-- `ensureOlmSessionsForDevices` is over. -/
  | claimed (i : ℕ) (hasSession : Option (DeviceRef → Bool))
  /-- The key is encrypted for the devices of the next slice, where it can be. -/
  | send (i : ℕ) (canEncrypt : Option (DeviceRef → Bool))
  /-- The answer to the request. -/
  | sent (i : ℕ) (ok : Bool)
  /-- The last slice is done; `fast` if this took no more than 10 s. -/
  | finish (i : ℕ) (fast : Bool) (failedServer : String → Bool)
  /-- `_notifyBlockedDevices` is over. -/
  | notified (i : ℕ) (ok : Bool)
  /-- A call encrypts its message, unless it is too long. -/
  | encrypt (i : ℕ) (ok : Bool)

def megolmSystem (deviceCurve25519Key : String) (config : RotationConfig) :
    System MegolmState MegolmStep where
  init := ⟨fun _ => .new 0, 0, 0, none, [], none, [], [], [], []⟩
  step s
    | .call call => some { s with queue := s.queue ++ [.prepareSession call] }
    | .forceDiscardSession => some { s with queue := s.queue ++ [.forceDiscardSession] }
    | .start now =>
      match s.running, s.queue with
      | none, .prepareSession call :: queue =>
        some ({ s with queue := queue }.prepareSession deviceCurve25519Key config now call)
      | none, .forceDiscardSession :: queue => some { s with queue := queue, setup := none }
      | _, _ => none
    | .created now =>
      match s.running with
      | some ⟨id, call, session, .creating⟩ =>
        match now with
        | none => some (s.reject none)
        | some now =>
          let s := s.updateSession session fun _ => .new now
          some (s.shareSession deviceCurve25519Key id call session)
      | _ => none
    | .lookedUp hasSession =>
      match s.running with
      | some ⟨id, call, session, .lookingUp shareMap chainIndex⟩ =>
        match hasSession with
        | none => some (s.reject session)
        | some hasSession =>
          some (s.startBranches ⟨id, call, session, .lookingUp shareMap chainIndex⟩ shareMap
            chainIndex hasSession)
      | _ => none
    | .claimed i hasSession =>
      match s.tasks[i]? with
      | some task =>
        match task.phase with
        | .claiming devices failed =>
          match hasSession with
          | none => some ({ s with tasks := s.tasks.eraseIdx i }.branchDone task.owner false)
          | some hasSession =>
            let failed := failed ++ devices.devices.filter fun device => !hasSession device
            let phase := .sharing (devices.filter hasSession).splitDevices failed
            some { s with tasks := s.tasks.set i { task with phase := phase } }
        | _ => none
      | none => none
    | .send i canEncrypt =>
      match s.tasks[i]? with
      | some task =>
        match task.phase with
        | .sharing (slice :: slices) failed =>
          match canEncrypt with
          | none => some ({ s with tasks := s.tasks.eraseIdx i }.branchDone task.owner false)
          | some canEncrypt =>
            let slice := slice.filter canEncrypt
            -- "No users left to send to: aborting"
            let phase := if slice = [] then .sharing slices failed
              else .sending slice slices failed
            some { s with
              tasks := s.tasks.set i { task with phase := phase }
              sent := s.sent ++ slice.map (KeySent.mk task.session task.chainIndex) }
        | _ => none
      | none => none
    | .sent i ok =>
      match s.tasks[i]? with
      | some task =>
        match task.phase with
        | .sending slice slices failed =>
          if ok then
            -- "store that we successfully uploaded the keys of the current slice"
            some ({ s with
              tasks := s.tasks.set i { task with phase := .sharing slices failed } }.markFailed
                task slice)
          else some ({ s with tasks := s.tasks.eraseIdx i }.branchDone task.owner false)
        | _ => none
      | none => none
    | .finish i fast failedServer =>
      match s.tasks[i]? with
      | some task =>
        match task.phase with
        | .sharing [] failed => some (s.finishTask i task failed fast failedServer)
        | _ => none
      | none => none
    | .notified i ok =>
      match s.tasks[i]? with
      | some task =>
        match task.phase with
        | .notifying => some ({ s with tasks := s.tasks.eraseIdx i }.branchDone task.owner ok)
        | _ => none
      | none => none
    | .encrypt i ok =>
      match s.prepared[i]? with
      | some (call, session) =>
        let s := { s with prepared := s.prepared.eraseIdx i }
        some (if ok then s.encryptMessage call session else s)
      | none => none

/-! ## Maps of devices -/

namespace DevicesByUser

variable {devicesByUser : DevicesByUser} {device : DeviceRef}

theorem mem_devices : device ∈ devicesByUser.devices ↔
    ∃ deviceIds, (device.userId, deviceIds) ∈ devicesByUser ∧ device.deviceId ∈ deviceIds := by
  unfold devices
  rw [List.mem_flatMap]
  constructor
  · rintro ⟨⟨userId, deviceIds⟩, hmem, hdevice⟩
    obtain ⟨deviceId, hid, rfl⟩ := List.mem_map.1 hdevice
    exact ⟨deviceIds, hmem, hid⟩
  · rintro ⟨deviceIds, hmem, hid⟩
    exact ⟨(device.userId, deviceIds), hmem, List.mem_map.2 ⟨device.deviceId, hid, rfl⟩⟩

theorem mem_devices_filter {p : DeviceRef → Bool} :
    device ∈ (devicesByUser.filter p).devices ↔ device ∈ devicesByUser.devices ∧ p device := by
  rw [mem_devices, mem_devices]
  constructor
  · rintro ⟨deviceIds, hmem, hid⟩
    obtain ⟨⟨userId, all⟩, hall, heq⟩ := List.mem_filterMap.1 hmem
    dsimp only at heq
    split_ifs at heq
    obtain ⟨rfl, rfl⟩ := Prod.mk.inj (Option.some.inj heq)
    obtain ⟨hid, hp⟩ := List.mem_filter.1 hid
    exact ⟨⟨all, hall, hid⟩, hp⟩
  · rintro ⟨⟨all, hall, hid⟩, hp⟩
    have hmem : device.deviceId ∈ all.filter fun deviceId => p ⟨device.userId, deviceId⟩ :=
      List.mem_filter.2 ⟨hid, hp⟩
    refine ⟨_, List.mem_filterMap.2 ⟨_, hall, ?_⟩, hmem⟩
    exact if_neg (List.ne_nil_of_mem hmem)

theorem mem_ofDevices {devices : List DeviceRef} :
    device ∈ (ofDevices devices).devices ↔ device ∈ devices := by
  rw [mem_devices]
  constructor
  · rintro ⟨deviceIds, hmem, hid⟩
    obtain ⟨userId, -, heq⟩ := List.mem_map.1 hmem
    obtain ⟨rfl, rfl⟩ := Prod.mk.inj heq
    obtain ⟨device', hdevice', hid'⟩ := List.mem_map.1 hid
    obtain rfl : device' = device := by
      have huser := of_decide_eq_true (List.mem_filter.1 hdevice').2
      cases device'
      cases device
      simp_all
    exact (List.mem_filter.1 hdevice').1
  · intro hmem
    have huser : device.userId ∈ (devices.map DeviceRef.userId).eraseDups :=
      List.mem_eraseDups.2 (List.mem_map_of_mem hmem)
    refine ⟨_, List.mem_map.2 ⟨device.userId, huser, rfl⟩, ?_⟩
    exact List.mem_map.2 ⟨device, List.mem_filter.2 ⟨hmem, by simp⟩, rfl⟩

theorem flatten_foldl_splitUser (slices : List (List DeviceRef) × List DeviceRef) :
    (devicesByUser.foldl splitUser slices).1.flatten ++ (devicesByUser.foldl splitUser slices).2 =
      slices.1.flatten ++ slices.2 ++ devicesByUser.devices := by
  induction devicesByUser generalizing slices with
  | nil => simp [devices]
  | cons user users ih =>
    rw [List.foldl_cons, ih]
    have hstep : (splitUser slices user).1.flatten ++ (splitUser slices user).2 =
        slices.1.flatten ++ slices.2 ++ user.2.map (DeviceRef.mk user.1) := by
      unfold splitUser
      dsimp only
      split_ifs
      · simp [List.append_assoc]
      · simp [List.append_assoc]
    rw [hstep]
    simp [devices, List.append_assoc]

/-- The slices have the devices of the map, in its order. -/
theorem flatten_splitDevices : devicesByUser.splitDevices.flatten = devicesByUser.devices := by
  have h : (devicesByUser.foldl splitUser ([], [])).1.flatten ++ _ = _ :=
    flatten_foldl_splitUser ([], [])
  unfold splitDevices
  dsimp only
  split_ifs with hempty
  · rw [hempty] at h
    simpa using h
  · simpa using h

end DevicesByUser

namespace OutboundSessionInfo

variable {session : OutboundSessionInfo} {devicesInRoom : DevicesInRoom} {device : DeviceRef}

theorem inRoom_of_isShared (h : session.sharedWithTooManyDevices devicesInRoom = false)
    (hdevice : session.isShared device = true) : InRoom devicesInRoom device := by
  obtain ⟨chainIndex, hget⟩ := Option.isSome_iff_exists.1 hdevice
  obtain ⟨ofUser, hofUser, hget⟩ := Option.bind_eq_some_iff.1 hget
  unfold sharedWithTooManyDevices at h
  rw [List.any_eq_false] at h
  have huser := h _ (JsObject.mem_keys_of_get hofUser)
  split at huser
  · exact absurd rfl huser
  next userDevices huserDevices =>
    rw [hofUser, Option.getD_some, Bool.not_eq_true, List.any_eq_false] at huser
    have hdev := huser _ (JsObject.mem_keys_of_get hget)
    rw [InRoom, huserDevices, Option.bind_some]
    exact Option.isSome_iff_ne_none.2 fun hnone => hdev (Option.isNone_iff_eq_none.2 hnone)

theorem inRoom_of_mem_shareMap {deviceCurve25519Key : String}
    (h : device ∈ (session.shareMap deviceCurve25519Key devicesInRoom).devices) :
    InRoom devicesInRoom device := by
  unfold shareMap at h
  obtain ⟨hall, -⟩ := DevicesByUser.mem_devices_filter.1 h
  obtain ⟨deviceIds, hmem, hid⟩ := DevicesByUser.mem_devices.1 hall
  obtain ⟨userId, huser, heq⟩ := List.mem_map.1 hmem
  obtain ⟨rfl, rfl⟩ := Prod.mk.inj heq
  obtain ⟨userDevices, hget⟩ := JsObject.mem_keys_iff.1 huser
  rw [hget, Option.getD_some] at hid
  obtain ⟨key, hkey⟩ := JsObject.mem_keys_iff.1 hid
  rw [InRoom, hget, Option.bind_some, hkey, Option.isSome_some]

end OutboundSessionInfo

/-! ## Devices a key may still go to -/

/-- The key of the session at this index has been sent to the device, or may still be. -/
def MegolmState.Sends (s : MegolmState) (session chainIndex : ℕ) (device : DeviceRef) : Prop :=
  ⟨session, chainIndex, device⟩ ∈ s.sent ∨
    (∃ task ∈ s.tasks, task.session = session ∧ task.chainIndex = chainIndex ∧
      device ∈ task.devices) ∨
    ∃ prepare shareMap, s.running = some prepare ∧ prepare.session = session ∧
      prepare.stage = .lookingUp shareMap chainIndex ∧ device ∈ shareMap.devices

/-- A call is to encrypt with the session: its preparation has shared it, or is sharing it. -/
def MegolmState.Holds (s : MegolmState) (call : MegolmCall) (session : ℕ) : Prop :=
  (call, session) ∈ s.prepared ∨
    ∃ prepare, s.running = some prepare ∧ prepare.call = call ∧ prepare.session = session ∧
      call.encrypts = true ∧ prepare.stage ≠ .creating

/-- What holds along a run: a key that may go to a device goes to those that the
messages from its index on, and the calls with the session, are for. -/
structure MegolmState.Inv (s : MegolmState) : Prop where
  sends_le : ∀ {session chainIndex device}, s.Sends session chainIndex device →
    session < s.nextSession ∧ chainIndex ≤ (s.sessions session).messageIndex
  encrypted_lt : ∀ message ∈ s.encrypted,
    message.session < s.nextSession ∧ message.index < (s.sessions message.session).messageIndex
  encrypted : ∀ message ∈ s.encrypted, ∀ {chainIndex device},
    s.Sends message.session chainIndex device → chainIndex ≤ message.index →
      InRoom message.devicesInRoom device
  holds : ∀ {call session}, s.Holds call session →
    session < s.nextSession ∧ ∀ {chainIndex device}, s.Sends session chainIndex device →
      InRoom call.devicesInRoom device
  setup : ∀ session ∈ s.setup, session < s.nextSession
  running : ∀ prepare ∈ s.running, prepare.session < s.nextSession
  creating : ∀ prepare ∈ s.running, prepare.stage = .creating →
    (∀ {chainIndex device}, ¬ s.Sends prepare.session chainIndex device) ∧
      (∀ call, (call, prepare.session) ∉ s.prepared) ∧
      ∀ message ∈ s.encrypted, message.session ≠ prepare.session

/-- A step that sends no key to a device that it could not go to before. -/
structure MegolmState.Frame (s t : MegolmState) : Prop where
  sends : ∀ {session chainIndex device}, t.Sends session chainIndex device →
    s.Sends session chainIndex device
  holds : ∀ {call session}, t.Holds call session → s.Holds call session
  messageIndex : ∀ session, (t.sessions session).messageIndex = (s.sessions session).messageIndex
  nextSession : t.nextSession = s.nextSession
  encrypted : t.encrypted = s.encrypted
  setup : ∀ session ∈ t.setup,
    session ∈ s.setup ∨ ∃ prepare ∈ s.running, prepare.session = session
  prepared : ∀ prepare ∈ s.running, prepare.stage = .creating → t.running = some prepare →
    t.prepared ⊆ s.prepared
  running : ∀ prepare ∈ t.running, ∃ prepare' ∈ s.running, prepare'.session = prepare.session ∧
    (prepare.stage = .creating → prepare' = prepare)

namespace MegolmState

variable {s t u : MegolmState} {task : ShareTask} {session : ℕ} {device : DeviceRef}
  {call : MegolmCall} {failed : List DeviceRef}

theorem Frame.inv (h : s.Frame t) (hs : s.Inv) : t.Inv where
  sends_le hsends := by
    rw [h.nextSession, h.messageIndex]
    exact hs.sends_le (h.sends hsends)
  encrypted_lt message hmem := by
    rw [h.nextSession, h.messageIndex]
    exact hs.encrypted_lt message (h.encrypted ▸ hmem)
  encrypted message hmem _ _ hsends hle :=
    hs.encrypted message (h.encrypted ▸ hmem) (h.sends hsends) hle
  holds hholds := by
    obtain ⟨hlt, hin⟩ := hs.holds (h.holds hholds)
    exact ⟨h.nextSession ▸ hlt, fun hsends => hin (h.sends hsends)⟩
  setup session hmem := by
    rw [h.nextSession]
    rcases h.setup session hmem with hold | ⟨prepare, hrunning, rfl⟩
    · exact hs.setup session hold
    · exact hs.running prepare hrunning
  running prepare hmem := by
    obtain ⟨prepare', hmem', heq, -⟩ := h.running prepare hmem
    rw [h.nextSession, ← heq]
    exact hs.running prepare' hmem'
  creating prepare hmem hstage := by
    obtain ⟨prepare', hmem', -, heq⟩ := h.running prepare hmem
    obtain rfl := heq hstage
    obtain ⟨hsends, hprepared, hencrypted⟩ := hs.creating prepare' hmem' hstage
    refine ⟨fun hsends' => hsends (h.sends hsends'), fun call hcall => ?_, ?_⟩
    · exact hprepared call (h.prepared prepare' hmem' hstage hmem hcall)
    · rw [h.encrypted]
      exact hencrypted

theorem Frame.refl (s : MegolmState) : s.Frame s where
  sends hsends := hsends
  holds hholds := hholds
  messageIndex _ := rfl
  nextSession := rfl
  encrypted := rfl
  setup _ hmem := .inl hmem
  prepared _ _ _ _ := List.Subset.refl _
  running prepare hmem := ⟨prepare, hmem, rfl, fun _ => rfl⟩

/-- The task of a branch is one that was there, with no more devices. -/
def Tasks (s : MegolmState) (tasks : List ShareTask) : Prop :=
  ∀ task ∈ tasks, ∃ task' ∈ s.tasks, task'.session = task.session ∧
    task'.chainIndex = task.chainIndex ∧ ∀ device ∈ task.devices, device ∈ task'.devices

theorem tasks_eraseIdx (s : MegolmState) (i : ℕ) : s.Tasks (s.tasks.eraseIdx i) := fun task hmem =>
  ⟨task, List.mem_of_mem_eraseIdx hmem, rfl, rfl, fun _ hdevice => hdevice⟩

theorem tasks_set {i : ℕ} {task' : ShareTask} (hi : s.tasks[i]? = some task)
    (hsession : task'.session = task.session) (hindex : task'.chainIndex = task.chainIndex)
    (hdevices : ∀ device ∈ task'.devices, device ∈ task.devices) :
    s.Tasks (s.tasks.set i task') := by
  intro task'' hmem
  rcases List.mem_or_eq_of_mem_set hmem with hmem | rfl
  · exact ⟨task'', hmem, rfl, rfl, fun _ hdevice => hdevice⟩
  · exact ⟨task, List.mem_of_getElem? hi, hsession.symm, hindex.symm, hdevices⟩

theorem Tasks.sends {tasks : List ShareTask} (h : s.Tasks tasks) {chainIndex : ℕ}
    (hsends : ({ s with tasks := tasks } : MegolmState).Sends session chainIndex device) :
    s.Sends session chainIndex device := by
  rcases hsends with hsent | ⟨task, hmem, rfl, rfl, hdevice⟩ | hrunning
  · exact .inl hsent
  · obtain ⟨task', hmem', hsession, hindex, hdevices⟩ := h task hmem
    exact .inr (.inl ⟨task', hmem', hsession, hindex, hdevices device hdevice⟩)
  · exact .inr (.inr hrunning)

theorem Frame.tasks {tasks : List ShareTask} (h : s.Frame t) (htasks : t.Tasks tasks) :
    s.Frame { t with tasks := tasks } :=
  { h with sends := fun hsends => h.sends (htasks.sends hsends) }

theorem updateSession_messageIndex (s : MegolmState) (session i : ℕ)
    (f : OutboundSessionInfo → OutboundSessionInfo) :
    ((s.updateSession session f).sessions i).messageIndex =
      if i = session then (f (s.sessions session)).messageIndex
      else (s.sessions i).messageIndex := by
  change (Function.update s.sessions session (f (s.sessions session)) i).messageIndex = _
  rw [Function.update_apply]
  split_ifs
  · rfl
  · rfl

/-- Marking devices changes nothing of this. -/
theorem Frame.markFailed (h : s.Frame t) (task : ShareTask) (failed : List DeviceRef) :
    s.Frame (t.markFailed task failed) := by
  have hfold : ∀ info : OutboundSessionInfo,
      (failed.foldl (OutboundSessionInfo.markSharedWithDevice task.chainIndex) info).messageIndex =
        info.messageIndex := by
    induction failed with
    | nil => exact fun _ => rfl
    | cons device failed ih => exact fun info => ih _
  refine { h with messageIndex := fun session => ?_ }
  rw [← h.messageIndex, MegolmState.markFailed, updateSession_messageIndex]
  split_ifs with hsession
  · rw [hsession, hfold]
  · rfl

theorem Frame.fulfil (h : s.Frame t) {prepare : Preparing} (hrunning : t.running = some prepare)
    (hstage : prepare.stage ≠ .creating) : s.Frame (t.fulfil prepare) where
  sends := by
    rintro session chainIndex device (hsent | htask | ⟨_, _, hnone, -⟩)
    · exact h.sends (.inl hsent)
    · exact h.sends (.inr (.inl htask))
    · cases hnone
  holds := by
    rintro call session (hprepared | ⟨_, hnone, -⟩)
    · change (call, session) ∈ (if prepare.call.encrypts then
        t.prepared ++ [(prepare.call, prepare.session)] else t.prepared) at hprepared
      split_ifs at hprepared with hencrypts
      · rcases List.mem_append.1 hprepared with hprepared | hprepared
        · exact h.holds (.inl hprepared)
        · obtain ⟨rfl, rfl⟩ := Prod.mk.inj (List.mem_singleton.1 hprepared)
          exact h.holds (.inr ⟨prepare, hrunning, rfl, rfl, hencrypts, hstage⟩)
      · exact h.holds (.inl hprepared)
    · cases hnone
  messageIndex := h.messageIndex
  nextSession := h.nextSession
  encrypted := h.encrypted
  setup session hmem := by
    obtain ⟨prepare', hmem', heq, -⟩ := h.running prepare hrunning
    exact .inr ⟨prepare', hmem', heq.trans (Option.some.inj hmem)⟩
  prepared _ _ _ hnone := nomatch hnone
  running _ hnone := nomatch hnone

theorem Frame.reject (h : s.Frame t) {session : Option ℕ}
    (hsession : ∀ i ∈ session, ∃ prepare, t.running = some prepare ∧ prepare.session = i) :
    s.Frame (t.reject session) where
  sends := by
    rintro session chainIndex device (hsent | htask | ⟨_, _, hnone, -⟩)
    · exact h.sends (.inl hsent)
    · exact h.sends (.inr (.inl htask))
    · cases hnone
  holds := by
    rintro call session (hprepared | ⟨_, hnone, -⟩)
    · exact h.holds (.inl hprepared)
    · cases hnone
  messageIndex := h.messageIndex
  nextSession := h.nextSession
  encrypted := h.encrypted
  setup i hmem := by
    obtain ⟨prepare, hrunning, rfl⟩ := hsession i hmem
    obtain ⟨prepare', hmem', heq, -⟩ := h.running prepare hrunning
    exact .inr ⟨prepare', hmem', heq⟩
  prepared _ _ _ hnone := nomatch hnone
  running _ hnone := nomatch hnone

/-- The stage of a preparation that is sharing moves on. -/
theorem Frame.sharing (h : s.Frame t) {prepare : Preparing} (hrunning : t.running = some prepare)
    (hstage : prepare.stage ≠ .creating) (n : ℕ) :
    s.Frame { t with running := some { prepare with stage := .sharing n } } where
  sends := by
    rintro session chainIndex device (hsent | htask | ⟨_, _, hsome, -, hstage', -⟩)
    · exact h.sends (.inl hsent)
    · exact h.sends (.inr (.inl htask))
    · obtain rfl := Option.some.inj hsome
      cases hstage'
  holds := by
    rintro call session (hprepared | ⟨_, hsome, rfl, rfl, hencrypts, -⟩)
    · exact h.holds (.inl hprepared)
    · obtain rfl := Option.some.inj hsome
      exact h.holds (.inr ⟨prepare, hrunning, rfl, rfl, hencrypts, hstage⟩)
  messageIndex := h.messageIndex
  nextSession := h.nextSession
  encrypted := h.encrypted
  setup := h.setup
  prepared prepare' _ hstage' hsome := by
    obtain rfl := Option.some.inj hsome
    cases hstage'
  running prepare' hsome := by
    obtain rfl := Option.some.inj hsome
    obtain ⟨prepare', hmem', heq, -⟩ := h.running prepare hrunning
    exact ⟨prepare', hmem', heq, fun hstage' => nomatch hstage'⟩

theorem Frame.branchDone (h : s.Frame t) (owner : Option ℕ) (ok : Bool) :
    s.Frame (t.branchDone owner ok) := by
  unfold MegolmState.branchDone
  split
  · exact h
  next prepare hrunning =>
    split_ifs
    · split
      next hstage => exact h.sharing hrunning (by rw [hstage]; simp) _
      next hstage => exact h.fulfil hrunning (by rw [hstage]; simp)
      · exact h
    · exact h.reject fun i hi => ⟨prepare, hrunning, Option.some.inj hi⟩
    · exact h

theorem Frame.startBranches (h : s.Frame t) {id chainIndex : ℕ} {shareMap : DevicesByUser}
    (hrunning : t.running = some ⟨id, call, session, .lookingUp shareMap chainIndex⟩)
    (hasSession : DeviceRef → Bool) :
    s.Frame (t.startBranches ⟨id, call, session, .lookingUp shareMap chainIndex⟩ shareMap
      chainIndex hasSession) := by
  have hshare := h.sharing hrunning (fun hstage => nomatch hstage) 3
  refine { hshare with sends := ?_ }
  rintro i k device (hsent | ⟨task, hmem, rfl, rfl, hdevice⟩ | hnone)
  · exact h.sends (.inl hsent)
  · rcases List.mem_append.1 hmem with hmem | hmem
    · exact h.sends (.inr (.inl ⟨task, hmem, rfl, rfl, hdevice⟩))
    · -- the devices of the new branches are in the map
      apply h.sends
      have hmap : ∀ p : DeviceRef → Bool, device ∈ (shareMap.filter p).devices →
          device ∈ shareMap.devices :=
        fun p hp => (DevicesByUser.mem_devices_filter.1 hp).1
      simp only [List.mem_cons, List.not_mem_nil, or_false] at hmem
      rcases hmem with rfl | rfl | rfl
      · simp only [ShareTask.devices, reduceCtorEq, if_false, List.append_nil,
          DevicesByUser.flatten_splitDevices] at hdevice
        exact .inr (.inr ⟨_, shareMap, hrunning, rfl, rfl, hmap _ hdevice⟩)
      · simp only [ShareTask.devices, if_true, List.append_nil] at hdevice
        exact .inr (.inr ⟨_, shareMap, hrunning, rfl, rfl, hmap _ hdevice⟩)
      · simp only [ShareTask.devices, List.not_mem_nil] at hdevice
  · exact hshare.sends (.inr (.inr hnone))

theorem Frame.send {i : ℕ} {slice : List DeviceRef} {slices : List (List DeviceRef)}
    (hi : s.tasks[i]? = some task) (hphase : task.phase = .sharing (slice :: slices) failed)
    (canEncrypt : DeviceRef → Bool) :
    s.Frame { s with
      tasks := s.tasks.set i { task with
        phase := if slice.filter canEncrypt = [] then .sharing slices failed
          else .sending (slice.filter canEncrypt) slices failed }
      sent := s.sent ++
        (slice.filter canEncrypt).map (KeySent.mk task.session task.chainIndex) } := by
  have htask : ∀ device ∈ (slice :: slices).flatten, device ∈ task.devices := by
    intro device hmem
    rw [ShareTask.devices, hphase]
    exact List.mem_append_left _ hmem
  refine { Frame.refl s with sends := ?_ }
  rintro session chainIndex device (hsent | htasks | hrunning)
  · rcases List.mem_append.1 hsent with hsent | hsent
    · exact .inl hsent
    · obtain ⟨device', hmem, heq⟩ := List.mem_map.1 hsent
      obtain ⟨rfl, rfl, rfl⟩ := KeySent.mk.inj heq
      have hslice : device' ∈ (slice :: slices).flatten :=
        List.mem_append_left _ (List.mem_filter.1 hmem).1
      exact .inr (.inl ⟨task, List.mem_of_getElem? hi, rfl, rfl, htask device' hslice⟩)
  · -- the task itself has a slice less
    refine (tasks_set hi ?_ ?_ fun device hmem => ?_).sends (.inr (.inl htasks))
    · rfl
    · rfl
    · have hrest : device ∈ (ShareTask.devices { task with phase := .sharing slices failed }) := by
        split_ifs at hmem
        · exact hmem
        · exact hmem
      rcases List.mem_append.1 hrest with hrest | hretried
      · exact htask device (List.mem_append_right _ hrest)
      · rw [ShareTask.devices, hphase]
        exact List.mem_append_right _ hretried
  · exact .inr (.inr hrunning)

theorem Frame.finishTask {i : ℕ} (hi : s.tasks[i]? = some task)
    (hphase : task.phase = .sharing [] failed) (fast : Bool) (failedServer : String → Bool) :
    s.Frame (s.finishTask i task failed fast failedServer) := by
  have hnotify : s.Frame { s.markFailed task failed with
      tasks := s.tasks.set i { task with phase := .notifying } } := by
    refine ((Frame.refl s).markFailed task failed).tasks ?_
    exact tasks_set hi rfl rfl fun device hmem => absurd hmem List.not_mem_nil
  unfold MegolmState.finishTask
  split
  · exact ((Frame.refl s).tasks (tasks_eraseIdx s i)).branchDone _ _
  · exact hnotify
  next hkind =>
    split_ifs
    · apply Frame.branchDone
      apply (Frame.refl s).tasks
      refine tasks_set hi rfl rfl fun device hmem => ?_
      -- the devices that are tried again are among the failed ones
      simp only [ShareTask.devices, reduceCtorEq, if_false, List.append_nil] at hmem
      have hfailed := (List.mem_filter.1 (DevicesByUser.mem_ofDevices.1 hmem)).1
      simpa only [ShareTask.devices, hphase, hkind, if_true, List.flatten_nil, List.nil_append]
        using hfailed
    · exact hnotify

/-- The devices there is no session with can only be tried again. -/
theorem claimed_devices {devices : DevicesByUser} (hphase : task.phase = .claiming devices failed)
    (hasSession : DeviceRef → Bool) (hmem : device ∈ ShareTask.devices { task with
      phase := .sharing (devices.filter hasSession).splitDevices
        (failed ++ devices.devices.filter fun device => !hasSession device) }) :
    device ∈ task.devices := by
  rw [ShareTask.devices, hphase]
  simp only [ShareTask.devices, DevicesByUser.flatten_splitDevices, List.mem_append] at hmem ⊢
  rcases hmem with hmem | hmem
  · exact .inl (DevicesByUser.mem_devices_filter.1 hmem).1
  · split_ifs at hmem ⊢
    · rcases List.mem_append.1 hmem with hmem | hmem
      · exact .inr hmem
      · exact .inl (List.mem_filter.1 hmem).1
    · exact absurd hmem List.not_mem_nil

/-! ## Steps that send the key to new devices -/

/-- A preparation shares its session: this is where the key may go to new devices. -/
theorem Inv.shareSession (h : s.Inv) {deviceCurve25519Key : String} {id : ℕ}
    (hlt : session < s.nextSession) (hrunning : ∀ prepare ∈ s.running, prepare.stage = .creating)
    (hprepared : ∀ call', (call', session) ∈ s.prepared → ∀ device ∈
      ((s.sessions session).shareMap deviceCurve25519Key call.devicesInRoom).devices,
        InRoom call'.devicesInRoom device) (hcall : call.encrypts = true → ∀ {chainIndex device},
      s.Sends session chainIndex device → InRoom call.devicesInRoom device) :
    (s.shareSession deviceCurve25519Key id call session).Inv := by
  -- the key goes where it could go before, or at the current index to a device in the map
  have hsends : ∀ {i k device},
      (s.shareSession deviceCurve25519Key id call session).Sends i k device →
        s.Sends i k device ∨ i = session ∧ k = (s.sessions session).messageIndex ∧ device ∈
          ((s.sessions session).shareMap deviceCurve25519Key call.devicesInRoom).devices := by
    rintro i k device (hsent | htask | ⟨prepare, shareMap, hsome, rfl, hstage, hdevice⟩)
    · exact .inl (.inl hsent)
    · exact .inl (.inr (.inl htask))
    · obtain rfl := Option.some.inj hsome
      obtain ⟨rfl, rfl⟩ := PrepareStage.lookingUp.inj hstage
      exact .inr ⟨rfl, rfl, hdevice⟩
  have hnotRunning : ∀ {call' i}, s.Holds call' i → (call', i) ∈ s.prepared := by
    rintro call' i (hmem | ⟨prepare, hsome, -, -, -, hstage⟩)
    · exact hmem
    · exact absurd (hrunning prepare hsome) hstage
  refine ⟨fun hs => ?_, h.encrypted_lt, fun message hmem k device hs hle => ?_,
    fun hholds => ?_, h.setup, fun prepare hsome => ?_, fun prepare hsome hstage => ?_⟩
  · rcases hsends hs with hs | ⟨rfl, rfl, -⟩
    · exact h.sends_le hs
    · exact ⟨hlt, Nat.le_refl _⟩
  · rcases hsends hs with hs | ⟨hsession, rfl, -⟩
    · exact h.encrypted message hmem hs hle
    · -- the messages so far are before the index of the key
      have hindex := (h.encrypted_lt message hmem).2
      rw [hsession] at hindex
      omega
  · rcases hholds with hmem | ⟨prepare, hsome, rfl, rfl, hencrypts, -⟩
    · obtain ⟨hi, hin⟩ := h.holds (.inl hmem)
      refine ⟨hi, fun hs => ?_⟩
      rcases hsends hs with hs | ⟨rfl, -, hdevice⟩
      · exact hin hs
      · exact hprepared _ hmem _ hdevice
    · obtain rfl := Option.some.inj hsome
      refine ⟨hlt, fun hs => ?_⟩
      rcases hsends hs with hs | ⟨-, -, hdevice⟩
      · exact hcall hencrypts hs
      · exact OutboundSessionInfo.inRoom_of_mem_shareMap hdevice
  · obtain rfl := Option.some.inj hsome
    exact hlt
  · obtain rfl := Option.some.inj hsome
    cases hstage

/-- A new session has been sent to nobody. -/
theorem Inv.not_sends (h : s.Inv) (hlt : s.nextSession ≤ session) {chainIndex : ℕ} :
    ¬ s.Sends session chainIndex device := by
  intro hsends
  have hlt' := (h.sends_le hsends).1
  omega

theorem Inv.startNew (h : s.Inv) (id : ℕ) (call : MegolmCall) :
    ({ s with
      nextPrepare := id + 1
      nextSession := s.nextSession + 1
      running := some ⟨id, call, s.nextSession, .creating⟩ } : MegolmState).Inv := by
  have hsends : ∀ {i k device}, ({ s with
      nextPrepare := id + 1
      nextSession := s.nextSession + 1
      running := some ⟨id, call, s.nextSession, .creating⟩ } : MegolmState).Sends i k device →
        s.Sends i k device := by
    rintro i k device (hsent | htask | ⟨_, _, hsome, -, hstage, -⟩)
    · exact .inl hsent
    · exact .inr (.inl htask)
    · obtain rfl := Option.some.inj hsome
      cases hstage
  refine ⟨fun hs => ?_, fun message hmem => ?_, fun message hmem k device hs hle => ?_,
    fun hholds => ?_, fun session hmem => ?_, fun prepare hsome => ?_, fun prepare hsome _ => ?_⟩
  · obtain ⟨hlt, hle⟩ := h.sends_le (hsends hs)
    exact ⟨Nat.lt_succ_of_lt hlt, hle⟩
  · obtain ⟨hlt, hindex⟩ := h.encrypted_lt message hmem
    exact ⟨Nat.lt_succ_of_lt hlt, hindex⟩
  · exact h.encrypted message hmem (hsends hs) hle
  · rcases hholds with hmem | ⟨_, hsome, rfl, rfl, -, hstage⟩
    · obtain ⟨hlt, hin⟩ := h.holds (.inl hmem)
      exact ⟨Nat.lt_succ_of_lt hlt, fun hs => hin (hsends hs)⟩
    · obtain rfl := Option.some.inj hsome
      exact absurd rfl hstage
  · exact Nat.lt_succ_of_lt (h.setup session hmem)
  · obtain rfl := Option.some.inj hsome
    exact Nat.lt_succ_self _
  · obtain rfl := Option.some.inj hsome
    refine ⟨fun hs => h.not_sends (Nat.le_refl _) (hsends hs), fun call' hmem => ?_, fun message hmem => ?_⟩
    · exact absurd (h.holds (.inl hmem)).1 (Nat.lt_irrefl _)
    · exact Nat.ne_of_lt (h.encrypted_lt message hmem).1

theorem Inv.encryptMessage (h : s.Inv) (hmem : (call, session) ∈ s.prepared)
    {prepared : List (MegolmCall × ℕ)} (hsub : prepared ⊆ s.prepared) :
    ({ s with prepared := prepared }.encryptMessage call session).Inv := by
  obtain ⟨hlt, hin⟩ := h.holds (.inl hmem)
  -- only the index of the session changes
  have hindex : ∀ i,
      (({ s with prepared := prepared }.encryptMessage call session).sessions i).messageIndex =
        if i = session then (s.sessions session).messageIndex + 1
        else (s.sessions i).messageIndex := by
    intro i
    rw [MegolmState.encryptMessage, updateSession_messageIndex]
  have hle_index : ∀ {i k}, k ≤ (s.sessions i).messageIndex →
      k ≤ (({ s with prepared := prepared }.encryptMessage call session).sessions
        i).messageIndex := by
    intro i k hle
    rw [hindex]
    split_ifs with hi
    · subst hi
      omega
    · exact hle
  refine ⟨fun hs => ?_, fun message hmsg => ?_, fun message hmsg k device hs hle => ?_,
    fun hholds => ?_, h.setup, h.running, fun prepare hsome hstage => ?_⟩
  · obtain ⟨hi, hle⟩ := h.sends_le hs
    exact ⟨hi, hle_index hle⟩
  · rcases List.mem_append.1 hmsg with hmsg | hmsg
    · obtain ⟨hi, hle⟩ := h.encrypted_lt message hmsg
      exact ⟨hi, hle_index hle⟩
    · obtain rfl := List.mem_singleton.1 hmsg
      rw [hindex, if_pos rfl]
      exact ⟨hlt, Nat.lt_succ_self _⟩
  · rcases List.mem_append.1 hmsg with hmsg | hmsg
    · exact h.encrypted message hmsg hs hle
    · obtain rfl := List.mem_singleton.1 hmsg
      exact hin hs
  · rcases hholds with hcall | hrunning
    · exact h.holds (.inl (hsub hcall))
    · exact h.holds (.inr hrunning)
  · obtain ⟨hsends, hprepared, hencrypted⟩ := h.creating prepare hsome hstage
    refine ⟨hsends, fun call' hcall => hprepared call' (hsub hcall), fun message hmsg => ?_⟩
    rcases List.mem_append.1 hmsg with hmsg | hmsg
    · exact hencrypted message hmsg
    · obtain rfl := List.mem_singleton.1 hmsg
      intro heq
      exact hprepared call (heq ▸ hmem)

/-! ## Runs -/

variable {deviceCurve25519Key : String} {config : RotationConfig}

/-- What the next preparation takes over, if it does: its call, and the session. -/
def takesOver (config : RotationConfig) (s : MegolmState) (now : ℤ) :
    Option (MegolmCall × ℕ) :=
  match s.running, s.queue with
  | none, .prepareSession call :: _ => (s.oldSession config now call).map fun session =>
    (call, session)
  | _, _ => none

/-- When a preparation takes a session over, the calls that are yet to encrypt with it are for the
devices that it adds, and its own call is for the devices that the key is still on its way to. -/
def NoRace (deviceCurve25519Key : String) (config : RotationConfig) (s : MegolmState) :
    MegolmStep → Prop
  | .start now => ∀ call session, s.takesOver config now = some (call, session) →
      (∀ call', (call', session) ∈ s.prepared → ∀ device ∈
        ((s.sessions session).shareMap deviceCurve25519Key call.devicesInRoom).devices,
          InRoom call'.devicesInRoom device) ∧
      (call.encrypts = true → ∀ chainIndex device, s.Sends session chainIndex device →
        (s.sessions session).isShared device = true ∨ InRoom call.devicesInRoom device)
  | _ => True

/-- A preparation that starts when nothing is in progress races with nothing. -/
theorem noRace_of_idle {e : MegolmStep} (hrunning : s.running.isNone)
    (hprepared : s.prepared.isEmpty) (htasks : s.tasks.all fun task => task.devices.isEmpty)
    (hsent : s.sent.all fun key => (s.sessions key.session).isShared key.device) :
    NoRace deviceCurve25519Key config s e := by
  cases e with
  | start now =>
    intro call session _
    refine ⟨fun call' hmem => ?_, fun _ chainIndex device hsends => .inl ?_⟩
    · rw [List.isEmpty_iff.1 hprepared] at hmem
      exact absurd hmem List.not_mem_nil
    · rcases hsends with hmem | ⟨task, hmem, -, -, hdevice⟩ | ⟨prepare, _, hsome, -⟩
      · exact List.all_eq_true.1 hsent _ hmem
      · rw [List.isEmpty_iff.1 (List.all_eq_true.1 htasks task hmem)] at hdevice
        exact absurd hdevice List.not_mem_nil
      · rw [Option.isNone_iff_eq_none.1 hrunning] at hsome
        cases hsome
  | _ => trivial

/-- Adding a job to the queue, or taking one away. -/
theorem Frame.queue (s : MegolmState) (queue : List SetupJob) (setup : Option ℕ)
    (hsetup : ∀ session ∈ setup, session ∈ s.setup) :
    s.Frame { s with queue := queue, setup := setup } :=
  { Frame.refl s with setup := fun session hmem => .inl (hsetup session hmem) }

theorem Inv.start {now : ℤ} (h : s.Inv) (hno : NoRace deviceCurve25519Key config s (.start now))
    (hse : (megolmSystem deviceCurve25519Key config).step s (.start now) = some t) : t.Inv := by
  simp only [megolmSystem] at hse
  split at hse
  next call queue hrunning hqueue =>
    obtain rfl := Option.some.inj hse
    have hs : ({ s with queue := queue } : MegolmState).Inv :=
      (Frame.queue s queue s.setup fun _ hmem => hmem).inv h
    have hnone : ({ s with queue := queue } : MegolmState).running = none := hrunning
    unfold prepareSession
    split
    next session hold =>
      have htakes : s.takesOver config now = some (call, session) := by
        simp only [takesOver, hrunning, hqueue]
        exact Option.map_eq_some_iff.2 ⟨session, hold, rfl⟩
      obtain ⟨hprepared, hcall⟩ := hno call session htakes
      obtain ⟨hsetup, hkeep⟩ := Option.filter_eq_some_iff.1 hold
      have hfew : (s.sessions session).sharedWithTooManyDevices call.devicesInRoom = false := by
        simpa using (Bool.and_eq_true_iff.1 hkeep).2
      refine Inv.shareSession (s := { s with queue := queue, nextPrepare := s.nextPrepare + 1 })
        ⟨hs.1, hs.2, hs.3, hs.4, hs.5, hs.6, hs.7⟩ (h.setup session hsetup) ?_ hprepared ?_
      · intro prepare hmem
        rw [hrunning] at hmem
        cases hmem
      · intro hencrypts k device hsends
        rcases hcall hencrypts k device hsends with hshared | hin
        · exact OutboundSessionInfo.inRoom_of_isShared hfew hshared
        · exact hin
    · exact hs.startNew _ call
  next queue hrunning hqueue =>
    obtain rfl := Option.some.inj hse
    exact (Frame.queue s queue none fun _ hmem => absurd hmem (Option.not_mem_none _)).inv h
  · cases hse

theorem Inv.created {now : Option ℤ} (h : s.Inv)
    (hse : (megolmSystem deviceCurve25519Key config).step s (.created now) = some t) : t.Inv := by
  simp only [megolmSystem] at hse
  split at hse
  next id call session hrunning =>
    obtain ⟨hsends, hprepared, hencrypted⟩ := h.creating _ hrunning rfl
    split at hse
    · obtain rfl := Option.some.inj hse
      exact ((Frame.refl s).reject fun i hi => absurd hi (Option.not_mem_none i)).inv h
    next now =>
      obtain rfl := Option.some.inj hse
      -- nothing is known of the new session
      have hindex : ∀ {i}, i ≠ session →
          ((s.updateSession session fun _ => .new now).sessions i).messageIndex =
            (s.sessions i).messageIndex := by
        intro i hi
        rw [updateSession_messageIndex, if_neg hi]
      have hs : (s.updateSession session fun _ => .new now).Inv := by
        refine { h with sends_le := fun {i k device} hs => ?_, encrypted_lt := fun message hmem => ?_ }
        · have hi : i ≠ session := by
            rintro rfl
            exact hsends hs
          rw [hindex hi]
          exact h.sends_le hs
        · rw [hindex (hencrypted message hmem)]
          exact h.encrypted_lt message hmem
      refine hs.shareSession (h.running _ hrunning) ?_ ?_ ?_
      · intro prepare hmem
        obtain rfl := Option.some.inj (hrunning.symm.trans hmem)
        rfl
      · exact fun call' hmem => absurd hmem (hprepared call')
      · exact fun _ => fun hs' => absurd hs' hsends
  · cases hse

theorem inv_step {e : MegolmStep} (h : s.Inv) (hno : NoRace deviceCurve25519Key config s e)
    (hse : (megolmSystem deviceCurve25519Key config).step s e = some t) : t.Inv := by
  cases e with
  | call call =>
    obtain rfl := Option.some.inj hse
    exact (Frame.queue s _ s.setup fun _ hmem => hmem).inv h
  | forceDiscardSession =>
    obtain rfl := Option.some.inj hse
    exact (Frame.queue s _ s.setup fun _ hmem => hmem).inv h
  | start now => exact h.start hno hse
  | created now => exact h.created hse
  | lookedUp hasSession =>
    simp only [megolmSystem] at hse
    split at hse
    next id call session shareMap chainIndex hrunning =>
      split at hse
      · obtain rfl := Option.some.inj hse
        refine ((Frame.refl s).reject fun i hi => ?_).inv h
        exact ⟨_, hrunning, Option.some.inj hi⟩
      · obtain rfl := Option.some.inj hse
        exact ((Frame.refl s).startBranches hrunning _).inv h
    · cases hse
  | claimed i hasSession =>
    simp only [megolmSystem] at hse
    split at hse
    next task hi =>
      split at hse
      next devices failed hphase =>
        split at hse
        · obtain rfl := Option.some.inj hse
          exact (((Frame.refl s).tasks (tasks_eraseIdx s i)).branchDone _ _).inv h
        next hasSession =>
          obtain rfl := Option.some.inj hse
          refine ((Frame.refl s).tasks ?_).inv h
          refine tasks_set hi rfl rfl fun device hmem => ?_
          exact claimed_devices hphase hasSession hmem
      · cases hse
    · cases hse
  | send i canEncrypt =>
    simp only [megolmSystem] at hse
    split at hse
    next task hi =>
      split at hse
      next slice slices failed hphase =>
        split at hse
        · obtain rfl := Option.some.inj hse
          exact (((Frame.refl s).tasks (tasks_eraseIdx s i)).branchDone _ _).inv h
        next canEncrypt =>
          obtain rfl := Option.some.inj hse
          exact (Frame.send hi hphase canEncrypt).inv h
      · cases hse
    · cases hse
  | sent i ok =>
    simp only [megolmSystem] at hse
    split at hse
    next task hi =>
      split at hse
      next slice slices failed hphase =>
        split_ifs at hse
        · obtain rfl := Option.some.inj hse
          refine (((Frame.refl s).tasks ?_).markFailed task slice).inv h
          refine tasks_set hi rfl rfl fun device hmem => ?_
          simpa only [ShareTask.devices, hphase] using hmem
        · obtain rfl := Option.some.inj hse
          exact (((Frame.refl s).tasks (tasks_eraseIdx s i)).branchDone _ _).inv h
      · cases hse
    · cases hse
  | finish i fast failedServer =>
    simp only [megolmSystem] at hse
    split at hse
    next task hi =>
      split at hse
      next failed hphase =>
        obtain rfl := Option.some.inj hse
        exact (Frame.finishTask hi hphase fast failedServer).inv h
      · cases hse
    · cases hse
  | notified i ok =>
    simp only [megolmSystem] at hse
    split at hse
    next task hi =>
      split at hse
      · obtain rfl := Option.some.inj hse
        exact (((Frame.refl s).tasks (tasks_eraseIdx s i)).branchDone _ _).inv h
      · cases hse
    · cases hse
  | encrypt i ok =>
    simp only [megolmSystem] at hse
    split at hse
    next call session hi =>
      have hsub : s.prepared.eraseIdx i ⊆ s.prepared := List.eraseIdx_subset
      obtain rfl := Option.some.inj hse
      split_ifs
      · exact h.encryptMessage (List.mem_of_getElem? hi) hsub
      · refine Frame.inv ?_ h
        refine { Frame.refl s with holds := fun hholds => ?_, prepared := fun _ hmem hstage _ => ?_ }
        · rcases hholds with hmem | hrunning
          · exact .inl (hsub hmem)
          · exact .inr hrunning
        · exact hsub
    · cases hse

end MegolmState

/-- **A key goes only to devices that the message is for**, along the runs in which no preparation
takes over a session that another call is yet to encrypt with, or that is still on its way,
for other devices. -/
theorem sent_inRoom {deviceCurve25519Key : String} {config : RotationConfig} {s : MegolmState}
    (h : (megolmSystem deviceCurve25519Key config).ReachableUnder
      (MegolmState.NoRace deviceCurve25519Key config) s) :
    ∀ message ∈ s.encrypted, ∀ key ∈ s.sent, key.session = message.session →
      key.chainIndex ≤ message.index → InRoom message.devicesInRoom key.device := by
  have hinit : (megolmSystem deviceCurve25519Key config).init.Inv := by
    have hsends : ∀ {i k device},
        ¬ (megolmSystem deviceCurve25519Key config).init.Sends i k device := by
      rintro i k device (hsent | ⟨_, hmem, -⟩ | ⟨_, _, hnone, -⟩)
      · exact absurd hsent List.not_mem_nil
      · exact absurd hmem List.not_mem_nil
      · cases hnone
    refine ⟨fun hs => absurd hs hsends, fun _ hmem => absurd hmem List.not_mem_nil,
      fun _ hmem => absurd hmem List.not_mem_nil, ?_, fun _ hmem => absurd hmem
        (Option.not_mem_none _), fun _ hmem => absurd hmem (Option.not_mem_none _),
      fun _ hmem => absurd hmem (Option.not_mem_none _)⟩
    rintro call session (hmem | ⟨_, hnone, -⟩)
    · exact absurd hmem List.not_mem_nil
    · cases hnone
  have hinv : s.Inv := h.invariant hinit fun s e s' hs he hse => MegolmState.inv_step hs he hse
  intro message hmessage key hkey hsession hle
  refine hinv.encrypted message hmessage (.inl ?_) hle
  rw [← hsession]
  exact hkey

/-! Alice is in the room, and Bob joins it between two messages. -/

section Examples

/-- A room with these users, each with a phone. -/
def roomOf (users : List String) : DevicesInRoom :=
  users.foldl (fun room user => room.set user (JsObject.empty.set "phone" user)) .empty

def exampleMegolm : System MegolmState MegolmStep := megolmSystem "laptop" ⟨100, 604800000⟩

/-- A preparation that sends its keys at once. The branch for devices without an Olm session is
the second task then, or the first one when it is the first preparation. -/
def shareAll : List MegolmStep :=
  [.lookedUp (some fun _ => true), .send 0 (some fun _ => true), .sent 0 true,
    .finish 0 true fun _ => false, .claimed 0 (some fun _ => true), .finish 0 true fun _ => false,
    .notified 1 true]

/-- The message for Alice is encrypted before the next call. -/
def oneByOne : List MegolmStep :=
  [.call ⟨roomOf ["alice"], true⟩, .start 0, .created (some 0)] ++ shareAll ++
    [.encrypt 0 true, .call ⟨roomOf ["alice", "bob"], true⟩, .start 1,
      .lookedUp (some fun _ => true), .send 1 (some fun _ => true)]

theorem oneByOne_runs : (exampleMegolm.run oneByOne).isSome := by decide

/-- The state it ends in. -/
def bobJoined : MegolmState := (exampleMegolm.run oneByOne).get oneByOne_runs

/-- Bob is sent the key at index 1, and the first message had index 0. -/
theorem sent_inRoom_bobJoined :
    bobJoined.sent.map KeySent.chainIndex = [0, 1] ∧
      bobJoined.encrypted.Forall fun message => bobJoined.sent.Forall fun key =>
        key.session = message.session → key.chainIndex ≤ message.index →
          InRoom message.devicesInRoom key.device := by
  have hrun : exampleMegolm.ReachableUnder (MegolmState.NoRace "laptop" ⟨100, 604800000⟩)
      bobJoined := by
    refine ⟨_, System.trace_get oneByOne_runs, ?_⟩
    change ∀ q ∈ [_, _, _, _, _, _, _, _, _, _, _, _, _, _, _], _
    simp only [List.forall_mem_cons]
    refine ⟨trivial, ?_, trivial, trivial, trivial, trivial, trivial, trivial, trivial, trivial,
      trivial, trivial, ?_, trivial, trivial, fun q hq => absurd hq List.not_mem_nil⟩
    · exact MegolmState.noRace_of_idle (by decide) (by decide) (by decide) (by decide)
    · exact MegolmState.noRace_of_idle (by decide) (by decide) (by decide) (by decide)
  refine ⟨by decide, List.forall_iff_forall_mem.2 fun message hmessage => ?_⟩
  exact List.forall_iff_forall_mem.2 (sent_inRoom hrun message hmessage)

/-- The second call has read the devices by the time the first one is prepared. -/
def twoAtOnce : List MegolmStep :=
  [.call ⟨roomOf ["alice"], true⟩, .call ⟨roomOf ["alice", "bob"], true⟩, .start 0,
    .created (some 0)] ++ shareAll ++
    [.start 1, .encrypt 0 true, .lookedUp (some fun _ => true), .send 1 (some fun _ => true)]

theorem twoAtOnce_runs : (exampleMegolm.run twoAtOnce).isSome := by decide

/-- Not along all runs: the second preparation reads the key before the first message is encrypted,
and Bob is sent it. -/
theorem sent_inRoom_fails :
    ¬ ∀ s, exampleMegolm.Reachable s → ∀ message ∈ s.encrypted, ∀ key ∈ s.sent,
      key.session = message.session → key.chainIndex ≤ message.index →
        InRoom message.devicesInRoom key.device := by
  intro h
  exact absurd (h _ (System.reachable_get twoAtOnce_runs)) (by decide)

end Examples

end MatrixSdk.Crypto
