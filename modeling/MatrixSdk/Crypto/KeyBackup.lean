/-
Backing up room keys: `scheduleKeyBackupSend`, `_backupPendingKeys` and `backupGroupSession` of
`crypto/index.js`, `enableKeyBackup` and `disableKeyBackup` of `client.js`, and the marks that the
crypto store keeps of the sessions that are yet to be backed up.

A loop takes marked sessions from the store, encrypts them one by one, uploads them, and then
removes the marks of all of them. It ends when it finds no marks, and it is started by whoever sets
one. Two things are said of it: what becomes of the marks while one version of the backup is
enabled ([`MarksBackedUp`]), and for which key the sessions are encrypted while versions change
([`BackupKeysMatch`]).

Time is counted in the transactions that set marks or read the sessions to back up.
-/
import MatrixSdk.Lib.System
import MatrixSdk.Crypto.GroupSessions

set_option autoImplicit false

namespace MatrixSdk.Crypto

open MatrixSdk.Lib

/-! ## Sessions, batches and uploads -/

/-- Which session of the store. -/
structure GroupSessionId where
  senderKey : String
  sessionId : String
  deriving DecidableEq

/-- Sessions as the store gives them to the loop. -/
abbrev BackupSessions (Session : Type) :=
  List (GroupSessionId × InboundGroupSessionData Session)

/-- What `getSessionsNeedingBackup` gives, and when it has read it. -/
structure BackupBatch (Session : Type) where
  sessions : BackupSessions Session
  readAt : ℕ

/-- A session in the data of an upload: which one it is of, what has been encrypted, for which
public key, and the version that was enabled then. -/
structure BackupEntry (Session : Type) where
  id : GroupSessionId
  sessionData : InboundGroupSessionData Session
  publicKey : String
  version : Option String

/-- The data of an upload, by room id and session id. -/
abbrev BackupRooms (Session : Type) := JsObject (String × String) (BackupEntry Session)

/-- A call of `sendKeyBackup`. -/
structure BackupRequest (Session : Type) where
  version : String
  rooms : BackupRooms Session

/-- A call that has succeeded, and when its sessions had been read. -/
structure BackupUpload (Session : Type) where
  readAt : ℕ
  rooms : BackupRooms Session

/-- An `Olm.PkEncryption`. -/
structure BackupKey where
  object : ℕ
  recipientKey : String

/-- Where the loop is. -/
inductive BackupLoop (Session : Type)
  /-- `_sendingBackups` is `false`. -/
  | idle
  /-- It sleeps, or is between two batches. -/
  | waiting
  | reading
  /-- The next session of `rest` is being exported. -/
  | encrypting (batch : BackupBatch Session) (rooms : BackupRooms Session)
      (rest : BackupSessions Session)
  | sending (batch : BackupBatch Session) (rooms : BackupRooms Session)
  | unmarking (batch : BackupBatch Session) (rooms : BackupRooms Session)
  /-- It has read that nothing is left, and is about to return. -/
  | finishing (readAt : ℕ)
  /-- The server does not know the version; it is about to throw. -/
  | failing

/-- A call of `backupGroupSession` or `scheduleAllGroupSessionsForBackup`: the sessions are yet to
be marked, or have been. -/
inductive BackupCall
  | mark (id : GroupSessionId)
  | markAll
  | schedule

/-- The store, the calls, the loop, and the version that is enabled with its key. What has been
freed, used after that, sent, uploaded and unmarked is recorded. -/
structure KeyBackupState (Session : Type) where
  sessions : JsObject GroupSessionId (InboundGroupSessionData Session)
  /-- `_sessionsNeedingBackup`, with the time of the last marking. -/
  marks : JsObject GroupSessionId ℕ
  clock : ℕ
  calls : List BackupCall
  loop : BackupLoop Session
  lastRunFailed : Bool
  backupInfo : Option String
  backupKey : Option BackupKey
  nextObject : ℕ
  freed : List ℕ
  usedAfterFree : List ℕ
  sent : List (BackupRequest Session)
  uploads : List (BackupUpload Session)
  unmarked : List (GroupSessionId × ℕ)

section Model

variable {Session : Type}

/-- Where a session goes in the data of an upload. -/
def backupSlot (p : GroupSessionId × InboundGroupSessionData Session) : String × String :=
  (p.2.roomId, p.1.sessionId)

def BackupBatch.ids (batch : BackupBatch Session) : List GroupSessionId := batch.sessions.map (·.1)

namespace KeyBackupState

/-- What is in the store when the client starts: sessions, of which some are marked. -/
def start (sessions : JsObject GroupSessionId (InboundGroupSessionData Session))
    (marked : List GroupSessionId) : KeyBackupState Session where
  sessions := sessions
  marks := (sessions.filter fun id => id ∈ marked).map fun _ _ => 0
  clock := 1
  calls := []
  loop := .idle
  lastRunFailed := false
  backupInfo := none
  backupKey := none
  nextObject := 0
  freed := []
  usedAfterFree := []
  sent := []
  uploads := []
  unmarked := []

/-! ## Marks and calls -/

def markSessionsNeedingBackup (s : KeyBackupState Session) (ids : List GroupSessionId) :
    KeyBackupState Session :=
  { s with marks := s.marks.setAll ids s.clock, clock := s.clock + 1 }

def unmarkSessionsNeedingBackup (s : KeyBackupState Session) (ids : List GroupSessionId) :
    KeyBackupState Session :=
  { s with
    marks := s.marks.filter fun id => id ∉ ids
    unmarked := s.unmarked ++ ids.filterMap fun id => (s.marks.get id).map fun time => (id, time) }

/-- `scheduleKeyBackupSend`, up to the first sleep. -/
def scheduleKeyBackupSend (s : KeyBackupState Session) : KeyBackupState Session :=
  match s.loop with
  | .idle => { s with loop := .waiting }
  | _ => s

/-- A call goes on. -/
def proceed (s : KeyBackupState Session) (i : ℕ) : Option (KeyBackupState Session) :=
  match s.calls[i]? with
  | none => none
  | some (.mark id) =>
    some ({ s with calls := s.calls.set i .schedule }.markSessionsNeedingBackup [id])
  | some .markAll =>
    some ({ s with calls := s.calls.set i .schedule }.markSessionsNeedingBackup s.sessions.keys)
  | some .schedule => some { s with calls := s.calls.eraseIdx i }.scheduleKeyBackupSend

/-! ## Versions and keys -/

/-- A key is used. -/
def useKey (s : KeyBackupState Session) (key : BackupKey) : KeyBackupState Session :=
  let used := s.usedAfterFree
  { s with usedAfterFree := if key.object ∈ s.freed then key.object :: used else used }

/-- `if (this._crypto.backupKey) this._crypto.backupKey.free();` -/
def freeBackupKey (s : KeyBackupState Session) : KeyBackupState Session :=
  match s.backupKey with
  | none => s
  | some key => { s.useKey key with freed := key.object :: s.freed }

/-- The backup info of a version has the version and its public key. -/
def enableKeyBackup (publicKey : String → String) (s : KeyBackupState Session) (version : String) :
    KeyBackupState Session :=
  let s := { s with backupInfo := some version }.freeBackupKey
  let key : BackupKey := ⟨s.nextObject, publicKey version⟩
  { s with backupKey := some key, nextObject := s.nextObject + 1 }.scheduleKeyBackupSend

def disableKeyBackup (s : KeyBackupState Session) : KeyBackupState Session :=
  { { s with backupInfo := none }.freeBackupKey with backupKey := none }

/-! ## The loop -/

/-- Sessions that `getSessionsNeedingBackup` may give: some of those that are marked, as long as
there are any. -/
def MayRead (s : KeyBackupState Session) (ids : List GroupSessionId) : Prop :=
  ids.Nodup ∧ (∀ id ∈ ids, (s.sessions.get id).isSome ∧ (s.marks.get id).isSome) ∧
    (ids = [] → ∀ id ∈ s.marks.keys, s.sessions.get id = none)

instance (s : KeyBackupState Session) (ids : List GroupSessionId) : Decidable (s.MayRead ids) :=
  inferInstanceAs (Decidable (_ ∧ _ ∧ (_ → ∀ id ∈ s.marks.keys, s.sessions.get id = none)))

def getSessionsNeedingBackup (s : KeyBackupState Session) (ids : List GroupSessionId) :
    KeyBackupState Session :=
  let batch : BackupBatch Session :=
    ⟨ids.filterMap fun id => (s.sessions.get id).map fun data => (id, data), s.clock⟩
  match ids with
  | [] => { s with clock := s.clock + 1, loop := .finishing s.clock }
  | _ :: _ => { s with clock := s.clock + 1, loop := .encrypting batch .empty batch.sessions }

/-- A session has been exported: it is encrypted, and the next one is exported, or the data is
sent. An exception makes the loop try again later. -/
def encrypt (s : KeyBackupState Session) (batch : BackupBatch Session)
    (rooms : BackupRooms Session) (p : GroupSessionId × InboundGroupSessionData Session)
    (rest : BackupSessions Session) : KeyBackupState Session :=
  match s.backupKey with
  | none => { s with loop := .waiting }
  | some key =>
    let s := s.useKey key
    let rooms := rooms.set (backupSlot p) ⟨p.1, p.2, key.recipientKey, s.backupInfo⟩
    match rest with
    | q :: rest => { s with loop := .encrypting batch rooms (q :: rest) }
    | [] =>
      match s.backupInfo with
      | none => { s with loop := .waiting }
      | some version =>
        { s with loop := .sending batch rooms, sent := s.sent ++ [⟨version, rooms⟩] }

end KeyBackupState

/-! ## The system -/

inductive KeyBackupStep (Session : Type)
  /-- A new session, or a better one, is stored. -/
  | storeSession (id : GroupSessionId) (data : InboundGroupSessionData Session)
  | backupGroupSession (id : GroupSessionId)
  | scheduleAllGroupSessionsForBackup
  | proceed (i : ℕ)
  | enableKeyBackup (version : String)
  | disableKeyBackup
  /-- The loop has slept. -/
  | wake
  /-- It reads sessions to back up: which ones is up to the store. -/
  | read (ids : List GroupSessionId)
  | encrypt
  | exportFails
  | uploaded
  /-- `wrongVersion`: with `M_NOT_FOUND` or `M_WRONG_ROOM_KEYS_VERSION`. -/
  | uploadFails (wrongVersion : Bool)
  | unmark
  /-- The loop returns, or throws. -/
  | finish
  | throw

/-- Backing up the keys of a device that starts with `sessions` in its store. -/
def keyBackupSystem (publicKey : String → String)
    (sessions : JsObject GroupSessionId (InboundGroupSessionData Session))
    (marked : List GroupSessionId) : System (KeyBackupState Session) (KeyBackupStep Session) where
  init := .start sessions marked
  step s
    | .storeSession id data => some { s with sessions := s.sessions.set id data }
    | .backupGroupSession id =>
      if (s.sessions.get id).isSome then
        -- "Key backups are not enabled"
        if s.backupInfo.isNone then some s else some { s with calls := s.calls ++ [.mark id] }
      else none
    | .scheduleAllGroupSessionsForBackup => some { s with calls := s.calls ++ [.markAll] }
    | .proceed i => s.proceed i
    | .enableKeyBackup version => some (s.enableKeyBackup publicKey version)
    | .disableKeyBackup => some s.disableKeyBackup
    | .wake =>
      match s.loop with
      | .waiting =>
        if s.backupKey.isNone then some { s with loop := .idle, lastRunFailed := false }
        else some { s with loop := .reading }
      | _ => none
    | .read ids =>
      match s.loop with
      | .reading => if s.MayRead ids then some (s.getSessionsNeedingBackup ids) else none
      | _ => none
    | .encrypt =>
      match s.loop with
      | .encrypting batch rooms (p :: rest) => some (s.encrypt batch rooms p rest)
      | _ => none
    | .exportFails =>
      match s.loop with
      | .encrypting _ _ _ => some { s with loop := .waiting }
      | _ => none
    | .uploaded =>
      match s.loop with
      | .sending batch rooms =>
        let uploads := s.uploads ++ [⟨batch.readAt, rooms⟩]
        some { s with loop := .unmarking batch rooms, uploads := uploads }
      | _ => none
    | .uploadFails wrongVersion =>
      match s.loop with
      | .sending _ _ => some { s with loop := if wrongVersion then .failing else .waiting }
      | _ => none
    | .unmark =>
      match s.loop with
      | .unmarking batch _ =>
        some { s.unmarkSessionsNeedingBackup batch.ids with loop := .waiting }
      | _ => none
    | .finish =>
      match s.loop with
      | .finishing _ => some { s with loop := .idle, lastRunFailed := false }
      | _ => none
    | .throw =>
      match s.loop with
      | .failing => some { s with loop := .idle, lastRunFailed := true }
      | _ => none

/-- The step leaves `version` enabled. -/
def KeyBackupStep.keeps (version : String) : KeyBackupStep Session → Bool
  | .enableKeyBackup version' => version' = version
  | .disableKeyBackup => false
  | _ => true

/-- One version is enabled throughout. -/
def steadyBackupSystem (publicKey : String → String) (version : String)
    (sessions : JsObject GroupSessionId (InboundGroupSessionData Session))
    (marked : List GroupSessionId) : System (KeyBackupState Session) (KeyBackupStep Session) where
  init := (KeyBackupState.start sessions marked).enableKeyBackup publicKey version
  step s e :=
    if e.keeps version then (keyBackupSystem publicKey sessions marked).step s e else none

/-! ## What the operations change -/

namespace KeyBackupState

theorem scheduleKeyBackupSend_eq (s : KeyBackupState Session) :
    ∃ loop, s.scheduleKeyBackupSend = { s with loop := loop } ∧ loop ≠ .idle ∧
      (loop = .waiting ∨ loop = s.loop) := by
  unfold scheduleKeyBackupSend
  split
  · exact ⟨_, rfl, nofun, .inl rfl⟩
  next hidle => exact ⟨_, rfl, hidle, .inr rfl⟩

/-- Freeing the key changes nothing but what is recorded of keys. -/
theorem freeBackupKey_eq (s : KeyBackupState Session) (backupInfo : Option String) :
    { s with backupInfo := backupInfo }.freeBackupKey =
      { s with
        backupInfo := backupInfo
        freed := s.freeBackupKey.freed
        usedAfterFree := s.freeBackupKey.usedAfterFree } := by
  unfold freeBackupKey
  cases s.backupKey with
  | none => rfl
  | some key => rfl

theorem enableKeyBackup_eq (s : KeyBackupState Session) (publicKey : String → String)
    (version : String) :
    ∃ loop, s.enableKeyBackup publicKey version =
      { s with
        loop := loop
        backupInfo := some version
        backupKey := some ⟨s.nextObject, publicKey version⟩
        nextObject := s.nextObject + 1
        freed := s.freeBackupKey.freed
        usedAfterFree := s.freeBackupKey.usedAfterFree } ∧
      loop ≠ .idle ∧ (loop = .waiting ∨ loop = s.loop) := by
  unfold enableKeyBackup
  rw [freeBackupKey_eq]
  exact scheduleKeyBackupSend_eq
    { s with
      backupInfo := some version
      backupKey := some ⟨s.nextObject, publicKey version⟩
      nextObject := s.nextObject + 1
      freed := s.freeBackupKey.freed
      usedAfterFree := s.freeBackupKey.usedAfterFree }

theorem disableKeyBackup_eq (s : KeyBackupState Session) :
    s.disableKeyBackup =
      { s with
        backupInfo := none
        backupKey := none
        freed := s.freeBackupKey.freed
        usedAfterFree := s.freeBackupKey.usedAfterFree } := by
  rw [disableKeyBackup, freeBackupKey_eq]

end KeyBackupState

variable {publicKey : String → String} {version : String}
  {sessions : JsObject GroupSessionId (InboundGroupSessionData Session)}
  {marked : List GroupSessionId} {s s' : KeyBackupState Session} {e : KeyBackupStep Session}
  {rooms : BackupRooms Session} {batch : BackupBatch Session}
  {p : GroupSessionId × InboundGroupSessionData Session} {rest : BackupSessions Session}

/-- A step of the loop: where the loop is, and what becomes of the state. -/
theorem loop_step (he : (keyBackupSystem publicKey sessions marked).step s e = some s') :
    match e with
    | .wake => s.loop = .waiting ∧
        (s.backupKey = none ∧ s' = { s with loop := .idle, lastRunFailed := false } ∨
          s' = { s with loop := .reading })
    | .read ids => s.loop = .reading ∧ s.MayRead ids ∧ s' = s.getSessionsNeedingBackup ids
    | .encrypt => ∃ batch rooms p rest, s.loop = .encrypting batch rooms (p :: rest) ∧
        s' = s.encrypt batch rooms p rest
    | .exportFails => ∃ batch rooms rest, s.loop = .encrypting batch rooms rest ∧
        s' = { s with loop := .waiting }
    | .uploaded => ∃ batch rooms, s.loop = .sending batch rooms ∧
        s' = { s with
          loop := .unmarking batch rooms, uploads := s.uploads ++ [⟨batch.readAt, rooms⟩] }
    | .uploadFails wrongVersion => ∃ batch rooms, s.loop = .sending batch rooms ∧
        s' = { s with loop := if wrongVersion then .failing else .waiting }
    | .unmark => ∃ batch rooms, s.loop = .unmarking batch rooms ∧
        s' = { s.unmarkSessionsNeedingBackup batch.ids with loop := .waiting }
    | .finish => ∃ readAt, s.loop = .finishing readAt ∧
        s' = { s with loop := .idle, lastRunFailed := false }
    | .throw => s.loop = .failing ∧ s' = { s with loop := .idle, lastRunFailed := true }
    | _ => True := by
  cases e with
  | wake =>
    change (match s.loop with | .waiting => _ | _ => none) = some s' at he
    split at he
    next hloop =>
      split at he
      next hnone =>
        exact ⟨hloop, .inl ⟨Option.isNone_iff_eq_none.1 hnone, (Option.some.inj he).symm⟩⟩
      · exact ⟨hloop, .inr (Option.some.inj he).symm⟩
    · exact nomatch he
  | read ids =>
    change (match s.loop with | .reading => _ | _ => none) = some s' at he
    split at he
    next hloop =>
      obtain ⟨hids, he⟩ := Option.ite_none_right_eq_some.1 he
      exact ⟨hloop, hids, (Option.some.inj he).symm⟩
    · exact nomatch he
  | encrypt =>
    change (match s.loop with | .encrypting batch rooms (p :: rest) => _ | _ => none) =
      some s' at he
    split at he
    next hloop => exact ⟨_, _, _, _, hloop, (Option.some.inj he).symm⟩
    · exact nomatch he
  | exportFails =>
    change (match s.loop with | .encrypting _ _ _ => _ | _ => none) = some s' at he
    split at he
    next hloop => exact ⟨_, _, _, hloop, (Option.some.inj he).symm⟩
    · exact nomatch he
  | uploaded =>
    change (match s.loop with | .sending batch rooms => _ | _ => none) = some s' at he
    split at he
    next hloop => exact ⟨_, _, hloop, (Option.some.inj he).symm⟩
    · exact nomatch he
  | uploadFails wrongVersion =>
    change (match s.loop with | .sending _ _ => _ | _ => none) = some s' at he
    split at he
    next hloop => exact ⟨_, _, hloop, (Option.some.inj he).symm⟩
    · exact nomatch he
  | unmark =>
    change (match s.loop with | .unmarking batch _ => _ | _ => none) = some s' at he
    split at he
    next hloop => exact ⟨_, _, hloop, (Option.some.inj he).symm⟩
    · exact nomatch he
  | finish =>
    change (match s.loop with | .finishing _ => _ | _ => none) = some s' at he
    split at he
    next hloop => exact ⟨_, hloop, (Option.some.inj he).symm⟩
    · exact nomatch he
  | throw =>
    change (match s.loop with | .failing => _ | _ => none) = some s' at he
    split at he
    next hloop => exact ⟨hloop, (Option.some.inj he).symm⟩
    · exact nomatch he
  | _ => trivial

/-! ## The data of an upload

A session takes the place of one before it that has the same room id and session id. -/

/-- The session of `sessions` that is last in its place. -/
def lastInSlot (sessions : BackupSessions Session) (slot : String × String) :
    Option (GroupSessionId × InboundGroupSessionData Session) :=
  sessions.reverse.find? fun p => backupSlot p = slot

/-- No session after it in the batch has the same room id and session id. -/
def BackupBatch.Last (batch : BackupBatch Session) (id : GroupSessionId) : Prop :=
  ∃ slot, (lastInSlot batch.sessions slot).map (·.1) = some id

/-- The upload has the data of the session. -/
def BackupUpload.Has (u : BackupUpload Session) (id : GroupSessionId) : Prop :=
  ∃ slot, (u.rooms.get slot).map (·.id) = some id

/-- `rooms` is what is made of `sessions`. -/
def RoomsOf (rooms : BackupRooms Session) (sessions : BackupSessions Session) : Prop :=
  ∀ slot, (rooms.get slot).map (·.id) = (lastInSlot sessions slot).map (·.1)

theorem lastInSlot_snoc (sessions : BackupSessions Session)
    (p : GroupSessionId × InboundGroupSessionData Session) (slot : String × String) :
    lastInSlot (sessions ++ [p]) slot =
      if slot = backupSlot p then some p else lastInSlot sessions slot := by
  rw [lastInSlot, List.reverse_append, List.reverse_singleton, List.singleton_append,
    List.find?_cons]
  by_cases h : slot = backupSlot p
  · rw [if_pos h, decide_eq_true h.symm]
  · rw [if_neg h, decide_eq_false (fun h' => h h'.symm), lastInSlot]

theorem RoomsOf.nil : RoomsOf (.empty : BackupRooms Session) [] := fun _ => rfl

/-- One more session has been encrypted. -/
theorem RoomsOf.snoc {sessions : BackupSessions Session} (h : RoomsOf rooms sessions)
    (p : GroupSessionId × InboundGroupSessionData Session) {entry : BackupEntry Session}
    (hentry : entry.id = p.1) : RoomsOf (rooms.set (backupSlot p) entry) (sessions ++ [p]) := by
  intro slot
  rw [JsObject.get_set, lastInSlot_snoc]
  by_cases hslot : slot = backupSlot p
  · rw [if_pos hslot, if_pos hslot, Option.map_some, Option.map_some, hentry]
  · rw [if_neg hslot, if_neg hslot, h slot]

theorem RoomsOf.has_iff {u : BackupUpload Session} (h : RoomsOf u.rooms batch.sessions)
    (id : GroupSessionId) : u.Has id ↔ batch.Last id := by
  constructor
  · rintro ⟨slot, hslot⟩
    exact ⟨slot, by rw [← h slot, hslot]⟩
  · rintro ⟨slot, hslot⟩
    exact ⟨slot, by rw [h slot, hslot]⟩

/-! ## What becomes of the marks -/

/-- The loop is not running, its last run did not fail, and no call is in progress. -/
def KeyBackupState.Resting (s : KeyBackupState Session) : Prop :=
  s.loop = .idle ∧ s.lastRunFailed = false ∧ s.calls = []

/-- A mark is removed after an upload with the data of the session, which was read after the mark
was set. Where the loop rests, no stored session is marked. -/
structure MarksBackedUp (s : KeyBackupState Session) : Prop where
  unmarked : ∀ id time, (id, time) ∈ s.unmarked → ∃ u ∈ s.uploads, u.Has id ∧ time < u.readAt
  scheduled : s.Resting → ∀ id, (s.sessions.get id).isSome → s.marks.get id = none

/-- The marks that the loop removes were set before the batch was read, and each is of a session
that none after it in the batch took the place of. When the loop ends, either no session has been
marked since it found none, or a call is in progress. -/
def NoMarkLost (s : KeyBackupState Session) : KeyBackupStep Session → Prop
  | .unmark => ∀ batch rooms, s.loop = .unmarking batch rooms →
      ∀ id time, id ∈ batch.ids → s.marks.get id = some time →
        time < batch.readAt ∧ batch.Last id
  | .finish => ∀ readAt, s.loop = .finishing readAt → s.calls = [] →
      ∀ id time, s.marks.get id = some time → time < readAt
  | _ => True

/-- No session with data in the upload has a mark that was set before it was read. -/
def BackupUpload.Before (u : BackupUpload Session) (marks : JsObject GroupSessionId ℕ) : Prop :=
  ∀ id time, u.Has id → marks.get id = some time → u.readAt ≤ time

/-- The upload after which the marks are yet to be removed. -/
def BackupLoop.Unmarking (loop : BackupLoop Session) (u : BackupUpload Session) : Prop :=
  ∃ batch, loop = .unmarking batch u.rooms ∧ u.readAt = batch.readAt

/-- What is known at each point of the loop. -/
def BackupLoop.Ok (s : KeyBackupState Session) : BackupLoop Session → Prop
  | .encrypting batch rooms rest =>
    batch.readAt < s.clock ∧ ∃ done, batch.sessions = done ++ rest ∧ RoomsOf rooms done
  | .sending batch rooms => batch.readAt < s.clock ∧ RoomsOf rooms batch.sessions
  | .unmarking batch rooms =>
    RoomsOf rooms batch.sessions ∧ ⟨batch.readAt, rooms⟩ ∈ s.uploads
  | .finishing readAt =>
    readAt < s.clock ∧ ∀ id time, s.marks.get id = some time → readAt ≤ time
  | _ => True

/-- What holds of the marks, the uploads and the loop. -/
structure BackupOk (s : KeyBackupState Session) : Prop where
  marks : ∀ id time, s.marks.get id = some time → (s.sessions.get id).isSome ∧ time < s.clock
  calls : ∀ id, .mark id ∈ s.calls → (s.sessions.get id).isSome
  uploads : ∀ u ∈ s.uploads, u.readAt < s.clock ∧ (s.loop.Unmarking u ∨ u.Before s.marks)
  loop : s.loop.Ok s

/-- A session without a mark is not among those that are marked. -/
theorem BackupOk.noMarks_iff (h : BackupOk s) :
    (∀ id, (s.sessions.get id).isSome → s.marks.get id = none) ↔
      ∀ id time, s.marks.get id ≠ some time := by
  constructor
  · intro hnone id time hmark
    rw [hnone id (h.marks id time hmark).1] at hmark
    exact nomatch hmark
  · intro hnone id _
    exact Option.eq_none_iff_forall_ne_some.2 (hnone id)

/-- The loop goes on, or ends, and nothing else changes. -/
theorem BackupOk.setLoop {loop : BackupLoop Session} {failed : Bool} (h : BackupOk s)
    (hloop : ∀ batch rooms, s.loop ≠ .unmarking batch rooms) (hok : loop.Ok s) :
    BackupOk { s with loop := loop, lastRunFailed := failed } where
  marks := h.marks
  calls := h.calls
  uploads u hu := by
    obtain ⟨hread, hunm | hbefore⟩ := h.uploads u hu
    · obtain ⟨batch, heq, _⟩ := hunm
      exact absurd heq (hloop batch _)
    · exact ⟨hread, .inr hbefore⟩
  loop := hok

theorem BackupOk.setCalls {calls : List BackupCall} (h : BackupOk s)
    (hcalls : ∀ id, .mark id ∈ calls → (s.sessions.get id).isSome) :
    BackupOk { s with calls := calls } :=
  ⟨h.marks, hcalls, h.uploads, h.loop⟩

theorem BackupOk.scheduleKeyBackupSend (h : BackupOk s) : BackupOk s.scheduleKeyBackupSend := by
  unfold KeyBackupState.scheduleKeyBackupSend
  split
  next hidle =>
    refine h.setLoop (fun batch rooms heq => ?_) trivial
    rw [hidle] at heq
    exact nomatch heq
  · exact h

/-- **Marking.** The new marks are later than everything that has been read. -/
theorem BackupOk.mark (h : BackupOk s) (ids : List GroupSessionId)
    (hids : ∀ id ∈ ids, (s.sessions.get id).isSome) :
    BackupOk (s.markSessionsNeedingBackup ids) := by
  have hget : ∀ id time, (s.marks.setAll ids s.clock).get id = some time →
      id ∈ ids ∧ time = s.clock ∨ s.marks.get id = some time := by
    intro id time hmark
    rw [JsObject.get_setAll] at hmark
    by_cases hid : id ∈ ids
    · rw [if_pos hid, Option.some.injEq] at hmark
      exact .inl ⟨hid, hmark.symm⟩
    · rw [if_neg hid] at hmark
      exact .inr hmark
  refine ⟨?_, h.calls, ?_, ?_⟩
  · intro id time hmark
    rcases hget id time hmark with ⟨hid, rfl⟩ | hold
    · exact ⟨hids id hid, Nat.lt_succ_self _⟩
    · exact ⟨(h.marks id time hold).1, Nat.lt_succ_of_lt (h.marks id time hold).2⟩
  · intro u hu
    obtain ⟨hread, hunm | hbefore⟩ := h.uploads u hu
    · exact ⟨Nat.lt_succ_of_lt hread, .inl hunm⟩
    · refine ⟨Nat.lt_succ_of_lt hread, .inr fun id time hhas hmark => ?_⟩
      rcases hget id time hmark with ⟨_, rfl⟩ | hold
      · exact Nat.le_of_lt hread
      · exact hbefore id time hhas hold
  · have hok := h.loop
    change s.loop.Ok _
    revert hok
    cases s.loop with
    | encrypting batch rooms rest => exact fun hok => ⟨Nat.lt_succ_of_lt hok.1, hok.2⟩
    | sending batch rooms => exact fun hok => ⟨Nat.lt_succ_of_lt hok.1, hok.2⟩
    | finishing readAt =>
      refine fun hok => ⟨Nat.lt_succ_of_lt hok.1, fun id time hmark => ?_⟩
      rcases hget id time hmark with ⟨_, rfl⟩ | hold
      · exact Nat.le_of_lt hok.1
      · exact hok.2 id time hold
    | _ => exact id

/-- **An upload.** The data was read before any mark that is set from now on. -/
theorem BackupOk.uploaded (h : BackupOk s) (hloop : s.loop = .sending batch rooms) :
    BackupOk { s with
      loop := .unmarking batch rooms, uploads := s.uploads ++ [⟨batch.readAt, rooms⟩] } := by
  have hok := h.loop
  rw [hloop] at hok
  refine ⟨h.marks, h.calls, fun u hu => ?_, hok.2,
    List.mem_append_right _ (List.mem_singleton_self _)⟩
  rcases List.mem_append.1 hu with hold | hnew
  · obtain ⟨hread, ⟨batch', heq, _⟩ | hbefore⟩ := h.uploads u hold
    · rw [hloop] at heq
      exact nomatch heq
    · exact ⟨hread, .inr hbefore⟩
  · obtain rfl := List.mem_singleton.1 hnew
    exact ⟨hok.1, .inl ⟨batch, rfl, rfl⟩⟩

/-- **Unmarking.** No mark of the batch is left, so that its upload is before all marks there
are. -/
theorem BackupOk.unmark (h : BackupOk s) (hloop : s.loop = .unmarking batch rooms) :
    BackupOk { s.unmarkSessionsNeedingBackup batch.ids with loop := .waiting } := by
  have hget : ∀ id time, (s.marks.filter fun id => id ∉ batch.ids).get id = some time →
      id ∉ batch.ids ∧ s.marks.get id = some time := by
    intro id time hmark
    rw [JsObject.get_filter] at hmark
    by_cases hid : id ∈ batch.ids
    · simp [hid] at hmark
    · simpa [hid] using hmark
  have hok := h.loop
  rw [hloop] at hok
  refine ⟨fun id time hmark => h.marks id time (hget id time hmark).2, h.calls, ?_,
    trivial⟩
  intro u hu
  obtain ⟨hread, ⟨batch', heq, _⟩ | hbefore⟩ := h.uploads u hu
  · rw [hloop] at heq
    obtain ⟨rfl, rfl⟩ := BackupLoop.unmarking.inj heq
    refine ⟨hread, .inr fun id time hhas hmark => ?_⟩
    -- what is in the upload is in the batch
    obtain ⟨slot, hslot⟩ := (hok.1.has_iff id).1 hhas
    obtain ⟨p, hp, rfl⟩ := Option.map_eq_some_iff.1 hslot
    have hmem : p ∈ batch.sessions := List.mem_reverse.1 (List.mem_of_find?_eq_some hp)
    exact absurd (List.mem_map_of_mem hmem) (hget _ time hmark).1
  · exact ⟨hread, .inr fun id time hhas hmark => hbefore id time hhas (hget id time hmark).2⟩

/-- **Reading.** A batch that is empty means that there are no marks. -/
theorem BackupOk.read (h : BackupOk s) {ids : List GroupSessionId} (hloop : s.loop = .reading)
    (hids : s.MayRead ids) : BackupOk (s.getSessionsNeedingBackup ids) := by
  have huploads : ∀ u ∈ s.uploads, u.readAt < s.clock + 1 ∧ u.Before s.marks := by
    intro u hu
    obtain ⟨hread, ⟨batch, heq, _⟩ | hbefore⟩ := h.uploads u hu
    · rw [hloop] at heq
      exact nomatch heq
    · exact ⟨Nat.lt_succ_of_lt hread, hbefore⟩
  have hmarks : ∀ id time, s.marks.get id = some time →
      (s.sessions.get id).isSome ∧ time < s.clock + 1 := fun id time hmark =>
    ⟨(h.marks id time hmark).1, Nat.lt_succ_of_lt (h.marks id time hmark).2⟩
  unfold KeyBackupState.getSessionsNeedingBackup
  cases ids with
  | nil =>
    refine ⟨hmarks, h.calls, fun u hu => ⟨(huploads u hu).1, .inr (huploads u hu).2⟩,
      Nat.lt_succ_self _, fun id time hmark => ?_⟩
    have hnone : s.sessions.get id = none :=
      hids.2.2 rfl id (JsObject.mem_keys_of_get hmark)
    have hsome := (h.marks id time hmark).1
    rw [hnone] at hsome
    exact nomatch hsome
  | cons id ids =>
    exact ⟨hmarks, h.calls, fun u hu => ⟨(huploads u hu).1, .inr (huploads u hu).2⟩,
      Nat.lt_succ_self _, [], rfl, .nil⟩

/-- **Encrypting.** -/
theorem BackupOk.encrypt (h : BackupOk s) (hloop : s.loop = .encrypting batch rooms (p :: rest)) :
    BackupOk (s.encrypt batch rooms p rest) := by
  have hok := h.loop
  rw [hloop] at hok
  obtain ⟨hread, done, hsessions, hrooms⟩ := hok
  rw [List.append_cons] at hsessions
  have hnot : ∀ batch rooms, s.loop ≠ .unmarking batch rooms := by
    intro _ _ heq
    rw [hloop] at heq
    exact nomatch heq
  unfold KeyBackupState.encrypt
  split
  · exact h.setLoop hnot trivial
  next key hkey =>
    have hused : BackupOk (s.useKey key) :=
      ⟨h.marks, h.calls, h.uploads, h.loop⟩
    have hrooms' : RoomsOf (rooms.set (backupSlot p) ⟨p.1, p.2, key.recipientKey, s.backupInfo⟩)
        (done ++ [p]) := hrooms.snoc p rfl
    dsimp only
    split
    next q rest =>
      exact hused.setLoop hnot ⟨hread, _, hsessions, hrooms'⟩
    · split
      · exact hused.setLoop hnot trivial
      next version _ =>
        rw [List.append_nil] at hsessions
        have hsending : BackupOk { s.useKey key with loop := .sending batch (rooms.set (backupSlot p)
            ⟨p.1, p.2, key.recipientKey, s.backupInfo⟩) } :=
          hused.setLoop hnot ⟨hread, hsessions ▸ hrooms'⟩
        exact ⟨hsending.marks, hsending.calls, hsending.uploads, hsending.loop⟩

theorem BackupOk.enableKeyBackup (h : BackupOk s) (publicKey : String → String) (version : String) :
    BackupOk (s.enableKeyBackup publicKey version) := by
  refine BackupOk.scheduleKeyBackupSend ?_
  rw [KeyBackupState.freeBackupKey_eq]
  exact ⟨h.marks, h.calls, h.uploads, h.loop⟩

theorem BackupOk.disableKeyBackup (h : BackupOk s) : BackupOk s.disableKeyBackup := by
  rw [KeyBackupState.disableKeyBackup_eq]
  exact ⟨h.marks, h.calls, h.uploads, h.loop⟩

theorem BackupOk.start (sessions : JsObject GroupSessionId (InboundGroupSessionData Session))
    (marked : List GroupSessionId) : BackupOk (KeyBackupState.start sessions marked) := by
  refine ⟨?_, fun id hid => absurd hid List.not_mem_nil, fun u hu => absurd hu List.not_mem_nil,
    trivial⟩
  intro id time hmark
  obtain ⟨data, hdata, rfl⟩ := Option.map_eq_some_iff.1 hmark
  rw [JsObject.get_filter] at hdata
  by_cases hid : id ∈ marked
  · rw [if_pos (decide_eq_true hid)] at hdata
    exact ⟨Option.isSome_of_eq_some hdata, Nat.one_pos⟩
  · rw [if_neg (by simp [hid])] at hdata
    exact nomatch hdata

/-- **The invariant of the loop.** -/
theorem backupOk_step (h : BackupOk s)
    (he : (keyBackupSystem publicKey sessions marked).step s e = some s') : BackupOk s' := by
  have hnot_of : ∀ {loop}, s.loop = loop → (∀ batch rooms, loop ≠ .unmarking batch rooms) →
      ∀ batch rooms, s.loop ≠ .unmarking batch rooms := fun h h' batch rooms => h ▸ h' batch rooms
  cases e with
  | storeSession id data =>
    obtain rfl := Option.some.inj he
    have hstored : ∀ id', (s.sessions.get id').isSome →
        ((s.sessions.set id data).get id').isSome := by
      intro id' hid'
      rw [JsObject.get_set]
      split
      · rfl
      · exact hid'
    exact ⟨fun id' time hmark => ⟨hstored id' (h.marks id' time hmark).1,
      (h.marks id' time hmark).2⟩, fun id' hid' => hstored id' (h.calls id' hid'), h.uploads,
      h.loop⟩
  | backupGroupSession id =>
    obtain ⟨hid, he⟩ := Option.ite_none_right_eq_some.1 he
    split at he
    · obtain rfl := Option.some.inj he
      exact h
    · obtain rfl := Option.some.inj he
      refine h.setCalls fun id' hid' => ?_
      rcases List.mem_append.1 hid' with hold | hnew
      · exact h.calls id' hold
      · obtain rfl := BackupCall.mark.inj (List.mem_singleton.1 hnew)
        exact hid
  | scheduleAllGroupSessionsForBackup =>
    obtain rfl := Option.some.inj he
    refine h.setCalls fun id' hid' => ?_
    rcases List.mem_append.1 hid' with hold | hnew
    · exact h.calls id' hold
    · exact nomatch List.mem_singleton.1 hnew
  | proceed i =>
    have hset : ∀ id', .mark id' ∈ s.calls.set i .schedule → (s.sessions.get id').isSome := by
      intro id' hid'
      rcases List.mem_or_eq_of_mem_set hid' with hold | hnew
      · exact h.calls id' hold
      · exact nomatch hnew
    change s.proceed i = some s' at he
    unfold KeyBackupState.proceed at he
    split at he
    · exact nomatch he
    next id hi =>
      obtain rfl := Option.some.inj he
      refine (h.setCalls hset).mark [id] fun id' hid' => ?_
      rw [List.mem_singleton.1 hid']
      exact h.calls id (List.mem_of_getElem? hi)
    next hi =>
      obtain rfl := Option.some.inj he
      exact (h.setCalls hset).mark s.sessions.keys fun id' hid' => (s.sessions.mem_keys id').1 hid'
    next hi =>
      obtain rfl := Option.some.inj he
      exact (h.setCalls fun id' hid' =>
        h.calls id' (List.mem_of_mem_eraseIdx hid')).scheduleKeyBackupSend
  | enableKeyBackup version' =>
    obtain rfl := Option.some.inj he
    exact h.enableKeyBackup publicKey version'
  | disableKeyBackup =>
    obtain rfl := Option.some.inj he
    exact h.disableKeyBackup
  | wake =>
    obtain ⟨hwait, ⟨_, rfl⟩ | rfl⟩ := loop_step he
    · exact h.setLoop (hnot_of hwait nofun) trivial
    · exact h.setLoop (hnot_of hwait nofun) trivial
  | read ids =>
    obtain ⟨hread, hids, rfl⟩ := loop_step he
    exact h.read hread hids
  | encrypt =>
    obtain ⟨batch, rooms, p, rest, hencrypt, rfl⟩ := loop_step he
    exact h.encrypt hencrypt
  | exportFails =>
    obtain ⟨batch, rooms, rest, hencrypt, rfl⟩ := loop_step he
    exact h.setLoop (hnot_of hencrypt nofun) trivial
  | uploaded =>
    obtain ⟨batch, rooms, hsend, rfl⟩ := loop_step he
    exact h.uploaded hsend
  | uploadFails wrongVersion =>
    obtain ⟨batch, rooms, hsend, rfl⟩ := loop_step he
    refine h.setLoop (hnot_of hsend nofun) ?_
    cases wrongVersion <;> trivial
  | unmark =>
    obtain ⟨batch, rooms, hunmark, rfl⟩ := loop_step he
    exact h.unmark hunmark
  | finish =>
    obtain ⟨readAt, hfinish, rfl⟩ := loop_step he
    exact h.setLoop (hnot_of hfinish nofun) trivial
  | throw =>
    obtain ⟨hfail, rfl⟩ := loop_step he
    exact h.setLoop (hnot_of hfail nofun) trivial

/-! ### Marks that are lost -/

/-- Encrypting a session does not end the loop. -/
theorem KeyBackupState.encrypt_eq (s : KeyBackupState Session) (batch : BackupBatch Session)
    (rooms : BackupRooms Session) (p : GroupSessionId × InboundGroupSessionData Session)
    (rest : BackupSessions Session) :
    ∃ loop used sent, s.encrypt batch rooms p rest =
      { s with loop := loop, usedAfterFree := used, sent := sent } ∧ loop ≠ .idle := by
  unfold KeyBackupState.encrypt
  split
  · exact ⟨_, _, _, rfl, nofun⟩
  · dsimp only
    split
    · exact ⟨_, _, _, rfl, nofun⟩
    · split
      · exact ⟨_, _, _, rfl, nofun⟩
      · exact ⟨_, _, _, rfl, nofun⟩

/-- Only `unmark` takes marks away, only uploads add to the uploads, and the loop comes to rest
only by `finish` as long as there is a key. -/
theorem marks_step (hkey : s.backupKey.isSome) (hunmark : e ≠ .unmark) (hfinish : e ≠ .finish)
    (he : (keyBackupSystem publicKey sessions marked).step s e = some s') :
    s'.unmarked = s.unmarked ∧ (∀ u ∈ s.uploads, u ∈ s'.uploads) ∧
      (s'.Resting → s.Resting ∧ s'.marks = s.marks) := by
  cases e with
  | storeSession id data =>
    obtain rfl := Option.some.inj he
    exact ⟨rfl, fun u hu => hu, fun hrest => ⟨hrest, rfl⟩⟩
  | backupGroupSession id =>
    obtain ⟨_, he⟩ := Option.ite_none_right_eq_some.1 he
    split at he
    · obtain rfl := Option.some.inj he
      exact ⟨rfl, fun u hu => hu, fun hrest => ⟨hrest, rfl⟩⟩
    · obtain rfl := Option.some.inj he
      exact ⟨rfl, fun u hu => hu, fun hrest =>
        absurd hrest.2.2 (List.append_ne_nil_of_right_ne_nil _ nofun)⟩
  | scheduleAllGroupSessionsForBackup =>
    obtain rfl := Option.some.inj he
    exact ⟨rfl, fun u hu => hu, fun hrest =>
        absurd hrest.2.2 (List.append_ne_nil_of_right_ne_nil _ nofun)⟩
  | proceed i =>
    change s.proceed i = some s' at he
    have hset : ∀ {call}, s.calls[i]? = some call → s.calls.set i .schedule ≠ [] := by
      intro call hi hnil
      rw [(List.set_eq_nil_iff _ _).1 hnil] at hi
      exact nomatch hi
    unfold KeyBackupState.proceed at he
    split at he
    · exact nomatch he
    next hi =>
      obtain rfl := Option.some.inj he
      exact ⟨rfl, fun u hu => hu, fun hrest => absurd hrest.2.2 (hset hi)⟩
    next hi =>
      obtain rfl := Option.some.inj he
      exact ⟨rfl, fun u hu => hu, fun hrest => absurd hrest.2.2 (hset hi)⟩
    next hi =>
      obtain ⟨loop, heq, hloop, _⟩ :=
        KeyBackupState.scheduleKeyBackupSend_eq { s with calls := s.calls.eraseIdx i }
      obtain rfl := Option.some.inj he
      rw [heq]
      exact ⟨rfl, fun u hu => hu, fun hrest => absurd hrest.1 hloop⟩
  | enableKeyBackup version =>
    obtain rfl := Option.some.inj he
    obtain ⟨loop, heq, hloop, _⟩ := s.enableKeyBackup_eq publicKey version
    rw [heq]
    exact ⟨rfl, fun u hu => hu, fun hrest => absurd hrest.1 hloop⟩
  | disableKeyBackup =>
    obtain rfl := Option.some.inj he
    rw [KeyBackupState.disableKeyBackup_eq]
    exact ⟨rfl, fun u hu => hu, fun hrest => ⟨hrest, rfl⟩⟩
  | wake =>
    obtain ⟨_, ⟨hnone, rfl⟩ | rfl⟩ := loop_step he
    · rw [hnone] at hkey
      exact nomatch hkey
    · exact ⟨rfl, fun u hu => hu, fun hrest => (nomatch hrest.1)⟩
  | read ids =>
    obtain ⟨_, _, rfl⟩ := loop_step he
    unfold KeyBackupState.getSessionsNeedingBackup
    cases ids with
    | nil => exact ⟨rfl, fun u hu => hu, fun hrest => (nomatch hrest.1)⟩
    | cons id ids => exact ⟨rfl, fun u hu => hu, fun hrest => (nomatch hrest.1)⟩
  | encrypt =>
    obtain ⟨batch, rooms, p, rest, _, rfl⟩ := loop_step he
    obtain ⟨loop, used, sent, heq, hloop⟩ := s.encrypt_eq batch rooms p rest
    rw [heq]
    exact ⟨rfl, fun u hu => hu, fun hrest => absurd hrest.1 hloop⟩
  | exportFails =>
    obtain ⟨batch, rooms, rest, _, rfl⟩ := loop_step he
    exact ⟨rfl, fun u hu => hu, fun hrest => (nomatch hrest.1)⟩
  | uploaded =>
    obtain ⟨batch, rooms, _, rfl⟩ := loop_step he
    exact ⟨rfl, fun u hu => List.mem_append_left _ hu, fun hrest => (nomatch hrest.1)⟩
  | uploadFails wrongVersion =>
    obtain ⟨batch, rooms, _, rfl⟩ := loop_step he
    refine ⟨rfl, fun u hu => hu, fun hrest => ?_⟩
    cases wrongVersion with
    | true => exact nomatch hrest.1
    | false => exact nomatch hrest.1
  | unmark => exact absurd rfl hunmark
  | finish => exact absurd rfl hfinish
  | throw =>
    obtain ⟨_, rfl⟩ := loop_step he
    exact ⟨rfl, fun u hu => hu, fun hrest => (nomatch hrest.2.1)⟩

/-- The marks that are removed are those of the batch. -/
theorem KeyBackupState.mem_unmarked {ids : List GroupSessionId} {id : GroupSessionId} {time : ℕ} :
    (id, time) ∈ (s.unmarkSessionsNeedingBackup ids).unmarked ↔
      (id, time) ∈ s.unmarked ∨ id ∈ ids ∧ s.marks.get id = some time := by
  unfold KeyBackupState.unmarkSessionsNeedingBackup
  rw [List.mem_append, List.mem_filterMap]
  refine or_congr_right ⟨?_, ?_⟩
  · rintro ⟨id', hid', hmap⟩
    obtain ⟨time', hmark, heq⟩ := Option.map_eq_some_iff.1 hmap
    obtain ⟨rfl, rfl⟩ := Prod.mk.inj heq
    exact ⟨hid', hmark⟩
  · rintro ⟨hid, hmark⟩
    exact ⟨id, hid, by rw [hmark, Option.map_some]⟩

/-- **Unmarking, exactly.** An upload that is over is of no use for a mark that is there now, so
that the last one has to have the session as it was after the mark was set. -/
theorem marksBackedUp_unmark (hI : BackupOk s) (hP : MarksBackedUp s)
    (hloop : s.loop = .unmarking batch rooms) :
    MarksBackedUp { s.unmarkSessionsNeedingBackup batch.ids with loop := .waiting } ↔
      NoMarkLost s .unmark := by
  have hok := hI.loop
  rw [hloop] at hok
  constructor
  · intro hP' batch' rooms' hloop' id time hid hmark
    rw [hloop] at hloop'
    obtain ⟨rfl, rfl⟩ := BackupLoop.unmarking.inj hloop'
    obtain ⟨u, hu, hhas, htime⟩ :=
      hP'.unmarked id time (KeyBackupState.mem_unmarked.2 (.inr ⟨hid, hmark⟩))
    obtain ⟨_, ⟨batch', heq, hread⟩ | hbefore⟩ := hI.uploads u hu
    · rw [hloop] at heq
      obtain ⟨rfl, rfl⟩ := BackupLoop.unmarking.inj heq
      rw [hread] at htime
      exact ⟨htime, (hok.1.has_iff id).1 hhas⟩
    · exact absurd (hbefore id time hhas hmark) (Nat.not_le_of_lt htime)
  · intro hC
    refine ⟨fun id time hmem => ?_, fun hrest => (nomatch hrest.1)⟩
    rcases KeyBackupState.mem_unmarked.1 hmem with hold | ⟨hid, hmark⟩
    · exact hP.unmarked id time hold
    · obtain ⟨htime, hlast⟩ := hC batch rooms hloop id time hid hmark
      exact ⟨_, hok.2, (RoomsOf.has_iff hok.1 id).2 hlast, htime⟩

/-- **Ending, exactly.** The marks that are there have been set since the loop found none. -/
theorem marksBackedUp_finish {readAt : ℕ} (hI : BackupOk s) (hP : MarksBackedUp s)
    (hloop : s.loop = .finishing readAt) :
    MarksBackedUp { s with loop := .idle, lastRunFailed := false } ↔ NoMarkLost s .finish := by
  have hok := hI.loop
  rw [hloop] at hok
  constructor
  · intro hP' readAt' _ hcalls id time hmark
    exact absurd hmark (hI.noMarks_iff.1 (hP'.scheduled ⟨rfl, rfl, hcalls⟩) id time)
  · intro hC
    refine ⟨hP.unmarked, fun hrest => hI.noMarks_iff.2 fun id time hmark => ?_⟩
    have htime : time < readAt := hC readAt hloop hrest.2.2 id time hmark
    exact absurd (hok.2 id time hmark) (Nat.not_le_of_lt htime)

theorem marksBackedUp_step (hI : BackupOk s) (hkey : s.backupKey.isSome) (hP : MarksBackedUp s)
    (he : (keyBackupSystem publicKey sessions marked).step s e = some s') :
    MarksBackedUp s' ↔ NoMarkLost s e := by
  by_cases hunmark : e = .unmark
  · subst hunmark
    obtain ⟨batch, rooms, hloop, rfl⟩ := loop_step he
    exact marksBackedUp_unmark hI hP hloop
  by_cases hfinish : e = .finish
  · subst hfinish
    obtain ⟨readAt, hloop, rfl⟩ := loop_step he
    exact marksBackedUp_finish hI hP hloop
  have hC : NoMarkLost s e := by
    cases e with
    | unmark => exact absurd rfl hunmark
    | finish => exact absurd rfl hfinish
    | _ => trivial
  obtain ⟨hsame, huploads, hrests⟩ := marks_step hkey hunmark hfinish he
  refine iff_of_true ⟨fun id time hmem => ?_, fun hrest => ?_⟩ hC
  · rw [hsame] at hmem
    obtain ⟨u, hu, hhas⟩ := hP.unmarked id time hmem
    exact ⟨u, huploads u hu, hhas⟩
  · obtain ⟨hrest₀, hmarks⟩ := hrests hrest
    have hnone := hI.noMarks_iff.1 (hP.scheduled hrest₀)
    rw [(backupOk_step hI he).noMarks_iff, hmarks]
    exact hnone

/-! ## For which key the sessions are encrypted -/

/-- Every session that has been sent was encrypted for the public key of the version it was sent
to, and no key has been used after it was freed. -/
structure BackupKeysMatch (publicKey : String → String) (s : KeyBackupState Session) : Prop where
  sent : ∀ req ∈ s.sent, ∀ slot entry, req.rooms.get slot = some entry →
    entry.publicKey = publicKey req.version
  notFreed : s.usedAfterFree = []

/-- When the last session of a batch is encrypted, each of the sessions before it was encrypted
while a version with the same public key was enabled. -/
def SameKeyThroughout (publicKey : String → String) (s : KeyBackupState Session) :
    KeyBackupStep Session → Prop
  | .encrypt => ∀ batch rooms p version, s.loop = .encrypting batch rooms [p] →
      s.backupInfo = some version → ∀ slot entry, slot ≠ backupSlot p →
        rooms.get slot = some entry → entry.version.map publicKey = some (publicKey version)
  | _ => True

/-- What holds of keys: the one there is belongs to the version that is enabled, and has not been
freed; and a session is encrypted for the version that was enabled then. -/
structure BackupKeyOk (publicKey : String → String) (s : KeyBackupState Session) : Prop where
  enabled : s.backupInfo.map publicKey = s.backupKey.map (·.recipientKey)
  current : ∀ key, s.backupKey = some key → key.object < s.nextObject ∧ key.object ∉ s.freed
  freed : ∀ object ∈ s.freed, object < s.nextObject
  notFreed : s.usedAfterFree = []
  entries : ∀ batch rooms rest, s.loop = .encrypting batch rooms rest → ∀ slot entry,
    rooms.get slot = some entry → entry.version.map publicKey = some entry.publicKey

/-- The steps that use keys. -/
def KeyBackupStep.usesKey : KeyBackupStep Session → Bool
  | .encrypt | .enableKeyBackup _ | .disableKeyBackup => true
  | _ => false

/-- Nothing that has to do with keys has changed. -/
structure SameKeys (s s' : KeyBackupState Session) : Prop where
  backupInfo : s'.backupInfo = s.backupInfo
  backupKey : s'.backupKey = s.backupKey
  nextObject : s'.nextObject = s.nextObject
  freed : s'.freed = s.freed
  usedAfterFree : s'.usedAfterFree = s.usedAfterFree
  sent : s'.sent = s.sent
  loop : ∀ batch rooms rest, s'.loop = .encrypting batch rooms rest →
    s.loop = .encrypting batch rooms rest ∨ rooms = .empty

theorem SameKeys.refl (s : KeyBackupState Session) : SameKeys s s :=
  ⟨rfl, rfl, rfl, rfl, rfl, rfl, fun _ _ _ heq => .inl heq⟩

theorem keys_step (huses : e.usesKey = false)
    (he : (keyBackupSystem publicKey sessions marked).step s e = some s') : SameKeys s s' := by
  have hsame := SameKeys.refl s
  cases e with
  | storeSession id data =>
    obtain rfl := Option.some.inj he
    exact ⟨rfl, rfl, rfl, rfl, rfl, rfl, hsame.loop⟩
  | backupGroupSession id =>
    obtain ⟨_, he⟩ := Option.ite_none_right_eq_some.1 he
    split at he
    · obtain rfl := Option.some.inj he
      exact hsame
    · obtain rfl := Option.some.inj he
      exact ⟨rfl, rfl, rfl, rfl, rfl, rfl, hsame.loop⟩
  | scheduleAllGroupSessionsForBackup =>
    obtain rfl := Option.some.inj he
    exact ⟨rfl, rfl, rfl, rfl, rfl, rfl, hsame.loop⟩
  | proceed i =>
    change s.proceed i = some s' at he
    unfold KeyBackupState.proceed at he
    split at he
    · exact nomatch he
    · obtain rfl := Option.some.inj he
      exact ⟨rfl, rfl, rfl, rfl, rfl, rfl, hsame.loop⟩
    · obtain rfl := Option.some.inj he
      exact ⟨rfl, rfl, rfl, rfl, rfl, rfl, hsame.loop⟩
    · obtain rfl := Option.some.inj he
      unfold KeyBackupState.scheduleKeyBackupSend
      split
      · exact ⟨rfl, rfl, rfl, rfl, rfl, rfl, nofun⟩
      · exact ⟨rfl, rfl, rfl, rfl, rfl, rfl, hsame.loop⟩
  | enableKeyBackup version => exact nomatch huses
  | disableKeyBackup => exact nomatch huses
  | wake =>
    obtain ⟨_, ⟨_, rfl⟩ | rfl⟩ := loop_step he
    · exact ⟨rfl, rfl, rfl, rfl, rfl, rfl, nofun⟩
    · exact ⟨rfl, rfl, rfl, rfl, rfl, rfl, nofun⟩
  | read ids =>
    obtain ⟨_, _, rfl⟩ := loop_step he
    unfold KeyBackupState.getSessionsNeedingBackup
    cases ids with
    | nil => exact ⟨rfl, rfl, rfl, rfl, rfl, rfl, nofun⟩
    | cons id ids =>
      refine ⟨rfl, rfl, rfl, rfl, rfl, rfl, fun batch rooms rest heq => .inr ?_⟩
      exact (BackupLoop.encrypting.inj heq).2.1.symm
  | encrypt => exact nomatch huses
  | exportFails =>
    obtain ⟨batch, rooms, rest, _, rfl⟩ := loop_step he
    exact ⟨rfl, rfl, rfl, rfl, rfl, rfl, nofun⟩
  | uploaded =>
    obtain ⟨batch, rooms, _, rfl⟩ := loop_step he
    exact ⟨rfl, rfl, rfl, rfl, rfl, rfl, nofun⟩
  | uploadFails wrongVersion =>
    obtain ⟨batch, rooms, _, rfl⟩ := loop_step he
    cases wrongVersion with
    | true => exact ⟨rfl, rfl, rfl, rfl, rfl, rfl, nofun⟩
    | false => exact ⟨rfl, rfl, rfl, rfl, rfl, rfl, nofun⟩
  | unmark =>
    obtain ⟨batch, rooms, _, rfl⟩ := loop_step he
    exact ⟨rfl, rfl, rfl, rfl, rfl, rfl, nofun⟩
  | finish =>
    obtain ⟨readAt, _, rfl⟩ := loop_step he
    exact ⟨rfl, rfl, rfl, rfl, rfl, rfl, nofun⟩
  | throw =>
    obtain ⟨_, rfl⟩ := loop_step he
    exact ⟨rfl, rfl, rfl, rfl, rfl, rfl, nofun⟩

theorem BackupKeyOk.same (h : BackupKeyOk publicKey s) (hsame : SameKeys s s') :
    BackupKeyOk publicKey s' where
  enabled := by rw [hsame.backupInfo, hsame.backupKey, h.enabled]
  current key hkey := by
    rw [hsame.backupKey] at hkey
    rw [hsame.nextObject, hsame.freed]
    exact h.current key hkey
  freed object hobject := by
    rw [hsame.freed] at hobject
    rw [hsame.nextObject]
    exact h.freed object hobject
  notFreed := hsame.usedAfterFree.trans h.notFreed
  entries batch rooms rest hloop slot entry hentry := by
    rcases hsame.loop batch rooms rest hloop with hold | rfl
    · exact h.entries batch rooms rest hold slot entry hentry
    · exact nomatch hentry

/-- Using the key that is there. -/
theorem BackupKeyOk.useKey (h : BackupKeyOk publicKey s) {key : BackupKey}
    (hkey : s.backupKey = some key) : s.useKey key = s := by
  unfold KeyBackupState.useKey
  dsimp only
  rw [if_neg (h.current key hkey).2]

/-- The key that is there is freed, and it will not be there any more. -/
theorem BackupKeyOk.freeBackupKey (h : BackupKeyOk publicKey s) :
    (∀ object ∈ s.freeBackupKey.freed, object < s.nextObject) ∧
      s.freeBackupKey.usedAfterFree = [] := by
  unfold KeyBackupState.freeBackupKey
  split
  · exact ⟨h.freed, h.notFreed⟩
  next key hkey =>
    rw [h.useKey hkey]
    refine ⟨fun object hobject => ?_, h.notFreed⟩
    rcases List.mem_cons.1 hobject with rfl | hold
    · exact (h.current key hkey).1
    · exact h.freed object hold

theorem BackupKeyOk.enableKeyBackup (h : BackupKeyOk publicKey s) (version : String) :
    BackupKeyOk publicKey (s.enableKeyBackup publicKey version) := by
  obtain ⟨hfreed, hused⟩ := h.freeBackupKey
  obtain ⟨loop, heq, _, hloop⟩ := s.enableKeyBackup_eq publicKey version
  rw [heq]
  refine ⟨rfl, fun key hkey => ?_, fun object hobject => Nat.lt_succ_of_lt (hfreed object hobject),
    hused, fun batch rooms rest hencrypting => ?_⟩
  · obtain rfl := Option.some.inj hkey
    exact ⟨Nat.lt_succ_self _, fun hmem => Nat.lt_irrefl _ (hfreed _ hmem)⟩
  · rcases hloop with rfl | rfl
    · exact nomatch hencrypting
    · exact h.entries batch rooms rest hencrypting

theorem BackupKeyOk.disableKeyBackup (h : BackupKeyOk publicKey s) :
    BackupKeyOk publicKey s.disableKeyBackup := by
  obtain ⟨hfreed, hused⟩ := h.freeBackupKey
  rw [KeyBackupState.disableKeyBackup_eq]
  exact ⟨rfl, nofun, hfreed, hused, h.entries⟩

/-- The session is encrypted for the version that is enabled, and after its last session the batch
is sent to that version. -/
theorem BackupKeyOk.encrypt_cases (h : BackupKeyOk publicKey s) (batch : BackupBatch Session)
    (rooms : BackupRooms Session) (p : GroupSessionId × InboundGroupSessionData Session)
    (rest : BackupSessions Session) :
    s.backupInfo = none ∧ s.encrypt batch rooms p rest = { s with loop := .waiting } ∨
      ∃ version, s.backupInfo = some version ∧
        let sent := rooms.set (backupSlot p) ⟨p.1, p.2, publicKey version, some version⟩
        s.encrypt batch rooms p rest =
          match rest with
          | [] => { s with loop := .sending batch sent, sent := s.sent ++ [⟨version, sent⟩] }
          | q :: rest => { s with loop := .encrypting batch sent (q :: rest) } := by
  have henabled := h.enabled
  unfold KeyBackupState.encrypt
  split
  next hkey =>
    rw [hkey, Option.map_none, Option.map_eq_none_iff] at henabled
    exact .inl ⟨henabled, rfl⟩
  next key hkey =>
    rw [hkey, Option.map_some] at henabled
    obtain ⟨version, hversion, hpublic⟩ := Option.map_eq_some_iff.1 henabled
    refine .inr ⟨version, hversion, ?_⟩
    dsimp only
    rw [h.useKey hkey, hpublic]
    cases rest with
    | nil =>
      dsimp only
      split
      next hnone => exact nomatch hversion.symm.trans hnone
      next version' hsome =>
        obtain rfl := Option.some.inj (hversion.symm.trans hsome)
        rw [hversion]
    | cons q rest => rw [hversion]

theorem BackupKeyOk.encrypt (h : BackupKeyOk publicKey s)
    (hloop : s.loop = .encrypting batch rooms (p :: rest)) :
    BackupKeyOk publicKey (s.encrypt batch rooms p rest) := by
  rcases h.encrypt_cases batch rooms p rest with ⟨_, heq⟩ | ⟨version, hversion, heq⟩
  · rw [heq]
    exact ⟨h.enabled, h.current, h.freed, h.notFreed, nofun⟩
  · rw [heq]
    cases rest with
    | nil => exact ⟨h.enabled, h.current, h.freed, h.notFreed, nofun⟩
    | cons q rest =>
      refine ⟨h.enabled, h.current, h.freed, h.notFreed, ?_⟩
      intro batch' rooms' rest' hloop' slot entry hentry
      obtain ⟨rfl, rfl, rfl⟩ := BackupLoop.encrypting.inj hloop'
      rw [JsObject.get_set] at hentry
      by_cases hslot : slot = backupSlot p
      · rw [if_pos hslot] at hentry
        obtain rfl := Option.some.inj hentry
        rfl
      · rw [if_neg hslot] at hentry
        exact h.entries batch rooms _ hloop slot entry hentry

theorem backupKeyOk_init :
    BackupKeyOk publicKey (keyBackupSystem publicKey sessions marked).init :=
  ⟨rfl, nofun, fun _ hobject => absurd hobject List.not_mem_nil, rfl, nofun⟩

/-- **The invariant of the keys.** -/
theorem backupKeyOk_step (h : BackupKeyOk publicKey s)
    (he : (keyBackupSystem publicKey sessions marked).step s e = some s') :
    BackupKeyOk publicKey s' := by
  cases huses : e.usesKey with
  | false => exact h.same (keys_step huses he)
  | true =>
    cases e with
    | encrypt =>
      obtain ⟨batch, rooms, p, rest, hloop, rfl⟩ := loop_step he
      exact h.encrypt hloop
    | enableKeyBackup version =>
      obtain rfl := Option.some.inj he
      exact h.enableKeyBackup version
    | disableKeyBackup =>
      obtain rfl := Option.some.inj he
      exact h.disableKeyBackup
    | _ => exact nomatch huses

/-- A step that sends nothing is harmless. -/
theorem BackupKeysMatch.same (h : BackupKeysMatch publicKey s) (hsent : s'.sent = s.sent)
    (hI : BackupKeyOk publicKey s') : BackupKeysMatch publicKey s' :=
  ⟨by rw [hsent]; exact h.sent, hI.notFreed⟩

/-- **Encrypting, exactly.** Of a batch that is sent, the last session is for the right key, and
those before it are if the version they were encrypted for has the same one. -/
theorem backupKeysMatch_encrypt (hI : BackupKeyOk publicKey s) (hP : BackupKeysMatch publicKey s)
    (hloop : s.loop = .encrypting batch rooms (p :: rest)) :
    BackupKeysMatch publicKey (s.encrypt batch rooms p rest) ↔
      SameKeyThroughout publicKey s .encrypt := by
  have hI' : BackupKeyOk publicKey (s.encrypt batch rooms p rest) := hI.encrypt hloop
  -- nothing is sent, unless the session is the last one
  have hnone : (s.encrypt batch rooms p rest).sent = s.sent →
      (∀ version, s.backupInfo = some version → rest ≠ []) →
      (BackupKeysMatch publicKey (s.encrypt batch rooms p rest) ↔
        SameKeyThroughout publicKey s .encrypt) := by
    intro hsent hrest
    refine iff_of_true (hP.same hsent hI') fun batch' rooms' p' version hloop' hversion => ?_
    rw [hloop] at hloop'
    exact absurd (List.cons.inj (BackupLoop.encrypting.inj hloop').2.2).2 (hrest version hversion)
  rcases hI.encrypt_cases batch rooms p rest with ⟨hinfo, heq⟩ | ⟨version, hversion, heq⟩
  · refine hnone (by rw [heq]) fun version hversion => ?_
    rw [hinfo] at hversion
    exact nomatch hversion
  cases rest with
  | cons q rest => exact hnone (by rw [heq]) fun _ _ => nofun
  | nil =>
    have hpublic : ∀ slot entry, rooms.get slot = some entry →
        entry.version.map publicKey = some entry.publicKey :=
      hI.entries batch rooms _ hloop
    constructor
    · intro hP' batch' rooms' p' version' hloop' hversion' slot entry hslot hentry
      rw [hloop] at hloop'
      obtain ⟨rfl, rfl, hp⟩ := BackupLoop.encrypting.inj hloop'
      obtain rfl := (List.cons.inj hp).1
      obtain rfl := Option.some.inj (hversion.symm.trans hversion')
      rw [hpublic slot entry hentry, Option.some.injEq]
      refine hP'.sent _ (by rw [heq]; exact List.mem_append_right _ (List.mem_singleton_self _))
        slot entry ?_
      rw [JsObject.get_set_ne hslot]
      exact hentry
    · intro hC
      refine ⟨?_, hI'.notFreed⟩
      rw [heq]
      intro req hreq slot entry hentry
      rcases List.mem_append.1 hreq with hold | hnew
      · exact hP.sent req hold slot entry hentry
      · obtain rfl := List.mem_singleton.1 hnew
        by_cases hslot : slot = backupSlot p
        · rw [hslot, JsObject.get_set_self] at hentry
          obtain rfl := Option.some.inj hentry
          rfl
        · rw [JsObject.get_set_ne hslot] at hentry
          have hsame := hC batch rooms p version hloop hversion slot entry hslot hentry
          rw [hpublic slot entry hentry] at hsame
          exact Option.some.inj hsame

theorem backupKeysMatch_step (hI : BackupKeyOk publicKey s) (hP : BackupKeysMatch publicKey s)
    (he : (keyBackupSystem publicKey sessions marked).step s e = some s') :
    BackupKeysMatch publicKey s' ↔ SameKeyThroughout publicKey s e := by
  have hI' : BackupKeyOk publicKey s' := backupKeyOk_step hI he
  cases huses : e.usesKey with
  | false =>
    refine iff_of_true (hP.same (keys_step huses he).sent hI') ?_
    cases e with
    | encrypt => exact nomatch huses
    | _ => trivial
  | true =>
    cases e with
    | encrypt =>
      obtain ⟨batch, rooms, p, rest, hloop, rfl⟩ := loop_step he
      exact backupKeysMatch_encrypt hI hP hloop
    | enableKeyBackup version =>
      obtain rfl := Option.some.inj he
      obtain ⟨loop, heq, _⟩ := s.enableKeyBackup_eq publicKey version
      exact iff_of_true (hP.same (by rw [heq]) hI') trivial
    | disableKeyBackup =>
      obtain rfl := Option.some.inj he
      exact iff_of_true (hP.same (by rw [KeyBackupState.disableKeyBackup_eq]) hI') trivial
    | _ => exact nomatch huses

/-! ## The two results -/

/-- While a version stays enabled, there is a key. -/
theorem backupKey_step (hkey : s.backupKey.isSome)
    (he : (steadyBackupSystem publicKey version sessions marked).step s e = some s') :
    s'.backupKey.isSome := by
  obtain ⟨hkeeps, he⟩ := Option.ite_none_right_eq_some.1 he
  cases huses : e.usesKey with
  | false => rw [(keys_step huses he).backupKey, hkey]
  | true =>
    cases e with
    | encrypt =>
      obtain ⟨batch, rooms, p, rest, _, rfl⟩ := loop_step he
      obtain ⟨loop, used, sent, heq, _⟩ := s.encrypt_eq batch rooms p rest
      rw [heq]
      exact hkey
    | enableKeyBackup version' =>
      obtain rfl := Option.some.inj he
      obtain ⟨loop, heq, _⟩ := s.enableKeyBackup_eq publicKey version'
      rw [heq]
      rfl
    | disableKeyBackup => exact nomatch hkeeps
    | _ => exact nomatch huses

/-- **Marks, exactly.** While one version is enabled, marks are removed after an upload with the
data they were set for, and none is left behind, all along the runs in which no mark is set between
the reading of a batch and the end of its upload, nor after the loop has found none. -/
theorem marksBackedUp_iff {tr : List (KeyBackupState Session × KeyBackupStep Session)}
    {s : KeyBackupState Session}
    (h : (steadyBackupSystem publicKey version sessions marked).Trace tr s) :
    System.HoldsAlong MarksBackedUp tr s ↔ System.Meets NoMarkLost tr := by
  obtain ⟨loop, heq, hidle, _⟩ :=
    (KeyBackupState.start sessions marked).enableKeyBackup_eq publicKey version
  refine h.holdsAlong_iff (I := fun s => BackupOk s ∧ s.backupKey.isSome) ?_ ?_ ?_ ?_
  · refine ⟨(BackupOk.start sessions marked).enableKeyBackup publicKey version, ?_⟩
    change ((KeyBackupState.start sessions marked).enableKeyBackup publicKey version).backupKey.isSome
    rw [heq]
    rfl
  · rintro s e s' ⟨hI, hkey⟩ he
    exact ⟨backupOk_step hI (Option.ite_none_right_eq_some.1 he).2, backupKey_step hkey he⟩
  · change MarksBackedUp ((KeyBackupState.start sessions marked).enableKeyBackup publicKey version)
    rw [heq]
    exact ⟨fun _ _ hmem => absurd hmem List.not_mem_nil, fun hrest => absurd hrest.1 hidle⟩
  · rintro s e s' ⟨hI, hkey⟩ hP he
    exact marksBackedUp_step hI hkey hP (Option.ite_none_right_eq_some.1 he).2

/-- **Keys, exactly.** Whatever versions are enabled and disabled, the sessions are encrypted for
the version they are sent to all along the runs in which the key stays the same from the first
session of a batch to its last. -/
theorem backupKeysMatch_iff {tr : List (KeyBackupState Session × KeyBackupStep Session)}
    {s : KeyBackupState Session} (h : (keyBackupSystem publicKey sessions marked).Trace tr s) :
    System.HoldsAlong (BackupKeysMatch publicKey) tr s ↔
      System.Meets (SameKeyThroughout publicKey) tr :=
  h.holdsAlong_iff backupKeyOk_init (fun _ _ _ hI he => backupKeyOk_step hI he)
    ⟨fun _ hreq => absurd hreq List.not_mem_nil, rfl⟩
    fun _ _ _ hI hP he => backupKeysMatch_step hI hP he

end Model

section Examples

/-! ### Runs with one version

A session is backed up, and its mark is removed; it is improved while it is being uploaded; and a
session is marked while the loop ends. -/

def aliceSession : GroupSessionId := ⟨"alice", "session"⟩
def bobSession : GroupSessionId := ⟨"bob", "other session"⟩

/-- Sessions that can be decrypted with from an index on. -/
def sessionFrom (firstKnownIndex : ℕ) : InboundGroupSessionData ℕ :=
  ⟨"!room", firstKnownIndex, none, []⟩

abbrev versionOne : System (KeyBackupState ℕ) (KeyBackupStep ℕ) :=
  steadyBackupSystem id "1" .empty []

def backedUp : List (KeyBackupStep ℕ) :=
  [.storeSession aliceSession (sessionFrom 5), .backupGroupSession aliceSession, .proceed 0,
    .proceed 0, .wake, .read [aliceSession], .encrypt, .uploaded, .unmark, .wake, .read [], .finish]

theorem backedUp_runs : (versionOne.run backedUp).isSome := by decide

theorem marksBackedUp_iff_backedUp :
    ((versionOne.run backedUp).get backedUp_runs).unmarked = [(aliceSession, 1)] ∧
      System.HoldsAlong MarksBackedUp (versionOne.steps backedUp)
        ((versionOne.run backedUp).get backedUp_runs) := by
  refine ⟨by decide, (marksBackedUp_iff (System.trace_get backedUp_runs)).2 ?_⟩
  change ∀ q ∈ [_, _, _, _, _, _, _, _, _, _, _, _], _
  simp only [List.forall_mem_cons]
  refine ⟨trivial, trivial, trivial, trivial, trivial, trivial, trivial, trivial,
    fun batch rooms hloop id time hid hmark => ?_, trivial, trivial,
    fun readAt hloop _ id time hmark => ?_, fun q hq => absurd hq List.not_mem_nil⟩
  · obtain ⟨rfl, rfl⟩ := BackupLoop.unmarking.inj hloop
    obtain rfl := List.mem_singleton.1 hid
    obtain rfl := Option.some.inj hmark
    exact ⟨by decide, ("!room", "session"), rfl⟩
  · -- the only mark has been removed
    by_cases hid : id = aliceSession
    · subst hid
      exact nomatch hmark
    · change ((JsObject.setAll _ [aliceSession] 1).filter fun id => id ∉ [aliceSession]).get id =
        some time at hmark
      rw [JsObject.get_filter, if_pos (by simpa using hid), JsObject.get_setAll,
        if_neg (by simpa using hid)] at hmark
      exact nomatch hmark

def improvedDuringUpload : List (KeyBackupStep ℕ) :=
  [.storeSession aliceSession (sessionFrom 5), .backupGroupSession aliceSession, .proceed 0,
    .proceed 0, .wake, .read [aliceSession], .encrypt,
    .storeSession aliceSession (sessionFrom 0), .backupGroupSession aliceSession, .proceed 0,
    .proceed 0, .uploaded, .unmark, .wake, .read [], .finish]

theorem improvedDuringUpload_runs : (versionOne.run improvedDuringUpload).isSome := by decide

def markedWhileFinishing : List (KeyBackupStep ℕ) :=
  [.wake, .read [], .storeSession aliceSession (sessionFrom 5), .backupGroupSession aliceSession,
    .proceed 0, .proceed 0, .finish]

theorem markedWhileFinishing_runs : (versionOne.run markedWhileFinishing).isSome := by decide

/-- Not along all runs: the mark of a better session is removed though only the old one has been
uploaded, and a session stays marked though nothing is going on. -/
theorem marksBackedUp_fails :
    (¬ ∀ s, versionOne.Reachable s → ∀ id time, (id, time) ∈ s.unmarked →
      ∃ u ∈ s.uploads, u.Has id ∧ time < u.readAt) ∧
    ¬ ∀ s, versionOne.Reachable s → s.Resting → ∀ id, (s.sessions.get id).isSome →
      s.marks.get id = none := by
  constructor
  · intro h
    obtain ⟨u, hu, _, htime⟩ := h _ (System.reachable_get improvedDuringUpload_runs) aliceSession 3
      (by decide)
    obtain rfl := List.mem_singleton.1 hu
    exact absurd htime (by decide)
  · intro h
    exact nomatch h _ (System.reachable_get markedWhileFinishing_runs) ⟨rfl, rfl, rfl⟩ aliceSession
      rfl

/-! ### Runs with two versions

Each batch goes to the version it is encrypted for, or the version changes in the middle of one. -/

abbrev anyVersion : System (KeyBackupState ℕ) (KeyBackupStep ℕ) := keyBackupSystem id .empty []

def versionAfterBatch : List (KeyBackupStep ℕ) :=
  [.enableKeyBackup "1", .storeSession aliceSession (sessionFrom 5),
    .storeSession bobSession (sessionFrom 0), .scheduleAllGroupSessionsForBackup, .proceed 0, .wake,
    .read [aliceSession, bobSession], .encrypt, .encrypt, .enableKeyBackup "2", .uploaded, .unmark]

theorem versionAfterBatch_runs : (anyVersion.run versionAfterBatch).isSome := by decide

theorem backupKeysMatch_iff_versionAfterBatch :
    ((anyVersion.run versionAfterBatch).get versionAfterBatch_runs).sent.length = 1 ∧
      System.HoldsAlong (BackupKeysMatch id) (anyVersion.steps versionAfterBatch)
        ((anyVersion.run versionAfterBatch).get versionAfterBatch_runs) := by
  refine ⟨by decide, (backupKeysMatch_iff (System.trace_get versionAfterBatch_runs)).2 ?_⟩
  change ∀ q ∈ [_, _, _, _, _, _, _, _, _, _, _, _], _
  simp only [List.forall_mem_cons]
  refine ⟨trivial, trivial, trivial, trivial, trivial, trivial, trivial,
    fun batch rooms p version hloop => ?_,
    fun batch rooms p version hloop hinfo slot entry hslot hentry => ?_, trivial, trivial, trivial,
    fun q hq => absurd hq List.not_mem_nil⟩
  · exact nomatch (List.cons.inj (BackupLoop.encrypting.inj hloop).2.2).2
  · obtain ⟨rfl, rfl, hp⟩ := BackupLoop.encrypting.inj hloop
    obtain rfl := Option.some.inj hinfo
    by_cases hfirst : slot = ("!room", "session")
    · subst hfirst
      obtain rfl := Option.some.inj hentry
      rfl
    · change (JsObject.set .empty ("!room", "session") _).get slot = some entry at hentry
      rw [JsObject.get_set_ne hfirst] at hentry
      exact nomatch hentry

def versionDuringBatch : List (KeyBackupStep ℕ) :=
  [.enableKeyBackup "1", .storeSession aliceSession (sessionFrom 5),
    .storeSession bobSession (sessionFrom 0), .scheduleAllGroupSessionsForBackup, .proceed 0, .wake,
    .read [aliceSession, bobSession], .encrypt, .enableKeyBackup "2", .encrypt]

theorem versionDuringBatch_runs : (anyVersion.run versionDuringBatch).isSome := by decide

/-- Not along all runs: the first session of the batch is encrypted for another key than that of
the version it is sent to. -/
theorem backupKeysMatch_fails :
    ¬ ∀ s, anyVersion.Reachable s → BackupKeysMatch id s := by
  intro h
  have hmatch := h _ (System.reachable_get versionDuringBatch_runs)
  have hkey := hmatch.sent _ (List.mem_singleton.2 rfl) ("!room", "session")
    ⟨aliceSession, sessionFrom 5, "1", some "1"⟩ rfl
  exact absurd hkey (by decide)

end Examples

end MatrixSdk.Crypto
