/-
Exporting a device and creating it anew: `export` and `init` of `crypto/OlmDevice.js`, over the Olm
sessions of the three crypto stores of `crypto/store`.

Each store enumerates its sessions in its own way. That of the memory store names the device and the
session, that of localStorage does not, and that of IndexedDB puts an end marker behind the sessions
which `init` takes for one. So only what comes from the memory store gets across:
[`OlmDevice.survivesExport_iff`].
-/
import MatrixSdk.Lib.JsObject
import Mathlib.Data.Nat.Notation

set_option autoImplicit false

namespace MatrixSdk.Crypto

open MatrixSdk.Lib

/-! ## The stores -/

/-- What is stored of an Olm session. -/
structure OlmSessionInfo where
  /-- The pickled session. -/
  session : String
  lastReceivedMessageTs : Option ℕ
  deriving DecidableEq

/-- What `getAllEndToEndSessions` passes on of a session. -/
structure ExportedSession where
  session : String
  lastReceivedMessageTs : Option ℕ
  deviceKey : Option String
  sessionId : Option String
  deriving DecidableEq

structure MemoryCryptoStore where
  account : Option String
  /-- `_sessions`: device key -> session id -> session. -/
  sessions : JsObject String (JsObject String OlmSessionInfo)

/-- An item of localStorage may have sessions from before there were objects. -/
inductive StoredOlmSession
  | pickle (val : String)
  | info (val : OlmSessionInfo)

/-- The web store, as far as the account and the sessions go. -/
structure LocalStorageCryptoStore where
  account : Option String
  store : JsObject String (JsObject String StoredOlmSession)

/-- The object stores "account" and "sessions", the latter by its key path. -/
structure IndexedDBCryptoStore where
  account : Option String
  sessions : JsObject (String × String) OlmSessionInfo

namespace MemoryCryptoStore

variable (s : MemoryCryptoStore)

def getEndToEndSession (deviceKey sessionId : String) : Option OlmSessionInfo :=
  (s.sessions.get deviceKey).bind (·.get sessionId)

def getAllEndToEndSessions : List (Option ExportedSession) :=
  s.sessions.entries.flatMap fun (deviceKey, deviceSessions) =>
    deviceSessions.entries.map fun (sessionId, session) =>
      some ⟨session.session, session.lastReceivedMessageTs, deviceKey, sessionId⟩

def storeEndToEndSession (deviceKey sessionId : String) (sessionInfo : OlmSessionInfo) :
    MemoryCryptoStore :=
  let deviceSessions := (s.sessions.get deviceKey).getD .empty
  { s with sessions := s.sessions.set deviceKey (deviceSessions.set sessionId sessionInfo) }

end MemoryCryptoStore

def keyEndToEndSessions (deviceKey : String) : String := "crypto.sessions/" ++ deviceKey

/-- "fix up any old sessions to be objects rather than just the base64 pickle" -/
def StoredOlmSession.fixed : StoredOlmSession → OlmSessionInfo
  | .pickle val => ⟨val, none⟩
  | .info val => val

namespace LocalStorageCryptoStore

variable (s : LocalStorageCryptoStore)

def getEndToEndSessions (deviceKey : String) : JsObject String OlmSessionInfo :=
  ((s.store.get (keyEndToEndSessions deviceKey)).getD .empty).map fun _ val => val.fixed

def getEndToEndSession (deviceKey sessionId : String) : Option OlmSessionInfo :=
  (s.getEndToEndSessions deviceKey).get sessionId

/-- `key.split('/')[1]`, of a key that has a slash. -/
def deviceKeyOf (key : String) : String :=
  String.ofList ((key.toList.splitOn '/').getD 1 [])

def getAllEndToEndSessions : List (Option ExportedSession) :=
  (s.store.keys.filter fun key =>
      (keyEndToEndSessions "").toList.isPrefixOf key.toList).flatMap fun key =>
    (s.getEndToEndSessions (deviceKeyOf key)).entries.map fun (_, sess) =>
      some ⟨sess.session, sess.lastReceivedMessageTs, none, none⟩

def storeEndToEndSession (deviceKey sessionId : String) (sessionInfo : OlmSessionInfo) :
    LocalStorageCryptoStore :=
  let sessions := (s.getEndToEndSessions deviceKey).set sessionId sessionInfo
  { s with store := s.store.set (keyEndToEndSessions deviceKey) (sessions.map fun _ => .info) }

end LocalStorageCryptoStore

namespace IndexedDBCryptoStore

variable (s : IndexedDBCryptoStore)

def getEndToEndSession (deviceKey sessionId : String) : Option OlmSessionInfo :=
  s.sessions.get (deviceKey, sessionId)

/-- All sessions, and `null` for the end of the list. -/
def getAllEndToEndSessions : List (Option ExportedSession) :=
  (s.sessions.entries.map fun ((deviceKey, sessionId), value) =>
    some ⟨value.session, value.lastReceivedMessageTs, deviceKey, sessionId⟩) ++ [none]

def storeEndToEndSession (deviceKey sessionId : String) (sessionInfo : OlmSessionInfo) :
    IndexedDBCryptoStore :=
  { s with sessions := s.sessions.set (deviceKey, sessionId) sessionInfo }

end IndexedDBCryptoStore

/-- A crypto store with one of the three backends. -/
inductive CryptoStore
  | memory (store : MemoryCryptoStore)
  | localStorage (store : LocalStorageCryptoStore)
  | indexedDB (store : IndexedDBCryptoStore)

inductive StoreBackend
  | memory
  | localStorage
  | indexedDB
  deriving DecidableEq

/-- An empty store. -/
def StoreBackend.empty : StoreBackend → CryptoStore
  | .memory => .memory ⟨none, .empty⟩
  | .localStorage => .localStorage ⟨none, .empty⟩
  | .indexedDB => .indexedDB ⟨none, .empty⟩

namespace CryptoStore

variable (s : CryptoStore)

def backend : StoreBackend :=
  match s with
  | .memory _ => .memory
  | .localStorage _ => .localStorage
  | .indexedDB _ => .indexedDB

def getAccount : Option String :=
  match s with
  | .memory store => store.account
  | .localStorage store => store.account
  | .indexedDB store => store.account

def storeAccount (newData : Option String) : CryptoStore :=
  match s with
  | .memory store => .memory { store with account := newData }
  | .localStorage store => .localStorage { store with account := newData }
  | .indexedDB store => .indexedDB { store with account := newData }

def getEndToEndSession (deviceKey sessionId : String) : Option OlmSessionInfo :=
  match s with
  | .memory store => store.getEndToEndSession deviceKey sessionId
  | .localStorage store => store.getEndToEndSession deviceKey sessionId
  | .indexedDB store => store.getEndToEndSession deviceKey sessionId

def getAllEndToEndSessions : List (Option ExportedSession) :=
  match s with
  | .memory store => store.getAllEndToEndSessions
  | .localStorage store => store.getAllEndToEndSessions
  | .indexedDB store => store.getAllEndToEndSessions

/-- What is missing becomes the name "undefined", but is no key for IndexedDB. -/
def storeEndToEndSession (deviceKey sessionId : Option String) (sessionInfo : OlmSessionInfo) :
    Except String CryptoStore :=
  match s, deviceKey, sessionId with
  | .memory store, _, _ =>
    .ok (.memory (store.storeEndToEndSession (deviceKey.getD "undefined")
      (sessionId.getD "undefined") sessionInfo))
  | .localStorage store, _, _ =>
    .ok (.localStorage (store.storeEndToEndSession (deviceKey.getD "undefined")
      (sessionId.getD "undefined") sessionInfo))
  | .indexedDB store, some deviceKey, some sessionId =>
    .ok (.indexedDB (store.storeEndToEndSession deviceKey sessionId sessionInfo))
  | .indexedDB _, _, _ => .error "DataError"

end CryptoStore

/-! ## The device -/

/-- The accounts of the Olm library. -/
structure OlmAccounts (Account : Type) where
  pickle : String → Account → String
  unpickle : String → String → Option Account
  identity_keys : Account → String × String

/-- Pickling with a key can be undone with the same key. -/
def OlmAccounts.Invertible {Account : Type} (lib : OlmAccounts Account) : Prop :=
  ∀ key account, lib.unpickle key (lib.pickle key account) = some account

/-- `OlmDevice`, once it has been initialised. -/
structure OlmDevice where
  cryptoStore : CryptoStore
  pickleKey : String
  deviceEd25519Key : String
  deviceCurve25519Key : String

/-- What `export` returns. -/
structure ExportedDevice where
  pickleKey : String
  pickledAccount : Option String
  sessions : List (Option ExportedSession)

namespace OlmDevice

/-- `export` -/
def exportDevice (device : OlmDevice) : ExportedDevice where
  pickleKey := device.pickleKey
  pickledAccount := device.cryptoStore.getAccount
  sessions := device.cryptoStore.getAllEndToEndSessions

/-- The loop over the sessions; `null` has no device key. -/
def storeSessions (cryptoStore : CryptoStore) :
    List (Option ExportedSession) → Except String CryptoStore
  | [] => .ok cryptoStore
  | none :: _ => .error "TypeError"
  | some session :: sessions =>
    (cryptoStore.storeEndToEndSession session.deviceKey session.sessionId
      ⟨session.session, session.lastReceivedMessageTs⟩).bind fun cryptoStore =>
        storeSessions cryptoStore sessions

variable {Account : Type} (lib : OlmAccounts Account)

/-- `init` with `fromExportedDevice`. -/
def initFromExported (cryptoStore : CryptoStore) (exportedData : ExportedDevice) :
    Except String OlmDevice :=
  (storeSessions (cryptoStore.storeAccount exportedData.pickledAccount)
      exportedData.sessions).bind fun cryptoStore =>
    match exportedData.pickledAccount.bind (lib.unpickle exportedData.pickleKey) with
    | some account =>
      .ok ⟨cryptoStore, exportedData.pickleKey, (lib.identity_keys account).1,
        (lib.identity_keys account).2⟩
    | none => .error "OLM.BAD_ACCOUNT_KEY"

/-- The device that is created from the export, in an empty store, has the same sessions. -/
def SurvivesExport (device : OlmDevice) (target : StoreBackend) : Prop :=
  ∃ device', initFromExported lib target.empty device.exportDevice = .ok device' ∧
    ∀ deviceKey sessionId, device'.cryptoStore.getEndToEndSession deviceKey sessionId =
      device.cryptoStore.getEndToEndSession deviceKey sessionId

end OlmDevice

/-! ## What is stored -/

namespace MemoryCryptoStore

theorem get_store (s : MemoryCryptoStore) (deviceKey sessionId : String) (info : OlmSessionInfo)
    (deviceKey' sessionId' : String) :
    (s.storeEndToEndSession deviceKey sessionId info).getEndToEndSession deviceKey' sessionId' =
      if deviceKey' = deviceKey ∧ sessionId' = sessionId then some info
      else s.getEndToEndSession deviceKey' sessionId' := by
  rw [getEndToEndSession, storeEndToEndSession, JsObject.get_set]
  by_cases hdevice : deviceKey' = deviceKey
  · rw [if_pos hdevice, Option.bind_some, JsObject.get_set]
    by_cases hsession : sessionId' = sessionId
    · rw [if_pos hsession, if_pos ⟨hdevice, hsession⟩]
    · rw [if_neg hsession, if_neg (fun hcontra => hsession hcontra.2), getEndToEndSession, hdevice]
      cases s.sessions.get deviceKey with
      | none => rfl
      | some deviceSessions => rfl
  · rw [if_neg hdevice, if_neg (fun hcontra => hdevice hcontra.1)]
    rfl

/-- The sessions that are passed on are those that are stored, with their names. -/
theorem mem_getAll {s : MemoryCryptoStore} {e : Option ExportedSession} :
    e ∈ s.getAllEndToEndSessions ↔ ∃ deviceKey sessionId info,
      s.getEndToEndSession deviceKey sessionId = some info ∧
        e = some ⟨info.session, info.lastReceivedMessageTs, deviceKey, sessionId⟩ := by
  rw [getAllEndToEndSessions, List.mem_flatMap]
  constructor
  · rintro ⟨⟨deviceKey, deviceSessions⟩, hdevice, he⟩
    obtain ⟨⟨sessionId, info⟩, hsession, rfl⟩ := List.mem_map.1 he
    refine ⟨deviceKey, sessionId, info, ?_, rfl⟩
    rw [getEndToEndSession, JsObject.mem_entries.1 hdevice]
    exact JsObject.mem_entries.1 hsession
  · rintro ⟨deviceKey, sessionId, info, hget, rfl⟩
    obtain ⟨deviceSessions, hdevice, hsession⟩ := Option.bind_eq_some_iff.1 hget
    exact ⟨(deviceKey, deviceSessions), JsObject.mem_entries.2 hdevice,
      List.mem_map.2 ⟨(sessionId, info), JsObject.mem_entries.2 hsession, rfl⟩⟩

end MemoryCryptoStore

theorem keyEndToEndSessions_injective {deviceKey deviceKey' : String}
    (h : keyEndToEndSessions deviceKey = keyEndToEndSessions deviceKey') :
    deviceKey = deviceKey' := by
  rw [keyEndToEndSessions, keyEndToEndSessions] at h
  exact (String.append_right_inj _).1 h

namespace LocalStorageCryptoStore

theorem get_store (s : LocalStorageCryptoStore) (deviceKey sessionId : String)
    (info : OlmSessionInfo) (deviceKey' sessionId' : String) :
    (s.storeEndToEndSession deviceKey sessionId info).getEndToEndSession deviceKey' sessionId' =
      if deviceKey' = deviceKey ∧ sessionId' = sessionId then some info
      else s.getEndToEndSession deviceKey' sessionId' := by
  rw [getEndToEndSession, getEndToEndSessions, storeEndToEndSession, JsObject.get_set]
  by_cases hdevice : deviceKey' = deviceKey
  · rw [if_pos (congrArg keyEndToEndSessions hdevice), Option.getD_some, JsObject.get_map,
      JsObject.get_map, JsObject.get_set]
    by_cases hsession : sessionId' = sessionId
    · rw [if_pos hsession, if_pos ⟨hdevice, hsession⟩]
      rfl
    · rw [if_neg hsession, if_neg (fun hcontra => hsession hcontra.2), hdevice, getEndToEndSession]
      cases (s.getEndToEndSessions deviceKey).get sessionId' with
      | none => rfl
      | some info => rfl
  · rw [if_neg (fun hcontra => hdevice (keyEndToEndSessions_injective hcontra)),
      if_neg (fun hcontra => hdevice hcontra.1)]
    rfl

variable {s : LocalStorageCryptoStore}

/-- What is passed on has no names, but it is a session that is stored. -/
theorem of_mem_getAll {e : Option ExportedSession} (h : e ∈ s.getAllEndToEndSessions) :
    ∃ deviceKey sessionId info,
      s.getEndToEndSession deviceKey sessionId = some info ∧
        e = some ⟨info.session, info.lastReceivedMessageTs, none, none⟩ := by
  obtain ⟨key, -, he⟩ := List.mem_flatMap.1 h
  obtain ⟨⟨sessionId, info⟩, hsession, rfl⟩ := List.mem_map.1 he
  exact ⟨deviceKeyOf key, sessionId, info, JsObject.mem_entries.1 hsession, rfl⟩

/-- A session under a device key without a slash is passed on. -/
theorem mem_getAll {deviceKey sessionId : String} {info : OlmSessionInfo}
    (hget : s.getEndToEndSession deviceKey sessionId = some info)
    (hkey : deviceKeyOf (keyEndToEndSessions deviceKey) = deviceKey) :
    some ⟨info.session, info.lastReceivedMessageTs, none, none⟩ ∈ s.getAllEndToEndSessions := by
  refine List.mem_flatMap.2 ⟨keyEndToEndSessions deviceKey, ?_, ?_⟩
  · rw [List.mem_filter]
    constructor
    · rw [JsObject.mem_keys]
      rw [getEndToEndSession, getEndToEndSessions] at hget
      cases hstored : s.store.get (keyEndToEndSessions deviceKey) with
      | none =>
        rw [hstored] at hget
        exact nomatch hget
      | some sessions => rfl
    · rw [List.isPrefixOf_iff_prefix, keyEndToEndSessions, keyEndToEndSessions, String.append_empty,
        String.toList_append]
      exact List.prefix_append _ _
  · rw [hkey]
    exact List.mem_map.2 ⟨(sessionId, info), JsObject.mem_entries.2 hget, rfl⟩

end LocalStorageCryptoStore

theorem deviceKeyOf_undefined :
    LocalStorageCryptoStore.deviceKeyOf (keyEndToEndSessions "undefined") = "undefined" := by
  decide +kernel

namespace CryptoStore

/-- What has no name cannot be stored in an IndexedDB store. -/
def Stores (s : CryptoStore) (session : ExportedSession) : Prop :=
  s.backend ≠ .indexedDB ∨ session.deviceKey.isSome ∧ session.sessionId.isSome

/-- **Storing a session.** -/
theorem storeEndToEndSession_ok {s : CryptoStore} {session : ExportedSession}
    (h : s.Stores session) : ∃ s', s.storeEndToEndSession session.deviceKey session.sessionId
        ⟨session.session, session.lastReceivedMessageTs⟩ = .ok s' ∧ s'.backend = s.backend ∧
      ∀ deviceKey sessionId, s'.getEndToEndSession deviceKey sessionId =
        if deviceKey = session.deviceKey.getD "undefined" ∧
            sessionId = session.sessionId.getD "undefined" then
          some ⟨session.session, session.lastReceivedMessageTs⟩
        else s.getEndToEndSession deviceKey sessionId := by
  cases s with
  | memory store => exact ⟨_, rfl, rfl, fun _ _ => store.get_store _ _ _ _ _⟩
  | localStorage store => exact ⟨_, rfl, rfl, fun _ _ => store.get_store _ _ _ _ _⟩
  | indexedDB store =>
    obtain ⟨session, lastReceivedMessageTs, deviceKey, sessionId⟩ := session
    rcases h with h | ⟨hdevice, hsession⟩
    · exact absurd rfl h
    · obtain ⟨deviceKey, rfl⟩ := Option.isSome_iff_exists.1 hdevice
      obtain ⟨sessionId, rfl⟩ := Option.isSome_iff_exists.1 hsession
      refine ⟨_, rfl, rfl, ?_⟩
      intro deviceKey' sessionId'
      show (store.sessions.set (deviceKey, sessionId) _).get (deviceKey', sessionId') = _
      rw [JsObject.get_set]
      simp only [Prod.mk.injEq, Option.getD_some]
      rfl

/-- A session without a name is not stored. -/
theorem storeEndToEndSession_error {s : CryptoStore} {session : ExportedSession}
    (h : ¬ s.Stores session) : ∃ e, s.storeEndToEndSession session.deviceKey session.sessionId
        ⟨session.session, session.lastReceivedMessageTs⟩ = .error e := by
  obtain ⟨session, lastReceivedMessageTs, deviceKey, sessionId⟩ := session
  rw [Stores, not_or] at h
  obtain ⟨hbackend, hnames⟩ := h
  cases s with
  | memory store => exact absurd (fun hcontra => nomatch hcontra) hbackend
  | localStorage store => exact absurd (fun hcontra => nomatch hcontra) hbackend
  | indexedDB store =>
    cases deviceKey with
    | none => exact ⟨_, rfl⟩
    | some deviceKey =>
      cases sessionId with
      | none => exact ⟨_, rfl⟩
      | some sessionId => exact absurd ⟨rfl, rfl⟩ hnames

@[simp] theorem backend_storeAccount (s : CryptoStore) (account : Option String) :
    (s.storeAccount account).backend = s.backend := by
  cases s <;> rfl

@[simp] theorem get_storeAccount (s : CryptoStore) (account : Option String)
    (deviceKey sessionId : String) : (s.storeAccount account).getEndToEndSession deviceKey
      sessionId = s.getEndToEndSession deviceKey sessionId := by
  cases s <;> rfl

@[simp] theorem backend_empty (target : StoreBackend) : target.empty.backend = target := by
  cases target <;> rfl

@[simp] theorem get_empty (target : StoreBackend) (deviceKey sessionId : String) :
    target.empty.getEndToEndSession deviceKey sessionId = none := by
  cases target <;> rfl

end CryptoStore

/-! ## The loop over the sessions -/

namespace OlmDevice

/-- `session` is stored under these names. -/
def GoesUnder (session : ExportedSession) (deviceKey sessionId : String) : Prop :=
  deviceKey = session.deviceKey.getD "undefined" ∧ sessionId = session.sessionId.getD "undefined"

/-- What no session goes under stays as it is. -/
theorem storeSessions_kept (deviceKey sessionId : String) (sessions : List ExportedSession) :
    ∀ s s' : CryptoStore, storeSessions s (sessions.map some) = .ok s' →
      (∀ session ∈ sessions, ¬ GoesUnder session deviceKey sessionId) →
        s'.getEndToEndSession deviceKey sessionId = s.getEndToEndSession deviceKey sessionId := by
  induction sessions with
  | nil =>
    intro s s' h _
    rw [Except.ok.inj h]
  | cons first sessions ih =>
    intro s s' h hother
    rw [List.map_cons, storeSessions] at h
    by_cases hfirst : s.Stores first
    · obtain ⟨s₁, hstored, -, hget⟩ := CryptoStore.storeEndToEndSession_ok hfirst
      rw [hstored] at h
      rw [ih s₁ s' h fun session hsession => hother session (List.mem_cons_of_mem _ hsession),
        hget]
      exact if_neg (hother first List.mem_cons_self)
    · obtain ⟨e, herror⟩ := CryptoStore.storeEndToEndSession_error hfirst
      rw [herror] at h
      exact nomatch h

/-- **The loop.** When no two sessions with the same names differ, each of them gets stored. -/
theorem storeSessions_ok (sessions : List ExportedSession) (info : String → String → OlmSessionInfo)
    (hinfo : ∀ session ∈ sessions, ∀ deviceKey sessionId, GoesUnder session deviceKey sessionId →
      info deviceKey sessionId = ⟨session.session, session.lastReceivedMessageTs⟩) :
    ∀ s : CryptoStore, (∀ session ∈ sessions, s.Stores session) →
      ∃ s', storeSessions s (sessions.map some) = .ok s' ∧ ∀ deviceKey sessionId,
        (∃ session ∈ sessions, GoesUnder session deviceKey sessionId) →
          s'.getEndToEndSession deviceKey sessionId = some (info deviceKey sessionId) := by
  induction sessions with
  | nil =>
    intro s _
    refine ⟨s, rfl, fun deviceKey sessionId => ?_⟩
    rintro ⟨session, hsession, -⟩
    exact absurd hsession List.not_mem_nil
  | cons first sessions ih =>
    intro s hstores
    obtain ⟨s₁, hfirst, hbackend, hget₁⟩ :=
      CryptoStore.storeEndToEndSession_ok (hstores first List.mem_cons_self)
    obtain ⟨s₂, hrest, hget₂⟩ := ih (fun session hsession =>
        hinfo session (List.mem_cons_of_mem _ hsession)) s₁ (by
      intro session hsession
      rw [CryptoStore.Stores, hbackend]
      exact hstores session (List.mem_cons_of_mem _ hsession))
    refine ⟨s₂, ?_, fun deviceKey sessionId => ?_⟩
    · rw [List.map_cons, storeSessions, hfirst]
      exact hrest
    · rintro ⟨session, hsession, hgoes⟩
      by_cases hlater : ∃ session ∈ sessions, GoesUnder session deviceKey sessionId
      · exact hget₂ deviceKey sessionId hlater
      · -- it is the first one, and no later one goes there
        rcases List.mem_cons.1 hsession with rfl | hsession
        · rw [storeSessions_kept _ _ sessions s₁ s₂ hrest fun other hother hcontra =>
            hlater ⟨other, hother, hcontra⟩, hget₁,
            hinfo session List.mem_cons_self deviceKey sessionId hgoes]
          exact if_pos hgoes
        · exact absurd ⟨session, hsession, hgoes⟩ hlater

/-- A session that is not stored makes the loop fail. -/
theorem storeSessions_error (sessions : List (Option ExportedSession)) :
    ∀ s : CryptoStore, (∃ session ∈ sessions, ∀ e, session = some e → ¬ s.Stores e) →
      ∃ e, storeSessions s sessions = .error e := by
  induction sessions with
  | nil =>
    rintro s ⟨session, hsession, -⟩
    exact absurd hsession List.not_mem_nil
  | cons first sessions ih =>
    rintro s ⟨session, hsession, hnot⟩
    cases first with
    | none => exact ⟨_, rfl⟩
    | some first =>
      rw [storeSessions]
      by_cases hfirst : s.Stores first
      · obtain ⟨s₁, hstored, hbackend, -⟩ := CryptoStore.storeEndToEndSession_ok hfirst
        rw [hstored]
        refine ih s₁ ⟨session, ?_, ?_⟩
        · rcases List.mem_cons.1 hsession with rfl | hsession
          · exact absurd hfirst (hnot first rfl)
          · exact hsession
        · intro e he
          rw [CryptoStore.Stores, hbackend]
          exact hnot e he
      · obtain ⟨e, herror⟩ := CryptoStore.storeEndToEndSession_error hfirst
        rw [herror]
        exact ⟨e, rfl⟩

/-! ## The round trip -/

variable {Account : Type} {lib : OlmAccounts Account} {device : OlmDevice} {target : StoreBackend}
  {account : Account}

/-- The account is never what the import fails for. -/
theorem initFromExported_of_storeSessions (hlib : lib.Invertible)
    (hacct : device.cryptoStore.getAccount = some (lib.pickle device.pickleKey account))
    {s : CryptoStore}
    (hstore : storeSessions (target.empty.storeAccount device.cryptoStore.getAccount)
      device.cryptoStore.getAllEndToEndSessions = .ok s) :
    ∃ device', initFromExported lib target.empty device.exportDevice = .ok device' ∧
      device'.cryptoStore = s := by
  have hunpickle : device.cryptoStore.getAccount.bind (lib.unpickle device.pickleKey) =
      some account := by
    rw [hacct, Option.bind_some, hlib]
  simp only [initFromExported, exportDevice, hstore, Except.bind, hunpickle]
  exact ⟨_, rfl, rfl⟩

/-- When the loop fails, so does `init`. -/
theorem not_survivesExport_of_error {e : String}
    (hstore : storeSessions (target.empty.storeAccount device.cryptoStore.getAccount)
      device.cryptoStore.getAllEndToEndSessions = .error e) :
    ¬ SurvivesExport lib device target := by
  rintro ⟨device', hinit, -⟩
  rw [initFromExported, exportDevice, hstore] at hinit
  exact nomatch hinit

theorem exists_storeSessions_of_survivesExport (h : SurvivesExport lib device target) :
    ∃ s, storeSessions (target.empty.storeAccount device.cryptoStore.getAccount)
      device.cryptoStore.getAllEndToEndSessions = .ok s := by
  cases hstore : storeSessions (target.empty.storeAccount device.cryptoStore.getAccount)
      device.cryptoStore.getAllEndToEndSessions with
  | ok s => exact ⟨s, rfl⟩
  | error e => exact absurd h (not_survivesExport_of_error hstore)

/-- Only what the loop leaves in the store counts. -/
theorem survivesExport_iff_of_storeSessions (hlib : lib.Invertible)
    (hacct : device.cryptoStore.getAccount = some (lib.pickle device.pickleKey account))
    {s : CryptoStore}
    (hstore : storeSessions (target.empty.storeAccount device.cryptoStore.getAccount)
      device.cryptoStore.getAllEndToEndSessions = .ok s) :
    SurvivesExport lib device target ↔ ∀ deviceKey sessionId,
      s.getEndToEndSession deviceKey sessionId =
        device.cryptoStore.getEndToEndSession deviceKey sessionId := by
  obtain ⟨device', hinit, hcrypto⟩ := initFromExported_of_storeSessions hlib hacct hstore
  constructor
  · rintro ⟨device'', hinit', hsame⟩
    obtain rfl : device' = device'' := Except.ok.inj (hinit.symm.trans hinit')
    rw [← hcrypto]
    exact hsame
  · intro hsame
    refine ⟨device', hinit, ?_⟩
    rw [hcrypto]
    exact hsame

/-- A list of sessions without the end marker. -/
theorem exists_map_some {t : List (Option ExportedSession)} (h : none ∉ t) :
    ∃ es : List ExportedSession, t = es.map some := by
  refine ⟨t.filterMap id, ?_⟩
  induction t with
  | nil => rfl
  | cons first sessions ih =>
    rw [List.mem_cons, not_or] at h
    cases first with
    | none => exact absurd rfl h.1
    | some first =>
      exact congrArg (some first :: ·) (ih h.2)

/-- **From the memory store** every session gets across. -/
theorem survivesExport_of_memory (hlib : lib.Invertible) {store : MemoryCryptoStore}
    (hmemory : device.cryptoStore = .memory store)
    (hacct : device.cryptoStore.getAccount = some (lib.pickle device.pickleKey account))
    (target : StoreBackend) : SurvivesExport lib device target := by
  have hall : device.cryptoStore.getAllEndToEndSessions = store.getAllEndToEndSessions := by
    rw [hmemory]
    rfl
  obtain ⟨es, hes⟩ := exists_map_some (t := store.getAllEndToEndSessions) (by
    intro hnone
    obtain ⟨deviceKey, sessionId, info, -, hcontra⟩ := MemoryCryptoStore.mem_getAll.1 hnone
    exact nomatch hcontra)
  have hmem : ∀ session, session ∈ es ↔ ∃ deviceKey sessionId info,
      store.getEndToEndSession deviceKey sessionId = some info ∧
        session = ⟨info.session, info.lastReceivedMessageTs, deviceKey, sessionId⟩ := by
    intro session
    rw [← List.mem_map_of_injective (fun _ _ => Option.some.inj), ← hes,
      MemoryCryptoStore.mem_getAll]
    simp only [Option.some.injEq]
  obtain ⟨s, hstore, hget⟩ := storeSessions_ok es
    (fun deviceKey sessionId => (store.getEndToEndSession deviceKey sessionId).getD ⟨"", none⟩)
    (by
      intro session hsession deviceKey sessionId hgoes
      obtain ⟨deviceKey', sessionId', info, hinfo, rfl⟩ := (hmem session).1 hsession
      rw [hgoes.1, hgoes.2]
      show (store.getEndToEndSession deviceKey' sessionId').getD ⟨"", none⟩ = info
      rw [hinfo, Option.getD_some])
    (target.empty.storeAccount device.cryptoStore.getAccount) (by
      intro session hsession
      obtain ⟨deviceKey', sessionId', info, hinfo, rfl⟩ := (hmem session).1 hsession
      exact .inr ⟨rfl, rfl⟩)
  have hkept := fun deviceKey sessionId =>
    storeSessions_kept deviceKey sessionId es _ s hstore
  rw [← hes, ← hall] at hstore
  rw [survivesExport_iff_of_storeSessions hlib hacct hstore]
  intro deviceKey sessionId
  have hsource : device.cryptoStore.getEndToEndSession deviceKey sessionId =
      store.getEndToEndSession deviceKey sessionId := by
    rw [hmemory]
    rfl
  rw [hsource]
  cases hinfo : store.getEndToEndSession deviceKey sessionId with
  | some info =>
    rw [hget deviceKey sessionId ⟨_, (hmem _).2 ⟨_, _, _, hinfo, rfl⟩, rfl, rfl⟩, hinfo,
      Option.getD_some]
  | none =>
    rw [hkept deviceKey sessionId, CryptoStore.get_storeAccount, CryptoStore.get_empty]
    intro session hsession hgoes
    obtain ⟨deviceKey', sessionId', info, hinfo', rfl⟩ := (hmem session).1 hsession
    obtain ⟨rfl, rfl⟩ := hgoes
    exact nomatch hinfo.symm.trans hinfo'

/-- The end marker of IndexedDB makes every import fail. -/
theorem not_survivesExport_of_indexedDB {store : IndexedDBCryptoStore}
    (hindexed : device.cryptoStore = .indexedDB store) (target : StoreBackend) :
    ¬ SurvivesExport lib device target := by
  have hnone : none ∈ device.cryptoStore.getAllEndToEndSessions := by
    rw [hindexed]
    exact List.mem_append_right _ (List.mem_singleton_self _)
  obtain ⟨e, herror⟩ := storeSessions_error _
    (target.empty.storeAccount device.cryptoStore.getAccount)
    ⟨none, hnone, fun _ hcontra => nomatch hcontra⟩
  exact not_survivesExport_of_error herror

/-- **From localStorage** only a session with the names "undefined" gets across, and not to
IndexedDB. -/
theorem survivesExport_iff_of_localStorage (hlib : lib.Invertible) {store : LocalStorageCryptoStore}
    (hlocal : device.cryptoStore = .localStorage store)
    (hacct : device.cryptoStore.getAccount = some (lib.pickle device.pickleKey account))
    (target : StoreBackend) : SurvivesExport lib device target ↔ ∀ deviceKey sessionId,
      (store.getEndToEndSession deviceKey sessionId).isSome →
        target ≠ .indexedDB ∧ deviceKey = "undefined" ∧ sessionId = "undefined" := by
  have hsource : ∀ deviceKey sessionId, device.cryptoStore.getEndToEndSession deviceKey sessionId =
      store.getEndToEndSession deviceKey sessionId := by
    intro deviceKey sessionId
    rw [hlocal]
    rfl
  have hall : device.cryptoStore.getAllEndToEndSessions = store.getAllEndToEndSessions := by
    rw [hlocal]
    rfl
  obtain ⟨es, hes⟩ := exists_map_some (t := store.getAllEndToEndSessions) (by
    intro hnone
    obtain ⟨deviceKey, sessionId, info, -, hcontra⟩ := LocalStorageCryptoStore.of_mem_getAll hnone
    exact nomatch hcontra)
  -- a session that is passed on is stored under some names, and has none itself
  have hnames : ∀ session ∈ es, session.deviceKey = none ∧ session.sessionId = none ∧
      ∃ deviceKey sessionId, store.getEndToEndSession deviceKey sessionId =
        some ⟨session.session, session.lastReceivedMessageTs⟩ := by
    intro session hsession
    obtain ⟨deviceKey, sessionId, info, hinfo, hnameless⟩ := LocalStorageCryptoStore.of_mem_getAll
      (s := store) (e := some session) (by
        rw [hes]
        exact List.mem_map_of_mem hsession)
    obtain rfl := Option.some.inj hnameless
    exact ⟨rfl, rfl, deviceKey, sessionId, hinfo⟩
  have hgoes : ∀ session ∈ es, ∀ deviceKey sessionId, GoesUnder session deviceKey sessionId ↔
      deviceKey = "undefined" ∧ sessionId = "undefined" := by
    intro session hsession deviceKey sessionId
    rw [GoesUnder, (hnames session hsession).1, (hnames session hsession).2.1, Option.getD_none]
  constructor
  · intro hround deviceKey sessionId hstored
    obtain ⟨s, hstore⟩ := exists_storeSessions_of_survivesExport hround
    have hsame :=
      (survivesExport_iff_of_storeSessions hlib hacct hstore).1 hround deviceKey sessionId
    have hundefined : deviceKey = "undefined" ∧ sessionId = "undefined" := by
      by_contra hother
      rw [hall, hes] at hstore
      rw [storeSessions_kept _ _ es _ s hstore (fun session hsession hcontra =>
          hother ((hgoes session hsession _ _).1 hcontra)), CryptoStore.get_storeAccount,
        CryptoStore.get_empty, hsource] at hsame
      rw [← hsame] at hstored
      exact nomatch hstored
    refine ⟨?_, hundefined⟩
    rintro rfl
    obtain ⟨info, hinfo⟩ := Option.isSome_iff_exists.1 hstored
    have hpassed := LocalStorageCryptoStore.mem_getAll hinfo (by
      rw [hundefined.1]
      exact deviceKeyOf_undefined)
    obtain ⟨e, herror⟩ := storeSessions_error device.cryptoStore.getAllEndToEndSessions
      (StoreBackend.indexedDB.empty.storeAccount device.cryptoStore.getAccount)
      ⟨_, hall ▸ hpassed, by
        intro session hsession
        obtain rfl := Option.some.inj hsession
        rintro (hbackend | hnamed)
        · exact hbackend rfl
        · exact nomatch hnamed.1⟩
    exact nomatch hstore.symm.trans herror
  · intro honly
    obtain ⟨s, hstore, hget⟩ := storeSessions_ok es
      (fun deviceKey sessionId => (store.getEndToEndSession deviceKey sessionId).getD ⟨"", none⟩)
      (by
        intro session hsession deviceKey sessionId hunder
        obtain ⟨deviceKey', sessionId', hinfo⟩ := (hnames session hsession).2.2
        obtain ⟨-, hdevice, hid⟩ := honly deviceKey' sessionId' (hinfo ▸ rfl)
        obtain ⟨hdevice', hid'⟩ := (hgoes session hsession _ _).1 hunder
        show (store.getEndToEndSession deviceKey sessionId).getD ⟨"", none⟩ = _
        rw [hdevice, hid] at hinfo
        rw [hdevice', hid', hinfo, Option.getD_some])
      (target.empty.storeAccount device.cryptoStore.getAccount) (by
        intro session hsession
        obtain ⟨deviceKey', sessionId', hinfo⟩ := (hnames session hsession).2.2
        left
        rw [CryptoStore.backend_storeAccount, CryptoStore.backend_empty]
        exact (honly deviceKey' sessionId' (hinfo ▸ rfl)).1)
    have hkept := fun deviceKey sessionId =>
      storeSessions_kept deviceKey sessionId es _ s hstore
    rw [← hes, ← hall] at hstore
    rw [survivesExport_iff_of_storeSessions hlib hacct hstore]
    intro deviceKey sessionId
    rw [hsource]
    cases hinfo : store.getEndToEndSession deviceKey sessionId with
    | some info =>
      obtain ⟨-, rfl, rfl⟩ := honly deviceKey sessionId (hinfo ▸ rfl)
      have hpassed := LocalStorageCryptoStore.mem_getAll hinfo deviceKeyOf_undefined
      rw [hes] at hpassed
      obtain ⟨session, hsession, -⟩ := List.mem_map.1 hpassed
      rw [hget _ _ ⟨session, hsession, (hgoes session hsession _ _).2 ⟨rfl, rfl⟩⟩, hinfo,
        Option.getD_some]
    | none =>
      rw [hkept deviceKey sessionId, CryptoStore.get_storeAccount, CryptoStore.get_empty]
      intro session hsession hunder
      obtain ⟨deviceKey', sessionId', hinfo'⟩ := (hnames session hsession).2.2
      obtain ⟨-, hdevice, hid⟩ := honly deviceKey' sessionId' (hinfo' ▸ rfl)
      obtain ⟨hdevice', hid'⟩ := (hgoes session hsession _ _).1 hunder
      rw [hdevice, hid] at hinfo'
      rw [hdevice', hid', hinfo'] at hinfo
      exact nomatch hinfo

/-- **Exporting a device and importing it into an empty store** keeps the Olm sessions when they
come from the memory store. From localStorage it does so when there are none but the one that is
named as if it had no names, and from IndexedDB never. -/
theorem survivesExport_iff (hlib : lib.Invertible) {account : Account}
    (hacct : device.cryptoStore.getAccount = some (lib.pickle device.pickleKey account))
    (target : StoreBackend) : SurvivesExport lib device target ↔
      device.cryptoStore.backend = .memory ∨ device.cryptoStore.backend = .localStorage ∧
        ∀ deviceKey sessionId, (device.cryptoStore.getEndToEndSession deviceKey sessionId).isSome →
          target ≠ .indexedDB ∧ deviceKey = "undefined" ∧ sessionId = "undefined" := by
  cases hstore : device.cryptoStore with
  | memory store => exact iff_of_true (survivesExport_of_memory hlib hstore hacct target) (.inl rfl)
  | localStorage store =>
    rw [survivesExport_iff_of_localStorage hlib hstore hacct]
    constructor
    · intro honly
      exact .inr ⟨rfl, honly⟩
    · rintro (hbackend | ⟨-, honly⟩)
      · exact nomatch hbackend
      · exact honly
  | indexedDB store =>
    refine iff_of_false (not_survivesExport_of_indexedDB hstore target) ?_
    rintro (hbackend | ⟨hbackend, -⟩)
    · exact nomatch hbackend
    · exact nomatch hbackend

/-- Accounts whose pickle is the key followed by the account. -/
def keyedAccounts : OlmAccounts (List Char) where
  pickle key account := String.ofList (key.toList ++ account)
  unpickle key pickled := if key.toList.isPrefixOf pickled.toList then
    some (pickled.toList.drop key.toList.length) else none
  identity_keys account := (String.ofList ('e' :: account), String.ofList ('c' :: account))

theorem keyedAccounts_invertible : keyedAccounts.Invertible := by
  intro key account
  simp only [keyedAccounts, String.toList_ofList]
  rw [if_pos (List.isPrefixOf_iff_prefix.2 (List.prefix_append _ _)), List.drop_left]

/-- A device that has one session in this store. -/
def withOneSession (cryptoStore : CryptoStore) : OlmDevice where
  cryptoStore := cryptoStore
  pickleKey := "DEFAULT_KEY"
  deviceEd25519Key := "ea"
  deviceCurve25519Key := "ca"

def oneSessionInMemory : OlmDevice :=
  withOneSession (.memory ((MemoryCryptoStore.mk (some "DEFAULT_KEYa") .empty).storeEndToEndSession
    "curve/25519" "session" ⟨"pickle", some 5⟩))

def oneSessionInWebStore : OlmDevice :=
  withOneSession (.localStorage ((LocalStorageCryptoStore.mk (some "DEFAULT_KEYa")
    .empty).storeEndToEndSession "curve25519" "session" ⟨"pickle", some 5⟩))

theorem survivesExport_oneSessionInMemory :
    SurvivesExport keyedAccounts oneSessionInMemory .indexedDB :=
  (survivesExport_iff keyedAccounts_invertible (show oneSessionInMemory.cryptoStore.getAccount =
    some (keyedAccounts.pickle _ ['a']) by decide +kernel) .indexedDB).2 (.inl rfl)

/-- A session of the localStorage store is under another name after the import. -/
theorem survivesExport_fails : keyedAccounts.Invertible ∧
    oneSessionInWebStore.cryptoStore.getAccount =
      some (keyedAccounts.pickle oneSessionInWebStore.pickleKey ['a']) ∧
    ¬ SurvivesExport keyedAccounts oneSessionInWebStore .localStorage := by
  refine ⟨keyedAccounts_invertible, by decide +kernel, ?_⟩
  rintro ⟨device', hinit, hsame⟩
  have hlost : (initFromExported keyedAccounts StoreBackend.localStorage.empty
      oneSessionInWebStore.exportDevice).map (fun device =>
        device.cryptoStore.getEndToEndSession "curve25519" "session") = .ok none := by
    decide +kernel
  rw [hinit] at hlost
  have hthere : oneSessionInWebStore.cryptoStore.getEndToEndSession "curve25519" "session" =
      some ⟨"pickle", some 5⟩ := by
    decide +kernel
  have hgone : device'.cryptoStore.getEndToEndSession "curve25519" "session" = none :=
    Except.ok.inj hlost
  rw [hsame, hthere] at hgone
  exact nomatch hgone

end OlmDevice

end MatrixSdk.Crypto
