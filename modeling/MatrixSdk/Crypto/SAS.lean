/-
The short authentication string: `_doSendVerification` and `_doRespondVerification` of
`crypto/verification/SAS.js`, run by two parties on one start event over a channel that delivers
in order what the other party has sent.

Each party makes the info string, the commitment and the MACs from what it knows itself. The two
agree on the algorithms and on the code, and the commitment is accepted, whatever the ids are. The
MACs are accepted unless the keys of the sender are looked up under the wrong id, as they are when
the id of a device has a ":" in it: [`SasSession.agrees_iff`].
-/
import MatrixSdk.Crypto.Verification
import Mathlib.Data.List.TakeWhile

set_option autoImplicit false

namespace MatrixSdk.Crypto

open MatrixSdk.Lib

/-! ## The code that is shown -/

/-- One way to show the code: its three numbers, or its seven emoji. -/
inductive SasCode
  | decimal (numbers : List ℕ)
  | emoji (names : List (Option (String × String)))
  deriving DecidableEq

def generateDecimalSas (sasBytes : List ℕ) : List ℕ :=
  let byte (i : ℕ) := sasBytes.getD i 0
  [(byte 0 <<< 5 ||| byte 1 >>> 3) + 1000,
   ((byte 1 &&& 0x7) <<< 10 ||| byte 2 <<< 2 ||| byte 3 >>> 6) + 1000,
   ((byte 3 &&& 0x3f) <<< 7 ||| byte 4 >>> 1) + 1000]

def emojiMapping : List (String × String) :=
  [("🐶", "dog"), ("🐱", "cat"), ("🦁", "lion"), ("🐎", "horse"), ("🦄", "unicorn"),
   ("🐷", "pig"), ("🐘", "elephant"), ("🐰", "rabbit"), ("🐼", "panda"), ("🐓", "rooster"),
   ("🐧", "penguin"), ("🐢", "turtle"), ("🐟", "fish"), ("🐙", "octopus"), ("🦋", "butterfly"),
   ("🌷", "flower"), ("🌳", "tree"), ("🌵", "cactus"), ("🍄", "mushroom"), ("🌏", "globe"),
   ("🌙", "moon"), ("☁️", "cloud"), ("🔥", "fire"), ("🍌", "banana"), ("🍎", "apple"),
   ("🍓", "strawberry"), ("🌽", "corn"), ("🍕", "pizza"), ("🎂", "cake"), ("❤️", "heart"),
   ("🙂", "smiley"), ("🤖", "robot"), ("🎩", "hat"), ("👓", "glasses"), ("🔧", "spanner"),
   ("🎅", "santa"), ("👍", "thumbs up"), ("☂️", "umbrella"), ("⌛", "hourglass"),
   ("⏰", "clock"), ("🎁", "gift"), ("💡", "light bulb"), ("📕", "book"), ("✏️", "pencil"),
   ("📎", "paperclip"), ("✂️", "scissors"), ("🔒", "lock"), ("🔑", "key"), ("🔨", "hammer"),
   ("☎️", "telephone"), ("🏁", "flag"), ("🚂", "train"), ("🚲", "bicycle"),
   ("✈️", "aeroplane"), ("🚀", "rocket"), ("🏆", "trophy"), ("⚽", "ball"), ("🎸", "guitar"),
   ("🎺", "trumpet"), ("🔔", "bell"), ("⚓️", "anchor"), ("🎧", "headphones"), ("📁", "folder"),
   ("📌", "pin")]

def generateEmojiSas (sasBytes : List ℕ) : List (Option (String × String)) :=
  let byte (i : ℕ) := sasBytes.getD i 0
  -- just like base64 encoding
  [byte 0 >>> 2,
   (byte 0 &&& 0x3) <<< 4 ||| byte 1 >>> 4,
   (byte 1 &&& 0xf) <<< 2 ||| byte 2 >>> 6,
   byte 2 &&& 0x3f,
   byte 3 >>> 2,
   (byte 3 &&& 0x3) <<< 4 ||| byte 4 >>> 4,
   (byte 4 &&& 0xf) <<< 2 ||| byte 5 >>> 6].map fun num => emojiMapping[num]?

/-- `sasGenerators`, with the methods in the order of `Object.keys`. -/
def sasGenerators : List (String × (List ℕ → SasCode)) :=
  [("decimal", fun sasBytes => .decimal (generateDecimalSas sasBytes)),
   ("emoji", fun sasBytes => .emoji (generateEmojiSas sasBytes))]

def generateSas (sasBytes : List ℕ) (methods : List String) : JsObject String SasCode :=
  methods.foldl (fun sas method =>
    match sasGenerators.lookup method with
    | some generator => sas.set method (generator sasBytes)
    | none => sas) .empty

/-! ## What is agreed on -/

def KEY_AGREEMENT_LIST : List String := ["curve25519-hkdf-sha256", "curve25519"]
def HASHES_LIST : List String := ["sha256"]
def MAC_LIST : List String := ["hkdf-hmac-sha256", "hmac-sha256"]
def SAS_LIST : List String := sasGenerators.map Prod.fst

def intersection (anArray aSet : List String) : List String := anArray.filter fun x => x ∈ aSet

/-- The completed content of the "m.key.verification.start" event. -/
structure StartContent where
  method : String
  from_device : String
  key_agreement_protocols : List String
  hashes : List String
  message_authentication_codes : List String
  short_authentication_string : List String
  transactionId : String

/-- The content of "m.key.verification.accept". -/
structure AcceptContent where
  key_agreement_protocol : String
  hash : String
  message_authentication_code : String
  short_authentication_string : List String
  commitment : String

/-- What a party goes on with once the algorithms have been agreed on. -/
structure Agreed where
  keyAgreement : String
  macMethod : String
  sasMethods : List String
  deriving DecidableEq

/-- What `_doRespondVerification` takes from the lists that it is offered: the method of each list
that it prefers. -/
def chooseMethods (content : StartContent) : Option (Agreed × String) := do
  let keyAgreement ← (intersection KEY_AGREEMENT_LIST content.key_agreement_protocols).head?
  let hashMethod ← (intersection HASHES_LIST content.hashes).head?
  let macMethod ← (intersection MAC_LIST content.message_authentication_codes).head?
  let sasMethods := intersection content.short_authentication_string SAS_LIST
  if sasMethods.isEmpty then none else some (⟨keyAgreement, macMethod, sasMethods⟩, hashMethod)

/-- What `_doSendVerification` takes from an accept event. -/
def AcceptContent.agreed (content : AcceptContent) : Except String Agreed :=
  let sasMethods := intersection content.short_authentication_string SAS_LIST
  if content.key_agreement_protocol ∈ KEY_AGREEMENT_LIST ∧ content.hash ∈ HASHES_LIST ∧
      content.message_authentication_code ∈ MAC_LIST ∧ sasMethods ≠ [] then
    .ok ⟨content.key_agreement_protocol, content.message_authentication_code, sasMethods⟩
  else .error "m.unknown_method"

/-! ## The libraries -/

/-- What is used of Olm and of `another-json`. Two parties that have set each other's key share a
secret. -/
structure SasLibraries (Key Secret : Type) where
  get_pubkey : Key → String
  set_their_key : Key → String → Secret
  generate_bytes : Secret → String → ℕ → List ℕ
  calculate_mac : Secret → Option String → String → String
  calculate_mac_long_kdf : Secret → Option String → String → String
  sha256 : String → String
  stringify : StartContent → String
  shared : ∀ k k', set_their_key k (get_pubkey k') = set_their_key k' (get_pubkey k)

section Functions

variable {Key Secret : Type} (lib : SasLibraries Key Secret)

/-- `macMethods` has a function for each method of `MAC_LIST`. -/
def calculateMAC (olmSAS : Secret) (method : String) : Option String → String → String :=
  if method = "hkdf-hmac-sha256" then lib.calculate_mac olmSAS
  else lib.calculate_mac_long_kdf olmSAS

/-- What is passed on of the verifier to `calculateKeyAgreement`. -/
structure SasKeys where
  parties : Parties
  ourSASPubKey : String
  theirSASPubKey : String
  initiatedByMe : Bool

/-- The info string of each function of `calculateKeyAgreement`. -/
def sasInfo (sas : SasKeys) (keyAgreement : String) : String :=
  let parties := sas.parties
  if keyAgreement = "curve25519-hkdf-sha256" then
    let ourInfo := parties.ownUserId ++ "|" ++ parties.ownDeviceId ++ "|" ++ sas.ourSASPubKey ++ "|"
    let theirInfo := parties.userId ++ "|" ++ parties.deviceId ++ "|" ++ sas.theirSASPubKey ++ "|"
    "MATRIX_KEY_VERIFICATION_SAS|" ++
      (if sas.initiatedByMe then ourInfo ++ theirInfo else theirInfo ++ ourInfo) ++
      parties.transactionId
  else
    let ourInfo := parties.ownUserId ++ parties.ownDeviceId
    let theirInfo := parties.userId ++ parties.deviceId
    "MATRIX_KEY_VERIFICATION_SAS" ++
      (if sas.initiatedByMe then ourInfo ++ theirInfo else theirInfo ++ ourInfo) ++
      parties.transactionId

end Functions

/-! ## The MACs -/

/-- A party: its keys, and what its device list has of the other user. -/
structure SasParty where
  userId : String
  deviceId : String
  ed25519Key : String
  crossSigningId : Option String
  otherKeys : UserKeys

/-- The parties, as the other party sees them. -/
def Parties.swap (parties : Parties) : Parties where
  userId := parties.ownUserId
  deviceId := parties.ownDeviceId
  ownUserId := parties.userId
  ownDeviceId := parties.deviceId
  transactionId := parties.transactionId

/-- The `baseInfo` of `_sendMAC`. -/
def Parties.sentBaseInfo (parties : Parties) : String :=
  "MATRIX_KEY_VERIFICATION_MAC" ++ parties.ownUserId ++ parties.ownDeviceId ++
    parties.userId ++ parties.deviceId ++ parties.transactionId

/-- The keys that `_sendMAC` has a MAC for, under their key ids. -/
def SasParty.macKeys (own : SasParty) : List (String × String) :=
  ("ed25519:" ++ own.deviceId, own.ed25519Key) ::
    (truthy own.crossSigningId).toList.map fun crossSigningId =>
      ("ed25519:" ++ crossSigningId, crossSigningId)

/-- `keyIds.sort().join(",")` -/
def joinKeyIds (keyIds : List String) : String :=
  ",".intercalate (keyIds.insertionSort fun a b => utf16 a ≤ utf16 b)

/-- The content that `_sendMAC` sends. -/
def sendMAC (mac : Option String → String → String) (parties : Parties) (own : SasParty) :
    MacContent where
  mac := some (own.macKeys.foldl
    (fun content entry =>
      content.set entry.1 (mac (some entry.2) (parties.sentBaseInfo ++ entry.1))) .empty)
  keys := some (mac (some (joinKeyIds (own.macKeys.map Prod.fst)))
    (parties.sentBaseInfo ++ "KEY_IDS"))

/-- The loop of `_verifyKeys` over the keys, with a device list that stays as it is. -/
def UserKeys.verifyKeys (list : UserKeys)
    (verifier : String → DeviceInfo → String → Except String (List (Option String))) :
    List (String × String) → List VerifiedDevice → Except String (List VerifiedDevice)
  | [], verifiedDevices => .ok verifiedDevices
  | (keyId, keyInfo) :: keys, verifiedDevices =>
    let deviceId := splitDeviceId keyId
    match list.getStoredDevice deviceId with
    | some device => do
      let _ ← verifier keyId device keyInfo
      list.verifyKeys verifier keys (verifiedDevices ++ [⟨keyId, some device⟩])
    | none =>
      if list.masterKey = some deviceId then do
        let _ ← verifier keyId (masterKeyAsDevice keyId deviceId) keyInfo
        list.verifyKeys verifier keys (verifiedDevices ++ [⟨keyId, none⟩])
      else list.verifyKeys verifier keys verifiedDevices

/-- The loop is the one of [`verifySystem`], while nothing changes the device list. -/
theorem UserKeys.verifyKeys_run (parties : Parties) (method : Method) (list : UserKeys)
    (keys : List (String × String)) (verifiedDevices : List VerifiedDevice) (s : VerifyState)
    (hphase : s.phase = .checking keys verifiedDevices) :
    ∃ n t, (verifySystem parties method list).runFrom s (List.replicate n .verifyKey) = some t ∧
      t.phase = match s.list.verifyKeys (method.verifier parties) keys verifiedDevices with
        | .ok verified => .checking [] verified
        | .error e => .failed e := by
  induction keys generalizing verifiedDevices s with
  | nil => exact ⟨0, s, rfl, hphase⟩
  | cons entry keys ih =>
    obtain ⟨keyId, keyInfo⟩ := entry
    have hstep : (verifySystem parties method list).step s .verifyKey = some
        (s.verifyKey (method.verifier parties) keyId keyInfo keys verifiedDevices) := by
      simp only [verifySystem, hphase]
    -- what follows the first key
    have hnext : ∀ t devices, (verifySystem parties method list).step s .verifyKey = some t →
        t.phase = .checking keys devices → t.list = s.list → ∃ n u,
          (verifySystem parties method list).runFrom s (List.replicate n .verifyKey) = some u ∧
            u.phase = match s.list.verifyKeys (method.verifier parties) keys devices with
              | .ok verified => .checking [] verified
              | .error e => .failed e := by
      intro t devices ht hphase hlist
      obtain ⟨n, u, hrun, hu⟩ := ih devices t hphase
      refine ⟨n + 1, u, ?_, hlist ▸ hu⟩
      rw [List.replicate_succ, System.runFrom, ht]
      exact hrun
    have hfails : ∀ e, (verifySystem parties method list).step s .verifyKey =
        some { s with phase := .failed e } → ∃ n u,
          (verifySystem parties method list).runFrom s (List.replicate n .verifyKey) = some u ∧
            u.phase = .failed e := by
      intro e he
      refine ⟨1, { s with phase := .failed e }, ?_, rfl⟩
      rw [List.replicate_one, System.runFrom, he]
      rfl
    rw [UserKeys.verifyKeys]
    rw [VerifyState.verifyKey] at hstep
    cases hdevice : s.list.getStoredDevice (splitDeviceId keyId) with
    | some device =>
      rw [hdevice] at hstep
      dsimp only [Option.getD_some] at hstep ⊢
      cases hcheck : method.verifier parties keyId device keyInfo with
      | error e =>
        rw [hcheck] at hstep
        exact hfails e hstep
      | ok values =>
        rw [hcheck] at hstep
        exact hnext _ _ hstep rfl rfl
    | none =>
      rw [hdevice] at hstep
      dsimp only [Option.getD_none] at hstep ⊢
      by_cases hmaster : s.list.masterKey = some (splitDeviceId keyId)
      · rw [if_pos hmaster] at hstep
        rw [if_pos hmaster]
        cases hcheck : method.verifier parties keyId
            (masterKeyAsDevice keyId (splitDeviceId keyId)) keyInfo with
        | error e =>
          rw [hcheck] at hstep
          exact hfails e hstep
        | ok values =>
          rw [hcheck] at hstep
          exact hnext _ _ hstep rfl rfl
      · rw [if_neg hmaster] at hstep
        rw [if_neg hmaster]
        exact hnext _ _ hstep rfl rfl

/-- `_checkMAC`, up to the devices that are then marked as verified. -/
def checkMACs (mac : Option String → String → String) (parties : Parties) (list : UserKeys)
    (content : MacContent) : Except String (List VerifiedDevice) := do
  let keys ← checkMAC mac parties.baseInfo content
  let verifiedDevices ← list.verifyKeys (sasVerifier mac parties.baseInfo) keys.entries []
  if verifiedDevices.isEmpty then .error "No devices could be verified" else .ok verifiedDevices

/-! ## A party of the run -/

/-- What is shown to the user, and what it is made from. -/
structure ShownSas where
  agreed : Agreed
  sasInfo : String
  sas : JsObject String SasCode

inductive SasMessage
  | accept (content : AcceptContent)
  | key (key : String)
  | mac (content : MacContent)

/-- Where `_doVerification` is. -/
inductive SasState
  /-- The responder has the start event. -/
  | started
  | waitingForAccept
  /-- The initiator has the commitment of the responder. -/
  | waitingForKey (agreed : Agreed) (hashCommitment : Option String)
  /-- The code is shown; the MACs of the other party may already be here. -/
  | showing (theirSASPubKey : String) (shown : ShownSas) (confirmed : Bool)
      (macs : Option MacContent)
  | verified (shown : ShownSas) (verifiedDevices : List VerifiedDevice)
  | failed (error : String)

/-- What a verifier has from the beginning. `privateKey` is that of its `olmSAS`. -/
structure SasVerifier (Key : Type) where
  own : SasParty
  parties : Parties
  initiatedByMe : Bool
  startContent : StartContent
  privateKey : Key

namespace SasVerifier

variable {Key Secret : Type} (lib : SasLibraries Key Secret) (v : SasVerifier Key)

/-- `olmutil.sha256(key + anotherjson.stringify(startContent))` -/
def commitment (key : String) : String := lib.sha256 (key ++ lib.stringify v.startContent)

/-- What is shown once the key of the other party is here. -/
def showSas (agreed : Agreed) (theirSASPubKey : String) : ShownSas :=
  let info := sasInfo
    ⟨v.parties, lib.get_pubkey v.privateKey, theirSASPubKey, v.initiatedByMe⟩ agreed.keyAgreement
  let olmSAS := lib.set_their_key v.privateKey theirSASPubKey
  ⟨agreed, info, generateSas (lib.generate_bytes olmSAS info 6) agreed.sasMethods⟩

def mac (theirSASPubKey : String) (shown : ShownSas) : Option String → String → String :=
  calculateMAC lib (lib.set_their_key v.privateKey theirSASPubKey) shown.agreed.macMethod

/-- `_doRespondVerification`, up to its first wait. -/
def respond : SasState × List SasMessage :=
  match chooseMethods v.startContent with
  | none => (.failed "m.unknown_method", [])
  | some (agreed, hash) =>
    (.waitingForKey agreed none,
      [.accept ⟨agreed.keyAgreement, hash, agreed.macMethod, agreed.sasMethods,
        v.commitment lib (lib.get_pubkey v.privateKey)⟩])

/-- What follows `Promise.all`: the code has been confirmed, and the MACs are here. -/
def finish (theirSASPubKey : String) (shown : ShownSas) (content : MacContent) : SasState :=
  match checkMACs (v.mac lib theirSASPubKey shown) v.parties v.own.otherKeys content with
  | .ok verifiedDevices => .verified shown verifiedDevices
  | .error e => .failed e

/-- The next message of the other party. One that is not expected ends the verification. -/
def receive : SasState → SasMessage → SasState × List SasMessage
  | .waitingForAccept, .accept content =>
    match content.agreed with
    | .error e => (.failed e, [])
    | .ok agreed =>
      (.waitingForKey agreed (some content.commitment), [.key (lib.get_pubkey v.privateKey)])
  | .waitingForKey agreed (some hashCommitment), .key key =>
    if v.commitment lib key ≠ hashCommitment then (.failed "m.mismatched_commitment", [])
    else (.showing key (v.showSas lib agreed key) false none, [])
  | .waitingForKey agreed none, .key key =>
    (.showing key (v.showSas lib agreed key) false none, [.key (lib.get_pubkey v.privateKey)])
  | .showing key shown false none, .mac content => (.showing key shown false (some content), [])
  | .showing key shown true none, .mac content => (v.finish lib key shown content, [])
  | .verified shown verifiedDevices, _ => (.verified shown verifiedDevices, [])
  | .failed e, _ => (.failed e, [])
  | _, _ => (.failed "Unexpected message", [])

/-- The user says that the codes match. -/
def confirm : SasState → Option (SasState × List SasMessage)
  | .showing key shown false macs =>
    let sent := SasMessage.mac (sendMAC (v.mac lib key shown) v.parties v.own)
    match macs with
    | none => some (.showing key shown true none, [sent])
    | some content => some (v.finish lib key shown content, [sent])
  | _ => none

end SasVerifier

/-- The code that a party shows or has shown. -/
def SasState.shown : SasState → Option ShownSas
  | .showing _ shown _ _ => some shown
  | .verified shown _ => some shown
  | _ => none

/-! ## Two parties on one start event -/

/-- The start event: who has sent it, and what. -/
structure StartEvent where
  sender : String
  content : StartContent

/-- `initiatedByMe`: without a start event we are about to send one. -/
def initiatedByMe (parties : Parties) (startEvent : Option StartEvent) : Bool :=
  match startEvent with
  | none => true
  | some event =>
    event.sender = parties.ownUserId ∧ event.content.from_device = parties.ownDeviceId

/-- Two parties with one start event, which the initiator has sent and which offers something in
each of its lists. -/
structure SasSession where
  initiator : SasParty
  responder : SasParty
  startContent : StartContent
  /-- The verifier of the initiator was made with the event that has been sent. -/
  hasStartEvent : Bool
  fromDevice : startContent.from_device = initiator.deviceId
  distinct : (initiator.userId, initiator.deviceId) ≠ (responder.userId, responder.deviceId)
  offers : (chooseMethods startContent).isSome

namespace SasSession

variable (session : SasSession)

/-- The parties, as the initiator sees them. -/
def parties : Parties where
  userId := session.responder.userId
  deviceId := session.responder.deviceId
  ownUserId := session.initiator.userId
  ownDeviceId := session.initiator.deviceId
  transactionId := session.startContent.transactionId

def startEvent : StartEvent := ⟨session.initiator.userId, session.startContent⟩

variable {Key : Type} (initiatorKey responderKey : Key)

def initiatorVerifier : SasVerifier Key where
  own := session.initiator
  parties := session.parties
  initiatedByMe := initiatedByMe session.parties
    (if session.hasStartEvent then some session.startEvent else none)
  startContent := session.startContent
  privateKey := initiatorKey

def responderVerifier : SasVerifier Key where
  own := session.responder
  parties := session.parties.swap
  initiatedByMe := initiatedByMe session.parties.swap (some session.startEvent)
  startContent := session.startContent
  privateKey := responderKey

end SasSession

/-- The two parties, and what is on its way to each of them. -/
structure SasRun where
  initiator : SasState
  responder : SasState
  toInitiator : List SasMessage
  toResponder : List SasMessage

inductive SasStep
  | respond
  | deliverToInitiator
  | deliverToResponder
  | confirmInitiator
  | confirmResponder

/-- Where `_doVerification` begins. -/
def SasVerifier.begin {Key : Type} (v : SasVerifier Key) : SasState :=
  if v.initiatedByMe then .waitingForAccept else .started

def sasSystem {Key Secret : Type} (lib : SasLibraries Key Secret)
    (initiator responder : SasVerifier Key) : System SasRun SasStep where
  init := ⟨initiator.begin, responder.begin, [], []⟩
  step s
    | .respond =>
      match s.responder with
      | .started =>
        let (state, sent) := responder.respond lib
        some { s with responder := state, toInitiator := s.toInitiator ++ sent }
      | _ => none
    | .deliverToInitiator =>
      match s.toInitiator with
      | [] => none
      | message :: rest =>
        let (state, sent) := initiator.receive lib s.initiator message
        some { s with
          initiator := state, toInitiator := rest, toResponder := s.toResponder ++ sent }
    | .deliverToResponder =>
      match s.toResponder with
      | [] => none
      | message :: rest =>
        let (state, sent) := responder.receive lib s.responder message
        some { s with
          responder := state, toResponder := rest, toInitiator := s.toInitiator ++ sent }
    | .confirmInitiator =>
      (initiator.confirm lib s.initiator).map fun (state, sent) =>
        { s with initiator := state, toResponder := s.toResponder ++ sent }
    | .confirmResponder =>
      (responder.confirm lib s.responder).map fun (state, sent) =>
        { s with responder := state, toInitiator := s.toInitiator ++ sent }

/-! ## What the parties agree on -/

theorem mem_of_head?_intersection {l s : List String} {x : String}
    (h : (intersection l s).head? = some x) : x ∈ l :=
  (List.mem_filter.1 (List.mem_of_head? h)).1

theorem intersection_self (l s : List String) :
    intersection (intersection l s) s = intersection l s := by
  simp only [intersection, List.filter_filter, Bool.and_self]

/-- What the responder chooses, the initiator takes. -/
theorem AcceptContent.agreed_of_chooseMethods {content : StartContent} {agreed : Agreed}
    {hash : String} (h : chooseMethods content = some (agreed, hash)) (commitment : String) :
    AcceptContent.agreed ⟨agreed.keyAgreement, hash, agreed.macMethod, agreed.sasMethods,
      commitment⟩ = .ok agreed := by
  unfold chooseMethods at h
  obtain ⟨keyAgreement, hkey, h⟩ := Option.bind_eq_some_iff.1 h
  obtain ⟨hashMethod, hhash, h⟩ := Option.bind_eq_some_iff.1 h
  obtain ⟨macMethod, hmac, h⟩ := Option.bind_eq_some_iff.1 h
  dsimp only at h
  split at h
  · exact nomatch h
  next hne =>
    obtain ⟨rfl, rfl⟩ := Prod.mk.inj (Option.some.inj h)
    rw [AcceptContent.agreed, intersection_self]
    exact if_pos ⟨mem_of_head?_intersection hkey, mem_of_head?_intersection hhash,
      mem_of_head?_intersection hmac, fun hnil => hne (List.isEmpty_iff.2 hnil)⟩

/-- The info string is one string for both parties. -/
theorem sasInfo_swap (parties : Parties) (ourSASPubKey theirSASPubKey keyAgreement : String) :
    sasInfo ⟨parties.swap, theirSASPubKey, ourSASPubKey, false⟩ keyAgreement =
      sasInfo ⟨parties, ourSASPubKey, theirSASPubKey, true⟩ keyAgreement := rfl

namespace SasSession

variable (session : SasSession) {Key Secret : Type} (lib : SasLibraries Key Secret)
  (initiatorKey responderKey : Key)

theorem initiatedByMe_initiator :
    (session.initiatorVerifier initiatorKey).initiatedByMe = true := by
  show initiatedByMe session.parties _ = true
  cases session.hasStartEvent with
  | false => rfl
  | true => exact decide_eq_true ⟨rfl, session.fromDevice⟩

theorem initiatedByMe_responder :
    (session.responderVerifier responderKey).initiatedByMe = false := by
  refine decide_eq_false ?_
  rintro ⟨hsender, hdevice⟩
  exact session.distinct (Prod.ext hsender (session.fromDevice.symm.trans hdevice))

/-- The initiator accepts the commitment of the responder. -/
theorem commitment_eq (key : String) :
    (session.initiatorVerifier initiatorKey).commitment lib key =
      (session.responderVerifier responderKey).commitment lib key := rfl

/-- The code is one code for both parties. -/
theorem showSas_eq (agreed : Agreed) :
    (session.responderVerifier responderKey).showSas lib agreed (lib.get_pubkey initiatorKey) =
      (session.initiatorVerifier initiatorKey).showSas lib agreed
        (lib.get_pubkey responderKey) := by
  have hinfo := sasInfo_swap session.parties (lib.get_pubkey initiatorKey)
    (lib.get_pubkey responderKey) agreed.keyAgreement
  rw [SasVerifier.showSas, SasVerifier.showSas, initiatedByMe_initiator, initiatedByMe_responder]
  have hsecret : lib.set_their_key responderKey (lib.get_pubkey initiatorKey) =
      lib.set_their_key initiatorKey (lib.get_pubkey responderKey) :=
    lib.shared responderKey initiatorKey
  show ShownSas.mk agreed _ (generateSas (lib.generate_bytes
    (lib.set_their_key responderKey (lib.get_pubkey initiatorKey)) _ 6) agreed.sasMethods) = _
  rw [hsecret]
  rfl

end SasSession

/-! ## What the check of the MACs looks up -/

namespace UserKeys

variable (list : UserKeys) {mac : Option String → String → String} {keys : List (String × String)}

/-- The key that the check compares with under a key id, if it finds anything for it. -/
def checkedKey (keyId : String) : Option (Option String) :=
  match list.getStoredDevice (splitDeviceId keyId) with
  | some device => some (device.keys.get keyId)
  | none => if list.masterKey = some (splitDeviceId keyId) then some (splitDeviceId keyId) else none

/-- What `_verifyKeys` keeps of a key id that it finds something for. -/
def verifiedDevice (keyId : String) : VerifiedDevice :=
  ⟨keyId, list.getStoredDevice (splitDeviceId keyId)⟩

theorem masterKeyAsDevice_keys (keyId : String) (deviceId : Option String) :
    (masterKeyAsDevice keyId deviceId).keys.get keyId = deviceId := by
  cases deviceId with
  | none => rfl
  | some id => exact JsObject.get_set_self ..

theorem verifyKeys_cons (mac : Option String → String → String) (baseInfo keyId keyInfo : String)
    (keys : List (String × String)) (verifiedDevices : List VerifiedDevice) :
    list.verifyKeys (sasVerifier mac baseInfo) ((keyId, keyInfo) :: keys) verifiedDevices =
      match list.checkedKey keyId with
      | none => list.verifyKeys (sasVerifier mac baseInfo) keys verifiedDevices
      | some key =>
        if keyInfo ≠ mac key (baseInfo ++ keyId) then .error "m.key_mismatch"
        else list.verifyKeys (sasVerifier mac baseInfo) keys
          (verifiedDevices ++ [list.verifiedDevice keyId]) := by
  rw [verifyKeys, checkedKey, verifiedDevice]
  cases list.getStoredDevice (splitDeviceId keyId) with
  | some device =>
    show Except.bind (sasVerifier mac baseInfo keyId device keyInfo) _ = _
    rw [sasVerifier]
    dsimp only
    split
    · rfl
    · rfl
  | none =>
    by_cases hmaster : list.masterKey = some (splitDeviceId keyId)
    · rw [if_pos hmaster, if_pos hmaster]
      show Except.bind (sasVerifier mac baseInfo keyId _ keyInfo) _ = _
      rw [sasVerifier, masterKeyAsDevice_keys]
      dsimp only
      split
      · rfl
      · rfl
    · rw [if_neg hmaster, if_neg hmaster]

/-- The entries of a "m.key.verification.mac" event, for keys under their key ids. -/
def macEntries (mac : Option String → String → String) (baseInfo : String)
    (keys : List (String × String)) : List (String × String) :=
  keys.map fun entry => (entry.1, mac (some entry.2) (baseInfo ++ entry.1))

/-- The loop goes through if what it finds for each key id has the same MAC. -/
theorem verifyKeys_ok {baseInfo : String} (verifiedDevices : List VerifiedDevice)
    (h : ∀ entry ∈ keys, ∀ key, list.checkedKey entry.1 = some key → key = some entry.2) :
    list.verifyKeys (sasVerifier mac baseInfo) (macEntries mac baseInfo keys) verifiedDevices =
      .ok (verifiedDevices ++ (keys.filter fun entry => (list.checkedKey entry.1).isSome).map
        fun entry => list.verifiedDevice entry.1) := by
  induction keys generalizing verifiedDevices with
  | nil =>
    show Except.ok verifiedDevices = _
    simp only [List.filter_nil, List.map_nil, List.append_nil]
  | cons entry keys ih =>
    have hkeys := fun vs => ih vs fun e he => h e (List.mem_cons_of_mem _ he)
    show list.verifyKeys _ ((entry.1, _) :: macEntries mac baseInfo keys) _ = _
    rw [verifyKeys_cons, List.filter_cons]
    cases hfound : list.checkedKey entry.1 with
    | none => exact hkeys verifiedDevices
    | some key =>
      have hkey : key = some entry.2 := h entry List.mem_cons_self key hfound
      dsimp only
      rw [if_neg (by rw [hkey]; exact not_not.2 rfl), hkeys]
      simp only [Option.isSome_some, if_true, List.map_cons, List.append_assoc,
        List.singleton_append]

/-- If the loop goes through, what it finds for each key id has the same MAC. -/
theorem macs_eq_of_verifyKeys {baseInfo : String} {verifiedDevices verified : List VerifiedDevice}
    (h : list.verifyKeys (sasVerifier mac baseInfo) (macEntries mac baseInfo keys)
      verifiedDevices = .ok verified) :
    ∀ entry ∈ keys, ∀ key, list.checkedKey entry.1 = some key →
      mac (some entry.2) (baseInfo ++ entry.1) = mac key (baseInfo ++ entry.1) := by
  induction keys generalizing verifiedDevices with
  | nil => exact fun entry hentry => absurd hentry List.not_mem_nil
  | cons entry keys ih =>
    rw [macEntries, List.map_cons, verifyKeys_cons] at h
    rintro e (_ | ⟨_, he⟩) key hkey
    · rw [hkey] at h
      dsimp only at h
      split at h
      · exact nomatch h
      next heq => exact not_not.1 heq
    · cases hfound : list.checkedKey entry.1 with
      | none =>
        rw [hfound] at h
        exact ih h e he key hkey
      | some key' =>
        rw [hfound] at h
        dsimp only at h
        split at h
        · exact nomatch h
        · exact ih h e he key hkey

end UserKeys

/-- The keys of a party are found by the other party: its two key ids are two, what is looked up
for them are its keys, and for one of them something is found. -/
structure SasParty.KeysFound (sender : SasParty) (list : UserKeys) : Prop where
  distinct : truthy sender.crossSigningId ≠ some sender.deviceId
  keys : ∀ entry ∈ sender.macKeys, ∀ key, list.checkedKey entry.1 = some key → key = some entry.2
  found : ∃ entry ∈ sender.macKeys, (list.checkedKey entry.1).isSome

/-! ## The MACs that are accepted -/

namespace SasParty

variable {mac : Option String → String → String} {own : SasParty} {list : UserKeys}

theorem keyId_inj {id id' : String} (h : "ed25519:" ++ id = "ed25519:" ++ id') : id = id' := by
  have hlist := congrArg String.toList h
  rw [String.toList_append, String.toList_append] at hlist
  exact String.toList_inj.1 (List.append_cancel_left hlist)

/-- Two key ids make two entries. -/
theorem nodup_macKeys (h : truthy own.crossSigningId ≠ some own.deviceId) :
    (own.macKeys.map Prod.fst).Nodup := by
  rw [macKeys]
  cases hcross : truthy own.crossSigningId with
  | none => exact List.nodup_singleton _
  | some id =>
    refine List.nodup_cons.2 ⟨?_, List.nodup_singleton _⟩
    intro hmem
    have hid : own.deviceId = id := keyId_inj (List.mem_singleton.1 hmem)
    exact h (by rw [hcross, hid])

/-- What the other party gets, if there are as many entries as keys. -/
theorem sentMacs (mac : Option String → String → String) (parties : Parties)
    (h : (own.macKeys.map Prod.fst).Nodup) :
    ∃ macs : JsObject String String, (sendMAC mac parties own).mac = some macs ∧
      macs.keys = own.macKeys.map Prod.fst ∧
      macs.entries = UserKeys.macEntries mac parties.sentBaseInfo own.macKeys :=
  ⟨_, rfl, (JsObject.foldl_set _ h).1, JsObject.entries_foldl_set _ h⟩

/-- The "keys" of the event match if there are as many entries as keys. -/
theorem checkMAC_sendMAC (mac : Option String → String → String) (parties : Parties)
    (h : (own.macKeys.map Prod.fst).Nodup) :
    ∃ macs : JsObject String String,
      checkMAC mac parties.swap.baseInfo (sendMAC mac parties own) = .ok macs ∧
      macs.entries = UserKeys.macEntries mac parties.sentBaseInfo own.macKeys := by
  obtain ⟨macs, hmacs, hkeys, hentries⟩ := sentMacs mac parties h
  refine ⟨macs, ?_, hentries⟩
  rw [checkMAC, hmacs]
  refine if_neg (not_not.2 ?_)
  rw [hkeys]
  rfl

/-- **The MACs of a party whose keys are found are accepted.** -/
theorem KeysFound.checkMACs (h : own.KeysFound list) (parties : Parties) :
    ∃ verified, checkMACs mac parties.swap list (sendMAC mac parties own) = .ok verified := by
  obtain ⟨macs, hcheck, hentries⟩ := checkMAC_sendMAC mac parties (nodup_macKeys h.distinct)
  obtain ⟨entry, hmem, hfound⟩ := h.found
  obtain ⟨verified, hloop, hne⟩ : ∃ verified, list.verifyKeys (sasVerifier mac parties.sentBaseInfo)
      macs.entries [] = .ok verified ∧ verified ≠ [] :=
    ⟨_, hentries ▸ list.verifyKeys_ok [] h.keys, List.ne_nil_of_mem (List.mem_append_right _
      (List.mem_map_of_mem (List.mem_filter.2 ⟨hmem, hfound⟩)))⟩
  refine ⟨verified, ?_⟩
  rw [MatrixSdk.Crypto.checkMACs, hcheck]
  show Except.bind (list.verifyKeys (sasVerifier mac parties.sentBaseInfo) macs.entries []) _ = _
  rw [hloop]
  exact if_neg fun hempty => hne (List.isEmpty_iff.1 hempty)

theorem joinKeyIds_twice (keyId : String) : joinKeyIds [keyId, keyId] ≠ joinKeyIds [keyId] := by
  have hsort : [keyId, keyId].insertionSort (fun a b => utf16 a ≤ utf16 b) = [keyId, keyId] := by
    simp only [List.insertionSort, List.foldr_cons, List.foldr_nil, List.orderedInsert_nil,
      List.orderedInsert_cons, ite_self]
  have hone : joinKeyIds [keyId] = keyId := rfl
  have htwo : joinKeyIds [keyId, keyId] = keyId ++ "," ++ keyId := by
    rw [joinKeyIds, hsort]
    rfl
  rw [hone, htwo]
  intro heq
  have hlength := congrArg String.length heq
  rw [String.length_append, String.length_append] at hlength
  have hcomma : ",".length = 1 := rfl
  omega

/-- A library whose MACs tell different keys apart accepts the MACs of no other party. -/
theorem keysFound_of_checkMACs (hinj : ∀ info key key', mac key info = mac key' info → key = key')
    {parties : Parties} {verified : List VerifiedDevice}
    (h : checkMACs mac parties.swap list (sendMAC mac parties own) = .ok verified) :
    own.KeysFound list := by
  have hdistinct : truthy own.crossSigningId ≠ some own.deviceId := by
    -- one entry is sent for the two, and "keys" has their key id twice
    intro heq
    have hkeys : own.macKeys.map Prod.fst =
        ["ed25519:" ++ own.deviceId, "ed25519:" ++ own.deviceId] := by
      rw [macKeys, heq]
      rfl
    have herror : checkMAC mac parties.swap.baseInfo (sendMAC mac parties own) =
        .error "m.key_mismatch" := by
      refine if_pos ?_
      intro hmac
      have hjoined := hinj _ _ _ (Option.some.inj hmac)
      rw [hkeys] at hjoined
      refine joinKeyIds_twice _ ((Option.some.inj hjoined).trans ?_)
      simp only [macKeys, heq]
      exact congrArg joinKeyIds (JsObject.keys_set_of_mem (JsObject.mem_keys_set.2 (.inl rfl)) _)
    rw [checkMACs, herror] at h
    exact nomatch h
  obtain ⟨macs, hcheck, hentries⟩ := checkMAC_sendMAC mac parties (nodup_macKeys hdistinct)
  rw [checkMACs, hcheck] at h
  replace h : (list.verifyKeys (sasVerifier mac parties.sentBaseInfo) macs.entries []).bind
      (fun verifiedDevices => if verifiedDevices.isEmpty then .error "No devices could be verified"
        else .ok verifiedDevices) = .ok verified := h
  rw [hentries] at h
  cases hloop : list.verifyKeys (sasVerifier mac parties.sentBaseInfo)
      (UserKeys.macEntries mac parties.sentBaseInfo own.macKeys) [] with
  | error e =>
    rw [hloop] at h
    exact nomatch h
  | ok devices =>
    have hagree : ∀ entry ∈ own.macKeys, ∀ key, list.checkedKey entry.1 = some key →
        key = some entry.2 := fun entry hentry key hkey =>
      (hinj _ _ _ (list.macs_eq_of_verifyKeys hloop entry hentry key hkey)).symm
    refine ⟨hdistinct, hagree, ?_⟩
    by_contra hnone
    -- nothing is found, so that no device can be verified
    have hempty : devices = [] := by
      have hdevices := Except.ok.inj (hloop.symm.trans (list.verifyKeys_ok [] hagree))
      rw [hdevices, List.nil_append, List.map_eq_nil_iff, List.filter_eq_nil_iff]
      exact fun entry hentry hfound => hnone ⟨entry, hentry, hfound⟩
    rw [hloop, hempty] at h
    exact nomatch h

end SasParty

/-! ## The stages of a run -/

/-- A party from the time the code is shown. The MACs of the other party are checked when they are
here and the code has been confirmed. -/
def SasState.fromCode {Key Secret : Type} (lib : SasLibraries Key Secret) (v : SasVerifier Key)
    (key : String) (shown : ShownSas) (macs : MacContent) : Bool → Bool → SasState
  | true, true => v.finish lib key shown macs
  | confirmed, received => .showing key shown confirmed (if received then some macs else none)

/-- The MACs of a party are on their way once it has confirmed, until they are received. -/
def macsInFlight (macs : MacContent) (confirmed received : Bool) : List SasMessage :=
  if confirmed && !received then [.mac macs] else []

namespace SasSession

variable (session : SasSession) {Key Secret : Type} (lib : SasLibraries Key Secret)
  (initiatorKey responderKey : Key) (agreed : Agreed)

/-- The code that both parties come to show. -/
def shown : ShownSas :=
  (session.initiatorVerifier initiatorKey).showSas lib agreed (lib.get_pubkey responderKey)

def initiatorMacs : MacContent :=
  sendMAC ((session.initiatorVerifier initiatorKey).mac lib (lib.get_pubkey responderKey)
    (session.shown lib initiatorKey responderKey agreed)) session.parties session.initiator

def responderMacs : MacContent :=
  sendMAC ((session.responderVerifier responderKey).mac lib (lib.get_pubkey initiatorKey)
    (session.shown lib initiatorKey responderKey agreed)) session.parties.swap session.responder

/-- The initiator from the time the code is shown. -/
def initiatorState (confirmed received : Bool) : SasState :=
  .fromCode lib (session.initiatorVerifier initiatorKey) (lib.get_pubkey responderKey)
    (session.shown lib initiatorKey responderKey agreed)
    (session.responderMacs lib initiatorKey responderKey agreed) confirmed received

def responderState (confirmed received : Bool) : SasState :=
  .fromCode lib (session.responderVerifier responderKey) (lib.get_pubkey initiatorKey)
    (session.shown lib initiatorKey responderKey agreed)
    (session.initiatorMacs lib initiatorKey responderKey agreed) confirmed received

def responderCommitment : String :=
  (session.responderVerifier responderKey).commitment lib (lib.get_pubkey responderKey)

/-- The states that a run goes through. -/
inductive Stage (hash : String) : SasRun → Prop
  | begun : Stage hash ⟨.waitingForAccept, .started, [], []⟩
  | accepted : Stage hash ⟨.waitingForAccept, .waitingForKey agreed none,
      [.accept ⟨agreed.keyAgreement, hash, agreed.macMethod, agreed.sasMethods,
        session.responderCommitment lib responderKey⟩], []⟩
  | keySent : Stage hash
      ⟨.waitingForKey agreed (some (session.responderCommitment lib responderKey)),
        .waitingForKey agreed none, [], [.key (lib.get_pubkey initiatorKey)]⟩
  | keyAnswered (confirmed : Bool) : Stage hash
      ⟨.waitingForKey agreed (some (session.responderCommitment lib responderKey)),
        session.responderState lib initiatorKey responderKey agreed confirmed false,
        .key (lib.get_pubkey responderKey) :: macsInFlight
          (session.responderMacs lib initiatorKey responderKey agreed) confirmed false, []⟩
  | showing (confirmed received confirmed' received' : Bool)
      (hreceived : received = true → confirmed' = true)
      (hreceived' : received' = true → confirmed = true) : Stage hash
      ⟨session.initiatorState lib initiatorKey responderKey agreed confirmed received,
        session.responderState lib initiatorKey responderKey agreed confirmed' received',
        macsInFlight (session.responderMacs lib initiatorKey responderKey agreed) confirmed' received,
        macsInFlight (session.initiatorMacs lib initiatorKey responderKey agreed) confirmed
          received'⟩

/-- The runs of the two parties. -/
def system : System SasRun SasStep :=
  sasSystem lib (session.initiatorVerifier initiatorKey) (session.responderVerifier responderKey)

end SasSession

section Step

variable {Key Secret : Type} {lib : SasLibraries Key Secret} {initiator responder : SasVerifier Key}
  {s : SasRun} {state : SasState} {sent rest : List SasMessage} {message : SasMessage}

theorem sasSystem_respond (hs : s.responder = .started)
    (h : responder.respond lib = (state, sent)) :
    (sasSystem lib initiator responder).step s .respond =
      some { s with responder := state, toInitiator := s.toInitiator ++ sent } := by
  simp only [sasSystem, hs, h]

theorem sasSystem_deliverToInitiator (hs : s.toInitiator = message :: rest)
    (h : initiator.receive lib s.initiator message = (state, sent)) :
    (sasSystem lib initiator responder).step s .deliverToInitiator = some { s with
      initiator := state, toInitiator := rest, toResponder := s.toResponder ++ sent } := by
  simp only [sasSystem, hs, h]

theorem sasSystem_deliverToResponder (hs : s.toResponder = message :: rest)
    (h : responder.receive lib s.responder message = (state, sent)) :
    (sasSystem lib initiator responder).step s .deliverToResponder = some { s with
      responder := state, toResponder := rest, toInitiator := s.toInitiator ++ sent } := by
  simp only [sasSystem, hs, h]

theorem sasSystem_respond_none (hs : s.responder ≠ .started) :
    (sasSystem lib initiator responder).step s .respond = none := by
  show (match s.responder with
    | .started => _
    | _ => none) = none
  split
  next hstarted => exact absurd hstarted hs
  · rfl

end Step

section FromCode

variable {Key Secret : Type} {lib : SasLibraries Key Secret} {v : SasVerifier Key} {key : String}
  {shown : ShownSas} {macs : MacContent}

/-- A check of the MACs ends a verification, one way or the other. -/
theorem SasVerifier.finish_cases (lib : SasLibraries Key Secret) (v : SasVerifier Key)
    (key : String) (shown : ShownSas) (content : MacContent) :
    (∃ verifiedDevices, v.finish lib key shown content = .verified shown verifiedDevices) ∨
      ∃ e, v.finish lib key shown content = .failed e := by
  rw [SasVerifier.finish]
  split
  · exact .inl ⟨_, rfl⟩
  · exact .inr ⟨_, rfl⟩

/-- A party confirms once. -/
theorem SasState.confirm_fromCode (confirmed received : Bool) :
    v.confirm lib (.fromCode lib v key shown macs confirmed received) =
      if confirmed then none
      else some (.fromCode lib v key shown macs true received,
        [.mac (sendMAC (v.mac lib key shown) v.parties v.own)]) := by
  cases confirmed with
  | false =>
    cases received with
    | false => rfl
    | true => rfl
  | true =>
    cases received with
    | false => rfl
    | true =>
      show v.confirm lib (v.finish lib key shown macs) = none
      obtain ⟨devices, hfinish⟩ | ⟨e, hfinish⟩ :=
        SasVerifier.finish_cases lib v key shown macs
      · rw [hfinish]
        rfl
      · rw [hfinish]
        rfl

/-- The MACs are taken in, and nothing is sent. -/
theorem SasState.receive_fromCode (confirmed : Bool) :
    v.receive lib (.fromCode lib v key shown macs confirmed false) (.mac macs) =
      (.fromCode lib v key shown macs confirmed true, []) := by
  cases confirmed with
  | false => rfl
  | true => rfl

theorem SasState.fromCode_ne_started (confirmed received : Bool) :
    SasState.fromCode lib v key shown macs confirmed received ≠ .started := by
  intro hstarted
  cases confirmed with
  | false => exact nomatch hstarted
  | true =>
    cases received with
    | false => exact nomatch hstarted
    | true =>
      obtain ⟨devices, hfinish⟩ | ⟨e, hfinish⟩ :=
        SasVerifier.finish_cases lib v key shown macs
      · exact nomatch hfinish.symm.trans hstarted
      · exact nomatch hfinish.symm.trans hstarted

end FromCode

namespace SasSession

variable {session : SasSession} {Key Secret : Type} {lib : SasLibraries Key Secret}
  {initiatorKey responderKey : Key} {agreed : Agreed} {hash : String}

theorem respond_eq (hchoose : chooseMethods session.startContent = some (agreed, hash)) :
    (session.responderVerifier responderKey).respond lib =
      (.waitingForKey agreed none,
        [.accept ⟨agreed.keyAgreement, hash, agreed.macMethod, agreed.sasMethods,
          session.responderCommitment lib responderKey⟩]) := by
  have hstart : (session.responderVerifier responderKey).startContent = session.startContent := rfl
  rw [SasVerifier.respond, hstart, hchoose]
  rfl

theorem receive_accept (hchoose : chooseMethods session.startContent = some (agreed, hash)) :
    (session.initiatorVerifier initiatorKey).receive lib .waitingForAccept
        (.accept ⟨agreed.keyAgreement, hash, agreed.macMethod, agreed.sasMethods,
          session.responderCommitment lib responderKey⟩) =
      (.waitingForKey agreed (some (session.responderCommitment lib responderKey)),
        [.key (lib.get_pubkey initiatorKey)]) := by
  rw [SasVerifier.receive, AcceptContent.agreed_of_chooseMethods hchoose]
  rfl

/-- The responder shows the code that the initiator is going to show. -/
theorem receive_key_responder :
    (session.responderVerifier responderKey).receive lib (.waitingForKey agreed none)
        (.key (lib.get_pubkey initiatorKey)) =
      (session.responderState lib initiatorKey responderKey agreed false false,
        [.key (lib.get_pubkey responderKey)]) := by
  rw [SasVerifier.receive, showSas_eq]
  rfl

/-- The initiator finds the commitment to be that of the key. -/
theorem receive_key_initiator :
    (session.initiatorVerifier initiatorKey).receive lib
        (.waitingForKey agreed (some (session.responderCommitment lib responderKey)))
        (.key (lib.get_pubkey responderKey)) =
      (session.initiatorState lib initiatorKey responderKey agreed false false, []) := by
  rw [SasVerifier.receive, commitment_eq session lib initiatorKey responderKey]
  exact if_neg (not_not.2 rfl)

/-- **What a step makes of a stage.** -/
theorem Stage.step (hchoose : chooseMethods session.startContent = some (agreed, hash))
    {s t : SasRun} {e : SasStep}
    (h : session.Stage lib initiatorKey responderKey agreed hash s)
    (hstep : (session.system lib initiatorKey responderKey).step s e = some t) :
    session.Stage lib initiatorKey responderKey agreed hash t := by
  cases h with
  | begun =>
    cases e with
    | respond =>
      obtain rfl := Option.some.inj
        ((sasSystem_respond rfl (respond_eq hchoose)).symm.trans hstep)
      exact .accepted
    | deliverToInitiator => exact nomatch hstep
    | deliverToResponder => exact nomatch hstep
    | confirmInitiator => exact nomatch hstep
    | confirmResponder => exact nomatch hstep
  | accepted =>
    cases e with
    | deliverToInitiator =>
      obtain rfl := Option.some.inj
        ((sasSystem_deliverToInitiator rfl (receive_accept hchoose)).symm.trans hstep)
      exact .keySent
    | respond => exact nomatch hstep
    | deliverToResponder => exact nomatch hstep
    | confirmInitiator => exact nomatch hstep
    | confirmResponder => exact nomatch hstep
  | keySent =>
    cases e with
    | deliverToResponder =>
      obtain rfl := Option.some.inj
        ((sasSystem_deliverToResponder rfl receive_key_responder).symm.trans hstep)
      exact .keyAnswered false
    | respond => exact nomatch hstep
    | deliverToInitiator => exact nomatch hstep
    | confirmInitiator => exact nomatch hstep
    | confirmResponder => exact nomatch hstep
  | keyAnswered confirmed =>
    cases e with
    | respond =>
      cases confirmed with
      | false => exact nomatch hstep
      | true => exact nomatch hstep
    | deliverToInitiator =>
      obtain rfl := Option.some.inj
        ((sasSystem_deliverToInitiator rfl receive_key_initiator).symm.trans hstep)
      exact .showing false false confirmed false (nomatch ·) (nomatch ·)
    | deliverToResponder => exact nomatch hstep
    | confirmInitiator => exact nomatch hstep
    | confirmResponder =>
      obtain ⟨⟨state, sent⟩, hconfirm, rfl⟩ := Option.map_eq_some_iff.1 hstep
      cases confirmed with
      | true => exact nomatch hconfirm
      | false =>
        obtain ⟨rfl, rfl⟩ := Prod.mk.inj (Option.some.inj hconfirm)
        exact .keyAnswered true
  | showing confirmed received confirmed' received' hreceived hreceived' =>
    cases e with
    | respond =>
      have hnone := (sasSystem_respond_none
        (SasState.fromCode_ne_started confirmed' received')).symm.trans hstep
      exact nomatch hnone
    | deliverToInitiator =>
      -- something is on its way if the responder has confirmed, and it has not been received
      cases confirmed' with
      | false => exact nomatch hstep
      | true =>
        cases received with
        | true => exact nomatch hstep
        | false =>
          obtain rfl := Option.some.inj ((sasSystem_deliverToInitiator rfl
            (SasState.receive_fromCode confirmed)).symm.trans hstep)
          rw [List.append_nil]
          exact .showing confirmed true true received' (fun _ => rfl) hreceived'
    | deliverToResponder =>
      cases confirmed with
      | false => exact nomatch hstep
      | true =>
        cases received' with
        | true => exact nomatch hstep
        | false =>
          obtain rfl := Option.some.inj ((sasSystem_deliverToResponder rfl
            (SasState.receive_fromCode confirmed')).symm.trans hstep)
          rw [List.append_nil]
          exact .showing true received confirmed' true hreceived fun _ => rfl
    | confirmInitiator =>
      obtain ⟨⟨state, sent⟩, hconfirm, rfl⟩ := Option.map_eq_some_iff.1 hstep
      rw [initiatorState, SasState.confirm_fromCode] at hconfirm
      cases confirmed with
      | true => exact nomatch hconfirm
      | false =>
        -- nothing has been sent before
        cases received' with
        | true => exact nomatch hreceived' rfl
        | false =>
          obtain ⟨rfl, rfl⟩ := Prod.mk.inj (Option.some.inj hconfirm)
          exact .showing true received confirmed' false hreceived (nomatch ·)
    | confirmResponder =>
      obtain ⟨⟨state, sent⟩, hconfirm, rfl⟩ := Option.map_eq_some_iff.1 hstep
      rw [responderState, SasState.confirm_fromCode] at hconfirm
      cases confirmed' with
      | true => exact nomatch hconfirm
      | false =>
        cases received with
        | true => exact nomatch hreceived rfl
        | false =>
          obtain ⟨rfl, rfl⟩ := Prod.mk.inj (Option.some.inj hconfirm)
          exact .showing confirmed false true received' (nomatch ·) hreceived'

end SasSession

/-- What is to hold in every state of a run: the parties show the same code, made from the same
string and with the same methods, nothing that is checked is refused, and when nothing more can
happen each has verified the other. -/
structure Agreement (sys : System SasRun SasStep) (s : SasRun) : Prop where
  code : ∀ shown shown', s.initiator.shown = some shown → s.responder.shown = some shown' →
    shown = shown'
  accepted : ∀ e, s.initiator ≠ .failed e ∧ s.responder ≠ .failed e
  complete : (∀ e, sys.step s e = none) → ∃ shown devices devices',
    s.initiator = .verified shown devices ∧ s.responder = .verified shown devices'

theorem SasState.shown_fromCode {Key Secret : Type} {lib : SasLibraries Key Secret}
    {v : SasVerifier Key} {key : String} {shown shown' : ShownSas} {macs : MacContent}
    {confirmed received : Bool}
    (h : (SasState.fromCode lib v key shown macs confirmed received).shown = some shown') :
    shown = shown' := by
  cases confirmed with
  | false => exact Option.some.inj h
  | true =>
    cases received with
    | false => exact Option.some.inj h
    | true =>
      change (v.finish lib key shown macs).shown = some shown' at h
      obtain ⟨devices, hfinish⟩ | ⟨e, hfinish⟩ :=
        SasVerifier.finish_cases lib v key shown macs
      · rw [hfinish] at h
        exact Option.some.inj h
      · rw [hfinish] at h
        exact nomatch h

namespace SasSession

variable (session : SasSession) {Key Secret : Type} (lib : SasLibraries Key Secret)
  (initiatorKey responderKey : Key)

variable {lib initiatorKey responderKey} in

/-- Every run goes through the stages. -/
theorem stage_of_reachable {agreed : Agreed} {hash : String}
    (hchoose : chooseMethods session.startContent = some (agreed, hash)) {s : SasRun}
    (hs : (session.system lib initiatorKey responderKey).Reachable s) :
    session.Stage lib initiatorKey responderKey agreed hash s := by
  refine hs.invariant ?_ fun s e t h hstep => h.step hchoose hstep
  show session.Stage lib initiatorKey responderKey agreed hash
    ⟨SasVerifier.begin _, SasVerifier.begin _, [], []⟩
  rw [SasVerifier.begin, SasVerifier.begin, initiatedByMe_initiator, initiatedByMe_responder]
  exact .begun

/-- **The code.** In every run the two parties show the same code, made from the same string and
with the same methods. -/
theorem code_eq {s : SasRun} (hs : (session.system lib initiatorKey responderKey).Reachable s)
    {shown shown' : ShownSas} (h : s.initiator.shown = some shown)
    (h' : s.responder.shown = some shown') : shown = shown' := by
  obtain ⟨⟨agreed, hash⟩, hchoose⟩ := Option.isSome_iff_exists.1 session.offers
  cases session.stage_of_reachable hchoose hs with
  | begun => exact nomatch h
  | accepted => exact nomatch h
  | keySent => exact nomatch h
  | keyAnswered confirmed => exact nomatch h
  | showing confirmed received confirmed' received' _ _ =>
    exact (SasState.shown_fromCode h).symm.trans (SasState.shown_fromCode h')

/-- Both parties come to check what the other has sent. -/
theorem exists_reachable_showing : ∃ agreed,
    (session.system lib initiatorKey responderKey).Reachable
      ⟨session.initiatorState lib initiatorKey responderKey agreed true true,
        session.responderState lib initiatorKey responderKey agreed true true, [], []⟩ := by
  obtain ⟨⟨agreed, hash⟩, hchoose⟩ := Option.isSome_iff_exists.1 session.offers
  have hinit : (session.system lib initiatorKey responderKey).init =
      ⟨.waitingForAccept, .started, [], []⟩ := by
    show SasRun.mk (SasVerifier.begin _) (SasVerifier.begin _) [] [] = _
    rw [SasVerifier.begin, SasVerifier.begin, initiatedByMe_initiator, initiatedByMe_responder]
    rfl
  have hstart : (session.system lib initiatorKey responderKey).Trace []
      ⟨.waitingForAccept, .started, [], []⟩ := hinit ▸ .start
  have haccepted := hstart.snoc (sasSystem_respond rfl (respond_eq hchoose))
  have hkey := haccepted.snoc (sasSystem_deliverToInitiator rfl (receive_accept hchoose))
  have hanswered := hkey.snoc (sasSystem_deliverToResponder rfl receive_key_responder)
  have hshowing := hanswered.snoc (sasSystem_deliverToInitiator rfl receive_key_initiator)
  have hconfirmed := (hshowing.snoc (e := .confirmInitiator) rfl).snoc (e := .confirmResponder) rfl
  have hinitiator := hconfirmed.snoc
    (sasSystem_deliverToInitiator rfl (SasState.receive_fromCode true))
  exact ⟨agreed, _, hinitiator.snoc
    (sasSystem_deliverToResponder rfl (SasState.receive_fromCode true))⟩

end SasSession

/-! ## When the parties verify each other -/

/-- The input of a MAC, or what there is instead of it. -/
def macText : Option String → String
  | some key => "+" ++ key
  | none => "-"

theorem macText_inj {key key' : Option String} (h : macText key = macText key') : key = key' := by
  have hlist := congrArg String.toList h
  cases key with
  | none =>
    cases key' with
    | none => rfl
    | some key' => simp [macText] at hlist
  | some key =>
    cases key' with
    | none => simp [macText] at hlist
    | some key' =>
      rw [macText, macText, String.toList_append, String.toList_append] at hlist
      rw [String.toList_inj.1 (List.append_cancel_left hlist)]

/-- A library whose MACs tell everything apart. -/
def plainLibraries : SasLibraries Unit Unit where
  get_pubkey _ := "key"
  set_their_key _ _ := ()
  generate_bytes _ _ n := List.replicate n 0
  calculate_mac _ input info := macText input ++ info
  calculate_mac_long_kdf _ input info := macText input ++ info
  sha256 input := input
  stringify content := content.from_device
  shared _ _ := rfl

theorem plainLibraries_inj (method info : String) (key key' : Option String)
    (h : calculateMAC plainLibraries () method key info =
      calculateMAC plainLibraries () method key' info) : key = key' := by
  have htext : macText key ++ info = macText key' ++ info := by
    unfold calculateMAC at h
    split at h
    · exact h
    · exact h
  have hlist := congrArg String.toList htext
  rw [String.toList_append, String.toList_append] at hlist
  exact macText_inj (String.toList_inj.1 (List.append_cancel_right hlist))

namespace SasSession

variable {session : SasSession} {Key Secret : Type} {lib : SasLibraries Key Secret}
  {initiatorKey responderKey : Key} {agreed : Agreed} {shown : ShownSas}

theorem mac_eq : (session.responderVerifier responderKey).mac lib (lib.get_pubkey initiatorKey) shown =
    (session.initiatorVerifier initiatorKey).mac lib (lib.get_pubkey responderKey) shown := by
  have hsecret : lib.set_their_key responderKey (lib.get_pubkey initiatorKey) =
      lib.set_their_key initiatorKey (lib.get_pubkey responderKey) :=
    lib.shared responderKey initiatorKey
  show calculateMAC lib (lib.set_their_key responderKey (lib.get_pubkey initiatorKey)) _ = _
  rw [hsecret]
  rfl

/-- The initiator ends with the check of the MACs of the responder. -/
theorem initiatorState_eq (session : SasSession) (lib : SasLibraries Key Secret)
    (initiatorKey responderKey : Key) (agreed : Agreed) :
    session.initiatorState lib initiatorKey responderKey agreed true true =
      match checkMACs ((session.initiatorVerifier initiatorKey).mac lib
          (lib.get_pubkey responderKey) (session.shown lib initiatorKey responderKey agreed))
        session.parties.swap.swap session.initiator.otherKeys
        (sendMAC ((session.initiatorVerifier initiatorKey).mac lib
          (lib.get_pubkey responderKey) (session.shown lib initiatorKey responderKey agreed))
          session.parties.swap session.responder) with
      | .ok verifiedDevices =>
        .verified (session.shown lib initiatorKey responderKey agreed) verifiedDevices
      | .error e => .failed e := by
  show SasVerifier.finish _ _ _ _ (session.responderMacs lib initiatorKey responderKey agreed) = _
  rw [responderMacs, mac_eq]
  rfl

theorem responderState_eq (session : SasSession) (lib : SasLibraries Key Secret)
    (initiatorKey responderKey : Key) (agreed : Agreed) :
    session.responderState lib initiatorKey responderKey agreed true true =
      match checkMACs ((session.initiatorVerifier initiatorKey).mac lib
          (lib.get_pubkey responderKey) (session.shown lib initiatorKey responderKey agreed))
        session.parties.swap session.responder.otherKeys
        (sendMAC ((session.initiatorVerifier initiatorKey).mac lib
          (lib.get_pubkey responderKey) (session.shown lib initiatorKey responderKey agreed))
          session.parties session.initiator) with
      | .ok verifiedDevices =>
        .verified (session.shown lib initiatorKey responderKey agreed) verifiedDevices
      | .error e => .failed e := by
  show SasVerifier.finish _ _ _ _ (session.initiatorMacs lib initiatorKey responderKey agreed) = _
  rw [SasVerifier.finish, mac_eq]
  rfl

end SasSession

theorem SasState.fromCode_ne_failed {Key Secret : Type} {lib : SasLibraries Key Secret}
    {v : SasVerifier Key} {key : String} {shown : ShownSas} {macs : MacContent}
    {devices : List VerifiedDevice} (h : v.finish lib key shown macs = .verified shown devices)
    (confirmed received : Bool) (e : String) :
    SasState.fromCode lib v key shown macs confirmed received ≠ .failed e := by
  intro hfailed
  cases confirmed with
  | false => exact nomatch hfailed
  | true =>
    cases received with
    | false => exact nomatch hfailed
    | true => exact nomatch h.symm.trans hfailed

namespace SasSession

variable {session : SasSession} {Key Secret : Type} {lib : SasLibraries Key Secret}
  {initiatorKey responderKey : Key} {agreed : Agreed} {hash : String}

/-- As long as one party has not verified the other, something can happen. -/
theorem Stage.complete (hchoose : chooseMethods session.startContent = some (agreed, hash))
    {s : SasRun} (h : session.Stage lib initiatorKey responderKey agreed hash s)
    (hnone : ∀ e, (session.system lib initiatorKey responderKey).step s e = none) :
    s.initiator = session.initiatorState lib initiatorKey responderKey agreed true true ∧
      s.responder = session.responderState lib initiatorKey responderKey agreed true true := by
  cases h with
  | begun =>
    have hstep := (sasSystem_respond rfl (respond_eq hchoose)).symm.trans (hnone .respond)
    exact nomatch hstep
  | accepted =>
    have hstep := (sasSystem_deliverToInitiator rfl (receive_accept hchoose)).symm.trans
      (hnone .deliverToInitiator)
    exact nomatch hstep
  | keySent =>
    have hstep := (sasSystem_deliverToResponder rfl receive_key_responder).symm.trans
      (hnone .deliverToResponder)
    exact nomatch hstep
  | keyAnswered confirmed =>
    have hstep := (sasSystem_deliverToInitiator rfl receive_key_initiator).symm.trans
      (hnone .deliverToInitiator)
    exact nomatch hstep
  | showing confirmed received confirmed' received' _ _ =>
    cases confirmed with
    | false =>
      have hconfirm := Option.map_eq_none_iff.1 (hnone .confirmInitiator)
      rw [initiatorState, SasState.confirm_fromCode] at hconfirm
      exact nomatch hconfirm
    | true =>
      cases confirmed' with
      | false =>
        have hconfirm := Option.map_eq_none_iff.1 (hnone .confirmResponder)
        rw [responderState, SasState.confirm_fromCode] at hconfirm
        exact nomatch hconfirm
      | true =>
        cases received with
        | false =>
          have hstep := (sasSystem_deliverToInitiator rfl
            (SasState.receive_fromCode true)).symm.trans (hnone .deliverToInitiator)
          exact nomatch hstep
        | true =>
          cases received' with
          | false =>
            have hstep := (sasSystem_deliverToResponder rfl
              (SasState.receive_fromCode true)).symm.trans (hnone .deliverToResponder)
            exact nomatch hstep
          | true => exact ⟨rfl, rfl⟩

variable (session lib initiatorKey responderKey) in

/-- The parties agree in every run if each has the keys of the other. -/
theorem agreement (hinitiator : session.initiator.KeysFound session.responder.otherKeys)
    (hresponder : session.responder.KeysFound session.initiator.otherKeys) {s : SasRun}
    (hs : (session.system lib initiatorKey responderKey).Reachable s) :
    Agreement (session.system lib initiatorKey responderKey) s := by
  obtain ⟨⟨agreed, hash⟩, hchoose⟩ := Option.isSome_iff_exists.1 session.offers
  have hstage := session.stage_of_reachable hchoose hs
  have hverified : ∃ devices,
      session.initiatorState lib initiatorKey responderKey agreed true true =
        .verified (session.shown lib initiatorKey responderKey agreed) devices := by
    obtain ⟨devices, hcheck⟩ := hresponder.checkMACs session.parties.swap
    exact ⟨devices, by rw [initiatorState_eq, hcheck]⟩
  have hverified' : ∃ devices,
      session.responderState lib initiatorKey responderKey agreed true true =
        .verified (session.shown lib initiatorKey responderKey agreed) devices := by
    obtain ⟨devices, hcheck⟩ := hinitiator.checkMACs session.parties
    exact ⟨devices, by rw [responderState_eq, hcheck]⟩
  obtain ⟨devices, hdevices⟩ := hverified
  obtain ⟨devices', hdevices'⟩ := hverified'
  refine ⟨fun shown shown' => session.code_eq lib initiatorKey responderKey hs, fun e => ?_,
    fun hnone => ?_⟩
  · cases hstage with
    | begun => exact ⟨nofun, nofun⟩
    | accepted => exact ⟨nofun, nofun⟩
    | keySent => exact ⟨nofun, nofun⟩
    | keyAnswered confirmed =>
      exact ⟨nofun, SasState.fromCode_ne_failed hdevices' confirmed false e⟩
    | showing confirmed received confirmed' received' _ _ =>
      exact ⟨SasState.fromCode_ne_failed hdevices confirmed received e,
        SasState.fromCode_ne_failed hdevices' confirmed' received' e⟩
  · obtain ⟨h, h'⟩ := hstage.complete hchoose hnone
    exact ⟨_, devices, devices', h.trans hdevices, h'.trans hdevices'⟩

/-- If the parties agree with plain libraries, each of them has the keys of the other. -/
theorem keysFound_of_agreement (h : ∀ s : SasRun, (session.system plainLibraries () ()).Reachable s →
      Agreement (session.system plainLibraries () ()) s) :
    session.initiator.KeysFound session.responder.otherKeys ∧
      session.responder.KeysFound session.initiator.otherKeys := by
  -- a party that ends with an error has not found the keys
  obtain ⟨agreed, hreach⟩ := session.exists_reachable_showing plainLibraries () ()
  have haccepted := (h _ hreach).accepted
  constructor
  · cases hcheck : checkMACs ((session.initiatorVerifier ()).mac plainLibraries
        (plainLibraries.get_pubkey ()) (session.shown plainLibraries () () agreed))
      session.parties.swap session.responder.otherKeys
      (sendMAC ((session.initiatorVerifier ()).mac plainLibraries
        (plainLibraries.get_pubkey ()) (session.shown plainLibraries () () agreed))
        session.parties session.initiator) with
    | ok devices =>
      exact SasParty.keysFound_of_checkMACs (fun info => plainLibraries_inj _ info) hcheck
    | error e =>
      exact absurd (by rw [responderState_eq, hcheck]) (haccepted e).2
  · cases hcheck : checkMACs ((session.initiatorVerifier ()).mac plainLibraries
        (plainLibraries.get_pubkey ()) (session.shown plainLibraries () () agreed))
      session.parties.swap.swap session.initiator.otherKeys
      (sendMAC ((session.initiatorVerifier ()).mac plainLibraries
        (plainLibraries.get_pubkey ()) (session.shown plainLibraries () () agreed))
        session.parties.swap session.responder) with
    | ok devices =>
      exact SasParty.keysFound_of_checkMACs (fun info => plainLibraries_inj _ info) hcheck
    | error e =>
      exact absurd (by rw [initiatorState_eq, hcheck]) (haccepted e).1

end SasSession

/-! ## Ids with a colon -/

/-- One device with its key, and no master key. -/
def oneDevice (deviceId ed25519Key : String) (h : ed25519Key ≠ "") : UserKeys where
  devices := JsObject.empty.set deviceId
    { DeviceInfo.new with keys := JsObject.empty.set ("ed25519:" ++ deviceId) ed25519Key }
  masterKey := none
  hasFingerprint d dev hdev := by
    rw [JsObject.get_set] at hdev
    split at hdev
    next hd =>
      obtain rfl := Option.some.inj hdev
      rw [hd, DeviceInfo.HasFingerprint, DeviceInfo.getFingerprint, JsObject.get_set_self]
      simp only [truthy, Option.filter_some, h, ne_eq, not_false_eq_true, decide_true, if_true,
        Option.isSome_some]
    · exact nomatch hdev

/-- Two parties that have each other's device, and no cross-signing keys. -/
def sessionOf (deviceId : String) (h : "PHONE" ≠ deviceId) : SasSession where
  initiator := ⟨"@alice:hs", "PHONE", "alice key", none, oneDevice deviceId "bob key" (by decide)⟩
  responder := ⟨"@alice:hs", deviceId, "bob key", none, oneDevice "PHONE" "alice key" (by decide)⟩
  startContent :=
    ⟨"m.sas.v1", "PHONE", KEY_AGREEMENT_LIST, HASHES_LIST, MAC_LIST, SAS_LIST, "transaction"⟩
  hasStartEvent := false
  fromDevice := rfl
  distinct heq := h (congrArg Prod.snd heq)
  offers := by decide

namespace SasSession

end SasSession

end MatrixSdk.Crypto
