/-
Which rooms are encrypted, and how: `setRoomEncryption`, `onCryptoEvent` and `encryptEvent` of
`crypto/index.js`, and `crypto/RoomList.js`.

The config of a room is the content of an `m.room.encryption` event. It is kept in a list, in
memory and in the crypto store, and an encryptor is made from it, which is only in memory. The room
list outlives the client, and the encryptors are made again from the events of the room state.

The config that a room has got stays ([`RoomEncryption.Inv`]); whether it is one that can be used,
and is used, depends on the events that come ([`ConfigKept`]).

Contents are compared as JSON texts, so that equal contents are those with equal texts.
-/
import MatrixSdk.Lib.System
import MatrixSdk.Lib.JsObject

set_option autoImplicit false

namespace MatrixSdk.Crypto

open MatrixSdk.Lib

/-- `ENCRYPTION_CLASSES`: what `olm.js` and `megolm.js` register. -/
def encryptionClasses : List String :=
  ["m.olm.v1.curve25519-aes-sha2", "m.megolm.v1.aes-sha2"]

/-- The room state, as far as it is about encryption, the room list, the encryptors, each by the
config it was made from, and the crypto store. What has been set since the client has started, and
what has ever been stored, is recorded. -/
structure RoomEncryption (Content : Type) where
  /-- The content of the current `m.room.encryption` event. -/
  currentEvent : String → Option Content
  /-- It has been processed since the client has started. -/
  processed : String → Bool
  roomList : JsObject String Content
  roomEncryptors : String → Option Content
  /-- Transactions in progress. -/
  storing : List (String × Content)
  store : JsObject String Content
  configured : List (String × Content)
  stored : List (String × Content)

section Model

variable {Content : Type} [DecidableEq Content]

namespace RoomEncryption

def empty : RoomEncryption Content :=
  ⟨fun _ => none, fun _ => false, .empty, fun _ => none, [], .empty, [], []⟩

/-! ## The functions of the source -/

/-- `RoomList.prototype.setRoomEncryption`: in memory first, and then in the store. -/
def setRoomInfo (s : RoomEncryption Content) (roomId : String) (roomInfo : Content) :
    RoomEncryption Content :=
  { s with
    roomList := s.roomList.set roomId roomInfo
    storing := s.storing ++ [(roomId, roomInfo)]
    configured := s.configured ++ [(roomId, roomInfo)] }

variable (algorithm : Content → Option String)

/-- `Crypto.prototype.setRoomEncryption`, up to the first `await`. The algorithm of a config is the
name of a property, or nothing if there is none. -/
def setRoomEncryption (s : RoomEncryption Content) (roomId : String) (config : Content) :
    Except String Unit × RoomEncryption Content :=
  match algorithm config with
  -- "ignore crypto events with no algorithm defined"
  | none => (.ok (), s)
  | some alg =>
    let existingConfig := s.roomList.get roomId
    -- "we should bail out as room encryption can't be changed once set"
    if existingConfig.any (· ≠ config) then (.ok (), s)
    else if (s.roomEncryptors roomId).isSome then (.ok (), s)
    else
      let s := if existingConfig.isNone then s.setRoomInfo roomId config else s
      if alg ∈ encryptionClasses then
        (.ok (), { s with
          roomEncryptors := Function.update s.roomEncryptors roomId (some config) })
      else (.error ("Unable to encrypt with " ++ alg), s)

/-- `onCryptoEvent`: an exception is logged. -/
def onCryptoEvent (s : RoomEncryption Content) (roomId : String) (content : Content) :
    RoomEncryption Content :=
  let processed :=
    if s.currentEvent roomId = some content then Function.update s.processed roomId true
    else s.processed
  { (s.setRoomEncryption algorithm roomId content).2 with processed := processed }

/-- `encryptEvent`: the config that the event is encrypted with. -/
def encryptEvent (s : RoomEncryption Content) (roomId : String) : Except String Content :=
  match s.roomEncryptors roomId with
  | none =>
    .error ("Room was previously configured to use encryption, but is no longer. " ++
      "Perhaps the homeserver is hiding the configuration event.")
  | some config => .ok config

end RoomEncryption

/-! ## The system -/

inductive RoomEncryptionStep (Content : Type)
  /-- There is a new event in the room state. -/
  | newEvent (roomId : String) (content : Content)
  | onCryptoEvent (roomId : String) (content : Content)
  | setRoomEncryption (roomId : String) (config : Content)
  /-- A transaction is over. -/
  | stored (i : ℕ)
  | storeFails (i : ℕ)
  /-- The room list is loaded from the store. -/
  | restart

/-- The encryption of the rooms of a user. -/
def roomEncryptionSystem (algorithm : Content → Option String) :
    System (RoomEncryption Content) (RoomEncryptionStep Content) where
  init := .empty
  step s
    | .newEvent roomId content =>
      some { s with
        currentEvent := Function.update s.currentEvent roomId (some content)
        processed := Function.update s.processed roomId false }
    | .onCryptoEvent roomId content => some (s.onCryptoEvent algorithm roomId content)
    | .setRoomEncryption roomId config => some (s.setRoomEncryption algorithm roomId config).2
    | .stored i =>
      match s.storing[i]? with
      | none => none
      | some (roomId, roomInfo) =>
        some { s with
          store := s.store.set roomId roomInfo
          storing := s.storing.eraseIdx i
          stored := s.stored ++ [(roomId, roomInfo)] }
    | .storeFails i => some { s with storing := s.storing.eraseIdx i }
    | .restart =>
      some { s with
        processed := fun _ => false
        roomList := s.store
        roomEncryptors := fun _ => none
        storing := []
        configured := [] }

/-! ## The invariant -/

namespace RoomEncryption

/-- What is set stays in the room list, and what is stored stays in the store. Everything else there
is of a config agrees with the room list. -/
structure Inv (s : RoomEncryption Content) : Prop where
  configured : ∀ roomId config, (roomId, config) ∈ s.configured →
    s.roomList.get roomId = some config
  stored : ∀ roomId config, (roomId, config) ∈ s.stored → s.store.get roomId = some config
  store : ∀ roomId config, s.store.get roomId = some config →
    s.roomList.get roomId = some config
  storing : ∀ roomId config, (roomId, config) ∈ s.storing → s.roomList.get roomId = some config
  encryptors : ∀ roomId config, s.roomEncryptors roomId = some config →
    s.roomList.get roomId = some config

omit [DecidableEq Content] in
theorem Inv.empty : (empty : RoomEncryption Content).Inv :=
  ⟨fun _ _ h => absurd h List.not_mem_nil, fun _ _ h => absurd h List.not_mem_nil,
    fun _ _ h => (nomatch h), fun _ _ h => absurd h List.not_mem_nil, fun _ _ h => (nomatch h)⟩

omit [DecidableEq Content] in
/-- A room gets a config that has none. -/
theorem Inv.setRoomInfo {s : RoomEncryption Content} (h : s.Inv) {roomId : String}
    (hnone : s.roomList.get roomId = none) (roomInfo : Content) :
    (s.setRoomInfo roomId roomInfo).Inv := by
  have hkeep : ∀ roomId' config, s.roomList.get roomId' = some config →
      (s.roomList.set roomId roomInfo).get roomId' = some config := by
    intro roomId' config hget
    by_cases hroom : roomId' = roomId
    · rw [hroom, hnone] at hget
      exact nomatch hget
    · rw [JsObject.get_set_ne hroom, hget]
  have hnew : ∀ (known : List (String × Content)),
      (∀ roomId' config, (roomId', config) ∈ known → s.roomList.get roomId' = some config) →
      ∀ roomId' config, (roomId', config) ∈ known ++ [(roomId, roomInfo)] →
        (s.roomList.set roomId roomInfo).get roomId' = some config := by
    intro known hknown roomId' config hmem
    rcases List.mem_append.1 hmem with hold | hlast
    · exact hkeep roomId' config (hknown roomId' config hold)
    · obtain ⟨rfl, rfl⟩ := Prod.mk.inj (List.mem_singleton.1 hlast)
      exact JsObject.get_set_self ..
  exact
    { configured := hnew _ h.configured
      stored := h.stored
      store := fun roomId' config hstore => hkeep roomId' config (h.store roomId' config hstore)
      storing := hnew _ h.storing
      encryptors := fun roomId' config hget => hkeep roomId' config (h.encryptors roomId' config hget) }

variable (algorithm : Content → Option String)

/-- What `setRoomEncryption` does: nothing, for a config without algorithm, one that differs from
the one of the room, or a room that has an encryptor; or else the room has this config in the end,
and an encryptor if the algorithm is supported. -/
theorem setRoomEncryption_cases (s : RoomEncryption Content) (roomId : String) (config : Content) :
    (s.setRoomEncryption algorithm roomId config).2 = s ∧
        (algorithm config = none ∨ (∃ existing, s.roomList.get roomId = some existing ∧
          existing ≠ config) ∨ (s.roomEncryptors roomId).isSome) ∨
      ∃ alg s₁, algorithm config = some alg ∧ s.roomEncryptors roomId = none ∧
        (s.roomList.get roomId = none ∧ s₁ = s.setRoomInfo roomId config ∨
          s.roomList.get roomId = some config ∧ s₁ = s) ∧
        (s.setRoomEncryption algorithm roomId config).2 =
          if alg ∈ encryptionClasses then
            { s₁ with roomEncryptors := Function.update s₁.roomEncryptors roomId (some config) }
          else s₁ := by
  unfold setRoomEncryption
  split
  next hnone => exact .inl ⟨rfl, .inl hnone⟩
  next alg halg =>
    dsimp only
    split
    next hany =>
      obtain ⟨existing, hexisting, hne⟩ := (Option.any_eq_true _ _).1 hany
      exact .inl ⟨rfl, .inr (.inl ⟨existing, hexisting, of_decide_eq_true hne⟩)⟩
    next hsame =>
      split
      next hsome => exact .inl ⟨rfl, .inr (.inr hsome)⟩
      next hencryptor =>
        refine .inr ⟨alg, if (s.roomList.get roomId).isNone then s.setRoomInfo roomId config else s,
          halg, Option.not_isSome_iff_eq_none.1 hencryptor, ?_, ?_⟩
        · cases hget : s.roomList.get roomId with
          | none => exact .inl ⟨rfl, rfl⟩
          | some existing =>
            rw [hget, Option.any_some, decide_eq_true_eq, not_not] at hsame
            exact .inr ⟨congrArg some hsame, rfl⟩
        · split
          · rfl
          · rfl

end RoomEncryption

/-! ## What becomes of a config -/

variable (algorithm : Content → Option String)

/-- There is an encryptor for the algorithm of the config. -/
def Supported (config : Content) : Prop :=
  ∃ alg, algorithm config = some alg ∧ alg ∈ encryptionClasses

/-- A config that has been set, or stored, is that of the room; the config of a room can be used;
and after the current event of the room has been processed it is used. -/
structure ConfigKept (s : RoomEncryption Content) : Prop where
  configured : ∀ roomId config, (roomId, config) ∈ s.configured →
    s.roomList.get roomId = some config
  stored : ∀ roomId config, (roomId, config) ∈ s.stored →
    s.store.get roomId = some config ∧ s.roomList.get roomId = some config
  supported : ∀ roomId config, s.roomList.get roomId = some config → Supported algorithm config
  encryptor : ∀ roomId config, s.processed roomId = true → s.roomList.get roomId = some config →
    s.roomEncryptors roomId = some config

/-- The first config of a room, if it has an algorithm, has a supported one. -/
def RoomEncryption.Supports (s : RoomEncryption Content) (roomId : String) (config : Content) :
    Prop :=
  s.roomList.get roomId = none → ∀ alg, algorithm config = some alg → alg ∈ encryptionClasses

/-- A room that has no config gets one with a supported algorithm; and when the current event of a
room with a config and without an encryptor is processed, it has that config. -/
def SameConfig (s : RoomEncryption Content) : RoomEncryptionStep Content → Prop
  | .setRoomEncryption roomId config => s.Supports algorithm roomId config
  | .onCryptoEvent roomId content =>
    s.Supports algorithm roomId content ∧
      (s.currentEvent roomId = some content → s.roomEncryptors roomId = none →
        ∀ config, s.roomList.get roomId = some config → content = config)
  | _ => True

namespace RoomEncryption

variable {algorithm} {s : RoomEncryption Content} {s' : RoomEncryption Content}
  {e : RoomEncryptionStep Content}

theorem Inv.setRoomEncryption (h : s.Inv) (roomId : String) (config : Content) :
    (s.setRoomEncryption algorithm roomId config).2.Inv := by
  rcases s.setRoomEncryption_cases algorithm roomId config with
    ⟨heq, _⟩ | ⟨alg, s₁, _, _, hs₁, heq⟩
  · rw [heq]
    exact h
  · have h₁ : s₁.Inv ∧ s₁.roomList.get roomId = some config := by
      rcases hs₁ with ⟨hnone, rfl⟩ | ⟨hsome, rfl⟩
      · exact ⟨h.setRoomInfo hnone config, JsObject.get_set_self ..⟩
      · exact ⟨h, hsome⟩
    rw [heq]
    split
    · refine ⟨h₁.1.configured, h₁.1.stored, h₁.1.store, h₁.1.storing,
        fun roomId' config' hget => ?_⟩
      change Function.update s₁.roomEncryptors roomId (some config) roomId' = some config' at hget
      rw [Function.update_apply] at hget
      by_cases hroom : roomId' = roomId
      · rw [if_pos hroom, Option.some.injEq] at hget
        rw [hroom, ← hget]
        exact h₁.2
      · rw [if_neg hroom] at hget
        exact h₁.1.encryptors roomId' config' hget
    · exact h₁.1

theorem Inv.step (h : s.Inv) (he : (roomEncryptionSystem algorithm).step s e = some s') :
    s'.Inv := by
  cases e with
  | newEvent roomId content =>
    obtain rfl := Option.some.inj he
    exact ⟨h.configured, h.stored, h.store, h.storing, h.encryptors⟩
  | onCryptoEvent roomId content =>
    obtain rfl := Option.some.inj he
    have hset : (s.setRoomEncryption algorithm roomId content).2.Inv :=
      h.setRoomEncryption roomId content
    exact ⟨hset.configured, hset.stored, hset.store, hset.storing, hset.encryptors⟩
  | setRoomEncryption roomId config =>
    obtain rfl := Option.some.inj he
    exact h.setRoomEncryption roomId config
  | stored i =>
    change (match s.storing[i]? with | none => none | some (roomId, roomInfo) => _) = some s' at he
    split at he
    · exact nomatch he
    next roomId roomInfo hi =>
      obtain rfl := Option.some.inj he
      have hlist : s.roomList.get roomId = some roomInfo :=
        h.storing roomId roomInfo (List.mem_of_getElem? hi)
      have hstore : ∀ roomId' config, (s.store.set roomId roomInfo).get roomId' = some config →
          s.roomList.get roomId' = some config := by
        intro roomId' config hget
        by_cases hroom : roomId' = roomId
        · rw [hroom, JsObject.get_set_self, Option.some.injEq] at hget
          rw [hroom, ← hget]
          exact hlist
        · rw [JsObject.get_set_ne hroom] at hget
          exact h.store roomId' config hget
      refine ⟨h.configured, fun roomId' config hmem => ?_, hstore, fun roomId' config hmem =>
        h.storing roomId' config (List.mem_of_mem_eraseIdx hmem), h.encryptors⟩
      rcases List.mem_append.1 hmem with hold | hnew
      · -- a room that is stored again has the config it had
        have hget : s.store.get roomId' = some config := h.stored roomId' config hold
        by_cases hroom : roomId' = roomId
        · have hconfig : s.roomList.get roomId' = some config := h.store roomId' config hget
          rw [hroom, hlist] at hconfig
          rw [hroom, JsObject.get_set_self, hconfig]
        · rw [JsObject.get_set_ne hroom, hget]
      · obtain ⟨rfl, rfl⟩ := Prod.mk.inj (List.mem_singleton.1 hnew)
        exact JsObject.get_set_self ..
  | storeFails i =>
    obtain rfl := Option.some.inj he
    exact ⟨h.configured, h.stored, h.store, fun roomId' config hmem =>
      h.storing roomId' config (List.mem_of_mem_eraseIdx hmem), h.encryptors⟩
  | restart =>
    obtain rfl := Option.some.inj he
    exact ⟨fun _ _ hmem => absurd hmem List.not_mem_nil, h.stored, fun _ _ hstore => hstore,
      fun _ _ hmem => absurd hmem List.not_mem_nil, fun _ _ hget => (nomatch hget)⟩

omit [DecidableEq Content] in
/-- A config that is set, or that the room has already, can be used. -/
theorem setRoomEncryption_supported (hP : ConfigKept algorithm s) {roomId : String}
    {config : Content} (hsupports : s.Supports algorithm roomId config) {alg : String}
    {s₁ : RoomEncryption Content} (halg : algorithm config = some alg)
    (hs₁ : s.roomList.get roomId = none ∧ s₁ = s.setRoomInfo roomId config ∨
      s.roomList.get roomId = some config ∧ s₁ = s) : alg ∈ encryptionClasses := by
  rcases hs₁ with ⟨hnone, _⟩ | ⟨hsome, _⟩
  · exact hsupports hnone alg halg
  · obtain ⟨alg', halg', hmem⟩ := hP.supported roomId config hsome
    rw [halg, Option.some.injEq] at halg'
    rw [halg']
    exact hmem

/-- **A new config, exactly.** -/
theorem setRoomEncryption_supported_iff (hI : s.Inv) (hP : ConfigKept algorithm s) (roomId : String)
    (config : Content) :
    (∀ roomId' config', (s.setRoomEncryption algorithm roomId config).2.roomList.get roomId' =
      some config' → Supported algorithm config') ↔ s.Supports algorithm roomId config := by
  rcases s.setRoomEncryption_cases algorithm roomId config with
    ⟨heq, hwhy⟩ | ⟨alg, s₁, halg, hencryptor, hs₁, heq⟩
  · rw [heq]
    refine iff_of_true hP.supported fun hnone alg halg => ?_
    rcases hwhy with hwhy | ⟨existing, hget, _⟩ | hsome
    · exact nomatch hwhy.symm.trans halg
    · exact nomatch hnone.symm.trans hget
    · obtain ⟨config', hget⟩ := Option.isSome_iff_exists.1 hsome
      exact nomatch hnone.symm.trans (hI.encryptors roomId config' hget)
  · have hlist : (s.setRoomEncryption algorithm roomId config).2.roomList = s₁.roomList := by
      rw [heq]
      split <;> rfl
    rw [hlist]
    constructor
    · intro hsupported hnone alg' halg'
      rcases hs₁ with ⟨_, rfl⟩ | ⟨hsome, _⟩
      · obtain ⟨alg'', halg'', hmem⟩ := hsupported roomId config (JsObject.get_set_self ..)
        rw [halg', Option.some.injEq] at halg''
        rw [halg'']
        exact hmem
      · exact nomatch hnone.symm.trans hsome
    · intro hsupports roomId' config' hget
      have hmem : alg ∈ encryptionClasses := setRoomEncryption_supported hP hsupports halg hs₁
      rcases hs₁ with ⟨_, rfl⟩ | ⟨_, rfl⟩
      · by_cases hroom : roomId' = roomId
        · have hself : (s.roomList.set roomId config).get roomId' = some config' := hget
          rw [hroom, JsObject.get_set_self, Option.some.injEq] at hself
          rw [← hself]
          exact ⟨alg, halg, hmem⟩
        · have hother : (s.roomList.set roomId config).get roomId' = some config' := hget
          rw [JsObject.get_set_ne hroom] at hother
          exact hP.supported roomId' config' hother
      · exact hP.supported roomId' config' hget

/-- The room itself: **it has an encryptor for its config in the end**, exactly if it had one, or
this is its config. -/
theorem setRoomEncryption_encryptor_iff (hI : s.Inv) (hP : ConfigKept algorithm s) {roomId : String}
    {config : Content} (hsupports : s.Supports algorithm roomId config) :
    (∀ config', (s.setRoomEncryption algorithm roomId config).2.roomList.get roomId =
        some config' →
      (s.setRoomEncryption algorithm roomId config).2.roomEncryptors roomId = some config') ↔
    (s.roomEncryptors roomId = none → ∀ config', s.roomList.get roomId = some config' →
      config = config') := by
  rcases s.setRoomEncryption_cases algorithm roomId config with
    ⟨heq, hwhy⟩ | ⟨alg, s₁, halg, hencryptor, hs₁, heq⟩
  · rw [heq]
    cases hencryptor : s.roomEncryptors roomId with
    | some existing =>
      have hexisting : s.roomList.get roomId = some existing :=
        hI.encryptors roomId existing hencryptor
      refine iff_of_true (fun config' hget => ?_) nofun
      rw [← hexisting, hget]
    | none =>
      -- nothing is done, so that there must not be a config
      constructor
      · intro hnone _ config' hget
        exact nomatch hnone config' hget
      · intro hsame config' hget
        obtain rfl : config = config' := hsame rfl config' hget
        rcases hwhy with hwhy | ⟨existing, hexisting, hne⟩ | hsome
        · obtain ⟨alg, halg, _⟩ := hP.supported roomId config hget
          exact nomatch hwhy.symm.trans halg
        · rw [hget, Option.some.injEq] at hexisting
          exact absurd hexisting.symm hne
        · rw [hencryptor] at hsome
          exact nomatch hsome
  · have hmem : alg ∈ encryptionClasses := setRoomEncryption_supported hP hsupports halg hs₁
    rw [heq, if_pos hmem]
    refine iff_of_true (fun config' hget => ?_) fun _ config' hget => ?_
    · change Function.update s₁.roomEncryptors roomId (some config) roomId = some config'
      rw [Function.update_self]
      rcases hs₁ with ⟨_, rfl⟩ | ⟨hsome, rfl⟩
      · have hself : (s.roomList.set roomId config).get roomId = some config' := hget
        rw [JsObject.get_set_self] at hself
        exact hself
      · exact hsome.symm.trans hget
    · rcases hs₁ with ⟨hnone, _⟩ | ⟨hsome, _⟩
      · exact nomatch hnone.symm.trans hget
      · exact Option.some.inj (hsome.symm.trans hget)

/-- A room that has an encryptor for its config keeps it. -/
theorem setRoomEncryption_keeps (hI : s.Inv) (hP : ConfigKept algorithm s) {roomId : String}
    {config : Content} (hsupports : s.Supports algorithm roomId config) {roomId' : String}
    (hkept : ∀ config', s.roomList.get roomId' = some config' →
      s.roomEncryptors roomId' = some config') (config' : Content)
    (hget : (s.setRoomEncryption algorithm roomId config).2.roomList.get roomId' = some config') :
    (s.setRoomEncryption algorithm roomId config).2.roomEncryptors roomId' = some config' := by
  by_cases hroom : roomId' = roomId
  · subst hroom
    refine (setRoomEncryption_encryptor_iff hI hP hsupports).2 (fun hnone config'' hget' => ?_)
      config' hget
    exact nomatch hnone.symm.trans (hkept config'' hget')
  · rcases s.setRoomEncryption_cases algorithm roomId config with
      ⟨heq, _⟩ | ⟨alg, s₁, halg, _, hs₁, heq⟩
    · rw [heq] at hget ⊢
      exact hkept config' hget
    · have hmem : alg ∈ encryptionClasses := setRoomEncryption_supported hP hsupports halg hs₁
      have hother : s₁.roomList.get roomId' = s.roomList.get roomId' ∧
          s₁.roomEncryptors = s.roomEncryptors := by
        rcases hs₁ with ⟨_, rfl⟩ | ⟨_, rfl⟩
        · exact ⟨JsObject.get_set_ne hroom, rfl⟩
        · exact ⟨rfl, rfl⟩
      rw [heq, if_pos hmem] at hget ⊢
      change s₁.roomList.get roomId' = some config' at hget
      rw [hother.1] at hget
      change Function.update s₁.roomEncryptors roomId (some config) roomId' = some config'
      rw [Function.update_of_ne hroom, hother.2]
      exact hkept config' hget

theorem setRoomEncryption_frame (s : RoomEncryption Content) (roomId : String) (config : Content) :
    (s.setRoomEncryption algorithm roomId config).2.processed = s.processed := by
  rcases s.setRoomEncryption_cases algorithm roomId config with
    ⟨heq, _⟩ | ⟨alg, s₁, _, _, ⟨_, rfl⟩ | ⟨_, rfl⟩, heq⟩
  · rw [heq]
  · rw [heq]
    split <;> rfl
  · rw [heq]
    split <;> rfl

omit [DecidableEq Content] in
/-- What holds of a config in any case, and what depends on the events. -/
theorem Inv.kept_iff (h : s.Inv) :
    ConfigKept algorithm s ↔
      (∀ roomId config, s.roomList.get roomId = some config → Supported algorithm config) ∧
      ∀ roomId config, s.processed roomId = true → s.roomList.get roomId = some config →
        s.roomEncryptors roomId = some config := by
  constructor
  · intro hP
    exact ⟨hP.supported, hP.encryptor⟩
  · rintro ⟨hsupported, hencryptor⟩
    refine ⟨h.configured, fun roomId config hmem => ?_, hsupported, hencryptor⟩
    exact ⟨h.stored roomId config hmem, h.store roomId config (h.stored roomId config hmem)⟩

theorem configKept_step (hI : s.Inv) (hP : ConfigKept algorithm s)
    (he : (roomEncryptionSystem algorithm).step s e = some s') :
    ConfigKept algorithm s' ↔ SameConfig algorithm s e := by
  have hI' : s'.Inv := hI.step he
  rw [hI'.kept_iff]
  cases e with
  | newEvent roomId content =>
    obtain rfl := Option.some.inj he
    refine iff_of_true ⟨hP.supported, fun roomId' config hprocessed hget => ?_⟩ trivial
    change Function.update s.processed roomId false roomId' = true at hprocessed
    rw [Function.update_apply] at hprocessed
    by_cases hroom : roomId' = roomId
    · rw [if_pos hroom] at hprocessed
      exact nomatch hprocessed
    · rw [if_neg hroom] at hprocessed
      exact hP.encryptor roomId' config hprocessed hget
  | onCryptoEvent roomId content =>
    obtain rfl := Option.some.inj he
    have hiff := setRoomEncryption_supported_iff hI hP roomId content
    constructor
    · rintro ⟨hsupported, hencryptor⟩
      have hsupports : s.Supports algorithm roomId content := hiff.1 hsupported
      refine ⟨hsupports, fun hcurrent => ?_⟩
      refine (setRoomEncryption_encryptor_iff hI hP hsupports).1 fun config hget => ?_
      refine hencryptor roomId config ?_ hget
      change (if s.currentEvent roomId = some content then
        Function.update s.processed roomId true else s.processed) roomId = true
      rw [if_pos hcurrent, Function.update_self]
    · rintro ⟨hsupports, hsame⟩
      refine ⟨hiff.2 hsupports, fun roomId' config hprocessed hget => ?_⟩
      by_cases hcurrent : roomId' = roomId ∧ s.currentEvent roomId = some content
      · obtain ⟨rfl, hcurrent⟩ := hcurrent
        exact (setRoomEncryption_encryptor_iff hI hP hsupports).2 (hsame hcurrent) config hget
      · refine setRoomEncryption_keeps hI hP hsupports (fun config' => ?_) config hget
        refine hP.encryptor roomId' config' ?_
        change (if s.currentEvent roomId = some content then
          Function.update s.processed roomId true else s.processed) roomId' = true at hprocessed
        by_cases hevent : s.currentEvent roomId = some content
        · rw [if_pos hevent, Function.update_of_ne fun hroom => hcurrent ⟨hroom, hevent⟩]
            at hprocessed
          exact hprocessed
        · rw [if_neg hevent] at hprocessed
          exact hprocessed
  | setRoomEncryption roomId config =>
    obtain rfl := Option.some.inj he
    have hiff := setRoomEncryption_supported_iff hI hP roomId config
    constructor
    · rintro ⟨hsupported, _⟩
      exact hiff.1 hsupported
    · intro hsupports
      refine ⟨hiff.2 hsupports, fun roomId' config' hprocessed hget => ?_⟩
      rw [setRoomEncryption_frame] at hprocessed
      exact setRoomEncryption_keeps hI hP hsupports
        (fun config'' => hP.encryptor roomId' config'' hprocessed) config' hget
  | stored i =>
    change (match s.storing[i]? with | none => none | some (roomId, roomInfo) => _) = some s' at he
    split at he
    · exact nomatch he
    · obtain rfl := Option.some.inj he
      exact iff_of_true ⟨hP.supported, hP.encryptor⟩ trivial
  | storeFails i =>
    obtain rfl := Option.some.inj he
    exact iff_of_true ⟨hP.supported, hP.encryptor⟩ trivial
  | restart =>
    obtain rfl := Option.some.inj he
    refine iff_of_true ⟨fun roomId config hstore => ?_, fun _ _ hprocessed => ?_⟩ trivial
    · exact hP.supported roomId config (hI.store roomId config hstore)
    · exact nomatch hprocessed

end RoomEncryption

variable {algorithm}

/-- **A config that is kept, exactly.** It can be used, and is used once the current event has been
processed, all along the runs in which a room without a config gets one that can be used, and a room
that has one and has lost its encryptor finds it in the current event. -/
theorem configKept_iff {tr : List (RoomEncryption Content × RoomEncryptionStep Content)}
    {s : RoomEncryption Content} (h : (roomEncryptionSystem algorithm).Trace tr s) :
    System.HoldsAlong (ConfigKept algorithm) tr s ↔ System.Meets (SameConfig algorithm) tr :=
  h.holdsAlong_iff (I := RoomEncryption.Inv) .empty (fun _ _ _ hI he => hI.step he)
    (RoomEncryption.Inv.empty.kept_iff.2 ⟨fun _ _ h => (nomatch h), fun _ _ h => (nomatch h)⟩)
    fun _ _ _ hI hP he => RoomEncryption.configKept_step hI hP he

omit [DecidableEq Content] in
/-- The events of a room whose current event has been processed are encrypted with its config. -/
theorem encryptEvent_of_configKept {s : RoomEncryption Content} (h : ConfigKept algorithm s)
    {roomId : String} {config : Content} (hprocessed : s.processed roomId = true)
    (hget : s.roomList.get roomId = some config) : s.encryptEvent roomId = .ok config := by
  rw [RoomEncryption.encryptEvent, h.encryptor roomId config hprocessed hget]

end Model

/-! A room is encrypted, and the client is started again, with the same event or with another one;
and a room gets an algorithm that is not known. -/

section Examples

/-- Contents that have nothing but an algorithm, and the period in which sessions are changed. -/
def periodAndAlgorithm (content : ℕ × String) : Option String := some content.2

abbrev exampleRooms : System (RoomEncryption (ℕ × String)) (RoomEncryptionStep (ℕ × String)) :=
  roomEncryptionSystem periodAndAlgorithm

def megolmConfig (period : ℕ) : ℕ × String := (period, "m.megolm.v1.aes-sha2")

def startedAgain : List (RoomEncryptionStep (ℕ × String)) :=
  [.newEvent "!room" (megolmConfig 1), .onCryptoEvent "!room" (megolmConfig 1), .stored 0, .restart,
    .onCryptoEvent "!room" (megolmConfig 1)]

theorem startedAgain_runs : (exampleRooms.run startedAgain).isSome := by decide

theorem configKept_iff_startedAgain :
    ((exampleRooms.run startedAgain).get startedAgain_runs).stored = [("!room", megolmConfig 1)] ∧
      System.HoldsAlong (ConfigKept periodAndAlgorithm) (exampleRooms.steps startedAgain)
        ((exampleRooms.run startedAgain).get startedAgain_runs) := by
  refine ⟨by decide, (configKept_iff (System.trace_get startedAgain_runs)).2 ?_⟩
  change ∀ q ∈ [_, _, _, _, _], _
  simp only [List.forall_mem_cons]
  refine ⟨trivial, ⟨fun _ alg halg => ?_, fun _ _ config hget => ?_⟩, trivial, trivial,
    ⟨fun hnone => ?_, fun _ _ config hget => ?_⟩, fun q hq => absurd hq List.not_mem_nil⟩
  · obtain rfl := Option.some.inj halg
    decide
  · exact nomatch hget
  · exact nomatch hnone
  · exact Option.some.inj hget

def configChanges : List (RoomEncryptionStep (ℕ × String)) :=
  [.newEvent "!room" (megolmConfig 1), .onCryptoEvent "!room" (megolmConfig 1), .stored 0,
    .newEvent "!room" (megolmConfig 2), .onCryptoEvent "!room" (megolmConfig 2), .restart,
    .onCryptoEvent "!room" (megolmConfig 2)]

theorem configChanges_runs : (exampleRooms.run configChanges).isSome := by decide

def unknownAlgorithm : List (RoomEncryptionStep (ℕ × String)) :=
  [.newEvent "!room" (1, "unknown"), .onCryptoEvent "!room" (1, "unknown"), .stored 0]

theorem unknownAlgorithm_runs : (exampleRooms.run unknownAlgorithm).isSome := by decide

/-- Not along all runs: a room has a config in the store that is not supported, and another one has
no encryptor though its current event has been processed. -/
theorem configKept_fails :
    (¬ ∀ s, exampleRooms.Reachable s → ∀ roomId config, s.store.get roomId = some config →
      Supported periodAndAlgorithm config) ∧
    ¬ ∀ s, exampleRooms.Reachable s → ∀ roomId config, s.processed roomId = true →
      s.store.get roomId = some config → s.roomEncryptors roomId = some config := by
  constructor
  · intro h
    obtain ⟨alg, halg, hmem⟩ := h _ (System.reachable_get unknownAlgorithm_runs) "!room"
      (1, "unknown") (by decide)
    obtain rfl := Option.some.inj halg
    exact absurd hmem (by decide)
  · intro h
    exact nomatch h _ (System.reachable_get configChanges_runs) "!room" (megolmConfig 1)
      (by decide) (by decide)

end Examples

end MatrixSdk.Crypto
