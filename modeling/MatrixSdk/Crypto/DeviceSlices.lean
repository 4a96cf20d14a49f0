/-
The slices in which the keys of a session go out: `_splitDevices`, `_encryptAndSendKeysToDevices`
and `_shareKeyWithOlmSessions` of `crypto/algorithms/megolm.js`.

The devices are split user by user, so that "all messages to the same user end up in the same API
call". What a slice is made of is told by [`slicesOf_eq`]; it follows that nothing is lost and
nothing is sent twice ([`shareKeyWithOlmSessions_spec`]).

A device that no message can be encrypted for is pruned, and a request that fails is the last one.
So not every device gets a message; but those that have got one are those that are marked.
-/
import MatrixSdk.Lib.NestedObject
import MatrixSdk.Lib.Slices
import MatrixSdk.Crypto.MegolmEncryption
import MatrixSdk.Crypto.DeviceInfo

set_option autoImplicit false

namespace MatrixSdk.Crypto

open MatrixSdk.Lib JsObject

/-! ## The slices -/

/-- What `ensureOlmSessionsForDevices` and `getExistingOlmSessions` find for a device. -/
structure OlmSessionResult (Device : Type) where
  device : Device
  sessionId : Option String
  deriving DecidableEq

/-- The devices by user and device id. -/
abbrev DeviceMap (Device : Type) := JsObject String (JsObject String (OlmSessionResult Device))

/-- An element of a slice. -/
structure SliceEntry (Device : Type) where
  userId : String
  deviceInfo : Device
  deriving DecidableEq

def maxDevicesPerRequest : ℕ := 20

section Split

variable {Device : Type}

/-- What the devices of a user add to a slice. -/
def userEntries (user : String × JsObject String (OlmSessionResult Device)) :
    List (SliceEntry Device) :=
  user.2.entries.map fun e => ⟨user.1, e.2.device⟩

/-- The body of the loop of `_splitDevices`: the slices that are full, and the current one. -/
def splitUserDevices (slices : List (List (SliceEntry Device)) × List (SliceEntry Device))
    (user : String × JsObject String (OlmSessionResult Device)) :
    List (List (SliceEntry Device)) × List (SliceEntry Device) :=
  let currentSlice := slices.2 ++ userEntries user
  if currentSlice.length > maxDevicesPerRequest then (slices.1 ++ [currentSlice], [])
  else (slices.1, currentSlice)

/-- `_splitDevices` -/
def splitDevices (devicesByUser : DeviceMap Device) : List (List (SliceEntry Device)) :=
  let slices := devicesByUser.entries.foldl splitUserDevices ([], [])
  if slices.2.length = 0 then slices.1 else slices.1 ++ [slices.2]

/-- **A partition of the entries**: each of them is in one slice, where all those of its user are,
no slice is empty, and none has more than 20 entries before its last user is added. -/
structure IsPartition (devicesByUser : DeviceMap Device)
    (slices : List (List (SliceEntry Device))) : Prop where
  once : slices.flatten = devicesByUser.flatten.map fun e => ⟨e.1, e.2.2.device⟩
  apart : slices.Pairwise fun slice slice' =>
    ∀ entry ∈ slice, ∀ entry' ∈ slice', entry.userId ≠ entry'.userId
  nonempty : [] ∉ slices
  limit : ∀ slice ∈ slices, ∀ last ∈ slice.getLast?,
    (slice.filter fun entry => entry.userId ≠ last.userId).length ≤ 20

/-- The loop fills slices with the entries of users. -/
theorem splitDevices_eq (devicesByUser : DeviceMap Device) :
    splitDevices devicesByUser =
      slicesOf maxDevicesPerRequest (devicesByUser.entries.map userEntries) := by
  unfold splitDevices slicesOf
  rw [List.foldl_map]
  rfl

/-- **The slices are a partition.** -/
theorem splitDevices_isPartition (devicesByUser : DeviceMap Device) :
    IsPartition devicesByUser (splitDevices devicesByUser) := by
  have huser : ∀ user : String × JsObject String (OlmSessionResult Device),
      ∀ entry ∈ userEntries user, entry.userId = user.1 := by
    intro user entry hentry
    obtain ⟨e, -, rfl⟩ := List.mem_map.1 hentry
    rfl
  rw [splitDevices_eq]
  refine ⟨?_, ?_, fun hnil => ?_, fun slice hslice last hlast => ?_⟩
  · rw [flatten_slicesOf, flatten, List.map_flatMap]
    refine List.flatMap_congr fun user _ => ?_
    rw [List.map_map]
    rfl
  · apply pairwise_slicesOf
    have hnodup := devicesByUser.entries_nodup
    rw [List.Nodup, List.pairwise_map] at hnodup
    refine hnodup.imp fun hne entry hentry entry' hentry' heq => hne ?_
    rw [← huser _ entry hentry, ← huser _ entry' hentry', heq]
  · obtain ⟨run, hrun, -, hisRun⟩ := isRun_of_mem_slicesOf hnil
    exact hisRun.nonempty hrun.symm
  · obtain ⟨run, rfl, -, -, before, user, rfl, hle⟩ := isRun_of_mem_slicesOf hslice
    have hle : (before.flatMap userEntries).length ≤ 20 := hle
    rw [List.flatMap_append, List.flatMap_singleton] at hlast ⊢
    cases hentries : userEntries user with
    | nil =>
      rw [List.append_nil]
      exact Nat.le_trans (List.length_filter_le _ _) hle
    | cons entry rest =>
      -- the last entry is one of the last user
      have hmem : last ∈ userEntries user := by
        rw [List.getLast?_append_of_ne_nil _ (by rw [hentries]; exact List.cons_ne_nil _ _)]
          at hlast
        exact List.mem_of_getLast? hlast
      have hnone : (userEntries user).filter (fun entry => entry.userId ≠ last.userId) = [] := by
        refine List.filter_eq_nil_iff.2 fun entry hentry => ?_
        rw [huser user entry hentry, huser user last hmem]
        simp
      rw [← hentries, List.filter_append, hnone, List.append_nil]
      exact Nat.le_trans (List.length_filter_le _ _) hle

end Split

/-! ## Sending a slice -/

/-- An `encryptedContent`, with the one ciphertext that is in it when a message was encrypted. -/
structure EncryptedContent (Ciphertext : Type) where
  algorithm : String
  senderKey : String
  ciphertext : Option Ciphertext

/-- `contentMap`: the messages by user and device id. -/
abbrev ContentMap (Ciphertext : Type) :=
  JsObject String (JsObject String (EncryptedContent Ciphertext))

/-- What `encryptMessageForDevice` comes to: without an Olm session it does nothing. -/
inductive Encryption (Ciphertext : Type)
  | ciphertext (ciphertext : Ciphertext)
  | noSession
  | throws
  deriving DecidableEq

def Encryption.toOption {Ciphertext : Type} : Encryption Ciphertext → Option Ciphertext
  | .ciphertext c => some c
  | _ => none

/-- `{}[k] = v`; `__proto__` is not a key but sets the prototype. -/
def assignOwn {V : Type} (o : JsObject String V) (k : String) (v : V) : JsObject String V :=
  if k = "__proto__" then o else o.set k v

namespace ContentMap

variable {Ciphertext : Type} (contentMap : ContentMap Ciphertext)

/-- `contentMap[userId][deviceId] = encryptedContent`. What every object has is found in the place
of a user's own object, and is written to. -/
def add (userId deviceId : String) (encryptedContent : EncryptedContent Ciphertext) :
    ContentMap Ciphertext :=
  match contentMap.lookup userId with
  | .own ofUser => contentMap.set userId (assignOwn ofUser deviceId encryptedContent)
  | .missing => contentMap.set userId (assignOwn .empty deviceId encryptedContent)
  | .inherited => contentMap

/-- "prune out any devices that encryptMessageForDevice could not encrypt for", and the users that
have no devices left. -/
def prune : ContentMap Ciphertext :=
  let pruned : ContentMap Ciphertext := contentMap.map fun _ ofUser =>
    ofUser.filter fun deviceId => (ofUser.get deviceId).any fun content => content.ciphertext.isSome
  pruned.filter fun userId => (pruned.get userId).any fun ofUser => 0 < ofUser.keys.length

end ContentMap

/-- The session, and the messages that have been sent. -/
structure KeySharing (Ciphertext : Type) where
  session : OutboundSessionInfo
  sent : List (ContentMap Ciphertext)

/-- The devices that messages have been sent to. -/
def KeySharing.devices {Ciphertext : Type} (s : KeySharing Ciphertext) : List (String × String) :=
  s.sent.flatMap JsObject.positions

section Send

variable {Device Ciphertext : Type} (deviceId : Device → String) (deviceCurve25519Key : String)
  (encryptMessageForDevice : SliceEntry Device → Encryption Ciphertext) (chainIndex : ℕ)

/-- The content for an element of a slice, when its message has been encrypted. -/
def encryptedContent (val : SliceEntry Device) : EncryptedContent Ciphertext :=
  ⟨OLM_ALGORITHM, deviceCurve25519Key, (encryptMessageForDevice val).toOption⟩

/-- The `contentMap` of a slice, before it is pruned. -/
def contentMapOf (userDeviceMap : List (SliceEntry Device)) : ContentMap Ciphertext :=
  userDeviceMap.foldl (fun contentMap val => contentMap.add val.userId (deviceId val.deviceInfo)
    (encryptedContent deviceCurve25519Key encryptMessageForDevice val)) .empty

/-- `_encryptAndSendKeysToDevices`, and whether its promise is fulfilled; `succeeds` is what becomes
of the request. -/
def encryptAndSendKeysToDevices (s : KeySharing Ciphertext)
    (userDeviceMap : List (SliceEntry Device)) (succeeds : Bool) : KeySharing Ciphertext × Bool :=
  if userDeviceMap.any fun val =>
      match encryptMessageForDevice val with
      | .throws => true
      | _ => false then
    (s, false)
  else
    let contentMap :=
      (contentMapOf deviceId deviceCurve25519Key encryptMessageForDevice userDeviceMap).prune
    if contentMap.keys.length = 0 then (s, true)
    else if succeeds then
      ({ session := contentMap.positions.foldl (fun session (userId, deviceId) =>
            session.markSharedWithDevice chainIndex ⟨userId, deviceId⟩) s.session
         sent := s.sent ++ [contentMap] }, true)
    else (s, false)

/-- The loop of `_shareKeyWithOlmSessions`, from slice `i` on. -/
def sendSlices (request : ℕ → Bool) :
    ℕ → List (List (SliceEntry Device)) → KeySharing Ciphertext → KeySharing Ciphertext × Bool
  | _, [], s => (s, true)
  | i, userDeviceMap :: userDeviceMaps, s =>
    match encryptAndSendKeysToDevices deviceId deviceCurve25519Key encryptMessageForDevice
        chainIndex s userDeviceMap (request i) with
    | (s, true) => sendSlices request (i + 1) userDeviceMaps s
    | (s, false) => (s, false)

/-- `_shareKeyWithOlmSessions`; `request` tells which requests succeed. -/
def shareKeyWithOlmSessions (request : ℕ → Bool) (session : OutboundSessionInfo)
    (devicemap : DeviceMap Device) : KeySharing Ciphertext × Bool :=
  sendSlices deviceId deviceCurve25519Key encryptMessageForDevice chainIndex request 0
    (splitDevices devicemap) ⟨session, []⟩

/-! ## What is sent and marked -/

/-- The devices that keys are shared with. Users go by their ids, which begin with `@` and are no
names that every object has, and each device is found under its own id. -/
structure KeyRecipients (Device : Type) (deviceId : Device → String) where
  devicemap : DeviceMap Device
  users : ∀ userId ∈ devicemap.keys, userId ∉ JsObject.inheritedNames
  keyed : ∀ userId key result, devicemap.getIn userId key = some result →
    deviceId result.device = key ∧ key ≠ "__proto__"

variable {deviceId deviceCurve25519Key encryptMessageForDevice chainIndex}
  {slice entries : List (SliceEntry Device)} {s : KeySharing Ciphertext}

/-- Where the message for an element goes. -/
def SliceEntry.position (deviceId : Device → String) (val : SliceEntry Device) : String × String :=
  (val.userId, deviceId val.deviceInfo)

/-- A message can be put under these two keys. -/
def IsPlain (p : String × String) : Prop := p.1 ∉ JsObject.inheritedNames ∧ p.2 ≠ "__proto__"

/-- What has become of these elements when these messages have been sent: those that a message was
encrypted for, and no others, have got one message, and all of them if nothing failed; and those
that have got one are marked. -/
structure Sends (deviceId : Device → String)
    (encryptMessageForDevice : SliceEntry Device → Encryption Ciphertext) (chainIndex : ℕ)
    (entries : List (SliceEntry Device)) (contentMaps : List (ContentMap Ciphertext))
    (s : KeySharing Ciphertext) (r : KeySharing Ciphertext × Bool) : Prop where
  sent : r.1.sent = s.sent ++ contentMaps
  once : (contentMaps.flatMap JsObject.positions).Nodup
  encrypted : ∀ p ∈ contentMaps.flatMap JsObject.positions, ∃ val ∈ entries,
    val.position deviceId = p ∧ ∃ c, encryptMessageForDevice val = .ciphertext c
  all : r.2 = true → ∀ val ∈ entries, ∀ c, encryptMessageForDevice val = .ciphertext c →
    val.position deviceId ∈ contentMaps.flatMap JsObject.positions
  marks : ∀ p : String × String, r.1.session.sharedWithDevices.getIn p.1 p.2 =
    if p ∈ contentMaps.flatMap JsObject.positions then some chainIndex
    else s.session.sharedWithDevices.getIn p.1 p.2

/-- A message is put under its two keys. -/
theorem ContentMap.add_eq (contentMap : ContentMap Ciphertext) {p : String × String}
    (hp : IsPlain p) (content : EncryptedContent Ciphertext) :
    contentMap.add p.1 p.2 content = contentMap.setIn p.1 p.2 content := by
  unfold ContentMap.add setIn assignOwn
  rw [lookup_of_not_inherited hp.1]
  cases contentMap.get p.1 with
  | none => simp only [if_neg hp.2, Option.getD_none]
  | some ofUser => simp only [if_neg hp.2, Option.getD_some]

/-- The messages of a slice are those of its elements. -/
theorem getIn_contentMapOf (hplain : ∀ val ∈ slice, IsPlain (val.position deviceId))
    (hnodup : (slice.map (SliceEntry.position deviceId)).Nodup) (p : String × String)
    (content : EncryptedContent Ciphertext) :
    (contentMapOf deviceId deviceCurve25519Key encryptMessageForDevice slice).getIn p.1 p.2 =
        some content ↔
      ∃ val ∈ slice, val.position deviceId = p ∧
        encryptedContent deviceCurve25519Key encryptMessageForDevice val = content := by
  induction slice using List.reverseRecOn with
  | nil => simp [contentMapOf, getIn]
  | append_singleton slice val ih =>
    have hval : IsPlain (val.position deviceId) :=
      hplain val (List.mem_append_right _ (List.mem_singleton.2 rfl))
    rw [List.map_append, List.map_singleton] at hnodup
    have hnew : val.position deviceId ∉ slice.map (SliceEntry.position deviceId) := fun hmem =>
      (List.nodup_append.1 hnodup).2.2 _ hmem _ (List.mem_singleton.2 rfl) rfl
    have hold := ih (fun val' hval' => hplain val' (List.mem_append_left _ hval'))
      (List.nodup_append.1 hnodup).1
    have hadd := ContentMap.add_eq
      (contentMapOf deviceId deviceCurve25519Key encryptMessageForDevice slice) hval
      (encryptedContent deviceCurve25519Key encryptMessageForDevice val)
    have hfold : contentMapOf deviceId deviceCurve25519Key encryptMessageForDevice
        (slice ++ [val]) =
        (contentMapOf deviceId deviceCurve25519Key encryptMessageForDevice slice).setIn val.userId
          (deviceId val.deviceInfo)
          (encryptedContent deviceCurve25519Key encryptMessageForDevice val) := by
      unfold contentMapOf
      rw [List.foldl_append]
      exact hadd
    rw [hfold, getIn_setIn]
    by_cases hp : val.position deviceId = p
    · subst hp
      rw [if_pos ⟨rfl, rfl⟩]
      constructor
      · intro heq
        exact ⟨val, List.mem_append_right _ (List.mem_singleton.2 rfl), rfl,
          Option.some.inj heq⟩
      · rintro ⟨val', hval', hposition, rfl⟩
        rcases List.mem_append.1 hval' with hmem | hmem
        · exact absurd (List.mem_map.2 ⟨val', hmem, hposition⟩) hnew
        · rw [List.mem_singleton.1 hmem]
    · rw [if_neg fun h => hp (Prod.ext h.1.symm h.2.symm), hold]
      constructor
      · rintro ⟨val', hval', hrest⟩
        exact ⟨val', List.mem_append_left _ hval', hrest⟩
      · rintro ⟨val', hval', hposition, hcontent⟩
        rcases List.mem_append.1 hval' with hmem | hmem
        · exact ⟨val', hmem, hposition, hcontent⟩
        · rw [List.mem_singleton.1 hmem] at hposition
          exact absurd hposition hp

/-- What is left when the messages without a ciphertext have been pruned. -/
theorem getIn_prune (contentMap : ContentMap Ciphertext) (userId key : String) :
    contentMap.prune.getIn userId key =
      (contentMap.getIn userId key).filter fun content => content.ciphertext.isSome := by
  unfold ContentMap.prune getIn
  simp only [get_filter, get_map]
  cases contentMap.get userId with
  | none => simp
  | some ofUser =>
    simp only [Option.map_some, Option.any_some, Option.bind_some]
    by_cases hkeys : 0 < (ofUser.filter fun deviceId =>
        (ofUser.get deviceId).any fun content => content.ciphertext.isSome).keys.length
    · rw [if_pos (decide_eq_true hkeys), Option.bind_some, get_filter]
      cases ofUser.get key with
      | none => simp
      | some content => simp [Option.filter]
    · rw [if_neg (by simpa using hkeys)]
      have hnil : key ∉ (ofUser.filter fun deviceId =>
          (ofUser.get deviceId).any fun content => content.ciphertext.isSome).keys := by
        rw [List.eq_nil_of_length_eq_zero (Nat.eq_zero_of_not_pos hkeys)]
        exact List.not_mem_nil
      rw [← get_eq_none_iff, get_filter] at hnil
      cases hkey : ofUser.get key with
      | none => rfl
      | some content =>
        rw [hkey, Option.any_some] at hnil
        rw [Option.bind_none, Option.filter_some]
        split at hnil
        · exact nomatch hnil
        next hfalse => rw [if_neg hfalse]

variable (deviceCurve25519Key encryptMessageForDevice) in
/-- So a message is left for each element that one was encrypted for. -/
theorem mem_positions_prune (hplain : ∀ val ∈ slice, IsPlain (val.position deviceId))
    (hnodup : (slice.map (SliceEntry.position deviceId)).Nodup) (p : String × String) :
    p ∈ (contentMapOf deviceId deviceCurve25519Key encryptMessageForDevice
        slice).prune.positions ↔
      ∃ val ∈ slice, val.position deviceId = p ∧
        ∃ c, encryptMessageForDevice val = .ciphertext c := by
  obtain ⟨k, k'⟩ := p
  rw [mem_positions, getIn_prune, Option.isSome_iff_exists]
  constructor
  · rintro ⟨content, hcontent⟩
    obtain ⟨hget, hsome⟩ := Option.filter_eq_some_iff.1 hcontent
    obtain ⟨val, hval, hposition, rfl⟩ := (getIn_contentMapOf hplain hnodup (k, k') content).1 hget
    refine ⟨val, hval, hposition, ?_⟩
    unfold encryptedContent Encryption.toOption at hsome
    split at hsome
    next c heq => exact ⟨c, heq⟩
    next => exact nomatch hsome
  · rintro ⟨val, hval, hposition, c, hc⟩
    refine ⟨encryptedContent deviceCurve25519Key encryptMessageForDevice val,
      Option.filter_eq_some_iff.2
        ⟨(getIn_contentMapOf hplain hnodup (k, k') _).2 ⟨val, hval, hposition, rfl⟩, ?_⟩⟩
    unfold encryptedContent
    rw [hc]
    rfl

omit encryptMessageForDevice in
/-- The devices in a list are marked, and no others. -/
theorem getIn_markShared (positions : List (String × String)) (session : OutboundSessionInfo)
    (p : String × String) :
    (positions.foldl (fun session (userId, deviceId) =>
        session.markSharedWithDevice chainIndex ⟨userId, deviceId⟩)
          session).sharedWithDevices.getIn p.1 p.2 =
      if p ∈ positions then some chainIndex else session.sharedWithDevices.getIn p.1 p.2 := by
  induction positions using List.reverseRecOn with
  | nil => rw [if_neg List.not_mem_nil, List.foldl_nil]
  | append_singleton positions q ih =>
    have hmark : ∀ session : OutboundSessionInfo,
        (session.markSharedWithDevice chainIndex ⟨q.1, q.2⟩).sharedWithDevices =
          session.sharedWithDevices.setIn q.1 q.2 chainIndex := fun _ => rfl
    rw [List.foldl_append, List.foldl_cons, List.foldl_nil]
    rw [hmark, getIn_setIn, ih]
    by_cases hp : p = q
    · subst hp
      rw [if_pos ⟨rfl, rfl⟩, if_pos (List.mem_append_right _ (List.mem_singleton.2 rfl))]
    · rw [if_neg fun h => hp (Prod.ext h.1 h.2)]
      congr 1
      simp [hp]

/-- Nothing is sent. -/
theorem Sends.none {ok : Bool}
    (h : ok = true → ∀ val ∈ entries, ∀ c, encryptMessageForDevice val ≠ .ciphertext c) :
    Sends deviceId encryptMessageForDevice chainIndex entries [] s (s, ok) where
  sent := (List.append_nil _).symm
  once := List.nodup_nil
  encrypted _ hp := absurd hp List.not_mem_nil
  all hok val hval c hc := absurd hc (h hok val hval c)
  marks _ := (if_neg List.not_mem_nil).symm

variable (deviceCurve25519Key encryptMessageForDevice chainIndex) in
/-- **A slice is sent.** -/
theorem encryptAndSend_sends (hplain : ∀ val ∈ slice, IsPlain (val.position deviceId))
    (hnodup : (slice.map (SliceEntry.position deviceId)).Nodup) (s : KeySharing Ciphertext)
    (succeeds : Bool) :
    ∃ contentMaps, Sends deviceId encryptMessageForDevice chainIndex slice contentMaps s
      (encryptAndSendKeysToDevices deviceId deviceCurve25519Key encryptMessageForDevice chainIndex s
        slice succeeds) := by
  have hmem := mem_positions_prune deviceCurve25519Key encryptMessageForDevice hplain hnodup
  unfold encryptAndSendKeysToDevices
  split
  · exact ⟨[], .none fun h => nomatch h⟩
  · dsimp only
    split
    next hkeys =>
      -- no message is left
      refine ⟨[], .none fun _ val hval c hc => ?_⟩
      have hposition := (hmem _).2 ⟨val, hval, rfl, c, hc⟩
      unfold positions at hposition
      rw [List.eq_nil_of_length_eq_zero hkeys] at hposition
      exact List.not_mem_nil hposition
    next =>
      split
      · refine ⟨[_], rfl, ?_, fun p hp => ?_, fun _ val hval c hc => ?_, fun p => ?_⟩
        · rw [List.flatMap_singleton]
          exact positions_nodup _
        · rw [List.flatMap_singleton] at hp
          exact (hmem p).1 hp
        · rw [List.flatMap_singleton]
          exact (hmem _).2 ⟨val, hval, rfl, c, hc⟩
        · rw [List.flatMap_singleton]
          exact getIn_markShared _ s.session p
      · exact ⟨[], .none fun h => nomatch h⟩

/-- It fails because of a message or of the request. -/
theorem encryptAndSend_fails (slice : List (SliceEntry Device)) (s : KeySharing Ciphertext)
    (succeeds : Bool)
    (h : (encryptAndSendKeysToDevices deviceId deviceCurve25519Key encryptMessageForDevice
      chainIndex s slice succeeds).2 = false) :
    (∃ val ∈ slice, encryptMessageForDevice val = .throws) ∨ succeeds = false := by
  unfold encryptAndSendKeysToDevices at h
  split at h
  next hany =>
    obtain ⟨val, hval, hthrows⟩ := List.any_eq_true.1 hany
    split at hthrows
    next heq => exact .inl ⟨val, hval, heq⟩
    next => exact nomatch hthrows
  next =>
    dsimp only at h
    split at h
    · exact nomatch h
    · split at h
      · exact nomatch h
      next hsucceeds => exact .inr (Bool.not_eq_true _ ▸ hsucceeds)

/-- One slice after the other. -/
theorem Sends.append {entries' : List (SliceEntry Device)}
    {contentMaps contentMaps' : List (ContentMap Ciphertext)} {r r' : KeySharing Ciphertext × Bool}
    (h : Sends deviceId encryptMessageForDevice chainIndex entries contentMaps s r)
    (hok : r.2 = true)
    (h' : Sends deviceId encryptMessageForDevice chainIndex entries' contentMaps' r.1 r')
    (hapart : ∀ val ∈ entries, ∀ val' ∈ entries',
      val.position deviceId ≠ val'.position deviceId) :
    Sends deviceId encryptMessageForDevice chainIndex (entries ++ entries')
      (contentMaps ++ contentMaps') s r' := by
  refine ⟨?_, ?_, fun p hp => ?_, fun hok' val hval c hc => ?_, fun p => ?_⟩
  · rw [h'.sent, h.sent, List.append_assoc]
  · rw [List.flatMap_append, List.nodup_append]
    refine ⟨h.once, h'.once, fun p hp q hq heq => ?_⟩
    obtain ⟨val, hval, hposition, -⟩ := h.encrypted p hp
    obtain ⟨val', hval', hposition', -⟩ := h'.encrypted q hq
    exact hapart val hval val' hval' (hposition.trans (heq.trans hposition'.symm))
  · rw [List.flatMap_append] at hp
    rcases List.mem_append.1 hp with hp | hp
    · obtain ⟨val, hval, hrest⟩ := h.encrypted p hp
      exact ⟨val, List.mem_append_left _ hval, hrest⟩
    · obtain ⟨val, hval, hrest⟩ := h'.encrypted p hp
      exact ⟨val, List.mem_append_right _ hval, hrest⟩
  · rw [List.flatMap_append]
    rcases List.mem_append.1 hval with hval | hval
    · exact List.mem_append_left _ (h.all hok val hval c hc)
    · exact List.mem_append_right _ (h'.all hok' val hval c hc)
  · rw [h'.marks, h.marks, List.flatMap_append]
    by_cases hp : p ∈ contentMaps'.flatMap positions
    · rw [if_pos hp, if_pos (List.mem_append_right _ hp)]
    · rw [if_neg hp]
      congr 1
      simp [hp]

/-- A slice that fails is the last one. -/
theorem Sends.mono {contentMaps : List (ContentMap Ciphertext)} {r : KeySharing Ciphertext × Bool}
    (h : Sends deviceId encryptMessageForDevice chainIndex entries contentMaps s r)
    (hfailed : r.2 = false) (entries' : List (SliceEntry Device)) :
    Sends deviceId encryptMessageForDevice chainIndex (entries ++ entries') contentMaps s r := by
  refine ⟨h.sent, h.once, fun p hp => ?_, fun hok => ?_, h.marks⟩
  · obtain ⟨val, hval, hrest⟩ := h.encrypted p hp
    exact ⟨val, List.mem_append_left _ hval, hrest⟩
  · rw [hfailed] at hok
    exact nomatch hok

variable (deviceCurve25519Key) in
/-- **All slices are sent**, up to the first one that fails. -/
theorem sendSlices_sends (request : ℕ → Bool) {slices : List (List (SliceEntry Device))} :
    ∀ (i : ℕ) (s : KeySharing Ciphertext),
      (∀ val ∈ slices.flatten, IsPlain (val.position deviceId)) →
      (slices.flatten.map (SliceEntry.position deviceId)).Nodup →
      (∃ contentMaps, Sends deviceId encryptMessageForDevice chainIndex slices.flatten contentMaps s
        (sendSlices deviceId deviceCurve25519Key encryptMessageForDevice chainIndex request i slices
          s)) ∧
      ((sendSlices deviceId deviceCurve25519Key encryptMessageForDevice chainIndex request i slices
          s).2 = false →
        (∃ val ∈ slices.flatten, encryptMessageForDevice val = .throws) ∨
          ∃ j, request j = false) := by
  induction slices with
  | nil =>
    intro i s _ _
    exact ⟨⟨[], .none fun _ _ hval => absurd hval List.not_mem_nil⟩, fun h => nomatch h⟩
  | cons slice slices ih =>
    intro i s hplain hnodup
    rw [List.flatten_cons] at hplain hnodup ⊢
    rw [List.map_append, List.nodup_append] at hnodup
    obtain ⟨hnodup, hnodupRest, hapart⟩ := hnodup
    obtain ⟨contentMaps, hfirst⟩ :=
      encryptAndSend_sends deviceCurve25519Key encryptMessageForDevice chainIndex
        (fun val hval => hplain val (List.mem_append_left _ hval)) hnodup s (request i)
    have hfails :
        (encryptAndSendKeysToDevices deviceId deviceCurve25519Key encryptMessageForDevice
          chainIndex s slice (request i)).2 = false → _ :=
      encryptAndSend_fails slice s (request i)
    unfold sendSlices
    generalize encryptAndSendKeysToDevices deviceId deviceCurve25519Key encryptMessageForDevice
      chainIndex s slice (request i) = r at hfirst hfails
    obtain ⟨s', ok⟩ := r
    cases ok with
    | true =>
      obtain ⟨⟨contentMaps', hrest⟩, hrestFails⟩ := ih (i + 1) s'
        (fun val hval => hplain val (List.mem_append_right _ hval)) hnodupRest
      refine ⟨⟨contentMaps ++ contentMaps', hfirst.append rfl hrest
        fun val hval val' hval' => hapart _ (List.mem_map_of_mem hval) _
          (List.mem_map_of_mem hval')⟩, fun hfalse => ?_⟩
      rcases hrestFails hfalse with ⟨val, hval, hthrows⟩ | hrequest
      · exact .inl ⟨val, List.mem_append_right _ hval, hthrows⟩
      · exact .inr hrequest
    | false =>
      refine ⟨⟨contentMaps, hfirst.mono rfl _⟩, fun _ => ?_⟩
      rcases hfails rfl with ⟨val, hval, hthrows⟩ | hrequest
      · exact .inl ⟨val, List.mem_append_left _ hval, hthrows⟩
      · exact .inr ⟨i, hrequest⟩

/-- **How a key is shared with devices**: no device gets two messages; those with a message are
those that one could be encrypted for, at least if all messages can be encrypted or found to have
no session and all requests succeed; and the devices with a message are those that are marked. -/
structure SharesOnce (sessions : KeyRecipients Device deviceId)
    (encryptMessageForDevice : SliceEntry Device → Encryption Ciphertext) (chainIndex : ℕ)
    (request : ℕ → Bool) (session : OutboundSessionInfo) (r : KeySharing Ciphertext × Bool) :
    Prop where
  once : r.1.devices.Nodup
  encrypted : ∀ userId key, (userId, key) ∈ r.1.devices → ∃ result,
    sessions.devicemap.getIn userId key = some result ∧
      ∃ c, encryptMessageForDevice ⟨userId, result.device⟩ = .ciphertext c
  all : r.2 = true → ∀ userId key result, sessions.devicemap.getIn userId key = some result →
    ∀ c, encryptMessageForDevice ⟨userId, result.device⟩ = .ciphertext c →
      (userId, key) ∈ r.1.devices
  fails : r.2 = false →
    (∃ userId key result, sessions.devicemap.getIn userId key = some result ∧
      encryptMessageForDevice ⟨userId, result.device⟩ = .throws) ∨ ∃ i, request i = false
  marks : ∀ userId key, r.1.session.sharedWithDevices.getIn userId key =
    if (userId, key) ∈ r.1.devices then some chainIndex
    else session.sharedWithDevices.getIn userId key

/-- Each device gets exactly one message. -/
def SentToAll (sessions : KeyRecipients Device deviceId) (r : KeySharing Ciphertext × Bool) :
    Prop :=
  ∀ userId key result, sessions.devicemap.getIn userId key = some result →
    r.1.devices.count (userId, key) = 1

/-- The elements of the slices are the devices, and are told apart by where their messages go. -/
theorem mem_flatten_splitDevices (sessions : KeyRecipients Device deviceId)
    (val : SliceEntry Device) :
    val ∈ (splitDevices sessions.devicemap).flatten ↔
      ∃ result, sessions.devicemap.getIn val.userId (deviceId val.deviceInfo) = some result ∧
        val = ⟨val.userId, result.device⟩ := by
  rw [(splitDevices_isPartition sessions.devicemap).once, List.mem_map]
  constructor
  · rintro ⟨⟨userId, key, result⟩, hmem, rfl⟩
    have hget := mem_flatten.1 hmem
    obtain ⟨rfl, -⟩ := sessions.keyed userId key result hget
    exact ⟨result, hget, rfl⟩
  · rintro ⟨result, hget, heq⟩
    exact ⟨(val.userId, deviceId val.deviceInfo, result), mem_flatten.2 hget, heq.symm⟩

theorem nodup_positions_splitDevices (sessions : KeyRecipients Device deviceId) :
    ((splitDevices sessions.devicemap).flatten.map (SliceEntry.position deviceId)).Nodup := by
  rw [(splitDevices_isPartition sessions.devicemap).once, List.map_map]
  have hkeys : ∀ e ∈ sessions.devicemap.flatten,
      (SliceEntry.position deviceId ∘ fun e : String × String × OlmSessionResult Device =>
        SliceEntry.mk e.1 e.2.2.device) e = (e.1, e.2.1) := by
    rintro ⟨userId, key, result⟩ hmem
    obtain ⟨hkey, -⟩ := sessions.keyed userId key result (mem_flatten.1 hmem)
    exact Prod.ext rfl hkey
  rw [List.map_congr_left hkeys, flatten_eq, List.map_filterMap]
  refine (sessions.devicemap.positions_nodup).sublist ?_
  generalize sessions.devicemap.positions = positions
  induction positions with
  | nil => exact .slnil
  | cons p positions ih =>
    rw [List.filterMap_cons]
    cases hget : sessions.devicemap.getIn p.1 p.2 with
    | none => exact ih.cons p
    | some result => exact ih.cons_cons p

/-- **The keys go out in slices that are a partition of the devices**, and each device that a
message is encrypted for gets it once, and is marked then and only then. -/
theorem shareKeyWithOlmSessions_spec :
    (∀ devicesByUser : DeviceMap Device, IsPartition devicesByUser (splitDevices devicesByUser)) ∧
      ∀ (sessions : KeyRecipients Device deviceId) (request : ℕ → Bool)
        (session : OutboundSessionInfo),
        SharesOnce sessions encryptMessageForDevice chainIndex request session
          (shareKeyWithOlmSessions deviceId deviceCurve25519Key encryptMessageForDevice chainIndex
            request session sessions.devicemap) := by
  refine ⟨splitDevices_isPartition, fun sessions request session => ?_⟩
  have hmem := mem_flatten_splitDevices sessions
  have hplain : ∀ val ∈ (splitDevices sessions.devicemap).flatten,
      IsPlain (val.position deviceId) := by
    intro val hval
    obtain ⟨result, hget, -⟩ := (hmem val).1 hval
    obtain ⟨inner, hinner, -⟩ := Option.bind_eq_some_iff.1 hget
    exact ⟨sessions.users _ (JsObject.mem_keys_of_get hinner), (sessions.keyed _ _ result hget).2⟩
  obtain ⟨⟨contentMaps, hsends⟩, hfails⟩ :=
    sendSlices_sends deviceCurve25519Key request 0 ⟨session, []⟩ hplain
      (nodup_positions_splitDevices sessions)
  unfold shareKeyWithOlmSessions
  generalize sendSlices deviceId deviceCurve25519Key encryptMessageForDevice chainIndex request 0
    (splitDevices sessions.devicemap) ⟨session, []⟩ = r at hsends hfails
  have hdevices : r.1.devices = contentMaps.flatMap JsObject.positions := by
    unfold KeySharing.devices
    rw [hsends.sent, List.nil_append]
  refine ⟨?_, fun userId key hp => ?_, fun hok userId key result hget c hc => ?_, fun hfalse => ?_,
    fun userId key => ?_⟩
  · rw [hdevices]
    exact hsends.once
  · rw [hdevices] at hp
    obtain ⟨val, hval, hposition, hc⟩ := hsends.encrypted _ hp
    obtain ⟨result, hget, heq⟩ := (hmem val).1 hval
    obtain ⟨rfl, rfl⟩ := Prod.mk.inj hposition
    exact ⟨result, hget, heq ▸ hc⟩
  · obtain ⟨hkey, -⟩ := sessions.keyed userId key result hget
    have hval : (⟨userId, result.device⟩ : SliceEntry Device) ∈
        (splitDevices sessions.devicemap).flatten := by
      rw [hmem]
      exact ⟨result, by rw [hkey]; exact hget, rfl⟩
    have := hsends.all hok _ hval c hc
    rw [hdevices, ← hkey]
    exact this
  · rcases hfails hfalse with ⟨val, hval, hthrows⟩ | hrequest
    · obtain ⟨result, hget, heq⟩ := (hmem val).1 hval
      exact .inl ⟨_, _, result, hget, heq ▸ hthrows⟩
    · exact .inr hrequest
  · rw [hdevices]
    exact hsends.marks (userId, key)

end Send

/-- One device, `A` of `@alice:x`. -/
def onlyRecipient : KeyRecipients String id where
  devicemap := JsObject.empty.set "@alice:x" (JsObject.empty.set "A" ⟨"A", some "s"⟩)
  users userId h := by
    obtain rfl : userId = "@alice:x" := (JsObject.mem_keys_set.1 h).resolve_right List.not_mem_nil
    decide +kernel
  keyed userId key result h := by
    have hin : JsObject.getIn (JsObject.empty.setIn "@alice:x" "A"
        (OlmSessionResult.mk "A" (some "s"))) userId key = some result := h
    rw [JsObject.getIn_setIn] at hin
    split at hin
    next hkeys =>
      obtain rfl := Option.some.inj hin
      exact ⟨hkeys.2.symm, by rw [hkeys.2]; decide +kernel⟩
    next => exact nomatch hin

/-- A device that no message can be encrypted for gets none. -/
theorem sentToAll_fails :
    ¬ SentToAll onlyRecipient (shareKeyWithOlmSessions id "key"
      (fun _ => (.noSession : Encryption String)) 0 (fun _ => true) (.new 0)
        onlyRecipient.devicemap) := by
  intro h
  have hcount := h "@alice:x" "A" ⟨"A", some "s"⟩ (by decide +kernel)
  exact absurd hcount (by decide +kernel)

end MatrixSdk.Crypto
