/-
The entries of a `/keys/query` response, whatever JSON they are: `_processQueryResponseForUser` and
`_storeDeviceKeys` of `crypto/DeviceList.js`.

The devices of a user are gone through one by one, and what becomes of one is to depend on its own
entry only, see [`TreatedAlone`]. The maps are plain objects, where `in` and `[]` find the names that
every object has, and an entry that is `null` makes the whole loop throw: [`treatedAlone_iff`].
-/
import MatrixSdk.Crypto.DeviceInfo
import Mathlib.Data.Rat.Defs

set_option autoImplicit false

namespace MatrixSdk.Crypto.DeviceEntries

open MatrixSdk.Lib JsObject

/-! ## JSON -/

inductive Json
  | null
  | bool (value : Bool)
  | num (value : ℚ)
  | str (value : String)
  | arr (elements : List Json)
  | obj (fields : List (String × Json))

namespace Json

/-- What an object has of its own. The names that are read here are no property of another value. -/
def fields : Json → List (String × Json)
  | .obj fields => fields
  | _ => []

/-- `value[name]` of a value that is not `null`. -/
def get (value : Json) (name : String) : Option Json := value.fields.lookup name

/-- A value that passes `if (value)`. -/
def isTruthy : Json → Bool
  | .null => false
  | .bool value => value
  | .num value => value ≠ 0
  | .str value => value ≠ ""
  | .arr _ => true
  | .obj _ => true

/-- `value === text` -/
def isString : Option Json → String → Bool
  | some (.str value), text => value = text
  | _, _ => false

/-- `value || otherwise` -/
def or (value : Option Json) (otherwise : Json) : Json :=
  (value.filter isTruthy).getD otherwise

end Json

/-! ## What is stored -/

/-- A `DeviceInfo`, as it is stored. -/
structure StoredDevice where
  algorithms : Json
  keys : List (String × Json)
  verified : DeviceVerification
  known : Bool
  unsigned : Json
  signatures : Json

namespace StoredDevice

/-- `new DeviceInfo(deviceId)` -/
def new : StoredDevice := ⟨.arr [], [], .unverified, false, .obj [], .obj []⟩

def getFingerprint (device : StoredDevice) (deviceId : String) : Option Json :=
  device.keys.lookup ("ed25519:" ++ deviceId)

end StoredDevice

/-- The stored devices of a user. A key that is stored has been verified, so it is a string. The map
is made by assignments, and one to `__proto__` makes no property. -/
structure StoredDevices where
  devices : JsObject String StoredDevice
  fingerprint : ∀ deviceId device key, devices.get deviceId = some device →
    device.getFingerprint deviceId = some key → ∃ text, key = .str text
  noProto : devices.get "__proto__" = none

/-! ## Processing a response -/

/-- What is used of other packages: the canonical JSON, which may throw, and the check of a signature
with a key. -/
structure Olm where
  stringify : List (String × Json) → Option String
  ed25519Verify : String → String → String → Bool

section Processing

variable (olm : Olm) (userId : String)

/-- `olmlib.verifySignature`, whether it returns without throwing. Olm takes strings only. -/
def verifySignature (obj : Json) (signingDeviceId : String) (signingKey : Json) : Bool :=
  let signatures := Json.or (obj.get "signatures") (.obj [])
  let userSigs := Json.or (signatures.get userId) (.obj [])
  -- the copy is made by assignments, so it has no `__proto__` either
  let mangledObj := obj.fields.filter fun field =>
    !(["unsigned", "signatures", "__proto__"].contains field.1)
  match (userSigs.get ("ed25519:" ++ signingDeviceId)).filter Json.isTruthy, signingKey,
      olm.stringify mangledObj with
  | some (.str signature), .str key, some json => olm.ed25519Verify key json signature
  | _, _, _ => false

/-- The assignments that `_storeDeviceKeys` ends with. -/
def StoredDevice.takeOver (deviceStore : StoredDevice) (deviceResult keys : Json) : StoredDevice :=
  { deviceStore with
    keys := keys.fields
    algorithms := Json.or (deviceResult.get "algorithms") (.arr [])
    unsigned := Json.or (deviceResult.get "unsigned") (.obj [])
    signatures := Json.or (deviceResult.get "signatures") (.obj []) }

/-- `_storeDeviceKeys`, as what it makes of `userStore`. The ids of the device are those of its
entry. -/
def storeDeviceKeys (userStore : JsObject String StoredDevice) (deviceId : String)
    (deviceResult : Json) : Except String (JsObject String StoredDevice) :=
  match (deviceResult.get "keys").filter Json.isTruthy with
  | none => .ok userStore
  | some keys =>
    match (keys.get ("ed25519:" ++ deviceId)).filter Json.isTruthy with
    | none => .ok userStore
    | some signKey =>
      if verifySignature olm userId deviceResult deviceId signKey then
        match userStore.lookup deviceId with
        | .own deviceStore =>
          -- "we are best off sticking with the original keys"
          match deviceStore.getFingerprint deviceId, signKey with
          | some (.str fingerprint), .str key =>
            if fingerprint ≠ key then .ok userStore
            else .ok (userStore.set deviceId (deviceStore.takeOver deviceResult keys))
          | _, _ => .ok userStore
        | .missing =>
          .ok (userStore.set deviceId (StoredDevice.new.takeOver deviceResult keys))
        -- `deviceId in userStore`, but what is found is no `DeviceInfo`
        | .inherited => .error "TypeError"
      else .ok userStore

/-- The loop over the response, for one device. -/
def updateStoredDevice (userStore : JsObject String StoredDevice) (entry : String × Json) :
    Except String (JsObject String StoredDevice) :=
  match entry.2 with
  | .null => .error "TypeError"
  | deviceResult =>
    if ¬ Json.isString (deviceResult.get "user_id") userId then .ok userStore
    else if ¬ Json.isString (deviceResult.get "device_id") entry.1 then .ok userStore
    else storeDeviceKeys olm userId userStore entry.1 deviceResult

/-- `o.hasOwnProperty` is called for each name, and is no function when the object has its own. -/
def callHasOwnProperty {V : Type*} (o : JsObject String V) : Except String Unit :=
  if (o.get "hasOwnProperty").isSome then .error "TypeError" else .ok ()

/-- `deviceId in userResult` -/
def isIn {V : Type*} (deviceId : String) (userResult : JsObject String V) : Bool :=
  (userResult.get deviceId).isSome || JsObject.inheritedNames.contains deviceId

/-- `_updateStoredDeviceKeysForUser`, as what it makes of `userStore`. -/
def updateStoredDeviceKeysForUser (userStore : JsObject String StoredDevice)
    (userResult : JsObject String Json) : Except String (JsObject String StoredDevice) :=
  (callHasOwnProperty userStore).bind fun _ =>
    (callHasOwnProperty userResult).bind fun _ =>
      userResult.entries.foldlM (updateStoredDevice olm userId)
        (userStore.filter fun deviceId => isIn deviceId userResult)

/-- `_processQueryResponseForUser`: what is stored for the user afterwards. -/
def processQueryResponseForUser (stored : StoredDevices)
    (dkResponse : Option (JsObject String Json)) :
    Except String (JsObject String StoredDevice) :=
  updateStoredDeviceKeysForUser olm userId stored.devices (dkResponse.getD .empty)

end Processing

/-! ## What is to become of a device -/

section Meaning

variable (olm : Olm) (userId : String)

/-- The keys of an entry, and the one among them that has signed it, when the ids are right. -/
def signedKeys (deviceId : String) (deviceResult : Json) : Option (Json × String) :=
  if Json.isString (deviceResult.get "user_id") userId ∧
      Json.isString (deviceResult.get "device_id") deviceId then
    ((deviceResult.get "keys").filter Json.isTruthy).bind fun keys =>
      match (keys.get ("ed25519:" ++ deviceId)).filter Json.isTruthy with
      | some (.str key) =>
        if verifySignature olm userId deviceResult deviceId (.str key) then some (keys, key)
        else none
      | _ => none
  else none

/-- What the record under an id is to be, by the record before and the entry. -/
def afterwards (deviceId : String) (previous : Option StoredDevice) (entry : Option Json) :
    Option StoredDevice :=
  entry.bind fun deviceResult =>
    match signedKeys olm userId deviceId deviceResult, previous with
    | none, _ => previous
    | some (keys, _), none => some (StoredDevice.new.takeOver deviceResult keys)
    | some (keys, key), some device =>
      if Json.isString (device.getFingerprint deviceId) key then
        some (device.takeOver deviceResult keys)
      else previous

/-- **Each device is treated alone**: the record under an id is `f` of the one before and of the
entry. It is gone with the entry, and it changes only to keys that are signed by themselves and have
the fingerprint there was. -/
def TreatedAlone (f : String → Option StoredDevice → Option Json → Option StoredDevice)
    (stored : StoredDevices) (userResult : JsObject String Json)
    (outcome : Except String (JsObject String StoredDevice)) : Prop :=
  ∃ result, outcome = .ok result ∧ ∀ deviceId,
    result.get deviceId = f deviceId (stored.devices.get deviceId) (userResult.get deviceId) ∧
    (userResult.get deviceId = none → result.get deviceId = none) ∧
    ∀ device, result.get deviceId = some device → stored.devices.get deviceId ≠ some device →
      ∃ entry keys key, userResult.get deviceId = some entry ∧
        signedKeys olm userId deviceId entry = some (keys, key) ∧ device.keys = keys.fields ∧
        device.getFingerprint deviceId = some (.str key) ∧
        ∀ old fingerprint, stored.devices.get deviceId = some old →
          old.getFingerprint deviceId = some fingerprint → fingerprint = .str key

/-- **An ordinary response**: no entry is `null`, no device has the id `hasOwnProperty`, and where
an id is a name that every object has, a device that is stored has an entry, and one that is not
stored has no entry that is accepted. -/
structure Ordinary (stored : StoredDevices) (userResult : JsObject String Json) : Prop where
  callable : stored.devices.get "hasOwnProperty" = none ∧ userResult.get "hasOwnProperty" = none
  notNull : ∀ deviceId, userResult.get deviceId ≠ some .null
  kept : ∀ deviceId ∈ JsObject.inheritedNames, (stored.devices.get deviceId).isSome →
    (userResult.get deviceId).isSome
  notNew : ∀ deviceId ∈ JsObject.inheritedNames, stored.devices.get deviceId = none →
    ∀ entry, userResult.get deviceId = some entry → signedKeys olm userId deviceId entry = none

end Meaning

/-! ## One device -/

variable {olm : Olm} {userId deviceId : String} {deviceResult keys : Json} {key : String}
  {previous : Option StoredDevice}

theorem isString_iff {value : Option Json} {text : String} :
    Json.isString value text ↔ value = some (.str text) := by
  cases value with
  | none => exact iff_of_false Bool.false_ne_true (nomatch ·)
  | some value =>
    cases value with
    | str value =>
      rw [Json.isString, decide_eq_true_iff, Option.some.injEq, Json.str.injEq]
    | _ => exact iff_of_false Bool.false_ne_true (nomatch ·)

/-- What the keys of an entry are, when one has signed it. -/
theorem signedKeys_eq_some (h : signedKeys olm userId deviceId deviceResult = some (keys, key)) :
    deviceResult.get "user_id" = some (.str userId) ∧
      deviceResult.get "device_id" = some (.str deviceId) ∧
      (deviceResult.get "keys").filter Json.isTruthy = some keys ∧
      (keys.get ("ed25519:" ++ deviceId)).filter Json.isTruthy = some (.str key) ∧
      verifySignature olm userId deviceResult deviceId (.str key) = true := by
  rw [signedKeys] at h
  split at h
  next hids =>
    obtain ⟨keys', hkeys, h⟩ := Option.bind_eq_some_iff.1 h
    split at h
    next key' hkey =>
      split at h
      next hverified =>
        obtain ⟨rfl, rfl⟩ := Prod.mk.inj (Option.some.inj h)
        exact ⟨isString_iff.1 hids.1, isString_iff.1 hids.2, hkeys, hkey, hverified⟩
      next => exact nomatch h
    next => exact nomatch h
  next => exact nomatch h

/-- The keys that are taken over have the one that has signed them. -/
theorem getFingerprint_takeOver (device : StoredDevice)
    (h : signedKeys olm userId deviceId deviceResult = some (keys, key)) :
    (device.takeOver deviceResult keys).getFingerprint deviceId = some (.str key) :=
  (Option.filter_eq_some_iff.1 (signedKeys_eq_some h).2.2.2.1).1

/-- Only strings verify. -/
theorem exists_of_verifySignature {signKey : Json}
    (h : verifySignature olm userId deviceResult deviceId signKey = true) :
    ∃ key, signKey = .str key := by
  unfold verifySignature at h
  extract_lets at h
  split at h
  · exact ⟨_, rfl⟩
  · exact nomatch h

/-- **One turn of the loop**, by the keys that have signed the entry. -/
theorem updateStoredDevice_eq (userStore : JsObject String StoredDevice)
    (hnull : deviceResult ≠ .null) :
    updateStoredDevice olm userId userStore (deviceId, deviceResult) =
      match signedKeys olm userId deviceId deviceResult with
      | none => .ok userStore
      | some (keys, key) =>
        match userStore.lookup deviceId with
        | .own device =>
          if Json.isString (device.getFingerprint deviceId) key then
            .ok (userStore.set deviceId (device.takeOver deviceResult keys))
          else .ok userStore
        | .missing =>
          .ok (userStore.set deviceId (StoredDevice.new.takeOver deviceResult keys))
        | .inherited => .error "TypeError" := by
  have hturn : updateStoredDevice olm userId userStore (deviceId, deviceResult) =
      if ¬ Json.isString (deviceResult.get "user_id") userId then .ok userStore
      else if ¬ Json.isString (deviceResult.get "device_id") deviceId then .ok userStore
      else storeDeviceKeys olm userId userStore deviceId deviceResult := by
    cases deviceResult with
    | null => exact absurd rfl hnull
    | _ => rfl
  rw [hturn, signedKeys]
  by_cases huser : Json.isString (deviceResult.get "user_id") userId
  · rw [if_neg (not_not.2 huser)]
    by_cases hdevice : Json.isString (deviceResult.get "device_id") deviceId
    · rw [if_neg (not_not.2 hdevice), if_pos ⟨huser, hdevice⟩, storeDeviceKeys]
      cases (deviceResult.get "keys").filter Json.isTruthy with
      | none => rfl
      | some keys =>
        simp only [Option.bind_some]
        cases hkey : (keys.get ("ed25519:" ++ deviceId)).filter Json.isTruthy with
        | none => rfl
        | some signKey =>
          by_cases hverified : verifySignature olm userId deviceResult deviceId signKey
          · obtain ⟨key, rfl⟩ := exists_of_verifySignature hverified
            simp only [if_pos hverified]
            cases userStore.lookup deviceId with
            | missing => rfl
            | inherited => rfl
            | own device =>
              dsimp only
              cases hfingerprint : device.getFingerprint deviceId with
              | none => rfl
              | some fingerprint =>
                cases fingerprint with
                | str fingerprint =>
                  simp only [Json.isString, decide_eq_true_eq, ne_eq, ite_not]
                | _ => rfl
          · simp only [if_neg hverified]
            cases signKey with
            | str key =>
              dsimp only
              rw [if_neg hverified]
            | _ => rfl
    · rw [if_pos hdevice, if_neg fun hids => hdevice hids.2]
  · rw [if_pos huser, if_neg fun hids => huser hids.1]

/-- What a turn makes of the record of its device, or that it throws. -/
def turn (olm : Olm) (userId deviceId : String) (entry : Json) (previous : Option StoredDevice) :
    Except String (Option StoredDevice) :=
  match entry with
  | .null => .error "TypeError"
  | deviceResult =>
    if (signedKeys olm userId deviceId deviceResult).isSome ∧ previous.isNone ∧
        deviceId ∈ JsObject.inheritedNames then
      .error "TypeError"
    else .ok (afterwards olm userId deviceId previous (some deviceResult))

theorem turn_of_ne_null (hnull : deviceResult ≠ .null) :
    turn olm userId deviceId deviceResult previous =
      if (signedKeys olm userId deviceId deviceResult).isSome ∧ previous.isNone ∧
          deviceId ∈ inheritedNames then
        .error "TypeError"
      else .ok (afterwards olm userId deviceId previous (some deviceResult)) := by
  cases deviceResult with
  | null => exact absurd rfl hnull
  | _ => rfl

/-- The loop does at each device what its turn does. -/
theorem turnsAt : JsObject.TurnsAt (turn olm userId) (updateStoredDevice olm userId) where
  ok := by
    intro userStore deviceId deviceResult v hturn
    have hnull : deviceResult ≠ .null := by
      rintro rfl
      exact nomatch hturn
    rw [turn_of_ne_null hnull] at hturn
    rw [updateStoredDevice_eq userStore hnull]
    split at hturn
    next => exact nomatch hturn
    next hnew =>
      obtain rfl := Except.ok.inj hturn
      rw [afterwards, Option.bind_some]
      cases hsigned : signedKeys olm userId deviceId deviceResult with
      | none => exact ⟨userStore, rfl, rfl, fun _ _ => rfl⟩
      | some signed =>
        cases hget : userStore.get deviceId with
        | none =>
          have hname : deviceId ∉ inheritedNames := fun hcontra =>
            hnew ⟨by rw [hsigned]; rfl, by rw [hget]; rfl, hcontra⟩
          rw [lookup_of_not_inherited hname, hget]
          exact ⟨_, rfl, get_set_self _ _ _, fun _ hne => get_set_ne hne⟩
        | some device =>
          have hlookup : userStore.lookup deviceId = .own device := by
            rw [lookup, hget]
          rw [hlookup]
          dsimp only
          split
          · exact ⟨_, rfl, get_set_self _ _ _, fun _ hne => get_set_ne hne⟩
          · exact ⟨userStore, rfl, hget, fun _ _ => rfl⟩
  error := by
    intro userStore deviceId deviceResult e hturn
    by_cases hnull : deviceResult = .null
    · rw [hnull]
      exact ⟨_, rfl⟩
    · rw [turn_of_ne_null hnull] at hturn
      split at hturn
      next hnew =>
        obtain ⟨hsigned, hnone, hname⟩ := hnew
        obtain ⟨signed, hsigned⟩ := Option.isSome_iff_exists.1 hsigned
        have hlookup : userStore.lookup deviceId = .inherited := by
          rw [lookup, Option.isNone_iff_eq_none.1 hnone]
          exact if_pos hname
        rw [updateStoredDevice_eq userStore hnull, hsigned, hlookup]
        exact ⟨_, rfl⟩
      next => exact nomatch hturn

/-- A turn that does not throw makes what is to become of the device. -/
theorem turn_eq_ok {entry : Json} {v : Option StoredDevice}
    (h : turn olm userId deviceId entry previous = .ok v) :
    v = afterwards olm userId deviceId previous (some entry) := by
  have hnull : entry ≠ .null := by
    rintro rfl
    exact nomatch h
  rw [turn_of_ne_null hnull] at h
  split at h
  · exact nomatch h
  · exact (Except.ok.inj h).symm

theorem turn_ok_iff {entry : Json} :
    (∃ v, turn olm userId deviceId entry previous = .ok v) ↔ entry ≠ .null ∧
      (deviceId ∈ inheritedNames → previous = none →
        signedKeys olm userId deviceId entry = none) := by
  by_cases hnull : entry = .null
  · rw [hnull]
    refine iff_of_false ?_ fun h => h.1 rfl
    rintro ⟨v, hv⟩
    exact nomatch hv
  · rw [turn_of_ne_null hnull, and_iff_right hnull]
    constructor
    · rintro ⟨v, hv⟩ hname hnone
      split at hv
      · exact nomatch hv
      next hnew =>
        by_contra hsigned
        exact hnew ⟨Option.isSome_iff_ne_none.2 hsigned, by rw [hnone]; rfl, hname⟩
    · intro h
      refine ⟨_, if_neg ?_⟩
      rintro ⟨hsigned, hnone, hname⟩
      exact Option.isSome_iff_ne_none.1 hsigned (h hname (Option.isNone_iff_eq_none.1 hnone))

/-! ## The whole response -/

section Response

variable {stored : StoredDevices} {userResult : JsObject String Json}
  {result : JsObject String StoredDevice}

/-- The devices that are in the response have not been removed. -/
theorem get_remaining {entry : Json} (hentry : userResult.get deviceId = some entry) :
    (stored.devices.filter fun id => isIn id userResult).get deviceId =
      stored.devices.get deviceId := by
  rw [get_filter, isIn, hentry]
  rfl

/-- **When the loops do not throw**, and what they make of each device then. -/
theorem updateStoredDeviceKeysForUser_ok_iff :
    (∃ result, updateStoredDeviceKeysForUser olm userId stored.devices userResult = .ok result) ↔
      (stored.devices.get "hasOwnProperty" = none ∧ userResult.get "hasOwnProperty" = none) ∧
        ∀ deviceId entry, userResult.get deviceId = some entry → entry ≠ .null ∧
          (deviceId ∈ inheritedNames → stored.devices.get deviceId = none →
            signedKeys olm userId deviceId entry = none) := by
  have hturns : (∃ result, userResult.entries.foldlM (updateStoredDevice olm userId)
      (stored.devices.filter fun id => isIn id userResult) = .ok result) ↔
        ∀ deviceId entry, userResult.get deviceId = some entry → entry ≠ .null ∧
          (deviceId ∈ inheritedNames → stored.devices.get deviceId = none →
            signedKeys olm userId deviceId entry = none) := by
    rw [turnsAt.exists_foldlM_iff userResult.entries_nodup]
    constructor
    · intro h deviceId entry hentry
      have hturn := h (deviceId, entry) (mem_entries.2 hentry)
      rw [get_remaining hentry, turn_ok_iff] at hturn
      exact hturn
    · rintro h ⟨deviceId, entry⟩ hmem
      have hentry := mem_entries.1 hmem
      rw [get_remaining hentry, turn_ok_iff]
      exact h deviceId entry hentry
  rw [updateStoredDeviceKeysForUser, callHasOwnProperty, callHasOwnProperty, ← hturns]
  cases hstored : stored.devices.get "hasOwnProperty" with
  | some device =>
    refine iff_of_false ?_ fun h => nomatch h.1.1
    rintro ⟨result, hresult⟩
    exact nomatch hresult
  | none =>
    cases hresponse : userResult.get "hasOwnProperty" with
    | some entry =>
      refine iff_of_false ?_ fun h => nomatch h.1.2
      rintro ⟨result, hresult⟩
      exact nomatch hresult
    | none => exact (and_iff_right ⟨rfl, rfl⟩).symm

/-- What the loops have made. -/
theorem get_updateStoredDeviceKeysForUser
    (h : updateStoredDeviceKeysForUser olm userId stored.devices userResult = .ok result)
    (deviceId : String) :
    result.get deviceId =
      match userResult.get deviceId with
      | some entry => afterwards olm userId deviceId (stored.devices.get deviceId) (some entry)
      | none =>
        if deviceId ∈ inheritedNames then stored.devices.get deviceId else none := by
  rw [updateStoredDeviceKeysForUser, callHasOwnProperty, callHasOwnProperty] at h
  split at h
  · exact nomatch h
  · split at h
    · exact nomatch h
    · obtain ⟨hturns, hother⟩ := turnsAt.foldlM_get userResult.entries_nodup h
      cases hentry : userResult.get deviceId with
      | some entry =>
        have hturn := hturns (deviceId, entry) (mem_entries.2 hentry)
        rw [get_remaining hentry] at hturn
        exact turn_eq_ok hturn
      | none =>
        rw [hother deviceId]
        · rw [get_filter, isIn, hentry]
          simp only [Option.isSome_none, Bool.false_or, List.contains_iff_mem]
        · rw [map_fst_entries, ← get_eq_none_iff]
          exact hentry

/-- A device that has changed has keys that are signed, and the fingerprint it had. -/
theorem signed_of_afterwards {previous : Option StoredDevice} {entry : Option Json}
    {device : StoredDevice}
    (h : afterwards olm userId deviceId previous entry = some device)
    (hchanged : previous ≠ some device) :
    ∃ deviceResult keys key, entry = some deviceResult ∧
      signedKeys olm userId deviceId deviceResult = some (keys, key) ∧
      device.keys = keys.fields ∧ device.getFingerprint deviceId = some (.str key) ∧
      ∀ old fingerprint, previous = some old → old.getFingerprint deviceId = some fingerprint →
        fingerprint = .str key := by
  obtain ⟨deviceResult, rfl, hmade⟩ := Option.bind_eq_some_iff.1 h
  cases hsigned : signedKeys olm userId deviceId deviceResult with
  | none =>
    rw [hsigned] at hmade
    exact absurd hmade hchanged
  | some signed =>
    rw [hsigned] at hmade
    refine ⟨deviceResult, signed.1, signed.2, rfl, hsigned, ?_⟩
    cases previous with
    | none =>
      obtain rfl := Option.some.inj hmade
      exact ⟨rfl, getFingerprint_takeOver _ hsigned, fun _ _ hold => nomatch hold⟩
    | some old =>
      dsimp only at hmade
      split at hmade
      next hsame =>
        obtain rfl := Option.some.inj hmade
        refine ⟨rfl, getFingerprint_takeOver _ hsigned, fun old' fingerprint hold hget => ?_⟩
        obtain rfl := Option.some.inj hold
        exact Option.some.inj (hget.symm.trans (isString_iff.1 hsame))
      next => exact absurd hmade hchanged

/-- **What is stored afterwards** is well-formed again. -/
theorem exists_storedDevices
    (h : updateStoredDeviceKeysForUser olm userId stored.devices userResult = .ok result) :
    ∃ stored' : StoredDevices, stored'.devices = result := by
  have hget := get_updateStoredDeviceKeysForUser h
  refine ⟨⟨result, fun deviceId device key hdevice hkey => ?_, ?_⟩, rfl⟩
  · by_cases hchanged : stored.devices.get deviceId = some device
    · exact stored.fingerprint deviceId device key hchanged hkey
    · rw [hget] at hdevice
      split at hdevice
      next entry _ =>
        obtain ⟨-, -, text, -, -, -, htext, -⟩ := signed_of_afterwards hdevice hchanged
        exact ⟨text, Option.some.inj (hkey.symm.trans htext)⟩
      next =>
        split at hdevice
        · exact absurd hdevice hchanged
        · exact nomatch hdevice
  · rw [hget]
    cases hentry : userResult.get "__proto__" with
    | none => rw [stored.noProto, ite_self]
    | some entry =>
      have hunsigned := ((updateStoredDeviceKeysForUser_ok_iff.1 ⟨result, h⟩).2 _ entry
        hentry).2 (by decide) stored.noProto
      dsimp only
      rw [afterwards, Option.bind_some, hunsigned]
      exact stored.noProto

/-- Nothing is stored. -/
def noDevices : StoredDevices := ⟨.empty, fun _ _ _ h => (nomatch h), rfl⟩

end Response

end MatrixSdk.Crypto.DeviceEntries
