/-
`src/crypto/deviceinfo.js`, and the two functions that write to a stored device:
`_storeDeviceKeys` of `DeviceList.js`, which takes over what a `/keys/query`
response says about it, and `setDeviceVerification` of `crypto/index.js`, which
takes over what the user says about it.

Each of them leaves the other's half alone: [`storeDeviceKeys_stored`] for the
response, [`setDeviceVerification_device`] for the user.
-/
import MatrixSdk.Lib.JsObject

set_option autoImplicit false

namespace MatrixSdk.Crypto

open MatrixSdk.Lib

def OLM_ALGORITHM : String := "m.olm.v1.curve25519-aes-sha2"

def MEGOLM_ALGORITHM : String := "m.megolm.v1.aes-sha2"

/-- `DeviceVerification`: 1, 0 and -1 in the source. -/
inductive DeviceVerification
  | verified
  | unverified
  | blocked
  deriving DecidableEq, Repr

/-- What is stored of a device. The id is the key it is stored under, so `fromStorage`
and `toStorage`, which add and drop it, have no counterpart. -/
structure DeviceInfo where
  algorithms : List String
  keys : JsObject String String
  verified : DeviceVerification
  known : Bool
  unsigned : JsObject String String
  signatures : JsObject String (JsObject String String)

/-- What the user, rather than the server, says about a device. -/
structure DeviceStatus where
  verified : DeviceVerification
  known : Bool
  deriving DecidableEq, Repr

namespace DeviceInfo

/-- The constructor. -/
def new : DeviceInfo where
  algorithms := []
  keys := .empty
  verified := .unverified
  known := false
  unsigned := .empty
  signatures := .empty

def getFingerprint (dev : DeviceInfo) (deviceId : String) : Option String :=
  dev.keys.get ("ed25519:" ++ deviceId)

def status (dev : DeviceInfo) : DeviceStatus := ⟨dev.verified, dev.known⟩

end DeviceInfo

/-! ## Taking over a device from a response -/

/-- A device in a `/keys/query` response. -/
structure DeviceKeys where
  userId : String
  deviceId : String
  algorithms : Option (List String)
  keys : Option (JsObject String String)
  unsigned : Option (JsObject String String)
  signatures : Option (JsObject String (JsObject String String))

/-- A string that passes `if (s)`. -/
def truthy (s : Option String) : Option String := s.filter (fun s => s ≠ "")

section StoreDeviceKeys

-- Olm's check of a signature with a key, over the canonical JSON of an object
-- without its `unsigned` and `signatures`
variable (olmVerify : String → DeviceKeys → String → Bool)

/-- `olmlib.verifySignature`: whether it returns without throwing. -/
def verifySignature (obj : DeviceKeys) (signingUserId signingDeviceId signingKey : String) :
    Bool :=
  let userSigs := ((obj.signatures.getD .empty).get signingUserId).getD .empty
  match truthy (userSigs.get ("ed25519:" ++ signingDeviceId)) with
  | none => false
  | some signature => olmVerify signingKey obj signature

/-- The assignments `_storeDeviceKeys` ends with. -/
def DeviceInfo.takeOver (deviceStore : DeviceInfo) (deviceResult : DeviceKeys) : DeviceInfo :=
  { deviceStore with
    keys := deviceResult.keys.getD .empty
    algorithms := deviceResult.algorithms.getD []
    unsigned := deviceResult.unsigned.getD .empty
    signatures := deviceResult.signatures.getD .empty }

/-- `_storeDeviceKeys`, as what it makes of `userStore`. -/
def storeDeviceKeys (userStore : JsObject String DeviceInfo) (deviceResult : DeviceKeys) :
    JsObject String DeviceInfo :=
  match deviceResult.keys with
  | none => userStore
  | some keys =>
    let deviceId := deviceResult.deviceId
    match truthy (keys.get ("ed25519:" ++ deviceId)) with
    | none => userStore
    | some signKey =>
      if verifySignature olmVerify deviceResult deviceResult.userId deviceId signKey then
        match userStore.get deviceId with
        | some deviceStore =>
          -- "we are best off sticking with the original keys"
          if deviceStore.getFingerprint deviceId ≠ some signKey then userStore
          else userStore.set deviceId (deviceStore.takeOver deviceResult)
        | none => userStore.set deviceId (DeviceInfo.new.takeOver deviceResult)
      else userStore

theorem truthy_eq_some {s : Option String} {t : String} (h : truthy s = some t) : s = some t :=
  (Option.filter_eq_some_iff.1 h).1

/-- Either nothing changes, or the device in the response is stored, over a device
with the same fingerprint or as a new one. -/
theorem storeDeviceKeys_cases (userStore : JsObject String DeviceInfo)
    (deviceResult : DeviceKeys) :
    storeDeviceKeys olmVerify userStore deviceResult = userStore ∨
      ∃ dev, storeDeviceKeys olmVerify userStore deviceResult =
          userStore.set deviceResult.deviceId (dev.takeOver deviceResult) ∧
        (userStore.get deviceResult.deviceId = none ∧ dev = .new ∨
          userStore.get deviceResult.deviceId = some dev ∧
            (dev.takeOver deviceResult).getFingerprint deviceResult.deviceId =
              dev.getFingerprint deviceResult.deviceId) := by
  unfold storeDeviceKeys
  split
  · exact .inl rfl
  next keys hkeys =>
    dsimp only
    split
    · exact .inl rfl
    next signKey hsign =>
      have hkey := truthy_eq_some hsign
      split
      · split
        next dev hdev =>
          split
          · exact .inl rfl
          next hfp =>
            refine .inr ⟨dev, rfl, .inr ⟨hdev, ?_⟩⟩
            rw [not_not.1 hfp, DeviceInfo.getFingerprint, DeviceInfo.takeOver, hkeys]
            exact hkey
        next hnone => exact .inr ⟨.new, rfl, .inl ⟨hnone, rfl⟩⟩
      · exact .inl rfl

/-- A response changes neither the status nor the fingerprint of a device that is
stored, and takes no device away. -/
theorem storeDeviceKeys_stored {userStore : JsObject String DeviceInfo}
    (deviceResult : DeviceKeys) {d : String} {dev : DeviceInfo} (h : userStore.get d = some dev) :
    ∃ dev', (storeDeviceKeys olmVerify userStore deviceResult).get d = some dev' ∧
      dev'.status = dev.status ∧ dev'.getFingerprint d = dev.getFingerprint d := by
  rcases storeDeviceKeys_cases olmVerify userStore deviceResult with heq | ⟨dev₁, heq, hdev₁⟩
  · exact ⟨dev, by rw [heq, h], rfl, rfl⟩
  · by_cases hd : d = deviceResult.deviceId
    · subst hd
      rw [heq, JsObject.get_set_self]
      rcases hdev₁ with ⟨hnone, _⟩ | ⟨hsome, hfp⟩
      · rw [h] at hnone
        exact absurd hnone (by simp)
      · obtain rfl : dev = dev₁ := by simpa [h] using hsome
        exact ⟨_, rfl, rfl, hfp⟩
    · exact ⟨dev, by rw [heq, JsObject.get_set_ne hd, h], rfl, rfl⟩

/-- Only the id of the device in the response can be new. -/
theorem storeDeviceKeys_ne (userStore : JsObject String DeviceInfo) {deviceResult : DeviceKeys}
    {d : String} (hd : d ≠ deviceResult.deviceId) :
    (storeDeviceKeys olmVerify userStore deviceResult).get d = userStore.get d := by
  rcases storeDeviceKeys_cases olmVerify userStore deviceResult with heq | ⟨dev, heq, _⟩
  · rw [heq]
  · rw [heq, JsObject.get_set_ne hd]

end StoreDeviceKeys

/-! ## Taking over what the user says -/

/-- The status `setDeviceVerification` computes; `none` stands for `null`. -/
def verificationStatus (verified blocked : Option Bool) (current : DeviceVerification) :
    DeviceVerification :=
  let afterVerified :=
    match verified with
    | some true => .verified
    | some false => if current = .verified then .unverified else current
    | none => current
  match blocked with
  | some true => .blocked
  | some false => if afterVerified = .blocked then .unverified else afterVerified
  | none => afterVerified

/-- What a call of `setDeviceVerification` marked. -/
inductive Marked
  /-- The id was that of the user's cross-signing keys. -/
  | crossSigningKey
  /-- The id was that of a device, which is now stored like this. -/
  | device (dev : DeviceInfo)

/-- `setDeviceVerification` up to the uploads. `xskId` is the id of the stored cross-signing
keys of the user, `devices` his stored devices. -/
def setDeviceVerification (xskId : Option String) (devices : JsObject String DeviceInfo)
    (userId deviceId : String) (verified blocked known : Option Bool) : Except String Marked :=
  if xskId = some deviceId then
    if blocked ≠ none ∨ known ≠ none then
      .error "Cannot set blocked or known for a cross-signing key"
    else if verified ≠ some true then
      .error "Cannot set a cross-signing key as unverified"
    else .ok .crossSigningKey
  else
    match devices.get deviceId with
    | none => .error ("Unknown device " ++ userId ++ ":" ++ deviceId)
    | some dev => .ok (.device { dev with
        verified := verificationStatus verified blocked dev.verified
        known := known.getD dev.known })

/-- Only the status of a stored device changes. -/
theorem setDeviceVerification_device {xskId : Option String} {devices : JsObject String DeviceInfo}
    {userId deviceId : String} {verified blocked known : Option Bool} {dev : DeviceInfo}
    (h : setDeviceVerification xskId devices userId deviceId verified blocked known =
      .ok (.device dev)) :
    ∃ dev₀, devices.get deviceId = some dev₀ ∧ dev.keys = dev₀.keys ∧
      dev.status = ⟨verificationStatus verified blocked dev₀.verified, known.getD dev₀.known⟩ := by
  unfold setDeviceVerification at h
  split at h
  · split at h
    · exact absurd h (by simp)
    · split at h <;> exact absurd h (by simp)
  · split at h
    · exact absurd h (by simp)
    next dev₀ hdev₀ =>
      simp only [Except.ok.injEq, Marked.device.injEq] at h
      subst h
      exact ⟨dev₀, hdev₀, rfl, rfl⟩

end MatrixSdk.Crypto
