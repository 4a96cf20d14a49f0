/-
Verifying the keys of a user: `_verifyKeys` of `crypto/verification/Base.js`, with the callbacks
that `SAS.js` and `QRCode.js` give it and the calls of `setDeviceVerified` that it ends with.

What is verified goes by the id of a device, and the id of a user's master key is one
too. `_verifyKeys` looks an id up twice: for the callback, where a device comes before the master
key, and, when all keys have been checked, in `setDeviceVerification`, where the master
key comes first. In between the device list may have changed.
-/
import MatrixSdk.Crypto.DeviceInfo
import MatrixSdk.Lib.System
import Mathlib.Data.List.Lex
import Mathlib.Data.List.Sort

set_option autoImplicit false

namespace MatrixSdk.Crypto

open MatrixSdk.Lib

/-! ## The keys of a user -/

/-- A device that is stored has a key of its own. -/
def DeviceInfo.HasFingerprint (dev : DeviceInfo) (deviceId : String) : Prop :=
  (truthy (dev.getFingerprint deviceId)).isSome

/-- What the device list has of a user: his devices, and the first of the keys of his master key,
if there is one. A device is stored with a key of its own ([`storeDeviceKeys_hasFingerprint`]). -/
structure UserKeys where
  devices : JsObject String DeviceInfo
  masterKey : Option (Option String)
  hasFingerprint : ∀ d dev, devices.get d = some dev → dev.HasFingerprint d

/-- An id as the name of a property. -/
def propertyName (deviceId : Option String) : String := deviceId.getD "undefined"

namespace UserKeys

variable (list : UserKeys)

def getStoredDevice (deviceId : Option String) : Option DeviceInfo :=
  list.devices.get (propertyName deviceId)

/-- The status of a device changes. -/
def setStatus (id : String) (status : DeviceStatus) : UserKeys where
  devices := list.devices.map fun d dev =>
    if d = id then { dev with verified := status.verified, known := status.known } else dev
  masterKey := list.masterKey
  hasFingerprint d dev h := by
    obtain ⟨dev₀, hdev₀, rfl⟩ := Option.map_eq_some_iff.1 h
    have hfp : dev₀.HasFingerprint d := list.hasFingerprint d dev₀ hdev₀
    dsimp only
    split
    · exact hfp
    · exact hfp

/-- `client.setDeviceVerified`, up to the signatures. -/
def setDeviceVerified (userId : String) (deviceId : Option String) : Except String Marked :=
  let id := propertyName deviceId
  let xskId := if list.masterKey = some deviceId then some id else none
  setDeviceVerification xskId list.devices userId id (some true) none none

end UserKeys

/-- A device list that responses make has fingerprints. -/
theorem storeDeviceKeys_hasFingerprint (olmVerify : String → DeviceKeys → String → Bool)
    {userStore : JsObject String DeviceInfo} (deviceResult : DeviceKeys)
    (h : ∀ d dev, userStore.get d = some dev → dev.HasFingerprint d) (d : String)
    (dev : DeviceInfo) (hdev : (storeDeviceKeys olmVerify userStore deviceResult).get d = some dev) :
    dev.HasFingerprint d := by
  by_cases hd : d = deviceResult.deviceId
  · subst hd
    unfold storeDeviceKeys at hdev
    split at hdev
    · exact h _ dev hdev
    next keys hkeys =>
      dsimp only at hdev
      split at hdev
      · exact h _ dev hdev
      next signKey hsign =>
        -- what is stored has the keys of the response, `signKey` among them
        have htakeOver : ∀ dev₀ : DeviceInfo,
            (dev₀.takeOver deviceResult).HasFingerprint deviceResult.deviceId := by
          intro dev₀
          have hkey : (dev₀.takeOver deviceResult).getFingerprint deviceResult.deviceId =
              keys.get ("ed25519:" ++ deviceResult.deviceId) := by
            rw [DeviceInfo.getFingerprint, DeviceInfo.takeOver, hkeys, Option.getD_some]
          rw [DeviceInfo.HasFingerprint, hkey, hsign, Option.isSome_some]
        have hset : ∀ {dev₀ : DeviceInfo},
            (userStore.set deviceResult.deviceId (dev₀.takeOver deviceResult)).get
              deviceResult.deviceId = some dev → dev.HasFingerprint deviceResult.deviceId := by
          intro dev₀ heq
          rw [JsObject.get_set_self] at heq
          exact Option.some.inj heq ▸ htakeOver dev₀
        split at hdev
        · split at hdev
          · split at hdev
            · exact h _ dev hdev
            · exact hset hdev
          · exact hset hdev
        · exact h _ dev hdev
  · rw [storeDeviceKeys_ne olmVerify userStore hd] at hdev
    exact h d dev hdev

/-! ## The callbacks -/

/-- The two parties to a verification, and its transaction. -/
structure Parties where
  userId : String
  deviceId : String
  ownUserId : String
  ownDeviceId : String
  transactionId : String

def Parties.baseInfo (parties : Parties) : String :=
  "MATRIX_KEY_VERIFICATION_MAC" ++ parties.userId ++ parties.deviceId ++
    parties.ownUserId ++ parties.ownDeviceId ++ parties.transactionId

/-- The code units that strings are sorted by. -/
def utf16 (s : String) : List ℕ :=
  s.toList.flatMap fun c =>
    if c.toNat < 0x10000 then [c.toNat]
    else [0xd800 + (c.toNat - 0x10000) / 0x400, 0xdc00 + (c.toNat - 0x10000) % 0x400]

/-- The content of "m.key.verification.mac". -/
structure MacContent where
  mac : Option (JsObject String String)
  keys : Option String

/-- `QRCodeData`: the mode, with the key that is set in it. -/
inductive QRMode
  | verifyOtherUser (otherUserMasterKey : String)
  | verifySelfTrusted (otherDeviceKey : String)
  | verifySelfUntrusted (myMasterKey : String)

/-- How keys are verified. The MAC is that of the library, which makes a string of its input. -/
inductive Method
  | sas (calculateMAC : Option String → String → String) (content : MacContent)
  /-- `secret` is that of the start event, `targetDeviceId` is `request.targetDevice.deviceId`. -/
  | reciprocate (mode : QRMode) (encodedSharedSecret : String) (secret : Option String)
      (confirmed : Bool) (targetDeviceId : String)

/-- `_checkMAC`, before it calls `_verifyKeys`. -/
def checkMAC (calculateMAC : Option String → String → String) (baseInfo : String)
    (content : MacContent) : Except String (JsObject String String) :=
  match content.mac with
  | none => .error "TypeError"
  | some mac =>
    let keyIds := mac.keys.insertionSort fun a b => utf16 a ≤ utf16 b
    if content.keys ≠ some (calculateMAC (some (",".intercalate keyIds)) (baseInfo ++ "KEY_IDS")) then
      .error "m.key_mismatch"
    else .ok mac

/-- "3. determine key to sign / mark as trusted" -/
def QRMode.keys (mode : QRMode) (targetDeviceId : String) : JsObject String String :=
  match mode with
  | .verifyOtherUser masterKey => JsObject.empty.set ("ed25519:" ++ masterKey) masterKey
  | .verifySelfTrusted otherDeviceKey =>
    JsObject.empty.set ("ed25519:" ++ targetDeviceId) otherDeviceKey
  | .verifySelfUntrusted masterKey => JsObject.empty.set ("ed25519:" ++ masterKey) masterKey

/-- The keys that `_verifyKeys` is called with, if it is. -/
def Method.keys (method : Method) (parties : Parties) : Except String (JsObject String String) :=
  match method with
  | .sas calculateMAC content => checkMAC calculateMAC parties.baseInfo content
  | .reciprocate mode encodedSharedSecret secret confirmed targetDeviceId =>
    if secret ≠ some encodedSharedSecret then .error "m.key_mismatch"
    else if confirmed then .ok (mode.keys targetDeviceId)
    else .error "m.user"

def isEd25519 (deviceKeyId : String) : Bool := "ed25519".toList.isPrefixOf deviceKeyId.toList

/-- The callback of `_checkMAC`: the values it has checked, if it does not throw. -/
def sasVerifier (calculateMAC : Option String → String → String) (baseInfo keyId : String)
    (device : DeviceInfo) (keyInfo : String) : Except String (List (Option String)) :=
  let key := device.keys.get keyId
  if keyInfo ≠ calculateMAC key (baseInfo ++ keyId) then .error "m.key_mismatch" else .ok [key]

/-- The callback of `ReciprocateQRCode`: the values it has checked, if it does not throw. -/
def qrVerifier (keys : JsObject String String) (keyId : String) (device : DeviceInfo)
    (keyInfo : String) : Except String (List (Option String)) :=
  match truthy (keys.get keyId) with
  | none => .error "m.key_mismatch"
  | some targetKey =>
    if keyInfo ≠ targetKey then .error "m.key_mismatch"
    else
      let deviceKeyIds := device.keys.keys.filter isEd25519
      if deviceKeyIds.all fun deviceKeyId =>
          (truthy (keys.get deviceKeyId)).isSome ∧
            device.keys.get deviceKeyId = truthy (keys.get deviceKeyId) then
        .ok (deviceKeyIds.map device.keys.get)
      else .error "m.key_mismatch"

def Method.verifier (method : Method) (parties : Parties) :
    String → DeviceInfo → String → Except String (List (Option String)) :=
  match method with
  | .sas calculateMAC _ => sasVerifier calculateMAC parties.baseInfo
  | .reciprocate mode _ _ _ targetDeviceId => qrVerifier (mode.keys targetDeviceId)

/-! ## Verifying keys -/

/-- `keyId.split(':', 2)[1]`. -/
def splitDeviceId (keyId : String) : Option String :=
  match keyId.toList.dropWhile (· ≠ ':') with
  | [] => none
  | _ :: rest => some (String.ofList (rest.takeWhile (· ≠ ':')))

/-- An id in `verifiedDevices`, with the key id that it is from and the device, if it was one, that
the callback got. -/
structure VerifiedDevice where
  keyId : String
  device : Option DeviceInfo

def VerifiedDevice.deviceId (verified : VerifiedDevice) : Option String :=
  splitDeviceId verified.keyId

/-- Where `_verifyKeys` is. -/
inductive VerifyPhase
  /-- These keys are still to be checked. -/
  | checking (keys : List (String × String)) (verifiedDevices : List VerifiedDevice)
  /-- These devices are still to be marked. -/
  | marking (verifiedDevices : List VerifiedDevice)
  | failed (error : String)

/-- A key that has been marked: that of a device, or a master key. -/
inductive Mark
  | device (deviceId : Option String) (fingerprint : Option String)
  | masterKey (key : Option String)
  deriving DecidableEq

def Mark.key : Mark → Option String
  | .device _ fingerprint => fingerprint
  | .masterKey key => key

namespace VerifyPhase

def keys : VerifyPhase → List (String × String)
  | .checking keys _ => keys
  | _ => []

def verifiedDevices : VerifyPhase → List VerifiedDevice
  | .checking _ verifiedDevices => verifiedDevices
  | .marking verifiedDevices => verifiedDevices
  | .failed _ => []

/-- The device that is marked next. -/
def nextMarked : VerifyPhase → Option VerifiedDevice
  | .marking verifiedDevices => verifiedDevices.head?
  | _ => none

end VerifyPhase

/-- The run of `_verifyKeys`. `checked` are the values that the callback has checked, `marked` the
keys that have been marked. -/
structure VerifyState where
  list : UserKeys
  /-- We trust a master key of our own. -/
  ownMasterKey : Bool
  ownUserSigningKey : Bool
  phase : VerifyPhase
  checked : List (Option String)
  marked : List Mark

/-- `DeviceInfo.fromStorage({ keys: { [keyId]: deviceId } }, deviceId)` -/
def masterKeyAsDevice (keyId : String) (deviceId : Option String) : DeviceInfo :=
  { DeviceInfo.new with keys := deviceId.elim .empty (JsObject.empty.set keyId) }

/-- The body of the loop over the keys. -/
def VerifyState.verifyKey (s : VerifyState)
    (verifier : String → DeviceInfo → String → Except String (List (Option String)))
    (keyId keyInfo : String) (keys : List (String × String))
    (verifiedDevices : List VerifiedDevice) : VerifyState :=
  let deviceId := splitDeviceId keyId
  let called (device : Option DeviceInfo) : VerifyState :=
    match verifier keyId (device.getD (masterKeyAsDevice keyId deviceId)) keyInfo with
    | .error e => { s with phase := .failed e }
    | .ok values => { s with
        phase := .checking keys (verifiedDevices ++ [⟨keyId, device⟩])
        checked := s.checked ++ values }
  match s.list.getStoredDevice deviceId with
  | some device => called (some device)
  | none =>
    if s.list.masterKey = some deviceId then called none
    -- "Could not find device to verify"
    else { s with phase := .checking keys verifiedDevices }

/-- `await setDeviceVerified(userId, deviceId)`. When something is to be signed, `signs` says
whether the private key is there, `uploads` whether the upload succeeds. -/
def VerifyState.mark (s : VerifyState) (parties : Parties) (signs uploads : Bool)
    (deviceId : Option String) (verifiedDevices : List VerifiedDevice) : VerifyState :=
  let s := { s with phase := .marking verifiedDevices }
  let isOwn := parties.userId = parties.ownUserId
  match s.list.setDeviceVerified parties.userId deviceId with
  | .error e => { s with phase := .failed e }
  | .ok .crossSigningKey =>
    let mark := Mark.masterKey deviceId
    if isOwn then
      -- `_storeTrustedSelfKeys`
      if s.ownMasterKey then s
      else { s with ownMasterKey := true, marked := s.marked ++ [mark] }
    else if s.ownUserSigningKey then
      if signs then
        let s := { s with marked := s.marked ++ [mark] }
        if uploads then s else { s with phase := .failed "Key upload failed" }
      else { s with phase := .failed "signUser" }
    else s
  | .ok (.device dev) =>
    let id := propertyName deviceId
    let s := { s with
      list := s.list.setStatus id dev.status
      marked := s.marked ++ [.device deviceId (dev.getFingerprint id)] }
    if isOwn ∧ !(signs && uploads) then { s with phase := .failed "signDevice" } else s

inductive VerifyStep
  /-- The device list of the user changes. -/
  | changeList (list : UserKeys)
  /-- Our own cross-signing keys change. -/
  | changeOwnKeys (masterKey userSigningKey : Bool)
  /-- The loop over the keys goes on, or ends. -/
  | verifyKey
  /-- The loop over `verifiedDevices` goes on. -/
  | mark (signs uploads : Bool)

def verifySystem (parties : Parties) (method : Method) (list : UserKeys) :
    System VerifyState VerifyStep where
  init :=
    { list := list, ownMasterKey := false, ownUserSigningKey := false
      phase := match method.keys parties with
        | .ok keys => .checking (keys.keys.filterMap fun keyId =>
          (keys.get keyId).map fun keyInfo => (keyId, keyInfo)) []
        | .error e => .failed e
      checked := [], marked := [] }
  step s
    | .changeList list => some { s with list := list }
    | .changeOwnKeys masterKey userSigningKey =>
      some { s with ownMasterKey := masterKey, ownUserSigningKey := userSigningKey }
    | .verifyKey =>
      match s.phase with
      | .checking ((keyId, keyInfo) :: keys) verifiedDevices =>
        some (s.verifyKey (method.verifier parties) keyId keyInfo keys verifiedDevices)
      | .checking [] [] => some { s with phase := .failed "No devices could be verified" }
      | .checking [] verifiedDevices => some { s with phase := .marking verifiedDevices }
      | _ => none
    | .mark signs uploads =>
      match s.phase with
      | .marking (verified :: verifiedDevices) =>
        some (s.mark parties signs uploads verified.deviceId verifiedDevices)
      | _ => none

/-! ## What is looked up under an id -/

/-- The key that is marked under an id: of the master key, or else of a device. -/
def UserKeys.keyUnder (list : UserKeys) (deviceId : Option String) : Option (Option String) :=
  if list.masterKey = some deviceId then some deviceId
  else (list.getStoredDevice deviceId).map fun dev => dev.getFingerprint (propertyName deviceId)

/-- The key that was looked up for the callback. -/
def VerifiedDevice.key (verified : VerifiedDevice) : Option String :=
  match verified.device with
  | some dev => dev.getFingerprint (propertyName verified.deviceId)
  | none => verified.deviceId

variable {list : UserKeys} {keyId keyInfo : String} {keys : JsObject String String}

theorem setDeviceVerified_crossSigningKey {userId : String} {deviceId : Option String}
    (h : list.setDeviceVerified userId deviceId = .ok .crossSigningKey) :
    list.keyUnder deviceId = some deviceId := by
  by_cases hmaster : list.masterKey = some deviceId
  · rw [UserKeys.keyUnder, if_pos hmaster]
  · simp only [UserKeys.setDeviceVerified, if_neg hmaster, setDeviceVerification, reduceCtorEq,
      if_false] at h
    split at h
    · cases h
    · cases h

theorem setDeviceVerified_device {userId : String} {deviceId : Option String} {dev : DeviceInfo}
    (h : list.setDeviceVerified userId deviceId = .ok (.device dev)) :
    list.keyUnder deviceId = some (dev.getFingerprint (propertyName deviceId)) := by
  obtain ⟨dev₀, hdev₀, hkeys, -⟩ := setDeviceVerification_device h
  have hmaster : list.masterKey ≠ some deviceId := by
    intro hmaster
    simp only [UserKeys.setDeviceVerified, if_pos hmaster, setDeviceVerification] at h
    cases h
  rw [UserKeys.keyUnder, if_neg hmaster, UserKeys.getStoredDevice, hdev₀, Option.map_some,
    DeviceInfo.getFingerprint, DeviceInfo.getFingerprint, hkeys]

/-! ## What the callbacks check -/

theorem isEd25519_append (id : String) : isEd25519 ("ed25519:" ++ id) = true := by
  simp [isEd25519]

theorem splitDeviceId_append (id : String) : ∃ d, splitDeviceId ("ed25519:" ++ id) = some d := by
  simp [splitDeviceId]

theorem QRMode.keys_get {mode : QRMode} {targetDeviceId : String}
    (h : (mode.keys targetDeviceId).get keyId = some keyInfo) : ∃ id, keyId = "ed25519:" ++ id := by
  have hset : ∀ {id value : String},
      ((JsObject.empty : JsObject String String).set ("ed25519:" ++ id) value).get keyId =
        some keyInfo → ∃ id, keyId = "ed25519:" ++ id := by
    intro id value hget
    rw [JsObject.get_set] at hget
    split_ifs at hget with hid
    · exact ⟨id, hid⟩
    · cases hget
  cases mode with
  | verifyOtherUser masterKey => exact hset h
  | verifySelfTrusted otherDeviceKey => exact hset h
  | verifySelfUntrusted masterKey => exact hset h

/-- The value that the callback of a method checks when it gets a device. -/
def Method.checkedKey (method : Method) (verified : VerifiedDevice) : Option String :=
  match method, verified.device with
  | .sas _ _, some dev => dev.keys.get verified.keyId
  | .reciprocate .., some dev => dev.getFingerprint (propertyName verified.deviceId)
  | _, none => verified.deviceId

variable {values : List (Option String)}

theorem sasVerifier_checked {calculateMAC : Option String → String → String} {baseInfo : String}
    {device : DeviceInfo}
    (h : sasVerifier calculateMAC baseInfo keyId device keyInfo = .ok values) :
    device.keys.get keyId ∈ values := by
  unfold sasVerifier at h
  dsimp only at h
  split_ifs at h
  obtain rfl := Except.ok.inj h
  exact List.mem_singleton_self _

/-- All ed25519 keys of the device are checked. -/
theorem qrVerifier_checked {device : DeviceInfo}
    (h : qrVerifier keys keyId device keyInfo = .ok values) {deviceKeyId : String}
    (hmem : deviceKeyId ∈ device.keys.keys) (hed : isEd25519 deviceKeyId = true) :
    device.keys.get deviceKeyId ∈ values := by
  unfold qrVerifier at h
  split at h
  · cases h
  · dsimp only at h
    split_ifs at h
    obtain rfl := Except.ok.inj h
    exact List.mem_map_of_mem (List.mem_filter.2 ⟨hmem, hed⟩)

theorem masterKeyAsDevice_get (keyId : String) (deviceId : Option String) :
    (masterKeyAsDevice keyId deviceId).keys.get keyId = deviceId := by
  cases deviceId with
  | none => rfl
  | some id => exact JsObject.get_set_self _ keyId id

/-- The callback checks the value under the key id for SAS, the fingerprint for a QR code, and
the master key when the id is not that of a device. -/
theorem Method.verifier_checked {method : Method} {parties : Parties} {device : Option DeviceInfo}
    (hkeys : method.keys parties = .ok keys) (hkey : keys.get keyId = some keyInfo)
    (hdevice : ∀ dev ∈ device, list.getStoredDevice (splitDeviceId keyId) = some dev)
    (h : method.verifier parties keyId
      (device.getD (masterKeyAsDevice keyId (splitDeviceId keyId))) keyInfo = .ok values) :
    method.checkedKey ⟨keyId, device⟩ ∈ values := by
  cases method with
  | sas calculateMAC content =>
    have hmem := sasVerifier_checked h
    cases device with
    | some dev => exact hmem
    | none =>
      rw [Option.getD_none, masterKeyAsDevice_get] at hmem
      exact hmem
  | reciprocate mode encodedSharedSecret secret confirmed targetDeviceId =>
    obtain ⟨id, rfl⟩ : ∃ id, keyId = "ed25519:" ++ id := by
      simp only [Method.keys] at hkeys
      split_ifs at hkeys
      obtain rfl := Except.ok.inj hkeys
      exact QRMode.keys_get hkey
    cases device with
    | some dev =>
      -- the own key of a stored device is an ed25519 key
      have hfp : dev.HasFingerprint _ := list.hasFingerprint _ dev (hdevice dev rfl)
      obtain ⟨key, hkey⟩ := Option.isSome_iff_exists.1 hfp
      exact qrVerifier_checked h (JsObject.mem_keys_of_get (truthy_eq_some hkey))
        (isEd25519_append _)
    | none =>
      obtain ⟨d, hd⟩ := splitDeviceId_append id
      have hget := masterKeyAsDevice_get ("ed25519:" ++ id) (some d)
      rw [Option.getD_none, hd] at h
      have hmem := qrVerifier_checked h (JsObject.mem_keys_of_get hget) (isEd25519_append id)
      rw [hget] at hmem
      change splitDeviceId ("ed25519:" ++ id) ∈ values
      rw [hd]
      exact hmem

/-! ## Marked keys have been checked -/

/-- For SAS, the key id that a device is verified under is that of its own ed25519 key. -/
def Method.OwnKeyId (method : Method) (verified : VerifiedDevice) : Prop :=
  match method, verified.device with
  | .sas _ _, some _ => verified.keyId = "ed25519:" ++ propertyName verified.deviceId
  | _, _ => True

/-- The key that is marked, if one is, is the one that was looked up under the id for the callback,
by its own key id. -/
def MarksKeyLookedUp (method : Method) (s : VerifyState) : VerifyStep → Prop
  | .mark _ _ => ∀ verified ∈ s.phase.nextMarked, ∀ key ∈ s.list.keyUnder verified.deviceId,
      key = verified.key ∧ method.OwnKeyId verified
  | _ => True

theorem Method.OwnKeyId.checkedKey {method : Method} {verified : VerifiedDevice}
    (h : method.OwnKeyId verified) : method.checkedKey verified = verified.key := by
  obtain ⟨keyId, device⟩ := verified
  cases method with
  | sas calculateMAC content =>
    cases device with
    | none => rfl
    | some dev => exact congrArg dev.keys.get h
  | reciprocate mode encodedSharedSecret secret confirmed targetDeviceId =>
    cases device with
    | none => rfl
    | some dev => rfl

/-- What holds along a run: the keys left are those of the method, and what has been verified, or
marked, has been checked. -/
structure VerifyState.Checked (parties : Parties) (method : Method) (s : VerifyState) : Prop where
  keys : ∀ key ∈ s.phase.keys,
    ∃ keys, method.keys parties = .ok keys ∧ keys.get key.1 = some key.2
  verified : ∀ verified ∈ s.phase.verifiedDevices, method.checkedKey verified ∈ s.checked
  marked : ∀ mark ∈ s.marked, mark.key ∈ s.checked

namespace VerifyState.Checked

variable {parties : Parties} {method : Method} {s : VerifyState}

theorem failed (h : s.Checked parties method) (e : String) :
    ({ s with phase := .failed e } : VerifyState).Checked parties method :=
  ⟨fun _ hmem => absurd hmem List.not_mem_nil, fun _ hmem => absurd hmem List.not_mem_nil, h.marked⟩

theorem verifyKey (h : s.Checked parties method) {keyId keyInfo : String}
    {keys : List (String × String)} {verifiedDevices : List VerifiedDevice}
    (hphase : s.phase = .checking ((keyId, keyInfo) :: keys) verifiedDevices) :
    (s.verifyKey (method.verifier parties) keyId keyInfo keys verifiedDevices).Checked
      parties method := by
  obtain ⟨hkeys, hverified, hmarked⟩ := h
  rw [hphase] at hkeys hverified
  have hleft := fun key hmem => hkeys key (List.mem_cons_of_mem _ hmem)
  obtain ⟨all, hall, hget⟩ := hkeys _ List.mem_cons_self
  unfold VerifyState.verifyKey
  dsimp only
  -- a key that the callback is called for
  have hcalled : ∀ device : Option DeviceInfo,
      (∀ dev ∈ device, s.list.getStoredDevice (splitDeviceId keyId) = some dev) →
      VerifyState.Checked parties method
        (match method.verifier parties keyId
            (device.getD (masterKeyAsDevice keyId (splitDeviceId keyId))) keyInfo with
          | .error e => { s with phase := .failed e }
          | .ok values => { s with
              phase := .checking keys (verifiedDevices ++ [⟨keyId, device⟩])
              checked := s.checked ++ values }) := by
    intro device hdevice
    split
    · exact ⟨fun _ hmem => absurd hmem List.not_mem_nil,
        fun _ hmem => absurd hmem List.not_mem_nil, hmarked⟩
    next values hvalues =>
      refine ⟨hleft, fun verified hmem => ?_, fun mark hmem =>
        List.mem_append_left _ (hmarked mark hmem)⟩
      rcases List.mem_append.1 hmem with hmem | hmem
      · exact List.mem_append_left _ (hverified verified hmem)
      · rw [List.mem_singleton.1 hmem]
        exact List.mem_append_right _ (Method.verifier_checked hall hget hdevice hvalues)
  split
  next device hdevice =>
    refine hcalled (some device) fun dev hmem => ?_
    rw [hdevice, ← Option.mem_def.1 hmem]
  · split_ifs
    · exact hcalled none fun dev hmem => absurd hmem (Option.not_mem_none dev)
    · exact ⟨hleft, hverified, hmarked⟩

/-- To mark a device that is verified marks a key that has been checked, if it is the one that
was looked up. -/
theorem mark (h : s.Checked parties method) {verified : VerifiedDevice}
    {verifiedDevices : List VerifiedDevice}
    (hphase : s.phase = .marking (verified :: verifiedDevices))
    (hkey : ∀ key ∈ s.list.keyUnder verified.deviceId,
      key = verified.key ∧ method.OwnKeyId verified) (signs uploads : Bool) :
    (s.mark parties signs uploads verified.deviceId verifiedDevices).Checked parties method := by
  obtain ⟨-, hverified, hmarked⟩ := h
  rw [hphase] at hverified
  have hchecked : ∀ key ∈ s.list.keyUnder verified.deviceId, key ∈ s.checked := by
    intro key hmem
    obtain ⟨rfl, hown⟩ := hkey key hmem
    rw [← hown.checkedKey]
    exact hverified verified List.mem_cons_self
  have hleft := fun verified hmem => hverified verified (List.mem_cons_of_mem _ hmem)
  have hmarked' : ∀ key : Mark, s.list.keyUnder verified.deviceId = some key.key →
      ∀ mark ∈ s.marked ++ [key], mark.key ∈ s.checked := by
    intro key hunder mark hmem
    rcases List.mem_append.1 hmem with hmem | hmem
    · exact hmarked mark hmem
    · rw [List.mem_singleton.1 hmem]
      exact hchecked key.key hunder
  have hnone : ∀ key ∈ ([] : List (String × String)),
      ∃ keys, method.keys parties = .ok keys ∧ keys.get key.1 = some key.2 :=
    fun _ hmem => absurd hmem List.not_mem_nil
  have hnone' : ∀ verified ∈ ([] : List VerifiedDevice), method.checkedKey verified ∈ s.checked :=
    fun _ hmem => absurd hmem List.not_mem_nil
  unfold VerifyState.mark
  dsimp only
  split
  · exact ⟨hnone, hnone', hmarked⟩
  next hmaster =>
    have hnew := hmarked' (.masterKey verified.deviceId)
      (setDeviceVerified_crossSigningKey hmaster)
    split_ifs
    · exact ⟨hnone, hleft, hmarked⟩
    · exact ⟨hnone, hleft, hnew⟩
    · exact ⟨hnone, hleft, hnew⟩
    · exact ⟨hnone, hnone', hnew⟩
    · exact ⟨hnone, hnone', hmarked⟩
    · exact ⟨hnone, hleft, hmarked⟩
  next dev hdev =>
    have hnew := hmarked' (.device verified.deviceId
      (dev.getFingerprint (propertyName verified.deviceId))) (setDeviceVerified_device hdev)
    split_ifs
    · exact ⟨hnone, hnone', hnew⟩
    · exact ⟨hnone, hleft, hnew⟩

end VerifyState.Checked

theorem checked_step {parties : Parties} {method : Method} {s : VerifyState} {e : VerifyStep}
    {s' : VerifyState} (h : s.Checked parties method) (he : MarksKeyLookedUp method s e)
    (hse : (verifySystem parties method list).step s e = some s') : s'.Checked parties method := by
  cases e with
  | changeList list' =>
    obtain rfl := Option.some.inj hse
    exact ⟨h.keys, h.verified, h.marked⟩
  | changeOwnKeys masterKey userSigningKey =>
    obtain rfl := Option.some.inj hse
    exact ⟨h.keys, h.verified, h.marked⟩
  | verifyKey =>
    simp only [verifySystem] at hse
    split at hse
    next hphase =>
      obtain rfl := Option.some.inj hse
      exact h.verifyKey hphase
    · obtain rfl := Option.some.inj hse
      exact h.failed _
    next hphase =>
      obtain rfl := Option.some.inj hse
      have hverified := h.verified
      rw [hphase] at hverified
      exact ⟨fun _ hmem => absurd hmem List.not_mem_nil, hverified, h.marked⟩
    · cases hse
  | mark signs uploads =>
    simp only [verifySystem] at hse
    split at hse
    next hphase =>
      obtain rfl := Option.some.inj hse
      refine h.mark hphase (fun key hmem => he _ ?_ key hmem) signs uploads
      rw [hphase]
      rfl
    · cases hse

/-- **Only keys that the callback has checked are marked**, along the runs that mark, under an id,
the key that was looked up under it. -/
theorem marked_checked {parties : Parties} {method : Method} {list : UserKeys} {s : VerifyState}
    (h : (verifySystem parties method list).ReachableUnder (MarksKeyLookedUp method) s) :
    ∀ mark ∈ s.marked, mark.key ∈ s.checked := by
  have hinv : s.Checked parties method := by
    refine h.invariant ?_ fun s e s' hs he hse => checked_step hs he hse
    refine ⟨?_, ?_, fun _ hmem => absurd hmem List.not_mem_nil⟩
    · intro key hmem
      simp only [verifySystem] at hmem
      split at hmem
      next keys hkeys =>
        obtain ⟨keyId, -, hkeyId⟩ := List.mem_filterMap.1 hmem
        obtain ⟨keyInfo, hget, rfl⟩ := Option.map_eq_some_iff.1 hkeyId
        exact ⟨keys, hkeys, hget⟩
      · exact absurd hmem List.not_mem_nil
    · intro verified hmem
      simp only [verifySystem] at hmem
      split at hmem
      · exact absurd hmem List.not_mem_nil
      · exact absurd hmem List.not_mem_nil
  exact hinv.marked

/-! Alice is verified with emojis. Her only device sends the MAC of its key. -/

section Examples

def exampleParties : Parties := ⟨"@alice:a", "phone", "@bob:a", "laptop", "txn"⟩

def exampleMAC (input : Option String) (info : String) : String :=
  input.getD "undefined" ++ "|" ++ info

/-- The content with which a device sends the MAC of its key. -/
def macOf (deviceId key : String) : MacContent where
  mac := some (JsObject.empty.set ("ed25519:" ++ deviceId)
    (exampleMAC (some key) (exampleParties.baseInfo ++ ("ed25519:" ++ deviceId))))
  keys := some (exampleMAC (some ("ed25519:" ++ deviceId)) (exampleParties.baseInfo ++ "KEY_IDS"))

/-- The device of Alice with this id. Her master key is "master". -/
def aliceKeys (deviceId : String) : UserKeys where
  devices := JsObject.empty.set deviceId
    { DeviceInfo.new with keys := JsObject.empty.set ("ed25519:" ++ deviceId) "key" }
  masterKey := some (some "master")
  hasFingerprint d dev h := by
    rw [JsObject.get_set] at h
    split_ifs at h with hd
    · obtain rfl := Option.some.inj h
      rw [hd, DeviceInfo.HasFingerprint, DeviceInfo.getFingerprint, JsObject.get_set_self]
      decide
    · cases h

/-- The system in which a device with this id sends its MAC. -/
def exampleVerifySystem (deviceId : String) : System VerifyState VerifyStep :=
  verifySystem exampleParties (.sas exampleMAC (macOf deviceId "key")) (aliceKeys deviceId)

/-- We can sign, the key is checked and marked. -/
def verifyOneKey : List VerifyStep :=
  [.changeOwnKeys true true, .verifyKey, .verifyKey, .mark true true]

theorem verifyOneKey_phone_runs : ((exampleVerifySystem "phone").run verifyOneKey).isSome := by
  decide

/-- The state it ends in. -/
def verifiedPhone : VerifyState :=
  ((exampleVerifySystem "phone").run verifyOneKey).get verifyOneKey_phone_runs

theorem marked_checked_phone :
    verifiedPhone.marked = [.device (some "phone") (some "key")] ∧
      verifiedPhone.marked.Forall fun mark => mark.key ∈ verifiedPhone.checked := by
  have hrun : (exampleVerifySystem "phone").ReachableUnder
      (MarksKeyLookedUp (.sas exampleMAC (macOf "phone" "key"))) verifiedPhone := by
    refine ⟨_, System.trace_get verifyOneKey_phone_runs, ?_⟩
    change ∀ q ∈ [_, _, _, _], _
    simp only [List.forall_mem_cons]
    refine ⟨trivial, trivial, trivial, ?_, fun q hq => absurd hq List.not_mem_nil⟩
    intro verified hverified key hkey
    obtain rfl := Option.some.inj hverified
    obtain rfl := Option.some.inj hkey
    exact ⟨by decide, rfl⟩
  exact ⟨by decide, List.forall_iff_forall_mem.2 (marked_checked hrun)⟩

theorem verifyOneKey_master_runs : ((exampleVerifySystem "master").run verifyOneKey).isSome := by
  decide

/-- Not along all runs: when the id of the device is the master key, the master key is signed. -/
theorem marked_checked_fails :
    ¬ ∀ s, (exampleVerifySystem "master").Reachable s → ∀ mark ∈ s.marked, mark.key ∈ s.checked := by
  intro h
  exact absurd (h _ (System.reachable_get verifyOneKey_master_runs)) (by decide)

end Examples

end MatrixSdk.Crypto
