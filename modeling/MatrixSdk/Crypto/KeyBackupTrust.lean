/-
Whether a key backup is trusted: `isKeyBackupTrusted` of `crypto/index.js`, with `checkDeviceTrust`
there and in `crypto/CrossSigning.js`.

The ids of the keys under which the user has signed the backup are gone through one by one. One that
is called by the own cross-signing key has to verify: if it does not, the error is passed to
`logger.warning`, and a logger has `warn` only, so the whole function throws. And the name of a key
is taken to end at the second `:` of the id, so what a key has signed whose name has a `:` is passed
over. See [`isKeyBackupTrusted_iff`].

The device list and the cross-signing keys do not change while signatures are checked. A name that
is missing reads as `undefined`.
-/
import MatrixSdk.Crypto.ObjectSignatures

set_option autoImplicit false

namespace MatrixSdk.Crypto.KeyBackupTrust

open MatrixSdk.Lib
open MatrixSdk.Crypto.DeviceEntries
open MatrixSdk.Crypto.ObjectSignatures (Fields)

/-! ## Trust in a device -/

/-- `Object.values(keyInfo.keys)[0]` -/
def publicKeyFromKeyInfo (keyInfo : Fields) : Option Json :=
  (((keyInfo.lookup "keys").map Json.fields).bind List.head?).map Prod.snd

/-- A cross-signing key that is stored. It has a public key. -/
structure KeyInfo where
  fields : Fields
  publicKey : String
  publicKey_eq : publicKeyFromKeyInfo fields = some (.str publicKey)

/-- A `CrossSigningInfo` of the user. -/
structure CrossSigningInfo where
  master : Option KeyInfo
  self_signing : Option KeyInfo
  user_signing : Option KeyInfo
  firstUse : Bool
  crossSigningVerifiedBefore : Bool

/-- `getId`, of the key; `none` is `null`. -/
def getId (keyInfo : Option KeyInfo) : Option String := keyInfo.map KeyInfo.publicKey

structure UserTrustLevel where
  crossSigningVerified : Bool
  crossSigningVerifiedBefore : Bool
  tofu : Bool

structure DeviceTrustLevel where
  crossSigningVerified : Bool
  tofu : Bool
  localVerified : Bool
  trustCrossSignedDevices : Bool

def DeviceTrustLevel.isVerified (level : DeviceTrustLevel) : Bool :=
  level.localVerified || (level.trustCrossSignedDevices && level.crossSigningVerified)

def DeviceTrustLevel.fromUserTrustLevel (userTrustLevel : UserTrustLevel)
    (localVerified trustCrossSignedDevices : Bool) : DeviceTrustLevel :=
  ⟨userTrustLevel.crossSigningVerified, userTrustLevel.tofu, localVerified,
    trustCrossSignedDevices⟩

/-- What is read of `Crypto`. The keys are those of Olm. -/
structure CryptoState (Key : Type) where
  olm : ObjectSignatures.SigningOlm Key
  userId : String
  trustedPubkey : Option String
  /-- The devices of the user, if there is a list of them. -/
  devices : Option StoredDevices
  crossSigningInfo : CrossSigningInfo
  /-- What the device list has of the cross-signing keys of the user. -/
  userCrossSigning : Option CrossSigningInfo

section Trust

variable {Key : Type} (crypto : CryptoState Key)

/-- `checkUserTrust`, of the user itself. What `pkVerify` throws is caught. -/
def checkUserTrust (userCrossSigning : CrossSigningInfo) : UserTrustLevel :=
  let own := crypto.crossSigningInfo
  let matching (key : CrossSigningInfo → Option KeyInfo) : Bool :=
    ((getId (key own)).filter (· ≠ "")).isSome && getId (key own) = getId (key userCrossSigning)
  if matching CrossSigningInfo.master && matching CrossSigningInfo.self_signing then
    ⟨true, true, own.firstUse⟩
  else
    match own.user_signing with
    | none => ⟨false, false, userCrossSigning.firstUse⟩
    | some user_signing =>
      let userTrusted := userCrossSigning.master.any fun userMaster =>
        (ObjectSignatures.pkVerify crypto.olm userMaster.fields user_signing.publicKey
          crypto.userId).2
      ⟨userTrusted, userCrossSigning.crossSigningVerifiedBefore, userCrossSigning.firstUse⟩

def deviceToObject (device : StoredDevice) (deviceId userId : String) : Fields :=
  [("algorithms", device.algorithms), ("keys", .obj device.keys), ("device_id", .str deviceId),
    ("user_id", .str userId), ("signatures", device.signatures)]

/-- `CrossSigningInfo.prototype.checkDeviceTrust` -/
def checkCrossSigning (userCrossSigning : CrossSigningInfo) (device : StoredDevice)
    (deviceId : String) (localTrust trustCrossSignedDevices : Bool) : DeviceTrustLevel :=
  let userTrust := checkUserTrust crypto userCrossSigning
  match userCrossSigning.self_signing with
  | none => ⟨false, false, localTrust, trustCrossSignedDevices⟩
  | some userSSK =>
    -- "if we can verify the user's SSK from their master key... and this device's key from their
    -- SSK..."
    let verified := (userCrossSigning.master.any fun userMaster =>
        (ObjectSignatures.pkVerify crypto.olm userSSK.fields userMaster.publicKey
          crypto.userId).2) &&
      (ObjectSignatures.pkVerify crypto.olm (deviceToObject device deviceId crypto.userId)
        userSSK.publicKey crypto.userId).2
    if verified then .fromUserTrustLevel userTrust localTrust trustCrossSignedDevices
    else ⟨false, false, localTrust, trustCrossSignedDevices⟩

/-- `getStoredDevice`, of the user. What every object has makes a new `DeviceInfo`. -/
def getStoredDevice (deviceId : String) : Option StoredDevice :=
  crypto.devices.bind fun devs =>
    match devs.devices.lookup deviceId with
    | .own device => some device
    | .inherited => some StoredDevice.new
    | .missing => none

/-- `_checkDeviceInfoTrust`, of an own device. -/
def checkDeviceInfoTrust (device : Option StoredDevice) (deviceId : String) : DeviceTrustLevel :=
  let trustedLocally := device.any fun device => device.verified = .verified
  match device, crypto.userCrossSigning with
  | some device, some userCrossSigning =>
    checkCrossSigning crypto userCrossSigning device deviceId trustedLocally true
  | _, _ => ⟨false, false, trustedLocally, false⟩

def checkDeviceTrust (deviceId : String) : DeviceTrustLevel :=
  checkDeviceInfoTrust crypto (getStoredDevice crypto deviceId) deviceId

/-! ## Trust in a backup -/

/-- What is found out about a signature. -/
structure SigInfo where
  deviceId : Option String
  crossSigningId : Bool
  device : Option StoredDevice
  deviceTrust : Option DeviceTrustLevel
  /-- `none` is `null`: it cannot be told. -/
  valid : Option Bool

/-- What is returned. `usable` is a number there, 1 or 0. -/
structure TrustInfo where
  usable : Bool
  trusted_locally : Bool
  sigs : List SigInfo

/-- `keyId.split(':')` -/
def keyIdParts (keyId : String) : List String := (keyId.toList.splitOn ':').map String.ofList

/-- `olmlib.verifySignature` of the backup, with a key of the user. -/
def verifySignature (authData : Json) (signingDeviceId : String) (signingKey : Json) : Bool :=
  DeviceEntries.verifySignature crypto.olm.toOlm crypto.userId authData signingDeviceId signingKey

/-- One turn of the loop. -/
def checkSignature (authData : Json) (keyId : String) : Except String (Option SigInfo) :=
  if (keyIdParts keyId)[0]? ≠ some "ed25519" then .ok none
  else
    let deviceId := (keyIdParts keyId)[1]?
    let crossSigningId := getId crypto.crossSigningInfo.master
    let name := deviceId.getD "undefined"
    if crossSigningId.isSome ∧ crossSigningId = deviceId then
      if verifySignature crypto authData name (.str name) then
        .ok (some ⟨deviceId, true, none, none, some true⟩)
      else .error "logger.warning is not a function"
    else
      match getStoredDevice crypto name with
      | some device =>
        let valid := verifySignature crypto authData name ((device.getFingerprint name).getD .null)
        .ok (some ⟨deviceId, false, some device, some (checkDeviceTrust crypto name), some valid⟩)
      | none => .ok (some ⟨deviceId, false, none, none, none⟩)

/-- What makes a backup usable. -/
def SigInfo.isTrusted (s : SigInfo) : Bool :=
  s.valid = some true &&
    ((s.device.isSome && s.deviceTrust.any DeviceTrustLevel.isVerified) || s.crossSigningId)

/-- What is required of a backup, and its `auth_data`. -/
def requiredData (backupInfo : Json) : Option Json :=
  ((backupInfo.get "algorithm").filter Json.isTruthy).bind fun _ =>
    ((backupInfo.get "auth_data").filter Json.isTruthy).bind fun authData =>
      ((authData.get "public_key").filter Json.isTruthy).bind fun _ =>
        ((authData.get "signatures").filter Json.isTruthy).map fun _ => authData

/-- `Object.keys(mySigs)`. Those of an array or a string are numbers, which are passed over. -/
def mySigs (authData : Json) : List String :=
  (Json.or ((Json.or (authData.get "signatures") (.obj [])).get crypto.userId) (.arr [])).fields.map
    Prod.fst

def trustedLocally (authData : Json) : Bool :=
  crypto.trustedPubkey.any (Json.isString (authData.get "public_key"))

def isKeyBackupTrusted (backupInfo : Json) : Except String TrustInfo :=
  match requiredData backupInfo with
  | none => .ok ⟨false, false, []⟩
  | some authData =>
    ((mySigs crypto authData).mapM (checkSignature crypto authData)).map fun sigs =>
      let sigs := sigs.filterMap id
      let trusted_locally := trustedLocally crypto authData
      ⟨sigs.any SigInfo.isTrusted || trusted_locally, trusted_locally, sigs⟩

/-! ## What is to hold -/

/-- A verified device of this name, or the cross-signing key, has signed the backup. -/
def SignedBy (authData : Json) (name : String) : Prop :=
  (∃ devs device, crypto.devices = some devs ∧ devs.devices.get name = some device ∧
    (checkDeviceTrust crypto name).isVerified = true ∧
    verifySignature crypto authData name ((device.getFingerprint name).getD .null) = true) ∨
  (getId crypto.crossSigningInfo.master = some name ∧
    verifySignature crypto authData name (.str name) = true)

/-- **A backup is trusted** if its key is, or by a signature. -/
def Trusted (authData : Json) : Prop :=
  trustedLocally crypto authData = true ∨ ∃ name, SignedBy crypto authData name

/-- A signature that is called by the own cross-signing key verifies. -/
def NoBadSignature (authData : Json) : Prop :=
  ∀ keyId ∈ mySigs crypto authData, ∀ name, (keyIdParts keyId)[0]? = some "ed25519" →
    (keyIdParts keyId)[1]? = some name → getId crypto.crossSigningInfo.master = some name →
    verifySignature crypto authData name (.str name) = true

/-- If a key has signed, then one whose name has no `:`. -/
def NamedPlainly (authData : Json) : Prop :=
  ∀ name, SignedBy crypto authData name → trustedLocally crypto authData = true ∨
    ∃ name, ':' ∉ name.toList ∧ SignedBy crypto authData name

end Trust

/-! ## The parts of a key id -/

theorem not_mem_of_mem_splitOn {α : Type*} [DecidableEq α] {a : α} {l part : List α}
    (h : part ∈ l.splitOn a) : a ∉ part := by
  induction l generalizing part with
  | nil =>
    rw [List.splitOn_nil, List.mem_singleton] at h
    rw [h]
    exact List.not_mem_nil
  | cons b l ih =>
    rw [List.splitOn_cons_eq_if_modifyHead] at h
    split at h
    · rcases List.mem_cons.1 h with rfl | h
      · exact List.not_mem_nil
      · exact ih h
    next hne =>
      obtain ⟨first, rest, hsplit⟩ := List.exists_cons_of_ne_nil (List.splitOn_ne_nil a l)
      rw [hsplit] at h ih
      rw [List.modifyHead_cons] at h
      rcases List.mem_cons.1 h with rfl | h
      · rw [List.mem_cons, not_or]
        exact ⟨fun heq => hne (beq_iff_eq.2 heq.symm), ih List.mem_cons_self⟩
      · exact ih (List.mem_cons_of_mem _ h)

/-- No part of a key id has a `:`. -/
theorem colon_not_mem_of_mem_keyIdParts {keyId part : String} (h : part ∈ keyIdParts keyId) :
    ':' ∉ part.toList := by
  obtain ⟨part', hpart', rfl⟩ := List.mem_map.1 h
  rw [String.toList_ofList]
  exact not_mem_of_mem_splitOn hpart'

theorem keyIdParts_of_not_mem {name : String} (h : ':' ∉ name.toList) :
    keyIdParts ("ed25519:" ++ name) = ["ed25519", name] := by
  have hlist : ("ed25519:" ++ name).toList = "ed25519".toList ++ ':' :: name.toList := by
    rw [String.toList_append]
    rfl
  have hkind : ':' ∉ "ed25519".toList := by decide +kernel
  rw [keyIdParts, hlist, List.splitOn_append_cons_self_of_not_mem hkind,
    List.splitOn_eq_singleton h, List.map_cons, List.map_singleton, String.ofList_toList,
    String.ofList_toList]

section Loop

variable {Key : Type} {crypto : CryptoState Key} {authData : Json} {name keyId : String}

/-- A signature that verifies is among those of the user. -/
theorem mem_mySigs_of_verifySignature {signingKey : Json}
    (h : verifySignature crypto authData name signingKey = true) :
    "ed25519:" ++ name ∈ mySigs crypto authData := by
  unfold verifySignature DeviceEntries.verifySignature at h
  extract_lets signatures userSigs mangledObj at h
  split at h
  next hfound _ =>
    have hlookup := (Option.filter_eq_some_iff.1 hfound).1
    have hfields : (Json.or (signatures.get crypto.userId) (.arr [])).fields = userSigs.fields := by
      show ((signatures.get crypto.userId).filter Json.isTruthy |>.getD (.arr [])).fields =
        ((signatures.get crypto.userId).filter Json.isTruthy |>.getD (.obj [])).fields
      cases (signatures.get crypto.userId).filter Json.isTruthy <;> rfl
    show _ ∈ (Json.or (signatures.get crypto.userId) (.arr [])).fields.map Prod.fst
    rw [hfields]
    exact List.mem_map_of_mem (Members.mem_of_lookup hlookup)
  · exact nomatch h

/-! ## One signature -/

/-- What every object has is no verified device. -/
theorem isVerified_of_inherited {devs : StoredDevices} (hdevices : crypto.devices = some devs)
    (hinherited : devs.devices.lookup name = .inherited) :
    (checkDeviceTrust crypto name).isVerified = false := by
  have hstored : getStoredDevice crypto name = some StoredDevice.new := by
    rw [getStoredDevice, hdevices, Option.bind_some, hinherited]
  -- it has no signatures, so none of the self-signing key
  have hunsigned : ∀ pubkey, (ObjectSignatures.pkVerify crypto.olm
      (deviceToObject StoredDevice.new name crypto.userId) pubkey crypto.userId).2 = false :=
    fun pubkey => rfl
  rw [checkDeviceTrust, hstored]
  unfold checkDeviceInfoTrust
  cases crypto.userCrossSigning with
  | none => rfl
  | some userCrossSigning =>
    dsimp only
    unfold checkCrossSigning
    cases userCrossSigning.self_signing with
    | none => rfl
    | some userSSK =>
      dsimp only
      rw [hunsigned, Bool.and_false]
      rfl

/-- **What is trusted is signed**, by a key whose name has no `:`. -/
theorem signedBy_of_isTrusted {s : SigInfo}
    (h : checkSignature crypto authData keyId = .ok (some s)) (htrusted : s.isTrusted = true) :
    ∃ name, ':' ∉ name.toList ∧ SignedBy crypto authData name := by
  rw [checkSignature] at h
  split at h
  · exact nomatch h
  have hplain : ':' ∉ ((keyIdParts keyId)[1]?.getD "undefined").toList := by
    cases hpart : (keyIdParts keyId)[1]? with
    | none => decide +kernel
    | some part => exact colon_not_mem_of_mem_keyIdParts (List.mem_of_getElem? hpart)
  dsimp only at h
  refine ⟨_, hplain, ?_⟩
  split at h
  next hcross =>
    split at h
    next hverified =>
      refine Or.inr ⟨?_, hverified⟩
      rw [hcross.2]
      cases hpart : (keyIdParts keyId)[1]? with
      | none => exact nomatch (hpart ▸ hcross.2) ▸ hcross.1
      | some part => rfl
    · exact nomatch h
  next hcross =>
    split at h
    next device hdevice =>
      obtain rfl := Option.some.inj (Except.ok.inj h)
      rw [SigInfo.isTrusted, Bool.and_eq_true, Bool.or_eq_true] at htrusted
      obtain ⟨hvalid, hverified⟩ := htrusted
      have hverified := (Bool.and_eq_true _ _ ▸ hverified.resolve_right nofun).2
      obtain ⟨devs, hdevs, hlookup⟩ := Option.bind_eq_some_iff.1 hdevice
      split at hlookup
      next device' hown =>
        obtain rfl := Option.some.inj hlookup
        refine Or.inl ⟨devs, device', hdevs, JsObject.get_of_lookup_own hown, hverified, ?_⟩
        exact Option.some.inj (of_decide_eq_true hvalid)
      next hinherited =>
        exact nomatch (isVerified_of_inherited hdevs hinherited).symm.trans hverified
      · exact nomatch hlookup
    · obtain rfl := Option.some.inj (Except.ok.inj h)
      exact nomatch htrusted

/-- A turn throws only for a bad signature that is called by the cross-signing key. -/
theorem checkSignature_ok_iff : (∃ s, checkSignature crypto authData keyId = .ok s) ↔
    ∀ name, (keyIdParts keyId)[0]? = some "ed25519" → (keyIdParts keyId)[1]? = some name →
      getId crypto.crossSigningInfo.master = some name →
      verifySignature crypto authData name (.str name) = true := by
  rw [checkSignature]
  by_cases hkind : (keyIdParts keyId)[0]? = some "ed25519"
  · rw [if_neg (not_not.2 hkind)]
    dsimp only
    split
    next hcross =>
      obtain ⟨id, hid⟩ := Option.isSome_iff_exists.1 hcross.1
      rw [← hcross.2, hid, Option.getD_some]
      by_cases hverified : verifySignature crypto authData id (.str id) = true
      · rw [if_pos hverified]
        exact iff_of_true ⟨_, rfl⟩ fun name _ hname _ => Option.some.inj hname ▸ hverified
      · rw [if_neg hverified]
        exact iff_of_false nofun fun h => hverified (h id hkind rfl rfl)
    next hcross =>
      refine iff_of_true ?_ fun name _ hname hid => ?_
      · split
        · exact ⟨_, rfl⟩
        · exact ⟨_, rfl⟩
      · exact absurd ⟨by rw [hid]; rfl, hid.trans hname.symm⟩ hcross
  · rw [if_pos hkind]
    exact iff_of_true ⟨_, rfl⟩ fun name h => absurd h hkind

/-- **What is signed is trusted**, if the name of the key has no `:` and the turn does not throw. -/
theorem isTrusted_of_signedBy (hplain : ':' ∉ name.toList) (hsigned : SignedBy crypto authData name)
    (hgood : getId crypto.crossSigningInfo.master = some name →
      verifySignature crypto authData name (.str name) = true) :
    ∃ s, checkSignature crypto authData ("ed25519:" ++ name) = .ok (some s) ∧
      s.isTrusted = true := by
  have hkind : ¬ ["ed25519", name][0]? ≠ some "ed25519" := not_not.2 rfl
  have hname : ["ed25519", name][1]? = some name := rfl
  rw [checkSignature, keyIdParts_of_not_mem hplain, if_neg hkind, hname]
  dsimp only
  rw [Option.getD_some]
  by_cases hcross : getId crypto.crossSigningInfo.master = some name
  · rw [if_pos ⟨by rw [hcross]; rfl, hcross⟩, if_pos (hgood hcross)]
    exact ⟨_, rfl, rfl⟩
  · rw [if_neg fun h => hcross h.2]
    rcases hsigned with ⟨devs, device, hdevs, hdevice, htrust, hverified⟩ | ⟨hid, -⟩
    · have hstored : getStoredDevice crypto name = some device := by
        rw [getStoredDevice, hdevs, Option.bind_some, JsObject.lookup, hdevice]
      refine ⟨⟨some name, false, some device, some (checkDeviceTrust crypto name), some true⟩,
        ?_, ?_⟩
      · rw [hstored]
        dsimp only
        rw [hverified]
      · rw [SigInfo.isTrusted, Option.any_some, htrust]
        rfl
    · exact absurd hid hcross

/-! ## All signatures -/

theorem exists_mapM_ok_iff {α β ε : Type*} {f : α → Except ε β} {l : List α} :
    (∃ l', l.mapM f = .ok l') ↔ ∀ a ∈ l, ∃ b, f a = .ok b := by
  induction l with
  | nil => exact iff_of_true ⟨[], rfl⟩ fun a ha => absurd ha List.not_mem_nil
  | cons a l ih =>
    rw [List.mapM_cons, List.forall_mem_cons, ← ih]
    cases f a with
    | error e => exact iff_of_false nofun fun h => nomatch h.1
    | ok b =>
      cases l.mapM f with
      | error e => exact iff_of_false nofun fun h => nomatch h.2
      | ok l' => exact iff_of_true ⟨b :: l', rfl⟩ ⟨⟨b, rfl⟩, l', rfl⟩

theorem mem_of_mapM_ok {α β ε : Type*} {f : α → Except ε β} {l : List α} {l' : List β}
    (h : l.mapM f = .ok l') (b : β) : b ∈ l' ↔ ∃ a ∈ l, f a = .ok b := by
  induction l generalizing l' with
  | nil =>
    obtain rfl := Except.ok.inj h
    exact iff_of_false List.not_mem_nil fun ⟨a, ha, _⟩ => List.not_mem_nil ha
  | cons a l ih =>
    rw [List.mapM_cons] at h
    rw [List.exists_mem_cons_iff]
    cases hf : f a with
    | error e =>
      rw [hf] at h
      exact nomatch h
    | ok b' =>
      rw [hf] at h
      cases hl : l.mapM f with
      | error e =>
        rw [hl] at h
        exact nomatch h
      | ok rest =>
        rw [hl] at h
        obtain rfl := Except.ok.inj h
        rw [List.mem_cons, ih hl, Except.ok.injEq, eq_comm (a := b)]

theorem isKeyBackupTrusted_ok_iff {backupInfo : Json}
    (hrequired : requiredData backupInfo = some authData) :
    (∃ ret, isKeyBackupTrusted crypto backupInfo = .ok ret) ↔
      NoBadSignature crypto authData := by
  have hloop : (∃ ret, isKeyBackupTrusted crypto backupInfo = .ok ret) ↔
      ∃ sigs, (mySigs crypto authData).mapM (checkSignature crypto authData) = .ok sigs := by
    rw [isKeyBackupTrusted, hrequired]
    dsimp only
    cases (mySigs crypto authData).mapM (checkSignature crypto authData) with
    | error e => exact iff_of_false nofun nofun
    | ok sigs => exact iff_of_true ⟨_, rfl⟩ ⟨_, rfl⟩
  rw [hloop, exists_mapM_ok_iff]
  exact forall₂_congr fun keyId _ => checkSignature_ok_iff

/-- What is usable, if nothing throws. -/
theorem usable_iff {backupInfo : Json} {ret : TrustInfo}
    (hrequired : requiredData backupInfo = some authData)
    (hret : isKeyBackupTrusted crypto backupInfo = .ok ret) :
    ret.usable = true ↔ trustedLocally crypto authData = true ∨
      ∃ name, ':' ∉ name.toList ∧ SignedBy crypto authData name := by
  have hgood := (isKeyBackupTrusted_ok_iff hrequired).1 ⟨ret, hret⟩
  rw [isKeyBackupTrusted, hrequired] at hret
  dsimp only at hret
  cases hsigs : (mySigs crypto authData).mapM (checkSignature crypto authData) with
  | error e =>
    rw [hsigs] at hret
    exact nomatch hret
  | ok sigs =>
    rw [hsigs] at hret
    obtain rfl := Except.ok.inj hret
    rw [Bool.or_eq_true, Or.comm]
    refine or_congr_right ?_
    rw [List.any_eq_true]
    constructor
    · rintro ⟨s, hs, htrusted⟩
      obtain ⟨found, hfound, rfl⟩ := List.mem_filterMap.1 hs
      obtain ⟨keyId, -, hcheck⟩ := (mem_of_mapM_ok hsigs _).1 hfound
      exact signedBy_of_isTrusted hcheck htrusted
    · rintro ⟨name, hplain, hsigned⟩
      have hmem : "ed25519:" ++ name ∈ mySigs crypto authData := by
        rcases hsigned with ⟨_, _, _, _, _, hverified⟩ | ⟨_, hverified⟩
        · exact mem_mySigs_of_verifySignature hverified
        · exact mem_mySigs_of_verifySignature hverified
      have hparts := keyIdParts_of_not_mem hplain
      obtain ⟨s, hcheck, htrusted⟩ := isTrusted_of_signedBy hplain hsigned
        (hgood _ hmem name (by rw [hparts]; rfl) (by rw [hparts]; rfl))
      exact ⟨s, List.mem_filterMap.2 ⟨some s, (mem_of_mapM_ok hsigs _).2 ⟨_, hmem, hcheck⟩, rfl⟩,
        htrusted⟩

end Loop

/-- **When the answer is right**: of a backup that has what is required, `isKeyBackupTrusted` tells
without throwing whether it is trusted, if and only if no signature that is called by the own
cross-signing key is bad, and where a key has signed whose name has a `:`, the backup is trusted for
another reason too. -/
theorem isKeyBackupTrusted_iff {Key : Type} (crypto : CryptoState Key) (backupInfo authData : Json)
    (hrequired : requiredData backupInfo = some authData) :
    (∃ ret, isKeyBackupTrusted crypto backupInfo = .ok ret ∧
      (ret.usable = true ↔ Trusted crypto authData)) ↔
        NoBadSignature crypto authData ∧ NamedPlainly crypto authData := by
  constructor
  · rintro ⟨ret, hret, husable⟩
    refine ⟨(isKeyBackupTrusted_ok_iff hrequired).1 ⟨ret, hret⟩, fun name hsigned => ?_⟩
    exact (usable_iff hrequired hret).1 (husable.2 (Or.inr ⟨name, hsigned⟩))
  · rintro ⟨hgood, hplain⟩
    obtain ⟨ret, hret⟩ := (isKeyBackupTrusted_ok_iff hrequired).2 hgood
    refine ⟨ret, hret, (usable_iff hrequired hret).trans ⟨?_, ?_⟩⟩
    · rintro (hlocally | ⟨name, -, hsigned⟩)
      · exact Or.inl hlocally
      · exact Or.inr ⟨name, hsigned⟩
    · rintro (hlocally | ⟨name, hsigned⟩)
      · exact Or.inl hlocally
      · exact hplain name hsigned

/-! ## A backup that is signed with the cross-signing key -/

def exampleCrypto : CryptoState String where
  olm := ObjectSignatures.exampleOlm
  userId := "@alice:example.org"
  trustedPubkey := none
  devices := none
  crossSigningInfo :=
    ⟨some ⟨[("keys", .obj [("ed25519:masterKey", .str "masterKey")])], "masterKey", rfl⟩, none,
      none, true, false⟩
  userCrossSigning := none

def exampleAuthData (signature : String) : Json :=
  .obj [("public_key", .str "backupKey"), ("signatures", .obj [("@alice:example.org",
    .obj [("ed25519:masterKey", .str signature)])])]

def exampleBackup (signature : String) : Json :=
  .obj [("algorithm", .str "m.megolm_backup.v1.curve25519-aes-sha2"),
    ("auth_data", exampleAuthData signature)]

/-- The signature in the backup is what is checked. -/
theorem verifySignature_example {signature : String} (hne : signature ≠ "") :
    verifySignature exampleCrypto (exampleAuthData signature) "masterKey" (.str "masterKey") =
      exampleCrypto.olm.ed25519Verify "masterKey"
        (ObjectSignatures.exampleText [("public_key", .str "backupKey")]) signature := by
  have htruthy : Json.isTruthy (.str signature) = true := decide_eq_true hne
  unfold verifySignature DeviceEntries.verifySignature
  extract_lets signatures userSigs mangledObj
  have hsignature : (userSigs.get ("ed25519:" ++ "masterKey")).filter Json.isTruthy =
      some (.str signature) :=
    Option.filter_eq_some_iff.2 ⟨by rfl, htruthy⟩
  have hmangled : mangledObj = [("public_key", .str "backupKey")] := by rfl
  rw [hsignature, hmangled]
  rfl

theorem isKeyBackupTrusted_iff_example :
    let signature := exampleCrypto.olm.sign "masterKey"
      (ObjectSignatures.exampleText [("public_key", .str "backupKey")])
    ∃ ret, isKeyBackupTrusted exampleCrypto (exampleBackup signature) = .ok ret ∧
      (ret.usable = true ↔ Trusted exampleCrypto (exampleAuthData signature)) := by
  intro signature
  have hverified : verifySignature exampleCrypto (exampleAuthData signature) "masterKey"
      (.str "masterKey") = true := by
    have hne : signature ≠ "" := ObjectSignatures.exampleOlm_ideal.sign_ne_empty _ _
    rw [verifySignature_example hne]
    exact (ObjectSignatures.exampleOlm_ideal.verify_iff "masterKey" _ _).2 rfl
  refine (isKeyBackupTrusted_iff exampleCrypto (exampleBackup signature)
    (exampleAuthData signature) rfl).2 ⟨fun keyId _ name _ _ hid => ?_, fun name hsigned => ?_⟩
  · obtain rfl := Option.some.inj hid
    exact hverified
  · rcases hsigned with ⟨devs, _, hdevs, _⟩ | ⟨hid, hname⟩
    · exact nomatch hdevs
    · obtain rfl := Option.some.inj hid
      exact Or.inr ⟨"masterKey", by decide +kernel, Or.inr ⟨rfl, hname⟩⟩

/-- A bad signature of the cross-signing key makes the function throw. -/
theorem isKeyBackupTrusted_fails :
    requiredData (exampleBackup "bad") = some (exampleAuthData "bad") ∧
      ¬ ∃ ret, isKeyBackupTrusted exampleCrypto (exampleBackup "bad") = .ok ret := by
  refine ⟨rfl, fun hret => ?_⟩
  have hgood := (@isKeyBackupTrusted_ok_iff _ _ (exampleAuthData "bad") _ rfl).1 hret
  have hparts : keyIdParts "ed25519:masterKey" = ["ed25519", "masterKey"] := by decide +kernel
  have hverified := hgood "ed25519:masterKey" List.mem_cons_self "masterKey"
    (by rw [hparts]; rfl) (by rw [hparts]; rfl) rfl
  rw [verifySignature_example (by decide)] at hverified
  have hsigned := (ObjectSignatures.exampleOlm_ideal.verify_iff "masterKey" _ _).1 hverified
  have hlength := congrArg String.length hsigned
  change "bad".length = ("masterKey" ++ ":" ++ _).length at hlength
  rw [String.length_append, String.length_append] at hlength
  have : "bad".length = 3 := by rfl
  have : "masterKey".length = 9 := by rfl
  omega

end MatrixSdk.Crypto.KeyBackupTrust
