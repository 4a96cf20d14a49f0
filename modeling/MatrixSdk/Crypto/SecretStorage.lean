/-
Secrets in account data: `SecretStorage` of `crypto/SecretStorage.js`, with `crypto/aes.js`.

A secret is encrypted under several keys, and `isStored` and `get` walk over them with a filter of
their own each. The one of `get` does not expect that a key is unknown, and whoever has the right
key does not get the secret then ([`secretStorage_iff`]). Nor does `get` give back every secret that
`store` has stored: an empty one has an empty ciphertext, which both filters take for missing.

The account data are as the server has them. A library does the encryption, and the application is
asked for the private keys.
-/
import MatrixSdk.Lib.JsObject

set_option autoImplicit false

namespace MatrixSdk.SecretStorage

open MatrixSdk.Lib JsObject

/-- What is thrown. -/
inductive Thrown
  | typeError
  | error (message : String)
  deriving DecidableEq

/-! ## Encryption -/

/-- A secret that is encrypted with a key. A property may be missing. -/
structure EncInfo where
  iv : Option String
  ciphertext : Option String
  mac : Option String
  /-- `passthrough` is there, and truthy. -/
  passthrough : Bool
  deriving DecidableEq

/-- What the cryptographic library has, for private keys of some type, and what it is relied on for:
the cipher is a stream cipher, which makes nothing longer or shorter. -/
structure CryptoLibrary (κ : Type) where
  /-- It is the one of a browser. -/
  subtleCrypto : Bool
  /-- `deriveKeysNode` or `deriveKeysBrowser`: the keys for the cipher and for the MAC. -/
  deriveKeys : κ → String → List UInt8 × List UInt8
  cipher : List UInt8 → List UInt8 → String → List UInt8
  decipher : List UInt8 → List UInt8 → List UInt8 → String
  hmac : List UInt8 → List UInt8 → List UInt8
  encodeBase64 : List UInt8 → String
  decodeBase64 : String → List UInt8
  decipher_cipher : ∀ key iv data, decipher key iv (cipher key iv data) = data
  cipher_eq_nil : ∀ key iv data, cipher key iv data = [] ↔ data = ""
  hmac_ne_nil : ∀ key data, hmac key data ≠ []
  decode_encode : ∀ bytes, decodeBase64 (encodeBase64 bytes) = bytes
  encode_nil : encodeBase64 [] = ""

/-- "clear bit 63 of the IV" -/
def clearBit63 (iv : Vector UInt8 16) : List UInt8 := (iv.set 8 (iv[8] &&& 0x7f)).toList

/-- `replace(/=+$/g, '')` -/
def withoutPadding (text : String) : String :=
  String.ofList (text.toList.reverse.dropWhile fun c => c = '=').reverse

namespace CryptoLibrary

variable {κ : Type} (lib : CryptoLibrary κ)

/-- `encryptAES`, with the random bytes that are drawn. Both libraries do the same. -/
def encryptAES (data : String) (key : κ) (name : String) (randomBytes : Vector UInt8 16) :
    EncInfo :=
  let iv := clearBit63 randomBytes
  let (aesKey, hmacKey) := lib.deriveKeys key name
  let ciphertext := lib.cipher aesKey iv data
  { iv := some (lib.encodeBase64 iv)
    ciphertext := some (lib.encodeBase64 ciphertext)
    mac := some (lib.encodeBase64 (lib.hmac hmacKey ciphertext))
    passthrough := false }

/-- The MAC is compared as text, or it is verified. -/
def macMatches (hmacKey ciphertext : List UInt8) (mac : String) : Bool :=
  if lib.subtleCrypto then lib.hmac hmacKey ciphertext = lib.decodeBase64 mac
  else withoutPadding (lib.encodeBase64 (lib.hmac hmacKey ciphertext)) = withoutPadding mac

/-- `decryptAES` -/
def decryptAES (data : EncInfo) (key : κ) (name : String) : Except Thrown String :=
  match data.iv, data.ciphertext, data.mac with
  | some iv, some ciphertext, some mac =>
    let (aesKey, hmacKey) := lib.deriveKeys key name
    let ciphertext := lib.decodeBase64 ciphertext
    if lib.macMatches hmacKey ciphertext mac then
      .ok (lib.decipher aesKey (lib.decodeBase64 iv) ciphertext)
    else .error (.error ("Error decrypting secret " ++ name ++ ": bad MAC"))
  | _, _, _ => .error .typeError

end CryptoLibrary

/-! ## Account data -/

def SECRET_STORAGE_ALGORITHM_V1_AES : String := "m.secret_storage.v1.aes-hmac-sha2"

/-- What is read of a content: of a key, of the default key, of a secret. -/
structure Content where
  algorithm : Option String
  key : Option String
  encrypted : Option (JsObject String EncInfo)
  /-- The other properties. An old secret has its key for one. -/
  others : JsObject String EncInfo

abbrev AccountData := JsObject String Content

/-- `Object.keys` of a content that has no `encrypted`. -/
def Content.names (content : Content) : List String :=
  (content.algorithm.toList.map fun _ => "algorithm") ++ (content.key.toList.map fun _ => "key") ++
    content.others.keys

def keyName (keyId : String) : String := "m.secret_storage.key." ++ keyId

/-- The keys that are collected. To assign `__proto__` is to set the prototype. -/
structure KeyTable where
  own : JsObject String Content
  prototype : Option Content

namespace KeyTable

def empty : KeyTable := ⟨.empty, none⟩

/-- `keys[keyId] = keyInfo` -/
def assign (keys : KeyTable) (keyId : String) (keyInfo : Content) : KeyTable :=
  if keyId = "__proto__" then { keys with prototype := some keyInfo }
  else { keys with own := keys.own.set keyId keyInfo }

/-- `keys[keyId]` -/
def find (keys : KeyTable) (keyId : String) : JsObject.Lookup Content :=
  match keys.own.get keyId, keys.prototype with
  | some keyInfo, _ => .own keyInfo
  | none, some keyInfo =>
    if keyId = "__proto__" then .own keyInfo
    else if keyId ∈ keyInfo.names then .inherited
    else JsObject.lookup .empty keyId
  | none, none => JsObject.lookup .empty keyId

end KeyTable

/-- The callback `getSecretStorageKey` of the application. -/
abbrev Application (κ : Type) := KeyTable → String → Option (String × κ)

/-! ## The functions -/

/-- `encInfo.iv && encInfo.ciphertext && encInfo.mac` -/
def EncInfo.isComplete (encInfo : EncInfo) : Bool :=
  encInfo.iv.any (· ≠ "") && encInfo.ciphertext.any (· ≠ "") && encInfo.mac.any (· ≠ "")

namespace AccountData

variable {κ : Type} (lib : CryptoLibrary κ) (data : AccountData)

def getDefaultKeyId : Option String :=
  (data.get "m.secret_storage.default_key").bind fun content => content.key

/-- `hasKey`, which is `getKey`. -/
def hasKey (keyId : String) : Bool :=
  match if keyId = "" then data.getDefaultKeyId.getD "" else keyId with
  | "" => false
  | keyId => (data.get (keyName keyId)).isSome

/-- `_getSecretStorageKey`: the id of a key, and the private key that it encrypts and decrypts
with. -/
def getSecretStorageKey (app : Option (Application κ)) (keys : KeyTable) (name : String) :
    Except Thrown (String × κ) :=
  match app with
  | none => .error (.error "No getSecretStorageKey callback supplied")
  | some app =>
    match app keys name with
    | none => .error (.error "getSecretStorageKey callback returned falsey")
    | some (keyId, privateKey) =>
      match keys.find keyId with
      | .missing => .error (.error "App returned unknown key from getSecretStorageKey!")
      | .inherited => .error (.error "Unknown key type: undefined")
      | .own keyInfo =>
        if keyInfo.algorithm = some SECRET_STORAGE_ALGORITHM_V1_AES then .ok (keyId, privateKey)
        else .error (.error ("Unknown key type: " ++ keyInfo.algorithm.getD "undefined"))

/-- A turn of the loop of `store`. A key comes with the random bytes that are drawn for it. -/
def encryptWith (app : Option (Application κ)) (name secret : String)
    (encrypted : JsObject String EncInfo) (key : String × Vector UInt8 16) :
    Except Thrown (JsObject String EncInfo) :=
  let (keyId, randomBytes) := key
  match data.get (keyName keyId) with
  | none => .error (.error ("Unknown key: " ++ keyId))
  | some keyInfo =>
    if keyInfo.algorithm = some SECRET_STORAGE_ALGORITHM_V1_AES then do
      let keys : KeyTable := ⟨JsObject.empty.set keyId keyInfo, none⟩
      let (_, privateKey) ← getSecretStorageKey app keys name
      let encInfo := lib.encryptAES secret privateKey name randomBytes
      -- to assign `__proto__` makes no property
      pure (if keyId = "__proto__" then encrypted else encrypted.set keyId encInfo)
    else .ok encrypted

/-- `store` -/
def store (app : Option (Application κ)) (name secret : String)
    (keys : List (String × Vector UInt8 16) ⊕ Vector UInt8 16) : Except Thrown AccountData := do
  let keys ← match keys with
    | .inl keys => pure keys
    | .inr randomBytes =>
      match data.getDefaultKeyId.filter (· ≠ "") with
      | some defaultKeyId => pure [(defaultKeyId, randomBytes)]
      | none => .error (.error "No keys specified and no default key present")
  if keys = [] then .error (.error "Zero keys given to encrypt with!")
  else do
    let encrypted ← keys.foldlM (data.encryptWith lib app name secret) .empty
    pure (data.set name ⟨none, none, some encrypted, .empty⟩)

/-- `_fixupStoredSecret`. There is no `storePassthrough` to call. -/
def fixupStoredSecret (secretInfo : Content) : Except Thrown (Option Content) :=
  match secretInfo.names with
  | [keyId] =>
    if (secretInfo.others.get keyId).any EncInfo.passthrough && data.hasKey keyId then
      .error .typeError
    else .ok none
  | _ => .ok none

/-- The `encrypted` of a secret, which may have been fixed up. -/
def encryptedOf (secretInfo : Content) : Except Thrown (Option (JsObject String EncInfo)) :=
  match secretInfo.encrypted with
  | some encrypted => .ok (some encrypted)
  | none => (data.fixupStoredSecret secretInfo).map fun fixed =>
    fixed.bind fun content => content.encrypted

/-- A turn of the loop of `get`. -/
def addKeyToDecrypt (keys : KeyTable) (entry : String × EncInfo) : Except Thrown KeyTable :=
  let (keyId, encInfo) := entry
  match data.get (keyName keyId) with
  -- the `algorithm` of `null`
  | none => .error .typeError
  | some keyInfo =>
    if keyInfo.algorithm = some SECRET_STORAGE_ALGORITHM_V1_AES && encInfo.isComplete then
      .ok (keys.assign keyId keyInfo)
    else .ok keys

/-- `get`, with the keys that it has collected. -/
def decryptSecret (app : Option (Application κ)) (name : String)
    (encrypted : JsObject String EncInfo) (keys : KeyTable) : Except Thrown (Option String) :=
  if keys.own.keys = [] then
    .error (.error ("Could not decrypt " ++ name ++ " because none of the keys it is " ++
      "encrypted with are for a supported algorithm"))
  else do
    let (keyId, privateKey) ← getSecretStorageKey app keys name
    match encrypted.get keyId with
    | none => .error .typeError
    | some encInfo =>
      -- the decryption object has no `get_private_key`
      if encInfo.passthrough then .error .typeError
      else some <$> lib.decryptAES encInfo privateKey name

/-- `get` -/
def getSecret (app : Option (Application κ)) (name : String) : Except Thrown (Option String) :=
  match data.get name with
  | none => .ok none
  | some secretInfo => do
    match ← data.encryptedOf secretInfo with
    | none => .error (.error "Content is not encrypted!")
    | some encrypted =>
      let keys ← encrypted.entries.foldlM data.addKeyToDecrypt .empty
      decryptSecret lib app name encrypted keys

/-- A turn of the loop of `isStored`. -/
def addStoredKey (ret : KeyTable) (entry : String × EncInfo) : KeyTable :=
  let (keyId, encInfo) := entry
  match data.get (keyName keyId) with
  | none => ret
  | some keyInfo =>
    if keyInfo.algorithm = some SECRET_STORAGE_ALGORITHM_V1_AES && encInfo.isComplete then
      ret.assign keyId keyInfo
    else ret

/-- `isStored` -/
def isStored (name : String) : Except Thrown (Option KeyTable) :=
  match data.get name with
  | none => .ok none
  | some secretInfo => do
    match ← data.encryptedOf secretInfo with
    | none => .ok none
    | some encrypted =>
      let ret := encrypted.entries.foldl data.addStoredKey .empty
      .ok (if ret.own.keys = [] then none else some ret)

end AccountData

/-! ## What storage is for -/

variable {κ : Type}

/-- The application, asked for one of some keys, has the right private key for one of them. -/
def RightApplication (app : Application κ) (privateKeys : String → κ) : Prop :=
  ∀ keys name, keys.own.keys ≠ [] →
    ∃ keyId ∈ keys.own.keys, app keys name = some (keyId, privateKeys keyId)

/-- It has the right private key for this key. -/
def Supplies (app : Application κ) (keyId : String) (privateKey : κ) : Prop :=
  ∀ keys name, app keys name = some (keyId, privateKey)

namespace AccountData

variable (lib : CryptoLibrary κ) (data : AccountData)

/-- The key is known, and its algorithm is supported. -/
def Supports (keyId : String) : Prop :=
  ∃ keyInfo, data.get (keyName keyId) = some keyInfo ∧
    keyInfo.algorithm = some SECRET_STORAGE_ALGORITHM_V1_AES

/-- A secret is stored, encrypted under the keys of `encrypted`. What is under a key that is unknown
or not supported is not looked at. -/
def StoredUnder (name secret : String) (privateKeys : String → κ)
    (encrypted : JsObject String EncInfo) : Prop :=
  (∃ secretInfo, data.get name = some secretInfo ∧ secretInfo.encrypted = some encrypted) ∧
    ∀ keyId encInfo, data.Supports keyId → encrypted.get keyId = some encInfo →
      encInfo.isComplete = true → ∃ randomBytes,
        encInfo = { lib.encryptAES secret (privateKeys keyId) name randomBytes with
          passthrough := encInfo.passthrough }

/-- **`isStored` and `get` agree**, whichever key an application has the private key for. -/
def Agrees (name secret : String) (privateKeys : String → κ) : Prop :=
  ∀ app, RightApplication app privateKeys →
    ((∃ ret, data.isStored name = .ok (some ret)) ↔
      data.getSecret lib (some app) name = .ok (some secret))

/-- **`get` gives back what `store` stores**, whichever of the keys is supplied. -/
def Restores (app : Application κ) (name secret : String) (privateKeys : String → κ)
    (keys : List (String × Vector UInt8 16)) : Prop :=
  ∃ data', data.store lib (some app) name secret (.inl keys) = .ok data' ∧
    ∀ key ∈ keys, ∀ app', Supplies app' key.1 (privateKeys key.1) →
      data'.getSecret lib (some app') name = .ok (some secret)

/-- There is something to decrypt under a key that is supported. -/
def Decryptable (encrypted : JsObject String EncInfo) (keyId : String) (encInfo : EncInfo) : Prop :=
  data.Supports keyId ∧ encrypted.get keyId = some encInfo ∧ encInfo.isComplete = true ∧
    keyId ≠ "__proto__"

/-- **All keys are known**, and nothing is marked as passed through; or there is nothing to decrypt
at all. -/
def AllKnown (encrypted : JsObject String EncInfo) : Prop :=
  (∀ keyId encInfo, ¬ data.Decryptable encrypted keyId encInfo) ∨
    (∀ keyId ∈ encrypted.keys, (data.get (keyName keyId)).isSome = true) ∧
      ∀ keyId encInfo, data.Decryptable encrypted keyId encInfo → encInfo.passthrough = false

end AccountData

/-! ## Decryption -/

namespace CryptoLibrary

variable {lib : CryptoLibrary κ}

/-- **What has been encrypted is decrypted** with the same key and name. -/
theorem decryptAES_encryptAES (data : String) (key : κ) (name : String)
    (randomBytes : Vector UInt8 16) (passthrough : Bool) :
    lib.decryptAES { lib.encryptAES data key name randomBytes with passthrough := passthrough } key
      name = .ok data := by
  have hmac : ∀ hmacKey ciphertext, lib.macMatches hmacKey ciphertext
      (lib.encodeBase64 (lib.hmac hmacKey ciphertext)) = true := by
    intro hmacKey ciphertext
    unfold macMatches
    split
    · rw [lib.decode_encode]
      exact decide_eq_true rfl
    · exact decide_eq_true rfl
  unfold decryptAES encryptAES
  dsimp only
  rw [lib.decode_encode, lib.decode_encode, if_pos (hmac _ _), lib.decipher_cipher]

theorem encodeBase64_eq_empty {bytes : List UInt8} : lib.encodeBase64 bytes = "" ↔ bytes = [] := by
  constructor
  · intro h
    rw [← lib.decode_encode bytes, h, ← lib.encode_nil, lib.decode_encode]
  · rintro rfl
    exact lib.encode_nil

/-- **Of an empty secret the ciphertext is missing**, as it seems. -/
theorem isComplete_encryptAES (data : String) (key : κ) (name : String)
    (randomBytes : Vector UInt8 16) :
    (lib.encryptAES data key name randomBytes).isComplete = true ↔ data ≠ "" := by
  unfold EncInfo.isComplete encryptAES
  have hiv : clearBit63 randomBytes ≠ [] := by
    intro h
    have hlength := congrArg List.length h
    unfold clearBit63 at hlength
    rw [Vector.length_toList] at hlength
    exact nomatch hlength
  simp only [Option.any_some, Bool.and_eq_true, decide_eq_true_eq, ne_eq, encodeBase64_eq_empty,
    lib.cipher_eq_nil, lib.hmac_ne_nil, hiv, not_false_eq_true, true_and, and_true]

end CryptoLibrary

/-! ## The keys that are collected -/

namespace AccountData

variable {data : AccountData} {keyId : String} {keyIds : List String} {app : Application κ}
  {ret keys : KeyTable} {privateKeys : String → κ}

/-- An entry is collected when its key is supported and it is complete. -/
theorem addStoredKey_cases (ret : KeyTable) (keyId : String) (encInfo : EncInfo) :
    (∃ keyInfo, data.get (keyName keyId) = some keyInfo ∧
      keyInfo.algorithm = some SECRET_STORAGE_ALGORITHM_V1_AES ∧ encInfo.isComplete = true ∧
      data.addStoredKey ret (keyId, encInfo) = ret.assign keyId keyInfo) ∨
    ¬ (data.Supports keyId ∧ encInfo.isComplete = true) ∧
      data.addStoredKey ret (keyId, encInfo) = ret := by
  unfold addStoredKey Supports
  dsimp only
  cases hkey : data.get (keyName keyId) with
  | none =>
    refine .inr ⟨?_, rfl⟩
    rintro ⟨⟨keyInfo, h, -⟩, -⟩
    exact nomatch h
  | some keyInfo =>
    dsimp only
    by_cases hcollected :
        keyInfo.algorithm = some SECRET_STORAGE_ALGORITHM_V1_AES ∧ encInfo.isComplete = true
    · rw [if_pos (by simpa using hcollected)]
      exact .inl ⟨keyInfo, rfl, hcollected.1, hcollected.2, rfl⟩
    · rw [if_neg (by simpa using hcollected)]
      refine .inr ⟨?_, rfl⟩
      rintro ⟨⟨keyInfo', h, halgorithm⟩, hcomplete⟩
      obtain rfl := Option.some.inj h
      exact hcollected ⟨halgorithm, hcomplete⟩

/-- **One turn** of the loop of `isStored`. -/
theorem mem_addStoredKey {entry : String × EncInfo} :
    keyId ∈ (data.addStoredKey ret entry).own.keys ↔ keyId ∈ ret.own.keys ∨
      keyId = entry.1 ∧ keyId ≠ "__proto__" ∧ data.Supports keyId ∧ entry.2.isComplete = true := by
  obtain ⟨keyId', encInfo⟩ := entry
  rcases data.addStoredKey_cases ret keyId' encInfo with
    ⟨keyInfo, hget, halgorithm, hcomplete, heq⟩ | ⟨hnot, heq⟩
  · rw [heq, KeyTable.assign]
    split
    next hproto =>
      refine ⟨.inl, ?_⟩
      rintro (h | ⟨rfl, hne, -⟩)
      · exact h
      · exact absurd hproto hne
    next hproto =>
      rw [mem_keys_set]
      constructor
      · rintro (rfl | h)
        · exact .inr ⟨rfl, hproto, ⟨keyInfo, hget, halgorithm⟩, hcomplete⟩
        · exact .inl h
      · rintro (h | ⟨rfl, -⟩)
        · exact .inr h
        · exact .inl rfl
  · rw [heq]
    refine ⟨.inl, ?_⟩
    rintro (h | ⟨rfl, -, hcollected⟩)
    · exact h
    · exact absurd hcollected hnot

/-- All keys that are collected are supported, and the prototype is one of the keys. -/
structure Collects (keyIds : List String) (ret : KeyTable) : Prop where
  algorithm : ∀ keyId keyInfo, ret.own.get keyId = some keyInfo →
    keyInfo.algorithm = some SECRET_STORAGE_ALGORITHM_V1_AES
  prototype : ret.prototype.isSome → "__proto__" ∈ keyIds

theorem Collects.addStoredKey (h : Collects keyIds ret) {entry : String × EncInfo}
    (hmem : entry.1 ∈ keyIds) : Collects keyIds (data.addStoredKey ret entry) := by
  obtain ⟨keyId, encInfo⟩ := entry
  rcases data.addStoredKey_cases ret keyId encInfo with
    ⟨keyInfo, -, halgorithm, -, heq⟩ | ⟨-, heq⟩
  · rw [heq, KeyTable.assign]
    split
    next hproto => exact ⟨h.algorithm, fun _ => hproto ▸ hmem⟩
    next =>
      refine ⟨fun keyId' keyInfo' hget => ?_, h.prototype⟩
      rw [get_set] at hget
      split at hget
      next =>
        obtain rfl := Option.some.inj hget
        exact halgorithm
      next => exact h.algorithm keyId' keyInfo' hget
  · rw [heq]
    exact h

/-- What `isStored` collects, from where it has got to. -/
theorem mem_foldl_addStoredKey (entries : List (String × EncInfo)) (ret : KeyTable)
    (keyId : String) :
    keyId ∈ (entries.foldl data.addStoredKey ret).own.keys ↔ keyId ∈ ret.own.keys ∨
      ∃ entry ∈ entries, keyId = entry.1 ∧ keyId ≠ "__proto__" ∧ data.Supports keyId ∧
        entry.2.isComplete = true := by
  induction entries generalizing ret with
  | nil => simp
  | cons entry entries ih =>
    rw [List.foldl_cons, ih, mem_addStoredKey, List.exists_mem_cons_iff, or_assoc]

theorem collects_foldl {entries : List (String × EncInfo)} (h : Collects keyIds ret)
    (hmem : ∀ entry ∈ entries, entry.1 ∈ keyIds) :
    Collects keyIds (entries.foldl data.addStoredKey ret) := by
  induction entries generalizing ret with
  | nil => exact h
  | cons entry entries ih =>
    exact ih (h.addStoredKey (hmem entry List.mem_cons_self)) fun entry' hentry' =>
      hmem entry' (List.mem_cons_of_mem _ hentry')

variable (data) in
/-- What `isStored` collects of a secret. -/
def collected (encrypted : JsObject String EncInfo) : KeyTable :=
  encrypted.entries.foldl data.addStoredKey .empty

variable {encrypted : JsObject String EncInfo}

/-- **The keys under which there is something to decrypt are collected.** -/
theorem mem_collected :
    keyId ∈ (data.collected encrypted).own.keys ↔
      ∃ encInfo, data.Decryptable encrypted keyId encInfo := by
  unfold collected Decryptable
  rw [mem_foldl_addStoredKey]
  constructor
  · rintro (h | ⟨⟨keyId', encInfo⟩, hmem, rfl, hproto, hsupports, hcomplete⟩)
    · exact absurd h List.not_mem_nil
    · exact ⟨encInfo, hsupports, mem_entries.1 hmem, hcomplete, hproto⟩
  · rintro ⟨encInfo, hsupports, hget, hcomplete, hproto⟩
    exact .inr ⟨(keyId, encInfo), mem_entries.2 hget, rfl, hproto, hsupports, hcomplete⟩

theorem collects_collected : Collects encrypted.keys (data.collected encrypted) := by
  refine collects_foldl ⟨fun _ _ h => (nomatch h), fun h => (nomatch h)⟩ fun entry hentry => ?_
  rw [← map_fst_entries]
  exact List.mem_map_of_mem hentry

/-- **The slip**: the loop of `get` ends with an error at a key that is unknown. -/
theorem foldlM_addKeyToDecrypt (entries : List (String × EncInfo)) (keys : KeyTable) :
    entries.foldlM data.addKeyToDecrypt keys =
      if ∀ entry ∈ entries, (data.get (keyName entry.1)).isSome = true then
        .ok (entries.foldl data.addStoredKey keys) else .error .typeError := by
  induction entries generalizing keys with
  | nil => rfl
  | cons entry entries ih =>
    obtain ⟨keyId, encInfo⟩ := entry
    simp only [List.foldlM_cons, List.foldl_cons, List.forall_mem_cons]
    cases hkey : data.get (keyName keyId) with
    | none =>
      rw [if_neg fun h => Bool.false_ne_true h.1, addKeyToDecrypt, hkey]
      rfl
    | some keyInfo =>
      have hturn : data.addKeyToDecrypt keys (keyId, encInfo) =
          .ok (data.addStoredKey keys (keyId, encInfo)) := by
        unfold addKeyToDecrypt addStoredKey
        dsimp only
        rw [hkey]
        dsimp only
        split <;> rfl
      rw [hturn]
      refine (ih _).trans ?_
      simp only [Option.isSome_some, true_and]

/-! ## The two functions -/

variable {lib : CryptoLibrary κ} {name : String} {secretInfo : Content}

/-- All keys of a secret are known. -/
def KnowsAll (data : AccountData) (encrypted : JsObject String EncInfo) : Prop :=
  ∀ keyId ∈ encrypted.keys, (data.get (keyName keyId)).isSome = true

theorem knowsAll_iff : data.KnowsAll encrypted ↔
    ∀ entry ∈ encrypted.entries, (data.get (keyName entry.1)).isSome = true := by
  unfold KnowsAll
  rw [← map_fst_entries, List.forall_mem_map]

/-- `isStored`, of a secret that is encrypted. -/
theorem isStored_iff (hget : data.get name = some secretInfo)
    (hencrypted : secretInfo.encrypted = some encrypted) :
    (∃ ret, data.isStored name = .ok (some ret)) ↔
      ∃ keyId encInfo, data.Decryptable encrypted keyId encInfo := by
  have heq : data.isStored name = .ok (if (data.collected encrypted).own.keys = [] then none
      else some (data.collected encrypted)) := by
    unfold isStored encryptedOf
    rw [hget]
    dsimp only
    rw [hencrypted]
    rfl
  rw [heq]
  constructor
  · rintro ⟨ret, hret⟩
    split at hret
    next => exact nomatch Except.ok.inj hret
    next hne =>
      obtain ⟨keyId, hkeyId⟩ := List.exists_mem_of_ne_nil _ hne
      exact ⟨keyId, mem_collected.1 hkeyId⟩
  · rintro ⟨keyId, hdecryptable⟩
    have hmem := mem_collected.2 hdecryptable
    rw [if_neg (List.ne_nil_of_mem hmem)]
    exact ⟨_, rfl⟩

/-- `get`, of a secret that is encrypted. -/
theorem getSecret_eq (hget : data.get name = some secretInfo)
    (hencrypted : secretInfo.encrypted = some encrypted) (app : Option (Application κ)) :
    (¬ data.KnowsAll encrypted → data.getSecret lib app name = .error .typeError) ∧
      (data.KnowsAll encrypted → data.getSecret lib app name =
        decryptSecret lib app name encrypted (data.collected encrypted)) := by
  have heq : data.getSecret lib app name =
      (encrypted.entries.foldlM data.addKeyToDecrypt .empty).bind
        (decryptSecret lib app name encrypted) := by
    unfold getSecret encryptedOf
    rw [hget]
    dsimp only
    rw [hencrypted]
    rfl
  rw [heq, foldlM_addKeyToDecrypt]
  refine ⟨fun hunknown => ?_, fun hknown => ?_⟩
  · rw [if_neg fun h => hunknown (knowsAll_iff.2 h)]
    rfl
  · rw [if_pos (knowsAll_iff.1 hknown)]
    rfl

/-- An application that has a key of the table is given its id back. -/
theorem getSecretStorageKey_of_mem (hkeys : Collects keyIds keys) (hmem : keyId ∈ keys.own.keys)
    {privateKey : κ} (happ : app keys name = some (keyId, privateKey)) :
    getSecretStorageKey (some app) keys name = .ok (keyId, privateKey) := by
  obtain ⟨keyInfo, hget⟩ := mem_keys_iff.1 hmem
  unfold getSecretStorageKey KeyTable.find
  dsimp only
  rw [happ]
  dsimp only
  rw [hget]
  exact if_pos (hkeys.algorithm keyId keyInfo hget)

/-- A key that is not in the table is not accepted, unless it is the prototype. -/
theorem mem_of_getSecretStorageKey (hkeys : Collects keyIds keys) (hproto : "__proto__" ∉ keyIds)
    {privateKey : κ} (happ : app keys name = some (keyId, privateKey)) {key : String × κ}
    (hok : getSecretStorageKey (some app) keys name = .ok key) : keyId ∈ keys.own.keys := by
  have hnone : keys.prototype = none := by
    cases hprototype : keys.prototype with
    | none => rfl
    | some keyInfo => exact absurd (hkeys.prototype (by rw [hprototype]; rfl)) hproto
  cases hget : keys.own.get keyId with
  | some keyInfo => exact mem_keys_of_get hget
  | none =>
    unfold getSecretStorageKey KeyTable.find lookup at hok
    dsimp only at hok
    rw [happ] at hok
    dsimp only at hok
    rw [hget, hnone] at hok
    dsimp only [get_empty] at hok
    by_cases hinherited : keyId ∈ inheritedNames
    · rw [if_pos hinherited] at hok
      exact nomatch hok
    · rw [if_neg hinherited] at hok
      exact nomatch hok

/-- **With a key that is collected the secret is got**, unless it is marked as passed through. -/
theorem decryptSecret_of_decryptable {encInfo : EncInfo}
    (hdecryptable : data.Decryptable encrypted keyId encInfo) {privateKey : κ}
    (happ : app (data.collected encrypted) name = some (keyId, privateKey)) :
    decryptSecret lib (some app) name encrypted (data.collected encrypted) =
      if encInfo.passthrough then .error .typeError
      else some <$> lib.decryptAES encInfo privateKey name := by
  have hmem := mem_collected.2 ⟨encInfo, hdecryptable⟩
  unfold decryptSecret
  rw [if_neg (List.ne_nil_of_mem hmem),
    getSecretStorageKey_of_mem collects_collected hmem happ]
  simp only [bind, Except.bind, hdecryptable.2.1]

/-! ## When they agree -/

/-- An application that has all private keys, and prefers one. -/
def prefers (privateKeys : String → κ) (keyId : String) : Application κ := fun keys _ =>
  if keyId ∈ keys.own.keys then some (keyId, privateKeys keyId)
  else keys.own.keys.head?.map fun keyId => (keyId, privateKeys keyId)

theorem rightApplication_prefers (privateKeys : String → κ) (keyId : String) :
    RightApplication (prefers privateKeys keyId) privateKeys := by
  intro keys name hne
  unfold prefers
  by_cases hmem : keyId ∈ keys.own.keys
  · exact ⟨keyId, hmem, if_pos hmem⟩
  · rw [if_neg hmem]
    cases hkeys : keys.own.keys with
    | nil => exact absurd hkeys hne
    | cons keyId' rest => exact ⟨keyId', List.mem_cons_self, rfl⟩

/-- **When `isStored` and `get` agree.** -/
theorem agreesOn_iff {secret : String}
    (h : data.StoredUnder lib name secret privateKeys encrypted) :
    data.Agrees lib name secret privateKeys ↔ data.AllKnown encrypted := by
  obtain ⟨⟨secretInfo, hget, hencrypted⟩, hsecret⟩ := h
  unfold Agrees AllKnown
  simp only [isStored_iff hget hencrypted]
  by_cases hsome : ∃ keyId encInfo, data.Decryptable encrypted keyId encInfo
  · obtain ⟨keyId₀, encInfo₀, hdecryptable₀⟩ := hsome
    constructor
    · intro hagrees
      have hgets : ∀ keyId, data.getSecret lib (some (prefers privateKeys keyId)) name =
          .ok (some secret) := fun keyId =>
        (hagrees _ (rightApplication_prefers privateKeys keyId)).1 ⟨_, _, hdecryptable₀⟩
      have hknown : data.KnowsAll encrypted := by
        by_contra hunknown
        have herror : data.getSecret lib (some (prefers privateKeys keyId₀)) name =
            .error .typeError := (getSecret_eq hget hencrypted _).1 hunknown
        rw [hgets keyId₀] at herror
        exact nomatch herror
      refine .inr ⟨hknown, fun keyId encInfo hdecryptable => ?_⟩
      have happ : prefers privateKeys keyId (data.collected encrypted) name =
          some (keyId, privateKeys keyId) := if_pos (mem_collected.2 ⟨encInfo, hdecryptable⟩)
      have hok := hgets keyId
      rw [(getSecret_eq hget hencrypted _).2 hknown,
        decryptSecret_of_decryptable hdecryptable happ] at hok
      by_contra hpassthrough
      rw [if_pos (Bool.not_eq_false _ ▸ hpassthrough)] at hok
      exact nomatch hok
    · rintro (hnone | ⟨hknown, hnotPassed⟩) app happ
      · exact absurd hdecryptable₀ (hnone _ _)
      · refine iff_of_true ⟨_, _, hdecryptable₀⟩ ?_
        obtain ⟨keyId, hmem, heq⟩ := happ (data.collected encrypted) name
          (List.ne_nil_of_mem (mem_collected.2 ⟨_, hdecryptable₀⟩))
        obtain ⟨encInfo, hdecryptable⟩ := mem_collected.1 hmem
        obtain ⟨randomBytes, hencrypts⟩ :=
          hsecret keyId encInfo hdecryptable.1 hdecryptable.2.1 hdecryptable.2.2.1
        rw [(getSecret_eq hget hencrypted _).2 hknown,
          decryptSecret_of_decryptable hdecryptable heq,
          if_neg (by rw [hnotPassed _ _ hdecryptable]; exact Bool.false_ne_true), hencrypts,
          lib.decryptAES_encryptAES]
        rfl
  · have hnone : ∀ keyId encInfo, ¬ data.Decryptable encrypted keyId encInfo :=
      fun keyId encInfo h => hsome ⟨keyId, encInfo, h⟩
    refine iff_of_true (fun app _ => iff_of_false hsome fun hok => ?_) (.inl hnone)
    -- nothing has been collected, and an error is thrown
    by_cases hknown : data.KnowsAll encrypted
    · rw [(getSecret_eq hget hencrypted _).2 hknown, decryptSecret, if_pos] at hok
      · exact nomatch hok
      · refine List.eq_nil_iff_forall_not_mem.2 fun keyId hmem => ?_
        obtain ⟨encInfo, hdecryptable⟩ := mem_collected.1 hmem
        exact hnone keyId encInfo hdecryptable
    · rw [(getSecret_eq hget hencrypted _).1 hknown] at hok
      exact nomatch hok

/-! ## When it is given back -/

variable (lib name) in
/-- What the loop of `store` makes, from where it has got to: an encryption under every key. -/
theorem exists_foldlM_encryptWith (happ : RightApplication app privateKeys) (secret : String)
    {keys : List (String × Vector UInt8 16)} (hkeys : ∀ key ∈ keys, data.Supports key.1)
    (encrypted : JsObject String EncInfo) :
    ∃ encrypted', keys.foldlM (data.encryptWith lib (some app) name secret) encrypted =
        .ok encrypted' ∧
      (∀ keyId, keyId ∈ encrypted'.keys ↔
        keyId ∈ encrypted.keys ∨ keyId ∈ keys.map Prod.fst ∧ keyId ≠ "__proto__") ∧
      ∀ keyId encInfo, encrypted'.get keyId = some encInfo → encrypted.get keyId = some encInfo ∨
        ∃ randomBytes, encInfo = lib.encryptAES secret (privateKeys keyId) name randomBytes := by
  induction keys generalizing encrypted with
  | nil => exact ⟨encrypted, rfl, fun _ => by simp, fun _ _ h => .inl h⟩
  | cons key keys ih =>
    obtain ⟨keyId, randomBytes⟩ := key
    obtain ⟨keyInfo, hget, halgorithm⟩ := hkeys _ List.mem_cons_self
    have hturn : data.encryptWith lib (some app) name secret encrypted (keyId, randomBytes) =
        .ok (if keyId = "__proto__" then encrypted else encrypted.set keyId
          (lib.encryptAES secret (privateKeys keyId) name randomBytes)) := by
      -- the application is asked for the private key of this one
      have hmem : keyId ∈ ((empty (V := Content)).set keyId keyInfo).keys :=
        mem_keys_set.2 (.inl rfl)
      have hsingle : ∀ keyId' ∈ ((empty (V := Content)).set keyId keyInfo).keys,
          keyId' = keyId := fun keyId' h =>
        (mem_keys_set.1 h).resolve_right List.not_mem_nil
      obtain ⟨keyId', hmem', heq⟩ :=
        happ ⟨JsObject.empty.set keyId keyInfo, none⟩ name (List.ne_nil_of_mem hmem)
      obtain rfl := hsingle keyId' hmem'
      have hcollects : Collects [] ⟨JsObject.empty.set keyId' keyInfo, none⟩ := by
        refine ⟨fun keyId'' keyInfo'' h => ?_, fun h => (nomatch h)⟩
        dsimp only at h
        rw [hsingle _ (mem_keys_of_get h), get_set_self] at h
        obtain rfl := Option.some.inj h
        exact halgorithm
      unfold encryptWith
      dsimp only
      rw [hget]
      dsimp only
      rw [if_pos halgorithm, getSecretStorageKey_of_mem hcollects hmem' heq]
      rfl
    obtain ⟨encrypted', hfold, hmem, hvalues⟩ := ih
      (fun key hkey => hkeys key (List.mem_cons_of_mem _ hkey))
      (if keyId = "__proto__" then encrypted else encrypted.set keyId
        (lib.encryptAES secret (privateKeys keyId) name randomBytes))
    refine ⟨encrypted', ?_, fun keyId' => ?_, fun keyId' encInfo h => ?_⟩
    · rw [List.foldlM_cons, hturn]
      exact hfold
    · rw [hmem, List.map_cons, List.mem_cons]
      by_cases hproto : keyId = "__proto__"
      · rw [if_pos hproto]
        constructor
        · rintro (h | ⟨h, hne⟩)
          · exact .inl h
          · exact .inr ⟨.inr h, hne⟩
        · rintro (h | ⟨rfl | h, hne⟩)
          · exact .inl h
          · exact absurd hproto hne
          · exact .inr ⟨h, hne⟩
      · rw [if_neg hproto, mem_keys_set]
        constructor
        · rintro ((rfl | h) | ⟨h, hne⟩)
          · exact .inr ⟨.inl rfl, hproto⟩
          · exact .inl h
          · exact .inr ⟨.inr h, hne⟩
        · rintro (h | ⟨rfl | h, hne⟩)
          · exact .inl (.inr h)
          · exact .inl (.inl rfl)
          · exact .inr ⟨h, hne⟩
    · rcases hvalues keyId' encInfo h with h | h
      · by_cases hproto : keyId = "__proto__"
        · rw [if_pos hproto] at h
          exact .inl h
        · rw [if_neg hproto, get_set] at h
          split at h
          next heq =>
            subst heq
            exact .inr ⟨randomBytes, (Option.some.inj h).symm⟩
          next => exact .inl h
      · exact .inr h

/-- To get a secret is to be given a key that is collected. -/
theorem mem_of_decryptSecret (hkeys : Collects keyIds keys) (hproto : "__proto__" ∉ keyIds)
    {privateKey : κ} (happ : app keys name = some (keyId, privateKey)) {result : Option String}
    (hok : decryptSecret lib (some app) name encrypted keys = .ok result) :
    keyId ∈ keys.own.keys := by
  unfold decryptSecret at hok
  split at hok
  next => exact nomatch hok
  next =>
    cases hkey : getSecretStorageKey (some app) keys name with
    | error e =>
      rw [hkey] at hok
      exact nomatch hok
    | ok key => exact mem_of_getSecretStorageKey hkeys hproto happ hkey

/-- **When a secret that is stored is given back.** -/
theorem restores_iff {secret : String} {keys : List (String × Vector UInt8 16)} (hne : keys ≠ [])
    (hkeys : ∀ key ∈ keys, data.Supports key.1) (happ : RightApplication app privateKeys) :
    data.Restores lib app name secret privateKeys keys ↔
      secret ≠ "" ∧ ∀ key ∈ keys, key.1 ≠ "__proto__" ∧ keyName key.1 ≠ name := by
  obtain ⟨encrypted, hfold, hmem, hvalues⟩ :=
    exists_foldlM_encryptWith lib name happ secret hkeys .empty
  have hstore : data.store lib (some app) name secret (.inl keys) =
      .ok (data.set name ⟨none, none, some encrypted, .empty⟩) := by
    unfold store
    refine (if_neg hne).trans ?_
    rw [hfold]
    rfl
  have hencryption : ∀ keyId encInfo, encrypted.get keyId = some encInfo →
      ∃ randomBytes, encInfo = lib.encryptAES secret (privateKeys keyId) name randomBytes :=
    fun keyId encInfo h => (hvalues keyId encInfo h).resolve_left fun h => (nomatch h)
  have hproto : "__proto__" ∉ encrypted.keys := fun h =>
    ((hmem _).1 h).elim (fun h => absurd h List.not_mem_nil) fun h => h.2 rfl
  have hget := data.get_set_self name ⟨none, none, some encrypted, .empty⟩
  constructor
  · rintro ⟨data', hok, hgets⟩
    obtain rfl := Except.ok.inj (hstore.symm.trans hok)
    have hall : ∀ key ∈ keys, secret ≠ "" ∧ key.1 ≠ "__proto__" ∧ keyName key.1 ≠ name := by
      intro key hkey
      have hsecret := hgets key hkey (fun _ _ => some (key.1, privateKeys key.1)) fun _ _ => rfl
      by_cases hknown : AccountData.KnowsAll
          (data.set name ⟨none, none, some encrypted, .empty⟩) encrypted
      · rw [(getSecret_eq hget rfl _).2 hknown] at hsecret
        obtain ⟨encInfo, ⟨keyInfo, hkeyInfo, halgorithm⟩, hencInfo, hcomplete, hne'⟩ :=
          mem_collected.1 (mem_of_decryptSecret collects_collected hproto rfl hsecret)
        obtain ⟨randomBytes, rfl⟩ := hencryption key.1 encInfo hencInfo
        refine ⟨(lib.isComplete_encryptAES _ _ _ _).1 hcomplete, hne', fun hname => ?_⟩
        -- the key would be the secret itself
        rw [hname, hget] at hkeyInfo
        obtain rfl := Option.some.inj hkeyInfo
        exact nomatch halgorithm
      · rw [(getSecret_eq hget rfl _).1 hknown] at hsecret
        exact nomatch hsecret
    obtain ⟨key, hkey⟩ := List.exists_mem_of_ne_nil _ hne
    exact ⟨(hall key hkey).1, fun key hkey => (hall key hkey).2⟩
  · rintro ⟨hsecret, hall⟩
    refine ⟨_, hstore, fun key hkey app' hsupplies => ?_⟩
    have hsupports : ∀ key ∈ keys, AccountData.Supports
        (data.set name ⟨none, none, some encrypted, .empty⟩) key.1 := by
      intro key hkey
      obtain ⟨keyInfo, hkeyInfo, halgorithm⟩ := hkeys key hkey
      exact ⟨keyInfo, (get_set_ne (hall key hkey).2).trans hkeyInfo, halgorithm⟩
    have hknown : AccountData.KnowsAll
        (data.set name ⟨none, none, some encrypted, .empty⟩) encrypted := by
      intro keyId hkeyId
      obtain ⟨hids, -⟩ := ((hmem keyId).1 hkeyId).resolve_left List.not_mem_nil
      obtain ⟨key, hkey, rfl⟩ := List.mem_map.1 hids
      obtain ⟨keyInfo, hkeyInfo, -⟩ := hsupports key hkey
      rw [hkeyInfo]
      rfl
    obtain ⟨encInfo, hencInfo⟩ := mem_keys_iff.1
      ((hmem key.1).2 (.inr ⟨List.mem_map_of_mem hkey, (hall key hkey).1⟩))
    obtain ⟨randomBytes, rfl⟩ := hencryption key.1 encInfo hencInfo
    have hdecryptable : AccountData.Decryptable
        (data.set name ⟨none, none, some encrypted, .empty⟩) encrypted key.1
        (lib.encryptAES secret (privateKeys key.1) name randomBytes) :=
      ⟨hsupports key hkey, hencInfo, (lib.isComplete_encryptAES _ _ _ _).2 hsecret,
        (hall key hkey).1⟩
    rw [(getSecret_eq hget rfl _).2 hknown,
      decryptSecret_of_decryptable hdecryptable (hsupplies _ _)]
    have hdecrypts : lib.decryptAES (lib.encryptAES secret (privateKeys key.1) name randomBytes)
        (privateKeys key.1) name = .ok secret :=
      lib.decryptAES_encryptAES secret (privateKeys key.1) name randomBytes false
    rw [hdecrypts]
    rfl

end AccountData

/-- **When secrets are found and given back**: `isStored` and `get` agree when all keys of a secret
are known, and `get` gives back what `store` stores when it is not empty. -/
theorem secretStorage_iff (lib : CryptoLibrary κ) (data : AccountData) (privateKeys : String → κ)
    (name secret : String) :
    (∀ encrypted, data.StoredUnder lib name secret privateKeys encrypted →
      (data.Agrees lib name secret privateKeys ↔ data.AllKnown encrypted)) ∧
    ∀ app keys, keys ≠ [] → (∀ key ∈ keys, data.Supports key.1) →
      RightApplication app privateKeys →
        (data.Restores lib app name secret privateKeys keys ↔
          secret ≠ "" ∧ ∀ key ∈ keys, key.1 ≠ "__proto__" ∧ keyName key.1 ≠ name) :=
  ⟨fun _ h => AccountData.agreesOn_iff h, fun _ _ hne hkeys happ =>
    AccountData.restores_iff hne hkeys happ⟩

/-! ## A key that is unknown -/

/-- A library that keeps no secrets: texts are left as they are, and bytes are characters. -/
def plainLibrary : CryptoLibrary String where
  subtleCrypto := false
  deriveKeys _ _ := ([], [])
  cipher _ _ data := data.toByteArray.data.toList
  decipher _ _ bytes := (String.fromUTF8? ⟨bytes.toArray⟩).getD ""
  hmac _ _ := [0]
  encodeBase64 bytes := String.ofList (bytes.map fun b => Char.ofNat b.toNat)
  decodeBase64 text := text.toList.map fun c => UInt8.ofNat c.toNat
  decipher_cipher _ _ data := by
    unfold String.fromUTF8?
    rw [dif_pos data.isValidUTF8]
    rfl
  cipher_eq_nil _ _ data := by
    rw [Array.toList_eq_nil_iff, ← String.toByteArray_inj]
    exact ⟨fun h => ByteArray.ext h, fun h => congrArg ByteArray.data h⟩
  hmac_ne_nil _ _ := List.cons_ne_nil _ _
  decode_encode bytes := by
    rw [String.toList_ofList, List.map_map]
    refine (List.map_congr_left fun b _ => ?_).trans (List.map_id _)
    have hvalid : b.toNat.isValidChar := .inl (by have := b.toNat_lt; omega)
    have hchar : (Char.ofNat b.toNat).toNat = b.toNat := by
      rw [Char.ofNat, dif_pos hvalid]
      rfl
    rw [Function.comp_apply, hchar, UInt8.ofNat_toNat, id]
  encode_nil := rfl

/-- The private key of every key. -/
def onePrivateKey (_keyId : String) : String := "private"

def zeroBytes : Vector UInt8 16 := Vector.replicate 16 0

/-- The secret "bar", under some keys. -/
def barUnder (keyIds : List String) : JsObject String EncInfo :=
  JsObject.empty.setAll keyIds (plainLibrary.encryptAES "bar" "private" "foo" zeroBytes)

/-- The key "abc" is known, and "foo" is stored under some keys. -/
def fooStored (keyIds : List String) : AccountData :=
  (JsObject.empty.set (keyName "abc")
    ⟨some SECRET_STORAGE_ALGORITHM_V1_AES, none, none, .empty⟩).set "foo"
      ⟨none, none, some (barUnder keyIds), .empty⟩

theorem get_barUnder {keyIds : List String} {keyId : String} {encInfo : EncInfo}
    (h : (barUnder keyIds).get keyId = some encInfo) :
    encInfo = plainLibrary.encryptAES "bar" "private" "foo" zeroBytes := by
  unfold barUnder at h
  rw [get_setAll] at h
  split at h
  next => exact (Option.some.inj h).symm
  next => exact nomatch h

theorem storedUnder_fooStored (keyIds : List String) :
    (fooStored keyIds).StoredUnder plainLibrary "foo" "bar" onePrivateKey (barUnder keyIds) := by
  refine ⟨⟨_, get_set_self _ _ _, rfl⟩, fun keyId encInfo _ hget _ => ⟨zeroBytes, ?_⟩⟩
  rw [get_barUnder hget]
  rfl

theorem supports_fooStored (keyIds : List String) : (fooStored keyIds).Supports "abc" :=
  ⟨_, (get_set_ne (by decide)).trans (get_set_self _ _ _), rfl⟩

/-- With the key that is known "foo" is got, and can be stored again. -/
theorem secretStorage_iff_foo :
    (fooStored ["abc"]).Agrees plainLibrary "foo" "bar" onePrivateKey ∧
      (fooStored ["abc"]).Restores plainLibrary (AccountData.prefers onePrivateKey "abc") "foo"
        "bar" onePrivateKey [("abc", zeroBytes)] := by
  have hiff := secretStorage_iff plainLibrary (fooStored ["abc"]) onePrivateKey "foo" "bar"
  refine ⟨(hiff.1 _ (storedUnder_fooStored _)).2 (.inr ⟨fun keyId hkeyId => ?_,
    fun keyId encInfo h => ?_⟩), (hiff.2 _ _ (List.cons_ne_nil _ _) (fun key hkey => ?_)
      (AccountData.rightApplication_prefers _ _)).2 ⟨by decide, fun key hkey => ?_⟩⟩
  · obtain rfl := List.mem_singleton.1 hkeyId
    obtain ⟨keyInfo, hget, -⟩ := supports_fooStored ["abc"]
    rw [hget]
    rfl
  · rw [get_barUnder h.2.1]
    rfl
  · obtain rfl := List.mem_singleton.1 hkey
    exact supports_fooStored ["abc"]
  · obtain rfl := List.mem_singleton.1 hkey
    exact ⟨by decide, by decide⟩

/-- **Not every secret is got**: under a second key, that is unknown, "foo" is stored but not got.
-/
theorem secretStorage_fails : ¬ ∀ (lib : CryptoLibrary String) (data : AccountData)
    (privateKeys : String → String) (name secret : String),
    (∀ encrypted, data.StoredUnder lib name secret privateKeys encrypted →
      data.Agrees lib name secret privateKeys) ∧
    ∀ app keys, keys ≠ [] → (∀ key ∈ keys, data.Supports key.1) →
      RightApplication app privateKeys → data.Restores lib app name secret privateKeys keys := by
  intro h
  have hagrees := (h plainLibrary (fooStored ["abc", "old"]) onePrivateKey "foo" "bar").1 _
    (storedUnder_fooStored _)
  rcases (AccountData.agreesOn_iff (storedUnder_fooStored _)).1 hagrees with hnone | ⟨hknown, -⟩
  · exact hnone "abc" _ ⟨supports_fooStored _, JsObject.get_setAll _ _ _ _,
      (plainLibrary.isComplete_encryptAES _ _ _ _).2 (by decide), by decide⟩
  · exact absurd (hknown "old" (JsObject.mem_keys_setAll.2 (.inl (by decide)))) (by decide)

end MatrixSdk.SecretStorage
