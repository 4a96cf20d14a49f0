/-
`CrossSigningInfo.setKeys` of `src/crypto/CrossSigning.js`, and `pkVerify` of
`src/crypto/olmlib.js`, over any sequence of calls with any key objects.

A call goes through three stages: it settles which master key is to sign and
what that makes of `firstUse`, it checks the two subkeys against that key, and
it saves. Only the last stage touches the keys, but `firstUse` is written in the
first, so that a call that throws in the second can have changed it.
[`setKeys_exact`] says when, and that everything else claimed of the stored keys
always holds.
-/
import MatrixSdk.Lib.JsObject
import MatrixSdk.Lib.System

set_option autoImplicit false

namespace MatrixSdk.Crypto

open MatrixSdk.Lib

/-! ## Key objects -/

/-- What the language makes of a value found where a string is expected. -/
structure JsValues (V : Type) where
  ofString : String → V
  truthy : V → Bool
  /-- `"" + v`. -/
  text : V → String

/-- A key object as a server sent it: nothing in it is checked. -/
structure KeyInfo (V : Type) where
  user_id : Option V
  /-- `none` where `Object.values` would throw. -/
  keys : Option (JsObject String V)
  signatures : Option (JsObject String (JsObject String V))
  unsigned : Option V
  /-- The other fields, which are signed like `user_id` and `keys`. -/
  rest : JsObject String V

/-- The argument of `setKeys`, and the `keys` of a `CrossSigningInfo`. -/
structure CrossSigningKeys (V : Type) where
  master : Option (KeyInfo V)
  self_signing : Option (KeyInfo V)
  user_signing : Option (KeyInfo V)

/-- What `setKeys` throws. -/
inductive SetKeysError
  /-- `new Error(text)`. -/
  | error (text : String)
  /-- What olm throws. -/
  | olm
  | typeError
  deriving DecidableEq, Repr

/-- `publicKeyFromKeyInfo`; `none` if it throws. -/
def publicKeyFromKeyInfo {V : Type} (keyInfo : KeyInfo V) : Option (Option V) :=
  keyInfo.keys.map fun keys => keys.entries.head?.map Prod.snd

section SetKeys

variable {V : Type} [DecidableEq V] (js : JsValues V)

-- Olm's check of a signature with a key, over the canonical JSON of an object
variable (ed25519Verify : Option V → KeyInfo V → V → Bool)

/-- `"" + v` where `v` may be `undefined`. -/
def JsValues.textOf (v : Option V) : String := v.elim "undefined" js.text

/-- What is left of an object without what is not signed. -/
def KeyInfo.signedPart (obj : KeyInfo V) : KeyInfo V :=
  { obj with signatures := none, unsigned := obj.unsigned.filter fun v => !js.truthy v }

/-- `obj.signatures[userId][keyId]`, if everything on the way is truthy. -/
def KeyInfo.signature (obj : KeyInfo V) (userId keyId : String) : Option V :=
  ((obj.signatures.bind fun sigs => sigs.get userId).bind fun sigs => sigs.get keyId).filter
    js.truthy

/-- `olmlib.pkVerify`; the object is put together again before it returns. -/
def pkVerify (obj : KeyInfo V) (pubkey : Option V) (userId : String) : Except SetKeysError Unit :=
  match obj.signature js userId ("ed25519:" ++ js.textOf pubkey) with
  | none => .error (.error "No signature")
  | some signature =>
    if ed25519Verify pubkey (obj.signedPart js) signature then .ok () else .error .olm

/-- The fields of a `CrossSigningInfo` that `setKeys` reads and writes. -/
structure CrossSigningInfo (V : Type) where
  userId : String
  keys : CrossSigningKeys V
  firstUse : Bool

namespace CrossSigningInfo

/-- The constructor. -/
def new (userId : String) : CrossSigningInfo V where
  userId := userId
  keys := ⟨none, none, none⟩
  firstUse := true

/-- `getId()`, where a master key is stored. -/
def getId (info : CrossSigningInfo V) : Option (Option V) :=
  info.keys.master.bind publicKeyFromKeyInfo

/-- The text of the errors about a user id. All three read that of the master key. -/
def mismatchedUserId (info : CrossSigningInfo V) (keys : CrossSigningKeys V) (name : String) :
    SetKeysError :=
  match keys.master with
  | none => .typeError
  | some master => .error ("Mismatched user ID " ++ js.textOf master.user_id ++
      " in " ++ name ++ " key from " ++ info.userId)

/-- The first stage: `signingKeys.master`, with what becomes of `firstUse`. -/
def signingMaster (info : CrossSigningInfo V) (keys : CrossSigningKeys V) :
    CrossSigningInfo V × Except SetKeysError (KeyInfo V) :=
  match keys.master with
  | some master =>
    if master.user_id ≠ some (js.ofString info.userId) then
      (info, .error (info.mismatchedUserId js keys "master"))
    else if info.keys.master.isNone then
      -- "this is the first key we've seen, so first-use is true"
      ({ info with firstUse := true }, .ok master)
    else
      match publicKeyFromKeyInfo master with
      | none => (info, .error .typeError)
      | some pubkey =>
        -- "this is a different key, so first-use is false"
        if some pubkey ≠ info.getId then ({ info with firstUse := false }, .ok master)
        else (info, .ok master)
  | none =>
    match info.keys.master with
    | some master => (info, .ok master)
    | none => (info, .error (.error "Tried to set cross-signing keys without a master key"))

/-- The check of one subkey. -/
def verifySubkey (info : CrossSigningInfo V) (keys : CrossSigningKeys V) (masterKey : Option V)
    (name : String) : Option (KeyInfo V) → Except SetKeysError Unit
  | none => .ok ()
  | some subkey =>
    if subkey.user_id ≠ some (js.ofString info.userId) then
      .error (info.mismatchedUserId js keys name)
    else pkVerify js ed25519Verify subkey masterKey info.userId

/-- The second stage, "verify signatures". -/
def verifySignatures (info : CrossSigningInfo V) (keys : CrossSigningKeys V)
    (masterKey : Option V) : Except SetKeysError Unit :=
  match info.verifySubkey js ed25519Verify keys masterKey "user_signing" keys.user_signing with
  | .error e => .error e
  | .ok () => info.verifySubkey js ed25519Verify keys masterKey "self_signing" keys.self_signing

/-- The last stage, "if everything checks out, then save the keys". -/
def saveKeys (info : CrossSigningInfo V) (keys : CrossSigningKeys V) : CrossSigningInfo V :=
  let saved : CrossSigningKeys V :=
    match keys.master with
    -- "the old self-signing and user-signing keys are obsolete"
    | some master => ⟨some master, none, none⟩
    | none => info.keys
  { info with keys :=
      { saved with
        self_signing := keys.self_signing.or saved.self_signing
        user_signing := keys.user_signing.or saved.user_signing } }

/-- `setKeys`: what is stored afterwards, and how the call ends. -/
def setKeys (info : CrossSigningInfo V) (keys : CrossSigningKeys V) :
    CrossSigningInfo V × Except SetKeysError Unit :=
  match info.signingMaster js keys with
  | (info, .error e) => (info, .error e)
  | (info, .ok master) =>
    match publicKeyFromKeyInfo master with
    | none => (info, .error .typeError)
    | some masterKey =>
      match info.verifySignatures js ed25519Verify keys masterKey with
      | .error e => (info, .error e)
      | .ok () => (info.saveKeys keys, .ok ())

/-- The calls of `setKeys` on the object of one user. -/
def system (userId : String) : System (CrossSigningInfo V) (CrossSigningKeys V) where
  init := new userId
  step info keys := some (info.setKeys js ed25519Verify keys).1

end CrossSigningInfo

/-! ## What is claimed of the stored keys -/

/-- A subkey that belongs to the user and that his master key has signed. -/
def SignedSubkey (userId : String) (masterKey : Option V) (subkey : KeyInfo V) : Prop :=
  subkey.user_id = some (js.ofString userId) ∧
    ∃ signature, subkey.signature js userId ("ed25519:" ++ js.textOf masterKey) = some signature ∧
      ed25519Verify masterKey (subkey.signedPart js) signature

/-- Each stored subkey is signed by the stored master key. -/
def SubkeysSigned (info : CrossSigningInfo V) : Prop :=
  ∀ subkey, info.keys.self_signing = some subkey ∨ info.keys.user_signing = some subkey →
    ∃ masterKey, info.getId = some masterKey ∧
      SignedSubkey js ed25519Verify info.userId masterKey subkey

/-- No call of the run that returned was given another master key than the stored one. -/
def OnlyMasterKey (tr : List (CrossSigningInfo V × CrossSigningKeys V))
    (info : CrossSigningInfo V) : Prop :=
  ∀ p ∈ tr, ∀ master, p.2.master = some master →
    (p.1.setKeys js ed25519Verify p.2).2 = .ok () → publicKeyFromKeyInfo master = info.getId

/-- A call that throws leaves the keys and `firstUse` as they were. -/
def ThrowsUnchanged (info : CrossSigningInfo V) (keys : CrossSigningKeys V) : Prop :=
  ∀ e, (info.setKeys js ed25519Verify keys).2 = .error e →
    (info.setKeys js ed25519Verify keys).1 = info

/-- The call brings a master key of the user that is not the one stored, the one stored
being the first, and with it a subkey that is not his or that it has not signed. -/
def ReplacesBadly (info : CrossSigningInfo V) (keys : CrossSigningKeys V) : Prop :=
  info.firstUse = true ∧ info.keys.master.isSome ∧
    ∃ master masterKey, keys.master = some master ∧
      master.user_id = some (js.ofString info.userId) ∧
      publicKeyFromKeyInfo master = some masterKey ∧ info.getId ≠ some masterKey ∧
      ∃ subkey, (keys.user_signing = some subkey ∨ keys.self_signing = some subkey) ∧
        ¬ SignedSubkey js ed25519Verify info.userId masterKey subkey

/-! ## What a call does -/

omit [DecidableEq V] in
/-- `pkVerify` returns exactly for an object with a signature that olm accepts. -/
theorem pkVerify_ok_iff {obj : KeyInfo V} {pubkey : Option V} {userId : String} :
    pkVerify js ed25519Verify obj pubkey userId = .ok () ↔
      ∃ signature, obj.signature js userId ("ed25519:" ++ js.textOf pubkey) = some signature ∧
        ed25519Verify pubkey (obj.signedPart js) signature := by
  unfold pkVerify
  split
  next hnone =>
    constructor
    · intro h
      exact nomatch h
    · rintro ⟨signature, hsome, -⟩
      rw [hnone] at hsome
      exact nomatch hsome
  next signature hsome =>
    rw [hsome]
    split
    next hverify => exact ⟨fun _ => ⟨signature, rfl, hverify⟩, fun _ => rfl⟩
    next hverify =>
      constructor
      · intro h
        exact nomatch h
      · rintro ⟨_, heq, h⟩
        obtain rfl := Option.some.inj heq
        exact absurd h hverify

namespace CrossSigningInfo

variable {js ed25519Verify} {info info' : CrossSigningInfo V} {keys : CrossSigningKeys V}
  {tr : List (CrossSigningInfo V × CrossSigningKeys V)}

theorem verifySubkey_ok_iff {masterKey : Option V} {name : String} {key : Option (KeyInfo V)} :
    info.verifySubkey js ed25519Verify keys masterKey name key = .ok () ↔
      ∀ subkey, key = some subkey →
        SignedSubkey js ed25519Verify info.userId masterKey subkey := by
  cases key with
  | none => exact ⟨fun _ _ h => (nomatch h), fun _ => rfl⟩
  | some subkey =>
    have hone : info.verifySubkey js ed25519Verify keys masterKey name (some subkey) = .ok () ↔
        SignedSubkey js ed25519Verify info.userId masterKey subkey := by
      show (if subkey.user_id ≠ some (js.ofString info.userId) then
        Except.error (info.mismatchedUserId js keys name)
        else pkVerify js ed25519Verify subkey masterKey info.userId) = .ok () ↔ _
      by_cases huser : subkey.user_id = some (js.ofString info.userId)
      · rw [if_neg (not_not.2 huser), pkVerify_ok_iff]
        exact ⟨fun h => ⟨huser, h⟩, fun h => h.2⟩
      · rw [if_pos huser]
        exact ⟨fun h => (nomatch h), fun h => absurd h.1 huser⟩
    rw [hone]
    constructor
    · rintro hsigned _ heq
      exact Option.some.inj heq ▸ hsigned
    · exact fun h => h subkey rfl

/-- The second stage lets the call go on exactly when the subkeys it brings are signed. -/
theorem verifySignatures_ok_iff {masterKey : Option V} :
    info.verifySignatures js ed25519Verify keys masterKey = .ok () ↔
      ∀ subkey, keys.user_signing = some subkey ∨ keys.self_signing = some subkey →
        SignedSubkey js ed25519Verify info.userId masterKey subkey := by
  have huser : info.verifySubkey js ed25519Verify keys masterKey "user_signing"
      keys.user_signing = .ok () ↔ _ := verifySubkey_ok_iff
  have hself : info.verifySubkey js ed25519Verify keys masterKey "self_signing"
      keys.self_signing = .ok () ↔ _ := verifySubkey_ok_iff
  simp only [or_imp, forall_and]
  rw [← huser, ← hself]
  unfold verifySignatures
  split
  next e herror =>
    rw [herror]
    exact ⟨fun h => (nomatch h), fun h => (nomatch h.1)⟩
  next hok =>
    rw [hok]
    exact ⟨fun h => ⟨rfl, h⟩, fun h => h.2⟩

/-- What the first stage makes of `firstUse`, if it brings up `master`. -/
def firstUseAfter (info : CrossSigningInfo V) (keys : CrossSigningKeys V) (master : KeyInfo V) :
    Bool :=
  if keys.master.isNone then info.firstUse
  else if info.keys.master.isNone then true
  else if publicKeyFromKeyInfo master = info.getId then info.firstUse
  else false

variable (js info keys) in
/-- What the first stage does: it throws and changes nothing, or brings up the key that is to
sign, the given one before the stored one. A given key has been read then, if one was stored. -/
theorem signingMaster_cases :
    (∃ e, info.signingMaster js keys = (info, .error e) ∧
      ∀ given, keys.master = some given → given.user_id = some (js.ofString info.userId) →
        publicKeyFromKeyInfo given = none) ∨
      ∃ master, info.signingMaster js keys =
          ({ info with firstUse := info.firstUseAfter keys master }, .ok master) ∧
        keys.master.or info.keys.master = some master ∧
        (∀ given, keys.master = some given → given.user_id = some (js.ofString info.userId)) ∧
        (publicKeyFromKeyInfo master = none → keys.master = none ∨ info.keys.master = none) := by
  unfold signingMaster firstUseAfter
  split
  next master hgiven =>
    simp only [hgiven, Option.isNone_some, Option.some_or]
    split
    next huser =>
      refine .inl ⟨_, rfl, ?_⟩
      rintro _ ⟨⟩ h
      exact absurd h huser
    next huser =>
      have huser : ∀ given, some master = some given →
          given.user_id = some (js.ofString info.userId) := by
        rintro _ ⟨⟩
        exact not_not.1 huser
      split
      next hnone =>
        refine .inr ⟨master, ?_, rfl, huser, fun _ => .inr (Option.isNone_iff_eq_none.1 hnone)⟩
        simp
      next hstored =>
        split
        next hpub =>
          refine .inl ⟨_, rfl, ?_⟩
          rintro _ ⟨⟩ -
          exact hpub
        next pubkey hpub =>
          have hread : publicKeyFromKeyInfo master = none →
              some master = none ∨ info.keys.master = none := by
            intro h
            rw [hpub] at h
            exact nomatch h
          split
          next hne =>
            refine .inr ⟨master, ?_, rfl, huser, hread⟩
            rw [hpub, if_neg hne]
            simp
          next heq =>
            refine .inr ⟨master, ?_, rfl, huser, hread⟩
            rw [hpub, if_pos (not_not.1 heq)]
            simp
  next hgiven =>
    split
    next master hstored =>
      refine .inr ⟨master, ?_, ?_, fun given h => ?_, fun _ => .inl hgiven⟩
      · simp [hgiven]
      · rw [hgiven, hstored, Option.none_or]
      · rw [hgiven] at h
        exact nomatch h
    · refine .inl ⟨_, rfl, fun given h => ?_⟩
      rw [hgiven] at h
      exact nomatch h

variable (js ed25519Verify info keys) in
/-- **What a call does.** It throws and changes nothing, or it throws because of a key that the
first stage had let pass and keeps what that made of `firstUse`, or it returns and has saved. -/
theorem setKeys_cases :
    (∃ e, info.setKeys js ed25519Verify keys = (info, .error e) ∧
      ∀ given, keys.master = some given → given.user_id = some (js.ofString info.userId) →
        publicKeyFromKeyInfo given = none) ∨
      ∃ master, keys.master.or info.keys.master = some master ∧
        (∀ given, keys.master = some given → given.user_id = some (js.ofString info.userId)) ∧
        ((∃ e, info.setKeys js ed25519Verify keys =
            ({ info with firstUse := info.firstUseAfter keys master }, .error e) ∧
          (publicKeyFromKeyInfo master = none ∧
              (keys.master = none ∨ info.keys.master = none) ∨
            ∃ masterKey, publicKeyFromKeyInfo master = some masterKey ∧ ∃ subkey,
              (keys.user_signing = some subkey ∨ keys.self_signing = some subkey) ∧
                ¬ SignedSubkey js ed25519Verify info.userId masterKey subkey)) ∨
          ∃ masterKey, publicKeyFromKeyInfo master = some masterKey ∧
            (∀ subkey, keys.user_signing = some subkey ∨ keys.self_signing = some subkey →
              SignedSubkey js ed25519Verify info.userId masterKey subkey) ∧
            info.setKeys js ed25519Verify keys =
              ({ info with firstUse := info.firstUseAfter keys master }.saveKeys keys,
                .ok ())) := by
  unfold setKeys
  rcases signingMaster_cases js info keys with
    ⟨e, herror, hwhy⟩ | ⟨master, hok, hmaster, huser, hread⟩
  · exact .inl ⟨e, by rw [herror], hwhy⟩
  · rw [hok]
    refine .inr ⟨master, hmaster, huser, ?_⟩
    cases hpub : publicKeyFromKeyInfo master with
    | none => exact .inl ⟨.typeError, by simp only [hpub], .inl ⟨rfl, hread hpub⟩⟩
    | some masterKey =>
      have hiff : verifySignatures js ed25519Verify
          { info with firstUse := info.firstUseAfter keys master } keys masterKey = .ok () ↔
          ∀ subkey, keys.user_signing = some subkey ∨ keys.self_signing = some subkey →
            SignedSubkey js ed25519Verify info.userId masterKey subkey :=
        verifySignatures_ok_iff
      cases hverify : verifySignatures js ed25519Verify
          { info with firstUse := info.firstUseAfter keys master } keys masterKey with
      | error e =>
        refine .inl ⟨e, ?_, .inr ⟨masterKey, rfl, ?_⟩⟩
        · simp only [hpub, hverify]
        · by_contra hnone
          push Not at hnone
          rw [hiff.2 hnone] at hverify
          exact nomatch hverify
      | ok =>
        refine .inr ⟨masterKey, rfl, hiff.1 hverify, ?_⟩
        simp only [hpub, hverify]

/-! ## The invariant -/

/-- What holds of the stored keys whatever the calls bring. -/
structure KeysKept (js : JsValues V) (ed25519Verify : Option V → KeyInfo V → V → Bool)
    (info : CrossSigningInfo V) : Prop where
  /-- Before the first master key nothing has been seen. -/
  untouched : info.keys.master = none → info.firstUse = true
  /-- The public part of a stored master key has been read. -/
  readable : ∀ master, info.keys.master = some master → publicKeyFromKeyInfo master ≠ none
  signed : SubkeysSigned js ed25519Verify info

section

omit [DecidableEq V]

theorem saveKeys_master (info : CrossSigningInfo V) (keys : CrossSigningKeys V) :
    (info.saveKeys keys).keys.master = keys.master.or info.keys.master := by
  unfold saveKeys
  cases keys.master <;> rfl

/-- The subkeys after a save: the given ones, and the stored ones unless a master key came. -/
theorem saveKeys_subkey {subkey : KeyInfo V}
    (h : (info.saveKeys keys).keys.self_signing = some subkey ∨
      (info.saveKeys keys).keys.user_signing = some subkey) :
    (keys.user_signing = some subkey ∨ keys.self_signing = some subkey) ∨
      keys.master = none ∧
        (info.keys.self_signing = some subkey ∨ info.keys.user_signing = some subkey) := by
  unfold saveKeys at h
  cases hmaster : keys.master with
  | none =>
    simp only [hmaster, Option.or_eq_some_iff] at h
    rcases h with (hgiven | ⟨-, hstored⟩) | (hgiven | ⟨-, hstored⟩)
    · exact .inl (.inr hgiven)
    · exact .inr ⟨rfl, .inl hstored⟩
    · exact .inl (.inl hgiven)
    · exact .inr ⟨rfl, .inr hstored⟩
  | some master =>
    simp only [hmaster, Option.or_none] at h
    exact .inl h.symm

theorem keysKept_new (userId : String) : KeysKept js ed25519Verify (new userId) where
  untouched _ := rfl
  readable _ h := nomatch h
  signed _ h := by rcases h with h | h <;> exact nomatch h

/-- `firstUse` is no part of what is kept of a master key that is stored. -/
theorem KeysKept.firstUse (hkept : KeysKept js ed25519Verify info) (b : Bool)
    (hb : info.keys.master = none → b = true) :
    KeysKept js ed25519Verify { info with firstUse := b } where
  untouched := hb
  readable := hkept.readable
  signed := hkept.signed

end

/-- Before the first master key, a call leaves `firstUse` true. -/
theorem firstUseAfter_untouched (hkept : KeysKept js ed25519Verify info) {master : KeyInfo V}
    (hnone : info.keys.master = none) : info.firstUseAfter keys master = true := by
  unfold firstUseAfter
  rw [hnone, hkept.untouched hnone]
  simp

/-- **The step lemma.** A call keeps the invariant, whether it returns or throws. -/
theorem KeysKept.setKeys (hkept : KeysKept js ed25519Verify info) (keys : CrossSigningKeys V) :
    KeysKept js ed25519Verify (info.setKeys js ed25519Verify keys).1 := by
  rcases setKeys_cases js ed25519Verify info keys
    with ⟨e, heq, -⟩ | ⟨master, hmaster, -, ⟨e, heq, -⟩ | ⟨masterKey, hpub, hsubkeys, heq⟩⟩
  · rw [heq]
    exact hkept
  · rw [heq]
    exact hkept.firstUse _ fun hnone => firstUseAfter_untouched hkept hnone
  · rw [heq]
    -- the key that the subkeys were checked with is the one that is stored now
    have hstored : (saveKeys { info with firstUse := info.firstUseAfter keys master }
        keys).keys.master = some master := by
      rw [saveKeys_master]
      exact hmaster
    have hid : (saveKeys { info with firstUse := info.firstUseAfter keys master } keys).getId =
        some masterKey := by
      rw [getId, hstored]
      exact hpub
    constructor
    · intro hnone
      rw [hstored] at hnone
      exact nomatch hnone
    · intro master' hmaster'
      rw [hstored] at hmaster'
      obtain rfl := Option.some.inj hmaster'
      rw [hpub]
      exact Option.some_ne_none _
    · intro subkey hsubkey
      refine ⟨masterKey, hid, ?_⟩
      rcases saveKeys_subkey hsubkey with hgiven | ⟨hnone, hold⟩
      · exact hsubkeys subkey hgiven
      · obtain ⟨oldKey, holdKey, hsigned⟩ := hkept.signed subkey hold
        rw [hnone, Option.none_or] at hmaster
        rw [getId, hmaster] at holdKey
        obtain rfl : masterKey = oldKey := Option.some.inj (hpub.symm.trans holdKey)
        exact hsigned

/-- The master key that a call is given is stored once the call returns, and has been read. -/
theorem accepted_of_setKeys {given : KeyInfo V} (hgiven : keys.master = some given)
    (hok : (info.setKeys js ed25519Verify keys).2 = .ok ()) :
    publicKeyFromKeyInfo given = (info.setKeys js ed25519Verify keys).1.getId ∧
      publicKeyFromKeyInfo given ≠ none := by
  rcases setKeys_cases js ed25519Verify info keys
    with ⟨e, heq, -⟩ | ⟨master, hmaster, -, ⟨e, heq, -⟩ | ⟨masterKey, hpub, hsubkeys, heq⟩⟩
  · rw [heq] at hok
    exact nomatch hok
  · rw [heq] at hok
    exact nomatch hok
  · constructor
    · rw [heq, getId, saveKeys_master, hgiven]
      rfl
    · rw [hgiven, Option.some_or] at hmaster
      rw [Option.some.inj hmaster, hpub]
      exact Option.some_ne_none _

/-- A call that leaves `firstUse` true did not change the public part of a stored master key, and
`firstUse` was true before. -/
theorem firstUse_before (hkept : KeysKept js ed25519Verify info)
    (hfirst : (info.setKeys js ed25519Verify keys).1.firstUse = true) :
    info.firstUse = true ∧ (info.keys.master ≠ none →
      (info.setKeys js ed25519Verify keys).1.getId = info.getId) := by
  have hafter : ∀ master, keys.master.or info.keys.master = some master →
      info.firstUseAfter keys master = true →
      info.firstUse = true ∧ (info.keys.master ≠ none →
        publicKeyFromKeyInfo master = info.getId) := by
    intro master hmaster htrue
    unfold firstUseAfter at htrue
    split at htrue
    next hnone =>
      rw [Option.isNone_iff_eq_none] at hnone
      rw [hnone, Option.none_or] at hmaster
      exact ⟨htrue, fun _ => by rw [getId, hmaster, Option.bind_some]⟩
    · split at htrue
      next hnone =>
        rw [Option.isNone_iff_eq_none] at hnone
        exact ⟨hkept.untouched hnone, fun h => absurd hnone h⟩
      · split at htrue
        next heq => exact ⟨htrue, fun _ => heq⟩
        · exact nomatch htrue
  rcases setKeys_cases js ed25519Verify info keys
    with ⟨e, heq, -⟩ | ⟨master, hmaster, -, ⟨e, heq, -⟩ | ⟨masterKey, hpub, hsubkeys, heq⟩⟩
  · rw [heq] at hfirst ⊢
    exact ⟨hfirst, fun _ => rfl⟩
  · rw [heq] at hfirst ⊢
    exact ⟨(hafter master hmaster hfirst).1, fun _ => rfl⟩
  · rw [heq] at hfirst ⊢
    obtain ⟨hbefore, hsame⟩ := hafter master hmaster hfirst
    refine ⟨hbefore, fun hstored => ?_⟩
    rw [← hsame hstored, getId, saveKeys_master]
    show (keys.master.or info.keys.master).bind publicKeyFromKeyInfo = _
    rw [hmaster, Option.bind_some]

/-- **Which calls leave a trace when they throw**, in a state that calls lead to. -/
theorem throwsUnchanged_iff (hkept : KeysKept js ed25519Verify info) :
    ThrowsUnchanged js ed25519Verify info keys ↔ ¬ ReplacesBadly js ed25519Verify info keys := by
  constructor
  · rintro hunchanged ⟨hfirst, hstored, given, masterKey, hgiven, huser, hpub, hne, subkey,
      hsubkey, hbad⟩
    have hlost : info.firstUseAfter keys given = false := by
      unfold firstUseAfter
      rw [hgiven, if_neg (by simp), if_neg (by simp [Option.isSome_iff_ne_none.1 hstored]), hpub,
        if_neg (Ne.symm hne)]
    rcases setKeys_cases js ed25519Verify info keys
      with ⟨e, heq, hwhy⟩ | ⟨master, hmaster, -, ⟨e, heq, -⟩ | ⟨masterKey', hpub', hsubkeys, heq⟩⟩
    · -- the first stage has no reason to throw
      rw [hwhy given hgiven huser] at hpub
      exact nomatch hpub
    · rw [hgiven, Option.some_or] at hmaster
      obtain rfl := Option.some.inj hmaster
      have hsame := hunchanged e (by rw [heq])
      rw [heq] at hsame
      have hsame : info.firstUseAfter keys given = info.firstUse := congrArg firstUse hsame
      rw [hlost, hfirst] at hsame
      exact nomatch hsame
    · rw [hgiven, Option.some_or] at hmaster
      obtain rfl := Option.some.inj hmaster
      obtain rfl : masterKey = masterKey' := Option.some.inj (hpub.symm.trans hpub')
      exact hbad (hsubkeys subkey hsubkey)
  · intro hnot e he
    rcases setKeys_cases js ed25519Verify info keys
      with ⟨e', heq, -⟩ | ⟨master, hmaster, huser, ⟨e', heq, hwhy⟩ | ⟨masterKey, -, -, heq⟩⟩
    · rw [heq]
    · rw [heq]
      have hsame : info.firstUseAfter keys master = info.firstUse := by
        unfold firstUseAfter
        split
        · rfl
        next hgiven =>
          split
          next hnone =>
            exact (hkept.untouched (Option.isNone_iff_eq_none.1 hnone)).symm
          next hstored =>
            split
            · rfl
            next hne =>
              by_contra hfirst
              rw [Option.isNone_iff_eq_none] at hgiven hstored
              -- `firstUse` has been lost, so the key is new, and it is a subkey that was at fault
              obtain ⟨given, hgiven'⟩ := Option.ne_none_iff_exists'.1 hgiven
              rw [hgiven', Option.some_or] at hmaster
              obtain rfl := Option.some.inj hmaster
              rcases hwhy with ⟨-, hnone | hnone⟩ | ⟨masterKey, hpub, subkey, hsubkey, hbad⟩
              · exact hgiven hnone
              · exact hstored hnone
              · rw [hpub] at hne
                exact hnot ⟨by simpa using Ne.symm hfirst, Option.isSome_iff_ne_none.2 hstored,
                  given, masterKey, hgiven', huser given hgiven', hpub, Ne.symm hne, subkey,
                  hsubkey, hbad⟩
      rw [hsame]
    · rw [heq] at he
      exact nomatch he

/-! ## Runs -/

/-- The invariant, in every state of a run. -/
theorem keysKept_along {userId : String} (h : (system js ed25519Verify userId).Trace tr info) :
    KeysKept js ed25519Verify info ∧ ∀ p ∈ tr, KeysKept js ed25519Verify p.1 := by
  induction h with
  | start => exact ⟨keysKept_new userId, fun p hp => absurd hp List.not_mem_nil⟩
  | @snoc tr s s' keys htr hstep ih =>
    obtain rfl := Option.some.inj hstep
    refine ⟨ih.1.setKeys keys, fun p hp => ?_⟩
    rcases List.mem_append.1 hp with hp | hp
    · exact ih.2 p hp
    · obtain rfl := List.mem_singleton.1 hp
      exact ih.1

/-- As long as `firstUse` is true, every master key that was accepted is the stored one. -/
theorem onlyMasterKey_along {userId : String} (h : (system js ed25519Verify userId).Trace tr info)
    (hfirst : info.firstUse = true) : OnlyMasterKey js ed25519Verify tr info := by
  induction h with
  | start => exact fun p hp => absurd hp List.not_mem_nil
  | @snoc tr s s' keys htr hstep ih =>
    obtain rfl := Option.some.inj hstep
    obtain ⟨hbefore, hsame⟩ := firstUse_before (keysKept_along htr).1 hfirst
    have hold := ih hbefore
    intro p hp given hgiven hok
    rcases List.mem_append.1 hp with hp | hp
    · have hid := hold p hp given hgiven hok
      have hread := (accepted_of_setKeys hgiven hok).2
      -- a key was accepted before, so one is stored
      have hstored : s.keys.master ≠ none := by
        intro hnone
        rw [hid, getId, hnone] at hread
        exact hread rfl
      rw [hid, hsame hstored]
    · obtain rfl := List.mem_singleton.1 hp
      exact (accepted_of_setKeys hgiven hok).1

/-- **Which runs of `setKeys` do what it is for.** The stored subkeys are always signed by the
stored master key, and `firstUse` always vouches for it. What a call that throws can do is to lose
`firstUse`: when it brings a new master key together with a subkey that is refused. -/
theorem setKeys_exact {userId : String} {tr : List (CrossSigningInfo V × CrossSigningKeys V)}
    (h : (system js ed25519Verify userId).Trace tr info) :
    (SubkeysSigned js ed25519Verify info ∧
        (info.firstUse = true → OnlyMasterKey js ed25519Verify tr info) ∧
        ∀ p ∈ tr, ThrowsUnchanged js ed25519Verify p.1 p.2) ↔
      System.Meets (fun info keys => ¬ ReplacesBadly js ed25519Verify info keys) tr := by
  obtain ⟨hkept, hall⟩ := keysKept_along h
  constructor
  · rintro ⟨-, -, hunchanged⟩ p hp
    exact (throwsUnchanged_iff (hall p hp)).1 (hunchanged p hp)
  · intro hmeets
    refine ⟨hkept.signed, onlyMasterKey_along h, fun p hp => ?_⟩
    exact (throwsUnchanged_iff (hall p hp)).2 (hmeets p hp)

end CrossSigningInfo

end SetKeys

/-! ## A user who resets his keys -/

/-- Values that are strings. -/
def stringValues : JsValues String where
  ofString s := s
  truthy s := s ≠ ""
  text s := s

/-- A key object of the user `@alice:x`, with a signature by `signer` if there is one. -/
def exampleKey (pubkey : String) (signer : Option String) : KeyInfo String where
  user_id := some "@alice:x"
  keys := some (.set .empty ("ed25519:" ++ pubkey) pubkey)
  signatures := signer.map fun signer =>
    .set .empty "@alice:x" (.set .empty ("ed25519:" ++ signer) signer)
  unsigned := none
  rest := .empty

/-- A signature is accepted from the key it names. -/
def exampleVerify (pubkey : Option String) (_ : KeyInfo String) (signature : String) : Bool :=
  pubkey = some signature

/-- The first response, and two about the keys that replace the first ones. The self-signing key of
the second is still signed by the old master key. -/
def exampleKeys : List (CrossSigningKeys String) :=
  [⟨some (exampleKey "M1" none), some (exampleKey "S1" (some "M1")), none⟩,
    ⟨some (exampleKey "M2" none), some (exampleKey "S1" (some "M1")), none⟩,
    ⟨some (exampleKey "M2" none), some (exampleKey "S2" (some "M2")), none⟩]

/-- The response with the old self-signing key throws, and `firstUse` is lost with the first
master key still stored. -/
theorem CrossSigningInfo.setKeys_fails :
    ¬ ∀ tr info, (system stringValues exampleVerify "@alice:x").Trace tr info →
      SubkeysSigned stringValues exampleVerify info ∧
        (info.firstUse = true → OnlyMasterKey stringValues exampleVerify tr info) ∧
        ∀ p ∈ tr, ThrowsUnchanged stringValues exampleVerify p.1 p.2 := by
  intro hall
  have hrun : (system stringValues exampleVerify "@alice:x").Trace _ _ :=
    (System.Trace.start.snoc (e := exampleKeys[0]) rfl).snoc (e := exampleKeys[1]) rfl
  obtain ⟨-, -, hunchanged⟩ := hall _ _ hrun
  have hsame := hunchanged _ (List.mem_append_right _ List.mem_cons_self) (.error "No signature")
    (by decide +kernel)
  exact absurd (congrArg CrossSigningInfo.firstUse hsame) (by decide +kernel)

/-- A run in which the keys have been replaced properly. -/
theorem CrossSigningInfo.setKeys_exact_replaced : ∃ info,
    (system stringValues exampleVerify "@alice:x").run [exampleKeys[0], exampleKeys[2]] = some info ∧
      info.firstUse = false ∧ info.getId = some (some "M2") ∧
      SubkeysSigned stringValues exampleVerify info := by
  refine ⟨_, rfl, by decide +kernel, by decide +kernel, ?_⟩
  have hrun : (system stringValues exampleVerify "@alice:x").Trace _ _ :=
    (System.Trace.start.snoc (e := exampleKeys[0]) rfl).snoc (e := exampleKeys[2]) rfl
  refine ((setKeys_exact hrun).2 ?_).1
  refine System.meets_snoc.2 ⟨System.meets_snoc.2 ⟨fun p hp => absurd hp List.not_mem_nil, ?_⟩, ?_⟩
  · rintro ⟨-, hstored, -⟩
    exact nomatch hstored
  · rintro ⟨-, -, given, masterKey, hgiven, -, hpub, -, subkey, hsubkey, hbad⟩
    obtain rfl : exampleKey "M2" none = given := Option.some.inj hgiven
    obtain rfl : some "M2" = masterKey := Option.some.inj hpub
    rcases hsubkey with hnone | hsome
    · exact nomatch hnone
    · obtain rfl : exampleKey "S2" (some "M2") = subkey := Option.some.inj hsome
      exact hbad ⟨rfl, "M2", by decide +kernel, by decide +kernel⟩

end MatrixSdk.Crypto
