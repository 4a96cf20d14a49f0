/-
Signatures of JSON objects: `pkSign`, `pkVerify` and `verifySignature` of `crypto/olmlib.js`, and
`Crypto.prototype._signObject`.

All four sign or check what is left of an object without `signatures` and `unsigned`, but not all
take out the same. `_signObject` and `verifySignature` always take out `unsigned`, the two others
only if it passes as a condition; `verifySignature` does so on a copy made by assignments, which has
no `__proto__`. And `pkVerify` looks for a signature by the public key, where `_signObject` puts it
under the id of the device. [`signAll_iff`] says when every verifier accepts what any of the signers
has made.

User ids begin with `@` and key ids with `ed25519:`, so no name is read that an array, a string or
every object has.
-/
import MatrixSdk.Crypto.DeviceEntries
import MatrixSdk.Lib.Members
import Mathlib

set_option autoImplicit false

namespace MatrixSdk.Crypto.ObjectSignatures

open MatrixSdk.Lib Members
open MatrixSdk.Crypto.DeviceEntries

/-- An object, as the list of what it has. -/
abbrev Fields : Type := List (String × Json)

/-- Olm, with the keys that sign. -/
structure SigningOlm (Key : Type) extends Olm where
  publicKey : Key → String
  sign : Key → String → String

/-- What `pkSign` takes: a seed, or what has been made of one. -/
inductive PkKey (Key : Type)
  | seed (key : Key)
  | pkSigning (key : Key)

/-! ## Signing -/

/-- The properties that a value can be given more of. The elements of an array are not read here;
a string or a number takes no properties. -/
def properties : Json → Option Fields
  | .obj fields => some fields
  | .arr _ => some []
  | _ => none

/-- `sigs[userId] = sigs[userId] || {}; sigs[userId][keyId] = signature`; `none` if it throws. -/
def addSignature (sigs : Json) (userId keyId signature : String) : Option Json :=
  (properties sigs).bind fun sigs =>
    (properties (Json.or (sigs.lookup userId) (.obj []))).map fun mysigs =>
      .obj (Members.set sigs userId (.obj (Members.set mysigs keyId (.str signature))))

/-- `obj.signatures = sigs`, and `unsigned` is put back. -/
def putBack (obj : Fields) (sigs : Json) (unsigned : Option Json) : Fields :=
  match unsigned with
  | some unsigned => Members.set (Members.set obj "signatures" sigs) "unsigned" unsigned
  | none => Members.set obj "signatures" sigs

/-- `delete obj.signatures; if (obj.unsigned) delete obj.unsigned` -/
def takeOutTruthy (obj : Fields) : Fields :=
  let obj := Members.delete obj "signatures"
  if ((obj.lookup "unsigned").filter Json.isTruthy).isSome then Members.delete obj "unsigned"
  else obj

section Olm

variable {Key : Type} (olm : SigningOlm Key)

/-- `Crypto.prototype._signObject`, as what becomes of the object; `none` if it throws. -/
def signObject (obj : Fields) (userId deviceId : String) (key : Key) : Option Fields :=
  let sigs := Json.or (obj.lookup "signatures") (.obj [])
  let unsigned := obj.lookup "unsigned"
  let obj := Members.delete (Members.delete obj "signatures") "unsigned"
  (olm.stringify obj).bind fun json =>
    (addSignature sigs userId ("ed25519:" ++ deviceId) (olm.sign key json)).map fun sigs =>
      putBack obj sigs unsigned

/-- `pkSign`, as what becomes of the object; `none` if it throws. "The public key (ignored if key is
a seed)" -/
def pkSign (obj : Fields) (key : PkKey Key) (userId pubkey : String) : Option Fields :=
  let sigs := Json.or (obj.lookup "signatures") (.obj [])
  let unsigned := (obj.lookup "unsigned").filter Json.isTruthy
  let obj := takeOutTruthy obj
  let (key, pubkey) := match key with
    | .seed key => (key, olm.publicKey key)
    | .pkSigning key => (key, pubkey)
  (olm.stringify obj).bind fun json =>
    (addSignature sigs userId ("ed25519:" ++ pubkey) (olm.sign key json)).map fun sigs =>
      putBack obj sigs unsigned

/-! ## Verifying -/

/-- What is found in an object under a user and the id of a key. -/
def signatureOf (obj : Fields) (userId keyId : String) : Option Json :=
  (Json.or ((Json.or (obj.lookup "signatures") (.obj [])).get userId) (.obj [])).get keyId

/-- `pkVerify`: what becomes of the object, and whether it returns without throwing. -/
def pkVerify (obj : Fields) (pubkey userId : String) : Fields × Bool :=
  match (signatureOf obj userId ("ed25519:" ++ pubkey)).filter Json.isTruthy with
  | none => (obj, false)
  | some signature =>
    let sigs := Json.or (obj.lookup "signatures") (.obj [])
    let unsigned := (obj.lookup "unsigned").filter Json.isTruthy
    let obj := takeOutTruthy obj
    let verified := match signature, olm.stringify obj with
      | .str signature, some json => olm.ed25519Verify pubkey json signature
      | _, _ => false
    (putBack obj sigs unsigned, verified)

/-! ## A sequence of signings -/

/-- A call of one of the signers. -/
inductive Signing (Key : Type)
  | signObject (userId deviceId : String) (key : Key)
  | pkSign (userId : String) (key : PkKey Key)

namespace Signing

variable {Key : Type} (olm : SigningOlm Key)

def userId : Signing Key → String
  | .signObject userId _ _ => userId
  | .pkSign userId _ => userId

def key : Signing Key → Key
  | .signObject _ _ key => key
  | .pkSign _ (.seed key) => key
  | .pkSign _ (.pkSigning key) => key

/-- What the key is called, by which `verifySignature` is asked for it. -/
def name : Signing Key → String
  | .signObject _ deviceId _ => deviceId
  | .pkSign userId key => olm.publicKey (Signing.pkSign userId key).key

/-- Where the signature is put. -/
def id (signing : Signing Key) : String × String :=
  (signing.userId, "ed25519:" ++ signing.name olm)

/-- What becomes of the object. A signing object is passed with its own public key. -/
def run (obj : Fields) : Signing Key → Option Fields
  | .signObject userId deviceId key => ObjectSignatures.signObject olm obj userId deviceId key
  | .pkSign userId key =>
    ObjectSignatures.pkSign olm obj key userId (olm.publicKey (Signing.pkSign userId key).key)

end Signing

/-- One signing after the other. -/
def signAll (obj : Fields) (signings : List (Signing Key)) : Option Fields :=
  signings.foldlM (Signing.run olm) obj

/-! ## What is to hold -/

/-- Ideal signatures of ideal texts: the canonical JSON is the text of what the names of an object
stand for, and leaving out what is there changes it; a key accepts what it has signed and nothing
else. -/
structure SigningOlm.Ideal : Prop where
  total : ∀ obj, ∃ json, olm.stringify obj = some json
  canonical : ∀ a b : Fields, (∀ name, a.lookup name = b.lookup name) →
    olm.stringify a = olm.stringify b
  complete : ∀ (a : Fields) (p : String → Bool),
    olm.stringify (a.filter fun field => p field.1) = olm.stringify a → ∀ field ∈ a, p field.1
  verify_iff : ∀ key message signature,
    olm.ed25519Verify (olm.publicKey key) message signature = true ↔
      signature = olm.sign key message
  sign_injective : ∀ key message message', olm.sign key message = olm.sign key message' →
    message = message'
  sign_ne_empty : ∀ key message, olm.sign key message ≠ ""

/-- `pkVerify` finds the signature and accepts it. -/
def PkVerifies (obj : Fields) (signing : Signing Key) : Prop :=
  signing.id olm = (signing.userId, "ed25519:" ++ olm.publicKey signing.key) ∧
    (pkVerify olm obj (olm.publicKey signing.key) signing.userId).2 = true

/-- `verifySignature` accepts it. -/
def Verifies (obj : Fields) (signing : Signing Key) : Prop :=
  DeviceEntries.verifySignature olm.toOlm signing.userId (.obj obj) (signing.name olm)
    (.str (olm.publicKey signing.key)) = true

/-- **The paths agree**: an object that has been signed has every signature, for both verifiers, has
the signatures there were and is otherwise unchanged. -/
structure PathsAgree (obj signed : Fields) (signings : List (Signing Key)) : Prop where
  pkVerifies : ∀ signing ∈ signings, PkVerifies olm signed signing
  verifies : ∀ signing ∈ signings, Verifies olm signed signing
  unchanged : ∀ name, name ≠ "signatures" → signed.lookup name = obj.lookup name
  kept : ∀ userId keyId, (userId, keyId) ∉ signings.map (Signing.id olm) →
    signatureOf signed userId keyId = signatureOf obj userId keyId

/-- `unsigned` is missing or passes as a condition. -/
def UnsignedOk (obj : Fields) : Prop :=
  ∀ unsigned, obj.lookup "unsigned" = some unsigned → unsigned.isTruthy = true

/-- Signatures of the user can be added. -/
def Extensible (obj : Fields) (userId : String) : Prop :=
  ∃ sigs, properties (Json.or (obj.lookup "signatures") (.obj [])) = some sigs ∧
    (properties (Json.or (sigs.lookup userId) (.obj []))).isSome

/-- **An ordinary signing**: `unsigned` is missing or passes as a condition, there is no
`__proto__`, signatures can be added, and the key is called by its public key. -/
structure Ordinary (obj : Fields) (signing : Signing Key) : Prop where
  unsigned : UnsignedOk obj
  noProto : obj.lookup "__proto__" = none
  extensible : Extensible obj signing.userId
  named : signing.name olm = olm.publicKey signing.key

end Olm

/-! ## Putting an object together again -/

theorem or_some (value otherwise : Json) :
    Json.or (some value) otherwise = if value.isTruthy then value else otherwise := by
  rw [Json.or, Option.filter_some]
  cases value.isTruthy <;> rfl

theorem lookup_takeOutTruthy (obj : Fields) (name : String) :
    (takeOutTruthy obj).lookup name =
      if name = "signatures" then none
      else if name = "unsigned" then
        (obj.lookup "unsigned").filter fun unsigned => !unsigned.isTruthy
      else obj.lookup name := by
  have hunsigned : (delete obj "signatures").lookup "unsigned" = obj.lookup "unsigned" := by
    rw [lookup_delete, if_neg (by decide)]
  rw [takeOutTruthy, hunsigned]
  by_cases hsig : name = "signatures"
  · rw [if_pos hsig]
    split
    · rw [lookup_delete, lookup_delete, if_pos hsig, ite_self]
    · rw [lookup_delete, if_pos hsig]
  · rw [if_neg hsig]
    by_cases hname : name = "unsigned"
    · rw [if_pos hname, hname]
      split
      next htruthy =>
        obtain ⟨unsigned, h⟩ := Option.isSome_iff_exists.1 htruthy
        obtain ⟨hlookup, h⟩ := Option.filter_eq_some_iff.1 h
        rw [lookup_delete, if_pos rfl, hlookup, Option.filter_some, h]
        rfl
      next hfalsy =>
        rw [hunsigned]
        cases hlookup : obj.lookup "unsigned" with
        | none => rfl
        | some unsigned =>
          rw [hlookup, Option.filter_some] at hfalsy
          rw [Option.filter_some]
          split at hfalsy
          · exact absurd rfl hfalsy
          next hnot =>
            rw [Bool.eq_false_iff.2 hnot]
            rfl
    · rw [if_neg hname]
      split
      · rw [lookup_delete, if_neg hname, lookup_delete, if_neg hsig]
      · rw [lookup_delete, if_neg hsig]

/-- What `putBack` leaves, by what was taken out. -/
theorem lookup_putBack (obj : Fields) (sigs : Json) (unsigned : Option Json) (name : String) :
    (putBack obj sigs unsigned).lookup name =
      if name = "signatures" then some sigs
      else if name = "unsigned" then unsigned.or (obj.lookup "unsigned")
      else obj.lookup name := by
  cases unsigned with
  | none =>
    rw [putBack, lookup_set]
    split
    · rfl
    · split
      next hname => rw [hname]; rfl
      · rfl
  | some unsigned =>
    rw [putBack, lookup_set, lookup_set]
    by_cases hname : name = "unsigned"
    · rw [if_pos hname, if_neg (by rw [hname]; decide), if_pos hname]
      rfl
    · rw [if_neg hname, if_neg hname]

/-- Only `signatures` may differ. -/
def SameButSignatures (obj obj' : Fields) : Prop :=
  ∀ name, name ≠ "signatures" → obj'.lookup name = obj.lookup name

/-- `_signObject` puts together what it has taken apart. -/
theorem lookup_putBack_delete (obj : Fields) (sigs : Json) (name : String) :
    (putBack (delete (delete obj "signatures") "unsigned") sigs
      (obj.lookup "unsigned")).lookup name =
        if name = "signatures" then some sigs else obj.lookup name := by
  rw [lookup_putBack]
  by_cases hsig : name = "signatures"
  · rw [if_pos hsig, if_pos hsig]
  · rw [if_neg hsig, if_neg hsig, lookup_delete, lookup_delete, if_pos rfl]
    by_cases hname : name = "unsigned"
    · rw [if_pos hname, hname, Option.or_none]
    · rw [if_neg hname, lookup_delete, if_neg hname, lookup_delete, if_neg hsig]

/-- `pkSign` and `pkVerify` do. -/
theorem lookup_putBack_takeOutTruthy (obj : Fields) (sigs : Json) (name : String) :
    (putBack (takeOutTruthy obj) sigs ((obj.lookup "unsigned").filter Json.isTruthy)).lookup name =
      if name = "signatures" then some sigs else obj.lookup name := by
  rw [lookup_putBack]
  by_cases hsig : name = "signatures"
  · rw [if_pos hsig, if_pos hsig]
  · rw [if_neg hsig, if_neg hsig, lookup_takeOutTruthy, lookup_takeOutTruthy, if_neg hsig,
      if_neg (by decide : ¬ "unsigned" = "signatures"), if_pos rfl]
    by_cases hname : name = "unsigned"
    · rw [if_pos hname, hname]
      cases obj.lookup "unsigned" with
      | none => rfl
      | some unsigned =>
        rw [Option.filter_some, Option.filter_some]
        cases unsigned.isTruthy <;> rfl
    · rw [if_neg hname, if_neg hname]

/-- **`pkVerify` leaves the object unchanged**, whether it throws or not. -/
theorem lookup_pkVerify {Key : Type} (olm : SigningOlm Key) (obj : Fields) (pubkey userId : String)
    (name : String) : (pkVerify olm obj pubkey userId).1.lookup name = obj.lookup name := by
  rw [pkVerify]
  split
  · rfl
  next signature hsignature =>
    rw [lookup_putBack_takeOutTruthy]
    by_cases hsig : name = "signatures"
    · -- a signature has been found, so there are signatures
      rw [if_pos hsig, hsig]
      have hfound := (Option.filter_eq_some_iff.1 hsignature).1
      rw [signatureOf] at hfound
      cases hlookup : obj.lookup "signatures" with
      | none =>
        rw [hlookup] at hfound
        exact nomatch hfound
      | some sigs =>
        rw [hlookup] at hfound
        rw [or_some] at hfound ⊢
        cases htruthy : sigs.isTruthy with
        | true => rfl
        | false =>
          rw [htruthy] at hfound
          exact nomatch hfound
    · rw [if_neg hsig]

/-! ## Adding a signature -/

theorem fields_of_properties {value : Json} {fields : Fields} (h : properties value = some fields) :
    value.fields = fields := by
  cases value with
  | obj fields' => exact Option.some.inj h
  | arr elements => exact Option.some.inj h
  | _ => exact nomatch h

theorem addSignature_isSome (obj : Fields) (userId keyId signature : String) :
    (addSignature (Json.or (obj.lookup "signatures") (.obj [])) userId keyId signature).isSome ↔
      Extensible obj userId := by
  rw [addSignature, Extensible]
  cases properties (Json.or (obj.lookup "signatures") (.obj [])) with
  | none => exact iff_of_false nofun fun ⟨sigs, h, _⟩ => nomatch h
  | some sigs =>
    rw [Option.bind_some, Option.isSome_map]
    exact ⟨fun h => ⟨sigs, rfl, h⟩, fun ⟨sigs', h, hmine⟩ => Option.some.inj h ▸ hmine⟩

/-- What a new signature changes. -/
theorem signatureOf_addSignature {obj obj' : Fields} {sigs : Json}
    {userId keyId signature : String}
    (h : addSignature (Json.or (obj.lookup "signatures") (.obj [])) userId keyId signature =
      some sigs) (hsigs : obj'.lookup "signatures" = some sigs) :
    (∀ userId' keyId', signatureOf obj' userId' keyId' =
      if (userId', keyId') = (userId, keyId) then some (.str signature)
      else signatureOf obj userId' keyId') ∧
    ∀ userId', Extensible obj' userId' ↔ Extensible obj userId' := by
  obtain ⟨fields, hfields, hmap⟩ := Option.bind_eq_some_iff.1 h
  obtain ⟨mine, hmine, rfl⟩ := Option.map_eq_some_iff.1 hmap
  have hobj' : Json.or (obj'.lookup "signatures") (.obj []) =
      .obj (set fields userId (.obj (set mine keyId (.str signature)))) := by
    rw [hsigs]
    rfl
  refine ⟨fun userId' keyId' => ?_, fun userId' => ?_⟩
  · rw [signatureOf, signatureOf, hobj', Json.get, Json.get, Json.get, Json.get,
      fields_of_properties hfields, Json.fields, lookup_set]
    by_cases huser : userId' = userId
    · rw [if_pos huser, huser, fields_of_properties hmine]
      change (set mine keyId (.str signature)).lookup keyId' = _
      rw [lookup_set]
      by_cases hkey : keyId' = keyId
      · rw [if_pos hkey, if_pos (by rw [hkey])]
      · rw [if_neg hkey, if_neg fun heq => hkey (Prod.mk.inj heq).2]
    · rw [if_neg huser, if_neg fun heq => huser (Prod.mk.inj heq).1]
  · rw [Extensible, Extensible, hobj', hfields]
    have hlookup := lookup_set fields userId
      (.obj (set mine keyId (.str signature))) userId'
    constructor
    · rintro ⟨_, hsome, hset⟩
      obtain rfl := Option.some.inj hsome
      refine ⟨fields, rfl, ?_⟩
      by_cases huser : userId' = userId
      · rw [huser, hmine]
        rfl
      · rw [hlookup, if_neg huser] at hset
        exact hset
    · rintro ⟨_, hsome, hset⟩
      obtain rfl := Option.some.inj hsome
      refine ⟨_, rfl, ?_⟩
      rw [hlookup]
      by_cases huser : userId' = userId
      · rw [if_pos huser]
        rfl
      · rw [if_neg huser]
        exact hset

/-! ## What is signed and what is checked -/

section Texts

variable {Key : Type} {olm : SigningOlm Key}

/-- What a signer signs. -/
def Signing.signedPart (obj : Fields) : Signing Key → Fields
  | .signObject _ _ _ => Members.delete (Members.delete obj "signatures") "unsigned"
  | .pkSign _ _ => takeOutTruthy obj

/-- What `verifySignature` checks. -/
def checkedCopy (obj : Fields) : Fields :=
  obj.filter fun field => !(["unsigned", "signatures", "__proto__"].contains field.1)

theorem lookup_checkedCopy (obj : Fields) (name : String) :
    (checkedCopy obj).lookup name =
      if ["unsigned", "signatures", "__proto__"].contains name then none
      else obj.lookup name := by
  rw [checkedCopy,
    lookup_filter fun n => !(["unsigned", "signatures", "__proto__"].contains n)]
  cases ["unsigned", "signatures", "__proto__"].contains name <;> rfl

theorem SameButSignatures.signedPart {obj obj' : Fields} (h : SameButSignatures obj obj')
    (signing : Signing Key) (name : String) :
    (signing.signedPart obj').lookup name = (signing.signedPart obj).lookup name := by
  cases signing with
  | signObject userId deviceId key =>
    rw [Signing.signedPart, Signing.signedPart, lookup_delete, lookup_delete,
      lookup_delete, lookup_delete]
    by_cases hsig : name = "signatures"
    · rw [if_pos hsig, if_pos hsig]
    · rw [h name hsig]
  | pkSign userId key =>
    rw [Signing.signedPart, Signing.signedPart, lookup_takeOutTruthy, lookup_takeOutTruthy,
      h "unsigned" (by decide)]
    by_cases hsig : name = "signatures"
    · rw [if_pos hsig, if_pos hsig]
    · rw [h name hsig]

theorem unsignedOk_iff (obj : Fields) :
    UnsignedOk obj ↔ (takeOutTruthy obj).lookup "unsigned" = none := by
  rw [lookup_takeOutTruthy, if_neg (by decide), if_pos rfl, UnsignedOk]
  cases obj.lookup "unsigned" with
  | none => exact iff_of_true (fun unsigned h => nomatch h) rfl
  | some unsigned =>
    rw [Option.filter_some]
    cases htruthy : unsigned.isTruthy with
    | true => exact iff_of_true (fun unsigned' h => Option.some.inj h ▸ htruthy) rfl
    | false => exact iff_of_false (fun h => nomatch htruthy.symm.trans (h _ rfl)) nofun

section Ideal

variable (ideal : olm.Ideal) {signing : Signing Key}
include ideal

/-- If the text is that of what is left without some names, the names were not there. -/
theorem SigningOlm.Ideal.absent {a b : Fields} {p : String → Bool}
    (hlookup : ∀ name, b.lookup name = if p name then a.lookup name else none)
    (h : olm.stringify b = olm.stringify a) {name : String} (hname : p name = false) :
    a.lookup name = none := by
  have hfilter : olm.stringify (a.filter fun field => p field.1) = olm.stringify a := by
    rw [← h]
    exact ideal.canonical _ _ fun name => by rw [lookup_filter, hlookup]
  cases hvalue : a.lookup name with
  | none => rfl
  | some value =>
    have hp := ideal.complete a p hfilter _ (mem_of_lookup hvalue)
    exact nomatch hname.symm.trans hp

/-- Both parts are what is left of the object, but `verifySignature` leaves out more. -/
theorem stringify_checkedCopy_takeOutTruthy (obj : Fields) :
    olm.stringify (checkedCopy obj) = olm.stringify (takeOutTruthy obj) ↔
      UnsignedOk obj ∧ obj.lookup "__proto__" = none := by
  have hproto : (takeOutTruthy obj).lookup "__proto__" = obj.lookup "__proto__" := by
    rw [lookup_takeOutTruthy, if_neg (by decide), if_neg (by decide)]
  have hlookup : ∀ name, (checkedCopy obj).lookup name =
      if !(["unsigned", "signatures", "__proto__"].contains name) then
        (takeOutTruthy obj).lookup name
      else none := by
    intro name
    rw [lookup_checkedCopy, lookup_takeOutTruthy]
    by_cases hsig : name = "signatures"
    · rw [hsig]
      rfl
    · by_cases hunsigned : name = "unsigned"
      · rw [hunsigned]
        rfl
      · rw [if_neg hsig, if_neg hunsigned]
        cases ["unsigned", "signatures", "__proto__"].contains name <;> rfl
  rw [unsignedOk_iff, ← hproto]
  constructor
  · intro h
    exact ⟨ideal.absent hlookup h (by decide), ideal.absent hlookup h (by decide)⟩
  · rintro ⟨hunsigned, hnone⟩
    refine ideal.canonical _ _ fun name => ?_
    rw [hlookup]
    split
    · rfl
    next hcontains =>
      -- what is left out is not there
      simp only [Bool.not_eq_true', Bool.not_eq_false, List.contains_iff_mem, List.mem_cons,
        List.not_mem_nil, or_false] at hcontains
      rcases hcontains with rfl | rfl | rfl
      · exact hunsigned.symm
      · rw [lookup_takeOutTruthy, if_pos rfl]
      · exact hnone.symm

theorem stringify_checkedCopy_delete (obj : Fields) :
    olm.stringify (checkedCopy obj) =
      olm.stringify (delete (delete obj "signatures") "unsigned") ↔
        obj.lookup "__proto__" = none := by
  have hlookup : ∀ name, (checkedCopy obj).lookup name = if name ≠ "__proto__" then
      (delete (delete obj "signatures") "unsigned").lookup name else none := by
    intro name
    rw [lookup_checkedCopy, lookup_delete, lookup_delete]
    by_cases hsig : name = "signatures"
    · rw [hsig]
      rfl
    · by_cases hunsigned : name = "unsigned"
      · rw [hunsigned]
        rfl
      · rw [if_neg hsig, if_neg hunsigned]
        by_cases hproto : name = "__proto__"
        · rw [hproto]
          rfl
        · rw [if_pos hproto, if_neg (by simp [hsig, hunsigned, hproto])]
  have hproto : (delete (delete obj "signatures") "unsigned").lookup "__proto__" =
      obj.lookup "__proto__" := by
    rw [lookup_delete, if_neg (by decide), lookup_delete, if_neg (by decide)]
  rw [← hproto]
  constructor
  · intro h
    refine ideal.absent (p := fun name => decide (name ≠ "__proto__")) (fun name => ?_) h rfl
    rw [hlookup]
    simp only [decide_eq_true_eq]
  · intro hnone
    refine ideal.canonical _ _ fun name => ?_
    rw [hlookup]
    split
    · rfl
    next hname =>
      rw [not_not.1 hname]
      exact hnone.symm

theorem stringify_takeOutTruthy_delete (obj : Fields) :
    olm.stringify (takeOutTruthy obj) =
      olm.stringify (delete (delete obj "signatures") "unsigned") ↔
        UnsignedOk obj := by
  have hlookup : ∀ name,
      (delete (delete obj "signatures") "unsigned").lookup name =
        if name ≠ "unsigned" then (takeOutTruthy obj).lookup name else none := by
    intro name
    rw [lookup_delete, lookup_delete, lookup_takeOutTruthy]
    by_cases hunsigned : name = "unsigned"
    · rw [if_pos hunsigned, if_neg (not_not.2 hunsigned)]
    · rw [if_neg hunsigned, if_pos hunsigned, if_neg hunsigned]
  rw [unsignedOk_iff]
  constructor
  · intro h
    refine ideal.absent (p := fun name => decide (name ≠ "unsigned")) (fun name => ?_) h.symm rfl
    rw [hlookup]
    simp only [decide_eq_true_eq]
  · intro hnone
    refine ideal.canonical _ _ fun name => ?_
    rw [hlookup]
    split
    · rfl
    next hname =>
      rw [not_not.1 hname]
      exact hnone

/-! ## What the verifiers accept -/

/-- There is a signature of the part that was signed. -/
def HasSignature (olm : SigningOlm Key) (obj : Fields) (signing : Signing Key) : Prop :=
  ∃ json, olm.stringify (signing.signedPart obj) = some json ∧
    signatureOf obj (signing.id olm).1 (signing.id olm).2 =
      some (.str (olm.sign signing.key json))

/-- A key accepts its signature of a text, for that text only. -/
theorem SigningOlm.Ideal.verify_sign {key : Key} {message message' : String} :
    olm.ed25519Verify (olm.publicKey key) message' (olm.sign key message) = true ↔
      some message' = some message := by
  rw [ideal.verify_iff, Option.some.injEq]
  exact ⟨fun h => (ideal.sign_injective key _ _ h).symm, fun h => by rw [h]⟩

theorem verifies_iff {obj : Fields} (h : HasSignature olm obj signing) : Verifies olm obj signing ↔
      olm.stringify (checkedCopy obj) = olm.stringify (signing.signedPart obj) := by
  obtain ⟨json, hjson, hsignature⟩ := h
  obtain ⟨json', hjson'⟩ := ideal.total (checkedCopy obj)
  have hfound : (signatureOf obj signing.userId ("ed25519:" ++ signing.name olm)).filter
      Json.isTruthy = some (.str (olm.sign signing.key json)) :=
    Option.filter_eq_some_iff.2 ⟨hsignature, decide_eq_true (ideal.sign_ne_empty _ _)⟩
  unfold Verifies DeviceEntries.verifySignature
  extract_lets signatures userSigs mangledObj
  have hsig : (userSigs.get ("ed25519:" ++ signing.name olm)).filter Json.isTruthy =
      some (.str (olm.sign signing.key json)) := hfound
  have hmangled : olm.stringify mangledObj = some json' := hjson'
  rw [hsig, hmangled, hjson', hjson]
  exact ideal.verify_sign

theorem pkVerifies_iff {obj : Fields} (h : HasSignature olm obj signing) :
    PkVerifies olm obj signing ↔
      signing.name olm = olm.publicKey signing.key ∧
        olm.stringify (takeOutTruthy obj) = olm.stringify (signing.signedPart obj) := by
  obtain ⟨json, hjson, hsignature⟩ := h
  obtain ⟨json', hjson'⟩ := ideal.total (takeOutTruthy obj)
  rw [hjson, hjson', PkVerifies]
  have hname : signing.id olm = (signing.userId, "ed25519:" ++ olm.publicKey signing.key) ↔
      signing.name olm = olm.publicKey signing.key := by
    rw [Signing.id, Prod.mk.injEq, String.append_right_inj]
    exact and_iff_right rfl
  rw [hname]
  refine and_congr_right fun hnamed => ?_
  have hfound : (signatureOf obj signing.userId
      ("ed25519:" ++ olm.publicKey signing.key)).filter Json.isTruthy =
        some (.str (olm.sign signing.key json)) := by
    rw [← hnamed]
    exact Option.filter_eq_some_iff.2 ⟨hsignature, decide_eq_true (ideal.sign_ne_empty _ _)⟩
  rw [pkVerify, hfound]
  dsimp only
  rw [hjson']
  exact ideal.verify_sign

/-- **Both verifiers accept a signature** if and only if they check what was signed and find it. -/
theorem verifies_both_iff {obj : Fields} (h : HasSignature olm obj signing) :
    PkVerifies olm obj signing ∧ Verifies olm obj signing ↔
      UnsignedOk obj ∧ obj.lookup "__proto__" = none ∧
        signing.name olm = olm.publicKey signing.key := by
  rw [pkVerifies_iff ideal h, verifies_iff ideal h]
  cases signing with
  | signObject userId deviceId key =>
    rw [Signing.signedPart, stringify_checkedCopy_delete ideal,
      stringify_takeOutTruthy_delete ideal]
    exact ⟨fun h => ⟨h.1.2, h.2, h.1.1⟩, fun h => ⟨⟨h.2.2, h.1⟩, h.2.1⟩⟩
  | pkSign userId key =>
    rw [Signing.signedPart, stringify_checkedCopy_takeOutTruthy ideal]
    exact ⟨fun h => ⟨h.2.1, h.2.2, h.1.1⟩, fun h => ⟨⟨h.2.2, rfl⟩, h.1, h.2.1⟩⟩

end Ideal

end Texts

/-! ## One signing -/

section Runs

variable {Key : Type} {olm : SigningOlm Key} {obj : Fields} {signing : Signing Key}

/-- What a signing leaves: the signature is added, and nothing else changes. -/
structure Signed (olm : SigningOlm Key) (obj obj' : Fields) (signing : Signing Key) : Prop where
  same : SameButSignatures obj obj'
  extensible : ∀ userId, Extensible obj' userId ↔ Extensible obj userId
  signature : ∃ json, olm.stringify (signing.signedPart obj) = some json ∧
    ∀ userId keyId, signatureOf obj' userId keyId =
      if (userId, keyId) = signing.id olm then some (.str (olm.sign signing.key json))
      else signatureOf obj userId keyId

/-- Both signers sign their part, add the signature and put the object together again. -/
theorem Signing.run_eq (obj : Fields) (signing : Signing Key) :
    ∃ assemble : Json → Fields,
      (∀ sigs name, (assemble sigs).lookup name =
        if name = "signatures" then some sigs else obj.lookup name) ∧
      signing.run olm obj = (olm.stringify (signing.signedPart obj)).bind fun json =>
        (addSignature (Json.or (obj.lookup "signatures") (.obj [])) signing.userId
          ("ed25519:" ++ signing.name olm) (olm.sign signing.key json)).map assemble := by
  cases signing with
  | signObject userId deviceId key =>
    exact ⟨fun sigs => putBack _ sigs _, fun sigs => lookup_putBack_delete obj sigs, rfl⟩
  | pkSign userId key =>
    refine ⟨fun sigs => putBack _ sigs _, fun sigs => lookup_putBack_takeOutTruthy obj sigs, ?_⟩
    -- the key is the one of the seed, or the one that is passed
    cases key <;> rfl

theorem run_isSome (ideal : olm.Ideal) (obj : Fields) (signing : Signing Key) :
    (signing.run olm obj).isSome ↔ Extensible obj signing.userId := by
  obtain ⟨assemble, -, hrun⟩ := Signing.run_eq obj signing
  obtain ⟨json, hjson⟩ := ideal.total (signing.signedPart obj)
  rw [hrun, hjson, Option.bind_some, Option.isSome_map]
  exact addSignature_isSome obj _ _ _

theorem signed_of_run {obj' : Fields} (h : signing.run olm obj = some obj') :
    Signed olm obj obj' signing := by
  obtain ⟨assemble, hassemble, hrun⟩ := Signing.run_eq obj signing
  obtain ⟨json, hjson, hmap⟩ := Option.bind_eq_some_iff.1 (hrun.symm.trans h)
  obtain ⟨sigs, hsigs, rfl⟩ := Option.map_eq_some_iff.1 hmap
  have hlookup : (assemble sigs).lookup "signatures" = some sigs := by
    rw [hassemble, if_pos rfl]
  obtain ⟨hsignature, hextensible⟩ := signatureOf_addSignature hsigs hlookup
  refine ⟨fun name hname => ?_, hextensible, json, hjson, hsignature⟩
  rw [hassemble, if_neg hname]

/-! ## All of them -/

theorem Signed.hasSignature {obj' : Fields} (ideal : olm.Ideal) (h : Signed olm obj obj' signing) :
    HasSignature olm obj' signing := by
  obtain ⟨json, hjson, hsignature⟩ := h.signature
  refine ⟨json, ?_, ?_⟩
  · rw [← hjson]
    exact ideal.canonical _ _ (h.same.signedPart signing)
  · rw [hsignature, if_pos rfl]

/-- A signature stays when others are added. -/
theorem Signed.keeps {obj' : Fields} {other : Signing Key} (ideal : olm.Ideal)
    (h : Signed olm obj obj' signing) (hne : other.id olm ≠ signing.id olm)
    (hother : HasSignature olm obj other) : HasSignature olm obj' other := by
  obtain ⟨json, hjson, hsignature⟩ := hother
  obtain ⟨_, -, hsignatures⟩ := h.signature
  refine ⟨json, ?_, ?_⟩
  · rw [← hjson]
    exact ideal.canonical _ _ (h.same.signedPart other)
  · rw [hsignatures, if_neg hne]
    exact hsignature

/-- What a run of signings leaves. -/
structure AllSigned (olm : SigningOlm Key) (obj signed : Fields) (signings : List (Signing Key)) :
    Prop where
  same : SameButSignatures obj signed
  has : ∀ signing ∈ signings, HasSignature olm signed signing
  kept : ∀ userId keyId, (userId, keyId) ∉ signings.map (Signing.id olm) →
    signatureOf signed userId keyId = signatureOf obj userId keyId

theorem allSigned_of_signAll (ideal : olm.Ideal) {signed : Fields} {signings : List (Signing Key)}
    (hdifferent : (signings.map (Signing.id olm)).Nodup)
    (h : signAll olm obj signings = some signed) : AllSigned olm obj signed signings := by
  induction signings using List.reverseRecOn generalizing signed with
  | nil =>
    obtain rfl := Option.some.inj h
    exact ⟨fun _ _ => rfl, fun _ hsigning => absurd hsigning List.not_mem_nil,
      fun _ _ _ => rfl⟩
  | append_singleton signings signing ih =>
    rw [signAll, List.foldlM_append] at h
    obtain ⟨obj', hobj', h⟩ := Option.bind_eq_some_iff.1 h
    rw [List.foldlM_cons] at h
    obtain ⟨_, hrun, hsigned⟩ := Option.bind_eq_some_iff.1 h
    obtain rfl := Option.some.inj hsigned
    rw [List.map_append, List.map_singleton, List.nodup_append] at hdifferent
    obtain ⟨hnodup, -, hnew⟩ := hdifferent
    have hall := ih hnodup hobj'
    have hlast := signed_of_run hrun
    refine ⟨fun name hname => ?_, fun other hother => ?_, fun userId keyId hid => ?_⟩
    · rw [hlast.same name hname, hall.same name hname]
    · rcases List.mem_append.1 hother with hother | hother
      · have hne := hnew _ (List.mem_map_of_mem hother) _ (List.mem_singleton_self _)
        exact hlast.keeps ideal hne (hall.has other hother)
      · obtain rfl := List.mem_singleton.1 hother
        exact hlast.hasSignature ideal
    · rw [List.map_append, List.map_singleton, List.mem_append, List.mem_singleton,
        not_or] at hid
      obtain ⟨_, -, hsignatures⟩ := hlast.signature
      rw [hsignatures, if_neg hid.2, hall.kept _ _ hid.1]

theorem signAll_isSome (ideal : olm.Ideal) (obj : Fields) (signings : List (Signing Key)) :
    (signAll olm obj signings).isSome ↔
      ∀ signing ∈ signings, Extensible obj signing.userId := by
  induction signings generalizing obj with
  | nil => exact iff_of_true rfl fun _ hsigning => absurd hsigning List.not_mem_nil
  | cons signing signings ih =>
    rw [signAll, List.foldlM_cons, List.forall_mem_cons, ← run_isSome ideal]
    cases hrun : signing.run olm obj with
    | none => exact iff_of_false nofun fun h => nomatch h.1
    | some obj' =>
      rw [and_iff_right Option.isSome_some]
      refine (ih obj').trans (forall₂_congr fun other _ => ?_)
      exact (signed_of_run hrun).extensible other.userId

/-- **When the paths agree**: signings with different keys leave what they are to leave, if and only
if each is an ordinary one. `pkVerify` leaves every object unchanged. -/
theorem signAll_iff (ideal : olm.Ideal) (obj : Fields) (signings : List (Signing Key))
    (hdifferent : (signings.map (Signing.id olm)).Nodup) :
    ((∃ signed, signAll olm obj signings = some signed ∧ PathsAgree olm obj signed signings) ↔
      ∀ signing ∈ signings, Ordinary olm obj signing) ∧
    ∀ obj pubkey userId name, (pkVerify olm obj pubkey userId).1.lookup name = obj.lookup name := by
  refine ⟨⟨?_, fun h => ?_⟩, lookup_pkVerify olm⟩
  · rintro ⟨signed, hsigned, hagree⟩ signing hsigning
    have hall := allSigned_of_signAll ideal hdifferent hsigned
    have hextensible := (signAll_isSome ideal obj signings).1 (by rw [hsigned]; rfl)
    obtain ⟨hunsigned, hproto, hname⟩ := (verifies_both_iff ideal (hall.has signing hsigning)).1
      ⟨hagree.pkVerifies signing hsigning, hagree.verifies signing hsigning⟩
    rw [hall.same _ (by decide)] at hproto
    refine ⟨fun unsigned hlookup => ?_, hproto, hextensible signing hsigning, hname⟩
    exact hunsigned unsigned ((hall.same "unsigned" (by decide)).trans hlookup)
  · obtain ⟨signed, hsigned⟩ := Option.isSome_iff_exists.1
      ((signAll_isSome ideal obj signings).2 fun signing hsigning =>
        (h signing hsigning).extensible)
    have hall := allSigned_of_signAll ideal hdifferent hsigned
    have hboth : ∀ signing ∈ signings, PkVerifies olm signed signing ∧
        Verifies olm signed signing := by
      intro signing hsigning
      have hordinary := h signing hsigning
      refine (verifies_both_iff ideal (hall.has signing hsigning)).2 ⟨?_, ?_, hordinary.named⟩
      · intro unsigned hlookup
        exact hordinary.unsigned unsigned ((hall.same "unsigned" (by decide)).symm.trans hlookup)
      · rw [hall.same _ (by decide)]
        exact hordinary.noProto
    exact ⟨signed, hsigned, fun signing hsigning => (hboth signing hsigning).1,
      fun signing hsigning => (hboth signing hsigning).2, hall.same, hall.kept⟩

end Runs

/-! ## A run -/

/-- A field of an object of strings, as the canonical JSON has it. -/
def exampleEntry (obj : Fields) (name : String) : String :=
  "\"" ++ name ++ "\":" ++
    match obj.lookup name with
    | some (.str text) => "\"" ++ text ++ "\""
    | _ => "null"

def exampleNames (obj : Fields) : Finset String := (obj.map Prod.fst).toFinset

/-- Canonical JSON of an object of strings: the names in order. -/
def exampleText (obj : Fields) : String :=
  "\x7b" ++ ",".intercalate ((exampleNames obj).sort.map (exampleEntry obj)) ++ "\x7d"

theorem mem_exampleNames {obj : Fields} {name : String} :
    name ∈ exampleNames obj ↔ (obj.lookup name).isSome := by
  rw [exampleNames, List.mem_toFinset, List.mem_map, List.lookup_isSome_iff]
  constructor
  · rintro ⟨m, hm, rfl⟩
    exact ⟨m, hm, beq_self_eq_true m.1⟩
  · rintro ⟨m, hm, h⟩
    exact ⟨m, hm, (eq_of_beq h).symm⟩

theorem length_intercalate (l : List String) :
    (",".intercalate l).length = (l.map fun s => s.length + 1).sum - 1 := by
  induction l with
  | nil => simp
  | cons s l ih =>
    cases l with
    | nil => simp
    | cons t l =>
      rw [String.intercalate_cons_cons, String.length_append, String.length_append, ih]
      simp only [List.map_cons, List.sum_cons]
      have : (",").length = 1 := by rfl
      omega

theorem length_exampleText (obj : Fields) :
    (exampleText obj).length =
      (∑ name ∈ exampleNames obj, ((exampleEntry obj name).length + 1)) - 1 + 2 := by
  rw [exampleText, String.length_append, String.length_append, length_intercalate, List.map_map,
    Finset.sum_eq_multiset_sum, ← Finset.sort_eq (exampleNames obj) (· ≤ ·), Multiset.map_coe,
    Multiset.sum_coe]
  have : "\x7b".length = 1 := by rfl
  have : "\x7d".length = 1 := by rfl
  simp only [Function.comp_def]
  omega

/-- Leaving out a name makes the text shorter. -/
theorem exampleText_filter_ne {obj : Fields} {p : String → Bool} {field : String × Json}
    (hfield : field ∈ obj) (hp : p field.1 = false) :
    exampleText (obj.filter fun field => p field.1) ≠ exampleText obj := by
  intro h
  have hlength := congrArg String.length h
  rw [length_exampleText, length_exampleText] at hlength
  have hmem : field.1 ∈ exampleNames obj :=
    mem_exampleNames.2 (lookup_isSome_of_mem hfield)
  have hsub : exampleNames (obj.filter fun field => p field.1) ⊆
      (exampleNames obj).erase field.1 := by
    intro name hname
    rw [mem_exampleNames, lookup_filter] at hname
    split at hname
    next hpname =>
      refine Finset.mem_erase.2 ⟨?_, mem_exampleNames.2 hname⟩
      rintro rfl
      exact nomatch hp.symm.trans hpname
    · exact nomatch hname
  have hentry : ∀ name ∈ exampleNames (obj.filter fun field => p field.1),
      exampleEntry (obj.filter fun field => p field.1) name = exampleEntry obj name := by
    intro name hname
    rw [mem_exampleNames, lookup_filter] at hname
    rw [exampleEntry, exampleEntry, lookup_filter]
    split at hname
    next hpname => rw [if_pos hpname]
    · exact nomatch hname
  have hsum := Finset.sum_erase_add (exampleNames obj)
    (fun name => (exampleEntry obj name).length + 1) hmem
  have hle := Finset.sum_le_sum_of_subset (f := fun name => (exampleEntry obj name).length + 1)
    hsub
  have hpos : 3 ≤ (exampleEntry obj field.1).length := by
    rw [exampleEntry, String.length_append, String.length_append, String.length_append]
    have : "\"".length = 1 := by rfl
    have : "\":".length = 2 := by rfl
    omega
  rw [Finset.sum_congr rfl fun name hname => by rw [hentry name hname]] at hlength
  omega

def exampleOlm : SigningOlm String where
  stringify obj := some (exampleText obj)
  publicKey key := key
  sign key message := key ++ ":" ++ message
  ed25519Verify key message signature := signature = key ++ ":" ++ message

theorem exampleOlm_ideal : exampleOlm.Ideal where
  total obj := ⟨_, rfl⟩
  canonical a b h := by
    have hnames : exampleNames a = exampleNames b := by
      ext name
      rw [mem_exampleNames, mem_exampleNames, h]
    have hentry : exampleEntry a = exampleEntry b := by
      funext name
      rw [exampleEntry, exampleEntry, h]
    change some (exampleText a) = some (exampleText b)
    rw [exampleText, exampleText, hnames, hentry]
  complete a p h := by
    intro field hfield
    by_contra hp
    exact exampleText_filter_ne hfield (Bool.eq_false_iff.2 hp) (Option.some.inj h)
  verify_iff key message signature := decide_eq_true_iff
  sign_injective key message message' h := String.append_right_inj _ |>.1 h
  sign_ne_empty key message h := by
    have hlength := congrArg String.length h
    change (key ++ ":" ++ message).length = "".length at hlength
    rw [String.length_append, String.length_append] at hlength
    have : ":".length = 1 := by rfl
    have : "".length = 0 := by rfl
    omega

/-- An object without `unsigned`, signed by a device that is called by its key and with a seed. -/
theorem signAll_iff_run :
    let obj : Fields := [("algorithm", .str "m.megolm_backup.v1.curve25519-aes-sha2")]
    let signings := [Signing.signObject "@alice:example.org" "deviceKey" "deviceKey",
      .pkSign "@alice:example.org" (.seed "masterKey")]
    ∃ signed, signAll exampleOlm obj signings = some signed ∧
      PathsAgree exampleOlm obj signed signings := by
  intro obj signings
  have hdifferent : (signings.map (Signing.id exampleOlm)).Nodup := by decide +kernel
  refine (signAll_iff exampleOlm_ideal obj signings hdifferent).1.2 fun signing hsigning => ?_
  refine ⟨nofun, rfl, ⟨[], rfl, rfl⟩, ?_⟩
  simp only [signings, List.mem_cons, List.not_mem_nil, or_false] at hsigning
  rcases hsigning with rfl | rfl <;> rfl

/-- An object with `unsigned: null`, signed with a seed: `pkVerify` accepts the signature, and
`verifySignature` does not. -/
theorem signAll_fails :
    let obj : Fields :=
      [("algorithm", .str "m.megolm_backup.v1.curve25519-aes-sha2"), ("unsigned", .null)]
    let signing := Signing.pkSign "@alice:example.org" (.seed "masterKey")
    exampleOlm.Ideal ∧ ([signing].map (Signing.id exampleOlm)).Nodup ∧
      (∃ signed, signAll exampleOlm obj [signing] = some signed ∧
        PkVerifies exampleOlm signed signing ∧ ¬ Verifies exampleOlm signed signing) ∧
      ¬ ∃ signed, signAll exampleOlm obj [signing] = some signed ∧
        PathsAgree exampleOlm obj signed [signing] := by
  intro obj signing
  have hdifferent : ([signing].map (Signing.id exampleOlm)).Nodup := List.nodup_singleton _
  have hfails : ∀ signed, signAll exampleOlm obj [signing] = some signed →
      PkVerifies exampleOlm signed signing ∧ ¬ Verifies exampleOlm signed signing := by
    intro signed hsigned
    have hall := allSigned_of_signAll exampleOlm_ideal hdifferent hsigned
    have hhas := hall.has signing (List.mem_singleton_self _)
    refine ⟨(pkVerifies_iff exampleOlm_ideal hhas).2 ⟨rfl, rfl⟩, fun hverifies => ?_⟩
    have htext := (verifies_iff exampleOlm_ideal hhas).1 hverifies
    have hunsigned := ((stringify_checkedCopy_takeOutTruthy exampleOlm_ideal signed).1 htext).1
    exact nomatch hunsigned .null (hall.same "unsigned" (by decide))
  obtain ⟨signed, hsigned⟩ := Option.isSome_iff_exists.1
    ((signAll_isSome exampleOlm_ideal obj [signing]).2 fun _ _ => ⟨[], rfl, rfl⟩)
  refine ⟨exampleOlm_ideal, hdifferent, ⟨signed, hsigned, hfails signed hsigned⟩, ?_⟩
  rintro ⟨signed', hsigned', hagree⟩
  exact (hfails signed' hsigned').2 (hagree.verifies signing (List.mem_singleton_self _))

end MatrixSdk.Crypto.ObjectSignatures
