/-
Recovery keys: `crypto/recoverykey.js`.

A key is written between a prefix of two bytes and a parity byte, in base 58, in blocks of four
characters. When it is read, blanks are left out first, and only blanks: a key with a tab in it is
no text over the alphabet, [`recoveryKey_fails`].

The package `bs58` is a parameter, [`Bs58`]. All that is used of it is that its two functions are
inverse to each other and what its alphabet is, [`Bs58.Lawful`].
-/
import MatrixSdk.Lib.Radix

set_option autoImplicit false

namespace MatrixSdk.Crypto

open MatrixSdk.Lib

/-! ## The package -/

/-- `encode` and `decode` of the package. `decode` throws where there is `none`. -/
structure Bs58 where
  encode : List UInt8 → List Char
  decode : List Char → Option (List UInt8)

def base58Alphabet : List Char :=
  "123456789ABCDEFGHJKLMNPQRSTUVWXYZabcdefghijkmnopqrstuvwxyz".toList

structure Bs58.Lawful (bs58 : Bs58) : Prop where
  decode_encode : ∀ bytes, bs58.decode (bs58.encode bytes) = some bytes
  encode_decode : ∀ text bytes, bs58.decode text = some bytes → bs58.encode bytes = text
  encode_nil : bs58.encode [] = []
  alphabet : ∀ bytes, ∀ c ∈ bs58.encode bytes, c ∈ base58Alphabet

/-! ## Encoding and decoding -/

def OLM_RECOVERY_KEY_PREFIX : List UInt8 := [0x8B, 0x01]

/-- The loop `parity ^= b`. -/
def parity (bytes : List UInt8) : UInt8 := bytes.foldl (· ^^^ ·) 0

/-- What `bs58` encodes. -/
def recoveryPayload (key : List UInt8) : List UInt8 :=
  let buf := OLM_RECOVERY_KEY_PREFIX ++ key
  buf ++ [parity buf]

/-- `match(/.{1,4}/g)`, of a text in one line. -/
def blocks : List Char → List (List Char)
  | [] => []
  | a :: b :: c :: d :: rest => [a, b, c, d] :: blocks rest
  | rest => [rest]

/-- `replace(/ /g, '')` -/
def withoutBlanks (text : List Char) : List Char := text.filter (· ≠ ' ')

section RecoveryKey

variable (bs58 : Bs58) (privateKeyLength : ℕ)

/-- `encodeRecoveryKey`. Where nothing matches there is no list to join. -/
def encodeRecoveryKey (key : List UInt8) : Option (List Char) :=
  match blocks (bs58.encode (recoveryPayload key)) with
  | [] => none
  | base58key => some (List.intercalate [' '] base58key)

/-- `decodeRecoveryKey`; `privateKeyLength` is `Olm.PRIVATE_KEY_LENGTH`. -/
def decodeRecoveryKey (recoverykey : List Char) : Except String (List UInt8) :=
  match bs58.decode (withoutBlanks recoverykey) with
  | none => .error "Non-base58 character"
  | some result =>
    if parity result ≠ 0 then .error "Incorrect parity"
    else if ∃ i < OLM_RECOVERY_KEY_PREFIX.length, result[i]? ≠ OLM_RECOVERY_KEY_PREFIX[i]? then
      .error "Incorrect prefix"
    else if result.length ≠ OLM_RECOVERY_KEY_PREFIX.length + privateKeyLength + 1 then
      .error "Incorrect length"
    else .ok ((result.drop OLM_RECOVERY_KEY_PREFIX.length).take privateKeyLength)

end RecoveryKey

/-! ## Parity -/

theorem foldl_xor (bytes : List UInt8) (start : UInt8) :
    bytes.foldl (· ^^^ ·) start = start ^^^ parity bytes := by
  induction bytes generalizing start with
  | nil => exact UInt8.xor_zero.symm
  | cons byte bytes ih =>
    rw [parity, List.foldl_cons, List.foldl_cons, ih, ih (0 ^^^ byte), UInt8.zero_xor,
      UInt8.xor_assoc]

theorem parity_cons (byte : UInt8) (bytes : List UInt8) :
    parity (byte :: bytes) = byte ^^^ parity bytes := by
  rw [parity, List.foldl_cons, foldl_xor, UInt8.zero_xor]

theorem parity_append (bytes bytes' : List UInt8) :
    parity (bytes ++ bytes') = parity bytes ^^^ parity bytes' := by
  rw [parity, List.foldl_append, foldl_xor, ← parity]

/-- The parity byte makes the parity zero. -/
theorem parity_recoveryPayload (key : List UInt8) : parity (recoveryPayload key) = 0 := by
  rw [recoveryPayload, parity_append, parity_cons]
  show parity _ ^^^ (parity _ ^^^ 0) = 0
  rw [UInt8.xor_zero, UInt8.xor_self]

/-- Only the parity byte does. -/
theorem eq_parity_of_append {bytes : List UInt8} {byte : UInt8}
    (h : parity (bytes ++ [byte]) = 0) : byte = parity bytes := by
  rw [parity_append, parity_cons] at h
  have hzero : parity bytes ^^^ byte = 0 := by
    simpa only [parity, List.foldl_nil, UInt8.xor_zero] using h
  exact (UInt8.xor_eq_zero_iff.1 hzero).symm

/-- **Another byte in one place** changes the parity. -/
theorem parity_set_ne {bytes : List UInt8} {i : ℕ} {byte : UInt8} (hi : i < bytes.length)
    (hne : bytes[i] ≠ byte) : parity (bytes.set i byte) ≠ parity bytes := by
  induction bytes generalizing i with
  | nil => exact absurd hi (Nat.not_lt_zero i)
  | cons first bytes ih =>
    cases i with
    | zero =>
      rw [List.set_cons_zero, parity_cons, parity_cons]
      exact fun heq => hne ((UInt8.xor_left_inj _).1 heq).symm
    | succ i =>
      rw [List.set_cons_succ, parity_cons, parity_cons]
      exact fun heq => ih (Nat.lt_of_succ_lt_succ hi) hne ((UInt8.xor_right_inj _).1 heq)

/-! ## Blanks -/

theorem flatten_blocks (text : List Char) : (blocks text).flatten = text := by
  fun_induction blocks text with
  | case1 => rfl
  | case2 a b c d rest ih => rw [List.flatten_cons, ih]; rfl
  | case3 rest _ _ => exact List.flatten_singleton

theorem withoutBlanks_intercalate (parts : List (List Char)) :
    withoutBlanks (List.intercalate [' '] parts) = withoutBlanks parts.flatten := by
  induction parts with
  | nil => rfl
  | cons part parts ih =>
    cases parts with
    | nil => rw [List.intercalate_singleton, List.flatten_singleton]
    | cons next parts =>
      rw [List.intercalate_cons_cons, withoutBlanks, List.filter_append, List.filter_append,
        List.flatten_cons, withoutBlanks, List.filter_append]
      show _ ++ [] ++ withoutBlanks (List.intercalate [' '] (next :: parts)) = _
      rw [ih, List.append_nil]
      rfl

variable {bs58 : Bs58} {privateKeyLength : ℕ}

theorem Bs58.Lawful.withoutBlanks_encode (h : bs58.Lawful) (bytes : List UInt8) :
    withoutBlanks (bs58.encode bytes) = bs58.encode bytes := by
  refine List.filter_eq_self.2 fun c hc => decide_eq_true ?_
  rintro rfl
  exact absurd (h.alphabet bytes ' ' hc) (by decide)

/-- What is encoded is the text of the payload, with blanks in it. -/
theorem encodeRecoveryKey_spec (h : bs58.Lawful) (key : List UInt8) :
    ∃ text, encodeRecoveryKey bs58 key = some text ∧
      withoutBlanks text = bs58.encode (recoveryPayload key) := by
  have hne : bs58.encode (recoveryPayload key) ≠ [] := by
    intro hnil
    -- only the empty payload is written as nothing
    have hdecode := h.decode_encode (recoveryPayload key)
    rw [hnil, ← h.encode_nil, h.decode_encode] at hdecode
    exact nomatch hdecode
  rw [encodeRecoveryKey]
  cases hblocks : blocks (bs58.encode (recoveryPayload key)) with
  | nil =>
    have hflatten := flatten_blocks (bs58.encode (recoveryPayload key))
    rw [hblocks] at hflatten
    exact absurd hflatten.symm hne
  | cons block rest =>
    refine ⟨_, rfl, ?_⟩
    rw [withoutBlanks_intercalate, ← hblocks, flatten_blocks, h.withoutBlanks_encode]

/-! ## The laws -/

/-- What is accepted is a payload. -/
theorem recoveryPayload_of_checks {result : List UInt8} (hparity : parity result = 0)
    (hprelude : ∀ i < OLM_RECOVERY_KEY_PREFIX.length, result[i]? = OLM_RECOVERY_KEY_PREFIX[i]?)
    (hlength : result.length = OLM_RECOVERY_KEY_PREFIX.length + privateKeyLength + 1) :
    result = recoveryPayload
      ((result.drop OLM_RECOVERY_KEY_PREFIX.length).take privateKeyLength) := by
  have hsplit : result = OLM_RECOVERY_KEY_PREFIX ++
      ((result.drop OLM_RECOVERY_KEY_PREFIX.length).take privateKeyLength ++
        (result.drop OLM_RECOVERY_KEY_PREFIX.length).drop privateKeyLength) := by
    rw [List.take_append_drop]
    have htake : result.take OLM_RECOVERY_KEY_PREFIX.length = OLM_RECOVERY_KEY_PREFIX := by
      refine List.ext_getElem? fun i => ?_
      by_cases hi : i < OLM_RECOVERY_KEY_PREFIX.length
      · rw [List.getElem?_take_of_lt hi, hprelude i hi]
      · rw [List.getElem?_eq_none (by rw [List.length_take]; omega),
          List.getElem?_eq_none (by omega)]
    conv_lhs => rw [← List.take_append_drop OLM_RECOVERY_KEY_PREFIX.length result, htake]
  -- what is left is one byte
  obtain ⟨byte, hbyte⟩ : ∃ byte,
      (result.drop OLM_RECOVERY_KEY_PREFIX.length).drop privateKeyLength = [byte] := by
    refine List.length_eq_one_iff.1 ?_
    rw [List.length_drop, List.length_drop, hlength]
    omega
  rw [hbyte, ← List.append_assoc] at hsplit
  rw [hsplit] at hparity
  rw [recoveryPayload, ← eq_parity_of_append hparity]
  exact hsplit

/-- A payload is accepted, for its key. -/
theorem decodeRecoveryKey_payload (h : bs58.Lawful) {key : List UInt8} {text : List Char}
    (hkey : key.length = privateKeyLength)
    (htext : withoutBlanks text = bs58.encode (recoveryPayload key)) :
    decodeRecoveryKey bs58 privateKeyLength text = .ok key := by
  have hprelude : ¬ ∃ i < OLM_RECOVERY_KEY_PREFIX.length,
      (recoveryPayload key)[i]? ≠ OLM_RECOVERY_KEY_PREFIX[i]? := by
    rintro ⟨i, hi, hne⟩
    rw [recoveryPayload, List.append_assoc, List.getElem?_append_left hi] at hne
    exact hne rfl
  have hlength : (recoveryPayload key).length =
      OLM_RECOVERY_KEY_PREFIX.length + privateKeyLength + 1 := by
    rw [recoveryPayload, List.length_append, List.length_append, hkey]
    rfl
  rw [decodeRecoveryKey, htext, h.decode_encode]
  dsimp only
  rw [if_neg (not_not.2 (parity_recoveryPayload key)), if_neg hprelude, if_neg (not_not.2 hlength),
    recoveryPayload, List.append_assoc, List.drop_left, List.take_append_of_le_length hkey.ge,
    ← hkey, List.take_length]

/-- **Recovery keys make the round trip and show errors.** What is encoded is decoded, whatever
blanks are put in; what is accepted is encoded so, but for blanks; and no payload with another byte
in one place is accepted. -/
theorem recoveryKey_laws (h : bs58.Lawful) (privateKeyLength : ℕ) :
    (∀ key : List UInt8, key.length = privateKeyLength → ∃ text,
      encodeRecoveryKey bs58 key = some text ∧
        ∀ text', withoutBlanks text' = withoutBlanks text →
          decodeRecoveryKey bs58 privateKeyLength text' = .ok key) ∧
    (∀ text key, decodeRecoveryKey bs58 privateKeyLength text = .ok key →
      key.length = privateKeyLength ∧ ∃ text', encodeRecoveryKey bs58 key = some text' ∧
        withoutBlanks text' = withoutBlanks text) ∧
    ∀ (key : List UInt8) (i : ℕ) (byte : UInt8) (hi : i < (recoveryPayload key).length),
      key.length = privateKeyLength → (recoveryPayload key)[i] ≠ byte →
        ∀ text, withoutBlanks text = bs58.encode ((recoveryPayload key).set i byte) →
          ∃ message, decodeRecoveryKey bs58 privateKeyLength text = .error message := by
  refine ⟨fun key hkey => ?_, fun text key hdecode => ?_, fun key i byte hi _ hne text htext => ?_⟩
  · obtain ⟨text, hencode, hblanks⟩ := encodeRecoveryKey_spec h key
    exact ⟨text, hencode, fun text' htext' =>
      decodeRecoveryKey_payload h hkey (htext'.trans hblanks)⟩
  · obtain ⟨result, hresult, hpayload, hkey⟩ : ∃ result,
        bs58.decode (withoutBlanks text) = some result ∧ result = recoveryPayload key ∧
          key.length = privateKeyLength := by
      rw [decodeRecoveryKey] at hdecode
      split at hdecode
      · exact nomatch hdecode
      next result hresult =>
        split at hdecode
        · exact nomatch hdecode
        next hparity =>
          split at hdecode
          · exact nomatch hdecode
          next hprelude =>
            split at hdecode
            · exact nomatch hdecode
            next hlength =>
              obtain rfl := Except.ok.inj hdecode
              have hlength := not_not.1 hlength
              refine ⟨result, hresult, recoveryPayload_of_checks (not_not.1 hparity)
                (fun i hi => ?_) hlength, ?_⟩
              · by_contra hcontra
                exact hprelude ⟨i, hi, hcontra⟩
              · rw [List.length_take, List.length_drop, hlength]
                omega
    obtain ⟨text', hencode, hblanks⟩ := encodeRecoveryKey_spec h key
    refine ⟨hkey, text', hencode, ?_⟩
    rw [hblanks, ← hpayload, h.encode_decode _ _ hresult]
  · refine ⟨"Incorrect parity", ?_⟩
    have hparity := parity_set_ne hi hne
    rw [parity_recoveryPayload] at hparity
    rw [decodeRecoveryKey, htext, h.decode_encode]
    exact if_pos hparity

/-- The package itself. -/
def base58 : Bs58 := ⟨encodeOver base58Alphabet, decodeOver base58Alphabet⟩

theorem base58_encode : base58.encode = encodeOver base58Alphabet := by
  dsimp only [base58]

theorem base58_decode : base58.decode = decodeOver base58Alphabet := by
  dsimp only [base58]

theorem base58_lawful : base58.Lawful where
  decode_encode := by
    rw [base58_encode, base58_decode]
    exact decodeOver_encodeOver (by decide +kernel) (by decide +kernel)
  encode_decode := by
    rw [base58_encode, base58_decode]
    exact fun _ _ => encodeOver_of_decodeOver (by decide +kernel)
  encode_nil := by decide +kernel
  alphabet := by
    rw [base58_encode]
    exact fun _ => mem_encodeOver (by decide +kernel)

theorem recoveryKey_laws_zero : ∃ text,
    encodeRecoveryKey base58 (List.replicate 32 0) = some text ∧
      decodeRecoveryKey base58 32 (' ' :: text) = .ok (List.replicate 32 0) := by
  obtain ⟨text, hencode, hdecode⟩ := (recoveryKey_laws base58_lawful 32).1 (List.replicate 32 0)
    List.length_replicate
  exact ⟨text, hencode, hdecode _ rfl⟩

/-- A tab is not left out. -/
theorem recoveryKey_fails : ¬ ∀ key : List UInt8, key.length = 32 → ∀ text,
    encodeRecoveryKey base58 key = some text → ∀ text',
      text'.filter (fun c => !c.isWhitespace) = text.filter (fun c => !c.isWhitespace) →
        decodeRecoveryKey base58 32 text' = .ok key := by
  intro h
  obtain ⟨text, hencode, -⟩ := encodeRecoveryKey_spec base58_lawful (List.replicate 32 0)
  have htab := h (List.replicate 32 0) List.length_replicate text hencode ('\t' :: text) rfl
  have hnot : ¬ ∀ c ∈ withoutBlanks ('\t' :: text), c ∈ base58Alphabet :=
    fun hmem => absurd (hmem '\t' List.mem_cons_self) (by decide +kernel)
  have hnone : base58.decode (withoutBlanks ('\t' :: text)) = none := by
    rw [base58_decode, decodeOver, if_neg hnot]
  rw [decodeRecoveryKey, hnone] at htab
  cases htab

end MatrixSdk.Crypto
