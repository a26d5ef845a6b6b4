import Mathlib.Data.List.Dedup

/-!
# Keys, signatures and the primitive signature check

The cryptographic structures of `crypto.rs` that the trust engine reads: key ids, public keys,
signatures and `PublicKey::verify`. The primitive check itself is `ring::signature::verify`,
outside this repository; it is the parameter `RingVerify`, so every result of the development
holds for every verification algorithm.

The error kinds of `error.rs` are here too, since `crypto.rs` is the first module to return them.
-/

namespace RustTuf

/-- Byte strings, the `Vec<u8>` of the source. -/
abbrev Bytes := List UInt8

/-- Modelled from the spec: the four top-level roles, `Role` of `metadata.rs`. -/
inductive Role where
  | root
  | snapshot
  | targets
  | timestamp
deriving DecidableEq, Repr

/-- Modelled from the spec: `Error` of `error.rs`, with the payload each kind carries. -/
inductive Error where
  | badSignature
  | decode (reason : String)
  | expiredMetadata (role : Role)
  | illegalArgument (reason : String)
  | missingMetadata (role : Role)
  | targetUnavailable
  | unsupportedKeyType (typ : String)
  | unsupportedSignatureScheme (scheme : String)
  | verificationFailure (reason : String)
deriving DecidableEq, Repr

/-- Wrapper type for public key's ID. -/
structure KeyId where
  val : Bytes
deriving DecidableEq, Repr

/-- Cryptographic signature schemes. -/
inductive SignatureScheme where
  | ed25519
  | rsaSsaPssSha256
  | rsaSsaPssSha512
deriving DecidableEq, Repr

/-- Wrapper type for the value of a cryptographic signature. -/
structure SignatureValue where
  val : Bytes
deriving DecidableEq, Repr

/-- Types of public keys. -/
inductive KeyType where
  | ed25519
  | rsa
deriving DecidableEq, Repr

/-- Possible encoding/decoding formats for a public key. -/
inductive KeyFormat where
  | hexLower
  | pkcs1
  | spki
deriving DecidableEq, Repr

/-- Wrapper type for a decoded public key. -/
structure PublicKeyValue where
  val : Bytes
deriving DecidableEq, Repr

/-- A structure containing information about a public key. -/
structure PublicKey where
  typ : KeyType
  format : KeyFormat
  keyId : KeyId
  value : PublicKeyValue
deriving DecidableEq, Repr

/-- A structure that contains a `Signature` and associated data for verifying it. -/
structure Signature where
  keyId : KeyId
  scheme : SignatureScheme
  signature : SignatureValue
deriving DecidableEq, Repr

/-- The available hash algorithms. -/
inductive HashAlgorithm where
  | sha256
  | sha512
deriving DecidableEq, Repr

/-- Wrapper for the value of a hash digest. -/
structure HashValue where
  val : Bytes
deriving DecidableEq, Repr

/-! ## The primitive check -/

/-- The `ring` algorithms that `PublicKey::verify` selects. -/
inductive VerificationAlgorithm where
  | ed25519
  | rsaPss2048_8192Sha256
  | rsaPss2048_8192Sha512
deriving DecidableEq, Repr

/-- `ring::signature::verify(alg, public_key, msg, sig)` succeeds. -/
abbrev RingVerify := VerificationAlgorithm → Bytes → Bytes → Bytes → Bool

/-- Use this key and the given signature scheme to verify the message against a signature. -/
def PublicKey.verify (ring : RingVerify) (key : PublicKey) (scheme : SignatureScheme)
    (msg : Bytes) (sig : SignatureValue) : Except Error Unit :=
  let alg := match scheme with
    | .ed25519 => VerificationAlgorithm.ed25519
    | .rsaSsaPssSha256 => .rsaPss2048_8192Sha256
    | .rsaSsaPssSha512 => .rsaPss2048_8192Sha512
  if ring alg key.value.val msg sig.val then .ok () else .error .badSignature

/-! ## Key ids and key constructors

`ring::digest`'s SHA-256 and the DER conversions of `rsa.rs` are outside the sources: they are
the parameters `sha256` and `rsa`. -/

/-- `rsa::from_pkcs1` and `rsa::from_spki`: each parses its input and returns the key's PKCS#1
DER, or `None`. -/
structure RsaDer where
  fromPkcs1 : Bytes → Option Bytes
  fromSpki : Bytes → Option Bytes

/-- Calculate the given key's ID: `sha256(public_key_bytes)`. -/
def calculateKeyId (sha256 : Bytes → Bytes) (publicKey : PublicKeyValue) : KeyId :=
  ⟨sha256 publicKey.val⟩

/-- Create a `PublicKey` from an Ed25519 `PublicKeyValue`. -/
def PublicKey.fromEd25519 (sha256 : Bytes → Bytes) (value : PublicKeyValue) :
    Except Error PublicKey :=
  if value.val.length ≠ 32 then .error (.decode "Ed25519 public key was not 32 bytes long")
  else
    .ok { typ := .ed25519, format := .hexLower, keyId := calculateKeyId sha256 value,
          value := value }

/-- The `{:?}` rendering of a key format. -/
def KeyFormat.debug : KeyFormat → String
  | .hexLower => "HexLower"
  | .pkcs1 => "Pkcs1"
  | .spki => "Spki"

/-- Create a `PublicKey` from an RSA `PublicKeyValue`, either SPKI or PKCS#1. The key id is
calculated from `value` before the conversion to PKCS#1. -/
def PublicKey.fromRsa (sha256 : Bytes → Bytes) (rsa : RsaDer) (value : PublicKeyValue)
    (format : KeyFormat) : Except Error PublicKey :=
  let keyId := calculateKeyId sha256 value
  let key (pkcs1Value : Bytes) : PublicKey :=
    { typ := .rsa, format := format, keyId := keyId, value := ⟨pkcs1Value⟩ }
  match format with
  | .pkcs1 =>
    match rsa.fromPkcs1 value.val with
    | some bytes => .ok (key bytes)
    | none => .error (.illegalArgument "Key claimed to be PKCS1 but could not be parsed.")
  | .spki =>
    match rsa.fromSpki value.val with
    | some bytes => .ok (key bytes)
    | none => .error (.illegalArgument "Key claimed to be SPKI but could not be parsed.")
  | x =>
    let shown := x.debug
    .error (.illegalArgument s!"RSA keys in format {shown} not supported.")

section KeyIds

variable {sha256 : Bytes → Bytes} {k : PublicKey}

/-- An Ed25519 key is stored under the id of its value. -/
theorem PublicKey.fromEd25519_keyId {value : PublicKeyValue}
    (h : PublicKey.fromEd25519 sha256 value = .ok k) : k.keyId = calculateKeyId sha256 k.value := by
  unfold PublicKey.fromEd25519 at h
  split_ifs at h
  cases h
  rfl

/-- An RSA key is stored under the id of the bytes it was given, with the bytes the conversion
of its format returned. -/
theorem PublicKey.fromRsa_eq_ok {rsa : RsaDer} {value : PublicKeyValue} {format : KeyFormat}
    (h : PublicKey.fromRsa sha256 rsa value format = .ok k) :
    k.keyId = calculateKeyId sha256 value ∧ ∃ bytes, k.value = ⟨bytes⟩ ∧
      (format = .pkcs1 ∧ rsa.fromPkcs1 value.val = some bytes ∨
        format = .spki ∧ rsa.fromSpki value.val = some bytes) := by
  unfold PublicKey.fromRsa at h
  split at h
  · split at h <;> cases h
    exact ⟨rfl, _, rfl, .inl ⟨rfl, ‹_›⟩⟩
  · split at h <;> cases h
    exact ⟨rfl, _, rfl, .inr ⟨rfl, ‹_›⟩⟩
  · cases h

end KeyIds

/-- A key given as SPKI is stored with its PKCS#1 bytes under the id of the SPKI bytes. Unless
SHA-256 gives the two the same digest, that id is not `calculate_key_id` of the stored value,
and the same key given as PKCS#1 is stored under another id. -/
theorem fromRsa_spki_keyId (sha256 : Bytes → Bytes) (rsa : RsaDer) (spki pkcs1 : Bytes)
    (hs : rsa.fromSpki spki = some pkcs1) (hp : rsa.fromPkcs1 pkcs1 = some pkcs1)
    (hne : sha256 spki ≠ sha256 pkcs1) :
    ∃ k k', PublicKey.fromRsa sha256 rsa ⟨spki⟩ .spki = .ok k ∧
      PublicKey.fromRsa sha256 rsa ⟨pkcs1⟩ .pkcs1 = .ok k' ∧ k.value = k'.value ∧
      k.keyId ≠ calculateKeyId sha256 k.value ∧ k.keyId ≠ k'.keyId := by
  have hspki : PublicKey.fromRsa sha256 rsa ⟨spki⟩ .spki =
      .ok ⟨.rsa, .spki, ⟨sha256 spki⟩, ⟨pkcs1⟩⟩ := by
    simp only [PublicKey.fromRsa, hs]; rfl
  have hpkcs1 : PublicKey.fromRsa sha256 rsa ⟨pkcs1⟩ .pkcs1 =
      .ok ⟨.rsa, .pkcs1, ⟨sha256 pkcs1⟩, ⟨pkcs1⟩⟩ := by
    simp only [PublicKey.fromRsa, hp]; rfl
  exact ⟨_, _, hspki, hpkcs1, rfl, fun h => hne (congrArg KeyId.val h),
    fun h => hne (congrArg KeyId.val h)⟩

/-- The PKCS#1 DER of a toy RSA key (n = 11, e = 3). -/
def samplePkcs1 : Bytes := [0x30, 0x06, 0x02, 0x01, 0x0b, 0x02, 0x01, 0x03]

/-- The DER that wraps `samplePkcs1` into an SPKI: the `rsaEncryption` algorithm identifier and
the header of the bit string. -/
def sampleSpkiHeader : Bytes :=
  [0x30, 0x1a, 0x30, 0x0d, 0x06, 0x09, 0x2a, 0x86, 0x48, 0x86, 0xf7, 0x0d, 0x01, 0x01, 0x01,
   0x05, 0x00, 0x03, 0x09, 0x00]

/-- Conversions that accept PKCS#1 as it is and strip `sampleSpkiHeader` from an SPKI. -/
def sampleRsaDer : RsaDer :=
  { fromPkcs1 := some,
    fromSpki := fun b => if sampleSpkiHeader.isPrefixOf b then some (b.drop sampleSpkiHeader.length)
      else none }

theorem fromRsa_spki_keyId_sample :
    sampleRsaDer.fromSpki (sampleSpkiHeader ++ samplePkcs1) = some samplePkcs1 ∧
      sampleRsaDer.fromPkcs1 samplePkcs1 = some samplePkcs1 ∧
      sampleSpkiHeader ++ samplePkcs1 ≠ samplePkcs1 ∧
      ∃ k k', PublicKey.fromRsa id sampleRsaDer ⟨sampleSpkiHeader ++ samplePkcs1⟩ .spki =
          .ok k ∧
        PublicKey.fromRsa id sampleRsaDer ⟨samplePkcs1⟩ .pkcs1 = .ok k' ∧
        k.value = k'.value ∧ k.keyId ≠ calculateKeyId id k.value ∧ k.keyId ≠ k'.keyId :=
  ⟨rfl, rfl, by decide, fromRsa_spki_keyId id sampleRsaDer _ _ rfl rfl (by decide)⟩

end RustTuf
