import RustTuf.Crypto
import Mathlib.Data.List.AList

/-!
# The metadata documents

`metadata.rs` is not part of the sources, so the documents are modelled from the data model of
the spec (section 3), with the fields that `tuf.rs` reads through their accessors. Each
`HashMap` of the source is an `AList`: a map whose keys are pairwise distinct by construction.
A role definition and a root carry the invariants of section 3 as fields, so that no document
breaking them can be built.

`SignedMetadata::verify`, the threshold check every update goes through, is modelled from the
spec (section 4.2) over the primitive check of `crypto.rs`. The bytes every signature signs are
the canonical bytes of the payload, which the data interchange the engine is generic over makes
(`DataInterchange`); a signed document holds no bytes of its own.
-/

namespace RustTuf

/-- The `HashMap` of the source: an association list whose keys are pairwise distinct. -/
abbrev HashMap (K V : Type) := AList (fun _ : K => V)

/-- Modelled from the spec: a slash-delimited role identifier such as `"targets"` or
`"delegations/a"`. -/
structure MetadataPath where
  path : String
deriving DecidableEq, Repr

/-- Modelled from the spec: the metadata path of a top-level role. -/
def MetadataPath.fromRole : Role → MetadataPath
  | .root => ⟨"root"⟩
  | .snapshot => ⟨"snapshot"⟩
  | .targets => ⟨"targets"⟩
  | .timestamp => ⟨"timestamp"⟩

/-- Modelled from the spec: a slash-delimited target identifier, or a delegation's path
pattern. -/
structure VirtualTargetPath where
  path : String
deriving DecidableEq, Repr

/-- Modelled from the spec: the keys and threshold a root assigns to one role. -/
structure RoleDefinition where
  threshold : Nat
  keyIds : List KeyId
  /-- A role needs at least one signature. -/
  threshold_pos : 0 < threshold
  /-- A role can reach its threshold with the keys it lists. -/
  threshold_le : threshold ≤ keyIds.length
  /-- The key ids are a set. -/
  keyIds_nodup : keyIds.Nodup
deriving DecidableEq

/-- Modelled from the spec: root metadata; `expires` is the expiry instant in seconds (UTC). -/
structure RootMetadata where
  version : Nat
  expires : Int
  keys : HashMap KeyId PublicKey
  root : RoleDefinition
  snapshot : RoleDefinition
  targets : RoleDefinition
  timestamp : RoleDefinition
  /-- Every key id a role lists is one of the root's keys. -/
  keyIds_mem :
    ∀ role ∈ [root, snapshot, targets, timestamp], ∀ id ∈ role.keyIds, id ∈ keys
deriving DecidableEq

/-- Modelled from the spec: the description of a metadata file in timestamp or snapshot
metadata. Its hashes and length are not read by the trust engine. -/
structure MetadataDescription where
  version : Nat
deriving DecidableEq, Repr

/-- Modelled from the spec: timestamp metadata, listing the snapshot version. -/
structure TimestampMetadata where
  version : Nat
  expires : Int
  snapshot : MetadataDescription
deriving DecidableEq, Repr

/-- Modelled from the spec: snapshot metadata, describing the targets and delegated roles. -/
structure SnapshotMetadata where
  version : Nat
  expires : Int
  meta : HashMap MetadataPath MetadataDescription
deriving DecidableEq

/-- Modelled from the spec: what a client needs to verify a target file. -/
structure TargetDescription where
  length : Nat
  hashes : HashMap HashAlgorithm HashValue
deriving DecidableEq

/-- Modelled from the spec: a targets role's authorization of `role` for the target paths
`paths`. -/
structure Delegation where
  role : MetadataPath
  terminating : Bool
  threshold : Nat
  keyIds : List KeyId
  paths : List VirtualTargetPath
deriving DecidableEq, Repr

/-- Modelled from the spec: the keys of the delegated roles and the delegations, in order. -/
structure Delegations where
  keys : HashMap KeyId PublicKey
  roles : List Delegation
deriving DecidableEq

/-- Modelled from the spec: targets metadata, top-level or delegated. -/
structure TargetsMetadata where
  version : Nat
  expires : Int
  targets : HashMap VirtualTargetPath TargetDescription
  delegations : Option Delegations
deriving DecidableEq

/-- Modelled from the spec: a signed document, its signatures and its decoded payload. -/
structure SignedMetadata (M : Type) where
  signatures : List Signature
  signed : M

/-- Modelled from the spec: the data interchange the engine is generic over, `D` of `Tuf<D>`,
as signature checking reads it: the canonical bytes of each kind of document, its
deterministic serialization, which every signature on it signs. -/
structure DataInterchange where
  canonicalizeRoot : RootMetadata → Bytes
  canonicalizeTimestamp : TimestampMetadata → Bytes
  canonicalizeSnapshot : SnapshotMetadata → Bytes
  canonicalizeTargets : TargetsMetadata → Bytes

/-! ## The threshold check -/

/-- The keys of `keys` whose ids `keyIds` lists: the `filter_map` by which each update and
`find_delegation` restrict a key map to one role. -/
def authorizedKeys (keys : HashMap KeyId PublicKey) (keyIds : List KeyId) : List PublicKey :=
  keys.entries.filterMap fun e => if e.1 ∈ keyIds then some e.2 else none

variable {M : Type} (ring : RingVerify) (canonicalize : M → Bytes)

/-- The ids of the authorized keys that made a good signature on the canonical bytes of the
payload, each once. -/
def SignedMetadata.goodKeyIds (x : SignedMetadata M) (keys : List PublicKey) : List KeyId :=
  (x.signatures.filterMap fun sig =>
    match keys.find? (·.keyId == sig.keyId) with
    | some key =>
      match key.verify ring sig.scheme (canonicalize x.signed) sig.signature with
      | .ok () => some key.keyId
      | .error _ => none
    | none => none).dedup

/-- Modelled from the spec: `SignedMetadata::verify`. A threshold below one is refused; a
signature whose key is not authorized is skipped, each key counts at most once, and the payload
is accepted when the count reaches the threshold. -/
def SignedMetadata.verify (x : SignedMetadata M) (threshold : Nat) (keys : List PublicKey) :
    Except Error M :=
  if threshold < 1 then
    .error (.verificationFailure "Threshold must be strictly greater than zero")
  else
    let good := (x.goodKeyIds ring canonicalize keys).length
    if threshold ≤ good then .ok x.signed
    else .error (.verificationFailure s!"Signature threshold not met: {good}/{threshold}")

/-- The check accepts exactly when the threshold is positive and reached by the authorized keys
with a good signature on the payload's canonical bytes; it then returns the payload. -/
theorem SignedMetadata.verify_eq_ok {x : SignedMetadata M} {t : Nat} {keys : List PublicKey}
    {m : M} : x.verify ring canonicalize t keys = .ok m ↔
      0 < t ∧ t ≤ (x.goodKeyIds ring canonicalize keys).length ∧ x.signed = m := by
  unfold verify
  dsimp only
  by_cases h0 : t < 1
  · rw [if_pos h0]; exact ⟨nofun, fun h => absurd h.1 (by omega)⟩
  rw [if_neg h0]
  by_cases h1 : t ≤ (x.goodKeyIds ring canonicalize keys).length
  · rw [if_pos h1, Except.ok.injEq]; exact ⟨fun h => ⟨by omega, h1, h⟩, fun h => h.2.2⟩
  · rw [if_neg h1]; exact ⟨nofun, fun h => absurd h.2.1 h1⟩

/-- An accepted document is the signed payload. -/
theorem SignedMetadata.verify_ok {x : SignedMetadata M} {t : Nat} {keys : List PublicKey}
    {m : M} (h : x.verify ring canonicalize t keys = .ok m) : x.signed = m :=
  ((verify_eq_ok ring canonicalize).1 h).2.2

end RustTuf
