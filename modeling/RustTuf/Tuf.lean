import RustTuf.Metadata

/-!
# The trust engine

`Tuf` of `tuf.rs`: the trusted root, the optional timestamp, snapshot and top-level targets, the
map of delegated targets metadata, and the data interchange `D` the engine was built for, whose
canonical bytes every signature check reads. Each `update_*` method takes `&mut self`, so it is a
function returning the call's result together with the state after the call, whatever the
result; the clock `Utc::now()` is the argument `now`.

The definitions follow the source's control flow statement by statement: every `?` and early
`return` is a branch returning the state as it is at that point.
-/

namespace RustTuf

/-- Contains trusted TUF metadata and can be used to verify other metadata and targets. -/
structure Tuf where
  root : RootMetadata
  snapshot : Option SnapshotMetadata
  targets : Option TargetsMetadata
  timestamp : Option TimestampMetadata
  delegations : HashMap MetadataPath TargetsMetadata
  interchange : DataInterchange

/-- Modelled from the spec: the `{:?}` rendering of a metadata path in error messages. -/
def MetadataPath.debug (p : MetadataPath) : String :=
  "MetadataPath(\"" ++ p.path ++ "\")"

namespace Tuf

variable (ring : RingVerify)

/-- The engine for the interchange `interchange` holding only `root`. -/
def ofRoot (interchange : DataInterchange) (root : RootMetadata) : Tuf :=
  { root := root, snapshot := none, targets := none, timestamp := none, delegations := ∅,
    interchange := interchange }

/-- Create a new `Tuf` from a piece of metadata that is assumed to be trusted: the root is
checked only against the root keys it declares itself. -/
def fromTrustedRoot (interchange : DataInterchange) (signedRoot : SignedMetadata RootMetadata) :
    Except Error Tuf :=
  let root := signedRoot.signed
  match signedRoot.verify ring interchange.canonicalizeRoot root.root.threshold
      (authorizedKeys root.keys root.root.keyIds) with
  | .error e => .error e
  | .ok verified => .ok (ofRoot interchange verified)

/-- Create a new `Tuf` from a set of trusted root keys that are used to verify the signed
metadata. -/
def fromRootWithTrustedKeys (interchange : DataInterchange)
    (signedRoot : SignedMetadata RootMetadata) (rootThreshold : Nat) (rootKeys : List PublicKey) :
    Except Error Tuf :=
  match signedRoot.verify ring interchange.canonicalizeRoot rootThreshold rootKeys with
  | .error e => .error e
  | .ok _ => fromTrustedRoot ring interchange signedRoot

def currentTimestampVersion (tuf : Tuf) : Nat :=
  (tuf.timestamp.map (·.version)).getD 0

def currentSnapshotVersion (tuf : Tuf) : Nat :=
  (tuf.snapshot.map (·.version)).getD 0

def currentTargetsVersion (tuf : Tuf) : Nat :=
  (tuf.targets.map (·.version)).getD 0

def currentDelegationVersion (tuf : Tuf) (role : MetadataPath) : Nat :=
  ((tuf.delegations.lookup role).map (·.version)).getD 0

def purgeMetadata (tuf : Tuf) : Tuf :=
  { tuf with snapshot := none, targets := none, timestamp := none, delegations := ∅ }

def safeRootRef (tuf : Tuf) (now : Int) : Except Error RootMetadata :=
  if tuf.root.expires ≤ now then .error (.expiredMetadata .root) else .ok tuf.root

/-- The gate shared by `safe_snapshot_ref`, `safe_targets_ref` and `safe_timestamp_ref`: the
held document of `role`, unless it is missing or has expired. -/
def safeRef {M : Type} (expires : M → Int) (role : Role) (held : Option M) (now : Int) :
    Except Error M :=
  match held with
  | some m => if expires m ≤ now then .error (.expiredMetadata role) else .ok m
  | none => .error (.missingMetadata role)

def safeSnapshotRef (tuf : Tuf) (now : Int) : Except Error SnapshotMetadata :=
  safeRef (·.expires) .snapshot tuf.snapshot now

def safeTargetsRef (tuf : Tuf) (now : Int) : Except Error TargetsMetadata :=
  safeRef (·.expires) .targets tuf.targets now

def safeTimestampRef (tuf : Tuf) (now : Int) : Except Error TimestampMetadata :=
  safeRef (·.expires) .timestamp tuf.timestamp now

/-! ## Root and timestamp -/

/-- Verify and update the root metadata: the new root must be signed by the old root's root
keys, have a higher version, and be signed by its own root keys. -/
def updateRoot (tuf : Tuf) (signedRoot : SignedMetadata RootMetadata) : Except Error Bool × Tuf :=
  let oldRoot := tuf.root
  match signedRoot.verify ring tuf.interchange.canonicalizeRoot oldRoot.root.threshold
      (authorizedKeys oldRoot.keys oldRoot.root.keyIds) with
  | .error e => (.error e, tuf)
  | .ok newRoot =>
    if newRoot.version = oldRoot.version then (.ok false, tuf)
    else if newRoot.version < oldRoot.version then
      let oldVersion := oldRoot.version
      let newVersion := newRoot.version
      (.error (.verificationFailure
        s!"Attempted to roll back root metadata at version {oldVersion} to {newVersion}."), tuf)
    else
      match signedRoot.verify ring tuf.interchange.canonicalizeRoot newRoot.root.threshold
          (authorizedKeys newRoot.keys newRoot.root.keyIds) with
      | .error e => (.error e, tuf)
      | .ok verified => (.ok true, { tuf.purgeMetadata with root := verified })

/-- Verify and update the timestamp metadata. Returns the parsed metadata if it was newer. -/
def updateTimestamp (tuf : Tuf) (signedTimestamp : SignedMetadata TimestampMetadata)
    (now : Int) : Except Error (Option TimestampMetadata) × Tuf :=
  let root := tuf.root
  match signedTimestamp.verify ring tuf.interchange.canonicalizeTimestamp root.timestamp.threshold
      (authorizedKeys root.keys root.timestamp.keyIds) with
  | .error e => (.error e, tuf)
  | .ok timestamp =>
    if timestamp.expires ≤ now then (.error (.expiredMetadata .timestamp), tuf)
    else
      let currentVersion := tuf.currentTimestampVersion
      if timestamp.version < currentVersion then
        let newVersion := timestamp.version
        (.error (.verificationFailure s!"Attempted to roll back timestamp metadata at version {currentVersion} to {newVersion}."), tuf)
      else if timestamp.version = currentVersion then (.ok none, tuf)
      else
        let tuf := if tuf.currentSnapshotVersion ≠ timestamp.snapshot.version
          then { tuf with snapshot := none } else tuf
        let tuf := { tuf with timestamp := some timestamp }
        (.ok tuf.timestamp, tuf)

/-! ## Snapshot and targets -/

/-- Remove every delegation whose held version exceeds the version the snapshot lists for its
role. -/
def purgeDelegations (tuf : Tuf) : Tuf :=
  match tuf.snapshot with
  | none => tuf
  | some snapshot =>
    let purge := snapshot.meta.entries.filterMap fun e =>
      match tuf.delegations.lookup e.1 with
      | none => none
      | some delegation => if delegation.version > e.2.version then some e.1 else none
    { tuf with delegations := purge.foldl (fun m role => m.erase role) tuf.delegations }

/-- Verify and update the snapshot metadata. Its expiry is not checked, so that it can be
updated regardless and rollback attacks against targets and delegations prevented. -/
def updateSnapshot (tuf : Tuf) (signedSnapshot : SignedMetadata SnapshotMetadata) (now : Int) :
    Except Error Bool × Tuf :=
  match tuf.safeRootRef now, tuf.safeTimestampRef now with
  | .error e, _ => (.error e, tuf)
  | .ok _, .error e => (.error e, tuf)
  | .ok root, .ok timestamp =>
    let currentVersion := tuf.currentSnapshotVersion
    let claimed := timestamp.snapshot.version
    if claimed < currentVersion then
      (.error (.verificationFailure s!"Attempted to roll back snapshot metadata at version {currentVersion} to {claimed}."), tuf)
    else if claimed = currentVersion then (.ok false, tuf)
    else
      match signedSnapshot.verify ring tuf.interchange.canonicalizeSnapshot root.snapshot.threshold
          (authorizedKeys tuf.root.keys root.snapshot.keyIds) with
      | .error e => (.error e, tuf)
      | .ok snapshot =>
        if snapshot.version ≠ claimed then
          let found := snapshot.version
          (.error (.verificationFailure s!"The timestamp metadata reported that the snapshot metadata should be at version {claimed} but version {found} was found instead."), tuf)
        else
          let tuf := if (tuf.targets.map (·.version)).getD 0 ≠
              ((snapshot.meta.lookup (MetadataPath.fromRole .targets)).map (·.version)).getD 0
            then { tuf with targets := none } else tuf
          let tuf := { tuf with snapshot := some snapshot }
          (.ok true, tuf.purgeDelegations)

/-- Verify and update the targets metadata. -/
def updateTargets (tuf : Tuf) (signedTargets : SignedMetadata TargetsMetadata) (now : Int) :
    Except Error Bool × Tuf :=
  match tuf.safeRootRef now, tuf.safeSnapshotRef now with
  | .error e, _ => (.error e, tuf)
  | .ok _, .error e => (.error e, tuf)
  | .ok root, .ok snapshot =>
    match snapshot.meta.lookup (MetadataPath.fromRole .targets) with
    | none => (.error (.verificationFailure
        "Snapshot metadata had no description of the targets metadata"), tuf)
    | some targetsDescription =>
      let currentVersion := tuf.currentTargetsVersion
      let described := targetsDescription.version
      if described < currentVersion then
        (.error (.verificationFailure s!"Attempted to roll back targets metadata at version {currentVersion} to {described}."), tuf)
      else if described = currentVersion then (.ok false, tuf)
      else
        match signedTargets.verify ring tuf.interchange.canonicalizeTargets root.targets.threshold
            (authorizedKeys root.keys root.targets.keyIds) with
        | .error e => (.error e, tuf)
        | .ok targets =>
          if targets.version ≠ described then
            let found := targets.version
            (.error (.verificationFailure s!"The timestamp metadata reported that the targets metadata should be at version {described} but version {found} was found instead."), tuf)
          else if targets.expires ≤ now then (.error (.expiredMetadata .snapshot), tuf)
          else (.ok true, { tuf with targets := some targets })

/-! ## Delegations -/

/-- Find the signing keys and metadata for the delegation given by `role`, as seen from the
point of view of `parentRole`: the first entry for `role` in the parent's delegations. -/
def findDelegation (tuf : Tuf) (parentRole role : MetadataPath) :
    Option (List PublicKey × Delegation) := do
  let parent ← if parentRole = MetadataPath.fromRole .targets then tuf.targets
    else tuf.delegations.lookup parentRole
  let delegations ← parent.delegations
  let delegation ← delegations.roles.find? (·.role == role)
  return (authorizedKeys delegations.keys delegation.keyIds, delegation)

/-- Verify and update a delegation metadata. -/
def updateDelegation (tuf : Tuf) (parentRole role : MetadataPath)
    (signedDelegation : SignedMetadata TargetsMetadata) (now : Int) : Except Error Bool × Tuf :=
  match tuf.safeRootRef now, tuf.safeSnapshotRef now, tuf.safeTargetsRef now with
  | .error e, _, _ => (.error e, tuf)
  | .ok _, .error e, _ => (.error e, tuf)
  | .ok _, .ok _, .error e => (.error e, tuf)
  | .ok _, .ok snapshot, .ok targets =>
    let shown := role.debug
    if targets.delegations.isNone then
      (.error (.verificationFailure "Delegations not authorized"), tuf)
    else
    match snapshot.meta.lookup role with
    | none => (.error (.verificationFailure
        s!"The degated role {shown} was not present in the snapshot metadata."), tuf)
    | some delegationDescription =>
      let currentVersion := tuf.currentDelegationVersion role
      let described := delegationDescription.version
      if described < currentVersion then
        (.error (.verificationFailure s!"Snapshot metadata did listed delegation {shown} version as {described} but currentversion is {currentVersion}"), tuf)
      else
      match tuf.findDelegation parentRole role with
      | none => (.error (.verificationFailure s!"The delegated role {shown} is not known to the base targets metadata or any known delegated targets metadata"), tuf)
      | some (keys, delegation) =>
        match signedDelegation.verify ring tuf.interchange.canonicalizeTargets delegation.threshold
            keys with
        | .error e => (.error e, tuf)
        | .ok delegation =>
          if currentVersion = described then (.ok false, tuf)
          else if delegation.version ≠ described then
            let found := delegation.version
            (.error (.verificationFailure s!"The snapshot metadata reported that the delegation {shown} should be at version {described} but version {found} was found instead."), tuf)
          else if delegation.expires ≤ now then (.error (.expiredMetadata .targets), tuf)
          else (.ok true, { tuf with delegations := tuf.delegations.insert role delegation })

end Tuf

end RustTuf
