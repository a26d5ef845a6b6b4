import RustTuf.Steps

/-!
# Runs of the engine

A client drives the engine by a sequence of update calls, each with its own signed input and
clock value. `Tuf.update` is one call, `Reachable` the engines that some such sequence reaches
from an engine built by `from_trusted_root` or `from_root_with_trusted_keys`.

`Tuf.update_cases` restates the five case lemmas for one call: it stays, or it advanced.
Every invariant of the engine is proved through `Reachable.induction` from an invariant of the
engines holding only a root and one step lemma.

The sample engine at the end, one Ed25519-style key for every role under a primitive check
whose signature is the key's bytes followed by the message, instantiates the hypotheses of
the later theorems; `loadedEngine` is a run of it that holds a timestamp, a snapshot, top-level
targets and the metadata of a delegated role.
-/

namespace RustTuf

/-- One call of an update method, with its arguments and the clock value it reads. -/
inductive Update where
  | root (signedRoot : SignedMetadata RootMetadata)
  | timestamp (signedTimestamp : SignedMetadata TimestampMetadata) (now : Int)
  | snapshot (signedSnapshot : SignedMetadata SnapshotMetadata) (now : Int)
  | targets (signedTargets : SignedMetadata TargetsMetadata) (now : Int)
  | delegation (parentRole role : MetadataPath) (signedDelegation : SignedMetadata TargetsMetadata)
      (now : Int)

namespace Tuf

variable (ring : RingVerify)

/-- The call `u` on the engine: whether it advanced (`Ok(true)`, or `Ok(Some(_))` for the
timestamp), and the engine after it. -/
def update (tuf : Tuf) : Update → Except Error Bool × Tuf
  | .root x => tuf.updateRoot ring x
  | .timestamp x now =>
    let r := tuf.updateTimestamp ring x now
    (r.1.map Option.isSome, r.2)
  | .snapshot x now => tuf.updateSnapshot ring x now
  | .targets x now => tuf.updateTargets ring x now
  | .delegation parentRole role x now => tuf.updateDelegation ring parentRole role x now

/-- The engine after the calls `us`, in order. -/
def run (tuf : Tuf) (us : List Update) : Tuf :=
  us.foldl (fun tuf u => (tuf.update ring u).2) tuf

variable {ring}

@[simp] theorem run_nil (tuf : Tuf) : tuf.run ring [] = tuf :=
  rfl

@[simp] theorem run_cons (tuf : Tuf) (u : Update) (us : List Update) :
    tuf.run ring (u :: us) = (tuf.update ring u).2.run ring us :=
  rfl

theorem stays_timestamp {tuf : Tuf} {x : SignedMetadata TimestampMetadata} {now : Int}
    (h : Stays none tuf (tuf.updateTimestamp ring x now)) :
    Stays false tuf (tuf.update ring (.timestamp x now)) := by
  simp only [update]
  generalize tuf.updateTimestamp ring x now = r at h ⊢
  cases h
  · exact .error _
  · exact .unchanged

/-- Every call stays or advances. -/
theorem update_cases (tuf : Tuf) (u : Update) :
    Stays false tuf (tuf.update ring u) ∨ (tuf.update ring u).1 = .ok true := by
  cases u with
  | root x =>
    exact (updateRoot_cases ring tuf x).imp_right fun ⟨_, _, _, _, h⟩ => congrArg (·.1) h
  | timestamp x now =>
    exact (updateTimestamp_cases ring tuf x now).imp stays_timestamp fun ⟨_, _, _, _, h⟩ =>
      congrArg (·.1.map Option.isSome) h
  | snapshot x now =>
    exact (updateSnapshot_cases ring tuf x now).imp_right fun ⟨_, _, _, _, _, _, _, _, h⟩ =>
      congrArg (·.1) h
  | targets x now =>
    exact (updateTargets_cases ring tuf x now).imp_right
      fun ⟨_, _, _, _, _, _, _, _, _, _, _, h⟩ => congrArg (·.1) h
  | delegation p r x now =>
    exact (updateDelegation_cases ring tuf p r x now).imp_right
      fun ⟨_, _, _, _, _, _, _, _, _, _, _, _, _, _, _, _, _, _, h⟩ => congrArg (·.1) h

end Tuf

/-! ## Reachable engines -/

/-- The engines reachable from a root accepted by `from_trusted_root` by any sequence of
update calls. -/
inductive Reachable (ring : RingVerify) : Tuf → Prop
  | fromTrustedRoot (interchange : DataInterchange) (signedRoot : SignedMetadata RootMetadata)
      {tuf : Tuf} : Tuf.fromTrustedRoot ring interchange signedRoot = .ok tuf → Reachable ring tuf
  | update {tuf : Tuf} (u : Update) : Reachable ring tuf → Reachable ring (tuf.update ring u).2

namespace Reachable

variable {ring : RingVerify}

/-- `from_root_with_trusted_keys` ends in `from_trusted_root`. -/
theorem fromRootWithTrustedKeys {interchange : DataInterchange}
    {signedRoot : SignedMetadata RootMetadata} {threshold : Nat} {keys : List PublicKey} {tuf : Tuf}
    (h : Tuf.fromRootWithTrustedKeys ring interchange signedRoot threshold keys = .ok tuf) :
    Reachable ring tuf := by
  unfold Tuf.fromRootWithTrustedKeys at h
  split at h
  · cases h
  · exact .fromTrustedRoot _ _ h

theorem run {tuf : Tuf} (h : Reachable ring tuf) (us : List Update) :
    Reachable ring (tuf.run ring us) := by
  induction us generalizing tuf with
  | nil => exact h
  | cons u us ih => exact ih (h.update u)

/-- An engine built by `from_trusted_root` holds its root and nothing else. -/
theorem fromTrustedRoot_eq {interchange : DataInterchange}
    {signedRoot : SignedMetadata RootMetadata} {tuf : Tuf}
    (h : Tuf.fromTrustedRoot ring interchange signedRoot = .ok tuf) :
    tuf = Tuf.ofRoot interchange signedRoot.signed := by
  simp only [Tuf.fromTrustedRoot] at h
  split at h
  · cases h
  · cases h
    rw [SignedMetadata.verify_ok ring _ ‹_›]

/-- An invariant of the engines holding only a root that every call preserves holds in every
reachable engine. -/
theorem induction {P : Tuf → Prop} (init : ∀ interchange root, P (Tuf.ofRoot interchange root))
    (step : ∀ tuf u, P tuf → P (tuf.update ring u).2) {tuf : Tuf} (h : Reachable ring tuf) :
    P tuf := by
  induction h with
  | fromTrustedRoot _ _ h => exact fromTrustedRoot_eq h ▸ init _ _
  | update u _ ih => exact step _ u ih

end Reachable

/-! ## A sample engine -/

/-- A primitive check under which the signature of a message is the key's bytes followed by
the message. -/
def sampleRing : RingVerify := fun _ key msg sig => sig == key ++ msg

def sampleKey : PublicKey := ⟨.ed25519, .hexLower, ⟨[1]⟩, ⟨[1]⟩⟩

/-- The sample key alone, at threshold one. -/
def sampleRole : RoleDefinition := ⟨1, [⟨[1]⟩], by decide, by decide, by decide⟩

def sampleRoot : RootMetadata :=
  { version := 1, expires := 100, keys := [⟨⟨[1]⟩, sampleKey⟩].toAList,
    root := sampleRole, snapshot := sampleRole, targets := sampleRole, timestamp := sampleRole,
    keyIds_mem := by decide }

/-- An interchange that writes every document as the empty byte string: the sample signatures
exercise the key checks, not the encoding. -/
def sampleInterchange : DataInterchange := ⟨fun _ => [], fun _ => [], fun _ => [], fun _ => []⟩

/-- `m` signed by the sample key, over the canonical bytes of the sample interchange. -/
def signedBySample {M : Type} (m : M) : SignedMetadata M :=
  { signatures := [⟨⟨[1]⟩, .ed25519, ⟨[1]⟩⟩], signed := m }

/-- The sample engine, holding the sample root only. -/
def sampleEngine : Tuf := Tuf.ofRoot sampleInterchange sampleRoot

theorem reachable_sample : Reachable sampleRing sampleEngine :=
  .fromTrustedRoot sampleInterchange (signedBySample sampleRoot) rfl

def sampleDesc : TargetDescription := ⟨0, ∅⟩

/-- A non-terminating delegation of `role` for the literal patterns `paths`, to the sample key
at threshold one. -/
def delegate (role : String) (paths : List String) : Delegation :=
  { role := ⟨role⟩, terminating := false, threshold := 1, keyIds := [⟨[1]⟩],
    paths := paths.map (⟨·⟩) }

/-- Targets metadata at version 1 listing `sampleDesc` for the paths `entries`, and delegating
by `roles` with the sample key. -/
def targetsWith (entries : List String) (roles : List Delegation) : TargetsMetadata :=
  { version := 1, expires := 100, targets := (entries.map fun p => ⟨⟨p⟩, sampleDesc⟩).toAList,
    delegations := some ⟨[⟨⟨[1]⟩, sampleKey⟩].toAList, roles⟩ }

/-- Snapshot metadata at `version` listing the `(path, version)` pairs `meta`. -/
def snapshotListing (version : Nat) (meta : List (String × Nat)) : SnapshotMetadata :=
  { version := version, expires := 100,
    meta := (meta.map fun r => (⟨⟨r.1⟩, ⟨r.2⟩⟩ : Σ _ : MetadataPath, MetadataDescription)).toAList }

def timestampListing (version snapshotVersion : Nat) : TimestampMetadata :=
  ⟨version, 100, ⟨snapshotVersion⟩⟩

/-- Timestamp, snapshot and top-level targets at version 1, the targets delegating `"bar"` to
role `"a"`, then the metadata of `"a"`, listing `"bar"`. -/
def loadedRun : List Update :=
  [.timestamp (signedBySample (timestampListing 1 1)) 0,
   .snapshot (signedBySample (snapshotListing 1 [("targets", 1), ("a", 1)])) 0,
   .targets (signedBySample (targetsWith [] [delegate "a" ["bar"]])) 0,
   .delegation ⟨"targets"⟩ ⟨"a"⟩ (signedBySample (targetsWith ["bar"] [])) 0]

/-- The sample engine after `loadedRun`: every slot holds a document. -/
def loadedEngine : Tuf := sampleEngine.run sampleRing loadedRun

theorem reachable_loaded : Reachable sampleRing loadedEngine :=
  reachable_sample.run loadedRun

end RustTuf
