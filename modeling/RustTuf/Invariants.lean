import RustTuf.Run

/-!
# Invariants of the top-level documents

`linked_of_reachable`: in every reachable engine the held snapshot is the version the held
timestamp lists, and the held top-level targets are the version the held snapshot lists for
the path `"targets"`. A held targets version is positive, which is what lets
`update_snapshot` keep the targets only when the new snapshot really lists them.

`root_anchored`: the root changes only by an `update_root` that returned `Ok(true)`, to a
root of higher version accepted under both the old and its own root role; and over every run
from an engine holding only a root, each held timestamp, snapshot and targets was installed by
a signed input that passes the threshold check of its role in the held root, over the
canonical bytes of the held document. The engine keeps only payloads, so the inputs are
recorded beside it (`Installed`), from the result of each call.

Both are proved per update method from the case lemmas, then over runs: `Linked` by
`Reachable.induction`, `Anchored` together with the record by `Anchored.run`.
-/

namespace RustTuf.Tuf

variable {ring : RingVerify} {tuf : Tuf}

/-! ## Linked documents -/

/-- The top-level documents the engine holds are the ones the documents above them list. -/
structure Linked (tuf : Tuf) : Prop where
  snapshot_listed : ∀ sn, tuf.snapshot = some sn →
    ∃ ts, tuf.timestamp = some ts ∧ sn.version = ts.snapshot.version
  targets_listed : ∀ sn tg, tuf.snapshot = some sn → tuf.targets = some tg →
    ∃ desc, sn.meta.lookup (MetadataPath.fromRole .targets) = some desc ∧
      desc.version = tg.version
  targets_pos : ∀ tg, tuf.targets = some tg → 0 < tg.version

theorem linked_ofRoot (interchange : DataInterchange) (root : RootMetadata) :
    Linked (ofRoot interchange root) :=
  ⟨nofun, nofun, nofun⟩

theorem Linked.updateTimestamp (hl : Linked tuf) (x : SignedMetadata TimestampMetadata)
    (now : Int) : Linked (tuf.updateTimestamp ring x now).2 := by
  rcases updateTimestamp_cases ring tuf x now with hs | ⟨ts, -, -, -, heq⟩
  · rwa [hs.state_eq]
  rw [heq]
  refine ⟨fun sn hsn => ⟨ts, rfl, ?_⟩, fun sn tg hsn htg => ?_, hl.targets_pos⟩
  · split at hsn <;> simp_all [currentSnapshotVersion]
  · split at hsn
    · exact hl.targets_listed sn tg hsn htg
    · cases hsn

theorem Linked.updateSnapshot (hl : Linked tuf) (x : SignedMetadata SnapshotMetadata)
    (now : Int) : Linked (tuf.updateSnapshot ring x now).2 := by
  rcases updateSnapshot_cases ring tuf x now with hs | ⟨ts, sn, -, hts, -, -, -, hver, heq⟩
  · rwa [hs.state_eq]
  rw [heq]
  refine ⟨?_, fun sn' tg hsn htg => ?_, fun tg htg => ?_⟩
  · simp only [purgeDelegations_snapshot, purgeDelegations_timestamp, Option.some.injEq]
    rintro _ rfl
    exact ⟨ts, hts, hver⟩
  · simp only [purgeDelegations_snapshot, purgeDelegations_targets, Option.some.injEq] at hsn htg
    subst hsn
    split at htg
    · rename_i hcur
      have hpos := hl.targets_pos tg htg
      simp only [currentTargetsVersion, htg, Option.map_some', Option.getD_some] at hcur
      cases hd : sn.meta.lookup (MetadataPath.fromRole .targets) with
      | none => simp [hd] at hcur; omega
      | some desc => exact ⟨desc, rfl, by simp [hd] at hcur; omega⟩
    · cases htg
  · simp only [purgeDelegations_targets] at htg
    split at htg
    · exact hl.targets_pos tg htg
    · cases htg

theorem Linked.updateTargets (hl : Linked tuf) (x : SignedMetadata TargetsMetadata)
    (now : Int) : Linked (tuf.updateTargets ring x now).2 := by
  rcases updateTargets_cases ring tuf x now with
    hs | ⟨sn, desc, tg, -, hss, -, hd, hlt, -, hver, -, heq⟩
  · rwa [hs.state_eq]
  rw [heq]
  refine ⟨hl.snapshot_listed, fun sn' tg' hsn htg => ?_, fun tg' htg => ?_⟩
  · simp only [hss, Option.some.injEq] at hsn htg
    subst hsn htg
    exact ⟨desc, hd, hver.symm⟩
  · simp only [Option.some.injEq] at htg
    subst htg
    omega

theorem Linked.updateDelegation (hl : Linked tuf) (parentRole role : MetadataPath)
    (x : SignedMetadata TargetsMetadata) (now : Int) :
    Linked (tuf.updateDelegation ring parentRole role x now).2 := by
  rw [updateDelegation_frame]
  exact ⟨hl.snapshot_listed, hl.targets_listed, hl.targets_pos⟩

theorem Linked.update (hl : Linked tuf) (u : Update) : Linked (tuf.update ring u).2 := by
  cases u with
  | root x =>
    show Linked (tuf.updateRoot ring x).2
    rcases updateRoot_cases ring tuf x with hs | ⟨newRoot, -, -, -, heq⟩
    · rwa [hs.state_eq]
    · rw [heq]; exact linked_ofRoot _ newRoot
  | timestamp x now => exact hl.updateTimestamp x now
  | snapshot x now => exact hl.updateSnapshot x now
  | targets x now => exact hl.updateTargets x now
  | delegation p r x now => exact hl.updateDelegation p r x now

/-- In every reachable engine a held snapshot is the version the held timestamp lists, and
held top-level targets are the version the held snapshot lists for them. -/
theorem linked_of_reachable (h : Reachable ring tuf) :
    (∀ sn, tuf.snapshot = some sn →
      ∃ ts, tuf.timestamp = some ts ∧ sn.version = ts.snapshot.version) ∧
    (∀ sn tg, tuf.snapshot = some sn → tuf.targets = some tg →
      ∃ desc, sn.meta.lookup (MetadataPath.fromRole .targets) = some desc ∧
        desc.version = tg.version) :=
  have hl : Linked tuf := h.induction linked_ofRoot fun _ u hl => hl.update u
  ⟨hl.snapshot_listed, hl.targets_listed⟩

theorem linked_sample :
    Reachable sampleRing loadedEngine ∧ loadedEngine.snapshot.isSome ∧
      loadedEngine.targets.isSome ∧
      (∀ sn, loadedEngine.snapshot = some sn →
        ∃ ts, loadedEngine.timestamp = some ts ∧ sn.version = ts.snapshot.version) ∧
      (∀ sn tg, loadedEngine.snapshot = some sn → loadedEngine.targets = some tg →
        ∃ desc, sn.meta.lookup (MetadataPath.fromRole .targets) = some desc ∧
          desc.version = tg.version) :=
  ⟨reachable_loaded, rfl, rfl, linked_of_reachable reachable_loaded⟩

/-! ## Trust anchored in the held root -/

/-- The signed inputs that installed the held timestamp, snapshot and top-level targets: a
record kept beside the engine over a run, since the engine keeps only the payloads. -/
structure Installed where
  timestamp : Option (SignedMetadata TimestampMetadata)
  snapshot : Option (SignedMetadata SnapshotMetadata)
  targets : Option (SignedMetadata TargetsMetadata)

namespace Installed

/-- Nothing installed. -/
def empty : Installed := ⟨none, none, none⟩

/-- The records of the slots that `tuf` holds. -/
def keep (g : Installed) (tuf : Tuf) : Installed :=
  { timestamp := if tuf.timestamp.isSome then g.timestamp else none,
    snapshot := if tuf.snapshot.isSome then g.snapshot else none,
    targets := if tuf.targets.isSome then g.targets else none }

/-- The record after a call with result `r`: if the call advanced, the records of the slots
the engine still holds with `install` applied, which records the call's input for the slot it
installed into; else only the records of the slots the engine still holds. -/
def record (g : Installed) (r : Except Error Bool × Tuf) (install : Installed → Installed) :
    Installed :=
  if r.1.toOption = some true then install (g.keep r.2) else g.keep r.2

/-- The record after the call `u` on `tuf`. -/
def step (ring : RingVerify) (g : Installed) (tuf : Tuf) : Update → Installed
  | .root x => g.keep (tuf.update ring (.root x)).2
  | .timestamp x now =>
    g.record (tuf.update ring (.timestamp x now)) fun i => { i with timestamp := some x }
  | .snapshot x now =>
    g.record (tuf.update ring (.snapshot x now)) fun i => { i with snapshot := some x }
  | .targets x now =>
    g.record (tuf.update ring (.targets x now)) fun i => { i with targets := some x }
  | .delegation p r x now => g.keep (tuf.update ring (.delegation p r x now)).2

/-- The record after the calls `us` from `tuf`. -/
def run (ring : RingVerify) (g : Installed) (tuf : Tuf) : List Update → Installed
  | [] => g
  | u :: us => (g.step ring tuf u).run ring (tuf.update ring u).2 us

end Installed

/-- The slot holds a document only if `input`, the signed input that installed it, passes the
threshold check of `role` with the keys of `keys` over the canonical bytes of that document. -/
def InstalledBy {M : Type} (ring : RingVerify) (canonicalize : M → Bytes)
    (keys : HashMap KeyId PublicKey) (role : RoleDefinition) (held : Option M)
    (input : Option (SignedMetadata M)) : Prop :=
  ∀ m, held = some m → ∃ x, input = some x ∧
    x.verify ring canonicalize role.threshold (authorizedKeys keys role.keyIds) = .ok m

section InstalledBy

variable {M : Type} {canonicalize : M → Bytes} {keys : HashMap KeyId PublicKey}
  {role : RoleDefinition} {held : Option M} {input : Option (SignedMetadata M)}

theorem InstalledBy.of_verify {x : SignedMetadata M} {m : M}
    (h : x.verify ring canonicalize role.threshold (authorizedKeys keys role.keyIds) = .ok m) :
    InstalledBy ring canonicalize keys role (some m) (some x) := by
  rintro _ ⟨⟩
  exact ⟨x, rfl, h⟩

/-- A slot that keeps its document or is emptied keeps its record, or drops it. -/
theorem InstalledBy.keep (h : InstalledBy ring canonicalize keys role held input)
    {held' : Option M} (h' : ∀ m, held' = some m → held = some m) :
    InstalledBy ring canonicalize keys role held' (if held'.isSome then input else none) := by
  intro m hm
  rw [hm, Option.isSome_some, if_pos rfl]
  exact h m (h' m hm)

end InstalledBy

/-- A slot that is kept or emptied keeps only what it held. -/
theorem held_of_ite {M : Type} {c : Prop} [Decidable c] {held : Option M} {m : M}
    (h : (if c then held else none) = some m) : held = some m := by
  split_ifs at h
  exact h

/-- Each held top-level document was installed by a signed input that passes the threshold
check of its role in the held root. -/
structure Anchored (ring : RingVerify) (tuf : Tuf) (g : Installed) : Prop where
  timestamp : InstalledBy ring tuf.interchange.canonicalizeTimestamp tuf.root.keys
    tuf.root.timestamp tuf.timestamp g.timestamp
  snapshot : InstalledBy ring tuf.interchange.canonicalizeSnapshot tuf.root.keys
    tuf.root.snapshot tuf.snapshot g.snapshot
  targets : InstalledBy ring tuf.interchange.canonicalizeTargets tuf.root.keys
    tuf.root.targets tuf.targets g.targets

variable {g : Installed}

theorem anchored_ofRoot (interchange : DataInterchange) (root : RootMetadata) (g : Installed) :
    Anchored ring (ofRoot interchange root) g :=
  ⟨nofun, nofun, nofun⟩

theorem Anchored.keep (ha : Anchored ring tuf g) : Anchored ring tuf (g.keep tuf) :=
  ⟨ha.timestamp.keep fun _ => id, ha.snapshot.keep fun _ => id, ha.targets.keep fun _ => id⟩

theorem Installed.record_of_ne {r : Except Error Bool × Tuf} {f : Installed → Installed}
    (h : r.1 ≠ .ok true) : g.record r f = g.keep r.2 := by
  unfold Installed.record
  rw [if_neg]
  rcases hr : r.1 with _ | _ | _ <;> first | exact absurd hr h | exact nofun

theorem Installed.record_of_eq {r : Except Error Bool × Tuf} {f : Installed → Installed}
    (h : r.1 = .ok true) : g.record r f = f (g.keep r.2) := by
  unfold Installed.record
  rw [h]
  rfl

/-- A call that does not advance keeps the records of the slots the engine still holds. -/
theorem Installed.step_of_ne {u : Update} (h : (tuf.update ring u).1 ≠ .ok true) :
    g.step ring tuf u = g.keep (tuf.update ring u).2 := by
  cases u <;> rw [Installed.step] <;> first | rfl | exact Installed.record_of_ne h

theorem Anchored.update (ha : Anchored ring tuf g) (u : Update) :
    Anchored ring (tuf.update ring u).2 (g.step ring tuf u) := by
  rcases update_cases tuf u with hs | hadv
  · rw [Installed.step_of_ne (hs.ne_ok (by decide)), hs.state_eq]
    exact ha.keep
  cases u with
  | root x =>
    rcases updateRoot_cases ring tuf x with hs | ⟨newRoot, -, -, -, heq⟩
    · exact absurd hadv (hs.ne_ok (by decide))
    · show Anchored ring (tuf.updateRoot ring x).2 _
      rw [heq]
      exact anchored_ofRoot _ _ _
  | timestamp x now =>
    rcases updateTimestamp_cases ring tuf x now with hs | ⟨ts, hv, -, -, heq⟩
    · exact absurd hadv ((stays_timestamp hs).ne_ok (by decide))
    have hu : tuf.update ring (.timestamp x now) = (.ok true, { tuf with
        snapshot := if tuf.currentSnapshotVersion = ts.snapshot.version then tuf.snapshot
          else none,
        timestamp := some ts }) := by
      simp only [Tuf.update, heq]; rfl
    rw [Installed.step, hu, Installed.record_of_eq rfl]
    exact ⟨.of_verify hv, ha.snapshot.keep fun _ => held_of_ite, ha.targets.keep fun _ => id⟩
  | snapshot x now =>
    rcases updateSnapshot_cases ring tuf x now with hs | ⟨_, sn, -, -, -, -, hv, -, heq⟩
    · exact absurd hadv (hs.ne_ok (by decide))
    have hu : tuf.update ring (.snapshot x now) = _ := heq
    rw [Installed.step, hu, Installed.record_of_eq rfl]
    refine ⟨?_, ?_, ?_⟩ <;> simp only [purgeDelegations_root, purgeDelegations_interchange,
      purgeDelegations_timestamp, purgeDelegations_snapshot, purgeDelegations_targets]
    · exact ha.timestamp.keep fun _ => id
    · exact .of_verify hv
    · exact ha.targets.keep fun _ => held_of_ite
  | targets x now =>
    rcases updateTargets_cases ring tuf x now with
      hs | ⟨_, _, tg, -, -, -, -, -, hv, -, -, heq⟩
    · exact absurd hadv (hs.ne_ok (by decide))
    have hu : tuf.update ring (.targets x now) = _ := heq
    rw [Installed.step, hu, Installed.record_of_eq rfl]
    exact ⟨ha.timestamp.keep fun _ => id, ha.snapshot.keep fun _ => id, .of_verify hv⟩
  | delegation p r x now =>
    have ha' := ha.keep
    show Anchored ring (tuf.updateDelegation ring p r x now).2
      (g.keep (tuf.updateDelegation ring p r x now).2)
    rw [updateDelegation_frame]
    exact ⟨ha'.timestamp, ha'.snapshot, ha'.targets⟩

/-- Over a run, the record keeps the engine anchored. -/
theorem Anchored.run (ha : Anchored ring tuf g) (us : List Update) :
    Anchored ring (tuf.run ring us) (g.run ring tuf us) := by
  induction us generalizing tuf g with
  | nil => exact ha
  | cons u us ih => exact ih (ha.update u)

/-- Only a successful `update_root` changes the root, and only to a root of higher version
that passed the threshold check of the old root's root role and of its own. -/
theorem root_changed (tuf : Tuf) (u : Update) (h : (tuf.update ring u).2.root ≠ tuf.root) :
    ∃ x, u = .root x ∧ (tuf.update ring u).1 = .ok true ∧
      tuf.root.version < (tuf.update ring u).2.root.version ∧
      x.verify ring tuf.interchange.canonicalizeRoot tuf.root.root.threshold
          (authorizedKeys tuf.root.keys tuf.root.root.keyIds) = .ok (tuf.update ring u).2.root ∧
      x.verify ring tuf.interchange.canonicalizeRoot (tuf.update ring u).2.root.root.threshold
          (authorizedKeys (tuf.update ring u).2.root.keys (tuf.update ring u).2.root.root.keyIds) =
        .ok (tuf.update ring u).2.root := by
  cases u with
  | root x =>
    rcases updateRoot_cases ring tuf x with hs | ⟨newRoot, hold, hlt, hnew, heq⟩
    · exact absurd (congrArg Tuf.root hs.state_eq) h
    · have hu : tuf.update ring (.root x) = (.ok true, ofRoot tuf.interchange newRoot) := heq
      rw [hu]
      exact ⟨x, rfl, rfl, hlt, hold, hnew⟩
  | timestamp x now => exact absurd (updateTimestamp_root ring tuf x now) h
  | snapshot x now => exact absurd (updateSnapshot_root ring tuf x now) h
  | targets x now => exact absurd (updateTargets_root ring tuf x now) h
  | delegation p r x now => exact absurd (congrArg Tuf.root (updateDelegation_frame ..)) h

/-- Trust is anchored in the held root over whole runs: the root changes only by a successful
`update_root`, to a newer root accepted under the replaced root's root role and under its own;
and after every run from an engine holding only a root, as `from_trusted_root` and
`from_root_with_trusted_keys` build it, each held timestamp, snapshot and targets was installed
by a signed input that passes the check of its role in the held root, so nothing accepted under
a rotated-out root survives. -/
theorem root_anchored (ring : RingVerify) :
    (∀ (tuf : Tuf) (u : Update), (tuf.update ring u).2.root ≠ tuf.root →
      ∃ x, u = .root x ∧ (tuf.update ring u).1 = .ok true ∧
        tuf.root.version < (tuf.update ring u).2.root.version ∧
        x.verify ring tuf.interchange.canonicalizeRoot tuf.root.root.threshold
            (authorizedKeys tuf.root.keys tuf.root.root.keyIds) = .ok (tuf.update ring u).2.root ∧
        x.verify ring tuf.interchange.canonicalizeRoot (tuf.update ring u).2.root.root.threshold
            (authorizedKeys (tuf.update ring u).2.root.keys
              (tuf.update ring u).2.root.root.keyIds) =
          .ok (tuf.update ring u).2.root) ∧
    (∀ (interchange : DataInterchange) (root : RootMetadata) (us : List Update),
      Anchored ring ((ofRoot interchange root).run ring us)
        (Installed.empty.run ring (ofRoot interchange root) us)) :=
  ⟨root_changed, fun _ _ us => (anchored_ofRoot _ _ _).run us⟩

/-- The sample root rotated to version 2, signed by the same key. -/
def sampleRotation : Update := .root (signedBySample { sampleRoot with version := 2 })

theorem root_anchored_sample :
    loadedEngine.root.version <
        (loadedEngine.update sampleRing sampleRotation).2.root.version ∧
      loadedEngine.timestamp.isSome ∧ loadedEngine.snapshot.isSome ∧
      loadedEngine.targets.isSome ∧
      Anchored sampleRing loadedEngine (Installed.empty.run sampleRing sampleEngine loadedRun) := by
  obtain ⟨-, -, -, hv, -⟩ := (root_anchored sampleRing).1 loadedEngine sampleRotation
    fun h => absurd (congrArg RootMetadata.version h) (by decide)
  exact ⟨hv, rfl, rfl, rfl, (root_anchored sampleRing).2 sampleInterchange sampleRoot loadedRun⟩

end RustTuf.Tuf
