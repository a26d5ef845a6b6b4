import RustTuf.Commute
import RustTuf.Invariants

/-!
# Versions of the held documents

The timestamp slot is emptied only with the root, and `update_timestamp` installs only newer
versions, so within a root epoch the timestamp version never decreases
(`timestamp_version_mono`).

The other slots are emptied within an epoch: the snapshot by a timestamp listing another
snapshot version, the targets by a snapshot listing another targets version, a delegated role
by `purge_delegations`. An emptied slot counts as version 0 for the rollback checks, so it can
be refilled below the version it held (`snapshot_rollback`).

`purge_delegations` purges by the roles the new snapshot lists: a held role the snapshot lists
is at most the listed version (`listedBelow_of_reachable`), but a held role it does not list is
kept (`unlisted_delegation_kept`).
-/

namespace RustTuf.Tuf

variable {ring : RingVerify} {tuf : Tuf}

/-! ## The timestamp and the snapshot -/

/-- Within a root epoch the timestamp version never decreases. -/
theorem timestamp_version_mono (u : Update) (h : (tuf.update ring u).2.root = tuf.root) :
    tuf.currentTimestampVersion ≤ (tuf.update ring u).2.currentTimestampVersion := by
  cases u with
  | root x =>
    rcases updateRoot_cases ring tuf x with hs | ⟨newRoot, -, hlt, -, heq⟩
    · exact (congrArg currentTimestampVersion hs.state_eq).ge
    · have hu : tuf.update ring (.root x) = (.ok true, ofRoot tuf.interchange newRoot) := heq
      rw [hu] at h
      exact absurd (h ▸ hlt) (lt_irrefl _)
  | timestamp x now =>
    rcases updateTimestamp_cases ring tuf x now with hs | ⟨ts, -, -, hlt, heq⟩
    · exact (congrArg currentTimestampVersion hs.state_eq).ge
    · simp only [update, heq, currentTimestampVersion, Option.map_some', Option.getD_some]
      exact hlt.le
  | snapshot x now => simp [update, currentTimestampVersion]
  | targets x now => simp [update, currentTimestampVersion]
  | delegation p r x now =>
    show _ ≤ (tuf.updateDelegation ring p r x now).2.currentTimestampVersion
    rw [updateDelegation_frame]
    exact le_rfl

/-- A call keeps the root, or installs one of higher version. -/
theorem root_kept_or_raised (tuf : Tuf) (u : Update) :
    (tuf.update ring u).2.root = tuf.root ∨
      tuf.root.version < (tuf.update ring u).2.root.version := by
  by_cases h : (tuf.update ring u).2.root = tuf.root
  · exact .inl h
  · obtain ⟨-, -, -, hlt, -⟩ := root_changed tuf u h
    exact .inr hlt

/-- Over every run the root version never decreases, and the timestamp version never
decreases unless the root version rose: only a root rotation, which discards the held
timestamp, lets an older timestamp in. -/
theorem run_versions_mono (tuf : Tuf) (us : List Update) :
    tuf.root.version ≤ (tuf.run ring us).root.version ∧
      (tuf.root.version < (tuf.run ring us).root.version ∨
        tuf.currentTimestampVersion ≤ (tuf.run ring us).currentTimestampVersion) := by
  induction us generalizing tuf with
  | nil => exact ⟨le_rfl, .inr le_rfl⟩
  | cons u us ih =>
    obtain ⟨ih₁, ih₂⟩ := ih (tuf.update ring u).2
    rw [run_cons]
    rcases root_kept_or_raised tuf u with hroot | hlt
    · rw [hroot] at ih₁ ih₂
      exact ⟨ih₁, ih₂.imp_right (timestamp_version_mono u hroot).trans⟩
    · exact ⟨hlt.le.trans ih₁, .inl (hlt.trans_le ih₁)⟩

/-- A measure that no call of the kind `P` lowers is never lowered by a run of such calls. -/
theorem run_mono (f : Tuf → Nat) (P : Update → Prop)
    (hstep : ∀ tuf u, P u → f tuf ≤ f (tuf.update ring u).2) :
    ∀ (tuf : Tuf) (us : List Update), (∀ u ∈ us, P u) → f tuf ≤ f (tuf.run ring us)
  | _, [], _ => le_rfl
  | tuf, u :: us, h =>
    (hstep tuf u (h u (List.mem_cons_self u us))).trans
      (run_mono f P hstep _ us fun v hv => h v (List.mem_cons_of_mem u hv))

/-- Only `update_root` and `update_timestamp` empty the snapshot slot; `update_snapshot` fills it
only with a newer version. -/
theorem snapshot_version_step (u : Update) (hr : ∀ x, u ≠ .root x)
    (ht : ∀ x now, u ≠ .timestamp x now) :
    tuf.currentSnapshotVersion ≤ (tuf.update ring u).2.currentSnapshotVersion := by
  cases u with
  | root x => exact absurd rfl (hr x)
  | timestamp x now => exact absurd rfl (ht x now)
  | snapshot x now =>
    rcases updateSnapshot_cases ring tuf x now with hs | ⟨ts, sn, -, -, -, hlt, -, hver, heq⟩
    · exact (congrArg currentSnapshotVersion hs.state_eq).ge
    · show _ ≤ (tuf.updateSnapshot ring x now).2.currentSnapshotVersion
      rw [heq]
      exact (hlt.trans_eq hver.symm).le
  | targets x now =>
    rcases updateTargets_cases ring tuf x now with hs | ⟨_, _, _, -, -, -, -, -, -, -, -, heq⟩
    · exact (congrArg currentSnapshotVersion hs.state_eq).ge
    · show _ ≤ (tuf.updateTargets ring x now).2.currentSnapshotVersion
      rw [heq]
      exact le_rfl
  | delegation p r x now =>
    show _ ≤ (tuf.updateDelegation ring p r x now).2.currentSnapshotVersion
    rw [updateDelegation_frame]
    exact le_rfl

/-- Only `update_root` and `update_snapshot` empty the targets slot; `update_targets` fills it
only with a newer version. -/
theorem targets_version_step (u : Update) (hr : ∀ x, u ≠ .root x)
    (hs : ∀ x now, u ≠ .snapshot x now) :
    tuf.currentTargetsVersion ≤ (tuf.update ring u).2.currentTargetsVersion := by
  cases u with
  | root x => exact absurd rfl (hr x)
  | snapshot x now => exact absurd rfl (hs x now)
  | timestamp x now =>
    rcases updateTimestamp_cases ring tuf x now with hs | ⟨_, -, -, -, heq⟩
    · exact (congrArg currentTargetsVersion hs.state_eq).ge
    · show _ ≤ (tuf.updateTimestamp ring x now).2.currentTargetsVersion
      rw [heq]
      exact le_rfl
  | targets x now =>
    rcases updateTargets_cases ring tuf x now with
      hs | ⟨_, _, tg, -, -, -, -, hlt, -, hver, -, heq⟩
    · exact (congrArg currentTargetsVersion hs.state_eq).ge
    · show _ ≤ (tuf.updateTargets ring x now).2.currentTargetsVersion
      rw [heq]
      exact (hlt.trans_eq hver.symm).le
  | delegation p r x now =>
    show _ ≤ (tuf.updateDelegation ring p r x now).2.currentTargetsVersion
    rw [updateDelegation_frame]
    exact le_rfl

/-- Only `update_root` and `update_snapshot` remove a delegated role; `update_delegation`
installs only a newer version of it. -/
theorem delegation_version_step (role : MetadataPath) (u : Update) (hr : ∀ x, u ≠ .root x)
    (hs : ∀ x now, u ≠ .snapshot x now) :
    tuf.currentDelegationVersion role ≤
      (tuf.update ring u).2.currentDelegationVersion role := by
  cases u with
  | root x => exact absurd rfl (hr x)
  | snapshot x now => exact absurd rfl (hs x now)
  | timestamp x now =>
    rcases updateTimestamp_cases ring tuf x now with hs | ⟨_, -, -, -, heq⟩
    · exact (congrArg (currentDelegationVersion · role) hs.state_eq).ge
    · show _ ≤ (tuf.updateTimestamp ring x now).2.currentDelegationVersion role
      rw [heq]
      exact le_rfl
  | targets x now =>
    rcases updateTargets_cases ring tuf x now with hs | ⟨_, _, _, -, -, -, -, -, -, -, -, heq⟩
    · exact (congrArg (currentDelegationVersion · role) hs.state_eq).ge
    · show _ ≤ (tuf.updateTargets ring x now).2.currentDelegationVersion role
      rw [heq]
      exact le_rfl
  | delegation p r x now =>
    show _ ≤ (tuf.updateDelegation ring p r x now).2.currentDelegationVersion role
    by_cases hq : role = r
    · subst hq
      rcases updateDelegation_cases ring tuf p role x now with
        hs | ⟨_, _, _, _, _, dl, -, -, -, -, -, -, -, hlt, -, -, hver, -, heq⟩
      · exact (congrArg (currentDelegationVersion · role) hs.state_eq).ge
      · simp only [heq, currentDelegationVersion, AList.lookup_insert, Option.map_some',
          Option.getD_some] at hlt ⊢
        omega
    · rw [currentDelegationVersion, currentDelegationVersion, updateDelegation_lookup_ne hq]

/-- A slot's version falls only through a call that can empty the slot: over every run with no
`update_root` and no `update_timestamp` call the snapshot version never decreases, and over
every run with no `update_root` and no `update_snapshot` call neither the targets version nor
the version of any delegated role does. -/
theorem versions_mono_without_clearing (tuf : Tuf) (us : List Update) :
    ((∀ u ∈ us, (∀ x, u ≠ .root x) ∧ ∀ x now, u ≠ .timestamp x now) →
      tuf.currentSnapshotVersion ≤ (tuf.run ring us).currentSnapshotVersion) ∧
    ((∀ u ∈ us, (∀ x, u ≠ .root x) ∧ ∀ x now, u ≠ .snapshot x now) →
      tuf.currentTargetsVersion ≤ (tuf.run ring us).currentTargetsVersion ∧
        ∀ role, tuf.currentDelegationVersion role ≤
          (tuf.run ring us).currentDelegationVersion role) :=
  ⟨run_mono currentSnapshotVersion _ (fun _ u h => snapshot_version_step u h.1 h.2) tuf us,
    fun h => ⟨run_mono currentTargetsVersion _ (fun _ u h => targets_version_step u h.1 h.2)
      tuf us h,
      fun role => run_mono (currentDelegationVersion · role) _
        (fun _ u h => delegation_version_step role u h.1 h.2) tuf us h⟩⟩

/-- Timestamp 1 lists snapshot 5, which is installed; timestamp 2 lists snapshot 3, which
empties the snapshot slot; snapshot 3 is then installed. -/
def rollbackRun : List Update :=
  [.timestamp (signedBySample (timestampListing 1 5)) 0,
   .snapshot (signedBySample (snapshotListing 5 [])) 0,
   .timestamp (signedBySample (timestampListing 2 3)) 0,
   .snapshot (signedBySample (snapshotListing 3 [])) 0]

/-- Under one root, the snapshot slot holds version 5 after the second call of `rollbackRun`
and version 3 after the fourth. -/
theorem snapshot_rollback :
    (sampleEngine.run sampleRing (rollbackRun.take 2)).currentSnapshotVersion = 5 ∧
      (sampleEngine.run sampleRing rollbackRun).currentSnapshotVersion = 3 ∧
      (sampleEngine.run sampleRing rollbackRun).root = sampleRoot :=
  ⟨rfl, rfl, rfl⟩

/-! ## Delegations and the snapshot -/

/-- Every delegated role the held snapshot lists is held at most at the listed version. -/
def ListedBelow (tuf : Tuf) : Prop :=
  ∀ sn, tuf.snapshot = some sn → ∀ r d desc, tuf.delegations.lookup r = some d →
    sn.meta.lookup r = some desc → d.version ≤ desc.version

theorem ListedBelow.update (hl : ListedBelow tuf) (u : Update) :
    ListedBelow (tuf.update ring u).2 := by
  cases u with
  | root x =>
    show ListedBelow (tuf.updateRoot ring x).2
    rcases updateRoot_cases ring tuf x with hs | ⟨newRoot, -, -, -, heq⟩
    · rwa [hs.state_eq]
    · rw [heq]
      intro _ _ _ _ _ hd
      simp [ofRoot] at hd
  | timestamp x now =>
    show ListedBelow (tuf.updateTimestamp ring x now).2
    rcases updateTimestamp_cases ring tuf x now with hs | ⟨ts, -, -, -, heq⟩
    · rwa [hs.state_eq]
    · rw [heq]
      intro sn hsn
      split at hsn
      · exact hl sn hsn
      · cases hsn
  | snapshot x now =>
    show ListedBelow (tuf.updateSnapshot ring x now).2
    rcases updateSnapshot_cases ring tuf x now with hs | ⟨_, sn, -, -, -, -, -, -, heq⟩
    · rwa [hs.state_eq]
    · rw [heq]
      intro sn' hsn r d desc hd hdesc
      simp only [purgeDelegations_snapshot, Option.some.injEq] at hsn
      subst hsn
      exact (purgeDelegations_lookup rfl hd).2 desc hdesc
  | targets x now =>
    show ListedBelow (tuf.updateTargets ring x now).2
    rcases updateTargets_cases ring tuf x now with hs | ⟨_, _, _, -, -, -, -, -, -, -, -, heq⟩
    · rwa [hs.state_eq]
    · rw [heq]
      exact hl
  | delegation p r x now =>
    show ListedBelow (tuf.updateDelegation ring p r x now).2
    rcases updateDelegation_cases ring tuf p r x now with
      hs | ⟨sn, _, desc, _, _, dl, -, hss, -, -, -, -, hd, -, -, -, hver, -, heq⟩
    · rwa [hs.state_eq]
    rw [heq]
    intro sn' hsn r' d desc' hd' hdesc'
    by_cases hr : r' = r
    · subst hr
      rw [AList.lookup_insert, Option.some.injEq] at hd'
      rw [hss, Option.some.injEq] at hsn
      subst hd' hsn
      rw [hd, Option.some.injEq] at hdesc'
      subst hdesc'
      exact hver.le
    · rw [AList.lookup_insert_ne hr] at hd'
      exact hl sn' hsn r' d desc' hd' hdesc'

/-- In every reachable engine, a delegated role that the held snapshot lists is held at most at
the listed version. -/
theorem listedBelow_of_reachable (h : Reachable ring tuf) : ListedBelow tuf :=
  h.induction (fun _ _ _ _ _ _ _ hd => by simp [ofRoot] at hd) fun _ u hl => hl.update u

theorem listedBelow_of_reachable_sample :
    Reachable sampleRing loadedEngine ∧ loadedEngine.snapshot.isSome ∧
      (loadedEngine.delegations.lookup ⟨"a"⟩).isSome ∧ ListedBelow loadedEngine :=
  ⟨reachable_loaded, rfl, rfl, listedBelow_of_reachable reachable_loaded⟩

/-- `purge_delegations` removes a held delegation exactly when the held snapshot lists its role
at a lower version, and keeps every other one, those of roles the snapshot does not list
included. -/
theorem purgeDelegations_lookup_eq {sn : SnapshotMetadata} (hs : tuf.snapshot = some sn)
    (r : MetadataPath) :
    tuf.purgeDelegations.delegations.lookup r =
      (tuf.delegations.lookup r).filter fun d =>
        (sn.meta.lookup r).all fun desc => d.version ≤ desc.version := by
  simp only [purgeDelegations, hs, lookup_foldl_erase, List.mem_filterMap]
  split_ifs with hmem
  · obtain ⟨⟨r', desc⟩, ha, h⟩ := hmem
    dsimp only at h
    rcases hd : tuf.delegations.lookup r' with _ | d <;> rw [hd] at h
    · cases h
    dsimp only at h
    split_ifs at h with hlt
    cases h
    rw [hd, AList.mem_lookup_iff.2 ha]
    simp [Option.filter, Nat.not_le.2 hlt]
  · rcases hd : tuf.delegations.lookup r with _ | d
    · rfl
    rcases hdesc : sn.meta.lookup r with _ | desc
    · rfl
    have hle : d.version ≤ desc.version := Nat.le_of_not_lt fun hlt =>
      hmem ⟨⟨r, desc⟩, AList.mem_lookup_iff.1 hdesc, by simp [hd, hlt]⟩
    simp [Option.filter, hle]

/-- An engine whose snapshot lists role `"a"` at version 1 and which holds version 2 of it. -/
def aboveListedEngine : Tuf :=
  { sampleEngine with
    snapshot := some (snapshotListing 1 [("a", 1)]),
    delegations := [⟨⟨"a"⟩, { targetsWith [] [] with version := 2 }⟩].toAList }

theorem purgeDelegations_lookup_eq_above :
    aboveListedEngine.snapshot = some (snapshotListing 1 [("a", 1)]) ∧
      aboveListedEngine.purgeDelegations.delegations.lookup ⟨"a"⟩ = none :=
  have hs : aboveListedEngine.snapshot = some (snapshotListing 1 [("a", 1)]) := rfl
  ⟨hs, (purgeDelegations_lookup_eq hs ⟨"a"⟩).trans rfl⟩

/-- Snapshot 1 lists the targets and the role `"a"`, which is loaded (`loadedEngine`); snapshot
2 lists only the targets. -/
def unlistedEngine : Tuf :=
  loadedEngine.run sampleRing
    [.timestamp (signedBySample (timestampListing 2 2)) 0,
     .snapshot (signedBySample (snapshotListing 2 [("targets", 1)])) 0]

/-- After snapshot 2 the engine still holds the metadata of `"a"`, which snapshot 2 does not
list: `purge_delegations` only looks at the roles the new snapshot lists. -/
theorem unlisted_delegation_kept :
    Reachable sampleRing unlistedEngine ∧
      unlistedEngine.currentSnapshotVersion = 2 ∧
      (unlistedEngine.snapshot.map fun sn => (sn.meta.lookup ⟨"a"⟩).isSome) = some false ∧
      (unlistedEngine.delegations.lookup ⟨"a"⟩).isSome = true :=
  ⟨reachable_loaded.run _, rfl, rfl, rfl⟩

/-! ## Version 0 means nothing is held -/

/-- Every held document has a positive version. -/
structure HeldPositive (tuf : Tuf) : Prop where
  timestamp : ∀ ts, tuf.timestamp = some ts → 0 < ts.version
  snapshot : ∀ sn, tuf.snapshot = some sn → 0 < sn.version
  targets : ∀ tg, tuf.targets = some tg → 0 < tg.version
  delegations : ∀ r d, tuf.delegations.lookup r = some d → 0 < d.version

theorem heldPositive_ofRoot (interchange : DataInterchange) (root : RootMetadata) :
    HeldPositive (ofRoot interchange root) :=
  ⟨nofun, nofun, nofun, fun _ _ hd => by simp [ofRoot] at hd⟩

theorem HeldPositive.update (hp : HeldPositive tuf) (u : Update) :
    HeldPositive (tuf.update ring u).2 := by
  cases u with
  | root x =>
    rcases updateRoot_cases ring tuf x with hs | ⟨newRoot, -, -, -, heq⟩
    · exact (congrArg HeldPositive hs.state_eq).mpr hp
    · exact (congrArg (HeldPositive ·.2) heq).mpr (heldPositive_ofRoot _ newRoot)
  | timestamp x now =>
    rcases updateTimestamp_cases ring tuf x now with hs | ⟨ts, -, -, hlt, heq⟩
    · exact (congrArg HeldPositive hs.state_eq).mpr hp
    · show HeldPositive (tuf.updateTimestamp ring x now).2
      rw [heq]
      refine ⟨?_, fun sn hsn => hp.snapshot sn (held_of_ite hsn), hp.targets, hp.delegations⟩
      rintro _ ⟨⟩
      omega
  | snapshot x now =>
    rcases updateSnapshot_cases ring tuf x now with hs | ⟨ts, sn, -, -, -, hlt, -, hver, heq⟩
    · exact (congrArg HeldPositive hs.state_eq).mpr hp
    · show HeldPositive (tuf.updateSnapshot ring x now).2
      rw [heq]
      refine ⟨fun ts' h => hp.timestamp ts' (purgeDelegations_timestamp ▸ h), ?_,
        fun tg h => hp.targets tg (held_of_ite (purgeDelegations_targets ▸ h)),
        fun r d h => hp.delegations r d (purgeDelegations_lookup rfl h).1⟩
      intro sn' h
      rw [purgeDelegations_snapshot, Option.some.injEq] at h
      subst h
      omega
  | targets x now =>
    rcases updateTargets_cases ring tuf x now with
      hs | ⟨_, _, tg, -, -, -, -, hlt, -, hver, -, heq⟩
    · exact (congrArg HeldPositive hs.state_eq).mpr hp
    · show HeldPositive (tuf.updateTargets ring x now).2
      rw [heq]
      refine ⟨hp.timestamp, hp.snapshot, ?_, hp.delegations⟩
      rintro _ ⟨⟩
      omega
  | delegation p r x now =>
    rcases updateDelegation_cases ring tuf p r x now with
      hs | ⟨_, _, _, _, _, dl, -, -, -, -, -, -, -, hlt, -, -, hver, -, heq⟩
    · exact (congrArg HeldPositive hs.state_eq).mpr hp
    · show HeldPositive (tuf.updateDelegation ring p r x now).2
      rw [heq]
      refine ⟨hp.timestamp, hp.snapshot, hp.targets, fun q d h => ?_⟩
      by_cases hq : q = r
      · subst hq
        rw [AList.lookup_insert, Option.some.injEq] at h
        subst h
        omega
      · exact hp.delegations q d ((AList.lookup_insert_ne hq).symm.trans h)

theorem heldPositive_of_reachable (h : Reachable ring tuf) : HeldPositive tuf :=
  h.induction heldPositive_ofRoot fun _ u hp => hp.update u

/-- `unwrap_or(0)` of a slot whose documents have positive versions is 0 exactly when the slot
is empty. -/
theorem getD_map_eq_zero_iff {M : Type} {version : M → Nat} {held : Option M}
    (hpos : ∀ m, held = some m → 0 < version m) :
    (held.map version).getD 0 = 0 ↔ held = none := by
  cases held with
  | none => simp
  | some m => simpa using (hpos m rfl).ne'

/-- In every reachable engine `current_*_version` is 0 exactly when no document of that slot is
held, so the rollback checks never mistake a held document for an empty slot. -/
theorem current_version_zero_iff (h : Reachable ring tuf) :
    (tuf.currentTimestampVersion = 0 ↔ tuf.timestamp = none) ∧
      (tuf.currentSnapshotVersion = 0 ↔ tuf.snapshot = none) ∧
      (tuf.currentTargetsVersion = 0 ↔ tuf.targets = none) ∧
      ∀ role, tuf.currentDelegationVersion role = 0 ↔ tuf.delegations.lookup role = none :=
  have hp := heldPositive_of_reachable h
  ⟨getD_map_eq_zero_iff hp.timestamp, getD_map_eq_zero_iff hp.snapshot,
    getD_map_eq_zero_iff hp.targets, fun role => getD_map_eq_zero_iff (hp.delegations role)⟩

theorem current_version_zero_iff_sample :
    Reachable sampleRing loadedEngine ∧
      (loadedEngine.currentTimestampVersion = 0 ↔ loadedEngine.timestamp = none) ∧
      (loadedEngine.currentSnapshotVersion = 0 ↔ loadedEngine.snapshot = none) ∧
      (loadedEngine.currentTargetsVersion = 0 ↔ loadedEngine.targets = none) ∧
      ∀ role, loadedEngine.currentDelegationVersion role = 0 ↔
        loadedEngine.delegations.lookup role = none :=
  ⟨reachable_loaded, current_version_zero_iff reachable_loaded⟩

end RustTuf.Tuf
