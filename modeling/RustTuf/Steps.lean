import RustTuf.Tuf

/-!
# What one update can do

One case lemma per update method: either the call does not advance and leaves the engine as
it was (`Stays`), or every check of the method passed and the engine is the committed state the
lemma names. The invariants and laws of the later modules are derived from these lemmas alone
and never unfold a method again.
-/

namespace RustTuf.Tuf

/-- The call did not advance, returning an error or its no-op result `noop`, and left the
engine `tuf` as it was. -/
inductive Stays {α : Type} (noop : α) (tuf : Tuf) : Except Error α × Tuf → Prop
  | error (e : Error) : Stays noop tuf (.error e, tuf)
  | unchanged : Stays noop tuf (.ok noop, tuf)

theorem Stays.state_eq {α : Type} {noop : α} {tuf : Tuf} {r : Except Error α × Tuf}
    (h : Stays noop tuf r) : r.2 = tuf := by
  cases h <;> rfl

theorem Stays.ne_ok {α : Type} {noop a : α} {tuf : Tuf} {r : Except Error α × Tuf}
    (h : Stays noop tuf r) (ha : a ≠ noop) : r.1 ≠ .ok a := by
  cases h
  · exact nofun
  · simpa [eq_comm] using ha

variable {tuf : Tuf} {now : Int}

/-! ## The expiry gates -/

@[simp] theorem safeRootRef_eq_ok {r : RootMetadata} :
    tuf.safeRootRef now = .ok r ↔ now < tuf.root.expires ∧ tuf.root = r := by
  unfold safeRootRef
  split_ifs with h <;> simp [h]
  omega

theorem safeRef_eq_ok {M : Type} {expires : M → Int} {role : Role} {held : Option M}
    {m : M} : safeRef expires role held now = .ok m ↔ held = some m ∧ now < expires m := by
  unfold safeRef
  rcases held with _ | m'
  · simp
  · by_cases h : expires m' ≤ now <;> simp [h] <;> rintro rfl <;> omega

@[simp] theorem safeSnapshotRef_eq_ok {s : SnapshotMetadata} :
    tuf.safeSnapshotRef now = .ok s ↔ tuf.snapshot = some s ∧ now < s.expires :=
  safeRef_eq_ok

@[simp] theorem safeTargetsRef_eq_ok {t : TargetsMetadata} :
    tuf.safeTargetsRef now = .ok t ↔ tuf.targets = some t ∧ now < t.expires :=
  safeRef_eq_ok

@[simp] theorem safeTimestampRef_eq_ok {t : TimestampMetadata} :
    tuf.safeTimestampRef now = .ok t ↔ tuf.timestamp = some t ∧ now < t.expires :=
  safeRef_eq_ok

/-! ## Purging -/

@[simp] theorem purgeDelegations_root : tuf.purgeDelegations.root = tuf.root := by
  unfold purgeDelegations; split <;> rfl

@[simp] theorem purgeDelegations_snapshot : tuf.purgeDelegations.snapshot = tuf.snapshot := by
  unfold purgeDelegations; split <;> rfl

@[simp] theorem purgeDelegations_targets : tuf.purgeDelegations.targets = tuf.targets := by
  unfold purgeDelegations; split <;> rfl

@[simp] theorem purgeDelegations_timestamp :
    tuf.purgeDelegations.timestamp = tuf.timestamp := by
  unfold purgeDelegations; split <;> rfl

@[simp] theorem purgeDelegations_interchange :
    tuf.purgeDelegations.interchange = tuf.interchange := by
  unfold purgeDelegations; split <;> rfl

theorem lookup_foldl_erase (l : List MetadataPath) (m : HashMap MetadataPath TargetsMetadata)
    (r : MetadataPath) :
    (l.foldl (fun m role => m.erase role) m).lookup r = if r ∈ l then none else m.lookup r := by
  induction l generalizing m with
  | nil => simp
  | cons a l ih =>
    by_cases h : r = a
    · subst h; simp [ih, AList.lookup_erase]
    · simp [ih, h, AList.lookup_erase_ne h]

/-- A delegation that survives the purge was held before, and is at most the version the
snapshot lists for its role, if it lists one. -/
theorem purgeDelegations_lookup {sn : SnapshotMetadata} {r : MetadataPath} {d : TargetsMetadata}
    (hs : tuf.snapshot = some sn) (h : tuf.purgeDelegations.delegations.lookup r = some d) :
    tuf.delegations.lookup r = some d ∧
      ∀ desc, sn.meta.lookup r = some desc → d.version ≤ desc.version := by
  simp only [purgeDelegations, hs, lookup_foldl_erase] at h
  split_ifs at h with hr
  refine ⟨h, fun desc hdesc => Nat.le_of_not_lt fun hlt => hr ?_⟩
  exact List.mem_filterMap.2 ⟨⟨r, desc⟩, AList.mem_lookup_iff.1 hdesc, by simp [h, hlt]⟩

/-! ## One case lemma per update -/

/-- `update_root` stays, or the new root passed the old root's and its own threshold checks,
its version rose, and the engine holds it and nothing else: `purge_metadata` cleared the rest. -/
theorem updateRoot_cases (ring : RingVerify) (tuf : Tuf) (x : SignedMetadata RootMetadata) :
    Stays false tuf (tuf.updateRoot ring x) ∨
    ∃ newRoot, x.verify ring tuf.interchange.canonicalizeRoot tuf.root.root.threshold
          (authorizedKeys tuf.root.keys tuf.root.root.keyIds) = .ok newRoot ∧
      tuf.root.version < newRoot.version ∧
      x.verify ring tuf.interchange.canonicalizeRoot newRoot.root.threshold
          (authorizedKeys newRoot.keys newRoot.root.keyIds) = .ok newRoot ∧
      tuf.updateRoot ring x = (.ok true, Tuf.ofRoot tuf.interchange newRoot) := by
  simp only [updateRoot]
  rcases h1 : x.verify ring tuf.interchange.canonicalizeRoot tuf.root.root.threshold
      (authorizedKeys tuf.root.keys tuf.root.root.keyIds) with e | newRoot
  · exact .inl (.error e)
  dsimp only
  by_cases h2 : newRoot.version = tuf.root.version
  · rw [if_pos h2]; exact .inl .unchanged
  rw [if_neg h2]
  by_cases h3 : newRoot.version < tuf.root.version
  · rw [if_pos h3]; exact .inl (.error _)
  rw [if_neg h3]
  rcases h4 : x.verify ring tuf.interchange.canonicalizeRoot newRoot.root.threshold
      (authorizedKeys newRoot.keys newRoot.root.keyIds) with e | verified
  · exact .inl (.error e)
  obtain rfl : verified = newRoot :=
    (SignedMetadata.verify_ok ring _ h4).symm.trans (SignedMetadata.verify_ok ring _ h1)
  exact .inr ⟨_, rfl, by omega, h4, rfl⟩

/-- `update_timestamp` stays, or the timestamp passed the root's timestamp check, is fresh and
newer, and is installed; the snapshot is kept only if the timestamp lists its version. -/
theorem updateTimestamp_cases (ring : RingVerify) (tuf : Tuf)
    (x : SignedMetadata TimestampMetadata) (now : Int) :
    Stays none tuf (tuf.updateTimestamp ring x now) ∨
    ∃ ts, x.verify ring tuf.interchange.canonicalizeTimestamp tuf.root.timestamp.threshold
          (authorizedKeys tuf.root.keys tuf.root.timestamp.keyIds) = .ok ts ∧
      now < ts.expires ∧ tuf.currentTimestampVersion < ts.version ∧
      tuf.updateTimestamp ring x now = (.ok (some ts), { tuf with
        snapshot := if tuf.currentSnapshotVersion = ts.snapshot.version then tuf.snapshot
          else none,
        timestamp := some ts }) := by
  simp only [updateTimestamp]
  rcases hv : x.verify ring tuf.interchange.canonicalizeTimestamp tuf.root.timestamp.threshold
      (authorizedKeys tuf.root.keys tuf.root.timestamp.keyIds) with e | ts
  · exact .inl (.error e)
  dsimp only
  by_cases h1 : ts.expires ≤ now
  · rw [if_pos h1]; exact .inl (.error _)
  rw [if_neg h1]
  by_cases h2 : ts.version < tuf.currentTimestampVersion
  · rw [if_pos h2]; exact .inl (.error _)
  rw [if_neg h2]
  by_cases h3 : ts.version = tuf.currentTimestampVersion
  · rw [if_pos h3]; exact .inl .unchanged
  rw [if_neg h3]
  refine .inr ⟨ts, rfl, by omega, by omega, ?_⟩
  by_cases h4 : tuf.currentSnapshotVersion = ts.snapshot.version
  · rw [if_neg (not_not.2 h4), if_pos h4]
  · rw [if_pos h4, if_neg h4]

/-- `update_snapshot` stays, or root and timestamp are fresh, the timestamp lists a newer
snapshot version, the snapshot passed the root's snapshot check and has that version; the
targets are kept only if the snapshot lists their version, and the delegations are purged. -/
theorem updateSnapshot_cases (ring : RingVerify) (tuf : Tuf)
    (x : SignedMetadata SnapshotMetadata) (now : Int) :
    Stays false tuf (tuf.updateSnapshot ring x now) ∨
    ∃ ts sn, now < tuf.root.expires ∧ tuf.timestamp = some ts ∧ now < ts.expires ∧
      tuf.currentSnapshotVersion < ts.snapshot.version ∧
      x.verify ring tuf.interchange.canonicalizeSnapshot tuf.root.snapshot.threshold
          (authorizedKeys tuf.root.keys tuf.root.snapshot.keyIds) = .ok sn ∧
      sn.version = ts.snapshot.version ∧
      tuf.updateSnapshot ring x now = (.ok true, purgeDelegations { tuf with
        targets := if tuf.currentTargetsVersion =
            ((sn.meta.lookup (MetadataPath.fromRole .targets)).map (·.version)).getD 0
          then tuf.targets else none,
        snapshot := some sn }) := by
  simp only [updateSnapshot]
  rcases hr : tuf.safeRootRef now with e | root
  · exact .inl (.error e)
  rcases ht : tuf.safeTimestampRef now with e | ts
  · exact .inl (.error e)
  obtain ⟨hre, rfl⟩ := safeRootRef_eq_ok.1 hr
  obtain ⟨hts, hte⟩ := safeTimestampRef_eq_ok.1 ht
  dsimp only
  by_cases h1 : ts.snapshot.version < tuf.currentSnapshotVersion
  · rw [if_pos h1]; exact .inl (.error _)
  rw [if_neg h1]
  by_cases h2 : ts.snapshot.version = tuf.currentSnapshotVersion
  · rw [if_pos h2]; exact .inl .unchanged
  rw [if_neg h2]
  rcases hv : x.verify ring tuf.interchange.canonicalizeSnapshot tuf.root.snapshot.threshold
      (authorizedKeys tuf.root.keys tuf.root.snapshot.keyIds) with e | sn
  · exact .inl (.error e)
  dsimp only
  by_cases h3 : sn.version ≠ ts.snapshot.version
  · rw [if_pos h3]; exact .inl (.error _)
  rw [if_neg h3]
  refine .inr ⟨ts, sn, hre, hts, hte, by omega, rfl, by simpa using h3, ?_⟩
  by_cases h4 : (tuf.targets.map (·.version)).getD 0 ≠
      ((sn.meta.lookup (MetadataPath.fromRole .targets)).map (·.version)).getD 0
  · rw [if_pos h4, currentTargetsVersion, if_neg h4]
  · rw [if_neg h4, currentTargetsVersion, if_pos (not_not.1 h4)]

/-- `update_targets` stays, or root and snapshot are fresh, the snapshot describes newer
targets, which passed the root's targets check, have the described version, are fresh, and are
installed. -/
theorem updateTargets_cases (ring : RingVerify) (tuf : Tuf)
    (x : SignedMetadata TargetsMetadata) (now : Int) :
    Stays false tuf (tuf.updateTargets ring x now) ∨
    ∃ sn desc tg, now < tuf.root.expires ∧ tuf.snapshot = some sn ∧ now < sn.expires ∧
      sn.meta.lookup (MetadataPath.fromRole .targets) = some desc ∧
      tuf.currentTargetsVersion < desc.version ∧
      x.verify ring tuf.interchange.canonicalizeTargets tuf.root.targets.threshold
          (authorizedKeys tuf.root.keys tuf.root.targets.keyIds) = .ok tg ∧
      tg.version = desc.version ∧ now < tg.expires ∧
      tuf.updateTargets ring x now = (.ok true, { tuf with targets := some tg }) := by
  simp only [updateTargets]
  rcases hr : tuf.safeRootRef now with e | root
  · exact .inl (.error e)
  rcases hs : tuf.safeSnapshotRef now with e | sn
  · exact .inl (.error e)
  obtain ⟨hre, rfl⟩ := safeRootRef_eq_ok.1 hr
  obtain ⟨hss, hse⟩ := safeSnapshotRef_eq_ok.1 hs
  dsimp only
  rcases hd : sn.meta.lookup (MetadataPath.fromRole .targets) with _ | desc
  · exact .inl (.error _)
  dsimp only
  by_cases h1 : desc.version < tuf.currentTargetsVersion
  · rw [if_pos h1]; exact .inl (.error _)
  rw [if_neg h1]
  by_cases h2 : desc.version = tuf.currentTargetsVersion
  · rw [if_pos h2]; exact .inl .unchanged
  rw [if_neg h2]
  rcases hv : x.verify ring tuf.interchange.canonicalizeTargets tuf.root.targets.threshold
      (authorizedKeys tuf.root.keys tuf.root.targets.keyIds) with e | tg
  · exact .inl (.error e)
  dsimp only
  by_cases h3 : tg.version ≠ desc.version
  · rw [if_pos h3]; exact .inl (.error _)
  rw [if_neg h3]
  by_cases h4 : tg.expires ≤ now
  · rw [if_pos h4]; exact .inl (.error _)
  rw [if_neg h4]
  exact .inr ⟨sn, desc, tg, hre, hss, hse, hd, by omega, rfl, by simpa using h3, by omega, rfl⟩

/-- `update_delegation` stays, or root, snapshot and targets are fresh, the targets have a
delegations section, the snapshot describes a newer version of `role`, `find_delegation`
found an entry for it under `parentRole`, the document passed that entry's threshold check
with the keys found, has the described version, is fresh, and is installed. -/
theorem updateDelegation_cases (ring : RingVerify) (tuf : Tuf)
    (parentRole role : MetadataPath) (x : SignedMetadata TargetsMetadata) (now : Int) :
    Stays false tuf (tuf.updateDelegation ring parentRole role x now) ∨
    ∃ sn tg desc keys e dl, now < tuf.root.expires ∧ tuf.snapshot = some sn ∧
      now < sn.expires ∧ tuf.targets = some tg ∧ now < tg.expires ∧
      tg.delegations.isSome ∧ sn.meta.lookup role = some desc ∧
      tuf.currentDelegationVersion role < desc.version ∧
      tuf.findDelegation parentRole role = some (keys, e) ∧
      x.verify ring tuf.interchange.canonicalizeTargets e.threshold keys = .ok dl ∧
      dl.version = desc.version ∧ now < dl.expires ∧
      tuf.updateDelegation ring parentRole role x now =
        (.ok true, { tuf with delegations := tuf.delegations.insert role dl }) := by
  simp only [updateDelegation]
  rcases hr : tuf.safeRootRef now with e | root
  · exact .inl (.error e)
  rcases hs : tuf.safeSnapshotRef now with e | sn
  · exact .inl (.error e)
  rcases ht : tuf.safeTargetsRef now with e | tg
  · exact .inl (.error e)
  obtain ⟨hre, -⟩ := safeRootRef_eq_ok.1 hr
  obtain ⟨hss, hse⟩ := safeSnapshotRef_eq_ok.1 hs
  obtain ⟨hts, hte⟩ := safeTargetsRef_eq_ok.1 ht
  dsimp only
  by_cases h0 : tg.delegations.isNone = true
  · rw [if_pos h0]; exact .inl (.error _)
  rw [if_neg h0]
  rcases hd : sn.meta.lookup role with _ | desc
  · exact .inl (.error _)
  dsimp only
  by_cases h1 : desc.version < tuf.currentDelegationVersion role
  · rw [if_pos h1]; exact .inl (.error _)
  rw [if_neg h1]
  rcases hf : tuf.findDelegation parentRole role with _ | ⟨keys, e⟩
  · exact .inl (.error _)
  dsimp only
  rcases hv : x.verify ring tuf.interchange.canonicalizeTargets e.threshold keys with err | dl
  · exact .inl (.error err)
  dsimp only
  by_cases h2 : tuf.currentDelegationVersion role = desc.version
  · rw [if_pos h2]; exact .inl .unchanged
  rw [if_neg h2]
  by_cases h3 : dl.version ≠ desc.version
  · rw [if_pos h3]; exact .inl (.error _)
  rw [if_neg h3]
  by_cases h4 : dl.expires ≤ now
  · rw [if_pos h4]; exact .inl (.error _)
  rw [if_neg h4]
  exact .inr ⟨sn, tg, desc, keys, e, dl, hre, hss, hse, hts, hte,
    by simpa [Option.isSome_iff_ne_none] using h0, hd, by omega, rfl, hv, by simpa using h3,
    by omega, rfl⟩

@[simp] theorem updateTimestamp_root (ring : RingVerify) (tuf : Tuf)
    (x : SignedMetadata TimestampMetadata) (now : Int) :
    (tuf.updateTimestamp ring x now).2.root = tuf.root := by
  rcases updateTimestamp_cases ring tuf x now with hs | ⟨_, -, -, -, heq⟩
  · rw [hs.state_eq]
  · rw [heq]

@[simp] theorem updateSnapshot_root (ring : RingVerify) (tuf : Tuf)
    (x : SignedMetadata SnapshotMetadata) (now : Int) :
    (tuf.updateSnapshot ring x now).2.root = tuf.root := by
  rcases updateSnapshot_cases ring tuf x now with hs | ⟨_, _, -, -, -, -, -, -, heq⟩
  · rw [hs.state_eq]
  · rw [heq, purgeDelegations_root]

@[simp] theorem updateTargets_root (ring : RingVerify) (tuf : Tuf)
    (x : SignedMetadata TargetsMetadata) (now : Int) :
    (tuf.updateTargets ring x now).2.root = tuf.root := by
  rcases updateTargets_cases ring tuf x now with hs | ⟨_, _, _, -, -, -, -, -, -, -, -, heq⟩
  · rw [hs.state_eq]
  · rw [heq]

@[simp] theorem updateSnapshot_timestamp (ring : RingVerify) (tuf : Tuf)
    (x : SignedMetadata SnapshotMetadata) (now : Int) :
    (tuf.updateSnapshot ring x now).2.timestamp = tuf.timestamp := by
  rcases updateSnapshot_cases ring tuf x now with hs | ⟨_, _, -, -, -, -, -, -, heq⟩
  · rw [hs.state_eq]
  · rw [heq, purgeDelegations_timestamp]

@[simp] theorem updateTargets_timestamp (ring : RingVerify) (tuf : Tuf)
    (x : SignedMetadata TargetsMetadata) (now : Int) :
    (tuf.updateTargets ring x now).2.timestamp = tuf.timestamp := by
  rcases updateTargets_cases ring tuf x now with hs | ⟨_, _, _, -, -, -, -, -, -, -, -, heq⟩
  · rw [hs.state_eq]
  · rw [heq]

/-- `update_delegation` changes the delegations map and nothing else. -/
theorem updateDelegation_frame (ring : RingVerify) (tuf : Tuf) (parentRole role : MetadataPath)
    (x : SignedMetadata TargetsMetadata) (now : Int) :
    (tuf.updateDelegation ring parentRole role x now).2 =
      { tuf with
        delegations := (tuf.updateDelegation ring parentRole role x now).2.delegations } := by
  rcases updateDelegation_cases ring tuf parentRole role x now with hs | ⟨_, _, _, _, _, _, h⟩
  · rw [hs.state_eq]
  · rw [h.2.2.2.2.2.2.2.2.2.2.2.2]

end RustTuf.Tuf
