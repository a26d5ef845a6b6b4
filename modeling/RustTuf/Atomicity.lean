import RustTuf.Run

/-!
# Failed and repeated calls change nothing

`update_atomic`: a call that returns an error or its not-advanced result leaves the engine
exactly as it was, on every engine and for every input and clock value.

`update_replay`: repeating a call, with the same input and clock value, on the engine it
produced does not advance and changes nothing. Each update's no-op check reads the slot the
first call wrote: one replay lemma per method shows that the second call cannot pass it.

`update_result_iff_changed`: the result reports the change exactly. An advancing call installs
a document whose version exceeds the held version of its slot, so the engine after it differs.
-/

namespace RustTuf.Tuf

variable {ring : RingVerify} {tuf : Tuf}

/-- A call that fails or does not advance leaves root, timestamp, snapshot, targets and the
delegations map as they were. -/
theorem update_atomic (tuf : Tuf) (u : Update) (h : (tuf.update ring u).1 ≠ .ok true) :
    (tuf.update ring u).2 = tuf :=
  ((update_cases tuf u).resolve_right h).state_eq

theorem update_atomic_sample :
    (sampleEngine.update sampleRing (.snapshot (signedBySample ⟨1, 100, ∅⟩) 0)).1 ≠
        .ok true ∧
      (sampleEngine.update sampleRing (.snapshot (signedBySample ⟨1, 100, ∅⟩) 0)).2 =
        sampleEngine :=
  ⟨nofun, update_atomic _ _ nofun⟩

/-! ## Replays -/

theorem updateRoot_replay {x : SignedMetadata RootMetadata}
    (h : (tuf.updateRoot ring x).1 = .ok true) :
    Stays false (tuf.updateRoot ring x).2 ((tuf.updateRoot ring x).2.updateRoot ring x) := by
  rcases updateRoot_cases ring tuf x with hs | ⟨newRoot, -, -, hnew, heq⟩
  · exact absurd h (hs.ne_ok nofun)
  rw [heq]
  rcases updateRoot_cases ring (Tuf.ofRoot tuf.interchange newRoot) x with
    hs | ⟨r, hold, hlt, -, -⟩
  · exact hs
  · cases hnew.symm.trans hold
    exact absurd hlt (lt_irrefl _)

theorem updateTimestamp_replay {x : SignedMetadata TimestampMetadata} {now : Int}
    {t : TimestampMetadata} (h : (tuf.updateTimestamp ring x now).1 = .ok (some t)) :
    Stays none (tuf.updateTimestamp ring x now).2
      ((tuf.updateTimestamp ring x now).2.updateTimestamp ring x now) := by
  rcases updateTimestamp_cases ring tuf x now with
    hs | ⟨ts, hv, -, -, heq⟩
  · exact absurd h (hs.ne_ok nofun)
  rw [heq]
  rcases updateTimestamp_cases ring _ x now with hs | ⟨ts', hv', -, hlt, -⟩
  · exact hs
  · cases hv.symm.trans hv'
    simp [currentTimestampVersion] at hlt

theorem updateSnapshot_replay {x : SignedMetadata SnapshotMetadata} {now : Int}
    (h : (tuf.updateSnapshot ring x now).1 = .ok true) :
    Stays false (tuf.updateSnapshot ring x now).2
      ((tuf.updateSnapshot ring x now).2.updateSnapshot ring x now) := by
  rcases updateSnapshot_cases ring tuf x now with
    hs | ⟨ts, sn, -, hts, -, -, -, hver, heq⟩
  · exact absurd h (hs.ne_ok nofun)
  rw [heq]
  rcases updateSnapshot_cases ring _ x now with
    hs | ⟨ts', sn', -, hts', -, hlt, -⟩
  · exact hs
  · simp only [purgeDelegations_timestamp, hts, Option.some.injEq] at hts'
    subst hts'
    simp [currentSnapshotVersion, hver] at hlt

theorem updateTargets_replay {x : SignedMetadata TargetsMetadata} {now : Int}
    (h : (tuf.updateTargets ring x now).1 = .ok true) :
    Stays false (tuf.updateTargets ring x now).2
      ((tuf.updateTargets ring x now).2.updateTargets ring x now) := by
  rcases updateTargets_cases ring tuf x now with
    hs | ⟨sn, desc, tg, -, hss, -, hd, -, -, hver, -, heq⟩
  · exact absurd h (hs.ne_ok nofun)
  rw [heq]
  rcases updateTargets_cases ring _ x now with
    hs | ⟨sn', desc', tg', -, hss', -, hd', hlt, -⟩
  · exact hs
  · simp only [hss, Option.some.injEq] at hss'
    subst hss'
    simp only [hd, Option.some.injEq] at hd'
    subst hd'
    simp [currentTargetsVersion, hver] at hlt

theorem updateDelegation_replay {parentRole role : MetadataPath}
    {x : SignedMetadata TargetsMetadata} {now : Int}
    (h : (tuf.updateDelegation ring parentRole role x now).1 = .ok true) :
    Stays false (tuf.updateDelegation ring parentRole role x now).2
      ((tuf.updateDelegation ring parentRole role x now).2.updateDelegation ring parentRole role
        x now) := by
  rcases updateDelegation_cases ring tuf parentRole role x now with
    hs | ⟨sn, -, desc, -, -, dl, -, hss, -, -, -, -, hd, -, -, -, hver, -, heq⟩
  · exact absurd h (hs.ne_ok nofun)
  rw [heq]
  rcases updateDelegation_cases ring _ parentRole role x now with
    hs | ⟨sn', -, desc', -, -, -, -, hss', -, -, -, -, hd', hlt, -⟩
  · exact hs
  · simp only [hss, Option.some.injEq] at hss'
    subst hss'
    simp only [hd, Option.some.injEq] at hd'
    subst hd'
    simp [currentDelegationVersion, hver] at hlt

/-- A call that advanced cannot advance again on the engine it produced. -/
theorem update_replay_stays (u : Update) (h : (tuf.update ring u).1 = .ok true) :
    Stays false (tuf.update ring u).2 ((tuf.update ring u).2.update ring u) := by
  cases u with
  | root x => exact updateRoot_replay h
  | timestamp x now =>
    obtain ⟨t, ht⟩ : ∃ t, (tuf.updateTimestamp ring x now).1 = .ok (some t) := by
      rcases updateTimestamp_cases ring tuf x now with hs | ⟨ts, -, -, -, heq⟩
      · exact absurd h ((stays_timestamp hs).ne_ok nofun)
      · exact ⟨ts, by rw [heq]⟩
    exact stays_timestamp (updateTimestamp_replay ht)
  | snapshot x now => exact updateSnapshot_replay h
  | targets x now => exact updateTargets_replay h
  | delegation p r x now => exact updateDelegation_replay h

/-- Replaying a call, with the same input and clock value, on the engine it produced returns a
result that is not an advance and leaves that engine unchanged. -/
theorem update_replay (tuf : Tuf) (u : Update) :
    ((tuf.update ring u).2.update ring u).1 ≠ .ok true ∧
      ((tuf.update ring u).2.update ring u).2 = (tuf.update ring u).2 := by
  rcases update_cases tuf u with hs | h
  · rw [hs.state_eq]
    exact ⟨hs.ne_ok nofun, hs.state_eq⟩
  · have hs := update_replay_stays u h
    exact ⟨hs.ne_ok nofun, hs.state_eq⟩

/-! ## The result reports the change -/

/-- A held document is not one whose version exceeds the held version of its slot. -/
theorem some_ne_of_held_lt {M : Type} (version : M → Nat) {held : Option M} {m : M}
    (h : (held.map version).getD 0 < version m) : some m ≠ held := by
  rintro rfl
  exact lt_irrefl _ h

/-- A call that advances changes the engine. -/
theorem update_changes (tuf : Tuf) (u : Update) (h : (tuf.update ring u).1 = .ok true) :
    (tuf.update ring u).2 ≠ tuf := by
  cases u with
  | root x =>
    rcases updateRoot_cases ring tuf x with hs | ⟨newRoot, -, hlt, -, heq⟩
    · exact absurd h (hs.ne_ok (by decide))
    · show (tuf.updateRoot ring x).2 ≠ tuf
      rw [heq]
      exact fun he => hlt.ne' (congrArg (·.root.version) he)
  | timestamp x now =>
    rcases updateTimestamp_cases ring tuf x now with hs | ⟨ts, -, -, hlt, heq⟩
    · exact absurd h ((stays_timestamp hs).ne_ok (by decide))
    · show (tuf.updateTimestamp ring x now).2 ≠ tuf
      rw [heq]
      exact fun he => some_ne_of_held_lt _ hlt (congrArg Tuf.timestamp he)
  | snapshot x now =>
    rcases updateSnapshot_cases ring tuf x now with hs | ⟨ts, sn, -, -, -, hlt, -, hver, heq⟩
    · exact absurd h (hs.ne_ok (by decide))
    · show (tuf.updateSnapshot ring x now).2 ≠ tuf
      rw [heq]
      exact fun he => some_ne_of_held_lt SnapshotMetadata.version (hver ▸ hlt)
        (by rw [← he, purgeDelegations_snapshot])
  | targets x now =>
    rcases updateTargets_cases ring tuf x now with
      hs | ⟨_, _, tg, -, -, -, -, hlt, -, hver, -, heq⟩
    · exact absurd h (hs.ne_ok (by decide))
    · show (tuf.updateTargets ring x now).2 ≠ tuf
      rw [heq]
      exact fun he => some_ne_of_held_lt TargetsMetadata.version (hver ▸ hlt)
        (congrArg Tuf.targets he)
  | delegation p r x now =>
    rcases updateDelegation_cases ring tuf p r x now with
      hs | ⟨_, _, _, _, _, dl, -, -, -, -, -, -, -, hlt, -, -, hver, -, heq⟩
    · exact absurd h (hs.ne_ok (by decide))
    · show (tuf.updateDelegation ring p r x now).2 ≠ tuf
      rw [heq]
      exact fun he => some_ne_of_held_lt TargetsMetadata.version (hver ▸ hlt)
        ((AList.lookup_insert tuf.delegations).symm.trans
          (congrArg (fun t : Tuf => t.delegations.lookup r) he))

/-- Every call returns `Ok(true)` (`Ok(Some(_))` for the timestamp) exactly when it changes
the engine: a caller can tell from the result alone whether there is new trusted metadata. -/
theorem update_result_iff_changed (tuf : Tuf) (u : Update) :
    (tuf.update ring u).1 = .ok true ↔ (tuf.update ring u).2 ≠ tuf :=
  ⟨update_changes tuf u, fun hne => (update_cases tuf u).resolve_left fun hs => hne hs.state_eq⟩

end RustTuf.Tuf
