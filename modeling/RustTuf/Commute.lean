import RustTuf.Run

/-!
# Independent delegation updates commute

`update_delegation` reads the root, the snapshot and the targets, and of the delegations map
only the entry of the role it updates (`current_delegation_version`) and, through
`find_delegation`, the entry of the parent it looks the role up in; it writes only the entry
of its role. Two calls for different roles, neither the parent of the other, therefore
commute: each returns in either order what it returns alone, and the two orders end in engines
that hold the same metadata (`delegation_updates_commute`). A client may fetch sibling
delegations in any order.
-/

namespace RustTuf.Tuf

variable {ring : RingVerify} {tuf : Tuf} {M : HashMap MetadataPath TargetsMetadata}
  {p r : MetadataPath} {x : SignedMetadata TargetsMetadata} {now : Int}

/-! ## What `update_delegation` reads and writes -/

/-- `find_delegation` reads the delegations map only at the parent. -/
theorem findDelegation_congr (hp : M.lookup p = tuf.delegations.lookup p) :
    ({ tuf with delegations := M } : Tuf).findDelegation p r = tuf.findDelegation p r := by
  simp only [findDelegation, hp]

/-- `update_delegation` writes only the entry of its role. -/
theorem updateDelegation_lookup_ne {q : MetadataPath} (hq : q ≠ r) :
    (tuf.updateDelegation ring p r x now).2.delegations.lookup q = tuf.delegations.lookup q := by
  rcases updateDelegation_cases ring tuf p r x now with
    hs | ⟨_, _, _, _, _, _, -, -, -, -, -, -, -, -, -, -, -, -, heq⟩
  · rw [hs.state_eq]
  · rw [heq]
    exact AList.lookup_insert_ne hq

/-- What `update_delegation` returns depends on the delegations map only through the entries
of the role and of the parent. -/
theorem updateDelegation_congr_fst (ring : RingVerify) (x : SignedMetadata TargetsMetadata)
    (now : Int) (hr : M.lookup r = tuf.delegations.lookup r)
    (hp : M.lookup p = tuf.delegations.lookup p) :
    (({ tuf with delegations := M } : Tuf).updateDelegation ring p r x now).1 =
      (tuf.updateDelegation ring p r x now).1 := by
  have hcur : ({ tuf with delegations := M } : Tuf).currentDelegationVersion r =
      tuf.currentDelegationVersion r := by simp only [currentDelegationVersion, hr]
  have hroot : ({ tuf with delegations := M } : Tuf).safeRootRef now = tuf.safeRootRef now := rfl
  have hsn : ({ tuf with delegations := M } : Tuf).safeSnapshotRef now =
      tuf.safeSnapshotRef now := rfl
  have htg : ({ tuf with delegations := M } : Tuf).safeTargetsRef now =
      tuf.safeTargetsRef now := rfl
  simp only [updateDelegation, hcur, findDelegation_congr hp, hroot, hsn, htg]
  rcases tuf.safeRootRef now with _ | _ <;> rcases tuf.safeSnapshotRef now with _ | sn <;>
    rcases tuf.safeTargetsRef now with _ | tg <;> try rfl
  dsimp only
  by_cases h0 : tg.delegations.isNone = true
  · rw [if_pos h0, if_pos h0]
  rw [if_neg h0, if_neg h0]
  rcases sn.meta.lookup r with _ | desc
  · rfl
  dsimp only
  by_cases h1 : desc.version < tuf.currentDelegationVersion r
  · rw [if_pos h1, if_pos h1]
  rw [if_neg h1, if_neg h1]
  rcases tuf.findDelegation p r with _ | ⟨keys, e⟩
  · rfl
  dsimp only
  rcases x.verify ring tuf.interchange.canonicalizeTargets e.threshold keys with _ | dl
  · rfl
  dsimp only
  split_ifs <;> rfl

/-- On such a map the entry the call leaves for the role is the one it leaves on the engine's
own: the same document is installed, or none. -/
theorem updateDelegation_congr_lookup (hr : M.lookup r = tuf.delegations.lookup r)
    (hp : M.lookup p = tuf.delegations.lookup p)
    (hfst : (({ tuf with delegations := M } : Tuf).updateDelegation ring p r x now).1 =
      (tuf.updateDelegation ring p r x now).1) :
    (({ tuf with delegations := M } : Tuf).updateDelegation ring p r x now).2.delegations.lookup r =
      (tuf.updateDelegation ring p r x now).2.delegations.lookup r := by
  rcases updateDelegation_cases ring tuf p r x now with
    hs | ⟨_, _, _, keys, e, dl, -, -, -, -, -, -, -, -, hf, hv, -, -, heq⟩ <;>
  rcases updateDelegation_cases ring { tuf with delegations := M } p r x now with
    hs' | ⟨_, _, _, keys', e', dl', -, -, -, -, -, -, -, -, hf', hv', -, -, heq'⟩
  · rw [hs.state_eq, hs'.state_eq, hr]
  · exact absurd (hfst.symm.trans (by rw [heq'])) (hs.ne_ok (by decide))
  · exact absurd (hfst.trans (by rw [heq])) (hs'.ne_ok (by decide))
  · rw [heq, heq']
    rw [findDelegation_congr hp, hf, Option.some.injEq, Prod.mk.injEq] at hf'
    obtain ⟨rfl, rfl⟩ := hf'
    rw [hv, Except.ok.injEq] at hv'
    subst hv'
    simp only [AList.lookup_insert]

/-- On a map that agrees with the engine's at the role and at the parent, `update_delegation`
returns the same and ends with the entry of the role it ends with on the engine's own map, the
other entries as they were. -/
theorem updateDelegation_local (ring : RingVerify) (x : SignedMetadata TargetsMetadata)
    (now : Int) (hr : M.lookup r = tuf.delegations.lookup r)
    (hp : M.lookup p = tuf.delegations.lookup p) :
    (({ tuf with delegations := M } : Tuf).updateDelegation ring p r x now).1 =
      (tuf.updateDelegation ring p r x now).1 ∧
    ∀ q, AList.lookup q
        (({ tuf with delegations := M } : Tuf).updateDelegation ring p r x now).2.delegations =
      if q = r then (tuf.updateDelegation ring p r x now).2.delegations.lookup r
      else M.lookup q := by
  have hfst := updateDelegation_congr_fst ring x now hr hp
  refine ⟨hfst, fun q => ?_⟩
  by_cases hq : q = r
  · subst hq; rw [if_pos rfl]; exact updateDelegation_congr_lookup hr hp hfst
  · rw [if_neg hq]; exact updateDelegation_lookup_ne hq

/-! ## Two calls in either order -/

/-- `tuf` and `tuf'` hold the same metadata: the same root, snapshot, targets and timestamp,
and, for every role, the same delegated targets metadata. -/
structure HoldSame (tuf tuf' : Tuf) : Prop where
  root : tuf.root = tuf'.root
  snapshot : tuf.snapshot = tuf'.snapshot
  targets : tuf.targets = tuf'.targets
  timestamp : tuf.timestamp = tuf'.timestamp
  delegations : ∀ role, tuf.delegations.lookup role = tuf'.delegations.lookup role

/-- Two calls of `update_delegation` for different roles, neither the parent role of the other,
commute on every engine: each returns after the other what it returns first, and the two orders
end in engines that hold the same metadata. -/
theorem delegation_updates_commute (tuf : Tuf) (p₁ r₁ p₂ r₂ : MetadataPath)
    (x₁ x₂ : SignedMetadata TargetsMetadata) (now₁ now₂ : Int)
    (hr : r₁ ≠ r₂) (h₁ : p₁ ≠ r₂) (h₂ : p₂ ≠ r₁) :
    ((tuf.update ring (.delegation p₁ r₁ x₁ now₁)).2.update ring
        (.delegation p₂ r₂ x₂ now₂)).1 =
      (tuf.update ring (.delegation p₂ r₂ x₂ now₂)).1 ∧
      ((tuf.update ring (.delegation p₂ r₂ x₂ now₂)).2.update ring
        (.delegation p₁ r₁ x₁ now₁)).1 =
      (tuf.update ring (.delegation p₁ r₁ x₁ now₁)).1 ∧
      HoldSame (tuf.run ring [.delegation p₁ r₁ x₁ now₁, .delegation p₂ r₂ x₂ now₂])
        (tuf.run ring [.delegation p₂ r₂ x₂ now₂, .delegation p₁ r₁ x₁ now₁]) := by
  simp only [update, run_cons, run_nil]
  have hla : ∀ q, q ≠ r₁ →
      (tuf.updateDelegation ring p₁ r₁ x₁ now₁).2.delegations.lookup q =
        tuf.delegations.lookup q :=
    fun _ => updateDelegation_lookup_ne
  have hlc : ∀ q, q ≠ r₂ →
      (tuf.updateDelegation ring p₂ r₂ x₂ now₂).2.delegations.lookup q =
        tuf.delegations.lookup q :=
    fun _ => updateDelegation_lookup_ne
  rw [updateDelegation_frame ring tuf p₁ r₁ x₁ now₁,
    updateDelegation_frame ring tuf p₂ r₂ x₂ now₂]
  obtain ⟨hb, hb'⟩ := updateDelegation_local ring x₂ now₂ (hla _ hr.symm) (hla _ h₂)
  obtain ⟨hd, hd'⟩ := updateDelegation_local ring x₁ now₁ (hlc _ hr) (hlc _ h₁)
  generalize (tuf.updateDelegation ring p₁ r₁ x₁ now₁).2.delegations = Ma at *
  generalize (tuf.updateDelegation ring p₂ r₂ x₂ now₂).2.delegations = Mc at *
  have hfb := updateDelegation_frame ring { tuf with delegations := Ma } p₂ r₂ x₂ now₂
  have hfd := updateDelegation_frame ring { tuf with delegations := Mc } p₁ r₁ x₁ now₁
  refine ⟨hb, hd, by rw [hfb, hfd], by rw [hfb, hfd], by rw [hfb, hfd], by rw [hfb, hfd],
    fun q => ?_⟩
  rw [hb', hd']
  by_cases hq₂ : q = r₂
  · subst hq₂; rw [if_pos rfl, if_neg hr.symm]
  by_cases hq₁ : q = r₁
  · subst hq₁; rw [if_neg hr, if_pos rfl]
  rw [if_neg hq₂, if_neg hq₁, hla q hq₁, hlc q hq₂]

/-- An engine whose snapshot lists the roles `"a"` and `"b"`, which its targets delegate. -/
def siblingEngine : Tuf :=
  sampleEngine.run sampleRing
    [.timestamp (signedBySample (timestampListing 1 1)) 0,
     .snapshot (signedBySample (snapshotListing 1 [("targets", 1), ("a", 1), ("b", 1)])) 0,
     .targets (signedBySample (targetsWith [] [delegate "a" ["x"], delegate "b" ["y"]])) 0]

/-- The call installing version 1 of `role`, delegated by the top-level targets, holding
`path`. -/
def siblingUpdate (role path : String) : Update :=
  .delegation ⟨"targets"⟩ ⟨role⟩ (signedBySample (targetsWith [path] [])) 0

theorem delegation_updates_commute_siblings :
    (siblingEngine.update sampleRing (siblingUpdate "a" "x")).1 = .ok true ∧
      (siblingEngine.update sampleRing (siblingUpdate "b" "y")).1 = .ok true ∧
      HoldSame (siblingEngine.run sampleRing [siblingUpdate "a" "x", siblingUpdate "b" "y"])
        (siblingEngine.run sampleRing [siblingUpdate "b" "y", siblingUpdate "a" "x"]) :=
  ⟨rfl, rfl, (delegation_updates_commute siblingEngine _ _ _ _ _ _ _ _
    (by decide) (by decide) (by decide)).2.2⟩

end RustTuf.Tuf
