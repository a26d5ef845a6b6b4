import RustTuf.Lookup

/-!
# The delegation search terminates

`lookup` of `target_description` recurses through the held delegated metadata, whose delegation
entries may form cycles or list one role under several parents. What stops it is `visited`, one
list shared by the whole search: the loop makes a nested call only after entering into
`visited` a role whose metadata is held and that was not there (`lookupLoop_congr_nested`), so
each nested call has fewer held roles outside `visited` (`unvisitedHeld`) than its caller. Hence

* no chain of nested calls is infinite (`nestedCall_wf`);
* a call's depth is at most the number of held roles (`nestedCall_depth`);
* the fuel `target_description` gives never stops the search (`lookup_fuel_enough`);
* no role enters `visited` twice in a search (`lookup_nodup`), and a role's metadata is read
  only right after the role enters, so at most once.

`lookup_terminates` gathers the five.
-/

namespace RustTuf.Tuf

/-- The held delegated roles not in `visited`. -/
def unvisitedHeld (tuf : Tuf) (visited : List MetadataPath) : Nat :=
  tuf.delegations.entries.countP fun e => e.1 ∉ visited

/-- A call of `lookup` at depth `caller.1` with `visited = caller.2` makes a nested call at
depth `callee.1` with `visited = callee.2`: one deeper, after its loop has reached some
`v₀ ⊇ caller.2` and entered a role `r` that is held and not in `v₀`. -/
def NestedCall (tuf : Tuf) (caller callee : Nat × List MetadataPath) : Prop :=
  callee.1 = caller.1 + 1 ∧ ∃ r v₀, callee.2 = r :: v₀ ∧ caller.2 ⊆ v₀ ∧ r ∉ v₀ ∧
    (tuf.delegations.lookup r).isSome

theorem countP_lt_countP_of_mem {α : Type} {p q : α → Bool} {l : List α}
    (hpq : ∀ x ∈ l, p x → q x) {a : α} (ha : a ∈ l) (hq : q a) (hp : ¬ p a) :
    l.countP p < l.countP q := by
  induction l with
  | nil => cases ha
  | cons b l ih =>
    have hle := List.countP_mono_left fun x hx => hpq x (.tail b hx)
    simp only [List.countP_cons]
    rcases List.mem_cons.1 ha with rfl | ha
    · rw [if_pos hq, if_neg hp]; omega
    have := ih (fun x hx => hpq x (.tail b hx)) ha
    by_cases hpb : p b
    · rw [if_pos hpb, if_pos (hpq b (List.mem_cons_self b l) hpb)]; omega
    · rw [if_neg hpb]; split_ifs <;> omega

section Measure

variable {tuf : Tuf}

theorem unvisitedHeld_anti {v v' : List MetadataPath} (h : v ⊆ v') :
    unvisitedHeld tuf v' ≤ unvisitedHeld tuf v :=
  List.countP_mono_left fun _ _ hx => by
    simp only [decide_eq_true_eq] at hx ⊢
    exact fun hv => hx (h hv)

/-- Entering a held, unvisited role lowers the measure. -/
theorem unvisitedHeld_cons_lt {r : MetadataPath} {v : List MetadataPath} {m : TargetsMetadata}
    (hr : r ∉ v) (hm : tuf.delegations.lookup r = some m) :
    unvisitedHeld tuf (r :: v) < unvisitedHeld tuf v :=
  countP_lt_countP_of_mem (fun _ _ hx => by
      simp only [decide_eq_true_eq, List.mem_cons, not_or] at hx ⊢
      exact hx.2)
    (AList.mem_lookup_iff.1 hm) (by simpa using hr) (by simp)

theorem unvisitedHeld_le_length (v : List MetadataPath) :
    unvisitedHeld tuf v ≤ tuf.delegations.entries.length :=
  List.countP_le_length _

/-- A nested call has fewer held roles outside `visited` than its caller. -/
theorem NestedCall.unvisitedHeld_lt {p q : Nat × List MetadataPath} (h : NestedCall tuf p q) :
    unvisitedHeld tuf q.2 < unvisitedHeld tuf p.2 := by
  obtain ⟨-, r, v₀, hq, hsub, hr, hm⟩ := h
  obtain ⟨m, hm⟩ := Option.isSome_iff_exists.1 hm
  rw [hq]
  exact (unvisitedHeld_cons_lt hr hm).trans_le (unvisitedHeld_anti hsub)

/-- No chain of nested calls is infinite. -/
theorem nestedCall_wf : WellFounded (flip (NestedCall tuf)) :=
  Subrelation.wf (fun h => NestedCall.unvisitedHeld_lt h)
    (measure fun p : Nat × List MetadataPath => unvisitedHeld tuf p.2).wf

/-- Along nested calls from the first call of `target_description`, at depth 0 with nothing
visited, the depth and the held roles outside `visited` add up to at most the held roles. -/
theorem nestedCall_depth {p : Nat × List MetadataPath}
    (h : Relation.ReflTransGen (NestedCall tuf) (0, []) p) :
    p.1 + unvisitedHeld tuf p.2 ≤ tuf.delegations.entries.length := by
  induction h with
  | refl => simpa using unvisitedHeld_le_length []
  | tail _ hc ih =>
    have := hc.unvisitedHeld_lt
    rw [hc.1]
    omega

end Measure

section Loop

variable {matchesChain : VirtualTargetPath → List (List VirtualTargetPath) → Bool} {tuf : Tuf}
  {now : Int} {targetPath : VirtualTargetPath} {defaultTerminate : Bool} {currentDepth : Nat}
  {parents : List (List VirtualTargetPath)}
  {recur : Bool → Nat → Delegations → List (List VirtualTargetPath) → List MetadataPath →
    LookupResult}

/-- The loop at depth `currentDepth` from `visited` calls `recur` only where `NestedCall`
allows: two recursive calls that agree there give the same loop. -/
theorem lookupLoop_congr_nested {visited : List MetadataPath}
    {recur' : Bool → Nat → Delegations → List (List VirtualTargetPath) → List MetadataPath →
      LookupResult}
    (hmono : ∀ t n d ps v, v ⊆ (recur t n d ps v).2)
    (hrec : ∀ t d ps v', NestedCall tuf (currentDepth, visited) (currentDepth + 1, v') →
      recur t (currentDepth + 1) d ps v' = recur' t (currentDepth + 1) d ps v')
    (roles : List Delegation) :
    lookupLoop matchesChain tuf now targetPath defaultTerminate currentDepth parents recur roles
        visited =
      lookupLoop matchesChain tuf now targetPath defaultTerminate currentDepth parents recur' roles
        visited := by
  suffices ∀ v₀, visited ⊆ v₀ →
      lookupLoop matchesChain tuf now targetPath defaultTerminate currentDepth parents recur roles
        v₀ =
      lookupLoop matchesChain tuf now targetPath defaultTerminate currentDepth parents recur' roles
        v₀ from this visited (List.Subset.refl _)
  induction roles with
  | nil => exact fun _ _ => rfl
  | cons e rest ih =>
    intro v₀ hv₀
    simp only [lookupLoop]
    by_cases hv : e.role ∈ v₀
    · rw [if_pos hv, if_pos hv]
    rw [if_neg hv, if_neg hv]
    by_cases hc : (currentDepth > 0 && !matchesChain targetPath parents) = true
    · rw [if_pos hc, if_pos hc]
    rw [if_neg hc, if_neg hc]
    rcases hm : tuf.delegations.lookup e.role with _ | m
    · rfl
    have hcons := hv₀.trans (List.subset_cons_self e.role v₀)
    dsimp only
    by_cases hexp : m.expires ≤ now
    · rw [if_pos hexp, if_pos hexp]
    rw [if_neg hexp, if_neg hexp]
    rcases m.targets.lookup targetPath with _ | d
    swap
    · rfl
    dsimp only
    rcases m.delegations with _ | dels
    · exact ih _ hcons
    dsimp only
    rw [← hrec e.terminating dels (parents ++ [e.paths]) _
      ⟨rfl, e.role, v₀, rfl, hv₀, hv, by rw [hm]; rfl⟩]
    split
    · rfl
    split
    · rfl
    · exact ih _ (hcons.trans (hmono ..))

end Loop

section Fuel

variable {matchesChain : VirtualTargetPath → List (List VirtualTargetPath) → Bool} {tuf : Tuf}
  {now : Int} {targetPath : VirtualTargetPath}

/-- Two recursive calls that agree from every `visited` with fewer than `b` unvisited held
roles give the same loop from every `visited` with at most `b`. -/
theorem lookupLoop_congr {defaultTerminate : Bool} {currentDepth : Nat}
    {parents : List (List VirtualTargetPath)}
    {recur recur' : Bool → Nat → Delegations → List (List VirtualTargetPath) →
      List MetadataPath → LookupResult} {b : Nat}
    (hmono : ∀ t n d ps v, v ⊆ (recur t n d ps v).2)
    (hrec : ∀ t n d ps v, unvisitedHeld tuf v < b → recur t n d ps v = recur' t n d ps v)
    (roles : List Delegation) (visited : List MetadataPath) (hb : unvisitedHeld tuf visited ≤ b) :
    lookupLoop matchesChain tuf now targetPath defaultTerminate currentDepth parents recur roles
        visited =
      lookupLoop matchesChain tuf now targetPath defaultTerminate currentDepth parents recur' roles
        visited :=
  lookupLoop_congr_nested hmono
    (fun t d ps _ hn => hrec t _ d ps _ (hn.unvisitedHeld_lt.trans_le hb)) roles

/-- With more fuel than unvisited held roles, one more unit of fuel changes nothing. -/
theorem lookup_succ_fuel : ∀ (fuel : Nat) (t : Bool) (n : Nat) (dels : Delegations)
    (ps : List (List VirtualTargetPath)) (v : List MetadataPath), unvisitedHeld tuf v < fuel →
    lookup matchesChain tuf now targetPath (fuel + 1) t n dels ps v =
      lookup matchesChain tuf now targetPath fuel t n dels ps v
  | 0, _, _, _, _, _, h => absurd h (Nat.not_lt_zero _)
  | fuel + 1, _, _, dels, _, v, h =>
    (lookupLoop_congr (lookup_visited fuel)
      (fun t n d ps v hv => (lookup_succ_fuel fuel t n d ps v hv).symm) dels.roles v
      (Nat.le_of_lt_succ h)).symm

/-- `target_description` gives `lookup` enough fuel: any more gives the same search. -/
theorem lookup_fuel_enough {fuel : Nat} (h : tuf.delegations.entries.length < fuel) (t : Bool)
    (n : Nat) (dels : Delegations) (ps : List (List VirtualTargetPath)) :
    lookup matchesChain tuf now targetPath fuel t n dels ps [] =
      lookup matchesChain tuf now targetPath (tuf.delegations.entries.length + 1) t n dels ps
        [] := by
  induction fuel, h using Nat.le_induction with
  | base => rfl
  | succ k hk ih =>
    rw [lookup_succ_fuel k t n dels ps [] ((unvisitedHeld_le_length []).trans_lt hk), ih]

/-- No role enters `visited` twice. -/
theorem lookup_nodup (fuel : Nat) (t : Bool) (n : Nat) (dels : Delegations)
    (ps : List (List VirtualTargetPath)) {v : List MetadataPath} (h : v.Nodup) :
    (lookup matchesChain tuf now targetPath fuel t n dels ps v).2.Nodup :=
  (lookup_grows fuel t n dels ps v).2 h

end Fuel

/-- The delegation search of `target_description` terminates on every state, clock value and
path. The loop makes nested calls only where `NestedCall` allows; no chain of nested calls is
infinite, and along one from the first call the depth is at most the number of held roles; the
fuel `target_description` gives never stops the search; no role enters `visited` twice. -/
theorem lookup_terminates
    (matchesChain : VirtualTargetPath → List (List VirtualTargetPath) → Bool) (tuf : Tuf)
    (now : Int) (targetPath : VirtualTargetPath) (dels : Delegations) :
    (∀ (t : Bool) (n : Nat) (ps : List (List VirtualTargetPath)) (visited : List MetadataPath)
        (recur recur' : Bool → Nat → Delegations → List (List VirtualTargetPath) →
          List MetadataPath → LookupResult) (roles : List Delegation),
      (∀ t n d ps v, v ⊆ (recur t n d ps v).2) →
      (∀ t' d ps' v', NestedCall tuf (n, visited) (n + 1, v') →
        recur t' (n + 1) d ps' v' = recur' t' (n + 1) d ps' v') →
      lookupLoop matchesChain tuf now targetPath t n ps recur roles visited =
        lookupLoop matchesChain tuf now targetPath t n ps recur' roles visited) ∧
    WellFounded (flip (NestedCall tuf)) ∧
    (∀ n v, Relation.ReflTransGen (NestedCall tuf) (0, []) (n, v) →
      n ≤ tuf.delegations.entries.length) ∧
    (∀ fuel, tuf.delegations.entries.length < fuel →
      lookup matchesChain tuf now targetPath fuel false 0 dels [] [] =
        lookup matchesChain tuf now targetPath (tuf.delegations.entries.length + 1) false 0 dels
          [] []) ∧
    (lookup matchesChain tuf now targetPath (tuf.delegations.entries.length + 1) false 0 dels []
      []).2.Nodup :=
  ⟨fun _ _ _ _ _ _ roles hmono hrec => lookupLoop_congr_nested hmono hrec roles,
    nestedCall_wf,
    fun _ _ h => (Nat.le_add_right _ _).trans (nestedCall_depth h),
    fun _ h => lookup_fuel_enough h false 0 dels [],
    lookup_nodup _ false 0 dels [] List.nodup_nil⟩

/-- Targets delegating `"a"`; the metadata of `"a"` delegates `"b"`, whose metadata delegates
`"a"` back. -/
def cyclicEngine : Tuf :=
  sampleEngine.run sampleRing
    [.timestamp (signedBySample (timestampListing 1 1)) 0,
     .snapshot (signedBySample (snapshotListing 1 [("targets", 1), ("a", 1), ("b", 1)])) 0,
     .targets (signedBySample (targetsWith [] [delegate "a" ["bar"]])) 0,
     .delegation ⟨"targets"⟩ ⟨"a"⟩ (signedBySample (targetsWith [] [delegate "b" ["bar"]])) 0,
     .delegation ⟨"a"⟩ ⟨"b"⟩ (signedBySample (targetsWith [] [delegate "a" ["bar"]])) 0]

/-- The top-level delegations of `cyclicEngine`. -/
def cyclicDelegations : Delegations := ⟨[⟨⟨[1]⟩, sampleKey⟩].toAList, [delegate "a" ["bar"]]⟩

theorem lookup_terminates_cycle :
    Reachable sampleRing cyclicEngine ∧
      cyclicEngine.targets.bind (·.delegations) = some cyclicDelegations ∧
      lookup literalChain cyclicEngine 0 ⟨"bar"⟩ (cyclicEngine.delegations.entries.length + 1)
        false 0 cyclicDelegations [] [] = ((false, none), [⟨"b"⟩, ⟨"a"⟩]) ∧
      ∀ fuel, cyclicEngine.delegations.entries.length < fuel →
        lookup literalChain cyclicEngine 0 ⟨"bar"⟩ fuel false 0 cyclicDelegations [] [] =
          lookup literalChain cyclicEngine 0 ⟨"bar"⟩
            (cyclicEngine.delegations.entries.length + 1) false 0 cyclicDelegations [] [] :=
  ⟨reachable_sample.run _, rfl, rfl,
    (lookup_terminates literalChain cyclicEngine 0 ⟨"bar"⟩ cyclicDelegations).2.2.2.1⟩

end RustTuf.Tuf
