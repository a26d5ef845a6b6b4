import RustTuf.Run

/-!
# Target lookup through delegations

`target_description` answers from the top-level targets, or by the recursive `lookup` of
`tuf.rs` through the delegation graph. `VirtualTargetPath::matches_chain` is in
`metadata.rs`, outside the sources: it is the parameter `matchesChain`, so every result here
holds whatever pattern semantics it has.

`lookup` is recursive through the held delegated metadata, which may form cycles; the code
stops because a role enters `visited` before its metadata is descended into. The model counts
the descents with `fuel`, and `target_description` gives one more than the number of held
roles, which no search exhausts (`RustTuf.Termination`).

`targetDescription_sound`: an answer comes from fresh root, snapshot and targets, and, when
not from the top-level targets, from the held, fresh metadata at the end of a chain of
delegation entries with pairwise distinct roles, each listed by the metadata of the one
before.

The search reads the engine only through its root, snapshot, targets and delegations map: the
held timestamp, fresh, expired or absent, never changes an answer (`targetDescription_timestamp`).

The spec's glossary and section 4.5 describe a pre-order search over the delegation graph: a
delegation whose role was already visited, whose metadata is not held or has expired, or
whose metadata and sub-delegations do not supply the path, is a miss; a miss at a terminating
delegation ends the whole search, a miss at a non-terminating one moves on to the next sibling.
`referenceDescription` is that search, written from the spec's words to be compared with
`targetDescription`, which is written from the code. They differ: `lookup` returns from the
whole delegation list at the first entry whose role was visited, whose metadata is missing or
expired, or whose patterns fail, with that entry's terminating flag, so a non-terminating miss
of that kind skips the entry's later siblings (`targetDescription_skips_siblings`).
-/

namespace RustTuf.Tuf

variable (matchesChain : VirtualTargetPath → List (List VirtualTargetPath) → Bool)

/-- What `lookup` returns, with its `visited` set after the call. -/
abbrev LookupResult := (Bool × Option TargetDescription) × List MetadataPath

/-- The `for` loop of `lookup` over the delegation entries `roles`; `recur` is the recursive
call of `lookup`. -/
def lookupLoop (tuf : Tuf) (now : Int) (targetPath : VirtualTargetPath)
    (defaultTerminate : Bool) (currentDepth : Nat) (parents : List (List VirtualTargetPath))
    (recur : Bool → Nat → Delegations → List (List VirtualTargetPath) → List MetadataPath →
      LookupResult) :
    List Delegation → List MetadataPath → LookupResult
  | [], visited => ((defaultTerminate, none), visited)
  | delegation :: rest, visited =>
    if delegation.role ∈ visited then ((delegation.terminating, none), visited) else
    let visited := delegation.role :: visited
    if currentDepth > 0 && !matchesChain targetPath parents then
      ((delegation.terminating, none), visited) else
    match tuf.delegations.lookup delegation.role with
    | none => ((delegation.terminating, none), visited)
    | some targets =>
      if targets.expires ≤ now then ((delegation.terminating, none), visited) else
      match targets.targets.lookup targetPath with
      | some d => ((delegation.terminating, some d), visited)
      | none =>
        match targets.delegations with
        | some d =>
          match recur delegation.terminating (currentDepth + 1) d (parents ++ [delegation.paths])
            visited with
          | ((term, res), visited) =>
            if term then ((true, res), visited)
            else if res.isSome then ((term, res), visited)
            else lookupLoop tuf now targetPath defaultTerminate currentDepth parents recur rest
              visited
        | none =>
          lookupLoop tuf now targetPath defaultTerminate currentDepth parents recur rest visited

/-- `lookup` of `target_description`, with at most `fuel` nested descents. -/
def lookup (tuf : Tuf) (now : Int) (targetPath : VirtualTargetPath) :
    Nat → Bool → Nat → Delegations → List (List VirtualTargetPath) → List MetadataPath →
      LookupResult
  | 0, defaultTerminate, _, _, _, visited => ((defaultTerminate, none), visited)
  | fuel + 1, defaultTerminate, currentDepth, delegations, parents, visited =>
    lookupLoop matchesChain tuf now targetPath defaultTerminate currentDepth parents
      (lookup tuf now targetPath fuel) delegations.roles visited

/-- Get the description needed to verify the target `targetPath`, or an error if the trusted
metadata does not define it. -/
def targetDescription (tuf : Tuf) (now : Int) (targetPath : VirtualTargetPath) :
    Except Error TargetDescription :=
  match tuf.safeRootRef now, tuf.safeSnapshotRef now, tuf.safeTargetsRef now with
  | .error e, _, _ => .error e
  | .ok _, .error e, _ => .error e
  | .ok _, .ok _, .error e => .error e
  | .ok _, .ok _, .ok targets =>
    match targets.targets.lookup targetPath with
    | some d => .ok d
    | none =>
      match targets.delegations with
      | some d =>
        match (lookup matchesChain tuf now targetPath (tuf.delegations.entries.length + 1) false 0
            d [] []).1.2 with
        | some desc => .ok desc
        | none => .error .targetUnavailable
      | none => .error .targetUnavailable

/-! ## Chains of delegations -/

/-- `Reaches tuf roles chain m`: the delegation entries `chain` lead from the list `roles` to
`m`, the held metadata of the last entry's role; each entry after the first is listed in the
delegations of the held metadata of the entry before it. -/
inductive Reaches (tuf : Tuf) : List Delegation → List Delegation → TargetsMetadata → Prop
  | last {roles : List Delegation} {e : Delegation} {m : TargetsMetadata} :
      e ∈ roles → tuf.delegations.lookup e.role = some m → Reaches tuf roles [e] m
  | cons {roles : List Delegation} {e : Delegation} {m : TargetsMetadata} {dels : Delegations}
      {chain : List Delegation} {m' : TargetsMetadata} :
      e ∈ roles → tuf.delegations.lookup e.role = some m → m.delegations = some dels →
      Reaches tuf dels.roles chain m' → Reaches tuf roles (e :: chain) m'

theorem Reaches.cons_roles {tuf : Tuf} {roles chain : List Delegation} {m : TargetsMetadata}
    (e : Delegation) (h : Reaches tuf roles chain m) : Reaches tuf (e :: roles) chain m := by
  cases h with
  | last he hm => exact .last (List.mem_cons_of_mem e he) hm
  | cons he hm hd hr => exact .cons (List.mem_cons_of_mem e he) hm hd hr

/-- `lookup` answered `d` from `roles` avoiding the roles in `visited`: through a chain of
entries with pairwise distinct roles, none in `visited`, whose held metadata is fresh, ending
at held metadata that lists `d` for the path. -/
def Found (tuf : Tuf) (now : Int) (targetPath : VirtualTargetPath) (roles : List Delegation)
    (visited : List MetadataPath) (d : TargetDescription) : Prop :=
  ∃ chain m, Reaches tuf roles chain m ∧ (chain.map (·.role)).Nodup ∧
    (∀ e ∈ chain, e.role ∉ visited) ∧
    (∀ e ∈ chain, ∃ m', tuf.delegations.lookup e.role = some m' ∧ now < m'.expires) ∧
    m.targets.lookup targetPath = some d

section Sound

variable {matchesChain} {tuf : Tuf} {now : Int} {targetPath : VirtualTargetPath}

namespace Found

variable {roles : List Delegation} {visited : List MetadataPath} {d : TargetDescription}

theorem cons_roles (e : Delegation) (h : Found tuf now targetPath roles visited d) :
    Found tuf now targetPath (e :: roles) visited d :=
  let ⟨chain, m, hr, hn, hv, hf, hd⟩ := h
  ⟨chain, m, hr.cons_roles e, hn, hv, hf, hd⟩

theorem of_subset {visited' : List MetadataPath} (h : Found tuf now targetPath roles visited' d)
    (hsub : visited ⊆ visited') : Found tuf now targetPath roles visited d :=
  let ⟨chain, m, hr, hn, hv, hf, hd⟩ := h
  ⟨chain, m, hr, hn, fun e he hin => hv e he (hsub hin), hf, hd⟩

/-- The held metadata of an unvisited entry lists the path. -/
theorem here {e : Delegation} {m : TargetsMetadata} (he : e ∈ roles) (hv : e.role ∉ visited)
    (hm : tuf.delegations.lookup e.role = some m) (hexp : now < m.expires)
    (hd : m.targets.lookup targetPath = some d) : Found tuf now targetPath roles visited d :=
  ⟨[e], m, .last he hm, List.nodup_singleton _, by simpa using hv,
    by simpa using ⟨m, hm, hexp⟩, hd⟩

/-- The delegations of the held metadata of an unvisited entry supply the path, avoiding the
entry's role. -/
theorem descend {e : Delegation} {m : TargetsMetadata} {dels : Delegations} (he : e ∈ roles)
    (hv : e.role ∉ visited) (hm : tuf.delegations.lookup e.role = some m)
    (hexp : now < m.expires) (hdels : m.delegations = some dels)
    (h : Found tuf now targetPath dels.roles (e.role :: visited) d) :
    Found tuf now targetPath roles visited d := by
  obtain ⟨chain, m', hr, hn, hvis, hf, hd⟩ := h
  refine ⟨e :: chain, m', .cons he hm hdels hr, ?_, ?_, ?_, hd⟩
  · exact List.nodup_cons.2 ⟨fun hin => by
      obtain ⟨e', he', hrole⟩ := List.mem_map.1 hin
      exact hvis e' he' (hrole ▸ List.mem_cons_self _ _), hn⟩
  · simpa using ⟨hv, fun e' he' hin => hvis e' he' (List.mem_cons_of_mem _ hin)⟩
  · simpa using ⟨⟨m, hm, hexp⟩, hf⟩

end Found

variable {recur : Bool → Nat → Delegations → List (List VirtualTargetPath) → List MetadataPath →
  LookupResult} {defaultTerminate : Bool} {currentDepth : Nat}
  {parents : List (List VirtualTargetPath)}

/-- `visited` grows from `v` to `v'` by adding roles: it loses none, and if it held none twice
it still holds none twice. -/
def Grows (v v' : List MetadataPath) : Prop := v ⊆ v' ∧ (v.Nodup → v'.Nodup)

theorem Grows.refl (v : List MetadataPath) : Grows v v := ⟨List.Subset.refl v, id⟩

theorem Grows.trans {u v w : List MetadataPath} (h : Grows u v) (h' : Grows v w) : Grows u w :=
  ⟨h.1.trans h'.1, h'.2 ∘ h.2⟩

theorem Grows.cons {r : MetadataPath} {v : List MetadataPath} (h : r ∉ v) : Grows v (r :: v) :=
  ⟨List.subset_cons_self r v, fun hv => List.nodup_cons.2 ⟨h, hv⟩⟩

/-- The loop only enters roles that were not in `visited`. -/
theorem lookupLoop_grows (hrec : ∀ t n d ps v, Grows v (recur t n d ps v).2)
    (roles : List Delegation) (visited : List MetadataPath) :
    Grows visited (lookupLoop matchesChain tuf now targetPath defaultTerminate currentDepth
      parents recur roles visited).2 := by
  induction roles generalizing visited with
  | nil => exact .refl _
  | cons e rest ih =>
    simp only [lookupLoop]
    by_cases hv : e.role ∈ visited
    · rw [if_pos hv]; exact .refl _
    rw [if_neg hv]
    have hcons : Grows visited (e.role :: visited) := .cons hv
    by_cases hc : (currentDepth > 0 && !matchesChain targetPath parents) = true
    · rw [if_pos hc]; exact hcons
    rw [if_neg hc]
    rcases tuf.delegations.lookup e.role with _ | m
    · exact hcons
    dsimp only
    by_cases hexp : m.expires ≤ now
    · rw [if_pos hexp]; exact hcons
    rw [if_neg hexp]
    rcases m.targets.lookup targetPath with _ | d
    swap
    · exact hcons
    dsimp only
    rcases m.delegations with _ | dels
    · exact hcons.trans (ih _)
    have hr := hcons.trans (hrec e.terminating (currentDepth + 1) dels (parents ++ [e.paths]) _)
    dsimp only
    split
    · exact hr
    split
    · exact hr
    · exact hr.trans (ih _)

/-- What the loop answers was found along the entries, avoiding `visited`. -/
theorem lookupLoop_sound (hmono : ∀ t n d ps v, v ⊆ (recur t n d ps v).2)
    (hrec : ∀ t n d ps v desc, (recur t n d ps v).1.2 = some desc →
      Found tuf now targetPath d.roles v desc)
    (roles : List Delegation) (visited : List MetadataPath) {desc : TargetDescription}
    (h : (lookupLoop matchesChain tuf now targetPath defaultTerminate currentDepth parents recur
      roles visited).1.2 = some desc) :
    Found tuf now targetPath roles visited desc := by
  induction roles generalizing visited with
  | nil => cases h
  | cons e rest ih =>
    revert h
    simp only [lookupLoop]
    have he := List.mem_cons_self e rest
    by_cases hv : e.role ∈ visited
    · rw [if_pos hv]; nofun
    rw [if_neg hv]
    by_cases hc : (currentDepth > 0 && !matchesChain targetPath parents) = true
    · rw [if_pos hc]; nofun
    rw [if_neg hc]
    rcases hm : tuf.delegations.lookup e.role with _ | m
    · nofun
    dsimp only
    by_cases hexp : m.expires ≤ now
    · rw [if_pos hexp]; nofun
    rw [if_neg hexp]
    have hexp : now < m.expires := by omega
    rcases hd : m.targets.lookup targetPath with _ | d
    swap
    · rintro ⟨⟩
      exact .here he hv hm hexp hd
    dsimp only
    rcases hdels : m.delegations with _ | dels
    · exact fun h => ((ih _ h).of_subset (List.subset_cons_self _ _)).cons_roles e
    have hsub := (List.subset_cons_self e.role visited).trans
      (hmono e.terminating (currentDepth + 1) dels (parents ++ [e.paths]) _)
    have hfound := fun hres => Found.descend he hv hm hexp hdels
      (hrec e.terminating (currentDepth + 1) dels (parents ++ [e.paths]) _ desc hres)
    dsimp only
    split
    · exact hfound
    split
    · exact hfound
    · exact fun h => ((ih _ h).of_subset hsub).cons_roles e

/-- A search only enters roles that were not in `visited`. -/
theorem lookup_grows : ∀ (fuel : Nat) (t : Bool) (n : Nat) (dels : Delegations)
    (ps : List (List VirtualTargetPath)) (v : List MetadataPath),
    Grows v (lookup matchesChain tuf now targetPath fuel t n dels ps v).2
  | 0, _, _, _, _, _ => .refl _
  | fuel + 1, _, _, dels, _, _ => lookupLoop_grows (lookup_grows fuel) dels.roles _

theorem lookup_visited (fuel : Nat) (t : Bool) (n : Nat) (dels : Delegations)
    (ps : List (List VirtualTargetPath)) (v : List MetadataPath) :
    v ⊆ (lookup matchesChain tuf now targetPath fuel t n dels ps v).2 :=
  (lookup_grows fuel t n dels ps v).1

theorem lookup_sound : ∀ (fuel : Nat) (t : Bool) (n : Nat) (dels : Delegations)
    (ps : List (List VirtualTargetPath)) (v : List MetadataPath) (desc : TargetDescription),
    (lookup matchesChain tuf now targetPath fuel t n dels ps v).1.2 = some desc →
      Found tuf now targetPath dels.roles v desc
  | 0, _, _, _, _, _, _, h => by cases h
  | fuel + 1, _, _, dels, _, _, _, h =>
    lookupLoop_sound (lookup_visited fuel) (lookup_sound fuel) dels.roles _ h

/-- An answer of `target_description` comes from fresh root, snapshot and top-level targets,
and either from the top-level targets or from the fresh, held metadata at the end of a chain of
delegation entries with pairwise distinct roles that starts in the top-level delegations, each
entry listed by the held metadata of the one before. -/
theorem targetDescription_sound {d : TargetDescription}
    (h : tuf.targetDescription matchesChain now targetPath = .ok d) :
    now < tuf.root.expires ∧ (∃ sn, tuf.snapshot = some sn ∧ now < sn.expires) ∧
    ∃ tg, tuf.targets = some tg ∧ now < tg.expires ∧
      (tg.targets.lookup targetPath = some d ∨
        ∃ dels chain m, tg.delegations = some dels ∧ Reaches tuf dels.roles chain m ∧
          (chain.map (·.role)).Nodup ∧
          (∀ e ∈ chain, ∃ m', tuf.delegations.lookup e.role = some m' ∧ now < m'.expires) ∧
          m.targets.lookup targetPath = some d) := by
  simp only [targetDescription] at h
  split at h
  · cases h
  · cases h
  · cases h
  rename_i root sn tg hr hs ht
  obtain ⟨hre, -⟩ := safeRootRef_eq_ok.1 hr
  obtain ⟨hss, hse⟩ := safeSnapshotRef_eq_ok.1 hs
  obtain ⟨hts, hte⟩ := safeTargetsRef_eq_ok.1 ht
  refine ⟨hre, ⟨sn, hss, hse⟩, tg, hts, hte, ?_⟩
  split at h
  · cases h
    exact .inl ‹_›
  split at h
  · rename_i dels hdels
    split at h
    · cases h
      obtain ⟨chain, m, hreach, hn, -, hf, hd⟩ := lookup_sound _ _ _ _ _ _ _ ‹_›
      exact .inr ⟨dels, chain, m, hdels, hreach, hn, hf, hd⟩
    · cases h
  · cases h

end Sound

/-! ## What the search reads -/

section Reads

variable {tuf tuf' : Tuf} {now : Int} {targetPath : VirtualTargetPath}

/-- The loop reads the engine only through its delegations map. -/
theorem lookupLoop_delegations_congr (h : tuf'.delegations = tuf.delegations)
    (defaultTerminate : Bool) (currentDepth : Nat) (parents : List (List VirtualTargetPath))
    (recur : Bool → Nat → Delegations → List (List VirtualTargetPath) →
      List MetadataPath → LookupResult) :
    ∀ roles visited, lookupLoop matchesChain tuf' now targetPath defaultTerminate currentDepth
        parents recur roles visited =
      lookupLoop matchesChain tuf now targetPath defaultTerminate currentDepth parents recur
        roles visited
  | [], _ => rfl
  | e :: rest, visited => by
    simp only [lookupLoop, h, lookupLoop_delegations_congr h defaultTerminate currentDepth parents
      recur rest]

theorem lookup_delegations_congr (h : tuf'.delegations = tuf.delegations) :
    ∀ fuel t n dels ps visited, lookup matchesChain tuf' now targetPath fuel t n dels ps visited =
      lookup matchesChain tuf now targetPath fuel t n dels ps visited
  | 0, _, _, _, _, _ => rfl
  | fuel + 1, t, n, dels, ps, visited => by
    have hrec : lookup matchesChain tuf' now targetPath fuel =
        lookup matchesChain tuf now targetPath fuel := by
      funext t n dels ps visited
      exact lookup_delegations_congr h fuel t n dels ps visited
    simp only [lookup, hrec, lookupLoop_delegations_congr matchesChain h]

/-- `target_description` never reads the held timestamp: whatever timestamp the engine holds,
expired or none, every query has the same answer. -/
theorem targetDescription_timestamp (tuf : Tuf) (ts : Option TimestampMetadata) (now : Int)
    (targetPath : VirtualTargetPath) :
    ({ tuf with timestamp := ts } : Tuf).targetDescription matchesChain now targetPath =
      tuf.targetDescription matchesChain now targetPath := by
  simp only [targetDescription, lookup_delegations_congr matchesChain
    (show ({ tuf with timestamp := ts } : Tuf).delegations = tuf.delegations from rfl)]
  rfl

end Reads

/-! ## The search order the spec describes -/

/-- How the search of one delegation list ended. -/
inductive SearchOutcome where
  | found (d : TargetDescription)
  | stop
  | miss

/-- The reference search over the entries `roles`; `recur` searches a sub-delegation list. -/
def referenceLoop (tuf : Tuf) (now : Int) (targetPath : VirtualTargetPath)
    (recur : Delegations → List MetadataPath → SearchOutcome × List MetadataPath) :
    List Delegation → List MetadataPath → SearchOutcome × List MetadataPath
  | [], visited => (.miss, visited)
  | e :: rest, visited =>
    let here : SearchOutcome × List MetadataPath :=
      if e.role ∈ visited then (.miss, visited) else
      let visited := e.role :: visited
      match tuf.delegations.lookup e.role with
      | none => (.miss, visited)
      | some m =>
        if m.expires ≤ now then (.miss, visited) else
        match m.targets.lookup targetPath with
        | some d => (.found d, visited)
        | none =>
          match m.delegations with
          | some dels => recur dels visited
          | none => (.miss, visited)
    match here with
    | (.found d, visited) => (.found d, visited)
    | (.stop, visited) => (.stop, visited)
    | (.miss, visited) =>
      if e.terminating then (.stop, visited)
      else referenceLoop tuf now targetPath recur rest visited

/-- The reference search, with at most `fuel` nested descents. -/
def referenceLookup (tuf : Tuf) (now : Int) (targetPath : VirtualTargetPath) :
    Nat → Delegations → List MetadataPath → SearchOutcome × List MetadataPath
  | 0, _, visited => (.miss, visited)
  | fuel + 1, dels, visited =>
    referenceLoop tuf now targetPath (referenceLookup tuf now targetPath fuel) dels.roles visited

/-- `target_description` as the spec's search order describes it: the same gates and the same
top-level answer, then the reference search through the delegations. -/
def referenceDescription (tuf : Tuf) (now : Int) (targetPath : VirtualTargetPath) :
    Except Error TargetDescription :=
  match tuf.safeRootRef now, tuf.safeSnapshotRef now, tuf.safeTargetsRef now with
  | .error e, _, _ => .error e
  | .ok _, .error e, _ => .error e
  | .ok _, .ok _, .error e => .error e
  | .ok _, .ok _, .ok targets =>
    match targets.targets.lookup targetPath with
    | some d => .ok d
    | none =>
      match targets.delegations with
      | some dels =>
        match (referenceLookup tuf now targetPath (tuf.delegations.entries.length + 1) dels
            []).1 with
        | .found d => .ok d
        | _ => .error .targetUnavailable
      | none => .error .targetUnavailable

/-! ## Sample delegations -/

/-- Modelled from the spec: `VirtualTargetPath::matches_chain` when every pattern is a literal
path, so that a level admits exactly the paths it lists: the chain is non-empty and each of
its levels lists the path. -/
def literalChain (targetPath : VirtualTargetPath) (parents : List (List VirtualTargetPath)) :
    Bool :=
  !parents.isEmpty && parents.all (·.contains targetPath)

/-- Root, timestamp, snapshot and targets delegating `"a"` for the pattern `"foo"`, then the
metadata of `"a"`, listing `"bar"`. -/
def outsideEngine : Tuf :=
  sampleEngine.run sampleRing
    [.timestamp (signedBySample (timestampListing 1 1)) 0,
     .snapshot (signedBySample (snapshotListing 1 [("targets", 1), ("a", 1)])) 0,
     .targets (signedBySample (targetsWith [] [delegate "a" ["foo"]])) 0,
     .delegation ⟨"targets"⟩ ⟨"a"⟩ (signedBySample (targetsWith ["bar"] [])) 0]

theorem outsideEngine_answer :
    outsideEngine.targetDescription literalChain 0 ⟨"bar"⟩ = .ok sampleDesc := rfl

theorem targetDescription_sound_sample :
    outsideEngine.targetDescription literalChain 0 ⟨"bar"⟩ = .ok sampleDesc ∧
      0 < outsideEngine.root.expires :=
  ⟨outsideEngine_answer, (targetDescription_sound outsideEngine_answer).1⟩

/-- The role `"a"`, delegated by the top-level targets for the pattern `"foo"` alone, supplies
the path `"bar"`: `lookup` checks `matches_chain` against the patterns of the entries above a
delegation and never against the delegation's own, and not at all at depth 0. -/
theorem targetDescription_outside_paths :
    Reachable sampleRing outsideEngine ∧
      outsideEngine.targetDescription literalChain 0 ⟨"bar"⟩ = .ok sampleDesc ∧
      ¬ ∃ chain m, Reaches outsideEngine [delegate "a" ["foo"]] chain m ∧
        literalChain ⟨"bar"⟩ (chain.map (·.paths)) = true := by
  refine ⟨reachable_sample.run _, outsideEngine_answer, ?_⟩
  rintro ⟨chain, m, hr, hc⟩
  cases hr with
  | last he _ =>
    obtain rfl := List.mem_singleton.1 he
    cases hc
  | cons he hm hd hr =>
    obtain rfl := List.mem_singleton.1 he
    have : outsideEngine.delegations.lookup (delegate "a" ["foo"]).role =
        some (targetsWith ["bar"] []) := rfl
    rw [this, Option.some.injEq] at hm
    subst hm
    cases hd
    cases hr <;> contradiction

/-- Targets delegating, for the path `"bar"` alone, first to `"m"`, whose metadata is never
loaded, then to `"a"`, whose metadata lists `"bar"`. -/
def skippingEngine : Tuf :=
  sampleEngine.run sampleRing
    [.timestamp (signedBySample (timestampListing 1 1)) 0,
     .snapshot (signedBySample (snapshotListing 1 [("targets", 1), ("a", 1)])) 0,
     .targets (signedBySample (targetsWith [] [delegate "m" ["bar"], delegate "a" ["bar"]])) 0,
     .delegation ⟨"targets"⟩ ⟨"a"⟩ (signedBySample (targetsWith ["bar"] [])) 0]

/-- Every delegation admits `"bar"`, and the first, non-terminating, misses because its
metadata is not held: the reference search moves on to `"a"` and answers, `lookup` gives up,
whatever `matches_chain` computes. -/
theorem targetDescription_skips_siblings
    (matchesChain : VirtualTargetPath → List (List VirtualTargetPath) → Bool) :
    Reachable sampleRing skippingEngine ∧
      skippingEngine.targetDescription matchesChain 0 ⟨"bar"⟩ = .error .targetUnavailable ∧
      skippingEngine.referenceDescription 0 ⟨"bar"⟩ = .ok sampleDesc :=
  ⟨reachable_sample.run _, rfl, rfl⟩

/-! ## Delegated keys -/

def sampleKey2 : PublicKey := ⟨.ed25519, .hexLower, ⟨[2]⟩, ⟨[2]⟩⟩

/-- `m` signed by the second sample key alone, over the canonical bytes of the sample
interchange. -/
def signedBySample2 {M : Type} (m : M) : SignedMetadata M :=
  { signatures := [⟨⟨[2]⟩, .ed25519, ⟨[2]⟩⟩], signed := m }

/-- The keys of the top-level targets of `twoParentEngine`: both sample keys. -/
def bothKeys : HashMap KeyId PublicKey := [⟨⟨[1]⟩, sampleKey⟩, ⟨⟨[2]⟩, sampleKey2⟩].toAList

/-- The top-level targets delegate `"r"` and `"a"` to the first sample key; the metadata of
`"a"` delegates `"r"` to the second. The metadata of `"r"`, listing `"bar"` and signed by the
second key alone, is loaded with `"a"` as its parent. -/
def twoParentEngine : Tuf :=
  sampleEngine.run sampleRing
    [.timestamp (signedBySample (timestampListing 1 1)) 0,
     .snapshot (signedBySample (snapshotListing 1 [("targets", 1), ("a", 1), ("r", 1)])) 0,
     .targets (signedBySample { targetsWith [] [] with
        delegations := some ⟨bothKeys, [delegate "r" ["bar"], delegate "a" ["bar"]]⟩ }) 0,
     .delegation ⟨"targets"⟩ ⟨"a"⟩ (signedBySample { targetsWith [] [] with
        delegations := some ⟨[⟨⟨[2]⟩, sampleKey2⟩].toAList,
          [{ delegate "r" ["bar"] with keyIds := [⟨[2]⟩] }]⟩ }) 0,
     .delegation ⟨"a"⟩ ⟨"r"⟩ (signedBySample2 (targetsWith ["bar"] [])) 0]

/-- `target_description` answers `"bar"` from the metadata of `"r"`, reached through the
top-level entry for `"r"`; the only document installed for `"r"` fails the threshold check of
that entry, since it was checked against the entry for `"r"` in the metadata of `"a"`. -/
theorem delegation_answers_under_other_keys
    (matchesChain : VirtualTargetPath → List (List VirtualTargetPath) → Bool) :
    Reachable sampleRing twoParentEngine ∧
      twoParentEngine.targetDescription matchesChain 0 ⟨"bar"⟩ = .ok sampleDesc ∧
      (twoParentEngine.targets.bind (·.delegations)).map (·.roles.head?) =
        some (some (delegate "r" ["bar"])) ∧
      twoParentEngine.delegations.lookup ⟨"r"⟩ = some (targetsWith ["bar"] []) ∧
      ((signedBySample2 (targetsWith ["bar"] [])).verify sampleRing
        twoParentEngine.interchange.canonicalizeTargets (delegate "r" ["bar"]).threshold
        (authorizedKeys bothKeys (delegate "r" ["bar"]).keyIds)).toBool = false :=
  ⟨reachable_sample.run _, rfl, rfl, rfl, rfl⟩

end RustTuf.Tuf
