import Kubernetes.Controller.EndpointSlice.Reconciler

/-! What the packing keeps: every desired endpoint ends in exactly one slice, no slice holds one
that is not desired, and a slice that takes endpoints from the desired set is not filled past the
limit.

The passes move endpoints out of the desired set into slices. Each endpoint of a slice that is
left as it was is matched, beyond its hash, by the desired endpoint of its hash; every other
endpoint placed is the desired one itself.
-/

set_option autoImplicit false

namespace Kubernetes.Controller.Endpointslice

open Kubernetes.Library

/-! ## The fill loop -/

section Fill

variable (r : Reconciler)

theorem fillSlice_spec (endpoints : List Endpoint) (desiredSet : EndpointSet) :
    (fillSlice r endpoints desiredSet).1 =
        endpoints ++ desiredSet.values.take (r.maxEndpointsPerSlice - endpoints.length) ∧
      (fillSlice r endpoints desiredSet).2.values =
        desiredSet.values.drop (r.maxEndpointsPerSlice - endpoints.length) := by
  fun_induction fillSlice r endpoints desiredSet with
  | case1 endpoints desiredSet room endpoint rest popped _ ih =>
    have listed := Keyed.values_popAny popped
    have shrinks : r.maxEndpointsPerSlice - endpoints.length =
        r.maxEndpointsPerSlice - (endpoints ++ [endpoint]).length + 1 := by
      simp only [List.length_append, List.length_singleton]
      omega
    rw [ih.1, ih.2, listed, shrinks, List.take_succ_cons, List.drop_succ_cons]
    simp
  | case2 endpoints desiredSet room empty =>
    have listed : desiredSet.values = [] := by
      have size := Keyed.popAny_eq_none.mp empty
      exact List.eq_nil_of_length_eq_zero ((List.length_map _).trans size)
    simp [listed]
  | case3 endpoints desiredSet full =>
    have spent : r.maxEndpointsPerSlice - endpoints.length = 0 := by omega
    simp [spent]

end Fill

/-! ## Keeping the desired endpoints of a slice -/

theorem keepDesired_perm : ∀ (endpoints : List Endpoint) (desiredSet : EndpointSet),
    ((keepDesired endpoints desiredSet).1.map hashEndpoint ++
        (keepDesired endpoints desiredSet).2.2.values.map hashEndpoint).Perm
      (desiredSet.values.map hashEndpoint)
  | [], _ => List.Perm.refl _
  | endpoint :: rest, desiredSet => by
    unfold keepDesired
    cases found : desiredSet.get (hashEndpoint endpoint) with
    | none => exact keepDesired_perm rest desiredSet
    | some got =>
      have keyed : hashEndpoint got = hashEndpoint endpoint := Keyed.key_of_get found
      have listed : got ∈ desiredSet.values := Keyed.mem_values_iff.mpr (keyed ▸ found)
      have split := (Keyed.perm_values_erase listed).map hashEndpoint
      rw [keyed] at split
      exact ((keepDesired_perm rest _).cons _).trans (by simpa [keyed] using split.symm)

theorem keepDesired_kept : ∀ (endpoints : List Endpoint) (desiredSet : EndpointSet),
    ∀ kept ∈ (keepDesired endpoints desiredSet).1,
      kept ∈ desiredSet.values ∧ hashEndpoint kept ∈ endpoints.map hashEndpoint
  | [], _ => by simp [keepDesired]
  | endpoint :: rest, desiredSet => by
    intro kept member
    unfold keepDesired at member
    cases found : desiredSet.get (hashEndpoint endpoint) with
    | none =>
      rw [found] at member
      obtain ⟨listed, scanned⟩ := keepDesired_kept rest desiredSet kept member
      exact ⟨listed, List.mem_cons_of_mem _ scanned⟩
    | some got =>
      rw [found] at member
      rcases List.mem_cons.mp member with rfl | later
      · have keyed := Keyed.key_of_get found
        exact ⟨Keyed.mem_values_iff.mpr (keyed ▸ found), by simp [keyed]⟩
      · obtain ⟨listed, scanned⟩ := keepDesired_kept rest _ kept later
        exact ⟨(Keyed.mem_values_erase.mp listed).1, List.mem_cons_of_mem _ scanned⟩

theorem keepDesired_left : ∀ (endpoints : List Endpoint) (desiredSet : EndpointSet),
    ∀ left ∈ (keepDesired endpoints desiredSet).2.2.values,
      left ∈ desiredSet.values ∧ hashEndpoint left ∉ endpoints.map hashEndpoint
  | [], _ => by simp [keepDesired]
  | endpoint :: rest, desiredSet => by
    intro left member
    unfold keepDesired at member
    cases found : desiredSet.get (hashEndpoint endpoint) with
    | none =>
      rw [found] at member
      obtain ⟨listed, unscanned⟩ := keepDesired_left rest desiredSet left member
      have other : hashEndpoint left ≠ hashEndpoint endpoint := by
        intro same
        rw [← same, Keyed.get_of_mem_values listed] at found
        cases found
      simp [other, unscanned, listed]
    | some got =>
      rw [found] at member
      obtain ⟨listed, unscanned⟩ := keepDesired_left rest _ left member
      obtain ⟨listed, other⟩ := Keyed.mem_values_erase.mp listed
      simp [other, unscanned, listed]

theorem keepDesired_unchanged : ∀ (endpoints : List Endpoint) (desiredSet : EndpointSet),
    (keepDesired endpoints desiredSet).2.1 = false →
      (keepDesired endpoints desiredSet).1.length = endpoints.length →
      ∀ endpoint ∈ endpoints, ∃ kept ∈ (keepDesired endpoints desiredSet).1,
        hashEndpoint kept = hashEndpoint endpoint ∧ endpointsEqualBeyondHash kept endpoint = true
  | [], _ => by simp
  | endpoint :: rest, desiredSet => by
    intro unchanged lengths scanned member
    unfold keepDesired at unchanged lengths ⊢
    cases found : desiredSet.get (hashEndpoint endpoint) with
    | none =>
      rw [found] at lengths
      have bound := keepDesired_length rest desiredSet
      simp only [List.length_cons] at lengths
      omega
    | some got =>
      rw [found] at unchanged lengths
      simp only [Bool.or_eq_false_iff, Bool.not_eq_false'] at unchanged
      simp only [List.length_cons, Nat.add_right_cancel_iff] at lengths
      rcases List.mem_cons.mp member with rfl | later
      · exact ⟨got, List.mem_cons_self, Keyed.key_of_get found, unchanged.1⟩
      · obtain ⟨kept, listed, same⟩ := keepDesired_unchanged rest _ unchanged.2 lengths scanned later
        exact ⟨kept, List.mem_cons_of_mem _ listed, same⟩
where
  keepDesired_length : ∀ (endpoints : List Endpoint) (desiredSet : EndpointSet),
      (keepDesired endpoints desiredSet).1.length ≤ endpoints.length
    | [], _ => le_refl 0
    | endpoint :: rest, desiredSet => by
      unfold keepDesired
      cases desiredSet.get (hashEndpoint endpoint) with
      | none => exact Nat.le_trans (keepDesired_length rest desiredSet) (Nat.le_succ _)
      | some got => exact Nat.succ_le_succ (keepDesired_length rest _)

theorem keepDesired_unchanged_hashes : ∀ (endpoints : List Endpoint) (desiredSet : EndpointSet),
    (keepDesired endpoints desiredSet).2.1 = false →
      (keepDesired endpoints desiredSet).1.length = endpoints.length →
      (keepDesired endpoints desiredSet).1.map hashEndpoint = endpoints.map hashEndpoint
  | [], _ => by simp [keepDesired]
  | endpoint :: rest, desiredSet => by
    intro unchanged lengths
    unfold keepDesired at unchanged lengths ⊢
    cases found : desiredSet.get (hashEndpoint endpoint) with
    | none =>
      rw [found] at lengths
      have bound := keepDesired_unchanged.keepDesired_length rest desiredSet
      simp only [List.length_cons] at lengths
      omega
    | some got =>
      rw [found] at unchanged lengths
      simp only [Bool.or_eq_false_iff] at unchanged
      simp only [List.length_cons, Nat.add_right_cancel_iff] at lengths
      simp only [List.map_cons, Keyed.key_of_get found,
        keepDesired_unchanged_hashes rest _ unchanged.2 lengths]

/-! ## Picking a slice to fill -/

theorem getSliceToFill_spec {endpointSlices : List EndpointSlice} {numEndpoints maxEndpoints : ℕ}
    {slice : EndpointSlice} (picked : getSliceToFill endpointSlices numEndpoints maxEndpoints = some slice) :
    slice ∈ endpointSlices ∧ numEndpoints + slice.endpoints.length ≤ maxEndpoints := by
  suffices kept : ∀ (rest : List EndpointSlice) (closestDiff : ℤ) (closest : Option EndpointSlice),
      (∀ held ∈ closest, held ∈ endpointSlices ∧ numEndpoints + held.endpoints.length ≤ maxEndpoints) →
      (∀ met ∈ rest, met ∈ endpointSlices) →
      ∀ held ∈ getSliceToFill.go numEndpoints maxEndpoints rest closestDiff closest,
        held ∈ endpointSlices ∧ numEndpoints + held.endpoints.length ≤ maxEndpoints from
    kept endpointSlices maxEndpoints none (by simp) (fun _ met => met) slice picked
  intro rest
  induction rest with
  | nil => exact fun _ _ held _ => held
  | cons endpointSlice rest ih =>
    intro closestDiff closest held met
    have room : 0 ≤ (maxEndpoints : ℤ) - (numEndpoints + endpointSlice.endpoints.length) →
        endpointSlice ∈ endpointSlices ∧ numEndpoints + endpointSlice.endpoints.length ≤ maxEndpoints :=
      fun fits => ⟨met _ List.mem_cons_self, by omega⟩
    unfold getSliceToFill.go
    dsimp only
    split_ifs with closer zero
    · simpa using room closer.1
    · exact ih _ _ (by simpa using room closer.1) fun other listed => met _ (List.mem_cons_of_mem _ listed)
    · exact ih _ _ held fun other listed => met _ (List.mem_cons_of_mem _ listed)

/-! ## One round of the first pass -/

theorem reconcileExisting_spec (service : Service) (pass : Pass) (slice : EndpointSlice) :
    let kept := keepDesired slice.endpoints pass.desiredSet
    let after := reconcileExisting service pass slice
    after.desiredSet = kept.2.2 ∧ after.slicesToCreate = pass.slicesToCreate ∧
      ((kept.1 = [] ∧ after.slicesByName = Function.update pass.slicesByName slice.name (some slice) ∧
          after.sliceNamesToDelete = insertName pass.sliceNamesToDelete slice.name ∧
          after.sliceNamesToUpdate = pass.sliceNamesToUpdate ∧
          after.sliceNamesUnchanged = pass.sliceNamesUnchanged) ∨
        (∃ endpoints labels, (endpoints = kept.1 ∨
            kept.2.1 = false ∧ kept.1.length = slice.endpoints.length ∧ endpoints = slice.endpoints) ∧
          after.slicesByName =
            Function.update pass.slicesByName slice.name (some { slice with endpoints, labels }) ∧
          after.sliceNamesToUpdate = insertName pass.sliceNamesToUpdate slice.name ∧
          after.sliceNamesToDelete = pass.sliceNamesToDelete ∧
          after.sliceNamesUnchanged = pass.sliceNamesUnchanged) ∨
        (kept.2.1 = false ∧ kept.1.length = slice.endpoints.length ∧
          after.slicesByName = Function.update pass.slicesByName slice.name (some slice) ∧
          after.sliceNamesUnchanged = insertName pass.sliceNamesUnchanged slice.name ∧
          after.sliceNamesToUpdate = pass.sliceNamesToUpdate ∧
          after.sliceNamesToDelete = pass.sliceNamesToDelete)) := by
  intro kept after
  dsimp only [kept, after]
  unfold reconcileExisting
  dsimp only
  generalize keepDesired slice.endpoints pass.desiredSet = scan
  obtain ⟨news, updated, rest⟩ := scan
  generalize setEndpointSliceLabels slice service = labeled
  obtain ⟨labels, labelsChanged⟩ := labeled
  dsimp only
  split_ifs with changed emptied
  · exact ⟨rfl, rfl, .inl ⟨List.eq_nil_of_length_eq_zero emptied, rfl, rfl, rfl, rfl⟩⟩
  · exact ⟨rfl, rfl, .inl ⟨List.eq_nil_of_length_eq_zero emptied, rfl, rfl, rfl, rfl⟩⟩
  · exact ⟨rfl, rfl, .inr (.inl ⟨news, labels, .inl rfl, by simp, rfl, rfl, rfl⟩)⟩
  · exact ⟨rfl, rfl, .inr (.inl ⟨news, labels, .inl rfl, by simp, rfl, rfl, rfl⟩)⟩
  · -- only the labels changed
    simp only [Bool.or_eq_true, bne_iff_ne, ne_eq, not_or, not_not, Bool.not_eq_true] at changed
    exact ⟨rfl, rfl, .inr (.inl ⟨slice.endpoints, labels, .inr ⟨changed.1, changed.2.symm, rfl⟩, by simp, rfl,
      rfl, rfl⟩)⟩
  · simp only [Bool.or_eq_true, bne_iff_ne, ne_eq, not_or, not_not, Bool.not_eq_true] at changed
    exact ⟨rfl, rfl, .inr (.inr ⟨changed.1, changed.2.symm, rfl, rfl, rfl, rfl⟩)⟩

theorem reconcileExisting_frame (service : Service) (pass : Pass) (slice : EndpointSlice) {name : String}
    (other : name ≠ slice.name) :
    let after := reconcileExisting service pass slice
    (name ∈ after.sliceNamesUnchanged ↔ name ∈ pass.sliceNamesUnchanged) ∧
      (name ∈ after.sliceNamesToUpdate ↔ name ∈ pass.sliceNamesToUpdate) ∧
      (name ∈ after.sliceNamesToDelete ↔ name ∈ pass.sliceNamesToDelete) ∧
      after.slicesByName name = pass.slicesByName name := by
  intro after
  obtain ⟨-, -, outcome⟩ := reconcileExisting_spec service pass slice
  rcases outcome with ⟨-, map, deleted, updated, unchanged⟩ | ⟨_, _, -, map, updated, deleted, unchanged⟩ |
      ⟨-, -, map, unchanged, updated, deleted⟩ <;>
    simp [after, map, deleted, updated, unchanged, insertName, List.mem_insert_iff, other]

/-! ## The plan so far -/

/-- What the plan makes of an existing slice the first pass has handled: nothing where it is to
be deleted, its new version where it is to be updated, and itself otherwise. -/
def Pass.entry (pass : Pass) (slice : EndpointSlice) : Option EndpointSlice :=
  if slice.name ∈ pass.sliceNamesToDelete then none
  else if slice.name ∈ pass.sliceNamesToUpdate then pass.slicesByName slice.name
  else some slice

/-- The slices once the plan so far is applied to the existing slices handled. -/
def Pass.planned (pass : Pass) (handled : List EndpointSlice) : List EndpointSlice :=
  handled.filterMap pass.entry ++ pass.slicesToCreate

/-- An endpoint a slice may hold: of the hash of a desired endpoint, and that endpoint or equal
to it beyond the hash. -/
def Matches (desired : EndpointSet) (endpoint : Endpoint) : Prop :=
  ∃ wanted ∈ desired.values, hashEndpoint wanted = hashEndpoint endpoint ∧
    (endpoint = wanted ∨ endpointsEqualBeyondHash wanted endpoint = true)

/-- A new version of a slice holds only hashes the slice held, or is within the limit. -/
def Bounded (maxEndpoints : ℕ) (old new : EndpointSlice) : Prop :=
  (∀ endpoint ∈ new.endpoints, hashEndpoint endpoint ∈ old.endpoints.map hashEndpoint) ∨
    new.endpoints.length ≤ maxEndpoints

/-- The invariant of the passes, over the existing slices the first pass has handled: the names
sort those slices into the three sets, the map holds each slice as its set says, a created slice
is named by the API server and within the limit, and the planned slices and the desired set
left hold the desired hashes between them, each once. -/
structure Placed (maxEndpoints : ℕ) (desired : EndpointSet) (handled : List EndpointSlice) (pass : Pass) :
    Prop where
  named : ∀ name, name ∈ pass.sliceNamesUnchanged ∨ name ∈ pass.sliceNamesToUpdate ∨
    name ∈ pass.sliceNamesToDelete → name ∈ handled.map (·.name)
  covered : ∀ slice ∈ handled, slice.name ∈ pass.sliceNamesUnchanged ∨
    slice.name ∈ pass.sliceNamesToUpdate ∨ slice.name ∈ pass.sliceNamesToDelete
  unchanged : ∀ slice ∈ handled, slice.name ∈ pass.sliceNamesUnchanged →
    pass.slicesByName slice.name = some slice ∧ slice.name ∉ pass.sliceNamesToUpdate ∧
      slice.name ∉ pass.sliceNamesToDelete
  deleted : ∀ slice ∈ handled, slice.name ∈ pass.sliceNamesToDelete →
    pass.slicesByName slice.name = some slice ∧ slice.name ∉ pass.sliceNamesToUpdate
  updated : ∀ slice ∈ handled, slice.name ∈ pass.sliceNamesToUpdate →
    ∃ new, pass.slicesByName slice.name = some new ∧ new.name = slice.name ∧ Bounded maxEndpoints slice new
  nodup : pass.sliceNamesUnchanged.Nodup ∧ pass.sliceNamesToUpdate.Nodup ∧ pass.sliceNamesToDelete.Nodup
  created : ∀ slice ∈ pass.slicesToCreate,
    slice.name = "" ∧ slice.endpoints ≠ [] ∧ slice.endpoints.length ≤ maxEndpoints
  keys : (((pass.planned handled).flatMap EndpointSlice.endpoints).map hashEndpoint ++
    pass.desiredSet.values.map hashEndpoint).Perm (desired.values.map hashEndpoint)
  matched : ∀ slice ∈ pass.planned handled, ∀ endpoint ∈ slice.endpoints, Matches desired endpoint
  left : ∀ endpoint ∈ pass.desiredSet.values, endpoint ∈ desired.values ∧
    ∀ slice ∈ handled, hashEndpoint endpoint ∉ slice.endpoints.map hashEndpoint

theorem placed_start (maxEndpoints : ℕ) (desired : EndpointSet) :
    Placed maxEndpoints desired [] ⟨fun _ => none, [], [], [], 0, desired, []⟩ where
  named := by simp
  covered := by simp
  unchanged := by simp
  deleted := by simp
  updated := by simp
  nodup := ⟨List.nodup_nil, List.nodup_nil, List.nodup_nil⟩
  created := by simp
  keys := by simp [Pass.planned]
  matched := by simp [Pass.planned]
  left := fun _ listed => ⟨listed, by simp⟩

theorem Pass.entry_congr {pass pass' : Pass} {slice : EndpointSlice}
    (deleted : slice.name ∈ pass'.sliceNamesToDelete ↔ slice.name ∈ pass.sliceNamesToDelete)
    (updated : slice.name ∈ pass'.sliceNamesToUpdate ↔ slice.name ∈ pass.sliceNamesToUpdate)
    (mapped : pass'.slicesByName slice.name = pass.slicesByName slice.name) :
    pass'.entry slice = pass.entry slice := by
  simp only [Pass.entry, deleted, updated, mapped]

section FirstPass

variable (service : Service) {maxEndpoints : ℕ} {desired : EndpointSet} {handled : List EndpointSlice}
  {pass : Pass}

theorem reconcileExisting_entry (slice : EndpointSlice)
    (fresh : slice.name ∉ pass.sliceNamesToUpdate ∧ slice.name ∉ pass.sliceNamesToDelete) :
    let kept := keepDesired slice.endpoints pass.desiredSet
    let entry := (reconcileExisting service pass slice).entry slice
    (entry.toList.flatMap EndpointSlice.endpoints).map hashEndpoint = kept.1.map hashEndpoint ∧
      ∀ new ∈ entry, ∀ endpoint ∈ new.endpoints, endpoint ∈ kept.1 ∨
        ∃ got ∈ kept.1, hashEndpoint got = hashEndpoint endpoint ∧ endpointsEqualBeyondHash got endpoint = true := by
  intro kept entry
  have own : kept.2.1 = false → kept.1.length = slice.endpoints.length →
      slice.endpoints.map hashEndpoint = kept.1.map hashEndpoint ∧
        ∀ endpoint ∈ slice.endpoints, endpoint ∈ kept.1 ∨ ∃ got ∈ kept.1,
          hashEndpoint got = hashEndpoint endpoint ∧ endpointsEqualBeyondHash got endpoint = true :=
    fun unchanged lengths =>
      ⟨(keepDesired_unchanged_hashes _ _ unchanged lengths).symm,
        fun endpoint member => .inr (keepDesired_unchanged _ _ unchanged lengths endpoint member)⟩
  obtain ⟨-, -, outcome⟩ := reconcileExisting_spec service pass slice
  rcases outcome with ⟨emptied, -, deleted, -, -⟩ | ⟨endpoints, labels, version, map, updated, deleted, -⟩ |
      ⟨unchanged, lengths, -, -, updated, deleted⟩
  · have gone : entry = none := by simp [entry, Pass.entry, deleted, insertName, List.mem_insert_iff]
    simp [gone, kept, emptied]
  · have new : entry = some { slice with endpoints, labels } := by
      simp [entry, Pass.entry, deleted, fresh.2, updated, insertName, List.mem_insert_iff, map]
    rw [new]
    rcases version with rfl | ⟨unchanged, lengths, rfl⟩
    · refine ⟨by simp [kept], ?_⟩
      simp only [Option.mem_def, Option.some.injEq, forall_eq']
      exact fun _ member => .inl member
    · simpa using own unchanged lengths
  · have same : entry = some slice := by simp [entry, Pass.entry, deleted, fresh.2, updated, fresh.1]
    rw [same]
    simpa using own unchanged lengths

theorem Placed.matches_kept (placed : Placed maxEndpoints desired handled pass) {kept : List Endpoint}
    (desiredKept : ∀ got ∈ kept, got ∈ pass.desiredSet.values) {endpoint : Endpoint}
    (accepted : endpoint ∈ kept ∨ ∃ got ∈ kept, hashEndpoint got = hashEndpoint endpoint ∧
      endpointsEqualBeyondHash got endpoint = true) :
    Matches desired endpoint := by
  rcases accepted with member | ⟨got, member, keyed, equal⟩
  · exact ⟨endpoint, (placed.left _ (desiredKept _ member)).1, rfl, .inl rfl⟩
  · exact ⟨got, (placed.left _ (desiredKept _ member)).1, keyed, .inr equal⟩

theorem Placed.reconcileExisting (placed : Placed maxEndpoints desired handled pass)
    (noneCreated : pass.slicesToCreate = []) (slice : EndpointSlice) (fresh : slice.name ∉ handled.map (·.name)) :
    Placed maxEndpoints desired (handled ++ [slice]) (reconcileExisting service pass slice) := by
  obtain ⟨scanned, created, outcome⟩ := reconcileExisting_spec service pass slice
  have notIn : ∀ name, name ∈ pass.sliceNamesUnchanged ∨ name ∈ pass.sliceNamesToUpdate ∨
      name ∈ pass.sliceNamesToDelete → name ≠ slice.name :=
    fun name member same => fresh (same ▸ placed.named name member)
  have notUnchanged : slice.name ∉ pass.sliceNamesUnchanged := fun member => notIn _ (.inl member) rfl
  have notUpdate : slice.name ∉ pass.sliceNamesToUpdate := fun member => notIn _ (.inr (.inl member)) rfl
  have notDelete : slice.name ∉ pass.sliceNamesToDelete := fun member => notIn _ (.inr (.inr member)) rfl
  have apart : ∀ other ∈ handled, other.name ≠ slice.name :=
    fun other member same => fresh (same ▸ List.mem_map_of_mem member)
  have frame := fun other (member : other ∈ handled) =>
    reconcileExisting_frame service pass slice (apart other member)
  have prefix_ : handled.filterMap (Endpointslice.reconcileExisting service pass slice).entry = handled.filterMap pass.entry :=
    List.filterMap_congr fun other member => by
      obtain ⟨-, updated, deleted, mapped⟩ := frame other member
      exact Pass.entry_congr deleted updated mapped
  have planned : (Endpointslice.reconcileExisting service pass slice).planned (handled ++ [slice]) =
      pass.planned handled ++ ((Endpointslice.reconcileExisting service pass slice).entry slice).toList := by
    rw [Pass.planned, Pass.planned, List.filterMap_append, prefix_, created, noneCreated, List.append_nil,
      List.append_nil]
    rw [List.filterMap_cons, List.filterMap_nil]
    cases (Endpointslice.reconcileExisting service pass slice).entry slice <;> rfl
  obtain ⟨contributed, accepted⟩ := reconcileExisting_entry service slice ⟨notUpdate, notDelete⟩
  have desiredKept := fun got member => (keepDesired_kept slice.endpoints pass.desiredSet got member).1
  constructor
  · intro name member
    by_cases same : name = slice.name
    · simp [same]
    · obtain ⟨unchanged, updated, deleted, -⟩ := reconcileExisting_frame service pass slice same
      rw [unchanged, updated, deleted] at member
      rw [List.map_append]
      exact List.mem_append_left _ (placed.named name member)
  · intro other member
    rcases List.mem_append.mp member with earlier | now
    · obtain ⟨unchanged, updated, deleted, -⟩ := frame other earlier
      rw [unchanged, updated, deleted]
      exact placed.covered other earlier
    · rw [List.mem_singleton.mp now]
      rcases outcome with ⟨-, -, deleted, -, -⟩ | ⟨-, -, -, -, updated, -, -⟩ | ⟨-, -, -, unchanged, -, -⟩
      · simp [deleted, insertName, List.mem_insert_iff]
      · simp [updated, insertName, List.mem_insert_iff]
      · simp [unchanged, insertName, List.mem_insert_iff]
  · intro other member listed
    rcases List.mem_append.mp member with earlier | now
    · obtain ⟨unchanged, updated, deleted, mapped⟩ := frame other earlier
      rw [unchanged] at listed
      rw [updated, deleted, mapped]
      exact placed.unchanged other earlier listed
    · rw [List.mem_singleton.mp now] at listed ⊢
      rcases outcome with ⟨-, -, -, -, unchanged⟩ | ⟨-, -, -, -, -, -, unchanged⟩ |
          ⟨-, -, map, -, updated, deleted⟩
      · exact absurd (unchanged ▸ listed) notUnchanged
      · exact absurd (unchanged ▸ listed) notUnchanged
      · simp [map, updated, deleted, notUpdate, notDelete]
  · intro other member listed
    rcases List.mem_append.mp member with earlier | now
    · obtain ⟨-, updated, deleted, mapped⟩ := frame other earlier
      rw [deleted] at listed
      rw [updated, mapped]
      exact placed.deleted other earlier listed
    · rw [List.mem_singleton.mp now] at listed ⊢
      rcases outcome with ⟨-, map, -, updated, -⟩ | ⟨-, -, -, -, -, deleted, -⟩ | ⟨-, -, -, -, -, deleted⟩
      · simp [map, updated, notUpdate]
      · exact absurd (deleted ▸ listed) notDelete
      · exact absurd (deleted ▸ listed) notDelete
  · intro other member listed
    rcases List.mem_append.mp member with earlier | now
    · obtain ⟨-, updated, -, mapped⟩ := frame other earlier
      rw [updated] at listed
      rw [mapped]
      exact placed.updated other earlier listed
    · rw [List.mem_singleton.mp now] at listed ⊢
      rcases outcome with ⟨-, -, -, updated, -⟩ | ⟨endpoints, labels, version, map, -, -, -⟩ |
          ⟨-, -, -, -, updated, -⟩
      · exact absurd (updated ▸ listed) notUpdate
      · -- the new version holds kept endpoints, each of a hash the slice held, or the slice's own
        refine ⟨{ slice with endpoints, labels }, by simp [map], rfl, .inl ?_⟩
        rcases version with rfl | ⟨-, -, rfl⟩
        · exact fun endpoint member => (keepDesired_kept _ _ endpoint member).2
        · exact fun endpoint member => List.mem_map_of_mem member
      · exact absurd (updated ▸ listed) notUpdate
  · obtain ⟨unchanged, updated, deleted⟩ := placed.nodup
    rcases outcome with ⟨-, -, deleted', updated', unchanged'⟩ | ⟨-, -, -, -, updated', deleted', unchanged'⟩ |
        ⟨-, -, -, unchanged', updated', deleted'⟩ <;>
      simp only [unchanged', updated', deleted', insertName] <;>
      exact ⟨by first | exact unchanged.insert | exact unchanged, by first | exact updated.insert | exact updated,
        by first | exact deleted.insert | exact deleted⟩
  · rw [created]
    exact placed.created
  · -- what the round kept moves from the desired set into the plan
    rw [planned, scanned, List.flatMap_append, List.map_append, contributed, List.append_assoc]
    exact ((keepDesired_perm slice.endpoints pass.desiredSet).append_left _).trans placed.keys
  · intro new member endpoint listed
    rw [planned] at member
    rcases List.mem_append.mp member with earlier | now
    · exact placed.matched new earlier endpoint listed
    · exact placed.matches_kept desiredKept (accepted new (Option.mem_toList.mp now) endpoint listed)
  · intro endpoint listed
    rw [scanned] at listed
    obtain ⟨before, unscanned⟩ := keepDesired_left slice.endpoints pass.desiredSet endpoint listed
    obtain ⟨wanted, elsewhere⟩ := placed.left endpoint before
    refine ⟨wanted, fun other member => ?_⟩
    rcases List.mem_append.mp member with earlier | now
    · exact elsewhere other earlier
    · rw [List.mem_singleton.mp now]
      exact unscanned

theorem Placed.firstPass : ∀ (slices handled : List EndpointSlice) (pass : Pass),
    Placed maxEndpoints desired handled pass → pass.slicesToCreate = [] →
      ((handled ++ slices).map (·.name)).Nodup →
      Placed maxEndpoints desired (handled ++ slices)
          (slices.foldl (Endpointslice.reconcileExisting service) pass) ∧
        (slices.foldl (Endpointslice.reconcileExisting service) pass).slicesToCreate = []
  | [], handled, pass, placed, noneCreated, _ => by simpa using And.intro placed noneCreated
  | slice :: rest, handled, pass, placed, noneCreated, named => by
    have fresh : slice.name ∉ handled.map (·.name) := by
      rw [List.map_append, List.map_cons] at named
      exact fun member => List.disjoint_of_nodup_append named member List.mem_cons_self
    have next := placed.reconcileExisting service noneCreated slice fresh
    have stillNone := (reconcileExisting_spec service pass slice).2.1.trans noneCreated
    rw [List.foldl_cons]
    have later := Placed.firstPass rest (handled ++ [slice]) _ next stillNone (by simpa using named)
    simpa using later

end FirstPass

/-! ## Topping up a slice -/

theorem planned_extend {pass pass' : Pass} {existing : List EndpointSlice}
    (named : (existing.map (·.name)).Nodup) {old current : EndpointSlice} (member : old ∈ existing)
    {taken : List Endpoint} (before : pass.entry old = some current)
    (after : pass'.entry old = some { current with endpoints := current.endpoints ++ taken })
    (others : ∀ other ∈ existing, other.name ≠ old.name → pass'.entry other = pass.entry other)
    (created : pass'.slicesToCreate = pass.slicesToCreate) :
    ((pass'.planned existing).flatMap EndpointSlice.endpoints).Perm
      ((pass.planned existing).flatMap EndpointSlice.endpoints ++ taken) := by
  obtain ⟨pre, post, rfl⟩ := List.append_of_mem member
  have apart : ∀ other ∈ pre ++ post, other.name ≠ old.name := by
    rw [List.map_append, List.map_cons] at named
    intro other listed same
    rcases List.mem_append.mp listed with early | late
    · exact List.disjoint_of_nodup_append named (List.mem_map_of_mem early) (same ▸ List.mem_cons_self)
    · exact (List.nodup_cons.mp (List.nodup_append.mp named).2.1).1 (same ▸ List.mem_map_of_mem late)
  have kept : ∀ part ⊆ pre ++ post, part.filterMap pass'.entry = part.filterMap pass.entry :=
    fun part within => List.filterMap_congr fun other listed =>
      others other ((List.mem_append.mp (within listed)).elim (fun early => List.mem_append_left _ early)
        fun late => List.mem_append_right _ (List.mem_cons_of_mem _ late)) (apart other (within listed))
  simp only [Pass.planned, created, List.filterMap_append, List.filterMap_cons, before, after,
    kept pre (fun _ listed => List.mem_append_left _ listed), kept post (fun _ listed => List.mem_append_right _ listed)]
  refine List.perm_iff_count.mpr fun endpoint => ?_
  simp only [List.flatMap_append, List.flatMap_cons, List.count_append]
  omega

theorem Bounded.fillSlice (r : Reconciler) {old current : EndpointSlice}
    (bounded : Bounded r.maxEndpointsPerSlice old current) (desiredSet : EndpointSet) :
    Bounded r.maxEndpointsPerSlice old
      { current with endpoints := (Endpointslice.fillSlice r current.endpoints desiredSet).1 } := by
  rw [(fillSlice_spec r current.endpoints desiredSet).1]
  by_cases none : desiredSet.values.take (r.maxEndpointsPerSlice - current.endpoints.length) = []
  · simpa [none] using bounded
  · -- something was taken, so there was room, and the slice stops at the limit
    have room : 0 < r.maxEndpointsPerSlice - current.endpoints.length := by
      by_contra spent
      exact none (by rw [Nat.eq_zero_of_not_pos spent, List.take_zero])
    right
    simp only [List.length_append, List.length_take]
    omega

section Passes

variable (r : Reconciler) {desired : EndpointSet} {existing : List EndpointSlice} {pass : Pass}

theorem Placed.matches_planned (placed : Placed r.maxEndpointsPerSlice desired existing pass) {endpoint : Endpoint}
    (listed : endpoint ∈ (pass.planned existing).flatMap EndpointSlice.endpoints) : Matches desired endpoint := by
  obtain ⟨slice, planned, member⟩ := List.mem_flatMap.mp listed
  exact placed.matched slice planned endpoint member

theorem Placed.entry_of_update (placed : Placed r.maxEndpointsPerSlice desired existing pass)
    {old : EndpointSlice} (member : old ∈ existing) (listed : old.name ∈ pass.sliceNamesToUpdate) :
    pass.entry old = pass.slicesByName old.name := by
  have kept : old.name ∉ pass.sliceNamesToDelete := fun deleted =>
    (placed.deleted old member deleted).2 listed
  simp [Pass.entry, kept, listed]

theorem Placed.moved (placed : Placed r.maxEndpointsPerSlice desired existing pass) {pass' : Pass}
    {taken : List Endpoint}
    (gained : ((pass'.planned existing).flatMap EndpointSlice.endpoints).Perm
      ((pass.planned existing).flatMap EndpointSlice.endpoints ++ taken))
    (split : pass.desiredSet.values = taken ++ pass'.desiredSet.values) :
    (((pass'.planned existing).flatMap EndpointSlice.endpoints).map hashEndpoint ++
        pass'.desiredSet.values.map hashEndpoint).Perm (desired.values.map hashEndpoint) ∧
      (∀ slice ∈ pass'.planned existing, ∀ endpoint ∈ slice.endpoints, Matches desired endpoint) ∧
      ∀ endpoint ∈ pass'.desiredSet.values, endpoint ∈ desired.values ∧
        ∀ slice ∈ existing, hashEndpoint endpoint ∉ slice.endpoints.map hashEndpoint := by
  have left := fun endpoint (listed : endpoint ∈ pass'.desiredSet.values) =>
    placed.left endpoint (split ▸ List.mem_append_right _ listed)
  refine ⟨?_, fun slice planned endpoint member => ?_, left⟩
  · have keys := placed.keys
    rw [split, List.map_append] at keys
    rw [← List.append_assoc] at keys
    exact ((gained.map hashEndpoint).append_right _).trans (by simpa using keys)
  · have listed : endpoint ∈ (pass.planned existing).flatMap EndpointSlice.endpoints ++ taken :=
      gained.subset (List.mem_flatMap.mpr ⟨slice, planned, member⟩)
    rcases List.mem_append.mp listed with before | moved
    · exact placed.matches_planned r before
    · exact ⟨endpoint, (placed.left endpoint (split ▸ List.mem_append_left _ moved)).1, rfl, .inl rfl⟩

theorem Placed.topUp (placed : Placed r.maxEndpointsPerSlice desired existing pass)
    (named : (existing.map (·.name)).Nodup) {slice : EndpointSlice}
    (listed : slice.name ∈ pass.sliceNamesToUpdate) (current : pass.slicesByName slice.name = some slice) :
    Placed r.maxEndpointsPerSlice desired existing
      { pass with
        slicesByName := Function.update pass.slicesByName slice.name
          (some { slice with endpoints := (fillSlice r slice.endpoints pass.desiredSet).1 })
        desiredSet := (fillSlice r slice.endpoints pass.desiredSet).2 } := by
  set filled := fillSlice r slice.endpoints pass.desiredSet with filled_def
  set after : Pass := { pass with
    slicesByName := Function.update pass.slicesByName slice.name (some { slice with endpoints := filled.1 })
    desiredSet := filled.2 }
  set taken := pass.desiredSet.values.take (r.maxEndpointsPerSlice - slice.endpoints.length)
  have spec := fillSlice_spec r slice.endpoints pass.desiredSet
  rw [← filled_def] at spec
  obtain ⟨old, member, same⟩ := List.mem_map.mp (placed.named _ (.inr (.inl listed)))
  have other : ∀ name, name ≠ slice.name → after.slicesByName name = pass.slicesByName name :=
    fun name differ => Function.update_of_ne differ _ _
  have notDelete : slice.name ∉ pass.sliceNamesToDelete := fun deleted =>
    (placed.deleted old member (same ▸ deleted)).2 (same ▸ listed)
  have before : pass.entry old = some slice := by
    rw [placed.entry_of_update r member (same ▸ listed), same, current]
  have grown : after.entry old = some { slice with endpoints := slice.endpoints ++ taken } := by
    simp [after, Pass.entry, same, listed, notDelete, spec.1, taken]
  have gained := planned_extend named member before grown
    (fun other' _ differ => Pass.entry_congr Iff.rfl Iff.rfl (other _ (same ▸ differ))) rfl
  have moved := placed.moved r gained (by rw [spec.2, List.take_append_drop])
  constructor
  · exact placed.named
  · exact placed.covered
  · intro kept keptMember unchanged
    obtain ⟨mapped, notUpdate, notDeleted⟩ := placed.unchanged kept keptMember unchanged
    refine ⟨?_, notUpdate, notDeleted⟩
    rw [other _ fun differ => notUpdate (by rw [differ]; exact listed)]
    exact mapped
  · intro gone goneMember deleted
    obtain ⟨mapped, notUpdate⟩ := placed.deleted gone goneMember deleted
    refine ⟨?_, notUpdate⟩
    rw [other _ fun differ => notUpdate (by rw [differ]; exact listed)]
    exact mapped
  · intro updated updatedMember stillUpdated
    by_cases differ : updated.name = slice.name
    · obtain ⟨new, mapped, -, bounded⟩ := placed.updated updated updatedMember stillUpdated
      rw [differ, current, Option.some.injEq] at mapped
      subst mapped
      exact ⟨{ slice with endpoints := filled.1 }, by simp [after, differ], differ.symm,
        bounded.fillSlice r pass.desiredSet⟩
    · rw [other _ differ]
      exact placed.updated updated updatedMember stillUpdated
  · exact placed.nodup
  · exact placed.created
  · exact moved.1
  · exact moved.2.1
  · exact moved.2.2

theorem filterMap_named {names : List String} {slicesByName : String → Option EndpointSlice}
    (keyed : ∀ name ∈ names, ∃ slice, slicesByName name = some slice ∧ slice.name = name) :
    (names.filterMap slicesByName).map (·.name) = names ∧
      ∀ slice ∈ names.filterMap slicesByName, slicesByName slice.name = some slice ∧ slice.name ∈ names := by
  induction names with
  | nil => simp
  | cons name rest ih =>
    obtain ⟨slice, mapped, same⟩ := keyed name List.mem_cons_self
    obtain ⟨names, read⟩ := ih fun other listed => keyed other (List.mem_cons_of_mem _ listed)
    rw [List.filterMap_cons, mapped]
    refine ⟨by simp [names, same], fun other member => ?_⟩
    rcases List.mem_cons.mp member with rfl | later
    · exact ⟨same ▸ mapped, same ▸ List.mem_cons_self⟩
    · exact ⟨(read other later).1, List.mem_cons_of_mem _ (read other later).2⟩

theorem Placed.toUpdate_keyed (placed : Placed r.maxEndpointsPerSlice desired existing pass) :
    ∀ name ∈ pass.sliceNamesToUpdate, ∃ slice, pass.slicesByName name = some slice ∧ slice.name = name := by
  intro name listed
  obtain ⟨old, member, rfl⟩ := List.mem_map.mp (placed.named _ (.inr (.inl listed)))
  obtain ⟨new, mapped, same, -⟩ := placed.updated old member listed
  exact ⟨new, mapped, same⟩

theorem Placed.topUps (named : (existing.map (·.name)).Nodup) : ∀ (slices : List EndpointSlice) (pass : Pass),
    Placed r.maxEndpointsPerSlice desired existing pass → (slices.map (·.name)).Nodup →
      (∀ slice ∈ slices, slice.name ∈ pass.sliceNamesToUpdate ∧ pass.slicesByName slice.name = some slice) →
      Placed r.maxEndpointsPerSlice desired existing
        (slices.foldl (fun pass slice =>
          let (endpoints, desiredSet) := fillSlice r slice.endpoints pass.desiredSet
          { pass with
            slicesByName := Function.update pass.slicesByName slice.name (some { slice with endpoints })
            desiredSet }) pass)
  | [], _, placed, _, _ => placed
  | slice :: rest, pass, placed, distinct, current => by
    obtain ⟨listed, mapped⟩ := current slice List.mem_cons_self
    have next := placed.topUp r named listed mapped
    rw [List.map_cons, List.nodup_cons] at distinct
    refine Placed.topUps named rest _ next distinct.2 fun other member => ?_
    have differ : other.name ≠ slice.name := fun same => distinct.1 (same ▸ List.mem_map_of_mem member)
    obtain ⟨stillListed, stillMapped⟩ := current other (List.mem_cons_of_mem _ member)
    exact ⟨stillListed, by simp [differ, stillMapped]⟩

theorem Placed.fillSlicesToUpdate (orders : Orders) (byLength : ∀ slices, (orders.byLength slices).Perm slices)
    (named : (existing.map (·.name)).Nodup) (placed : Placed r.maxEndpointsPerSlice desired existing pass) :
    Placed r.maxEndpointsPerSlice desired existing (Endpointslice.fillSlicesToUpdate r orders pass) := by
  obtain ⟨names, read⟩ := filterMap_named placed.toUpdate_keyed
  have sorted := byLength (pass.sliceNamesToUpdate.filterMap pass.slicesByName)
  refine Placed.topUps r named _ pass placed ?_ fun slice member => ?_
  · rw [(sorted.map _).nodup_iff, names]
    exact placed.nodup.2.1
  · obtain ⟨mapped, listed⟩ := read slice (sorted.subset member)
    exact ⟨listed, mapped⟩

end Passes

/-! ## The third pass -/

theorem fillSlice_size_lt (r : Reconciler) {endpoints : List Endpoint} {desiredSet : EndpointSet}
    (room : endpoints.length < r.maxEndpointsPerSlice) (pending : 0 < desiredSet.size) :
    (fillSlice r endpoints desiredSet).2.size < desiredSet.size := by
  rw [← Keyed.length_values] at pending ⊢
  rw [← Keyed.length_values, (fillSlice_spec r endpoints desiredSet).2, List.length_drop]
  omega

section Remaining

variable (service : Service) (r : Reconciler) (orders : Orders)

theorem placeRound_spec (pass : Pass) :
    (∃ slice ∈ (orders.unchanged pass.sliceNamesUnchanged).filterMap pass.slicesByName,
        pass.desiredSet.size + slice.endpoints.length ≤ r.maxEndpointsPerSlice ∧
        (slice.name ≠ "" → placeRound service r orders pass =
          { pass with
            slicesByName := Function.update pass.slicesByName slice.name
              (some { slice with endpoints := (fillSlice r slice.endpoints pass.desiredSet).1 })
            sliceNamesUnchanged := pass.sliceNamesUnchanged.erase slice.name
            sliceNamesToUpdate := insertName pass.sliceNamesToUpdate slice.name
            desiredSet := (fillSlice r slice.endpoints pass.desiredSet).2 })) ∨
      placeRound service r orders pass =
        { pass with
          desiredSet := (fillSlice r [] pass.desiredSet).2
          slicesToCreate := pass.slicesToCreate ++
            [{ newEndpointSlice service with endpoints := (fillSlice r [] pass.desiredSet).1 }] } := by
  unfold placeRound
  dsimp only
  split
  · cases picked : getSliceToFill ((orders.unchanged pass.sliceNamesUnchanged).filterMap pass.slicesByName)
        pass.desiredSet.size r.maxEndpointsPerSlice with
    | none => exact .inr rfl
    | some slice =>
      obtain ⟨member, fits⟩ := getSliceToFill_spec picked
      refine .inl ⟨slice, member, fits, fun named => ?_⟩
      simp [named]
  · exact .inr rfl

variable {desired : EndpointSet} {existing : List EndpointSlice} {pass : Pass}

theorem Placed.offered (placed : Placed r.maxEndpointsPerSlice desired existing pass)
    (unchangedOrder : ∀ names, (orders.unchanged names).Perm names) {slice : EndpointSlice}
    (member : slice ∈ (orders.unchanged pass.sliceNamesUnchanged).filterMap pass.slicesByName) :
    slice ∈ existing ∧ slice.name ∈ pass.sliceNamesUnchanged := by
  obtain ⟨name, listed, mapped⟩ := List.mem_filterMap.mp member
  have unchanged := (unchangedOrder _).subset listed
  obtain ⟨old, oldMember, rfl⟩ := List.mem_map.mp (placed.named _ (.inl unchanged))
  obtain ⟨held, -, -⟩ := placed.unchanged old oldMember unchanged
  rw [held, Option.some.injEq] at mapped
  subst mapped
  exact ⟨oldMember, unchanged⟩

theorem Placed.fillUnchanged (placed : Placed r.maxEndpointsPerSlice desired existing pass)
    (named : (existing.map (·.name)).Nodup) {old : EndpointSlice} (member : old ∈ existing)
    (listed : old.name ∈ pass.sliceNamesUnchanged) :
    Placed r.maxEndpointsPerSlice desired existing
      { pass with
        slicesByName := Function.update pass.slicesByName old.name
          (some { old with endpoints := (fillSlice r old.endpoints pass.desiredSet).1 })
        sliceNamesUnchanged := pass.sliceNamesUnchanged.erase old.name
        sliceNamesToUpdate := insertName pass.sliceNamesToUpdate old.name
        desiredSet := (fillSlice r old.endpoints pass.desiredSet).2 } := by
  set filled := fillSlice r old.endpoints pass.desiredSet with filled_def
  set after : Pass := { pass with
    slicesByName := Function.update pass.slicesByName old.name (some { old with endpoints := filled.1 })
    sliceNamesUnchanged := pass.sliceNamesUnchanged.erase old.name
    sliceNamesToUpdate := insertName pass.sliceNamesToUpdate old.name
    desiredSet := filled.2 }
  set taken := pass.desiredSet.values.take (r.maxEndpointsPerSlice - old.endpoints.length)
  have spec := fillSlice_spec r old.endpoints pass.desiredSet
  rw [← filled_def] at spec
  obtain ⟨mapped, notUpdate, notDelete⟩ := placed.unchanged old member listed
  have other : ∀ name, name ≠ old.name → after.slicesByName name = pass.slicesByName name :=
    fun name differ => Function.update_of_ne differ _ _
  have toUpdate : ∀ name, name ≠ old.name →
      (name ∈ after.sliceNamesToUpdate ↔ name ∈ pass.sliceNamesToUpdate) := by
    intro name differ
    simp [after, insertName, List.mem_insert_iff, differ]
  have unchanged : ∀ name, name ∈ after.sliceNamesUnchanged ↔ name ≠ old.name ∧ name ∈ pass.sliceNamesUnchanged :=
    fun name => placed.nodup.1.mem_erase_iff
  have before : pass.entry old = some old := by simp [Pass.entry, notDelete, notUpdate]
  have grown : after.entry old = some { old with endpoints := old.endpoints ++ taken } := by
    simp [after, Pass.entry, notDelete, insertName, List.mem_insert_iff, spec.1, taken]
  have gained := planned_extend named member before grown
    (fun _ _ differ => Pass.entry_congr Iff.rfl (toUpdate _ differ) (other _ differ)) rfl
  have moved := placed.moved r gained (by rw [spec.2, List.take_append_drop])
  constructor
  · intro name held
    by_cases differ : name = old.name
    · exact differ ▸ List.mem_map_of_mem member
    · rw [unchanged, toUpdate _ differ] at held
      exact placed.named name (held.imp And.right id)
  · intro slice sliceMember
    by_cases differ : slice.name = old.name
    · exact .inr (.inl (by simp [after, insertName, List.mem_insert_iff, differ]))
    · rw [unchanged, toUpdate _ differ]
      exact (placed.covered slice sliceMember).imp (And.intro differ) id
  · intro kept keptMember stillUnchanged
    obtain ⟨differ, wasUnchanged⟩ := (unchanged _).mp stillUnchanged
    obtain ⟨keptMapped, keptNotUpdate, keptNotDelete⟩ := placed.unchanged kept keptMember wasUnchanged
    exact ⟨(other _ differ).trans keptMapped, (toUpdate _ differ).not.mpr keptNotUpdate, keptNotDelete⟩
  · intro gone goneMember deleted
    have differ : gone.name ≠ old.name := fun same => notDelete (same ▸ deleted)
    obtain ⟨goneMapped, goneNotUpdate⟩ := placed.deleted gone goneMember deleted
    exact ⟨(other _ differ).trans goneMapped, (toUpdate _ differ).not.mpr goneNotUpdate⟩
  · intro updated updatedMember stillUpdated
    by_cases differ : updated.name = old.name
    · -- names are distinct, so this is the slice filled
      obtain rfl := List.inj_on_of_nodup_map named updatedMember member differ
      exact ⟨{ updated with endpoints := filled.1 }, by simp [after], rfl,
        Bounded.fillSlice r (.inl fun _ held => List.mem_map_of_mem held) pass.desiredSet⟩
    · obtain ⟨new, newMapped, newName, bounded⟩ :=
        placed.updated updated updatedMember ((toUpdate _ differ).mp stillUpdated)
      exact ⟨new, (other _ differ).trans newMapped, newName, bounded⟩
  · exact ⟨placed.nodup.1.erase _, placed.nodup.2.1.insert, placed.nodup.2.2⟩
  · exact placed.created
  · exact moved.1
  · exact moved.2.1
  · exact moved.2.2

theorem Placed.createSlice (placed : Placed r.maxEndpointsPerSlice desired existing pass)
    (room : 0 < r.maxEndpointsPerSlice) (pending : 0 < pass.desiredSet.size) :
    Placed r.maxEndpointsPerSlice desired existing
      { pass with
        desiredSet := (fillSlice r [] pass.desiredSet).2
        slicesToCreate := pass.slicesToCreate ++
          [{ newEndpointSlice service with endpoints := (fillSlice r [] pass.desiredSet).1 }] } := by
  set filled := fillSlice r [] pass.desiredSet with filled_def
  set after : Pass := { pass with
    desiredSet := filled.2
    slicesToCreate := pass.slicesToCreate ++ [{ newEndpointSlice service with endpoints := filled.1 }] }
  have spec := fillSlice_spec r [] pass.desiredSet
  rw [← filled_def, List.length_nil, Nat.sub_zero, List.nil_append] at spec
  have entries : after.entry = pass.entry := rfl
  have gained : (after.planned existing).flatMap EndpointSlice.endpoints =
      (pass.planned existing).flatMap EndpointSlice.endpoints ++
        pass.desiredSet.values.take r.maxEndpointsPerSlice := by
    rw [Pass.planned, Pass.planned, entries]
    simp [after, spec.1]
  have moved := placed.moved r (List.Perm.of_eq gained) (by rw [spec.2, List.take_append_drop])
  have taken : pass.desiredSet.values.take r.maxEndpointsPerSlice ≠ [] := by
    rw [Ne, List.take_eq_nil_iff, not_or]
    refine ⟨Nat.pos_iff_ne_zero.mp room, fun empty => ?_⟩
    rw [← Keyed.length_values, empty, List.length_nil] at pending
    exact Nat.lt_irrefl 0 pending
  refine ⟨placed.named, placed.covered, placed.unchanged, placed.deleted, placed.updated, placed.nodup,
    fun slice member => ?_, moved.1, moved.2.1, moved.2.2⟩
  rcases List.mem_append.mp member with earlier | now
  · exact placed.created slice earlier
  · rw [List.mem_singleton.mp now, spec.1]
    exact ⟨rfl, taken, List.length_take_le _ _⟩

theorem Placed.placeRound (placed : Placed r.maxEndpointsPerSlice desired existing pass)
    (named : (existing.map (·.name)).Nodup) (nonempty : ∀ slice ∈ existing, slice.name ≠ "")
    (unchangedOrder : ∀ names, (orders.unchanged names).Perm names)
    (room : 0 < r.maxEndpointsPerSlice) (pending : 0 < pass.desiredSet.size) :
    Placed r.maxEndpointsPerSlice desired existing (placeRound service r orders pass) ∧
      (placeRound service r orders pass).desiredSet.size < pass.desiredSet.size := by
  rcases placeRound_spec service r orders pass with ⟨slice, offered, fits, round⟩ | round
  · obtain ⟨member, listed⟩ := placed.offered r orders unchangedOrder offered
    rw [round (nonempty slice member)]
    exact ⟨placed.fillUnchanged r named member listed, fillSlice_size_lt r (by omega) pending⟩
  · rw [round]
    exact ⟨placed.createSlice service r room pending, fillSlice_size_lt r room pending⟩

theorem Placed.placeRemaining (named : (existing.map (·.name)).Nodup)
    (nonempty : ∀ slice ∈ existing, slice.name ≠ "")
    (unchangedOrder : ∀ names, (orders.unchanged names).Perm names) (room : 0 < r.maxEndpointsPerSlice) :
    ∀ (fuel : ℕ) (pass : Pass), Placed r.maxEndpointsPerSlice desired existing pass →
      pass.desiredSet.size ≤ fuel →
      ∃ placedPass, placeRemaining service r orders fuel pass = some placedPass ∧
        Placed r.maxEndpointsPerSlice desired existing placedPass ∧ placedPass.desiredSet.size = 0 := by
  intro fuel
  -- each round places an endpoint, so the fuel stays at least what is left
  induction fuel with
  | zero =>
    intro pass placed enough
    have done : pass.desiredSet.size = 0 := Nat.le_zero.mp enough
    exact ⟨pass, by rw [Endpointslice.placeRemaining, if_pos done], placed, done⟩
  | succ fuel ih =>
    intro pass placed enough
    by_cases done : pass.desiredSet.size = 0
    · exact ⟨pass, by rw [Endpointslice.placeRemaining, if_pos done], placed, done⟩
    · obtain ⟨next, fewer⟩ :=
        placed.placeRound service r orders named nonempty unchangedOrder room (Nat.pos_of_ne_zero done)
      obtain ⟨placedPass, ran, result⟩ := ih _ next (by omega)
      exact ⟨placedPass, by rw [Endpointslice.placeRemaining, if_neg done]; exact ran, result⟩

end Remaining

/-! ## The result -/

/-- The slices once a result is applied to the existing ones: those to delete are gone, those to
update are replaced by their new versions, and those to create are added. -/
def Reconciled.apply (result : Reconciled) (existing : List EndpointSlice) : List EndpointSlice :=
  existing.filterMap (fun slice =>
      if slice.name ∈ result.slicesToDelete.map (·.name) then none
      else some ((result.slicesToUpdate.find? (·.name == slice.name)).getD slice)) ++
    result.slicesToCreate

theorem find?_named {slices : List EndpointSlice} {slicesByName : String → Option EndpointSlice}
    (read : ∀ slice ∈ slices, slicesByName slice.name = some slice) {name : String}
    (listed : name ∈ slices.map (·.name)) :
    slices.find? (·.name == name) = slicesByName name := by
  obtain ⟨slice, member, rfl⟩ := List.mem_map.mp listed
  have found : (slices.find? (·.name == slice.name)).isSome :=
    List.find?_isSome.mpr ⟨slice, member, beq_self_eq_true _⟩
  obtain ⟨first, firstFound⟩ := Option.isSome_iff_exists.mp found
  have matched := List.find?_some firstFound
  have same : first.name = slice.name := beq_iff_eq.mp matched
  rw [firstFound, ← same, read first (List.mem_of_find?_eq_some firstFound)]

section Result

variable (r : Reconciler) {desired : EndpointSet} {existing : List EndpointSlice} {pass : Pass}

theorem Placed.toDelete_keyed (placed : Placed r.maxEndpointsPerSlice desired existing pass) :
    ∀ name ∈ pass.sliceNamesToDelete, ∃ slice, pass.slicesByName name = some slice ∧ slice.name = name := by
  intro name listed
  obtain ⟨old, member, rfl⟩ := List.mem_map.mp (placed.named _ (.inr (.inr listed)))
  exact ⟨old, (placed.deleted old member listed).1, rfl⟩

theorem Placed.apply_eq_planned (placed : Placed r.maxEndpointsPerSlice desired existing pass)
    (numAdded numRemoved : ℕ) :
    (⟨pass.slicesToCreate, pass.sliceNamesToUpdate.filterMap pass.slicesByName,
        pass.sliceNamesToDelete.filterMap pass.slicesByName, numAdded, numRemoved⟩ : Reconciled).apply
        existing =
      pass.planned existing := by
  obtain ⟨updateNames, updateRead⟩ := filterMap_named placed.toUpdate_keyed
  obtain ⟨deleteNames, -⟩ := filterMap_named placed.toDelete_keyed
  rw [Reconciled.apply, Pass.planned]
  congr 1
  refine List.filterMap_congr fun slice member => ?_
  dsimp only
  rw [deleteNames, Pass.entry]
  by_cases deleted : slice.name ∈ pass.sliceNamesToDelete
  · rw [if_pos deleted, if_pos deleted]
  rw [if_neg deleted, if_neg deleted]
  by_cases updated : slice.name ∈ pass.sliceNamesToUpdate
  · -- the new version is found under the slice's name
    obtain ⟨new, mapped, -, -⟩ := placed.updated slice member updated
    rw [if_pos updated, find?_named (fun other listed => (updateRead other listed).1) (by rw [updateNames]; exact updated),
      mapped, Option.getD_some]
  · -- no slice to update has its name, so it stays as it is
    have absent : (pass.sliceNamesToUpdate.filterMap pass.slicesByName).find? (·.name == slice.name) = none :=
      List.find?_eq_none.mpr fun other listed same =>
        updated (beq_iff_eq.mp same ▸ (updateRead other listed).2)
    rw [if_neg updated, absent, Option.getD_none]

end Result

section Run

variable (service : Service) (r : Reconciler) (orders : Orders)

theorem reconcileByPortMapping_placed (existing : List EndpointSlice) (desiredSet : EndpointSet)
    (room : 0 < r.maxEndpointsPerSlice) (byLength : ∀ slices, (orders.byLength slices).Perm slices)
    (unchangedOrder : ∀ names, (orders.unchanged names).Perm names)
    (named : (existing.map (·.name)).Nodup) (nonempty : ∀ slice ∈ existing, slice.name ≠ "") :
    ∃ pass numAdded, reconcileByPortMapping service r orders existing desiredSet =
        some ⟨pass.slicesToCreate, pass.sliceNamesToUpdate.filterMap pass.slicesByName,
          pass.sliceNamesToDelete.filterMap pass.slicesByName, numAdded, pass.numRemoved⟩ ∧
      Placed r.maxEndpointsPerSlice desiredSet existing pass ∧ pass.desiredSet.size = 0 := by
  obtain ⟨first, -⟩ := Placed.firstPass service existing [] _ (placed_start r.maxEndpointsPerSlice desiredSet)
    rfl (by simpa using named)
  rw [List.nil_append] at first
  unfold reconcileByPortMapping
  dsimp only
  generalize existing.foldl (reconcileExisting service) ⟨fun _ => none, [], [], [], 0, desiredSet, []⟩ =
    firstPass at first ⊢
  -- the second pass runs where something is left and a slice is to be updated
  have second : Placed r.maxEndpointsPerSlice desiredSet existing
      (if 0 < firstPass.desiredSet.size ∧ firstPass.sliceNamesToUpdate ≠ [] then
        fillSlicesToUpdate r orders firstPass else firstPass) := by
    split
    · exact first.fillSlicesToUpdate r orders byLength named
    · exact first
  generalize (if 0 < firstPass.desiredSet.size ∧ firstPass.sliceNamesToUpdate ≠ [] then
    fillSlicesToUpdate r orders firstPass else firstPass) = secondPass at second ⊢
  obtain ⟨placedPass, ran, placed, done⟩ :=
    Placed.placeRemaining service r orders named nonempty unchangedOrder room _ _ second le_rfl
  rw [ran]
  exact ⟨placedPass, _, rfl, placed, done⟩

/-- The packing places each desired endpoint once: the final slices hold the desired hashes,
each once and no other, every endpoint they hold is the desired one of its hash or equal to it
beyond the hash, the slices to update and to delete are existing slices of disjoint names, a
created slice is within the limit, and so is an updated slice that holds a hash it did not. -/
theorem reconcileByPortMapping_packs_each_endpoint_once (existing : List EndpointSlice)
    (desiredSet : EndpointSet) (room : 1 ≤ r.maxEndpointsPerSlice)
    (byLength : ∀ slices, (orders.byLength slices).Perm slices)
    (unchangedOrder : ∀ names, (orders.unchanged names).Perm names)
    (named : (existing.map (·.name)).Nodup) (nonempty : ∀ slice ∈ existing, slice.name ≠ "") :
    ∃ result, reconcileByPortMapping service r orders existing desiredSet = some result ∧
      (((result.apply existing).flatMap EndpointSlice.endpoints).map hashEndpoint).Perm
        (desiredSet.values.map hashEndpoint) ∧
      (∀ slice ∈ result.apply existing, ∀ endpoint ∈ slice.endpoints, Matches desiredSet endpoint) ∧
      (∀ slice ∈ result.slicesToUpdate ++ result.slicesToDelete, slice.name ∈ existing.map (·.name)) ∧
      (result.slicesToUpdate.map (·.name)).Disjoint (result.slicesToDelete.map (·.name)) ∧
      (∀ slice ∈ result.slicesToCreate, slice.endpoints.length ≤ r.maxEndpointsPerSlice) ∧
      ∀ slice ∈ result.slicesToUpdate, ∃ old ∈ existing, old.name = slice.name ∧
        Bounded r.maxEndpointsPerSlice old slice := by
  obtain ⟨pass, numAdded, ran, placed, done⟩ :=
    reconcileByPortMapping_placed service r orders existing desiredSet room byLength unchangedOrder named nonempty
  have planned := placed.apply_eq_planned r numAdded pass.numRemoved
  have left : pass.desiredSet.values = [] := List.eq_nil_of_length_eq_zero (Keyed.length_values.trans done)
  obtain ⟨updateNames, updateRead⟩ := filterMap_named placed.toUpdate_keyed
  obtain ⟨deleteNames, deleteRead⟩ := filterMap_named (placed.toDelete_keyed r)
  refine ⟨_, ran, ?_, ?_, ?_, ?_, ?_, ?_⟩
  · -- nothing is left, so the plan holds every desired hash
    rw [planned]
    simpa [left] using placed.keys
  · rw [planned]
    exact placed.matched
  · intro slice member
    rcases List.mem_append.mp member with updated | deleted
    · exact placed.named _ (.inr (.inl (updateRead slice updated).2))
    · exact placed.named _ (.inr (.inr (deleteRead slice deleted).2))
  · rw [updateNames, deleteNames]
    intro name updated deleted
    obtain ⟨old, member, rfl⟩ := List.mem_map.mp (placed.named _ (.inr (.inr deleted)))
    exact (placed.deleted old member deleted).2 updated
  · exact fun slice member => (placed.created slice member).2.2
  · intro slice member
    obtain ⟨mapped, listed⟩ := updateRead slice member
    obtain ⟨old, oldMember, same⟩ := List.mem_map.mp (placed.named _ (.inr (.inl listed)))
    obtain ⟨new, newMapped, -, bounded⟩ := placed.updated old oldMember (same ▸ listed)
    rw [same, mapped, Option.some.injEq] at newMapped
    exact ⟨old, oldMember, same, newMapped ▸ bounded⟩

end Run

namespace Runs

/-- An endpoint ready and serving, and the copy of it an existing slice holds from before its
`Serving` condition was set. -/
def servingEndpoint : Endpoint := ⟨["10.0.0.1"], none, ⟨some true, some true, none⟩, none, none, none⟩

def staleEndpoint : Endpoint := { servingEndpoint with conditions := ⟨some true, none, none⟩ }

def webService : Service := ⟨"web", [], "10.96.0.10"⟩

def staleSlice : EndpointSlice :=
  ⟨"web-abc", [(labelServiceName, "web"), (labelManagedBy, controllerName)], [staleEndpoint]⟩

def desiredServing : EndpointSet := Keyed.empty.put servingEndpoint

theorem packs_serving_endpoint :
    1 ≤ (⟨100⟩ : Reconciler).maxEndpointsPerSlice ∧ ([staleSlice].map (·.name)).Nodup ∧
      (∀ slice ∈ [staleSlice], slice.name ≠ "") ∧
      ∃ result, reconcileByPortMapping webService ⟨100⟩ ⟨id, id⟩ [staleSlice] desiredServing = some result ∧
        (((result.apply [staleSlice]).flatMap EndpointSlice.endpoints).map hashEndpoint).Perm
          (desiredServing.values.map hashEndpoint) ∧
        (∀ slice ∈ result.apply [staleSlice], ∀ endpoint ∈ slice.endpoints, Matches desiredServing endpoint) ∧
        (∀ slice ∈ result.slicesToUpdate ++ result.slicesToDelete, slice.name ∈ [staleSlice].map (·.name)) ∧
        (result.slicesToUpdate.map (·.name)).Disjoint (result.slicesToDelete.map (·.name)) ∧
        (∀ slice ∈ result.slicesToCreate, slice.endpoints.length ≤ 100) ∧
        ∀ slice ∈ result.slicesToUpdate, ∃ old ∈ [staleSlice], old.name = slice.name ∧ Bounded 100 old slice :=
  ⟨by decide, by decide, by decide,
    reconcileByPortMapping_packs_each_endpoint_once webService ⟨100⟩ ⟨id, id⟩ [staleSlice] desiredServing
      (by decide) (fun _ => List.Perm.refl _) (fun _ => List.Perm.refl _) (by decide) (by decide)⟩

/-- The slice keeps its copy of the endpoint, equal to the desired one beyond the hash, and the
desired version is in no final slice. -/
theorem stale_endpoint_stays_in_unchanged_slice :
    ∃ result, reconcileByPortMapping webService ⟨100⟩ ⟨id, id⟩ [staleSlice] desiredServing = some result ∧
      result.apply [staleSlice] = [staleSlice] ∧ servingEndpoint ∈ desiredServing.values ∧
      servingEndpoint ∉ staleSlice.endpoints := by
  have applied : (reconcileByPortMapping webService ⟨100⟩ ⟨id, id⟩ [staleSlice] desiredServing).map
      (·.apply [staleSlice]) = some [staleSlice] := by decide +kernel
  obtain ⟨result, ran, same⟩ := Option.map_eq_some_iff.mp applied
  exact ⟨result, ran, same, by decide +kernel, by decide⟩

end Runs

end Kubernetes.Controller.Endpointslice
