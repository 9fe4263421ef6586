import Joker.Data.SurfaceFetch

/-!
# A complete surface is the whole surface

Library `Data`. The snapshots that a fetch has collected are of SPY and of the date and have
distinct ids, whatever the provider does; as long as no failure is recorded, they have every id
asked for so far. With as many snapshots as contracts selected, they are those of the selection.
-/

namespace Joker.Data

open Joker.Base Joker.Broker

variable {F Q : Type} {exp : Date}

/-! ### One batch -/

/-- A snapshot that passes all checks. -/
theorem snapshotFailure_eq_none {seenIds : List String} {valid : Dict String (OptionSnapshot F Q)}
    {snap : OptionSnapshot F Q} : snapshotFailure exp seenIds valid snap = none ↔
      snap.contract.eligible exp = true ∧ valid.get? snap.key = none ∧ snap.key ∉ seenIds := by
  unfold snapshotFailure OptionContractMetadata.eligible OptionContractMetadata.isOf
  by_cases hsymbol : snap.contract.symbol = allowedSymbol
  · by_cases hexp : snap.contract.expiration = exp
    · by_cases hkey : snap.key = ""
      · have hkey' : snap.contract.key = "" := hkey
        simp [hsymbol, hexp, hkey, hkey']
      · have hkey' : snap.contract.key ≠ "" := hkey
        by_cases hdup : (valid.get? snap.key).isSome ∨ snap.key ∈ seenIds
        · simp only [hsymbol, hexp, hkey, hdup, ne_eq, not_true_eq_false, if_false, if_true]
          simp only [reduceCtorEq, false_iff]
          rintro ⟨-, hnone, hnew⟩
          obtain hsome | hold := hdup
          · rw [hnone] at hsome
            exact absurd hsome (by simp)
          · exact hnew hold
        · obtain ⟨hnone, hnew⟩ := not_or.mp hdup
          simp [hsymbol, hexp, hkey, hkey', Option.not_isSome_iff_eq_none.mp hnone, hnew]
    · simp [hsymbol, hexp]
  · simp [hsymbol]

/-- What a batch's loop keeps: its snapshots are under their own ids, eligible and new. -/
def ReturnedValid (exp : Date) (seenIds : List String)
    (valid : Dict String (OptionSnapshot F Q)) : Prop :=
  ∀ k snap, valid.get? k = some snap →
    k = snap.key ∧ snap.contract.eligible exp = true ∧ k ∉ seenIds

/-- One turn keeps it, and forgets no failure. -/
theorem receive_valid (label : String) {seenIds : List String} {returned : Returned F Q}
    (snap : OptionSnapshot F Q) (h : ReturnedValid exp seenIds returned.valid) :
    ReturnedValid exp seenIds (receive exp label seenIds returned snap).valid ∧
      ((receive exp label seenIds returned snap).failed = [] → returned.failed = []) := by
  unfold receive
  cases hfail : snapshotFailure exp seenIds returned.valid snap with
  | some failure => exact ⟨h, fun hnil ↦ absurd hnil (by simp)⟩
  | none =>
    obtain ⟨heligible, -, hnew⟩ := snapshotFailure_eq_none.mp hfail
    refine ⟨?_, id⟩
    intro k got hget
    rw [Dict.get?_set] at hget
    split at hget
    · next hk =>
      obtain rfl := Option.some.inj hget
      exact ⟨hk.symm, heligible, hk ▸ hnew⟩
    · exact h k got hget

/-- The loop over a batch's snapshots. -/
theorem receive_fold (label : String) {seenIds : List String} (snaps : List (OptionSnapshot F Q))
    (returned : Returned F Q) (h : ReturnedValid exp seenIds returned.valid) :
    ReturnedValid exp seenIds (snaps.foldl (receive exp label seenIds) returned).valid ∧
      ((snaps.foldl (receive exp label seenIds) returned).failed = [] →
        returned.failed = []) := by
  induction snaps generalizing returned with
  | nil => exact ⟨h, id⟩
  | cons snap rest ih =>
    obtain ⟨hvalid, hfailed⟩ := receive_valid label snap h
    exact ⟨(ih _ hvalid).1, fun hnil ↦ hfailed ((ih _ hvalid).2 hnil)⟩

/-- Entries under their own ids have the ids of their values. -/
theorem map_key_values {seenIds : List String} {valid : Dict String (OptionSnapshot F Q)}
    (h : ReturnedValid exp seenIds valid) : valid.values.map OptionSnapshot.key = valid.keys := by
  simp only [Dict.values, Dict.keys, List.map_map]
  apply List.map_congr_left
  rintro ⟨k, snap⟩ hmem
  exact (h k snap ((Dict.mem_entries_iff _ _ _).mp hmem)).1.symm

/-! ### All batches -/

variable {provider : OptionsDataProvider F Q} {size : ℕ}
  {selected : List (OptionContractMetadata F)}

/-- What the loop over the batches keeps, whatever the provider does: the snapshots are eligible
and have distinct ids, the ones it has seen. -/
structure FetchState.Sound (exp : Date) (state : FetchState F Q) : Prop where
  distinct : (state.snapshots.map OptionSnapshot.key).Nodup
  seen : state.seenIds = state.snapshots.map OptionSnapshot.key
  eligible : ∀ snap ∈ state.snapshots, snap.contract.eligible exp = true

/-- One batch keeps it. -/
theorem sound_fetchBatch {state : FetchState F Q} (h : state.Sound exp) (start : ℕ) :
    (fetchBatch provider exp size selected state start).Sound exp := by
  simp only [fetchBatch]
  split
  · exact ⟨h.distinct, h.seen, h.eligible⟩
  · next snaps _ =>
    have hempty : ReturnedValid (Q := Q) (F := F) exp state.seenIds Dict.empty :=
      fun k snap hget ↦ absurd hget (by simp)
    generalize hreturned : List.foldl _ _ snaps = returned
    have hvalid : ReturnedValid exp state.seenIds returned.valid :=
      hreturned ▸ (receive_fold _ snaps _ hempty).1
    have hkeys := map_key_values hvalid
    refine ⟨?_, ?_, ?_⟩
    · rw [List.map_append, hkeys, List.nodup_append]
      refine ⟨h.distinct, returned.valid.nodup, ?_⟩
      rintro k hold _ hnew rfl
      obtain ⟨snap, hget⟩ := (Dict.mem_keys_iff _ _).mp hnew
      exact (hvalid k snap hget).2.2 (h.seen ▸ hold)
    · rw [List.map_append, hkeys, h.seen]
    · intro snap hmem
      obtain hold | hnew := List.mem_append.mp hmem
      · exact h.eligible snap hold
      · obtain ⟨k, hget⟩ := (Dict.mem_values_iff _ _).mp hnew
        exact (hvalid k snap hget).2.1

/-- A batch without a recorded failure follows none, and has brought every id asked for. -/
theorem covers_fetchBatch {state : FetchState F Q} {start : ℕ}
    (h : (fetchBatch provider exp size selected state start).failed = []) :
    state.failed = [] ∧
      state.snapshots.map OptionSnapshot.key ⊆
        (fetchBatch provider exp size selected state start).snapshots.map OptionSnapshot.key ∧
      ∀ contract ∈ slice size selected start, contract.key ∈
        (fetchBatch provider exp size selected state start).snapshots.map OptionSnapshot.key := by
  simp only [fetchBatch] at h ⊢
  split at h
  · exact absurd h (by simp)
  · next snaps _ =>
    have hempty : ReturnedValid (Q := Q) (F := F) exp state.seenIds Dict.empty :=
      fun k snap hget ↦ absurd hget (by simp)
    generalize hreturned : List.foldl _ _ snaps = returned at h ⊢
    obtain ⟨hvalid, hfailed⟩ := hreturned ▸ receive_fold
      (batchLabel start (slice size selected start).length) snaps
      ⟨Dict.empty, state.failed, state.complete⟩ hempty
    split at h
    · next hmissing =>
      refine ⟨hfailed h, ?_, ?_⟩
      · rw [List.map_append]
        exact List.subset_append_left _ _
      · intro contract hcontract
        rw [List.map_append, map_key_values hvalid]
        apply List.mem_append_right
        by_contra habsent
        have hnone := (Dict.not_mem_keys_iff _ _).mp habsent
        have hmem : contract.key ∈ ((slice size selected start).map
            OptionContractMetadata.key).filter (fun id ↦ (returned.valid.get? id).isNone) :=
          List.mem_filter.mpr ⟨List.mem_map_of_mem hcontract, by simp [hnone]⟩
        rw [hmissing] at hmem
        exact absurd hmem (by simp)
    · exact absurd h (by simp)

/-- The state before the first batch. -/
theorem sound_start (failed : List String) (complete : Bool) :
    (⟨[], [], failed, complete⟩ : FetchState F Q).Sound exp :=
  ⟨List.nodup_nil, rfl, fun _ h ↦ absurd h (by simp)⟩

/-- The snapshots after any batches. -/
theorem sound_run {state : FetchState F Q} (h : state.Sound exp) (starts : List ℕ) :
    (run (fetchBatch provider exp size selected) state starts).Sound exp :=
  run_invariant (I := FetchState.Sound exp) (L := fun _ ↦ True)
    (fun _ start hs _ ↦ sound_fetchBatch hs start) starts (fun _ _ ↦ trivial) h

/-- Without a recorded failure every id of the batches has come. -/
theorem covers_run {state : FetchState F Q} (starts : List ℕ)
    (h : (run (fetchBatch provider exp size selected) state starts).failed = []) :
    state.failed = [] ∧ ∀ contract ∈ starts.flatMap (slice size selected), contract.key ∈
      (run (fetchBatch provider exp size selected) state starts).snapshots.map
        OptionSnapshot.key := by
  induction starts using List.reverseRecOn with
  | nil => exact ⟨h, fun _ hc ↦ absurd hc (by simp)⟩
  | append_singleton starts start ih =>
    rw [run_snoc] at h ⊢
    obtain ⟨hbefore, hkept, hnew⟩ := covers_fetchBatch h
    obtain ⟨hstart, hold⟩ := ih hbefore
    refine ⟨hstart, ?_⟩
    intro contract hcontract
    rw [List.flatMap_append, List.mem_append] at hcontract
    obtain hcontract | hcontract := hcontract
    · exact hkept (hold contract hcontract)
    · exact hnew contract (by simpa using hcontract)

/-! ### Exact answers -/

/-- A batch is answered with one snapshot of SPY and of the date for every id asked for, in some
order, and with nothing else. -/
def AnswersExactly (provider : OptionsDataProvider F Q) (exp : Date)
    (batch : List (OptionContractMetadata F)) (start : ℕ) : Prop :=
  provider.acquired start = .ok () ∧ ∃ snaps, provider.getOptionSnapshots start = .ok snaps ∧
    (snaps.map OptionSnapshot.key).Perm (batch.map OptionContractMetadata.key) ∧
    ∀ snap ∈ snaps, snap.contract.isOf exp = true

/-- Eligible snapshots with distinct and new ids are all taken, without a failure. -/
theorem receive_fold_exact (label : String) (seenIds : List String)
    (snaps : List (OptionSnapshot F Q)) (returned : Returned F Q)
    (hdistinct : (snaps.map OptionSnapshot.key).Nodup)
    (heligible : ∀ snap ∈ snaps, snap.contract.eligible exp = true)
    (hnew : ∀ snap ∈ snaps, returned.valid.get? snap.key = none ∧ snap.key ∉ seenIds) :
    let after := snaps.foldl (receive exp label seenIds) returned
    after.failed = returned.failed ∧ after.complete = returned.complete ∧
      after.valid.keys = returned.valid.keys ++ snaps.map OptionSnapshot.key := by
  induction snaps generalizing returned with
  | nil => simp
  | cons snap rest ih =>
    obtain ⟨hhead, htail⟩ := List.nodup_cons.mp hdistinct
    obtain ⟨hnone, hunseen⟩ := hnew snap List.mem_cons_self
    have hpass : snapshotFailure exp seenIds returned.valid snap = none :=
      snapshotFailure_eq_none.mpr ⟨heligible snap List.mem_cons_self, hnone, hunseen⟩
    have hstep : receive exp label seenIds returned snap =
        { returned with valid := returned.valid.set snap.key snap } := by
      simp only [receive, hpass]
    have hrest := ih { returned with valid := returned.valid.set snap.key snap } htail
      (fun s hs ↦ heligible s (List.mem_cons_of_mem snap hs)) (by
        intro s hs
        obtain ⟨hsnone, hsunseen⟩ := hnew s (List.mem_cons_of_mem snap hs)
        have hne : snap.key ≠ s.key := fun heq ↦ hhead (heq ▸ List.mem_map_of_mem hs)
        exact ⟨by rw [Dict.get?_set_ne _ _ hne, hsnone], hsunseen⟩)
    have hkeys : (returned.valid.set snap.key snap).keys = returned.valid.keys ++ [snap.key] := by
      rw [Dict.keys, Dict.entries_set_of_absent _ _ _ hnone, List.map_append]
      rfl
    rw [List.foldl_cons, hstep]
    refine ⟨hrest.1, hrest.2.1, ?_⟩
    rw [hrest.2.2, hkeys, List.map_cons, List.append_assoc, List.singleton_append]

/-- A batch that is answered exactly adds the ids asked for, and no failure. -/
theorem exact_fetchBatch {state : FetchState F Q} {start : ℕ}
    (hanswer : AnswersExactly provider exp (slice size selected start) start)
    (heligible : ∀ contract ∈ slice size selected start, contract.key ≠ "")
    (hdistinct : (state.seenIds ++
      (slice size selected start).map OptionContractMetadata.key).Nodup) :
    let after := fetchBatch provider exp size selected state start
    after.failed = state.failed ∧ after.complete = state.complete ∧
      (after.snapshots.map OptionSnapshot.key).Perm (state.snapshots.map OptionSnapshot.key ++
        (slice size selected start).map OptionContractMetadata.key) := by
  intro after
  obtain ⟨hacquired, snaps, hsnaps, hperm, hof⟩ := hanswer
  obtain ⟨-, hnodup, hdisjoint⟩ := List.nodup_append.mp hdistinct
  have hasked : ∀ snap ∈ snaps, snap.key ∈
      (slice size selected start).map OptionContractMetadata.key := fun snap hsnap ↦
    hperm.mem_iff.mp (List.mem_map_of_mem hsnap)
  have hall : ∀ snap ∈ snaps, snap.contract.eligible exp = true := by
    intro snap hsnap
    obtain ⟨contract, hcontract, hkey⟩ := List.mem_map.mp (hasked snap hsnap)
    have hne : snap.contract.key ≠ "" := by
      change snap.key ≠ ""
      rw [← hkey]
      exact heligible contract hcontract
    simp [OptionContractMetadata.eligible, hof snap hsnap, hne]
  have hfold := receive_fold_exact (batchLabel start (slice size selected start).length)
    state.seenIds snaps ⟨Dict.empty, state.failed, state.complete⟩ (hperm.nodup_iff.mpr hnodup)
    hall (fun snap hsnap ↦
      ⟨Dict.get?_empty _, fun hseen ↦ hdisjoint _ hseen _ (hasked snap hsnap) rfl⟩)
  have hafter : after = fetchBatch provider exp size selected state start := rfl
  simp only [fetchBatch, hacquired, hsnaps, bind, Except.bind] at hafter
  generalize hreturned : List.foldl _ _ snaps = returned at hfold hafter
  obtain ⟨hfailed, hcomplete, hkeys⟩ := hfold
  have hkeys' : returned.valid.keys = snaps.map OptionSnapshot.key := hkeys
  have hmissing : ((slice size selected start).map OptionContractMetadata.key).filter
      (fun id ↦ (returned.valid.get? id).isNone) = [] := by
    rw [List.filter_eq_nil_iff]
    intro id hid hnone
    have habsent := (Dict.not_mem_keys_iff _ _).mpr (Option.isNone_iff_eq_none.mp hnone)
    rw [hkeys'] at habsent
    exact habsent (hperm.mem_iff.mpr hid)
  have hvalid : ReturnedValid exp state.seenIds returned.valid := by
    rw [← hreturned]
    exact (receive_fold _ snaps _ (fun k snap hget ↦ absurd hget (by simp))).1
  rw [hafter]
  simp only [hmissing, if_true, decide_true, Bool.and_true]
  refine ⟨hfailed, hcomplete, ?_⟩
  rw [List.map_append, map_key_values hvalid, hkeys']
  exact hperm.append_left _

/-- Batches that are answered exactly bring the ids asked for, and no failure. -/
theorem exact_run (failed : List String) (complete : Bool) (starts : List ℕ)
    (hanswers : ∀ start ∈ starts, AnswersExactly provider exp (slice size selected start) start)
    (heligible : ∀ contract ∈ selected, contract.key ≠ "")
    (hdistinct : ((starts.flatMap (slice size selected)).map
      OptionContractMetadata.key).Nodup) :
    let after := run (fetchBatch provider exp size selected) ⟨[], [], failed, complete⟩ starts
    after.failed = failed ∧ after.complete = complete ∧
      (after.snapshots.map OptionSnapshot.key).Perm
        ((starts.flatMap (slice size selected)).map OptionContractMetadata.key) := by
  induction starts using List.reverseRecOn with
  | nil => simp
  | append_singleton starts start ih =>
    rw [List.flatMap_append, List.map_append, List.flatMap_singleton] at hdistinct
    obtain ⟨hfailed, hcomplete, hperm⟩ := ih
      (fun s hs ↦ hanswers s (List.mem_append_left _ hs)) (List.nodup_append.mp hdistinct).1
    have hsound : (run (fetchBatch provider exp size selected) ⟨[], [], failed, complete⟩
        starts).Sound exp := sound_run (sound_start failed complete) starts
    obtain ⟨hfailed', hcomplete', hperm'⟩ := exact_fetchBatch
      (hanswers start (List.mem_append_right _ (List.mem_singleton_self start)))
      (fun contract hc ↦ heligible contract ((slice_sublist size selected start).subset hc)) (by
        rw [hsound.seen]
        exact (hperm.append_right _).nodup_iff.mpr hdistinct)
    rw [run_snoc]
    refine ⟨hfailed'.trans hfailed, hcomplete'.trans hcomplete, ?_⟩
    rw [List.flatMap_append, List.map_append, List.flatMap_singleton]
    exact hperm'.trans (hperm.append_right _)

/-! ### The fetch -/

/-- One snapshot for every SPY contract with an id and of the date, known by the ids, all of SPY
and of the date, and nothing else. -/
def CoversExactly (exp : Date) (contracts : List (OptionContractMetadata F))
    (snapshots : List (OptionSnapshot F Q)) : Prop :=
  (snapshots.map OptionSnapshot.key).Perm
    ((contracts.filter (·.eligible exp)).map OptionContractMetadata.key) ∧
    ∀ snap ∈ snapshots, snap.contract.isOf exp = true

/-- The selection is there, the emergency limit does not cut it, and every batch of it is answered
exactly. -/
structure FullyAnswered (provider : OptionsDataProvider F Q) (underlyingPrice : F) (exp : Date)
    (contracts : List (OptionContractMetadata F)) (maxContracts : Option ℤ) (batchSize : ℤ) :
    Prop where
  selected : provider.selection underlyingPrice exp contracts ≠ []
  uncut : emergencyLimit maxContracts (provider.selection underlyingPrice exp contracts).length =
    none
  answered : ∀ start ∈ sliceStarts (max 1 batchSize).toNat
      (provider.selection underlyingPrice exp contracts).length,
    AnswersExactly provider exp (slice (max 1 batchSize).toNat
      (provider.selection underlyingPrice exp contracts) start) start

/-- The selection is the eligible contracts, in some order. -/
theorem selection_perm (provider : OptionsDataProvider F Q) (underlyingPrice : F) (exp : Date)
    (contracts : List (OptionContractMetadata F)) :
    (provider.selection underlyingPrice exp contracts).Perm
      (contracts.filter (·.eligible exp)) :=
  List.perm_insertionSort _ _

/-- The keys of the eligible contracts are ids of the discovered ones. -/
theorem keys_eligible_sublist (exp : Date) (contracts : List (OptionContractMetadata F)) :
    ((contracts.filter (·.eligible exp)).map OptionContractMetadata.key).Sublist
      (contracts.filterMap OptionContractMetadata.contractId) := by
  induction contracts with
  | nil => simp
  | cons contract rest ih =>
    cases hid : contract.contractId with
    | none =>
      have hkey : contract.eligible exp = false := by
        simp [OptionContractMetadata.eligible, OptionContractMetadata.key, hid]
      simpa [hid, hkey] using ih
    | some id =>
      have hkey : contract.key = id := by simp [OptionContractMetadata.key, hid]
      by_cases heligible : contract.eligible exp = true
      · simpa [hid, hkey, heligible] using ih
      · simpa [hid, heligible] using ih.cons id

/-- Distinct ids stay distinct in the selection. -/
theorem nodup_keys_selection (provider : OptionsDataProvider F Q) (underlyingPrice : F)
    (exp : Date) {contracts : List (OptionContractMetadata F)}
    (h : (contracts.filterMap OptionContractMetadata.contractId).Nodup) :
    ((provider.selection underlyingPrice exp contracts).map OptionContractMetadata.key).Nodup := by
  rw [((selection_perm provider underlyingPrice exp contracts).map _).nodup_iff]
  exact List.Nodup.sublist (keys_eligible_sublist exp contracts) h

/-- The batches of a positive size are the whole selection. -/
theorem flatMap_batches (batchSize : ℤ) (selected : List (OptionContractMetadata F)) :
    (sliceStarts (max 1 batchSize).toNat selected.length).flatMap
      (slice (max 1 batchSize).toNat selected) = selected := by
  apply flatMap_slice
  have := le_max_left 1 batchSize
  omega

/-- A complete fetch of selected contracts has brought as many snapshots, without a failure. -/
theorem batches_of_complete {batchSize : ℤ} {discoveredCount : ℕ} {failed : List String}
    {truncated : Bool}
    (h : (fetchSelected provider exp batchSize discoveredCount selected failed truncated).complete =
      true) :
    let after := run (fetchBatch provider exp (max 1 batchSize).toNat selected)
      ⟨[], [], failed, !truncated⟩ (sliceStarts (max 1 batchSize).toNat selected.length)
    after.failed = [] ∧ after.snapshots.length = selected.length := by
  simp only [fetchSelected, Bool.and_eq_true, decide_eq_true_eq, Bool.not_eq_true',
    decide_eq_false_iff_not, ne_eq, not_not] at h
  exact ⟨h.1.2, h.2⟩

/-- A complete fetch of selected contracts reports no batch, and started without a failure. -/
theorem fetchSelected_clean {batchSize : ℤ} {discoveredCount : ℕ} {failed : List String}
    {truncated : Bool}
    (h : (fetchSelected provider exp batchSize discoveredCount selected failed truncated).complete =
      true) :
    failed = [] ∧ (fetchSelected provider exp batchSize discoveredCount selected failed
      truncated).failedBatches = [] := by
  obtain ⟨hnone, hlength⟩ := batches_of_complete h
  exact ⟨(covers_run _ hnone).1, by simp [fetchSelected, hlength, hnone]⟩

/-- The snapshots of a complete fetch of selected contracts have the ids selected. -/
theorem fetchSelected_sound {batchSize : ℤ} {discoveredCount : ℕ} {failed : List String}
    {truncated : Bool} (hnodup : (selected.map OptionContractMetadata.key).Nodup)
    (h : (fetchSelected provider exp batchSize discoveredCount selected failed truncated).complete =
      true) :
    ((fetchSelected provider exp batchSize discoveredCount selected failed
        truncated).snapshots.map OptionSnapshot.key).Perm
          (selected.map OptionContractMetadata.key) ∧
      ∀ snap ∈ (fetchSelected provider exp batchSize discoveredCount selected failed
        truncated).snapshots, snap.contract.isOf exp = true := by
  obtain ⟨hnone, hlength⟩ := batches_of_complete h
  simp only [fetchSelected]
  have hsound : (run (fetchBatch provider exp (max 1 batchSize).toNat selected)
      ⟨[], [], failed, !truncated⟩
      (sliceStarts (max 1 batchSize).toNat selected.length)).Sound exp :=
    sound_run (sound_start failed _) _
  obtain ⟨-, hcovers⟩ := covers_run _ hnone
  rw [flatMap_batches] at hcovers
  refine ⟨?_, ?_⟩
  · have hsubset : selected.map OptionContractMetadata.key ⊆
        (run (fetchBatch provider exp (max 1 batchSize).toNat selected)
          ⟨[], [], failed, !truncated⟩
          (sliceStarts (max 1 batchSize).toNat selected.length)).snapshots.map
            OptionSnapshot.key := by
      intro k hk
      obtain ⟨contract, hcontract, rfl⟩ := List.mem_map.mp hk
      exact hcovers contract hcontract
    -- distinct ids, all of them there, and no more snapshots than ids
    exact ((hnodup.subperm hsubset).perm_of_length_le (by
      rw [List.length_map, List.length_map, hlength])).symm
  · intro snap hsnap
    have heligible := hsound.eligible snap hsnap
    rw [OptionContractMetadata.eligible, Bool.and_eq_true] at heligible
    exact heligible.1

/-- A fetch of selected contracts whose batches are all answered exactly is complete. -/
theorem fetchSelected_exact {batchSize : ℤ} {discoveredCount : ℕ}
    (hnodup : (selected.map OptionContractMetadata.key).Nodup)
    (hkeys : ∀ contract ∈ selected, contract.key ≠ "")
    (hanswers : ∀ start ∈ sliceStarts (max 1 batchSize).toNat selected.length,
      AnswersExactly provider exp (slice (max 1 batchSize).toNat selected start) start) :
    (fetchSelected provider exp batchSize discoveredCount selected [] false).complete = true := by
  obtain ⟨hfailed, hcomplete, hperm⟩ := exact_run [] true _ hanswers hkeys
    (by rwa [flatMap_batches])
  rw [flatMap_batches] at hperm
  have hlength := hperm.length_eq
  rw [List.length_map, List.length_map] at hlength
  simp only [fetchSelected, Bool.not_false, hfailed, hcomplete, hlength, decide_true, ne_eq,
    not_true_eq_false, decide_false, Bool.and_self]

/-- A fetch of discovered contracts with distinct ids is complete only if its snapshots cover the
eligible contracts exactly, and it is complete where every batch of an uncut selection is answered
exactly. -/
theorem fetchSurfaceSnapshots_complete (provider : OptionsDataProvider F Q) (underlyingPrice : F)
    (expiration tradingDate : Option Date) (maxContracts : Option ℤ) (allowOsiFallback : Bool)
    (batchSize : ℤ) {contracts : List (OptionContractMetadata F)}
    (hdiscovered : provider.discovered allowOsiFallback = .ok contracts)
    (hids : (contracts.filterMap OptionContractMetadata.contractId).Nodup) :
    ∃ result, fetchSurfaceSnapshots provider underlyingPrice expiration tradingDate maxContracts
        allowOsiFallback batchSize = .ok result ∧
      result.tradingDate = (tradingDate.or expiration).getD provider.marketToday ∧
      (result.complete = true → CoversExactly result.tradingDate contracts result.snapshots) ∧
      (FullyAnswered provider underlyingPrice result.tradingDate contracts maxContracts batchSize →
        result.complete = true) := by
  generalize hexp : (tradingDate.or expiration).getD provider.marketToday = exp
  have hnodup := nodup_keys_selection provider underlyingPrice exp hids
  have hperm := selection_perm provider underlyingPrice exp contracts
  have hkeys : ∀ contract ∈ provider.selection underlyingPrice exp contracts,
      contract.key ≠ "" := by
    intro contract hmem
    have heligible := (List.mem_filter.mp (hperm.mem_iff.mp hmem)).2
    simp only [OptionContractMetadata.eligible, Bool.and_eq_true, decide_eq_true_eq] at heligible
    exact heligible.2
  simp only [fetchSurfaceSnapshots, hdiscovered, hexp, bind, Except.bind, pure, Except.pure]
  generalize hall : provider.selection underlyingPrice exp contracts = all at *
  cases hlimit : emergencyLimit maxContracts all.length with
  | some limit =>
    simp only
    split
    · exact ⟨_, rfl, rfl, nofun, fun hfull ↦ absurd (hall ▸ hfull.uncut) (by simp [hlimit])⟩
    · refine ⟨_, rfl, rfl, fun hcomplete ↦ ?_,
        fun hfull ↦ absurd (hall ▸ hfull.uncut) (by simp [hlimit])⟩
      -- a cut selection starts with a recorded failure
      exact absurd (fetchSelected_clean hcomplete).1 (by simp)
  | none =>
    simp only
    split
    · next hempty => exact ⟨_, rfl, rfl, nofun, fun hfull ↦ absurd hempty (hall ▸ hfull.selected)⟩
    · refine ⟨_, rfl, rfl, fun hcomplete ↦ ?_, fun hfull ↦ ?_⟩
      · obtain ⟨hsame, hof⟩ := fetchSelected_sound hnodup hcomplete
        exact ⟨hsame.trans (hperm.map _), hof⟩
      · exact fetchSelected_exact hnodup hkeys (hall ▸ hfull.answered)

/-- A fetch reports no finding exactly when it is complete. -/
theorem findings_eq_nil_iff {underlyingPrice : F} {expiration tradingDate : Option Date}
    {maxContracts : Option ℤ} {allowOsiFallback : Bool} {batchSize : ℤ}
    {result : SurfaceFetchResult F Q}
    (h : fetchSurfaceSnapshots provider underlyingPrice expiration tradingDate maxContracts
      allowOsiFallback batchSize = .ok result) :
    result.toDataQualityFindings = [] ↔ result.complete = true := by
  have hclean : result.complete = true →
      result.failedBatches = [] ∧ result.emergencyTruncated = false := by
    intro hcomplete
    simp only [fetchSurfaceSnapshots, bind_eq_ok] at h
    obtain ⟨contracts, -, h⟩ := h
    generalize provider.selection _ _ _ = all at h
    cases hlimit : emergencyLimit maxContracts all.length with
    | none =>
      simp only [hlimit] at h
      split at h
      · obtain rfl := Except.ok.inj h
        exact absurd hcomplete (by simp)
      · obtain rfl := Except.ok.inj h
        exact ⟨(fetchSelected_clean hcomplete).2, rfl⟩
    | some limit =>
      simp only [hlimit] at h
      split at h
      · obtain rfl := Except.ok.inj h
        exact absurd hcomplete (by simp)
      · obtain rfl := Except.ok.inj h
        exact absurd (fetchSelected_clean hcomplete).1 (by simp)
  unfold SurfaceFetchResult.toDataQualityFindings
  constructor
  · intro hnil
    by_contra hincomplete
    rw [if_pos (.inr (.inr (Bool.eq_false_iff.mpr hincomplete)))] at hnil
    exact absurd hnil (List.cons_ne_nil _ _)
  · intro hcomplete
    obtain ⟨hfailed, htruncated⟩ := hclean hcomplete
    rw [if_neg (by simp [hcomplete, hfailed, htruncated])]

namespace Sample

/-- A SPY contract of 2026-07-01. -/
def contract (id : String) (strike : ℤ) : OptionContractMetadata ℤ :=
  ⟨"SPY", ⟨2026, 7, 1⟩, strike, .call, some id⟩

/-- A chain of three contracts, in two batches; the second is answered with nothing but its own. -/
def chain : OptionsDataProvider ℤ Unit :=
  { absDiff := fun a b ↦ |a - b|
    less := fun a b ↦ decide (a < b)
    marketToday := ⟨2026, 7, 2⟩
    cachedContracts := none
    discoveryAcquired := .ok ()
    findOptionContracts := .ok [contract "a" 490, contract "b" 500, contract "c" 510]
    osiCandidates := .ok []
    acquired := fun _ ↦ .ok ()
    getOptionSnapshots := fun start ↦
      if start = 0 then .ok [⟨contract "c" 510, ()⟩, ⟨contract "b" 500, ()⟩]
      else .ok [⟨contract "a" 490, ()⟩] }

end Sample

/-- The theorem at the chain of three contracts. -/
theorem fetchSurfaceSnapshots_complete_threeContracts :
    ∃ result, fetchSurfaceSnapshots Sample.chain 503 none (some ⟨2026, 7, 1⟩) none true 2 =
        .ok result ∧ result.complete = true ∧
      CoversExactly ⟨2026, 7, 1⟩ [Sample.contract "a" 490, Sample.contract "b" 500,
        Sample.contract "c" 510] result.snapshots := by
  obtain ⟨result, hfetch, hdate, hsound, -⟩ := fetchSurfaceSnapshots_complete Sample.chain 503
    none (some ⟨2026, 7, 1⟩) none true 2 rfl (by decide)
  have hcomplete : (fetchSurfaceSnapshots Sample.chain 503 none (some ⟨2026, 7, 1⟩) none true
      2).toOption.map (·.complete) = some true := by decide +kernel
  rw [hfetch] at hcomplete
  have hdone : result.complete = true := Option.some.inj hcomplete
  have hcovers := hsound hdone
  rw [hdate] at hcovers
  exact ⟨result, hfetch, hdone, hcovers⟩

end Joker.Data
