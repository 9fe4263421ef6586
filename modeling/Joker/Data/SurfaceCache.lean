import Joker.Data.ProviderRuns
import Joker.Data.SurfaceCompleteness

/-!
# Surface fetches and the cache

Library `Data`. What a surface fetch returns is what `fetch_snapshot` answers for its contracts
afterwards, as long as the cache keeps it: every snapshot of the result is the one received last
under its id.
-/

namespace Joker.Data

open Joker.Base Joker.Broker

variable {F Q : Type}

namespace ProviderState

variable {clock : ℕ → ℚ} {settings : ProviderSettings} {s : ProviderState F Q}
  {exp : Date} {size : ℕ} {selected : List (OptionContractMetadata F)}

private theorem fetchBatch_failed {provider : OptionsDataProvider F Q} {start : ℕ}
    (state : FetchState F Q) {e : PyException}
    (h : (do provider.acquired start; provider.getOptionSnapshots start) = .error e) :
    (fetchBatch provider exp size selected state start).snapshots = state.snapshots := by
  unfold fetchBatch
  rw [h]

private theorem fetchBatch_answered {provider : OptionsDataProvider F Q} {start : ℕ}
    (state : FetchState F Q) {snaps : List (OptionSnapshot F Q)}
    (h : (do provider.acquired start; provider.getOptionSnapshots start) = .ok snaps) :
    (fetchBatch provider exp size selected state start).snapshots =
      state.snapshots ++ (snaps.foldl (receive exp
        (batchLabel start (slice size selected start).length) state.seenIds)
        ⟨Dict.empty, state.failed, state.complete⟩).valid.values := by
  unfold fetchBatch
  rw [h]

private theorem fetchBatch_congr {provider provider' : OptionsDataProvider F Q} {start : ℕ}
    (state : FetchState F Q) (hacquired : provider.acquired start = provider'.acquired start)
    (hanswer : provider.getOptionSnapshots start = provider'.getOptionSnapshots start) :
    fetchBatch provider exp size selected state start =
      fetchBatch provider' exp size selected state start := by
  unfold fetchBatch
  rw [hacquired, hanswer]

private theorem run_batchStep_fst (inputs : SurfaceInputs F Q)
    (discovered : Except PyException (List (OptionContractMetadata F))) {starts : List ℕ}
    (hnodup : starts.Nodup) (loop : FetchState F Q × ProviderState F Q)
    {acquired : ℕ → Except PyException Unit}
    (hacquired : ∀ start ∈ starts,
      acquired start = acquiredBy clock inputs exp size selected starts loop start) :
    (run (batchStep clock inputs exp size selected) loop starts).1 =
      run (fetchBatch (inputs.meeting discovered acquired) exp size selected) loop.1 starts := by
  induction starts generalizing loop with
  | nil => rfl
  | cons start rest ih =>
    obtain ⟨hnew, hrest⟩ := List.nodup_cons.mp hnodup
    rw [run_cons, run_cons, ih hrest]
    · congr 1
      apply fetchBatch_congr
      · have hfirst := hacquired start List.mem_cons_self
        unfold acquiredBy at hfirst
        rw [if_pos rfl] at hfirst
        exact hfirst.symm
      · rfl
    · intro next hnext
      rw [hacquired next (List.mem_cons_of_mem _ hnext)]
      have hne : next ≠ start := fun heq ↦ hnew (heq ▸ hnext)
      exact if_neg hne

/-- The loop over a batch's snapshots and the cache: what the loop keeps is what was received
last under its id, and ids of earlier batches are left alone. -/
private structure Receives (clock : ℕ → ℚ) (exp : Date) (seenIds : List String) (since : ℚ)
    (before : List (Stored (OptionSnapshot F Q))) (loop : Returned F Q × ProviderState F Q) :
    Prop where
  valid : ReturnedValid exp seenIds loop.1.valid
  floor : since ≤ clock loop.2.reads
  cached : ∀ k snap, loop.1.valid.get? k = some snap →
    ∃ time, since ≤ time ∧ latest k loop.2.received = some ⟨k, time, snap⟩
  kept : ∀ k ∈ seenIds, latest k loop.2.received = latest k before

private theorem receiveSnapshot_fst (label : String) (seenIds : List String)
    (loop : Returned F Q × ProviderState F Q) (snap : OptionSnapshot F Q) :
    (receiveSnapshot clock exp label seenIds loop snap).1 =
      receive exp label seenIds loop.1 snap := rfl

private theorem Receives.step (hclock : Monotone clock) {seenIds : List String} {since : ℚ}
    {before : List (Stored (OptionSnapshot F Q))} {loop : Returned F Q × ProviderState F Q}
    (h : Receives clock exp seenIds since before loop) (label : String)
    (snap : OptionSnapshot F Q) :
    Receives clock exp seenIds since before
      (receiveSnapshot clock exp label seenIds loop snap) := by
  have hvalid := (receive_valid label snap h.valid).1
  cases hfail : snapshotFailure exp seenIds loop.1.valid snap with
  | some failure =>
    have hsame : (receive exp label seenIds loop.1 snap).valid = loop.1.valid := by
      unfold receive
      rw [hfail]
    have hstate : (receiveSnapshot clock exp label seenIds loop snap).2 = loop.2 := by
      unfold receiveSnapshot
      simp only [hfail, Option.isSome_some, if_true]
    constructor
    · exact hvalid
    · rw [hstate]
      exact h.floor
    · rw [receiveSnapshot_fst, hsame, hstate]
      exact h.cached
    · rw [hstate]
      exact h.kept
  | none =>
    have hset : (receive exp label seenIds loop.1 snap).valid =
        loop.1.valid.set snap.key snap := by
      unfold receive
      rw [hfail]
    obtain ⟨-, -, hnew⟩ := snapshotFailure_eq_none.mp hfail
    unfold receiveSnapshot
    rw [hfail]
    refine ⟨hvalid, h.floor.trans (hclock (Nat.le_succ _)), ?_, ?_⟩
    · intro k got hget
      change ∃ time, since ≤ time ∧ latest k (loop.2.received ++ [_]) = _
      rw [hset, Dict.get?_set] at hget
      rw [TTLCache.latest_snoc]
      by_cases hk : snap.key = k
      · rw [if_pos hk] at hget ⊢
        obtain rfl := Option.some.inj hget
        exact ⟨clock loop.2.reads, h.floor, by rw [hk]⟩
      · rw [if_neg hk] at hget ⊢
        exact h.cached k got hget
    · intro k hk
      change latest k (loop.2.received ++ [_]) = _
      rw [TTLCache.latest_snoc, if_neg]
      · exact h.kept k hk
      · rintro rfl
        exact hnew hk

private theorem Receives.fold (hclock : Monotone clock) {seenIds : List String} {since : ℚ}
    {before : List (Stored (OptionSnapshot F Q))} (label : String)
    (snaps : List (OptionSnapshot F Q)) {loop : Returned F Q × ProviderState F Q}
    (h : Receives clock exp seenIds since before loop) :
    Receives clock exp seenIds since before
        (snaps.foldl (receiveSnapshot clock exp label seenIds) loop) ∧
      (snaps.foldl (receiveSnapshot clock exp label seenIds) loop).1 =
        snaps.foldl (receive exp label seenIds) loop.1 := by
  induction snaps generalizing loop with
  | nil => exact ⟨h, rfl⟩
  | cons snap rest ih =>
    rw [List.foldl_cons, List.foldl_cons, ← receiveSnapshot_fst]
    exact ih (h.step hclock label snap)

/-- What the loop over the batches keeps: its snapshots are what was received last under their
ids, since the fetch began. -/
private structure Fetches (clock : ℕ → ℚ) (exp : Date) (since : ℚ)
    (loop : FetchState F Q × ProviderState F Q) : Prop where
  sound : loop.1.Sound exp
  floor : since ≤ clock loop.2.reads
  cached : ∀ snap ∈ loop.1.snapshots,
    ∃ time, since ≤ time ∧ latest snap.key loop.2.received = some ⟨snap.key, time, snap⟩

private theorem request_snd (clock : ℕ → ℚ) (s : ProviderState F Q) {α : Type}
    (answer : Except PyException α) :
    (s.request clock answer).2 = (do
      (s.rateLimiter.acquire (clock s.reads)).2
      answer) := by
  cases h : (s.rateLimiter.acquire (clock s.reads)).2 with
  | error e =>
    rw [request_refused answer h]
    rfl
  | ok granted =>
    rw [request_granted answer h]
    rfl

private theorem Fetches.failed {since : ℚ} (hclock : Monotone clock) (inputs : SurfaceInputs F Q)
    {loop : FetchState F Q × ProviderState F Q} (h : Fetches clock exp since loop) {start : ℕ}
    {e : PyException}
    (hanswer : (do
      (loop.2.rateLimiter.acquire (clock loop.2.reads)).2
      inputs.getOptionSnapshots start) = .error e) :
    Fetches clock exp since (batchStep clock inputs exp size selected loop start) := by
  obtain ⟨hreads, hreceived⟩ := request_stores_nothing clock loop.2
    (inputs.getOptionSnapshots start)
  have hrequest := (request_snd clock loop.2 (inputs.getOptionSnapshots start)).trans hanswer
  have hstate (label : String) : loop.2.batchState clock inputs exp label loop.1 start =
      (loop.2.request clock (inputs.getOptionSnapshots start)).1 := by
    unfold batchState
    split
    · next heq => rw [heq]
    · next heq =>
      rw [heq] at hrequest
      cases hrequest
  refine ⟨sound_fetchBatch h.sound start, ?_, ?_⟩
  · unfold batchStep
    simp only [hstate, hreads]
    exact h.floor.trans (hclock (Nat.le_succ _))
  · unfold batchStep
    simp only [hstate, hreceived]
    rw [fetchBatch_failed loop.1 (e := e) hanswer]
    exact h.cached

private theorem Fetches.answered {since : ℚ} (hclock : Monotone clock)
    (inputs : SurfaceInputs F Q) {loop : FetchState F Q × ProviderState F Q}
    (h : Fetches clock exp since loop) {start : ℕ} {snaps : List (OptionSnapshot F Q)}
    (hanswer : (do
      (loop.2.rateLimiter.acquire (clock loop.2.reads)).2
      inputs.getOptionSnapshots start) = .ok snaps) :
    Fetches clock exp since (batchStep clock inputs exp size selected loop start) := by
  obtain ⟨hreads, hreceived⟩ := request_stores_nothing clock loop.2
    (inputs.getOptionSnapshots start)
  have hrequest := (request_snd clock loop.2 (inputs.getOptionSnapshots start)).trans hanswer
  have hbegin : Receives clock exp loop.1.seenIds since loop.2.received
      (⟨Dict.empty, loop.1.failed, loop.1.complete⟩,
        (loop.2.request clock (inputs.getOptionSnapshots start)).1) := by
    refine ⟨fun k snap hget ↦ (nomatch hget), ?_, fun k snap hget ↦ (nomatch hget), ?_⟩
    · change since ≤ clock (loop.2.request clock (inputs.getOptionSnapshots start)).1.reads
      rw [hreads]
      exact h.floor.trans (hclock (Nat.le_succ _))
    · intro k _
      change latest k (loop.2.request clock (inputs.getOptionSnapshots start)).1.received = _
      rw [hreceived]
  obtain ⟨hloop, hfirst⟩ := hbegin.fold hclock
    (batchLabel start (slice size selected start).length) snaps
  have hstate : (batchStep clock inputs exp size selected loop start).2 =
      (snaps.foldl (receiveSnapshot clock exp
        (batchLabel start (slice size selected start).length) loop.1.seenIds)
        (⟨Dict.empty, loop.1.failed, loop.1.complete⟩,
          (loop.2.request clock (inputs.getOptionSnapshots start)).1)).2 := by
    unfold batchStep batchState
    simp only
    split
    · next heq =>
      rw [heq] at hrequest
      cases hrequest
    · next heq =>
      rw [heq] at hrequest ⊢
      obtain rfl := Except.ok.inj hrequest
      rfl
  have hsnapshots : (batchStep clock inputs exp size selected loop start).1.snapshots = _ :=
    fetchBatch_answered loop.1 hanswer
  refine ⟨sound_fetchBatch h.sound start, hstate ▸ hloop.floor, ?_⟩
  intro snap hsnap
  rw [hstate]
  rw [hsnapshots] at hsnap
  rcases List.mem_append.mp hsnap with hold | hnew
  · obtain ⟨time, htime, hlatest⟩ := h.cached snap hold
    refine ⟨time, htime, ?_⟩
    rw [← hlatest]
    apply hloop.kept
    rw [h.sound.seen]
    exact List.mem_map_of_mem hold
  · rw [← hfirst] at hnew
    obtain ⟨k, hget⟩ := (Dict.mem_values_iff _ _).mp hnew
    obtain rfl := (hloop.valid k snap hget).1
    exact hloop.cached _ snap hget

private theorem Fetches.step (hclock : Monotone clock) (inputs : SurfaceInputs F Q) {since : ℚ}
    {loop : FetchState F Q × ProviderState F Q} (h : Fetches clock exp since loop) (start : ℕ) :
    Fetches clock exp since (batchStep clock inputs exp size selected loop start) := by
  cases hanswer : (do
      (loop.2.rateLimiter.acquire (clock loop.2.reads)).2
      inputs.getOptionSnapshots start : Except PyException (List (OptionSnapshot F Q))) with
  | error e => exact h.failed hclock inputs hanswer
  | ok snaps => exact h.answered hclock inputs hanswer

private theorem Fetches.run (hclock : Monotone clock) (inputs : SurfaceInputs F Q)
    (failed : List String) (complete : Bool) (starts : List ℕ) :
    Fetches clock exp (clock s.reads)
      (Base.run (batchStep clock inputs exp size selected) (⟨[], [], failed, complete⟩, s)
        starts) := by
  apply run_invariant (L := fun _ ↦ True)
  · exact fun _ start h _ ↦ h.step hclock inputs start
  · exact fun _ _ ↦ trivial
  · exact ⟨sound_start failed complete, le_rfl, fun snap hsnap ↦ (nomatch hsnap)⟩

private theorem reads_le_discoverContracts (clock : ℕ → ℚ) (s : ProviderState F Q)
    (symbol : String) (expiration : Option Date) (marketToday : Date)
    (answer : Except PyException (List (OptionContractMetadata F))) :
    s.reads ≤ (s.discoverContracts clock symbol expiration marketToday answer).1.reads := by
  unfold discoverContracts
  split
  · exact le_rfl
  · simp only
    split
    · next heq =>
      obtain ⟨rfl, -⟩ := Prod.mk.inj heq
      exact Nat.le_succ _
    · next looked heq =>
      have hlooked := congrArg Prod.fst heq.symm
      subst hlooked
      have hreads := (request_stores_nothing clock (s.lookContracts clock
        (joinSep ':' symbol (expiration.getD marketToday).isoformat)).1 answer).1
      have hle : s.reads ≤ s.reads + 1 + 1 := by omega
      split
      · next hanswer =>
        rw [hanswer] at hreads
        exact hle.trans hreads.ge
      · next hanswer =>
        rw [hanswer] at hreads
        exact (hle.trans hreads.ge).trans (Nat.le_succ _)

private theorem nodup_sliceStarts {size n : ℕ} (h : 0 < size) : (sliceStarts size n).Nodup := by
  unfold sliceStarts
  apply List.Nodup.map _ List.nodup_range
  intro a b heq
  exact Nat.eq_of_mul_eq_mul_right h heq

private theorem snapshots_of_ite {provider : OptionsDataProvider F Q} {batchSize : ℤ} {n : ℕ}
    {failed : List String} {truncated : Bool} {empty result : SurfaceFetchResult F Q}
    (hempty : empty.snapshots = [])
    (h : (if selected = [] then pure empty
      else pure (fetchSelected provider exp batchSize n selected failed truncated) :
        Except PyException (SurfaceFetchResult F Q)) = .ok result) :
    result.snapshots = (Base.run (fetchBatch provider exp (max 1 batchSize).toNat selected)
      ⟨[], [], failed, !truncated⟩
      (sliceStarts (max 1 batchSize).toNat selected.length)).snapshots := by
  split at h
  · next hnone =>
    obtain rfl : empty = result := Except.ok.inj h
    subst hnone
    have hstarts : sliceStarts (max 1 batchSize).toNat ([] : List (OptionContractMetadata F)).length
        = [] := by
      unfold sliceStarts
      rw [List.length_nil, Nat.zero_add, Nat.div_eq_of_lt (by omega)]
      rfl
    rw [hstarts, hempty]
    rfl
  · obtain rfl := Except.ok.inj h
    rfl

private theorem snapshots_fetchSurfaceSnapshots {provider : OptionsDataProvider F Q}
    {underlyingPrice : F} {expiration tradingDate : Option Date} {maxContracts : Option ℤ}
    {allowOsiFallback : Bool} {batchSize : ℤ} {contracts : List (OptionContractMetadata F)}
    {limit : List (OptionContractMetadata F) × List String} {result : SurfaceFetchResult F Q}
    (h : fetchSurfaceSnapshots provider underlyingPrice expiration tradingDate maxContracts
      allowOsiFallback batchSize = .ok result)
    (hcontracts : provider.discovered allowOsiFallback = .ok contracts)
    (hexp : (tradingDate.or expiration).getD provider.marketToday = exp)
    (hlimited : limited maxContracts (provider.selection underlyingPrice exp contracts) = limit) :
    result.snapshots = (Base.run (fetchBatch provider exp (max 1 batchSize).toNat limit.1)
      ⟨[], [], limit.2, limit.2.isEmpty⟩
      (sliceStarts (max 1 batchSize).toNat limit.1.length)).snapshots := by
  unfold fetchSurfaceSnapshots at h
  rw [hcontracts, hexp] at h
  rw [← hlimited]
  unfold limited
  cases hlimit : emergencyLimit maxContracts
      (provider.selection underlyingPrice exp contracts).length with
  | none =>
    simp only [bind, Except.bind, hlimit] at h
    exact snapshots_of_ite rfl h
  | some limit =>
    simp only [bind, Except.bind, hlimit] at h
    exact snapshots_of_ite rfl h

private theorem cached_fetchSurface (hclock : Monotone clock) (s : ProviderState F Q)
    {inputs : SurfaceInputs F Q} {underlyingPrice : F} {expiration tradingDate : Option Date}
    {maxContracts : Option ℤ} {allowOsiFallback : Bool} {batchSize : ℤ}
    {result : SurfaceFetchResult F Q}
    (h : (s.fetchSurface clock inputs underlyingPrice expiration tradingDate maxContracts
      allowOsiFallback batchSize).2 = .ok result) {snap : OptionSnapshot F Q}
    (hsnap : snap ∈ result.snapshots) :
    snap.contract.key ≠ "" ∧ ∃ time, clock s.reads ≤ time ∧
      latest snap.key (s.fetchSurface clock inputs underlyingPrice expiration tradingDate
        maxContracts allowOsiFallback batchSize).1.received = some ⟨snap.key, time, snap⟩ := by
  have hreads := reads_le_discoverContracts clock s allowedSymbol
    (some ((tradingDate.or expiration).getD inputs.marketToday)) inputs.marketToday
    inputs.findOptionContracts
  unfold fetchSurface at h ⊢
  simp only at h ⊢
  generalize hexp : (tradingDate.or expiration).getD inputs.marketToday = exp at h hreads ⊢
  generalize s.discoverContracts clock allowedSymbol (some exp) inputs.marketToday
    inputs.findOptionContracts = discovery at h hreads ⊢
  cases hcontracts : (inputs.meeting discovery.2 (fun _ ↦ .ok ())).discovered allowOsiFallback with
  | error e =>
    rw [hcontracts] at h
    cases h
  | ok contracts =>
    rw [hcontracts] at h
    simp only at h ⊢
    generalize hlimited : limited maxContracts ((inputs.meeting discovery.2
      (fun _ ↦ .ok ())).selection underlyingPrice exp contracts) = selected at h ⊢
    have hstep : 0 < (max 1 batchSize).toNat := by omega
    have hsnapshots := snapshots_fetchSurfaceSnapshots h hcontracts hexp hlimited
    rw [← run_batchStep_fst inputs discovery.2 (nodup_sliceStarts hstep)
      (⟨[], [], selected.2, selected.2.isEmpty⟩, discovery.1) (fun _ _ ↦ rfl)] at hsnapshots
    have hfetches : Fetches clock exp (clock discovery.1.reads) (Base.run
        (batchStep clock inputs exp (max 1 batchSize).toNat selected.1)
        (⟨[], [], selected.2, selected.2.isEmpty⟩, discovery.1)
        (sliceStarts (max 1 batchSize).toNat selected.1.length)) :=
      Fetches.run hclock inputs selected.2 selected.2.isEmpty _
    rw [hsnapshots] at hsnap
    obtain ⟨time, htime, hlatest⟩ := hfetches.cached snap hsnap
    have heligible := hfetches.sound.eligible snap hsnap
    unfold OptionContractMetadata.eligible at heligible
    rw [Bool.and_eq_true, decide_eq_true_eq] at heligible
    exact ⟨heligible.2, time, (hclock hreads).trans htime, hlatest⟩

/-- What a surface fetch returned is what `fetch_snapshot` answers, in every run: each snapshot of
the result is answered for its contract id, without a request, as long as the cache's lifetime has
not passed since the fetch began. -/
theorem fetchSnapshot_after_fetchSurface (hclock : Monotone clock) (settings : ProviderSettings)
    (calls : List (ProviderCall F Q)) (inputs : SurfaceInputs F Q) (underlyingPrice : F)
    (expiration tradingDate : Option Date) (maxContracts : Option ℤ) (allowOsiFallback : Bool)
    (batchSize : ℤ) :
    let s : ProviderState F Q := Base.run (ProviderState.step clock) (new settings) calls
    let fetched := s.fetchSurface clock inputs underlyingPrice expiration tradingDate maxContracts
      allowOsiFallback batchSize
    ∀ result, fetched.2 = .ok result → ∀ snap ∈ result.snapshots,
      ∀ contract : OptionContractMetadata F, contract.key = snap.key →
        clock fetched.1.reads ≤ clock s.reads + settings.snapshotCacheTtlSeconds →
          ∀ answer, (fetched.1.fetchSnapshot clock contract answer).2 = .ok snap ∧
            (fetched.1.fetchSnapshot clock contract answer).1.requests = fetched.1.requests := by
  intro s fetched result hresult snap hsnap contract hcontract hage answer
  have h : fetched.1.Faithful clock settings :=
    (faithful_run hclock settings calls).fetchSurface hclock inputs underlyingPrice expiration
      tradingDate maxContracts allowOsiFallback batchSize
  obtain ⟨hkey, time, htime, hlatest⟩ := cached_fetchSurface hclock s hresult hsnap
  have hfresh : snap ∈ fresh settings.snapshotCacheTtlSeconds contract.key
      (clock fetched.1.reads) fetched.1.received := by
    have hle : clock fetched.1.reads ≤ time + settings.snapshotCacheTtlSeconds :=
      hage.trans (add_le_add_left htime _)
    unfold fresh
    rw [hcontract, hlatest]
    simp [hle]
  have hkey' : contract.key ≠ "" := hcontract ▸ hkey
  rw [h.fetchSnapshot_cached hkey' answer hfresh]
  exact ⟨rfl, rfl⟩

/-- The theorem after a fetch of two contracts, ten readings a second. -/
theorem fetchSnapshot_after_fetchSurface_twoContracts :
    let s : ProviderState ℤ Unit :=
      Base.run (ProviderState.step (fun n ↦ (n / 10 : ℚ))) (new .standard) Sample.calls
    let fetched := s.fetchSurface (fun n ↦ (n / 10 : ℚ)) Sample.surface 503 none none none true 1
    ∃ result, fetched.2 = .ok result ∧ result.snapshots.length = 2 ∧
      ∀ snap ∈ result.snapshots, ∀ answer,
        (fetched.1.fetchSnapshot (fun n ↦ (n / 10 : ℚ)) snap.contract answer).2 = .ok snap := by
  intro s fetched
  have hclock : Monotone (fun n : ℕ ↦ (n / 10 : ℚ)) := fun a b hab ↦
    div_le_div_of_nonneg_right (Nat.cast_le.mpr hab) (by decide)
  have hlength : fetched.2.toOption.map (fun result ↦ result.snapshots.length) = some 2 := by
    decide +kernel
  have hage : (fetched.1.reads / 10 : ℚ) ≤
      s.reads / 10 + ProviderSettings.standard.snapshotCacheTtlSeconds := by
    decide +kernel
  have hanswers := fetchSnapshot_after_fetchSurface hclock .standard Sample.calls Sample.surface
    503 none none none true 1
  cases hresult : fetched.2 with
  | error e =>
    rw [hresult] at hlength
    cases hlength
  | ok result =>
    rw [hresult] at hlength
    refine ⟨result, rfl, Option.some.inj hlength, fun snap hsnap answer ↦ ?_⟩
    exact (hanswers result hresult snap hsnap snap.contract rfl hage answer).1

end ProviderState
end Joker.Data
