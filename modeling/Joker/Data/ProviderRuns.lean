import Joker.Base.Runs
import Joker.Data.OptionsProvider

/-!
# Runs of the options data provider

Library `Data`. In every run of the provider its limiter and its caches agree with the history:
with all requests so far, and with all that was stored so far. So the API is asked no more often
than the limit allows in any window, and a snapshot is answered from the cache as long as it may
be.
-/

namespace Joker.Data

open Joker.Base Joker.Broker

variable {F Q : Type}

namespace RateLimiter

private theorem acquire_maxRequests (now : ℚ) (limiter : RateLimiter) :
    (limiter.acquire now).1.maxRequests = limiter.maxRequests := by
  unfold acquire
  simp only
  split <;> rfl

private theorem acquire_windowSeconds (now : ℚ) (limiter : RateLimiter) :
    (limiter.acquire now).1.windowSeconds = limiter.windowSeconds := by
  unfold acquire
  simp only
  split <;> rfl

private theorem acquire_windowText (now : ℚ) (limiter : RateLimiter) :
    (limiter.acquire now).1.windowText = limiter.windowText := by
  unfold acquire
  simp only
  split <;> rfl

end RateLimiter

private theorem TTLCache.get_ttlSeconds {V : Type} (key : String) (now : ℚ) (cache : TTLCache V) :
    (cache.get key now).1.ttlSeconds = cache.ttlSeconds := by
  unfold get
  split
  · rfl
  · split <;> rfl

namespace ProviderState

variable {clock : ℕ → ℚ} {settings : ProviderSettings} {s : ProviderState F Q}

/-- The provider agrees with its history at the next reading of the clock. -/
structure Faithful (clock : ℕ → ℚ) (settings : ProviderSettings) (s : ProviderState F Q) :
    Prop where
  settings : s.settings = settings
  limiter : s.rateLimiter.Remembers s.requests (clock s.reads)
  contracts : s.contractCache.Keeps s.found (clock s.reads)
  snapshots : s.snapshotCache.Keeps s.received (clock s.reads)

private theorem faithful_new (clock : ℕ → ℚ) (settings : ProviderSettings) :
    (new settings : ProviderState F Q).Faithful clock settings :=
  ⟨rfl, RateLimiter.remembers_nil rfl _, TTLCache.keeps_nil rfl _, TTLCache.keeps_nil rfl _⟩

/-! ### One operation -/

/-- A refused request changes the limiter only. -/
theorem request_refused {α : Type} (answer : Except PyException α) {e : PyException}
    (h : (s.rateLimiter.acquire (clock s.reads)).2 = .error e) :
    s.request clock answer = ({ s with
      rateLimiter := (s.rateLimiter.acquire (clock s.reads)).1
      reads := s.reads + 1 }, .error e) := by
  unfold request
  split
  · next heq =>
    rw [heq] at h ⊢
    cases h
    rfl
  · next heq =>
    rw [heq] at h
    cases h

/-- A request that is let in is answered by the API. -/
theorem request_granted {α : Type} (answer : Except PyException α)
    (h : (s.rateLimiter.acquire (clock s.reads)).2 = .ok ()) :
    s.request clock answer = ({ s with
      rateLimiter := (s.rateLimiter.acquire (clock s.reads)).1
      reads := s.reads + 1
      requests := s.requests ++ [clock s.reads] }, answer) := by
  unfold request
  split
  · next heq =>
    rw [heq] at h
    cases h
  · next heq => rw [heq]

/-- A request takes a reading, and stores nothing. -/
theorem request_stores_nothing {α : Type} (clock : ℕ → ℚ) (s : ProviderState F Q)
    (answer : Except PyException α) :
    (s.request clock answer).1.reads = s.reads + 1 ∧
      (s.request clock answer).1.received = s.received := by
  cases h : (s.rateLimiter.acquire (clock s.reads)).2 with
  | error e =>
    rw [request_refused answer h]
    exact ⟨rfl, rfl⟩
  | ok granted =>
    rw [request_granted answer h]
    exact ⟨rfl, rfl⟩

private theorem settings_acquired {now : ℚ} {reads : ℕ} {requests : List ℚ} :
    ({ s with
      rateLimiter := (s.rateLimiter.acquire now).1
      reads := reads
      requests := requests } : ProviderState F Q).settings = s.settings := by
  unfold ProviderState.settings
  rw [RateLimiter.acquire_maxRequests, RateLimiter.acquire_windowSeconds,
    RateLimiter.acquire_windowText]

variable (hclock : Monotone clock)
include hclock

private theorem Faithful.lookContracts (h : s.Faithful clock settings) (key : String) :
    (s.lookContracts clock key).1.Faithful clock settings := by
  have hnext : clock s.reads ≤ clock (s.reads + 1) := hclock (Nat.le_succ _)
  refine ⟨?_, h.limiter.mono hnext, (h.contracts.get key).mono hnext, h.snapshots.mono hnext⟩
  rw [← h.settings]
  unfold ProviderState.settings ProviderState.lookContracts
  rw [TTLCache.get_ttlSeconds]

private theorem Faithful.lookSnapshot (h : s.Faithful clock settings) (key : String) :
    (s.lookSnapshot clock key).1.Faithful clock settings := by
  have hnext : clock s.reads ≤ clock (s.reads + 1) := hclock (Nat.le_succ _)
  refine ⟨?_, h.limiter.mono hnext, h.contracts.mono hnext, (h.snapshots.get key).mono hnext⟩
  rw [← h.settings]
  unfold ProviderState.settings ProviderState.lookSnapshot
  rw [TTLCache.get_ttlSeconds]

private theorem Faithful.storeContracts (h : s.Faithful clock settings) (key : String)
    (contracts : List (OptionContractMetadata F)) :
    (s.storeContracts clock key contracts).Faithful clock settings := by
  have hnext : clock s.reads ≤ clock (s.reads + 1) := hclock (Nat.le_succ _)
  exact ⟨h.settings, h.limiter.mono hnext, (h.contracts.set key contracts).mono hnext,
    h.snapshots.mono hnext⟩

private theorem Faithful.storeSnapshot (h : s.Faithful clock settings) (key : String)
    (snap : OptionSnapshot F Q) : (s.storeSnapshot clock key snap).Faithful clock settings := by
  have hnext : clock s.reads ≤ clock (s.reads + 1) := hclock (Nat.le_succ _)
  exact ⟨h.settings, h.limiter.mono hnext, h.contracts.mono hnext,
    (h.snapshots.set key snap).mono hnext⟩

omit hclock in
/-- What the limiter answers, by all requests so far. -/
theorem Faithful.acquire_eq (h : s.Faithful clock settings) :
    (s.rateLimiter.acquire (clock s.reads)).2 =
      if settings.maxRequests ≤
          (inWindow settings.windowSeconds (clock s.reads) s.requests).length then
        .error s.rateLimiter.exceeded
      else .ok () := by
  rw [h.limiter.acquire_eq, ← h.settings]
  rfl

private theorem Faithful.request {α : Type} (h : s.Faithful clock settings)
    (answer : Except PyException α) : (s.request clock answer).1.Faithful clock settings := by
  have hnext : clock s.reads ≤ clock (s.reads + 1) := hclock (Nat.le_succ _)
  have hanswer := h.limiter.acquire_eq
  by_cases hfull : s.rateLimiter.maxRequests ≤
      (inWindow s.rateLimiter.windowSeconds (clock s.reads) s.requests).length
  · rw [if_pos hfull] at hanswer
    rw [request_refused answer hanswer]
    exact ⟨settings_acquired.trans h.settings, (h.limiter.refused hfull).mono hnext,
      h.contracts.mono hnext, h.snapshots.mono hnext⟩
  · rw [if_neg hfull] at hanswer
    rw [request_granted answer hanswer]
    exact ⟨settings_acquired.trans h.settings, (h.limiter.granted hfull).mono hnext,
      h.contracts.mono hnext, h.snapshots.mono hnext⟩

/-! ### One call -/

private theorem Faithful.discoverContracts (h : s.Faithful clock settings) (symbol : String)
    (expiration : Option Date) (marketToday : Date)
    (answer : Except PyException (List (OptionContractMetadata F))) :
    (s.discoverContracts clock symbol expiration marketToday answer).1.Faithful clock settings := by
  unfold ProviderState.discoverContracts
  split
  · exact h
  · simp only
    have hlook := h.lookContracts hclock
      (joinSep ':' symbol (expiration.getD marketToday).isoformat)
    split
    · next heq => rwa [heq] at hlook
    · next heq =>
      rw [heq] at hlook
      have hrequest := hlook.request hclock answer
      split
      · next hanswer => rwa [hanswer] at hrequest
      · next s' contracts hanswer =>
        rw [hanswer] at hrequest
        have hnoted : ({ s' with contractDiscoverySucceeded := !contracts.isEmpty } :
            ProviderState F Q).Faithful clock settings :=
          ⟨hrequest.settings, hrequest.limiter, hrequest.contracts, hrequest.snapshots⟩
        exact hnoted.storeContracts hclock _ contracts

private theorem Faithful.fetchSnapshot (h : s.Faithful clock settings)
    (contract : OptionContractMetadata F) (answer : Except PyException (OptionSnapshot F Q)) :
    (s.fetchSnapshot clock contract answer).1.Faithful clock settings := by
  unfold ProviderState.fetchSnapshot
  split
  · exact h
  · have hlook := h.lookSnapshot hclock contract.key
    split
    · next heq => rwa [heq] at hlook
    · next heq =>
      rw [heq] at hlook
      have hrequest := hlook.request hclock answer
      split
      · next hanswer => rwa [hanswer] at hrequest
      · next snap hanswer =>
        rw [hanswer] at hrequest
        exact hrequest.storeSnapshot hclock contract.key snap

private theorem faithful_receiveFold (exp : Date) (label : String) (seenIds : List String)
    (snaps : List (OptionSnapshot F Q)) {loop : Returned F Q × ProviderState F Q}
    (h : loop.2.Faithful clock settings) :
    (snaps.foldl (receiveSnapshot clock exp label seenIds) loop).2.Faithful clock settings := by
  induction snaps generalizing loop with
  | nil => exact h
  | cons snap rest ih =>
    apply ih
    unfold receiveSnapshot
    split
    · exact h
    · exact h.storeSnapshot hclock snap.key snap

private theorem Faithful.batchState (h : s.Faithful clock settings) (inputs : SurfaceInputs F Q)
    (exp : Date) (label : String) (state : FetchState F Q) (start : ℕ) :
    (s.batchState clock inputs exp label state start).Faithful clock settings := by
  have hrequest := h.request hclock (inputs.getOptionSnapshots start)
  unfold ProviderState.batchState
  split
  · next heq => rwa [heq] at hrequest
  · next snaps heq =>
    rw [heq] at hrequest
    exact faithful_receiveFold hclock exp label state.seenIds snaps hrequest

/-- A surface fetch keeps the provider faithful. -/
theorem Faithful.fetchSurface (h : s.Faithful clock settings) (inputs : SurfaceInputs F Q)
    (underlyingPrice : F) (expiration tradingDate : Option Date) (maxContracts : Option ℤ)
    (allowOsiFallback : Bool) (batchSize : ℤ) :
    (s.fetchSurface clock inputs underlyingPrice expiration tradingDate maxContracts
      allowOsiFallback batchSize).1.Faithful clock settings := by
  have hdiscovered := h.discoverContracts hclock allowedSymbol
    (some ((tradingDate.or expiration).getD inputs.marketToday)) inputs.marketToday
    inputs.findOptionContracts
  unfold ProviderState.fetchSurface
  simp only
  split
  · exact hdiscovered
  · apply run_invariant (I := fun loop : FetchState F Q × ProviderState F Q ↦
      loop.2.Faithful clock settings) (L := fun _ ↦ True)
    · intro loop start hloop _
      exact hloop.batchState hclock inputs _ _ loop.1 start
    · exact fun _ _ ↦ trivial
    · exact hdiscovered

private theorem Faithful.step (h : s.Faithful clock settings) (call : ProviderCall F Q) :
    (s.step clock call).Faithful clock settings := by
  cases call with
  | discoverContracts symbol expiration marketToday answer =>
    exact h.discoverContracts hclock symbol expiration marketToday answer
  | fetchSnapshot contract answer => exact h.fetchSnapshot hclock contract answer
  | fetchSurface inputs underlyingPrice expiration tradingDate maxContracts allowOsiFallback
      batchSize =>
    exact h.fetchSurface hclock inputs underlyingPrice expiration tradingDate maxContracts
      allowOsiFallback batchSize

/-- Every state of a run agrees with its history. -/
theorem faithful_run (settings : ProviderSettings) (calls : List (ProviderCall F Q)) :
    (run (ProviderState.step clock) (new settings) calls).Faithful clock settings :=
  run_invariant (I := fun s : ProviderState F Q ↦ s.Faithful clock settings) (L := fun _ ↦ True)
    (fun _ call h _ ↦ h.step hclock call) calls (fun _ _ ↦ trivial) (faithful_new clock settings)

/-- However the calls of a provider follow one another, whatever the API answers: no window of the
limiter's length holds more requests than the limit, and the limiter turns a request away exactly
when the window that ends with it is full. -/
theorem requests_within_limit (settings : ProviderSettings) (calls : List (ProviderCall F Q)) :
    let s : ProviderState F Q := run (ProviderState.step clock) (new settings) calls
    (∀ now, (inWindow settings.windowSeconds now s.requests).length ≤
        settings.maxRequests.toNat) ∧
      ((s.rateLimiter.acquire (clock s.reads)).2 = .error s.rateLimiter.exceeded ↔
        settings.maxRequests ≤
          (inWindow settings.windowSeconds (clock s.reads) s.requests).length) := by
  intro s
  have h : s.Faithful clock settings := faithful_run hclock settings calls
  constructor
  · intro now
    have hle := length_inWindow_le h.limiter.sorted h.limiter.admitted now
    rw [← h.settings]
    exact hle
  · rw [h.acquire_eq]
    constructor
    · intro hrefused
      by_contra hroom
      rw [if_neg hroom] at hrefused
      cases hrefused
    · intro hfull
      exact if_pos hfull

omit hclock in
/-- The theorem at a discovery and a fetch, a reading a second. -/
theorem requests_within_limit_twoCalls :
    let s : ProviderState ℤ Unit := run (ProviderState.step (fun n ↦ (n : ℚ)))
      (new .standard) Sample.calls
    (∀ now, (inWindow 60 now s.requests).length ≤ 60) ∧
      ((s.rateLimiter.acquire s.reads).2 = .error s.rateLimiter.exceeded ↔
        60 ≤ ((inWindow 60 (s.reads : ℚ) s.requests).length : ℤ)) :=
  requests_within_limit Nat.mono_cast .standard Sample.calls

/-! ### Answers from the cache -/

section Answers

omit hclock

variable {contract : OptionContractMetadata F}

private theorem lookSnapshot_snd (h : s.Faithful clock settings) (key : String) :
    (s.lookSnapshot clock key).2 =
      fresh settings.snapshotCacheTtlSeconds key (clock s.reads) s.received := by
  rw [← h.settings]
  exact h.snapshots.get_eq key

/-- A snapshot that is fresh enough is answered without a request. -/
theorem Faithful.fetchSnapshot_cached (h : s.Faithful clock settings) (hkey : contract.key ≠ "")
    (answer : Except PyException (OptionSnapshot F Q)) {snap : OptionSnapshot F Q}
    (hfresh : snap ∈ fresh settings.snapshotCacheTtlSeconds contract.key (clock s.reads)
      s.received) :
    s.fetchSnapshot clock contract answer = ((s.lookSnapshot clock contract.key).1, .ok snap) := by
  have hlook := (lookSnapshot_snd h contract.key).trans hfresh
  unfold ProviderState.fetchSnapshot
  rw [if_neg hkey]
  split
  · next heq =>
    rw [heq] at hlook ⊢
    cases hlook
    rfl
  · next heq =>
    rw [heq] at hlook
    cases hlook

/-- Without a fresh snapshot the call is the API's answer, where the limiter lets it ask. -/
theorem Faithful.fetchSnapshot_asked (h : s.Faithful clock settings) (hkey : contract.key ≠ "")
    (answer : Except PyException (OptionSnapshot F Q))
    (hstale : fresh settings.snapshotCacheTtlSeconds contract.key (clock s.reads) s.received =
      none) :
    (s.fetchSnapshot clock contract answer).2 =
        (((s.lookSnapshot clock contract.key).1.request clock answer).2).mapError wrapRateLimit ∧
      (s.fetchSnapshot clock contract answer).1.requests =
        ((s.lookSnapshot clock contract.key).1.request clock answer).1.requests := by
  have hlook := (lookSnapshot_snd h contract.key).trans hstale
  unfold ProviderState.fetchSnapshot
  rw [if_neg hkey]
  split
  · next heq =>
    rw [heq] at hlook
    cases hlook
  · next heq =>
    rw [heq]
    split
    · next hanswer => rw [hanswer]; exact ⟨rfl, rfl⟩
    · next hanswer => rw [hanswer]; exact ⟨rfl, rfl⟩

end Answers

/-- In every run, `fetch_snapshot` answers by the history alone. If the last snapshot received for
the contract is within the cache's lifetime, it is the answer and nothing is asked. Otherwise one
request is made and the API's answer is returned, unless the window that ends then is full of
requests: then nothing is asked and an error is raised. -/
theorem fetchSnapshot_by_history (settings : ProviderSettings) (calls : List (ProviderCall F Q))
    {contract : OptionContractMetadata F} (hkey : contract.key ≠ "")
    (answer : Except PyException (OptionSnapshot F Q)) :
    let s : ProviderState F Q := run (ProviderState.step clock) (new settings) calls
    let after := s.fetchSnapshot clock contract answer
    let cached := fresh settings.snapshotCacheTtlSeconds contract.key (clock s.reads) s.received
    let asked := clock (s.reads + 1)
    let full := settings.maxRequests ≤ (inWindow settings.windowSeconds asked s.requests).length
    (∀ snap ∈ cached, after.2 = .ok snap ∧ after.1.requests = s.requests) ∧
      (cached = none → full → after.2 = .error (webullApiError s.rateLimiter.exceeded.text) ∧
        after.1.requests = s.requests) ∧
      (cached = none → ¬ full → after.2 = answer.mapError wrapRateLimit ∧
        after.1.requests = s.requests ++ [asked]) := by
  intro s after cached asked full
  have h : s.Faithful clock settings := faithful_run hclock settings calls
  have hlooked := h.lookSnapshot hclock contract.key
  refine ⟨fun snap hsnap ↦ ?_, fun hstale hfull ↦ ?_, fun hstale hroom ↦ ?_⟩
  · have hafter : after = _ := h.fetchSnapshot_cached hkey answer hsnap
    rw [hafter]
    exact ⟨rfl, rfl⟩
  · obtain ⟨hresult, hrequests⟩ := h.fetchSnapshot_asked hkey answer hstale
    have hacquired := hlooked.acquire_eq.trans (if_pos hfull)
    rw [request_refused answer hacquired] at hresult hrequests
    refine ⟨?_, hrequests⟩
    rw [hresult]
    rfl
  · obtain ⟨hresult, hrequests⟩ := h.fetchSnapshot_asked hkey answer hstale
    have hacquired := hlooked.acquire_eq.trans (if_neg hroom)
    rw [request_granted answer hacquired] at hresult hrequests
    exact ⟨hresult, hrequests⟩

omit hclock in
/-- The theorem for the snapshot fetched before, four seconds ago, and one not fetched yet. -/
theorem fetchSnapshot_by_history_twoCalls :
    let s : ProviderState ℤ Unit := run (ProviderState.step (fun n ↦ (n : ℚ)))
      (new .standard) Sample.calls
    (s.fetchSnapshot (fun n ↦ (n : ℚ)) (Sample.contract "a" 490) (.ok Sample.later)).2 =
        .ok Sample.snapshot ∧
      (s.fetchSnapshot (fun n ↦ (n : ℚ)) (Sample.contract "b" 500) (.ok Sample.later)).2 =
        .ok Sample.later := by
  intro s
  have hclock : Monotone (fun n : ℕ ↦ (n : ℚ)) := Nat.mono_cast
  have hold := (fetchSnapshot_by_history hclock .standard Sample.calls
    (show (Sample.contract "a" 490).key ≠ "" by decide) (.ok Sample.later)).1 Sample.snapshot
    (by with_unfolding_all rfl)
  have hnew := (fetchSnapshot_by_history hclock .standard Sample.calls
    (show (Sample.contract "b" 500).key ≠ "" by decide) (.ok Sample.later)).2.2
    (by with_unfolding_all rfl) (by decide +kernel)
  exact ⟨hold.1, hnew.1⟩

end ProviderState
end Joker.Data
