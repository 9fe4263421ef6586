import Joker.Broker.Webull
import Joker.Runtime.Submission

/-!
# Submission across restarts

Library `Runtime`. Retries of one command through `WebullClient`, interleaved with process
restarts: the ledger's committed rows and the venue's orders survive, the client's maps and the
runtimes' maps start empty. The venue accepts one order as long as every call that reaches its
submitting stretch after an acceptance still finds the order in the client's memory. A restart
empties that memory, and neither the ledger's broker id nor the venue's list brings the order
back: `get_order` and `list_open_orders` return only orders the client has in its maps.
-/

namespace Joker.Runtime

open Joker.Base Joker.Ledger Joker.Broker

/-- One retry: all calls share a client order id, everything else may differ. -/
structure RetryCall where
  runtime : ExecutionRuntime
  intent : OrderIntent
  brokerAccountId : String
  inputs : SubmitInputs WebullAnswers

/-- The coroutine of a retry. -/
def retryBody [DecimalContext] (clientOrderId : String) (call : RetryCall) :
    RuntimeM Webull WebullAnswers BrokerOrder :=
  submitExecutionCommand call.runtime ⟨clientOrderId, call.intent, call.brokerAccountId⟩ call.inputs

/-- What happens besides the calls: the venue's orders change, or the process restarts. -/
inductive RetryEvent where
  | venue (f : List VenueOrder → List VenueOrder)
  | restart

/-- The effect of an event. A restart rolls uncommitted rows back. -/
def retryEvent : RetryEvent → World Webull → World Webull
  | .venue f, w => { w with broker := { w.broker with venue := f w.broker.venue } }
  | .restart, w => ⟨w.conn.rollback, w.broker.restart, [], fun _ ↦ Dict.empty⟩

/-- The venue keeps every order it accepted under its client order id. -/
def RetryEvent.Durable : RetryEvent → Prop
  | .venue f => ∀ rows, (f rows).map (fun row ↦ row.clientOrderId) =
      rows.map (fun row ↦ row.clientOrderId)
  | .restart => True

/-- Retries of one client order id, in any order of steps, with cancellations and restarts. -/
def runRetries [DecimalContext] (clientOrderId : String) (w : World Webull)
    (xs : List (PoolAction RetryCall RetryEvent)) :
    Pool RetryCall (RuntimeOp WebullAnswers) (World Webull) ExecutionError BrokerOrder :=
  run (Pool.step (retryBody clientOrderId) retryEvent) (Pool.start w) xs

/-- Since a start the venue accepted at most one order. -/
def PlacedOnce (start w : World Webull) : Prop :=
  w.broker.venue.length ≤ start.broker.venue.length + 1

/-- After an acceptance, a submitting stretch finds the order of its intent in the client's
memory, or the venue does not take its order. -/
def FindsEarlierOrder (start : World Webull) (label : RuntimeOp WebullAnswers)
    (w : World Webull) : Prop :=
  match label with
  | .submit intent answers => start.broker.venue.length < w.broker.venue.length →
      intent.intentId ∈ w.broker.intents ∨ ¬ Webull.Places intent answers
  | _ => True

/-! ### The submitting stretch -/

private theorem find_of_not_mem {intentId : String} {answers : WebullAnswers} {b : Webull}
    (h : intentId ∉ b.intents) :
    (findBrokerOrderByIntent intentId answers).exec b =
      ((b.listOpenOrders answers).1, .ok none) := by
  have hlisted : (b.listOpenOrders answers).2.find? (fun order ↦ order.intentId = intentId) =
      none := by
    apply List.find?_eq_none.mpr
    intro order ho hi
    exact h (of_decide_eq_true hi ▸ Webull.mem_intents_of_listOpenOrders ho)
  have hmap : searchOrders intentId (b.listOpenOrders answers).1 = none := by
    apply List.find?_eq_none.mpr
    intro order ho hi
    rw [← Webull.intents_listOpenOrders answers b] at h
    exact h (of_decide_eq_true hi ▸ List.mem_map_of_mem ho)
  exact exec_findBrokerOrderByIntent_of_none rfl hlisted rfl hmap

/-- The submitting stretch adds an order to the venue exactly when the client has none of the
intent and the venue takes it. -/
theorem venue_findOrSubmit (rt : ExecutionRuntime) (command : ExecutionCommand)
    (answers : WebullAnswers) (w : World Webull) :
    (command.intent.intentId ∉ w.broker.intents ∧ Webull.Places command.intent answers ∧
      ((findOrSubmit rt command answers).exec w).1.broker.venue.length =
        w.broker.venue.length + 1) ∨
    ((command.intent.intentId ∈ w.broker.intents ∨ ¬ Webull.Places command.intent answers) ∧
      ((findOrSubmit rt command answers).exec w).1.broker.venue = w.broker.venue) := by
  rw [broker_findOrSubmit]
  by_cases hk : command.intent.intentId ∈ w.broker.intents
  · right
    refine ⟨Or.inl hk, ?_⟩
    have hfind := leaves_findBrokerOrderByIntent Webull.readOnly_venue command.intent.intentId
      answers w.broker
    cases hf : (findBrokerOrderByIntent command.intent.intentId answers).exec w.broker with
    | mk b found =>
      rw [hf] at hfind
      cases found with
      | error e => exact hfind
      | ok found =>
        cases found with
        | some order => exact hfind
        | none => exact absurd hk (not_known_of_find hf)
  · rw [find_of_not_mem hk]
    have hsubmit := Webull.length_venue_submitOrder command.intent answers
      (w.broker.listOpenOrders answers).1
    rw [Webull.venue_listOpenOrders] at hsubmit
    rcases hsubmit with ⟨hp, hlen⟩ | ⟨hp, hsame⟩
    · exact Or.inl ⟨hk, hp, hlen⟩
    · exact Or.inr ⟨Or.inr hp, hsame⟩

private theorem placedOnce_findOrSubmit {start : World Webull} (rt : ExecutionRuntime)
    (command : ExecutionCommand) (answers : WebullAnswers) {w : World Webull}
    (hw : PlacedOnce start w) :
    PlacedOnce start ((findOrSubmit rt command answers).exec w).1 ↔
      FindsEarlierOrder start (.submit command.intent answers) w := by
  unfold PlacedOnce FindsEarlierOrder at *
  rcases venue_findOrSubmit rt command answers w with ⟨hnot, hp, hlen⟩ | ⟨hor, hsame⟩
  · rw [hlen, Nat.add_le_add_iff_right]
    constructor
    · intro hle hlt
      omega
    · intro h
      by_contra hle
      rcases h (Nat.lt_of_not_le hle) with hin | hno
      · exact hnot hin
      · exact hno hp
  · rw [hsame]
    exact iff_of_true hw (fun _ ↦ hor)

/-! ### Runs -/

/-- However retries, cancellations and restarts interleave, the venue accepts at most one order
in every state of a run exactly when every submitting stretch after an acceptance finds the
order in the client's memory or is not taken by the venue. -/
theorem placeOrder_at_most_once_iff [DecimalContext] (clientOrderId : String) (start : World Webull)
    (xs : List (PoolAction RetryCall RetryEvent))
    (hev : ∀ event, .env event ∈ xs ∨ .crash event ∈ xs → event.Durable) :
    (∀ pre, pre <+: xs → PlacedOnce start (runRetries clientOrderId start pre).shared) ↔
      ∀ pre a, pre ++ [a] <+: xs →
        (runRetries clientOrderId start pre).Respects (FindsEarlierOrder start) a := by
  have hbody (call : RetryCall) : (retryBody clientOrderId call).Steps
      (fun label w w' ↦ PlacedOnce start w →
        (PlacedOnce start w' ↔ FindsEarlierOrder start label w)) := by
    apply steps_submitExecutionCommand (.of_readOnly Webull.readOnly_venue)
    · apply AllowsRest.of_broker
      intro label w w' hl hv hw
      unfold PlacedOnce at *
      rw [hv]
      refine iff_of_true hw ?_
      cases label with
      | submit intent answers => cases hl
      | _ => trivial
    · exact fun w hw ↦ placedOnce_findOrSubmit _ _ _ hw
  have henv (event : RetryEvent) (w : World Webull) (he : event.Durable)
      (hw : PlacedOnce start w) : PlacedOnce start (retryEvent event w) := by
    cases event with
    | venue f =>
      have hlen := congrArg List.length (he w.broker.venue)
      rw [List.length_map, List.length_map] at hlen
      change (f w.broker.venue).length ≤ _
      rw [hlen]
      exact hw
    | restart => exact hw
  have hstart : PlacedOnce start start := Nat.le_succ _
  exact Pool.invariant_run_iff hbody henv hstart xs hev

open scoped DefaultContext

/-- A retry of the sample command in a runtime of its own. -/
def RetryCall.sample (index : ℕ) (id tag : String) (second : ℕ) : RetryCall :=
  { runtime := ⟨index, "s", "a"⟩
    intent := ExecutionCommand.sample.intent
    brokerAccountId := "a"
    inputs := .sample (.accepting id) tag second }

/-- A call, a fill at the venue, and a retry without a restart. -/
def retriedAtOnce : List (PoolAction RetryCall RetryEvent) :=
  .spawn (.sample 0 "w1" "1" 1) :: List.replicate 22 (.resume 0) ++
    [.env (.venue (fun rows ↦ rows.map (fun row ↦ { row with reported := ⟨some "FILLED", none⟩ }))),
      .spawn (.sample 0 "w2" "2" 2)] ++ List.replicate 22 (.resume 1)

/-- The equivalence at a retry without a restart. -/
theorem placeOrder_at_most_once_retriedAtOnce :
    (∀ pre, pre <+: retriedAtOnce →
      PlacedOnce (World.new Webull.new) (runRetries "c" (World.new Webull.new) pre).shared) ↔
    ∀ pre a, pre ++ [a] <+: retriedAtOnce →
      (runRetries "c" (World.new Webull.new) pre).Respects
        (FindsEarlierOrder (World.new Webull.new)) a :=
  placeOrder_at_most_once_iff "c" (World.new Webull.new) retriedAtOnce (by
    simp [retriedAtOnce, RetryEvent.Durable])

/-- A call that runs to its end, a restart, and a retry. -/
def restartedRetry : List (PoolAction RetryCall RetryEvent) :=
  .spawn (.sample 0 "w1" "1" 1) :: List.replicate 22 (.resume 0) ++
    .crash .restart :: .spawn (.sample 1 "w2" "2" 2) :: List.replicate 22 (.resume 1)

/-- The ledger holds the acceptance of the first order, and the retry after the restart places
a second one. -/
theorem not_placedOnce_of_restart :
    let start := World.new Webull.new
    "accept:c:w1" ∈ (runRetries "c" start (restartedRetry.take 24)).shared.conn.rows.map
      (fun e ↦ e.idempotencyKey) ∧
    ¬ ∀ pre, pre <+: restartedRetry → PlacedOnce start (runRetries "c" start pre).shared := by
  refine ⟨by decide +kernel, fun h ↦ ?_⟩
  have htwo := h restartedRetry (List.prefix_refl _)
  unfold PlacedOnce at htwo
  exact absurd htwo (by decide +kernel)

end Joker.Runtime
