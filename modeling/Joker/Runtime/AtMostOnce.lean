import Joker.Runtime.Submission

/-!
# At most one order for an intent

Library `Runtime`. Any number of `submit_execution_command` calls, of any runtimes over one
ledger and one broker, interleaved with each other and with changes at the broker. As long as
the broker remembers its orders, it creates at most one for an intent. The ledger, the client
maps and the first two lookups play no part in the argument: it rests on the one stretch that
searches by intent and submits without an await in between.
-/

namespace Joker.Runtime

open Joker.Base Joker.Ledger Joker.Broker RemembersOrders SearchableBroker

variable {β ω : Type} [BrokerClient β ω]

/-- A call of `submit_execution_command` with its runtime. -/
structure SubmitCall (ω : Type) where
  runtime : ExecutionRuntime
  command : ExecutionCommand
  inputs : SubmitInputs ω

/-- The coroutine of a call. -/
def submitBody [DecimalContext] (call : SubmitCall ω) : RuntimeM β ω BrokerOrder :=
  submitExecutionCommand call.runtime call.command call.inputs

/-- A change at the broker that no call makes: a fill, a cancellation, a rejection. -/
def atBroker (event : β → β) (w : World β) : World β := { w with broker := event w.broker }

/-- Calls over one ledger and one broker, in any order of steps and with any cancellations. -/
def runSubmits [DecimalContext] (w : World β) (xs : List (PoolAction (SubmitCall ω) (β → β))) :
    Pool (SubmitCall ω) (RuntimeOp ω) (World β) ExecutionError BrokerOrder :=
  run (Pool.step submitBody atBroker) (Pool.start w) xs

variable [RemembersOrders β]

/-- No intent has two orders at the broker. -/
def CreatedOnce (w : World β) : Prop := ∀ intentId, (known w.broker).count intentId ≤ 1

/-- The submitting stretch creates no order, or the first one of its intent. -/
theorem created_findOrSubmit (rt : ExecutionRuntime) (command : ExecutionCommand) (answers : ω)
    (w : World β) :
    known ((findOrSubmit rt command answers).exec w).1.broker = known w.broker ∨
      command.intent.intentId ∉ known w.broker ∧
        known ((findOrSubmit rt command answers).exec w).1.broker =
          known w.broker ++ [command.intent.intentId] := by
  have hfind := leaves_findBrokerOrderByIntent readOnly command.intent.intentId answers w.broker
  rw [broker_findOrSubmit]
  cases hf : (findBrokerOrderByIntent command.intent.intentId answers).exec w.broker with
  | mk b found =>
    rw [hf] at hfind
    change known b = known w.broker at hfind
    cases found with
    | error e => exact Or.inl hfind
    | ok found =>
      cases found with
      | some order => exact Or.inl hfind
      | none =>
        have hnot := not_known_of_find hf
        cases hs : (BrokerClient.submitOrder command.intent answers).exec b with
        | mk b' outcome =>
          simp only [hs]
          cases outcome with
          | error e =>
            have hb : known b' = known b := submitOrder_error _ _ _ _ _ hs
            exact Or.inl (hb.trans hfind)
          | ok order =>
            have hb : known b' = known b ++ [command.intent.intentId] :=
              submitOrder_ok _ _ _ _ _ hs
            rw [hfind] at hb
            exact Or.inr ⟨hnot, hb⟩

private theorem createdOnce_findOrSubmit (rt : ExecutionRuntime) (command : ExecutionCommand)
    (answers : ω) (w : World β) (hw : CreatedOnce w) :
    CreatedOnce ((findOrSubmit rt command answers).exec w).1 := by
  intro intentId
  rcases created_findOrSubmit rt command answers w with h | ⟨hnot, h⟩
  · rw [h]
    exact hw intentId
  · rw [h, List.count_append]
    by_cases hi : intentId = command.intent.intentId
    · rw [hi, List.count_eq_zero.mpr hnot, List.count_singleton_self]
    · rw [List.count_singleton, if_neg (by simpa using Ne.symm hi)]
      exact hw intentId

/-! ### Runs -/

/-- However the calls interleave, fail, are cancelled and are retried, by whichever runtimes,
the broker creates at most one order for an intent. -/
theorem submitOrder_at_most_once [DecimalContext] {w : World β} (hw : CreatedOnce w)
    (xs : List (PoolAction (SubmitCall ω) (β → β)))
    (hev : ∀ event, .env event ∈ xs ∨ .crash event ∈ xs → ∀ b, known (event b) = known b) :
    CreatedOnce (runSubmits w xs).shared := by
  have hbody (call : SubmitCall ω) : (submitBody call : RuntimeM β ω BrokerOrder).Steps
      (fun _ w w' ↦ True → CreatedOnce w → CreatedOnce w') := by
    apply steps_submitExecutionCommand (.of_readOnly readOnly)
    · apply AllowsRest.of_broker
      intro label w w' _ h _ hw intentId
      rw [h]
      exact hw intentId
    · exact fun w _ hw ↦ createdOnce_findOrSubmit _ _ _ w hw
  have henv (event : β → β) (w : World β) (he : ∀ b, known (event b) = known b)
      (hw : CreatedOnce w) : CreatedOnce (atBroker event w) := by
    intro intentId
    change (known (event w.broker)).count intentId ≤ 1
    rw [he]
    exact hw intentId
  exact Pool.invariant_run hbody henv hw xs (fun pre a _ ↦ Pool.respects_true _ a) hev

open scoped DefaultContext

/-- Two calls of one command by different runtimes, the first of which is cancelled after it
has submitted. -/
def racingRetries : List (PoolAction (SubmitCall PaperIds) (PaperBroker → PaperBroker)) :=
  [.spawn ⟨⟨0, "s", "a"⟩, .sample, .sample ⟨"o1", "f1"⟩ "1" 1⟩,
    .spawn ⟨⟨1, "s", "a"⟩, .sample, .sample ⟨"o2", "f2"⟩ "2" 2⟩] ++
    List.replicate 13 (.resume 0) ++ List.replicate 6 (.resume 1) ++
    [.cancel 0] ++ List.replicate 20 (.resume 1)

/-- The broker of the two racing calls holds one order. -/
theorem submitOrder_at_most_once_racing :
    let start := World.new (PaperBroker.new (fun _ ↦ ⟨⟨false, 2, 0⟩⟩))
    known (runSubmits start racingRetries).shared.broker = ["i"] ∧
      CreatedOnce (runSubmits start racingRetries).shared :=
  ⟨by decide +kernel, submitOrder_at_most_once (fun _ ↦ Nat.zero_le _) racingRetries (by
    simp [racingRetries])⟩

end Joker.Runtime
