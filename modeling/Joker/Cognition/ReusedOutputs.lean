import Joker.Cognition.ModelRouter
import Joker.Cognition.Payloads

/-!
# Reused model outputs

Library `Cognition`. A key says which agent asks on which assembled context, a payload says what
it asks as well. Two invocations of one agent on one context share a key whatever their
arguments are, so a completed output answers the same question exactly when no agent is asked two
questions on one context.
-/

namespace Joker.Cognition

open Joker.Base

/-! ### Sessions -/

/-- What the invocations of a session have in common. Snapshots are append-only, so that an id
has one record. -/
structure CognitiveSession where
  sessionId : String
  config : ContextAssemblerConfig
  serialiser : Serialiser
  snapshots : String → Option MarketSnapshot

namespace CognitiveSession

/-- An invocation on a context that was assembled in the session from a stored snapshot. -/
structure Call (session : CognitiveSession) where
  invocation : Invocation
  assembly : Assembly
  assembledAt : String
  context : ContextPackage
  stored : session.snapshots assembly.snapshot.snapshotId.text = some assembly.snapshot
  assembled : assemble session.config session.serialiser session.sessionId assembly assembledAt =
    .ok context

namespace Call

variable {session : CognitiveSession}

/-- The request of a call. -/
def request (call : session.Call) : ModelRequest := call.invocation.request call.context

/-- The hashed body of a call's context. -/
def body (call : session.Call) : PackageBody :=
  packageBody session.config session.sessionId call.assembly

/-- What a call asks. -/
def question (call : session.Call) : Invocation := call.invocation.question call.context

/-- Calls of a session share a key exactly when one agent is invoked on bodies with one digest,
in one cycle and on one snapshot. -/
theorem sameKey_iff {a b : session.Call} :
    a.request.idempotencyKey = b.request.idempotencyKey ↔
      a.assembly.cycleId = b.assembly.cycleId ∧
        a.assembly.snapshot.snapshotId.text = b.assembly.snapshot.snapshotId.text ∧
        a.invocation.role = b.invocation.role ∧
        (session.serialiser.hexdigest a.body).text =
          (session.serialiser.hexdigest b.body).text := by
  obtain ⟨idsA, -, ha⟩ := assemble_eq_ok a.assembled
  obtain ⟨idsB, -, hb⟩ := assemble_eq_ok b.assembled
  unfold request
  rw [Invocation.idempotencyKey_request, Invocation.idempotencyKey_request, ha, hb]
  exact buildModelCallIdempotencyKey_inj (by decide) (by decide)

/-- Calls of one agent on one body send one payload exactly when they ask one question. -/
theorem samePayload_iff {a b : session.Call} (hrole : a.invocation.role = b.invocation.role)
    (hbody : a.body = b.body) :
    SamePayload a.request b.request ↔ a.question = b.question := by
  have hid : a.assembly.snapshot.snapshotId.text = b.assembly.snapshot.snapshotId.text :=
    congrArg PackageBody.snapshotId hbody
  have hsnapshot : a.assembly.snapshot = b.assembly.snapshot := by
    have hs := a.stored
    rw [hid] at hs
    exact Option.some.inj (hs.symm.trans b.stored)
  have hcontext := package_of_body a.assembled b.assembled hsnapshot hbody
  have hmoved : SamePayload (b.invocation.request { a.context with assembledAt := b.assembledAt })
      (b.invocation.request a.context) := Invocation.samePayload_assembledAt _ _
  have hquestion : b.invocation.question b.context = b.invocation.question a.context := by
    rw [← hcontext]
    cases b.invocation <;> rfl
  unfold request question
  rw [hquestion, ← Invocation.samePayload_iff_question hrole, ← hcontext]
  constructor
  · intro h k hk
    exact (h k hk).trans (hmoved k hk)
  · intro h k hk
    exact (h k hk).trans (hmoved k hk).symm

end Call

/-! ### Reuse -/

section Reuse

variable {R : Type} [DecidableEq R] (session : CognitiveSession) (calls : R → session.Call)

/-- Calls with one key send one payload, and a call is never answered with the output of a call
that sent another payload. -/
def ReuseAnswersSameQuestion : Prop :=
  (∀ i j, (calls i).request.idempotencyKey = (calls j).request.idempotencyKey →
    SamePayload (calls i).request (calls j).request) ∧
  ∀ (router : ModelRouter) (outside : Outside) (xs : List (PoolAction R Outside)) (n : ℕ) (id : R)
    (answer : ModelResult R),
    (router.runCalls (fun id ↦ (calls id).request) outside xs).Finished n id (.ok answer) →
      SamePayload (calls answer.requestId).request (calls id).request

/-- A reused output answers the same question, in every run of the calls of a session, exactly
when no agent is asked two questions on one assembled context. -/
theorem reuseAnswersSameQuestion_iff
    (hdigest : ∀ i j, (session.serialiser.hexdigest (calls i).body).text =
      (session.serialiser.hexdigest (calls j).body).text → (calls i).body = (calls j).body) :
    session.ReuseAnswersSameQuestion calls ↔
      ∀ i j, (calls i).invocation.role = (calls j).invocation.role →
        (calls i).body = (calls j).body → (calls i).question = (calls j).question := by
  constructor
  · rintro ⟨hkeys, -⟩ i j hrole hbody
    apply (Call.samePayload_iff hrole hbody).mp
    apply hkeys
    apply Call.sameKey_iff.mpr
    exact ⟨congrArg PackageBody.cycleId hbody, congrArg PackageBody.snapshotId hbody, hrole,
      by rw [hbody]⟩
  · intro h
    have hkeys (i j : R)
        (hkey : (calls i).request.idempotencyKey = (calls j).request.idempotencyKey) :
        SamePayload (calls i).request (calls j).request := by
      obtain ⟨-, -, hrole, htext⟩ := Call.sameKey_iff.mp hkey
      have hbody := hdigest i j htext
      exact (Call.samePayload_iff hrole hbody).mpr (h i j hrole hbody)
    refine ⟨hkeys, ?_⟩
    intro router outside xs n id answer hfinished
    rcases router.answers_of_run _ outside xs hfinished answer rfl with hid | hkey
    · rw [hid]
      exact fun _ _ ↦ rfl
    · exact hkeys _ _ hkey

end Reuse

/-! ### A debate of two strategies -/

namespace Sample

/-- A snapshot without bars. -/
def snapshot : MarketSnapshot :=
  { snapshotId := ⟨"00000000-0000-4000-8000-000000000001", by decide⟩
    underlying := .obj [("symbol", .str "SPY"), ("exchange_time", .str "2026-07-01T12:00:00Z"),
      ("last", .null), ("bid", .null), ("ask", .null), ("mid", .null), ("bid_size", .null),
      ("ask_size", .null), ("cumulative_volume", .null), ("source", .str "unknown")]
    bars1m := []
    bars5m := []
    featureSnapshotId := none
    optionSurfaceId := none
    dataQualityId := "00000000-0000-4000-8000-000000000002" }

/-- The digests of the two bodies below. -/
def hexdigest (body : PackageBody) : PlainText :=
  if body.cycleId = "c1" then
    ⟨"ddb548e574d2a6bdb57ebb8bac72a2ffecfcc238958a3e53a26f1b4cf543e95b", by decide⟩
  else ⟨"78a34c627f583b06a2159b18d2521aae16ebd452b22c9b5888ac1b2ee89fbfae", by decide⟩

/-- A session with one stored snapshot. -/
def session : CognitiveSession :=
  { sessionId := "s"
    config := .default
    serialiser := ⟨hexdigest, fun _ ↦ 512, Json.text?⟩
    snapshots := fun id ↦ if id = snapshot.snapshotId.text then some snapshot else none }

/-- The context that the cycles of the session hand to their agents. -/
def assembly (cycleId : String) : Assembly :=
  ⟨.marketStructure, cycleId, snapshot, none, [], none, none, [], none⟩

/-- The falsifier's review of a strategy in a cycle. -/
def review (cycleId : String) (strategy : StrategyHypothesis) : session.Call :=
  { invocation := .debate .falsifier strategy
    assembly := assembly cycleId
    assembledAt := "2026-07-01T12:00:01Z"
    context := packageOf session.config session.serialiser session.sessionId (assembly cycleId) []
      "2026-07-01T12:00:01Z"
    stored := rfl
    assembled := rfl }

/-- Two strategies. -/
def strategy (name : String) : StrategyHypothesis := ⟨name, name, []⟩

/-- A router whose output types accept every text. -/
def router : ModelRouter := ⟨1, 1, fun _ _ ↦ true⟩

/-- Both strategies reviewed in one cycle, or each in its own. -/
def reviews (oneCycle : Bool) (second : Bool) : session.Call :=
  if second then review (if oneCycle then "c1" else "c2") (strategy "breakout")
  else review "c1" (strategy "fade")

end Sample

/-- The theorem at two reviews in two cycles. -/
theorem reuseAnswersSameQuestion_twoCycles :
    Sample.session.ReuseAnswersSameQuestion (Sample.reviews false) := by
  have hcycles (i j : Bool)
      (h : (Sample.session.serialiser.hexdigest (Sample.reviews false i).body).text =
        (Sample.session.serialiser.hexdigest (Sample.reviews false j).body).text) : i = j := by
    revert h
    cases i <;> cases j <;> decide
  apply (reuseAnswersSameQuestion_iff Sample.session (Sample.reviews false) ?_).mpr
  · intro i j _ hbody
    rw [hcycles i j (by rw [hbody])]
  · intro i j h
    rw [hcycles i j h]

/-- The first review runs to its end, then the second one is called. -/
def oneAfterAnother : List (PoolAction Bool Outside) :=
  .spawn false :: List.replicate 6 (.resume 0) ++ [.spawn true]

/-- The second review of the cycle returns the output of the first. -/
theorem returning_oneAfterAnother :
    (Sample.router.runCalls (fun id ↦ (Sample.reviews true id).request) ⟨.output "{}", false⟩
      oneAfterAnother).Returning 1 true (.ok ⟨false, "{}"⟩) := by
  unfold Pool.Returning
  decide +kernel

/-- In one cycle the second strategy's review is answered with the first one's. -/
theorem not_reuseAnswersSameQuestion_oneCycle :
    ¬ Sample.session.ReuseAnswersSameQuestion (Sample.reviews true) := by
  rintro ⟨-, hruns⟩
  have hfinished := Pool.finished_of_returning returning_oneAfterAnother
  have hpayload := hruns Sample.router ⟨.output "{}", false⟩ (oneAfterAnother ++ [.resume 1]) 1 true
    ⟨false, "{}"⟩ (by rw [ModelRouter.runCalls, run_snoc]; exact hfinished) "strategy_id"
    (by decide)
  have htext := congrArg (Option.map Json.text?) hpayload
  revert htext
  decide

end CognitiveSession

end Joker.Cognition
