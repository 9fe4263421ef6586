import Joker.Broker.Webull
import Joker.Ledger.ProjectionKeys
import Joker.Ledger.SubmissionStatus
import Joker.Runtime.Submission
import Joker.Runtime.WorkingOrders

/-!
# Live orders

Library `Runtime`. Calls of `submit_execution_command` for one client order id in one session,
interleaved with each other, with changes at the broker, with the events of other orders and
with restarts. A broker exception leaves a rejection in the ledger, which no later acceptance
takes back: what a call returns as pending, open or filled is shown alive exactly when no
earlier submission of the id has left its mark on the ledger.
-/

namespace Joker.Runtime

open Joker.Base Joker.Ledger Joker.Broker

variable {β ω : Type}

/-- A call for the client order, by a runtime of the session. -/
structure SessionCall (ω : Type) where
  index : ℕ
  runtimeAccountId : String
  intent : OrderIntent
  brokerAccountId : String
  inputs : SubmitInputs ω

/-- What happens besides the calls: a change at the broker, an event of another order that is
committed to the ledger, or a new process, whose broker object is a new one. -/
inductive SessionEvent (β : Type) where
  | broker (f : β → β)
  | record (e : LedgerEvent)
  | restart (f : β → β)

/-- The effect of an event. -/
def sessionEvent : SessionEvent β → World β → World β
  | .broker f, w => { w with broker := f w.broker }
  | .record e, w => { w with conn := ((w.conn.insert e none).1.commit none).1 }
  | .restart f, w => ⟨w.conn.rollback, f w.broker, [], fun _ ↦ Dict.empty⟩

section Session

variable [BrokerClient β ω] (sessionId clientOrderId : String)

/-- The coroutine of a call. -/
def sessionBody [DecimalContext] (call : SessionCall ω) : RuntimeM β ω BrokerOrder :=
  submitExecutionCommand ⟨call.index, sessionId, call.runtimeAccountId⟩
    ⟨clientOrderId, call.intent, call.brokerAccountId⟩ call.inputs

/-- Calls for one client order id, in any order of steps, with cancellations and restarts. -/
def runSession [DecimalContext] (w : World β)
    (xs : List (PoolAction (SessionCall ω) (SessionEvent β))) :
    Pool (SessionCall ω) (RuntimeOp ω) (World β) ExecutionError BrokerOrder :=
  run (Pool.step (sessionBody sessionId clientOrderId) sessionEvent) (Pool.start w) xs

end Session

/-- `get_by_session`. -/
def rowsOf (sessionId : String) (conn : Conn) : List LedgerEvent :=
  conn.query (fun e ↦ e.sessionId = sessionId)

/-- A status of a live order. -/
def BrokerStatus.Live (status : BrokerStatus) : Prop := status ∈ [.pending, .open, .filled]

instance (status : BrokerStatus) : Decidable (BrokerStatus.Live status) :=
  inferInstanceAs (Decidable (_ ∈ _))

/-- The session's projection shows the client order neither as rejected nor as cancelled, and
lists it as working unless the broker has filled it. -/
def ShownAlive [DecimalContext] (sessionId clientOrderId : String) (order : BrokerOrder)
    (conn : Conn) : Prop :=
  ∃ state, project (rowsOf sessionId conn) = .ok state ∧
    (∀ known ∈ state.orders.get? clientOrderId, known.status ∉ [.rejected, .cancelled]) ∧
    (order.status ≠ .filled → ∃ working ∈ workingOrdersFromProjection (some state) Dict.empty,
      working.clientOrderId = clientOrderId)

/-- No earlier submission stands in the way of the order: the session's ledger has no rejection
of the client order, unless a fill outweighs it; for an order that is not filled it has a
request and no fill of an earlier order. -/
def Unhampered (sessionId clientOrderId : String) (order : BrokerOrder) (conn : Conn) : Prop :=
  if order.status = .filled then
    RejectedIn clientOrderId (rowsOf sessionId conn) →
      FilledIn clientOrderId (rowsOf sessionId conn)
  else
    RequestedIn clientOrderId (rowsOf sessionId conn) ∧
      ¬ RejectedIn clientOrderId (rowsOf sessionId conn) ∧
      ¬ FilledIn clientOrderId (rowsOf sessionId conn)

/-- The committed rows come first, no two rows share an id or a key, and the session's rows
replay, those of the client order as events of submissions. -/
structure Sound [DecimalContext] (sessionId clientOrderId : String) (conn : Conn) : Prop where
  durable : conn.durable <+: conn.rows
  ids : (conn.rows.map (fun e ↦ e.ledgerEventId)).Nodup
  keys : (conn.rows.map (fun e ↦ e.idempotencyKey)).Nodup
  replayable : ∀ e ∈ conn.rows, e.sessionId = sessionId → e.Replayable
  ofSubmission : ∀ e ∈ conn.rows, e.sessionId = sessionId → e.clientOrderId = clientOrderId →
    e.OfSubmission

section Runs

variable {sessionId clientOrderId : String}

/-! ### What a ledger shows -/

private theorem perm_rowsOf (conn : Conn) :
    (rowsOf sessionId conn).Perm (conn.rows.filter (fun e ↦ e.sessionId = sessionId)) :=
  List.perm_insertionSort _ _

private theorem nodup_map_rowsOf {conn : Conn} {γ : Type} {f : LedgerEvent → γ}
    (h : (conn.rows.map f).Nodup) : ((rowsOf sessionId conn).map f).Nodup := by
  rw [((perm_rowsOf conn).map f).nodup_iff]
  exact (List.filter_sublist.map f).nodup h

private theorem mem_rowsOf {conn : Conn} {e : LedgerEvent} :
    e ∈ rowsOf sessionId conn ↔ e ∈ conn.rows ∧ e.sessionId = sessionId := by
  unfold rowsOf
  rw [mem_query, decide_eq_true_eq]

private theorem exists_shown [DecimalContext] {conn : Conn}
    (h : Sound sessionId clientOrderId conn) :
    ∃ state, project (rowsOf sessionId conn) = .ok state ∧
      ShownBy clientOrderId (rowsOf sessionId conn) (state.orders.get? clientOrderId) ∧
      state.orders.Keyed (fun order ↦ order.clientOrderId) := by
  have hreplay : ∀ e ∈ rowsOf sessionId conn, e.Replayable := fun e he ↦
    h.replayable e (mem_rowsOf.mp he).1 (mem_rowsOf.mp he).2
  obtain ⟨state, hstate⟩ := project_ok_of_replayable hreplay
  obtain ⟨r, hr, rfl⟩ := project_eq_ok.mp hstate
  refine ⟨_, hstate, ?_, (keyed_replay hr).1⟩
  exact shownBy_replay hr (nodup_map_rowsOf h.ids) (nodup_map_rowsOf h.keys)
    (fun e he ↦ h.ofSubmission e (mem_rowsOf.mp he).1 (mem_rowsOf.mp he).2)

private theorem listed_iff {state : ProjectionState} (hne : clientOrderId ≠ "")
    (hkeyed : state.orders.Keyed (fun order ↦ order.clientOrderId)) :
    (∃ working ∈ workingOrdersFromProjection (some state) Dict.empty,
      working.clientOrderId = clientOrderId) ↔
    ∃ known ∈ state.orders.get? clientOrderId,
      known.status ∈ [.submitted, .accepted, .partiallyFilled] := by
  unfold workingOrdersFromProjection
  simp only [List.mem_filterMap]
  constructor
  · rintro ⟨working, ⟨known, hmem, hw⟩, hid⟩
    unfold workingOrder at hw
    split at hw
    · next hstatus =>
      cases hw
      obtain ⟨key, hkey⟩ := (Dict.mem_values_iff _ _).mp hmem
      have hk : known.clientOrderId = key := hkeyed key known hkey
      rw [← hk, show known.clientOrderId = clientOrderId from hid] at hkey
      exact ⟨known, hkey, value_mem_workingStatuses.mp hstatus.1⟩
    · cases hw
  · rintro ⟨known, hk, hstatus⟩
    have hid : known.clientOrderId = clientOrderId := hkeyed clientOrderId known hk
    refine ⟨_, ⟨known, (Dict.mem_values_iff _ _).mpr ⟨clientOrderId, hk⟩, if_pos ⟨?_, ?_⟩⟩, hid⟩
    · exact value_mem_workingStatuses.mpr hstatus
    · rw [hid]
      exact hne

private theorem ne_empty_of_requestedIn {events : List LedgerEvent}
    (h : RequestedIn clientOrderId events) : clientOrderId ≠ "" := by
  obtain ⟨e, -, rfl, -⟩ := h
  exact e.clientOrderId_ne_empty

private theorem unhampered_of_shownAlive [DecimalContext] {conn : Conn} {order : BrokerOrder}
    (h : Sound sessionId clientOrderId conn)
    (halive : ShownAlive sessionId clientOrderId order conn) :
    Unhampered sessionId clientOrderId order conn := by
  obtain ⟨state, hstate, hshown, hkeyed⟩ := exists_shown h
  obtain ⟨state', hstate', halive, hlisted⟩ := halive
  unfold Unhampered
  rw [hstate] at hstate'
  cases hstate'
  split
  · intro hrej
    cases hk : state.orders.get? clientOrderId with
    | none =>
      rw [hk] at hshown
      exact absurd hrej hshown.2.1
    | some known =>
      rw [hk] at hshown
      rcases hshown with ⟨-, hf⟩ | ⟨hs, -⟩ | ⟨-, -, hnot, -⟩
      · exact hf
      · exact absurd (by simp [hs]) (halive known hk)
      · exact absurd hrej hnot
  · next hopen =>
    have hne : clientOrderId ≠ "" := by
      rintro rfl
      obtain ⟨working, hmem, hid⟩ := hlisted hopen
      obtain ⟨known, -, hw⟩ := List.mem_filterMap.mp hmem
      unfold workingOrder at hw
      split at hw
      · next hcond =>
        cases hw
        exact hcond.2 hid
      · cases hw
    obtain ⟨known, hk, hstatus⟩ := (listed_iff hne hkeyed).mp (hlisted hopen)
    rw [Option.mem_def.mp hk] at hshown
    rcases hshown with ⟨hs, -⟩ | ⟨hs, -⟩ | ⟨-, hreq, hrej, hfill, -⟩
    · rw [hs] at hstatus
      exact absurd hstatus (by decide)
    · rw [hs] at hstatus
      exact absurd hstatus (by decide)
    · exact ⟨hreq, hrej, hfill⟩

private theorem shownAlive_of_unhampered [DecimalContext] {conn : Conn} {order : BrokerOrder}
    (h : Sound sessionId clientOrderId conn) (hun : Unhampered sessionId clientOrderId order conn) :
    ShownAlive sessionId clientOrderId order conn := by
  obtain ⟨state, hstate, hshown, hkeyed⟩ := exists_shown h
  unfold Unhampered at hun
  refine ⟨state, hstate, ?_, ?_⟩
  · intro known hk hdead
    rw [Option.mem_def.mp hk] at hshown
    rcases hshown with ⟨hs, -⟩ | ⟨-, hrej, hfill, -⟩ | ⟨hs, -⟩
    · rw [hs] at hdead
      exact absurd hdead (by decide)
    · split at hun
      · exact hfill (hun hrej)
      · exact hun.2.1 hrej
    · rcases List.mem_pair.mp hs with hs | hs <;> rw [hs] at hdead <;>
        exact absurd hdead (by decide)
  · intro hopen
    rw [if_neg hopen] at hun
    apply (listed_iff (ne_empty_of_requestedIn hun.1) hkeyed).mpr
    cases hk : state.orders.get? clientOrderId with
    | none =>
      rw [hk] at hshown
      exact absurd hun.1 hshown.1
    | some known =>
      rw [hk] at hshown
      rcases hshown with ⟨-, hf⟩ | ⟨-, hrej, -⟩ | ⟨hs, -⟩
      · exact absurd hf hun.2.2
      · exact absurd hrej hun.2.1
      · refine ⟨known, rfl, ?_⟩
        rcases List.mem_pair.mp hs with hs | hs <;> simp [hs]

/-- On a sound ledger the order is shown alive exactly when nothing hampers it. -/
theorem shownAlive_iff [DecimalContext] {conn : Conn} (h : Sound sessionId clientOrderId conn)
    {order : BrokerOrder} :
    ShownAlive sessionId clientOrderId order conn ↔
      Unhampered sessionId clientOrderId order conn :=
  ⟨unhampered_of_shownAlive h, shownAlive_of_unhampered h⟩

/-! ### Ledgers stay sound -/

/-- A new row that replays, and is an event of a submission if it is one of the order. -/
def Fits [DecimalContext] (sessionId clientOrderId : String) (e : LedgerEvent) : Prop :=
  e.sessionId = sessionId → e.Replayable ∧ (e.clientOrderId = clientOrderId → e.OfSubmission)

private theorem sound_prefix [DecimalContext] {conn : Conn} (h : Sound sessionId clientOrderId conn)
    {rows : List LedgerEvent} (hp : rows.Sublist conn.rows) :
    Sound sessionId clientOrderId ⟨rows, rows⟩ where
  durable := List.prefix_refl _
  ids := (hp.map _).nodup h.ids
  keys := (hp.map _).nodup h.keys
  replayable e he := h.replayable e (hp.subset he)
  ofSubmission e he := h.ofSubmission e (hp.subset he)

private theorem sound_rollback [DecimalContext] {conn : Conn}
    (h : Sound sessionId clientOrderId conn) :
    Sound sessionId clientOrderId conn.rollback := sound_prefix h h.durable.sublist

private theorem sound_commit [DecimalContext] {conn : Conn} (h : Sound sessionId clientOrderId conn)
    (fault : Option String) : Sound sessionId clientOrderId (conn.commit fault).1 := by
  unfold Conn.commit
  cases fault with
  | some text => exact h
  | none => exact sound_prefix h (List.Sublist.refl _)

private theorem sound_insert [DecimalContext] {conn : Conn} (h : Sound sessionId clientOrderId conn)
    {e : LedgerEvent} (he : Fits sessionId clientOrderId e) (fault : Option String) :
    Sound sessionId clientOrderId (conn.insert e fault).1 := by
  unfold Conn.insert
  cases fault with
  | some text => exact h
  | none =>
    by_cases hv : conn.violates e = true
    · simp only [hv, if_true]
      exact h
    · simp only [hv, Bool.false_eq_true, if_false]
      have hnew : ∀ row ∈ conn.rows, row.ledgerEventId ≠ e.ledgerEventId ∧
          row.idempotencyKey ≠ e.idempotencyKey := by
        intro row hrow
        rw [← not_or]
        intro hsame
        apply hv
        unfold Conn.violates
        rw [List.any_eq_true]
        exact ⟨row, hrow, by simpa using hsame⟩
      have hnodup {f : LedgerEvent → String} (hf : (conn.rows.map f).Nodup)
          (hne : ∀ row ∈ conn.rows, f row ≠ f e) : ((conn.rows ++ [e]).map f).Nodup := by
        rw [List.map_append, List.map_singleton, List.nodup_append]
        refine ⟨hf, List.nodup_singleton _, ?_⟩
        intro a ha b hb
        obtain ⟨row, hrow, rfl⟩ := List.mem_map.mp ha
        rw [List.mem_singleton.mp hb]
        exact hne row hrow
      constructor
      · exact h.durable.trans (List.prefix_append _ _)
      · exact hnodup h.ids (fun row hrow ↦ (hnew row hrow).1)
      · exact hnodup h.keys (fun row hrow ↦ (hnew row hrow).2)
      · intro row hrow hs
        rcases List.mem_append.mp hrow with hrow | hrow
        · exact h.replayable row hrow hs
        · rw [List.mem_singleton.mp hrow] at hs ⊢
          exact (he hs).1
      · intro row hrow hs hk
        rcases List.mem_append.mp hrow with hrow | hrow
        · exact h.ofSubmission row hrow hs hk
        · rw [List.mem_singleton.mp hrow] at hs hk ⊢
          exact (he hs).2 hk

private theorem ofSubmission_of_written {rt : ExecutionRuntime} {command : ExecutionCommand}
    {e : LedgerEvent} (h : WrittenFor rt command e.toEventFields) : e.OfSubmission := by
  have htype : ∀ fields, e.toEventFields = fields →
      e.eventType = fields.eventType ∧ e.price = fields.price := by
    rintro _ rfl
    exact ⟨rfl, rfl⟩
  generalize hf : e.toEventFields = fields at h
  unfold LedgerEvent.OfSubmission
  rw [(htype fields hf).1, (htype fields hf).2]
  cases h with
  | requested stamp =>
    left
    exact List.mem_cons_self
  | accepted order stamp =>
    left
    exact List.mem_cons_of_mem _ List.mem_cons_self
  | rejected ex stamp =>
    left
    exact List.mem_cons_of_mem _ (List.mem_cons_of_mem _ List.mem_cons_self)
  | filled order price qty stamp =>
    right
    exact ⟨rfl, fun h ↦ nomatch h⟩

private theorem fits_of_written [DecimalContext] {rt : ExecutionRuntime}
    {command : ExecutionCommand} {e : LedgerEvent} (h : WrittenFor rt command e.toEventFields) :
    Fits sessionId clientOrderId e := by
  have hsub := ofSubmission_of_written h
  refine fun _ ↦ ⟨fun t ↦ applyEvent_ok e t ?_, fun _ ↦ hsub⟩
  intro hc
  rcases hsub with ht | ⟨ht, -⟩ <;> rw [hc] at ht <;> exact absurd ht (by decide)

private theorem sound_steps [DecimalContext] [BrokerClient β ω] (call : SessionCall ω) :
    (sessionBody sessionId clientOrderId call : RuntimeM β ω _).Steps (fun _ w w' ↦
      True → Sound sessionId clientOrderId w.conn → Sound sessionId clientOrderId w'.conn) := by
  apply steps_submitExecutionCommand .conn
  · constructor
    · intro label w w' _ hconn _ h
      rw [hconn]
      exact h
    · intro p
      apply steps_ledger
      apply steps_query
      exact fun _ _ _ w hw _ h ↦ hw ▸ h
    · intro stamp fields hwritten
      apply steps_record
      rintro e rfl
      apply steps_ledger
      apply steps_append
      · exact fun _ _ _ w hw _ h ↦ hw ▸ h
      · rintro _ w rfl _ h
        exact sound_insert h (fits_of_written hwritten) _
      · rintro _ w rfl _ h
        exact sound_commit h _
      · rintro _ w rfl _ h
        exact sound_rollback h
  · intro w _ h
    rw [conn_findOrSubmit]
    exact h

/-- An event besides the calls that leaves the client order alone. -/
def SessionEvent.Foreign [DecimalContext] (clientOrderId : String) : SessionEvent β → Prop
  | .record e => e.clientOrderId ≠ clientOrderId ∧ e.Replayable
  | _ => True

private theorem sound_sessionEvent [DecimalContext] {event : SessionEvent β} {w : World β}
    (he : event.Foreign clientOrderId) (h : Sound sessionId clientOrderId w.conn) :
    Sound sessionId clientOrderId (sessionEvent event w).conn := by
  cases event with
  | broker f => exact h
  | record e =>
    apply sound_commit
    exact sound_insert h (fun _ ↦ ⟨he.2, fun hk ↦ absurd hk he.1⟩) none
  | restart f => exact sound_rollback h

/-- The run: the ledger stays sound. -/
theorem sound_runSession [DecimalContext] [BrokerClient β ω] {start : World β}
    (hstart : Sound sessionId clientOrderId start.conn)
    {xs : List (PoolAction (SessionCall ω) (SessionEvent β))}
    (hev : ∀ event, .env event ∈ xs ∨ .crash event ∈ xs → event.Foreign clientOrderId) :
    Sound sessionId clientOrderId (runSession sessionId clientOrderId start xs).shared.conn := by
  have hbody (call : SessionCall ω) :=
    @sound_steps β ω sessionId clientOrderId _ _ call
  have henv (event : SessionEvent β) (w : World β) (he : event.Foreign clientOrderId)
      (h : Sound sessionId clientOrderId w.conn) :
      Sound sessionId clientOrderId (sessionEvent event w).conn := sound_sessionEvent he h
  exact Pool.invariant_run hbody henv hstart xs (fun pre a _ ↦ Pool.respects_true _ a) hev

/-- However calls, retries, restarts, broker changes and other orders interleave: every call
that returns a live order finds it shown alive exactly when at every such return no earlier
submission of the client order hampers it on the ledger before that step. -/
theorem liveOrder_shownAlive_iff [DecimalContext] [BrokerClient β ω] {start : World β}
    (hstart : Sound sessionId clientOrderId start.conn)
    {xs : List (PoolAction (SessionCall ω) (SessionEvent β))}
    (hev : ∀ event, .env event ∈ xs ∨ .crash event ∈ xs → event.Foreign clientOrderId) :
    (∀ pre i call order, pre ++ [.resume i] <+: xs →
      (runSession sessionId clientOrderId start pre).Returning i call (.ok order) →
      BrokerStatus.Live order.status → ShownAlive sessionId clientOrderId order
        (runSession sessionId clientOrderId start (pre ++ [.resume i])).shared.conn) ↔
    ∀ pre i call order, pre ++ [.resume i] <+: xs →
      (runSession sessionId clientOrderId start pre).Returning i call (.ok order) →
      BrokerStatus.Live order.status → Unhampered sessionId clientOrderId order
        (runSession sessionId clientOrderId start pre).shared.conn := by
  have hreturn (pre : List (PoolAction (SessionCall ω) (SessionEvent β))) (i : ℕ)
      (call : SessionCall ω) (order : BrokerOrder) (hp : pre ++ [.resume i] <+: xs)
      (hr : (runSession sessionId clientOrderId start pre).Returning i call (.ok order)) :
      ShownAlive sessionId clientOrderId order
        (runSession sessionId clientOrderId start (pre ++ [.resume i])).shared.conn ↔
      Unhampered sessionId clientOrderId order
        (runSession sessionId clientOrderId start pre).shared.conn := by
    have hpre : pre <+: xs := (List.prefix_append pre _).trans hp
    have hsound : Sound sessionId clientOrderId
        (runSession sessionId clientOrderId start pre).shared.conn :=
      sound_runSession hstart (fun event he ↦
        hev event (he.imp (fun h ↦ hpre.subset h) (fun h ↦ hpre.subset h)))
    -- The returning operation does not touch the ledger.
    have hconn : (runSession sessionId clientOrderId start
        (pre ++ [.resume i])).shared.conn =
          (runSession sessionId clientOrderId start pre).shared.conn := by
      have hbody (call : SessionCall ω) :
          (sessionBody sessionId clientOrderId call : RuntimeM β ω _).EndsWith
            (fun w w' _ ↦ w'.conn = w.conn) := endsWith_submitExecutionCommand _ _ _
      unfold runSession
      rw [run_snoc]
      exact Pool.endsWith_of_run hbody start pre hr
    rw [hconn]
    exact shownAlive_iff hsound
  constructor
  · intro h pre i call order hp hr hlive
    exact (hreturn pre i call order hp hr).mp (h pre i call order hp hr hlive)
  · intro h pre i call order hp hr hlive
    exact (hreturn pre i call order hp hr).mpr (h pre i call order hp hr hlive)

end Runs

open scoped DefaultContext

/-! ### Samples -/

/-- A call for the sample order through Webull. -/
def SessionCall.sample (answers : WebullAnswers) (tag : String) (second : ℕ) :
    SessionCall WebullAnswers :=
  { index := 0
    runtimeAccountId := "a"
    intent := ExecutionCommand.sample.intent
    brokerAccountId := "a"
    inputs := .sample answers tag second }

/-- A venue that does not answer in time. -/
def timingOut : WebullAnswers :=
  { WebullAnswers.accepting "w0" with placement := .refused ⟨"TimeoutError", "timed out"⟩ }

/-- An accepted order of the client order's own, a fee of another order, and a restart. -/
def acceptedThenRestarted : List (PoolAction (SessionCall WebullAnswers) (SessionEvent Webull)) :=
  .spawn (.sample (.accepting "w1") "1" 1) :: List.replicate 18 (.resume 0) ++
    [.env (.record ⟨{ EventFields.sample .feeRecorded "k" .buy 0 none with
        clientOrderId := "d" }, by decide +kernel⟩),
      .crash (.restart (fun _ ↦ Webull.new))]

private theorem sound_new : Sound "s" "c" (World.new Webull.new).conn where
  durable := List.prefix_refl _
  ids := List.nodup_nil
  keys := List.nodup_nil
  replayable _ h := nomatch h
  ofSubmission _ h := nomatch h

/-- The equivalence at an accepted order and a restart. -/
theorem liveOrder_shownAlive_acceptedThenRestarted :
    (∀ pre i call order, pre ++ [.resume i] <+: acceptedThenRestarted →
      (runSession "s" "c" (World.new Webull.new) pre).Returning i call (.ok order) →
      BrokerStatus.Live order.status → ShownAlive "s" "c" order
        (runSession "s" "c" (World.new Webull.new) (pre ++ [.resume i])).shared.conn) ↔
    ∀ pre i call order, pre ++ [.resume i] <+: acceptedThenRestarted →
      (runSession "s" "c" (World.new Webull.new) pre).Returning i call (.ok order) →
      BrokerStatus.Live order.status → Unhampered "s" "c" order
        (runSession "s" "c" (World.new Webull.new) pre).shared.conn :=
  liveOrder_shownAlive_iff sound_new (by
    rintro event (h | h)
    · simp [acceptedThenRestarted] at h
      rw [h]
      exact ⟨by decide, fun t ↦ ⟨_, rfl⟩⟩
    · simp [acceptedThenRestarted] at h
      rw [h]
      trivial)

/-- A call whose submission times out, and a retry up to its last operation. -/
def retriedAfterTimeout : List (PoolAction (SessionCall WebullAnswers) (SessionEvent Webull)) :=
  .spawn (.sample timingOut "1" 1) :: List.replicate 18 (.resume 0) ++
    .spawn (.sample (.accepting "w1") "2" 2) :: List.replicate 17 (.resume 1)

/-- The retry returns an open order that the projection shows as rejected. -/
theorem not_shownAlive_of_timeout :
    ∃ call order,
      (runSession "s" "c" (World.new Webull.new) retriedAfterTimeout).Returning 1 call (.ok order) ∧
      BrokerStatus.Live order.status ∧ ¬ ShownAlive "s" "c" order
        (runSession "s" "c" (World.new Webull.new)
          (retriedAfterTimeout ++ [.resume 1])).shared.conn := by
  have hresult : ((runSession "s" "c" (World.new Webull.new) retriedAfterTimeout).nextResult 1).map
      Prod.snd = some (.ok (BrokerOrder.ofIntent "w1" .open ExecutionCommand.sample.intent)) := by
    decide +kernel
  obtain ⟨⟨call, result⟩, hr, rfl⟩ := Option.map_eq_some_iff.mp hresult
  refine ⟨call, _, hr, by decide, ?_⟩
  rintro ⟨state, hstate, halive, -⟩
  have hrejected : (project (rowsOf "s" (runSession "s" "c" (World.new Webull.new)
      (retriedAfterTimeout ++ [.resume 1])).shared.conn)).toOption.bind
        (fun state ↦ (state.orders.get? "c").map (fun known ↦ known.status)) = some .rejected := by
    decide +kernel
  rw [hstate] at hrejected
  obtain ⟨known, hk, hs⟩ := Option.map_eq_some_iff.mp hrejected
  exact halive known hk (by simp [hs])

end Joker.Runtime
