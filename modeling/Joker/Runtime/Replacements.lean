import Joker.Base.Interference
import Joker.Runtime.GatewaySession

/-!
# Replacing orders

Library `Runtime`. Calls of `gateway.submit` between their `await` points, with what the runtime
records of the broker in between. A REPLACE is checked against the ledger before its original is
cancelled, and nothing is read again before the replacement is handed over. So the original may
fill in between, and a second REPLACE may pass its check.
-/

namespace Joker.Runtime

open Joker.Base Joker.Ledger Joker.Broker OrderActionGateway

/-! ### Calls -/

/-- A REPLACE that passed its checks and has not failed since. -/
structure Replacement (ι : Type) where
  call : ι
  original : String
  quantity : ℤ
  submitted : Bool
  deriving DecidableEq

/-- A session, and the history of its REPLACE requests, which no code reads. -/
structure Desk (ι : Type) where
  session : Session
  replacements : List (Replacement ι)

/-- Why `submit` raises. -/
inductive SubmitError where
  | projector (e : ProjectorError)
  | checks (message : String)
  | append
  | broker (e : PyException)
  | execution
  deriving DecidableEq

/-- What `submit` does between two `await` points. -/
inductive SubmitOp where
  | reload
  | cancel
  | update
  | reconcile
  | handOver (command : ExecutionCommand)
  | note
  deriving DecidableEq

namespace Desk

variable {ι : Type} [DecidableEq ι]

/-- A session without orders. -/
def new : Desk ι := ⟨Session.new, []⟩

/-- The call has raised. -/
def withdraw (id : ι) (s : Desk ι) : Desk ι :=
  { s with replacements := s.replacements.filter (fun r ↦ r.call ≠ id) }

/-- The call has handed its command over. -/
def noteSubmitted (id : ι) (s : Desk ι) : Desk ι :=
  { s with
    replacements := s.replacements.map
      (fun r ↦ if r.call = id then { r with submitted := true } else r) }

/-- The call has passed its checks. -/
def noteVerdict (id : ι) (request : OrderActionRequest) (verdict : Verdict) (s : Desk ι) :
    Desk ι :=
  match verdict with
  | .compiled command =>
    if request.action = .replace then
      { s with
        replacements := ⟨id, request.replaceOfClientOrderId.getD "", command.intent.quantity,
          false⟩ :: s.replacements }
    else s
  | .degraded _ _ | .blocked _ => s

/-- Build an event and append it, which may raise. -/
def append (id : ι) (stamp : Stamp) (fields : EventFields) (s : Desk ι) :
    Desk ι × Except SubmitError Unit :=
  match s.session.record stamp fields with
  | (session, true) => ({ s with session := session }, .ok ())
  | (session, false) => (({ s with session := session } : Desk ι).withdraw id, .error .append)

variable (gateway : OrderActionGateway)

/-- The projection is loaded and the request is checked. -/
def reload [DecimalContext] (id : ι) (call : GatewayCall) (s : Desk ι) :
    Desk ι × Except SubmitError Verdict :=
  match project s.session.ledger with
  | .error e => (s, .error (.projector e))
  | .ok state =>
    match gateway.verdict call.request (s.session.truth call state) with
    | .error message => (s, .error (.checks message))
    | .ok verdict => (s.noteVerdict id call.request verdict, .ok verdict)

/-- The broker's answer to the cancellation. -/
def cancel (id : ι) (call : GatewayCall) (s : Desk ι) : Desk ι × Except SubmitError BrokerOrder :=
  match call.cancelled with
  | .error e => (s.withdraw id, .error (.broker e))
  | .ok order => (s, .ok order)

/-- `on_broker_update` for the answer. -/
def update (id : ι) (call : GatewayCall) (order : BrokerOrder) (s : Desk ι) :
    Desk ι × Except SubmitError Unit :=
  match updateFields gateway.rt order (call.request.replaceOfClientOrderId.getD "")
      call.cancelledPrice call.cancelStamp with
  | none => (s, .ok ())
  | some fields => s.append id call.cancelStamp fields

/-- `run_reconciliation`, which changes no ledger. -/
def reconcile (id : ι) (call : GatewayCall) (s : Desk ι) : Desk ι × Except SubmitError Unit :=
  match call.reconciled with
  | some e => (s.withdraw id, .error (.broker e))
  | none => (s, .ok ())

/-- `submit_execution_command`, up to the request's event. -/
def handOver (id : ι) (call : GatewayCall) (command : ExecutionCommand) (s : Desk ι) :
    Desk ι × Except SubmitError Unit :=
  match s.append id call.requested (requestedFields gateway.rt command call.requested) with
  | (s', .error e) => (s', .error e)
  | (s', .ok ()) =>
    (s'.noteSubmitted id, if call.returned = true then .ok () else .error .execution)

/-- `submitted_proposal_ids.add`. -/
def note (call : GatewayCall) (s : Desk ι) : Desk ι × Except SubmitError Unit :=
  ({ s with session := s.session.note call.request.proposalId }, .ok ())

end Desk

/-- The code of one call. -/
abbrev DeskM (ι α : Type) := Coro SubmitOp (Desk ι) SubmitError α

section

variable {ι : Type} [DecidableEq ι] (gateway : OrderActionGateway)

/-- `cancel_order` of a REPLACE. -/
def cancelOriginal (id : ι) (call : GatewayCall) : DeskM ι Unit :=
  if call.request.action = .replace then do
    let order ← Coro.atomic .cancel (Desk.cancel id call)
    Coro.atomic .update (Desk.update gateway id call order)
    Coro.atomic .reconcile (Desk.reconcile id call)
  else pure ()

/-- `OrderActionGateway.submit`. -/
def submitRequest [DecimalContext] (id : ι) (call : GatewayCall) : DeskM ι Unit := do
  let verdict ← Coro.atomic .reload (Desk.reload gateway id call)
  match verdict with
  | .blocked _ => pure ()
  | .degraded command _ => Coro.atomic (.handOver command) (Desk.handOver gateway id call command)
  | .compiled command => do
    cancelOriginal gateway id call
    Coro.atomic (.handOver command) (Desk.handOver gateway id call command)
    Coro.atomic .note (Desk.note call)

end

/-- A report is recorded. -/
def Desk.report {ι : Type} (rt : ExecutionRuntime) (report : Report) (s : Desk ι) : Desk ι :=
  { s with session := s.session.report rt report }

section

variable {ι : Type} [DecidableEq ι] (gateway : OrderActionGateway) (calls : ι → GatewayCall)

/-- One action of the calls and the runtime. -/
def deskStep [DecimalContext] : Pool ι SubmitOp (Desk ι) SubmitError Unit → PoolAction ι Report →
    Pool ι SubmitOp (Desk ι) SubmitError Unit :=
  Pool.step (fun id ↦ submitRequest gateway id (calls id)) (Desk.report gateway.rt)

/-- Calls and reports in any order of their steps. -/
def runDesk [DecimalContext] (xs : List (PoolAction ι Report)) : Pool ι SubmitOp
    (Desk ι) SubmitError Unit :=
  run (deskStep gateway calls) (Pool.start Desk.new) xs

end

/-! ### The property -/

/-- The replacements that were submitted for an order. -/
def Desk.submittedFor {ι : Type} (s : Desk ι) (c : String) : List (Replacement ι) :=
  s.replacements.filter (fun r ↦ r.submitted = true ∧ r.original = c)

/-- At most one replacement was submitted for an order, and together with what the order has
filled it stays within what was requested. -/
def ReplaceBounded [DecimalContext] {ι : Type} (s : Desk ι) : Prop :=
  ∃ state, project s.session.ledger = .ok state ∧ ∀ c,
    (s.submittedFor c).length ≤ 1 ∧ (s.submittedFor c ≠ [] →
      ∃ order ∈ state.orders.get? c,
        order.filledQty + (((s.submittedFor c).map (·.quantity)).sum : ℤ) ≤ order.submittedQty)

/-! ### Conditions -/

/-- The ledger shows an order as working. -/
def Session.Works [DecimalContext] (s : Session) (c : String) : Prop :=
  ∃ order ∈ s.replayed.tables.orders.get? c, order.Working

instance [DecimalContext] (s : Session) (c : String) : Decidable (s.Works c) :=
  inferInstanceAs (Decidable (∃ _ ∈ _, _))

/-- The context keeps what a fill with these fields makes of its order. -/
def Session.KeepsOrderOf [DecimalContext] (s : Session) (fields : EventFields) : Prop :=
  ∀ e ∈ makeLedgerEvent fields, KeepsOrderSums s.replayed.freeze e

instance [DecimalContext] (s : Session) (fields : EventFields) : Decidable
    (s.KeepsOrderOf fields) :=
  inferInstanceAs (Decidable (∀ _ ∈ _, _))

/-- An event whose stamp comes after the rows. A fill that is new to the ledger is of whole
contracts, leaves the order the quantity of its replacement, and makes quantities of the order that
the context keeps. -/
def Desk.Fits [DecimalContext] {ι : Type} (s : Desk ι) (stamp : Stamp) (fields : EventFields) :
    Prop :=
  s.session.InOrder [stamp] ∧
    (s.session.Knows fields ∨ (fields.eventType ∈ [LedgerEventType.partialFill, .finalFill] →
      Whole fields.quantity ∧ s.session.KeepsOrderOf fields ∧
        ∀ r ∈ s.replacements, r.original = fields.clientOrderId →
          s.session.replayed.Room r.original (fields.quantity + r.quantity)))

instance [DecimalContext] {ι : Type} (s : Desk ι) (stamp : Stamp) (fields : EventFields) :
    Decidable (s.Fits stamp fields) :=
  inferInstanceAs (Decidable (_ ∧ (_ ∨ (_ → _ ∧ _ ∧ ∀ _ ∈ _, _))))

section

variable {ι : Type} [DecidableEq ι] (gateway : OrderActionGateway) (calls : ι → GatewayCall)

/-- What an operation needs. A REPLACE is checked when no other one of its original is under way
or submitted, unless the original works no longer; the answer to a cancellation reports no fill
that does not fit; nothing new is submitted under the id of an order that is replaced; and events
are recorded in the order of their stamps. -/
def Allowed [DecimalContext] (id : ι) (op : SubmitOp) (s : Desk ι) : Prop :=
  match op with
  | .reload => (calls id).request.action = .replace → ∀ r ∈ s.replacements,
      some r.original = (calls id).request.replaceOfClientOrderId → ¬ s.session.Works r.original
  | .update =>
    match (calls id).cancelled with
    | .error _ => True
    | .ok order => ∀ fields ∈ updateFields gateway.rt order
        ((calls id).request.replaceOfClientOrderId.getD "") (calls id).cancelledPrice
        (calls id).cancelStamp, s.Fits (calls id).cancelStamp fields
  | .handOver command =>
    s.session.InOrder [(calls id).requested] ∧
      (s.session.Knows (requestedFields gateway.rt command (calls id).requested) ∨
        ∀ r ∈ s.replacements, r.original ≠ command.clientOrderId)
  | .cancel | .reconcile | .note => True

instance [DecimalContext] (id : ι) (op : SubmitOp) (s : Desk ι) : Decidable
    (Allowed gateway calls id op s) := by
  unfold Allowed
  split
  · infer_instance
  · split <;> infer_instance
  · infer_instance
  all_goals infer_instance

/-- A step whose operation is allowed, or that records a report that fits. -/
def KeepsRoom [DecimalContext] (p : Pool ι SubmitOp (Desk ι) SubmitError Unit)
    (a : PoolAction ι Report) : Prop :=
  p.Meets (Allowed gateway calls) a ∧
    ∀ report ∈ a.event?, ∀ fields ∈ report.fields gateway.rt, p.shared.Fits report.stamp fields

instance [DecimalContext] (p : Pool ι SubmitOp (Desk ι) SubmitError Unit)
    (a : PoolAction ι Report) :
    Decidable (KeepsRoom gateway calls p a) :=
  inferInstanceAs (Decidable (_ ∧ ∀ _ ∈ _, ∀ _ ∈ _, _))

end

/-! ### Steps -/

namespace Desk

variable {ι : Type}

/-- The orders under replacement, with the quantities that are to replace them. -/
def claims (s : Desk ι) : List (String × ℤ) := s.replacements.map (fun r ↦ (r.original, r.quantity))

/-- The invariant: rows in order, whole contracts throughout, every order under replacement has room
for its replacement, and no order has two. -/
structure Sound [DecimalContext] (s : Desk ι) : Prop where
  orderly : s.session.Orderly
  plain : ∀ e ∈ s.session.ledger, e.NotCorrection
  whole : s.session.replayed.ForallOrders OrderLifecycle.InContracts
  filled : s.session.replayed.ForallOrders (fun o ↦ 0 ≤ o.filledQty)
  positive : ∀ k ∈ s.claims, 0 < k.2
  room : ∀ k ∈ s.claims, s.session.replayed.Room k.1 k.2
  once : (s.claims.map Prod.fst).Nodup

/-- A history with no more claims. -/
theorem Sound.of_sublist [DecimalContext] {s s' : Desk ι} (h : s.Sound)
    (hsession : s'.session = s.session)
    (hclaims : s'.claims.Sublist s.claims) : s'.Sound where
  orderly := hsession ▸ h.orderly
  plain := hsession ▸ h.plain
  whole := hsession ▸ h.whole
  filled := hsession ▸ h.filled
  positive k hk := h.positive k (hclaims.subset hk)
  room k hk := hsession ▸ h.room k (hclaims.subset hk)
  once := h.once.sublist (hclaims.map Prod.fst)

/-- A recorded event keeps the invariant, when it is known, or takes no claimed room and what it
makes of its order is kept. -/
theorem sound_record [DecimalContext] {s : Desk ι} (h : s.Sound) {rt : ExecutionRuntime}
    {stamp : Stamp}
    {fields : EventFields} (hstamped : Stamped rt stamp fields)
    (hbefore : s.session.InOrder [stamp])
    (hplain : fields.eventType ≠ .reconciliationCorrection)
    (hok : s.session.Knows fields ∨ (Whole fields.quantity ∧ s.session.KeepsOrderOf fields ∧
      (fields.eventType = .orderSubmissionRequested →
        ∀ k ∈ s.claims, fields.clientOrderId ≠ k.1) ∧
      (fields.eventType ∈ [LedgerEventType.partialFill, .finalFill] → ∀ k ∈ s.claims,
        fields.clientOrderId = k.1 → s.session.replayed.Room k.1 (fields.quantity + k.2)))) :
    ({ s with session := (s.session.record stamp fields).1 } : Desk ι).Sound := by
  have hrows := hbefore.2 stamp List.mem_cons_self
  rcases Session.ledger_record h.orderly hstamped hrows with ⟨hsame, -⟩ | ⟨e, rfl, hnew, hledger⟩
  · rwa [hsame]
  · obtain ⟨hwhole, hkeeps, hsub, hfill⟩ := hok.resolve_left hnew
    have hkept := hkeeps e (makeLedgerEvent_toEventFields e)
    have hreplayed : (s.session.record stamp e.toEventFields).1.replayed =
        s.session.replayed.next e := by
      unfold Session.replayed
      rw [hledger, run_snoc]
    constructor
    · exact Session.orderly_record h.orderly hstamped hrows
    · intro x hx
      rw [hledger] at hx
      rcases List.mem_append.mp hx with hx | hx
      · exact h.plain x hx
      · rwa [List.mem_singleton.mp hx]
    · rw [hreplayed]
      exact inContracts_next h.whole hplain hwhole hkept
    · rw [hreplayed]
      exact filled_nonneg_next h.filled hplain
    · exact h.positive
    · intro k hk
      rw [hreplayed]
      apply room_next (by exact_mod_cast h.positive k hk) h.filled (h.room k hk) hplain
      · exact fun hs ↦ hsub hs k hk
      · intro hf
        refine hfill ?_ k hk
        unfold LedgerEvent.isFill at hf
        simpa using hf
      · exact hkept
    · exact h.once

/-- A report that fits keeps the invariant. -/
theorem sound_fits [DecimalContext] {s : Desk ι} (h : s.Sound) {rt : ExecutionRuntime}
    {stamp : Stamp}
    {fields : EventFields} (hstamped : Stamped rt stamp fields) (hreports : OfReport fields)
    (hfits : s.Fits stamp fields) :
    ({ s with session := (s.session.record stamp fields).1 } : Desk ι).Sound := by
  apply sound_record h hstamped hfits.1 hreports.not_correction
  apply hfits.2.imp_right
  intro hroom
  by_cases hfill : fields.eventType ∈ [LedgerEventType.partialFill, .finalFill]
  · obtain ⟨hwhole, hkeeps, hall⟩ := hroom hfill
    refine ⟨hwhole, hkeeps, fun hs ↦ absurd hs hreports.not_submission, ?_⟩
    intro _ k hk hmine
    obtain ⟨r, hr, rfl⟩ := List.mem_map.mp hk
    exact hall r hr hmine.symm
  · exact ⟨hreports.whole hfill,
      fun e he hcounts ↦ absurd hcounts (not_counts_of_fields hfill _ e he),
      fun hs ↦ absurd hs hreports.not_submission, fun hf ↦ absurd hf hfill⟩

private theorem sound_report [DecimalContext] {s : Desk ι} (h : s.Sound) {rt : ExecutionRuntime}
    {report : Report}
    (hfits : ∀ fields ∈ report.fields rt, s.Fits report.stamp fields) :
    (s.report rt report).Sound := by
  unfold Desk.report Session.report
  split
  · exact h
  · next fields hfields =>
    exact sound_fits h (stamped_fields report fields hfields)
      (ofReport_fields report fields hfields) (hfits fields hfields)

variable {s : Desk ι} {gateway : OrderActionGateway} {calls : ι → GatewayCall}

/-- A REPLACE that passes its checks claims room that is there, on an order without a claim. -/
theorem sound_reload [DecimalContext] (h : s.Sound) (id : ι)
    (hok : Allowed gateway calls id .reload s) :
    (reload gateway id (calls id) s).1.Sound := by
  unfold reload
  rw [Session.project_of_plain h.plain]
  simp only
  cases hverdict : gateway.verdict (calls id).request
      (s.session.truth (calls id) s.session.replayed.freeze) with
  | error message => exact h
  | ok verdict =>
    cases verdict with
    | blocked reason => exact h
    | degraded command reason => exact h
    | compiled command =>
      simp only [noteVerdict]
      split
      · next hreplace =>
        obtain ⟨c, order, hc, horder, hworking, -, -, hroom⟩ :=
          original_of_compiled h.plain h.whole hverdict hreplace
        have hpos := quantity_pos_of_verdict hverdict rfl
        have hfree : c ∉ s.claims.map Prod.fst := by
          intro hmem
          obtain ⟨k, hk, rfl⟩ := List.mem_map.mp hmem
          obtain ⟨r, hr, rfl⟩ := List.mem_map.mp hk
          exact hok hreplace r hr hc.symm ⟨order, horder, hworking⟩
        constructor
        · exact h.orderly
        · exact h.plain
        · exact h.whole
        · exact h.filled
        · intro k hk
          rcases List.mem_cons.mp hk with rfl | hk
          · exact hpos
          · exact h.positive k hk
        · intro k hk
          rcases List.mem_cons.mp hk with rfl | hk
          · simp only [hc, Option.getD_some]
            exact ⟨order, horder, hroom⟩
          · exact h.room k hk
        · change (_ :: s.claims.map Prod.fst).Nodup
          rw [hc, List.nodup_cons]
          exact ⟨hfree, h.once⟩
      · exact h

/-- Noting the proposal leaves the ledger alone. -/
theorem sound_note [DecimalContext] (h : s.Sound) {call : GatewayCall} : (note call s).1.Sound := by
  unfold note Session.note
  simp only
  split
  · exact ⟨⟨h.orderly.settled, h.orderly.sorted⟩, h.plain, h.whole, h.filled, h.positive, h.room,
      h.once⟩
  · exact h

variable [DecidableEq ι]

private theorem sound_withdraw [DecimalContext] (h : s.Sound) (id : ι) : (s.withdraw id).Sound :=
  h.of_sublist rfl (List.filter_sublist.map _)

private theorem claims_noteSubmitted (id : ι) (s : Desk ι) :
    (s.noteSubmitted id).claims = s.claims := by
  unfold claims noteSubmitted
  rw [List.map_map]
  apply List.map_congr_left
  intro r _
  simp only [Function.comp_apply]
  split <;> rfl

/-- An event that may be appended keeps the invariant, whether or not that raises. -/
theorem sound_append [DecimalContext] (id : ι) {stamp : Stamp} {fields : EventFields}
    (hrecord : ({ s with session := (s.session.record stamp fields).1 } : Desk ι).Sound) :
    (s.append id stamp fields).1.Sound := by
  unfold append
  split
  · next session hs => rwa [hs] at hrecord
  · next session hs =>
    rw [hs] at hrecord
    exact sound_withdraw hrecord id

private theorem sound_handOver [DecimalContext] (h : s.Sound) (id : ι) {command : ExecutionCommand}
    (hok : Allowed gateway calls id (.handOver command) s) :
    (handOver gateway id (calls id) command s).1.Sound := by
  have hstamped : Stamped gateway.rt (calls id).requested
      (requestedFields gateway.rt command (calls id).requested) := ⟨rfl, rfl, rfl, rfl⟩
  have hnofill : (requestedFields gateway.rt command (calls id).requested).eventType ∉
      [LedgerEventType.partialFill, .finalFill] :=
    show LedgerEventType.orderSubmissionRequested ∉ _ by decide
  have happend : (s.append id (calls id).requested
      (requestedFields gateway.rt command (calls id).requested)).1.Sound := by
    apply sound_append id
    apply sound_record h hstamped hok.1
    · exact fun hc ↦ nomatch hc
    · refine Or.imp_right ?_ hok.2
      intro hnew
      refine ⟨⟨command.intent.quantity, rfl⟩,
        fun e he hcounts ↦ absurd hcounts (not_counts_of_fields hnofill _ e he), ?_, ?_⟩
      · intro _ k hk
        obtain ⟨r, hr, rfl⟩ := List.mem_map.mp hk
        exact (hnew r hr).symm
      · exact fun hf ↦ absurd hf hnofill
  unfold handOver
  split
  · next s' e hs' => exact hs' ▸ happend
  · next s' hs' =>
    rw [hs'] at happend
    exact happend.of_sublist rfl (claims_noteSubmitted id s' ▸ List.Sublist.refl _)

private theorem sound_update [DecimalContext] (h : s.Sound) (id : ι) {order : BrokerOrder}
    (hcancelled : (calls id).cancelled = .ok order) (hok : Allowed gateway calls id .update s) :
    (update gateway id (calls id) order s).1.Sound := by
  unfold Allowed at hok
  simp only [hcancelled] at hok
  unfold update
  split
  · exact h
  · next fields hfields =>
    exact sound_append id (sound_fits h (stamped_updateFields fields hfields)
      (ofReport_updateFields fields hfields) (hok fields hfields))

end Desk

/-! ### Runs -/

section

variable {ι : Type} [DecidableEq ι] {gateway : OrderActionGateway} {calls : ι → GatewayCall}

/-- Calls keep the invariant and expect no more of each other. -/
def deskContract [DecimalContext] (gateway : OrderActionGateway) (calls : ι → GatewayCall) :
    Interference ι SubmitOp (Desk ι) where
  inv := Desk.Sound
  rely _ _ _ := True
  guar _ _ _ := True
  ok := Allowed gateway calls
  rely_refl _ _ := trivial
  rely_trans _ _ _ _ _ _ := trivial
  rely_of_guar _ _ _ _ _ _ := trivial

omit [DecidableEq ι] in
private theorem safe_op [DecimalContext] {α : Type} {id : ι} {op : SubmitOp}
    {f : Desk ι → Desk ι × Except SubmitError α}
    (h : ∀ s, s.Sound → Allowed gateway calls id op s → (f s).1.Sound) (s : Desk ι) :
    (Coro.atomic op f).Safe (deskContract gateway calls) id (fun _ _ ↦ True) s :=
  Coro.safe_atomic (fun s' _ hs hok ↦ ⟨h s' hs hok, trivial, trivial⟩)

private theorem safe_cancelOriginal [DecimalContext] (id : ι) {s : Desk ι} (hs : s.Sound) :
    (cancelOriginal gateway id (calls id)).Safe (deskContract gateway calls) id
      (fun _ _ ↦ True) s := by
  have hcancel : (Coro.atomic .cancel (Desk.cancel id (calls id))).Safe
      (deskContract gateway calls) id
      (fun result _ ↦ ∀ order, result = .ok order → (calls id).cancelled = .ok order) s := by
    apply Coro.safe_atomic
    intro s' _ hs' _
    unfold Desk.cancel
    cases hanswer : (calls id).cancelled with
    | error e => exact ⟨Desk.sound_withdraw hs' id, trivial, fun order h ↦ nomatch h⟩
    | ok order =>
      refine ⟨hs', trivial, ?_⟩
      rintro _ ⟨⟩
      rfl
  unfold cancelOriginal
  split
  · apply Coro.safe_bind hcancel hs
    · intro order s₁ hs₁ hanswer
      apply Coro.safe_bind (safe_op ?_ s₁) hs₁
      · intro _ s₂ _ _
        apply safe_op
        intro s' hs' _
        unfold Desk.reconcile
        split
        · exact Desk.sound_withdraw hs' id
        · exact hs'
      · exact fun _ _ _ ↦ trivial
      · exact fun s' hs' hok ↦ Desk.sound_update hs' id (hanswer order rfl) hok
    · exact fun _ _ _ ↦ trivial
  · trivial

private theorem safe_submitRequest [DecimalContext] (id : ι) {s : Desk ι} (hs : s.Sound) :
    (submitRequest gateway id (calls id)).Safe (deskContract gateway calls) id
      (fun _ _ ↦ True) s := by
  have hhand (command : ExecutionCommand) (s : Desk ι) :
      (Coro.atomic (.handOver command) (Desk.handOver gateway id (calls id) command)).Safe
        (deskContract gateway calls) id (fun _ _ ↦ True) s :=
    safe_op (fun _ hs hok ↦ Desk.sound_handOver hs id hok) s
  unfold submitRequest
  apply Coro.safe_bind (safe_op (fun _ hs hok ↦ Desk.sound_reload hs id hok) s) hs
  · intro verdict s₁ hs₁ _
    cases verdict with
    | blocked reason => trivial
    | degraded command reason => exact hhand command s₁
    | compiled command =>
      apply Coro.safe_bind (safe_cancelOriginal id hs₁) hs₁
      · intro _ s₂ hs₂ _
        apply Coro.safe_bind (hhand command s₂) hs₂
        · intro _ s₃ _ _
          apply safe_op
          intro s' hs' _
          exact Desk.sound_note hs'
        · exact fun _ _ _ ↦ trivial
      · exact fun _ _ _ ↦ trivial
  · exact fun _ _ _ ↦ trivial

/-- Every call and every report that fits keeps the invariant. -/
theorem respectful_submitRequest [DecimalContext] :
    Pool.Respectful (fun id ↦ submitRequest gateway id (calls id)) (Desk.report gateway.rt)
      (fun report s ↦ ∀ fields ∈ report.fields gateway.rt, s.Fits report.stamp fields)
      (deskContract gateway calls) (fun _ _ ↦ True) (fun _ _ _ ↦ True) where
  body id _ hs _ := safe_submitRequest id hs
  env _ _ hfits hs := ⟨Desk.sound_report hs hfits, fun _ ↦ trivial⟩
  start _ _ _ _ _ := trivial
  stable _ _ _ _ _ _ := trivial

omit [DecidableEq ι] in
/-- Where every order under replacement has room for its one replacement, no order is enlarged. -/
theorem replaceBounded_of_sound [DecimalContext] {s : Desk ι} (h : s.Sound) : ReplaceBounded s := by
  refine ⟨_, Session.project_of_plain h.plain, fun c ↦ ?_⟩
  have honce : (s.replacements.map (·.original)).Nodup := by
    have hmap := h.once
    unfold Desk.claims at hmap
    rwa [List.map_map] at hmap
  have hmine (r : Replacement ι) (hr : r ∈ s.submittedFor c) :
      r ∈ s.replacements ∧ r.original = c := by
    obtain ⟨hmem, hc⟩ := List.mem_filter.mp hr
    exact ⟨hmem, (of_decide_eq_true hc).2⟩
  have hnodup : ((s.submittedFor c).map (·.original)).Nodup :=
    honce.sublist (List.filter_sublist.map _)
  cases hlist : s.submittedFor c with
  | nil => exact ⟨Nat.zero_le 1, fun hne ↦ absurd rfl hne⟩
  | cons r rest =>
    rw [hlist] at hmine hnodup
    obtain ⟨hr, hc⟩ := hmine r List.mem_cons_self
    cases rest with
    | cons r' rest =>
      -- two submitted replacements would be claims on one order
      rw [List.map_cons, List.map_cons, hc, (hmine r' (by simp)).2] at hnodup
      exact absurd List.mem_cons_self (List.nodup_cons.mp hnodup).1
    | nil =>
      refine ⟨le_refl 1, fun _ ↦ ?_⟩
      have hroom := h.room (r.original, r.quantity) (List.mem_map.mpr ⟨r, hr, rfl⟩)
      rw [hc] at hroom
      rw [List.map_singleton, List.sum_singleton]
      exact hroom

/-- In a run where no REPLACE is checked while another one of a working order is under way, and
fills leave each replaced order the quantity of its replacement, no REPLACE enlarges an order. -/
theorem replaceBounded_of_keepsRoom [DecimalContext] (gateway : OrderActionGateway)
    (calls : ι → GatewayCall)
    (xs : List (PoolAction ι Report)) (hids : (xs.filterMap (·.spawned?)).Nodup)
    (h : StepsMeet (deskStep gateway calls) (KeepsRoom gateway calls) (Pool.start Desk.new) xs) :
    ∀ pre, pre <+: xs → ReplaceBounded (runDesk gateway calls pre).shared := by
  have hstart : (Desk.new : Desk ι).Sound := by
    constructor
    · exact Session.orderly_new
    · exact fun e he ↦ nomatch he
    · exact fun _ _ ho ↦ nomatch ho
    · exact fun _ _ ho ↦ nomatch ho
    · exact fun k hk ↦ nomatch hk
    · exact fun k hk ↦ nomatch hk
    · exact List.nodup_nil
  have hok := ok_of_stepsMeet h
  intro pre hp
  exact replaceBounded_of_sound (Pool.allSafe_run respectful_submitRequest hstart
    (fun _ ↦ trivial) hids (fun pre a hp ↦ (hok pre a hp).2) (fun pre a hp ↦ (hok pre a hp).1)
    pre hp).inv

end

/-! ### Samples -/

open scoped DefaultContext

private def workedContract : String := "SPY:2026-07-01:500.0:call"

/-- A request for four contracts, or for the rest of such an order. -/
private def requestOf (action : OrderActionKind) (quantity : ℤ) (clientOrderId : String) :
    OrderActionRequest :=
  { OrderActionRequest.sample action workedContract .buy quantity clientOrderId with
    replaceOfClientOrderId := if action = .replace then some "first" else none }

/-- The broker's order of the first request. -/
private def workedOrder (status : BrokerStatus) : BrokerOrder :=
  .ofIntent "b" status (commandOf (requestOf .entry 4 "first") "first"
    ⟨"SPY", ⟨2026, 7, 1⟩, ⟨⟨false, 5000, -1⟩⟩, .call⟩ .buy 4).intent

/-- A call whose two events are recorded in the given second. -/
private def submitCallOf (request : OrderActionRequest) (second : ℕ) : GatewayCall :=
  { request := request
    snapshot := .sample (.sample workedContract ⟨2026, 7, 1, 15, 0, 0, 0, some 0⟩
      ⟨2026, 7, 1, 15, 0, 0, 0, some 0⟩)
    now := ⟨2026, 7, 1, 15, 0, 0, 0, some 0⟩
    cancelled := .ok (workedOrder .cancelled)
    cancelledPrice := none
    cancelStamp := Stamp.sample ("cancel" ++ request.clientOrderId) second
    reconciled := none
    requested := Stamp.sample ("requested" ++ request.clientOrderId) second
    returned := true }

/-- An entry for four, and replacements of it. -/
private def replacingCalls (quantity : ℤ) : ℕ → GatewayCall
  | 0 => submitCallOf (requestOf .entry 4 "first") 0
  | id => submitCallOf (requestOf .replace quantity ("replacement" ++ toString id)) (id + 1)

/-- Two of the four are filled; the event is stamped in the given second. -/
private def halfFill (second : ℕ) : PoolAction ℕ Report :=
  .env (.filled (workedOrder .open) "first" ⟨false, 15, -1⟩ ⟨false, 2, 0⟩ false
    (Stamp.sample "fill" second))

/-- An entry is submitted, two of its four are filled, and the rest is replaced. -/
private def filledThenReplaced : List (PoolAction ℕ Report) :=
  .spawn 0 :: List.replicate 3 (.resume 0) ++ halfFill 1 :: .spawn 1 ::
    List.replicate 6 (.resume 1) ++ [.spawn 2, .resume 2]

/-- An entry is submitted, and two of its four are filled between the check of a replacement and
the cancellation. -/
private def filledInWindow : List (PoolAction ℕ Report) :=
  .spawn 0 :: List.replicate 3 (.resume 0) ++ .spawn 1 :: .resume 1 :: halfFill 1 ::
    List.replicate 5 (.resume 1)

/-- Two replacements of one entry are checked before it is cancelled. -/
private def checkedTwice : List (PoolAction ℕ Report) :=
  .spawn 0 :: List.replicate 3 (.resume 0) ++ .spawn 1 :: .resume 1 :: .spawn 2 ::
    .resume 2 :: List.replicate 5 (.resume 1) ++ List.replicate 5 (.resume 2)

/-- A cancellation is recorded after a fill of a later stamp, and the order is replaced again. -/
private def recordedLate : List (PoolAction ℕ Report) :=
  .spawn 0 :: List.replicate 3 (.resume 0) ++ .spawn 1 :: .resume 1 :: .resume 1 ::
    halfFill 3 :: List.replicate 4 (.resume 1) ++ .spawn 3 :: List.replicate 6 (.resume 2)

/-- A replacement for what an order has not filled yet does not enlarge it. -/
theorem replaceBounded_filledThenReplaced :
    ReplaceBounded (runDesk .sample (replacingCalls 2) filledThenReplaced).shared :=
  replaceBounded_of_keepsRoom .sample (replacingCalls 2) filledThenReplaced (by decide)
    (by decide +kernel) filledThenReplaced List.prefix_rfl

private theorem bounds_of_replaceBounded {s : Desk ℕ} (h : ReplaceBounded s)
    (hplain : ∀ e ∈ s.session.ledger, e.NotCorrection) (c : String) :
    (s.submittedFor c).length ≤ 1 ∧ (s.submittedFor c ≠ [] →
      s.session.replayed.Room c (((s.submittedFor c).map (·.quantity)).sum : ℤ)) := by
  obtain ⟨state, hstate, hall⟩ := h
  rw [Session.project_of_plain hplain] at hstate
  cases hstate
  exact hall c

/-- A fill between check and cancellation makes two filled contracts and a replacement of four out
of an entry for four; an entry that is checked twice is replaced twice; and one whose cancellation
the ledger replays before a fill works again, and is replaced again. -/
theorem not_replaceBounded_unreadWindow :
    ¬ ReplaceBounded (runDesk .sample (replacingCalls 4) filledInWindow).shared ∧
      ¬ ReplaceBounded (runDesk .sample (replacingCalls 4) checkedTwice).shared ∧
      ¬ ReplaceBounded (runDesk .sample (replacingCalls 2) recordedLate).shared := by
  refine ⟨?_, ?_, ?_⟩
  · intro h
    have hbound := bounds_of_replaceBounded h (by decide +kernel) "first"
    exact absurd (hbound.2 (by decide +kernel)) (by decide +kernel)
  · intro h
    have hbound := bounds_of_replaceBounded h (by decide +kernel) "first"
    exact absurd hbound.1 (by decide +kernel)
  · intro h
    have hbound := bounds_of_replaceBounded h (by decide +kernel) "first"
    exact absurd hbound.1 (by decide +kernel)

end Joker.Runtime
