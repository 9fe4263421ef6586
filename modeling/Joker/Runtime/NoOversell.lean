import Joker.Ledger.CommittedSales
import Joker.Runtime.GatewaySession

/-!
# Selling no more than is held

Library `Runtime`. The gateway compares a closing request with the position only, so several
closing orders can add up to more than it. As long as no close is requested on a contract on
which a sell order works, and a sell order that is replaced is taken back by the broker, the
working sell orders of a contract stay within its position, as far as the context keeps what fills
make of their orders and positions.
-/

namespace Joker.Runtime

open Joker.Base Joker.Ledger Joker.Broker OrderActionGateway

/-! ### The property -/

/-- The remaining quantities of all working sell orders on a contract. -/
def sellRemaining (state : ProjectionState) (c : String) : ℤ :=
  (((workingOrdersFromProjection (some state) Dict.empty).filter
    (fun order ↦ order.side = .sell ∧ order.contractId = c)).map
      (fun order ↦ order.remainingQuantity)).sum

/-- No contract with a long position has more on sale than the position. -/
def NoOversell (state : ProjectionState) : Prop :=
  ∀ c, ∀ pos ∈ state.positions.get? c, 0 < pos.quantity →
    (sellRemaining state c : ℚ) ≤ pos.quantity

/-! ### Conditions -/

namespace Session

/-- A broker's order is filled as the ledger's working order was submitted. -/
def FillsWorking [DecimalContext] (s : Session) (order : BrokerOrder) (clientOrderId : String) :
    Prop :=
  ∃ known ∈ s.replayed.tables.orders.get? clientOrderId,
    known.Working ∧ order.side = known.side ∧ contractIdFor order.contract = known.contractId

instance [DecimalContext] (s : Session) (order : BrokerOrder) (clientOrderId : String) :
    Decidable (s.FillsWorking order clientOrderId) :=
  inferInstanceAs (Decidable (∃ _ ∈ _, _))

/-- A broker's update is about a known order, and a fill it reports about a working one. -/
def UpdatesKnown [DecimalContext] (s : Session) (order : BrokerOrder) (clientOrderId : String) :
    Prop :=
  s.replayed.tables.orders.get? clientOrderId ≠ none ∧
    (order.status = .filled → s.FillsWorking order clientOrderId)

instance [DecimalContext] (s : Session) (order : BrokerOrder) (clientOrderId : String) :
    Decidable (s.UpdatesKnown order clientOrderId) :=
  inferInstanceAs (Decidable (_ ∧ (_ → _)))

/-- A sell order works on a contract. -/
def SellsOn [DecimalContext] (s : Session) (c : String) : Prop :=
  ∃ order ∈ s.replayed.tables.orders.values,
    order.Working ∧ order.side = .sell ∧ order.contractId = c

instance [DecimalContext] (s : Session) (c : String) : Decidable (s.SellsOn c) :=
  inferInstanceAs (Decidable (∃ _ ∈ _, _))

/-- The answer to a cancellation takes the order back, which the ledger does not know yet. -/
def TakesBack (gateway : OrderActionGateway) (s : Session) (call : GatewayCall)
    (order : BrokerOrder) : Prop :=
  order.status ∈ [BrokerStatus.cancelled, .rejected] ∧
    ∀ fields ∈ updateFields gateway.rt order (call.request.replaceOfClientOrderId.getD "")
      call.cancelledPrice call.cancelStamp, ¬ s.Knows fields

instance (gateway : OrderActionGateway) (s : Session) (call : GatewayCall) (order : BrokerOrder) :
    Decidable (s.TakesBack gateway call order) :=
  inferInstanceAs (Decidable (_ ∧ ∀ _ ∈ _, _))

/-- The context keeps what an event with these fields, if it is a fill, makes of its order and of
its position. -/
def Keeps [DecimalContext] (s : Session) (fields : EventFields) : Prop :=
  ∀ e ∈ makeLedgerEvent fields, KeepsSums s.replayed.freeze e

instance [DecimalContext] (s : Session) (fields : EventFields) : Decidable (s.Keeps fields) :=
  inferInstanceAs (Decidable (∀ _ ∈ _, _))

/-- A request has a new client order id. A close names its contract as the ledger does, and no
sell order works there. The answer to a replacement's cancellation is about a known order, and what
it fills is kept; for a sell order it takes that order back. -/
def MayRequest [DecimalContext] (gateway : OrderActionGateway) (s : Session) (call : GatewayCall) :
    Prop :=
  s.replayed.tables.orders.get? call.request.clientOrderId = none ∧
    match call.request.action with
    | .entry | .probe | .add => True
    | .reduce | .exit =>
      SpelledAsPrinted gateway.reader call.snapshot.tradingDate call.request.contractId ∧
        ¬ s.SellsOn call.request.contractId
    | .replace => ∀ order ∈ call.cancelled.toOption,
      s.UpdatesKnown order (call.request.replaceOfClientOrderId.getD "") ∧
        (∀ fields ∈ updateFields gateway.rt order (call.request.replaceOfClientOrderId.getD "")
          call.cancelledPrice call.cancelStamp, s.Keeps fields) ∧
        (call.request.side = .sell →
          SpelledAsPrinted gateway.reader call.snapshot.tradingDate call.request.contractId ∧
            s.TakesBack gateway call order)

instance [DecimalContext] (gateway : OrderActionGateway) (s : Session) (call : GatewayCall) :
    Decidable (s.MayRequest gateway call) := by
  unfold MayRequest
  apply @instDecidableAnd _ _ _ ?_
  split <;> infer_instance

/-- A report is about a known order, and a fill is of whole contracts of a working one. -/
def MayReport [DecimalContext] (s : Session) : Report → Prop
  | .accepted command _ _ => s.replayed.tables.orders.get? command.clientOrderId ≠ none
  | .refused command _ _ => s.replayed.tables.orders.get? command.clientOrderId ≠ none
  | .filled order clientOrderId _ qty _ _ => Whole qty.toRat ∧ s.FillsWorking order clientOrderId
  | .updated order clientOrderId _ _ => s.UpdatesKnown order clientOrderId

instance [DecimalContext] (s : Session) (report : Report) : Decidable (s.MayReport report) := by
  unfold MayReport
  split <;> infer_instance

/-- What keeps a session from overselling: requests and new reports as above, whose fills are kept,
under stamps that sort as they are taken. -/
def Meets [DecimalContext] (gateway : OrderActionGateway) (s : Session) : SessionAction → Prop
  | .submit call => s.InOrder call.stamps ∧ s.MayRequest gateway call
  | .report report => s.InOrder [report.stamp] ∧
      ((∃ fields ∈ report.fields gateway.rt, s.Knows fields) ∨
        s.MayReport report ∧ ∀ fields ∈ report.fields gateway.rt, s.Keeps fields)

instance [DecimalContext] (gateway : OrderActionGateway) (s : Session) (a : SessionAction) :
    Decidable (s.Meets gateway a) := by
  unfold Meets
  split <;> infer_instance

/-! ### Recording -/

/-- The invariant of a session: its ledger is in order and has no corrections, and its sales are
covered. -/
structure Safe [DecimalContext] (s : Session) : Prop where
  orderly : s.Orderly
  plain : ∀ e ∈ s.ledger, e.NotCorrection
  covered : s.replayed.Covered

/-- Recording an event keeps a session safe when the event is known, or admitted and kept. -/
theorem safe_record [DecimalContext] {s : Session} (h : s.Safe) {rt : ExecutionRuntime}
    {stamp : Stamp}
    {fields : EventFields} (hstamped : Stamped rt stamp fields)
    (hbefore : ∀ row ∈ s.conn.rows, sortKey row ≤ stamp.key)
    (hplain : fields.eventType ≠ .reconciliationCorrection)
    (hallowed : s.Knows fields ∨ s.Keeps fields ∧
      ∀ e : LedgerEvent, e.toEventFields = fields → s.replayed.Admits e) :
    (s.record stamp fields).1.Safe := by
  rcases ledger_record h.orderly hstamped hbefore with ⟨hsame, -⟩ | ⟨e, hfields, hnew, hledger⟩
  · rwa [hsame]
  · obtain ⟨hkeeps, hall⟩ := hallowed.resolve_left hnew
    have hadmits := hall e hfields
    have hkept := hkeeps e (hfields ▸ makeLedgerEvent_toEventFields e)
    constructor
    · exact orderly_record h.orderly hstamped hbefore
    · intro x hx
      rw [hledger] at hx
      rcases List.mem_append.mp hx with hx | hx
      · exact h.plain x hx
      · rw [List.mem_singleton.mp hx]
        unfold LedgerEvent.NotCorrection
        rwa [hfields]
    · unfold replayed
      rw [hledger, run_snoc]
      exact covered_next h.covered (fun _ ↦ hadmits) hkept

private theorem admits_fill [DecimalContext] {s : Session} {rt : ExecutionRuntime}
    {order : BrokerOrder}
    {clientOrderId : String} {price qty : Decimal} {final : Bool} {stamp : Stamp}
    (hw : Whole qty.toRat) (h : s.FillsWorking order clientOrderId) (e : LedgerEvent)
    (he : e.toEventFields = fillFields rt order clientOrderId price qty final stamp) :
    s.replayed.Admits e := by
  have htype : e.eventType = if final then .finalFill else .partialFill :=
    congrArg EventFields.eventType he
  have hquantity : e.quantity = qty.toRat := congrArg EventFields.quantity he
  have hclient : e.clientOrderId = clientOrderId := congrArg EventFields.clientOrderId he
  have hside : e.side = order.side := congrArg EventFields.side he
  have hcontract : e.contractId = contractIdFor order.contract := congrArg EventFields.contractId he
  have hmeta : e.metadata = Dict.empty := congrArg EventFields.metadata he
  have hall : Whole e.quantity ∧ allowOverfill e = false ∧
      ∃ known ∈ s.replayed.tables.orders.get? e.clientOrderId,
        known.Working ∧ e.side = known.side ∧ e.contractId = known.contractId := by
    rw [hquantity, hclient, hside, hcontract]
    refine ⟨hw, ?_, h⟩
    unfold allowOverfill
    rw [hmeta]
    rfl
  unfold Replay.Admits
  rw [htype]
  cases final <;> exact hall

private theorem admits_known [DecimalContext] {s : Session} {fields : EventFields}
    (ht : fields.eventType ∈ [LedgerEventType.brokerOrderAccepted, .cancellation, .rejection])
    (hk : s.replayed.tables.orders.get? fields.clientOrderId ≠ none) (e : LedgerEvent)
    (he : e.toEventFields = fields) : s.replayed.Admits e := by
  subst he
  unfold Replay.Admits
  simp only [List.mem_cons, List.not_mem_nil, or_false] at ht
  rcases ht with ht | ht | ht <;> rw [ht] <;> exact hk

private theorem admits_update [DecimalContext] {s : Session} {rt : ExecutionRuntime}
    {order : BrokerOrder}
    {clientOrderId : String} {fillPrice : Option Decimal} {stamp : Stamp}
    (hknown : s.UpdatesKnown order clientOrderId) :
    ∀ fields ∈ updateFields rt order clientOrderId fillPrice stamp,
      fields.eventType ≠ .reconciliationCorrection ∧
        ∀ e : LedgerEvent, e.toEventFields = fields → s.replayed.Admits e := by
  intro fields h
  unfold updateFields at h
  cases hstatus : order.status <;> simp only [hstatus, Option.mem_def, reduceCtorEq] at h
  · obtain ⟨price, -, rfl⟩ := Option.map_eq_some_iff.mp h
    refine ⟨(fun hcor ↦ nomatch hcor), admits_fill ?_ (hknown.2 hstatus)⟩
    exact ⟨order.quantity, Decimal.toRat_ofInt order.quantity⟩
  · cases h
    exact ⟨(fun hcor ↦ nomatch hcor), admits_known (by exact .tail _ (.head _)) hknown.1⟩
  · cases h
    exact ⟨(fun hcor ↦ nomatch hcor), admits_known (by exact .tail _ (.tail _ (.head _))) hknown.1⟩

/-- An update about a known order keeps a session safe, where what it fills is kept. -/
theorem safe_update [DecimalContext] {s : Session} (h : s.Safe) {rt : ExecutionRuntime}
    {order : BrokerOrder}
    {clientOrderId : String} {fillPrice : Option Decimal} {stamp : Stamp}
    (hbefore : ∀ row ∈ s.conn.rows, sortKey row ≤ stamp.key)
    (hknown : s.UpdatesKnown order clientOrderId)
    (hkeeps : ∀ fields ∈ updateFields rt order clientOrderId fillPrice stamp, s.Keeps fields) :
    (s.update rt order clientOrderId fillPrice stamp).1.Safe := by
  unfold update
  split
  · exact h
  · next fields hfields =>
    obtain ⟨hplain, hadmits⟩ := admits_update hknown fields hfields
    exact safe_record h (stamped_updateFields fields hfields) hbefore hplain
      (Or.inr ⟨hkeeps fields hfields, hadmits⟩)

/-- An update about another order leaves an id new. -/
theorem get?_update_eq_none [DecimalContext] {s : Session} (h : s.Safe) {rt : ExecutionRuntime}
    {order : BrokerOrder} {clientOrderId : String} {fillPrice : Option Decimal} {stamp : Stamp}
    (hbefore : ∀ row ∈ s.conn.rows, sortKey row ≤ stamp.key)
    (hknown : s.UpdatesKnown order clientOrderId) {k : String}
    (hnew : s.replayed.tables.orders.get? k = none) :
    (s.update rt order clientOrderId fillPrice stamp).1.replayed.tables.orders.get? k = none := by
  have hne : clientOrderId ≠ k := fun heq ↦ hknown.1 (heq ▸ hnew)
  unfold update
  split
  · exact hnew
  · next fields hfields =>
    rcases ledger_record h.orderly (stamped_updateFields fields hfields) hbefore with
      ⟨hsame, -⟩ | ⟨e, rfl, -, hledger⟩
    · rwa [hsame]
    · unfold replayed
      rw [hledger, run_snoc]
      apply get?_orders_next_eq_none (ofReport_updateFields _ hfields).not_correction _ hnew
      rwa [clientOrderId_updateFields _ hfields]

/-- Later stamps come after an update that is recorded now. -/
theorem rows_update_le {s : Session} {rt : ExecutionRuntime} {order : BrokerOrder}
    {clientOrderId : String} {fillPrice : Option Decimal} {stamp : Stamp} {key : List String}
    (h : s.conn.Settled) (hkey : stamp.key ≤ key) (hrows : ∀ row ∈ s.conn.rows, sortKey row ≤ key) :
    ∀ row ∈ (s.update rt order clientOrderId fillPrice stamp).1.conn.rows, sortKey row ≤ key := by
  unfold update
  split
  · exact hrows
  · next fields hfields =>
    exact rows_record_le h (stamped_updateFields fields hfields) hkey hrows

/-- A report that may be made keeps a session safe. -/
theorem safe_report [DecimalContext] {s : Session} (h : s.Safe) {gateway : OrderActionGateway}
    {report : Report}
    (hok : s.Meets gateway (.report report)) : (s.report gateway.rt report).Safe := by
  obtain ⟨⟨-, hbefore⟩, hok⟩ := hok
  unfold Session.report
  split
  · exact h
  · next fields hfields =>
    have hadmits (hmay : s.MayReport report) : fields.eventType ≠ .reconciliationCorrection ∧
        ∀ e : LedgerEvent, e.toEventFields = fields → s.replayed.Admits e := by
      cases report with
      | accepted command order stamp =>
        cases hfields
        exact ⟨(fun hcor ↦ nomatch hcor), admits_known (by exact .head _) hmay⟩
      | refused command e stamp =>
        cases hfields
        exact ⟨(fun hcor ↦ nomatch hcor), admits_known (by exact .tail _ (.tail _ (.head _))) hmay⟩
      | filled order clientOrderId price qty final stamp =>
        cases hfields
        refine ⟨?_, admits_fill hmay.1 hmay.2⟩
        cases final <;> exact fun hcor ↦ nomatch hcor
      | updated order clientOrderId fillPrice stamp => exact admits_update hmay fields hfields
    apply safe_record h (stamped_fields report fields hfields)
      (hbefore report.stamp List.mem_cons_self)
    · rcases hok with ⟨known, hm, -⟩ | ⟨hmay, -⟩
      · exact (ofReport_fields report fields hfields).not_correction
      · exact (hadmits hmay).1
    · apply hok.imp
      · rintro ⟨known, hm, hk⟩
        rw [hfields] at hm
        exact Option.some.inj hm ▸ hk
      · exact fun ⟨hmay, hkeeps⟩ ↦ ⟨hkeeps fields hfields, (hadmits hmay).2⟩

/-! ### Requests -/

/-- A command within what is uncommitted, for a positive quantity under a new id. -/
structure Uncommitted [DecimalContext] (s : Session) (command : ExecutionCommand) : Prop where
  fresh : s.replayed.tables.orders.get? command.clientOrderId = none
  positive : 0 < command.intent.quantity
  room : command.intent.side = .sell → (command.intent.quantity : ℚ) ≤
    (s.replayed.tables.position (contractIdFor command.intent.contract)).quantity -
      s.replayed.tables.committed (contractIdFor command.intent.contract)

private theorem quantity_of_openPositions [DecimalContext] {s : Session} (h : s.Safe) {c : String}
    {pos : PositionState}
    (hpos : (openPositionsFromProjection (some s.replayed.freeze)).get? c = some pos) :
    pos.quantity = (s.replayed.tables.position c).quantity := by
  have hkeyed : s.replayed.freeze.positions.Keyed (fun pos ↦ pos.contractId) := by
    intro c pos hc
    change (frozenPositions s.replayed.tables.positions).get? c = some pos at hc
    rw [get?_frozenPositions] at hc
    obtain ⟨found, hfound, rfl⟩ := Option.map_eq_some_iff.mp hc
    exact (keyed_replay (replay_eq_run Replay.start s.ledger h.plain)).2 c found hfound
  have hfrozen := get?_of_openPositions hkeyed hpos
  change (frozenPositions s.replayed.tables.positions).get? c = some pos at hfrozen
  rw [get?_frozenPositions] at hfrozen
  obtain ⟨found, hfound, rfl⟩ := Option.map_eq_some_iff.mp hfrozen
  unfold Tables.position ensurePosition
  rw [hfound]
  rfl

private theorem room_of_close [DecimalContext] {gateway : OrderActionGateway} {s : Session}
    {call : GatewayCall}
    (h : s.Safe) (hclose : call.request.action ∈ [.exit, .reduce])
    (hspelled : SpelledAsPrinted gateway.reader call.snapshot.tradingDate call.request.contractId)
    (hnone : ¬ s.SellsOn call.request.contractId) {verdict : Verdict} {command : ExecutionCommand}
    (hverdict : gateway.verdict call.request (s.truth call s.replayed.freeze) = .ok verdict)
    (hcommand : verdict.command = some command) :
    (command.intent.quantity : ℚ) ≤
      (s.replayed.tables.position (contractIdFor command.intent.contract)).quantity -
        s.replayed.tables.committed (contractIdFor command.intent.contract) := by
  obtain ⟨pos, hpos, hquantity⟩ := close_of_verdict hclose hverdict hcommand
  have hprinted : contractIdFor command.intent.contract = call.request.contractId :=
    (contractIdFor_parseContractId (parse_of_verdict hverdict hcommand)).mpr hspelled
  have hfree : s.replayed.tables.committed call.request.contractId = 0 :=
    committed_eq_zero (fun order ho hsells ↦ hnone ⟨order, ho, hsells⟩)
  have hposition := quantity_of_openPositions h hpos
  have hcovered := h.covered.covered call.request.contractId
  rw [hfree] at hcovered
  rw [hprinted, hfree, sub_zero, ← hposition]
  rw [← hposition] at hcovered
  exact le_trans (by exact_mod_cast hquantity) (pyInt_le hcovered)

private theorem inContracts_of_safe [DecimalContext] {s : Session} (h : s.Safe) :
    s.replayed.ForallOrders OrderLifecycle.InContracts :=
  fun c order ho ↦ ⟨(h.covered.regular c order ho).submitted_whole,
    (h.covered.regular c order ho).filled_whole⟩

private theorem room_of_takesBack [DecimalContext] {gateway : OrderActionGateway} {s : Session}
    {call : GatewayCall}
    (h : s.Safe) (hreplace : call.request.action = .replace)
    (hspelled : SpelledAsPrinted gateway.reader call.snapshot.tradingDate call.request.contractId)
    {command : ExecutionCommand}
    (hverdict : gateway.verdict call.request (s.truth call s.replayed.freeze) =
      .ok (.compiled command)) (hsell : command.intent.side = .sell)
    {order : BrokerOrder} (hback : s.TakesBack gateway call order)
    (hbefore : ∀ row ∈ s.conn.rows, sortKey row ≤ call.cancelStamp.key) {after : Session}
    (hafter : s.update gateway.rt order (call.request.replaceOfClientOrderId.getD "")
      call.cancelledPrice call.cancelStamp = (after, true)) :
    (command.intent.quantity : ℚ) ≤
      (after.replayed.tables.position (contractIdFor command.intent.contract)).quantity -
        after.replayed.tables.committed (contractIdFor command.intent.contract) := by
  obtain ⟨c, known, hc, hknown, hworking, hside, hcontract, hroom⟩ :=
    original_of_compiled h.plain (inContracts_of_safe h) hverdict hreplace
  have hprinted : contractIdFor command.intent.contract = call.request.contractId :=
    (contractIdFor_parseContractId (parse_of_verdict hverdict rfl)).mpr hspelled
  obtain ⟨hstatus, hunknown⟩ := hback
  -- the answer's event ends the original
  obtain ⟨fields, hfields, htype, hclient⟩ : ∃ fields,
      updateFields gateway.rt order (call.request.replaceOfClientOrderId.getD "")
        call.cancelledPrice call.cancelStamp = some fields ∧
      fields.eventType ∈ [LedgerEventType.cancellation, .rejection] ∧ fields.clientOrderId = c := by
    unfold updateFields
    rw [hc]
    simp only [List.mem_cons, List.not_mem_nil, or_false] at hstatus
    rcases hstatus with hs | hs <;> rw [hs]
    · exact ⟨_, rfl, .head _, rfl⟩
    · exact ⟨_, rfl, .tail _ (.head _), rfl⟩
  unfold update at hafter
  rw [hfields] at hafter
  have hnew := hunknown fields hfields
  rcases ledger_record h.orderly (stamped_updateFields fields hfields) hbefore with
    ⟨-, hreturned⟩ | ⟨e, he, -, hledger⟩
  · exact absurd (hreturned (congrArg Prod.snd hafter)) hnew
  · rw [show (s.record call.cancelStamp fields).1 = after from congrArg Prod.fst hafter] at hledger
    have hnext : after.replayed = s.replayed.next e := by
      unfold replayed
      rw [hledger, run_snoc]
    subst he
    have hf := fresh_of_not_knows h.orderly h.plain hnew
    have hnc : e.NotCorrection := by
      intro hcor
      rw [hcor] at htype
      exact absurd htype (by decide)
    have hnofill : e.isFill = false := by
      simp only [List.mem_cons, List.not_mem_nil, or_false] at htype
      unfold LedgerEvent.isFill
      rcases htype with ht | ht <;> rw [ht] <;> rfl
    have hfound : s.replayed.tables.orders.get? e.clientOrderId = some known := hclient ▸ hknown
    have hunsold : known.unsold call.request.contractId = known.submittedQty - known.filledQty :=
      if_pos ⟨hworking, hside.trans hsell, hcontract⟩
    have hcovered := h.covered.covered call.request.contractId
    rw [hprinted, hnext, quantity_next_of_not_fill hnc hf hnofill,
      committed_next_of_end hf htype hfound hworking, hunsold]
    linarith

/-- Before `submit_execution_command` a session stays safe, and what is handed over is
uncommitted. -/
theorem handover_spec [DecimalContext] {gateway : OrderActionGateway} {s : Session}
    {call : GatewayCall}
    (h : s.Safe) (hok : s.Meets gateway (.submit call)) {s₁ : Session} {handed : Option Handover}
    (hrun : s.handover gateway call = (s₁, handed)) :
    s₁.Safe ∧ (∀ row ∈ s₁.conn.rows, sortKey row ≤ call.requested.key) ∧
      ∀ found ∈ handed, s₁.Uncommitted found.command := by
  obtain ⟨⟨hforward, hbefore⟩, hnew, hmay⟩ := hok
  have hrequested : call.requested ∈ call.stamps := by
    unfold GatewayCall.stamps
    split
    · exact List.mem_cons_of_mem _ List.mem_cons_self
    · exact List.mem_cons_self
  have hrows := hbefore call.requested hrequested
  have hcommand {verdict : Verdict} {command : ExecutionCommand}
      (hverdict : gateway.verdict call.request (s.truth call s.replayed.freeze) = .ok verdict)
      (hc : verdict.command = some command) :
      command.clientOrderId = call.request.clientOrderId ∧ 0 < command.intent.quantity := by
    obtain ⟨_, _, _, _, rfl, hpos, _⟩ := command_of_verdict hverdict hc
    exact ⟨rfl, hpos⟩
  have hsame {verdict : Verdict} {command : ExecutionCommand}
      (hverdict : gateway.verdict call.request (s.truth call s.replayed.freeze) = .ok verdict)
      (hc : verdict.command = some command)
      (hroom : command.intent.side = .sell → call.request.action ∈ [.exit, .reduce]) :
      s.Uncommitted command := by
    obtain ⟨hid, hpos⟩ := hcommand hverdict hc
    refine ⟨hid ▸ hnew, hpos, fun hsell ↦ ?_⟩
    have hclose := hroom hsell
    simp only [List.mem_cons, List.not_mem_nil, or_false] at hclose
    rcases hclose with ha | ha
    · rw [ha] at hmay
      exact room_of_close h (by simp [ha]) hmay.1 hmay.2 hverdict hc
    · rw [ha] at hmay
      exact room_of_close h (by simp [ha]) hmay.1 hmay.2 hverdict hc
  unfold handover at hrun
  rw [project_of_plain h.plain] at hrun
  simp only at hrun
  split at hrun
  · cases hrun
    exact ⟨h, hrows, fun _ hf ↦ nomatch hf⟩
  · cases hrun
    exact ⟨h, hrows, fun _ hf ↦ nomatch hf⟩
  · next command reason hverdict =>
    cases hrun
    refine ⟨h, hrows, ?_⟩
    rintro _ ⟨⟩
    exact hsame hverdict rfl (fun _ ↦ (degraded_cases hverdict).1)
  · next command hverdict =>
    split at hrun
    · next hreplace =>
      rw [hreplace] at hmay
      split at hrun
      · cases hrun
        exact ⟨h, hrows, fun _ hf ↦ nomatch hf⟩
      · next order hcancelled =>
        obtain ⟨hknown, hkeeps, hback⟩ := hmay order (by rw [hcancelled]; rfl)
        have hstamps : call.stamps = [call.cancelStamp, call.requested] := if_pos hreplace
        rw [hstamps] at hforward hbefore
        have hcancel := hbefore call.cancelStamp List.mem_cons_self
        have hle : call.cancelStamp.key ≤ call.requested.key :=
          (List.pairwise_cons.mp hforward).1 _ List.mem_cons_self
        have hafter : (s.update gateway.rt order (call.request.replaceOfClientOrderId.getD "")
            call.cancelledPrice call.cancelStamp).1 = s₁ := by
          split at hrun <;> cases hrun <;> simp only [*]
        have hsafe : s₁.Safe := hafter ▸ safe_update h hcancel hknown hkeeps
        have hlater : ∀ row ∈ s₁.conn.rows, sortKey row ≤ call.requested.key :=
          hafter ▸ rows_update_le h.orderly.settled hle hrows
        refine ⟨hsafe, hlater, ?_⟩
        split at hrun
        · next after hupdate =>
          cases hrun
          intro found hfound
          obtain ⟨hid, hpos⟩ := hcommand hverdict rfl
          split at hfound
          · cases hfound
            refine ⟨?_, hpos, fun hsell ↦ ?_⟩
            · rw [hid, ← hafter]
              exact get?_update_eq_none h hcancel hknown hnew
            · have hside : call.request.side = .sell := by
                obtain ⟨_, _, _, _, rfl⟩ :=
                  compiles_of_validateAndCompile (validateAndCompile_of_verdict hverdict)
                exact hsell
              obtain ⟨hspelled, htakes⟩ := hback hside
              exact room_of_takesBack h hreplace hspelled hverdict hsell htakes hcancel hupdate
          · cases hfound
        · cases hrun
          exact fun _ hf ↦ nomatch hf
    · next hreplace =>
      cases hrun
      refine ⟨h, hrows, ?_⟩
      rintro _ ⟨⟩
      apply hsame hverdict rfl
      intro hsell
      by_contra hopen
      have hbuys : command.intent.side = .buy := by
        apply buys_of_compiled _ hverdict
        cases ha : call.request.action <;> simp [ha] at hopen hreplace ⊢
      rw [hsell] at hbuys
      cases hbuys

/-- A request that may be made keeps a session safe. -/
theorem safe_submit [DecimalContext] {gateway : OrderActionGateway} {s : Session}
    {call : GatewayCall} (h : s.Safe)
    (hok : s.Meets gateway (.submit call)) : (s.submit gateway call).Safe := by
  have hnote {s : Session} (h : s.Safe) (proposal : Option String) : (s.note proposal).Safe := by
    unfold note
    split
    · exact ⟨⟨h.orderly.settled, h.orderly.sorted⟩, h.plain, h.covered⟩
    · exact h
  unfold submit
  split
  · next s₁ hrun => exact (handover_spec h hok hrun).1
  · next s₁ handed hrun =>
    obtain ⟨hsafe, hrows, huncommitted⟩ := handover_spec h hok hrun
    obtain ⟨hfresh, hpos, hroom⟩ := huncommitted handed rfl
    have hrecord : (s₁.record call.requested
        (requestedFields gateway.rt handed.command call.requested)).1.Safe := by
      have hstamped : Stamped gateway.rt call.requested
          (requestedFields gateway.rt handed.command call.requested) := ⟨rfl, rfl, rfl, rfl⟩
      apply safe_record hsafe hstamped hrows
      · exact fun hcor ↦ nomatch hcor
      · have htype : (requestedFields gateway.rt handed.command call.requested).eventType =
            .orderSubmissionRequested := rfl
        have hnofill : (requestedFields gateway.rt handed.command call.requested).eventType ∉
            [LedgerEventType.partialFill, .finalFill] := by
          rw [htype]
          decide
        refine Or.inr ⟨fun e he hcounts ↦ absurd hcounts (not_counts_of_fields hnofill _ e he), ?_⟩
        intro e he
        have hquantity : e.quantity = handed.command.intent.quantity :=
          congrArg EventFields.quantity he
        have hall : s₁.replayed.tables.orders.get? e.clientOrderId = none ∧
            0 < e.quantity ∧ Whole e.quantity ∧ (e.side = .sell → e.quantity ≤
              (s₁.replayed.tables.position e.contractId).quantity -
                s₁.replayed.tables.committed e.contractId) := by
          rw [hquantity]
          refine ⟨?_, by exact_mod_cast hpos, ⟨_, rfl⟩, ?_⟩
          · exact (congrArg EventFields.clientOrderId he) ▸ hfresh
          · intro hside
            rw [show e.contractId = contractIdFor handed.command.intent.contract from
              congrArg EventFields.contractId he]
            exact hroom ((congrArg EventFields.side he).symm.trans hside)
        unfold Replay.Admits
        rw [show e.eventType = .orderSubmissionRequested from congrArg EventFields.eventType he]
        exact hall
    split
    · next s₂ hs₂ =>
      rw [hs₂] at hrecord
      split
      · exact hnote hrecord handed.proposal
      · exact hrecord
    · next s₂ hs₂ => rwa [hs₂] at hrecord

/-- A step that meets the condition keeps a session safe. -/
theorem safe_step [DecimalContext] {gateway : OrderActionGateway} {s : Session} {a : SessionAction}
    (h : s.Safe)
    (hok : s.Meets gateway a) : (s.step gateway a).Safe := by
  cases a with
  | submit call => exact safe_submit h hok
  | report report => exact safe_report h hok

end Session

/-! ### Runs -/

private theorem remaining_of_workingOrder {order : OrderLifecycle} (h : order.Regular) {c : String}
    {ids : Dict String String} {found : WorkingOrderTruth}
    (hfound : workingOrder ids order = some found)
    (hs : found.side = .sell ∧ found.contractId = c) :
    (found.remainingQuantity : ℚ) = order.unsold c := by
  unfold workingOrder at hfound
  split at hfound
  · next hworking =>
    cases hfound
    have hunsold : order.unsold c = order.submittedQty - order.filledQty :=
      if_pos ⟨value_mem_workingStatuses.mp hworking.1, hs⟩
    obtain ⟨m, hm⟩ := h.submitted_whole
    obtain ⟨n, hn⟩ := h.filled_whole
    have hle : n ≤ m := by
      have hcap := h.capped
      rw [hm, hn] at hcap
      exact_mod_cast hcap
    rw [hunsold]
    simp only [hm, hn, pyInt_intCast]
    rw [max_eq_right (by omega)]
    push_cast
    rfl
  · cases hfound

private theorem sum_remaining_le {orders : List OrderLifecycle}
    (h : ∀ order ∈ orders, order.Regular) (ids : Dict String String) (c : String) :
    (((((orders.filterMap (workingOrder ids)).filter
      (fun order ↦ order.side = .sell ∧ order.contractId = c)).map
        (fun order ↦ order.remainingQuantity)).sum : ℤ) : ℚ) ≤
      (orders.map (OrderLifecycle.unsold c)).sum := by
  induction orders with
  | nil => simp
  | cons order rest ih =>
    have hreg := h order List.mem_cons_self
    have hrest := ih (fun o ho ↦ h o (List.mem_cons_of_mem order ho))
    have hmine := unsold_nonneg hreg c
    rw [List.map_cons, List.sum_cons]
    cases hw : workingOrder ids order with
    | none =>
      rw [List.filterMap_cons_none hw]
      linarith
    | some found =>
      rw [List.filterMap_cons_some hw, List.filter_cons]
      split
      · next hs =>
        have heq := remaining_of_workingOrder hreg hw (of_decide_eq_true hs)
        rw [List.map_cons, List.sum_cons, Int.cast_add, heq]
        linarith
      · linarith

/-- What the gateway counts as on sale is at most what the replay has unsold. -/
theorem sellRemaining_le_committed [DecimalContext] {r : Replay} (h : r.Covered) (c : String) :
    (sellRemaining r.freeze c : ℚ) ≤ r.tables.committed c := by
  apply sum_remaining_le
  intro order ho
  obtain ⟨k, hk⟩ := (Dict.mem_values_iff _ _).mp ho
  exact h.regular k order hk

/-- A safe session does not oversell. -/
theorem noOversell_of_safe [DecimalContext] {s : Session} (h : s.Safe) :
    NoOversell s.replayed.freeze := by
  intro c pos hpos _
  have hle := (sellRemaining_le_committed h.covered c).trans (h.covered.covered c)
  have hquantity : pos.quantity = (s.replayed.tables.position c).quantity := by
    change (frozenPositions s.replayed.tables.positions).get? c = some pos at hpos
    rw [get?_frozenPositions] at hpos
    obtain ⟨found, hfound, rfl⟩ := Option.map_eq_some_iff.mp hpos
    unfold Tables.position ensurePosition
    rw [hfound]
    rfl
  rwa [hquantity]

/-- In a run whose steps all meet the condition, no state oversells. -/
theorem noOversell_of_stepsMeet [DecimalContext] (gateway : OrderActionGateway)
    (actions : List SessionAction)
    (h : StepsMeet (Session.step gateway) (Session.Meets gateway) Session.new actions) :
    ∀ pre, pre <+: actions →
      ∃ state, project (run (Session.step gateway) Session.new pre).ledger = .ok state ∧
        NoOversell state := by
  have hstart : Session.new.Safe := by
    constructor
    · exact Session.orderly_new
    · exact fun e he ↦ nomatch he
    · exact ⟨(fun _ _ ho ↦ nomatch ho), fun c ↦ le_refl 0⟩
  intro pre hp
  have hsafe := run_invariant_of_steps (fun _ _ ↦ Session.safe_step) hstart
    (ok_of_stepsMeet h) pre hp
  exact ⟨_, Session.project_of_plain hsafe.plain, noOversell_of_safe hsafe⟩

/-! ### Samples -/

open scoped DefaultContext

private def contractId : String := "SPY:2026-07-01:500.0:call"

/-- A call for two contracts; its two events are recorded in the given second. -/
private def callOf (action : OrderActionKind) (side : Side) (clientOrderId : String)
    (second : ℕ) : GatewayCall :=
  { request := { OrderActionRequest.sample action contractId side 2 clientOrderId with
      replaceOfClientOrderId := if action = .replace then some "exit1" else none }
    snapshot := .sample (.sample contractId ⟨2026, 7, 1, 15, 0, 0, 0, some 0⟩
      ⟨2026, 7, 1, 15, 0, 0, 0, some 0⟩)
    now := ⟨2026, 7, 1, 15, 0, 0, 0, some 0⟩
    cancelled := .ok (BrokerOrder.ofIntent "b2" .cancelled (commandOf
      (.sample .exit contractId .sell 2 "exit1") "exit1"
      ⟨"SPY", ⟨2026, 7, 1⟩, ⟨⟨false, 5000, -1⟩⟩, .call⟩ .sell 2).intent)
    cancelledPrice := none
    cancelStamp := Stamp.sample ("cancel" ++ clientOrderId) second
    reconciled := none
    requested := Stamp.sample ("requested" ++ clientOrderId) second
    returned := true }

private def entered : BrokerOrder :=
  BrokerOrder.ofIntent "b" .filled (commandOf (.sample .entry contractId .buy 2 "entry") "entry"
    ⟨"SPY", ⟨2026, 7, 1⟩, ⟨⟨false, 5000, -1⟩⟩, .call⟩ .buy 2).intent

/-- Two contracts are bought, and sold by one exit. -/
private def enteredThenExit : List SessionAction :=
  [.submit (callOf .entry .buy "entry" 0),
    .report (.filled entered "entry" ⟨false, 15, -1⟩ ⟨false, 2, 0⟩ true (Stamp.sample "fill" 1)),
    .submit (callOf .exit .sell "exit1" 2)]

/-- Buying two, selling them by one exit and replacing that never oversells. -/
theorem noOversell_enteredThenReplaced :
    ∃ state, project (run (Session.step .sample) Session.new
        (enteredThenExit ++ [.submit (callOf .replace .sell "exit2" 3)])).ledger = .ok state ∧
      NoOversell state :=
  noOversell_of_stepsMeet .sample _ (by decide +kernel) _ List.prefix_rfl

/-- A second exit is accepted while the first one works: four contracts are on sale, two are
held. -/
theorem not_noOversell_of_secondExit :
    ∃ state, project (run (Session.step .sample) Session.new
        (enteredThenExit ++ [.submit (callOf .exit .sell "exit2" 3)])).ledger = .ok state ∧
      ¬ NoOversell state := by
  have hrun : (project (run (Session.step .sample) Session.new
      (enteredThenExit ++ [.submit (callOf .exit .sell "exit2" 3)])).ledger).toOption.map
        (fun state ↦ (sellRemaining state contractId,
          (state.positions.get? contractId).map (fun pos ↦ pos.quantity))) = some (4, some 2) := by
    decide +kernel
  cases hp : project (run (Session.step .sample) Session.new
      (enteredThenExit ++ [.submit (callOf .exit .sell "exit2" 3)])).ledger with
  | error e =>
    rw [hp] at hrun
    cases hrun
  | ok state =>
    refine ⟨state, rfl, fun h ↦ ?_⟩
    rw [hp] at hrun
    have hpair := Prod.mk.inj (Option.some.inj hrun)
    obtain ⟨pos, hpos, hquantity⟩ := Option.map_eq_some_iff.mp hpair.2
    have hle := h contractId pos hpos (by rw [hquantity]; decide +kernel)
    rw [hpair.1, hquantity] at hle
    exact absurd hle (by decide +kernel)

end Joker.Runtime
