import Mathlib.Algebra.GroupWithZero.Nat
import Joker.Events.Bus

/-!
# Delivery

Library `Events`. What the bus owes its subscribers. For each correlation the accepted events are
those dispatched, then the one a worker dispatches, then those in its queue, in this order. What a
registration was handed are the events of its key among the dispatched ones, and the current one
unless its turn is still to come. Both hold after each action, so a registration is handed the
accepted events of its key one by one, and all of them once the bus is idle.
-/

namespace Joker.Events

open Joker.Base

/-- The events of a correlation, in order. -/
def ofCorrelation (corr : String) (events : List DomainEvent) : List DomainEvent :=
  events.filter (fun event ↦ event.correlationId = corr)

/-- The key of a registration selects an event. -/
def Selects (key : Option EventType) (event : DomainEvent) : Prop :=
  key = some event.eventType ∨ key = none

instance (key : Option EventType) (event : DomainEvent) : Decidable (Selects key event) :=
  inferInstanceAs (Decidable (_ ∨ _))

/-- The events a key selects, in order. -/
def selected (key : Option EventType) (events : List DomainEvent) : List DomainEvent :=
  events.filter (fun event ↦ Selects key event)

/-- The registrations an event is still to be handed to. -/
def Worker.rest : Worker → List ℕ
  | .dispatching _ rest => rest
  | .handling _ _ rest => rest
  | _ => []

/-- The events of a stream that are not dispatched: the current one, then the queue. -/
def Stream.events (stream : Stream) : List DomainEvent :=
  stream.worker.current ++ stream.queue.filterMap id

/-- The events of a correlation in two logs are those in each. -/
@[simp] theorem ofCorrelation_append (corr : String) (xs ys : List DomainEvent) :
    ofCorrelation corr (xs ++ ys) = ofCorrelation corr xs ++ ofCorrelation corr ys :=
  List.filter_append ..

/-- The events that a key selects in two logs are those in each. -/
@[simp] theorem selected_append (key : Option EventType) (xs ys : List DomainEvent) :
    selected key (xs ++ ys) = selected key xs ++ selected key ys :=
  List.filter_append ..

private theorem ofCorrelation_singleton (corr : String) (event : DomainEvent) :
    ofCorrelation corr [event] = if event.correlationId = corr then [event] else [] := by
  simp only [ofCorrelation, List.filter_cons, decide_eq_true_eq, List.filter_nil]

private theorem selected_singleton (key : Option EventType) (event : DomainEvent) :
    selected key [event] = if Selects key event then [event] else [] := by
  simp only [selected, List.filter_cons, decide_eq_true_eq, List.filter_nil]

namespace EventBus

/-- The events a registration was handed of a correlation, in order. -/
def handedTo (bus : EventBus) (i : ℕ) (corr : String) : List DomainEvent :=
  ofCorrelation corr ((bus.handed.filter (fun call ↦ call.1 = i)).map Prod.snd)

/-- `self._dispatching`. -/
def dispatching (bus : EventBus) : ℕ :=
  (bus.streams.keys.map (fun corr ↦ (bus.stream corr).worker.current.length)).sum

/-- `is_idle`. Source `joker/events/bus.py:155–156`. -/
def isIdle (bus : EventBus) : Bool :=
  bus.dispatching = 0 ∧ bus.streams.keys.all (fun corr ↦ (bus.stream corr).queue = [])

/-! ### Which handlers an event has -/

private theorem mem_registered {subs : List (Option EventType)} {key : Option EventType} {i : ℕ} :
    i ∈ registered subs key ↔ subs[i]? = some key := by
  simp only [registered, List.mem_filter, List.mem_range, decide_eq_true_eq, and_iff_right_iff_imp]
  intro h
  exact (List.getElem?_eq_some_iff.mp h).1

private theorem mem_handlersOf {subs : List (Option EventType)} {event : DomainEvent} {i : ℕ}
    {key : Option EventType} (hkey : subs[i]? = some key) :
    i ∈ handlersOf subs event ↔ Selects key event := by
  simp only [handlersOf, List.mem_append, mem_registered, hkey, Option.some.injEq, Selects]

/-- No registration has two turns. -/
theorem nodup_handlersOf (subs : List (Option EventType)) (event : DomainEvent) :
    (handlersOf subs event).Nodup := by
  apply List.Nodup.append
  · exact List.nodup_range.filter _
  · exact List.nodup_range.filter _
  · intro i h h'
    rw [mem_registered] at h h'
    rw [h] at h'
    cases h'

/-! ### No event is accepted twice -/

/-- The event ids: those of accepted events are seen and differ, and the event about to be put is
seen and not accepted. -/
structure SeenOnce (bus : EventBus) : Prop where
  seen : ∀ event ∈ bus.accepted, event.eventId ∈ bus.seen
  nodup : (bus.accepted.map DomainEvent.eventId).Nodup
  lock : ∀ event, bus.lock = some event →
    event.eventId ∈ bus.seen ∧ event.eventId ∉ bus.accepted.map DomainEvent.eventId

/-- A new bus has accepted nothing twice. -/
theorem seenOnce_new (subs : List (Option EventType)) : SeenOnce (new subs) where
  seen := by simp [new]
  nodup := by simp [new]
  lock := by simp [new]

private theorem SeenOnce.enter {bus : EventBus} (h : SeenOnce bus) (event : DomainEvent) :
    SeenOnce (bus.enter event) := by
  unfold EventBus.enter
  by_cases hseen : event.eventId ∈ bus.seen
  · simp only [hseen, if_true]
    exact ⟨h.seen, h.nodup, h.lock⟩
  · simp only [hseen, if_false]
    refine ⟨fun e he ↦ List.mem_cons_of_mem _ (h.seen e he), h.nodup, ?_⟩
    intro e he
    obtain rfl : event = e := Option.some.inj he
    refine ⟨List.mem_cons_self, ?_⟩
    intro hmem
    obtain ⟨e, he, heq⟩ := List.mem_map.mp hmem
    exact hseen (heq ▸ h.seen e he)

private theorem SeenOnce.put {bus : EventBus} (h : SeenOnce bus) {event : DomainEvent}
    (hlock : bus.lock = some event) : SeenOnce (bus.put event) where
  seen := by
    intro e he
    rcases List.mem_append.mp he with he | he
    · exact h.seen e he
    · rw [List.mem_singleton.mp he]
      exact (h.lock event hlock).1
  nodup := by
    show ((bus.accepted ++ [event]).map DomainEvent.eventId).Nodup
    rw [List.map_append, List.nodup_append]
    refine ⟨h.nodup, List.nodup_singleton _, ?_⟩
    rintro id hid _ hid' rfl
    rw [List.map_singleton, List.mem_singleton] at hid'
    exact (h.lock event hlock).2 (hid' ▸ hid)
  lock := by
    intro e he
    cases he

/-- No action accepts an id twice. -/
theorem SeenOnce.step {bus : EventBus} (h : SeenOnce bus) (action : Action) :
    SeenOnce (bus.step action) := by
  cases action with
  | subscribe key => exact ⟨h.seen, h.nodup, h.lock⟩
  | publish event => exact ⟨h.seen, h.nodup, h.lock⟩
  | abandon event => exact ⟨h.seen, h.nodup, h.lock⟩
  | enter event =>
    simp only [EventBus.step]
    split
    · exact h.enter event
    · exact h
  | put =>
    simp only [EventBus.step]
    split
    · exact h.put ‹_›
    · exact h
  | get corr | call corr | finish corr outcome | leave corr =>
    simp only [EventBus.step]
    split <;> exact ⟨h.seen, h.nodup, h.lock⟩

/-! ### What becomes of an accepted event -/

/-- The accepted events of a correlation are those dispatched, then those of its stream. -/
def Accounted (bus : EventBus) (corr : String) : Prop :=
  ofCorrelation corr bus.accepted =
    ofCorrelation corr bus.dispatched ++ (bus.stream corr).events

/-- A new bus accounts for every event. -/
theorem accounted_new (subs : List (Option EventType)) (corr : String) :
    Accounted (new subs) corr := rfl

/-- The events of a stream are of its correlation. -/
theorem correlationId_of_mem_events {bus : EventBus} {corr : String} (h : Accounted bus corr)
    {event : DomainEvent} (hmem : event ∈ (bus.stream corr).events) :
    event.correlationId = corr := by
  have hacc : event ∈ ofCorrelation corr bus.accepted := by
    rw [h]
    exact List.mem_append_right _ hmem
  exact of_decide_eq_true (List.mem_filter.mp hacc).2

/-- A stream is replaced by one with the same events. -/
theorem Accounted.setStream {bus : EventBus} {corr : String} (h : Accounted bus corr)
    {other : String} {before stream : Stream} (hbefore : bus.stream other = before)
    (hevents : stream.events = before.events) : Accounted (bus.setStream other stream) corr := by
  show ofCorrelation corr bus.accepted = ofCorrelation corr bus.dispatched ++
    ((bus.setStream other stream).stream corr).events
  rw [h, stream_setStream]
  split
  · next heq => rw [hevents, ← hbefore, heq]
  · rfl

/-- `enter` hands on no event, and makes no registration. -/
theorem frame_enter (bus : EventBus) (event : DomainEvent) :
    (bus.enter event).accepted = bus.accepted ∧ (bus.enter event).dispatched = bus.dispatched ∧
      (bus.enter event).handed = bus.handed ∧ (bus.enter event).subs = bus.subs := by
  unfold EventBus.enter
  simp only
  split
  · exact ⟨rfl, rfl, rfl, rfl⟩
  · exact ⟨rfl, rfl, rfl, rfl⟩

/-- `enter` makes at most an empty stream. -/
theorem stream_enter (bus : EventBus) (event : DomainEvent) (corr : String) :
    (bus.enter event).stream corr = bus.stream corr := by
  simp only [EventBus.enter]
  by_cases hseen : event.eventId ∈ bus.seen
  · simp only [hseen, if_true]
    rfl
  by_cases hkey : event.correlationId ∈ bus.streams.keys
  · simp only [hseen, hkey, if_true, if_false]
    rfl
  · simp only [hseen, hkey, if_false, EventBus.stream, Dict.get?_set]
    split
    · next heq =>
      rw [← heq, (Dict.not_mem_keys_iff _ _).mp hkey]
      rfl
    · rfl

/-- An event is queued on its own correlation's stream. -/
theorem stream_put (bus : EventBus) (event : DomainEvent) (corr : String) :
    (bus.put event).stream corr =
      if event.correlationId = corr
      then { bus.stream corr with queue := (bus.stream corr).queue ++ [some event] }
      else bus.stream corr := by
  show ((bus.setStream event.correlationId _).stream corr) = _
  rw [stream_setStream]
  split
  · next heq => rw [heq]
  · rfl

/-- A stretch of a worker, on its stream. -/
inductive Turn : Stream → Stream → Prop where
  | stop (queue) : Turn ⟨none :: queue, .waiting⟩ ⟨queue, .ended⟩
  | take (event queue handlers) :
    Turn ⟨some event :: queue, .waiting⟩ ⟨queue, .dispatching event handlers⟩
  | call (queue event handler rest) :
    Turn ⟨queue, .dispatching event (handler :: rest)⟩ ⟨queue, .handling event handler rest⟩
  | finish (queue event handler rest) :
    Turn ⟨queue, .handling event handler rest⟩ ⟨queue, .dispatching event rest⟩
  | leave (queue event) : Turn ⟨queue, .dispatching event []⟩ ⟨queue, .waiting⟩

/-- What an action does to a stream: nothing, a stretch of its worker, or an event at the end of
its queue. -/
theorem stream_step (bus : EventBus) (action : Action) (corr : String) :
    (bus.step action).stream corr = bus.stream corr ∨
      Turn (bus.stream corr) ((bus.step action).stream corr) ∨
      ∃ event, (action = .put ∧ bus.lock = some event ∧ event.correlationId = corr) ∧
        (bus.step action).stream corr =
          { bus.stream corr with queue := (bus.stream corr).queue ++ [some event] } := by
  -- a stretch of one worker is one of the stream it is on, and nothing for the others
  have hturn : ∀ {bus' : EventBus} {other : String} {after : Stream},
      bus'.streams = (bus.setStream other after).streams → Turn (bus.stream other) after →
        bus'.stream corr = bus.stream corr ∨ Turn (bus.stream corr) (bus'.stream corr) := by
    intro bus' other after hstreams h
    have heq : bus'.stream corr = if other = corr then after else bus.stream corr := by
      rw [← stream_setStream]
      show (bus'.streams.get? corr).getD Stream.new = _
      rw [hstreams]
      rfl
    rw [heq]
    split
    · next heq => exact .inr (heq ▸ h)
    · exact .inl rfl
  cases action with
  | subscribe key | publish event | abandon event => exact .inl rfl
  | enter event =>
    simp only [EventBus.step]
    split
    · exact .inl (stream_enter bus event corr)
    · exact .inl rfl
  | put =>
    simp only [EventBus.step]
    split
    · next event hlock =>
      rw [stream_put]
      split
      · next heq => exact .inr (.inr ⟨event, ⟨trivial, hlock, heq⟩, rfl⟩)
      · exact .inl rfl
    · exact .inl rfl
  | get other =>
    simp only [EventBus.step]
    split
    · next hstream => exact (hturn rfl (hstream ▸ Turn.stop _)).imp_right .inl
    · next hstream => exact (hturn rfl (hstream ▸ Turn.take _ _ _)).imp_right .inl
    · exact .inl rfl
  | call other =>
    simp only [EventBus.step]
    split
    · next hstream => exact (hturn rfl (hstream ▸ Turn.call _ _ _ _)).imp_right .inl
    · exact .inl rfl
  | finish other outcome =>
    simp only [EventBus.step]
    split
    · next hstream => exact (hturn rfl (hstream ▸ Turn.finish _ _ _ _)).imp_right .inl
    · exact .inl rfl
  | leave other =>
    simp only [EventBus.step]
    split
    · next hstream => exact (hturn rfl (hstream ▸ Turn.leave _ _)).imp_right .inl
    · exact .inl rfl

private theorem Accounted.put {bus : EventBus} {corr : String} (h : Accounted bus corr)
    (event : DomainEvent) : Accounted (bus.put event) corr := by
  show ofCorrelation corr (bus.accepted ++ [event]) = ofCorrelation corr bus.dispatched ++
    ((bus.put event).stream corr).events
  rw [ofCorrelation_append, ofCorrelation_singleton, h, stream_put, List.append_assoc]
  split
  · simp [Stream.events]
  · simp

/-- The end of a dispatch moves the current event of the stream to the dispatched ones. -/
theorem Accounted.leave {bus : EventBus} {corr other : String} (h : Accounted bus corr)
    {queue : List (Option DomainEvent)} {event : DomainEvent}
    (hstream : bus.stream other = ⟨queue, .dispatching event []⟩)
    (hcorr : event.correlationId = other) :
    Accounted { bus.setStream other ⟨queue, .waiting⟩ with
      dispatched := bus.dispatched ++ [event] } corr := by
  show ofCorrelation corr bus.accepted = ofCorrelation corr (bus.dispatched ++ [event]) ++
    ((bus.setStream other ⟨queue, .waiting⟩).stream corr).events
  rw [ofCorrelation_append, ofCorrelation_singleton, h, stream_setStream, hcorr, List.append_assoc]
  by_cases heq : other = corr
  · simp only [heq, if_true]
    rw [← heq, hstream]
    simp [Stream.events, Worker.current]
  · simp [heq]

/-- Every action keeps every event accounted for. -/
theorem accounted_step {bus : EventBus} (h : ∀ corr, Accounted bus corr) (action : Action) :
    ∀ corr, Accounted (bus.step action) corr := by
  intro corr
  cases action with
  | subscribe key | publish event | abandon event => exact h corr
  | enter event =>
    simp only [EventBus.step]
    split
    · obtain ⟨haccepted, hdispatched, -, -⟩ := frame_enter bus event
      show ofCorrelation corr _ = ofCorrelation corr _ ++ _
      rw [stream_enter, haccepted, hdispatched]
      exact h corr
    · exact h corr
  | put =>
    simp only [EventBus.step]
    split
    · exact (h corr).put _
    · exact h corr
  | get other =>
    simp only [EventBus.step]
    split
    · next hstream => exact (h corr).setStream hstream rfl
    · next hstream => exact (h corr).setStream hstream rfl
    · exact h corr
  | call other =>
    simp only [EventBus.step]
    split
    · next hstream => exact (h corr).setStream hstream rfl
    · exact h corr
  | finish other outcome =>
    simp only [EventBus.step]
    split
    · next hstream => exact (h corr).setStream hstream rfl
    · exact h corr
  | leave other =>
    simp only [EventBus.step]
    split
    · next hstream =>
      apply (h corr).leave hstream
      apply correlationId_of_mem_events (h other)
      rw [hstream]
      exact List.mem_cons_self
    · exact h corr

/-! ### What a registration was handed -/

/-- A registration with its key, over a correlation: it was handed the dispatched events of its
key, and the current one unless its turn is still to come. Turns to come differ, and come for the
event's key only. -/
structure Delivered (bus : EventBus) (i : ℕ) (key : Option EventType) (corr : String) : Prop where
  registered : bus.subs[i]? = some key
  handed : bus.handedTo i corr =
    selected key (ofCorrelation corr bus.dispatched) ++
      if i ∈ (bus.stream corr).worker.rest then []
      else selected key (bus.stream corr).worker.current
  nodup : (bus.stream corr).worker.rest.Nodup
  selects : i ∈ (bus.stream corr).worker.rest →
    ∀ event ∈ (bus.stream corr).worker.current, Selects key event

private theorem delivered_new {subs : List (Option EventType)} {i : ℕ} {key : Option EventType}
    (h : subs[i]? = some key) (corr : String) : Delivered (new subs) i key corr where
  registered := h
  handed := rfl
  nodup := List.nodup_nil
  selects := fun h ↦ nomatch h

/-- What a registration was handed depends on the worker's event and the turns to come. -/
theorem Delivered.of_worker {bus bus' : EventBus} {i : ℕ} {key : Option EventType} {corr : String}
    (h : Delivered bus i key corr) (hsubs : bus'.subs[i]? = some key)
    (hhanded : bus'.handed = bus.handed) (hdispatched : bus'.dispatched = bus.dispatched)
    (hrest : (bus'.stream corr).worker.rest = (bus.stream corr).worker.rest)
    (hcurrent : (bus'.stream corr).worker.current = (bus.stream corr).worker.current) :
    Delivered bus' i key corr where
  registered := hsubs
  handed := by
    rw [hrest, hcurrent, hdispatched, ← h.handed]
    simp only [handedTo, hhanded]
  nodup := hrest ▸ h.nodup
  selects := by
    rw [hrest, hcurrent]
    exact h.selects

/-- A stream is replaced by one with the same event and the same turns to come. -/
theorem Delivered.setStream {bus : EventBus} {i : ℕ} {key : Option EventType} {corr : String}
    (h : Delivered bus i key corr) {other : String} {before stream : Stream}
    (hbefore : bus.stream other = before) (hrest : stream.worker.rest = before.worker.rest)
    (hcurrent : stream.worker.current = before.worker.current) :
    Delivered (bus.setStream other stream) i key corr := by
  refine h.of_worker h.registered rfl rfl ?_ ?_
  · rw [stream_setStream]
    split
    · next heq => rw [hrest, ← hbefore, heq]
    · rfl
  · rw [stream_setStream]
    split
    · next heq => rw [hcurrent, ← hbefore, heq]
    · rfl

private theorem handedTo_call (bus : EventBus) (i : ℕ) (corr : String) {bus' : EventBus}
    {handler : ℕ}
    {event : DomainEvent} (h : bus'.handed = bus.handed ++ [(handler, event)]) :
    bus'.handedTo i corr =
      bus.handedTo i corr ++ if handler = i ∧ event.correlationId = corr then [event] else [] := by
  simp only [handedTo, h, List.filter_append, List.map_append, ofCorrelation_append]
  congr 1
  by_cases hi : handler = i
  · simp [hi, ofCorrelation_singleton]
  · simp [hi, ofCorrelation]

/-- A worker takes an event: no registration of its key was handed it, and no other is to be. -/
theorem Delivered.get {bus : EventBus} {i : ℕ} {key : Option EventType} {corr : String}
    (h : Delivered bus i key corr) {queue rest : List (Option DomainEvent)} {event : DomainEvent}
    (hstream : bus.stream corr = ⟨queue, .waiting⟩) :
    Delivered (bus.setStream corr ⟨rest, .dispatching event (handlersOf bus.subs event)⟩)
      i key corr where
  registered := h.registered
  handed := by
    have hbefore := h.handed
    rw [hstream] at hbefore
    rw [stream_setStream, if_pos rfl]
    show bus.handedTo i corr = selected key (ofCorrelation corr bus.dispatched) ++ _
    rw [hbefore]
    simp only [Worker.rest, Worker.current, mem_handlersOf h.registered, selected_singleton]
    by_cases hsel : Selects key event <;> simp [hsel, selected]
  nodup := by
    rw [stream_setStream, if_pos rfl]
    exact nodup_handlersOf _ _
  selects := by
    rw [stream_setStream, if_pos rfl]
    intro hi e he
    rw [List.mem_singleton.mp he]
    exact (mem_handlersOf h.registered).mp hi

/-- The next registration has its turn. -/
theorem Delivered.call {bus : EventBus} {i : ℕ} {key : Option EventType} {corr : String}
    (h : Delivered bus i key corr) {queue : List (Option DomainEvent)} {event : DomainEvent}
    {handler : ℕ} {rest : List ℕ}
    (hstream : bus.stream corr = ⟨queue, .dispatching event (handler :: rest)⟩)
    (hcorr : event.correlationId = corr) :
    Delivered { bus.setStream corr ⟨queue, .handling event handler rest⟩ with
      handed := bus.handed ++ [(handler, event)] } i key corr := by
  have hnodup := h.nodup
  have hselects := h.selects
  have hbefore := h.handed
  rw [hstream] at hnodup hselects hbefore
  simp only [Worker.rest, Worker.current] at hnodup hselects hbefore
  have hafter : (EventBus.stream { bus.setStream corr ⟨queue, .handling event handler rest⟩ with
      handed := bus.handed ++ [(handler, event)] } corr) = ⟨queue, .handling event handler rest⟩ :=
    (stream_setStream ..).trans (if_pos rfl)
  refine ⟨h.registered, ?_, ?_, ?_⟩
  · rw [handedTo_call bus i corr rfl, hafter, hbefore]
    simp only [Worker.rest, Worker.current, hcorr, and_true]
    by_cases hi : handler = i
    · subst hi
      have hnot : handler ∉ rest := (List.nodup_cons.mp hnodup).1
      have hsel : Selects key event := hselects List.mem_cons_self event List.mem_cons_self
      simp [hnot, selected_singleton, hsel, EventBus.setStream]
    · by_cases hrest : i ∈ rest <;> simp [hi, Ne.symm hi, hrest, EventBus.setStream]
  · rw [hafter]
    exact (List.nodup_cons.mp hnodup).2
  · rw [hafter]
    intro hi
    exact hselects (List.mem_cons_of_mem _ hi)

/-- After its last turn the current event is dispatched. -/
theorem Delivered.leave {bus : EventBus} {i : ℕ} {key : Option EventType} {corr : String}
    (h : Delivered bus i key corr) {queue : List (Option DomainEvent)} {event : DomainEvent}
    (hstream : bus.stream corr = ⟨queue, .dispatching event []⟩)
    (hcorr : event.correlationId = corr) :
    Delivered { bus.setStream corr ⟨queue, .waiting⟩ with
      dispatched := bus.dispatched ++ [event] } i key corr := by
  have hbefore := h.handed
  rw [hstream] at hbefore
  have hafter : (EventBus.stream { bus.setStream corr ⟨queue, .waiting⟩ with
      dispatched := bus.dispatched ++ [event] } corr) = ⟨queue, .waiting⟩ :=
    (stream_setStream ..).trans (if_pos rfl)
  refine ⟨h.registered, ?_, ?_, ?_⟩
  · show bus.handedTo i corr = _
    rw [hbefore, hafter]
    simp [Worker.rest, Worker.current, ofCorrelation_singleton, hcorr, selected]
  · rw [hafter]
    exact List.nodup_nil
  · rw [hafter]
    intro hi
    cases hi

/-- A stretch of a worker leaves the other streams alone. -/
theorem Delivered.of_other {bus bus' : EventBus} {i : ℕ} {key : Option EventType} {corr : String}
    (h : Delivered bus i key corr) {other : String} {stream : Stream} (hne : other ≠ corr)
    (hsubs : bus'.subs = bus.subs) (hhanded : bus'.handedTo i corr = bus.handedTo i corr)
    (hdispatched : ofCorrelation corr bus'.dispatched = ofCorrelation corr bus.dispatched)
    (hstreams : bus'.streams = (bus.setStream other stream).streams) :
    Delivered bus' i key corr := by
  have hstream : bus'.stream corr = bus.stream corr := by
    show (bus'.streams.get? corr).getD Stream.new = _
    rw [hstreams]
    exact (stream_setStream ..).trans (if_neg hne)
  refine ⟨hsubs ▸ h.registered, ?_, ?_, ?_⟩
  · rw [hhanded, hdispatched, hstream, h.handed]
  · exact hstream ▸ h.nodup
  · exact hstream ▸ h.selects

private theorem delivered_step {bus : EventBus} (hacc : ∀ corr, Accounted bus corr) {i : ℕ}
    {key : Option EventType} {corr : String} (h : Delivered bus i key corr) (action : Action) :
    Delivered (bus.step action) i key corr := by
  -- a worker's event is of the worker's correlation
  have hcurrent : ∀ {other queue worker}, bus.stream other = ⟨queue, worker⟩ →
      ∀ event ∈ worker.current, event.correlationId = other := by
    intro other queue worker hstream event hevent
    apply correlationId_of_mem_events (hacc other)
    rw [hstream]
    exact List.mem_append_left _ hevent
  cases action with
  | subscribe new =>
    refine h.of_worker ?_ rfl rfl rfl rfl
    show (bus.subs ++ [new])[i]? = some key
    rw [List.getElem?_append_left (List.getElem?_eq_some_iff.mp h.registered).1]
    exact h.registered
  | publish event | abandon event => exact h.of_worker h.registered rfl rfl rfl rfl
  | enter event =>
    simp only [EventBus.step]
    split
    · obtain ⟨-, hdispatched, hhanded, hsubs⟩ := frame_enter bus event
      refine h.of_worker ?_ hhanded hdispatched (by rw [stream_enter]) (by rw [stream_enter])
      rw [hsubs]
      exact h.registered
    · exact h
  | put =>
    simp only [EventBus.step]
    split
    · refine h.of_worker h.registered rfl rfl ?_ ?_
      all_goals rw [stream_put]; split <;> rfl
    · exact h
  | get other =>
    simp only [EventBus.step]
    split
    · next hstream => exact h.setStream hstream rfl rfl
    · next event queue hstream =>
      by_cases heq : other = corr
      · subst heq
        exact h.get hstream
      · exact h.of_other heq rfl rfl rfl rfl
    · exact h
  | call other =>
    simp only [EventBus.step]
    split
    · next queue event handler rest hstream =>
      have hcorr := hcurrent hstream event List.mem_cons_self
      by_cases heq : other = corr
      · subst heq
        exact h.call hstream hcorr
      · refine h.of_other heq rfl ?_ rfl rfl
        rw [handedTo_call bus i corr rfl, hcorr, if_neg (fun hand ↦ heq hand.2), List.append_nil]
    · exact h
  | finish other outcome =>
    simp only [EventBus.step]
    split
    · next hstream => exact h.setStream hstream rfl rfl
    · exact h
  | leave other =>
    simp only [EventBus.step]
    split
    · next queue event hstream =>
      have hcorr := hcurrent hstream event List.mem_cons_self
      by_cases heq : other = corr
      · subst heq
        exact h.leave hstream hcorr
      · refine h.of_other heq rfl rfl ?_ rfl
        rw [ofCorrelation_append, ofCorrelation_singleton, hcorr, if_neg heq, List.append_nil]
    · exact h

/-! ### Runs -/

/-- What holds of a bus after any actions of publishers and workers. -/
structure InOrder (bus : EventBus) (i : ℕ) (key : Option EventType) : Prop where
  seenOnce : SeenOnce bus
  accounted : ∀ corr, Accounted bus corr
  delivered : ∀ corr, Delivered bus i key corr

private theorem inOrder_run {subs : List (Option EventType)} {i : ℕ} {key : Option EventType}
    (h : subs[i]? = some key) (actions : List Action) :
    InOrder (run step (new subs) actions) i key := by
  apply run_invariant (I := fun bus ↦ InOrder bus i key) (L := fun _ ↦ True) ?_ actions
    (fun _ _ ↦ trivial)
  · exact ⟨seenOnce_new subs, accounted_new subs, delivered_new h⟩
  · intro bus action hbus _
    exact ⟨hbus.seenOnce.step action, accounted_step hbus.accounted action,
      fun corr ↦ delivered_step hbus.accounted (hbus.delivered corr) action⟩

/-- The accepted events of a key: those handed to the registration, then those that are not yet. -/
theorem InOrder.selected_accepted {bus : EventBus} {i : ℕ} {key : Option EventType}
    (h : InOrder bus i key) (corr : String) :
    ∃ later, selected key (ofCorrelation corr bus.accepted) = bus.handedTo i corr ++ later ∧
      ((bus.stream corr).events = [] → later = []) := by
  have hacc : selected key (ofCorrelation corr bus.accepted) =
      selected key (ofCorrelation corr bus.dispatched) ++
        (selected key (bus.stream corr).worker.current ++
          selected key ((bus.stream corr).queue.filterMap id)) := by
    rw [h.accounted corr, selected_append, Stream.events, selected_append]
  have hhanded := (h.delivered corr).handed
  by_cases hi : i ∈ (bus.stream corr).worker.rest
  · rw [if_pos hi, List.append_nil] at hhanded
    refine ⟨_, by rw [hacc, hhanded], ?_⟩
    intro hnil
    obtain ⟨hcurrent, hqueue⟩ := List.append_eq_nil_iff.mp hnil
    rw [hcurrent, hqueue]
    rfl
  · rw [if_neg hi] at hhanded
    refine ⟨selected key ((bus.stream corr).queue.filterMap id), ?_, ?_⟩
    · rw [hacc, hhanded, List.append_assoc]
    · intro hnil
      rw [(List.append_eq_nil_iff.mp hnil).2]
      rfl

/-- An idle bus has no event waiting. -/
theorem events_of_isIdle {bus : EventBus} (h : bus.isIdle = true) (corr : String) :
    (bus.stream corr).events = [] := by
  obtain ⟨hdispatching, hqueues⟩ := of_decide_eq_true h
  by_cases hkey : corr ∈ bus.streams.keys
  · have hqueue : (bus.stream corr).queue = [] :=
      of_decide_eq_true (List.all_eq_true.mp hqueues corr hkey)
    have hcurrent : (bus.stream corr).worker.current.length = 0 :=
      List.sum_eq_zero_iff_forall_eq_nat.mp hdispatching _ (List.mem_map_of_mem hkey)
    rw [Stream.events, List.length_eq_zero_iff.mp hcurrent, hqueue]
    rfl
  · rw [EventBus.stream, (Dict.not_mem_keys_iff _ _).mp hkey]
    rfl

/-- After any actions of publishers and workers, with any outcomes of the handlers: a registration
made before them was handed a prefix of the accepted events of its key, for each correlation, no
two of them with the same event id, and all of them when the bus is idle. -/
theorem delivers_in_order (subs : List (Option EventType)) (i : Fin subs.length) (corr : String)
    (actions : List Action) :
    let bus := run step (new subs) actions
    let accepted := selected (subs.get i) (ofCorrelation corr bus.accepted)
    bus.handedTo i corr <+: accepted ∧
      ((bus.handedTo i corr).map DomainEvent.eventId).Nodup ∧
      (bus.isIdle = true → bus.handedTo i corr = accepted) := by
  intro bus accepted
  have h : InOrder bus i (subs.get i) := by
    apply inOrder_run
    simp
  obtain ⟨later, hlater, hidle⟩ := h.selected_accepted corr
  have hfront : bus.handedTo i corr <+: accepted := ⟨later, hlater.symm⟩
  refine ⟨hfront, ?_, ?_⟩
  · have hsub : (bus.handedTo i corr).Sublist bus.accepted :=
      hfront.sublist.trans (List.filter_sublist.trans List.filter_sublist)
    exact (hsub.map DomainEvent.eventId).nodup h.seenOnce.nodup
  · intro hbus
    rw [hidle (events_of_isIdle hbus corr), List.append_nil] at hlater
    exact hlater.symm

end EventBus
end Joker.Events
