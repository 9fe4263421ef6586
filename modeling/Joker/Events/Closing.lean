import Joker.Events.Delivery

/-!
# Closing the bus

Library `Events`. `close` beside the publishers and the workers. It waits until the bus is idle in
two looks with a turn of the others in between, puts an end marker in every queue, and waits for the
workers it has. A publish that comes after the markers is accepted all the same: on a queue with a
marker its event is never taken, on a new queue its worker is not waited for.
-/

namespace Joker.Events

open Joker.Base

/-- Where the `close` call is. -/
inductive ClosePhase where
  | notCalled
  | draining
  /-- `drain` found the bus idle once and lets the others run. -/
  | yielding
  | awaiting (tasks : List String)
  | returned
  /-- `drain` raised `TimeoutError`. -/
  | failed
  deriving DecidableEq

/-- The bus with its `close` call. -/
structure ClosingBus where
  bus : EventBus
  close : ClosePhase

/-- The end marker is in the queue, or was taken. -/
def Stream.Marked (stream : Stream) : Prop := none ∈ stream.queue ∨ stream.worker = .ended

instance (stream : Stream) : Decidable stream.Marked := inferInstanceAs (Decidable (_ ∨ _))

namespace ClosingBus

open EventBus

/-- A bus with registrations, before `close` is called. -/
def new (subs : List (Option EventType)) : ClosingBus := ⟨EventBus.new subs, .notCalled⟩

/-- A label of a run: a stretch of a publisher or a worker, or one of `close`. -/
inductive Label where
  | other (action : Action)
  | call
  /-- `drain` looks whether the bus is idle. -/
  | look
  /-- The deadline of `drain`. -/
  | expire
  /-- `close` goes on at the task it awaits. -/
  | join
  deriving DecidableEq

/-- `queue.put(None)` for every queue. -/
def putMarkers (bus : EventBus) : EventBus :=
  bus.streams.keys.foldl (fun bus corr ↦
    bus.setStream corr { bus.stream corr with queue := (bus.stream corr).queue ++ [none] }) bus

/-- The tasks that are not done, from the first of them on. -/
def notDone (bus : EventBus) (tasks : List String) : List String :=
  tasks.dropWhile (fun corr ↦ (bus.stream corr).worker = .ended)

/-- `await task` for each task, up to the first that is not done; after the last the queues and
the workers are cleared, and `close` returns. -/
def join (bus : EventBus) (tasks : List String) : ClosingBus :=
  match notDone bus tasks with
  | [] => ⟨{ bus with streams := Dict.empty }, .returned⟩
  | corr :: rest => ⟨bus, .awaiting (corr :: rest)⟩

/-- One step. A run is looked at until `close` returns. Source `joker/events/bus.py:131–140`. -/
def step (s : ClosingBus) : Label → ClosingBus
  | .other action => if s.close = .returned then s else { s with bus := s.bus.step action }
  | .call => if s.close = .notCalled then { s with close := .draining } else s
  | .look =>
    match s.close with
    | .draining => if s.bus.isIdle then { s with close := .yielding } else s
    | .yielding =>
      if s.bus.isIdle then join (putMarkers s.bus) s.bus.streams.keys
      else { s with close := .draining }
    | _ => s
  | .expire => if s.close = .draining then { s with close := .failed } else s
  | .join =>
    match s.close with
    | .awaiting tasks => join s.bus tasks
    | _ => s

/-! ### The condition -/

/-- Before `close` returns, a step does not put an event on a queue with an end marker, and if
`close` returns in it, every queue without one is empty and its worker waits. -/
def Meets (s : ClosingBus) : Label → Prop
  | .other .put => s.close ≠ .returned →
      ∀ event ∈ s.bus.lock, ¬ (s.bus.stream event.correlationId).Marked
  | .join =>
    match s.close with
    | .awaiting tasks => notDone s.bus tasks = [] → ∀ corr ∈ s.bus.streams.keys,
        ¬ (s.bus.stream corr).Marked → (s.bus.stream corr).events = []
    | _ => True
  | _ => True

instance (s : ClosingBus) (label : Label) : Decidable (Meets s label) := by
  unfold Meets
  split
  · infer_instance
  · split <;> infer_instance
  · infer_instance

/-- Every publish that returned `True` had its event dispatched. -/
def AllDispatched (bus : EventBus) : Prop := ∀ event ∈ bus.accepted, event ∈ bus.dispatched

/-! ### Behind a marker -/

/-- The events behind the first end marker of a queue. -/
def behind : List (Option DomainEvent) → List DomainEvent
  | [] => []
  | none :: rest => rest.filterMap id
  | some _ :: rest => behind rest

/-- The events of a stream that its worker will not take. -/
def stuck (stream : Stream) : List DomainEvent :=
  if stream.worker = .ended then stream.queue.filterMap id else behind stream.queue

private theorem behind_append_subset (queue more : List (Option DomainEvent)) :
    behind queue ⊆ behind (queue ++ more) := by
  induction queue with
  | nil => simp [behind]
  | cons head rest ih =>
    cases head with
    | none => simp [behind]
    | some event => exact ih

private theorem mem_behind_append {queue : List (Option DomainEvent)} (h : none ∈ queue)
    (event : DomainEvent) : event ∈ behind (queue ++ [some event]) := by
  induction queue with
  | nil => cases h
  | cons head rest ih =>
    cases head with
    | none => simp [behind]
    | some other => exact ih (by simpa using h)

private theorem behind_subset (queue : List (Option DomainEvent)) :
    behind queue ⊆ queue.filterMap id := by
  induction queue with
  | nil => simp [behind]
  | cons head rest ih =>
    cases head with
    | none => simp [behind]
    | some event => exact fun e he ↦ List.mem_cons_of_mem _ (ih he)

private theorem stuck_subset_events (stream : Stream) : stuck stream ⊆ stream.events := by
  intro event h
  apply List.mem_append_right
  unfold stuck at h
  split at h
  · exact h
  · exact behind_subset _ h

/-- What is put at the end of a queue frees no event. -/
theorem stuck_append_subset (stream : Stream) (more : List (Option DomainEvent)) :
    stuck stream ⊆ stuck { stream with queue := stream.queue ++ more } := by
  intro event h
  unfold stuck at h ⊢
  split at h
  · next hended =>
    rw [if_pos hended, List.filterMap_append]
    exact List.mem_append_left _ h
  · next hended =>
    rw [if_neg (by exact hended)]
    exact behind_append_subset _ _ h

private theorem mem_stuck_append {stream : Stream} (h : stream.Marked) (event : DomainEvent) :
    event ∈ stuck { stream with queue := stream.queue ++ [some event] } := by
  unfold stuck
  split
  · simp
  · next hended => exact mem_behind_append (h.resolve_right hended) event

/-- A worker frees no event. -/
theorem stuck_subset_turn {before after : Stream} (h : Turn before after) :
    stuck before ⊆ stuck after := by
  cases h with
  | stop => simp [stuck, behind]
  | take => simp [stuck, behind]
  | call => simp [stuck]
  | finish => simp [stuck]
  | leave => simp [stuck]

/-- No action frees an event. -/
theorem stuck_subset_step (bus : EventBus) (action : Action) (corr : String) :
    stuck (bus.stream corr) ⊆ stuck ((bus.step action).stream corr) := by
  rcases stream_step bus action corr with h | h | ⟨event, -, h⟩
  · rw [h]
    exact List.Subset.refl _
  · exact stuck_subset_turn h
  · rw [h]
    exact stuck_append_subset _ _

/-! ### Before `close` returns -/

/-- What holds until `close` returns, whatever the publishers do. -/
structure Sound (bus : EventBus) : Prop where
  seenOnce : SeenOnce bus
  accounted : ∀ corr, Accounted bus corr

private theorem Sound.step {bus : EventBus} (h : Sound bus) (action : Action) : Sound
    (bus.step action) :=
  ⟨h.seenOnce.step action, accounted_step h.accounted action⟩

/-- An event of a stream is accepted, and not dispatched. -/
theorem Sound.not_allDispatched {bus : EventBus} (h : Sound bus) {corr : String}
    {event : DomainEvent} (hmem : event ∈ (bus.stream corr).events) : ¬ AllDispatched bus := by
  intro hall
  have hcorr := correlationId_of_mem_events (h.accounted corr) hmem
  have hacc : event ∈ ofCorrelation corr bus.accepted := by
    rw [h.accounted corr]
    exact List.mem_append_right _ hmem
  have hdispatched : event ∈ ofCorrelation corr bus.dispatched :=
    List.mem_filter.mpr ⟨hall event (List.mem_filter.mp hacc).1, decide_eq_true hcorr⟩
  have hnodup : (ofCorrelation corr bus.accepted).Nodup :=
    (List.Nodup.of_map _ h.seenOnce.nodup).filter _
  rw [h.accounted corr, List.nodup_append] at hnodup
  exact hnodup.2.2 event hdispatched event hmem rfl

/-- With nothing in the streams all that was accepted is dispatched. -/
theorem Sound.allDispatched {bus : EventBus} (h : Sound bus)
    (hempty : ∀ corr, (bus.stream corr).events = []) : AllDispatched bus := by
  intro event hacc
  have hmem : event ∈ ofCorrelation event.correlationId bus.accepted :=
    List.mem_filter.mpr ⟨hacc, decide_eq_true rfl⟩
  rw [h.accounted, hempty, List.append_nil] at hmem
  exact (List.mem_filter.mp hmem).1

/-- The markers are no events. -/
theorem stream_putMarkers (bus : EventBus) (corr : String) :
    ∃ markers, (∀ marker ∈ markers, marker = none) ∧
      (putMarkers bus).stream corr =
        { bus.stream corr with queue := (bus.stream corr).queue ++ markers } := by
  unfold putMarkers
  generalize bus.streams.keys = keys
  induction keys generalizing bus with
  | nil => exact ⟨[], by simp, by simp⟩
  | cons key rest ih =>
    obtain ⟨markers, hnone, hstream⟩ := ih
      (bus.setStream key { bus.stream key with queue := (bus.stream key).queue ++ [none] })
    rw [List.foldl_cons, hstream, stream_setStream]
    split
    · next heq =>
      refine ⟨none :: markers, by simpa using hnone, ?_⟩
      simp [heq]
    · exact ⟨markers, hnone, rfl⟩

private theorem events_append_markers {stream : Stream} {markers : List (Option DomainEvent)}
    (h : ∀ marker ∈ markers, marker = none) :
    Stream.events { stream with queue := stream.queue ++ markers } = stream.events := by
  simpa [Stream.events] using h

private theorem events_putMarkers (bus : EventBus) (corr : String) :
    ((putMarkers bus).stream corr).events = (bus.stream corr).events := by
  obtain ⟨markers, hnone, hstream⟩ := stream_putMarkers bus corr
  rw [hstream, events_append_markers hnone]

private theorem putMarkers_frame (bus : EventBus) : (putMarkers bus).accepted = bus.accepted ∧
    (putMarkers bus).dispatched = bus.dispatched ∧ (putMarkers bus).seen = bus.seen ∧
    (putMarkers bus).lock = bus.lock := by
  unfold putMarkers
  generalize bus.streams.keys = keys
  induction keys generalizing bus with
  | nil => exact ⟨rfl, rfl, rfl, rfl⟩
  | cons key rest ih => exact ih (bus.setStream key _)

private theorem Sound.putMarkers {bus : EventBus} (h : Sound bus) : Sound (putMarkers bus) := by
  obtain ⟨haccepted, hdispatched, hseen, hlock⟩ := putMarkers_frame bus
  constructor
  · exact ⟨by rw [haccepted, hseen]; exact h.seenOnce.seen,
      by rw [haccepted]; exact h.seenOnce.nodup,
      by rw [hlock, hseen, haccepted]; exact h.seenOnce.lock⟩
  · intro corr
    show ofCorrelation corr _ = ofCorrelation corr _ ++ _
    rw [haccepted, hdispatched, events_putMarkers]
    exact h.accounted corr

/-- Until `close` returns the bus is sound. -/
def Open (s : ClosingBus) : Prop := s.close ≠ .returned → Sound s.bus

/-- No event is behind a marker, and after `close` all that was accepted is dispatched. -/
def Kept (s : ClosingBus) : Prop :=
  if s.close = .returned then AllDispatched s.bus
  else ∀ corr, (s.bus.stream corr).Marked → (s.bus.stream corr).events = []

/-- An event is behind a marker, or `close` returned without its dispatch. -/
def Lost (s : ClosingBus) : Prop :=
  if s.close = .returned then ¬ AllDispatched s.bus
  else ∃ corr, stuck (s.bus.stream corr) ≠ []

private theorem close_join (bus : EventBus) (tasks : List String) :
    (join bus tasks = ⟨{ bus with streams := Dict.empty }, .returned⟩ ∧ notDone bus tasks = []) ∨
      (notDone bus tasks ≠ [] ∧ ∃ left, join bus tasks = ⟨bus, .awaiting left⟩) := by
  unfold join
  cases notDone bus tasks with
  | nil => exact .inl ⟨rfl, rfl⟩
  | cons corr rest => exact .inr ⟨by simp, corr :: rest, rfl⟩

private theorem open_join {bus : EventBus} (h : Sound bus) (tasks : List String) :
    Open (join bus tasks) := by
  rcases close_join bus tasks with ⟨heq, -⟩ | ⟨-, left, heq⟩ <;> rw [heq]
  · exact fun hne ↦ absurd rfl hne
  · exact fun _ ↦ h

/-- What a step does: nothing; a stretch of another, before `close` returns; a stretch of `close`
that leaves the bus alone; the markers, on an idle bus; or going on at a task. -/
theorem step_cases (s : ClosingBus) (label : Label) :
    s.step label = s ∨
      (s.close ≠ .returned ∧
        ((∃ action, label = .other action ∧ s.step label = { s with bus := s.bus.step action }) ∨
          (∃ phase, phase ≠ .returned ∧ s.step label = { s with close := phase }) ∨
          (s.bus.isIdle = true ∧ s.step label = join (putMarkers s.bus) s.bus.streams.keys) ∨
          (∃ tasks, label = .join ∧ s.close = .awaiting tasks ∧
            s.step label = join s.bus tasks))) := by
  cases label with
  | other action =>
    by_cases hclose : s.close = .returned
    · exact .inl (if_pos hclose)
    · exact .inr ⟨hclose, .inl ⟨action, rfl, if_neg hclose⟩⟩
  | call =>
    by_cases hclose : s.close = .notCalled
    · exact .inr ⟨by rw [hclose]; decide, .inr (.inl ⟨_, by decide, if_pos hclose⟩)⟩
    · exact .inl (if_neg hclose)
  | look =>
    simp only [ClosingBus.step]
    split
    · next hclose =>
      split
      · exact .inr ⟨by rw [hclose]; decide, .inr (.inl ⟨.yielding, by decide, rfl⟩)⟩
      · exact .inl rfl
    · next hclose =>
      refine .inr ⟨by rw [hclose]; decide, ?_⟩
      split
      · next hidle => exact .inr (.inr (.inl ⟨hidle, rfl⟩))
      · exact .inr (.inl ⟨.draining, by decide, rfl⟩)
    · exact .inl rfl
  | expire =>
    by_cases hclose : s.close = .draining
    · exact .inr ⟨by rw [hclose]; decide, .inr (.inl ⟨_, by decide, if_pos hclose⟩)⟩
    · exact .inl (if_neg hclose)
  | join =>
    simp only [ClosingBus.step]
    split
    · next tasks hclose =>
      exact .inr ⟨by rw [hclose]; simp, .inr (.inr (.inr ⟨tasks, trivial, hclose, rfl⟩))⟩
    · exact .inl rfl

private theorem open_step (s : ClosingBus) (label : Label) (h : Open s) : Open (s.step label) := by
  rcases step_cases s label with heq | ⟨hne, ⟨action, -, heq⟩ | ⟨phase, -, heq⟩ | ⟨-, heq⟩ |
    ⟨tasks, -, -, heq⟩⟩ <;> rw [heq]
  · exact h
  · exact fun _ ↦ (h hne).step action
  · exact fun _ ↦ h hne
  · exact open_join (h hne).putMarkers _
  · exact open_join (h hne) tasks

/-- A worker that leaves nothing behind a marker goes on so. -/
theorem events_of_turn {before after : Stream} (h : Turn before after)
    (hkept : before.Marked → before.events = []) (hmarked : after.Marked) : after.events = [] := by
  cases h with
  | stop queue => exact hkept (.inl List.mem_cons_self)
  | take event queue handlers =>
    have hin : none ∈ queue := hmarked.resolve_right (fun h ↦ nomatch h)
    cases hkept (.inl (List.mem_cons_of_mem _ hin))
  | call queue event handler rest =>
    have hin : none ∈ queue := hmarked.resolve_right (fun h ↦ nomatch h)
    cases hkept (.inl hin)
  | finish queue event handler rest =>
    have hin : none ∈ queue := hmarked.resolve_right (fun h ↦ nomatch h)
    cases hkept (.inl hin)
  | leave queue event =>
    have hin : none ∈ queue := hmarked.resolve_right (fun h ↦ nomatch h)
    cases hkept (.inl hin)

private theorem kept_other {bus : EventBus} {action : Action}
    (hkept : ∀ corr, (bus.stream corr).Marked → (bus.stream corr).events = [])
    (hmeets : action = .put →
      ∀ event ∈ bus.lock, ¬ (bus.stream event.correlationId).Marked) (corr : String)
    (hmarked : ((bus.step action).stream corr).Marked) :
    ((bus.step action).stream corr).events = [] := by
  rcases stream_step bus action corr with h | h | ⟨event, ⟨hput, hlock, hcorr⟩, h⟩
  · rw [h] at hmarked ⊢
    exact hkept corr hmarked
  · exact events_of_turn h (hkept corr) hmarked
  · rw [h] at hmarked
    have hbefore : (bus.stream corr).Marked := by
      rcases hmarked with hin | hended
      · exact .inl (by simpa using hin)
      · exact .inr hended
    exact absurd (hcorr ▸ hbefore) (hmeets hput event hlock)

private theorem kept_join {bus : EventBus} (hsound : Sound bus) {tasks : List String}
    (hkept : ∀ corr, (bus.stream corr).Marked → (bus.stream corr).events = [])
    (hmeets : notDone bus tasks = [] → ∀ corr ∈ bus.streams.keys,
      ¬ (bus.stream corr).Marked → (bus.stream corr).events = []) :
    Kept (join bus tasks) := by
  rcases close_join bus tasks with ⟨heq, hdone⟩ | ⟨-, left, heq⟩ <;> rw [heq]
  · show AllDispatched bus
    apply hsound.allDispatched
    intro corr
    by_cases hmarked : (bus.stream corr).Marked
    · exact hkept corr hmarked
    by_cases hkey : corr ∈ bus.streams.keys
    · exact hmeets hdone corr hkey hmarked
    · rw [EventBus.stream, (Dict.not_mem_keys_iff _ _).mp hkey]
      rfl
  · exact hkept

private theorem kept_step (s : ClosingBus) (label : Label) (hopen : Open s) (h : Kept s)
    (hmeets : Meets s label) : Kept (s.step label) := by
  rcases step_cases s label with heq | ⟨hne, hcase⟩
  · rw [heq]
    exact h
  unfold Kept at h
  rw [if_neg hne] at h
  rcases hcase with ⟨action, rfl, heq⟩ | ⟨phase, hphase, heq⟩ | ⟨hidle, heq⟩ |
    ⟨tasks, rfl, hclose, heq⟩ <;> rw [heq]
  · unfold Kept
    rw [if_neg hne]
    apply kept_other h
    rintro rfl
    exact hmeets hne
  · unfold Kept
    rw [if_neg hphase]
    exact h
  · have hempty : ∀ corr, ((putMarkers s.bus).stream corr).events = [] := by
      intro corr
      rw [events_putMarkers]
      exact events_of_isIdle hidle corr
    exact kept_join (hopen hne).putMarkers (fun corr _ ↦ hempty corr) (fun _ corr _ _ ↦ hempty corr)
  · simp only [Meets, hclose] at hmeets
    exact kept_join (hopen hne) h hmeets

/-! ### An event behind a marker -/

private theorem lost_join {bus : EventBus} (hsound : Sound bus) (tasks : List String)
    {corr : String}
    (hstuck : stuck (bus.stream corr) ≠ []) : Lost (join bus tasks) := by
  rcases close_join bus tasks with ⟨heq, -⟩ | ⟨-, left, heq⟩ <;> rw [heq]
  · obtain ⟨event, hevent⟩ := List.exists_mem_of_ne_nil _ hstuck
    show ¬ AllDispatched bus
    exact hsound.not_allDispatched (stuck_subset_events _ hevent)
  · exact ⟨corr, hstuck⟩

/-- What is lost stays lost. -/
theorem lost_step (s : ClosingBus) (label : Label) (hopen : Open s) (h : Lost s) :
    Lost (s.step label) := by
  rcases step_cases s label with heq | ⟨hne, hcase⟩
  · rw [heq]
    exact h
  unfold Lost at h
  rw [if_neg hne] at h
  obtain ⟨corr, hstuck⟩ := h
  obtain ⟨event, hevent⟩ := List.exists_mem_of_ne_nil _ hstuck
  rcases hcase with ⟨action, -, heq⟩ | ⟨phase, hphase, heq⟩ | ⟨hidle, heq⟩ | ⟨tasks, -, -, heq⟩ <;>
    rw [heq]
  · unfold Lost
    rw [if_neg hne]
    exact ⟨corr, List.ne_nil_of_mem (stuck_subset_step s.bus action corr hevent)⟩
  · unfold Lost
    rw [if_neg hphase]
    exact ⟨corr, hstuck⟩
  · have hempty := events_of_isIdle hidle corr
    have hmem := stuck_subset_events _ hevent
    rw [hempty] at hmem
    cases hmem
  · exact lost_join (hopen hne) tasks hstuck

/-- A step that does not meet the condition loses an event. -/
theorem lost_of_not_meets (s : ClosingBus) (label : Label) (hopen : Open s)
    (hmeets : ¬ Meets s label) : Lost (s.step label) := by
  unfold Meets at hmeets
  split at hmeets
  · -- an event is put behind a marker
    push Not at hmeets
    obtain ⟨hne, event, hlock, hmarked⟩ := hmeets
    have hlock : s.bus.lock = some event := hlock
    have hstep : s.step (.other .put) = { s with bus := s.bus.put event } := by
      simp [ClosingBus.step, hne, EventBus.step, hlock]
    rw [hstep]
    unfold Lost
    rw [if_neg hne]
    refine ⟨event.correlationId, List.ne_nil_of_mem (a := event) ?_⟩
    rw [stream_put, if_pos rfl]
    exact mem_stuck_append hmarked event
  · split at hmeets
    · -- `close` returns over a queue it does not wait for
      next tasks hclose =>
      push Not at hmeets
      obtain ⟨hdone, corr, -, -, hevents⟩ := hmeets
      have hne : s.close ≠ .returned := by rw [hclose]; simp
      have hstep : s.step .join = join s.bus tasks := by simp [ClosingBus.step, hclose]
      rw [hstep]
      rcases close_join s.bus tasks with ⟨heq, -⟩ | ⟨hnot, -⟩
      · rw [heq]
        obtain ⟨event, hevent⟩ := List.exists_mem_of_ne_nil _ hevents
        show ¬ AllDispatched s.bus
        exact (hopen hne).not_allDispatched hevent
      · exact absurd hdone hnot
    · exact absurd trivial hmeets
  · exact absurd trivial hmeets

private theorem open_new (subs : List (Option EventType)) : Open (new subs) :=
  fun _ ↦ ⟨seenOnce_new subs, accounted_new subs⟩

private theorem kept_new (subs : List (Option EventType)) : Kept (new subs) := by
  intro corr hmarked
  exact absurd hmarked (by simp [new, Stream.Marked, Stream.new])

/-- In a run in which `close` returned, all publishes that returned `True` before had their events
dispatched if and only if none of them put an event on a queue that had its end marker, and the
queues made after the markers were empty again when `close` returned. -/
theorem allDispatched_iff (subs : List (Option EventType)) (labels : List Label)
    (hreturned : (run step (new subs) labels).close = .returned) :
    AllDispatched (run step (new subs) labels).bus ↔ StepsMeet step Meets (new subs) labels := by
  have hrule : (StepsMeet step Meets (new subs) labels → Kept (run step (new subs) labels)) ∧
      (¬ StepsMeet step Meets (new subs) labels → Lost (run step (new subs) labels)) :=
    run_kept_or_lost open_step kept_step (fun s label hopen _ ↦ lost_of_not_meets s label hopen)
      lost_step (open_new subs) (kept_new subs)
  obtain ⟨hkept, hlost⟩ := hrule
  simp only [Kept, Lost, hreturned, if_true] at hkept hlost
  constructor
  · intro hall
    by_contra hnot
    exact hlost hnot hall
  · exact hkept

/-- A fill of an order. -/
def filled (eventId correlationId : String) : DomainEvent :=
  { eventId := eventId
    eventType := .orderFilled
    correlationId := correlationId }

/-- The labels of a `publish` call that finds the lock free. -/
def published (event : DomainEvent) : List Label :=
  [.other (.publish event), .other (.enter event), .other .put]

/-- The labels of a worker for one event and one handler. -/
def handled (corr : String) : List Label :=
  [.other (.get corr), .other (.call corr), .other (.finish corr .returned), .other (.leave corr)]

/-- `close` with nobody publishing. -/
def closeQuietly (corr : String) : List Label :=
  [.call, .look, .look, .other (.get corr), .join]

/-- `close`, with a publish before its worker takes the marker.
Source `joker/events/bus.py:131–140`. -/
def closeAndPublish (event : DomainEvent) : List Label :=
  [.call, .look, .look] ++ published event ++ [.other (.get event.correlationId), .join]

/-- A bus that is closed after its only event was handled has dispatched all. -/
theorem allDispatched_quietly :
    AllDispatched (run step (new [some .orderFilled])
      (published (filled "e1" "order-1") ++ handled "order-1" ++ closeQuietly "order-1")).bus ∧
    StepsMeet step Meets (new [some .orderFilled])
      (published (filled "e1" "order-1") ++ handled "order-1" ++ closeQuietly "order-1") := by
  have hmeets : StepsMeet step Meets (new [some .orderFilled])
      (published (filled "e1" "order-1") ++ handled "order-1" ++ closeQuietly "order-1") := by
    decide +kernel
  exact ⟨(allDispatched_iff [some .orderFilled] _ (by decide +kernel)).mpr hmeets, hmeets⟩

/-- The second fill of the order comes after the markers. Its publish returns `True`, `close`
returns, and it was not dispatched. -/
theorem not_allDispatched_marked :
    (run step (new [some .orderFilled]) (published (filled "e1" "order-1") ++ handled "order-1" ++
      closeAndPublish (filled "e2" "order-1"))).close = .returned ∧
    ¬ AllDispatched (run step (new [some .orderFilled]) (published (filled "e1" "order-1") ++
      handled "order-1" ++ closeAndPublish (filled "e2" "order-1"))).bus := by
  refine ⟨by decide +kernel, ?_⟩
  intro hall
  have hmem := hall (filled "e2" "order-1")
  exact absurd (hmem (by decide +kernel)) (by decide +kernel)

end ClosingBus
end Joker.Events
