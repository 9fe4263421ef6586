import Joker.Runtime.CycleRecovery

/-!
# Which cycles are resumed

Library `Runtime`. The registry refines the queue of unfinished cycles: in every run, crashes at any
point included, `list_resumable` gives exactly the cycles that were written as running and not
brought to a terminal outcome since, also one whose graph was not yet invoked. A start resumes each
of them once, on its own thread, before it takes new work.
-/

namespace Joker.Runtime

open Joker.Base Joker.Persistence

/-! ### Threads -/

/-- Within a session, cycles of different keys have different threads. -/
theorem threadOf_inj {a b : CycleKey} (hsession : a.sessionId = b.sessionId)
    (h : threadOf a = threadOf b) : a = b := by
  obtain ⟨session, kind, cycle⟩ := a
  obtain ⟨session', kind', cycle'⟩ := b
  obtain rfl : session = session' := hsession
  unfold threadOf cognitiveThreadId at h
  simp only [String.append_assoc, String.append_right_inj] at h
  have htext := congrArg String.toList h
  simp only [String.toList_append] at htext
  -- Both kinds have eight letters.
  have hlength : kind.value.toList.length = kind'.value.toList.length := by
    cases kind <;> cases kind' <;> decide
  obtain ⟨hletters, hrest⟩ := List.append_inj htext hlength
  have hvalue : kind.value = kind'.value := String.toList_injective hletters
  have hkind : kind = kind' := by
    cases kind <;> cases kind' <;> first | rfl | exact absurd hvalue (by decide)
  have hcycle : cycle = cycle' := String.toList_injective (List.append_cancel_left hrest)
  rw [hkind, hcycle]

/-! ### What an action does -/

/-- The records that are being resumed or left to resume. -/
def RuntimePhase.records : RuntimePhase → List CognitiveCycleRecord
  | .resuming current left => (current.map Resumption.record).toList ++ left
  | .down | .up => []

/-- The records of the next phase are those that are left. -/
@[simp] theorem records_nextPhase (left : List CognitiveCycleRecord) :
    (CycleRuntime.nextPhase left).records = left := by
  cases left <;> rfl

/-- The session's own record of a cycle that was written as running, with the cycle's thread. -/
structure Known (config : CycleConfig) (notes : List CycleNote) (record : CognitiveCycleRecord) :
    Prop where
  own : record.sessionId = config.sessionId
  thread : record.checkpointThreadId = threadOf record.key
  began : .began record.key ∈ notes

private theorem Known.mono {config : CycleConfig} {notes notes' : List CycleNote}
    {record : CognitiveCycleRecord} (h : Known config notes record) (hsub : notes ⊆ notes') :
    Known config notes' record := ⟨h.own, h.thread, hsub h.began⟩

/-- The time of the write that an action may make. -/
def CycleAction.time? : CycleAction → Option UtcTime
  | .decision _ _ _ now | .position _ now | .finish _ _ now | .resume _ now | .resumed _ now
  | .other _ now => some now
  | .invoke _ | .invokeResumed | .die | .start _ => none

namespace CycleRuntime

variable {config : CycleConfig} {s t : CycleRuntime}

/-- All records of the session that are about, in the table and in the process, are known, and
graphs were invoked for known cycles only. -/
structure Sound (config : CycleConfig) (s : CycleRuntime) : Prop where
  rows : ∀ row ∈ s.registry.rows, row.record.sessionId = config.sessionId →
    Known config s.notes row.record
  records : ∀ record ∈ s.phase.records, Known config s.notes record
  inFlight : ∀ cycle ∈ s.inFlight, .began (cycle.work.key config) ∈ s.notes
  threads : ∀ thread ∈ s.threads, ∃ key, .began key ∈ s.notes ∧ thread = threadOf key

/-- What an action can do: it writes nothing, or a record of another session, or one of its own
whose note says the same of the cycle as its status. -/
inductive Effect (config : CycleConfig) (s t : CycleRuntime) : Option UtcTime → Prop where
  | quiet (now : Option UtcTime) (hregistry : t.registry = s.registry)
      (hnotes : t.notes = s.notes) : Effect config s t now
  | other (record : CognitiveCycleRecord) (now : UtcTime)
      (hother : record.sessionId ≠ config.sessionId)
      (hregistry : t.registry = s.registry.upsert record now.text) (hnotes : t.notes = s.notes) :
      Effect config s t (some now)
  | wrote (record : CognitiveCycleRecord) (now : UtcTime) (note : CycleNote)
      (hknown : Known config t.notes record) (hupdated : record.updatedAt = none)
      (hstatus : record.status = .running ∨ record.status = .completed)
      (hregistry : t.registry = s.registry.upsert record now.text)
      (hnotes : t.notes = s.notes ++ [note])
      (hnote : ∀ queue, note.tell queue =
        if record.status.resumable then touch queue record.key else leave queue record.key) :
      Effect config s t (some now)

private theorem known_upsert {record : CognitiveCycleRecord} {now : String}
    {notes : List CycleNote}
    (h : ∀ row ∈ s.registry.rows, row.record.sessionId = config.sessionId →
      Known config notes row.record)
    (hrecord : record.sessionId = config.sessionId → Known config notes record) :
    ∀ row ∈ (s.registry.upsert record now).rows, row.record.sessionId = config.sessionId →
      Known config notes row.record := by
  intro row hrow hown
  rw [CognitiveCycleRegistry.rows_upsert] at hrow
  rcases mem_upsert.mp hrow with rfl | ⟨hold, -⟩
  · exact hrecord hown
  · exact h row hold hown

private theorem sound_write (h : Sound config s) {record : CognitiveCycleRecord} {now : UtcTime}
    {note : CycleNote} (hrecord : Known config (s.notes ++ [note]) record) :
    Sound config { s.write record now with notes := s.notes ++ [note] } := by
  have hsub : s.notes ⊆ s.notes ++ [note] := List.subset_append_left _ _
  refine ⟨?_, ?_, ?_, ?_⟩
  · exact known_upsert (fun row hrow hown ↦ (h.rows row hrow hown).mono hsub) (fun _ ↦ hrecord)
  · exact fun other hother ↦ (h.records other hother).mono hsub
  · exact fun cycle hcycle ↦ hsub (h.inFlight cycle hcycle)
  · intro thread hthread
    obtain ⟨key, hbegan, hkey⟩ := h.threads thread hthread
    exact ⟨key, hsub hbegan, hkey⟩

private theorem sound_invokeGraph (h : Sound config s) {key : CycleKey}
    (hbegan : .began key ∈ s.notes) : Sound config (s.invokeGraph key) := by
  refine ⟨h.rows, h.records, h.inFlight, ?_⟩
  intro thread hthread
  rcases List.mem_append.mp hthread with hthread | hthread
  · exact h.threads thread hthread
  · exact ⟨key, hbegan, List.mem_singleton.mp hthread⟩

private theorem began_snoc (key : CycleKey) : .began key ∈ s.notes ++ [.began key] :=
  List.mem_append_right _ (List.mem_singleton_self _)

private theorem effect_begin (h : Sound config s) (work : Option CycleWork) (now : UtcTime) :
    Sound config (s.begin config work now) ∧
      Effect config s (s.begin config work now) (some now) := by
  unfold begin
  split
  · next work hup =>
    split
    · exact ⟨h, .quiet _ rfl rfl⟩
    · have hbegan : .began (work.key config) ∈ s.notes ++ [.began (work.key config)] :=
        began_snoc _
      have hknown : Known config (s.notes ++ [.began (work.key config)]) (work.running config) :=
        ⟨rfl, rfl, hbegan⟩
      have hwritten : Sound config (s.writeRunning (work.running config) now) :=
        sound_write h hknown
      refine ⟨⟨hwritten.rows, hwritten.records, ?_, hwritten.threads⟩, ?_⟩
      · intro cycle hcycle
        rcases List.mem_append.mp hcycle with hcycle | hcycle
        · exact hwritten.inFlight cycle hcycle
        · rw [List.mem_singleton.mp hcycle]
          exact hbegan
      · exact .wrote (work.running config) now (.began (work.key config)) hknown rfl (.inl rfl)
          rfl rfl (fun _ ↦ rfl)
  · exact ⟨h, .quiet _ rfl rfl⟩

private theorem effect_invoke (h : Sound config s) (graphKind : GraphKind) :
    Sound config (s.invoke config graphKind) ∧
      Effect config s (s.invoke config graphKind) none := by
  unfold invoke
  split
  · exact ⟨h, .quiet _ rfl rfl⟩
  · next cycle hfind =>
    have hinvoked := sound_invokeGraph h (h.inFlight cycle (List.mem_of_find?_eq_some hfind))
    refine ⟨⟨hinvoked.rows, hinvoked.records, ?_, hinvoked.threads⟩, .quiet _ rfl rfl⟩
    intro other hother
    obtain ⟨old, hold, rfl⟩ := List.mem_map.mp hother
    have hbegan := h.inFlight old hold
    split
    · exact hbegan
    · exact hbegan

private theorem effect_finish (h : Sound config s) (graphKind : GraphKind) (outcome : CycleOutcome)
    (now : UtcTime) :
    Sound config (s.finish config graphKind outcome now) ∧
      Effect config s (s.finish config graphKind outcome now) (some now) := by
  unfold finish
  split
  · exact ⟨h, .quiet _ rfl rfl⟩
  · next cycle hfind =>
    have hleft : ∀ other ∈ s.inFlight.filter (fun cycle ↦ cycle.work.graphKind ≠ graphKind),
        .began (other.work.key config) ∈ s.notes :=
      fun other hother ↦ h.inFlight other (List.mem_filter.mp hother).1
    have hended : Sound config { s with
        inFlight := s.inFlight.filter (fun cycle ↦ cycle.work.graphKind ≠ graphKind) } :=
      ⟨h.rows, h.records, hleft, h.threads⟩
    cases outcome with
    | raised => exact ⟨hended, .quiet _ rfl rfl⟩
    | returned state =>
      simp only
      split
      · generalize (CycleOutcome.returned state).terminal graphKind = terminal
        have hknown : Known config (s.notes ++ [.returned (cycle.work.key config) terminal])
            (cycle.work.returned config terminal) :=
          ⟨rfl, rfl, List.mem_append_left _
            (h.inFlight cycle (List.mem_of_find?_eq_some hfind))⟩
        refine ⟨sound_write hended hknown, ?_⟩
        refine .wrote (cycle.work.returned config terminal) now
          (.returned (cycle.work.key config) terminal) hknown rfl ?_ rfl rfl ?_
        · cases terminal
          · exact .inl rfl
          · exact .inr rfl
        · intro queue
          cases terminal <;> rfl
      · exact ⟨h, .quiet _ rfl rfl⟩

private theorem effect_start (h : Sound config s) (reads : Bool) :
    Sound config (s.start config reads) ∧ Effect config s (s.start config reads) none := by
  unfold start
  split
  · refine ⟨⟨h.rows, ?_, h.inFlight, h.threads⟩, .quiet _ rfl rfl⟩
    intro record hrecord
    cases reads with
    | false => cases hrecord
    | true =>
      simp only [if_true, records_nextPhase] at hrecord
      obtain ⟨row, hrow, rfl, hunfinished⟩ := CognitiveCycleRegistry.mem_listResumable hrecord
      have hown : row.record.sessionId = config.sessionId :=
        of_decide_eq_true (Bool.and_eq_true_iff.mp hunfinished).1
      obtain ⟨hsession, hthread, hbegan⟩ := h.rows row hrow hown
      exact ⟨hsession, hthread, hbegan⟩
  · exact ⟨h, .quiet _ rfl rfl⟩

private theorem effect_resume (h : Sound config s) (writes : Bool) (now : UtcTime) :
    Sound config (s.resume writes now) ∧ Effect config s (s.resume writes now) (some now) := by
  unfold resume
  split
  · next record left hphase =>
    split
    · obtain ⟨hown, hthread, -⟩ := h.records record (by simp [hphase, RuntimePhase.records])
      have hknown : Known config (s.notes ++ [.began record.key]) record.resumed :=
        ⟨hown, hthread, began_snoc _⟩
      have hwritten : Sound config (s.writeRunning record.resumed now) := sound_write h hknown
      refine ⟨⟨hwritten.rows, ?_, hwritten.inFlight, hwritten.threads⟩, ?_⟩
      · intro other hother
        exact hwritten.records other (by rw [writeRunning_phase, hphase]; exact hother)
      · exact .wrote record.resumed now (.began record.key) hknown rfl (.inl rfl) rfl rfl
          (fun _ ↦ rfl)
    · exact ⟨⟨h.rows, (fun _ hrecord ↦ nomatch hrecord), h.inFlight, h.threads⟩,
        .quiet _ rfl rfl⟩
  · exact ⟨h, .quiet _ rfl rfl⟩

private theorem effect_invokeResumed (h : Sound config s) :
    Sound config s.invokeResumed ∧ Effect config s s.invokeResumed none := by
  unfold invokeResumed
  split
  · next record left hphase =>
    have hbegan := (h.records record (by simp [hphase, RuntimePhase.records])).began
    have hinvoked := sound_invokeGraph h hbegan
    refine ⟨⟨hinvoked.rows, ?_, hinvoked.inFlight, hinvoked.threads⟩, .quiet _ rfl rfl⟩
    intro other hother
    exact h.records other (by rw [hphase]; exact hother)
  · exact ⟨h, .quiet _ rfl rfl⟩

private theorem effect_endResumption (h : Sound config s) (outcome : CycleOutcome)
    (now : UtcTime) :
    Sound config (s.endResumption outcome now) ∧
      Effect config s (s.endResumption outcome now) (some now) := by
  unfold endResumption
  split
  · next record left hphase =>
    have hleft : ∀ other ∈ (nextPhase left).records, Known config s.notes other := by
      intro other hother
      rw [records_nextPhase] at hother
      exact h.records other (by simp [hphase, RuntimePhase.records, hother])
    have hended : Sound config { s with phase := nextPhase left } :=
      ⟨h.rows, hleft, h.inFlight, h.threads⟩
    cases outcome with
    | raised => exact ⟨hended, .quiet _ rfl rfl⟩
    | returned state =>
      obtain ⟨hown, hthread, hbegan⟩ :=
        h.records record (by simp [hphase, RuntimePhase.records])
      generalize (CycleOutcome.returned state).terminal record.graphKind = terminal
      have hknown : Known config (s.notes ++ [.returned record.key terminal])
          (record.recovered terminal) :=
        ⟨hown, hthread, List.mem_append_left _ hbegan⟩
      refine ⟨sound_write hended hknown, ?_⟩
      refine .wrote (record.recovered terminal) now (.returned record.key terminal) hknown rfl ?_
        rfl rfl ?_
      · cases terminal
        · exact .inl rfl
        · exact .inr rfl
      · intro queue
        cases terminal <;> rfl
  · exact ⟨h, .quiet _ rfl rfl⟩

/-- Every action keeps what is known, and does one of three things. -/
theorem effect_step (h : Sound config s) (a : CycleAction) :
    Sound config (s.step config a) ∧ Effect config s (s.step config a) a.time? := by
  cases a with
  | decision event workingEntry fresh now => exact effect_begin h _ now
  | position event now => exact effect_begin h _ now
  | invoke graphKind => exact effect_invoke h graphKind
  | finish graphKind outcome now => exact effect_finish h graphKind outcome now
  | die =>
    exact ⟨⟨h.rows, (fun _ hrecord ↦ nomatch hrecord), (fun _ hcycle ↦ nomatch hcycle),
      h.threads⟩, .quiet _ rfl rfl⟩
  | start reads => exact effect_start h reads
  | resume writes now => exact effect_resume h writes now
  | invokeResumed => exact effect_invokeResumed h
  | resumed outcome now => exact effect_endResumption h outcome now
  | other record now =>
    change Sound config (if record.sessionId = config.sessionId then s else s.write record now) ∧
      Effect config s (if record.sessionId = config.sessionId then s else s.write record now)
        (some now)
    by_cases hown : record.sessionId = config.sessionId
    · rw [if_pos hown]
      exact ⟨h, .quiet _ rfl rfl⟩
    · rw [if_neg hown]
      refine ⟨⟨known_upsert h.rows (fun h ↦ absurd h hown), h.records, h.inFlight, h.threads⟩, ?_⟩
      exact .other record now hown rfl rfl

/-! ### The table and the queue -/

/-- The table holds the queue of unfinished cycles, and no status of a cycle but two. -/
structure Refines (config : CycleConfig) (s : CycleRuntime) : Prop where
  sound : Sound config s
  queue : s.registry.unfinishedKeys config.sessionId = unfinishedCycles s.notes
  status : ∀ row ∈ s.registry.rows, row.record.sessionId = config.sessionId →
    row.record.status = .running ∨ row.record.status = .completed

private theorem refines_new : Refines config new where
  sound := ⟨(fun _ hrow ↦ nomatch hrow), (fun _ hrecord ↦ nomatch hrecord),
    (fun _ hcycle ↦ nomatch hcycle), (fun _ hthread ↦ nomatch hthread)⟩
  queue := rfl
  status := fun _ hrow ↦ nomatch hrow

private theorem leave_foreign {record : CognitiveCycleRecord}
    (hother : record.sessionId ≠ config.sessionId) :
    leave (s.registry.unfinishedKeys config.sessionId) record.key =
      s.registry.unfinishedKeys config.sessionId := by
  apply leave_of_notMem
  intro hmem
  obtain ⟨row, hrow, hkey⟩ := List.mem_map.mp hmem
  have hown : row.record.sessionId = config.sessionId :=
    of_decide_eq_true (Bool.and_eq_true_iff.mp (List.mem_filter.mp hrow).2).1
  exact hother ((congrArg CycleKey.sessionId hkey).symm.trans hown)

/-- Every action keeps the refinement. -/
theorem refines_step (h : Refines config s) (a : CycleAction) :
    Refines config (s.step config a) := by
  obtain ⟨hsound, heffect⟩ := effect_step h.sound a
  generalize a.time? = now at heffect
  refine ⟨hsound, ?_, ?_⟩
  · cases heffect with
    | quiet now hregistry hnotes => rw [hregistry, hnotes, h.queue]
    | other record now hother hregistry hnotes =>
      rw [hregistry, hnotes, CognitiveCycleRegistry.unfinishedKeys_upsert,
        if_neg (fun hboth ↦ hother hboth.1), leave_foreign hother, h.queue]
    | wrote record now note hknown hupdated hstatus hregistry hnotes hnote =>
      rw [hregistry, hnotes, unfinishedCycles_snoc, hnote,
        CognitiveCycleRegistry.unfinishedKeys_upsert, h.queue]
      simp only [hknown.own, true_and]
  · intro row hrow hown
    cases heffect with
    | quiet now hregistry hnotes => exact h.status row (hregistry ▸ hrow) hown
    | other record now hother hregistry hnotes =>
      rw [hregistry, CognitiveCycleRegistry.rows_upsert] at hrow
      rcases mem_upsert.mp hrow with rfl | ⟨hold, -⟩
      · exact absurd hown hother
      · exact h.status row hold hown
    | wrote record now note hknown hupdated hstatus hregistry hnotes hnote =>
      rw [hregistry, CognitiveCycleRegistry.rows_upsert] at hrow
      rcases mem_upsert.mp hrow with rfl | ⟨hold, -⟩
      · exact hstatus
      · exact h.status row hold hown

private theorem refines_run (xs : List CycleAction) :
    Refines config (run (step config) new xs) :=
  run_invariant (I := Refines config) (L := fun _ ↦ True) (fun _ a h _ ↦ refines_step h a) xs
    (fun _ _ ↦ trivial) refines_new

/-! ### The order of the times -/

/-- Of two rows of the session, the first was written before the second. -/
def WrittenBefore (config : CycleConfig) (a b : CycleRow) : Prop :=
  a.record.sessionId = config.sessionId → b.record.sessionId = config.sessionId →
    a.updatedAt < b.updatedAt

/-- The session's rows are in the order of their times, which are among the given ones. -/
structure Dated (config : CycleConfig) (rows : List CycleRow) (times : List UtcTime) : Prop where
  ordered : rows.Pairwise (WrittenBefore config)
  read : ∀ row ∈ rows, row.record.sessionId = config.sessionId →
    ∃ time ∈ times, row.updatedAt = time.text

private theorem dated_upsert {registry : CognitiveCycleRegistry} {times : List UtcTime}
    {record : CognitiveCycleRecord} {now : UtcTime} (h : Dated config registry.rows times)
    (hnow : ∀ time ∈ times, time.instant < now.instant)
    (hupdated : record.sessionId = config.sessionId → record.updatedAt = none) :
    Dated config (registry.upsert record now.text).rows (times ++ [now]) := by
  have htext (hown : record.sessionId = config.sessionId) :
      (CognitiveCycleRegistry.rowOf record now.text).updatedAt = now.text := by
    unfold CognitiveCycleRegistry.rowOf
    rw [hupdated hown]
  rw [CognitiveCycleRegistry.rows_upsert]
  refine ⟨pairwise_upsert h.ordered ?_, ?_⟩
  · intro old hold hownOld hown
    obtain ⟨time, htime, hread⟩ := h.read old hold hownOld
    rw [hread, htext hown, UtcTime.text_lt_iff]
    exact hnow time htime
  · intro row hrow hown
    rcases mem_upsert.mp hrow with rfl | ⟨hold, -⟩
    · exact ⟨now, List.mem_append_right _ (List.mem_singleton_self now), htext hown⟩
    · obtain ⟨time, htime, hread⟩ := h.read row hold hown
      exact ⟨time, List.mem_append_left _ htime, hread⟩

private theorem dated_run {xs : List CycleAction}
    (h : Increasing (xs.filterMap CycleAction.time?)) :
    Dated config (run (step config) new xs).registry.rows (xs.filterMap CycleAction.time?) := by
  induction xs using List.reverseRecOn with
  | nil => exact ⟨List.Pairwise.nil, fun _ hrow ↦ nomatch hrow⟩
  | append_singleton xs a ih =>
    rw [List.filterMap_append] at h ⊢
    obtain ⟨hbefore, -, hlater⟩ := List.pairwise_append.mp h
    have hdated := ih hbefore
    obtain ⟨-, heffect⟩ := effect_step (@refines_run config xs).sound a
    rw [run_snoc]
    cases htime : a.time? with
    | none =>
      have hnothing : [a].filterMap CycleAction.time? = [] := by simp [htime]
      rw [htime] at heffect
      rw [hnothing, List.append_nil]
      cases heffect with
      | quiet _ hregistry => rwa [hregistry]
    | some now =>
      have hone : [a].filterMap CycleAction.time? = [now] := by simp [htime]
      have hnow : ∀ time ∈ xs.filterMap CycleAction.time?, time.instant < now.instant := by
        intro time hmem
        exact hlater time hmem now (by rw [hone]; exact List.mem_singleton_self now)
      rw [htime] at heffect
      rw [hone]
      cases heffect with
      | quiet _ hregistry =>
        rw [hregistry]
        refine ⟨hdated.ordered, fun row hrow hown ↦ ?_⟩
        obtain ⟨time, hmem, hread⟩ := hdated.read row hrow hown
        exact ⟨time, List.mem_append_left _ hmem, hread⟩
      | other record _ hother hregistry =>
        rw [hregistry]
        exact dated_upsert hdated hnow (fun hown ↦ absurd hown hother)
      | wrote record _ note hknown hupdated hstatus hregistry =>
        rw [hregistry]
        exact dated_upsert hdated hnow (fun _ ↦ hupdated)

namespace Refines

/-- What is listed are the unfinished cycles. -/
theorem listResumable_perm (h : Refines config s) :
    ((s.registry.listResumable config.sessionId).map CognitiveCycleRecord.key).Perm
      (unfinishedCycles s.notes) := by
  rw [← h.queue]
  exact CognitiveCycleRegistry.listResumable_perm s.registry config.sessionId

private theorem nodup_listResumable (h : Refines config s) :
    ((s.registry.listResumable config.sessionId).map CognitiveCycleRecord.key).Nodup :=
  h.listResumable_perm.nodup_iff.mpr (nodup_unfinishedCycles _)

/-- A listed record is that of its row, is known, and runs. -/
theorem of_mem_listResumable (h : Refines config s) {record : CognitiveCycleRecord}
    (hrecord : record ∈ s.registry.listResumable config.sessionId) :
    s.registry.get record.key = some record ∧ Known config s.notes record ∧
      record.status = .running := by
  obtain ⟨row, hrow, rfl, hunfinished⟩ := CognitiveCycleRegistry.mem_listResumable hrecord
  obtain ⟨hown, hresumable⟩ := Bool.and_eq_true_iff.mp hunfinished
  obtain ⟨hsession, hthread, hbegan⟩ := h.sound.rows row hrow (of_decide_eq_true hown)
  refine ⟨CognitiveCycleRegistry.get_of_mem_rows hrow, ⟨hsession, hthread, hbegan⟩, ?_⟩
  rcases h.status row hrow (of_decide_eq_true hown) with hrunning | hcompleted
  · exact hrunning
  · rw [hcompleted] at hresumable
    cases hresumable

end Refines

/-- In every state of every run, the cycles that `list_resumable` lists are those that were written
as running and not brought to a terminal outcome since, each once, as running, and with its own
thread; every other cycle of the session is completed, and every thread that a graph was invoked on
is that of a cycle that was written as running before. With a clock that goes forward they are
listed in the order in which they were last written. -/
theorem resumable_eq_unfinished (config : CycleConfig) (xs : List CycleAction) :
    let s := run (step config) new xs
    let records := s.registry.listResumable config.sessionId
    (records.map CognitiveCycleRecord.key).Perm (unfinishedCycles s.notes) ∧
      (records.map CognitiveCycleRecord.key).Nodup ∧
      (∀ record ∈ records, record.status = .running ∧
        record.checkpointThreadId = threadOf record.key ∧ .began record.key ∈ s.notes) ∧
      (∀ thread ∈ s.threads, ∃ key, .began key ∈ s.notes ∧ thread = threadOf key) ∧
      (∀ row ∈ s.registry.rows, row.record.sessionId = config.sessionId →
        row.key ∉ unfinishedCycles s.notes → row.record.status = .completed) ∧
      (Increasing (xs.filterMap CycleAction.time?) →
        records.map CognitiveCycleRecord.key = unfinishedCycles s.notes) := by
  intro s records
  have hrefines : Refines config s := refines_run xs
  refine ⟨hrefines.listResumable_perm, hrefines.nodup_listResumable, ?_,
    hrefines.sound.threads, ?_, ?_⟩
  · intro record hrecord
    obtain ⟨-, hknown, hrunning⟩ := hrefines.of_mem_listResumable hrecord
    exact ⟨hrunning, hknown.thread, hknown.began⟩
  · intro row hrow hown hnot
    rcases hrefines.status row hrow hown with hrunning | hcompleted
    · refine absurd ?_ hnot
      rw [← hrefines.queue]
      apply List.mem_map_of_mem
      refine List.mem_filter.mpr ⟨hrow, ?_⟩
      unfold CognitiveCycleRegistry.unfinished
      rw [hrunning, decide_eq_true hown]
      rfl
    · exact hcompleted
  · intro hincreasing
    rw [← hrefines.queue]
    apply CognitiveCycleRegistry.listResumable_of_increasing
    have hordered := (@dated_run config _ hincreasing).ordered
    refine (hordered.sublist List.filter_sublist).imp_of_mem ?_
    intro a b ha hb hbefore
    have hown {row : CycleRow} (hrow : row ∈ s.registry.rows.filter
        (CognitiveCycleRegistry.unfinished config.sessionId)) :
        row.record.sessionId = config.sessionId :=
      of_decide_eq_true (Bool.and_eq_true_iff.mp (List.mem_filter.mp hrow).2).1
    exact hbefore (hown ha) (hown hb)

/-! ### A start -/

/-- An attempt to resume a cycle: how it ends, and the times of its two writes. -/
structure Attempt where
  outcome : CycleOutcome
  begun : UtcTime
  ended : UtcTime

/-- The steps of an attempt: the first write, the graph, and the second write. -/
def Attempt.actions (attempt : Attempt) : List CycleAction :=
  [.resume true attempt.begun, .invokeResumed, .resumed attempt.outcome attempt.ended]

/-- The attempts of a start, one for each cycle that it found. -/
def resumption (attempts : List Attempt) : List CycleAction := attempts.flatMap Attempt.actions

/-- What an attempt does to the queue of unfinished cycles. -/
def settle (queue : List CycleKey) (move : CycleKey × Bool) : List CycleKey :=
  if move.2 then leave queue move.1 else touch queue move.1

/-- A cycle that is resumed, and whether it is brought to a terminal outcome. -/
def moveOf (record : CognitiveCycleRecord) (attempt : Attempt) : CycleKey × Bool :=
  (record.key, attempt.outcome.terminal record.graphKind)

private theorem foldl_settle_all {moves : List (CycleKey × Bool)} {queue : List CycleKey}
    (hnodup : (moves.map Prod.fst).Nodup) (hall : ∀ key ∈ queue, key ∈ moves.map Prod.fst) :
    moves.foldl settle queue = (moves.filter (fun move ↦ !move.2)).map Prod.fst := by
  refine (foldl_leave_or_touch hnodup queue).trans ?_
  have hnone : queue.filter (fun key ↦ key ∉ moves.map Prod.fst) = [] := by
    rw [List.filter_eq_nil_iff]
    intro key hkey
    rw [decide_eq_true_eq, not_not]
    exact hall key hkey
  rw [hnone, List.nil_append]

/-- The identity of each cycle in the table. -/
def identities (s : CycleRuntime) (key : CycleKey) : Option CognitiveCycleRecord :=
  (s.registry.get key).map CognitiveCycleRecord.identity

private theorem identities_write {record : CognitiveCycleRecord} {now : UtcTime}
    (h : s.identities record.key = some record.identity) :
    (s.write record now).identities = s.identities := by
  funext key
  unfold identities write
  rw [CognitiveCycleRegistry.get_upsert]
  split
  · next hkey =>
    rw [← hkey]
    exact h.symm
  · rfl

private theorem attempt_step {record : CognitiveCycleRecord} {left : List CognitiveCycleRecord}
    (hphase : s.phase = nextPhase (record :: left))
    (hidentity : s.identities record.key = some record.identity) (attempt : Attempt) :
    let t := run (step config) s attempt.actions
    t.phase = nextPhase left ∧ t.threads = s.threads ++ [threadOf record.key] ∧
      unfinishedCycles t.notes = settle (unfinishedCycles s.notes) (moveOf record attempt) ∧
      t.identities = s.identities := by
  intro t
  have hinvoke : (s.resume true attempt.begun).invokeResumed =
      { (s.writeRunning record.resumed attempt.begun).invokeGraph record.key with
        phase := .resuming (some ⟨record, true⟩) left } := by
    unfold resume
    rw [hphase]
    rfl
  have hsame := @identities_write s record.resumed attempt.begun hidentity
  have hbegan : unfinishedCycles (s.notes ++ [.began record.key]) =
      touch (unfinishedCycles s.notes) record.key := unfinishedCycles_snoc _ _
  have ht : t = (s.resume true attempt.begun).invokeResumed.endResumption attempt.outcome
      attempt.ended := rfl
  rw [ht, hinvoke]
  unfold endResumption moveOf
  simp only
  cases attempt.outcome with
  | raised => exact ⟨rfl, rfl, hbegan, hsame⟩
  | returned state =>
    generalize (CycleOutcome.returned state).terminal record.graphKind = terminal
    refine ⟨rfl, rfl, ?_, ?_⟩
    · have hreturned : unfinishedCycles
          (s.notes ++ [.began record.key] ++ [.returned record.key terminal]) =
          CycleNote.tell (touch (unfinishedCycles s.notes) record.key)
            (.returned record.key terminal) := by
        rw [unfinishedCycles_snoc, hbegan]
      refine hreturned.trans ?_
      cases terminal with
      | true => exact leave_touch _ _
      | false => exact touch_touch _ _
    · have hkept : (s.write record.resumed attempt.begun).identities
          (record.recovered terminal).key = some (record.recovered terminal).identity := by
        rw [hsame]
        exact hidentity
      exact (@identities_write _ _ attempt.ended hkept).trans hsame

private theorem resumption_run {left : List CognitiveCycleRecord} {attempts : List Attempt}
    (hlength : attempts.length = left.length) (hphase : s.phase = nextPhase left)
    (hidentity : ∀ record ∈ left, s.identities record.key = some record.identity) :
    let t := run (step config) s (resumption attempts)
    t.phase = .up ∧ t.threads = s.threads ++ left.map (fun record ↦ threadOf record.key) ∧
      unfinishedCycles t.notes =
        (List.zipWith moveOf left attempts).foldl settle (unfinishedCycles s.notes) ∧
      t.identities = s.identities := by
  induction left generalizing s attempts with
  | nil =>
    obtain rfl := List.eq_nil_of_length_eq_zero hlength
    exact ⟨hphase, (List.append_nil _).symm, rfl, rfl⟩
  | cons record left ih =>
    obtain ⟨attempt, attempts, rfl⟩ := List.exists_cons_of_length_eq_add_one hlength
    obtain ⟨hnext, hthreads, hqueue, hsame⟩ := @attempt_step config _ _ _ hphase
      (hidentity record List.mem_cons_self) attempt
    have hrest := ih (s := run (step config) s attempt.actions)
      (Nat.succ.inj hlength) hnext (fun other hother ↦ by
        rw [hsame]
        exact hidentity other (List.mem_cons_of_mem _ hother))
    intro t
    have ht : t = run (step config) (run (step config) s attempt.actions)
        (resumption attempts) := by
      rw [← run_append]
      rfl
    rw [ht]
    obtain ⟨hup, hthreads', hqueue', hsame'⟩ := hrest
    refine ⟨hup, ?_, ?_, hsame'.trans hsame⟩
    · rw [hthreads', hthreads, List.append_assoc]
      rfl
    · rw [hqueue', hqueue]
      rfl

private theorem keys_moves {records : List CognitiveCycleRecord} {attempts : List Attempt}
    (hlength : attempts.length = records.length) :
    (List.zipWith moveOf records attempts).map Prod.fst =
      records.map CognitiveCycleRecord.key := by
  induction records generalizing attempts with
  | nil => rfl
  | cons record records ih =>
    obtain ⟨attempt, attempts, rfl⟩ := List.exists_cons_of_length_eq_add_one hlength
    rw [List.zipWith_cons_cons, List.map_cons, List.map_cons, ih (Nat.succ.inj hlength)]
    rfl

/-- A start after any run, crashes at any point included, whose every attempt is written: it goes
through the unfinished cycles, invokes a graph for each of them once, on the thread that its row
already had, which is the cycle's own, and then takes new work. The cycles that it brings to no
terminal outcome are the unfinished ones from then on, in that order; and whatever the outcomes, the
identity of no cycle changes. -/
theorem start_resumes_each_once (config : CycleConfig) (xs : List CycleAction)
    (attempts : List Attempt) :
    let s := run (step config) new xs
    let records := s.registry.listResumable config.sessionId
    let t := run (step config) s (.start true :: resumption attempts)
    s.phase = .down → attempts.length = records.length →
      (records.map CognitiveCycleRecord.key).Perm (unfinishedCycles s.notes) ∧
        t.threads = s.threads ++ records.map CognitiveCycleRecord.checkpointThreadId ∧
        (records.map CognitiveCycleRecord.checkpointThreadId).Nodup ∧
        (∀ record ∈ records, record.checkpointThreadId = threadOf record.key ∧
          .began record.key ∈ s.notes) ∧
        t.phase = .up ∧
        t.registry.unfinishedKeys config.sessionId =
          ((List.zipWith moveOf records attempts).filter (fun move ↦ !move.2)).map Prod.fst ∧
        t.identities = s.identities := by
  intro s records t hdown hlength
  have hrefines : Refines config s := refines_run xs
  have hperm : (records.map CognitiveCycleRecord.key).Perm (unfinishedCycles s.notes) :=
    hrefines.listResumable_perm
  have hnodup : (records.map CognitiveCycleRecord.key).Nodup := hrefines.nodup_listResumable
  have hknown : ∀ record ∈ records, Known config s.notes record :=
    fun record hrecord ↦ (hrefines.of_mem_listResumable hrecord).2.1
  have hthreads : records.map CognitiveCycleRecord.checkpointThreadId =
      (records.map CognitiveCycleRecord.key).map threadOf := by
    rw [List.map_map]
    exact List.map_congr_left (fun record hrecord ↦ (hknown record hrecord).thread)
  have hstart : s.step config (.start true) = { s with phase := nextPhase records } := by
    change s.start config true = _
    unfold start
    rw [hdown]
    rfl
  have hpass := @resumption_run config (s.step config (.start true)) _ _ hlength
    (by rw [hstart])
    (fun record hrecord ↦ by
      rw [hstart]
      exact congrArg (Option.map CognitiveCycleRecord.identity)
        (hrefines.of_mem_listResumable hrecord).1)
  obtain ⟨hup, hinvoked, hqueue, hsame⟩ := hpass
  have hthreads' : (s.step config (.start true)).threads = s.threads := by rw [hstart]
  have hnotes : (s.step config (.start true)).notes = s.notes := by rw [hstart]
  have hregistry : (s.step config (.start true)).identities = s.identities := by
    rw [hstart]
    rfl
  rw [hthreads'] at hinvoked
  rw [hnotes] at hqueue
  rw [hregistry] at hsame
  refine ⟨hperm, ?_, ?_, ?_, ?_, ?_, ?_⟩
  · rw [hthreads, List.map_map]
    exact hinvoked
  · rw [hthreads]
    refine (List.nodup_map_iff_inj_on hnodup).mpr ?_
    intro a ha b hb hab
    obtain ⟨record, hrecord, rfl⟩ := List.mem_map.mp ha
    obtain ⟨record', hrecord', rfl⟩ := List.mem_map.mp hb
    have hsession := (hknown record hrecord).own.trans (hknown record' hrecord').own.symm
    exact threadOf_inj hsession hab
  · exact fun record hrecord ↦ ⟨(hknown record hrecord).thread, (hknown record hrecord).began⟩
  · exact hup
  · have ht : Refines config t := by
      change Refines config (run (step config) (run (step config) new xs) _)
      rw [← run_append]
      exact refines_run _
    have hmoves := keys_moves hlength
    rw [ht.queue]
    refine hqueue.trans ?_
    apply foldl_settle_all
    · rw [hmoves]
      exact hnodup
    · intro key hkey
      rw [hmoves]
      exact hperm.mem_iff.mpr hkey
  · exact hsame

namespace Sample

/-- A session with position cycles, whose hashes are the names. -/
def session : CycleConfig := ⟨"s", true, id⟩

/-- An event of the position of a contract, at a snapshot. -/
def positionEvent : PositionEvent :=
  { eventId := "f"
    closed := false
    positionId := none
    activePositionId := none
    contractId := some "q"
    snapshotId := some "x"
    marketSnapshotId := none
    parentEntryCycleId := none
    cycleId := none
    originalStrategyId := none
    strategyId := none
    proposalId := none }

/-- A decision cycle is invoked for a snapshot, a position cycle is written, and the process dies
before its graph is invoked. -/
def interrupted : List CycleAction :=
  [.start true, .decision ⟨"e", some "x", none, none⟩ false "c" (UtcTime.sample 0),
    .invoke .decision, .position positionEvent (UtcTime.sample 1), .die]

/-- The decision cycle is resumed to its end. -/
def completedAttempt : Attempt :=
  { outcome := .returned (some ⟨[], [(some "persist_cycle", some "completed")], none, none⟩)
    begun := UtcTime.sample 2
    ended := UtcTime.sample 3 }

/-- The graph of the position cycle raises. -/
def raisedAttempt : Attempt := ⟨.raised, UtcTime.sample 4, UtcTime.sample 5⟩

/-- The key of the decision cycle. -/
def decisionKey : CycleKey := ⟨"s", .decision, "c"⟩

/-- The key of the position cycle. -/
def positionKey : CycleKey := ⟨"s", .position, "s:f:position_reassessment"⟩

end Sample

/-- A process dies after one cycle was invoked and another one only written: both are listed. -/
theorem resumable_eq_unfinished_interrupted :
    let s := run (step Sample.session) new Sample.interrupted
    (s.registry.listResumable "s").map CognitiveCycleRecord.key =
        [Sample.decisionKey, Sample.positionKey] ∧
      s.threads = [threadOf Sample.decisionKey] := by
  refine ⟨?_, rfl⟩
  have h := (resumable_eq_unfinished Sample.session Sample.interrupted).2.2.2.2.2 (by decide)
  exact h.trans (by decide)

/-- Of two cycles that are resumed the one that raises stays unfinished. -/
theorem start_resumes_each_once_interrupted :
    let t := run (step Sample.session) (run (step Sample.session) new Sample.interrupted)
      (.start true :: resumption [Sample.completedAttempt, Sample.raisedAttempt])
    t.threads = [threadOf Sample.decisionKey, threadOf Sample.decisionKey,
        threadOf Sample.positionKey] ∧
      t.registry.unfinishedKeys "s" = [Sample.positionKey] := by
  obtain ⟨-, hthreads, -, -, -, hleft, -⟩ := start_resumes_each_once Sample.session
    Sample.interrupted [Sample.completedAttempt, Sample.raisedAttempt] rfl (by decide)
  exact ⟨hthreads.trans (by decide), hleft.trans (by decide)⟩

end CycleRuntime
end Joker.Runtime
