import Mathlib.Data.List.Pairwise
import Joker.Base.DatetimeOrder
import Joker.Ledger.Store

/-!
# Replay order and time

Library `Ledger`. The queries sort by the text of the exchange timestamp. That is the order of
instants among timestamps of one offset. Timestamps of different offsets are sorted by their wall
clocks, so the instants are in order exactly when wall clocks that differ are apart by what their
offsets are, and equal ones that are not behind UTC have one offset.
-/

namespace Joker.Ledger

open Joker.Base

/-- Events in the order of their instants. -/
def Chronological (events : List LedgerEvent) : Prop :=
  events.Pairwise (fun a b ↦ a.exchangeTimestamp.instant ≤ b.exchangeTimestamp.instant)

instance (events : List LedgerEvent) : Decidable (Chronological events) :=
  inferInstanceAs (Decidable (events.Pairwise _))

/-- Every query for replay returns events in the order of their instants. -/
structure ReplaysInTime (c : Conn) : Prop where
  session : ∀ id, ∃ events, (getBySession id).exec c = (c, .ok events) ∧ Chronological events
  order : ∀ id, ∃ events, (getByOrder id).exec c = (c, .ok events) ∧ Chronological events
  contract : ∀ id, ∃ events, (getByContract id).exec c = (c, .ok events) ∧ Chronological events
  all : ∃ events, allEvents.exec c = (c, .ok events) ∧ Chronological events

/-- Two timestamps whose wall clocks tell which instant came first. -/
structure OffsetsAgree (a b : Datetime) : Prop where
  apart : a.wallClock < b.wallClock →
    (b.offset - a.offset) * 1000000 ≤ b.wallClock - a.wallClock
  together : a.wallClock = b.wallClock → a.offset = b.offset ∨ a.offset < 0 ∨ b.offset < 0

/-- Timestamps of one offset agree. -/
theorem offsetsAgree_of_eq {a b : Datetime} (h : a.offset = b.offset) : OffsetsAgree a b where
  apart hlt := by
    rw [h, sub_self, zero_mul]
    omega
  together _ := Or.inl h

/-! ### Two events -/

section Pair

variable {a b : LedgerEvent}

/-- Rows in order have their exchange timestamps in order, as texts. -/
theorem isoformat_le_of_rowLe (h : RowLe a b) :
    ¬ b.exchangeTimestamp.isoformat < a.exchangeTimestamp.isoformat := by
  intro hlt
  have hrow : sortKey b < sortKey a := List.cons_lt_cons_iff.mpr (Or.inl hlt)
  exact absurd hrow (not_lt.mpr h)

private theorem before_iff (ha : a.exchangeTimestamp.WellFormed)
    (hb : b.exchangeTimestamp.WellFormed) :
    a.exchangeTimestamp.isoformat < b.exchangeTimestamp.isoformat ↔
      a.exchangeTimestamp.wallClock < b.exchangeTimestamp.wallClock ∨
        a.exchangeTimestamp.wallClock = b.exchangeTimestamp.wallClock ∧
          Datetime.OffsetBefore a.exchangeTimestamp.offset b.exchangeTimestamp.offset :=
  Datetime.isoformat_lt_iff ha hb a.valid.1 b.valid.1

/-- Rows in order whose offsets agree have their instants in order. -/
theorem instant_le_of_agree (ha : a.exchangeTimestamp.WellFormed)
    (hb : b.exchangeTimestamp.WellFormed)
    (hagree : OffsetsAgree a.exchangeTimestamp b.exchangeTimestamp) (h : RowLe a b) :
    a.exchangeTimestamp.instant ≤ b.exchangeTimestamp.instant := by
  have hnot := isoformat_le_of_rowLe h
  rw [before_iff hb ha] at hnot
  obtain ⟨hwall, hoffset⟩ := not_or.mp hnot
  rw [Datetime.instant_eq, Datetime.instant_eq]
  rcases (not_lt.mp hwall).lt_or_eq with hlt | heq
  · have hapart := hagree.apart hlt
    omega
  · have htogether := hagree.together heq
    have hbefore : ¬ Datetime.OffsetBefore b.exchangeTimestamp.offset a.exchangeTimestamp.offset :=
      fun hb ↦ hoffset ⟨heq.symm, hb⟩
    unfold Datetime.OffsetBefore at hbefore
    omega

/-- Offsets agree where the events of either order come out in the order of their instants. -/
theorem agree_of_instant_le (ha : a.exchangeTimestamp.WellFormed)
    (hb : b.exchangeTimestamp.WellFormed)
    (h : a.exchangeTimestamp.isoformat < b.exchangeTimestamp.isoformat →
      a.exchangeTimestamp.instant ≤ b.exchangeTimestamp.instant)
    (h' : b.exchangeTimestamp.isoformat < a.exchangeTimestamp.isoformat →
      b.exchangeTimestamp.instant ≤ a.exchangeTimestamp.instant) :
    OffsetsAgree a.exchangeTimestamp b.exchangeTimestamp := by
  rw [before_iff ha hb, Datetime.instant_eq, Datetime.instant_eq] at h
  rw [before_iff hb ha, Datetime.instant_eq, Datetime.instant_eq] at h'
  constructor
  · intro hlt
    have hle := h (Or.inl hlt)
    omega
  · intro heq
    by_contra hnot
    obtain ⟨hne, hneg⟩ := not_or.mp hnot
    rcases lt_or_gt_of_ne hne with hlt | hgt
    · have hle := h (Or.inr ⟨heq, Or.inr (Or.inl (by omega))⟩)
      omega
    · have hle := h' (Or.inr ⟨heq.symm, Or.inr (Or.inl (by omega))⟩)
      omega

end Pair

/-! ### Queries -/

private theorem pairwise_query (p : LedgerEvent → Bool) (c : Conn) :
    (c.query p).Pairwise RowLe :=
  List.pairwise_insertionSort RowLe _

private theorem rel_or_rel_of_pairwise {α : Type} {R : α → α → Prop} {xs : List α}
    (h : xs.Pairwise R) {x y : α} (hx : x ∈ xs) (hy : y ∈ xs) (hne : x ≠ y) : R x y ∨ R y x := by
  have hsymm : Std.Symm (fun x y ↦ R x y ∨ R y x) := ⟨fun _ _ ↦ Or.symm⟩
  have heither : xs.Pairwise (fun x y ↦ R x y ∨ R y x) := h.imp Or.inl
  exact heither.forall hx hy hne

/-- A query of rows whose offsets agree is in the order of their instants. -/
theorem chronological_query {c : Conn}
    (hrows : ∀ e ∈ c.rows, e.exchangeTimestamp.WellFormed)
    (hagree : ∀ a ∈ c.rows, ∀ b ∈ c.rows, OffsetsAgree a.exchangeTimestamp b.exchangeTimestamp)
    (p : LedgerEvent → Bool) : Chronological (c.query p) := by
  refine (pairwise_query p c).imp_of_mem ?_
  intro a b ha hb hle
  have ha := (mem_query.mp ha).1
  have hb := (mem_query.mp hb).1
  exact instant_le_of_agree (hrows a ha) (hrows b hb) (hagree a ha b hb) hle

/-- Every replay is in the order of instants exactly when the offsets of all rows agree. -/
theorem replaysInTime_iff {c : Conn} (hrows : ∀ e ∈ c.rows, e.exchangeTimestamp.WellFormed) :
    ReplaysInTime c ↔
      ∀ a ∈ c.rows, ∀ b ∈ c.rows, OffsetsAgree a.exchangeTimestamp b.exchangeTimestamp := by
  constructor
  · intro h a ha b hb
    obtain ⟨events, hevents, htime⟩ := h.all
    have hquery : events = c.query (fun _ ↦ true) := by
      change (c, Except.ok (c.query (fun _ ↦ true))) = (c, Except.ok events) at hevents
      exact (Except.ok.inj (Prod.mk.inj hevents).2).symm
    subst hquery
    have hboth := (pairwise_query (fun _ ↦ true) c).and htime
    -- Of two rows whose texts differ, the smaller one is returned first.
    have hfirst (x y : LedgerEvent) (hx : x ∈ c.rows) (hy : y ∈ c.rows)
        (hlt : x.exchangeTimestamp.isoformat < y.exchangeTimestamp.isoformat) :
        x.exchangeTimestamp.instant ≤ y.exchangeTimestamp.instant := by
      have hne : x ≠ y := by
        rintro rfl
        exact lt_irrefl _ hlt
      rcases rel_or_rel_of_pairwise hboth (mem_query.mpr ⟨hx, rfl⟩) (mem_query.mpr ⟨hy, rfl⟩) hne
        with hxy | hyx
      · exact hxy.2
      · exact absurd hlt (isoformat_le_of_rowLe hyx.1)
    exact agree_of_instant_le (hrows a ha) (hrows b hb) (hfirst a b ha hb) (hfirst b a hb ha)
  · intro hagree
    have hquery := chronological_query hrows hagree
    exact
      { session := fun _ ↦ ⟨_, rfl, hquery _⟩
        order := fun _ ↦ ⟨_, rfl, hquery _⟩
        contract := fun _ ↦ ⟨_, rfl, hquery _⟩
        all := ⟨_, rfl, hquery _⟩ }

/-- Rows of one offset replay in the order of their instants. -/
theorem replaysInTime_of_one_offset {c : Conn}
    (hrows : ∀ e ∈ c.rows, e.exchangeTimestamp.WellFormed) {seconds : Int}
    (h : ∀ e ∈ c.rows, e.exchangeTimestamp.offset = seconds) : ReplaysInTime c := by
  apply (replaysInTime_iff hrows).mpr
  intro a ha b hb
  exact offsetsAgree_of_eq ((h a ha).trans (h b hb).symm)

/-- A fill at one wall clock and offset. -/
def filledAt (key : String) (hour minute : ℕ) (offset : ℤ) : EventFields :=
  { EventFields.sample .partialFill key .buy 1 (some 1) with
    exchangeTimestamp := ⟨2026, 11, 1, hour, minute, 0, 0, some offset⟩ }

/-- Half past one of a New York night, and ten past one after the clocks were put back. -/
def clocksPutBack : List LedgerEvent :=
  [⟨filledAt "e" 1 30 (-14400), by decide +kernel⟩, ⟨filledAt "f" 1 10 (-18000), by decide +kernel⟩]

private theorem wellFormed_clocksPutBack : ∀ e ∈ clocksPutBack, e.exchangeTimestamp.WellFormed := by
  intro e he
  rcases List.mem_cons.mp he with rfl | he
  · exact ⟨by decide +kernel, by decide +kernel, by decide +kernel⟩
  · rw [List.mem_singleton.mp he]
    exact ⟨by decide +kernel, by decide +kernel, by decide +kernel⟩

/-- The equivalence at the night the clocks were put back. -/
theorem replaysInTime_clocksPutBack :
    ReplaysInTime (.ofRows clocksPutBack) ↔ ∀ a ∈ clocksPutBack, ∀ b ∈ clocksPutBack,
      OffsetsAgree a.exchangeTimestamp b.exchangeTimestamp :=
  replaysInTime_iff (c := .ofRows clocksPutBack) wellFormed_clocksPutBack

/-- The later event is replayed first. -/
theorem not_replaysInTime_clocksPutBack :
    (∀ e ∈ clocksPutBack, e.exchangeTimestamp.WellFormed) ∧
      ¬ ReplaysInTime (.ofRows clocksPutBack) := by
  refine ⟨wellFormed_clocksPutBack, ?_⟩
  intro h
  obtain ⟨events, hevents, htime⟩ := h.all
  have hquery : events = (Conn.ofRows clocksPutBack).query (fun _ ↦ true) := by
    change (Conn.ofRows clocksPutBack, Except.ok ((Conn.ofRows clocksPutBack).query
      (fun _ ↦ true))) = (_, Except.ok events) at hevents
    exact (Except.ok.inj (Prod.mk.inj hevents).2).symm
  rw [hquery] at htime
  exact absurd htime (by decide +kernel)

end Joker.Ledger
