import Mathlib.Algebra.BigOperators.Group.List.Basic
import Mathlib.Algebra.GroupWithZero.Nat
import Mathlib.Order.Bounds.Basic
import Mathlib.Tactic.Common

/-!
# Ticks and their summaries

Library `Base`. A tick has an identity, perhaps a price, and a volume. Ticks are summarised by
their total volume, their extreme prices and the identities of those with a price. A summary
grows by one tick at a time, and the summary of a tape combines the summaries of its groups.
-/

namespace Joker.Base

/-- What one observation adds to a summary. -/
structure Tick (I P : Type*) where
  id : I
  price : Option P
  volume : Nat
  deriving DecidableEq

/-- Volume, extreme prices and identities. -/
structure Summary (I P : Type*) where
  volume : Nat
  high : P
  low : P
  ids : List I
  deriving DecidableEq

variable {I P K B : Type*}

namespace Tick

/-- The total volume. -/
def totalVolume (ticks : List (Tick I P)) : Nat := (ticks.map volume).sum

/-- The prices. -/
def prices (ticks : List (Tick I P)) : Set P := {p | ∃ t ∈ ticks, t.price = some p}

/-- The identities of the ticks with a price. -/
def pricedIds (ticks : List (Tick I P)) : Set I := {i | ∃ t ∈ ticks, t.price.isSome ∧ t.id = i}

/-- No ticks have no volume. -/
@[simp] theorem totalVolume_nil : totalVolume ([] : List (Tick I P)) = 0 := rfl

/-- Volumes add up. -/
@[simp] theorem totalVolume_append (xs ys : List (Tick I P)) :
    totalVolume (xs ++ ys) = totalVolume xs + totalVolume ys := by
  simp [totalVolume]

/-- No ticks have no prices. -/
@[simp] theorem prices_nil : prices ([] : List (Tick I P)) = ∅ := by simp [prices]

/-- A priced tick adds its price. -/
theorem prices_snoc_some (ticks : List (Tick I P)) {t : Tick I P} {p : P}
    (h : t.price = some p) : prices (ticks ++ [t]) = insert p (prices ticks) := by
  ext x
  simp only [prices, List.mem_append, List.mem_singleton, Set.mem_ofPred_eq, Set.mem_insert_iff]
  constructor
  · rintro ⟨t', hmem | rfl, hprice⟩
    · exact Or.inr ⟨t', hmem, hprice⟩
    · exact Or.inl (Option.some.inj (hprice.symm.trans h))
  · rintro (rfl | ⟨t', hmem, hprice⟩)
    · exact ⟨t, Or.inr rfl, h⟩
    · exact ⟨t', Or.inl hmem, hprice⟩

/-- A tick without a price adds none. -/
theorem prices_snoc_none (ticks : List (Tick I P)) {t : Tick I P} (h : t.price = none) :
    prices (ticks ++ [t]) = prices ticks := by
  ext x
  simp only [prices, List.mem_append, List.mem_singleton, Set.mem_ofPred_eq]
  constructor
  · rintro ⟨t', hmem | rfl, hprice⟩
    · exact ⟨t', hmem, hprice⟩
    · rw [h] at hprice
      cases hprice
  · rintro ⟨t', hmem, hprice⟩
    exact ⟨t', Or.inl hmem, hprice⟩

private theorem mem_pricedIds_snoc (ticks : List (Tick I P)) (t : Tick I P) (i : I) :
    i ∈ pricedIds (ticks ++ [t]) ↔ i ∈ pricedIds ticks ∨ (t.price.isSome ∧ t.id = i) := by
  simp only [pricedIds, List.mem_append, List.mem_singleton, Set.mem_ofPred_eq]
  constructor
  · rintro ⟨t', hmem | rfl, h⟩
    · exact Or.inl ⟨t', hmem, h⟩
    · exact Or.inr h
  · rintro (⟨t', hmem, h⟩ | h)
    · exact ⟨t', Or.inl hmem, h⟩
    · exact ⟨t, Or.inr rfl, h⟩

/-- Some tick has a price exactly when some identity has one. -/
theorem prices_nonempty_iff (ticks : List (Tick I P)) :
    (prices ticks).Nonempty ↔ (pricedIds ticks).Nonempty := by
  constructor
  · rintro ⟨p, t, hmem, hprice⟩
    exact ⟨t.id, t, hmem, by rw [hprice]; rfl, rfl⟩
  · rintro ⟨i, t, hmem, hsome, -⟩
    obtain ⟨p, hprice⟩ := Option.isSome_iff_exists.mp hsome
    exact ⟨p, t, hmem, hprice⟩

/-! ### Tapes -/

/-- The ticks of a tape under the keys of a kind. -/
def within (tape : List (K × Tick I P)) (p : K → Prop) [DecidablePred p] : List (Tick I P) :=
  (tape.filter (fun e ↦ decide (p e.1))).map Prod.snd

/-- A tick is within a period exactly when the tape has it there. -/
theorem mem_within {tape : List (K × Tick I P)} {p : K → Prop} [DecidablePred p]
    {t : Tick I P} : t ∈ within tape p ↔ ∃ k, p k ∧ (k, t) ∈ tape := by
  unfold within
  constructor
  · intro h
    obtain ⟨⟨k, t'⟩, hmem, rfl⟩ := List.mem_map.mp h
    have hmem := List.mem_filter.mp hmem
    exact ⟨k, of_decide_eq_true hmem.2, hmem.1⟩
  · rintro ⟨k, hk, hmem⟩
    exact List.mem_map.mpr ⟨(k, t), List.mem_filter.mpr ⟨hmem, decide_eq_true hk⟩, rfl⟩

/-- The ticks of two tapes within a period are those of each. -/
theorem within_append (xs ys : List (K × Tick I P)) (p : K → Prop) [DecidablePred p] :
    within (xs ++ ys) p = within xs p ++ within ys p := by
  simp [within]

variable [DecidableEq K]

private theorem sum_indicator {keys : List K} (hnodup : keys.Nodup) {k : K} (hk : k ∈ keys)
    (v : Nat) : (keys.map (fun k' ↦ if k = k' then v else 0)).sum = v := by
  induction keys with
  | nil => cases hk
  | cons k' rest ih =>
    obtain ⟨habsent, hrest⟩ := List.nodup_cons.mp hnodup
    by_cases h : k = k'
    · subst h
      have hzero : ∀ x ∈ rest.map (fun k' ↦ if k = k' then v else 0), x = 0 := by
        intro x hx
        obtain ⟨k', hk', rfl⟩ := List.mem_map.mp hx
        exact if_neg (fun he : k = k' ↦ habsent (he ▸ hk'))
      rw [List.map_cons, List.sum_cons, if_pos rfl, List.sum_eq_zero hzero, Nat.add_zero]
    · rw [List.map_cons, List.sum_cons, if_neg h, Nat.zero_add]
      exact ih hrest ((List.mem_cons.mp hk).resolve_left h)

/-- The volume under the keys of a kind is the sum over those keys. -/
theorem totalVolume_within (tape : List (K × Tick I P)) (p : K → Prop) [DecidablePred p]
    {keys : List K} (hnodup : keys.Nodup) (hkeys : ∀ e ∈ tape, p e.1 → e.1 ∈ keys) :
    totalVolume (within tape p) =
      ((keys.filter (fun k ↦ decide (p k))).map
        (fun k ↦ totalVolume (within tape (fun k' ↦ k' = k)))).sum := by
  induction tape with
  | nil => simp [within]
  | cons e rest ih =>
    obtain ⟨k, t⟩ := e
    have hrest := ih (fun e he ↦ hkeys e (List.mem_cons_of_mem _ he))
    have hone : ∀ (q : K → Prop) [DecidablePred q],
        totalVolume (within ((k, t) :: rest) q) =
          (if q k then t.volume else 0) + totalVolume (within rest q) := by
      intro q _
      by_cases hq : q k <;> simp [within, totalVolume, hq]
    simp only [hone, List.sum_map_add, ← hrest]
    congr 1
    by_cases hp : p k
    · rw [if_pos hp]
      exact (sum_indicator (hnodup.filter _)
        (List.mem_filter.mpr ⟨hkeys (k, t) List.mem_cons_self hp, decide_eq_true hp⟩) _).symm
    · rw [if_neg hp]
      symm
      apply List.sum_eq_zero
      intro x hx
      obtain ⟨k', hk', rfl⟩ := List.mem_map.mp hx
      apply if_neg
      rintro rfl
      exact hp (of_decide_eq_true (List.mem_filter.mp hk').2)

end Tick

/-! ### Extremes of a union -/

/-- The greatest element of a union is the greatest of the parts' greatest elements. -/
theorem isGreatest_of_cover {ι α : Type*} [PartialOrder α] {S : Set α} {T : ι → Set α} {J : Set ι}
    {top : ι → α} (hcover : ∀ x, x ∈ S ↔ ∃ i ∈ J, x ∈ T i)
    (htop : ∀ i ∈ J, (T i).Nonempty → IsGreatest (T i) (top i)) {x : α} (hx : IsGreatest S x) :
    IsGreatest {y | ∃ i ∈ J, (T i).Nonempty ∧ top i = y} x := by
  constructor
  · obtain ⟨i, hi, hmem⟩ := (hcover x).mp hx.1
    have hgreatest := htop i hi ⟨x, hmem⟩
    refine ⟨i, hi, ⟨x, hmem⟩, ?_⟩
    apply le_antisymm
    · exact hx.2 ((hcover _).mpr ⟨i, hi, hgreatest.1⟩)
    · exact hgreatest.2 hmem
  · rintro y ⟨i, hi, hne, rfl⟩
    exact hx.2 ((hcover _).mpr ⟨i, hi, (htop i hi hne).1⟩)

/-- Dually for the least elements. -/
theorem isLeast_of_cover {ι α : Type*} [PartialOrder α] {S : Set α} {T : ι → Set α} {J : Set ι}
    {bottom : ι → α} (hcover : ∀ x, x ∈ S ↔ ∃ i ∈ J, x ∈ T i)
    (hbottom : ∀ i ∈ J, (T i).Nonempty → IsLeast (T i) (bottom i)) {x : α} (hx : IsLeast S x) :
    IsLeast {y | ∃ i ∈ J, (T i).Nonempty ∧ bottom i = y} x :=
  @isGreatest_of_cover ι αᵒᵈ _ S T J bottom hcover hbottom x hx

namespace Summary

open Tick

variable [LinearOrder P]

/-- A summary of some ticks. Without a price the extremes mean nothing. -/
structure Of (s : Summary I P) (ticks : List (Tick I P)) : Prop where
  volume : s.volume = totalVolume ticks
  ids : ∀ i, i ∈ s.ids ↔ i ∈ pricedIds ticks
  high : (prices ticks).Nonempty → IsGreatest (prices ticks) s.high
  low : (prices ticks).Nonempty → IsLeast (prices ticks) s.low

/-- A summary whose volume is the sum of the parts' volumes, whose identities are theirs, and
whose extremes are those of the parts that have a price. -/
structure Combines (s : Summary I P) (parts : List (Summary I P)) : Prop where
  volume : s.volume = (parts.map Summary.volume).sum
  ids : ∀ i, i ∈ s.ids ↔ ∃ part ∈ parts, i ∈ part.ids
  high : (∃ part ∈ parts, part.ids ≠ []) →
    IsGreatest {p | ∃ part ∈ parts, part.ids ≠ [] ∧ part.high = p} s.high
  low : (∃ part ∈ parts, part.ids ≠ []) →
    IsLeast {p | ∃ part ∈ parts, part.ids ≠ [] ∧ part.low = p} s.low

private theorem Of.ids_ne_nil_iff {s : Summary I P} {ticks : List (Tick I P)} (h : s.Of ticks) :
    s.ids ≠ [] ↔ (prices ticks).Nonempty := by
  rw [prices_nonempty_iff]
  constructor
  · intro hne
    obtain ⟨i, hi⟩ := List.exists_mem_of_ne_nil _ hne
    exact ⟨i, (h.ids i).mp hi⟩
  · rintro ⟨i, hi⟩
    exact List.ne_nil_of_mem ((h.ids i).mpr hi)

/-- A tick without a price adds its volume. -/
theorem Of.snoc_none {s : Summary I P} {ticks : List (Tick I P)} (h : s.Of ticks)
    {t : Tick I P} (ht : t.price = none) :
    Of { s with volume := s.volume + t.volume } (ticks ++ [t]) where
  volume := by
    rw [totalVolume_append, ← h.volume]
    simp [totalVolume]
  ids i := by
    rw [mem_pricedIds_snoc, ht]
    simpa using h.ids i
  high := by
    rw [prices_snoc_none ticks ht]
    exact h.high
  low := by
    rw [prices_snoc_none ticks ht]
    exact h.low

/-- The first tick with a price sets the extremes. -/
theorem Of.snoc_first {s : Summary I P} {ticks : List (Tick I P)} (h : s.Of ticks)
    (hfirst : ¬ (prices ticks).Nonempty) {t : Tick I P} {p : P} (ht : t.price = some p)
    {ids : List I} (hids : ∀ i, i ∈ ids ↔ i ∈ s.ids ∨ t.id = i) :
    Of ⟨s.volume + t.volume, p, p, ids⟩ (ticks ++ [t]) where
  volume := by
    rw [totalVolume_append, ← h.volume]
    simp [totalVolume]
  ids i := by
    rw [mem_pricedIds_snoc, ht, hids, h.ids]
    simp
  high _ := by
    rw [prices_snoc_some ticks ht, Set.not_nonempty_iff_eq_empty.mp hfirst]
    simp
  low _ := by
    rw [prices_snoc_some ticks ht, Set.not_nonempty_iff_eq_empty.mp hfirst]
    simp

/-- A further tick with a price moves the extremes. -/
theorem Of.snoc_some {s : Summary I P} {ticks : List (Tick I P)} (h : s.Of ticks)
    (hmore : (prices ticks).Nonempty) {t : Tick I P} {p : P} (ht : t.price = some p)
    {ids : List I} (hids : ∀ i, i ∈ ids ↔ i ∈ s.ids ∨ t.id = i) :
    Of ⟨s.volume + t.volume, max p s.high, min p s.low, ids⟩ (ticks ++ [t]) where
  volume := by
    rw [totalVolume_append, ← h.volume]
    simp [totalVolume]
  ids i := by
    rw [mem_pricedIds_snoc, ht, hids, h.ids]
    simp
  high _ := by
    rw [prices_snoc_some ticks ht]
    exact (h.high hmore).insert p
  low _ := by
    rw [prices_snoc_some ticks ht]
    exact (h.low hmore).insert p

variable [DecidableEq K]

section Cover

variable {tape : List (K × Tick I P)} {bars : List B} {key : B → K} {p : K → Prop}
  [DecidablePred p]

omit [LinearOrder P] [DecidableEq K] in
/-- The parts of a kind are the summaries of the bars whose keys are of it. -/
theorem mem_parts {summary : B → Summary I P} {part : Summary I P} :
    part ∈ (bars.filter (fun bar ↦ decide (p (key bar)))).map summary ↔
      ∃ bar ∈ bars, p (key bar) ∧ summary bar = part := by
  simp only [List.mem_map, List.mem_filter, decide_eq_true_eq, and_assoc]

omit [LinearOrder P] in
/-- Bars that have all keys of a kind cover its ticks. -/
theorem mem_within_cover (hkeys : ∀ e ∈ tape, p e.1 → e.1 ∈ bars.map key) (t : Tick I P) :
    t ∈ within tape p ↔
      ∃ bar ∈ bars, p (key bar) ∧ t ∈ within tape (fun k ↦ k = key bar) := by
  simp only [mem_within]
  constructor
  · rintro ⟨k, hk, hmem⟩
    obtain ⟨bar, hbar, rfl⟩ := List.mem_map.mp (hkeys (k, t) hmem hk)
    exact ⟨bar, hbar, hk, key bar, rfl, hmem⟩
  · rintro ⟨bar, -, hk, k, rfl, hmem⟩
    exact ⟨key bar, hk, hmem⟩

omit [LinearOrder P] in
/-- They cover its prices. -/
theorem prices_within_cover (hkeys : ∀ e ∈ tape, p e.1 → e.1 ∈ bars.map key) (x : P) :
    x ∈ prices (within tape p) ↔ ∃ bar ∈ {bar | bar ∈ bars ∧ p (key bar)},
      x ∈ prices (within tape (fun k ↦ k = key bar)) := by
  constructor
  · rintro ⟨t, hmem, hprice⟩
    obtain ⟨bar, hbar, hp, ht⟩ := (mem_within_cover hkeys t).mp hmem
    exact ⟨bar, ⟨hbar, hp⟩, t, ht, hprice⟩
  · rintro ⟨bar, ⟨hbar, hp⟩, t, ht, hprice⟩
    exact ⟨t, (mem_within_cover hkeys t).mpr ⟨bar, hbar, hp, ht⟩, hprice⟩

end Cover

/-- The summary of the ticks under the keys of a kind combines the summaries of those keys. -/
theorem Of.combines {tape : List (K × Tick I P)} {bars : List B} {key : B → K}
    {summary : B → Summary I P} (hnodup : (bars.map key).Nodup)
    (hbars : ∀ bar ∈ bars, (summary bar).Of (within tape (fun k ↦ k = key bar)))
    {p : K → Prop} [DecidablePred p]
    (hkeys : ∀ e ∈ tape, p e.1 → e.1 ∈ bars.map key)
    {s : Summary I P} (hs : s.Of (within tape p)) :
    s.Combines ((bars.filter (fun bar ↦ decide (p (key bar)))).map summary) := by
  have hprices := prices_within_cover hkeys
  have hpriced : (∃ part ∈ (bars.filter (fun bar ↦ decide (p (key bar)))).map summary,
      part.ids ≠ []) → (prices (within tape p)).Nonempty := by
    rintro ⟨part, hmem, hids⟩
    obtain ⟨bar, hbar, hp, rfl⟩ := mem_parts.mp hmem
    obtain ⟨x, hx⟩ := (hbars bar hbar).ids_ne_nil_iff.mp hids
    exact ⟨x, (hprices x).mpr ⟨bar, ⟨hbar, hp⟩, hx⟩⟩
  have hextremes (extreme : Summary I P → P) :
      {x | ∃ part ∈ (bars.filter (fun bar ↦ decide (p (key bar)))).map summary,
        part.ids ≠ [] ∧ extreme part = x} =
      {x | ∃ bar ∈ {bar | bar ∈ bars ∧ p (key bar)},
        (prices (within tape (fun k ↦ k = key bar))).Nonempty ∧ extreme (summary bar) = x} := by
    ext x
    constructor
    · rintro ⟨part, hmem, hids, rfl⟩
      obtain ⟨bar, hbar, hp, rfl⟩ := mem_parts.mp hmem
      exact ⟨bar, ⟨hbar, hp⟩, (hbars bar hbar).ids_ne_nil_iff.mp hids, rfl⟩
    · rintro ⟨bar, ⟨hbar, hp⟩, hne, rfl⟩
      exact ⟨summary bar, mem_parts.mpr ⟨bar, hbar, hp, rfl⟩,
        (hbars bar hbar).ids_ne_nil_iff.mpr hne, rfl⟩
  constructor
  · rw [hs.volume, totalVolume_within tape p hnodup hkeys, List.filter_map, List.map_map,
      List.map_map]
    congr 1
    apply List.map_congr_left
    intro bar hbar
    exact (hbars bar (List.mem_filter.mp hbar).1).volume.symm
  · intro i
    rw [hs.ids]
    constructor
    · rintro ⟨t, hmem, hsome, rfl⟩
      obtain ⟨bar, hbar, hp, ht⟩ := (mem_within_cover hkeys t).mp hmem
      exact ⟨summary bar, mem_parts.mpr ⟨bar, hbar, hp, rfl⟩,
        ((hbars bar hbar).ids _).mpr ⟨t, ht, hsome, rfl⟩⟩
    · rintro ⟨part, hmem, hi⟩
      obtain ⟨bar, hbar, hp, rfl⟩ := mem_parts.mp hmem
      obtain ⟨t, ht, hsome, rfl⟩ := ((hbars bar hbar).ids i).mp hi
      exact ⟨t, (mem_within_cover hkeys t).mpr ⟨bar, hbar, hp, ht⟩, hsome, rfl⟩
  · intro h
    rw [hextremes Summary.high]
    exact isGreatest_of_cover hprices (fun bar hbar ↦ (hbars bar hbar.1).high)
      (hs.high (hpriced h))
  · intro h
    rw [hextremes Summary.low]
    exact isLeast_of_cover hprices (fun bar hbar ↦ (hbars bar hbar.1).low) (hs.low (hpriced h))

end Summary
end Joker.Base
