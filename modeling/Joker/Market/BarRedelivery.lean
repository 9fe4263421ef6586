import Mathlib.Data.Finset.Image
import Mathlib.Data.Finset.Dedup
import Mathlib.Order.Bounds.Lattice
import Mathlib.Data.Set.Finite.Lattice
import Joker.Market.BarTape

/-!
# Redelivered observations

Library `Market`. Two builders are alike when they differ in findings and in marks of lateness
and gaps only; calls keep builders alike, so they emit the same figures. Delivering an
observation again leaves the builder alike exactly when the memory of the cumulative volume is
the observation's own: the memory is written before the observation is recognised.
-/

namespace Joker.Market

open Joker.Base Joker.Broker Joker.Ledger

namespace BarBuilder

variable {tz : ExchangeTz} {b b' : BarBuilder} {a : Arrival} {tf : BarTimeframe}

/-- The figures of the open bars. -/
def openFigures (b : BarBuilder) : Dict BarKey OpenBar := b.opened.mapValues OpenBar.figures

/-- The same figures, memory and keys. -/
structure Alike (b b' : BarBuilder) : Prop where
  tolerance : b.lateToleranceSeconds = b'.lateToleranceSeconds
  opened : b.openFigures = b'.openFigures
  emitted : b.emitted = b'.emitted
  lastCumVol : b.lastCumVol = b'.lastCumVol
  closedBars : b.closedBars.map MarketBar.figures = b'.closedBars.map MarketBar.figures
  assignedObs : b.assignedObs = b'.assignedObs

private theorem Alike.refl (b : BarBuilder) : b.Alike b := ⟨rfl, rfl, rfl, rfl, rfl, rfl⟩

/-! ### Calls keep builders alike -/

private theorem figures_barAt (b : BarBuilder) (key : BarKey) :
    (b.barAt key).figures = (b.openFigures.get? key).getD (.new key) := by
  unfold barAt openFigures
  rw [Dict.get?_mapValues]
  cases b.opened.get? key <;> rfl

private theorem openFigures_barFor (h : b.Reaches tz a tf) :
    ∃ opened bar, b.barFor tz a tf = ({ b with opened := opened }, some bar) ∧
      opened.mapValues OpenBar.figures =
        b.openFigures.set (a.key tz tf) (b.barAt (a.key tz tf)).figures ∧
      bar.figures = (b.barAt (a.key tz tf)).figures := by
  obtain ⟨hemitted, hintime⟩ := h
  unfold barFor barAt openFigures
  simp only
  rw [if_neg hemitted, if_neg (by omega)]
  cases hget : b.opened.get? (a.key tz tf) with
  | some existing =>
    refine ⟨_, _, rfl, ?_, existing.figures_lateMark _⟩
    rw [Dict.mapValues_set, OpenBar.figures_lateMark]
    rfl
  | none =>
    refine ⟨_, _, rfl, ?_, OpenBar.figures_lateMark _ _⟩
    rw [Dict.mapValues_set, OpenBar.figures_lateMark, Dict.mapValues_mapItems]
    · rfl
    · intro k bar
      split <;> rfl

private theorem Alike.reaches_iff (h : b.Alike b') : b.Reaches tz a tf ↔ b'.Reaches tz a tf := by
  unfold Reaches BarBuilder.tolerance
  rw [h.emitted, h.tolerance]

private theorem Alike.applyIn (h : b.Alike b') (tz : ExchangeTz) (a : Arrival) (tf : BarTimeframe) :
    (b.applyIn tz a tf).Alike (b'.applyIn tz a tf) := by
  by_cases hreaches : b.Reaches tz a tf
  · obtain ⟨opened, bar, heq, hopened, hbar⟩ := openFigures_barFor hreaches
    obtain ⟨opened', bar', heq', hopened', hbar'⟩ :=
      openFigures_barFor (h.reaches_iff.mp hreaches)
    have hsame : bar.figures = bar'.figures := by
      rw [hbar, hbar', figures_barAt, figures_barAt, h.opened]
    have hfigures : opened.mapValues OpenBar.figures = opened'.mapValues OpenBar.figures := by
      rw [hopened, hopened', figures_barAt, figures_barAt, h.opened]
    unfold BarBuilder.applyIn
    rw [heq, heq']
    simp only
    rw [← h.assignedObs]
    split
    · exact ⟨h.tolerance, hfigures, h.emitted, h.lastCumVol, h.closedBars, rfl⟩
    · refine ⟨h.tolerance, ?_, h.emitted, h.lastCumVol, h.closedBars, rfl⟩
      unfold openFigures
      simp only
      rw [Dict.mapValues_set, Dict.mapValues_set, hfigures, OpenBar.figures_observe,
        OpenBar.figures_observe, hsame, OpenBar.key_eq_of_figures hsame]
  · obtain ⟨f, -, heq⟩ := applyIn_of_not_reaches hreaches
    obtain ⟨f', -, heq'⟩ := applyIn_of_not_reaches (fun hr ↦ hreaches (h.reaches_iff.mpr hr))
    rw [heq, heq']
    exact ⟨h.tolerance, h.opened, h.emitted, h.lastCumVol, h.closedBars, h.assignedObs⟩

private theorem Alike.resolveVolume (h : b.Alike b') (symbol : String)
    (cumulativeVolume tradeSize : Option Int) :
    (b.resolveVolume symbol cumulativeVolume tradeSize).1.Alike
        (b'.resolveVolume symbol cumulativeVolume tradeSize).1 ∧
      (b.resolveVolume symbol cumulativeVolume tradeSize).2 =
        (b'.resolveVolume symbol cumulativeVolume tradeSize).2 := by
  have hmemory : ∀ lastCumVol f f',
      ({ b with lastCumVol := lastCumVol, findings := f } : BarBuilder).Alike
        { b' with lastCumVol := lastCumVol, findings := f' } :=
    fun _ _ _ ↦ ⟨h.tolerance, h.opened, h.emitted, rfl, h.closedBars, h.assignedObs⟩
  unfold BarBuilder.resolveVolume
  simp only [← h.lastCumVol]
  cases cumulativeVolume with
  | none => exact ⟨h, rfl⟩
  | some cumulative =>
    cases b.lastCumVol.get? symbol with
    | none => exact ⟨hmemory _ _ _, rfl⟩
    | some prev =>
      simp only
      split
      · exact ⟨hmemory _ _ _, rfl⟩
      · exact ⟨hmemory _ _ _, rfl⟩

private theorem Alike.ingest (h : b.Alike b') (tz : ExchangeTz) (obs : Observed) (price : Option ℚ)
    (size : Option Int) : (b.ingest tz obs price size).Alike (b'.ingest tz obs price size) := by
  obtain ⟨halike, hvolume⟩ := h.resolveVolume obs.symbol obs.cumulativeVolume size
  unfold BarBuilder.ingest applyObservation
  simp only [hvolume]
  split
  · exact halike
  · exact (halike.applyIn tz _ _).applyIn tz _ _

private theorem Alike.closeOne (h : b.Alike b') (reference : Int) (ready ready' : List MarketBar)
    (key : BarKey) {bar bar' : OpenBar} (hbar : bar.figures = bar'.figures) :
    (closeOne reference (b, ready) (key, bar)).1.Alike
      (BarBuilder.closeOne reference (b', ready') (key, bar')).1 := by
  have hkey := OpenBar.key_eq_of_figures hbar
  have hend : bar.figures.endTime = bar'.figures.endTime := by rw [hbar]
  have herased : (b.opened.erase key).mapValues OpenBar.figures =
      (b'.opened.erase key).mapValues OpenBar.figures := by
    rw [Dict.mapValues_erase, Dict.mapValues_erase]
    exact congrArg (fun d ↦ Dict.erase d key) h.opened
  have htolerance : b.tolerance = b'.tolerance := by
    unfold BarBuilder.tolerance
    rw [h.tolerance]
  unfold BarBuilder.closeOne
  simp only [← hkey, ← h.emitted, ← htolerance, ← show bar.endTime = bar'.endTime from hend]
  by_cases hemitted : bar.key ∈ b.emitted
  · rw [if_pos hemitted, if_pos hemitted]
    exact ⟨h.tolerance, herased, rfl, h.lastCumVol, h.closedBars, h.assignedObs⟩
  · rw [if_neg hemitted, if_neg hemitted]
    by_cases hready : reference < bar.endTime + b.tolerance
    · rw [if_pos hready, if_pos hready]
      exact h
    · rw [if_neg hready, if_neg hready]
      refine ⟨h.tolerance, herased, rfl, h.lastCumVol, ?_, h.assignedObs⟩
      have hshown : bar.figures.shown = bar'.figures.shown := by rw [hbar]
      rw [List.map_append, List.map_append, h.closedBars, List.map_singleton,
        List.map_singleton, OpenBar.figures_finished, OpenBar.figures_finished,
        show bar.shown = bar'.shown from hshown]

private theorem Alike.foldl_closeOne (reference : Int) {entries entries' : List (BarKey × OpenBar)}
    (hentries : entries.map (fun e ↦ (e.1, e.2.figures)) =
      entries'.map (fun e ↦ (e.1, e.2.figures)))
    {b b' : BarBuilder} (h : b.Alike b') (ready ready' : List MarketBar) :
    (entries.foldl (BarBuilder.closeOne reference) (b, ready)).1.Alike
      (entries'.foldl (BarBuilder.closeOne reference) (b', ready')).1 := by
  induction entries generalizing entries' b b' ready ready' with
  | nil =>
    obtain rfl := List.map_eq_nil_iff.mp hentries.symm
    exact h
  | cons e rest ih =>
    obtain ⟨e', rest', rfl, he, hrest⟩ := List.map_eq_cons_iff.mp hentries.symm
    obtain ⟨key, bar⟩ := e
    obtain ⟨key', bar'⟩ := e'
    obtain ⟨rfl, hbar⟩ := Prod.mk.inj he
    exact ih hrest.symm (h.closeOne reference ready ready' key' hbar.symm) _ _

private theorem Alike.call (h : b.Alike b') (tz : ExchangeTz) (c : BarCall) :
    (b.call tz c).Alike (b'.call tz c) := by
  cases c with
  | quote obs => exact h.ingest tz _ _ _
  | trade obs => exact h.ingest tz obs.toObserved (some obs.price) (some obs.size)
  | underlying obs => exact h.ingest tz _ _ _
  | closeReadyBars now =>
    rw [call_closeReadyBars, call_closeReadyBars]
    split
    · exact Alike.foldl_closeOne _ (congrArg Dict.entries h.opened) h [] []
    · exact h

private theorem Alike.run (h : b.Alike b') (tz : ExchangeTz) (calls : List BarCall) :
    (Base.run (BarBuilder.call tz) b calls).Alike (Base.run (BarBuilder.call tz) b' calls) := by
  induction calls generalizing b b' with
  | nil => exact h
  | cons c rest ih => exact ih (h.call tz c)

/-- Builders that are alike show bars with the same figures. -/
theorem Alike.bars (h : b.Alike b') :
    b.bars.map MarketBar.figures = b'.bars.map MarketBar.figures := by
  have hopen : ∀ b : BarBuilder, b.openBars.map MarketBar.figures =
      (b.openFigures.values.mergeSort openBefore).map OpenBar.shown := by
    intro b
    have hsort := @List.map_mergeSort _ _ openBefore openBefore OpenBar.figures b.opened.values
      (fun _ _ _ _ ↦ rfl)
    unfold openBars openFigures
    rw [Dict.values_mapValues, List.map_map, ← hsort, List.map_map]
    rfl
  unfold BarBuilder.bars
  rw [List.map_append, List.map_append, h.closedBars, hopen, hopen, h.opened]

/-! ### An observation delivered again -/

/-- Should the observation reach its bar, it finds one and has its id assigned. -/
def Settled (tz : ExchangeTz) (b : BarBuilder) (a : Arrival) (tf : BarTimeframe) : Prop :=
  b.Reaches tz a tf →
    b.Present (a.key tz tf) ∧ (a.observationId, tf) ∈ b.assignedObs

private theorem settled_applyIn (hwf : b.Wellformed) (a : Arrival) (tf : BarTimeframe) :
    (b.applyIn tz a tf).Settled tz a tf := by
  intro hreaches
  have h := (reaches_applyIn hwf a tf).mp hreaches
  exact ⟨(present_applyIn hwf _).mpr (Or.inr ⟨h, rfl⟩),
    (mem_assignedObs_applyIn hwf _).mpr (Or.inr ⟨h, rfl⟩)⟩

private theorem Settled.applyIn (h : b.Settled tz a tf) (hwf : b.Wellformed) (a' : Arrival)
    (tf' : BarTimeframe) : (b.applyIn tz a' tf').Settled tz a tf := by
  intro hreaches
  obtain ⟨hpresent, hassigned⟩ := h ((reaches_applyIn hwf a tf).mp hreaches)
  exact ⟨(present_applyIn hwf _).mpr (Or.inl hpresent),
    (mem_assignedObs_applyIn hwf _).mpr (Or.inl hassigned)⟩

private theorem Settled.emit (h : b.Settled tz a tf) (hwf : b.Wellformed) {key : BarKey}
    {bar : OpenBar} (hget : b.opened.get? key = some bar) :
    (b.emit key bar).Settled tz a tf := by
  intro hreaches
  have hbefore : b.Reaches tz a tf :=
    ⟨fun hm ↦ hreaches.1 (Finset.mem_insert_of_mem hm), hreaches.2⟩
  obtain ⟨hpresent, hassigned⟩ := h hbefore
  exact ⟨(present_emit hwf hget _).mpr hpresent, hassigned⟩

private theorem settled_run (hwf : b.Wellformed) (h : b.Settled tz a tf) (calls : List BarCall) :
    (Base.run (call tz) b calls).Settled tz a tf :=
  (run_call_invariant (I := fun b ↦ b.Settled tz a tf) (fun _ _ _ h ↦ h)
    (fun _ a' tf' hwf h ↦ h.applyIn hwf a' tf') (fun _ _ _ hwf h hget ↦ h.emit hwf hget) hwf h
    calls).2

private theorem Settled.alike (h : b.Settled tz a tf) : (b.applyIn tz a tf).Alike b := by
  by_cases hreaches : b.Reaches tz a tf
  · obtain ⟨hpresent, hassigned⟩ := h hreaches
    obtain ⟨existing, hget⟩ :=
      Option.isSome_iff_exists.mp (hpresent.resolve_left hreaches.1)
    obtain ⟨opened, bar, heq, hopened, -⟩ := openFigures_barFor hreaches
    have hsame : opened.mapValues OpenBar.figures = b.openFigures := by
      rw [hopened]
      apply Dict.set_of_get?
      unfold openFigures barAt
      rw [Dict.get?_mapValues, hget]
      rfl
    unfold BarBuilder.applyIn
    rw [heq]
    simp only
    rw [if_pos hassigned]
    exact ⟨rfl, hsame, rfl, rfl, rfl, rfl⟩
  · obtain ⟨f, -, heq⟩ := applyIn_of_not_reaches hreaches
    rw [heq]
    exact ⟨rfl, rfl, rfl, rfl, rfl, rfl⟩

private theorem alike_applyObservation (hwf : b.Wellformed)
    (h : ¬ (a.price = none ∧ a.volume ≤ 0) → ∀ tf, b.Settled tz a tf) :
    (b.applyObservation tz a).Alike b := by
  unfold applyObservation
  split
  · exact Alike.refl b
  · next happlied =>
    have hfirst := (h happlied .m1).alike
    have hsecond := ((h happlied .m5).applyIn hwf a .m1).alike
    exact ⟨hsecond.tolerance.trans hfirst.tolerance, hsecond.opened.trans hfirst.opened,
      hsecond.emitted.trans hfirst.emitted, hsecond.lastCumVol.trans hfirst.lastCumVol,
      hsecond.closedBars.trans hfirst.closedBars, hsecond.assignedObs.trans hfirst.assignedObs⟩

private theorem settled_applyObservation (hwf : b.Wellformed)
    (happlied : ¬ (a.price = none ∧ a.volume ≤ 0)) (tf : BarTimeframe) :
    (b.applyObservation tz a).Settled tz a tf := by
  unfold applyObservation
  rw [if_neg happlied]
  cases tf with
  | m1 => exact (settled_applyIn hwf a .m1).applyIn (hwf.applyIn tz a .m1) a .m5
  | m5 => exact settled_applyIn (hwf.applyIn tz a .m1) a .m5

private theorem resolveVolume_of_remembered {symbol : String} {cumulative : Int}
    (h : b.lastCumVol.get? symbol = some cumulative) (size : Option Int) :
    b.resolveVolume symbol (some cumulative) size = (b, 0) := by
  unfold resolveVolume
  simp only [h, Dict.set_of_get? _ h, sub_self, le_refl, if_true]

private theorem resolveVolume_none (b : BarBuilder) (symbol : String) (size : Option Int) :
    b.resolveVolume symbol none size =
      (b, (size.filter (fun size ↦ decide (0 < size))).getD 0) := rfl

/-- Delivering an observation again changes no figure when it has no cumulative volume, or the
one remembered for its symbol. -/
theorem alike_of_remembered {pre : List BarCall} {c : BarCall} {obs : Observed}
    (hwf : b.Wellformed) (hc : c ∈ pre) (hobs : c.observed = some obs)
    (h : obs.cumulativeVolume = none ∨
      (Base.run (call tz) b pre).lastCumVol.get? obs.symbol = obs.cumulativeVolume) :
    ((Base.run (call tz) b pre).call tz c).Alike (Base.run (call tz) b pre) := by
  obtain ⟨price, size, hcall⟩ := call_of_observed hobs
  obtain ⟨before, after, rfl⟩ := List.append_of_mem hc
  have hwf₁ := wellformed_run tz hwf before
  have hwf₂ := wellformed_run tz hwf (before ++ c :: after)
  have hrun : Base.run (call tz) b (before ++ c :: after) =
      Base.run (call tz) ((Base.run (call tz) b before).ingest tz obs price size) after := by
    rw [run_append, run_cons, hcall]
  -- What the first delivery settled stays settled.
  have hsettled : ¬ (price = none ∧
      ((Base.run (call tz) b before).resolveVolume obs.symbol obs.cumulativeVolume size).2 ≤ 0) →
      ∀ volume tf, (Base.run (call tz) b (before ++ c :: after)).Settled tz
        (obs.arrival price volume) tf := by
    intro happlied volume tf
    obtain ⟨lastCumVol, findings, hfst⟩ := resolveVolume_fst (Base.run (call tz) b before)
      obs.symbol obs.cumulativeVolume size
    have hwf₃ : ((Base.run (call tz) b before).ingest tz obs price size).Wellformed := by
      rw [← hcall]
      exact wellformed_run tz hwf₁ [c]
    have hdone : ((Base.run (call tz) b before).ingest tz obs price size).Settled tz
        (obs.arrival price ((Base.run (call tz) b before).resolveVolume obs.symbol
          obs.cumulativeVolume size).2) tf := by
      unfold ingest
      simp only [hfst]
      exact settled_applyObservation (hwf₁.remember _ _) happlied tf
    rw [hrun]
    exact settled_run hwf₃ hdone after
  rw [hcall]
  generalize Base.run (call tz) b (before ++ c :: after) = now at *
  unfold ingest
  cases hcumulative : obs.cumulativeVolume with
  | none =>
    rw [hcumulative, resolveVolume_none] at hsettled
    rw [resolveVolume_none]
    exact alike_applyObservation hwf₂ (fun happlied tf ↦ hsettled happlied _ tf)
  | some cumulative =>
    rw [hcumulative] at h
    rw [resolveVolume_of_remembered (h.resolve_left (fun hn ↦ nomatch hn))]
    apply alike_applyObservation hwf₂
    intro happlied tf
    refine hsettled (fun hn ↦ happlied ?_) _ tf
    exact ⟨hn.1, le_refl _⟩

/-! ### A later observation tells the memories apart -/

/-- A bar of the key shows a volume. -/
def ShowsVolume (b : BarBuilder) (key : BarKey) (volume : Nat) : Prop :=
  ∃ bar ∈ b.bars, bar.key = key ∧ bar.volume = volume

private theorem showsVolume_congr
    (h : b.bars.map MarketBar.ohlcv = b'.bars.map MarketBar.ohlcv) {key : BarKey} {volume : Nat}
    (hb : b.ShowsVolume key volume) : b'.ShowsVolume key volume := by
  obtain ⟨bar, hbar, rfl, rfl⟩ := hb
  obtain ⟨bar', hbar', hsame⟩ := List.mem_map.mp (h ▸ List.mem_map_of_mem hbar)
  simp only [MarketBar.ohlcv, Prod.mk.injEq] at hsame
  exact ⟨bar', hbar', hsame.1, hsame.2.2.2.2.2⟩

private theorem showsVolume_iff (hwf : b.Wellformed) {key : BarKey} (hkey : key ∉ b.emitted)
    (volume : Nat) :
    b.ShowsVolume key volume ↔ ∃ bar, b.opened.get? key = some bar ∧ bar.volume = volume := by
  constructor
  · rintro ⟨bar, hbar, rfl, rfl⟩
    rcases List.mem_append.mp hbar with hbar | hbar
    · exact absurd ((hwf.emitted _).mpr (List.mem_map_of_mem hbar)) hkey
    · obtain ⟨key, found, hget, hshown, rfl⟩ := exists_of_mem_openBars hwf hbar
      have hvolume : bar.figures.volume = found.shown.volume := by rw [hshown]
      exact ⟨found, hget, hvolume.symm⟩
  · rintro ⟨found, hget, rfl⟩
    refine ⟨found.toMarketBar (some true), ?_, hwf.keyed key found hget, rfl⟩
    apply List.mem_append_right
    apply List.mem_map_of_mem
    exact List.mem_mergeSort.mpr ((Dict.mem_values_iff _ _).mpr ⟨key, hget⟩)

private theorem showsVolume_applyObservation (hwf : b.Wellformed) (hprice : a.price = none)
    (hnew : b.opened.get? (a.key tz .m1) = none) (hreaches : b.Reaches tz a .m1)
    (hid : (a.observationId, .m1) ∉ b.assignedObs) (volume : Nat) :
    (b.applyObservation tz a).ShowsVolume (a.key tz .m1) volume ↔
      0 < a.volume ∧ a.volume.toNat = volume := by
  have hwf₁ := hwf.applyIn tz a .m1
  have hother : a.key tz .m1 ≠ a.key tz .m5 := fun he ↦ nomatch congrArg BarKey.timeframe he
  unfold applyObservation
  split
  · next hnone =>
    rw [showsVolume_iff hwf hreaches.1, hnew]
    constructor
    · rintro ⟨bar, hbar, -⟩
      cases hbar
    · rintro ⟨hpos, -⟩
      exact absurd hnone.2 (by omega)
  · next happlied =>
    have hpos : 0 < a.volume := by
      by_contra hn
      exact happlied ⟨hprice, by omega⟩
    obtain ⟨opened, bar, heq, -, hget, hfigures⟩ := applyIn_of_reaches hwf.keyed hreaches
    have hvolume : bar.figures.volume = a.volume.toNat := by
      rw [hfigures, if_neg hid]
      unfold barAt
      rw [hnew]
      have hn : ¬ a.volume < 0 := by omega
      simp [OpenBar.observe, OpenBar.applyAnyPrice, OpenBar.addVolume, hprice, hpos, hn,
        OpenBar.figures, OpenBar.new]
    have hfirst : (b.applyIn tz a .m1).opened.get? (a.key tz .m1) = some bar := by
      rw [heq]
      exact hget
    have hsecond : ∃ bar', ((b.applyIn tz a .m1).applyIn tz a .m5).opened.get? (a.key tz .m1) =
        some bar' ∧ bar'.figures = bar.figures := by
      by_cases h₅ : (b.applyIn tz a .m1).Reaches tz a .m5
      · obtain ⟨opened', bar', heq', honly, -, -⟩ := applyIn_of_reaches hwf₁.keyed h₅
        have hsame := honly (a.key tz .m1) hother
        rw [hfirst, Option.map_some] at hsame
        rw [heq']
        exact Option.map_eq_some_iff.mp hsame
      · obtain ⟨f, -, heq'⟩ := applyIn_of_not_reaches h₅
        rw [heq']
        exact ⟨bar, hfirst, rfl⟩
    obtain ⟨bar', hget', hsame⟩ := hsecond
    have hemitted : a.key tz .m1 ∉ ((b.applyIn tz a .m1).applyIn tz a .m5).emitted :=
      ((reaches_applyIn hwf₁ a .m1).mpr ((reaches_applyIn hwf a .m1).mpr hreaches)).1
    have hvolume' : bar'.figures.volume = a.volume.toNat := by rw [hsame, hvolume]
    change ((b.applyIn tz a .m1).applyIn tz a .m5).ShowsVolume _ _ ↔ _
    rw [showsVolume_iff (hwf₁.applyIn tz a .m5) hemitted, hget']
    constructor
    · rintro ⟨found, hfound, rfl⟩
      cases hfound
      exact ⟨hpos, hvolume'.symm⟩
    · rintro ⟨-, rfl⟩
      exact ⟨bar', rfl, hvolume'⟩

/-- The rise that a memory makes of a cumulative volume above it. -/
def riseFrom (memory : Option Int) (cumulative : Int) : Int :=
  (memory.map (fun prev ↦ cumulative - prev)).getD 0

private theorem resolveVolume_above {symbol : String} {cumulative : Int}
    (h : ∀ prev ∈ b.lastCumVol.get? symbol, prev ≤ cumulative) :
    b.resolveVolume symbol (some cumulative) none =
      ({ b with lastCumVol := b.lastCumVol.set symbol cumulative },
        riseFrom (b.lastCumVol.get? symbol) cumulative) := by
  unfold resolveVolume riseFrom
  simp only
  cases hget : b.lastCumVol.get? symbol with
  | none => rfl
  | some prev =>
    have hle := h prev hget
    simp only [Option.map_some, Option.getD_some]
    rw [if_pos (by omega)]

/-- A quote without prices for an interval that has no bar yet. -/
structure Fresh (tz : ExchangeTz) (b : BarBuilder) (q : QuoteObservation) : Prop where
  unopened : b.opened.get? ((q.arrival none 0).key tz .m1) = none
  reaches : b.Reaches tz (q.arrival none 0) .m1
  unassigned : (q.observationId, .m1) ∉ b.assignedObs

private theorem showsVolume_quote (hwf : b.Wellformed) {q : QuoteObservation} {cumulative : Int}
    (hprice : quotePrice q.bid q.ask q.last = none)
    (hcumulative : q.cumulativeVolume = some cumulative)
    (habove : ∀ prev ∈ b.lastCumVol.get? q.symbol, prev ≤ cumulative) (hfresh : Fresh tz b q)
    (volume : Nat) :
    (b.call tz (.quote q)).ShowsVolume ((q.arrival none 0).key tz .m1) volume ↔
      0 < riseFrom (b.lastCumVol.get? q.symbol) cumulative ∧
        (riseFrom (b.lastCumVol.get? q.symbol) cumulative).toNat = volume := by
  simp only [call, ingestQuote, ingest, hprice, hcumulative, resolveVolume_above habove]
  exact @showsVolume_applyObservation tz
    { b with lastCumVol := b.lastCumVol.set q.symbol cumulative }
    (q.arrival none (riseFrom (b.lastCumVol.get? q.symbol) cumulative))
    (hwf.remember _ b.findings) rfl hfresh.unopened hfresh.reaches hfresh.unassigned volume

private theorem exists_start_bound (b : BarBuilder) :
    ∃ n : Int, (∀ k ∈ b.emitted, k.start ≤ n) ∧
      ∀ k, ∀ bar ∈ b.opened.get? k, k.start ≤ n := by
  obtain ⟨n, hn⟩ := ((b.emitted ∪ b.opened.keys.toFinset).image BarKey.start).bddAbove
  refine ⟨n, ?_, ?_⟩
  · intro k hk
    exact hn (Finset.mem_coe.mpr (Finset.mem_image_of_mem _ (Finset.mem_union_left _ hk)))
  · intro k bar hbar
    refine hn (Finset.mem_coe.mpr (Finset.mem_image_of_mem _ (Finset.mem_union_right _ ?_)))
    exact List.mem_toFinset.mpr ((Dict.mem_keys_iff _ _).mpr ⟨bar, hbar⟩)

private theorem fresh_of_bound {n : Int} (hemitted : ∀ k ∈ b.emitted, k.start ≤ n)
    (hopened : ∀ k, ∀ bar ∈ b.opened.get? k, k.start ≤ n) {q : QuoteObservation}
    (hstart : n < ((q.arrival none 0).key tz .m1).start)
    (hreceived : q.receivedTimestamp.wall tz - b.tolerance ≤
      ((q.arrival none 0).key tz .m1).start)
    (hid : (q.observationId, .m1) ∉ b.assignedObs) : Fresh tz b q := by
  refine ⟨?_, ⟨?_, ?_⟩, hid⟩
  · by_contra hn
    obtain ⟨bar, hget⟩ := Option.ne_none_iff_exists'.mp hn
    have hle := hopened _ bar hget
    omega
  · intro hm
    have hle := hemitted _ hm
    omega
  · have hpos := BarTimeframe.length_pos .m1
    have hend : intervalEnd ((q.arrival none 0).key tz .m1).start .m1 =
      ((q.arrival none 0).key tz .m1).start + BarTimeframe.m1.length := rfl
    have hsame : (q.arrival none 0).receivedTimestamp = q.receivedTimestamp := rfl
    rw [hend, hsame]
    omega

private theorem exists_fresh (hzone : ∀ w : Int, ∃ t : AwareDatetime, w ≤ t.wall tz)
    (b b' : BarBuilder) (symbol : String) (received : AwareDatetime) (cumulative : Int) :
    ∃ q : QuoteObservation, q.symbol = symbol ∧ q.cumulativeVolume = some cumulative ∧
      quotePrice q.bid q.ask q.last = none ∧ Fresh tz b q ∧ Fresh tz b' q := by
  obtain ⟨n, hemitted, hopened⟩ := exists_start_bound b
  obtain ⟨n', hemitted', hopened'⟩ := exists_start_bound b'
  obtain ⟨id, hid⟩ := Infinite.exists_notMem_finset
    ((b.assignedObs ∪ b'.assignedObs).image Prod.fst)
  obtain ⟨t, ht⟩ := hzone (max (max n n') (max (received.wall tz - b.tolerance)
    (received.wall tz - b'.tolerance)) + BarTimeframe.m1.length)
  have hfloor := ((floorWall_eq_iff (length_dvd_floorWall (t.wall tz) .m1)).mp rfl).2
  unfold intervalEnd at hfloor
  have hunassigned : ∀ x ∈ b.assignedObs ∪ b'.assignedObs, x.1 ≠ id := by
    rintro x hx rfl
    exact hid (Finset.mem_image_of_mem _ hx)
  let q : QuoteObservation :=
    { observationId := id
      symbol := symbol
      sourceTimestamp := t
      receivedTimestamp := received
      cumulativeVolume := some cumulative
      bid := none
      ask := none
      last := none }
  have hstart : ((q.arrival none 0).key tz .m1).start = floorWall (t.wall tz) .m1 := rfl
  refine ⟨q, rfl, rfl, rfl, fresh_of_bound hemitted hopened ?_ ?_ ?_,
    fresh_of_bound hemitted' hopened' ?_ ?_ ?_⟩
  · rw [hstart]
    omega
  · rw [hstart]
    change received.wall tz - _ ≤ _
    omega
  · exact fun hm ↦ hunassigned _ (Finset.mem_union_left _ hm) rfl
  · rw [hstart]
    omega
  · rw [hstart]
    change received.wall tz - _ ≤ _
    omega
  · exact fun hm ↦ hunassigned _ (Finset.mem_union_right _ hm) rfl

/-- Redelivery is a no-op for bars: whatever follows, they are the same with and without it. -/
def NoOp (tz : ExchangeTz) (b : BarBuilder) (c : BarCall) : Prop :=
  ∀ rest, (Base.run (call tz) b rest).bars.map MarketBar.ohlcv =
    (Base.run (call tz) b (c :: rest)).bars.map MarketBar.ohlcv

private theorem remembered_of_noOp (hzone : ∀ w : Int, ∃ t : AwareDatetime, w ≤ t.wall tz)
    (hwf : b.Wellformed) {c : BarCall} {obs : Observed} (hobs : c.observed = some obs)
    (hnoOp : NoOp tz b c) :
    obs.cumulativeVolume = none ∨ b.lastCumVol.get? obs.symbol = obs.cumulativeVolume := by
  cases hcumulative : obs.cumulativeVolume with
  | none => exact Or.inl rfl
  | some cumulative =>
    right
    obtain ⟨price, size, hcall⟩ := call_of_observed hobs
    have hmemory : (b.call tz c).lastCumVol.get? obs.symbol = some cumulative := by
      rw [hcall, lastCumVol_ingest, hcumulative]
      exact Dict.get?_set_self _ _ _
    obtain ⟨q, hsymbol, hnext, hprice, hfresh, hfresh'⟩ := exists_fresh hzone b (b.call tz c)
      obs.symbol obs.receivedTimestamp
      (max ((b.lastCumVol.get? obs.symbol).getD cumulative) cumulative + 1)
    generalize hmax : max ((b.lastCumVol.get? obs.symbol).getD cumulative) cumulative + 1 = next
      at hnext
    have hwithout := showsVolume_quote hwf hprice hnext (by
      intro prev hprev
      rw [Option.mem_def, hsymbol] at hprev
      rw [hprev, Option.getD_some] at hmax
      omega) hfresh (next - cumulative).toNat
    have hwith := showsVolume_quote (wellformed_run tz hwf [c]) hprice hnext (by
      intro prev hprev
      change prev ∈ (b.call tz c).lastCumVol.get? q.symbol at hprev
      rw [Option.mem_def, hsymbol, hmemory] at hprev
      cases hprev
      omega) hfresh' (next - cumulative).toNat
    -- The rise after the redelivery shows in the bar with it, hence without it.
    change ((b.call tz c).call tz (.quote q)).ShowsVolume _ _ ↔
      0 < riseFrom ((b.call tz c).lastCumVol.get? q.symbol) next ∧
        (riseFrom ((b.call tz c).lastCumVol.get? q.symbol) next).toNat = _ at hwith
    rw [hsymbol, hmemory] at hwith
    have hshown := hwith.mpr ⟨by
      change 0 < next - cumulative
      omega, rfl⟩
    obtain ⟨hpos, hrise⟩ := hwithout.mp (showsVolume_congr (hnoOp [.quote q]).symm hshown)
    rw [hsymbol] at hpos hrise
    cases hget : b.lastCumVol.get? obs.symbol with
    | none =>
      rw [hget] at hpos
      exact absurd hpos (lt_irrefl 0)
    | some prev =>
      rw [hget] at hpos hrise
      change 0 < next - prev at hpos
      change (next - prev).toNat = _ at hrise
      rw [show prev = cumulative by omega]

/-- Delivering an observation of the run again is a no-op, whatever follows, exactly when it has
no cumulative volume or the one that is remembered for its symbol. -/
theorem redelivery_noOp_iff (tz : ExchangeTz)
    (hzone : ∀ w : Int, ∃ t : AwareDatetime, w ≤ t.wall tz) (lateToleranceSeconds : Int)
    (pre : List BarCall) (c : BarCall) (obs : Observed) (hc : c ∈ pre)
    (hobs : c.observed = some obs) :
    NoOp tz (Base.run (call tz) (new lateToleranceSeconds) pre) c ↔
      obs.cumulativeVolume = none ∨
        (Base.run (call tz) (new lateToleranceSeconds) pre).lastCumVol.get? obs.symbol =
          obs.cumulativeVolume := by
  have hwf := wellformed_new lateToleranceSeconds
  constructor
  · exact remembered_of_noOp hzone (wellformed_run tz hwf pre) hobs
  · intro h rest
    have halike := (alike_of_remembered hwf hc hobs h).run tz rest
    have hbars := halike.bars
    have hohlcv := congrArg (List.map MarketBar.ohlcv) hbars
    rw [List.map_map, List.map_map] at hohlcv
    exact hohlcv.symm

/-- A time of one day by its hour. -/
def hourOfDay (hour : Nat) : AwareDatetime :=
  ⟨⟨2026, 7, 1, hour, 0, 0, 0, some (-14400)⟩, rfl⟩

private theorem le_wall_hourOfDay (hour : Nat) :
    (hour : Int) ≤ (hourOfDay hour).wall .sample := by
  rw [AwareDatetime.wall_sample]
  unfold hourOfDay Datetime.instant oneMinute
  simp only
  generalize (Date.mk 2026 7 1).toordinal = day
  push_cast
  simp only [Option.getD_some]
  omega

/-- Time goes on in the sample zone. -/
theorem sample_unbounded (w : Int) : ∃ t : AwareDatetime, w ≤ t.wall .sample :=
  ⟨hourOfDay w.toNat, (Int.self_le_toNat w).trans (le_wall_hourOfDay w.toNat)⟩

/-- Two quotes whose cumulative volume rises, and a third after them. -/
def risingQuotes : List BarCall :=
  [.quote (.sample "a" (.sample 0 5) (.sample 0 5) 1000),
    .quote (.sample "b" (.sample 0 10) (.sample 0 10) 1100)]

/-- The condition for the last of two quotes. -/
theorem redelivery_noOp_lastQuote :
    NoOp .sample (Base.run (call .sample) (new 2) risingQuotes)
      (.quote (.sample "b" (.sample 0 10) (.sample 0 10) 1100)) := by
  apply (redelivery_noOp_iff .sample sample_unbounded 2 risingQuotes
    (.quote (.sample "b" (.sample 0 10) (.sample 0 10) 1100))
    (QuoteObservation.sample "b" (.sample 0 10) (.sample 0 10) 1100).toObserved
    (by decide +kernel) rfl).mpr
  right
  decide +kernel

/-- The one-minute bar of the quotes. -/
def risingKey : BarKey := ⟨"SPY", .m1, floorToInterval .sample (.sample 0 5) .m1⟩

private theorem risingVolume_iff (calls : List BarCall)
    (hkey : risingKey ∉ (Base.run (call .sample) (new 2) calls).emitted) (volume : Nat) :
    (Base.run (call .sample) (new 2) calls).ShowsVolume risingKey volume ↔
      ((Base.run (call .sample) (new 2) calls).opened.get? risingKey).map OpenBar.volume =
        some volume := by
  rw [showsVolume_iff (wellformed_run _ (wellformed_new 2) calls) hkey,
    Option.map_eq_some_iff]

/-- Delivering the first of two quotes again makes the next one count volume twice. -/
theorem not_redelivery_noOp_risingQuotes :
    ¬ ∀ c ∈ risingQuotes, NoOp .sample (Base.run (call .sample) (new 2) risingQuotes) c := by
  intro h
  have hsame := h (.quote (.sample "a" (.sample 0 5) (.sample 0 5) 1000)) List.mem_cons_self
    [.quote (.sample "c" (.sample 0 15) (.sample 0 15) 1200)]
  rw [← run_append, ← run_append] at hsame
  have hwith := (risingVolume_iff (risingQuotes ++
    [.quote (.sample "a" (.sample 0 5) (.sample 0 5) 1000),
      .quote (.sample "c" (.sample 0 15) (.sample 0 15) 1200)])
    (by decide +kernel) 300).mpr (by decide +kernel)
  have hwithout := showsVolume_congr hsame.symm hwith
  rw [risingVolume_iff _ (by decide +kernel)] at hwithout
  revert hwithout
  decide +kernel

end BarBuilder
end Joker.Market
