import Joker.Market.LiquidityScore

/-!
# Faithful surface rows

Library `Market`. A field of an accepted row is read from one of the values under its names: the
first true one, else the last. So a value that is no number hides the numbers behind it, and a zero
is lost to a later name. Rows that keep their numbers are told by this alone; among them a lowered
size or volume raises the score only by leaving the score's range.
-/

namespace Joker.Market

open Joker.Base Joker.Broker
open Joker.Runtime (pyInt pyInt_intCast)

/-! ### What a row provides -/

/-- The number a raw value stands for; a boolean is the number that Python takes it for. -/
def numberOf (reader : NumberReader) : RawValue → Option ℚ
  | .number value => some value
  | .bool value => some (if value then 1 else 0)
  | .text s =>
    if s = "" then none
    else
      match reader.decimal s with
      | some (.finite value) => some value
      | _ => none
  | _ => none

/-- The numbers a row provides under the names of a field. -/
def QuotedRow.provided (reader : NumberReader) (row : QuotedRow) (field : NumericField) : List ℚ :=
  (row.values field).filterMap (numberOf reader)

/-- The first true value of a list, else its last one. -/
def chosen (values : List RawValue) : RawValue :=
  ((values.find? RawValue.truthy).or values.getLast?).getD .missing

/-- An `or` chain gives the first true value, else the last one. -/
theorem orChain_eq (values : List RawValue) : orChain values = chosen values := by
  induction values with
  | nil => rfl
  | cons value rest ih =>
    cases rest with
    | nil => cases h : value.truthy <;> simp [orChain, chosen, h]
    | cons next rest =>
      cases h : value.truthy with
      | true => simp [orChain, chosen, h]
      | false =>
        simp only [orChain, h, Bool.false_eq_true, if_false, ih]
        simp [chosen, h]

/-- The chosen value is one of the values. -/
theorem chosen_mem {values : List RawValue} (h : values ≠ []) : chosen values ∈ values := by
  unfold chosen
  cases hfind : values.find? RawValue.truthy with
  | some value => simpa using List.mem_of_find?_eq_some hfind
  | none =>
    rw [Option.none_or, List.getLast?_eq_some_getLast h]
    exact List.getLast_mem h

/-! ### Fields -/

/-- The conversion of a field. -/
def readField (reader : NumberReader) (whole : Bool) (value : RawValue) :
    Except PyException (Option ℚ) :=
  if whole then (toInt reader value).map (Option.map (↑))
  else finiteDecimal (toDecimal reader value)

/-- The numbers of an accepted row are its fields' conversions. -/
theorem readField_of_rowNumbers {reader : NumberReader} {row : QuotedRow} {n : RowNumbers}
    (h : rowNumbers reader row = .ok n) (field : NumericField) :
    readField reader field.whole (row.value field) = .ok (n.value field) := by
  simp only [rowNumbers, bind_eq_ok, pure_eq_ok] at h
  obtain ⟨bid, hbid, ask, hask, last, hlast, bidSize, hbidSize, askSize, haskSize, volume, hvolume,
    openInterest, hopenInterest, iv, hiv, delta, hdelta, gamma, hgamma, theta, htheta, vega, hvega,
    rfl⟩ := h
  cases field with
  | bid => exact hbid
  | ask => exact hask
  | last => exact hlast
  | bidSize =>
    exact congrArg (Except.map (Option.map (fun n : ℤ ↦ (n : ℚ)))) hbidSize
  | askSize =>
    exact congrArg (Except.map (Option.map (fun n : ℤ ↦ (n : ℚ)))) haskSize
  | volume =>
    exact congrArg (Except.map (Option.map (fun n : ℤ ↦ (n : ℚ)))) hvolume
  | openInterest =>
    exact congrArg (Except.map (Option.map (fun n : ℤ ↦ (n : ℚ)))) hopenInterest
  | impliedVolatility => exact hiv
  | delta => exact hdelta
  | gamma => exact hgamma
  | theta => exact htheta
  | vega => exact hvega

/-- A field's number is one of those provided, and it is absent only when none is. -/
def FieldFaithful (provided : List ℚ) (value : Option ℚ) : Prop :=
  (∀ v, value = some v → v ∈ provided) ∧ (value = none → provided = [])

/-- The chosen value keeps a field's number: it is a number unless none is provided; for a decimal
field it is no boolean; for a whole one a fraction's whole part is provided too, and a text with a
number is one that `int` reads. -/
structure FieldKept (reader : NumberReader) (whole : Bool) (provided : List ℚ) (chosen : RawValue) :
    Prop where
  number : numberOf reader chosen = none → provided = []
  decimal : whole = false → ∀ b, chosen ≠ .bool b
  fraction : whole = true → ∀ q, chosen = .number q → (pyInt q : ℚ) ∈ provided
  text : whole = true → ∀ s, chosen = .text s → (numberOf reader chosen).isSome →
    (reader.int s).isSome

/-- A field without a number is faithful exactly when none is provided. -/
theorem fieldFaithful_none {provided : List ℚ} : FieldFaithful provided none ↔ provided = [] :=
  ⟨fun h ↦ h.2 rfl, fun h ↦ ⟨nofun, fun _ ↦ h⟩⟩

/-- A field with a number is faithful exactly when that is provided. -/
theorem fieldFaithful_some {provided : List ℚ} {v : ℚ} :
    FieldFaithful provided (some v) ↔ v ∈ provided :=
  ⟨fun h ↦ h.1 v rfl, fun h ↦ ⟨fun _ hw ↦ Option.some.inj hw ▸ h, nofun⟩⟩

/-- A decimal field has the number of a value that is no boolean. -/
theorem decimal_eq_numberOf {reader : NumberReader} {v : RawValue} {value : Option ℚ}
    (h : finiteDecimal (toDecimal reader v) = .ok value) (hbool : ∀ b, v ≠ .bool b) :
    value = numberOf reader v := by
  cases v with
  | missing => exact (Except.ok.inj h).symm
  | number q => exact (Except.ok.inj h).symm
  | nan => exact absurd h (by simp [toDecimal, finiteDecimal])
  | infinite => exact absurd h (by simp [toDecimal, finiteDecimal])
  | bool b => exact absurd rfl (hbool b)
  | other truthy => exact (Except.ok.inj h).symm
  | text s =>
    by_cases hs : s = ""
    · simp only [toDecimal, hs, if_true, finiteDecimal] at h
      simpa [numberOf, hs] using (Except.ok.inj h).symm
    · simp only [toDecimal, hs, if_false] at h
      cases hread : reader.decimal s with
      | none =>
        rw [hread] at h
        simpa [numberOf, hs, hread] using (Except.ok.inj h).symm
      | some reading =>
        cases reading with
        | special => exact absurd h (by simp [hread, finiteDecimal])
        | finite q =>
          rw [hread] at h
          simpa [numberOf, hs, hread] using (Except.ok.inj h).symm

/-- A decimal field is faithful exactly when the chosen value keeps its number. -/
theorem decimalFaithful_iff {reader : NumberReader} {provided : List ℚ} {v : RawValue}
    {value : Option ℚ} (h : finiteDecimal (toDecimal reader v) = .ok value)
    (hprovided : ∀ q, numberOf reader v = some q → q ∈ provided) :
    FieldFaithful provided value ↔ FieldKept reader false provided v := by
  by_cases hbool : ∀ b, v ≠ .bool b
  · obtain rfl := decimal_eq_numberOf h hbool
    constructor
    · intro hf
      exact ⟨hf.2, fun _ ↦ hbool, nofun, nofun⟩
    · intro hk
      exact ⟨hprovided, hk.number⟩
  · refine ⟨fun hf ↦ ?_, fun hk ↦ absurd (hk.decimal rfl) hbool⟩
    -- a boolean is no decimal, and it is provided
    obtain ⟨b, hb⟩ := not_forall_not.mp hbool
    subst hb
    obtain rfl := Except.ok.inj h
    exact absurd (hprovided _ rfl) (by simp [fieldFaithful_none.mp hf])

/-- A whole field has the whole part of the number of a value that keeps it. -/
theorem whole_eq_numberOf {reader : NumberReader} {provided : List ℚ} {v : RawValue}
    {value : Option ℤ} (h : toInt reader v = .ok value) (hk : FieldKept reader true provided v) :
    value = (numberOf reader v).map pyInt := by
  cases v with
  | missing => exact (Except.ok.inj h).symm
  | number q => exact (Except.ok.inj h).symm
  | nan => exact (Except.ok.inj h).symm
  | infinite => exact absurd h (by simp [toInt])
  | other truthy => exact (Except.ok.inj h).symm
  | bool b =>
    obtain rfl := Except.ok.inj h
    cases b <;> rfl
  | text s =>
    by_cases hs : s = ""
    · simp only [toInt, hs, if_true] at h
      simpa [numberOf, hs] using (Except.ok.inj h).symm
    · simp only [toInt, hs, if_false] at h
      obtain rfl := Except.ok.inj h
      cases hint : reader.int s with
      | some n => simp [numberOf, hs, reader.coherent s n hint]
      | none =>
        cases hnumber : numberOf reader (.text s) with
        | none => rfl
        | some q => exact absurd (hk.text rfl s rfl (by simp [hnumber])) (by simp [hint])

private theorem wholeFaithful_of_none {reader : NumberReader} {provided : List ℚ} {v : RawValue}
    (hnumber : numberOf reader v = none) (hplain : ∀ q, v ≠ .number q) :
    FieldFaithful provided none ↔ FieldKept reader true provided v := by
  rw [fieldFaithful_none]
  constructor
  · intro hnil
    refine ⟨fun _ ↦ hnil, nofun, fun _ q hq ↦ absurd hq (hplain q), ?_⟩
    intro _ s _ hsome
    exact absurd hsome (by simp [hnumber])
  · intro hk
    exact hk.number hnumber

private theorem wholeFaithful_text {reader : NumberReader} {provided : List ℚ} {s : String}
    (hs : s ≠ "") (hprovided : ∀ q, numberOf reader (.text s) = some q → q ∈ provided) :
    FieldFaithful provided ((reader.int s).map (fun n : ℤ ↦ (n : ℚ))) ↔
      FieldKept reader true provided (.text s) := by
  cases hint : reader.int s with
  | some n =>
    have hnumber : numberOf reader (.text s) = some (n : ℚ) := by
      simp [numberOf, hs, reader.coherent s n hint]
    rw [Option.map_some, fieldFaithful_some]
    refine ⟨fun _ ↦ ⟨?_, nofun, nofun, ?_⟩, fun _ ↦ hprovided _ hnumber⟩
    · intro hnone
      exact absurd hnone (by simp [hnumber])
    · rintro _ _ ⟨⟩ _
      simp [hint]
  | none =>
    rw [Option.map_none, fieldFaithful_none]
    constructor
    · intro hnil
      refine ⟨fun _ ↦ hnil, nofun, nofun, ?_⟩
      rintro _ _ ⟨⟩ hsome
      obtain ⟨q, hq⟩ := Option.isSome_iff_exists.mp hsome
      exact absurd (hprovided q hq) (by simp [hnil])
    · intro hk
      cases hnumber : numberOf reader (.text s) with
      | none => exact hk.number hnumber
      | some q => exact absurd (hk.text rfl s rfl (by simp [hnumber])) (by simp [hint])

/-- A whole field is faithful exactly when the chosen value keeps its number. -/
theorem wholeFaithful_iff {reader : NumberReader} {provided : List ℚ} {v : RawValue}
    {value : Option ℤ} (h : toInt reader v = .ok value)
    (hprovided : ∀ q, numberOf reader v = some q → q ∈ provided) :
    FieldFaithful provided (value.map (fun n : ℤ ↦ (n : ℚ))) ↔
      FieldKept reader true provided v := by
  cases v with
  | infinite => exact absurd h (by simp [toInt])
  | missing | nan | other truthy =>
    obtain rfl := Except.ok.inj h
    exact wholeFaithful_of_none rfl nofun
  | number q =>
    obtain rfl := Except.ok.inj h
    rw [Option.map_some, fieldFaithful_some]
    constructor
    · intro hmem
      refine ⟨nofun, nofun, ?_, nofun⟩
      rintro _ _ ⟨⟩
      exact hmem
    · intro hk
      exact hk.fraction rfl q rfl
  | bool b =>
    obtain rfl := Except.ok.inj h
    rw [Option.map_some, fieldFaithful_some]
    have hmem : (((if b then 1 else 0 : ℤ) : ℤ) : ℚ) ∈ provided := by
      cases b with
      | false => exact_mod_cast hprovided 0 rfl
      | true => exact_mod_cast hprovided 1 rfl
    exact ⟨fun _ ↦ ⟨nofun, nofun, nofun, nofun⟩, fun _ ↦ hmem⟩
  | text s =>
    by_cases hs : s = ""
    · simp only [toInt, hs, if_true] at h
      obtain rfl := Except.ok.inj h
      exact wholeFaithful_of_none (by simp [numberOf, hs]) nofun
    · simp only [toInt, hs, if_false] at h
      obtain rfl := Except.ok.inj h
      exact wholeFaithful_text hs hprovided

/-! ### Rows -/

/-- Every field of a contract is faithful, and its flag says whether it is absent. -/
def Faithful (reader : NumberReader) (row : QuotedRow) (contract : QuotedContract) : Prop :=
  ∀ field, FieldFaithful (row.provided reader field) (contract.numbers.value field) ∧
    ∀ flag ∈ field.flag, (flag ∈ contract.qualityFlags ↔ contract.numbers.value field = none)

/-- Every field of a row keeps its number. -/
def QuotedRow.Kept (reader : NumberReader) (row : QuotedRow) : Prop :=
  ∀ field, FieldKept reader field.whole (row.provided reader field) (chosen (row.values field))

/-- What acceptance says: the contract is that of the numbers read. -/
theorem accepted_cases {reader : NumberReader} {builder : SurfaceBuilder} {exchangeTime : Datetime}
    {row : QuotedRow} {contract : QuotedContract}
    (h : rowToQuotedContract reader builder exchangeTime row = .ok (some contract)) :
    ∃ base n, rowNumbers reader row = .ok n ∧ contract = quotedContract base n := by
  simp only [rowToQuotedContract, bind_eq_ok] at h
  obtain ⟨built, -, h⟩ := h
  cases built with
  | none => exact absurd h (by simp)
  | some base =>
    simp only [bind_eq_ok, pure_eq_ok] at h
    obtain ⟨n, hn, hcontract⟩ := h
    exact ⟨base, n, hn, (Option.some.inj hcontract).symm⟩

private theorem mem_flagIf {condition : Bool} {x flag : String} :
    x ∈ flagIf condition flag ↔ condition = true ∧ x = flag := by
  cases condition <;> simp [flagIf]

private theorem mem_bookFlags {bid ask : Option ℚ} {x : String} (h : x ∈ bookFlags bid ask) :
    x = "crossed_market" ∨ x = "locked_market" := by
  unfold bookFlags at h
  split at h
  · obtain h | h := List.mem_append.mp h
    · exact .inl (mem_flagIf.mp h).2
    · exact .inr (mem_flagIf.mp h).2
  · exact absurd h (by simp)

/-- The flags say which fields are absent. -/
theorem flag_mem_iff (n : RowNumbers) (field : NumericField) :
    ∀ flag ∈ field.flag, (flag ∈ qualityFlags n ↔ n.value field = none) := by
  intro flag hflag
  have habsent : flag ∉ bookFlags n.bid n.ask := by
    intro hmem
    obtain rfl | rfl := mem_bookFlags hmem
    · cases field <;> simp [NumericField.flag] at hflag
    · cases field <;> simp [NumericField.flag] at hflag
  cases field with
  | bidSize => exact absurd hflag (by simp [NumericField.flag])
  | askSize => exact absurd hflag (by simp [NumericField.flag])
  | bid | ask | last | volume | openInterest | impliedVolatility | delta | gamma | theta | vega =>
    obtain rfl := Option.some.inj hflag
    simp [qualityFlags, mem_flagIf, habsent, RowNumbers.value]

/-- An accepted row is faithful exactly when it keeps its numbers. -/
theorem faithful_iff_kept {reader : NumberReader} {builder : SurfaceBuilder}
    {exchangeTime : Datetime} {row : QuotedRow} {contract : QuotedContract}
    (h : rowToQuotedContract reader builder exchangeTime row = .ok (some contract)) :
    Faithful reader row contract ↔ row.Kept reader := by
  obtain ⟨base, n, hn, rfl⟩ := accepted_cases h
  have hfield : ∀ field, FieldFaithful (row.provided reader field) (n.value field) ↔
      FieldKept reader field.whole (row.provided reader field) (chosen (row.values field)) := by
    intro field
    have hread := readField_of_rowNumbers hn field
    rw [QuotedRow.value, orChain_eq] at hread
    have hne : row.values field ≠ [] := by
      cases field <;> simp [QuotedRow.values, NumericField.names]
    have hprovided : ∀ q, numberOf reader (chosen (row.values field)) = some q →
        q ∈ row.provided reader field := fun q hq ↦
      List.mem_filterMap.mpr ⟨_, chosen_mem hne, hq⟩
    cases hwhole : field.whole with
    | false =>
      rw [hwhole] at hread
      exact decimalFaithful_iff hread hprovided
    | true =>
      rw [hwhole] at hread
      simp only [readField, if_true] at hread
      cases hint : toInt reader (chosen (row.values field)) with
      | error e => exact absurd hread (by simp [hint, Except.map])
      | ok value =>
        rw [hint] at hread
        obtain hvalue := Except.ok.inj hread
        rw [← hvalue]
        exact wholeFaithful_iff hint hprovided
  constructor
  · intro hf field
    exact (hfield field).mp (hf field).1
  · intro hk field
    exact ⟨(hfield field).mpr (hk field), flag_mem_iff n field⟩

/-! ### Lowered rows -/

/-- The number of the value that a field is read from. -/
def QuotedRow.number (reader : NumberReader) (row : QuotedRow) (field : NumericField) : Option ℚ :=
  numberOf reader (chosen (row.values field))

/-- Its whole part. -/
def QuotedRow.count (reader : NumberReader) (row : QuotedRow) (field : NumericField) : Option ℤ :=
  (row.number reader field).map pyInt

/-- The relative spread of the numbers of bid and ask. -/
def QuotedRow.spread (reader : NumberReader) (row : QuotedRow) : Option ℚ :=
  computeRelativeSpread (row.number reader .bid) (row.number reader .ask)

/-- A row that differs from another in one of the score's inputs alone, where it provides numbers
that are no higher. -/
structure Lowers (reader : NumberReader) (field : NumericField) (row lower : QuotedRow) : Prop where
  scored : field = .bidSize ∨ field = .askSize ∨ field = .volume
  base : lower.base = row.base
  others : ∀ name ∉ field.names, lower.get name = row.get name
  provided : row.provided reader field ≠ []
  lowerProvided : lower.provided reader field ≠ []
  le : ∀ v ∈ row.provided reader field, ∀ w ∈ lower.provided reader field, w ≤ v

/-- An input of the score can be left out of a row without a higher score. -/
def LeftOut (reader : NumberReader) (row : QuotedRow) (field : NumericField) (value : ℤ) : Prop :=
  match field with
  | .bidSize => SizeLeftOut value (row.count reader .askSize) (row.count reader .volume)
      (row.spread reader)
  | .askSize => SizeLeftOut value (row.count reader .bidSize) (row.count reader .volume)
      (row.spread reader)
  | _ => VolumeLeftOut value (row.count reader .bidSize) (row.count reader .askSize)
      (row.spread reader)

/-- An input that is counted falls below zero only where it can be left out. -/
def FallsHarmlessly (reader : NumberReader) (field : NumericField) (row lower : QuotedRow) : Prop :=
  ∀ high low, row.count reader field = some high → lower.count reader field = some low →
    0 ≤ high → low < 0 → LeftOut reader row field high

/-- The score of a row that keeps its numbers. -/
theorem score_of_kept {reader : NumberReader} {row : QuotedRow} {n : RowNumbers}
    (hn : rowNumbers reader row = .ok n) (hk : row.Kept reader) :
    computeLiquidityScore n.bidSize n.askSize n.volume (computeRelativeSpread n.bid n.ask) =
      computeLiquidityScore (row.count reader .bidSize) (row.count reader .askSize)
        (row.count reader .volume) (row.spread reader) ∧
    ∀ field, field = .bidSize ∨ field = .askSize ∨ field = .volume →
      n.value field = (row.count reader field).map (fun n : ℤ ↦ (n : ℚ)) := by
  simp only [rowNumbers, bind_eq_ok, pure_eq_ok, QuotedRow.value, orChain_eq] at hn
  obtain ⟨bid, hbid, ask, hask, last, -, bidSize, hbidSize, askSize, haskSize, volume, hvolume,
    -, -, -, -, -, -, -, -, -, -, -, -, rfl⟩ := hn
  obtain rfl := decimal_eq_numberOf hbid ((hk .bid).decimal rfl)
  obtain rfl := decimal_eq_numberOf hask ((hk .ask).decimal rfl)
  obtain rfl := whole_eq_numberOf hbidSize (hk .bidSize)
  obtain rfl := whole_eq_numberOf haskSize (hk .askSize)
  obtain rfl := whole_eq_numberOf hvolume (hk .volume)
  refine ⟨rfl, ?_⟩
  rintro field (rfl | rfl | rfl)
  · rfl
  · rfl
  · rfl

/-- No name is read for two fields. -/
theorem names_disjoint (a b : NumericField) (h : a ≠ b) : ∀ name ∈ a.names, name ∉ b.names := by
  cases a <;> cases b <;> first | exact absurd rfl h | decide

/-- The fields that are not lowered are read as before. -/
theorem values_of_lowers {reader : NumberReader} {field other : NumericField}
    {row lower : QuotedRow} (h : Lowers reader field row lower) (hne : other ≠ field) :
    lower.values other = row.values other :=
  List.map_congr_left (fun name hname ↦ h.others name (names_disjoint other field hne name hname))

/-- A kept input of the score that is provided is one of the numbers provided. -/
theorem exists_count_of_kept {reader : NumberReader} {row : QuotedRow} {n : RowNumbers}
    {field : NumericField} (hscored : field = .bidSize ∨ field = .askSize ∨ field = .volume)
    (hn : rowNumbers reader row = .ok n) (hk : row.Kept reader)
    (hf : FieldFaithful (row.provided reader field) (n.value field))
    (hprovided : row.provided reader field ≠ []) :
    ∃ count, row.count reader field = some count ∧ (count : ℚ) ∈ row.provided reader field := by
  have hvalue := (score_of_kept hn hk).2 field hscored
  cases hcount : row.count reader field with
  | none => exact absurd (hf.2 (by rw [hvalue, hcount]; rfl)) hprovided
  | some count => exact ⟨count, rfl, hf.1 _ (by rw [hvalue, hcount]; rfl)⟩

/-- Of two rows, one of which lowers an input of the score of the other, both are faithful and the
lower one has no higher score exactly when both keep their numbers and the input does not fall
below zero where leaving it out counts. -/
theorem lowered_iff {reader : NumberReader} {builder : SurfaceBuilder} {exchangeTime : Datetime}
    {field : NumericField} {row lower : QuotedRow} {contract lowered : QuotedContract}
    (hrow : rowToQuotedContract reader builder exchangeTime row = .ok (some contract))
    (hlower : rowToQuotedContract reader builder exchangeTime lower = .ok (some lowered))
    (h : Lowers reader field row lower) :
    (Faithful reader row contract ∧ Faithful reader lower lowered ∧
        lowered.liquidityScore ≤ contract.liquidityScore) ↔
      (row.Kept reader ∧ lower.Kept reader ∧ FallsHarmlessly reader field row lower) := by
  have hfaithful := faithful_iff_kept hrow
  have hfaithful' := faithful_iff_kept hlower
  rw [← and_assoc, ← and_assoc, hfaithful, hfaithful']
  refine and_congr_right ?_
  rintro ⟨hk, hk'⟩
  have hf := hfaithful.mpr hk field
  have hf' := hfaithful'.mpr hk' field
  obtain ⟨base, n, hn, rfl⟩ := accepted_cases hrow
  obtain ⟨base', n', hn', rfl⟩ := accepted_cases hlower
  obtain ⟨high, hhigh, hmem⟩ := exists_count_of_kept h.scored hn hk hf.1 h.provided
  obtain ⟨low, hlow, hmem'⟩ := exists_count_of_kept h.scored hn' hk' hf'.1 h.lowerProvided
  have hle : low ≤ high := by exact_mod_cast h.le _ hmem _ hmem'
  have hsame : ∀ other, other ≠ field → lower.count reader other = row.count reader other := by
    intro other hne
    simp only [QuotedRow.count, QuotedRow.number, values_of_lowers h hne]
  have hspread : lower.spread reader = row.spread reader := by
    have hbid : (.bid : NumericField) ≠ field := by
      rintro rfl
      exact absurd h.scored (by decide)
    have hask : (.ask : NumericField) ≠ field := by
      rintro rfl
      exact absurd h.scored (by decide)
    simp only [QuotedRow.spread, QuotedRow.number, values_of_lowers h hbid,
      values_of_lowers h hask]
  have hharmless : FallsHarmlessly reader field row lower ↔
      (0 ≤ high → low < 0 → LeftOut reader row field high) := by
    constructor
    · intro hall
      exact hall high low hhigh hlow
    · rintro hone _ _ hc hc'
      obtain rfl := Option.some.inj (hhigh.symm.trans hc)
      obtain rfl := Option.some.inj (hlow.symm.trans hc')
      exact hone
  rw [hharmless]
  simp only [quotedContract]
  rw [(score_of_kept hn hk).1, (score_of_kept hn' hk').1, hspread]
  obtain rfl | rfl | rfl := h.scored
  · rw [hsame .askSize (by decide), hsame .volume (by decide), hhigh, hlow]
    exact score_bidSize_le_iff hle
  · rw [hsame .bidSize (by decide), hsame .volume (by decide), hhigh, hlow]
    exact score_askSize_le_iff hle
  · rw [hsame .bidSize (by decide), hsame .askSize (by decide), hhigh, hlow]
    exact score_volume_le_iff hle

/-- Rows are faithful and the score is monotone exactly under conditions on what the rows provide:
for one row, and for a row and a lower one. -/
theorem surfaceRows_faithful_iff {reader : NumberReader} {builder : SurfaceBuilder}
    {exchangeTime : Datetime} {row : QuotedRow} {contract : QuotedContract}
    (hrow : rowToQuotedContract reader builder exchangeTime row = .ok (some contract)) :
    (Faithful reader row contract ↔ row.Kept reader) ∧
      ∀ field lower lowered, Lowers reader field row lower →
        rowToQuotedContract reader builder exchangeTime lower = .ok (some lowered) →
        ((Faithful reader row contract ∧ Faithful reader lower lowered ∧
            lowered.liquidityScore ≤ contract.liquidityScore) ↔
          (row.Kept reader ∧ lower.Kept reader ∧ FallsHarmlessly reader field row lower)) :=
  ⟨faithful_iff_kept hrow, fun _ _ _ h hlower ↦ lowered_iff hrow hlower h⟩

/-- Every accepted row is faithful, and a row that lowers an input of its score has no higher
one. -/
def SurfaceRowsFaithful (reader : NumberReader) (builder : SurfaceBuilder)
    (exchangeTime : Datetime) : Prop :=
  ∀ row contract, rowToQuotedContract reader builder exchangeTime row = .ok (some contract) →
    Faithful reader row contract ∧ ∀ field lower lowered, Lowers reader field row lower →
      rowToQuotedContract reader builder exchangeTime lower = .ok (some lowered) →
      lowered.liquidityScore ≤ contract.liquidityScore

namespace Sample

/-- A reader of no texts. -/
def reader : NumberReader := ⟨fun _ ↦ none, fun _ ↦ none, fun _ _ h ↦ nomatch h⟩

/-- Noon of a summer day at the exchange. -/
def noon : Datetime := ⟨2026, 7, 1, 12, 0, 0, 0, some (-14400)⟩

/-- A row with a bid size and an ask size of a hundred. -/
def row (bidSize : ℚ) : QuotedRow :=
  { base := .sample "c" noon
    get := fun name ↦
      if name = "bid_size" then .number bidSize
      else if name = "ask_size" then .number 100
      else .missing }

/-- Its contract, with the bid size that is read. -/
def contract (bidSize : Option ℤ) : QuotedContract :=
  quotedContract (.sample "c" noon noon)
    ⟨none, none, none, bidSize, some 100, none, none, none, none, none, none, none⟩

private theorem row_two : rowToQuotedContract reader SurfaceBuilder.sample noon (row 2) =
    .ok (some (contract (some 2))) := by decide +kernel

private theorem row_one : rowToQuotedContract reader SurfaceBuilder.sample noon (row 1) =
    .ok (some (contract (some 1))) := by decide +kernel

private theorem row_zero : rowToQuotedContract reader SurfaceBuilder.sample noon (row 0) =
    .ok (some (contract none)) := by decide +kernel

/-- The bid size provided. -/
theorem provided_row (bidSize : ℚ) : (row bidSize).provided reader .bidSize = [bidSize] := rfl

/-- A lower bid size. -/
theorem lowers {high low : ℚ} (h : low ≤ high) :
    Lowers reader .bidSize (row high) (row low) where
  scored := .inl rfl
  base := rfl
  others := by
    intro name hname
    have hother : name ≠ "bid_size" := fun heq ↦ hname (by simp [heq, NumericField.names])
    simp [row, hother]
  provided := by simp [provided_row]
  lowerProvided := by simp [provided_row]
  le := by
    rw [provided_row, provided_row]
    simpa using h

end Sample

/-- The theorem at a bid size of two that is lowered to one. -/
theorem surfaceRows_faithful_iff_lowered :
    (Faithful Sample.reader (Sample.row 2) (Sample.contract (some 2)) ↔
        (Sample.row 2).Kept Sample.reader) ∧
      ((Faithful Sample.reader (Sample.row 2) (Sample.contract (some 2)) ∧
          Faithful Sample.reader (Sample.row 1) (Sample.contract (some 1)) ∧
          (Sample.contract (some 1)).liquidityScore ≤ (Sample.contract (some 2)).liquidityScore) ↔
        ((Sample.row 2).Kept Sample.reader ∧ (Sample.row 1).Kept Sample.reader ∧
          FallsHarmlessly Sample.reader .bidSize (Sample.row 2) (Sample.row 1))) := by
  have h := surfaceRows_faithful_iff Sample.row_two
  exact ⟨h.1, h.2 .bidSize _ _ (Sample.lowers (by norm_num)) Sample.row_one⟩

/-- A bid size of zero is lost: the field is absent though the row provides it, and lowering the
bid size from one to zero takes the score from a hundredth to one. -/
theorem not_surfaceRowsFaithful_zeroBidSize :
    ¬ SurfaceRowsFaithful Sample.reader SurfaceBuilder.sample Sample.noon ∧
      ¬ Faithful Sample.reader (Sample.row 0) (Sample.contract none) ∧
      (Sample.contract (some 1)).liquidityScore < (Sample.contract none).liquidityScore := by
  have hrises : (Sample.contract (some 1)).liquidityScore <
      (Sample.contract none).liquidityScore := by decide +kernel
  refine ⟨?_, ?_, hrises⟩
  · intro hall
    have hle := (hall _ _ Sample.row_one).2 .bidSize _ _ (Sample.lowers (by norm_num))
      Sample.row_zero
    exact absurd hle (not_le.mpr hrises)
  · intro hfaithful
    have hnone := (hfaithful .bidSize).1.2 rfl
    rw [Sample.provided_row] at hnone
    exact absurd hnone (List.cons_ne_nil _ _)

end Joker.Market
