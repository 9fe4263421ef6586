import Joker.Base.IsoText
import Joker.Data.SurfaceFetch
import Joker.Market.LiquidityScore

/-!
# Option symbols

Library `Data`. `joker/data/webull_option_symbols.py`: the OSI symbol of a SPY option, its reader,
and the contracts around the price that stand in for an unverified chain. Strikes are exact; a
symbol keeps them in thousandths, and the last two digits of the year. What is built is read back,
for the dates of this century.
-/

namespace Joker.Data

open Joker.Base Joker.Broker

/-- What the language itself does: `int(text)`, which reads decimal numerals and more, and the
exception of `date(year, month, day)`. -/
structure Language where
  int : String → Except PyException ℤ
  notADate : ℤ → ℤ → ℤ → PyException
  numeral : ∀ digits : List Char, digits ≠ [] → (∀ c ∈ digits, c.isDigit = true) →
    int (String.ofList digits) = .ok (Nat.ofDigitChars 10 digits 0 : ℤ)
  negative : ∀ digits : List Char, digits ≠ [] → (∀ c ∈ digits, c.isDigit = true) →
    int (String.ofList ('-' :: digits)) = .ok (-(Nat.ofDigitChars 10 digits 0 : ℤ))

/-- A signed ASCII numeral. -/
def asciiInt (text : List Char) : Option ℤ :=
  let signed := text.head? = some '-'
  let digits := if signed then text.tail else text
  if digits ≠ [] ∧ digits.all Char.isDigit = true then
    some (if signed then -(Nat.ofDigitChars 10 digits 0 : ℤ) else Nat.ofDigitChars 10 digits 0)
  else none

/-- A reader of signed ASCII numerals. -/
def Language.ascii : Language where
  int text := ((asciiInt text.toList).map Except.ok).getD (.error ⟨"ValueError", text⟩)
  notADate _ _ _ := ⟨"ValueError", "day is out of range for month"⟩
  numeral := by
    intro digits hne hdigits
    have hunsigned : digits.head? ≠ some '-' := by
      intro hsign
      have := hdigits '-' (List.mem_of_mem_head? hsign)
      cases this
    have hall : digits.all Char.isDigit = true := List.all_eq_true.mpr hdigits
    simp [asciiInt, hunsigned, hne, hall]
  negative := by
    intro digits hne hdigits
    have hall : digits.all Char.isDigit = true := List.all_eq_true.mpr hdigits
    simp [asciiInt, hne, hall]

/-- `ValueError`. -/
def valueError (text : String) : PyException := ⟨"ValueError", text⟩

/-- `date(year, month, day)`. -/
def Language.date (language : Language) (year month day : ℤ) : Except PyException Date :=
  if 0 ≤ year ∧ 0 ≤ month ∧ 0 ≤ day ∧
      (Date.mk year.toNat month.toNat day.toNat).WellFormed then
    .ok ⟨year.toNat, month.toNat, day.toNat⟩
  else .error (language.notADate year month day)

/-- `text[start:stop]`. -/
def textSlice (start stop : ℕ) (text : List Char) : List Char :=
  (text.drop start).take (stop - start)

/-! ### Symbols -/

/-- `f"{n:08d}"`; the sign takes one of the eight places. -/
def strikeText (n : ℤ) : List Char :=
  if n < 0 then '-' :: padded 7 n.natAbs else padded 8 n.natAbs

/-- `"C" if option_type.lower() in ("call", "c") else "P"`. -/
def callPut (optionType : String) : Char :=
  if lower optionType ∈ ["call", "c"] then 'C' else 'P'

/-- `expiration.strftime('%y%m%d')`. -/
def shortDate (d : Date) : List Char :=
  padded 2 (d.year % 100) ++ padded 2 d.month ++ padded 2 d.day

/-- `build_osi_symbol`. Source `joker/data/webull_option_symbols.py:10–21`. -/
def buildOsiSymbol (underlying : String) (expiration : Date) (strike : ℚ) (optionType : String) :
    Except PyException String :=
  if upper underlying ≠ "SPY" then .error (valueError "Only SPY supported")
  else
    .ok (String.ofList ((upper underlying).toList ++ shortDate expiration ++
      callPut optionType :: strikeText (roundHalfEven (strike * 1000))))

/-- What `parse_osi_symbol` returns. -/
structure OsiContract where
  underlying : String
  expiration : Date
  optionType : OptionType
  strike : ℚ
  deriving DecidableEq

/-- `parse_osi_symbol` after its checks. Source `joker/data/webull_option_symbols.py:24–35`. -/
def readOsiText (language : Language) (text : List Char) : Except PyException OsiContract := do
  let expiry := textSlice 3 9 text
  let year ← language.int (String.ofList (textSlice 0 2 expiry))
  let month ← language.int (String.ofList (textSlice 2 4 expiry))
  let day ← language.int (String.ofList (textSlice 4 6 expiry))
  let expiration ← language.date (2000 + year) month day
  let strike ← language.int (String.ofList (text.drop 10))
  pure
    { underlying := String.ofList (textSlice 0 3 text)
      expiration := expiration
      optionType := if upper (String.ofList (textSlice 9 10 text)) = "C" then .call else .put
      strike := strike / 1000 }

/-- `parse_osi_symbol`. Source `joker/data/webull_option_symbols.py:24–35`. -/
def parseOsiSymbol (language : Language) (symbol : String) : Except PyException OsiContract :=
  if startsWithText "SPY" symbol = false ∧ isBlank symbol = true then
    -- `symbol.split()[0]` of nothing.
    .error ⟨"IndexError", "list index out of range"⟩
  else if startsWithText "SPY" symbol = false ∨ symbol.toList.length < 15 then
    .error (valueError ("Unsupported OSI symbol format: " ++ symbol))
  else readOsiText language symbol.toList

/-- `metadata_from_osi`. Source `joker/data/webull_option_symbols.py:38–52`. -/
def metadataFromOsi (language : Language) (symbol : String) :
    Except PyException (OptionContractMetadata ℚ) := do
  let contract ← parseOsiSymbol language symbol
  pure
    { underlyingSymbol := contract.underlying
      expiration := contract.expiration
      strike := contract.strike
      optionType := contract.optionType
      contractId := some symbol }

/-- `candidate_strikes_around`, a dollar apart.
Source `joker/data/webull_option_symbols.py:55–57`. -/
def candidateStrikesAround (underlyingPrice : ℚ) : List ℚ :=
  let base := roundHalfEven underlyingPrice
  [base - 1, base, base + 1]

/-- `build_atm_candidate_symbols`. Source `joker/data/webull_option_symbols.py:60–71`. -/
def buildAtmCandidateSymbols (language : Language) (underlying : String) (expiration : Date)
    (underlyingPrice : ℚ) : Except PyException (List (OptionContractMetadata ℚ)) :=
  ((candidateStrikesAround underlyingPrice).flatMap (fun strike ↦
    [(strike, "call"), (strike, "put")])).mapM (fun candidate ↦ do
      let symbol ← buildOsiSymbol underlying expiration candidate.1 candidate.2
      metadataFromOsi language symbol)

/-! ### Numerals -/

/-- Padded numerals are read. -/
theorem Language.int_padded (language : Language) (width n : ℕ) :
    language.int (String.ofList (padded width n)) = .ok (n : ℤ) := by
  rw [language.numeral _ (padded_ne_nil width n) (fun _ h ↦ isDigit_padded h), ofDigitChars_padded]

/-- A strike is read, of either sign. -/
theorem Language.int_strikeText (language : Language) (n : ℤ) :
    language.int (String.ofList (strikeText n)) = .ok n := by
  unfold strikeText
  split
  · rw [language.negative _ (padded_ne_nil 7 _) (fun _ h ↦ isDigit_padded h), ofDigitChars_padded]
    congr 1
    omega
  · rw [language.int_padded]
    congr 1
    omega

private theorem eight_le_strikeText (n : ℤ) : 8 ≤ (strikeText n).length := by
  unfold strikeText padded
  split <;>
  · simp only [List.length_cons, List.length_append, List.length_replicate]
    omega

/-- Two places hold two digits. -/
theorem padded_two {n : ℕ} (h : n < 100) : ∃ a b, padded 2 n = [a, b] :=
  List.length_eq_two.mp (length_padded (by decide) h)

/-! ### Reading back -/

/-- The type a symbol's letter stands for. -/
def letterType (letter : Char) : OptionType := if letter = 'C' then .call else .put

private theorem upper_callPut (optionType : String) :
    upper (String.ofList [callPut optionType]) = String.ofList [callPut optionType] := by
  unfold callPut
  split <;> decide

private theorem date_shortDate (language : Language) {d : Date} (hd : d.WellFormed)
    (hcentury : 2000 ≤ d.year ∧ d.year ≤ 2099) :
    language.date (2000 + ((d.year % 100 : ℕ) : ℤ)) d.month d.day = .ok d := by
  have hyear : 2000 + ((d.year % 100 : ℕ) : ℤ) = (d.year : ℤ) := by omega
  unfold Language.date
  rw [hyear]
  simp only [Int.toNat_natCast]
  rw [if_pos ⟨Int.natCast_nonneg _, Int.natCast_nonneg _, Int.natCast_nonneg _, hd⟩]

private theorem parseOsiSymbol_ofList (language : Language) {text : List Char}
    (hbegins : "SPY".toList <+: text) (hlength : 15 ≤ text.length) :
    parseOsiSymbol language (String.ofList text) = readOsiText language text := by
  have htext : (String.ofList text).toList = text := String.toList_ofList
  have hstarts : startsWithText "SPY" (String.ofList text) = true := by
    unfold startsWithText
    rw [decide_eq_true_eq, htext]
    exact hbegins
  unfold parseOsiSymbol
  rw [hstarts, htext, if_neg (fun h ↦ nomatch h.1), if_neg]
  rintro (h | h)
  · cases h
  · omega

/-- A symbol is read back as what it was built from. -/
theorem parseOsiSymbol_text (language : Language) {d : Date} (hd : d.WellFormed)
    (hcentury : 2000 ≤ d.year ∧ d.year ≤ 2099) (optionType : String) (n : ℤ) :
    parseOsiSymbol language (String.ofList ("SPY".toList ++ shortDate d ++
        callPut optionType :: strikeText n)) =
      .ok ⟨"SPY", d, letterType (callPut optionType), n / 1000⟩ := by
  have hmonth : d.month < 100 := by have := hd.month; omega
  have hday : d.day < 100 := by
    have := hd.day
    have hlast : daysInMonth d.year d.month ≤ 31 := by
      unfold daysInMonth
      split_ifs <;> omega
    omega
  have hyear := language.int_padded 2 (d.year % 100)
  have hmonths := language.int_padded 2 d.month
  have hdays := language.int_padded 2 d.day
  obtain ⟨y, y', hy⟩ := padded_two (Nat.mod_lt d.year (show 0 < 100 by decide))
  obtain ⟨m, m', hm⟩ := padded_two hmonth
  obtain ⟨e, e', he⟩ := padded_two hday
  have hshort : shortDate d = [y, y', m, m', e, e'] := by
    unfold shortDate
    rw [hy, hm, he]
    rfl
  have hlength := eight_le_strikeText n
  rw [hshort, parseOsiSymbol_ofList]
  · have hletter := upper_callPut optionType
    rw [hy] at hyear
    rw [hm] at hmonths
    rw [he] at hdays
    generalize callPut optionType = letter at hletter ⊢
    -- The parts of the text, in the places the reader takes them from.
    change (do
      let year ← language.int (String.ofList [y, y'])
      let month ← language.int (String.ofList [m, m'])
      let day ← language.int (String.ofList [e, e'])
      let expiration ← language.date (2000 + year) month day
      let strike ← language.int (String.ofList (strikeText n))
      pure (⟨String.ofList ['S', 'P', 'Y'], expiration,
        if upper (String.ofList [letter]) = "C" then .call else .put, strike / 1000⟩ :
          OsiContract)) = _
    rw [hyear, hmonths, hdays, language.int_strikeText, hletter]
    simp only [bind, Except.bind, date_shortDate language hd hcentury]
    have htype : (if String.ofList [letter] = "C" then OptionType.call else .put) =
        letterType letter := by
      unfold letterType
      by_cases hc : letter = 'C'
      · rw [if_pos hc, hc, if_pos rfl]
      · rw [if_neg hc, if_neg]
        intro heq
        have hlist := congrArg String.toList heq
        rw [String.toList_ofList] at hlist
        exact hc (List.singleton_inj.mp hlist)
    rw [htype]
    rfl
  · rw [List.append_assoc]
    exact List.prefix_append _ _
  · change 15 ≤ (strikeText n).length + 10
    omega

/-! ### Round trips -/

/-- The text of a symbol. -/
def osiText (d : Date) (optionType : String) (n : ℤ) : String :=
  String.ofList ("SPY".toList ++ shortDate d ++ callPut optionType :: strikeText n)

/-- Which symbol is built. -/
theorem buildOsiSymbol_eq {underlying : String} (h : upper underlying = "SPY") (d : Date)
    (strike : ℚ) (optionType : String) :
    buildOsiSymbol underlying d strike optionType =
      .ok (osiText d optionType (roundHalfEven (strike * 1000))) := by
  unfold buildOsiSymbol
  rw [h]
  rfl

/-- A strike in thousandths is kept. -/
theorem roundHalfEven_thousandths (n : ℤ) : roundHalfEven ((n : ℚ) / 1000 * 1000) = n := by
  rw [div_mul_cancel₀ _ (by norm_num : (1000 : ℚ) ≠ 0), roundHalfEven_intCast]

/-- The literal of a type stands for its letter. -/
theorem callPut_letterType (optionType : String) :
    callPut (letterType (callPut optionType)).value = callPut optionType := by
  generalize hletter : callPut optionType = letter
  have hcases : letter = 'C' ∨ letter = 'P' := by
    rw [← hletter]
    unfold callPut
    split
    · exact Or.inl rfl
    · exact Or.inr rfl
  rcases hcases with rfl | rfl <;> decide

/-- OSI symbols round-trip. For every date of this century, every strike and every spelling of the
type, the symbol that is built is read back as SPY, the date, the type and the strike to the
nearest thousandth, and building from what was read gives the symbol again. -/
theorem parseOsiSymbol_buildOsiSymbol (language : Language) {underlying : String}
    (hsymbol : upper underlying = "SPY") {d : Date} (hd : d.WellFormed)
    (hcentury : 2000 ≤ d.year ∧ d.year ≤ 2099) (strike : ℚ) (optionType : String) :
    ∃ symbol contract, buildOsiSymbol underlying d strike optionType = .ok symbol ∧
      parseOsiSymbol language symbol = .ok contract ∧
      contract.underlying = "SPY" ∧ contract.expiration = d ∧
      (contract.optionType = .call ↔ lower optionType ∈ ["call", "c"]) ∧
      |contract.strike - strike| ≤ 1 / 2000 ∧
      (∀ n : ℤ, strike = n / 1000 → contract.strike = strike) ∧
      buildOsiSymbol contract.underlying contract.expiration contract.strike
        contract.optionType.value = .ok symbol := by
  refine ⟨_, _, buildOsiSymbol_eq hsymbol d strike optionType,
    parseOsiSymbol_text language hd hcentury optionType _, rfl, rfl, ?_, ?_, ?_, ?_⟩
  · have hcall : letterType (callPut optionType) = .call ↔ lower optionType ∈ ["call", "c"] := by
      unfold callPut
      split
      · next h => exact ⟨fun _ ↦ h, fun _ ↦ rfl⟩
      · next h => exact ⟨fun heq ↦ absurd heq (by decide), fun hin ↦ absurd hin h⟩
    dsimp only
    exact hcall
  · change |(roundHalfEven (strike * 1000) : ℚ) / 1000 - strike| ≤ 1 / 2000
    have hround := nearestRounding_roundHalfEven (strike * 1000)
    have hsplit : (roundHalfEven (strike * 1000) : ℚ) / 1000 - strike =
        (roundHalfEven (strike * 1000) - strike * 1000) / 1000 := by ring
    rw [hsplit, abs_div, abs_of_pos (by norm_num : (0 : ℚ) < 1000)]
    linarith
  · rintro n rfl
    change (roundHalfEven ((n : ℚ) / 1000 * 1000) : ℚ) / 1000 = n / 1000
    rw [roundHalfEven_thousandths]
  · rw [buildOsiSymbol_eq (show upper "SPY" = "SPY" by decide)]
    change Except.ok (osiText d _ (roundHalfEven ((_ : ℤ) / 1000 * 1000))) = _
    rw [roundHalfEven_thousandths]
    unfold osiText
    rw [callPut_letterType]

/-- The round trip of a call at 550 dollars. -/
theorem parseOsiSymbol_buildOsiSymbol_call :
    ∃ symbol contract, buildOsiSymbol "spy" ⟨2026, 7, 1⟩ 550 "CALL" = .ok symbol ∧
      parseOsiSymbol Language.ascii symbol = .ok contract ∧ contract.strike = 550 := by
  obtain ⟨symbol, contract, hbuild, hparse, -, -, -, -, hexact, -⟩ :=
    parseOsiSymbol_buildOsiSymbol Language.ascii (show upper "spy" = "SPY" by decide)
      (show (Date.mk 2026 7 1).WellFormed by decide) (by decide) 550 "CALL"
  exact ⟨symbol, contract, hbuild, hparse, hexact 550000 (by norm_num)⟩

/-! ### The candidates around the price -/

/-- The contract that is read from a symbol. -/
theorem metadataFromOsi_osiText (language : Language) {d : Date} (hd : d.WellFormed)
    (hcentury : 2000 ≤ d.year ∧ d.year ≤ 2099) (optionType : OptionType) (n : ℤ) :
    metadataFromOsi language (osiText d optionType.value n) =
      .ok ⟨"SPY", d, n / 1000, optionType, some (osiText d optionType.value n)⟩ := by
  have hletter : letterType (callPut optionType.value) = optionType := by
    cases optionType <;> decide
  have hparse : parseOsiSymbol language (osiText d optionType.value n) = _ :=
    parseOsiSymbol_text language hd hcentury optionType.value n
  rw [hletter] at hparse
  unfold metadataFromOsi
  rw [hparse]
  rfl

/-- One candidate. -/
def candidate (d : Date) (n : ℤ) (optionType : OptionType) : OptionContractMetadata ℚ :=
  ⟨"SPY", d, n, optionType, some (osiText d optionType.value (n * 1000))⟩

/-- A candidate's contract is read from its symbol. -/
theorem metadataFromOsi_candidate (language : Language) {d : Date} (hd : d.WellFormed)
    (hcentury : 2000 ≤ d.year ∧ d.year ≤ 2099) (n : ℤ) (optionType : OptionType) :
    metadataFromOsi language (osiText d optionType.value (n * 1000)) =
      .ok (candidate d n optionType) := by
  have hstrike : (((n * 1000 : ℤ) : ℚ)) / 1000 = n := by
    push_cast
    exact mul_div_cancel_right₀ _ (by norm_num)
  rw [metadataFromOsi_osiText language hd hcentury, hstrike]
  rfl

/-- The candidates of a price. -/
def candidates (d : Date) (base : ℤ) : List (OptionContractMetadata ℚ) :=
  [candidate d (base - 1) .call, candidate d (base - 1) .put, candidate d base .call,
    candidate d base .put, candidate d (base + 1) .call, candidate d (base + 1) .put]

private theorem buildAtmCandidateSymbols_eq (language : Language) {underlying : String}
    (hsymbol : upper underlying = "SPY") {d : Date} (hd : d.WellFormed)
    (hcentury : 2000 ≤ d.year ∧ d.year ≤ 2099) (underlyingPrice : ℚ) :
    buildAtmCandidateSymbols language underlying d underlyingPrice =
      .ok (candidates d (roundHalfEven underlyingPrice)) := by
  have hone (n : ℤ) (optionType : OptionType) :
      (buildOsiSymbol underlying d (n : ℚ) optionType.value).bind (metadataFromOsi language) =
        .ok (candidate d n optionType) := by
    have hround : roundHalfEven ((n : ℚ) * 1000) = n * 1000 := by
      have hcast : (n : ℚ) * 1000 = ((n * 1000 : ℤ) : ℚ) := by push_cast; ring
      rw [hcast, roundHalfEven_intCast]
    rw [buildOsiSymbol_eq hsymbol, hround]
    simp only [Except.bind]
    exact metadataFromOsi_candidate language hd hcentury n optionType
  have hless : ((roundHalfEven underlyingPrice : ℤ) : ℚ) - 1 =
      ((roundHalfEven underlyingPrice - 1 : ℤ) : ℚ) := by push_cast; rfl
  have hmore : ((roundHalfEven underlyingPrice : ℤ) : ℚ) + 1 =
      ((roundHalfEven underlyingPrice + 1 : ℤ) : ℚ) := by push_cast; rfl
  unfold buildAtmCandidateSymbols candidateStrikesAround
  simp only [hless, hmore, List.flatMap_cons, List.flatMap_nil, List.append_nil,
    List.cons_append, List.nil_append, List.mapM_cons, List.mapM_nil, bind]
  have hcall (n : ℤ) := hone n .call
  have hput (n : ℤ) := hone n .put
  change ∀ n : ℤ, (buildOsiSymbol underlying d n "call").bind (metadataFromOsi language) = _
    at hcall
  change ∀ n : ℤ, (buildOsiSymbol underlying d n "put").bind (metadataFromOsi language) = _
    at hput
  simp only [hcall, hput]
  rfl

private theorem nodup_candidates (language : Language) {d : Date} (hd : d.WellFormed)
    (hcentury : 2000 ≤ d.year ∧ d.year ≤ 2099) (base : ℤ) :
    ((candidates d base).map OptionContractMetadata.key).Nodup := by
  -- Candidates with one symbol are read as one contract.
  have hinj (n n' : ℤ) (t t' : OptionType)
      (h : osiText d t.value (n * 1000) = osiText d t'.value (n' * 1000)) : n = n' ∧ t = t' := by
    have hread := metadataFromOsi_candidate language hd hcentury n t
    rw [h, metadataFromOsi_candidate language hd hcentury n' t'] at hread
    have hsame := Except.ok.inj hread
    have hstrike : (n' : ℚ) = n := congrArg OptionContractMetadata.strike hsame
    have htype : t' = t := congrArg OptionContractMetadata.optionType hsame
    exact ⟨(Int.cast_injective hstrike).symm, htype.symm⟩
  have hpairs : ([(base - 1, OptionType.call), (base - 1, .put), (base, .call), (base, .put),
      (base + 1, .call), (base + 1, .put)] : List (ℤ × OptionType)).Nodup := by
    simp
    omega
  have hkeys : (candidates d base).map OptionContractMetadata.key =
      ([(base - 1, OptionType.call), (base - 1, .put), (base, .call), (base, .put),
        (base + 1, .call), (base + 1, .put)] : List (ℤ × OptionType)).map
          (fun pair ↦ osiText d pair.2.value (pair.1 * 1000)) := rfl
  rw [hkeys]
  apply hpairs.map
  intro a b h
  obtain ⟨hn, ht⟩ := hinj _ _ _ _ h
  exact Prod.ext hn ht

private theorem eligible_candidate (d : Date) (n : ℤ) (optionType : OptionType) :
    (candidate d n optionType).eligible d = true := by
  have hsymbol : (candidate d n optionType).symbol = allowedSymbol := by
    change upper (if "SPY" = "" then allowedSymbol else "SPY") = allowedSymbol
    decide
  have hkey : (candidate d n optionType).key ≠ "" := by
    change osiText d optionType.value (n * 1000) ≠ ""
    intro h
    have hlist := congrArg String.toList h
    unfold osiText at hlist
    rw [String.toList_ofList] at hlist
    cases hlist
  unfold OptionContractMetadata.eligible OptionContractMetadata.isOf
  rw [hsymbol, decide_eq_true hkey]
  simp [candidate]

/-- The contracts that stand in for an unverified chain: for every price and every date of this
century there are a call and a put at the price's nearest dollar and at the dollars beside it, with
distinct symbols. Each is the contract that its own symbol names, and passes the selection of a
surface fetch for the date; of either type one is within half a dollar of the price. -/
theorem buildAtmCandidateSymbols_sound (language : Language) {underlying : String}
    (hsymbol : upper underlying = "SPY") {d : Date} (hd : d.WellFormed)
    (hcentury : 2000 ≤ d.year ∧ d.year ≤ 2099) (underlyingPrice : ℚ) :
    ∃ contracts, buildAtmCandidateSymbols language underlying d underlyingPrice = .ok contracts ∧
      (contracts.map OptionContractMetadata.key).Nodup ∧
      (∀ contract ∈ contracts, metadataFromOsi language contract.key = .ok contract ∧
        contract.eligible d = true) ∧
      ∀ optionType, (contracts.filter (fun contract ↦ contract.optionType = optionType)).map
          OptionContractMetadata.strike = candidateStrikesAround underlyingPrice ∧
        ∃ contract ∈ contracts, contract.optionType = optionType ∧
          |contract.strike - underlyingPrice| ≤ 1 / 2 := by
  refine ⟨_, buildAtmCandidateSymbols_eq language hsymbol hd hcentury underlyingPrice,
    nodup_candidates language hd hcentury _, ?_, ?_⟩
  · have hone (n : ℤ) (optionType : OptionType) :
        metadataFromOsi language (candidate d n optionType).key = .ok (candidate d n optionType) ∧
          (candidate d n optionType).eligible d = true :=
      ⟨metadataFromOsi_candidate language hd hcentury n optionType, eligible_candidate d n _⟩
    intro contract hcontract
    simp only [candidates, List.mem_cons, List.not_mem_nil, or_false] at hcontract
    rcases hcontract with rfl | rfl | rfl | rfl | rfl | rfl <;> exact hone _ _
  · intro optionType
    have hstrikes : ((candidates d (roundHalfEven underlyingPrice)).filter
        (fun contract ↦ contract.optionType = optionType)).map OptionContractMetadata.strike =
          [((roundHalfEven underlyingPrice - 1 : ℤ) : ℚ), (roundHalfEven underlyingPrice : ℚ),
            ((roundHalfEven underlyingPrice + 1 : ℤ) : ℚ)] := by
      cases optionType <;> rfl
    refine ⟨?_, candidate d (roundHalfEven underlyingPrice) optionType, ?_, rfl,
      nearestRounding_roundHalfEven underlyingPrice⟩
    · rw [hstrikes]
      unfold candidateStrikesAround
      push_cast
      rfl
    · cases optionType <;> simp [candidates]

/-- The candidates at 549 dollars and a half. -/
theorem buildAtmCandidateSymbols_sound_half :
    ∃ contracts, buildAtmCandidateSymbols Language.ascii "SPY" ⟨2026, 7, 1⟩ (1099 / 2) =
        .ok contracts ∧
      ∃ contract ∈ contracts, contract.optionType = .put ∧
        |contract.strike - 1099 / 2| ≤ 1 / 2 := by
  obtain ⟨contracts, hbuild, -, -, hnear⟩ := buildAtmCandidateSymbols_sound Language.ascii
    (show upper "SPY" = "SPY" by decide) (show (Date.mk 2026 7 1).WellFormed by decide) (by decide)
    (1099 / 2)
  exact ⟨contracts, hbuild, (hnear .put).2⟩

end Joker.Data
