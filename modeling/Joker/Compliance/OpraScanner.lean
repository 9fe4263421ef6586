import Joker.Base.JsonText
import Joker.Compliance.DataClassification

/-!
# OPRA scanner

Library `Compliance`. `joker/compliance/opra_scanner.py`: the lines of local files and the rows of
local databases are searched for persisted option values. The rows of a table are searched as one
JSON text, in which the quotes of stored texts are escaped, so that the pattern for a value never
matches and no database is reported. What exists, and `json.loads` of a line, are inputs.
-/

namespace Joker.Compliance

open Joker.Base

/-! ### The pattern -/

/-- `OPRA_VALUE_FIELDS` of the scanner, sorted. Source `joker/compliance/opra_scanner.py:15–31`. -/
def scannerValueFields : List String :=
  ["ask", "bid", "delta", "gamma", "implied_volatility", "last", "mid", "open_interest",
    "quote_timestamp", "spread_pct", "theta", "vega", "volume"]

/-- A character that a small letter of a pattern matches under `re.IGNORECASE`. -/
def matchesLetter (letter c : Char) : Bool :=
  c.toLower = letter || (letter = 'i' && (c.toNat = 0x130 || c.toNat = 0x131)) ||
    (letter = 's' && c.toNat = 0x17f) || (letter = 'k' && c.toNat = 0x212a)

/-- The text behind a field name. -/
def afterField : List Char → List Char → Option (List Char)
  | [], text => some text
  | _ :: _, [] => none
  | letter :: field, c :: text => if matchesLetter letter c then afterField field text else none

/-- `\s*:\s*[-+]?\d` at the front of a text; `digit` is `\d`. -/
def valueFollows (digit : Char → Bool) (text : List Char) : Bool :=
  match text.dropWhile isSpace with
  | ':' :: rest =>
    match rest.dropWhile isSpace with
    | '-' :: rest => rest.head?.any digit
    | '+' :: rest => rest.head?.any digit
    | rest => rest.head?.any digit
  | _ => false

/-- `VIOLATION_VALUE_PATTERN` at the front of a text.
Source `joker/compliance/opra_scanner.py:33–36`. -/
def violationAt (digit : Char → Bool) (text : List Char) : Bool :=
  match text with
  | '"' :: rest =>
    scannerValueFields.any (fun field ↦
      match afterField field.toList rest with
      | some ('"' :: rest) => valueFollows digit rest
      | _ => false)
  | _ => false

/-- `VIOLATION_VALUE_PATTERN.search`. Source `joker/compliance/opra_scanner.py:33–36`. -/
def searchViolation (digit : Char → Bool) (line : String) : Bool :=
  line.toList.tails.any (violationAt digit)

/-! ### Lines -/

/-- The categories of findings. -/
inductive ScanCategory where
  | possibleRawOpra
  | stockDataNotOpra
  | syntheticIgnored
  | safeMetadata
  deriving DecidableEq, Repr

/-- `OpraScanFinding`. Source `joker/compliance/opra_scanner.py:49–53`. -/
structure OpraScanFinding where
  path : String
  category : ScanCategory
  reason : String
  lineNumber : Option ℕ
  deriving DecidableEq, Repr

/-- What the scanner takes from Python: `\d`, and the members of a line that `json.loads` reads as
an object. Source `joker/compliance/opra_scanner.py:96–101`. -/
structure ScanTools where
  digit : Char → Bool
  parseLineObject : String → Option Members

/-- A finding of a line. -/
def finding (path : String) (lineNumber : ℕ) (category : ScanCategory) (reason : String) :
    Option OpraScanFinding :=
  some ⟨path, category, reason, some lineNumber⟩

/-- The end of `_classify_line`, for a line whose object, if it is one, decides nothing. -/
def classifyText (tools : ScanTools) (path line : String) (lineNumber : ℕ) :
    Option OpraScanFinding :=
  let has (part : String) : Bool := hasText part (lower line)
  let isOpraContext := has "\"source\": \"webull_opra\"" ||
    has "\"data_classification\": \"raw_opra\"" || has "option.snapshot" ||
    has "\"event_type\": \"option_quote\""
  let isStockContext := has "\"source\": \"webull_stock\"" || has "\"event_type\": \"spy_quote\""
  if !searchViolation tools.digit line then
    if (has "field_types" || has "top_level_keys" || has "presence") &&
        (has "option_snapshot" || has "spread_check") then
      finding path lineNumber .safeMetadata "shape/presence metadata only"
    else if has "spread_check" || has "bid_ask_available" then
      finding path lineNumber .safeMetadata "pass/fail metadata only"
    else none
  else if isStockContext && !isOpraContext then
    finding path lineNumber .stockDataNotOpra "stock bid/ask (not OPRA)"
  else if has "\"is_synthetic\": true" || has "synthetic_option" || has "synthetic_stock" then
    finding path lineNumber .syntheticIgnored "synthetic replay data"
  else if isOpraContext || ((has "option" || has "webull_opra") && !has "webull_stock") then
    finding path lineNumber .possibleRawOpra "possible raw OPRA field value"
  else if has "\"bid\": true" || has "\"ask\": true" then
    finding path lineNumber .safeMetadata "field availability boolean"
  else none

/-- `_classify_line`. Source `joker/compliance/opra_scanner.py:104–207`. -/
def classifyLine (tools : ScanTools) (path line : String) (lineNumber : ℕ) :
    Except ComplianceError (Option OpraScanFinding) :=
  if startsWithText "#" (strip line) then .ok none
  else
    match tools.parseLineObject line with
    | none => .ok (classifyText tools path line lineNumber)
    | some obj => do
      let classification ← classifyMarketEvent obj
      if classification = .syntheticData ∨ (obj.get? "is_synthetic").any Json.isTrue = true then
        pure (finding path lineNumber .syntheticIgnored "synthetic labeled data")
      else if classification = .stockMarketData then
        pure (if searchViolation tools.digit line then
          finding path lineNumber .stockDataNotOpra "stock market data (not OPRA)" else none)
      else if classification = .nonPriceDecisionMetadata then
        pure (finding path lineNumber .safeMetadata "non-price OPRA metadata")
      else if (classification = .rawOpra ∨ classification = .derivedOpraPrice) ∧
          searchViolation tools.digit line = true then
        pure (finding path lineNumber .possibleRawOpra "raw OPRA option values")
      else pure (classifyText tools path line lineNumber)

/-- `_scan_text`. Source `joker/compliance/opra_scanner.py:210–216`. -/
def scanText (tools : ScanTools) (path text : String) :
    Except ComplianceError (List OpraScanFinding) := do
  let found ← ((splitlines text).zipIdx 1).mapM (fun numbered ↦
    classifyLine tools path numbered.1 numbered.2)
  pure (found.filterMap id)

/-! ### Databases -/

/-- A value of a row; a blob is the text that `str` gives. -/
inductive SqliteValue where
  | null
  | integer (n : ℤ)
  | real (x : PyFloat)
  | infinity (negative : Bool)
  | text (s : String)
  | blob (printed : String)

/-- A value in `json.dumps(rows, default=str)`. -/
def SqliteValue.json : SqliteValue → List Char
  | .null => "null".toList
  | .integer n => (toString n).toList
  | .real x => x.str.toList
  | .infinity negative => (if negative then "-Infinity" else "Infinity").toList
  | .text s => literal s
  | .blob printed => literal printed

/-- `json.dumps(rows, default=str)`. -/
def rowsText (rows : List (List SqliteValue)) : String :=
  String.ofList (arrayText (rows.map (fun row ↦ arrayText (row.map SqliteValue.json))))

/-- A database: its path, and its tables, if it opens; a table that cannot be read has no rows. -/
structure ScannedDb where
  path : String
  tables : Option (List (Option (List (List SqliteValue))))

/-- `_scan_sqlite`. Source `joker/compliance/opra_scanner.py:227–247`. -/
def scanSqlite (tools : ScanTools) (db : ScannedDb) :
    Except ComplianceError (List OpraScanFinding) := do
  let hits ← (((db.tables).getD []).filterMap id).mapM (fun rows ↦
    scanText tools db.path (rowsText (rows.take 200)))
  pure hits.flatten

/-! ### Scans -/

/-- A file: its path and its suffix, and its text, if it can be read. -/
structure ScannedFile where
  path : String
  suffix : String
  text : Option String

/-- `OpraScanResult`. Source `joker/compliance/opra_scanner.py:57–78`. -/
structure OpraScanResult where
  filesScanned : ℕ
  findings : List OpraScanFinding
  scannedPaths : List String
  dbPathsScanned : List String

/-- `violations`. Source `joker/compliance/opra_scanner.py:64–65`. -/
def OpraScanResult.violations (result : OpraScanResult) : List OpraScanFinding :=
  result.findings.filter (fun found ↦ found.category = .possibleRawOpra)

/-- The files that are scanned. -/
def ScannedFile.isScanned (file : ScannedFile) : Bool :=
  decide (lower file.suffix ∈ [".jsonl", ".json", ".md", ".log", ".txt"])

/-- `_scan_file`. Source `joker/compliance/opra_scanner.py:219–224`. -/
def scanFile (tools : ScanTools) (file : ScannedFile) :
    Except ComplianceError (List OpraScanFinding) :=
  match file.text with
  | none => .ok []
  | some text => scanText tools file.path text

/-- `scan_local_opra`, of the databases and the files that exist, in their order.
Source `joker/compliance/opra_scanner.py:250–283`. -/
def scanLocalOpra (tools : ScanTools) (dbs : List ScannedDb) (files : List ScannedFile) :
    Except ComplianceError OpraScanResult := do
  let scanned := files.filter ScannedFile.isScanned
  let dbFindings ← dbs.mapM (scanSqlite tools)
  let fileFindings ← scanned.mapM (scanFile tools)
  pure
    { filesScanned := dbs.length + scanned.length
      findings := dbFindings.flatten ++ fileFindings.flatten
      scannedPaths := dbs.map ScannedDb.path ++ scanned.map ScannedFile.path
      dbPathsScanned := dbs.map ScannedDb.path }

/-! ### Texts without values -/

/-- The characters behind which a quote opens a literal or is escaped. -/
private def Opens (c : Char) : Prop := c ∈ ['[', ' ', '\\']

private theorem not_opens_of_matchesLetter {field : String} (hfield : field ∈ scannerValueFields)
    {letter : Char} (hletter : letter ∈ field.toList) {c : Char}
    (h : matchesLetter letter c = true) : ¬ Opens c := by
  have hall : scannerValueFields.all (fun field ↦ field.toList.all (fun letter ↦
      ['[', ' ', '\\'].all (fun c ↦ !matchesLetter letter c))) = true := by
    decide +kernel
  intro hc
  have hletters := List.all_eq_true.mp (List.all_eq_true.mp hall field hfield) letter hletter
  have hnot := List.all_eq_true.mp hletters c hc
  rw [h] at hnot
  cases hnot

private theorem quotesDelimit_afterField {letters : List Char}
    (hletters : ∀ letter ∈ letters, ∀ c, matchesLetter letter c = true → ¬ Opens c)
    {text rest : List Char} {previous : Char} (hprevious : ¬ Opens previous)
    (hquotes : QuotesDelimit previous text) (h : afterField letters text = some rest) :
    ∃ p, ¬ Opens p ∧ QuotesDelimit p rest := by
  induction letters generalizing text previous with
  | nil =>
    rw [← Option.some.inj h]
    exact ⟨previous, hprevious, hquotes⟩
  | cons letter letters ih =>
    obtain ⟨hletter, hletters⟩ := List.forall_mem_cons.mp hletters
    cases text with
    | nil => cases h
    | cons c text =>
      unfold afterField at h
      split at h
      · next hmatches => exact ih hletters (hletter c hmatches) hquotes.2 h
      · cases h

private theorem valueFollows_of_next (digit : Char → Bool) {rest : List Char}
    (h : ∃ next ∈ rest.head?, next ∈ [',', ']']) : valueFollows digit rest = false := by
  obtain ⟨next, hhead, hnext⟩ := h
  obtain ⟨rest, rfl⟩ := List.head?_eq_some_iff.mp hhead
  unfold valueFollows
  rcases List.mem_pair.mp hnext with rfl | rfl <;> rfl

/-- The pattern is not found where the quotes delimit. -/
theorem searchViolation_of_quotesDelimit (digit : Char → Bool) {line : String} {previous : Char}
    (h : QuotesDelimit previous line.toList) : searchViolation digit line = false := by
  unfold searchViolation
  rw [List.any_eq_false]
  intro tail htail
  obtain ⟨p, hquotes⟩ := exists_quotesDelimit_of_suffix ((List.mem_tails _ _).mp htail) h
  unfold violationAt
  split
  · next rest =>
    rw [Bool.not_eq_true, List.any_eq_false]
    intro field hfield
    split
    · next rest' hafter =>
      have hquote : ¬ Opens '"' := by
        unfold Opens
        decide
      obtain ⟨last, hlast, hclosed⟩ := quotesDelimit_afterField
        (fun letter hletter c ↦ not_opens_of_matchesLetter hfield hletter) hquote hquotes.2 hafter
      rw [valueFollows_of_next digit ((hclosed.1 rfl).resolve_left hlast)]
      exact Bool.false_ne_true
    · exact Bool.false_ne_true
  · exact Bool.false_ne_true

/-! ### Databases are never reported -/

private theorem isDigit_of_mem_toString {n : ℤ} {c : Char} (h : c ∈ (toString n).toList) :
    c.isDigit = true ∨ c = '-' := by
  have hdigits (m : ℕ) {c : Char} (h : c ∈ (toString m).toList) : c.isDigit = true := by
    rw [Nat.toString_eq_ofList_toDigits, String.toList_ofList] at h
    exact Nat.isDigit_of_mem_toDigits (by decide) (by decide) h
  cases n with
  | ofNat m => exact .inl (hdigits m h)
  | negSucc m =>
    change c ∈ ("-" ++ toString (m + 1)).toList at h
    rw [String.toList_append] at h
    rcases List.mem_append.mp h with h | h
    · exact .inr (List.mem_singleton.mp h)
    · exact .inl (hdigits (m + 1) h)

private theorem delimited_json (value : SqliteValue) : Delimited value.json := by
  cases value with
  | null => exact delimited_of_plain (by decide)
  | integer n =>
    apply delimited_of_plain
    intro h
    rcases isDigit_of_mem_toString h with h | h <;> cases h
  | real x => exact delimited_of_plain (x.not_mem_str '"' (by decide) (by decide))
  | infinity negative => cases negative <;> exact delimited_of_plain (by decide)
  | text s => exact delimited_literal s
  | blob printed => exact delimited_literal printed

private theorem printable_of_isDigit {c : Char} (h : c.isDigit = true) : Printable c := by
  obtain ⟨hlow, hhigh⟩ := Char.isDigit_iff_toNat.mp h
  exact ⟨le_trans (by decide) hlow, le_trans hhigh (by decide)⟩

private theorem printable_json (value : SqliteValue) : ∀ c ∈ value.json, Printable c := by
  cases value with
  | null => exact printable_of_all rfl
  | integer n =>
    intro c hc
    rcases isDigit_of_mem_toString hc with h | rfl
    · exact printable_of_isDigit h
    · decide
  | real x =>
    intro c hc
    by_cases hmark : c ∈ ['-', '+', '.', 'E', 'e']
    · exact printable_of_all rfl c hmark
    · cases hdigit : c.isDigit with
      | true => exact printable_of_isDigit hdigit
      | false => exact absurd hc (x.not_mem_str c hmark hdigit)
  | infinity negative => cases negative <;> exact printable_of_all rfl
  | text s => exact printable_literal s
  | blob printed => exact printable_literal printed

private theorem rowsText_facts (tools : ScanTools) (rows : List (List SqliteValue)) :
    splitlines (rowsText rows) = [rowsText rows] ∧
      searchViolation tools.digit (rowsText rows) = false ∧
      (rowsText rows).toList.head? = some '[' := by
  have htext : (rowsText rows).toList = arrayText (rows.map (fun row ↦
      arrayText (row.map SqliteValue.json))) := String.toList_ofList
  have hdelimited : ∀ item ∈ rows.map (fun row ↦ arrayText (row.map SqliteValue.json)),
      Delimited item := by
    intro item hitem
    obtain ⟨row, _, rfl⟩ := List.mem_map.mp hitem
    apply delimited_arrayText
    intro item hitem
    obtain ⟨value, _, rfl⟩ := List.mem_map.mp hitem
    exact delimited_json value
  have hprintable : ∀ item ∈ rows.map (fun row ↦ arrayText (row.map SqliteValue.json)),
      ∀ c ∈ item, Printable c := by
    intro item hitem
    obtain ⟨row, _, rfl⟩ := List.mem_map.mp hitem
    apply printable_arrayText
    intro item hitem
    obtain ⟨value, _, rfl⟩ := List.mem_map.mp hitem
    exact printable_json value
  have hhead : (rowsText rows).toList.head? = some '[' := by
    rw [htext]
    rfl
  refine ⟨?_, ?_, hhead⟩
  · apply splitlines_of_printable
    · rw [htext]
      exact printable_arrayText hprintable
    · intro hnil
      rw [hnil] at hhead
      cases hhead
  · apply @searchViolation_of_quotesDelimit tools.digit _ ' '
    rw [htext]
    exact quotesDelimit_arrayText hdelimited ' '

private theorem safe_of_classifyLine {tools : ScanTools} {path line : String} (lineNumber : ℕ)
    (hvalue : searchViolation tools.digit line = false)
    (hobject : tools.parseLineObject line = none) :
    ∃ found, classifyLine tools path line lineNumber = .ok found ∧
      ∀ hit ∈ found, hit.category = .safeMetadata := by
  unfold classifyLine
  rw [hobject]
  split
  · exact ⟨none, rfl, fun _ h ↦ nomatch h⟩
  · refine ⟨_, rfl, ?_⟩
    intro hit hhit
    unfold classifyText at hhit
    simp only [hvalue, Bool.not_false, if_true] at hhit
    split at hhit
    · rw [← Option.some.inj hhit]
    · split at hhit
      · rw [← Option.some.inj hhit]
      · cases hhit

variable {tools : ScanTools}

private theorem safe_of_scanSqlite
    (htools : ∀ text : String, text.toList.head? = some '[' → tools.parseLineObject text = none)
    (db : ScannedDb) :
    ∃ hits, scanSqlite tools db = .ok hits ∧ ∀ hit ∈ hits, hit.category = .safeMetadata := by
  have htable (rows : List (List SqliteValue)) : ∃ hits,
      scanText tools db.path (rowsText rows) = .ok hits ∧
        ∀ hit ∈ hits, hit.category = .safeMetadata := by
    obtain ⟨hline, hvalue, hhead⟩ := rowsText_facts tools rows
    obtain ⟨found, hfound, hsafe⟩ := @safe_of_classifyLine tools db.path _ 1 hvalue
      (htools _ hhead)
    refine ⟨[found].filterMap id, ?_, ?_⟩
    · unfold scanText
      rw [hline, List.zipIdx_cons, List.zipIdx_nil, List.mapM_cons, hfound]
      rfl
    · intro hit hhit
      obtain ⟨entry, hentry, hid⟩ := List.mem_filterMap.mp hhit
      rw [List.mem_singleton.mp hentry] at hid
      exact hsafe hit hid
  have htables : ∀ tables : List (List (List SqliteValue)), ∃ hits,
      tables.mapM (fun rows ↦ scanText tools db.path (rowsText (rows.take 200))) = .ok hits ∧
        ∀ hit ∈ hits.flatten, hit.category = .safeMetadata := by
    intro tables
    induction tables with
    | nil => exact ⟨[], rfl, fun _ h ↦ nomatch h⟩
    | cons rows tables ih =>
      obtain ⟨first, hfirst, hsafe⟩ := htable (rows.take 200)
      obtain ⟨hits, hhits, hrest⟩ := ih
      refine ⟨first :: hits, ?_, ?_⟩
      · rw [List.mapM_cons, hfirst, hhits]
        rfl
      · rw [List.flatten_cons, List.forall_mem_append]
        exact ⟨hsafe, hrest⟩
  obtain ⟨hits, hhits, hsafe⟩ := htables (((db.tables).getD []).filterMap id)
  refine ⟨hits.flatten, ?_, hsafe⟩
  unfold scanSqlite
  rw [hhits]
  rfl

/-- Whatever is stored in the databases, a scan reports the violations of the files alone: every
finding of a database is safe metadata. -/
theorem violations_of_files
    (htools : ∀ text : String, text.toList.head? = some '[' → tools.parseLineObject text = none)
    (dbs : List ScannedDb) (files : List ScannedFile) :
    (scanLocalOpra tools dbs files).map OpraScanResult.violations =
        (scanLocalOpra tools [] files).map OpraScanResult.violations ∧
      ∀ db ∈ dbs, ∃ hits, scanSqlite tools db = .ok hits ∧
        ∀ hit ∈ hits, hit.category = .safeMetadata := by
  have hdbs : ∃ hits, dbs.mapM (scanSqlite tools) = .ok hits ∧
      hits.flatten.filter (fun found ↦ found.category = .possibleRawOpra) = [] := by
    induction dbs with
    | nil => exact ⟨[], rfl, rfl⟩
    | cons db dbs ih =>
      obtain ⟨first, hfirst, hsafe⟩ := safe_of_scanSqlite htools db
      obtain ⟨hits, hhits, hrest⟩ := ih
      refine ⟨first :: hits, ?_, ?_⟩
      · rw [List.mapM_cons, hfirst, hhits]
        rfl
      · rw [List.flatten_cons, List.filter_append, hrest, List.append_nil,
          List.filter_eq_nil_iff]
        intro hit hhit
        simp [hsafe hit hhit]
  refine ⟨?_, fun db _ ↦ safe_of_scanSqlite htools db⟩
  obtain ⟨hits, hhits, hnone⟩ := hdbs
  unfold scanLocalOpra
  rw [hhits]
  cases hfiles : (files.filter ScannedFile.isScanned).mapM (scanFile tools) with
  | error e =>
    simp only [hfiles]
    rfl
  | ok found =>
    have hviolations (n : ℕ) (paths dbPaths : List String) :
        OpraScanResult.violations ⟨n, hits.flatten ++ found.flatten, paths, dbPaths⟩ =
          found.flatten.filter (fun found ↦ found.category = .possibleRawOpra) := by
      unfold OpraScanResult.violations
      rw [List.filter_append, hnone, List.nil_append]
    simp only [hfiles]
    exact congrArg Except.ok (hviolations _ _ _)

/-- An option quote as a log writes it. -/
def quoteLine : String := "\x7b\"source\": \"webull_opra\", \"bid\": 1.25\x7d"

/-- Tools that read this line only. -/
def ScanTools.sample : ScanTools where
  digit := Char.isDigit
  parseLineObject line :=
    if line = quoteLine then some [("bid", .num (5 / 4)), ("source", .str "webull_opra")] else none

/-- The quote in a log is a violation. -/
example : (scanLocalOpra .sample [] [⟨"logs/a.jsonl", ".jsonl", some quoteLine⟩]).map
    OpraScanResult.violations = .ok [⟨"logs/a.jsonl", .possibleRawOpra, "raw OPRA option values",
      some 1⟩] := by
  decide +kernel

/-- A quote stored in a database is no violation. -/
theorem violations_of_files_stored :
    (scanLocalOpra .sample [⟨"data/a.db", some [some [[.integer 1, .text quoteLine]]]⟩] []).map
      OpraScanResult.violations = .ok [] := by
  have htools : ∀ text : String, text.toList.head? = some '[' →
      ScanTools.sample.parseLineObject text = none := by
    intro text htext
    refine if_neg ?_
    rintro rfl
    revert htext
    decide
  rw [(violations_of_files htools _ []).1]
  rfl

end Joker.Compliance
