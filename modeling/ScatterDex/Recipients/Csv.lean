import ScatterDex.Sdk.Text

/-!
# Recipient lists as CSV

`csv.ts`, `format.ts` and `parseRecipientFile.ts` of the recipients package: a cell is escaped, a line is split, and a whole text is read into recipients. A text is a list of characters.
-/

namespace ScatterDex

open Sdk

namespace Recipients

/-! ### Cells and lines -/

def trimText (s : List Char) : List Char := (s.dropWhile isWhitespace).rdropWhile isWhitespace

/-- `/^[=+\-@]/` -/
def startsFormula (s : List Char) : Bool := s.head?.any fun c => c ∈ ['=', '+', '-', '@']

/-- `/[",\r\n]/` -/
def needsQuotes (s : List Char) : Bool := s.any fun c => c ∈ ['"', ',', '\r', '\n']

def doubleQuotes (s : List Char) : List Char := s.flatMap fun c => if c = '"' then ['"', '"'] else [c]

/-- The value with an apostrophe before the marker of a formula -/
def guarded (value : List Char) : List Char := if startsFormula value then '\x27' :: value else value

def csvEscape (value : List Char) : List Char :=
  if needsQuotes (guarded value) then '"' :: (doubleQuotes (guarded value) ++ ['"']) else guarded value

def csvSafeLabel (label : List Char) : List Char := trimText (label.map fun c => if c ∈ [',', '\n', '\r'] then ' ' else c)

/-- The cells of a line, from a cell that holds `cur` so far, inside quotes or not. -/
def splitFrom : List Char → Bool → List Char → List (List Char)
  | cur, _, [] => [trimText cur]
  | cur, true, '"' :: '"' :: rest => splitFrom (cur ++ ['"']) true rest
  | cur, true, c :: rest => if c = '"' then splitFrom cur false rest else splitFrom (cur ++ [c]) true rest
  | cur, false, c :: rest =>
    if c = '"' ∧ cur = [] then splitFrom cur true rest
    else if c = ',' then trimText cur :: splitFrom [] false rest
    else splitFrom (cur ++ [c]) false rest

def splitCsvLine (line : List Char) : List (List Char) := splitFrom [] false line

/-! ### Rows -/

inductive RecipientField
  | name
  | address
  | amount
  | email
  | releaseAt
  deriving DecidableEq

abbrev Recipient := RecipientField → List Char

def formatRecipientCsvRow (r : Recipient) (columns : List RecipientField) : List Char :=
  List.intercalate [','] (columns.map fun col => if col = .name then csvEscape (csvSafeLabel (r col)) else csvEscape (r col))

def RecipientField.header : RecipientField → String
  | .name => "Name"
  | .address => "Address"
  | .amount => "Amount"
  | .email => "Email"
  | .releaseAt => "Release At"

def formatRecipientCsvHeader (columns : List RecipientField) : List Char :=
  List.intercalate [','] (columns.map fun col => col.header.toList)

/-! ### The parser of a text -/

/-- The rows of a text, from a row and a cell that were begun, inside quotes or not. -/
def scanRows : List (List Char) → List Char → Bool → List Char → List (List (List Char))
  | row, cur, _, [] => if cur ≠ [] ∨ row ≠ [] then [row ++ [trimText cur]] else []
  | row, cur, true, '"' :: '"' :: rest => scanRows row (cur ++ ['"']) true rest
  | row, cur, true, c :: rest => if c = '"' then scanRows row cur false rest else scanRows row (cur ++ [c]) true rest
  | row, cur, false, '\r' :: '\n' :: rest => (row ++ [trimText cur]) :: scanRows [] [] false rest
  | row, cur, false, c :: rest =>
    if c = '"' ∧ cur = [] then scanRows row cur true rest
    else if c = ',' then scanRows (row ++ [trimText cur]) [] false rest
    else if c = '\r' ∨ c = '\n' then (row ++ [trimText cur]) :: scanRows [] [] false rest
    else scanRows row (cur ++ [c]) false rest

/-- What the parser takes from its platform: `isAddress` of ethers, and whether `Date.parse` gives a time. -/
structure ParserSetup where
  isAddress : List Char → Bool
  parsesDate : List Char → Bool

/-- Two words with a space, an underscore or a dash between them, or nothing -/
def isJoined (first second : String) (v : List Char) : Bool :=
  first.toList <+: v ∧
    (v.drop first.length = second.toList ∨
      ((v.drop first.length).head?.any fun c => isWhitespace c ∨ c = '_' ∨ c = '-') ∧ v.drop (first.length + 1) = second.toList)

/-- `HEADER_PATTERNS`, on a text in lower case -/
def isHeader (kind : RecipientField) (v : List Char) : Bool :=
  match kind with
  | .name => ["name", "이름", "직원", "employee", "label", "alias", "recipient", "payee"].any (·.toList = v)
  | .address =>
    ["address", "wallet", "지갑", "주소", "to"].any (·.toList = v) ∨ isJoined "payee" "address" v ∨
      isJoined "wallet" "address" v
  | .amount =>
    ["amount", "금액", "급여", "salary", "usdc", "usdt", "value", "qty", "quantity", "payout", "bonus"].any (·.toList = v)
  | .email => ["email", "메일", "이메일"].any (·.toList = v) ∨ isJoined "e" "mail" v
  | .releaseAt =>
    ["release", "시작", "시작일시", "예약시각"].any (·.toList = v) ∨ isJoined "release" "at" v ∨ isJoined "claim" "from" v ∨
      isJoined "claimable" "from" v ∨ isJoined "release" "time" v

def RecipientField.kinds : List RecipientField := [.name, .address, .amount, .email, .releaseAt]

def classifyHeader (cell : List Char) : Option RecipientField :=
  if trimText cell = [] then none else RecipientField.kinds.find? fun kind => isHeader kind ((trimText cell).map Char.toLower)

def looksLikeAddress (setup : ParserSetup) (cell : List Char) : Bool := setup.isAddress (trimText cell)

/-- The first cell that is not empty starts with `#`, and none after it is an address. -/
def isCommentRow (setup : ParserSetup) (row : List (List Char)) : Bool :=
  match (row.map trimText).filter (· ≠ []) with
  | [] => false
  | cell :: rest => cell.head? = some '#' ∧ !rest.any (looksLikeAddress setup)

/-- `/^[^\s@]+@[^\s@]+\.[^\s@]+$/` -/
def looksLikeEmail (s : List Char) : Bool :=
  let user := s.takeWhile (· ≠ '@')
  let domain := (s.dropWhile (· ≠ '@')).drop 1
  '@' ∈ s ∧ user ≠ [] ∧ '@' ∉ domain ∧ !s.any isWhitespace ∧ '.' ∈ (domain.drop 1).dropLast

structure ParsedRecipient where
  name : List Char
  address : List Char
  amount : List Char
  email : List Char
  releaseAt : List Char
  deriving DecidableEq

/-- What becomes of a row. -/
inductive RowOutcome
  | blank
  | noAddress
  | badAddress
  | badAmount
  | badEmail
  | badDate
  | recipient (r : ParsedRecipient)
  deriving DecidableEq

/-- `/[,_\s]/g` replaced by nothing -/
def cleanAmount (s : List Char) : List Char := s.filter fun c => !(c = ',' ∨ c = '_' ∨ isWhitespace c)

/-- The cell of a field, trimmed; nothing where the row or the header has none. -/
def cellAt (cols : RecipientField → Option ℕ) (row : List (List Char)) (col : RecipientField) : List Char :=
  trimText (((cols col).bind fun i => row[i]?).getD [])

def isBlankRow (row : List (List Char)) : Bool := row.all fun c => trimText c = []

def readRow (setup : ParserSetup) (enabled : List RecipientField) (cols : RecipientField → Option ℕ) (row : List (List Char)) : RowOutcome :=
  let optional := fun col => if col ∈ enabled then cellAt cols row col else []
  if isBlankRow row then .blank
  else if cellAt cols row .address = [] then .noAddress
  else if !looksLikeAddress setup (cellAt cols row .address) then .badAddress
  else if !isDecimal (cleanAmount (cellAt cols row .amount)) then .badAmount
  else if optional .email ≠ [] ∧ !looksLikeEmail (optional .email) then .badEmail
  else if optional .releaseAt ≠ [] ∧ !setup.parsesDate (optional .releaseAt) then .badDate
  else .recipient ⟨optional .name, cellAt cols row .address, cleanAmount (cellAt cols row .amount), optional .email, optional .releaseAt⟩

structure ParseResult where
  rows : List ParsedRecipient
  warnings : List String
  deriving DecidableEq

def RecipientField.text : RecipientField → String
  | .name => "name"
  | .address => "address"
  | .amount => "amount"
  | .email => "email"
  | .releaseAt => "releaseAt"

/-- The columns of a file without a header -/
def positional : RecipientField → Option ℕ
  | .name => some 0
  | .address => some 1
  | .amount => some 2
  | .email => none
  | .releaseAt => none

/-- The column of each field, by the first row where it is a header, and the first row of data. -/
def columnsOf (setup : ParserSetup) (first : List (List Char)) : (RecipientField → Option ℕ) × ℕ :=
  let cls := first.map classifyHeader
  if ¬first.any (looksLikeAddress setup) ∧ 2 ≤ (cls.filter Option.isSome).length then (fun kind => cls.findIdx? (· = some kind), 1)
  else (positional, 0)

/-- A warning for a number of rows, if there are any -/
def skipped (outcomes : List RowOutcome) (outcome : RowOutcome) (why : String) : List String :=
  if 0 < outcomes.count outcome then [s!"Skipped {outcomes.count outcome} row(s) with {why}"] else []

def RowOutcome.parsed : RowOutcome → Option ParsedRecipient
  | .recipient r => some r
  | _ => none

/-- Without the blank rows at the end and without comments -/
def dataRows (setup : ParserSetup) (matrix : List (List (List Char))) : List (List (List Char)) :=
  (matrix.rdropWhile isBlankRow).filter fun row => !isCommentRow setup row

def rowsFromMatrix (setup : ParserSetup) (enabled : List RecipientField) (matrix : List (List (List Char))) : ParseResult :=
  match dataRows setup matrix with
  | [] => ⟨[], ["File is empty."]⟩
  | first :: rows =>
    let (cols, dataStart) := columnsOf setup first
    if cols .address = none then ⟨[], ["Could not find an \"address\" column. Add a header row."]⟩
    else if cols .amount = none then ⟨[], ["Could not find an \"amount\" column. Add a header row."]⟩
    else
      let ignored := [RecipientField.name, .email, .releaseAt].filter fun k => (cols k).isSome ∧ k ∉ enabled
      let outcomes := ((first :: rows).drop dataStart).map (readRow setup enabled cols)
      ⟨outcomes.filterMap RowOutcome.parsed,
        (if ignored ≠ [] then ["Ignored column(s) not enabled in this context: " ++ ", ".intercalate (ignored.map RecipientField.text) ++ "."] else []) ++
          skipped outcomes .noAddress "no address." ++
          skipped outcomes .badAddress "malformed address (expected 0x + 40 hex; mixed-case must match EIP-55 checksum)." ++
          skipped outcomes .badAmount "non-numeric amount." ++ skipped outcomes .badEmail "malformed email." ++
          skipped outcomes .badDate "unparseable release time."⟩

def parseCsvText (setup : ParserSetup) (text : List Char) (enabled : List RecipientField) : ParseResult :=
  rowsFromMatrix setup enabled (scanRows [] [] false text)

/-! ### What is read back of a cell -/

section Split

variable {cur cell rest : List Char} {row : List (List Char)}

theorem doubleQuotes_cons (c : Char) (cell : List Char) :
    doubleQuotes (c :: cell) = (if c = '"' then ['"', '"'] else [c]) ++ doubleQuotes cell := List.flatMap_cons

theorem splitFrom_quote (hrest : rest.head? ≠ some '"') : splitFrom cur true ('"' :: rest) = splitFrom cur false rest := by
  cases rest with
  | nil => rfl
  | cons c rest =>
    have hc : c ≠ '"' := fun h => hrest (congrArg some h)
    rw [splitFrom.eq_def]
    simp [hc]

theorem splitFrom_inside {c : Char} (hc : c ≠ '"') : splitFrom cur true (c :: rest) = splitFrom (cur ++ [c]) true rest := by
  rw [splitFrom.eq_def]
  simp [hc]

theorem splitFrom_comma : splitFrom cur false (',' :: rest) = trimText cur :: splitFrom [] false rest := rfl

theorem splitFrom_outside {c : Char} (hc : c ≠ ',') (hquote : cur = [] → c ≠ '"') :
    splitFrom cur false (c :: rest) = splitFrom (cur ++ [c]) false rest := by
  rw [splitFrom.eq_def]
  have : ¬(c = '"' ∧ cur = []) := fun h => hquote h.2 h.1
  simp [hc, this]

theorem splitFrom_plain (hcomma : ',' ∉ cell) (hquote : cur = [] → cell.head? ≠ some '"') :
    splitFrom cur false (cell ++ rest) = splitFrom (cur ++ cell) false rest := by
  induction cell generalizing cur with
  | nil => rw [List.append_nil, List.nil_append]
  | cons c cell ih =>
    obtain ⟨hc, hcell⟩ := List.ne_and_not_mem_of_not_mem_cons hcomma
    rw [List.cons_append, splitFrom_outside hc.symm fun h hq => hquote h (congrArg some hq), ih hcell (fun h => absurd h (by simp)),
      List.append_assoc, List.singleton_append]

theorem splitFrom_doubleQuotes (hrest : rest.head? ≠ some '"') :
    splitFrom cur true (doubleQuotes cell ++ '"' :: rest) = splitFrom (cur ++ cell) false rest := by
  induction cell generalizing cur with
  | nil => rw [List.append_nil]; exact splitFrom_quote hrest
  | cons c cell ih =>
    rw [doubleQuotes_cons, List.append_assoc]
    split
    · next hc =>
      subst hc
      show splitFrom (cur ++ ['"']) true (doubleQuotes cell ++ '"' :: rest) = _
      rw [ih, List.append_assoc, List.singleton_append]
    · next hc =>
      show splitFrom cur true (c :: (doubleQuotes cell ++ '"' :: rest)) = _
      rw [splitFrom_inside hc, ih, List.append_assoc, List.singleton_append]

theorem needsQuotes_false (h : needsQuotes cell = false) : ',' ∉ cell ∧ '"' ∉ cell ∧ '\r' ∉ cell ∧ '\n' ∉ cell := by
  have hall := List.any_eq_false.mp h
  refine ⟨?_, ?_, ?_, ?_⟩ <;> exact fun hmem => absurd (by decide) (hall _ hmem)

theorem splitFrom_open : splitFrom [] false ('"' :: rest) = splitFrom [] true rest := by
  rw [splitFrom.eq_def]
  simp

theorem splitFrom_csvEscape (value : List Char) (hrest : rest.head? ≠ some '"') :
    splitFrom [] false (csvEscape value ++ rest) = splitFrom (guarded value) false rest := by
  rw [csvEscape]
  split
  · rw [List.cons_append, List.append_assoc, splitFrom_open]
    exact splitFrom_doubleQuotes hrest
  · next hplain =>
    obtain ⟨hcomma, hquote, -⟩ := needsQuotes_false (Bool.eq_false_iff.mpr hplain)
    exact splitFrom_plain hcomma fun _ h => hquote (List.mem_of_head? h)

/-- A line of escaped cells is split into the cells, each guarded and trimmed. -/
theorem splitCsvLine_csvEscape {values : List (List Char)} (hvalues : values ≠ []) :
    splitCsvLine (List.intercalate [','] (values.map csvEscape)) = values.map fun value => trimText (guarded value) := by
  rw [splitCsvLine]
  induction values with
  | nil => exact absurd rfl hvalues
  | cons value values ih =>
    cases values with
    | nil =>
      rw [List.map_singleton, List.intercalate_singleton, ← List.append_nil (csvEscape value), splitFrom_csvEscape value (by simp)]
      rfl
    | cons next values =>
      rw [List.map_cons, List.map_cons, List.intercalate_cons_cons, ← List.map_cons, List.append_assoc, splitFrom_csvEscape value (by simp),
        List.singleton_append, splitFrom_comma, ih (List.cons_ne_nil _ _)]
      rfl

/-! ### What is read back of a row -/

theorem scanRows_quote (hrest : rest.head? ≠ some '"') : scanRows row cur true ('"' :: rest) = scanRows row cur false rest := by
  cases rest with
  | nil => rfl
  | cons c rest =>
    have hc : c ≠ '"' := fun h => hrest (congrArg some h)
    rw [scanRows.eq_def]
    simp [hc]

theorem scanRows_inside {c : Char} (hc : c ≠ '"') : scanRows row cur true (c :: rest) = scanRows row (cur ++ [c]) true rest := by
  rw [scanRows.eq_def]
  simp [hc]

theorem scanRows_comma : scanRows row cur false (',' :: rest) = scanRows (row ++ [trimText cur]) [] false rest := by
  rw [scanRows.eq_def]
  simp

theorem scanRows_newline : scanRows row cur false ('\n' :: rest) = (row ++ [trimText cur]) :: scanRows [] [] false rest := by
  rw [scanRows.eq_def]
  simp

theorem scanRows_outside {c : Char} (hc : c ∉ [',', '"', '\r', '\n']) :
    scanRows row cur false (c :: rest) = scanRows row (cur ++ [c]) false rest := by
  simp only [List.mem_cons, List.not_mem_nil, or_false, not_or] at hc
  rw [scanRows.eq_def]
  simp [hc]

theorem scanRows_plain (hcell : ∀ c ∈ cell, c ∉ [',', '"', '\r', '\n']) :
    scanRows row cur false (cell ++ rest) = scanRows row (cur ++ cell) false rest := by
  induction cell generalizing cur with
  | nil => rw [List.append_nil, List.nil_append]
  | cons c cell ih =>
    obtain ⟨hc, hcell⟩ := List.forall_mem_cons.mp hcell
    rw [List.cons_append, scanRows_outside hc, ih hcell, List.append_assoc, List.singleton_append]

theorem scanRows_doubleQuotes (hrest : rest.head? ≠ some '"') :
    scanRows row cur true (doubleQuotes cell ++ '"' :: rest) = scanRows row (cur ++ cell) false rest := by
  induction cell generalizing cur with
  | nil => rw [List.append_nil]; exact scanRows_quote hrest
  | cons c cell ih =>
    rw [doubleQuotes_cons, List.append_assoc]
    split
    · next hc =>
      subst hc
      show scanRows row (cur ++ ['"']) true (doubleQuotes cell ++ '"' :: rest) = _
      rw [ih, List.append_assoc, List.singleton_append]
    · next hc =>
      show scanRows row cur true (c :: (doubleQuotes cell ++ '"' :: rest)) = _
      rw [scanRows_inside hc, ih, List.append_assoc, List.singleton_append]

theorem scanRows_open : scanRows row [] false ('"' :: rest) = scanRows row [] true rest := by
  rw [scanRows.eq_def]
  simp

theorem scanRows_csvEscape (value : List Char) (hrest : rest.head? ≠ some '"') :
    scanRows row [] false (csvEscape value ++ rest) = scanRows row (guarded value) false rest := by
  rw [csvEscape]
  split
  · rw [List.cons_append, List.append_assoc, scanRows_open]
    exact scanRows_doubleQuotes hrest
  · next hplain =>
    have hall := List.any_eq_false.mp (Bool.eq_false_iff.mpr hplain)
    refine scanRows_plain fun c hc => ?_
    have hc' := of_decide_eq_false (Bool.eq_false_iff.mpr (hall c hc))
    simp only [List.mem_cons, List.not_mem_nil, or_false, not_or] at hc' ⊢
    exact ⟨hc'.2.1, hc'.1, hc'.2.2⟩

theorem scanRows_line {values : List (List Char)} (hvalues : values ≠ []) :
    scanRows row [] false (List.intercalate [','] (values.map csvEscape) ++ '\n' :: rest) =
      (row ++ values.map fun value => trimText (guarded value)) :: scanRows [] [] false rest := by
  induction values generalizing row with
  | nil => exact absurd rfl hvalues
  | cons value values ih =>
    cases values with
    | nil => rw [List.map_singleton, List.intercalate_singleton, scanRows_csvEscape value (by simp), scanRows_newline, List.map_singleton]
    | cons next values =>
      rw [List.map_cons, List.map_cons, List.intercalate_cons_cons, ← List.map_cons, List.append_assoc, List.append_assoc,
        scanRows_csvEscape value (by simp), List.singleton_append, scanRows_comma, ih (List.cons_ne_nil _ _), List.append_assoc,
        List.singleton_append]
      rfl

theorem scanRows_lastLine {values : List (List Char)} (hvalues : values ≠ []) (hrow : row ≠ [] ∨ 2 ≤ values.length) :
    scanRows row [] false (List.intercalate [','] (values.map csvEscape)) = [row ++ values.map fun value => trimText (guarded value)] := by
  induction values generalizing row with
  | nil => exact absurd rfl hvalues
  | cons value values ih =>
    cases values with
    | nil =>
      have hne : row ≠ [] := hrow.resolve_right (fun h => absurd h (by simp))
      rw [List.map_singleton, List.intercalate_singleton, ← List.append_nil (csvEscape value), scanRows_csvEscape value (by simp), scanRows.eq_def]
      simp [hne]
    | cons next values =>
      rw [List.map_cons, List.map_cons, List.intercalate_cons_cons, ← List.map_cons, List.append_assoc, scanRows_csvEscape value (by simp),
        List.singleton_append, scanRows_comma, ih (List.cons_ne_nil _ _) (Or.inl (by simp)), List.append_assoc, List.singleton_append]
      rfl

/-- Lines of at least two escaped cells each are read as the rows of their cells, each guarded and trimmed. -/
theorem scanRows_lines {lines : List (List (List Char))} (hlines : ∀ values ∈ lines, 2 ≤ values.length) :
    scanRows [] [] false (List.intercalate ['\n'] (lines.map fun values => List.intercalate [','] (values.map csvEscape))) =
      lines.map fun values => values.map fun value => trimText (guarded value) := by
  induction lines with
  | nil => rfl
  | cons values lines ih =>
    obtain ⟨hlength, hlines⟩ := List.forall_mem_cons.mp hlines
    have hvalues : values ≠ [] := List.ne_nil_of_length_pos (Nat.lt_of_lt_of_le (by decide) hlength)
    cases lines with
    | nil =>
      rw [List.map_singleton, List.intercalate_singleton, scanRows_lastLine hvalues (Or.inr hlength)]
      rfl
    | cons next lines =>
      rw [List.map_cons, List.map_cons, List.intercalate_cons_cons, List.append_assoc, List.singleton_append, scanRows_line hvalues]
      exact congrArg (List.cons _) (ih hlines)

end Split

end Recipients

end ScatterDex
