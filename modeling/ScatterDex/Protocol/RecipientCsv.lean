import ScatterDex.Pay.RecipientRows

/-!
# Recipient lists through CSV

The wizard reads back the lines it built of its recipients, and the grid and the text of the recipients editor read back the rows they wrote, but for the guard before the marker of a formula.
-/

namespace ScatterDex

open Sdk Recipients

namespace Recipients

/-! ### Trimmed text -/

section Trim

variable {s t : List Char}

theorem trimText_eq_self (hfirst : ∀ c ∈ s.head?, isWhitespace c = false) (hlast : ∀ c ∈ s.getLast?, isWhitespace c = false) :
    trimText s = s := by
  have hdrop : s.dropWhile isWhitespace = s := by
    cases s with
    | nil => rfl
    | cons c s => exact List.dropWhile_cons_of_neg (by rw [hfirst c rfl]; decide)
  rw [trimText, hdrop, List.rdropWhile_eq_self_iff]
  intro hne hspace
  exact absurd (hlast _ (List.getLast_mem_getLast? hne)) (by rw [hspace]; decide)

theorem head?_trimText {c : Char} (hc : c ∈ (trimText s).head?) : isWhitespace c = false := by
  obtain ⟨rest, hrest⟩ := List.rdropWhile_prefix isWhitespace (s.dropWhile isWhitespace)
  have hhead : (s.dropWhile isWhitespace).head? = some c := by
    have htrim : ((s.dropWhile isWhitespace).rdropWhile isWhitespace).head? = some c := hc
    rw [← hrest, List.head?_append, htrim, Option.some_or]
  have hnot := List.head?_dropWhile_not isWhitespace s
  rw [hhead] at hnot
  exact hnot

theorem getLast?_trimText {c : Char} (hc : c ∈ (trimText s).getLast?) : isWhitespace c = false := by
  have hne : trimText s ≠ [] := List.ne_nil_of_mem (List.mem_of_getLast? hc)
  rw [Option.mem_def, List.getLast?_eq_getLast_of_ne_nil hne, Option.some_inj] at hc
  rw [← hc]
  exact Bool.eq_false_iff.mpr (List.rdropWhile_last_not isWhitespace _ hne)

theorem trimText_trimText (s : List Char) : trimText (trimText s) = trimText s :=
  trimText_eq_self (fun _ => head?_trimText) (fun _ => getLast?_trimText)

theorem mem_trimText {c : Char} (hc : c ∈ s) (hspace : isWhitespace c = false) : c ∈ trimText s := by
  have hnot : ¬isWhitespace c = true := Bool.eq_false_iff.mp hspace
  have hdrop : c ∈ s.dropWhile isWhitespace := by
    rw [← List.takeWhile_append_dropWhile (p := isWhitespace) (l := s), List.mem_append] at hc
    exact hc.resolve_left fun h => hnot (List.mem_takeWhile_imp h)
  rw [← List.rdropWhile_append_rtakeWhile (p := isWhitespace) (l := s.dropWhile isWhitespace), List.mem_append] at hdrop
  exact hdrop.resolve_right fun h => hnot (List.mem_rtakeWhile_imp h)

theorem length_trimText_le (s : List Char) : (trimText s).length ≤ s.length :=
  ((List.rdropWhile_prefix isWhitespace _).length_le).trans (List.dropWhile_suffix _).length_le

theorem trimText_csvSafeLabel (label : List Char) : trimText (csvSafeLabel label) = csvSafeLabel label := trimText_trimText _

theorem mem_of_mem_trimText {c : Char} (hc : c ∈ trimText s) : c ∈ s :=
  (List.dropWhile_suffix _).subset ((List.rdropWhile_prefix isWhitespace _).subset hc)

theorem not_mem_csvSafeLabel {label : List Char} {c : Char} (hc : c ∈ [',', '\n', '\r']) : c ∉ csvSafeLabel label := by
  intro hmem
  obtain ⟨d, -, hd⟩ := List.mem_map.mp (mem_of_mem_trimText hmem)
  split at hd
  · subst hd
    exact absurd hc (by decide)
  · next hnot => exact hnot (hd ▸ hc)

end Trim

/-! ### The first cell of a line -/

section FirstCell

variable {cur text u v : List Char}

theorem splitFrom_length (cur : List Char) (quoted : Bool) (text : List Char) :
    ∃ first rest, splitFrom cur quoted text = first :: rest ∧ first.length ≤ cur.length + text.length := by
  fun_induction splitFrom cur quoted text with
  | case1 cur => exact ⟨_, _, rfl, length_trimText_le _⟩
  | case6 cur rest hquote ih => exact ⟨_, _, rfl, (length_trimText_le _).trans (Nat.le_add_right _ _)⟩
  | case2 cur rest ih =>
    obtain ⟨first, cells, heq, hlength⟩ := ih
    refine ⟨first, cells, heq, hlength.trans ?_⟩
    simp only [List.length_append, List.length_cons, List.length_nil]
    omega
  | case3 | case4 | case5 | case7 =>
    rename_i ih
    obtain ⟨first, cells, heq, hlength⟩ := ih
    refine ⟨first, cells, heq, hlength.trans ?_⟩
    simp only [List.length_append, List.length_cons, List.length_nil]
    omega

theorem splitFrom_comma_mem (cur : List Char) (quoted : Bool) (text : List Char) (hcur : ',' ∈ cur) :
    ∃ first rest, splitFrom cur quoted text = first :: rest ∧ ',' ∈ first := by
  fun_induction splitFrom cur quoted text with
  | case1 cur => exact ⟨_, _, rfl, mem_trimText hcur (by decide)⟩
  | case6 cur rest hquote ih => exact ⟨_, _, rfl, mem_trimText hcur (by decide)⟩
  | case3 cur rest hnext ih => exact ih hcur
  | case5 cur c rest hquote ih => exact ih hcur
  | case2 cur rest ih => exact ih (List.mem_append_left _ hcur)
  | case4 cur c rest hnext hquote ih => exact ih (List.mem_append_left _ hcur)
  | case7 cur c rest hquote hcomma ih => exact ih (List.mem_append_left _ hcur)

/-- The first cell of a text with a comma ends at the comma or holds it. -/
theorem splitFrom_until_comma (cur : List Char) (quoted : Bool) (u v : List Char) :
    ∃ first rest, splitFrom cur quoted (u ++ ',' :: v) = first :: rest ∧ (',' ∈ first ∨ first.length ≤ cur.length + u.length) := by
  have hlonger : ∀ {cur u w : List Char} {n : ℕ} {cells : List (List Char)}, n + w.length ≤ cur.length + u.length →
      (∃ first rest, cells = first :: rest ∧ (',' ∈ first ∨ first.length ≤ n + w.length)) →
      ∃ first rest, cells = first :: rest ∧ (',' ∈ first ∨ first.length ≤ cur.length + u.length) :=
    by
    intro cur u w n cells hle hcells
    obtain ⟨first, rest, heq, hfirst⟩ := hcells
    exact ⟨first, rest, heq, hfirst.imp_right (·.trans hle)⟩
  generalize htext : u ++ ',' :: v = text
  fun_induction splitFrom cur quoted text generalizing u with
  | case1 cur => exact absurd htext (by simp)
  | case2 cur rest ih =>
    cases u with
    | nil => exact absurd (List.cons.inj htext).1 (by decide)
    | cons d u =>
      cases u with
      | nil => exact absurd (List.cons.inj (List.cons.inj htext).2).1 (by decide)
      | cons e w =>
        apply hlonger _ (ih w (List.cons.inj (List.cons.inj htext).2).2)
        simp only [List.length_append, List.length_cons, List.length_nil]
        omega
  | case6 cur rest hquote ih => exact ⟨_, _, rfl, Or.inr ((length_trimText_le _).trans (Nat.le_add_right _ _))⟩
  | case3 cur rest hnext ih =>
    cases u with
    | nil => exact absurd (List.cons.inj htext).1 (by decide)
    | cons d w =>
      apply hlonger _ (ih w (List.cons.inj htext).2)
      exact Nat.add_le_add_left (Nat.le_succ _) _
  | case4 cur c rest hnext hquote ih =>
    cases u with
    | nil =>
      obtain ⟨rfl, -⟩ := List.cons.inj htext
      obtain ⟨first, cells, heq, hfirst⟩ := splitFrom_comma_mem (cur ++ [',']) true rest (by simp)
      exact ⟨first, cells, heq, Or.inl hfirst⟩
    | cons d w =>
      apply hlonger _ (ih w (List.cons.inj htext).2)
      simp only [List.length_append, List.length_cons, List.length_nil]
      omega
  | case5 cur c rest hquote ih =>
    cases u with
    | nil => exact absurd ((List.cons.inj htext).1.trans hquote.1) (by decide)
    | cons d w =>
      apply hlonger _ (ih w (List.cons.inj htext).2)
      exact Nat.add_le_add_left (Nat.le_succ _) _
  | case7 cur c rest hquote hcomma ih =>
    cases u with
    | nil => exact absurd (List.cons.inj htext).1.symm hcomma
    | cons d w =>
      apply hlonger _ (ih w (List.cons.inj htext).2)
      simp only [List.length_append, List.length_cons, List.length_nil]
      omega

end FirstCell

/-! ### Rows of the editor -/

/-- What a cell holds once it was written and read back. -/
def readBack (r : Recipient) (col : RecipientField) : List Char :=
  trimText (guarded (if col = .name then csvSafeLabel (r col) else r col))

theorem formatRecipientCsvRow_eq (r : Recipient) (columns : List RecipientField) :
    formatRecipientCsvRow r columns =
      List.intercalate [','] ((columns.map fun col => if col = .name then csvSafeLabel (r col) else r col).map csvEscape) := by
  rw [formatRecipientCsvRow, List.map_map]
  congr 1
  apply List.map_congr_left
  intro col _
  simp only [Function.comp_apply]
  split <;> rfl

theorem splitCsvLine_formatRecipientCsvRow (r : Recipient) {columns : List RecipientField} (hcolumns : columns ≠ []) :
    splitCsvLine (formatRecipientCsvRow r columns) = columns.map (readBack r) := by
  rw [formatRecipientCsvRow_eq, splitCsvLine_csvEscape (by simpa using hcolumns), List.map_map]
  rfl

/-- `isAddress` of ethers takes hexadecimal digits, with their mark or without, and ICAP texts. -/
structure ParserSetup.Lawful (setup : ParserSetup) : Prop where
  alphanumeric : ∀ a, setup.isAddress a = true → ∀ c ∈ a, c.isAlphanum = true
  long : ∀ a, setup.isAddress a = true → 34 ≤ a.length

theorem startsFormula_eq_false {s : List Char} (hs : ∀ c ∈ trimText s, c ∉ ['=', '+', '-', '@']) : startsFormula s = false := by
  cases s with
  | nil => rfl
  | cons c s =>
    apply Bool.eq_false_iff.mpr
    intro hformula
    have hmem : c ∈ ['=', '+', '-', '@'] := of_decide_eq_true hformula
    have hspace : isWhitespace c = false := by
      simp only [List.mem_cons, List.not_mem_nil, or_false] at hmem
      rcases hmem with rfl | rfl | rfl | rfl <;> decide
    exact hs c (mem_trimText List.mem_cons_self hspace) hmem

theorem readBack_eq_trimText {r : Recipient} {col : RecipientField} (hcol : col ≠ .name)
    (hr : ∀ c ∈ trimText (r col), c ∉ ['=', '+', '-', '@']) : readBack r col = trimText (r col) := by
  rw [readBack, if_neg hcol, guarded, startsFormula_eq_false hr]
  rfl

theorem isDecimal_chars {s : List Char} (hs : isDecimal s = true) : ∀ c ∈ s, isDigit c = true ∨ c = '.' := by
  simp only [isDecimal, decide_eq_true_eq, List.all_eq_true] at hs
  obtain ⟨-, hwhole, hfrac, -⟩ := hs
  intro c hc
  rw [← List.takeWhile_append_dropWhile (p := (· ≠ '.')) (l := s), List.mem_append] at hc
  cases hc with
  | inl hc => exact Or.inl (hwhole c hc)
  | inr hc =>
    have hnot := List.head?_dropWhile_not (· ≠ '.') s
    cases hpoint : s.dropWhile (· ≠ '.') with
    | nil =>
      rw [hpoint] at hc
      exact absurd hc List.not_mem_nil
    | cons d frac =>
      rw [hpoint] at hnot hfrac hc
      cases List.mem_cons.mp hc with
      | inl heq => exact Or.inr (heq.trans (not_not.mp (of_decide_eq_false hnot)))
      | inr hmem => exact Or.inl (hfrac c hmem)

theorem isDecimal_plain {s : List Char} (hs : isDecimal s = true) {c : Char} (hc : c ∈ s) :
    c ∉ ['=', '+', '-', '@'] ∧ ¬(c = ',' ∨ c = '_' ∨ isWhitespace c = true) := by
  cases isDecimal_chars hs c hc with
  | inr hdot =>
    subst hdot
    decide
  | inl hdigit =>
    have hrange : 48 ≤ c.toNat ∧ c.toNat ≤ 57 := by
      simp only [isDigit, Bool.decide_and, Bool.and_eq_true, decide_eq_true_eq, Char.le_def, UInt32.le_iff_toNat_le] at hdigit
      exact hdigit
    have hall : ∀ n < 58, 48 ≤ n → Char.ofNat n ∉ ['=', '+', '-', '@'] ∧
        ¬(Char.ofNat n = ',' ∨ Char.ofNat n = '_' ∨ isWhitespace (Char.ofNat n) = true) := by decide
    have hplain := hall c.toNat (Nat.lt_succ_of_le hrange.2) hrange.1
    rwa [Char.ofNat_toNat] at hplain

theorem cleanAmount_of_isDecimal {s : List Char} (hs : isDecimal s = true) : cleanAmount s = s := by
  apply List.filter_eq_self.mpr
  intro c hc
  rw [decide_eq_false (isDecimal_plain hs hc).2]
  rfl

/-- A row the parser takes for a recipient -/
structure Recipient.Payable (setup : ParserSetup) (r : Recipient) : Prop where
  address : setup.isAddress (trimText (r .address)) = true
  amount : isDecimal (trimText (r .amount)) = true

section Rows

variable {setup : ParserSetup} {enabled columns : List RecipientField} {cols : RecipientField → Option ℕ} {row : List (List Char)} {r : Recipient}

theorem ParserSetup.Lawful.plain (hlaw : setup.Lawful) {a : List Char} (ha : setup.isAddress a = true) {c : Char} (hc : c ∈ a) :
    c ∉ ['=', '+', '-', '@'] ∧ c ≠ '#' := by
  have halpha := hlaw.alphanumeric a ha c hc
  refine ⟨?_, ?_⟩
  · intro hmem
    simp only [List.mem_cons, List.not_mem_nil, or_false] at hmem
    rcases hmem with rfl | rfl | rfl | rfl <;> exact absurd halpha (by decide)
  · rintro rfl
    exact absurd halpha (by decide)

theorem ParserSetup.Lawful.ne_nil (hlaw : setup.Lawful) {a : List Char} (ha : setup.isAddress a = true) : a ≠ [] := by
  rintro rfl
  exact absurd (hlaw.long [] ha) (by decide)

theorem Recipient.Payable.readBack_address (hlaw : setup.Lawful) (hr : r.Payable setup) : readBack r .address = trimText (r .address) :=
  readBack_eq_trimText (by decide) fun _ hc => (hlaw.plain hr.address hc).1

theorem Recipient.Payable.readBack_amount (hr : r.Payable setup) : readBack r .amount = trimText (r .amount) :=
  readBack_eq_trimText (by decide) fun _ hc => (isDecimal_plain hr.amount hc).1

theorem isBlankRow_eq_false {cell : List Char} (hcell : cell ∈ row) (hne : trimText cell ≠ []) : isBlankRow row = false := by
  rw [isBlankRow, List.all_eq_false]
  exact ⟨cell, hcell, by rw [decide_eq_false hne]; decide⟩

theorem isBlankRow_of_cellAt {col : RecipientField} (hne : cellAt cols row col ≠ []) : isBlankRow row = false := by
  rw [cellAt] at hne
  cases hcell : (cols col).bind fun i => row[i]? with
  | none =>
    rw [hcell] at hne
    exact absurd rfl hne
  | some cell =>
    rw [hcell] at hne
    obtain ⟨i, -, hi⟩ := Option.bind_eq_some_iff.mp hcell
    exact isBlankRow_eq_false (List.mem_of_getElem? hi) hne

/-- The optional cell of a field that the editor has -/
def enabledCell (enabled : List RecipientField) (cell : List Char) (col : RecipientField) : List Char := if col ∈ enabled then cell else []

theorem readRow_eq (hlaw : setup.Lawful) (haddress : setup.isAddress (cellAt cols row .address) = true)
    (hamount : isDecimal (cellAt cols row .amount) = true)
    (hemail : enabledCell enabled (cellAt cols row .email) .email ≠ [] → looksLikeEmail (enabledCell enabled (cellAt cols row .email) .email) = true)
    (hdate : enabledCell enabled (cellAt cols row .releaseAt) .releaseAt ≠ [] →
      setup.parsesDate (enabledCell enabled (cellAt cols row .releaseAt) .releaseAt) = true) :
    readRow setup enabled cols row =
      .recipient ⟨enabledCell enabled (cellAt cols row .name) .name, cellAt cols row .address, cellAt cols row .amount,
        enabledCell enabled (cellAt cols row .email) .email, enabledCell enabled (cellAt cols row .releaseAt) .releaseAt⟩ := by
  have hne := hlaw.ne_nil haddress
  have hlooks : looksLikeAddress setup (cellAt cols row .address) = true := by
    rw [looksLikeAddress, cellAt, trimText_trimText]
    exact haddress
  have hemail' : ¬(enabledCell enabled (cellAt cols row .email) .email ≠ [] ∧
      (!looksLikeEmail (enabledCell enabled (cellAt cols row .email) .email)) = true) := by
    rintro ⟨hsome, hbad⟩
    rw [hemail hsome] at hbad
    exact absurd hbad (by decide)
  have hdate' : ¬(enabledCell enabled (cellAt cols row .releaseAt) .releaseAt ≠ [] ∧
      (!setup.parsesDate (enabledCell enabled (cellAt cols row .releaseAt) .releaseAt)) = true) := by
    rintro ⟨hsome, hbad⟩
    rw [hdate hsome] at hbad
    exact absurd hbad (by decide)
  rw [readRow, isBlankRow_of_cellAt hne, if_neg (by decide), if_neg hne, hlooks, cleanAmount_of_isDecimal hamount, hamount]
  exact (if_neg (by decide)).trans ((if_neg (by decide)).trans ((if_neg hemail').trans (if_neg hdate')))

/-- A row stays in the file: it is not blank and no comment. -/
structure Kept (setup : ParserSetup) (row : List (List Char)) : Prop where
  blank : isBlankRow row = false
  comment : isCommentRow setup row = false

theorem dataRows_eq {matrix : List (List (List Char))} (hmatrix : ∀ row ∈ matrix, Kept setup row) : dataRows setup matrix = matrix := by
  have hdrop : matrix.rdropWhile isBlankRow = matrix := by
    rw [List.rdropWhile_eq_self_iff]
    intro hne hblank
    exact absurd hblank (by rw [(hmatrix _ (List.getLast_mem hne)).blank]; decide)
  rw [dataRows, hdrop]
  apply List.filter_eq_self.mpr
  intro row hrow
  rw [(hmatrix row hrow).comment]
  rfl

theorem Kept.of_address (hlaw : setup.Lawful) {cell : List Char} (hcell : cell ∈ row) (haddress : looksLikeAddress setup cell = true) :
    Kept setup row := by
  have hne : trimText cell ≠ [] := hlaw.ne_nil haddress
  refine ⟨isBlankRow_eq_false hcell hne, ?_⟩
  have hmem : trimText cell ∈ (row.map trimText).filter (· ≠ []) :=
    List.mem_filter.mpr ⟨List.mem_map_of_mem hcell, decide_eq_true hne⟩
  rw [isCommentRow]
  cases hcells : (row.map trimText).filter (· ≠ []) with
  | nil => rfl
  | cons first rest =>
    rw [hcells] at hmem
    apply decide_eq_false
    rintro ⟨hhash, hnone⟩
    cases List.mem_cons.mp hmem with
    | inl heq =>
      rw [← heq] at hhash
      exact (hlaw.plain haddress (List.mem_of_head? hhash)).2 rfl
    | inr hrest =>
      have hany : rest.any (looksLikeAddress setup) = true :=
        List.any_eq_true.mpr ⟨_, hrest, by rw [looksLikeAddress, trimText_trimText]; exact haddress⟩
      rw [hany] at hnone
      exact absurd hnone (by decide)

/-- The cell of a field, where the row was written with it -/
def writtenCell (columns : List RecipientField) (r : Recipient) (col : RecipientField) : List Char :=
  if col ∈ columns then readBack r col else []

/-- What the parser makes of a row that was written with the given columns. -/
def restored (enabled columns : List RecipientField) (r : Recipient) : ParsedRecipient :=
  ⟨enabledCell enabled (writtenCell columns r .name) .name, trimText (r .address), trimText (r .amount),
    enabledCell enabled (writtenCell columns r .email) .email, enabledCell enabled (writtenCell columns r .releaseAt) .releaseAt⟩

/-- What the optional columns of a row have to hold -/
structure Recipient.Contactable (setup : ParserSetup) (enabled columns : List RecipientField) (r : Recipient) : Prop where
  email : enabledCell enabled (writtenCell columns r .email) .email ≠ [] →
    looksLikeEmail (enabledCell enabled (writtenCell columns r .email) .email) = true
  releaseAt : enabledCell enabled (writtenCell columns r .releaseAt) .releaseAt ≠ [] →
    setup.parsesDate (enabledCell enabled (writtenCell columns r .releaseAt) .releaseAt) = true

theorem readRow_written (hlaw : setup.Lawful) (hcells : cellAt cols row = writtenCell columns r) (haddress : .address ∈ columns)
    (hamount : .amount ∈ columns) (hpay : r.Payable setup) (hcontact : r.Contactable setup enabled columns) :
    readRow setup enabled cols row = .recipient (restored enabled columns r) := by
  have haddr : cellAt cols row .address = trimText (r .address) := by
    rw [hcells, writtenCell, if_pos haddress, hpay.readBack_address hlaw]
  have hamt : cellAt cols row .amount = trimText (r .amount) := by
    rw [hcells, writtenCell, if_pos hamount, hpay.readBack_amount]
  rw [readRow_eq hlaw (haddr ▸ hpay.address) (hamt ▸ hpay.amount) (hcells ▸ hcontact.email) (hcells ▸ hcontact.releaseAt), haddr, hamt, hcells]
  rfl

theorem skipped_recipients (rs : List ParsedRecipient) (outcome : RowOutcome) (houtcome : outcome.parsed = none) (why : String) :
    skipped (rs.map RowOutcome.recipient) outcome why = [] := by
  have hcount : (rs.map RowOutcome.recipient).count outcome = 0 := by
    rw [List.count_eq_zero]
    intro hmem
    obtain ⟨r, -, rfl⟩ := List.mem_map.mp hmem
    exact absurd houtcome (by simp [RowOutcome.parsed])
  rw [skipped, hcount, if_neg (Nat.lt_irrefl 0)]

theorem trimText_readBack (r : Recipient) (col : RecipientField) : trimText (readBack r col) = readBack r col := trimText_trimText _

theorem rowsFromMatrix_rows {first : List (List Char)} {rows : List (List (List Char))} {dataStart : ℕ} {rs : List ParsedRecipient}
    (hkept : ∀ row ∈ first :: rows, Kept setup row) (hcols : columnsOf setup first = (cols, dataStart))
    (haddress : cols .address ≠ none) (hamount : cols .amount ≠ none)
    (hread : ((first :: rows).drop dataStart).map (readRow setup enabled cols) = rs.map RowOutcome.recipient) :
    (rowsFromMatrix setup enabled (first :: rows)).rows = rs ∧
      ((∀ col, (cols col).isSome = true → col ∈ enabled) → (rowsFromMatrix setup enabled (first :: rows)).warnings = []) := by
  have hrows : rowsFromMatrix setup enabled (first :: rows) =
      ⟨rs, if [RecipientField.name, .email, .releaseAt].filter (fun k => (cols k).isSome ∧ k ∉ enabled) ≠ [] then
        ["Ignored column(s) not enabled in this context: " ++
          ", ".intercalate (([RecipientField.name, .email, .releaseAt].filter fun k => (cols k).isSome ∧ k ∉ enabled).map RecipientField.text) ++ "."]
        else []⟩ := by
    rw [rowsFromMatrix, dataRows_eq hkept]
    simp only [hcols, haddress, hamount, if_false, hread, skipped_recipients rs .noAddress rfl, skipped_recipients rs .badAddress rfl, skipped_recipients rs .badAmount rfl,
      skipped_recipients rs .badEmail rfl, skipped_recipients rs .badDate rfl, List.append_nil, List.filterMap_map]
    rw [show RowOutcome.parsed ∘ RowOutcome.recipient = some from rfl, List.filterMap_some]
  rw [hrows]
  refine ⟨rfl, fun henabled => if_neg (not_not.mpr ?_)⟩
  apply List.filter_eq_nil_iff.mpr
  intro col _ hignored
  have hboth := of_decide_eq_true hignored
  exact hboth.2 (henabled col hboth.1)

/-! #### Without a header -/

theorem cellAt_positional (r : Recipient) (more : List RecipientField) :
    cellAt positional ((.name :: .address :: .amount :: more).map (readBack r)) = writtenCell [.name, .address, .amount] r := by
  funext col
  cases col with
  | name | address | amount => exact trimText_readBack r _
  | email | releaseAt => rfl

theorem scanRows_formatRecipientCsvRow {columns : List RecipientField} (hcolumns : 2 ≤ columns.length) (header : List (List (List Char)))
    (hheader : ∀ values ∈ header, 2 ≤ values.length) (rs : List Recipient) :
    scanRows [] [] false (List.intercalate ['\n'] ((header.map fun values => List.intercalate [','] (values.map csvEscape)) ++
        rs.map fun r => formatRecipientCsvRow r columns)) =
      (header.map fun values => values.map fun value => trimText (guarded value)) ++ rs.map fun r => columns.map (readBack r) := by
  have hlines : (rs.map fun r => formatRecipientCsvRow r columns) =
      (rs.map fun r => columns.map fun col => if col = .name then csvSafeLabel (r col) else r col).map
        fun values => List.intercalate [','] (values.map csvEscape) := by
    rw [List.map_map]
    exact List.map_congr_left fun r _ => formatRecipientCsvRow_eq r columns
  have hcells : (rs.map fun r => columns.map (readBack r)) =
      (rs.map fun r => columns.map fun col => if col = .name then csvSafeLabel (r col) else r col).map
        fun values => values.map fun value => trimText (guarded value) := by
    rw [List.map_map]
    apply List.map_congr_left
    intro r _
    rw [Function.comp_apply, List.map_map]
    rfl
  rw [hlines, hcells, ← List.map_append, ← List.map_append]
  apply scanRows_lines
  intro values hvalues
  cases List.mem_append.mp hvalues with
  | inl hmem => exact hheader values hmem
  | inr hmem =>
    obtain ⟨r, -, rfl⟩ := List.mem_map.mp hmem
    rw [List.length_map]
    exact hcolumns

theorem Kept.of_payable (hlaw : setup.Lawful) (hr : r.Payable setup) (hcolumns : .address ∈ columns) : Kept setup (columns.map (readBack r)) := by
  refine Kept.of_address hlaw (List.mem_map_of_mem hcolumns) ?_
  rw [looksLikeAddress, trimText_readBack, hr.readBack_address hlaw]
  exact hr.address

theorem parseCsvText_rows (hlaw : setup.Lawful) {rs : List Recipient} (hne : rs ≠ []) (hrs : ∀ r ∈ rs, r.Payable setup)
    (more : List RecipientField) :
    (parseCsvText setup (List.intercalate ['\n'] (rs.map fun r => formatRecipientCsvRow r (.name :: .address :: .amount :: more))) enabled).rows =
      rs.map (restored enabled [.name, .address, .amount]) := by
  have hmatrix := @scanRows_formatRecipientCsvRow (.name :: .address :: .amount :: more) (by simp) [] (by simp) rs
  rw [List.map_nil, List.map_nil, List.nil_append, List.nil_append] at hmatrix
  obtain ⟨r, rs, rfl⟩ := List.exists_cons_of_ne_nil hne
  rw [parseCsvText, hmatrix, List.map_cons]
  have hcols : columnsOf setup ((.name :: .address :: .amount :: more).map (readBack r)) = (positional, 0) := by
    have haddress : ((RecipientField.name :: .address :: .amount :: more).map (readBack r)).any (looksLikeAddress setup) = true := by
      refine List.any_eq_true.mpr ⟨readBack r .address, List.mem_map_of_mem (by simp), ?_⟩
      rw [looksLikeAddress, trimText_readBack, (hrs r List.mem_cons_self).readBack_address hlaw]
      exact (hrs r List.mem_cons_self).address
    rw [columnsOf]
    exact if_neg fun h => h.1 haddress
  refine (rowsFromMatrix_rows ?_ hcols (by decide) (by decide) ?_).1
  · rw [← List.map_cons (f := fun r => (RecipientField.name :: .address :: .amount :: more).map (readBack r))]
    intro row hrow
    obtain ⟨r', hr', rfl⟩ := List.mem_map.mp hrow
    exact .of_payable hlaw (hrs r' hr') (by simp)
  · rw [List.drop_zero, ← List.map_cons (f := fun r => (RecipientField.name :: .address :: .amount :: more).map (readBack r)), List.map_map, List.map_map]
    apply List.map_congr_left
    intro r' hr'
    exact readRow_written hlaw (cellAt_positional r' more) (by simp) (by simp) (hrs r' hr')
      ⟨fun h => absurd (ite_self []) h, fun h => absurd (ite_self []) h⟩

/-! #### With a header -/

theorem header_plain (col : RecipientField) :
    csvEscape col.header.toList = col.header.toList ∧ trimText (guarded col.header.toList) = col.header.toList := by
  cases col <;> decide

theorem classifyHeader_header (col : RecipientField) : classifyHeader col.header.toList = some col := by
  cases col <;> decide

theorem header_kept (hlaw : setup.Lawful) (col : RecipientField) :
    looksLikeAddress setup col.header.toList = false ∧ trimText col.header.toList ≠ [] ∧ (trimText col.header.toList).head? ≠ some '#' := by
  refine ⟨?_, by cases col <;> decide, by cases col <;> decide⟩
  apply Bool.eq_false_iff.mpr
  intro haddress
  have hlong := hlaw.long _ haddress
  cases col <;> exact absurd hlong (by decide)

/-- The header of a text, as a row -/
def headerRow (columns : List RecipientField) : List (List Char) := columns.map fun col => col.header.toList

/-- The first row names the column of each field. -/
def headerColumns (columns : List RecipientField) (kind : RecipientField) : Option ℕ := (columns.map some).findIdx? (· = some kind)

theorem headerColumns_cons (col : RecipientField) (columns : List RecipientField) (kind : RecipientField) :
    headerColumns (col :: columns) kind = if col = kind then some 0 else (headerColumns columns kind).map (· + 1) := by
  simp only [headerColumns, List.map_cons, List.findIdx?_cons, decide_eq_true_eq, Option.some_inj]

theorem headerColumns_isSome {kind : RecipientField} : (headerColumns columns kind).isSome = true ↔ kind ∈ columns := by
  rw [headerColumns, List.findIdx?_isSome, List.any_eq_true]
  simp

theorem cellAt_headerColumns (r : Recipient) (columns : List RecipientField) :
    cellAt (headerColumns columns) (columns.map (readBack r)) = writtenCell columns r := by
  funext col
  induction columns with
  | nil => rfl
  | cons first columns ih =>
    rw [cellAt, headerColumns_cons, writtenCell]
    by_cases hfirst : first = col
    · subst hfirst
      rw [if_pos rfl, if_pos List.mem_cons_self]
      exact trimText_readBack r first
    · rw [if_neg hfirst]
      rw [cellAt, writtenCell] at ih
      have hmem : col ∈ first :: columns ↔ col ∈ columns := by
        rw [List.mem_cons]
        exact or_iff_right (Ne.symm hfirst)
      rw [if_congr hmem rfl rfl, ← ih]
      cases headerColumns columns col with
      | none => rfl
      | some i => rfl

theorem columnsOf_headerRow (hlaw : setup.Lawful) (hcolumns : 2 ≤ columns.length) :
    columnsOf setup (headerRow columns) = (headerColumns columns, 1) := by
  have haddress : (headerRow columns).any (looksLikeAddress setup) = false := by
    rw [headerRow, List.any_map, List.any_eq_false]
    intro col _
    rw [Function.comp_apply, (header_kept hlaw col).1]
    decide
  have hcls : (headerRow columns).map classifyHeader = columns.map some := by
    rw [headerRow, List.map_map]
    exact List.map_congr_left fun col _ => classifyHeader_header col
  have hnamed : ((columns.map some).filter Option.isSome).length = columns.length := by
    rw [List.filter_eq_self.mpr (by simp), List.length_map]
  rw [columnsOf, haddress]
  simp only [hcls, hnamed]
  exact if_pos ⟨by decide, hcolumns⟩

theorem Kept.headerRow (hlaw : setup.Lawful) (hcolumns : columns ≠ []) : Kept setup (headerRow columns) := by
  obtain ⟨first, hfirst⟩ := List.exists_mem_of_ne_nil columns hcolumns
  refine ⟨isBlankRow_eq_false (List.mem_map_of_mem hfirst) (header_kept hlaw first).2.1, ?_⟩
  rw [isCommentRow]
  cases hcells : ((Recipients.headerRow columns).map trimText).filter (· ≠ []) with
  | nil => rfl
  | cons cell cells =>
    have hmem : cell ∈ ((Recipients.headerRow columns).map trimText).filter (· ≠ []) := hcells ▸ List.mem_cons_self
    obtain ⟨label, hlabel, rfl⟩ := List.mem_map.mp (List.mem_filter.mp hmem).1
    obtain ⟨col, -, rfl⟩ := List.mem_map.mp hlabel
    exact decide_eq_false fun h => (header_kept hlaw col).2.2 h.1

end Rows

/-! #### A text and its parser -/

theorem isAlphanum_of_isHexDigit {c : Char} (hc : isHexDigit c = true) : c.isAlphanum = true := by
  have hlt : c.toNat < 103 := by
    simp only [isHexDigit, isDigit, Bool.decide_or, Bool.decide_and, Bool.or_eq_true, Bool.and_eq_true, decide_eq_true_eq,
      Char.le_def, UInt32.le_iff_toNat_le] at hc
    change c.val.toNat < 103
    rcases hc with ⟨-, hc⟩ | ⟨-, hc⟩ | ⟨-, hc⟩ <;> exact Nat.lt_of_le_of_lt hc (by decide)
  have hall : ∀ n < 103, isHexDigit (Char.ofNat n) = true → (Char.ofNat n).isAlphanum = true := by decide
  have halpha := hall c.toNat hlt (by rwa [Char.ofNat_toNat])
  rwa [Char.ofNat_toNat] at halpha

/-- The addresses with the mark of hexadecimal digits -/
def hexSetup : ParserSetup := ⟨isAddress, fun _ => false⟩

theorem hexSetup_lawful : hexSetup.Lawful := by
  have hform : ∀ a, isAddress a = true → ∃ digits, a = '0' :: 'x' :: digits ∧ digits.length = 40 ∧ ∀ c ∈ digits, isHexDigit c = true := by
    intro a ha
    unfold isAddress at ha
    split at ha
    · next digits =>
      simp only [decide_eq_true_eq, List.all_eq_true] at ha
      exact ⟨digits, rfl, ha⟩
    · exact absurd ha Bool.false_ne_true
  refine ⟨?_, ?_⟩
  · intro a ha c hc
    obtain ⟨digits, rfl, -, hdigits⟩ := hform a ha
    simp only [List.mem_cons] at hc
    rcases hc with rfl | rfl | hc
    · decide
    · decide
    · exact isAlphanum_of_isHexDigit (hdigits c hc)
  · intro a ha
    obtain ⟨digits, rfl, hlength, -⟩ := hform a ha
    rw [List.length_cons, List.length_cons, hlength]
    decide

def aliceAddress : List Char := '0' :: 'x' :: List.replicate 40 'a'

/-- A recipient of the grid: a name, the address and an amount -/
def gridRow (name amount : String) : Recipient
  | .name => name.toList
  | .address => aliceAddress
  | .amount => amount.toList
  | .email => []
  | .releaseAt => []

end Recipients

namespace Pay.Format

/-- What file import, the address book, the grid and a resumed run give the wizard: an address that is a cell of its own, and an amount in one line. -/
structure RecipientRow.Produced (r : RecipientRow) : Prop where
  address_ne : r.address ≠ []
  address_trimmed : trimText r.address = r.address
  address_comma : ',' ∉ r.address
  address_newline : '\n' ∉ r.address
  address_quote : r.address.head? ≠ some '"'
  amount_trimmed : trimText r.amount = r.amount
  amount_newline : '\n' ∉ r.amount

/-- Nothing in the row that the line parser takes for a quoted cell or for the end of one. -/
structure RecipientRow.Unquoted (r : RecipientRow) : Prop where
  name_quote : (csvSafeLabel r.name).head? ≠ some '"'
  amount_comma : ',' ∉ r.amount
  amount_quote : r.amount.head? ≠ some '"'

/-- The row with its name as the label of a line -/
def RecipientRow.labelled (r : RecipientRow) : RecipientRow := { r with name := csvSafeLabel r.name }

def RecipientRow.line (r : RecipientRow) : List Char := formatRecipientCsvRow r.name r.address r.amount

namespace RecipientRow

variable {r : RecipientRow}

theorem trimText_line (hr : r.Produced) : trimText r.line = r.line := by
  apply trimText_eq_self
  · intro c hc
    rw [line, formatRecipientCsvRow, List.head?_append] at hc
    cases hname : (csvSafeLabel r.name).head? with
    | none =>
      rw [hname, Option.none_or] at hc
      obtain rfl := Option.some.inj hc
      decide
    | some d =>
      rw [hname, Option.some_or] at hc
      obtain rfl := Option.some.inj hc
      rw [← trimText_csvSafeLabel] at hname
      exact head?_trimText hname
  · intro c hc
    rw [line, formatRecipientCsvRow, List.getLast?_append, ← List.cons_append, List.getLast?_append] at hc
    cases hamount : r.amount with
    | nil =>
      rw [hamount, List.getLast?_singleton, Option.some_or, Option.some_or] at hc
      obtain rfl := Option.some.inj hc
      decide
    | cons d amount =>
      rw [hamount, List.getLast?_cons_cons, List.getLast?_eq_getLast_of_ne_nil (List.cons_ne_nil _ _), Option.some_or, Option.some_or] at hc
      obtain rfl := Option.some.inj hc
      apply getLast?_trimText (s := r.amount)
      rw [hr.amount_trimmed, hamount]
      exact List.getLast_mem_getLast? _

theorem line_ne_nil (r : RecipientRow) : r.line ≠ [] := by simp [line, formatRecipientCsvRow]

theorem newline_not_mem_line (hr : r.Produced) : '\n' ∉ r.line := by
  simp only [line, formatRecipientCsvRow, List.mem_append, List.mem_cons, not_or]
  exact ⟨not_mem_csvSafeLabel (by decide), by decide, hr.address_newline, by decide, hr.amount_newline⟩

theorem splitCsvLine_line (hr : r.Produced) (hname : (csvSafeLabel r.name).head? ≠ some '"') :
    splitCsvLine r.line = csvSafeLabel r.name :: r.address :: splitFrom [] false r.amount := by
  rw [splitCsvLine, line, formatRecipientCsvRow, splitFrom_plain (not_mem_csvSafeLabel (by decide)) fun _ => hname, splitFrom_comma,
    splitFrom_plain hr.address_comma fun _ => hr.address_quote, splitFrom_comma, List.nil_append, List.nil_append, trimText_csvSafeLabel,
    hr.address_trimmed]

theorem rowOfLine_line (hr : r.Produced) (hplain : r.Unquoted) : rowOfLine r.line = r.labelled := by
  rw [rowOfLine, splitCsvLine_line hr hplain.name_quote, ← List.append_nil r.amount,
    splitFrom_plain hplain.amount_comma fun _ => hplain.amount_quote, List.nil_append, splitFrom, hr.amount_trimmed]
  rfl

/-- A name that opens a quoted cell comes back without its quote, or with the cells after it. -/
theorem rowOfLine_ne_of_name {name : List Char} (hname : csvSafeLabel r.name = '"' :: name) : (rowOfLine r.line).name ≠ csvSafeLabel r.name := by
  have hsplit : splitCsvLine r.line = splitFrom [] true (name ++ ',' :: (r.address ++ ',' :: r.amount)) := by
    rw [splitCsvLine, line, formatRecipientCsvRow, hname, List.cons_append, splitFrom_open]
  obtain ⟨first, rest, heq, hfirst⟩ := splitFrom_until_comma [] true name (r.address ++ ',' :: r.amount)
  have hread : (rowOfLine r.line).name = first := by
    rw [rowOfLine, hsplit, heq]
    rfl
  rw [hread]
  intro hsame
  cases hfirst with
  | inl hmem => exact @not_mem_csvSafeLabel r.name ',' (by decide) (hsame ▸ hmem)
  | inr hlength =>
    rw [hsame, hname, List.length_nil, Nat.zero_add] at hlength
    exact Nat.not_succ_le_self _ hlength

theorem unquoted_of_rowOfLine (hr : r.Produced) (hrow : rowOfLine r.line = r.labelled) : r.Unquoted := by
  have hname : (csvSafeLabel r.name).head? ≠ some '"' := by
    intro hquote
    obtain ⟨name, hname⟩ := List.head?_eq_some_iff.mp hquote
    exact rowOfLine_ne_of_name hname (congrArg RecipientRow.name hrow)
  have hamount : (splitFrom [] false r.amount).head? = some r.amount := by
    have hread := congrArg RecipientRow.amount hrow
    obtain ⟨first, rest, heq, -⟩ := splitFrom_length [] false r.amount
    rw [rowOfLine, splitCsvLine_line hr hname, heq] at hread
    rw [heq]
    exact congrArg some hread
  have hquote : r.amount.head? ≠ some '"' := by
    intro hquote
    obtain ⟨amount, heq⟩ := List.head?_eq_some_iff.mp hquote
    obtain ⟨first, rest, hsplit, hlength⟩ := splitFrom_length [] true amount
    rw [heq, splitFrom_open, hsplit] at hamount
    rw [Option.some.inj hamount] at hlength
    simp at hlength
  refine ⟨hname, ?_, hquote⟩
  intro hcomma
  obtain ⟨u, v, heq, hu⟩ := List.eq_append_cons_of_mem hcomma
  have hopen : u.head? ≠ some '"' := by
    intro h
    rw [heq, List.head?_append, h, Option.some_or] at hquote
    exact hquote rfl
  rw [heq, splitFrom_plain hu fun _ => hopen, splitFrom_comma, List.head?_cons, List.nil_append] at hamount
  have hlength := length_trimText_le u
  rw [Option.some.inj hamount, List.length_append, List.length_cons] at hlength
  omega

end RecipientRow

theorem recipientRows_recipientsToCsv {rows : List RecipientRow} (hrows : ∀ r ∈ rows, r.Produced) :
    recipientRows (recipientsToCsv rows) = (rows.map fun r => rowOfLine r.line).filter fun r => r.address ≠ [] := by
  cases rows with
  | nil => rfl
  | cons r rows =>
    have hsplit : (recipientsToCsv (r :: rows)).splitOn '\n' = (r :: rows).map RecipientRow.line := by
      apply List.splitOn_intercalate
      · intro line hline
        obtain ⟨r', hr', rfl⟩ := List.mem_map.mp hline
        exact RecipientRow.newline_not_mem_line (hrows r' hr')
      · exact List.cons_ne_nil _ _
    have htrim : ((r :: rows).map RecipientRow.line).map trimText = (r :: rows).map RecipientRow.line := by
      rw [List.map_map]
      exact List.map_congr_left fun r' hr' => RecipientRow.trimText_line (hrows r' hr')
    have hkept : ((r :: rows).map RecipientRow.line).filter (· ≠ []) = (r :: rows).map RecipientRow.line := by
      apply List.filter_eq_self.mpr
      intro line hline
      obtain ⟨r', -, rfl⟩ := List.mem_map.mp hline
      exact decide_eq_true r'.line_ne_nil
    rw [recipientRows, hsplit, htrim, hkept, List.map_map]
    rfl

theorem recipientRows_of_unquoted {rows : List RecipientRow} (hrows : ∀ r ∈ rows, r.Produced) (hplain : ∀ r ∈ rows, r.Unquoted) :
    recipientRows (recipientsToCsv rows) = rows.map RecipientRow.labelled := by
  have hmap : (rows.map fun r => rowOfLine r.line) = rows.map RecipientRow.labelled :=
    List.map_congr_left fun r hr => RecipientRow.rowOfLine_line (hrows r hr) (hplain r hr)
  rw [recipientRows_recipientsToCsv hrows, hmap]
  apply List.filter_eq_self.mpr
  intro r' hr'
  obtain ⟨r, hr, rfl⟩ := List.mem_map.mp hr'
  exact decide_eq_true (hrows r hr).address_ne

end Pay.Format

namespace Protocol

open Pay.Format

/-- What the wizard builds and what the grid writes comes back row for row and cell for cell, but for the guard of the grid. -/
theorem recipientCsv_roundTrip :
    (∀ rows : List RecipientRow, (∀ r ∈ rows, r.Produced ∧ r.Unquoted) → recipientRows (recipientsToCsv rows) = rows.map RecipientRow.labelled) ∧
    (∀ (r : Recipient) (columns : List RecipientField), columns ≠ [] →
      splitCsvLine (Recipients.formatRecipientCsvRow r columns) = columns.map (Recipients.readBack r)) ∧
    (∀ setup : ParserSetup, setup.Lawful → ∀ rs : List Recipient, rs ≠ [] → (∀ r ∈ rs, r.Payable setup) →
      ∀ more enabled : List RecipientField,
        (parseCsvText setup (List.intercalate ['\n'] (rs.map fun r =>
          Recipients.formatRecipientCsvRow r (.name :: .address :: .amount :: more))) enabled).rows =
            rs.map (restored enabled [.name, .address, .amount])) := by
  refine ⟨?_, ?_, ?_⟩
  · intro rows hrows
    exact recipientRows_of_unquoted (fun r hr => (hrows r hr).1) (fun r hr => (hrows r hr).2)
  · intro r columns hcolumns
    exact splitCsvLine_formatRecipientCsvRow r hcolumns
  · intro setup hlaw rs hne hrs more enabled
    exact parseCsvText_rows hlaw hne hrs more

def aliceRow : RecipientRow := ⟨"Alice, Ltd".toList, aliceAddress, "12.5".toList⟩

theorem aliceRow_plain : aliceRow.Produced ∧ aliceRow.Unquoted := by
  refine ⟨⟨?_, ?_, ?_, ?_, ?_, ?_, ?_⟩, ?_, ?_, ?_⟩ <;> decide

theorem recipientCsv_roundTrip_alice :
    recipientRows (recipientsToCsv [aliceRow, aliceRow]) = [aliceRow.labelled, aliceRow.labelled] ∧
      (parseCsvText hexSetup (List.intercalate ['\n'] ([gridRow "=1,2" "3"].map fun r =>
        Recipients.formatRecipientCsvRow r [.name, .address, .amount])) [.name]).rows =
          [gridRow "=1,2" "3"].map (restored [.name] [.name, .address, .amount]) := by
  refine ⟨recipientCsv_roundTrip.1 [aliceRow, aliceRow] ?_, recipientCsv_roundTrip.2.2 hexSetup hexSetup_lawful _ (List.cons_ne_nil _ _) ?_ [] _⟩
  · intro r hr
    simp only [List.mem_cons, List.not_mem_nil, or_false, or_self] at hr
    exact hr ▸ aliceRow_plain
  · intro r hr
    rw [List.mem_singleton.mp hr]
    exact ⟨by decide, by decide⟩

/-- The grid's line for a name that starts with the marker of a formula is read with an apostrophe before the name. -/
theorem gridRow_guarded :
    splitCsvLine (Recipients.formatRecipientCsvRow (gridRow "@bob" "1") [.name, .address, .amount]) ≠
      [csvSafeLabel "@bob".toList, aliceAddress, "1".toList] := by
  decide

/-- The wizard reads back its own text row for row exactly where no row holds anything the line parser takes for a quote or a cell's end. -/
theorem wizardText_iff {rows : List RecipientRow} (hrows : ∀ r ∈ rows, r.Produced) :
    recipientRows (recipientsToCsv rows) = rows.map RecipientRow.labelled ↔ ∀ r ∈ rows, r.Unquoted := by
  refine ⟨?_, recipientRows_of_unquoted hrows⟩
  intro hread r hr
  rw [recipientRows_recipientsToCsv hrows] at hread
  have hkept : (rows.map fun r => rowOfLine r.line).filter (fun r => r.address ≠ []) = rows.map fun r => rowOfLine r.line := by
    apply List.filter_eq_self.mpr
    apply List.length_filter_eq_length_iff.mp
    rw [hread, List.length_map, List.length_map]
  rw [hkept] at hread
  exact RecipientRow.unquoted_of_rowOfLine (hrows r hr) (List.map_inj_left.mp hread r hr)

/-- A label that starts with a quote takes the address into the name. -/
def quotedRow : RecipientRow := ⟨"\"Kim".toList, aliceAddress, "12.5".toList⟩

theorem quotedRow_produced : quotedRow.Produced := by
  refine ⟨?_, ?_, ?_, ?_, ?_, ?_, ?_⟩ <;> decide

theorem wizardText_quoted : recipientRows (recipientsToCsv [aliceRow, quotedRow]) ≠ [aliceRow.labelled, quotedRow.labelled] := by
  intro hread
  have hrows : ∀ r ∈ [aliceRow, quotedRow], r.Produced := by
    intro r hr
    simp only [List.mem_cons, List.not_mem_nil, or_false] at hr
    cases hr with
    | inl heq => exact heq ▸ aliceRow_plain.1
    | inr heq => exact heq ▸ quotedRow_produced
  have hplain := (wizardText_iff hrows).mp hread quotedRow (by simp)
  exact hplain.name_quote (by decide)

/-- The text of the recipients editor, its header and a line for each row, is parsed into the rows it was derived from, but for the guard before the marker of a formula. -/
theorem editorText_roundTrip {setup : ParserSetup} {enabled columns : List RecipientField} (hlaw : setup.Lawful) {rs : List Recipient} (haddress : .address ∈ columns) (hamount : .amount ∈ columns)
    (hrs : ∀ r ∈ rs, r.Payable setup ∧ r.Contactable setup enabled columns) :
    let parsed := parseCsvText setup
      (List.intercalate ['\n'] (formatRecipientCsvHeader columns :: rs.map fun r => Recipients.formatRecipientCsvRow r columns)) enabled
    parsed.rows = rs.map (restored enabled columns) ∧ ((∀ col ∈ columns, col ∈ enabled) → parsed.warnings = []) := by
  have hlength : 2 ≤ columns.length := by
    have hpair : [RecipientField.address, .amount].length ≤ columns.length :=
      (List.Nodup.subperm (by decide) (by simp [haddress, hamount])).length_le
    exact hpair
  have hheader : formatRecipientCsvHeader columns = List.intercalate [','] ((headerRow columns).map csvEscape) := by
    rw [formatRecipientCsvHeader, headerRow, List.map_map]
    congr 1
    exact (List.map_congr_left fun col _ => (header_plain col).1).symm
  have hread : (headerRow columns).map (fun value => trimText (guarded value)) = headerRow columns := by
    rw [headerRow, List.map_map]
    exact List.map_congr_left fun col _ => (header_plain col).2
  have hmatrix := scanRows_formatRecipientCsvRow hlength [headerRow columns] (by simpa [headerRow] using hlength) rs
  rw [List.map_singleton, List.map_singleton, hread, ← hheader, List.singleton_append, List.singleton_append] at hmatrix
  dsimp only
  rw [parseCsvText, hmatrix]
  have hkept : ∀ row ∈ headerRow columns :: rs.map fun r => columns.map (Recipients.readBack r), Recipients.Kept setup row := by
    intro row hrow
    cases List.mem_cons.mp hrow with
    | inl heq => exact heq ▸ Recipients.Kept.headerRow hlaw (List.ne_nil_of_mem haddress)
    | inr hmem =>
      obtain ⟨r, hr, rfl⟩ := List.mem_map.mp hmem
      exact .of_payable hlaw (hrs r hr).1 haddress
  have hsome : ∀ {kind : RecipientField}, kind ∈ columns → headerColumns columns kind ≠ none := by
    intro kind hkind hnone
    have hfound := headerColumns_isSome.mpr hkind
    rw [hnone] at hfound
    exact absurd hfound (by decide)
  have hdata : ((headerRow columns :: rs.map fun r => columns.map (Recipients.readBack r)).drop 1).map (readRow setup enabled (headerColumns columns)) =
      (rs.map (restored enabled columns)).map RowOutcome.recipient := by
    rw [List.drop_succ_cons, List.drop_zero, List.map_map, List.map_map]
    apply List.map_congr_left
    intro r hr
    exact readRow_written hlaw (cellAt_headerColumns r columns) haddress hamount (hrs r hr).1 (hrs r hr).2
  obtain ⟨hrows, hwarnings⟩ := rowsFromMatrix_rows hkept (columnsOf_headerRow hlaw hlength) (hsome haddress) (hsome hamount) hdata
  exact ⟨hrows, fun henabled => hwarnings fun col hcol => henabled col (headerColumns_isSome.mp hcol)⟩

theorem editorText_roundTrip_grid :
    (parseCsvText hexSetup (List.intercalate ['\n'] (formatRecipientCsvHeader [.amount, .name, .address] ::
        [gridRow "\"Kim\" & Co" "3", gridRow "=1" "4.5"].map fun r => Recipients.formatRecipientCsvRow r [.amount, .name, .address]))
      [.name, .address, .amount]).rows =
        [gridRow "\"Kim\" & Co" "3", gridRow "=1" "4.5"].map (restored [.name, .address, .amount] [.amount, .name, .address]) := by
  refine (editorText_roundTrip hexSetup_lawful (by simp) (by simp) ?_).1
  intro r hr
  simp only [List.mem_cons, List.not_mem_nil, or_false] at hr
  rcases hr with rfl | rfl <;> exact ⟨⟨by decide, by decide⟩, fun h => absurd rfl h, fun h => absurd rfl h⟩

end Protocol

end ScatterDex
