import ScatterDex.Protocol.VerifiedSettlements

/-!
# Attested settlements

Once a verify pass has attested whose settlement a row is, the row under that hash always comes from a report that names the attested relayers, or is the row it was: each replacement inherits the attestation, and a verified row is final.
-/

namespace ScatterDex

open Transactions

namespace SharedOrderbook

/-- What is done to the table. -/
inductive SettlementOp where
  | insertSettlement (getOrder : String → Option StoredOrder) (submitter : Address) (payload : SettlementInsert) (now : ℕ)
  | markSettlementsVerified (entries : List VerifyDecision)
  | recordVerifyFailures (txHashes : List ℕ)
  | quarantineFutureSettlements (maxVerifyAttempts : ℕ) (chainId : Option ℕ) (aboveBlock : ℕ)
  | recordEventAttribution (rows : List EventAttribution)

namespace SettlementOp

def apply (table : SettlementsTable) : SettlementOp → SettlementsTable
  | .insertSettlement getOrder submitter payload now => (table.insertSettlement getOrder submitter payload now).1
  | .markSettlementsVerified entries => table.markSettlementsVerified entries
  | .recordVerifyFailures txHashes => table.recordVerifyFailures txHashes
  | .quarantineFutureSettlements maxVerifyAttempts chainId aboveBlock =>
    table.quarantineFutureSettlements maxVerifyAttempts chainId aboveBlock
  | .recordEventAttribution rows => table.recordEventAttribution rows

def run (op : SettlementOp) (table : SettlementsTable) : Except Empty SettlementsTable := .ok (op.apply table)

/-- Later attestations of a transaction repeat the first. -/
def AgreesWith (a : EventAttribution) : SettlementOp → Prop
  | .recordEventAttribution rows => ∀ r ∈ rows, r.txHash = a.txHash → r = a
  | _ => True

end SettlementOp

/-- The relayers of a report, or of a row, are those of an attestation; a report may leave its taker out. -/
def EventAttribution.Names (a : EventAttribution) (makerRelayer : Address) (takerRelayer : Option Address) : Prop :=
  makerRelayer = a.eventMakerRelayer ∧ (takerRelayer = none ∨ takerRelayer = some a.eventTakerRelayer)

/-- A row carries an attestation. -/
structure SettlementRow.AttestedBy (row : SettlementRow) (a : EventAttribution) : Prop where
  txHash : row.txHash = a.txHash
  maker : row.eventMakerRelayer = some a.eventMakerRelayer
  taker : row.eventTakerRelayer = some a.eventTakerRelayer

/-- Two rows come from one report; what the verifier writes may differ. -/
def SettlementRow.SameSubmission (row row' : SettlementRow) : Prop :=
  row' = { row with
    blockTime := row'.blockTime
    feeMaker := row'.feeMaker
    feeTaker := row'.feeTaker
    verified := row'.verified
    verifyAttempts := row'.verifyAttempts
    eventMakerRelayer := row'.eventMakerRelayer
    eventTakerRelayer := row'.eventTakerRelayer }

namespace SettlementRow

variable {row row' row'' : SettlementRow} {a : EventAttribution}

theorem SameSubmission.trans (hfirst : row.SameSubmission row') (hsecond : row'.SameSubmission row'') :
    row.SameSubmission row'' := by
  unfold SameSubmission at hfirst hsecond ⊢
  rw [hsecond, hfirst]

theorem SameSubmission.txHash (hsame : row.SameSubmission row') : row'.txHash = row.txHash := by
  rw [hsame]

theorem SameSubmission.names (hsame : row.SameSubmission row') :
    a.Names row'.makerRelayer row'.takerRelayer ↔ a.Names row.makerRelayer row.takerRelayer := by
  rw [hsame]

theorem SameReport.sameSubmission (hsame : row.SameReport row') : row.SameSubmission row' := by
  unfold SameReport at hsame
  unfold SameSubmission
  rw [hsame]

/-- What a statement of the verifier does to a row: it keeps the report and a verified row, and an attestation it agrees with. -/
structure Carries (a : EventAttribution) (agrees : Prop) (row row' : SettlementRow) : Prop where
  submission : row.SameSubmission row'
  final : row.verified = true → row' = row
  attested : agrees → row.AttestedBy a → row'.AttestedBy a

variable {agrees : Prop}

theorem Carries.refl (row : SettlementRow) : row.Carries a agrees row := ⟨rfl, fun _ => rfl, fun _ => id⟩

theorem Carries.trans (row row' row'' : SettlementRow) (hfirst : row.Carries a agrees row')
    (hsecond : row'.Carries a agrees row'') : row.Carries a agrees row'' where
  submission := hfirst.submission.trans hsecond.submission
  final := by
    intro hverified
    obtain rfl := hfirst.final hverified
    exact hsecond.final hverified
  attested := fun hagrees hattested => hsecond.attested hagrees (hfirst.attested hagrees hattested)

theorem Carries.write (hunverified : row.verified = false) (hsubmission : row.SameSubmission row')
    (hattested : agrees → row.AttestedBy a → row'.AttestedBy a) : row.Carries a agrees row' :=
  ⟨hsubmission, fun hverified => absurd (hunverified.symm.trans hverified) Bool.false_ne_true, hattested⟩

theorem AttestedBy.of_eq (hattested : row.AttestedBy a) (htx : row'.txHash = row.txHash)
    (hmaker : row'.eventMakerRelayer = row.eventMakerRelayer)
    (htaker : row'.eventTakerRelayer = row.eventTakerRelayer) : row'.AttestedBy a :=
  ⟨htx.trans hattested.txHash, hmaker.trans hattested.maker, htaker.trans hattested.taker⟩

end SettlementRow

namespace SettlementsTable

variable {table : SettlementsTable} {a : EventAttribution} {row : SettlementRow}

theorem apply_carries (table : SettlementsTable) (a : EventAttribution) {op : SettlementOp}
    (hverifier : ¬∃ getOrder submitter payload now, op = .insertSettlement getOrder submitter payload now) :
    Table.Rewrites (SettlementRow.Carries a (op.AgreesWith a)) table (op.apply table) := by
  cases op with
  | insertSettlement getOrder submitter payload now => exact absurd ⟨getOrder, submitter, payload, now, rfl⟩ hverifier
  | markSettlementsVerified entries =>
    refine Table.rewrites_foldl .refl .trans fun e _ t => Table.rewrites_update .refl fun row hrow => ?_
    exact .write (of_decide_eq_true hrow).2 rfl fun _ hattested => hattested.of_eq rfl rfl rfl
  | recordVerifyFailures txHashes =>
    refine Table.rewrites_foldl .refl .trans fun h _ t => Table.rewrites_update .refl fun row hrow => ?_
    exact .write (of_decide_eq_true hrow).2 rfl fun _ hattested => hattested.of_eq rfl rfl rfl
  | quarantineFutureSettlements maxVerifyAttempts chainId aboveBlock =>
    rw [SettlementOp.apply, quarantineFutureSettlements]
    apply Table.rewrites_update .refl
    intro row hrow
    exact .write (of_decide_eq_true hrow).1 rfl fun _ hattested => hattested.of_eq rfl rfl rfl
  | recordEventAttribution rows =>
    refine Table.rewrites_foldl .refl .trans fun r hr t => Table.rewrites_update .refl fun row hrow => ?_
    obtain ⟨htx, hunverified⟩ := of_decide_eq_true hrow
    refine .write hunverified rfl fun hagrees hattested => ?_
    obtain rfl := hagrees r hr (htx.symm.trans hattested.txHash)
    exact ⟨htx, rfl, rfl⟩

/-- What one operation does to the row of an attested transaction: it stays, or a report that names the attested relayers takes its place. -/
theorem apply_attested {op : SettlementOp} (hagree : op.AgreesWith a) (hrow : row ∈ table.rows)
    (hattested : row.AttestedBy a) :
    ∃ row' ∈ (op.apply table).rows, row'.AttestedBy a ∧
      (row.SameSubmission row' ∨ ∃ getOrder submitter payload now,
        op = .insertSettlement getOrder submitter payload now ∧ payload.txHash = a.txHash ∧
          a.Names payload.makerRelayer payload.takerRelayer ∧
          ((payload.snapshot getOrder).row submitter now).SameSubmission row') := by
  by_cases hinsert : ∃ getOrder submitter payload now, op = .insertSettlement getOrder submitter payload now
  · obtain ⟨getOrder, submitter, payload, now, rfl⟩ := hinsert
    rw [SettlementOp.apply]
    rcases insertSettlement_cases table getOrder submitter payload now with ⟨hkept, -⟩ | ⟨-, hgives, hrows⟩
    · rw [hkept]
      exact ⟨row, hrow, hattested, Or.inl rfl⟩
    · by_cases htx : row.txHash = payload.txHash
      · have hlookup : table.lookup payload.txHash = some row := Table.lookup_eq_some.mpr ⟨hrow, htx⟩
        have hpayload : payload.txHash = a.txHash := htx.symm.trans hattested.txHash
        have hinherits : (storedRow table getOrder submitter payload now).AttestedBy a := by
          refine ⟨snapshot_txHash.trans hpayload, ?_, ?_⟩
          · simp [storedRow, attestation, hlookup, hattested.maker]
          · simp [storedRow, attestation, hlookup, hattested.maker, hattested.taker]
        obtain ⟨-, -, -, hnone | ⟨hmaker, htaker⟩⟩ := hgives row hrow htx
        · exact absurd (hnone.symm.trans hattested.maker) (Option.some_ne_none _).symm
        · refine ⟨_, (hrows _).mpr (Or.inr rfl), hinherits, Or.inr ⟨getOrder, submitter, payload, now, rfl, hpayload, ?_, rfl⟩⟩
          exact ⟨Option.some.inj (hmaker.trans hattested.maker), htaker.imp_right fun h => h.trans hattested.taker⟩
      · exact ⟨row, (hrows row).mpr (Or.inl ⟨hrow, htx⟩), hattested, Or.inl rfl⟩
  · obtain ⟨row', hrow', hcarries⟩ := (apply_carries table a hinsert).target row hrow
    exact ⟨row', hrow', hcarries.attested hagree hattested, Or.inl hcarries.submission⟩

theorem apply_verified {op : SettlementOp} (hrow : row ∈ table.rows) (hverified : row.verified = true) :
    row ∈ (op.apply table).rows := by
  by_cases hinsert : ∃ getOrder submitter payload now, op = .insertSettlement getOrder submitter payload now
  · obtain ⟨getOrder, submitter, payload, now, rfl⟩ := hinsert
    rw [SettlementOp.apply]
    rcases insertSettlement_cases table getOrder submitter payload now with ⟨hkept, -⟩ | ⟨-, hgives, hrows⟩
    · rw [hkept]
      exact hrow
    · refine (hrows row).mpr (Or.inl ⟨hrow, fun htx => ?_⟩)
      exact absurd ((hgives row hrow htx).2.1.symm.trans hverified) Bool.false_ne_true
  · obtain ⟨row', hrow', hcarries⟩ := (apply_carries table ⟨0, 0, 0⟩ hinsert).target row hrow
    exact hcarries.final hverified ▸ hrow'

theorem insertSettlement_refused {getOrder : String → Option StoredOrder} {submitter : Address} {payload : SettlementInsert}
    {now : ℕ} (hrow : row ∈ table.rows) (hattested : row.AttestedBy a) (hpayload : payload.txHash = a.txHash)
    (hother : ¬a.Names payload.makerRelayer payload.takerRelayer) :
    insertSettlement table getOrder submitter payload now = (table, false) := by
  rcases insertSettlement_cases table getOrder submitter payload now with ⟨hkept, -⟩ | ⟨-, hgives, -⟩
  · exact hkept
  · obtain ⟨-, -, -, hnone | ⟨hmaker, htaker⟩⟩ := hgives row hrow (hattested.txHash.trans hpayload.symm)
    · exact absurd (hnone.symm.trans hattested.maker) (Option.some_ne_none _).symm
    · refine absurd ⟨Option.some.inj (hmaker.trans hattested.maker), ?_⟩ hother
      exact htaker.imp_right fun h => h.trans hattested.taker

theorem insertSettlement_replaced {getOrder : String → Option StoredOrder} {submitter : Address}
    {payload : SettlementInsert} {now : ℕ} (hrow : row ∈ table.rows) (hattested : row.AttestedBy a)
    (hunverified : row.verified = false) (hother : ¬a.Names row.makerRelayer row.takerRelayer)
    (hpayload : payload.txHash = a.txHash) (hnames : a.Names payload.makerRelayer payload.takerRelayer) :
    (insertSettlement table getOrder submitter payload now).2 = true ∧
      storedRow table getOrder submitter payload now ∈ (insertSettlement table getOrder submitter payload now).1.rows := by
  rcases insertSettlement_cases table getOrder submitter payload now with
    ⟨-, row', hrow', htx', hstays⟩ | ⟨hstored, -, hrows⟩
  · obtain rfl : row' = row := table.eq_of_key hrow' hrow ((htx'.trans hpayload).trans hattested.txHash.symm)
    refine absurd ⟨htx', hunverified, ?_, Or.inr ⟨?_, ?_⟩⟩ hstays
    · by_contra hsame
      simp only [not_or, not_not] at hsame
      exact hother (hsame.2.1 ▸ hsame.2.2 ▸ hnames)
    · exact (congrArg some hnames.1).trans hattested.maker.symm
    · exact hnames.2.imp_right fun htaker => htaker.trans hattested.taker.symm
  · exact ⟨hstored, (hrows _).mpr (Or.inr rfl)⟩

end SettlementsTable

theorem matchSettlement_unconfirmed {events : List SettledAuthEvent} {a : EventAttribution} {row : SettlementRow}
    (hevents : ∀ ev ∈ events, ev.txHash = a.txHash →
      ev.makerRelayer = a.eventMakerRelayer ∧ ev.takerRelayer = a.eventTakerRelayer)
    (hrow : row.txHash = a.txHash) (hother : ¬a.Names row.makerRelayer row.takerRelayer) (d : VerifyDecision) :
    matchSettlement events row ≠ .inl d := by
  intro hmatch
  obtain ⟨ev, hev, hconfirms, -⟩ := matchSettlement_inl hmatch
  obtain ⟨hmaker, htaker⟩ := hevents ev hev (hconfirms.txHash.trans hrow)
  refine hother ⟨hconfirms.makerRelayer.symm.trans hmaker, ?_⟩
  cases hrowTaker : row.takerRelayer with
  | none => exact Or.inl rfl
  | some taker => exact Or.inr (congrArg some ((hconfirms.takerRelayer taker hrowTaker).symm.trans htaker))

/-- What a row under attestation holds against a squatter. -/
structure SettlementsTable.Binds (table : SettlementsTable) (a : EventAttribution) (row : SettlementRow) : Prop where
  /-- a report that names other relayers changes nothing -/
  refused : ∀ getOrder submitter (payload : SettlementInsert) now, payload.txHash = a.txHash →
    ¬a.Names payload.makerRelayer payload.takerRelayer →
    table.insertSettlement getOrder submitter payload now = (table, false)
  /-- the attested relayers take an unverified row that names others -/
  replaced : row.verified = false → ¬a.Names row.makerRelayer row.takerRelayer →
    ∀ getOrder submitter (payload : SettlementInsert) now, payload.txHash = a.txHash →
      a.Names payload.makerRelayer payload.takerRelayer →
      (table.insertSettlement getOrder submitter payload now).2 = true ∧
        table.storedRow getOrder submitter payload now ∈ (table.insertSettlement getOrder submitter payload now).1.rows
  /-- a pass over the attesting events does not confirm a row that names others -/
  unconfirmed : ¬a.Names row.makerRelayer row.takerRelayer → ∀ events : List SettledAuthEvent,
    (∀ ev ∈ events, ev.txHash = a.txHash →
      ev.makerRelayer = a.eventMakerRelayer ∧ ev.takerRelayer = a.eventTakerRelayer) →
    ∀ d, matchSettlement events row ≠ .inl d
  /-- a row that names the attested relayers goes on naming them -/
  kept : a.Names row.makerRelayer row.takerRelayer → ∀ ops, (∀ op ∈ ops, SettlementOp.AgreesWith a op) →
    ∃ row' ∈ (after SettlementOp.run table ops).rows, row'.AttestedBy a ∧ a.Names row'.makerRelayer row'.takerRelayer

/-- Where the row of an attested transaction comes from. -/
inductive SettlementRow.Descends (row₀ : SettlementRow) (a : EventAttribution) (ops : List SettlementOp)
    (row : SettlementRow) : Prop where
  | kept (hsame : row₀.SameSubmission row)
  | replaced {getOrder : String → Option StoredOrder} {submitter : Address} {payload : SettlementInsert} {now : ℕ}
      (hop : SettlementOp.insertSettlement getOrder submitter payload now ∈ ops) (htx : payload.txHash = a.txHash)
      (hnames : a.Names payload.makerRelayer payload.takerRelayer)
      (hsame : ((payload.snapshot getOrder).row submitter now).SameSubmission row)

section Runs

variable {table : SettlementsTable} {a : EventAttribution} {row row₀ : SettlementRow} {ops : List SettlementOp}

/-- A verified row is final. -/
theorem verified_final (hrow : row ∈ table.rows) (hverified : row.verified = true) :
    row ∈ (after SettlementOp.run table ops).rows := by
  refine invariant (I := fun t : SettlementsTable => row ∈ t.rows) (fun op _ t t' hmember hrun => ?_) hrow
  cases hrun
  exact SettlementsTable.apply_verified hmember hverified

/-- A row that names the attested relayers goes on naming them. -/
theorem names_kept (hrow : row ∈ table.rows) (hattested : row.AttestedBy a)
    (hnames : a.Names row.makerRelayer row.takerRelayer) (hops : ∀ op ∈ ops, op.AgreesWith a) :
    ∃ row' ∈ (after SettlementOp.run table ops).rows,
      row'.AttestedBy a ∧ a.Names row'.makerRelayer row'.takerRelayer := by
  refine invariant (I := fun t : SettlementsTable =>
    ∃ row' ∈ t.rows, row'.AttestedBy a ∧ a.Names row'.makerRelayer row'.takerRelayer)
    (fun op hop t t' hold hrun => ?_) ⟨row, hrow, hattested, hnames⟩
  cases hrun
  obtain ⟨row₁, hrow₁, hattested₁, hnames₁⟩ := hold
  obtain ⟨row₂, hrow₂, hattested₂, hsource⟩ := SettlementsTable.apply_attested (hops op hop) hrow₁ hattested₁
  refine ⟨row₂, hrow₂, hattested₂, ?_⟩
  rcases hsource with hsame | ⟨getOrder, submitter, payload, now, -, -, hpayload, hsame⟩
  · exact hsame.names.mpr hnames₁
  · obtain ⟨hmaker, htaker⟩ := Prod.mk.inj (SettlementsTable.snapshot_relayers getOrder payload)
    rw [hsame.names, SettlementInsert.row, hmaker, htaker]
    exact hpayload

/-- The row of an attested transaction descends from the one that was there. -/
theorem attested_descends (hrow : row ∈ table.rows) (hattested : row.AttestedBy a) (hsame : row₀.SameSubmission row)
    (hops : ∀ op ∈ ops, op.AgreesWith a) :
    ∃ row' ∈ (after SettlementOp.run table ops).rows, row'.AttestedBy a ∧ row₀.Descends a ops row' := by
  refine invariant (I := fun t : SettlementsTable => ∃ row' ∈ t.rows, row'.AttestedBy a ∧ row₀.Descends a ops row')
    (fun op hop t t' hold hrun => ?_) ⟨row, hrow, hattested, .kept hsame⟩
  cases hrun
  obtain ⟨row₁, hrow₁, hattested₁, hdescends⟩ := hold
  obtain ⟨row₂, hrow₂, hattested₂, hsource⟩ := SettlementsTable.apply_attested (hops op hop) hrow₁ hattested₁
  refine ⟨row₂, hrow₂, hattested₂, ?_⟩
  rcases hsource with hsame₂ | ⟨getOrder, submitter, payload, now, rfl, htx, hnames, hsame₂⟩
  · cases hdescends with
    | kept hsame₁ => exact .kept (hsame₁.trans hsame₂)
    | replaced hop htx hnames hsame₁ => exact .replaced hop htx hnames (hsame₁.trans hsame₂)
  · exact .replaced hop htx hnames hsame₂

theorem stampAttribution_attests (hrow : row ∈ table.rows) (htx : row.txHash = a.txHash) (hunverified : row.verified = false) :
    ∃ row' ∈ (table.stampAttribution a.eventMakerRelayer (some a.eventTakerRelayer) a.txHash).rows,
      row'.AttestedBy a ∧ row.SameSubmission row' :=
  ⟨_, Table.mem_update.mpr ⟨row, hrow, if_pos (decide_eq_true ⟨htx, hunverified⟩)⟩, ⟨htx, rfl, rfl⟩, rfl⟩

theorem recordEventAttribution_attests {earlier later : List EventAttribution} (hrow₀ : row₀ ∈ table.rows)
    (htx : row₀.txHash = a.txHash) (hunverified : row₀.verified = false) (hlast : ∀ r ∈ later, r.txHash ≠ a.txHash) :
    ∃ row ∈ (table.recordEventAttribution (earlier ++ a :: later)).rows, row.AttestedBy a ∧ row₀.SameSubmission row := by
  obtain ⟨row₁, hrow₁, hsame₁⟩ := (table.recordEventAttribution_rewrites earlier).target row₀ hrow₀
  obtain ⟨row₂, hrow₂, hattested₂, hsame₂⟩ := stampAttribution_attests hrow₁ (hsame₁.sameSubmission.txHash.trans htx)
    (hsame₁.verified.trans hunverified)
  have hverifier : ¬∃ getOrder submitter payload now,
      SettlementOp.recordEventAttribution later = .insertSettlement getOrder submitter payload now := by simp
  obtain ⟨row, hrow, hcarries⟩ := (SettlementsTable.apply_carries _ a hverifier).target row₂ hrow₂
  refine ⟨row, ?_, hcarries.attested (fun r hr h => absurd h (hlast r hr)) hattested₂,
    (hsame₁.sameSubmission.trans hsame₂).trans hcarries.submission⟩
  rw [SettlementsTable.recordEventAttribution, List.foldl_append, List.foldl_cons]
  exact hrow

/-- **An attestation binds.** After any operations that follow it, the row of its transaction carries it, and is the row it was stored on or comes from a report that names the attested relayers; verified rows are final. -/
theorem attestation_binds {earlier later : List EventAttribution} {table' : SettlementsTable} (hrow₀ : row₀ ∈ table.rows)
    (htx : row₀.txHash = a.txHash) (hunverified : row₀.verified = false) (hlast : ∀ r ∈ later, r.txHash ≠ a.txHash)
    (hops : ∀ op ∈ ops, op.AgreesWith a)
    (htable' : table' = after SettlementOp.run (table.recordEventAttribution (earlier ++ a :: later)) ops) :
    (∃ row ∈ table'.rows, row.AttestedBy a ∧ row₀.Descends a ops row ∧ table'.Binds a row) ∧
      ∀ row ∈ table'.rows, row.verified = true → ∀ ops', row ∈ (after SettlementOp.run table' ops').rows := by
  refine ⟨?_, fun row hrow hverified ops' => verified_final hrow hverified⟩
  obtain ⟨row₁, hrow₁, hattested₁, hsame₁⟩ := recordEventAttribution_attests hrow₀ htx hunverified hlast
  obtain ⟨row, hrow, hattested, hdescends⟩ := attested_descends hrow₁ hattested₁ hsame₁ hops
  rw [← htable'] at hrow
  refine ⟨row, hrow, hattested, hdescends, ?_, ?_, ?_, ?_⟩
  · exact fun getOrder submitter payload now => SettlementsTable.insertSettlement_refused hrow hattested
  · intro hrowUnverified hother getOrder submitter payload now
    exact SettlementsTable.insertSettlement_replaced hrow hattested hrowUnverified hother
  · exact fun hother events hevents => matchSettlement_unconfirmed hevents hattested.txHash hother
  · exact fun hnames ops' => names_kept hrow hattested hnames

end Runs

/-- A squatter reports the settlement under its own name first. -/
def stolenReport : SettlementInsert := { honestReport with makerRelayer := 9, takerRelayer := none }

def squatted : SettlementsTable := (SettlementsTable.insertSettlement .empty (fun _ => none) 9 stolenReport 900).1

def attested : EventAttribution := ⟨100, 1, 2⟩

/-- The squatter reports again before and after the relayer it robbed. -/
def contested : List SettlementOp :=
  [.insertSettlement (fun _ => none) 9 stolenReport 901, .insertSettlement (fun _ => none) 1 honestReport 902,
    .insertSettlement (fun _ => none) 9 stolenReport 903, .recordVerifyFailures [100],
    .markSettlementsVerified [⟨100, some 1000, some 3, some 4⟩]]

theorem attestation_binds_contested :
    ∃ row ∈ (after SettlementOp.run (squatted.recordEventAttribution [attested]) contested).rows,
      row.AttestedBy attested ∧ (stolenReport.row 9 900).Descends attested contested row := by
  have hbinds := @attestation_binds squatted attested (stolenReport.row 9 900) contested [] [] _ (by decide +kernel) rfl
    rfl (by simp) (by simp [contested, SettlementOp.AgreesWith]) rfl
  obtain ⟨⟨row, hrow, hattested, hdescends, -⟩, -⟩ := hbinds
  exact ⟨row, hrow, hattested, hdescends⟩

/-- The row ends as the one of the robbed relayer. -/
example : (after SettlementOp.run (squatted.recordEventAttribution [attested]) contested).rows.map
    (fun row => (row.makerRelayer, row.verified)) = [(1, true)] := by decide +kernel

end SharedOrderbook

end ScatterDex
