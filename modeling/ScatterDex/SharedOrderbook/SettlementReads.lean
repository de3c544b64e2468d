import ScatterDex.SharedOrderbook.Settlements

/-!
# Reading the settlement records

`GET /api/settlements`: the records of a relayer or of a pair, newest block first, in pages.
-/

namespace ScatterDex

namespace SharedOrderbook

structure SettlementListFilter where
  chainId : Option ℕ
  relayer : Option Address
  pair : Option (Address × Address)
  since : Option ℕ
  verified : Option Bool
  limit : Option ℕ
  offset : Option ℕ

/-- The `WHERE` of the query. A record no pass has dated yet counts from its arrival. -/
def SettlementListFilter.selects (filter : SettlementListFilter) (row : SettlementRow) : Bool :=
  (filter.chainId.all fun chain => row.chainId = chain) &&
    (filter.relayer.all fun r => row.submitter = r ∨ row.makerRelayer = r ∨ row.takerRelayer = some r) &&
    (filter.pair.all fun p => (row.sellToken = some p.1 ∧ row.buyToken = some p.2) ∨
      (row.sellToken = some p.2 ∧ row.buyToken = some p.1)) &&
    (filter.since.all fun since => since ≤ row.blockTime.getD row.createdAt) &&
    filter.verified.all fun verified => row.verified = verified

namespace SettlementsTable

/-- Every record the filter selects, in the order of the pages. -/
def selectedSettlements (table : SettlementsTable) (filter : SettlementListFilter) : List SettlementRow :=
  (table.rows.filter filter.selects).insertionSort fun a b =>
    b.blockNumber < a.blockNumber ∨ (a.blockNumber = b.blockNumber ∧ a.txHash ≤ b.txHash)

def listSettlements (table : SettlementsTable) (filter : SettlementListFilter) : List SettlementRow :=
  ((table.selectedSettlements filter).drop (filter.offset.getD 0)).take (min (filter.limit.getD 100) 500)

variable {table : SettlementsTable} {filter : SettlementListFilter}

theorem mem_selectedSettlements {row : SettlementRow} :
    row ∈ table.selectedSettlements filter ↔ row ∈ table.rows ∧ filter.selects row = true := by
  rw [selectedSettlements, List.mem_insertionSort, List.mem_filter]

theorem selectedSettlements_distinct : ((table.selectedSettlements filter).map SettlementRow.txHash).Nodup := by
  apply (List.Perm.map SettlementRow.txHash (List.perm_insertionSort _ _)).nodup_iff.mpr
  exact table.distinct.sublist (List.filter_sublist.map SettlementRow.txHash)

end SettlementsTable

end SharedOrderbook

end ScatterDex
