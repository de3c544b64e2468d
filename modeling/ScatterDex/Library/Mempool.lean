import Mathlib.Data.List.Basic

/-!
# Transactions that were sent

A transaction is pending from when it is sent until a block decides it: it is mined with its effects, or it reverts. The hash of a transaction is its place among those sent.
-/

variable {α : Type*}

namespace Mempool

inductive Fate
  | pending
  | mined
  | reverted
  deriving DecidableEq

structure Tx (α : Type*) where
  body : α
  fate : Fate

/-- A block decides a transaction. -/
def settle (txs : List (Tx α)) (hash : ℕ) (fate : Fate) : List (Tx α) :=
  txs.modify hash fun tx => { tx with fate }

variable {txs : List (Tx α)} {hash i : ℕ} {fate : Fate} {tx : Tx α}

theorem getElem?_settle : (settle txs hash fate)[i]? = (txs[i]?).map fun tx => if hash = i then { tx with fate } else tx := by
  rw [settle, List.getElem?_modify]
  cases txs[i]? <;> rfl

theorem of_settle (htx : (settle txs hash fate)[i]? = some tx) :
    txs[i]? = some tx ∨ i = hash ∧ tx.fate = fate ∧ ∃ fate₀, txs[i]? = some ⟨tx.body, fate₀⟩ := by
  rw [getElem?_settle, Option.map_eq_some_iff] at htx
  obtain ⟨tx₀, htx₀, rfl⟩ := htx
  split
  · exact Or.inr ⟨Eq.symm (by assumption), rfl, tx₀.fate, htx₀⟩
  · exact Or.inl htx₀

theorem settle_body (htx : txs[i]? = some tx) : ∃ fate', (settle txs hash fate)[i]? = some ⟨tx.body, fate'⟩ := by
  rw [getElem?_settle, htx, Option.map_some]
  split
  · exact ⟨fate, rfl⟩
  · exact ⟨tx.fate, rfl⟩

theorem settle_of_ne (hne : hash ≠ i) : (settle txs hash fate)[i]? = txs[i]? := by
  simp [getElem?_settle, hne]

end Mempool
