import Mathlib.Algebra.BigOperators.Group.Finset.Piecewise
import Mathlib.Algebra.Order.BigOperators.Group.Finset

/-!
# A ledger of fungible tokens

The books of many tokens in one record: balances, allowances and supplies, with the bound of every sum of balances by the supply carried along. A token may tax its transfers; a standard one does not. `Action` is what the outside world can do to the books, and `perform_others` says once what such a step can do to an account that did not take it: at most one allowance the account gave is used, and nothing else leaves it.
-/

/-- Balances, allowances and supplies. The holders of a token never own more than its supply. -/
structure Ledger (Token Account : Type*) where
  balanceOf : Token → Account → ℕ
  allowance : Token → Account → Account → ℕ
  totalSupply : Token → ℕ
  sum_le : ∀ token (holders : Finset Account), ∑ a ∈ holders, balanceOf token a ≤ totalSupply token

namespace Ledger

variable {Token Account : Type*}

theorem balanceOf_le (L : Ledger Token Account) (token : Token) (a : Account) :
    L.balanceOf token a ≤ L.totalSupply token := by
  simpa using L.sum_le token {a}

/-- An allowance of this size is never used up. -/
def unlimited : ℕ := 2 ^ 256 - 1

variable [DecidableEq Account]

/-! ### Moving a balance -/

/-- Take an amount from one account and credit another with what arrives. -/
def shift (balances : Account → ℕ) (source target : Account) (amount received : ℕ) (a : Account) : ℕ :=
  balances a - (if a = source then amount else 0) + if a = target then received else 0

theorem shift_add {balances : Account → ℕ} {source : Account} {amount : ℕ}
    (hamount : amount ≤ balances source) (target : Account) (received : ℕ) (a : Account) :
    shift balances source target amount received a + (if a = source then amount else 0) =
      balances a + if a = target then received else 0 := by
  rw [shift]
  by_cases hsource : a = source
  · subst hsource
    simp only [if_true]
    omega
  · simp only [if_neg hsource]
    omega

theorem sum_shift_le {balances : Account → ℕ} {source target : Account} {amount received bound : ℕ}
    (hamount : amount ≤ balances source) (hreceived : received ≤ amount)
    (hbound : ∀ holders : Finset Account, ∑ a ∈ holders, balances a ≤ bound) (holders : Finset Account) :
    ∑ a ∈ holders, shift balances source target amount received a ≤ bound := by
  let all := insert source holders
  have hmem : source ∈ all := Finset.mem_insert_self _ _
  have hpaid : ∑ a ∈ all, (if a = source then amount else 0) = amount := by
    rw [Finset.sum_ite_eq' all source fun _ => amount, if_pos hmem]
  have hcredited : ∑ a ∈ all, (if a = target then received else 0) ≤ received := by
    rw [Finset.sum_ite_eq' all target fun _ => received]
    split <;> omega
  have htotal : ∑ a ∈ all, shift balances source target amount received a +
      ∑ a ∈ all, (if a = source then amount else 0) =
      ∑ a ∈ all, balances a + ∑ a ∈ all, (if a = target then received else 0) := by
    rw [← Finset.sum_add_distrib, ← Finset.sum_add_distrib]
    exact Finset.sum_congr rfl fun a _ => shift_add hamount target received a
  have hall := hbound all
  calc ∑ a ∈ holders, shift balances source target amount received a
      ≤ ∑ a ∈ all, shift balances source target amount received a :=
        Finset.sum_le_sum_of_subset (Finset.subset_insert _ _)
    _ ≤ bound := by omega

variable [DecidableEq Token]

/-! ### Operations -/

/-- Move an amount, of which `received` arrives. -/
def move (L : Ledger Token Account) (token : Token) (source target : Account) (amount received : ℕ)
    (hamount : amount ≤ L.balanceOf token source) (hreceived : received ≤ amount) : Ledger Token Account :=
  { L with
    balanceOf := Function.update L.balanceOf token
      (shift (L.balanceOf token) source target amount received)
    sum_le := by
      intro token' holders
      by_cases htoken : token' = token
      · subst htoken
        simp only [Function.update_self]
        exact sum_shift_le hamount hreceived (L.sum_le token') holders
      · simp only [Function.update_of_ne htoken]
        exact L.sum_le token' holders }

/-- No token takes a tax on its transfers. -/
def untaxed (_ : Token) (_ : ℕ) : ℕ := 0

/-- The books of one token that one account owns. -/
def soleHolder (token : Token) (holder : Account) (supply : ℕ) : Ledger Token Account where
  balanceOf t a := if t = token ∧ a = holder then supply else 0
  allowance _ _ _ := 0
  totalSupply t := if t = token then supply else 0
  sum_le t holders := by
    by_cases ht : t = token
    · simp only [ht, true_and, if_true]
      rw [Finset.sum_ite_eq' holders holder fun _ => supply]
      split <;> omega
    · simp [ht]

variable (tax : Token → ℕ → ℕ)

/-- `transfer`: fails without the balance. -/
def transfer (L : Ledger Token Account) (token : Token) (source target : Account) (amount : ℕ) :
    Option (Ledger Token Account) :=
  if hamount : amount ≤ L.balanceOf token source then
    some (L.move token source target amount (amount - tax token amount) hamount (Nat.sub_le _ _))
  else none

/-- `approve`: replaces the allowance. -/
def approve (L : Ledger Token Account) (token : Token) (owner spender : Account) (amount : ℕ) :
    Ledger Token Account :=
  { L with allowance := fun t a s =>
      if t = token ∧ a = owner ∧ s = spender then amount else L.allowance t a s }

/-- `transferFrom`: uses up the spender's allowance, unless it is unlimited. -/
def transferFrom (L : Ledger Token Account) (token : Token) (spender source target : Account) (amount : ℕ) :
    Option (Ledger Token Account) :=
  if amount ≤ L.allowance token source spender then
    (if L.allowance token source spender = unlimited then L
      else L.approve token source spender (L.allowance token source spender - amount)).transfer
        tax token source target amount
  else none

/-- Mint while the supply stays below a cap. -/
def mint (cap : Token → ℕ) (L : Ledger Token Account) (token : Token) (target : Account) (amount : ℕ) :
    Option (Ledger Token Account) :=
  if L.totalSupply token + amount < cap token then
    some { L with
      balanceOf := fun t a => L.balanceOf t a + if t = token ∧ a = target then amount else 0
      totalSupply := fun t => L.totalSupply t + if t = token then amount else 0
      sum_le := by
        intro t holders
        have hsum := L.sum_le t holders
        by_cases ht : t = token
        · simp only [ht, true_and, if_true] at hsum ⊢
          rw [Finset.sum_add_distrib, Finset.sum_ite_eq' holders target fun _ => amount]
          split <;> omega
        · simpa [ht] using hsum }
  else none

/-- Burn from one's own balance. -/
def burn (L : Ledger Token Account) (token : Token) (source : Account) (amount : ℕ) :
    Option (Ledger Token Account) :=
  if hamount : amount ≤ L.balanceOf token source then
    some (L.move token source source amount 0 hamount (Nat.zero_le _))
  else none

/-! ### What the operations do -/

variable {L L' : Ledger Token Account} {token : Token} {source target spender : Account} {amount : ℕ}

theorem move_balance (hamount : amount ≤ L.balanceOf token source) {received : ℕ}
    (hreceived : received ≤ amount) (t : Token) (a : Account) :
    (L.move token source target amount received hamount hreceived).balanceOf t a +
        (if t = token ∧ a = source then amount else 0) =
      L.balanceOf t a + if t = token ∧ a = target then received else 0 := by
  by_cases ht : t = token
  · subst ht
    simp only [move, Function.update_self, true_and]
    exact shift_add hamount target received a
  · simp [move, ht]

variable {tax}

theorem transfer_balance (htransfer : L.transfer tax token source target amount = some L') (t : Token)
    (a : Account) :
    L'.balanceOf t a + (if t = token ∧ a = source then amount else 0) =
      L.balanceOf t a + if t = token ∧ a = target then amount - tax token amount else 0 := by
  rw [transfer] at htransfer
  split at htransfer
  · cases htransfer
    exact move_balance _ _ t a
  · cases htransfer

theorem transfer_le (htransfer : L.transfer tax token source target amount = some L') :
    amount ≤ L.balanceOf token source := by
  rw [transfer] at htransfer
  split at htransfer
  · assumption
  · cases htransfer

theorem transfer_allowance (htransfer : L.transfer tax token source target amount = some L') :
    L'.allowance = L.allowance := by
  rw [transfer] at htransfer
  split at htransfer
  · cases htransfer
    rfl
  · cases htransfer

theorem transfer_totalSupply (htransfer : L.transfer tax token source target amount = some L') :
    L'.totalSupply = L.totalSupply := by
  rw [transfer] at htransfer
  split at htransfer
  · cases htransfer
    rfl
  · cases htransfer

theorem transfer_ok (hamount : amount ≤ L.balanceOf token source) :
    ∃ L', L.transfer tax token source target amount = some L' := by
  rw [transfer, dif_pos hamount]
  exact ⟨_, rfl⟩

theorem transfer_balance_ge (htransfer : L.transfer tax token source target amount = some L') {a : Account}
    (ha : a ≠ source) (t : Token) : L.balanceOf t a ≤ L'.balanceOf t a := by
  have hbalance := transfer_balance htransfer t a
  rw [if_neg fun h => ha h.2] at hbalance
  omega

theorem burn_ok (hamount : amount ≤ L.balanceOf token source) : ∃ L', L.burn token source amount = some L' := by
  rw [burn, dif_pos hamount]
  exact ⟨_, rfl⟩

theorem burn_balance (hburn : L.burn token source amount = some L') (t : Token) (a : Account) :
    L'.balanceOf t a + (if t = token ∧ a = source then amount else 0) = L.balanceOf t a := by
  rw [burn] at hburn
  split at hburn
  · cases hburn
    rw [move_balance]
    split <;> rfl
  · cases hburn

theorem burn_allowance (hburn : L.burn token source amount = some L') : L'.allowance = L.allowance := by
  rw [burn] at hburn
  split at hburn
  · cases hburn
    rfl
  · cases hburn

theorem burn_totalSupply (hburn : L.burn token source amount = some L') : L'.totalSupply = L.totalSupply := by
  rw [burn] at hburn
  split at hburn
  · cases hburn
    rfl
  · cases hburn

theorem transferFrom_cases (htransfer : L.transferFrom tax token spender source target amount = some L') :
    amount ≤ L.allowance token source spender ∧
      ∃ M, M.transfer tax token source target amount = some L' ∧ M.balanceOf = L.balanceOf ∧
        M.totalSupply = L.totalSupply ∧
        (M = L ∧ L.allowance token source spender = unlimited ∨
          M = L.approve token source spender (L.allowance token source spender - amount)) := by
  rw [transferFrom] at htransfer
  split at htransfer
  · refine ⟨‹_›, _, htransfer, ?_, ?_, ?_⟩ <;> split
    · rfl
    · rfl
    · rfl
    · rfl
    · exact Or.inl ⟨rfl, ‹_›⟩
    · exact Or.inr rfl
  · cases htransfer

theorem transferFrom_balance (htransfer : L.transferFrom tax token spender source target amount = some L')
    (t : Token) (a : Account) :
    L'.balanceOf t a + (if t = token ∧ a = source then amount else 0) =
      L.balanceOf t a + if t = token ∧ a = target then amount - tax token amount else 0 := by
  obtain ⟨-, M, hM, hbalances, -⟩ := transferFrom_cases htransfer
  rw [← hbalances]
  exact transfer_balance hM t a

theorem transferFrom_totalSupply (htransfer : L.transferFrom tax token spender source target amount = some L') :
    L'.totalSupply = L.totalSupply := by
  obtain ⟨-, M, hM, -, hsupply, -⟩ := transferFrom_cases htransfer
  rw [← hsupply]
  exact transfer_totalSupply hM

theorem transferFrom_allowance_of_ne (htransfer : L.transferFrom tax token spender source target amount = some L')
    {a : Account} (ha : a ≠ source) (t : Token) (s : Account) : L'.allowance t a s = L.allowance t a s := by
  obtain ⟨-, M, hM, -, -, ⟨rfl, -⟩ | rfl⟩ := transferFrom_cases htransfer
  · rw [transfer_allowance hM]
  · rw [transfer_allowance hM, approve]
    simp [ha]

theorem mint_cases {cap : Token → ℕ} (hmint : L.mint cap token target amount = some L') :
    L.totalSupply token + amount < cap token ∧ L'.allowance = L.allowance ∧
      (∀ t a, L'.balanceOf t a = L.balanceOf t a + if t = token ∧ a = target then amount else 0) ∧
      ∀ t, L'.totalSupply t = L.totalSupply t + if t = token then amount else 0 := by
  rw [mint] at hmint
  split at hmint
  · cases hmint
    exact ⟨‹_›, rfl, fun _ _ => rfl, fun _ => rfl⟩
  · cases hmint

/-! ### The outside world -/

/-- What anybody can do to the books. Minting is up to the token. -/
inductive Action (Token Account : Type*)
  | transfer (token : Token) (actor target : Account) (amount : ℕ)
  | transferFrom (token : Token) (actor source target : Account) (amount : ℕ)
  | approve (token : Token) (actor spender : Account) (amount : ℕ)
  | mint (token : Token) (target : Account) (amount : ℕ)
  | burn (token : Token) (actor : Account) (amount : ℕ)

/-- The account that takes an action. -/
def Action.actor : Action Token Account → Option Account
  | .transfer _ actor _ _ | .transferFrom _ actor _ _ _ | .approve _ actor _ _ | .burn _ actor _ => some actor
  | .mint _ _ _ => none

variable (tax)

def perform (cap : Token → ℕ) (L : Ledger Token Account) : Action Token Account → Option (Ledger Token Account)
  | .transfer token actor target amount => L.transfer tax token actor target amount
  | .transferFrom token actor source target amount => L.transferFrom tax token actor source target amount
  | .approve token actor spender amount => some (L.approve token actor spender amount)
  | .mint token target amount => L.mint cap token target amount
  | .burn token actor amount => L.burn token actor amount

variable {tax} {cap : Token → ℕ} {action : Action Token Account}

/-- **What others can do to an account.** An action takes at most what one allowance of the account grants, and uses that allowance up by as much. -/
theorem perform_others (hperform : L.perform tax cap action = some L') {a : Account}
    (hactor : action.actor ≠ some a) (hlimited : ∀ t s, L.allowance t a s ≠ unlimited) :
    ∃ token spender taken,
      (∀ t, L.balanceOf t a ≤ L'.balanceOf t a + if t = token then taken else 0) ∧
      ∀ t s, L'.allowance t a s + (if t = token ∧ s = spender then taken else 0) = L.allowance t a s := by
  cases action with
  | transfer token actor target amount =>
    have ha : a ≠ actor := fun h => hactor (h ▸ rfl)
    refine ⟨token, actor, 0, fun t => ?_, fun t s => ?_⟩
    · rw [ite_self]
      exact transfer_balance_ge hperform ha t
    · rw [ite_self, transfer_allowance hperform, Nat.add_zero]
  | transferFrom token actor source target amount =>
    have hbalance := fun t => transferFrom_balance hperform t a
    by_cases ha : a = source
    · subst ha
      refine ⟨token, actor, amount, fun t => ?_, fun t s => ?_⟩
      · have ht := hbalance t
        simp only [and_true] at ht
        omega
      · obtain ⟨hamount, M, hM, -, -, ⟨-, hunlimited⟩ | rfl⟩ := transferFrom_cases hperform
        · exact absurd hunlimited (hlimited token actor)
        · rw [transfer_allowance hM, approve]
          by_cases hts : t = token ∧ s = actor
          · obtain ⟨rfl, rfl⟩ := hts
            simp only [and_self, if_true]
            omega
          · simp only [true_and, if_neg hts, Nat.add_zero]
    · refine ⟨token, actor, 0, fun t => ?_, fun t s => ?_⟩
      · have ht := hbalance t
        rw [if_neg fun h => ha h.2] at ht
        rw [ite_self]
        omega
      · rw [ite_self, Nat.add_zero, transferFrom_allowance_of_ne hperform ha]
  | approve token actor spender amount =>
    have ha : a ≠ actor := fun h => hactor (h ▸ rfl)
    cases hperform
    refine ⟨token, actor, 0, fun t => ?_, fun t s => ?_⟩
    · rw [ite_self]
      exact le_rfl
    · simp [approve, ha]
  | mint token target amount =>
    obtain ⟨-, hallowance, hbalance, -⟩ := mint_cases hperform
    refine ⟨token, target, 0, fun t => ?_, fun t s => ?_⟩
    · rw [hbalance]
      omega
    · rw [ite_self, hallowance, Nat.add_zero]
  | burn token actor amount =>
    have ha : a ≠ actor := fun h => hactor (h ▸ rfl)
    refine ⟨token, actor, 0, fun t => ?_, fun t s => ?_⟩
    · have hbalance := burn_balance hperform t a
      rw [if_neg fun h => ha h.2] at hbalance
      omega
    · rw [ite_self, burn_allowance hperform, Nat.add_zero]

/-- An account since some earlier books: it gave at most one allowance, and lost at most what was used of it. -/
structure Guarded (earlier L : Ledger Token Account) (a : Account) (token : Token) (spender : Account) (limit : ℕ) :
    Prop where
  others : ∀ t s, ¬(t = token ∧ s = spender) → L.allowance t a s = 0
  limited : L.allowance token a spender ≤ limit
  kept : ∀ t, earlier.balanceOf t a + (if t = token then L.allowance token a spender else 0) ≤
    L.balanceOf t a + if t = token then limit else 0

namespace Guarded

variable {earlier : Ledger Token Account} {a : Account} {limit : ℕ}

theorem approve (hnone : ∀ t s, L.allowance t a s = 0) (token : Token) (spender : Account) (limit : ℕ) :
    Guarded L (L.approve token a spender limit) a token spender limit where
  others := by
    intro t s hother
    simp only [Ledger.approve, true_and, if_neg hother]
    exact hnone t s
  limited := by simp [Ledger.approve]
  kept := by
    intro t
    simp [Ledger.approve]

omit [DecidableEq Account] in
theorem refl (hnone : ∀ t s, L.allowance t a s = 0) (token : Token) (spender : Account) :
    Guarded L L a token spender 0 where
  others := fun t s _ => hnone t s
  limited := by rw [hnone]
  kept := fun t => by simp [hnone]

omit [DecidableEq Account] in
theorem mono (hguarded : Guarded earlier L a token spender limit)
    (hbalance : ∀ t, L.balanceOf t a ≤ L'.balanceOf t a) (hallowance : ∀ t s, L'.allowance t a s = L.allowance t a s) :
    Guarded earlier L' a token spender limit where
  others := fun t s hother => by rw [hallowance, hguarded.others t s hother]
  limited := by rw [hallowance]; exact hguarded.limited
  kept := by
    intro t
    have hkept := hguarded.kept t
    have hle := hbalance t
    rw [hallowance]
    omega

omit [DecidableEq Account] in
theorem unexposed (hguarded : Guarded earlier L a token spender 0) :
    (∀ t, earlier.balanceOf t a ≤ L.balanceOf t a) ∧ ∀ t s, L.allowance t a s = 0 := by
  refine ⟨fun t => ?_, fun t s => ?_⟩
  · have hkept := hguarded.kept t
    rw [ite_self] at hkept
    omega
  · by_cases hts : t = token ∧ s = spender
    · obtain ⟨rfl, rfl⟩ := hts
      exact Nat.le_zero.mp hguarded.limited
    · exact hguarded.others t s hts

/-- **What others do keeps an account guarded.** -/
theorem perform (hguarded : Guarded earlier L a token spender limit) (hlimit : limit < unlimited)
    (hactor : action.actor ≠ some a) (hperform : L.perform tax cap action = some L') :
    Guarded earlier L' a token spender limit := by
  have hlimited : ∀ t s, L.allowance t a s ≠ unlimited := by
    intro t s
    by_cases hts : t = token ∧ s = spender
    · obtain ⟨rfl, rfl⟩ := hts
      exact (lt_of_le_of_lt hguarded.limited hlimit).ne
    · rw [hguarded.others t s hts]
      decide
  obtain ⟨token', spender', taken, hbalance, hallowance⟩ := perform_others hperform hactor hlimited
  have hused := hallowance token spender
  refine ⟨fun t s hts => ?_, ?_, fun t => ?_⟩
  · have hother := hallowance t s
    rw [hguarded.others t s hts] at hother
    omega
  · exact (Nat.le_of_add_right_le hused.le).trans hguarded.limited
  · have hkept := hguarded.kept t
    have hle := hbalance t
    by_cases hpair : token = token' ∧ spender = spender'
    · obtain ⟨rfl, rfl⟩ := hpair
      simp only [and_self, if_true] at hused
      by_cases ht : t = token
      · simp only [ht, if_true] at hkept hle ⊢
        omega
      · simp only [if_neg ht] at hkept hle ⊢
        omega
    · -- another allowance was used, and it was zero
      have hzero : taken = 0 := by
        have hother := hallowance token' spender'
        rw [hguarded.others token' spender' fun h => hpair ⟨h.1.symm, h.2.symm⟩, if_pos ⟨rfl, rfl⟩] at hother
        omega
      rw [if_neg hpair, Nat.add_zero] at hused
      rw [hused]
      rw [hzero, ite_self, Nat.add_zero] at hle
      omega

end Guarded

theorem perform_supply (hperform : L.perform tax cap action = some L')
    (hcap : ∀ t, L.totalSupply t < cap t) : ∀ t, L'.totalSupply t < cap t := by
  intro t
  cases action with
  | transfer token actor target amount =>
    rw [transfer_totalSupply hperform]
    exact hcap t
  | transferFrom token actor source target amount =>
    rw [transferFrom_totalSupply hperform]
    exact hcap t
  | approve token actor spender amount =>
    cases hperform
    exact hcap t
  | mint token target amount =>
    obtain ⟨hroom, -, -, hsupply⟩ := mint_cases hperform
    rw [hsupply]
    by_cases ht : t = token
    · rw [if_pos ht, ht]
      exact hroom
    · rw [if_neg ht]
      exact hcap t
  | burn token actor amount =>
    rw [burn_totalSupply hperform]
    exact hcap t

end Ledger
