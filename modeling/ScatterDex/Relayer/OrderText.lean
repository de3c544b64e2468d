import ScatterDex.Relayer.AuthorizeOrder
import ScatterDex.Sdk.Text

/-!
# Orders on the wire

A submitted order is text: the named signals, the positional array and the proof points are strings that `BigInt` reads in many spellings. The relayer checks the text, verifies the proof against the array, and builds the calldata from the named signals.
-/

namespace ScatterDex

open Bn254 Fallible Sdk

namespace Relayer

/-! ### BigInt -/

/-- Digits of a base, at least one, with letters of either case. -/
def digitsValue (base : ℕ) (digits : List Char) : Option ℕ :=
  if digits = [] then none else readDigits base (digits.map Char.toLower)

/-- The literals of `BigInt(string)`: nothing, a signed decimal, or a prefix and digits of its base. -/
def bigIntLiteral : List Char → Option ℤ
  | [] => some 0
  | '+' :: digits => (digitsValue 10 digits).map Int.ofNat
  | '-' :: digits => (digitsValue 10 digits).map fun n => -(n : ℤ)
  | '0' :: 'x' :: digits | '0' :: 'X' :: digits => (digitsValue 16 digits).map Int.ofNat
  | '0' :: 'o' :: digits | '0' :: 'O' :: digits => (digitsValue 8 digits).map Int.ofNat
  | '0' :: 'b' :: digits | '0' :: 'B' :: digits => (digitsValue 2 digits).map Int.ofNat
  | digits => (digitsValue 10 digits).map Int.ofNat

/-- `BigInt(string)` -/
def toBigInt (s : String) : Except String ℤ :=
  match bigIntLiteral (trim s) with
  | some v => .ok v
  | none => .error s!"Cannot convert {s} to a BigInt"

/-- `v.toString(base)` -/
def bigIntToString (base : ℕ) (v : ℤ) : List Char :=
  if v < 0 then '-' :: Nat.toDigits base v.natAbs else Nat.toDigits base v.toNat

/-- The hexadecimal digits of a value behind `0x`, padded to a width. -/
def padHex (width : ℕ) (v : ℤ) : String := "0x" ++ String.ofList ((bigIntToString 16 v).leftpad width '0')

theorem digitValue_digitChar {d : ℕ} (hd : d < 16) :
    digitValue d.digitChar = some d ∧ d.digitChar.toLower = d.digitChar := by
  revert d
  decide

theorem readDigits_append {base value digit : ℕ} {digits : List Char} {c : Char} (hdigits : readDigits base digits = some value)
    (hc : digitValue c = some digit) (hdigit : digit < base) : readDigits base (digits ++ [c]) = some (value * base + digit) := by
  unfold readDigits at hdigits ⊢
  rw [List.foldlM_append, hdigits]
  simp [hc, hdigit]

theorem readDigits_toDigits {base : ℕ} (hbase : 1 < base) (hle : base ≤ 16) (n : ℕ) :
    readDigits base (Nat.toDigits base n) = some n := by
  induction n using Nat.strongRecOn with
  | ind n ih =>
    rw [Nat.toDigits_eq_if hbase]
    split
    · next hlt =>
      have hnil : readDigits base [] = some 0 := rfl
      have hread := readDigits_append hnil (digitValue_digitChar (by omega)).1 hlt
      simpa using hread
    · next hge =>
      have hlt := Nat.mod_lt n (show 0 < base by omega)
      have hread := readDigits_append (ih (n / base) (Nat.div_lt_self (by omega) hbase))
        (digitValue_digitChar (show n % base < 16 by omega)).1 hlt
      rw [hread, Nat.div_add_mod']

theorem toLower_toDigits {base : ℕ} (hbase : 1 < base) (hle : base ≤ 16) (n : ℕ) :
    (Nat.toDigits base n).map Char.toLower = Nat.toDigits base n := by
  induction n using Nat.strongRecOn with
  | ind n ih =>
    rw [Nat.toDigits_eq_if hbase]
    split
    · next hlt => simp [(digitValue_digitChar (show n < 16 by omega)).2]
    · next hge =>
      have hlt := Nat.mod_lt n (show 0 < base by omega)
      rw [List.map_append, ih (n / base) (Nat.div_lt_self (by omega) hbase)]
      simp [(digitValue_digitChar (show n % base < 16 by omega)).2]

theorem isHexDigit_of_mem_toDigits {base : ℕ} (hbase : 1 < base) (hle : base ≤ 16) {n : ℕ} {c : Char} (hc : c ∈ Nat.toDigits base n) :
    isHexDigit c = true := by
  have hall : ∀ d < 16, isHexDigit d.digitChar = true := by decide
  induction n using Nat.strongRecOn generalizing c with
  | ind n ih =>
    rw [Nat.toDigits_eq_if hbase] at hc
    split at hc
    · next hlt =>
      rw [List.mem_singleton.mp hc]
      exact hall n (by omega)
    · next hge =>
      have hlt := Nat.mod_lt n (show 0 < base by omega)
      rcases List.mem_append.mp hc with hfirst | hlast
      · exact ih (n / base) (Nat.div_lt_self (by omega) hbase) hfirst
      · rw [List.mem_singleton.mp hlast]
        exact hall (n % base) (by omega)

theorem toBigInt_hex (n : ℕ) : toBigInt ("0x" ++ String.ofList (Nat.toDigits 16 n)) = .ok n := by
  have hchars : ("0x" ++ String.ofList (Nat.toDigits 16 n)).toList = '0' :: 'x' :: Nat.toDigits 16 n := by
    rw [String.toList_append, String.toList_ofList, String.toList_ofList]
    rfl
  have htrim : trim ("0x" ++ String.ofList (Nat.toDigits 16 n)) = '0' :: 'x' :: Nat.toDigits 16 n := by
    rw [trim_eq_toList, hchars]
    rw [hchars]
    intro c hc
    rcases List.mem_cons.mp hc with rfl | hc
    · decide
    rcases List.mem_cons.mp hc with rfl | hc
    · decide
    exact isWhitespace_of_isHexDigit (isHexDigit_of_mem_toDigits (by decide) le_rfl hc)
  have hread : digitsValue 16 (Nat.toDigits 16 n) = some n := by
    rw [digitsValue, if_neg Nat.toDigits_ne_nil, toLower_toDigits (by decide) le_rfl, readDigits_toDigits (by decide) le_rfl]
  rw [toBigInt, htrim, bigIntLiteral, hread]
  rfl

theorem readDigits_leftpad {base : ℕ} (hbase : 0 < base) (width : ℕ) (digits : List Char) :
    readDigits base (digits.leftpad width '0') = readDigits base digits := by
  rw [List.leftpad]
  induction width - digits.length with
  | zero => rfl
  | succ k ih =>
    rw [List.replicate_succ, List.cons_append, ← ih]
    unfold readDigits
    rw [List.foldlM_cons]
    simp [digitValue, hbase]

/-- The digits behind `0x`, when the value is a natural number. -/
def hexDigits (width n : ℕ) : List Char := (Nat.toDigits 16 n).leftpad width '0'

theorem padHex_natCast (width n : ℕ) : padHex width n = "0x" ++ String.ofList (hexDigits width n) := by
  rw [padHex, bigIntToString, if_neg (by omega), Int.toNat_natCast, hexDigits]

theorem readDigits_hexDigits (width n : ℕ) : readDigits 16 (hexDigits width n) = some n := by
  rw [hexDigits, readDigits_leftpad (by decide), readDigits_toDigits (by decide) le_rfl]

theorem toLower_hexDigits (width n : ℕ) : (hexDigits width n).map Char.toLower = hexDigits width n := by
  rw [hexDigits, List.leftpad, List.map_append, toLower_toDigits (by decide) le_rfl, List.map_replicate]
  rfl

theorem length_hexDigits {width n : ℕ} (hwidth : 0 < width) (hn : n < 16 ^ width) : (hexDigits width n).length = width := by
  have hlength := (Nat.length_toDigits_le_iff (by decide) hwidth).mpr hn
  rw [hexDigits, List.length_leftpad, max_eq_left hlength]

/-! ### Orders -/

/-- The public signals of authorize.circom. -/
inductive Signal where
  | pubKeyBind
  | commitmentRoot
  | nullifier
  | nonceNullifier
  | newCommitment
  | sellToken
  | buyToken
  | sellAmount
  | buyAmount
  | maxFee
  | expiry
  | claimsRoot
  | totalLocked
  | relayer
  | orderHash
  deriving DecidableEq

def Signal.name : Signal → String
  | .pubKeyBind => "pubKeyBind"
  | .commitmentRoot => "commitmentRoot"
  | .nullifier => "nullifier"
  | .nonceNullifier => "nonceNullifier"
  | .newCommitment => "newCommitment"
  | .sellToken => "sellToken"
  | .buyToken => "buyToken"
  | .sellAmount => "sellAmount"
  | .buyAmount => "buyAmount"
  | .maxFee => "maxFee"
  | .expiry => "expiry"
  | .claimsRoot => "claimsRoot"
  | .totalLocked => "totalLocked"
  | .relayer => "relayer"
  | .orderHash => "orderHash"

/-- The order in which the circuit emits the signals. -/
def AUTHORIZE_PUBLIC_SIGNAL_ORDER : List Signal :=
  [.pubKeyBind, .commitmentRoot, .nullifier, .nonceNullifier, .newCommitment, .sellToken, .buyToken, .sellAmount,
    .buyAmount, .maxFee, .expiry, .claimsRoot, .totalLocked, .relayer, .orderHash]

theorem Signal.mem_order (field : Signal) : field ∈ AUTHORIZE_PUBLIC_SIGNAL_ORDER := by
  cases field <;> decide

/-- A proof in the layout of the contracts, with the pairs of `b` reversed. -/
structure SolidityProof where
  a : Option (String × String)
  b : Option ((String × String) × String × String)
  c : Option (String × String)

/-- The body of a submission. -/
structure AuthorizeOrderBody where
  proof : SolidityProof
  publicSignals : Signal → Option String
  publicSignalsArray : Option (List String)
  tier : Option ℕ

namespace AuthorizeOrderBody

variable (body : AuthorizeOrderBody)

/-- `ps[field]`, once it is known to be there. -/
def text (field : Signal) : String := (body.publicSignals field).getD ""

/-- `BigInt(ps[field])`, once it is known to parse. -/
def value (field : Signal) : ℤ := ((toBigInt (body.text field)).toOption).getD 0

def checkRange (field : Signal) : Except String Unit :=
  match toBigInt (body.text field) with
  | .ok v => require (¬(v < 0 ∨ v ≥ modulus)) s!"{field.name} out of BN254 field range"
  | .error _ => .error s!"{field.name} is not a valid bigint string"

/-- The checks of a submission, with the message of the first that fails. -/
def validateAuthorizeOrder (relayerAddress : String) (nowSeconds : ℕ) : Except String Unit := do
  require (body.proof.a.isSome ∧ body.proof.b.isSome ∧ body.proof.c.isSome) "Missing proof components"
  let signals ← orError (body.publicSignalsArray.filter fun signals => signals.length = 15)
    "publicSignalsArray must have exactly 15 elements"
  for field in AUTHORIZE_PUBLIC_SIGNAL_ORDER do
    require ((body.publicSignals field).isSome = true) s!"Missing required public signal: {field.name}"
  for field in AUTHORIZE_PUBLIC_SIGNAL_ORDER do
    body.checkRange field
  for (field, i) in AUTHORIZE_PUBLIC_SIGNAL_ORDER.zipIdx do
    require (signals[i]? = some (body.text field)) s!"publicSignalsArray[{i}] ({field.name}) does not match named publicSignals"
  require (¬body.value .expiry ≤ nowSeconds) s!"Order expired (expiry={body.value .expiry}, now={nowSeconds})"
  let proofRelayer := padHex 40 (body.value .relayer)
  require (eqAddr proofRelayer relayerAddress = true) s!"Proof bound to relayer {proofRelayer}, expected {relayerAddress}"
  require (body.value .sellAmount ≠ 0) "sellAmount must be > 0"
  require (body.value .buyAmount ≠ 0) "buyAmount must be > 0"
  require (body.value .totalLocked ≠ 0) "totalLocked must be > 0"
  require (body.value .sellAmount < 2 ^ 128) "sellAmount exceeds uint128"
  require (body.value .buyAmount < 2 ^ 128) "buyAmount exceeds uint128"
  require (body.value .maxFee < 2 ^ 16) "maxFee exceeds uint16"
  require (body.value .expiry < 2 ^ 64) "expiry exceeds uint64"
  require (body.value .totalLocked < 2 ^ 128) "totalLocked exceeds uint128"
  require (body.value .sellToken < 2 ^ 160) "sellToken exceeds uint160"
  require (body.value .buyToken < 2 ^ 160) "buyToken exceeds uint160"
  require (body.value .relayer < 2 ^ 160) "relayer exceeds uint160"
  require (body.value .nullifier ≠ 0) "nullifier must be nonzero"
  require (body.value .nonceNullifier ≠ 0) "nonceNullifier must be nonzero"
  match body.tier with
  | none => pure ()
  | some tier => require (tier ∈ ALLOWED_TIERS) s!"tier must be one of 16 / 64 / 128 (got {tier} of type number)"

/-- The order with its signals read. -/
def order (proof : Groth16Proof) : AuthorizeOrderFile where
  proof
  publicSignals := {
    pubKeyBind := (body.value .pubKeyBind).toNat
    commitmentRoot := (body.value .commitmentRoot).toNat
    nullifier := (body.value .nullifier).toNat
    nonceNullifier := (body.value .nonceNullifier).toNat
    newCommitment := (body.value .newCommitment).toNat
    sellToken := (body.value .sellToken).toNat
    buyToken := (body.value .buyToken).toNat
    sellAmount := (body.value .sellAmount).toNat
    buyAmount := (body.value .buyAmount).toNat
    maxFee := (body.value .maxFee).toNat
    expiry := (body.value .expiry).toNat
    claimsRoot := (body.value .claimsRoot).toNat
    totalLocked := (body.value .totalLocked).toNat
    relayer := (body.value .relayer).toNat
    orderHash := (body.value .orderHash).toNat }
  tier := body.tier

/-- What the checks leave of a submission. -/
structure Accepted : Prop where
  array : body.publicSignalsArray = some (AUTHORIZE_PUBLIC_SIGNAL_ORDER.map body.text)
  reads : ∀ field, toBigInt (body.text field) = .ok (body.value field)
  nonneg : ∀ field, 0 ≤ body.value field
  lt_modulus : ∀ field, body.value field < modulus
  wellFormed : ∀ proof, (body.order proof).WellFormed
  tier : body.tier.getD 16 ∈ ALLOWED_TIERS

variable {body}

theorem checkRange_ok {field : Signal} (hrange : body.checkRange field = .ok ()) :
    toBigInt (body.text field) = .ok (body.value field) ∧ 0 ≤ body.value field ∧ body.value field < modulus := by
  unfold checkRange at hrange
  cases hread : toBigInt (body.text field) with
  | error e =>
    rw [hread] at hrange
    cases hrange
  | ok v =>
    have hvalue : body.value field = v := by
      rw [value, hread]
      rfl
    rw [hread] at hrange
    have hbounds := require_eq_ok.mp hrange
    rw [hvalue]
    exact ⟨rfl, by omega⟩

theorem array_eq {signals : List String} (hlength : signals.length = 15)
    (hnamed : ∀ p ∈ AUTHORIZE_PUBLIC_SIGNAL_ORDER.zipIdx, signals[p.2]? = some (body.text p.1)) :
    signals = AUTHORIZE_PUBLIC_SIGNAL_ORDER.map body.text := by
  apply List.ext_getElem?
  intro i
  rw [List.getElem?_map]
  by_cases hi : i < AUTHORIZE_PUBLIC_SIGNAL_ORDER.length
  · have hmem : (AUTHORIZE_PUBLIC_SIGNAL_ORDER[i], i) ∈ AUTHORIZE_PUBLIC_SIGNAL_ORDER.zipIdx := by
      rw [List.mem_zipIdx_iff_getElem?]
      exact List.getElem?_eq_getElem hi
    rw [List.getElem?_eq_getElem hi]
    exact hnamed _ hmem
  · have hlength' : AUTHORIZE_PUBLIC_SIGNAL_ORDER.length = 15 := rfl
    rw [List.getElem?_eq_none (by omega), List.getElem?_eq_none (by omega)]
    rfl

theorem validateAuthorizeOrder_ok {relayerAddress : String} {nowSeconds : ℕ} {u : Unit}
    (hvalid : body.validateAuthorizeOrder relayerAddress nowSeconds = .ok u) : body.Accepted := by
  simp only [validateAuthorizeOrder, bind_eq_ok, require_eq_ok, orError_eq_ok, forIn_eq_ok] at hvalid
  obtain ⟨-, -, signals, hsignals, -, -, -, hrange, -, hnamed, -, -, -, -, -, hsell, -, hbuy, -, hlocked, -, hsellLt, -,
    hbuyLt, -, hfee, -, hexpiry, -, hlockedLt, -, hsellToken, -, hbuyToken, -, hrelayer, -, -, -, -, htier⟩ := hvalid
  obtain ⟨harray, hlength⟩ := Option.filter_eq_some_iff.mp hsignals
  have hread : ∀ field, _ := fun field => checkRange_ok (hrange field field.mem_order)
  have hpos : ∀ field, 0 ≤ body.value field := fun field => (hread field).2.1
  refine ⟨?_, fun field => (hread field).1, hpos, fun field => (hread field).2.2, fun proof => ?_, ?_⟩
  · rw [harray, array_eq (of_decide_eq_true hlength) hnamed]
  · have h₁ := hpos .sellAmount
    have h₂ := hpos .buyAmount
    have h₃ := hpos .totalLocked
    exact ⟨by simp only [order]; omega, by simp only [order]; omega, by simp only [order]; omega,
      by simp only [order]; omega, by simp only [order]; omega, by simp only [order]; omega, by simp only [order]; omega,
      by simp only [order]; omega, by simp only [order]; omega, by simp only [order]; omega, by simp only [order]; omega⟩
  · cases hbody : body.tier with
    | none => decide
    | some tier =>
      rw [hbody] at htier
      exact require_eq_ok.mp htier

end AuthorizeOrderBody

end Relayer

end ScatterDex
