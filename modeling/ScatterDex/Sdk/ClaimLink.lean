import Mathlib.Data.Int.Log
import Mathlib.Data.List.DropRight
import Mathlib.Data.Rat.Floor
import ScatterDex.Library.Base64
import ScatterDex.Library.Json
import ScatterDex.Library.Utf8

/-!
# Claim links

`encodeClaimPackage`, `decodeClaimPackage` and `isClaimPackage` of `notes/claimPackage.ts`: a package as JSON, in UTF-8, in base 64. What comes in is any string, and what a link holds is any value of JSON.
-/

namespace ScatterDex

namespace Sdk

open Json

/-! ### Number -/

/-- A number of a JSON text, as far as the packages tell them apart. -/
inductive JsonNumber
  | integer (n : ℤ)
  | other
  deriving DecidableEq

def halfEven (x : ℚ) : ℤ := if x - ⌊x⌋ < 1 / 2 ∨ x - ⌊x⌋ = 1 / 2 ∧ ⌊x⌋ % 2 = 0 then ⌊x⌋ else ⌊x⌋ + 1

/-- The double nearest to a number. -/
def nearest (q : ℚ) : JsonNumber :=
  let e := max (Int.log 2 |q| - 52) (-1074)
  let x : ℚ := halfEven (|q| / 2 ^ e) * 2 ^ e
  if 2 ^ 1024 ≤ x ∨ x.den ≠ 1 then .other else .integer (q.num.sign * x.num)

/-- The integer is a double. -/
def IsDouble (n : ℤ) : Prop := nearest n = .integer n

/-- The decimals with one digit, with two, and so on, that are next to a number, the nearer one first. -/
def decimals (m : ℕ) : List ℕ :=
  let length := (Nat.toDigits 10 m).length
  (List.range length).flatMap fun i =>
    let unit := 10 ^ (length - 1 - i)
    let near := (2 * m + unit) / (2 * unit) * unit
    [near, if m < near then near - unit else near + unit]

/-- The shortest decimal that stands for the double. -/
def shortest (m : ℕ) : ℕ := ((decimals m).find? fun v : ℕ => nearest v = .integer m).getD m

/-- `Number::toString` of an integer without its sign. -/
def unsignedText (m : ℕ) : List Char :=
  let digits := Nat.toDigits 10 (shortest m)
  if shortest m < 10 ^ 21 then digits
  else
    let significant := digits.rdropWhile (· = '0')
    numeral (significant.take 1) (significant.drop 1) (some (digits.length - 1))

/-- The text of an integer. Nothing else is a number of a package. -/
def numberText : JsonNumber → List Char
  | .integer n => if n < 0 then '-' :: unsignedText n.natAbs else unsignedText n.natAbs
  | .other => []

theorem nearest_neg {q : ℚ} {n : ℤ} (h : nearest q = .integer n) : nearest (-q) = .integer (-n) := by
  simp only [nearest, abs_neg, Rat.num_neg_eq_neg_num, Int.sign_neg, neg_mul] at h ⊢
  split at h
  · exact absurd h (by simp)
  · next hplain =>
    rw [if_neg hplain, ← JsonNumber.integer.inj h]

theorem nearest_shortest {m : ℕ} (hm : IsDouble m) : nearest (shortest m) = .integer m := by
  unfold shortest
  cases hfound : (decimals m).find? fun v : ℕ => nearest v = .integer m with
  | none => exact hm
  | some v =>
    have hv := List.find?_some hfound
    exact of_decide_eq_true hv

theorem head_toDigits {m : ℕ} (h : (Nat.toDigits 10 m).head? = some '0') : Nat.toDigits 10 m = ['0'] := by
  induction m using Nat.strong_induction_on with
  | _ m ih =>
    by_cases hm : m < 10
    · rw [Nat.toDigits_of_lt_base hm] at h ⊢
      rw [Option.some.inj h]
    · push Not at hm
      rw [Nat.toDigits_of_base_le (by decide) hm, List.head?_append_of_ne_nil _ Nat.toDigits_ne_nil] at h
      have hzero := ih _ (by omega) h
      have hvalue : Nat.ofDigitChars 10 (Nat.toDigits 10 (m / 10)) 0 = m / 10 := Nat.ofDigitChars_ten_toDigits
      rw [hzero] at hvalue
      have : (0 : ℕ) = m / 10 := hvalue
      omega

theorem ofDigitChars_rdropWhile (digits : List Char) :
    Nat.ofDigitChars 10 digits 0 =
      Nat.ofDigitChars 10 (digits.rdropWhile (· = '0')) 0 * 10 ^ (digits.length - (digits.rdropWhile (· = '0')).length) := by
  induction digits using List.reverseRecOn with
  | nil => rfl
  | append_singleton digits d ih =>
    by_cases hd : d = '0'
    · have hle : (digits.rdropWhile (· = '0')).length ≤ digits.length := (List.rdropWhile_prefix _ _).length_le
      have hlast : Nat.ofDigitChars 10 (digits ++ ['0']) 0 = 10 * Nat.ofDigitChars 10 digits 0 := by
        rw [Nat.ofDigitChars_append]
        exact Nat.ofDigitChars_replicate_zero (n := 1)
      rw [hd, List.rdropWhile_concat_pos _ _ _ (by decide), hlast, ih, List.length_append, List.length_singleton,
        Nat.sub_add_comm hle, pow_succ]
      ring
    · rw [List.rdropWhile_concat_neg _ _ _ (by simpa using hd), Nat.sub_self, pow_zero, mul_one]

theorem parseUnsigned_unsignedText (m : ℕ) {rest : List Char} (hrest : Ends rest) :
    parseUnsigned (unsignedText m ++ rest) = some ((shortest m : ℚ), rest) := by
  have hdigits : ∀ c ∈ Nat.toDigits 10 (shortest m), c.isDigit = true := fun c hc => Nat.isDigit_of_mem_toDigits (by decide) (by decide) hc
  unfold unsignedText
  dsimp only
  split
  · have hnumeral : Nat.toDigits 10 (shortest m) = numeral (Nat.toDigits 10 (shortest m)) [] none := by
      simp only [numeral, if_true, Option.elim_none, List.append_nil]
    rw [hnumeral, parseUnsigned_numeral Nat.toDigits_ne_nil head_toDigits (by rwa [List.append_nil]) hrest, List.append_nil,
      Nat.ofDigitChars_ten_toDigits]
    simp
  · next hlarge =>
    let significant := (Nat.toDigits 10 (shortest m)).rdropWhile (· = '0')
    have hinitial : significant <+: Nat.toDigits 10 (shortest m) := List.rdropWhile_prefix _ _
    have hvalue : shortest m = Nat.ofDigitChars 10 significant 0 * 10 ^ ((Nat.toDigits 10 (shortest m)).length - significant.length) := by
      rw [← ofDigitChars_rdropWhile, Nat.ofDigitChars_ten_toDigits]
    have hne : significant ≠ [] := by
      intro hnil
      rw [hnil] at hvalue
      have : shortest m = 0 := by rw [hvalue]; exact Nat.zero_mul _
      omega
    have hwhole : significant.take 1 ≠ [] := by
      rw [ne_eq, List.take_eq_nil_iff]
      exact not_or.mpr ⟨by decide, hne⟩
    have hlength : 0 < significant.length := List.length_pos_iff.mpr hne
    have hle : significant.length ≤ (Nat.toDigits 10 (shortest m)).length := hinitial.length_le
    have hhead : (significant.take 1).head? = some '0' → significant.take 1 = ['0'] := by
      cases significant with
      | nil => exact fun h => absurd h (by decide)
      | cons c cs => exact fun h => by rw [List.take_succ_cons, List.take_zero, Option.some.inj h]
    have hexponent : (((Nat.toDigits 10 (shortest m)).length - 1 : ℕ) : ℤ) - ((significant.length - 1 : ℕ) : ℤ) =
        (((Nat.toDigits 10 (shortest m)).length - significant.length : ℕ) : ℤ) := by omega
    rw [parseUnsigned_numeral hwhole hhead _ hrest, List.take_append_drop, List.length_drop, Option.getD_some, hexponent, zpow_natCast]
    · congr 2
      conv_rhs => rw [hvalue]
      push_cast
      rfl
    · rw [List.take_append_drop]
      exact fun c hc => hdigits c (hinitial.subset hc)

theorem numberText_spec {n : ℤ} (hn : IsDouble n) : NumberText nearest (numberText (.integer n)) (.integer n) := by
  have hends : Ends [] := fun c hc => absurd hc (by simp)
  have hhead : ∀ m, ∃ c cs, unsignedText m = c :: cs ∧ c.isDigit = true := by
    intro m
    have h := parseUnsigned_unsignedText m hends
    rw [List.append_nil] at h
    exact isDigit_of_parseUnsigned h
  rw [numberText]
  split
  · next hneg =>
    refine ⟨⟨'-', _, rfl, Or.inr rfl⟩, ?_⟩
    intro rest hrest
    have habs : IsDouble n.natAbs := by
      have h := nearest_neg hn
      rw [← Int.cast_neg] at h
      rw [IsDouble, Int.ofNat_natAbs_of_nonpos hneg.le]
      exact h
    have hsign : -(n.natAbs : ℤ) = n := by omega
    have hread := nearest_neg (nearest_shortest habs)
    show (parseUnsigned (unsignedText n.natAbs ++ rest)).map _ = _
    rw [parseUnsigned_unsignedText _ hrest]
    show some (Json.number (nearest (-(shortest n.natAbs : ℚ))), rest) = _
    rw [hread, hsign]
  · next hpos =>
    obtain ⟨c, cs, hcs, hc⟩ := hhead n.natAbs
    refine ⟨⟨c, cs, hcs, Or.inl hc⟩, ?_⟩
    intro rest hrest
    have hsign : (n.natAbs : ℤ) = n := by omega
    have habs : IsDouble n.natAbs := by rwa [hsign]
    have hne : (unsignedText n.natAbs ++ rest).head? ≠ some '-' := by
      rw [hcs]
      intro heq
      rw [Option.some.inj heq] at hc
      exact absurd hc (by decide)
    rw [parseNumber, if_neg hne, parseUnsigned_unsignedText _ hrest]
    show some (Json.number (nearest (shortest n.natAbs : ℚ)), rest) = _
    rw [nearest_shortest habs, hsign]

/-! ### Base 64 -/

def base64Unit (digit : ℕ) : CodeUnit :=
  if digit < 26 then unit (65 + digit)
  else if digit < 52 then unit (71 + digit)
  else if digit < 62 then unit (digit - 4)
  else if digit = 62 then unit 0x2B
  else unit 0x2F

def base64Digit (u : CodeUnit) : Option ℕ :=
  if 65 ≤ u.val ∧ u.val ≤ 90 then some (u.val - 65)
  else if 97 ≤ u.val ∧ u.val ≤ 122 then some (u.val - 71)
  else if 48 ≤ u.val ∧ u.val ≤ 57 then some (u.val + 4)
  else if u.val = 0x2B then some 62
  else if u.val = 0x2F then some 63
  else none

/-- `=` -/
def padUnit : CodeUnit := unit 0x3D

/-- What is missing to a full group. -/
def padding (length : ℕ) : List CodeUnit := List.replicate ((4 - length % 4) % 4) padUnit

def btoa (bytes : List ℕ) : List CodeUnit :=
  let digits := (Base64.encode bytes).map base64Unit
  digits ++ padding digits.length

def isAsciiSpace (u : CodeUnit) : Bool := u.val ∈ [9, 10, 12, 13, 32]

/-- One or two signs of padding at the end of full groups -/
def stripPadding (data : List CodeUnit) : List CodeUnit :=
  if data.length % 4 = 0 then
    if [padUnit, padUnit] <:+ data then data.dropLast.dropLast else if [padUnit] <:+ data then data.dropLast else data
  else data

def atob (s : List CodeUnit) : Option (List ℕ) := do
  Base64.decode (← (stripPadding (s.filter fun u => !isAsciiSpace u)).mapM base64Digit)

def base64UrlEncode (bytes : List ℕ) : List CodeUnit :=
  let dashes := (btoa bytes).map fun u => if u = unit 0x2B then unit 0x2D else u
  let underscores := dashes.map fun u => if u = unit 0x2F then unit 0x5F else u
  underscores.rdropWhile (· = padUnit)

def base64UrlDecode (s : List CodeUnit) : Option (List ℕ) :=
  let pluses := s.map fun u => if u = unit 0x2D then unit 0x2B else u
  let slashes := pluses.map fun u => if u = unit 0x5F then unit 0x2F else u
  atob (slashes ++ padding s.length)

/-- A digit as it stands in a link. -/
def urlUnit (digit : ℕ) : CodeUnit := if digit = 62 then unit 0x2D else if digit = 63 then unit 0x5F else base64Unit digit

/-- Letters, digits, `-` and `_` -/
def isUrlSafe (u : CodeUnit) : Bool :=
  48 ≤ u.val ∧ u.val ≤ 57 ∨ 65 ≤ u.val ∧ u.val ≤ 90 ∨ 97 ≤ u.val ∧ u.val ≤ 122 ∨ u = unit 0x2D ∨ u = unit 0x5F

theorem rdropWhile_replicate {xs : List CodeUnit} {pad : CodeUnit} (hxs : pad ∉ xs) (k : ℕ) :
    (xs ++ List.replicate k pad).rdropWhile (· = pad) = xs := by
  induction k with
  | zero =>
    rw [List.replicate_zero, List.append_nil, List.rdropWhile_eq_self_iff]
    intro hne hlast
    exact hxs (of_decide_eq_true hlast ▸ List.getLast_mem hne)
  | succ k ih => rw [List.replicate_succ', ← List.append_assoc, List.rdropWhile_concat_pos _ _ _ (by simp), ih]

theorem base64UrlEncode_eq {bytes : List ℕ} (hbytes : ∀ b ∈ bytes, b < 256) : base64UrlEncode bytes = (Base64.encode bytes).map urlUnit := by
  have hunit : ∀ d < 64, (if (if base64Unit d = unit 0x2B then unit 0x2D else base64Unit d) = unit 0x2F then unit 0x5F else if base64Unit d = unit 0x2B then unit 0x2D else base64Unit d) =
      urlUnit d ∧ urlUnit d ≠ padUnit := by decide
  have hmap : ((((Base64.encode bytes).map base64Unit).map fun u => if u = unit 0x2B then unit 0x2D else u).map fun u => if u = unit 0x2F then unit 0x5F else u) =
      (Base64.encode bytes).map urlUnit := by
    rw [List.map_map, List.map_map]
    apply List.map_congr_left
    intro d hd
    exact (hunit d (Base64.encode_lt bytes hbytes d hd)).1
  have hpad : padUnit ∉ (Base64.encode bytes).map urlUnit := by
    rw [List.mem_map]
    intro ⟨d, hd, heq⟩
    exact (hunit d (Base64.encode_lt bytes hbytes d hd)).2 heq
  unfold base64UrlEncode btoa padding
  simp only [List.map_append, List.map_replicate, hmap]
  exact rdropWhile_replicate hpad _

theorem isUrlSafe_base64UrlEncode {bytes : List ℕ} (hbytes : ∀ b ∈ bytes, b < 256) : ∀ u ∈ base64UrlEncode bytes, isUrlSafe u = true := by
  have hunit : ∀ d < 64, isUrlSafe (urlUnit d) = true := by decide
  rw [base64UrlEncode_eq hbytes, List.forall_mem_map]
  intro d hd
  exact hunit d (Base64.encode_lt bytes hbytes d hd)

theorem stripPadding_append {data : List CodeUnit} (hdata : padUnit ∉ data) (hlength : data.length % 4 ≠ 1) :
    stripPadding (data ++ padding data.length) = data := by
  have hcases : data.length % 4 = 0 ∨ data.length % 4 = 2 ∨ data.length % 4 = 3 := by omega
  have hone : ¬[padUnit] <:+ data := fun h => hdata (h.subset List.mem_cons_self)
  have htwo : ¬[padUnit, padUnit] <:+ data := fun h => hdata (h.subset List.mem_cons_self)
  rcases hcases with h | h | h
  · have hpad : padding data.length = [] := by
      rw [padding, h]
      rfl
    rw [hpad, List.append_nil, stripPadding, if_pos h, if_neg htwo, if_neg hone]
  · have hpad : padding data.length = [padUnit, padUnit] := by
      rw [padding, h]
      rfl
    have hfull : (data ++ [padUnit, padUnit]).length % 4 = 0 := by
      rw [List.length_append, List.length_cons, List.length_singleton]
      omega
    rw [hpad, stripPadding, if_pos hfull, if_pos (List.suffix_append _ _)]
    show (data ++ ([padUnit] ++ [padUnit])).dropLast.dropLast = _
    rw [← List.append_assoc, List.dropLast_concat, List.dropLast_concat]
  · have hpad : padding data.length = [padUnit] := by
      rw [padding, h]
      rfl
    have hfull : (data ++ [padUnit]).length % 4 = 0 := by
      rw [List.length_append, List.length_singleton]
      omega
    have hshort : ¬[padUnit, padUnit] <:+ data ++ [padUnit] := by
      show ¬[padUnit] ++ [padUnit] <:+ data ++ [padUnit]
      rw [List.suffix_append_self_iff]
      exact hone
    rw [hpad, stripPadding, if_pos hfull, if_neg hshort, if_pos (List.suffix_append _ _), List.dropLast_concat]

/-- What fills up the last group is taken off again. -/
theorem atob_padded {digits : List ℕ} (hdigits : ∀ d ∈ digits, d < 64) (hlength : digits.length % 4 ≠ 1) :
    atob (digits.map base64Unit ++ padding digits.length) = Base64.decode digits := by
  have hunit : ∀ d < 64, base64Digit (base64Unit d) = some d ∧ isAsciiSpace (base64Unit d) = false ∧ base64Unit d ≠ padUnit := by decide
  have hnopad : padUnit ∉ digits.map base64Unit := by
    rw [List.mem_map]
    intro ⟨d, hd, heq⟩
    exact (hunit d (hdigits d hd)).2.2 heq
  have hread : (digits.map base64Unit).mapM base64Digit = some digits := by
    clear hlength hnopad
    induction digits with
    | nil => rfl
    | cons d digits ih =>
      obtain ⟨hd, hdigits⟩ := List.forall_mem_cons.mp hdigits
      rw [List.map_cons, List.mapM_cons, (hunit d hd).1, ih hdigits]
      rfl
  have hfilter : (digits.map base64Unit ++ padding digits.length).filter (fun u => !isAsciiSpace u) =
      digits.map base64Unit ++ padding digits.length := by
    rw [List.filter_eq_self]
    intro u hu
    rcases List.mem_append.mp hu with hu | hu
    · obtain ⟨d, hd, rfl⟩ := List.mem_map.mp hu
      rw [(hunit d (hdigits d hd)).2.1]
      rfl
    · rw [List.eq_of_mem_replicate hu]
      decide
  rw [atob, hfilter]
  have hstrip := stripPadding_append hnopad (by rwa [List.length_map])
  rw [List.length_map] at hstrip
  rw [hstrip, hread]
  rfl

theorem base64UrlDecode_encode {bytes : List ℕ} (hbytes : ∀ b ∈ bytes, b < 256) :
    base64UrlDecode (base64UrlEncode bytes) = some bytes := by
  have hunit : ∀ d < 64, (if (if urlUnit d = unit 0x2D then unit 0x2B else urlUnit d) = unit 0x5F then unit 0x2F else if urlUnit d = unit 0x2D then unit 0x2B else urlUnit d) =
      base64Unit d := by decide
  have hmap : ((((Base64.encode bytes).map urlUnit).map fun u => if u = unit 0x2D then unit 0x2B else u).map fun u => if u = unit 0x5F then unit 0x2F else u) =
      (Base64.encode bytes).map base64Unit := by
    rw [List.map_map, List.map_map]
    apply List.map_congr_left
    intro d hd
    exact hunit d (Base64.encode_lt bytes hbytes d hd)
  rw [base64UrlEncode_eq hbytes]
  unfold base64UrlDecode
  simp only [hmap, List.length_map]
  rw [atob_padded (Base64.encode_lt bytes hbytes) (Base64.length_encode bytes), Base64.decode_encode bytes hbytes]

/-! ### Packages -/

/-- A property of an object, the last one of its name. -/
def field (v : Json JsonNumber) (name : String) : Option (Json JsonNumber) :=
  match v with
  | .object members => (members.reverse.find? fun m => m.1 = units name).map Prod.snd
  | _ => none

def isInteger (p : ℤ → Bool) : Option (Json JsonNumber) → Bool
  | some (.number (.integer n)) => p n
  | _ => false

def isString (p : List CodeUnit → Bool) : Option (Json JsonNumber) → Bool
  | some (.string s) => p s
  | _ => false

def isDigitUnit (u : CodeUnit) : Bool := 48 ≤ u.val ∧ u.val ≤ 57

def isHexUnit (u : CodeUnit) : Bool := isDigitUnit u ∨ 97 ≤ u.val ∧ u.val ≤ 102 ∨ 65 ≤ u.val ∧ u.val ≤ 70

/-- `0x` and a number of hexadecimal digits -/
def isHexString (length : ℕ) : List CodeUnit → Bool
  | zero :: x :: digits => zero.val = 48 ∧ x.val = 120 ∧ digits.length = length ∧ digits.all isHexUnit
  | _ => false

/-- `ADDRESS_RE` -/
def isAddressString : List CodeUnit → Bool := isHexString 40

/-- `BYTES32_RE` -/
def isBytes32String : List CodeUnit → Bool := isHexString 64

/-- `DECIMAL_RE` -/
def isDecimalString (s : List CodeUnit) : Bool := s ≠ [] ∧ s.all isDigitUnit

def CLAIMS_PATH_LENS : List ℕ := [4, 6, 7]

/-- `isPlausibleHttpUrl` of a string; the protocol and the host name are those of `new URL`. -/
def isPlausibleHttpUrl (newURL : List CodeUnit → Option (String × String)) (s : List CodeUnit) : Bool :=
  s.length ≠ 0 ∧ s.length ≤ 2048 ∧ (newURL s).any fun u => (u.1 = "http:" ∨ u.1 = "https:") ∧ 0 < u.2.length

def isCompressedPubkeyHex : List CodeUnit → Bool := isHexString 66

/-- The elements of an array. -/
def elements : Option (Json JsonNumber) → Option (List (Json JsonNumber))
  | some (.array vs) => some vs
  | _ => none

/-- `pathElements`, `pathIndices` and `leafIndex` fit a tier. -/
def hasPath (v : Json JsonNumber) : Bool :=
  match elements (field v "pathElements"), elements (field v "pathIndices") with
  | some pathElements, some pathIndices =>
    pathElements.length ∈ CLAIMS_PATH_LENS ∧ (pathElements.all fun e => isString isDecimalString (some e)) ∧
      pathIndices.length = pathElements.length ∧ (pathIndices.all fun i => isInteger (fun n => n = 0 ∨ n = 1) (some i)) ∧
      isInteger (fun n => 0 ≤ n ∧ n < 2 ^ pathElements.length) (field v "leafIndex")
  | _, _ => false

def isClaimPackage (newURL : List CodeUnit → Option (String × String)) (v : Json JsonNumber) : Bool :=
  isInteger (· = 1) (field v "version") ∧
    isInteger (fun _ => true) (field v "chainId") ∧
    isString isAddressString (field v "settlementAddress") ∧
    isString isBytes32String (field v "claimsRoot") ∧
    isString isAddressString (field v "recipient") ∧
    isString isAddressString (field v "token") ∧
    isString (fun _ => true) (field v "tokenSymbol") ∧
    isInteger (fun _ => true) (field v "tokenDecimals") ∧
    isString isDecimalString (field v "amount") ∧
    isString isDecimalString (field v "releaseTime") ∧
    isString isDecimalString (field v "secret") ∧
    hasPath v ∧
    ((field v "relayerUrl").isNone ∨ isString (isPlausibleHttpUrl newURL) (field v "relayerUrl")) ∧
    ((field v "ephemeralPubKey").isNone ∨ isString isCompressedPubkeyHex (field v "ephemeralPubKey"))

def encodeClaimPackage (pkg : Json JsonNumber) : List CodeUnit := base64UrlEncode (Utf8.encode (stringify numberText pkg))

def decodeClaimPackage (newURL : List CodeUnit → Option (String × String)) (encoded : List CodeUnit) : Except String (Json JsonNumber) :=
  match base64UrlDecode encoded with
  | none => .error "decodeClaimPackage: malformed base64url payload"
  | some bytes =>
    match parse nearest (Utf8.decode bytes) with
    | none => .error "decodeClaimPackage: payload is not valid JSON"
    | some parsed =>
      if isClaimPackage newURL parsed then .ok parsed
      else .error "decodeClaimPackage: payload does not match ClaimPackage v1 shape"

theorem exists_of_isString {p : List CodeUnit → Bool} {w : Option (Json JsonNumber)} (hw : isString p w = true) : ∃ s, w = some (.string s) := by
  match w, hw with
  | some (.string s), _ => exact ⟨s, rfl⟩

theorem exists_of_isInteger {p : ℤ → Bool} {w : Option (Json JsonNumber)} (hw : isInteger p w = true) :
    ∃ n, w = some (.number (.integer n)) ∧ p n = true := by
  match w, hw with
  | some (.number (.integer n)), hn => exact ⟨n, rfl, hn⟩

theorem exists_of_elements {w : Option (Json JsonNumber)} {vs : List (Json JsonNumber)} (hw : elements w = some vs) : w = some (.array vs) := by
  match w, hw with
  | some (.array _), hvs => rw [Option.some.inj hvs]

theorem exists_path_of_hasPath {v : Json JsonNumber} (hv : hasPath v = true) :
    ∃ pathElements pathIndices leafIndex, field v "pathElements" = some (.array pathElements) ∧ field v "pathIndices" = some (.array pathIndices) ∧
      field v "leafIndex" = some (.number (.integer leafIndex)) ∧ (∀ e ∈ pathElements, ∃ s, e = .string s) ∧ (∀ i ∈ pathIndices, ∃ x, i = .number x) ∧
      pathIndices.length = pathElements.length ∧ 0 ≤ leafIndex ∧ leafIndex < 2 ^ pathElements.length := by
  unfold hasPath at hv
  split at hv
  · next pathElements pathIndices helements hindices =>
    obtain ⟨-, hstrings, hlength, hbits, hleaf⟩ := of_decide_eq_true hv
    obtain ⟨leafIndex, hleafIndex, hrange⟩ := exists_of_isInteger hleaf
    obtain ⟨hnonneg, hcap⟩ := of_decide_eq_true hrange
    refine ⟨pathElements, pathIndices, leafIndex, exists_of_elements helements, exists_of_elements hindices, hleafIndex, ?_, ?_, hlength, hnonneg, hcap⟩
    · intro e he
      obtain ⟨s, hs⟩ := exists_of_isString (List.all_eq_true.mp hstrings e he)
      exact ⟨s, Option.some.inj hs⟩
    · intro i hi
      obtain ⟨n, hn, -⟩ := exists_of_isInteger (List.all_eq_true.mp hbits i hi)
      exact ⟨_, Option.some.inj hn⟩
  · exact absurd hv (by decide)

/-! ### The round trip -/

/-- The numbers of a package are integers. -/
def IsIntegerDouble (x : JsonNumber) : Prop := ∃ n, x = .integer n ∧ IsDouble n

theorem exists_object_of_isClaimPackage {newURL : List CodeUnit → Option (String × String)} {v : Json JsonNumber}
    (hv : isClaimPackage newURL v = true) : ∃ members, v = .object members := by
  cases v with
  | object members => exact ⟨members, rfl⟩
  | _ => exact absurd (of_decide_eq_true hv).1 (by simp [field, isInteger])

theorem stringify_read {v : Json JsonNumber} (hnumbers : Json.Forall IsIntegerDouble v) : parse nearest (stringify numberText v) = some v := by
  apply parse_stringify _ hnumbers
  intro x ⟨n, hx, hn⟩
  rw [hx]
  exact numberText_spec hn

theorem decodeClaimPackage_encode {newURL : List CodeUnit → Option (String × String)} {v : Json JsonNumber}
    (hnumbers : Json.Forall IsIntegerDouble v) (hv : isClaimPackage newURL v = true) :
    decodeClaimPackage newURL (encodeClaimPackage v) = .ok v := by
  have hmark : (stringify numberText v).head? ≠ some '\uFEFF' := by
    obtain ⟨members, hmembers⟩ := exists_object_of_isClaimPackage hv
    rw [hmembers, stringify, List.head?_cons]
    decide
  rw [decodeClaimPackage, encodeClaimPackage, base64UrlDecode_encode (Utf8.encode_lt _)]
  dsimp only
  rw [Utf8.decode_encode hmark, stringify_read hnumbers]
  dsimp only
  rw [if_pos hv]

theorem isUrlSafe_encodeClaimPackage (v : Json JsonNumber) : ∀ u ∈ encodeClaimPackage v, isUrlSafe u = true :=
  isUrlSafe_base64UrlEncode (Utf8.encode_lt _)

end Sdk

end ScatterDex
