import Mathlib.Algebra.Field.Rat
import Mathlib.Data.Char
import Mathlib.Data.List.Basic

/-!
# JSON

The values of JSON, their text, and the parser. A string is a list of UTF-16 code units, so it may hold half of a pair. What a numeral denotes is left to a function of its exact value, and the text of a number to one of the number: the round trip holds for the numbers whose text is read back.
-/

abbrev CodeUnit := Fin 65536

inductive Json (ν : Type) where
  | null
  | bool (b : Bool)
  | number (x : ν)
  | string (s : List CodeUnit)
  | array (elements : List (Json ν))
  | object (members : List (List CodeUnit × Json ν))

namespace Json

variable {ν : Type}

/-! ### Code units -/

/-- The code units of a character. -/
def utf16 (c : Char) : List CodeUnit :=
  if c.toNat < 0x10000 then [Fin.ofNat _ c.toNat]
  else [Fin.ofNat _ (0xD800 + (c.toNat - 0x10000) / 0x400), Fin.ofNat _ (0xDC00 + (c.toNat - 0x10000) % 0x400)]

def unit (n : ℕ) : CodeUnit := Fin.ofNat _ n

def units (s : String) : List CodeUnit := s.toList.flatMap utf16

def isHigh (u : CodeUnit) : Bool := 0xD800 ≤ u.val ∧ u.val < 0xDC00

def isLow (u : CodeUnit) : Bool := 0xDC00 ≤ u.val ∧ u.val < 0xE000

/-- The character of a pair of surrogates. -/
def pairChar (high low : CodeUnit) : Char := Char.ofNat (0x10000 + (high.val - 0xD800) * 0x400 + (low.val - 0xDC00))

/-! ### Text -/

def hex4 (n : ℕ) : List Char := [(n / 4096 % 16).digitChar, (n / 256 % 16).digitChar, (n / 16 % 16).digitChar, (n % 16).digitChar]

/-- A code unit in a string: escaped where it has to be, and where it is half of a pair. -/
def quoteUnit (u : CodeUnit) : List Char :=
  if u.val = 0x22 then ['\\', '"']
  else if u.val = 0x5C then ['\\', '\\']
  else if u.val = 0x08 then ['\\', 'b']
  else if u.val = 0x09 then ['\\', 't']
  else if u.val = 0x0A then ['\\', 'n']
  else if u.val = 0x0C then ['\\', 'f']
  else if u.val = 0x0D then ['\\', 'r']
  else if u.val < 0x20 ∨ isHigh u ∨ isLow u then '\\' :: 'u' :: hex4 u.val
  else [Char.ofNat u.val]

def quoteUnits : List CodeUnit → List Char
  | [] => []
  | [u] => quoteUnit u
  | u :: v :: us => if isHigh u ∧ isLow v then pairChar u v :: quoteUnits us else quoteUnit u ++ quoteUnits (v :: us)

def quote (s : List CodeUnit) : List Char := '"' :: quoteUnits s ++ ['"']

mutual

def stringify (numText : ν → List Char) : Json ν → List Char
  | null => ['n', 'u', 'l', 'l']
  | bool true => ['t', 'r', 'u', 'e']
  | bool false => ['f', 'a', 'l', 's', 'e']
  | number x => numText x
  | string s => quote s
  | array elements => '[' :: stringifyElements numText elements
  | object members => '{' :: stringifyMembers numText members

/-- The elements and the end of an array. -/
def stringifyElements (numText : ν → List Char) : List (Json ν) → List Char
  | [] => [']']
  | [v] => stringify numText v ++ [']']
  | v :: w :: vs => stringify numText v ++ ',' :: stringifyElements numText (w :: vs)

/-- The members and the end of an object. -/
def stringifyMembers (numText : ν → List Char) : List (List CodeUnit × Json ν) → List Char
  | [] => ['}']
  | [(k, v)] => quote k ++ ':' :: (stringify numText v ++ ['}'])
  | (k, v) :: m :: ms => quote k ++ ':' :: (stringify numText v ++ ',' :: stringifyMembers numText (m :: ms))

end

/-! ### The parser -/

def isSpace (c : Char) : Bool := c = ' ' ∨ c = '\t' ∨ c = '\n' ∨ c = '\r'

def skipSpace (cs : List Char) : List Char := cs.dropWhile isSpace

def hexValue (c : Char) : Option ℕ :=
  if '0' ≤ c ∧ c ≤ '9' then some (c.toNat - '0'.toNat)
  else if 'a' ≤ c ∧ c ≤ 'f' then some (c.toNat - 'a'.toNat + 10)
  else if 'A' ≤ c ∧ c ≤ 'F' then some (c.toNat - 'A'.toNat + 10)
  else none

def hexUnit (a b c d : Char) : Option CodeUnit := do
  return Fin.ofNat _ ((← hexValue a) * 4096 + (← hexValue b) * 256 + (← hexValue c) * 16 + (← hexValue d))

/-- The code unit of an escape with one letter. -/
def escape (c : Char) : Option CodeUnit :=
  match c with
  | '"' => some 0x22
  | '\\' => some 0x5C
  | '/' => some 0x2F
  | 'b' => some 0x08
  | 'f' => some 0x0C
  | 'n' => some 0x0A
  | 'r' => some 0x0D
  | 't' => some 0x09
  | _ => none

/-- The rest of a string, after its opening quote. -/
def parseString : List Char → Option (List CodeUnit × List Char)
  | [] => none
  | '"' :: rest => some ([], rest)
  | '\\' :: 'u' :: a :: b :: c :: d :: rest => do
    let u ← hexUnit a b c d
    let (us, rest) ← parseString rest
    return (u :: us, rest)
  | '\\' :: e :: rest => do
    let u ← escape e
    let (us, rest) ← parseString rest
    return (u :: us, rest)
  | c :: rest =>
    if c.toNat < 0x20 ∨ c = '\\' then none
    else do
      let (us, rest) ← parseString rest
      return (utf16 c ++ us, rest)

/-- The digits after a point, if there is one. -/
def parseFraction : List Char → Option (List Char × List Char)
  | '.' :: rest => if rest.takeWhile Char.isDigit = [] then none else some (rest.takeWhile Char.isDigit, rest.dropWhile Char.isDigit)
  | cs => some ([], cs)

/-- The exponent, if there is one. -/
def parseExponent (cs : List Char) : Option (ℤ × List Char) :=
  match cs with
  | [] => some (0, [])
  | c :: rest =>
    if c = 'e' ∨ c = 'E' then
      let negative := rest.head? = some '-'
      let digits := if negative ∨ rest.head? = some '+' then rest.tail else rest
      if digits.takeWhile Char.isDigit = [] then none
      else
        let e : ℤ := Nat.ofDigitChars 10 (digits.takeWhile Char.isDigit) 0
        some (if negative then -e else e, digits.dropWhile Char.isDigit)
    else some (0, cs)

/-- A numeral without its sign. -/
def parseUnsigned (cs : List Char) : Option (ℚ × List Char) := do
  let (whole, rest) := if cs.head? = some '0' then (['0'], cs.tail) else (cs.takeWhile Char.isDigit, cs.dropWhile Char.isDigit)
  if whole = [] then none
  else
    let (fraction, rest) ← parseFraction rest
    let (e, rest) ← parseExponent rest
    return ((Nat.ofDigitChars 10 (whole ++ fraction) 0 : ℚ) * 10 ^ (e - fraction.length), rest)

def parseNumber (num : ℚ → ν) (cs : List Char) : Option (Json ν × List Char) :=
  if cs.head? = some '-' then (parseUnsigned cs.tail).map fun (q, rest) => (number (num (-q)), rest)
  else (parseUnsigned cs).map fun (q, rest) => (number (num q), rest)

/-- The rest of a word. -/
def parseWord (word : List Char) (v : Json ν) (cs : List Char) : Option (Json ν × List Char) :=
  if word <+: cs then some (v, cs.drop word.length) else none

mutual

def parseValue (num : ℚ → ν) : ℕ → List Char → Option (Json ν × List Char)
  | 0, _ => none
  | fuel + 1, cs =>
    match skipSpace cs with
    | [] => none
    | c :: rest =>
      if c = '"' then (parseString rest).map fun (s, rest) => (string s, rest)
      else if c = '[' then
        if (skipSpace rest).head? = some ']' then some (array [], (skipSpace rest).tail)
        else (parseElements num fuel rest).map fun (vs, rest) => (array vs, rest)
      else if c = '{' then
        if (skipSpace rest).head? = some '}' then some (object [], (skipSpace rest).tail)
        else (parseMembers num fuel rest).map fun (ms, rest) => (object ms, rest)
      else if c = 'n' then parseWord ['u', 'l', 'l'] null rest
      else if c = 't' then parseWord ['r', 'u', 'e'] (bool true) rest
      else if c = 'f' then parseWord ['a', 'l', 's', 'e'] (bool false) rest
      else parseNumber num (c :: rest)

/-- At least one element, and the end of the array. -/
def parseElements (num : ℚ → ν) : ℕ → List Char → Option (List (Json ν) × List Char)
  | 0, _ => none
  | fuel + 1, cs => do
    let (v, rest) ← parseValue num fuel cs
    match skipSpace rest with
    | ']' :: rest => return ([v], rest)
    | ',' :: rest =>
      let (vs, rest) ← parseElements num fuel rest
      return (v :: vs, rest)
    | _ => none

/-- At least one member, and the end of the object. -/
def parseMembers (num : ℚ → ν) : ℕ → List Char → Option (List (List CodeUnit × Json ν) × List Char)
  | 0, _ => none
  | fuel + 1, cs =>
    match skipSpace cs with
    | '"' :: rest => do
      let (k, rest) ← parseString rest
      match skipSpace rest with
      | ':' :: rest =>
        let (v, rest) ← parseValue num fuel rest
        match skipSpace rest with
        | '}' :: rest => return ([(k, v)], rest)
        | ',' :: rest =>
          let (ms, rest) ← parseMembers num fuel rest
          return ((k, v) :: ms, rest)
        | _ => none
      | _ => none
    | _ => none

end

/-- Every level and every element takes a character, and at most two steps. -/
def parse (num : ℚ → ν) (text : List Char) : Option (Json ν) := do
  let (v, rest) ← parseValue num (2 * text.length) text
  if skipSpace rest = [] then some v else none

/-! ### Strings are read back -/

theorem toNat_ofNat {n : ℕ} (hn : n < 0xD800 ∨ 0xDFFF < n ∧ n < 0x110000) : (Char.ofNat n).toNat = n := by
  rw [Char.ofNat, dif_pos hn]
  rfl

theorem utf16_pairChar {u v : CodeUnit} (hu : isHigh u = true) (hv : isLow v = true) : utf16 (pairChar u v) = [u, v] := by
  have hhigh := of_decide_eq_true hu
  have hlow := of_decide_eq_true hv
  have hpoint : (pairChar u v).toNat = 0x10000 + (u.val - 0xD800) * 0x400 + (v.val - 0xDC00) := toNat_ofNat (by omega)
  have hfirst : Fin.ofNat 65536 (0xD800 + ((pairChar u v).toNat - 0x10000) / 0x400) = u := by
    apply Fin.ext
    rw [Fin.val_ofNat, hpoint]
    omega
  have hsecond : Fin.ofNat 65536 (0xDC00 + ((pairChar u v).toNat - 0x10000) % 0x400) = v := by
    apply Fin.ext
    rw [Fin.val_ofNat, hpoint]
    omega
  rw [utf16, if_neg (by omega), hfirst, hsecond]

theorem hexUnit_hex4 (u : CodeUnit) :
    hexUnit (u.val / 4096 % 16).digitChar (u.val / 256 % 16).digitChar (u.val / 16 % 16).digitChar (u.val % 16).digitChar = some u := by
  have hvalue : ∀ d < 16, hexValue d.digitChar = some d := by decide
  have hu := u.isLt
  simp only [hexUnit, hvalue _ (Nat.mod_lt _ (by decide : 0 < 16))]
  show some _ = _
  congr 1
  apply Fin.ext
  show _ % 0x10000 = _
  omega

theorem parseString_char {c : Char} {rest : List Char} (hquote : c ≠ '"') (hback : c ≠ '\\') (hcontrol : 0x20 ≤ c.toNat) :
    parseString (c :: rest) = (parseString rest).map fun (us, rest) => (utf16 c ++ us, rest) := by
  rw [parseString]
  · rw [if_neg (by push Not; exact ⟨hcontrol, hback⟩)]
    cases parseString rest <;> rfl
  all_goals simp_all

theorem parseString_escape {e : Char} {u : CodeUnit} {rest : List Char} (hletter : e ≠ 'u') (he : escape e = some u) :
    parseString ('\\' :: e :: rest) = (parseString rest).map fun (us, rest) => (u :: us, rest) := by
  rw [parseString]
  · rw [he]
    cases parseString rest <;> rfl
  · intro a b c d rest' heq
    exact absurd heq hletter

theorem parseString_unicode {a b c d : Char} {u : CodeUnit} {rest : List Char} (hu : hexUnit a b c d = some u) :
    parseString ('\\' :: 'u' :: a :: b :: c :: d :: rest) = (parseString rest).map fun (us, rest) => (u :: us, rest) := by
  rw [parseString, hu]
  cases parseString rest <;> rfl

theorem parseString_quoteUnit (u : CodeUnit) (rest : List Char) :
    parseString (quoteUnit u ++ rest) = (parseString rest).map fun (us, rest) => (u :: us, rest) := by
  have hescape : ∀ {e : Char} {v : CodeUnit}, e ≠ 'u' → escape e = some v → u.val = v.val →
      parseString ('\\' :: e :: rest) = (parseString rest).map fun (us, rest) => (u :: us, rest) := by
    intro e v hletter he hval
    rw [Fin.ext hval]
    exact parseString_escape hletter he
  unfold quoteUnit
  split
  · next h => exact hescape (by decide) rfl h
  split
  · next h => exact hescape (by decide) rfl h
  split
  · next h => exact hescape (by decide) rfl h
  split
  · next h => exact hescape (by decide) rfl h
  split
  · next h => exact hescape (by decide) rfl h
  split
  · next h => exact hescape (by decide) rfl h
  split
  · next h => exact hescape (by decide) rfl h
  split
  · exact parseString_unicode (hexUnit_hex4 u)
  · next hquote hback _ _ _ _ _ hplain =>
    have hu := u.isLt
    have hrange : 0x20 ≤ u.val ∧ (u.val < 0xD800 ∨ 0xDFFF < u.val ∧ u.val < 0x110000) := by
      simp only [isHigh, isLow, decide_eq_true_eq] at hplain
      omega
    have hval : (Char.ofNat u.val).toNat = u.val := toNat_ofNat hrange.2
    have hne : ∀ c : Char, u.val ≠ c.toNat → Char.ofNat u.val ≠ c := fun c hc heq => hc (by rw [← hval, heq])
    have hunits : utf16 (Char.ofNat u.val) = [u] := by
      rw [utf16, hval, if_pos hu]
      congr 1
      apply Fin.ext
      exact Nat.mod_eq_of_lt hu
    show parseString (Char.ofNat u.val :: rest) = _
    rw [parseString_char (hne _ hquote) (hne _ hback) (by rw [hval]; exact hrange.1), hunits]
    rfl

theorem parseString_quoteUnits (us : List CodeUnit) (rest : List Char) : parseString (quoteUnits us ++ '"' :: rest) = some (us, rest) := by
  induction us using quoteUnits.induct with
  | case1 => rw [quoteUnits, List.nil_append, parseString]
  | case2 u =>
    rw [quoteUnits, parseString_quoteUnit, parseString]
    rfl
  | case3 u v us hpair ih =>
    have hpoint : (pairChar u v).toNat = 0x10000 + (u.val - 0xD800) * 0x400 + (v.val - 0xDC00) := by
      have hhigh := of_decide_eq_true hpair.1
      have hlow := of_decide_eq_true hpair.2
      exact toNat_ofNat (by omega)
    have hne : ∀ c : Char, c.toNat < 0x10000 → pairChar u v ≠ c := by
      intro c hc heq
      rw [heq] at hpoint
      omega
    rw [quoteUnits, if_pos hpair, List.cons_append, parseString_char (hne _ (by decide)) (hne _ (by decide)) (by omega), ih,
      utf16_pairChar hpair.1 hpair.2]
    rfl
  | case4 u v us hsingle ih =>
    rw [quoteUnits, if_neg hsingle, List.append_assoc, parseString_quoteUnit, ih]
    rfl

/-! ### Numerals are read back -/

/-- What may come after a numeral. -/
def Ends (rest : List Char) : Prop := ∀ c, rest.head? = some c → c.isDigit = false ∧ c ≠ '.' ∧ c ≠ 'e' ∧ c ≠ 'E'

theorem ends_cons {c : Char} (rest : List Char) (hc : c.isDigit = false ∧ c ≠ '.' ∧ c ≠ 'e' ∧ c ≠ 'E') : Ends (c :: rest) := by
  intro d hd
  rw [← Option.some.inj hd]
  exact hc

theorem digits_append {ds rest : List Char} (hds : ∀ c ∈ ds, c.isDigit = true) (hrest : ∀ c, rest.head? = some c → c.isDigit = false) :
    (ds ++ rest).takeWhile Char.isDigit = ds ∧ (ds ++ rest).dropWhile Char.isDigit = rest := by
  rw [List.takeWhile_append_of_pos hds, List.dropWhile_append_of_pos hds]
  cases rest with
  | nil => exact ⟨List.append_nil ds, rfl⟩
  | cons c rest =>
    have hc : ¬c.isDigit = true := by
      rw [hrest c rfl]
      decide
    rw [List.takeWhile_cons_of_neg hc, List.dropWhile_cons_of_neg hc]
    exact ⟨List.append_nil ds, rfl⟩

/-- The digits of a whole number, the digits after its point and a positive exponent. -/
def numeral (whole fraction : List Char) (exponent : Option ℕ) : List Char :=
  whole ++ (if fraction = [] then [] else '.' :: fraction) ++ exponent.elim [] fun e => 'e' :: '+' :: Nat.toDigits 10 e

theorem parseExponent_text {exponent : Option ℕ} {rest : List Char} (hrest : Ends rest) :
    parseExponent ((exponent.elim [] fun e => 'e' :: '+' :: Nat.toDigits 10 e) ++ rest) = some (((exponent.getD 0 : ℕ) : ℤ), rest) := by
  cases exponent with
  | none =>
    cases rest with
    | nil => rfl
    | cons c rest =>
      obtain ⟨-, -, he, hE⟩ := hrest c rfl
      show parseExponent (c :: rest) = _
      rw [parseExponent, if_neg (by simp [he, hE])]
      rfl
  | some e =>
    have hdigits : ∀ c ∈ Nat.toDigits 10 e, c.isDigit = true := fun c hc => Nat.isDigit_of_mem_toDigits (by decide) (by decide) hc
    obtain ⟨htake, hdrop⟩ := digits_append hdigits fun c hc => (hrest c hc).1
    show parseExponent ('e' :: '+' :: (Nat.toDigits 10 e ++ rest)) = _
    rw [parseExponent, if_pos (Or.inl rfl)]
    show (if (Nat.toDigits 10 e ++ rest).takeWhile Char.isDigit = [] then _ else
      some (((Nat.ofDigitChars 10 ((Nat.toDigits 10 e ++ rest).takeWhile Char.isDigit) 0 : ℕ) : ℤ), (Nat.toDigits 10 e ++ rest).dropWhile Char.isDigit)) = _
    rw [htake, hdrop, if_neg Nat.toDigits_ne_nil, Nat.ofDigitChars_ten_toDigits]
    rfl

theorem parseFraction_text {fraction rest : List Char} (hfraction : ∀ c ∈ fraction, c.isDigit = true)
    (hrest : ∀ c, rest.head? = some c → c.isDigit = false ∧ c ≠ '.') :
    parseFraction ((if fraction = [] then [] else '.' :: fraction) ++ rest) = some (fraction, rest) := by
  split
  · next hnil =>
    rw [List.nil_append, hnil]
    cases rest with
    | nil => rfl
    | cons c rest =>
      rw [parseFraction]
      intro rest' heq
      exact (hrest c rfl).2 (List.cons.inj heq).1
  · next hne =>
    obtain ⟨htake, hdrop⟩ := digits_append hfraction fun c hc => (hrest c hc).1
    rw [List.cons_append, parseFraction, htake, hdrop, if_neg hne]

theorem parseUnsigned_numeral {whole fraction : List Char} {exponent : Option ℕ} {rest : List Char} (hwhole : whole ≠ [])
    (hzero : whole.head? = some '0' → whole = ['0']) (hdigits : ∀ c ∈ whole ++ fraction, c.isDigit = true) (hrest : Ends rest) :
    parseUnsigned (numeral whole fraction exponent ++ rest) =
      some ((Nat.ofDigitChars 10 (whole ++ fraction) 0 : ℚ) * 10 ^ (((exponent.getD 0 : ℕ) : ℤ) - fraction.length), rest) := by
  let tail := (exponent.elim [] fun e => 'e' :: '+' :: Nat.toDigits 10 e) ++ rest
  let point := (if fraction = [] then [] else '.' :: fraction) ++ tail
  have htail : ∀ c, tail.head? = some c → c.isDigit = false ∧ c ≠ '.' := by
    intro c hc
    cases hexponent : exponent with
    | none =>
      simp only [tail, hexponent, Option.elim_none, List.nil_append] at hc
      exact ⟨(hrest c hc).1, (hrest c hc).2.1⟩
    | some e =>
      simp only [tail, hexponent, Option.elim_some, List.cons_append, List.head?_cons, Option.some_inj] at hc
      rw [← hc]
      decide
  have hpoint : ∀ c, point.head? = some c → c.isDigit = false := by
    intro c hc
    by_cases hfraction : fraction = []
    · simp only [point, hfraction, if_true, List.nil_append] at hc
      exact (htail c hc).1
    · simp only [point, if_neg hfraction, List.cons_append, List.head?_cons, Option.some_inj] at hc
      rw [← hc]
      decide
  have htext : numeral whole fraction exponent ++ rest = whole ++ point := by
    simp only [numeral, point, tail, List.append_assoc]
  obtain ⟨hdigitsWhole, hdigitsFraction⟩ := List.forall_mem_append.mp hdigits
  obtain ⟨htake, hdrop⟩ := digits_append hdigitsWhole hpoint
  have hsplit : (if (whole ++ point).head? = some '0' then (['0'], (whole ++ point).tail)
      else ((whole ++ point).takeWhile Char.isDigit, (whole ++ point).dropWhile Char.isDigit)) = (whole, point) := by
    rw [htake, hdrop]
    split
    · next hhead =>
      have hone : whole = ['0'] := hzero (by rwa [List.head?_append_of_ne_nil _ hwhole] at hhead)
      rw [hone]
      rfl
    · rfl
  unfold parseUnsigned
  rw [htext, hsplit]
  show (if whole = [] then none else _) = _
  rw [if_neg hwhole, parseFraction_text hdigitsFraction htail]
  show (do let (e, rest) ← parseExponent tail; return _) = _
  rw [parseExponent_text hrest]
  rfl

theorem isDigit_of_parseUnsigned {cs rest : List Char} {q : ℚ}
    (h : parseUnsigned cs = some (q, rest)) : ∃ c tail, cs = c :: tail ∧ c.isDigit = true := by
  cases cs with
  | nil => exact absurd h (by simp [parseUnsigned])
  | cons c tail =>
    refine ⟨c, tail, rfl, ?_⟩
    by_contra hc
    have hzero : (c :: tail).head? ≠ some '0' := by
      intro heq
      rw [Option.some.inj heq] at hc
      exact hc (by decide)
    unfold parseUnsigned at h
    rw [if_neg hzero, List.takeWhile_cons_of_neg hc] at h
    exact absurd h (by simp)

/-! ### Values are read back -/

/-- The text of a number is read as the number. -/
structure NumberText (num : ℚ → ν) (text : List Char) (x : ν) : Prop where
  head : ∃ c cs, text = c :: cs ∧ (c.isDigit = true ∨ c = '-')
  read : ∀ rest, Ends rest → parseNumber num (text ++ rest) = some (number x, rest)

/-- All numbers of a value have a property. -/
inductive Forall (P : ν → Prop) : Json ν → Prop
  | null : Forall P null
  | bool (b : Bool) : Forall P (bool b)
  | number {x : ν} (hx : P x) : Forall P (number x)
  | string (s : List CodeUnit) : Forall P (string s)
  | array {vs : List (Json ν)} (hvs : ∀ v ∈ vs, Forall P v) : Forall P (array vs)
  | object {ms : List (List CodeUnit × Json ν)} (hms : ∀ m ∈ ms, Forall P m.2) : Forall P (object ms)

variable {num : ℚ → ν} {numText : ν → List Char}

/-- The value is read from its text, with enough steps. -/
def Reads (num : ℚ → ν) (numText : ν → List Char) (v : Json ν) : Prop :=
  ∀ rest, Ends rest → ∀ fuel, 2 * (stringify numText v).length ≤ fuel → parseValue num fuel (stringify numText v ++ rest) = some (v, rest)

theorem isSpace_of_digit {c : Char} (hc : c.isDigit = true ∨ c = '-') :
    isSpace c = false ∧ c ∉ ['"', '[', '{', 'n', 't', 'f', ']', '}'] := by
  rcases hc with hc | rfl
  · have hval : 48 ≤ c.toNat ∧ c.toNat ≤ 57 := by
      simp only [Char.isDigit, Bool.and_eq_true, decide_eq_true_eq, ge_iff_le, UInt32.le_iff_toNat_le] at hc
      exact hc
    have hne : ∀ d : Char, (d.toNat < 48 ∨ 57 < d.toNat) → c ≠ d := by
      intro d hd heq
      rw [heq] at hval
      omega
    refine ⟨decide_eq_false ?_, ?_⟩
    · intro h
      rcases h with h | h | h | h <;> exact hne _ (by decide) h
    · intro h
      simp only [List.mem_cons, List.not_mem_nil, or_false] at h
      rcases h with h | h | h | h | h | h | h | h <;> exact hne _ (by decide) h
  · decide

theorem stringify_head {P : ν → Prop} (htext : ∀ x, P x → NumberText num (numText x) x) {v : Json ν} (hv : Forall P v) :
    ∃ c cs, stringify numText v = c :: cs ∧ isSpace c = false ∧ c ≠ ']' ∧ c ≠ '}' := by
  cases hv with
  | null => exact ⟨'n', _, rfl, by decide, by decide, by decide⟩
  | bool b => cases b <;> exact ⟨_, _, rfl, by decide, by decide, by decide⟩
  | @number x hx =>
    obtain ⟨c, cs, hcs, hc⟩ := (htext x hx).head
    obtain ⟨hspace, hnot⟩ := isSpace_of_digit hc
    refine ⟨c, cs, hcs, hspace, ?_, ?_⟩
    · rintro rfl
      exact hnot (by decide)
    · rintro rfl
      exact hnot (by decide)
  | string s => exact ⟨'"', _, rfl, by decide, by decide, by decide⟩
  | array hvs => exact ⟨'[', _, rfl, by decide, by decide, by decide⟩
  | object hms => exact ⟨'{', _, rfl, by decide, by decide, by decide⟩

theorem skipSpace_cons {c : Char} {cs : List Char} (hc : isSpace c = false) : skipSpace (c :: cs) = c :: cs :=
  List.dropWhile_cons_of_neg (by rw [hc]; decide)

theorem parseElements_text {v : Json ν} {vs : List (Json ν)} (hvs : ∀ w ∈ v :: vs, Reads num numText w) {rest : List Char} {fuel : ℕ}
    (hfuel : 2 * (stringifyElements numText (v :: vs)).length + 1 ≤ fuel) :
    parseElements num fuel (stringifyElements numText (v :: vs) ++ rest) = some (v :: vs, rest) := by
  induction vs generalizing v fuel with
  | nil =>
    obtain ⟨fuel, rfl⟩ : ∃ k, fuel = k + 1 := ⟨fuel - 1, by omega⟩
    rw [stringifyElements] at hfuel ⊢
    rw [List.length_append, List.length_singleton] at hfuel
    rw [parseElements, List.append_assoc, List.singleton_append, hvs v List.mem_cons_self _ (ends_cons _ (by decide)) fuel (by omega)]
    rfl
  | cons w vs ih =>
    obtain ⟨fuel, rfl⟩ : ∃ k, fuel = k + 1 := ⟨fuel - 1, by omega⟩
    rw [stringifyElements] at hfuel ⊢
    rw [List.length_append, List.length_cons] at hfuel
    rw [parseElements, List.append_assoc, List.cons_append, hvs v List.mem_cons_self _ (ends_cons _ (by decide)) fuel (by omega)]
    show (do let (us, rest) ← parseElements num fuel (stringifyElements numText (w :: vs) ++ rest); return (v :: us, rest)) = _
    rw [ih (fun u hu => hvs u (List.mem_cons_of_mem _ hu)) (by omega)]
    rfl

theorem parseMembers_cons {k : List CodeUnit} {fuel : ℕ} {rest : List Char} :
    parseMembers num (fuel + 1) (quote k ++ ':' :: rest) = (do
      let (v, rest) ← parseValue num fuel rest
      match skipSpace rest with
      | '}' :: rest => return ([(k, v)], rest)
      | ',' :: rest =>
        let (ms, rest) ← parseMembers num fuel rest
        return ((k, v) :: ms, rest)
      | _ => none) := by
  have htext : quote k ++ ':' :: rest = '"' :: (quoteUnits k ++ '"' :: ':' :: rest) := by
    simp only [quote, List.cons_append, List.append_assoc, List.nil_append]
  rw [htext, parseMembers, skipSpace_cons (by decide)]
  show (do let (k, rest) ← parseString (quoteUnits k ++ '"' :: ':' :: rest); _) = _
  rw [parseString_quoteUnits]
  rfl

theorem parseMembers_text {m : List CodeUnit × Json ν} {ms : List (List CodeUnit × Json ν)} (hms : ∀ m' ∈ m :: ms, Reads num numText m'.2)
    {rest : List Char} {fuel : ℕ} (hfuel : 2 * (stringifyMembers numText (m :: ms)).length + 1 ≤ fuel) :
    parseMembers num fuel (stringifyMembers numText (m :: ms) ++ rest) = some (m :: ms, rest) := by
  induction ms generalizing m fuel with
  | nil =>
    obtain ⟨k, v⟩ := m
    obtain ⟨fuel, rfl⟩ : ∃ n, fuel = n + 1 := ⟨fuel - 1, by omega⟩
    rw [stringifyMembers] at hfuel ⊢
    simp only [List.length_append, List.length_cons, List.length_nil] at hfuel
    rw [List.append_assoc, List.cons_append, List.append_assoc, List.singleton_append, parseMembers_cons,
      hms (k, v) List.mem_cons_self _ (ends_cons _ (by decide)) fuel (by dsimp only; omega)]
    rfl
  | cons m' ms ih =>
    obtain ⟨k, v⟩ := m
    obtain ⟨fuel, rfl⟩ : ∃ n, fuel = n + 1 := ⟨fuel - 1, by omega⟩
    rw [stringifyMembers] at hfuel ⊢
    simp only [List.length_append, List.length_cons] at hfuel
    rw [List.append_assoc, List.cons_append, List.append_assoc, List.cons_append, parseMembers_cons,
      hms (k, v) List.mem_cons_self _ (ends_cons _ (by decide)) fuel (by dsimp only; omega)]
    show (do let (ms, rest) ← parseMembers num fuel (stringifyMembers numText (m' :: ms) ++ rest); return ((k, v) :: ms, rest)) = _
    rw [ih (fun u hu => hms u (List.mem_cons_of_mem _ hu)) (by omega)]
    rfl

theorem parseWord_append (word : List Char) (v : Json ν) (rest : List Char) : parseWord word v (word ++ rest) = some (v, rest) := by
  rw [parseWord, if_pos (List.prefix_append word rest), List.drop_left]

/-- One step reads the first character, and there are enough steps left for the others. -/
theorem reads_of_cons {v : Json ν} {c : Char} {cs : List Char} (hcs : stringify numText v = c :: cs)
    (hread : ∀ rest, Ends rest → ∀ fuel, 2 * cs.length + 1 ≤ fuel → parseValue num (fuel + 1) (c :: (cs ++ rest)) = some (v, rest)) :
    Reads num numText v := by
  intro rest hrest fuel hfuel
  rw [hcs, List.length_cons] at hfuel
  obtain ⟨k, rfl⟩ : ∃ k, fuel = k + 1 := ⟨fuel - 1, by omega⟩
  rw [hcs]
  exact hread rest hrest k (by omega)

theorem reads {P : ν → Prop} (htext : ∀ x, P x → NumberText num (numText x) x) {v : Json ν} (hv : Forall P v) : Reads num numText v := by
  induction hv with
  | null =>
    apply reads_of_cons rfl
    intro rest _ fuel _
    rw [parseValue, skipSpace_cons (by decide)]
    dsimp only
    rw [if_neg (by decide), if_neg (by decide), if_neg (by decide), if_pos rfl]
    exact parseWord_append _ _ _
  | bool b =>
    cases b with
    | true =>
      apply reads_of_cons rfl
      intro rest _ fuel _
      rw [parseValue, skipSpace_cons (by decide)]
      dsimp only
      rw [if_neg (by decide), if_neg (by decide), if_neg (by decide), if_neg (by decide), if_pos rfl]
      exact parseWord_append _ _ _
    | false =>
      apply reads_of_cons rfl
      intro rest _ fuel _
      rw [parseValue, skipSpace_cons (by decide)]
      dsimp only
      rw [if_neg (by decide), if_neg (by decide), if_neg (by decide), if_neg (by decide), if_neg (by decide), if_pos rfl]
      exact parseWord_append _ _ _
  | @number x hx =>
    obtain ⟨c, cs, hcs, hc⟩ := (htext x hx).head
    obtain ⟨hspace, hnot⟩ := isSpace_of_digit hc
    have htext' : stringify numText (number x) = c :: cs := by
      rw [stringify]
      exact hcs
    apply reads_of_cons htext'
    intro rest hrest fuel _
    have hread := (htext x hx).read rest hrest
    rw [hcs] at hread
    simp only [List.mem_cons, List.not_mem_nil, or_false, not_or] at hnot
    obtain ⟨hquote, harray, hobject, hn, ht, hf, -, -⟩ := hnot
    rw [parseValue, skipSpace_cons hspace]
    dsimp only
    rw [if_neg hquote, if_neg harray, if_neg hobject, if_neg hn, if_neg ht, if_neg hf]
    exact hread
  | string s =>
    apply reads_of_cons rfl
    intro rest _ fuel _
    rw [parseValue, skipSpace_cons (by decide)]
    dsimp only
    rw [if_pos rfl]
    show (parseString ((quoteUnits s ++ ['"']) ++ rest)).map _ = _
    rw [List.append_assoc, List.singleton_append, parseString_quoteUnits]
    rfl
  | @array vs hvs ih =>
    apply reads_of_cons rfl
    intro rest _ fuel hfuel
    rw [parseValue, skipSpace_cons (by decide)]
    dsimp only
    rw [if_neg (by decide), if_pos rfl]
    cases vs with
    | nil => rfl
    | cons v vs =>
      obtain ⟨c, cs, hcs, hspace, hc, -⟩ := stringify_head htext (hvs v List.mem_cons_self)
      obtain ⟨cs', hcs'⟩ : ∃ cs', stringifyElements numText (v :: vs) ++ rest = c :: cs' := by
        cases vs with
        | nil => exact ⟨_, by rw [stringifyElements, hcs]; rfl⟩
        | cons w vs => exact ⟨_, by rw [stringifyElements, hcs]; rfl⟩
      have hhead : (skipSpace (stringifyElements numText (v :: vs) ++ rest)).head? ≠ some ']' := by
        rw [hcs', skipSpace_cons hspace]
        exact fun heq => hc (Option.some.inj heq)
      rw [if_neg hhead, parseElements_text ih hfuel]
      rfl
  | @object ms hms ih =>
    apply reads_of_cons rfl
    intro rest _ fuel hfuel
    rw [parseValue, skipSpace_cons (by decide)]
    dsimp only
    rw [if_neg (by decide), if_neg (by decide), if_pos rfl]
    cases ms with
    | nil => rfl
    | cons m ms =>
      obtain ⟨k, v⟩ := m
      obtain ⟨cs', hcs'⟩ : ∃ cs', stringifyMembers numText ((k, v) :: ms) ++ rest = '"' :: cs' := by
        cases ms with
        | nil => exact ⟨_, by rw [stringifyMembers]; rfl⟩
        | cons m ms => exact ⟨_, by rw [stringifyMembers]; rfl⟩
      have hhead : (skipSpace (stringifyMembers numText ((k, v) :: ms) ++ rest)).head? ≠ some '}' := by
        rw [hcs', skipSpace_cons (by decide), List.head?_cons]
        decide
      rw [if_neg hhead, parseMembers_text ih hfuel]
      rfl

/-- A value is read back from its text. -/
theorem parse_stringify {P : ν → Prop} (htext : ∀ x, P x → NumberText num (numText x) x) {v : Json ν} (hv : Forall P v) :
    parse num (stringify numText v) = some v := by
  have hread := reads htext hv [] (fun c hc => absurd hc (Option.some_ne_none c).symm) _ le_rfl
  rw [List.append_nil] at hread
  rw [parse, hread]
  rfl

end Json
