import Mathlib.Data.List.Basic

/-!
# Base 64

Bytes in groups of six bits. A last group that is not full is filled with zeros, and what it is filled with is not looked at when it is read.
-/

namespace Base64

def encode : List ℕ → List ℕ
  | [] => []
  | [a] => [a / 4, a % 4 * 16]
  | [a, b] => [a / 4, a % 4 * 16 + b / 16, b % 16 * 4]
  | a :: b :: c :: rest => a / 4 :: (a % 4 * 16 + b / 16) :: (b % 16 * 4 + c / 64) :: c % 64 :: encode rest

/-- A single group at the end is no byte. -/
def decode : List ℕ → Option (List ℕ)
  | [] => some []
  | [_] => none
  | [a, b] => some [a * 4 + b / 16]
  | [a, b, c] => some [a * 4 + b / 16, b % 16 * 16 + c / 4]
  | a :: b :: c :: d :: rest => (decode rest).map fun bytes => (a * 4 + b / 16) :: (b % 16 * 16 + c / 4) :: (c % 4 * 64 + d) :: bytes

theorem decode_encode (bs : List ℕ) (hbs : ∀ b ∈ bs, b < 256) : decode (encode bs) = some bs := by
  induction bs using encode.induct with
  | case1 => rfl
  | case2 a =>
    have ha := hbs a List.mem_cons_self
    show some [a / 4 * 4 + a % 4 * 16 / 16] = _
    congr 2
    omega
  | case3 a b =>
    obtain ⟨ha, hb⟩ := List.forall_mem_cons.mp hbs
    have hb := hb b List.mem_cons_self
    show some [a / 4 * 4 + (a % 4 * 16 + b / 16) / 16, (a % 4 * 16 + b / 16) % 16 * 16 + b % 16 * 4 / 4] = _
    congr 2
    · omega
    · congr 1
      omega
  | case4 a b c rest ih =>
    obtain ⟨ha, hbs⟩ := List.forall_mem_cons.mp hbs
    obtain ⟨hb, hbs⟩ := List.forall_mem_cons.mp hbs
    obtain ⟨hc, hrest⟩ := List.forall_mem_cons.mp hbs
    have hfirst : a / 4 * 4 + (a % 4 * 16 + b / 16) / 16 = a := by omega
    have hsecond : (a % 4 * 16 + b / 16) % 16 * 16 + (b % 16 * 4 + c / 64) / 4 = b := by omega
    have hthird : (b % 16 * 4 + c / 64) % 4 * 64 + c % 64 = c := by omega
    rw [encode, decode, ih hrest, Option.map_some, hfirst, hsecond, hthird]

theorem encode_lt (bs : List ℕ) (hbs : ∀ b ∈ bs, b < 256) : ∀ d ∈ encode bs, d < 64 := by
  induction bs using encode.induct with
  | case1 => exact fun d hd => absurd hd List.not_mem_nil
  | case2 a =>
    have ha := hbs a List.mem_cons_self
    simp only [encode, List.forall_mem_cons]
    exact ⟨by omega, by omega, fun d hd => absurd hd List.not_mem_nil⟩
  | case3 a b =>
    obtain ⟨ha, hb⟩ := List.forall_mem_cons.mp hbs
    have hb := hb b List.mem_cons_self
    simp only [encode, List.forall_mem_cons]
    exact ⟨by omega, by omega, by omega, fun d hd => absurd hd List.not_mem_nil⟩
  | case4 a b c rest ih =>
    obtain ⟨ha, hbs⟩ := List.forall_mem_cons.mp hbs
    obtain ⟨hb, hbs⟩ := List.forall_mem_cons.mp hbs
    obtain ⟨hc, hrest⟩ := List.forall_mem_cons.mp hbs
    simp only [encode, List.forall_mem_cons]
    exact ⟨by omega, by omega, by omega, by omega, ih hrest⟩

/-- The groups come to no length that leaves one over. -/
theorem length_encode (bs : List ℕ) : (encode bs).length % 4 ≠ 1 := by
  induction bs using encode.induct with
  | case1 => decide
  | case2 a => exact (by decide : 2 % 4 ≠ 1)
  | case3 a b => exact (by decide : 3 % 4 ≠ 1)
  | case4 a b c rest ih =>
    simp only [encode, List.length_cons]
    omega

end Base64
