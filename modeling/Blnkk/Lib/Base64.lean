import Mathlib.Data.List.Basic

/-!
Base64 with the alphabet for URLs and with padding. The decoder is strict: the
text is cut into groups of four, padding stands at the end only, and the bits
that it leaves over are zero. It also takes the two characters of the ordinary
alphabet.
-/

namespace Base64

def alphabet : List Char := "ABCDEFGHIJKLMNOPQRSTUVWXYZabcdefghijklmnopqrstuvwxyz0123456789-_".toList

def digit (n : ℕ) : Char := alphabet.getD n '='

def value? (c : Char) : Option ℕ :=
  if c = '+' then some 62
  else if c = '/' then some 63
  else alphabet.findIdx? (· == c)

def encode : List UInt8 → List Char
  | [] => []
  | [a] => [digit (a.toNat / 4), digit (a.toNat % 4 * 16), '=', '=']
  | [a, b] => [digit (a.toNat / 4), digit (a.toNat % 4 * 16 + b.toNat / 16), digit (b.toNat % 16 * 4), '=']
  | a :: b :: c :: rest =>
    digit (a.toNat / 4) :: digit (a.toNat % 4 * 16 + b.toNat / 16) :: digit (b.toNat % 16 * 4 + c.toNat / 64) ::
      digit (c.toNat % 64) :: encode rest

def decodeOne (x y : Char) : Option (List UInt8) := do
  let x ← value? x
  let y ← value? y
  if y % 16 = 0 then some [UInt8.ofNat (x * 4 + y / 16)] else none

def decodeTwo (x y z : Char) : Option (List UInt8) := do
  let x ← value? x
  let y ← value? y
  let z ← value? z
  if z % 4 = 0 then some [UInt8.ofNat (x * 4 + y / 16), UInt8.ofNat (y % 16 * 16 + z / 4)] else none

def decodeThree (x y z w : Char) : Option (List UInt8) := do
  let x ← value? x
  let y ← value? y
  let z ← value? z
  let w ← value? w
  some [UInt8.ofNat (x * 4 + y / 16), UInt8.ofNat (y % 16 * 16 + z / 4), UInt8.ofNat (z % 4 * 64 + w)]

def decode : List Char → Option (List UInt8)
  | [] => some []
  | x :: y :: z :: w :: rest =>
    if w ≠ '=' then do
      let group ← decodeThree x y z w
      let bytes ← decode rest
      some (group ++ bytes)
    else if rest ≠ [] then none
    else if z = '=' then decodeOne x y
    else decodeTwo x y z
  | _ => none

theorem value?_digit : ∀ {n : ℕ}, n < 64 → value? (digit n) = some n := by decide +kernel

theorem digit_ne_pad : ∀ {n : ℕ}, n < 64 → digit n ≠ '=' := by decide +kernel

theorem digit_mem : ∀ {n : ℕ}, n < 64 → digit n ∈ alphabet := by decide +kernel

section Bytes

variable (a b c : UInt8)

theorem first_lt : a.toNat / 4 < 64 := by
  have := a.toNat_lt
  omega

theorem second_lt : a.toNat % 4 * 16 + b.toNat / 16 < 64 := by
  have := b.toNat_lt
  omega

theorem third_lt : b.toNat % 16 * 4 + c.toNat / 64 < 64 := by
  have := c.toNat_lt
  omega

theorem ofNat_eq {n : ℕ} (h : n = a.toNat) : UInt8.ofNat n = a := by
  rw [h, UInt8.ofNat_toNat]

theorem decodeOne_digits : decodeOne (digit (a.toNat / 4)) (digit (a.toNat % 4 * 16)) = some [a] := by
  have ha := a.toNat_lt
  rw [decodeOne, value?_digit (first_lt a), value?_digit (by omega)]
  simp only [Option.bind_eq_bind, Option.bind_some]
  rw [if_pos (by omega), ofNat_eq a (by omega)]

theorem decodeTwo_digits :
    decodeTwo (digit (a.toNat / 4)) (digit (a.toNat % 4 * 16 + b.toNat / 16)) (digit (b.toNat % 16 * 4)) = some [a, b] := by
  have ha := a.toNat_lt
  have hb := b.toNat_lt
  rw [decodeTwo, value?_digit (first_lt a), value?_digit (second_lt a b), value?_digit (by omega)]
  simp only [Option.bind_eq_bind, Option.bind_some]
  rw [if_pos (by omega), ofNat_eq a (by omega), ofNat_eq b (by omega)]

theorem decodeThree_digits :
    decodeThree (digit (a.toNat / 4)) (digit (a.toNat % 4 * 16 + b.toNat / 16))
      (digit (b.toNat % 16 * 4 + c.toNat / 64)) (digit (c.toNat % 64)) = some [a, b, c] := by
  have ha := a.toNat_lt
  have hb := b.toNat_lt
  have hc := c.toNat_lt
  rw [decodeThree, value?_digit (first_lt a), value?_digit (second_lt a b), value?_digit (third_lt b c),
    value?_digit (by omega)]
  simp only [Option.bind_eq_bind, Option.bind_some]
  rw [ofNat_eq a (by omega), ofNat_eq b (by omega), ofNat_eq c (by omega)]

end Bytes

theorem decode_encode (bytes : List UInt8) : decode (encode bytes) = some bytes := by
  induction bytes using encode.induct with
  | case1 => rfl
  | case2 a => simp [encode, decode, decodeOne_digits]
  | case3 a b =>
    have hb := b.toNat_lt
    have hz : digit (b.toNat % 16 * 4) ≠ '=' := digit_ne_pad (by omega)
    simp [encode, decode, hz, decodeTwo_digits]
  | case4 a b c rest ih =>
    have hw : digit (c.toNat % 64) ≠ '=' := digit_ne_pad (by omega)
    simp [encode, decode, hw, decodeThree_digits, ih]

/-- The characters of an encoded text. -/
theorem mem_encode {bytes : List UInt8} {x : Char} (h : x ∈ encode bytes) : x ∈ alphabet ∨ x = '=' := by
  induction bytes using encode.induct with
  | case1 => cases h
  | case2 a =>
    have ha := a.toNat_lt
    have h1 := digit_mem (first_lt a)
    have h2 : digit (a.toNat % 4 * 16) ∈ alphabet := digit_mem (by omega)
    simp only [encode, List.mem_cons, List.not_mem_nil, or_false] at h
    rcases h with rfl | rfl | rfl | rfl <;> simp [*]
  | case3 a b =>
    have h1 := digit_mem (first_lt a)
    have h2 := digit_mem (second_lt a b)
    have h3 : digit (b.toNat % 16 * 4) ∈ alphabet := digit_mem (by omega)
    simp only [encode, List.mem_cons, List.not_mem_nil, or_false] at h
    rcases h with rfl | rfl | rfl | rfl <;> simp [*]
  | case4 a b c rest ih =>
    have h1 := digit_mem (first_lt a)
    have h2 := digit_mem (second_lt a b)
    have h3 := digit_mem (third_lt b c)
    have h4 : digit (c.toNat % 64) ∈ alphabet := digit_mem (by omega)
    simp only [encode, List.mem_cons] at h
    rcases h with rfl | rfl | rfl | rfl | h
    · exact Or.inl h1
    · exact Or.inl h2
    · exact Or.inl h3
    · exact Or.inl h4
    · exact ih h

end Base64
