import Mathlib.Data.List.Basic

/-!
Percent-encoding of text: `encodeURIComponent` of the browsers and the decoding
of a query value on the server, and that the second undoes the first.
-/

namespace Percent

def hexDigit (n : ℕ) : Char := Char.ofNat (if n < 10 then 48 + n else 55 + n)

def hexValue (c : Char) : Option ℕ :=
  if '0' ≤ c ∧ c ≤ '9' then some (c.toNat - 48)
  else if 'A' ≤ c ∧ c ≤ 'F' then some (c.toNat - 55)
  else if 'a' ≤ c ∧ c ≤ 'f' then some (c.toNat - 87)
  else none

def encodeByte (b : UInt8) : List Char := ['%', hexDigit (b.toNat / 16), hexDigit (b.toNat % 16)]

def unreserved (c : Char) : Bool := c.isAlphanum || c ∈ ['-', '_', '.', '!', '~', '*', Char.ofNat 39, '(', ')']

def encodeChar (c : Char) : List Char := if unreserved c then [c] else (String.utf8EncodeChar c).flatMap encodeByte

def encodeURIComponent (s : String) : String := String.ofList (s.toList.flatMap encodeChar)

/-- The bytes of a query value, none if a percent sign is not followed by two
hexadecimal digits. -/
def bytes : List Char → Option (List UInt8)
  | [] => some []
  | '%' :: hi :: lo :: cs =>
    (hexValue hi).bind fun h => (hexValue lo).bind fun l => (bytes cs).map (UInt8.ofNat (16 * h + l) :: ·)
  | c :: cs =>
    if c = '%' then none
    else (bytes cs).map ((if c = '+' then [32] else String.utf8EncodeChar c) ++ ·)

def decode (s : String) : Option String :=
  (bytes s.toList).bind (fun bs => bs.toByteArray.utf8Decode?.map (fun cs => String.ofList cs.toList))

theorem hexValue_hexDigit {n : ℕ} (h : n < 16) : hexValue (hexDigit n) = some n := by
  have hall : ∀ d : Fin 16, hexValue (hexDigit d) = some d.val := by decide
  exact hall ⟨n, h⟩

theorem bytes_encodeByte (b : UInt8) (cs : List Char) : bytes (encodeByte b ++ cs) = (bytes cs).map (b :: ·) := by
  have hb : b.toNat < 256 := b.toNat_lt
  have hbyte : UInt8.ofNat (16 * (b.toNat / 16) + b.toNat % 16) = b := by
    rw [Nat.div_add_mod]
    exact UInt8.ofNat_toNat
  rw [encodeByte, List.cons_append, List.cons_append, List.cons_append, List.nil_append, bytes,
    hexValue_hexDigit (by omega), hexValue_hexDigit (by omega), Option.bind_some, Option.bind_some, hbyte]

theorem bytes_encodeBytes (bs : List UInt8) (cs : List Char) :
    bytes (bs.flatMap encodeByte ++ cs) = (bytes cs).map (bs ++ ·) := by
  induction bs with
  | nil => simp
  | cons b bs ih =>
    rw [List.flatMap_cons, List.append_assoc, bytes_encodeByte, ih, Option.map_map]
    rfl

theorem bytes_unreserved {c : Char} (h : unreserved c = true) (cs : List Char) :
    bytes (c :: cs) = (bytes cs).map (String.utf8EncodeChar c ++ ·) := by
  have hpercent : c ≠ '%' := by
    rintro rfl
    revert h
    decide
  have hplus : c ≠ '+' := by
    rintro rfl
    revert h
    decide
  rw [bytes, if_neg hpercent, if_neg hplus]
  intro hi lo rest hc
  exact absurd hc hpercent

theorem bytes_encodeChar (c : Char) (cs : List Char) :
    bytes (encodeChar c ++ cs) = (bytes cs).map (String.utf8EncodeChar c ++ ·) := by
  unfold encodeChar
  split
  · rename_i h
    exact bytes_unreserved h cs
  · exact bytes_encodeBytes _ cs

theorem bytes_encode (cs : List Char) : bytes (cs.flatMap encodeChar) = some (cs.flatMap String.utf8EncodeChar) := by
  induction cs with
  | nil => rfl
  | cons c cs ih => rw [List.flatMap_cons, bytes_encodeChar, ih, Option.map_some, List.flatMap_cons]

theorem decode_encode (s : String) : decode (encodeURIComponent s) = some s := by
  have hutf : (s.toList.flatMap String.utf8EncodeChar).toByteArray.utf8Decode? = some s.toList.toArray :=
    List.utf8Decode?_utf8Encode
  rw [decode, encodeURIComponent, String.toList_ofList, bytes_encode, Option.bind_some, hutf, Option.map_some,
    List.toList_toArray, String.ofList_toList]

end Percent
