import Mathlib.Data.List.Defs
import Mathlib.Data.Rat.Defs
import Blnkk.Lib.Json

/-!
The string and parameter operations of Ruby and Rails that the models rely on.
`blank?` and the lengths are those of any text; the case mapping is that of ASCII,
as `String#downcase` of this Ruby has it.
-/

namespace Blnkk

namespace Text

/-- The class `\s`, which is also what `strip` takes off. -/
def isSpace (c : Char) : Bool := c ∈ [' ', '\t', '\n', '\r', '\x0b', '\x0c']

/-- The class `[[:space:]]`, with the blanks of Unicode since version 6.3. -/
def isUnicodeSpace (c : Char) : Bool :=
  isSpace c || c.toNat ∈ [0x85, 0xa0, 0x1680, 0x2028, 0x2029, 0x202f, 0x205f, 0x3000] ||
    (decide (0x2000 ≤ c.toNat) && decide (c.toNat ≤ 0x200a))

def present (s : String) : Bool := s.toList.any (fun c => !isUnicodeSpace c)

/-- The bytes of a text in `utf8mb4`. -/
def byteSize (s : String) : ℕ := (s.toList.map Char.utf8Size).sum

def downcase (s : String) : String := String.ofList (s.toList.map Char.toLower)

def strip (s : String) : String :=
  String.ofList (((s.toList.dropWhile isSpace).reverse.dropWhile (fun c => isSpace c || c == '\x00')).reverse)

def digitsToNat (acc : ℕ) : List Char → ℕ
  | [] => acc
  | c :: cs =>
    if c.isDigit then digitsToNat (acc * 10 + (c.toNat - '0'.toNat)) cs
    else if c == '_' && (cs.head?.map Char.isDigit).getD false then digitsToNat acc cs
    else acc

def leadingNat : List Char → ℕ
  | [] => 0
  | c :: cs => if c.isDigit then digitsToNat 0 (c :: cs) else 0

def toI (s : String) : ℤ :=
  match s.toList.dropWhile isSpace with
  | '-' :: cs => -(leadingNat cs : ℤ)
  | '+' :: cs => leadingNat cs
  | cs => leadingNat cs

def isLocalChar (c : Char) : Bool := c.isAlphanum || c ∈ ['-', '_', '.', '%', '+']

def isDomainChar (c : Char) : Bool := c.isAlphanum || c ∈ ['-', '_', '.']

def domainFormat (domain : List Char) : Bool :=
  let tld := domain.reverse.takeWhile (· != '.')
  let host := (domain.reverse.dropWhile (· != '.')).drop 1
  2 ≤ tld.length && tld.length ≤ 4 && tld.all Char.isAlpha && !host.isEmpty && host.all isDomainChar

/-- The `:format` of an e-mail column. Every class in it excludes the at sign,
so the split at the first one is the only candidate. -/
def emailFormat (s : String) : Bool :=
  -- `\Z` also matches before a final line break
  let line := if s.toList.getLast? = some '\n' then s.toList.dropLast else s.toList
  let address := line.takeWhile (· != '@')
  let rest := line.dropWhile (· != '@')
  !address.isEmpty && address.all isLocalChar &&
    match rest with
    | [] => false
    | _ :: domain => domainFormat domain

/-- `email[/[^@]+/]`: the first run of characters other than the at sign. -/
def beforeAt (s : String) : String :=
  String.ofList ((s.toList.dropWhile (· == '@')).takeWhile (· != '@'))

def truncate (limit : ℕ) (s : String) : String :=
  if s.toList.length ≤ limit then s else String.ofList (s.toList.take (limit - 3)) ++ "..."

/-- `String#squeeze`, which keeps one of several equal characters in a row. -/
def squeeze (s : String) : String := String.ofList (s.toList.destutter (· ≠ ·))

def splitChars (sep : Char) : List Char → List (List Char)
  | [] => [[]]
  | c :: cs =>
    if c = sep then [] :: splitChars sep cs
    else
      match splitChars sep cs with
      | [] => [[c]]
      | word :: words => (c :: word) :: words

/-- `String#split`, which leaves out the empty words at the end. -/
def split (sep : Char) (s : String) : List String :=
  (((splitChars sep s.toList).reverse.dropWhile List.isEmpty).reverse).map String.ofList

section Split

variable {sep : Char}

theorem splitChars_ne_nil (cs : List Char) : splitChars sep cs ≠ [] := by
  cases cs with
  | nil => exact List.cons_ne_nil _ _
  | cons c cs =>
    simp only [splitChars]
    split
    · exact List.cons_ne_nil _ _
    · cases splitChars sep cs <;> exact List.cons_ne_nil _ _

theorem splitChars_append (a b : List Char) :
    splitChars sep (a ++ sep :: b) = splitChars sep a ++ splitChars sep b := by
  induction a with
  | nil => simp [splitChars]
  | cons c a ih =>
    simp only [List.cons_append, splitChars, ih]
    split
    · rfl
    · cases ha : splitChars sep a with
      | nil => exact absurd ha (splitChars_ne_nil a)
      | cons word words => rfl

theorem splitChars_of_not_mem {a : List Char} (h : sep ∉ a) : splitChars sep a = [a] := by
  induction a with
  | nil => rfl
  | cons c a ih =>
    rw [List.mem_cons, not_or] at h
    simp only [splitChars, if_neg (Ne.symm h.1), ih h.2]

theorem split_of_concat {s : String} {words : List (List Char)} {last : List Char}
    (h : splitChars sep s.toList = words ++ [last]) (hlast : last ≠ []) :
    split sep s = (words ++ [last]).map String.ofList := by
  rw [split, h, List.reverse_append, List.reverse_singleton, List.singleton_append,
    List.dropWhile_cons_of_neg (by simpa using hlast), List.reverse_cons, List.reverse_reverse]

end Split

/-- The slashes that `%r{(?<!:)/+(?=/)}` matches: those before another slash
and not after a colon. -/
def dropSlashes (previous : Option Char) : List Char → List Char
  | [] => []
  | c :: cs =>
    if c = '/' ∧ cs.head? = some '/' ∧ previous ≠ some ':' then dropSlashes (some c) cs
    else c :: dropSlashes (some c) cs

/-- `gsub!` is nil when it has nothing to substitute. -/
def gsubSlashes (s : String) : Option String :=
  if dropSlashes none s.toList = s.toList then none else some (String.ofList (dropSlashes none s.toList))

def toJson (s : String) : String := String.ofList (Json.quote s.toList)

end Text

inductive Param where
  | null
  | bool (b : Bool)
  | int (n : ℤ)
  | float (q : ℚ)
  | text (s : String)
  | other
  deriving DecidableEq

namespace Param

def toInteger : Param → Option ℤ
  | null => none
  | bool b => some (if b then 1 else 0)
  | int n => some n
  | float q => some (q.num.tdiv q.den)
  | text s => if Text.present s then some (Text.toI s) else none
  | other => none

def present : Param → Bool
  | null => false
  | bool b => b
  | text s => Text.present s
  | _ => true

/-- Ruby's `==` between the raw parameter and an integer or nil. -/
def eqInt : Param → Option ℤ → Bool
  | null, none => true
  | int n, some m => n == m
  | float q, some m => q == m
  | _, _ => false

end Param

end Blnkk
