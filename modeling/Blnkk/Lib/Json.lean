import Mathlib.Data.List.Basic
import Mathlib.Data.Nat.Digits.Defs
import Mathlib.Tactic.IntervalCases

/-!
The JSON grammar as a reader of characters, and rules for the texts it reads:
strings with escapes, natural numbers, and objects put together from them. An
escape for one half of a surrogate pair is not read.
-/

inductive Json where
  | null
  | bool (b : Bool)
  | number (literal : List Char)
  | string (s : List Char)
  | array (items : List Json)
  | object (fields : List (List Char × Json))

namespace Json

def skip (cs : List Char) : List Char :=
  cs.dropWhile (fun c => c == ' ' || c == '\t' || c == '\n' || c == '\r')

def hexValue? (c : Char) : Option ℕ :=
  if '0' ≤ c ∧ c ≤ '9' then some (c.toNat - 48)
  else if 'a' ≤ c ∧ c ≤ 'f' then some (c.toNat - 87)
  else if 'A' ≤ c ∧ c ≤ 'F' then some (c.toNat - 55)
  else none

def unicode? (a b c d : Char) : Option Char := do
  let a ← hexValue? a
  let b ← hexValue? b
  let c ← hexValue? c
  let d ← hexValue? d
  let n := a * 4096 + b * 256 + c * 16 + d
  if 0xd800 ≤ n ∧ n < 0xe000 then none else some (Char.ofNat n)

def unescape? (c : Char) : Option Char :=
  if c = '"' ∨ c = '\\' ∨ c = '/' then some c
  else if c = 'b' then some '\x08'
  else if c = 'f' then some '\x0c'
  else if c = 'n' then some '\n'
  else if c = 'r' then some '\r'
  else if c = 't' then some '\t'
  else none

/-- The characters up to the closing quotation mark, and what follows it. -/
def stringBody : List Char → Option (List Char × List Char)
  | [] => none
  | x :: rest =>
    if x = '"' then some ([], rest)
    else if x = '\\' then
      match rest with
      | [] => none
      | y :: rest =>
        if y = 'u' then
          match rest with
          | a :: b :: c :: d :: rest =>
            (unicode? a b c d).bind (fun z => (stringBody rest).map (fun p => (z :: p.1, p.2)))
          | _ => none
        else (unescape? y).bind (fun z => (stringBody rest).map (fun p => (z :: p.1, p.2)))
    else if x.toNat < 32 then none
    else (stringBody rest).map (fun p => (x :: p.1, p.2))

def digits (cs : List Char) : Option (List Char × List Char) :=
  if (cs.takeWhile Char.isDigit).isEmpty then none else some (cs.takeWhile Char.isDigit, cs.dropWhile Char.isDigit)

/-- The digits before the point, which begin with a zero only if that is all. -/
def integer : List Char → Option (List Char × List Char)
  | '0' :: rest => some (['0'], rest)
  | cs => digits cs

def fraction : List Char → Option (List Char × List Char)
  | '.' :: rest => (digits rest).map (fun p => ('.' :: p.1, p.2))
  | cs => some ([], cs)

def exponent : List Char → Option (List Char × List Char)
  | x :: cs =>
    if x = 'e' ∨ x = 'E' then
      match cs with
      | '+' :: rest => (digits rest).map (fun p => (x :: '+' :: p.1, p.2))
      | '-' :: rest => (digits rest).map (fun p => (x :: '-' :: p.1, p.2))
      | rest => (digits rest).map (fun p => (x :: p.1, p.2))
    else some ([], x :: cs)
  | [] => some ([], [])

def unsigned (cs : List Char) : Option (List Char × List Char) := do
  let (whole, cs) ← integer cs
  let (part, cs) ← fraction cs
  let (power, cs) ← exponent cs
  some (whole ++ part ++ power, cs)

def numeral : List Char → Option (List Char × List Char)
  | '-' :: rest => (unsigned rest).map (fun p => ('-' :: p.1, p.2))
  | cs => unsigned cs

def word (cs : List Char) : Option (Json × List Char) :=
  if "null".toList.isPrefixOf cs then some (.null, cs.drop 4)
  else if "true".toList.isPrefixOf cs then some (.bool true, cs.drop 4)
  else if "false".toList.isPrefixOf cs then some (.bool false, cs.drop 5)
  else (numeral cs).map (fun p => (.number p.1, p.2))

mutual

def value : ℕ → List Char → Option (Json × List Char)
  | 0, _ => none
  | _ + 1, [] => none
  | fuel + 1, x :: rest =>
    if x = '"' then (stringBody rest).map (fun p => (.string p.1, p.2))
    else if x = '[' then
      if (skip rest).head? = some ']' then some (.array [], (skip rest).tail)
      else (items fuel (skip rest)).map (fun p => (.array p.1, p.2))
    else if x = '\x7b' then
      if (skip rest).head? = some '\x7d' then some (.object [], (skip rest).tail)
      else (fields fuel (skip rest)).map (fun p => (.object p.1, p.2))
    else word (x :: rest)

def items : ℕ → List Char → Option (List Json × List Char)
  | 0, _ => none
  | fuel + 1, cs =>
    (value fuel cs).bind (fun p =>
      if (skip p.2).head? = some ',' then
        (items fuel (skip (skip p.2).tail)).map (fun q => (p.1 :: q.1, q.2))
      else if (skip p.2).head? = some ']' then some ([p.1], (skip p.2).tail)
      else none)

def fields : ℕ → List Char → Option (List (List Char × Json) × List Char)
  | 0, _ => none
  | fuel + 1, cs =>
    if cs.head? = some '"' then
      (stringBody cs.tail).bind (fun key =>
        if (skip key.2).head? = some ':' then
          (value fuel (skip (skip key.2).tail)).bind (fun p =>
            if (skip p.2).head? = some ',' then
              (fields fuel (skip (skip p.2).tail)).map (fun q => ((key.1, p.1) :: q.1, q.2))
            else if (skip p.2).head? = some '\x7d' then some ([(key.1, p.1)], (skip p.2).tail)
            else none)
        else none)
    else none

end

def parse (text : List Char) : Option Json :=
  (value (text.length + 1) (skip text)).bind (fun p => if (skip p.2).isEmpty then some p.1 else none)

/-- The field with the name, the last one if there are several. -/
def get? (name : List Char) : Json → Option Json
  | object fields => (fields.reverse.find? (fun f => f.1 == name)).map Prod.snd
  | _ => none

section Strings

/-- The escapes of a writer whose texts may stand in HTML. -/
def escapeChar (c : Char) : List Char :=
  if c = '"' ∨ c = '\\' then ['\\', c]
  else if c = '\x08' then ['\\', 'b']
  else if c = '\x0c' then ['\\', 'f']
  else if c = '\n' then ['\\', 'n']
  else if c = '\r' then ['\\', 'r']
  else if c = '\t' then ['\\', 't']
  else if c.toNat < 32 ∨ c = '<' ∨ c = '>' ∨ c = '&' ∨ c = '\u2028' ∨ c = '\u2029' then
    '\\' :: 'u' :: [c.toNat / 4096 % 16, c.toNat / 256 % 16, c.toNat / 16 % 16, c.toNat % 16].map Nat.digitChar
  else [c]

theorem not_mem_escapeChar (c : Char) : '<' ∉ escapeChar c := by
  have hdigit : ∀ n, n < 16 → '<' ≠ n.digitChar := by decide
  unfold escapeChar
  split_ifs with hself _ _ _ _ _ hunicode
  · rcases hself with rfl | rfl <;> decide
  · decide
  · decide
  · decide
  · decide
  · decide
  · simp [hdigit, Nat.mod_lt]
  · intro h
    exact hunicode (Or.inr (Or.inl (List.mem_singleton.mp h).symm))

def quote (s : List Char) : List Char := '"' :: s.flatMap escapeChar ++ ['"']

theorem hexValue?_digitChar : ∀ {n : ℕ}, n < 16 → hexValue? n.digitChar = some n := by decide

theorem unicode?_digits {c : Char} (h : c.toNat < 0xd800) :
    unicode? (c.toNat / 4096 % 16).digitChar (c.toNat / 256 % 16).digitChar (c.toNat / 16 % 16).digitChar
      (c.toNat % 16).digitChar = some c := by
  have hn : c.toNat / 4096 % 16 * 4096 + c.toNat / 256 % 16 * 256 + c.toNat / 16 % 16 * 16 + c.toNat % 16 = c.toNat := by
    omega
  rw [unicode?, hexValue?_digitChar (by omega), hexValue?_digitChar (by omega), hexValue?_digitChar (by omega),
    hexValue?_digitChar (by omega)]
  simp only [Option.bind_eq_bind, Option.bind_some]
  rw [hn, if_neg (by omega), Char.ofNat_toNat]

/-- The text is read as the character. -/
def Spells (text : List Char) (c : Char) : Prop :=
  ∀ rest, stringBody (text ++ rest) = (stringBody rest).map (fun p => (c :: p.1, p.2))

theorem spells_self {c : Char} (hquote : c ≠ '"') (hslash : c ≠ '\\') (hcontrol : 32 ≤ c.toNat) : Spells [c] c := by
  intro rest
  rw [List.singleton_append, stringBody.eq_def]
  simp only [if_neg hquote, if_neg hslash, if_neg (Nat.not_lt.mpr hcontrol)]

theorem spells_escape {c y : Char} (hy : y ≠ 'u') (h : unescape? y = some c) : Spells ['\\', y] c := by
  intro rest
  rw [List.cons_append, List.cons_append, List.nil_append, stringBody.eq_def]
  simp [hy, h]

theorem spells_unicode {c : Char} (h : c.toNat < 0xd800) :
    Spells ('\\' :: 'u' :: [c.toNat / 4096 % 16, c.toNat / 256 % 16, c.toNat / 16 % 16, c.toNat % 16].map Nat.digitChar) c := by
  intro rest
  rw [List.cons_append, List.cons_append, stringBody.eq_def]
  simp [unicode?_digits h]

theorem spells_escapeChar (c : Char) : Spells (escapeChar c) c := by
  unfold escapeChar
  split_ifs with hquote hb hf hn hr ht hcode
  · rcases hquote with rfl | rfl <;> exact spells_escape (by decide) (by decide)
  · subst hb
    exact spells_escape (by decide) (by decide)
  · subst hf
    exact spells_escape (by decide) (by decide)
  · subst hn
    exact spells_escape (by decide) (by decide)
  · subst hr
    exact spells_escape (by decide) (by decide)
  · subst ht
    exact spells_escape (by decide) (by decide)
  · apply spells_unicode
    rcases hcode with h | rfl | rfl | rfl | rfl | rfl
    · omega
    all_goals decide
  · rw [not_or] at hquote
    rw [not_or] at hcode
    exact spells_self hquote.1 hquote.2 (by omega)

theorem stringBody_flatMap {f : Char → List Char} {s : List Char} (h : ∀ c ∈ s, Spells (f c) c) (rest : List Char) :
    stringBody (s.flatMap f ++ '"' :: rest) = some (s, rest) := by
  induction s with
  | nil =>
    rw [List.flatMap_nil, List.nil_append, stringBody.eq_def]
    simp
  | cons c s ih =>
    rw [List.flatMap_cons, List.append_assoc, h c List.mem_cons_self,
      ih (fun d hd => h d (List.mem_cons_of_mem c hd)), Option.map_some]

end Strings

section Values

/-- What may follow a value in an array or an object. -/
def Ends (rest : List Char) : Prop := rest.head? = some ',' ∨ rest.head? = some '\x7d' ∨ rest.head? = some ']'

/-- The text is read as the value, with the fuel or more, and begins with no
space. -/
structure Reads (n : ℕ) (text : List Char) (v : Json) : Prop where
  start : ∀ rest, skip (text ++ rest) = text ++ rest
  value : ∀ fuel, n ≤ fuel → ∀ rest, Ends rest → value fuel (text ++ rest) = some (v, rest)

theorem skip_cons {c : Char} (h : c ≠ ' ' ∧ c ≠ '\t' ∧ c ≠ '\n' ∧ c ≠ '\r') (rest : List Char) :
    skip (c :: rest) = c :: rest := by
  simp [skip, h]

theorem skip_of_ends {rest : List Char} (h : Ends rest) : skip rest = rest := by
  cases rest with
  | nil => rfl
  | cons c rest =>
    apply skip_cons
    simp only [Ends, List.head?_cons, Option.some.injEq] at h
    rcases h with rfl | rfl | rfl <;> decide

theorem reads_string {text s : List Char} (h : ∀ rest, stringBody (text ++ '"' :: rest) = some (s, rest)) :
    Reads 1 ('"' :: text ++ ['"']) (.string s) where
  start rest := skip_cons (by decide) _
  value := by
    intro fuel hfuel rest _
    obtain ⟨fuel, rfl⟩ := Nat.exists_eq_add_of_le' hfuel
    simp [value, h]

theorem reads_quote (s : List Char) : Reads 1 (quote s) (.string s) :=
  reads_string (stringBody_flatMap (fun c _ => spells_escapeChar c))

theorem digits_append {ds rest : List Char} (hne : ds ≠ []) (hds : ∀ c ∈ ds, c.isDigit = true)
    (hrest : ∀ c, rest.head? = some c → c.isDigit = false) : digits (ds ++ rest) = some (ds, rest) := by
  have hnone : rest.takeWhile Char.isDigit = [] ∧ rest.dropWhile Char.isDigit = rest := by
    cases rest with
    | nil => exact ⟨rfl, rfl⟩
    | cons c rest =>
      have hc := hrest c rfl
      simp [hc]
  have htake : (ds ++ rest).takeWhile Char.isDigit = ds := by
    rw [List.takeWhile_append_of_pos hds, hnone.1, List.append_nil]
  have hdrop : (ds ++ rest).dropWhile Char.isDigit = rest := by
    rw [List.dropWhile_append_of_pos hds, hnone.2]
  simp [digits, htake, hdrop, hne]

/-- A number above zero does not begin with a zero. -/
theorem toDigits_head {n : ℕ} (hn : 0 < n) : (Nat.toDigits 10 n).head? ≠ some '0' := by
  induction n using Nat.strongRecOn with
  | ind n ih =>
    by_cases hlt : n < 10
    · rw [Nat.toDigits_of_lt_base hlt]
      interval_cases n <;> decide
    · rw [Nat.toDigits_of_base_le (by omega) (by omega), List.head?_append_of_ne_nil _ Nat.toDigits_ne_nil]
      exact ih (n / 10) (by omega) (by omega)

theorem integer_toDigits (n : ℕ) {rest : List Char} (hrest : ∀ c, rest.head? = some c → c.isDigit = false) :
    integer (Nat.toDigits 10 n ++ rest) = some (Nat.toDigits 10 n, rest) := by
  rcases Nat.eq_zero_or_pos n with rfl | hn
  · rfl
  · have hdigits := digits_append (Nat.toDigits_ne_nil (n := n) (b := 10))
      (fun c hc => Nat.isDigit_of_mem_toDigits (by omega) (by omega) hc) hrest
    have hhead := toDigits_head hn
    unfold integer
    split
    next tail heq =>
      cases hd : Nat.toDigits 10 n with
      | nil => exact absurd hd Nat.toDigits_ne_nil
      | cons c cs =>
        rw [hd, List.cons_append] at heq
        rw [hd, List.head?_cons] at hhead
        cases heq
        exact absurd rfl hhead
    next => exact hdigits

theorem unsigned_toDigits (n : ℕ) {rest : List Char} (hrest : Ends rest) :
    unsigned (Nat.toDigits 10 n ++ rest) = some (Nat.toDigits 10 n, rest) := by
  cases rest with
  | nil => simp [Ends] at hrest
  | cons c rest =>
    simp only [Ends, List.head?_cons, Option.some.injEq] at hrest
    have hdigit : ∀ d, (c :: rest).head? = some d → d.isDigit = false := by
      intro d hd
      cases hd
      rcases hrest with rfl | rfl | rfl <;> rfl
    rw [unsigned, integer_toDigits n hdigit]
    rcases hrest with rfl | rfl | rfl <;> simp [fraction, exponent]

theorem reads_toDigits (n : ℕ) : Reads 1 (Nat.toDigits 10 n) (.number (Nat.toDigits 10 n)) := by
  have hread : ∀ {rest}, Ends rest → unsigned (Nat.toDigits 10 n ++ rest) = some (Nat.toDigits 10 n, rest) :=
    unsigned_toDigits n
  cases hd : Nat.toDigits 10 n with
  | nil => exact absurd hd Nat.toDigits_ne_nil
  | cons c cs =>
    rw [hd] at hread
    have hc : c.isDigit = true := by
      apply Nat.isDigit_of_mem_toDigits (b := 10) (n := n) (by omega) (by omega)
      rw [hd]
      exact List.mem_cons_self
    have hne : ∀ d : Char, d.isDigit = false → c ≠ d := by
      rintro d hdigit rfl
      rw [hc] at hdigit
      cases hdigit
    constructor
    · intro rest
      exact skip_cons ⟨hne _ rfl, hne _ rfl, hne _ rfl, hne _ rfl⟩ _
    · intro fuel hfuel rest hrest
      obtain ⟨fuel, rfl⟩ := Nat.exists_eq_add_of_le' hfuel
      have hnumeral : numeral (c :: (cs ++ rest)) = unsigned (c :: (cs ++ rest)) := by
        unfold numeral
        split
        next heq =>
          cases heq
          cases hc
        next => rfl
      have hword : word (c :: (cs ++ rest)) = some (.number (c :: cs), rest) := by
        have hn := hne 'n' rfl
        have ht := hne 't' rfl
        have hf := hne 'f' rfl
        rw [word, hnumeral, ← List.cons_append, hread hrest]
        simp [List.isPrefixOf, hn.symm, ht.symm, hf.symm]
      have hquote := hne '"' rfl
      have hbracket := hne '[' rfl
      have hbrace := hne '\x7b' rfl
      rw [List.cons_append, value, if_neg hquote, if_neg hbracket, if_neg hbrace, hword]

end Values

section Objects

structure Field where
  name : List Char
  text : List Char
  content : Json

/-- A name that is written as it is. -/
def Plain (name : List Char) : Prop := ∀ c ∈ name, c ≠ '"' ∧ c ≠ '\\' ∧ 32 ≤ c.toNat

instance (name : List Char) : Decidable (Plain name) :=
  List.decidableBAll (fun c => c ≠ '"' ∧ c ≠ '\\' ∧ 32 ≤ c.toNat) name

/-- The fields of an object as a writer without spaces puts them, up to the
closing brace. -/
def body : List Field → List Char
  | [] => ['\x7d']
  | [f] => '"' :: f.name ++ '"' :: ':' :: f.text ++ ['\x7d']
  | f :: rest => '"' :: f.name ++ '"' :: ':' :: f.text ++ ',' :: body rest

theorem body_two (f g : Field) :
    '\x7b' :: '"' :: f.name ++ '"' :: ':' :: f.text ++ ',' :: '"' :: g.name ++ '"' :: ':' :: g.text ++ ['\x7d'] =
      '\x7b' :: body [f, g] := by
  simp [body]

theorem stringBody_plain {name : List Char} (h : Plain name) (rest : List Char) :
    stringBody (name ++ '"' :: rest) = some (name, rest) := by
  have hspells : ∀ c ∈ name, Spells [c] c := fun c hc => spells_self (h c hc).1 (h c hc).2.1 (h c hc).2.2
  have hbody := stringBody_flatMap hspells rest
  rwa [List.flatMap_singleton' name] at hbody

theorem fields_body {fs : List Field} (hne : fs ≠ []) (h : ∀ f ∈ fs, Plain f.name ∧ Reads 1 f.text f.content)
    (fuel : ℕ) (hfuel : fs.length + 1 ≤ fuel) (rest : List Char) :
    fields fuel (body fs ++ rest) = some (fs.map (fun f => (f.name, f.content)), rest) := by
  induction fs generalizing fuel with
  | nil => exact absurd rfl hne
  | cons f fs ih =>
    obtain ⟨fuel, rfl⟩ := Nat.exists_eq_add_of_le' (Nat.one_le_of_lt hfuel)
    rw [List.length_cons] at hfuel
    obtain ⟨hname, hread⟩ := h f List.mem_cons_self
    have hcolon : ∀ tail, skip (':' :: tail) = ':' :: tail := skip_cons (by decide)
    cases fs with
    | nil =>
      have hend : Ends ('\x7d' :: rest) := Or.inr (Or.inl rfl)
      have hvalue := hread.value fuel (by omega) _ hend
      simp [body, fields, stringBody_plain hname, hcolon, hread.start, hvalue, skip_of_ends hend]
    | cons g fs =>
      have hend : Ends (',' :: (body (g :: fs) ++ rest)) := Or.inl rfl
      have hvalue := hread.value fuel (by omega) _ hend
      have hstart : skip (body (g :: fs) ++ rest) = body (g :: fs) ++ rest := by
        cases fs <;> exact skip_cons (by decide) _
      have hrest := ih (List.cons_ne_nil g fs) (fun f' hf' => h f' (List.mem_cons_of_mem f hf')) fuel (by omega)
      simp [body, fields, stringBody_plain hname, hcolon, hread.start, hvalue, skip_of_ends hend, hstart, hrest]

theorem length_body (fs : List Field) : fs.length + 1 ≤ (body fs).length := by
  induction fs using body.induct with
  | case1 => exact le_refl _
  | case2 f =>
    simp only [body, List.length_append, List.length_cons, List.length_nil]
    omega
  | case3 f rest hne ih =>
    rw [body.eq_3 f rest hne]
    simp only [List.length_append, List.length_cons]
    omega

theorem parse_object {fs : List Field} (hne : fs ≠ []) (h : ∀ f ∈ fs, Plain f.name ∧ Reads 1 f.text f.content) :
    parse ('\x7b' :: body fs) = some (.object (fs.map (fun f => (f.name, f.content)))) := by
  have hbody := fields_body hne h ((body fs).length + 1) ((length_body fs).trans (Nat.le_succ _)) []
  rw [List.append_nil] at hbody
  cases fs with
  | nil => exact absurd rfl hne
  | cons f fs =>
    have hhead : (body (f :: fs)).head? = some '"' := by
      cases fs <;> rfl
    have hstart : skip (body (f :: fs)) = body (f :: fs) := by
      cases fs <;> exact skip_cons (by decide) _
    rw [parse, skip_cons (by decide), List.length_cons, value]
    have hnil : skip [] = [] := rfl
    simp [hstart, hhead, hbody, hnil]

end Objects

end Json
