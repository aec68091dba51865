import Blnkk.Lib.Words
import Blnkk.SearchIndex
import Mathlib

/-!
The words of a place that `User#populate_keywords` leaves in the keywords of a
user.
-/

namespace Blnkk

open Words

namespace Text

def capitalize : List Char → List Char
  | [] => []
  | c :: s => c.toUpper :: s

/-- `String#humanize`, with no rules of inflection and no acronyms. -/
def humanize (s : String) : String :=
  let s := s.toList.dropWhile (· == '_')
  let s := if "_id".toList <:+ s then s.rdrop 3 else s
  let s := s.map (fun c => if c = '_' then ' ' else c)
  String.ofList (capitalize (s.map Char.toLower))

/-- No two neighbours are the same letter in upper or lower case. -/
def NoDoubles (s : List Char) : Prop := s.IsChain (fun c d => isSpace c = true ∨ c.toLower ≠ d.toLower)

instance (s : List Char) : Decidable (NoDoubles s) := inferInstanceAs (Decidable (List.IsChain _ s))

/-- The rest behind a letter that is capitalised. -/
def afterCapital : List Char → List Char
  | [] => []
  | c :: s => if c.isAlpha then s else c :: s

theorem not_isSpace_of_isAlpha {c : Char} (h : c.isAlpha = true) : isSpace c = false := by
  have hspaces : [' ', '\t', '\n', '\r', '\x0b', '\x0c'].all (fun c => !c.isAlpha) = true := by decide
  rw [Bool.eq_false_iff]
  intro hc
  have hnot := List.all_eq_true.mp hspaces c (of_decide_eq_true hc)
  rw [h] at hnot
  cases hnot

theorem case_of_not_isAlpha {c : Char} (h : ¬ c.isAlpha = true) : c.toLower = c ∧ c.toUpper = c := by
  rw [Char.isAlpha, Bool.or_eq_true, not_or] at h
  exact ⟨Char.toLower_eq_of_not_isUpper h.1, Char.toUpper_eq_of_not_isLower h.2⟩

theorem isSpace_toLower (c : Char) : isSpace c.toLower = isSpace c := by
  by_cases h : c.isAlpha = true
  · rw [not_isSpace_of_isAlpha h, not_isSpace_of_isAlpha (by rw [Char.isAlpha_toLower_eq_isAlpha, h])]
  · rw [(case_of_not_isAlpha h).1]

theorem humanize_of_not_mem {s : String} (h : '_' ∉ s.toList) :
    humanize s = String.ofList (capitalize (s.toList.map Char.toLower)) := by
  have hdrop : s.toList.dropWhile (· == '_') = s.toList := by
    refine List.dropWhile_eq_self_iff.mpr (fun hpos he => h ?_)
    rw [← beq_iff_eq.mp he]
    exact List.getElem_mem hpos
  have hid : ¬ "_id".toList <:+ s.toList := fun hs => h (hs.subset List.mem_cons_self)
  have hmap : s.toList.map (fun c => if c = '_' then ' ' else c) = s.toList := by
    conv_rhs => rw [← List.map_id s.toList]
    refine List.map_congr_left (fun c hc => if_neg ?_)
    rintro rfl
    exact h hc
  simp only [humanize, hdrop, if_neg hid, hmap]

theorem map_toLower_capitalize (s : List Char) : (capitalize s).map Char.toLower = s.map Char.toLower := by
  cases s with
  | nil => rfl
  | cons c s => rw [capitalize, List.map_cons, List.map_cons, Char.toLower_toUpper_eq_toLower]

/-- A letter and its capital differ, so only the rest of the text counts. -/
theorem undoubled_capitalize (s : List Char) :
    Undoubled isSpace (capitalize (s.map Char.toLower)) ↔ NoDoubles (afterCapital s) := by
  have hmap (s : List Char) : Undoubled isSpace (s.map Char.toLower) ↔ NoDoubles s := by
    rw [Undoubled, List.isChain_map, NoDoubles]
    simp only [isSpace_toLower]
  cases s with
  | nil => exact hmap []
  | cons c s =>
    by_cases hc : c.isAlpha = true
    · rw [afterCapital, if_pos hc, ← hmap, List.map_cons, capitalize, Undoubled, List.isChain_cons]
      refine and_iff_right (fun d hd => Or.inr (fun he => ?_))
      obtain ⟨e, -, rfl⟩ := List.mem_map.mp (List.mem_of_mem_head? hd)
      have hupper := Char.isUpper_toUpper_eq_isAlpha c.toLower
      rw [he, Char.isUpper_toLower_eq_false, Char.isAlpha_toLower_eq_isAlpha, hc] at hupper
      cases hupper
    · obtain ⟨hlower, hupper⟩ := case_of_not_isAlpha hc
      rw [afterCapital, if_neg hc, ← hmap, List.map_cons, capitalize, hlower, hupper]

theorem noDoubles_append (s t : List Char) : NoDoubles (s ++ ' ' :: t) ↔ NoDoubles s ∧ NoDoubles t := by
  have hblank : NoDoubles (' ' :: t) ↔ NoDoubles t := by
    rw [NoDoubles, List.isChain_cons]
    exact and_iff_right (fun _ _ => Or.inl rfl)
  rw [← hblank, NoDoubles, List.isChain_append]
  refine and_congr_right (fun _ => and_iff_left ?_)
  intro c _ d hd
  cases hd
  cases hc : isSpace c with
  | true => exact Or.inl rfl
  | false =>
    refine Or.inr (fun he => ?_)
    rw [← isSpace_toLower, he] at hc
    cases hc

theorem afterCapital_append (s t : List Char) : afterCapital (s ++ ' ' :: t) = afterCapital s ++ ' ' :: t := by
  cases s with
  | nil => rfl
  | cons c s =>
    simp only [List.cons_append, afterCapital]
    split_ifs <;> rfl

end Text

namespace Location

variable (location : Location)

def parts : List String := [location.city.getD "", location.region.getD "", location.country.getD ""]

def words : List (List Char) := location.parts.flatMap (fun part => Words.words Text.isSpace part.toList)

/-- Without the one character that `humanize` replaces. -/
def NoUnderscore : Prop := ∀ part ∈ location.parts, '_' ∉ part.toList

instance : Decidable location.NoUnderscore := inferInstanceAs (Decidable (∀ part ∈ location.parts, '_' ∉ part.toList))

/-- Only the two letters with which the city begins may be the same. -/
def KeepsLetters : Prop :=
  Text.NoDoubles (Text.afterCapital (location.city.getD "").toList) ∧
    Text.NoDoubles (location.region.getD "").toList ∧ Text.NoDoubles (location.country.getD "").toList

instance : Decidable location.KeepsLetters := inferInstanceAs (Decidable (_ ∧ _))

/-- The text that is humanised. -/
def joined : List Char :=
  (location.city.getD "").toList ++ ' ' ::
    ((location.region.getD "").toList ++ ' ' :: ((location.country.getD "").toList ++ [' ']))

theorem words_joined : Words.words Text.isSpace location.joined = location.words := by
  rw [joined, words_append_sep rfl, words_append_sep rfl, words_append_sep rfl, words_nil]
  simp only [words, parts, List.flatMap_cons, List.flatMap_nil]

theorem not_mem_joined {location : Location} (h : location.NoUnderscore) : '_' ∉ location.joined := by
  simp only [NoUnderscore, parts, List.forall_mem_cons] at h
  simp [joined, h]

theorem keepsLetters_iff : Text.NoDoubles (Text.afterCapital location.joined) ↔ location.KeepsLetters := by
  have hnil : Text.NoDoubles [] := List.isChain_nil
  rw [joined, Text.afterCapital_append, Text.noDoubles_append, Text.noDoubles_append, Text.noDoubles_append,
    KeepsLetters, and_iff_left hnil]

end Location

theorem keywords_eq {location : Location} (h : location.NoUnderscore) (p : Profile) :
    (p.populateKeywords Text.humanize location).asIndexedJson.keywords =
      some (String.ofList ((Text.capitalize (location.joined.map Char.toLower)).destutter (· ≠ ·))) := by
  have htext : (location.city.getD "" ++ " " ++ location.region.getD "" ++ " " ++ location.country.getD "" ++
      " ").toList = location.joined := by
    simp [Location.joined, String.toList_append]
  simp only [Profile.populateKeywords, Profile.asIndexedJson]
  rw [Text.humanize_of_not_mem (by rw [htext]; exact Location.not_mem_joined h), htext, Text.squeeze,
    String.toList_ofList]

/-- In any reading that ignores the case of letters, the stored keywords have the
words of the place exactly if no letter of it is doubled but the first. -/
theorem keywords_hold_words_iff (fold : Char → Char) (hfold : ∀ c : Char, fold c.toLower = fold c)
    (location : Location) (h : location.NoUnderscore) (p : Profile) :
    (∃ keywords, (p.populateKeywords Text.humanize location).asIndexedJson.keywords = some keywords ∧
      (Words.words Text.isSpace keywords.toList).map (List.map fold) = location.words.map (List.map fold)) ↔
      location.KeepsLetters := by
  have hcase (s : List Char) : (Words.words Text.isSpace s).map (List.map fold) =
      (Words.words Text.isSpace (s.map Char.toLower)).map (List.map fold) := by
    rw [words_map Text.isSpace_toLower, List.map_map]
    congr 1
    funext word
    rw [Function.comp_apply, List.map_map]
    exact List.map_congr_left (fun c _ => (hfold c).symm)
  have hhuman : location.words.map (List.map fold) =
      (Words.words Text.isSpace (Text.capitalize (location.joined.map Char.toLower))).map (List.map fold) := by
    rw [← Location.words_joined, hcase location.joined, hcase (location.joined.map Char.toLower),
      ← Text.map_toLower_capitalize]
    exact (hcase (Text.capitalize (location.joined.map Char.toLower))).symm
  rw [keywords_eq h]
  simp only [Option.some.injEq, exists_eq_left', String.toList_ofList]
  rw [hhuman, words_destutter_iff, Text.undoubled_capitalize, Location.keepsLetters_iff]

def aachen : Location := ⟨some "Aachen", some "Nordrhein Westfalen", some "Germany"⟩

theorem aachen_keeps_words :
    ∃ keywords, (Profile.populateKeywords Text.humanize aachen { id := 1 }).asIndexedJson.keywords = some keywords ∧
      (Words.words Text.isSpace keywords.toList).map (List.map Char.toLower) = aachen.words.map (List.map Char.toLower) :=
  (keywords_hold_words_iff Char.toLower Char.toLower_toLower_eq_toLower aachen (by decide) _).mpr (by decide)

def athens : Location := ⟨some "Athens", none, some "Greece"⟩

theorem greece_loses_letter :
    (Profile.populateKeywords Text.humanize athens { id := 1 }).keywords = some "Athens grece " ∧
      (Words.words Text.isSpace "Athens grece ".toList).map (List.map Char.toLower) ≠
        athens.words.map (List.map Char.toLower) := by
  decide

end Blnkk
