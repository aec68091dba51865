import Blnkk.Text
import Mathlib

/-!
How trimming a text bears on the pieces it is split into.
-/

namespace Blnkk

namespace Text

def lstrip (cs : List Char) : List Char := cs.dropWhile isSpace

def rstrip (cs : List Char) : List Char := cs.rdropWhile (fun c => isSpace c || c == '\x00')

theorem strip_eq (s : String) : strip s = String.ofList (rstrip (lstrip s.toList)) := rfl

def modifyLast (f : List Char → List Char) : List (List Char) → List (List Char)
  | [] => []
  | [piece] => [f piece]
  | piece :: pieces => piece :: modifyLast f pieces

/-- White space goes at the beginning of the first piece and at the end of the last. -/
def trimEnds (pieces : List (List Char)) : List (List Char) := modifyLast rstrip (pieces.modifyHead lstrip)

section Split

variable {sep : Char} {p : Char → Bool}

theorem modifyLast_cons (f : List Char → List Char) (piece : List Char) {pieces : List (List Char)}
    (h : pieces ≠ []) : modifyLast f (piece :: pieces) = piece :: modifyLast f pieces := by
  cases pieces with
  | nil => exact absurd rfl h
  | cons _ _ => rfl

theorem splitChars_singleton {cs piece : List Char} (h : splitChars sep cs = [piece]) : sep ∉ cs ∧ piece = cs := by
  induction cs generalizing piece with
  | nil =>
    cases h
    exact ⟨List.not_mem_nil, rfl⟩
  | cons c cs ih =>
    simp only [splitChars] at h
    split_ifs at h with hc
    · exact absurd (List.cons.inj h).2 (splitChars_ne_nil cs)
    · cases hs : splitChars sep cs with
      | nil => exact absurd hs (splitChars_ne_nil cs)
      | cons word words =>
        rw [hs] at h
        obtain ⟨rfl, rfl⟩ := List.cons.inj h
        obtain ⟨hmem, rfl⟩ := ih hs
        exact ⟨fun hm => (List.mem_cons.mp hm).elim (fun he => hc he.symm) hmem, rfl⟩

theorem splitChars_dropWhile (hsep : p sep = false) (cs : List Char) :
    splitChars sep (cs.dropWhile p) = (splitChars sep cs).modifyHead (List.dropWhile p) := by
  induction cs with
  | nil => rfl
  | cons c cs ih =>
    obtain ⟨word, words, hs⟩ := List.exists_cons_of_ne_nil (l := splitChars sep cs) (splitChars_ne_nil cs)
    by_cases hc : c = sep
    · subst hc
      rw [List.dropWhile_cons_of_neg (by rw [hsep]; exact Bool.false_ne_true)]
      simp [splitChars]
    · by_cases hp : p c = true
      · rw [List.dropWhile_cons_of_pos hp, ih]
        simp [splitChars, hc, hs, hp]
      · rw [List.dropWhile_cons_of_neg hp]
        simp [splitChars, hc, hs, hp]

theorem rdropWhile_cons (c : Char) (cs : List Char) :
    (c :: cs).rdropWhile p = if cs.rdropWhile p = [] then [c].rdropWhile p else c :: cs.rdropWhile p := by
  rw [List.rdropWhile, List.reverse_cons, List.dropWhile_append]
  by_cases h : cs.reverse.dropWhile p = []
  · simp [List.rdropWhile, h]
  · simp [List.rdropWhile, h]

theorem splitChars_rdropWhile (hsep : p sep = false) (cs : List Char) :
    splitChars sep (cs.rdropWhile p) = modifyLast (List.rdropWhile p) (splitChars sep cs) := by
  induction cs with
  | nil => rfl
  | cons c cs ih =>
    obtain ⟨word, words, hs⟩ := List.exists_cons_of_ne_nil (l := splitChars sep cs) (splitChars_ne_nil cs)
    by_cases hc : c = sep
    · subst hc
      have hdrop : (c :: cs).rdropWhile p = c :: cs.rdropWhile p := by
        rw [rdropWhile_cons]
        by_cases he : cs.rdropWhile p = []
        · rw [if_pos he, he, List.rdropWhile_singleton, hsep]
          rfl
        · rw [if_neg he]
      rw [hdrop]
      simp only [splitChars, if_true]
      rw [ih, modifyLast_cons _ _ (splitChars_ne_nil cs)]
    · cases words with
      | nil =>
        -- no separator, so the text is its only piece
        obtain ⟨hmem, rfl⟩ := splitChars_singleton hs
        have hall : sep ∉ c :: word := fun hm => (List.mem_cons.mp hm).elim (fun he => hc he.symm) hmem
        have hall' : sep ∉ (c :: word).rdropWhile p := fun hm => hall ((List.rdropWhile_prefix p _).subset hm)
        rw [splitChars_of_not_mem hall, splitChars_of_not_mem hall']
        rfl
      | cons next rest =>
        have hne : cs.rdropWhile p ≠ [] := by
          intro he
          rw [he, hs, modifyLast_cons _ _ (List.cons_ne_nil _ _)] at ih
          have hnil := (List.cons.inj ih).2
          cases rest <;> cases hnil
        rw [rdropWhile_cons, if_neg hne]
        simp only [splitChars, if_neg hc, ih, hs]
        rfl

theorem splitChars_strip (s : String) :
    splitChars ',' (strip s).toList = trimEnds (splitChars ',' s.toList) := by
  rw [strip_eq, String.toList_ofList, rstrip, splitChars_rdropWhile (by decide), lstrip, splitChars_dropWhile (by decide)]
  rfl

/-- The pieces that `split` leaves out at the end are empty. -/
theorem split_rest (sep : Char) (s : String) :
    ∃ n, (splitChars sep s.toList).map String.ofList = split sep s ++ List.replicate n "" := by
  have hrest : ((splitChars sep s.toList).rtakeWhile List.isEmpty).map String.ofList =
      List.replicate ((splitChars sep s.toList).rtakeWhile List.isEmpty).length "" := by
    refine List.eq_replicate_iff.mpr ⟨List.length_map _, fun word hword => ?_⟩
    obtain ⟨cs, hcs, rfl⟩ := List.mem_map.mp hword
    rw [List.isEmpty_iff.mp (List.mem_rtakeWhile_imp hcs)]
  refine ⟨((splitChars sep s.toList).rtakeWhile List.isEmpty).length, ?_⟩
  rw [← hrest]
  conv_lhs => rw [← List.rdropWhile_append_rtakeWhile (p := List.isEmpty) (l := splitChars sep s.toList)]
  rw [List.map_append]
  rfl

end Split

/-- No letter is upper case. -/
def Lower (s : String) : Prop := ∀ c ∈ s.toList, c.isUpper = false

theorem lower_downcase (s : String) : Lower (downcase s) := by
  intro c hc
  rw [downcase, String.toList_ofList] at hc
  obtain ⟨a, -, rfl⟩ := List.mem_map.mp hc
  exact Char.isUpper_toLower_eq_false a

theorem mem_of_mem_splitChars {sep c : Char} {cs piece : List Char} (hpiece : piece ∈ splitChars sep cs)
    (hc : c ∈ piece) : c ∈ cs := by
  induction cs generalizing piece with
  | nil =>
    rw [List.mem_singleton.mp hpiece] at hc
    exact hc
  | cons a cs ih =>
    obtain ⟨word, words, hs⟩ := List.exists_cons_of_ne_nil (l := splitChars sep cs) (splitChars_ne_nil cs)
    simp only [splitChars, hs] at hpiece ih
    split_ifs at hpiece
    · rcases List.mem_cons.mp hpiece with rfl | hpiece
      · cases hc
      · exact List.mem_cons_of_mem _ (ih hpiece hc)
    · rcases List.mem_cons.mp hpiece with rfl | hpiece
      · exact (List.mem_cons.mp hc).elim (fun he => he ▸ List.mem_cons_self)
          (fun hc => List.mem_cons_of_mem _ (ih List.mem_cons_self hc))
      · exact List.mem_cons_of_mem _ (ih (List.mem_cons_of_mem _ hpiece) hc)

theorem lower_strip {s : String} (h : Lower s) : Lower (strip s) := by
  intro c hc
  rw [strip_eq, String.toList_ofList] at hc
  exact h c ((List.dropWhile_suffix _).subset ((List.rdropWhile_prefix _ _).subset hc))

theorem lower_of_mem_splitChars {sep : Char} {s : String} (h : Lower s) {piece : List Char}
    (hpiece : piece ∈ splitChars sep s.toList) : Lower (String.ofList piece) := by
  intro c hc
  rw [String.toList_ofList] at hc
  exact h c (mem_of_mem_splitChars hpiece hc)

theorem lower_of_mem_split {sep : Char} {s word : String} (h : Lower s) (hword : word ∈ split sep s) : Lower word := by
  obtain ⟨n, hn⟩ := split_rest sep s
  have hmem : word ∈ (splitChars sep s.toList).map String.ofList := by
    rw [hn]
    exact List.mem_append_left _ hword
  obtain ⟨piece, hpiece, rfl⟩ := List.mem_map.mp hmem
  exact lower_of_mem_splitChars h hpiece

end Text

end Blnkk
