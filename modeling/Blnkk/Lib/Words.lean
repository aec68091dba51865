import Blnkk.Lib.Scan
import Mathlib.Data.List.Destutter

/-!
The words of a text between separators, and what dropping repeated characters
does to them.
-/

namespace Words

variable {α β : Type} (sep : α → Bool)

def words (s : List α) : List (List α) := (Scan.fields sep s).filter (fun w => decide (w ≠ []))

section Words

variable {sep} {a : α} {s t : List α}

theorem fields_cons_sep (ha : sep a = true) : Scan.fields sep (a :: s) = [] :: Scan.fields sep s := by
  simp only [Scan.fields, Scan.cut, if_pos ha, List.map_cons]

theorem fields_cons (ha : sep a = false) :
    Scan.fields sep (a :: s) = (a :: (Scan.cut sep s).1) :: (Scan.cut sep s).2.map Prod.snd := by
  simp only [Scan.fields, Scan.cut, ha, Bool.false_eq_true, if_false]

theorem words_nil : words sep [] = [] := rfl

theorem words_cons_sep (ha : sep a = true) : words sep (a :: s) = words sep s := by
  rw [words, fields_cons_sep ha]
  rfl

theorem fields_append_sep (ha : sep a = true) :
    Scan.fields sep (s ++ a :: t) = Scan.fields sep s ++ Scan.fields sep t := by
  induction s with
  | nil => exact fields_cons_sep ha
  | cons b s ih =>
    simp only [Scan.fields, List.cons_append, List.cons.injEq] at ih
    cases hb : sep b with
    | true =>
      rw [List.cons_append, fields_cons_sep hb, fields_cons_sep hb]
      simp only [Scan.fields, List.cons_append, ih]
    | false =>
      rw [List.cons_append, fields_cons hb, fields_cons hb, ih.1, ih.2]
      rfl

theorem words_append_sep (ha : sep a = true) : words sep (s ++ a :: t) = words sep s ++ words sep t := by
  rw [words, fields_append_sep ha, List.filter_append]
  rfl

theorem flatten_words (s : List α) : (words sep s).flatten = s.filter (fun a => !sep a) := by
  rw [words, List.flatten_filter_ne_nil]
  induction s with
  | nil => rfl
  | cons a s ih =>
    cases ha : sep a with
    | true =>
      rw [fields_cons_sep ha, List.flatten_cons, List.nil_append, ih, List.filter_cons_of_neg (by simp [ha])]
    | false =>
      rw [fields_cons ha, List.filter_cons_of_pos (by simp [ha]), ← ih]
      rfl

theorem words_map {f : α → β} {sep' : β → Bool} (hf : ∀ a, sep' (f a) = sep a) (s : List α) :
    words sep' (s.map f) = (words sep s).map (List.map f) := by
  have hfields : Scan.fields sep' (s.map f) = (Scan.fields sep s).map (List.map f) := by
    induction s with
    | nil => rfl
    | cons a s ih =>
      simp only [Scan.fields, List.map_cons, List.cons.injEq] at ih
      cases ha : sep a with
      | true =>
        rw [List.map_cons, fields_cons_sep ((hf a).trans ha), fields_cons_sep ha]
        simp only [Scan.fields, List.map_cons, ih, List.map_nil]
      | false =>
        rw [List.map_cons, fields_cons ((hf a).trans ha), fields_cons ha, ih.1, ih.2]
        rfl
  rw [words, words, hfields, List.filter_map]
  congr 1
  exact List.filter_congr (fun w _ => by simp)

end Words

section Squeeze

/-- Only separators are repeated. -/
def Undoubled (s : List α) : Prop := s.IsChain (fun a b => sep a = true ∨ a ≠ b)

/-- The same words, with the same one at the beginning. -/
def Agree (s t : List α) : Prop := (Scan.cut sep s).1 = (Scan.cut sep t).1 ∧ words sep s = words sep t

variable {sep}

theorem Agree.cons {s t : List α} (h : Agree sep s t) (a : α) : Agree sep (a :: s) (a :: t) := by
  obtain ⟨hfirst, hwords⟩ := h
  cases ha : sep a with
  | true =>
    refine ⟨by simp only [Scan.cut, if_pos ha], ?_⟩
    rw [words_cons_sep ha, words_cons_sep ha, hwords]
  | false =>
    refine ⟨by simp only [Scan.cut, ha, Bool.false_eq_true, if_false, hfirst], ?_⟩
    rw [words, words, Scan.fields, Scan.fields, hfirst] at hwords
    rw [words, words, fields_cons ha, fields_cons ha, hfirst]
    by_cases hnil : (Scan.cut sep t).1 = [] <;> simpa [hnil] using hwords

theorem agree_double {a : α} (ha : sep a = true) (s : List α) : Agree sep (a :: s) (a :: a :: s) :=
  ⟨by simp only [Scan.cut, if_pos ha], by rw [words_cons_sep ha, words_cons_sep ha, words_cons_sep ha]⟩

variable [DecidableEq α]

theorem agree_destutter' {a : α} {s : List α} (h : Undoubled sep (a :: s)) :
    Agree sep (s.destutter' (· ≠ ·) a) (a :: s) := by
  induction s generalizing a with
  | nil => exact ⟨rfl, rfl⟩
  | cons b s ih =>
    obtain ⟨hab, hs⟩ := List.isChain_cons_cons.mp h
    by_cases he : a = b
    · subst he
      rw [List.destutter'_cons_neg _ (fun hne => hne rfl)]
      obtain ⟨hfirst, hwords⟩ := ih hs
      obtain ⟨hfirst', hwords'⟩ := agree_double (hab.resolve_right (fun hne => hne rfl)) s
      exact ⟨hfirst.trans hfirst', hwords.trans hwords'⟩
    · rw [List.destutter'_cons_pos _ he]
      exact (ih hs).cons a

theorem words_destutter {s : List α} (h : Undoubled sep s) : words sep (s.destutter (· ≠ ·)) = words sep s := by
  cases s with
  | nil => rfl
  | cons a s => exact (agree_destutter' h).2

theorem undoubled_of_countP {a : α} {s : List α}
    (h : (s.destutter' (· ≠ ·) a).countP (fun a => !sep a) = (a :: s).countP (fun a => !sep a)) :
    Undoubled sep (a :: s) := by
  induction s generalizing a with
  | nil => exact List.isChain_singleton a
  | cons b s ih =>
    by_cases he : a = b
    · subst he
      have hle := (List.destutter'_sublist (· ≠ ·) (l := s) a).countP_le (p := fun a => !sep a)
      rw [List.destutter'_cons_neg _ (fun hne => hne rfl), List.countP_cons] at h
      have hsep : sep a = true := by
        by_contra hn
        rw [Bool.not_eq_true] at hn
        rw [if_pos (by rw [hn]; rfl)] at h
        omega
      refine List.isChain_cons_cons.mpr ⟨Or.inl hsep, ih ?_⟩
      omega
    · rw [List.destutter'_cons_pos _ he, List.countP_cons, List.countP_cons] at h
      exact List.isChain_cons_cons.mpr ⟨Or.inr he, ih (by omega)⟩

/-- Dropping repeated characters keeps the words, even up to a map of characters,
exactly if only separators are repeated. -/
theorem words_destutter_iff (f : α → β) (s : List α) :
    (words sep (s.destutter (· ≠ ·))).map (List.map f) = (words sep s).map (List.map f) ↔ Undoubled sep s := by
  constructor
  · intro h
    have hlength := congrArg (fun ws => ws.flatten.length) h
    simp only [← List.map_flatten, List.length_map, flatten_words, ← List.countP_eq_length_filter] at hlength
    cases s with
    | nil => exact List.isChain_nil
    | cons a s => exact undoubled_of_countP hlength
  · intro h
    rw [words_destutter h]

end Squeeze

end Words
