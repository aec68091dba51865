import Blnkk.Lib.Table

/-!
Lookup through a column whose values are compared by a relation of their own,
as the collation of a database does, and the unique index on such a column.
-/

namespace Relational

namespace Table

variable {α β κ : Type} {key : α → κ} {col : α → β} {same : β → β → Bool}

def findBy (same : β → β → Bool) (col : α → β) (t : Table key) (b : β) : Option α :=
  t.rows.find? (fun a => same (col a) b)

/-- The unique index on the column. -/
def Indexed (same : β → β → Bool) (col : α → β) (t : Table key) : Prop :=
  ∀ a ∈ t.rows, ∀ b ∈ t.rows, same (col a) (col b) = true → a = b

theorem findBy_some_iff (hsame : Equivalence (fun b c => same b c = true)) {t : Table key} (ht : t.Indexed same col)
    {a : α} {b : β} : t.findBy same col b = some a ↔ a ∈ t.rows ∧ same (col a) b = true := by
  constructor
  · intro h
    exact ⟨List.mem_of_find?_eq_some h, List.find?_some (p := fun a => same (col a) b) h⟩
  · rintro ⟨ha, hb⟩
    cases hf : t.findBy same col b with
    | none => exact absurd hb (List.find?_eq_none.mp hf a ha)
    | some c =>
      have hc : same (col c) b = true := List.find?_some (p := fun a => same (col a) b) hf
      rw [ht c (List.mem_of_find?_eq_some hf) a ha (hsame.trans hc (hsame.symm hb))]

theorem findBy_congr (hsame : Equivalence (fun b c => same b c = true)) (t : Table key) {b c : β}
    (h : same b c = true) : t.findBy same col b = t.findBy same col c := by
  have he : (fun a => same (col a) b) = fun a => same (col a) c := by
    funext a
    exact Bool.eq_iff_iff.mpr ⟨fun hb => hsame.trans hb h, fun hc => hsame.trans hc (hsame.symm h)⟩
  rw [findBy, he, findBy]

variable [DecidableEq κ]

theorem mem_iff_get? {t : Table key} {a : α} : a ∈ t.rows ↔ t.get? (key a) = some a :=
  ⟨get?_of_mem, get?_mem⟩

def put (t : Table key) (a : α) : Table key :=
  (t.ensure a).update (key a) (fun b => if key b = key a then a else b) (by
    intro b
    split_ifs with h
    · exact h.symm
    · rfl)

theorem get?_put (t : Table key) (a : α) (k : κ) : (t.put a).get? k = if k = key a then some a else t.get? k := by
  have hself : ((t.ensure a).get? (key a)).isSome = true := by
    change (t.ensure a).has (key a) = true
    rw [has_ensure]
    simp
  rw [put, get?_update]
  by_cases hk : k = key a
  · subst hk
    obtain ⟨b, hb⟩ := Option.isSome_iff_exists.mp hself
    rw [if_pos rfl, if_pos rfl, hb, Option.map_some, if_pos (get?_key hb)]
  · rw [if_neg hk, if_neg hk, get?_ensure, if_neg (Ne.symm hk)]

theorem mem_put {t : Table key} {a b : α} : b ∈ (t.put a).rows ↔ b = a ∨ b ∈ t.rows ∧ key b ≠ key a := by
  rw [mem_iff_get?, get?_put]
  by_cases hk : key b = key a
  · rw [if_pos hk, Option.some.injEq, eq_comm]
    exact ⟨Or.inl, fun h => h.resolve_right (fun h' => h'.2 hk)⟩
  · rw [if_neg hk, mem_iff_get?]
    exact ⟨fun h => Or.inr ⟨h, hk⟩, fun h => (h.resolve_left (fun h' => hk (congrArg key h'))).1⟩

section Equivalence

variable (hsame : Equivalence (fun b c => same b c = true)) {t : Table key}

include hsame

theorem Indexed.put (ht : t.Indexed same col) {a : α}
    (hother : ∀ b ∈ t.rows, same (col b) (col a) = true → key b = key a) : (t.put a).Indexed same col := by
  intro b hb c hc h
  rcases mem_put.mp hb with rfl | ⟨hb', hbk⟩
  · rcases mem_put.mp hc with rfl | ⟨hc', hck⟩
    · rfl
    · exact absurd (hother c hc' (hsame.symm h)) hck
  · rcases mem_put.mp hc with rfl | ⟨hc', -⟩
    · exact absurd (hother b hb' h) hbk
    · exact ht b hb' c hc' h

theorem findBy_put (ht : t.Indexed same col) {a : α}
    (hother : ∀ b ∈ t.rows, same (col b) (col a) = true ↔ key b = key a) (b : β) :
    (t.put a).findBy same col b = if same (col a) b then some a else t.findBy same col b := by
  have hput : (t.put a).Indexed same col := ht.put hsame (fun b hb => (hother b hb).mp)
  ext c
  rw [findBy_some_iff hsame hput, mem_put]
  by_cases ha : same (col a) b = true
  · rw [if_pos ha, Option.some.injEq]
    constructor
    · rintro ⟨rfl | ⟨hc, hk⟩, hb⟩
      · rfl
      · exact absurd ((hother c hc).mp (hsame.trans hb (hsame.symm ha))) hk
    · rintro rfl
      exact ⟨Or.inl rfl, ha⟩
  · rw [if_neg ha, findBy_some_iff hsame ht]
    constructor
    · rintro ⟨rfl | ⟨hc, -⟩, hb⟩
      · exact absurd hb ha
      · exact ⟨hc, hb⟩
    · rintro ⟨hc, hb⟩
      refine ⟨Or.inr ⟨hc, fun hk => ha ?_⟩, hb⟩
      exact hsame.trans (hsame.symm ((hother c hc).mpr hk)) hb

end Equivalence

end Table

end Relational
