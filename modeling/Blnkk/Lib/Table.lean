import Mathlib.Algebra.BigOperators.Group.List.Basic
import Mathlib.Data.List.Nodup

/-!
A table is a list of rows in insertion order under one unique index. The index
is a field of the structure, so a row that violates it cannot be stored, and
the deltas of sums over the rows follow from it.
-/

namespace Relational

@[ext]
structure Table {κ α : Type} (key : α → κ) where
  rows : List α
  unique : (rows.map key).Nodup

namespace Table

variable {κ α : Type} {key : α → κ}

def empty : Table key := ⟨[], List.nodup_nil⟩

def updateWhere (t : Table key) (p : α → Bool) (f : α → α)
    (hf : ∀ a, key (f a) = key a := by intro _; rfl) : Table key :=
  ⟨t.rows.map (fun a => if p a then f a else a), by
    have he : key ∘ (fun a => if p a then f a else a) = key := by
      funext a
      by_cases hp : p a <;> simp [hp, hf]
    rw [List.map_map, he]
    exact t.unique⟩

theorem mem_updateWhere {t : Table key} {p : α → Bool} {f : α → α} {hf : ∀ a, key (f a) = key a} {b : α} :
    b ∈ (t.updateWhere p f hf).rows ↔ ∃ a ∈ t.rows, (if p a then f a else a) = b := by
  simp [updateWhere]

theorem map_updateWhere {β : Type} (t : Table key) (p : α → Bool) (f : α → α) (hf : ∀ a, key (f a) = key a)
    (g : α → β) (hg : ∀ a, g (f a) = g a) : (t.updateWhere p f hf).rows.map g = t.rows.map g := by
  simp only [updateWhere, List.map_map]
  apply List.map_congr_left
  intro a _
  by_cases hp : p a <;> simp [hp, hg]

theorem updateWhere_id (t : Table key) (p : α → Bool) (f : α → α) (hf : ∀ a, key (f a) = key a)
    (hi : ∀ a, f a = a) : t.updateWhere p f hf = t := by
  obtain ⟨rows, hu⟩ := t
  simp [updateWhere, hi]

def restrict (t : Table key) (p : α → Bool) : Table key :=
  ⟨t.rows.filter p, (List.filter_sublist.map key).nodup t.unique⟩

theorem filterMap_restrict_sublist {β : Type} (t : Table key) (p : α → Bool) (f : α → Option β) :
    ((t.restrict p).rows.filterMap f).Sublist (t.rows.filterMap f) := List.filter_sublist.filterMap f

theorem filterMap_restrict_eq_iff {β : Type} (t : Table key) (p : α → Bool) (f : α → Option β) :
    t.rows.filterMap f = (t.restrict p).rows.filterMap f ↔ ∀ a ∈ t.rows, p a = false → f a = none := by
  obtain ⟨rows, hu⟩ := t
  simp only [restrict]
  clear hu
  induction rows with
  | nil => simp
  | cons a rows ih =>
    cases ha : p a with
    | true =>
      rw [List.filter_cons_of_pos ha, List.filterMap_cons, List.filterMap_cons]
      cases f a <;> simp [ha, ih]
    | false =>
      rw [List.filter_cons_of_neg (by rw [ha]; exact Bool.false_ne_true)]
      cases hfa : f a with
      | none => simp [hfa, ih]
      | some b =>
        have hle : ((rows.filter p).filterMap f).length ≤ (rows.filterMap f).length :=
          (List.filter_sublist.filterMap f).length_le
        refine iff_of_false (fun he => ?_) (fun h => ?_)
        · have hl := congrArg List.length he
          rw [List.filterMap_cons_some hfa, List.length_cons] at hl
          omega
        · rw [h a List.mem_cons_self ha] at hfa
          cases hfa

section Keyed

variable [DecidableEq κ]

def get? (t : Table key) (k : κ) : Option α := t.rows.find? (fun a => decide (key a = k))

def has (t : Table key) (k : κ) : Bool := (t.get? k).isSome

theorem get?_some_iff (t : Table key) (k : κ) (a : α) : t.get? k = some a ↔ a ∈ t.rows ∧ key a = k := by
  constructor
  · intro h
    exact ⟨List.mem_of_find?_eq_some h, by simpa using List.find?_some h⟩
  · rintro ⟨ha, rfl⟩
    cases h : t.get? (key a) with
    | none => exact absurd (List.find?_eq_none.mp h a ha) (by simp)
    | some b =>
      have hk : key b = key a := by simpa using List.find?_some h
      rw [List.inj_on_of_nodup_map t.unique (List.mem_of_find?_eq_some h) ha hk]

theorem get?_none_iff (t : Table key) (k : κ) : t.get? k = none ↔ ∀ a ∈ t.rows, key a ≠ k := by
  simp [get?, List.find?_eq_none]

theorem get?_key {t : Table key} {k : κ} {a : α} (h : t.get? k = some a) : key a = k :=
  ((t.get?_some_iff k a).mp h).2

theorem get?_mem {t : Table key} {k : κ} {a : α} (h : t.get? k = some a) : a ∈ t.rows :=
  ((t.get?_some_iff k a).mp h).1

theorem get?_of_mem {t : Table key} {a : α} (h : a ∈ t.rows) : t.get? (key a) = some a :=
  (t.get?_some_iff _ _).mpr ⟨h, rfl⟩

theorem get?_row {t : Table key} {k : κ} {a : α} (h : t.get? k = some a) : t.get? (key a) = some a :=
  get?_of_mem (get?_mem h)

theorem has_iff (t : Table key) (k : κ) : t.has k = true ↔ ∃ a ∈ t.rows, key a = k := by
  simp [has, get?]

theorem has_false_iff (t : Table key) (k : κ) : t.has k = false ↔ t.get? k = none := by
  cases h : t.get? k <;> simp [has, h]

theorem has_of_mem {t : Table key} {a : α} (h : a ∈ t.rows) : t.has (key a) = true :=
  (t.has_iff _).mpr ⟨a, h, rfl⟩

theorem has_of_get? {t : Table key} {k : κ} {a : α} (h : t.get? k = some a) : t.has k = true := by
  rw [has, h, Option.isSome_some]

def push (t : Table key) (a : α) (h : t.get? (key a) = none) : Table key :=
  ⟨t.rows ++ [a], by
    rw [List.map_append, List.nodup_append]
    refine ⟨t.unique, List.nodup_singleton _, ?_⟩
    intro x hx y hy
    obtain ⟨b, hb, rfl⟩ := List.mem_map.mp hx
    rw [List.mem_singleton.mp hy]
    exact (t.get?_none_iff _).mp h b hb⟩

def insert (t : Table key) (a : α) : Option (Table key) :=
  if h : t.get? (key a) = none then some (t.push a h) else none

def ensure (t : Table key) (a : α) : Table key := (t.insert a).getD t

def update (t : Table key) (k : κ) (f : α → α)
    (hf : ∀ a, key (f a) = key a := by intro _; rfl) : Table key :=
  t.updateWhere (fun a => decide (key a = k)) f hf

theorem insert_eq_none (t : Table key) (a : α) : t.insert a = none ↔ t.has (key a) = true := by
  cases h : t.get? (key a) <;> simp [insert, has, h]

theorem insert_eq_some {t t' : Table key} {a : α} (h : t.insert a = some t') :
    t.get? (key a) = none ∧ t'.rows = t.rows ++ [a] := by
  unfold insert at h
  split at h
  · rename_i hn
    cases h
    exact ⟨hn, rfl⟩
  · cases h

theorem exists_insert {t : Table key} {a : α} (h : t.has (key a) = false) :
    ∃ t', t.insert a = some t' ∧ t'.rows = t.rows ++ [a] := by
  cases hi : t.insert a with
  | none =>
    rw [(t.insert_eq_none a).mp hi] at h
    cases h
  | some t' => exact ⟨t', rfl, (Table.insert_eq_some hi).2⟩

theorem ensure_rows (t : Table key) (a : α) :
    (t.ensure a).rows = if t.has (key a) then t.rows else t.rows ++ [a] := by
  cases h : t.get? (key a) <;> simp [ensure, insert, has, h, push]

theorem ensure_of_has {t : Table key} {a : α} (h : t.has (key a) = true) : t.ensure a = t := by
  rw [ensure, (t.insert_eq_none a).mpr h, Option.getD_none]

theorem get?_append {t t' : Table key} {a : α} (h : t'.rows = t.rows ++ [a]) (hn : t.get? (key a) = none)
    (k : κ) : t'.get? k = if key a = k then some a else t.get? k := by
  have hn' : t.rows.find? (fun b => decide (key b = key a)) = none := hn
  by_cases hk : key a = k
  · subst hk
    simp [get?, h, List.find?_append, hn']
  · simp [get?, h, List.find?_append, hk]

theorem has_append {t t' : Table key} {l : List α} (h : t'.rows = t.rows ++ l) (k : κ) :
    t'.has k = true ↔ t.has k = true ∨ ∃ a ∈ l, key a = k := by
  simp only [has_iff, h, List.mem_append, or_and_right, exists_or]

theorem get?_push (t : Table key) (a : α) (h : t.get? (key a) = none) (k : κ) :
    (t.push a h).get? k = if key a = k then some a else t.get? k := get?_append rfl h k

theorem get?_ensure (t : Table key) (a : α) (k : κ) :
    (t.ensure a).get? k = if key a = k then some ((t.get? k).getD a) else t.get? k := by
  cases h : t.get? (key a) with
  | none =>
    have he : t.ensure a = t.push a h := by simp [ensure, insert, h]
    rw [he, get?_push]
    by_cases hk : key a = k
    · subst hk; simp [h]
    · simp [hk]
  | some b =>
    have he : t.ensure a = t := by simp [ensure, insert, h]
    rw [he]
    by_cases hk : key a = k
    · subst hk; simp [h]
    · simp [hk]

theorem has_ensure (t : Table key) (a : α) (k : κ) :
    (t.ensure a).has k = true ↔ t.has k = true ∨ key a = k := by
  simp only [has, get?_ensure]
  by_cases hk : key a = k <;> simp [hk]

theorem get?_updateWhere (t : Table key) (p : α → Bool) (f : α → α) (hf : ∀ a, key (f a) = key a) (k : κ) :
    (t.updateWhere p f hf).get? k = (t.get? k).map (fun a => if p a then f a else a) := by
  have he : (fun a => decide (key a = k)) ∘ (fun a => if p a then f a else a) =
      fun a => decide (key a = k) := by
    funext a
    by_cases hp : p a <;> simp [hp, hf]
  simp only [get?, updateWhere, List.find?_map, he]

theorem has_updateWhere (t : Table key) (p : α → Bool) (f : α → α) (hf : ∀ a, key (f a) = key a) (k : κ) :
    (t.updateWhere p f hf).has k = t.has k := by
  rw [has, has, get?_updateWhere, Option.isSome_map]

theorem get?_update (t : Table key) (k : κ) (f : α → α) (hf : ∀ a, key (f a) = key a) (j : κ) :
    (t.update k f hf).get? j = if j = k then (t.get? j).map f else t.get? j := by
  rw [update, get?_updateWhere]
  cases h : t.get? j with
  | none => simp
  | some a =>
    have hk := get?_key h
    by_cases hj : j = k <;> simp [hj, hk]

theorem update_congr {t : Table key} {k : κ} {f g : α → α} {hf : ∀ a, key (f a) = key a}
    {hg : ∀ a, key (g a) = key a} (h : ∀ a, t.get? k = some a → f a = g a) :
    t.update k f hf = t.update k g hg := by
  apply Table.ext
  apply List.map_congr_left
  intro a ha
  simp only [decide_eq_true_eq]
  split_ifs with hk
  · exact h a ((t.get?_some_iff k a).mpr ⟨ha, hk⟩)
  · rfl

theorem update_eq_self {t : Table key} {k : κ} {f : α → α} {hf : ∀ a, key (f a) = key a}
    (h : ∀ a, t.get? k = some a → f a = a) : t.update k f hf = t := by
  have he : t.update k f hf = t.update k id (fun _ => rfl) := update_congr h
  exact he.trans (t.updateWhere_id _ id (fun _ => rfl) (fun _ => rfl))

theorem has_update (t : Table key) (k : κ) (f : α → α) (hf : ∀ a, key (f a) = key a) (j : κ) :
    (t.update k f hf).has j = t.has j := t.has_updateWhere _ f hf j

def erase (t : Table key) (k : κ) : Table key := t.restrict (fun a => decide (key a ≠ k))

theorem mem_erase {t : Table key} {k : κ} {a : α} : a ∈ (t.erase k).rows ↔ a ∈ t.rows ∧ key a ≠ k := by
  simp [erase, restrict]

theorem get?_restrict (t : Table key) (p : α → Bool) (k : κ) : (t.restrict p).get? k = (t.get? k).filter p := by
  ext a
  rw [get?_some_iff, Option.filter_eq_some_iff, get?_some_iff]
  simp only [restrict, List.mem_filter]
  tauto

theorem has_restrict_of (t : Table key) {p : α → Bool} {k : κ} (h : ∀ a, key a = k → p a = true) :
    (t.restrict p).has k = t.has k := by
  rw [has, has, get?_restrict]
  cases hg : t.get? k with
  | none => rfl
  | some a => rw [Option.filter_some, if_pos (h a (get?_key hg))]

theorem restrict_ensure (t : Table key) {p : α → Bool} {a : α} (hp : ∀ b, key b = key a → p b = p a) :
    (t.ensure a).restrict p = if p a then (t.restrict p).ensure a else t.restrict p := by
  have hhas : (t.restrict p).has (key a) = (t.has (key a) && p a) := by
    rw [has, has, get?_restrict]
    cases hg : t.get? (key a) with
    | none => rfl
    | some b => cases hb : p b <;> simp [Option.filter, hb, ← hp b (get?_key hg)]
  apply Table.ext
  cases ha : p a with
  | false =>
    simp only [restrict, ensure_rows, Bool.false_eq_true, if_false]
    split_ifs <;> simp [ha]
  | true =>
    rw [if_pos rfl, ensure_rows, hhas, ha, Bool.and_true]
    simp only [restrict, ensure_rows]
    split_ifs <;> simp [ha]

theorem restrict_erase (t : Table key) (p : α → Bool) (k : κ) : (t.erase k).restrict p = (t.restrict p).erase k := by
  apply Table.ext
  simp only [erase, restrict, List.filter_filter, Bool.and_comm]

theorem restrict_update (t : Table key) (p : α → Bool) (k : κ) (f : α → α) (hf : ∀ a, key (f a) = key a)
    (hp : ∀ a, p (f a) = p a) : (t.update k f hf).restrict p = (t.restrict p).update k f hf := by
  have he : p ∘ (fun a => if decide (key a = k) then f a else a) = p := by
    funext a
    simp only [Function.comp_apply]
    split_ifs
    · exact hp a
    · rfl
  apply Table.ext
  simp only [restrict, update, updateWhere, List.filter_map, he]

theorem erase_of_get?_none {t : Table key} {k : κ} (h : t.get? k = none) : t.erase k = t := by
  apply Table.ext
  simp only [erase, restrict, List.filter_eq_self, decide_eq_true_eq]
  exact (t.get?_none_iff k).mp h

/-- Every row is still there, changed at most as the relation allows. -/
def Persists (R : α → α → Prop) (t t' : Table key) : Prop :=
  ∀ k a, t.get? k = some a → ∃ b, t'.get? k = some b ∧ R a b

namespace Persists

variable {R : α → α → Prop} {t t' t'' : Table key}

theorem refl (hR : ∀ a, R a a) (t : Table key) : Persists R t t := fun _ a h => ⟨a, h, hR a⟩

theorem trans (hR : ∀ a b c, R a b → R b c → R a c) (h : Persists R t t') (h' : Persists R t' t'') :
    Persists R t t'' := by
  intro k a ha
  obtain ⟨b, hb, hab⟩ := h k a ha
  obtain ⟨c, hc, hbc⟩ := h' k b hb
  exact ⟨c, hc, hR a b c hab hbc⟩

theorem updateWhere (hR : ∀ a, R a a) (t : Table key) (p : α → Bool) (f : α → α) (hf : ∀ a, key (f a) = key a)
    (h : ∀ a, p a = true → R a (f a)) : Persists R t (t.updateWhere p f hf) := by
  intro k a ha
  refine ⟨if p a then f a else a, by rw [get?_updateWhere, ha, Option.map_some], ?_⟩
  split_ifs with hp
  · exact h a hp
  · exact hR a

theorem update (hR : ∀ a, R a a) (t : Table key) (k : κ) (f : α → α) (hf : ∀ a, key (f a) = key a)
    (h : ∀ a, t.get? k = some a → R a (f a)) : Persists R t (t.update k f hf) := by
  intro j a ha
  by_cases hj : j = k
  · subst hj
    exact ⟨f a, by rw [get?_update, if_pos rfl, ha, Option.map_some], h a ha⟩
  · exact ⟨a, by rw [get?_update, if_neg hj, ha], hR a⟩

theorem append (hR : ∀ a, R a a) {l : List α} (h : t'.rows = t.rows ++ l) : Persists R t t' := by
  intro k a ha
  obtain ⟨hm, hk⟩ := (t.get?_some_iff k a).mp ha
  exact ⟨a, (t'.get?_some_iff k a).mpr ⟨by rw [h]; exact List.mem_append_left _ hm, hk⟩, hR a⟩

theorem ensure (hR : ∀ a, R a a) (t : Table key) (a : α) : Persists R t (t.ensure a) := by
  by_cases h : t.has (key a) = true
  · rw [ensure_of_has h]
    exact refl hR t
  · exact append hR (by rw [ensure_rows, if_neg h])

theorem has (h : Persists R t t') {k : κ} (hk : t.has k = true) : t'.has k = true := by
  obtain ⟨a, ha⟩ := Option.isSome_iff_exists.mp hk
  obtain ⟨b, hb, -⟩ := h k a ha
  exact has_of_get? hb

end Persists

end Keyed

section Aggregates

variable {M : Type} [AddCommMonoid M]

def sum (t : Table key) (w : α → M) : M := (t.rows.map w).sum

def count (t : Table key) (p : α → Bool) : ℕ := t.rows.countP p

theorem sum_congr (t : Table key) {w w' : α → M} (h : ∀ a ∈ t.rows, w a = w' a) : t.sum w = t.sum w' := by
  unfold sum
  rw [List.map_congr_left h]

theorem sum_zero (t : Table key) {w : α → M} (h : ∀ a ∈ t.rows, w a = 0) : t.sum w = 0 := by
  rw [t.sum_congr h]
  simp [sum]

theorem sum_add (t : Table key) (w w' : α → M) : t.sum (fun a => w a + w' a) = t.sum w + t.sum w' :=
  List.sum_map_add

theorem sum_append {t t' : Table key} {a : α} (h : t'.rows = t.rows ++ [a]) (w : α → M) :
    t'.sum w = t.sum w + w a := by
  simp [sum, h]

theorem count_append {t t' : Table key} {a : α} (h : t'.rows = t.rows ++ [a]) (p : α → Bool) :
    t'.count p = t.count p + if p a then 1 else 0 := by
  by_cases hp : p a <;> simp [count, h, hp]

theorem count_updateWhere_of (t : Table key) (p : α → Bool) (f : α → α) (hf : ∀ a, key (f a) = key a)
    (q : α → Bool) (hq : ∀ a, q (f a) = q a) : (t.updateWhere p f hf).count q = t.count q := by
  have hm := t.map_updateWhere p f hf q hq
  simpa [count, List.countP_map] using congrArg (List.countP id) hm

theorem sum_updateWhere (t : Table key) (p : α → Bool) (f : α → α) (hf : ∀ a, key (f a) = key a) (w : α → M) :
    (t.updateWhere p f hf).sum w = t.sum (fun a => w (if p a then f a else a)) := by
  simp [sum, updateWhere, Function.comp_def]

theorem count_updateWhere (t : Table key) (p : α → Bool) (f : α → α) (hf : ∀ a, key (f a) = key a)
    (q : α → Bool) : (t.updateWhere p f hf).count q = t.count (fun a => q (if p a then f a else a)) := by
  simp [count, updateWhere, List.countP_map, Function.comp_def]

theorem sum_comm {κ' β : Type} {key' : β → κ'} (t : Table key) (s : Table key') (f : α → β → M) :
    t.sum (fun a => s.sum (f a)) = s.sum (fun b => t.sum (fun a => f a b)) := by
  obtain ⟨rows, hu⟩ := t
  simp only [sum]
  clear hu
  induction rows with
  | nil => simp
  | cons a rows ih => simp [ih, List.sum_map_add]

theorem count_eq_sum (t : Table key) (p : α → Bool) : t.count p = t.sum (fun a => if p a then 1 else 0) := by
  obtain ⟨rows, hu⟩ := t
  simp only [count, sum]
  clear hu
  induction rows with
  | nil => rfl
  | cons a rows ih =>
    rw [List.countP_cons, ih, List.map_cons, List.sum_cons, Nat.add_comm]

theorem intCount_eq_sum (t : Table key) (p : α → Bool) :
    (t.count p : ℤ) = t.sum (fun a => if p a then 1 else 0) := by
  obtain ⟨rows, hu⟩ := t
  simp only [count, sum]
  clear hu
  induction rows with
  | nil => rfl
  | cons a rows ih =>
    rw [List.countP_cons, List.map_cons, List.sum_cons, ← ih]
    split_ifs <;> omega

theorem sum_eq_zero_iff (t : Table key) (w : α → ℤ) (hw : ∀ a ∈ t.rows, 0 ≤ w a) :
    t.sum w = 0 ↔ ∀ a ∈ t.rows, w a = 0 := by
  constructor
  · obtain ⟨rows, hu⟩ := t
    simp only [sum] at *
    clear hu
    intro hs
    have hn : ∀ l : List α, (∀ a ∈ l, 0 ≤ w a) → 0 ≤ (l.map w).sum := by
      intro l hl
      induction l with
      | nil => simp
      | cons a l ih =>
        have ha := hl a (by simp)
        have hr := ih (fun b hb => hl b (List.mem_cons_of_mem _ hb))
        rw [List.map_cons, List.sum_cons]
        omega
    induction rows with
    | nil => simp
    | cons a rows ih =>
      have ha := hw a (by simp)
      have hr := hn rows (fun b hb => hw b (List.mem_cons_of_mem _ hb))
      rw [List.map_cons, List.sum_cons] at hs
      intro b hb
      rcases List.mem_cons.mp hb with rfl | hb
      · omega
      · exact ih (fun b hb => hw b (List.mem_cons_of_mem _ hb)) (by omega) b hb
  · exact t.sum_zero

variable [DecidableEq κ]

theorem mem_filter_map_key {t : Table key} {p : α → Bool} {k : κ} :
    k ∈ (t.rows.filter p).map key ↔ (t.get? k).map p = some true := by
  rw [List.mem_map, Option.map_eq_some_iff]
  constructor
  · rintro ⟨a, ha, rfl⟩
    obtain ⟨hm, hp⟩ := List.mem_filter.mp ha
    exact ⟨a, get?_of_mem hm, hp⟩
  · rintro ⟨a, ha, hp⟩
    exact ⟨a, List.mem_filter.mpr ⟨get?_mem ha, hp⟩, get?_key ha⟩

theorem count_index (t : Table key) (k : κ) :
    t.count (fun a => decide (key a = k)) = 1 ↔ t.has k = true := by
  have hcount : t.count (fun a => decide (key a = k)) = (t.rows.map key).count k := by
    rw [count, List.count, List.countP_map]
    rfl
  rw [hcount, t.has_iff, ← List.mem_map]
  constructor
  · intro h
    exact List.count_pos_iff.mp (by omega)
  · exact List.count_eq_one_of_mem t.unique

/-- A count depends on what the rows say under their keys, not on their order. -/
theorem count_congr {t t' : Table key} {p p' : α → Bool} (h : ∀ k, (t'.get? k).map p' = (t.get? k).map p) :
    t'.count p' = t.count p := by
  have hlength : ∀ (t : Table key) (p : α → Bool), t.count p = ((t.rows.filter p).map key).length := by
    intro t p
    rw [count, List.countP_eq_length_filter, List.length_map]
  have hnodup : ∀ (t : Table key) (p : α → Bool), ((t.rows.filter p).map key).Nodup := by
    intro t p
    exact t.unique.sublist (List.filter_sublist.map key)
  rw [hlength, hlength]
  apply List.Perm.length_eq
  apply (List.perm_ext_iff_of_nodup (hnodup t' p') (hnodup t p)).mpr
  intro k
  rw [mem_filter_map_key, mem_filter_map_key, h]

theorem count_ensure_of (t : Table key) (a : α) (p : α → Bool) (hp : p a = false) :
    (t.ensure a).count p = t.count p := by
  simp only [count, ensure_rows]
  split_ifs <;> simp [hp]

theorem count_erase {t : Table key} {k : κ} {a : α} (h : t.get? k = some a) (p : α → Bool) :
    t.count p = (t.erase k).count p + if p a then 1 else 0 := by
  obtain ⟨rows, hu⟩ := t
  simp only [count, erase, restrict]
  replace h : rows.find? (fun a => decide (key a = k)) = some a := h
  induction rows with
  | nil => cases h
  | cons b rows ih =>
    obtain ⟨hn, hr⟩ := List.nodup_cons.mp hu
    by_cases hk : key b = k
    · have hrest : rows.filter (fun b => decide (key b ≠ k)) = rows := by
        rw [List.filter_eq_self]
        intro c hc
        have hc' : key c ≠ k := fun h => hn (List.mem_map.mpr ⟨c, hc, h.trans hk.symm⟩)
        simpa using hc'
      rw [List.find?_cons_of_pos (by simpa using hk)] at h
      cases h
      rw [List.filter_cons_of_neg (by simpa using hk), hrest, List.countP_cons]
    · rw [List.find?_cons_of_neg (by simpa using hk)] at h
      rw [List.filter_cons_of_pos (by simpa using hk), List.countP_cons, List.countP_cons, ih hr h]
      omega

theorem sum_single (t : Table key) (k : κ) (d : α → M) :
    t.sum (fun a => if key a = k then d a else 0) = ((t.get? k).map d).getD 0 := by
  obtain ⟨rows, hu⟩ := t
  simp only [sum, get?]
  induction rows with
  | nil => rfl
  | cons a rows ih =>
    obtain ⟨hn, hr⟩ := List.nodup_cons.mp hu
    by_cases hk : key a = k
    · have hz : ∀ b ∈ rows, (if key b = k then d b else 0) = 0 := by
        intro b hb
        have hb' : key b ≠ k := fun h => hn (List.mem_map.mpr ⟨b, hb, h.trans hk.symm⟩)
        simp [hb']
      simp [hk, List.map_congr_left hz]
    · simpa [hk] using ih hr

theorem sum_add_single (t : Table key) (k : κ) (w d : α → M) :
    t.sum (fun a => w a + if key a = k then d a else 0) = t.sum w + ((t.get? k).map d).getD 0 := by
  rw [sum_add, sum_single]

theorem sum_fiber {κ' β : Type} {key' : β → κ'} (t : Table key) (s : Table key') (ref : β → κ) (g : β → M)
    (h : ∀ b ∈ s.rows, g b = 0 ∨ t.has (ref b) = true) :
    t.sum (fun a => s.sum (fun b => if key a = ref b then g b else 0)) = s.sum g := by
  rw [sum_comm]
  apply sum_congr
  intro b hb
  rw [sum_single]
  rcases h b hb with hg | ht
  · cases t.get? (ref b) <;> simp [hg]
  · obtain ⟨a, ha⟩ := Option.isSome_iff_exists.mp ht
    simp [ha]

theorem sum_update (t : Table key) (k : κ) (f : α → α) (hf : ∀ a, key (f a) = key a) (w : α → ℤ) :
    (t.update k f hf).sum w = t.sum w + ((t.get? k).map (fun a => w (f a) - w a)).getD 0 := by
  rw [update, sum_updateWhere, ← sum_add_single]
  apply sum_congr
  intro a _
  by_cases hk : key a = k <;> simp [hk]

end Aggregates

section Serial

variable {key : α → ℕ}

def fresh (t : Table key) : ℕ := (t.rows.map key).foldr max 0 + 1

theorem lt_fresh {t : Table key} {a : α} (h : a ∈ t.rows) : key a < t.fresh := by
  obtain ⟨rows, hu⟩ := t
  simp only [fresh] at *
  clear hu
  induction rows with
  | nil => cases h
  | cons b rows ih =>
    rcases List.mem_cons.mp h with rfl | h
    · simp only [List.map_cons, List.foldr_cons]; omega
    · have := ih h
      simp only [List.map_cons, List.foldr_cons]; omega

theorem get?_fresh (t : Table key) : t.get? t.fresh = none :=
  (t.get?_none_iff _).mpr (fun _ ha => Nat.ne_of_lt (lt_fresh ha))

def insertFresh (t : Table key) (a : ℕ → α) (ha : ∀ n, key (a n) = n := by intro _; rfl) : Table key :=
  t.push (a t.fresh) (by rw [ha]; exact t.get?_fresh)

theorem insertFresh_rows (t : Table key) (a : ℕ → α) (ha : ∀ n, key (a n) = n) :
    (t.insertFresh a ha).rows = t.rows ++ [a t.fresh] := rfl

theorem get?_insertFresh (t : Table key) (a : ℕ → α) (ha : ∀ n, key (a n) = n) (k : ℕ) :
    (t.insertFresh a ha).get? k = if k = t.fresh then some (a t.fresh) else t.get? k := by
  rw [insertFresh, get?_push, ha]
  simp only [eq_comm]

theorem has_insertFresh (t : Table key) (a : ℕ → α) (ha : ∀ n, key (a n) = n) (k : ℕ) :
    (t.insertFresh a ha).has k = true ↔ t.has k = true ∨ k = t.fresh := by
  simp only [has, get?_insertFresh]
  by_cases hk : k = t.fresh <;> simp [hk]

theorem has_fresh (t : Table key) : t.has t.fresh = false := (t.has_false_iff _).mpr t.get?_fresh

end Serial

end Table

end Relational
