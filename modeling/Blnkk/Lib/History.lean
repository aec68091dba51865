import Mathlib.Data.List.Induction
import Mathlib.Data.List.Nodup

/-!
Histories of occurrences, oldest first: an occurrence `a` is pending as long as
no `b` follows it, and it is separated if there is a `b` between any two of it.
-/

namespace History

variable {ω : Type}

theorem concat_eq_split {h before after : List ω} {x a : ω} :
    h ++ [x] = before ++ a :: after ↔
      (before = h ∧ a = x ∧ after = []) ∨ ∃ rest, h = before ++ a :: rest ∧ after = rest ++ [x] := by
  constructor
  · intro he
    rcases List.eq_nil_or_concat' after with rfl | ⟨rest, last, rfl⟩
    · obtain ⟨rfl, ha⟩ := List.append_inj' he rfl
      cases ha
      exact Or.inl ⟨rfl, rfl, rfl⟩
    · have he' : h ++ [x] = (before ++ a :: rest) ++ [last] := by simpa using he
      obtain ⟨rfl, ha⟩ := List.append_inj' he' rfl
      cases ha
      exact Or.inr ⟨rest, rfl, rfl⟩
  · rintro (⟨rfl, rfl, rfl⟩ | ⟨rest, rfl, rfl⟩) <;> simp

variable (a b : ω)

def Pending (h : List ω) : Prop := ∃ before after, h = before ++ a :: after ∧ b ∉ after

def Separated (h : List ω) : Prop :=
  ∀ before between after, h = before ++ a :: (between ++ a :: after) → b ∈ between

variable {a b}

theorem not_pending_nil : ¬ Pending a b [] := by
  rintro ⟨before, after, he, -⟩
  simp at he

theorem separated_nil : Separated a b [] := by
  intro before between after he
  simp at he

theorem pending_concat {h : List ω} {x : ω} : Pending a b (h ++ [x]) ↔ x = a ∨ (x ≠ b ∧ Pending a b h) := by
  constructor
  · rintro ⟨before, after, he, hb⟩
    rcases concat_eq_split.mp he with ⟨rfl, rfl, rfl⟩ | ⟨rest, rfl, rfl⟩
    · exact Or.inl rfl
    · rw [List.mem_append, List.mem_singleton, not_or] at hb
      exact Or.inr ⟨Ne.symm hb.2, before, rest, rfl, hb.1⟩
  · rintro (rfl | ⟨hx, before, after, rfl, hb⟩)
    · exact ⟨h, [], rfl, List.not_mem_nil⟩
    · refine ⟨before, after ++ [x], by simp, ?_⟩
      rw [List.mem_append, List.mem_singleton, not_or]
      exact ⟨hb, Ne.symm hx⟩

theorem Separated.concat {h : List ω} {x : ω} (hs : Separated a b h) (hx : x = a → ¬ Pending a b h) :
    Separated a b (h ++ [x]) := by
  intro before between after he
  rcases concat_eq_split.mp he with ⟨-, -, hn⟩ | ⟨rest, rfl, hr⟩
  · simp at hn
  · rcases concat_eq_split.mp hr.symm with ⟨rfl, rfl, rfl⟩ | ⟨rest', rfl, rfl⟩
    · by_contra hb
      exact hx rfl ⟨before, between, rfl, hb⟩
    · exact hs before between rest' rfl

theorem pending_append {h l : List ω} (hb : b ∉ l) : Pending a b (h ++ l) ↔ Pending a b h ∨ a ∈ l := by
  induction l using List.reverseRecOn with
  | nil => simp
  | append_singleton l x ih =>
    rw [List.mem_append, List.mem_singleton, not_or] at hb
    rw [← List.append_assoc, pending_concat, ih hb.1, List.mem_append, List.mem_singleton]
    constructor
    · rintro (rfl | ⟨-, hp | hm⟩)
      · exact Or.inr (Or.inr rfl)
      · exact Or.inl hp
      · exact Or.inr (Or.inl hm)
    · rintro (hp | hm | rfl)
      · exact Or.inr ⟨Ne.symm hb.2, Or.inl hp⟩
      · exact Or.inr ⟨Ne.symm hb.2, Or.inr hm⟩
      · exact Or.inl rfl

theorem Separated.append {h l : List ω} (hs : Separated a b h) (hb : b ∉ l) (hn : l.Nodup)
    (hl : a ∈ l → ¬ Pending a b h) : Separated a b (h ++ l) := by
  induction l using List.reverseRecOn with
  | nil => simpa using hs
  | append_singleton l x ih =>
    rw [List.mem_append, List.mem_singleton, not_or] at hb
    obtain ⟨hn', -, hx⟩ := List.nodup_append.mp hn
    rw [← List.append_assoc]
    refine (ih hb.1 hn' (fun hm => hl (List.mem_append_left _ hm))).concat ?_
    rintro rfl
    rw [pending_append hb.1, not_or]
    exact ⟨hl (by simp), fun hm => hx x hm x (by simp) rfl⟩

end History
