import Mathlib.Data.List.Destutter

/-!
Logs in which an entry that repeats the last one is dropped. What a log makes
of a sequence of entries does not change when entries of the sequence are
repeated on the spot.
-/

namespace Stutter

variable {α : Type} [DecidableEq α]

def accept (log : List α) (a : α) : List α := if log.getLast? = some a then log else log ++ [a]

theorem accept_of_last {log : List α} {a : α} (h : log.getLast? = some a) : accept log a = log := if_pos h

@[simp]
theorem getLast?_accept (log : List α) (a : α) : (accept log a).getLast? = some a := by
  unfold accept
  split_ifs with h
  · exact h
  · exact List.getLast?_concat

theorem accept_accept (log : List α) (a : α) : accept (accept log a) a = accept log a :=
  accept_of_last (getLast?_accept log a)

theorem getLast?_destutter' (a : α) (l : List α) : (l.destutter' (· ≠ ·) a).getLast? = (a :: l).getLast? := by
  induction l generalizing a with
  | nil => rfl
  | cons b l ih =>
    by_cases h : a = b
    · subst h
      rw [List.destutter'_cons_neg _ (fun hne => hne rfl), ih, List.getLast?_cons_cons]
    · rw [List.destutter'_cons_pos _ h, List.getLast?_cons_of_ne_nil (List.destutter'_ne_nil _ _), ih,
        List.getLast?_cons_cons]

theorem getLast?_destutter (l : List α) : (l.destutter (· ≠ ·)).getLast? = l.getLast? := by
  cases l with
  | nil => rfl
  | cons a l => exact getLast?_destutter' a l

theorem destutter'_concat (a : α) (l : List α) (b : α) :
    (l ++ [b]).destutter' (· ≠ ·) a = accept (l.destutter' (· ≠ ·) a) b := by
  induction l generalizing a with
  | nil => by_cases h : a = b <;> simp [accept, h]
  | cons c l ih =>
    by_cases h : a = c
    · subst h
      rw [List.cons_append, List.destutter'_cons_neg _ (fun hne => hne rfl),
        List.destutter'_cons_neg _ (fun hne => hne rfl), ih]
    · have hlast := List.getLast?_cons_of_ne_nil (x := a) (List.destutter'_ne_nil l (a := c) (· ≠ ·))
      rw [List.cons_append, List.destutter'_cons_pos _ h, List.destutter'_cons_pos _ h, ih, accept, accept, hlast]
      split_ifs
      · rfl
      · rfl

theorem destutter_concat (l : List α) (a : α) :
    (l ++ [a]).destutter (· ≠ ·) = accept (l.destutter (· ≠ ·)) a := by
  cases l with
  | nil => rfl
  | cons b l => exact destutter'_concat b l a

end Stutter
