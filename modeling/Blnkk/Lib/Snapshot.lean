import Mathlib.Data.List.DropRight
import Mathlib.Data.List.Nodup

/-!
A reader of a log that grows at its end: a snapshot of the last entries, then
the entries that are delivered one by one.
-/

namespace Snapshot

variable {α : Type} {log : List α} {n k a d : ℕ}

/-- The last `n` of the first `k` entries, then those from `a` up to `d`. -/
def view (n : ℕ) (log : List α) (k a d : ℕ) : List α := (log.take k).rtake n ++ (log.take d).drop a

theorem view_append (hk : k ≤ log.length) (hd : d ≤ log.length) (new : List α) :
    view n (log ++ new) k a d = view n log k a d := by
  rw [view, view, List.take_append_of_le_length hk, List.take_append_of_le_length hd]

theorem view_start : view n log k a a = (log.take k).rtake n := by
  rw [view, List.drop_of_length_le (List.length_take_le a log), List.append_nil]

theorem view_succ (ha : a ≤ d) {x : α} (hx : log[d]? = some x) : view n log k a (d + 1) = view n log k a d ++ [x] := by
  have hlength : d ≤ log.length := by
    obtain ⟨hd, -⟩ := List.getElem?_eq_some_iff.mp hx
    exact hd.le
  rw [view, view, List.take_add_one, hx, Option.toList_some, List.drop_append_of_le_length, List.append_assoc]
  rw [List.length_take]
  omega

theorem rtake_take_succ (n : ℕ) {x : α} (hx : log[k]? = some x) :
    (log.take (k + 1)).rtake (n + 1) = (log.take k).rtake n ++ [x] := by
  rw [List.take_add_one, hx, Option.toList_some, List.rtake_concat_succ]

theorem rdrop_append_rtake (l : List α) (n : ℕ) : l.rdrop n ++ l.rtake n = l := by
  rw [List.rdrop, List.rtake, List.take_append_drop]

/-- The reader has the end of the log, without a gap or a repetition, exactly if
the first entry delivered is the one that follows the snapshot. -/
theorem view_suffix_iff (hnodup : log.Nodup) (hn : 0 < n) (hk : 0 < k) (hkl : k ≤ log.length) (ha : a ≤ log.length) :
    view n log k a log.length <:+ log ↔ a = k := by
  rw [view, List.take_length]
  constructor
  · rintro ⟨front, hlog⟩
    obtain ⟨x, hx⟩ : ∃ x, log[k - 1]? = some x := ⟨_, List.getElem?_eq_getElem (by omega)⟩
    have hend : (log.take k).rtake n = (log.take (k - 1)).rtake (n - 1) ++ [x] := by
      rw [← rtake_take_succ (n - 1) hx, Nat.sub_add_cancel hk, Nat.sub_add_cancel hn]
    rw [hend] at hlog
    -- the entry before those delivered is the last of the snapshot
    have hlength := congrArg List.length hlog
    have hat := congrArg (fun l => l[a - 1]?) hlog
    simp only [List.length_append, List.length_cons, List.length_nil, List.length_drop] at hlength
    simp only [List.append_assoc, List.singleton_append] at hat
    rw [← List.append_assoc, List.getElem?_append_right (by rw [List.length_append]; omega), List.length_append,
      show a - 1 - (front.length + ((log.take (k - 1)).rtake (n - 1)).length) = 0 by omega, List.getElem?_cons_zero,
      ← hx] at hat
    have hsame : k - 1 = a - 1 := (List.getElem?_inj (by omega) hnodup).mp hat
    omega
  · rintro rfl
    exact ⟨(log.take a).rdrop n, by rw [← List.append_assoc, rdrop_append_rtake, List.take_append_drop]⟩

/-- Without a gap, at least the last `n` entries are there. -/
theorem view_suffix (n : ℕ) (log : List α) (k : ℕ) : view n log k k log.length <:+ log := by
  rw [view, List.take_length]
  exact ⟨(log.take k).rdrop n, by rw [← List.append_assoc, rdrop_append_rtake, List.take_append_drop]⟩

theorem rtake_suffix_view (hkl : k ≤ log.length) : log.rtake n <:+ view n log k k log.length := by
  apply List.suffix_of_suffix_length_le (List.drop_suffix _ _) (view_suffix n log k)
  simp only [view, List.rtake, List.take_length, List.length_append, List.length_drop, List.length_take]
  omega

end Snapshot
