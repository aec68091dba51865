import Blnkk.Lib.Run
import Mathlib.Algebra.BigOperators.Group.Finset.Basic
import Mathlib.Data.Fintype.BigOperators

/-!
Processes that take turns at one shared state, one atomic statement a turn.
-/

namespace Concurrent

structure State (σ ι π : Type) where
  shared : σ
  procs : ι → π

variable {σ ι π : Type} [DecidableEq ι]

def step (next : σ → π → σ × π) (s : State σ ι π) (i : ι) : State σ ι π :=
  ⟨(next s.shared (s.procs i)).1, Function.update s.procs i (next s.shared (s.procs i)).2⟩

theorem procs_self (next : σ → π → σ × π) (s : State σ ι π) (i : ι) :
    (step next s i).procs i = (next s.shared (s.procs i)).2 := Function.update_self ..

theorem procs_ne (next : σ → π → σ × π) (s : State σ ι π) {i j : ι} (h : j ≠ i) :
    (step next s i).procs j = s.procs j := Function.update_of_ne h ..

theorem exists_step {next : σ → π → σ × π} {s : State σ ι π} {i : ι} {p : π} (h : ∃ j, s.procs j = p)
    (hi : s.procs i ≠ p) : ∃ j, (step next s i).procs j = p := by
  obtain ⟨j, hj⟩ := h
  have hne : j ≠ i := by
    rintro rfl
    exact hi hj
  exact ⟨j, (procs_ne next s hne).trans hj⟩

/-- What each process claims of the shared state survives a turn when the turn
establishes it for its own process and breaks it for no other. -/
theorem forall_step {L : σ → π → Prop} (next : σ → π → σ × π) {s : State σ ι π} {i : ι}
    (h : ∀ j, L s.shared (s.procs j))
    (hself : L (next s.shared (s.procs i)).1 (next s.shared (s.procs i)).2)
    (hother : ∀ p, L s.shared p → L (next s.shared (s.procs i)).1 p) (j : ι) :
    L (step next s i).shared ((step next s i).procs j) := by
  by_cases hj : j = i
  · subst hj
    rw [procs_self]
    exact hself
  · rw [procs_ne next s hj]
    exact hother _ (h j)

theorem owed_step {owes : π → Prop} {Q Q' : σ → Prop} (next : σ → π → σ × π) {s : State σ ι π} {i : ι}
    (h : (∃ j, owes (s.procs j)) ∨ Q s.shared)
    (hself : owes (s.procs i) ∨ Q s.shared → owes (next s.shared (s.procs i)).2 ∨ Q' (next s.shared (s.procs i)).1) :
    (∃ j, owes ((step next s i).procs j)) ∨ Q' (step next s i).shared := by
  have hi : owes (s.procs i) ∨ Q s.shared → (∃ j, owes ((step next s i).procs j)) ∨ Q' (step next s i).shared := by
    intro hq
    rcases hself hq with ho | hq'
    · exact Or.inl ⟨i, by rw [procs_self]; exact ho⟩
    · exact Or.inr hq'
  rcases h with ⟨j, hj⟩ | hq
  · by_cases he : j = i
    · exact hi (Or.inl (he ▸ hj))
    · exact Or.inl ⟨j, by rw [procs_ne next s he]; exact hj⟩
  · exact hi (Or.inr hq)

theorem run_alone (next : σ → π → σ × π) (i : ι) (n : ℕ) (s : State σ ι π) :
    ((Transition.run (step next) s (List.replicate n i)).shared,
      (Transition.run (step next) s (List.replicate n i)).procs i) =
      (fun c => next c.1 c.2)^[n] (s.shared, s.procs i) := by
  induction n generalizing s with
  | zero => rfl
  | succ n ih =>
    rw [List.replicate_succ, Transition.run_cons, ih, Function.iterate_succ_apply, procs_self]
    rfl

theorem sum_step [Fintype ι] (next : σ → π → σ × π) (s : State σ ι π) (i : ι) (w : π → ℤ) :
    ∑ j, w ((step next s i).procs j) =
      ∑ j, w (s.procs j) + (w (next s.shared (s.procs i)).2 - w (s.procs i)) := by
  have hu : (fun j => w ((step next s i).procs j)) =
      Function.update (fun j => w (s.procs j)) i (w (next s.shared (s.procs i)).2) := by
    funext j
    by_cases hj : j = i
    · subst hj
      rw [procs_self, Function.update_self]
    · rw [procs_ne next s hj, Function.update_of_ne hj]
  have hs := Finset.add_sum_erase Finset.univ (fun j => w (s.procs j)) (Finset.mem_univ i)
  rw [hu, Finset.sum_update_of_mem (Finset.mem_univ i), Finset.sdiff_singleton_eq_erase]
  omega

end Concurrent
