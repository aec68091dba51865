import Blnkk.Lib.Concurrent
import Mathlib.Data.List.Count

/-!
Processes that store keys under a unique index and send each key that they have
stored. Between the two a process owes the key.
-/

namespace Delivery

structure View (σ π κ : Type) where
  stored : σ → κ → Prop
  sent : σ → List κ
  owed : π → Option κ

variable {σ ι π κ : Type} (v : View σ π κ)

inductive Turn (s : σ) (p : π) (s' : σ) (p' : π) : Prop where
  | keeps (hstored : ∀ k, v.stored s' k ↔ v.stored s k) (hsent : v.sent s' = v.sent s) (howed : v.owed p' = v.owed p)
  | stores (k : κ) (hnew : ¬ v.stored s k) (hstored : ∀ j, v.stored s' j ↔ v.stored s j ∨ j = k)
    (hsent : v.sent s' = v.sent s) (hfree : v.owed p = none) (howed : v.owed p' = some k)
  | sends (k : κ) (hstored : ∀ j, v.stored s' j ↔ v.stored s j) (hsent : v.sent s' = v.sent s ++ [k])
    (howed : v.owed p = some k) (hfree : v.owed p' = none)

theorem owed_step_iff [DecidableEq ι] {v : View σ π κ} {k : κ} {next : σ → π → σ × π} {r : Concurrent.State σ ι π} {i : ι}
    (hi : v.owed (next r.shared (r.procs i)).2 = some k ↔ v.owed (r.procs i) = some k) (j : ι) :
    v.owed ((Concurrent.step next r i).procs j) = some k ↔ v.owed (r.procs j) = some k := by
  by_cases hj : j = i
  · rw [hj, Concurrent.procs_self]
    exact hi
  · rw [Concurrent.procs_ne next r hj]

variable [BEq κ]

/-- The stages of a key, of which `old` says whether it was stored from the start. -/
inductive Stage (old : Prop) (k : κ) (r : Concurrent.State σ ι π) : Prop where
  | idle (hstored : v.stored r.shared k ↔ old) (hsent : (v.sent r.shared).count k = 0)
    (howed : ∀ j, v.owed (r.procs j) ≠ some k)
  | owed (i : ι) (hold : ¬ old) (hstored : v.stored r.shared k) (hsent : (v.sent r.shared).count k = 0)
    (hi : v.owed (r.procs i) = some k) (hone : ∀ j ≠ i, v.owed (r.procs j) ≠ some k)
  | sent (hold : ¬ old) (hstored : v.stored r.shared k) (hsent : (v.sent r.shared).count k = 1)
    (howed : ∀ j, v.owed (r.procs j) ≠ some k)

variable {v} {old : Prop} {k : κ} {r r' : Concurrent.State σ ι π}

theorem Stage.frame (h : Stage v old k r) (hstored : v.stored r'.shared k ↔ v.stored r.shared k)
    (hsent : (v.sent r'.shared).count k = (v.sent r.shared).count k)
    (howed : ∀ j, v.owed (r'.procs j) = some k ↔ v.owed (r.procs j) = some k) : Stage v old k r' := by
  cases h with
  | idle hs hc hn => exact .idle (hstored.trans hs) (hsent.trans hc) (fun j hj => hn j ((howed j).mp hj))
  | owed i hold hs hc hi hone =>
    exact .owed i hold (hstored.mpr hs) (hsent.trans hc) ((howed i).mpr hi) (fun j hne hj => hone j hne ((howed j).mp hj))
  | sent hold hs hc hn =>
    exact .sent hold (hstored.mpr hs) (hsent.trans hc) (fun j hj => hn j ((howed j).mp hj))

theorem Stage.count_le_one (h : Stage v old k r) : (v.sent r.shared).count k ≤ 1 := by
  cases h with
  | idle _ hc => omega
  | owed _ _ _ hc => omega
  | sent _ _ hc => omega

variable [LawfulBEq κ]

theorem Stage.stored_iff (h : Stage v old k r) :
    v.stored r.shared k ∧ ¬ old ↔ k ∈ v.sent r.shared ∨ ∃ i, v.owed (r.procs i) = some k := by
  cases h with
  | idle hs hc hn =>
    refine iff_of_false (fun hnew => hnew.2 (hs.mp hnew.1)) ?_
    rintro (hm | ⟨i, hi⟩)
    · exact List.count_eq_zero.mp hc hm
    · exact hn i hi
  | owed i hold hs _ hi => exact iff_of_true ⟨hs, hold⟩ (Or.inr ⟨i, hi⟩)
  | sent hold hs hc =>
    exact iff_of_true ⟨hs, hold⟩ (Or.inl (List.count_pos_iff.mp (by omega)))

variable [DecidableEq ι] {next : σ → π → σ × π} {i : ι}

theorem Stage.step (h : Stage v old k r)
    (ht : Turn v r.shared (r.procs i) (next r.shared (r.procs i)).1 (next r.shared (r.procs i)).2) :
    Stage v old k (Concurrent.step next r i) := by
  have hself := Concurrent.procs_self next r i
  cases ht with
  | keeps hstored hsent howed =>
    exact h.frame (hstored k) (congrArg (List.count k) hsent) (owed_step_iff (by rw [howed]))
  | stores k' hnew hstored hsent hfree howed =>
    by_cases hk : k = k'
    · -- nobody can owe or have sent what is not stored yet
      subst hk
      cases h with
      | idle hs hc hn =>
        refine .owed i (fun ho => hnew (hs.mpr ho)) ((hstored k).mpr (Or.inr rfl)) ((congrArg _ hsent).trans hc) ?_ ?_
        · rw [hself]
          exact howed
        · intro j hj
          rw [Concurrent.procs_ne next r hj]
          exact hn j
      | owed _ _ hs => exact absurd hs hnew
      | sent _ hs => exact absurd hs hnew
    · refine h.frame ((hstored k).trans (or_iff_left hk)) (congrArg (List.count k) hsent) (owed_step_iff ?_)
      rw [howed, hfree, Option.some.injEq]
      exact iff_of_false (Ne.symm hk) nofun
  | sends k' hstored hsent howed hfree =>
    by_cases hk : k = k'
    · subst hk
      cases h with
      | idle _ _ hn => exact absurd howed (hn i)
      | owed l hold hs hc hl hone =>
        have hil : i = l := by
          by_contra hne
          exact hone i hne howed
        subst hil
        refine .sent hold ((hstored k).mpr hs) ?_ ?_
        · have hcount := congrArg (List.count k) hsent
          rw [List.count_append, hc, List.count_singleton_self] at hcount
          exact hcount
        · intro j
          by_cases hj : j = i
          · rw [hj, hself, hfree]
            nofun
          · rw [Concurrent.procs_ne next r hj]
            exact hone j hj
      | sent _ _ _ hn => exact absurd howed (hn i)
    · refine h.frame (hstored k) ?_ (owed_step_iff ?_)
      · have hcount := congrArg (List.count k) hsent
        rw [List.count_append, List.count_singleton, if_neg (by simpa using Ne.symm hk)] at hcount
        exact hcount
      · rw [howed, hfree, Option.some.injEq]
        exact iff_of_false nofun (Ne.symm hk)

end Delivery
