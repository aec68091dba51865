import Mathlib.Data.List.Basic

/-!
Runs of a deterministic step function over a list of actions, and the rules
for properties of all their states.
-/

namespace Transition

variable {σ α : Type} (step : σ → α → σ)

def run (s : σ) (actions : List α) : σ := actions.foldl step s

def Meets (Q : σ → α → Prop) : σ → List α → Prop
  | _, [] => True
  | s, a :: actions => Q s a ∧ Meets Q (step s a) actions

instance Meets.decidable (Q : σ → α → Prop) [hQ : ∀ s a, Decidable (Q s a)] :
    ∀ s actions, Decidable (Meets step Q s actions)
  | _, [] => isTrue trivial
  | s, a :: actions => @instDecidableAnd _ _ (hQ s a) (Meets.decidable Q (step s a) actions)

theorem run_cons (s : σ) (a : α) (actions : List α) :
    run step s (a :: actions) = run step (step s a) actions := rfl

theorem run_concat (s : σ) (actions : List α) (a : α) :
    run step s (actions ++ [a]) = step (run step s actions) a := List.foldl_concat ..

theorem run_append (s : σ) (actions actions' : List α) :
    run step s (actions ++ actions') = run step (run step s actions) actions' := List.foldl_append ..

theorem run_invariant {I : σ → Prop} (hstep : ∀ s a, I s → I (step s a)) (s : σ) (hs : I s)
    (actions : List α) : I (run step s actions) := by
  induction actions generalizing s with
  | nil => exact hs
  | cons a actions ih => exact ih (step s a) (hstep s a hs)

def observe {γ : Type} (see : γ → σ → α → γ) : γ → σ → List α → γ
  | c, _, [] => c
  | c, s, a :: actions => observe see (see c s a) (step s a) actions

theorem run_observe {γ : Type} {see : γ → σ → α → γ} {I : γ → σ → Prop}
    (hstep : ∀ c s a, I c s → I (see c s a) (step s a)) (c : γ) (s : σ) (hs : I c s) (actions : List α) :
    I (observe step see c s actions) (run step s actions) := by
  induction actions generalizing c s with
  | nil => exact hs
  | cons a actions ih => exact ih (see c s a) (step s a) (hstep c s a hs)

theorem observe_of_meets {γ : Type} {see : γ → σ → α → γ} {I : γ → σ → Prop} {Q : σ → α → Prop}
    (hstep : ∀ c s a, Q s a → I c s → I (see c s a) (step s a)) (c : γ) (s : σ) (hs : I c s) (actions : List α)
    (hq : Meets step Q s actions) : I (observe step see c s actions) (run step s actions) := by
  induction actions generalizing c s with
  | nil => exact hs
  | cons a actions ih => exact ih (see c s a) (step s a) (hstep c s a hq.1 hs) hq.2

theorem meets_of_forall {Q : α → Prop} {actions : List α} (h : ∀ a ∈ actions, Q a) (s : σ) :
    Meets step (fun _ a => Q a) s actions := by
  induction actions generalizing s with
  | nil => trivial
  | cons a actions ih =>
    exact ⟨h a List.mem_cons_self, ih (fun b hb => h b (List.mem_cons_of_mem a hb)) (step s a)⟩

theorem invariant_of_meets {I : σ → Prop} {Q : σ → α → Prop} (hstep : ∀ s a, Q s a → I s → I (step s a)) (s : σ)
    (hs : I s) (actions : List α) (hq : Meets step Q s actions) (n : ℕ) : I (run step s (actions.take n)) := by
  induction actions generalizing s n with
  | nil =>
    rw [List.take_nil]
    exact hs
  | cons a actions ih =>
    cases n with
    | zero => exact hs
    | succ n => exact ih (step s a) (hstep s a hq.1 hs) hq.2 n

/-- When a step keeps the property exactly if it meets the condition, a run has
the property in all its states exactly if all its steps meet the condition. -/
theorem forall_states_iff_meets_of_invariant {I J : σ → Prop} {Q : σ → α → Prop} (hJ : ∀ s a, J s → J (step s a))
    (hstep : ∀ s a, J s → I s → (I (step s a) ↔ Q s a)) (s : σ) (hj : J s) (hs : I s) (actions : List α) :
    (∀ n, I (run step s (actions.take n))) ↔ Meets step Q s actions := by
  induction actions generalizing s with
  | nil => simp [Meets, run, hs]
  | cons a actions ih =>
    constructor
    · intro h
      have ha : I (step s a) := by simpa [run] using h 1
      exact ⟨(hstep s a hj hs).mp ha, (ih _ (hJ s a hj) ha).mp (fun n => by simpa [run] using h (n + 1))⟩
    · rintro ⟨hq, hm⟩ n
      have ha : I (step s a) := (hstep s a hj hs).mpr hq
      cases n with
      | zero => exact hs
      | succ n => simpa [run] using (ih _ (hJ s a hj) ha).mpr hm n

theorem forall_states_iff_meets {I : σ → Prop} {Q : σ → α → Prop}
    (hstep : ∀ s a, I s → (I (step s a) ↔ Q s a)) (s : σ) (hs : I s) (actions : List α) :
    (∀ n, I (run step s (actions.take n))) ↔ Meets step Q s actions :=
  forall_states_iff_meets_of_invariant step (J := fun _ => True) (fun _ _ hj => hj) (fun s a _ => hstep s a) s trivial
    hs actions

/-- When a step that breaks the condition spoils the state, a run without spoilt
states has only steps that meet it. -/
theorem meets_of_forall_states {I G : σ → Prop} {Q : σ → α → Prop} (hspoilt : ∀ s a, I s → G (step s a) → Q s a)
    (hstep : ∀ s a, Q s a → I s → I (step s a)) (s : σ) (hs : I s) (actions : List α)
    (h : ∀ n, G (run step s (actions.take n))) : Meets step Q s actions := by
  induction actions generalizing s with
  | nil => trivial
  | cons a actions ih =>
    have ha : Q s a := hspoilt s a hs (h 1)
    exact ⟨ha, ih (step s a) (hstep s a ha hs) (fun n => h (n + 1))⟩

theorem meets_congr_of_invariant {I : σ → Prop} {Q Q' : σ → α → Prop} (hQ : ∀ s a, I s → (Q s a ↔ Q' s a))
    (hstep : ∀ s a, I s → Q s a → I (step s a)) (s : σ) (hs : I s) (actions : List α) :
    Meets step Q s actions ↔ Meets step Q' s actions := by
  induction actions generalizing s with
  | nil => exact Iff.rfl
  | cons a actions ih =>
    simp only [Meets]
    rw [← hQ s a hs]
    exact and_congr_right (fun hq => ih (step s a) (hstep s a hs hq))

theorem Meets.imp {Q Q' : σ → α → Prop} (h : ∀ s a, Q s a → Q' s a) {s : σ} {actions : List α}
    (hm : Meets step Q s actions) : Meets step Q' s actions := by
  induction actions generalizing s with
  | nil => exact hm
  | cons a actions ih => exact ⟨h s a hm.1, ih hm.2⟩

theorem exists_step_of_not {Q : σ → Prop} {s : σ} (hs : ¬ Q s) {actions : List α} (h : Q (run step s actions)) :
    ∃ before a after, actions = before ++ a :: after ∧ ¬ Q (run step s before) ∧ Q (step (run step s before) a) := by
  induction actions generalizing s with
  | nil => exact absurd h hs
  | cons a actions ih =>
    by_cases ha : Q (step s a)
    · exact ⟨[], a, actions, rfl, hs, ha⟩
    · obtain ⟨before, b, after, rfl, hbefore, hb⟩ := ih ha h
      exact ⟨a :: before, b, after, rfl, hbefore, hb⟩

section Trace

variable {γ : Type} (out : σ → α → List γ)

def trace : σ → List α → List γ
  | _, [] => []
  | s, a :: actions => out s a ++ trace (step s a) actions

theorem trace_append (s : σ) (actions actions' : List α) :
    trace step out s (actions ++ actions') =
      trace step out s actions ++ trace step out (run step s actions) actions' := by
  induction actions generalizing s with
  | nil => rfl
  | cons a actions ih =>
    rw [List.cons_append, trace, trace, run_cons, ih, List.append_assoc]

theorem trace_concat (s : σ) (actions : List α) (a : α) :
    trace step out s (actions ++ [a]) = trace step out s actions ++ out (run step s actions) a := by
  rw [trace_append, trace, trace, List.append_nil]

variable {step out} {R : σ → σ → Prop} {own : α → Bool}

theorem trace_purge_length (hown : ∀ s s' a, R s s' → own a = true → R (step s a) (step s' a))
    (hother : ∀ s s' a, R s s' → own a = false → R (step s a) s')
    (hlen : ∀ s s' a, R s s' → own a = true → (out s' a).length ≤ (out s a).length) (s s' : σ) (hR : R s s')
    (actions : List α) : (trace step out s' (actions.filter own)).length ≤ (trace step out s actions).length := by
  induction actions generalizing s s' with
  | nil => exact Nat.le_refl _
  | cons a actions ih =>
    simp only [trace, List.length_append]
    cases ha : own a with
    | true =>
      have hrest := ih _ _ (hown s s' a hR ha)
      have hfirst := hlen s s' a hR ha
      rw [List.filter_cons_of_pos ha, trace, List.length_append]
      omega
    | false =>
      have hrest := ih _ _ (hother s s' a hR ha)
      rw [List.filter_cons_of_neg (by rw [ha]; exact Bool.false_ne_true)]
      omega

/-- The output of a run is that of the run from which the actions of others are
removed, exactly if no own step adds anything on their account. -/
theorem trace_purge_iff {Q : σ → α → Prop} (hown : ∀ s s' a, R s s' → own a = true → R (step s a) (step s' a))
    (hother : ∀ s s' a, R s s' → own a = false → R (step s a) s') (hsilent : ∀ s a, own a = false → out s a = [])
    (hlen : ∀ s s' a, R s s' → own a = true → (out s' a).length ≤ (out s a).length)
    (hout : ∀ s s' a, R s s' → own a = true → (out s a = out s' a ↔ Q s a)) (s s' : σ) (hR : R s s')
    (actions : List α) :
    trace step out s actions = trace step out s' (actions.filter own) ↔
      Meets step (fun s a => own a = true → Q s a) s actions := by
  induction actions generalizing s s' with
  | nil => exact iff_of_true rfl trivial
  | cons a actions ih =>
    simp only [trace, Meets]
    cases ha : own a with
    | true =>
      have hrest := trace_purge_length hown hother hlen _ _ (hown s s' a hR ha) actions
      have hfirst := hlen s s' a hR ha
      rw [List.filter_cons_of_pos ha, trace, ← ih _ _ (hown s s' a hR ha), ← hout s s' a hR ha]
      constructor
      · intro he
        have htotal := congrArg List.length he
        simp only [List.length_append] at htotal
        obtain ⟨hl, hr⟩ := List.append_inj he (by omega)
        exact ⟨fun _ => hl, hr⟩
      · rintro ⟨hl, hr⟩
        rw [hl rfl, hr]
    | false =>
      rw [List.filter_cons_of_neg (by rw [ha]; exact Bool.false_ne_true), hsilent s a ha, List.nil_append,
        ih _ _ (hother s s' a hR ha)]
      simp

end Trace

end Transition
