import Blnkk.RateBalance

/-!
When interleaved calls of `Request#rate` leave the author's counters right.
-/

namespace Blnkk

open Relational

section Runs

variable {ι : Type} [DecidableEq ι]

def rateDrift (author : ℕ) (s : RateRun ι) (schedule : List ι) : ℤ :=
  Transition.observe rateStep (fun drift s i => drift + RateProc.drift author s.shared (s.procs i)) 0 s schedule

def ratePointsFresh (author : ℕ) (s : RateRun ι) (schedule : List ι) : Bool :=
  Transition.observe rateStep (fun fresh s i => RateProc.fresh author s.shared (s.procs i) fresh) true s schedule

theorem ratePoints_run (author : ℕ) (s : RateRun ι) (schedule : List ι) (h : s.shared.PointsFresh author true) :
    (∃ j, RateProc.owes author ((Transition.run rateStep s schedule).procs j)) ∨
      (Transition.run rateStep s schedule).shared.PointsFresh author (ratePointsFresh author s schedule) := by
  refine Transition.run_observe rateStep
    (I := fun fresh s => (∃ j, RateProc.owes author (s.procs j)) ∨ s.shared.PointsFresh author fresh) ?_ true s
    (Or.inr h) schedule
  intro fresh s i hi
  exact Concurrent.owed_step RateProc.next hi
    (RateProc.statement_points s.shared (s.procs i).call (s.procs i).state author fresh)

/-- If no rating changes between a call's read and its update and no like is
credited between a reload of the author and the write after it, nothing drifts. -/
theorem undisturbed_run (author : ℕ) (s : RateRun ι) (schedule : List ι)
    (h : Transition.Meets rateStep (fun s i => (s.procs i).Undisturbed author s.shared) s schedule) :
    rateDrift author s schedule = 0 ∧ ratePointsFresh author s schedule = true := by
  constructor
  · refine Transition.observe_of_meets rateStep (I := fun drift _ => drift = 0) ?_ 0 s rfl schedule h
    intro drift s i hi hd
    rw [hd, hi.drift, add_zero]
  · refine Transition.observe_of_meets rateStep (I := fun fresh _ => fresh = true) ?_ true s rfl schedule h
    intro fresh s i hi hf
    rw [hf]
    exact hi.fresh

variable [Fintype ι]

structure RateBalanced (author : ℕ) (base drift : ℤ) (s : RateRun ι) : Prop where
  hasAuthor : s.shared.users.has author = true
  loaded : ∀ j, RateProc.Loaded s.shared.requestAuthors (s.procs j)
  balance : s.shared.likeBalance author + ∑ j, RateProc.pending author (s.procs j) = base + drift

theorem rateBalanced_step {author : ℕ} {base drift : ℤ} {s : RateRun ι} (h : RateBalanced author base drift s)
    (i : ι) : RateBalanced author base (drift + RateProc.drift author s.shared (s.procs i)) (rateStep s i) := by
  have hs := RateProc.statement_sameShape s.shared (s.procs i).call (s.procs i).state
  refine ⟨(hs.users author).trans h.hasAuthor, ?_, ?_⟩
  · apply Concurrent.forall_step (L := fun db p => RateProc.Loaded db.requestAuthors p) RateProc.next h.loaded
    · rw [RateProc.next, hs.requests]
      exact RateProc.statement_loaded s.shared (s.procs i).call (h.loaded i)
    · intro p hp
      rw [RateProc.next, hs.requests]
      exact hp
  · have hb : (rateStep s i).shared.likeBalance author + RateProc.pending author (RateProc.next s.shared (s.procs i)).2 =
        s.shared.likeBalance author + RateProc.pending author (s.procs i) +
          RateProc.drift author s.shared (s.procs i) :=
      RateProc.statement_balance h.hasAuthor (h.loaded i)
    have hsum : ∑ j, RateProc.pending author ((rateStep s i).procs j) = _ :=
      Concurrent.sum_step RateProc.next s i (RateProc.pending author)
    have hbase := h.balance
    omega

theorem rateBalanced_run {author : ℕ} {base : ℤ} {s : RateRun ι} (h : RateBalanced author base 0 s)
    (schedule : List ι) :
    RateBalanced author base (rateDrift author s schedule) (Transition.run rateStep s schedule) :=
  Transition.run_observe rateStep (I := RateBalanced author base) (fun _ _ i hi => rateBalanced_step hi i) 0 s h
    schedule

theorem finished_pending {p : RateProc} (h : p.isFinished = true) (author : ℕ) : p.pending author = 0 := by
  obtain ⟨call, state⟩ := p
  cases state <;> first | rfl | cases h

theorem finished_not_owes {p : RateProc} (h : p.isFinished = true) (author : ℕ) : ¬ p.owes author := by
  obtain ⟨call, state⟩ := p
  cases state <;> first | exact id | cases h

theorem ratings_counted_iff (P : Platform) (db : Db) (hdb : Reachable P db) (calls : ι → RateCall) (schedule : List ι)
    (final : RateRun ι) (hfinal : final = Transition.run rateStep (rateStart db calls) schedule)
    (hfinished : ∀ i, (final.procs i).isFinished = true) (author : ℕ) (before after : User)
    (hbefore : db.users.get? author = some before) (hafter : final.shared.users.get? author = some after) :
    ((after.requestLikeCount - before.requestLikeCount =
        final.shared.requestLikes author - db.requestLikes author ∧
      after.pointCount = after.points) ↔
      rateDrift author (rateStart db calls) schedule = 0 ∧
        ratePointsFresh author (rateStart db calls) schedule = true) ∧
    (Transition.Meets rateStep (fun s i => (s.procs i).Undisturbed author s.shared) (rateStart db calls) schedule →
      after.requestLikeCount - before.requestLikeCount =
          final.shared.requestLikes author - db.requestLikes author ∧
        after.pointCount = after.points) := by
  have hpoints : db.PointsFresh author true :=
    fun u hu => iff_of_true ((hdb.ledger author u hu).pointCount) rfl
  have hstart : RateBalanced author (db.likeBalance author) 0 (rateStart db calls) :=
    ⟨Table.has_of_get? hbefore, fun _ => trivial, by simp [rateStart, RateProc.pending]⟩
  have hbalance := (rateBalanced_run hstart schedule).balance
  have hfresh := ratePoints_run author (rateStart db calls) schedule hpoints
  rw [← hfinal] at hbalance hfresh
  have hpending : ∑ j, RateProc.pending author (final.procs j) = 0 :=
    Finset.sum_eq_zero (fun j _ => finished_pending (hfinished j) author)
  have howed : ¬ ∃ j, RateProc.owes author (final.procs j) := by
    rintro ⟨j, hj⟩
    exact finished_not_owes (hfinished j) author hj
  have hlikes : after.requestLikeCount - before.requestLikeCount =
      final.shared.requestLikes author - db.requestLikes author ↔
        rateDrift author (rateStart db calls) schedule = 0 := by
    rw [hpending, Db.likeBalance, Db.likeBalance, hbefore, hafter, Option.map_some, Option.map_some,
      Option.getD_some, Option.getD_some] at hbalance
    omega
  have hiff := and_congr hlikes (hfresh.resolve_left howed after hafter)
  exact ⟨hiff, fun h => hiff.mpr (undisturbed_run author _ schedule h)⟩

end Runs

def withdrawnLike : Db :=
  Transition.run (step .plain) (Db.new {})
    [.signUp "ann@blnkk.com" "ann", .signUp "bob@blnkk.com" "bob", .signUp "carol@blnkk.com" "carol",
      .createRequest 1 "bike" "wanted" none, .rateRequest 2 1 (.int 1), .rateRequest 2 1 (.int 0)]

def doubleClick : RateRun (Fin 2) :=
  Transition.run rateStep (rateStart withdrawnLike (fun _ => ⟨2, 1, .int 1⟩))
    [0, 0, 0, 1, 1, 1, 0, 1, 0, 0, 0, 0, 0, 0, 1, 1, 1, 1, 1, 1]

def likesOfBobAndCarol : Fin 2 → RateCall
  | 0 => ⟨2, 1, .int 1⟩
  | 1 => ⟨3, 1, .int 1⟩

def stalePoints : RateRun (Fin 2) :=
  Transition.run rateStep (rateStart withdrawnLike likesOfBobAndCarol)
    [0, 0, 0, 0, 0, 0, 0, 0, 0, 1, 1, 1, 1, 1, 1, 1, 1, 1, 1, 0]

theorem double_click_counted_twice :
    Reachable .plain withdrawnLike ∧
    (withdrawnLike.users.get? 1).map (fun u => (u.requestLikeCount, u.pointCount)) = some (0, 0) ∧
    withdrawnLike.requestLikes 1 = 0 ∧
    (∀ i, (doubleClick.procs i).isFinished = true) ∧
    (doubleClick.shared.users.get? 1).map (fun u => (u.requestLikeCount, u.pointCount)) = some (2, 4) ∧
    doubleClick.shared.requestLikes 1 = 1 ∧
    (∀ i, (stalePoints.procs i).isFinished = true) ∧
    (stalePoints.shared.users.get? 1).map (fun u => (u.points, u.pointCount)) = some (4, 2) := by
  refine ⟨⟨{}, _, rfl⟩, ?_⟩
  -- one evaluation of the two runs for all the values
  decide +kernel

def takingTurns : List (Fin 2) := [0, 1, 0, 1, 0, 1, 0, 1, 0, 1, 0, 1, 0, 1, 0, 1, 0, 1, 0, 1]

def likedInTurns : RateRun (Fin 2) :=
  Transition.run rateStep (rateStart withdrawnLike likesOfBobAndCarol) takingTurns

def ann : User := { id := 1, email := "ann@blnkk.com", name := "ann", requestCount := 1 }

def annLiked : User := { ann with requestLikeCount := 2, pointCount := 4 }

theorem likes_in_turns_counted :
    annLiked.requestLikeCount - ann.requestLikeCount =
        likedInTurns.shared.requestLikes 1 - withdrawnLike.requestLikes 1 ∧
      annLiked.pointCount = annLiked.points :=
  (ratings_counted_iff .plain withdrawnLike ⟨{}, _, rfl⟩ likesOfBobAndCarol takingTurns likedInTurns rfl
    (by decide +kernel) 1 ann annLiked (by rfl) (by rfl)).1.mpr (by decide +kernel)

end Blnkk
