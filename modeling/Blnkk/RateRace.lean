import Blnkk.Lib.Concurrent
import Blnkk.Operations

/-!
Calls of `Request#rate` that interleave statement by statement.
-/

namespace Blnkk

open Relational

structure RateCall where
  user : ℕ
  request : ℕ
  rating : Param

inductive RateState where
  | start
  | loaded (row : Request)
  | found (row : Request) (oldRating : Option ℤ)
  | validated (row : Request) (oldRating : Option ℤ) (v : ℤ)
  | saved (row : Request) (diffRate : ℤ)
  | liked (row : Request) (diffRate likeCount : ℤ)
  | reported (row : Request) (diffRate likeCount reportCount : ℤ)
  | scored (author : ℕ) (diffRate : ℤ)
  | credited (author : ℕ)
  | reloaded (author : ℕ) (u : User)
  | finished

structure RateProc where
  call : RateCall
  state : RateState

def Request.rescored (r : Request) (likeCount reportCount : ℤ) : Request :=
  { r with
    likeCount
    reportCount
    rawScore := likeCount + 2 * r.commentCount
    score := quotient (likeCount + 2 * r.commentCount) r.userReachCount }

theorem Rating.index_rated (v : ℤ) (r : Rating) : ({ r with rating := v } : Rating).index = r.index := rfl

def Db.replaceRating (db : Db) (user : ℕ) (q : Rateable) (v : ℤ) : Db :=
  { db with ratings := db.ratings.update (user, q) (fun r => { r with rating := v }) (Rating.index_rated v) }

theorem User.addRequestLikes_id (d : ℤ) (u : User) : (User.addRequestLikes d u).id = u.id := rfl

namespace RateProc

/-- The rating statement of a validated call: an insert for a new rating, which
raises when another call has inserted it meanwhile, and an update for a found
one, which is skipped when the value does not change. -/
def saveStatement (db : Db) (user : ℕ) (row : Request) (oldRating : Option ℤ) (v : ℤ) : Db × RateState :=
  match oldRating with
  | none =>
    match db.ratings.insert ⟨user, .request row.id, v⟩ with
    | some ratings => ({ db with ratings }, .saved row v)
    | none => (db, .finished)
  | some o =>
    if v = o then (db, .saved row 0) else (db.replaceRating user (.request row.id) v, .saved row (v - o))

def statement (db : Db) (call : RateCall) : RateState → Db × RateState
  | .start =>
    match db.requests.get? call.request with
    | some row => (db, if db.users.has call.user then .loaded row else .finished)
    | none => (db, .finished)
  | .loaded row => (db, .found row (db.ratingOf call.user (.request row.id)))
  | .found row oldRating =>
    match db.validateRating oldRating.isNone call.user (.request row.id) call.rating with
    | .ok v => (db, .validated row oldRating v)
    | .error _ => (db, .finished)
  | .validated row oldRating v => saveStatement db call.user row oldRating v
  | .saved row diffRate => (db, .liked row diffRate (db.likersCount (.request row.id)))
  | .liked row diffRate likeCount => (db, .reported row diffRate likeCount (db.reportersCount (.request row.id)))
  | .reported row diffRate likeCount reportCount =>
    ({ db with
        requests := db.requests.update row.id (fun r => r.scoreColumns (row.rescored likeCount reportCount)) },
      .scored row.userId diffRate)
  | .scored author diffRate => (db.addLikes User.addRequestLikes author diffRate User.addRequestLikes_id, .credited author)
  | .credited author =>
    match db.users.get? author with
    | some u => (db, .reloaded author u)
    | none => (db, .finished)
  | .reloaded author u => (db.updateUser author (fun row => { row with pointCount := u.points }), .finished)
  | .finished => (db, .finished)

def next (db : Db) (p : RateProc) : Db × RateProc :=
  ((statement db p.call p.state).1, { p with state := (statement db p.call p.state).2 })

def isFinished (p : RateProc) : Bool :=
  match p.state with
  | .finished => true
  | _ => false

theorem saveStatement_cases (db : Db) (user : ℕ) (row : Request) (oldRating : Option ℤ) (v : ℤ) :
    (oldRating = none ∧ saveStatement db user row oldRating v = (db, .finished)) ∨
    (oldRating = some v ∧ saveStatement db user row oldRating v = (db, .saved row 0)) ∨
    (oldRating = none ∧ db.ratingOf user (.request row.id) = none ∧
      saveStatement db user row oldRating v = (db.saveRating user (.request row.id) v, .saved row v)) ∨
    (∃ o, oldRating = some o ∧ v ≠ o ∧
      saveStatement db user row oldRating v = (db.replaceRating user (.request row.id) v, .saved row (v - o))) := by
  cases oldRating with
  | none =>
    cases hi : db.ratings.insert ⟨user, .request row.id, v⟩ with
    | none => simp [saveStatement, hi]
    | some ratings =>
      have hn : db.ratingOf user (.request row.id) = none := by
        rw [Db.ratingOf, Option.map_eq_none_iff]
        exact (Table.insert_eq_some hi).1
      simp [saveStatement, Db.saveRating, hi, hn]
  | some o =>
    by_cases hv : v = o
    · simp [saveStatement, hv]
    · simp [saveStatement, hv]

theorem saveStatement_alone (db : Db) (user : ℕ) (row : Request) (v : ℤ) :
    saveStatement db user row (db.ratingOf user (.request row.id)) v =
      (db.saveRating user (.request row.id) v, .saved row (v - (db.ratingOf user (.request row.id)).getD 0)) := by
  rcases Db.saveRating_cases db user (.request row.id) v with ⟨hn, -⟩ | ⟨r, hr, he⟩
  · have hi : db.ratings.insert ⟨user, .request row.id, v⟩ = some (db.ratings.push _ hn) := dif_pos hn
    simp [saveStatement, Db.saveRating, Db.ratingOf, hn, hi]
  · have ho : db.ratingOf user (.request row.id) = some r.rating := by rw [Db.ratingOf, hr, Option.map_some]
    rw [ho, he]
    by_cases hv : v = r.rating
    · have hs : db.ratings.update (user, .request row.id) (fun r => { r with rating := v }) = db.ratings := by
        apply Table.update_eq_self
        intro a ha
        rw [hr, Option.some.injEq] at ha
        rw [← ha, hv]
      rw [hs]
      simp [saveStatement, hv]
    · simp [saveStatement, Db.replaceRating, hv]

theorem points_alone (db : Db) (author : ℕ) {u : User} (hu : db.users.get? author = some u) :
    db.updateUser author (fun row => { row with pointCount := u.points }) = db.updatePoints author := by
  have ht : db.users.update author (fun row => { row with pointCount := u.points }) =
      db.users.update author User.withPoints := by
    apply Table.update_congr
    intro a ha
    rw [hu, Option.some.injEq] at ha
    rw [← ha]
    rfl
  exact congrArg (fun users => { db with users }) ht

theorem points_absent (db : Db) (author : ℕ) (hu : db.users.get? author = none) : db.updatePoints author = db := by
  have ht : db.users.update author User.withPoints (fun _ => rfl) = db.users := by
    apply Table.update_eq_self
    intro a ha
    rw [hu] at ha
    cases ha
  exact congrArg (fun users => { db with users }) ht

theorem saved_alone (db : Db) (call : RateCall) (row : Request) (diffRate : ℤ) :
    (fun c : Db × RateProc => next c.1 c.2)^[6] (db, ⟨call, .saved row diffRate⟩) =
      (((row.updateScore db .rate).addLikes User.addRequestLikes row.userId diffRate).updatePoints row.userId,
        ⟨call, .finished⟩) := by
  have hfirst : (fun c : Db × RateProc => next c.1 c.2)^[4] (db, ⟨call, .saved row diffRate⟩) =
      ((row.updateScore db .rate).addLikes User.addRequestLikes row.userId diffRate,
        ⟨call, .credited row.userId⟩) := rfl
  rw [Function.iterate_add_apply _ 2 4, hfirst]
  generalize (row.updateScore db .rate).addLikes User.addRequestLikes row.userId diffRate = credited
  cases hu : credited.users.get? row.userId with
  | none => simp [next, statement, hu, points_absent credited row.userId hu]
  | some u => simp [next, statement, hu, points_alone credited row.userId hu]

theorem statements_alone (db : Db) (call : RateCall) :
    ∃ n, (fun c : Db × RateProc => next c.1 c.2)^[n] (db, ⟨call, .start⟩) =
      (db.rateRequest call.user call.request call.rating, ⟨call, .finished⟩) := by
  cases hr : db.requests.get? call.request with
  | none => exact ⟨1, by simp [next, statement, Db.rateRequest, hr]⟩
  | some row =>
    cases hu : db.users.has call.user with
    | false => exact ⟨1, by simp [next, statement, Db.rateRequest, hr, hu]⟩
    | true =>
      cases ha : db.assignRating call.user (.request row.id) call.rating with
      | error errors =>
        have hv := ha
        rw [Db.assignRating] at hv
        exact ⟨3, by simp [next, statement, Db.rateRequest, Request.rate, hr, hu, ha, hv]⟩
      | ok v =>
        have hv := ha
        rw [Db.assignRating] at hv
        have hdb : db.rateRequest call.user call.request call.rating = row.rated db call.user v := by
          simp [Db.rateRequest, Request.rate, hr, hu, ha]
        rw [hdb]
        have hfirst : (fun c : Db × RateProc => next c.1 c.2)^[4] (db, ⟨call, .start⟩) =
            (db.saveRating call.user (.request row.id) v,
              ⟨call, .saved row (v - (db.ratingOf call.user (.request row.id)).getD 0)⟩) := by
          simp [next, statement, hr, hu, hv, saveStatement_alone]
        exact ⟨10, by rw [Function.iterate_add_apply _ 6 4, hfirst, saved_alone]; rfl⟩

end RateProc

abbrev RateRun (ι : Type) := Concurrent.State Db ι RateProc

def rateStart {ι : Type} (db : Db) (calls : ι → RateCall) : RateRun ι := ⟨db, fun i => ⟨calls i, .start⟩⟩

def rateStep {ι : Type} [DecidableEq ι] : RateRun ι → ι → RateRun ι := Concurrent.step RateProc.next

/-- A call whose turns no other call interrupts is the complete operation. -/
theorem rate_alone {ι : Type} [DecidableEq ι] (s : RateRun ι) (i : ι) (call : RateCall)
    (hs : s.procs i = ⟨call, .start⟩) :
    ∃ n, (Transition.run rateStep s (List.replicate n i)).shared =
      s.shared.rateRequest call.user call.request call.rating := by
  obtain ⟨n, hn⟩ := RateProc.statements_alone s.shared call
  have hrun := Concurrent.run_alone RateProc.next i n s
  rw [hs, hn, Prod.mk.injEq] at hrun
  exact ⟨n, hrun.1⟩

end Blnkk
