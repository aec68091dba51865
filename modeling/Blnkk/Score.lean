import Blnkk.Lib.Rounding
import Blnkk.Rating

namespace Blnkk

open Relational

inductive ScoreAction where
  | rate
  | comment
  | view
  | all
  deriving DecidableEq

namespace Db

variable (db : Db)

def likersCount (q : Rateable) : ℤ := db.ratingCount q 1

def reportersCount (q : Rateable) : ℤ := db.ratingCount q (-2)

def requestUsersCount (id : ℕ) : ℤ := db.requestUsers.count (fun ru => decide (ru.requestId = id))

def viewingsCount (id : ℕ) : ℤ := db.viewings.count (fun v => decide (v.viewable = .request id))

end Db

namespace Request

/-- The quotient is computed as a double and kept in a `FLOAT` column. -/
def quotient (rawScore userReachCount : ℤ) : ℚ :=
  Rounding.toDigits 24 (Rounding.toDigits 53 ((max 1 rawScore : ℤ) / (max 1 userReachCount : ℤ)))

theorem quotient_one : quotient 0 0 = 1 := by decide +kernel

theorem abs_quotient_sub_le (rawScore userReachCount : ℤ) :
    |quotient rawScore userReachCount - (max 1 rawScore : ℤ) / (max 1 userReachCount : ℤ)| ≤
      (max 1 rawScore : ℤ) / (max 1 userReachCount : ℤ) / 2 ^ 23 := by
  have hraw : (0 : ℚ) < (max 1 rawScore : ℤ) := by exact_mod_cast Int.lt_of_lt_of_le Int.one_pos (le_max_left 1 rawScore)
  have hreach : (0 : ℚ) < (max 1 userReachCount : ℤ) := by
    exact_mod_cast Int.lt_of_lt_of_le Int.one_pos (le_max_left 1 userReachCount)
  have hpos : (0 : ℚ) < (max 1 rawScore : ℤ) / (max 1 userReachCount : ℤ) := div_pos hraw hreach
  unfold quotient
  generalize ((max 1 rawScore : ℤ) / (max 1 userReachCount : ℤ) : ℚ) = q at hpos
  have hdouble := abs_le.mp (Rounding.abs_toDigits_sub_le 53 hpos)
  have hsingle := abs_le.mp (Rounding.abs_toDigits_sub_le 24 (Rounding.toDigits_pos (p := 53) (by omega) hpos))
  rw [abs_le]
  constructor <;> linarith [hdouble.1, hdouble.2, hsingle.1, hsingle.2]

/-- The six columns `update_score` computes, from the object it was called on
and the tables it counts. -/
def rescore (db : Db) (action : ScoreAction) (r : Request) : Request :=
  let newLikeCount := if action = .rate ∨ action = .all then db.likersCount (.request r.id) else r.likeCount
  let newReportCount := if action = .rate ∨ action = .all then db.reportersCount (.request r.id) else r.reportCount
  let newCommentCount := if action = .comment ∨ action = .all then db.requestUsersCount r.id - 1 else r.commentCount
  let newUserReachCount := if action = .view ∨ action = .all then db.viewingsCount r.id else r.userReachCount
  let newRawScore := newLikeCount + 2 * newCommentCount
  let newScore := quotient newRawScore newUserReachCount
  { r with
    likeCount := newLikeCount
    reportCount := newReportCount
    commentCount := newCommentCount
    userReachCount := newUserReachCount
    rawScore := newRawScore
    score := newScore }

def scoreColumns (row r : Request) : Request :=
  { row with
    likeCount := r.likeCount
    reportCount := r.reportCount
    commentCount := r.commentCount
    userReachCount := r.userReachCount
    rawScore := r.rawScore
    score := r.score }

/-- `update_columns` writes all six columns, whatever the action recomputed. -/
def updateScore (db : Db) (action : ScoreAction) (r : Request) : Db :=
  { db with requests := db.requests.update r.id (fun row => row.scoreColumns (r.rescore db action)) }

theorem get?_updateScore (db : Db) (action : ScoreAction) (r : Request) (id : ℕ) :
    (r.updateScore db action).requests.get? id =
      if id = r.id then (db.requests.get? id).map (fun row => row.scoreColumns (r.rescore db action))
      else db.requests.get? id :=
  Table.get?_update db.requests r.id (fun row => row.scoreColumns (r.rescore db action)) (fun _ => rfl) id

end Request

namespace Comment

def rescore (db : Db) (action : ScoreAction) (c : Comment) : Comment :=
  { c with
    likeCount := if action = .rate ∨ action = .all then db.likersCount (.comment c.id) else c.likeCount
    reportCount := if action = .rate ∨ action = .all then db.reportersCount (.comment c.id) else c.reportCount }

def scoreColumns (row c : Comment) : Comment :=
  { row with likeCount := c.likeCount, reportCount := c.reportCount }

def updateScore (db : Db) (action : ScoreAction) (c : Comment) : Db :=
  { db with comments := db.comments.update c.id (fun row => row.scoreColumns (c.rescore db action)) }

theorem get?_updateScore (db : Db) (action : ScoreAction) (c : Comment) (id : ℕ) :
    (c.updateScore db action).comments.get? id =
      if id = c.id then (db.comments.get? id).map (fun row => row.scoreColumns (c.rescore db action))
      else db.comments.get? id :=
  Table.get?_update db.comments c.id (fun row => row.scoreColumns (c.rescore db action)) (fun _ => rfl) id

end Comment

end Blnkk
