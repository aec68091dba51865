import Blnkk.Integrity

/-!
The score columns of a request against the tables they count.
-/

namespace Blnkk

open Relational

structure Scored (db : Db) (r : Request) : Prop where
  likeCount : r.likeCount = db.likersCount (.request r.id)
  reportCount : r.reportCount = db.reportersCount (.request r.id)
  commentCount : r.commentCount = db.requestUsersCount r.id - 1
  userReachCount : r.userReachCount = db.viewingsCount r.id
  rawScore : r.rawScore = r.likeCount + 2 * r.commentCount
  score : r.score = Request.quotient r.rawScore r.userReachCount

theorem Scored.rescore_eq {db : Db} {r : Request} (h : Scored db r) (action : ScoreAction) :
    r.rescore db action = r := by
  simp only [Request.rescore, ← h.likeCount, ← h.reportCount, ← h.commentCount, ← h.userReachCount, ite_self,
    ← h.rawScore, ← h.score]

theorem rescore_scored (db : Db) (action : ScoreAction) (r : Request)
    (hl : action = .rate ∨ action = .all ∨
      (r.likeCount = db.likersCount (.request r.id) ∧ r.reportCount = db.reportersCount (.request r.id)))
    (hc : action = .comment ∨ action = .all ∨ r.commentCount = db.requestUsersCount r.id - 1)
    (hv : action = .view ∨ action = .all ∨ r.userReachCount = db.viewingsCount r.id) :
    Scored db (r.rescore db action) := by
  refine ⟨?_, ?_, ?_, ?_, rfl, rfl⟩
  · simp only [Request.rescore]
    split_ifs with ha
    · rfl
    · rcases hl with h | h | h
      · exact absurd (Or.inl h) ha
      · exact absurd (Or.inr h) ha
      · exact h.1
  · simp only [Request.rescore]
    split_ifs with ha
    · rfl
    · rcases hl with h | h | h
      · exact absurd (Or.inl h) ha
      · exact absurd (Or.inr h) ha
      · exact h.2
  · simp only [Request.rescore]
    split_ifs with ha
    · rfl
    · rcases hc with h | h | h
      · exact absurd (Or.inl h) ha
      · exact absurd (Or.inr h) ha
      · exact h
  · simp only [Request.rescore]
    split_ifs with ha
    · rfl
    · rcases hv with h | h | h
      · exact absurd (Or.inl h) ha
      · exact absurd (Or.inr h) ha
      · exact h

theorem mem_updateScore {db : Db} {action : ScoreAction} {r r' : Request} (hr : db.requests.get? r.id = some r)
    (h : r' ∈ (r.updateScore db action).requests.rows) :
    r' = r.rescore db action ∨ (r' ∈ db.requests.rows ∧ r'.id ≠ r.id) := by
  have hg := Table.get?_of_mem h
  rw [Request.get?_updateScore] at hg
  by_cases he : r'.id = r.id
  · rw [if_pos he, he, hr] at hg
    exact Or.inl (Option.some.inj hg).symm
  · rw [if_neg he] at hg
    exact Or.inr ⟨Table.get?_mem hg, he⟩

structure SameScoring (db db' : Db) (id : ℕ) : Prop where
  likers : db'.likersCount (.request id) = db.likersCount (.request id)
  reporters : db'.reportersCount (.request id) = db.reportersCount (.request id)
  users : db'.requestUsersCount id = db.requestUsersCount id
  viewings : db'.viewingsCount id = db.viewingsCount id

theorem Scored.of_sameScoring {db db' : Db} {r : Request} (h : Scored db r) (hs : SameScoring db db' r.id) :
    Scored db' r :=
  ⟨h.likeCount.trans hs.likers.symm, h.reportCount.trans hs.reporters.symm,
    h.commentCount.trans (by rw [hs.users]), h.userReachCount.trans hs.viewings.symm, h.rawScore, h.score⟩

theorem Scored.of_standing {db : Db} {r r' : Request} (h : Scored db r) (hr : r'.standing = r.standing) :
    Scored db r' := by
  have hs : Scored db r'.standing := by
    rw [hr]
    exact ⟨h.likeCount, h.reportCount, h.commentCount, h.userReachCount, h.rawScore, h.score⟩
  exact ⟨hs.likeCount, hs.reportCount, hs.commentCount, hs.userReachCount, hs.rawScore, hs.score⟩

structure Scores (db : Db) : Prop where
  scored : ∀ r ∈ db.requests.rows, Scored db r
  author : ∀ r ∈ db.requests.rows, db.requestUsers.has (r.id, r.userId) = true

theorem Scores.of_requests {db db' : Db} (h : Scores db) (hq : db'.requests = db.requests)
    (hr : db'.ratings = db.ratings) (hu : db'.requestUsers = db.requestUsers) (hv : db'.viewings = db.viewings) :
    Scores db' := by
  have hs : ∀ id, SameScoring db db' id := fun id =>
    ⟨by simp only [Db.likersCount, Db.ratingCount, hr], by simp only [Db.reportersCount, Db.ratingCount, hr],
      by simp only [Db.requestUsersCount, hu], by simp only [Db.viewingsCount, hv]⟩
  refine ⟨fun r hm => ?_, fun r hm => ?_⟩
  · rw [hq] at hm
    exact (h.scored r hm).of_sameScoring (hs r.id)
  · rw [hq] at hm
    rw [hu]
    exact h.author r hm

end Blnkk
