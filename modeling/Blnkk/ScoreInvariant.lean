import Blnkk.LedgerEntries
import Blnkk.Scored
import Mathlib.Tactic.NormNum

namespace Blnkk

open Relational

theorem Scores.of_updateScore {db mid : Db} {r : Request} {action : ScoreAction} (h : Scores db)
    (hq : mid.requests = db.requests) (hr : db.requests.get? r.id = some r)
    (hself : Scored mid (r.rescore mid action)) (hother : ∀ id, id ≠ r.id → SameScoring db mid id)
    (hu : ∀ k, db.requestUsers.has k = true → mid.requestUsers.has k = true) : Scores (r.updateScore mid action) := by
  have hm : r ∈ db.requests.rows := Table.get?_mem hr
  rw [← hq] at hr
  refine ⟨fun r' hr' => ?_, fun r' hr' => ?_⟩
  · rcases mem_updateScore hr hr' with rfl | ⟨hm', hne⟩
    · exact ⟨hself.likeCount, hself.reportCount, hself.commentCount, hself.userReachCount, hself.rawScore,
        hself.score⟩
    · rw [hq] at hm'
      have hs := (h.scored r' hm').of_sameScoring (hother r'.id hne)
      exact ⟨hs.likeCount, hs.reportCount, hs.commentCount, hs.userReachCount, hs.rawScore, hs.score⟩
  · rcases mem_updateScore hr hr' with rfl | ⟨hm', -⟩
    · exact hu _ (h.author r hm)
    · rw [hq] at hm'
      exact hu _ (h.author r' hm')

theorem requestUsersCount_ensure (db : Db) (id user k : ℕ) (hk : k ≠ id) :
    Db.requestUsersCount { db with requestUsers := db.requestUsers.ensure ⟨id, user⟩ } k = db.requestUsersCount k := by
  simp only [Db.requestUsersCount]
  rw [Table.count_ensure_of]
  simp [Ne.symm hk]

theorem viewingsCount_addViewing (db : Db) (id user k : ℕ) (hk : k ≠ id) :
    (db.addViewing id user).viewingsCount k = db.viewingsCount k := by
  simp only [Db.viewingsCount, Db.addViewing, Table.update]
  rw [Table.count_updateWhere_of, Table.count_ensure_of]
  · simp [Ne.symm hk]
  · intro _
    rfl

theorem scores_joinRequest {db : Db} {r : Request} {user : ℕ} (h : Scores db) (hr : db.requests.get? r.id = some r) :
    Scores (db.joinRequest r user) := by
  have hs := h.scored r (Table.get?_mem hr)
  refine h.of_updateScore rfl hr ?_ (fun id hid => ?_) (fun k hk => ?_)
  · exact rescore_scored _ .comment r (Or.inr (Or.inr ⟨hs.likeCount, hs.reportCount⟩)) (Or.inl rfl)
      (Or.inr (Or.inr hs.userReachCount))
  · exact ⟨rfl, rfl, requestUsersCount_ensure db r.id user id hid, rfl⟩
  · exact (Table.has_ensure _ _ _).mpr (Or.inl hk)

theorem scores_rescore {db : Db} {r : Request} (h : Scores db) (hr : db.requests.get? r.id = some r) :
    Scores (r.updateScore db .comment) := by
  have hs := h.scored r (Table.get?_mem hr)
  refine h.of_updateScore rfl hr ?_ (fun id _ => ⟨rfl, rfl, rfl, rfl⟩) (fun k hk => hk)
  exact rescore_scored _ .comment r (Or.inr (Or.inr ⟨hs.likeCount, hs.reportCount⟩)) (Or.inl rfl)
    (Or.inr (Or.inr hs.userReachCount))

theorem scores_view {db : Db} {r : Request} {me : ℕ} (h : Scores db) (hr : db.requests.get? r.id = some r) :
    Scores (RequestsController.view me db r) := by
  have hs := h.scored r (Table.get?_mem hr)
  refine h.of_updateScore rfl hr ?_ (fun id hid => ?_) (fun k hk => hk)
  · exact rescore_scored _ .view r (Or.inr (Or.inr ⟨hs.likeCount, hs.reportCount⟩))
      (Or.inr (Or.inr hs.commentCount)) (Or.inl rfl)
  · exact ⟨rfl, rfl, rfl, viewingsCount_addViewing db r.id me id hid⟩

theorem sameScoring_saved (db : Db) (user : ℕ) (q : Rateable) (v : ℤ) (id : ℕ) (hq : .request id ≠ q) :
    SameScoring db (db.saveRating user q v) id := by
  refine ⟨?_, ?_, rfl, rfl⟩
  · simp only [Db.likersCount, Db.ratingCount_saveRating db user q v (.request id) 1 hq]
  · simp only [Db.reportersCount, Db.ratingCount_saveRating db user q v (.request id) (-2) hq]

theorem Scores.of_maps {mid db' : Db} {f : ℕ → User → User} (h : Scores mid) (hm : MapsUsers mid db' f) :
    Scores db' :=
  h.of_requests hm.requests hm.ratings hm.requestUsers hm.viewings

theorem Scores.of_saved {db mid : Db} {user : ℕ} {q : Rateable} {v : ℤ} (h : Scores db)
    (hq : ∀ id, .request id ≠ q) (hr : mid.ratings = (db.saveRating user q v).ratings)
    (hrequests : mid.requests = db.requests) (hu : mid.requestUsers = db.requestUsers)
    (hv : mid.viewings = db.viewings) : Scores mid := by
  have hs : Scores (db.saveRating user q v) :=
    ⟨fun r hm => (h.scored r hm).of_sameScoring (sameScoring_saved db user q v r.id (hq r.id)), h.author⟩
  exact hs.of_requests hrequests hr hu hv

theorem scores_rateRequest {db : Db} {r : Request} {user : ℕ} {v : ℤ} (h : Scores db)
    (hr : db.requests.get? r.id = some r) : Scores (r.rated db user v) := by
  have hs := h.scored r (Table.get?_mem hr)
  have hm : Scores (r.updateScore (db.saveRating user (.request r.id) v) .rate) := by
    refine h.of_updateScore rfl hr ?_ (fun id hid => ?_) (fun k hk => hk)
    · exact rescore_scored _ .rate r (Or.inl rfl) (Or.inr (Or.inr hs.commentCount))
        (Or.inr (Or.inr hs.userReachCount))
    · exact sameScoring_saved db user _ v id (fun he => hid (Rateable.request.inj he))
  exact hm.of_maps (Request.rated_maps db r user v)

theorem scores_request {db : Db} (h : Scores db) (id : ℕ) (f : Request → Request) (hf : ∀ r, (f r).id = r.id)
    (hr : ∀ r, (f r).standing = r.standing) : Scores { db with requests := db.requests.update id f hf } := by
  have hm : ∀ r' ∈ (db.requests.update id f hf).rows, ∃ r ∈ db.requests.rows, r'.standing = r.standing := by
    intro r' hr'
    obtain ⟨r, hm, he⟩ := Table.mem_updateWhere.mp hr'
    refine ⟨r, hm, ?_⟩
    split_ifs at he
    · rw [← he, hr]
    · rw [he]
  refine ⟨fun r' hr' => ?_, fun r' hr' => ?_⟩
  · obtain ⟨r, hmem, he⟩ := hm r' hr'
    have hs := (h.scored r hmem).of_standing he
    exact ⟨hs.likeCount, hs.reportCount, hs.commentCount, hs.userReachCount, hs.rawScore, hs.score⟩
  · obtain ⟨r, hmem, he⟩ := hm r' hr'
    have hi : r'.standing.id = r.standing.id := by rw [he]
    have hu : r'.standing.userId = r.standing.userId := by rw [he]
    have ha := h.author r hmem
    rw [← show r'.id = r.id from hi, ← show r'.userId = r.userId from hu] at ha
    exact ha

theorem count_requestUsers_fresh {db : Db} (h : Consistent db) (me : ℕ) :
    (db.requestUsers.ensure ⟨db.requests.fresh, me⟩).count
      (fun ru => decide (ru.requestId = db.requests.fresh)) = 1 := by
  have hn : ∀ ru ∈ db.requestUsers.rows, ru.requestId ≠ db.requests.fresh := by
    intro ru hru he
    have hh := h.requestUsers ru.requestId ru.userId (Table.has_of_mem hru)
    rw [he, db.requests.has_fresh] at hh
    cases hh
  have hf : db.requestUsers.has (db.requests.fresh, me) = false := by
    refine (Table.has_false_iff _ _).mpr ((Table.get?_none_iff _ _).mpr (fun ru hru he => ?_))
    exact hn ru hru (Prod.mk.inj he).1
  have hz : db.requestUsers.rows.countP (fun ru => decide (ru.requestId = db.requests.fresh)) = 0 :=
    List.countP_eq_zero.mpr (fun ru hru => by simpa using hn ru hru)
  simp [Table.count, Table.ensure_rows, RequestUser.index, hf, hz]

theorem viewingsCount_absent {db : Db} (h : Consistent db) {id : ℕ} (hid : db.requests.has id = false) :
    db.viewingsCount id = 0 := by
  have hz : db.viewings.count (fun v => decide (v.viewable = .request id)) = 0 := by
    apply List.countP_eq_zero.mpr
    intro v hv
    by_cases he : v.viewable = .request id
    · have hh : db.viewings.has (.request id, v.userId) = true := by
        have hm := Table.has_of_mem hv
        rwa [Viewing.index, he] at hm
      rw [h.viewings id v.userId hh] at hid
      cases hid
    · simp [he]
  rw [Db.viewingsCount, hz]
  rfl

theorem scores_post {db : Db} (h : Scores db) (hi : Consistent db) (me : ℕ) (subject content : String)
    (reward : Option String) : Scores (RequestsController.post db me subject content reward) := by
  have hmem : ∀ r ∈ (RequestsController.post db me subject content reward).requests.rows,
      r ∈ db.requests.rows ∨ r = { id := db.requests.fresh, userId := me, subject, content, reward } := by
    intro r hr
    simp only [RequestsController.post, Table.insertFresh_rows, List.mem_append, List.mem_singleton] at hr
    exact hr
  refine ⟨fun r hr => ?_, fun r hr => ?_⟩
  · rcases hmem r hr with hm | rfl
    · have hne : r.id ≠ db.requests.fresh := Nat.ne_of_lt (Table.lt_fresh hm)
      exact (h.scored r hm).of_sameScoring ⟨rfl, rfl, requestUsersCount_ensure db db.requests.fresh me r.id hne, rfl⟩
    · have hq : db.hasRateable (.request db.requests.fresh) = false := db.requests.has_fresh
      refine ⟨?_, ?_, ?_, ?_, rfl, ?_⟩
      · exact congrArg Nat.cast (ratingCount_absent hi hq 1).symm
      · exact congrArg Nat.cast (ratingCount_absent hi hq (-2)).symm
      · simp only [RequestsController.post, Db.requestUsersCount, count_requestUsers_fresh hi me]
        rfl
      · exact (viewingsCount_absent hi db.requests.has_fresh).symm
      · exact Request.quotient_one.symm
  · rcases hmem r hr with hm | rfl
    · exact (Table.has_ensure _ _ _).mpr (Or.inl (h.author r hm))
    · exact (Table.has_ensure _ _ _).mpr (Or.inr rfl)

theorem Change.scores {db db' : Db} (hc : Change db db') (hi : Consistent db) (h : Scores db) : Scores db' := by
  cases hc with
  | settings settings => exact h.of_requests rfl rfl rfl rfl
  | messages messages => exact h.of_requests rfl rfl rfl rfl
  | invitations invitations => exact h.of_requests rfl rfl rfl rfl
  | user id f hf hr => exact h.of_requests rfl rfl rfl rfl
  | request id f hf hr => exact scores_request h id f hf hr
  | comment id f hf hr => exact h.of_requests rfl rfl rfl rfl
  | conversation id f hf => exact h.of_requests rfl rfl rfl rfl
  | flags p f hf => exact h.of_requests rfl rfl rfl rfl
  | newUser u hu hr => exact h.of_requests rfl rfl rfl rfl
  | newRequest me subject content reward hme => exact scores_post h hi me subject content reward
  | newComment me requestId content hme => exact h.of_requests rfl rfl rfl rfl
  | newConversation now me other id created hme hother hn hk =>
    obtain ⟨-, t, rfl, -⟩ := ConversationsSocket.createConversation_ok hk
    exact h.of_requests rfl rfl rfl rfl
  | halfConversation now me other left hme hn hk =>
    obtain ⟨t, rfl, -⟩ := ConversationsSocket.createConversation_error hk
    exact h.of_requests rfl rfl rfl rfl
  | joinRequest r user hr hu => exact scores_joinRequest h hr
  | rescore r hr => exact scores_rescore h hr
  | view r me hr hme => exact scores_view h hr
  | rateUser self user v hv =>
    exact (h.of_saved (by simp) rfl rfl rfl rfl).of_maps (User.rated_maps db self user v)
  | rateRequest r user v hr hv => exact scores_rateRequest h hr
  | rateComment c user v hc hv =>
    have hs : Scores (c.updateScore (db.saveRating user (.comment c.id) v) .rate) :=
      Scores.of_saved (q := .comment c.id) (v := v) h (by simp) rfl rfl rfl rfl
    exact hs.of_maps (Comment.rated_maps db c user v)
  | rateConversation c user v hv =>
    exact (h.of_saved (by simp) rfl rfl rfl rfl).of_maps (Conversation.rated_maps db c user v)

theorem Reachable.scores {P : Platform} {db : Db} (h : Reachable P db) : Scores db := by
  refine h.invariant_of_consistent (fun settings => ⟨fun r hr => ?_, fun r hr => ?_⟩) (fun _ _ => Change.scores)
  · cases hr
  · cases hr

end Blnkk
