import Blnkk.Ledger

namespace Blnkk

open Relational

section Absent

variable {db : Db} (h : Consistent db)

include h

theorem ratingSum_absent {q : Rateable} (hq : db.hasRateable q = false) : db.ratingSum q = 0 := by
  apply Table.sum_zero
  intro r hr
  rw [if_neg]
  rintro rfl
  simpa [hq] using (h.ratings r hr).rateable

theorem ratingCount_absent {q : Rateable} (hq : db.hasRateable q = false) (x : ℤ) : db.ratingCount q x = 0 := by
  apply List.countP_eq_zero.mpr
  intro r hr
  have hv := (h.ratings r hr).rateable
  by_cases he : r.rateable = q
  · rw [he, hq] at hv
    cases hv
  · simp [he]

theorem othersRatingSum_absent (k : ℕ) {c : ℕ} (hc : db.conversations.has c = false) :
    db.othersRatingSum k c = 0 := by
  apply Table.sum_zero
  intro r hr
  rw [if_neg]
  rintro ⟨he, -⟩
  have hv := (h.ratings r hr).rateable
  rw [he, Db.hasRateable, hc] at hv
  cases hv

theorem followingCount_absent {k : ℕ} (hk : db.users.has k = false) : db.followingCount k = 0 := by
  have hn : db.ratings.count
      (fun r => decide (r.userId = k) && r.rateable.isUser && decide (r.rating = 1)) = 0 := by
    apply List.countP_eq_zero.mpr
    intro r hr
    have hv := (h.ratings r hr).rater
    by_cases he : r.userId = k
    · rw [he, hk] at hv
      cases hv
    · simp [he]
  rw [Db.followingCount, hn]
  rfl

theorem requestLikes_absent {k : ℕ} (hk : db.users.has k = false) : db.requestLikes k = 0 := by
  apply Table.sum_zero
  intro r hr
  rw [if_neg]
  rintro rfl
  have hv := h.author hr
  rw [hk] at hv
  cases hv

theorem commentLikes_absent {k : ℕ} (hk : db.users.has k = false) : db.commentLikes k = 0 := by
  apply Table.sum_zero
  intro c hc
  rw [if_neg]
  rintro rfl
  have hv := h.comments (c.id, c.userId) (List.mem_map.mpr ⟨c, hc, rfl⟩)
  rw [hk] at hv
  cases hv

theorem conversationLikes_absent {k : ℕ} (hk : db.users.has k = false) : db.conversationLikes k = 0 := by
  apply Table.sum_zero
  intro cu hcu
  rw [if_neg]
  rintro rfl
  have hv := (h.memberships cu.index (List.mem_map.mpr ⟨cu, hcu, rfl⟩)).2
  rw [hk] at hv
  cases hv

theorem ledgerOf_absent {k : ℕ} (hk : db.users.has k = false) :
    LedgerOf db k { id := k, email := "", name := "" } := by
  have hq : db.hasRateable (.user k) = false := hk
  refine ⟨?_, ?_, ?_, ?_, ?_, ?_, rfl⟩
  · rw [Db.likersCount, ratingCount_absent h hq]
    rfl
  · exact (followingCount_absent h hk).symm
  · rw [Db.reportersCount, ratingCount_absent h hq]
    rfl
  · exact (requestLikes_absent h hk).symm
  · exact (commentLikes_absent h hk).symm
  · exact (conversationLikes_absent h hk).symm

end Absent

section Saved

variable (db : Db) (user k : ℕ) (v : ℤ)

theorem likersCount_saved {q : Rateable} (hk : .user k ≠ q) :
    (db.saveRating user q v).likersCount (.user k) = db.likersCount (.user k) := by
  simp only [Db.likersCount, Db.ratingCount_saveRating db user q v (.user k) 1 hk]

theorem reportersCount_saved {q : Rateable} (hk : .user k ≠ q) :
    (db.saveRating user q v).reportersCount (.user k) = db.reportersCount (.user k) := by
  simp only [Db.reportersCount, Db.ratingCount_saveRating db user q v (.user k) (-2) hk]

theorem ledgerOf_rated_user {self : ℕ} {u : User} (h : LedgerOf db k u) :
    LedgerOf (db.saveRating user (.user self) v) k
      (u.afterRating (db.saveRating user (.user self) v) self user k) := by
  have hr := requestLikes_saved db user (.user self) v k
  have hc := commentLikes_saved db user (.user self) v k
  have hv := conversationLikes_saved db user (.user self) v k
  simp only [add_zero] at hr hc hv
  by_cases hs : k = self
  · subst hs
    by_cases hu : k = user
    · subst hu
      simp only [User.afterRating, if_true]
      exact ⟨rfl, rfl, rfl, h.requestLikeCount.trans hr.symm, h.commentLikeCount.trans hc.symm,
        h.conversationLikeCount.trans hv.symm, rfl⟩
    · have hf := followingCount_saved db user (.user k) v k (Or.inr (Ne.symm hu))
      simp only [User.afterRating, if_true, if_neg hu]
      exact ⟨rfl, h.followingCount.trans hf.symm, rfl, h.requestLikeCount.trans hr.symm,
        h.commentLikeCount.trans hc.symm, h.conversationLikeCount.trans hv.symm, rfl⟩
  · have hk : Rateable.user k ≠ .user self := fun he => hs (Rateable.user.inj he)
    have hl := likersCount_saved db user k v hk
    have hp := reportersCount_saved db user k v hk
    by_cases hu : k = user
    · subst hu
      simp only [User.afterRating, if_true, if_neg hs]
      exact ⟨h.followerCount.trans hl.symm, rfl, h.reportCount.trans hp.symm, h.requestLikeCount.trans hr.symm,
        h.commentLikeCount.trans hc.symm, h.conversationLikeCount.trans hv.symm, h.pointCount⟩
    · have hf := followingCount_saved db user (.user self) v k (Or.inr (Ne.symm hu))
      simp only [User.afterRating, if_neg hs, if_neg hu]
      exact h.of_sameCounts ⟨hl, hf, hp, hr, hc, hv⟩

theorem ledgerOf_rated_request {r : Request} (hr : db.requests.get? r.id = some r) {u : User}
    (h : LedgerOf db k u) :
    LedgerOf (db.saveRating user (.request r.id) v) k
      (if k = r.userId then (u.addRequestLikes (v - (db.ratingOf user (.request r.id)).getD 0)).withPoints else u) := by
  have hl := likersCount_saved db user k v (q := .request r.id) (by simp)
  have hf := followingCount_saved db user (.request r.id) v k (Or.inl rfl)
  have hp := reportersCount_saved db user k v (q := .request r.id) (by simp)
  have hc := commentLikes_saved db user (.request r.id) v k
  have hv := conversationLikes_saved db user (.request r.id) v k
  have hq := requestLikes_saved db user (.request r.id) v k
  simp only [hr, Option.map_some, Option.getD_some] at hq
  simp only [add_zero] at hc hv
  by_cases hk : k = r.userId
  · rw [if_pos hk]
    rw [if_pos hk.symm] at hq
    refine ⟨h.followerCount.trans hl.symm, h.followingCount.trans hf.symm, h.reportCount.trans hp.symm, ?_,
      h.commentLikeCount.trans hc.symm, h.conversationLikeCount.trans hv.symm, rfl⟩
    rw [hq, ← h.requestLikeCount]
    rfl
  · rw [if_neg hk]
    rw [if_neg (Ne.symm hk), add_zero] at hq
    exact h.of_sameCounts ⟨hl, hf, hp, hq, hc, hv⟩

theorem ledgerOf_rated_comment {c : Comment} (hc : db.comments.get? c.id = some c) {u : User}
    (h : LedgerOf db k u) :
    LedgerOf (db.saveRating user (.comment c.id) v) k
      (if k = c.userId then (u.addCommentLikes (v - (db.ratingOf user (.comment c.id)).getD 0)).withPoints else u) := by
  have hl := likersCount_saved db user k v (q := .comment c.id) (by simp)
  have hf := followingCount_saved db user (.comment c.id) v k (Or.inl rfl)
  have hp := reportersCount_saved db user k v (q := .comment c.id) (by simp)
  have hr := requestLikes_saved db user (.comment c.id) v k
  have hv := conversationLikes_saved db user (.comment c.id) v k
  have hq := commentLikes_saved db user (.comment c.id) v k
  simp only [hc, Option.map_some, Option.getD_some] at hq
  simp only [add_zero] at hr hv
  by_cases hk : k = c.userId
  · rw [if_pos hk]
    rw [if_pos hk.symm] at hq
    refine ⟨h.followerCount.trans hl.symm, h.followingCount.trans hf.symm, h.reportCount.trans hp.symm,
      h.requestLikeCount.trans hr.symm, ?_, h.conversationLikeCount.trans hv.symm, rfl⟩
    rw [hq, ← h.commentLikeCount]
    rfl
  · rw [if_neg hk]
    rw [if_neg (Ne.symm hk), add_zero] at hq
    exact h.of_sameCounts ⟨hl, hf, hp, hr, hq, hv⟩

theorem ledgerOf_rated_conversation {c : ℕ} {u : User} (h : LedgerOf db k u) :
    LedgerOf (db.saveRating user (.conversation c) v) k
      (if db.conversationUsers.has (c, k) = true ∧ k ≠ user then
        (u.addConversationLikes (v - (db.ratingOf user (.conversation c)).getD 0)).withPoints else u) := by
  have hl := likersCount_saved db user k v (q := .conversation c) (by simp)
  have hf := followingCount_saved db user (.conversation c) v k (Or.inl rfl)
  have hp := reportersCount_saved db user k v (q := .conversation c) (by simp)
  have hr := requestLikes_saved db user (.conversation c) v k
  have hc := commentLikes_saved db user (.conversation c) v k
  have hq := conversationLikes_saved db user (.conversation c) v k
  simp only [add_zero] at hr hc
  split_ifs with hk
  · simp only [if_pos hk] at hq
    refine ⟨h.followerCount.trans hl.symm, h.followingCount.trans hf.symm, h.reportCount.trans hp.symm,
      h.requestLikeCount.trans hr.symm, h.commentLikeCount.trans hc.symm, ?_, rfl⟩
    rw [hq, ← h.conversationLikeCount]
    rfl
  · simp only [if_neg hk, add_zero] at hq
    exact h.of_sameCounts ⟨hl, hf, hp, hr, hc, hq⟩

end Saved

end Blnkk
