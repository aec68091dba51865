import Blnkk.LedgerInvariant

/-!
The ledger in the terms of the users it is about.
-/

namespace Blnkk

open Relational

namespace Db

variable (db : Db) (user : ℕ)

def participantRatings (conversation : ℕ) : ℤ :=
  db.conversationUsers.sum (fun cu =>
    if cu.conversationId = conversation ∧ cu.userId ≠ user then
      (db.ratingOf cu.userId (.conversation conversation)).getD 0 else 0)

def ratedUserId : Rateable → ℕ
  | .user id => id
  | _ => 0

end Db

theorem followingCount_eq_users {db : Db} (h : Consistent db) (user : ℕ) :
    db.followingCount user = db.users.count (fun v => decide (db.ratingOf user (.user v.id) = some 1)) := by
  rw [Db.followingCount, Table.count_eq_sum, Table.count_eq_sum]
  congr 1
  rw [← db.users.sum_fiber db.ratings (fun r => Db.ratedUserId r.rateable)]
  · apply Table.sum_congr
    intro v _
    have hs := db.ratings.sum_single (user, .user v.id) (fun r => if r.rating = 1 then 1 else 0)
    have ho : (if decide (db.ratingOf user (.user v.id) = some 1) = true then 1 else 0) =
        ((db.ratings.get? (user, .user v.id)).map (fun r => if r.rating = 1 then 1 else 0)).getD 0 := by
      cases hg : db.ratings.get? (user, .user v.id) <;> simp [Db.ratingOf, hg]
    rw [ho, ← hs]
    apply Table.sum_congr
    intro r _
    obtain ⟨rater, q, x⟩ := r
    cases q <;> simp [Rating.index, Rateable.isUser, Db.ratedUserId]
    by_cases hr : rater = user <;> simp [hr, eq_comm]
  · intro r hr
    have hv := (h.ratings r hr).rateable
    obtain ⟨rater, q, x⟩ := r
    cases q with
    | user id => exact Or.inr hv
    | _ => exact Or.inl (by simp [Rateable.isUser])

theorem othersRatingSum_eq {db : Db} (h : Consistent db) (user conversation : ℕ) :
    db.othersRatingSum user conversation = db.participantRatings user conversation := by
  rw [Db.othersRatingSum, ← db.conversationUsers.sum_fiber db.ratings (fun r => (conversation, r.userId))]
  · apply Table.sum_congr
    intro cu _
    have hs := db.ratings.sum_single (cu.userId, .conversation conversation) Rating.rating
    by_cases hc : cu.conversationId = conversation ∧ cu.userId ≠ user
    · rw [if_pos hc, Db.ratingOf, ← hs]
      apply Table.sum_congr
      intro r _
      obtain ⟨rater, q, x⟩ := r
      by_cases hr : rater = cu.userId
      · subst hr
        simp [Rating.index, ConversationUser.index, hc.1, hc.2]
      · simp [Rating.index, ConversationUser.index, hr, Ne.symm hr]
    · rw [if_neg hc]
      apply Table.sum_zero
      intro r _
      split_ifs with hi hr
      · exact absurd ⟨(Prod.mk.inj hi).1, fun hu => hr.2 ((Prod.mk.inj hi).2.symm.trans hu)⟩ hc
      · rfl
      · rfl
  · intro r hr
    by_cases hq : r.rateable = .conversation conversation
    · exact Or.inr ((h.ratings r hr).participant conversation hq)
    · exact Or.inl (by simp [hq])

theorem conversationLikes_eq_participants {db : Db} (h : Consistent db) (user : ℕ) :
    db.conversationLikes user = db.conversations.sum (fun c =>
      if db.conversationUsers.has (c.id, user) then db.participantRatings user c.id else 0) := by
  rw [Db.conversationLikes, ← db.conversations.sum_fiber db.conversationUsers ConversationUser.conversationId]
  · apply Table.sum_congr
    intro c _
    have hs := db.conversationUsers.sum_single (c.id, user) (fun _ => db.participantRatings user c.id)
    have ho : (if db.conversationUsers.has (c.id, user) = true then db.participantRatings user c.id else 0) =
        ((db.conversationUsers.get? (c.id, user)).map (fun _ => db.participantRatings user c.id)).getD 0 := by
      cases hg : db.conversationUsers.get? (c.id, user) <;> simp [Table.has, hg]
    rw [ho, ← hs]
    apply Table.sum_congr
    intro cu _
    rw [othersRatingSum_eq h]
    by_cases hc : c.id = cu.conversationId
    · simp [ConversationUser.index, hc]
    · simp [ConversationUser.index, hc, Ne.symm hc]
  · intro cu hcu
    exact Or.inr (h.memberships cu.index (List.mem_map.mpr ⟨cu, hcu, rfl⟩)).1

theorem reachable_counters (P : Platform) (db : Db) (h : Reachable P db) (u : User) (hu : u ∈ db.users.rows) :
    u.followerCount = db.ratings.count (fun r => decide (r.rateable = .user u.id) && decide (r.rating = 1)) ∧
    u.followingCount = db.users.count (fun v => decide (db.ratingOf u.id (.user v.id) = some 1)) ∧
    u.requestLikeCount = db.requests.sum (fun r =>
      if r.userId = u.id then db.ratings.sum (fun x => if x.rateable = .request r.id then x.rating else 0) else 0) ∧
    u.commentLikeCount = db.comments.sum (fun c =>
      if c.userId = u.id then db.ratings.sum (fun x => if x.rateable = .comment c.id then x.rating else 0) else 0) ∧
    u.conversationLikeCount = db.conversations.sum (fun c =>
      if db.conversationUsers.has (c.id, u.id) then db.participantRatings u.id c.id else 0) ∧
    u.pointCount = u.followerCount + 2 * u.requestLikeCount + 5 * u.commentLikeCount +
      10 * u.conversationLikeCount := by
  have hl := h.ledger u.id u (Table.get?_of_mem hu)
  have hc := h.consistent
  refine ⟨hl.followerCount, ?_, hl.requestLikeCount, hl.commentLikeCount, ?_, hl.pointCount⟩
  · rw [hl.followingCount, followingCount_eq_users hc]
  · rw [hl.conversationLikeCount, conversationLikes_eq_participants hc]

def busyRun : List Op :=
  [.signUp "ann@blnkk.com" "ann", .signUp "bob@blnkk.com" "bob", .createRequest 1 "bike" "wanted" none,
    .createComment 1 1 "any colour", .postMessage 10 [] 2 { message := some { content := some "hello" }, userId := some 1 },
    .rateUser 2 1 (.int 1), .rateRequest 2 1 (.text "1"), .rateComment 2 1 (.int 1), .rateConversation 2 1 (.int (-1))]

theorem busyRun_counters :
    ∃ u ∈ (Transition.run (step .plain) (Db.new {}) busyRun).users.rows,
      u.pointCount = -2 ∧ u.pointCount = u.followerCount + 2 * u.requestLikeCount + 5 * u.commentLikeCount +
        10 * u.conversationLikeCount := by
  have hm : ∃ u ∈ (Transition.run (step .plain) (Db.new {}) busyRun).users.rows, u.pointCount = -2 := by decide +kernel
  obtain ⟨u, hu, hp⟩ := hm
  exact ⟨u, hu, hp, (reachable_counters .plain _ ⟨{}, busyRun, rfl⟩ u hu).2.2.2.2.2⟩

end Blnkk
