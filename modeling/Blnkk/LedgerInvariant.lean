import Blnkk.LedgerEntries

namespace Blnkk

open Relational

theorem Ledger.of_rated {db mid db' : Db} {user : ℕ} {q : Rateable} {v : ℤ} {f : ℕ → User → User} (h : Ledger db)
    (hs : SameShape db db') (hm : MapsUsers mid db' f) (hu : mid.users = db.users)
    (hr : mid.ratings = (db.saveRating user q v).ratings)
    (hl : ∀ k u, LedgerOf db k u → LedgerOf (db.saveRating user q v) k (f k u)) : Ledger db' := by
  intro k u' hk
  rw [hm.get?, hu] at hk
  obtain ⟨u, hg, rfl⟩ := Option.map_eq_some_iff.mp hk
  exact (hl k u (h k u hg)).of_sameCounts
    (sameCounts_of_kept (hm.ratings.trans hr) hs.requests hs.comments hs.memberships k)

theorem sameCounts_post {db : Db} (h : Consistent db) (me : ℕ) (subject content : String) (reward : Option String)
    (k : ℕ) : SameCounts db (RequestsController.post db me subject content reward) k := by
  refine ⟨rfl, rfl, rfl, ?_, rfl, rfl⟩
  have hz : db.ratingSum (.request db.requests.fresh) = 0 := ratingSum_absent h db.requests.has_fresh
  rw [Db.requestLikes_eq, Db.requestLikes_eq, requestAuthors_post, List.map_append, List.sum_append]
  simp only [List.map_cons, List.map_nil, List.sum_cons, List.sum_nil, add_zero]
  rw [show (RequestsController.post db me subject content reward).ratingSum = db.ratingSum from rfl, hz, ite_self,
    add_zero]

theorem sameCounts_comment {db : Db} (h : Consistent db) (me request : ℕ) (content : String)
    (k : ℕ) : SameCounts db (CommentsController.post db me request content) k := by
  refine ⟨rfl, rfl, rfl, rfl, ?_, rfl⟩
  have hz : db.ratingSum (.comment db.comments.fresh) = 0 := ratingSum_absent h db.comments.has_fresh
  rw [Db.commentLikes_eq, Db.commentLikes_eq, commentAuthors_post, List.map_append, List.sum_append]
  simp only [List.map_cons, List.map_nil, List.sum_cons, List.sum_nil, add_zero]
  rw [show (CommentsController.post db me request content).ratingSum = db.ratingSum from rfl, hz, ite_self, add_zero]

theorem sameCounts_conversation {db : Db} (h : Consistent db) (now : ℕ) (t : Table ConversationUser.index)
    (l : List ConversationUser) (ht : t.rows = db.conversationUsers.rows ++ l)
    (hl : ∀ cu ∈ l, cu.conversationId = db.conversations.fresh) (k : ℕ) :
    SameCounts db { ConversationsSocket.startConversation db now with conversationUsers := t } k := by
  refine ⟨rfl, rfl, rfl, rfl, rfl, ?_⟩
  have hz : ∀ cu ∈ l, (if cu.userId = k then db.othersRatingSum k cu.conversationId else 0) = 0 := by
    intro cu hcu
    rw [hl cu hcu, othersRatingSum_absent h k db.conversations.has_fresh, ite_self]
  have hs : (l.map (fun cu => if cu.userId = k then db.othersRatingSum k cu.conversationId else 0)).sum = 0 := by
    rw [List.map_congr_left hz]
    simp
  simp only [Db.conversationLikes, Table.sum, ht, List.map_append, List.sum_append]
  exact (congrArg _ hs).trans (add_zero _)

theorem Ledger.of_sameCounts {db db' : Db} (h : Ledger db) (hu : db'.users = db.users)
    (hs : ∀ k, SameCounts db db' k) : Ledger db' := by
  intro k u hk
  rw [hu] at hk
  exact (h k u hk).of_sameCounts (hs k)

theorem Change.ledger {db db' : Db} (hc : Change db db') (hi : Consistent db) (h : Ledger db) : Ledger db' := by
  have hsame : ∀ k u, db.users.get? k = some u → ∃ u', db.users.get? k = some u' ∧ u.reputation = u'.reputation :=
    fun k u hk => ⟨u, hk, rfl⟩
  cases hc with
  | settings settings => exact h.of_sameShape (.of_eq rfl rfl rfl rfl rfl) rfl hsame
  | messages messages => exact h.of_sameShape (.of_eq rfl rfl rfl rfl rfl) rfl hsame
  | invitations invitations => exact h.of_sameShape (.of_eq rfl rfl rfl rfl rfl) rfl hsame
  | user id f hf hr =>
    refine h.of_sameShape (user_sameShape db id f hf) rfl (fun k u' hk => ?_)
    rw [(MapsUsers.updateUser db id f hf).get?] at hk
    obtain ⟨u, hg, rfl⟩ := Option.map_eq_some_iff.mp hk
    refine ⟨u, hg, ?_⟩
    split_ifs
    · exact hr u
    · rfl
  | request id f hf hr => exact h.of_sameShape (request_sameShape db id f hf hr) rfl hsame
  | comment id f hf hr => exact h.of_sameShape (comment_sameShape db id f hf hr) rfl hsame
  | conversation id f hf => exact h.of_sameShape (conversation_sameShape db id f hf) rfl hsame
  | flags p f hf => exact h.of_sameShape (flags_sameShape db p f hf) rfl hsame
  | newUser u hu hr =>
    intro k u' hk
    have hk' := (Table.get?_insertFresh db.users u hu k).symm.trans hk
    have hs : SameCounts db { db with users := db.users.insertFresh u hu } k := ⟨rfl, rfl, rfl, rfl, rfl, rfl⟩
    by_cases hf : k = db.users.fresh
    · rw [if_pos hf] at hk'
      cases hk'
      subst hf
      exact ((ledgerOf_absent hi db.users.has_fresh).of_reputation (hr _)).of_sameCounts hs
    · rw [if_neg hf] at hk'
      exact (h k u' hk').of_sameCounts hs
  | newRequest me subject content reward hme =>
    exact h.of_sameCounts rfl (sameCounts_post hi me subject content reward)
  | newComment me requestId content hme => exact h.of_sameCounts rfl (sameCounts_comment hi me requestId content)
  | newConversation now me other id created hme hother hn hk =>
    obtain ⟨-, t, rfl, ht⟩ := ConversationsSocket.createConversation_ok hk
    exact h.of_sameCounts rfl (sameCounts_conversation hi now t _ ht (by simp))
  | halfConversation now me other left hme hn hk =>
    obtain ⟨t, rfl, ⟨ht, -⟩ | ⟨ht, -⟩⟩ := ConversationsSocket.createConversation_error hk
    · exact h.of_sameCounts rfl (sameCounts_conversation hi now t [] (by rw [ht, List.append_nil]) (by simp))
    · exact h.of_sameCounts rfl (sameCounts_conversation hi now t _ ht (by simp))
  | joinRequest r user hr hu => exact h.of_sameShape (joinRequest_sameShape db r user) rfl hsame
  | rescore r hr => exact h.of_sameShape (.updateScore db .comment r) rfl hsame
  | view r me hr hme => exact h.of_sameShape (view_sameShape db r me) rfl hsame
  | rateUser self user v hv =>
    exact h.of_rated (User.rated_sameShape db self user v) (User.rated_maps db self user v) rfl rfl
      (fun k u => ledgerOf_rated_user db user k v)
  | rateRequest r user v hr hv =>
    exact h.of_rated (Request.rated_sameShape db r user v) (Request.rated_maps db r user v) rfl rfl
      (fun k u => ledgerOf_rated_request db user k v hr)
  | rateComment c user v hc hv =>
    exact h.of_rated (Comment.rated_sameShape db c user v) (Comment.rated_maps db c user v) rfl rfl
      (fun k u => ledgerOf_rated_comment db user k v hc)
  | rateConversation c user v hv =>
    exact h.of_rated (Conversation.rated_sameShape db c user v) (Conversation.rated_maps db c user v) rfl rfl
      (fun k u => ledgerOf_rated_conversation db user k v)

theorem Reachable.ledger {P : Platform} {db : Db} (h : Reachable P db) : Ledger db :=
  h.invariant_of_consistent (fun _ _ _ hk => by cases hk) (fun _ _ => Change.ledger)

end Blnkk
