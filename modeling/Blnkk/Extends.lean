import Blnkk.Shape

namespace Blnkk

open Relational

theorem User.rated_sameShape (db : Db) (self user : ℕ) (v : ℤ) : SameShape db (User.rated db self user v) :=
  (SameShape.saveRating db user (.user self) v).trans (.of_mapsUsers (User.rated_maps db self user v))

theorem Request.rated_sameShape (db : Db) (r : Request) (user : ℕ) (v : ℤ) : SameShape db (r.rated db user v) :=
  ((SameShape.saveRating db user (.request r.id) v).trans (.updateScore _ .rate r)).trans
    (.of_mapsUsers (Request.rated_maps db r user v))

theorem Comment.rated_sameShape (db : Db) (c : Comment) (user : ℕ) (v : ℤ) : SameShape db (c.rated db user v) :=
  ((SameShape.saveRating db user (.comment c.id) v).trans (.updateCommentScore _ .rate c)).trans
    (.of_mapsUsers (Comment.rated_maps db c user v))

theorem Conversation.rated_sameShape (db : Db) (c : Conversation) (user : ℕ) (v : ℤ) :
    SameShape db (c.rated db user v) :=
  (SameShape.saveRating db user (.conversation c.id) v).trans (.of_mapsUsers (Conversation.rated_maps db c user v))

theorem joinRequest_sameShape (db : Db) (r : Request) (user : ℕ) : SameShape db (db.joinRequest r user) := by
  have h : SameShape db { db with requestUsers := db.requestUsers.ensure ⟨r.id, user⟩ } :=
    .of_eq rfl rfl rfl rfl rfl
  exact h.trans (.updateScore _ .comment r)

theorem view_sameShape (db : Db) (r : Request) (me : ℕ) : SameShape db (RequestsController.view me db r) := by
  have h : SameShape db (db.addViewing r.id me) := .of_eq rfl rfl rfl rfl rfl
  exact h.trans (.updateScore _ .view r)

theorem user_sameShape (db : Db) (id : ℕ) (f : User → User) (hf : ∀ u, (f u).id = u.id) :
    SameShape db (db.updateUser id f hf) :=
  .of_mapsUsers (MapsUsers.updateUser db id f hf)

theorem request_sameShape (db : Db) (id : ℕ) (f : Request → Request) (hf : ∀ r, (f r).id = r.id)
    (hr : ∀ r, (f r).standing = r.standing) : SameShape db { db with requests := db.requests.update id f hf } :=
  .request db id f hf (fun r => by
    have h := congrArg Request.userId (hr r)
    exact h)

theorem comment_sameShape (db : Db) (id : ℕ) (f : Comment → Comment) (hf : ∀ c, (f c).id = c.id)
    (hr : ∀ c, (f c).standing = c.standing) : SameShape db { db with comments := db.comments.update id f hf } :=
  .comment db id f hf (fun c => by
    have h := congrArg Comment.userId (hr c)
    exact h)

theorem conversation_sameShape (db : Db) (id : ℕ) (f : Conversation → Conversation) (hf : ∀ c, (f c).id = c.id) :
    SameShape db { db with conversations := db.conversations.update id f hf } :=
  ⟨fun _ => rfl, rfl, rfl, fun k => Table.has_update _ _ _ hf k, rfl⟩

theorem flags_sameShape (db : Db) (p : ConversationUser → Bool) (f : ConversationUser → ConversationUser)
    (hf : ∀ cu, (f cu).index = cu.index) :
    SameShape db { db with conversationUsers := db.conversationUsers.updateWhere p f hf } :=
  ⟨fun _ => rfl, rfl, rfl, fun _ => rfl, Table.map_updateWhere _ _ _ hf _ hf⟩

theorem newUser_extends (db : Db) (u : ℕ → User) (hu : ∀ n, (u n).id = n) :
    Extends db { db with users := db.users.insertFresh u hu } :=
  { Extends.refl db with users := fun k hk => (Table.has_insertFresh _ _ hu k).mpr (Or.inl hk) }

theorem requestAuthors_post (db : Db) (me : ℕ) (subject content : String) (reward : Option String) :
    (RequestsController.post db me subject content reward).requestAuthors =
      db.requestAuthors ++ [(db.requests.fresh, me)] := by
  simp [Db.requestAuthors, RequestsController.post, Table.insertFresh_rows]

theorem commentAuthors_post (db : Db) (me requestId : ℕ) (content : String) :
    (CommentsController.post db me requestId content).commentAuthors =
      db.commentAuthors ++ [(db.comments.fresh, me)] := by
  simp [Db.commentAuthors, CommentsController.post, Table.insertFresh_rows]

theorem startConversation_extends (db : Db) (now : ℕ) (t : Table ConversationUser.index)
    (l : List ConversationUser) (ht : t.rows = db.conversationUsers.rows ++ l) :
    Extends db { ConversationsSocket.startConversation db now with conversationUsers := t } :=
  { Extends.refl db with
    conversations := fun k hk => (Table.has_insertFresh _ _ _ k).mpr (Or.inl hk)
    memberships := fun p hp => by
      simp only [Db.memberships, ht, List.map_append]
      exact List.mem_append_left _ hp }

theorem Change.extends {db db' : Db} (h : Change db db') : Extends db db' := by
  cases h with
  | settings settings => exact .of_sameShape (.of_eq rfl rfl rfl rfl rfl)
  | messages messages => exact .of_sameShape (.of_eq rfl rfl rfl rfl rfl)
  | invitations invitations => exact .of_sameShape (.of_eq rfl rfl rfl rfl rfl)
  | user id f hf hr => exact .of_sameShape (user_sameShape db id f hf)
  | request id f hf hr => exact .of_sameShape (request_sameShape db id f hf hr)
  | comment id f hf hr => exact .of_sameShape (comment_sameShape db id f hf hr)
  | conversation id f hf => exact .of_sameShape (conversation_sameShape db id f hf)
  | flags p f hf => exact .of_sameShape (flags_sameShape db p f hf)
  | newUser u hu hr => exact newUser_extends db u hu
  | newRequest me subject content reward hme =>
    refine { Extends.refl db with requests := fun p hp => ?_ }
    rw [requestAuthors_post]
    exact List.mem_append_left _ hp
  | newComment me requestId content hme =>
    refine { Extends.refl db with comments := fun p hp => ?_ }
    rw [commentAuthors_post]
    exact List.mem_append_left _ hp
  | newConversation now me other id created hme hother hn h =>
    obtain ⟨-, t, rfl, ht⟩ := ConversationsSocket.createConversation_ok h
    exact startConversation_extends db now t _ ht
  | halfConversation now me other left hme hn h =>
    obtain ⟨t, rfl, ⟨ht, -⟩ | ⟨ht, -⟩⟩ := ConversationsSocket.createConversation_error h
    · exact startConversation_extends db now t [] (by rw [ht, List.append_nil])
    · exact startConversation_extends db now t _ ht
  | joinRequest r user hr hu => exact .of_sameShape (joinRequest_sameShape db r user)
  | rescore r hr => exact .of_sameShape (.updateScore db .comment r)
  | view r me hr hme => exact .of_sameShape (view_sameShape db r me)
  | rateUser self user v hv => exact .of_sameShape (User.rated_sameShape db self user v)
  | rateRequest r user v hr hv => exact .of_sameShape (Request.rated_sameShape db r user v)
  | rateComment c user v hc hv => exact .of_sameShape (Comment.rated_sameShape db c user v)
  | rateConversation c user v hv => exact .of_sameShape (Conversation.rated_sameShape db c user v)

theorem Changes.extends {db db' : Db} (h : Changes db db') : Extends db db' :=
  h.invariant (fun _ _ hc he => he.trans hc.extends) (Extends.refl db)

end Blnkk
