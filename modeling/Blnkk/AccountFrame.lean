import Blnkk.MessageRows
import Blnkk.Integrity

/-!
Rating, commenting, viewing and messaging leave the accounts of the users alone,
all but their reputation, and the authors and the workflow states of the requests.
-/

namespace Blnkk

open Relational

def User.account (u : User) : User :=
  { u with
    followerCount := 0
    followingCount := 0
    reportCount := 0
    requestLikeCount := 0
    commentLikeCount := 0
    conversationLikeCount := 0
    pointCount := 0 }

def Request.post (r : Request) : ℕ × ℕ × WorkflowState := (r.id, r.userId, r.workflowState)

structure AccountsKept (db db' : Db) : Prop where
  users : ∀ k, (db'.users.get? k).map User.account = (db.users.get? k).map User.account
  requests : db'.requests.rows.map Request.post = db.requests.rows.map Request.post

namespace AccountsKept

theorem refl (db : Db) : AccountsKept db db := ⟨fun _ => rfl, rfl⟩

theorem trans {db db' db'' : Db} (h : AccountsKept db db') (h' : AccountsKept db' db'') : AccountsKept db db'' :=
  ⟨fun k => (h'.users k).trans (h.users k), h'.requests.trans h.requests⟩

theorem of_eq {db db' : Db} (hu : db'.users = db.users) (hr : db'.requests = db.requests) : AccountsKept db db' :=
  ⟨fun k => by rw [hu], by rw [hr]⟩

theorem of_mapsUsers {db db' : Db} {f : ℕ → User → User} (h : MapsUsers db db' f)
    (hf : ∀ k u, (f k u).account = u.account) : AccountsKept db db' := by
  refine ⟨fun k => ?_, by rw [h.requests]⟩
  rw [h.get?, Option.map_map]
  congr 1
  funext u
  exact hf k u

theorem updateScore (db : Db) (action : ScoreAction) (r : Request) : AccountsKept db (r.updateScore db action) :=
  ⟨fun _ => rfl, Table.map_updateWhere db.requests _ (fun row => row.scoreColumns (r.rescore db action)) (fun _ => rfl) _
    (fun _ => rfl)⟩

theorem joinRequest (db : Db) (r : Request) (user : ℕ) : AccountsKept db (db.joinRequest r user) := by
  have h : AccountsKept db { db with requestUsers := db.requestUsers.ensure ⟨r.id, user⟩ } := of_eq rfl rfl
  exact h.trans (updateScore _ .comment r)

theorem view (me : ℕ) (db : Db) (r : Request) : AccountsKept db (RequestsController.view me db r) := by
  have h : AccountsKept db (db.addViewing r.id me) := of_eq rfl rfl
  exact h.trans (updateScore _ .view r)

theorem saveRating (db : Db) (user : ℕ) (q : Rateable) (v : ℤ) : AccountsKept db (db.saveRating user q v) :=
  of_eq rfl rfl

theorem observed {β : Type} {db db' : Db} (h : AccountsKept db db') (g : User → β) (hg : ∀ u, g u.account = g u)
    (k : ℕ) : (db'.users.get? k).map g = (db.users.get? k).map g := by
  have hu := congrArg (Option.map g) (h.users k)
  simpa only [Option.map_map, Function.comp_def, hg] using hu

end AccountsKept

theorem updateUser_observed {β : Type} (g : User → β) (db : Db) (id : ℕ) (f : User → User) (hf : ∀ u, (f u).id = u.id)
    (hg : ∀ u, db.users.get? id = some u → g (f u) = g u) (k : ℕ) :
    ((db.updateUser id f hf).users.get? k).map g = (db.users.get? k).map g := by
  rw [(MapsUsers.updateUser db id f hf).get? k, Option.map_map]
  cases hu : db.users.get? k with
  | none => rfl
  | some u =>
    simp only [Option.map_some, Function.comp_apply]
    split_ifs with hk
    · rw [hg u (hk ▸ hu)]
    · rfl

theorem updateAttributes_requests (P : Platform) (db : Db) (u : User) (params : ParamsHash) :
    (u.updateAttributes P db params).2.requests = db.requests := by
  rcases u.updateAttributes_cases P db params with h | ⟨email, name, h⟩
  · rw [h]
  · rw [h]
    rfl

section Ratings

variable (db : Db) (user : ℕ) (rating : Param)

theorem user_rate_kept (self : ℕ) : AccountsKept db (User.rate db self user rating).db := by
  unfold User.rate
  cases db.assignRating user (.user self) rating with
  | error errors => exact .refl db
  | ok v =>
    refine (AccountsKept.saveRating db user (.user self) v).trans
      (.of_mapsUsers (User.rated_maps db self user v) (fun k u => ?_))
    unfold User.afterRating
    split_ifs <;> rfl

theorem request_rate_kept (r : Request) : AccountsKept db (r.rate db user rating).db := by
  unfold Request.rate
  cases db.assignRating user (.request r.id) rating with
  | error errors => exact .refl db
  | ok v =>
    refine ((AccountsKept.saveRating db user (.request r.id) v).trans (.updateScore _ .rate r)).trans
      (.of_mapsUsers (Request.rated_maps db r user v) (fun k u => ?_))
    split_ifs <;> rfl

theorem comment_rate_kept (c : Comment) : AccountsKept db (c.rate db user rating).db := by
  unfold Comment.rate
  cases db.assignRating user (.comment c.id) rating with
  | error errors => exact .refl db
  | ok v =>
    have hscore : AccountsKept (db.saveRating user (.comment c.id) v)
        (c.updateScore (db.saveRating user (.comment c.id) v) .rate) := .of_eq rfl rfl
    refine ((AccountsKept.saveRating db user (.comment c.id) v).trans hscore).trans
      (.of_mapsUsers (Comment.rated_maps db c user v) (fun k u => ?_))
    split_ifs <;> rfl

theorem conversation_rate_kept (c : Conversation) : AccountsKept db (c.rate db user rating).db := by
  unfold Conversation.rate
  cases db.assignRating user (.conversation c.id) rating with
  | error errors => exact .refl db
  | ok v =>
    refine (AccountsKept.saveRating db user (.conversation c.id) v).trans
      (.of_mapsUsers (Conversation.rated_maps db c user v) (fun k u => ?_))
    split_ifs <;> rfl

end Ratings

theorem rate_kept (P : Platform) (db : Db) (me id : ℕ) (rating : Param) :
    AccountsKept db (step P db (.rateUser me id rating)) ∧ AccountsKept db (step P db (.rateRequest me id rating)) ∧
      AccountsKept db (step P db (.rateComment me id rating)) ∧
      AccountsKept db (step P db (.rateConversation me id rating)) := by
  refine ⟨?_, ?_, ?_, ?_⟩
  · simp only [step, Db.rateUser]
    split_ifs
    · exact user_rate_kept db me rating id
    · exact .refl db
  · simp only [step, Db.rateRequest]
    cases db.requests.get? id with
    | none => exact .refl db
    | some r =>
      simp only
      split_ifs
      · exact request_rate_kept db me rating r
      · exact .refl db
  · simp only [step, Db.rateComment]
    cases db.comments.get? id with
    | none => exact .refl db
    | some c =>
      simp only
      split_ifs
      · exact comment_rate_kept db me rating c
      · exact .refl db
  · simp only [step, Db.rateConversation]
    cases db.conversations.get? id with
    | none => exact .refl db
    | some c =>
      simp only
      split_ifs
      · exact conversation_rate_kept db me rating c
      · exact .refl db

theorem autoFollow_kept (me : ℕ) (inviters : List ℕ) (db db' : Db) (h : autoFollow me inviters db = some db') :
    AccountsKept db db' := by
  induction inviters generalizing db with
  | nil =>
    cases h
    exact .refl _
  | cons inviter rest ih =>
    simp only [autoFollow] at h
    split_ifs at h
    exact (user_rate_kept db me (.int 1) inviter).trans (ih _ h)

theorem invite_kept (db : Db) (user : ℕ) (email : String) : AccountsKept db (Invitation.create db user email) := by
  unfold Invitation.create
  split_ifs
  · exact .of_eq rfl rfl
  · exact .refl db

theorem createComment_kept (db : Db) (me request : ℕ) (content : String) :
    AccountsKept db (CommentsController.create db me request content).2.1 := by
  rcases CommentsController.create_cases db me request content with ⟨r, -, -, h⟩ | ⟨-, h⟩
  · have hpost : AccountsKept db (CommentsController.post db me request content) := .of_eq rfl rfl
    rw [h]
    exact hpost.trans (.joinRequest _ r me)
  · rw [h]
    exact .refl db

theorem destroyComment_kept (db : Db) (me id : ℕ) : AccountsKept db (CommentsController.destroy db me id).2 := by
  have hd : AccountsKept db
      { db with comments := db.comments.update id (fun c => { c with enabled := false }) } := .of_eq rfl rfl
  rcases CommentsController.destroy_cases db me id with h | h | ⟨r, -, h⟩
  · rw [h]
    exact .refl db
  · rw [h]
    exact hd
  · rw [h]
    exact hd.trans (.updateScore _ .comment r)

theorem views_kept (me : ℕ) (rows : List Request) (db : Db) :
    AccountsKept db (rows.foldl (RequestsController.view me) db) := by
  induction rows generalizing db with
  | nil => exact .refl db
  | cons r rows ih => exact (AccountsKept.view me db r).trans (ih _)

theorem index_kept (db : Db) (me : ℕ) (page : List ℕ) : AccountsKept db (RequestsController.index db me page) := by
  unfold RequestsController.index
  split_ifs
  · exact views_kept me _ db
  · exact .refl db

theorem show_kept (db : Db) (me id : ℕ) : AccountsKept db (RequestsController.show db me id).2 := by
  unfold RequestsController.show
  by_cases hv : (db.users.has me || db.settings.private != some "1") = true
  · rw [if_pos hv]
    cases db.requests.get? id with
    | none => exact .refl db
    | some r =>
      simp only
      split_ifs
      · exact .view me db r
      · exact .refl db
      · exact .refl db
  · rw [if_neg hv]
    exact .refl db

theorem showConversation_kept (db : Db) (now me id : ℕ) :
    AccountsKept db (ConversationsController.show db now me id).2.2 := by
  unfold ConversationsController.show
  split_ifs
  · exact .of_eq rfl rfl
  · exact .refl db
  · exact .refl db

theorem conversationRead_kept (db : Db) (now me : ℕ) (userId conversationId : Option ℕ) :
    AccountsKept db (ConversationsSocket.conversationRead db now me userId conversationId).1 := by
  unfold ConversationsSocket.conversationRead
  cases userId.bind db.users.get? with
  | none => exact .refl db
  | some user =>
    cases conversationId.bind db.conversations.get? with
    | none => exact .refl db
    | some conversation => exact .of_eq rfl rfl

namespace ConversationsSocket

theorem notifyByEmail_kept (db : Db) (conversation user : ℕ) (draft : Message.Draft) :
    AccountsKept db (notifyByEmail db conversation user draft).1 := by
  rcases notifyByEmail_cases db conversation user draft with h | h | h
  · rw [h]
    exact .refl db
  · rw [h]
    exact .refl db
  · rw [h]
    exact .of_eq rfl rfl

theorem save_message_kept (P : Platform) (db : Db) (now conversation : ℕ) (user : Option ℕ) (systemGenerated : Bool)
    (content : Option String) :
    AccountsKept db (Message.save P db now conversation user systemGenerated content).2 := by
  obtain ⟨hu, hr⟩ := save_message_frame P db now conversation user systemGenerated content
  exact .of_eq hu hr

theorem findOrCreate_kept {db db' : Db} {now me other id : ℕ} {isNew : Bool}
    (h : findOrCreate db now me other = .ok (id, isNew, db')) : AccountsKept db db' := by
  obtain ⟨hu, hr⟩ := findOrCreate_frame h
  exact .of_eq hu hr

theorem findOrCreate_left_kept {db left : Db} {now me other : ℕ} (h : findOrCreate db now me other = .error left) :
    AccountsKept db left := by
  obtain ⟨-, hc⟩ := findOrCreate_error h
  obtain ⟨t, rfl, -⟩ := createConversation_error hc
  exact .of_eq rfl rfl

theorem postSteps_kept (P : Platform) : PostSteps P AccountsKept where
  refl := .refl
  trans := .trans
  found _ _ h := findOrCreate_kept h
  half _ h := findOrCreate_left_kept h
  create db now conversation me := save_message_kept P db now conversation (some me)
  join db request me _ _ := .joinRequest db request me
  mail := notifyByEmail_kept

theorem postMessage_kept (P : Platform) (db : Db) (now : ℕ) (online : List ℕ) (me : ℕ) (payload : Payload) :
    AccountsKept db (postMessage P db now online me payload).1 :=
  (postSteps_kept P).postMessage db now online me payload

end ConversationsSocket

end Blnkk
