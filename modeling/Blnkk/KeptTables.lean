import Blnkk.PostOutcome

/-!
The operations that write ratings, those that count users at requests, and what
the others leave alone.
-/

namespace Blnkk

open Relational

def Op.rates : Op → Bool
  | .signUp .. | .rateUser .. | .rateRequest .. | .rateComment .. | .rateConversation .. => true
  | _ => false

def Op.joins : Op → Bool
  | .createRequest .. | .createComment .. | .postMessage .. => true
  | _ => false

structure TablesKept (db db' : Db) : Prop where
  ratings : db'.ratings = db.ratings
  requestUsers : db'.requestUsers = db.requestUsers

namespace TablesKept

theorem refl (db : Db) : TablesKept db db := ⟨rfl, rfl⟩

theorem trans {db db' db'' : Db} (h : TablesKept db db') (h' : TablesKept db' db'') : TablesKept db db'' :=
  ⟨h'.ratings.trans h.ratings, h'.requestUsers.trans h.requestUsers⟩

variable (P : Platform) (db : Db)

theorem invite (me : ℕ) (email : String) : TablesKept db (Invitation.create db me email) := by
  unfold Invitation.create
  split_ifs
  · exact ⟨rfl, rfl⟩
  · exact .refl db

theorem destroyRequest (me id : ℕ) : TablesKept db (RequestsController.destroy db me id).2 := by
  rcases RequestsController.destroy_cases db me id with h | h
  · rw [h]
    exact .refl db
  · rw [h]
    exact ⟨rfl, rfl⟩

theorem updateRequest (id : ℕ) (event : AdminRequestsController.Event) :
    TablesKept db (AdminRequestsController.update db id event) := by
  rcases AdminRequestsController.update_cases db id event with h | ⟨request, -, -, h⟩
  · rw [h]
    exact .refl db
  · rw [h]
    exact ⟨rfl, rfl⟩

theorem manageUser (me : ℕ) (action : UserAction) : TablesKept db (action.perform P db me) := by
  rcases action.perform_cases P db me with h | ⟨user, params, -, h, -⟩
  · rw [h]
    exact .refl db
  · rw [h]
    rcases user.updateAttributes_cases P db params with hu | ⟨email, name, hu⟩
    · rw [hu]
      exact .refl db
    · rw [hu]
      exact ⟨rfl, rfl⟩

theorem destroyComment (me id : ℕ) : TablesKept db (CommentsController.destroy db me id).2 := by
  rcases CommentsController.destroy_cases db me id with h | h | ⟨r, -, h⟩
  · rw [h]
    exact .refl db
  · rw [h]
    exact ⟨rfl, rfl⟩
  · rw [h]
    exact ⟨rfl, rfl⟩

theorem indexRequests (me : ℕ) (page : List ℕ) : TablesKept db (RequestsController.index db me page) := by
  have hviews : ∀ (rows : List Request) (db : Db), TablesKept db (rows.foldl (RequestsController.view me) db) := by
    intro rows
    induction rows with
    | nil => exact .refl
    | cons r rows ih =>
      intro db
      have hview : TablesKept db (RequestsController.view me db r) := ⟨rfl, rfl⟩
      exact hview.trans (ih _)
  unfold RequestsController.index
  split_ifs
  · exact hviews _ db
  · exact .refl db

theorem showRequest (me id : ℕ) : TablesKept db (RequestsController.show db me id).2 := by
  unfold RequestsController.show
  by_cases hv : (db.users.has me || db.settings.private != some "1") = true
  · rw [if_pos hv]
    cases db.requests.get? id with
    | none => exact .refl db
    | some r =>
      simp only
      split_ifs
      · exact ⟨rfl, rfl⟩
      · exact .refl db
      · exact .refl db
  · rw [if_neg hv]
    exact .refl db

theorem showConversation (now me id : ℕ) : TablesKept db (ConversationsController.show db now me id).2.2 := by
  unfold ConversationsController.show
  split_ifs
  · exact ⟨rfl, rfl⟩
  · exact .refl db
  · exact .refl db

theorem conversationRead (now me : ℕ) (userId conversationId : Option ℕ) :
    TablesKept db (ConversationsSocket.conversationRead db now me userId conversationId).1 := by
  unfold ConversationsSocket.conversationRead
  cases userId.bind db.users.get? with
  | none => exact .refl db
  | some user =>
    cases conversationId.bind db.conversations.get? with
    | none => exact .refl db
    | some conversation => exact ⟨rfl, rfl⟩

theorem createMessage (now me conversation : ℕ) (systemGenerated : Bool) (content : Option String) :
    TablesKept db (Message.save P db now conversation (some me) systemGenerated content).2 := by
  rcases Message.save_cases P db now conversation (some me) systemGenerated content with h | ⟨text, h⟩
  · rw [h]
    exact .refl db
  · rw [h]
    exact ⟨rfl, rfl⟩

theorem notifyByEmail (conversation user : ℕ) (draft : Message.Draft) :
    TablesKept db (ConversationsSocket.notifyByEmail db conversation user draft).1 := by
  unfold ConversationsSocket.notifyByEmail
  cases db.conversationUsers.get? (conversation, user) with
  | none => exact .refl db
  | some cu =>
    simp only
    split_ifs
    · exact .refl db
    · exact ⟨rfl, rfl⟩

theorem step {op : Op} (hr : op.rates = false) (hj : op.joins = false) : TablesKept db (step P db op) := by
  cases op with
  | invite me email => exact .invite db me email
  | destroyRequest me id => exact .destroyRequest db me id
  | updateRequest id event => exact .updateRequest db id event
  | updateSetting setting value => exact ⟨rfl, rfl⟩
  | manageUser me action => exact .manageUser P db me action
  | destroyComment me id => exact .destroyComment db me id
  | indexRequests me page => exact .indexRequests db me page
  | showRequest me id => exact .showRequest db me id
  | showConversation now me id => exact .showConversation db now me id
  | conversationRead now me userId conversationId => exact .conversationRead db now me userId conversationId
  | notifyUnread now => exact ⟨rfl, rfl⟩
  | signUp | rateUser | rateRequest | rateComment | rateConversation => cases hr
  | createRequest | createComment | postMessage => cases hj

end TablesKept

section Ratings

open ConversationsSocket

theorem postSteps_ratings (P : Platform) : PostSteps P (fun db db' => db'.ratings = db.ratings) where
  refl _ := rfl
  trans h h' := h'.trans h
  found _ _ h := by
    rcases findOrCreate_ok h with ⟨c, -, -, rfl⟩ | ⟨-, hc⟩
    · rfl
    · obtain ⟨-, t, rfl, -⟩ := createConversation_ok hc
      rfl
  half _ h := by
    obtain ⟨t, rfl, -⟩ := createConversation_error (findOrCreate_error h).2
    rfl
  create db now conversation me systemGenerated content :=
    (TablesKept.createMessage P db now me conversation systemGenerated content).ratings
  join _ _ _ _ _ := rfl
  mail db conversation user draft := (TablesKept.notifyByEmail db conversation user draft).ratings

theorem step_ratings (P : Platform) (db : Db) {op : Op} (hr : op.rates = false) :
    (step P db op).ratings = db.ratings := by
  cases hj : op.joins with
  | false => exact (TablesKept.step P db hr hj).ratings
  | true =>
    cases op with
    | createRequest me subject content reward =>
      rcases RequestsController.create_cases P db me subject content reward with h | ⟨-, h⟩
      · rw [step, h]
      · rw [step, h]
        rfl
    | createComment me request content =>
      rcases CommentsController.create_cases db me request content with ⟨r, -, -, h⟩ | ⟨-, h⟩
      · rw [step, h]
        rfl
      · rw [step, h]
    | postMessage now online me payload => exact (postSteps_ratings P).postMessage db now online me payload
    | _ => cases hj

end Ratings

section RequestUsers

theorem user_rate_requestUsers (db : Db) (self user : ℕ) (rating : Param) :
    (User.rate db self user rating).db.requestUsers = db.requestUsers := by
  unfold User.rate
  cases db.assignRating user (.user self) rating with
  | error errors => rfl
  | ok v => exact (User.rated_maps db self user v).requestUsers

theorem autoFollow_requestUsers (me : ℕ) (inviters : List ℕ) (db db' : Db) (h : autoFollow me inviters db = some db') :
    db'.requestUsers = db.requestUsers := by
  induction inviters generalizing db with
  | nil =>
    cases h
    rfl
  | cons inviter rest ih =>
    simp only [autoFollow] at h
    split_ifs at h
    exact (ih _ h).trans (user_rate_requestUsers db inviter me (.int 1))

theorem rate_requestUsers (P : Platform) (db : Db) (me id : ℕ) (rating : Param) :
    (step P db (.rateUser me id rating)).requestUsers = db.requestUsers ∧
      (step P db (.rateRequest me id rating)).requestUsers = db.requestUsers ∧
      (step P db (.rateComment me id rating)).requestUsers = db.requestUsers ∧
      (step P db (.rateConversation me id rating)).requestUsers = db.requestUsers := by
  refine ⟨?_, ?_, ?_, ?_⟩
  · simp only [step, Db.rateUser]
    split_ifs
    · exact user_rate_requestUsers db id me rating
    · rfl
  · simp only [step, Db.rateRequest]
    cases db.requests.get? id with
    | none => rfl
    | some r =>
      simp only [Request.rate]
      cases db.assignRating me (.request r.id) rating with
      | error errors => split_ifs <;> rfl
      | ok v =>
        split_ifs
        · exact (Request.rated_maps db r me v).requestUsers
        · rfl
  · simp only [step, Db.rateComment]
    cases db.comments.get? id with
    | none => rfl
    | some c =>
      simp only [Comment.rate]
      cases db.assignRating me (.comment c.id) rating with
      | error errors => split_ifs <;> rfl
      | ok v =>
        split_ifs
        · exact (Comment.rated_maps db c me v).requestUsers
        · rfl
  · simp only [step, Db.rateConversation]
    cases db.conversations.get? id with
    | none => rfl
    | some c =>
      simp only [Conversation.rate]
      cases db.assignRating me (.conversation c.id) rating with
      | error errors => split_ifs <;> rfl
      | ok v =>
        split_ifs
        · exact (Conversation.rated_maps db c me v).requestUsers
        · rfl

theorem step_requestUsers (P : Platform) (db : Db) {op : Op} (hj : op.joins = false) :
    (step P db op).requestUsers = db.requestUsers := by
  cases hr : op.rates with
  | false => exact (TablesKept.step P db hr hj).requestUsers
  | true =>
    cases op with
    | signUp email name =>
      simp only [step, signUp]
      cases h : createUser P db email name with
      | error failure => rfl
      | ok result =>
        obtain ⟨-, -, -, -, hf⟩ := createUser_ok h
        have hkept := autoFollow_requestUsers _ _ _ _ hf
        exact hkept
    | rateUser me id rating => exact (rate_requestUsers P db me id rating).1
    | rateRequest me id rating => exact (rate_requestUsers P db me id rating).2.1
    | rateComment me id rating => exact (rate_requestUsers P db me id rating).2.2.1
    | rateConversation me id rating => exact (rate_requestUsers P db me id rating).2.2.2
    | _ => cases hr

end RequestUsers

end Blnkk
