import Blnkk.MessageTarget
import Blnkk.PostOutcome

/-!
The tables of the conversations under the operations that are not about them,
and the stored messages as a log: only `post_message` writes to it, at its end
and in the name of the sender.
-/

namespace Blnkk

open Relational ConversationsSocket

def Op.talks : Op → Bool
  | .showConversation .. | .postMessage .. | .conversationRead .. | .notifyUnread .. => true
  | _ => false

structure TalkKept (db db' : Db) : Prop where
  messages : db'.messages = db.messages
  conversations : db'.conversations = db.conversations
  conversationUsers : db'.conversationUsers = db.conversationUsers

namespace TalkKept

theorem refl (db : Db) : TalkKept db db := ⟨rfl, rfl, rfl⟩

theorem trans {db db' db'' : Db} (h : TalkKept db db') (h' : TalkKept db' db'') : TalkKept db db'' :=
  ⟨h'.messages.trans h.messages, h'.conversations.trans h.conversations,
    h'.conversationUsers.trans h.conversationUsers⟩

theorem of_mapsUsers {db saved db' : Db} {f : ℕ → User → User} (h : MapsUsers saved db' f) (hs : TalkKept db saved) :
    TalkKept db db' := by
  rw [h.frame]
  exact ⟨hs.messages, hs.conversations, hs.conversationUsers⟩

variable (P : Platform) (db : Db)

theorem rateUser (self user : ℕ) (rating : Param) : TalkKept db (User.rate db self user rating).db := by
  unfold User.rate
  cases db.assignRating user (.user self) rating with
  | error errors => exact .refl db
  | ok v => exact of_mapsUsers (User.rated_maps db self user v) ⟨rfl, rfl, rfl⟩

theorem rateRequest (r : Request) (user : ℕ) (rating : Param) : TalkKept db (r.rate db user rating).db := by
  unfold Request.rate
  cases db.assignRating user (.request r.id) rating with
  | error errors => exact .refl db
  | ok v => exact of_mapsUsers (Request.rated_maps db r user v) ⟨rfl, rfl, rfl⟩

theorem rateComment (c : Comment) (user : ℕ) (rating : Param) : TalkKept db (c.rate db user rating).db := by
  unfold Comment.rate
  cases db.assignRating user (.comment c.id) rating with
  | error errors => exact .refl db
  | ok v => exact of_mapsUsers (Comment.rated_maps db c user v) ⟨rfl, rfl, rfl⟩

theorem rateConversation (c : Conversation) (user : ℕ) (rating : Param) : TalkKept db (c.rate db user rating).db := by
  unfold Conversation.rate
  cases db.assignRating user (.conversation c.id) rating with
  | error errors => exact .refl db
  | ok v => exact of_mapsUsers (Conversation.rated_maps db c user v) ⟨rfl, rfl, rfl⟩

theorem autoFollow {me : ℕ} {inviters : List ℕ} {db db' : Db} (h : autoFollow me inviters db = some db') :
    TalkKept db db' := by
  induction inviters generalizing db with
  | nil =>
    cases h
    exact .refl _
  | cons inviter rest ih =>
    simp only [Blnkk.autoFollow] at h
    split_ifs at h
    exact (rateUser db inviter me (.int 1)).trans (ih h)

theorem signUp (email name : String) : TalkKept db (signUp P db email name) := by
  unfold Blnkk.signUp
  cases h : createUser P db email name with
  | error failure => exact .refl db
  | ok created =>
    obtain ⟨-, -, -, -, hf⟩ := createUser_ok h
    have hnew : TalkKept db { db with users := db.users.insertFresh (User.build P db email name) } := ⟨rfl, rfl, rfl⟩
    exact hnew.trans (autoFollow hf)

theorem indexRequests (me : ℕ) (page : List ℕ) : TalkKept db (RequestsController.index db me page) := by
  have hviews : ∀ (rows : List Request) (db : Db), TalkKept db (rows.foldl (RequestsController.view me) db) := by
    intro rows
    induction rows with
    | nil => exact .refl
    | cons r rows ih =>
      intro db
      have hview : TalkKept db (RequestsController.view me db r) := ⟨rfl, rfl, rfl⟩
      exact hview.trans (ih _)
  unfold RequestsController.index
  split_ifs
  · exact hviews _ db
  · exact .refl db

theorem showRequest (me id : ℕ) : TalkKept db (RequestsController.show db me id).2 := by
  unfold RequestsController.show
  by_cases hv : (db.users.has me || db.settings.private != some "1") = true
  · rw [if_pos hv]
    cases db.requests.get? id with
    | none => exact .refl db
    | some r =>
      simp only
      split_ifs
      · exact ⟨rfl, rfl, rfl⟩
      · exact .refl db
      · exact .refl db
  · rw [if_neg hv]
    exact .refl db

theorem createRequest (me : ℕ) (subject content : String) (reward : Option String) :
    TalkKept db (RequestsController.create P db me subject content reward).2 := by
  rcases RequestsController.create_cases P db me subject content reward with h | ⟨-, h⟩
  · rw [h]
    exact .refl db
  · rw [h]
    exact ⟨rfl, rfl, rfl⟩

theorem createComment (me request : ℕ) (content : String) :
    TalkKept db (CommentsController.create db me request content).2.1 := by
  rcases CommentsController.create_cases db me request content with ⟨r, -, -, h⟩ | ⟨-, h⟩
  · rw [h]
    exact ⟨rfl, rfl, rfl⟩
  · rw [h]
    exact .refl db

theorem destroyComment (me id : ℕ) : TalkKept db (CommentsController.destroy db me id).2 := by
  rcases CommentsController.destroy_cases db me id with h | h | ⟨r, -, h⟩
  · rw [h]
    exact .refl db
  · rw [h]
    exact ⟨rfl, rfl, rfl⟩
  · rw [h]
    exact ⟨rfl, rfl, rfl⟩

theorem destroyRequest (me id : ℕ) : TalkKept db (RequestsController.destroy db me id).2 := by
  rcases RequestsController.destroy_cases db me id with h | h
  · rw [h]
    exact .refl db
  · rw [h]
    exact ⟨rfl, rfl, rfl⟩

theorem updateRequest (id : ℕ) (event : AdminRequestsController.Event) :
    TalkKept db (AdminRequestsController.update db id event) := by
  rcases AdminRequestsController.update_cases db id event with h | ⟨request, -, -, h⟩
  · rw [h]
    exact .refl db
  · rw [h]
    exact ⟨rfl, rfl, rfl⟩

theorem manageUser (me : ℕ) (action : UserAction) : TalkKept db (action.perform P db me) := by
  rcases action.perform_cases P db me with h | ⟨user, params, -, h, -⟩
  · rw [h]
    exact .refl db
  · rw [h]
    rcases user.updateAttributes_cases P db params with hu | ⟨email, name, hu⟩
    · rw [hu]
      exact .refl db
    · rw [hu]
      exact ⟨rfl, rfl, rfl⟩

theorem invite (me : ℕ) (email : String) : TalkKept db (Invitation.create db me email) := by
  unfold Invitation.create
  split_ifs
  · exact ⟨rfl, rfl, rfl⟩
  · exact .refl db

theorem step {op : Op} (h : op.talks = false) : TalkKept db (step P db op) := by
  cases op with
  | signUp email name => exact signUp P db email name
  | invite me email => exact invite db me email
  | createRequest me subject content reward => exact createRequest P db me subject content reward
  | destroyRequest me id => exact destroyRequest db me id
  | updateRequest id event => exact updateRequest db id event
  | updateSetting setting value => exact ⟨rfl, rfl, rfl⟩
  | manageUser me action => exact manageUser P db me action
  | createComment me request content => exact createComment db me request content
  | destroyComment me id => exact destroyComment db me id
  | rateUser me id rating =>
    simp only [Blnkk.step, Db.rateUser]
    split_ifs
    · exact rateUser db id me rating
    · exact .refl db
  | rateRequest me id rating =>
    simp only [Blnkk.step, Db.rateRequest]
    cases db.requests.get? id with
    | none => exact .refl db
    | some r =>
      simp only
      split_ifs
      · exact rateRequest db r me rating
      · exact .refl db
  | rateComment me id rating =>
    simp only [Blnkk.step, Db.rateComment]
    cases db.comments.get? id with
    | none => exact .refl db
    | some c =>
      simp only
      split_ifs
      · exact rateComment db c me rating
      · exact .refl db
  | rateConversation me id rating =>
    simp only [Blnkk.step, Db.rateConversation]
    cases db.conversations.get? id with
    | none => exact .refl db
    | some c =>
      simp only
      split_ifs
      · exact rateConversation db c me rating
      · exact .refl db
  | indexRequests me page => exact indexRequests db me page
  | showRequest me id => exact showRequest db me id
  | showConversation now me id => cases h
  | postMessage now online me payload => cases h
  | conversationRead now me userId conversationId => cases h
  | notifyUnread now => cases h

end TalkKept

def Op.author? : Op → Option ℕ
  | .postMessage _ _ me _ => some me
  | _ => none

theorem step_messages (P : Platform) (db : Db) {op : Op} (h : op.author? = none) :
    (step P db op).messages = db.messages := by
  cases ht : op.talks with
  | false => exact (TalkKept.step P db ht).messages
  | true =>
    cases op with
    | postMessage now online me payload => cases h
    | showConversation now me id =>
      simp only [step, ConversationsController.show]
      split_ifs
      · rfl
      · rfl
      · rfl
    | conversationRead now me userId conversationId =>
      simp only [step, conversationRead]
      cases userId.bind db.users.get? with
      | none => rfl
      | some user => cases conversationId.bind db.conversations.get? <;> rfl
    | notifyUnread now => rfl
    | _ => cases ht

/-- What is stored comes at the end and is the author's. -/
def WrittenBy (me : ℕ) (db db' : Db) : Prop :=
  ∃ written, db'.messages.rows = db.messages.rows ++ written ∧ ∀ m ∈ written, m.userId = some me

namespace WrittenBy

variable {me : ℕ} {db db' db'' : Db}

theorem of_eq (h : db'.messages = db.messages) : WrittenBy me db db' :=
  ⟨[], by rw [h, List.append_nil], List.forall_mem_nil _⟩

theorem trans (h : WrittenBy me db db') (h' : WrittenBy me db' db'') : WrittenBy me db db'' := by
  obtain ⟨l, hl, hu⟩ := h
  obtain ⟨l', hl', hu'⟩ := h'
  refine ⟨l ++ l', by rw [hl', hl, List.append_assoc], fun m hm => ?_⟩
  rcases List.mem_append.mp hm with hm | hm
  · exact hu m hm
  · exact hu' m hm

theorem create (P : Platform) (db : Db) (now c me : ℕ) (systemGenerated : Bool) (content : Option String) :
    WrittenBy me db (Message.save P db now c (some me) systemGenerated content).2 := by
  rcases Message.save_cases P db now c (some me) systemGenerated content with h | ⟨text, h⟩
  · rw [h]
    exact .of_eq rfl
  · rw [h]
    refine ⟨[_], rfl, ?_⟩
    simp

theorem announce (P : Platform) (db : Db) (now me c : ℕ) (request : Option Request) :
    WrittenBy me db (announce P db now me c request).1 := by
  rcases announce_cases P db now me c request with h | ⟨r, -, h⟩
  · rw [h]
    exact .of_eq rfl
  · rw [h]
    exact (create P db now c me true (some (systemContent r))).trans (.of_eq (joinRequest_messages _ r me))

theorem postMessage (P : Platform) {db : Db} (hc : Consistent db) (now : ℕ) (online : List ℕ) (me : ℕ)
    (payload : Payload) : WrittenBy me db (postMessage P db now online me payload).1 := by
  cases hm : db.users.has me with
  | false =>
    rw [postMessage_unknown P now online hm payload]
    exact .of_eq rfl
  | true =>
    have houtcome := postMessage_outcome P hc now online hm payload
    generalize ConversationsSocket.postMessage P db now online me payload = result at houtcome ⊢
    cases houtcome with
    | refused answer hex => exact .of_eq rfl
    | half left hex hpartner hleft =>
      obtain ⟨table, rfl, -⟩ := createConversation_error hleft
      exact .of_eq rfl
    | stopped base c isNew answer hreach => exact (of_eq hreach.messages).trans (announce P base now me c _)
    | delivered base c isNew part created hreach haccepted hcreated =>
      subst hcreated
      have hstored := (of_eq hreach.messages).trans ((announce P base now me c (payload.request? db me)).trans
        (create P _ now c me false part.text))
      exact hstored.trans (.of_eq (deliver_messages ..))

end WrittenBy

theorem step_writtenBy (P : Platform) {db : Db} (hc : Consistent db) {op : Op} {me : ℕ}
    (h : ∀ author, op.author? = some author → author = me) : WrittenBy me db (step P db op) := by
  cases ha : op.author? with
  | none => exact .of_eq (step_messages P db ha)
  | some author =>
    cases op with
    | postMessage now online author' payload =>
      cases ha
      rw [← h author rfl]
      exact .postMessage P hc now online author payload
    | _ => cases ha

end Blnkk
