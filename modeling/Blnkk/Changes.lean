import Blnkk.Operations
import Mathlib.Logic.Relation

/-!
What the complete operations can do to the database: every one of them is a
sequence of the changes below, and every invariant is proved of these.
-/

namespace Blnkk

open Relational Relation

def User.reputation (u : User) : User :=
  { u with
    email := ""
    name := ""
    enabled := true
    admin := false
    requestCount := 0
    ip := none
    lastSeenAt := none
    activeSessions := [] }

def Request.standing (r : Request) : Request :=
  { r with subject := "", content := "", reward := none, workflowState := .active }

def Comment.standing (c : Comment) : Comment := { c with content := "", enabled := true }

inductive Change (db : Db) : Db → Prop where
  | settings (settings : Settings) : Change db { db with settings }
  | messages (messages : Table Message.id) : Change db { db with messages }
  | invitations (invitations : Table Invitation.index) : Change db { db with invitations }
  | user (id : ℕ) (f : User → User) (hf : ∀ u, (f u).id = u.id)
      (hr : ∀ u, (f u).reputation = u.reputation) : Change db (db.updateUser id f hf)
  | request (id : ℕ) (f : Request → Request) (hf : ∀ r, (f r).id = r.id)
      (hr : ∀ r, (f r).standing = r.standing) : Change db { db with requests := db.requests.update id f hf }
  | comment (id : ℕ) (f : Comment → Comment) (hf : ∀ c, (f c).id = c.id)
      (hr : ∀ c, (f c).standing = c.standing) : Change db { db with comments := db.comments.update id f hf }
  | conversation (id : ℕ) (f : Conversation → Conversation) (hf : ∀ c, (f c).id = c.id) :
      Change db { db with conversations := db.conversations.update id f hf }
  | flags (p : ConversationUser → Bool) (f : ConversationUser → ConversationUser)
      (hf : ∀ cu, (f cu).index = cu.index) :
      Change db { db with conversationUsers := db.conversationUsers.updateWhere p f hf }
  | newUser (u : ℕ → User) (hu : ∀ n, (u n).id = n)
      (hr : ∀ n, (u n).reputation = { id := n, email := "", name := "" }) :
      Change db { db with users := db.users.insertFresh u hu }
  | newRequest (me : ℕ) (subject content : String) (reward : Option String) (hme : db.users.has me = true) :
      Change db (RequestsController.post db me subject content reward)
  | newComment (me requestId : ℕ) (content : String) (hme : db.users.has me = true) :
      Change db (CommentsController.post db me requestId content)
  | newConversation (now me other id : ℕ) (created : Db) (hme : db.users.has me = true)
      (hother : db.users.has other = true) (hn : ConversationsSocket.sharedConversation db other me = none)
      (h : ConversationsSocket.createConversation db now me other = .ok (id, created)) : Change db created
  | halfConversation (now me other : ℕ) (left : Db) (hme : db.users.has me = true)
      (hn : ConversationsSocket.sharedConversation db other me = none)
      (h : ConversationsSocket.createConversation db now me other = .error left) : Change db left
  | joinRequest (r : Request) (user : ℕ) (hr : db.requests.get? r.id = some r)
      (hu : db.users.has user = true) : Change db (db.joinRequest r user)
  | rescore (r : Request) (hr : db.requests.get? r.id = some r) : Change db (r.updateScore db .comment)
  | view (r : Request) (me : ℕ) (hr : db.requests.get? r.id = some r) (hme : db.users.has me = true) :
      Change db (RequestsController.view me db r)
  | rateUser (self user : ℕ) (v : ℤ) (hv : ValidRating db user (.user self) v) :
      Change db (User.rated db self user v)
  | rateRequest (r : Request) (user : ℕ) (v : ℤ) (hr : db.requests.get? r.id = some r)
      (hv : ValidRating db user (.request r.id) v) : Change db (r.rated db user v)
  | rateComment (c : Comment) (user : ℕ) (v : ℤ) (hc : db.comments.get? c.id = some c)
      (hv : ValidRating db user (.comment c.id) v) : Change db (c.rated db user v)
  | rateConversation (c : Conversation) (user : ℕ) (v : ℤ)
      (hv : ValidRating db user (.conversation c.id) v) : Change db (c.rated db user v)

abbrev Changes : Db → Db → Prop := ReflTransGen Change

theorem Changes.invariant {I : Db → Prop} (hI : ∀ db db', Change db db' → I db → I db') {db db' : Db}
    (h : Changes db db') (hdb : I db) : I db' := by
  induction h with
  | refl => exact hdb
  | tail _ hc ih => exact hI _ _ hc ih

theorem user_rate_changes (db : Db) (self user : ℕ) (rating : Param) :
    Changes db (User.rate db self user rating).db := by
  unfold User.rate
  cases h : db.assignRating user (.user self) rating with
  | error errors => exact .refl
  | ok v => exact .single (.rateUser self user v (assignRating_ok h).2)

theorem request_rate_changes (db : Db) (r : Request) (user : ℕ) (rating : Param)
    (hr : db.requests.get? r.id = some r) : Changes db (r.rate db user rating).db := by
  unfold Request.rate
  cases h : db.assignRating user (.request r.id) rating with
  | error errors => exact .refl
  | ok v => exact .single (.rateRequest r user v hr (assignRating_ok h).2)

theorem comment_rate_changes (db : Db) (c : Comment) (user : ℕ) (rating : Param)
    (hc : db.comments.get? c.id = some c) : Changes db (c.rate db user rating).db := by
  unfold Comment.rate
  cases h : db.assignRating user (.comment c.id) rating with
  | error errors => exact .refl
  | ok v => exact .single (.rateComment c user v hc (assignRating_ok h).2)

theorem conversation_rate_changes (db : Db) (c : Conversation) (user : ℕ) (rating : Param) :
    Changes db (c.rate db user rating).db := by
  unfold Conversation.rate
  cases h : db.assignRating user (.conversation c.id) rating with
  | error errors => exact .refl
  | ok v => exact .single (.rateConversation c user v (assignRating_ok h).2)

theorem rate_op_changes (P : Platform) (db : Db) (me id : ℕ) (rating : Param) :
    Changes db (step P db (.rateUser me id rating)) ∧ Changes db (step P db (.rateRequest me id rating)) ∧
      Changes db (step P db (.rateComment me id rating)) ∧
      Changes db (step P db (.rateConversation me id rating)) := by
  refine ⟨?_, ?_, ?_, ?_⟩
  · simp only [step, Db.rateUser]
    split_ifs
    · exact user_rate_changes db id me rating
    · exact .refl
  · simp only [step, Db.rateRequest]
    cases h : db.requests.get? id with
    | none => exact .refl
    | some r =>
      have hr : db.requests.get? r.id = some r := Table.get?_row h
      by_cases hm : db.users.has me
      · simpa [hm] using request_rate_changes db r me rating hr
      · simpa [hm] using ReflTransGen.refl
  · simp only [step, Db.rateComment]
    cases h : db.comments.get? id with
    | none => exact .refl
    | some c =>
      have hc : db.comments.get? c.id = some c := Table.get?_row h
      by_cases hm : db.users.has me
      · simpa [hm] using comment_rate_changes db c me rating hc
      · simpa [hm] using ReflTransGen.refl
  · simp only [step, Db.rateConversation]
    cases h : db.conversations.get? id with
    | none => exact .refl
    | some c =>
      by_cases hm : db.users.has me
      · simpa [hm] using conversation_rate_changes db c me rating
      · simpa [hm] using ReflTransGen.refl

end Blnkk
