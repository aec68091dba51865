import Blnkk.Lib.Run
import Blnkk.SocketEvents
import Blnkk.UserManagement

/-!
The complete operations of one tenant and the runs they make up.
-/

namespace Blnkk

open Relational

inductive Op where
  | signUp (email name : String)
  | invite (me : ℕ) (email : String)
  | createRequest (me : ℕ) (subject content : String) (reward : Option String)
  | destroyRequest (me id : ℕ)
  | updateRequest (id : ℕ) (event : AdminRequestsController.Event)
  | updateSetting (setting : Setting) (value : Option String)
  | manageUser (me : ℕ) (action : UserAction)
  | createComment (me request : ℕ) (content : String)
  | destroyComment (me id : ℕ)
  | rateUser (me id : ℕ) (rating : Param)
  | rateRequest (me id : ℕ) (rating : Param)
  | rateComment (me id : ℕ) (rating : Param)
  | rateConversation (me id : ℕ) (rating : Param)
  | indexRequests (me : ℕ) (page : List ℕ)
  | showRequest (me id : ℕ)
  | showConversation (now me id : ℕ)
  | postMessage (now : ℕ) (online : List ℕ) (me : ℕ) (payload : ConversationsSocket.Payload)
  | conversationRead (now me : ℕ) (userId conversationId : Option ℕ)
  | notifyUnread (now : ℕ)
  deriving DecidableEq

def signUp (P : Platform) (db : Db) (email name : String) : Db :=
  match createUser P db email name with
  | .ok (_, created) => created
  | .error _ => db

def AdminSettingsController.update (db : Db) (setting : Setting) (value : Option String) : Db :=
  { db with settings := db.settings.update value setting }

namespace Db

variable (db : Db)

def rateUser (me id : ℕ) (rating : Param) : Db :=
  if db.users.has me && db.users.has id then (User.rate db id me rating).db else db

def rateRequest (me id : ℕ) (rating : Param) : Db :=
  match db.requests.get? id with
  | some request => if db.users.has me then (request.rate db me rating).db else db
  | none => db

def rateComment (me id : ℕ) (rating : Param) : Db :=
  match db.comments.get? id with
  | some comment => if db.users.has me then (comment.rate db me rating).db else db
  | none => db

def rateConversation (me id : ℕ) (rating : Param) : Db :=
  match db.conversations.get? id with
  | some conversation => if db.users.has me then (conversation.rate db me rating).db else db
  | none => db

end Db

def step (P : Platform) (db : Db) : Op → Db
  | .signUp email name => signUp P db email name
  | .invite me email => Invitation.create db me email
  | .createRequest me subject content reward => (RequestsController.create P db me subject content reward).2
  | .destroyRequest me id => (RequestsController.destroy db me id).2
  | .updateRequest id event => AdminRequestsController.update db id event
  | .updateSetting setting value => AdminSettingsController.update db setting value
  | .manageUser me action => action.perform P db me
  | .createComment me request content => (CommentsController.create db me request content).2.1
  | .destroyComment me id => (CommentsController.destroy db me id).2
  | .rateUser me id rating => db.rateUser me id rating
  | .rateRequest me id rating => db.rateRequest me id rating
  | .rateComment me id rating => db.rateComment me id rating
  | .rateConversation me id rating => db.rateConversation me id rating
  | .indexRequests me page => RequestsController.index db me page
  | .showRequest me id => (RequestsController.show db me id).2
  | .showConversation now me id => (ConversationsController.show db now me id).2.2
  | .postMessage now online me payload => (ConversationsSocket.postMessage P db now online me payload).1
  | .conversationRead now me userId conversationId =>
    (ConversationsSocket.conversationRead db now me userId conversationId).1
  | .notifyUnread now => (ConversationUser.notifyAboutUnreadMessages db now).1

def Reachable (P : Platform) (db : Db) : Prop :=
  ∃ settings ops, db = Transition.run (step P) (Db.new settings) ops

theorem Reachable.step {P : Platform} {db : Db} (h : Reachable P db) (op : Op) : Reachable P (step P db op) := by
  obtain ⟨settings, ops, rfl⟩ := h
  exact ⟨settings, ops ++ [op], (Transition.run_concat (Blnkk.step P) (Db.new settings) ops op).symm⟩

end Blnkk
