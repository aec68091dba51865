import Blnkk.Posts

/-!
`ConversationsSocketController#post_message` and what it calls. An exception
is caught at its end, so every write made before it stays.
-/

namespace Blnkk

open Relational

namespace Message

structure Draft where
  id : Option ℕ
  content : Option String
  deriving DecidableEq

def flagUnread (fromUser : Bool) (cu : ConversationUser) : ConversationUser :=
  { cu with notified := if fromUser && !cu.unread then false else cu.notified, unread := true }

def updateUnreadStatus (db : Db) (now conversation : ℕ) (user : Option ℕ) : Db :=
  { db with
    conversations := db.conversations.update conversation (fun c => { c with updatedAt := now })
    conversationUsers := db.conversationUsers.updateWhere
      (fun cu => decide (cu.conversationId = conversation) && decide (some cu.userId ≠ user)) (flagUnread user.isSome) }

def store (db : Db) (now conversation : ℕ) (user : Option ℕ) (systemGenerated : Bool) (content : String) : Db :=
  { db with
    messages := db.messages.insertFresh (fun id =>
      { id, conversationId := conversation, userId := user, systemGenerated, content,
        createdAt := now, updatedAt := now }) }

/-- A message of a user needs the user, a system message does not. -/
def valid (user : Option ℕ) (systemGenerated : Bool) (text : String) : Bool :=
  Text.present text && (systemGenerated || user.isSome)

@[simp]
theorem valid_some (user : ℕ) (systemGenerated : Bool) (text : String) :
    valid (some user) systemGenerated text = Text.present text := by
  rw [valid, Option.isSome_some, Bool.or_true, Bool.and_true]

/-- The save of a message, if the `INSERT` does not raise. -/
def save (P : Platform) (db : Db) (now conversation : ℕ) (user : Option ℕ) (systemGenerated : Bool)
    (content : Option String) : Draft × Db :=
  match content.map P.sanitizeField with
  | none => (⟨none, none⟩, db)
  | some text =>
    if valid user systemGenerated text then
      (⟨some db.messages.fresh, some text⟩,
        updateUnreadStatus (store db now conversation user systemGenerated text) now conversation user)
    else (⟨none, some text⟩, db)

/-- A text that is valid and does not fit its column. Unification is not to count
its bytes. -/
@[irreducible]
def raises (P : Platform) (user : Option ℕ) (systemGenerated : Bool) (content : Option String) : Bool :=
  (content.map P.sanitizeField).any (fun text => valid user systemGenerated text && !fitsText text)

def create (P : Platform) (db : Db) (now conversation : ℕ) (user : Option ℕ) (systemGenerated : Bool)
    (content : Option String) : Option (Draft × Db) :=
  if raises P user systemGenerated content then none
  else some (save P db now conversation user systemGenerated content)

theorem create_cases (P : Platform) (db : Db) (now conversation : ℕ) (user : Option ℕ) (systemGenerated : Bool)
    (content : Option String) :
    raises P user systemGenerated content = true ∧ create P db now conversation user systemGenerated content = none ∨
      raises P user systemGenerated content = false ∧ create P db now conversation user systemGenerated content =
        some (save P db now conversation user systemGenerated content) := by
  cases h : raises P user systemGenerated content with
  | true => exact Or.inl ⟨rfl, by rw [create, h, if_pos rfl]⟩
  | false => exact Or.inr ⟨rfl, by rw [create, h, if_neg Bool.false_ne_true]⟩

theorem save_cases (P : Platform) (db : Db) (now conversation : ℕ) (user : Option ℕ) (systemGenerated : Bool)
    (content : Option String) :
    (save P db now conversation user systemGenerated content).2 = db ∨
      ∃ text, (save P db now conversation user systemGenerated content).2 =
        updateUnreadStatus (store db now conversation user systemGenerated text) now conversation user := by
  unfold save
  cases content.map P.sanitizeField with
  | none => exact Or.inl rfl
  | some text =>
    simp only
    split_ifs
    · exact Or.inr ⟨text, rfl⟩
    · exact Or.inl rfl

theorem create_storable (P : Platform) (db : Db) (now conversation user : ℕ) (systemGenerated : Bool)
    {content : Option String} {text : String} (htext : content.map P.sanitizeField = some text)
    (h : storable text = true) :
    create P db now conversation (some user) systemGenerated content =
      some (⟨some db.messages.fresh, some text⟩,
        updateUnreadStatus (store db now conversation (some user) systemGenerated text) now conversation (some user)) := by
  obtain ⟨hp, hfits⟩ := Bool.and_eq_true_iff.mp h
  simp only [create, raises, save, htext, Option.any_some, valid_some, hp, hfits, Bool.not_true, Bool.and_false,
    Bool.false_eq_true, if_false, if_true]

end Message

namespace ConversationsSocket

/-- A text, or another value of JSON with the text that the column makes of it. -/
inductive Content where
  | text (s : String)
  | value (shown : String)
  deriving DecidableEq

instance : Coe String Content := ⟨.text⟩

def Content.cast : Content → String
  | text s => s
  | value shown => shown

structure MessagePart where
  conversationId : Option ℕ := none
  content : Option Content := none
  deriving DecidableEq

def MessagePart.text (part : MessagePart) : Option String := part.content.map Content.cast

structure Payload where
  message : Option MessagePart := none
  requestId : Option ℕ := none
  userId : Option ℕ := none
  deriving DecidableEq

inductive Event where
  | failure (status : Status)
  | success (status : Status) (conversation : ℕ)
  | conversationNew (receiver conversation : ℕ) (message : Message.Draft) (fromSelf : Bool) (unreadCount : ℕ)
  | messageNew (receiver conversation : ℕ) (message : Message.Draft) (fromSelf : Bool) (unreadCount : ℕ)
  | conversationReply (receiver conversation : ℕ) (message : Message.Draft)
  | conversationReadUpdate (receiver unreadCount : ℕ)
  | notificationReadUpdate (receiver : ℕ)
  | userIsTyping (receiver conversation : ℕ) (isTyping : Param)
  | usersStatusUpdates (receiver : ℕ) (users : List ℕ)
  | acknowledged
  | logged
  deriving DecidableEq

inductive Lookup where
  | found (db : Db) (conversation : Option ℕ) (isNew : Bool) (systemMessage : Option Message.Draft)
  | raised (db : Db)

variable (P : Platform) (db : Db) (now : ℕ)

def sharedConversation (other me : ℕ) : Option Conversation :=
  db.conversations.rows.find? (fun c => db.conversationUsers.has (c.id, other) && db.conversationUsers.has (c.id, me))

def addParticipant (conversation user : ℕ) : Option Db :=
  (db.conversationUsers.insert { conversationId := conversation, userId := user, lastReadAt := now }).map
    (fun conversationUsers => { db with conversationUsers })

def startConversation : Db :=
  { db with conversations := db.conversations.insertFresh (fun id => { id, updatedAt := now }) }

/-- `Conversation.create` and the two `users <<`; the second insert violates
the unique index when both are the same user. -/
def createConversation (me other : ℕ) : Except Db (ℕ × Db) :=
  match addParticipant (startConversation db now) now db.conversations.fresh me with
  | none => .error (startConversation db now)
  | some joined =>
    match addParticipant joined now db.conversations.fresh other with
    | none => .error joined
    | some both => .ok (db.conversations.fresh, both)

def findOrCreate (me other : ℕ) : Except Db (ℕ × Bool × Db) :=
  match sharedConversation db other me with
  | some c => .ok (c.id, false, db)
  | none =>
    match createConversation db now me other with
    | .ok (id, created) => .ok (id, true, created)
    | .error left => .error left

def systemContent (request : Request) : String :=
  "\x7b\"type\":\"message_from_request\",\"requestId\":" ++ toString request.id ++
    ",\"requestContent\":" ++ Text.toJson (Text.truncate 140 request.subject) ++ "\x7d"

def requestBranch (me : ℕ) (request : Request) : Lookup :=
  if request.userId = me then .found db none false none
  else if db.users.has request.userId then
    match findOrCreate db now me request.userId with
    | .error left => .raised left
    | .ok (id, isNew, db) =>
      match Message.create P db now id (some me) true (some (systemContent request)) with
      | none => .raised db
      | some created => .found (created.2.joinRequest request me) (some id) isNew (some created.1)
  else .raised db

/-- `User.find` raises when there is no such user. The user found is not
compared with the sender. -/
def userBranch (me userId : ℕ) : Lookup :=
  if db.users.has userId then
    match findOrCreate db now me userId with
    | .error left => .raised left
    | .ok (id, isNew, db) => .found db (some id) isNew none
  else .raised db

def lookup (me : ℕ) (payload : Payload) : Lookup :=
  match payload.message.bind MessagePart.conversationId with
  | some id => .found db ((db.conversations.get? id).map Conversation.id) false none
  | none =>
    match payload.requestId, payload.userId with
    | some requestId, _ =>
      match db.requests.get? requestId with
      | some request => requestBranch P db now me request
      | none => .found db none false none
    | none, some userId => userBranch db now me userId
    | none, none => .found db none false none

def unreadCount (user : ℕ) : ℕ :=
  db.conversationUsers.count (fun cu => decide (cu.userId = user) && cu.unread)

def notifyByEmail (conversation user : ℕ) (draft : Message.Draft) : Db × List Event :=
  match db.conversationUsers.get? (conversation, user) with
  | none => (db, [.logged])
  | some cu =>
    if cu.notified then (db, [])
    else
      ({ db with conversationUsers := db.conversationUsers.update (conversation, user) (fun cu => { cu with notified := true }) },
        [.conversationReply user conversation draft])

theorem notifyByEmail_cases (conversation user : ℕ) (draft : Message.Draft) :
    notifyByEmail db conversation user draft = (db, [.logged]) ∨ notifyByEmail db conversation user draft = (db, []) ∨
      notifyByEmail db conversation user draft =
        ({ db with conversationUsers := db.conversationUsers.update (conversation, user) (fun cu => { cu with notified := true }) },
          [.conversationReply user conversation draft]) := by
  unfold notifyByEmail
  cases db.conversationUsers.get? (conversation, user) with
  | none => exact Or.inl rfl
  | some cu =>
    right
    simp only
    split_ifs
    · exact Or.inl rfl
    · exact Or.inr rfl

def deliver (online : List ℕ) (me conversation : ℕ) (isNew : Bool) (systemMessage : Option Message.Draft)
    (draft : Message.Draft) : List ℕ → Db × List Event → Db × List Event
  | [], state => state
  | user :: rest, (db, events) =>
    let count := unreadCount db user
    let pushed :=
      if me = user ∨ user ∈ online then
        if isNew then (db, [.conversationNew user conversation draft (decide (me = user)) count])
        else
          (db, (systemMessage.map (fun s => Event.messageNew user conversation s (decide (me = user)) count)).toList ++
            [.messageNew user conversation draft (decide (me = user)) count])
      else notifyByEmail db conversation user draft
    deliver online me conversation isNew systemMessage draft rest (pushed.1, events ++ pushed.2)

/-- Only a text can be equal to the last message. -/
def repeats (me conversation : ℕ) (content : Option Content) : Bool :=
  match (db.messages.rows.filter (fun m => decide (m.conversationId = conversation))).getLast? with
  | none => false
  | some last => decide (last.userId = some me) && decide (content = some (.text last.content))

def addMessage (online : List ℕ) (me conversation : ℕ) (isNew : Bool) (systemMessage : Option Message.Draft)
    (message : Option MessagePart) : Db × List Event :=
  match message with
  | none => (db, [.logged])
  | some part =>
    if repeats db me conversation part.content then (db, [.failure .conflict])
    else
      match Message.create P db now conversation (some me) false part.text with
      | none => (db, [.logged])
      | some created =>
        -- `new_message.present?` holds of an object that was not saved, too
        let delivered := deliver online me conversation isNew systemMessage created.1
          (created.2.participants conversation) (created.2, [])
        (delivered.1, delivered.2 ++ [.success .created conversation])

def postMessage (online : List ℕ) (me : ℕ) (payload : Payload) : Db × List Event :=
  if db.users.has me then
    match lookup P db now me payload with
    | .raised left => (left, [.logged])
    | .found db conversation isNew systemMessage =>
      match conversation with
      | some id =>
        if db.conversationUsers.has (id, me) then
          addMessage P db now online me id isNew systemMessage payload.message
        else (db, [.failure .notFound])
      | none => (db, [.failure .notFound])
  else (db, [.failure .unauthorized])

end ConversationsSocket

end Blnkk
