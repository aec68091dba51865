import Blnkk.PostMessage
import Blnkk.ReadConversation

/-!
The other events of a socket connection of the user `me`, and the half-hourly
`notify_about_unread_messages`.
-/

namespace Blnkk

open Relational

namespace ConversationsSocket

variable (P : Platform) (db : Db) (now : ℕ)

/-- The user marked as a reader is the one the payload names. -/
def conversationRead (me : ℕ) (userId conversationId : Option ℕ) : Db × List Event :=
  match userId.bind db.users.get? with
  | none => (db, [])
  | some user =>
    let read :=
      match conversationId.bind db.conversations.get? with
      | some conversation => Conversation.markRead db now conversation.id user.id
      | none => db
    (read, [.conversationReadUpdate user.id (unreadCount read user.id), .notificationReadUpdate me, .acknowledged])

def isTyping (me : ℕ) (conversationId : Option ℕ) (typing : Param) : List Event :=
  if db.users.has me then
    match conversationId.bind db.conversations.get? with
    | none => [.failure .notFound]
    | some conversation =>
      match ((db.participants conversation.id).filter (· != me)).getLast? with
      | some other => [.userIsTyping other conversation.id typing, .acknowledged]
      | none => [.logged]
  else []

def watchUsersStatus (online : List ℕ) (me : ℕ) (userIds : Option (List ℕ)) : List Event :=
  if db.users.has me then [.usersStatusUpdates me ((userIds.getD []).filter (fun id => decide (id ∈ online)))]
  else []

end ConversationsSocket

namespace ConversationUser

/-- SQL's `user_id != ?` is not true of a missing user. -/
def answers (db : Db) (cu : ConversationUser) : List Message :=
  db.messages.rows.filter (fun m => decide (m.conversationId = cu.conversationId) && !m.systemGenerated &&
    m.userId.isSome && decide (m.userId ≠ some cu.userId))

def unreadMessage (db : Db) (cu : ConversationUser) : Option Message :=
  ((cu.answers db).find? (fun m => decide (cu.lastReadAt < m.updatedAt))).or (cu.answers db).getLast?

def overdue (now : ℕ) (cu : ConversationUser) : Bool :=
  -- `1.hour`, in seconds
  cu.unread && !cu.notified && decide (cu.lastReadAt + 3600 < now)

theorem index_notified (cu : ConversationUser) : ({ cu with notified := true } : ConversationUser).index = cu.index := rfl

/-- The rows that are due are loaded before the first of them is written, and
no iteration reads what another one has written. -/
def notifyAboutUnreadMessages (db : Db) (now : ℕ) : Db × List (ConversationUser × Message) :=
  ({ db with
      conversationUsers := db.conversationUsers.updateWhere (fun cu => cu.overdue now && (cu.unreadMessage db).isSome)
        (fun cu => { cu with notified := true }) index_notified },
    (db.conversationUsers.rows.filter (overdue now)).filterMap (fun cu => (cu.unreadMessage db).map (fun m => (cu, m))))

end ConversationUser

end Blnkk
