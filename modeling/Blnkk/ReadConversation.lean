import Blnkk.Posts

namespace Blnkk

open Relational

namespace Conversation

def readAt (now : ℕ) (cu : ConversationUser) : ConversationUser :=
  if cu.unread then { cu with unread := false, lastReadAt := now }
  -- `5.minutes.ago`, in seconds
  else if cu.lastReadAt + 300 < now then { cu with lastReadAt := now }
  else cu

theorem readAt_index (now : ℕ) (cu : ConversationUser) : (readAt now cu).index = cu.index := by
  unfold readAt
  split_ifs <;> rfl

def markRead (db : Db) (now conversation user : ℕ) : Db :=
  { db with
    conversationUsers := db.conversationUsers.update (conversation, user) (readAt now) (readAt_index now) }

end Conversation

def ConversationSerializer.messages (db : Db) (conversation : ℕ) : List Message :=
  let messages := db.messages.rows.filter (fun m => decide (m.conversationId = conversation))
  messages.drop (messages.length - 100)

def ConversationsController.show (db : Db) (now me id : ℕ) : Status × List Message × Db :=
  if db.users.has me then
    if db.conversations.has id && db.conversationUsers.has (id, me) then
      (.ok, ConversationSerializer.messages db id, Conversation.markRead db now id me)
    else (.notFound, [], db)
  else (.unauthorized, [], db)

end Blnkk
