import Blnkk.Lib.Table
import Blnkk.Text

/-!
The tables of `db/schema.rb` with the columns that the modelled code reads or
writes. Defaults are those of the schema, and each table carries the unique
index that the code relies on.
-/

namespace Blnkk

open Relational

/-- A `string` column has 191 characters, so that an index can hold them. -/
def stringLimit : ℕ := 191

def fitsString (s : String) : Bool := decide (s.length ≤ stringLimit)

/-- A `text` column has 65535 bytes. A text that does not fit is an exception of
the `INSERT` or `UPDATE`, since the connection is in strict mode. -/
def fitsText (s : String) : Bool := decide (Text.byteSize s ≤ 65535)

/-- A text that passes the validation of its presence and fits. -/
def storable (s : String) : Bool := Text.present s && fitsText s

structure User where
  id : ℕ
  email : String
  name : String
  enabled : Bool := true
  admin : Bool := false
  followerCount : ℤ := 0
  followingCount : ℤ := 0
  reportCount : ℤ := 0
  requestCount : ℤ := 0
  requestLikeCount : ℤ := 0
  commentLikeCount : ℤ := 0
  conversationLikeCount : ℤ := 0
  pointCount : ℤ := 0
  ip : Option String := none
  lastSeenAt : Option ℕ := none
  activeSessions : List ℕ := []
  deriving DecidableEq

inductive WorkflowState where
  | active
  | disabled
  deriving DecidableEq

structure Request where
  id : ℕ
  userId : ℕ
  subject : String
  content : String
  reward : Option String := none
  workflowState : WorkflowState := .active
  userReachCount : ℤ := 0
  likeCount : ℤ := 0
  reportCount : ℤ := 0
  commentCount : ℤ := 0
  rawScore : ℤ := 0
  score : ℚ := 1
  deriving DecidableEq

structure Comment where
  id : ℕ
  requestId : ℕ
  userId : ℕ
  content : String
  enabled : Bool := true
  likeCount : ℤ := 0
  reportCount : ℤ := 0
  deriving DecidableEq

structure Conversation where
  id : ℕ
  updatedAt : ℕ
  deriving DecidableEq

structure ConversationUser where
  conversationId : ℕ
  userId : ℕ
  unread : Bool := false
  lastReadAt : ℕ
  notified : Bool := false
  deriving DecidableEq

structure Message where
  id : ℕ
  conversationId : ℕ
  userId : Option ℕ
  systemGenerated : Bool := false
  content : String
  createdAt : ℕ
  updatedAt : ℕ
  deriving DecidableEq

inductive Rateable where
  | user (id : ℕ)
  | request (id : ℕ)
  | comment (id : ℕ)
  | conversation (id : ℕ)
  deriving DecidableEq

structure Rating where
  userId : ℕ
  rateable : Rateable
  rating : ℤ
  deriving DecidableEq

structure RequestUser where
  requestId : ℕ
  userId : ℕ
  deriving DecidableEq

inductive Viewable where
  | request (id : ℕ)
  | user (id : ℕ)
  deriving DecidableEq

structure Viewing where
  viewable : Viewable
  userId : ℕ
  viewCount : ℕ := 0
  deriving DecidableEq

structure Invitation where
  userId : ℕ
  email : String
  deriving DecidableEq

abbrev ConversationUser.index (cu : ConversationUser) : ℕ × ℕ := (cu.conversationId, cu.userId)
abbrev Rating.index (r : Rating) : ℕ × Rateable := (r.userId, r.rateable)
abbrev RequestUser.index (ru : RequestUser) : ℕ × ℕ := (ru.requestId, ru.userId)
abbrev Viewing.index (v : Viewing) : Viewable × ℕ := (v.viewable, v.userId)
abbrev Invitation.index (i : Invitation) : ℕ × String := (i.userId, i.email)

inductive Setting where
  | adminEmail
  | «private»
  | siteUrl
  deriving DecidableEq

/-- The values under the keys that the code below reads; `db:inject_settings`
has created every key, some without a value, and no action deletes one. -/
structure Settings where
  adminEmail : Option String := none
  «private» : Option String := some "0"
  siteUrl : Option String := none
  deriving DecidableEq

def Settings.update (settings : Settings) (value : Option String) : Setting → Settings
  | .adminEmail => { settings with adminEmail := value }
  | .«private» => { settings with «private» := value }
  | .siteUrl => { settings with siteUrl := value }

structure Db where
  users : Table User.id
  requests : Table Request.id
  comments : Table Comment.id
  conversations : Table Conversation.id
  conversationUsers : Table ConversationUser.index
  messages : Table Message.id
  ratings : Table Rating.index
  requestUsers : Table RequestUser.index
  viewings : Table Viewing.index
  invitations : Table Invitation.index
  settings : Settings

/-- A tenant database after `db:schema:load` and `db:inject_settings`. -/
def Db.new (settings : Settings) : Db :=
  ⟨.empty, .empty, .empty, .empty, .empty, .empty, .empty, .empty, .empty, .empty, settings⟩

/-- The parts of the platform that the code calls and the repository does not
contain: the comparison of the column collation in MySQL, and
`HTML::FullSanitizer`. -/
structure Platform where
  collate : String → String → Bool
  sanitize : String → String

def Platform.plain : Platform := ⟨fun a b => a == b, id⟩

def Platform.sanitizeField (P : Platform) (s : String) : String := if Text.present s then P.sanitize s else s

end Blnkk
