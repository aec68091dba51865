import Blnkk.Lib.Index
import Blnkk.UserManagement

/-!
The `email_settings` table, in which an address switches off kinds of mail, and
the functions of `GunMailer` that ask it before they send. A token stands for
the hash that its Base64 text carries.
-/

namespace Blnkk

open Relational

inductive MailSetting where
  | invitations
  | conversations
  | comments
  | recomments
  | newfollowers
  | newsletters
  deriving DecidableEq

namespace MailSetting

/-- The symbol as JSON writes it. -/
def name : MailSetting → String
  | invitations => "invitations"
  | conversations => "conversations"
  | comments => "comments"
  | recomments => "recomments"
  | newfollowers => "newfollowers"
  | newsletters => "newsletters"

def ofName : String → Option MailSetting
  | "invitations" => some invitations
  | "conversations" => some conversations
  | "comments" => some comments
  | "recomments" => some recomments
  | "newfollowers" => some newfollowers
  | "newsletters" => some newsletters
  | _ => none

@[simp]
theorem ofName_name (s : MailSetting) : ofName s.name = some s := by
  cases s <;> rfl

end MailSetting

/-- A null in a column counts as off wherever the column is read. -/
structure EmailSetting where
  id : ℕ
  email : String
  on : MailSetting → Bool := fun _ => true

structure Token where
  email : Option String
  setting : Option String
  deriving DecidableEq

abbrev EmailSettings := Table EmailSetting.id

namespace EmailSetting

variable (P : Platform) (t : EmailSettings)

def getToken (email : String) (setting : MailSetting) : Token := ⟨some email, some setting.name⟩

def findBy (email : String) : Option EmailSetting := Table.findBy P.collate EmailSetting.email t email

def findOrNew (email : String) : EmailSetting := (findBy P t email).getD { id := t.fresh, email }

/-- The validation compares the addresses exactly, the index by the collation.
Neither lets a second row with the address through. -/
def taken (row : EmailSetting) : Bool :=
  t.rows.any (fun other => decide (other.id ≠ row.id) && (other.email == row.email || P.collate other.email row.email))

/-- The validations of the address, and the length of its column. -/
def wellFormed (email : String) : Bool := Text.present email && Text.emailFormat email && fitsString email

def save (row : EmailSetting) : EmailSettings :=
  if wellFormed row.email && !taken P t row then t.put row else t

def switchOff (row : EmailSetting) (setting : MailSetting) : EmailSetting :=
  { row with on := Function.update row.on setting false }

theorem switchOff_on (row : EmailSetting) (setting s : MailSetting) :
    (row.switchOff setting).on s = if s = setting then false else row.on s :=
  Function.update_apply row.on setting false s

def processToken (token : Token) : EmailSettings :=
  match token.email, token.setting with
  | some email, some setting =>
    match MailSetting.ofName setting with
    | some s => save P t ((findOrNew P t email).switchOff s)
    | none => t
  | _, _ => t

def allowed (email : String) (setting : MailSetting) : Bool :=
  match findBy P t email with
  | some row => row.on setting
  | none => true

end EmailSetting

/-- The address of a stored user, which passed the same validation and has a
column of the same length. -/
def Address : Type := { email : String // EmailSetting.wellFormed email = true }

/-- The permitted part of `email_setting_attributes`. -/
abbrev EmailSettingAttributes := MailSetting → Option Param

def EmailSetting.assign (row : EmailSetting) (attributes : EmailSettingAttributes) : EmailSetting :=
  { row with on := fun s => ((attributes s).map Param.toBoolean).getD (row.on s) }

/-- The part of the profile update that concerns the settings, in an update that
is not rejected. Saving the user writes the user's address into the row. -/
def UsersController.updateEmailSetting (P : Platform) (t : EmailSettings) (address : Address)
    (attributes : EmailSettingAttributes) : EmailSettings :=
  EmailSetting.save P t { (EmailSetting.findOrNew P t address.1).assign attributes with email := address.1 }

structure Newsletter where
  id : ℕ
  subject : String
  deriving DecidableEq

namespace GunMailer

inductive Subject where
  | translated (key : String) (name : Option String)
  | given (text : String)
  deriving DecidableEq

inductive Topic where
  | user (id : ℕ)
  | message (id conversation : ℕ)
  | comment (id : ℕ)
  | requests (ids : List ℕ)
  | newsletter (id : ℕ)
  deriving DecidableEq

structure Mail where
  recipient : String
  subject : Subject
  template : String
  nameTo : Option String
  topic : Topic
  unsubscribeToken : Token
  deriving DecidableEq

variable (P : Platform) (t : EmailSettings)

/-- The common part of the functions below, which test one setting and put one
setting into the token. -/
def deliver (tested carried : MailSetting) (recipient : String) (subject : Subject) (template : String)
    (nameTo : Option String) (topic : Topic) : Option Mail :=
  if EmailSetting.allowed P t recipient tested then
    some { recipient, subject, template, nameTo, topic, unsubscribeToken := EmailSetting.getToken recipient carried }
  else none

def sendInvitation (fromUser : User) (emailTo : String) (nameTo : Option String) : Option Mail :=
  deliver P t .invitations .invitations emailTo (.translated "emails.invite.intro" (some fromUser.name))
    "gun_mailer/users/invite" nameTo (.user fromUser.id)

def sendConversationReply (userTo : User) (message : Message) (author : User) : Option Mail :=
  deliver P t .conversations .conversations userTo.email (.translated "emails.new_message.intro" (some author.name))
    "gun_mailer/conversations/new_message" (some userTo.name) (.message message.id message.conversationId)

def sendNewCommentMyRequest (userTo : User) (comment : Comment) (author : User) : Option Mail :=
  deliver P t .comments .comments userTo.email (.translated "emails.new_comment.intro" (some author.name))
    "gun_mailer/comments/new_comment_my_request" (some userTo.name) (.comment comment.id)

def sendNewCommentCommentedRequest (userTo : User) (comment : Comment) (author : User) : Option Mail :=
  deliver P t .comments .recomments userTo.email (.translated "emails.new_comment_commented.intro" (some author.name))
    "gun_mailer/comments/new_comment_commented_request" (some userTo.name) (.comment comment.id)

def sendNewFollower (userTo follower : User) : Option Mail :=
  deliver P t .newfollowers .newfollowers userTo.email (.translated "emails.new_follower.intro" (some follower.name))
    "gun_mailer/users/new_follower" (some userTo.name) (.user follower.id)

def sendFreshNewPosts (userTo : User) (requests : List Request) : Option Mail :=
  deliver P t .newsletters .newsletters userTo.email (.translated "emails.fresh_new_posts.intro" none)
    "gun_mailer/requests/fresh_new_posts" (some userTo.name) (.requests (requests.map Request.id))

def sendNewsletter (userTo : User) (newsletter : Newsletter) : Option Mail :=
  deliver P t .newsletters .newsletters userTo.email (.given newsletter.subject) "gun_mailer/newsletter"
    (some userTo.name) (.newsletter newsletter.id)

inductive Sender where
  | invitation
  | conversationReply
  | newCommentMyRequest
  | newCommentCommentedRequest
  | newFollower
  | freshNewPosts
  | newsletter
  deriving DecidableEq

inductive Call : Sender → Type where
  | invitation (fromUser : User) (emailTo : String) (nameTo : Option String) : Call .invitation
  | conversationReply (userTo : User) (message : Message) (author : User) : Call .conversationReply
  | newCommentMyRequest (userTo : User) (comment : Comment) (author : User) : Call .newCommentMyRequest
  | newCommentCommentedRequest (userTo : User) (comment : Comment) (author : User) : Call .newCommentCommentedRequest
  | newFollower (userTo follower : User) : Call .newFollower
  | freshNewPosts (userTo : User) (requests : List Request) : Call .freshNewPosts
  | newsletter (userTo : User) (newsletter : Newsletter) : Call .newsletter

def Call.send : {sender : Sender} → Call sender → Option Mail
  | _, .invitation fromUser emailTo nameTo => sendInvitation P t fromUser emailTo nameTo
  | _, .conversationReply userTo message author => sendConversationReply P t userTo message author
  | _, .newCommentMyRequest userTo comment author => sendNewCommentMyRequest P t userTo comment author
  | _, .newCommentCommentedRequest userTo comment author => sendNewCommentCommentedRequest P t userTo comment author
  | _, .newFollower userTo follower => sendNewFollower P t userTo follower
  | _, .freshNewPosts userTo requests => sendFreshNewPosts P t userTo requests
  | _, .newsletter userTo letter => sendNewsletter P t userTo letter

end GunMailer

end Blnkk
