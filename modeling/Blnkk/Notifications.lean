import Blnkk.EmailSettings
import Blnkk.Operations

/-!
The `notifications` table and the calls of `Notification.notify` that ratings
and comments make through `GunMailer`.
-/

namespace Blnkk

open Relational

inductive NotificationType where
  | requestLike
  | commentMyRequest
  | commentCommentedRequest
  | newFollower
  | commentLike
  deriving DecidableEq

inductive Notable where
  | user (id : ℕ)
  | request (id : ℕ)
  | comment (id : ℕ)
  deriving DecidableEq

structure Notification where
  userId : ℕ
  notificationType : NotificationType
  notable : Notable
  fromUserId : ℕ
  fromUserCount : ℤ := 0
  read : Bool := false
  done : Bool := false
  updatedAt : ℕ
  deriving DecidableEq

abbrev Notification.index (n : Notification) : ℕ × NotificationType × Notable :=
  (n.userId, n.notificationType, n.notable)

abbrev Notifications := Table Notification.index

/-- The arguments of one call of `Notification.notify`. -/
structure NotifyCall where
  user : ℕ
  ntype : NotificationType
  notable : Notable
  fromUser : ℕ
  fromUserCount : ℤ := 1
  deriving DecidableEq

/-- A new row lacks its `from_user` when `create` validates it, so that it is
only written by the `save` at the end, with the values that an old row gets. -/
def Notification.notify (now : ℕ) (t : Notifications) (call : NotifyCall) : Notifications :=
  (t.ensure
      { userId := call.user, notificationType := call.ntype, notable := call.notable, fromUserId := call.fromUser,
        updatedAt := now }).update (call.user, call.ntype, call.notable)
    (fun n => { n with
      fromUserId := call.fromUser
      fromUserCount := call.fromUserCount
      updatedAt := now
      read := false
      done := false })

theorem Notification.get?_notify (now : ℕ) (t : Notifications) (call : NotifyCall) :
    (Notification.notify now t call).get? (call.user, call.ntype, call.notable) =
      some ⟨call.user, call.ntype, call.notable, call.fromUser, call.fromUserCount, false, false, now⟩ := by
  rw [notify, Table.get?_update, if_pos rfl, Table.get?_ensure]
  cases hn : t.get? (call.user, call.ntype, call.notable) with
  | none => simp [Notification.index]
  | some n =>
    have hi := Table.get?_key hn
    simp only [Notification.index, Prod.mk.injEq] at hi
    simp [Notification.index, ← hi.1, ← hi.2.1, ← hi.2.2]

/-- The number that the notifications page gives as that of the others. -/
def Notification.others (n : Notification) : ℤ := n.fromUserCount - 1

def Effect.notifyCall : Effect → Option NotifyCall
  | newFollower user follower => some { user, ntype := .newFollower, notable := .user follower, fromUser := follower }
  | likeMyRequest user request liker likeCount =>
    some { user, ntype := .requestLike, notable := .request request, fromUser := liker, fromUserCount := likeCount }
  | likeMyComment user comment liker likeCount =>
    some { user, ntype := .commentLike, notable := .comment comment, fromUser := liker, fromUserCount := likeCount }
  | slackRequest _ => none

def Effect.mail (P : Platform) (db : Db) (settings : EmailSettings) : Effect → Option GunMailer.Mail
  | newFollower user follower =>
    match db.users.get? user, db.users.get? follower with
    | some user, some follower => GunMailer.sendNewFollower P settings user follower
    | _, _ => none
  | _ => none

def CommentsController.Notice.notifyCall (db : Db) (request me : ℕ) : CommentsController.Notice → NotifyCall
  | commentMyRequest user _ =>
    { user, ntype := .commentMyRequest, notable := .request request, fromUser := me
      fromUserCount := (CommentsController.commentUsers db request).length }
  | commentCommentedRequest user _ =>
    { user, ntype := .commentCommentedRequest, notable := .request request, fromUser := me
      fromUserCount := (CommentsController.commentUsers db request).length }

namespace Db

variable (db : Db)

/-- The `rate` action of the controller of the rated object, for a signed-in
user. -/
def rate (q : Rateable) (me : ℕ) (rating : Param) : RateResult :=
  match q with
  | .user id => if db.users.has me && db.users.has id then User.rate db id me rating else { db }
  | .request id =>
    match db.requests.get? id with
    | some request => if db.users.has me then request.rate db me rating else { db }
    | none => { db }
  | .comment id =>
    match db.comments.get? id with
    | some comment => if db.users.has me then comment.rate db me rating else { db }
    | none => { db }
  | .conversation id =>
    match db.conversations.get? id with
    | some conversation => if db.users.has me then conversation.rate db me rating else { db }
    | none => { db }

end Db

def Rateable.rateOp (me : ℕ) (rating : Param) : Rateable → Op
  | user id => .rateUser me id rating
  | request id => .rateRequest me id rating
  | comment id => .rateComment me id rating
  | conversation id => .rateConversation me id rating

theorem rate_db (P : Platform) (db : Db) (q : Rateable) (me : ℕ) (rating : Param) :
    (db.rate q me rating).db = step P db (q.rateOp me rating) := by
  cases q with
  | user id =>
    simp only [Db.rate, Rateable.rateOp, step, Db.rateUser]
    split_ifs <;> rfl
  | request id =>
    simp only [Db.rate, Rateable.rateOp, step, Db.rateRequest]
    cases db.requests.get? id with
    | none => rfl
    | some row =>
      simp only
      split_ifs <;> rfl
  | comment id =>
    simp only [Db.rate, Rateable.rateOp, step, Db.rateComment]
    cases db.comments.get? id with
    | none => rfl
    | some row =>
      simp only
      split_ifs <;> rfl
  | conversation id =>
    simp only [Db.rate, Rateable.rateOp, step, Db.rateConversation]
    cases db.conversations.get? id with
    | none => rfl
    | some row =>
      simp only
      split_ifs <;> rfl

section Rate

variable {db : Db} {q : Rateable} {me : ℕ} {rating : Param}

theorem rate_rejected {errors : List Rating.Error} (h : db.assignRating me q rating = .error errors) :
    (db.rate q me rating).db = db ∧ (db.rate q me rating).effects = [] := by
  cases q with
  | user id =>
    simp only [Db.rate, User.rate, h]
    split_ifs <;> exact ⟨rfl, rfl⟩
  | request id =>
    simp only [Db.rate]
    cases hr : db.requests.get? id with
    | none => exact ⟨rfl, rfl⟩
    | some r =>
      have hi : r.id = id := Table.get?_key hr
      subst hi
      simp only [Request.rate, h]
      split_ifs <;> exact ⟨rfl, rfl⟩
  | comment id =>
    simp only [Db.rate]
    cases hc : db.comments.get? id with
    | none => exact ⟨rfl, rfl⟩
    | some c =>
      have hi : c.id = id := Table.get?_key hc
      subst hi
      simp only [Comment.rate, h]
      split_ifs <;> exact ⟨rfl, rfl⟩
  | conversation id =>
    simp only [Db.rate]
    cases hc : db.conversations.get? id with
    | none => exact ⟨rfl, rfl⟩
    | some c =>
      have hi : c.id = id := Table.get?_key hc
      subst hi
      simp only [Conversation.rate, h]
      split_ifs <;> exact ⟨rfl, rfl⟩

theorem rate_user {id : ℕ} {v : ℤ} (h : db.assignRating me (.user id) rating = .ok v) :
    db.rate (.user id) me rating =
      { db := User.rated db id me v
        effects := if !rating.eqInt (db.ratingOf me (.user id)) && Rating.upvote v then [.newFollower id me] else []
        raised := decide ((User.rated db id me v).reportersCount (.user id) = 6) } := by
  have hv := (assignRating_ok h).2
  have hid : db.users.has id = true := hv.rateable
  simp only [Db.rate, hv.rater, hid, Bool.and_self, if_true, User.rate, h]

theorem rate_request {r : Request} {v : ℤ} (hr : db.requests.get? r.id = some r)
    (h : db.assignRating me (.request r.id) rating = .ok v) :
    db.rate (.request r.id) me rating =
      { db := r.rated db me v
        effects :=
          (if !rating.eqInt (some ((db.ratingOf me (.request r.id)).getD 0)) && Rating.upvote v && r.userId != me then
            [.likeMyRequest r.userId r.id me ((r.rated db me v).likersCount (.request r.id))] else []) ++
          (if (r.rated db me v).reportersCount (.request r.id) = 2 && (r.rated db me v).settings.siteUrl.isSome then
            [.slackRequest r.id] else [])
        raised := decide ((r.rated db me v).reportersCount (.request r.id) = 2) &&
          (r.rated db me v).settings.siteUrl.isNone } := by
  simp only [Db.rate, hr, (assignRating_ok h).2.rater, if_true, Request.rate, h]

theorem rate_comment {c : Comment} {v : ℤ} (hc : db.comments.get? c.id = some c)
    (h : db.assignRating me (.comment c.id) rating = .ok v) :
    db.rate (.comment c.id) me rating =
      { db := c.rated db me v
        effects :=
          if !rating.eqInt (some ((db.ratingOf me (.comment c.id)).getD 0)) && Rating.upvote v && c.userId != me then
            [.likeMyComment c.userId c.id me ((c.rated db me v).likersCount (.comment c.id))] else []
        raised := decide ((c.rated db me v).reportersCount (.comment c.id) = 2) } := by
  simp only [Db.rate, hc, (assignRating_ok h).2.rater, if_true, Comment.rate, h]

theorem rate_conversation {c : Conversation} {v : ℤ} (hc : db.conversations.get? c.id = some c)
    (h : db.assignRating me (.conversation c.id) rating = .ok v) :
    db.rate (.conversation c.id) me rating = { db := c.rated db me v } := by
  simp only [Db.rate, hc, (assignRating_ok h).2.rater, if_true, Conversation.rate, h]

theorem notified_user {id : ℕ} {v : ℤ} (h : db.assignRating me (.user id) rating = .ok v) :
    (db.rate (.user id) me rating).effects.filterMap Effect.notifyCall =
      if !rating.eqInt (db.ratingOf me (.user id)) && Rating.upvote v then
        [{ user := id, ntype := .newFollower, notable := .user me, fromUser := me }] else [] := by
  rw [rate_user h]
  split_ifs <;> rfl

theorem notified_request {r : Request} {v : ℤ} (hr : db.requests.get? r.id = some r)
    (h : db.assignRating me (.request r.id) rating = .ok v) :
    (db.rate (.request r.id) me rating).effects.filterMap Effect.notifyCall =
      if !rating.eqInt (some ((db.ratingOf me (.request r.id)).getD 0)) && Rating.upvote v && r.userId != me then
        [{ user := r.userId, ntype := .requestLike, notable := .request r.id, fromUser := me
           fromUserCount := (db.rate (.request r.id) me rating).db.likersCount (.request r.id) }] else [] := by
  have hslack (b : Bool) : (if b then [Effect.slackRequest r.id] else []).filterMap Effect.notifyCall = [] := by
    cases b <;> rfl
  rw [rate_request hr h, List.filterMap_append, hslack, List.append_nil]
  split_ifs <;> rfl

theorem notified_comment {c : Comment} {v : ℤ} (hc : db.comments.get? c.id = some c)
    (h : db.assignRating me (.comment c.id) rating = .ok v) :
    (db.rate (.comment c.id) me rating).effects.filterMap Effect.notifyCall =
      if !rating.eqInt (some ((db.ratingOf me (.comment c.id)).getD 0)) && Rating.upvote v && c.userId != me then
        [{ user := c.userId, ntype := .commentLike, notable := .comment c.id, fromUser := me
           fromUserCount := (db.rate (.comment c.id) me rating).db.likersCount (.comment c.id) }] else [] := by
  rw [rate_comment hc h]
  split_ifs <;> rfl

/-- The rated object is a row of its table. -/
inductive Db.Loaded (db : Db) : Rateable → Prop where
  | user (u : User) (hu : db.users.get? u.id = some u) : Db.Loaded db (.user u.id)
  | request (r : Request) (hr : db.requests.get? r.id = some r) : Db.Loaded db (.request r.id)
  | comment (c : Comment) (hc : db.comments.get? c.id = some c) : Db.Loaded db (.comment c.id)
  | conversation (c : Conversation) (hc : db.conversations.get? c.id = some c) : Db.Loaded db (.conversation c.id)

theorem Db.loaded_of_has (hq : db.hasRateable q = true) : db.Loaded q := by
  cases q with
  | user id =>
    obtain ⟨u, hu⟩ := Option.isSome_iff_exists.mp hq
    rw [← Table.get?_key hu]
    exact .user u (Table.get?_row hu)
  | request id =>
    obtain ⟨r, hr⟩ := Option.isSome_iff_exists.mp hq
    rw [← Table.get?_key hr]
    exact .request r (Table.get?_row hr)
  | comment id =>
    obtain ⟨c, hc⟩ := Option.isSome_iff_exists.mp hq
    rw [← Table.get?_key hc]
    exact .comment c (Table.get?_row hc)
  | conversation id =>
    obtain ⟨c, hc⟩ := Option.isSome_iff_exists.mp hq
    rw [← Table.get?_key hc]
    exact .conversation c (Table.get?_row hc)

end Rate

/-- What the effects of a rating work on. -/
structure Tenant where
  db : Db
  notifications : Notifications
  emailSettings : EmailSettings

structure Tenant.Rated where
  tenant : Tenant
  notified : List NotifyCall
  mails : List GunMailer.Mail

def Tenant.rate (P : Platform) (now : ℕ) (t : Tenant) (q : Rateable) (me : ℕ) (rating : Param) : Tenant.Rated :=
  let result := t.db.rate q me rating
  let notified := result.effects.filterMap Effect.notifyCall
  { tenant :=
      { db := result.db
        notifications := notified.foldl (Notification.notify now) t.notifications
        emailSettings := t.emailSettings }
    notified
    mails := result.effects.filterMap (Effect.mail P result.db t.emailSettings) }

end Blnkk
