import Blnkk.Score

/-!
The four `rate` methods. A rated object is the row its caller has loaded; the
raised flag marks an exception that leaves the writes made before it in place.
-/

namespace Blnkk

open Relational

inductive Effect where
  | newFollower (user follower : ℕ)
  | likeMyRequest (user request liker : ℕ) (likeCount : ℤ)
  | likeMyComment (user comment liker : ℕ) (likeCount : ℤ)
  | slackRequest (request : ℕ)
  deriving DecidableEq

structure RateResult where
  db : Db
  errors : List Rating.Error := []
  effects : List Effect := []
  raised : Bool := false

namespace User

def points (u : User) : ℤ :=
  u.followerCount + 2 * u.requestLikeCount + 5 * u.commentLikeCount + 10 * u.conversationLikeCount

def withPoints (u : User) : User := { u with pointCount := u.points }

def addRequestLikes (diff : ℤ) (u : User) : User := { u with requestLikeCount := u.requestLikeCount + diff }

def addCommentLikes (diff : ℤ) (u : User) : User := { u with commentLikeCount := u.commentLikeCount + diff }

def addConversationLikes (diff : ℤ) (u : User) : User :=
  { u with conversationLikeCount := u.conversationLikeCount + diff }

end User

namespace Db

variable (db : Db)

def updateUser (id : ℕ) (f : User → User) (hf : ∀ u, (f u).id = u.id := by intro _; rfl) : Db :=
  { db with users := db.users.update id f hf }

def updatePoints (id : ℕ) : Db := db.updateUser id User.withPoints

def followingCount (user : ℕ) : ℤ :=
  db.ratings.count (fun r => decide (r.userId = user) && r.rateable.isUser && decide (r.rating = 1))

def addLikes (add : ℤ → User → User) (id : ℕ) (diff : ℤ)
    (hadd : ∀ d u, (add d u).id = u.id := by intro _ _; rfl) : Db :=
  if diff = 0 then db else db.updateUser id (add diff) (hadd diff)

def participants (conversation : ℕ) : List ℕ :=
  (db.conversationUsers.rows.filter (fun cu => decide (cu.conversationId = conversation))).map
    ConversationUser.userId

end Db

namespace User

def rated (db : Db) (self user : ℕ) (v : ℤ) : Db :=
  let saved := db.saveRating user (.user self) v
  let counted := saved.updateUser self (fun u =>
    { u with
      followerCount := saved.likersCount (.user self)
      reportCount := saved.reportersCount (.user self) })
  let pointed := counted.updatePoints self
  pointed.updateUser user (fun u => { u with followingCount := pointed.followingCount user })

def rate (db : Db) (self user : ℕ) (rating : Param) : RateResult :=
  let oldRating := db.ratingOf user (.user self)
  match db.assignRating user (.user self) rating with
  | .error errors => { db, errors }
  | .ok v =>
    let db := rated db self user v
    { db
      effects := if !rating.eqInt oldRating && Rating.upvote v then [.newFollower self user] else []
      -- the alert text calls `admin_user_url`, which `User` does not have
      raised := decide (db.reportersCount (.user self) = 6) }

end User

namespace Request

def rated (db : Db) (self : Request) (user : ℕ) (v : ℤ) : Db :=
  let oldRating := (db.ratingOf user (.request self.id)).getD 0
  let saved := db.saveRating user (.request self.id) v
  let scored := self.updateScore saved .rate
  let diffRate := v - oldRating
  (scored.addLikes User.addRequestLikes self.userId diffRate).updatePoints self.userId

def rate (db : Db) (self : Request) (user : ℕ) (rating : Param) : RateResult :=
  let oldRating := (db.ratingOf user (.request self.id)).getD 0
  match db.assignRating user (.request self.id) rating with
  | .error errors => { db, errors }
  | .ok v =>
    let db := self.rated db user v
    { db
      effects :=
        (if !rating.eqInt (some oldRating) && Rating.upvote v && self.userId != user then
          [.likeMyRequest self.userId self.id user (db.likersCount (.request self.id))] else []) ++
        (if db.reportersCount (.request self.id) = 2 && db.settings.siteUrl.isSome then [.slackRequest self.id]
          else [])
      -- the alert text calls `chomp` on the value of `SITE_URL`
      raised := decide (db.reportersCount (.request self.id) = 2) && db.settings.siteUrl.isNone }

end Request

namespace Comment

def rated (db : Db) (self : Comment) (user : ℕ) (v : ℤ) : Db :=
  let oldRating := (db.ratingOf user (.comment self.id)).getD 0
  let saved := db.saveRating user (.comment self.id) v
  let scored := self.updateScore saved .rate
  let diffRate := v - oldRating
  (scored.addLikes User.addCommentLikes self.userId diffRate).updatePoints self.userId

def rate (db : Db) (self : Comment) (user : ℕ) (rating : Param) : RateResult :=
  let oldRating := (db.ratingOf user (.comment self.id)).getD 0
  match db.assignRating user (.comment self.id) rating with
  | .error errors => { db, errors }
  | .ok v =>
    let db := self.rated db user v
    { db
      effects :=
        if !rating.eqInt (some oldRating) && Rating.upvote v && self.userId != user then
          [.likeMyComment self.userId self.id user (db.likersCount (.comment self.id))] else []
      -- the alert text calls `request_url`, which `Comment` does not have
      raised := decide (db.reportersCount (.comment self.id) = 2) }

end Comment

namespace Conversation

def rated (db : Db) (self : Conversation) (user : ℕ) (v : ℤ) : Db :=
  let oldRating := (db.ratingOf user (.conversation self.id)).getD 0
  let saved := db.saveRating user (.conversation self.id) v
  let diffRate := v - oldRating
  ((saved.participants self.id).filter (· != user)).foldl
    (fun d u => (d.addLikes User.addConversationLikes u diffRate).updatePoints u) saved

def rate (db : Db) (self : Conversation) (user : ℕ) (rating : Param) : RateResult :=
  match db.assignRating user (.conversation self.id) rating with
  | .error errors => { db, errors }
  | .ok v => { db := self.rated db user v }

end Conversation

end Blnkk
