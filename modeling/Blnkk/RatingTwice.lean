import Blnkk.LedgerInvariant
import Blnkk.Notifications
import Blnkk.RequestScore

/-!
A `rate` call that is made a second time, right after the first.
-/

namespace Blnkk

open Relational

theorem updateUser_eq_self {db : Db} {id : ℕ} {f : User → User} {hf : ∀ u, (f u).id = u.id}
    (h : ∀ u, db.users.get? id = some u → f u = u) : db.updateUser id f hf = db :=
  congrArg (fun t => { db with users := t }) (Table.update_eq_self h)

theorem Ledger.updatePoints_eq {db : Db} (h : Ledger db) (id : ℕ) : db.updatePoints id = db := by
  apply updateUser_eq_self
  intro u hu
  rw [User.withPoints, ← (h id u hu).pointCount]

theorem Ledger.addLikes_updatePoints_eq {db : Db} (h : Ledger db) (add : ℤ → User → User) (id : ℕ)
    (hadd : ∀ d u, (add d u).id = u.id) : (db.addLikes add id 0 hadd).updatePoints id = db := by
  rw [Db.addLikes, if_pos rfl, h.updatePoints_eq]

section Stored

variable {db : Db} {user : ℕ} {v : ℤ}

theorem saveRating_stored {q : Rateable} (h : db.ratingOf user q = some v) : db.saveRating user q v = db := by
  obtain ⟨row, hrow, rfl⟩ := Option.map_eq_some_iff.mp h
  rcases Db.saveRating_cases db user q row.rating with ⟨hn, -⟩ | ⟨r, hr, he⟩
  · rw [hn] at hrow
    cases hrow
  · rw [he]
    refine congrArg (fun t => { db with ratings := t }) (Table.update_eq_self ?_)
    intro r' hr'
    rw [hrow, Option.some.injEq] at hr'
    rw [hr']

theorem User.rated_stored {self : ℕ} (hl : Ledger db) (h : db.ratingOf user (.user self) = some v) :
    User.rated db self user v = db := by
  have hcounted : db.updateUser self (fun u =>
      { u with
        followerCount := db.likersCount (.user self)
        reportCount := db.reportersCount (.user self) }) (fun _ => rfl) = db := by
    apply updateUser_eq_self
    intro u hu
    rw [← (hl self u hu).followerCount, ← (hl self u hu).reportCount]
  have hfollowing : db.updateUser user (fun u => { u with followingCount := db.followingCount user })
      (fun _ => rfl) = db := by
    apply updateUser_eq_self
    intro u hu
    rw [← (hl user u hu).followingCount]
  simp only [User.rated, saveRating_stored h, hcounted, hl.updatePoints_eq, hfollowing]

theorem Request.rated_stored {self : Request} (hl : Ledger db) (hs : Scores db)
    (hself : db.requests.get? self.id = some self) (h : db.ratingOf user (.request self.id) = some v) :
    self.rated db user v = db := by
  have hmem := Table.get?_mem hself
  simp only [Request.rated, saveRating_stored h, updateScore_of_scored hmem (hs.scored self hmem), h,
    Option.getD_some, sub_self]
  exact hl.addLikes_updatePoints_eq User.addRequestLikes self.userId (fun _ _ => rfl)

theorem Comment.rated_stored {self : Comment} (hl : Ledger db) (hs : self.rescore db .rate = self)
    (hself : db.comments.get? self.id = some self) (h : db.ratingOf user (.comment self.id) = some v) :
    self.rated db user v = db := by
  have hscore : self.updateScore db .rate = db := by
    refine congrArg (fun t => { db with comments := t }) (Table.update_eq_self ?_)
    intro row hrow
    rw [hself, Option.some.injEq] at hrow
    rw [← hrow, hs]
    rfl
  simp only [Comment.rated, saveRating_stored h, hscore, h, Option.getD_some, sub_self]
  exact hl.addLikes_updatePoints_eq User.addCommentLikes self.userId (fun _ _ => rfl)

theorem Conversation.rated_stored {self : Conversation} (hl : Ledger db)
    (h : db.ratingOf user (.conversation self.id) = some v) : self.rated db user v = db := by
  have hfold (ids : List ℕ) :
      ids.foldl (fun d u => (d.addLikes User.addConversationLikes u 0).updatePoints u) db = db := by
    induction ids with
    | nil => rfl
    | cons id ids ih =>
      have hid : (db.addLikes User.addConversationLikes id 0).updatePoints id = db :=
        hl.addLikes_updatePoints_eq User.addConversationLikes id (fun _ _ => rfl)
      simp only [List.foldl_cons, hid, ih]
  simp only [Conversation.rated, saveRating_stored h, h, Option.getD_some, sub_self, hfold]

end Stored

/-- The user whom a like of the object is about. -/
def Db.owner (db : Db) : Rateable → Option ℕ
  | .user id => (db.users.get? id).map User.id
  | .request id => (db.requests.get? id).map Request.userId
  | .comment id => (db.comments.get? id).map Comment.userId
  | .conversation _ => none

theorem owner_user (db : Db) (id : ℕ) : db.owner (.user id) = if db.users.has id then some id else none := by
  cases hu : db.users.get? id with
  | none => simp [Db.owner, Table.has, hu]
  | some u =>
    have hi : u.id = id := Table.get?_key hu
    simp [Db.owner, Table.has, hu, hi]

theorem owner_request (db : Db) (id : ℕ) :
    db.owner (.request id) = (db.requestAuthors.find? (fun p => decide (p.1 = id))).map Prod.snd := by
  rw [Db.requestAuthors, List.find?_map, Option.map_map]
  rfl

theorem owner_comment (db : Db) (id : ℕ) :
    db.owner (.comment id) = (db.commentAuthors.find? (fun p => decide (p.1 = id))).map Prod.snd := by
  rw [Db.commentAuthors, List.find?_map, Option.map_map]
  rfl

theorem owner_sameShape {db db' : Db} (h : SameShape db db') (q : Rateable) : db'.owner q = db.owner q := by
  cases q with
  | user id => rw [owner_user, owner_user, h.users]
  | request id => rw [owner_request, owner_request, h.requests]
  | comment id => rw [owner_comment, owner_comment, h.comments]
  | conversation id => rfl

section Again

variable {db : Db} {q : Rateable} {me : ℕ} {rating : Param} {v : ℤ}

theorem rate_saves (h : db.assignRating me q rating = .ok v) :
    SameShape db (db.rate q me rating).db ∧
      (db.rate q me rating).db.ratings = (db.saveRating me q v).ratings := by
  cases Db.loaded_of_has (assignRating_ok h).2.rateable with
  | user u hu =>
    rw [rate_user h]
    exact ⟨User.rated_sameShape db u.id me v, (User.rated_maps db u.id me v).ratings⟩
  | request r hr =>
    rw [rate_request hr h]
    exact ⟨Request.rated_sameShape db r me v, (Request.rated_maps db r me v).ratings⟩
  | comment c hc =>
    rw [rate_comment hc h]
    exact ⟨Comment.rated_sameShape db c me v, (Comment.rated_maps db c me v).ratings⟩
  | conversation c hc =>
    rw [rate_conversation hc h]
    exact ⟨Conversation.rated_sameShape db c me v, (Conversation.rated_maps db c me v).ratings⟩

theorem ratingOf_rate (h : db.assignRating me q rating = .ok v) (u : ℕ) :
    (db.rate q me rating).db.ratingOf u q = if u = me then some v else db.ratingOf u q := by
  rw [Db.ratingOf, (rate_saves h).2, Db.get?_saveRating]
  by_cases hu : u = me <;> simp [hu, Db.ratingOf]

theorem rate_stores (h : db.assignRating me q rating = .ok v) :
    (db.rate q me rating).db.ratingOf me q = some v ∧ (db.rate q me rating).db.assignRating me q rating = .ok v := by
  obtain ⟨hv, hvalid⟩ := assignRating_ok h
  constructor
  · rw [ratingOf_rate h, if_pos rfl]
  · exact assignRating_of_valid hv (hvalid.mono (.of_sameShape (rate_saves h).1))

theorem rate_comment_scored {id : ℕ} {c : Comment} (h : db.assignRating me (.comment id) rating = .ok v)
    (hc : (db.rate (.comment id) me rating).db.comments.get? id = some c) :
    c.rescore (db.rate (.comment id) me rating).db .rate = c := by
  cases Db.loaded_of_has (assignRating_ok h).2.rateable with
  | comment c₀ hc₀ =>
    have hm := Comment.rated_maps db c₀ me v
    rw [rate_comment hc₀ h] at hc ⊢
    rw [hm.frame] at hc
    have hc' := (Comment.get?_updateScore (db.saveRating me (.comment c₀.id) v) .rate c₀ c₀.id).symm.trans hc
    rw [if_pos rfl] at hc'
    obtain ⟨row, hrow, rfl⟩ := Option.map_eq_some_iff.mp hc'
    have hi : row.id = c₀.id := Table.get?_key hrow
    simp only [Comment.rescore, Comment.scoreColumns, hi, Db.likersCount, Db.reportersCount, Db.ratingCount,
      hm.ratings, true_or, if_true]
    rfl

/-- An accepted call that repeats the stored rating writes what is stored. -/
theorem rate_again {P : Platform} (hdb : Reachable P db) (h : db.assignRating me q rating = .ok v) :
    ((db.rate q me rating).db.rate q me rating).db = (db.rate q me rating).db := by
  obtain ⟨hstored, hagain⟩ := rate_stores h
  have hreach : Reachable P (db.rate q me rating).db := by
    rw [rate_db P]
    exact hdb.step _
  cases Db.loaded_of_has (assignRating_ok hagain).2.rateable with
  | user u hu =>
    rw [rate_user hagain]
    exact User.rated_stored hreach.ledger hstored
  | request r hr =>
    rw [rate_request hr hagain]
    exact Request.rated_stored hreach.ledger hreach.scores hr hstored
  | comment c hc =>
    have hscored := rate_comment_scored h hc
    rw [rate_comment hc hagain]
    exact Comment.rated_stored hreach.ledger hscored hc hstored
  | conversation c hc =>
    rw [rate_conversation hc hagain]
    exact Conversation.rated_stored hreach.ledger hstored

theorem notified_stored (h : db.assignRating me q rating = .ok v) (hs : db.ratingOf me q = some v) :
    (db.rate q me rating).effects.filterMap Effect.notifyCall = [] ↔
      ¬ (rating.eqInt (some v) = false ∧ v = 1 ∧ ∃ u, db.owner q = some u ∧ u ≠ me) := by
  have hself := (assignRating_ok h).2.notSelf
  cases Db.loaded_of_has (assignRating_ok h).2.rateable with
  | user u hu =>
    have hne : u.id ≠ me := fun he => hself (congrArg Rateable.user he)
    rw [notified_user h, hs]
    cases he : rating.eqInt (some v) <;> by_cases hv : v = 1 <;> simp [Rating.upvote, Db.owner, hu, hne, hv]
  | request r hr =>
    rw [notified_request hr h, hs, Option.getD_some]
    cases he : rating.eqInt (some v) <;> by_cases hv : v = 1 <;> by_cases ha : r.userId = me <;>
      simp [Rating.upvote, Db.owner, hr, hv, ha]
  | comment c hc =>
    rw [notified_comment hc h, hs, Option.getD_some]
    cases he : rating.eqInt (some v) <;> by_cases hv : v = 1 <;> by_cases ha : c.userId = me <;>
      simp [Rating.upvote, Db.owner, hc, hv, ha]
  | conversation c hc =>
    rw [rate_conversation hc h]
    simp [Db.owner]

end Again

theorem Effect.mail_eq_none (P : Platform) (db : Db) (settings : EmailSettings) {e : Effect}
    (h : e.notifyCall = none) : e.mail P db settings = none := by
  cases e with
  | newFollower user follower => cases h
  | _ => rfl

theorem Tenant.rate_of_silent {P : Platform} {now : ℕ} {t : Tenant} {q : Rateable} {me : ℕ} {rating : Param}
    (hdb : (t.db.rate q me rating).db = t.db)
    (hsilent : (t.db.rate q me rating).effects.filterMap Effect.notifyCall = []) :
    (t.rate P now q me rating).tenant = t ∧ (t.rate P now q me rating).notified = [] ∧
      (t.rate P now q me rating).mails = [] := by
  refine ⟨?_, hsilent, ?_⟩
  · simp only [Tenant.rate, hsilent, hdb, List.foldl_nil]
  · apply List.filterMap_eq_nil_iff.mpr
    intro e he
    exact Effect.mail_eq_none P _ _ (List.filterMap_eq_nil_iff.mp hsilent e he)

/-- The rating is a like, but not the number one, of something that belongs to
somebody else. -/
def Db.NotifiesAgain (db : Db) (q : Rateable) (me : ℕ) (rating : Param) : Prop :=
  rating.toInteger = some 1 ∧ rating.eqInt (some 1) = false ∧ db.users.has me = true ∧
    ∃ u, db.owner q = some u ∧ u ≠ me

theorem Db.NotifiesAgain.valid {db : Db} {q : Rateable} {me : ℕ} {rating : Param} (h : db.NotifiesAgain q me rating) :
    ValidRating db me q 1 := by
  obtain ⟨-, -, hme, u, hu, hne⟩ := h
  refine ⟨hme, ?_, by omega, ?_, ?_, by omega⟩
  · cases q with
    | user id =>
      obtain ⟨row, hrow, -⟩ := Option.map_eq_some_iff.mp hu
      exact Table.has_of_get? hrow
    | request id =>
      obtain ⟨r, hr, -⟩ := Option.map_eq_some_iff.mp hu
      exact Table.has_of_get? hr
    | comment id =>
      obtain ⟨c, hc, -⟩ := Option.map_eq_some_iff.mp hu
      exact Table.has_of_get? hc
    | conversation id => cases hu
  · rintro c rfl
    cases hu
  · rintro rfl
    rw [owner_user, if_pos hme] at hu
    exact hne (Option.some.inj hu).symm

theorem rating_twice_iff (P : Platform) (t : Tenant) (ht : Reachable P t.db) (now now' : ℕ) (q : Rateable) (me : ℕ)
    (rating : Param) (first second : Tenant.Rated) (hfirst : first = t.rate P now q me rating)
    (hsecond : second = first.tenant.rate P now' q me rating) :
    (second.tenant = first.tenant ∧ second.notified = [] ∧ second.mails = []) ↔
      ¬ t.db.NotifiesAgain q me rating := by
  subst hfirst hsecond
  cases ha : t.db.assignRating me q rating with
  | error errors =>
    obtain ⟨hdb, heffects⟩ := rate_rejected ha
    have hsilent : (t.db.rate q me rating).effects.filterMap Effect.notifyCall = [] := by
      rw [heffects]
      rfl
    rw [(Tenant.rate_of_silent (P := P) hdb hsilent).1]
    refine iff_of_true (Tenant.rate_of_silent hdb hsilent) (fun hn => ?_)
    rw [assignRating_of_valid hn.1 hn.valid] at ha
    cases ha
  | ok v =>
    obtain ⟨hstored, hagain⟩ := rate_stores ha
    have hdb := rate_again ht ha
    have hiff := notified_stored hagain hstored
    rw [owner_sameShape (rate_saves ha).1] at hiff
    obtain ⟨hv, hvalid⟩ := assignRating_ok ha
    have hcond : t.db.NotifiesAgain q me rating ↔
        rating.eqInt (some v) = false ∧ v = 1 ∧ ∃ u, t.db.owner q = some u ∧ u ≠ me := by
      rw [Db.NotifiesAgain, hv, Option.some.injEq]
      constructor
      · rintro ⟨rfl, he, -, hu⟩
        exact ⟨he, rfl, hu⟩
      · rintro ⟨he, rfl, hu⟩
        exact ⟨rfl, he, hvalid.rater, hu⟩
    rw [hcond, ← hiff]
    constructor
    · rintro ⟨-, hsilent, -⟩
      exact hsilent
    · intro hsilent
      exact Tenant.rate_of_silent (t := (t.rate P now q me rating).tenant) hdb hsilent

def bikeTenant : Tenant :=
  { db := Transition.run (step .plain) (Db.new {})
      [.signUp "ann@blnkk.com" "ann", .signUp "bob@blnkk.com" "bob", .createRequest 1 "bike" "wanted" none]
    notifications := .empty
    emailSettings := .empty }

theorem follow_as_number_once :
    (((bikeTenant.rate .plain 10 (.user 1) 2 (.int 1)).tenant.rate .plain 11 (.user 1) 2 (.int 1)).tenant =
        (bikeTenant.rate .plain 10 (.user 1) 2 (.int 1)).tenant ∧
      ((bikeTenant.rate .plain 10 (.user 1) 2 (.int 1)).tenant.rate .plain 11 (.user 1) 2 (.int 1)).notified = [] ∧
      ((bikeTenant.rate .plain 10 (.user 1) 2 (.int 1)).tenant.rate .plain 11 (.user 1) 2 (.int 1)).mails = []) ∧
    (bikeTenant.rate .plain 10 (.user 1) 2 (.int 1)).mails.length = 1 :=
  ⟨(rating_twice_iff .plain bikeTenant ⟨{}, _, rfl⟩ 10 11 (.user 1) 2 (.int 1) _ _ rfl rfl).mpr
    (fun h => absurd h.2.1 (by decide)), by decide +kernel⟩

def followTwice : Tenant.Rated × Tenant.Rated :=
  let first := bikeTenant.rate .plain 10 (.user 1) 2 (.text "1")
  (first, first.tenant.rate .plain 11 (.user 1) 2 (.text "1"))

def likeTwice : Tenant.Rated × Tenant.Rated :=
  let first := bikeTenant.rate .plain 10 (.request 1) 2 (.text "1")
  (first, first.tenant.rate .plain 11 (.request 1) 2 (.text "1"))

theorem follow_as_text_mailed_twice :
    Reachable .plain bikeTenant.db ∧
    followTwice.1.mails.length = 1 ∧ followTwice.2.mails = followTwice.1.mails ∧
    (followTwice.1.tenant.notifications.get? (1, .newFollower, .user 2)).map Notification.updatedAt = some 10 ∧
    (followTwice.2.tenant.notifications.get? (1, .newFollower, .user 2)).map Notification.updatedAt = some 11 ∧
    (likeTwice.1.tenant.notifications.get? (1, .requestLike, .request 1)).map Notification.updatedAt = some 10 ∧
    (likeTwice.2.tenant.notifications.get? (1, .requestLike, .request 1)).map Notification.updatedAt = some 11 := by
  refine ⟨⟨{}, _, rfl⟩, ?_⟩
  decide +kernel

end Blnkk
