import Blnkk.KeptTables
import Blnkk.RatingTwice

/-!
The points that users get from their own ratings of what they have written.
-/

namespace Blnkk

open Relational

section Growth

/-- Entries are only appended, and those are about rows that did not exist. -/
def Appends (has : ℕ → Bool) (l l' : List (ℕ × ℕ)) : Prop := ∃ new, l' = l ++ new ∧ ∀ p ∈ new, has p.1 = false

namespace Appends

theorem of_eq {has : ℕ → Bool} {l l' : List (ℕ × ℕ)} (h : l' = l) : Appends has l l' :=
  ⟨[], by rw [h, List.append_nil], fun _ hp => by cases hp⟩

theorem trans {has has' : ℕ → Bool} {l l' l'' : List (ℕ × ℕ)} (hmono : ∀ k, has k = true → has' k = true)
    (h : Appends has l l') (h' : Appends has' l' l'') : Appends has l l'' := by
  obtain ⟨new, rfl, hnew⟩ := h
  obtain ⟨new', rfl, hnew'⟩ := h'
  refine ⟨new ++ new', List.append_assoc _ _ _, fun p hp => ?_⟩
  rcases List.mem_append.mp hp with hp | hp
  · exact hnew p hp
  · refine Bool.eq_false_iff.mpr (fun hh => ?_)
    have hh' := hmono _ hh
    rw [hnew' p hp] at hh'
    exact Bool.false_ne_true hh'

theorem sum_eq {has : ℕ → Bool} {l l' : List (ℕ × ℕ)} (h : Appends has l l') (f : ℕ → ℤ) (u : ℕ)
    (hf : ∀ k, has k = false → f k = 0) :
    (l'.map (fun p => if p.2 = u then f p.1 else 0)).sum = (l.map (fun p => if p.2 = u then f p.1 else 0)).sum := by
  obtain ⟨new, rfl, hnew⟩ := h
  have hzero : ∀ p ∈ new, (if p.2 = u then f p.1 else 0) = 0 := by
    intro p hp
    rw [hf p.1 (hnew p hp), ite_self]
  rw [List.map_append, List.sum_append, List.map_congr_left hzero]
  simp

end Appends

structure Grows (db db' : Db) : Prop where
  extension : Extends db db'
  requests : Appends db.requests.has db.requestAuthors db'.requestAuthors
  comments : Appends db.comments.has db.commentAuthors db'.commentAuthors
  memberships : Appends db.conversations.has db.memberships db'.memberships

namespace Grows

theorem of_sameShape {db db' : Db} (h : SameShape db db') : Grows db db' :=
  ⟨.of_sameShape h, .of_eq h.requests, .of_eq h.comments, .of_eq h.memberships⟩

theorem trans {db db' db'' : Db} (h : Grows db db') (h' : Grows db' db'') : Grows db db'' := by
  refine ⟨h.extension.trans h'.extension, h.requests.trans (fun k => h.extension.requests_has) h'.requests,
    h.comments.trans (fun k hk => ?_) h'.comments, h.memberships.trans h.extension.conversations h'.memberships⟩
  obtain ⟨u, hu⟩ := (comments_has_iff db k).mp hk
  exact (comments_has_iff db' k).mpr ⟨u, h.extension.comments _ hu⟩

theorem startConversation (db : Db) (now : ℕ) (t : Table ConversationUser.index) (l : List ConversationUser)
    (ht : t.rows = db.conversationUsers.rows ++ l) (hl : ∀ cu ∈ l, cu.conversationId = db.conversations.fresh) :
    Grows db { ConversationsSocket.startConversation db now with conversationUsers := t } := by
  refine ⟨startConversation_extends db now t l ht, .of_eq rfl, .of_eq rfl, l.map ConversationUser.index, ?_, ?_⟩
  · rw [Db.memberships, Db.memberships, ht, List.map_append]
  · intro p hp
    obtain ⟨cu, hcu, rfl⟩ := List.mem_map.mp hp
    rw [ConversationUser.index, hl cu hcu]
    exact db.conversations.has_fresh

end Grows

theorem Change.grows {db db' : Db} (h : Change db db') : Grows db db' := by
  have he := h.extends
  cases h with
  | settings settings => exact .of_sameShape (.of_eq rfl rfl rfl rfl rfl)
  | messages messages => exact .of_sameShape (.of_eq rfl rfl rfl rfl rfl)
  | invitations invitations => exact .of_sameShape (.of_eq rfl rfl rfl rfl rfl)
  | user id f hf hr => exact .of_sameShape (user_sameShape db id f hf)
  | request id f hf hr => exact .of_sameShape (request_sameShape db id f hf hr)
  | comment id f hf hr => exact .of_sameShape (comment_sameShape db id f hf hr)
  | conversation id f hf => exact .of_sameShape (conversation_sameShape db id f hf)
  | flags p f hf => exact .of_sameShape (flags_sameShape db p f hf)
  | newUser u hu hr => exact ⟨he, .of_eq rfl, .of_eq rfl, .of_eq rfl⟩
  | newRequest me subject content reward hme =>
    refine ⟨he, ⟨_, requestAuthors_post db me subject content reward, fun p hp => ?_⟩, .of_eq rfl, .of_eq rfl⟩
    rw [List.mem_singleton.mp hp]
    exact db.requests.has_fresh
  | newComment me requestId content hme =>
    refine ⟨he, .of_eq rfl, ⟨_, commentAuthors_post db me requestId content, fun p hp => ?_⟩, .of_eq rfl⟩
    rw [List.mem_singleton.mp hp]
    exact db.comments.has_fresh
  | newConversation now me other id created hme hother hn hk =>
    obtain ⟨-, t, rfl, ht⟩ := ConversationsSocket.createConversation_ok hk
    exact .startConversation db now t _ ht (by simp)
  | halfConversation now me other left hme hn hk =>
    obtain ⟨t, rfl, ⟨ht, -⟩ | ⟨ht, -⟩⟩ := ConversationsSocket.createConversation_error hk
    · exact .startConversation db now t [] (by rw [ht, List.append_nil]) (fun cu hcu => by cases hcu)
    · exact .startConversation db now t _ ht (by simp)
  | joinRequest r user hr hu => exact .of_sameShape (joinRequest_sameShape db r user)
  | rescore r hr => exact .of_sameShape (.updateScore db .comment r)
  | view r me hr hme => exact .of_sameShape (view_sameShape db r me)
  | rateUser self user v hv => exact .of_sameShape (User.rated_sameShape db self user v)
  | rateRequest r user v hr hv => exact .of_sameShape (Request.rated_sameShape db r user v)
  | rateComment c user v hc hv => exact .of_sameShape (Comment.rated_sameShape db c user v)
  | rateConversation c user v hv => exact .of_sameShape (Conversation.rated_sameShape db c user v)

theorem Changes.grows {db db' : Db} (h : Changes db db') : Grows db db' :=
  h.invariant (fun _ _ hc hg => hg.trans hc.grows) (.of_sameShape (.refl db))

end Growth

namespace Db

variable (db : Db) (u : ℕ)

/-- The points of a user, from the ratings. -/
def pointsOf : ℤ :=
  db.likersCount (.user u) + 2 * db.requestLikes u + 5 * db.commentLikes u + 10 * db.conversationLikes u

def ownRating (q : Rateable) : ℤ := (db.ratingOf u q).getD 0

def ownRequestRatings : ℤ := db.requests.sum (fun r => if r.userId = u then db.ownRating u (.request r.id) else 0)

def ownCommentRatings : ℤ := db.comments.sum (fun c => if c.userId = u then db.ownRating u (.comment c.id) else 0)

/-- The part of the points that comes from the user's own ratings. -/
def ownPoints : ℤ := 2 * db.ownRequestRatings u + 5 * db.ownCommentRatings u

theorem ownRequestRatings_eq : db.ownRequestRatings u =
    (db.requestAuthors.map (fun p => if p.2 = u then db.ownRating u (.request p.1) else 0)).sum := by
  simp only [ownRequestRatings, Table.sum, requestAuthors, List.map_map, Function.comp_def]

theorem ownCommentRatings_eq : db.ownCommentRatings u =
    (db.commentAuthors.map (fun p => if p.2 = u then db.ownRating u (.comment p.1) else 0)).sum := by
  simp only [ownCommentRatings, Table.sum, commentAuthors, List.map_map, Function.comp_def]

end Db

/-- What a rating counts for the owner of the rated object. -/
def Rateable.weight : Rateable → ℤ
  | user _ => 1
  | request _ => 2
  | comment _ => 5
  | conversation _ => 10

section Saved

variable (db : Db) (u : ℕ) (q : Rateable) (v : ℤ)

theorem ownRating_saved (p : Rateable) :
    (db.saveRating u q v).ownRating u p = db.ownRating u p + if p = q then v - db.ownRating u q else 0 := by
  simp only [Db.ownRating, Db.ratingOf, Db.get?_saveRating, Prod.mk.injEq, true_and]
  by_cases hp : p = q
  · subst hp
    simp
  · simp [hp]

theorem ownRequestRatings_saved : (db.saveRating u q v).ownRequestRatings u = db.ownRequestRatings u +
    match q with
    | .request id =>
      ((db.requests.get? id).map (fun r => if r.userId = u then v - db.ownRating u q else 0)).getD 0
    | _ => 0 := by
  simp only [Db.ownRequestRatings, ownRating_saved]
  cases q with
  | request id =>
    simp only [Rateable.request.injEq]
    rw [← Table.sum_add_single]
    apply Table.sum_congr
    intro r _
    by_cases hr : r.userId = u <;> by_cases hi : r.id = id <;> simp [hr, hi]
  | _ => simp; rfl

theorem ownCommentRatings_saved : (db.saveRating u q v).ownCommentRatings u = db.ownCommentRatings u +
    match q with
    | .comment id =>
      ((db.comments.get? id).map (fun c => if c.userId = u then v - db.ownRating u q else 0)).getD 0
    | _ => 0 := by
  simp only [Db.ownCommentRatings, ownRating_saved]
  cases q with
  | comment id =>
    simp only [Rateable.comment.injEq]
    rw [← Table.sum_add_single]
    apply Table.sum_congr
    intro c _
    by_cases hr : c.userId = u <;> by_cases hi : c.id = id <;> simp [hr, hi]
  | _ => simp; rfl

/-- A rating given by a user changes their points and their own part of them alike. -/
theorem points_saved (hq : q ≠ .user u) :
    (db.saveRating u q v).pointsOf u = db.pointsOf u +
        (if db.owner q = some u then q.weight * (v - db.ownRating u q) else 0) ∧
      (db.saveRating u q v).ownPoints u = db.ownPoints u +
        if db.owner q = some u then q.weight * (v - db.ownRating u q) else 0 := by
  have hlikers : (db.saveRating u q v).likersCount (.user u) = db.likersCount (.user u) := by
    rw [Db.likersCount, Db.likersCount, Db.ratingCount_saveRating db u q v (.user u) 1 (Ne.symm hq)]
  simp only [Db.pointsOf, Db.ownPoints, hlikers, requestLikes_saved, commentLikes_saved, conversationLikes_saved,
    ownRequestRatings_saved, ownCommentRatings_saved]
  cases q with
  | user id =>
    have hne : db.owner (.user id) ≠ some u := by
      rw [owner_user]
      split_ifs
      · exact fun he => hq (congrArg Rateable.user (Option.some.inj he))
      · exact fun he => by cases he
    simp [hne]
  | request id =>
    cases hr : db.requests.get? id with
    | none => simp [Db.owner, hr]
    | some r =>
      by_cases hu : r.userId = u
      · simp [Db.owner, hr, hu, Rateable.weight, Db.ownRating]
        constructor <;> omega
      · simp [Db.owner, hr, hu]
  | comment id =>
    cases hr : db.comments.get? id with
    | none => simp [Db.owner, hr]
    | some c =>
      by_cases hu : c.userId = u
      · simp [Db.owner, hr, hu, Rateable.weight, Db.ownRating]
        constructor <;> omega
      · simp [Db.owner, hr, hu]
  | conversation id => simp [Db.owner]

end Saved

/-- Without a new rating nobody's points change. -/
theorem points_grown {db db' : Db} (hc : Consistent db) (hg : Grows db db') (hr : db'.ratings = db.ratings) (u : ℕ) :
    db'.pointsOf u = db.pointsOf u ∧ db'.ownPoints u = db.ownPoints u := by
  have habsent : ∀ q, db.hasRateable q = false → db.ownRating u q = 0 := by
    intro q hq
    have hnone : db.ratings.get? (u, q) = none := by
      refine (Table.get?_none_iff _ _).mpr (fun x hx he => ?_)
      have hv := (hc.ratings x hx).rateable
      rw [(Prod.mk.inj he).2, hq] at hv
      cases hv
    simp [Db.ownRating, Db.ratingOf, hnone]
  have hrating : db'.ownRating = db.ownRating := by
    funext w q
    rw [Db.ownRating, Db.ownRating, Db.ratingOf, Db.ratingOf, hr]
  have hsum : db'.ratingSum = db.ratingSum := by
    funext q
    rw [Db.ratingSum, Db.ratingSum, hr]
  have hothers : db'.othersRatingSum = db.othersRatingSum := by
    funext w c
    rw [Db.othersRatingSum, Db.othersRatingSum, hr]
  constructor
  · have hlikers : db'.likersCount (.user u) = db.likersCount (.user u) := by
      rw [Db.likersCount, Db.likersCount, Db.ratingCount, Db.ratingCount, hr]
    have hrequests : db'.requestLikes u = db.requestLikes u := by
      rw [Db.requestLikes_eq, Db.requestLikes_eq, hsum]
      exact hg.requests.sum_eq (fun id => db.ratingSum (.request id)) u (fun id hid => ratingSum_absent hc hid)
    have hcomments : db'.commentLikes u = db.commentLikes u := by
      rw [Db.commentLikes_eq, Db.commentLikes_eq, hsum]
      exact hg.comments.sum_eq (fun id => db.ratingSum (.comment id)) u (fun id hid => ratingSum_absent hc hid)
    have hconversations : db'.conversationLikes u = db.conversationLikes u := by
      rw [Db.conversationLikes_eq, Db.conversationLikes_eq, hothers]
      exact hg.memberships.sum_eq (fun c => db.othersRatingSum u c) u (fun c hcid => othersRatingSum_absent hc u hcid)
    rw [Db.pointsOf, Db.pointsOf, hlikers, hrequests, hcomments, hconversations]
  · rw [Db.ownPoints, Db.ownPoints, Db.ownRequestRatings_eq, Db.ownRequestRatings_eq, Db.ownCommentRatings_eq,
      Db.ownCommentRatings_eq, hrating,
      hg.requests.sum_eq (fun id => db.ownRating u (.request id)) u (fun id hid => habsent (.request id) hid),
      hg.comments.sum_eq (fun id => db.ownRating u (.comment id)) u (fun id hid => habsent (.comment id) hid)]

theorem pointCount_eq {P : Platform} {db : Db} (h : Reachable P db) {u : ℕ} {user : User}
    (hu : db.users.get? u = some user) : user.pointCount = db.pointsOf u := by
  have hl := h.ledger u user hu
  rw [hl.pointCount, User.points, hl.followerCount, hl.requestLikeCount, hl.commentLikeCount,
    hl.conversationLikeCount, Db.pointsOf]

/-- An operation that the user performs, or that names no user: the admin panel
and the scheduled task. -/
def Op.by (u : ℕ) : Op → Bool
  | .signUp .. => false
  | .updateRequest .. | .updateSetting .. | .notifyUnread .. => true
  | .invite me .. | .createRequest me .. | .destroyRequest me .. | .manageUser me .. | .createComment me ..
  | .destroyComment me .. | .rateUser me .. | .rateRequest me .. | .rateComment me .. | .rateConversation me ..
  | .indexRequests me .. | .showRequest me .. | .showConversation _ me .. | .postMessage _ _ me ..
  | .conversationRead _ me .. => decide (me = u)

/-- The operations of one user. -/
abbrev OwnOp (u : ℕ) := { op : Op // op.by u = true }

def ownStep (P : Platform) {u : ℕ} (db : Db) (op : OwnOp u) : Db := step P db op.1

/-- A valid rating of something the user has written keeps the sum of such
ratings, weighted as in `update_points`, at most zero. -/
def Op.Modest (u : ℕ) (db : Db) (op : Op) : Prop :=
  ∀ q rating v, op = q.rateOp u rating → db.owner q = some u → rating.toInteger = some v → ValidRating db u q v →
    db.ownPoints u + q.weight * (v - db.ownRating u q) ≤ 0

section Step

variable {P : Platform} {db : Db} {u : ℕ}

theorem rateOp_of_rates {op : Op} (hop : op.by u = true) (hr : op.rates = true) :
    ∃ q rating, op = Rateable.rateOp u rating q := by
  cases op with
  | rateUser me id rating => exact ⟨.user id, rating, by rw [← of_decide_eq_true hop]; rfl⟩
  | rateRequest me id rating => exact ⟨.request id, rating, by rw [← of_decide_eq_true hop]; rfl⟩
  | rateComment me id rating => exact ⟨.comment id, rating, by rw [← of_decide_eq_true hop]; rfl⟩
  | rateConversation me id rating => exact ⟨.conversation id, rating, by rw [← of_decide_eq_true hop]; rfl⟩
  | signUp => cases hop
  | _ => cases hr

theorem rateOp_injective {q q' : Rateable} {rating rating' : Param} (h : q.rateOp u rating = q'.rateOp u rating') :
    q = q' ∧ rating = rating' := by
  cases q <;> cases q' <;> cases h <;> exact ⟨rfl, rfl⟩

theorem points_rated (hc : Consistent db) {q : Rateable} {rating : Param} {v : ℤ}
    (ha : db.assignRating u q rating = .ok v) :
    (db.rate q u rating).db.pointsOf u = db.pointsOf u +
        (if db.owner q = some u then q.weight * (v - db.ownRating u q) else 0) ∧
      (db.rate q u rating).db.ownPoints u = db.ownPoints u +
        if db.owner q = some u then q.weight * (v - db.ownRating u q) else 0 := by
  obtain ⟨-, hvalid⟩ := assignRating_ok ha
  obtain ⟨hs, hr⟩ := rate_saves ha
  have hsaved := SameShape.saveRating db u q v
  have hshape : SameShape (db.saveRating u q v) (db.rate q u rating).db :=
    ⟨hs.users, hs.requests, hs.comments, hs.conversations, hs.memberships⟩
  obtain ⟨hpoints, hown⟩ := points_grown (hc.of_saved hsaved hvalid rfl rfl rfl) (.of_sameShape hshape) hr u
  rw [hpoints, hown]
  exact points_saved db u q v hvalid.notSelf

/-- The own operations move the points of a user only through the own ratings,
and keep those at most zero exactly when they are modest. -/
theorem points_ownStep (hc : Consistent db) (op : OwnOp u) :
    (ownStep P db op).pointsOf u - (ownStep P db op).ownPoints u = db.pointsOf u - db.ownPoints u ∧
      (db.ownPoints u ≤ 0 → ((ownStep P db op).ownPoints u ≤ 0 ↔ op.1.Modest u db)) := by
  obtain ⟨op, hop⟩ := op
  simp only [ownStep]
  cases hr : op.rates with
  | false =>
    obtain ⟨hpoints, hown⟩ := points_grown hc (step_changes P db op).grows (step_ratings P db hr) u
    rw [hpoints, hown]
    refine ⟨rfl, fun hle => iff_of_true hle ?_⟩
    rintro q rating v rfl
    cases q <;> cases hr
  | true =>
    obtain ⟨q, rating, rfl⟩ := rateOp_of_rates hop hr
    rw [← rate_db P db q u rating]
    cases ha : db.assignRating u q rating with
    | error errors =>
      rw [(rate_rejected ha).1]
      refine ⟨rfl, fun hle => iff_of_true hle ?_⟩
      intro q' rating' v he _ hv hvalid
      obtain ⟨rfl, rfl⟩ := rateOp_injective he
      rw [assignRating_of_valid hv hvalid] at ha
      cases ha
    | ok v =>
      obtain ⟨hpoints, hown⟩ := points_rated hc ha
      obtain ⟨hv, hvalid⟩ := assignRating_ok ha
      rw [hpoints, hown]
      refine ⟨by omega, fun hle => ?_⟩
      constructor
      · intro hsum q' rating' v' he howner hv' _
        obtain ⟨rfl, rfl⟩ := rateOp_injective he
        rw [hv, Option.some_inj] at hv'
        subst hv'
        rwa [if_pos howner] at hsum
      · intro hmodest
        split_ifs with howner
        · exact hmodest q rating v rfl howner hv hvalid
        · omega

end Step

/-- The user has rated none of their own requests and comments. -/
structure Db.UnratedBy (db : Db) (u : ℕ) : Prop where
  requests : ∀ id, db.owner (.request id) = some u → db.ratingOf u (.request id) = none
  comments : ∀ id, db.owner (.comment id) = some u → db.ratingOf u (.comment id) = none

theorem ownPoints_unrated {db : Db} {u : ℕ} (h : db.UnratedBy u) : db.ownPoints u = 0 := by
  have hrequests : db.ownRequestRatings u = 0 := by
    apply Table.sum_zero
    intro r hr
    split_ifs with hu
    · have hget : db.requests.get? r.id = some r := Table.get?_of_mem hr
      rw [Db.ownRating, h.requests r.id (by simp [Db.owner, hget, hu]), Option.getD_none]
    · rfl
  have hcomments : db.ownCommentRatings u = 0 := by
    apply Table.sum_zero
    intro c hc
    split_ifs with hu
    · have hget : db.comments.get? c.id = some c := Table.get?_of_mem hc
      rw [Db.ownRating, h.comments c.id (by simp [Db.owner, hget, hu]), Option.getD_none]
    · rfl
  rw [Db.ownPoints, hrequests, hcomments]
  rfl

/-- The points of a user stay below where they started exactly as long as the
own ratings do not add up to more than nothing. -/
theorem own_points_never_rise_iff (P : Platform) (db : Db) (h : Reachable P db) (u : ℕ) (user : User)
    (hu : db.users.get? u = some user) (hunrated : db.UnratedBy u) (ops : List (OwnOp u)) :
    (∀ n, ∃ user', (Transition.run (ownStep P) db (ops.take n)).users.get? u = some user' ∧
      user'.pointCount ≤ user.pointCount) ↔
      Transition.Meets (ownStep P) (fun db op => op.1.Modest u db) db ops := by
  have hstart : db.ownPoints u = 0 := ownPoints_unrated hunrated
  have hkept : ∀ db' (op : OwnOp u),
      (Reachable P db' ∧ db'.users.has u = true ∧ db'.pointsOf u - db'.ownPoints u = db.pointsOf u) →
      Reachable P (ownStep P db' op) ∧ (ownStep P db' op).users.has u = true ∧
        (ownStep P db' op).pointsOf u - (ownStep P db' op).ownPoints u = db.pointsOf u := by
    rintro db' op ⟨hreach, hhas, hpoints⟩
    refine ⟨hreach.step op.1, (step_changes P db' op.1).extends.users u hhas, ?_⟩
    rw [(points_ownStep hreach.consistent op).1, hpoints]
  have hiff := Transition.forall_states_iff_meets_of_invariant (ownStep P) (I := fun db' => db'.ownPoints u ≤ 0)
    (Q := fun db op => op.1.Modest u db) hkept
    (fun db' op hj => (points_ownStep hj.1.consistent op).2) db
    ⟨h, by simp [Table.has, hu], by rw [hstart, sub_zero]⟩ hstart.le ops
  rw [← hiff]
  apply forall_congr'
  intro n
  have hstate := Transition.run_invariant (ownStep P) hkept db
    ⟨h, by simp [Table.has, hu], by rw [hstart, sub_zero]⟩ (ops.take n)
  obtain ⟨hreach, hhas, hpoints⟩ := hstate
  obtain ⟨user', hu'⟩ := Option.isSome_iff_exists.mp hhas
  have hcount := pointCount_eq h hu
  have hcount' := pointCount_eq hreach hu'
  constructor
  · rintro ⟨row, hrow, hle⟩
    rw [hu', Option.some_inj] at hrow
    subst hrow
    omega
  · intro hle
    exact ⟨user', hu', by omega⟩

theorem unratedBy_of_empty {db : Db} (u : ℕ) (h : db.ratings.rows = []) : db.UnratedBy u := by
  have hnone : ∀ q, db.ratingOf u q = none := by
    intro q
    have hget : db.ratings.get? (u, q) = none :=
      (Table.get?_none_iff _ _).mpr (fun x hx => by rw [h] at hx; cases hx)
    rw [Db.ratingOf, hget, Option.map_none]
  exact ⟨fun id _ => hnone _, fun id _ => hnone _⟩

def twoSignUps : List Op := [.signUp "ann@blnkk.com" "ann", .signUp "bob@blnkk.com" "bob"]

def annReports : List (OwnOp 1) :=
  [⟨.createRequest 1 "bike" "wanted" none, rfl⟩, ⟨.rateUser 1 2 (.int 1), rfl⟩, ⟨.rateRequest 1 1 (.int (-2)), rfl⟩]

/-- Following somebody and reporting an own request raise nothing. -/
theorem own_report_raises_nothing :
    ((Transition.run (step .plain) (Db.new {}) twoSignUps).users.get? 1).map User.pointCount = some 0 ∧
      ∀ n, ∃ user', (Transition.run (ownStep .plain) (Transition.run (step .plain) (Db.new {}) twoSignUps)
        (annReports.take n)).users.get? 1 = some user' ∧ user'.pointCount ≤ 0 := by
  have hann : ((Transition.run (step .plain) (Db.new {}) twoSignUps).users.get? 1).map User.pointCount = some 0 := by
    decide +kernel
  obtain ⟨user, hu, hcount⟩ := Option.map_eq_some_iff.mp hann
  have hmodest : Transition.Meets (ownStep .plain) (fun db op => op.1.Modest 1 db)
      (Transition.run (step .plain) (Db.new {}) twoSignUps) annReports := by
    refine ⟨?_, ?_, ?_, trivial⟩
    · intro q rating v he
      cases q <;> cases he
    · intro q rating v he howner
      obtain ⟨rfl, -⟩ := rateOp_injective (q := .user 2) he
      exact absurd howner (by decide +kernel)
    · intro q rating v he _ hv
      obtain ⟨rfl, rfl⟩ := rateOp_injective (q := .request 1) he
      cases hv
      intro
      decide +kernel
  have hnever := (own_points_never_rise_iff .plain _ ⟨{}, twoSignUps, rfl⟩ 1 user hu
    (unratedBy_of_empty 1 (by decide +kernel)) annReports).mpr hmodest
  rw [hcount] at hnever
  exact ⟨hann, hnever⟩

/-- A request liked by its author is worth two points to them. -/
theorem own_like_raises_points :
    Reachable .plain (Transition.run (step .plain) (Db.new {}) twoSignUps) ∧
      Db.UnratedBy (Transition.run (step .plain) (Db.new {}) twoSignUps) 1 ∧
      ((Transition.run (step .plain) (Db.new {}) twoSignUps).users.get? 1).map User.pointCount = some 0 ∧
      ((Transition.run (ownStep .plain) (Transition.run (step .plain) (Db.new {}) twoSignUps)
        [(⟨.createRequest 1 "bike" "wanted" none, rfl⟩ : OwnOp 1), ⟨.rateRequest 1 1 (.int 1), rfl⟩]).users.get? 1).map
          User.pointCount = some 2 := by
  refine ⟨⟨{}, twoSignUps, rfl⟩, unratedBy_of_empty 1 (by decide +kernel), by decide +kernel, by decide +kernel⟩

end Blnkk
