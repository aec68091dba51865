import Blnkk.ReportAlerts
import Mathlib.Data.List.Induction

/-!
Whom a new comment notifies, and the number of others that the notifications
of comments and likes show.
-/

namespace Blnkk

open Relational

/-- Calls about different rows do not overwrite each other. -/
theorem get?_notified (now : ℕ) {calls : List NotifyCall} (hn : (calls.map NotifyCall.user).Nodup) {call : NotifyCall}
    (hc : call ∈ calls) (t : Notifications) :
    (calls.foldl (Notification.notify now) t).get? (call.user, call.ntype, call.notable) =
      some ⟨call.user, call.ntype, call.notable, call.fromUser, call.fromUserCount, false, false, now⟩ := by
  induction calls using List.reverseRecOn with
  | nil => cases hc
  | append_singleton calls last ih =>
    rw [List.foldl_concat]
    rw [List.map_append, List.nodup_append] at hn
    rcases List.mem_append.mp hc with hold | hlast
    · have hne : call.user ≠ last.user := hn.2.2 _ (List.mem_map_of_mem hold) _ (by simp)
      have hk : (call.user, call.ntype, call.notable) ≠ (last.user, last.ntype, last.notable) :=
        fun he => hne (Prod.ext_iff.mp he).1
      rw [Notification.notify, Table.get?_update, if_neg hk, Table.get?_ensure]
      simp [ih hn.1 hold]
    · rw [List.mem_singleton] at hlast
      subst hlast
      exact Notification.get?_notify now _ call

namespace CommentsController

theorem mem_commentUsers (db : Db) (request u : ℕ) :
    u ∈ commentUsers db request ↔
      ∃ c ∈ db.comments.rows, c.requestId = request ∧ c.enabled = true ∧ c.userId = u := by
  simp only [commentUsers, List.mem_dedup, List.mem_map, List.mem_filter, Bool.and_eq_true, decide_eq_true_eq,
    and_assoc]

theorem create_created {db : Db} {me request : ℕ} {content : String}
    (h : (create db me request content).1 = .created) :
    ∃ r, db.requests.get? request = some r ∧
      create db me request content =
        (.created, (post db me request content).joinRequest r me,
          notices ((post db me request content).joinRequest r me) r me db.comments.fresh) := by
  obtain ⟨r, -, hr, hc⟩ := (create_cases db me request content).resolve_right (fun hn => hn.1 h)
  exact ⟨r, hr, hc⟩

/-- The commenter is the only one who may be new among those who commented. -/
theorem mem_commentUsers_posted (db : Db) (r : Request) (me request : ℕ) (content : String) (u : ℕ) :
    u ∈ commentUsers ((post db me request content).joinRequest r me) request ↔
      u = me ∨ u ∈ commentUsers db request := by
  have hrows : ((post db me request content).joinRequest r me).comments.rows =
      db.comments.rows ++ [{ id := db.comments.fresh, requestId := request, userId := me, content }] :=
    Table.insertFresh_rows db.comments _ (fun _ => rfl)
  simp only [mem_commentUsers, hrows, List.mem_append, List.mem_singleton]
  constructor
  · rintro ⟨c, hc | rfl, hq, he, hu⟩
    · exact Or.inr ⟨c, hc, hq, he, hu⟩
    · exact Or.inl hu.symm
  · rintro (rfl | ⟨c, hc, hq, he, hu⟩)
    · exact ⟨_, Or.inr rfl, rfl, rfl, rfl⟩
    · exact ⟨c, Or.inl hc, hq, he, hu⟩

/-- The calls of `Notification.notify` that creating a comment makes. -/
def notified (db : Db) (me request : ℕ) (content : String) : List NotifyCall :=
  let result := create db me request content
  result.2.2.map (Notice.notifyCall result.2.1 request me)

theorem notified_eq {db : Db} {me request : ℕ} {content : String}
    (h : (create db me request content).1 = .created) :
    ∃ r, db.requests.get? request = some r ∧
      notified db me request content =
        (if r.userId = me then [] else
          [{ user := r.userId, ntype := .commentMyRequest, notable := .request request, fromUser := me
             fromUserCount := (commentUsers (create db me request content).2.1 request).length }]) ++
        ((commentUsers (create db me request content).2.1 request).filter
          (fun u => u != r.userId && u != me)).map (fun u =>
          { user := u, ntype := .commentCommentedRequest, notable := .request request, fromUser := me
            fromUserCount := (commentUsers (create db me request content).2.1 request).length }) := by
  obtain ⟨r, hr, hc⟩ := create_created h
  have hi : r.id = request := Table.get?_key hr
  refine ⟨r, hr, ?_⟩
  rw [notified, hc]
  simp only [notices, List.map_append, List.map_map, hi]
  congr 1
  split_ifs <;> rfl

theorem created_of_notified {db : Db} {me request : ℕ} {content : String} {call : NotifyCall}
    (h : call ∈ notified db me request content) : (create db me request content).1 = .created := by
  rcases create_cases db me request content with ⟨r, -, -, hc⟩ | ⟨-, hnone⟩
  · rw [hc]
  · rw [notified, hnone] at h
    cases h

theorem notified_nodup {db : Db} {me request : ℕ} {content : String}
    (h : (create db me request content).1 = .created) :
    ((notified db me request content).map NotifyCall.user).Nodup := by
  obtain ⟨r, -, hcalls⟩ := notified_eq h
  have hothers : ((commentUsers (create db me request content).2.1 request).filter
      (fun u => u != r.userId && u != me)).Nodup := (List.nodup_dedup _).filter _
  rw [hcalls, List.map_append, List.map_map]
  change (_ ++ List.map id _).Nodup
  rw [List.map_id]
  split_ifs with ha
  · exact hothers
  · refine List.nodup_cons.mpr ⟨fun hm => ?_, hothers⟩
    simp at hm

theorem mem_notified {db : Db} {me request : ℕ} {content : String} (h : (create db me request content).1 = .created) :
    ∃ r, db.requests.get? request = some r ∧ ∀ call : NotifyCall, call ∈ notified db me request content ↔
      call.notable = .request request ∧ call.fromUser = me ∧ call.user ≠ me ∧
        call.fromUserCount = (commentUsers (create db me request content).2.1 request).length ∧
        (call.ntype = .commentMyRequest ∧ call.user = r.userId ∨
          call.ntype = .commentCommentedRequest ∧ call.user ≠ r.userId ∧ call.user ∈ commentUsers db request) := by
  obtain ⟨r, hr, hcalls⟩ := notified_eq h
  obtain ⟨r', hr', hc⟩ := create_created h
  rw [hr, Option.some.injEq] at hr'
  subst hr'
  refine ⟨r, hr, fun call => ?_⟩
  rw [hcalls, List.mem_append]
  simp only [List.mem_map, List.mem_filter, Bool.and_eq_true, bne_iff_ne]
  constructor
  · rintro (hmine | ⟨u, ⟨hu, ha, hm⟩, rfl⟩)
    · split_ifs at hmine with ha
      · cases hmine
      · rw [List.mem_singleton] at hmine
        subst hmine
        exact ⟨rfl, rfl, ha, rfl, Or.inl ⟨rfl, rfl⟩⟩
    · rw [hc, mem_commentUsers_posted] at hu
      exact ⟨rfl, rfl, hm, rfl, Or.inr ⟨rfl, ha, hu.resolve_left hm⟩⟩
  · obtain ⟨user, ntype, notable, fromUser, fromUserCount⟩ := call
    dsimp only
    rintro ⟨rfl, rfl, hm, rfl, ⟨rfl, rfl⟩ | ⟨rfl, ha, hu⟩⟩
    · rw [if_neg hm]
      exact Or.inl (List.mem_singleton_self _)
    · refine Or.inr ⟨user, ⟨?_, ha, hm⟩, rfl⟩
      rw [hc, mem_commentUsers_posted]
      exact Or.inr hu

end CommentsController

open CommentsController in
theorem comment_notified (db : Db) (me request : ℕ) (content : String)
    (hcreated : (create db me request content).1 = .created) :
    ∃ r, db.requests.get? request = some r ∧
      ((notified db me request content).map NotifyCall.user).Nodup ∧
      (∀ call ∈ notified db me request content,
        call.notable = .request request ∧ call.fromUser = me ∧ call.user ≠ me) ∧
      ∀ u ntype, (∃ call ∈ notified db me request content, call.user = u ∧ call.ntype = ntype) ↔
        (ntype = .commentMyRequest ∧ u = r.userId ∧ u ≠ me) ∨
        (ntype = .commentCommentedRequest ∧ u ≠ r.userId ∧ u ≠ me ∧
          ∃ c ∈ db.comments.rows, c.requestId = request ∧ c.enabled = true ∧ c.userId = u) := by
  obtain ⟨r, hr, hmem⟩ := mem_notified hcreated
  refine ⟨r, hr, notified_nodup hcreated, ?_, ?_⟩
  · intro call hcall
    obtain ⟨hnotable, hfrom, hme, -⟩ := (hmem call).mp hcall
    exact ⟨hnotable, hfrom, hme⟩
  · intro u ntype
    rw [← mem_commentUsers]
    constructor
    · rintro ⟨call, hcall, rfl, rfl⟩
      obtain ⟨-, -, hme, -, ⟨htype, hu⟩ | ⟨htype, hu, hc⟩⟩ := (hmem call).mp hcall
      · exact Or.inl ⟨htype, hu, hme⟩
      · exact Or.inr ⟨htype, hu, hme, hc⟩
    · rintro (⟨rfl, rfl, hme⟩ | ⟨rfl, hu, hme, hc⟩)
      · exact ⟨⟨r.userId, .commentMyRequest, .request request, me, _⟩,
          (hmem _).mpr ⟨rfl, rfl, hme, rfl, Or.inl ⟨rfl, rfl⟩⟩, rfl, rfl⟩
      · exact ⟨⟨u, .commentCommentedRequest, .request request, me, _⟩,
          (hmem _).mpr ⟨rfl, rfl, hme, rfl, Or.inr ⟨rfl, hu, hc⟩⟩, rfl, rfl⟩

def talkativeRequest : Db :=
  Transition.run (step .plain) (Db.new {})
    [.signUp "ann@blnkk.com" "ann", .signUp "bob@blnkk.com" "bob", .signUp "carol@blnkk.com" "carol",
      .signUp "dave@blnkk.com" "dave", .createRequest 1 "bike" "wanted" none, .createComment 2 1 "mine",
      .createComment 3 1 "or mine", .createComment 3 1 "cheaper", .destroyComment 3 2, .createComment 4 1 "no",
      .destroyComment 4 4]

theorem comment_of_bob_notified :
    ((CommentsController.notified talkativeRequest 2 1 "still there").map
      (fun call => (call.user, call.ntype))) = [(1, .commentMyRequest), (3, .commentCommentedRequest)] ∧
    ∃ r, talkativeRequest.requests.get? 1 = some r ∧
      ((CommentsController.notified talkativeRequest 2 1 "still there").map NotifyCall.user).Nodup := by
  have hrun : (CommentsController.create talkativeRequest 2 1 "still there").1 = .created ∧
      ((CommentsController.notified talkativeRequest 2 1 "still there").map
        (fun call => (call.user, call.ntype))) = [(1, .commentMyRequest), (3, .commentCommentedRequest)] := by
    decide +kernel
  obtain ⟨r, hr, hn, -⟩ := comment_notified talkativeRequest 2 1 "still there" hrun.1
  exact ⟨hrun.2, r, hr, hn⟩

/-- What raises a notification that shows a number of others. -/
inductive NotifyingAct where
  | rate (q : Rateable) (me : ℕ) (rating : Param)
  | comment (me request : ℕ) (content : String)

namespace NotifyingAct

def after (db : Db) : NotifyingAct → Db
  | rate q me rating => (db.rate q me rating).db
  | comment me request content => (CommentsController.create db me request content).2.1

def notified (db : Db) : NotifyingAct → List NotifyCall
  | rate q me rating => (db.rate q me rating).effects.filterMap Effect.notifyCall
  | comment me request content => CommentsController.notified db me request content

end NotifyingAct

/-- Who likes, or comments on, what the notification is about. -/
def Db.takingPart (db : Db) (call : NotifyCall) : List ℕ :=
  match call.ntype, call.notable with
  | .requestLike, .request id => db.raters (.request id) 1
  | .commentLike, .comment id => db.raters (.comment id) 1
  | .commentMyRequest, .request id => CommentsController.commentUsers db id
  | .commentCommentedRequest, .request id => CommentsController.commentUsers db id
  | _, _ => []

/-- One less than the number of those taking part is that of the others, unless
the one who is told takes part. -/
theorem others_iff {l : List ℕ} (hl : l.Nodup) {v a : ℕ} (ha : a ∈ l) (hne : v ≠ a) :
    (l.length : ℤ) - 1 = (l.filter (fun u => u != v && u != a)).length ↔ v ∉ l := by
  have hfilter : l.filter (fun u => u != v && u != a) = (l.erase a).erase v := by
    rw [(hl.erase a).erase_eq_filter, hl.erase_eq_filter, List.filter_filter]
  have hpos := List.length_pos_of_mem ha
  rw [hfilter, List.length_erase, List.length_erase_of_mem ha]
  by_cases hv : v ∈ l
  · have hmem : v ∈ l.erase a := (List.mem_erase_of_ne hne).mpr hv
    have hrest := List.length_pos_of_mem hmem
    rw [List.length_erase_of_mem ha] at hrest
    rw [if_pos hmem]
    refine iff_of_false ?_ (fun hn => hn hv)
    omega
  · rw [if_neg (fun hm => hv (List.mem_of_mem_erase hm))]
    refine iff_of_true ?_ hv
    omega

section Like

variable {db : Db} {q : Rateable} {me : ℕ} {rating : Param} {call : NotifyCall}

structure LikeCall (q : Rateable) (me : ℕ) (likes : ℤ) (call : NotifyCall) : Prop where
  other : call.user ≠ me
  actor : call.fromUser = me
  count : call.fromUserCount = likes
  about : ∃ id, q = .request id ∧ call.ntype = .requestLike ∧ call.notable = .request id ∨
    q = .comment id ∧ call.ntype = .commentLike ∧ call.notable = .comment id

theorem notified_rate (hc : call ∈ (db.rate q me rating).effects.filterMap Effect.notifyCall)
    (htype : call.ntype ≠ .newFollower) :
    (db.rate q me rating).effects.filterMap Effect.notifyCall = [call] ∧ db.assignRating me q rating = .ok 1 ∧
      LikeCall q me ((db.rate q me rating).db.likersCount q) call := by
  cases ha : db.assignRating me q rating with
  | error errors =>
    rw [(rate_rejected ha).2] at hc
    cases hc
  | ok v =>
    cases Db.loaded_of_has (assignRating_ok ha).2.rateable with
    | user u hu =>
      rw [notified_user ha] at hc
      split_ifs at hc
      · rw [List.mem_singleton] at hc
        subst hc
        exact absurd rfl htype
      · cases hc
    | request r hr =>
      rw [notified_request hr ha] at hc ⊢
      split_ifs at hc ⊢ with hcond
      · simp only [Bool.and_eq_true, Rating.upvote, beq_iff_eq, bne_iff_ne] at hcond
        rw [List.mem_singleton] at hc
        subst hc
        exact ⟨rfl, by rw [hcond.1.2], hcond.2, rfl, rfl, r.id, Or.inl ⟨rfl, rfl, rfl⟩⟩
      · cases hc
    | comment c hrow =>
      rw [notified_comment hrow ha] at hc ⊢
      split_ifs at hc ⊢ with hcond
      · simp only [Bool.and_eq_true, Rating.upvote, beq_iff_eq, bne_iff_ne] at hcond
        rw [List.mem_singleton] at hc
        subst hc
        exact ⟨rfl, by rw [hcond.1.2], hcond.2, rfl, rfl, c.id, Or.inr ⟨rfl, rfl, rfl⟩⟩
      · cases hc
    | conversation c hrow =>
      rw [rate_conversation hrow ha] at hc
      cases hc

theorem LikeCall.takingPart {likes : ℤ} (h : LikeCall q me likes call) (d : Db) : d.takingPart call = d.raters q 1 := by
  obtain ⟨id, ⟨rfl, htype, hnotable⟩ | ⟨rfl, htype, hnotable⟩⟩ := h.about <;>
    simp only [Db.takingPart, htype, hnotable]

theorem others_of_like (hc : call ∈ (db.rate q me rating).effects.filterMap Effect.notifyCall)
    (htype : call.ntype ≠ .newFollower) :
    call.fromUserCount - 1 = (((db.rate q me rating).db.takingPart call).filter
        (fun u => u != call.user && u != call.fromUser)).length ↔
      call.user ∉ db.takingPart call := by
  obtain ⟨-, ha, hlike⟩ := notified_rate hc htype
  have hme : me ∈ (db.rate q me rating).db.raters q 1 := by
    rw [Db.mem_raters, ratingOf_rate ha, if_pos rfl]
  have hsame : call.user ∈ (db.rate q me rating).db.raters q 1 ↔ call.user ∈ db.raters q 1 := by
    rw [Db.mem_raters, Db.mem_raters, ratingOf_rate ha, if_neg hlike.other]
  rw [hlike.takingPart, hlike.takingPart, hlike.actor, hlike.count, Db.likersCount, ← Db.raters_length, ← hsame]
  exact others_iff (Db.raters_nodup _ q 1) hme hlike.other

end Like

open CommentsController in
theorem others_of_comment {db : Db} {me request : ℕ} {content : String} {call : NotifyCall}
    (hc : call ∈ CommentsController.notified db me request content) :
    call.fromUserCount - 1 = (((create db me request content).2.1.takingPart call).filter
        (fun u => u != call.user && u != call.fromUser)).length ↔
      call.user ∉ db.takingPart call := by
  have hcreated := created_of_notified hc
  obtain ⟨r, -, hmem⟩ := mem_notified hcreated
  obtain ⟨r', -, hcreate⟩ := create_created hcreated
  obtain ⟨hnotable, hfrom, hother, hcount, htype⟩ := (hmem call).mp hc
  have htaking (d : Db) : d.takingPart call = commentUsers d request := by
    rcases htype with ⟨htype, -⟩ | ⟨htype, -⟩ <;> simp only [Db.takingPart, htype, hnotable]
  have husers (u : ℕ) : u ∈ commentUsers (create db me request content).2.1 request ↔
      u = me ∨ u ∈ commentUsers db request := by
    rw [hcreate]
    exact mem_commentUsers_posted db r' me request content u
  have hsame : call.user ∈ commentUsers (create db me request content).2.1 request ↔
      call.user ∈ commentUsers db request := by
    rw [husers]
    exact or_iff_right hother
  rw [htaking, htaking, hfrom, hcount, ← hsame]
  exact others_iff (List.nodup_dedup _) ((husers me).mpr (Or.inl rfl)) hother

theorem NotifyingAct.notified_nodup {db : Db} {act : NotifyingAct} {call : NotifyCall} (hcall : call ∈ act.notified db)
    (htype : call.ntype ≠ .newFollower) : ((act.notified db).map NotifyCall.user).Nodup := by
  cases act with
  | rate q me rating =>
    rw [NotifyingAct.notified, (notified_rate hcall htype).1]
    exact List.nodup_singleton _
  | comment me request content =>
    exact CommentsController.notified_nodup (CommentsController.created_of_notified hcall)

theorem others_shown_iff (db : Db) (act : NotifyingAct) (now : ℕ) (t : Notifications) (call : NotifyCall)
    (hcall : call ∈ act.notified db) (htype : call.ntype ≠ .newFollower) (n : Notification)
    (hn : ((act.notified db).foldl (Notification.notify now) t).get? (call.user, call.ntype, call.notable) = some n) :
    n.others = (((act.after db).takingPart call).filter (fun u => u != n.userId && u != n.fromUserId)).length ↔
      call.user ∉ db.takingPart call := by
  rw [get?_notified now (NotifyingAct.notified_nodup hcall htype) hcall, Option.some.injEq] at hn
  subst hn
  cases act with
  | rate q me rating => exact others_of_like hcall htype
  | comment me request content => exact others_of_comment hcall

def likeOfBob : NotifyingAct := .rate (.request 1) 2 (.int 1)

def likeNotification : Notification := ⟨1, .requestLike, .request 1, 2, 1, false, false, 10⟩

theorem like_of_bob_alone :
    likeNotification.others = (((likeOfBob.after bikeTenant.db).takingPart
      ⟨1, .requestLike, .request 1, 2, 1⟩).filter (fun u => u != 1 && u != 2)).length :=
  (others_shown_iff bikeTenant.db likeOfBob 10 .empty ⟨1, .requestLike, .request 1, 2, 1⟩ (by decide +kernel)
    (by decide) likeNotification (by decide +kernel)).mpr (by decide +kernel)

def likedByItsAuthor : Db :=
  Transition.run (step .plain) (Db.new {})
    [.signUp "ann@blnkk.com" "ann", .signUp "bob@blnkk.com" "bob", .signUp "carol@blnkk.com" "carol",
      .createRequest 1 "bike" "wanted" none, .rateRequest 1 1 (.int 1), .createComment 2 1 "mine"]

/-- The like of the author is counted among those of the others, and a
commenter among the other commenters. -/
theorem author_and_commenter_counted :
    Reachable .plain likedByItsAuthor ∧
    (((likeOfBob.notified likedByItsAuthor).foldl (Notification.notify 10) .empty).get?
      (1, .requestLike, .request 1)).map Notification.others = some 1 ∧
    ((likeOfBob.after likedByItsAuthor).raters (.request 1) 1).filter (fun u => u != 1 && u != 2) = [] ∧
    ((((NotifyingAct.comment 3 1 "or mine").notified likedByItsAuthor).foldl (Notification.notify 10) .empty).get?
      (2, .commentCommentedRequest, .request 1)).map Notification.others = some 1 ∧
    (CommentsController.commentUsers ((NotifyingAct.comment 3 1 "or mine").after likedByItsAuthor) 1).filter
      (fun u => u != 2 && u != 3) = [] := by
  refine ⟨⟨_, _, rfl⟩, ?_⟩
  decide +kernel

end Blnkk
