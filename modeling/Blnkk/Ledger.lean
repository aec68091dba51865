import Blnkk.Integrity
import Mathlib.Algebra.Ring.Int.Defs

/-!
The counters of a user against the ratings they stand for.
-/

namespace Blnkk

open Relational

namespace Db

variable (db : Db) (user : ℕ)

def requestLikes : ℤ := db.requests.sum (fun r => if r.userId = user then db.ratingSum (.request r.id) else 0)

def commentLikes : ℤ := db.comments.sum (fun c => if c.userId = user then db.ratingSum (.comment c.id) else 0)

def othersRatingSum (conversation : ℕ) : ℤ :=
  db.ratings.sum (fun r => if r.rateable = .conversation conversation ∧ r.userId ≠ user then r.rating else 0)

def conversationLikes : ℤ :=
  db.conversationUsers.sum (fun cu => if cu.userId = user then db.othersRatingSum user cu.conversationId else 0)

theorem requestLikes_eq : db.requestLikes user =
    (db.requestAuthors.map (fun p => if p.2 = user then db.ratingSum (.request p.1) else 0)).sum := by
  simp only [requestLikes, Table.sum, requestAuthors, List.map_map, Function.comp_def]

theorem commentLikes_eq : db.commentLikes user =
    (db.commentAuthors.map (fun p => if p.2 = user then db.ratingSum (.comment p.1) else 0)).sum := by
  simp only [commentLikes, Table.sum, commentAuthors, List.map_map, Function.comp_def]

theorem conversationLikes_eq : db.conversationLikes user =
    (db.memberships.map (fun p => if p.2 = user then db.othersRatingSum user p.1 else 0)).sum := by
  simp only [conversationLikes, Table.sum, memberships, List.map_map, Function.comp_def]

end Db

structure LedgerOf (db : Db) (k : ℕ) (u : User) : Prop where
  followerCount : u.followerCount = db.likersCount (.user k)
  followingCount : u.followingCount = db.followingCount k
  reportCount : u.reportCount = db.reportersCount (.user k)
  requestLikeCount : u.requestLikeCount = db.requestLikes k
  commentLikeCount : u.commentLikeCount = db.commentLikes k
  conversationLikeCount : u.conversationLikeCount = db.conversationLikes k
  pointCount : u.pointCount = u.points

def Ledger (db : Db) : Prop := ∀ k u, db.users.get? k = some u → LedgerOf db k u

structure SameCounts (db db' : Db) (k : ℕ) : Prop where
  likers : db'.likersCount (.user k) = db.likersCount (.user k)
  following : db'.followingCount k = db.followingCount k
  reporters : db'.reportersCount (.user k) = db.reportersCount (.user k)
  requests : db'.requestLikes k = db.requestLikes k
  comments : db'.commentLikes k = db.commentLikes k
  conversations : db'.conversationLikes k = db.conversationLikes k

theorem LedgerOf.of_sameCounts {db db' : Db} {k : ℕ} {u : User} (h : LedgerOf db k u) (hs : SameCounts db db' k) :
    LedgerOf db' k u :=
  ⟨h.followerCount.trans hs.likers.symm, h.followingCount.trans hs.following.symm,
    h.reportCount.trans hs.reporters.symm, h.requestLikeCount.trans hs.requests.symm,
    h.commentLikeCount.trans hs.comments.symm, h.conversationLikeCount.trans hs.conversations.symm, h.pointCount⟩

theorem LedgerOf.of_reputation {db : Db} {k : ℕ} {u u' : User} (h : LedgerOf db k u)
    (hr : u'.reputation = u.reputation) : LedgerOf db k u' := by
  have hp : u'.reputation.points = u.reputation.points := congrArg User.points hr
  refine ⟨?_, ?_, ?_, ?_, ?_, ?_, ?_⟩
  · exact (congrArg User.followerCount hr : _).trans h.followerCount
  · exact (congrArg User.followingCount hr : _).trans h.followingCount
  · exact (congrArg User.reportCount hr : _).trans h.reportCount
  · exact (congrArg User.requestLikeCount hr : _).trans h.requestLikeCount
  · exact (congrArg User.commentLikeCount hr : _).trans h.commentLikeCount
  · exact (congrArg User.conversationLikeCount hr : _).trans h.conversationLikeCount
  · exact (congrArg User.pointCount hr : _).trans (h.pointCount.trans hp.symm)

theorem sameCounts_of_kept {db db' : Db} (hr : db'.ratings = db.ratings)
    (hq : db'.requestAuthors = db.requestAuthors) (hc : db'.commentAuthors = db.commentAuthors)
    (hm : db'.memberships = db.memberships) (k : ℕ) : SameCounts db db' k := by
  refine ⟨?_, ?_, ?_, ?_, ?_, ?_⟩
  · simp only [Db.likersCount, Db.ratingCount, hr]
  · simp only [Db.followingCount, hr]
  · simp only [Db.reportersCount, Db.ratingCount, hr]
  · simp only [Db.requestLikes_eq, Db.ratingSum, hr, hq]
  · simp only [Db.commentLikes_eq, Db.ratingSum, hr, hc]
  · simp only [Db.conversationLikes_eq, Db.othersRatingSum, hr, hm]

theorem Ledger.of_sameShape {db db' : Db} (h : Ledger db) (hs : SameShape db db') (hr : db'.ratings = db.ratings)
    (hu : ∀ k u', db'.users.get? k = some u' → ∃ u, db.users.get? k = some u ∧ u'.reputation = u.reputation) :
    Ledger db' := by
  intro k u' hk
  obtain ⟨u, hg, he⟩ := hu k u' hk
  exact ((h k u hg).of_sameCounts (sameCounts_of_kept hr hs.requests hs.comments hs.memberships k)).of_reputation he

section Saved

variable (db : Db) (user : ℕ) (q : Rateable) (v : ℤ)

theorem requestLikes_saved (k : ℕ) : (db.saveRating user q v).requestLikes k = db.requestLikes k +
    match q with
    | .request id =>
      ((db.requests.get? id).map (fun r => if r.userId = k then v - (db.ratingOf user q).getD 0 else 0)).getD 0
    | _ => 0 := by
  simp only [Db.requestLikes, Db.ratingSum_saveRating]
  cases q with
  | request id =>
    simp only [Rateable.request.injEq]
    rw [← Table.sum_add_single]
    apply Table.sum_congr
    intro r _
    by_cases hr : r.userId = k <;> by_cases hi : r.id = id <;> simp [hr, hi]
  | _ => simp; rfl

theorem commentLikes_saved (k : ℕ) : (db.saveRating user q v).commentLikes k = db.commentLikes k +
    match q with
    | .comment id =>
      ((db.comments.get? id).map (fun c => if c.userId = k then v - (db.ratingOf user q).getD 0 else 0)).getD 0
    | _ => 0 := by
  simp only [Db.commentLikes, Db.ratingSum_saveRating]
  cases q with
  | comment id =>
    simp only [Rateable.comment.injEq]
    rw [← Table.sum_add_single]
    apply Table.sum_congr
    intro c _
    by_cases hr : c.userId = k <;> by_cases hi : c.id = id <;> simp [hr, hi]
  | _ => simp; rfl

theorem othersRatingSum_saved (k c : ℕ) : (db.saveRating user q v).othersRatingSum k c =
    db.othersRatingSum k c + if .conversation c = q ∧ k ≠ user then v - (db.ratingOf user q).getD 0 else 0 := by
  have he : (q = .conversation c ∧ user ≠ k) ↔ (.conversation c = q ∧ k ≠ user) :=
    and_congr eq_comm (not_congr eq_comm)
  unfold Db.othersRatingSum Db.ratingOf
  rw [Db.sum_saveRating]
  congr 1
  cases h : db.ratings.get? (user, q) with
  | none => simp [he]
  | some r =>
    have hi := Table.get?_key h
    simp only [Rating.index, Prod.mk.injEq] at hi
    simp only [Option.map_some, Option.getD_some, hi.1, hi.2, he]
    split_ifs
    · rfl
    · simp

theorem conversationLikes_saved (k : ℕ) : (db.saveRating user q v).conversationLikes k = db.conversationLikes k +
    match q with
    | .conversation c =>
      if db.conversationUsers.has (c, k) = true ∧ k ≠ user then v - (db.ratingOf user q).getD 0 else 0
    | _ => 0 := by
  simp only [Db.conversationLikes, othersRatingSum_saved]
  cases q with
  | conversation c =>
    have hs : (if db.conversationUsers.has (c, k) = true ∧ k ≠ user then
        v - (db.ratingOf user (.conversation c)).getD 0 else 0) =
        ((db.conversationUsers.get? (c, k)).map
          (fun _ => if k ≠ user then v - (db.ratingOf user (.conversation c)).getD 0 else 0)).getD 0 := by
      cases h : db.conversationUsers.get? (c, k) <;> simp [Table.has, h]
    simp only [hs]
    rw [← Table.sum_add_single]
    apply Table.sum_congr
    intro cu _
    by_cases hu : cu.userId = k <;> by_cases hc : cu.conversationId = c <;>
      simp [ConversationUser.index, hu, hc]
  | _ => simp; rfl

theorem followingCount_saved (k : ℕ) (h : q.isUser = false ∨ user ≠ k) :
    (db.saveRating user q v).followingCount k = db.followingCount k := by
  unfold Db.followingCount
  rw [Db.count_saveRating]
  intro x
  rcases h with h | h <;> simp [h]

end Saved

end Blnkk
