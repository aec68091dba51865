import Blnkk.MessageChanges
import Blnkk.RatedUsers

/-!
The shape of a database is what the foreign keys refer to: which rows exist
and who owns them. Rating, viewing and flagging keep it, and the other changes
only add to it.
-/

namespace Blnkk

open Relational

def Db.requestAuthors (db : Db) : List (ℕ × ℕ) := db.requests.rows.map (fun r => (r.id, r.userId))

def Db.commentAuthors (db : Db) : List (ℕ × ℕ) := db.comments.rows.map (fun c => (c.id, c.userId))

def Db.memberships (db : Db) : List (ℕ × ℕ) := db.conversationUsers.rows.map ConversationUser.index

structure SameShape (db db' : Db) : Prop where
  users : ∀ k, db'.users.has k = db.users.has k
  requests : db'.requestAuthors = db.requestAuthors
  comments : db'.commentAuthors = db.commentAuthors
  conversations : ∀ k, db'.conversations.has k = db.conversations.has k
  memberships : db'.memberships = db.memberships

namespace SameShape

theorem refl (db : Db) : SameShape db db := ⟨fun _ => rfl, rfl, rfl, fun _ => rfl, rfl⟩

theorem of_eq {db db' : Db} (hu : db'.users = db.users) (hr : db'.requests = db.requests)
    (hc : db'.comments = db.comments) (hv : db'.conversations = db.conversations)
    (hm : db'.conversationUsers = db.conversationUsers) : SameShape db db' := by
  refine ⟨fun k => ?_, ?_, ?_, fun k => ?_, ?_⟩
  · rw [hu]
  · rw [Db.requestAuthors, hr]; rfl
  · rw [Db.commentAuthors, hc]; rfl
  · rw [hv]
  · rw [Db.memberships, hm]; rfl

theorem trans {db db' db'' : Db} (h : SameShape db db') (h' : SameShape db' db'') : SameShape db db'' :=
  ⟨fun k => (h'.users k).trans (h.users k), h'.requests.trans h.requests, h'.comments.trans h.comments,
    fun k => (h'.conversations k).trans (h.conversations k), h'.memberships.trans h.memberships⟩

theorem of_mapsUsers {db db' : Db} {f : ℕ → User → User} (h : MapsUsers db db' f) : SameShape db db' := by
  have hf := h.frame
  refine ⟨h.has, ?_, ?_, fun k => ?_, ?_⟩
  · rw [hf]; rfl
  · rw [hf]; rfl
  · rw [hf]
  · rw [hf]; rfl

theorem request (db : Db) (id : ℕ) (f : Request → Request) (hf : ∀ r, (f r).id = r.id)
    (hu : ∀ r, (f r).userId = r.userId) :
    SameShape db { db with requests := db.requests.update id f hf } :=
  ⟨fun _ => rfl, Table.map_updateWhere _ _ _ hf _ (fun r => by rw [hf, hu]), rfl, fun _ => rfl, rfl⟩

theorem comment (db : Db) (id : ℕ) (f : Comment → Comment) (hf : ∀ c, (f c).id = c.id)
    (hu : ∀ c, (f c).userId = c.userId) :
    SameShape db { db with comments := db.comments.update id f hf } :=
  ⟨fun _ => rfl, rfl, Table.map_updateWhere _ _ _ hf _ (fun c => by rw [hf, hu]), fun _ => rfl, rfl⟩

theorem updateScore (db : Db) (action : ScoreAction) (r : Request) : SameShape db (r.updateScore db action) :=
  request db r.id (fun row => row.scoreColumns (r.rescore db action)) (fun _ => rfl) (fun _ => rfl)

theorem updateCommentScore (db : Db) (action : ScoreAction) (c : Comment) : SameShape db (c.updateScore db action) :=
  comment db c.id (fun row => row.scoreColumns (c.rescore db action)) (fun _ => rfl) (fun _ => rfl)

theorem saveRating (db : Db) (user : ℕ) (q : Rateable) (v : ℤ) : SameShape db (db.saveRating user q v) :=
  ⟨fun _ => rfl, rfl, rfl, fun _ => rfl, rfl⟩

end SameShape

structure Extends (db db' : Db) : Prop where
  users : ∀ k, db.users.has k = true → db'.users.has k = true
  requests : ∀ p ∈ db.requestAuthors, p ∈ db'.requestAuthors
  comments : ∀ p ∈ db.commentAuthors, p ∈ db'.commentAuthors
  conversations : ∀ k, db.conversations.has k = true → db'.conversations.has k = true
  memberships : ∀ p ∈ db.memberships, p ∈ db'.memberships

namespace Extends

theorem refl (db : Db) : Extends db db := ⟨fun _ h => h, fun _ h => h, fun _ h => h, fun _ h => h, fun _ h => h⟩

theorem trans {db db' db'' : Db} (h : Extends db db') (h' : Extends db' db'') : Extends db db'' :=
  ⟨fun k hk => h'.users k (h.users k hk), fun p hp => h'.requests p (h.requests p hp),
    fun p hp => h'.comments p (h.comments p hp), fun k hk => h'.conversations k (h.conversations k hk),
    fun p hp => h'.memberships p (h.memberships p hp)⟩

theorem of_sameShape {db db' : Db} (h : SameShape db db') : Extends db db' := by
  refine ⟨fun k hk => ?_, fun p hp => ?_, fun p hp => ?_, fun k hk => ?_, fun p hp => ?_⟩
  · rw [h.users, hk]
  · rw [h.requests]; exact hp
  · rw [h.comments]; exact hp
  · rw [h.conversations, hk]
  · rw [h.memberships]; exact hp

end Extends

theorem mem_memberships (db : Db) (c u : ℕ) :
    (c, u) ∈ db.memberships ↔ db.conversationUsers.has (c, u) = true := by
  rw [Table.has_iff, Db.memberships, List.mem_map]

theorem requests_has_iff (db : Db) (id : ℕ) : db.requests.has id = true ↔ ∃ u, (id, u) ∈ db.requestAuthors := by
  simp only [Table.has_iff, Db.requestAuthors, List.mem_map, Prod.mk.injEq]
  constructor
  · rintro ⟨r, hr, rfl⟩
    exact ⟨r.userId, r, hr, rfl, rfl⟩
  · rintro ⟨u, r, hr, rfl, -⟩
    exact ⟨r, hr, rfl⟩

theorem comments_has_iff (db : Db) (id : ℕ) : db.comments.has id = true ↔ ∃ u, (id, u) ∈ db.commentAuthors := by
  simp only [Table.has_iff, Db.commentAuthors, List.mem_map, Prod.mk.injEq]
  constructor
  · rintro ⟨c, hc, rfl⟩
    exact ⟨c.userId, c, hc, rfl, rfl⟩
  · rintro ⟨u, c, hc, rfl, -⟩
    exact ⟨c, hc, rfl⟩

theorem ValidRating.mono {db db' : Db} (he : Extends db db') {user : ℕ} {q : Rateable} {v : ℤ}
    (h : ValidRating db user q v) : ValidRating db' user q v := by
  refine ⟨he.users _ h.rater, ?_, h.value, fun c hc => ?_, h.notSelf, h.notDown⟩
  · have hq := h.rateable
    cases q with
    | user id => exact he.users _ hq
    | request id =>
      obtain ⟨u, hu⟩ := (requests_has_iff db id).mp hq
      exact (requests_has_iff db' id).mpr ⟨u, he.requests _ hu⟩
    | comment id =>
      obtain ⟨u, hu⟩ := (comments_has_iff db id).mp hq
      exact (comments_has_iff db' id).mpr ⟨u, he.comments _ hu⟩
    | conversation id => exact he.conversations _ hq
  · have hp := (mem_memberships db c user).mpr (h.participant c hc)
    exact (mem_memberships db' c user).mp (he.memberships _ hp)

end Blnkk
