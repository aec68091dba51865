import Blnkk.Rate

/-!
What the four `rate` methods write to the users table, row by row.
-/

namespace Blnkk

open Relational

structure MapsUsers (db db' : Db) (f : ℕ → User → User) : Prop where
  frame : db' = { db with users := db'.users }
  get? : ∀ k, db'.users.get? k = (db.users.get? k).map (f k)

namespace MapsUsers

theorem updateUser (db : Db) (id : ℕ) (f : User → User) (hf : ∀ u, (f u).id = u.id) :
    MapsUsers db (db.updateUser id f hf) (fun k u => if k = id then f u else u) := by
  refine ⟨rfl, fun k => ?_⟩
  rw [Db.updateUser, Table.get?_update]
  by_cases hk : k = id <;> simp [hk]

theorem trans {db db' db'' : Db} {f g : ℕ → User → User} (h : MapsUsers db db' f) (h' : MapsUsers db' db'' g) :
    MapsUsers db db'' (fun k u => g k (f k u)) := by
  refine ⟨?_, fun k => ?_⟩
  · rw [h'.frame, h.frame]
  · rw [h'.get?, h.get?, Option.map_map]
    rfl

theorem has {db db' : Db} {f : ℕ → User → User} (h : MapsUsers db db' f) (k : ℕ) :
    db'.users.has k = db.users.has k := by
  simp [Table.has, h.get?]

theorem ratings {db db' : Db} {f : ℕ → User → User} (h : MapsUsers db db' f) : db'.ratings = db.ratings := by
  rw [h.frame]

theorem requests {db db' : Db} {f : ℕ → User → User} (h : MapsUsers db db' f) : db'.requests = db.requests := by
  rw [h.frame]

theorem requestUsers {db db' : Db} {f : ℕ → User → User} (h : MapsUsers db db' f) :
    db'.requestUsers = db.requestUsers := by
  rw [h.frame]

theorem viewings {db db' : Db} {f : ℕ → User → User} (h : MapsUsers db db' f) : db'.viewings = db.viewings := by
  rw [h.frame]

end MapsUsers

theorem updateUser_id (db : Db) (id : ℕ) (f : User → User) (hf : ∀ u, (f u).id = u.id) (hi : ∀ u, f u = u) :
    db.updateUser id f hf = db := by
  rw [Db.updateUser, Table.update, Table.updateWhere_id _ _ _ _ hi]

theorem addLikes_maps (db : Db) (add : ℤ → User → User) (hadd : ∀ d u, (add d u).id = u.id)
    (hzero : ∀ u, add 0 u = u) (id : ℕ) (diff : ℤ) :
    MapsUsers db (db.addLikes add id diff hadd) (fun k u => if k = id then add diff u else u) := by
  have h : db.addLikes add id diff hadd = db.updateUser id (add diff) (hadd diff) := by
    unfold Db.addLikes
    split_ifs with hd
    · subst hd
      exact (updateUser_id db id _ _ hzero).symm
    · rfl
  rw [h]
  exact .updateUser db id (add diff) (hadd diff)

theorem addLikes_updatePoints_maps (db : Db) (add : ℤ → User → User) (hadd : ∀ d u, (add d u).id = u.id)
    (hzero : ∀ u, add 0 u = u) (id : ℕ) (diff : ℤ) :
    MapsUsers db ((db.addLikes add id diff hadd).updatePoints id)
      (fun k u => if k = id then (add diff u).withPoints else u) := by
  have ht := (addLikes_maps db add hadd hzero id diff).trans
    (MapsUsers.updateUser _ id User.withPoints (fun _ => rfl))
  refine ⟨ht.frame, fun k => ?_⟩
  rw [Db.updatePoints, ht.get?]
  by_cases hk : k = id <;> simp [hk]

theorem addLikes_foldl_maps (add : ℤ → User → User) (hadd : ∀ d u, (add d u).id = u.id)
    (hzero : ∀ u, add 0 u = u) (diff : ℤ) (ids : List ℕ) (hn : ids.Nodup) (db : Db) :
    MapsUsers db (ids.foldl (fun d u => (d.addLikes add u diff hadd).updatePoints u) db)
      (fun k u => if k ∈ ids then (add diff u).withPoints else u) := by
  induction ids generalizing db with
  | nil => exact ⟨rfl, fun k => by simp⟩
  | cons id ids ih =>
    obtain ⟨hid, hn⟩ := List.nodup_cons.mp hn
    have ht := (addLikes_updatePoints_maps db add hadd hzero id diff).trans (ih hn _)
    refine ⟨ht.frame, fun k => ?_⟩
    rw [List.foldl_cons, ht.get?]
    by_cases hk : k = id
    · subst hk
      simp [hid]
    · simp [hk]

theorem participants_nodup (db : Db) (conversation : ℕ) : (db.participants conversation).Nodup := by
  have hu := db.conversationUsers.unique
  rw [List.nodup_map_iff_inj_on (List.Nodup.of_map _ hu)] at hu
  refine (List.nodup_map_iff_inj_on ((List.Nodup.of_map _ db.conversationUsers.unique).filter _)).mpr ?_
  intro a ha b hb hab
  obtain ⟨ha, hca⟩ := List.mem_filter.mp ha
  obtain ⟨hb, hcb⟩ := List.mem_filter.mp hb
  have hc : a.conversationId = b.conversationId := (of_decide_eq_true hca).trans (of_decide_eq_true hcb).symm
  exact hu a ha b hb (Prod.ext hc hab)

theorem mem_participants (db : Db) (conversation user : ℕ) :
    user ∈ db.participants conversation ↔ db.conversationUsers.has (conversation, user) = true := by
  simp only [Db.participants, List.mem_map, List.mem_filter, decide_eq_true_eq, Table.has_iff,
    ConversationUser.index, Prod.mk.injEq, and_assoc]

namespace User

def afterRating (saved : Db) (self user k : ℕ) (u : User) : User :=
  let counted := if k = self then
    withPoints
      { u with
        followerCount := saved.likersCount (.user self)
        reportCount := saved.reportersCount (.user self) }
    else u
  if k = user then { counted with followingCount := saved.followingCount user } else counted

theorem rated_maps (db : Db) (self user : ℕ) (v : ℤ) :
    MapsUsers (db.saveRating user (.user self) v) (rated db self user v)
      (afterRating (db.saveRating user (.user self) v) self user) := by
  have ht := ((MapsUsers.updateUser (db.saveRating user (.user self) v) self
    (fun u => { u with
      followerCount := (db.saveRating user (.user self) v).likersCount (.user self)
      reportCount := (db.saveRating user (.user self) v).reportersCount (.user self) }) (fun _ => rfl)).trans
    (MapsUsers.updateUser _ self User.withPoints (fun _ => rfl))).trans
    (MapsUsers.updateUser _ user
      (fun u => { u with followingCount := (db.saveRating user (.user self) v).followingCount user })
      (fun _ => rfl))
  refine ⟨rfl, fun k => (ht.get? k).trans ?_⟩
  congr 1
  funext u
  unfold afterRating
  by_cases hk : k = self <;> simp [hk]

end User

theorem Request.rated_maps (db : Db) (self : Request) (user : ℕ) (v : ℤ) :
    MapsUsers (self.updateScore (db.saveRating user (.request self.id) v) .rate) (self.rated db user v)
      (fun k u =>
        if k = self.userId then
          (u.addRequestLikes (v - (db.ratingOf user (.request self.id)).getD 0)).withPoints else u) :=
  addLikes_updatePoints_maps _ User.addRequestLikes (fun _ _ => rfl) (fun u => by simp [User.addRequestLikes]) _ _

theorem Comment.rated_maps (db : Db) (self : Comment) (user : ℕ) (v : ℤ) :
    MapsUsers (self.updateScore (db.saveRating user (.comment self.id) v) .rate) (self.rated db user v)
      (fun k u =>
        if k = self.userId then
          (u.addCommentLikes (v - (db.ratingOf user (.comment self.id)).getD 0)).withPoints else u) :=
  addLikes_updatePoints_maps _ User.addCommentLikes (fun _ _ => rfl) (fun u => by simp [User.addCommentLikes]) _ _

theorem Conversation.rated_maps (db : Db) (self : Conversation) (user : ℕ) (v : ℤ) :
    MapsUsers (db.saveRating user (.conversation self.id) v) (self.rated db user v)
      (fun k u =>
        if db.conversationUsers.has (self.id, k) = true ∧ k ≠ user then
          (u.addConversationLikes (v - (db.ratingOf user (.conversation self.id)).getD 0)).withPoints else u) := by
  have ht := addLikes_foldl_maps User.addConversationLikes (fun _ _ => rfl)
    (fun u => by simp [User.addConversationLikes]) (v - (db.ratingOf user (.conversation self.id)).getD 0)
    (((db.saveRating user (.conversation self.id) v).participants self.id).filter (· != user))
    ((participants_nodup _ _).filter _) (db.saveRating user (.conversation self.id) v)
  refine ⟨ht.frame, fun k => (ht.get? k).trans ?_⟩
  simp only [List.mem_filter, mem_participants, bne_iff_ne]
  rfl

end Blnkk
