import Blnkk.LedgerInvariant
import Blnkk.RateRace

/-!
What interleaved calls of `Request#rate` owe to the author's counters.
-/

namespace Blnkk

open Relational

namespace RateProc

def pending (author : ℕ) (p : RateProc) : ℤ :=
  match p.state with
  | .saved row diffRate => if row.userId = author then diffRate else 0
  | .liked row diffRate _ => if row.userId = author then diffRate else 0
  | .reported row diffRate _ _ => if row.userId = author then diffRate else 0
  | .scored a diffRate => if a = author then diffRate else 0
  | _ => 0

def owes (author : ℕ) (p : RateProc) : Prop :=
  match p.state with
  | .credited a => a = author
  | .reloaded a _ => a = author
  | _ => False

/-- By how much the rating that the next statement replaces differs from the
one the call found. -/
def drift (author : ℕ) (db : Db) (p : RateProc) : ℤ :=
  match p.state with
  | .validated row (some o) v =>
    -- the call found a row and rows of ratings are never deleted, so the default is not taken
    if row.userId = author ∧ v ≠ o then (db.ratingOf p.call.user (.request row.id)).getD v - o else 0
  | _ => 0

def fresh (author : ℕ) (db : Db) (p : RateProc) (before : Bool) : Bool :=
  match p.state with
  | .reloaded a u => if a = author then decide ((db.users.get? author).map User.points = some u.points) else before
  | _ => before

/-- The rating that the next statement replaces is the one the call read, and the
points it writes are those of the counters as they are. -/
def Undisturbed (author : ℕ) (db : Db) (p : RateProc) : Prop :=
  match p.state with
  | .validated row (some o) _ => row.userId = author → db.ratingOf p.call.user (.request row.id) = some o
  | .reloaded a u => a = author → (db.users.get? author).map User.points = some u.points
  | _ => True

theorem Undisturbed.drift {author : ℕ} {db : Db} {p : RateProc} (h : p.Undisturbed author db) : p.drift author db = 0 := by
  obtain ⟨call, state⟩ := p
  cases state with
  | validated row oldRating v =>
    cases oldRating with
    | none => rfl
    | some o =>
      simp only [RateProc.drift]
      split_ifs with hc
      · rw [h hc.1, Option.getD_some, sub_self]
      · rfl
  | _ => rfl

theorem Undisturbed.fresh {author : ℕ} {db : Db} {p : RateProc} (h : p.Undisturbed author db) :
    p.fresh author db true = true := by
  obtain ⟨call, state⟩ := p
  cases state with
  | reloaded a u =>
    simp only [RateProc.fresh]
    split_ifs with ha
    · exact decide_eq_true (h ha)
    · rfl
  | _ => rfl

def Loaded (authors : List (ℕ × ℕ)) (p : RateProc) : Prop :=
  match p.state with
  | .loaded row => (row.id, row.userId) ∈ authors
  | .found row _ => (row.id, row.userId) ∈ authors
  | .validated row _ _ => (row.id, row.userId) ∈ authors
  | _ => True

end RateProc

def Db.PointsFresh (author : ℕ) (fresh : Bool) (db : Db) : Prop :=
  ∀ u, db.users.get? author = some u → (u.pointCount = u.points ↔ fresh = true)

theorem requests_get?_of_author {db : Db} {id author : ℕ} (h : (id, author) ∈ db.requestAuthors) :
    ∃ r, db.requests.get? id = some r ∧ r.userId = author := by
  obtain ⟨r, hr, he⟩ := List.mem_map.mp h
  rw [Prod.mk.injEq] at he
  rw [← he.1]
  exact ⟨r, Table.get?_of_mem hr, he.2⟩

theorem requestLikes_saved_of_author {db : Db} {row : Request} (h : (row.id, row.userId) ∈ db.requestAuthors)
    (user : ℕ) (v : ℤ) (author : ℕ) :
    (db.saveRating user (.request row.id) v).requestLikes author = db.requestLikes author +
      if row.userId = author then v - (db.ratingOf user (.request row.id)).getD 0 else 0 := by
  obtain ⟨r, hr, hu⟩ := requests_get?_of_author h
  rw [requestLikes_saved]
  simp only [hr, Option.map_some, Option.getD_some, hu]

theorem requestLikes_replaced_of_author {db : Db} {row : Request} (h : (row.id, row.userId) ∈ db.requestAuthors)
    (user : ℕ) (v : ℤ) (author : ℕ) :
    (db.replaceRating user (.request row.id) v).requestLikes author = db.requestLikes author +
      if row.userId = author then v - (db.ratingOf user (.request row.id)).getD v else 0 := by
  rcases Db.saveRating_cases db user (.request row.id) v with ⟨hn, -⟩ | ⟨r, hr, he⟩
  · have hs : db.replaceRating user (.request row.id) v = db := by
      have ht : db.ratings.update (user, .request row.id) (fun r => { r with rating := v }) = db.ratings := by
        apply Table.update_eq_self
        intro a ha
        rw [hn] at ha
        cases ha
      exact congrArg (fun ratings => { db with ratings }) ht
    simp [hs, Db.ratingOf, hn]
  · have hs := requestLikes_saved_of_author h user v author
    rw [he] at hs
    rw [Db.ratingOf, hr] at hs ⊢
    exact hs

def Db.likeBalance (db : Db) (author : ℕ) : ℤ :=
  ((db.users.get? author).map User.requestLikeCount).getD 0 - db.requestLikes author

theorem likeBalance_of_kept {db db' : Db} (hs : SameShape db db') (hr : db'.ratings = db.ratings) (author : ℕ)
    (hu : (db'.users.get? author).map User.requestLikeCount = (db.users.get? author).map User.requestLikeCount) :
    db'.likeBalance author = db.likeBalance author := by
  have hl := (sameCounts_of_kept hr hs.requests hs.comments hs.memberships author).requests
  rw [Db.likeBalance, Db.likeBalance, hl, hu]

theorem likeBalance_addLikes (db : Db) {author : ℕ} (hu : db.users.has author = true) (id : ℕ) (diff : ℤ) :
    (db.addLikes User.addRequestLikes id diff).likeBalance author =
      db.likeBalance author + if id = author then diff else 0 := by
  have hm : MapsUsers db (db.addLikes User.addRequestLikes id diff)
      (fun k u => if k = id then u.addRequestLikes diff else u) := by
    apply addLikes_maps
    intro u
    simp [User.addRequestLikes]
  have hs := SameShape.of_mapsUsers hm
  have hl := (sameCounts_of_kept hm.ratings hs.requests hs.comments hs.memberships author).requests
  obtain ⟨u, hg⟩ := Option.isSome_iff_exists.mp hu
  rw [Db.likeBalance, Db.likeBalance, hl, hm.get?, hg, Option.map_some, Option.map_some, Option.map_some,
    Option.getD_some, Option.getD_some]
  by_cases ha : id = author
  · rw [if_pos ha.symm, if_pos ha]
    exact add_sub_right_comm _ _ _
  · rw [if_neg (Ne.symm ha), if_neg ha]
    omega

namespace RateProc

theorem statement_sameShape (db : Db) (call : RateCall) (state : RateState) :
    SameShape db (statement db call state).1 := by
  cases state with
  | start =>
    simp only [statement]
    split <;> exact .refl db
  | found row oldRating =>
    simp only [statement]
    split <;> exact .refl db
  | validated row oldRating v =>
    simp only [statement]
    rcases saveStatement_cases db call.user row oldRating v with ⟨-, h⟩ | ⟨-, h⟩ | ⟨-, -, h⟩ | ⟨o, -, -, h⟩ <;> rw [h]
    · exact .refl db
    · exact .refl db
    · exact .saveRating db call.user (.request row.id) v
    · exact .of_eq rfl rfl rfl rfl rfl
  | reported row diffRate likeCount reportCount =>
    exact .request db row.id (fun r => r.scoreColumns (row.rescored likeCount reportCount)) (fun _ => rfl)
      (fun _ => rfl)
  | scored author diffRate =>
    exact .of_mapsUsers (addLikes_maps db User.addRequestLikes (fun _ _ => rfl) (by simp [User.addRequestLikes])
      author diffRate)
  | credited author =>
    simp only [statement]
    split <;> exact .refl db
  | reloaded author u =>
    exact .of_mapsUsers (.updateUser db author (fun row => { row with pointCount := u.points }) (fun _ => rfl))
  | _ => exact .refl db

/-- Each statement moves what is counted and what is still to count together,
but for the drift of a replaced rating. -/
theorem statement_balance {db : Db} {call : RateCall} {state : RateState} {author : ℕ}
    (hu : db.users.has author = true) (hl : Loaded db.requestAuthors ⟨call, state⟩) :
    (statement db call state).1.likeBalance author + pending author ⟨call, (statement db call state).2⟩ =
      db.likeBalance author + pending author ⟨call, state⟩ + drift author db ⟨call, state⟩ := by
  cases state with
  | start =>
    simp only [statement]
    split
    · split_ifs <;> simp [pending, drift]
    · simp [pending, drift]
  | found row oldRating =>
    simp only [statement]
    split <;> simp [pending, drift]
  | validated row oldRating v =>
    simp only [statement]
    rcases saveStatement_cases db call.user row oldRating v with ⟨ho, h⟩ | ⟨ho, h⟩ | ⟨ho, hn, h⟩ | ⟨o, ho, hv, h⟩ <;>
      rw [h]
    · simp [pending, drift, ho]
    · simp [pending, drift, ho]
    · have hs := requestLikes_saved_of_author hl call.user v author
      rw [hn, Option.getD_none, sub_zero] at hs
      have hb : (db.saveRating call.user (.request row.id) v).likeBalance author =
          db.likeBalance author - if row.userId = author then v else 0 := by
        rw [Db.likeBalance, hs, ← sub_sub]
        rfl
      simp only [pending, drift, ho, hb]
      omega
    · have hs := requestLikes_replaced_of_author hl call.user v author
      have hb : (db.replaceRating call.user (.request row.id) v).likeBalance author =
          db.likeBalance author -
            if row.userId = author then v - (db.ratingOf call.user (.request row.id)).getD v else 0 := by
        rw [Db.likeBalance, hs, ← sub_sub]
        rfl
      by_cases ha : row.userId = author
      · simp only [pending, drift, ho, hb, ha, hv, ne_eq, not_false_eq_true, and_self, if_true]
        omega
      · simp only [pending, drift, ho, hb, ha, false_and, if_false]
        omega
  | reported row diffRate likeCount reportCount =>
    have hs := statement_sameShape db call (.reported row diffRate likeCount reportCount)
    have hk := likeBalance_of_kept hs rfl author rfl
    simp only [pending, drift, statement] at hk ⊢
    omega
  | scored a diffRate =>
    have hb := likeBalance_addLikes db hu a diffRate
    simp only [pending, drift, statement] at hb ⊢
    omega
  | credited a =>
    simp only [statement]
    split <;> simp [pending, drift]
  | reloaded a u =>
    have hs := statement_sameShape db call (.reloaded a u)
    have hm := MapsUsers.updateUser db a (fun row => { row with pointCount := u.points }) (fun _ => rfl)
    have hk := likeBalance_of_kept hs rfl author (by
      rw [statement, hm.get?, Option.map_map]
      congr 1
      funext row
      by_cases ha : author = a <;> simp [ha])
    simp only [pending, drift, statement] at hk ⊢
    omega
  | _ => simp [statement, pending, drift]

theorem statement_loaded (db : Db) (call : RateCall) {state : RateState} (h : Loaded db.requestAuthors ⟨call, state⟩) :
    Loaded db.requestAuthors ⟨call, (statement db call state).2⟩ := by
  cases state with
  | start =>
    simp only [statement]
    split
    · rename_i row hr
      split_ifs
      · exact List.mem_map_of_mem (Table.get?_mem hr)
      · exact trivial
    · exact trivial
  | loaded row => exact h
  | found row oldRating =>
    simp only [statement]
    split
    · exact h
    · exact trivial
  | validated row oldRating v =>
    simp only [statement]
    rcases saveStatement_cases db call.user row oldRating v with ⟨-, h⟩ | ⟨-, h⟩ | ⟨-, -, h⟩ | ⟨o, -, -, h⟩ <;>
      rw [h] <;> exact trivial
  | credited author =>
    simp only [statement]
    split <;> exact trivial
  | _ => exact trivial

theorem statement_points (db : Db) (call : RateCall) (state : RateState) (author : ℕ) (before : Bool)
    (h : owes author ⟨call, state⟩ ∨ db.PointsFresh author before) :
    owes author ⟨call, (statement db call state).2⟩ ∨
      (statement db call state).1.PointsFresh author (fresh author db ⟨call, state⟩ before) := by
  cases state with
  | start =>
    simp only [statement]
    split <;> exact Or.inr (h.resolve_left id)
  | found row oldRating =>
    simp only [statement]
    split <;> exact Or.inr (h.resolve_left id)
  | validated row oldRating v =>
    simp only [statement]
    rcases saveStatement_cases db call.user row oldRating v with ⟨-, hs⟩ | ⟨-, hs⟩ | ⟨-, -, hs⟩ | ⟨o, -, -, hs⟩ <;>
      rw [hs] <;> exact Or.inr (h.resolve_left id)
  | scored a diffRate =>
    by_cases ha : a = author
    · exact Or.inl ha
    · have hm := addLikes_maps db User.addRequestLikes (fun _ _ => rfl) (by simp [User.addRequestLikes]) a diffRate
      refine Or.inr (fun u hu => ?_)
      rw [statement, hm.get?] at hu
      simp only [Ne.symm ha, if_false, Option.map_id_fun', id_eq] at hu
      exact h.resolve_left id u hu
  | credited a =>
    by_cases ha : a = author
    · subst ha
      simp only [statement]
      split
      · exact Or.inl rfl
      · rename_i hn
        refine Or.inr (fun u hu => ?_)
        rw [hn] at hu
        cases hu
    · simp only [statement]
      split <;> exact Or.inr (h.resolve_left ha)
  | reloaded a u =>
    have hm := MapsUsers.updateUser db a (fun row => { row with pointCount := u.points }) (fun _ => rfl)
    refine Or.inr (fun row hrow => ?_)
    rw [statement, hm.get?] at hrow
    by_cases ha : a = author
    · obtain ⟨old, hold, rfl⟩ := Option.map_eq_some_iff.mp hrow
      simp only [fresh, ha, if_true, hold, Option.map_some, Option.some.injEq, decide_eq_true_eq]
      exact eq_comm
    · simp only [Ne.symm ha, if_false, Option.map_id_fun', id_eq] at hrow
      simp only [fresh, ha, if_false]
      exact h.resolve_left ha row hrow
  | _ => exact Or.inr (h.resolve_left id)

end RateProc

end Blnkk
