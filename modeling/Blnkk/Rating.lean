import Blnkk.Schema

namespace Blnkk

open Relational

namespace Rateable

def isConversation : Rateable → Bool
  | conversation _ => true
  | _ => false

def isUser : Rateable → Bool
  | user _ => true
  | _ => false

end Rateable

namespace Rating

def upvote (rating : ℤ) : Bool := rating == 1

inductive Error where
  | userBlank
  | ratingBlank
  | rateableBlank
  | userIdTaken
  | ratingInclusion
  | notInConversation
  | ownUser
  | downvoted
  deriving DecidableEq

def Error.entry : Error → String × String
  | userBlank => ("user", "can't be blank")
  | ratingBlank => ("rating", "can't be blank")
  | rateableBlank => ("rateable", "can't be blank")
  | userIdTaken => ("user_id", "has already been taken")
  | ratingInclusion => ("rating", "is not included in the list")
  | notInConversation => ("", "Unable to rate a conversation you are not part of")
  | ownUser => ("", "Cannot follow yourself")
  | downvoted => ("", "Cannot downvote this")

end Rating

namespace Db

variable (db : Db)

def hasRateable : Rateable → Bool
  | .user id => db.users.has id
  | .request id => db.requests.has id
  | .comment id => db.comments.has id
  | .conversation id => db.conversations.has id

def ratingOf (user : ℕ) (q : Rateable) : Option ℤ := (db.ratings.get? (user, q)).map Rating.rating

def ratingCount (q : Rateable) (v : ℤ) : ℕ :=
  db.ratings.count (fun r => decide (r.rateable = q) && decide (r.rating = v))

def ratingSum (q : Rateable) : ℤ :=
  db.ratings.sum (fun r => if r.rateable = q then r.rating else 0)

def noSelfRating (user : ℕ) (q : Rateable) (rating : Option ℤ) : List Rating.Error :=
  (match q with
    | .conversation c => if db.conversationUsers.has (c, user) then [] else [.notInConversation]
    | _ => []) ++
  (if q = .user user then [.ownUser] else []) ++
  (if rating = some (-1) ∧ q.isConversation = false then [.downvoted] else [])

def ratingErrors (isNew : Bool) (user : ℕ) (q : Rateable) (rating : Option ℤ) : List Rating.Error :=
  (if db.users.has user then [] else [.userBlank]) ++
  (if rating = none then [.ratingBlank] else []) ++
  (if db.hasRateable q then [] else [.rateableBlank]) ++
  (if isNew ∧ db.ratings.has (user, q) then [.userIdTaken] else []) ++
  (if rating ∈ [some (-2), some (-1), some 0, some 1] then [] else [.ratingInclusion]) ++
  db.noSelfRating user q rating

def saveRating (user : ℕ) (q : Rateable) (v : ℤ) : Db :=
  { db with
    ratings := match db.ratings.insert ⟨user, q, v⟩ with
      | some ratings => ratings
      | none => db.ratings.update (user, q) (fun r => { r with rating := v }) }

def validateRating (isNew : Bool) (user : ℕ) (q : Rateable) (rating : Param) : Except (List Rating.Error) ℤ :=
  match rating.toInteger, db.ratingErrors isNew user q rating.toInteger with
  | some v, [] => .ok v
  | _, errors => .error errors

def assignRating (user : ℕ) (q : Rateable) (rating : Param) : Except (List Rating.Error) ℤ :=
  db.validateRating (db.ratingOf user q).isNone user q rating

end Db

structure ValidRating (db : Db) (user : ℕ) (q : Rateable) (v : ℤ) : Prop where
  rater : db.users.has user = true
  rateable : db.hasRateable q = true
  value : v = -2 ∨ v = -1 ∨ v = 0 ∨ v = 1
  participant : ∀ c, q = .conversation c → db.conversationUsers.has (c, user) = true
  notSelf : q ≠ .user user
  notDown : v = -1 → q.isConversation = true

theorem valid_of_ratingErrors {db : Db} {isNew : Bool} {user : ℕ} {q : Rateable} {v : ℤ}
    (h : db.ratingErrors isNew user q (some v) = []) : ValidRating db user q v := by
  simp only [Db.ratingErrors, Db.noSelfRating, List.append_eq_nil_iff, ite_eq_left_iff, ite_eq_right_iff,
    reduceCtorEq, imp_false, Bool.not_eq_true, Bool.not_eq_false] at h
  obtain ⟨⟨⟨⟨⟨hr, -⟩, ha⟩, -⟩, hv⟩, ⟨hc, hs⟩, hd⟩ := h
  refine ⟨hr, ha, ?_, ?_, hs, ?_⟩
  · simp only [List.mem_cons, Option.some.injEq, List.not_mem_nil, or_false] at hv
    by_contra hn
    exact hv hn
  · rintro c rfl
    simpa using hc
  · rintro rfl
    simpa using hd

theorem assignRating_ok {db : Db} {user : ℕ} {q : Rateable} {rating : Param} {v : ℤ}
    (h : db.assignRating user q rating = .ok v) :
    rating.toInteger = some v ∧ ValidRating db user q v := by
  unfold Db.assignRating Db.validateRating at h
  split at h
  · rename_i w hw he
    cases h
    rw [hw] at he
    exact ⟨hw, valid_of_ratingErrors he⟩
  · cases h

theorem assignRating_of_valid {db : Db} {user : ℕ} {q : Rateable} {rating : Param} {v : ℤ}
    (hv : rating.toInteger = some v) (h : ValidRating db user q v) : db.assignRating user q rating = .ok v := by
  have hnew : ¬ ((db.ratingOf user q).isNone = true ∧ db.ratings.has (user, q) = true) := by
    cases hg : db.ratings.get? (user, q) <;> simp [Db.ratingOf, Table.has, hg]
  have hvalue : some v ∈ [some (-2), some (-1), some 0, some 1] := by
    simpa using h.value
  have hself : db.noSelfRating user q (some v) = [] := by
    cases q with
    | conversation c => simpa [Db.noSelfRating, h.participant c rfl] using h.notDown
    | _ => simpa [Db.noSelfRating, h.notSelf] using h.notDown
  have he : db.ratingErrors (db.ratingOf user q).isNone user q (some v) = [] := by
    rw [Db.ratingErrors, hself, if_pos h.rater, if_pos h.rateable, if_neg hnew, if_pos hvalue]
    rfl
  rw [Db.assignRating, Db.validateRating, hv]
  simp only [he]

namespace Db

variable (db : Db) (user : ℕ) (q : Rateable) (v : ℤ)

theorem saveRating_cases :
    (db.ratings.get? (user, q) = none ∧
      (db.saveRating user q v).ratings.rows = db.ratings.rows ++ [⟨user, q, v⟩]) ∨
    (∃ r, db.ratings.get? (user, q) = some r ∧
      db.saveRating user q v =
        { db with ratings := db.ratings.update (user, q) (fun r => { r with rating := v }) }) := by
  cases h : db.ratings.insert ⟨user, q, v⟩ with
  | some t =>
    obtain ⟨hn, hr⟩ := Table.insert_eq_some h
    exact Or.inl ⟨hn, by simp only [saveRating, h]; exact hr⟩
  | none =>
    have hh := (Table.insert_eq_none _ _).mp h
    obtain ⟨r, hr⟩ := Option.isSome_iff_exists.mp hh
    exact Or.inr ⟨r, hr, by simp only [saveRating, h]⟩

theorem get?_saveRating (k : ℕ × Rateable) :
    (db.saveRating user q v).ratings.get? k = if k = (user, q) then some ⟨user, q, v⟩ else db.ratings.get? k := by
  rcases saveRating_cases db user q v with ⟨hn, hr⟩ | ⟨r, hr, he⟩
  · rw [Table.get?_append hr hn k]
    simp only [Rating.index, eq_comm]
  · rw [he, Table.get?_update]
    by_cases hk : k = (user, q)
    · subst hk
      have hi := Table.get?_key hr
      simp only [Rating.index, Prod.mk.injEq] at hi
      simp [hr, hi.1, hi.2]
    · simp [hk]

theorem mem_saveRating {r : Rating} (h : r ∈ (db.saveRating user q v).ratings.rows) :
    r = ⟨user, q, v⟩ ∨ r ∈ db.ratings.rows := by
  have hg := Table.get?_of_mem h
  rw [get?_saveRating] at hg
  split_ifs at hg
  · exact Or.inl (Option.some.inj hg).symm
  · exact Or.inr (Table.get?_mem hg)

theorem sum_saveRating (w : Rating → ℤ) :
    (db.saveRating user q v).ratings.sum w =
      db.ratings.sum w + (w ⟨user, q, v⟩ - ((db.ratings.get? (user, q)).map w).getD 0) := by
  rcases saveRating_cases db user q v with ⟨hn, hr⟩ | ⟨r, hr, he⟩
  · rw [Table.sum_append hr]
    simp [hn]
  · rw [he, Table.sum_update, hr]
    have hi := Table.get?_key hr
    simp only [Rating.index, Prod.mk.injEq] at hi
    simp [← hi.1, ← hi.2]

theorem count_saveRating (p : Rating → Bool) (hp : ∀ x, p ⟨user, q, x⟩ = false) :
    (db.saveRating user q v).ratings.count p = db.ratings.count p := by
  rcases saveRating_cases db user q v with ⟨hn, hr⟩ | ⟨r, hr, he⟩
  · rw [Table.count_append hr]
    simp [hp v]
  · rw [he]
    simp only [Table.update, Table.count_updateWhere]
    apply List.countP_congr
    intro a _
    by_cases ha : a.index = (user, q)
    · obtain ⟨x, y, z⟩ := a
      simp only [Rating.index, Prod.mk.injEq] at ha
      simp [Rating.index, ha.1, ha.2, hp]
    · simp [ha]

theorem ratingSum_saveRating (p : Rateable) :
    (db.saveRating user q v).ratingSum p =
      db.ratingSum p + if p = q then v - (db.ratingOf user q).getD 0 else 0 := by
  unfold ratingSum ratingOf
  rw [sum_saveRating]
  congr 1
  cases h : db.ratings.get? (user, q) with
  | none => by_cases hp : q = p <;> simp [hp, eq_comm]
  | some r =>
    have hi := Table.get?_key h
    simp only [Rating.index, Prod.mk.injEq] at hi
    by_cases hp : q = p
    · simp [hi.2, hp]
    · simp [hi.2, hp, Ne.symm hp]

theorem ratingCount_saveRating (p : Rateable) (x : ℤ) (hp : p ≠ q) :
    (db.saveRating user q v).ratingCount p x = db.ratingCount p x := by
  apply count_saveRating
  intro y
  simp [Ne.symm hp]

def raters : List ℕ :=
  (db.ratings.rows.filter (fun r => decide (r.rateable = q) && decide (r.rating = v))).map Rating.userId

theorem mem_raters : user ∈ db.raters q v ↔ db.ratingOf user q = some v := by
  simp only [raters, ratingOf, List.mem_map, List.mem_filter, Bool.and_eq_true, decide_eq_true_eq,
    Option.map_eq_some_iff, Table.get?_some_iff, Rating.index, Prod.mk.injEq]
  constructor
  · rintro ⟨r, ⟨hr, hq, hv⟩, hu⟩
    exact ⟨r, ⟨hr, hu, hq⟩, hv⟩
  · rintro ⟨r, ⟨hr, hu, hq⟩, hv⟩
    exact ⟨r, ⟨hr, hq, hv⟩, hu⟩

theorem raters_nodup : (db.raters q v).Nodup := by
  have hu := db.ratings.unique
  have hr : db.ratings.rows.Nodup := List.Nodup.of_map _ hu
  rw [List.nodup_map_iff_inj_on hr] at hu
  refine (List.nodup_map_iff_inj_on (hr.filter _)).mpr ?_
  intro a ha b hb hab
  simp only [List.mem_filter, Bool.and_eq_true, decide_eq_true_eq] at ha hb
  exact hu a ha.1 b hb.1 (Prod.ext hab (ha.2.1.trans hb.2.1.symm))

theorem raters_length : (db.raters q v).length = db.ratingCount q v := by
  rw [raters, List.length_map, ratingCount, Table.count, List.countP_eq_length_filter]

theorem others_saveRating (p : Rateable) (x : ℤ) :
    (((db.saveRating user q v).raters p x).filter (· != user)).length =
      ((db.raters p x).filter (· != user)).length := by
  have hlength (d : Db) : ((d.raters p x).filter (· != user)).length = d.ratings.count
      (fun r => r.userId != user && (decide (r.rateable = p) && decide (r.rating = x))) := by
    rw [raters, List.filter_map, List.length_map, List.filter_filter, Table.count, List.countP_eq_length_filter]
    rfl
  rw [hlength, hlength]
  apply count_saveRating
  intro y
  simp

end Db

end Blnkk
