import Blnkk.RatedUsers
import Blnkk.SignUp

/-!
When the new user's ratings of their inviters let the sign-up through.
-/

namespace Blnkk

open Relational

theorem userRate_enabled (db : Db) (self user : ℕ) (rating : Param) (k : ℕ) :
    ((User.rate db self user rating).db.users.get? k).map User.enabled = (db.users.get? k).map User.enabled := by
  unfold User.rate
  cases db.assignRating user (.user self) rating with
  | error errors => rfl
  | ok v =>
    have hm := User.rated_maps db self user v
    rw [hm.get?, Option.map_map]
    apply congrArg (fun f => (db.users.get? k).map f)
    funext u
    simp only [Function.comp_apply, User.afterRating]
    split_ifs <;> rfl

theorem autoFollow_enabled {me : ℕ} {inviters : List ℕ} {db db' : Db} (h : autoFollow me inviters db = some db')
    (k : ℕ) : (db'.users.get? k).map User.enabled = (db.users.get? k).map User.enabled := by
  induction inviters generalizing db with
  | nil =>
    cases h
    rfl
  | cons inviter rest ih =>
    simp only [autoFollow] at h
    split_ifs at h
    exact (ih h).trans (userRate_enabled db inviter me (.int 1) k)

theorem createUser_stored {P : Platform} {db db' : Db} {email name : String} {id : ℕ}
    (h : createUser P db email name = .ok (id, db')) :
    id = db.users.fresh ∧ ∃ u, db'.users.get? id = some u ∧ u.enabled = true := by
  obtain ⟨rfl, -, -, -, hf⟩ := createUser_ok h
  refine ⟨rfl, ?_⟩
  have hg : (db.users.insertFresh (User.build P db email name)).get? db.users.fresh = some (User.build P db email name _) :=
    (Table.get?_insertFresh db.users (User.build P db email name) (fun _ => rfl) _).trans (if_pos rfl)
  have he := (autoFollow_enabled hf db.users.fresh).trans (congrArg (Option.map User.enabled) hg)
  exact Option.map_eq_some_iff.mp he

def Db.reportsByOthers (db : Db) (me id : ℕ) : ℕ :=
  db.ratings.count (fun r => decide (r.rateable = .user id) && decide (r.rating = -2) && decide (r.userId ≠ me))

theorem reportsByOthers_saved (db : Db) (me : ℕ) (q : Rateable) (v : ℤ) (id : ℕ) :
    (db.saveRating me q v).reportsByOthers me id = db.reportsByOthers me id := by
  apply Db.count_saveRating
  intro x
  simp

theorem reportersCount_followed (db : Db) (me id : ℕ) :
    (db.saveRating me (.user id) 1).reportersCount (.user id) = db.reportsByOthers me id := by
  rw [← reportsByOthers_saved db me (.user id) 1 id, Db.reportersCount, Db.ratingCount, Db.reportsByOthers]
  congr 1
  apply List.countP_congr
  intro r hr
  by_cases hu : r.userId = me
  · by_cases hq : r.rateable = .user id
    · -- the new user's own rating is the like that was just stored
      have hg := Table.get?_of_mem hr
      rw [Db.get?_saveRating, if_pos (by rw [Rating.index, hu, hq]), Option.some.injEq] at hg
      simp [← hg]
    · simp [hq]
  · simp [hu]

theorem assignRating_follow {db : Db} {me id : ℕ} (hme : db.users.has me = true) (hid : db.users.has id = true)
    (hne : id ≠ me) : db.assignRating me (.user id) (.int 1) = .ok 1 := by
  apply assignRating_of_valid rfl
  refine ⟨hme, hid, by omega, ?_, ?_, ?_⟩
  · intro c hc
    cases hc
  · intro he
    exact hne (Rateable.user.inj he)
  · intro hd
    omega

theorem assignRating_self (db : Db) (me : ℕ) :
    ∃ errors, db.assignRating me (.user me) (.int 1) = .error errors := by
  cases h : db.assignRating me (.user me) (.int 1) with
  | error errors => exact ⟨errors, rfl⟩
  | ok v => exact absurd rfl (assignRating_ok h).2.notSelf

theorem follow_spec {db : Db} {me id : ℕ} (hme : db.users.has me = true) (hid : db.users.has id = true) :
    ((User.rate db id me (.int 1)).raised = true ↔ id ≠ me ∧ db.reportsByOthers me id = 6) ∧
      (∀ k, (User.rate db id me (.int 1)).db.users.has k = db.users.has k) ∧
      ∀ k, (User.rate db id me (.int 1)).db.reportsByOthers me k = db.reportsByOthers me k := by
  by_cases hne : id = me
  · subst hne
    obtain ⟨errors, he⟩ := assignRating_self db id
    simp [User.rate, he]
  · have ha := assignRating_follow hme hid hne
    have hm := User.rated_maps db id me 1
    have hr : (User.rated db id me 1).ratings = (db.saveRating me (.user id) 1).ratings := hm.ratings
    have hcount : (User.rated db id me 1).reportersCount (.user id) = db.reportsByOthers me id := by
      rw [Db.reportersCount, Db.ratingCount, hr]
      exact reportersCount_followed db me id
    have hothers : ∀ k, (User.rated db id me 1).reportsByOthers me k = db.reportsByOthers me k := by
      intro k
      rw [Db.reportsByOthers, hr]
      exact reportsByOthers_saved db me (.user id) 1 k
    simp only [User.rate, ha, hcount, decide_eq_true_eq]
    exact ⟨⟨fun h => ⟨hne, by omega⟩, fun h => by omega⟩, hm.has, hothers⟩

theorem autoFollow_isSome_iff (me : ℕ) (inviters : List ℕ) (db : Db) (hme : db.users.has me = true) :
    (autoFollow me inviters db).isSome = true ↔
      ∀ id ∈ inviters, db.users.has id = true ∧ (id = me ∨ db.reportsByOthers me id ≠ 6) := by
  induction inviters generalizing db with
  | nil => simp [autoFollow]
  | cons inviter rest ih =>
    rw [autoFollow, List.forall_mem_cons]
    by_cases hid : db.users.has inviter = true
    · obtain ⟨hraised, hhas, hothers⟩ := follow_spec hme hid
      rw [if_pos hid]
      by_cases hr : (User.rate db inviter me (.int 1)).raised = true
      · rw [if_pos hr]
        refine iff_of_false (by simp) ?_
        rintro ⟨⟨-, hn⟩, -⟩
        obtain ⟨hne, hsix⟩ := hraised.mp hr
        exact hn.elim hne (fun h => h hsix)
      · rw [if_neg hr, ih _ ((hhas me).trans hme)]
        have hfirst : inviter = me ∨ db.reportsByOthers me inviter ≠ 6 := by
          by_contra hn
          rw [not_or, not_not] at hn
          exact hr (hraised.mpr hn)
        simp only [hhas, hothers, hid, hfirst, and_self, true_and]
    · rw [if_neg hid]
      exact iff_of_false (by simp) (fun h => hid h.1.1)

/-- Nobody who has invited the e-mail stands at six reports or is gone. -/
def Followable (P : Platform) (db : Db) (email : String) : Prop :=
  ∀ id ∈ db.inviters P email, id = db.users.fresh ∨ db.users.has id = true ∧ db.reportsByOthers db.users.fresh id ≠ 6

theorem autoFollow_new_iff (P : Platform) (db : Db) (email name : String) :
    (autoFollow db.users.fresh (db.inviters P (User.sanitizeEmail email))
      { db with users := db.users.insertFresh (User.build P db email name) }).isSome = true ↔
      Followable P db (User.sanitizeEmail email) := by
  have hhas : ∀ k, (db.users.insertFresh (User.build P db email name)).has k = true ↔
      db.users.has k = true ∨ k = db.users.fresh :=
    db.users.has_insertFresh (User.build P db email name) (fun _ => rfl)
  rw [autoFollow_isSome_iff _ _ _ ((hhas _).mpr (Or.inr rfl))]
  apply forall₂_congr
  intro id _
  rw [hhas id]
  by_cases hid : id = db.users.fresh
  · simp [hid]
  · simp only [hid, or_false, false_or]
    rfl

theorem createUser_isSome_iff (P : Platform) (db : Db) (email name : String) :
    (createUser P db email name).toOption.isSome = true ↔
      db.userErrors none (User.sanitizeEmail email) (P.sanitizeField name) = [] ∧
      fitsString (User.sanitizeEmail email) = true ∧ db.findByEmail P (User.sanitizeEmail email) = none ∧
      Followable P db (User.sanitizeEmail email) := by
  rw [← autoFollow_new_iff P db email name]
  cases he : db.userErrors none (User.sanitizeEmail email) (P.sanitizeField name) with
  | cons error errors => simp [createUser, he, Except.toOption]
  | nil =>
    cases hfits : fitsString (User.sanitizeEmail email) with
    | false => simp [createUser, he, hfits, Except.toOption]
    | true =>
      cases hf : db.findByEmail P (User.sanitizeEmail email) with
      | some u => simp [createUser, he, hfits, hf, Except.toOption]
      | none =>
        cases ha : autoFollow db.users.fresh (db.inviters P (User.sanitizeEmail email))
          { db with users := db.users.insertFresh (User.build P db email name) } with
        | none => simp [createUser, he, hfits, hf, ha, Except.toOption]
        | some followed => simp [createUser, he, hfits, hf, ha, Except.toOption]

end Blnkk
