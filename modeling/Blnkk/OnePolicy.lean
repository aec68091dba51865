import Blnkk.Operations
import Blnkk.SignInPolicy

namespace Blnkk

open Relational

/-- Both flows end as the policy says and alike, and a refusal leaves the users
with their active sessions as they were. -/
structure OnePolicy (P : Platform) (db : Db) (type : FlowType) (email name : String) (persona oauth : Controller) :
    Prop where
  same : persona.session.userId = oauth.session.userId
  personaVerdict : persona.session.userId = signInPolicy P db type email (Text.beforeAt email)
  oauthVerdict : oauth.session.userId = signInPolicy P db type email name
  enabledOnly : ∀ u ∈ db.users.rows,
    persona.session.userId = some u.id ∨ oauth.session.userId = some u.id → u.enabled = true
  personaRefused : persona.session.userId = none → persona.db.users = db.users
  oauthRefused : oauth.session.userId = none → oauth.db.users = db.users

theorem signInPolicy_enabled {P : Platform} {db : Db} {type : FlowType} {email name : String} {u : User}
    (hu : u ∈ db.users.rows) (h : signInPolicy P db type email name = some u.id) : u.enabled = true := by
  unfold signInPolicy at h
  split at h
  · rename_i v hf
    split_ifs at h with hen
    have hv := Table.get?_of_mem (List.mem_of_find?_eq_some hf)
    rw [Option.some.inj h, Table.get?_of_mem hu, Option.some.injEq] at hv
    rw [hv]
    exact hen
  · cases h
  · split_ifs at h
    have hg := Table.get?_of_mem hu
    rw [← Option.some.inj h, db.users.get?_fresh] at hg
    cases hg

/-- What the validations do not look at lets the insert through, too. -/
def Creatable (P : Platform) (db : Db) (email : String) (profile : List String) : Prop :=
  (fitsString (User.sanitizeEmail email) = true ∧ profile.all fitsString = true) ∧
    db.findByEmail P (User.sanitizeEmail email) = none ∧ Followable P db (User.sanitizeEmail email)

theorem createVerdict_eq_some_iff (P : Platform) (db : Db) (email name : String) (profile : List String) (id : ℕ) :
    createVerdict P db email name profile = some id ↔
      (validUser P db email name ∧ Creatable P db email profile) ∧ db.users.fresh = id := by
  have hiff := createUser_isSome_iff P db email name
  by_cases hprofile : profile.all fitsString = true
  · rw [createVerdict, if_pos hprofile]
    cases hc : createUser P db email name with
    | ok result =>
      obtain ⟨new, created⟩ := result
      rw [hc] at hiff
      obtain ⟨hvalid, hfits, hcreatable⟩ := hiff.mp rfl
      simp only [Except.toOption, Option.map_some, Option.some.injEq, (createUser_stored hc).1]
      exact (and_iff_right ⟨hvalid, ⟨hfits, hprofile⟩, hcreatable⟩).symm
    | error failure =>
      rw [hc] at hiff
      refine iff_of_false (by simp [Except.toOption]) ?_
      rintro ⟨⟨hvalid, ⟨hfits, -⟩, hcreatable⟩, -⟩
      cases hiff.mpr ⟨hvalid, hfits, hcreatable⟩
  · rw [createVerdict, if_neg hprofile]
    refine iff_of_false (by simp) ?_
    intro h
    exact hprofile h.1.2.1.2

def PolicyHolds (P : Platform) (db : Db) (type : FlowType) (email name : String) (profile : List String) : Prop :=
  type = .signin ∨
    db.findByEmail P email = none ∧
    (validUser P db email (Text.beforeAt email) ↔ validUser P db email name) ∧
    (validUser P db email name → Creatable P db email profile)

theorem verdict_eq_iff {x y : Option ℕ} {p q : Prop} {n : ℕ} (hx : ∀ id, x = some id ↔ p ∧ n = id)
    (hy : ∀ id, y = some id ↔ q ∧ n = id) : x = y ↔ (p ↔ q) := by
  constructor
  · rintro rfl
    exact ⟨fun hp => ((hy n).mp ((hx n).mpr ⟨hp, rfl⟩)).1, fun hq => ((hx n).mp ((hy n).mpr ⟨hq, rfl⟩)).1⟩
  · intro h
    apply Option.ext
    intro id
    rw [hx, hy, h]

theorem verdicts_missing_iff (P : Platform) (db : Db) (email name : String) (profile : List String) :
    (createVerdict P db email (Text.beforeAt email) [] = createVerdict P db email name profile ∧
      createVerdict P db email (Text.beforeAt email) [] =
        (if validUser P db email (Text.beforeAt email) then some db.users.fresh else none) ∧
      createVerdict P db email name profile = if validUser P db email name then some db.users.fresh else none) ↔
      (validUser P db email (Text.beforeAt email) ↔ validUser P db email name) ∧
        (validUser P db email name → Creatable P db email profile) := by
  have hpersona := createVerdict_eq_some_iff P db email (Text.beforeAt email) []
  have hoauth := createVerdict_eq_some_iff P db email name profile
  have hpolicy : ∀ name id, (if validUser P db email name then some db.users.fresh else none) = some id ↔
      validUser P db email name ∧ db.users.fresh = id := by
    intro name id
    rw [Option.ite_none_right_eq_some, Option.some.injEq]
  rw [verdict_eq_iff hpersona hoauth, verdict_eq_iff hpersona (hpolicy _), verdict_eq_iff hoauth (hpolicy _)]
  constructor
  · rintro ⟨hsame, hp, ho⟩
    exact ⟨hp.symm.trans (hsame.trans ho), fun hv => (ho.mpr hv).2⟩
  · rintro ⟨hvalid, hcreatable⟩
    have ho : validUser P db email name ∧ Creatable P db email profile ↔ validUser P db email name :=
      and_iff_left_of_imp hcreatable
    have hp : validUser P db email (Text.beforeAt email) ∧ Creatable P db email [] ↔
        validUser P db email (Text.beforeAt email) := by
      apply and_iff_left_of_imp
      intro hv
      obtain ⟨⟨hfits, -⟩, hrest⟩ := hcreatable (hvalid.mp hv)
      exact ⟨⟨hfits, rfl⟩, hrest⟩
    exact ⟨hp.trans (hvalid.trans ho.symm), hp, ho⟩

theorem verdicts_iff (P : Platform) (db : Db) (type : FlowType) (email name : String) (profile : List String) :
    (personaVerdict P db email type = oauthVerdict P db email name profile type ∧
      personaVerdict P db email type = signInPolicy P db type email (Text.beforeAt email) ∧
      oauthVerdict P db email name profile type = signInPolicy P db type email name) ↔
      PolicyHolds P db type email name profile := by
  cases type with
  | signin =>
    refine iff_of_true ?_ (Or.inl rfl)
    unfold signInPolicy
    cases hf : db.findByEmail P email <;> simp only [personaVerdict, oauthVerdict, signinVerdict, hf, and_self]
  | signup =>
    cases hf : db.findByEmail P email with
    | some u =>
      refine iff_of_false ?_ (by simp only [PolicyHolds, reduceCtorEq, hf, false_and, or_self, not_false_eq_true])
      rintro ⟨hsame, -, -⟩
      -- the user OAuth creates is never the one Persona finds
      simp only [personaVerdict, oauthVerdict, hf] at hsame
      have hid := ((createVerdict_eq_some_iff P db email name profile u.id).mp hsame.symm).2
      have hg := Table.get?_of_mem (List.mem_of_find?_eq_some hf)
      rw [← hid, db.users.get?_fresh] at hg
      cases hg
    | none =>
      unfold signInPolicy
      simp only [personaVerdict, oauthVerdict, hf, PolicyHolds, reduceCtorEq, false_or, true_and]
      exact verdicts_missing_iff P db email name profile

def disabledBob : Db :=
  (Transition.run (step .plain) (Db.new {})
    [.signUp "ann@blnkk.com" "ann", .signUp "bob@blnkk.com" "bob"]).updateUser 2 (fun u => { u with enabled := false })

def firstVisit : Controller := Controller.start disabledBob { sessionId := 5 } "10.0.0.1" 100 7

def googleParams : OauthServicesController.Params :=
  { code := some "4/abc", state := some "provider=google&type=signup&redirect=/requests" }

def googleInfo (email : String) : Option String → Option OauthServicesController.UserInfo :=
  fun _ => some { email := some email, name := some "google name", accessToken := some "token" }

theorem googleParams_verified (email : String) :
    Verified (googleInfo email) googleParams .signup email "google name" [] :=
  ⟨by decide, by decide, _, _, rfl, by decide, rfl, rfl, rfl, rfl⟩

def personaSignup (email : String) : Controller :=
  (SessionsController.personaHandler .plain .signup (some (.success (some email))) firstVisit).2

def googleSignup (email : String) : Controller :=
  (OauthServicesController.authentication .plain "https://blnkk.com/" (googleInfo email) googleParams firstVisit).2

end Blnkk
