import Blnkk.AutoFollow
import Blnkk.SignIn

/-!
The one policy of all sign-in paths, and where the flows keep to it.
-/

namespace Blnkk

open Relational

def validUser (P : Platform) (db : Db) (email name : String) : Prop :=
  db.userErrors none (User.sanitizeEmail email) (P.sanitizeField name) = []

instance (P : Platform) (db : Db) (email name : String) : Decidable (validUser P db email name) :=
  inferInstanceAs (Decidable (_ = _))

def signInPolicy (P : Platform) (db : Db) (type : FlowType) (email name : String) : Option ℕ :=
  match db.findByEmail P email, type with
  | some user, _ => if user.enabled then some user.id else none
  | none, .signin => none
  | none, .signup => if validUser P db email name then some db.users.fresh else none

theorem Controller.signIn_visitor (P : Platform) {c : Controller} (hm : c.memo = none) (hs : c.session.userId = none)
    {u : User} {id : ℕ} (hu : c.db.users.get? id = some u) (provider : Option String) :
    ∃ entered, c.signIn P id provider = .ok entered ∧ entered.session.userId = some id := by
  have hout : c.signOut P =
      { c with session := { sessionId := c.freshSessionId }, memo := none, freshSessionId := c.freshSessionId + 1 } := by
    rw [Controller.signOut, Controller.currentUser_of_absent hm (by rw [hs]; rfl)]
    rfl
  have hfound := Controller.currentUser_of_found
    (c := { c.signOut P with session := { (c.signOut P).session with userId := some id, provider } })
    (by rw [hout]) (by rw [hout]; exact hu)
  simp only [Controller.signIn, hfound]
  exact ⟨_, rfl, rfl⟩

structure Settles (c ended : Controller) (verdict : Option ℕ) : Prop where
  userId : ended.session.userId = verdict
  refused : verdict = none → ended = c

def signinVerdict (P : Platform) (db : Db) (email : String) : Option ℕ :=
  match db.findByEmail P email with
  | some user => if user.enabled then some user.id else none
  | none => none

/-- The texts of the profile are stored with the new user. -/
def createVerdict (P : Platform) (db : Db) (email name : String) (profile : List String) : Option ℕ :=
  if profile.all fitsString then (createUser P db email name).toOption.map Prod.fst else none

/-- On sign-up, Persona signs in an existing user without a look at `enabled`. -/
def personaVerdict (P : Platform) (db : Db) (email : String) : FlowType → Option ℕ
  | .signin => signinVerdict P db email
  | .signup =>
    match db.findByEmail P email with
    | some user => some user.id
    | none => createVerdict P db email (Text.beforeAt email) []

/-- On sign-up, OAuth creates a user without a look for an existing one. -/
def oauthVerdict (P : Platform) (db : Db) (email name : String) (profile : List String) : FlowType → Option ℕ
  | .signin => signinVerdict P db email
  | .signup => createVerdict P db email name profile

structure Verified (fetch : Option String → Option OauthServicesController.UserInfo)
    (params : OauthServicesController.Params) (type : FlowType) (email name : String) (profile : List String) :
    Prop where
  error : OauthServicesController.presentParam params.error = false
  code : OauthServicesController.presentParam params.code = true
  info : ∃ state info, params.state = some state ∧
    OauthServicesController.stateParam state "type" = some type.name ∧
    fetch (OauthServicesController.stateParam state "provider") = some info ∧
    info.email = some email ∧ OauthServicesController.newName info = some name ∧ info.profile = profile

section Flows

variable (P : Platform) {c : Controller} (hm : c.memo = none) (hs : c.session.userId = none)

include hm hs

theorem persona_enter {u : User} {id : ℕ} (hu : c.db.users.get? id = some u) :
    (SessionsController.enter P c id).2.session.userId = some id := by
  obtain ⟨entered, he, hid⟩ := Controller.signIn_visitor P hm hs hu (some "persona")
  rw [SessionsController.enter, he]
  exact hid

theorem oauth_enter (rootUrl state : String) (info : OauthServicesController.UserInfo) {u : User} {id : ℕ}
    (hu : c.db.users.get? id = some u) :
    Settles c (OauthServicesController.enter P rootUrl state info c u).2 (if u.enabled then some id else none) := by
  have hid : u.id = id := Table.get?_key hu
  by_cases hen : u.enabled = true
  · obtain ⟨entered, he, hentered⟩ := Controller.signIn_visitor P hm hs hu
      (OauthServicesController.stateParam state "provider")
    rw [OauthServicesController.enter, if_pos hen, if_pos hen, hid, he]
    refine ⟨?_, fun h => by cases h⟩
    simp only
    split_ifs <;> exact hentered
  · rw [OauthServicesController.enter, if_neg hen, if_neg hen]
    exact ⟨hs, fun _ => rfl⟩

theorem persona_signin (email : String) :
    Settles c (SessionsController.signin P (some email) c).2 (signinVerdict P c.db email) := by
  unfold SessionsController.signin signinVerdict
  rw [Option.bind_some]
  cases hf : c.db.findByEmail P email with
  | some u =>
    have hu : c.db.users.get? u.id = some u := Table.get?_of_mem (List.mem_of_find?_eq_some hf)
    simp only
    split_ifs
    · exact ⟨persona_enter P hm hs hu, fun h => by cases h⟩
    · exact ⟨hs, fun _ => rfl⟩
  | none => exact ⟨hs, fun _ => rfl⟩

theorem persona_create (email : String) :
    Settles c (SessionsController.create P (some email) c).2
      (createVerdict P c.db email (Text.beforeAt email) []) := by
  cases hc : createUser P c.db email (Text.beforeAt email) with
  | ok result =>
    obtain ⟨id, db⟩ := result
    obtain ⟨-, u, hu, -⟩ := createUser_stored hc
    have hcreate : SessionsController.create P (some email) c = SessionsController.enter P { c with db } id := by
      simp only [SessionsController.create, hc]
    have hverdict : createVerdict P c.db email (Text.beforeAt email) [] = some id := by
      rw [createVerdict, hc]
      rfl
    rw [hcreate, hverdict]
    exact ⟨persona_enter P (c := { c with db }) hm hs hu, fun h => by cases h⟩
  | error failure =>
    have hcreate : (SessionsController.create P (some email) c).2 = c := by
      cases failure <;> simp only [SessionsController.create, hc]
    have hverdict : createVerdict P c.db email (Text.beforeAt email) [] = none := by
      rw [createVerdict, hc]
      rfl
    rw [hcreate, hverdict]
    exact ⟨hs, fun _ => rfl⟩

theorem persona_settles (type : FlowType) (email : String) :
    Settles c (SessionsController.personaHandler P type (some (.success (some email))) c).2
      (personaVerdict P c.db email type) := by
  cases type with
  | signin => exact persona_signin P hm hs email
  | signup =>
    have hhandler : SessionsController.personaHandler P .signup (some (.success (some email))) c =
        SessionsController.signup P (some email) c := rfl
    rw [hhandler, SessionsController.signup, Option.bind_some, personaVerdict]
    cases hf : c.db.findByEmail P email with
    | some u =>
      have hu : c.db.users.get? u.id = some u := Table.get?_of_mem (List.mem_of_find?_eq_some hf)
      exact ⟨persona_enter P hm hs hu, fun h => by cases h⟩
    | none => exact persona_create P hm hs email

theorem oauth_signin (rootUrl state : String) (info : OauthServicesController.UserInfo) {email : String}
    (hemail : info.email = some email) :
    Settles c (OauthServicesController.signin P rootUrl state info c).2 (signinVerdict P c.db email) := by
  rw [OauthServicesController.signin, hemail, Option.bind_some, signinVerdict]
  cases hf : c.db.findByEmail P email with
  | some u =>
    have hu : c.db.users.get? u.id = some u := Table.get?_of_mem (List.mem_of_find?_eq_some hf)
    exact oauth_enter P hm hs rootUrl state info hu
  | none => exact ⟨hs, fun _ => rfl⟩

theorem oauth_signup (rootUrl state : String) (info : OauthServicesController.UserInfo) {email name : String}
    (hemail : info.email = some email) (hname : OauthServicesController.newName info = some name) :
    Settles c (OauthServicesController.signup P rootUrl state info c).2
      (createVerdict P c.db email name info.profile) := by
  have hrefused : OauthServicesController.create P info c.db = none → createVerdict P c.db email name info.profile = none →
      Settles c (OauthServicesController.signup P rootUrl state info c).2
        (createVerdict P c.db email name info.profile) := by
    intro hcreate hverdict
    rw [OauthServicesController.signup, hcreate, hverdict]
    exact ⟨hs, fun _ => rfl⟩
  by_cases hprofile : info.profile.all fitsString = true
  · cases hc : createUser P c.db email name with
    | ok result =>
      obtain ⟨id, db⟩ := result
      obtain ⟨-, u, hu, hen⟩ := createUser_stored hc
      have hcreate : OauthServicesController.create P info c.db = some (u, db) := by
        simp only [OauthServicesController.create, hemail, hname, if_pos hprofile, hc, hu, Option.map_some]
      have hverdict : createVerdict P c.db email name info.profile = some id := by
        rw [createVerdict, if_pos hprofile, hc]
        rfl
      have hentered := (oauth_enter P (c := { c with db }) hm hs rootUrl state info hu).userId
      rw [if_pos hen] at hentered
      rw [OauthServicesController.signup, hcreate, hverdict]
      exact ⟨hentered, fun h => by cases h⟩
    | error failure =>
      apply hrefused
      · simp only [OauthServicesController.create, hemail, hname, if_pos hprofile, hc]
      · rw [createVerdict, if_pos hprofile, hc]
        rfl
  · apply hrefused
    · simp only [OauthServicesController.create, hemail, hname, if_neg hprofile]
    · rw [createVerdict, if_neg hprofile]

theorem oauth_settles (rootUrl : String) {fetch : Option String → Option OauthServicesController.UserInfo}
    {params : OauthServicesController.Params} {type : FlowType} {email name : String} {profile : List String}
    (hv : Verified fetch params type email name profile) :
    Settles c (OauthServicesController.authentication P rootUrl fetch params c).2
      (oauthVerdict P c.db email name profile type) := by
  obtain ⟨herror, hcode, state, info, hstate, htype, hinfo, hemail, hname, rfl⟩ := hv
  have hbranch : OauthServicesController.authentication P rootUrl fetch params c =
      if type = .signin then OauthServicesController.signin P rootUrl state info c
      else OauthServicesController.signup P rootUrl state info c := by
    cases type <;>
      simp [OauthServicesController.authentication, herror, hcode, hstate, htype, hinfo, FlowType.name]
  rw [hbranch]
  cases type with
  | signin => exact oauth_signin P hm hs rootUrl state info hemail
  | signup => exact oauth_signup P hm hs rootUrl state info hemail hname

end Flows

end Blnkk
