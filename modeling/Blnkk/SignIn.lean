import Blnkk.Posts
import Blnkk.Session

/-!
The sign-in and sign-up flows of Persona and of the OAuth providers.
-/

namespace Blnkk

open Relational

inductive FlowType where
  | signin
  | signup
  deriving DecidableEq

def FlowType.name : FlowType → String
  | signin => "signin"
  | signup => "signup"

namespace SessionsController

inductive PersonaResponse where
  | success (email : Option String)
  | unparsable
  | failure
  deriving DecidableEq

/-- An exception that leaves the action keeps what was written to the database
but not the session, whose cookie is never sent. -/
def enter (P : Platform) (c : Controller) (user : ℕ) : Status × Controller :=
  match c.signIn P user (some "persona") with
  | .ok entered => (.ok, entered)
  | .error raised => (.internalServerError, { c with db := raised.db })

def signin (P : Platform) (email : Option String) (c : Controller) : Status × Controller :=
  match email.bind (c.db.findByEmail P) with
  | some user => if user.enabled then enter P c user.id else (.notFound, c)
  | none => (.notFound, c)

def create (P : Platform) (email : Option String) (c : Controller) : Status × Controller :=
  match email with
  | none => (.internalServerError, c)
  | some email =>
    match createUser P c.db email (Text.beforeAt email) with
    | .ok (id, db) => enter P { c with db } id
    | .error (.invalid _) => (.forbidden, c)
    | .error _ => (.internalServerError, c)

def signup (P : Platform) (email : Option String) (c : Controller) : Status × Controller :=
  match email.bind (c.db.findByEmail P) with
  | some user => enter P c user.id
  | none => create P email c

def personaHandler (P : Platform) (type : FlowType) (assertion : Option PersonaResponse) (c : Controller) :
    Status × Controller :=
  match assertion with
  | none => (.unprocessableEntity, c)
  | some .failure => (.internalServerError, c)
  | some .unparsable => (.internalServerError, c)
  | some (.success email) =>
    match type with
    | .signin => signin P email c
    | .signup => signup P email c

end SessionsController

namespace OauthServicesController

structure UserInfo where
  email : Option String
  name : Option String
  accessToken : Option String
  linkedinUrl : Option String := none
  linkedinName : Option String := none
  facebookUrl : Option String := none
  facebookName : Option String := none
  deriving DecidableEq

/-- What becomes a column of the user as it is, without a validation. -/
def UserInfo.profile (info : UserInfo) : List String :=
  [info.linkedinUrl, info.linkedinName, info.facebookUrl, info.facebookName].filterMap id

structure Params where
  error : Option String := none
  code : Option String := none
  state : Option String := none
  deriving DecidableEq

inductive Redirect where
  | authResult (result : String)
  | path (url : String)
  deriving DecidableEq

def presentParam (s : Option String) : Bool := (s.map Text.present).getD false

def stateParams (state : String) : List (Option String × Option String) :=
  (Text.split '&' state).map (fun param => ((Text.split '=' param)[0]?, (Text.split '=' param)[1]?))

def stateParam (state key : String) : Option String :=
  ((stateParams state).reverse.find? (fun param => param.1 == some key)).bind Prod.snd

def redirectPath (state : String) : String :=
  (if presentParam (stateParam state "redirect") then (stateParam state "redirect").getD "" else "/") ++
    "?ln=" ++ (stateParam state "ln").getD ""

def redirectTo (rootUrl state : String) : Redirect :=
  match Text.gsubSlashes (rootUrl ++ redirectPath state) with
  | some url => .path url
  -- `redirect_to nil` raises
  | none => .authResult "error"

/-- Facebook and LinkedIn also link a profile to the signed-in user. -/
def link (P : Platform) (rootUrl state : String) (info : UserInfo) (c : Controller) : Redirect × Controller :=
  match c.currentUser with
  | (some u, c) =>
    let linked := if stateParam state "provider" = some "facebook" then [info.facebookUrl, info.facebookName]
      else [info.linkedinUrl, info.linkedinName]
    if (linked.filterMap id).all fitsString then
      (redirectTo rootUrl state, { c with db := (u.save P c.db).2, memo := some (u.save P c.db).1 })
    else (.authResult "error", c)
  | (none, c) => (.authResult "not_found", c)

def enter (P : Platform) (rootUrl state : String) (info : UserInfo) (c : Controller) (user : User) :
    Redirect × Controller :=
  if user.enabled then
    match c.signIn P user.id (stateParam state "provider") with
    | .ok c =>
      let session := if stateParam state "provider" = some "google" then
          { c.session with gAccessToken := info.accessToken }
        else { c.session with liAccessToken := info.accessToken }
      (redirectTo rootUrl state, { c with session })
    | .error c => (.authResult "error", c)
  else (.authResult "not_found", c)

def newName (info : UserInfo) : Option String :=
  if presentParam info.name then info.name else info.email.map Text.beforeAt

/-- The branch that is not a sign-in never looks for the user: its variable is
nil there. `reload` raises for a record that was not saved. -/
def create (P : Platform) (info : UserInfo) (db : Db) : Option (User × Db) :=
  match info.email, newName info with
  | some email, some name =>
    if info.profile.all fitsString then
      match createUser P db email name with
      | .ok (id, created) => (created.users.get? id).map (fun u => (u, created))
      | .error _ => none
    else none
  | _, _ => none

def signin (P : Platform) (rootUrl state : String) (info : UserInfo) (c : Controller) : Redirect × Controller :=
  match info.email.bind (c.db.findByEmail P) with
  | some user => enter P rootUrl state info c user
  | none => (.authResult "not_found", c)

def signup (P : Platform) (rootUrl state : String) (info : UserInfo) (c : Controller) : Redirect × Controller :=
  match create P info c.db with
  | some (user, db) => enter P rootUrl state info { c with db } user
  | none => (.authResult "error", c)

/-- `fetch` is the exchange with the provider, nothing when it raises. -/
def authentication (P : Platform) (rootUrl : String) (fetch : Option String → Option UserInfo) (params : Params)
    (c : Controller) : Redirect × Controller :=
  if presentParam params.error then (.authResult "error", c)
  else if presentParam params.code then
    match params.state with
    | none => (.authResult "error", c)
    | some state =>
      match fetch (stateParam state "provider") with
      | none => (.authResult "error", c)
      | some info =>
        if stateParam state "provider" ≠ some "google" ∧ stateParam state "type" = some "info" then
          link P rootUrl state info c
        else if stateParam state "type" = some "signin" then signin P rootUrl state info c
        else signup P rootUrl state info c
  else (.authResult "unknown", c)

end OauthServicesController

end Blnkk
