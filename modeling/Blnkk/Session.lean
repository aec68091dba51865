import Blnkk.SignUp

/-!
The session cookie, the memoised current user and the filter of
`BaseController`. A controller serves one request.
-/

namespace Blnkk

open Relational

inductive SessionUpdate where
  | activate (id : ℕ)
  | deactivate (id : ℕ)
  deriving DecidableEq

namespace SessionUpdate

/-- The guard on the array as loaded: an update that is not due saves nothing. -/
def due (sessions : List ℕ) : SessionUpdate → Bool
  | activate id => !decide (id ∈ sessions)
  | deactivate id => decide (id ∈ sessions)

def change (sessions : List ℕ) : SessionUpdate → List ℕ
  | activate id => sessions ++ [id]
  | deactivate id => sessions.filter (fun x => x != id)

end SessionUpdate

namespace User

/-- `save` of a loaded user: the sanitized columns and the array are written
when the record is valid. -/
def save (P : Platform) (db : Db) (u : User) : User × Db :=
  let u := { u with email := sanitizeEmail u.email, name := P.sanitizeField u.name }
  match db.userErrors (some u.id) u.email u.name with
  | [] =>
    (u, db.updateUser u.id (fun row =>
      { row with email := u.email, name := u.name, activeSessions := u.activeSessions }))
  | _ => (u, db)

def updateSession (P : Platform) (db : Db) (u : User) (update : SessionUpdate) : User × Db :=
  if update.due u.activeSessions then
    save P db { u with activeSessions := update.change u.activeSessions }
  else (u, db)

def activateSession (P : Platform) (db : Db) (u : User) (id : ℕ) : User × Db := u.updateSession P db (.activate id)

def deactivateSession (P : Platform) (db : Db) (u : User) (id : ℕ) : User × Db :=
  u.updateSession P db (.deactivate id)

def seen (ip : String) (now : ℕ) (u : User) : User :=
  if some ip = u.ip then { u with lastSeenAt := some now } else { u with ip := some ip, lastSeenAt := some now }

theorem seen_id (ip : String) (now : ℕ) (u : User) : (u.seen ip now).id = u.id := by
  unfold seen
  split_ifs <;> rfl

end User

structure Session where
  sessionId : ℕ
  userId : Option ℕ := none
  provider : Option String := none
  gAccessToken : Option String := none
  liAccessToken : Option String := none
  deriving DecidableEq

structure Controller where
  db : Db
  session : Session
  -- the instance variable that memoises the current user
  memo : Option User := none
  ip : String
  now : ℕ
  -- the next session id that the store generates
  freshSessionId : ℕ
  -- the users a location job has been enqueued for
  locationJobs : List ℕ := []

namespace Controller

def start (db : Db) (session : Session) (ip : String) (now freshSessionId : ℕ) : Controller :=
  { db, session, ip, now, freshSessionId }

def logActivity (c : Controller) (u : User) : Controller :=
  { c with
    db := c.db.updateUser u.id (User.seen c.ip c.now) (User.seen_id c.ip c.now)
    memo := some (u.seen c.ip c.now)
    locationJobs := if some c.ip = u.ip then c.locationJobs else c.locationJobs ++ [u.id] }

def currentUser (c : Controller) : Option User × Controller :=
  match c.memo with
  | some u => (some u, c)
  | none =>
    match c.session.userId.bind c.db.users.get? with
    | some u => (some (u.seen c.ip c.now), c.logActivity u)
    | none => (none, c)

theorem currentUser_of_memo {c : Controller} {u : User} (h : c.memo = some u) : c.currentUser = (some u, c) := by
  rw [currentUser, h]

theorem currentUser_of_found {c : Controller} {u : User} (hm : c.memo = none)
    (h : c.session.userId.bind c.db.users.get? = some u) :
    c.currentUser = (some (u.seen c.ip c.now), c.logActivity u) := by
  rw [currentUser, hm, h]

theorem currentUser_of_absent {c : Controller} (hm : c.memo = none)
    (h : c.session.userId.bind c.db.users.get? = none) : c.currentUser = (none, c) := by
  rw [currentUser, hm, h]

def signedIn (c : Controller) : Bool × Controller := (c.currentUser.1.isSome, c.currentUser.2)

def resetSession (c : Controller) : Controller :=
  { c with session := { sessionId := c.freshSessionId }, freshSessionId := c.freshSessionId + 1 }

def signOut (P : Platform) (c : Controller) : Controller :=
  let (user, c) := c.currentUser
  let db := match user with
    | some u => (u.deactivateSession P c.db c.session.sessionId).2
    | none => c.db
  { c with db, session := { c.session with userId := none }, memo := none }.resetSession

/-- The error holds the state in which the missing user raises. -/
def signIn (P : Platform) (c : Controller) (userId : ℕ) (provider : Option String) : Except Controller Controller :=
  let c := c.signOut P
  let (user, c) := { c with session := { c.session with userId := some userId, provider } }.currentUser
  match user with
  | some u =>
    let (u, db) := u.activateSession P c.db c.session.sessionId
    .ok { c with db, memo := some u }
  | none => .error c

def validateActiveSession (c : Controller) : Controller :=
  let (user, c) := c.currentUser
  match user with
  | some u => if u.enabled && decide (c.session.sessionId ∈ u.activeSessions) then c else c.resetSession
  | none => c

end Controller

end Blnkk
