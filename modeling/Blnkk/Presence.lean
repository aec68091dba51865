import Blnkk.Lib.Run
import Blnkk.Lib.Table
import Blnkk.Text

/-!
The presence of users on the socket server, which serves the databases of all
tenants in one process: `user_connected`, `user_disconnected` and
`watch_users_status` of `ConversationsSocketController`. The server dispatches
`client_connected` when a connection opens and `client_disconnected` when it
closes. A rejected connection is closed by the server, so its closing is an
event of its own that follows at some time.
-/

namespace Blnkk

open Relational

/-- The columns of a user that the socket server reads and writes. -/
structure SocketUser where
  id : ℕ
  socketKey : Option String
  online : Bool := false
  lastSeenAt : Option ℕ := none
  deriving DecidableEq

variable {δ : Type}

/-- `accepted` records for the proofs whether the key was right. -/
structure Connection (δ : Type) where
  database : δ
  id : ℕ
  sessionUser : Option ℕ
  accepted : Bool
  store : List (ℕ × ℕ) := []
  deriving DecidableEq

abbrev Connection.index (c : Connection δ) : δ × ℕ := (c.database, c.id)

/-- `connectedUsers` has no entry for a database created after the server has
started: what it answers then is the integer zero. -/
structure SocketServer (δ : Type) where
  users : δ → Table SocketUser.id
  connectedUsers : δ → Option (ℕ → ℤ)
  connections : Table (Connection.index (δ := δ))

inductive PresenceEvent (δ : Type) where
  | connect (database : δ) (id : ℕ) (cookieUser paramUser : Option ℕ) (key : Option String)
  | close (now : ℕ) (database : δ) (id : ℕ)
  | watch (database : δ) (id : ℕ) (userIds : Option (List ℕ))
  deriving DecidableEq

inductive StatusKind where
  | connected
  | disconnected
  deriving DecidableEq

/-- An event `user_status_connected` or `user_status_disconnected` on the
channel of the receiver. -/
structure StatusEvent (δ : Type) where
  kind : StatusKind
  database : δ
  receiver : ℕ
  user : ℕ
  deriving DecidableEq

def PresenceEvent.database : PresenceEvent δ → δ
  | connect database .. => database
  | close _ database _ => database
  | watch database .. => database

namespace SocketServer

def start (users : δ → Table SocketUser.id) (databases : δ → Bool) : SocketServer δ :=
  ⟨users, fun d => if databases d then some (fun _ => 0) else none, .empty⟩

variable [DecidableEq δ] (s : SocketServer δ) (database : δ)

def currentUser (sessionUser : Option ℕ) : Option SocketUser := sessionUser.bind (s.users database).get?

def usersWatchingMe (user : ℕ) : List ℕ := s.connections.rows.filterMap (fun c => c.store.lookup user)

def setCount (user : ℕ) (count : ℤ) : SocketServer δ :=
  { s with
    connectedUsers := Function.update s.connectedUsers database
      ((s.connectedUsers database).map (fun counts => Function.update counts user count)) }

def setUser (user : ℕ) (f : SocketUser → SocketUser) (hf : ∀ u, (f u).id = u.id := by intro _; rfl) :
    SocketServer δ :=
  { s with users := Function.update s.users database ((s.users database).update user f hf) }

def announce (kind : StatusKind) (user : ℕ) : List (StatusEvent δ) :=
  (s.usersWatchingMe user).map (fun receiver => ⟨kind, database, receiver, user⟩)

def admits (sessionUser : Option ℕ) (key : Option String) : Option SocketUser :=
  (s.currentUser database sessionUser).filter
    (fun user => (key.map Text.present).getD false && decide (key = user.socketKey))

def userConnected (user : ℕ) : SocketServer δ × List (StatusEvent δ) :=
  match s.connectedUsers database with
  -- the assignment to an element of an integer raises
  | none => (s, [])
  | some counts =>
    ((s.setCount database user (counts user + 1)).setUser database user (fun u => { u with online := true }),
      s.announce database .connected user)

def userDisconnected (now : ℕ) (sessionUser : Option ℕ) : SocketServer δ × List (StatusEvent δ) :=
  match s.currentUser database sessionUser with
  | none => (s, [])
  | some user =>
    match s.connectedUsers database with
    | none => (s, [])
    | some counts =>
      if counts user.id - 1 ≤ 0 then
        ((s.setCount database user.id 0).setUser database user.id
            (fun u => { u with online := false, lastSeenAt := some now }),
          s.announce database .disconnected user.id)
      else (s.setCount database user.id (counts user.id - 1), [])

def openConnection (id : ℕ) (sessionUser : Option ℕ) (accepted : Bool) : SocketServer δ :=
  { s with connections := s.connections.ensure { database, id, sessionUser, accepted } }

def closeConnection (id : ℕ) : SocketServer δ := { s with connections := s.connections.erase (database, id) }

def setStore (id : ℕ) (store : List (ℕ × ℕ)) : SocketServer δ :=
  { s with connections := s.connections.update (database, id) (fun c => { c with store }) }

def handle : PresenceEvent δ → SocketServer δ × List (StatusEvent δ)
  | .connect database id cookieUser paramUser key =>
    -- an identifier stays with its connection
    if s.connections.has (database, id) then (s, [])
    else
      match s.admits database (cookieUser.or paramUser) key with
      | some user => (s.openConnection database id (cookieUser.or paramUser) true).userConnected database user.id
      | none => (s.openConnection database id (cookieUser.or paramUser) false, [])
  | .close now database id =>
    match s.connections.get? (database, id) with
    | none => (s, [])
    | some c =>
      -- the handler runs before the connection gives up its store
      let left := s.userDisconnected database now c.sessionUser
      (left.1.closeConnection database id, left.2)
  | .watch database id userIds =>
    match (s.connections.get? (database, id)).bind (fun c => s.currentUser database c.sessionUser) with
    | none => (s, [])
    | some user => (s.setStore database id ((userIds.getD []).map (fun watched => (watched, user.id))), [])

def step (event : PresenceEvent δ) : SocketServer δ := (s.handle event).1

def statuses (event : PresenceEvent δ) : List (StatusEvent δ) := (s.handle event).2

end SocketServer

end Blnkk
