import Blnkk.Rate

namespace Blnkk

open Relational

namespace User

inductive Error where
  | emailBlank
  | emailTaken
  | emailInvalid
  | nameBlank
  | nameTooLong
  deriving DecidableEq

def Error.entry : Error → String × String
  | emailBlank => ("email", "can't be blank")
  | emailTaken => ("email", "has already been taken")
  | emailInvalid => ("email", "is invalid")
  | nameBlank => ("name", "can't be blank")
  | nameTooLong => ("name", "is too long (maximum is 40 characters)")

inductive Failure where
  | invalid (errors : List Error)
  | notUnique
  | raised

def sanitizeEmail (email : String) : String :=
  if Text.present email then Text.strip (Text.downcase email) else email

end User

namespace Db

variable (P : Platform) (db : Db)

def findByEmail (email : String) : Option User := db.users.rows.find? (fun u => P.collate u.email email)

def userErrors (self : Option ℕ) (email name : String) : List User.Error :=
  (if Text.present email then [] else [.emailBlank]) ++
  (if db.users.rows.any (fun u => decide (some u.id ≠ self) && u.email == email) then [.emailTaken] else []) ++
  (if Text.emailFormat email then [] else [.emailInvalid]) ++
  (if Text.present name then [] else [.nameBlank]) ++
  (if name.toList.length ≤ 40 then [] else [.nameTooLong])

def inviters (email : String) : List ℕ :=
  (db.invitations.rows.filter (fun i => P.collate i.email email)).map Invitation.userId

end Db

def autoFollow (me : ℕ) : List ℕ → Db → Option Db
  | [], db => some db
  | inviter :: rest, db =>
    if db.users.has inviter then
      if (User.rate db inviter me (.int 1)).raised then none
      else autoFollow me rest (User.rate db inviter me (.int 1)).db
    else none

def User.build (P : Platform) (db : Db) (email name : String) (id : ℕ) : User :=
  { id
    email := User.sanitizeEmail email
    name := P.sanitizeField name
    admin := db.settings.adminEmail == some (User.sanitizeEmail email) }

/-- `User.create` with `initialize_new_user`, all in one transaction. -/
def createUser (P : Platform) (db : Db) (email name : String) : Except User.Failure (ℕ × Db) :=
  match db.userErrors none (User.sanitizeEmail email) (P.sanitizeField name) with
  | [] =>
    -- the name is short enough by its validation
    if !fitsString (User.sanitizeEmail email) then .error .raised
    else if (db.findByEmail P (User.sanitizeEmail email)).isSome then .error .notUnique
    else
      match autoFollow db.users.fresh (db.inviters P (User.sanitizeEmail email))
        { db with users := db.users.insertFresh (User.build P db email name) } with
      | some followed => .ok (db.users.fresh, followed)
      | none => .error .raised
  | errors => .error (.invalid errors)

theorem createUser_ok {P : Platform} {db db' : Db} {email name : String} {id : ℕ}
    (h : createUser P db email name = .ok (id, db')) :
    id = db.users.fresh ∧ db.userErrors none (User.sanitizeEmail email) (P.sanitizeField name) = [] ∧
      fitsString (User.sanitizeEmail email) = true ∧ db.findByEmail P (User.sanitizeEmail email) = none ∧
      autoFollow db.users.fresh (db.inviters P (User.sanitizeEmail email))
        { db with users := db.users.insertFresh (User.build P db email name) } = some db' := by
  unfold createUser at h
  split at h
  · rename_i he
    split_ifs at h with hfits hu
    split at h
    · rename_i followed hf
      cases h
      exact ⟨rfl, he, by simpa using hfits, by simpa using hu, hf⟩
    · cases h
  · cases h

def Invitation.create (db : Db) (user : ℕ) (email : String) : Db :=
  if db.users.has user && Text.present email && Text.emailFormat email && fitsString email then
    { db with invitations := db.invitations.ensure ⟨user, email⟩ }
  else db

end Blnkk
