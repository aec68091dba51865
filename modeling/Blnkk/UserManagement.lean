import Blnkk.Posts
import Blnkk.SignUp

/-!
The actions that manage users: the profile of the API, which assigns a whole
hash of parameters, the four flag actions of the API, which are for admins, and
the users page of the admin panel, which is for super admins.
-/

namespace Blnkk

open Relational

namespace Param

def toBoolean : Param → Bool
  | bool b => b
  | int n => n == 1
  | text s => s ∈ ["1", "t", "T", "true", "TRUE", "on", "ON"]
  | _ => false

def truthy : Param → Bool
  | null => false
  | bool b => b
  | _ => true

def scalar : Param → Bool
  | other => false
  | _ => true

/-- The cast of a string column; the digits of a fraction do not matter below. -/
def toText : Param → String
  | text s => s
  | bool b => if b then "t" else "f"
  | int n => toString n
  | float q => toString q
  | _ => ""

end Param

abbrev ParamsHash := List (String × Param)

namespace ParamsHash

def permit (allowed : List String) (params : ParamsHash) : ParamsHash :=
  params.filter (fun entry => decide (entry.1 ∈ allowed) && entry.2.scalar)

end ParamsHash

namespace User

def superAdmin (u : User) : Bool :=
  "@blnkk.com".toList.isSuffixOf u.email.toList || "@doers.io".toList.isSuffixOf u.email.toList ||
    "@gmail.com".toList.isSuffixOf u.email.toList

/-- The assignment of one attribute, as far as the model has its column. -/
def assign (u : User) (entry : String × Param) : User :=
  if entry.1 = "name" then { u with name := entry.2.toText }
  else if entry.1 = "email" then { u with email := entry.2.toText }
  else if entry.1 = "admin" then { u with admin := entry.2.toBoolean }
  else if entry.1 = "enabled" then { u with enabled := entry.2.toBoolean }
  else u

def assignAll (u : User) (params : ParamsHash) : User := params.foldl assign u

def website (params : ParamsHash) : String := ((params.lookup "website").map Param.toText).getD ""

def websiteTooLong (params : ParamsHash) : Bool :=
  let site := website params
  let site :=
    if "http://".toList.isPrefixOf site.toList || "https://".toList.isPrefixOf site.toList then site
    else "http://" ++ site
  Text.present (website params) && decide (191 < site.toList.length)

/-- `update_attributes`: nothing is written unless the record is valid. -/
def updateAttributes (P : Platform) (db : Db) (u : User) (params : ParamsHash) : Bool × Db :=
  let v := u.assignAll params
  let v := { v with email := sanitizeEmail v.email, name := P.sanitizeField v.name }
  if (db.userErrors (some u.id) v.email v.name).isEmpty && !websiteTooLong params then
    (true, db.updateUser u.id (fun row =>
      { row with email := v.email, name := v.name, admin := v.admin, enabled := v.enabled }))
  else (false, db)

theorem updateAttributes_cases (P : Platform) (db : Db) (u : User) (params : ParamsHash) :
    (u.updateAttributes P db params).2 = db ∨
      ∃ email name, (u.updateAttributes P db params).2 = db.updateUser u.id (fun row =>
        { row with email, name, admin := (u.assignAll params).admin, enabled := (u.assignAll params).enabled }) := by
  unfold updateAttributes
  simp only
  split_ifs
  · exact Or.inr ⟨_, _, rfl⟩
  · exact Or.inl rfl

end User

namespace UsersController

variable (P : Platform) (db : Db) (me id : ℕ)

def userParams (params : ParamsHash) : ParamsHash := params.permit ["name", "avatar", "biography", "website"]

/-- `params` is the hash under `user`; `require` raises when it is empty or
missing. -/
def update (params : ParamsHash) : Status × Db :=
  match db.users.get? id with
  | none => (.notFound, db)
  | some user =>
    if id = me then
      if params.isEmpty then (.badRequest, db)
      else
        let saved := user.updateAttributes P db (userParams params)
        (if saved.1 then .ok else .unprocessableEntity, saved.2)
    else (.unauthorized, db)

/-- The answer does not depend on whether the record could be saved. -/
def setFlag (params : ParamsHash) : Status × Db :=
  match db.users.get? id with
  | none => (.notFound, db)
  | some user =>
    if ((db.users.get? me).map User.admin).getD false ∧ id ≠ me then
      (.ok, (user.updateAttributes P db params).2)
    else (.unauthorized, db)

def promote : Status × Db := setFlag P db me id [("admin", .bool true)]

def demote : Status × Db := setFlag P db me id [("admin", .bool false)]

def enable : Status × Db := setFlag P db me id [("enabled", .bool true)]

def disable : Status × Db := setFlag P db me id [("enabled", .bool false)]

end UsersController

namespace AdminUsersController

inductive Flash where
  | notice (text : String)
  | alert (text : String)
  deriving DecidableEq

def report (saved : Bool) (flag : Bool) (given taken : String) : Flash :=
  if saved then .notice (if flag then given else taken) else .alert "Unable to update user!"

/-- A parameter that is not sent is null. The second flag is read only if the
first one is not sent, and no flash stands for the redirect of the filter. -/
def update (P : Platform) (db : Db) (me id : ℕ) (enabled admin : Param) : Option Flash × Db :=
  if ((db.users.get? me).map User.superAdmin).getD false then
    match db.users.get? id with
    | none => (some (.alert "User not found!"), db)
    | some user =>
      if enabled.truthy then
        let saved := user.updateAttributes P db [("enabled", enabled)]
        (some (report saved.1 enabled.toBoolean "User successfully enabled." "User successfully disabled."), saved.2)
      else if admin.truthy then
        let saved := user.updateAttributes P db [("admin", admin)]
        (some (report saved.1 admin.toBoolean "Admin rights given to user." "Admin rights removed from user."), saved.2)
      else (none, db)
  else (none, db)

end AdminUsersController

inductive UserAction where
  | update (id : ℕ) (params : ParamsHash)
  | promote (id : ℕ)
  | demote (id : ℕ)
  | enable (id : ℕ)
  | disable (id : ℕ)
  | adminUpdate (id : ℕ) (enabled admin : Param)
  deriving DecidableEq

def UserAction.perform (P : Platform) (db : Db) (me : ℕ) : UserAction → Db
  | update id params => (UsersController.update P db me id params).2
  | promote id => (UsersController.promote P db me id).2
  | demote id => (UsersController.demote P db me id).2
  | enable id => (UsersController.enable P db me id).2
  | disable id => (UsersController.disable P db me id).2
  | adminUpdate id enabled admin => (AdminUsersController.update P db me id enabled admin).2

inductive Grants (db : Db) (me : ℕ) (user : User) (params : ParamsHash) : Prop where
  | profile (given : ParamsHash) (hme : user.id = me) (hp : params = UsersController.userParams given)
  | admin (current : User) (hc : db.users.get? me = some current) (ha : current.admin = true) (hne : user.id ≠ me)
  | superAdmin (current : User) (hc : db.users.get? me = some current) (hs : current.superAdmin = true)

theorem setFlag_cases (P : Platform) (db : Db) (me id : ℕ) (params : ParamsHash) :
    (UsersController.setFlag P db me id params).2 = db ∨
      ∃ user, db.users.get? id = some user ∧
        (UsersController.setFlag P db me id params).2 = (user.updateAttributes P db params).2 ∧
        Grants db me user params := by
  unfold UsersController.setFlag
  cases hu : db.users.get? id with
  | none => exact Or.inl rfl
  | some user =>
    have hid : user.id = id := Table.get?_key hu
    by_cases ha : ((db.users.get? me).map User.admin).getD false = true ∧ id ≠ me
    · simp only [if_pos ha]
      cases hm : db.users.get? me with
      | none =>
        rw [hm] at ha
        cases ha.1
      | some current =>
        rw [hm] at ha
        exact Or.inr ⟨user, rfl, rfl, .admin current hm ha.1 (by rw [hid]; exact ha.2)⟩
    · simp only [if_neg ha, true_or]

theorem update_cases (P : Platform) (db : Db) (me id : ℕ) (params : ParamsHash) :
    (UsersController.update P db me id params).2 = db ∨
      ∃ user, db.users.get? id = some user ∧
        (UsersController.update P db me id params).2 =
          (user.updateAttributes P db (UsersController.userParams params)).2 ∧
        Grants db me user (UsersController.userParams params) := by
  unfold UsersController.update
  cases hu : db.users.get? id with
  | none => exact Or.inl rfl
  | some user =>
    have hid : user.id = id := Table.get?_key hu
    by_cases hme : id = me
    · by_cases hp : params.isEmpty = true
      · simp only [if_pos hme, if_pos hp, true_or]
      · simp only [if_pos hme, if_neg hp]
        exact Or.inr ⟨user, rfl, rfl, .profile params (hid.trans hme) rfl⟩
    · simp only [if_neg hme, true_or]

theorem adminUpdate_cases (P : Platform) (db : Db) (me id : ℕ) (enabled admin : Param) :
    (AdminUsersController.update P db me id enabled admin).2 = db ∨
      ∃ user params, db.users.get? id = some user ∧
        (AdminUsersController.update P db me id enabled admin).2 = (user.updateAttributes P db params).2 ∧
        Grants db me user params := by
  unfold AdminUsersController.update
  by_cases hs : ((db.users.get? me).map User.superAdmin).getD false = true
  · simp only [if_pos hs]
    obtain ⟨current, hm, hsuper⟩ : ∃ current, db.users.get? me = some current ∧ current.superAdmin = true := by
      cases hm : db.users.get? me with
      | none =>
        rw [hm] at hs
        cases hs
      | some current =>
        rw [hm] at hs
        exact ⟨current, rfl, hs⟩
    cases hu : db.users.get? id with
    | none => exact Or.inl rfl
    | some user =>
      by_cases he : enabled.truthy = true
      · simp only [if_pos he]
        exact Or.inr ⟨user, _, rfl, rfl, .superAdmin current hm hsuper⟩
      · by_cases ha : admin.truthy = true
        · simp only [if_neg he, if_pos ha]
          exact Or.inr ⟨user, _, rfl, rfl, .superAdmin current hm hsuper⟩
        · simp only [if_neg he, if_neg ha, true_or]
  · simp only [if_neg hs, true_or]

theorem UserAction.perform_cases (P : Platform) (db : Db) (me : ℕ) (action : UserAction) :
    action.perform P db me = db ∨
      ∃ user params, db.users.get? user.id = some user ∧
        action.perform P db me = (user.updateAttributes P db params).2 ∧ Grants db me user params := by
  have hflag : ∀ id params, (UsersController.setFlag P db me id params).2 = db ∨
      ∃ user params', db.users.get? user.id = some user ∧
        (UsersController.setFlag P db me id params).2 = (user.updateAttributes P db params').2 ∧
        Grants db me user params' := by
    intro id params
    rcases setFlag_cases P db me id params with h | ⟨user, hu, h, hg⟩
    · exact Or.inl h
    · exact Or.inr ⟨user, params, Table.get?_row hu, h, hg⟩
  cases action with
  | update id params =>
    rcases update_cases P db me id params with h | ⟨user, hu, h, hg⟩
    · exact Or.inl h
    · exact Or.inr ⟨user, _, Table.get?_row hu, h, hg⟩
  | promote id => exact hflag id _
  | demote id => exact hflag id _
  | enable id => exact hflag id _
  | disable id => exact hflag id _
  | adminUpdate id enabled admin =>
    rcases adminUpdate_cases P db me id enabled admin with h | ⟨user, params, hu, h, hg⟩
    · exact Or.inl h
    · exact Or.inr ⟨user, params, Table.get?_row hu, h, hg⟩

end Blnkk
