import Blnkk.MessageChanges
import Blnkk.RatedUsers

/-!
Who can change the admin and enabled flags of users.
-/

namespace Blnkk

open Relational

def SameFlags (u u' : User) : Prop := u'.admin = u.admin ∧ u'.enabled = u.enabled

theorem assignAll_flags (u : User) (params : ParamsHash)
    (h : ∀ entry ∈ params, entry.1 ≠ "admin" ∧ entry.1 ≠ "enabled") : SameFlags u (u.assignAll params) := by
  induction params generalizing u with
  | nil => exact ⟨rfl, rfl⟩
  | cons entry params ih =>
    obtain ⟨hadmin, henabled⟩ := h entry List.mem_cons_self
    have hfirst : SameFlags u (u.assign entry) := by
      unfold User.assign
      simp only [if_neg hadmin, if_neg henabled]
      split_ifs <;> exact ⟨rfl, rfl⟩
    obtain ⟨ha, he⟩ := ih (u.assign entry) (fun e he => h e (List.mem_cons_of_mem _ he))
    exact ⟨ha.trans hfirst.1, he.trans hfirst.2⟩

theorem userParams_flags (given : ParamsHash) :
    ∀ entry ∈ UsersController.userParams given, entry.1 ≠ "admin" ∧ entry.1 ≠ "enabled" := by
  intro entry hm
  have hallowed : entry.1 ∈ ["name", "avatar", "biography", "website"] := by
    have hp := (List.mem_filter.mp hm).2
    rw [Bool.and_eq_true, decide_eq_true_eq] at hp
    exact hp.1
  constructor
  · intro he
    rw [he] at hallowed
    revert hallowed
    decide
  · intro he
    rw [he] at hallowed
    revert hallowed
    decide

theorem updateAttributes_flags (P : Platform) (db : Db) {u : User} (hu : db.users.get? u.id = some u)
    {params : ParamsHash} (h : SameFlags u (u.assignAll params)) :
    Table.Persists SameFlags db.users (u.updateAttributes P db params).2.users := by
  have hrefl : ∀ u, SameFlags u u := fun _ => ⟨rfl, rfl⟩
  rcases u.updateAttributes_cases P db params with he | ⟨email, name, he⟩
  · rw [he]
    exact Table.Persists.refl hrefl _
  · rw [he]
    apply Table.Persists.update hrefl
    · intro _
      rfl
    · intro row hrow
      obtain rfl : u = row := Option.some.inj (hu.symm.trans hrow)
      exact h

/-- The user passes the validation that a save repeats. -/
def Db.admits (P : Platform) (db : Db) (u : User) : Bool :=
  (db.userErrors (some u.id) (User.sanitizeEmail u.email) (P.sanitizeField u.name)).isEmpty

inductive Flag where
  | admin
  | enabled
  deriving DecidableEq

def Flag.name : Flag → String
  | admin => "admin"
  | enabled => "enabled"

theorem updateAttributes_flag (P : Platform) (db : Db) {u : User} (hu : db.users.get? u.id = some u) (flag : Flag)
    (value : Param) {β : Type} (g : User → β) (hg : ∀ u u', SameFlags u u' → g u' = g u) (k : ℕ) :
    ((u.updateAttributes P db [(flag.name, value)]).2.users.get? k).map g =
      if k = u.id ∧ db.admits P u = true then some (g (u.assign (flag.name, value))) else (db.users.get? k).map g := by
  have hsite : User.websiteTooLong [(flag.name, value)] = false := by
    have hnone : User.website [(flag.name, value)] = "" := by cases flag <;> rfl
    rw [User.websiteTooLong, hnone]
    rfl
  have hvalid : ((db.userErrors (some u.id) (User.sanitizeEmail (u.assignAll [(flag.name, value)]).email)
      (P.sanitizeField (u.assignAll [(flag.name, value)]).name)).isEmpty &&
        !User.websiteTooLong [(flag.name, value)]) = db.admits P u := by
    rw [hsite, Bool.not_false, Bool.and_true]
    cases flag <;> rfl
  unfold User.updateAttributes
  simp only [hvalid]
  cases db.admits P u with
  | false => simp
  | true =>
    simp only [if_true, and_true]
    refine (congrArg _ ((MapsUsers.updateUser db u.id _ _).get? k)).trans ?_
    by_cases hk : k = u.id
    · rw [hk, hu, if_pos rfl, Option.map_some, Option.map_some, if_pos rfl]
      exact congrArg some (hg _ _ ⟨rfl, rfl⟩)
    · simp only [if_neg hk, Option.map_id']

theorem flags_kept (P : Platform) (db : Db) (me : ℕ) (current : User) (hme : db.users.get? me = some current)
    (hadmin : current.admin = false) (hsuper : current.superAdmin = false) (action : UserAction) :
    Table.Persists SameFlags db.users (step P db (.manageUser me action)).users := by
  show Table.Persists SameFlags db.users (action.perform P db me).users
  rcases action.perform_cases P db me with h | ⟨user, params, hu, h, hgrant⟩
  · rw [h]
    exact Table.Persists.refl (fun _ => ⟨rfl, rfl⟩) _
  · rw [h]
    cases hgrant with
    | profile given _ hp =>
      subst hp
      exact updateAttributes_flags P db hu (assignAll_flags user _ (userParams_flags given))
    | admin other hc ha _ =>
      obtain rfl : other = current := Option.some.inj (hc.symm.trans hme)
      rw [hadmin] at ha
      cases ha
    | superAdmin other hc hs =>
      obtain rfl : other = current := Option.some.inj (hc.symm.trans hme)
      rw [hsuper] at hs
      cases hs

def annAndCarol : Db :=
  Transition.run (step .plain) (Db.new {}) [.signUp "ann@blnkk.com" "ann", .signUp "carol@mail.org" "carol"]

def carol : User := { id := 2, email := "carol@mail.org", name := "carol" }

theorem carol_keeps_flags :
    annAndCarol.users.get? 2 = some carol ∧ carol.admin = false ∧ carol.superAdmin = false ∧
      Table.Persists SameFlags annAndCarol.users
        (step .plain annAndCarol (.manageUser 2 (.update 2 [("name", .text "caro"), ("admin", .bool true)]))).users :=
  ⟨by decide +kernel, rfl, by decide +kernel,
    flags_kept .plain annAndCarol 2 carol (by decide +kernel) rfl (by decide +kernel) _⟩

/-- The users page of the admin panel asks for the domain of the e-mail address
and not for the admin flag. Ann is no admin and becomes one. -/
theorem ann_becomes_admin :
    Reachable .plain annAndCarol ∧ (annAndCarol.users.get? 1).map User.admin = some false ∧
      ¬ Table.Persists SameFlags annAndCarol.users
        (step .plain annAndCarol (.manageUser 1 (.adminUpdate 1 .null (.text "1")))).users := by
  refine ⟨⟨{}, _, rfl⟩, by decide +kernel, ?_⟩
  intro hkept
  have hbefore : (annAndCarol.users.get? 1).map User.admin = some false := by decide +kernel
  have hafter : ((step .plain annAndCarol (.manageUser 1 (.adminUpdate 1 .null (.text "1")))).users.get? 1).map
      User.admin = some true := by decide +kernel
  obtain ⟨ann, hann, hadmin⟩ := Option.map_eq_some_iff.mp hbefore
  obtain ⟨ann', hann', hflags⟩ := hkept 1 ann hann
  rw [hann', Option.map_some, hflags.1, hadmin] at hafter
  cases hafter

end Blnkk
