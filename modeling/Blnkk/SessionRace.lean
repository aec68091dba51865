import Blnkk.Lib.Concurrent
import Blnkk.RatedUsers
import Blnkk.Session
import Mathlib.Data.Finset.Basic

/-!
Sign-ins and sign-outs of one user from several browsers. A request loads the
user row before each of its updates and saves the whole array after it.
-/

namespace Blnkk

open Relational

namespace SessionUpdate

def id : SessionUpdate → ℕ
  | activate id => id
  | deactivate id => id

def apply (active : Finset ℕ) : SessionUpdate → Finset ℕ
  | activate id => insert id active
  | deactivate id => active.erase id

theorem change_toFinset (sessions : List ℕ) (update : SessionUpdate) :
    (update.change sessions).toFinset = update.apply sessions.toFinset := by
  cases update with
  | activate id =>
    ext x
    simp [change, apply]
  | deactivate id =>
    ext x
    simp [change, apply, and_comm]

theorem apply_of_not_due {sessions : List ℕ} {update : SessionUpdate} (h : update.due sessions = false)
    (active : Finset ℕ) : update.apply active = active ↔ (update.id ∈ sessions ↔ update.id ∈ active) := by
  cases update with
  | activate id =>
    have hid : id ∈ sessions := by simpa [due] using h
    simp [apply, SessionUpdate.id, hid]
  | deactivate id =>
    have hid : id ∉ sessions := by simpa [due] using h
    simp [apply, SessionUpdate.id, hid]

theorem apply_inj_iff (update : SessionUpdate) (a b : Finset ℕ) :
    update.apply a = update.apply b ↔ a.erase update.id = b.erase update.id := by
  cases update with
  | activate id =>
    simp only [apply, SessionUpdate.id, Finset.ext_iff, Finset.mem_insert, Finset.mem_erase]
    apply forall_congr'
    intro x
    by_cases hx : x = id <;> simp [hx]
  | deactivate id => rfl

end SessionUpdate

structure SessionStore where
  db : Db
  done : List SessionUpdate

structure SessionRequest where
  todo : List SessionUpdate
  loaded : Option User := none

def Db.saveSessions (db : Db) (user : ℕ) (sessions : List ℕ) : Db :=
  db.updateUser user (fun row => { row with activeSessions := sessions })

namespace SessionRequest

def next (user : ℕ) (s : SessionStore) (p : SessionRequest) : SessionStore × SessionRequest :=
  match p.todo, p.loaded with
  | [], _ => (s, p)
  | _ :: _, none => (s, { p with loaded := s.db.users.get? user })
  | update :: rest, some u =>
    ({ db :=
        if update.due u.activeSessions then s.db.saveSessions user (update.change u.activeSessions) else s.db
       done := s.done ++ [update] },
      { todo := rest })

end SessionRequest

def Db.activeSessions (db : Db) (user : ℕ) : List ℕ := ((db.users.get? user).map User.activeSessions).getD []

abbrev SessionRun (ι : Type) := Concurrent.State SessionStore ι SessionRequest

def sessionStart {ι : Type} (db : Db) (requests : ι → List SessionUpdate) : SessionRun ι :=
  ⟨⟨db, []⟩, fun i => { todo := requests i }⟩

def sessionStep {ι : Type} [DecidableEq ι] (user : ℕ) : SessionRun ι → ι → SessionRun ι :=
  Concurrent.step (SessionRequest.next user)

def SessionStore.expected (before : List ℕ) (s : SessionStore) : Finset ℕ :=
  s.done.foldl SessionUpdate.apply before.toFinset

/-- The stored array is as it was loaded: apart from the update's own session
when it saves, and for that session when it does not. -/
def SessionRequest.undisturbed (user : ℕ) (s : SessionStore) (p : SessionRequest) : Bool :=
  match p.todo, p.loaded with
  | update :: _, some u =>
    if update.due u.activeSessions then
      decide (u.activeSessions.toFinset.erase update.id = (s.db.activeSessions user).toFinset.erase update.id)
    else decide (update.id ∈ u.activeSessions ↔ update.id ∈ s.db.activeSessions user)
  | _, _ => true

structure SessionsRight (user : ℕ) (before : List ℕ) (s : SessionStore) : Prop where
  hasUser : s.db.users.has user = true
  sessions : (s.db.activeSessions user).toFinset = s.expected before

theorem saveSessions_maps (db : Db) (user : ℕ) (sessions : List ℕ) :
    MapsUsers db (db.saveSessions user sessions)
      (fun k u => if k = user then { u with activeSessions := sessions } else u) :=
  .updateUser db user (fun row => { row with activeSessions := sessions }) (fun _ => rfl)

theorem activeSessions_save {db : Db} {user : ℕ} (h : db.users.has user = true) (sessions : List ℕ) :
    (db.saveSessions user sessions).activeSessions user = sessions := by
  obtain ⟨u, hu⟩ := Option.isSome_iff_exists.mp h
  rw [Db.activeSessions, (saveSessions_maps db user sessions).get?, hu, Option.map_some, Option.map_some,
    Option.getD_some, if_pos rfl]

theorem next_hasUser {user : ℕ} {s : SessionStore} (h : s.db.users.has user = true) (p : SessionRequest) :
    (p.next user s).1.db.users.has user = true := by
  unfold SessionRequest.next
  split
  · exact h
  · exact h
  · simp only
    split_ifs
    · exact ((saveSessions_maps _ user _).has user).trans h
    · exact h

theorem sessionsRight_next_iff {user : ℕ} {before : List ℕ} {s : SessionStore} (h : SessionsRight user before s)
    (p : SessionRequest) :
    SessionsRight user before (p.next user s).1 ↔ p.undisturbed user s = true := by
  obtain ⟨todo, loaded⟩ := p
  cases todo with
  | nil => simp [SessionRequest.next, SessionRequest.undisturbed, h]
  | cons update rest =>
    cases loaded with
    | none => simp [SessionRequest.next, SessionRequest.undisturbed, h]
    | some u =>
      have hdone : (s.done ++ [update]).foldl SessionUpdate.apply before.toFinset =
          update.apply (s.db.activeSessions user).toFinset := by
        rw [List.foldl_append, h.sessions]
        rfl
      cases hd : update.due u.activeSessions with
      | true =>
        have hsave := activeSessions_save h.hasUser (update.change u.activeSessions)
        have hhas := (saveSessions_maps s.db user (update.change u.activeSessions)).has user
        have hright : SessionsRight user before
              ⟨s.db.saveSessions user (update.change u.activeSessions), s.done ++ [update]⟩ ↔
            update.apply u.activeSessions.toFinset = update.apply (s.db.activeSessions user).toFinset := by
          rw [← update.change_toFinset, ← hdone]
          exact ⟨fun hr => by rw [← hsave]; exact hr.sessions,
            fun hs => ⟨hhas.trans h.hasUser, by rw [hsave]; exact hs⟩⟩
        simp only [SessionRequest.next, SessionRequest.undisturbed, hd, if_true, decide_eq_true_eq, hright]
        exact update.apply_inj_iff _ _
      | false =>
        have hright : SessionsRight user before ⟨s.db, s.done ++ [update]⟩ ↔
            update.apply (s.db.activeSessions user).toFinset = (s.db.activeSessions user).toFinset := by
          rw [← hdone]
          exact ⟨fun hr => hr.sessions.symm, fun hs => ⟨h.hasUser, hs.symm⟩⟩
        simp only [SessionRequest.next, SessionRequest.undisturbed, hd, Bool.false_eq_true, if_false,
          decide_eq_true_eq, hright]
        rw [SessionUpdate.apply_of_not_due hd, List.mem_toFinset]

theorem updateSession_alone (P : Platform) (s : SessionStore) (u : User) (update : SessionUpdate)
    (hu : s.db.users.get? u.id = some u) (hemail : User.sanitizeEmail u.email = u.email)
    (hname : P.sanitizeField u.name = u.name) (hvalid : s.db.userErrors (some u.id) u.email u.name = []) :
    ((fun c : SessionStore × SessionRequest => c.2.next u.id c.1)^[2] (s, { todo := [update] })).1.db =
      (u.updateSession P s.db update).2 := by
  simp only [Function.iterate_succ_apply, Function.iterate_zero_apply, SessionRequest.next, hu]
  cases hd : update.due u.activeSessions with
  | false => simp [User.updateSession, hd]
  | true =>
    have ht : s.db.users.update u.id (fun row => { row with activeSessions := update.change u.activeSessions }) =
        s.db.users.update u.id (fun row =>
          { row with email := u.email, name := u.name, activeSessions := update.change u.activeSessions }) := by
      apply Table.update_congr
      intro row hrow
      rw [hu, Option.some.injEq] at hrow
      rw [← hrow]
    simp only [User.updateSession, User.save, hd, if_true, hemail, hname, hvalid]
    exact congrArg (fun users => { s.db with users }) ht

section Runs

variable {ι : Type} [DecidableEq ι]

theorem hasUser_run {user : ℕ} (s : SessionRun ι) (h : s.shared.db.users.has user = true) (schedule : List ι) :
    (Transition.run (sessionStep user) s schedule).shared.db.users.has user = true :=
  Transition.run_invariant (sessionStep user) (I := fun s => s.shared.db.users.has user = true)
    (fun s i hs => next_hasUser hs (s.procs i)) s h schedule

theorem sessions_right_iff (db : Db) (user : ℕ) (hasUser : db.users.has user = true) (requests : ι → List SessionUpdate)
    (schedule : List ι) :
    (∀ n, ((Transition.run (sessionStep user) (sessionStart db requests) (schedule.take n)).shared.db.activeSessions
        user).toFinset =
      (Transition.run (sessionStep user) (sessionStart db requests) (schedule.take n)).shared.expected
        (db.activeSessions user)) ↔
      Transition.Meets (sessionStep user) (fun s i => (s.procs i).undisturbed user s.shared = true)
        (sessionStart db requests) schedule := by
  rw [← Transition.forall_states_iff_meets (sessionStep user)
    (I := fun s => SessionsRight user (db.activeSessions user) s.shared)
    (fun s i hs => sessionsRight_next_iff hs (s.procs i)) (sessionStart db requests) ⟨hasUser, rfl⟩]
  apply forall_congr'
  intro n
  exact ⟨fun hs => ⟨hasUser_run _ hasUser _, hs⟩, fun hs => hs.sessions⟩

end Runs

def annWith (sessions : List ℕ) : Db :=
  { Db.new {} with
    users := Table.empty.insertFresh (fun id =>
      { id, email := "ann@blnkk.com", name := "ann", activeSessions := sessions }) }

def twoSignIns (schedule : List (Fin 2)) : SessionRun (Fin 2) :=
  Transition.run (sessionStep 1)
    (sessionStart (annWith []) (fun i => if i = ⟨0, Nat.zero_lt_two⟩ then [.activate 11] else [.activate 12])) schedule

def signOutAndSignIn (schedule : List (Fin 2)) : SessionRun (Fin 2) :=
  Transition.run (sessionStep 1)
    (sessionStart (annWith [11]) (fun i => if i = ⟨0, Nat.zero_lt_two⟩ then [.deactivate 11] else [.activate 12])) schedule

theorem overlapping_sign_ins_dropped :
    (∀ i, ((twoSignIns [0, 1, 0, 1]).procs i).todo = []) ∧
    (twoSignIns [0, 1, 0, 1]).shared.db.activeSessions 1 = [12] ∧
    (twoSignIns [0, 1, 0, 1]).shared.expected [] = {11, 12} ∧
    (∀ i, ((signOutAndSignIn [1, 0, 0, 1]).procs i).todo = []) ∧
    (signOutAndSignIn [1, 0, 0, 1]).shared.db.activeSessions 1 = [11, 12] ∧
    (signOutAndSignIn [1, 0, 0, 1]).shared.expected [11] = {12} := by
  decide +kernel

theorem sign_ins_in_turn_kept :
    (twoSignIns [0, 0, 1, 1]).shared.db.activeSessions 1 = [11, 12] ∧
    ∀ n, ((twoSignIns ([0, 0, 1, 1].take n)).shared.db.activeSessions 1).toFinset =
      (twoSignIns ([0, 0, 1, 1].take n)).shared.expected [] := by
  have hmeets : Transition.Meets (sessionStep 1) (fun s i => (s.procs i).undisturbed 1 s.shared = true)
      (sessionStart (annWith []) (fun i : Fin 2 => if i = ⟨0, Nat.zero_lt_two⟩ then [.activate 11] else [.activate 12]))
      [0, 0, 1, 1] := by
    refine ⟨?_, ?_, ?_, ?_, trivial⟩ <;> decide +kernel
  exact ⟨by decide +kernel, (sessions_right_iff (annWith []) 1 (by decide +kernel) _ [0, 0, 1, 1]).mpr hmeets⟩

end Blnkk
