import Blnkk.AsVisitor

/-!
What `validate_active_session` keeps a rejected cookie from.
-/

namespace Blnkk

open Relational

def Rejected (db : Db) (session : Session) : Prop :=
  ∃ u, session.userId.bind db.users.get? = some u ∧ ¬ (u.enabled = true ∧ session.sessionId ∈ u.activeSessions)

def Db.withoutActivity (db : Db) : Db :=
  { db with users := db.users.updateWhere (fun _ => true) (fun u => { u with ip := none, lastSeenAt := none }) }

def SameOutcome (r s : Status × Controller) : Prop :=
  r.1 = s.1 ∧ r.2.db.withoutActivity = s.2.db.withoutActivity

namespace Controller

theorem currentUser_twice (c : Controller) : c.currentUser.2.currentUser = c.currentUser := by
  cases hm : c.memo with
  | some u => rw [currentUser_of_memo hm, currentUser_of_memo hm]
  | none =>
    cases hu : c.session.userId.bind c.db.users.get? with
    | some u =>
      rw [currentUser_of_found hm hu]
      exact currentUser_of_memo rfl
    | none => rw [currentUser_of_absent hm hu, currentUser_of_absent hm hu]

theorem currentUser_memo {c : Controller} {u : User} (h : c.currentUser.1 = some u) : c.currentUser.2.memo = some u := by
  cases hm : c.memo with
  | some v =>
    rw [currentUser_of_memo hm] at h ⊢
    exact hm.trans h
  | none =>
    cases hu : c.session.userId.bind c.db.users.get? with
    | some v =>
      rw [currentUser_of_found hm hu] at h ⊢
      exact h
    | none =>
      rw [currentUser_of_absent hm hu] at h
      cases h

theorem validateActiveSession_cases (c : Controller) :
    c.validateActiveSession = c.currentUser.2 ∨
      (∃ u, c.currentUser.1 = some u) ∧ c.validateActiveSession = c.currentUser.2.resetSession := by
  unfold validateActiveSession
  cases hu : c.currentUser.1 with
  | some u =>
    simp only [hu]
    split_ifs
    · exact Or.inl rfl
    · exact Or.inr ⟨⟨u, rfl⟩, rfl⟩
  | none => simp only [hu, true_or]

theorem validateActiveSession_currentUser (c : Controller) :
    c.validateActiveSession.currentUser = (c.currentUser.1, c.validateActiveSession) := by
  rcases validateActiveSession_cases c with h | ⟨⟨u, hu⟩, h⟩
  · rw [h, currentUser_twice]
  · rw [h, hu]
    exact currentUser_of_memo (currentUser_memo hu)

theorem validateActiveSession_db (c : Controller) : c.validateActiveSession.db = c.currentUser.2.db := by
  rcases validateActiveSession_cases c with h | ⟨-, h⟩ <;> rw [h]
  rfl

theorem validateActiveSession_now (c : Controller) : c.validateActiveSession.now = c.currentUser.2.now := by
  rcases validateActiveSession_cases c with h | ⟨-, h⟩ <;> rw [h]
  rfl

/-- An action answers and writes as if there were no filter before it. -/
theorem process_eq_act (P : Platform) (createdAt : ℕ → ℕ) (s : Site) (action : Action) (c : Controller) :
    (c.process P createdAt s action).1 = (c.act P createdAt s action).1 ∧
      (c.process P createdAt s action).2.db = (c.act P createdAt s action).2.db := by
  simp only [process, act, validateActiveSession_currentUser, validateActiveSession_db, validateActiveSession_now,
    and_self]

end Controller

theorem signedIn_of_rejected {db : Db} {session : Session} (h : Rejected db session) (ip : String)
    (now freshSessionId : ℕ) :
    (Controller.start db session ip now freshSessionId).validateActiveSession.signedIn.1 = true := by
  obtain ⟨u, hu, -⟩ := h
  rw [Controller.signedIn, Controller.validateActiveSession_currentUser,
    Controller.currentUser_of_found (c := Controller.start db session ip now freshSessionId) rfl hu]
  rfl

def Db.seen (db : Db) (id : ℕ) (ip : String) (now : ℕ) : Db :=
  db.updateUser id (User.seen ip now) (User.seen_id ip now)

theorem get?_seen {db : Db} {u : User} (hu : db.users.get? u.id = some u) (ip : String) (now : ℕ) :
    (db.seen u.id ip now).users.get? (u.seen ip now).id = some (u.seen ip now) := by
  have hget := Table.get?_update db.users u.id (User.seen ip now) (User.seen_id ip now) u.id
  rw [if_pos rfl, hu, Option.map_some] at hget
  rw [User.seen_id]
  exact hget

theorem seen_withoutActivity (db : Db) (id : ℕ) (ip : String) (now : ℕ) :
    (db.seen id ip now).withoutActivity = db.withoutActivity := by
  have hseen : ∀ u : User, { u.seen ip now with ip := none, lastSeenAt := none } =
      { u with ip := none, lastSeenAt := none } := by
    intro u
    unfold User.seen
    split_ifs <;> rfl
  simp only [Db.withoutActivity, Db.seen, Db.updateUser]
  congr 1
  apply Table.ext
  simp only [Table.update, Table.updateWhere, List.map_map, if_true]
  apply List.map_congr_left
  intro u _
  by_cases hu : u.id = id <;> simp [hu, hseen]

def Site.seen (s : Site) (id : ℕ) (ip : String) (now : ℕ) : Site := { s with db := s.db.seen id ip now }

theorem followingIds_seen (s : Site) (id : ℕ) (ip : String) (now me : ℕ) :
    (s.seen id ip now).followingIds me = s.followingIds me := by
  simp only [Site.followingIds, Site.seen, Db.seen, Db.updateUser, Table.update, Table.updateWhere, List.filter_map,
    List.map_map]
  have hid : ∀ u : User, (if decide (u.id = id) = true then u.seen ip now else u).id = u.id := by
    intro u
    split_ifs
    · exact User.seen_id ip now u
    · rfl
  congr 1
  · funext u
    exact hid u
  · congr 1
    funext u
    simp only [Function.comp_apply, hid]

theorem indexPage_seen (P : Platform) (createdAt : ℕ → ℕ) (s : Site) (id : ℕ) (ip : String) (now : ℕ)
    (viewer : Option ℕ) (filter : RequestFilter) (page : ℕ) :
    Action.indexPage P createdAt (s.seen id ip now) viewer filter page =
      Action.indexPage P createdAt s viewer filter page := by
  have hrequests : filter.requests P (s.seen id ip now) viewer = filter.requests P s viewer := by
    cases filter with
    | feed f =>
      cases viewer with
      | none => rfl
      | some me =>
        have hfollowing := followingIds_seen s id ip now me
        cases f <;>
          simp only [RequestFilter.requests, Feed.requests, Feed.condition, Feed.followingUserIds, Option.elim_some,
            hfollowing] <;> rfl
    | tag name => rfl
    | user other mine =>
      have hhas : (s.seen id ip now).db.users.has other = s.db.users.has other := Table.has_update _ _ _ (User.seen_id ip now) _
      simp only [RequestFilter.requests, hhas]
      rfl
  rw [Action.indexPage, Action.indexPage, hrequests]

theorem harmless_seen (P : Platform) (createdAt : ℕ → ℕ) (s : Site) (u : User) (ip : String) (now : ℕ) (action : Action) :
    action.Harmless P createdAt (s.seen u.id ip now) (u.seen ip now) ↔ action.Harmless P createdAt s u := by
  have hadmin : (u.seen ip now).admin = u.admin := by
    unfold User.seen
    split_ifs <;> rfl
  cases action <;> simp only [Action.Harmless, User.seen_id, hadmin, indexPage_seen] <;> rfl

theorem performByVisitor_seen (P : Platform) (createdAt : ℕ → ℕ) (s : Site) (id : ℕ) (ip : String) (now : ℕ)
    (action : Action) :
    action.performByVisitor P createdAt (s.seen id ip now) = action.performByVisitor P createdAt s := by
  cases action with
  | indexRequests filter page => simp only [Action.performByVisitor, indexPage_seen]
  | _ => rfl

section Rejection

variable (P : Platform) (createdAt : ℕ → ℕ) (s : Site) (session : Session) (visitorId : ℕ) (ip : String)
  (now freshSessionId : ℕ)

theorem visitor_act (action : Action) :
    (Controller.start s.db { sessionId := visitorId } ip now freshSessionId).act P createdAt s action =
      (action.performByVisitor P createdAt s, Controller.start s.db { sessionId := visitorId } ip now freshSessionId) := rfl

theorem sameOutcome_iff_harmless {u : User} (hu : session.userId.bind s.db.users.get? = some u) (action : Action) :
    SameOutcome ((Controller.start s.db session ip now freshSessionId).process P createdAt s action)
        ((Controller.start s.db { sessionId := visitorId } ip now freshSessionId).process P createdAt s action) ↔
      action.Harmless P createdAt s u := by
  obtain ⟨id, -, hid⟩ := Option.bind_eq_some_iff.mp hu
  obtain rfl : u.id = id := Table.get?_key hid
  have hact : (Controller.start s.db session ip now freshSessionId).act P createdAt s action =
      ((action.performBy P createdAt (s.seen u.id ip now) now (u.seen ip now).id).1,
        { (Controller.start s.db session ip now freshSessionId).logActivity u with
          db := (action.performBy P createdAt (s.seen u.id ip now) now (u.seen ip now).id).2 }) := by
    simp only [Controller.act,
      Controller.currentUser_of_found (c := Controller.start s.db session ip now freshSessionId) rfl hu]
    rfl
  have hvisitor := performByVisitor_seen P createdAt s u.id ip now action
  obtain ⟨hs, hd⟩ := Controller.process_eq_act P createdAt s action (Controller.start s.db session ip now freshSessionId)
  obtain ⟨hs', hd'⟩ := Controller.process_eq_act P createdAt s action
    (Controller.start s.db { sessionId := visitorId } ip now freshSessionId)
  rw [SameOutcome, hs, hd, hs', hd', hact, visitor_act, ← harmless_seen P createdAt s u ip now]
  rcases Action.performBy_cases P createdAt now (s := s.seen u.id ip now) (get?_seen hid ip now) action with
    ⟨h, he⟩ | ⟨h, hne⟩
  · refine iff_of_true ?_ h
    rw [he, hvisitor]
    exact ⟨rfl, seen_withoutActivity s.db u.id ip now⟩
  · refine iff_of_false ?_ h
    rintro ⟨hstatus, hdb⟩
    rcases hne with hne | hne
    · exact hne (hstatus.trans hvisitor.symm)
    · have hviews := congrArg Db.totalViews hdb
      exact hne hviews

theorem rejected_as_visitor_iff :
    (∀ act : Controller → Status × Controller,
      (Rejected s.db session →
        (Controller.start s.db session ip now freshSessionId).validateActiveSession.signedIn.1 = false ∧
        SameOutcome (act (Controller.start s.db session ip now freshSessionId).validateActiveSession)
          (act (Controller.start s.db { sessionId := visitorId } ip now freshSessionId).validateActiveSession)) ↔
        ¬ Rejected s.db session) ∧
    ∀ action : Action,
      (Rejected s.db session →
        SameOutcome ((Controller.start s.db session ip now freshSessionId).process P createdAt s action)
          ((Controller.start s.db { sessionId := visitorId } ip now freshSessionId).process P createdAt s action)) ↔
        (Rejected s.db session → ∀ u, session.userId.bind s.db.users.get? = some u →
          action.Harmless P createdAt s u) := by
  constructor
  · intro act
    constructor
    · intro h hr
      have hs := signedIn_of_rejected hr ip now freshSessionId
      rw [(h hr).1] at hs
      cases hs
    · intro h hr
      exact absurd hr h
  · intro action
    have hiff := fun u hu =>
      sameOutcome_iff_harmless P createdAt s session visitorId ip now freshSessionId (u := u) hu action
    constructor
    · intro h hr u hu
      exact (hiff u hu).mp (h hr)
    · intro h hr
      obtain ⟨u, hu, -⟩ := id hr
      exact (hiff u hu).mpr (h hr u hu)

end Rejection

def annSignedIn : Controller :=
  ((Controller.start (signUp .plain (Db.new {}) "ann@blnkk.com" "ann") { sessionId := 5 } "10.0.0.1" 100 7).signIn
    .plain 1 none).toOption.getD
    (Controller.start (Db.new {}) { sessionId := 5 } "10.0.0.1" 100 7)

def annSignedOut : Db := (annSignedIn.signOut .plain).db

def replay : Controller := Controller.start annSignedOut annSignedIn.session "10.0.0.1" 200 9

def stranger : Controller := Controller.start annSignedOut { sessionId := 8 } "10.0.0.1" 200 9

def annSeen : User :=
  { id := 1, email := "ann@blnkk.com", name := "ann", ip := some "10.0.0.1", lastSeenAt := some 100 }

theorem signed_out_cookie_posts :
    let post := Controller.process .plain id ⟨annSignedOut, .empty, .empty⟩ (.createRequest "bike" "wanted" none)
    Rejected annSignedOut annSignedIn.session ∧ replay.validateActiveSession.signedIn.1 = true ∧
      (post replay).1 = .created ∧ (post stranger).1 = .unauthorized ∧
      (post replay).2.db.requests.rows.map Request.userId = [1] ∧
      (post stranger).2.db.requests.rows.map Request.userId = [] := by
  refine ⟨⟨annSeen, ?_⟩, ?_⟩ <;> decide +kernel

end Blnkk
