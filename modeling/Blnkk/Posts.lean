import Blnkk.Rate

/-!
The actions of the requests and comments controllers for a signed-in user
`me`, and the workflow events of the admin panel.
-/

namespace Blnkk

open Relational

inductive Status where
  | ok
  | created
  | badRequest
  | unauthorized
  | forbidden
  | notFound
  | conflict
  | unprocessableEntity
  | internalServerError
  deriving DecidableEq

namespace Db

variable (db : Db)

def activeRequests (user : ℕ) : ℤ :=
  db.requests.count (fun r => decide (r.userId = user) && decide (r.workflowState = .active))

def recountRequests (user : ℕ) : Db :=
  db.updateUser user (fun u => { u with requestCount := db.activeRequests user })

def setWorkflowState (id : ℕ) (state : WorkflowState) : Db :=
  { db with requests := db.requests.update id (fun r => { r with workflowState := state }) }

def joinRequest (r : Request) (user : ℕ) : Db :=
  r.updateScore { db with requestUsers := db.requestUsers.ensure ⟨r.id, user⟩ } .comment

def addViewing (id user : ℕ) : Db :=
  { db with
    viewings := (db.viewings.ensure { viewable := .request id, userId := user }).update (.request id, user)
      (fun v => { v with viewCount := v.viewCount + 1 }) }

end Db

namespace RequestsController

def post (db : Db) (me : ℕ) (subject content : String) (reward : Option String) : Db :=
  { db with
    requests := db.requests.insertFresh (fun id => { id, userId := me, subject, content, reward })
    requestUsers := db.requestUsers.ensure ⟨db.requests.fresh, me⟩ }

def create (P : Platform) (db : Db) (me : ℕ) (subject content : String) (reward : Option String) :
    Status × Db :=
  if db.users.has me then
    if Text.present subject && Text.present (P.sanitizeField content) then
      if fitsString subject && fitsText (P.sanitizeField content) && (reward.map P.sanitizeField).all fitsText then
        (.created, (post db me subject (P.sanitizeField content) (reward.map P.sanitizeField)).recountRequests me)
      else (.internalServerError, db)
    else (.unprocessableEntity, db)
  else (.unauthorized, db)

theorem create_cases (P : Platform) (db : Db) (me : ℕ) (subject content : String) (reward : Option String) :
    (create P db me subject content reward).2 = db ∨ db.users.has me = true ∧
      (create P db me subject content reward).2 =
        (post db me subject (P.sanitizeField content) (reward.map P.sanitizeField)).recountRequests me := by
  unfold create
  split_ifs with hme
  · exact Or.inr ⟨hme, rfl⟩
  · exact Or.inl rfl
  · exact Or.inl rfl
  · exact Or.inl rfl

def destroy (db : Db) (me id : ℕ) : Status × Db :=
  match db.users.get? me, db.requests.get? id with
  | some user, some request =>
    if request.userId = me ∨ user.admin then
      if request.workflowState = .active then
        (.ok, (db.setWorkflowState id .disabled).recountRequests me)
      else (.ok, db)
    else (.unauthorized, db)
  | none, _ => (.unauthorized, db)
  | _, none => (.notFound, db)

theorem destroy_cases (db : Db) (me id : ℕ) :
    (destroy db me id).2 = db ∨ (destroy db me id).2 = (db.setWorkflowState id .disabled).recountRequests me := by
  unfold destroy
  cases db.users.get? me with
  | none => exact Or.inl rfl
  | some user =>
    cases db.requests.get? id with
    | none => exact Or.inl rfl
    | some request =>
      simp only
      split_ifs
      · exact Or.inr rfl
      · exact Or.inl rfl
      · exact Or.inl rfl

def view (me : ℕ) (db : Db) (row : Request) : Db := row.updateScore (db.addViewing row.id me) .view

/-- The rows of the page are loaded by one query, each once, before the first
of them is viewed. -/
def index (db : Db) (me : ℕ) (page : List ℕ) : Db :=
  if db.users.has me then
    ((page.dedup.filterMap db.requests.get?).filter (fun r => decide (r.workflowState = .active))).foldl
      (view me) db
  else db

def «show» (db : Db) (me id : ℕ) : Status × Db :=
  if db.users.has me || db.settings.private != some "1" then
    match db.requests.get? id with
    | none => (.notFound, db)
    | some request =>
      if request.workflowState = .active then
        (.ok, if db.users.has me then view me db request else db)
      else (.notFound, db)
  else (.unauthorized, db)

end RequestsController

namespace AdminRequestsController

inductive Event where
  | disable
  | enable
  deriving DecidableEq

def Event.source : Event → WorkflowState
  | disable => .active
  | enable => .disabled

def Event.target : Event → WorkflowState
  | disable => .disabled
  | enable => .active

def update (db : Db) (id : ℕ) (event : Event) : Db :=
  match db.requests.get? id with
  | none => db
  | some request =>
    -- a transition the workflow does not have raises before anything is written
    if request.workflowState = event.source then
      (db.setWorkflowState id event.target).recountRequests request.userId
    else db

theorem update_cases (db : Db) (id : ℕ) (event : Event) :
    update db id event = db ∨ ∃ request, db.requests.get? id = some request ∧ request.workflowState = event.source ∧
      update db id event = (db.setWorkflowState id event.target).recountRequests request.userId := by
  unfold update
  cases db.requests.get? id with
  | none => exact Or.inl rfl
  | some request =>
    simp only
    split_ifs with hw
    · exact Or.inr ⟨request, rfl, hw, rfl⟩
    · exact Or.inl rfl

end AdminRequestsController

namespace CommentsController

inductive Notice where
  | commentMyRequest (user comment : ℕ)
  | commentCommentedRequest (user comment : ℕ)
  deriving DecidableEq

def commentUsers (db : Db) (request : ℕ) : List ℕ :=
  ((db.comments.rows.filter (fun c => decide (c.requestId = request) && c.enabled)).map Comment.userId).dedup

def notices (db : Db) (request : Request) (me comment : ℕ) : List Notice :=
  (if request.userId = me then [] else [.commentMyRequest request.userId comment]) ++
  (((commentUsers db request.id).filter (fun u => u != request.userId && u != me)).map
    (fun u => .commentCommentedRequest u comment))

def post (db : Db) (me requestId : ℕ) (content : String) : Db :=
  { db with comments := db.comments.insertFresh (fun id => { id, requestId, userId := me, content }) }

def create (db : Db) (me requestId : ℕ) (content : String) : Status × Db × List Notice :=
  if db.users.has me then
    match db.requests.get? requestId with
    | none => (.notFound, db, [])
    | some request =>
      if request.workflowState = .active then
        if Text.present content then
          if fitsText content then
            let joined := (post db me requestId content).joinRequest request me
            (.created, joined, notices joined request me db.comments.fresh)
          else (.internalServerError, db, [])
        else (.unprocessableEntity, db, [])
      else (.notFound, db, [])
  else (.unauthorized, db, [])

theorem create_cases (db : Db) (me request : ℕ) (content : String) :
    (∃ r, db.users.has me = true ∧ db.requests.get? request = some r ∧
      create db me request content =
        (.created, (post db me request content).joinRequest r me,
          notices ((post db me request content).joinRequest r me) r me db.comments.fresh)) ∨
    ((create db me request content).1 ≠ .created ∧ (create db me request content).2 = (db, [])) := by
  unfold create
  by_cases hme : db.users.has me = true
  · rw [if_pos hme]
    cases hr : db.requests.get? request with
    | none => exact Or.inr ⟨by simp, rfl⟩
    | some r =>
      simp only
      split_ifs
      · exact Or.inl ⟨r, hme, rfl, rfl⟩
      · exact Or.inr ⟨by simp, rfl⟩
      · exact Or.inr ⟨by simp, rfl⟩
      · exact Or.inr ⟨by simp, rfl⟩
  · rw [if_neg hme]
    exact Or.inr ⟨by simp, rfl⟩

def destroy (db : Db) (me id : ℕ) : Status × Db :=
  match db.comments.get? id with
  | none => (.notFound, db)
  | some comment =>
    match db.users.get? me with
    | none => (.unauthorized, db)
    | some user =>
      if (comment.userId = me ∨ user.admin) ∧ comment.enabled then
        let disabled := { db with comments := db.comments.update id (fun c => { c with enabled := false }) }
        match disabled.requests.get? comment.requestId with
        | some request => (.ok, request.updateScore disabled .comment)
        | none => (.internalServerError, disabled)
      else (.unauthorized, db)

theorem destroy_cases (db : Db) (me id : ℕ) :
    (destroy db me id).2 = db ∨
      let disabled := { db with comments := db.comments.update id (fun c => { c with enabled := false }) }
      (destroy db me id).2 = disabled ∨
        ∃ r, db.requests.get? r.id = some r ∧ (destroy db me id).2 = r.updateScore disabled .comment := by
  unfold destroy
  cases db.comments.get? id with
  | none => exact Or.inl rfl
  | some comment =>
    cases db.users.get? me with
    | none => exact Or.inl rfl
    | some user =>
      simp only
      split_ifs
      · right
        cases hr : db.requests.get? comment.requestId with
        | none => exact Or.inl rfl
        | some r => exact Or.inr ⟨r, Table.get?_row hr, rfl⟩
      · exact Or.inl rfl

end CommentsController

end Blnkk
