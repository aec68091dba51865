import Blnkk.RequestPages
import Blnkk.Session

/-!
The actions of the API controllers behind the session filter, for whoever
`current_user` is. What the requests index lists, and so what it counts as
viewed, depends on who asks.
-/

namespace Blnkk

open Relational

inductive Action where
  | createRequest (subject content : String) (reward : Option String)
  | destroyRequest (id : ℕ)
  | rateRequest (id : ℕ) (rating : Param)
  | indexRequests (filter : RequestFilter) (page : ℕ)
  | showRequest (id : ℕ)
  | createComment (request : ℕ) (content : String)
  | destroyComment (id : ℕ)
  | rateComment (id : ℕ) (rating : Param)
  | rateUser (id : ℕ) (rating : Param)
  | showConversation (id : ℕ)
  | rateConversation (id : ℕ) (rating : Param)
  deriving DecidableEq

def RateResult.status (result : RateResult) : Status :=
  if result.raised then .internalServerError
  else if result.errors.isEmpty then .ok
  else .unprocessableEntity

namespace Action

variable (P : Platform) (createdAt : ℕ → ℕ) (s : Site)

/-- The page of the requests index, nothing if there is no such user, tag or page. -/
def indexPage (viewer : Option ℕ) (filter : RequestFilter) (page : ℕ) : Option (List Request) :=
  if page = 0 then none
  else (filter.requests P s viewer).map (fun rows => Visitor.paginate page (Visitor.newestFirst createdAt rows))

def performBy (now me : ℕ) : Action → Status × Db
  | createRequest subject content reward => RequestsController.create P s.db me subject content reward
  | destroyRequest id => RequestsController.destroy s.db me id
  | rateRequest id rating =>
    match s.db.requests.get? id with
    | some request => ((request.rate s.db me rating).status, (request.rate s.db me rating).db)
    | none => (.notFound, s.db)
  | indexRequests filter page =>
    match indexPage P createdAt s (some me) filter page with
    | some rows => (.ok, RequestsController.index s.db me (rows.map Request.id))
    | none => (.notFound, s.db)
  | showRequest id => RequestsController.show s.db me id
  | createComment request content =>
    ((CommentsController.create s.db me request content).1, (CommentsController.create s.db me request content).2.1)
  | destroyComment id => CommentsController.destroy s.db me id
  | rateComment id rating =>
    match s.db.comments.get? id with
    | some comment => ((comment.rate s.db me rating).status, (comment.rate s.db me rating).db)
    | none => (.notFound, s.db)
  | rateUser id rating =>
    if s.db.users.has id then ((User.rate s.db id me rating).status, (User.rate s.db id me rating).db)
    else (.notFound, s.db)
  | showConversation id =>
    ((ConversationsController.show s.db now me id).1, (ConversationsController.show s.db now me id).2.2)
  | rateConversation id rating =>
    match s.db.conversations.get? id with
    | some conversation => ((conversation.rate s.db me rating).status, (conversation.rate s.db me rating).db)
    | none => (.notFound, s.db)

def performByVisitor : Action → Status
  | indexRequests filter page => if (indexPage P createdAt s none filter page).isSome then .ok else .notFound
  | showRequest id =>
    if s.db.settings.private = some "1" then .unauthorized
    else
      match s.db.requests.get? id with
      | some request => if request.workflowState = .active then .ok else .notFound
      | none => .notFound
  | _ => .unauthorized

def perform (now : ℕ) (user : Option User) (action : Action) : Status × Db :=
  match user with
  | some u => action.performBy P createdAt s now u.id
  | none => (action.performByVisitor P createdAt s, s.db)

def op (now me : ℕ) : Action → Op
  | createRequest subject content reward => .createRequest me subject content reward
  | destroyRequest id => .destroyRequest me id
  | rateRequest id rating => .rateRequest me id rating
  | indexRequests filter page =>
    .indexRequests me (((indexPage P createdAt s (some me) filter page).getD []).map Request.id)
  | showRequest id => .showRequest me id
  | createComment request content => .createComment me request content
  | destroyComment id => .destroyComment me id
  | rateComment id rating => .rateComment me id rating
  | rateUser id rating => .rateUser me id rating
  | showConversation id => .showConversation now me id
  | rateConversation id rating => .rateConversation me id rating

theorem performBy_step (now me : ℕ) (hme : s.db.users.has me = true) (action : Action) :
    (action.performBy P createdAt s now me).2 = step P s.db (action.op P createdAt s now me) := by
  cases action with
  | rateRequest id rating =>
    cases h : s.db.requests.get? id <;> simp [performBy, op, step, Db.rateRequest, h, hme]
  | rateComment id rating =>
    cases h : s.db.comments.get? id <;> simp [performBy, op, step, Db.rateComment, h, hme]
  | rateUser id rating =>
    cases h : s.db.users.has id <;> simp [performBy, op, step, Db.rateUser, h, hme]
  | rateConversation id rating =>
    cases h : s.db.conversations.get? id <;> simp [performBy, op, step, Db.rateConversation, h, hme]
  | indexRequests filter page =>
    cases h : indexPage P createdAt s (some me) filter page <;> simp [performBy, op, step, RequestsController.index, h]
  | _ => rfl

theorem indexPage_isSome (viewer viewer' : Option ℕ) (filter : RequestFilter) (page : ℕ) :
    (indexPage P createdAt s viewer filter page).isSome = (indexPage P createdAt s viewer' filter page).isSome := by
  unfold indexPage
  split_ifs
  · rfl
  · rw [Option.isSome_map, Option.isSome_map]
    cases filter <;> rfl

theorem mem_indexPage {viewer : Option ℕ} {filter : RequestFilter} {page : ℕ} {rows : List Request}
    (h : indexPage P createdAt s viewer filter page = some rows) {r : Request} (hr : r ∈ rows) :
    s.db.requests.get? r.id = some r ∧ r.workflowState = .active := by
  unfold indexPage at h
  split_ifs at h
  obtain ⟨matching, hmatching, rfl⟩ := Option.map_eq_some_iff.mp h
  have hsorted := List.mem_of_mem_drop (List.mem_of_mem_take hr)
  obtain ⟨hmem, hactive⟩ := RequestFilter.mem_requests hmatching ((List.perm_insertionSort _ _).mem_iff.mp hsorted)
  exact ⟨Table.get?_of_mem hmem, hactive⟩

end Action

namespace Controller

variable (P : Platform) (createdAt : ℕ → ℕ) (s : Site)

/-- The tags and taggings of the site are read only. -/
def act (action : Action) (c : Controller) : Status × Controller :=
  let (user, c) := c.currentUser
  let result := action.perform P createdAt { s with db := c.db } c.now user
  (result.1, { c with db := result.2 })

def process (action : Action) (c : Controller) : Status × Controller :=
  c.validateActiveSession.act P createdAt s action

end Controller

end Blnkk
