import Blnkk.Tags
import Mathlib.Data.List.Sort

/-!
What the pages and API actions that show requests answer to a signed-out
visitor. A response is the data that is rendered, with the columns that the
model has.
-/

namespace Blnkk

open Relational

structure NameJson where
  id : ℕ
  name : String
  deriving DecidableEq

structure UserCardJson where
  id : ℕ
  name : String
  lastSeenAt : Option ℕ
  deriving DecidableEq

structure CommentJson where
  id : ℕ
  content : String
  likeCount : ℤ
  -- shown to admins only
  reportCount : Option ℤ
  user : Option NameJson
  deriving DecidableEq

structure TagListJson where
  id : ℕ
  name : String
  displayName : Option String
  icon : Option String
  userCount : ℤ
  deriving DecidableEq

structure RequestJson where
  id : ℕ
  subject : String
  content : String
  reward : Option String
  createdAt : ℕ
  userReachCount : ℤ
  likeCount : ℤ
  reportCount : Option ℤ
  commentCount : ℤ
  tag : Option TagListJson
  likers : List NameJson
  repliers : List NameJson
  user : Option UserCardJson
  comments : List CommentJson
  deriving DecidableEq

structure TagJson where
  tag : TagListJson
  request : Option RequestJson
  deriving DecidableEq

inductive Response where
  | requests (list : List RequestJson)
  | tags (list : List TagJson)
  | tag (tag : TagJson)
  | page (title author : String)
  | nothing (status : Status)
  | redirect
  deriving DecidableEq

structure IndexParams where
  userId : Option ℕ := none
  mine : Bool := false
  tag : Option String := none
  discover : Bool := false
  page : ℕ := 1
  deriving DecidableEq

inductive Endpoint where
  | requestsIndex (params : IndexParams)
  | requestsShow (id : ℕ)
  | tagsIndex (query : Option String)
  | tagsShow (name : String)
  | requestPage (localized : Bool) (id : ℕ)
  deriving DecidableEq

namespace Visitor

variable (P : Platform) (createdAt : ℕ → ℕ) (s : Site)

def nameJson (id : ℕ) : Option NameJson := (s.db.users.get? id).map (fun u => ⟨u.id, u.name⟩)

def userCardJson (id : ℕ) : Option UserCardJson := (s.db.users.get? id).map (fun u => ⟨u.id, u.name, u.lastSeenAt⟩)

def tagListJson (tag : Tag) : TagListJson := ⟨tag.id, tag.name, tag.displayName, tag.icon, tag.userCount⟩

def commentsJson (id : ℕ) : List CommentJson :=
  (s.db.comments.rows.filter (fun c => decide (c.requestId = id) && c.enabled)).map
    (fun c => ⟨c.id, c.content, c.likeCount, none, nameJson s c.userId⟩)

def requestJson (r : Request) : RequestJson where
  id := r.id
  subject := r.subject
  content := r.content
  reward := r.reward
  createdAt := createdAt r.id
  userReachCount := r.userReachCount
  likeCount := r.likeCount
  reportCount := none
  commentCount := r.commentCount
  tag := (s.tags.rows.find? (fun tag => s.taggings.has (tag.id, .request r.id))).map tagListJson
  likers := (s.db.ratings.rows.filter (fun q => decide (q.rateable = .request r.id ∧ q.rating = 1))).reverse.filterMap
    (fun q => nameJson s q.userId)
  repliers := (s.db.requestUsers.rows.filter (fun ru => decide (ru.requestId = r.id ∧ ru.userId ≠ r.userId))).filterMap
    (fun ru => nameJson s ru.userId)
  user := userCardJson s r.userId
  comments := commentsJson s r.id

/-- The sticky request of a tag, whatever its workflow state. -/
def tagJson (tag : Tag) : TagJson :=
  ⟨tagListJson tag, (tag.requestId.bind s.db.requests.get?).map (requestJson createdAt s)⟩

/-- The condition of the feed, without the one on the workflow state. A visitor
follows all tags and no user. -/
def feed (params : IndexParams) : Option (Request → Bool) :=
  match params.userId, params.tag with
  | some id, _ =>
    if s.db.users.has id then
      if params.mine then some (fun r => decide (r.userId = id))
      else some (fun r => s.db.requestUsers.has (r.id, id))
    else none
  | none, some name =>
    (s.findTag P name).map (fun tag r => s.taggings.has (tag.id, .request r.id) && decide (tag.requestId ≠ some r.id))
  | none, none =>
    if params.discover then some (fun r => !s.taggings.rows.any (fun t => decide (t.taggable = .request r.id)))
    else some (fun r => s.tags.rows.any (fun tag => s.taggings.has (tag.id, .request r.id)))

def listed (shown : Request → Bool) (r : Request) : Bool := decide (r.workflowState = .active) && shown r

def newestFirst (requests : List Request) : List Request :=
  requests.insertionSort (fun a b => createdAt b.id ≤ createdAt a.id)

def paginate (page : ℕ) (requests : List Request) : List Request := (requests.drop (3 * (page - 1))).take 3

def requestsIndex (params : IndexParams) : Response :=
  match feed P s params with
  | none => .nothing .notFound
  | some shown =>
    if params.page = 0 then .nothing .notFound
    else .requests ((paginate params.page (newestFirst createdAt (s.db.requests.rows.filter (listed shown)))).map
      (requestJson createdAt s))

def requestsShow (id : ℕ) : Response :=
  if s.db.settings.private != some "1" then
    match s.db.requests.get? id with
    | none => .nothing .notFound
    | some r => if r.workflowState = .active then .requests [requestJson createdAt s r] else .nothing .notFound
  else .nothing .unauthorized

/-- The two words that a query may contain change nothing for a visitor. -/
def tagsIndex (_query : Option String) : Response :=
  .tags ((s.tags.rows.insertionSort (fun a b => b.userCount ≤ a.userCount)).map (tagJson createdAt s))

def tagsShow (name : String) : Response :=
  match s.findTag P name with
  | none => .nothing .notFound
  | some tag => .tag (tagJson createdAt s tag)

/-- Without a locale of the site in the address the page is a redirect. -/
def requestPage (localized : Bool) (id : ℕ) : Response :=
  if localized then
    match s.db.requests.get? id with
    | none => .nothing .notFound
    | some r =>
      if r.workflowState = .disabled then .nothing .notFound
      else
        match s.db.users.get? r.userId with
        | none => .nothing .internalServerError
        | some author => .page r.subject author.name
  else .redirect

def respond : Endpoint → Response
  | .requestsIndex params => requestsIndex P createdAt s params
  | .requestsShow id => requestsShow createdAt s id
  | .tagsIndex query => tagsIndex createdAt s query
  | .tagsShow name => tagsShow P createdAt s name
  | .requestPage localized id => requestPage s localized id

end Visitor

end Blnkk
