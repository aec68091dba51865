import Blnkk.Lib.Run

/-!
The list of users in the browser: `UserIndexController` appends whatever page
arrives, while a new order only resets the list. A new query is a parameter of
the address, so that it starts the page with a controller of its own, and what
the old one still waits for is never shown.
-/

namespace Blnkk

open Transition

inductive UserOrder where
  | relevance
  | points
  | lastSeen
  deriving DecidableEq

structure UserSearch where
  q : Option String
  order : UserOrder
  deriving DecidableEq

/-- The address that `User.getAll` asks for. -/
structure UserRequest where
  page : ℕ
  search : UserSearch
  deriving DecidableEq

/-- An empty query is left out of the address. -/
def UserService.getAll (page : ℕ) (searchQuery : Option String) (order : UserOrder) : UserRequest :=
  ⟨page, searchQuery.filter (fun q => decide (q ≠ "")), order⟩

structure UserIndex (User : Type) where
  -- `$state.params.q`
  q : Option String
  currentPage : ℕ := 1
  searchQuery : Option String
  order : UserOrder := .relevance
  users : List User := []
  isLoadingUsers : Bool := false
  isEndOfUsers : Bool := false
  -- what `$http` and `$timeout` still owe
  outstanding : List UserRequest := []
  timeouts : ℕ := 0
  -- not a variable of the controller: what the last request asked for
  requested : Option UserSearch := none
  deriving DecidableEq

/-- A response is named by the position of its request among the outstanding
ones. The search box is bound to `searchQuery`, so that typing changes it before
the form is submitted. -/
inductive UserIndexEvent where
  | enter (text : String)
  | search
  | setOrder (order : UserOrder)
  | getNextUsers
  | resolve (i : ℕ)
  | reject (i : ℕ)
  | timeout
  deriving DecidableEq

namespace UserIndex

section Controller

variable {User : Type} (answer : UserRequest → List User)

def start (q : Option String) : UserIndex User := { q, searchQuery := q }

def nextRequest (s : UserIndex User) : UserRequest := UserService.getAll s.currentPage s.searchQuery s.order

def getUsers (s : UserIndex User) : UserIndex User :=
  { s with
    isLoadingUsers := true
    outstanding := s.outstanding ++ [s.nextRequest]
    requested := some s.nextRequest.search }

def reloadUsers (s : UserIndex User) : UserIndex User :=
  getUsers { s with currentPage := 1, isEndOfUsers := false, users := [] }

/-- A changed `q` of the address enters the state anew. -/
def search (s : UserIndex User) : UserIndex User :=
  if s.searchQuery = s.q then s.reloadUsers else start s.searchQuery

def getNextUsers (s : UserIndex User) : UserIndex User :=
  if !s.isLoadingUsers && !s.isEndOfUsers then s.getUsers else s

/-- The two callbacks of `getUsers`. Both leave it to a timeout to allow the next
request, after the digest or after `RETRY_INTERVAL`. -/
def resolve (s : UserIndex User) (i : ℕ) : UserIndex User :=
  match s.outstanding[i]? with
  | none => s
  | some request =>
    { s with
      users := s.users ++ answer request
      currentPage := s.currentPage + 1
      isEndOfUsers := s.isEndOfUsers || (answer request).isEmpty
      outstanding := s.outstanding.eraseIdx i
      timeouts := s.timeouts + 1 }

def reject (s : UserIndex User) (i : ℕ) : UserIndex User :=
  match s.outstanding[i]? with
  | none => s
  | some _ => { s with outstanding := s.outstanding.eraseIdx i, timeouts := s.timeouts + 1 }

def step (s : UserIndex User) : UserIndexEvent → UserIndex User
  | .enter text => { s with searchQuery := some text }
  | .search => s.search
  | .setOrder order => { s with order := order }.reloadUsers
  | .getNextUsers => s.getNextUsers
  | .resolve i => s.resolve answer i
  | .reject i => s.reject i
  | .timeout => if s.timeouts = 0 then s else { s with isLoadingUsers := false, timeouts := s.timeouts - 1 }

def pages (search : UserSearch) (n : ℕ) : List User := (List.range n).flatMap (fun k => answer ⟨k + 1, search⟩)

/-- The pages before the current one, of what was requested last. -/
def Shows (s : UserIndex User) : Prop :=
  match s.requested with
  | none => s.users = []
  | some search => s.users = pages answer search (s.currentPage - 1)

/-- A request is sent only when none is outstanding, and one for a further page
only with the query and order of the last one. -/
def Orderly (s : UserIndex User) : UserIndexEvent → Prop
  | .search => s.searchQuery = s.q → s.outstanding = []
  | .setOrder _ => s.outstanding = []
  | .getNextUsers =>
    s.isLoadingUsers = true ∨ s.isEndOfUsers = true ∨
      s.outstanding = [] ∧ (s.currentPage = 1 ∨ s.requested = some s.nextRequest.search)
  | _ => True

/-- At most one request is outstanding, the one for the current page. -/
structure InTurn (s : UserIndex User) : Prop where
  shows : s.Shows answer
  first : s.requested = none → s.currentPage = 1
  page_pos : 1 ≤ s.currentPage
  outstanding : s.outstanding = [] ∨ ∃ search, s.requested = some search ∧ s.outstanding = [⟨s.currentPage, search⟩]

variable {answer} {s : UserIndex User}

theorem pages_succ (search : UserSearch) (n : ℕ) :
    pages answer search (n + 1) = pages answer search n ++ answer ⟨n + 1, search⟩ := by
  simp [pages, List.range_succ]

theorem Shows.users_eq_nil (h : s.Shows answer) (hpage : s.currentPage = 1) : s.users = [] := by
  simp only [Shows, hpage] at h
  split at h
  · exact h
  · exact h

theorem shows_of_requested {search : UserSearch} (hr : s.requested = some search) :
    s.Shows answer ↔ s.users = pages answer search (s.currentPage - 1) := by
  simp only [Shows, hr]

namespace InTurn

theorem start (q : Option String) : InTurn answer (start q) where
  shows := rfl
  first := fun _ => rfl
  page_pos := Nat.le_refl 1
  outstanding := Or.inl rfl

theorem getUsers (hp : 1 ≤ s.currentPage) (hout : s.outstanding = [])
    (hshown : s.users = pages answer s.nextRequest.search (s.currentPage - 1)) : InTurn answer s.getUsers where
  shows := hshown
  first := fun h => by cases h
  page_pos := hp
  outstanding := by
    refine Or.inr ⟨s.nextRequest.search, rfl, ?_⟩
    show s.outstanding ++ [s.nextRequest] = [s.nextRequest]
    rw [hout, List.nil_append]

theorem reloadUsers (hout : s.outstanding = []) : InTurn answer s.reloadUsers :=
  getUsers (Nat.le_refl 1) hout rfl

theorem getNextUsers (h : InTurn answer s) (ho : s.Orderly .getNextUsers) : InTurn answer s.getNextUsers := by
  simp only [UserIndex.getNextUsers]
  split
  next hguard =>
    simp only [Bool.and_eq_true, Bool.not_eq_true'] at hguard
    rcases ho with hl | he | ⟨hout, hsearch⟩
    · rw [hguard.1] at hl
      cases hl
    · rw [hguard.2] at he
      cases he
    · refine getUsers h.page_pos hout ?_
      rcases hsearch with hpage | hr
      · rw [h.shows.users_eq_nil hpage, hpage]
        rfl
      · exact (shows_of_requested hr).mp h.shows
  next => exact h

theorem resolve (h : InTurn answer s) (i : ℕ) : InTurn answer (s.resolve answer i) := by
  rcases h.outstanding with hout | ⟨search, hr, hout⟩
  · simpa [UserIndex.resolve, hout] using h
  · cases i with
    | succ i => simpa [UserIndex.resolve, hout] using h
    | zero =>
      have hshown := (shows_of_requested hr).mp h.shows
      have hpage : s.currentPage = (s.currentPage - 1) + 1 := by have := h.page_pos; omega
      simp only [UserIndex.resolve, hout, List.getElem?_cons_zero, List.eraseIdx_cons_zero]
      refine ⟨?_, fun hn => ?_, by simp, Or.inl rfl⟩
      · refine (shows_of_requested (by exact hr)).mpr ?_
        show s.users ++ answer ⟨s.currentPage, search⟩ = pages answer search s.currentPage
        conv_rhs => rw [hpage, pages_succ, ← hpage, ← hshown]
      · rw [hr] at hn
        cases hn

theorem reject (h : InTurn answer s) (i : ℕ) : InTurn answer (s.reject i) := by
  rcases h.outstanding with hout | ⟨search, hr, hout⟩
  · simpa [UserIndex.reject, hout] using h
  · cases i with
    | succ i => simpa [UserIndex.reject, hout] using h
    | zero =>
      simp only [UserIndex.reject, hout, List.getElem?_cons_zero, List.eraseIdx_cons_zero]
      exact ⟨h.shows, h.first, h.page_pos, Or.inl rfl⟩

theorem step (event : UserIndexEvent) (ho : s.Orderly event) (h : InTurn answer s) :
    InTurn answer (s.step answer event) := by
  cases event with
  | enter text => exact ⟨h.shows, h.first, h.page_pos, h.outstanding⟩
  | search =>
    simp only [UserIndex.step, UserIndex.search]
    split_ifs with hsame
    · exact reloadUsers (ho hsame)
    · exact start s.searchQuery
  | setOrder order => exact reloadUsers ho
  | getNextUsers => exact h.getNextUsers ho
  | resolve i => exact h.resolve i
  | reject i => exact h.reject i
  | timeout =>
    simp only [UserIndex.step]
    split
    · exact h
    · exact ⟨h.shows, h.first, h.page_pos, h.outstanding⟩

theorem run {q : Option String} {events : List UserIndexEvent}
    (hm : Meets (UserIndex.step answer) Orderly (.start q) events) (n : ℕ) :
    InTurn answer (Transition.run (UserIndex.step answer) (.start q) (events.take n)) :=
  invariant_of_meets _ (I := InTurn answer) (fun _ event => step event) _ (start q) events hm n

end InTurn

end Controller

/-- A server whose pages can all be told apart: none of them is empty, and no user
is on two of them. -/
structure Telling {User : Type} (answer : UserRequest → List User) : Prop where
  nonempty : ∀ request, answer request ≠ []
  disjoint : ∀ request request' user, user ∈ answer request → user ∈ answer request' → request = request'

section Telling

variable {User : Type} (answer : UserRequest → List User)

/-- What the user can be left with, depending on which of the outstanding
requests are answered and in what order. -/
def Settles (s : UserIndex User) : Prop :=
  ∀ responses : List ℕ, (run (step answer) s (responses.map .resolve)).outstanding = [] →
    (run (step answer) s (responses.map .resolve)).Shows answer

variable {answer} {s : UserIndex User}

theorem InTurn.settles (h : InTurn answer s) : s.Settles answer := by
  intro responses
  induction responses generalizing s with
  | nil => exact fun _ => h.shows
  | cons i responses ih => exact ih (h.resolve i)

variable (ht : Telling answer)

include ht

theorem Telling.eq_of_getLast? {request request' : UserRequest}
    (h : (answer request).getLast? = (answer request').getLast?) : request = request' := by
  have hlast := List.getLast?_eq_some_getLast (ht.nonempty request)
  exact ht.disjoint _ _ _ (List.getLast_mem (ht.nonempty request)) (List.mem_of_getLast? (h ▸ hlast))

theorem Telling.eq_of_head? {request request' : UserRequest} (h : (answer request).head? = (answer request').head?) :
    request = request' := by
  have hhead := List.head?_eq_some_head (ht.nonempty request)
  exact ht.disjoint _ _ _ (List.head_mem (ht.nonempty request)) (List.mem_of_head? (h ▸ hhead))

/-- The page of the second request is then one behind its place in the list. -/
theorem not_settles_of_two {a : UserRequest} {search : UserSearch} (hr : s.requested = some search)
    (hout : s.outstanding = [a, ⟨s.currentPage, search⟩]) : ¬ s.Settles answer := by
  intro h
  have hshown := h [0, 0] (by simp [run, step, resolve, hout])
  simp only [run, List.map_cons, List.map_nil, List.foldl_cons, List.foldl_nil, step, resolve, hout,
    List.getElem?_cons_zero, List.eraseIdx_cons_zero, Shows, hr, Nat.add_sub_cancel, pages_succ] at hshown
  have hlast := congrArg List.getLast? hshown
  rw [List.getLast?_append_of_ne_nil _ (ht.nonempty _), List.getLast?_append_of_ne_nil _ (ht.nonempty _)] at hlast
  have hpage := congrArg UserRequest.page (ht.eq_of_getLast? hlast)
  simp at hpage

theorem head?_pages (search : UserSearch) (n : ℕ) : (pages answer search (n + 1)).head? = (answer ⟨1, search⟩).head? := by
  simp only [pages, List.range_succ_eq_map, List.flatMap_cons]
  exact List.head?_append_of_ne_nil _ (ht.nonempty _)

theorem not_settles_of_other {search search' : UserSearch} (hp : 1 < s.currentPage)
    (hshown : s.users = pages answer search (s.currentPage - 1)) (hne : search ≠ search')
    (hr : s.requested = some search') (hout : s.outstanding = [⟨s.currentPage, search'⟩]) : ¬ s.Settles answer := by
  intro h
  have hshown' := h [0] (by simp [run, step, resolve, hout])
  obtain ⟨n, hn⟩ : ∃ n, s.currentPage = n + 2 := ⟨s.currentPage - 2, by omega⟩
  have hpages : pages answer search (n + 1) ≠ [] := by
    intro hnil
    have hhead := head?_pages ht search n
    rw [hnil] at hhead
    exact ht.nonempty _ (List.head?_eq_none_iff.mp hhead.symm)
  simp only [run, List.map_cons, List.map_nil, List.foldl_cons, List.foldl_nil, step, resolve, hout,
    List.getElem?_cons_zero, List.eraseIdx_cons_zero, Shows, hr, Nat.add_sub_cancel, hshown, hn] at hshown'
  have hhead := congrArg List.head? hshown'
  rw [show n + 2 - 1 = n + 1 from rfl, List.head?_append_of_ne_nil _ hpages, head?_pages ht, head?_pages ht] at hhead
  exact hne (congrArg UserRequest.search (ht.eq_of_head? hhead))

theorem not_settles (h : InTurn answer s) {event : UserIndexEvent} (ho : ¬ s.Orderly event) :
    ¬ (s.step answer event).Settles answer := by
  -- a reload next to an outstanding request
  have hreload : ∀ s' : UserIndex User, s'.outstanding = s.outstanding → s.outstanding ≠ [] →
      ¬ s'.reloadUsers.Settles answer := by
    intro s' hsame hne
    obtain ⟨search, -, hout⟩ := h.outstanding.resolve_left hne
    refine not_settles_of_two ht (a := ⟨s.currentPage, search⟩) (show _ = some s'.nextRequest.search from rfl) ?_
    show s'.outstanding ++ _ = _
    rw [hsame, hout]
    rfl
  cases event with
  | search =>
    obtain ⟨hsame, hne⟩ := Classical.not_imp.mp ho
    rw [step, search, if_pos hsame]
    exact hreload s rfl hne
  | setOrder order => exact hreload _ rfl ho
  | getNextUsers =>
    simp only [Orderly, not_or, Bool.not_eq_true] at ho
    obtain ⟨hloading, hend, hnot⟩ := ho
    have hsend : s.step answer .getNextUsers = s.getUsers := by
      simp [step, getNextUsers, hloading, hend]
    rw [hsend]
    rcases h.outstanding with hout | ⟨search, -, hout⟩
    · simp only [hout, true_and, not_or] at hnot
      obtain ⟨hpage, hother⟩ := hnot
      have hp := h.page_pos
      obtain ⟨search, hr⟩ : ∃ search, s.requested = some search :=
        Option.ne_none_iff_exists'.mp (fun hn => hpage (h.first hn))
      rw [hr, Option.some_inj] at hother
      refine not_settles_of_other ht (show 1 < s.currentPage by omega) ((shows_of_requested hr).mp h.shows) hother rfl ?_
      show s.outstanding ++ _ = _
      rw [hout]
      rfl
    · refine not_settles_of_two ht (a := ⟨s.currentPage, search⟩) (show _ = some s.nextRequest.search from rfl) ?_
      show s.outstanding ++ _ = _
      rw [hout]
      rfl
  | _ => exact absurd trivial ho

end Telling

/-- The server that answers with the request itself. -/
def stamp (request : UserRequest) : List UserRequest := [request]

theorem stamp_telling : Telling stamp where
  nonempty := fun request => List.cons_ne_nil request []
  disjoint := fun _ _ _ h h' => (List.mem_singleton.mp h).symm.trans (List.mem_singleton.mp h')

end UserIndex

end Blnkk
