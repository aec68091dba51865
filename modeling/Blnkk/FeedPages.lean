import Blnkk.RequestPages

/-!
The lists of posts that the browser extends while the user scrolls:
`IndexController`, `DiscoverController` and `TagShowController`. They differ in
`initializePage` only.
-/

namespace Blnkk

open Transition

structure FeedRequest where
  page : ℕ
  order : String
  deriving DecidableEq

structure FeedList where
  currentPage : ℕ := 1
  initialized : Bool := false
  order : String := "recommended"
  requests : List Request := []
  isLoadingRequests : Bool := false
  isEndOfRequests : Bool := false
  -- what `$http` and `$timeout` still owe
  outstanding : List FeedRequest := []
  timeouts : ℕ := 0
  deriving DecidableEq

/-- A response is named by the position of its request among the outstanding
ones, and comes with the list that the server cuts the page out of. -/
inductive FeedEvent where
  | initializePage (connected : Bool) (cookie : Option String)
  | setOrder (connected : Bool) (order : String)
  | getNextRequests
  | resolve (i : ℕ) (matching : List Request)
  | reject (i : ℕ)
  | timeout
  deriving DecidableEq

namespace FeedList

variable (l : FeedList)

def getRequests : FeedList :=
  { l with isLoadingRequests := true, outstanding := l.outstanding ++ [⟨l.currentPage, l.order⟩] }

def getNextRequests : FeedList :=
  if l.initialized && !l.isLoadingRequests && !l.isEndOfRequests then l.getRequests else l

def reloadRequests : FeedList :=
  if !l.initialized || l.isLoadingRequests then l
  else { l with currentPage := 1, isEndOfRequests := false, requests := [] }.getRequests

def setOrder (connected : Bool) (order : String) : FeedList :=
  if connected then { l with order }.reloadRequests else l

/-- The two callbacks of `getRequests`. Both leave it to a timeout to allow the
next request, after the digest or after `RETRY_INTERVAL`. -/
def resolve (i : ℕ) (matching : List Request) : FeedList :=
  match l.outstanding[i]? with
  | none => l
  | some request =>
    { l with
      requests := l.requests ++ Visitor.paginate request.page matching
      currentPage := l.currentPage + 1
      isEndOfRequests := l.isEndOfRequests || (Visitor.paginate request.page matching).isEmpty
      outstanding := l.outstanding.eraseIdx i
      timeouts := l.timeouts + 1 }

def reject (i : ℕ) : FeedList :=
  match l.outstanding[i]? with
  | none => l
  | some _ => { l with outstanding := l.outstanding.eraseIdx i, timeouts := l.timeouts + 1 }

def timeout : FeedList :=
  if l.timeouts = 0 then l else { l with isLoadingRequests := false, timeouts := l.timeouts - 1 }

end FeedList

def IndexController.initializePage (l : FeedList) (connected : Bool) (cookie : Option String) : FeedList :=
  { l with order := if connected then cookie.getD "recommended" else "top", initialized := true }.reloadRequests

/-- The page is for members: without a session nothing is loaded. -/
def DiscoverController.initializePage (l : FeedList) (connected : Bool) (cookie : Option String) : FeedList :=
  if connected then { l with order := cookie.getD "recommended", initialized := true }.reloadRequests
  else l.reloadRequests

def TagShowController.initializePage (l : FeedList) (connected : Bool) (cookie : Option String) : FeedList :=
  { l with order := if connected then cookie.getD "recommended" else "top", initialized := true }.reloadRequests

inductive FeedPage where
  | index
  | discover
  | tag
  deriving DecidableEq

namespace FeedPage

def initializePage : FeedPage → FeedList → Bool → Option String → FeedList
  | index => IndexController.initializePage
  | discover => DiscoverController.initializePage
  | tag => TagShowController.initializePage

def step (page : FeedPage) (l : FeedList) : FeedEvent → FeedList
  | .initializePage connected cookie => page.initializePage l connected cookie
  | .setOrder connected order => l.setOrder connected order
  | .getNextRequests => l.getNextRequests
  | .resolve i matching => l.resolve i matching
  | .reject i => l.reject i
  | .timeout => l.timeout

end FeedPage

/-- The server answers with the rows, newest first. -/
def FeedEvent.Answers (createdAt : ℕ → ℤ) (rows : List Request) : FeedEvent → Prop
  | .resolve _ matching => NewestFirst createdAt rows matching
  | _ => True

namespace FeedList

/-- At most one request is outstanding, for the current page, and the pages
before it have been read one after the other, an empty one being the last. -/
structure InTurn (createdAt : ℕ → ℤ) (rows : List Request) (l : FeedList) : Prop where
  busy : l.outstanding.length + l.timeouts = if l.isLoadingRequests then 1 else 0
  next : ∀ request ∈ l.outstanding, request.page = l.currentPage ∧ l.isEndOfRequests = false
  read : ∃ orders : ℕ → List Request, ∃ n, (∀ k, NewestFirst createdAt rows (orders k)) ∧ l.currentPage = n + 1 ∧
    l.requests = Paging.read 3 orders n ∧
    if l.isEndOfRequests then ∃ m, n = m + 1 ∧ Paging.EndsAt 3 orders m else ∀ k < n, Paging.page 3 k (orders k) ≠ []

namespace InTurn

variable {createdAt : ℕ → ℤ} {rows : List Request} {l : FeedList}

theorem start (createdAt : ℕ → ℤ) (rows : List Request) : InTurn createdAt rows {} where
  busy := rfl
  next := List.forall_mem_nil _
  read := by
    have hanswer : NewestFirst createdAt rows (rows.insertionSort (fun a b => createdAt b.id ≤ createdAt a.id)) :=
      Paging.answers_insertionSort (fun _ _ h => h) (fun _ _ h => (not_le.mp h).le) rows
    exact ⟨fun _ => _, 0, fun _ => hanswer, rfl, rfl, nofun⟩

theorem idle (h : InTurn createdAt rows l) (hl : l.isLoadingRequests = false) : l.outstanding = [] ∧ l.timeouts = 0 := by
  have hbusy := h.busy
  rw [hl, if_neg Bool.false_ne_true] at hbusy
  exact ⟨List.eq_nil_of_length_eq_zero (by omega), by omega⟩

theorem getRequests (h : InTurn createdAt rows l) (hl : l.isLoadingRequests = false) (he : l.isEndOfRequests = false) :
    InTurn createdAt rows l.getRequests := by
  obtain ⟨hout, htimeouts⟩ := h.idle hl
  refine ⟨?_, ?_, h.read⟩
  · simp [FeedList.getRequests, hout, htimeouts]
  · intro request hr
    simp only [FeedList.getRequests, hout, List.nil_append, List.mem_singleton] at hr
    rw [hr]
    exact ⟨rfl, he⟩

theorem getNextRequests (h : InTurn createdAt rows l) : InTurn createdAt rows l.getNextRequests := by
  unfold FeedList.getNextRequests
  split_ifs with hguard
  · simp only [Bool.and_eq_true, Bool.not_eq_true'] at hguard
    exact h.getRequests hguard.1.2 hguard.2
  · exact h

theorem reloadRequests (h : InTurn createdAt rows l) : InTurn createdAt rows l.reloadRequests := by
  unfold FeedList.reloadRequests
  split_ifs with hguard
  · exact h
  · simp only [Bool.or_eq_true, not_or, Bool.not_eq_true] at hguard
    obtain ⟨hout, htimeouts⟩ := h.idle hguard.2
    obtain ⟨orders, n, horders, -⟩ := h.read
    have hreset : InTurn createdAt rows { l with currentPage := 1, isEndOfRequests := false, requests := [] } := by
      refine ⟨h.busy, ?_, orders, 0, horders, rfl, rfl, nofun⟩
      simp [hout]
    exact hreset.getRequests hguard.2 rfl

theorem initializePage (h : InTurn createdAt rows l) (page : FeedPage) (connected : Bool) (cookie : Option String) :
    InTurn createdAt rows (page.initializePage l connected cookie) := by
  have hready : ∀ order, InTurn createdAt rows { l with order, initialized := true } :=
    fun order => ⟨h.busy, h.next, h.read⟩
  cases page with
  | index => exact (hready _).reloadRequests
  | tag => exact (hready _).reloadRequests
  | discover =>
    simp only [FeedPage.initializePage, DiscoverController.initializePage]
    split_ifs
    · exact (hready _).reloadRequests
    · exact h.reloadRequests

theorem setOrder (h : InTurn createdAt rows l) (connected : Bool) (order : String) :
    InTurn createdAt rows (l.setOrder connected order) := by
  unfold FeedList.setOrder
  split_ifs
  · have hset : InTurn createdAt rows { l with order } := ⟨h.busy, h.next, h.read⟩
    exact hset.reloadRequests
  · exact h

/-- The only outstanding request is the first one. -/
theorem outstanding (h : InTurn createdAt rows l) {i : ℕ} {request : FeedRequest} (hr : l.outstanding[i]? = some request) :
    i = 0 ∧ l.outstanding = [request] ∧ l.timeouts = 0 ∧ l.isLoadingRequests = true := by
  have hbusy := h.busy
  have hi := (List.getElem?_eq_some_iff.mp hr).1
  have hone : (if l.isLoadingRequests then 1 else 0) ≤ 1 := by split_ifs <;> omega
  obtain ⟨first, hfirst⟩ := List.length_eq_one_iff.mp (show l.outstanding.length = 1 by omega)
  have hzero : i = 0 := by
    rw [hfirst, List.length_singleton] at hi
    omega
  rw [hfirst, hzero, List.getElem?_cons_zero, Option.some.injEq] at hr
  rw [hfirst, List.length_singleton] at hbusy
  refine ⟨hzero, by rw [hfirst, hr], by omega, ?_⟩
  by_contra hl
  rw [if_neg hl] at hbusy
  omega

theorem reject (h : InTurn createdAt rows l) (i : ℕ) : InTurn createdAt rows (l.reject i) := by
  unfold FeedList.reject
  cases hr : l.outstanding[i]? with
  | none => exact h
  | some request =>
    obtain ⟨rfl, hout, htimeouts, hloading⟩ := h.outstanding hr
    refine ⟨?_, ?_, h.read⟩
    · simp [hout, htimeouts, hloading]
    · simp [hout]

theorem timeout (h : InTurn createdAt rows l) : InTurn createdAt rows l.timeout := by
  unfold FeedList.timeout
  split_ifs with hzero
  · exact h
  · have hbusy := h.busy
    have hone : (if l.isLoadingRequests then 1 else 0) ≤ 1 := by split_ifs <;> omega
    refine ⟨?_, h.next, h.read⟩
    simp only [Bool.false_eq_true, if_false]
    omega

theorem resolve (h : InTurn createdAt rows l) (i : ℕ) {matching : List Request}
    (hm : NewestFirst createdAt rows matching) : InTurn createdAt rows (l.resolve i matching) := by
  unfold FeedList.resolve
  cases hr : l.outstanding[i]? with
  | none => exact h
  | some request =>
    obtain ⟨rfl, hout, htimeouts, hloading⟩ := h.outstanding hr
    obtain ⟨hpage, hend⟩ := h.next request (by rw [hout]; exact List.mem_cons_self)
    obtain ⟨orders, n, horders, hn, hread, hnonempty⟩ := h.read
    rw [hend, if_neg Bool.false_ne_true] at hnonempty
    have hcut : Visitor.paginate request.page matching = Paging.page 3 n matching := by
      rw [hpage, hn]
      rfl
    have hearlier : ∀ k < n, Paging.page 3 k (Function.update orders n matching k) ≠ [] := by
      intro k hk
      rw [Function.update_of_ne hk.ne]
      exact hnonempty k hk
    refine ⟨?_, ?_, Function.update orders n matching, n + 1, ?_, by rw [hn], ?_, ?_⟩
    · simp [hout, htimeouts, hloading]
    · simp [hout]
    · intro k
      rcases eq_or_ne k n with rfl | hk
      · rw [Function.update_self]
        exact hm
      · rw [Function.update_of_ne hk]
        exact horders k
    · simp only [Paging.read_update, hread, hcut]
    · simp only [hend, hcut, Bool.false_or, List.isEmpty_iff]
      split_ifs with hempty
      · refine ⟨n, rfl, ?_, hearlier⟩
        rw [Function.update_self]
        exact hempty
      · intro k hk
        rcases Nat.lt_succ_iff_lt_or_eq.mp hk with hk | rfl
        · exact hearlier k hk
        · rw [Function.update_self]
          exact hempty

theorem step (h : InTurn createdAt rows l) (page : FeedPage) {event : FeedEvent} (ha : event.Answers createdAt rows) :
    InTurn createdAt rows (page.step l event) := by
  cases event with
  | initializePage connected cookie => exact h.initializePage page connected cookie
  | setOrder connected order => exact h.setOrder connected order
  | getNextRequests => exact h.getNextRequests
  | resolve i matching => exact h.resolve i ha
  | reject i => exact h.reject i
  | timeout => exact h.timeout

theorem run (page : FeedPage) {events : List FeedEvent} (ha : ∀ event ∈ events, event.Answers createdAt rows) :
    InTurn createdAt rows (Transition.run page.step {} events) := by
  have hi := invariant_of_meets page.step (I := InTurn createdAt rows) (fun _ _ hq hi => hi.step page hq) {}
    (start createdAt rows) events (meets_of_forall page.step ha {}) events.length
  rwa [List.take_length] at hi

end InTurn

/-- All pages but an empty last one hold a row. -/
theorem pages_bound {createdAt : ℕ → ℤ} {rows : List Request} {l : FeedList} (h : InTurn createdAt rows l) :
    (l.isEndOfRequests = true → rows.length ≤ 3 * (l.currentPage - 1)) ∧ 3 * (l.currentPage - 1) ≤ rows.length + 5 := by
  obtain ⟨orders, n, horders, hn, -, hend⟩ := h.read
  have hbound : ∀ m, (∀ k < m, Paging.page 3 k (orders k) ≠ []) → 3 * m < rows.length + 3 := by
    intro m hm
    cases m with
    | zero => omega
    | succ m =>
      have hlast := hm m (Nat.lt_succ_self m)
      rw [ne_eq, Paging.page_eq_nil_iff (by omega), (horders m).perm.length_eq] at hlast
      omega
  rw [hn, Nat.add_sub_cancel]
  cases he : l.isEndOfRequests with
  | false =>
    rw [he, if_neg Bool.false_ne_true] at hend
    have := hbound n hend
    exact ⟨nofun, by omega⟩
  | true =>
    rw [he, if_pos rfl] at hend
    obtain ⟨m, rfl, hm⟩ := hend
    have hlength := ((Paging.endsAt_iff (by omega) horders m).mp hm).1
    have := hbound m hm.nonempty
    exact ⟨fun _ => by omega, by omega⟩

end FeedList

theorem scrolled_feed_beginning (P : Platform) (s : Site) (viewer : Option ℕ) (filter : RequestFilter)
    (rows : List Request) (hrows : filter.requests P s viewer = some rows) (createdAt : ℕ → ℤ)
    (hseconds : ∀ r ∈ rows, newer createdAt rows r / 3 = (newer createdAt rows r + sameSecond createdAt rows r - 1) / 3)
    (page : FeedPage) (events : List FeedEvent) (hanswers : ∀ event ∈ events, event.Answers createdAt rows) :
    let l := run page.step {} events
    l.outstanding.length ≤ 1 ∧
      (∃ order, NewestFirst createdAt rows order ∧ l.requests = order.take (3 * (l.currentPage - 1))) ∧
      (l.isEndOfRequests = true → rows.length ≤ 3 * (l.currentPage - 1)) ∧
      3 * (l.currentPage - 1) ≤ rows.length + 5 := by
  intro l
  have h : l.InTurn createdAt rows := FeedList.InTurn.run page hanswers
  obtain ⟨orders, n, horders, hn, hread, -⟩ := h.read
  refine ⟨?_, ?_, FeedList.pages_bound h⟩
  · have hbusy := h.busy
    split_ifs at hbusy <;> omega
  · rw [hread, hn, Nat.add_sub_cancel]
    exact Paging.read_eq_take (by omega) (RequestFilter.requests_nodup hrows) horders hseconds n

def bikeFeed : List Request := bikeSite.db.requests.rows.reverse

def bikeScroll : List FeedEvent :=
  [.initializePage true none, .resolve 0 bikeFeed, .setOrder true "top", .timeout, .getNextRequests, .reject 0, .timeout,
    .getNextRequests, .resolve 0 bikeFeed, .timeout, .getNextRequests, .resolve 0 bikeFeed]

theorem bike_scroll_beginning :
    let l := run FeedPage.index.step {} bikeScroll
    let rows := bikeSite.db.requests.rows
    l.requests.map Request.id = [4, 3, 2, 1] ∧ l.isEndOfRequests = true ∧ l.outstanding.length ≤ 1 ∧
      (∃ order, NewestFirst (fun id => id) rows order ∧ l.requests = order.take (3 * (l.currentPage - 1))) ∧
      (l.isEndOfRequests = true → rows.length ≤ 3 * (l.currentPage - 1)) ∧
      3 * (l.currentPage - 1) ≤ rows.length + 5 := by
  have hfeed : NewestFirst (fun id => id) bikeSite.db.requests.rows bikeFeed :=
    ⟨List.reverse_perm _, by decide +kernel⟩
  refine ⟨by decide +kernel, by decide +kernel, scrolled_feed_beginning .plain bikeSite (some 1) (.feed .news) _
    (by decide +kernel) (fun id => id) (by decide +kernel) .index bikeScroll ?_⟩
  simp [bikeScroll, FeedEvent.Answers, hfeed]

end Blnkk
