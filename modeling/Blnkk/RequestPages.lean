import Blnkk.Feeds
import Blnkk.Lib.Paging
import Mathlib.Data.List.Rotate

/-!
The pages of the requests index, each of which is a query of its own that sorts
by a column of whole seconds.
-/

namespace Blnkk

open Relational Transition

inductive RequestFilter where
  | feed (f : Feed)
  | tag (name : String)
  | user (id : ℕ) (mine : Bool)
  deriving DecidableEq

namespace RequestFilter

/-- The active requests that the index lists under the filter, or none at all if
what it names does not exist. -/
def requests (P : Platform) (s : Site) (viewer : Option ℕ) : RequestFilter → Option (List Request)
  | .feed f => some (f.requests s viewer)
  | .tag name =>
    (s.findTag P name).map (fun tag => s.db.requests.rows.filter (Visitor.listed
      (fun r => s.taggings.has (tag.id, .request r.id) && decide (tag.requestId ≠ some r.id))))
  | .user id mine =>
    if s.db.users.has id then
      some (s.db.requests.rows.filter (Visitor.listed
        (fun r => if mine then decide (r.userId = id) else s.db.requestUsers.has (r.id, id))))
    else none

theorem mem_requests {P : Platform} {s : Site} {viewer : Option ℕ} {filter : RequestFilter} {rows : List Request}
    (h : filter.requests P s viewer = some rows) {r : Request} (hr : r ∈ rows) :
    r ∈ s.db.requests.rows ∧ r.workflowState = .active := by
  have hlisted : ∀ shown : Request → Bool, r ∈ s.db.requests.rows.filter (Visitor.listed shown) →
      r ∈ s.db.requests.rows ∧ r.workflowState = .active := by
    intro shown hm
    obtain ⟨hm, hshown⟩ := List.mem_filter.mp hm
    exact ⟨hm, of_decide_eq_true (Bool.and_eq_true_iff.mp hshown).1⟩
  cases filter with
  | feed f =>
    cases h
    obtain ⟨⟨t, hrow, -⟩, hactive⟩ := Feed.mem_requests.mp hr
    exact ⟨((exists_joinTaggings_iff (fun _ => True)).mp ⟨t, hrow, trivial⟩).1, hactive⟩
  | tag name =>
    obtain ⟨tag, -, rfl⟩ := Option.map_eq_some_iff.mp h
    exact hlisted _ hr
  | user id mine =>
    simp only [requests] at h
    split at h
    · cases h
      exact hlisted _ hr
    · cases h

theorem requests_nodup {P : Platform} {s : Site} {viewer : Option ℕ} {filter : RequestFilter} {rows : List Request}
    (h : filter.requests P s viewer = some rows) : rows.Nodup := by
  have htable : s.db.requests.rows.Nodup := List.Nodup.of_map _ s.db.requests.unique
  cases filter with
  | feed f =>
    cases h
    exact List.Nodup.of_map _ (Feed.nodup_requests f)
  | tag name =>
    obtain ⟨tag, -, rfl⟩ := Option.map_eq_some_iff.mp h
    exact htable.filter _
  | user id mine =>
    simp only [requests] at h
    split at h
    · cases h
      exact htable.filter _
    · cases h

end RequestFilter

/-- The pages that a client gets when it asks for them one after the other; the
list at a position is the answer that the page of that number is cut out of. -/
def pagesRead (orders : ℕ → List Request) (n : ℕ) : List Request :=
  (List.range n).flatMap (fun k => Visitor.paginate (k + 1) (orders k))

structure FirstEmptyPage (orders : ℕ → List Request) (n : ℕ) : Prop where
  empty : Visitor.paginate (n + 1) (orders n) = []
  nonempty : ∀ k < n, Visitor.paginate (k + 1) (orders k) ≠ []

/-- An answer that `ORDER BY created_at DESC` allows. -/
abbrev NewestFirst (createdAt : ℕ → ℤ) (rows order : List Request) : Prop :=
  Paging.Answers (fun r : Request => createdAt r.id) rows order

theorem firstEmptyPage_iff (orders : ℕ → List Request) (n : ℕ) :
    FirstEmptyPage orders n ↔ Paging.EndsAt 3 orders n :=
  ⟨fun h => ⟨h.empty, h.nonempty⟩, fun h => ⟨h.empty, h.nonempty⟩⟩

/-- How many requests of the list are newer than this one, and how many were
created in the same second. -/
def newer (createdAt : ℕ → ℤ) (rows : List Request) (r : Request) : ℕ :=
  rows.countP (fun q => decide (createdAt r.id < createdAt q.id))

def sameSecond (createdAt : ℕ → ℤ) (rows : List Request) (r : Request) : ℕ :=
  rows.countP (fun q => decide (createdAt q.id = createdAt r.id))

theorem pages_complete_iff (P : Platform) (s : Site) (viewer : Option ℕ) (filter : RequestFilter)
    (rows : List Request) (hrows : filter.requests P s viewer = some rows) (createdAt : ℕ → ℤ) :
    (∀ orders : ℕ → List Request, (∀ k, NewestFirst createdAt rows (orders k)) →
        ∃ n, FirstEmptyPage orders n ∧ (pagesRead orders n).Perm rows) ↔
      ∀ r ∈ rows, newer createdAt rows r / 3 = (newer createdAt rows r + sameSecond createdAt rows r - 1) / 3 := by
  simp only [firstEmptyPage_iff]
  exact Paging.read_perm_iff (by omega) (RequestFilter.requests_nodup hrows)

def bikeSite : Site :=
  run (Site.postingStep .plain id) (Site.new { adminEmail := some "ann@blnkk.com" })
    [.site (.db (.signUp "ann@blnkk.com" "ann")), .site (.db (.createRequest 1 "bike" "wanted" none)),
      .site (.db (.createRequest 1 "tent" "wanted" none)), .site (.db (.createRequest 1 "boat" "wanted" none)),
      .site (.db (.createRequest 1 "kite" "wanted" none))]

theorem bike_pages_complete :
    (RequestFilter.user 1 true).requests .plain bikeSite none = some bikeSite.db.requests.rows ∧
    ∀ orders : ℕ → List Request, (∀ k, NewestFirst (fun id => id) bikeSite.db.requests.rows (orders k)) →
      ∃ n, FirstEmptyPage orders n ∧ (pagesRead orders n).Perm bikeSite.db.requests.rows := by
  have hrows : (RequestFilter.user 1 true).requests .plain bikeSite none = some bikeSite.db.requests.rows := by
    decide +kernel
  refine ⟨hrows, (pages_complete_iff .plain bikeSite none (.user 1 true) _ hrows (fun id => id)).mpr ?_⟩
  decide +kernel

/-- All four in one second, and the second query starts with another of them
than the first. -/
theorem same_second_request_lost :
    ∃ rows, (RequestFilter.user 1 true).requests .plain bikeSite none = some rows ∧
      ∃ orders : ℕ → List Request, (∀ k, NewestFirst (fun _ => 0) rows (orders k)) ∧ FirstEmptyPage orders 2 ∧
        rows.map Request.id = [1, 2, 3, 4] ∧ (pagesRead orders 2).map Request.id = [1, 2, 3, 1] := by
  refine ⟨bikeSite.db.requests.rows, by decide +kernel,
    fun k => if k = 1 then bikeSite.db.requests.rows.rotate 1 else bikeSite.db.requests.rows, ?_, ?_, ?_, ?_⟩
  · intro k
    refine ⟨?_, ?_⟩
    · dsimp only
      split
      · exact List.rotate_perm _ _
      · exact List.Perm.refl _
    · exact List.pairwise_of_forall (fun _ _ => le_refl _)
  · refine ⟨by decide +kernel, ?_⟩
    decide +kernel
  · decide +kernel
  · decide +kernel

end Blnkk
