import Blnkk.Actions
import Mathlib.Data.List.Dedup

/-!
Which actions end for a user as they end for a visitor, by the status of the
answer and the rows written.
-/

namespace Blnkk

open Relational

namespace Db

def totalViews (db : Db) : ℤ := db.viewings.sum (fun v => (v.viewCount : ℤ))

theorem totalViews_addViewing (db : Db) (id user : ℕ) : (db.addViewing id user).totalViews = db.totalViews + 1 := by
  have hensure : (db.viewings.ensure { viewable := .request id, userId := user }).sum (fun v => (v.viewCount : ℤ)) =
      db.viewings.sum (fun v => (v.viewCount : ℤ)) := by
    simp only [Table.sum, Table.ensure_rows]
    split_ifs <;> simp
  simp only [totalViews, addViewing, Table.sum_update, hensure, Table.get?_ensure, if_true, Option.map_some,
    Option.getD_some]
  omega

end Db

theorem totalViews_view (me : ℕ) (db : Db) (r : Request) :
    (RequestsController.view me db r).totalViews = db.totalViews + 1 := db.totalViews_addViewing r.id me

theorem totalViews_views (me : ℕ) (rows : List Request) (db : Db) :
    (rows.foldl (RequestsController.view me) db).totalViews = db.totalViews + rows.length := by
  induction rows generalizing db with
  | nil => simp
  | cons r rows ih =>
    rw [List.foldl_cons, ih, totalViews_view, List.length_cons]
    omega

theorem RateResult.status_ne_unauthorized (result : RateResult) : result.status ≠ .unauthorized := by
  unfold RateResult.status
  split_ifs <;> decide

namespace Action

def Harmless (P : Platform) (createdAt : ℕ → ℕ) (s : Site) (u : User) : Action → Prop
  | destroyRequest id => ∃ r, s.db.requests.get? id = some r ∧ r.userId ≠ u.id ∧ u.admin = false
  | indexRequests filter page => ∀ rows, indexPage P createdAt s (some u.id) filter page = some rows → rows = []
  | showRequest id =>
    s.db.settings.private ≠ some "1" ∧ ∀ r, s.db.requests.get? id = some r → r.workflowState ≠ .active
  | destroyComment id =>
    ∃ c, s.db.comments.get? id = some c ∧ ((c.userId ≠ u.id ∧ u.admin = false) ∨ c.enabled = false)
  | _ => False

section User

variable (P : Platform) (createdAt : ℕ → ℕ) {s : Site} {u : User}

theorem destroyRequest_cases (hu : s.db.users.get? u.id = some u) (id : ℕ) :
    (destroyRequest id).Harmless P createdAt s u ∧ RequestsController.destroy s.db u.id id = (.unauthorized, s.db) ∨
      ¬ (destroyRequest id).Harmless P createdAt s u ∧ (RequestsController.destroy s.db u.id id).1 ≠ .unauthorized := by
  simp only [RequestsController.destroy, hu, Harmless]
  cases hr : s.db.requests.get? id with
  | none => simp
  | some r =>
    by_cases ho : r.userId = u.id ∨ u.admin
    · right
      simp only [if_pos ho]
      constructor
      · rintro ⟨_, he, hn, ha⟩
        cases he
        rcases ho with ho | ho
        · exact hn ho
        · rw [ha] at ho
          cases ho
      · split_ifs <;> simp
    · left
      obtain ⟨hn, ha⟩ := not_or.mp ho
      exact ⟨⟨r, rfl, hn, by simpa using ha⟩, if_neg ho⟩

theorem destroyComment_cases (hu : s.db.users.get? u.id = some u) (id : ℕ) :
    (destroyComment id).Harmless P createdAt s u ∧ CommentsController.destroy s.db u.id id = (.unauthorized, s.db) ∨
      ¬ (destroyComment id).Harmless P createdAt s u ∧ (CommentsController.destroy s.db u.id id).1 ≠ .unauthorized := by
  simp only [CommentsController.destroy, hu, Harmless]
  cases hc : s.db.comments.get? id with
  | none => simp
  | some c =>
    by_cases ho : (c.userId = u.id ∨ u.admin) ∧ c.enabled
    · right
      simp only [if_pos ho]
      constructor
      · rintro ⟨_, he, h⟩
        cases he
        grind
      · cases s.db.requests.get? c.requestId <;> simp
    · left
      refine ⟨⟨c, rfl, ?_⟩, if_neg ho⟩
      grind

theorem index_cases (hu : s.db.users.get? u.id = some u) {rows : List Request}
    (hrows : ∀ r ∈ rows, s.db.requests.get? r.id = some r ∧ r.workflowState = .active) :
    rows = [] ∧ RequestsController.index s.db u.id (rows.map Request.id) = s.db ∨
      rows ≠ [] ∧ (RequestsController.index s.db u.id (rows.map Request.id)).totalViews ≠ s.db.totalViews := by
  have hme : s.db.users.has u.id = true := Table.has_of_get? hu
  cases rows with
  | nil => exact Or.inl ⟨rfl, by simp [RequestsController.index]⟩
  | cons r rest =>
    right
    refine ⟨List.cons_ne_nil r rest, ?_⟩
    obtain ⟨hget, hactive⟩ := hrows r List.mem_cons_self
    have hviewed : r ∈ (((r :: rest).map Request.id).dedup.filterMap s.db.requests.get?).filter
        (fun r => decide (r.workflowState = .active)) := by
      refine List.mem_filter.mpr ⟨List.mem_filterMap.mpr ⟨r.id, ?_, hget⟩, decide_eq_true hactive⟩
      exact List.mem_dedup.mpr (List.mem_map.mpr ⟨r, List.mem_cons_self, rfl⟩)
    have hlength := List.length_pos_of_mem hviewed
    simp only [RequestsController.index, if_pos hme, totalViews_views]
    omega

/-- The page exists for everybody or for nobody, and each of its requests is
counted as viewed. -/
theorem indexRequests_cases (now : ℕ) (hu : s.db.users.get? u.id = some u) (filter : RequestFilter) (page : ℕ) :
    (indexRequests filter page).Harmless P createdAt s u ∧
        (indexRequests filter page).performBy P createdAt s now u.id =
          ((indexRequests filter page).performByVisitor P createdAt s, s.db) ∨
      ¬ (indexRequests filter page).Harmless P createdAt s u ∧
        (((indexRequests filter page).performBy P createdAt s now u.id).1 ≠
            (indexRequests filter page).performByVisitor P createdAt s ∨
          ((indexRequests filter page).performBy P createdAt s now u.id).2.totalViews ≠ s.db.totalViews) := by
  have hsome := indexPage_isSome P createdAt s (some u.id) none filter page
  cases hpage : indexPage P createdAt s (some u.id) filter page with
  | none =>
    rw [hpage, Option.isSome_none] at hsome
    left
    constructor
    · intro rows h
      rw [hpage] at h
      cases h
    · simp only [performBy, hpage, performByVisitor, ← hsome, Bool.false_eq_true, if_false]
  | some rows =>
    rw [hpage, Option.isSome_some] at hsome
    simp only [performBy, hpage, performByVisitor, ← hsome, if_true, Harmless, Option.some.injEq, forall_eq']
    rcases index_cases hu (fun r => mem_indexPage P createdAt s hpage) with ⟨h, he⟩ | ⟨h, hv⟩
    · exact Or.inl ⟨h, by rw [he]⟩
    · exact Or.inr ⟨h, Or.inr hv⟩

theorem show_cases (hu : s.db.users.get? u.id = some u) (id : ℕ) :
    (showRequest id).Harmless P createdAt s u ∧
        RequestsController.show s.db u.id id = ((showRequest id).performByVisitor P createdAt s, s.db) ∨
      ¬ (showRequest id).Harmless P createdAt s u ∧
        ((RequestsController.show s.db u.id id).1 ≠ (showRequest id).performByVisitor P createdAt s ∨
          (RequestsController.show s.db u.id id).2.totalViews ≠ s.db.totalViews) := by
  have hme : s.db.users.has u.id = true := Table.has_of_get? hu
  simp only [RequestsController.show, hme, Bool.true_or, if_true, performByVisitor, Harmless]
  cases hr : s.db.requests.get? id with
  | none => by_cases hp : s.db.settings.private = some "1" <;> simp [hp]
  | some r =>
    by_cases ha : r.workflowState = .active
    · right
      refine ⟨fun h => h.2 r rfl ha, Or.inr ?_⟩
      simp only [if_pos ha, totalViews_view]
      omega
    · by_cases hp : s.db.settings.private = some "1" <;> simp [hp, ha]

theorem performBy_cases (now : ℕ) (hu : s.db.users.get? u.id = some u) (action : Action) :
    action.Harmless P createdAt s u ∧
        action.performBy P createdAt s now u.id = (action.performByVisitor P createdAt s, s.db) ∨
      ¬ action.Harmless P createdAt s u ∧
        ((action.performBy P createdAt s now u.id).1 ≠ action.performByVisitor P createdAt s ∨
          (action.performBy P createdAt s now u.id).2.totalViews ≠ s.db.totalViews) := by
  have hme : s.db.users.has u.id = true := Table.has_of_get? hu
  cases action with
  | createRequest subject content reward =>
    right
    refine ⟨fun h => h, Or.inl ?_⟩
    simp only [performBy, RequestsController.create, if_pos hme, performByVisitor]
    split_ifs <;> simp
  | destroyRequest id => exact (destroyRequest_cases P createdAt hu id).imp_right (And.imp_right Or.inl)
  | rateRequest id rating =>
    right
    refine ⟨fun h => h, Or.inl ?_⟩
    simp only [performBy, performByVisitor]
    cases s.db.requests.get? id with
    | none => simp
    | some r => exact RateResult.status_ne_unauthorized _
  | indexRequests filter page => exact indexRequests_cases P createdAt now hu filter page
  | showRequest id => exact show_cases P createdAt hu id
  | createComment request content =>
    right
    refine ⟨fun h => h, Or.inl ?_⟩
    simp only [performBy, CommentsController.create, if_pos hme, performByVisitor]
    cases s.db.requests.get? request with
    | none => simp
    | some r => simp only; split_ifs <;> simp
  | destroyComment id => exact (destroyComment_cases P createdAt hu id).imp_right (And.imp_right Or.inl)
  | rateComment id rating =>
    right
    refine ⟨fun h => h, Or.inl ?_⟩
    simp only [performBy, performByVisitor]
    cases s.db.comments.get? id with
    | none => simp
    | some c => exact RateResult.status_ne_unauthorized _
  | rateUser id rating =>
    right
    refine ⟨fun h => h, Or.inl ?_⟩
    simp only [performBy, performByVisitor]
    split_ifs
    · exact RateResult.status_ne_unauthorized _
    · simp
  | showConversation id =>
    right
    refine ⟨fun h => h, Or.inl ?_⟩
    simp only [performBy, ConversationsController.show, if_pos hme, performByVisitor]
    split_ifs <;> simp
  | rateConversation id rating =>
    right
    refine ⟨fun h => h, Or.inl ?_⟩
    simp only [performBy, performByVisitor]
    cases s.db.conversations.get? id with
    | none => simp
    | some c => exact RateResult.status_ne_unauthorized _

end User

end Action

end Blnkk
