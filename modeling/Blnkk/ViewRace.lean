import Blnkk.ScoreInvariant

/-!
One client's view of a request, statement by statement, among complete calls
of other clients that rate the same request or comment on it.
-/

namespace Blnkk

open Relational

def Request.viewed (r : Request) (reach : ℤ) : Request :=
  { r with
    userReachCount := reach
    rawScore := r.likeCount + 2 * r.commentCount
    score := quotient (r.likeCount + 2 * r.commentCount) reach }

theorem rescore_view (db : Db) (r : Request) : r.rescore db .view = r.viewed (db.viewingsCount r.id) := rfl

theorem Viewing.index_counted (v : Viewing) : ({ v with viewCount := v.viewCount + 1 } : Viewing).index = v.index := rfl

inductive ViewState where
  | start
  | loaded (row : Request)
  | missing (row : Request)
  | present (row : Request)
  | incremented (row : Request)
  | counted (row : Request) (reach : ℤ)
  | done

namespace ViewState

def row? : ViewState → Option Request
  | start => none
  | loaded row => some row
  | missing row => some row
  | present row => some row
  | incremented row => some row
  | counted row _ => some row
  | done => none

def next (me id : ℕ) (db : Db) : ViewState → Db × ViewState
  | start =>
    match db.requests.get? id with
    | some row => (db, if row.workflowState = .active then loaded row else done)
    | none => (db, done)
  | loaded row => (db, if db.viewings.has (.request row.id, me) then present row else missing row)
  | missing row =>
    match db.viewings.insert { viewable := .request row.id, userId := me } with
    | some viewings => ({ db with viewings }, present row)
    | none => (db, done)
  | present row =>
    ({ db with
        viewings := db.viewings.update (.request row.id, me) (fun v => { v with viewCount := v.viewCount + 1 })
          Viewing.index_counted },
      incremented row)
  | incremented row => (db, counted row (db.viewingsCount row.id))
  | counted row reach =>
    ({ db with requests := db.requests.update row.id (fun r => r.scoreColumns (row.viewed reach)) }, done)
  | done => (db, done)

end ViewState

inductive ViewEvent where
  | view
  | rate (user : ℕ) (rating : Param)
  | comment (user : ℕ) (content : String)

structure ViewRun where
  db : Db
  view : ViewState

def ViewRun.step (me id : ℕ) (s : ViewRun) : ViewEvent → ViewRun
  | .view => ⟨(s.view.next me id s.db).1, (s.view.next me id s.db).2⟩
  | .rate user rating => { s with db := s.db.rateRequest user id rating }
  | .comment user content => { s with db := (CommentsController.create s.db user id content).2.1 }

theorem view_alone {db : Db} {me id : ℕ} {row : Request} (hr : db.requests.get? id = some row)
    (ha : row.workflowState = .active) :
    ∃ n, Transition.run (ViewRun.step me id) ⟨db, .start⟩ (List.replicate n .view) =
      ⟨RequestsController.view me db row, .done⟩ := by
  cases hv : db.viewings.has (.request row.id, me) with
  | true =>
    have he : db.viewings.ensure { viewable := .request row.id, userId := me } = db.viewings :=
      Table.ensure_of_has hv
    refine ⟨5, ?_⟩
    simp only [Transition.run, List.replicate, List.foldl_cons, List.foldl_nil, ViewRun.step, ViewState.next, hr, ha,
      if_true, hv, RequestsController.view, Request.updateScore, rescore_view, Db.addViewing, he]
  | false =>
    have hn : db.viewings.get? (Viewing.index { viewable := .request row.id, userId := me }) = none :=
      (db.viewings.has_false_iff _).mp hv
    have hi : db.viewings.insert { viewable := .request row.id, userId := me } = some (db.viewings.push _ hn) :=
      dif_pos hn
    have he : db.viewings.ensure { viewable := .request row.id, userId := me } = db.viewings.push _ hn := by
      rw [Table.ensure, hi, Option.getD_some]
    refine ⟨6, ?_⟩
    simp only [Transition.run, List.replicate, List.foldl_cons, List.foldl_nil, ViewRun.step, ViewState.next, hr, ha,
      if_true, hv, Bool.false_eq_true, if_false, hi, RequestsController.view, Request.updateScore, rescore_view,
      Db.addViewing, he]

def Db.countColumns (db : Db) (id : ℕ) : Option (ℤ × ℤ × ℤ) :=
  (db.requests.get? id).map (fun r => (r.likeCount, r.reportCount, r.commentCount))

structure Counted (db : Db) (id : ℕ) (r : Request) : Prop where
  likeCount : r.likeCount = db.likersCount (.request id)
  reportCount : r.reportCount = db.reportersCount (.request id)
  commentCount : r.commentCount = db.requestUsersCount id - 1

def CountedRow (db : Db) (id : ℕ) : Prop := ∃ r, db.requests.get? id = some r ∧ Counted db id r

theorem countedRow_updateScore {db mid : Db} {id : ℕ} {r : Request} {action : ScoreAction}
    (hr : db.requests.get? id = some r) (hq : mid.requests = db.requests)
    (hl : action = .rate ∨ (r.likeCount = mid.likersCount (.request id) ∧
      r.reportCount = mid.reportersCount (.request id)))
    (hc : action = .comment ∨ r.commentCount = mid.requestUsersCount id - 1) :
    CountedRow (r.updateScore mid action) id := by
  have hid : r.id = id := Table.get?_key hr
  refine ⟨r.scoreColumns (r.rescore mid action), ?_, ?_⟩
  · rw [Request.get?_updateScore, if_pos hid.symm, hq, hr]
    rfl
  · subst hid
    refine ⟨?_, ?_, ?_⟩
    · simp only [Request.scoreColumns, Request.rescore]
      split_ifs with ha
      · rfl
      · exact (hl.resolve_left (fun h => ha (Or.inl h))).1
    · simp only [Request.scoreColumns, Request.rescore]
      split_ifs with ha
      · rfl
      · exact (hl.resolve_left (fun h => ha (Or.inl h))).2
    · simp only [Request.scoreColumns, Request.rescore]
      split_ifs with ha
      · rfl
      · exact hc.resolve_left (fun h => ha (Or.inl h))

theorem CountedRow.of_eq {db db' : Db} {id : ℕ} (h : CountedRow db id) (hq : db'.requests = db.requests)
    (hr : db'.ratings = db.ratings) (hu : db'.requestUsers = db.requestUsers) : CountedRow db' id := by
  obtain ⟨r, hg, h1, h2, h3⟩ := h
  refine ⟨r, by rw [hq, hg], ?_, ?_, ?_⟩
  · rw [h1, Db.likersCount, Db.likersCount, Db.ratingCount, Db.ratingCount, hr]
  · rw [h2, Db.reportersCount, Db.reportersCount, Db.ratingCount, Db.ratingCount, hr]
  · rw [h3, Db.requestUsersCount, Db.requestUsersCount, hu]

theorem countedRow_rate {db : Db} {id : ℕ} (h : CountedRow db id) (user : ℕ) (rating : Param) :
    CountedRow (db.rateRequest user id rating) id := by
  obtain ⟨r, hg, hr⟩ := h
  have hid : r.id = id := Table.get?_key hg
  simp only [Db.rateRequest, hg, Request.rate]
  split_ifs
  · cases db.assignRating user (.request r.id) rating with
    | error errors => exact ⟨r, hg, hr⟩
    | ok v =>
      have hm := Request.rated_maps db r user v
      have hs : CountedRow (r.updateScore (db.saveRating user (.request r.id) v) .rate) id :=
        countedRow_updateScore hg rfl (Or.inl rfl) (Or.inr hr.commentCount)
      exact hs.of_eq hm.requests hm.ratings hm.requestUsers
  · exact ⟨r, hg, hr⟩

theorem countedRow_comment {db : Db} {id : ℕ} (h : CountedRow db id) (user : ℕ) (content : String) :
    CountedRow (CommentsController.create db user id content).2.1 id := by
  obtain ⟨r, hg, hr⟩ := h
  rcases CommentsController.create_cases db user id content with ⟨r', -, hg', h⟩ | ⟨-, h⟩
  · obtain rfl := Option.some.inj (hg.symm.trans hg')
    rw [h]
    exact countedRow_updateScore hg rfl (Or.inr ⟨hr.likeCount, hr.reportCount⟩) (Or.inl rfl)
  · rw [h]
    exact ⟨r, hg, hr⟩

def ViewPending (id : ℕ) (row : Request) (s : ViewRun) : Prop :=
  ∀ r, s.view.row? = some r → r = row ∧ CountedRow s.db id

theorem viewPending_step (me id : ℕ) (row : Request) (s : ViewRun) (event : ViewEvent) (hs : s.view ≠ .start)
    (h : ViewPending id row s) :
    (s.step me id event).view ≠ .start ∧ ViewPending id row (s.step me id event) := by
  cases event with
  | rate user rating => exact ⟨hs, fun r hr => ⟨(h r hr).1, countedRow_rate (h r hr).2 user rating⟩⟩
  | comment user content => exact ⟨hs, fun r hr => ⟨(h r hr).1, countedRow_comment (h r hr).2 user content⟩⟩
  | view =>
    obtain ⟨db, view⟩ := s
    cases view with
    | start => exact absurd rfl hs
    | loaded r =>
      obtain ⟨he, hc⟩ := h r rfl
      simp only [ViewRun.step, ViewState.next]
      split_ifs
      · exact ⟨by simp, fun r' hr' => ⟨(Option.some.inj hr').symm.trans he, hc⟩⟩
      · exact ⟨by simp, fun r' hr' => ⟨(Option.some.inj hr').symm.trans he, hc⟩⟩
    | missing r =>
      obtain ⟨he, hc⟩ := h r rfl
      simp only [ViewRun.step, ViewState.next]
      cases db.viewings.insert { viewable := .request r.id, userId := me } with
      | none => exact ⟨by simp, fun r' hr' => by cases hr'⟩
      | some viewings =>
        exact ⟨by simp, fun r' hr' => ⟨(Option.some.inj hr').symm.trans he, hc.of_eq rfl rfl rfl⟩⟩
    | present r =>
      obtain ⟨he, hc⟩ := h r rfl
      exact ⟨by simp [ViewRun.step, ViewState.next],
        fun r' hr' => ⟨(Option.some.inj hr').symm.trans he, hc.of_eq rfl rfl rfl⟩⟩
    | incremented r =>
      obtain ⟨he, hc⟩ := h r rfl
      exact ⟨by simp [ViewRun.step, ViewState.next], fun r' hr' => ⟨(Option.some.inj hr').symm.trans he, hc⟩⟩
    | counted r reach => exact ⟨by simp [ViewRun.step, ViewState.next], fun r' hr' => by cases hr'⟩
    | done => exact ⟨by simp [ViewRun.step, ViewState.next], fun r' hr' => by cases hr'⟩

theorem viewPending_run (me id : ℕ) (row : Request) (events : List ViewEvent) (s : ViewRun) (hs : s.view ≠ .start)
    (h : ViewPending id row s) : ViewPending id row (Transition.run (ViewRun.step me id) s events) :=
  (Transition.run_invariant (ViewRun.step me id) (I := fun s => s.view ≠ .start ∧ ViewPending id row s)
    (fun s event hi => viewPending_step me id row s event hi.1 hi.2) s ⟨hs, h⟩ events).2

theorem countColumns_write {db : Db} {id me : ℕ} {row : Request} {reach : ℤ} (hid : row.id = id)
    (hh : db.requests.has id = true) :
    (ViewRun.step me id ⟨db, .counted row reach⟩ .view).db.countColumns id =
      some (row.likeCount, row.reportCount, row.commentCount) := by
  obtain ⟨r, hr⟩ := Option.isSome_iff_exists.mp hh
  have hg := Table.get?_update db.requests row.id (fun r => r.scoreColumns (row.viewed reach)) (fun _ => rfl) id
  rw [if_pos hid.symm, hr] at hg
  exact congrArg (Option.map (fun r => (r.likeCount, r.reportCount, r.commentCount))) hg

theorem view_write_keeps_iff (P : Platform) (db : Db) (h : Reachable P db) (me id : ℕ) (events : List ViewEvent)
    (s : ViewRun) (hrun : s = Transition.run (ViewRun.step me id) ⟨db, .start⟩ (.view :: events)) (row : Request)
    (reach : ℤ) (hs : s.view = .counted row reach) :
    (s.step me id .view).db.countColumns id = s.db.countColumns id ↔
      s.db.likersCount (.request id) = db.likersCount (.request id) ∧
      s.db.reportersCount (.request id) = db.reportersCount (.request id) ∧
      s.db.requestUsersCount id = db.requestUsersCount id := by
  rw [Transition.run_cons] at hrun
  have hfirst : ∃ r, db.requests.get? id = some r ∧ ViewRun.step me id ⟨db, .start⟩ .view = ⟨db, .loaded r⟩ := by
    have hdone : ∀ d : Db, (Transition.run (ViewRun.step me id) ⟨d, .done⟩ events).view = .done := fun d =>
      Transition.run_invariant (ViewRun.step me id) (I := fun s => s.view = .done)
        (fun s event hi => by cases event <;> simp [ViewRun.step, ViewState.next, hi]) ⟨d, .done⟩ rfl events
    cases hg : db.requests.get? id with
    | none =>
      have he : ViewRun.step me id ⟨db, .start⟩ .view = ⟨db, .done⟩ := by simp [ViewRun.step, ViewState.next, hg]
      rw [hrun, he, hdone] at hs
      cases hs
    | some r =>
      by_cases ha : r.workflowState = .active
      · exact ⟨r, rfl, by simp [ViewRun.step, ViewState.next, hg, ha]⟩
      · have he : ViewRun.step me id ⟨db, .start⟩ .view = ⟨db, .done⟩ := by
          simp [ViewRun.step, ViewState.next, hg, ha]
        rw [hrun, he, hdone] at hs
        cases hs
  obtain ⟨r, hg, he⟩ := hfirst
  have hid : r.id = id := Table.get?_key hg
  have hscored := h.scores.scored r (Table.get?_mem hg)
  have hcounted : Counted db id r := by
    rw [← hid]
    exact ⟨hscored.likeCount, hscored.reportCount, hscored.commentCount⟩
  have hp := viewPending_run me id r events ⟨db, .loaded r⟩ (by simp)
    (fun r' hr' => ⟨(Option.some.inj hr').symm, r, hg, hcounted⟩)
  rw [← he, ← hrun] at hp
  obtain ⟨hrow, r', hg', hcounted'⟩ := hp row (by rw [hs]; rfl)
  obtain ⟨d, view⟩ := s
  simp only at hs hg' hcounted' ⊢
  subst hs hrow
  rw [countColumns_write hid (Table.has_of_get? hg'), Db.countColumns, hg', Option.map_some, Option.some.injEq,
    Prod.mk.injEq, Prod.mk.injEq, hcounted.likeCount, hcounted.reportCount, hcounted.commentCount,
    hcounted'.likeCount, hcounted'.reportCount, hcounted'.commentCount]
  constructor
  · rintro ⟨h1, h2, h3⟩
    exact ⟨h1.symm, h2.symm, by omega⟩
  · rintro ⟨h1, h2, h3⟩
    exact ⟨h1.symm, h2.symm, by omega⟩

def postedRequest : Db :=
  Transition.run (step .plain) (Db.new {})
    [.signUp "ann@blnkk.com" "ann", .signUp "bob@blnkk.com" "bob", .signUp "carol@blnkk.com" "carol",
      .createRequest 1 "bike" "wanted" none]

def viewDuringLike : ViewRun :=
  Transition.run (ViewRun.step 2 1) ⟨postedRequest, .start⟩
    [.view, .view, .rate 3 (.int 1), .view, .view, .view]

theorem view_undoes_like :
    Reachable .plain postedRequest ∧
    viewDuringLike.db.countColumns 1 = some (1, 0, 0) ∧
    (viewDuringLike.step 2 1 .view).db.countColumns 1 = some (0, 0, 0) ∧
    (viewDuringLike.step 2 1 .view).db.likersCount (.request 1) = 1 :=
  ⟨⟨{}, _, rfl⟩, by decide, by decide, by decide⟩

def viewDuringWithdrawal : ViewRun :=
  Transition.run (ViewRun.step 2 1) ⟨postedRequest, .start⟩
    [.view, .view, .rate 3 (.int 0), .view, .view, .view]

theorem view_keeps_withdrawal :
    (viewDuringWithdrawal.step 2 1 .view).db.countColumns 1 = viewDuringWithdrawal.db.countColumns 1 :=
  (view_write_keeps_iff .plain postedRequest ⟨{}, _, rfl⟩ 2 1
    [.view, .rate 3 (.int 0), .view, .view, .view] viewDuringWithdrawal rfl
    { id := 1, userId := 1, subject := "bike", content := "wanted" } 1 (by rfl)).mpr (by decide)

end Blnkk
