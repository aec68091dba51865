import Blnkk.AccountFrame

/-!
The cached number of active requests of a user. It is recounted after every
transition of the workflow, but for the user who is signed in and not for the
author when a request is deleted through the API.
-/

namespace Blnkk

open Relational

def RequestsCounted (db : Db) : Prop := ∀ u ∈ db.users.rows, u.requestCount = db.activeRequests u.id

theorem requestsCounted_iff (db : Db) :
    RequestsCounted db ↔
      ∀ k n, (db.users.get? k).map User.requestCount = some n → n = db.activeRequests k := by
  constructor
  · intro h k n hn
    obtain ⟨u, hu, rfl⟩ := Option.map_eq_some_iff.mp hn
    rw [← Table.get?_key hu]
    exact h u (Table.get?_mem hu)
  · intro h u hu
    apply h
    rw [Table.get?_of_mem hu]
    rfl

theorem activeRequests_congr {db db' : Db} (h : db'.requests.rows.map Request.post = db.requests.rows.map Request.post)
    (k : ℕ) : db'.activeRequests k = db.activeRequests k := by
  have hcount : ∀ d : Db, d.activeRequests k =
      ((d.requests.rows.map Request.post).countP (fun p => decide (p.2.1 = k) && decide (p.2.2 = .active)) : ℕ) := by
    intro d
    rw [List.countP_map]
    rfl
  rw [hcount, hcount, h]

theorem RequestsCounted.of_kept {db db' : Db} (h : RequestsCounted db) (hk : AccountsKept db db') :
    RequestsCounted db' := by
  rw [requestsCounted_iff] at h ⊢
  intro k n hn
  rw [hk.observed User.requestCount (fun _ => rfl)] at hn
  rw [activeRequests_congr hk.requests]
  exact h k n hn

theorem requestCount_recount (db : Db) (k j : ℕ) :
    ((db.recountRequests k).users.get? j).map User.requestCount =
      if j = k then (db.users.get? j).map (fun _ => db.activeRequests k)
      else (db.users.get? j).map User.requestCount := by
  rw [Db.recountRequests,
    (MapsUsers.updateUser db k (fun u => { u with requestCount := db.activeRequests k }) (fun _ => rfl)).get? j,
    Option.map_map]
  by_cases hj : j = k
  · simp [hj, Function.comp_def]
  · simp [hj, Function.comp_def]

theorem recount_counted_iff (db : Db) (k : ℕ) :
    RequestsCounted (db.recountRequests k) ↔
      ∀ j ≠ k, ∀ n, (db.users.get? j).map User.requestCount = some n → n = db.activeRequests j := by
  rw [requestsCounted_iff]
  constructor
  · intro h j hj n hn
    apply h j n
    rw [requestCount_recount, if_neg hj, hn]
  · intro h j n hn
    rw [requestCount_recount] at hn
    by_cases hj : j = k
    · rw [if_pos hj] at hn
      obtain ⟨-, -, rfl⟩ := Option.map_eq_some_iff.mp hn
      rw [hj]
      rfl
    · rw [if_neg hj] at hn
      exact h j hj n hn

theorem activeRequests_post (db : Db) (me : ℕ) (subject content : String) (reward : Option String) {j : ℕ}
    (hj : j ≠ me) : (RequestsController.post db me subject content reward).activeRequests j = db.activeRequests j := by
  rw [Db.activeRequests, RequestsController.post, Table.count_append (Table.insertFresh_rows _ _ _)]
  simp [Db.activeRequests, hj.symm]

theorem create_counted (P : Platform) {db : Db} (h : RequestsCounted db) (me : ℕ) (subject content : String)
    (reward : Option String) : RequestsCounted (RequestsController.create P db me subject content reward).2 := by
  rcases RequestsController.create_cases P db me subject content reward with hc | ⟨-, hc⟩
  · rwa [hc]
  · rw [hc]
    apply (recount_counted_iff _ me).mpr
    intro j hj n hn
    rw [activeRequests_post db me _ _ _ hj]
    exact (requestsCounted_iff db).mp h j n hn

theorem activeRequests_setWorkflowState {db : Db} {id : ℕ} {r : Request} (hr : db.requests.get? id = some r)
    (state : WorkflowState) (j : ℕ) :
    (db.setWorkflowState id state).activeRequests j =
      db.activeRequests j +
        if r.userId = j then (if state = .active then 1 else 0) - (if r.workflowState = .active then 1 else 0) else 0 := by
  rw [Db.activeRequests, Db.activeRequests, Table.intCount_eq_sum, Table.intCount_eq_sum, Db.setWorkflowState]
  refine (Table.sum_update db.requests id (fun r => { r with workflowState := state }) (fun _ => rfl) _).trans ?_
  rw [hr, Option.map_some, Option.getD_some]
  by_cases hj : r.userId = j
  · simp [hj]
  · simp [hj]

/-- A transition of the workflow with a recount keeps the counters right exactly
if it is the author whose requests are recounted. -/
theorem transition_counted_iff {db : Db} (hc : Consistent db) (h : RequestsCounted db) {id : ℕ} {r : Request}
    (hr : db.requests.get? id = some r) {state : WorkflowState} (hs : r.workflowState ≠ state) (k : ℕ) :
    RequestsCounted ((db.setWorkflowState id state).recountRequests k) ↔ r.userId = k := by
  rw [recount_counted_iff]
  constructor
  · intro hcounted
    by_contra hk
    -- the author exists, was counted right, and now has one active request more or less
    obtain ⟨author, ha⟩ := Option.isSome_iff_exists.mp (hc.author (Table.get?_mem hr))
    have hcount : (db.users.get? r.userId).map User.requestCount = some author.requestCount := by
      rw [ha]
      rfl
    have hbefore := (requestsCounted_iff db).mp h r.userId _ hcount
    have hafter := hcounted r.userId hk _ hcount
    rw [activeRequests_setWorkflowState hr, if_pos rfl] at hafter
    cases hw : r.workflowState with
    | active =>
      cases state with
      | active => exact hs hw
      | disabled => simp [hw] at hafter; omega
    | disabled =>
      cases state with
      | active => simp [hw] at hafter; omega
      | disabled => exact hs hw
  · rintro rfl j hj n hn
    rw [activeRequests_setWorkflowState hr, if_neg (Ne.symm hj), add_zero]
    exact (requestsCounted_iff db).mp h j n hn

theorem signUp_counted (P : Platform) {db : Db} (hc : Consistent db) (h : RequestsCounted db) (email name : String) :
    RequestsCounted (signUp P db email name) := by
  unfold signUp
  cases hu : createUser P db email name with
  | error failure => exact h
  | ok result =>
    obtain ⟨-, -, -, -, hf⟩ := createUser_ok hu
    refine RequestsCounted.of_kept ?_ (autoFollow_kept _ _ _ _ hf)
    intro u hm
    rcases List.mem_append.mp hm with hm | hm
    · exact h u hm
    · obtain rfl := List.mem_singleton.mp hm
      -- nobody can have posted under an id that is not given yet
      have hnone : ∀ r ∈ db.requests.rows, r.userId ≠ db.users.fresh := by
        intro r hr hid
        have hhas := hc.author hr
        rw [hid, Table.has_fresh] at hhas
        cases hhas
      have hzero : db.requests.rows.countP
          (fun r => decide (r.userId = db.users.fresh) && decide (r.workflowState = .active)) = 0 := by
        apply List.countP_eq_zero.mpr
        intro r hr
        simp [hnone r hr]
      exact (congrArg Int.ofNat hzero).symm

theorem updateAttributes_requestCount (P : Platform) (db : Db) (u : User) (params : ParamsHash) (k : ℕ) :
    ((u.updateAttributes P db params).2.users.get? k).map User.requestCount =
      (db.users.get? k).map User.requestCount := by
  rcases u.updateAttributes_cases P db params with h | ⟨email, name, h⟩
  · rw [h]
  · rw [h]
    apply updateUser_observed User.requestCount
    exact fun _ _ => rfl

theorem manageUser_counted (P : Platform) {db : Db} (h : RequestsCounted db) (me : ℕ) (action : UserAction) :
    RequestsCounted (action.perform P db me) := by
  rcases action.perform_cases P db me with he | ⟨user, params, -, he, -⟩
  · rw [he]
    exact h
  · rw [requestsCounted_iff] at h ⊢
    intro k n hn
    rw [he, updateAttributes_requestCount] at hn
    rw [he, activeRequests_congr (congrArg (fun t => t.rows.map Request.post) (updateAttributes_requests P db user params))]
    exact h k n hn

def Op.DeletesForAuthor (db : Db) : Op → Prop
  | .destroyRequest me id =>
    ∃ admin request, db.users.get? me = some admin ∧ admin.admin = true ∧ db.requests.get? id = some request ∧
      request.workflowState = .active ∧ request.userId ≠ me
  | _ => False

theorem destroy_counted_iff {db : Db} (hc : Consistent db) (h : RequestsCounted db) (me id : ℕ) :
    RequestsCounted (RequestsController.destroy db me id).2 ↔ ¬ Op.DeletesForAuthor db (.destroyRequest me id) := by
  unfold RequestsController.destroy
  cases hu : db.users.get? me with
  | none =>
    refine iff_of_true h ?_
    rintro ⟨admin, request, hadmin, -⟩
    rw [hu] at hadmin
    cases hadmin
  | some user =>
    cases hr : db.requests.get? id with
    | none =>
      refine iff_of_true h ?_
      rintro ⟨admin, request, -, -, hrequest, -⟩
      rw [hr] at hrequest
      cases hrequest
    | some request =>
      simp only
      have hforAuthor : Op.DeletesForAuthor db (.destroyRequest me id) ↔
          user.admin = true ∧ request.workflowState = .active ∧ request.userId ≠ me := by
        constructor
        · rintro ⟨admin, r, hadmin, hflag, hrequest, hactive, hne⟩
          obtain rfl := Option.some.inj (hu.symm.trans hadmin)
          obtain rfl := Option.some.inj (hr.symm.trans hrequest)
          exact ⟨hflag, hactive, hne⟩
        · rintro ⟨hflag, hactive, hne⟩
          exact ⟨user, request, hu, hflag, hr, hactive, hne⟩
      rw [hforAuthor]
      by_cases hallowed : request.userId = me ∨ user.admin = true
      · rw [if_pos hallowed]
        by_cases hw : request.workflowState = .active
        · rw [if_pos hw, transition_counted_iff hc h hr (by rw [hw]; decide)]
          constructor
          · exact fun hme hno => hno.2.2 hme
          · intro hno
            by_contra hne
            exact hno ⟨hallowed.resolve_left hne, hw, hne⟩
        · rw [if_neg hw]
          exact iff_of_true h (fun hno => hw hno.2.1)
      · rw [if_neg hallowed]
        exact iff_of_true h (fun hno => hallowed (Or.inr hno.1))

theorem update_counted {db : Db} (hc : Consistent db) (h : RequestsCounted db) (id : ℕ)
    (event : AdminRequestsController.Event) : RequestsCounted (AdminRequestsController.update db id event) := by
  rcases AdminRequestsController.update_cases db id event with he | ⟨request, hr, hw, he⟩
  · rw [he]
    exact h
  · rw [he]
    refine (transition_counted_iff hc h hr ?_ request.userId).mpr rfl
    rw [hw]
    cases event <;> decide

theorem step_counted_iff (P : Platform) (db : Db) (op : Op) (hc : Consistent db) (h : RequestsCounted db) :
    RequestsCounted (step P db op) ↔ ¬ op.DeletesForAuthor db := by
  have hkept : ∀ {db'}, AccountsKept db db' → (RequestsCounted db' ↔ ¬ False) :=
    fun hk => iff_of_true (h.of_kept hk) id
  cases op with
  | destroyRequest me id => exact destroy_counted_iff hc h me id
  | signUp email name => exact iff_of_true (signUp_counted P hc h email name) id
  | createRequest me subject content reward => exact iff_of_true (create_counted P h me subject content reward) id
  | updateRequest id event => exact iff_of_true (update_counted hc h id event) not_false
  | manageUser me action => exact iff_of_true (manageUser_counted P h me action) id
  | invite me email => exact hkept (invite_kept db me email)
  | updateSetting setting value => exact hkept (.of_eq rfl rfl)
  | createComment me request content => exact hkept (createComment_kept db me request content)
  | destroyComment me id => exact hkept (destroyComment_kept db me id)
  | rateUser me id rating => exact hkept (rate_kept P db me id rating).1
  | rateRequest me id rating => exact hkept (rate_kept P db me id rating).2.1
  | rateComment me id rating => exact hkept (rate_kept P db me id rating).2.2.1
  | rateConversation me id rating => exact hkept (rate_kept P db me id rating).2.2.2
  | indexRequests me page => exact hkept (index_kept db me page)
  | showRequest me id => exact hkept (show_kept db me id)
  | showConversation now me id => exact hkept (showConversation_kept db now me id)
  | postMessage now online me payload => exact hkept (ConversationsSocket.postMessage_kept P db now online me payload)
  | conversationRead now me userId conversationId =>
    exact hkept (conversationRead_kept db now me userId conversationId)
  | notifyUnread now => exact hkept (.of_eq rfl rfl)

theorem step_consistent (P : Platform) (db : Db) (op : Op) (h : Consistent db) : Consistent (step P db op) :=
  (step_changes P db op).invariant (fun _ _ => Change.consistent) h

theorem request_counts_iff (P : Platform) (settings : Settings) (ops : List Op) :
    (∀ n, RequestsCounted (Transition.run (step P) (Db.new settings) (ops.take n))) ↔
      Transition.Meets (step P) (fun db op => ¬ op.DeletesForAuthor db) (Db.new settings) ops :=
  Transition.forall_states_iff_meets_of_invariant (step P) (J := Consistent) (step_consistent P)
    (step_counted_iff P) (Db.new settings) (consistent_new settings) (fun _ h => absurd h List.not_mem_nil) ops

/-- Ann, who is the admin of the site, deletes Bob's only request. -/
def annDeletesForBob : Db :=
  Transition.run (step .plain) (Db.new { adminEmail := some "ann@blnkk.com" })
    [.signUp "ann@blnkk.com" "ann", .signUp "bob@mail.org" "bob", .createRequest 2 "bike" "wanted" none,
      .destroyRequest 1 1]

theorem bobs_request_still_counted :
    ∃ bob ∈ annDeletesForBob.users.rows, bob.requestCount = 1 ∧ annDeletesForBob.activeRequests bob.id = 0 := by
  decide +kernel

end Blnkk
