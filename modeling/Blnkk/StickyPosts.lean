import Blnkk.AccountFrame
import Blnkk.TagActions
import Blnkk.VisitorPages

/-!
The sticky request of a tag. Deleting a request through the API takes it away
from its tags; the admin panel disables it and leaves the tags as they are, and
an admin can make a disabled request sticky.
-/

namespace Blnkk

open Relational

def Db.Active (db : Db) (id : ℕ) : Prop := (db.requests.get? id).map Request.workflowState = some .active

def StickyActive (s : Site) : Prop := ∀ tag ∈ s.tags.rows, ∀ id, tag.requestId = some id → s.db.Active id

/-- The tags page never shows a request that is disabled. -/
def ShowsActive (P : Platform) (s : Site) : Prop :=
  ∀ createdAt name tag request, Visitor.tagsShow P createdAt s name = .tag tag → tag.request = some request →
    s.db.Active request.id

theorem StickyActive.shows {s : Site} (h : StickyActive s) (P : Platform) : ShowsActive P s := by
  intro createdAt name json request hshow hrequest
  unfold Visitor.tagsShow at hshow
  cases hf : s.findTag P name with
  | none =>
    rw [hf] at hshow
    cases hshow
  | some tag =>
    rw [hf] at hshow
    cases hshow
    obtain ⟨row, hrow, rfl⟩ := Option.map_eq_some_iff.mp hrequest
    obtain ⟨id, hid, hget⟩ := Option.bind_eq_some_iff.mp hrow
    have hactive := h tag (List.mem_of_find?_eq_some hf) id hid
    have hkey : row.id = id := Table.get?_key hget
    show s.db.Active row.id
    rw [hkey]
    exact hactive

theorem active_congr {db db' : Db} (h : db'.requests.rows.map Request.post = db.requests.rows.map Request.post) (id : ℕ) :
    db'.Active id ↔ db.Active id := by
  have hfind : ∀ d : Db, (d.requests.get? id).map Request.post =
      (d.requests.rows.map Request.post).find? (fun post => decide (post.1 = id)) := by
    intro d
    rw [List.find?_map]
    rfl
  have hstate : ∀ d : Db, (d.requests.get? id).map Request.workflowState =
      ((d.requests.get? id).map Request.post).map (fun post => post.2.2) := by
    intro d
    rw [Option.map_map]
    rfl
  rw [Db.Active, Db.Active, hstate, hstate, hfind, hfind, h]

structure StickyKept (s s' : Site) : Prop where
  active : ∀ id, s.db.Active id → s'.db.Active id
  sticky : ∀ tag' ∈ s'.tags.rows, ∀ id, tag'.requestId = some id → ∃ tag ∈ s.tags.rows, tag.requestId = some id

namespace StickyKept

variable {s s' s'' : Site}

theorem of_db (h : ∀ id, s.db.Active id → s'.db.Active id) (ht : s'.tags = s.tags) : StickyKept s s' :=
  ⟨h, fun tag hm _ hid => ⟨tag, ht ▸ hm, hid⟩⟩

theorem refl (s : Site) : StickyKept s s := of_db (fun _ h => h) rfl

theorem trans (h : StickyKept s s') (h' : StickyKept s' s'') : StickyKept s s'' := by
  refine ⟨fun id ha => h'.active id (h.active id ha), fun tag hm id hid => ?_⟩
  obtain ⟨tag', hm', hid'⟩ := h'.sticky tag hm id hid
  exact h.sticky tag' hm' id hid'

theorem stickyActive (h : StickyKept s s') (hs : StickyActive s) : StickyActive s' := by
  intro tag hm id hid
  obtain ⟨tag', hm', hid'⟩ := h.sticky tag hm id hid
  exact h.active id (hs tag' hm' id hid')

theorem of_requests {db' : Db} (h : db'.requests = s.db.requests) : StickyKept s { s with db := db' } := by
  refine of_db (fun id ha => ?_) rfl
  rw [Db.Active, h]
  exact ha

theorem of_accounts {db' : Db} (h : AccountsKept s.db db') : StickyKept s { s with db := db' } :=
  of_db (fun id => (active_congr h.requests id).mpr) rfl

theorem updateTags (s : Site) (p : Tag → Bool) (f : Tag → Tag) (hf : ∀ tag, (f tag).id = tag.id)
    (hr : ∀ tag, (f tag).requestId = tag.requestId) : StickyKept s { s with tags := s.tags.updateWhere p f hf } := by
  refine ⟨fun _ h => h, fun tag' hm id hid => ?_⟩
  obtain ⟨tag, htag, rfl⟩ := List.mem_map.mp hm
  refine ⟨tag, htag, ?_⟩
  split_ifs at hid
  · rw [← hr tag]
    exact hid
  · exact hid

theorem populate (s : Site) (tag : ℕ) : StickyKept s (s.populate tag) := updateTags s _ _ _ (fun _ => rfl)

theorem follow (s : Site) (tag user : ℕ) : StickyKept s (s.follow tag user) := of_db (fun _ h => h) rfl

theorem foldl (f : Site → ℕ → Site) (hf : ∀ site tag, StickyKept site (f site tag)) (tags : List ℕ) (s : Site) :
    StickyKept s (tags.foldl f s) := by
  induction tags generalizing s with
  | nil => exact refl s
  | cons tag rest ih => exact (hf s tag).trans (ih (f s tag))

end StickyKept

section Actions

variable (P : Platform) (s : Site)

theorem signUp_sticky (email name : String) : StickyKept s (s.signUp P email name) := by
  unfold Site.signUp
  cases hu : createUser P s.db email name with
  | error failure => exact .refl s
  | ok result =>
    obtain ⟨-, -, -, -, hf⟩ := createUser_ok hu
    have hdb : StickyKept s { s with db := result.2 } := by
      refine .of_db (fun id ha => ?_) rfl
      exact (active_congr (autoFollow_kept _ _ _ _ hf).requests id).mpr ha
    refine (hdb.trans ?_).trans (.foldl Site.populate (fun site tag => .populate site tag) _ _)
    exact .foldl _ (fun site tag => .follow site tag result.1) _ _

theorem addTag_sticky (me : ℕ) (name : String) : StickyKept s (UsersController.addTag P s me name).2 := by
  rcases UsersController.addTag_cases P s me name with h | ⟨user, tag, -, -, h⟩
  · rw [h]
    exact .refl s
  · have hsaved : StickyKept s { s with db := (user.updateAttributes P s.db []).2 } :=
      .of_requests (updateAttributes_requests P s.db user [])
    rw [h]
    exact (hsaved.trans (.follow _ tag.id me)).trans (.populate _ tag.id)

theorem removeTag_sticky (me : ℕ) (name : String) : StickyKept s (UsersController.removeTag P s me name).2 := by
  rcases UsersController.removeTag_cases P s me name with h | ⟨user, tag, taggings, -, -, h⟩
  · rw [h]
    exact .refl s
  · have hdb : StickyKept s { s with db := (user.updateAttributes P s.db []).2 } :=
      .of_requests (updateAttributes_requests P s.db user [])
    have hsaved : StickyKept s { s with db := (user.updateAttributes P s.db []).2, taggings } := ⟨hdb.active, hdb.sticky⟩
    rw [h]
    exact hsaved.trans (.populate _ tag)

theorem createTag_sticky (toUrl : String → String) (me : ℕ) (name icon : Option String) :
    StickyKept s (TagsController.create P toUrl s me name icon).2 := by
  have hstored (row : Tag) (hrow : row.requestId = none) :
      StickyKept s { s with tags := s.tags.insertFresh (fun id => { row with id }) } := by
    refine ⟨fun _ h => h, fun tag hm id hid => ?_⟩
    rcases List.mem_append.mp hm with hm | hm
    · exact ⟨tag, hm, hid⟩
    · rw [List.mem_singleton.mp hm, hrow] at hid
      cases hid
  rcases TagsController.create_cases P toUrl s me name icon with h | ⟨user, row, -, hrow, h | h⟩
  · rw [h]
    exact .refl s
  · rw [h]
    exact (hstored row hrow).trans (.populate _ _)
  · rw [h]
    refine StickyKept.trans ?_ (.populate _ _)
    refine StickyKept.trans ?_ (.follow _ _ _)
    exact (hstored row hrow).trans (.of_requests (updateAttributes_requests P s.db user []))

theorem destroyTag_sticky (me id : ℕ) : StickyKept s (TagsController.destroy s me id).2 := by
  rcases TagsController.destroy_cases s me id with h | h
  · rw [h]
    exact .refl s
  · rw [h]
    exact ⟨fun _ ha => ha, fun tag hm j hj => ⟨tag, (Table.mem_erase.mp hm).1, hj⟩⟩

end Actions

theorem active_setWorkflowState (db : Db) (id : ℕ) (state : WorkflowState) (j : ℕ) :
    (db.setWorkflowState id state).Active j ↔
      if j = id then db.requests.has id = true ∧ state = .active else db.Active j := by
  have hget : (db.setWorkflowState id state).requests.get? j =
      if j = id then (db.requests.get? j).map (fun r => { r with workflowState := state }) else db.requests.get? j :=
    Table.get?_update db.requests id (fun r => { r with workflowState := state }) (fun _ => rfl) j
  rw [Db.Active, hget]
  by_cases hj : j = id
  · rw [if_pos hj, if_pos hj, hj, Table.has]
    cases db.requests.get? id <;> simp
  · rw [if_neg hj, if_neg hj, Db.Active]

theorem active_recountRequests (db : Db) (user j : ℕ) : (db.recountRequests user).Active j ↔ db.Active j := Iff.rfl

theorem createRequest_active (P : Platform) (db : Db) (me : ℕ) (subject content : String) (reward : Option String) {j : ℕ}
    (h : db.Active j) : (RequestsController.create P db me subject content reward).2.Active j := by
  obtain ⟨r, hr, hw⟩ := Option.map_eq_some_iff.mp h
  rcases RequestsController.create_cases P db me subject content reward with hc | ⟨-, hc⟩
  · rwa [hc]
  · rw [hc]
    obtain ⟨r', hr', rfl⟩ := Table.Persists.append (R := Eq) (fun _ => rfl) (Table.insertFresh_rows db.requests _ _) j r hr
    exact Option.map_eq_some_iff.mpr ⟨r, hr', hw⟩

theorem manageUser_requests (P : Platform) (db : Db) (me : ℕ) (action : UserAction) :
    (action.perform P db me).requests = db.requests := by
  rcases action.perform_cases P db me with h | ⟨user, params, -, h, -⟩
  · rw [h]
  · rw [h]
    exact updateAttributes_requests P db user params

theorem Db.Active.has {db : Db} {id : ℕ} (h : db.Active id) : db.requests.has id = true := by
  obtain ⟨r, hr, -⟩ := Option.map_eq_some_iff.mp h
  exact Table.has_of_get? hr

section Workflow

variable (P : Platform) {s : Site}

/-- Whatever is disabled is no longer sticky. -/
theorem destroyRequest_sticky (hs : StickyActive s) (me id : ℕ) :
    StickyActive (s.performDb P (.destroyRequest me id)) := by
  show StickyActive { RequestsController.unstick s me id with db := (RequestsController.destroy s.db me id).2 }
  unfold RequestsController.destroy RequestsController.unstick
  cases hu : s.db.users.get? me with
  | none => exact hs
  | some user =>
    cases hr : s.db.requests.get? id with
    | none => exact hs
    | some request =>
      simp only
      by_cases hallowed : request.userId = me ∨ user.admin = true
      · by_cases hw : request.workflowState = .active
        · rw [if_pos hallowed, if_pos hw, if_pos ⟨hallowed, hw⟩]
          intro tag' hm j hj
          obtain ⟨tag, htag, rfl⟩ := List.mem_map.mp hm
          by_cases ht : tag.requestId = some id
          · simp [ht] at hj
          · simp only [ht, decide_false, Bool.false_eq_true, if_false] at hj
            have hne : j ≠ id := fun he => ht (he ▸ hj)
            show ((s.db.setWorkflowState id .disabled).recountRequests me).Active j
            rw [active_recountRequests, active_setWorkflowState, if_neg hne]
            exact hs tag htag j hj
        · rw [if_pos hallowed, if_neg hw, if_neg (fun h => hw h.2)]
          exact hs
      · rw [if_neg hallowed, if_neg (fun h => hallowed h.1)]
        exact hs

theorem updateRequest_sticky_iff (hs : StickyActive s) (id : ℕ) (event : AdminRequestsController.Event) :
    StickyActive (s.performDb P (.updateRequest id event)) ↔
      ¬ (event = .disable ∧ ∃ tag ∈ s.tags.rows, tag.requestId = some id) := by
  show StickyActive { s with db := AdminRequestsController.update s.db id event } ↔ _
  unfold AdminRequestsController.update
  cases hr : s.db.requests.get? id with
  | none =>
    refine iff_of_true hs ?_
    rintro ⟨-, tag, hm, ht⟩
    have hhas := (hs tag hm id ht).has
    rw [Table.has, hr] at hhas
    cases hhas
  | some request =>
    have hactive : s.db.Active id ↔ request.workflowState = .active := by
      rw [Db.Active, hr, Option.map_some, Option.some.injEq]
    simp only
    by_cases hw : request.workflowState = event.source
    · rw [if_pos hw]
      have hchange : ∀ j, ((s.db.setWorkflowState id event.target).recountRequests request.userId).Active j ↔
          if j = id then event.target = .active else s.db.Active j := by
        intro j
        rw [active_recountRequests, active_setWorkflowState, Table.has, hr]
        simp
      cases event with
      | enable =>
        refine iff_of_true (fun tag hm j hj => (hchange j).mpr ?_) (fun h => by cases h.1)
        split_ifs
        · rfl
        · exact hs tag hm j hj
      | disable =>
        constructor
        · rintro hsticky ⟨-, tag, hm, ht⟩
          have hdisabled := (hchange id).mp (hsticky tag hm id ht)
          rw [if_pos rfl] at hdisabled
          cases hdisabled
        · intro hno tag hm j hj
          have hne : j ≠ id := fun he => hno ⟨rfl, tag, hm, he ▸ hj⟩
          apply (hchange j).mpr
          rw [if_neg hne]
          exact hs tag hm j hj
    · rw [if_neg hw]
      refine iff_of_true hs ?_
      rintro ⟨rfl, tag, hm, ht⟩
      exact hw (hactive.mp (hs tag hm id ht))

end Workflow

section Setting

variable (P : Platform) (toUrl : String → String) (s : Site)

/-- The tag can be saved with the name it is given, or as it is without one. -/
def TakesName (tag : Tag) (params : TagParams) : Prop :=
  match params.name with
  | none => s.Storable P tag
  | some none => False
  | some (some name) => s.Storable P (tag.named toUrl name params.icon)

/-- An admin makes a request sticky that is not active: one that is disabled, or
none, when the parameter is `false`, which is stored as 0. -/
def SticksInactive (me id : ℕ) (params : TagParams) : Prop :=
  ∃ admin tag request, s.db.users.get? me = some admin ∧ admin.admin = true ∧ s.tags.get? id = some tag ∧
    TakesName P toUrl s tag params ∧ params.request = some request ∧ TagsController.finds s request = true ∧
    ∃ r, (tag.pinned request).requestId = some r ∧ ¬ s.db.Active r

end Setting

section Stored

variable {P : Platform} {toUrl : String → String} {s : Site} {tag : Tag}

theorem storeTag_sticky_iff (row : Tag) (hs : StickyActive s) (hget : s.tags.get? row.id = some tag) :
    StickyActive (s.storeTag row) ↔ ∀ r, row.requestId = some r → s.db.Active r := by
  constructor
  · exact fun h r hr => h row (Table.get?_mem (Site.get?_storeTag row hget)) r hr
  · intro h other hm r hr
    rcases Site.mem_storeTag hm with rfl | ⟨hm, -⟩
    · exact h r hr
    · exact hs other hm r hr

theorem pinRequest_sticky_iff (hs : StickyActive s) (hget : s.tags.get? tag.id = some tag) (request : Option Param) :
    StickyActive (TagsController.updateRequest P s tag request).2 ↔
      ¬ ∃ given, request = some given ∧ TagsController.finds s given = true ∧ s.Storable P tag ∧
        ∃ r, (tag.pinned given).requestId = some r ∧ ¬ s.db.Active r := by
  cases request with
  | none =>
    refine iff_of_true hs ?_
    rintro ⟨given, hgiven, -⟩
    cases hgiven
  | some given =>
    rw [TagsController.updateRequest]
    by_cases hfinds : TagsController.finds s given = true
    · rw [if_pos hfinds]
      by_cases hstorable : s.Storable P tag
      · rw [Site.saveTag_storable ((Site.storable_pinned_iff given).mpr hstorable)]
        rw [storeTag_sticky_iff (tag.pinned given) hs hget]
        simp [hfinds, hstorable]
      · rw [(Site.saveTag_not_storable (fun h => hstorable ((Site.storable_pinned_iff given).mp h))).2]
        refine iff_of_true hs ?_
        rintro ⟨_, -, -, h, -⟩
        exact hstorable h
    · rw [if_neg hfinds]
      refine iff_of_true hs ?_
      rintro ⟨_, hgiven, hfound, -⟩
      cases hgiven
      exact hfinds hfound

theorem updateTag_sticky_iff (hs : StickyActive s) (hget : s.tags.get? tag.id = some tag) (params : TagParams) :
    StickyActive (TagsController.updateTag P toUrl s tag params).2 ↔
      ¬ ∃ request, TakesName P toUrl s tag params ∧ params.request = some request ∧
        TagsController.finds s request = true ∧ ∃ r, (tag.pinned request).requestId = some r ∧ ¬ s.db.Active r := by
  obtain ⟨name, icon, request⟩ := params
  rcases name with _ | _ | name
  · rw [TagsController.updateTag, pinRequest_sticky_iff hs hget]
    apply not_congr
    constructor
    · rintro ⟨given, hgiven, hfinds, hstorable, hr⟩
      exact ⟨given, hstorable, hgiven, hfinds, hr⟩
    · rintro ⟨given, hstorable, hgiven, hfinds, hr⟩
      exact ⟨given, hgiven, hfinds, hstorable, hr⟩
  · refine iff_of_true hs ?_
    rintro ⟨_, hfalse, -⟩
    exact hfalse
  · rw [TagsController.updateTag]
    by_cases hstorable : s.Storable P (tag.named toUrl name icon)
    · have hnamed : StickyActive (s.storeTag (tag.named toUrl name icon)) :=
        (storeTag_sticky_iff (tag.named toUrl name icon) hs hget).mpr (hs tag (Table.get?_mem hget))
      have hstored := Site.get?_storeTag (tag.named toUrl name icon) hget
      simp only [Site.saveTag_storable hstorable, if_true]
      rw [pinRequest_sticky_iff hnamed hstored]
      apply not_congr
      -- neither the lookup of the request nor the column depends on the name
      constructor
      · rintro ⟨given, hgiven, hfinds, -, hr⟩
        exact ⟨given, hstorable, hgiven, hfinds, hr⟩
      · rintro ⟨given, -, hgiven, hfinds, hr⟩
        exact ⟨given, hgiven, hfinds, Site.storable_storeTag hstorable, hr⟩
    · obtain ⟨hstatus, hstore⟩ := Site.saveTag_not_storable hstorable
      simp only [if_neg hstatus, hstore]
      refine iff_of_true hs ?_
      rintro ⟨_, htakes, -⟩
      exact hstorable htakes

theorem update_sticky_iff (P : Platform) (toUrl : String → String) (hs : StickyActive s) (me id : ℕ) (params : TagParams) :
    StickyActive (TagsController.update P toUrl s me id params).2 ↔ ¬ SticksInactive P toUrl s me id params := by
  unfold TagsController.update SticksInactive
  cases hme : s.db.users.get? me with
  | none =>
    refine iff_of_true hs ?_
    rintro ⟨_, _, _, h, -⟩
    cases h
  | some user =>
    cases hid : s.tags.get? id with
    | none =>
      refine iff_of_true hs ?_
      rintro ⟨_, _, _, -, -, h, -⟩
      cases h
    | some tag =>
      obtain rfl := Table.get?_key hid
      by_cases hadmin : user.admin = true
      · simp only [if_pos hadmin]
        rw [updateTag_sticky_iff hs hid]
        apply not_congr
        constructor
        · rintro ⟨request, h⟩
          exact ⟨user, tag, request, rfl, hadmin, rfl, h⟩
        · rintro ⟨_, _, request, ⟨⟩, -, ⟨⟩, h⟩
          exact ⟨request, h⟩
      · simp only [if_neg hadmin]
        refine iff_of_true hs ?_
        rintro ⟨_, _, _, ⟨⟩, h, -⟩
        exact hadmin h

end Stored

/-- The two actions that leave a tag with a sticky request that is not active. -/
def SiteOp.BreaksSticky (P : Platform) (toUrl : String → String) (s : Site) : SiteOp → Prop
  | .db (.updateRequest id event) => event = .disable ∧ ∃ tag ∈ s.tags.rows, tag.requestId = some id
  | .updateTag me id params => SticksInactive P toUrl s me id params
  | _ => False

theorem performDb_sticky_iff (P : Platform) (toUrl : String → String) {s : Site} (hs : StickyActive s) (op : Op) :
    StickyActive (s.performDb P op) ↔ ¬ SiteOp.BreaksSticky P toUrl s (.db op) := by
  have hkept : ∀ {db' : Db}, AccountsKept s.db db' → (StickyActive { s with db := db' } ↔ ¬ False) :=
    fun hk => iff_of_true ((StickyKept.of_accounts hk).stickyActive hs) id
  cases op with
  | signUp email name => exact iff_of_true ((signUp_sticky P s email name).stickyActive hs) id
  | updateRequest id event => exact updateRequest_sticky_iff P hs id event
  | destroyRequest me id => exact iff_of_true (destroyRequest_sticky P hs me id) not_false
  | createRequest me subject content reward =>
    have hcreate : StickyKept s { s with db := (RequestsController.create P s.db me subject content reward).2 } :=
      .of_db (fun _ ha => createRequest_active P s.db me subject content reward ha) rfl
    exact iff_of_true (hcreate.stickyActive hs) id
  | manageUser me action =>
    have hmanage : StickyKept s { s with db := action.perform P s.db me } :=
      .of_requests (manageUser_requests P s.db me action)
    exact iff_of_true (hmanage.stickyActive hs) id
  | invite me email => exact hkept (invite_kept s.db me email)
  | updateSetting setting value => exact hkept (.of_eq rfl rfl)
  | createComment me request content => exact hkept (createComment_kept s.db me request content)
  | destroyComment me id => exact hkept (destroyComment_kept s.db me id)
  | rateUser me id rating => exact hkept (rate_kept P s.db me id rating).1
  | rateRequest me id rating => exact hkept (rate_kept P s.db me id rating).2.1
  | rateComment me id rating => exact hkept (rate_kept P s.db me id rating).2.2.1
  | rateConversation me id rating => exact hkept (rate_kept P s.db me id rating).2.2.2
  | indexRequests me page => exact hkept (index_kept s.db me page)
  | showRequest me id => exact hkept (show_kept s.db me id)
  | showConversation now me id => exact hkept (showConversation_kept s.db now me id)
  | postMessage now online me payload =>
    exact hkept (ConversationsSocket.postMessage_kept P s.db now online me payload)
  | conversationRead now me userId conversationId =>
    exact hkept (conversationRead_kept s.db now me userId conversationId)
  | notifyUnread now => exact hkept (.of_eq rfl rfl)

theorem siteStep_sticky_iff (P : Platform) (toUrl : String → String) (s : Site) (op : SiteOp) (hs : StickyActive s) :
    StickyActive (s.step P toUrl op) ↔ ¬ op.BreaksSticky P toUrl s := by
  cases op with
  | db op => exact performDb_sticky_iff P toUrl hs op
  | addTag me name => exact iff_of_true ((addTag_sticky P s me name).stickyActive hs) id
  | removeTag me name => exact iff_of_true ((removeTag_sticky P s me name).stickyActive hs) id
  | createTag me name icon => exact iff_of_true ((createTag_sticky P s toUrl me name icon).stickyActive hs) id
  | updateTag me id params => exact update_sticky_iff P toUrl hs me id params
  | destroyTag me id => exact iff_of_true ((destroyTag_sticky s me id).stickyActive hs) not_false

theorem sticky_active_iff (P : Platform) (toUrl : String → String) (settings : Settings) (ops : List SiteOp) :
    (∀ n, StickyActive (Transition.run (Site.step P toUrl) (Site.new settings) (ops.take n)) ∧
        ShowsActive P (Transition.run (Site.step P toUrl) (Site.new settings) (ops.take n))) ↔
      Transition.Meets (Site.step P toUrl) (fun s op => ¬ op.BreaksSticky P toUrl s) (Site.new settings) ops := by
  have hstates := Transition.forall_states_iff_meets (Site.step P toUrl) (siteStep_sticky_iff P toUrl) (Site.new settings)
    (fun _ h => absurd h List.not_mem_nil) ops
  rw [← hstates]
  constructor
  · exact fun h n => (h n).1
  · exact fun h n => ⟨h n, (h n).shows P⟩

/-- Ann, who is a super admin and the admin of the site, makes a request sticky
and disables it in the admin panel. -/
def annDisablesSticky : Site :=
  Transition.run (Site.step .plain id) (Site.new { adminEmail := some "ann@blnkk.com" })
    [.db (.signUp "ann@blnkk.com" "ann"), .createTag 1 "sports" "hash", .db (.createRequest 1 "bike" "wanted" none),
      .updateTag 1 1 { request := some (.int 1) }, .db (.updateRequest 1 .disable)]

theorem disabled_request_still_sticky :
    (∃ tag ∈ annDisablesSticky.tags.rows, tag.requestId = some 1) ∧ ¬ annDisablesSticky.db.Active 1 ∧
      ¬ ShowsActive .plain annDisablesSticky := by
  have hdisabled : ¬ annDisablesSticky.db.Active 1 := by
    unfold Db.Active
    decide +kernel
  refine ⟨by decide +kernel, hdisabled, fun hshows => ?_⟩
  have hshown : ∃ tag request, Visitor.tagsShow .plain id annDisablesSticky "sports" = .tag tag ∧
      tag.request = some request ∧ request.id = 1 := by
    refine ⟨_, _, rfl, rfl, rfl⟩
  obtain ⟨tag, request, hshow, hrequest, hid⟩ := hshown
  have hactive := hshows id "sports" tag request hshow hrequest
  rw [hid] at hactive
  exact hdisabled hactive

end Blnkk
