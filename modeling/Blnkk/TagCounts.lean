import Blnkk.AccountFrame
import Blnkk.Privileges
import Blnkk.TagActions

/-!
The cached number of followers of a tag. Every action that changes who follows a
tag populates it; enabling and disabling a user changes the number too.
-/

namespace Blnkk

open Relational

def TagsCounted (s : Site) : Prop := ∀ tag ∈ s.tags.rows, tag.userCount = s.followers tag.id

def EnabledKept (db db' : Db) : Prop :=
  ∀ k, (db'.users.get? k).map User.enabled = (db.users.get? k).map User.enabled

section Followers

variable {s s' : Site}

theorem followers_congr (hu : EnabledKept s.db s'.db) {tag : ℕ}
    (ht : ∀ user, s'.taggings.has (tag, .user user) = s.taggings.has (tag, .user user)) :
    s'.followers tag = s.followers tag := by
  unfold Site.followers
  congr 1
  apply Table.count_congr
  intro k
  have hk := hu k
  cases h : s.db.users.get? k with
  | none =>
    rw [h, Option.map_none, Option.map_eq_none_iff] at hk
    rw [hk]
    rfl
  | some u =>
    rw [h, Option.map_some, Option.map_eq_some_iff] at hk
    obtain ⟨u', hu', henabled⟩ := hk
    rw [hu', Option.map_some, Option.map_some, Table.get?_key hu', Table.get?_key h, henabled, ht]

theorem TagsCounted.of_kept (h : TagsCounted s) (hu : EnabledKept s.db s'.db)
    (htags : ∀ tag' ∈ s'.tags.rows, ∃ tag ∈ s.tags.rows, tag.id = tag'.id ∧ tag.userCount = tag'.userCount)
    (ht : ∀ tag' ∈ s'.tags.rows, ∀ user,
      s'.taggings.has (tag'.id, .user user) = s.taggings.has (tag'.id, .user user)) : TagsCounted s' := by
  intro tag' hm
  obtain ⟨tag, htag, hid, hcount⟩ := htags tag' hm
  rw [followers_congr hu (ht tag' hm), ← hcount, ← hid]
  exact h tag htag

theorem mem_populate {s : Site} {k : ℕ} {row : Tag} (h : row ∈ (s.populate k).tags.rows) :
    ∃ old ∈ s.tags.rows, row = if old.id = k then { old with userCount := s.followers k } else old := by
  obtain ⟨old, hold, he⟩ := List.mem_map.mp h
  exact ⟨old, hold, by simpa using he.symm⟩

theorem populateAll_counted (tags : List ℕ) (s : Site)
    (h : ∀ tag ∈ s.tags.rows, tag.id ∈ tags ∨ tag.userCount = s.followers tag.id) :
    TagsCounted (tags.foldl Site.populate s) := by
  induction tags generalizing s with
  | nil => exact fun tag hm => (h tag hm).resolve_left List.not_mem_nil
  | cons k rest ih =>
    apply ih
    intro tag hm
    obtain ⟨old, hold, rfl⟩ := mem_populate hm
    by_cases hk : old.id = k
    · rw [if_pos hk]
      exact Or.inr (congrArg s.followers hk.symm)
    · rw [if_neg hk]
      rcases h old hold with hmem | hcount
      · exact Or.inl ((List.mem_cons.mp hmem).resolve_left hk)
      · exact Or.inr hcount

theorem populate_counted {s : Site} {tag : ℕ}
    (h : ∀ row ∈ s.tags.rows, row.id ≠ tag → row.userCount = s.followers row.id) : TagsCounted (s.populate tag) := by
  apply populateAll_counted [tag] s
  intro row hm
  by_cases hid : row.id = tag
  · exact Or.inl (List.mem_singleton.mpr hid)
  · exact Or.inr (h row hm hid)

end Followers

section Enabled

theorem AccountsKept.enabled {db db' : Db} (h : AccountsKept db db') : EnabledKept db db' :=
  h.observed User.enabled (fun _ => rfl)

theorem recount_enabled (db : Db) (user : ℕ) : EnabledKept db (db.recountRequests user) :=
  updateUser_observed User.enabled db user _ _ (fun _ _ => rfl)

theorem updateAttributes_enabled (P : Platform) (db : Db) {u : User} (hu : db.users.get? u.id = some u)
    {params : ParamsHash} (h : (u.assignAll params).enabled = u.enabled) :
    EnabledKept db (u.updateAttributes P db params).2 := by
  rcases u.updateAttributes_cases P db params with he | ⟨email, name, he⟩
  · rw [he]
    exact fun _ => rfl
  · rw [he]
    apply updateUser_observed User.enabled
    intro row hrow
    obtain rfl : u = row := Option.some.inj (hu.symm.trans hrow)
    exact h

theorem createRequest_enabled (P : Platform) (db : Db) (me : ℕ) (subject content : String) (reward : Option String) :
    EnabledKept db (RequestsController.create P db me subject content reward).2 := by
  rcases RequestsController.create_cases P db me subject content reward with h | ⟨-, h⟩
  · rw [h]
    exact fun _ => rfl
  · rw [h]
    exact recount_enabled _ me

theorem destroyRequest_enabled (db : Db) (me id : ℕ) : EnabledKept db (RequestsController.destroy db me id).2 := by
  rcases RequestsController.destroy_cases db me id with h | h
  · rw [h]
    exact fun _ => rfl
  · rw [h]
    exact recount_enabled (db.setWorkflowState id .disabled) me

theorem updateRequest_enabled (db : Db) (id : ℕ) (event : AdminRequestsController.Event) :
    EnabledKept db (AdminRequestsController.update db id event) := by
  rcases AdminRequestsController.update_cases db id event with h | ⟨request, -, -, h⟩
  · rw [h]
    exact fun _ => rfl
  · rw [h]
    exact recount_enabled (db.setWorkflowState id event.target) request.userId

end Enabled

section Actions

variable (P : Platform) {s : Site}

theorem has_follow (s : Site) (tag user other : ℕ) (tagging : Taggable) (h : other ≠ tag) :
    (s.follow tag user).taggings.has (other, tagging) = s.taggings.has (other, tagging) := by
  rw [Bool.eq_iff_iff, Site.follow, Table.has_ensure]
  simp [Ne.symm h]

theorem signUp_tags_counted (h : TagsCounted s) (email name : String) : TagsCounted (s.signUp P email name) := by
  have hfollow : ∀ (user : ℕ) (tags : List ℕ) (site : Site),
      (tags.foldl (fun site tag => site.follow tag user) site).tags = site.tags := by
    intro user tags
    induction tags with
    | nil => exact fun _ => rfl
    | cons tag rest ih => exact fun site => ih (site.follow tag user)
  unfold Site.signUp
  cases createUser P s.db email name with
  | error failure => exact h
  | ok result =>
    -- every tag is followed by the new user, so every tag is populated
    apply populateAll_counted
    intro tag hm
    rw [hfollow] at hm
    exact Or.inl (List.mem_map.mpr ⟨tag, hm, rfl⟩)

theorem save_enabled (db : Db) {me : ℕ} {user : User} (hu : db.users.get? me = some user) :
    EnabledKept db (user.updateAttributes P db []).2 := by
  have hu' : db.users.get? user.id = some user := Table.get?_row hu
  exact updateAttributes_enabled P db hu' rfl

theorem populate_counted_of (h : TagsCounted s) {s' : Site} {tag : ℕ} (hu : EnabledKept s.db s'.db)
    (htags : ∀ row ∈ s'.tags.rows, row.id ≠ tag → row ∈ s.tags.rows)
    (ht : ∀ other ≠ tag, ∀ tagging, s'.taggings.has (other, tagging) = s.taggings.has (other, tagging)) :
    TagsCounted (s'.populate tag) := by
  apply populate_counted
  intro row hm hid
  rw [h row (htags row hm hid), followers_congr hu (fun user => ht row.id hid (.user user))]

theorem addTag_counted (h : TagsCounted s) (me : ℕ) (name : String) :
    TagsCounted (UsersController.addTag P s me name).2 := by
  rcases UsersController.addTag_cases P s me name with he | ⟨user, tag, hu, -, he⟩
  · rw [he]
    exact h
  · have hsaved := save_enabled P s.db hu
    rw [he]
    generalize user.updateAttributes P s.db [] = saved at hsaved ⊢
    apply populate_counted_of h
    · exact hsaved
    · exact fun row hm _ => hm
    · intro other hne tagging
      exact has_follow { s with db := saved.2 } tag.id me other tagging hne

theorem removeTag_counted (h : TagsCounted s) (me : ℕ) (name : String) :
    TagsCounted (UsersController.removeTag P s me name).2 := by
  rcases UsersController.removeTag_cases P s me name with he | ⟨user, tag, taggings, hu, ht, he⟩
  · rw [he]
    exact h
  · have hsaved := save_enabled P s.db hu
    rw [he]
    generalize user.updateAttributes P s.db [] = saved at hsaved ⊢
    apply populate_counted_of h
    · exact hsaved
    · exact fun row hm _ => hm
    · intro other hne tagging
      rcases ht with rfl | rfl
      · apply Table.has_restrict_of
        intro a ha
        simp only [ha, ne_eq, Prod.mk.injEq, hne, false_and, not_false_eq_true, decide_true]
      · rfl

theorem createTag_counted (toUrl : String → String) (h : TagsCounted s) (me : ℕ) (name icon : Option String) :
    TagsCounted (TagsController.create P toUrl s me name icon).2 := by
  have hstored : ∀ (row : Tag) (new : ℕ → Tag) (hnew : ∀ n, (new n).id = n),
      row ∈ (s.tags.insertFresh new hnew).rows → row.id ≠ s.tags.fresh → row ∈ s.tags.rows := by
    intro row new hnew hm hne
    refine (List.mem_append.mp hm).resolve_right (fun hrow => hne ?_)
    rw [List.mem_singleton.mp hrow, hnew]
  rcases TagsController.create_cases P toUrl s me name icon with he | ⟨user, new, hu, -, he | he⟩
  · rw [he]
    exact h
  · rw [he]
    apply populate_counted_of h
    · exact fun _ => rfl
    · intro row hm hne
      exact hstored row _ _ hm hne
    · exact fun _ _ _ => rfl
  · have hsaved := save_enabled P s.db hu
    rw [he]
    generalize user.updateAttributes P s.db [] = saved at hsaved ⊢
    apply populate_counted_of h
    · exact hsaved
    · intro row hm hne
      exact hstored row _ _ hm hne
    · intro other hne tagging
      exact has_follow _ s.tags.fresh me other tagging hne

theorem updateWhere_tags_counted (h : TagsCounted s) (p : Tag → Bool) (f : Tag → Tag) (hf : ∀ tag, (f tag).id = tag.id)
    (hcount : ∀ tag, (f tag).userCount = tag.userCount) : TagsCounted { s with tags := s.tags.updateWhere p f hf } := by
  refine h.of_kept (fun _ => rfl) ?_ (fun _ _ _ => rfl)
  intro tag' hm
  obtain ⟨tag, htag, rfl⟩ := List.mem_map.mp hm
  refine ⟨tag, htag, ?_⟩
  split_ifs
  · exact ⟨(hf tag).symm, (hcount tag).symm⟩
  · exact ⟨rfl, rfl⟩

theorem updateTag_counted (toUrl : String → String) (h : TagsCounted s) (me id : ℕ) (params : TagParams) :
    TagsCounted (TagsController.update P toUrl s me id params).2 := by
  rcases TagsController.update_cases P toUrl s me id params with he | ⟨tag, row, hget, hid, hcount, he⟩
  · rw [he]
    exact h
  · rw [he]
    refine h.of_kept (fun _ => rfl) ?_ (fun _ _ _ => rfl)
    intro other hm
    rcases Site.mem_storeTag hm with rfl | ⟨hm, -⟩
    · exact ⟨tag, Table.get?_mem hget, hid.symm, hcount.symm⟩
    · exact ⟨other, hm, rfl, rfl⟩

theorem destroyTag_counted (h : TagsCounted s) (me id : ℕ) : TagsCounted (TagsController.destroy s me id).2 := by
  rcases TagsController.destroy_cases s me id with he | he
  · rw [he]
    exact h
  · rw [he]
    refine h.of_kept (fun _ => rfl) ?_ ?_
    · intro tag hm
      exact ⟨tag, (Table.mem_erase.mp hm).1, rfl, rfl⟩
    · intro tag hm user
      apply Table.has_restrict_of
      intro tagging hkey
      have htag : tagging.tagId = tag.id := congrArg Prod.fst hkey
      rw [htag]
      exact decide_eq_true (Table.mem_erase.mp hm).2

theorem destroyRequest_tags_counted (h : TagsCounted s) (me id : ℕ) :
    TagsCounted (s.performDb P (.destroyRequest me id)) := by
  have hunstick : TagsCounted (RequestsController.unstick s me id) ∧
      (RequestsController.unstick s me id).db = s.db := by
    unfold RequestsController.unstick
    split
    · split_ifs
      · exact ⟨updateWhere_tags_counted h _ _ _ (fun _ => rfl), rfl⟩
      · exact ⟨h, rfl⟩
    · exact ⟨h, rfl⟩
  refine hunstick.1.of_kept ?_ (fun tag hm => ⟨tag, hm, rfl, rfl⟩) (fun _ _ _ => rfl)
  rw [hunstick.2]
  exact destroyRequest_enabled s.db me id

end Actions

/-- The flag that an action of the user management may set, and its value. -/
def UserAction.switch (db : Db) (me : ℕ) : UserAction → Option (ℕ × Bool)
  | .enable id => if ((db.users.get? me).map User.admin).getD false ∧ id ≠ me then some (id, true) else none
  | .disable id => if ((db.users.get? me).map User.admin).getD false ∧ id ≠ me then some (id, false) else none
  | .adminUpdate id enabled _ =>
    if ((db.users.get? me).map User.superAdmin).getD false ∧ enabled.truthy then some (id, enabled.toBoolean) else none
  | _ => none

section Switch

variable (P : Platform) (db : Db) (me : ℕ)

theorem updateAttributes_switch {u : User} (hu : db.users.get? u.id = some u) (value : Param) (k : ℕ) :
    ((u.updateAttributes P db [("enabled", value)]).2.users.get? k).map User.enabled =
      if k = u.id ∧ db.admits P u = true then some value.toBoolean else (db.users.get? k).map User.enabled := by
  have hname : Flag.enabled.name = "enabled" := rfl
  have hassign : (u.assign ("enabled", value)).enabled = value.toBoolean := rfl
  have hflag := updateAttributes_flag P db hu .enabled value User.enabled (fun _ _ h => h.2) k
  rw [hname, hassign] at hflag
  exact hflag

def SwitchCases (after : Db) (switch : Option (ℕ × Bool)) : Prop :=
  (EnabledKept db after ∧ ∀ id b, switch = some (id, b) → db.users.get? id = none) ∨
    ∃ id b u value, switch = some (id, b) ∧ db.users.get? id = some u ∧ Param.toBoolean value = b ∧
      after = (u.updateAttributes P db [("enabled", value)]).2

theorem setFlag_kept (id : ℕ) (value : Param) :
    EnabledKept db (UsersController.setFlag P db me id [("admin", value)]).2 := by
  rcases setFlag_cases P db me id [("admin", value)] with h | ⟨user, hu, h, -⟩
  · rw [h]
    exact fun _ => rfl
  · rw [h]
    exact updateAttributes_enabled P db (Table.get?_row hu) rfl

theorem setFlag_switch (id : ℕ) (b : Bool) :
    SwitchCases P db (UsersController.setFlag P db me id [("enabled", .bool b)]).2
      (if ((db.users.get? me).map User.admin).getD false ∧ id ≠ me then some (id, b) else none) := by
  unfold UsersController.setFlag
  cases hu : db.users.get? id with
  | none =>
    refine Or.inl ⟨fun _ => rfl, fun j c h => ?_⟩
    split_ifs at h
    cases h
    exact hu
  | some user =>
    by_cases ha : ((db.users.get? me).map User.admin).getD false ∧ id ≠ me
    · simp only [if_pos ha]
      exact Or.inr ⟨id, b, user, .bool b, rfl, hu, rfl, rfl⟩
    · simp only [if_neg ha]
      exact Or.inl ⟨fun _ => rfl, fun _ _ h => by cases h⟩

theorem adminUpdate_kept (id : ℕ) (enabled admin : Param)
    (h : ¬ (((db.users.get? me).map User.superAdmin).getD false = true ∧ enabled.truthy = true)) :
    EnabledKept db (AdminUsersController.update P db me id enabled admin).2 := by
  unfold AdminUsersController.update
  by_cases hs : ((db.users.get? me).map User.superAdmin).getD false = true
  · have he : ¬ enabled.truthy = true := fun he => h ⟨hs, he⟩
    rw [if_pos hs]
    cases hu : db.users.get? id with
    | none => exact fun _ => rfl
    | some user =>
      have hsaved : EnabledKept db (user.updateAttributes P db [("admin", admin)]).2 :=
        updateAttributes_enabled P db (Table.get?_row hu) rfl
      simp only [if_neg he]
      generalize user.updateAttributes P db [("admin", admin)] = saved at *
      split_ifs
      · exact hsaved
      · exact fun _ => rfl
  · rw [if_neg hs]
    exact fun _ => rfl

theorem adminUpdate_set {id : ℕ} {enabled : Param} (admin : Param) {user : User} (hu : db.users.get? id = some user)
    (hs : ((db.users.get? me).map User.superAdmin).getD false = true) (he : enabled.truthy = true) :
    (AdminUsersController.update P db me id enabled admin).2 =
      (user.updateAttributes P db [("enabled", enabled)]).2 := by
  rw [AdminUsersController.update, if_pos hs, hu]
  simp only [if_pos he]

theorem adminUpdate_switch (id : ℕ) (enabled admin : Param) :
    SwitchCases P db (AdminUsersController.update P db me id enabled admin).2
      (UserAction.switch db me (.adminUpdate id enabled admin)) := by
  by_cases h : ((db.users.get? me).map User.superAdmin).getD false = true ∧ enabled.truthy = true
  · have hswitch : UserAction.switch db me (.adminUpdate id enabled admin) = some (id, enabled.toBoolean) := if_pos h
    rw [hswitch]
    cases hu : db.users.get? id with
    | none =>
      have hnone : (AdminUsersController.update P db me id enabled admin).2 = db := by
        rw [AdminUsersController.update, if_pos h.1, hu]
      rw [hnone]
      refine Or.inl ⟨fun _ => rfl, fun j c hj => ?_⟩
      cases hj
      exact hu
    | some user => exact Or.inr ⟨id, _, user, enabled, rfl, hu, rfl, adminUpdate_set P db me admin hu h.1 h.2⟩
  · have hswitch : UserAction.switch db me (.adminUpdate id enabled admin) = none := if_neg h
    rw [hswitch]
    exact Or.inl ⟨adminUpdate_kept P db me id enabled admin h, fun _ _ hj => by cases hj⟩

theorem updateProfile_kept (id : ℕ) (params : ParamsHash) :
    EnabledKept db (UsersController.update P db me id params).2 := by
  rcases update_cases P db me id params with h | ⟨user, hu, h, -⟩
  · rw [h]
    exact fun _ => rfl
  · rw [h]
    exact updateAttributes_enabled P db (Table.get?_row hu)
      (assignAll_flags user _ (userParams_flags params)).2

theorem perform_switch (action : UserAction) :
    SwitchCases P db (action.perform P db me) (action.switch db me) := by
  cases action with
  | update id params => exact Or.inl ⟨updateProfile_kept P db me id params, fun _ _ h => by cases h⟩
  | promote id => exact Or.inl ⟨setFlag_kept P db me id _, fun _ _ h => by cases h⟩
  | demote id => exact Or.inl ⟨setFlag_kept P db me id _, fun _ _ h => by cases h⟩
  | enable id => exact setFlag_switch P db me id true
  | disable id => exact setFlag_switch P db me id false
  | adminUpdate id enabled admin => exact adminUpdate_switch P db me id enabled admin

end Switch

def UserAction.SwitchesFollower (P : Platform) (s : Site) (me : ℕ) (action : UserAction) : Prop :=
  ∃ id b user, action.switch s.db me = some (id, b) ∧ s.db.users.get? id = some user ∧ s.db.admits P user = true ∧
    user.enabled ≠ b ∧ ∃ tag ∈ s.tags.rows, s.taggings.has (tag.id, .user id) = true

theorem followers_switch {s : Site} {db' : Db} {id : ℕ} {b : Bool} {user : User} (hu : s.db.users.get? id = some user)
    (hb : user.enabled ≠ b)
    (h : ∀ k, (db'.users.get? k).map User.enabled = if k = id then some b else (s.db.users.get? k).map User.enabled)
    (tag : ℕ) :
    ({ s with db := db' } : Site).followers tag =
      s.followers tag + if s.taggings.has (tag, .user id) then (if b then 1 else -1) else 0 := by
  have hset : EnabledKept (s.db.updateUser id (fun u => { u with enabled := b })) db' := by
    intro k
    rw [h, (MapsUsers.updateUser s.db id (fun u => { u with enabled := b }) (fun _ => rfl)).get? k, Option.map_map]
    by_cases hk : k = id
    · rw [hk, hu, if_pos rfl, Option.map_some, Function.comp_apply, if_pos rfl]
    · simp only [if_neg hk, Function.comp_def]
  have hfollowers : ({ s with db := db' } : Site).followers tag =
      ({ s with db := s.db.updateUser id (fun u => { u with enabled := b }) } : Site).followers tag :=
    followers_congr hset (fun _ => rfl)
  rw [hfollowers, Site.followers, Site.followers, Table.intCount_eq_sum, Table.intCount_eq_sum]
  refine (Table.sum_update s.db.users id (fun u => { u with enabled := b }) (fun _ => rfl) _).trans ?_
  rw [hu, Option.map_some, Option.getD_some]
  have hid : user.id = id := Table.get?_key hu
  cases hf : s.taggings.has (tag, .user id) <;> cases b <;> simp_all

theorem manageUser_counted_iff (P : Platform) {s : Site} (hs : TagsCounted s) (me : ℕ) (action : UserAction) :
    TagsCounted { s with db := action.perform P s.db me } ↔ ¬ action.SwitchesFollower P s me := by
  have hsame : ∀ {db' : Db}, EnabledKept s.db db' → TagsCounted { s with db := db' } := by
    intro db' hkept
    exact hs.of_kept hkept (fun tag hm => ⟨tag, hm, rfl, rfl⟩) (fun _ _ _ => rfl)
  rcases perform_switch P s.db me action with ⟨hkept, hnone⟩ | ⟨id, b, user, value, hswitch, hu, hvalue, hafter⟩
  · refine iff_of_true (hsame hkept) ?_
    rintro ⟨id, b, user, hswitch, hu, -⟩
    rw [hnone id b hswitch] at hu
    cases hu
  · have hid : user.id = id := Table.get?_key hu
    have hset := updateAttributes_switch P s.db (u := user) (Table.get?_row hu) value
    rw [← hafter, hid, hvalue] at hset
    have hfollower : action.SwitchesFollower P s me ↔ s.db.admits P user = true ∧ user.enabled ≠ b ∧
        ∃ tag ∈ s.tags.rows, s.taggings.has (tag.id, .user id) = true := by
      constructor
      · rintro ⟨id', b', user', hswitch', hu', hadmits, hne, htag⟩
        rw [hswitch] at hswitch'
        cases hswitch'
        obtain rfl := Option.some.inj (hu.symm.trans hu')
        exact ⟨hadmits, hne, htag⟩
      · rintro ⟨hadmits, hne, htag⟩
        exact ⟨id, b, user, hswitch, hu, hadmits, hne, htag⟩
    rw [hfollower]
    by_cases hflip : s.db.admits P user = true ∧ user.enabled ≠ b
    · simp only [hflip.1, and_true] at hset
      have hfollowers := followers_switch hu hflip.2 hset
      constructor
      · -- the counter was right before, and the number has changed by one
        rintro hcounted ⟨-, -, tag, hm, hhas⟩
        have hbefore := hs tag hm
        have hnow := hcounted tag hm
        rw [hfollowers, if_pos hhas] at hnow
        split_ifs at hnow <;> omega
      · intro hno tag hm
        have hhas : ¬ s.taggings.has (tag.id, .user id) = true := fun hhas => hno ⟨hflip.1, hflip.2, tag, hm, hhas⟩
        rw [hfollowers, if_neg hhas, add_zero]
        exact hs tag hm
    · refine iff_of_true (hsame (fun k => ?_)) (fun hno => hflip ⟨hno.1, hno.2.1⟩)
      rw [hset]
      split_ifs with hk
      · have henabled : user.enabled = b := by
          by_contra hne
          exact hflip ⟨hk.2, hne⟩
        rw [hk.1, hu, Option.map_some, henabled]
      · rfl

def SiteOp.SwitchesFollower (P : Platform) (s : Site) : SiteOp → Prop
  | .db (.manageUser me action) => action.SwitchesFollower P s me
  | _ => False

theorem performDb_counted_iff (P : Platform) {s : Site} (hs : TagsCounted s) (op : Op) :
    TagsCounted (s.performDb P op) ↔ ¬ SiteOp.SwitchesFollower P s (.db op) := by
  have hkept : ∀ {db' : Db}, EnabledKept s.db db' → (TagsCounted { s with db := db' } ↔ ¬ False) := by
    intro db' hk
    exact iff_of_true (hs.of_kept hk (fun tag hm => ⟨tag, hm, rfl, rfl⟩) (fun _ _ _ => rfl)) id
  cases op with
  | signUp email name => exact iff_of_true (signUp_tags_counted P hs email name) id
  | manageUser me action => exact manageUser_counted_iff P hs me action
  | destroyRequest me id => exact iff_of_true (destroyRequest_tags_counted P hs me id) not_false
  | createRequest me subject content reward => exact hkept (createRequest_enabled P s.db me subject content reward)
  | updateRequest id event => exact hkept (updateRequest_enabled s.db id event)
  | invite me email => exact hkept (invite_kept s.db me email).enabled
  | updateSetting setting value => exact hkept (fun _ => rfl)
  | createComment me request content => exact hkept (createComment_kept s.db me request content).enabled
  | destroyComment me id => exact hkept (destroyComment_kept s.db me id).enabled
  | rateUser me id rating => exact hkept (rate_kept P s.db me id rating).1.enabled
  | rateRequest me id rating => exact hkept (rate_kept P s.db me id rating).2.1.enabled
  | rateComment me id rating => exact hkept (rate_kept P s.db me id rating).2.2.1.enabled
  | rateConversation me id rating => exact hkept (rate_kept P s.db me id rating).2.2.2.enabled
  | indexRequests me page => exact hkept (index_kept s.db me page).enabled
  | showRequest me id => exact hkept (show_kept s.db me id).enabled
  | showConversation now me id => exact hkept (showConversation_kept s.db now me id).enabled
  | postMessage now online me payload =>
    exact hkept (ConversationsSocket.postMessage_kept P s.db now online me payload).enabled
  | conversationRead now me userId conversationId =>
    exact hkept (conversationRead_kept s.db now me userId conversationId).enabled
  | notifyUnread now => exact hkept (fun _ => rfl)

theorem siteStep_counted_iff (P : Platform) (toUrl : String → String) (s : Site) (op : SiteOp) (hs : TagsCounted s) :
    TagsCounted (s.step P toUrl op) ↔ ¬ op.SwitchesFollower P s := by
  cases op with
  | db op => exact performDb_counted_iff P hs op
  | addTag me name => exact iff_of_true (addTag_counted P hs me name) id
  | removeTag me name => exact iff_of_true (removeTag_counted P hs me name) id
  | createTag me name icon => exact iff_of_true (createTag_counted P toUrl hs me name icon) id
  | updateTag me id params => exact iff_of_true (updateTag_counted P toUrl hs me id params) not_false
  | destroyTag me id => exact iff_of_true (destroyTag_counted hs me id) not_false

theorem tag_counts_iff (P : Platform) (toUrl : String → String) (settings : Settings) (ops : List SiteOp) :
    (∀ n, TagsCounted (Transition.run (Site.step P toUrl) (Site.new settings) (ops.take n))) ↔
      Transition.Meets (Site.step P toUrl) (fun s op => ¬ op.SwitchesFollower P s) (Site.new settings) ops :=
  Transition.forall_states_iff_meets (Site.step P toUrl) (siteStep_counted_iff P toUrl) (Site.new settings)
    (fun _ h => absurd h List.not_mem_nil) ops

/-- Ann, who is the admin of the site, makes a tag; Bob signs up, which makes Bob
follow it, and is disabled. -/
def annDisablesBob : Site :=
  Transition.run (Site.step .plain id) (Site.new { adminEmail := some "ann@blnkk.com" })
    [.db (.signUp "ann@blnkk.com" "ann"), .createTag 1 "sports" "hash", .db (.signUp "bob@mail.org" "bob"),
      .db (.manageUser 1 (.disable 2))]

theorem disabled_bob_still_counted :
    ∃ tag ∈ annDisablesBob.tags.rows, tag.userCount = 2 ∧ annDisablesBob.followers tag.id = 1 := by
  decide +kernel

end Blnkk
