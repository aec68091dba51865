import Blnkk.TagActions

/-!
`TagsController#update` with each of its parameters given or not: the icon
travels with the name, and the request is looked up when the name is saved.
-/

namespace Blnkk

open Relational

/-- Each given parameter in its column, and nothing else. -/
def TagParams.assigned (toUrl : String → String) (params : TagParams) (tag : Tag) : Tag :=
  { tag with
    name := (params.name.join.map toUrl).getD tag.name
    displayName := params.name.getD tag.displayName
    icon := params.icon.getD tag.icon
    requestId := (params.request.map (fun request => request.toInteger.map Int.toNat)).getD tag.requestId }

namespace Site

variable {P : Platform} {toUrl : String → String} {s : Site} {row tag : Tag}

/-- The request is not given, is blank or exists. -/
def Found (s : Site) (request : Option Param) : Prop := ∀ r ∈ request, TagsController.finds s r = true

/-- The second update succeeds. -/
def Pins (P : Platform) (s : Site) (tag : Tag) (request : Option Param) : Prop :=
  s.Found request ∧ ∀ r ∈ request, s.Storable P (tag.pinned r)

theorem updateRequest_pins (hget : s.tags.get? tag.id = some tag) {request : Option Param} (h : s.Pins P tag request) :
    (TagsController.updateRequest P s tag request).1 = .ok ∧
      (TagsController.updateRequest P s tag request).2.tags.get? tag.id = some ((request.map tag.pinned).getD tag) := by
  cases request with
  | none => exact ⟨rfl, hget⟩
  | some r =>
    rw [TagsController.updateRequest, if_pos (h.1 r rfl), saveTag_storable (h.2 r rfl)]
    exact ⟨rfl, get?_storeTag (tag.pinned r) hget⟩

theorem updateRequest_not_pins {request : Option Param} (h : ¬ s.Pins P tag request) :
    (TagsController.updateRequest P s tag request).1 ≠ .ok ∧ (TagsController.updateRequest P s tag request).2 = s := by
  cases request with
  | none => exact absurd ⟨fun _ hr => absurd hr (Option.not_mem_none _), fun _ hr => absurd hr (Option.not_mem_none _)⟩ h
  | some r =>
    rw [TagsController.updateRequest]
    split_ifs with hfinds
    · refine saveTag_not_storable (fun hs => h ⟨fun _ hr => ?_, fun _ hr => ?_⟩)
      · cases hr
        exact hfinds
      · cases hr
        exact hs
    · exact ⟨Status.noConfusion, rfl⟩

theorem pins_stored (h : s.Storable P row) (request : Option Param) :
    (s.storeTag row).Pins P row request ↔ s.Found request :=
  ⟨fun hp => hp.1, fun hf => ⟨hf, fun r _ => (storable_pinned_iff r).mpr (storable_storeTag h)⟩⟩

/-- An answer other than ok leaves the row, and ok assigns what is given. -/
def Atomic (toUrl : String → String) (s : Site) (id : ℕ) (params : TagParams) (answer : Status × Site) : Prop :=
  (answer.1 ≠ .ok → answer.2.tags.get? id = s.tags.get? id) ∧
    (answer.1 = .ok → answer.2.tags.get? id = (s.tags.get? id).map (params.assigned toUrl))

/-- A name that is saved brings an icon, and a request that exists. -/
def NameApart (P : Platform) (toUrl : String → String) (s : Site) (tag : Tag) (params : TagParams) : Prop :=
  ∀ name, params.name = some (some name) → s.Storable P (tag.named toUrl name params.icon) →
    (s.Found params.request → params.icon ≠ none ∨ tag.icon = none) ∧
      (¬ s.Found params.request → tag.named toUrl name params.icon = tag)

/-- Without a name, the icon is the one that the tag has. -/
def IconApart (P : Platform) (s : Site) (tag : Tag) (params : TagParams) : Prop :=
  params.name = none → s.Pins P tag params.request → ∀ icon, params.icon = some icon → tag.icon = icon

theorem atomic_of_failed {id : ℕ} {params : TagParams} {answer : Status × Site} (h : answer.1 ≠ .ok ∧ answer.2 = s) :
    s.Atomic toUrl id params answer := by
  obtain ⟨hstatus, hstore⟩ := h
  exact ⟨fun _ => by rw [hstore], fun hok => absurd hok hstatus⟩

theorem atomic_of_ok {id : ℕ} {params : TagParams} {answer : Status × Site} (hok : answer.1 = .ok)
    (hget : s.tags.get? id = some tag) (hrow : answer.2.tags.get? id = some row) :
    s.Atomic toUrl id params answer ↔ row = params.assigned toUrl tag := by
  rw [Atomic, hrow, hget, Option.map_some, Option.some.injEq, Option.some.injEq]
  exact ⟨fun h => h.2 hok, fun h => ⟨fun hn => absurd hok hn, fun _ => h⟩⟩

theorem pinned_eq_assigned_iff {params : TagParams} (hname : params.name = none) :
    (params.request.map tag.pinned).getD tag = params.assigned toUrl tag ↔
      ∀ icon, params.icon = some icon → tag.icon = icon := by
  obtain ⟨name, icon, request⟩ := params
  cases hname
  cases icon <;> cases request <;> simp [TagParams.assigned, Tag.pinned, Tag.ext_iff]

theorem named_eq_assigned_iff {params : TagParams} {name : String} (hname : params.name = some (some name)) :
    (params.request.map (tag.named toUrl name params.icon).pinned).getD (tag.named toUrl name params.icon) =
      params.assigned toUrl tag ↔ params.icon ≠ none ∨ tag.icon = none := by
  obtain ⟨name', icon, request⟩ := params
  cases hname
  cases icon <;> cases request <;> simp [TagParams.assigned, Tag.pinned, Tag.named, eq_comm]

theorem updateRequest_atomic_iff (hget : s.tags.get? tag.id = some tag) {params : TagParams}
    (hname : params.name = none) :
    s.Atomic toUrl tag.id params (TagsController.updateRequest P s tag params.request) ↔
      (s.Pins P tag params.request → ∀ icon, params.icon = some icon → tag.icon = icon) := by
  by_cases hp : s.Pins P tag params.request
  · obtain ⟨hok, hrow⟩ := updateRequest_pins hget hp
    rw [atomic_of_ok hok hget hrow, pinned_eq_assigned_iff hname, forall_prop_of_true hp]
  · exact iff_of_true (atomic_of_failed (updateRequest_not_pins hp)) (fun h => absurd h hp)

/-- After the name is saved, only the lookup of the request can fail. -/
theorem stored_atomic_iff (hget : s.tags.get? tag.id = some tag) {params : TagParams} {name : String}
    (hname : params.name = some (some name)) (hs : s.Storable P (tag.named toUrl name params.icon)) :
    s.Atomic toUrl tag.id params
        (TagsController.updateRequest P (s.storeTag (tag.named toUrl name params.icon)) (tag.named toUrl name params.icon)
          params.request) ↔
      (s.Found params.request → params.icon ≠ none ∨ tag.icon = none) ∧
        (¬ s.Found params.request → tag.named toUrl name params.icon = tag) := by
  have hstored : (s.storeTag (tag.named toUrl name params.icon)).tags.get? tag.id =
      some (tag.named toUrl name params.icon) := get?_storeTag (tag.named toUrl name params.icon) hget
  by_cases hf : s.Found params.request
  · obtain ⟨hok, hrow⟩ := updateRequest_pins hstored ((pins_stored hs params.request).mpr hf)
    rw [atomic_of_ok hok hget hrow, named_eq_assigned_iff hname, forall_prop_of_true hf]
    exact (and_iff_left (fun hn => absurd hf hn)).symm
  · obtain ⟨hstatus, hstore⟩ := updateRequest_not_pins (fun hp => hf ((pins_stored hs params.request).mp hp))
    rw [Atomic, hstore, hstored, hget, Option.some.injEq]
    constructor
    · intro h
      exact ⟨fun hn => absurd hn hf, fun _ => h.1 hstatus⟩
    · intro h
      exact ⟨fun _ => h.2 hf, fun hok => absurd hok hstatus⟩

theorem updateTag_atomic_iff (hget : s.tags.get? tag.id = some tag) (params : TagParams) :
    s.Atomic toUrl tag.id params (TagsController.updateTag P toUrl s tag params) ↔
      s.NameApart P toUrl tag params ∧ s.IconApart P tag params := by
  unfold TagsController.updateTag NameApart IconApart
  split
  next hname =>
    rw [updateRequest_atomic_iff hget hname]
    simp [hname]
  next hname => exact iff_of_true (atomic_of_failed ⟨Status.noConfusion, rfl⟩) (by simp [hname])
  next name hname =>
    by_cases hs : s.Storable P (tag.named toUrl name params.icon)
    · simp only [saveTag_storable hs, if_true]
      rw [stored_atomic_iff hget hname hs]
      simp [hname, hs]
    · have hfailed := saveTag_not_storable hs
      refine iff_of_true (atomic_of_failed ?_) (by simp [hname, hs])
      rw [if_neg hfailed.1]
      exact hfailed

/-- The update is atomic exactly if it brings the icon with the name and no
request that does not exist. -/
theorem tag_update_atomic_iff (P : Platform) (toUrl : String → String) (s : Site) (me id : ℕ) (params : TagParams) :
    s.Atomic toUrl id params (TagsController.update P toUrl s me id params) ↔
      ∀ user tag, s.db.users.get? me = some user → user.admin = true → s.tags.get? id = some tag →
        s.NameApart P toUrl tag params ∧ s.IconApart P tag params := by
  unfold TagsController.update
  cases hme : s.db.users.get? me with
  | none => exact iff_of_true (atomic_of_failed ⟨Status.noConfusion, rfl⟩) (fun user tag h => nomatch h)
  | some user =>
    cases hid : s.tags.get? id with
    | none => exact iff_of_true (atomic_of_failed ⟨Status.noConfusion, rfl⟩) (fun user tag _ _ h => nomatch h)
    | some tag =>
      obtain rfl := Table.get?_key hid
      by_cases hadmin : user.admin = true
      · simp only [if_pos hadmin]
        rw [updateTag_atomic_iff hid]
        constructor
        · rintro h _ _ ⟨⟩ _ ⟨⟩
          exact h
        · intro h
          exact h user tag rfl hadmin rfl
      · simp only [if_neg hadmin]
        refine iff_of_true (atomic_of_failed ⟨Status.noConfusion, rfl⟩) ?_
        rintro _ _ ⟨⟩ h
        exact absurd h hadmin

end Site

def music : Tag := { id := 5, name := "music", displayName := some "Music" }

/-- A tag, and an admin. -/
def oneTag : Site where
  db := { Db.new {} with users := ⟨[{ id := 1, email := "ann@doers.io", name := "Ann", admin := true }], by decide⟩ }
  tags := ⟨[music], by decide⟩
  taggings := .empty

/-- A request that does not exist comes with a new name; a new name comes without
an icon; a new icon comes without a name. -/
theorem tag_update_not_atomic :
    let update := TagsController.update .plain Text.downcase oneTag 1 5
    (update ⟨some (some "Jazz"), some (some "note"), some (.int 7)⟩).1 = .notFound ∧
      (update ⟨some (some "Jazz"), some (some "note"), some (.int 7)⟩).2.tags.rows =
        [{ id := 5, name := "jazz", displayName := some "Jazz", icon := some "note" }] ∧
      (update ⟨some (some "Jazz"), none, none⟩).1 = .ok ∧
      (update ⟨some (some "Jazz"), none, none⟩).2.tags.rows =
        [{ id := 5, name := "jazz", displayName := some "Jazz", icon := none }] ∧
      (update ⟨none, some (some "note"), none⟩).1 = .ok ∧
      (update ⟨none, some (some "note"), none⟩).2.tags.rows = [music] := by
  decide +kernel

end Blnkk
