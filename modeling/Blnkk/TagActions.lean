import Blnkk.Operations
import Blnkk.Tags

/-!
The actions that change tags and who follows them, and the runs of a whole site.
The name of a tag is a slug, `to_url` of what an admin typed, so it stands in a
tag list as it is and finds its tag again.
-/

namespace Blnkk

open Relational

namespace Tag

inductive Error where
  | nameBlank
  | nameTaken
  | nameTooLong
  | nameTooShort
  | displayNameTooShort
  deriving DecidableEq

def Error.entry : Error → String × String
  | nameBlank => ("name", "can't be blank")
  | nameTaken => ("name", "has already been taken")
  | nameTooLong => ("name", "is too long (maximum is 255 characters)")
  | nameTooShort => ("name", "is too short (minimum is 3 characters)")
  | displayNameTooShort => ("display_name", "is too short (minimum is 3 characters)")

def named (toUrl : String → String) (tag : Tag) (name : String) (icon : Option (Option String)) : Tag :=
  -- the icon is nil if it is not given
  { tag with name := toUrl name, displayName := some name, icon := icon.join }

def pinned (tag : Tag) (request : Param) : Tag := { tag with requestId := request.toInteger.map Int.toNat }

end Tag

namespace Site

variable (P : Platform) (s : Site)

def new (settings : Settings) : Site := ⟨Db.new settings, .empty, .empty⟩

def otherTags (row : Tag) (p : Tag → Bool) : Bool := s.tags.rows.any (fun tag => decide (tag.id ≠ row.id) && p tag)

def tagErrors (row : Tag) : List Tag.Error :=
  (if Text.present row.name then [] else [.nameBlank]) ++
  (if s.otherTags row (fun tag => tag.name == row.name) then [.nameTaken] else []) ++
  (if row.name.toList.length ≤ 255 then [] else [.nameTooLong]) ++
  (if 3 ≤ row.name.toList.length then [] else [.nameTooShort]) ++
  (if 3 ≤ (row.displayName.getD "").toList.length then [] else [.displayNameTooShort])

/-- What the database rejects: a name that is taken under the collation of the
index, and a text that is too long for its column. -/
def tagRejected (row : Tag) : Bool :=
  s.otherTags row (fun tag => P.collate tag.name row.name) ||
    [some row.name, row.displayName, row.icon].any (fun text => text.any (fun text => !fitsString text))

def storeTag (row : Tag) : Site := { s with tags := s.tags.update row.id (fun old => { row with id := old.id }) }

def saveTag (row : Tag) : Status × Site :=
  if (s.tagErrors row).isEmpty then
    if s.tagRejected P row then (.internalServerError, s) else (.ok, s.storeTag row)
  else (.unprocessableEntity, s)

/-- The row passes the validations and the constraints of the table. -/
def Storable (row : Tag) : Prop := s.tagErrors row = [] ∧ s.tagRejected P row = false

def followers (tag : ℕ) : ℤ := s.db.users.count (fun u => u.enabled && s.taggings.has (tag, .user u.id))

def populate (tag : ℕ) : Site :=
  { s with tags := s.tags.update tag (fun row => { row with userCount := s.followers tag }) }

def follow (tag user : ℕ) : Site := { s with taggings := s.taggings.ensure ⟨tag, .user user⟩ }

def signUp (email name : String) : Site :=
  match createUser P s.db email name with
  | .error _ => s
  | .ok (user, db) =>
    let tags := s.tags.rows.map Tag.id
    tags.foldl populate (tags.foldl (fun site tag => site.follow tag user) { s with db })

section Saved

variable {P} {s} {row tag : Tag}

theorem saveTag_storable (h : s.Storable P row) : s.saveTag P row = (.ok, s.storeTag row) := by
  rw [saveTag, if_pos (by rw [h.1]; rfl), if_neg (by rw [h.2]; exact Bool.false_ne_true)]

theorem saveTag_not_storable (h : ¬ s.Storable P row) : (s.saveTag P row).1 ≠ .ok ∧ (s.saveTag P row).2 = s := by
  unfold saveTag
  split_ifs with herrors hrejected
  · exact ⟨Status.noConfusion, rfl⟩
  · exact absurd ⟨List.isEmpty_iff.mp herrors, Bool.eq_false_iff.mpr hrejected⟩ h
  · exact ⟨Status.noConfusion, rfl⟩

theorem get?_storeTag (row : Tag) (h : s.tags.get? row.id = some tag) : (s.storeTag row).tags.get? row.id = some row := by
  rw [storeTag, Table.get?_update, if_pos rfl, h, Option.map_some, Table.get?_key h]

theorem mem_storeTag {other : Tag} (h : other ∈ (s.storeTag row).tags.rows) :
    other = row ∨ other ∈ s.tags.rows ∧ other.id ≠ row.id := by
  obtain ⟨old, hold, rfl⟩ := List.mem_map.mp h
  by_cases hid : old.id = row.id
  · left
    rw [if_pos (decide_eq_true hid)]
    exact Tag.ext hid rfl rfl rfl rfl rfl
  · right
    rw [if_neg (by simpa using hid)]
    exact ⟨hold, hid⟩

theorem storeTag_storeTag {later : Tag} (h : later.id = row.id) : (s.storeTag row).storeTag later = s.storeTag later := by
  unfold storeTag
  congr 1
  apply Table.ext
  simp only [Table.update, Table.updateWhere, List.map_map, h]
  apply List.map_congr_left
  intro old _
  by_cases hid : old.id = row.id <;> simp [hid]

theorem otherTags_storeTag (p : Tag → Bool) : (s.storeTag row).otherTags row p = s.otherTags row p := by
  simp only [otherTags, storeTag, Table.update, Table.updateWhere, List.any_map]
  congr 1
  funext old
  by_cases h : old.id = row.id <;> simp [h]

theorem storable_pinned_iff (request : Param) : s.Storable P (row.pinned request) ↔ s.Storable P row := Iff.rfl

/-- A row that has been saved can be saved again. -/
theorem storable_storeTag (h : s.Storable P row) : (s.storeTag row).Storable P row := by
  obtain ⟨herrors, hrejected⟩ := h
  constructor
  · rw [← herrors, tagErrors, tagErrors, otherTags_storeTag]
  · rw [← hrejected, tagRejected, tagRejected, otherTags_storeTag]

end Saved

end Site

/-- An entry of a tag list. -/
def TagList.clean (name : String) : String := Text.downcase (Text.strip name)

namespace UsersController

variable (P : Platform) (s : Site) (me : ℕ)

def addTag (name : String) : Status × Site :=
  match s.db.users.get? me with
  | none => (.unauthorized, s)
  | some user =>
    match s.findTag P name with
    | none => (.notFound, s)
    | some tag =>
      let saved := user.updateAttributes P s.db []
      if saved.1 then
        -- an entry that is no tag's name would make a new tag, which is not valid without a display name
        if TagList.clean name = Text.downcase tag.name then
          (.ok, (({ s with db := saved.2 } : Site).follow tag.id me).populate tag.id)
        else (.internalServerError, s)
      else (.unprocessableEntity, s)

theorem addTag_cases (name : String) :
    (addTag P s me name).2 = s ∨ ∃ user tag, s.db.users.get? me = some user ∧ s.findTag P name = some tag ∧
      (addTag P s me name).2 =
        (({ s with db := (user.updateAttributes P s.db []).2 } : Site).follow tag.id me).populate tag.id := by
  unfold addTag
  cases s.db.users.get? me with
  | none => exact Or.inl rfl
  | some user =>
    cases s.findTag P name with
    | none => exact Or.inl rfl
    | some tag =>
      simp only
      split_ifs
      · exact Or.inr ⟨user, tag, rfl, rfl, rfl⟩
      · exact Or.inl rfl
      · exact Or.inl rfl

/-- The name has to be the entry of the list, not only match it in the database. -/
def removeTag (name : String) : Status × Site :=
  match s.db.users.get? me with
  | none => (.unauthorized, s)
  | some user =>
    match s.findTag P name with
    | none => (.notFound, s)
    | some tag =>
      let saved := user.updateAttributes P s.db []
      if saved.1 then
        let taggings := if name = tag.name then s.taggings.erase (tag.id, .user me) else s.taggings
        (.ok, ({ s with db := saved.2, taggings } : Site).populate tag.id)
      else (.unprocessableEntity, s)

theorem removeTag_cases (name : String) :
    (removeTag P s me name).2 = s ∨ ∃ user tag taggings, s.db.users.get? me = some user ∧
      (taggings = s.taggings.erase (tag, .user me) ∨ taggings = s.taggings) ∧
      (removeTag P s me name).2 =
        ({ s with db := (user.updateAttributes P s.db []).2, taggings } : Site).populate tag := by
  unfold removeTag
  cases s.db.users.get? me with
  | none => exact Or.inl rfl
  | some user =>
    cases s.findTag P name with
    | none => exact Or.inl rfl
    | some tag =>
      simp only
      by_cases hs : (user.updateAttributes P s.db []).1 = true
      · rw [if_pos hs]
        exact Or.inr ⟨user, tag.id, _, rfl, ite_eq_or_eq _ _ _, rfl⟩
      · rw [if_neg hs]
        exact Or.inl rfl

end UsersController

/-- The parameters of `TagsController#update`, each of them given or not. -/
structure TagParams where
  -- null stands for every value that has no `to_url`
  name : Option (Option String) := none
  icon : Option (Option String) := none
  request : Option Param := none
  deriving DecidableEq

namespace TagsController

variable (P : Platform) (toUrl : String → String) (s : Site) (me : ℕ)

def isAdmin : Bool := ((s.db.users.get? me).map User.admin).getD false

/-- `nil.to_url` raises. The icon is nil if it is not given. -/
def create (name icon : Option String) : Status × Site :=
  match s.db.users.get? me with
  | none => (.unauthorized, s)
  | some user =>
    if user.admin then
      match name with
      | none => (.internalServerError, s)
      | some name =>
        let row : Tag := { id := s.tags.fresh, name := toUrl name, displayName := some name, icon }
        if (s.tagErrors row).isEmpty then
          if s.tagRejected P row then (.internalServerError, s)
          else
            let stored : Site := { s with tags := s.tags.insertFresh (fun id => { row with id }) }
            let saved := user.updateAttributes P s.db []
            let followed := if saved.1 then ({ stored with db := saved.2 } : Site).follow row.id me else stored
            (.created, followed.populate row.id)
        else (.unprocessableEntity, s)
    else (.unauthorized, s)

theorem create_cases (name icon : Option String) :
    (create P toUrl s me name icon).2 = s ∨
      ∃ (user : User) (row : Tag), s.db.users.get? me = some user ∧ row.requestId = none ∧
        let stored : Site := { s with tags := s.tags.insertFresh (fun id => { row with id }) }
        (create P toUrl s me name icon).2 = stored.populate s.tags.fresh ∨
          (create P toUrl s me name icon).2 =
            (({ stored with db := (user.updateAttributes P s.db []).2 } : Site).follow s.tags.fresh me).populate
              s.tags.fresh := by
  unfold create
  cases s.db.users.get? me with
  | none => exact Or.inl rfl
  | some user =>
    cases name with
    | none =>
      left
      simp only
      split_ifs <;> rfl
    | some name =>
      simp only
      split_ifs
      · exact Or.inl rfl
      · exact Or.inr ⟨user, { id := 0, name := toUrl name, displayName := some name, icon }, rfl, rfl, Or.inr rfl⟩
      · exact Or.inr ⟨user, { id := 0, name := toUrl name, displayName := some name, icon }, rfl, rfl, Or.inl rfl⟩
      · exact Or.inl rfl
      · exact Or.inl rfl

/-- `Request.find_by!` for a parameter that is present. -/
def finds (request : Param) : Bool :=
  !request.present || request.toInteger.any (fun id => decide (0 ≤ id) && s.db.requests.has id.toNat)

def updateRequest (tag : Tag) : Option Param → Status × Site
  | none => (.ok, s)
  | some request => if finds s request then s.saveTag P (tag.pinned request) else (.notFound, s)

/-- The request is looked up after the name has been saved. -/
def updateTag (tag : Tag) (params : TagParams) : Status × Site :=
  match params.name with
  | none => updateRequest P s tag params.request
  | some none => (.internalServerError, s)
  | some (some name) =>
    let renamed := tag.named toUrl name params.icon
    let saved := s.saveTag P renamed
    if saved.1 = .ok then updateRequest P saved.2 renamed params.request else saved

def update (id : ℕ) (params : TagParams) : Status × Site :=
  match s.db.users.get? me with
  | none => (.unauthorized, s)
  | some user =>
    match s.tags.get? id with
    | none => (.notFound, s)
    | some tag => if user.admin then updateTag P toUrl s tag params else (.unauthorized, s)

theorem updateRequest_cases (tag : Tag) (request : Option Param) :
    (updateRequest P s tag request).2 = s ∨
      ∃ given, (updateRequest P s tag request).2 = s.storeTag (tag.pinned given) := by
  cases request with
  | none => exact Or.inl rfl
  | some given =>
    rw [updateRequest]
    split_ifs
    · by_cases h : s.Storable P (tag.pinned given)
      · rw [Site.saveTag_storable h]
        exact Or.inr ⟨given, rfl⟩
      · exact Or.inl (Site.saveTag_not_storable h).2
    · exact Or.inl rfl

theorem updateTag_cases (tag : Tag) (params : TagParams) :
    (updateTag P toUrl s tag params).2 = s ∨
      ∃ row : Tag, row.id = tag.id ∧ row.userCount = tag.userCount ∧ (updateTag P toUrl s tag params).2 = s.storeTag row := by
  unfold updateTag
  split
  · rcases updateRequest_cases P s tag params.request with h | ⟨given, h⟩
    · exact Or.inl h
    · exact Or.inr ⟨tag.pinned given, rfl, rfl, h⟩
  · exact Or.inl rfl
  · rename_i name _
    by_cases hs : s.Storable P (tag.named toUrl name params.icon)
    · simp only [Site.saveTag_storable hs, if_true]
      right
      rcases updateRequest_cases P (s.storeTag (tag.named toUrl name params.icon)) (tag.named toUrl name params.icon)
        params.request with h | ⟨given, h⟩
      · exact ⟨tag.named toUrl name params.icon, rfl, rfl, h⟩
      · exact ⟨(tag.named toUrl name params.icon).pinned given, rfl, rfl, h.trans (Site.storeTag_storeTag rfl)⟩
    · obtain ⟨hstatus, hstore⟩ := Site.saveTag_not_storable hs
      simp only [if_neg hstatus]
      exact Or.inl hstore

theorem update_cases (id : ℕ) (params : TagParams) :
    (update P toUrl s me id params).2 = s ∨
      ∃ tag row : Tag, s.tags.get? id = some tag ∧ row.id = tag.id ∧ row.userCount = tag.userCount ∧
        (update P toUrl s me id params).2 = s.storeTag row := by
  unfold update
  cases s.db.users.get? me with
  | none => exact Or.inl rfl
  | some user =>
    cases s.tags.get? id with
    | none => exact Or.inl rfl
    | some tag =>
      simp only
      split_ifs
      · rcases updateTag_cases P toUrl s tag params with h | ⟨row, hid, hcount, h⟩
        · exact Or.inl h
        · exact Or.inr ⟨tag, row, rfl, hid, hcount, h⟩
      · exact Or.inl rfl

def destroy (id : ℕ) : Status × Site :=
  if !s.db.users.has me then (.unauthorized, s)
  else if s.tags.has id then
    if isAdmin s me then
      (.ok, { s with
        tags := s.tags.erase id
        taggings := s.taggings.restrict (fun tagging => decide (tagging.tagId ≠ id)) })
    else (.unauthorized, s)
  else (.notFound, s)

theorem destroy_cases (id : ℕ) :
    (destroy s me id).2 = s ∨
      (destroy s me id).2 = { s with
        tags := s.tags.erase id
        taggings := s.taggings.restrict (fun tagging => decide (tagging.tagId ≠ id)) } := by
  unfold destroy
  split_ifs
  · exact Or.inl rfl
  · exact Or.inr rfl
  · exact Or.inl rfl
  · exact Or.inl rfl

end TagsController

namespace RequestsController

/-- Deleting a request takes it away from the tags it is sticky in. -/
def unstick (s : Site) (me id : ℕ) : Site :=
  match s.db.users.get? me, s.db.requests.get? id with
  | some user, some request =>
    if (request.userId = me ∨ user.admin) ∧ request.workflowState = .active then
      { s with
        tags := s.tags.updateWhere (fun tag => decide (tag.requestId = some id)) (fun tag => { tag with requestId := none }) }
    else s
  | _, _ => s

end RequestsController

inductive SiteOp where
  | db (op : Op)
  | addTag (me : ℕ) (name : String)
  | removeTag (me : ℕ) (name : String)
  | createTag (me : ℕ) (name icon : Option String)
  | updateTag (me id : ℕ) (params : TagParams)
  | destroyTag (me id : ℕ)
  deriving DecidableEq

namespace Site

variable (P : Platform) (toUrl : String → String)

def performDb (s : Site) : Op → Site
  | .signUp email name => s.signUp P email name
  | .destroyRequest me id => { RequestsController.unstick s me id with db := step P s.db (.destroyRequest me id) }
  | op => { s with db := step P s.db op }

def step (s : Site) : SiteOp → Site
  | .db op => s.performDb P op
  | .addTag me name => (UsersController.addTag P s me name).2
  | .removeTag me name => (UsersController.removeTag P s me name).2
  | .createTag me name icon => (TagsController.create P toUrl s me name icon).2
  | .updateTag me id params => (TagsController.update P toUrl s me id params).2
  | .destroyTag me id => (TagsController.destroy s me id).2

end Site

end Blnkk
