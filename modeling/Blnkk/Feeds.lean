import Blnkk.FreshPosts
import Blnkk.Lib.Sql
import Blnkk.TagActions
import Blnkk.VisitorPages

/-!
The news and the discover feed of the requests index, and that together they
show every active request.
-/

namespace Blnkk

open Relational Transition

namespace RequestsController

/-- `create` with the parameter `tag`. -/
def createTagged (P : Platform) (s : Site) (me : ℕ) (subject content : String) (reward : Option String)
    (tag : String) : Status × Site :=
  let result := create P s.db me subject content reward
  let created : Site := { s with db := result.2 }
  match result.1, s.findTag P tag with
  | .created, some tag =>
    (.created, { created with taggings := s.taggings.ensure ⟨tag.id, .request s.db.requests.fresh⟩ })
  | status, _ => (status, created)

end RequestsController

inductive PostingOp where
  | site (op : SiteOp)
  | createTagged (me : ℕ) (subject content : String) (reward : Option String) (tag : String)
  deriving DecidableEq

namespace Site

def postingStep (P : Platform) (toUrl : String → String) (s : Site) : PostingOp → Site
  | .site op => s.step P toUrl op
  | .createTagged me subject content reward tag =>
    (RequestsController.createTagged P s me subject content reward tag).2

def allTagIds (s : Site) : List ℕ := s.tags.rows.map Tag.id

end Site

inductive Feed where
  | news
  | discover
  deriving DecidableEq

namespace Feed

variable (s : Site) (viewer : Option ℕ)

/-- A signed-out visitor is taken to follow every tag. -/
def followingTagIds : List ℕ := viewer.elim s.allTagIds s.tagIds

def followingUserIds : List ℕ := viewer.elim [] (fun me => me :: s.followingIds me)

def notFollowingTagIds : List ℕ := s.allTagIds.filter (fun tag => decide (tag ∉ followingTagIds s viewer))

def condition (feed : Feed) (row : Request × Option Tagging) : Sql.Truth :=
  let tagId := row.2.map Tagging.tagId
  let userId := some row.1.userId
  match feed with
  | news => (Sql.isIn tagId (followingTagIds s viewer)).or (Sql.isIn userId (followingUserIds s viewer))
  | discover =>
    if followingUserIds s viewer ≠ [] then
      (Sql.isIn tagId (notFollowingTagIds s viewer)).or
        ((Sql.isNull tagId).and (Sql.isIn userId (followingUserIds s viewer)).not)
    else (Sql.isIn tagId (notFollowingTagIds s viewer)).or (Sql.isNull tagId)

/-- The requests of the feed, on whatever page they are. -/
def requests (feed : Feed) : List Request :=
  (((s.joinTaggings.filter (fun row => (condition s viewer feed row).holds)).map Prod.fst).dedup).filter
    (fun r => decide (r.workflowState = .active))

end Feed

/-- The request carries the tag. -/
def Site.Tagged (s : Site) (r : Request) (tag : ℕ) : Prop := s.taggings.has (tag, .request r.id) = true

section Join

variable {s : Site} {r : Request}

theorem mem_joinTaggings_some {t : Tagging} :
    (r, some t) ∈ s.joinTaggings ↔
      r ∈ s.db.requests.rows ∧ t ∈ s.taggings.rows ∧ t.taggable = .request r.id := by
  rw [Site.joinTaggings, List.mem_flatMap]
  constructor
  · rintro ⟨q, hq, hrow⟩
    split at hrow
    · simp at hrow
    · obtain ⟨t', ht', he⟩ := List.mem_map.mp hrow
      rw [Prod.mk.injEq, Option.some.injEq] at he
      obtain ⟨rfl, rfl⟩ := he
      rw [List.mem_filter, decide_eq_true_eq] at ht'
      exact ⟨hq, ht'⟩
  · rintro ⟨hr, ht⟩
    have hmem : t ∈ s.taggings.rows.filter (fun t => decide (t.taggable = .request r.id)) := by
      rw [List.mem_filter, decide_eq_true_eq]
      exact ht
    refine ⟨r, hr, ?_⟩
    split
    · rename_i hnil
      rw [hnil] at hmem
      cases hmem
    · exact List.mem_map.mpr ⟨t, hmem, rfl⟩

theorem tagged_iff {tag : ℕ} : s.Tagged r tag ↔ ∃ t ∈ s.taggings.rows, t.taggable = .request r.id ∧ t.tagId = tag := by
  rw [Site.Tagged, Table.has_iff]
  constructor
  · rintro ⟨t, ht, hi⟩
    rw [Tagging.index, Prod.mk.injEq] at hi
    exact ⟨t, ht, hi.2, hi.1⟩
  · rintro ⟨t, ht, hq, rfl⟩
    exact ⟨t, ht, by rw [Tagging.index, hq]⟩

theorem mem_joinTaggings_none : (r, none) ∈ s.joinTaggings ↔ r ∈ s.db.requests.rows ∧ ∀ tag, ¬ s.Tagged r tag := by
  have hnil : (∀ tag, ¬ s.Tagged r tag) ↔
      s.taggings.rows.filter (fun t => decide (t.taggable = .request r.id)) = [] := by
    simp only [tagged_iff, List.filter_eq_nil_iff, decide_eq_true_eq]
    constructor
    · intro h t ht hq
      exact h t.tagId ⟨t, ht, hq, rfl⟩
    · rintro h tag ⟨t, ht, hq, -⟩
      exact h t ht hq
  rw [hnil, Site.joinTaggings, List.mem_flatMap]
  constructor
  · rintro ⟨q, hq, hrow⟩
    split at hrow
    · rename_i he
      rw [List.mem_singleton, Prod.mk.injEq] at hrow
      rw [hrow.1]
      exact ⟨hq, he⟩
    · simp at hrow
  · rintro ⟨hr, he⟩
    refine ⟨r, hr, ?_⟩
    rw [he]
    exact List.mem_singleton_self _

/-- A condition on the tag of a row holds in some row of the request if one of
its tags meets it, or NULL does and there is no tag. -/
theorem exists_joinTaggings_iff (p : Option ℕ → Prop) :
    (∃ t, (r, t) ∈ s.joinTaggings ∧ p (t.map Tagging.tagId)) ↔
      r ∈ s.db.requests.rows ∧ ((∃ tag, s.Tagged r tag ∧ p (some tag)) ∨ (∀ tag, ¬ s.Tagged r tag) ∧ p none) := by
  constructor
  · rintro ⟨_ | t, hrow, hp⟩
    · obtain ⟨hr, hn⟩ := mem_joinTaggings_none.mp hrow
      exact ⟨hr, Or.inr ⟨hn, hp⟩⟩
    · obtain ⟨hr, ht, hq⟩ := mem_joinTaggings_some.mp hrow
      exact ⟨hr, Or.inl ⟨t.tagId, tagged_iff.mpr ⟨t, ht, hq, rfl⟩, hp⟩⟩
  · rintro ⟨hr, ⟨tag, htag, hp⟩ | ⟨hn, hp⟩⟩
    · obtain ⟨t, ht, hq, rfl⟩ := tagged_iff.mp htag
      exact ⟨some t, mem_joinTaggings_some.mpr ⟨hr, ht, hq⟩, hp⟩
    · exact ⟨none, mem_joinTaggings_none.mpr ⟨hr, hn⟩, hp⟩

end Join

namespace Feed

variable {s : Site} {viewer : Option ℕ} {r : Request}

theorem mem_requests {feed : Feed} :
    r ∈ requests s viewer feed ↔
      (∃ t, (r, t) ∈ s.joinTaggings ∧ (condition s viewer feed (r, t)).holds = true) ∧ r.workflowState = .active := by
  simp only [requests, List.mem_filter, List.mem_dedup, List.mem_map, decide_eq_true_eq, Prod.exists,
    exists_and_right, exists_eq_right]

theorem mem_news :
    r ∈ requests s viewer news ↔ r ∈ s.db.requests.rows ∧ r.workflowState = .active ∧
      ((∃ tag, s.Tagged r tag ∧ tag ∈ followingTagIds s viewer) ∨ r.userId ∈ followingUserIds s viewer) := by
  have hcondition (t : Option Tagging) : (condition s viewer news (r, t)).holds = true ↔
      (∃ tag ∈ followingTagIds s viewer, t.map Tagging.tagId = some tag) ∨ r.userId ∈ followingUserIds s viewer := by
    simp only [condition, Sql.Truth.holds_or, Sql.holds_isIn, Option.some.injEq, exists_eq_right']
  simp only [mem_requests, hcondition]
  rw [exists_joinTaggings_iff (fun tagId => (∃ tag ∈ followingTagIds s viewer, tagId = some tag) ∨ _)]
  simp only [Option.some.injEq, exists_eq_right', reduceCtorEq, and_false, exists_false, false_or]
  constructor
  · rintro ⟨⟨hr, ⟨tag, htag, hf | hu⟩ | ⟨-, hu⟩⟩, hactive⟩
    · exact ⟨hr, hactive, Or.inl ⟨tag, htag, hf⟩⟩
    · exact ⟨hr, hactive, Or.inr hu⟩
    · exact ⟨hr, hactive, Or.inr hu⟩
  · rintro ⟨hr, hactive, ⟨tag, htag, hf⟩ | hu⟩
    · exact ⟨⟨hr, Or.inl ⟨tag, htag, Or.inl hf⟩⟩, hactive⟩
    · by_cases hn : ∃ tag, s.Tagged r tag
      · obtain ⟨tag, htag⟩ := hn
        exact ⟨⟨hr, Or.inl ⟨tag, htag, Or.inr hu⟩⟩, hactive⟩
      · exact ⟨⟨hr, Or.inr ⟨not_exists.mp hn, hu⟩⟩, hactive⟩

theorem mem_discover :
    r ∈ requests s viewer discover ↔ r ∈ s.db.requests.rows ∧ r.workflowState = .active ∧
      ((∃ tag, s.Tagged r tag ∧ tag ∈ notFollowingTagIds s viewer) ∨
        (∀ tag, ¬ s.Tagged r tag) ∧ r.userId ∉ followingUserIds s viewer) := by
  have hcondition (t : Option Tagging) : (condition s viewer discover (r, t)).holds = true ↔
      (∃ tag ∈ notFollowingTagIds s viewer, t.map Tagging.tagId = some tag) ∨
        t.map Tagging.tagId = none ∧ r.userId ∉ followingUserIds s viewer := by
    simp only [condition]
    split_ifs with hu
    · rw [Sql.Truth.holds_or, Sql.Truth.holds_and, Sql.holds_isIn, Sql.holds_isNull, Sql.holds_not_isIn _ hu]
    · rw [ne_eq, not_not] at hu
      rw [Sql.Truth.holds_or, Sql.holds_isIn, Sql.holds_isNull, hu]
      simp
  simp only [mem_requests, hcondition]
  rw [exists_joinTaggings_iff (fun tagId => (∃ tag ∈ notFollowingTagIds s viewer, tagId = some tag) ∨ tagId = none ∧ _)]
  simp only [Option.some.injEq, exists_eq_right', reduceCtorEq, and_false, exists_false, false_or, false_and, or_false,
    true_and]
  rw [and_assoc, and_comm (b := r.workflowState = .active)]

theorem nodup_requests (feed : Feed) : ((requests s viewer feed).map Request.id).Nodup := by
  apply List.Nodup.map_on
  · intro a ha b hb hid
    obtain ⟨⟨_, ha, -⟩, -⟩ := mem_requests.mp ha
    obtain ⟨⟨_, hb, -⟩, -⟩ := mem_requests.mp hb
    exact List.inj_on_of_nodup_map s.db.requests.unique (FreshRun.mem_joinTaggings ha) (FreshRun.mem_joinTaggings hb) hid
  · exact (List.nodup_dedup _).filter _

theorem mem_news_visitor :
    r ∈ requests s none news ↔
      r ∈ s.db.requests.rows ∧ r.workflowState = .active ∧ ∃ tag ∈ s.allTagIds, s.Tagged r tag := by
  rw [mem_news]
  simp only [followingUserIds, followingTagIds, Option.elim, List.not_mem_nil, or_false, and_comm (b := _ ∈ s.allTagIds)]

theorem mem_discover_visitor :
    r ∈ requests s none discover ↔
      r ∈ s.db.requests.rows ∧ r.workflowState = .active ∧ ∀ tag, ¬ s.Tagged r tag := by
  have hnone (tag : ℕ) : tag ∉ notFollowingTagIds s none := by
    intro htag
    rw [notFollowingTagIds, List.mem_filter, decide_eq_true_eq] at htag
    exact htag.2 htag.1
  rw [mem_discover]
  simp only [hnone, and_false, exists_false, false_or, followingUserIds, Option.elim, List.not_mem_nil,
    not_false_eq_true, and_true]

/-- The feeds of a signed-out visitor are the lists that the pages answer with. -/
theorem visitor_requests (P : Platform) (feed : Feed) :
    ∃ shown, Visitor.feed P s { discover := decide (feed = discover) } = some shown ∧
      (r ∈ requests s none feed ↔ r ∈ s.db.requests.rows ∧ Visitor.listed shown r = true) := by
  cases feed with
  | news =>
    refine ⟨_, rfl, ?_⟩
    rw [mem_news_visitor, Visitor.listed, Bool.and_eq_true, decide_eq_true_eq, List.any_eq_true]
    simp only [Site.allTagIds, List.mem_map, exists_exists_and_eq_and, Site.Tagged]
  | discover =>
    refine ⟨_, rfl, ?_⟩
    rw [mem_discover_visitor, Visitor.listed, Bool.and_eq_true, decide_eq_true_eq, Bool.not_eq_true', List.any_eq_false]
    simp only [decide_eq_true_eq, tagged_iff, not_exists, not_and]
    constructor
    · rintro ⟨hr, hactive, hn⟩
      exact ⟨hr, hactive, fun t ht hq => hn t.tagId t ht hq rfl⟩
    · rintro ⟨hr, hactive, hn⟩
      exact ⟨hr, hactive, fun _ t ht hq _ => hn t ht hq⟩

end Feed

/-- Every tagging is of a tag that exists. -/
def Site.TagsExist (s : Site) : Prop := ∀ t ∈ s.taggings.rows, s.tags.has t.tagId = true

namespace Site.TagsExist

variable {s : Site}

theorem of_keeps {s' : Site} (h : s.TagsExist) (hkeeps : ∀ id, s.tags.has id = true → s'.tags.has id = true)
    (hadds : ∀ t ∈ s'.taggings.rows, t ∈ s.taggings.rows ∨ s'.tags.has t.tagId = true) : s'.TagsExist := by
  intro t ht
  rcases hadds t ht with hold | hnew
  · exact hkeeps t.tagId (h t hold)
  · exact hnew

theorem updateTag (h : s.TagsExist) (id : ℕ) (f : Tag → Tag) (hf : ∀ tag, (f tag).id = tag.id) :
    ({ s with tags := s.tags.update id f hf } : Site).TagsExist := by
  refine h.of_keeps (fun k hk => ?_) (fun t ht => Or.inl ht)
  rw [Table.has_update]
  exact hk

theorem populate (h : s.TagsExist) (id : ℕ) : (s.populate id).TagsExist :=
  h.updateTag id (fun row => { row with userCount := s.followers id }) (fun _ => rfl)

theorem ensure (h : s.TagsExist) {tag : ℕ} (htag : s.tags.has tag = true) (taggable : Taggable) :
    ({ s with taggings := s.taggings.ensure ⟨tag, taggable⟩ } : Site).TagsExist := by
  refine h.of_keeps (fun _ hk => hk) (fun t ht => ?_)
  rw [Table.ensure_rows] at ht
  split_ifs at ht
  · exact Or.inl ht
  · rcases List.mem_append.mp ht with hold | hnew
    · exact Or.inl hold
    · rw [List.mem_singleton.mp hnew]
      exact Or.inr htag

theorem of_db (h : s.TagsExist) (db : Db) : ({ s with db } : Site).TagsExist := h

theorem has_findTag {P : Platform} {name : String} {tag : Tag} (h : s.findTag P name = some tag) :
    s.tags.has tag.id = true := Table.has_of_mem (List.mem_of_find?_eq_some h)

theorem signUp (h : s.TagsExist) (P : Platform) (email name : String) : (s.signUp P email name).TagsExist := by
  unfold Site.signUp
  cases createUser P s.db email name with
  | error _ => exact h
  | ok created =>
    obtain ⟨user, db⟩ := created
    have hfollows (tags : List ℕ) (s' : Site) (h' : s'.TagsExist) (htags : ∀ tag ∈ tags, s'.tags.has tag = true) :
        (tags.foldl (fun site tag => site.follow tag user) s').TagsExist := by
      induction tags generalizing s' with
      | nil => exact h'
      | cons tag tags ih =>
        exact ih _ (h'.ensure (htags tag List.mem_cons_self) (.user user))
          (fun other hother => htags other (List.mem_cons_of_mem _ hother))
    apply run_invariant Site.populate (I := Site.TagsExist) (fun _ id hs => hs.populate id)
    apply hfollows _ _ (h.of_db db)
    intro tag htag
    obtain ⟨row, hrow, rfl⟩ := List.mem_map.mp htag
    exact Table.has_of_mem hrow

theorem performDb (h : s.TagsExist) (P : Platform) (op : Op) : (s.performDb P op).TagsExist := by
  cases op with
  | signUp email name => exact h.signUp P email name
  | destroyRequest me id =>
    refine of_db ?_ _
    unfold RequestsController.unstick
    split
    · split_ifs
      · refine h.of_keeps (fun k hk => ?_) (fun t ht => Or.inl ht)
        rw [Table.has_updateWhere]
        exact hk
      · exact h
    · exact h
  | _ => exact h

theorem addTag (h : s.TagsExist) (P : Platform) (me : ℕ) (name : String) :
    (UsersController.addTag P s me name).2.TagsExist := by
  rcases UsersController.addTag_cases P s me name with he | ⟨user, tag, -, htag, he⟩
  · rw [he]
    exact h
  · rw [he]
    generalize user.updateAttributes P s.db [] = saved
    exact populate (ensure (h.of_db saved.2) (has_findTag htag) (.user me)) tag.id

theorem removeTag (h : s.TagsExist) (P : Platform) (me : ℕ) (name : String) :
    (UsersController.removeTag P s me name).2.TagsExist := by
  rcases UsersController.removeTag_cases P s me name with he | ⟨user, tag, taggings, -, htaggings, he⟩
  · rw [he]
    exact h
  · rw [he]
    apply populate
    refine h.of_keeps (fun _ hk => hk) (fun t ht => Or.inl ?_)
    rcases htaggings with rfl | rfl
    · exact (Table.mem_erase.mp ht).1
    · exact ht

theorem createTag (h : s.TagsExist) (P : Platform) (toUrl : String → String) (me : ℕ) (name icon : Option String) :
    (TagsController.create P toUrl s me name icon).2.TagsExist := by
  have hhas (row : Tag) (k : ℕ) := Table.has_insertFresh s.tags (fun id => { row with id }) (fun _ => rfl) k
  have hstored (row : Tag) (db : Db) : (⟨db, s.tags.insertFresh (fun id => { row with id }), s.taggings⟩ : Site).TagsExist :=
    h.of_keeps (fun k hk => (hhas row k).mpr (Or.inl hk)) (fun t ht => Or.inl ht)
  rcases TagsController.create_cases P toUrl s me name icon with he | ⟨user, row, -, -, he | he⟩
  · rw [he]
    exact h
  · rw [he]
    exact populate (hstored row s.db) s.tags.fresh
  · rw [he]
    exact populate (ensure (hstored row _) ((hhas row _).mpr (Or.inr rfl)) (.user me)) s.tags.fresh

theorem updateTagAction (h : s.TagsExist) (P : Platform) (toUrl : String → String) (me id : ℕ) (params : TagParams) :
    (TagsController.update P toUrl s me id params).2.TagsExist := by
  rcases TagsController.update_cases P toUrl s me id params with he | ⟨tag, row, -, -, -, he⟩
  · rw [he]
    exact h
  · rw [he]
    exact h.updateTag row.id (fun old => { row with id := old.id }) (fun _ => rfl)

theorem destroyTag (h : s.TagsExist) (me id : ℕ) : (TagsController.destroy s me id).2.TagsExist := by
  rcases TagsController.destroy_cases s me id with h' | h'
  · rw [h']
    exact h
  · rw [h']
    intro t ht
    obtain ⟨ht, hid⟩ := List.mem_filter.mp ht
    obtain ⟨tag, htag, he⟩ := (Table.has_iff _ _).mp (h t ht)
    rw [decide_eq_true_eq, ← he] at hid
    rw [← he]
    exact Table.has_of_mem (Table.mem_erase.mpr ⟨htag, hid⟩)

theorem postingStep (h : s.TagsExist) (P : Platform) (toUrl : String → String) (op : PostingOp) :
    (s.postingStep P toUrl op).TagsExist := by
  cases op with
  | site op =>
    cases op with
    | db op => exact h.performDb P op
    | addTag me name => exact h.addTag P me name
    | removeTag me name => exact h.removeTag P me name
    | createTag me name icon => exact h.createTag P toUrl me name icon
    | updateTag me id params => exact h.updateTagAction P toUrl me id params
    | destroyTag me id => exact h.destroyTag me id
  | createTagged me subject content reward tag =>
    simp only [Site.postingStep, RequestsController.createTagged]
    generalize RequestsController.create P s.db me subject content reward = result
    split
    · rename_i htag
      exact ensure (h.of_db result.2) (has_findTag htag) _
    · exact h

end Site.TagsExist

theorem mem_allTagIds {s : Site} (h : s.TagsExist) {r : Request} {tag : ℕ} (ht : s.Tagged r tag) :
    tag ∈ s.allTagIds := by
  obtain ⟨t, hrow, -, rfl⟩ := tagged_iff.mp ht
  obtain ⟨row, htag, he⟩ := (Table.has_iff _ _).mp (h t hrow)
  exact List.mem_map.mpr ⟨row, htag, he⟩

theorem mem_tagIds {s : Site} {me tag : ℕ} (h : tag ∈ s.allTagIds) :
    tag ∈ s.tagIds me ↔ s.taggings.has (tag, .user me) = true := by
  simp only [Site.tagIds, List.mem_map, List.mem_filter]
  constructor
  · rintro ⟨row, ⟨-, hfollows⟩, rfl⟩
    exact hfollows
  · intro hfollows
    obtain ⟨row, hrow, rfl⟩ := List.mem_map.mp h
    exact ⟨row, ⟨hrow, hfollows⟩, rfl⟩

section Viewer

open Feed

variable {s : Site} (h : s.TagsExist) {r : Request} (hr : r ∈ s.db.requests.rows) (hactive : r.workflowState = .active)

include h hr hactive in
theorem mem_news_or_discover (viewer : Option ℕ) :
    r ∈ requests s viewer news ∨ r ∈ requests s viewer discover := by
  by_cases htagged : ∃ tag, s.Tagged r tag
  · obtain ⟨tag, htag⟩ := htagged
    by_cases hf : tag ∈ followingTagIds s viewer
    · exact Or.inl (mem_news.mpr ⟨hr, hactive, Or.inl ⟨tag, htag, hf⟩⟩)
    · have hnot : tag ∈ notFollowingTagIds s viewer :=
        List.mem_filter.mpr ⟨mem_allTagIds h htag, decide_eq_true hf⟩
      exact Or.inr (mem_discover.mpr ⟨hr, hactive, Or.inl ⟨tag, htag, hnot⟩⟩)
  · by_cases hu : r.userId ∈ followingUserIds s viewer
    · exact Or.inl (mem_news.mpr ⟨hr, hactive, Or.inr hu⟩)
    · exact Or.inr (mem_discover.mpr ⟨hr, hactive, Or.inr ⟨not_exists.mp htagged, hu⟩⟩)

include h hr hactive in
theorem mem_both_iff (me : ℕ) (hone : ∀ tag tag', s.Tagged r tag → s.Tagged r tag' → tag = tag') :
    r ∈ requests s (some me) news ∧ r ∈ requests s (some me) discover ↔
      (∃ tag, s.Tagged r tag ∧ s.taggings.has (tag, .user me) = false) ∧
        (r.userId = me ∨ r.userId ∈ s.followingIds me) := by
  have hfollowing (tag : ℕ) (htag : s.Tagged r tag) :
      tag ∈ followingTagIds s (some me) ↔ s.taggings.has (tag, .user me) = true :=
    mem_tagIds (mem_allTagIds h htag)
  have hnot (tag : ℕ) (htag : s.Tagged r tag) :
      tag ∈ notFollowingTagIds s (some me) ↔ s.taggings.has (tag, .user me) = false := by
    rw [notFollowingTagIds, List.mem_filter, decide_eq_true_eq, hfollowing tag htag, Bool.not_eq_true]
    exact and_iff_right (mem_allTagIds h htag)
  have husers : r.userId ∈ followingUserIds s (some me) ↔ r.userId = me ∨ r.userId ∈ s.followingIds me := List.mem_cons
  rw [mem_news, mem_discover, husers]
  constructor
  · rintro ⟨⟨-, -, hnews⟩, ⟨-, -, ⟨tag, htag, hn⟩ | ⟨hn, hu⟩⟩⟩
    · rw [hnot tag htag] at hn
      refine ⟨⟨tag, htag, hn⟩, hnews.resolve_left ?_⟩
      rintro ⟨tag', htag', hf⟩
      rw [hfollowing tag' htag', hone tag' tag htag' htag, hn] at hf
      cases hf
    · rcases hnews with ⟨tag, htag, -⟩ | hu'
      · exact absurd htag (hn tag)
      · exact absurd hu' hu
  · rintro ⟨⟨tag, htag, hn⟩, hu⟩
    exact ⟨⟨hr, hactive, Or.inr hu⟩, hr, hactive, Or.inl ⟨tag, htag, (hnot tag htag).mpr hn⟩⟩

theorem feeds_cover (P : Platform) (toUrl : String → String) (settings : Settings) (ops : List PostingOp) (s : Site)
    (hs : s = run (Site.postingStep P toUrl) (Site.new settings) ops) (viewer : Option ℕ) :
    (∀ r ∈ s.db.requests.rows, r.workflowState = .active →
      r ∈ requests s viewer news ∨ r ∈ requests s viewer discover) ∧
    (∀ feed, ((requests s viewer feed).map Request.id).Nodup ∧
      ∀ r ∈ requests s viewer feed, r ∈ s.db.requests.rows ∧ r.workflowState = .active) ∧
    (∀ me, viewer = some me → ∀ r ∈ s.db.requests.rows, r.workflowState = .active →
      (∀ tag tag', s.Tagged r tag → s.Tagged r tag' → tag = tag') →
      (r ∈ requests s viewer news ∧ r ∈ requests s viewer discover ↔
        (∃ tag, s.Tagged r tag ∧ s.taggings.has (tag, .user me) = false) ∧
          (r.userId = me ∨ r.userId ∈ s.followingIds me))) ∧
    (viewer = none → ∀ r, ¬ (r ∈ requests s viewer news ∧ r ∈ requests s viewer discover)) := by
  have hexist : s.TagsExist := by
    rw [hs]
    exact run_invariant _ (fun _ op h => h.postingStep P toUrl op) _ (fun t ht => by cases ht) ops
  refine ⟨?_, ?_, ?_, ?_⟩
  · intro r hr hactive
    exact mem_news_or_discover hexist hr hactive viewer
  · intro feed
    refine ⟨nodup_requests feed, fun r hr => ?_⟩
    obtain ⟨⟨_, hrow, -⟩, hactive⟩ := mem_requests.mp hr
    exact ⟨FreshRun.mem_joinTaggings hrow, hactive⟩
  · rintro me rfl r hr hactive hone
    exact mem_both_iff hexist hr hactive me hone
  · rintro rfl r ⟨hnews, hdiscover⟩
    obtain ⟨-, -, tag, -, htag⟩ := mem_news_visitor.mp hnews
    obtain ⟨-, -, hn⟩ := mem_discover_visitor.mp hdiscover
    exact hn tag htag

end Viewer

/-- Bob no longer follows the tag that Ann posts in, but follows Ann. -/
def sportsSite : Site :=
  run (Site.postingStep .plain id) (Site.new { adminEmail := some "ann@blnkk.com" })
    [.site (.db (.signUp "ann@blnkk.com" "ann")), .site (.createTag 1 "sports" "hash"),
      .site (.db (.signUp "bob@mail.org" "bob")), .site (.removeTag 2 "sports"), .site (.db (.rateUser 2 1 (.int 1))),
      .createTagged 1 "bike" "wanted" none "sports", .site (.db (.createRequest 2 "tent" "wanted" none))]

theorem sports_feeds_cover :
    (Feed.requests sportsSite (some 2) .news).map Request.id = [1, 2] ∧
    (Feed.requests sportsSite (some 2) .discover).map Request.id = [1] ∧
    ∀ r ∈ sportsSite.db.requests.rows, r.workflowState = .active →
      r ∈ Feed.requests sportsSite (some 2) .news ∨ r ∈ Feed.requests sportsSite (some 2) .discover := by
  have hlists : (Feed.requests sportsSite (some 2) .news).map Request.id = [1, 2] ∧
      (Feed.requests sportsSite (some 2) .discover).map Request.id = [1] := by
    decide +kernel
  exact ⟨hlists.1, hlists.2, (feeds_cover .plain id _ _ sportsSite rfl (some 2)).1⟩

end Blnkk
