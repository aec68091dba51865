import Blnkk.Operations
import Blnkk.VisitorPages

/-!
What a visitor of a private site can tell about posts: when a response is the
same for every text of the requests and every set of comments.
-/

namespace Blnkk

open Relational

/-- A request without what its author has written. -/
def Request.frame (r : Request) : Request := { r with subject := "", content := "", reward := none }

/-- The sites differ at most in the subject, content, reward and comments of
requests. -/
def SameButPosts (s s' : Site) : Prop :=
  ∃ (requests : Table Request.id) (comments : Table Comment.id), s' = { s with db := { s.db with requests, comments } } ∧
    requests.rows.map Request.frame = s.db.requests.rows.map Request.frame

namespace Visitor

def Shows (P : Platform) (s : Site) : Endpoint → Prop
  | .requestsIndex params =>
    ∃ shown, feed P s params = some shown ∧ params.page ≠ 0 ∧ 3 * (params.page - 1) < s.db.requests.count (listed shown)
  | .requestsShow _ => False
  | .tagsIndex _ => ∃ tag ∈ s.tags.rows, ∃ id, tag.requestId = some id ∧ s.db.requests.has id = true
  | .tagsShow name => ∃ tag id, s.findTag P name = some tag ∧ tag.requestId = some id ∧ s.db.requests.has id = true
  | .requestPage localized id =>
    localized = true ∧ ∃ r, s.db.requests.get? id = some r ∧ r.workflowState = .active ∧ s.db.users.has r.userId = true

theorem feed_same {P : Platform} {s s' : Site} (h : SameButPosts s s') (params : IndexParams) :
    feed P s' params = feed P s params := by
  obtain ⟨requests, comments, rfl, -⟩ := h
  rfl

theorem feed_frame {P : Platform} {s : Site} {params : IndexParams} {shown : Request → Bool}
    (h : feed P s params = some shown) (r : Request) : shown r.frame = shown r := by
  unfold feed at h
  split at h
  · split_ifs at h
    · cases h
      rfl
    · cases h
      rfl
  · obtain ⟨tag, -, rfl⟩ := Option.map_eq_some_iff.mp h
    rfl
  · split_ifs at h
    · cases h
      rfl
    · cases h
      rfl

theorem count_listed {P : Platform} {s s' : Site} (h : SameButPosts s s') {params : IndexParams} {shown : Request → Bool}
    (hf : feed P s params = some shown) : s'.db.requests.count (listed shown) = s.db.requests.count (listed shown) := by
  have hframe : ∀ rows : List Request, rows.countP (listed shown) = (rows.map Request.frame).countP (listed shown) := by
    intro rows
    rw [List.countP_map]
    congr 1
    funext r
    simp only [Function.comp_apply, listed, feed_frame hf r]
    rfl
  obtain ⟨requests, comments, rfl, hrows⟩ := h
  exact (hframe _).trans ((congrArg (List.countP (listed shown)) hrows).trans (hframe _).symm)

theorem paginate_nil_iff (createdAt : ℕ → ℕ) (page : ℕ) (rows : List Request) (p : Request → Bool) :
    paginate page (newestFirst createdAt (rows.filter p)) = [] ↔ rows.countP p ≤ 3 * (page - 1) := by
  have hl : (newestFirst createdAt (rows.filter p)).length = rows.countP p := by
    rw [newestFirst, List.length_insertionSort, List.countP_eq_length_filter]
  rw [← hl, paginate, List.take_eq_nil_iff, List.drop_eq_nil_iff]
  simp

theorem get?_frame {s s' : Site} (h : SameButPosts s s') (id : ℕ) :
    (s'.db.requests.get? id).map Request.frame = (s.db.requests.get? id).map Request.frame := by
  have hframe : ∀ rows : List Request, (rows.find? (fun r => decide (r.id = id))).map Request.frame =
      (rows.map Request.frame).find? (fun r => decide (r.id = id)) := by
    intro rows
    rw [List.find?_map]
    rfl
  obtain ⟨requests, comments, rfl, hrows⟩ := h
  exact (hframe _).trans ((congrArg _ hrows).trans (hframe _).symm)

theorem has_frame {s s' : Site} (h : SameButPosts s s') (id : ℕ) : s'.db.requests.has id = s.db.requests.has id := by
  have hg := congrArg Option.isSome (get?_frame h id)
  rwa [Option.isSome_map, Option.isSome_map] at hg

/-- The subject gets one more letter. -/
def retitled (r : Request) : Request := { r with subject := r.subject ++ "x" }

theorem retitled_subject_ne (r : Request) : (retitled r).subject ≠ r.subject := by
  intro h
  have hl := congrArg String.length h
  rw [retitled, String.length_append] at hl
  simp at hl

def retitle (s : Site) : Site :=
  { s with db := { s.db with requests := s.db.requests.updateWhere (fun _ => true) retitled (fun _ => rfl) } }

theorem retitle_same (s : Site) : SameButPosts s (retitle s) :=
  ⟨_, s.db.comments, rfl, s.db.requests.map_updateWhere _ retitled (fun _ => rfl) Request.frame (fun _ => rfl)⟩

theorem retitle_rows (s : Site) : (retitle s).db.requests.rows = s.db.requests.rows.map retitled := by
  simp [retitle, Table.updateWhere]

theorem retitle_get? (s : Site) (id : ℕ) : (retitle s).db.requests.get? id = (s.db.requests.get? id).map retitled := by
  refine (s.db.requests.get?_updateWhere (fun _ => true) retitled (fun _ => rfl) id).trans ?_
  simp only [if_true]

section Responses

variable {P : Platform} {createdAt : ℕ → ℕ} {s s' : Site}

theorem requestsIndex_same (h : SameButPosts s s') {params : IndexParams} (hs : ¬ Shows P s (.requestsIndex params)) :
    requestsIndex P createdAt s' params = requestsIndex P createdAt s params := by
  simp only [requestsIndex, feed_same h]
  cases hf : feed P s params with
  | none => rfl
  | some shown =>
    simp only
    split_ifs with hp
    · rfl
    · have hcount : s.db.requests.count (listed shown) ≤ 3 * (params.page - 1) :=
        Nat.le_of_not_lt (fun hlt => hs ⟨shown, hf, hp, hlt⟩)
      have hcount' : s'.db.requests.count (listed shown) ≤ 3 * (params.page - 1) := by
        rw [count_listed h hf]
        exact hcount
      rw [(paginate_nil_iff createdAt params.page _ _).mpr hcount, (paginate_nil_iff createdAt params.page _ _).mpr hcount']
      rfl

theorem requestsIndex_shows {params : IndexParams} (hs : Shows P s (.requestsIndex params)) :
    requestsIndex P createdAt (retitle s) params ≠ requestsIndex P createdAt s params := by
  obtain ⟨shown, hf, hp, hlt⟩ := hs
  have hf' : feed P (retitle s) params = some shown := (feed_same (retitle_same s) params).trans hf
  simp only [requestsIndex, hf, hf', if_neg hp, ne_eq, Response.requests.injEq]
  have hlisted : ∀ r, listed shown (retitled r) = listed shown r := by
    intro r
    have hframe : shown (retitled r) = shown r := (feed_frame hf (retitled r)).symm.trans (feed_frame hf r)
    simp only [listed, hframe]
    rfl
  have hpage : paginate params.page (newestFirst createdAt ((retitle s).db.requests.rows.filter (listed shown))) =
      (paginate params.page (newestFirst createdAt (s.db.requests.rows.filter (listed shown)))).map retitled := by
    have hfilter : (retitle s).db.requests.rows.filter (listed shown) =
        (s.db.requests.rows.filter (listed shown)).map retitled := by
      rw [retitle_rows, List.filter_map]
      congr 2
      funext r
      exact hlisted r
    rw [hfilter, newestFirst, ← List.map_insertionSort (fun a b => createdAt b.id ≤ createdAt a.id) _ retitled]
    · simp only [paginate, newestFirst, List.map_take, List.map_drop]
    · exact fun a _ b _ => Iff.rfl
  have hne : paginate params.page (newestFirst createdAt (s.db.requests.rows.filter (listed shown))) ≠ [] := by
    rw [ne_eq, paginate_nil_iff]
    exact Nat.not_le_of_lt hlt
  obtain ⟨first, rest, hcons⟩ := List.exists_cons_of_ne_nil hne
  rw [hpage, hcons]
  intro he
  exact retitled_subject_ne first (congrArg RequestJson.subject (List.cons.inj he).1)

theorem tagJson_same (h : SameButPosts s s') {tag : Tag}
    (hs : ∀ id, tag.requestId = some id → s.db.requests.has id = false) :
    tagJson createdAt s' tag = tagJson createdAt s tag := by
  have hnone : ∀ t : Site, (∀ id, t.db.requests.has id = s.db.requests.has id) →
      tag.requestId.bind t.db.requests.get? = none := by
    intro t ht
    cases hid : tag.requestId with
    | none => rfl
    | some id => exact (Table.has_false_iff _ _).mp ((ht id).trans (hs id hid))
  simp only [tagJson, hnone s (fun _ => rfl), hnone s' (has_frame h)]
  rfl

theorem tagJson_shows {tag : Tag} {id : ℕ} (hid : tag.requestId = some id) (hs : s.db.requests.has id = true) :
    tagJson createdAt (retitle s) tag ≠ tagJson createdAt s tag := by
  intro he
  obtain ⟨r, hr⟩ := Option.isSome_iff_exists.mp hs
  have hrequest := (TagJson.mk.inj he).2
  simp only [hid, Option.bind_some, retitle_get?, hr, Option.map_some, Option.some.injEq] at hrequest
  exact retitled_subject_ne r (congrArg RequestJson.subject hrequest)

theorem tagsIndex_iff (query : Option String) :
    (∀ s', SameButPosts s s' → tagsIndex createdAt s' query = tagsIndex createdAt s query) ↔
      ¬ Shows P s (.tagsIndex query) := by
  constructor
  · rintro h ⟨tag, hm, id, hid, hhas⟩
    have he := Response.tags.inj (h (retitle s) (retitle_same s))
    have hmem : tag ∈ s.tags.rows.insertionSort (fun a b => b.userCount ≤ a.userCount) :=
      (List.mem_insertionSort _).mpr hm
    exact tagJson_shows hid hhas (List.map_inj_left.mp he tag hmem)
  · intro hs s' h
    have htags : s'.tags = s.tags := by
      obtain ⟨requests, comments, rfl, -⟩ := h
      rfl
    simp only [tagsIndex, htags, Response.tags.injEq]
    apply List.map_congr_left
    intro tag hm
    refine tagJson_same h (fun id hid => ?_)
    by_contra hhas
    exact hs ⟨tag, (List.mem_insertionSort _).mp hm, id, hid, Bool.not_eq_false _ ▸ hhas⟩

theorem tagsShow_iff (name : String) :
    (∀ s', SameButPosts s s' → tagsShow P createdAt s' name = tagsShow P createdAt s name) ↔
      ¬ Shows P s (.tagsShow name) := by
  have htag : ∀ s', SameButPosts s s' → s'.findTag P name = s.findTag P name := by
    rintro s' ⟨requests, comments, rfl, -⟩
    rfl
  constructor
  · rintro h ⟨tag, id, hfind, hid, hhas⟩
    have he := h (retitle s) (retitle_same s)
    simp only [tagsShow, htag _ (retitle_same s), hfind, Response.tag.injEq] at he
    exact tagJson_shows hid hhas he
  · intro hs s' h
    simp only [tagsShow, htag s' h]
    cases hfind : s.findTag P name with
    | none => rfl
    | some tag =>
      refine congrArg Response.tag (tagJson_same h (fun id hid => ?_))
      by_contra hhas
      exact hs ⟨tag, id, hfind, hid, Bool.not_eq_false _ ▸ hhas⟩

theorem requestPage_iff (localized : Bool) (id : ℕ) :
    (∀ s', SameButPosts s s' → requestPage s' localized id = requestPage s localized id) ↔
      ¬ Shows P s (.requestPage localized id) := by
  constructor
  · rintro h ⟨rfl, r, hr, ha, hu⟩
    obtain ⟨author, hauthor⟩ := Option.isSome_iff_exists.mp hu
    have he := h (retitle s) (retitle_same s)
    have hd : r.workflowState ≠ .disabled := by
      rw [ha]
      decide
    have hauthor' : (retitle s).db.users.get? (retitled r).userId = some author := hauthor
    have hd' : (retitled r).workflowState ≠ .disabled := hd
    simp only [requestPage, if_true, retitle_get?, hr, Option.map_some, if_neg hd, if_neg hd', hauthor, hauthor',
      Response.page.injEq] at he
    exact retitled_subject_ne r he.1
  · intro hs s' h
    have hframe := get?_frame h id
    have husers : s'.db.users = s.db.users := by
      obtain ⟨requests, comments, rfl, -⟩ := h
      rfl
    cases localized with
    | false => rfl
    | true =>
      simp only [requestPage, if_true, husers]
      cases hr : s.db.requests.get? id with
      | none =>
        rw [hr, Option.map_none, Option.map_eq_none_iff] at hframe
        rw [hframe]
      | some r =>
        rw [hr, Option.map_some] at hframe
        obtain ⟨r', hr', hf⟩ := Option.map_eq_some_iff.mp hframe
        have hstate : r'.workflowState = r.workflowState := congrArg (fun q => q.workflowState) hf
        have hauthor : r'.userId = r.userId := congrArg (fun q => q.userId) hf
        rw [hr']
        simp only [hstate, hauthor]
        cases hw : r.workflowState with
        | disabled => rfl
        | active =>
          cases hu : s.db.users.get? r.userId with
          | none => rfl
          | some author => exact absurd ⟨rfl, r, hr, hw, Table.has_of_get? hu⟩ hs

end Responses

end Visitor

theorem private_site_hides_iff (P : Platform) (createdAt : ℕ → ℕ) (s : Site) (hp : s.db.settings.private = some "1")
    (endpoint : Endpoint) :
    (∀ s', SameButPosts s s' → Visitor.respond P createdAt s' endpoint = Visitor.respond P createdAt s endpoint) ↔
      ¬ Visitor.Shows P s endpoint := by
  cases endpoint with
  | requestsIndex params =>
    constructor
    · exact fun h hs => Visitor.requestsIndex_shows hs (h _ (Visitor.retitle_same s))
    · exact fun hs s' h => Visitor.requestsIndex_same h hs
  | requestsShow id =>
    refine iff_of_true (fun s' h => ?_) (fun hs => hs)
    have hp' : s'.db.settings.private = some "1" := by
      obtain ⟨requests, comments, rfl, -⟩ := h
      exact hp
    simp [Visitor.respond, Visitor.requestsShow, hp, hp']
  | tagsIndex query => exact Visitor.tagsIndex_iff query
  | tagsShow name => exact Visitor.tagsShow_iff name
  | requestPage localized id => exact Visitor.requestPage_iff localized id

/-- Ann's request is the sticky one of the only tag, and the site is private. -/
def annsPrivateSite : Site where
  db := Transition.run (step .plain) (Db.new {})
    [.signUp "ann@blnkk.com" "ann", .createRequest 1 "bike" "wanted" none, .updateSetting .«private» (some "1")]
  tags := Table.empty.insertFresh (fun id => { id, name := "sports", displayName := some "Sports", requestId := some 1 })
  taggings := Table.empty.ensure ⟨1, .request 1⟩

theorem second_page_hides :
    annsPrivateSite.db.settings.private = some "1" ∧
      ∀ s', SameButPosts annsPrivateSite s' →
        Visitor.respond .plain id s' (.requestsIndex { page := 2 }) =
          Visitor.respond .plain id annsPrivateSite (.requestsIndex { page := 2 }) := by
  have hp : annsPrivateSite.db.settings.private = some "1" := by decide +kernel
  refine ⟨hp, (private_site_hides_iff .plain id annsPrivateSite hp (.requestsIndex { page := 2 })).mpr ?_⟩
  rintro ⟨shown, hf, -, hlt⟩
  have hcount : annsPrivateSite.db.requests.count (Visitor.listed shown) ≤ 1 :=
    List.countP_le_length.trans (by decide +kernel)
  simp at hlt
  omega

theorem private_site_shows_bike :
    annsPrivateSite.db.settings.private = some "1" ∧ SameButPosts annsPrivateSite (Visitor.retitle annsPrivateSite) ∧
      ∀ endpoint ∈ [Endpoint.requestsIndex {}, .tagsIndex none, .tagsShow "sports", .requestPage true 1],
        Visitor.respond .plain id (Visitor.retitle annsPrivateSite) endpoint ≠
          Visitor.respond .plain id annsPrivateSite endpoint :=
  ⟨by decide +kernel, Visitor.retitle_same annsPrivateSite, by decide +kernel⟩

end Blnkk
