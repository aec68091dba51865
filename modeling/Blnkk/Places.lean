import Blnkk.Lib.Run
import Blnkk.Schema
import Blnkk.SearchIndex

/-!
Where the users are: the runs of `UserLocationJob`, which follow a user by the
answers of a lookup service, and the posts that take over the place of their
author.
-/

namespace Blnkk

open Relational
open Location.moreAccurateThan (present)

/-- The answer of the lookup service. -/
structure GeoJson where
  location : Location
  regionCode : Option String := none
  countryCode : Option String := none
  lat : Option ℚ := none
  lng : Option ℚ := none
  deriving DecidableEq

def GeoJson.usable (geo : GeoJson) : Bool :=
  present geo.location.country && geo.lat != some 0 && geo.lng != some 0

structure LocationRow where
  id : ℕ
  location : Location
  regionCode : Option String
  countryCode : Option String
  lat : Option ℚ
  lng : Option ℚ
  deriving DecidableEq

/-- The columns of a user that the job and the posts read or write. -/
structure Resident where
  id : ℕ
  locationId : Option ℕ := none
  keywords : Option String := none
  deriving DecidableEq

structure PlacedRequest where
  id : ℕ
  userId : ℕ
  locationId : Option ℕ
  deriving DecidableEq

structure PlaceStore where
  locations : Table LocationRow.id
  users : Table Resident.id
  requests : Table PlacedRequest.id

inductive PlaceOp where
  -- `UserLocationJob.perform`, with whether the user passes the validations
  | locate (user : ℕ) (geo : GeoJson) (valid : Bool)
  -- `RequestsController#create`, with whether the request passes them
  | post (user : ℕ) (valid : Bool)
  deriving DecidableEq

namespace PlaceStore

variable (P : Platform) (humanize : String → String) (s : PlaceStore)

/-- A condition of `find_by` on a column, for nil `IS NULL`. -/
def condition : Option String → Option String → Bool
  | none, none => true
  | some a, some b => P.collate a b
  | _, _ => false

def findLocation (l : Location) : Option LocationRow :=
  s.locations.rows.find? (fun row =>
    condition P row.location.city l.city && condition P row.location.region l.region &&
      condition P row.location.country l.country)

/-- A text that is too long for its column is an error of the database. -/
def fits (geo : GeoJson) : Bool :=
  [geo.location.city, geo.location.region, geo.location.country, geo.regionCode, geo.countryCode].all
    (fun text => text.all fitsString)

def newLocation (geo : GeoJson) (id : ℕ) : LocationRow :=
  ⟨id, geo.location, geo.regionCode, geo.countryCode, geo.lat, geo.lng⟩

theorem newLocation_id (geo : GeoJson) (id : ℕ) : (newLocation geo id).id = id := rfl

def createLocation (geo : GeoJson) : Option (PlaceStore × LocationRow) :=
  if fits geo then
    some ({ s with locations := s.locations.insertFresh (newLocation geo) (newLocation_id geo) }, newLocation geo s.locations.fresh)
  else none

def findOrCreate (geo : GeoJson) : Option (PlaceStore × LocationRow) :=
  match s.findLocation P geo.location with
  | some row => some (s, row)
  | none => s.createLocation geo

def place (u : Resident) : Option LocationRow := u.locationId.bind s.locations.get?

def profile (u : Resident) : Profile :=
  { id := u.id, keywords := u.keywords, location := (s.place u).map LocationRow.location }

def moveTo (found : LocationRow) (valid : Bool) (u : Resident) : Resident :=
  { u with
    locationId := if valid then some found.id else u.locationId
    -- the object has the new location even if it is not saved
    keywords := ((s.profile u).populateKeywords humanize found.location).keywords }

theorem moveTo_id (found : LocationRow) (valid : Bool) (u : Resident) :
    (moveTo humanize s found valid u).id = u.id := rfl

/-- The assignments and updates for a better location. -/
def moved (user : ℕ) (found : LocationRow) (valid : Bool) : PlaceStore :=
  { s with
    users := s.users.update user (moveTo humanize s found valid) (moveTo_id humanize s found valid)
    requests := s.requests.updateWhere (fun r => decide (r.userId = user))
      (fun r => { r with locationId := some found.id }) }

def perform (user : ℕ) (geo : GeoJson) (valid : Bool) : PlaceStore :=
  match s.users.get? user with
  | none => s
  | some u =>
    if geo.usable then
      match s.findOrCreate P geo with
      | none => s
      | some (s, found) =>
        if found.location.moreAccurateThan ((s.place u).map LocationRow.location) then
          moved humanize s user found valid
        else s
    else s

def setLocation (u : Resident) : Option ℕ := (s.place u).map LocationRow.id

def post (user : ℕ) (valid : Bool) : PlaceStore :=
  match s.users.get? user with
  | none => s
  | some u =>
    if valid then { s with requests := s.requests.insertFresh (fun id => ⟨id, user, s.setLocation u⟩) } else s

def step (s : PlaceStore) : PlaceOp → PlaceStore
  | .locate user geo valid => s.perform P humanize user geo valid
  | .post user valid => s.post user valid

def locationOf (user : ℕ) : Option Location :=
  ((s.users.get? user).bind s.place).map LocationRow.location

end PlaceStore

/-- A location in the same country has a city and a region if the old one has. -/
def Location.KeepsDetail (old new : Location) : Prop :=
  new.country = old.country →
    (present old.city = true → present new.city = true) ∧ (present old.region = true → present new.region = true)

theorem Location.keepsDetail_refl (l : Location) : l.KeepsDetail l := fun _ => ⟨id, id⟩

theorem moreAccurateThan_iff (old new : Location) :
    new.moreAccurateThan (some old) = true ↔ old.KeepsDetail new := by
  unfold Location.moreAccurateThan Location.KeepsDetail
  simp only [Bool.and_eq_true, Bool.not_eq_true']
  split_ifs with hcountry hcity hregion
  · exact iff_of_true rfl (fun he => absurd he hcountry)
  · refine iff_of_false not_false (fun h => ?_)
    have hnew := (h (not_not.mp hcountry)).1 hcity.2
    rw [hcity.1] at hnew
    cases hnew
  · refine iff_of_false not_false (fun h => ?_)
    have hnew := (h (not_not.mp hcountry)).2 hregion.2
    rw [hregion.1] at hnew
    cases hnew
  · refine iff_of_true rfl (fun _ => ⟨fun hold => ?_, fun hold => ?_⟩)
    · by_contra hnew
      exact hcity ⟨Bool.eq_false_iff.mpr hnew, hold⟩
    · by_contra hnew
      exact hregion ⟨Bool.eq_false_iff.mpr hnew, hold⟩

namespace PlaceStore

variable {P : Platform} {humanize : String → String} {s s' : PlaceStore} {user : ℕ}

/-- Only locations have been added. -/
structure Mapped (s s' : PlaceStore) : Prop where
  locations : s.locations.Persists (· = ·) s'.locations
  users : s'.users = s.users
  requests : s'.requests = s.requests

theorem Mapped.refl (s : PlaceStore) : Mapped s s := ⟨Table.Persists.refl (fun _ => rfl) _, rfl, rfl⟩

theorem findOrCreate_spec {geo : GeoJson} {found : LocationRow} (h : s.findOrCreate P geo = some (s', found)) :
    Mapped s s' ∧ s'.locations.get? found.id = some found := by
  unfold findOrCreate at h
  split at h
  next row hrow =>
    cases h
    exact ⟨Mapped.refl s, Table.get?_of_mem (List.mem_of_find?_eq_some hrow)⟩
  next =>
    unfold createLocation at h
    split_ifs at h
    cases h
    refine ⟨⟨Table.Persists.append (fun _ => rfl) (Table.insertFresh_rows _ _ (newLocation_id geo)), rfl, rfl⟩, ?_⟩
    rw [Table.get?_insertFresh]
    exact if_pos rfl

/-- What a run of the job can do: look a location up, or move the user to it. -/
theorem perform_cases (user : ℕ) (geo : GeoJson) (valid : Bool) :
    Mapped s (s.perform P humanize user geo valid) ∨
      ∃ s' u found, Mapped s s' ∧ s.users.get? user = some u ∧ s'.locations.get? found.id = some found ∧
        found.location.moreAccurateThan ((s'.place u).map LocationRow.location) = true ∧
        s.perform P humanize user geo valid = moved humanize s' user found valid := by
  unfold perform
  split
  · exact Or.inl (Mapped.refl s)
  next u hu =>
    split_ifs
    · split
      · exact Or.inl (Mapped.refl s)
      next s' found hfound =>
        obtain ⟨hmapped, hget⟩ := findOrCreate_spec hfound
        split_ifs with hmore
        · exact Or.inr ⟨s', u, found, hmapped, hu, hget, hmore, rfl⟩
        · exact Or.inl hmapped
    · exact Or.inl (Mapped.refl s)

/-- A user is in a location that exists, and so are the user's requests. -/
structure Placed (s : PlaceStore) (user : ℕ) : Prop where
  located : ∀ u, s.users.get? user = some u → ∀ id, u.locationId = some id → s.locations.has id = true
  carried : ∀ r ∈ s.requests.rows, r.userId = user → (s.users.get? user).map Resident.locationId = some r.locationId

theorem Mapped.place {u : Resident} (h : Mapped s s')
    (hu : ∀ id, u.locationId = some id → s.locations.has id = true) : s'.place u = s.place u := by
  unfold PlaceStore.place
  cases hid : u.locationId with
  | none => rfl
  | some id =>
    obtain ⟨row, hrow⟩ := Option.isSome_iff_exists.mp (hu id hid)
    obtain ⟨_, hrow', rfl⟩ := h.locations id row hrow
    rw [Option.bind_some, Option.bind_some, hrow, hrow']

theorem Mapped.placed (h : Mapped s s') (hs : s.Placed user) : s'.Placed user := by
  constructor
  · intro u hu id hid
    rw [h.users] at hu
    exact h.locations.has (hs.located u hu id hid)
  · rw [h.users, h.requests]
    exact hs.carried

theorem Mapped.locationOf (h : Mapped s s') (hs : s.Placed user) : s'.locationOf user = s.locationOf user := by
  unfold PlaceStore.locationOf
  rw [h.users]
  cases hu : s.users.get? user with
  | none => rfl
  | some u => rw [Option.bind_some, Option.bind_some, h.place (hs.located u hu)]

theorem setLocation_eq {u : Resident} (hu : ∀ id, u.locationId = some id → s.locations.has id = true) :
    s.setLocation u = u.locationId := by
  unfold setLocation PlaceStore.place
  cases hid : u.locationId with
  | none => rfl
  | some id =>
    obtain ⟨row, hrow⟩ := Option.isSome_iff_exists.mp (hu id hid)
    rw [Option.bind_some, hrow, Option.map_some, Table.get?_key hrow]

section Moved

variable {mover : ℕ} {u : Resident} {found : LocationRow} {valid : Bool}

theorem moved_other (h : user ≠ mover) :
    (moved humanize s mover found valid).users.get? user = s.users.get? user := by
  rw [moved, Table.get?_update, if_neg h]

theorem moved_self (hu : s.users.get? mover = some u) :
    (moved humanize s mover found valid).users.get? mover = some (moveTo humanize s found valid u) := by
  rw [moved, Table.get?_update, if_pos rfl, hu, Option.map_some]

theorem mem_moved_requests {r : PlacedRequest} (h : r ∈ (moved humanize s mover found valid).requests.rows) :
    ∃ old ∈ s.requests.rows, r.userId = old.userId ∧
      r.locationId = if old.userId = mover then some found.id else old.locationId := by
  simp only [moved, Table.mem_updateWhere] at h
  obtain ⟨old, hold, rfl⟩ := h
  refine ⟨old, hold, ?_⟩
  by_cases hmover : old.userId = mover <;> simp [hmover]

theorem Placed.moved (hs : s.Placed user) (hu : s.users.get? mover = some u)
    (hfound : s.locations.get? found.id = some found) (hvalid : user = mover → valid = true) :
    (moved humanize s mover found valid).Placed user := by
  by_cases he : user = mover
  · subst he
    have hid : (moveTo humanize s found valid u).locationId = some found.id := by
      rw [moveTo, hvalid rfl]
      rfl
    constructor
    · intro u' hu' id hid'
      rw [moved_self hu] at hu'
      cases hu'
      rw [hid] at hid'
      cases hid'
      exact Table.has_of_get? hfound
    · intro r hr huser
      rw [moved_self hu, Option.map_some, hid]
      obtain ⟨old, -, hold, hplace⟩ := mem_moved_requests hr
      rw [hplace, if_pos (hold.symm.trans huser)]
  · constructor
    · intro u' hu'
      rw [moved_other he] at hu'
      exact hs.located u' hu'
    · intro r hr huser
      rw [moved_other he]
      obtain ⟨old, hmem, hold, hplace⟩ := mem_moved_requests hr
      rw [hold] at huser
      rw [hplace, if_neg (fun hmover => he (huser.symm.trans hmover))]
      exact hs.carried old hmem huser

theorem keepsDetail_moved (hu : s.users.get? mover = some u) (hfound : s.locations.get? found.id = some found)
    (hmore : found.location.moreAccurateThan ((s.place u).map LocationRow.location) = true) {old new : Location}
    (hold : s.locationOf user = some old) (hnew : (moved humanize s mover found valid).locationOf user = some new) :
    old.KeepsDetail new := by
  have hsame (h : some old = some new) : old.KeepsDetail new := Option.some.inj h ▸ old.keepsDetail_refl
  by_cases he : user = mover
  · subst he
    rw [locationOf, hu, Option.bind_some] at hold
    rw [locationOf, moved_self hu, Option.bind_some] at hnew
    cases valid with
    | true =>
      have hplace : (moved humanize s user found true).place (moveTo humanize s found true u) = some found := hfound
      rw [hplace] at hnew
      cases hnew
      rw [hold] at hmore
      exact (moreAccurateThan_iff old found.location).mp hmore
    | false => exact hsame (hold.symm.trans hnew)
  · rw [locationOf, moved_other he] at hnew
    exact hsame (hold.symm.trans hnew)

end Moved

theorem Placed.post (hs : s.Placed user) (author : ℕ) (valid : Bool) : (s.post author valid).Placed user := by
  unfold PlaceStore.post
  split
  · exact hs
  next u hu =>
    split_ifs
    · refine ⟨hs.located, fun r hr huser => ?_⟩
      rw [Table.insertFresh_rows, List.mem_append, List.mem_singleton] at hr
      rcases hr with hr | rfl
      · exact hs.carried r hr huser
      · cases huser
        rw [hu, Option.map_some, setLocation_eq (hs.located u hu)]
    · exact hs

theorem post_locationOf (author : ℕ) (valid : Bool) : (s.post author valid).locationOf user = s.locationOf user := by
  unfold PlaceStore.post
  split
  · rfl
  · split_ifs <;> rfl

end PlaceStore

open PlaceStore

/-- The saves of the user succeed. -/
def PlaceOp.Saves (user : ℕ) : PlaceOp → Prop
  | locate mover _ valid => user = mover → valid = true
  | post _ _ => True

section Run

variable {P : Platform} {humanize : String → String} {s : PlaceStore} {user : ℕ}

theorem placed_step {op : PlaceOp} (hop : op.Saves user) (hs : s.Placed user) : (s.step P humanize op).Placed user := by
  cases op with
  | post author valid => exact hs.post author valid
  | locate mover geo valid =>
    rw [PlaceStore.step]
    rcases perform_cases mover geo valid with hm | ⟨s', u, found, hm, hu, hfound, -, hs'⟩
    · exact hm.placed hs
    · rw [hs']
      rw [← hm.users] at hu
      exact (hm.placed hs).moved hu hfound hop

theorem keepsDetail_step (hs : s.Placed user) (op : PlaceOp) {old new : Location}
    (hold : s.locationOf user = some old) (hnew : (s.step P humanize op).locationOf user = some new) :
    old.KeepsDetail new := by
  have hsame (h : (s.step P humanize op).locationOf user = s.locationOf user) : old.KeepsDetail new := by
    rw [hnew, hold] at h
    cases h
    exact old.keepsDetail_refl
  cases op with
  | post author valid => exact hsame (post_locationOf author valid)
  | locate mover geo valid =>
    rw [PlaceStore.step] at hnew hsame
    rcases perform_cases mover geo valid with hm | ⟨s', u, found, hm, hu, hfound, hmore, hs'⟩
    · exact hsame (hm.locationOf hs)
    · rw [hs'] at hnew
      rw [← hm.users] at hu
      exact keepsDetail_moved hu hfound hmore ((hm.locationOf hs).trans hold) hnew

end Run

open Transition in
/-- In a run of jobs and posts in which the saves of a user succeed, the user's
location loses no detail within a country, and the user's requests follow it. -/
theorem locations_only_sharpen (P : Platform) (humanize : String → String) (s : PlaceStore) (user : ℕ)
    (hs : s.Placed user) (ops : List PlaceOp) (hops : ∀ op ∈ ops, op.Saves user) (n : ℕ) :
    (∀ old new, (run (step P humanize) s (ops.take n)).locationOf user = some old →
      (run (step P humanize) s (ops.take (n + 1))).locationOf user = some new → old.KeepsDetail new) ∧
    ∀ r ∈ (run (step P humanize) s (ops.take n)).requests.rows, r.userId = user →
      ((run (step P humanize) s (ops.take n)).users.get? user).map Resident.locationId = some r.locationId := by
  have hplaced : (run (step P humanize) s (ops.take n)).Placed user :=
    invariant_of_meets (I := fun s => s.Placed user) _ (fun _ _ hop hs => placed_step hop hs) s hs ops (meets_of_forall _ hops s) n
  refine ⟨fun old new hold hnew => ?_, hplaced.carried⟩
  rw [List.take_add_one] at hnew
  cases hop : ops[n]? with
  | none =>
    rw [hop, Option.toList_none, List.append_nil, hold] at hnew
    cases hnew
    exact old.keepsDetail_refl
  | some op =>
    rw [hop, Option.toList_some, run_concat] at hnew
    exact keepsDetail_step hplaced op hold hnew

def taipei : GeoJson := { location := ⟨some "Taipei", some "Taipei City", some "Taiwan"⟩, lat := some 25, lng := some 121 }

def taiwan : GeoJson := { location := ⟨some "", some "", some "Taiwan"⟩, lat := some 23, lng := some 121 }

def annAtHome : PlaceStore := ⟨Table.empty, ⟨[{ id := 1 }], by decide⟩, Table.empty⟩

/-- The country is found first, and then the city. -/
def annIsFound : List PlaceOp := [.post 1 true, .locate 1 taiwan true, .post 1 true, .locate 1 taipei true]

theorem annAtHome_placed : annAtHome.Placed 1 := by
  constructor
  · intro u hu id hid
    cases hu
    cases hid
  · intro r hr
    cases hr

theorem requests_follow_to_city :
    (Transition.run (step .plain id) annAtHome annIsFound).requests.rows = [⟨1, 1, some 2⟩, ⟨2, 1, some 2⟩] ∧
      (∀ old new, (Transition.run (step .plain id) annAtHome (annIsFound.take 3)).locationOf 1 = some old →
        (Transition.run (step .plain id) annAtHome (annIsFound.take 4)).locationOf 1 = some new →
          old.KeepsDetail new) ∧
      ∀ r ∈ (Transition.run (step .plain id) annAtHome (annIsFound.take 3)).requests.rows, r.userId = 1 →
        ((Transition.run (step .plain id) annAtHome (annIsFound.take 3)).users.get? 1).map Resident.locationId =
          some r.locationId := by
  have hsaves : ∀ op ∈ annIsFound, op.Saves 1 := by simp [annIsFound, PlaceOp.Saves]
  exact ⟨by decide +kernel, locations_only_sharpen .plain id annAtHome 1 annAtHome_placed annIsFound hsaves 3⟩

end Blnkk
