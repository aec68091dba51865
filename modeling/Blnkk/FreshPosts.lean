import Blnkk.Tags
import Blnkk.Lib.Run
import Mathlib.Data.List.Dedup
import Mathlib.Data.List.Sort

/-!
`User#send_fresh_new_posts`, and that no request is in two digests of a user.
Times are microseconds; a column keeps whole seconds.
-/

namespace Blnkk

open Relational Transition

/-- The microseconds of a second. -/
abbrev second : ℤ := 1000000

abbrev days (n : ℤ) : ℤ := n * (24 * 60 * 60 * second)

namespace Site

variable (s : Site)

def tagIds (user : ℕ) : List ℕ :=
  (s.tags.rows.filter (fun tag => s.taggings.has (tag.id, .user user))).map Tag.id

def followingIds (user : ℕ) : List ℕ :=
  (s.db.users.rows.filter (fun u => (s.db.ratings.get? (user, .user u.id)).any (fun r => decide (r.rating = 1)))).map
    User.id

/-- A request without a tagging is one row of the join, with an empty right side. -/
def joinTaggings : List (Request × Option Tagging) :=
  s.db.requests.rows.flatMap (fun r =>
    match s.taggings.rows.filter (fun t => decide (t.taggable = .request r.id)) with
    | [] => [(r, none)]
    | taggings => taggings.map (fun t => (r, some t)))

end Site

/-- One call of the method: its time, the tables it reads, and the order in
which MySQL returns requests of equal score. -/
structure FreshRun where
  now : ℤ
  site : Site
  tie : ℕ → ℕ → Bool

namespace FreshRun

variable (createdAt : ℕ → ℤ) (fraction : Bool) (user : ℕ) (joined : Option ℤ)

/-- The time, or that in a column where it is later. -/
def latest (time : ℤ) (column : Option ℤ) : ℤ :=
  column.elim time (fun t => if time < t * second then t * second else time)

def fromTime (now : ℤ) (last : Option ℤ) : ℤ := latest (latest (now - days 14) last) joined

/-- The time as it stands in the query, with its fraction of a second or without. -/
def quoted (t : ℤ) : ℤ := if fraction then t else t / second * second

def selects (s : Site) (bound : ℤ) (row : Request × Option Tagging) : Bool :=
  decide (bound < createdAt row.1.id * second) && decide (row.1.userId ≠ user) &&
    (row.2.any (fun t => decide (t.tagId ∈ s.tagIds user)) || decide (row.1.userId ∈ user :: s.followingIds user))

def before (tie : ℕ → ℕ → Bool) (a b : Request) : Prop := b.score < a.score ∨ b.score = a.score ∧ tie a.id b.id = true

instance (tie : ℕ → ℕ → Bool) : DecidableRel (before tie) := fun a b =>
  inferInstanceAs (Decidable (b.score < a.score ∨ b.score = a.score ∧ tie a.id b.id = true))

def requests (m : FreshRun) (last : Option ℤ) : List Request :=
  let bound := quoted fraction (fromTime joined m.now last)
  let rows := (m.site.joinTaggings.filter (selects createdAt user m.site bound)).map Prod.fst
  (rows.dedup.insertionSort (before m.tie)).take 5

/-- The requests given to the mailer, if there are enough of them. -/
def digest (last : Option ℤ) (m : FreshRun) : List (List Request) :=
  let requests := m.requests createdAt fraction user joined last
  if 3 ≤ requests.length then [requests] else []

/-- The column `last_fresh_new_posts_at` after the call. -/
def sendFreshNewPosts (last : Option ℤ) (m : FreshRun) : Option ℤ :=
  if 3 ≤ (m.requests createdAt fraction user joined last).length then some (m.now / second) else last

def digests (last : Option ℤ) (runs : List FreshRun) : List (List Request) :=
  trace (sendFreshNewPosts createdAt fraction user joined) (digest createdAt fraction user joined) last runs

variable {createdAt fraction user joined}

theorem le_latest (time : ℤ) (column : Option ℤ) : time ≤ latest time column := by
  cases column with
  | none => exact le_refl time
  | some t =>
    simp only [latest, Option.elim]
    split <;> omega

theorem le_latest_some (time t : ℤ) : t * second ≤ latest time (some t) := by
  simp only [latest, Option.elim]
  split <;> omega

theorem le_fromTime (now t : ℤ) : t * second ≤ fromTime joined now (some t) :=
  (le_latest_some _ t).trans (le_latest _ joined)

theorem le_quoted {t time : ℤ} (h : t * second ≤ time) : t * second ≤ quoted fraction time := by
  unfold quoted
  split
  · exact h
  · unfold second at h ⊢
    omega

theorem mem_joinTaggings {s : Site} {row : Request × Option Tagging} (h : row ∈ s.joinTaggings) :
    row.1 ∈ s.db.requests.rows := by
  obtain ⟨r, hr, hrow⟩ := List.mem_flatMap.mp h
  split at hrow
  · rw [List.mem_singleton] at hrow
    rw [hrow]
    exact hr
  · obtain ⟨t, -, rfl⟩ := List.mem_map.mp hrow
    exact hr

theorem mem_requests {m : FreshRun} {last : Option ℤ} {r : Request}
    (h : r ∈ m.requests createdAt fraction user joined last) :
    r ∈ m.site.db.requests.rows ∧ quoted fraction (fromTime joined m.now last) < createdAt r.id * second := by
  have hsorted := List.mem_of_mem_take h
  rw [List.mem_insertionSort, List.mem_dedup] at hsorted
  obtain ⟨row, hrow, rfl⟩ := List.mem_map.mp hsorted
  obtain ⟨hjoin, hselects⟩ := List.mem_filter.mp hrow
  unfold selects at hselects
  rw [Bool.and_eq_true, Bool.and_eq_true, decide_eq_true_iff] at hselects
  exact ⟨mem_joinTaggings hjoin, hselects.1.1⟩

theorem nodup_requests (m : FreshRun) (last : Option ℤ) :
    ((m.requests createdAt fraction user joined last).map Request.id).Nodup := by
  apply List.Nodup.map_on
  · intro a ha b hb hid
    exact List.inj_on_of_nodup_map m.site.db.requests.unique (mem_requests ha).1 (mem_requests hb).1 hid
  · apply List.Nodup.sublist (List.take_sublist _ _)
    exact (List.perm_insertionSort _ _).nodup_iff.mpr (List.nodup_dedup _)

theorem mem_digest {last : Option ℤ} {m : FreshRun} {d : List Request}
    (h : d ∈ digest createdAt fraction user joined last m) :
    d = m.requests createdAt fraction user joined last ∧ 3 ≤ d.length ∧
      sendFreshNewPosts createdAt fraction user joined last m = some (m.now / second) := by
  simp only [digest] at h
  split at h
  · rename_i hlen
    rw [List.mem_singleton] at h
    exact ⟨h, h ▸ hlen, if_pos hlen⟩
  · cases h

theorem digest_after {t : ℤ} {m : FreshRun} {d : List Request}
    (hd : d ∈ digest createdAt fraction user joined (some t) m) {r : Request} (hr : r ∈ d) : t < createdAt r.id := by
  rw [(mem_digest hd).1] at hr
  have hbound : t * second ≤ quoted fraction (fromTime joined m.now (some t)) := le_quoted (le_fromTime m.now t)
  have hlater := lt_of_le_of_lt hbound (mem_requests hr).2
  unfold second at hlater
  omega

variable (createdAt fraction user joined) in
theorem sendFreshNewPosts_after {t : ℤ} {m : FreshRun} (hm : t * second ≤ m.now) :
    ∃ t', sendFreshNewPosts createdAt fraction user joined (some t) m = some t' ∧ t ≤ t' ∧ t' * second ≤ m.now := by
  unfold sendFreshNewPosts
  split
  · refine ⟨m.now / second, rfl, ?_⟩
    unfold second at hm ⊢
    omega
  · exact ⟨t, rfl, le_refl t, hm⟩

/-- The requests of all digests to come are younger than the last digest. -/
theorem digests_after {t : ℤ} {runs : List FreshRun} (hruns : (runs.map now).Pairwise (· ≤ ·))
    (hnow : ∀ m ∈ runs, t * second ≤ m.now) {d : List Request}
    (hd : d ∈ digests createdAt fraction user joined (some t) runs) {r : Request} (hr : r ∈ d) :
    t < createdAt r.id := by
  induction runs generalizing t with
  | nil => cases hd
  | cons m runs ih =>
    rw [List.map_cons, List.pairwise_cons] at hruns
    rcases List.mem_append.mp hd with hd | hd
    · exact digest_after hd hr
    · obtain ⟨t', ht', hle, hm⟩ := sendFreshNewPosts_after createdAt fraction user joined (hnow m List.mem_cons_self)
      rw [ht'] at hd
      have hafter := ih hruns.2 (fun m' hm' => hm.trans (hruns.1 _ (List.mem_map_of_mem hm'))) hd
      omega

theorem digest_before {last : Option ℤ} {m : FreshRun}
    (hpast : ∀ r ∈ m.site.db.requests.rows, createdAt r.id * second ≤ m.now) {d : List Request}
    (hd : d ∈ digest createdAt fraction user joined last m) {r : Request} (hr : r ∈ d) :
    createdAt r.id ≤ m.now / second := by
  rw [(mem_digest hd).1] at hr
  have hstored := hpast r (mem_requests hr).1
  unfold second at hstored ⊢
  omega

theorem digests_pairwise {last : Option ℤ} {runs : List FreshRun} (hruns : (runs.map now).Pairwise (· ≤ ·))
    (hpast : ∀ m ∈ runs, ∀ r ∈ m.site.db.requests.rows, createdAt r.id * second ≤ m.now) :
    (digests createdAt fraction user joined last runs).Pairwise (fun d e => ∀ r ∈ d, ∀ q ∈ e, r.id ≠ q.id) := by
  induction runs generalizing last with
  | nil => exact List.Pairwise.nil
  | cons m runs ih =>
    rw [List.map_cons, List.pairwise_cons] at hruns
    apply List.pairwise_append.mpr
    refine ⟨?_, ih hruns.2 (fun m' hm' => hpast m' (List.mem_cons_of_mem _ hm')), ?_⟩
    · simp only [digest]
      split
      · exact List.pairwise_singleton _ _
      · exact List.Pairwise.nil
    · intro d hd e he r hr q hq hid
      rw [(mem_digest hd).2.2] at he
      have hbefore := digest_before (hpast m List.mem_cons_self) hd hr
      have hafter := digests_after hruns.2 (fun m' hm' => ?_) he hq
      · rw [hid] at hbefore
        omega
      · have hlater := hruns.1 _ (List.mem_map_of_mem hm')
        unfold second
        omega

theorem digests_size {last : Option ℤ} {runs : List FreshRun} {d : List Request}
    (hd : d ∈ digests createdAt fraction user joined last runs) :
    3 ≤ d.length ∧ d.length ≤ 5 ∧ (d.map Request.id).Nodup := by
  induction runs generalizing last with
  | nil => cases hd
  | cons m runs ih =>
    rcases List.mem_append.mp hd with hd | hd
    · obtain ⟨hrequests, hlen, -⟩ := mem_digest hd
      refine ⟨hlen, ?_, ?_⟩
      · rw [hrequests]
        exact List.length_take_le _ _
      · rw [hrequests]
        exact nodup_requests m last
    · exact ih hd

end FreshRun

/-- Whatever happens to the tables between the calls, no request is in two
digests of a user, and a digest has three to five requests. -/
theorem fresh_posts_once (createdAt : ℕ → ℤ) (fraction : Bool) (user : ℕ) (joined last : Option ℤ)
    (runs : List FreshRun) (hruns : (runs.map FreshRun.now).Pairwise (· ≤ ·))
    (hpast : ∀ m ∈ runs, ∀ r ∈ m.site.db.requests.rows, createdAt r.id * second ≤ m.now) :
    (FreshRun.digests createdAt fraction user joined last runs).Pairwise (fun d e => ∀ r ∈ d, ∀ q ∈ e, r.id ≠ q.id) ∧
      ∀ d ∈ FreshRun.digests createdAt fraction user joined last runs,
        3 ≤ d.length ∧ d.length ≤ 5 ∧ (d.map Request.id).Nodup :=
  ⟨FreshRun.digests_pairwise hruns hpast, fun _ hd => FreshRun.digests_size hd⟩

/-- The user 1 follows the tag 1, in which the requests are posted. The first
request has a second tag. -/
def goPosts (ids : List ℕ) : Site where
  db := { Db.new {} with
    requests := ids.foldl (fun t id => t.ensure { id, userId := 2, subject := "go", content := "play" }) .empty }
  tags := ⟨[{ id := 1, name := "go", displayName := some "Go" }, { id := 2, name := "art", displayName := some "Art" }], by decide⟩
  taggings := (ids.map (fun id => ⟨1, .request id⟩)).foldl Table.ensure
    ⟨[⟨1, .user 1⟩, ⟨2, .request 1⟩], by decide⟩

/-- The requests 4 and 5 are posted in the second of the first digest. -/
def goRuns : List FreshRun :=
  [⟨150 * second, goPosts [1, 2, 3], fun _ _ => true⟩, ⟨150 * second + 7, goPosts [1, 2, 3, 4, 5], fun _ _ => true⟩,
    ⟨210 * second, goPosts [1, 2, 3, 4, 5, 6, 7, 8], fun _ _ => true⟩]

def goCreatedAt (id : ℕ) : ℤ := if id ≤ 3 then 140 else if id ≤ 5 then 150 else 200

theorem fresh_posts_once_go :
    (FreshRun.digests goCreatedAt true 1 (some 0) none goRuns).map (List.map Request.id) = [[1, 2, 3], [6, 7, 8]] ∧
      (FreshRun.digests goCreatedAt true 1 (some 0) none goRuns).Pairwise (fun d e => ∀ r ∈ d, ∀ q ∈ e, r.id ≠ q.id) ∧
      ∀ d ∈ FreshRun.digests goCreatedAt true 1 (some 0) none goRuns,
        3 ≤ d.length ∧ d.length ≤ 5 ∧ (d.map Request.id).Nodup :=
  ⟨by decide +kernel, fresh_posts_once goCreatedAt true 1 (some 0) none goRuns (by decide +kernel) (by decide +kernel)⟩

end Blnkk
