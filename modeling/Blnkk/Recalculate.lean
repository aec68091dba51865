import Blnkk.LedgerInvariant
import Blnkk.RequestScore
import Mathlib.Algebra.BigOperators.Ring.List
import Mathlib.Tactic.Ring

/-!
The `db:recalculate` task against the counters that the operations maintain.
-/

namespace Blnkk

open Relational

def Request.recalculate (db : Db) (r : Request) : Db := r.updateScore db .all

def Db.requestLikeTotal (db : Db) (user : ℕ) : ℤ :=
  db.requests.sum (fun r => if r.userId = user then r.likeCount else 0)

def User.recalculate (db : Db) (id : ℕ) : Db :=
  let counted := db.updateUser id (fun u =>
    { u with
      followerCount := db.likersCount (.user id)
      followingCount := db.followingCount id
      reportCount := db.reportersCount (.user id)
      requestCount := db.activeRequests id })
  let summed := counted.updateUser id (fun u =>
    { u with
      requestLikeCount := counted.requestLikeTotal id
      conversationLikeCount := db.conversationLikes id })
  summed.updatePoints id

namespace Db

def recalculateRequests (db : Db) : Db := db.requests.rows.foldl Request.recalculate db

def recalculate (db : Db) : Db :=
  let requested := db.recalculateRequests
  (requested.users.rows.map User.id).foldl User.recalculate requested

end Db

def User.counters (u : User) : ℤ × ℤ × ℤ × ℤ × ℤ × ℤ :=
  (u.followerCount, u.followingCount, u.reportCount, u.requestLikeCount, u.conversationLikeCount, u.pointCount)

def KeepsCounters (db db' : Db) : Prop :=
  ∀ k, (db'.users.get? k).map User.counters = (db.users.get? k).map User.counters

def User.recalculated (db : Db) (k : ℕ) (u : User) : User :=
  withPoints
    { u with
      followerCount := db.likersCount (.user k)
      followingCount := db.followingCount k
      reportCount := db.reportersCount (.user k)
      requestCount := db.activeRequests k
      requestLikeCount := db.requestLikeTotal k
      conversationLikeCount := db.conversationLikes k }

theorem User.recalculate_maps (db : Db) (id : ℕ) :
    MapsUsers db (User.recalculate db id) (fun k u => if k = id then User.recalculated db k u else u) := by
  have ht := ((MapsUsers.updateUser db id (fun u =>
    { u with
      followerCount := db.likersCount (.user id)
      followingCount := db.followingCount id
      reportCount := db.reportersCount (.user id)
      requestCount := db.activeRequests id }) (fun _ => rfl)).trans
    (MapsUsers.updateUser _ id (fun u =>
      { u with
        requestLikeCount := db.requestLikeTotal id
        conversationLikeCount := db.conversationLikes id }) (fun _ => rfl))).trans
    (MapsUsers.updateUser _ id User.withPoints (fun _ => rfl))
  refine ⟨rfl, fun k => (ht.get? k).trans ?_⟩
  congr 1
  funext u
  by_cases hk : k = id
  · subst hk
    simp [User.recalculated]
  · simp [hk]

theorem recalculate_foldl_maps (ids : List ℕ) (hn : ids.Nodup) (db : Db) :
    MapsUsers db (ids.foldl User.recalculate db) (fun k u => if k ∈ ids then User.recalculated db k u else u) := by
  induction ids generalizing db with
  | nil => exact ⟨rfl, fun k => by simp⟩
  | cons id ids ih =>
    obtain ⟨hid, hn⟩ := List.nodup_cons.mp hn
    have hm := User.recalculate_maps db id
    have ht := hm.trans (ih hn _)
    refine ⟨ht.frame, fun k => ?_⟩
    rw [List.foldl_cons, ht.get?]
    congr 1
    funext u
    have hf : User.recalculated (User.recalculate db id) = User.recalculated db := rfl
    by_cases hk : k = id
    · subst hk
      simp [hid]
    · simp [hk, hf]

theorem recalculateRequests_eq {db : Db} (h : Scores db) : db.recalculateRequests = db := by
  have hl : ∀ l : List Request, (∀ r ∈ l, r ∈ db.requests.rows) → l.foldl Request.recalculate db = db := by
    intro l hl
    induction l with
    | nil => rfl
    | cons r l ih =>
      have hr := hl r (by simp)
      rw [List.foldl_cons, Request.recalculate, updateScore_of_scored hr (h.scored r hr) .all]
      exact ih (fun x hx => hl x (List.mem_cons_of_mem _ hx))
  exact hl _ (fun _ hr => hr)

theorem ratingSum_request {db : Db} (h : Consistent db) (id : ℕ) :
    db.ratingSum (.request id) = db.likersCount (.request id) - 2 * db.reportersCount (.request id) := by
  have hadd := db.ratings.sum_add
    (fun r => if decide (r.rateable = .request id) && decide (r.rating = 1) then (1 : ℤ) else 0)
    (fun r => if decide (r.rateable = .request id) && decide (r.rating = -2) then (-2 : ℤ) else 0)
  have htwo : db.ratings.sum
      (fun r => if decide (r.rateable = .request id) && decide (r.rating = -2) then (-2 : ℤ) else 0) =
      -2 * db.reportersCount (.request id) := by
    rw [Db.reportersCount, Db.ratingCount, Table.intCount_eq_sum, Table.sum, Table.sum, ← List.sum_map_mul_left]
    simp
  rw [htwo, ← Table.intCount_eq_sum] at hadd
  have hs : db.ratingSum (.request id) = db.likersCount (.request id) + -2 * db.reportersCount (.request id) := by
    rw [Db.likersCount, Db.ratingCount, ← hadd]
    apply Table.sum_congr
    intro r hr
    have hv := h.ratings r hr
    by_cases hq : r.rateable = .request id
    · have hd : r.rating ≠ -1 := by
        intro hd
        have hc := hv.notDown hd
        rw [hq] at hc
        cases hc
      rcases hv.value with hx | hx | hx | hx
      · simp [hq, hx]
      · exact absurd hx hd
      · simp [hq, hx]
      · simp [hq, hx]
    · simp [hq]
  rw [hs]
  ring

def Db.unreported (db : Db) (user : ℕ) : Prop :=
  ∀ r ∈ db.requests.rows, r.userId = user → db.reportersCount (.request r.id) = 0

theorem requestLikes_eq_total_iff {db : Db} (hi : Consistent db) (hs : Scores db) (user : ℕ) :
    db.requestLikes user = db.requestLikeTotal user ↔ db.unreported user := by
  have hadd := db.requests.sum_add (fun r => if r.userId = user then r.likeCount else 0)
    (fun r => if r.userId = user then -2 * db.reportersCount (.request r.id) else 0)
  have hl : db.requestLikes user = db.requestLikeTotal user +
      db.requests.sum (fun r => if r.userId = user then -2 * db.reportersCount (.request r.id) else 0) := by
    rw [Db.requestLikeTotal, ← hadd]
    apply Table.sum_congr
    intro r hr
    rw [ratingSum_request hi, ← (hs.scored r hr).likeCount]
    split_ifs <;> ring
  have hneg : db.requests.sum (fun r => if r.userId = user then -2 * db.reportersCount (.request r.id) else 0) =
      -2 * db.requests.sum (fun r => if r.userId = user then db.reportersCount (.request r.id) else 0) := by
    rw [Table.sum, Table.sum, ← List.sum_map_mul_left]
    congr 1
    apply List.map_congr_left
    intro r _
    split_ifs <;> ring
  have hz := db.requests.sum_eq_zero_iff (fun r => if r.userId = user then db.reportersCount (.request r.id) else 0)
    (fun r _ => by
      simp only [Db.reportersCount]
      split_ifs <;> omega)
  rw [hl, hneg]
  constructor
  · intro he r hr hu
    have h0 := hz.mp (by omega) r hr
    rwa [if_pos hu] at h0
  · intro hu
    have h0 := hz.mpr (fun r hr => by
      split_ifs with he
      · exact hu r hr he
      · rfl)
    omega

theorem counters_recalculated_iff {db : Db} (hi : Consistent db) (hs : Scores db) {k : ℕ} {u : User}
    (hl : LedgerOf db k u) : (User.recalculated db k u).counters = u.counters ↔ db.unreported k := by
  rw [← requestLikes_eq_total_iff hi hs k, ← hl.requestLikeCount]
  constructor
  · intro h
    exact (congrArg (fun c => c.2.2.2.1) h).symm
  · intro h
    have hp : (User.recalculated db k u).pointCount = u.pointCount := by
      rw [hl.pointCount]
      simp only [User.recalculated, User.withPoints, User.points, ← h, ← hl.followerCount,
        ← hl.conversationLikeCount]
    simp only [User.counters, hp, Prod.mk.injEq, and_true]
    exact ⟨hl.followerCount.symm, hl.followingCount.symm, hl.reportCount.symm, h.symm,
      hl.conversationLikeCount.symm⟩

theorem keepsCounters_of_maps {db db' : Db} (hi : Consistent db) (hs : Scores db) (hl : Ledger db) {p : ℕ → Prop}
    [DecidablePred p] (hm : MapsUsers db db' (fun k u => if p k then User.recalculated db k u else u)) :
    KeepsCounters db db' ↔ ∀ k, p k → db.users.has k = true → db.unreported k := by
  constructor
  · intro h k hp hk
    obtain ⟨u, hu⟩ := Option.isSome_iff_exists.mp hk
    have hc := h k
    simp only [hm.get?, hu, if_pos hp, Option.map_some, Option.some.injEq] at hc
    exact (counters_recalculated_iff hi hs (hl k u hu)).mp hc
  · intro h k
    rw [hm.get?]
    cases hu : db.users.get? k with
    | none => rfl
    | some u =>
      simp only [Option.map_some, Option.some.injEq]
      split_ifs with hp
      · have hk : db.users.has k = true := Table.has_of_get? hu
        exact (counters_recalculated_iff hi hs (hl k u hu)).mpr (h k hp hk)
      · rfl

theorem recalculate_keeps_iff (P : Platform) (db : Db) (h : Reachable P db) :
    (∀ user, KeepsCounters db (User.recalculate db.recalculateRequests user) ↔
      ∀ r ∈ db.requests.rows, r.userId = user → db.reportersCount (.request r.id) = 0) ∧
    (KeepsCounters db db.recalculate ↔ ∀ r ∈ db.requests.rows, db.reportersCount (.request r.id) = 0) := by
  have hi := h.consistent
  have hs := h.scores
  constructor
  · intro user
    rw [recalculateRequests_eq hs, keepsCounters_of_maps hi hs h.ledger (User.recalculate_maps db user)]
    constructor
    · intro hk r hr hu
      exact hk user rfl (hu ▸ hi.author hr) r hr hu
    · rintro hr k rfl - r hm hu
      exact hr r hm hu
  · rw [Db.recalculate, recalculateRequests_eq hs,
      keepsCounters_of_maps hi hs h.ledger (recalculate_foldl_maps _ db.users.unique db)]
    constructor
    · intro hk r hr
      obtain ⟨u, hu, he⟩ := (db.users.has_iff _).mp (hi.author hr)
      exact hk r.userId (List.mem_map.mpr ⟨u, hu, he⟩) (hi.author hr) r hr rfl
    · intro hr k _ _ r hm _
      exact hr r hm

def reportedRequest : Db :=
  Transition.run (step .plain) (Db.new {})
    [.signUp "ann@blnkk.com" "ann", .signUp "bob@blnkk.com" "bob", .createRequest 1 "bike" "wanted" none,
      .rateRequest 2 1 (.int (-2))]

theorem recalculate_reported :
    Reachable .plain reportedRequest ∧
    (reportedRequest.users.get? 1).map User.counters = some (0, 0, 0, -2, 0, -4) ∧
    ((User.recalculate reportedRequest.recalculateRequests 1).users.get? 1).map User.counters =
      some (0, 0, 0, 0, 0, 0) ∧
    ¬ KeepsCounters reportedRequest (User.recalculate reportedRequest.recalculateRequests 1) := by
  have hb : (reportedRequest.users.get? 1).map User.counters = some (0, 0, 0, -2, 0, -4) := by decide
  have ha : ((User.recalculate reportedRequest.recalculateRequests 1).users.get? 1).map User.counters =
      some (0, 0, 0, 0, 0, 0) := by decide
  refine ⟨⟨{}, _, rfl⟩, hb, ha, fun hk => ?_⟩
  have he := hk 1
  rw [ha, hb] at he
  exact absurd he (by decide)

theorem recalculate_keeps_bob :
    KeepsCounters reportedRequest (User.recalculate reportedRequest.recalculateRequests 2) :=
  ((recalculate_keeps_iff .plain reportedRequest ⟨{}, _, rfl⟩).1 2).mpr (by decide)

end Blnkk
