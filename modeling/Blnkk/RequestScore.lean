import Blnkk.ScoreInvariant

namespace Blnkk

open Relational

def RequestSerializer.repliers (db : Db) (r : Request) : List ℕ :=
  ((db.requestUsers.rows.filter (fun ru => decide (ru.requestId = r.id))).map RequestUser.userId).filter
    (fun u => decide (u ≠ r.userId))

def Db.viewers (db : Db) (id : ℕ) : List ℕ :=
  (db.viewings.rows.filter (fun v => decide (v.viewable = .request id))).map Viewing.userId

theorem viewers_nodup (db : Db) (id : ℕ) : (db.viewers id).Nodup := by
  have hu := db.viewings.unique
  have hr : db.viewings.rows.Nodup := List.Nodup.of_map _ hu
  rw [List.nodup_map_iff_inj_on hr] at hu
  refine (List.nodup_map_iff_inj_on (hr.filter _)).mpr ?_
  intro a ha b hb hab
  obtain ⟨ha, hia⟩ := List.mem_filter.mp ha
  obtain ⟨hb, hib⟩ := List.mem_filter.mp hb
  have hv : a.viewable = b.viewable := (of_decide_eq_true hia).trans (of_decide_eq_true hib).symm
  exact hu a ha b hb (Prod.ext hv hab)

theorem viewers_length (db : Db) (id : ℕ) : ((db.viewers id).length : ℤ) = db.viewingsCount id := by
  rw [Db.viewers, List.length_map, Db.viewingsCount, Table.count, List.countP_eq_length_filter]

theorem repliers_length {db : Db} {r : Request} (ha : db.requestUsers.has (r.id, r.userId) = true) :
    ((RequestSerializer.repliers db r).length : ℤ) = db.requestUsersCount r.id - 1 := by
  have hs : db.requestUsers.count (fun ru => decide (ru.requestId = r.id)) =
      db.requestUsers.count (fun ru => decide (ru.userId ≠ r.userId) && decide (ru.requestId = r.id)) + 1 := by
    obtain ⟨ru, hru⟩ := Option.isSome_iff_exists.mp ha
    have hone : db.requestUsers.sum (fun a => if a.index = (r.id, r.userId) then 1 else 0) = 1 := by
      rw [Table.sum_single, hru]
      rfl
    have hadd := db.requestUsers.sum_add
      (fun a => if decide (a.userId ≠ r.userId) && decide (a.requestId = r.id) then 1 else 0)
      (fun a => if a.index = (r.id, r.userId) then 1 else 0)
    rw [hone] at hadd
    rw [Table.count_eq_sum, Table.count_eq_sum, ← hadd]
    apply Table.sum_congr
    intro a _
    by_cases hi : a.requestId = r.id <;> by_cases hu : a.userId = r.userId <;> simp [RequestUser.index, hi, hu]
  have hl : (RequestSerializer.repliers db r).length =
      db.requestUsers.count (fun ru => decide (ru.userId ≠ r.userId) && decide (ru.requestId = r.id)) := by
    rw [RequestSerializer.repliers, List.filter_map, List.length_map, List.filter_filter,
      ← List.countP_eq_length_filter]
    rfl
  rw [hl, Db.requestUsersCount, hs]
  omega

theorem updateScore_of_scored {db : Db} {r : Request} (hr : r ∈ db.requests.rows) (h : Scored db r)
    (action : ScoreAction) : r.updateScore db action = db := by
  have ht : db.requests.update r.id (fun row => row.scoreColumns (r.rescore db action)) (fun _ => rfl) = db.requests := by
    apply Table.update_eq_self
    intro row hrow
    rw [Table.get?_of_mem hr, Option.some.injEq] at hrow
    rw [← hrow, h.rescore_eq action]
    rfl
  exact congrArg (fun t => { db with requests := t }) ht

theorem reachable_scores (P : Platform) (db : Db) (h : Reachable P db) (r : Request) (hr : r ∈ db.requests.rows) :
    r.updateScore db .all = db ∧
    r.commentCount = (RequestSerializer.repliers db r).length ∧
    0 ≤ r.commentCount ∧
    (db.viewers r.id).Nodup ∧ r.userReachCount = (db.viewers r.id).length ∧
    r.rawScore = r.likeCount + 2 * r.commentCount ∧
    r.score = Request.quotient r.rawScore r.userReachCount ∧
    |r.score - (max 1 r.rawScore : ℤ) / (max 1 r.userReachCount : ℤ)| ≤
      (max 1 r.rawScore : ℤ) / (max 1 r.userReachCount : ℤ) / 2 ^ 23 := by
  have hs := h.scores
  have hd := hs.scored r hr
  have hc : r.commentCount = (RequestSerializer.repliers db r).length :=
    hd.commentCount.trans (repliers_length (hs.author r hr)).symm
  refine ⟨updateScore_of_scored hr hd .all, hc, ?_, viewers_nodup db r.id, ?_, hd.rawScore, hd.score, ?_⟩
  · rw [hc]
    omega
  · rw [hd.userReachCount, viewers_length]
  · rw [hd.score]
    exact Request.abs_quotient_sub_le r.rawScore r.userReachCount

def popularRun : List Op :=
  [.signUp "ann@blnkk.com" "ann", .signUp "bob@blnkk.com" "bob", .createRequest 1 "bike" "wanted" none,
    .showRequest 2 1, .indexRequests 1 [1], .rateRequest 2 1 (.int 1), .createComment 2 1 "mine",
    .postMessage 10 [] 2 { message := some { content := some "hello" }, requestId := some 1 }, .destroyComment 2 1]

theorem popularRun_scores :
    ∃ r ∈ (Transition.run (step .plain) (Db.new {}) popularRun).requests.rows,
      r.commentCount = 1 ∧ r.userReachCount = 2 ∧
      r.updateScore (Transition.run (step .plain) (Db.new {}) popularRun) .all =
        Transition.run (step .plain) (Db.new {}) popularRun := by
  have hm : ∃ r ∈ (Transition.run (step .plain) (Db.new {}) popularRun).requests.rows,
      r.commentCount = 1 ∧ r.userReachCount = 2 := by decide +kernel
  obtain ⟨r, hr, hc, hv⟩ := hm
  exact ⟨r, hr, hc, hv, (reachable_scores .plain _ ⟨{}, popularRun, rfl⟩ r hr).1⟩

def viewedByThree : List Op :=
  [.signUp "ann@blnkk.com" "ann", .signUp "bob@blnkk.com" "bob", .signUp "carol@blnkk.com" "carol",
    .createRequest 1 "bike" "wanted" none, .showRequest 1 1, .showRequest 2 1, .showRequest 3 1]

/-- A third has no binary digits that end. -/
theorem viewedByThree_score_rounded :
    Reachable .plain (Transition.run (step .plain) (Db.new {}) viewedByThree) ∧
      ∃ r ∈ (Transition.run (step .plain) (Db.new {}) viewedByThree).requests.rows,
        r.rawScore = 0 ∧ r.userReachCount = 3 ∧ r.score = 11184811 / 33554432 ∧
        r.score ≠ (max 1 r.rawScore : ℤ) / (max 1 r.userReachCount : ℤ) :=
  ⟨⟨{}, viewedByThree, rfl⟩, by decide +kernel⟩

end Blnkk
