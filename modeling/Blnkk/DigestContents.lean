import Blnkk.Feeds
import Blnkk.Lib.Paging
import Mathlib.Algebra.Order.Ring.Unbundled.Rat

/-!
What is in a digest of fresh posts: the query of `send_fresh_new_posts` against
the rules of the news feed.
-/

namespace Blnkk

open Relational Transition

namespace FreshRun

section Matching

variable (createdAt : ℕ → ℤ) (fraction : Bool) (user : ℕ) (joined : Option ℤ)

/-- The requests that the query selects, before it is cut off at five. -/
def matching (now : ℤ) (s : Site) (last : Option ℤ) : List Request :=
  s.db.requests.rows.filter (fun r =>
    decide (quoted fraction (fromTime joined now last) < createdAt r.id * second) && decide (r.userId ≠ user) &&
      ((s.tagIds user).any (fun tag => s.taggings.has (tag, .request r.id)) || decide (r.userId ∈ s.followingIds user)))

/-- A request that the recipient should hear of. -/
structure Fits (s : Site) (r : Request) : Prop where
  active : r.workflowState = .active
  other : r.userId ≠ user
  since : ∀ t, joined = some t → t < createdAt r.id
  followed : (∃ tag ∈ s.tagIds user, s.Tagged r tag) ∨ r.userId ∈ s.followingIds user

end Matching

variable {createdAt : ℕ → ℤ} {fraction : Bool} {user : ℕ} {joined : Option ℤ} {now : ℤ} {s : Site} {last : Option ℤ}

theorem mem_matching {r : Request} :
    r ∈ matching createdAt fraction user joined now s last ↔
      r ∈ s.db.requests.rows ∧ quoted fraction (fromTime joined now last) < createdAt r.id * second ∧ r.userId ≠ user ∧
        ((∃ tag ∈ s.tagIds user, s.Tagged r tag) ∨ r.userId ∈ s.followingIds user) := by
  simp only [matching, List.mem_filter, Bool.and_eq_true, Bool.or_eq_true, decide_eq_true_eq, List.any_eq_true,
    and_assoc, Site.Tagged]

theorem nodup_matching : (matching createdAt fraction user joined now s last).Nodup :=
  (List.Nodup.of_map _ s.db.requests.unique).filter _

/-- The rows of the join that are selected belong to these requests. -/
theorem mem_selected {r : Request} :
    r ∈ (s.joinTaggings.filter (selects createdAt user s (quoted fraction (fromTime joined now last)))).map Prod.fst ↔
      r ∈ matching createdAt fraction user joined now s last := by
  have hrow : r ∈ (s.joinTaggings.filter
      (selects createdAt user s (quoted fraction (fromTime joined now last)))).map Prod.fst ↔
      quoted fraction (fromTime joined now last) < createdAt r.id * second ∧ r.userId ≠ user ∧
        ∃ t, (r, t) ∈ s.joinTaggings ∧ ((t.map Tagging.tagId).any (fun tag => decide (tag ∈ s.tagIds user)) = true ∨
          r.userId ∈ s.followingIds user) := by
    simp only [List.mem_map, List.mem_filter, Prod.exists, exists_and_right, exists_eq_right, selects, Bool.and_eq_true,
      Bool.or_eq_true, decide_eq_true_eq, Option.any_map, List.mem_cons]
    constructor
    · rintro ⟨t, hjoin, ⟨hbound, hother⟩, hfollowed⟩
      exact ⟨hbound, hother, t, hjoin, hfollowed.imp_right (fun h => h.resolve_left hother)⟩
    · rintro ⟨hbound, hother, t, hjoin, hfollowed⟩
      exact ⟨t, hjoin, ⟨hbound, hother⟩, hfollowed.imp_right Or.inr⟩
  rw [hrow, mem_matching, exists_joinTaggings_iff (fun tag =>
    tag.any (fun t => decide (t ∈ s.tagIds user)) = true ∨ r.userId ∈ s.followingIds user)]
  simp only [Option.any_some, Option.any_none, decide_eq_true_eq, Bool.false_eq_true, false_or]
  constructor
  · rintro ⟨hbound, hother, hr, ⟨tag, htag, hfollowed | hfollowed⟩ | ⟨-, hfollowed⟩⟩
    · exact ⟨hr, hbound, hother, Or.inl ⟨tag, hfollowed, htag⟩⟩
    · exact ⟨hr, hbound, hother, Or.inr hfollowed⟩
    · exact ⟨hr, hbound, hother, Or.inr hfollowed⟩
  · rintro ⟨hr, hbound, hother, ⟨tag, hfollowed, htag⟩ | hfollowed⟩
    · exact ⟨hbound, hother, hr, Or.inl ⟨tag, htag, Or.inl hfollowed⟩⟩
    · refine ⟨hbound, hother, hr, ?_⟩
      by_cases hn : ∀ tag, ¬ s.Tagged r tag
      · exact Or.inr ⟨hn, hfollowed⟩
      · obtain ⟨tag, htag⟩ := not_forall_not.mp hn
        exact Or.inl ⟨tag, htag, Or.inr hfollowed⟩

/-- Whatever the order among equal scores, the rows come by score. -/
theorem insertionSort_by_score (tie : ℕ → ℕ → Bool) (rows : List Request) :
    Paging.Answers Request.score rows (rows.insertionSort (before tie)) := by
  apply Paging.answers_insertionSort
  · intro a b h
    exact h.elim le_of_lt (fun h => h.1.le)
  · intro a b h
    exact not_lt.mp (fun hlt => h (Or.inl hlt))

/-- The answers that the order by score allows are those of some order among
equal scores. -/
theorem exists_tie {rows order : List Request} (hrows : (rows.map Request.id).Nodup)
    (h : Paging.Answers Request.score rows order) : ∃ tie, rows.insertionSort (before tie) = order := by
  refine ⟨fun i j => decide ((order.map Request.id).idxOf i ≤ (order.map Request.id).idxOf j), ?_⟩
  apply Paging.insertionSort_eq hrows h
  intro a b
  simp only [before, decide_eq_true_eq]

theorem selected_perm :
    ((s.joinTaggings.filter (selects createdAt user s (quoted fraction (fromTime joined now last)))).map
      Prod.fst).dedup.Perm (matching createdAt fraction user joined now s last) := by
  rw [List.perm_ext_iff_of_nodup (List.nodup_dedup _) nodup_matching]
  intro r
  rw [List.mem_dedup, mem_selected]

variable (createdAt fraction user joined now s last) in
theorem requests_answer (tie : ℕ → ℕ → Bool) :
    ∃ order, Paging.Answers Request.score (matching createdAt fraction user joined now s last) order ∧
      requests createdAt fraction user joined ⟨now, s, tie⟩ last = order.take 5 :=
  ⟨_, ⟨(List.perm_insertionSort _ _).trans selected_perm, (insertionSort_by_score tie _).sorted⟩, rfl⟩

theorem exists_requests {order : List Request}
    (h : Paging.Answers Request.score (matching createdAt fraction user joined now s last) order) :
    ∃ tie, requests createdAt fraction user joined ⟨now, s, tie⟩ last = order.take 5 := by
  have hids : ((matching createdAt fraction user joined now s last).map Request.id).Nodup :=
    s.db.requests.unique.sublist (List.filter_sublist.map _)
  obtain ⟨tie, htie⟩ := exists_tie ((selected_perm.map Request.id).nodup_iff.mpr hids)
    ⟨h.perm.trans selected_perm.symm, h.sorted⟩
  exact ⟨tie, congrArg (List.take 5) htie⟩

theorem fits_iff {r : Request} (hr : r ∈ matching createdAt fraction user joined now s last) :
    Fits createdAt user joined s r ↔ r.workflowState = .active := by
  obtain ⟨-, hbound, hother, hfollowed⟩ := mem_matching.mp hr
  refine ⟨Fits.active, fun hactive => ⟨hactive, hother, ?_, hfollowed⟩⟩
  rintro t rfl
  have hlater := lt_of_le_of_lt (le_quoted (le_latest_some (latest (now - days 14) last) t)) hbound
  unfold second at hlater
  omega

variable (createdAt fraction user joined now s last) in
theorem digest_fits_iff :
    (∀ tie, ∀ d ∈ digest createdAt fraction user joined last ⟨now, s, tie⟩, ∀ r ∈ d, Fits createdAt user joined s r) ↔
      (matching createdAt fraction user joined now s last).length < 3 ∨
        ∀ r ∈ matching createdAt fraction user joined now s last, r.workflowState ≠ .active →
          5 ≤ (matching createdAt fraction user joined now s last).countP (fun q => decide (r.score < q.score)) := by
  have hlength : ∀ tie, (requests createdAt fraction user joined ⟨now, s, tie⟩ last).length =
      min 5 (matching createdAt fraction user joined now s last).length := by
    intro tie
    obtain ⟨order, horder, hrequests⟩ := requests_answer createdAt fraction user joined now s last tie
    rw [hrequests, List.length_take, horder.perm.length_eq]
  by_cases hfew : (matching createdAt fraction user joined now s last).length < 3
  · refine iff_of_true (fun tie d hd => ?_) (Or.inl hfew)
    have hlen := (mem_digest hd).2.1
    rw [(mem_digest hd).1, hlength] at hlen
    omega
  · rw [or_iff_right hfew]
    have hdigest : ∀ tie, digest createdAt fraction user joined last ⟨now, s, tie⟩ =
        [requests createdAt fraction user joined ⟨now, s, tie⟩ last] := by
      intro tie
      refine if_pos ?_
      rw [hlength]
      omega
    have hanswers : (∀ tie, ∀ d ∈ digest createdAt fraction user joined last ⟨now, s, tie⟩, ∀ r ∈ d,
        Fits createdAt user joined s r) ↔
        ∀ order, Paging.Answers Request.score (matching createdAt fraction user joined now s last) order →
          ∀ r ∈ order.take 5, Fits createdAt user joined s r := by
      constructor
      · intro h order horder
        obtain ⟨tie, htie⟩ := exists_requests horder
        exact h tie _ (by rw [hdigest, htie]; exact List.mem_singleton_self _)
      · intro h tie d hd
        obtain ⟨order, horder, hrequests⟩ := requests_answer createdAt fraction user joined now s last tie
        rw [hdigest, List.mem_singleton, hrequests] at hd
        rw [hd]
        exact h order horder
    rw [hanswers, Paging.forall_mem_take_iff nodup_matching]
    refine forall₂_congr (fun r hr => ?_)
    rw [fits_iff hr]
    rfl

end FreshRun

/-- Bob follows Ann, who deletes the last of three requests. -/
def deletedPost : Site :=
  run (Site.postingStep .plain id) (Site.new { adminEmail := some "ann@blnkk.com" })
    [.site (.db (.signUp "ann@blnkk.com" "ann")), .site (.db (.signUp "bob@mail.org" "bob")),
      .site (.db (.rateUser 2 1 (.int 1))), .site (.db (.createRequest 1 "bike" "wanted" none)),
      .site (.db (.createRequest 1 "tent" "wanted" none)), .site (.db (.createRequest 1 "boat" "wanted" none)),
      .site (.db (.destroyRequest 1 3))]

theorem deleted_post_sent :
    (FreshRun.digest (fun _ => 100) true 2 (some 0) none ⟨200 * second, deletedPost, fun _ _ => true⟩).map
      (List.map (fun r => (r.id, r.workflowState))) = [[(1, .active), (2, .active), (3, .disabled)]] := by
  decide +kernel

end Blnkk
