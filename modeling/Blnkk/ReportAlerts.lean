import Blnkk.RatingTwice

/-!
The alert that reports of a request, a comment or a user set off, over any
sequence of ratings of it.
-/

namespace Blnkk

open Relational Transition

/-- The number of reports that the alert is about. -/
def Rateable.threshold : Rateable → Option ℤ
  | user _ => some 6
  | request _ => some 2
  | comment _ => some 2
  | conversation _ => none

def Effect.isAlert : Effect → Bool
  | slackRequest _ => true
  | _ => false

def RateResult.alerts (result : RateResult) : ℕ := result.effects.countP Effect.isAlert

def rateCallStep (q : Rateable) (db : Db) (call : ℕ × Param) : Db := (db.rate q call.1 call.2).db

/-- The step from one state to the other raises the reporters to the threshold. -/
def Rateable.Crossed (q : Rateable) (before after : Db) : Prop :=
  ∃ n, q.threshold = some n ∧ before.reportersCount q < n ∧ after.reportersCount q = n

structure Alerted (q : Rateable) (db : Db) (result : RateResult) : Prop where
  returns : result.raised = false
  sent : q.Crossed db result.db → result.alerts = 1
  unsent : ¬ q.Crossed db result.db → result.alerts = 0

/-- The reporters after the user gives the rating. -/
def Db.reportersAfter (db : Db) (q : Rateable) (me : ℕ) (v : ℤ) : ℤ :=
  ((db.raters q (-2)).filter (· != me)).length + if v = -2 then 1 else 0

/-- Where the call ends at the threshold, it is a new report of a request, and
the address of the site is set. -/
def Alertable (q : Rateable) (db : Db) (call : ℕ × Param) (v : ℤ) : Prop :=
  q.threshold = some (db.reportersAfter q call.1 v) →
    (∃ id, q = .request id) ∧ db.settings.siteUrl.isSome = true ∧ v = -2 ∧ db.ratingOf call.1 q ≠ some (-2)

theorem reportersCount_eq (db : Db) (q : Rateable) (me : ℕ) :
    db.reportersCount q = ((db.raters q (-2)).filter (· != me)).length +
      if db.ratingOf me q = some (-2) then 1 else 0 := by
  have herase := (db.raters_nodup q (-2)).erase_eq_filter me
  have hlength := List.length_erase (a := me) (l := db.raters q (-2))
  rw [herase] at hlength
  rw [Db.reportersCount, ← Db.raters_length]
  by_cases hm : me ∈ db.raters q (-2)
  · have hpos := List.length_pos_of_mem hm
    rw [if_pos hm] at hlength
    rw [if_pos ((db.mem_raters me q (-2)).mp hm)]
    omega
  · rw [if_neg hm] at hlength
    rw [if_neg (fun h => hm ((db.mem_raters me q (-2)).mpr h))]
    omega

section Call

variable {db : Db} {q : Rateable} {me : ℕ} {rating : Param} {v : ℤ}

theorem reportersCount_rate (h : db.assignRating me q rating = .ok v) :
    (db.rate q me rating).db.reportersCount q = db.reportersAfter q me v := by
  have hr := (rate_saves h).2
  have hsame : (db.rate q me rating).db.reportersCount q = (db.saveRating me q v).reportersCount q := by
    simp only [Db.reportersCount, Db.ratingCount, hr]
  have hown : (db.saveRating me q v).ratingOf me q = some v := by
    rw [Db.ratingOf, Db.get?_saveRating, if_pos rfl]
    rfl
  rw [hsame, reportersCount_eq _ q me, hown, Db.others_saveRating, Db.reportersAfter]
  simp only [Option.some.injEq]

theorem crossed_iff (h : db.assignRating me q rating = .ok v) :
    q.Crossed db (db.rate q me rating).db ↔
      q.threshold = some (db.reportersAfter q me v) ∧ v = -2 ∧ db.ratingOf me q ≠ some (-2) := by
  have hbefore := reportersCount_eq db q me
  have hafter : db.reportersAfter q me v = ((db.raters q (-2)).filter (· != me)).length + if v = -2 then 1 else 0 := rfl
  rw [Rateable.Crossed, reportersCount_rate h]
  constructor
  · rintro ⟨n, hn, hlt, rfl⟩
    refine ⟨hn, ?_⟩
    split_ifs at hbefore hafter <;> simp_all
  · rintro ⟨hn, hv, hold⟩
    refine ⟨_, hn, ?_, rfl⟩
    rw [if_neg hold] at hbefore
    rw [if_pos hv] at hafter
    omega

theorem alerted_user {u : User} (h : db.assignRating me (.user u.id) rating = .ok v) :
    (db.rate (.user u.id) me rating).alerts = 0 ∧
      ((db.rate (.user u.id) me rating).raised = true ↔ db.reportersAfter (.user u.id) me v = 6) := by
  have hcount := reportersCount_rate h
  rw [rate_user h] at hcount ⊢
  constructor
  · simp only [RateResult.alerts]
    split_ifs <;> rfl
  · simp only [decide_eq_true_eq]
    rw [hcount]

theorem alerted_comment {c : Comment} (hc : db.comments.get? c.id = some c)
    (h : db.assignRating me (.comment c.id) rating = .ok v) :
    (db.rate (.comment c.id) me rating).alerts = 0 ∧
      ((db.rate (.comment c.id) me rating).raised = true ↔ db.reportersAfter (.comment c.id) me v = 2) := by
  have hcount := reportersCount_rate h
  rw [rate_comment hc h] at hcount ⊢
  constructor
  · simp only [RateResult.alerts]
    split_ifs <;> rfl
  · simp only [decide_eq_true_eq]
    rw [hcount]

theorem alerted_request {r : Request} (hr : db.requests.get? r.id = some r)
    (h : db.assignRating me (.request r.id) rating = .ok v) :
    ((db.rate (.request r.id) me rating).alerts =
        if db.reportersAfter (.request r.id) me v = 2 ∧ db.settings.siteUrl.isSome = true then 1 else 0) ∧
      ((db.rate (.request r.id) me rating).raised = true ↔
        db.reportersAfter (.request r.id) me v = 2 ∧ db.settings.siteUrl.isSome = false) := by
  have hcount := reportersCount_rate h
  have hsettings : (r.rated db me v).settings = db.settings := by
    rw [(Request.rated_maps db r me v).frame]
    rfl
  rw [rate_request hr h] at hcount ⊢
  constructor
  · have hlike (b : Bool) (e : Effect) (he : e.isAlert = false) :
        (if b then [e] else []).countP Effect.isAlert = 0 := by
      cases b <;> simp [he]
    rw [RateResult.alerts, List.countP_append, hlike _ _ rfl, hcount, hsettings, Nat.zero_add]
    by_cases hn : db.reportersAfter (.request r.id) me v = 2 <;>
      cases hs : db.settings.siteUrl.isSome <;> simp [hn, Effect.isAlert]
  · simp only [Bool.and_eq_true, decide_eq_true_eq, hsettings]
    rw [hcount]
    simp

/-- Users and comments raise instead of sending the alert. -/
theorem alerted_iff_of_raises {n : ℤ} (h : db.assignRating me q rating = .ok v) (hn : q.threshold = some n)
    (hq : ∀ id, q ≠ .request id) (halerts : (db.rate q me rating).alerts = 0)
    (hraised : (db.rate q me rating).raised = true ↔ db.reportersAfter q me v = n) :
    Alerted q db (db.rate q me rating) ↔ Alertable q db (me, rating) v := by
  rw [Alertable, hn, Option.some.injEq]
  constructor
  · rintro ⟨hreturns, -, -⟩ he
    rw [hraised.mpr he.symm] at hreturns
    cases hreturns
  · intro hnever
    have hne : n ≠ db.reportersAfter q me v := by
      intro he
      obtain ⟨⟨id, hid⟩, -⟩ := hnever he
      exact hq id hid
    refine ⟨?_, fun hc => ?_, fun _ => halerts⟩
    · rw [← Bool.not_eq_true, hraised]
      exact Ne.symm hne
    · rw [crossed_iff h, hn, Option.some.injEq] at hc
      exact absurd hc.1 hne

theorem alerted_iff (h : db.assignRating me q rating = .ok v) :
    Alerted q db (db.rate q me rating) ↔ Alertable q db (me, rating) v := by
  cases Db.loaded_of_has (assignRating_ok h).2.rateable with
  | user u hu =>
    obtain ⟨halerts, hraised⟩ := alerted_user h
    exact alerted_iff_of_raises h rfl (fun _ he => by cases he) halerts hraised
  | comment c hc =>
    obtain ⟨halerts, hraised⟩ := alerted_comment hc h
    exact alerted_iff_of_raises h rfl (fun _ he => by cases he) halerts hraised
  | request r hr =>
    obtain ⟨halerts, hraised⟩ := alerted_request hr h
    have hcrossed := crossed_iff h
    have hthreshold : (Rateable.request r.id).threshold = some (db.reportersAfter (.request r.id) me v) ↔
        db.reportersAfter (.request r.id) me v = 2 := by
      rw [Rateable.threshold, Option.some.injEq, eq_comm]
    rw [hthreshold] at hcrossed
    rw [Alertable, hthreshold]
    constructor
    · rintro ⟨hreturns, -, hunsent⟩ he
      have hsite : db.settings.siteUrl.isSome = true := by
        by_contra hn
        rw [hraised.mpr ⟨he, Bool.not_eq_true _ ▸ hn⟩] at hreturns
        cases hreturns
      refine ⟨⟨r.id, rfl⟩, hsite, ?_⟩
      by_contra hnew
      have hzero := hunsent (fun hc => hnew (hcrossed.mp hc).2)
      rw [halerts, if_pos ⟨he, hsite⟩] at hzero
      cases hzero
    · intro hready
      refine ⟨?_, fun hc => ?_, fun hc => ?_⟩
      · rw [← Bool.not_eq_true, hraised]
        rintro ⟨he, hsite⟩
        rw [(hready he).2.1] at hsite
        cases hsite
      · have he := (hcrossed.mp hc).1
        rw [halerts, if_pos ⟨he, (hready he).2.1⟩]
      · rw [halerts, if_neg]
        rintro ⟨he, -⟩
        exact hc (hcrossed.mpr ⟨he, (hready he).2.2⟩)
  | conversation c hc =>
    rw [rate_conversation hc h]
    have hnone : ¬ (Rateable.conversation c.id).Crossed db (c.rated db me v) := by
      rintro ⟨n, hn, -⟩
      cases hn
    refine iff_of_true ⟨rfl, fun hcrossed => absurd hcrossed hnone, fun _ => rfl⟩ (fun hn => ?_)
    cases hn

end Call

theorem alerts_exact_iff (q : Rateable) (db : Db) (calls : List (ℕ × Param)) :
    Meets (rateCallStep q)
        (fun db call => ∀ v, db.assignRating call.1 q call.2 = .ok v → Alerted q db (db.rate q call.1 call.2)) db calls ↔
      Meets (rateCallStep q)
        (fun db call => ∀ v, db.assignRating call.1 q call.2 = .ok v → Alertable q db call v) db calls := by
  apply meets_congr_of_invariant (rateCallStep q) (I := fun _ => True)
  · intro db call _
    exact forall_congr' (fun v => forall_congr' (fun h => alerted_iff h))
  · intro _ _ _ _
    trivial
  · trivial

def reportedTwice : Db :=
  Transition.run (step .plain) (Db.new { siteUrl := some "http://blnkk.com" })
    [.signUp "ann@blnkk.com" "ann", .signUp "bob@blnkk.com" "bob", .signUp "carol@blnkk.com" "carol",
      .signUp "dave@blnkk.com" "dave", .createRequest 1 "bike" "wanted" none, .createComment 1 1 "still wanted",
      .rateRequest 2 1 (.int (-2)), .rateRequest 3 1 (.int (-2)), .rateComment 2 1 (.int (-2))]

theorem like_of_reported_request_alerts :
    Reachable .plain reportedTwice ∧
    reportedTwice.reportersCount (.request 1) = 2 ∧
    (reportedTwice.rate (.request 1) 4 (.int 1)).errors = [] ∧
    (reportedTwice.rate (.request 1) 4 (.int 1)).db.reportersCount (.request 1) = 2 ∧
    (reportedTwice.rate (.request 1) 4 (.int 1)).alerts = 1 ∧
    (reportedTwice.rate (.comment 1) 3 (.int (-2))).errors = [] ∧
    (reportedTwice.rate (.comment 1) 3 (.int (-2))).db.reportersCount (.comment 1) = 2 ∧
    (reportedTwice.rate (.comment 1) 3 (.int (-2))).raised = true := by
  refine ⟨⟨_, _, rfl⟩, ?_⟩
  decide +kernel

end Blnkk
