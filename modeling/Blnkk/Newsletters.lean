import Blnkk.EmailSettings
import Blnkk.Lib.Concurrent

/-!
`Admin::NewslettersController#send_everybody`, one statement at a time, and when
requests that overlap mail a newsletter once.
-/

namespace Blnkk

open Relational

structure NewsletterRow extends Newsletter where
  intro : Option String := none
  sent : Bool := false
  deriving DecidableEq

namespace NewsletterRow

def sanitizeFields (P : Platform) (n : NewsletterRow) : NewsletterRow :=
  { n with subject := P.sanitizeField n.subject, intro := n.intro.map P.sanitizeField }

def valid (newsletters : Table (fun n : NewsletterRow => n.id)) (n : NewsletterRow) : Bool :=
  Text.present n.subject && !newsletters.rows.any (fun other => decide (other.id ≠ n.id) && other.subject == n.subject)

end NewsletterRow

structure NewsletterStore where
  newsletters : Table (fun n : NewsletterRow => n.id)
  users : Table User.id
  -- the users passed to the mailer, in order
  mailed : List ℕ := []

inductive SendEverybody where
  | find
  | validate (newsletter : NewsletterRow)
  | update (newsletter : NewsletterRow)
  | query
  | mail (users : List ℕ)
  | notFound
  deriving DecidableEq

def NewsletterStore.receivers (s : NewsletterStore) : List ℕ := (s.users.rows.filter User.enabled).map User.id

namespace SendEverybody

/-- The newsletter `id` is to be sent. The answer of `update_attributes` is not
looked at: the mails go out also when the flag could not be set. -/
def next (P : Platform) (id : ℕ) (s : NewsletterStore) : SendEverybody → NewsletterStore × SendEverybody
  | find =>
    match s.newsletters.get? id with
    | some n => (s, if n.sent then notFound else validate n)
    | none => (s, notFound)
  | validate n =>
    if (n.sanitizeFields P).valid s.newsletters then (s, update (n.sanitizeFields P)) else (s, query)
  | update n =>
    ({ s with
      newsletters := s.newsletters.update id
        (fun row => { row with subject := n.subject, intro := n.intro, sent := true }) }, query)
  | query => (s, mail s.receivers)
  | mail [] => (s, mail [])
  | mail (user :: users) => ({ s with mailed := s.mailed ++ [user] }, mail users)
  | notFound => (s, notFound)

/-- The request has found the newsletter and mails it or will do so. -/
def found : SendEverybody → Bool
  | find => false
  | notFound => false
  | _ => true

def unsent (receivers : List ℕ) : SendEverybody → List ℕ
  | mail users => users
  | _ => receivers

end SendEverybody

abbrev NewsletterRun (ι : Type) := Concurrent.State NewsletterStore ι SendEverybody

def newsletterStep {ι : Type} [DecidableEq ι] (P : Platform) (id : ℕ) : NewsletterRun ι → ι → NewsletterRun ι :=
  Concurrent.step (SendEverybody.next P id)

section Run

variable {ι : Type}

def newsletterStart (newsletters : Table (fun n : NewsletterRow => n.id)) (users : Table User.id) : NewsletterRun ι :=
  ⟨⟨newsletters, users, []⟩, fun _ => .find⟩

/-- A request looks the newsletter up and finds it not sent, although another
request has found it before. -/
def NewsletterRun.Overlaps (id : ℕ) (r : NewsletterRun ι) (i : ι) : Prop :=
  r.procs i = .find ∧ (r.shared.newsletters.get? id).map NewsletterRow.sent = some false ∧
    ∃ j, (r.procs j).found = true

/-- Nobody has found the newsletter, or one request has, and has still to mail
whom it has not mailed. -/
inductive MailedOnce (r : NewsletterRun ι) : Prop where
  | nobody (hm : r.shared.mailed = []) (hf : ∀ j, (r.procs j).found = false)
  | one (i : ι) (hi : (r.procs i).found = true) (hf : ∀ j ≠ i, (r.procs j).found = false)
    (hm : r.shared.mailed ++ (r.procs i).unsent r.shared.receivers = r.shared.receivers)

theorem receivers_nodup (s : NewsletterStore) : s.receivers.Nodup :=
  s.users.unique.sublist (List.filter_sublist.map User.id)

theorem MailedOnce.nodup {r : NewsletterRun ι} (h : MailedOnce r) : r.shared.mailed.Nodup := by
  cases h with
  | nobody hm _ =>
    rw [hm]
    exact List.nodup_nil
  | one i _ _ hm =>
    have hreceivers := receivers_nodup r.shared
    rw [← hm] at hreceivers
    exact (List.nodup_append.mp hreceivers).1

variable [DecidableEq ι] (P : Platform) (id : ℕ) {r : NewsletterRun ι}

theorem next_users (s : NewsletterStore) (p : SendEverybody) : (p.next P id s).1.users = s.users := by
  cases p with
  | find =>
    simp only [SendEverybody.next]
    cases s.newsletters.get? id <;> rfl
  | validate n =>
    simp only [SendEverybody.next]
    split_ifs <;> rfl
  | update n => rfl
  | query => rfl
  | mail users => cases users <;> rfl
  | notFound => rfl

theorem next_mailed {s : NewsletterStore} {p : SendEverybody} (hp : p.found = true) :
    (p.next P id s).2.found = true ∧
      (p.next P id s).1.mailed ++ (p.next P id s).2.unsent s.receivers = s.mailed ++ p.unsent s.receivers := by
  cases p with
  | find => cases hp
  | notFound => cases hp
  | validate n =>
    simp only [SendEverybody.next]
    split_ifs <;> exact ⟨rfl, rfl⟩
  | update n => exact ⟨rfl, rfl⟩
  | query => exact ⟨rfl, rfl⟩
  | mail users =>
    cases users with
    | nil => exact ⟨rfl, rfl⟩
    | cons user users => exact ⟨rfl, by simp [SendEverybody.next, SendEverybody.unsent]⟩

theorem next_idle {s : NewsletterStore} {p : SendEverybody} (hp : p.found = false) :
    (p.next P id s).1 = s ∧
      ((p.next P id s).2.found = false ∨
        p = .find ∧ (s.newsletters.get? id).map NewsletterRow.sent = some false ∧
          (p.next P id s).2.unsent s.receivers = s.receivers) := by
  cases p with
  | find =>
    unfold SendEverybody.next
    cases hn : s.newsletters.get? id with
    | none => exact ⟨rfl, Or.inl rfl⟩
    | some n =>
      refine ⟨rfl, ?_⟩
      simp only
      by_cases hs : n.sent = true
      · rw [if_pos hs]
        exact Or.inl rfl
      · rw [if_neg hs]
        rw [Bool.not_eq_true] at hs
        exact Or.inr ⟨trivial, congrArg some hs, rfl⟩
  | notFound => exact ⟨rfl, Or.inl rfl⟩
  | validate n => cases hp
  | update n => cases hp
  | query => cases hp
  | mail users => cases hp

theorem newsletterStep_once (h : MailedOnce r) (i : ι) (ho : ¬ r.Overlaps id i) :
    MailedOnce (newsletterStep P id r i) := by
  have hself : (newsletterStep P id r i).procs i = ((r.procs i).next P id r.shared).2 :=
    Concurrent.procs_self (SendEverybody.next P id) r i
  have hother : ∀ {j}, j ≠ i → (newsletterStep P id r i).procs j = r.procs j :=
    fun hj => Concurrent.procs_ne (SendEverybody.next P id) r hj
  have hreceivers : (newsletterStep P id r i).shared.receivers = r.shared.receivers := by
    rw [NewsletterStore.receivers, NewsletterStore.receivers]
    exact congrArg (fun users : Table User.id => (users.rows.filter User.enabled).map User.id)
      (next_users P id r.shared (r.procs i))
  by_cases hi : (r.procs i).found = true
  · -- the request that mails takes its next statement
    obtain ⟨hfound, hmailed⟩ := next_mailed P id (s := r.shared) hi
    cases h with
    | nobody _ hf =>
      rw [hf i] at hi
      cases hi
    | one k hk hf hm =>
      have hki : k = i := by
        by_contra hne
        rw [hf i (Ne.symm hne)] at hi
        cases hi
      subst hki
      refine .one k (by rw [hself]; exact hfound) (fun j hj => by rw [hother hj]; exact hf j hj) ?_
      rw [hself, hreceivers]
      exact hmailed.trans hm
  · rw [Bool.not_eq_true] at hi
    obtain ⟨hsame, hnext⟩ := next_idle P id (s := r.shared) hi
    have hshared : (newsletterStep P id r i).shared = r.shared := hsame
    rcases hnext with hnone | ⟨hfind, hunsent, hall⟩
    · -- another one is left with nothing to mail
      have hstill : ∀ j, (r.procs j).found = false → ((newsletterStep P id r i).procs j).found = false := by
        intro j hj
        by_cases hji : j = i
        · rw [hji, hself]
          exact hnone
        · rw [hother hji]
          exact hj
      cases h with
      | nobody hm hf => exact .nobody (by rw [hshared]; exact hm) (fun j => hstill j (hf j))
      | one k hk hf hm =>
        have hki : k ≠ i := by
          rintro rfl
          rw [hi] at hk
          cases hk
        refine .one k (by rw [hother hki]; exact hk) (fun j hj => hstill j (hf j hj)) ?_
        rw [hother hki, hshared]
        exact hm
    · -- the first request finds the newsletter
      cases h with
      | one k hk _ _ => exact absurd ⟨hfind, hunsent, k, hk⟩ ho
      | nobody hm hf =>
        by_cases hfound : (SendEverybody.next P id r.shared (r.procs i)).2.found = true
        · refine .one i (by rw [hself]; exact hfound) (fun j hj => by rw [hother hj]; exact hf j) ?_
          rw [hself, hshared, hm, List.nil_append]
          exact hall
        · rw [Bool.not_eq_true] at hfound
          refine .nobody (by rw [hshared]; exact hm) (fun j => ?_)
          by_cases hji : j = i
          · rw [hji, hself]
            exact hfound
          · rw [hother hji]
            exact hf j

end Run

theorem newsletter_mailed_once {ι : Type} [DecidableEq ι] (P : Platform) (id : ℕ)
    (newsletters : Table (fun n : NewsletterRow => n.id)) (users : Table User.id) (turns : List ι)
    (ho : Transition.Meets (newsletterStep P id) (fun r i => ¬ r.Overlaps id i) (newsletterStart newsletters users) turns)
    (n : ℕ) (user : ℕ) :
    (Transition.run (newsletterStep P id) (newsletterStart newsletters users) (turns.take n)).shared.mailed.count user ≤ 1 := by
  have honce := Transition.invariant_of_meets (newsletterStep P id) (I := MailedOnce)
    (fun _ i hq h => newsletterStep_once P id h i hq) (newsletterStart newsletters users)
    (.nobody rfl (fun _ => rfl)) turns ho n
  exact List.nodup_iff_count_le_one.mp honce.nodup user

def springNewsletter : Table (fun n : NewsletterRow => n.id) :=
  Table.empty.insertFresh (fun id => { id, subject := "spring" })

theorem annAlone_id (id : ℕ) : ({ id, email := "ann@blnkk.com", name := "ann" } : User).id = id := rfl

def annAlone : Table User.id :=
  Table.empty.insertFresh (fun id => { id, email := "ann@blnkk.com", name := "ann" }) annAlone_id

theorem spring_mailed_in_turn :
    (Transition.run (newsletterStep .plain 1) (newsletterStart springNewsletter annAlone)
      [false, false, false, true, false, false]).shared.mailed.count 1 ≤ 1 := by
  refine newsletter_mailed_once .plain 1 springNewsletter annAlone [false, false, false, true, false, false] ?_ 6 1
  refine ⟨?_, ?_, ?_, ?_, ?_, ?_, trivial⟩
  · rintro ⟨-, -, j, hj⟩
    cases hj
  · exact fun h => by cases h.1
  · exact fun h => by cases h.1
  · exact fun h => by cases h.2.1
  · exact fun h => by cases h.1
  · exact fun h => by cases h.1

/-- Both requests look the newsletter up before one of them sets the flag. -/
theorem spring_mailed_twice :
    (Transition.run (newsletterStep .plain 1) (newsletterStart springNewsletter annAlone)
      [false, true, false, false, false, false, true, true, true, true]).shared.mailed.count 1 = 2 := by
  decide +kernel

end Blnkk
