import Blnkk.Lib.Run
import Blnkk.Notifications

/-!
The number of unread notifications that a browser shows. The server pushes the
number on the channel of the user whenever it may have changed; besides, the
browser asks for it when its socket opens, takes it over with the user's data,
and sets it to zero when it opens the list of notifications.
-/

namespace Blnkk

open Relational

namespace Notification

def unreadCount (t : Notifications) (user : ℕ) : ℕ := t.count (fun n => decide (n.userId = user) && !n.read)

def markAllRead (t : Notifications) (user : ℕ) : Notifications :=
  t.updateWhere (fun n => decide (n.userId = user)) (fun n => { n with read := true })

def markDone (t : Notifications) (key : ℕ × NotificationType × Notable) : Notifications :=
  t.update key (fun n => { n with done := true })

/-- Rows of others may change as they like. -/
theorem unreadCount_updateWhere (t : Notifications) {p : Notification → Bool} (f : Notification → Notification)
    (hf : ∀ n, (f n).index = n.index) {user : ℕ} (h : ∀ n, p n = true → n.userId = user → (f n).read = n.read) :
    unreadCount (t.updateWhere p f hf) user = unreadCount t user := by
  rw [unreadCount, Table.count_updateWhere, unreadCount]
  apply List.countP_congr
  intro n _
  have hn : (f n).userId = n.userId := congrArg Prod.fst (hf n)
  by_cases hp : p n = true
  · by_cases hu : n.userId = user
    · simp [hp, hn, hu, h n hp hu]
    · simp [hp, hn, hu]
  · simp [hp]

theorem unreadCount_notify (now : ℕ) (t : Notifications) {call : NotifyCall} {user : ℕ} (h : call.user ≠ user) :
    unreadCount (notify now t call) user = unreadCount t user := by
  rw [notify, Table.update, unreadCount_updateWhere]
  · exact Table.count_ensure_of t _ _ (by simp [h])
  · intro n hkey hu
    rw [decide_eq_true_eq] at hkey
    exact absurd ((congrArg Prod.fst hkey).symm.trans hu) h

theorem unreadCount_markAllRead (t : Notifications) {user user' : ℕ} (h : user' ≠ user) :
    unreadCount (markAllRead t user') user = unreadCount t user := by
  apply unreadCount_updateWhere
  intro n hp hu
  exact absurd ((decide_eq_true_eq.mp hp).symm.trans hu) h

theorem unreadCount_markDone (t : Notifications) (key : ℕ × NotificationType × Notable) (user : ℕ) :
    unreadCount (markDone t key) user = unreadCount t user :=
  unreadCount_updateWhere t (fun n => { n with done := true }) (fun _ => rfl) (fun _ _ _ => rfl)

end Notification

/-- A browser of the user, with the table at the server and all that is under
way between them: the pushed numbers, the `conversation_read` events that ask for
one, the requests for the first page of notifications, and the answers with the
user's data, each with the number in it. -/
structure NotificationBadge where
  notifications : Notifications
  unreadNotificationsCount : ℕ := 0
  connected : Bool := false
  pushed : List ℕ := []
  readings : ℕ := 0
  firstPages : ℕ := 0
  profiles : List ℕ := []

inductive BadgeEvent where
  | notify (now : ℕ) (call : NotifyCall)
  | index (user page : ℕ)
  | done (key : ℕ × NotificationType × Notable)
  | conversationRead (user : ℕ)
  | opened
  | closed
  | handleReading
  | getNotifications (page : ℕ)
  | handleFirstPage
  | answerProfile
  | receiveProfile
  | receive
  deriving DecidableEq

namespace NotificationBadge

variable (me : ℕ) (s : NotificationBadge)

def unreadCount : ℕ := Notification.unreadCount s.notifications me

/-- `notification_read_update` on the channel of the user. -/
def push (user : ℕ) : NotificationBadge :=
  if user = me ∧ s.connected = true then { s with pushed := s.pushed ++ [s.unreadCount me] } else s

def index (user page : ℕ) : NotificationBadge :=
  if page = 1 then { s with notifications := Notification.markAllRead s.notifications user }.push me user else s

def step : BadgeEvent → NotificationBadge
  | .notify now call => { s with notifications := Notification.notify now s.notifications call }.push me call.user
  | .index user page => s.index me user page
  | .done key => { s with notifications := Notification.markDone s.notifications key }
  | .conversationRead user => s.push me user
  | .opened => { s with connected := true, pushed := [], readings := 1 }
  | .closed => { s with connected := false, pushed := [], readings := 0 }
  | .handleReading => if s.readings = 0 then s else { s with readings := s.readings - 1 }.push me me
  | .getNotifications page =>
    if page = 1 then { s with unreadNotificationsCount := 0, firstPages := s.firstPages + 1 } else s
  | .handleFirstPage => if s.firstPages = 0 then s else { s with firstPages := s.firstPages - 1 }.index me me 1
  | .answerProfile => { s with profiles := s.profiles ++ [s.unreadCount me] }
  | .receiveProfile =>
    match s.profiles with
    | [] => s
    | count :: rest => { s with unreadNotificationsCount := count, profiles := rest }
  | .receive =>
    match s.pushed with
    | [] => s
    | count :: rest => { s with unreadNotificationsCount := count, pushed := rest }

/-- No pushed number overtakes an answer with the user's data. -/
def InOrder : BadgeEvent → Prop
  | .receive => s.profiles = []
  | _ => True

instance : ∀ event, Decidable (s.InOrder event)
  | .receive => inferInstanceAs (Decidable (s.profiles = []))
  | .notify .. | .index .. | .done _ | .conversationRead _ | .opened | .closed | .handleReading | .getNotifications _
  | .handleFirstPage | .answerProfile | .receiveProfile => inferInstanceAs (Decidable True)

structure UpToDate : Prop where
  pushed : ∀ count ∈ s.pushed.getLast?, s.connected = true → count = s.unreadCount me
  profile : ∀ count ∈ s.profiles.getLast?, s.connected = true → s.readings = 0 → s.pushed = [] → count = s.unreadCount me
  shown : s.connected = true → s.readings = 0 → s.firstPages = 0 → s.profiles = [] → s.pushed = [] →
    s.unreadNotificationsCount = s.unreadCount me

namespace UpToDate

variable {me : ℕ} {s : NotificationBadge}

theorem of_count (h : s.UpToDate me) {t : Notifications}
    (ht : Notification.unreadCount t me = Notification.unreadCount s.notifications me) :
    UpToDate me { s with notifications := t } where
  pushed := fun count hc hconnected => (h.pushed count hc hconnected).trans ht.symm
  profile := fun count hc hconnected hr hp => (h.profile count hc hconnected hr hp).trans ht.symm
  shown := fun hconnected hr hf hprofiles hp => (h.shown hconnected hr hf hprofiles hp).trans ht.symm

/-- A push makes up for everything before it. -/
theorem push_self (me : ℕ) (s : NotificationBadge) : (s.push me me).UpToDate me := by
  unfold push
  split_ifs with hc
  · refine ⟨?_, ?_, ?_⟩
    · intro count hcount _
      rw [List.getLast?_concat] at hcount
      exact (Option.mem_some_iff.mp hcount).symm
    · intro count _ _ _ hp
      exact absurd hp (List.append_ne_nil_of_right_ne_nil _ (List.cons_ne_nil _ _))
    · intro _ _ _ _ hp
      exact absurd hp (List.append_ne_nil_of_right_ne_nil _ (List.cons_ne_nil _ _))
  · have hoff : s.connected ≠ true := fun hconnected => hc ⟨rfl, hconnected⟩
    exact ⟨fun _ _ h => absurd h hoff, fun _ _ h => absurd h hoff, fun h => absurd h hoff⟩

theorem push (h : s.UpToDate me) {t : Notifications} {user : ℕ}
    (ht : user ≠ me → Notification.unreadCount t me = Notification.unreadCount s.notifications me) :
    UpToDate me (NotificationBadge.push me { s with notifications := t } user) := by
  rcases eq_or_ne user me with rfl | hne
  · exact push_self user _
  · rw [NotificationBadge.push, if_neg (fun hp => hne hp.1)]
    exact h.of_count (ht hne)

theorem index (h : s.UpToDate me) (user page : ℕ) : (s.index me user page).UpToDate me := by
  unfold NotificationBadge.index
  split_ifs
  · exact h.push (Notification.unreadCount_markAllRead s.notifications)
  · exact h

theorem receiveProfile (h : s.UpToDate me) : (s.step me .receiveProfile).UpToDate me := by
  simp only [step]
  cases hprofiles : s.profiles with
  | nil => exact h
  | cons first rest =>
    refine ⟨h.pushed, ?_, ?_⟩
    · intro count hcount
      apply h.profile count
      rw [hprofiles, List.getLast?_cons, Option.mem_def.mp hcount]
      rfl
    · intro hconnected hr _ hrest hp
      apply h.profile first _ hconnected hr hp
      rw [hprofiles, show rest = [] from hrest]
      rfl

theorem receive (h : s.UpToDate me) (hprofiles : s.profiles = []) : (s.step me .receive).UpToDate me := by
  simp only [step]
  cases hpushed : s.pushed with
  | nil => exact h
  | cons first rest =>
    refine ⟨?_, ?_, ?_⟩
    · intro count hcount
      apply h.pushed count
      rw [hpushed, List.getLast?_cons, Option.mem_def.mp hcount]
      rfl
    · intro count hcount
      rw [show s.profiles = [] from hprofiles] at hcount
      cases hcount
    · intro hconnected _ _ _ hrest
      apply h.pushed first _ hconnected
      rw [hpushed, show rest = [] from hrest]
      rfl

theorem step (h : s.UpToDate me) {event : BadgeEvent} (hq : s.InOrder event) : (s.step me event).UpToDate me := by
  cases event with
  | notify now call => exact h.push (Notification.unreadCount_notify now s.notifications)
  | index user page => exact h.index user page
  | done key => exact h.of_count (Notification.unreadCount_markDone s.notifications key me)
  | conversationRead user => exact h.push (fun _ => rfl)
  | opened =>
    have hasked : 1 ≠ 0 := Nat.one_ne_zero
    exact ⟨nofun, fun _ _ _ hr => absurd hr hasked, fun _ hr => absurd hr hasked⟩
  | closed =>
    have hoff : false ≠ true := Bool.false_ne_true
    exact ⟨nofun, fun _ _ hconnected => absurd hconnected hoff, fun hconnected => absurd hconnected hoff⟩
  | handleReading =>
    simp only [NotificationBadge.step]
    split_ifs
    · exact h
    · exact push_self me _
  | getNotifications page =>
    simp only [NotificationBadge.step]
    split_ifs
    · exact ⟨h.pushed, h.profile, fun _ _ hf => absurd hf (Nat.succ_ne_zero _)⟩
    · exact h
  | handleFirstPage =>
    simp only [NotificationBadge.step, NotificationBadge.index]
    split_ifs
    · exact h
    · exact push_self me _
  | answerProfile =>
    refine ⟨h.pushed, ?_, ?_⟩
    · intro count hcount _ _ _
      simp only [NotificationBadge.step, List.getLast?_concat] at hcount
      exact (Option.mem_some_iff.mp hcount).symm
    · intro _ _ _ hprofiles
      exact absurd hprofiles (List.append_ne_nil_of_right_ne_nil _ (List.cons_ne_nil _ _))
  | receiveProfile => exact h.receiveProfile
  | receive => exact h.receive hq

end UpToDate

/-- The browser is connected and nothing is under way. -/
structure Settled : Prop where
  connected : s.connected = true
  readings : s.readings = 0
  firstPages : s.firstPages = 0
  profiles : s.profiles = []
  pushed : s.pushed = []

end NotificationBadge

theorem badge_converges (me : ℕ) (t : Notifications) (shown : ℕ) (events : List BadgeEvent)
    (horder : Transition.Meets (NotificationBadge.step me) NotificationBadge.InOrder
      { notifications := t, unreadNotificationsCount := shown } events) :
    let s := Transition.run (NotificationBadge.step me) { notifications := t, unreadNotificationsCount := shown } events
    s.Settled → s.unreadNotificationsCount = s.unreadCount me := by
  intro s hs
  have hstart : NotificationBadge.UpToDate me { notifications := t, unreadNotificationsCount := shown } :=
    ⟨nofun, nofun, fun hconnected => absurd hconnected Bool.false_ne_true⟩
  have hi := Transition.invariant_of_meets (NotificationBadge.step me) (I := NotificationBadge.UpToDate me)
    (fun _ _ hq h => h.step hq) _ hstart events horder events.length
  rw [List.take_length] at hi
  exact hi.shown hs.connected hs.readings hs.firstPages hs.profiles hs.pushed

def carolFollowsAnn : BadgeEvent :=
  .notify 20 { user := 1, ntype := .newFollower, notable := .user 3, fromUser := 3 }

/-- Ann opens the list of notifications between two of them. -/
def annLooksInBetween : List BadgeEvent :=
  [.opened, .handleReading, .notify 10 { user := 1, ntype := .newFollower, notable := .user 2, fromUser := 2 },
    .getNotifications 1, .receive, .handleFirstPage, carolFollowsAnn, .receive, .receive, .receive]

theorem ann_looks_in_between :
    let s := Transition.run (NotificationBadge.step 1) { notifications := .empty, unreadNotificationsCount := 7 } annLooksInBetween
    s.unreadNotificationsCount = 1 ∧ s.unreadNotificationsCount = s.unreadCount 1 :=
  ⟨by decide +kernel, badge_converges 1 .empty 7 annLooksInBetween (by decide +kernel)
    ⟨by decide +kernel, by decide +kernel, by decide +kernel, by decide +kernel, by decide +kernel⟩⟩

/-- An answer to a change of the profile that a push has overtaken. -/
theorem overtaken_profile_hides_notification :
    let s := Transition.run (NotificationBadge.step 1) { notifications := .empty }
      [.opened, .handleReading, .receive, .answerProfile, carolFollowsAnn, .receive, .receiveProfile]
    s.Settled ∧ s.unreadNotificationsCount = 0 ∧ s.unreadCount 1 = 1 :=
  ⟨⟨by decide +kernel, by decide +kernel, by decide +kernel, by decide +kernel, by decide +kernel⟩, by decide +kernel,
    by decide +kernel⟩

end Blnkk
