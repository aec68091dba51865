import Blnkk.Lib.History
import Blnkk.Lib.Run
import Blnkk.MessageRows

/-!
The unread flag of a participant against the history of messages and readings.
-/

namespace Blnkk

open Relational ConversationsSocket

inductive InboxEvent where
  | start (now : ℕ)
  | join (now conversation user : ℕ)
  | message (now conversation : ℕ) (user : Option ℕ) (systemGenerated : Bool) (content : Option String)
  | read (now conversation user : ℕ)
  | email (conversation user : ℕ) (draft : Message.Draft)
  | notifyUnread (now : ℕ)
  deriving DecidableEq

namespace InboxEvent

def step (P : Platform) (db : Db) : InboxEvent → Db
  | start now => startConversation db now
  | join now conversation user =>
    if db.conversations.has conversation && db.users.has user then (addParticipant db now conversation user).getD db
    else db
  | message now conversation user systemGenerated content =>
    if db.conversations.has conversation then
      ((Message.create P db now conversation user systemGenerated content).map Prod.snd).getD db
    else db
  | read now conversation user => Conversation.markRead db now conversation user
  | email conversation user draft => (notifyByEmail db conversation user draft).1
  | notifyUnread now => (ConversationUser.notifyAboutUnreadMessages db now).1

def Addresses (P : Platform) (db : Db) (c p : ℕ) : InboxEvent → Prop
  | message now conversation user systemGenerated content =>
    conversation = c ∧ user ≠ some p ∧ db.conversations.has c = true ∧
      (Message.create P db now conversation user systemGenerated content).any (fun created => created.1.id.isSome) = true
  | _ => False

end InboxEvent

/-- A message to `p` was stored in `c` when `p` took part, and `p` has not read
the conversation since. -/
def Unseen (P : Platform) (db : Db) (events : List InboxEvent) (c p : ℕ) : Prop :=
  ∃ before event after, events = before ++ event :: after ∧
    event.Addresses P (Transition.run (InboxEvent.step P) db before) c p ∧
    (Transition.run (InboxEvent.step P) db before).conversationUsers.has (c, p) = true ∧
    ∀ now, .read now c p ∉ after

theorem unseen_concat (P : Platform) (db : Db) (events : List InboxEvent) (event : InboxEvent) (c p : ℕ) :
    Unseen P db (events ++ [event]) c p ↔
      (event.Addresses P (Transition.run (InboxEvent.step P) db events) c p ∧
        (Transition.run (InboxEvent.step P) db events).conversationUsers.has (c, p) = true) ∨
      ((∀ now, event ≠ .read now c p) ∧ Unseen P db events c p) := by
  constructor
  · rintro ⟨before, e, after, hl, ha, hh, hr⟩
    rcases History.concat_eq_split.mp hl with ⟨rfl, rfl, rfl⟩ | ⟨rest, rfl, rfl⟩
    · exact Or.inl ⟨ha, hh⟩
    · refine Or.inr ⟨fun now he => hr now ?_, before, e, rest, rfl, ha, hh, fun now hm => hr now ?_⟩
      · simp [he]
      · simp [hm]
  · rintro (⟨ha, hh⟩ | ⟨hn, before, e, after, rfl, ha, hh, hr⟩)
    · exact ⟨events, event, [], rfl, ha, hh, fun now => List.not_mem_nil⟩
    · refine ⟨before, e, after ++ [event], by simp, ha, hh, fun now hm => ?_⟩
      rcases List.mem_append.mp hm with hm | hm
      · exact hr now hm
      · exact hn now (List.mem_singleton.mp hm).symm

/-- The event makes the row of `p` unread, or it was unread and is not read now. -/
def InboxEvent.LeavesUnread (P : Platform) (db : Db) (event : InboxEvent) (c p : ℕ) : Prop :=
  (event.Addresses P db c p ∧ db.conversationUsers.has (c, p) = true) ∨
    ((∀ now, event ≠ .read now c p) ∧ ∃ cu, db.conversationUsers.get? (c, p) = some cu ∧ cu.unread = true)

theorem unread_of_map {event : InboxEvent} {P : Platform} {db : Db} {c p : ℕ} {f : ConversationUser → ConversationUser}
    (h : (event.step P db).conversationUsers.get? (c, p) = (db.conversationUsers.get? (c, p)).map f)
    (hf : ∀ cu, db.conversationUsers.get? (c, p) = some cu →
      ((f cu).unread = true ↔ event.Addresses P db c p ∨ (∀ now, event ≠ .read now c p) ∧ cu.unread = true))
    {cu' : ConversationUser} (hcu' : (event.step P db).conversationUsers.get? (c, p) = some cu') :
    cu'.unread = true ↔ event.LeavesUnread P db c p := by
  rw [h] at hcu'
  obtain ⟨cu, hcu, rfl⟩ := Option.map_eq_some_iff.mp hcu'
  rw [hf cu hcu, InboxEvent.LeavesUnread]
  simp only [Table.has, hcu, Option.isSome_some, and_true, Option.some.injEq, exists_eq_left']

theorem readAt_unread (now : ℕ) (cu : ConversationUser) : (Conversation.readAt now cu).unread = false := by
  unfold Conversation.readAt
  split_ifs with hu
  · rfl
  · exact Bool.eq_false_iff.mpr hu
  · exact Bool.eq_false_iff.mpr hu

theorem join_rows (db : Db) (now conversation user : ℕ) :
    ((addParticipant db now conversation user).getD db).conversationUsers =
      db.conversationUsers.ensure { conversationId := conversation, userId := user, lastReadAt := now } := by
  unfold addParticipant Table.ensure
  cases db.conversationUsers.insert { conversationId := conversation, userId := user, lastReadAt := now } <;> rfl

theorem create_message_rows (P : Platform) (db : Db) (now conversation : ℕ) (user : Option ℕ) (systemGenerated : Bool)
    (content : Option String) :
    (((Message.create P db now conversation user systemGenerated content).map Prod.snd).getD db).conversationUsers =
      if (Message.create P db now conversation user systemGenerated content).any (fun created => created.1.id.isSome) then
        db.conversationUsers.updateWhere
          (fun cu => decide (cu.conversationId = conversation) && decide (some cu.userId ≠ user))
          (Message.flagUnread user.isSome)
      else db.conversationUsers := by
  rcases Message.create_cases P db now conversation user systemGenerated content with ⟨-, h⟩ | ⟨-, h⟩
  · rw [h]
    rfl
  · rw [h]
    exact save_message_rows P db now conversation user systemGenerated content

theorem unread_kept {P : Platform} {db : Db} {event : InboxEvent} {c p : ℕ}
    (h : (event.step P db).conversationUsers = db.conversationUsers) (ha : ¬ event.Addresses P db c p)
    (hr : ∀ now, event ≠ .read now c p) {cu' : ConversationUser}
    (hcu' : (event.step P db).conversationUsers.get? (c, p) = some cu') :
    cu'.unread = true ↔ event.LeavesUnread P db c p := by
  apply unread_of_map (f := id) (by rw [h, Option.map_id_fun, id]) _ hcu'
  intro cu _
  simp only [id, ha, false_or]
  exact (and_iff_right hr).symm

theorem unread_join (P : Platform) (db : Db) (now conversation user c p : ℕ) {cu' : ConversationUser}
    (h : (InboxEvent.step P db (.join now conversation user)).conversationUsers.get? (c, p) = some cu') :
    cu'.unread = true ↔ (InboxEvent.join now conversation user).LeavesUnread P db c p := by
  by_cases hg : (db.conversations.has conversation && db.users.has user) = true
  · have hrows : (InboxEvent.step P db (.join now conversation user)).conversationUsers =
        db.conversationUsers.ensure { conversationId := conversation, userId := user, lastReadAt := now } := by
      simp only [InboxEvent.step, if_pos hg, join_rows]
    cases hcu : db.conversationUsers.get? (c, p) with
    | some cu =>
      have hkept : (InboxEvent.step P db (.join now conversation user)).conversationUsers.get? (c, p) = some cu := by
        rw [hrows, Table.get?_ensure, hcu]
        split_ifs <;> rfl
      rw [hkept] at h
      cases h
      simp [InboxEvent.LeavesUnread, InboxEvent.Addresses, hcu]
    | none =>
      rw [hrows, Table.get?_ensure, hcu] at h
      split_ifs at h
      cases h
      simp [InboxEvent.LeavesUnread, InboxEvent.Addresses, hcu]
  · exact unread_kept (by simp only [InboxEvent.step, if_neg hg]) id (by simp) h

theorem unread_message (P : Platform) (db : Db) (now conversation : ℕ) (user : Option ℕ) (systemGenerated : Bool)
    (content : Option String) (c p : ℕ) {cu' : ConversationUser}
    (h : (InboxEvent.step P db (.message now conversation user systemGenerated content)).conversationUsers.get? (c, p) =
      some cu') :
    cu'.unread = true ↔ (InboxEvent.message now conversation user systemGenerated content).LeavesUnread P db c p := by
  by_cases hs : db.conversations.has conversation = true ∧
      (Message.create P db now conversation user systemGenerated content).any (fun created => created.1.id.isSome) = true
  · have hrows : (InboxEvent.step P db (.message now conversation user systemGenerated content)).conversationUsers =
        db.conversationUsers.updateWhere
          (fun cu => decide (cu.conversationId = conversation) && decide (some cu.userId ≠ user))
          (Message.flagUnread user.isSome) := by
      simp only [InboxEvent.step, if_pos hs.1, create_message_rows, if_pos hs.2]
    refine unread_of_map ((congrArg (fun t => Table.get? t (c, p)) hrows).trans (Table.get?_updateWhere ..))
      (fun cu hcu => ?_) h
    have hkey := Table.get?_key hcu
    simp only [ConversationUser.index, Prod.mk.injEq] at hkey
    obtain ⟨rfl, rfl⟩ := hkey
    by_cases ha : cu.conversationId = conversation ∧ some cu.userId ≠ user
    · obtain ⟨rfl, hne⟩ := ha
      simp [InboxEvent.Addresses, Message.flagUnread, hs.1, hs.2, hne, Ne.symm hne]
    · have hn : ¬ (conversation = cu.conversationId ∧ user ≠ some cu.userId) := fun hn => ha ⟨hn.1.symm, hn.2.symm⟩
      have hp : (decide (cu.conversationId = conversation) && decide (some cu.userId ≠ user)) = false := by
        simpa using ha
      simp only [hp, Bool.false_eq_true, if_false, InboxEvent.Addresses]
      simp [← and_assoc, hn]
  · have hrows : (InboxEvent.step P db (.message now conversation user systemGenerated content)).conversationUsers =
        db.conversationUsers := by
      simp only [InboxEvent.step]
      split_ifs with hc
      · rw [create_message_rows, if_neg (fun hd => hs ⟨hc, hd⟩)]
      · rfl
    refine unread_kept hrows ?_ (by simp) h
    rintro ⟨rfl, -, hc, hd⟩
    exact hs ⟨hc, hd⟩

theorem unread_step (P : Platform) (db : Db) (event : InboxEvent) (c p : ℕ) {cu' : ConversationUser}
    (h : (event.step P db).conversationUsers.get? (c, p) = some cu') :
    cu'.unread = true ↔ event.LeavesUnread P db c p := by
  cases event with
  | start now => exact unread_kept rfl id (by simp) h
  | join now conversation user => exact unread_join P db now conversation user c p h
  | message now conversation user systemGenerated content =>
    exact unread_message P db now conversation user systemGenerated content c p h
  | read now conversation user =>
    have hrows : (InboxEvent.step P db (.read now conversation user)).conversationUsers =
        db.conversationUsers.update (conversation, user) (Conversation.readAt now) (Conversation.readAt_index now) := rfl
    refine unread_of_map ((congrArg (fun t => Table.get? t (c, p)) hrows).trans (Table.get?_updateWhere ..))
      (fun cu hcu => ?_) h
    simp only [Table.get?_key hcu, decide_eq_true_eq, InboxEvent.Addresses, false_or]
    by_cases hr : (c, p) = (conversation, user)
    · obtain ⟨rfl, rfl⟩ := Prod.mk.inj hr
      rw [if_pos rfl, readAt_unread]
      exact iff_of_false Bool.false_ne_true (fun hn => hn.1 now rfl)
    · rw [if_neg hr]
      refine (and_iff_right (fun now' he => hr ?_)).symm
      cases he
      rfl
  | email conversation user draft =>
    have hrows : (InboxEvent.step P db (.email conversation user draft)).conversationUsers =
        db.conversationUsers.update (conversation, user) (fun cu => { cu with notified := true }) :=
      notifyByEmail_rows db conversation user draft
    refine unread_of_map ((congrArg (fun t => Table.get? t (c, p)) hrows).trans (Table.get?_updateWhere ..))
      (fun cu hcu => ?_) h
    simp only [InboxEvent.Addresses, false_or, ne_eq, reduceCtorEq, not_false_eq_true, implies_true, true_and]
    split_ifs <;> rfl
  | notifyUnread now =>
    have hrows : (InboxEvent.step P db (.notifyUnread now)).conversationUsers =
        db.conversationUsers.updateWhere (fun cu => cu.overdue now && (cu.unreadMessage db).isSome)
          (fun cu => { cu with notified := true }) := rfl
    refine unread_of_map ((congrArg (fun t => Table.get? t (c, p)) hrows).trans (Table.get?_updateWhere ..))
      (fun cu hcu => ?_) h
    simp only [InboxEvent.Addresses, false_or, ne_eq, reduceCtorEq, not_false_eq_true, implies_true, true_and]
    split_ifs <;> rfl

theorem inbox_persists (P : Platform) (db : Db) (event : InboxEvent) :
    Table.Persists (fun _ _ => True) db.conversationUsers (event.step P db).conversationUsers := by
  have hmap : ∀ p f hf, Table.Persists (fun _ _ => True) db.conversationUsers (db.conversationUsers.updateWhere p f hf) :=
    fun p f hf => .updateWhere (fun _ => trivial) _ p f hf (fun _ _ => trivial)
  have hrefl := Table.Persists.refl (R := fun _ _ => True) (fun _ => trivial) db.conversationUsers
  cases event with
  | start now => exact hrefl
  | join now conversation user =>
    simp only [InboxEvent.step]
    split_ifs
    · rw [join_rows]
      exact .ensure (fun _ => trivial) _ _
    · exact hrefl
  | message now conversation user systemGenerated content =>
    simp only [InboxEvent.step]
    split_ifs
    · rw [create_message_rows]
      split_ifs
      · exact hmap _ _ _
      · exact hrefl
    · exact hrefl
  | read now conversation user => exact hmap _ _ (Conversation.readAt_index now)
  | email conversation user draft =>
    simp only [InboxEvent.step, notifyByEmail_rows]
    exact hmap _ _ _
  | notifyUnread now => exact hmap _ (fun cu => { cu with notified := true }) (fun _ => rfl)

theorem unseen_has (P : Platform) (db : Db) (events : List InboxEvent) (c p : ℕ) (h : Unseen P db events c p) :
    (Transition.run (InboxEvent.step P) db events).conversationUsers.has (c, p) = true := by
  induction events using List.reverseRecOn with
  | nil =>
    obtain ⟨before, e, after, hl, -⟩ := h
    simp at hl
  | append_singleton events event ih =>
    rw [Transition.run_concat]
    rcases (unseen_concat P db events event c p).mp h with ⟨-, hh⟩ | ⟨-, h⟩
    · exact (inbox_persists P _ event).has hh
    · exact (inbox_persists P _ event).has (ih h)

theorem unread_iff_unseen (P : Platform) (db : Db) (hdb : ∀ cu ∈ db.conversationUsers.rows, cu.unread = false)
    (events : List InboxEvent) (cu : ConversationUser)
    (hcu : cu ∈ (Transition.run (InboxEvent.step P) db events).conversationUsers.rows) :
    cu.unread = true ↔ Unseen P db events cu.conversationId cu.userId := by
  have hget := Table.get?_of_mem hcu
  clear hcu
  induction events using List.reverseRecOn generalizing cu with
  | nil =>
    rw [hdb cu (Table.get?_mem hget)]
    refine iff_of_false Bool.false_ne_true ?_
    rintro ⟨before, event, after, hl, -⟩
    simp at hl
  | append_singleton events event ih =>
    rw [Transition.run_concat] at hget
    rw [unread_step P _ event _ _ hget, unseen_concat]
    apply or_congr_right
    apply and_congr_right
    intro _
    constructor
    · rintro ⟨old, hold, hunread⟩
      have hkey := Table.get?_key hold
      obtain ⟨hc, hp⟩ := Prod.mk.inj hkey
      rw [← hc, ← hp]
      exact (ih old (by rw [hkey, hold])).mp hunread
    · intro hunseen
      obtain ⟨old, hold⟩ := Option.isSome_iff_exists.mp (unseen_has P db events _ _ hunseen)
      have hkey := Table.get?_key hold
      obtain ⟨hc, hp⟩ := Prod.mk.inj hkey
      exact ⟨old, hold, (ih old (by rw [hkey, hold])).mpr (by rw [hc, hp]; exact hunseen)⟩

def annAndBob : Db :=
  { Db.new {} with
    users := (Table.empty.insertFresh (fun id => { id, email := "ann@blnkk.com", name := "ann" })).insertFresh
      (fun id => { id, email := "bob@blnkk.com", name := "bob" }) }

def bobReadsOnce : List InboxEvent :=
  [.start 10, .join 10 1 1, .join 10 1 2, .message 20 1 (some 1) false (some "hello"), .read 30 1 2,
    .message 40 1 none true (some "welcome"), .notifyUnread 90, .message 95 1 (some 2) false (some "thanks")]

theorem bob_has_unread :
    ⟨1, 2, true, 30, false⟩ ∈ (Transition.run (InboxEvent.step .plain) annAndBob bobReadsOnce).conversationUsers.rows ∧
      Unseen .plain annAndBob bobReadsOnce 1 2 := by
  have hm : ⟨1, 2, true, 30, false⟩ ∈
      (Transition.run (InboxEvent.step .plain) annAndBob bobReadsOnce).conversationUsers.rows := by decide +kernel
  exact ⟨hm, (unread_iff_unseen .plain annAndBob (by decide) bobReadsOnce _ hm).mp rfl⟩

end Blnkk
