import Blnkk.Lib.History
import Blnkk.MessageRows
import Blnkk.MessageTarget

/-!
The e-mails about unread messages. Two senders share the `notified` flag: the
socket handler, for a participant who is offline, and the half-hourly task.
-/

namespace Blnkk

open Relational ConversationsSocket

inductive Occurrence where
  | reminder (user conversation : ℕ)
  | reading (user conversation : ℕ)
  deriving DecidableEq

def ConversationsSocket.Event.reminder? : Event → Option Occurrence
  | .conversationReply receiver conversation _ => some (.reminder receiver conversation)
  | _ => none

inductive ReminderEvent where
  | post (now : ℕ) (online : List ℕ) (me : ℕ) (payload : Payload)
  | read (now conversation user : ℕ)
  | notifyUnread (now : ℕ)
  deriving DecidableEq

namespace ReminderEvent

def step (P : Platform) (db : Db) : ReminderEvent → Db
  | post now online me payload => (postMessage P db now online me payload).1
  | read now conversation user => Conversation.markRead db now conversation user
  | notifyUnread now => (ConversationUser.notifyAboutUnreadMessages db now).1

def occurrences (P : Platform) (db : Db) : ReminderEvent → List Occurrence
  | post now online me payload => (postMessage P db now online me payload).2.filterMap Event.reminder?
  | read _ conversation user => [.reading user conversation]
  | notifyUnread now =>
    (ConversationUser.notifyAboutUnreadMessages db now).2.map (fun sent => .reminder sent.1.userId sent.1.conversationId)

def history (P : Platform) (db : Db) (events : List ReminderEvent) : List Occurrence :=
  Transition.observe (step P) (fun h db event => h ++ event.occurrences P db) [] db events

end ReminderEvent

def OneReminder (h : List Occurrence) : Prop := ∀ p c, History.Separated (.reminder p c) (.reading p c) h

/-- The flags that stand for a reminder not followed by a reading. -/
def Flagged (db : Db) (c p : ℕ) : Prop :=
  ∃ cu, db.conversationUsers.get? (c, p) = some cu ∧ cu.unread = true ∧ cu.notified = true

structure Reminded (h : List Occurrence) (db : Db) : Prop where
  separated : OneReminder h
  pending : ∀ p c, History.Pending (.reminder p c) (.reading p c) h → Flagged db c p

theorem KeepsRows.flagged {db db' : Db} (hk : KeepsRows db db') {c p : ℕ} (h : Flagged db c p) : Flagged db' c p := by
  obtain ⟨cu, hcu, hu, hn⟩ := h
  obtain ⟨cu', hcu', hkeeps⟩ := hk _ _ hcu
  obtain ⟨hu', hn'⟩ := hkeeps.2 hu
  exact ⟨cu', hcu', hu', hn' hn⟩

theorem Reminded.send {h : List Occurrence} {db db' : Db} (hr : Reminded h db) (hk : KeepsRows db db')
    {sent : List Occurrence} (hn : sent.Nodup) (hs : ∀ o ∈ sent, ∃ p c, o = .reminder p c ∧ ¬ Flagged db c p ∧ Flagged db' c p) :
    Reminded (h ++ sent) db' := by
  have hno : ∀ p c, Occurrence.reading p c ∉ sent := by
    intro p c hm
    obtain ⟨q, d, he, -⟩ := hs _ hm
    cases he
  refine ⟨fun p c => (hr.separated p c).append (hno p c) hn (fun hm hp => ?_), fun p c hp => ?_⟩
  · obtain ⟨q, d, he, hold, -⟩ := hs _ hm
    cases he
    exact hold (hr.pending p c hp)
  · rcases (History.pending_append (hno p c)).mp hp with hp | hm
    · exact hk.flagged (hr.pending p c hp)
    · obtain ⟨q, d, he, -, hnew⟩ := hs _ hm
      cases he
      exact hnew

theorem Reminded.read {h : List Occurrence} {db : Db} (hr : Reminded h db) (now conversation user : ℕ) :
    Reminded (h ++ [.reading user conversation]) (Conversation.markRead db now conversation user) := by
  refine ⟨fun p c => (hr.separated p c).concat (by simp), fun p c hp => ?_⟩
  obtain ⟨hne, hp⟩ := (History.pending_concat.mp hp).resolve_left (by simp)
  obtain ⟨cu, hcu, hu, hn⟩ := hr.pending p c hp
  refine ⟨cu, ?_, hu, hn⟩
  have hother : (c, p) ≠ (conversation, user) := by
    rintro he
    cases he
    exact hne rfl
  rw [markRead_row, if_neg hother, hcu]

theorem notifyUnread_keeps (db : Db) (now : ℕ) : KeepsRows db (ConversationUser.notifyAboutUnreadMessages db now).1 :=
  Table.Persists.updateWhere ConversationUser.Keeps.refl _ _ (fun cu => { cu with notified := true }) (fun _ => rfl)
    (fun cu _ => ConversationUser.Keeps.notified cu)

theorem mem_notifyUnread_iff {db : Db} {now : ℕ} {cu : ConversationUser} {m : Message} :
    (cu, m) ∈ (ConversationUser.notifyAboutUnreadMessages db now).2 ↔
      cu ∈ db.conversationUsers.rows ∧ cu.overdue now = true ∧ cu.unreadMessage db = some m := by
  simp only [ConversationUser.notifyAboutUnreadMessages, List.mem_filterMap, List.mem_filter, Option.map_eq_some_iff]
  constructor
  · rintro ⟨cu', ⟨hrow, hdue⟩, m', hm', he⟩
    cases he
    exact ⟨hrow, hdue, hm'⟩
  · rintro ⟨hrow, hdue, hm⟩
    exact ⟨cu, ⟨hrow, hdue⟩, m, hm, rfl⟩

theorem mem_notifyUnread {db : Db} {now : ℕ} {sent : ConversationUser × Message}
    (h : sent ∈ (ConversationUser.notifyAboutUnreadMessages db now).2) :
    sent.1 ∈ db.conversationUsers.rows ∧ sent.1.overdue now = true ∧ (sent.1.unreadMessage db).isSome = true := by
  obtain ⟨hrow, hdue, hm⟩ := mem_notifyUnread_iff.mp h
  exact ⟨hrow, hdue, Option.isSome_iff_exists.mpr ⟨sent.2, hm⟩⟩

theorem notifyUnread_nodup (P : Platform) (db : Db) (now : ℕ) : (ReminderEvent.occurrences P db (.notifyUnread now)).Nodup := by
  have hf : (ConversationUser.notifyAboutUnreadMessages db now).2.map Prod.fst =
      (db.conversationUsers.rows.filter (ConversationUser.overdue now)).filter (fun cu => (cu.unreadMessage db).isSome) := by
    rw [← List.filterMap_eq_filter (p := fun cu => (ConversationUser.unreadMessage db cu).isSome)]
    simp only [ConversationUser.notifyAboutUnreadMessages, List.map_filterMap]
    apply List.filterMap_congr
    intro cu _
    cases h : cu.unreadMessage db <;> simp [Option.guard, h]
  have hsub : ((ConversationUser.notifyAboutUnreadMessages db now).2.map Prod.fst).Sublist db.conversationUsers.rows := by
    rw [hf]
    exact List.filter_sublist.trans List.filter_sublist
  have hinj : Function.Injective (fun k : ℕ × ℕ => Occurrence.reminder k.2 k.1) := by
    rintro ⟨c, p⟩ ⟨d, q⟩ he
    cases he
    rfl
  have hk := ((hsub.map ConversationUser.index).nodup db.conversationUsers.unique).map hinj
  simpa only [ReminderEvent.occurrences, List.map_map, Function.comp_def] using hk

theorem Reminded.notifyUnread {h : List Occurrence} {db : Db} (hr : Reminded h db) (P : Platform) (now : ℕ) :
    Reminded (h ++ ReminderEvent.occurrences P db (.notifyUnread now))
      (ConversationUser.notifyAboutUnreadMessages db now).1 := by
  refine hr.send (notifyUnread_keeps db now) (notifyUnread_nodup P db now) (fun o ho => ?_)
  obtain ⟨⟨cu, m⟩, hsent, rfl⟩ := List.mem_map.mp ho
  obtain ⟨hrow, hdue, hsome⟩ := mem_notifyUnread hsent
  have hget := Table.get?_of_mem hrow
  obtain ⟨⟨hunread, hnotified⟩, -⟩ : (cu.unread = true ∧ cu.notified = false) ∧ cu.lastReadAt + 3600 < now := by
    simpa [ConversationUser.overdue] using hdue
  refine ⟨cu.userId, cu.conversationId, rfl, ?_, { cu with notified := true }, ?_, hunread, rfl⟩
  · rintro ⟨cu', hcu', -, hn⟩
    rw [hget] at hcu'
    cases hcu'
    rw [hnotified] at hn
    cases hn
  · have hrows : (ConversationUser.notifyAboutUnreadMessages db now).1.conversationUsers =
        db.conversationUsers.updateWhere (fun cu => cu.overdue now && (cu.unreadMessage db).isSome)
          (fun cu => { cu with notified := true }) := rfl
    refine (congrArg (fun t => Table.get? t cu.index) hrows).trans ((Table.get?_updateWhere ..).trans ?_)
    rw [hget, Option.map_some, hdue, hsome, Bool.and_self, if_pos rfl]

namespace ConversationsSocket

def mailed (db : Db) (online : List ℕ) (me conversation user : ℕ) : Bool :=
  decide (me ≠ user ∧ user ∉ online) &&
    decide ((db.conversationUsers.get? (conversation, user)).map ConversationUser.notified = some false)

theorem notifyByEmail_reminders (db : Db) (conversation user : ℕ) (draft : Message.Draft) :
    (notifyByEmail db conversation user draft).2.filterMap Event.reminder? =
      if (db.conversationUsers.get? (conversation, user)).map ConversationUser.notified = some false then
        [.reminder user conversation]
      else [] := by
  unfold notifyByEmail
  cases db.conversationUsers.get? (conversation, user) with
  | none => rfl
  | some cu => cases hn : cu.notified <;> simp [hn, Event.reminder?]

theorem mailed_notifyByEmail (db : Db) (online : List ℕ) (me conversation user : ℕ) (draft : Message.Draft) {other : ℕ}
    (hne : other ≠ user) :
    mailed (notifyByEmail db conversation user draft).1 online me conversation other =
      mailed db online me conversation other := by
  have hk : (conversation, other) ≠ (conversation, user) := by simpa using hne
  rw [mailed, mailed, notifyByEmail_rows, Table.get?_update, if_neg hk]

theorem deliver_reminders (online : List ℕ) (me conversation : ℕ) (isNew : Bool) (systemMessage : Option Message.Draft)
    (draft : Message.Draft) (users : List ℕ) (hn : users.Nodup) (db : Db) (events : List Event) :
    (deliver online me conversation isNew systemMessage draft users (db, events)).2.filterMap Event.reminder? =
      events.filterMap Event.reminder? ++
        (users.filter (mailed db online me conversation)).map (fun user => .reminder user conversation) := by
  induction users generalizing db events with
  | nil => simp [deliver]
  | cons user rest ih =>
    obtain ⟨hu, hn⟩ := List.nodup_cons.mp hn
    simp only [deliver]
    rw [ih hn]
    by_cases hp : me = user ∨ user ∈ online
    · have hm : mailed db online me conversation user = false := by
        rcases hp with rfl | hp
        · simp [mailed]
        · simp [mailed, hp]
      rw [List.filter_cons_of_neg (by rw [hm]; exact Bool.false_ne_true), if_pos hp]
      cases isNew <;> cases systemMessage <;> simp [Event.reminder?]
    · have hm : mailed db online me conversation user =
          decide ((db.conversationUsers.get? (conversation, user)).map ConversationUser.notified = some false) := by
        simp [mailed, not_or.mp hp]
      have hrest : rest.filter (mailed (notifyByEmail db conversation user draft).1 online me conversation) =
          rest.filter (mailed db online me conversation) := by
        apply List.filter_congr
        intro other ho
        exact mailed_notifyByEmail db online me conversation user draft (fun he => hu (he ▸ ho))
      rw [if_neg hp, hrest, List.filterMap_append, notifyByEmail_reminders, List.filter_cons, hm]
      split_ifs with h h'
      · simp
      · exact absurd (decide_eq_true h) h'
      · rename_i h'
        exact absurd (of_decide_eq_true h') h
      · simp

theorem notifyByEmail_flags {db : Db} {conversation user : ℕ} (draft : Message.Draft) {cu : ConversationUser}
    (hcu : db.conversationUsers.get? (conversation, user) = some cu) (hu : cu.unread = true) :
    Flagged (notifyByEmail db conversation user draft).1 conversation user := by
  refine ⟨{ cu with notified := true }, ?_, hu, rfl⟩
  rw [notifyByEmail_rows, Table.get?_update, if_pos rfl, hcu, Option.map_some]

theorem deliver_flags (online : List ℕ) (me conversation : ℕ) (isNew : Bool) (systemMessage : Option Message.Draft)
    (draft : Message.Draft) (users : List ℕ) (db : Db) (events : List Event) {user : ℕ} (hm : user ∈ users)
    (hp : ¬ (me = user ∨ user ∈ online)) {cu : ConversationUser}
    (hcu : db.conversationUsers.get? (conversation, user) = some cu) (hu : cu.unread = true) :
    Flagged (deliver online me conversation isNew systemMessage draft users (db, events)).1 conversation user := by
  induction users generalizing db events cu with
  | nil => cases hm
  | cons first rest ih =>
    simp only [deliver]
    rcases List.mem_cons.mp hm with rfl | hm
    · rw [if_neg hp]
      exact (deliver_keeps _ _ _ _ _ _ _ _ _).flagged (notifyByEmail_flags draft hcu hu)
    · split_ifs
      · exact ih _ _ hm hcu hu
      · exact ih _ _ hm hcu hu
      · obtain ⟨cu', hcu', hkeeps⟩ := notifyByEmail_keeps db conversation first draft _ _ hcu
        exact ih _ _ hm hcu' (hkeeps.2 hu).1

/-- The existing conversation that the handler attaches the message to. -/
def Payload.conversation? (db : Db) (me : ℕ) (payload : Payload) : Option ℕ :=
  match payload.message.bind MessagePart.conversationId with
  | some id => some id
  | none => (payload.target db).bind (fun t => (sharedConversation db t me).map Conversation.id)

def Payload.Announces (P : Platform) (db : Db) (payload : Payload) : Prop :=
  payload.message.bind MessagePart.conversationId = none ∧ ∃ requestId request, payload.requestId = some requestId ∧
    db.requests.get? requestId = some request ∧ Text.present (P.sanitizeField (systemContent request)) = true

/-- An empty message is not stored, so nothing becomes unread, and yet it is
announced by e-mail to a participant who is offline. -/
def Payload.Alarms (P : Platform) (db : Db) (online : List ℕ) (me : ℕ) (payload : Payload) : Prop :=
  ∃ part p, payload.message = some part ∧ Blank P part.text ∧ ¬ payload.Announces P db ∧
    ¬ (me = p ∨ p ∈ online) ∧
    ((∃ c cu, payload.conversation? db me = some c ∧ db.conversationUsers.get? (c, p) = some cu ∧
        cu.unread = false ∧ cu.notified = false) ∨
      (payload.conversation? db me = none ∧ payload.target db = some p))

theorem save_message_read {P : Platform} {db : Db} {now conversation me p : ℕ} {systemGenerated : Bool}
    {content : Option String} (hp : p ≠ me) {cu : ConversationUser}
    (hcu : (Message.save P db now conversation (some me) systemGenerated content).2.conversationUsers.get?
      (conversation, p) = some cu) (hu : cu.unread = false) :
    Blank P content ∧ db.conversationUsers.get? (conversation, p) = some cu := by
  rw [save_message_rows] at hcu
  cases hid : (Message.save P db now conversation (some me) systemGenerated content).1.id.isSome with
  | false =>
    rw [hid, if_neg Bool.false_ne_true] at hcu
    exact ⟨save_message_id hid, hcu⟩
  | true =>
    rw [hid, if_pos rfl] at hcu
    obtain ⟨old, hold, rfl⟩ := Option.map_eq_some_iff.mp ((Table.get?_updateWhere ..).symm.trans hcu)
    have hkey := Table.get?_key hold
    simp only [ConversationUser.index, Prod.mk.injEq] at hkey
    obtain ⟨rfl, rfl⟩ := hkey
    simp [Message.flagUnread, hp] at hu

theorem findOrCreate_row {db db' : Db} (hc : Consistent db) {now me t c p : ℕ} {isNew : Bool} (hp : p ≠ me)
    (hf : findOrCreate db now me t = .ok (c, isNew, db')) {cu : ConversationUser}
    (hcu : db'.conversationUsers.get? (c, p) = some cu) :
    ((sharedConversation db t me).map Conversation.id = some c ∧ db.conversationUsers.get? (c, p) = some cu) ∨
      ((sharedConversation db t me).map Conversation.id = none ∧ p = t) := by
  rcases findOrCreate_ok hf with ⟨shared, hs, rfl, rfl⟩ | ⟨hn, hk⟩
  · exact Or.inl ⟨by rw [hs, Option.map_some], hcu⟩
  · refine Or.inr ⟨by rw [hn, Option.map_none], ?_⟩
    obtain ⟨rfl, u, rfl, hu⟩ := createConversation_ok hk
    obtain ⟨hm, hkey⟩ := (Table.get?_some_iff _ _ _).mp hcu
    obtain ⟨hid, rfl⟩ := Prod.mk.inj hkey
    rw [hu, List.mem_append] at hm
    rcases hm with hm | hm
    · have habs := participants_absent hc db.conversations.has_fresh
      have hpart : cu.userId ∈ db.participants db.conversations.fresh :=
        (mem_participants db _ _).mpr (by rw [← hid]; exact Table.has_of_mem hm)
      rw [habs] at hpart
      cases hpart
    · rcases List.mem_cons.mp hm with rfl | hm
      · exact absurd rfl hp
      · rw [List.mem_singleton.mp hm]

theorem lookup_row {P : Platform} {db final : Db} (hc : Consistent db) {now me c p : ℕ} {payload : Payload} {isNew : Bool}
    {systemMessage : Option Message.Draft} (hl : lookup P db now me payload = .found final (some c) isNew systemMessage)
    (hp : p ≠ me) {cu : ConversationUser} (hcu : final.conversationUsers.get? (c, p) = some cu)
    (hu : cu.unread = false) :
    ¬ payload.Announces P db ∧
      ((payload.conversation? db me = some c ∧ db.conversationUsers.get? (c, p) = some cu) ∨
        (payload.conversation? db me = none ∧ payload.target db = some p)) := by
  cases lookup_found hl with
  | conversation hid hconv hf =>
    rw [hf] at hcu
    refine ⟨fun ha => ?_, Or.inl ⟨?_, hcu⟩⟩
    · rw [ha.1] at hid
      cases hid
    · simp only [Payload.conversation?, hid]
  | request hid requestId request isNew' db' hq hr hcreate hf =>
    rw [hf, joinRequest_rows] at hcu
    obtain ⟨hblank, hrow⟩ := save_message_read hp hcu hu
    have ht : payload.target db = some request.userId := by simp only [Payload.target, hq, hr, Option.map_some]
    refine ⟨?_, ?_⟩
    · rintro ⟨-, requestId', request', hq', hr', hpresent⟩
      cases hq.symm.trans hq'
      cases hr.symm.trans hr'
      rw [hblank _ rfl] at hpresent
      cases hpresent
    · simp only [Payload.conversation?, hid, ht, Option.bind_some]
      rcases findOrCreate_row hc hp hcreate hrow with ⟨hs, hrow⟩ | ⟨hs, rfl⟩
      · exact Or.inl ⟨hs, hrow⟩
      · exact Or.inr ⟨hs, rfl⟩
  | user hid t isNew' hq ht hcreate =>
    have ht' : payload.target db = some t := by simp only [Payload.target, hq, ht]
    refine ⟨?_, ?_⟩
    · rintro ⟨-, requestId, -, hq', -⟩
      cases hq.symm.trans hq'
    · simp only [Payload.conversation?, hid, ht', Option.bind_some]
      rcases findOrCreate_row hc hp hcreate hcu with ⟨hs, hrow⟩ | ⟨hs, rfl⟩
      · exact Or.inl ⟨hs, hrow⟩
      · exact Or.inr ⟨hs, rfl⟩

end ConversationsSocket

theorem Flagged.notified {db : Db} {c p : ℕ} (h : Flagged db c p) {cu : ConversationUser}
    (hcu : db.conversationUsers.get? (c, p) = some cu) : cu.notified = true := by
  obtain ⟨cu', hcu', -, hn⟩ := h
  cases hcu.symm.trans hcu'
  exact hn

theorem Reminded.post {h : List Occurrence} {db : Db} (hr : Reminded h db) (hc : Consistent db) (P : Platform) (now : ℕ)
    (online : List ℕ) (me : ℕ) (payload : Payload) (ha : ¬ payload.Alarms P db online me) :
    Reminded (h ++ ReminderEvent.occurrences P db (.post now online me payload))
      (postMessage P db now online me payload).1 := by
  have hkeeps := postMessage_keeps P db now online me payload
  rcases postMessage_cases P db now online me payload with
    ⟨left, answer, he, -, hanswer⟩ | ⟨final, c, isNew, systemMessage, part, created, hm, hl, -, hpart, hcreated, he⟩
  · have hnone : ReminderEvent.occurrences P db (.post now online me payload) = [] := by
      simp only [ReminderEvent.occurrences, he]
      rcases hanswer with rfl | ⟨status, rfl⟩ <;> rfl
    rw [hnone]
    exact hr.send hkeeps List.nodup_nil (fun o ho => by cases ho)
  · have hsent : ReminderEvent.occurrences P db (.post now online me payload) =
        ((created.2.participants c).filter (mailed created.2 online me c)).map (fun user => .reminder user c) := by
      simp only [ReminderEvent.occurrences, he, List.filterMap_append]
      rw [deliver_reminders _ _ _ _ _ _ _ (participants_nodup created.2 c)]
      simp [Event.reminder?]
    have hfinal : KeepsRows db created.2 := by
      have hlk := (postSteps_keeps P).lookup db now me payload hm
      rw [hl] at hlk
      rw [← hcreated]
      exact hlk.trans (save_message_keeps P final now c (some me) false part.text)
    rw [hsent]
    refine hr.send hkeeps (((participants_nodup created.2 c).filter _).map (fun a b hab => by cases hab; rfl)) ?_
    intro o ho
    obtain ⟨user, huser, rfl⟩ := List.mem_map.mp ho
    obtain ⟨hmem, hmailed⟩ := List.mem_filter.mp huser
    simp only [mailed, Bool.and_eq_true, decide_eq_true_eq] at hmailed
    obtain ⟨⟨hne, hoff⟩, hrow⟩ := hmailed
    obtain ⟨cu, hcu, hnotified⟩ := Option.map_eq_some_iff.mp hrow
    refine ⟨user, c, rfl, fun hflag => ?_, ?_⟩
    · rw [(hfinal.flagged hflag).notified hcu] at hnotified
      cases hnotified
    · rw [he]
      refine deliver_flags online me c isNew systemMessage created.1 _ created.2 [] hmem (not_or.mpr ⟨hne, hoff⟩) hcu ?_
      by_contra hunread
      rw [Bool.not_eq_true] at hunread
      rw [← hcreated] at hcu
      obtain ⟨hblank, hold⟩ := save_message_read hne.symm hcu hunread
      obtain ⟨hann, hwhere⟩ := lookup_row hc hl hne.symm hold hunread
      refine ha ⟨part, user, hpart, hblank, hann, not_or.mpr ⟨hne, hoff⟩, hwhere.imp_left ?_⟩
      rintro ⟨hconv, hget⟩
      exact ⟨c, cu, hconv, hget, hunread, hnotified⟩

def ReminderEvent.Alarms (P : Platform) (db : Db) : ReminderEvent → Prop
  | post _ online me payload => payload.Alarms P db online me
  | _ => False

theorem reminderEvent_changes (P : Platform) (db : Db) (event : ReminderEvent) : Changes db (event.step P db) := by
  cases event with
  | post now online me payload => exact postMessage_changes P db now online me payload
  | read now conversation user => exact .single (.flags _ (Conversation.readAt now) (Conversation.readAt_index now))
  | notifyUnread now => exact .single (.flags _ _ _)

theorem Reminded.step {P : Platform} {h : List Occurrence} {db : Db} (hr : Reminded h db) (hc : Consistent db)
    (event : ReminderEvent) (ha : ¬ event.Alarms P db) : Reminded (h ++ event.occurrences P db) (event.step P db) := by
  cases event with
  | post now online me payload => exact hr.post hc P now online me payload ha
  | read now conversation user => exact hr.read now conversation user
  | notifyUnread now => exact hr.notifyUnread P now

theorem one_reminder (P : Platform) (db : Db) (hdb : Reachable P db) (events : List ReminderEvent)
    (ha : Transition.Meets (ReminderEvent.step P) (fun db event => ¬ event.Alarms P db) db events) :
    OneReminder (ReminderEvent.history P db events) := by
  have hi : Reminded (ReminderEvent.history P db events) (Transition.run (ReminderEvent.step P) db events) ∧
      Consistent (Transition.run (ReminderEvent.step P) db events) := by
    apply Transition.observe_of_meets (ReminderEvent.step P) (I := fun h db => Reminded h db ∧ Consistent db) _ [] db _ events ha
    · intro h db event hq hi
      exact ⟨hi.1.step hi.2 event hq,
        (reminderEvent_changes P db event).invariant (fun _ _ => Change.consistent) hi.2⟩
    · exact ⟨⟨fun p c => History.separated_nil, fun p c hp => absurd hp History.not_pending_nil⟩, hdb.consistent⟩
  exact hi.1.separated

def annSignsUpWithBob : Db :=
  Transition.run (step .plain) (Db.new {}) [.signUp "ann@blnkk.com" "ann", .signUp "bob@blnkk.com" "bob"]

def annWritesToBob (now : ℕ) (content : String) : ReminderEvent :=
  .post now [1] 1 { message := some { content := some content }, userId := some 2 }

def bobReadsInBetween : List ReminderEvent :=
  [annWritesToBob 10 "hello", annWritesToBob 20 "are you there?", .read 30 1 2, annWritesToBob 40 "thanks",
    .notifyUnread 9000]

theorem bob_reminded_once_each :
    ReminderEvent.history .plain annSignsUpWithBob bobReadsInBetween = [.reminder 2 1, .reading 2 1, .reminder 2 1] ∧
      OneReminder (ReminderEvent.history .plain annSignsUpWithBob bobReadsInBetween) := by
  have hno : ∀ db now content, Text.present content = true → ¬ (annWritesToBob now content).Alarms .plain db := by
    rintro db now content hp ⟨part, p, hpart, hblank, -⟩
    cases hpart
    have hb := hblank content (by simp [MessagePart.text, Content.cast, Platform.sanitizeField, Platform.plain])
    rw [hp] at hb
    cases hb
  refine ⟨by decide +kernel, one_reminder .plain annSignsUpWithBob ⟨{}, _, rfl⟩ bobReadsInBetween ?_⟩
  exact ⟨hno _ _ _ (by decide), hno _ _ _ (by decide), id, hno _ _ _ (by decide), id, trivial⟩

theorem blank_message_reminds_twice :
    Reachable .plain annSignsUpWithBob ∧
      ¬ OneReminder (ReminderEvent.history .plain annSignsUpWithBob [annWritesToBob 10 " ", annWritesToBob 20 "hello"]) := by
  refine ⟨⟨{}, _, rfl⟩, fun h => ?_⟩
  have hh : ReminderEvent.history .plain annSignsUpWithBob [annWritesToBob 10 " ", annWritesToBob 20 "hello"] =
      [.reminder 2 1, .reminder 2 1] := by decide +kernel
  cases h 2 1 [] [] [] hh

end Blnkk
