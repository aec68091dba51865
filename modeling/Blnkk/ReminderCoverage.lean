import Blnkk.MessageLog
import Blnkk.QuotedMessages
import Blnkk.UnreadFlags

/-!
The e-mails about unread messages over whole runs of the site: a message that
stays unread is not forgotten, and the half-hourly task leaves alone those who
have just looked.
-/

namespace Blnkk

open Relational ConversationsSocket

/-- What an operation is to the reminders. -/
def Op.reminderEvent? (db : Db) : Op → Option ReminderEvent
  | .postMessage now online me payload => some (.post now online me payload)
  | .showConversation now me id =>
    if db.users.has me && (db.conversations.has id && db.conversationUsers.has (id, me)) then some (.read now id me)
    else none
  | .conversationRead now _ userId conversationId =>
    (userId.bind db.users.get?).bind (fun user =>
      (conversationId.bind db.conversations.get?).map (fun conversation => .read now conversation.id user.id))
  | .notifyUnread now => some (.notifyUnread now)
  | _ => none

def Op.occurrences (P : Platform) (db : Db) (op : Op) : List Occurrence :=
  (op.reminderEvent? db).elim [] (ReminderEvent.occurrences P db)

def Op.history (P : Platform) (db : Db) (ops : List Op) : List Occurrence :=
  Transition.trace (step P) (Op.occurrences P) db ops

def Op.time? : Op → Option ℕ
  | .postMessage now .. => some now
  | .showConversation now .. => some now
  | .conversationRead now .. => some now
  | .notifyUnread now => some now
  | _ => none

theorem step_of_reminderEvent (P : Platform) {db : Db} {op : Op} {event : ReminderEvent}
    (h : op.reminderEvent? db = some event) : step P db op = event.step P db ∧ op.time? = some event.time := by
  cases op with
  | postMessage now online me payload =>
    cases h
    exact ⟨rfl, rfl⟩
  | notifyUnread now =>
    cases h
    exact ⟨rfl, rfl⟩
  | showConversation now me id =>
    simp only [Op.reminderEvent?, Option.ite_none_right_eq_some, Bool.and_eq_true] at h
    obtain ⟨⟨hme, hid⟩, hevent⟩ := h
    cases hevent
    refine ⟨?_, rfl⟩
    simp only [step, ConversationsController.show, hme, hid, Bool.and_self, if_true, ReminderEvent.step]
  | conversationRead now me userId conversationId =>
    obtain ⟨user, huser, h⟩ := Option.bind_eq_some_iff.mp h
    obtain ⟨conversation, hconversation, rfl⟩ := Option.map_eq_some_iff.mp h
    refine ⟨?_, rfl⟩
    simp only [step, conversationRead, huser, hconversation, ReminderEvent.step]
  | _ => cases h

theorem step_of_reminderEvent_none (P : Platform) {db : Db} {op : Op} (h : op.reminderEvent? db = none) :
    (step P db op).conversationUsers = db.conversationUsers := by
  cases ht : op.talks with
  | false => exact (TalkKept.step P db ht).conversationUsers
  | true =>
    cases op with
    | postMessage now online me payload => cases h
    | notifyUnread now => cases h
    | showConversation now me id =>
      simp only [Op.reminderEvent?, ite_eq_right_iff, reduceCtorEq, imp_false, Bool.not_eq_true] at h
      simp only [step, ConversationsController.show]
      split_ifs with hme hid
      · rw [hme, hid] at h
        cases h
      · rfl
      · rfl
    | conversationRead now me userId conversationId =>
      simp only [Op.reminderEvent?] at h
      simp only [step, conversationRead]
      cases huser : userId.bind db.users.get? with
      | none => rfl
      | some user =>
        cases hconversation : conversationId.bind db.conversations.get? with
        | none => rfl
        | some conversation =>
          rw [huser, hconversation] at h
          cases h
    | _ => cases ht

/-- The participants to whom `deliver` writes an e-mail when it has not yet. -/
def Away (online : List ℕ) (me p : ℕ) : Prop := ¬ (me = p ∨ p ∈ online)

theorem deliver_row {online : List ℕ} {me c : ℕ} {isNew : Bool} {systemMessage : Option Message.Draft}
    {draft : Message.Draft} {users : List ℕ} {db : Db} {events : List Event} {k : ℕ × ℕ} {cu' : ConversationUser}
    (h : (deliver online me c isNew systemMessage draft users (db, events)).1.conversationUsers.get? k = some cu') :
    ∃ cu, db.conversationUsers.get? k = some cu ∧
      (cu' = cu ∨ cu' = { cu with notified := true } ∧ k.1 = c ∧ k.2 ∈ users ∧ Away online me k.2) := by
  induction users generalizing db events with
  | nil => exact ⟨cu', h, Or.inl rfl⟩
  | cons user rest ih =>
    simp only [deliver] at h
    by_cases hp : me = user ∨ user ∈ online
    · obtain ⟨cu, hcu, hrow⟩ := ih h
      refine ⟨cu, ?_, ?_⟩
      · rw [if_pos hp] at hcu
        split_ifs at hcu <;> exact hcu
      · rcases hrow with he | ⟨he, hk, hm, ha⟩
        · exact Or.inl he
        · exact Or.inr ⟨he, hk, List.mem_cons_of_mem _ hm, ha⟩
    · obtain ⟨mailed, hmailed, hrow⟩ := ih h
      rw [if_neg hp, notifyByEmail_rows, Table.get?_update] at hmailed
      split_ifs at hmailed with hk
      · subst hk
        obtain ⟨cu, hcu, rfl⟩ := Option.map_eq_some_iff.mp hmailed
        refine ⟨cu, hcu, Or.inr ⟨?_, rfl, List.mem_cons_self, hp⟩⟩
        rcases hrow with rfl | ⟨rfl, -⟩ <;> rfl
      · refine ⟨mailed, hmailed, ?_⟩
        rcases hrow with he | ⟨he, hk, hm, ha⟩
        · exact Or.inl he
        · exact Or.inr ⟨he, hk, List.mem_cons_of_mem _ hm, ha⟩

/-- A row keeps its time of reading or has the present one, and a row that is
flagged anew belongs to a reminder. -/
structure Minds (now : ℕ) (sent : List Occurrence) (db db' : Db) : Prop where
  lastReadAt : ∀ k cu', db'.conversationUsers.get? k = some cu' →
    (∃ cu, db.conversationUsers.get? k = some cu ∧ cu'.lastReadAt = cu.lastReadAt) ∨ cu'.lastReadAt = now
  flagged : ∀ c p, Flagged db' c p → Flagged db c p ∨ .reminder p c ∈ sent

namespace Minds

variable {now : ℕ} {sent : List Occurrence} {db db' db'' : Db}

theorem of_eq (h : db'.conversationUsers = db.conversationUsers) : Minds now sent db db' where
  lastReadAt k cu' hcu' := Or.inl ⟨cu', h ▸ hcu', rfl⟩
  flagged c p := by
    rintro ⟨cu, hcu, hflags⟩
    exact Or.inl ⟨cu, h ▸ hcu, hflags⟩

theorem trans (h : Minds now sent db db') (h' : Minds now sent db' db'') : Minds now sent db db'' where
  lastReadAt k cu'' hcu'' := by
    rcases h'.lastReadAt k cu'' hcu'' with ⟨cu', hcu', he'⟩ | hnow
    · rcases h.lastReadAt k cu' hcu' with ⟨cu, hcu, he⟩ | hnow
      · exact Or.inl ⟨cu, hcu, he'.trans he⟩
      · exact Or.inr (he'.trans hnow)
    · exact Or.inr hnow
  flagged c p hflag := (h'.flagged c p hflag).elim (h.flagged c p) Or.inr

theorem of_append {l : List ConversationUser} (h : db'.conversationUsers.rows = db.conversationUsers.rows ++ l)
    (hl : ∀ cu ∈ l, cu.lastReadAt = now ∧ cu.unread = false) : Minds now sent db db' where
  lastReadAt k cu' hcu' := by
    obtain ⟨hm, hkey⟩ := (Table.get?_some_iff _ _ _).mp hcu'
    rw [h, List.mem_append] at hm
    rcases hm with hm | hm
    · exact Or.inl ⟨cu', (Table.get?_some_iff _ _ _).mpr ⟨hm, hkey⟩, rfl⟩
    · exact Or.inr (hl cu' hm).1
  flagged c p := by
    rintro ⟨cu, hcu, hu, hn⟩
    obtain ⟨hm, hkey⟩ := (Table.get?_some_iff _ _ _).mp hcu
    rw [h, List.mem_append] at hm
    rcases hm with hm | hm
    · exact Or.inl ⟨cu, (Table.get?_some_iff _ _ _).mpr ⟨hm, hkey⟩, hu, hn⟩
    · rw [(hl cu hm).2] at hu
      cases hu

/-- Each row is rewritten on its own. -/
theorem of_map {f : ℕ × ℕ → ConversationUser → ConversationUser}
    (h : ∀ k, db'.conversationUsers.get? k = (db.conversationUsers.get? k).map (f k))
    (htime : ∀ k cu, db.conversationUsers.get? k = some cu →
      (f k cu).lastReadAt = cu.lastReadAt ∨ (f k cu).lastReadAt = now)
    (hflags : ∀ c p cu, db.conversationUsers.get? (c, p) = some cu → (f (c, p) cu).unread = true →
      (f (c, p) cu).notified = true → (cu.unread = true ∧ cu.notified = true) ∨ .reminder p c ∈ sent) :
    Minds now sent db db' where
  lastReadAt k cu' hcu' := by
    rw [h] at hcu'
    obtain ⟨cu, hcu, rfl⟩ := Option.map_eq_some_iff.mp hcu'
    exact (htime k cu hcu).imp_left (fun he => ⟨cu, hcu, he⟩)
  flagged c p := by
    rintro ⟨cu', hcu', hu, hn⟩
    rw [h] at hcu'
    obtain ⟨cu, hcu, rfl⟩ := Option.map_eq_some_iff.mp hcu'
    exact (hflags c p cu hcu hu hn).imp_left (fun hold => ⟨cu, hcu, hold⟩)

theorem create (P : Platform) (db : Db) (now c me : ℕ) (systemGenerated : Bool) (content : Option String) :
    Minds now sent db (Message.save P db now c (some me) systemGenerated content).2 := by
  have hrows := save_message_rows P db now c (some me) systemGenerated content
  split_ifs at hrows with hid
  · refine of_map (fun k => (congrArg (fun t => Table.get? t k) hrows).trans (Table.get?_updateWhere ..)) ?_ ?_
    · intro k cu _
      left
      split_ifs <;> rfl
    · intro conversation p cu _ hu hn
      left
      split_ifs at hu hn with hother
      -- a message of a user clears the mark of a row that was read
      · cases hread : cu.unread with
        | true => exact ⟨rfl, by simpa [Message.flagUnread, hread] using hn⟩
        | false => simp [Message.flagUnread, hread] at hn
      · exact ⟨hu, hn⟩
  · exact .of_eq hrows

theorem announce (P : Platform) (db : Db) (now me c : ℕ) (request : Option Request) :
    Minds now sent db (announce P db now me c request).1 := by
  rcases announce_cases P db now me c request with h | ⟨r, -, h⟩
  · rw [h]
    exact .of_eq rfl
  · rw [h]
    exact (create P db now c me true (some (systemContent r))).trans (.of_eq (joinRequest_rows _ r me))

theorem reaches {base : Db} {me c : ℕ} {payload : Payload} {isNew : Bool}
    (h : payload.Reaches db now me base c isNew) : Minds now sent db base := by
  cases h with
  | existing c hex => exact .of_eq rfl
  | fresh t created hex hpartner hne hcreated =>
    obtain ⟨-, table, rfl, htable⟩ := createConversation_ok hcreated
    exact .of_append htable (by simp)

theorem half {left : Db} {me other : ℕ} (h : createConversation db now me other = .error left) :
    Minds now sent db left := by
  obtain ⟨table, rfl, ⟨htable, -⟩ | ⟨htable, -⟩⟩ := createConversation_error h
  · exact .of_append (l := []) (by rw [List.append_nil]; exact htable) (by simp)
  · exact .of_append htable (by simp)

theorem deliver (online : List ℕ) (me c : ℕ) (isNew : Bool) (systemMessage : Option Message.Draft)
    (draft : Message.Draft) (users : List ℕ) (hn : users.Nodup) (db : Db) :
    Minds now ((deliver online me c isNew systemMessage draft users (db, [])).2.filterMap Event.reminder?) db
      (deliver online me c isNew systemMessage draft users (db, [])).1 where
  lastReadAt k cu' hcu' := by
    obtain ⟨cu, hcu, rfl | ⟨rfl, -⟩⟩ := deliver_row hcu'
    · exact Or.inl ⟨cu', hcu, rfl⟩
    · exact Or.inl ⟨cu, hcu, rfl⟩
  flagged conversation p := by
    rintro ⟨cu', hcu', hu, hmark⟩
    obtain ⟨cu, hcu, rfl | ⟨rfl, rfl, hm, haway⟩⟩ := deliver_row hcu'
    · exact Or.inl ⟨cu', hcu, hu, hmark⟩
    · cases hold : cu.notified with
      | true => exact Or.inl ⟨cu, hcu, hu, hold⟩
      | false =>
        right
        rw [deliver_reminders _ _ _ _ _ _ _ hn, List.filterMap_nil, List.nil_append]
        apply List.mem_map_of_mem (f := fun user => Occurrence.reminder user conversation)
        apply List.mem_filter.mpr
        refine ⟨hm, ?_⟩
        simp [mailed, hcu, hold, not_or.mp haway]

theorem post (P : Platform) {db : Db} (hc : Consistent db) (now : ℕ) (online : List ℕ) (me : ℕ) (payload : Payload) :
    Minds now (ReminderEvent.occurrences P db (.post now online me payload)) db
      (postMessage P db now online me payload).1 := by
  cases hm : db.users.has me with
  | false => exact .of_eq (by rw [postMessage_unknown P now online hm payload])
  | true =>
    have houtcome := postMessage_outcome P hc now online hm payload
    simp only [ReminderEvent.occurrences]
    generalize ConversationsSocket.postMessage P db now online me payload = result at houtcome ⊢
    cases houtcome with
    | refused answer hex => exact .of_eq rfl
    | half left hex hpartner hleft => exact half hleft
    | stopped base c isNew answer hreach => exact (reaches hreach).trans (announce P base now me c _)
    | delivered base c isNew part created hreach haccepted hcreated =>
      subst hcreated
      refine ((reaches hreach).trans ((announce P base now me c (payload.request? db me)).trans
        (create P _ now c me false part.text))).trans ?_
      simp only [List.filterMap_append]
      rw [show [Event.success .created c].filterMap Event.reminder? = [] from rfl, List.append_nil]
      exact deliver online me c isNew _ _ _ (participants_nodup _ c) _

theorem read (db : Db) (now conversation user : ℕ) :
    Minds now sent db (Conversation.markRead db now conversation user) := by
  refine of_map (f := fun k cu => if k = (conversation, user) then Conversation.readAt now cu else cu) ?_ ?_ ?_
  · intro k
    rw [markRead_row]
    split_ifs <;> simp
  · intro k cu _
    split_ifs
    · unfold Conversation.readAt
      split_ifs <;> simp
    · exact Or.inl rfl
  · intro c p cu _ hu hn
    split_ifs at hu hn
    · rw [readAt_unread] at hu
      cases hu
    · exact Or.inl ⟨hu, hn⟩

theorem notifyUnread (P : Platform) (db : Db) (now : ℕ) :
    Minds now (ReminderEvent.occurrences P db (.notifyUnread now)) db
      (ConversationUser.notifyAboutUnreadMessages db now).1 := by
  refine of_map (f := fun _ cu => if cu.overdue now && (cu.unreadMessage db).isSome then { cu with notified := true } else cu)
    ?_ ?_ ?_
  · intro k
    have hrows : (ConversationUser.notifyAboutUnreadMessages db now).1.conversationUsers =
        db.conversationUsers.updateWhere (fun cu => cu.overdue now && (cu.unreadMessage db).isSome)
          (fun cu => { cu with notified := true }) := rfl
    exact (congrArg (fun t => Table.get? t k) hrows).trans (Table.get?_updateWhere ..)
  · intro k cu _
    left
    split_ifs <;> rfl
  · intro c p cu hcu hu hn
    split_ifs at hu hn with hdue
    · right
      rw [Bool.and_eq_true] at hdue
      obtain ⟨m, hm⟩ := Option.isSome_iff_exists.mp hdue.2
      have hkey := Table.get?_key hcu
      obtain ⟨rfl, rfl⟩ := Prod.mk.inj hkey
      exact List.mem_map_of_mem (f := fun sent : ConversationUser × Message =>
        Occurrence.reminder sent.1.userId sent.1.conversationId)
        (mem_notifyUnread_iff.mpr ⟨Table.get?_mem hcu, hdue.1, hm⟩)
    · exact Or.inl ⟨hu, hn⟩

theorem event (P : Platform) {db : Db} (hc : Consistent db) (event : ReminderEvent) :
    Minds event.time (event.occurrences P db) db (event.step P db) := by
  cases event with
  | post now online me payload => exact post P hc now online me payload
  | read now conversation user => exact read db now conversation user
  | notifyUnread now => exact notifyUnread P db now

end Minds

theorem Op.occurrences_of_event (P : Platform) {db : Db} {op : Op} {event : ReminderEvent}
    (h : op.reminderEvent? db = some event) : op.occurrences P db = event.occurrences P db := by
  rw [Op.occurrences, h, Option.elim_some]

theorem Op.occurrences_of_none (P : Platform) {db : Db} {op : Op} (h : op.reminderEvent? db = none) :
    op.occurrences P db = [] := by
  rw [Op.occurrences, h, Option.elim_none]

theorem reading_not_mem_post (P : Platform) (db : Db) (now : ℕ) (online : List ℕ) (me : ℕ) (payload : Payload)
    (p c : ℕ) : .reading p c ∉ ReminderEvent.occurrences P db (.post now online me payload) := by
  intro hm
  obtain ⟨event, -, he⟩ := List.mem_filterMap.mp hm
  cases event <;> cases he

theorem reading_not_mem_notifyUnread (P : Platform) (db : Db) (now p c : ℕ) :
    .reading p c ∉ ReminderEvent.occurrences P db (.notifyUnread now) := by
  intro hm
  obtain ⟨sent, -, he⟩ := List.mem_map.mp hm
  cases he

theorem Op.read_of_reading_mem (P : Platform) {db : Db} {op : Op} {p c : ℕ} (h : .reading p c ∈ op.occurrences P db) :
    ∃ now, op.reminderEvent? db = some (.read now c p) := by
  cases hevent : op.reminderEvent? db with
  | none =>
    rw [Op.occurrences_of_none P hevent] at h
    cases h
  | some event =>
    rw [Op.occurrences_of_event P hevent] at h
    cases event with
    | post now online me payload => exact absurd h (reading_not_mem_post P db now online me payload p c)
    | notifyUnread now => exact absurd h (reading_not_mem_notifyUnread P db now p c)
    | read now conversation user =>
      cases List.mem_singleton.mp h
      exact ⟨now, rfl⟩

theorem le_readAt (now : ℕ) (cu : ConversationUser) : now ≤ (Conversation.readAt now cu).lastReadAt + 300 := by
  unfold Conversation.readAt
  split_ifs with hunread hstale
  · exact Nat.le_add_right now 300
  · exact Nat.le_add_right now 300
  · omega

/-- A flagged row has a reminder that no reading follows. -/
def Covered (h : List Occurrence) (db : Db) : Prop :=
  ∀ c p, Flagged db c p → History.Pending (.reminder p c) (.reading p c) h

theorem Covered.event {P : Platform} {h : List Occurrence} {db : Db} (hcov : Covered h db) (hc : Consistent db)
    (event : ReminderEvent) : Covered (h ++ event.occurrences P db) (event.step P db) := by
  intro c p hflag
  have hminds := (Minds.event P hc event).flagged c p hflag
  cases event with
  | post now online me payload =>
    rw [History.pending_append (reading_not_mem_post P db now online me payload p c)]
    exact hminds.imp_left (hcov c p)
  | notifyUnread now =>
    rw [History.pending_append (reading_not_mem_notifyUnread P db now p c)]
    exact hminds.imp_left (hcov c p)
  | read now conversation user =>
    have hold : Flagged db c p := hminds.resolve_right (by simp [ReminderEvent.occurrences])
    -- the row that is read is not unread any more
    have hother : Occurrence.reading user conversation ≠ .reading p c := by
      rintro he
      cases he
      obtain ⟨cu', hcu', hu, -⟩ := hflag
      rw [ReminderEvent.step, markRead_row, if_pos rfl] at hcu'
      obtain ⟨cu, -, rfl⟩ := Option.map_eq_some_iff.mp hcu'
      rw [readAt_unread] at hu
      cases hu
    exact History.pending_concat.mpr (Or.inr ⟨hother, hcov c p hold⟩)

theorem Covered.step {P : Platform} {h : List Occurrence} {db : Db} (hcov : Covered h db) (hc : Consistent db)
    (op : Op) : Covered (h ++ op.occurrences P db) (step P db op) := by
  cases hevent : op.reminderEvent? db with
  | none =>
    rw [Op.occurrences_of_none P hevent, List.append_nil]
    rintro c p ⟨cu, hcu, hflags⟩
    rw [step_of_reminderEvent_none P hevent] at hcu
    exact hcov c p ⟨cu, hcu, hflags⟩
  | some event =>
    rw [Op.occurrences_of_event P hevent, (step_of_reminderEvent P hevent).1]
    exact hcov.event hc event

theorem covered_run (P : Platform) (settings : Settings) (ops : List Op) :
    Covered (Op.history P (Db.new settings) ops) (Transition.run (step P) (Db.new settings) ops) := by
  induction ops using List.reverseRecOn with
  | nil =>
    rintro c p ⟨cu, hcu, -⟩
    cases hcu
  | append_singleton ops op ih =>
    rw [Op.history, Transition.trace_concat, Transition.run_concat]
    exact ih.step (Reachable.consistent ⟨settings, ops, rfl⟩) op

theorem step_lastReadAt (P : Platform) {db : Db} (hc : Consistent db) {op : Op} {k : ℕ × ℕ} {cu' : ConversationUser}
    (h : (step P db op).conversationUsers.get? k = some cu') :
    (∃ cu, db.conversationUsers.get? k = some cu ∧ cu'.lastReadAt = cu.lastReadAt) ∨
      op.time? = some cu'.lastReadAt := by
  cases hevent : op.reminderEvent? db with
  | none =>
    rw [step_of_reminderEvent_none P hevent] at h
    exact Or.inl ⟨cu', h, rfl⟩
  | some event =>
    obtain ⟨hstep, htime⟩ := step_of_reminderEvent P hevent
    rw [hstep] at h
    rw [htime, Option.some.injEq]
    exact ((Minds.event P hc event).lastReadAt k cu' h).imp_right Eq.symm

/-- What holds of the times of reading and of the times of the operations. -/
theorem run_lastReadAt (P : Platform) (T : ℕ → Prop) {db : Db} (hc : Consistent db) (k : ℕ × ℕ) (ops : List Op)
    (hdb : ∀ cu, db.conversationUsers.get? k = some cu → T cu.lastReadAt)
    (hops : ∀ t ∈ ops.filterMap Op.time?, T t) {cu' : ConversationUser}
    (hcu' : (Transition.run (step P) db ops).conversationUsers.get? k = some cu') : T cu'.lastReadAt := by
  induction ops generalizing db with
  | nil => exact hdb cu' hcu'
  | cons op ops ih =>
    apply ih ((step_changes P db op).invariant (fun _ _ => Change.consistent) hc) _ _ hcu'
    · intro cu hcu
      rcases step_lastReadAt P hc hcu with ⟨old, hold, he⟩ | htime
      · rw [he]
        exact hdb old hold
      · exact hops _ (List.mem_filterMap.mpr ⟨op, List.mem_cons_self, htime⟩)
    · intro t ht
      obtain ⟨op', hop', htime⟩ := List.mem_filterMap.mp ht
      exact hops t (List.mem_filterMap.mpr ⟨op', List.mem_cons_of_mem _ hop', htime⟩)

theorem step_keepsRow (P : Platform) {db : Db} {op : Op} {c p : ℕ} (hno : .reading p c ∉ op.occurrences P db)
    {cu : ConversationUser} (hcu : db.conversationUsers.get? (c, p) = some cu) :
    ∃ cu', (step P db op).conversationUsers.get? (c, p) = some cu' ∧ cu.Keeps cu' := by
  cases hevent : op.reminderEvent? db with
  | none =>
    rw [step_of_reminderEvent_none P hevent]
    exact ⟨cu, hcu, .refl cu⟩
  | some event =>
    rw [(step_of_reminderEvent P hevent).1]
    rw [Op.occurrences_of_event P hevent] at hno
    cases event with
    | post now online me payload => exact postMessage_keeps P db now online me payload _ _ hcu
    | notifyUnread now => exact notifyUnread_keeps db now _ _ hcu
    | read now conversation user =>
      have hk : (c, p) ≠ (conversation, user) := by
        rintro he
        cases he
        exact hno List.mem_cons_self
      refine ⟨cu, ?_, .refl cu⟩
      rw [ReminderEvent.step, markRead_row, if_neg hk, hcu]

theorem run_keepsRow (P : Platform) {db : Db} {c p : ℕ} (ops : List Op) (hno : .reading p c ∉ Op.history P db ops)
    {cu : ConversationUser} (hcu : db.conversationUsers.get? (c, p) = some cu) :
    ∃ cu', (Transition.run (step P) db ops).conversationUsers.get? (c, p) = some cu' ∧ cu.Keeps cu' := by
  induction ops generalizing db cu with
  | nil => exact ⟨cu, hcu, .refl cu⟩
  | cons op ops ih =>
    rw [Op.history, Transition.trace, List.mem_append, not_or] at hno
    obtain ⟨next, hnext, hkeeps⟩ := step_keepsRow P hno.1 hcu
    obtain ⟨last, hlast, hkeeps'⟩ := ih hno.2 hnext
    exact ⟨last, hlast, .trans _ _ _ hkeeps hkeeps'⟩

theorem run_messages (P : Platform) {db : Db} (hc : Consistent db) (ops : List Op) {m : Message}
    (hm : m ∈ db.messages.rows) : m ∈ (Transition.run (step P) db ops).messages.rows := by
  induction ops generalizing db with
  | nil => exact hm
  | cons op ops ih =>
    apply ih ((step_changes P db op).invariant (fun _ _ => Change.consistent) hc)
    have hauthor : ∀ author, op.author? = some author → author = op.author?.getD 0 := by
      intro author ha
      rw [ha, Option.getD_some]
    obtain ⟨written, hrows, -⟩ := step_writtenBy P hc hauthor
    rw [hrows]
    exact List.mem_append_left _ hm

/-- Whoever takes part in the conversation of a new message of somebody else
has it unread. -/
theorem post_unread (P : Platform) {db : Db} (hc : Consistent db) {now : ℕ} {online : List ℕ} {me : ℕ}
    {payload : Payload} {m : Message} (hnew : m ∈ (postMessage P db now online me payload).1.messages.rows)
    (hold : m ∉ db.messages.rows) (hsystem : m.systemGenerated = false) {p : ℕ} (hp : p ≠ me) {cu : ConversationUser}
    (hcu : (postMessage P db now online me payload).1.conversationUsers.get? (m.conversationId, p) = some cu) :
    cu.unread = true := by
  cases hm : db.users.has me with
  | false =>
    rw [postMessage_unknown P now online hm payload] at hnew
    exact absurd hnew hold
  | true =>
    have houtcome := postMessage_outcome P hc now online hm payload
    generalize ConversationsSocket.postMessage P db now online me payload = result at houtcome hnew hcu
    have hannounced : ∀ {base c isNew}, payload.Reaches db now me base c isNew →
        m ∉ (announce P base now me c (payload.request? db me)).1.messages.rows := by
      intro base c isNew hreach hmem
      rw [announce_messages, hreach.messages, List.mem_append] at hmem
      rcases hmem with hmem | hmem
      · exact hold hmem
      · obtain ⟨text, -, rfl⟩ := List.mem_map.mp hmem
        cases hsystem
    cases houtcome with
    | refused answer hex => exact absurd hnew hold
    | half left hex hpartner hleft =>
      obtain ⟨table, rfl, -⟩ := createConversation_error hleft
      exact absurd hnew hold
    | stopped base c isNew answer hreach => exact absurd hnew (hannounced hreach)
    | delivered base c isNew part created hreach haccepted hcreated =>
      subst hcreated
      rw [deliver_messages] at hnew
      by_cases hblank : Blank P part.text
      · rw [(save_message_blank P _ now me c hblank).1] at hnew
        exact absurd hnew (hannounced hreach)
      · obtain ⟨text, htext, hpresent⟩ := not_blank_iff.mp hblank
        have hconversation : m.conversationId = c := by
          rw [save_message_stored P _ now me c htext hpresent] at hnew
          rcases List.mem_append.mp hnew with hmem | hmem
          · exact absurd hmem (hannounced hreach)
          · rw [List.mem_singleton.mp hmem]
        rw [hconversation] at hcu
        obtain ⟨stored, hstored, hrow⟩ := deliver_row hcu
        have hunread : stored.unread = true := by
          by_contra hread
          exact hblank (save_message_read hp hstored (Bool.eq_false_iff.mpr hread)).1
        rcases hrow with rfl | ⟨rfl, -⟩ <;> exact hunread

theorem Covered.notifyUnread {P : Platform} {h : List Occurrence} {db : Db} (hcov : Covered h db) {now c p : ℕ}
    {cu : ConversationUser} (hcu : db.conversationUsers.get? (c, p) = some cu) (hunread : cu.unread = true)
    (hdue : cu.lastReadAt + 3600 < now) {m : Message} (hm : m ∈ cu.answers db) :
    History.Pending (.reminder p c) (.reading p c) (h ++ Op.occurrences P db (.notifyUnread now)) := by
  rw [Op.occurrences_of_event P rfl, History.pending_append (reading_not_mem_notifyUnread P db now p c)]
  cases hnotified : cu.notified with
  | true => exact Or.inl (hcov c p ⟨cu, hcu, hunread, hnotified⟩)
  | false =>
    right
    have hoverdue : cu.overdue now = true := by simp [ConversationUser.overdue, hunread, hnotified, hdue]
    obtain ⟨quoted, hquoted⟩ : ∃ quoted, cu.unreadMessage db = some quoted := by
      apply Option.isSome_iff_exists.mp
      rw [ConversationUser.unreadMessage, Option.isSome_or, List.getLast?_isSome.mpr (List.ne_nil_of_mem hm), Bool.or_true]
    have hkey := Table.get?_key hcu
    obtain ⟨rfl, rfl⟩ := Prod.mk.inj hkey
    exact List.mem_map_of_mem (f := fun sent : ConversationUser × Message =>
      Occurrence.reminder sent.1.userId sent.1.conversationId)
      (mem_notifyUnread_iff.mpr ⟨Table.get?_mem hcu, hoverdue, hquoted⟩)

/-- A message that is an hour old and unread has been announced by e-mail, as
soon as the task runs: a reminder is pending which no reading follows. -/
theorem unread_message_reminded (P : Platform) (settings : Settings) (before after : List Op) (t : ℕ) (online : List ℕ)
    (me : ℕ) (payload : Payload) (m : Message) (p now : ℕ) (hbefore : ∀ t' ∈ before.filterMap Op.time?, t' ≤ t)
    (hold : m ∉ (Transition.run (step P) (Db.new settings) before).messages.rows)
    (hnew : m ∈ (Transition.run (step P) (Db.new settings) (before ++ [.postMessage t online me payload])).messages.rows)
    (hsystem : m.systemGenerated = false) (hp : p ≠ me)
    (hpart : (Transition.run (step P) (Db.new settings)
      (before ++ [.postMessage t online me payload])).conversationUsers.has (m.conversationId, p) = true)
    (hunseen : .reading p m.conversationId ∉ Op.history P (Transition.run (step P) (Db.new settings)
      (before ++ [.postMessage t online me payload])) after)
    (hdue : t + 3600 < now) :
    History.Pending (.reminder p m.conversationId) (.reading p m.conversationId)
      (Op.history P (Db.new settings) (before ++ [.postMessage t online me payload] ++ after ++ [.notifyUnread now])) := by
  have hconsistent : ∀ ops, Consistent (Transition.run (step P) (Db.new settings) ops) :=
    fun ops => Reachable.consistent ⟨settings, ops, rfl⟩
  have hcov := covered_run P settings (before ++ [.postMessage t online me payload] ++ after)
  rw [Op.history, Transition.trace_concat]
  rw [Op.history] at hcov
  -- the row of the reader, after the message and before the task
  obtain ⟨posted, hposted⟩ := Option.isSome_iff_exists.mp hpart
  obtain ⟨cu, hcu, hkeeps⟩ := run_keepsRow P after hunseen hposted
  rw [← Transition.run_append] at hcu
  have hlastReadAt : posted.lastReadAt ≤ t := by
    apply run_lastReadAt P (· ≤ t) (hconsistent []) (m.conversationId, p) _ _ _ hposted
    · intro row hrow
      cases hrow
    · intro t' ht'
      rw [List.filterMap_append, List.mem_append] at ht'
      rcases ht' with ht' | ht'
      · exact hbefore t' ht'
      · exact (List.mem_singleton.mp ht').le
  have hauthor : m.userId = some me := by
    obtain ⟨written, hrows, hme⟩ := WrittenBy.postMessage P (hconsistent before) t online me payload
    rw [Transition.run_concat, step, hrows, List.mem_append] at hnew
    exact hme m (hnew.resolve_left hold)
  have hunread : posted.unread = true := by
    rw [Transition.run_concat] at hnew hposted
    exact post_unread P (hconsistent before) hnew hold hsystem hp hposted
  have hmessage := run_messages P (hconsistent _) after hnew
  rw [← Transition.run_append] at hmessage
  apply hcov.notifyUnread hcu (hkeeps.2 hunread).1
  · have hsame := hkeeps.1
    omega
  · have hkey := Table.get?_key hcu
    obtain ⟨hconversation, huser⟩ := Prod.mk.inj hkey
    apply List.mem_filter.mpr
    refine ⟨hmessage, ?_⟩
    simp [hconversation, huser, hsystem, hauthor, hp.symm]

def annFindsBob (now : ℕ) (content : String) : Op :=
  .postMessage now [1, 2] 1 { message := some { content := some content }, userId := some 2 }

/-- Bob is online when ann writes, so it is the task that reminds them. -/
theorem bob_reminded_by_task :
    let sent := Op.history .plain (Db.new {})
      ([.signUp "ann@blnkk.com" "ann", .signUp "bob@blnkk.com" "bob"] ++ [annFindsBob 10 "hello"] ++
        [annFindsBob 20 "are you there?", .notifyUnread 3000] ++ [.notifyUnread 4800])
    sent = [.reminder 2 1] ∧ History.Pending (.reminder 2 1) (.reading 2 1) sent :=
  ⟨by decide +kernel,
    unread_message_reminded .plain {} [.signUp "ann@blnkk.com" "ann", .signUp "bob@blnkk.com" "bob"]
      [annFindsBob 20 "are you there?", .notifyUnread 3000] 10 [1, 2] 1
      { message := some { content := some "hello" }, userId := some 2 } ⟨1, 1, some 1, false, "hello", 10, 10⟩ 2 4800
      (by decide) (by decide +kernel) (by decide +kernel) rfl (by decide) (by decide +kernel) (by decide +kernel)
      (by decide)⟩

/-- The task does not write to somebody who has looked at the conversation in
the last fifty-five minutes: `mark_read` may leave the time five minutes old. -/
theorem recent_reader_left_alone (P : Platform) (settings : Settings) (before after : List Op) (op : Op) (t p c now : ℕ)
    (htime : op.time? = some t) (hafter : ∀ t' ∈ after.filterMap Op.time?, t ≤ t')
    (hread : .reading p c ∈ op.occurrences P (Transition.run (step P) (Db.new settings) before))
    (hsent : .reminder p c ∈ Op.occurrences P (Transition.run (step P) (Db.new settings) (before ++ op :: after))
      (.notifyUnread now)) : t + 3300 < now := by
  have hconsistent : ∀ ops, Consistent (Transition.run (step P) (Db.new settings) ops) :=
    fun ops => Reachable.consistent ⟨settings, ops, rfl⟩
  obtain ⟨⟨cu, quoted⟩, hcu, he⟩ := List.mem_map.mp hsent
  cases he
  obtain ⟨hrow, hdue, -⟩ := mem_notifyUnread_iff.mp hcu
  have hget := Table.get?_of_mem hrow
  rw [Transition.run_append, Transition.run_cons] at hget
  generalize hdb : Transition.run (step P) (Db.new settings) before = db at hget hread
  have hc : Consistent db := hdb ▸ hconsistent before
  have hrecent : t ≤ cu.lastReadAt + 300 := by
    apply run_lastReadAt P (fun time => t ≤ time + 300) _ _ after _ _ hget
    · exact (step_changes P db op).invariant (fun _ _ => Change.consistent) hc
    · intro read hmarked
      obtain ⟨now', hevent⟩ := Op.read_of_reading_mem P hread
      obtain ⟨hstep, htime'⟩ := step_of_reminderEvent P hevent
      cases htime.symm.trans htime'
      rw [hstep, ReminderEvent.step, ConversationUser.index, markRead_row, if_pos rfl] at hmarked
      obtain ⟨row, -, rfl⟩ := Option.map_eq_some_iff.mp hmarked
      exact le_readAt _ row
    · intro t' ht'
      exact (hafter t' ht').trans (Nat.le_add_right t' 300)
  have hlate : cu.lastReadAt + 3600 < now := by
    simp only [ConversationUser.overdue, Bool.and_eq_true, decide_eq_true_eq] at hdue
    exact hdue.2
  omega

/-- The second look of bob is not recorded, and the reminder comes within the hour. -/
theorem bob_looks_twice :
    let before : List Op := [.signUp "ann@blnkk.com" "ann", .signUp "bob@blnkk.com" "bob", annFindsBob 10 "hello",
      .conversationRead 2000 2 (some 2) (some 1)]
    .reminder 2 1 ∈ Op.occurrences .plain (Transition.run (step .plain) (Db.new {})
        (before ++ .showConversation 2200 2 1 :: [annFindsBob 2300 "thanks"])) (.notifyUnread 5601) ∧ 2200 + 3300 < 5601 := by
  intro before
  have hsent : .reminder 2 1 ∈ Op.occurrences .plain (Transition.run (step .plain) (Db.new {})
      (before ++ .showConversation 2200 2 1 :: [annFindsBob 2300 "thanks"])) (.notifyUnread 5601) := by decide +kernel
  exact ⟨hsent, recent_reader_left_alone .plain {} before [annFindsBob 2300 "thanks"] (.showConversation 2200 2 1) 2200
    2 1 5601 rfl (by decide) (by decide +kernel) hsent⟩

end Blnkk
