import Blnkk.PostOutcome
import Blnkk.Reminders

/-!
Which message the half-hourly reminder quotes, against what the participant has
read.
-/

namespace Blnkk

open Relational ConversationsSocket

/-- A message in the conversation of the row that somebody else wrote. -/
def ConversationUser.Addressed (cu : ConversationUser) (m : Message) : Prop :=
  m.conversationId = cu.conversationId ∧ m.userId ≠ some cu.userId

theorem ConversationUser.addressed_congr {cu cu' : ConversationUser} (hi : cu'.index = cu.index) {m : Message} :
    cu'.Addressed m ↔ cu.Addressed m := by
  obtain ⟨hc, hp⟩ := Prod.mk.inj hi
  rw [Addressed, Addressed, hc, hp]

/-- The rows know of all that has been read. `seen (c, p)` are the messages that were
there when `p` marked `c` as read. -/
structure ReadUpTo (now : ℕ) (seen : ℕ × ℕ → Message → Prop) (db : Db) : Prop where
  past : ∀ m ∈ db.messages.rows, m.updatedAt ≤ now
  author : ∀ m ∈ db.messages.rows, ∀ q, m.userId = some q → db.conversationUsers.has (m.conversationId, q) = true
  stored : ∀ k m, seen k m → m ∈ db.messages.rows
  unread : ∀ cu ∈ db.conversationUsers.rows, cu.unread = false → ∀ m ∈ db.messages.rows, cu.Addressed m →
    m.updatedAt ≤ cu.lastReadAt
  read : ∀ cu ∈ db.conversationUsers.rows, ∀ m, seen cu.index m → cu.Addressed m → m.updatedAt ≤ cu.lastReadAt

/-- The rows are old ones that are as unread as before, or have just been added. -/
structure RowsFrom (now : ℕ) (db db' : Db) : Prop where
  messages : db'.messages = db.messages
  kept : ∀ k, db.conversationUsers.has k = true → db'.conversationUsers.has k = true
  rows : ∀ cu' ∈ db'.conversationUsers.rows,
    (∃ cu ∈ db.conversationUsers.rows, cu'.index = cu.index ∧ cu'.lastReadAt = cu.lastReadAt ∧
      (cu'.unread = false → cu.unread = false)) ∨ cu'.lastReadAt = now

namespace RowsFrom

variable {now : ℕ} {db db' db'' : Db}

theorem refl (now : ℕ) (db : Db) : RowsFrom now db db :=
  ⟨rfl, fun _ hk => hk, fun cu hcu => Or.inl ⟨cu, hcu, rfl, rfl, fun hu => hu⟩⟩

theorem grows (h : RowsFrom now db db') : db.messages.rows <+: db'.messages.rows :=
  ⟨[], by rw [h.messages, List.append_nil]⟩

theorem trans (h : RowsFrom now db db') (h' : RowsFrom now db' db'') : RowsFrom now db db'' where
  messages := h'.messages.trans h.messages
  kept := fun k hk => h'.kept k (h.kept k hk)
  rows := by
    intro cu'' hcu''
    rcases h'.rows cu'' hcu'' with ⟨cu', hcu', hi', hl', hu'⟩ | hnow
    · rcases h.rows cu' hcu' with ⟨cu, hcu, hi, hl, hu⟩ | hnow
      · exact Or.inl ⟨cu, hcu, hi'.trans hi, hl'.trans hl, fun hf => hu (hu' hf)⟩
      · exact Or.inr (hl'.trans hnow)
    · exact Or.inr hnow

theorem of_eq (hm : db'.messages = db.messages) (hrows : db'.conversationUsers = db.conversationUsers) :
    RowsFrom now db db' := by
  refine ⟨hm, fun k hk => by rwa [hrows], fun cu hcu => Or.inl ⟨cu, ?_, rfl, rfl, fun hu => hu⟩⟩
  rwa [hrows] at hcu

theorem of_append {l : List ConversationUser} (hm : db'.messages = db.messages)
    (hrows : db'.conversationUsers.rows = db.conversationUsers.rows ++ l) (hl : ∀ cu ∈ l, cu.lastReadAt = now) :
    RowsFrom now db db' where
  messages := hm
  kept := fun k hk => (Table.has_append hrows k).mpr (Or.inl hk)
  rows := by
    intro cu' hcu'
    rw [hrows] at hcu'
    rcases List.mem_append.mp hcu' with hold | hnew
    · exact Or.inl ⟨cu', hold, rfl, rfl, fun hu => hu⟩
    · exact Or.inr (hl cu' hnew)

theorem notified {p : ConversationUser → Bool} (hm : db'.messages = db.messages)
    (hrows : db'.conversationUsers =
      db.conversationUsers.updateWhere p (fun cu => { cu with notified := true }) (fun _ => rfl)) :
    RowsFrom now db db' where
  messages := hm
  kept := fun k hk => by
    rw [hrows, Table.has_updateWhere]
    exact hk
  rows := by
    intro cu' hcu'
    rw [hrows] at hcu'
    obtain ⟨cu, hcu, rfl⟩ := Table.mem_updateWhere.mp hcu'
    refine Or.inl ⟨cu, hcu, ?_⟩
    split <;> exact ⟨rfl, rfl, fun hu => hu⟩

theorem opened {me t c : ℕ} (h : createConversation db now me t = .ok (c, db')) : RowsFrom now db db' := by
  obtain ⟨-, table, rfl, hrows⟩ := createConversation_ok h
  exact of_append rfl hrows (by simp)

theorem half {me t : ℕ} (h : createConversation db now me t = .error db') : RowsFrom now db db' := by
  obtain ⟨table, rfl, ⟨hrows, -⟩ | ⟨hrows, -⟩⟩ := createConversation_error h
  · exact of_append (l := []) rfl (hrows.trans (List.append_nil _).symm) (by simp)
  · exact of_append rfl hrows (by simp)

theorem emailed (now : ℕ) (db : Db) (conversation user : ℕ) (draft : Message.Draft) :
    RowsFrom now db (notifyByEmail db conversation user draft).1 :=
  notified (notifyByEmail_messages db conversation user draft) (notifyByEmail_rows db conversation user draft)

theorem delivered (now : ℕ) (online : List ℕ) (me conversation : ℕ) (isNew : Bool) (systemMessage : Option Message.Draft)
    (draft : Message.Draft) (users : List ℕ) (db : Db) (events : List Event) :
    RowsFrom now db (deliver online me conversation isNew systemMessage draft users (db, events)).1 :=
  deliver_relation (refl now) trans (fun db user => emailed now db conversation user draft) online me isNew
    systemMessage users db events

end RowsFrom

namespace ReadUpTo

variable {now : ℕ} {seen : ℕ × ℕ → Message → Prop} {db db' : Db}

theorem later (h : ReadUpTo now seen db) {now' : ℕ} (hnow : now ≤ now') : ReadUpTo now' seen db :=
  { h with past := fun m hm => (h.past m hm).trans hnow }

theorem fewer (h : ReadUpTo now seen db) {seen' : ℕ × ℕ → Message → Prop} (hs : ∀ k m, seen' k m → seen k m) :
    ReadUpTo now seen' db :=
  { h with
    stored := fun k m hm => h.stored k m (hs k m hm)
    read := fun cu hcu m hm => h.read cu hcu m (hs _ m hm) }

theorem rowsFrom (h : ReadUpTo now seen db) (hrows : RowsFrom now db db') : ReadUpTo now seen db' where
  past := by
    rw [hrows.messages]
    exact h.past
  author := by
    rw [hrows.messages]
    exact fun m hm q hq => hrows.kept _ (h.author m hm q hq)
  stored := by
    rw [hrows.messages]
    exact h.stored
  unread := by
    rw [hrows.messages]
    intro cu' hcu' hu m hm hto
    rcases hrows.rows cu' hcu' with ⟨cu, hcu, hi, hl, hflag⟩ | hnow
    · rw [hl]
      exact h.unread cu hcu (hflag hu) m hm ((ConversationUser.addressed_congr hi).mp hto)
    · rw [hnow]
      exact h.past m hm
  read := by
    intro cu' hcu' m hm hto
    rcases hrows.rows cu' hcu' with ⟨cu, hcu, hi, hl, -⟩ | hnow
    · rw [hi] at hm
      rw [hl]
      exact h.read cu hcu m hm ((ConversationUser.addressed_congr hi).mp hto)
    · rw [hnow]
      exact h.past m (h.stored _ m hm)

/-- A message makes the conversation unread for all whom it is for. -/
theorem received (h : ReadUpTo now seen db) {c me : ℕ} (hme : db.conversationUsers.has (c, me) = true)
    (systemGenerated : Bool) (text : String) :
    ReadUpTo now seen
      (Message.updateUnreadStatus (Message.store db now c (some me) systemGenerated text) now c (some me)) := by
  generalize hdb' : Message.updateUnreadStatus (Message.store db now c (some me) systemGenerated text) now c (some me) = db'
  have hmem : ∀ m ∈ db'.messages.rows, m ∈ db.messages.rows ∨
      (m.updatedAt = now ∧ m.conversationId = c ∧ m.userId = some me) := by
    intro m hm
    rw [← hdb'] at hm
    rcases List.mem_append.mp hm with hm | hm
    · exact Or.inl hm
    · rw [List.mem_singleton.mp hm]
      exact Or.inr ⟨rfl, rfl, rfl⟩
  have hold : ∀ m ∈ db.messages.rows, m ∈ db'.messages.rows := by
    intro m hm
    rw [← hdb']
    exact List.mem_append_left _ hm
  have htable : db'.conversationUsers = db.conversationUsers.updateWhere
      (fun cu => decide (cu.conversationId = c) && decide (some cu.userId ≠ some me)) (Message.flagUnread true) := by
    rw [← hdb']
    rfl
  have hkept : ∀ k, db'.conversationUsers.has k = db.conversationUsers.has k := by
    intro k
    rw [htable]
    exact Table.has_updateWhere _ _ (Message.flagUnread true) (fun _ => rfl) k
  have hrows : ∀ cu' ∈ db'.conversationUsers.rows, ∃ cu ∈ db.conversationUsers.rows, cu'.index = cu.index ∧
      cu'.lastReadAt = cu.lastReadAt ∧
      (cu'.unread = false → cu.unread = false ∧ ¬ (cu.conversationId = c ∧ some cu.userId ≠ some me)) := by
    intro cu' hcu'
    rw [htable] at hcu'
    obtain ⟨cu, hcu, rfl⟩ := Table.mem_updateWhere.mp hcu'
    refine ⟨cu, hcu, ?_⟩
    split
    · exact ⟨rfl, rfl, fun hu => absurd hu Bool.noConfusion⟩
    · rename_i hto
      exact ⟨rfl, rfl, fun hu => ⟨hu, by simpa using hto⟩⟩
  refine ⟨fun m hm => ?_, fun m hm q hq => ?_, fun k m hm => hold m (h.stored k m hm), ?_, ?_⟩
  · rcases hmem m hm with hm | ⟨ht, -, -⟩
    · exact h.past m hm
    · exact ht.le
  · rw [hkept]
    rcases hmem m hm with hm | ⟨-, hc, hu⟩
    · exact h.author m hm q hq
    · rw [hu] at hq
      cases hq
      rw [hc]
      exact hme
  · intro cu' hcu' hu m hm hto
    obtain ⟨cu, hcu, hi, hl, hflag⟩ := hrows cu' hcu'
    obtain ⟨hu, hnot⟩ := hflag hu
    rw [ConversationUser.addressed_congr hi] at hto
    rw [hl]
    rcases hmem m hm with hm | ⟨-, hc, hme⟩
    · exact h.unread cu hcu hu m hm hto
    · rw [ConversationUser.Addressed, hc, hme] at hto
      exact absurd ⟨hto.1.symm, hto.2.symm⟩ hnot
  · intro cu' hcu' m hm hto
    obtain ⟨cu, hcu, hi, hl, -⟩ := hrows cu' hcu'
    rw [hi] at hm
    rw [hl]
    exact h.read cu hcu m hm ((ConversationUser.addressed_congr hi).mp hto)

theorem create (h : ReadUpTo now seen db) (P : Platform) {c me : ℕ} (hme : db.conversationUsers.has (c, me) = true)
    (systemGenerated : Bool) (content : Option String) :
    ReadUpTo now seen (Message.save P db now c (some me) systemGenerated content).2 := by
  rcases Message.save_cases P db now c (some me) systemGenerated content with hcreated | ⟨text, hcreated⟩
  · rw [hcreated]
    exact h
  · rw [hcreated]
    exact h.received hme systemGenerated text

theorem announce (h : ReadUpTo now seen db) (P : Platform) {c me : ℕ} (hme : db.conversationUsers.has (c, me) = true)
    (request : Option Request) : ReadUpTo now seen (announce P db now me c request).1 := by
  rcases announce_cases P db now me c request with ha | ⟨r, -, ha⟩
  · rw [ha]
    exact h
  · have hcreated := h.create P hme true (some (systemContent r))
    rw [ha]
    exact hcreated.rowsFrom (.of_eq (joinRequest_messages ..) (joinRequest_rows ..))

theorem reaches (h : ReadUpTo now seen db) {me c : ℕ} {payload : Payload} {base : Db} {isNew : Bool}
    (hreach : payload.Reaches db now me base c isNew) :
    ReadUpTo now seen base ∧ base.conversationUsers.has (c, me) = true := by
  cases hreach with
  | existing c hex => exact ⟨h, Payload.existing?_has hex⟩
  | fresh t created hex hpartner hne hcreated =>
    exact ⟨h.rowsFrom (.opened hcreated), createConversation_has hcreated⟩

theorem post (h : ReadUpTo now seen db) (hc : Consistent db) (P : Platform) (online : List ℕ) (me : ℕ)
    (payload : Payload) : ReadUpTo now seen (postMessage P db now online me payload).1 := by
  cases hm : db.users.has me with
  | false =>
    rw [postMessage_unknown P now online hm payload]
    exact h
  | true =>
    have hout := postMessage_outcome P hc now online hm payload
    generalize postMessage P db now online me payload = result at hout ⊢
    cases hout with
    | refused answer => exact h
    | half left hex hpartner hleft => exact h.rowsFrom (.half hleft)
    | stopped base c isNew answer hreach =>
      obtain ⟨hbase, hme⟩ := h.reaches hreach
      exact hbase.announce P hme _
    | delivered base c isNew part created hreach haccepted hcreated =>
      obtain ⟨hbase, hme⟩ := h.reaches hreach
      have hannounced := hbase.announce P hme (payload.request? db me)
      have hstored := hannounced.create P ((announce_has ..).trans hme) false part.text
      rw [hcreated] at hstored
      exact hstored.rowsFrom (.delivered ..)

theorem markRead (h : ReadUpTo now seen db) (c p : ℕ) :
    ReadUpTo now (fun k m => seen k m ∨ k = (c, p) ∧ m ∈ db.messages.rows)
      (Conversation.markRead db now c p) := by
  have hread : ∀ cu ∈ db.conversationUsers.rows, ∀ m ∈ db.messages.rows, cu.Addressed m →
      m.updatedAt ≤ (Conversation.readAt now cu).lastReadAt := by
    intro cu hcu m hm hto
    unfold Conversation.readAt
    split_ifs with hu
    · exact h.past m hm
    · exact h.past m hm
    · exact h.unread cu hcu (Bool.eq_false_iff.mpr hu) m hm hto
  have htable : (Conversation.markRead db now c p).conversationUsers = db.conversationUsers.updateWhere
      (fun cu => decide (cu.index = (c, p))) (Conversation.readAt now) (Conversation.readAt_index now) := rfl
  have hrows : ∀ cu' ∈ (Conversation.markRead db now c p).conversationUsers.rows, ∃ cu ∈ db.conversationUsers.rows,
      cu'.index = cu.index ∧
        ((∀ m ∈ db.messages.rows, cu.Addressed m → m.updatedAt ≤ cu'.lastReadAt) ∨ cu' = cu ∧ cu.index ≠ (c, p)) := by
    intro cu' hcu'
    rw [htable] at hcu'
    obtain ⟨cu, hcu, rfl⟩ := Table.mem_updateWhere.mp hcu'
    refine ⟨cu, hcu, ?_⟩
    split
    · exact ⟨Conversation.readAt_index now cu, Or.inl (hread cu hcu)⟩
    · rename_i hne
      exact ⟨rfl, Or.inr ⟨rfl, by simpa using hne⟩⟩
  refine ⟨h.past, fun m hm q hq => ?_, ?_, ?_, ?_⟩
  · exact (Table.has_update _ _ _ (Conversation.readAt_index now) _).trans (h.author m hm q hq)
  · rintro k m (hm | ⟨-, hm⟩)
    · exact h.stored k m hm
    · exact hm
  · intro cu' hcu' hu m hm hto
    obtain ⟨cu, hcu, hi, hcovered | ⟨rfl, -⟩⟩ := hrows cu' hcu'
    · exact hcovered m hm ((ConversationUser.addressed_congr hi).mp hto)
    · exact h.unread cu' hcu hu m hm hto
  · intro cu' hcu' m hseen hto
    obtain ⟨cu, hcu, hi, hcovered | ⟨rfl, hne⟩⟩ := hrows cu' hcu'
    · refine hcovered m ?_ ((ConversationUser.addressed_congr hi).mp hto)
      rcases hseen with hm | ⟨-, hm⟩
      · exact h.stored _ m hm
      · exact hm
    · rcases hseen with hm | ⟨hk, -⟩
      · exact h.read cu' hcu m hm hto
      · exact absurd hk hne

end ReadUpTo

namespace ReminderEvent

def time : ReminderEvent → ℕ
  | post now _ _ _ => now
  | read now _ _ => now
  | notifyUnread now => now

end ReminderEvent

/-- The message was there at a reading of the conversation by `p`. -/
def Seen (P : Platform) (db : Db) (events : List ReminderEvent) (c p : ℕ) (m : Message) : Prop :=
  ∃ before now after, events = before ++ .read now c p :: after ∧
    m ∈ (Transition.run (ReminderEvent.step P) db before).messages.rows

section Run

variable (P : Platform) (db : Db)

theorem seen_concat (events : List ReminderEvent) (event : ReminderEvent) (c p : ℕ) (m : Message) :
    Seen P db (events ++ [event]) c p m ↔
      Seen P db events c p m ∨
        (∃ now, event = .read now c p) ∧ m ∈ (Transition.run (ReminderEvent.step P) db events).messages.rows := by
  constructor
  · rintro ⟨before, now, after, hl, hm⟩
    rcases History.concat_eq_split.mp hl with ⟨rfl, rfl, rfl⟩ | ⟨rest, rfl, rfl⟩
    · exact Or.inr ⟨⟨now, rfl⟩, hm⟩
    · exact Or.inl ⟨before, now, rest, rfl, hm⟩
  · rintro (⟨before, now, after, rfl, hm⟩ | ⟨⟨now, rfl⟩, hm⟩)
    · exact ⟨before, now, after ++ [event], by simp, hm⟩
    · exact ⟨events, now, [], rfl, hm⟩

theorem ReadUpTo.step {seen : ℕ × ℕ → Message → Prop} {event : ReminderEvent} (h : ReadUpTo event.time seen db)
    (hc : Consistent db) :
    ReadUpTo event.time (fun k m => seen k m ∨ (∃ now, event = .read now k.1 k.2) ∧ m ∈ db.messages.rows)
      (event.step P db) := by
  cases event with
  | post now online me payload => exact (h.post hc P online me payload).fewer (by simp)
  | read now c p =>
    refine (h.markRead c p).fewer ?_
    rintro k m (hm | ⟨⟨t, he⟩, hm⟩)
    · exact Or.inl hm
    · cases he
      exact Or.inr ⟨rfl, hm⟩
  | notifyUnread now =>
    have hrows : RowsFrom now db (ConversationUser.notifyAboutUnreadMessages db now).1 := .notified rfl rfl
    exact (h.rowsFrom hrows).fewer (by simp)

theorem reminderEvents_consistent (hc : Consistent db) (events : List ReminderEvent) :
    Consistent (Transition.run (ReminderEvent.step P) db events) :=
  Transition.run_invariant (ReminderEvent.step P)
    (fun db event hc => (reminderEvent_changes P db event).invariant (fun _ _ => Change.consistent) hc) db hc events

variable {db}

theorem readUpTo_run (hc : Consistent db) (hnone : db.messages.rows = []) {events : List ReminderEvent}
    (hclock : events.Pairwise (fun e e' => e.time ≤ e'.time)) {now : ℕ} (hnow : ∀ e ∈ events, e.time ≤ now) :
    ReadUpTo now (fun k => Seen P db events k.1 k.2) (Transition.run (ReminderEvent.step P) db events) := by
  induction events using List.reverseRecOn generalizing now with
  | nil =>
    have hseen : ∀ c p m, ¬ Seen P db [] c p m := by
      rintro c p m ⟨before, t, after, hl, -⟩
      simp at hl
    refine ⟨?_, ?_, fun k m hm => absurd hm (hseen k.1 k.2 m), ?_, fun cu hcu m hm => absurd hm (hseen _ _ m)⟩
    all_goals simp [Transition.run, hnone]
  | append_singleton events event ih =>
    obtain ⟨hclock, -, hlast⟩ := List.pairwise_append.mp hclock
    have hold := ih hclock (fun e he => hlast e he event (List.mem_singleton_self event))
    rw [Transition.run_concat]
    have hnew := hold.step P _ (reminderEvents_consistent P db hc events)
    exact (hnew.fewer (fun k m => (seen_concat P db events event k.1 k.2 m).mp)).later (hnow event (by simp))

theorem save_message_grows (db : Db) (now c me : ℕ) (systemGenerated : Bool) (content : Option String) :
    db.messages.rows <+: (Message.save P db now c (some me) systemGenerated content).2.messages.rows := by
  rcases Message.save_cases P db now c (some me) systemGenerated content with h | ⟨text, h⟩
  · exact ⟨[], by rw [h, List.append_nil]⟩
  · rw [h]
    exact List.prefix_append _ _

theorem postSteps_messages : PostSteps P (fun db db' => db.messages.rows <+: db'.messages.rows) where
  refl db := List.prefix_rfl
  trans h h' := h.trans h'
  found _ _ h := by
    rcases findOrCreate_ok h with ⟨c, -, -, rfl⟩ | ⟨-, hc⟩
    · exact List.prefix_rfl
    · exact (RowsFrom.opened hc).grows
  half _ h := (RowsFrom.half (findOrCreate_error h).2).grows
  create := save_message_grows P
  join _ _ _ _ _ := List.prefix_rfl
  mail db conversation user draft := (RowsFrom.emailed 0 db conversation user draft).grows

theorem reminderEvent_messages (db : Db) (event : ReminderEvent) :
    db.messages.rows <+: (event.step P db).messages.rows := by
  cases event with
  | post now online me payload => exact (postSteps_messages P).postMessage db now online me payload
  | read now c p => exact List.prefix_rfl
  | notifyUnread now => exact List.prefix_rfl

theorem messages_run (db : Db) (events : List ReminderEvent) :
    db.messages.rows <+: (Transition.run (ReminderEvent.step P) db events).messages.rows :=
  Transition.run_invariant (ReminderEvent.step P) (I := fun db' => db.messages.rows <+: db'.messages.rows)
    (fun db' event h => h.trans (reminderEvent_messages P db' event)) db List.prefix_rfl events

/-- The last of the answers is as new as any of them. -/
theorem unseen_last {events : List ReminderEvent} {cu : ConversationUser} {m m' : Message}
    (hlast : (cu.answers (Transition.run (ReminderEvent.step P) db events)).getLast? = some m)
    (hm' : m' ∈ cu.answers (Transition.run (ReminderEvent.step P) db events)) {c p : ℕ}
    (hunseen : ¬ Seen P db events c p m') : ¬ Seen P db events c p m := by
  rintro ⟨before, now, after, rfl, hm⟩
  obtain ⟨rest, hrest⟩ := messages_run P (Transition.run (ReminderEvent.step P) db before) (.read now c p :: after)
  rw [← Transition.run_append] at hrest
  have hnodup := List.Nodup.of_map _
    (Transition.run (ReminderEvent.step P) db (before ++ .read now c p :: after)).messages.unique
  rw [ConversationUser.answers, ← hrest, List.filter_append] at hlast hm'
  rw [← hrest] at hnodup
  have hnew := (List.mem_append.mp hm').resolve_left
    (fun hold => hunseen ⟨before, now, after, rfl, List.mem_of_mem_filter hold⟩)
  rw [List.getLast?_append_of_ne_nil _ (List.ne_nil_of_mem hnew)] at hlast
  exact List.disjoint_of_nodup_append hnodup hm (List.mem_of_mem_filter (List.mem_of_getLast? hlast))

end Run

theorem mem_answers {db : Db} {cu : ConversationUser} {m : Message} :
    m ∈ cu.answers db ↔ m ∈ db.messages.rows ∧ cu.Addressed m ∧ m.systemGenerated = false ∧ ∃ q, m.userId = some q := by
  simp only [ConversationUser.answers, ConversationUser.Addressed, List.mem_filter, Bool.and_eq_true,
    decide_eq_true_eq, Bool.not_eq_true', Option.isSome_iff_exists]
  tauto

theorem unreadMessage_mem {db : Db} {cu : ConversationUser} {m : Message} (h : cu.unreadMessage db = some m) :
    m ∈ cu.answers db := by
  rcases Option.or_eq_some_iff.mp h with h | ⟨-, h⟩
  · exact List.mem_of_find?_eq_some h
  · exact List.mem_of_getLast? h

/-- Every reminder of the half-hourly task quotes a message that another participant
wrote and that has come since the last reading. -/
def QuotesUnread (P : Platform) (db : Db) (events : List ReminderEvent) : Prop :=
  ∀ before now after, events = before ++ .notifyUnread now :: after →
    ∀ sent ∈ (ConversationUser.notifyAboutUnreadMessages (Transition.run (ReminderEvent.step P) db before) now).2,
      (∃ q, sent.2.userId = some q ∧ q ≠ sent.1.userId ∧
        (Transition.run (ReminderEvent.step P) db before).conversationUsers.has (sent.1.conversationId, q) = true) ∧
      ¬ Seen P db before sent.1.conversationId sent.1.userId sent.2

/-- Whenever the task runs, a participant who is due for a reminder and has ever been
written to by somebody else has been written to since the last reading. -/
def WrittenSince (P : Platform) (db : Db) (events : List ReminderEvent) : Prop :=
  ∀ before now after, events = before ++ .notifyUnread now :: after →
    ∀ cu ∈ (Transition.run (ReminderEvent.step P) db before).conversationUsers.rows, cu.overdue now = true →
      cu.answers (Transition.run (ReminderEvent.step P) db before) ≠ [] →
      ∃ m ∈ cu.answers (Transition.run (ReminderEvent.step P) db before),
        ¬ Seen P db before cu.conversationId cu.userId m

theorem quotes_unread_iff (P : Platform) (db : Db) (hdb : Reachable P db) (hnone : db.messages.rows = [])
    (events : List ReminderEvent) (hclock : events.Pairwise (fun e e' => e.time ≤ e'.time)) :
    QuotesUnread P db events ↔ WrittenSince P db events := by
  constructor
  · intro h before now after hevents cu hcu hdue hne
    have hsome : (cu.unreadMessage (Transition.run (ReminderEvent.step P) db before)).isSome = true := by
      simp [ConversationUser.unreadMessage, hne]
    obtain ⟨m, hm⟩ := Option.isSome_iff_exists.mp hsome
    have hsent := mem_notifyUnread_iff.mpr ⟨hcu, hdue, hm⟩
    exact ⟨m, unreadMessage_mem hm, (h before now after hevents (cu, m) hsent).2⟩
  · rintro h before now after rfl ⟨cu, m⟩ hsent
    obtain ⟨hcu, hdue, hm⟩ := mem_notifyUnread_iff.mp hsent
    obtain ⟨hclock, -, hlast⟩ := List.pairwise_append.mp hclock
    have hread := readUpTo_run P hdb.consistent hnone hclock (fun e he => hlast e he _ List.mem_cons_self)
    obtain ⟨hrow, hto, -, q, hq⟩ := mem_answers.mp (unreadMessage_mem hm)
    have hauthor := hread.author m hrow q hq
    rw [hto.1] at hauthor
    refine ⟨⟨q, hq, fun he => hto.2 (he ▸ hq), hauthor⟩, ?_⟩
    rcases Option.or_eq_some_iff.mp hm with hfind | ⟨-, hlast⟩
    · intro hseen
      have hle := hread.read cu hcu m hseen hto
      have hlt : cu.lastReadAt < m.updatedAt := by simpa using List.find?_some hfind
      omega
    · obtain ⟨m', hm', hunseen⟩ := h before now after rfl cu hcu hdue (List.ne_nil_of_mem (unreadMessage_mem hm))
      exact unseen_last P hlast hm' hunseen

def bobSeeksBike : Db :=
  Transition.run (step .plain) (Db.new {})
    [.signUp "ann@blnkk.com" "ann", .signUp "bob@blnkk.com" "bob", .createRequest 2 "bike" "wanted" none]

def annTellsBob (now : ℕ) (content : String) : ReminderEvent :=
  .post now [1, 2] 1 { message := some { content := some content }, userId := some 2 }

def annAnswersRequest (now : ℕ) (content : String) : ReminderEvent :=
  .post now [1, 2] 1 { message := some { content := some content }, requestId := some 1 }

theorem only_task_at_end {events before after : List ReminderEvent} {now now' : ℕ}
    (h : events ++ [.notifyUnread now] = before ++ .notifyUnread now' :: after)
    (hevents : ∀ t, ReminderEvent.notifyUnread t ∉ events) : before = events ∧ now' = now := by
  rcases History.concat_eq_split.mp h with ⟨hb, ht, -⟩ | ⟨rest, rfl, -⟩
  · cases ht
    exact ⟨hb, rfl⟩
  · exact absurd (by simp) (hevents now')

theorem bob_quoted_second_message :
    (ConversationUser.notifyAboutUnreadMessages (Transition.run (ReminderEvent.step .plain) bobSeeksBike
        [annTellsBob 10 "hello", .read 20 1 2, annTellsBob 20 "are you there?"]) 9000).2.map
        (fun sent => (sent.1.userId, sent.2.content)) = [(2, "are you there?")] ∧
      QuotesUnread .plain bobSeeksBike
        [annTellsBob 10 "hello", .read 20 1 2, annTellsBob 20 "are you there?", .notifyUnread 9000] := by
  refine ⟨by decide +kernel, ?_⟩
  refine (quotes_unread_iff .plain bobSeeksBike ⟨{}, _, rfl⟩ (by decide +kernel) _ (by decide)).mpr ?_
  intro before now after hevents cu hcu hdue hne
  have hsplit : [annTellsBob 10 "hello", .read 20 1 2, annTellsBob 20 "are you there?"] ++ [.notifyUnread 9000] =
      before ++ .notifyUnread now :: after := hevents
  obtain ⟨rfl, rfl⟩ := only_task_at_end hsplit (by simp [annTellsBob])
  have hdues : (Transition.run (ReminderEvent.step .plain) bobSeeksBike
      [annTellsBob 10 "hello", .read 20 1 2, annTellsBob 20 "are you there?"]).conversationUsers.rows.filter
        (ConversationUser.overdue 9000) =
      [⟨1, 2, true, 20, false⟩] := by decide +kernel
  have hbob := List.mem_filter.mpr ⟨hcu, hdue⟩
  rw [hdues] at hbob
  obtain rfl := List.mem_singleton.mp hbob
  refine ⟨⟨2, 1, some 1, false, "are you there?", 20, 20⟩, by decide +kernel, fun hseen => ?_⟩
  rcases (seen_concat _ _ [annTellsBob 10 "hello", .read 20 1 2] _ _ _ _).mp hseen with hseen | ⟨⟨t, he⟩, -⟩
  · rcases (seen_concat _ _ [annTellsBob 10 "hello"] _ _ _ _).mp hseen with hseen | ⟨-, hm⟩
    · rcases (seen_concat _ _ [] _ _ _ _).mp hseen with ⟨before, t, after, hl, -⟩ | ⟨⟨t, he⟩, -⟩
      · simp at hl
      · simp [annTellsBob] at he
    · revert hm
      decide +kernel
  · simp [annTellsBob] at he

theorem announcement_quotes_read_message :
    Reachable .plain bobSeeksBike ∧ bobSeeksBike.messages.rows = [] ∧
      [annTellsBob 10 "hello", .read 20 1 2, annAnswersRequest 30 " ", .notifyUnread 9000].Pairwise
        (fun e e' => e.time ≤ e'.time) ∧
      ¬ QuotesUnread .plain bobSeeksBike
        [annTellsBob 10 "hello", .read 20 1 2, annAnswersRequest 30 " ", .notifyUnread 9000] := by
  refine ⟨⟨{}, _, rfl⟩, by decide +kernel, by decide, fun h => ?_⟩
  have hsent : (⟨1, 2, true, 20, false⟩, ⟨1, 1, some 1, false, "hello", 10, 10⟩) ∈
      (ConversationUser.notifyAboutUnreadMessages (Transition.run (ReminderEvent.step .plain) bobSeeksBike
        [annTellsBob 10 "hello", .read 20 1 2, annAnswersRequest 30 " "]) 9000).2 := by decide +kernel
  refine (h [annTellsBob 10 "hello", .read 20 1 2, annAnswersRequest 30 " "] 9000 [] rfl _ hsent).2 ?_
  exact ⟨[annTellsBob 10 "hello"], 20, [annAnswersRequest 30 " "], rfl, by decide +kernel⟩

end Blnkk
