import Blnkk.MessageRows
import Blnkk.MessageTarget

/-!
Whose conversations the events of a socket connection act on. Each handler
checks the ids of its payload in its own way, and two of them do not check
whether the sender takes part in the conversation.
-/

namespace Blnkk

open Relational ConversationsSocket

namespace ConversationsSocket

def Event.conversation? : Event → Option ℕ
  | .success _ conversation => some conversation
  | .conversationNew _ conversation _ _ _ => some conversation
  | .messageNew _ conversation _ _ _ => some conversation
  | .conversationReply _ conversation _ => some conversation
  | .userIsTyping _ conversation _ => some conversation
  | _ => none

inductive Incoming where
  | postMessage (now : ℕ) (online : List ℕ) (payload : Payload)
  | conversationRead (now : ℕ) (userId conversationId : Option ℕ)
  | isTyping (conversationId : Option ℕ) (typing : Param)
  | watchUsersStatus (online : List ℕ) (userIds : Option (List ℕ))
  deriving DecidableEq

def handle (P : Platform) (db : Db) (me : ℕ) : Incoming → Db × List Event
  | .postMessage now online payload => postMessage P db now online me payload
  | .conversationRead now userId conversationId => conversationRead db now me userId conversationId
  | .isTyping conversationId typing => (db, isTyping db me conversationId typing)
  | .watchUsersStatus online userIds => (db, watchUsersStatus db online me userIds)

end ConversationsSocket

def MarksRead (cu cu' : ConversationUser) : Prop :=
  cu'.lastReadAt ≠ cu.lastReadAt ∨ (cu.unread = true ∧ cu'.unread = false)

/-- Takes part now, and did before if the conversation is an old one. -/
def TakesPart (db db' : Db) (a c : ℕ) : Prop :=
  db'.conversationUsers.has (c, a) = true ∧ (db.conversations.has c = true → db.conversationUsers.has (c, a) = true)

structure OwnConversationsOnly (db : Db) (a : ℕ) (result : Db × List Event) : Prop where
  readings : ∀ cu ∈ db.conversationUsers.rows, cu.userId ≠ a →
    ∃ cu', result.1.conversationUsers.get? cu.index = some cu' ∧ ¬ MarksRead cu cu'
  messages : ∀ m ∈ result.1.messages.rows, m ∉ db.messages.rows → TakesPart db result.1 a m.conversationId
  events : ∀ e ∈ result.2, ∀ c, e.conversation? = some c → TakesPart db result.1 a c

theorem TakesPart.of_has {db db' : Db} {a c : ℕ} (hch : Changes db db') (h : db'.conversationUsers.has (c, a) = true) :
    TakesPart db db' a c := by
  refine ⟨h, fun hc => ?_⟩
  rw [← mem_participants, ← hch.participants hc, mem_participants]
  exact h

theorem KeepsRows.readings {db db' : Db} (hk : KeepsRows db db') (cu : ConversationUser)
    (hcu : cu ∈ db.conversationUsers.rows) :
    ∃ cu', db'.conversationUsers.get? cu.index = some cu' ∧ ¬ MarksRead cu cu' := by
  obtain ⟨cu', hget, hlast, hflag⟩ := hk _ _ (Table.get?_of_mem hcu)
  refine ⟨cu', hget, ?_⟩
  rintro (hne | ⟨hu, hu'⟩)
  · exact hne hlast
  · rw [(hflag hu).1] at hu'
    cases hu'

theorem findOrCreate_member {db db' : Db} {now me t c : ℕ} {isNew : Bool}
    (h : findOrCreate db now me t = .ok (c, isNew, db')) : db'.conversationUsers.has (c, me) = true := by
  rcases findOrCreate_ok h with ⟨shared, hs, rfl, rfl⟩ | ⟨-, hk⟩
  · exact (mem_participants _ _ _).mp (sharedConversation_some hs).2.2
  · obtain ⟨rfl, t', rfl, ht⟩ := createConversation_ok hk
    exact (Table.has_append ht _).mpr (Or.inr ⟨_, List.mem_cons_self, rfl⟩)

theorem requestBranch_messages (P : Platform) (db : Db) (now me : ℕ) (request : Request) :
    ∀ m ∈ (requestBranch P db now me request).db.messages.rows, m ∈ db.messages.rows ∨
      (requestBranch P db now me request).db.conversationUsers.has (m.conversationId, me) = true := by
  unfold requestBranch
  split_ifs
  · exact fun m hm => Or.inl hm
  · cases h : findOrCreate db now me request.userId with
    | error left =>
      intro m hm
      exact Or.inl (findOrCreate_left h ▸ hm)
    | ok found =>
      obtain ⟨c, isNew, db'⟩ := found
      rcases Message.create_cases P db' now c (some me) true (some (systemContent request)) with ⟨-, hc⟩ | ⟨-, hc⟩
      · simp only [hc, Lookup.db]
        exact fun m hm => Or.inl (findOrCreate_messages h ▸ hm)
      · simp only [hc, Lookup.db, joinRequest_messages, joinRequest_rows]
        intro m hm
        rcases save_message_mem hm with hm | rfl
        · exact Or.inl (findOrCreate_messages h ▸ hm)
        · exact Or.inr ((save_message_keeps P db' now m.conversationId (some me) true _).has (findOrCreate_member h))
  · exact fun m hm => Or.inl hm

theorem lookup_messages (P : Platform) (db : Db) (now me : ℕ) (payload : Payload) :
    ∀ m ∈ (lookup P db now me payload).db.messages.rows, m ∈ db.messages.rows ∨
      (lookup P db now me payload).db.conversationUsers.has (m.conversationId, me) = true := by
  unfold lookup
  cases payload.message.bind MessagePart.conversationId with
  | some id => exact fun m hm => Or.inl hm
  | none =>
    cases payload.requestId with
    | some requestId =>
      cases hr : db.requests.get? requestId with
      | none =>
        simp only [hr]
        exact fun m hm => Or.inl hm
      | some request => simpa only [hr] using requestBranch_messages P db now me request
    | none =>
      cases payload.userId with
      | none => exact fun m hm => Or.inl hm
      | some t =>
        simp only [userBranch]
        split_ifs
        · cases h : findOrCreate db now me t with
          | error left => exact fun m hm => Or.inl (findOrCreate_left h ▸ hm)
          | ok found => exact fun m hm => Or.inl (findOrCreate_messages h ▸ hm)
        · exact fun m hm => Or.inl hm

theorem notifyByEmail_conversation (db : Db) (conversation user : ℕ) (draft : Message.Draft) :
    ∀ e ∈ (notifyByEmail db conversation user draft).2, ∀ c, e.conversation? = some c → c = conversation := by
  rcases notifyByEmail_cases db conversation user draft with h | h | h <;> rw [h] <;> simp [Event.conversation?]

theorem deliver_conversation (online : List ℕ) (me conversation : ℕ) (isNew : Bool)
    (systemMessage : Option Message.Draft) (draft : Message.Draft) (users : List ℕ) (db : Db) (events : List Event)
    (he : ∀ e ∈ events, ∀ c, e.conversation? = some c → c = conversation) :
    ∀ e ∈ (deliver online me conversation isNew systemMessage draft users (db, events)).2, ∀ c,
      e.conversation? = some c → c = conversation := by
  induction users generalizing db events with
  | nil => exact he
  | cons user rest ih =>
    simp only [deliver]
    apply ih
    intro e hm c hc
    rcases List.mem_append.mp hm with hm | hm
    · exact he e hm c hc
    · split_ifs at hm
      · rw [List.mem_singleton.mp hm] at hc
        cases hc
        rfl
      · simp only [List.mem_append, Option.mem_toList, Option.map_eq_some_iff, List.mem_singleton] at hm
        rcases hm with ⟨s, -, rfl⟩ | rfl
        · cases hc
          rfl
        · cases hc
          rfl
      · exact notifyByEmail_conversation db conversation user draft e hm c hc

theorem postMessage_own (P : Platform) (db : Db) (now : ℕ) (online : List ℕ) (me : ℕ) (payload : Payload) :
    OwnConversationsOnly db me (postMessage P db now online me payload) := by
  have hch := postMessage_changes P db now online me payload
  have hkeeps := postMessage_keeps P db now online me payload
  have hold := lookup_messages P db now me payload
  refine ⟨fun cu hcu _ => hkeeps.readings cu hcu, ?_, ?_⟩
  · intro m hm hnew
    apply TakesPart.of_has hch
    rcases postMessage_cases P db now online me payload with
      ⟨left, answer, he, rfl | rfl, -⟩ | ⟨final, c, isNew, systemMessage, part, created, -, hl, hhas, -, rfl, he⟩
    · rw [he] at hm
      exact absurd hm hnew
    · rw [he] at hm ⊢
      exact (hold m hm).resolve_left hnew
    · have hk : KeepsRows final (postMessage P db now online me payload).1 := by
        rw [he]
        exact (save_message_keeps P final now c (some me) false part.text).trans (deliver_keeps _ _ _ _ _ _ _ _ _)
      rw [hl] at hold
      rw [he, deliver_messages] at hm
      rcases save_message_mem hm with hm | rfl
      · exact hk.has ((hold m hm).resolve_left hnew)
      · exact hk.has hhas
  · intro e hm c hc
    apply TakesPart.of_has hch
    rcases postMessage_cases P db now online me payload with
      ⟨left, answer, he, -, hanswer⟩ | ⟨final, c', isNew, systemMessage, part, created, -, hl, hhas, -, rfl, he⟩
    · rw [he, List.mem_singleton] at hm
      rw [hm] at hc
      rcases hanswer with rfl | ⟨status, rfl⟩ <;> cases hc
    · have hk : KeepsRows final (postMessage P db now online me payload).1 := by
        rw [he]
        exact (save_message_keeps P final now c' (some me) false part.text).trans (deliver_keeps _ _ _ _ _ _ _ _ _)
      have hc' : c = c' := by
        rw [he, List.mem_append, List.mem_singleton] at hm
        rcases hm with hm | rfl
        · exact deliver_conversation online me c' isNew systemMessage _ _ _ [] (fun e he => by cases he) e hm c hc
        · cases hc
          rfl
      rw [hc']
      exact hk.has hhas

theorem OwnConversationsOnly.of_unchanged {db : Db} {a : ℕ} {events : List Event}
    (he : ∀ e ∈ events, ∀ c, e.conversation? = some c → db.conversationUsers.has (c, a) = true) :
    OwnConversationsOnly db a (db, events) :=
  ⟨fun cu hcu _ => (KeepsRows.refl db).readings cu hcu, fun _ hm hnew => absurd hm hnew,
    fun e hm c hc => TakesPart.of_has .refl (he e hm c hc)⟩

theorem readAt_marksRead (now : ℕ) (cu : ConversationUser) :
    MarksRead cu (Conversation.readAt now cu) → cu.unread = true ∨ cu.lastReadAt + 300 < now := by
  unfold MarksRead Conversation.readAt
  split_ifs with hu hl
  · exact fun _ => Or.inl hu
  · exact fun _ => Or.inr hl
  · rintro (h | ⟨h, -⟩)
    · exact absurd rfl h
    · exact Or.inl h

theorem marksRead_readAt (now : ℕ) (cu : ConversationUser) (h : cu.unread = true ∨ cu.lastReadAt + 300 < now) :
    MarksRead cu (Conversation.readAt now cu) := by
  unfold MarksRead Conversation.readAt
  split_ifs with hu hl
  · exact Or.inr ⟨hu, rfl⟩
  · have hne : now ≠ cu.lastReadAt := by omega
    exact Or.inl hne
  · exact absurd h (not_or.mpr ⟨hu, hl⟩)

namespace ConversationsSocket.Incoming

/-- Reading in the name of another participant, when there is something to
write, and typing in a conversation of others. -/
def Trespasses (db : Db) (a : ℕ) : Incoming → Prop
  | conversationRead now (some user) (some conversation) =>
    user ≠ a ∧ ∃ cu, db.conversationUsers.get? (conversation, user) = some cu ∧
      (cu.unread = true ∨ cu.lastReadAt + 300 < now)
  | isTyping (some conversation) _ =>
    db.conversationUsers.has (conversation, a) = false ∧ ∃ p, db.conversationUsers.has (conversation, p) = true
  | _ => False

end ConversationsSocket.Incoming

theorem isTyping_conversation {db : Db} {a : ℕ} {conversationId : Option ℕ} {typing : Param} {e : Event} {c : ℕ}
    (he : e ∈ isTyping db a conversationId typing) (hc : e.conversation? = some c) :
    conversationId = some c ∧ db.users.has a = true ∧ ∃ p, db.conversationUsers.has (c, p) = true := by
  unfold isTyping at he
  split_ifs at he with ha
  · cases hconv : conversationId.bind db.conversations.get? with
    | none =>
      simp only [hconv, List.mem_singleton] at he
      subst he
      cases hc
    | some conversation =>
      obtain ⟨id, rfl, hget⟩ := Option.bind_eq_some_iff.mp hconv
      have hid : conversation.id = id := Table.get?_key hget
      simp only [hconv] at he
      cases hlast : ((db.participants conversation.id).filter (· != a)).getLast? with
      | none =>
        simp only [hlast, List.mem_singleton] at he
        subst he
        cases hc
      | some other =>
        simp only [hlast, List.mem_cons, List.not_mem_nil, or_false] at he
        rcases he with rfl | rfl
        · cases hc
          have hmem := List.mem_of_mem_filter (List.mem_of_getLast? hlast)
          exact ⟨by rw [hid], ha, other, (mem_participants _ _ _).mp hmem⟩
        · cases hc
  · cases he

theorem isTyping_own_iff (db : Db) (hdb : Consistent db) (a : ℕ) (ha : db.users.has a = true)
    (conversationId : Option ℕ) (typing : Param) :
    OwnConversationsOnly db a (db, isTyping db a conversationId typing) ↔
      ¬ (Incoming.isTyping conversationId typing).Trespasses db a := by
  constructor
  · rintro h
    cases conversationId with
    | none => exact id
    | some c =>
      rintro ⟨hno, p, hp⟩
      have hconv := (hdb.memberships (c, p) ((mem_memberships db c p).mpr hp)).1
      obtain ⟨conversation, hget⟩ := Option.isSome_iff_exists.mp hconv
      have hid : conversation.id = c := Table.get?_key hget
      have hmem : p ∈ (db.participants conversation.id).filter (· != a) := by
        refine List.mem_filter.mpr ⟨(mem_participants _ _ _).mpr (by rw [hid]; exact hp), ?_⟩
        have hne : p ≠ a := by
          rintro rfl
          rw [hp] at hno
          cases hno
        simpa using hne
      obtain ⟨other, hlast⟩ : ∃ other, ((db.participants conversation.id).filter (· != a)).getLast? = some other :=
        Option.isSome_iff_exists.mp (List.getLast?_isSome.mpr (List.ne_nil_of_mem hmem))
      have hevent : Event.userIsTyping other conversation.id typing ∈ isTyping db a (some c) typing := by
        simp [isTyping, ha, hget, hlast]
      have hpart := (h.events _ hevent conversation.id rfl).1
      rw [hid, hno] at hpart
      cases hpart
  · intro h
    refine .of_unchanged (fun e he c hc => ?_)
    obtain ⟨rfl, -, p, hp⟩ := isTyping_conversation he hc
    by_contra hno
    exact h ⟨Bool.eq_false_iff.mpr hno, p, hp⟩

theorem conversationRead_conversation (db : Db) (now me : ℕ) (userId conversationId : Option ℕ) :
    ∀ e ∈ (conversationRead db now me userId conversationId).2, e.conversation? = none := by
  unfold conversationRead
  cases userId.bind db.users.get? <;> simp [Event.conversation?]

theorem conversationRead_db (db : Db) (now me user conversation : ℕ) :
    (conversationRead db now me (some user) (some conversation)).1 =
      if db.users.has user && db.conversations.has conversation then Conversation.markRead db now conversation user
      else db := by
  simp only [conversationRead, Option.bind_some]
  cases hu : db.users.get? user with
  | none => simp [Table.has, hu]
  | some row =>
    have huid : row.id = user := Table.get?_key hu
    cases hc : db.conversations.get? conversation with
    | none => simp [Table.has, hc]
    | some crow =>
      have hcid : crow.id = conversation := Table.get?_key hc
      simp [Table.has, hu, hc, huid, hcid]

theorem conversationRead_readings_iff (db : Db) (hdb : Consistent db) (now a user conversation : ℕ) :
    (∀ cu ∈ db.conversationUsers.rows, cu.userId ≠ a →
        ∃ cu', (conversationRead db now a (some user) (some conversation)).1.conversationUsers.get? cu.index = some cu' ∧
          ¬ MarksRead cu cu') ↔
      ¬ (Incoming.conversationRead now (some user) (some conversation)).Trespasses db a := by
  constructor
  · rintro h ⟨hne, cu, hcu, hold⟩
    have hkey : cu.index = (conversation, user) := Table.get?_key hcu
    have hp := hdb.memberships (conversation, user) ((mem_memberships db _ _).mpr (Table.has_of_get? hcu))
    have hdb' : (conversationRead db now a (some user) (some conversation)).1 =
        Conversation.markRead db now conversation user := by
      rw [conversationRead_db, hp.1, hp.2, Bool.and_self, if_pos rfl]
    obtain ⟨cu', hcu', hmarks⟩ := h cu (Table.get?_mem hcu) (by rw [(Prod.mk.inj hkey).2]; exact hne)
    rw [hdb', markRead_row, hkey, if_pos rfl, hcu] at hcu'
    cases hcu'
    exact hmarks (marksRead_readAt now cu hold)
  · intro h cu hcu hne
    rw [conversationRead_db]
    split_ifs
    · rw [markRead_row, Table.get?_of_mem hcu]
      split_ifs with hkey
      · have hcu' : db.conversationUsers.get? (conversation, user) = some cu := by
          rw [← hkey]
          exact Table.get?_of_mem hcu
        have hother : user ≠ a := by
          rw [← (Prod.mk.inj hkey).2]
          exact hne
        exact ⟨_, rfl, fun hmarks => h ⟨hother, cu, hcu', readAt_marksRead now cu hmarks⟩⟩
      · obtain ⟨cu', hcu', hmarks⟩ := (KeepsRows.refl db).readings cu hcu
        exact ⟨cu', (Table.get?_of_mem hcu).symm.trans hcu', hmarks⟩
    · exact (KeepsRows.refl db).readings cu hcu

theorem conversationRead_own_iff (db : Db) (hdb : Consistent db) (now a : ℕ) (userId conversationId : Option ℕ) :
    OwnConversationsOnly db a (conversationRead db now a userId conversationId) ↔
      ¬ (Incoming.conversationRead now userId conversationId).Trespasses db a := by
  have hevents : ∀ e ∈ (conversationRead db now a userId conversationId).2, ∀ c, e.conversation? = some c →
      db.conversationUsers.has (c, a) = true := by
    intro e he c hc
    rw [conversationRead_conversation db now a userId conversationId e he] at hc
    cases hc
  have hmessages : (conversationRead db now a userId conversationId).1.messages = db.messages := by
    unfold conversationRead
    cases userId.bind db.users.get? with
    | none => rfl
    | some user => cases conversationId.bind db.conversations.get? <;> rfl
  cases userId with
  | none => exact iff_of_true (.of_unchanged hevents) id
  | some user =>
    cases conversationId with
    | none =>
      refine iff_of_true ?_ id
      have hdb' : (conversationRead db now a (some user) none).1 = db := by
        simp only [conversationRead, Option.bind_some, Option.bind_none]
        cases db.users.get? user <;> rfl
      rw [← Prod.eta (conversationRead db now a (some user) none), hdb']
      exact .of_unchanged hevents
    | some conversation =>
      rw [← conversationRead_readings_iff db hdb]
      refine ⟨fun h => h.readings, fun h => ⟨h, fun m hm hnew => ?_, fun e he c hc => ?_⟩⟩
      · rw [hmessages] at hm
        exact absurd hm hnew
      · rw [conversationRead_conversation db now a _ _ e he] at hc
        cases hc

theorem handle_own_iff (P : Platform) (db : Db) (hdb : Reachable P db) (a : ℕ) (ha : db.users.has a = true)
    (event : Incoming) : OwnConversationsOnly db a (handle P db a event) ↔ ¬ event.Trespasses db a := by
  cases event with
  | postMessage now online payload => exact iff_of_true (postMessage_own P db now online a payload) id
  | conversationRead now userId conversationId =>
    exact conversationRead_own_iff db hdb.consistent now a userId conversationId
  | isTyping conversationId typing => exact isTyping_own_iff db hdb.consistent a ha conversationId typing
  | watchUsersStatus online userIds =>
    refine iff_of_true (.of_unchanged (fun e he c hc => ?_)) id
    rw [watchUsersStatus, if_pos ha, List.mem_singleton] at he
    rw [he] at hc
    cases hc

def annWroteToBob : Db :=
  Transition.run (step .plain) (Db.new {})
    [.signUp "ann@blnkk.com" "ann", .signUp "bob@blnkk.com" "bob", .signUp "carol@blnkk.com" "carol",
      .postMessage 10 [] 1 { message := some { content := some "hello" }, userId := some 2 }]

theorem bob_types_to_ann :
    OwnConversationsOnly annWroteToBob 2 (handle .plain annWroteToBob 2 (.isTyping (some 1) (.bool true))) := by
  refine (handle_own_iff .plain annWroteToBob ⟨{}, _, rfl⟩ 2 (by decide +kernel) _).mpr ?_
  rintro ⟨hno, -⟩
  exact absurd hno (by decide +kernel)

theorem carol_reads_for_bob :
    Reachable .plain annWroteToBob ∧ annWroteToBob.users.has 3 = true ∧
      ¬ OwnConversationsOnly annWroteToBob 3 (handle .plain annWroteToBob 3 (.conversationRead 20 (some 2) (some 1))) ∧
      ¬ OwnConversationsOnly annWroteToBob 3 (handle .plain annWroteToBob 3 (.isTyping (some 1) (.bool true))) := by
  refine ⟨⟨{}, _, rfl⟩, by decide +kernel, fun h => ?_, fun h => ?_⟩
  · obtain ⟨cu', hcu', hmarks⟩ := h.readings ⟨1, 2, true, 10, true⟩ (by decide +kernel) (by decide)
    have hread : (handle .plain annWroteToBob 3 (.conversationRead 20 (some 2) (some 1))).1.conversationUsers.get? (1, 2) =
        some ⟨1, 2, false, 20, true⟩ := by decide +kernel
    cases hread.symm.trans hcu'
    exact hmarks (Or.inr ⟨rfl, rfl⟩)
  · have hevent : Event.userIsTyping 2 1 (.bool true) ∈
        (handle .plain annWroteToBob 3 (.isTyping (some 1) (.bool true))).2 := by decide +kernel
    exact absurd (h.events _ hevent 1 rfl).1 (by decide +kernel)

end Blnkk
