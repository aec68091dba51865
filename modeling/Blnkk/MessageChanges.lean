import Blnkk.OpChanges

namespace Blnkk

open Relational Relation

namespace ConversationsSocket

theorem addParticipant_some {db db' : Db} {now conversation user : ℕ}
    (h : addParticipant db now conversation user = some db') :
    ∃ t : Table ConversationUser.index, db' = { db with conversationUsers := t } ∧
      t.rows = db.conversationUsers.rows ++ [{ conversationId := conversation, userId := user, lastReadAt := now }] := by
  obtain ⟨t, ht, rfl⟩ := Option.map_eq_some_iff.mp h
  exact ⟨t, rfl, (Table.insert_eq_some ht).2⟩

theorem addParticipant_none {db : Db} {now conversation user : ℕ}
    (h : addParticipant db now conversation user = none) : db.conversationUsers.has (conversation, user) = true :=
  (Table.insert_eq_none _ _).mp (Option.map_eq_none_iff.mp h)

theorem createConversation_ok {db db' : Db} {now me other id : ℕ}
    (h : createConversation db now me other = .ok (id, db')) :
    id = db.conversations.fresh ∧ ∃ t : Table ConversationUser.index,
      db' = { startConversation db now with conversationUsers := t } ∧
      t.rows = db.conversationUsers.rows ++
        [{ conversationId := db.conversations.fresh, userId := me, lastReadAt := now },
          { conversationId := db.conversations.fresh, userId := other, lastReadAt := now }] := by
  unfold createConversation at h
  split at h
  · cases h
  · rename_i joined hj
    split at h
    · cases h
    · rename_i both hb
      cases h
      obtain ⟨t, rfl, ht⟩ := addParticipant_some hj
      obtain ⟨t', rfl, ht'⟩ := addParticipant_some hb
      refine ⟨rfl, t', rfl, ?_⟩
      rw [ht', ht, List.append_assoc]
      rfl

theorem createConversation_error {db left : Db} {now me other : ℕ}
    (h : createConversation db now me other = .error left) :
    ∃ t : Table ConversationUser.index, left = { startConversation db now with conversationUsers := t } ∧
      ((t.rows = db.conversationUsers.rows ∧ db.conversationUsers.has (db.conversations.fresh, me) = true) ∨
        (t.rows = db.conversationUsers.rows ++
            [{ conversationId := db.conversations.fresh, userId := me, lastReadAt := now }] ∧
          t.has (db.conversations.fresh, other) = true)) := by
  unfold createConversation at h
  split at h
  · rename_i hn
    cases h
    have hh := addParticipant_none hn
    exact ⟨db.conversationUsers, rfl, Or.inl ⟨rfl, hh⟩⟩
  · rename_i joined hj
    split at h
    · rename_i hb
      cases h
      obtain ⟨t, rfl, ht⟩ := addParticipant_some hj
      exact ⟨t, rfl, Or.inr ⟨ht, addParticipant_none hb⟩⟩
    · cases h

theorem createConversation_self {db db' : Db} {now me id : ℕ} : createConversation db now me me ≠ .ok (id, db') := by
  intro h
  obtain ⟨-, t, -, ht⟩ := createConversation_ok h
  have hu := t.unique
  rw [ht, List.map_append, List.nodup_append] at hu
  simp [ConversationUser.index] at hu

theorem findOrCreate_ok {db db' : Db} {now me other id : ℕ} {isNew : Bool}
    (h : findOrCreate db now me other = .ok (id, isNew, db')) :
    (∃ c, sharedConversation db other me = some c ∧ id = c.id ∧ db' = db) ∨
      (sharedConversation db other me = none ∧ createConversation db now me other = .ok (id, db')) := by
  unfold findOrCreate at h
  split at h
  · rename_i c hc
    cases h
    exact Or.inl ⟨c, hc, rfl, rfl⟩
  · rename_i hn
    split at h
    · rename_i hk
      cases h
      exact Or.inr ⟨hn, hk⟩
    · cases h

theorem findOrCreate_error {db left : Db} {now me other : ℕ} (h : findOrCreate db now me other = .error left) :
    sharedConversation db other me = none ∧ createConversation db now me other = .error left := by
  unfold findOrCreate at h
  split at h
  · cases h
  · rename_i hn
    split at h
    · cases h
    · rename_i hk
      cases h
      exact ⟨hn, hk⟩

theorem findOrCreate_changes {db db' : Db} {now me other id : ℕ} {isNew : Bool} (hm : db.users.has me = true)
    (ho : db.users.has other = true) (h : findOrCreate db now me other = .ok (id, isNew, db')) :
    Changes db db' := by
  rcases findOrCreate_ok h with ⟨c, -, -, rfl⟩ | ⟨hn, hc⟩
  · exact .refl
  · exact .single (.newConversation now me other id db' hm ho hn hc)

theorem findOrCreate_frame {db db' : Db} {now me other id : ℕ} {isNew : Bool}
    (h : findOrCreate db now me other = .ok (id, isNew, db')) :
    db'.users = db.users ∧ db'.requests = db.requests := by
  rcases findOrCreate_ok h with ⟨c, -, -, rfl⟩ | ⟨-, hc⟩
  · exact ⟨rfl, rfl⟩
  · obtain ⟨-, t, rfl, -⟩ := createConversation_ok hc
    exact ⟨rfl, rfl⟩

theorem joinRequest_messages (db : Db) (r : Request) (user : ℕ) : (db.joinRequest r user).messages = db.messages := rfl

end ConversationsSocket

theorem updateUnreadStatus_changes (db : Db) (now conversation : ℕ) (user : Option ℕ) :
    Changes db (Message.updateUnreadStatus db now conversation user) :=
  .head (.conversation conversation (fun c => { c with updatedAt := now }) (fun _ => rfl))
    (.single (.flags _ (Message.flagUnread user.isSome) (fun _ => rfl)))

theorem save_message_changes (P : Platform) (db : Db) (now conversation : ℕ) (user : Option ℕ) (systemGenerated : Bool)
    (content : Option String) :
    Changes db (Message.save P db now conversation user systemGenerated content).2 := by
  rcases Message.save_cases P db now conversation user systemGenerated content with h | ⟨text, h⟩
  · rw [h]
  · rw [h]
    exact .head (.messages _) (updateUnreadStatus_changes _ now conversation user)

theorem save_message_frame (P : Platform) (db : Db) (now conversation : ℕ) (user : Option ℕ) (systemGenerated : Bool)
    (content : Option String) :
    (Message.save P db now conversation user systemGenerated content).2.users = db.users ∧
      (Message.save P db now conversation user systemGenerated content).2.requests = db.requests := by
  rcases Message.save_cases P db now conversation user systemGenerated content with h | ⟨text, h⟩
  · rw [h]
    exact ⟨rfl, rfl⟩
  · rw [h]
    exact ⟨rfl, rfl⟩

namespace ConversationsSocket

theorem notifyByEmail_changes (db : Db) (conversation user : ℕ) (draft : Message.Draft) :
    Changes db (notifyByEmail db conversation user draft).1 := by
  rcases notifyByEmail_cases db conversation user draft with h | h | h
  · rw [h]
  · rw [h]
  · rw [h]
    exact .single (.flags _ (fun cu => { cu with notified := true }) (fun _ => rfl))

/-- What the e-mails of a delivery keep, the delivery keeps. -/
theorem deliver_relation {R : Db → Db → Prop} (hrefl : ∀ db, R db db)
    (htrans : ∀ {db db' db'' : Db}, R db db' → R db' db'' → R db db'') {conversation : ℕ} {draft : Message.Draft}
    (hmail : ∀ db user, R db (notifyByEmail db conversation user draft).1) (online : List ℕ) (me : ℕ) (isNew : Bool)
    (systemMessage : Option Message.Draft) (users : List ℕ) (db : Db) (events : List Event) :
    R db (deliver online me conversation isNew systemMessage draft users (db, events)).1 := by
  induction users generalizing db events with
  | nil => exact hrefl db
  | cons user rest ih =>
    simp only [deliver]
    refine htrans ?_ (ih _ _)
    split_ifs
    · exact hrefl db
    · exact hrefl db
    · exact hmail db user

def Lookup.db : Lookup → Db
  | found db _ _ _ => db
  | raised db => db

/-- A relation that holds across each of the writes of `post_message`. -/
structure PostSteps (P : Platform) (R : Db → Db → Prop) : Prop where
  refl (db : Db) : R db db
  trans {db db' db'' : Db} : R db db' → R db' db'' → R db db''
  found {db db' : Db} {now me other id : ℕ} {isNew : Bool} (hm : db.users.has me = true) (ho : db.users.has other = true)
    (h : findOrCreate db now me other = .ok (id, isNew, db')) : R db db'
  half {db left : Db} {now me other : ℕ} (hm : db.users.has me = true) (h : findOrCreate db now me other = .error left) :
    R db left
  create (db : Db) (now conversation me : ℕ) (systemGenerated : Bool) (content : Option String) :
    R db (Message.save P db now conversation (some me) systemGenerated content).2
  join (db : Db) (request : Request) (me : ℕ) (hr : db.requests.get? request.id = some request)
    (hm : db.users.has me = true) : R db (db.joinRequest request me)
  mail (db : Db) (conversation user : ℕ) (draft : Message.Draft) : R db (notifyByEmail db conversation user draft).1

namespace PostSteps

variable {P : Platform} {R : Db → Db → Prop} (h : PostSteps P R)

include h

theorem deliver (online : List ℕ) (me conversation : ℕ) (isNew : Bool) (systemMessage : Option Message.Draft)
    (draft : Message.Draft) (users : List ℕ) (db : Db) (events : List Event) :
    R db (deliver online me conversation isNew systemMessage draft users (db, events)).1 :=
  deliver_relation h.refl h.trans (fun db user => h.mail db conversation user draft) online me isNew systemMessage users
    db events

theorem addMessage (db : Db) (now : ℕ) (online : List ℕ) (me conversation : ℕ) (isNew : Bool)
    (systemMessage : Option Message.Draft) (message : Option MessagePart) :
    R db (addMessage P db now online me conversation isNew systemMessage message).1 := by
  unfold ConversationsSocket.addMessage
  cases message with
  | none => exact h.refl db
  | some part =>
    simp only
    split_ifs
    · exact h.refl db
    · rcases Message.create_cases P db now conversation (some me) false part.text with ⟨-, hc⟩ | ⟨-, hc⟩
      · simp only [hc]
        exact h.refl db
      · simp only [hc]
        exact h.trans (h.create db now conversation me false part.text) (h.deliver _ _ _ _ _ _ _ _ _)

theorem requestBranch (db : Db) (now me : ℕ) (request : Request) (hm : db.users.has me = true)
    (hr : db.requests.get? request.id = some request) : R db (requestBranch P db now me request).db := by
  unfold ConversationsSocket.requestBranch
  split_ifs with ha ho
  · exact h.refl db
  · cases hf : findOrCreate db now me request.userId with
    | error left => exact h.half hm hf
    | ok found =>
      obtain ⟨id, isNew, db'⟩ := found
      obtain ⟨hu, hq⟩ := findOrCreate_frame hf
      obtain ⟨hu', hq'⟩ := save_message_frame P db' now id (some me) true (some (systemContent request))
      have hfound := h.found hm ho hf
      have hcreate := h.trans hfound (h.create db' now id me true (some (systemContent request)))
      rcases Message.create_cases P db' now id (some me) true (some (systemContent request)) with ⟨-, hc⟩ | ⟨-, hc⟩
      · simp only [hc]
        exact hfound
      · simp only [hc]
        exact h.trans hcreate (h.join _ request me (by rw [hq', hq, hr]) (by rw [hu', hu, hm]))
  · exact h.refl db

theorem userBranch (db : Db) (now me userId : ℕ) (hm : db.users.has me = true) :
    R db (userBranch db now me userId).db := by
  unfold ConversationsSocket.userBranch
  split_ifs with ho
  · cases hf : findOrCreate db now me userId with
    | error left => exact h.half hm hf
    | ok found => exact h.found hm ho hf
  · exact h.refl db

theorem lookup (db : Db) (now me : ℕ) (payload : Payload) (hm : db.users.has me = true) :
    R db (lookup P db now me payload).db := by
  unfold ConversationsSocket.lookup
  cases payload.message.bind MessagePart.conversationId with
  | some id => exact h.refl db
  | none =>
    cases payload.requestId with
    | some requestId =>
      cases hr : db.requests.get? requestId with
      | none =>
        simp only [hr]
        exact h.refl db
      | some request => simpa only [hr] using h.requestBranch db now me request hm (Table.get?_row hr)
    | none =>
      cases payload.userId with
      | some userId => exact h.userBranch db now me userId hm
      | none => exact h.refl db

theorem postMessage (db : Db) (now : ℕ) (online : List ℕ) (me : ℕ) (payload : Payload) :
    R db (postMessage P db now online me payload).1 := by
  unfold ConversationsSocket.postMessage
  split_ifs with hm
  · have hlookup := h.lookup db now me payload hm
    cases hl : ConversationsSocket.lookup P db now me payload with
    | raised left =>
      rw [hl] at hlookup
      exact hlookup
    | found db' conversation isNew systemMessage =>
      rw [hl] at hlookup
      cases conversation with
      | none => exact hlookup
      | some id =>
        simp only
        split_ifs
        · exact h.trans hlookup (h.addMessage db' now online me id isNew systemMessage payload.message)
        · exact hlookup
  · exact h.refl db

end PostSteps

theorem postSteps_changes (P : Platform) : PostSteps P Changes where
  refl db := .refl
  trans h h' := ReflTransGen.trans h h'
  found hm ho h := findOrCreate_changes hm ho h
  half hm h := by
    obtain ⟨hn, hc⟩ := findOrCreate_error h
    exact .single (.halfConversation _ _ _ _ hm hn hc)
  create db now conversation me systemGenerated content :=
    save_message_changes P db now conversation (some me) systemGenerated content
  join db request me hr hm := .single (.joinRequest request me hr hm)
  mail := notifyByEmail_changes

theorem addMessage_changes (P : Platform) (db : Db) (now : ℕ) (online : List ℕ) (me conversation : ℕ)
    (isNew : Bool) (systemMessage : Option Message.Draft) (message : Option MessagePart) :
    Changes db (addMessage P db now online me conversation isNew systemMessage message).1 :=
  (postSteps_changes P).addMessage db now online me conversation isNew systemMessage message

theorem postMessage_changes (P : Platform) (db : Db) (now : ℕ) (online : List ℕ) (me : ℕ) (payload : Payload) :
    Changes db (postMessage P db now online me payload).1 :=
  (postSteps_changes P).postMessage db now online me payload

end ConversationsSocket

theorem showConversation_changes (db : Db) (now me id : ℕ) :
    Changes db (ConversationsController.show db now me id).2.2 := by
  unfold ConversationsController.show
  split_ifs
  · exact .single (.flags _ (Conversation.readAt now) (Conversation.readAt_index now))
  · exact .refl
  · exact .refl

theorem conversationRead_changes (db : Db) (now me : ℕ) (userId conversationId : Option ℕ) :
    Changes db (ConversationsSocket.conversationRead db now me userId conversationId).1 := by
  unfold ConversationsSocket.conversationRead
  cases userId.bind db.users.get? with
  | none => exact .refl
  | some user =>
    cases conversationId.bind db.conversations.get? with
    | none => exact .refl
    | some conversation => exact .single (.flags _ (Conversation.readAt now) (Conversation.readAt_index now))

theorem invite_changes (db : Db) (user : ℕ) (email : String) : Changes db (Invitation.create db user email) := by
  unfold Invitation.create
  split_ifs
  · exact .single (.invitations _)
  · exact .refl

theorem step_changes (P : Platform) (db : Db) (op : Op) : Changes db (step P db op) := by
  cases op with
  | signUp email name => exact signUp_changes P db email name
  | invite me email => exact invite_changes db me email
  | createRequest me subject content reward => exact createRequest_changes P db me subject content reward
  | destroyRequest me id => exact destroyRequest_changes db me id
  | updateRequest id event => exact updateRequest_changes db id event
  | updateSetting setting value => exact .single (.settings _)
  | manageUser me action => exact manageUser_changes P db me action
  | createComment me request content => exact createComment_changes db me request content
  | destroyComment me id => exact destroyComment_changes db me id
  | rateUser me id rating => exact (rate_op_changes P db me id rating).1
  | rateRequest me id rating => exact (rate_op_changes P db me id rating).2.1
  | rateComment me id rating => exact (rate_op_changes P db me id rating).2.2.1
  | rateConversation me id rating => exact (rate_op_changes P db me id rating).2.2.2
  | indexRequests me page => exact index_changes db me page
  | showRequest me id => exact show_changes db me id
  | showConversation now me id => exact showConversation_changes db now me id
  | postMessage now online me payload => exact ConversationsSocket.postMessage_changes P db now online me payload
  | conversationRead now me userId conversationId => exact conversationRead_changes db now me userId conversationId
  | notifyUnread now => exact .single (.flags _ _ _)

theorem run_changes (P : Platform) (db : Db) (ops : List Op) : Changes db (Transition.run (step P) db ops) :=
  Transition.run_invariant (step P) (fun _ op h => h.trans (step_changes P _ op)) db .refl ops

theorem Reachable.invariant {P : Platform} {I : Db → Prop} (hnew : ∀ settings, I (Db.new settings))
    (hI : ∀ db db', Change db db' → I db → I db') {db : Db} (h : Reachable P db) : I db := by
  obtain ⟨settings, ops, rfl⟩ := h
  exact (run_changes P (Db.new settings) ops).invariant hI (hnew settings)

end Blnkk
