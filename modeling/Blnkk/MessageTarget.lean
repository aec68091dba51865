import Blnkk.ConversationPairs

/-!
Where `post_message` looks for the conversation of a message that names a user
and not a conversation.
-/

namespace Blnkk

open Relational

namespace ConversationsSocket

def Payload.target (db : Db) (payload : Payload) : Option ℕ :=
  match payload.requestId with
  | some requestId => (db.requests.get? requestId).map Request.userId
  | none => payload.userId

theorem save_message_mem {P : Platform} {db : Db} {now conversation : ℕ} {user : Option ℕ} {systemGenerated : Bool}
    {content : Option String} {m : Message}
    (h : m ∈ (Message.save P db now conversation user systemGenerated content).2.messages.rows) :
    m ∈ db.messages.rows ∨ m.conversationId = conversation := by
  rcases Message.save_cases P db now conversation user systemGenerated content with hc | ⟨text, hc⟩
  · rw [hc] at h
    exact Or.inl h
  · rw [hc] at h
    rcases List.mem_append.mp h with h | h
    · exact Or.inl h
    · rw [List.mem_singleton.mp h]
      exact Or.inr rfl

theorem notifyByEmail_messages (db : Db) (conversation user : ℕ) (draft : Message.Draft) :
    (notifyByEmail db conversation user draft).1.messages = db.messages := by
  rcases notifyByEmail_cases db conversation user draft with h | h | h <;> rw [h]

theorem deliver_messages (online : List ℕ) (me conversation : ℕ) (isNew : Bool)
    (systemMessage : Option Message.Draft) (draft : Message.Draft) (users : List ℕ) (db : Db)
    (events : List Event) :
    (deliver online me conversation isNew systemMessage draft users (db, events)).1.messages = db.messages :=
  deliver_relation (R := fun db db' => db'.messages = db.messages) (fun _ => rfl) (fun h h' => h'.trans h)
    (fun db user => notifyByEmail_messages db conversation user draft) online me isNew systemMessage users db events

theorem addMessage_mem {P : Platform} {db : Db} {now : ℕ} {online : List ℕ} {me conversation : ℕ} {isNew : Bool}
    {systemMessage : Option Message.Draft} {message : Option MessagePart} {m : Message}
    (h : m ∈ (addMessage P db now online me conversation isNew systemMessage message).1.messages.rows) :
    m ∈ db.messages.rows ∨ m.conversationId = conversation := by
  unfold addMessage at h
  cases message with
  | none => exact Or.inl h
  | some part =>
    simp only at h
    split_ifs at h
    · exact Or.inl h
    · rcases Message.create_cases P db now conversation (some me) false part.text with ⟨-, hc⟩ | ⟨-, hc⟩
      · simp only [hc] at h
        exact Or.inl h
      · simp only [hc, deliver_messages] at h
        exact save_message_mem h

theorem findOrCreate_messages {db db' : Db} {now me other id : ℕ} {isNew : Bool}
    (h : findOrCreate db now me other = .ok (id, isNew, db')) : db'.messages = db.messages := by
  rcases findOrCreate_ok h with ⟨c, -, -, rfl⟩ | ⟨-, hc⟩
  · rfl
  · obtain ⟨-, t, rfl, -⟩ := createConversation_ok hc
    rfl

theorem findOrCreate_left {db left : Db} {now me other : ℕ} (h : findOrCreate db now me other = .error left) :
    left.messages = db.messages := by
  obtain ⟨t, rfl, -⟩ := createConversation_error (findOrCreate_error h).2
  rfl

inductive Located (db : Db) (now me t : ℕ) : Lookup → Prop where
  | raised (left : Db) (hm : left.messages = db.messages) : Located db now me t (.raised left)
  | none (isNew : Bool) (systemMessage : Option Message.Draft) :
      Located db now me t (.found db none isNew systemMessage)
  | found (id : ℕ) (isNew : Bool) (db' final : Db) (systemMessage : Option Message.Draft)
      (ht : db.users.has t = true) (hf : findOrCreate db now me t = .ok (id, isNew, db'))
      (hch : Changes db' final) (hm : ∀ m ∈ final.messages.rows, m ∈ db.messages.rows ∨ m.conversationId = id)
      (hself : t = me → final = db') : Located db now me t (.found final (some id) isNew systemMessage)

theorem systemMessage_changes {P : Platform} {db db' : Db} {now me t id : ℕ} {isNew : Bool} {request : Request}
    (hm : db.users.has me = true) (hr : db.requests.get? request.id = some request)
    (hf : findOrCreate db now me t = .ok (id, isNew, db')) :
    Changes db' ((Message.save P db' now id (some me) true (some (systemContent request))).2.joinRequest request me) := by
  obtain ⟨hu, hq⟩ := findOrCreate_frame hf
  obtain ⟨hu', hq'⟩ := save_message_frame P db' now id (some me) true (some (systemContent request))
  exact (save_message_changes P db' now id (some me) true (some (systemContent request))).tail
    (.joinRequest request me (by rw [hq', hq, hr]) (by rw [hu', hu, hm]))

theorem requestBranch_located (P : Platform) (db : Db) (now me : ℕ) (request : Request)
    (hme : db.users.has me = true) (hr : db.requests.get? request.id = some request) :
    Located db now me request.userId (requestBranch P db now me request) := by
  unfold requestBranch
  split_ifs with ha ho
  · exact .none false none
  · cases h : findOrCreate db now me request.userId with
    | error left => exact .raised left (findOrCreate_left h)
    | ok found =>
      obtain ⟨id, isNew, db'⟩ := found
      rcases Message.create_cases P db' now id (some me) true (some (systemContent request)) with ⟨-, hc⟩ | ⟨-, hc⟩
      · simp only [hc]
        exact .raised db' (findOrCreate_messages h)
      · simp only [hc]
        refine .found id isNew db' _ _ ho h (systemMessage_changes hme hr h) (fun m hm => ?_) (fun he => absurd he ha)
        rw [joinRequest_messages] at hm
        rcases save_message_mem hm with hm | hm
        · exact Or.inl (findOrCreate_messages h ▸ hm)
        · exact Or.inr hm
  · exact .raised db rfl

theorem userBranch_located (db : Db) (now me t : ℕ) : Located db now me t (userBranch db now me t) := by
  unfold userBranch
  split_ifs with ho
  · cases h : findOrCreate db now me t with
    | error left => exact .raised left (findOrCreate_left h)
    | ok found =>
      obtain ⟨id, isNew, db'⟩ := found
      exact .found id isNew db' db' none ho h .refl (fun m hm => Or.inl (findOrCreate_messages h ▸ hm)) (fun _ => rfl)
  · exact .raised db rfl

theorem lookup_located (P : Platform) (db : Db) (now me t : ℕ) (payload : Payload)
    (hme : db.users.has me = true) (hc : payload.message.bind MessagePart.conversationId = none) (ht : payload.target db = some t) :
    Located db now me t (lookup P db now me payload) := by
  unfold Payload.target at ht
  cases hq : payload.requestId with
  | some requestId =>
    simp only [hq] at ht
    obtain ⟨request, hr, rfl⟩ := Option.map_eq_some_iff.mp ht
    have hl : lookup P db now me payload = requestBranch P db now me request := by
      simp only [lookup, hc, hq, hr]
    rw [hl]
    exact requestBranch_located P db now me request hme (Table.get?_row hr)
  | none =>
    simp only [hq] at ht
    have hl : lookup P db now me payload = userBranch db now me t := by
      simp only [lookup, hc, hq, ht]
    rw [hl]
    exact userBranch_located db now me t

theorem postMessage_found {P : Platform} {db final : Db} {now : ℕ} (online : List ℕ) {me id : ℕ}
    {payload : Payload} {isNew : Bool} {systemMessage : Option Message.Draft} (hm : db.users.has me = true)
    (hl : lookup P db now me payload = .found final (some id) isNew systemMessage) :
    (postMessage P db now online me payload).1 =
      if final.conversationUsers.has (id, me) then
        (addMessage P final now online me id isNew systemMessage payload.message).1
      else final := by
  simp only [postMessage, if_pos hm, hl]
  split_ifs <;> rfl

theorem postMessage_found_spec {P : Platform} {db final : Db} {now : ℕ} (online : List ℕ) {me id : ℕ}
    {payload : Payload} {isNew : Bool} {systemMessage : Option Message.Draft} (hm : db.users.has me = true)
    (hl : lookup P db now me payload = .found final (some id) isNew systemMessage) :
    Changes final (postMessage P db now online me payload).1 ∧
      ∀ m ∈ (postMessage P db now online me payload).1.messages.rows,
        m ∈ final.messages.rows ∨ m.conversationId = id := by
  rw [postMessage_found online hm hl]
  split_ifs
  · exact ⟨addMessage_changes P final now online me id isNew systemMessage payload.message, fun m => addMessage_mem⟩
  · exact ⟨.refl, fun m hmem => Or.inl hmem⟩

end ConversationsSocket

end Blnkk
