import Blnkk.MessageChanges

/-!
What the handlers of messages do to the rows of the participants.
-/

namespace Blnkk

open Relational ConversationsSocket

/-- No handler but the one for reading clears the unread flag, moves the time
of reading, or forgets a reminder that is still unread. -/
def ConversationUser.Keeps (cu cu' : ConversationUser) : Prop :=
  cu'.lastReadAt = cu.lastReadAt ∧ (cu.unread = true → cu'.unread = true ∧ (cu.notified = true → cu'.notified = true))

namespace ConversationUser.Keeps

theorem refl (cu : ConversationUser) : cu.Keeps cu := ⟨rfl, fun hu => ⟨hu, fun hn => hn⟩⟩

theorem trans (a b c : ConversationUser) (hab : a.Keeps b) (hbc : b.Keeps c) : a.Keeps c := by
  refine ⟨hbc.1.trans hab.1, fun hu => ?_⟩
  obtain ⟨hub, hnb⟩ := hab.2 hu
  obtain ⟨huc, hnc⟩ := hbc.2 hub
  exact ⟨huc, fun hn => hnc (hnb hn)⟩

theorem flagUnread (fromUser : Bool) (cu : ConversationUser) : cu.Keeps (Message.flagUnread fromUser cu) := by
  refine ⟨rfl, fun hu => ⟨rfl, fun hn => ?_⟩⟩
  simp [Message.flagUnread, hu, hn]

theorem notified (cu : ConversationUser) : cu.Keeps { cu with notified := true } :=
  ⟨rfl, fun hu => ⟨hu, fun _ => rfl⟩⟩

end ConversationUser.Keeps

def KeepsRows (db db' : Db) : Prop :=
  Table.Persists ConversationUser.Keeps db.conversationUsers db'.conversationUsers

namespace KeepsRows

variable {db db' db'' : Db}

theorem refl (db : Db) : KeepsRows db db := Table.Persists.refl ConversationUser.Keeps.refl _

theorem trans (h : KeepsRows db db') (h' : KeepsRows db' db'') : KeepsRows db db'' :=
  Table.Persists.trans ConversationUser.Keeps.trans h h'

theorem of_eq (h : db'.conversationUsers = db.conversationUsers) : KeepsRows db db' := by
  rw [KeepsRows, h]
  exact refl db

theorem of_append {l : List ConversationUser} (h : db'.conversationUsers.rows = db.conversationUsers.rows ++ l) :
    KeepsRows db db' := Table.Persists.append ConversationUser.Keeps.refl h

end KeepsRows

theorem save_message_rows (P : Platform) (db : Db) (now conversation : ℕ) (user : Option ℕ) (systemGenerated : Bool)
    (content : Option String) :
    (Message.save P db now conversation user systemGenerated content).2.conversationUsers =
      if (Message.save P db now conversation user systemGenerated content).1.id.isSome then
        db.conversationUsers.updateWhere
          (fun cu => decide (cu.conversationId = conversation) && decide (some cu.userId ≠ user))
          (Message.flagUnread user.isSome)
      else db.conversationUsers := by
  unfold Message.save
  cases content.map P.sanitizeField with
  | none => rfl
  | some text =>
    by_cases hv : Message.valid user systemGenerated text = true
    · simp only [if_pos hv, Option.isSome_some, if_true]
      rfl
    · simp only [if_neg hv, Option.isSome_none, Bool.false_eq_true, if_false]

namespace ConversationsSocket

def Blank (P : Platform) (content : Option String) : Prop :=
  ∀ text, content.map P.sanitizeField = some text → Text.present text = false

theorem not_blank_iff {P : Platform} {content : Option String} :
    ¬ Blank P content ↔ ∃ text, content.map P.sanitizeField = some text ∧ Text.present text = true := by
  simp [Blank]

theorem save_message_id {P : Platform} {db : Db} {now conversation me : ℕ} {systemGenerated : Bool}
    {content : Option String}
    (h : (Message.save P db now conversation (some me) systemGenerated content).1.id.isSome = false) :
    Blank P content := by
  intro text ht
  by_contra hp
  rw [Bool.not_eq_false] at hp
  simp [Message.save, ht, hp] at h

end ConversationsSocket

theorem notifyByEmail_rows (db : Db) (conversation user : ℕ) (draft : Message.Draft) :
    (notifyByEmail db conversation user draft).1.conversationUsers =
      db.conversationUsers.update (conversation, user) (fun cu => { cu with notified := true }) := by
  unfold notifyByEmail
  cases h : db.conversationUsers.get? (conversation, user) with
  | none => exact (Table.update_eq_self (fun a ha => by rw [h] at ha; cases ha)).symm
  | some cu =>
    simp only
    split_ifs with hn
    · refine (Table.update_eq_self (fun a ha => ?_)).symm
      rw [h] at ha
      cases ha
      rw [← hn]
    · rfl

theorem markRead_row (db : Db) (now conversation user : ℕ) (key : ℕ × ℕ) :
    (Conversation.markRead db now conversation user).conversationUsers.get? key =
      if key = (conversation, user) then (db.conversationUsers.get? key).map (Conversation.readAt now)
      else db.conversationUsers.get? key := Table.get?_update _ _ _ (Conversation.readAt_index now) key

theorem save_message_keeps (P : Platform) (db : Db) (now conversation : ℕ) (user : Option ℕ) (systemGenerated : Bool)
    (content : Option String) :
    KeepsRows db (Message.save P db now conversation user systemGenerated content).2 := by
  rw [KeepsRows, save_message_rows]
  split_ifs
  · exact Table.Persists.updateWhere ConversationUser.Keeps.refl _ _ _ _
      (fun cu _ => ConversationUser.Keeps.flagUnread user.isSome cu)
  · exact KeepsRows.refl db

theorem notifyByEmail_keeps (db : Db) (conversation user : ℕ) (draft : Message.Draft) :
    KeepsRows db (notifyByEmail db conversation user draft).1 := by
  rw [KeepsRows, notifyByEmail_rows]
  exact Table.Persists.updateWhere ConversationUser.Keeps.refl _ _ _ _
    (fun cu _ => ConversationUser.Keeps.notified cu)

theorem findOrCreate_keeps {db db' : Db} {now me other id : ℕ} {isNew : Bool}
    (h : findOrCreate db now me other = .ok (id, isNew, db')) : KeepsRows db db' := by
  rcases findOrCreate_ok h with ⟨c, -, -, rfl⟩ | ⟨-, hc⟩
  · exact KeepsRows.refl _
  · obtain ⟨-, t, rfl, ht⟩ := createConversation_ok hc
    exact .of_append ht

theorem findOrCreate_left_keeps {db left : Db} {now me other : ℕ} (h : findOrCreate db now me other = .error left) :
    KeepsRows db left := by
  obtain ⟨t, rfl, ⟨ht, -⟩ | ⟨ht, -⟩⟩ := createConversation_error (findOrCreate_error h).2
  · exact .of_append (l := []) (by rw [List.append_nil]; exact ht)
  · exact .of_append ht

theorem deliver_keeps (online : List ℕ) (me conversation : ℕ) (isNew : Bool) (systemMessage : Option Message.Draft)
    (draft : Message.Draft) (users : List ℕ) (db : Db) (events : List Event) :
    KeepsRows db (deliver online me conversation isNew systemMessage draft users (db, events)).1 :=
  deliver_relation KeepsRows.refl KeepsRows.trans (fun db user => notifyByEmail_keeps db conversation user draft) online
    me isNew systemMessage users db events

theorem joinRequest_rows (db : Db) (r : Request) (user : ℕ) :
    (db.joinRequest r user).conversationUsers = db.conversationUsers := rfl

theorem postSteps_keeps (P : Platform) : PostSteps P KeepsRows where
  refl := KeepsRows.refl
  trans := KeepsRows.trans
  found _ _ h := findOrCreate_keeps h
  half _ h := findOrCreate_left_keeps h
  create db now conversation me := save_message_keeps P db now conversation (some me)
  join db request me _ _ := .of_eq (joinRequest_rows db request me)
  mail := notifyByEmail_keeps

theorem requestBranch_found {P : Platform} {db final : Db} {now me c : ℕ} {request : Request} {isNew : Bool}
    {systemMessage : Option Message.Draft}
    (h : requestBranch P db now me request = .found final (some c) isNew systemMessage) :
    ∃ db', findOrCreate db now me request.userId = .ok (c, isNew, db') ∧
      final = (Message.save P db' now c (some me) true (some (systemContent request))).2.joinRequest request me := by
  unfold requestBranch at h
  split_ifs at h
  · simp at h
  · cases hf : findOrCreate db now me request.userId with
    | error left => simp [hf] at h
    | ok found =>
      obtain ⟨id, isNew', db'⟩ := found
      rcases Message.create_cases P db' now id (some me) true (some (systemContent request)) with ⟨-, hc⟩ | ⟨-, hc⟩
      · simp only [hf, hc, reduceCtorEq] at h
      · simp only [hf, hc, Lookup.found.injEq, Option.some.injEq] at h
        obtain ⟨hfinal, rfl, rfl, -⟩ := h
        exact ⟨db', rfl, hfinal.symm⟩

theorem userBranch_found {db final : Db} {now me t c : ℕ} {isNew : Bool} {systemMessage : Option Message.Draft}
    (h : userBranch db now me t = .found final (some c) isNew systemMessage) :
    findOrCreate db now me t = .ok (c, isNew, final) := by
  unfold userBranch at h
  split_ifs at h
  cases hf : findOrCreate db now me t with
  | error left => simp [hf] at h
  | ok found =>
    obtain ⟨id, isNew', db'⟩ := found
    simp only [hf, Lookup.found.injEq, Option.some.injEq] at h
    obtain ⟨rfl, rfl, rfl, -⟩ := h
    rfl

inductive LookupFound (P : Platform) (db : Db) (now me c : ℕ) (payload : Payload) (final : Db) : Prop where
  | conversation (hid : payload.message.bind MessagePart.conversationId = some c)
      (hc : db.conversations.has c = true) (hf : final = db)
  | request (hid : payload.message.bind MessagePart.conversationId = none) (requestId : ℕ) (request : Request)
      (isNew : Bool) (db' : Db) (hq : payload.requestId = some requestId)
      (hr : db.requests.get? requestId = some request)
      (hc : findOrCreate db now me request.userId = .ok (c, isNew, db'))
      (hf : final = (Message.save P db' now c (some me) true (some (systemContent request))).2.joinRequest request me)
  | user (hid : payload.message.bind MessagePart.conversationId = none) (t : ℕ) (isNew : Bool)
      (hq : payload.requestId = none) (ht : payload.userId = some t)
      (hc : findOrCreate db now me t = .ok (c, isNew, final))

theorem lookup_found {P : Platform} {db final : Db} {now me c : ℕ} {payload : Payload} {isNew : Bool}
    {systemMessage : Option Message.Draft}
    (h : lookup P db now me payload = .found final (some c) isNew systemMessage) :
    LookupFound P db now me c payload final := by
  unfold lookup at h
  cases hid : payload.message.bind MessagePart.conversationId with
  | some id =>
    simp only [hid, Lookup.found.injEq] at h
    obtain ⟨rfl, hg, -⟩ := h
    obtain ⟨conversation, hget, rfl⟩ := Option.map_eq_some_iff.mp hg
    have hk : conversation.id = id := Table.get?_key hget
    exact .conversation (by rw [hk]; exact hid) (by rw [hk]; exact Table.has_of_get? hget) rfl
  | none =>
    cases hq : payload.requestId with
    | some requestId =>
      cases hr : db.requests.get? requestId with
      | none => simp [hid, hq, hr] at h
      | some request =>
        simp only [hid, hq, hr] at h
        obtain ⟨db', hc, hf⟩ := requestBranch_found h
        exact .request hid requestId request isNew db' hq hr hc hf
    | none =>
      cases ht : payload.userId with
      | none => simp [hid, hq, ht] at h
      | some t =>
        simp only [hid, hq, ht] at h
        exact .user hid t isNew hq ht (userBranch_found h)

/-- Either the handler stops with one answer to the sender, or it finds a
conversation of the sender and delivers a message in it. -/
theorem postMessage_cases (P : Platform) (db : Db) (now : ℕ) (online : List ℕ) (me : ℕ) (payload : Payload) :
    (∃ left answer, postMessage P db now online me payload = (left, [answer]) ∧
        (left = db ∨ left = (lookup P db now me payload).db) ∧ (answer = .logged ∨ ∃ status, answer = .failure status)) ∨
      ∃ final c isNew systemMessage part created, db.users.has me = true ∧
        lookup P db now me payload = .found final (some c) isNew systemMessage ∧
        final.conversationUsers.has (c, me) = true ∧ payload.message = some part ∧
        Message.save P final now c (some me) false part.text = created ∧
        postMessage P db now online me payload =
          ((deliver online me c isNew systemMessage created.1 (created.2.participants c) (created.2, [])).1,
            (deliver online me c isNew systemMessage created.1 (created.2.participants c) (created.2, [])).2 ++
              [.success .created c]) := by
  unfold postMessage
  split_ifs with hm
  · cases hl : lookup P db now me payload with
    | raised left => exact Or.inl ⟨left, _, rfl, Or.inr rfl, Or.inl rfl⟩
    | found final conversation isNew systemMessage =>
      cases conversation with
      | none => exact Or.inl ⟨final, _, rfl, Or.inr rfl, Or.inr ⟨_, rfl⟩⟩
      | some c =>
        simp only
        split_ifs with hh
        · unfold addMessage
          cases hp : payload.message with
          | none => exact Or.inl ⟨final, _, rfl, Or.inr rfl, Or.inl rfl⟩
          | some part =>
            simp only
            split_ifs
            · exact Or.inl ⟨final, _, rfl, Or.inr rfl, Or.inr ⟨_, rfl⟩⟩
            · rcases Message.create_cases P final now c (some me) false part.text with ⟨-, hcreate⟩ | ⟨-, hcreate⟩
              · simp only [hcreate]
                exact Or.inl ⟨final, _, rfl, Or.inr rfl, Or.inl rfl⟩
              · simp only [hcreate]
                exact Or.inr ⟨final, c, isNew, systemMessage, part, _, hm, rfl, hh, rfl, rfl, rfl⟩
        · exact Or.inl ⟨final, _, rfl, Or.inr rfl, Or.inr ⟨_, rfl⟩⟩
  · exact Or.inl ⟨db, _, rfl, Or.inl rfl, Or.inr ⟨_, rfl⟩⟩

theorem postMessage_keeps (P : Platform) (db : Db) (now : ℕ) (online : List ℕ) (me : ℕ) (payload : Payload) :
    KeepsRows db (postMessage P db now online me payload).1 := (postSteps_keeps P).postMessage db now online me payload

end Blnkk
