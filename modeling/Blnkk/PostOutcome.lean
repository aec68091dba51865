import Blnkk.ConversationPairs
import Blnkk.MessageRows

/-!
Where a payload of `post_message` leads, read off the payload and the tables,
and the four ways in which the handler can go on from there.
-/

namespace Blnkk

open Relational

namespace ConversationsSocket

section Payload

variable (P : Platform) (db : Db) (me : ℕ) (payload : Payload)

/-- The request of somebody else to which a message without a conversation replies. -/
def Payload.request? : Option Request :=
  match payload.message.bind MessagePart.conversationId with
  | some _ => none
  | none => (payload.requestId.bind db.requests.get?).filter (fun r => decide (r.userId ≠ me))

/-- The user whom a message without a conversation is for. -/
def Payload.partner? : Option ℕ :=
  match payload.message.bind MessagePart.conversationId, payload.requestId with
  | some _, _ => none
  | none, some _ => (payload.request? db me).map Request.userId
  | none, none => payload.userId.filter db.users.has

/-- The conversation of the sender in which the message belongs, if there is one. -/
def Payload.existing? : Option ℕ :=
  match payload.message.bind MessagePart.conversationId with
  | some id => if db.conversationUsers.has (id, me) then some id else none
  | none => (payload.partner? db me).bind (fun t => (sharedConversation db t me).map Conversation.id)

end Payload

/-- The text of the system message about the request, if it is stored. -/
def announcementText (P : Platform) (request : Option Request) : Option String :=
  (request.map (fun r => P.sanitizeField (systemContent r))).filter storable

/-- The system message does not fit its column. -/
def announcementRaises (P : Platform) (me : ℕ) (request : Option Request) : Bool :=
  request.any (fun r => Message.raises P (some me) true (some (systemContent r)))

section Accepted

variable (P : Platform) (db : Db) (me : ℕ) (payload : Payload)

/-- The content repeats the last message, which may be the system message just
stored. -/
def Payload.conflicts (content : Option Content) : Bool :=
  match announcementText P (payload.request? db me) with
  | some text => decide (content = some (.text text))
  | none => repeats db me ((payload.existing? db me).getD db.conversations.fresh) content

/-- The message, unless it is refused as a repetition or a text does not fit. -/
def Payload.accepted? : Option MessagePart :=
  if announcementRaises P me (payload.request? db me) then none
  else payload.message.filter (fun part =>
    !payload.conflicts P db me part.content && !Message.raises P (some me) false part.text)

theorem Payload.accepted?_some {P : Platform} {db : Db} {me : ℕ} {payload : Payload} {part : MessagePart}
    (h : payload.accepted? P db me = some part) :
    payload.message = some part ∧ announcementRaises P me (payload.request? db me) = false ∧
      payload.conflicts P db me part.content = false ∧ Message.raises P (some me) false part.text = false := by
  unfold Payload.accepted? at h
  split_ifs at h with hraises
  obtain ⟨hpart, haccepted⟩ := Option.filter_eq_some_iff.mp h
  rw [Bool.and_eq_true, Bool.not_eq_true', Bool.not_eq_true'] at haccepted
  exact ⟨hpart, Bool.eq_false_iff.mpr hraises, haccepted.1, haccepted.2⟩

end Accepted

/-- The system message and the new member of the request. -/
def announce (P : Platform) (db : Db) (now me c : ℕ) : Option Request → Db × Option Message.Draft
  | none => (db, none)
  | some request =>
    ((Message.create P db now c (some me) true (some (systemContent request))).map
      (fun created => (created.2.joinRequest request me, some created.1))).getD (db, none)

/-- The conversation `c`, which is found, or created in the database `base`. -/
inductive Payload.Reaches (db : Db) (now me : ℕ) (payload : Payload) : Db → ℕ → Bool → Prop where
  | existing (c : ℕ) (hex : payload.existing? db me = some c) : payload.Reaches db now me db c false
  | fresh (t : ℕ) (created : Db) (hex : payload.existing? db me = none) (hpartner : payload.partner? db me = some t)
      (hne : t ≠ me) (hcreated : createConversation db now me t = .ok (db.conversations.fresh, created)) :
      payload.Reaches db now me created db.conversations.fresh true

inductive Outcome (P : Platform) (db : Db) (now : ℕ) (online : List ℕ) (me : ℕ) (payload : Payload) :
    Db × List Event → Prop where
  | refused (answer : Event) (hex : payload.existing? db me = none) (hpartner : payload.partner? db me = none)
      (hanswer : answer = .logged ∨ ∃ status, answer = .failure status) :
      Outcome P db now online me payload (db, [answer])
  | half (left : Db) (hex : payload.existing? db me = none) (hpartner : payload.partner? db me = some me)
      (hleft : createConversation db now me me = .error left) : Outcome P db now online me payload (left, [.logged])
  | stopped (base : Db) (c : ℕ) (isNew : Bool) (answer : Event) (hreach : payload.Reaches db now me base c isNew)
      (haccepted : payload.accepted? P db me = none) (hanswer : answer = .logged ∨ ∃ status, answer = .failure status) :
      Outcome P db now online me payload ((announce P base now me c (payload.request? db me)).1, [answer])
  | delivered (base : Db) (c : ℕ) (isNew : Bool) (part : MessagePart) (created : Message.Draft × Db)
      (hreach : payload.Reaches db now me base c isNew) (haccepted : payload.accepted? P db me = some part)
      (hcreated : Message.save P (announce P base now me c (payload.request? db me)).1 now c (some me) false
        part.text = created) :
      Outcome P db now online me payload
        ((deliver online me c isNew (announce P base now me c (payload.request? db me)).2 created.1
            (created.2.participants c) (created.2, [])).1,
          (deliver online me c isNew (announce P base now me c (payload.request? db me)).2 created.1
            (created.2.participants c) (created.2, [])).2 ++ [.success .created c])

theorem Payload.existing?_of_partner {db : Db} {me : ℕ} {payload : Payload}
    (hid : payload.message.bind MessagePart.conversationId = none) :
    payload.existing? db me = (payload.partner? db me).bind (fun t => (sharedConversation db t me).map Conversation.id) := by
  simp only [Payload.existing?, hid]

theorem Payload.existing?_of_stranger {db : Db} {me : ℕ} {payload : Payload}
    (hid : payload.message.bind MessagePart.conversationId = none) (hpartner : payload.partner? db me = none) :
    payload.existing? db me = none := by
  rw [Payload.existing?_of_partner hid, hpartner, Option.bind_none]

theorem Payload.existing?_has {db : Db} {me c : ℕ} {payload : Payload} (h : payload.existing? db me = some c) :
    db.conversationUsers.has (c, me) = true := by
  unfold Payload.existing? at h
  split at h
  · split_ifs at h with hhas
    cases h
    exact hhas
  · obtain ⟨t, -, hshared⟩ := Option.bind_eq_some_iff.mp h
    obtain ⟨conversation, hs, rfl⟩ := Option.map_eq_some_iff.mp hshared
    exact (mem_participants db conversation.id me).mp (sharedConversation_some hs).2.2

theorem Payload.request?_mem {db : Db} {me : ℕ} {payload : Payload} {r : Request} (h : payload.request? db me = some r) :
    r ∈ db.requests.rows := by
  unfold Payload.request? at h
  split at h
  · cases h
  · obtain ⟨hget, -⟩ := Option.filter_eq_some_iff.mp h
    obtain ⟨id, -, hid⟩ := Option.bind_eq_some_iff.mp hget
    exact Table.get?_mem hid

theorem fresh_absent {db : Db} (hc : Consistent db) (p : ℕ) :
    db.conversationUsers.has (db.conversations.fresh, p) = false := by
  rw [← Bool.not_eq_true, ← mem_participants, participants_absent hc db.conversations.has_fresh]
  exact List.not_mem_nil

theorem createConversation_has {db created : Db} {now me t c : ℕ} (h : createConversation db now me t = .ok (c, created)) :
    created.conversationUsers.has (c, me) = true := by
  obtain ⟨rfl, table, rfl, ht⟩ := createConversation_ok h
  exact (Table.has_append ht _).mpr (Or.inr ⟨_, List.mem_cons_self, rfl⟩)

section Reaches

variable {db base : Db} {now me c : ℕ} {payload : Payload} {isNew : Bool}

theorem Payload.Reaches.conversation (h : payload.Reaches db now me base c isNew) :
    (payload.existing? db me).getD db.conversations.fresh = c := by
  cases h with
  | existing c hex => rw [hex, Option.getD_some]
  | fresh t created hex => rw [hex, Option.getD_none]

theorem Payload.Reaches.messages (h : payload.Reaches db now me base c isNew) : base.messages = db.messages := by
  cases h with
  | existing c hex => rfl
  | fresh t created hex hpartner hne hcreated =>
    obtain ⟨-, table, rfl, -⟩ := createConversation_ok hcreated
    rfl

end Reaches

section Announce

variable (P : Platform) (db : Db) (now me c : ℕ)

theorem save_message_stored {systemGenerated : Bool} {content : Option String} {text : String}
    (htext : content.map P.sanitizeField = some text) (hp : Text.present text = true) :
    Message.save P db now c (some me) systemGenerated content =
      (⟨some db.messages.fresh, some text⟩,
        Message.updateUnreadStatus (Message.store db now c (some me) systemGenerated text) now c (some me)) := by
  simp only [Message.save, htext, Message.valid_some, hp, if_true]

theorem save_message_blank {systemGenerated : Bool} {content : Option String} (hb : Blank P content) :
    (Message.save P db now c (some me) systemGenerated content).2 = db ∧
      (Message.save P db now c (some me) systemGenerated content).1.id = none := by
  unfold Message.save
  cases htext : content.map P.sanitizeField with
  | none => exact ⟨rfl, rfl⟩
  | some text =>
    simp only [Message.valid_some, hb text htext, Bool.false_eq_true, if_false, and_self]

theorem announcementText_none {request : Request} (hfits : announcementRaises P me (some request) = false)
    (h : announcementText P (some request) = none) : Blank P (some (systemContent request)) := by
  intro text htext
  rw [announcementText, Option.map_some, Option.filter_some] at h
  rw [announcementRaises, Option.any_some, Message.raises, htext, Option.any_some, Message.valid_some] at hfits
  rw [Option.map_some, Option.some.injEq] at htext
  rw [htext] at h
  cases hp : Text.present text with
  | false => rfl
  | true =>
    rw [hp, Bool.true_and, Bool.not_eq_false'] at hfits
    rw [storable, hp, hfits, Bool.and_self, if_pos rfl] at h
    exact absurd h (Option.some_ne_none text)

theorem announcementText_some {request : Option Request} {text : String} (h : announcementText P request = some text) :
    ∃ r, request = some r ∧ text = P.sanitizeField (systemContent r) ∧ storable text = true := by
  obtain ⟨hmap, hp⟩ := Option.filter_eq_some_iff.mp h
  obtain ⟨r, rfl, rfl⟩ := Option.map_eq_some_iff.mp hmap
  exact ⟨r, rfl, rfl, hp⟩

theorem announce_raises {request : Option Request} (h : announcementRaises P me request = true) :
    announce P db now me c request = (db, none) := by
  cases request with
  | none => rfl
  | some request =>
    rw [announcementRaises, Option.any_some] at h
    simp only [announce, Message.create, h, if_true, Option.map_none, Option.getD_none]

theorem announce_some {request : Request} (hfits : announcementRaises P me (some request) = false) :
    announce P db now me c (some request) =
      ((Message.save P db now c (some me) true (some (systemContent request))).2.joinRequest request me,
        some (Message.save P db now c (some me) true (some (systemContent request))).1) := by
  rw [announcementRaises, Option.any_some] at hfits
  simp only [announce, Message.create, hfits, Bool.false_eq_true, if_false, Option.map_some, Option.getD_some]

/-- The conversation stays as it is, or the system message is saved and the sender
joins the request. -/
theorem announce_cases (request : Option Request) :
    announce P db now me c request = (db, none) ∨ ∃ r, request = some r ∧
      announce P db now me c request =
        ((Message.save P db now c (some me) true (some (systemContent r))).2.joinRequest r me,
          some (Message.save P db now c (some me) true (some (systemContent r))).1) := by
  cases request with
  | none => exact Or.inl rfl
  | some r =>
    cases hraises : announcementRaises P me (some r) with
    | true => exact Or.inl (announce_raises P db now me c hraises)
    | false => exact Or.inr ⟨r, rfl, announce_some P db now me c hraises⟩

theorem announcementText_raises {request : Option Request} (h : announcementRaises P me request = true) :
    announcementText P request = none := by
  cases request with
  | none => rfl
  | some request =>
    rw [announcementRaises, Option.any_some, Message.raises, Option.map_some, Option.any_some, Bool.and_eq_true,
      Bool.not_eq_true'] at h
    rw [announcementText, Option.map_some, Option.filter_some, storable, h.2, Bool.and_false,
      if_neg Bool.false_ne_true]

theorem announce_messages (request : Option Request) :
    (announce P db now me c request).1.messages.rows =
      db.messages.rows ++ (announcementText P request).toList.map (fun text =>
        { id := db.messages.fresh, conversationId := c, userId := some me, systemGenerated := true, content := text,
          createdAt := now, updatedAt := now }) := by
  cases hraises : announcementRaises P me request with
  | true =>
    rw [announce_raises P db now me c hraises, announcementText_raises P me hraises]
    simp
  | false =>
    cases request with
    | none => simp [announce, announcementText]
    | some request =>
      rw [announce_some P db now me c hraises, joinRequest_messages]
      cases htext : announcementText P (some request) with
      | none =>
        rw [(save_message_blank P db now me c (announcementText_none P me hraises htext)).1]
        simp
      | some text =>
        obtain ⟨r, hr, rfl, hp⟩ := announcementText_some P htext
        cases hr
        rw [save_message_stored P db now me c rfl (Bool.and_eq_true_iff.mp hp).1]
        rfl

theorem repeats_of_last {db : Db} {me c : ℕ} {content : Option Content} {rows : List Message} {last : Message}
    (hrows : db.messages.rows = rows ++ [last]) (hc : last.conversationId = c) (hme : last.userId = some me) :
    repeats db me c content = decide (content = some (.text last.content)) := by
  have hlast : (db.messages.rows.filter (fun m => decide (m.conversationId = c))).getLast? = some last := by
    rw [hrows, List.filter_append, List.filter_cons_of_pos (by simpa using hc), List.filter_nil, List.getLast?_concat]
  rw [repeats, hlast]
  simp only [hme, decide_true, Bool.true_and]

theorem repeats_announce (request : Option Request) (content : Option Content) :
    repeats (announce P db now me c request).1 me c content =
      match announcementText P request with
      | some text => decide (content = some (.text text))
      | none => repeats db me c content := by
  have hrows := announce_messages P db now me c request
  cases htext : announcementText P request with
  | some text =>
    rw [htext] at hrows
    rw [repeats_of_last hrows rfl rfl]
  | none =>
    rw [htext, Option.toList_none, List.map_nil, List.append_nil] at hrows
    simp only [repeats, hrows]

theorem save_message_has (systemGenerated : Bool) (content : Option String) (k : ℕ × ℕ) :
    (Message.save P db now c (some me) systemGenerated content).2.conversationUsers.has k =
      db.conversationUsers.has k := by
  rw [save_message_rows]
  split
  · exact Table.has_updateWhere _ _ _ _ k
  · rfl

theorem announce_has (request : Option Request) (k : ℕ × ℕ) :
    (announce P db now me c request).1.conversationUsers.has k = db.conversationUsers.has k := by
  rcases announce_cases P db now me c request with h | ⟨r, -, h⟩
  · rw [h]
  · rw [h, joinRequest_rows, save_message_has]

end Announce

theorem outcome_of_reaches {P : Platform} {db base : Db} {now : ℕ} {online : List ℕ} {me c : ℕ} {payload : Payload}
    {isNew : Bool} (hreach : payload.Reaches db now me base c isNew)
    (hfits : announcementRaises P me (payload.request? db me) = false) :
    Outcome P db now online me payload
      (addMessage P (announce P base now me c (payload.request? db me)).1 now online me c isNew
        (announce P base now me c (payload.request? db me)).2 payload.message) := by
  have hconflicts : ∀ content, repeats (announce P base now me c (payload.request? db me)).1 me c content =
      payload.conflicts P db me content := by
    intro content
    rw [repeats_announce, Payload.conflicts, hreach.conversation]
    simp only [repeats, hreach.messages]
  unfold addMessage
  cases hpart : payload.message with
  | none =>
    have haccepted : payload.accepted? P db me = none := by
      rw [Payload.accepted?, hfits, hpart, Option.filter_none, if_neg Bool.false_ne_true]
    exact .stopped base c isNew .logged hreach haccepted (Or.inl rfl)
  | some part =>
    have haccepted : payload.accepted? P db me =
        if !payload.conflicts P db me part.content && !Message.raises P (some me) false part.text then some part
        else none := by
      rw [Payload.accepted?, hfits, hpart, Option.filter_some, if_neg Bool.false_ne_true]
    simp only [hconflicts]
    cases hconflict : payload.conflicts P db me part.content with
    | true =>
      rw [hconflict] at haccepted
      exact .stopped base c isNew _ hreach haccepted (Or.inr ⟨_, rfl⟩)
    | false =>
      rcases Message.create_cases P (announce P base now me c (payload.request? db me)).1 now c (some me) false
        part.text with ⟨hraises, hcreate⟩ | ⟨hraises, hcreate⟩
      · rw [hconflict, hraises] at haccepted
        simp only [hcreate]
        exact .stopped base c isNew _ hreach haccepted (Or.inl rfl)
      · rw [hconflict, hraises] at haccepted
        simp only [hcreate]
        exact .delivered base c isNew part _ hreach haccepted rfl

theorem outcome_of_raises {P : Platform} {db base : Db} {now : ℕ} {online : List ℕ} {me c : ℕ} {payload : Payload}
    {isNew : Bool} (hreach : payload.Reaches db now me base c isNew)
    (hraises : announcementRaises P me (payload.request? db me) = true) :
    Outcome P db now online me payload (base, [.logged]) := by
  have haccepted : payload.accepted? P db me = none := by rw [Payload.accepted?, if_pos hraises]
  have hstopped : Outcome P db now online me payload _ := .stopped base c isNew .logged hreach haccepted (Or.inl rfl)
  rwa [announce_raises P base now me c hraises] at hstopped

theorem createConversation_half (db : Db) (now me : ℕ) : ∃ left, createConversation db now me me = .error left := by
  cases h : createConversation db now me me with
  | error left => exact ⟨left, rfl⟩
  | ok found => exact absurd h createConversation_self

/-- The conversation with the partner is found or created. -/
theorem outcome_of_partner {P : Platform} {db : Db} (hc : Consistent db) {now : ℕ} {online : List ℕ} {me t : ℕ}
    {payload : Payload} {result : Db × List Event} (hid : payload.message.bind MessagePart.conversationId = none)
    (hpartner : payload.partner? db me = some t)
    (hraised : ∀ c isNew base, findOrCreate db now me t = .ok (c, isNew, base) →
      announcementRaises P me (payload.request? db me) = true → result = (base, [.logged]))
    (hok : ∀ c isNew base, findOrCreate db now me t = .ok (c, isNew, base) →
      announcementRaises P me (payload.request? db me) = false →
      result = if (announce P base now me c (payload.request? db me)).1.conversationUsers.has (c, me) then
        addMessage P (announce P base now me c (payload.request? db me)).1 now online me c isNew
          (announce P base now me c (payload.request? db me)).2 payload.message
        else ((announce P base now me c (payload.request? db me)).1, [.failure .notFound]))
    (herror : ∀ left, findOrCreate db now me t = .error left → result = (left, [.logged])) :
    Outcome P db now online me payload result := by
  have hexisting : payload.existing? db me = (sharedConversation db t me).map Conversation.id := by
    rw [Payload.existing?_of_partner hid, hpartner, Option.bind_some]
  have hfound : ∀ c isNew base, findOrCreate db now me t = .ok (c, isNew, base) →
      payload.Reaches db now me base c isNew → base.conversationUsers.has (c, me) = true →
      Outcome P db now online me payload result := by
    intro c isNew base hfind hreach hhas
    cases hraises : announcementRaises P me (payload.request? db me) with
    | true =>
      rw [hraised c isNew base hfind hraises]
      exact outcome_of_raises hreach hraises
    | false =>
      rw [hok c isNew base hfind hraises, announce_has, if_pos hhas]
      exact outcome_of_reaches hreach hraises
  cases hs : sharedConversation db t me with
  | some c =>
    have hfind : findOrCreate db now me t = .ok (c.id, false, db) := by simp only [findOrCreate, hs]
    have hhas := (mem_participants db c.id me).mp (sharedConversation_some hs).2.2
    exact hfound _ _ _ hfind (.existing c.id (by rw [hexisting, hs, Option.map_some])) hhas
  | none =>
    have hex : payload.existing? db me = none := by rw [hexisting, hs, Option.map_none]
    by_cases hne : t = me
    · subst hne
      obtain ⟨left, hleft⟩ := createConversation_half db now t
      have hfind : findOrCreate db now t t = .error left := by simp only [findOrCreate, hs, hleft]
      rw [herror left hfind]
      exact .half left hex hpartner hleft
    · obtain ⟨created, hcreated, -⟩ := createConversation_pair hc now (Ne.symm hne)
      have hfind : findOrCreate db now me t = .ok (db.conversations.fresh, true, created) := by
        simp only [findOrCreate, hs, hcreated]
      exact hfound _ _ _ hfind (.fresh t created hex hpartner hne hcreated) (createConversation_has hcreated)

theorem postMessage_unknown (P : Platform) {db : Db} (now : ℕ) (online : List ℕ) {me : ℕ} (hm : db.users.has me = false)
    (payload : Payload) : postMessage P db now online me payload = (db, [.failure .unauthorized]) := by
  rw [postMessage, if_neg (by rw [hm]; exact Bool.false_ne_true)]

section Branches

variable (P : Platform) {db : Db} (hc : Consistent db) (now : ℕ) (online : List ℕ) {me : ℕ}
  (hm : db.users.has me = true) {payload : Payload}

include hc hm

/-- A message to a conversation that it names. -/
theorem outcome_of_conversation {id : ℕ} (hid : payload.message.bind MessagePart.conversationId = some id) :
    Outcome P db now online me payload (postMessage P db now online me payload) := by
  have hpartner : payload.partner? db me = none := by simp only [Payload.partner?, hid]
  have hrequest : payload.request? db me = none := by simp only [Payload.request?, hid]
  have hexisting : payload.existing? db me = if db.conversationUsers.has (id, me) then some id else none := by
    simp only [Payload.existing?, hid]
  simp only [postMessage, if_pos hm, lookup, hid]
  cases hget : db.conversations.get? id with
  | none =>
    have hhas : ¬ db.conversationUsers.has (id, me) = true := by
      intro hhas
      have hconv := (hc.memberships _ ((mem_memberships db id me).mpr hhas)).1
      rw [Table.has, hget] at hconv
      cases hconv
    exact .refused _ (by rw [hexisting, if_neg hhas]) hpartner (Or.inr ⟨_, rfl⟩)
  | some c =>
    have hkey : c.id = id := Table.get?_key hget
    simp only [Option.map_some, hkey]
    split
    · rename_i hhas
      have h : Outcome P db now online me payload _ :=
        outcome_of_reaches (.existing id (by rw [hexisting, if_pos hhas])) (by rw [hrequest]; rfl)
      rw [hrequest] at h
      exact h
    · rename_i hhas
      exact .refused _ (by rw [hexisting, if_neg hhas]) hpartner (Or.inr ⟨_, rfl⟩)

variable (hid : payload.message.bind MessagePart.conversationId = none)

include hid

theorem outcome_of_request {requestId : ℕ} (hq : payload.requestId = some requestId) :
    Outcome P db now online me payload (postMessage P db now online me payload) := by
  have hrequest : payload.request? db me = (db.requests.get? requestId).filter (fun r => decide (r.userId ≠ me)) := by
    simp only [Payload.request?, hid, hq, Option.bind_some]
  have hpartner : payload.partner? db me = (payload.request? db me).map Request.userId := by
    simp only [Payload.partner?, hid, hq]
  simp only [postMessage, if_pos hm, lookup, hid, hq]
  cases hr : db.requests.get? requestId with
  | none =>
    rw [hrequest, hr, Option.filter_none, Option.map_none] at hpartner
    exact .refused _ (Payload.existing?_of_stranger hid hpartner) hpartner (Or.inr ⟨_, rfl⟩)
  | some request =>
    simp only [requestBranch]
    by_cases hown : request.userId = me
    · rw [hrequest, hr, Option.filter_some, if_neg (by simpa using hown), Option.map_none] at hpartner
      rw [if_pos hown]
      exact .refused _ (Payload.existing?_of_stranger hid hpartner) hpartner (Or.inr ⟨_, rfl⟩)
    · rw [hr, Option.filter_some, if_pos (by simpa using hown)] at hrequest
      rw [hrequest, Option.map_some] at hpartner
      rw [if_neg hown, if_pos (hc.author (Table.get?_mem hr))]
      apply outcome_of_partner hc hid hpartner
      · intro c isNew base hfind hraises
        rw [hrequest, announcementRaises, Option.any_some] at hraises
        simp only [hfind, Message.create, hraises, if_true]
      · intro c isNew base hfind hfits
        rw [hrequest] at hfits ⊢
        rw [announce_some P base now me c hfits]
        rw [announcementRaises, Option.any_some] at hfits
        simp only [hfind, Message.create, hfits, Bool.false_eq_true, if_false]
      · intro left hfind
        simp only [hfind]

theorem outcome_of_user (hq : payload.requestId = none) :
    Outcome P db now online me payload (postMessage P db now online me payload) := by
  have hrequest : payload.request? db me = none := by
    simp only [Payload.request?, hid, hq]
    rfl
  have hpartner : payload.partner? db me = payload.userId.filter db.users.has := by simp only [Payload.partner?, hid, hq]
  simp only [postMessage, if_pos hm, lookup, hid, hq]
  cases hu : payload.userId with
  | none =>
    rw [hu, Option.filter_none] at hpartner
    exact .refused _ (Payload.existing?_of_stranger hid hpartner) hpartner (Or.inr ⟨_, rfl⟩)
  | some t =>
    rw [hu, Option.filter_some] at hpartner
    simp only [userBranch]
    by_cases ht : db.users.has t = true
    · rw [if_pos ht] at hpartner
      rw [if_pos ht]
      apply outcome_of_partner hc hid hpartner
      · intro c isNew base hfind hraises
        rw [hrequest] at hraises
        cases hraises
      · intro c isNew base hfind _
        simp only [hfind, hrequest, announce]
      · intro left hfind
        simp only [hfind]
    · rw [if_neg ht] at hpartner
      rw [if_neg ht]
      exact .refused _ (Payload.existing?_of_stranger hid hpartner) hpartner (Or.inl rfl)

end Branches

theorem postMessage_outcome (P : Platform) {db : Db} (hc : Consistent db) (now : ℕ) (online : List ℕ) {me : ℕ}
    (hm : db.users.has me = true) (payload : Payload) :
    Outcome P db now online me payload (postMessage P db now online me payload) := by
  cases hid : payload.message.bind MessagePart.conversationId with
  | some id => exact outcome_of_conversation P hc now online hm hid
  | none =>
    cases hq : payload.requestId with
    | some requestId => exact outcome_of_request P hc now online hm hid hq
    | none => exact outcome_of_user P hc now online hm hid hq

end ConversationsSocket

end Blnkk
