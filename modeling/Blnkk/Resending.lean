import Blnkk.AccountFrame
import Blnkk.InboxAgreement
import Blnkk.PostHonesty

/-!
What a payload of `post_message` does when it is processed a second time.
-/

namespace Blnkk

open Relational ConversationsSocket

/-- What `post_message` reads of a request. -/
def Request.heading (r : Request) : ℕ × ℕ × String := (r.id, r.userId, r.subject)

namespace ConversationsSocket

/-- A payload leads to the same conversation and the same request. -/
structure SameLookup (db db' : Db) : Prop where
  users : ∀ k, db'.users.has k = db.users.has k
  requests : ∀ id, (db'.requests.get? id).map Request.heading = (db.requests.get? id).map Request.heading
  requestUsers : ∀ k, db.requestUsers.has k = true → db'.requestUsers.has k = true
  conversations : db'.conversations.rows.map Conversation.id = db.conversations.rows.map Conversation.id
  members : ∀ k, db'.conversationUsers.has k = db.conversationUsers.has k

theorem announcementText_congr (P : Platform) {request request' : Option Request}
    (h : request'.map Request.heading = request.map Request.heading) :
    announcementText P request' = announcementText P request := by
  have htext : ∀ r : Option Request, r.map (fun r => P.sanitizeField (systemContent r)) =
      (r.map Request.heading).map (fun heading => P.sanitizeField (systemContent
        { id := heading.1, userId := heading.2.1, subject := heading.2.2, content := "" })) := by
    intro r
    cases r <;> rfl
  rw [announcementText, announcementText, htext, htext, h]

theorem announcementRaises_congr (P : Platform) (me : ℕ) {request request' : Option Request}
    (h : request'.map Request.heading = request.map Request.heading) :
    announcementRaises P me request' = announcementRaises P me request := by
  have hraises : ∀ r : Option Request, announcementRaises P me r =
      (r.map Request.heading).any (fun heading => Message.raises P (some me) true (some (systemContent
        { id := heading.1, userId := heading.2.1, subject := heading.2.2, content := "" }))) := by
    intro r
    cases r <;> rfl
  rw [hraises, hraises, h]

namespace SameLookup

variable {db db' db'' : Db}

theorem refl (db : Db) : SameLookup db db := ⟨fun _ => rfl, fun _ => rfl, fun _ h => h, rfl, fun _ => rfl⟩

theorem trans (h : SameLookup db db') (h' : SameLookup db' db'') : SameLookup db db'' :=
  ⟨fun k => (h'.users k).trans (h.users k), fun id => (h'.requests id).trans (h.requests id),
    fun k hk => h'.requestUsers k (h.requestUsers k hk), h'.conversations.trans h.conversations,
    fun k => (h'.members k).trans (h.members k)⟩

theorem create_message (P : Platform) (db : Db) (now c me : ℕ) (systemGenerated : Bool) (content : Option String) :
    SameLookup db (Message.save P db now c (some me) systemGenerated content).2 := by
  have hmembers := save_message_has P db now me c systemGenerated content
  rcases Message.save_cases P db now c (some me) systemGenerated content with h | ⟨text, h⟩
  · rw [h]
    exact .refl db
  · have hids := Table.map_updateWhere db.conversations (fun row => decide (row.id = c))
      (fun row => { row with updatedAt := now }) (fun _ => rfl) Conversation.id (fun _ => rfl)
    rw [h] at hmembers ⊢
    exact ⟨fun _ => rfl, fun _ => rfl, fun _ hk => hk, hids, hmembers⟩

theorem joinRequest (db : Db) (r : Request) (me : ℕ) : SameLookup db (db.joinRequest r me) := by
  refine ⟨fun _ => rfl, fun id => ?_, fun k hk => (Table.has_ensure _ _ _).mpr (Or.inl hk), rfl, fun _ => rfl⟩
  rw [Db.joinRequest, Request.get?_updateScore]
  split_ifs
  · rw [Option.map_map]
    rfl
  · rfl

theorem announce (P : Platform) (db : Db) (now me c : ℕ) (request : Option Request) :
    SameLookup db (announce P db now me c request).1 := by
  rcases announce_cases P db now me c request with h | ⟨r, -, h⟩
  · rw [h]
    exact .refl db
  · rw [h]
    exact (create_message P db now c me true _).trans (joinRequest _ r me)

theorem notifyByEmail (db : Db) (conversation user : ℕ) (draft : Message.Draft) :
    SameLookup db (notifyByEmail db conversation user draft).1 := by
  unfold ConversationsSocket.notifyByEmail
  cases db.conversationUsers.get? (conversation, user) with
  | none => exact .refl db
  | some cu =>
    simp only
    split_ifs
    · exact .refl db
    · refine ⟨fun _ => rfl, fun _ => rfl, fun _ h => h, rfl, fun k => ?_⟩
      exact Table.has_update db.conversationUsers (conversation, user) (fun cu => { cu with notified := true })
        (fun _ => rfl) k

theorem deliver (online : List ℕ) (me c : ℕ) (isNew : Bool) (systemMessage : Option Message.Draft)
    (draft : Message.Draft) (users : List ℕ) (db : Db) (events : List Event) :
    SameLookup db (deliver online me c isNew systemMessage draft users (db, events)).1 :=
  deliver_relation refl trans (fun db user => notifyByEmail db c user draft) online me isNew systemMessage users db events

theorem sharedConversation_id (h : SameLookup db db') (other me : ℕ) :
    (sharedConversation db' other me).map Conversation.id = (sharedConversation db other me).map Conversation.id := by
  have hshared : ∀ d : Db, (sharedConversation d other me).map Conversation.id =
      (d.conversations.rows.map Conversation.id).find?
        (fun id => d.conversationUsers.has (id, other) && d.conversationUsers.has (id, me)) := by
    intro d
    rw [List.find?_map]
    rfl
  simp only [hshared, h.conversations, h.members]

variable {me : ℕ} {payload : Payload}

theorem request_heading (h : SameLookup db db') :
    (payload.request? db' me).map Request.heading = (payload.request? db me).map Request.heading := by
  have hfilter : ∀ r : Option Request, (r.filter (fun r => decide (r.userId ≠ me))).map Request.heading =
      (r.map Request.heading).filter (fun heading => decide (heading.2.1 ≠ me)) := by
    intro r
    cases r with
    | none => rfl
    | some r =>
      rw [Option.map_some, Option.filter_some, Option.filter_some, apply_ite (Option.map Request.heading)]
      rfl
  unfold Payload.request?
  split
  · rfl
  · rw [hfilter, hfilter, Option.map_bind, Option.map_bind]
    congr 2
    funext id
    exact h.requests id

theorem partner (h : SameLookup db db') : payload.partner? db' me = payload.partner? db me := by
  have huser : ∀ r : Option Request, r.map Request.userId = (r.map Request.heading).map (fun heading => heading.2.1) := by
    intro r
    cases r <;> rfl
  unfold Payload.partner?
  split
  · rfl
  · rw [huser, huser, h.request_heading]
  · congr 1
    funext k
    exact h.users k

theorem existing (h : SameLookup db db') : payload.existing? db' me = payload.existing? db me := by
  unfold Payload.existing?
  simp only [h.members, h.partner, h.sharedConversation_id]

end SameLookup

/-- A conversation that has just been created is the first that is shared. -/
theorem sharedConversation_start {db : Db} (now : ℕ) {other me : ℕ} {table : Table ConversationUser.index}
    {joined : List ConversationUser} (hnone : sharedConversation db other me = none)
    (hrows : table.rows = db.conversationUsers.rows ++ joined)
    (hjoined : ∀ cu ∈ joined, cu.conversationId = db.conversations.fresh)
    (ho : table.has (db.conversations.fresh, other) = true) (hm : table.has (db.conversations.fresh, me) = true) :
    (sharedConversation { startConversation db now with conversationUsers := table } other me).map Conversation.id =
      some db.conversations.fresh := by
  -- the new members are of the new conversation, so the older ones stay as they were
  have hold : ∀ row ∈ db.conversations.rows, ∀ u, table.has (row.id, u) = db.conversationUsers.has (row.id, u) := by
    intro row hrow u
    rw [Bool.eq_iff_iff, Table.has_append hrows]
    refine or_iff_left ?_
    rintro ⟨cu, hcu, hindex⟩
    have hid : row.id = db.conversations.fresh := (congrArg Prod.fst hindex).symm.trans (hjoined cu hcu)
    have hlt := Table.lt_fresh hrow
    omega
  have hfirst : db.conversations.rows.find? (fun c => table.has (c.id, other) && table.has (c.id, me)) = none := by
    rw [List.find?_eq_none]
    intro row hrow
    rw [hold row hrow, hold row hrow]
    exact List.find?_eq_none.mp hnone row hrow
  have hall : sharedConversation { startConversation db now with conversationUsers := table } other me =
      (db.conversations.rows ++ [Conversation.mk db.conversations.fresh now]).find?
        (fun c => table.has (c.id, other) && table.has (c.id, me)) := rfl
  rw [hall, List.find?_append, hfirst, Option.none_or, List.find?_cons_of_pos (by simp only [ho, hm, Bool.and_self])]
  rfl

structure Harmless (db : Db) (result : Db × List Event) : Prop where
  unchanged : result.1 = db
  silent : ∀ event ∈ result.2, event.isMessage = false

/-- There is no system message, and the message is none, a repetition, too long or
a text that is stored as it is. -/
def Payload.Faithful (P : Platform) (db : Db) (me : ℕ) (payload : Payload) : Prop :=
  announcementText P (payload.request? db me) = none ∧
    ∀ part, payload.accepted? P db me = some part →
      ∃ text, part.content = some (.text text) ∧ P.sanitizeField text = text ∧ Text.present text = true

def Payload.Resendable (P : Platform) (db : Db) (me : ℕ) (payload : Payload) : Prop :=
  match payload.existing? db me, payload.partner? db me with
  | none, none => True
  | none, some t => if t = me then payload.accepted? P db me = none else payload.Faithful P db me
  | some _, _ => payload.Faithful P db me

section Again

variable {P : Platform} {db : Db} {now me : ℕ} {payload : Payload}

theorem partner?_conversationId {t : ℕ} (h : payload.partner? db me = some t) :
    payload.message.bind MessagePart.conversationId = none := by
  unfold Payload.partner? at h
  split at h
  · cases h
  · assumption
  · assumption

theorem request?_of_own (h : payload.partner? db me = some me) : payload.request? db me = none := by
  have hid := partner?_conversationId h
  unfold Payload.partner? at h
  cases hrequest : payload.requestId with
  | none =>
    rw [Payload.request?, hid, hrequest]
    rfl
  | some id =>
    rw [hid, hrequest] at h
    obtain ⟨r, hr, hown⟩ := Option.map_eq_some_iff.mp h
    rw [Payload.request?, hid] at hr
    have hother := (Option.filter_eq_some_iff.mp hr).2
    exact absurd hown (of_decide_eq_true hother)

theorem Payload.Reaches.again {base : Db} {c : ℕ} {isNew : Bool} (h : payload.Reaches db now me base c isNew) :
    payload.existing? base me = some c ∧ payload.request? base me = payload.request? db me := by
  cases h with
  | existing c hex => exact ⟨hex, rfl⟩
  | fresh t base hex hpartner hne hcreated =>
    have hid := partner?_conversationId hpartner
    obtain ⟨-, table, rfl, hrows⟩ := createConversation_ok hcreated
    refine ⟨?_, rfl⟩
    rw [Payload.existing?_of_partner hid] at hex ⊢
    have hpartner' : payload.partner? { startConversation db now with conversationUsers := table } me = some t := hpartner
    rw [hpartner, Option.bind_some, Option.map_eq_none_iff] at hex
    rw [hpartner', Option.bind_some]
    refine sharedConversation_start now hex hrows ?_ ?_ ?_
    · simp
    · exact (Table.has_append hrows _).mpr (Or.inr ⟨_, List.mem_cons_of_mem _ List.mem_cons_self, rfl⟩)
    · exact createConversation_has hcreated

theorem half_again {left : Db} (hc : Consistent db) (hex : payload.existing? db me = none)
    (hpartner : payload.partner? db me = some me) (hleft : createConversation db now me me = .error left) :
    payload.existing? left me = some db.conversations.fresh ∧ payload.request? left me = none ∧ left.messages = db.messages := by
  have hid := partner?_conversationId hpartner
  have hhas := half_has hc hleft
  obtain ⟨table, rfl, hrows⟩ := createConversation_error hleft
  refine ⟨?_, request?_of_own hpartner, rfl⟩
  have hrows : table.rows = db.conversationUsers.rows ++
      [{ conversationId := db.conversations.fresh, userId := me, lastReadAt := now }] := by
    rcases hrows with ⟨-, habsent⟩ | ⟨hrows, -⟩
    · rw [fresh_absent hc me] at habsent
      cases habsent
    · exact hrows
  rw [Payload.existing?_of_partner hid] at hex ⊢
  have hpartner' : payload.partner? { startConversation db now with conversationUsers := table } me = some me := hpartner
  rw [hpartner, Option.bind_some, Option.map_eq_none_iff] at hex
  rw [hpartner', Option.bind_some]
  refine sharedConversation_start now hex hrows ?_ hhas hhas
  simp

theorem Payload.accepted?_congr {db' : Db} {c : ℕ} (htext : announcementText P (payload.request? db me) = none)
    (htext' : announcementText P (payload.request? db' me) = none)
    (hraises : announcementRaises P me (payload.request? db' me) = announcementRaises P me (payload.request? db me))
    (hc : (payload.existing? db me).getD db.conversations.fresh = c)
    (hc' : payload.existing? db' me = some c)
    (hmessages : db'.messages.rows = db.messages.rows) : payload.accepted? P db' me = payload.accepted? P db me := by
  simp only [Payload.accepted?, Payload.conflicts, htext, htext', hraises, hc, hc', Option.getD_some, repeats, hmessages]

end Again

section Second

variable {P : Platform} {db : Db} {me : ℕ} {payload : Payload}

theorem messageFor?_isMessage {p : ℕ} {event : Event} {u : MessageUpdate} (h : event.messageFor? p = some u) :
    event.isMessage = true := by
  cases event with
  | messageNew => rfl
  | _ => cases h

theorem not_harmless_of_accepted (hc : Consistent db) (now : ℕ) (online : List ℕ) (hm : db.users.has me = true)
    {c : ℕ} (hex : payload.existing? db me = some c) {part : MessagePart}
    (haccepted : payload.accepted? P db me = some part) : ¬ Harmless db (postMessage P db now online me payload) := by
  intro h
  have hsender : me = me ∨ me ∈ online := Or.inl rfl
  have hreceived := (postMessage_received (P := P) hc now hm hsender payload).2
  have hne : received me (postMessage P db now online me payload).2 ≠ [] := by
    intro hnil
    refine hreceived.mp hnil ⟨?_, c, hex, Payload.existing?_has hex⟩
    rw [haccepted, Option.isSome_some]
  obtain ⟨u, hu⟩ := List.exists_mem_of_ne_nil _ hne
  obtain ⟨event, hevent, hfor⟩ := List.mem_filterMap.mp hu
  have hsilent := h.silent event hevent
  rw [messageFor?_isMessage hfor] at hsilent
  cases hsilent

theorem harmless_of_refused {answer : Event} (h : answer = .logged ∨ ∃ status, answer = .failure status) :
    Harmless db (db, [answer]) := ⟨rfl, fun event hevent => ((answer_silent h).2 event hevent).1⟩

theorem harmless_iff (hc : Consistent db) (hs : Scores db) (now : ℕ) (online : List ℕ) (hm : db.users.has me = true)
    {c : ℕ} (hex : payload.existing? db me = some c)
    (hjoined : ∀ r, payload.request? db me = some r → announcementRaises P me (some r) = true ∨
      db.requestUsers.has (r.id, me) = true) :
    Harmless db (postMessage P db now online me payload) ↔
      payload.accepted? P db me = none ∧ announcementText P (payload.request? db me) = none := by
  cases haccepted : payload.accepted? P db me with
  | some part =>
    exact iff_of_false (not_harmless_of_accepted hc now online hm hex haccepted) nofun
  | none =>
    rw [and_iff_right rfl]
    have houtcome := postMessage_outcome P hc now online hm payload
    generalize postMessage P db now online me payload = result at houtcome ⊢
    cases houtcome with
    | refused answer hnone =>
      rw [hnone] at hex
      cases hex
    | half left hnone =>
      rw [hnone] at hex
      cases hex
    | stopped base c' isNew answer hreach haccepted' hanswer =>
      cases hreach with
      | existing c' hex' =>
        constructor
        · intro h
          exact announcementText_of_messages (congrArg Db.messages h.unchanged)
        · intro htext
          have hquiet : ∀ r, payload.request? db me = some r → announcementRaises P me (some r) = true ∨
              announcementText P (some r) = none ∧ db.requestUsers.has (r.id, me) = true :=
            fun r hr => (hjoined r hr).imp_right (fun hu => ⟨hr ▸ htext, hu⟩)
          rw [announce_quiet hs now c' (fun r => Payload.request?_mem) hquiet]
          exact harmless_of_refused hanswer
      | fresh t created hnone =>
        rw [hnone] at hex
        cases hex
    | delivered base c' isNew part created hreach hsome =>
      rw [haccepted] at hsome
      cases hsome

theorem harmless_of_unaddressed (hc : Consistent db) (now : ℕ) (online : List ℕ) (hm : db.users.has me = true)
    (hex : payload.existing? db me = none) (hpartner : payload.partner? db me = none) :
    Harmless db (postMessage P db now online me payload) := by
  have houtcome := postMessage_outcome P hc now online hm payload
  generalize postMessage P db now online me payload = result at houtcome ⊢
  have hunreached : ∀ base c isNew, ¬ payload.Reaches db now me base c isNew := by
    intro base c isNew hreach
    cases hreach with
    | existing c hsome =>
      rw [hex] at hsome
      cases hsome
    | fresh t created _ hsome =>
      rw [hpartner] at hsome
      cases hsome
  cases houtcome with
  | refused answer _ _ hanswer => exact harmless_of_refused hanswer
  | half left _ hsome =>
    rw [hpartner] at hsome
    cases hsome
  | stopped base c isNew answer hreach => exact absurd hreach (hunreached base c isNew)
  | delivered base c isNew part created hreach => exact absurd hreach (hunreached base c isNew)

theorem Payload.Reaches.second {base db' : Db} {now c : ℕ} {isNew : Bool} (h : payload.Reaches db now me base c isNew)
    (hsame : SameLookup (announce P base now me c (payload.request? db me)).1 db') :
    payload.existing? db' me = some c ∧
      announcementText P (payload.request? db' me) = announcementText P (payload.request? db me) ∧
      announcementRaises P me (payload.request? db' me) = announcementRaises P me (payload.request? db me) ∧
      ∀ r, payload.request? db' me = some r → announcementRaises P me (some r) = true ∨
        db'.requestUsers.has (r.id, me) = true := by
  obtain ⟨hex, hrequest⟩ := h.again
  have hall := (SameLookup.announce P base now me c (payload.request? db me)).trans hsame
  have hheading : (payload.request? db' me).map Request.heading = (payload.request? base me).map Request.heading :=
    hall.request_heading
  rw [hrequest] at hheading
  have hraises := announcementRaises_congr P me hheading
  refine ⟨hall.existing.trans hex, announcementText_congr P hheading, hraises, fun r hr => ?_⟩
  rw [hr, Option.map_some] at hheading
  obtain ⟨r', hr', hsame'⟩ := Option.map_eq_some_iff.mp hheading.symm
  have hid : r'.id = r.id := congrArg Prod.fst hsame'
  rw [hr, hr'] at hraises
  cases hfits : announcementRaises P me (some r') with
  | true => exact Or.inl (hraises.trans hfits)
  | false =>
    right
    rw [← hid]
    apply hsame.requestUsers
    rw [hr']
    exact announce_joined P base now c hfits

theorem Payload.Reaches.resendable_iff {base : Db} {now c : ℕ} {isNew : Bool} (h : payload.Reaches db now me base c isNew) :
    payload.Resendable P db me ↔ payload.Faithful P db me := by
  rw [Payload.Resendable]
  cases h with
  | existing c hex => rw [hex]
  | fresh t base hex hpartner hne =>
    rw [hex, hpartner]
    exact iff_of_eq (if_neg hne)

theorem accepted?_stopped {base db' : Db} {now c : ℕ} {isNew : Bool} (hreach : payload.Reaches db now me base c isNew)
    (hmessages : db'.messages = (announce P base now me c (payload.request? db me)).1.messages)
    (hex : payload.existing? db' me = some c) (htext : announcementText P (payload.request? db me) = none)
    (htext' : announcementText P (payload.request? db' me) = none)
    (hraises : announcementRaises P me (payload.request? db' me) = announcementRaises P me (payload.request? db me)) :
    payload.accepted? P db' me = payload.accepted? P db me := by
  refine Payload.accepted?_congr htext htext' hraises hreach.conversation hex ?_
  rw [hmessages, announce_messages, htext, Option.toList_none, List.map_nil, List.append_nil, hreach.messages]

/-- Only a text that is stored as it is repeats itself. -/
theorem accepted?_delivered {base db' : Db} {now c : ℕ} {isNew : Bool} {part : MessagePart} {created : Message.Draft × Db}
    (hreach : payload.Reaches db now me base c isNew) (haccepted : payload.accepted? P db me = some part)
    (hcreated : Message.save P (announce P base now me c (payload.request? db me)).1 now c (some me) false
      part.text = created)
    (hmessages : db'.messages = created.2.messages) (hex : payload.existing? db' me = some c)
    (htext : announcementText P (payload.request? db me) = none)
    (htext' : announcementText P (payload.request? db' me) = none)
    (hraises : announcementRaises P me (payload.request? db' me) = announcementRaises P me (payload.request? db me)) :
    payload.accepted? P db' me = none ↔
      ∃ text, part.content = some (.text text) ∧ P.sanitizeField text = text ∧ Text.present text = true := by
  subst hcreated
  by_cases hblank : Blank P part.text
  -- nothing is stored, and the check sees what it saw the first time
  · rw [(save_message_blank P _ now me c hblank).1] at hmessages
    rw [accepted?_stopped hreach hmessages hex htext htext' hraises, haccepted]
    refine iff_of_false nofun ?_
    rintro ⟨text, hcontent, hclean, hp⟩
    have habsent := hblank text (by rw [MessagePart.text, hcontent, Option.map_some, Option.map_some, Content.cast, hclean])
    rw [hp] at habsent
    cases habsent
  -- the last message is the stored text, with which the check compares the raw one
  · obtain ⟨text, hmap, hp⟩ := not_blank_iff.mp hblank
    rw [save_message_stored P _ now me c hmap hp] at hmessages
    obtain ⟨raw, hraw, rfl⟩ := Option.map_eq_some_iff.mp hmap
    obtain ⟨content, hcontent, rfl⟩ := Option.map_eq_some_iff.mp hraw
    obtain ⟨hpart, hannounces, -, hfits⟩ := Payload.accepted?_some haccepted
    have hrows : db'.messages.rows = (announce P base now me c (payload.request? db me)).1.messages.rows ++
        [{ id := (announce P base now me c (payload.request? db me)).1.messages.fresh, conversationId := c,
           userId := some me, systemGenerated := false, content := P.sanitizeField content.cast, createdAt := now,
           updatedAt := now }] := by
      rw [hmessages]
      rfl
    have hrepeats : repeats db' me c (some content) =
        decide (some content = some (.text (P.sanitizeField content.cast))) := repeats_of_last hrows rfl rfl
    have hconflicts : payload.conflicts P db' me part.content =
        decide (content = .text (P.sanitizeField content.cast)) := by
      simp only [Payload.conflicts, htext', hex, Option.getD_some, hcontent, hrepeats, Option.some.injEq]
    have haccepted' : payload.accepted? P db' me = none ↔ content = .text (P.sanitizeField content.cast) := by
      rw [Payload.accepted?, hraises, hannounces, if_neg Bool.false_ne_true, hpart, Option.filter_some, hconflicts, hfits]
      simp
    rw [haccepted']
    constructor
    · intro h
      have hclean : P.sanitizeField content.cast = content.cast := (congrArg Content.cast h).symm
      rw [hclean] at h hp
      exact ⟨content.cast, hcontent.trans (congrArg some h), hclean, hp⟩
    · rintro ⟨text, htext, hclean, -⟩
      rw [hcontent, Option.some.injEq] at htext
      rw [htext, Content.cast, hclean]

theorem harmless_half_iff (hc : Consistent db) {now : ℕ} {left : Db} (hex : payload.existing? db me = none)
    (hpartner : payload.partner? db me = some me) (hleft : createConversation db now me me = .error left)
    (hc' : Consistent left) (hs' : Scores left) (hm' : left.users.has me = true) (now' : ℕ) (online' : List ℕ) :
    Harmless left (postMessage P left now' online' me payload) ↔ payload.Resendable P db me := by
  obtain ⟨hex', hrequest, hmessages⟩ := half_again hc hex hpartner hleft
  have htext : announcementText P (payload.request? db me) = none := by
    rw [request?_of_own hpartner]
    rfl
  have htext' : announcementText P (payload.request? left me) = none := by
    rw [hrequest]
    rfl
  have hconversation : (payload.existing? db me).getD db.conversations.fresh = db.conversations.fresh := by
    rw [hex, Option.getD_none]
  have hjoined : ∀ r, payload.request? left me = some r → announcementRaises P me (some r) = true ∨
      left.requestUsers.has (r.id, me) = true := by
    intro r hr
    rw [hrequest] at hr
    cases hr
  rw [harmless_iff hc' hs' now' online' hm' hex' hjoined, and_iff_left htext',
    Payload.accepted?_congr htext htext' (by rw [hrequest, request?_of_own hpartner]) hconversation hex'
      (by rw [hmessages]), Payload.Resendable, hex, hpartner]
  exact (iff_of_eq (if_pos rfl)).symm

theorem harmless_stopped_iff {base : Db} {now c : ℕ} {isNew : Bool} (hreach : payload.Reaches db now me base c isNew)
    (haccepted : payload.accepted? P db me = none)
    (hc' : Consistent (announce P base now me c (payload.request? db me)).1)
    (hs' : Scores (announce P base now me c (payload.request? db me)).1)
    (hm' : (announce P base now me c (payload.request? db me)).1.users.has me = true) (now' : ℕ) (online' : List ℕ) :
    Harmless (announce P base now me c (payload.request? db me)).1
        (postMessage P (announce P base now me c (payload.request? db me)).1 now' online' me payload) ↔
      payload.Resendable P db me := by
  obtain ⟨hex', htext', hraises, hjoined⟩ := hreach.second (P := P) (.refl _)
  rw [harmless_iff hc' hs' now' online' hm' hex' hjoined, hreach.resendable_iff, Payload.Faithful, haccepted, htext']
  constructor
  · intro h
    exact ⟨h.2, nofun⟩
  · intro h
    rw [accepted?_stopped hreach rfl hex' h.1 (htext'.trans h.1) hraises]
    exact ⟨haccepted, h.1⟩

theorem harmless_delivered_iff {base db' : Db} {now c : ℕ} {isNew : Bool} {part : MessagePart}
    {created : Message.Draft × Db} (hreach : payload.Reaches db now me base c isNew)
    (haccepted : payload.accepted? P db me = some part)
    (hcreated : Message.save P (announce P base now me c (payload.request? db me)).1 now c (some me) false
      part.text = created)
    (hsame : SameLookup created.2 db') (hmessages : db'.messages = created.2.messages) (hc' : Consistent db')
    (hs' : Scores db') (hm' : db'.users.has me = true) (now' : ℕ) (online' : List ℕ) :
    Harmless db' (postMessage P db' now' online' me payload) ↔ payload.Resendable P db me := by
  have hcreate := SameLookup.create_message P (announce P base now me c (payload.request? db me)).1 now c me false
    part.text
  rw [hcreated] at hcreate
  obtain ⟨hex', htext', hraises, hjoined⟩ := hreach.second (hcreate.trans hsame)
  have hagain := fun htext =>
    accepted?_delivered hreach haccepted hcreated hmessages hex' htext (htext'.trans htext) hraises
  rw [harmless_iff hc' hs' now' online' hm' hex' hjoined, hreach.resendable_iff, Payload.Faithful, haccepted, htext']
  constructor
  · rintro ⟨hnone, htext⟩
    refine ⟨htext, fun part' hpart => ?_⟩
    cases hpart
    exact (hagain htext).mp hnone
  · rintro ⟨htext, hclean⟩
    exact ⟨(hagain htext).mpr (hclean part rfl), htext⟩

end Second

end ConversationsSocket

theorem resending_harmless_iff (P : Platform) (db : Db) (hdb : Reachable P db) (now now' : ℕ) (online online' : List ℕ)
    (me : ℕ) (payload : Payload) :
    Harmless (postMessage P db now online me payload).1
        (postMessage P (postMessage P db now online me payload).1 now' online' me payload) ↔
      db.users.has me = false ∨ payload.Resendable P db me := by
  cases hm : db.users.has me with
  | false =>
    rw [postMessage_unknown P now online hm payload, postMessage_unknown P now' online' hm payload]
    exact iff_of_true (harmless_of_refused (Or.inr ⟨_, rfl⟩)) (Or.inl rfl)
  | true =>
    rw [or_iff_right Bool.noConfusion]
    have hc := hdb.consistent
    have hdb' : Reachable P (postMessage P db now online me payload).1 := hdb.step (.postMessage now online me payload)
    have hm' : (postMessage P db now online me payload).1.users.has me = true := by
      have hkept := congrArg Option.isSome ((postMessage_kept P db now online me payload).users me)
      rw [Option.isSome_map, Option.isSome_map] at hkept
      exact hkept.trans hm
    have houtcome := postMessage_outcome P hc now online hm payload
    generalize postMessage P db now online me payload = result at houtcome hdb' hm' ⊢
    cases houtcome with
    | refused answer hex hpartner =>
      rw [Payload.Resendable, hex, hpartner]
      exact iff_of_true (harmless_of_unaddressed hc now' online' hm hex hpartner) trivial
    | half left hex hpartner hleft =>
      exact harmless_half_iff hc hex hpartner hleft hdb'.consistent hdb'.scores hm' now' online'
    | stopped base c isNew answer hreach haccepted =>
      exact harmless_stopped_iff hreach haccepted hdb'.consistent hdb'.scores hm' now' online'
    | delivered base c isNew part created hreach haccepted hcreated =>
      exact harmless_delivered_iff hreach haccepted hcreated (.deliver online me c isNew _ _ _ _ [])
        (deliver_messages online me c isNew _ _ _ _ []) hdb'.consistent hdb'.scores hm' now' online'

theorem hello_resent :
    Reachable .plain annMeetsBob ∧
      Harmless (postMessage .plain annMeetsBob 10 [] 1 (toBob "hello")).1
        (postMessage .plain (postMessage .plain annMeetsBob 10 [] 1 (toBob "hello")).1 20 [] 1 (toBob "hello")) := by
  have hdb : Reachable .plain annMeetsBob := ⟨{}, _, rfl⟩
  refine ⟨hdb, (resending_harmless_iff .plain annMeetsBob hdb 10 20 [] [] 1 (toBob "hello")).mpr (Or.inr ?_)⟩
  have hexisting : (toBob "hello").existing? annMeetsBob 1 = none := by decide +kernel
  have hpartner : (toBob "hello").partner? annMeetsBob 1 = some 2 := by decide +kernel
  rw [Payload.Resendable, hexisting, hpartner]
  refine (if_neg (by decide)).mpr ⟨rfl, fun part hpart => ?_⟩
  obtain ⟨hmessage, -⟩ := Payload.accepted?_some hpart
  cases hmessage
  exact ⟨"hello", rfl, by decide, by decide⟩

def annWantsBike : Db :=
  Transition.run (step .plain) (Db.new {})
    [.signUp "ann@blnkk.com" "ann", .signUp "bob@blnkk.com" "bob", .createRequest 1 "bike" "wanted" none]

def replyToRequest : Payload := { message := some { content := some "I have one" }, requestId := some 1 }

/-- The last message is the new system message, never the reply. -/
theorem reply_stored_twice :
    Reachable .plain annWantsBike ∧
      ¬ Harmless (postMessage .plain annWantsBike 10 [] 2 replyToRequest).1
        (postMessage .plain (postMessage .plain annWantsBike 10 [] 2 replyToRequest).1 20 [] 2 replyToRequest) := by
  refine ⟨⟨{}, _, rfl⟩, fun h => ?_⟩
  have hlength := congrArg (fun db : Db => db.messages.rows.length) h.unchanged
  revert hlength
  decide +kernel

end Blnkk
