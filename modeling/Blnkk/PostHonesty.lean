import Blnkk.MessageTarget
import Blnkk.PostOutcome
import Blnkk.RequestScore

/-!
When `post_message` announces exactly the messages that it has stored, and
leaves no trace of the others.
-/

namespace Blnkk

open Relational ConversationsSocket

namespace ConversationsSocket

def Event.isMessage : Event → Bool
  | conversationNew .. | messageNew .. => true
  | _ => false

def Event.isEmail : Event → Bool
  | conversationReply .. => true
  | _ => false

def Announced (events : List Event) : Prop := ∃ conversation, .success .created conversation ∈ events

def UserMessageStored (db db' : Db) : Prop :=
  ∃ m ∈ db'.messages.rows, m ∉ db.messages.rows ∧ m.systemGenerated = false

structure Untouched (db : Db) (result : Db × List Event) : Prop where
  conversations : result.1.conversations = db.conversations
  conversationUsers : result.1.conversationUsers = db.conversationUsers
  messages : result.1.messages = db.messages
  requestUsers : result.1.requestUsers = db.requestUsers
  scores : ∀ id, (result.1.requests.get? id).map Request.score = (db.requests.get? id).map Request.score
  silent : ∀ event ∈ result.2, event.isMessage = false ∧ event.isEmail = false

structure Honest (db : Db) (result : Db × List Event) : Prop where
  announced : Announced result.2 ↔ UserMessageStored db result.1
  untouched : ¬ Announced result.2 → Untouched db result

/-- A message that is stored, or one that neither creates a conversation nor
leaves anything at a request. Nothing is left at the request if already the system
message about it does not fit. -/
def Payload.Clear (P : Platform) (db : Db) (me : ℕ) (payload : Payload) : Prop :=
  match payload.existing? db me, payload.partner? db me with
  | none, none => True
  | none, some t => t ≠ me ∧ ∃ part, payload.accepted? P db me = some part ∧ ¬ Blank P part.text
  | some _, _ =>
    match payload.accepted? P db me with
    | some part => ¬ Blank P part.text
    | none => ∀ r, payload.request? db me = some r → announcementRaises P me (some r) = true ∨
        announcementText P (some r) = none ∧ db.requestUsers.has (r.id, me) = true

section Traces

variable {P : Platform} {db : Db} {me : ℕ} {payload : Payload}

theorem joinRequest_again (hs : Scores db) {r : Request} (hr : r ∈ db.requests.rows)
    (hu : db.requestUsers.has (r.id, me) = true) : db.joinRequest r me = db := by
  rw [Db.joinRequest, Table.ensure_of_has hu]
  exact updateScore_of_scored hr (hs.scored r hr) .comment

theorem joinRequest_has (db : Db) (r : Request) (me : ℕ) :
    (db.joinRequest r me).requestUsers.has (r.id, me) = true := (Table.has_ensure _ _ _).mpr (Or.inr rfl)

theorem announce_joined (P : Platform) (db : Db) (now c : ℕ) {me : ℕ} {r : Request}
    (hfits : announcementRaises P me (some r) = false) :
    (announce P db now me c (some r)).1.requestUsers.has (r.id, me) = true := by
  rw [announce_some P db now me c hfits, joinRequest_has]

/-- Without a text there is no system message, and who has replied before does
so again without effect. -/
theorem announce_quiet (hs : Scores db) (now c : ℕ) {request : Option Request}
    (hr : ∀ r, request = some r → r ∈ db.requests.rows)
    (hquiet : ∀ r, request = some r → announcementRaises P me (some r) = true ∨
      announcementText P (some r) = none ∧ db.requestUsers.has (r.id, me) = true) :
    (announce P db now me c request).1 = db := by
  cases request with
  | none => rfl
  | some r =>
    cases hraises : announcementRaises P me (some r) with
    | true => rw [announce_raises P db now me c hraises]
    | false =>
      obtain ⟨htext, hu⟩ := (hquiet r rfl).resolve_left (by rw [hraises]; exact Bool.false_ne_true)
      rw [announce_some P db now me c hraises,
        (save_message_blank P db now me c (announcementText_none P me hraises htext)).1]
      exact joinRequest_again hs (hr r rfl) hu

theorem announcementText_of_messages {now c : ℕ} {request : Option Request}
    (h : (announce P db now me c request).1.messages = db.messages) : announcementText P request = none := by
  have hrows := announce_messages P db now me c request
  rw [h, List.self_eq_append_right, List.map_eq_nil_iff, Option.toList_eq_nil_iff] at hrows
  exact hrows

theorem announce_quiet_iff (hs : Scores db) (now c : ℕ) {request : Option Request}
    (hr : ∀ r, request = some r → r ∈ db.requests.rows) {events : List Event}
    (hsilent : ∀ event ∈ events, event.isMessage = false ∧ event.isEmail = false) :
    Untouched db ((announce P db now me c request).1, events) ↔
      ∀ r, request = some r → announcementRaises P me (some r) = true ∨
        announcementText P (some r) = none ∧ db.requestUsers.has (r.id, me) = true := by
  constructor
  · rintro h r rfl
    cases hraises : announcementRaises P me (some r) with
    | true => exact Or.inl rfl
    | false =>
      have husers := announce_joined P db now c hraises
      have hkept : (announce P db now me c (some r)).1.requestUsers = db.requestUsers := h.requestUsers
      rw [hkept] at husers
      exact Or.inr ⟨announcementText_of_messages h.messages, husers⟩
  · intro h
    rw [announce_quiet hs now c hr h]
    exact ⟨rfl, rfl, rfl, rfl, fun _ => rfl, hsilent⟩

theorem announce_not_stored {base : Db} (hb : base.messages = db.messages) (now c : ℕ) (request : Option Request) :
    ¬ UserMessageStored db (announce P base now me c request).1 := by
  rintro ⟨m, hm, hnew, hsystem⟩
  rw [announce_messages, hb] at hm
  rcases List.mem_append.mp hm with hm | hm
  · exact hnew hm
  · obtain ⟨text, -, rfl⟩ := List.mem_map.mp hm
    cases hsystem

theorem delivered_stored_iff {base : Db} (hb : base.messages = db.messages) (now : ℕ) (online : List ℕ) (c : ℕ)
    (isNew : Bool) (request : Option Request) {content : Option String} {created : Message.Draft × Db}
    (hcreated : Message.save P (announce P base now me c request).1 now c (some me) false content = created) :
    UserMessageStored db (deliver online me c isNew (announce P base now me c request).2 created.1
        (created.2.participants c) (created.2, [])).1 ↔ ¬ Blank P content := by
  subst hcreated
  rw [UserMessageStored, deliver_messages]
  by_cases hblank : Blank P content
  · refine iff_of_false ?_ (not_not_intro hblank)
    rw [(save_message_blank P _ now me c hblank).1]
    exact announce_not_stored hb now c request
  · refine iff_of_true ?_ hblank
    obtain ⟨text, htext, hp⟩ := not_blank_iff.mp hblank
    rw [save_message_stored P _ now me c htext hp]
    refine ⟨_, List.mem_append_right _ List.mem_cons_self, fun hm => ?_, rfl⟩
    have hold : db.messages.rows ⊆ (announce P base now me c request).1.messages.rows := by
      rw [announce_messages, hb]
      exact List.subset_append_left _ _
    exact absurd (Table.lt_fresh (hold hm)) (Nat.lt_irrefl _)

end Traces

section Honesty

variable {P : Platform} {db : Db} {me : ℕ} {payload : Payload}

theorem honest_iff_of_announced {result : Db × List Event} (h : Announced result.2) :
    Honest db result ↔ UserMessageStored db result.1 :=
  ⟨fun hh => hh.announced.mp h, fun hs => ⟨iff_of_true h hs, fun hn => absurd h hn⟩⟩

theorem honest_iff_of_not_announced {result : Db × List Event} (h : ¬ Announced result.2)
    (hs : ¬ UserMessageStored db result.1) : Honest db result ↔ Untouched db result :=
  ⟨fun hh => hh.untouched h, fun hu => ⟨iff_of_false h hs, fun _ => hu⟩⟩

theorem not_untouched_of_joined {result : Db × List Event} {k : ℕ × ℕ}
    (habsent : db.conversationUsers.has k = false) (h : result.1.conversationUsers.has k = true) :
    ¬ Untouched db result := by
  intro hu
  rw [hu.conversationUsers, habsent] at h
  cases h

theorem half_has (hc : Consistent db) {now : ℕ} {left : Db} (h : createConversation db now me me = .error left) :
    left.conversationUsers.has (db.conversations.fresh, me) = true := by
  obtain ⟨table, rfl, hrows⟩ := createConversation_error h
  rcases hrows with ⟨-, hhas⟩ | ⟨-, hhas⟩
  · rw [fresh_absent hc me] at hhas
    cases hhas
  · exact hhas

theorem answer_silent {answer : Event} (h : answer = .logged ∨ ∃ status, answer = .failure status) :
    ¬ Announced [answer] ∧ ∀ event ∈ [answer], event.isMessage = false ∧ event.isEmail = false := by
  constructor
  · rintro ⟨c, hc⟩
    rcases h with rfl | ⟨status, rfl⟩ <;> cases List.mem_singleton.mp hc
  · intro event hevent
    rw [List.mem_singleton.mp hevent]
    rcases h with rfl | ⟨status, rfl⟩ <;> exact ⟨rfl, rfl⟩

theorem honest_of_refused {answer : Event} (h : answer = .logged ∨ ∃ status, answer = .failure status) :
    Honest db (db, [answer]) := by
  obtain ⟨hnot, hsilent⟩ := answer_silent h
  refine (honest_iff_of_not_announced hnot ?_).mpr ⟨rfl, rfl, rfl, rfl, fun _ => rfl, hsilent⟩
  rintro ⟨m, hm, hnew, -⟩
  exact hnew hm

theorem honest_iff_clear (hc : Consistent db) (hs : Scores db) {now : ℕ} {online : List ℕ} {result : Db × List Event}
    (h : Outcome P db now online me payload result) : Honest db result ↔ payload.Clear P db me := by
  cases h with
  | refused answer hex hpartner hanswer =>
    rw [Payload.Clear, hex, hpartner]
    exact iff_of_true (honest_of_refused hanswer) trivial
  | half left hex hpartner hleft =>
    rw [Payload.Clear, hex, hpartner]
    refine iff_of_false (fun hh => ?_) (fun hclear => hclear.1 rfl)
    exact not_untouched_of_joined (fresh_absent hc me) (half_has hc hleft) (hh.untouched (answer_silent (Or.inl rfl)).1)
  | stopped base c isNew answer hreach haccepted hanswer =>
    obtain ⟨hnot, hsilent⟩ := answer_silent hanswer
    rw [honest_iff_of_not_announced hnot (announce_not_stored hreach.messages now c _), Payload.Clear]
    cases hreach with
    | existing c hex =>
      rw [hex, haccepted]
      exact announce_quiet_iff hs now c (fun r => Payload.request?_mem) hsilent
    | fresh t created hex hpartner hne hcreated =>
      rw [hex, hpartner, haccepted]
      refine iff_of_false (not_untouched_of_joined (fresh_absent hc me) ?_) (fun ⟨_, part, hpart, _⟩ => by cases hpart)
      rw [announce_has]
      exact createConversation_has hcreated
  | delivered base c isNew part created hreach haccepted hcreated =>
    rw [honest_iff_of_announced ⟨c, List.mem_append_right _ List.mem_cons_self⟩,
      delivered_stored_iff hreach.messages now online c isNew _ hcreated, Payload.Clear]
    cases hreach with
    | existing c hex => rw [hex, haccepted]
    | fresh t base hex hpartner hne =>
      rw [hex, hpartner, haccepted]
      constructor
      · intro hblank
        exact ⟨hne, part, rfl, hblank⟩
      · rintro ⟨-, part', hpart, hblank⟩
        cases hpart
        exact hblank

end Honesty

end ConversationsSocket

theorem post_message_honest_iff (P : Platform) (db : Db) (hdb : Reachable P db) (now : ℕ) (online : List ℕ) (me : ℕ)
    (payload : Payload) :
    Honest db (postMessage P db now online me payload) ↔ db.users.has me = false ∨ payload.Clear P db me := by
  cases hm : db.users.has me with
  | false =>
    rw [postMessage_unknown P now online hm payload]
    exact iff_of_true (honest_of_refused (Or.inr ⟨_, rfl⟩)) (Or.inl rfl)
  | true =>
    rw [honest_iff_clear hdb.consistent hdb.scores (postMessage_outcome P hdb.consistent now online hm payload)]
    exact (or_iff_right Bool.noConfusion).symm

def annMeetsBob : Db :=
  Transition.run (step .plain) (Db.new {}) [.signUp "ann@blnkk.com" "ann", .signUp "bob@blnkk.com" "bob"]

def toBob (content : String) : Payload := { message := some { content := some content }, userId := some 2 }

theorem hello_honest :
    Reachable .plain annMeetsBob ∧ Honest annMeetsBob (postMessage .plain annMeetsBob 10 [] 1 (toBob "hello")) := by
  have hdb : Reachable .plain annMeetsBob := ⟨{}, _, rfl⟩
  refine ⟨hdb, (post_message_honest_iff .plain annMeetsBob hdb 10 [] 1 (toBob "hello")).mpr (Or.inr ?_)⟩
  have hexisting : (toBob "hello").existing? annMeetsBob 1 = none := by decide +kernel
  have hpartner : (toBob "hello").partner? annMeetsBob 1 = some 2 := by decide +kernel
  rw [Payload.Clear, hexisting, hpartner]
  refine ⟨by decide, { content := some "hello" }, by decide +kernel, fun hblank => ?_⟩
  have hpresent := hblank "hello" (by decide)
  revert hpresent
  decide

/-- A message of spaces opens the conversation and is announced, but not stored. -/
theorem spaces_announced_not_stored :
    Reachable .plain annMeetsBob ∧ ¬ Honest annMeetsBob (postMessage .plain annMeetsBob 10 [] 1 (toBob "  ")) := by
  refine ⟨⟨{}, _, rfl⟩, fun h => ?_⟩
  obtain ⟨m, hm, -⟩ := h.announced.mp ⟨1, by decide +kernel⟩
  have hnone : (postMessage .plain annMeetsBob 10 [] 1 (toBob "  ")).1.messages.rows = [] := by decide +kernel
  rw [hnone] at hm
  cases hm

end Blnkk
