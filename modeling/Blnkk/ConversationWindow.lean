import Blnkk.InboxAgreement
import Blnkk.Lib.Snapshot
import Blnkk.ReplyWindow

/-!
The messages of an open conversation in the browser. `getConversation` replaces
them by the last hundred at the server, and `newMessageHandler` appends what is
pushed over the socket; the answers and the pushes overtake each other.
-/

namespace Blnkk

open Relational ConversationsSocket

def Message.draft (m : Message) : Message.Draft := ⟨some m.id, some m.content⟩

def Db.messagesOf (db : Db) (c : ℕ) : List Message.Draft :=
  (db.messages.rows.filter (fun m => decide (m.conversationId = c))).map Message.draft

def ConversationsSocket.Event.messageIn? (p c : ℕ) : Event → Option Message.Draft
  | messageNew receiver conversation draft _ _ => if receiver = p ∧ conversation = c then some draft else none
  | _ => none

/-- The messages that an operation pushes to the browser of `p`. -/
def Op.pushes (P : Platform) (db : Db) (p c : ℕ) : Op → List Message.Draft
  | .postMessage now online me payload =>
    (ConversationsSocket.postMessage P db now online me payload).2.filterMap (Event.messageIn? p c)
  | _ => []

structure ConversationAnswer where
  messages : List Message.Draft
  -- not in the answer: how many messages were stored when it was made
  stored : ℕ
  deriving DecidableEq

structure SelectedConversation where
  messages : List Message.Draft
  -- not in the browser: the `stored` of the answer, and how many of the stored
  -- messages had been pushed through when the answer arrived
  stored : ℕ
  arrived : ℕ
  deriving DecidableEq

structure ConversationWindow where
  db : Db
  asked : ℕ := 0
  answers : List ConversationAnswer := []
  pushes : List Message.Draft := []
  selectedConversation : Option SelectedConversation := none

inductive WindowEvent where
  | getConversation
  | serve (now : ℕ)
  | resolve (i : ℕ)
  | reject
  | messageNew
  | destroy
  | elsewhere (op : Op)
  deriving DecidableEq

namespace ConversationWindow

variable (P : Platform) (p c : ℕ) (w : ConversationWindow)

def arrived : ℕ := (w.db.messagesOf c).length - w.pushes.length

def serve (now : ℕ) : ConversationWindow :=
  if w.asked = 0 then w
  else
    match ConversationsController.show w.db now p c with
    | (.ok, messages, db) =>
      { w with
        db
        asked := w.asked - 1
        answers := w.answers ++ [⟨messages.map Message.draft, (w.db.messagesOf c).length⟩] }
    | (_, _, db) => { w with db, asked := w.asked - 1 }

def resolve (i : ℕ) : ConversationWindow :=
  match w.answers[i]? with
  | none => w
  | some answer =>
    { w with
      answers := w.answers.eraseIdx i
      selectedConversation := some ⟨answer.messages, answer.stored, w.arrived c⟩ }

def newMessageHandler : ConversationWindow :=
  match w.pushes with
  | [] => w
  | message :: rest =>
    { w with
      pushes := rest
      selectedConversation := w.selectedConversation.map (fun s => { s with messages := s.messages ++ [message] }) }

def step : WindowEvent → ConversationWindow
  | .getConversation => { w with asked := w.asked + 1 }
  | .serve now => w.serve p c now
  | .resolve i => w.resolve c i
  | .reject => { w with asked := w.asked - 1 }
  | .messageNew => w.newMessageHandler
  | .destroy => { w with selectedConversation := none }
  | .elsewhere op => { w with db := Blnkk.step P w.db op, pushes := w.pushes ++ op.pushes P w.db p c }

end ConversationWindow

section Server

variable {P : Platform} {db : Db}

/-- All that the payload stores is also pushed, and the other way round: no
system message is left behind by a message that is not stored, and none of the
two is blank. -/
def ConversationsSocket.Payload.SaysAll (P : Platform) (db : Db) (me : ℕ) (payload : Payload) : Prop :=
  match payload.accepted? P db me with
  | none => announcementText P (payload.request? db me) = none
  | some part => ((part.text.map P.sanitizeField).any Text.present = true) ∧
      ((payload.request? db me).isSome = true → (announcementText P (payload.request? db me)).isSome = true)

instance (P : Platform) (db : Db) (me : ℕ) (payload : Payload) : Decidable (payload.SaysAll P db me) := by
  unfold ConversationsSocket.Payload.SaysAll
  split <;> infer_instance

def Op.Reaches (P : Platform) (db : Db) (p c : ℕ) : Op → Prop
  | .postMessage _ online me payload =>
    payload.existing? db me = some c → (me = p ∨ p ∈ online) ∧ payload.SaysAll P db me
  | _ => True

theorem messagesOf_eq {db' : Db} (h : db'.messages = db.messages) (c : ℕ) : db'.messagesOf c = db.messagesOf c := by
  rw [Db.messagesOf, h, Db.messagesOf]

theorem messagesOf_append {db' : Db} {l : List Message} (h : db'.messages.rows = db.messages.rows ++ l) (c : ℕ) :
    db'.messagesOf c =
      db.messagesOf c ++ (l.filter (fun m => decide (m.conversationId = c))).map Message.draft := by
  rw [Db.messagesOf, h, List.filter_append, List.map_append, Db.messagesOf]

theorem messagesOf_nodup (db : Db) (c : ℕ) : (db.messagesOf c).Nodup := by
  have hrows : ((db.messages.rows.filter (fun m => decide (m.conversationId = c))).map Message.id).Nodup :=
    (List.filter_sublist.map _).nodup db.messages.unique
  have hids : (db.messagesOf c).map Message.Draft.id =
      ((db.messages.rows.filter (fun m => decide (m.conversationId = c))).map Message.id).map some := by
    rw [Db.messagesOf, List.map_map, List.map_map]
    rfl
  apply List.Nodup.of_map Message.Draft.id
  rw [hids]
  exact hrows.map (fun _ _ => Option.some.inj)

theorem notifyByEmail_messageIn (db : Db) (conversation user p c : ℕ) (draft : Message.Draft) :
    (notifyByEmail db conversation user draft).2.filterMap (Event.messageIn? p c) = [] := by
  rcases notifyByEmail_cases db conversation user draft with h | h | h <;> rw [h] <;> rfl

theorem deliver_messageIn (online : List ℕ) (me p c c' : ℕ) (isNew : Bool)
    (systemMessage : Option Message.Draft) (draft : Message.Draft) (users : List ℕ) (hn : users.Nodup) (db : Db)
    (events : List Event) :
    (deliver online me c' isNew systemMessage draft users (db, events)).2.filterMap (Event.messageIn? p c) =
      events.filterMap (Event.messageIn? p c) ++
        if p ∈ users ∧ (me = p ∨ p ∈ online) ∧ c' = c ∧ isNew = false then systemMessage.toList ++ [draft] else [] := by
  induction users generalizing db events with
  | nil => simp [deliver]
  | cons user rest ih =>
    obtain ⟨hu, hn⟩ := List.nodup_cons.mp hn
    simp only [deliver]
    rw [ih hn, List.filterMap_append, List.append_assoc]
    congr 1
    by_cases hpush : me = user ∨ user ∈ online
    · rw [if_pos hpush]
      by_cases hp : p = user
      · subst hp
        cases isNew with
        | true => simp [Event.messageIn?]
        | false =>
          by_cases hc : c' = c
          · cases systemMessage <;> simp [Event.messageIn?, hu, hpush, hc]
          · cases systemMessage <;> simp [Event.messageIn?, hc]
      · have hrest : p ∈ user :: rest ↔ p ∈ rest := by simp [hp]
        simp only [hrest]
        cases isNew with
        | true => simp [Event.messageIn?]
        | false => cases systemMessage <;> simp [Event.messageIn?, Ne.symm hp]
    · rw [if_neg hpush, notifyByEmail_messageIn, List.nil_append]
      by_cases hp : p = user
      · subst hp
        simp [hu, hpush]
      · simp [hp]

theorem announce_messagesOf (P : Platform) (db : Db) (now me c : ℕ) {request : Option Request}
    (h : request.isSome = true → (announcementText P request).isSome = true) :
    (announce P db now me c request).1.messagesOf c =
      db.messagesOf c ++ (announce P db now me c request).2.toList := by
  rw [messagesOf_append (announce_messages P db now me c request)]
  cases request with
  | none => rfl
  | some request =>
    obtain ⟨text, htext⟩ := Option.isSome_iff_exists.mp (h rfl)
    obtain ⟨r, hr, rfl, hstorable⟩ := announcementText_some P htext
    cases hr
    have hcontent : (some (systemContent request)).map P.sanitizeField = some (P.sanitizeField (systemContent request)) :=
      Option.map_some _ _
    rw [htext, announce, Message.create_storable P db now c me true hcontent hstorable, Option.map_some, Option.getD_some]
    simp [Message.draft]

theorem announce_messagesOf_other (P : Platform) (db : Db) (now me : ℕ) {c c' : ℕ} (hne : c' ≠ c)
    (request : Option Request) : (announce P db now me c' request).1.messagesOf c = db.messagesOf c := by
  rw [messagesOf_append (announce_messages P db now me c' request)]
  cases announcementText P request <;> simp [hne]

theorem create_messagesOf_other (P : Platform) (db : Db) (now me : ℕ) {c c' : ℕ} (hne : c' ≠ c)
    (content : Option String) : (Message.save P db now c' (some me) false content).2.messagesOf c = db.messagesOf c := by
  rcases Message.save_cases P db now c' (some me) false content with h | ⟨text, h⟩
  · rw [h]
  · rw [h, messagesOf_append (l := [_]) rfl]
    simp [hne]

theorem create_messagesOf (P : Platform) (db : Db) (now me c : ℕ) {content : Option String}
    (h : (content.map P.sanitizeField).any Text.present = true) :
    (Message.save P db now c (some me) false content).2.messagesOf c =
      db.messagesOf c ++ [(Message.save P db now c (some me) false content).1] := by
  obtain ⟨text, htext, hp⟩ := (Option.any_eq_true _ _).mp h
  rw [save_message_stored P db now me c htext hp, messagesOf_append (l := [_]) rfl]
  simp [Message.draft]

/-- What is stored in the conversation is what is pushed. -/
theorem postMessage_messagesOf {p c : ℕ} (hm : Member db c p) (now : ℕ) (online : List ℕ) (me : ℕ) (payload : Payload)
    (h : (Op.postMessage now online me payload).Reaches P db p c) :
    (postMessage P db now online me payload).1.messagesOf c =
      db.messagesOf c ++ (postMessage P db now online me payload).2.filterMap (Event.messageIn? p c) := by
  have hanswer : ∀ answer, (answer = .logged ∨ ∃ status, answer = .failure status) →
      [answer].filterMap (Event.messageIn? p c) = [] := by
    rintro answer (rfl | ⟨status, rfl⟩) <;> rfl
  cases hme : db.users.has me with
  | false =>
    rw [postMessage_unknown P now online hme payload]
    exact (List.append_nil _).symm
  | true =>
    have houtcome := postMessage_outcome P hm.consistent now online hme payload
    simp only [Op.Reaches] at h
    generalize ConversationsSocket.postMessage P db now online me payload = result at houtcome ⊢
    cases houtcome with
    | refused answer hex hpartner hlogged => rw [hanswer answer hlogged, List.append_nil]
    | half left hex hpartner hleft =>
      obtain ⟨table, rfl, -⟩ := createConversation_error hleft
      exact (List.append_nil _).symm
    | stopped base c' isNew answer hreach haccepted hlogged =>
      rw [hanswer answer hlogged, List.append_nil, ← messagesOf_eq hreach.messages c]
      by_cases hc : c' = c
      · subst hc
        obtain ⟨-, hsays⟩ := h ((hreach.existing_iff hm.consistent hm.participant).mp rfl)
        rw [Payload.SaysAll, haccepted] at hsays
        rw [messagesOf_append (announce_messages P base now me c' _), hsays]
        simp
      · exact announce_messagesOf_other P base now me hc _
    | delivered base c' isNew part created hreach haccepted hcreated =>
      subst hcreated
      have hempty : [Event.success .created c'].filterMap (Event.messageIn? p c) = [] := rfl
      rw [List.filterMap_append, hempty, List.append_nil, messagesOf_eq (deliver_messages ..),
        deliver_messageIn _ _ _ _ _ _ _ _ _ (participants_nodup _ c'), ← messagesOf_eq hreach.messages c]
      by_cases hc : c' = c
      · subst hc
        have hex := (hreach.existing_iff hm.consistent hm.participant).mp rfl
        obtain ⟨hp, hsays⟩ := h hex
        rw [Payload.SaysAll, haccepted] at hsays
        have hbase : base.conversationUsers.has (c', p) = true ∧ isNew = false := by
          cases hreach with
          | existing c hex => exact ⟨hm.participant, rfl⟩
          | fresh t created hnone =>
            rw [hnone] at hex
            cases hex
        rw [if_pos, create_messagesOf P _ now me c' hsays.1, announce_messagesOf P base now me c' hsays.2]
        · simp
        · refine ⟨?_, hp, rfl, hbase.2⟩
          rw [mem_participants, save_message_has, announce_has]
          exact hbase.1
      · rw [if_neg (fun hcond => hc hcond.2.2.1), create_messagesOf_other P _ now me hc,
          announce_messagesOf_other P base now me hc]
        simp

theorem step_messagesOf {p c : ℕ} (hm : Member db c p) {op : Op} (h : op.Reaches P db p c) :
    (step P db op).messagesOf c = db.messagesOf c ++ op.pushes P db p c := by
  cases ha : op.author? with
  | none =>
    have hnone : op.pushes P db p c = [] := by
      cases op <;> first | rfl | cases ha
    rw [hnone, List.append_nil]
    exact messagesOf_eq (step_messages P db ha) c
  | some author =>
    cases op with
    | postMessage now online me payload => exact postMessage_messagesOf hm now online me payload h
    | _ => cases ha

end Server

def WindowEvent.Reaches (P : Platform) (p c : ℕ) (w : ConversationWindow) : WindowEvent → Prop
  | elsewhere op => op.Reaches P w.db p c
  | _ => True

instance (P : Platform) (db : Db) (p c : ℕ) : ∀ op : Op, Decidable (op.Reaches P db p c)
  | .postMessage _ online me payload =>
    inferInstanceAs (Decidable (payload.existing? db me = some c → (me = p ∨ p ∈ online) ∧ payload.SaysAll P db me))
  | .signUp .. | .invite .. | .createRequest .. | .destroyRequest .. | .updateRequest .. | .updateSetting ..
  | .manageUser .. | .createComment .. | .destroyComment .. | .rateUser .. | .rateRequest .. | .rateComment ..
  | .rateConversation .. | .indexRequests .. | .showRequest .. | .showConversation .. | .conversationRead ..
  | .notifyUnread .. => inferInstanceAs (Decidable True)

instance (P : Platform) (p c : ℕ) (w : ConversationWindow) : ∀ event : WindowEvent, Decidable (event.Reaches P p c w)
  | .elsewhere op => inferInstanceAs (Decidable (op.Reaches P w.db p c))
  | .getConversation | .serve _ | .resolve _ | .reject | .messageNew | .destroy => inferInstanceAs (Decidable True)

/-- The pushes under way are the end of what is stored, and what is shown is a
snapshot with the pushes that came after it. -/
structure Follows (p c : ℕ) (w : ConversationWindow) : Prop where
  member : Member w.db c p
  le : w.pushes.length ≤ (w.db.messagesOf c).length
  pushes : w.pushes = (w.db.messagesOf c).drop (w.arrived c)
  answers : ∀ answer ∈ w.answers, answer.stored ≤ (w.db.messagesOf c).length ∧
    answer.messages = ((w.db.messagesOf c).take answer.stored).rtake 100
  shown : ∀ s, w.selectedConversation = some s → s.stored ≤ (w.db.messagesOf c).length ∧ s.arrived ≤ w.arrived c ∧
    s.messages = Snapshot.view 100 (w.db.messagesOf c) s.stored s.arrived (w.arrived c)

namespace Follows

variable {P : Platform} {p c : ℕ} {w : ConversationWindow}

theorem start {db : Db} (h : Member db c p) : Follows p c { db } where
  member := h
  le := Nat.zero_le _
  pushes := (List.drop_length (l := db.messagesOf c)).symm
  answers := List.forall_mem_nil _
  shown := fun s hs => absurd hs.symm (Option.some_ne_none s)

theorem arrived_le (w : ConversationWindow) (c : ℕ) : w.arrived c ≤ (w.db.messagesOf c).length := Nat.sub_le _ _

theorem elsewhere (h : Follows p c w) {op : Op} (hop : op.Reaches P w.db p c) :
    Follows p c { w with db := step P w.db op, pushes := w.pushes ++ op.pushes P w.db p c } := by
  have hlog := step_messagesOf h.member hop
  have hle := h.le
  have harrived : ({ w with
      db := step P w.db op
      pushes := w.pushes ++ op.pushes P w.db p c } : ConversationWindow).arrived c = w.arrived c := by
    simp only [ConversationWindow.arrived, hlog, List.length_append]
    omega
  constructor
  · exact h.member.changes (step_changes P w.db op)
  · simp only [hlog, List.length_append]
    omega
  · rw [harrived]
    simp only [hlog, List.drop_append_of_le_length (arrived_le w c), ← h.pushes]
  · intro answer ha
    obtain ⟨hstored, hmessages⟩ := h.answers answer ha
    simp only [hlog, List.length_append, List.take_append_of_le_length hstored]
    exact ⟨by omega, hmessages⟩
  · intro s hs
    obtain ⟨hstored, hfrom, hmessages⟩ := h.shown s hs
    rw [harrived]
    simp only [hlog, List.length_append, Snapshot.view_append hstored (arrived_le w c)]
    exact ⟨by omega, hfrom, hmessages⟩

theorem show_eq (h : Member w.db c p) (now : ℕ) :
    ConversationsController.show w.db now p c =
      (.ok, ConversationSerializer.messages w.db c, Conversation.markRead w.db now c p) := by
  have hconversation := (h.consistent.memberships _ ((mem_memberships w.db c p).mpr h.participant)).1
  simp [ConversationsController.show, h.user, h.participant, hconversation]

theorem serializer_messages (db : Db) (c : ℕ) :
    (ConversationSerializer.messages db c).map Message.draft = (db.messagesOf c).rtake 100 := by
  rw [ConversationSerializer.messages, List.map_drop, List.rtake, Db.messagesOf, List.length_map]

theorem serve (h : Follows p c w) (now : ℕ) : Follows p c (w.serve p c now) := by
  unfold ConversationWindow.serve
  split_ifs with hasked
  · exact h
  · rw [show_eq h.member]
    have hmember : Member (Conversation.markRead w.db now c p) c p := by
      have hread := h.member.changes (step_changes .plain w.db (.showConversation now p c))
      rwa [step, show_eq h.member] at hread
    refine { h with member := hmember, answers := ?_ }
    intro answer ha
    rcases List.mem_append.mp ha with ha | ha
    · exact h.answers answer ha
    · rw [List.mem_singleton.mp ha]
      refine ⟨le_refl _, ?_⟩
      rw [serializer_messages]
      exact congrArg (fun l => List.rtake l 100) (List.take_length (l := w.db.messagesOf c)).symm

theorem resolve (h : Follows p c w) (i : ℕ) : Follows p c (w.resolve c i) := by
  unfold ConversationWindow.resolve
  cases hi : w.answers[i]? with
  | none => exact h
  | some answer =>
    obtain ⟨hstored, hmessages⟩ := h.answers answer (List.mem_of_getElem? hi)
    refine { h with answers := fun other hother => h.answers other (List.mem_of_mem_eraseIdx hother), shown := ?_ }
    rintro s hs
    cases hs
    exact ⟨hstored, le_refl _, hmessages.trans Snapshot.view_start.symm⟩

theorem newMessageHandler (h : Follows p c w) : Follows p c w.newMessageHandler := by
  unfold ConversationWindow.newMessageHandler
  cases hpushes : w.pushes with
  | nil => exact h
  | cons message rest =>
    have hle := h.le
    have hdrop := h.pushes
    rw [hpushes] at hle hdrop
    rw [List.length_cons] at hle
    have harrived : (w.db.messagesOf c).length - rest.length = w.arrived c + 1 := by
      rw [ConversationWindow.arrived, hpushes, List.length_cons]
      omega
    have hmessage : (w.db.messagesOf c)[w.arrived c]? = some message := by
      rw [← List.head?_drop, ← hdrop, List.head?_cons]
    refine { h with le := ?_, pushes := ?_, shown := ?_ }
    · exact (Nat.le_succ _).trans hle
    · simp only [ConversationWindow.arrived, harrived]
      rw [← List.tail_drop, ← ConversationWindow.arrived, ← hdrop, List.tail_cons]
    · intro s hs
      obtain ⟨shown, hshown, rfl⟩ := Option.map_eq_some_iff.mp hs
      obtain ⟨hstored, hfrom, hmessages⟩ := h.shown shown hshown
      refine ⟨hstored, ?_, ?_⟩
      · simp only [ConversationWindow.arrived, harrived]
        exact hfrom.trans (Nat.le_succ _)
      · simp only [ConversationWindow.arrived, harrived]
        rw [hmessages]
        exact (Snapshot.view_succ hfrom hmessage).symm

theorem step (event : WindowEvent) (he : event.Reaches P p c w) (h : Follows p c w) :
    Follows p c (w.step P p c event) := by
  cases event with
  | getConversation => exact { h with }
  | serve now => exact h.serve now
  | resolve i => exact h.resolve i
  | reject => exact { h with }
  | messageNew => exact h.newMessageHandler
  | destroy => exact { h with shown := fun s hs => absurd hs.symm (Option.some_ne_none s) }
  | elsewhere op => exact h.elsewhere he

end Follows

/-- Once all pushes have arrived, the window shows the end of the conversation,
nothing twice and nothing left out, exactly if as many messages had been pushed
through when the answer arrived as were stored when it was made. It then shows
at least the last hundred. -/
theorem open_conversation_iff_in_turn (P : Platform) (db : Db) (hdb : Reachable P db) (p c : ℕ)
    (hp : db.conversationUsers.has (c, p) = true) (events : List WindowEvent)
    (hreach : Transition.Meets (ConversationWindow.step P p c) (fun w event => event.Reaches P p c w) { db } events)
    (s : SelectedConversation)
    (hs : (Transition.run (ConversationWindow.step P p c) { db } events).selectedConversation = some s)
    (hpushes : (Transition.run (ConversationWindow.step P p c) { db } events).pushes = []) (hstored : 0 < s.stored) :
    let stored := (Transition.run (ConversationWindow.step P p c) { db } events).db.messagesOf c
    (s.messages <:+ stored ↔ s.arrived = s.stored) ∧ (s.arrived = s.stored → stored.rtake 100 <:+ s.messages) := by
  intro stored
  have hlast := Transition.invariant_of_meets (ConversationWindow.step P p c) (I := Follows p c)
    (fun w event => Follows.step event) { db } (.start (.of_reachable hdb hp)) events hreach events.length
  rw [List.take_length] at hlast
  obtain ⟨hle, hfrom, hmessages⟩ := hlast.shown s hs
  have hall : (Transition.run (ConversationWindow.step P p c) { db } events).arrived c = stored.length := by
    rw [ConversationWindow.arrived, hpushes]
    rfl
  rw [hall] at hfrom hmessages
  rw [hmessages]
  refine ⟨Snapshot.view_suffix_iff (messagesOf_nodup _ c) (by omega) hstored hle hfrom, ?_⟩
  intro hturn
  rw [hturn]
  exact Snapshot.rtake_suffix_view hle

def annRepliesInWindow (now : ℕ) (content : String) : Op :=
  .postMessage now [1, 2] 1 { message := some { conversationId := some 1, content := some content } }

def bobsConversation : Db :=
  Transition.run (step .plain) (Db.new {})
    [.signUp "ann@blnkk.com" "ann", .signUp "bob@blnkk.com" "bob",
      .postMessage 10 [1, 2] 1 { message := some { content := some "hello" }, userId := some 2 }]

/-- The answer arrives before the push of a message that it contains already. -/
def answerOvertakesPush : List WindowEvent :=
  [.getConversation, .elsewhere (annRepliesInWindow 20 "are you there?"), .serve 30, .resolve 0, .messageNew]

theorem bob_sees_message_twice :
    let w := Transition.run (ConversationWindow.step .plain 2 1) { db := bobsConversation } answerOvertakesPush
    let s : SelectedConversation :=
      ⟨[⟨some 1, some "hello"⟩, ⟨some 2, some "are you there?"⟩, ⟨some 2, some "are you there?"⟩], 2, 1⟩
    w.selectedConversation = some s ∧
      (s.messages <:+ w.db.messagesOf 1 ↔ s.arrived = s.stored) := by
  intro w s
  have hs : w.selectedConversation = some s := by decide +kernel
  exact ⟨hs, (open_conversation_iff_in_turn .plain bobsConversation ⟨{}, _, rfl⟩ 2 1 (by decide +kernel)
    answerOvertakesPush (by decide +kernel) s hs (by decide +kernel) (by decide)).1⟩

end Blnkk
