import Blnkk.ConversationWindow

/-!
The two ends of a conversation together: a member who writes in the reply box
and a member who has the conversation open, with one server between them. What
the server does for the one is an operation elsewhere for the other.
-/

namespace Blnkk

open Relational ConversationsSocket

structure Dialogue where
  sender : ReplyWindow
  receiver : ConversationWindow

inductive DialogueEvent where
  | sender (event : ReplyEvent)
  | receiver (event : WindowEvent)
  deriving DecidableEq

/-- The operation with which the server answers an event of the reply box. -/
def ReplyEvent.op? (me c : ℕ) (w : ReplyWindow) : ReplyEvent → Option Op
  | .handle now online => w.requests.head?.map (fun r => .postMessage now online me (ReplyWindow.reply c r.content))
  | .elsewhere op => some op
  | _ => none

def WindowEvent.op? (p c : ℕ) (w : ConversationWindow) : WindowEvent → Option Op
  | .serve now => if w.asked = 0 then none else some (.showConversation now p c)
  | .elsewhere op => some op
  | _ => none

namespace Dialogue

variable (P : Platform) (me p c : ℕ) (d : Dialogue)

def step : DialogueEvent → Dialogue
  | .sender event =>
    { sender := d.sender.step P me c event
      receiver := (event.op? me c d.sender).elim d.receiver (fun op => d.receiver.step P p c (.elsewhere op)) }
  | .receiver event =>
    { sender := (event.op? p c d.receiver).elim d.sender (fun op => d.sender.step P me c (.elsewhere op))
      receiver := d.receiver.step P p c event }

end Dialogue

/-- The operation leaves the conversation alone, and what it pushes arrives. -/
def Op.Quiet (P : Platform) (p c : ℕ) (db : Db) (op : Op) : Prop :=
  (step P db op).said c = db.said c ∧ op.Reaches P db p c

instance (P : Platform) (p c : ℕ) (db : Db) (op : Op) : Decidable (op.Quiet P p c db) :=
  inferInstanceAs (Decidable ((step P db op).said c = db.said c ∧ op.Reaches P db p c))

def ReplyEvent.online? : ReplyEvent → Option (List ℕ)
  | .handle _ online => some online
  | _ => none

def WindowEvent.elsewhere? : WindowEvent → Option Op
  | .elsewhere op => some op
  | _ => none

/-- The receiver is online when a message is handled, nobody else writes in the
conversation, and the reply box is used as `ReplyEvent.Fair` asks. -/
def DialogueEvent.Fair (P : Platform) (p c : ℕ) (d : Dialogue) : DialogueEvent → Prop
  | .sender event => event.Fair P (Op.Quiet P p c) d.sender ∧ ∀ online ∈ event.online?, p ∈ online
  | .receiver event => ∀ op ∈ event.elsewhere?, op.Quiet P p c d.receiver.db

instance DialogueEvent.Fair.decidable (P : Platform) (p c : ℕ) (d : Dialogue) :
    ∀ event, Decidable (DialogueEvent.Fair P p c d event)
  | .sender event =>
    inferInstanceAs (Decidable (event.Fair P (Op.Quiet P p c) d.sender ∧ ∀ online ∈ event.online?, p ∈ online))
  | .receiver event => inferInstanceAs (Decidable (∀ op ∈ event.elsewhere?, op.Quiet P p c d.receiver.db))

section Server

variable {P : Platform} {me p c : ℕ}

theorem ReplyWindow.step_db (w : ReplyWindow) (event : ReplyEvent) :
    (w.step P me c event).db = (event.op? me c w).elim w.db (Blnkk.step P w.db) := by
  cases event with
  | submit messageContent =>
    simp only [step, submit, addMessage]
    split_ifs <;> rfl
  | reloadSelectedConversation =>
    simp only [step, reload]
    split
    · simp only [addMessage]
      split_ifs <;> rfl
    · rfl
  | handle now online =>
    simp only [step, handle, ReplyEvent.op?]
    cases w.requests <;> rfl
  | receive =>
    simp only [step, receive]
    split <;> rfl
  | opened | closed | elsewhere _ => rfl

theorem ConversationWindow.step_db (w : ConversationWindow) (event : WindowEvent) :
    (w.step P p c event).db = (event.op? p c w).elim w.db (Blnkk.step P w.db) := by
  cases event with
  | serve now =>
    simp only [step, serve, WindowEvent.op?]
    split_ifs
    · rfl
    · split <;> simp_all [Blnkk.step]
  | resolve i =>
    simp only [step, resolve]
    split <;> rfl
  | messageNew =>
    simp only [step, newMessageHandler]
    split <;> rfl
  | getConversation | reject | destroy | elsewhere _ => rfl

theorem reply_saysAll (db : Db) {text : String} (h : P.KeepsText text) :
    (ReplyWindow.reply c text).SaysAll P db me := by
  have hrequest : (ReplyWindow.reply c text).request? db me = none := rfl
  unfold Payload.SaysAll
  rw [hrequest]
  cases haccepted : (ReplyWindow.reply c text).accepted? P db me with
  | none => rfl
  | some part =>
    obtain ⟨hpart, -⟩ := Payload.accepted?_some haccepted
    cases hpart
    refine ⟨?_, fun hsome => by cases hsome⟩
    rw [MessagePart.text, Option.map_some, Option.map_some, Content.cast, h.1]
    exact (Bool.and_eq_true_iff.mp h.2).1

end Server

namespace Dialogue

variable {P : Platform} {me p c : ℕ} {start : Db} {d : Dialogue}

structure Sound (P : Platform) (me p c : ℕ) (start : Db) (d : Dialogue) : Prop where
  same : d.receiver.db = d.sender.db
  said : ∃ n, Handled P me c (SaidOnce start c me) n d.sender ∧
    (d.sender.isPosting = false → n = d.sender.submitted.length)
  follows : Follows p c d.receiver

theorem quiet_reading (P : Platform) (start : Db) (p c me : ℕ) :
    Reading P me c (Op.Quiet P p c) (SaidOnce start c me) where
  elsewhere := fun _ hquiet h => hquiet.1.trans h
  handled := (saidOnce_reading P start c me).handled
  repeated := (saidOnce_reading P start c me).repeated

theorem Sound.sender (h : Sound P me p c start d) {event : ReplyEvent}
    (hfair : event.Fair P (Op.Quiet P p c) d.sender) (honline : ∀ online ∈ event.online?, p ∈ online) :
    Sound P me p c start (d.step P me p c (.sender event)) := by
  obtain ⟨hsame, ⟨n, hhandled, hidle⟩, hfollows⟩ := h
  have hreach : ∀ op, event.op? me c d.sender = some op → op.Reaches P d.receiver.db p c := by
    intro op hop
    cases event with
    | handle now online =>
      obtain ⟨r, hr, rfl⟩ := Option.map_eq_some_iff.mp hop
      have hcontent := (hhandled.requests r (List.mem_of_head? hr)).2.2
      have htext := hhandled.texts r.content (List.mem_of_mem_take (List.mem_of_getLast? hcontent))
      exact fun _ => ⟨Or.inr (honline online rfl), reply_saysAll _ htext⟩
    | elsewhere other =>
      cases hop
      rw [hsame]
      exact hfair.2
    | _ => cases hop
  refine ⟨?_, hhandled.step (quiet_reading P start p c me) hidle hfair, ?_⟩
  · rw [step, ReplyWindow.step_db, ← hsame]
    cases event.op? me c d.sender <;> rfl
  · rw [step]
    cases hop : event.op? me c d.sender with
    | none => exact hfollows
    | some op => exact hfollows.elsewhere (hreach op hop)

theorem quiet_showConversation (P : Platform) (db : Db) (now p c : ℕ) :
    (Op.showConversation now p c).Quiet P p c db :=
  ⟨said_of_messages (step_messages P db rfl), trivial⟩

theorem Sound.receiver (h : Sound P me p c start d) {event : WindowEvent}
    (hquiet : ∀ op ∈ event.elsewhere?, op.Quiet P p c d.receiver.db) :
    Sound P me p c start (d.step P me p c (.receiver event)) := by
  obtain ⟨hsame, ⟨n, hhandled, hidle⟩, hfollows⟩ := h
  have hop : ∀ op, event.op? p c d.receiver = some op → op.Quiet P p c d.sender.db := by
    intro op hop
    cases event with
    | serve now =>
      simp only [WindowEvent.op?] at hop
      split_ifs at hop
      cases hop
      exact quiet_showConversation P _ now p c
    | elsewhere other =>
      rw [← hsame]
      exact hquiet op hop
    | _ => cases hop
  refine ⟨?_, ?_, hfollows.step event ?_⟩
  · rw [step, ConversationWindow.step_db, hsame]
    cases event.op? p c d.receiver <;> rfl
  · rw [step]
    cases he : event.op? p c d.receiver with
    | none => exact ⟨n, hhandled, hidle⟩
    | some op =>
      have hallowed : ReplyEvent.Fair P (Op.Quiet P p c) d.sender (.elsewhere op) := hop op he
      exact hhandled.step (quiet_reading P start p c me) hidle hallowed
  · cases event with
    | elsewhere op => exact (hquiet op rfl).2
    | _ => trivial

theorem Sound.step (h : Sound P me p c start d) {event : DialogueEvent} (hfair : event.Fair P p c d) :
    Sound P me p c start (d.step P me p c event) := by
  cases event with
  | sender event => exact h.sender hfair.1 hfair.2
  | receiver event => exact h.receiver hfair

end Dialogue

theorem content_messagesOf (db : Db) (c : ℕ) :
    (db.messagesOf c).map Message.Draft.content = (db.said c).map (fun entry => some entry.2) := by
  rw [Db.messagesOf, Db.said, List.map_map, List.map_map]
  rfl

/-- What the receiver sees is the end of the conversation as it was and of what
the sender has submitted, up to a last message that is still under way. -/
theorem dialogue_shown_as_submitted (P : Platform) (me p c : ℕ) (db : Db) (hdb : Reachable P db)
    (hme : db.conversationUsers.has (c, me) = true) (hp : db.conversationUsers.has (c, p) = true)
    (events : List DialogueEvent)
    (hfair : Transition.Meets (Dialogue.step P me p c) (DialogueEvent.Fair P p c) ⟨{ db }, { db }⟩ events) :
    let d := Transition.run (Dialogue.step P me p c) ⟨{ db }, { db }⟩ events
    ∃ n, (n = d.sender.submitted.length ∨ d.sender.isPosting = true ∧ n + 1 = d.sender.submitted.length) ∧
      let said := (d.sender.contents.take n).foldl (fun log text => Stutter.accept log (some me, text)) (db.said c)
      ∀ s, d.receiver.selectedConversation = some s → d.receiver.pushes = [] → s.arrived = s.stored →
        s.messages.map Message.Draft.content <:+ said.map (fun entry => some entry.2) ∧
          (said.map (fun entry => some entry.2)).rtake 100 <:+ s.messages.map Message.Draft.content := by
  intro d
  have hfirst : Dialogue.Sound P me p c db ⟨{ db }, { db }⟩ :=
    ⟨rfl, ⟨0, .start (.of_reachable hdb hme) rfl, fun _ => rfl⟩, .start (.of_reachable hdb hp)⟩
  have hlast := Transition.invariant_of_meets (Dialogue.step P me p c) (I := Dialogue.Sound P me p c db)
    (fun _ _ hfair h => h.step hfair) _ hfirst events hfair events.length
  rw [List.take_length] at hlast
  obtain ⟨hsame, ⟨n, hhandled, hidle⟩, hfollows⟩ := hlast
  refine ⟨n, hhandled.all_but_last hidle, ?_⟩
  intro said s hs hpushes hturn
  have hsaid : (d.receiver.db.messagesOf c).map Message.Draft.content = said.map (fun entry => some entry.2) := by
    rw [content_messagesOf, hsame, hhandled.log]
  have hall : d.receiver.arrived c = (d.receiver.db.messagesOf c).length := by
    rw [ConversationWindow.arrived, hpushes]
    rfl
  obtain ⟨hle, -, hmessages⟩ := hfollows.shown s hs
  rw [hall, hturn] at hmessages
  rw [hmessages, ← hsaid, List.rtake, List.length_map, ← List.map_drop]
  exact ⟨(Snapshot.view_suffix 100 _ s.stored).map _, (Snapshot.rtake_suffix_view hle).map _⟩

/-- The connection breaks while the first reply is under way, and the reply is
sent again. -/
def bobWritesAnnReads : List DialogueEvent :=
  [.receiver .getConversation, .sender (.submit "hi"), .sender .closed, .receiver (.serve 20), .sender .opened,
    .receiver (.resolve 0), .sender .reloadSelectedConversation, .sender (.handle 30 [1, 2]), .sender .receive,
    .sender (.submit "bye"), .sender (.handle 40 [1, 2]), .receiver .messageNew, .receiver .messageNew]

theorem ann_reads_what_bob_writes :
    let d := Transition.run (Dialogue.step .plain 2 1 1) ⟨{ db := bobsConversation }, { db := bobsConversation }⟩
      bobWritesAnnReads
    let s : SelectedConversation := ⟨[⟨some 1, some "hello"⟩, ⟨some 2, some "hi"⟩, ⟨some 3, some "bye"⟩], 1, 1⟩
    d.receiver.selectedConversation = some s ∧ d.receiver.pushes = [] ∧
      ∃ n, (n = d.sender.submitted.length ∨ d.sender.isPosting = true ∧ n + 1 = d.sender.submitted.length) ∧
        let said := (d.sender.contents.take n).foldl (fun log text => Stutter.accept log (some 2, text))
          (bobsConversation.said 1)
        s.messages.map Message.Draft.content <:+ said.map (fun entry => some entry.2) ∧
          (said.map (fun entry => some entry.2)).rtake 100 <:+ s.messages.map Message.Draft.content := by
  intro d s
  have hs : d.receiver.selectedConversation = some s := by decide +kernel
  have hpushes : d.receiver.pushes = [] := by decide +kernel
  obtain ⟨n, hn, hshown⟩ := dialogue_shown_as_submitted .plain 2 1 1 bobsConversation ⟨{}, _, rfl⟩ (by decide +kernel)
    (by decide +kernel) bobWritesAnnReads (by decide +kernel)
  exact ⟨hs, hpushes, n, hn, hshown s hs hpushes rfl⟩

end Blnkk
