import Blnkk.Lib.Stutter
import Blnkk.MessageLog
import Blnkk.OwnConversations

/-!
The reply box of an open conversation: `addMessage` of
`ConversationShowController` and `post_message`, over a connection that may
break at any time. A message without an answer is sent again whenever the
conversations have been loaded anew, and the server refuses a message that
repeats the last one of the conversation.
-/

namespace Blnkk

open Relational ConversationsSocket

/-- The matches of `<[^>]+>` are dropped; the first argument is what has been
read, backwards, since a bracket that may open one. -/
def Text.dropTags : Option (List Char) → List Char → List Char
  | none, [] => []
  | some body, [] => '<' :: body.reverse
  | none, c :: cs => if c = '<' then dropTags (some []) cs else c :: dropTags none cs
  | some body, c :: cs =>
    if c = '>' then
      -- a tag has at least one character
      if body.isEmpty then '<' :: '>' :: dropTags none cs else dropTags none cs
    else dropTags (some (c :: body)) cs

def Text.htmlToPlaintext (s : String) : String := String.ofList (dropTags none s.toList)

example : Text.htmlToPlaintext "a <b>c</b> <> d < e" = "a c <> d < e" := by decide +kernel

/-- A `post_message` on its way. The number, which is for the proofs, tells
which of the messages submitted in the window it carries. -/
structure Posting where
  number : ℕ
  content : String
  deriving DecidableEq

inductive Answer where
  | created
  | conflict
  | failed
  deriving DecidableEq

def ConversationsSocket.Event.answer? : Event → Option Answer
  | .success .. => some .created
  | .failure .conflict => some .conflict
  | .failure _ => some .failed
  | _ => none

/-- The window with the server and the connection between them. `submitted`
lists for the proofs what the user has submitted. -/
structure ReplyWindow where
  db : Db
  isPosting : Bool := false
  conversationDataToSend : Option String := none
  connected : Bool := true
  requests : List Posting := []
  answers : List (ℕ × Answer) := []
  submitted : List String := []

inductive ReplyEvent where
  | submit (messageContent : String)
  | reloadSelectedConversation
  | opened
  | closed
  | handle (now : ℕ) (online : List ℕ)
  | receive
  | elsewhere (op : Op)
  deriving DecidableEq

namespace ReplyWindow

variable (P : Platform) (me c : ℕ) (w : ReplyWindow)

/-- What is triggered on a dead connection is never sent. -/
def addMessage (messageContent : String) : ReplyWindow :=
  if w.isPosting then w
  else
    { w with
      isPosting := true
      conversationDataToSend := some messageContent
      requests :=
        if w.connected then w.requests ++ [⟨w.submitted.length, Text.htmlToPlaintext messageContent⟩] else w.requests }

def submit (messageContent : String) : ReplyWindow :=
  if w.isPosting || messageContent.isEmpty then w
  else { w with submitted := w.submitted ++ [messageContent] }.addMessage messageContent

def reload : ReplyWindow :=
  match w.conversationDataToSend with
  | some messageContent => if w.isPosting then { w with isPosting := false }.addMessage messageContent else w
  | none => w

def reply (content : String) : Payload := { message := some { conversationId := some c, content := some content } }

def handle (now : ℕ) (online : List ℕ) : ReplyWindow :=
  match w.requests with
  | [] => w
  | request :: rest =>
    let result := postMessage P w.db now online me (reply c request.content)
    { w with
      db := result.1
      requests := rest
      answers := w.answers ++ (result.2.filterMap Event.answer?).map (fun answer => (request.number, answer)) }

/-- Both callbacks end with the same two assignments, whatever the answer. -/
def receive : ReplyWindow :=
  match w.answers with
  | [] => w
  | _ :: rest => { w with isPosting := false, conversationDataToSend := none, answers := rest }

def step : ReplyEvent → ReplyWindow
  | .submit messageContent => w.submit messageContent
  | .reloadSelectedConversation => w.reload
  | .opened => { w with connected := true }
  | .closed => { w with connected := false, requests := [], answers := [] }
  | .handle now online => w.handle P me c now online
  | .receive => w.receive
  | .elsewhere op => { w with db := Blnkk.step P w.db op }

def contents : List String := w.submitted.map Text.htmlToPlaintext

end ReplyWindow

/-- The text is stored as it is sent: nothing in it is markup, it is not blank and
the column holds it. -/
def Platform.KeepsText (P : Platform) (content : String) : Prop :=
  P.sanitizeField content = content ∧ storable content = true

/-- The messages of a conversation with their authors, the oldest first. -/
def Db.said (db : Db) (c : ℕ) : List (Option ℕ × String) :=
  (db.messages.rows.filter (fun m => decide (m.conversationId = c))).map (fun m => (m.userId, m.content))

def textsOf (me : ℕ) (log : List (Option ℕ × String)) : List String :=
  (log.filter (fun entry => decide (entry.1 = some me))).map Prod.snd

structure Member (db : Db) (c me : ℕ) : Prop where
  consistent : Consistent db
  user : db.users.has me = true
  participant : db.conversationUsers.has (c, me) = true

section Server

variable {P : Platform} {db db' : Db} {me c : ℕ}

theorem Member.changes (h : Member db c me) (hc : Changes db db') : Member db' c me := by
  have hm := (mem_memberships db c me).mpr h.participant
  exact ⟨hc.invariant (fun _ _ => Change.consistent) h.consistent, hc.extends.users _ h.user,
    (mem_memberships db' c me).mp (hc.extends.memberships _ hm)⟩

theorem Member.of_reachable (h : Reachable P db) (hm : db.conversationUsers.has (c, me) = true) : Member db c me :=
  ⟨h.consistent, (h.consistent.memberships _ ((mem_memberships db c me).mpr hm)).2, hm⟩

theorem repeats_iff (db : Db) (me c : ℕ) (text : String) :
    repeats db me c (some text) = true ↔ (db.said c).getLast? = some (some me, text) := by
  rw [Db.said, List.getLast?_map, repeats]
  cases (db.messages.rows.filter (fun m => decide (m.conversationId = c))).getLast? with
  | none => simp
  | some last => simp [@eq_comm _ text]

theorem said_concat {m : Message} (h : db'.messages.rows = db.messages.rows ++ [m]) (hm : m.conversationId = c) :
    db'.said c = db.said c ++ [(m.userId, m.content)] := by
  rw [Db.said, h, List.filter_append, List.filter_cons_of_pos (by simpa using hm), List.filter_nil, List.map_append]
  rfl

theorem said_of_messages (h : db'.messages = db.messages) : db'.said c = db.said c := by rw [Db.said, h, Db.said]

theorem postMessage_reply (h : Member db c me) (now : ℕ) (online : List ℕ) (text : String) :
    postMessage P db now online me (ReplyWindow.reply c text) =
      ConversationsSocket.addMessage P db now online me c false none
        (some { conversationId := some c, content := some text }) := by
  have hconversation := (h.consistent.memberships _ ((mem_memberships db c me).mpr h.participant)).1
  obtain ⟨conversation, hget⟩ := Option.isSome_iff_exists.mp hconversation
  have hid : conversation.id = c := Table.get?_key hget
  simp only [postMessage, if_pos h.user, lookup, ReplyWindow.reply, Option.bind_some, hget, Option.map_some, hid,
    if_pos h.participant]

/-- The server takes the text unless it is what the participant said last. -/
theorem said_postMessage_reply (h : Member db c me) (now : ℕ) (online : List ℕ) {text : String}
    (htext : P.KeepsText text) :
    (postMessage P db now online me (ReplyWindow.reply c text)).1.said c = Stutter.accept (db.said c) (some me, text) := by
  rw [postMessage_reply h, ConversationsSocket.addMessage]
  by_cases hr : repeats db me c (some text) = true
  · rw [if_pos hr, Stutter.accept_of_last ((repeats_iff db me c text).mp hr)]
  · have hlast : (db.said c).getLast? ≠ some (some me, text) := fun hl => hr ((repeats_iff db me c text).mpr hl)
    have hcontent : (some text).map P.sanitizeField = some text := by rw [Option.map_some, htext.1]
    have hrows : (Message.updateUnreadStatus (Message.store db now c (some me) false text) now c (some me)).messages.rows =
        db.messages.rows ++
          [{ id := db.messages.fresh, conversationId := c, userId := some me, content := text, createdAt := now,
             updatedAt := now }] := rfl
    simp only [if_neg hr]
    rw [Stutter.accept, if_neg hlast, MessagePart.text, Option.map_some, Content.cast,
      Message.create_storable P db now c me false hcontent htext.2, said_of_messages (deliver_messages ..)]
    exact said_concat hrows rfl

theorem textsOf_concat (me : ℕ) (log : List (Option ℕ × String)) (text : String) :
    textsOf me (log ++ [(some me, text)]) = textsOf me log ++ [text] := by
  simp [textsOf]

theorem textsOf_accept (me : ℕ) (log : List (Option ℕ × String)) (text : String) :
    (textsOf me (Stutter.accept log (some me, text))).destutter (· ≠ ·) =
      Stutter.accept ((textsOf me log).destutter (· ≠ ·)) text := by
  by_cases h : log.getLast? = some (some me, text)
  · obtain ⟨earlier, rfl⟩ := List.getLast?_eq_some_iff.mp h
    rw [Stutter.accept_of_last h, textsOf_concat, Stutter.destutter_concat, Stutter.accept_accept]
  · rw [Stutter.accept, if_neg h, textsOf_concat, Stutter.destutter_concat]

theorem textsOf_said_of_writtenBy {author : ℕ} (h : WrittenBy author db db') (hne : author ≠ me) :
    textsOf me (db'.said c) = textsOf me (db.said c) := by
  obtain ⟨written, hrows, hauthor⟩ := h
  have hnone : textsOf me ((written.filter (fun m => decide (m.conversationId = c))).map
      (fun m => (m.userId, m.content))) = [] := by
    rw [textsOf, List.map_eq_nil_iff, List.filter_eq_nil_iff]
    intro entry hentry
    obtain ⟨m, hm, rfl⟩ := List.mem_map.mp hentry
    simp [hauthor m (List.mem_of_mem_filter hm), hne]
  rw [Db.said, hrows, List.filter_append, List.map_append, textsOf, List.filter_append, List.map_append]
  rw [textsOf] at hnone
  rw [hnone, List.append_nil]
  rfl

end Server

/-- A reading of the database as the list of the texts that a participant has
sent, for which a text sent twice in a row counts once. -/
structure Reading (P : Platform) (me c : ℕ) (Allowed : Db → Op → Prop) (L : Db → List String → Prop) : Prop where
  elsewhere : ∀ {db op texts}, Member db c me → Allowed db op → L db texts → L (step P db op) texts
  handled : ∀ {db db' texts text}, db'.said c = Stutter.accept (db.said c) (some me, text) → L db texts →
    L db' (texts ++ [text])
  repeated : ∀ {db texts text}, texts.getLast? = some text → L db (texts ++ [text]) → L db texts

/-- The answer that arrives is not one to an earlier message, what is submitted
is stored as it is, and what happens elsewhere is allowed. -/
def ReplyEvent.Fair (P : Platform) (Allowed : Db → Op → Prop) (w : ReplyWindow) : ReplyEvent → Prop
  | submit messageContent => P.KeepsText (Text.htmlToPlaintext messageContent)
  | receive => w.isPosting = true → ∀ answer ∈ w.answers.head?, answer.1 = w.submitted.length
  | elsewhere op => Allowed w.db op
  | _ => True

instance (P : Platform) (Allowed : Db → Op → Prop) [∀ db op, Decidable (Allowed db op)] (w : ReplyWindow) :
    ∀ event : ReplyEvent, Decidable (event.Fair P Allowed w)
  | .submit _ => inferInstanceAs (Decidable (_ ∧ _))
  | .receive => inferInstanceAs (Decidable (_ → _))
  | .elsewhere op => inferInstanceAs (Decidable (Allowed w.db op))
  | .reloadSelectedConversation | .opened | .closed | .handle .. => inferInstanceAs (Decidable True)

/-- The first `n` of the submitted messages have been handled, once or more. -/
structure Handled (P : Platform) (me c : ℕ) (L : Db → List String → Prop) (n : ℕ) (w : ReplyWindow) : Prop where
  member : Member w.db c me
  log : L w.db (w.contents.take n)
  le : n ≤ w.submitted.length
  last : w.submitted.length ≤ n + 1
  data : ∀ messageContent, w.isPosting = true → w.conversationDataToSend = some messageContent →
    w.submitted.getLast? = some messageContent
  texts : ∀ text ∈ w.contents, P.KeepsText text
  requests : ∀ r ∈ w.requests,
    n ≤ r.number ∧ r.number ≤ w.submitted.length ∧ (w.contents.take r.number).getLast? = some r.content
  sorted : w.requests.Pairwise (fun r r' => r.number ≤ r'.number)
  answers : ∀ answer ∈ w.answers, answer.1 ≤ n

theorem ReplyWindow.contents_getLast? {w : ReplyWindow} {messageContent : String}
    (h : w.submitted.getLast? = some messageContent) :
    (w.contents.take w.submitted.length).getLast? = some (Text.htmlToPlaintext messageContent) := by
  rw [contents, List.take_of_length_le (List.length_map _).le, List.getLast?_map, h, Option.map_some]

@[simp]
theorem ReplyWindow.addMessage_isPosting (w : ReplyWindow) (messageContent : String) :
    (w.addMessage messageContent).isPosting = true := by
  unfold addMessage
  split_ifs with h
  · exact h
  · rfl
  · rfl

theorem ReplyWindow.handle_window (P : Platform) (me c : ℕ) (w : ReplyWindow) (now : ℕ) (online : List ℕ) :
    (w.handle P me c now online).isPosting = w.isPosting ∧ (w.handle P me c now online).submitted = w.submitted := by
  unfold handle
  cases w.requests with
  | nil => exact ⟨rfl, rfl⟩
  | cons request rest => exact ⟨rfl, rfl⟩

theorem ReplyWindow.contents_take {w : ReplyWindow} {n : ℕ} {content : String} (hn : n < w.submitted.length)
    (hlast : (w.contents.take (n + 1)).getLast? = some content) :
    w.contents.take (n + 1) = w.contents.take n ++ [content] := by
  have hlength : n < w.contents.length := by rwa [contents, List.length_map]
  rw [List.take_add_one, List.getElem?_eq_getElem hlength, Option.toList_some] at hlast ⊢
  rw [List.getLast?_concat, Option.some.injEq] at hlast
  rw [hlast]

namespace Handled

variable {P : Platform} {me c n : ℕ} {Allowed : Db → Op → Prop} {L : Db → List String → Prop} {w : ReplyWindow}

theorem addMessage (h : Handled P me c L n w) {messageContent : String}
    (hlast : w.submitted.getLast? = some messageContent) : Handled P me c L n (w.addMessage messageContent) := by
  unfold ReplyWindow.addMessage
  split_ifs with hposting hconnected
  · exact h
  · refine { h with data := ?_, requests := ?_, sorted := ?_ }
    · rintro text - ht
      cases ht
      exact hlast
    · intro r hr
      rcases List.mem_append.mp hr with hr | hr
      · exact h.requests r hr
      · rw [List.mem_singleton.mp hr]
        exact ⟨h.le, le_refl _, ReplyWindow.contents_getLast? hlast⟩
    · refine List.pairwise_append.mpr ⟨h.sorted, List.pairwise_singleton _ _, ?_⟩
      intro r hr r' hr'
      rw [List.mem_singleton.mp hr']
      exact (h.requests r hr).2.1
  · refine { h with data := ?_ }
    rintro text - ht
    cases ht
    exact hlast

theorem submit (h : Handled P me c L n w) (hidle : w.isPosting = false → n = w.submitted.length)
    {messageContent : String} (htext : P.KeepsText (Text.htmlToPlaintext messageContent)) :
    Handled P me c L n (w.submit messageContent) := by
  unfold ReplyWindow.submit
  split_ifs with hno
  · exact h
  · have hposting : w.isPosting = false := by
      simp only [Bool.or_eq_true, not_or, Bool.not_eq_true] at hno
      exact hno.1
    have hn : n = w.submitted.length := hidle hposting
    have hcontents : ∀ k ≤ w.submitted.length,
        (((w.submitted ++ [messageContent]).map Text.htmlToPlaintext).take k) = w.contents.take k := by
      intro k hk
      rw [List.map_append, List.take_append_of_le_length (by rwa [List.length_map])]
      rfl
    apply addMessage _ List.getLast?_concat
    exact {
      member := h.member
      log := by
        rw [ReplyWindow.contents, hcontents n h.le]
        exact h.log
      le := by
        rw [List.length_append]
        exact h.le.trans (Nat.le_add_right _ _)
      last := by
        rw [List.length_append, hn]
        exact le_refl _
      data := fun _ hp => by
        rw [hposting] at hp
        cases hp
      texts := by
        intro text ht
        rw [ReplyWindow.contents, List.map_append] at ht
        rcases List.mem_append.mp ht with ht | ht
        · exact h.texts text ht
        · rw [List.mem_singleton.mp ht]
          exact htext
      requests := by
        intro r hr
        obtain ⟨hle, hle', hlast⟩ := h.requests r hr
        refine ⟨hle, ?_, ?_⟩
        · rw [List.length_append]
          exact hle'.trans (Nat.le_add_right _ _)
        · rw [ReplyWindow.contents, hcontents _ hle']
          exact hlast
      sorted := h.sorted
      answers := h.answers }

theorem reload (h : Handled P me c L n w) : Handled P me c L n w.reload := by
  unfold ReplyWindow.reload
  cases hdata : w.conversationDataToSend with
  | none => exact h
  | some messageContent =>
    simp only
    split_ifs with hposting
    · have hidle : Handled P me c L n { w with isPosting := false, conversationDataToSend := some messageContent } :=
        { h with data := fun _ hp => absurd hp Bool.false_ne_true }
      exact hidle.addMessage (h.data messageContent hposting hdata)
    · exact h

theorem receive (h : Handled P me c L n w) : Handled P me c L n w.receive := by
  unfold ReplyWindow.receive
  cases hanswers : w.answers with
  | nil => exact h
  | cons answer rest =>
    refine { h with data := fun _ hp => absurd hp Bool.false_ne_true, answers := fun answer' ha => h.answers answer' ?_ }
    rw [hanswers]
    exact List.mem_cons_of_mem answer ha

/-- A message is handled for the first time, or it is the one handled last. -/
theorem handle (hL : Reading P me c Allowed L) (h : Handled P me c L n w) (now : ℕ) (online : List ℕ) :
    ∃ n', n ≤ n' ∧ Handled P me c L n' (w.handle P me c now online) := by
  unfold ReplyWindow.handle
  cases hrequests : w.requests with
  | nil => exact ⟨n, le_refl n, h⟩
  | cons r rest =>
    have hr : r ∈ w.requests := hrequests ▸ List.mem_cons_self
    have hrest : ∀ r' ∈ rest, r' ∈ w.requests := fun r' hr' => hrequests ▸ List.mem_cons_of_mem r hr'
    have hsorted : (r :: rest).Pairwise (fun r r' => r.number ≤ r'.number) := hrequests ▸ h.sorted
    obtain ⟨hn, hlength, hlast⟩ := h.requests r hr
    have htext : P.KeepsText r.content := h.texts _ (List.mem_of_mem_take (List.mem_of_getLast? hlast))
    have hmember := h.member.changes (postMessage_changes P w.db now online me (ReplyWindow.reply c r.content))
    have hlog := hL.handled (said_postMessage_reply h.member now online htext) h.log
    rcases Nat.lt_or_ge n r.number with hlt | hge
    · have hnumber : r.number = n + 1 := by
        have := h.last
        omega
      rw [hnumber] at hlast
      refine ⟨n + 1, Nat.le_succ n, hmember, ?_, hnumber ▸ hlength, h.last.trans (Nat.le_succ _), h.data, h.texts, ?_,
        hsorted.of_cons, ?_⟩
      · rw [← ReplyWindow.contents_take (by omega) hlast] at hlog
        exact hlog
      · intro r' hr'
        exact ⟨hnumber ▸ List.rel_of_pairwise_cons hsorted hr', (h.requests r' (hrest r' hr')).2⟩
      · intro answer ha
        rcases List.mem_append.mp ha with ha | ha
        · exact (h.answers answer ha).trans (Nat.le_succ n)
        · obtain ⟨a, -, rfl⟩ := List.mem_map.mp ha
          exact hnumber.le
    · have hnumber : r.number = n := le_antisymm hge hn
      rw [hnumber] at hlast
      refine ⟨n, le_refl n, hmember, hL.repeated hlast hlog, h.le, h.last, h.data, h.texts,
        fun r' hr' => h.requests r' (hrest r' hr'), hsorted.of_cons, ?_⟩
      intro answer ha
      rcases List.mem_append.mp ha with ha | ha
      · exact h.answers answer ha
      · obtain ⟨a, -, rfl⟩ := List.mem_map.mp ha
        exact hge

/-- A window that is not posting has had an answer to its last message. -/
theorem step (hL : Reading P me c Allowed L) (h : Handled P me c L n w)
    (hidle : w.isPosting = false → n = w.submitted.length) {event : ReplyEvent} (hfair : event.Fair P Allowed w) :
    ∃ n', Handled P me c L n' (w.step P me c event) ∧
      ((w.step P me c event).isPosting = false → n' = (w.step P me c event).submitted.length) := by
  cases event with
  | submit messageContent =>
    refine ⟨n, h.submit hidle hfair, ?_⟩
    simp only [ReplyWindow.step, ReplyWindow.submit]
    split_ifs
    · exact hidle
    · simp
  | reloadSelectedConversation =>
    refine ⟨n, h.reload, ?_⟩
    simp only [ReplyWindow.step, ReplyWindow.reload]
    cases w.conversationDataToSend with
    | none => exact hidle
    | some messageContent =>
      simp only
      split_ifs
      · simp
      · exact hidle
  | opened => exact ⟨n, { h with }, hidle⟩
  | closed => exact ⟨n, { h with requests := nofun, sorted := .nil, answers := nofun }, hidle⟩
  | handle now online =>
    obtain ⟨n', hle, h'⟩ := h.handle hL now online
    obtain ⟨hposting, hsubmitted⟩ := w.handle_window P me c now online
    refine ⟨n', h', fun hp => le_antisymm h'.le ?_⟩
    simp only [ReplyWindow.step] at hp ⊢
    rw [hsubmitted, ← hidle (hposting ▸ hp)]
    exact hle
  | receive =>
    refine ⟨n, h.receive, ?_⟩
    simp only [ReplyWindow.step, ReplyWindow.receive]
    cases hanswers : w.answers with
    | nil => exact hidle
    | cons answer rest =>
      rintro -
      cases hp : w.isPosting with
      | false => exact hidle hp
      | true =>
        have hlast : answer.1 = w.submitted.length := hfair hp answer (by rw [hanswers, List.head?_cons]; rfl)
        have hle := h.answers answer (hanswers ▸ List.mem_cons_self)
        exact le_antisymm h.le (hlast ▸ hle)
  | elsewhere op =>
    exact ⟨n, { h with
      member := h.member.changes (step_changes P w.db op)
      log := hL.elsewhere h.member hfair h.log }, hidle⟩

end Handled

theorem Handled.start {P : Platform} {me c : ℕ} {L : Db → List String → Prop} {db : Db} (hm : Member db c me)
    (hdb : L db []) : Handled P me c L 0 { db } :=
  ⟨hm, hdb, le_refl _, Nat.zero_le _, nofun, nofun, nofun, .nil, nofun⟩

theorem Handled.all_but_last {P : Platform} {me c : ℕ} {L : Db → List String → Prop} {n : ℕ} {w : ReplyWindow}
    (h : Handled P me c L n w) (hidle : w.isPosting = false → n = w.submitted.length) :
    n = w.submitted.length ∨ w.isPosting = true ∧ n + 1 = w.submitted.length := by
  cases hp : w.isPosting with
  | false => exact Or.inl (hidle hp)
  | true =>
    have hle := h.le
    have hlast := h.last
    rcases Nat.lt_or_ge n w.submitted.length with hlt | hge
    · exact Or.inr ⟨rfl, by omega⟩
    · exact Or.inl (by omega)

theorem Handled.run {P : Platform} {me c : ℕ} {Allowed : Db → Op → Prop} {L : Db → List String → Prop}
    (hL : Reading P me c Allowed L) {db : Db} (hm : Member db c me) (hdb : L db []) {events : List ReplyEvent}
    (hfair : Transition.Meets (ReplyWindow.step P me c) (ReplyEvent.Fair P Allowed) { db } events) {w : ReplyWindow}
    (hw : Transition.run (ReplyWindow.step P me c) { db } events = w) :
    ∃ n, Handled P me c L n w ∧ (n = w.submitted.length ∨ w.isPosting = true ∧ n + 1 = w.submitted.length) := by
  have hi := Transition.invariant_of_meets (ReplyWindow.step P me c)
    (I := fun w => ∃ n, Handled P me c L n w ∧ (w.isPosting = false → n = w.submitted.length))
    (fun w event hq hi => by
      obtain ⟨n, h, hidle⟩ := hi
      exact h.step hL hidle hq)
    { db } ⟨0, .start hm hdb, fun _ => rfl⟩ events hfair events.length
  rw [List.take_length, hw] at hi
  obtain ⟨n, h, hidle⟩ := hi
  exact ⟨n, h, h.all_but_last hidle⟩

/-- Up to repetitions, what the participant has said is what they had said, and
then the texts. -/
def SaidInOrder (start : Db) (c me : ℕ) (db : Db) (texts : List String) : Prop :=
  (textsOf me (db.said c)).destutter (· ≠ ·) = (textsOf me (start.said c) ++ texts).destutter (· ≠ ·)

theorem saidInOrder_reading (P : Platform) (start : Db) (c me : ℕ) :
    Reading P me c (fun _ op => op.author? ≠ some me) (SaidInOrder start c me) where
  elsewhere := by
    intro db op texts hm hother h
    have hsaid : textsOf me ((step P db op).said c) = textsOf me (db.said c) := by
      cases ha : op.author? with
      | none => rw [said_of_messages (step_messages P db ha)]
      | some author =>
        have hne : author ≠ me := fun he => hother (he ▸ ha)
        refine textsOf_said_of_writtenBy (step_writtenBy P hm.consistent fun author' ha' => ?_) hne
        rw [ha] at ha'
        cases ha'
        rfl
    rw [SaidInOrder, hsaid]
    exact h
  handled := by
    intro db db' texts text hsaid h
    rw [SaidInOrder, hsaid, textsOf_accept, h, ← Stutter.destutter_concat, List.append_assoc]
  repeated := by
    intro db texts text hlast h
    have hlast' : (textsOf me (start.said c) ++ texts).getLast? = some text := by
      rw [List.getLast?_append, hlast]
      rfl
    rw [SaidInOrder, ← List.append_assoc, Stutter.destutter_concat,
      Stutter.accept_of_last ((Stutter.getLast?_destutter _).trans hlast')] at h
    exact h

/-- The conversation is what it was, and then the texts, of which one that
repeats the last message is left out. -/
def SaidOnce (start : Db) (c me : ℕ) (db : Db) (texts : List String) : Prop :=
  db.said c = texts.foldl (fun log text => Stutter.accept log (some me, text)) (start.said c)

theorem saidOnce_reading (P : Platform) (start : Db) (c me : ℕ) :
    Reading P me c (fun db op => (step P db op).said c = db.said c) (SaidOnce start c me) where
  elsewhere := fun _ hquiet h => hquiet.trans h
  handled := by
    intro db db' texts text hsaid h
    rw [SaidOnce, hsaid, h, List.foldl_concat]
  repeated := by
    intro db texts text hlast h
    obtain ⟨earlier, rfl⟩ := List.getLast?_eq_some_iff.mp hlast
    rw [SaidOnce, List.foldl_concat, List.foldl_concat, Stutter.accept_accept] at h
    rw [SaidOnce, List.foldl_concat]
    exact h

theorem replies_stored_in_order (P : Platform) (me c : ℕ) (db : Db) (hdb : Reachable P db)
    (hmember : db.conversationUsers.has (c, me) = true) (events : List ReplyEvent)
    (hfair : Transition.Meets (ReplyWindow.step P me c) (ReplyEvent.Fair P (fun _ op => op.author? ≠ some me)) { db } events) :
    let w := Transition.run (ReplyWindow.step P me c) { db } events
    ∃ n, (n = w.submitted.length ∨ w.isPosting = true ∧ n + 1 = w.submitted.length) ∧
      (textsOf me (w.db.said c)).destutter (· ≠ ·) =
        (textsOf me (db.said c) ++ w.contents.take n).destutter (· ≠ ·) := by
  intro w
  obtain ⟨n, h, hn⟩ := Handled.run (saidInOrder_reading P db c me) (.of_reachable hdb hmember)
    (by rw [SaidInOrder, List.append_nil]) hfair rfl
  exact ⟨n, hn, h.log⟩

/-- The answer to the first message is lost with the connection, and the answer
to the copy sent in its place refuses it. -/
def bobRepliesTwice : List ReplyEvent :=
  [.submit "hi", .handle 20 [], .closed, .opened, .reloadSelectedConversation, .handle 30 [], .receive,
    .elsewhere (.postMessage 40 [] 1 { message := some { conversationId := some 1, content := some "so?" } }),
    .submit "<b>bye</b>", .handle 50 []]

theorem bob_replies_in_order :
    let w := Transition.run (ReplyWindow.step .plain 2 1) { db := annWroteToBob } bobRepliesTwice
    w.db.said 1 = [(some 1, "hello"), (some 2, "hi"), (some 1, "so?"), (some 2, "bye")] ∧
      ∃ n, (n = w.submitted.length ∨ w.isPosting = true ∧ n + 1 = w.submitted.length) ∧
        (textsOf 2 (w.db.said 1)).destutter (· ≠ ·) =
          (textsOf 2 (annWroteToBob.said 1) ++ w.contents.take n).destutter (· ≠ ·) := by
  exact ⟨by decide +kernel, replies_stored_in_order .plain 2 1 annWroteToBob ⟨{}, _, rfl⟩ (by decide +kernel)
    bobRepliesTwice (by decide +kernel)⟩

theorem replies_stored_once (P : Platform) (me c : ℕ) (db : Db) (hdb : Reachable P db)
    (hmember : db.conversationUsers.has (c, me) = true) (events : List ReplyEvent)
    (hfair : Transition.Meets (ReplyWindow.step P me c)
      (ReplyEvent.Fair P (fun db op => (step P db op).said c = db.said c)) { db } events) :
    let w := Transition.run (ReplyWindow.step P me c) { db } events
    ∃ n, (n = w.submitted.length ∨ w.isPosting = true ∧ n + 1 = w.submitted.length) ∧
      w.db.said c = (w.contents.take n).foldl (fun log text => Stutter.accept log (some me, text)) (db.said c) := by
  intro w
  obtain ⟨n, h, hn⟩ := Handled.run (saidOnce_reading P db c me) (.of_reachable hdb hmember) rfl hfair rfl
  exact ⟨n, hn, h.log⟩

theorem bob_replies_once :
    let w := Transition.run (ReplyWindow.step .plain 2 1) { db := annWroteToBob } (bobRepliesTwice.take 7)
    w.db.said 1 = [(some 1, "hello"), (some 2, "hi")] ∧
      ∃ n, (n = w.submitted.length ∨ w.isPosting = true ∧ n + 1 = w.submitted.length) ∧
        w.db.said 1 = (w.contents.take n).foldl (fun log text => Stutter.accept log (some 2, text)) (annWroteToBob.said 1) := by
  exact ⟨by decide +kernel, replies_stored_once .plain 2 1 annWroteToBob ⟨{}, _, rfl⟩ (by decide +kernel)
    (bobRepliesTwice.take 7) (by decide +kernel)⟩

/-- The conversations are loaded anew while the first message is under way, and
the second answer to it arrives when the next one is: that one is given up. -/
theorem late_answer_gives_up_reply :
    let w := Transition.run (ReplyWindow.step .plain 2 1) { db := annWroteToBob }
      [.submit "hi", .reloadSelectedConversation, .handle 20 [], .handle 20 [], .receive, .submit "bye", .receive, .closed,
        .opened, .reloadSelectedConversation]
    w.submitted = ["hi", "bye"] ∧ w.isPosting = false ∧ w.requests = [] ∧
      w.db.said 1 = [(some 1, "hello"), (some 2, "hi")] := by
  decide +kernel

end Blnkk
