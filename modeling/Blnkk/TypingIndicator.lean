import Blnkk.ReplyWindow

/-!
The typing indicator of a conversation: `replyChangedHandler` with its timeout
in the browser of the member who types, `is_typing` on the server, and the
handlers of the other browser that set `isTyping`. Notices and answers keep
their order, and the user may type on while they are under way. A connection
that breaks comes back, and the conversation is then loaded anew. Both members
stay on the page of the conversation.
-/

namespace Blnkk

open Relational ConversationsSocket Transition

/-- What the other browser receives that concerns the indicator. -/
inductive TypingNotice where
  | userIsTyping (conversationId : ℕ) (isTyping : Bool)
  | messageNew (fromSelf systemGenerated : Bool)
  | userStatusDisconnected (userId : ℕ)
  deriving DecidableEq

/-- The handlers, in a browser where conversation `c` with user `me` is selected.
`newMessageHandler` does not ask which conversation the message is for. -/
def TypingNotice.handle (c me : ℕ) (isTyping : Bool) : TypingNotice → Bool
  | .userIsTyping conversationId typing => if conversationId = c then typing else isTyping
  | .messageNew fromSelf systemGenerated => if !fromSelf && !systemGenerated then false else isTyping
  | .userStatusDisconnected userId => if userId = me then false else isTyping

def ConversationsSocket.Event.typingNotice? (p : ℕ) : Event → Option TypingNotice
  | .userIsTyping receiver conversation (.bool isTyping) =>
    if receiver = p then some (.userIsTyping conversation isTyping) else none
  | _ => none

structure TypingWindow where
  db : Db
  typingMessageSent : Bool := false
  -- whether the timeout is still to come
  isTypingPromise : Bool := false
  connected : Bool := true
  -- the calls of `getConversation` without an answer
  loads : ℕ := 0
  notices : List Bool := []
  answers : List Bool := []
  channel : List TypingNotice := []
  -- in the other browser
  isTyping : Bool := false

/-- `posted` is an answer to `post_message` that empties the box, `closed true`
the end of the last socket of the user. The other browser keeps its socket. -/
inductive TypingEvent where
  | replyChanged (messageReply : String)
  | timeout
  | posted
  | getConversation
  | conversationLoaded
  | loadFailed
  | opened
  | closed (last : Bool)
  | handle
  | receive
  | messageNew (fromSelf systemGenerated : Bool)
  | deliver
  | reload
  | elsewhere (op : Op)
  deriving DecidableEq

namespace TypingWindow

variable (P : Platform) (me c p : ℕ) (w : TypingWindow)

/-- What is triggered on a dead connection is never sent. -/
def sendIsTypingMessage (isTyping : Bool) : TypingWindow :=
  if w.connected then { w with notices := w.notices ++ [isTyping] } else w

def setNotTypingForSelectedConversation : TypingWindow :=
  { w with isTypingPromise := false }.sendIsTypingMessage false

def replyChangedHandler (messageReply : String) : TypingWindow :=
  if messageReply.length > 0 then
    if !w.typingMessageSent then { w with isTypingPromise := true }.sendIsTypingMessage true
    else { w with isTypingPromise := true }
  else if w.typingMessageSent then { w with isTypingPromise := false }.sendIsTypingMessage false
  else { w with isTypingPromise := false }

def timeout : TypingWindow := if w.isTypingPromise then w.setNotTypingForSelectedConversation else w

def posted : TypingWindow :=
  if w.connected then { w with typingMessageSent := false }.setNotTypingForSelectedConversation else w

def conversationLoaded : TypingWindow :=
  if w.loads = 0 then w else { w with loads := w.loads - 1 }.setNotTypingForSelectedConversation

/-- `reloadConversations` ends in `getConversation`. -/
def opened : TypingWindow := if w.connected then w else { w with connected := true, loads := w.loads + 1 }

def closed (last : Bool) : TypingWindow :=
  if w.connected then
    { w with
      connected := false
      notices := []
      answers := []
      channel := if last then w.channel ++ [.userStatusDisconnected me] else w.channel }
  else w

def handle : TypingWindow :=
  match w.notices with
  | [] => w
  | isTyping :: rest =>
    let events := ConversationsSocket.isTyping w.db me (some c) (.bool isTyping)
    { w with
      notices := rest
      answers := if Event.acknowledged ∈ events then w.answers ++ [isTyping] else w.answers
      channel := w.channel ++ events.filterMap (Event.typingNotice? p) }

def receive : TypingWindow :=
  match w.answers with
  | [] => w
  | isTyping :: rest => { w with typingMessageSent := isTyping, answers := rest }

def deliver : TypingWindow :=
  match w.channel with
  | [] => w
  | notice :: rest => { w with isTyping := notice.handle c me w.isTyping, channel := rest }

def step : TypingEvent → TypingWindow
  | .replyChanged messageReply => w.replyChangedHandler messageReply
  | .timeout => w.timeout
  | .posted => w.posted
  | .getConversation => { w with loads := w.loads + 1 }
  | .conversationLoaded => w.conversationLoaded
  | .loadFailed => { w with loads := w.loads - 1 }
  | .opened => w.opened
  | .closed last => w.closed me last
  | .handle => w.handle me c p
  | .receive => w.receive
  | .messageNew fromSelf systemGenerated => { w with channel := w.channel ++ [.messageNew fromSelf systemGenerated] }
  | .deliver => w.deliver me c
  -- the conversations come from the server without `isTyping`
  | .reload => { w with isTyping := false }
  | .elsewhere op => { w with db := Blnkk.step P w.db op }

/-- The loads that end while the connection is open. -/
def pendingLoads : ℕ := if w.connected then w.loads else w.loads + 1

/-- What happens when both users leave their browsers alone: the connection comes
back if it is broken, the conversation is loaded, everything under way arrives,
then the timeout comes if there is one, and its notice arrives. -/
def settling : List TypingEvent :=
  .opened :: List.replicate w.pendingLoads .conversationLoaded ++
    (List.replicate (w.notices.length + w.pendingLoads) .handle ++
      (List.replicate (w.channel.length + (w.notices.length + w.pendingLoads)) .deliver ++ [.timeout, .handle, .deliver]))

def relayed : Bool := w.channel.foldl (TypingNotice.handle c me) w.isTyping

/-- What the other browser shows once everything under way has arrived. -/
def final : Bool := (w.notices.map (TypingNotice.userIsTyping c)).foldl (TypingNotice.handle c me) (w.relayed me c)

end TypingWindow

/-- While the indicator is on or about to be, the box is not emptied before the
notice that it is filled has an answer, unless a load is to come; and the only
load to come does not fail, unless the timeout is. -/
def TypingEvent.Orderly (me c : ℕ) (w : TypingWindow) : TypingEvent → Prop
  | .replyChanged messageReply =>
    messageReply.length = 0 → w.final me c = true → w.typingMessageSent = true ∨ 0 < w.pendingLoads
  | .loadFailed => w.final me c = true → w.isTypingPromise = true ∨ w.connected = false ∨ 1 < w.loads
  | _ => True

instance TypingEvent.Orderly.decidable (me c : ℕ) (w : TypingWindow) : ∀ e, Decidable (TypingEvent.Orderly me c w e)
  | .replyChanged messageReply =>
    inferInstanceAs (Decidable (messageReply.length = 0 → w.final me c = true →
      w.typingMessageSent = true ∨ 0 < w.pendingLoads))
  | .loadFailed =>
    inferInstanceAs (Decidable (w.final me c = true → w.isTypingPromise = true ∨ w.connected = false ∨ 1 < w.loads))
  | .timeout | .posted | .getConversation | .conversationLoaded | .opened | .closed _ | .handle | .receive
  | .messageNew .. | .deliver | .reload | .elsewhere _ => inferInstanceAs (Decidable True)

section Server

theorem isTyping_pair {P : Platform} {db : Db} {me c p : ℕ} (hdb : Reachable P db)
    (hme : db.conversationUsers.has (c, me) = true) (hp : db.conversationUsers.has (c, p) = true) (hne : me ≠ p)
    (typing : Param) : isTyping db me (some c) typing = [.userIsTyping p c typing, .acknowledged] := by
  have hmember := Member.of_reachable hdb hme
  have hconversation := (hdb.consistent.memberships _ ((mem_memberships db c me).mpr hme)).1
  obtain ⟨conversation, hget⟩ := Option.isSome_iff_exists.mp hconversation
  have hid : conversation.id = c := Table.get?_key hget
  have hmem : p ∈ (db.participants c).filter (· != me) :=
    List.mem_filter.mpr ⟨(mem_participants _ _ _).mpr hp, by simpa using hne.symm⟩
  have hlast : ((db.participants c).filter (· != me)).getLast? = some p := by
    obtain ⟨other, hother⟩ := Option.isSome_iff_exists.mp (List.getLast?_isSome.mpr (List.ne_nil_of_mem hmem))
    obtain ⟨hin, hout⟩ := List.mem_filter.mp (List.mem_of_getLast? hother)
    have htwo := two_of_length (hdb.paired.atMostTwo c) hne ((mem_participants _ _ _).mpr hme)
      ((mem_participants _ _ _).mpr hp) other
    rw [hother, (htwo.mp hin).resolve_left (by simpa using hout)]
  simp [isTyping, hmember.user, hget, hid, hlast]

end Server

namespace TypingWindow

variable {P : Platform} {me c p : ℕ} {w : TypingWindow}

/-- The conversation is one of the two users. -/
structure Between (P : Platform) (me c p : ℕ) (w : TypingWindow) : Prop where
  reachable : Reachable P w.db
  me : w.db.conversationUsers.has (c, me) = true
  other : w.db.conversationUsers.has (c, p) = true

theorem handle_cons (h : Between P me c p w) (hne : me ≠ p) {isTyping : Bool} {rest : List Bool}
    (hn : w.notices = isTyping :: rest) :
    w.handle me c p =
      { w with
        notices := rest
        answers := w.answers ++ [isTyping]
        channel := w.channel ++ [.userIsTyping c isTyping] } := by
  have hevents := isTyping_pair h.reachable h.me h.other hne (.bool isTyping)
  rw [handle, hn]
  simp [hevents, Event.typingNotice?]

theorem handle_nil (hn : w.notices = []) : w.handle me c p = w := by rw [handle, hn]

theorem deliver_nil (hc : w.channel = []) : w.deliver me c = w := by rw [deliver, hc]

theorem sendIsTypingMessage_db (isTyping : Bool) : (w.sendIsTypingMessage isTyping).db = w.db := by
  unfold sendIsTypingMessage
  split_ifs <;> rfl

theorem step_db (P : Platform) (me c p : ℕ) (w : TypingWindow) (e : TypingEvent) :
    (step P me c p w e).db = w.db ∨ ∃ op, (step P me c p w e).db = Blnkk.step P w.db op := by
  cases e with
  | replyChanged messageReply =>
    left
    simp only [step, replyChangedHandler]
    split_ifs <;> first | exact sendIsTypingMessage_db _ | rfl
  | timeout =>
    left
    simp only [step, timeout]
    split_ifs
    · exact sendIsTypingMessage_db _
    · rfl
  | posted =>
    left
    simp only [step, posted]
    split_ifs
    · exact sendIsTypingMessage_db _
    · rfl
  | conversationLoaded =>
    left
    simp only [step, conversationLoaded]
    split_ifs
    · rfl
    · exact sendIsTypingMessage_db _
  | opened =>
    left
    simp only [step, opened]
    split_ifs <;> rfl
  | closed last =>
    left
    simp only [step, closed]
    split_ifs <;> rfl
  | handle =>
    left
    simp only [step, handle]
    split <;> rfl
  | receive =>
    left
    simp only [step, receive]
    split <;> rfl
  | deliver =>
    left
    simp only [step, deliver]
    split <;> rfl
  | elsewhere op => exact Or.inr ⟨op, rfl⟩
  | getConversation | loadFailed | messageNew _ _ | reload => exact Or.inl rfl

theorem Between.step (e : TypingEvent) (h : Between P me c p w) : Between P me c p (step P me c p w e) := by
  rcases step_db P me c p w e with hdb | ⟨op, hdb⟩
  · obtain ⟨hreachable, hme, hother⟩ := h
    rw [← hdb] at hreachable hme hother
    exact ⟨hreachable, hme, hother⟩
  · have hchanges := step_changes P w.db op
    have hme := (Member.of_reachable h.reachable h.me).changes hchanges
    have hother := (Member.of_reachable h.reachable h.other).changes hchanges
    have hreachable := h.reachable.step op
    rw [← hdb] at hme hother hreachable
    exact ⟨hreachable, hme.participant, hother.participant⟩

section Shown

theorem shown_mono {a b : Bool} (h : a = true → b = true) {notices : List TypingNotice}
    (ha : notices.foldl (TypingNotice.handle c me) a = true) : notices.foldl (TypingNotice.handle c me) b = true := by
  induction notices generalizing a b with
  | nil => exact h ha
  | cons notice notices ih =>
    refine ih ?_ ha
    cases notice <;> simp only [TypingNotice.handle] <;> split_ifs <;> first | exact id | exact h

theorem final_sendIsTypingMessage (isTyping : Bool) :
    (w.sendIsTypingMessage isTyping).final me c = if w.connected then isTyping else w.final me c := by
  unfold sendIsTypingMessage
  split_ifs
  · simp [final, TypingNotice.handle]
  · rfl

theorem final_handle (h : Between P me c p w) (hne : me ≠ p) : (w.handle me c p).final me c = w.final me c := by
  cases hn : w.notices with
  | nil => rw [handle_nil hn]
  | cons isTyping rest =>
    rw [handle_cons h hne hn]
    simp [final, relayed, hn]

theorem final_deliver : (w.deliver me c).final me c = w.final me c := by
  cases hc : w.channel with
  | nil => rw [deliver_nil hc]
  | cons notice rest =>
    rw [deliver, hc]
    simp [final, relayed, hc]

theorem final_receive : (w.receive).final me c = w.final me c := by
  cases ha : w.answers with
  | nil => rw [receive, ha]
  | cons isTyping rest => rw [receive, ha]; rfl

theorem final_of_messageNew {fromSelf systemGenerated : Bool}
    (h : final me c { w with channel := w.channel ++ [.messageNew fromSelf systemGenerated] } = true) :
    w.final me c = true := by
  refine shown_mono ?_ h
  simp only [relayed, List.foldl_append, List.foldl_cons, List.foldl_nil, TypingNotice.handle]
  split_ifs
  · exact False.elim
  · exact id

theorem final_of_reload (h : final me c { w with isTyping := false } = true) : w.final me c = true :=
  shown_mono (shown_mono (fun h => absurd h Bool.false_ne_true)) h

end Shown

/-- For as long as the indicator is on or about to be, the timeout or a load is
still to come. -/
def Watched (me c : ℕ) (w : TypingWindow) : Prop :=
  w.final me c = true → w.isTypingPromise = true ∨ 0 < w.pendingLoads

theorem Watched.of_final (h : Watched me c w) {w' : TypingWindow} (hfinal : w'.final me c = true → w.final me c = true)
    (hpromise : w'.isTypingPromise = w.isTypingPromise) (hloads : w'.pendingLoads = w.pendingLoads) : Watched me c w' := by
  intro hshown
  rw [hpromise, hloads]
  exact h (hfinal hshown)

theorem pendingLoads_of_closed (h : w.connected = false) : 0 < w.pendingLoads := by
  rw [pendingLoads, h]
  exact Nat.succ_pos _

theorem pendingLoads_sendIsTypingMessage (isTyping : Bool) :
    (w.sendIsTypingMessage isTyping).pendingLoads = w.pendingLoads := by
  unfold sendIsTypingMessage
  split_ifs <;> rfl

/-- The notice goes out on an open connection, and a broken one comes back. -/
theorem watched_setNotTyping (me c : ℕ) (w : TypingWindow) : Watched me c w.setNotTypingForSelectedConversation := by
  intro hfinal
  rw [setNotTypingForSelectedConversation, final_sendIsTypingMessage] at hfinal
  split_ifs at hfinal with hconnected
  right
  rw [setNotTypingForSelectedConversation, pendingLoads_sendIsTypingMessage]
  exact pendingLoads_of_closed (Bool.eq_false_iff.mpr hconnected)

theorem isTypingPromise_sendIsTypingMessage (isTyping : Bool) :
    (w.sendIsTypingMessage isTyping).isTypingPromise = w.isTypingPromise := by
  unfold sendIsTypingMessage
  split_ifs <;> rfl

theorem watched_replyChangedHandler_iff (me c : ℕ) (w : TypingWindow) (messageReply : String) :
    Watched me c (w.replyChangedHandler messageReply) ↔
      (messageReply.length = 0 → w.final me c = true → w.typingMessageSent = true ∨ 0 < w.pendingLoads) := by
  unfold replyChangedHandler
  by_cases hlength : messageReply.length > 0
  · rw [if_pos hlength]
    refine iff_of_true ?_ (fun hzero => absurd hzero (by omega))
    split_ifs
    · exact fun _ => Or.inl (isTypingPromise_sendIsTypingMessage true)
    · exact fun _ => Or.inl rfl
  · rw [if_neg hlength]
    by_cases hsent : w.typingMessageSent = true
    · rw [if_pos hsent]
      exact iff_of_true (watched_setNotTyping me c w) (fun _ _ => Or.inl hsent)
    · -- no notice is sent, and no timeout is left to send one
      rw [if_neg hsent]
      constructor
      · intro hwatched _ hfinal
        exact Or.inr ((hwatched hfinal).resolve_left Bool.false_ne_true)
      · intro horderly hfinal
        exact Or.inr ((horderly (by omega) hfinal).resolve_left hsent)

theorem watched_loadFailed_iff (h : Watched me c w) :
    Watched me c { w with loads := w.loads - 1 } ↔
      (w.final me c = true → w.isTypingPromise = true ∨ w.connected = false ∨ 1 < w.loads) := by
  apply forall_congr'
  intro hfinal
  have hwatched := h hfinal
  simp only [pendingLoads] at hwatched ⊢
  cases w.connected with
  | false => simp
  | true =>
    simp only [if_true, Bool.true_eq_false, false_or] at hwatched ⊢
    refine or_congr_right ?_
    omega

theorem watched_step_iff (hb : Between P me c p w) (hne : me ≠ p) (h : Watched me c w) (e : TypingEvent) :
    Watched me c (step P me c p w e) ↔ e.Orderly me c w := by
  cases e with
  | replyChanged messageReply => exact watched_replyChangedHandler_iff me c w messageReply
  | timeout =>
    refine iff_of_true ?_ trivial
    simp only [step, timeout]
    split_ifs
    · exact watched_setNotTyping me c w
    · exact h
  | posted =>
    refine iff_of_true ?_ trivial
    simp only [step, posted]
    split_ifs
    · exact watched_setNotTyping me c _
    · exact h
  | getConversation =>
    refine iff_of_true (fun _ => Or.inr ?_) trivial
    show 0 < if w.connected then w.loads + 1 else w.loads + 1 + 1
    split_ifs <;> exact Nat.succ_pos _
  | conversationLoaded =>
    refine iff_of_true ?_ trivial
    simp only [step, conversationLoaded]
    split_ifs
    · exact h
    · exact watched_setNotTyping me c _
  | loadFailed => exact watched_loadFailed_iff h
  | opened =>
    refine iff_of_true ?_ trivial
    simp only [step, opened]
    split_ifs
    · exact h
    · exact fun _ => Or.inr (Nat.succ_pos _)
  | closed last =>
    refine iff_of_true ?_ trivial
    by_cases hconnected : w.connected = true
    · simp only [step, closed, if_pos hconnected]
      exact fun _ => Or.inr (Nat.succ_pos _)
    · simp only [step, closed, if_neg hconnected]
      exact h
  | handle =>
    refine iff_of_true (h.of_final (final_handle hb hne).symm.trans ?_ ?_) trivial
    all_goals
      simp only [step, handle]
      split <;> rfl
  | receive =>
    refine iff_of_true (h.of_final final_receive.symm.trans ?_ ?_) trivial
    all_goals
      simp only [step, receive]
      split <;> rfl
  | messageNew fromSelf systemGenerated => exact iff_of_true (fun hfinal => h (final_of_messageNew hfinal)) trivial
  | deliver =>
    refine iff_of_true (h.of_final final_deliver.symm.trans ?_ ?_) trivial
    all_goals
      simp only [step, deliver]
      split <;> rfl
  | reload => exact iff_of_true (fun hfinal => h (final_of_reload hfinal)) trivial
  | elsewhere op => exact iff_of_true h trivial

section Settling

theorem run_handle (h : Between P me c p w) (hne : me ≠ p) :
    run (step P me c p) w (List.replicate w.notices.length .handle) =
      { w with
        notices := []
        answers := w.answers ++ w.notices
        channel := w.channel ++ w.notices.map (.userIsTyping c) } := by
  generalize hn : w.notices = notices
  induction notices generalizing w with
  | nil =>
    obtain ⟨db, sent, promise, connected, loads, notices, answers, channel, shown⟩ := w
    cases hn
    simp [run]
  | cons isTyping rest ih =>
    have hstep : step P me c p w .handle = _ := handle_cons h hne hn
    have hnext := ih (h.step .handle) (by rw [hstep])
    rw [List.length_cons, List.replicate_succ, run_cons, hnext, hstep]
    simp

theorem run_deliver (P : Platform) (me c p : ℕ) (w : TypingWindow) :
    run (step P me c p) w (List.replicate w.channel.length .deliver) =
      { w with channel := [], isTyping := w.relayed me c } := by
  generalize hc : w.channel = channel
  induction channel generalizing w with
  | nil =>
    obtain ⟨db, sent, promise, connected, loads, notices, answers, channel, shown⟩ := w
    cases hc
    rfl
  | cons notice rest ih =>
    have hstep : step P me c p w .deliver = { w with isTyping := notice.handle c me w.isTyping, channel := rest } := by
      simp only [step, deliver, hc]
    have hnext := ih (step P me c p w .deliver) (by rw [hstep])
    rw [List.length_cons, List.replicate_succ, run_cons, hnext, hstep]
    simp [relayed, hc]

theorem run_timeout (h : Between P me c p w) (hne : me ≠ p) (hn : w.notices = []) (hc : w.channel = []) :
    (run (step P me c p) w [.timeout, .handle, .deliver]).isTyping =
      (w.isTyping && !(w.isTypingPromise && w.connected)) := by
  cases hpromise : w.isTypingPromise && w.connected with
  | true =>
    obtain ⟨htimeout, hconnected⟩ := Bool.and_eq_true_iff.mp hpromise
    have hsent : (step P me c p w .timeout).notices = [false] := by
      simp [step, timeout, setNotTypingForSelectedConversation, sendIsTypingMessage, htimeout, hconnected, hn]
    have hchannel : (step P me c p w .timeout).channel = [] := by
      simp [step, timeout, setNotTypingForSelectedConversation, sendIsTypingMessage, htimeout, hconnected, hc]
    have hhandle : step P me c p (step P me c p w .timeout) .handle = _ := handle_cons (h.step .timeout) hne hsent
    rw [run_cons, run_cons, hhandle, hchannel]
    simp [run, step, deliver, TypingNotice.handle]
  | false =>
    have hidle : (step P me c p w .timeout).notices = [] ∧ (step P me c p w .timeout).channel = [] ∧
        (step P me c p w .timeout).isTyping = w.isTyping := by
      simp only [step, timeout]
      split_ifs with htimeout
      · have hconnected : w.connected = false := by simpa [htimeout] using hpromise
        simp [setNotTypingForSelectedConversation, sendIsTypingMessage, hconnected, hn, hc]
      · exact ⟨hn, hc, rfl⟩
    obtain ⟨hnotices, hchannel, hshown⟩ := hidle
    have hhandle : step P me c p (step P me c p w .timeout) .handle = step P me c p w .timeout := handle_nil hnotices
    have hdeliver : step P me c p (step P me c p w .timeout) .deliver = step P me c p w .timeout := deliver_nil hchannel
    rw [run_cons, run_cons, hhandle, run_cons, hdeliver, Bool.not_false, Bool.and_true]
    exact hshown

theorem run_arrive (h : Between P me c p w) (hne : me ≠ p) :
    (run (step P me c p) w (List.replicate w.notices.length .handle ++
      (List.replicate (w.channel.length + w.notices.length) .deliver ++ [.timeout, .handle, .deliver]))).isTyping =
      (w.final me c && !(w.isTypingPromise && w.connected)) := by
  have hlength : w.channel.length + w.notices.length =
      (w.channel ++ w.notices.map (TypingNotice.userIsTyping c)).length := by simp
  rw [run_append, run_append, run_handle h hne, hlength, run_deliver]
  apply Eq.trans
  · apply run_timeout _ hne
    · rfl
    · rfl
    · exact ⟨h.reachable, h.me, h.other⟩
  · simp [relayed, final]

theorem run_conversationLoaded (P : Platform) (me c p : ℕ) (w : TypingWindow) (hconnected : w.connected = true) :
    run (step P me c p) w (List.replicate w.loads .conversationLoaded) =
      { w with
        loads := 0
        isTypingPromise := decide (w.loads = 0) && w.isTypingPromise
        notices := w.notices ++ List.replicate w.loads false } := by
  generalize hl : w.loads = loads
  induction loads generalizing w with
  | zero =>
    obtain ⟨db, sent, promise, connected, loads, notices, answers, channel, shown⟩ := w
    cases hl
    simp [run]
  | succ n ih =>
    have hstep : step P me c p w .conversationLoaded =
        { w with loads := n, isTypingPromise := false, notices := w.notices ++ [false] } := by
      simp [step, conversationLoaded, setNotTypingForSelectedConversation, sendIsTypingMessage, hl, hconnected]
    have hnext := ih (step P me c p w .conversationLoaded) (by rw [hstep]; exact hconnected) (by rw [hstep])
    rw [List.replicate_succ, run_cons, hnext, hstep]
    simp [List.replicate_succ]

/-- The connection has come back, and the loads have ended. -/
def loaded (w : TypingWindow) : TypingWindow :=
  { w with
    connected := true
    loads := 0
    isTypingPromise := decide (w.pendingLoads = 0) && w.isTypingPromise
    notices := w.notices ++ List.replicate w.pendingLoads false }

theorem run_loaded (P : Platform) (me c p : ℕ) (w : TypingWindow) :
    run (step P me c p) w (.opened :: List.replicate w.pendingLoads .conversationLoaded) = w.loaded := by
  have hopened : step P me c p w .opened = { w with connected := true, loads := w.pendingLoads } := by
    obtain ⟨db, sent, promise, connected, loads, notices, answers, channel, shown⟩ := w
    cases connected <;> rfl
  rw [run_cons, hopened]
  exact run_conversationLoaded P me c p { w with connected := true, loads := w.pendingLoads } rfl

theorem final_loaded : w.loaded.final me c = (decide (w.pendingLoads = 0) && w.final me c) := by
  have hnotices : w.loaded.final me c =
      ((w.notices ++ List.replicate w.pendingLoads false).map (TypingNotice.userIsTyping c)).foldl
        (TypingNotice.handle c me) (w.relayed me c) := rfl
  rw [hnotices]
  cases w.pendingLoads with
  | zero => simp [final]
  | succ n => simp [List.replicate_succ', TypingNotice.handle]

theorem settling_isTyping (h : Between P me c p w) (hne : me ≠ p) :
    (run (step P me c p) w w.settling).isTyping =
      (w.final me c && !(w.isTypingPromise || decide (0 < w.pendingLoads))) := by
  have hnotices : w.notices.length + w.pendingLoads = w.loaded.notices.length := by simp [loaded]
  have hbetween : Between P me c p w.loaded := ⟨h.reachable, h.me, h.other⟩
  rw [settling, run_append, run_loaded, hnotices]
  refine (run_arrive hbetween hne).trans ?_
  rw [final_loaded]
  cases hloads : w.pendingLoads with
  | zero => simp [loaded, hloads]
  | succ n => simp

theorem settling_off_iff (h : Between P me c p w) (hne : me ≠ p) :
    (run (step P me c p) w w.settling).isTyping = false ↔ Watched me c w := by
  rw [settling_isTyping h hne, Watched]
  cases w.final me c <;> cases w.isTypingPromise <;> simp

end Settling

end TypingWindow

open TypingWindow in
theorem typing_indicator_goes_off_iff (P : Platform) (me c p : ℕ) (db : Db) (hdb : Reachable P db)
    (hme : db.conversationUsers.has (c, me) = true) (hp : db.conversationUsers.has (c, p) = true) (hne : me ≠ p)
    (events : List TypingEvent) :
    (∀ n, let w := run (TypingWindow.step P me c p) { db } (events.take n)
      (run (TypingWindow.step P me c p) w w.settling).isTyping = false) ↔
      Meets (TypingWindow.step P me c p) (TypingEvent.Orderly me c) { db } events := by
  have hstart : Between P me c p { db } := ⟨hdb, hme, hp⟩
  have hbetween : ∀ n, Between P me c p (run (TypingWindow.step P me c p) { db } (events.take n)) := fun n =>
    run_invariant _ (fun _ e h => h.step e) _ hstart _
  have hwatched : Watched me c { db } := fun hfinal => by cases hfinal
  have hall := forall_states_iff_meets_of_invariant (TypingWindow.step P me c p) (I := Watched me c)
    (J := Between P me c p) (fun _ e h => h.step e) (fun w e h hwatched => watched_step_iff h hne hwatched e) { db }
    hstart hwatched events
  exact (forall_congr' (fun n => settling_off_iff (hbetween n) hne)).trans hall

def bobErasesAtOnce : List TypingEvent := [.replyChanged "h", .replyChanged "", .handle, .deliver, .receive]

/-- The connection breaks while the indicator is on and another socket of Bob is
open. -/
def bobErasesLater : List TypingEvent :=
  [.replyChanged "h", .handle, .receive, .replyChanged "", .handle, .receive, .replyChanged "i", .handle, .deliver,
    .closed false, .replyChanged "", .opened, .conversationLoaded]

theorem bob_erases_at_once_or_later :
    ¬ (∀ n, let w := run (TypingWindow.step .plain 2 1 1) { db := annWroteToBob } (bobErasesAtOnce.take n)
      (run (TypingWindow.step .plain 2 1 1) w w.settling).isTyping = false) ∧
    ∀ n, let w := run (TypingWindow.step .plain 2 1 1) { db := annWroteToBob } (bobErasesLater.take n)
      (run (TypingWindow.step .plain 2 1 1) w w.settling).isTyping = false := by
  have hiff := typing_indicator_goes_off_iff .plain 2 1 1 annWroteToBob ⟨{}, _, rfl⟩ (by decide +kernel)
    (by decide +kernel) (by decide)
  exact ⟨(hiff bobErasesAtOnce).not.mpr (by decide +kernel), (hiff bobErasesLater).mpr (by decide +kernel)⟩

end Blnkk
