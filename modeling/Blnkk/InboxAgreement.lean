import Blnkk.ClientInbox
import Blnkk.Lib.Run

/-!
When the browser and the server agree on which conversations are unread, after
every event of every sequence of messages.
-/

namespace Blnkk

open Relational ConversationsSocket

namespace ConversationsSocket

def Event.messageFor? (p : ℕ) : Event → Option MessageUpdate
  | messageNew receiver conversation _ _ count => if receiver = p then some ⟨conversation, count⟩ else none
  | _ => none

def received (p : ℕ) (events : List Event) : List MessageUpdate := events.filterMap (Event.messageFor? p)

/-- A message of the payload is stored, if it is accepted or about a request. -/
def Payload.Stores (P : Platform) (db : Db) (author : ℕ) (payload : Payload) : Prop :=
  (announcementText P (payload.request? db author)).isSome = true ∨
    ∃ part, payload.accepted? P db author = some part ∧ ¬ Blank P part.text

section Server

variable {P : Platform} {db : Db}

theorem notifyByEmail_received (db : Db) (conversation user : ℕ) (draft : Message.Draft) (p : ℕ) :
    received p (notifyByEmail db conversation user draft).2 = [] := by
  rcases notifyByEmail_cases db conversation user draft with h | h | h <;> rw [h] <;> rfl

theorem messageNew_received (p user c : ℕ) (draft : Message.Draft) (fromSelf : Bool) (count : ℕ) :
    received p [.messageNew user c draft fromSelf count] = if user = p then [⟨c, count⟩] else [] := by
  by_cases h : user = p <;> simp [received, Event.messageFor?, h]

theorem messageFor?_messageNew {p user c : ℕ} {draft : Message.Draft} {fromSelf : Bool} {count : ℕ} {u : MessageUpdate}
    (h : (Event.messageNew user c draft fromSelf count).messageFor? p = some u) : u.conversation = c := by
  simp only [Event.messageFor?] at h
  split_ifs at h
  cases h
  rfl

theorem received_append (p : ℕ) (events events' : List Event) :
    received p (events ++ events') = received p events ++ received p events' := List.filterMap_append ..

theorem deliver_received {online : List ℕ} {author p : ℕ} (hp : author = p ∨ p ∈ online) (c : ℕ) (isNew : Bool)
    (systemMessage : Option Message.Draft) (draft : Message.Draft) (users : List ℕ) (db : Db) (events : List Event) :
    ∃ rest, received p (deliver online author c isNew systemMessage draft users (db, events)).2 =
        received p events ++ rest ∧ (∀ u ∈ rest, u.conversation = c) ∧ (rest = [] ↔ isNew = true ∨ p ∉ users) := by
  induction users generalizing db events with
  | nil => exact ⟨[], by simp [deliver], List.forall_mem_nil _, by simp⟩
  | cons user users ih =>
    have hcombine : ∀ (db' : Db) (pushed : List Event), (∀ u ∈ received p pushed, u.conversation = c) →
        (received p pushed = [] ↔ isNew = true ∨ p ≠ user) →
        ∃ rest, received p (deliver online author c isNew systemMessage draft users (db', events ++ pushed)).2 =
            received p events ++ rest ∧ (∀ u ∈ rest, u.conversation = c) ∧
            (rest = [] ↔ isNew = true ∨ p ∉ user :: users) := by
      intro db' pushed hpushed hnone
      obtain ⟨rest, hrest, hall, hempty⟩ := ih db' (events ++ pushed)
      rw [received_append, List.append_assoc] at hrest
      refine ⟨_, hrest, ?_, ?_⟩
      · intro u hu
        rcases List.mem_append.mp hu with hu | hu
        · exact hpushed u hu
        · exact hall u hu
      · rw [List.append_eq_nil_iff, hnone, hempty, List.mem_cons, not_or, ← or_and_left]
    simp only [deliver]
    by_cases honline : author = user ∨ user ∈ online
    · rw [if_pos honline]
      cases isNew with
      | true => exact hcombine _ _ (List.forall_mem_nil _) (iff_of_true rfl (Or.inl rfl))
      | false =>
        rw [if_neg Bool.false_ne_true]
        refine hcombine _ _ ?_ ?_
        · intro u hu
          obtain ⟨e, he, hu⟩ := List.mem_filterMap.mp hu
          rcases List.mem_append.mp he with he | he
          · obtain ⟨s, -, rfl⟩ := Option.map_eq_some_iff.mp (Option.mem_toList.mp he)
            exact messageFor?_messageNew hu
          · rw [List.mem_singleton] at he
            rw [he] at hu
            exact messageFor?_messageNew hu
        · rw [received_append, List.append_eq_nil_iff, messageNew_received]
          by_cases h : p = user
          · cases systemMessage <;> simp [h]
          · cases systemMessage <;> simp [received, Event.messageFor?, h, Ne.symm h]
    · -- the viewer is online, so this is somebody else
      have hne : p ≠ user := by
        rintro rfl
        exact honline hp
      rw [if_neg honline]
      refine hcombine _ _ ?_ ?_
      · rw [notifyByEmail_received]
        exact List.forall_mem_nil _
      · exact iff_of_true (notifyByEmail_received db c user draft p) (Or.inr hne)

theorem Payload.Reaches.unread {now author p c : ℕ} {base : Db} {payload : Payload} {isNew : Bool}
    (h : payload.Reaches db now author base c isNew) : UnreadBecomes p (fun _ => False) db base := by
  cases h with
  | existing c hex => exact .of_eq rfl
  | fresh t created hex hpartner hne hcreated =>
    obtain ⟨-, table, rfl, ht⟩ := createConversation_ok hcreated
    exact .of_append ht

/-- In the conversations of the table, only the one that is found is concerned. -/
theorem Payload.Reaches.existing_iff (hc : Consistent db) {now author p c k : ℕ} {base : Db} {payload : Payload}
    {isNew : Bool} (h : payload.Reaches db now author base c isNew) (hk : db.conversationUsers.has (k, p) = true) :
    k = c ↔ payload.existing? db author = some k := by
  cases h with
  | existing c hex =>
    rw [hex, Option.some.injEq]
    exact eq_comm
  | fresh t created hex =>
    refine iff_of_false ?_ (by rw [hex]; nofun)
    rintro rfl
    rw [fresh_absent hc p] at hk
    cases hk

theorem postMessage_unread (hc : Consistent db) (now : ℕ) (online : List ℕ) {author : ℕ}
    (ha : db.users.has author = true) (payload : Payload) (p : ℕ) :
    UnreadBecomes p (fun k => payload.existing? db author = some k ∧ p ≠ author ∧ payload.Stores P db author) db
      (postMessage P db now online author payload).1 := by
  have hnone : payload.existing? db author = none → ∀ k, db.conversationUsers.has (k, p) = true →
      (False ↔ payload.existing? db author = some k ∧ p ≠ author ∧ payload.Stores P db author) := by
    intro hex k _
    rw [hex]
    exact iff_of_false not_false nofun
  have houtcome := postMessage_outcome P hc now online ha payload
  generalize postMessage P db now online author payload = result at houtcome ⊢
  cases houtcome with
  | refused answer hex => exact (UnreadBecomes.of_eq rfl).congr (hnone hex)
  | half left hex hpartner hleft =>
    obtain ⟨table, rfl, ⟨ht, -⟩ | ⟨ht, -⟩⟩ := createConversation_error hleft
    · exact (UnreadBecomes.of_append (l := []) (by rw [ht, List.append_nil])).congr (hnone hex)
    · exact (UnreadBecomes.of_append ht).congr (hnone hex)
  | stopped base c isNew answer hreach haccepted =>
    refine (hreach.unread.trans (announce_unread P base now author c p (payload.request? db author))).congr ?_
    intro k hk
    rw [false_or, hreach.existing_iff hc hk]
    refine and_congr_right (fun _ => and_congr_right (fun _ => ?_))
    rw [Payload.Stores, haccepted]
    simp
  | delivered base c isNew part created hreach haccepted hcreated =>
    have hcreate := save_message_unread P (announce P base now author c (payload.request? db author)).1 now author c p
      false part.text
    rw [hcreated] at hcreate
    have hall := ((hreach.unread.trans (announce_unread P base now author c p (payload.request? db author))).trans
      hcreate).trans (deliver_unread author c p online isNew (announce P base now author c (payload.request? db author)).2
        created.1 (created.2.participants c) created.2 [])
    refine hall.congr ?_
    intro k hk
    rw [false_or, or_false, hreach.existing_iff hc hk, ← and_or_left, ← and_or_left, Payload.Stores, haccepted]
    simp

theorem postMessage_received (hc : Consistent db) (now : ℕ) {online : List ℕ} {author p : ℕ}
    (ha : db.users.has author = true) (hp : author = p ∨ p ∈ online) (payload : Payload) :
    (∀ u ∈ received p (postMessage P db now online author payload).2,
        payload.existing? db author = some u.conversation) ∧
      (received p (postMessage P db now online author payload).2 = [] ↔
        ¬ ((payload.accepted? P db author).isSome = true ∧
          ∃ c, payload.existing? db author = some c ∧ db.conversationUsers.has (c, p) = true)) := by
  have hsilent : ∀ answer : Event, answer = .logged ∨ (∃ status, answer = .failure status) → received p [answer] = [] := by
    rintro answer (rfl | ⟨status, rfl⟩) <;> rfl
  have houtcome := postMessage_outcome P hc now online ha payload
  generalize postMessage P db now online author payload = result at houtcome ⊢
  cases houtcome with
  | refused answer hex hpartner hanswer =>
    rw [hsilent answer hanswer, hex]
    exact ⟨nofun, iff_of_true rfl (fun h => by obtain ⟨-, c, hc, -⟩ := h; cases hc)⟩
  | half left hex => exact ⟨nofun, iff_of_true rfl (fun h => by obtain ⟨-, c, hc, -⟩ := h; rw [hex] at hc; cases hc)⟩
  | stopped base c isNew answer hreach haccepted hanswer =>
    rw [hsilent answer hanswer, haccepted]
    exact ⟨nofun, iff_of_true rfl (fun h => by cases h.1)⟩
  | delivered base c isNew part created hreach haccepted hcreated =>
    obtain ⟨rest, hrest, hall, hempty⟩ := deliver_received hp c isNew
      (announce P base now author c (payload.request? db author)).2 created.1 (created.2.participants c) created.2 []
    have hreceived : received p ((deliver online author c isNew
        (announce P base now author c (payload.request? db author)).2 created.1 (created.2.participants c)
        (created.2, [])).2 ++ [.success .created c]) = rest := by
      rw [received_append, hrest]
      exact List.append_nil rest
    rw [hreceived, haccepted, hempty, mem_participants, ← hcreated, save_message_has, announce_has]
    cases hreach with
    | existing c hex =>
      rw [hex]
      refine ⟨fun u hu => by rw [hall u hu], ?_⟩
      simp
    | fresh t created' hex =>
      rw [hex]
      refine ⟨fun u hu => ?_, ?_⟩
      · rw [hempty.mpr (Or.inl rfl)] at hu
        cases hu
      · simp

end Server

end ConversationsSocket

structure Post where
  now : ℕ
  -- the clock of the browser
  clock : ℕ
  author : ℕ
  online : List ℕ
  payload : Payload
  deriving DecidableEq

structure Inbox where
  db : Db
  client : Client

/-- The viewer, whose browser is connected, is online. -/
def Post.result (P : Platform) (me : ℕ) (post : Post) (db : Db) : Db × List Event :=
  postMessage P db post.now (me :: post.online) post.author post.payload

namespace Inbox

variable (P : Platform) (me : ℕ) (s : Inbox) (post : Post)

/-- The browser after the first `m` of the events that the post pushes to it. -/
def after (m : ℕ) : Client :=
  ((received me (post.result P me s.db).2).take m).foldl (Client.newMessageHandler post.clock) s.client

def step : Inbox :=
  ⟨(post.result P me s.db).1, (received me (post.result P me s.db).2).foldl (Client.newMessageHandler post.clock) s.client⟩

/-- The post shows the viewer as unread what the server keeps as read, or sets
the flag at the server without an event. -/
def Misleads : Prop :=
  s.db.users.has post.author = true ∧ ∃ c, post.payload.existing? s.db post.author = some c ∧ (c, false) ∈ s.client.flags ∧
    match post.payload.accepted? P s.db post.author with
    | some part =>
      me = post.author ∨
        announcementText P (post.payload.request? s.db post.author) = none ∧ Blank P part.text
    | none => me ≠ post.author ∧ (announcementText P (post.payload.request? s.db post.author)).isSome = true

end Inbox

structure InStep (me : ℕ) (loaded : List ClientConversation) (db : Db) (client : Client) : Prop where
  unread : ∀ flag ∈ client.flags,
    (db.conversationUsers.get? (flag.1, me)).map ConversationUser.unread = some flag.2
  perm : (client.conversations.map ClientConversation.id).Perm (loaded.map ClientConversation.id)

theorem flags_agree_iff {me : ℕ} {db db' : Db} {F : ℕ → Prop} (hbecomes : UnreadBecomes me F db db')
    {flags flags' : List (ℕ × Bool)}
    (hflags : ∀ flag ∈ flags, (db.conversationUsers.get? (flag.1, me)).map ConversationUser.unread = some flag.2)
    {g : ℕ → Bool} (hperm : flags'.Perm (flags.map (fun flag => (flag.1, flag.2 || g flag.1)))) :
    (∀ flag ∈ flags', (db'.conversationUsers.get? (flag.1, me)).map ConversationUser.unread = some flag.2) ↔
      ∀ c, (c, false) ∈ flags → (F c ↔ g c = true) := by
  have hserver : ∀ flag ∈ flags, ∃ unread,
      (db'.conversationUsers.get? (flag.1, me)).map ConversationUser.unread = some unread ∧
        (unread = true ↔ flag.2 = true ∨ F flag.1) := by
    intro flag hflag
    obtain ⟨cu, hcu, hunread⟩ := Option.map_eq_some_iff.mp (hflags flag hflag)
    obtain ⟨cu', hcu', hiff⟩ := hbecomes flag.1 cu hcu
    exact ⟨cu'.unread, by rw [hcu', Option.map_some], by rw [hiff, hunread]⟩
  constructor
  · intro h c hmem
    obtain ⟨unread, hunread, hiff⟩ := hserver _ hmem
    have hclient := h (c, g c) (hperm.mem_iff.mpr (List.mem_map.mpr ⟨_, hmem, by rw [Bool.false_or]⟩))
    have hsame : unread = g c := Option.some.inj (hunread.symm.trans hclient)
    rw [← hsame, hiff]
    exact (or_iff_right Bool.false_ne_true).symm
  · intro h flag' hmem'
    obtain ⟨flag, hmem, rfl⟩ := List.mem_map.mp (hperm.mem_iff.mp hmem')
    obtain ⟨unread, hunread, hiff⟩ := hserver flag hmem
    rw [hunread, Option.some.injEq, Bool.eq_iff_iff, hiff, Bool.or_eq_true]
    by_cases hread : flag.2 = true
    · simp only [hread, true_or]
    · have hmem : (flag.1, false) ∈ flags := by
        rw [Bool.not_eq_true] at hread
        rw [← hread]
        exact hmem
      rw [h flag.1 hmem]

namespace Inbox

variable {P : Platform} {me : ℕ} {loaded : List ClientConversation} {s : Inbox} {post : Post}

/-- The events of a post raise the flag of the conversation that it goes to. -/
theorem after_flags (hc : Consistent s.db) (ha : s.db.users.has post.author = true)
    (hs : s.client.selectedConversation = none) (hin : InStep me loaded s.db s.client)
    (hn : (loaded.map ClientConversation.id).Nodup) {m : ℕ} (hm : 0 < m) :
    (s.after P me post m).flags.Perm (s.client.flags.map (fun flag =>
      (flag.1, flag.2 || decide (post.payload.existing? s.db post.author = some flag.1 ∧
        (post.payload.accepted? P s.db post.author).isSome = true)))) := by
  have honline : post.author = me ∨ me ∈ me :: post.online := Or.inr List.mem_cons_self
  obtain ⟨hall, hnil⟩ := postMessage_received (P := P) hc post.now ha honline post.payload
  rw [after, Post.result]
  generalize received me (postMessage P s.db post.now (me :: post.online) post.author post.payload).2 = updates
    at hall hnil ⊢
  cases updates with
  -- without an event, no conversation of the list is the one that the post goes to
  | nil =>
    have hnone := hnil.mp rfl
    rw [List.take_nil, List.foldl_nil]
    refine List.Perm.of_eq (List.map_id _).symm |>.trans (List.Perm.of_eq (List.map_congr_left (fun flag hflag => ?_)))
    have hhas : s.db.conversationUsers.has (flag.1, me) = true := by
      obtain ⟨cu, hcu, -⟩ := Option.map_eq_some_iff.mp (hin.unread flag hflag)
      exact Table.has_of_get? hcu
    rw [decide_eq_false (fun h => hnone ⟨h.2, flag.1, h.1, hhas⟩), Bool.or_false]
    rfl
  | cons update updates =>
    obtain ⟨haccepted, c, hex, -⟩ := not_not.mp (mt hnil.mpr (List.cons_ne_nil _ _))
    have hids : (s.client.flags.map Prod.fst).Nodup := by
      have hmap : s.client.flags.map Prod.fst = s.client.conversations.map ClientConversation.id := by
        rw [Client.flags, List.map_map]
        rfl
      rw [hmap, hin.perm.nodup_iff]
      exact hn
    have htake : ((update :: updates).take m) ≠ [] := by
      rw [← Nat.succ_pred_eq_of_pos hm, List.take_succ_cons]
      exact List.cons_ne_nil _ _
    have hc : ∀ u ∈ (update :: updates).take m, u.conversation = c := by
      intro u hu
      have := hall u (List.mem_of_mem_take hu)
      rw [hex, Option.some.injEq] at this
      exact this.symm
    refine (Client.foldl_flags hc htake hs hids).trans (List.Perm.of_eq (List.map_congr_left (fun flag _ => ?_)))
    simp [raiseFlag, hex, haccepted, eq_comm]

theorem misleads_iff (ha : s.db.users.has post.author = true) :
    s.Misleads P me post ↔ ∃ c, (c, false) ∈ s.client.flags ∧
      ¬ ((post.payload.existing? s.db post.author = some c ∧ me ≠ post.author ∧ post.payload.Stores P s.db post.author) ↔
        decide (post.payload.existing? s.db post.author = some c ∧
          (post.payload.accepted? P s.db post.author).isSome = true) = true) := by
  rw [Misleads, and_iff_right ha]
  refine exists_congr (fun c => ?_)
  by_cases hex : post.payload.existing? s.db post.author = some c
  · simp only [hex, true_and, decide_eq_true_eq]
    refine and_congr_right (fun _ => ?_)
    rw [Payload.Stores]
    cases haccepted : post.payload.accepted? P s.db post.author with
    | none => cases announcementText P (post.payload.request? s.db post.author) <;> simp
    | some part =>
      cases announcementText P (post.payload.request? s.db post.author) with
      | none =>
        simp
        tauto
      | some text => simp
  · simp [hex]

theorem agrees_iff (hc : Consistent s.db) (hs : s.client.selectedConversation = none)
    (hin : InStep me loaded s.db s.client) (hn : (loaded.map ClientConversation.id).Nodup) :
    (∀ m, 0 < m → InStep me loaded (post.result P me s.db).1 (s.after P me post m)) ↔ ¬ s.Misleads P me post := by
  cases ha : s.db.users.has post.author with
  | false =>
    have hresult : post.result P me s.db = (s.db, [.failure .unauthorized]) :=
      postMessage_unknown P post.now (me :: post.online) ha post.payload
    refine iff_of_true (fun m _ => ?_) (fun h => by rw [h.1] at ha; cases ha)
    have hnothing : received me [.failure .unauthorized] = [] := rfl
    rw [after, hresult, hnothing, List.take_nil]
    exact hin
  | true =>
    have hbecomes := postMessage_unread (P := P) hc post.now (me :: post.online) ha post.payload me
    have hperm := fun m (hm : 0 < m) => after_flags (P := P) hc ha hs hin hn hm
    rw [misleads_iff ha, not_exists]
    simp only [not_and, not_not]
    constructor
    · intro h
      exact (flags_agree_iff hbecomes hin.unread (hperm 1 Nat.one_pos)).mp (h 1 Nat.one_pos).unread
    · intro h m hm
      refine ⟨(flags_agree_iff hbecomes hin.unread (hperm m hm)).mpr h, ?_⟩
      have hids := (hperm m hm).map Prod.fst
      simp only [Client.flags, List.map_map] at hids
      exact hids.trans hin.perm

theorem inStep_index (db : Db) {me : ℕ} {client : Client}
    (hload : client.conversations = ConversationsController.index db me) :
    InStep me (ConversationsController.index db me) db client := by
  refine ⟨?_, by rw [hload]⟩
  intro flag hflag
  rw [Client.flags, hload] at hflag
  obtain ⟨entry, hentry, rfl⟩ := List.mem_map.mp hflag
  obtain ⟨c, -, hc⟩ := List.mem_filterMap.mp ((List.mem_insertionSort _).mp hentry)
  obtain ⟨cu, hcu, rfl⟩ := Option.map_eq_some_iff.mp hc
  rw [hcu, Option.map_some]

theorem index_nodup (db : Db) (me : ℕ) :
    ((ConversationsController.index db me).map ClientConversation.id).Nodup := by
  have hperm := (List.perm_insertionSort (fun a b : ClientConversation => b.updatedAt ≤ a.updatedAt)
    (db.conversations.rows.filterMap (fun c =>
      (db.conversationUsers.get? (c.id, me)).map (fun cu => ⟨c.id, c.updatedAt, cu.unread⟩)))).map ClientConversation.id
  rw [ConversationsController.index, hperm.nodup_iff]
  have hids : (db.conversations.rows.filterMap (fun c =>
      (db.conversationUsers.get? (c.id, me)).map (fun cu => ClientConversation.mk c.id c.updatedAt cu.unread))).map
        ClientConversation.id =
      (db.conversations.rows.map Conversation.id).filterMap (fun id =>
        (db.conversationUsers.get? (id, me)).map (fun _ => id)) := by
    rw [List.map_filterMap, List.filterMap_map]
    simp only [Option.map_map, Function.comp_def]
  rw [hids]
  refine List.Nodup.filterMap (fun i j k hi hj => ?_) db.conversations.unique
  obtain ⟨-, -, rfl⟩ := Option.map_eq_some_iff.mp hi
  obtain ⟨-, -, rfl⟩ := Option.map_eq_some_iff.mp hj
  rfl

end Inbox

theorem client_agrees_iff (P : Platform) (db : Db) (hdb : Reachable P db) (me : ℕ) (client : Client)
    (hload : client.conversations = ConversationsController.index db me) (hselected : client.selectedConversation = none)
    (posts : List Post) :
    Transition.Meets (Inbox.step P me) (fun s post => ∀ m, 0 < m →
        InStep me (ConversationsController.index db me) (post.result P me s.db).1 (s.after P me post m)) ⟨db, client⟩ posts ↔
      Transition.Meets (Inbox.step P me) (fun s post => ¬ s.Misleads P me post) ⟨db, client⟩ posts := by
  refine Transition.meets_congr_of_invariant (Inbox.step P me) (I := fun s : Inbox => Reachable P s.db ∧
    s.client.selectedConversation = none ∧ InStep me (ConversationsController.index db me) s.db s.client)
    ?_ ?_ ⟨db, client⟩ ⟨hdb, hselected, Inbox.inStep_index db hload⟩ posts
  · rintro s post ⟨hdb, hselected, hin⟩
    exact Inbox.agrees_iff hdb.consistent hselected hin (Inbox.index_nodup db me)
  · rintro s post ⟨hdb, hselected, hin⟩ hagrees
    refine ⟨hdb.step (.postMessage post.now (me :: post.online) post.author post.payload),
      (Client.foldl_selected _ _).trans hselected, ?_⟩
    -- all the events of the post are handled before the next one
    have hall := hagrees ((received me (post.result P me s.db).2).length + 1) (Nat.succ_pos _)
    rw [Inbox.after, List.take_of_length_le (Nat.le_succ _)] at hall
    exact hall

def annSaidHello : Db :=
  Transition.run (step .plain) (Db.new {})
    [.signUp "ann@blnkk.com" "ann", .signUp "bob@blnkk.com" "bob",
      .postMessage 10 [] 1 { message := some { content := some "hello" }, userId := some 2 }]

def annOpensTheList : Inbox := ⟨annSaidHello, { conversations := ConversationsController.index annSaidHello 1 }⟩

def bobWrites (now : ℕ) (content : String) : Post :=
  { now, clock := now, author := 2, online := [2], payload := { message := some { content := some content }, userId := some 1 } }

theorem bobWrites_not_misleads (s : Inbox) (now : ℕ) {content : String} (hp : Text.present content = true) :
    ¬ s.Misleads .plain 1 (bobWrites now content) := by
  rintro ⟨-, c, -, -, h⟩
  cases haccepted : (bobWrites now content).payload.accepted? .plain s.db (bobWrites now content).author with
  | none =>
    rw [haccepted] at h
    cases h.2
  | some part =>
    rw [haccepted] at h
    obtain ⟨hpart, -⟩ := Payload.accepted?_some haccepted
    cases hpart
    rcases h with h | h
    · cases h
    · have hblank := h.2 content (by simp [MessagePart.text, Content.cast, Platform.sanitizeField, Platform.plain])
      rw [hp] at hblank
      cases hblank

theorem bob_writes_twice :
    Reachable .plain annSaidHello ∧
      Transition.Meets (Inbox.step .plain 1) (fun s post => ∀ m, 0 < m →
        InStep 1 (ConversationsController.index annSaidHello 1) (post.result .plain 1 s.db).1 (s.after .plain 1 post m))
        annOpensTheList [bobWrites 20 "hi", bobWrites 30 "how are you?"] := by
  have hdb : Reachable .plain annSaidHello := ⟨{}, _, rfl⟩
  refine ⟨hdb, (client_agrees_iff .plain annSaidHello hdb 1 annOpensTheList.client rfl rfl _).mpr ⟨?_, ?_, trivial⟩⟩
  · exact bobWrites_not_misleads _ 20 (by decide)
  · exact bobWrites_not_misleads _ 30 (by decide)

/-- A message that Ann writes on another device is pushed to all of them. -/
theorem own_message_shown_unread :
    Reachable .plain annSaidHello ∧
      ¬ Transition.Meets (Inbox.step .plain 1) (fun s post => ∀ m, 0 < m →
        InStep 1 (ConversationsController.index annSaidHello 1) (post.result .plain 1 s.db).1 (s.after .plain 1 post m))
        annOpensTheList [{ bobWrites 20 "are you there?" with
          author := 1, payload := { message := some { content := some "are you there?" }, userId := some 2 } }] := by
  refine ⟨⟨{}, _, rfl⟩, fun h => ?_⟩
  have hunread := (h.1 1 Nat.one_pos).unread (1, true) (by decide +kernel)
  revert hunread
  decide +kernel

end Blnkk
