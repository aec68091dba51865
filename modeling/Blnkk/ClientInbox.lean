import Blnkk.PostOutcome
import Mathlib.Data.List.Sort
import Mathlib.Data.List.TakeWhile

/-!
The list of conversations in the browser, which `newMessageHandler` keeps up to
date, against the flags at the server.
-/

namespace Blnkk

open Relational ConversationsSocket

structure ClientConversation where
  id : ℕ
  updatedAt : ℕ
  unread : Bool
  deriving DecidableEq

/-- What the events `message_new` bring along, as far as the list needs it. -/
structure MessageUpdate where
  conversation : ℕ
  unreadConversationsCount : ℕ
  deriving DecidableEq

structure Client where
  conversations : List ClientConversation
  selectedConversation : Option ℕ := none
  -- the page `home.conversation` is shown
  viewing : Bool := false
  hidden : Bool := false
  unreadConversationsCount : ℕ := 0
  deriving DecidableEq

namespace Client

/-- The loop over the list stops at the first conversation with the id. -/
def touch (clock : ℕ) (selected : Option ℕ) (conversation : ℕ) (list : List ClientConversation) :
    List ClientConversation :=
  let before := list.takeWhile (fun c => c.id != conversation)
  match list.dropWhile (fun c => c.id != conversation) with
  | [] => list
  | c :: after =>
    if selected = some conversation then before ++ { c with updatedAt := clock } :: after
    else { c with updatedAt := clock, unread := true } :: (before ++ after)

def newMessageHandler (clock : ℕ) (client : Client) (update : MessageUpdate) : Client :=
  let watching := client.viewing && decide (client.selectedConversation = some update.conversation)
  { client with
    unreadConversationsCount :=
      -- a visible conversation is reported as read instead
      if watching && !client.hidden then client.unreadConversationsCount else update.unreadConversationsCount
    conversations := touch clock client.selectedConversation update.conversation client.conversations }

def flags (client : Client) : List (ℕ × Bool) := client.conversations.map (fun c => (c.id, c.unread))

end Client

def ConversationsController.index (db : Db) (me : ℕ) : List ClientConversation :=
  (db.conversations.rows.filterMap (fun c =>
    (db.conversationUsers.get? (c.id, me)).map (fun cu => ⟨c.id, c.updatedAt, cu.unread⟩))).insertionSort
      (fun a b => b.updatedAt ≤ a.updatedAt)

/-- The flags of all conversations, of which one has become unread. -/
def raiseFlag (conversation : ℕ) (flag : ℕ × Bool) : ℕ × Bool := (flag.1, flag.2 || decide (flag.1 = conversation))

theorem raiseFlag_twice (conversation : ℕ) (flag : ℕ × Bool) :
    raiseFlag conversation (raiseFlag conversation flag) = raiseFlag conversation flag := by
  by_cases h : flag.1 = conversation <;> simp [raiseFlag, h]

theorem raiseFlag_of_ne {conversation : ℕ} {flag : ℕ × Bool} (h : flag.1 ≠ conversation) :
    raiseFlag conversation flag = flag := by
  simp [raiseFlag, h]

namespace Client

variable {client : Client} {clock : ℕ}

theorem handler_selected (update : MessageUpdate) :
    (client.newMessageHandler clock update).selectedConversation = client.selectedConversation := rfl

theorem touch_flags {list : List ClientConversation} (hn : (list.map ClientConversation.id).Nodup) (conversation : ℕ) :
    ((touch clock none conversation list).map (fun c => (c.id, c.unread))).Perm
      ((list.map (fun c => (c.id, c.unread))).map (raiseFlag conversation)) := by
  have hsplit := List.takeWhile_append_dropWhile (p := fun c : ClientConversation => c.id != conversation) (l := list)
  have hbefore : ∀ c ∈ list.takeWhile (fun c => c.id != conversation), c.id ≠ conversation := by
    intro c hc
    simpa using List.mem_takeWhile_imp hc
  have hkept : ∀ l : List ClientConversation, (∀ c ∈ l, c.id ≠ conversation) →
      (l.map (fun c => (c.id, c.unread))).map (raiseFlag conversation) = l.map (fun c => (c.id, c.unread)) := by
    intro l hl
    rw [List.map_map]
    exact List.map_congr_left (fun c hc => raiseFlag_of_ne (hl c hc))
  cases hrest : list.dropWhile (fun c => c.id != conversation) with
  | nil =>
    rw [hrest, List.append_nil] at hsplit
    rw [hkept list (by rw [← hsplit]; exact hbefore)]
    simp only [touch, hrest]
    exact List.Perm.refl _
  | cons c after =>
    have hid : c.id = conversation := by
      have hhead := List.head?_dropWhile_not (fun c : ClientConversation => c.id != conversation) list
      rw [hrest] at hhead
      simpa using hhead
    rw [hrest] at hsplit
    have hafter : ∀ d ∈ after, d.id ≠ conversation := by
      intro d hd hdid
      rw [← hsplit, List.map_append, List.map_cons, List.nodup_append] at hn
      have hc := (List.nodup_cons.mp hn.2.1).1
      rw [hid, ← hdid] at hc
      exact hc (List.mem_map_of_mem hd)
    have hraised : raiseFlag conversation (c.id, c.unread) = (c.id, true) := by simp [raiseFlag, hid]
    have hlist : (list.map (fun c => (c.id, c.unread))).map (raiseFlag conversation) =
        (list.takeWhile (fun c => c.id != conversation)).map (fun c => (c.id, c.unread)) ++
          (c.id, true) :: after.map (fun c => (c.id, c.unread)) := by
      conv_lhs => rw [← hsplit]
      rw [List.map_append, List.map_append, List.map_cons, List.map_cons, hkept _ hbefore, hkept _ hafter, hraised]
    rw [hlist]
    simp only [touch, hrest, reduceCtorEq, if_false, List.map_cons, List.map_append]
    exact List.perm_middle.symm

theorem handler_flags (update : MessageUpdate) (hs : client.selectedConversation = none)
    (hn : (client.flags.map Prod.fst).Nodup) :
    (client.newMessageHandler clock update).flags.Perm (client.flags.map (raiseFlag update.conversation)) := by
  have hids : (client.conversations.map ClientConversation.id).Nodup := by
    rw [flags, List.map_map] at hn
    exact hn
  simp only [flags, newMessageHandler, hs]
  exact touch_flags hids update.conversation

theorem raiseFlag_ids (conversation : ℕ) (flags : List (ℕ × Bool)) :
    (flags.map (raiseFlag conversation)).map Prod.fst = flags.map Prod.fst := by
  rw [List.map_map]
  rfl

theorem foldl_selected (updates : List MessageUpdate) (client : Client) :
    (updates.foldl (newMessageHandler clock) client).selectedConversation = client.selectedConversation := by
  induction updates generalizing client with
  | nil => rfl
  | cons update updates ih => exact (ih _).trans (handler_selected update)

/-- One event or several about one conversation have the same effect. -/
theorem foldl_flags {updates : List MessageUpdate} {conversation : ℕ}
    (hall : ∀ u ∈ updates, u.conversation = conversation) (hne : updates ≠ []) (hs : client.selectedConversation = none)
    (hn : (client.flags.map Prod.fst).Nodup) :
    (updates.foldl (newMessageHandler clock) client).flags.Perm (client.flags.map (raiseFlag conversation)) := by
  induction updates generalizing client with
  | nil => exact absurd rfl hne
  | cons update updates ih =>
    have hfirst : (client.newMessageHandler clock update).flags.Perm _ := handler_flags update hs hn
    rw [hall update List.mem_cons_self] at hfirst
    by_cases hrest : updates = []
    · rw [hrest]
      exact hfirst
    · have hids := hfirst.map Prod.fst
      rw [raiseFlag_ids] at hids
      have hfold := ih (fun u hu => hall u (List.mem_cons_of_mem _ hu)) hrest
        ((handler_selected update).trans hs) (hids.nodup_iff.mpr hn)
      refine hfold.trans ((hfirst.map _).trans (List.Perm.of_eq ?_))
      rw [List.map_map]
      exact List.map_congr_left (fun flag _ => raiseFlag_twice conversation flag)

end Client

/-- The unread flags of `p` in the conversations `F` are set, and no others change. -/
def UnreadBecomes (p : ℕ) (F : ℕ → Prop) (db db' : Db) : Prop :=
  ∀ c cu, db.conversationUsers.get? (c, p) = some cu →
    ∃ cu', db'.conversationUsers.get? (c, p) = some cu' ∧ (cu'.unread = true ↔ cu.unread = true ∨ F c)

namespace UnreadBecomes

variable {p : ℕ} {F G : ℕ → Prop} {db db' db'' : Db}

theorem of_eq (h : db'.conversationUsers = db.conversationUsers) : UnreadBecomes p (fun _ => False) db db' := by
  intro c cu hcu
  exact ⟨cu, by rw [h, hcu], (or_iff_left not_false).symm⟩

theorem of_append {l : List ConversationUser} (h : db'.conversationUsers.rows = db.conversationUsers.rows ++ l) :
    UnreadBecomes p (fun _ => False) db db' := by
  intro c cu hcu
  refine ⟨cu, ?_, (or_iff_left not_false).symm⟩
  have hmem : cu ∈ db'.conversationUsers.rows := by
    rw [h]
    exact List.mem_append_left _ (Table.get?_mem hcu)
  rw [← Table.get?_key hcu]
  exact Table.get?_of_mem hmem

theorem trans (h : UnreadBecomes p F db db') (h' : UnreadBecomes p G db' db'') :
    UnreadBecomes p (fun c => F c ∨ G c) db db'' := by
  intro c cu hcu
  obtain ⟨cu', hcu', hF⟩ := h c cu hcu
  obtain ⟨cu'', hcu'', hG⟩ := h' c cu' hcu'
  exact ⟨cu'', hcu'', by rw [hG, hF, or_assoc]⟩

theorem congr (h : UnreadBecomes p F db db') (hFG : ∀ c, db.conversationUsers.has (c, p) = true → (F c ↔ G c)) :
    UnreadBecomes p G db db' := by
  intro c cu hcu
  obtain ⟨cu', hcu', hF⟩ := h c cu hcu
  exact ⟨cu', hcu', by rw [hF, hFG c (Table.has_of_get? hcu)]⟩

theorem updateWhere {q : ConversationUser → Bool} {f : ConversationUser → ConversationUser}
    {hf : ∀ cu, (f cu).index = cu.index} (h : db'.conversationUsers = db.conversationUsers.updateWhere q f hf)
    (hF : ∀ c cu, db.conversationUsers.get? (c, p) = some cu →
      ((if q cu then f cu else cu).unread = true ↔ cu.unread = true ∨ F c)) : UnreadBecomes p F db db' := by
  intro c cu hcu
  refine ⟨if q cu then f cu else cu, ?_, hF c cu hcu⟩
  rw [h, Table.get?_updateWhere, hcu, Option.map_some]

end UnreadBecomes

section Server

variable (P : Platform) (db : Db) (now author c p : ℕ)

theorem save_message_unread (systemGenerated : Bool) (content : Option String) :
    UnreadBecomes p (fun k => k = c ∧ p ≠ author ∧ ¬ Blank P content) db
      (Message.save P db now c (some author) systemGenerated content).2 := by
  have hrows := save_message_rows P db now c (some author) systemGenerated content
  by_cases hb : Blank P content
  · rw [(save_message_blank P db now author c hb).1]
    exact (UnreadBecomes.of_eq rfl).congr (fun k _ => iff_of_false not_false (fun h => h.2.2 hb))
  · have hid : (Message.save P db now c (some author) systemGenerated content).1.id.isSome = true := by
      by_contra hid
      exact hb (save_message_id (Bool.not_eq_true _ ▸ hid))
    rw [if_pos hid] at hrows
    refine UnreadBecomes.updateWhere hrows ?_
    intro k cu hcu
    have hkey := Table.get?_key hcu
    obtain ⟨rfl, rfl⟩ := Prod.mk.inj hkey
    by_cases hk : cu.conversationId = c ∧ cu.userId ≠ author
    · simp [hk.1, hk.2, hb, Message.flagUnread]
    · have hq : (decide (cu.conversationId = c) && decide (some cu.userId ≠ some author)) = false := by
        simpa using hk
      rw [hq, if_neg Bool.false_ne_true]
      exact (or_iff_left (fun h => hk ⟨h.1, h.2.1⟩)).symm

theorem announce_unread (request : Option Request) :
    UnreadBecomes p (fun k => k = c ∧ p ≠ author ∧ (announcementText P request).isSome = true) db
      (announce P db now author c request).1 := by
  cases hraises : announcementRaises P author request with
  | true =>
    rw [announce_raises P db now author c hraises, announcementText_raises P author hraises]
    exact (UnreadBecomes.of_eq rfl).congr (fun k _ => iff_of_false not_false (fun h => by cases h.2.2))
  | false =>
    cases request with
    | none => exact (UnreadBecomes.of_eq rfl).congr (fun k _ => iff_of_false not_false (fun h => by cases h.2.2))
    | some request =>
      have hcreate := save_message_unread P db now author c p true (some (systemContent request))
      rw [announce_some P db now author c hraises]
      refine (hcreate.trans (UnreadBecomes.of_eq (joinRequest_rows _ request author))).congr ?_
      intro k _
      rw [or_false]
      refine and_congr_right (fun _ => and_congr_right (fun _ => ?_))
      cases htext : announcementText P (some request) with
      | none => exact iff_of_false (not_not_intro (announcementText_none P author hraises htext)) nofun
      | some text =>
        obtain ⟨r, hr, htext', hp⟩ := announcementText_some P htext
        cases hr
        refine iff_of_true (fun hb => ?_) rfl
        rw [storable, hb text (by rw [htext', Option.map_some])] at hp
        cases hp

theorem notifyByEmail_unread (db : Db) (user : ℕ) (draft : Message.Draft) :
    UnreadBecomes p (fun _ => False) db (notifyByEmail db c user draft).1 := by
  refine UnreadBecomes.updateWhere (notifyByEmail_rows db c user draft) ?_
  intro k cu _
  rw [or_false]
  split_ifs <;> rfl

theorem deliver_unread (online : List ℕ) (isNew : Bool) (systemMessage : Option Message.Draft) (draft : Message.Draft)
    (users : List ℕ) (db : Db) (events : List Event) :
    UnreadBecomes p (fun _ => False) db
      (deliver online author c isNew systemMessage draft users (db, events)).1 :=
  deliver_relation (R := UnreadBecomes p (fun _ => False)) (fun _ => .of_eq rfl)
    (fun h h' => (h.trans h').congr (fun _ _ => or_self_iff)) (fun db user => notifyByEmail_unread c p db user draft) online
    author isNew systemMessage users db events

end Server

end Blnkk
