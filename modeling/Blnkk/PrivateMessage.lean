import Blnkk.MessageTarget

/-!
Who can read a message after `post_message` has stored it.
-/

namespace Blnkk

open Relational

open ConversationsSocket

/-- What is new in `db'` lies in conversations of `s` and `t` alone, and after
any further operations nobody else is shown it. -/
def ReachesOnly (P : Platform) (db db' : Db) (s t : ℕ) : Prop :=
  ∀ m ∈ db'.messages.rows, m ∉ db.messages.rows →
    (∀ u, u ∈ db'.participants m.conversationId ↔ u = s ∨ u = t) ∧
    ∀ ops now u id, u ≠ s → u ≠ t →
      m ∉ (ConversationsController.show (Transition.run (step P) db' ops) now u id).2.1

theorem reachesOnly_of_kept {P : Platform} {db db' : Db} {s t : ℕ} (h : db'.messages = db.messages) :
    ReachesOnly P db db' s t := by
  intro m hm hn
  rw [h] at hm
  exact absurd hm hn

theorem show_mem {db : Db} {now me id : ℕ} {m : Message}
    (h : m ∈ (ConversationsController.show db now me id).2.1) :
    m.conversationId = id ∧ me ∈ db.participants id := by
  unfold ConversationsController.show at h
  split_ifs at h with hu hc
  · obtain ⟨-, hp⟩ := Bool.and_eq_true_iff.mp hc
    have hf := List.mem_of_mem_drop h
    exact ⟨of_decide_eq_true (List.mem_filter.mp hf).2, (mem_participants db id me).mpr hp⟩
  · cases h
  · cases h

theorem reachesOnly_of_participants {P : Platform} {db db' : Db} {s t c : ℕ}
    (hc : db'.conversations.has c = true) (hp : ∀ u, u ∈ db'.participants c ↔ u = s ∨ u = t)
    (hm : ∀ m ∈ db'.messages.rows, m ∈ db.messages.rows ∨ m.conversationId = c) : ReachesOnly P db db' s t := by
  intro m hmem hnew
  have he : m.conversationId = c := (hm m hmem).resolve_left hnew
  refine ⟨fun u => by rw [he]; exact hp u, fun ops now u id hs ht hshow => ?_⟩
  obtain ⟨hid, hu⟩ := show_mem hshow
  have hk := (run_changes P db' ops).participants hc
  rw [← hid, he, hk] at hu
  rcases (hp u).mp hu with h | h
  · exact hs h
  · exact ht h

theorem postMessage_other {P : Platform} {db : Db} (hi : Consistent db) (hp : Paired db) {now : ℕ} {online : List ℕ}
    {s t : ℕ} {payload : Payload} (hne : s ≠ t) (hs : db.users.has s = true)
    (hc : payload.message.bind MessagePart.conversationId = none) (ht : payload.target db = some t) :
    ReachesOnly P db (postMessage P db now online s payload).1 s t := by
  have hl := lookup_located P db now s t payload hs hc ht
  generalize hk : lookup P db now s payload = result at hl
  cases hl with
  | raised left hm => exact reachesOnly_of_kept (by simp only [postMessage, if_pos hs, hk, hm])
  | none isNew systemMessage => exact reachesOnly_of_kept (by simp only [postMessage, if_pos hs, hk])
  | found id isNew db' final systemMessage hut hf hch hmsg hself =>
    obtain ⟨c, isNew', db'', hf', hcon, hpar, -⟩ := findOrCreate_pair hi hp now hne hs hut
    rw [hf] at hf'
    cases hf'
    obtain ⟨hch', hmsg'⟩ := postMessage_found_spec online hs hk
    have hall : Changes db' (postMessage P db now online s payload).1 := hch.trans hch'
    refine reachesOnly_of_participants (hall.extends.conversations id hcon)
      (fun u => by rw [hall.participants hcon]; exact hpar u) (fun m hm => ?_)
    rcases hmsg' m hm with hm | hm
    · exact hmsg m hm
    · exact Or.inr hm

namespace ConversationsSocket

def StoresText (P : Platform) (db : Db) (me conversation : ℕ) (message : Option MessagePart) : Prop :=
  ∃ part content, message = some part ∧ part.content = some content ∧
    storable (P.sanitizeField content.cast) = true ∧ repeats db me conversation (some content) = false

theorem addMessage_stored {P : Platform} {db : Db} {now : ℕ} {online : List ℕ} {me conversation : ℕ} {isNew : Bool}
    {systemMessage : Option Message.Draft} {message : Option MessagePart}
    (h : StoresText P db me conversation message) :
    ∃ m ∈ (addMessage P db now online me conversation isNew systemMessage message).1.messages.rows,
      m ∉ db.messages.rows ∧ m.conversationId = conversation := by
  obtain ⟨part, content, rfl, hc, hp, hr⟩ := h
  have htext : part.text.map P.sanitizeField = some (P.sanitizeField content.cast) := by
    rw [MessagePart.text, hc, Option.map_some, Option.map_some]
  have he : (addMessage P db now online me conversation isNew systemMessage (some part)).1.messages.rows =
      db.messages.rows ++
        [{ id := db.messages.fresh, conversationId := conversation, userId := some me,
           content := P.sanitizeField content.cast, createdAt := now, updatedAt := now }] := by
    simp only [addMessage, hc, hr, Bool.false_eq_true, if_false,
      Message.create_storable P db now conversation me false htext hp, deliver_messages]
    rfl
  refine ⟨_, he ▸ List.mem_append_right _ (List.mem_singleton.mpr rfl), fun hm => ?_, rfl⟩
  exact absurd (Table.lt_fresh hm) (Nat.lt_irrefl _)

theorem addMessage_kept {P : Platform} {db : Db} {now : ℕ} {online : List ℕ} {me conversation : ℕ} {isNew : Bool}
    {systemMessage : Option Message.Draft} {message : Option MessagePart}
    (h : ¬ StoresText P db me conversation message) :
    (addMessage P db now online me conversation isNew systemMessage message).1.messages = db.messages := by
  cases message with
  | none => rfl
  | some part =>
    simp only [addMessage]
    split_ifs with hr
    · rfl
    · rcases Message.create_cases P db now conversation (some me) false part.text with ⟨-, hcreate⟩ | ⟨hraises, hcreate⟩
      · simp only [hcreate]
      · simp only [hcreate, deliver_messages]
        cases hc : part.content with
        | none => simp only [Message.save, MessagePart.text, hc, Option.map_none]
        | some content =>
          simp only [Message.raises, MessagePart.text, hc, Option.map_some, Option.any_some, Message.valid_some,
            Bool.and_eq_false_iff, Bool.not_eq_false'] at hraises
          have hp : ¬ Text.present (P.sanitizeField content.cast) = true := by
            intro hp
            rw [hc] at hr
            refine h ⟨part, content, rfl, hc, ?_, Bool.eq_false_iff.mpr hr⟩
            rw [storable, hp, hraises.resolve_left (by rw [hp]; exact Bool.noConfusion), Bool.and_self]
          simp only [Message.save, MessagePart.text, hc, Option.map_some, Message.valid_some, if_neg hp]

end ConversationsSocket

theorem postMessage_self {P : Platform} {db : Db} {now : ℕ} {online : List ℕ} {s : ℕ} {payload : Payload}
    (hs : db.users.has s = true) (hc : payload.message.bind MessagePart.conversationId = none)
    (hq : payload.requestId = none) (ht : payload.userId = some s) :
    ReachesOnly P db (postMessage P db now online s payload).1 s s ↔
      ¬ ∃ c, sharedConversation db s s = some c ∧ (∃ u ∈ db.participants c.id, u ≠ s) ∧
        StoresText P db s c.id payload.message := by
  have hl : lookup P db now s payload = userBranch db now s s := by simp only [lookup, hc, hq, ht]
  cases hf : sharedConversation db s s with
  | none =>
    have hk : ∃ left, findOrCreate db now s s = .error left := by
      cases hk : createConversation db now s s with
      | error left => exact ⟨left, by simp only [findOrCreate, hf, hk]⟩
      | ok found => exact absurd hk createConversation_self
    obtain ⟨left, hk⟩ := hk
    have he : (postMessage P db now online s payload).1 = left := by
      simp only [postMessage, if_pos hs, hl, userBranch, hk]
    refine ⟨fun _ => by simp, fun _ => reachesOnly_of_kept ?_⟩
    rw [he]
    exact findOrCreate_left hk
  | some c =>
    obtain ⟨hm, hcs, -⟩ := sharedConversation_some hf
    have hlook : lookup P db now s payload = .found db (some c.id) false none := by
      rw [hl]
      simp only [userBranch, if_pos hs, findOrCreate, hf]
    have he := postMessage_found online hs hlook
    rw [if_pos ((mem_participants db c.id s).mp hcs)] at he
    have hch : Changes db (postMessage P db now online s payload).1 :=
      ConversationsSocket.postMessage_changes P db now online s payload
    have hcon : db.conversations.has c.id = true := Table.has_of_mem hm
    have hpar := hch.participants hcon
    by_cases hst : StoresText P db s c.id payload.message
    · constructor
      · rintro hr ⟨c', hc', ⟨u, hu, hne⟩, -⟩
        cases hc'
        obtain ⟨m, hmem, hnew, hmc⟩ := addMessage_stored (P := P) hst
        rw [← he] at hmem
        have hp := ((hr m hmem hnew).1 u).mp (by rw [hmc, hpar]; exact hu)
        exact hne (hp.elim id id)
      · intro hn
        refine reachesOnly_of_participants (hch.extends.conversations c.id hcon) (fun u => ?_) (fun m hmem => ?_)
        · rw [hpar, or_self]
          refine ⟨fun hu => ?_, fun hu => hu ▸ hcs⟩
          by_contra hne
          exact hn ⟨c, rfl, ⟨u, hu, hne⟩, hst⟩
        · rw [he] at hmem
          exact addMessage_mem hmem
    · constructor
      · rintro - ⟨c', hc', -, hst'⟩
        cases hc'
        exact hst hst'
      · intro _
        apply reachesOnly_of_kept
        rw [he]
        exact addMessage_kept hst

theorem postMessage_private_iff (P : Platform) (db : Db) (h : Reachable P db) (now : ℕ) (online : List ℕ) (s t : ℕ)
    (payload : Payload) (hc : payload.message.bind MessagePart.conversationId = none)
    (ht : payload.target db = some t) :
    ReachesOnly P db (postMessage P db now online s payload).1 s t ↔
      ¬ (t = s ∧ payload.requestId = none ∧ ∃ c, sharedConversation db s s = some c ∧
        (∃ u ∈ db.participants c.id, u ≠ s) ∧ StoresText P db s c.id payload.message) := by
  have hi := h.consistent
  by_cases hs : db.users.has s = true
  · by_cases hne : s = t
    · subst hne
      cases hq : payload.requestId with
      | none =>
        have hu : payload.userId = some s := by simpa [Payload.target, hq] using ht
        simpa using postMessage_self hs hc hq hu
      | some requestId =>
        simp only [Payload.target, hq] at ht
        obtain ⟨request, hr, hu⟩ := Option.map_eq_some_iff.mp ht
        have he : (postMessage P db now online s payload).1 = db := by
          simp only [postMessage, if_pos hs, lookup, hc, hq, hr, requestBranch, if_pos hu]
        rw [he]
        exact ⟨fun _ => by simp, fun _ => reachesOnly_of_kept rfl⟩
    · exact ⟨fun _ hl => hne hl.1.symm, fun _ => postMessage_other hi h.paired hne hs hc ht⟩
  · have he : (postMessage P db now online s payload).1 = db := by simp only [postMessage, if_neg hs]
    rw [he]
    refine ⟨?_, fun _ => reachesOnly_of_kept rfl⟩
    rintro - ⟨-, -, c, hf, -⟩
    have hp := (mem_participants db c.id s).mp (sharedConversation_some hf).2.1
    exact hs (hi.memberships (c.id, s) ((mem_memberships db c.id s).mpr hp)).2

def conversed : Db :=
  Transition.run (step .plain) (Db.new {})
    [.signUp "ann@blnkk.com" "ann", .signUp "bob@blnkk.com" "bob",
      .postMessage 10 [] 1 { message := some { content := some "hello" }, userId := some 2 }]

def noteToSelf : Payload := { message := some { content := some "my note" }, userId := some 1 }

theorem noteToSelf_read_by_other :
    Reachable .plain conversed ∧ noteToSelf.target conversed = some 1 ∧
    ¬ ReachesOnly .plain conversed (postMessage .plain conversed 20 [] 1 noteToSelf).1 1 1 ∧
    (ConversationsController.show (postMessage .plain conversed 20 [] 1 noteToSelf).1 30 2 1).2.1.map Message.content =
      ["hello", "my note"] := by
  refine ⟨⟨{}, _, rfl⟩, rfl, fun h => ?_, by decide +kernel⟩
  have hm : ⟨2, 1, some 1, false, "my note", 20, 20⟩ ∈
      (postMessage .plain conversed 20 [] 1 noteToSelf).1.messages.rows := by decide +kernel
  have hn : ⟨2, 1, some 1, false, "my note", 20, 20⟩ ∉ conversed.messages.rows := by decide +kernel
  have hp := ((h _ hm hn).1 2).mp (by decide +kernel)
  exact absurd hp (by decide)

theorem message_to_bob_private :
    ReachesOnly .plain conversed
      (postMessage .plain conversed 20 [] 1
        { message := some { content := some "for bob" }, userId := some 2 }).1 1 2 :=
  (postMessage_private_iff .plain conversed ⟨{}, _, rfl⟩ 20 [] 1 2
    { message := some { content := some "for bob" }, userId := some 2 } rfl rfl).mpr
    (fun hl => absurd hl.1 (by decide))

end Blnkk
