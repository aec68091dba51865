import Blnkk.Conversations

namespace Blnkk

open Relational ConversationsSocket

structure Paired (db : Db) : Prop where
  atMostTwo : ∀ c, (db.participants c).length ≤ 2
  unique : ∀ c c' s t, s ≠ t → s ∈ db.participants c → t ∈ db.participants c →
    s ∈ db.participants c' → t ∈ db.participants c' → c = c'

theorem sharedConversation_some {db : Db} {other me : ℕ} {c : Conversation}
    (h : sharedConversation db other me = some c) :
    c ∈ db.conversations.rows ∧ other ∈ db.participants c.id ∧ me ∈ db.participants c.id := by
  have hp := List.find?_some h
  simp only [Bool.and_eq_true] at hp
  exact ⟨List.mem_of_find?_eq_some h, (mem_participants db c.id other).mpr hp.1,
    (mem_participants db c.id me).mpr hp.2⟩

theorem sharedConversation_none {db : Db} (hi : Consistent db) {other me c : ℕ}
    (h : sharedConversation db other me = none) (ho : other ∈ db.participants c) : me ∉ db.participants c := by
  intro hm
  have hoc := (mem_participants db c other).mp ho
  have hmc := (mem_participants db c me).mp hm
  obtain ⟨row, hrow, rfl⟩ := (db.conversations.has_iff c).mp
    (hi.memberships (c, other) ((mem_memberships db c other).mpr hoc)).1
  have hn := List.find?_eq_none.mp h row hrow
  simp [hoc, hmc] at hn

theorem two_of_length {l : List ℕ} (hn : l.length ≤ 2) {s t : ℕ} (hne : s ≠ t) (hs : s ∈ l) (ht : t ∈ l) (u : ℕ) :
    u ∈ l ↔ u = s ∨ u = t := by
  match l, hn with
  | [], _ => simp at hs
  | [a], _ =>
    simp only [List.mem_singleton] at hs ht
    exact absurd (hs.trans ht.symm) hne
  | [a, b], _ =>
    simp only [List.mem_cons, List.not_mem_nil, or_false] at hs ht ⊢
    rcases hs with rfl | rfl <;> rcases ht with rfl | rfl
    · exact absurd rfl hne
    · rfl
    · exact or_comm
    · exact absurd rfl hne

theorem Change.paired {db db' : Db} (hc : Change db db') (hi : Consistent db) (h : Paired db) : Paired db' := by
  rcases hc.conversation_cases with hm | ⟨now, t, l, rfl, ht, hl, me, other, hsub, hlen, hn⟩
  · have hp : ∀ c, db'.participants c = db.participants c := fun c => by
      rw [participants_eq, participants_eq, hm]
    exact ⟨fun c => by rw [hp]; exact h.atMostTwo c, fun c c' s t => by rw [hp, hp]; exact h.unique c c' s t⟩
  · have hp := participants_start db now t l ht
    have hf : Db.participants { startConversation db now with conversationUsers := t } db.conversations.fresh =
        l.map ConversationUser.userId := by
      rw [hp, participants_absent hi db.conversations.has_fresh, List.nil_append,
        List.filter_eq_self.mpr (fun cu hcu => decide_eq_true (hl cu hcu))]
    have ho : ∀ c, c ≠ db.conversations.fresh →
        Db.participants { startConversation db now with conversationUsers := t } c = db.participants c := by
      intro c hne
      rw [hp, List.filter_eq_nil_iff.mpr, List.map_nil, List.append_nil]
      intro cu hcu he
      exact hne ((of_decide_eq_true he).symm.trans (hl cu hcu))
    -- the new pair had no conversation before, or it would have been found
    have hnew : ∀ c s t, s ≠ t → s ∈ l.map ConversationUser.userId → t ∈ l.map ConversationUser.userId →
        s ∈ db.participants c → t ∉ db.participants c := by
      intro c s t hne hs ht hsc htc
      have hs' := hsub hs
      have ht' := hsub ht
      simp only [List.mem_cons, List.not_mem_nil, or_false] at hs' ht'
      rcases hs' with rfl | rfl <;> rcases ht' with rfl | rfl
      · exact hne rfl
      · exact sharedConversation_none hi hn htc hsc
      · exact sharedConversation_none hi hn hsc htc
      · exact hne rfl
    refine ⟨fun c => ?_, fun c c' s t hne hs ht hs' ht' => ?_⟩
    · by_cases hc : c = db.conversations.fresh
      · rw [hc, hf, List.length_map]
        exact hlen
      · rw [ho c hc]
        exact h.atMostTwo c
    · by_cases hc : c = db.conversations.fresh <;> by_cases hc' : c' = db.conversations.fresh
      · rw [hc, hc']
      · rw [hc, hf] at hs ht
        rw [ho c' hc'] at hs' ht'
        exact absurd ht' (hnew c' s t hne hs ht hs')
      · rw [hc', hf] at hs' ht'
        rw [ho c hc] at hs ht
        exact absurd ht (hnew c s t hne hs' ht' hs)
      · rw [ho c hc] at hs ht
        rw [ho c' hc'] at hs' ht'
        exact h.unique c c' s t hne hs ht hs' ht'

theorem Reachable.paired {P : Platform} {db : Db} (h : Reachable P db) : Paired db := by
  refine h.invariant_of_consistent (fun settings => ⟨fun c => ?_, fun c c' s t _ hs => ?_⟩) (fun _ _ => Change.paired)
  · simp [Db.participants, Db.new, Table.empty]
  · simp [Db.participants, Db.new, Table.empty] at hs

theorem createConversation_pair {db : Db} (hi : Consistent db) (now : ℕ) {s t : ℕ} (hne : s ≠ t) :
    ∃ created, createConversation db now s t = .ok (db.conversations.fresh, created) ∧
      created.participants db.conversations.fresh = [s, t] := by
  cases hk : createConversation db now s t with
  | error left =>
    obtain ⟨table, -, ⟨-, hh⟩ | ⟨ht, hh⟩⟩ := createConversation_error hk
    · have hp := (mem_participants db db.conversations.fresh s).mpr hh
      rw [participants_absent hi db.conversations.has_fresh] at hp
      cases hp
    · rcases (Table.has_append ht _).mp hh with hh | ⟨cu, hcu, he⟩
      · have hp := (mem_participants db db.conversations.fresh t).mpr hh
        rw [participants_absent hi db.conversations.has_fresh] at hp
        cases hp
      · rw [List.mem_singleton.mp hcu] at he
        exact absurd (Prod.mk.inj he).2 hne
  | ok found =>
    obtain ⟨id, created⟩ := found
    obtain ⟨rfl, table, rfl, ht⟩ := createConversation_ok hk
    refine ⟨_, rfl, ?_⟩
    rw [participants_start db now table _ ht, participants_absent hi db.conversations.has_fresh]
    simp

theorem findOrCreate_pair {db : Db} (hi : Consistent db) (h : Paired db) (now : ℕ) {s t : ℕ} (hne : s ≠ t)
    (hs : db.users.has s = true) (ht : db.users.has t = true) :
    ∃ c isNew db', findOrCreate db now s t = .ok (c, isNew, db') ∧ db'.conversations.has c = true ∧
      (∀ u, u ∈ db'.participants c ↔ u = s ∨ u = t) ∧
      (∀ c', s ∈ db'.participants c' → t ∈ db'.participants c' → c' = c) ∧
      (∀ c', s ∈ db.participants c' → t ∈ db.participants c' → c' = c ∧ isNew = false ∧ db' = db) := by
  cases hf : sharedConversation db t s with
  | some c =>
    obtain ⟨hm, htc, hsc⟩ := sharedConversation_some hf
    refine ⟨c.id, false, db, by simp [findOrCreate, hf], Table.has_of_mem hm,
      two_of_length (h.atMostTwo c.id) hne hsc htc, fun c' hs' ht' => ?_, fun c' hs' ht' => ⟨?_, rfl, rfl⟩⟩
    · exact h.unique c' c.id s t hne hs' ht' hsc htc
    · exact h.unique c' c.id s t hne hs' ht' hsc htc
  | none =>
    obtain ⟨created, hk, hp⟩ := createConversation_pair hi now hne
    have hch : Change db created := .newConversation now s t _ created hs ht hf hk
    have hh : created.conversations.has db.conversations.fresh = true := by
      obtain ⟨-, table, rfl, -⟩ := createConversation_ok hk
      exact (Table.has_insertFresh _ _ _ _).mpr (Or.inr rfl)
    refine ⟨db.conversations.fresh, true, created, by simp only [findOrCreate, hf, hk], hh,
      fun u => by rw [hp]; simp, fun c' hs' ht' => ?_,
      fun c' hs' ht' => absurd hs' (sharedConversation_none hi hf ht')⟩
    exact (hch.paired hi h).unique c' _ s t hne hs' ht' (by rw [hp]; simp) (by rw [hp]; simp)

theorem reachable_conversations (P : Platform) (db : Db) (h : Reachable P db) :
    (∀ c, (db.participants c).length ≤ 2) ∧
    (∀ ops c u, u ∈ db.participants c → u ∈ (Transition.run (step P) db ops).participants c) ∧
    (∀ c c' s t, s ≠ t → s ∈ db.participants c → t ∈ db.participants c →
      s ∈ db.participants c' → t ∈ db.participants c' → c = c') ∧
    (∀ now s t, s ≠ t → db.users.has s = true → db.users.has t = true →
      ∃ c isNew db', findOrCreate db now s t = .ok (c, isNew, db') ∧
        (∀ u, u ∈ db'.participants c ↔ u = s ∨ u = t) ∧
        (∀ c', s ∈ db'.participants c' → t ∈ db'.participants c' → c' = c) ∧
        (∀ c', s ∈ db.participants c' → t ∈ db.participants c' → c' = c ∧ isNew = false ∧ db' = db)) := by
  have hi := h.consistent
  have hp := h.paired
  refine ⟨hp.atMostTwo, fun ops c u hu => ?_, hp.unique, fun now s t hne hs ht => ?_⟩
  · have hm := (mem_memberships db c u).mpr ((mem_participants db c u).mp hu)
    have he := (run_changes P db ops).extends.memberships _ hm
    exact (mem_participants _ c u).mpr ((mem_memberships _ c u).mp he)
  · obtain ⟨c, isNew, db', hf, -, hrest⟩ := findOrCreate_pair hi hp now hne hs ht
    exact ⟨c, isNew, db', hf, hrest⟩

def talkative : Db :=
  Transition.run (step .plain) (Db.new {})
    [.signUp "ann@blnkk.com" "ann", .signUp "bob@blnkk.com" "bob",
      .postMessage 10 [] 2 { message := some { content := some "note" }, userId := some 2 },
      .postMessage 11 [] 1 { message := some { content := some "hello" }, userId := some 2 },
      .postMessage 12 [] 2 { message := some { content := some "hi" }, userId := some 1 }]

theorem talkative_conversations :
    talkative.participants 1 = [2] ∧ talkative.participants 2 = [1, 2] ∧
      ∀ c, (talkative.participants c).length ≤ 2 :=
  ⟨by decide +kernel, by decide +kernel, (reachable_conversations .plain talkative ⟨{}, _, rfl⟩).1⟩

end Blnkk
