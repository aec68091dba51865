import Blnkk.Integrity

/-!
Who takes part in which conversation. Participants are only ever added to a
conversation that has just been created, so those of an existing one are fixed.
-/

namespace Blnkk

open Relational ConversationsSocket

theorem participants_eq (db : Db) (c : ℕ) :
    db.participants c = (db.memberships.filter (fun p => decide (p.1 = c))).map Prod.snd := by
  simp only [Db.participants, Db.memberships, List.filter_map, List.map_map]
  rfl

theorem participants_absent {db : Db} (h : Consistent db) {c : ℕ} (hc : db.conversations.has c = false) :
    db.participants c = [] := by
  rw [List.eq_nil_iff_forall_not_mem]
  intro u hu
  have hm := (mem_memberships db c u).mpr ((mem_participants db c u).mp hu)
  have hh := (h.memberships _ hm).1
  rw [hc] at hh
  cases hh

theorem participants_start (db : Db) (now : ℕ) (t : Table ConversationUser.index) (l : List ConversationUser)
    (ht : t.rows = db.conversationUsers.rows ++ l) (c : ℕ) :
    Db.participants { startConversation db now with conversationUsers := t } c =
      db.participants c ++ (l.filter (fun cu => decide (cu.conversationId = c))).map ConversationUser.userId := by
  simp only [Db.participants, ht, List.filter_append, List.map_append]

theorem Change.conversation_cases {db db' : Db} (hc : Change db db') :
    db'.memberships = db.memberships ∨
    ∃ now t l, db' = { startConversation db now with conversationUsers := t } ∧
      t.rows = db.conversationUsers.rows ++ l ∧ (∀ cu ∈ l, cu.conversationId = db.conversations.fresh) ∧
      ∃ me other, l.map ConversationUser.userId ⊆ [me, other] ∧ l.length ≤ 2 ∧
        sharedConversation db other me = none := by
  cases hc with
  | settings settings => exact Or.inl rfl
  | messages messages => exact Or.inl rfl
  | invitations invitations => exact Or.inl rfl
  | user id f hf hr => exact Or.inl rfl
  | request id f hf hr => exact Or.inl rfl
  | comment id f hf hr => exact Or.inl rfl
  | conversation id f hf => exact Or.inl rfl
  | flags p f hf => exact Or.inl (flags_sameShape db p f hf).memberships
  | newUser u hu hr => exact Or.inl rfl
  | newRequest me subject content reward hme => exact Or.inl rfl
  | newComment me requestId content hme => exact Or.inl rfl
  | newConversation now me other id created hme hother hn hk =>
    obtain ⟨-, t, rfl, ht⟩ := createConversation_ok hk
    exact Or.inr ⟨now, t, _, rfl, ht, by simp, me, other, by simp, by simp, hn⟩
  | halfConversation now me other left hme hn hk =>
    obtain ⟨t, rfl, ⟨ht, -⟩ | ⟨ht, -⟩⟩ := createConversation_error hk
    · exact Or.inr ⟨now, t, [], rfl, by rw [ht, List.append_nil], by simp, me, other, by simp, by simp, hn⟩
    · exact Or.inr ⟨now, t, _, rfl, ht, by simp, me, other, by simp, by simp, hn⟩
  | joinRequest r user hr hu => exact Or.inl rfl
  | rescore r hr => exact Or.inl rfl
  | view r me hr hme => exact Or.inl rfl
  | rateUser self user v hv => exact Or.inl (User.rated_sameShape db self user v).memberships
  | rateRequest r user v hr hv => exact Or.inl (Request.rated_sameShape db r user v).memberships
  | rateComment c user v hc hv => exact Or.inl (Comment.rated_sameShape db c user v).memberships
  | rateConversation c user v hv => exact Or.inl (Conversation.rated_sameShape db c user v).memberships

theorem Change.participants {db db' : Db} (hc : Change db db') {c : ℕ}
    (hh : db.conversations.has c = true) : db'.participants c = db.participants c := by
  rcases hc.conversation_cases with hm | ⟨now, t, l, rfl, ht, hl, -⟩
  · rw [participants_eq, participants_eq, hm]
  · rw [participants_start db now t l ht]
    have hne : ∀ cu ∈ l, ¬ decide (cu.conversationId = c) = true := by
      intro cu hcu he
      rw [hl cu hcu, decide_eq_true_eq] at he
      rw [← he, db.conversations.has_fresh] at hh
      cases hh
    rw [List.filter_eq_nil_iff.mpr hne, List.map_nil, List.append_nil]

theorem Changes.participants {db db' : Db} (hc : Changes db db') {c : ℕ} (hh : db.conversations.has c = true) :
    db'.participants c = db.participants c := by
  have hi := hc.invariant (I := fun d => d.conversations.has c = true ∧ d.participants c = db.participants c)
    (fun d d' hd hi => ⟨hd.extends.conversations c hi.1, (hd.participants hi.1).trans hi.2⟩) ⟨hh, rfl⟩
  exact hi.2

end Blnkk
