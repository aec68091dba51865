import Blnkk.Extends

namespace Blnkk

open Relational

structure Consistent (db : Db) : Prop where
  ratings : ∀ r ∈ db.ratings.rows, ValidRating db r.userId r.rateable r.rating
  requests : ∀ p ∈ db.requestAuthors, db.users.has p.2 = true
  comments : ∀ p ∈ db.commentAuthors, db.users.has p.2 = true
  memberships : ∀ p ∈ db.memberships, db.conversations.has p.1 = true ∧ db.users.has p.2 = true
  requestUsers : ∀ id u, db.requestUsers.has (id, u) = true → db.requests.has id = true
  viewings : ∀ id u, db.viewings.has (.request id, u) = true → db.requests.has id = true

theorem Consistent.author {db : Db} (hc : Consistent db) {r : Request} (hr : r ∈ db.requests.rows) :
    db.users.has r.userId = true :=
  hc.requests (r.id, r.userId) (List.mem_map.mpr ⟨r, hr, rfl⟩)

theorem Extends.requests_has {db db' : Db} (he : Extends db db') {id : ℕ} (h : db.requests.has id = true) :
    db'.requests.has id = true := by
  obtain ⟨u, hu⟩ := (requests_has_iff db id).mp h
  exact (requests_has_iff db' id).mpr ⟨u, he.requests _ hu⟩

theorem Consistent.extend {db db' : Db} (h : Consistent db) (he : Extends db db')
    (hratings : ∀ r ∈ db'.ratings.rows, r ∈ db.ratings.rows ∨ ValidRating db r.userId r.rateable r.rating)
    (hrequests : ∀ p ∈ db'.requestAuthors, p ∈ db.requestAuthors ∨ db.users.has p.2 = true)
    (hcomments : ∀ p ∈ db'.commentAuthors, p ∈ db.commentAuthors ∨ db.users.has p.2 = true)
    (hmemberships : ∀ p ∈ db'.memberships,
      p ∈ db.memberships ∨ (db'.conversations.has p.1 = true ∧ db.users.has p.2 = true))
    (hrequestUsers : ∀ id u, db'.requestUsers.has (id, u) = true →
      db.requestUsers.has (id, u) = true ∨ db'.requests.has id = true)
    (hviewings : ∀ id u, db'.viewings.has (.request id, u) = true →
      db.viewings.has (.request id, u) = true ∨ db'.requests.has id = true) : Consistent db' := by
  refine ⟨fun r hr => ?_, fun p hp => ?_, fun p hp => ?_, fun p hp => ?_, fun id u hu => ?_, fun id u hu => ?_⟩
  · rcases hratings r hr with hr | hr
    · exact (h.ratings r hr).mono he
    · exact hr.mono he
  · rcases hrequests p hp with hp | hp
    · exact he.users _ (h.requests p hp)
    · exact he.users _ hp
  · rcases hcomments p hp with hp | hp
    · exact he.users _ (h.comments p hp)
    · exact he.users _ hp
  · rcases hmemberships p hp with hp | hp
    · exact ⟨he.conversations _ (h.memberships p hp).1, he.users _ (h.memberships p hp).2⟩
    · exact ⟨hp.1, he.users _ hp.2⟩
  · rcases hrequestUsers id u hu with hu | hu
    · exact he.requests_has (h.requestUsers id u hu)
    · exact hu
  · rcases hviewings id u hu with hu | hu
    · exact he.requests_has (h.viewings id u hu)
    · exact hu

theorem Consistent.of_sameShape {db db' : Db} (h : Consistent db) (hs : SameShape db db')
    (hratings : ∀ r ∈ db'.ratings.rows, r ∈ db.ratings.rows ∨ ValidRating db r.userId r.rateable r.rating)
    (hrequestUsers : ∀ id u, db'.requestUsers.has (id, u) = true →
      db.requestUsers.has (id, u) = true ∨ db.requests.has id = true)
    (hviewings : ∀ id u, db'.viewings.has (.request id, u) = true →
      db.viewings.has (.request id, u) = true ∨ db.requests.has id = true) : Consistent db' := by
  have he := Extends.of_sameShape hs
  refine h.extend he hratings (fun p hp => ?_) (fun p hp => ?_) (fun p hp => ?_) (fun id u hu => ?_)
    (fun id u hu => ?_)
  · exact Or.inl (hs.requests ▸ hp)
  · exact Or.inl (hs.comments ▸ hp)
  · exact Or.inl (hs.memberships ▸ hp)
  · exact (hrequestUsers id u hu).imp_right he.requests_has
  · exact (hviewings id u hu).imp_right he.requests_has

theorem Consistent.of_kept {db db' : Db} (h : Consistent db) (hs : SameShape db db')
    (hr : db'.ratings = db.ratings) (hu : db'.requestUsers = db.requestUsers)
    (hw : db'.viewings = db.viewings) : Consistent db' :=
  h.of_sameShape hs (fun _ hm => Or.inl (hr ▸ hm)) (fun _ _ hm => Or.inl (hu ▸ hm)) (fun _ _ hm => Or.inl (hw ▸ hm))

theorem Consistent.of_saved {db db' : Db} (h : Consistent db) (hs : SameShape db db') {user : ℕ} {q : Rateable}
    {v : ℤ} (hv : ValidRating db user q v) (hr : db'.ratings = (db.saveRating user q v).ratings)
    (hu : db'.requestUsers = db.requestUsers) (hw : db'.viewings = db.viewings) : Consistent db' := by
  refine h.of_sameShape hs (fun r hm => ?_) (fun id u hm => Or.inl (hu ▸ hm)) (fun id u hm => Or.inl (hw ▸ hm))
  rw [hr] at hm
  rcases Db.mem_saveRating db user q v hm with rfl | hm
  · exact Or.inr hv
  · exact Or.inl hm

theorem Consistent.of_conversation {db : Db} (h : Consistent db) (now : ℕ) (t : Table ConversationUser.index)
    (l : List ConversationUser) (ht : t.rows = db.conversationUsers.rows ++ l)
    (hl : ∀ cu ∈ l, cu.conversationId = db.conversations.fresh ∧ db.users.has cu.userId = true) :
    Consistent { ConversationsSocket.startConversation db now with conversationUsers := t } := by
  refine h.extend (startConversation_extends db now t l ht) (fun r hr => Or.inl hr) (fun p hp => Or.inl hp)
    (fun p hp => Or.inl hp) (fun p hp => ?_) (fun id u hu => Or.inl hu) (fun id u hu => Or.inl hu)
  simp only [Db.memberships, ht, List.map_append, List.mem_append] at hp
  rcases hp with hp | hp
  · exact Or.inl hp
  · obtain ⟨cu, hcu, rfl⟩ := List.mem_map.mp hp
    obtain ⟨hc, hu⟩ := hl cu hcu
    exact Or.inr ⟨(Table.has_insertFresh _ _ _ _).mpr (Or.inr hc), hu⟩

theorem has_addViewing (db : Db) (id user : ℕ) (k : Viewable × ℕ) :
    (db.addViewing id user).viewings.has k = true ↔ db.viewings.has k = true ∨ (.request id, user) = k := by
  rw [Db.addViewing, Table.has_update, Table.has_ensure]

theorem Change.consistent {db db' : Db} (hc : Change db db') (h : Consistent db) : Consistent db' := by
  have he := hc.extends
  cases hc with
  | settings settings => exact h.of_kept (.of_eq rfl rfl rfl rfl rfl) rfl rfl rfl
  | messages messages => exact h.of_kept (.of_eq rfl rfl rfl rfl rfl) rfl rfl rfl
  | invitations invitations => exact h.of_kept (.of_eq rfl rfl rfl rfl rfl) rfl rfl rfl
  | user id f hf hr => exact h.of_kept (user_sameShape db id f hf) rfl rfl rfl
  | request id f hf hr => exact h.of_kept (request_sameShape db id f hf hr) rfl rfl rfl
  | comment id f hf hr => exact h.of_kept (comment_sameShape db id f hf hr) rfl rfl rfl
  | conversation id f hf => exact h.of_kept (conversation_sameShape db id f hf) rfl rfl rfl
  | flags p f hf => exact h.of_kept (flags_sameShape db p f hf) rfl rfl rfl
  | newUser u hu hr =>
    exact h.extend he (fun _ hr => Or.inl hr) (fun _ hp => Or.inl hp) (fun _ hp => Or.inl hp)
      (fun _ hp => Or.inl hp) (fun _ _ hu => Or.inl hu) (fun _ _ hu => Or.inl hu)
  | newRequest me subject content reward hme =>
    refine h.extend he (fun _ hr => Or.inl hr) (fun p hp => ?_) (fun _ hp => Or.inl hp)
      (fun _ hp => Or.inl hp) (fun id u hu => ?_) (fun _ _ hu => Or.inl hu)
    · rw [requestAuthors_post, List.mem_append, List.mem_singleton] at hp
      rcases hp with hp | rfl
      · exact Or.inl hp
      · exact Or.inr hme
    · rcases (Table.has_ensure _ _ _).mp hu with hu | hu
      · exact Or.inl hu
      · exact Or.inr ((Table.has_insertFresh _ _ _ _).mpr (Or.inr (Prod.mk.inj hu).1.symm))
  | newComment me requestId content hme =>
    refine h.extend he (fun _ hr => Or.inl hr) (fun _ hp => Or.inl hp) (fun p hp => ?_)
      (fun _ hp => Or.inl hp) (fun _ _ hu => Or.inl hu) (fun _ _ hu => Or.inl hu)
    rw [commentAuthors_post, List.mem_append, List.mem_singleton] at hp
    rcases hp with hp | rfl
    · exact Or.inl hp
    · exact Or.inr hme
  | newConversation now me other id created hme hother hn hk =>
    obtain ⟨-, t, rfl, ht⟩ := ConversationsSocket.createConversation_ok hk
    exact h.of_conversation now t _ ht (by simp [hme, hother])
  | halfConversation now me other left hme hn hk =>
    obtain ⟨t, rfl, ⟨ht, -⟩ | ⟨ht, -⟩⟩ := ConversationsSocket.createConversation_error hk
    · exact h.of_conversation now t [] (by rw [ht, List.append_nil]) (by simp)
    · exact h.of_conversation now t _ ht (by simp [hme])
  | joinRequest r user hr hu =>
    refine h.of_sameShape (joinRequest_sameShape db r user) (fun _ hr => Or.inl hr) (fun id u hu => ?_)
      (fun _ _ hu => Or.inl hu)
    rcases (Table.has_ensure _ _ _).mp hu with hu | hu
    · exact Or.inl hu
    · rw [← (Prod.mk.inj hu).1]
      exact Or.inr (Table.has_of_get? hr)
  | rescore r hr => exact h.of_kept (.updateScore db .comment r) rfl rfl rfl
  | view r me hr hme =>
    refine h.of_sameShape (view_sameShape db r me) (fun _ hr => Or.inl hr) (fun _ _ hu => Or.inl hu)
      (fun id u hu => ?_)
    rcases (has_addViewing db r.id me _).mp hu with hu | hu
    · exact Or.inl hu
    · rw [← Viewable.request.inj (Prod.mk.inj hu).1]
      exact Or.inr (Table.has_of_get? hr)
  | rateUser self user v hv =>
    have hm := User.rated_maps db self user v
    exact h.of_saved (User.rated_sameShape db self user v) hv hm.ratings hm.requestUsers hm.viewings
  | rateRequest r user v hr hv =>
    have hm := Request.rated_maps db r user v
    exact h.of_saved (Request.rated_sameShape db r user v) hv hm.ratings hm.requestUsers hm.viewings
  | rateComment c user v hc hv =>
    have hm := Comment.rated_maps db c user v
    exact h.of_saved (Comment.rated_sameShape db c user v) hv hm.ratings hm.requestUsers hm.viewings
  | rateConversation c user v hv =>
    have hm := Conversation.rated_maps db c user v
    exact h.of_saved (Conversation.rated_sameShape db c user v) hv hm.ratings hm.requestUsers hm.viewings

theorem consistent_new (settings : Settings) : Consistent (Db.new settings) := by
  refine ⟨?_, ?_, ?_, ?_, ?_, ?_⟩ <;>
    simp [Db.new, Table.empty, Db.requestAuthors, Db.commentAuthors, Db.memberships, Table.has, Table.get?]

theorem Reachable.consistent {P : Platform} {db : Db} (h : Reachable P db) : Consistent db :=
  h.invariant consistent_new (fun _ _ => Change.consistent)

theorem Reachable.invariant_of_consistent {P : Platform} {I : Db → Prop}
    (hnew : ∀ settings, I (Db.new settings)) (hI : ∀ db db', Change db db' → Consistent db → I db → I db')
    {db : Db} (h : Reachable P db) : I db := by
  have hb : Consistent db ∧ I db := Reachable.invariant (I := fun db => Consistent db ∧ I db)
    (fun settings => ⟨consistent_new settings, hnew settings⟩)
    (fun db db' hc hi => ⟨hc.consistent hi.1, hI db db' hc hi.1 hi.2⟩) h
  exact hb.2

end Blnkk
