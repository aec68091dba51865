import Blnkk.KeptTables
import Blnkk.RequestScore

/-!
What the comments of one user leave behind at a request after their deletion.
-/

namespace Blnkk

open Relational

/-- What commenting and deleting a comment leave alone, apart from the table of
comments and the users counted at a request. -/
structure CommentFrame (db db' : Db) : Prop where
  users : db'.users = db.users
  ratings : db'.ratings = db.ratings
  viewings : db'.viewings = db.viewings
  states : ∀ id, (db'.requests.get? id).map Request.workflowState = (db.requests.get? id).map Request.workflowState

namespace CommentFrame

theorem refl (db : Db) : CommentFrame db db := ⟨rfl, rfl, rfl, fun _ => rfl⟩

theorem trans {db db' db'' : Db} (h : CommentFrame db db') (h' : CommentFrame db' db'') : CommentFrame db db'' :=
  ⟨h'.users.trans h.users, h'.ratings.trans h.ratings, h'.viewings.trans h.viewings,
    fun id => (h'.states id).trans (h.states id)⟩

theorem updateScore (db : Db) (action : ScoreAction) (r : Request) : CommentFrame db (r.updateScore db action) := by
  refine ⟨rfl, rfl, rfl, fun id => ?_⟩
  rw [Request.get?_updateScore]
  split_ifs
  · rw [Option.map_map]
    rfl
  · rfl

theorem active {db db' : Db} (h : CommentFrame db db') {id : ℕ} {r : Request} (hr : db.requests.get? id = some r)
    (ha : r.workflowState = .active) : ∃ r', db'.requests.get? id = some r' ∧ r'.workflowState = .active := by
  have hs := h.states id
  rw [hr, Option.map_some, ha] at hs
  exact Option.map_eq_some_iff.mp hs

/-- The columns of a request depend on comments only through the number of users counted. -/
theorem columns_iff {db db' : Db} (h : CommentFrame db db') (hs : Scores db) (hs' : Scores db') {id : ℕ}
    {r r' : Request} (hr : db.requests.get? id = some r) (hr' : db'.requests.get? id = some r') :
    (r'.commentCount = r.commentCount ∧ r'.rawScore = r.rawScore ∧ r'.score = r.score) ↔
      db'.requestUsersCount id = db.requestUsersCount id := by
  have hscored := hs.scored r (Table.get?_mem hr)
  have hscored' := hs'.scored r' (Table.get?_mem hr')
  have hid : r.id = id := Table.get?_key hr
  have hid' : r'.id = id := Table.get?_key hr'
  have hcomment := hscored.commentCount
  have hcomment' := hscored'.commentCount
  rw [hid] at hcomment
  rw [hid'] at hcomment'
  constructor
  · rintro ⟨hcount, -, -⟩
    omega
  · intro hcount
    have heq : r'.commentCount = r.commentCount := by omega
    have hlike : r'.likeCount = r.likeCount := by
      rw [hscored.likeCount, hscored'.likeCount, hid, hid', Db.likersCount, Db.likersCount, Db.ratingCount,
        Db.ratingCount, h.ratings]
    have hreach : r'.userReachCount = r.userReachCount := by
      rw [hscored.userReachCount, hscored'.userReachCount, hid, hid', Db.viewingsCount, Db.viewingsCount, h.viewings]
    have hraw : r'.rawScore = r.rawScore := by rw [hscored.rawScore, hscored'.rawScore, hlike, heq]
    refine ⟨heq, hraw, ?_⟩
    rw [hscored.score, hscored'.score, hraw, hreach]

end CommentFrame

theorem requestUsersCount_joined (db : Db) (id user : ℕ) :
    Db.requestUsersCount { db with requestUsers := db.requestUsers.ensure ⟨id, user⟩ } id =
      db.requestUsersCount id + if db.requestUsers.has (id, user) = true then 0 else 1 := by
  simp only [Db.requestUsersCount]
  split_ifs with hu
  · rw [Table.ensure_of_has hu, add_zero]
  · have hf : db.requestUsers.has (RequestUser.index ⟨id, user⟩) = false := Bool.eq_false_iff.mpr hu
    simp [Table.count, Table.ensure_rows, hf]

namespace CommentsController

theorem create_frame {db : Db} {me id : ℕ} {r : Request} (hm : db.users.has me = true)
    (hr : db.requests.get? id = some r) (ha : r.workflowState = .active) (content : String) :
    CommentFrame db (create db me id content).2.1 ∧
      (create db me id content).2.1.requestUsers =
        if storable content = true then db.requestUsers.ensure ⟨id, me⟩ else db.requestUsers := by
  have hid : r.id = id := Table.get?_key hr
  unfold create
  rw [if_pos hm, hr]
  simp only [if_pos ha]
  by_cases hs : storable content = true
  · obtain ⟨hp, hfits⟩ := Bool.and_eq_true_iff.mp hs
    rw [if_pos hp, if_pos hfits, if_pos hs]
    subst hid
    have hposted : CommentFrame db
        { post db me r.id content with requestUsers := db.requestUsers.ensure ⟨r.id, me⟩ } :=
      ⟨rfl, rfl, rfl, fun _ => rfl⟩
    exact ⟨hposted.trans (.updateScore _ .comment r), rfl⟩
  · rw [if_neg hs]
    split_ifs with hp hfits
    · exact absurd (Bool.and_eq_true_iff.mpr ⟨hp, hfits⟩) hs
    · exact ⟨.refl db, rfl⟩
    · exact ⟨.refl db, rfl⟩

theorem destroy_frame (db : Db) (me id : ℕ) :
    CommentFrame db (destroy db me id).2 ∧ (destroy db me id).2.requestUsers = db.requestUsers := by
  unfold destroy
  cases db.comments.get? id with
  | none => exact ⟨.refl db, rfl⟩
  | some comment =>
    cases db.users.get? me with
    | none => exact ⟨.refl db, rfl⟩
    | some user =>
      simp only
      split_ifs
      · have hd : CommentFrame db
            { db with comments := db.comments.update id (fun c => { c with enabled := false }) } :=
          ⟨rfl, rfl, rfl, fun _ => rfl⟩
        cases db.requests.get? comment.requestId with
        | none => exact ⟨hd, rfl⟩
        | some r => exact ⟨hd.trans (.updateScore _ .comment r), rfl⟩
      · exact ⟨.refl db, rfl⟩

end CommentsController

section Run

variable (P : Platform)

theorem comments_frame (contents : List String) {me id : ℕ} {db : Db} {r : Request} (hm : db.users.has me = true)
    (hr : db.requests.get? id = some r) (ha : r.workflowState = .active) :
    CommentFrame db (Transition.run (step P) db (contents.map (.createComment me id))) ∧
      (Transition.run (step P) db (contents.map (.createComment me id))).requestUsers =
        if contents.any storable then db.requestUsers.ensure ⟨id, me⟩ else db.requestUsers := by
  induction contents generalizing db r with
  | nil => exact ⟨.refl db, rfl⟩
  | cons content contents ih =>
    obtain ⟨hf, hu⟩ := CommentsController.create_frame hm hr ha content
    obtain ⟨r', hr', ha'⟩ := hf.active hr ha
    have hm' : (step P db (.createComment me id content)).users.has me = true := hf.users ▸ hm
    obtain ⟨hrest, husers⟩ := ih hm' hr' ha'
    refine ⟨hf.trans hrest, husers.trans ?_⟩
    rw [List.any_cons]
    change ite _ (Table.ensure (CommentsController.create db me id content).2.1.requestUsers ⟨id, me⟩)
      (CommentsController.create db me id content).2.1.requestUsers = _
    rw [hu]
    cases storable content with
    | false => rfl
    | true =>
      -- the user is counted once, however many comments follow
      have hhas : (db.requestUsers.ensure ⟨id, me⟩).has (RequestUser.index ⟨id, me⟩) = true :=
        (Table.has_ensure _ _ _).mpr (Or.inr rfl)
      simp only [if_true, Bool.true_or, Table.ensure_of_has hhas, ite_self]

theorem deletions_frame (deletions : List (ℕ × ℕ)) (db : Db) :
    CommentFrame db (Transition.run (step P) db (deletions.map (fun d => .destroyComment d.1 d.2))) ∧
      (Transition.run (step P) db (deletions.map (fun d => .destroyComment d.1 d.2))).requestUsers =
        db.requestUsers := by
  induction deletions generalizing db with
  | nil => exact ⟨.refl db, rfl⟩
  | cons d deletions ih =>
    obtain ⟨hf, hu⟩ := CommentsController.destroy_frame db d.1 d.2
    obtain ⟨hrest, husers⟩ := ih (step P db (.destroyComment d.1 d.2))
    exact ⟨hf.trans hrest, husers.trans hu⟩

end Run

/-- Comments of one user on one request, then deletions, each by its own user. -/
def commentsThenDeletions (me request : ℕ) (contents : List String) (deletions : List (ℕ × ℕ)) : List Op :=
  contents.map (.createComment me request) ++ deletions.map (fun d => .destroyComment d.1 d.2)

theorem Reachable.run {P : Platform} {db : Db} (h : Reachable P db) (ops : List Op) :
    Reachable P (Transition.run (Blnkk.step P) db ops) :=
  Transition.run_invariant (Blnkk.step P) (I := Reachable P) (fun _ op hdb => hdb.step op) db h ops

/-- Deletions restore the columns exactly for a user who was counted before, or
who has written nothing. -/
theorem columns_restored_iff {P : Platform} {db : Db} (h : Reachable P db) {r : Request} (hr : r ∈ db.requests.rows)
    (ha : r.workflowState = .active) {me : ℕ} (hm : db.users.has me = true) (contents : List String)
    (deletions : List (ℕ × ℕ)) :
    (∃ r' ∈ (Transition.run (step P) db (commentsThenDeletions me r.id contents deletions)).requests.rows,
      r'.id = r.id ∧ r'.commentCount = r.commentCount ∧ r'.rawScore = r.rawScore ∧ r'.score = r.score) ↔
      (db.requestUsers.has (r.id, me) = true ∨ ∀ content ∈ contents, storable content = false) := by
  have hget : db.requests.get? r.id = some r := Table.get?_of_mem hr
  obtain ⟨hf, hu⟩ := comments_frame P contents hm hget ha
  obtain ⟨hf', hu'⟩ := deletions_frame P deletions (Transition.run (step P) db (contents.map (.createComment me r.id)))
  have hframe := hf.trans hf'
  have husers := hu'.trans hu
  have hs' := (h.run (commentsThenDeletions me r.id contents deletions)).scores
  rw [← Transition.run_append] at hframe husers
  change CommentFrame db (Transition.run (step P) db (commentsThenDeletions me r.id contents deletions)) at hframe
  change (Transition.run (step P) db (commentsThenDeletions me r.id contents deletions)).requestUsers = _ at husers
  generalize Transition.run (step P) db (commentsThenDeletions me r.id contents deletions) = db' at *
  obtain ⟨r', hget', -⟩ := hframe.active hget ha
  have hcount : db'.requestUsersCount r.id = db.requestUsersCount r.id +
      if contents.any storable = true ∧ ¬ db.requestUsers.has (r.id, me) = true then 1 else 0 := by
    have hjoined := requestUsersCount_joined db r.id me
    simp only [Db.requestUsersCount] at hjoined ⊢
    rw [husers]
    by_cases hany : contents.any storable = true
    · rw [if_pos hany, hjoined]
      by_cases hhas : db.requestUsers.has (r.id, me) = true <;> simp [hany, hhas]
    · rw [if_neg hany]
      simp [hany]
  have hcolumns := hframe.columns_iff h.scores hs' hget hget'
  have hblank : (∀ content ∈ contents, storable content = false) ↔ ¬ contents.any storable = true := by
    simp
  rw [hblank]
  constructor
  · rintro ⟨row, hrow, hid, hsame⟩
    have hrow' : db'.requests.get? r.id = some row := hid ▸ Table.get?_of_mem hrow
    rw [hget', Option.some_inj] at hrow'
    subst hrow'
    have hkept := hcolumns.mp hsame
    by_contra hno
    rw [not_or, not_not] at hno
    rw [hcount, if_pos ⟨hno.2, hno.1⟩] at hkept
    omega
  · intro hor
    refine ⟨r', Table.get?_mem hget', Table.get?_key hget', hcolumns.mpr ?_⟩
    rw [hcount, if_neg, add_zero]
    rintro ⟨hany, hhas⟩
    exact hor.elim hhas (fun hno => hno hany)

section Counted

open ConversationsSocket

variable {P : Platform} {db : Db}

/-- The operation by which `me` comments on the request or writes to its author about it. -/
def Op.Approaches (db : Db) (me id : ℕ) : Op → Prop
  | .createComment user request content =>
    user = me ∧ request = id ∧ (CommentsController.create db user request content).1 = .created
  | .postMessage _ _ user payload =>
    user = me ∧ db.users.has user = true ∧ ∃ r, payload.request? db user = some r ∧ r.id = id
  | _ => False

theorem announce_requestUsers (now me c : ℕ) (request : Option Request) {k : ℕ × ℕ}
    (h : (announce P db now me c request).1.requestUsers.has k = true) :
    db.requestUsers.has k = true ∨ ∃ r, request = some r ∧ k = (r.id, me) := by
  rcases announce_cases P db now me c request with ha | ⟨r, rfl, ha⟩
  · rw [ha] at h
    exact Or.inl h
  · simp only [ha, Db.joinRequest, Request.updateScore] at h
    rw [Table.has_ensure, (TablesKept.createMessage P db now me c true _).requestUsers] at h
    exact h.imp_right (fun he => ⟨r, rfl, he.symm⟩)

theorem ConversationsSocket.Payload.Reaches.requestUsers {base : Db} {now me c : ℕ} {payload : Payload} {isNew : Bool}
    (h : payload.Reaches db now me base c isNew) : base.requestUsers = db.requestUsers := by
  cases h with
  | existing c hex => rfl
  | fresh t created hex hpartner hne hcreated =>
    obtain ⟨-, table, rfl, -⟩ := createConversation_ok hcreated
    rfl

theorem postMessage_requestUsers (hc : Consistent db) (now : ℕ) (online : List ℕ) {me : ℕ}
    (hm : db.users.has me = true) (payload : Payload) {k : ℕ × ℕ}
    (h : (postMessage P db now online me payload).1.requestUsers.has k = true) :
    db.requestUsers.has k = true ∨ ∃ r, payload.request? db me = some r ∧ k = (r.id, me) := by
  have hout := postMessage_outcome P hc now online hm payload
  generalize postMessage P db now online me payload = result at hout h
  cases hout with
  | refused answer hex hpartner hanswer => exact Or.inl h
  | half left hex hpartner hleft =>
    obtain ⟨t, rfl, -⟩ := createConversation_error hleft
    exact Or.inl h
  | stopped base c isNew answer hreach haccepted hanswer =>
    rw [← hreach.requestUsers]
    exact announce_requestUsers now me c _ h
  | delivered base c isNew part created hreach haccepted hcreated =>
    have hmailed := deliver_relation (R := TablesKept) .refl .trans
      (fun db user => .notifyByEmail db c user created.1) online me isNew
      (announce P base now me c (payload.request? db me)).2 (created.2.participants c) created.2 []
    have hstored := TablesKept.createMessage P (announce P base now me c (payload.request? db me)).1 now me c false
      part.text
    rw [hcreated] at hstored
    simp only [(hstored.trans hmailed).requestUsers] at h
    rw [← hreach.requestUsers]
    exact announce_requestUsers now me c _ h

/-- Who comes to be counted by an operation has posted the request, commented on
it or written to its author about it. -/
theorem counted_cases (hc : Consistent db) (op : Op) {me id : ℕ}
    (h : (step P db op).requestUsers.has (id, me) = true) :
    db.requestUsers.has (id, me) = true ∨ op.Approaches db me id ∨ (id, me) ∈ (step P db op).requestAuthors := by
  cases hj : op.joins with
  | false =>
    rw [step_requestUsers P db hj] at h
    exact Or.inl h
  | true =>
    cases op with
    | createRequest user subject content reward =>
      rcases RequestsController.create_cases P db user subject content reward with hcreate | ⟨-, hcreate⟩
      · rw [step, hcreate] at h
        exact Or.inl h
      · rw [step, hcreate] at h ⊢
        rcases (Table.has_ensure _ _ _).mp h with hold | hnew
        · exact Or.inl hold
        · right; right
          change _ ∈ (RequestsController.post db user subject (P.sanitizeField content)
            (reward.map P.sanitizeField)).requestAuthors
          rw [requestAuthors_post]
          exact List.mem_append_right _ (List.mem_singleton.mpr hnew.symm)
    | createComment user request content =>
      rcases CommentsController.create_cases db user request content with ⟨r, -, hr, he⟩ | ⟨-, he⟩
      · rw [step, he] at h
        refine ((Table.has_ensure _ _ _).mp h).imp_right (fun hnew => Or.inl ?_)
        obtain ⟨hid, hme⟩ := Prod.mk.inj hnew
        exact ⟨hme, (Table.get?_key hr).symm.trans hid, by rw [he]⟩
      · rw [step, he] at h
        exact Or.inl h
    | postMessage now online user payload =>
      by_cases hu : db.users.has user = true
      · refine (postMessage_requestUsers hc now online hu payload h).imp_right (fun hnew => Or.inl ?_)
        obtain ⟨r, hr, hk⟩ := hnew
        obtain ⟨hid, hme⟩ := Prod.mk.inj hk
        exact ⟨hme.symm, hu, r, hr, hid.symm⟩
      · rw [step, postMessage_unknown P now online (Bool.eq_false_iff.mpr hu) payload] at h
        exact Or.inl h
    | _ => cases hj

/-- Who has never approached a request of somebody else is not counted at it. -/
theorem not_counted (settings : Settings) (history : List Op) {me id : ℕ}
    (hnever : Transition.Meets (step P) (fun db op => ¬ op.Approaches db me id) (Db.new settings) history)
    (hauthor : (id, me) ∉ (Transition.run (step P) (Db.new settings) history).requestAuthors) :
    (Transition.run (step P) (Db.new settings) history).requestUsers.has (id, me) = false := by
  have hinv := Transition.invariant_of_meets (step P)
    (I := fun db => Consistent db ∧ (db.requestUsers.has (id, me) = true → (id, me) ∈ db.requestAuthors))
    (Q := fun db op => ¬ op.Approaches db me id) (fun db op hq hdb => ?_) (Db.new settings)
    ⟨consistent_new settings, fun hhas => by cases hhas⟩ history hnever history.length
  · rw [List.take_length] at hinv
    exact Bool.eq_false_iff.mpr (fun hhas => hauthor (hinv.2 hhas))
  · have hchanges := step_changes P db op
    refine ⟨hchanges.invariant (fun _ _ => Change.consistent) hdb.1, fun hhas => ?_⟩
    rcases counted_cases hdb.1 op hhas with hold | happroach | hnew
    · exact hchanges.extends.requests _ (hdb.2 hold)
    · exact absurd happroach hq
    · exact hnew

end Counted

/-- The deletions leave a newcomer counted: the columns are restored exactly when
no comment was written. -/
theorem comments_undone_iff (P : Platform) (settings : Settings) (history : List Op) (r : Request)
    (hr : r ∈ (Transition.run (step P) (Db.new settings) history).requests.rows) (ha : r.workflowState = .active)
    (me : ℕ) (hm : (Transition.run (step P) (Db.new settings) history).users.has me = true) (hauthor : r.userId ≠ me)
    (hnever : Transition.Meets (step P) (fun db op => ¬ op.Approaches db me r.id) (Db.new settings) history)
    (contents : List String) (deletions : List (ℕ × ℕ)) :
    (∃ r' ∈ (Transition.run (step P) (Db.new settings)
        (history ++ commentsThenDeletions me r.id contents deletions)).requests.rows,
      r'.id = r.id ∧ r'.commentCount = r.commentCount ∧ r'.rawScore = r.rawScore ∧ r'.score = r.score) ↔
      ∀ content ∈ contents, storable content = false := by
  have hnew : (r.id, me) ∉ (Transition.run (step P) (Db.new settings) history).requestAuthors := by
    intro hmem
    obtain ⟨row, hrow, he⟩ := List.mem_map.mp hmem
    obtain ⟨hid, hu⟩ := Prod.mk.inj he
    have hsame := Table.get?_of_mem hrow
    rw [hid, Table.get?_of_mem hr, Option.some_inj] at hsame
    exact hauthor (hsame ▸ hu)
  have hrestored := columns_restored_iff ⟨settings, history, rfl⟩ hr ha hm contents deletions
  rw [not_counted settings history hnever hnew] at hrestored
  rw [Transition.run_append, hrestored]
  simp

def bikeWanted : List Op :=
  [.signUp "ann@blnkk.com" "ann", .signUp "bob@blnkk.com" "bob", .createRequest 1 "bike" "wanted" none]

theorem blank_comment_leaves_no_trace :
    ∃ r' ∈ (Transition.run (step .plain) (Db.new {})
        (bikeWanted ++ commentsThenDeletions 2 1 [" "] [(2, 1)])).requests.rows, r'.id = 1 ∧ r'.commentCount = 0 := by
  have hrow : ∃ r ∈ (Transition.run (step .plain) (Db.new {}) bikeWanted).requests.rows,
      r.id = 1 ∧ r.userId ≠ 2 ∧ r.workflowState = .active ∧ r.commentCount = 0 := by decide +kernel
  obtain ⟨r, hr, hid, hauthor, ha, hcount⟩ := hrow
  have hm : (Transition.run (step .plain) (Db.new {}) bikeWanted).users.has 2 = true := by decide +kernel
  have hnever : Transition.Meets (step .plain) (fun db op => ¬ op.Approaches db 2 r.id) (Db.new {}) bikeWanted :=
    ⟨id, id, id, trivial⟩
  have hrestored := (comments_undone_iff .plain {} bikeWanted r hr ha 2 hm hauthor hnever [" "] [(2, 1)]).mpr
    (by decide)
  rw [hid, hcount] at hrestored
  obtain ⟨r', hr', hid', hcount', -⟩ := hrestored
  exact ⟨r', hr', hid', hcount'⟩

/-- One comment, deleted by its author, counts for ever. -/
theorem deleted_comment_still_counts :
    (∃ r ∈ (Transition.run (step .plain) (Db.new {}) bikeWanted).requests.rows,
      r.id = 1 ∧ r.userId ≠ 2 ∧ r.workflowState = .active ∧ r.commentCount = 0 ∧ r.rawScore = 0 ∧ r.score = 1) ∧
    Transition.Meets (step .plain) (fun db op => ¬ op.Approaches db 2 1) (Db.new {}) bikeWanted ∧
    (∀ c ∈ (Transition.run (step .plain) (Db.new {})
      (bikeWanted ++ commentsThenDeletions 2 1 ["mine"] [(2, 1)])).comments.rows, c.enabled = false) ∧
    ∃ r ∈ (Transition.run (step .plain) (Db.new {})
        (bikeWanted ++ commentsThenDeletions 2 1 ["mine"] [(2, 1)])).requests.rows,
      r.id = 1 ∧ r.commentCount = 1 ∧ r.rawScore = 2 ∧ r.score = 2 := by
  refine ⟨by decide +kernel, ⟨id, id, id, trivial⟩, by decide +kernel, by decide +kernel⟩

end Blnkk
