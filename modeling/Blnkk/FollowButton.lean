import Blnkk.KeptTables
import Blnkk.LedgerInvariant
import Blnkk.OwnConversations

/-!
The buttons that follow a user, on any number of cards of a page, and the number
of users one follows, which the browser keeps by itself in
`session.user.following_count`.
-/

namespace Blnkk

open Relational Transition

structure UserCard where
  userId : ℕ
  -- neither `undefined` nor `null` counts as a rating
  userRating : Option ℤ := none
  followerCount : ℤ := 0
  isRating : Bool := false
  deriving DecidableEq

structure FollowRequest where
  card : ℕ
  userId : ℕ
  oldRating : ℤ
  newRating : ℤ
  deriving DecidableEq

structure FollowPage where
  db : Db
  followingCount : ℤ
  cards : List UserCard := []
  requests : List FollowRequest := []
  -- with the number of followers, unless the answer is an error
  responses : List (FollowRequest × Option ℤ) := []

def Op.follower? : Op → Option ℕ
  | .rateUser me _ _ => some me
  | _ => none

/-- A rating is loaded into a card with `populate`. The positions tell which of
the requests under way is handled and which of the responses comes in. Whatever
else happens, the user follows and unfollows on this page only. -/
inductive FollowEvent (me : ℕ) where
  | display (userId : ℕ) (followerCount : ℤ)
  | populate (card : ℕ) (rating : Option ℤ)
  | press (card : ℕ) (confirmed : Bool)
  | handle (i : ℕ)
  | receive (i : ℕ)
  | elsewhere (op : { op : Op // op.follower? ≠ some me })

/-- What is saved before the alert raises stays saved. -/
def UsersController.rate (db : Db) (me id : ℕ) (rating : Param) : Option ℤ × Db :=
  if db.users.has me && db.users.has id then
    let result := User.rate db id me rating
    (if result.errors.isEmpty && !result.raised then some (result.db.likersCount (.user id)) else none, result.db)
  else (none, db)

theorem UsersController.rate_db (db : Db) (me id : ℕ) (rating : Param) :
    (UsersController.rate db me id rating).2 = db.rateUser me id rating := by
  unfold UsersController.rate Db.rateUser
  split_ifs <;> rfl

namespace FollowPage

variable (P : Platform) (me : ℕ) (w : FollowPage)

def rateUser (card : ℕ) (newRating : ℤ) (confirmed : Bool) : FollowPage :=
  match w.cards[card]? with
  | none => w
  | some c =>
    let oldRating := c.userRating.getD 0
    if oldRating = newRating || (newRating != 1 && !confirmed) then w
    else
      { w with
        cards := w.cards.set card { c with isRating := true }
        requests := w.requests ++ [⟨card, c.userId, oldRating, newRating⟩] }

/-- The button is disabled while a rating of the card is under way. -/
def press (card : ℕ) (confirmed : Bool) : FollowPage :=
  match w.cards[card]? with
  | none => w
  | some c => if c.isRating then w else w.rateUser card (if c.userRating = some 1 then 0 else 1) confirmed

def handle (i : ℕ) : FollowPage :=
  match w.requests[i]? with
  | none => w
  | some r =>
    let result := UsersController.rate w.db me r.userId (.int r.newRating)
    { w with db := result.2, requests := w.requests.eraseIdx i, responses := w.responses ++ [(r, result.1)] }

def receive (i : ℕ) : FollowPage :=
  match w.responses[i]? with
  | none => w
  | some (r, some followerCount) =>
    { w with
      cards := w.cards.modify r.card (fun c =>
        { c with followerCount, userRating := some r.newRating, isRating := false })
      followingCount := w.followingCount + (r.newRating - r.oldRating)
      responses := w.responses.eraseIdx i }
  | some (r, none) =>
    { w with
      cards := w.cards.modify r.card (fun c => { c with isRating := false })
      responses := w.responses.eraseIdx i }

def step : FollowEvent me → FollowPage
  | .display userId followerCount => { w with cards := w.cards ++ [{ userId, followerCount }] }
  | .populate card rating => { w with cards := w.cards.modify card (fun c => { c with userRating := rating }) }
  | .press card confirmed => w.press card confirmed
  | .handle i => w.handle me i
  | .receive i => w.receive i
  | .elsewhere op => { w with db := Blnkk.step P w.db op }

end FollowPage

/-- What the answer to a request adds to the number in the browser. -/
def FollowRequest.credit (r : FollowRequest) (answer : Option ℤ) : ℤ :=
  if answer.isSome then r.newRating - r.oldRating else 0

def FollowPage.owed (w : FollowPage) : ℤ := (w.responses.map (fun response => response.1.credit response.2)).sum

/-- Whether the user is followed, as a number. -/
def Db.follows (db : Db) (me id : ℕ) : ℤ := if db.ratingOf me (.user id) = some 1 then 1 else 0

/-- The card showed whether the user is followed, and a request that fails has
changed nothing about it. -/
def FollowRequest.Informed (db : Db) (me : ℕ) (r : FollowRequest) : Prop :=
  let result := UsersController.rate db me r.userId (.int r.newRating)
  if result.1.isSome then r.oldRating = db.follows me r.userId
  else result.2.follows me r.userId = db.follows me r.userId

instance (db : Db) (me : ℕ) (r : FollowRequest) : Decidable (r.Informed db me) :=
  inferInstanceAs (Decidable (if (UsersController.rate db me r.userId (.int r.newRating)).1.isSome then
    r.oldRating = db.follows me r.userId
  else (UsersController.rate db me r.userId (.int r.newRating)).2.follows me r.userId = db.follows me r.userId))

def FollowEvent.Informed (me : ℕ) (w : FollowPage) : FollowEvent me → Prop
  | .handle i => ∀ r ∈ w.requests[i]?, r.Informed w.db me
  | _ => True

instance FollowEvent.Informed.decidable (me : ℕ) (w : FollowPage) : ∀ e, Decidable (FollowEvent.Informed me w e)
  | .handle i => inferInstanceAs (Decidable (∀ r ∈ w.requests[i]?, r.Informed w.db me))
  | .display .. | .populate .. | .press .. | .receive _ | .elsewhere _ => inferInstanceAs (Decidable True)

section Server

variable {P : Platform} {db db' : Db} {me : ℕ}

theorem followingCount_of_ratings (h : db'.ratings = db.ratings) (k : ℕ) :
    db'.followingCount k = db.followingCount k := by
  rw [Db.followingCount, h, Db.followingCount]

theorem followingCount_save (id : ℕ) (v : ℤ) :
    (db.saveRating me (.user id) v).followingCount me =
      db.followingCount me + ((if v = 1 then 1 else 0) - db.follows me id) := by
  unfold Db.followingCount
  rw [Table.intCount_eq_sum, Table.intCount_eq_sum, Db.sum_saveRating, Db.follows, Db.ratingOf]
  congr 1
  cases h : db.ratings.get? (me, .user id) with
  | none => simp [Rateable.isUser]
  | some r =>
    have hi := Table.get?_key h
    simp only [Rating.index, Prod.mk.injEq] at hi
    simp [hi.1, hi.2, Rateable.isUser]

theorem follows_save (id : ℕ) (v : ℤ) :
    (db.saveRating me (.user id) v).follows me id = if v = 1 then 1 else 0 := by
  simp [Db.follows, Db.ratingOf, Db.get?_saveRating]

theorem follows_of_ratings (h : db'.ratings = db.ratings) (k id : ℕ) : db'.follows k id = db.follows k id := by
  rw [Db.follows, Db.ratingOf, h, Db.follows, Db.ratingOf]

theorem rated_followingCount {mid : Db} {user : ℕ} {q : Rateable} {v : ℤ} {f : ℕ → User → User} {k : ℕ}
    (hm : MapsUsers mid db' f) (hr : mid.ratings = (db.saveRating user q v).ratings) (hq : q.isUser = false ∨ user ≠ k) :
    db'.followingCount k = db.followingCount k :=
  (followingCount_of_ratings (hm.ratings.trans hr) k).trans (followingCount_saved db user q v k hq)

theorem userRate_followingCount (db : Db) (self user : ℕ) (rating : Param) {k : ℕ} (h : user ≠ k) :
    (User.rate db self user rating).db.followingCount k = db.followingCount k := by
  unfold User.rate
  cases db.assignRating user (.user self) rating with
  | error errors => rfl
  | ok v => exact rated_followingCount (User.rated_maps db self user v) rfl (Or.inr h)

theorem autoFollow_followingCount {k : ℕ} {inviters : List ℕ} (h : autoFollow me inviters db = some db') (hne : me ≠ k) :
    db'.followingCount k = db.followingCount k := by
  induction inviters generalizing db with
  | nil =>
    cases h
    rfl
  | cons inviter rest ih =>
    simp only [autoFollow] at h
    split_ifs at h
    rw [ih h, userRate_followingCount db inviter me (.int 1) hne]

theorem followingCount_step (hme : db.users.has me = true) {op : Op} (hop : op.follower? ≠ some me) :
    (step P db op).followingCount me = db.followingCount me := by
  cases hr : op.rates with
  | false => exact followingCount_of_ratings (step_ratings P db hr) me
  | true =>
    cases op with
    | signUp email name =>
      simp only [step, signUp]
      cases h : createUser P db email name with
      | error failure => rfl
      | ok created =>
        obtain ⟨-, -, -, -, hf⟩ := createUser_ok h
        have hne : db.users.fresh ≠ me := by
          rintro rfl
          rw [db.users.has_fresh] at hme
          cases hme
        have hkept : created.2.followingCount me = _ := autoFollow_followingCount hf hne
        exact hkept
    | rateUser other id rating =>
      simp only [step, Db.rateUser]
      split_ifs
      · exact userRate_followingCount db id other rating (fun he => hop (congrArg some he))
      · rfl
    | rateRequest other id rating =>
      simp only [step, Db.rateRequest]
      cases db.requests.get? id with
      | none => rfl
      | some row =>
        simp only
        split_ifs
        · unfold Request.rate
          cases db.assignRating other (.request row.id) rating with
          | error errors => rfl
          | ok v => exact rated_followingCount (Request.rated_maps db row other v) rfl (Or.inl rfl)
        · rfl
    | rateComment other id rating =>
      simp only [step, Db.rateComment]
      cases db.comments.get? id with
      | none => rfl
      | some row =>
        simp only
        split_ifs
        · unfold Comment.rate
          cases db.assignRating other (.comment row.id) rating with
          | error errors => rfl
          | ok v => exact rated_followingCount (Comment.rated_maps db row other v) rfl (Or.inl rfl)
        · rfl
    | rateConversation other id rating =>
      simp only [step, Db.rateConversation]
      cases db.conversations.get? id with
      | none => rfl
      | some row =>
        simp only
        split_ifs
        · unfold Conversation.rate
          cases db.assignRating other (.conversation row.id) rating with
          | error errors => rfl
          | ok v => exact rated_followingCount (Conversation.rated_maps db row other v) rfl (Or.inl rfl)
        · rfl
    | _ => cases hr

theorem rate_followingCount (db : Db) (me id : ℕ) (rating : Param) :
    (UsersController.rate db me id rating).2.followingCount me = db.followingCount me +
      ((UsersController.rate db me id rating).2.follows me id - db.follows me id) := by
  rw [UsersController.rate_db, Db.rateUser]
  split_ifs
  · unfold User.rate
    cases db.assignRating me (.user id) rating with
    | error errors => simp
    | ok v =>
      have hm := User.rated_maps db id me v
      simp only
      rw [followingCount_of_ratings hm.ratings, follows_of_ratings hm.ratings, followingCount_save, follows_save]
  · simp

theorem rate_follows {db : Db} {me id : ℕ} {v : ℤ} (hv : v = 0 ∨ v = 1)
    (h : (UsersController.rate db me id (.int v)).1.isSome = true) :
    (UsersController.rate db me id (.int v)).2.follows me id = v := by
  unfold UsersController.rate at h ⊢
  split_ifs at h ⊢ with hboth
  · unfold User.rate at h ⊢
    cases ha : db.assignRating me (.user id) (.int v) with
    | error errors =>
      rw [ha] at h
      have herrors : errors ≠ [] := by
        rintro rfl
        rw [Db.assignRating, Db.validateRating, Param.toInteger] at ha
        split at ha
        next => cases ha
        next hne => exact hne v rfl (Except.error.inj ha)
      simp [herrors] at h
    | ok v' =>
      obtain ⟨hv', -⟩ := assignRating_ok ha
      cases hv'
      rw [follows_of_ratings (User.rated_maps db id me v).ratings, follows_save]
      rcases hv with rfl | rfl <;> rfl
  · cases h

end Server

namespace FollowPage

variable {P : Platform} {me : ℕ} {w : FollowPage}

/-- The number in the browser, with what the responses under way will add to it,
is the one on the server. -/
def Agrees (me : ℕ) (w : FollowPage) : Prop := w.followingCount + w.owed = w.db.followingCount me

structure Sound (P : Platform) (me : ℕ) (w : FollowPage) : Prop where
  reachable : Reachable P w.db
  user : w.db.users.has me = true
  toggles : ∀ r ∈ w.requests, r.newRating = 0 ∨ r.newRating = 1

theorem press_cases (w : FollowPage) (card : ℕ) (confirmed : Bool) :
    w.press card confirmed = w ∨ ∃ cards r, (r.newRating = 0 ∨ r.newRating = 1) ∧
      w.press card confirmed = { w with cards, requests := w.requests ++ [r] } := by
  unfold FollowPage.press
  cases hc : w.cards[card]? with
  | none => exact Or.inl rfl
  | some c =>
    have htoggle : (if c.userRating = some 1 then 0 else 1 : ℤ) = 0 ∨ (if c.userRating = some 1 then 0 else 1 : ℤ) = 1 := by
      split_ifs <;> simp
    simp only [rateUser, hc]
    generalize (if c.userRating = some 1 then 0 else 1 : ℤ) = newRating at htoggle ⊢
    split_ifs
    · exact Or.inl rfl
    · exact Or.inl rfl
    · exact Or.inr ⟨_, _, htoggle, rfl⟩

theorem Sound.press (h : Sound P me w) (card : ℕ) (confirmed : Bool) : Sound P me (w.press card confirmed) := by
  rcases w.press_cases card confirmed with hp | ⟨cards, r, hr, hp⟩
  · rw [hp]
    exact h
  · rw [hp]
    refine ⟨h.reachable, h.user, List.forall_mem_append.mpr ⟨h.toggles, ?_⟩⟩
    exact List.forall_mem_singleton.mpr hr

theorem Sound.of_op (h : Sound P me w) (op : Op) {w' : FollowPage} (hdb : w'.db = Blnkk.step P w.db op)
    (hr : w'.requests ⊆ w.requests) : Sound P me w' where
  reachable := hdb ▸ h.reachable.step op
  user := hdb ▸ (step_changes P w.db op).extends.users _ h.user
  toggles r hin := h.toggles r (hr hin)

theorem Sound.step (h : Sound P me w) (e : FollowEvent me) : Sound P me (step P me w e) := by
  cases e with
  | display userId followerCount => exact ⟨h.reachable, h.user, h.toggles⟩
  | populate card rating => exact ⟨h.reachable, h.user, h.toggles⟩
  | press card confirmed => exact h.press card confirmed
  | handle i =>
    simp only [FollowPage.step, handle]
    cases hr : w.requests[i]? with
    | none => exact h
    | some r =>
      exact h.of_op (.rateUser me r.userId (.int r.newRating)) (UsersController.rate_db ..) (List.eraseIdx_subset ..)
  | receive i =>
    simp only [FollowPage.step, receive]
    split
    · exact h
    · exact ⟨h.reachable, h.user, h.toggles⟩
    · exact ⟨h.reachable, h.user, h.toggles⟩
  | elsewhere op => exact h.of_op op rfl (List.Subset.refl _)

theorem agrees_handle_iff (h : Sound P me w) (hagrees : Agrees me w) {i : ℕ} {r : FollowRequest}
    (hr : w.requests[i]? = some r) : Agrees me (w.handle me i) ↔ r.Informed w.db me := by
  have hcount := rate_followingCount w.db me r.userId (.int r.newRating)
  have htoggle := h.toggles r (List.mem_of_getElem? hr)
  simp only [Agrees, handle, hr, owed, List.map_append, List.map_cons, List.map_nil, List.sum_append, List.sum_cons,
    List.sum_nil, FollowRequest.credit, FollowRequest.Informed, hcount] at hagrees ⊢
  split_ifs with hanswer
  · rw [rate_follows htoggle hanswer]
    constructor
    · intro heq
      omega
    · intro heq
      omega
  · constructor
    · intro heq
      omega
    · intro heq
      omega

theorem owed_erase {i : ℕ} {response : FollowRequest × Option ℤ} (h : w.responses[i]? = some response) :
    w.owed = response.1.credit response.2 +
      ((w.responses.eraseIdx i).map (fun response => response.1.credit response.2)).sum := by
  obtain ⟨hi, rfl⟩ := List.getElem?_eq_some_iff.mp h
  have hperm := (List.getElem_cons_eraseIdx_perm hi).map (fun response => response.1.credit response.2)
  rw [owed, ← hperm.sum_eq, List.map_cons, List.sum_cons]

theorem agrees_receive (hagrees : Agrees me w) (i : ℕ) : Agrees me (w.receive i) := by
  unfold receive
  cases hr : w.responses[i]? with
  | none => exact hagrees
  | some response =>
    have howed := owed_erase hr
    obtain ⟨r, answer⟩ := response
    cases answer with
    | some followerCount =>
      simp only [Agrees, owed, FollowRequest.credit] at hagrees howed ⊢
      simp at howed
      omega
    | none =>
      simp only [Agrees, owed, FollowRequest.credit] at hagrees howed ⊢
      simp at howed
      omega

theorem agrees_step_iff (h : Sound P me w) (hagrees : Agrees me w) (e : FollowEvent me) :
    Agrees me (step P me w e) ↔ e.Informed me w := by
  cases e with
  | display userId followerCount => exact iff_of_true hagrees trivial
  | populate card rating => exact iff_of_true hagrees trivial
  | press card confirmed =>
    refine iff_of_true ?_ trivial
    rw [step]
    rcases w.press_cases card confirmed with hp | ⟨cards, r, -, hp⟩ <;> rw [hp] <;> exact hagrees
  | handle i =>
    simp only [step, FollowEvent.Informed]
    cases hr : w.requests[i]? with
    | none =>
      simp only [handle, hr]
      exact iff_of_true hagrees (by simp)
    | some r =>
      rw [agrees_handle_iff h hagrees hr]
      simp
  | receive i => exact iff_of_true (agrees_receive hagrees i) trivial
  | elsewhere op => exact iff_of_true (hagrees.trans (followingCount_step h.user op.2).symm) trivial

theorem agrees_iff_stored (h : Sound P me w) :
    (∀ v, w.db.users.get? me = some v → w.followingCount + w.owed = v.followingCount) ↔ Agrees me w := by
  constructor
  · intro hall
    obtain ⟨v, hv⟩ := Option.isSome_iff_exists.mp h.user
    exact (hall v hv).trans (h.reachable.ledger me v hv).followingCount
  · intro hagrees v hv
    exact hagrees.trans (h.reachable.ledger me v hv).followingCount.symm

end FollowPage

theorem following_number_agrees_iff (P : Platform) (me : ℕ) (db : Db) (hdb : Reachable P db) (u : User)
    (hu : db.users.get? me = some u) (events : List (FollowEvent me)) :
    (∀ n, let w := run (FollowPage.step P me) { db, followingCount := u.followingCount } (events.take n)
      ∀ v, w.db.users.get? me = some v → w.followingCount + w.owed = v.followingCount) ↔
      Meets (FollowPage.step P me) (FollowEvent.Informed me) { db, followingCount := u.followingCount } events := by
  have hsound : FollowPage.Sound P me { db, followingCount := u.followingCount } :=
    ⟨hdb, Option.isSome_iff_exists.mpr ⟨u, hu⟩, List.forall_mem_nil _⟩
  have hstart : FollowPage.Agrees me { db, followingCount := u.followingCount } :=
    (add_zero _).trans (hdb.ledger me u hu).followingCount
  have hall := forall_states_iff_meets_of_invariant (FollowPage.step P me) (I := FollowPage.Agrees me)
    (J := FollowPage.Sound P me) (fun _ e h => h.step e) (fun _ e h hagrees => FollowPage.agrees_step_iff h hagrees e)
    _ hsound hstart events
  refine Iff.trans (forall_congr' (fun n => ?_)) hall
  exact FollowPage.agrees_iff_stored (run_invariant _ (fun _ e h => h.step e) _ hsound _)

/-- Bob is shown on two cards, and nothing tells the second one that the first
has been pressed. -/
def annFollowsTwice : List (FollowEvent 1) :=
  [.display 2 0, .display 2 0, .press 0 true, .elsewhere ⟨.rateUser 2 1 (.int 1), by decide⟩, .handle 0, .receive 0,
    .press 1 true, .handle 0, .receive 0]

theorem ann_follows_twice :
    ∃ u, annWroteToBob.users.get? 1 = some u ∧
      let page : FollowPage := { db := annWroteToBob, followingCount := u.followingCount }
      (¬ ∀ n, let w := run (FollowPage.step .plain 1) page (annFollowsTwice.take n)
        ∀ v, w.db.users.get? 1 = some v → w.followingCount + w.owed = v.followingCount) ∧
      ∀ n, let w := run (FollowPage.step .plain 1) page ((annFollowsTwice.take 7).take n)
        ∀ v, w.db.users.get? 1 = some v → w.followingCount + w.owed = v.followingCount := by
  have hmeets : ∃ u ∈ annWroteToBob.users.get? 1,
      ¬ Meets (FollowPage.step .plain 1) (FollowEvent.Informed 1)
        { db := annWroteToBob, followingCount := u.followingCount } annFollowsTwice ∧
      Meets (FollowPage.step .plain 1) (FollowEvent.Informed 1)
        { db := annWroteToBob, followingCount := u.followingCount } (annFollowsTwice.take 7) := by decide +kernel
  obtain ⟨u, hu, hstale, hfresh⟩ := hmeets
  have hiff := following_number_agrees_iff .plain 1 annWroteToBob ⟨{}, _, rfl⟩ u hu
  exact ⟨u, hu, (hiff annFollowsTwice).not.mpr hstale, (hiff (annFollowsTwice.take 7)).mpr hfresh⟩

end Blnkk
