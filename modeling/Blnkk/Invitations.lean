import Blnkk.Posts
import Blnkk.Lib.Delivery

/-!
`UsersController#invite` and `Invitation.invite`, one statement at a time, and
that requests that overlap mail each invitation once.
-/

namespace Blnkk

open Relational

structure InvitationRow extends Invitation where
  id : ℕ
  deriving DecidableEq

abbrev InvitationRow.index (i : InvitationRow) : ℕ × String := i.toInvitation.index

inductive ContactSource where
  | manual
  | gmail
  deriving DecidableEq

structure Contact where
  userId : ℕ
  source : ContactSource
  email : String
  deriving DecidableEq

abbrev Contact.index (c : Contact) : ℕ × ContactSource × String := (c.userId, c.source, c.email)

structure SendInvitation where
  userFrom : ℕ
  emailTo : String
  nameTo : Option String
  deriving DecidableEq

structure InviteStore where
  users : Table User.id
  settings : Settings
  invitations : Table InvitationRow.index
  -- the next value of `AUTO_INCREMENT`
  nextId : ℕ
  contacts : Table Contact.index
  -- the calls of `GunMailer.send_invitation`, in order
  mailed : List SendInvitation := []

structure Receiver where
  name : Option String := none
  email : Option String
  source : Option String := none
  deriving DecidableEq

structure InviteRequest where
  session : Option ℕ
  receivers : List Receiver
  deriving DecidableEq

inductive InviteJob where
  | invite (email : String) (name : Option String)
  | contact (email : String)
  -- `downcase` of nil
  | raise
  deriving DecidableEq

def Receiver.jobs (receiver : Receiver) : List InviteJob :=
  match receiver.email with
  | none => [.raise]
  | some email =>
    let email := Text.strip (Text.downcase email)
    if receiver.source = some "manual" then
      (Text.split ',' email).flatMap (fun email => [.invite email none, .contact email])
    else [.invite email receiver.name]

inductive InviteProc where
  | start (request : InviteRequest)
  | run (me : ℕ) (jobs : List InviteJob)
  | insert (me : ℕ) (email : String) (name : Option String) (jobs : List InviteJob)
  -- `own` is the id of the new row, if `create` has inserted it
  | check (me : ℕ) (own : Option ℕ) (email : String) (name : Option String) (jobs : List InviteJob)
  | mail (me : ℕ) (email : String) (name : Option String) (jobs : List InviteJob)
  | insertContact (me : ℕ) (email : String) (jobs : List InviteJob)
  | done (status : Status)
  deriving DecidableEq

def wellFormedAddress (email : String) : Bool := Text.present email && Text.emailFormat email

namespace InviteStore

variable (P : Platform) (s : InviteStore)

/-- The validations of an invitation, which look for another row with the same
pair. The comparison of the query is binary. -/
def validInvitation (me : ℕ) (own : Option ℕ) (email : String) : Bool :=
  wellFormedAddress email &&
    !s.invitations.rows.any (fun i => decide (i.userId = me) && i.email == email && decide (some i.id ≠ own))

/-- The insert fails when the address is too long for its column. The unique
index compares under the collation of the column. -/
def insertInvitation (me : ℕ) (email : String) : Option InviteStore :=
  if stringLimit < email.length ∨ s.invitations.rows.any (fun i => decide (i.userId = me) && P.collate i.email email) then
    none
  else
    (s.invitations.insert { userId := me, email, id := s.nextId }).map
      (fun invitations => { s with invitations, nextId := s.nextId + 1 })

def validContact (me : ℕ) (email : String) : Bool :=
  wellFormedAddress email && !s.contacts.has (me, .manual, email)

def insertContact (me : ℕ) (email : String) : Option InviteStore :=
  if stringLimit < email.length ∨
      s.contacts.rows.any (fun c => decide (c.userId = me ∧ c.source = .manual) && P.collate c.email email) then none
  else (s.contacts.insert ⟨me, .manual, email⟩).map (fun contacts => { s with contacts })

def authorize (request : InviteRequest) : InviteProc :=
  match request.session.bind s.users.get? with
  | none => .done .unauthorized
  | some user =>
    if s.settings.private != some "1" || user.admin then
      if request.receivers.isEmpty then .done .unprocessableEntity
      else .run user.id (request.receivers.flatMap Receiver.jobs)
    else .done .unauthorized

end InviteStore

namespace InviteProc

variable (P : Platform) (s : InviteStore)

def next : InviteProc → InviteStore × InviteProc
  | start request => (s, s.authorize request)
  | run _ [] => (s, done .ok)
  | run _ (.raise :: _) => (s, done .internalServerError)
  | run me (.invite email name :: jobs) =>
    (s, if s.validInvitation me none email then insert me email name jobs else check me none email name jobs)
  | run me (.contact email :: jobs) => (s, if s.validContact me email then insertContact me email jobs else run me jobs)
  | insert me email name jobs =>
    match s.insertInvitation P me email with
    | none => (s, done .internalServerError)
    | some s' => (s', check me (some s.nextId) email name jobs)
  | check me own email name jobs =>
    (s, if s.validInvitation me own email then mail me email name jobs else run me jobs)
  | mail me email name jobs => ({ s with mailed := s.mailed ++ [⟨me, email, name⟩] }, run me jobs)
  | insertContact me email jobs =>
    match s.insertContact P me email with
    | none => (s, done .internalServerError)
    | some s' => (s', run me jobs)
  | done status => (s, done status)

/-- The pair whose row the request has inserted and not yet mailed. -/
def owed : InviteProc → Option (ℕ × String)
  | check me (some _) email _ _ => some (me, email)
  | mail me email _ _ => some (me, email)
  | _ => none

end InviteProc

/-- The pairs of inviter and address for which the mailer has been called. -/
def InviteStore.mailedPairs (s : InviteStore) : List (ℕ × String) := s.mailed.map (fun m => (m.userFrom, m.emailTo))

def invitationView : Delivery.View InviteStore InviteProc (ℕ × String) where
  stored s k := s.invitations.has k = true
  sent := InviteStore.mailedPairs
  owed := InviteProc.owed

abbrev InviteRun (ι : Type) := Concurrent.State InviteStore ι InviteProc

def inviteStep {ι : Type} [DecidableEq ι] (P : Platform) : InviteRun ι → ι → InviteRun ι :=
  Concurrent.step (InviteProc.next P)

def inviteStart {ι : Type} (s : InviteStore) (requests : ι → InviteRequest) : InviteRun ι :=
  ⟨{ s with mailed := [] }, fun i => .start (requests i)⟩

/-- What a request knows of the table: the check after `create` finds an
invitation valid exactly if this request has inserted it. -/
def InviteProc.Knows (s : InviteStore) : InviteProc → Prop
  | insert _ email _ _ => wellFormedAddress email = true
  | check me own email _ _ =>
    match own with
    | some id => wellFormedAddress email = true ∧ (s.invitations.get? (me, email)).map InvitationRow.id = some id
    | none => wellFormedAddress email = true → s.invitations.has (me, email) = true
  | _ => True

section Statements

variable (P : Platform) {s : InviteStore}

theorem validInvitation_own {me id : ℕ} {email : String} (hw : wellFormedAddress email = true)
    (hid : (s.invitations.get? (me, email)).map InvitationRow.id = some id) :
    s.validInvitation me (some id) email = true := by
  have hother : s.invitations.rows.any
      (fun i => decide (i.userId = me) && i.email == email && decide (some i.id ≠ some id)) = false := by
    rw [List.any_eq_false]
    intro i hi hsame
    simp only [Bool.and_eq_true, decide_eq_true_eq, beq_iff_eq] at hsame
    obtain ⟨⟨hme, hemail⟩, hne⟩ := hsame
    -- the index allows one row for the pair, and that is the own one
    have hrow := Table.get?_of_mem hi
    rw [show i.index = (me, email) from Prod.ext hme hemail] at hrow
    rw [hrow] at hid
    exact hne hid
  rw [InviteStore.validInvitation, hw, hother]
  rfl

theorem validInvitation_taken {me : ℕ} {email : String}
    (h : wellFormedAddress email = true → s.invitations.has (me, email) = true) :
    s.validInvitation me none email = false := by
  rw [InviteStore.validInvitation]
  cases hw : wellFormedAddress email with
  | false => rfl
  | true =>
    obtain ⟨i, hi, hkey⟩ := (s.invitations.has_iff _).mp (h hw)
    have hany : s.invitations.rows.any
        (fun i => decide (i.userId = me) && i.email == email && decide (some i.id ≠ none)) = true := by
      refine List.any_eq_true.mpr ⟨i, hi, ?_⟩
      have hme : i.userId = me := congrArg Prod.fst hkey
      have hemail : i.email = email := congrArg Prod.snd hkey
      simp [hme, hemail]
    rw [hany]
    rfl

theorem taken_of_not_valid {me : ℕ} {email : String} (h : ¬ s.validInvitation me none email = true)
    (hw : wellFormedAddress email = true) : s.invitations.has (me, email) = true := by
  rw [InviteStore.validInvitation, hw, Bool.true_and, Bool.not_eq_true', Bool.not_eq_false, List.any_eq_true] at h
  obtain ⟨i, hi, hsame⟩ := h
  simp only [Bool.and_eq_true, decide_eq_true_eq, beq_iff_eq] at hsame
  exact (s.invitations.has_iff _).mpr ⟨i, hi, Prod.ext hsame.1.1 hsame.1.2⟩

theorem insertInvitation_some {s' : InviteStore} {me : ℕ} {email : String} (h : s.insertInvitation P me email = some s') :
    s.invitations.get? (me, email) = none ∧ s'.mailed = s.mailed ∧
      s'.invitations.rows = s.invitations.rows ++ [{ userId := me, email, id := s.nextId }] := by
  unfold InviteStore.insertInvitation at h
  split at h
  · cases h
  · obtain ⟨t, ht, rfl⟩ := Option.map_eq_some_iff.mp h
    obtain ⟨hnone, hrows⟩ := Table.insert_eq_some ht
    exact ⟨hnone, rfl, hrows⟩

theorem insertContact_some {s' : InviteStore} {me : ℕ} {email : String} (h : s.insertContact P me email = some s') :
    s'.mailed = s.mailed ∧ s'.invitations = s.invitations := by
  unfold InviteStore.insertContact at h
  split at h
  · cases h
  · obtain ⟨t, -, rfl⟩ := Option.map_eq_some_iff.mp h
    exact ⟨rfl, rfl⟩

theorem authorize_free (request : InviteRequest) :
    (s.authorize request).owed = none ∧ (s.authorize request).Knows s := by
  unfold InviteStore.authorize
  split
  · exact ⟨rfl, trivial⟩
  · split_ifs <;> exact ⟨rfl, trivial⟩

theorem turn_keeps {p p' : InviteProc} (h : p'.owed = p.owed) : Delivery.Turn invitationView s p s p' :=
  .keeps (fun _ => Iff.rfl) rfl h

theorem next_turn {p : InviteProc} (hp : p.Knows s) : Delivery.Turn invitationView s p (p.next P s).1 (p.next P s).2 := by
  cases p with
  | start request => exact turn_keeps (authorize_free request).1
  | run me jobs =>
    match jobs with
    | [] => exact turn_keeps rfl
    | .raise :: _ => exact turn_keeps rfl
    | .invite email name :: jobs =>
      simp only [InviteProc.next]
      split <;> exact turn_keeps rfl
    | .contact email :: jobs =>
      simp only [InviteProc.next]
      split <;> exact turn_keeps rfl
  | insert me email name jobs =>
    simp only [InviteProc.next]
    cases hs : s.insertInvitation P me email with
    | none => exact turn_keeps rfl
    | some s' =>
      obtain ⟨hnone, hmailed, hrows⟩ := insertInvitation_some P hs
      refine .stores (me, email) ?_ ?_ (congrArg (List.map _) hmailed) rfl rfl
      · exact Bool.eq_false_iff.mp ((s.invitations.has_false_iff _).mpr hnone)
      · intro k
        refine (Table.has_append hrows k).trans (or_congr_right ?_)
        simp [eq_comm]
  | check me own email name jobs =>
    simp only [InviteProc.next]
    cases own with
    | some id =>
      rw [if_pos (validInvitation_own hp.1 hp.2)]
      exact turn_keeps rfl
    | none =>
      rw [if_neg (by rw [validInvitation_taken hp]; exact Bool.false_ne_true)]
      exact turn_keeps rfl
  | mail me email name jobs =>
    exact .sends (me, email) (fun _ => Iff.rfl) (List.map_append ..) rfl rfl
  | insertContact me email jobs =>
    simp only [InviteProc.next]
    cases hs : s.insertContact P me email with
    | none => exact turn_keeps rfl
    | some s' =>
      obtain ⟨hmailed, hrows⟩ := insertContact_some P hs
      have hstored : ∀ k, s'.invitations.has k = true ↔ s.invitations.has k = true := fun k => by rw [hrows]
      exact .keeps hstored (congrArg (List.map _) hmailed) rfl
  | done status => exact turn_keeps rfl

/-- Rows of the table are never removed. -/
theorem next_grows (p : InviteProc) {k : ℕ × String} {i : InvitationRow} (h : s.invitations.get? k = some i) :
    (p.next P s).1.invitations.get? k = some i := by
  cases p with
  | start request => exact h
  | run me jobs =>
    match jobs with
    | [] => exact h
    | .raise :: _ => exact h
    | .invite email name :: jobs => exact h
    | .contact email :: jobs => exact h
  | insert me email name jobs =>
    simp only [InviteProc.next]
    cases hs : s.insertInvitation P me email with
    | none => exact h
    | some s' =>
      obtain ⟨-, -, hrows⟩ := insertInvitation_some P hs
      have hkey := Table.get?_key h
      have hmem : i ∈ s'.invitations.rows := by
        rw [hrows]
        exact List.mem_append_left _ (Table.get?_mem h)
      rw [← hkey]
      exact Table.get?_of_mem hmem
  | check me own email name jobs => exact h
  | mail me email name jobs => exact h
  | insertContact me email jobs =>
    simp only [InviteProc.next]
    cases hs : s.insertContact P me email with
    | none => exact h
    | some s' =>
      obtain ⟨-, hrows⟩ := insertContact_some P hs
      simp only [hrows]
      exact h
  | done status => exact h

theorem knows_grows {s' : InviteStore}
    (hgrows : ∀ {k i}, s.invitations.get? k = some i → s'.invitations.get? k = some i) {p : InviteProc}
    (h : p.Knows s) : p.Knows s' := by
  cases p with
  | insert me email name jobs => exact h
  | check me own email name jobs =>
    cases own with
    | some id =>
      obtain ⟨i, hi, hid⟩ := Option.map_eq_some_iff.mp h.2
      exact ⟨h.1, Option.map_eq_some_iff.mpr ⟨i, hgrows hi, hid⟩⟩
    | none =>
      intro hw
      obtain ⟨i, hi⟩ := Option.isSome_iff_exists.mp (h hw)
      exact Table.has_of_get? (hgrows hi)
  | _ => trivial

theorem next_knows {p : InviteProc} (hp : p.Knows s) : (p.next P s).2.Knows (p.next P s).1 := by
  cases p with
  | start request => exact (authorize_free request).2
  | run me jobs =>
    match jobs with
    | [] => trivial
    | .raise :: _ => trivial
    | .invite email name :: jobs =>
      simp only [InviteProc.next]
      split
      · rename_i hv
        exact (Bool.and_eq_true_iff.mp hv).1
      · rename_i hv
        exact taken_of_not_valid hv
    | .contact email :: jobs =>
      simp only [InviteProc.next]
      split <;> trivial
  | insert me email name jobs =>
    simp only [InviteProc.next]
    cases hs : s.insertInvitation P me email with
    | none => trivial
    | some s' =>
      obtain ⟨-, -, hrows⟩ := insertInvitation_some P hs
      have hmem : { userId := me, email, id := s.nextId } ∈ s'.invitations.rows := by
        rw [hrows]
        exact List.mem_append_right _ (List.mem_singleton_self _)
      exact ⟨hp, congrArg (Option.map InvitationRow.id) (Table.get?_of_mem hmem)⟩
  | check me own email name jobs =>
    simp only [InviteProc.next]
    split <;> trivial
  | mail me email name jobs => trivial
  | insertContact me email jobs =>
    simp only [InviteProc.next]
    cases s.insertContact P me email <;> trivial
  | done status => trivial

end Statements

section Run

variable {ι : Type}

/-- What holds in every state: each request knows what it relies on, and each
pair is in one of its stages. -/
structure InvitedOnce (old : ℕ × String → Prop) (r : InviteRun ι) : Prop where
  knows : ∀ i, (r.procs i).Knows r.shared
  stage : ∀ k, Delivery.Stage invitationView (old k) k r

theorem inviteStart_once (s : InviteStore) (requests : ι → InviteRequest) :
    InvitedOnce (fun k => s.invitations.has k = true) (inviteStart s requests) where
  knows _ := trivial
  stage _ := .idle Iff.rfl rfl (fun _ => nofun)

variable [DecidableEq ι] (P : Platform) {r : InviteRun ι} {i : ι}

theorem inviteStep_once {old : ℕ × String → Prop} (r : InviteRun ι) (i : ι) (h : InvitedOnce old r) :
    InvitedOnce old (inviteStep P r i) where
  knows := Concurrent.forall_step (L := fun s p => p.Knows s) (InviteProc.next P) h.knows (next_knows P (h.knows i))
    (fun _ => knows_grows (next_grows P (r.procs i)))
  stage k := (h.stage k).step (next_turn P (h.knows i))

theorem mail_turn {me : ℕ} {email : String} {name : Option String} {jobs : List InviteJob}
    (hi : r.procs i = .mail me email name jobs) : (me, email) ∈ (inviteStep P r i).shared.mailedPairs := by
  have hshared : (inviteStep P r i).shared = ((r.procs i).next P r.shared).1 := rfl
  rw [hshared, hi]
  simp [InviteProc.next, InviteStore.mailedPairs]

/-- A request that owes an invitation mails it in its next turns. -/
theorem owed_mailed (hknows : (r.procs i).Knows r.shared) {k : ℕ × String} (hk : (r.procs i).owed = some k) :
    ∃ n, k ∈ (Transition.run (inviteStep P) r (List.replicate n i)).shared.mailedPairs := by
  cases hi : r.procs i with
  | check me own email name jobs =>
    rw [hi] at hknows hk
    cases own with
    | none => cases hk
    | some id =>
      cases hk
      have hmail : (inviteStep P r i).procs i = .mail me email name jobs := by
        rw [inviteStep, Concurrent.procs_self, hi]
        simp only [InviteProc.next]
        rw [if_pos (validInvitation_own hknows.1 hknows.2)]
      exact ⟨2, mail_turn P hmail⟩
  | mail me email name jobs =>
    rw [hi] at hk
    cases hk
    exact ⟨1, mail_turn P hi⟩
  | _ =>
    rw [hi] at hk
    cases hk

/-- In every state of every interleaving the mailer has been called at most once
for a pair, and the pairs inserted since the start are those that have been
mailed or that a request will mail in its next turns. -/
theorem invitation_mailed_once (s : InviteStore) (requests : ι → InviteRequest) (schedule : List ι) (inviter : ℕ)
    (email : String) :
    let r := Transition.run (inviteStep P) (inviteStart s requests) schedule
    r.shared.mailedPairs.count (inviter, email) ≤ 1 ∧
      (r.shared.invitations.has (inviter, email) = true ∧ ¬ s.invitations.has (inviter, email) = true ↔
        (inviter, email) ∈ r.shared.mailedPairs ∨ ∃ i, (r.procs i).owed = some (inviter, email)) ∧
      ∀ i, (r.procs i).owed = some (inviter, email) →
        ∃ n, (inviter, email) ∈ (Transition.run (inviteStep P) r (List.replicate n i)).shared.mailedPairs := by
  intro r
  have h : InvitedOnce (fun k => s.invitations.has k = true) r :=
    Transition.run_invariant (inviteStep P) (inviteStep_once P) _ (inviteStart_once s requests) schedule
  have hstage := h.stage (inviter, email)
  exact ⟨hstage.count_le_one, hstage.stored_iff, fun i hi => owed_mailed P (h.knows i) hi⟩

end Run

end Blnkk
