import Blnkk.Invitations
import Blnkk.Pieces

/-!
An invitation request that runs alone, and the addresses that the tables of
invitations and contacts can hold.
-/

namespace Blnkk

open Relational

namespace InviteStore

variable (P : Platform)

/-- The statements of one request after another, without other requests in between. -/
def perform (me : ℕ) : InviteStore → List InviteJob → Status × InviteStore
  | s, [] => (.ok, s)
  | s, .raise :: _ => (.internalServerError, s)
  | s, .invite email name :: jobs =>
    if s.validInvitation me none email then
      match s.insertInvitation P me email with
      | none => (.internalServerError, s)
      | some s' => perform me { s' with mailed := s'.mailed ++ [⟨me, email, name⟩] } jobs
    else perform me s jobs
  | s, .contact email :: jobs =>
    if s.validContact me email then
      match s.insertContact P me email with
      | none => (.internalServerError, s)
      | some s' => perform me s' jobs
    else perform me s jobs

end InviteStore

section Run

variable (P : Platform)

def inviteTurn (state : InviteStore × InviteProc) : InviteStore × InviteProc := state.2.next P state.1

/-- A request that runs alone comes to a state after enough turns. -/
def InviteReaches (state state' : InviteStore × InviteProc) : Prop := ∃ n, (inviteTurn P)^[n] state = state'

theorem InviteReaches.head {state state' state'' : InviteStore × InviteProc} (h : inviteTurn P state = state')
    (h' : InviteReaches P state' state'') : InviteReaches P state state'' := by
  obtain ⟨n, rfl⟩ := h'
  exact ⟨n + 1, by rw [Function.iterate_succ_apply, h]⟩

theorem InviteReaches.done_unique {state : InviteStore × InviteProc} {s s' : InviteStore} {status status' : Status}
    (h : InviteReaches P state (s, .done status)) (h' : InviteReaches P state (s', .done status')) : s = s' := by
  have hfixed : ∀ n (t : InviteStore) (code : Status), (inviteTurn P)^[n] (t, .done code) = (t, .done code) :=
    fun n t code => Function.iterate_fixed rfl n
  obtain ⟨n, hn⟩ := h
  obtain ⟨m, hm⟩ := h'
  have hboth : (inviteTurn P)^[n + m] state = (s', .done status') := by
    rw [Function.iterate_add_apply, hm, hfixed]
  rw [Nat.add_comm, Function.iterate_add_apply, hn, hfixed] at hboth
  exact (Prod.mk.inj hboth).1

theorem inviteReaches_perform (me : ℕ) (jobs : List InviteJob) (s : InviteStore) :
    InviteReaches P (s, .run me jobs) ((s.perform P me jobs).2, .done (s.perform P me jobs).1) := by
  induction jobs generalizing s with
  | nil => exact ⟨1, rfl⟩
  | cons job jobs ih =>
    cases job with
    | raise => exact ⟨1, rfl⟩
    | invite email name =>
      by_cases hv : s.validInvitation me none email = true
      · have hrun : inviteTurn P (s, .run me (.invite email name :: jobs)) = (s, .insert me email name jobs) := by
          simp only [inviteTurn, InviteProc.next, if_pos hv]
        simp only [InviteStore.perform, if_pos hv]
        cases hs : s.insertInvitation P me email with
        | none =>
          have hinsert : inviteTurn P (s, .insert me email name jobs) = (s, .done .internalServerError) := by
            simp only [inviteTurn, InviteProc.next, hs]
          exact .head P hrun (.head P hinsert ⟨0, rfl⟩)
        | some s' =>
          have hinsert : inviteTurn P (s, .insert me email name jobs) =
              (s', .check me (some s.nextId) email name jobs) := by
            simp only [inviteTurn, InviteProc.next, hs]
          have hown : s'.validInvitation me (some s.nextId) email = true := by
            obtain ⟨-, -, hrows⟩ := insertInvitation_some P hs
            have hmem : { userId := me, email, id := s.nextId } ∈ s'.invitations.rows := by
              rw [hrows]
              exact List.mem_append_right _ (List.mem_singleton_self _)
            exact validInvitation_own (Bool.and_eq_true_iff.mp hv).1
              (congrArg (Option.map InvitationRow.id) (Table.get?_of_mem hmem))
          have hcheck : inviteTurn P (s', .check me (some s.nextId) email name jobs) = (s', .mail me email name jobs) := by
            simp only [inviteTurn, InviteProc.next, if_pos hown]
          exact .head P hrun (.head P hinsert (.head P hcheck (.head P rfl (ih _))))
      · have hrun : inviteTurn P (s, .run me (.invite email name :: jobs)) = (s, .check me none email name jobs) := by
          simp only [inviteTurn, InviteProc.next, if_neg hv]
        have hcheck : inviteTurn P (s, .check me none email name jobs) = (s, .run me jobs) := by
          simp only [inviteTurn, InviteProc.next, if_neg hv]
        simp only [InviteStore.perform, if_neg hv]
        exact .head P hrun (.head P hcheck (ih s))
    | contact email =>
      by_cases hv : s.validContact me email = true
      · have hrun : inviteTurn P (s, .run me (.contact email :: jobs)) = (s, .insertContact me email jobs) := by
          simp only [inviteTurn, InviteProc.next, if_pos hv]
        simp only [InviteStore.perform, if_pos hv]
        cases hs : s.insertContact P me email with
        | none =>
          have hinsert : inviteTurn P (s, .insertContact me email jobs) = (s, .done .internalServerError) := by
            simp only [inviteTurn, InviteProc.next, hs]
          exact .head P hrun (.head P hinsert ⟨0, rfl⟩)
        | some s' =>
          have hinsert : inviteTurn P (s, .insertContact me email jobs) = (s', .run me jobs) := by
            simp only [inviteTurn, InviteProc.next, hs]
          exact .head P hrun (.head P hinsert (ih s'))
      · have hrun : inviteTurn P (s, .run me (.contact email :: jobs)) = (s, .run me jobs) := by
          simp only [inviteTurn, InviteProc.next, if_neg hv]
        simp only [InviteStore.perform, if_neg hv]
        exact .head P hrun (ih s)

end Run

/-- What the two tables can hold of an address: `invite` stores nothing else. -/
structure StoredAddress (email : String) : Prop where
  wellFormed : wellFormedAddress email = true
  lower : Text.Lower email
  fits : email.length ≤ stringLimit

/-- The collation of the columns identifies letters that differ in case or
accents, and no two addresses that `invite` can store. -/
def Platform.TellsApart (P : Platform) : Prop :=
  ∀ a b, StoredAddress a → StoredAddress b → P.collate a b = true → a = b

structure InviteStore.Normal (s : InviteStore) : Prop where
  invitations : ∀ i ∈ s.invitations.rows, StoredAddress i.email
  contacts : ∀ c ∈ s.contacts.rows, c.source = .manual → StoredAddress c.email

section Store

variable {P : Platform} {s : InviteStore} {me : ℕ} {email : String}

theorem validInvitation_iff :
    s.validInvitation me none email = true ↔
      wellFormedAddress email = true ∧ s.invitations.has (me, email) = false := by
  constructor
  · intro h
    refine ⟨(Bool.and_eq_true_iff.mp h).1, Bool.eq_false_iff.mpr (fun hhas => ?_)⟩
    rw [validInvitation_taken (fun _ => hhas)] at h
    cases h
  · rintro ⟨hw, hnew⟩
    by_contra hv
    rw [taken_of_not_valid hv hw] at hnew
    cases hnew

theorem validContact_iff :
    s.validContact me email = true ↔
      wellFormedAddress email = true ∧ s.contacts.has (me, .manual, email) = false := by
  rw [InviteStore.validContact, Bool.and_eq_true_iff, Bool.not_eq_true']

theorem insertInvitation_normal (hP : P.TellsApart) (hs : s.Normal) (he : StoredAddress email)
    (hnew : s.invitations.has (me, email) = false) :
    ∃ s', s.insertInvitation P me email = some s' ∧ s'.Normal ∧ s'.contacts = s.contacts ∧
      ∀ k, s'.invitations.has k = true ↔ s.invitations.has k = true ∨ k = (me, email) := by
  have hfree : ¬ (stringLimit < email.length ∨
      s.invitations.rows.any (fun i => decide (i.userId = me) && P.collate i.email email) = true) := by
    rintro (hlong | hany)
    · exact absurd he.fits (Nat.not_le_of_lt hlong)
    · obtain ⟨i, hi, hsame⟩ := List.any_eq_true.mp hany
      rw [Bool.and_eq_true, decide_eq_true_eq] at hsame
      have hemail := hP _ _ (hs.invitations i hi) he hsame.2
      have hhas := Table.has_of_mem hi
      rw [show i.index = (me, email) from Prod.ext hsame.1 hemail, hnew] at hhas
      cases hhas
  obtain ⟨t, ht, hrows⟩ := Table.exists_insert (t := s.invitations) (a := { userId := me, email, id := s.nextId }) hnew
  refine ⟨{ s with invitations := t, nextId := s.nextId + 1 }, ?_, ⟨?_, hs.contacts⟩, rfl, fun k => ?_⟩
  · rw [InviteStore.insertInvitation, if_neg hfree, ht, Option.map_some]
  · intro i hi
    rw [hrows] at hi
    rcases List.mem_append.mp hi with hi | hi
    · exact hs.invitations i hi
    · rw [List.mem_singleton.mp hi]
      exact he
  · rw [Table.has_append hrows]
    simp only [List.mem_singleton, exists_eq_left]
    exact or_congr_right eq_comm

theorem insertContact_normal (hP : P.TellsApart) (hs : s.Normal) (he : StoredAddress email)
    (hnew : s.contacts.has (me, .manual, email) = false) :
    ∃ s', s.insertContact P me email = some s' ∧ s'.Normal ∧ s'.invitations = s.invitations ∧
      ∀ k, s'.contacts.has k = true ↔ s.contacts.has k = true ∨ k = (me, .manual, email) := by
  have hfree : ¬ (stringLimit < email.length ∨
      s.contacts.rows.any
        (fun c => decide (c.userId = me ∧ c.source = .manual) && P.collate c.email email) = true) := by
    rintro (hlong | hany)
    · exact absurd he.fits (Nat.not_le_of_lt hlong)
    · obtain ⟨c, hc, hsame⟩ := List.any_eq_true.mp hany
      rw [Bool.and_eq_true, decide_eq_true_eq] at hsame
      obtain ⟨⟨hme, hmanual⟩, hcollate⟩ := hsame
      have hemail := hP _ _ (hs.contacts c hc hmanual) he hcollate
      have hhas := Table.has_of_mem hc
      rw [Contact.index, hme, hmanual, hemail, hnew] at hhas
      cases hhas
  obtain ⟨t, ht, hrows⟩ := Table.exists_insert (t := s.contacts) (a := ⟨me, .manual, email⟩) hnew
  refine ⟨{ s with contacts := t }, ?_, ⟨hs.invitations, ?_⟩, rfl, fun k => ?_⟩
  · rw [InviteStore.insertContact, if_neg hfree, ht, Option.map_some]
  · intro c hc hmanual
    rw [hrows] at hc
    rcases List.mem_append.mp hc with hc | hc
    · exact hs.contacts c hc hmanual
    · rw [List.mem_singleton.mp hc]
      exact he
  · rw [Table.has_append hrows]
    simp only [List.mem_singleton, exists_eq_left]
    exact or_congr_right eq_comm

end Store

section Normal

variable {P : Platform}

def InviteJob.Lower : InviteJob → Prop
  | invite email _ => Text.Lower email
  | contact email => Text.Lower email
  | raise => True

/-- The addresses that the request still works on are lower case. -/
def InviteProc.Lower : InviteProc → Prop
  | run _ jobs | check _ _ _ _ jobs | mail _ _ _ jobs => ∀ job ∈ jobs, job.Lower
  | insert _ email _ jobs | insertContact _ email jobs =>
    wellFormedAddress email = true ∧ Text.Lower email ∧ ∀ job ∈ jobs, job.Lower
  | start _ | done _ => True

theorem receiver_jobs_lower (receiver : Receiver) : ∀ job ∈ receiver.jobs, job.Lower := by
  unfold Receiver.jobs
  cases receiver.email with
  | none =>
    intro job hjob
    rw [List.mem_singleton.mp hjob]
    trivial
  | some field =>
    have hstrip : Text.Lower (Text.strip (Text.downcase field)) := Text.lower_strip (Text.lower_downcase field)
    simp only
    split_ifs
    · intro job hjob
      obtain ⟨word, hword, hjob⟩ := List.mem_flatMap.mp hjob
      have hlower : Text.Lower word := Text.lower_of_mem_split hstrip hword
      simp only [List.mem_cons, List.not_mem_nil, or_false] at hjob
      rcases hjob with rfl | rfl
      · exact hlower
      · exact hlower
    · intro job hjob
      rw [List.mem_singleton.mp hjob]
      exact hstrip

theorem next_normal {s : InviteStore} (hs : s.Normal) {p : InviteProc} (hp : p.Lower) :
    (p.next P s).1.Normal ∧ (p.next P s).2.Lower := by
  cases p with
  | start request =>
    refine ⟨hs, ?_⟩
    simp only [InviteProc.next, InviteStore.authorize]
    split
    · trivial
    · split_ifs
      · trivial
      · intro job hjob
        obtain ⟨receiver, -, hjob⟩ := List.mem_flatMap.mp hjob
        exact receiver_jobs_lower receiver job hjob
      · trivial
  | run me jobs =>
    cases jobs with
    | nil => exact ⟨hs, trivial⟩
    | cons job jobs =>
      have hrest : ∀ job ∈ jobs, job.Lower := fun job hjob => hp job (List.mem_cons_of_mem _ hjob)
      refine ⟨?_, ?_⟩
      · cases job <;> exact hs
      cases job with
      | raise => trivial
      | invite email name =>
        simp only [InviteProc.next]
        split_ifs with hv
        · exact ⟨(validInvitation_iff.mp hv).1, hp _ List.mem_cons_self, hrest⟩
        · exact hrest
      | contact email =>
        simp only [InviteProc.next]
        split_ifs with hv
        · exact ⟨(validContact_iff.mp hv).1, hp _ List.mem_cons_self, hrest⟩
        · exact hrest
  | insert me email name jobs =>
    obtain ⟨hw, hlower, hrest⟩ := hp
    simp only [InviteProc.next]
    cases hi : s.insertInvitation P me email with
    | none => exact ⟨hs, trivial⟩
    | some s' =>
      unfold InviteStore.insertInvitation at hi
      split_ifs at hi with hfree
      obtain ⟨t, ht, rfl⟩ := Option.map_eq_some_iff.mp hi
      refine ⟨⟨fun i hmem => ?_, hs.contacts⟩, hrest⟩
      rw [(Table.insert_eq_some ht).2] at hmem
      rcases List.mem_append.mp hmem with hmem | hmem
      · exact hs.invitations i hmem
      · rw [List.mem_singleton.mp hmem]
        exact ⟨hw, hlower, Nat.le_of_not_lt (fun hlong => hfree (Or.inl hlong))⟩
  | check me own email name jobs =>
    refine ⟨hs, ?_⟩
    simp only [InviteProc.next]
    split_ifs
    · exact hp
    · exact hp
  | mail me email name jobs => exact ⟨⟨hs.invitations, hs.contacts⟩, hp⟩
  | insertContact me email jobs =>
    obtain ⟨hw, hlower, hrest⟩ := hp
    simp only [InviteProc.next]
    cases hi : s.insertContact P me email with
    | none => exact ⟨hs, trivial⟩
    | some s' =>
      unfold InviteStore.insertContact at hi
      split_ifs at hi with hfree
      obtain ⟨t, ht, rfl⟩ := Option.map_eq_some_iff.mp hi
      refine ⟨⟨hs.invitations, fun c hmem hmanual => ?_⟩, hrest⟩
      rw [(Table.insert_eq_some ht).2] at hmem
      rcases List.mem_append.mp hmem with hmem | hmem
      · exact hs.contacts c hmem hmanual
      · rw [List.mem_singleton.mp hmem]
        exact ⟨hw, hlower, Nat.le_of_not_lt (fun hlong => hfree (Or.inl hlong))⟩
  | done status => exact ⟨hs, trivial⟩

/-- Requests store lower-case addresses that fit, however they overlap. -/
theorem inviteRun_normal {ι : Type} [DecidableEq ι] (P : Platform) (s : InviteStore) (hs : s.Normal)
    (requests : ι → InviteRequest) (schedule : List ι) :
    (Transition.run (inviteStep P) (inviteStart s requests) schedule).shared.Normal := by
  have hinv : ∀ (r : InviteRun ι) (i : ι), (r.shared.Normal ∧ ∀ j, (r.procs j).Lower) →
      (inviteStep P r i).shared.Normal ∧ ∀ j, ((inviteStep P r i).procs j).Lower := by
    rintro r i ⟨hnormal, hlower⟩
    have hnext := next_normal (P := P) hnormal (hlower i)
    exact ⟨hnext.1, Concurrent.forall_step (L := fun _ p => p.Lower) (InviteProc.next P) hlower hnext.2
      (fun _ hp => hp)⟩
  exact (Transition.run_invariant (inviteStep P) hinv (inviteStart s requests)
    ⟨⟨hs.invitations, hs.contacts⟩, fun _ => trivial⟩ schedule).1

end Normal

end Blnkk
