import Blnkk.StoredAddresses

/-!
Which of the addresses typed into the e-mail fields of an invitation request end
up in the tables.
-/

namespace Blnkk

open Relational

/-- What the request does with one piece of an e-mail field, or with a missing field. -/
def entryJobs : Option String → List InviteJob
  | none => [.raise]
  | some email => [.invite email none, .contact email]

/-- The request goes on after the entry. -/
def entryPasses : Option String → Bool
  | none => false
  | some email => !wellFormedAddress email || decide (email.length ≤ stringLimit)

section Entries

variable {P : Platform} {s : InviteStore} {me : ℕ} {email : String}

theorem perform_malformed (h : wellFormedAddress email = false) (jobs : List InviteJob) :
    s.perform P me (entryJobs (some email) ++ jobs) = s.perform P me jobs := by
  have hinvitation : ¬ s.validInvitation me none email = true := by
    rw [validInvitation_iff, h]
    exact fun hv => Bool.false_ne_true hv.1
  have hcontact : ¬ s.validContact me email = true := by
    rw [validContact_iff, h]
    exact fun hv => Bool.false_ne_true hv.1
  simp only [entryJobs, List.cons_append, List.nil_append, InviteStore.perform, if_neg hinvitation, if_neg hcontact]

/-- An address that is too long stops the request. -/
theorem perform_long (hs : s.Normal) (hw : wellFormedAddress email = true)
    (hlong : stringLimit < email.length) (jobs : List InviteJob) :
    s.perform P me (entryJobs (some email) ++ jobs) = (.internalServerError, s) := by
  have hvalid : s.validInvitation me none email = true := by
    refine validInvitation_iff.mpr ⟨hw, Bool.eq_false_iff.mpr (fun hhas => ?_)⟩
    obtain ⟨i, hi, hkey⟩ := (s.invitations.has_iff _).mp hhas
    have hemail : i.email = email := congrArg Prod.snd hkey
    exact absurd (hemail ▸ (hs.invitations i hi).fits) (Nat.not_le_of_lt hlong)
  have hinsert : s.insertInvitation P me email = none := by
    rw [InviteStore.insertInvitation, if_pos (Or.inl hlong)]
  simp only [entryJobs, List.cons_append, InviteStore.perform, if_pos hvalid, hinsert]

theorem perform_stored (me : ℕ) (hP : P.TellsApart) (hs : s.Normal) (he : StoredAddress email) (jobs : List InviteJob) :
    ∃ s' : InviteStore, s.perform P me (entryJobs (some email) ++ jobs) = s'.perform P me jobs ∧ s'.Normal ∧
      (∀ k, s'.invitations.has k = true ↔ s.invitations.has k = true ∨ k = (me, email)) ∧
      ∀ k, s'.contacts.has k = true ↔ s.contacts.has k = true ∨ k = (me, .manual, email) := by
  have hinvite : ∃ s' : InviteStore, s.perform P me (entryJobs (some email) ++ jobs) =
        s'.perform P me (.contact email :: jobs) ∧ s'.Normal ∧ s'.contacts = s.contacts ∧
      ∀ k, s'.invitations.has k = true ↔ s.invitations.has k = true ∨ k = (me, email) := by
    cases hnew : s.invitations.has (me, email) with
    | true =>
      have hv : ¬ s.validInvitation me none email = true := by
        rw [validInvitation_iff, hnew]
        exact fun hv => Bool.false_ne_true hv.2.symm
      refine ⟨s, ?_, hs, rfl, fun k => ⟨Or.inl, fun hk => hk.elim id (fun hk => hk ▸ hnew)⟩⟩
      simp only [entryJobs, List.cons_append, List.nil_append, InviteStore.perform, if_neg hv]
    | false =>
      obtain ⟨s', hinsert, hnormal, hcontacts, hhas⟩ := insertInvitation_normal hP hs he hnew
      refine ⟨{ s' with mailed := s'.mailed ++ [⟨me, email, none⟩] }, ?_, ⟨hnormal.invitations, hnormal.contacts⟩,
        hcontacts, hhas⟩
      have hv := validInvitation_iff.mpr ⟨he.wellFormed, hnew⟩
      rw [entryJobs, List.cons_append, InviteStore.perform, if_pos hv, hinsert]
      rfl
  obtain ⟨s₁, hperform, hs₁, hcontacts, hinvitations⟩ := hinvite
  rw [hperform, ← hcontacts]
  cases hnew : s₁.contacts.has (me, .manual, email) with
  | true =>
    have hv : ¬ s₁.validContact me email = true := by
      rw [validContact_iff, hnew]
      exact fun hv => Bool.false_ne_true hv.2.symm
    refine ⟨s₁, ?_, hs₁, hinvitations, fun k => ⟨Or.inl, fun hk => hk.elim id (fun hk => hk ▸ hnew)⟩⟩
    simp only [InviteStore.perform, if_neg hv]
  | false =>
    obtain ⟨s₂, hinsert, hs₂, hkept, hhas⟩ := insertContact_normal hP hs₁ he hnew
    refine ⟨s₂, ?_, hs₂, fun k => by rw [hkept, hinvitations], hhas⟩
    rw [InviteStore.perform, if_pos (validContact_iff.mpr ⟨he.wellFormed, hnew⟩), hinsert]

theorem takeWhile_mem_cons {a : String} {entries : List (Option String)} (h : entryPasses (some email) = true) :
    some a ∈ (some email :: entries).takeWhile entryPasses ↔ a = email ∨ some a ∈ entries.takeWhile entryPasses := by
  rw [List.takeWhile_cons_of_pos h, List.mem_cons, Option.some_inj]

/-- The addresses that a request adds to the two tables. -/
theorem perform_entries (me : ℕ) (hP : P.TellsApart) (entries : List (Option String))
    (hlower : ∀ email, some email ∈ entries → Text.Lower email) (s : InviteStore) (hs : s.Normal) :
    let s' := (s.perform P me (entries.flatMap entryJobs)).2
    ∀ a, wellFormedAddress a = true →
      (s'.invitations.has (me, a) = true ↔
        s.invitations.has (me, a) = true ∨ some a ∈ entries.takeWhile entryPasses) ∧
      (s'.contacts.has (me, .manual, a) = true ↔
        s.contacts.has (me, .manual, a) = true ∨ some a ∈ entries.takeWhile entryPasses) := by
  induction entries generalizing s with
  | nil =>
    intro s' a _
    simp [s', InviteStore.perform]
  | cons entry entries ih =>
    have hrest : ∀ email, some email ∈ entries → Text.Lower email :=
      fun email hmem => hlower email (List.mem_cons_of_mem _ hmem)
    rw [List.flatMap_cons]
    cases entry with
    | none =>
      intro s' a _
      simp [s', entryJobs, InviteStore.perform, entryPasses]
    | some email =>
      by_cases hw : wellFormedAddress email = true
      · by_cases hlong : stringLimit < email.length
        · rw [perform_long hs hw hlong]
          intro s' a _
          have hstop : entryPasses (some email) = false := by simp [entryPasses, hw, hlong]
          simp [s', hstop]
        · have he : StoredAddress email := ⟨hw, hlower email List.mem_cons_self, Nat.le_of_not_lt hlong⟩
          have hpass : entryPasses (some email) = true := by simp [entryPasses, he.fits]
          obtain ⟨s₁, hperform, hs₁, hinvitations, hcontacts⟩ := perform_stored me hP hs he (entries.flatMap entryJobs)
          rw [hperform]
          intro s' a ha
          obtain ⟨hi, hc⟩ := ih hrest s₁ hs₁ a ha
          rw [takeWhile_mem_cons hpass, hi, hc, hinvitations, hcontacts, or_assoc, or_assoc]
          simp
      · have hpass : entryPasses (some email) = true := by simp [entryPasses, hw]
        rw [perform_malformed (Bool.eq_false_iff.mpr hw)]
        intro s' a ha
        obtain ⟨hi, hc⟩ := ih hrest s hs a ha
        have hne : a ≠ email := by
          rintro rfl
          exact hw ha
        rw [takeWhile_mem_cons hpass, hi, hc]
        simp [hne]

end Entries

section Receivers

variable {P : Platform} {me : ℕ}

/-- The pieces of the field, with white space removed where the field begins and
where it ends, or the missing field. -/
def Receiver.entries (receiver : Receiver) : List (Option String) :=
  match receiver.email with
  | none => [none]
  | some email =>
    (Text.trimEnds (Text.splitChars ',' (Text.downcase email).toList)).map (fun piece => some (String.ofList piece))

theorem perform_append_congr {jobs jobs' : List InviteJob}
    (h : ∀ s : InviteStore, s.perform P me jobs = s.perform P me jobs') (first : List InviteJob) (s : InviteStore) :
    s.perform P me (first ++ jobs) = s.perform P me (first ++ jobs') := by
  induction first generalizing s with
  | nil => exact h s
  | cons job first ih =>
    cases job with
    | raise => rfl
    | invite email name =>
      simp only [List.cons_append, InviteStore.perform]
      split_ifs
      · cases s.insertInvitation P me email with
        | none => rfl
        | some s' => exact ih _
      · exact ih s
    | contact email =>
      simp only [List.cons_append, InviteStore.perform]
      split_ifs
      · cases s.insertContact P me email with
        | none => rfl
        | some s' => exact ih s'
      · exact ih s

theorem perform_blanks (n : ℕ) (jobs : List InviteJob) (s : InviteStore) :
    s.perform P me ((List.replicate n (some "")).flatMap entryJobs ++ jobs) = s.perform P me jobs := by
  induction n with
  | zero => rfl
  | succ n ih => rw [List.replicate_succ, List.flatMap_cons, List.append_assoc, perform_malformed (by decide), ih]

theorem perform_receiver {receiver : Receiver} (hm : receiver.source = some "manual") (jobs : List InviteJob)
    (s : InviteStore) :
    s.perform P me (receiver.jobs ++ jobs) = s.perform P me (receiver.entries.flatMap entryJobs ++ jobs) := by
  unfold Receiver.jobs Receiver.entries
  cases receiver.email with
  | none => rfl
  | some email =>
    obtain ⟨n, hn⟩ := Text.split_rest ',' (Text.strip (Text.downcase email))
    rw [Text.splitChars_strip] at hn
    have hentries : (Text.trimEnds (Text.splitChars ',' (Text.downcase email).toList)).map
        (fun piece => some (String.ofList piece)) =
        (Text.split ',' (Text.strip (Text.downcase email))).map some ++ List.replicate n (some "") := by
      have hmap := congrArg (List.map some) hn
      rwa [List.map_map, List.map_append, List.map_replicate] at hmap
    simp only [if_pos hm, hentries]
    rw [List.flatMap_append, List.append_assoc, List.flatMap_map]
    exact perform_append_congr (fun s => (perform_blanks n jobs s).symm) _ s

theorem perform_receivers (receivers : List Receiver) (hm : ∀ receiver ∈ receivers, receiver.source = some "manual")
    (s : InviteStore) :
    s.perform P me (receivers.flatMap Receiver.jobs) =
      s.perform P me ((receivers.flatMap Receiver.entries).flatMap entryJobs) := by
  induction receivers generalizing s with
  | nil => rfl
  | cons receiver receivers ih =>
    rw [List.flatMap_cons, List.flatMap_cons, List.flatMap_append, perform_receiver (hm receiver List.mem_cons_self)]
    exact perform_append_congr (ih (fun r hr => hm r (List.mem_cons_of_mem _ hr))) _ s

theorem entries_lower (receivers : List Receiver) {email : String}
    (h : some email ∈ receivers.flatMap Receiver.entries) : Text.Lower email := by
  obtain ⟨receiver, -, hmem⟩ := List.mem_flatMap.mp h
  unfold Receiver.entries at hmem
  cases hemail : receiver.email with
  | none => simp [hemail] at hmem
  | some field =>
    simp only [hemail, List.mem_map, Option.some.injEq] at hmem
    obtain ⟨piece, hpiece, rfl⟩ := hmem
    rw [← Text.splitChars_strip] at hpiece
    exact Text.lower_of_mem_splitChars (Text.lower_strip (Text.lower_downcase field)) hpiece

end Receivers

/-- Exactly one invitation and one manual contact of the user carry the address. -/
def InviteStore.Listed (s : InviteStore) (me : ℕ) (email : String) : Prop :=
  s.invitations.count (fun i => decide (i.index = (me, email))) = 1 ∧
    s.contacts.count (fun c => decide (c.index = (me, .manual, email))) = 1

/-- The trimmed, lower-case address that a piece of a field stands for. -/
def Text.address (piece : List Char) : String := strip (downcase (String.ofList piece))

/-- A piece of some field is an address that the validation of a new invitation accepts. -/
def Wanted (s : InviteStore) (me : ℕ) (receivers : List Receiver) (email : String) : Prop :=
  s.validInvitation me none email = true ∧
    ∃ receiver ∈ receivers, ∃ field, receiver.email = some field ∧
      ∃ piece ∈ Text.splitChars ',' field.toList, Text.address piece = email

/-- The addresses wanted are listed exactly if each of them stands, in front of
the first missing field and the first address that is too long, as a piece that
has white space around it only at the ends of its field. -/
theorem manual_addresses_listed_iff (P : Platform) (hP : P.TellsApart) (s : InviteStore) (hs : s.Normal) (me : ℕ)
    (user : User) (hu : s.users.get? me = some user)
    (hallowed : s.settings.private ≠ some "1" ∨ user.admin = true) (receivers : List Receiver)
    (hmanual : ∀ receiver ∈ receivers, receiver.source = some "manual") :
    (∃ status s', InviteReaches P (s, .start ⟨some me, receivers⟩) (s', .done status) ∧
      ∀ email, Wanted s me receivers email → s'.Listed me email) ↔
      ∀ email, Wanted s me receivers email →
        some email ∈ (receivers.flatMap Receiver.entries).takeWhile entryPasses := by
  have hid : user.id = me := Table.get?_key hu
  have hend : ∃ status s', InviteReaches P (s, .start ⟨some me, receivers⟩) (s', .done status) ∧
      ∀ email, wellFormedAddress email = true → s.invitations.has (me, email) = false →
        (s'.Listed me email ↔ some email ∈ (receivers.flatMap Receiver.entries).takeWhile entryPasses) := by
    have hopen : (s.settings.private != some "1" || user.admin) = true := by
      rcases hallowed with h | h <;> simp [h]
    by_cases hempty : receivers.isEmpty = true
    · have hstart : inviteTurn P (s, .start ⟨some me, receivers⟩) = (s, .done .unprocessableEntity) := by
        simp only [inviteTurn, InviteProc.next, InviteStore.authorize, Option.bind_some, hu, if_pos hopen, if_pos hempty]
      refine ⟨_, s, .head P hstart ⟨0, rfl⟩, fun email _ hnew => ?_⟩
      rw [List.isEmpty_iff.mp hempty]
      refine iff_of_false (fun hl => ?_) List.not_mem_nil
      rw [(s.invitations.count_index _).mp hl.1] at hnew
      cases hnew
    · have hstart : inviteTurn P (s, .start ⟨some me, receivers⟩) = (s, .run me (receivers.flatMap Receiver.jobs)) := by
        simp only [inviteTurn, InviteProc.next, InviteStore.authorize, Option.bind_some, hu, if_pos hopen,
          if_neg hempty, hid]
      refine ⟨_, _, .head P hstart (inviteReaches_perform P me _ s), fun email hw hnew => ?_⟩
      rw [perform_receivers receivers hmanual]
      obtain ⟨hi, hc⟩ := perform_entries me hP (receivers.flatMap Receiver.entries)
        (fun email hmem => entries_lower receivers hmem) s hs email hw
      rw [InviteStore.Listed, Table.count_index, Table.count_index, hi, hc, hnew]
      simp only [Bool.false_eq_true, false_or]
      exact ⟨And.left, fun hmem => ⟨hmem, Or.inr hmem⟩⟩
  obtain ⟨status, s', hreach, hlisted⟩ := hend
  have hiff : ∀ email, Wanted s me receivers email →
      (s'.Listed me email ↔ some email ∈ (receivers.flatMap Receiver.entries).takeWhile entryPasses) := by
    intro email hwanted
    obtain ⟨hw, hnew⟩ := validInvitation_iff.mp hwanted.1
    exact hlisted email hw hnew
  constructor
  · rintro ⟨status', s'', hreach', hall⟩ email hwanted
    rw [hreach'.done_unique P hreach] at hall
    exact (hiff email hwanted).mp (hall email hwanted)
  · intro hall
    exact ⟨status, s', hreach, fun email hwanted => (hiff email hwanted).mpr (hall email hwanted)⟩

/-- Ann may invite and has not invited anybody. -/
def annInvites : InviteStore where
  users := Table.empty.insertFresh (fun id => { id, email := "ann@blnkk.com", name := "Ann" })
  settings := {}
  invitations := .empty
  nextId := 1
  contacts := .empty

theorem annInvites_normal : annInvites.Normal := ⟨fun _ hi => (by cases hi), fun _ hc => (by cases hc)⟩

theorem plain_tellsApart : Platform.plain.TellsApart := fun _ _ _ _ h => eq_of_beq h

def typedWithoutBlanks : List Receiver := [{ email := some " Bob@blnkk.com,eve@blnkk.com ", source := some "manual" }]

theorem both_addresses_listed :
    ∃ status s', InviteReaches .plain (annInvites, .start ⟨some 1, typedWithoutBlanks⟩) (s', .done status) ∧
      s'.Listed 1 "bob@blnkk.com" ∧ s'.Listed 1 "eve@blnkk.com" := by
  have hann : ∃ user, annInvites.users.get? 1 = some user := Option.isSome_iff_exists.mp (by decide)
  obtain ⟨user, hu⟩ := hann
  have hplaced : ∀ email, Wanted annInvites 1 typedWithoutBlanks email →
      some email ∈ (typedWithoutBlanks.flatMap Receiver.entries).takeWhile entryPasses := by
    rintro email ⟨-, receiver, hr, field, hfield, piece, hpiece, rfl⟩
    rw [List.mem_singleton.mp hr] at hfield
    cases hfield
    revert piece
    decide +kernel
  obtain ⟨status, s', hreach, hlisted⟩ := (manual_addresses_listed_iff .plain plain_tellsApart annInvites
    annInvites_normal 1 user hu (Or.inl (by decide)) typedWithoutBlanks (by decide)).mpr hplaced
  refine ⟨status, s', hreach, hlisted _ ⟨by decide +kernel, _, List.mem_singleton_self _, _, rfl, ?_⟩,
    hlisted _ ⟨by decide +kernel, _, List.mem_singleton_self _, _, rfl, ?_⟩⟩
  · decide +kernel
  · decide +kernel

def typedWithBlank : List Receiver := [{ email := some "bob@blnkk.com, eve@blnkk.com", source := some "manual" }]

theorem address_after_blank_lost :
    Wanted annInvites 1 typedWithBlank "eve@blnkk.com" ∧
      ∃ s', InviteReaches .plain (annInvites, .start ⟨some 1, typedWithBlank⟩) (s', .done .ok) ∧
        s'.Listed 1 "bob@blnkk.com" ∧ s'.invitations.has (1, "eve@blnkk.com") = false ∧
        s'.contacts.has (1, .manual, "eve@blnkk.com") = false := by
  refine ⟨⟨by decide +kernel, _, List.mem_singleton_self _, _, rfl, by decide +kernel⟩,
    ((inviteTurn .plain)^[12] (annInvites, .start ⟨some 1, typedWithBlank⟩)).1, ⟨12, Prod.ext rfl ?_⟩, ?_, ?_, ?_⟩
  · decide +kernel
  · rw [InviteStore.Listed]
    decide +kernel
  · decide +kernel
  · decide +kernel

end Blnkk
