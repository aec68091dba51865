import Blnkk.EmailSettings
import Blnkk.Lib.Run

/-!
Processing the token of a mail and the mails that are sent afterwards. The
`email_settings` table is followed through what the code can do to it: each
write is described by what `allowed` answers after it.
-/

namespace Blnkk

open Relational EmailSetting

/-- What MySQL documents of every collation. -/
def Platform.Lawful (P : Platform) : Prop := Equivalence (fun a b => P.collate a b = true)

inductive SettingsEvent where
  | processToken (token : Token)
  | updateProfile (address : Address) (attributes : EmailSettingAttributes)

namespace SettingsEvent

def step (P : Platform) (t : EmailSettings) : SettingsEvent → EmailSettings
  | processToken token => EmailSetting.processToken P t token
  | updateProfile address attributes => UsersController.updateEmailSetting P t address attributes

def SwitchesOn (P : Platform) (email : String) (s : MailSetting) : SettingsEvent → Prop
  | processToken _ => False
  | updateProfile address attributes =>
    P.collate address.1 email = true ∧ (attributes s).map Param.toBoolean = some true

end SettingsEvent

structure Stored (P : Platform) (t : EmailSettings) : Prop where
  indexed : t.Indexed P.collate EmailSetting.email
  wellFormed : ∀ row ∈ t.rows, EmailSetting.wellFormed row.email = true

section Table

variable {P : Platform} (hP : P.Lawful) {t : EmailSettings} (ht : Stored P t)

theorem allowed_eq_on (email : String) (s : MailSetting) : allowed P t email s = (findOrNew P t email).on s := by
  unfold allowed findOrNew
  cases EmailSetting.findBy P t email with
  | none => rfl
  | some row => rfl

include hP in
theorem allowed_congr {email other : String} (h : P.collate email other = true) (s : MailSetting) :
    allowed P t email s = allowed P t other s := by
  unfold allowed EmailSetting.findBy
  rw [Table.findBy_congr hP t h]

include hP in
theorem save_stored (ht : Stored P t) (row : EmailSetting) : Stored P (save P t row) := by
  unfold save
  split_ifs with h
  · rw [Bool.and_eq_true, Bool.not_eq_true', taken, List.any_eq_false] at h
    constructor
    · apply ht.indexed.put hP
      intro other hm hsame
      by_contra hid
      exact h.2 other hm (by simp [hid, hsame])
    · intro other hm
      rcases Table.mem_put.mp hm with rfl | ⟨hold, -⟩
      · exact h.1
      · exact ht.wellFormed other hold
  · exact ht

include hP ht in
theorem findOrNew_email (email : String) : P.collate (findOrNew P t email).email email = true := by
  unfold findOrNew
  cases hf : EmailSetting.findBy P t email with
  | none => exact hP.refl email
  | some row => exact ((Table.findBy_some_iff hP ht.indexed).mp hf).2

include hP ht in
theorem findOrNew_id (email : String) {other : EmailSetting} (hm : other ∈ t.rows) :
    P.collate other.email email = true ↔ other.id = (findOrNew P t email).id := by
  unfold findOrNew
  cases hf : EmailSetting.findBy P t email with
  | none =>
    have hlt := Table.lt_fresh hm
    have hne : ¬ P.collate other.email email = true := List.find?_eq_none.mp hf other hm
    exact iff_of_false hne (Nat.ne_of_lt hlt)
  | some row =>
    obtain ⟨hrow, hsame⟩ := (Table.findBy_some_iff hP ht.indexed).mp hf
    constructor
    · intro h
      exact congrArg EmailSetting.id (ht.indexed other hm row hrow (hP.trans h (hP.symm hsame)))
    · intro h
      have he : other = row := by
        have hget := Table.get?_of_mem hm
        rw [h] at hget
        exact Option.some.inj (hget.symm.trans (Table.get?_of_mem hrow))
      rw [he]
      exact hsame

include hP ht in
theorem allowed_save {email : String} (row : EmailSetting) (hid : row.id = (findOrNew P t email).id)
    (hemail : P.collate row.email email = true) (hw : EmailSetting.wellFormed row.email = true) (address : String)
    (s : MailSetting) :
    allowed P (save P t row) address s = if P.collate row.email address then row.on s else allowed P t address s := by
  have hother : ∀ other ∈ t.rows, P.collate other.email row.email = true ↔ other.id = row.id := by
    intro other hm
    rw [hid, ← findOrNew_id hP ht email hm]
    exact ⟨fun h => hP.trans h hemail, fun h => hP.trans h (hP.symm hemail)⟩
  have hfree : taken P t row = false := by
    rw [taken, List.any_eq_false]
    intro other hm h
    rw [Bool.and_eq_true, decide_eq_true_eq, Bool.or_eq_true, beq_iff_eq] at h
    rcases h.2 with he | hsame
    · exact h.1 ((hother other hm).mp (he ▸ hP.refl other.email))
    · exact h.1 ((hother other hm).mp hsame)
  rw [save, if_pos (by rw [hw, hfree]; rfl)]
  unfold allowed EmailSetting.findBy
  rw [Table.findBy_put hP ht.indexed hother]
  split_ifs
  · rfl
  · rfl

include ht in
theorem findOrNew_wellFormed {email : String}
    (h : (EmailSetting.findBy P t email).isSome = true ∨ EmailSetting.wellFormed email = true) :
    EmailSetting.wellFormed (findOrNew P t email).email = true := by
  unfold findOrNew
  cases hf : EmailSetting.findBy P t email with
  | none =>
    rw [hf] at h
    exact h.resolve_left Bool.false_ne_true
  | some row => exact ht.wellFormed row (List.mem_of_find?_eq_some hf)

include hP ht in
theorem allowed_switchOff {email : String} (s : MailSetting)
    (h : (EmailSetting.findBy P t email).isSome = true ∨ EmailSetting.wellFormed email = true) (address : String)
    (s' : MailSetting) :
    allowed P (save P t ((findOrNew P t email).switchOff s)) address s' =
      if P.collate email address = true ∧ s' = s then false else allowed P t address s' := by
  have hemail := findOrNew_email hP ht email
  have hcollate : P.collate ((findOrNew P t email).switchOff s).email address = true ↔ P.collate email address = true :=
    ⟨fun ha => hP.trans (hP.symm hemail) ha, fun ha => hP.trans hemail ha⟩
  rw [allowed_save hP ht ((findOrNew P t email).switchOff s) rfl hemail (findOrNew_wellFormed ht h)]
  by_cases ha : P.collate email address = true
  · rw [if_pos (hcollate.mpr ha), ← allowed_congr hP ha, allowed_eq_on, switchOff_on]
    simp only [ha, true_and]
  · rw [if_neg (fun hc => ha (hcollate.mp hc)), if_neg (fun hc => ha hc.1)]

theorem switchOff_rejected {email : String} (s : MailSetting)
    (h : ¬ ((EmailSetting.findBy P t email).isSome = true ∨ EmailSetting.wellFormed email = true)) :
    save P t ((findOrNew P t email).switchOff s) = t := by
  obtain ⟨hnone, hw⟩ := not_or.mp h
  have hemail : ((findOrNew P t email).switchOff s).email = email := by
    rw [switchOff, findOrNew, Option.not_isSome_iff_eq_none.mp hnone]
    rfl
  rw [save, hemail, Bool.eq_false_iff.mpr hw]
  rfl

include hP ht in
theorem allowed_updateEmailSetting (profile : Address) (attributes : EmailSettingAttributes) (address : String)
    (s : MailSetting) :
    allowed P (UsersController.updateEmailSetting P t profile attributes) address s =
      if P.collate profile.1 address then ((attributes s).map Param.toBoolean).getD (allowed P t address s)
      else allowed P t address s := by
  have hsave := allowed_save hP ht { (findOrNew P t profile.1).assign attributes with email := profile.1 }
    rfl (hP.refl profile.1) profile.2 address s
  rw [UsersController.updateEmailSetting, hsave]
  split_ifs with ha
  · rw [← allowed_congr hP ha, allowed_eq_on, EmailSetting.assign]
  · rfl

include hP ht in
theorem step_stored (event : SettingsEvent) : Stored P (event.step P t) := by
  cases event with
  | updateProfile profile attributes => exact save_stored hP ht _
  | processToken token =>
    simp only [SettingsEvent.step, EmailSetting.processToken]
    split
    · split
      · exact save_stored hP ht _
      · exact ht
    · exact ht

include hP ht in
/-- Only the profile of the address itself can switch a setting on again. -/
theorem step_off {email : String} {s : MailSetting} (hoff : allowed P t email s = false) (event : SettingsEvent)
    (hon : ¬ event.SwitchesOn P email s) : allowed P (event.step P t) email s = false := by
  cases event with
  | updateProfile profile attributes =>
    rw [SettingsEvent.step, allowed_updateEmailSetting hP ht, hoff]
    split_ifs with ha
    · cases hv : (attributes s).map Param.toBoolean with
      | none => rfl
      | some value =>
        cases value with
        | false => rfl
        | true => exact absurd ⟨ha, hv⟩ hon
    · rfl
  | processToken token =>
    simp only [SettingsEvent.step, EmailSetting.processToken]
    split
    · rename_i other name _ _
      split
      · rename_i s' _
        by_cases h : (EmailSetting.findBy P t other).isSome = true ∨ EmailSetting.wellFormed other = true
        · rw [allowed_switchOff hP ht s' h, hoff, ite_self]
        · rw [switchOff_rejected s' h, hoff]
      · exact hoff
    · exact hoff

end Table

theorem run_stored {P : Platform} (hP : P.Lawful) (t : EmailSettings) (ht : Stored P t) (events : List SettingsEvent) :
    Stored P (Transition.run (SettingsEvent.step P) t events) :=
  Transition.run_invariant _ (I := Stored P) (fun _ event hs => step_stored hP hs event) t ht events

theorem run_off {P : Platform} (hP : P.Lawful) {email : String} {s : MailSetting} (t : EmailSettings)
    (ht : Stored P t) (hoff : allowed P t email s = false) (events : List SettingsEvent)
    (hon : ∀ event ∈ events, ¬ event.SwitchesOn P email s) :
    allowed P (Transition.run (SettingsEvent.step P) t events) email s = false := by
  induction events generalizing t with
  | nil => exact hoff
  | cons event events ih =>
    obtain ⟨hfirst, hrest⟩ := List.forall_mem_cons.mp hon
    exact ih _ (step_stored hP ht event) (step_off hP ht hoff event hfirst) hrest

theorem stored_empty (P : Platform) : Stored P .empty :=
  ⟨fun _ h => absurd h List.not_mem_nil, fun _ h => absurd h List.not_mem_nil⟩

namespace GunMailer

def Sender.tested : Sender → MailSetting
  | .invitation => .invitations
  | .conversationReply => .conversations
  | .newCommentMyRequest => .comments
  | .newCommentCommentedRequest => .comments
  | .newFollower => .newfollowers
  | .freshNewPosts => .newsletters
  | .newsletter => .newsletters

def Sender.carried : Sender → MailSetting
  | .newCommentCommentedRequest => .recomments
  | sender => sender.tested

theorem carried_eq_tested_iff (sender : Sender) :
    sender.carried = sender.tested ↔ sender ≠ .newCommentCommentedRequest := by
  cases sender <;> decide

theorem call_mail (P : Platform) {sender : Sender} (call : Call sender) :
    ∃ mail : Mail, (∀ t, call.send P t = if allowed P t mail.recipient sender.tested then some mail else none) ∧
      mail.unsubscribeToken = getToken mail.recipient sender.carried := by
  cases call <;> exact ⟨⟨_, _, _, _, _, _⟩, fun _ => rfl, rfl⟩

end GunMailer

open GunMailer

/-- Processing the token of the mail silences the function that sent it, for as
long as the recipient does not switch the setting of the token on again, and
touches nothing else. -/
structure Unsubscribes (P : Platform) (t : EmailSettings) (sender : Sender) (mail : Mail) : Prop where
  silent : ∀ events : List SettingsEvent,
    (∀ event ∈ events, ∀ s : MailSetting, mail.unsubscribeToken.setting = some s.name →
      ¬ event.SwitchesOn P mail.recipient s) →
    ∀ (call : Call sender) (later : Mail),
      call.send P (Transition.run (SettingsEvent.step P) (processToken P t mail.unsubscribeToken) events) = some later →
        later.recipient ≠ mail.recipient
  frame : ∀ (address : String) (s : MailSetting),
    ¬ (P.collate mail.recipient address = true ∧ mail.unsubscribeToken.setting = some s.name) →
      allowed P (processToken P t mail.unsubscribeToken) address s = allowed P t address s

section Senders

variable {P : Platform} {t : EmailSettings} {sender : Sender} {mail : Mail}

theorem sent_iff {call : Call sender} (h : call.send P t = some mail) :
    mail.unsubscribeToken = getToken mail.recipient sender.carried ∧ allowed P t mail.recipient sender.tested = true ∧
      ∀ t', allowed P t' mail.recipient sender.tested = true → call.send P t' = some mail := by
  obtain ⟨mail', hsend, htoken⟩ := call_mail P call
  rw [hsend] at h
  split_ifs at h with hallowed
  obtain rfl : mail' = mail := Option.some.inj h
  refine ⟨htoken, hallowed, fun t' h' => ?_⟩
  rw [hsend, if_pos h']

theorem processToken_getToken (email : String) (s : MailSetting) :
    processToken P t (getToken email s) = save P t ((findOrNew P t email).switchOff s) := by
  simp only [processToken, getToken, MailSetting.ofName_name]

theorem processToken_frame (hP : P.Lawful) (ht : Stored P t)
    (htoken : mail.unsubscribeToken = getToken mail.recipient sender.carried) (address : String) (s : MailSetting)
    (h : ¬ (P.collate mail.recipient address = true ∧ mail.unsubscribeToken.setting = some s.name)) :
    allowed P (processToken P t mail.unsubscribeToken) address s = allowed P t address s := by
  rw [htoken] at h ⊢
  rw [processToken_getToken]
  by_cases hrow : (EmailSetting.findBy P t mail.recipient).isSome = true ∨ EmailSetting.wellFormed mail.recipient = true
  · rw [allowed_switchOff hP ht _ hrow, if_neg]
    rintro ⟨ha, rfl⟩
    exact h ⟨ha, rfl⟩
  · rw [switchOff_rejected _ hrow]

end Senders

theorem unsubscribes_iff (P : Platform) (hP : P.Lawful) (history : List SettingsEvent) (sender : Sender)
    (call : Call sender) (mail : Mail)
    (hsent : call.send P (Transition.run (SettingsEvent.step P) .empty history) = some mail) :
    Unsubscribes P (Transition.run (SettingsEvent.step P) .empty history) sender mail ↔
      sender ≠ .newCommentCommentedRequest ∧
        ((EmailSetting.findBy P (Transition.run (SettingsEvent.step P) .empty history) mail.recipient).isSome = true ∨
          EmailSetting.wellFormed mail.recipient = true) := by
  have ht := run_stored hP .empty (stored_empty P) history
  generalize Transition.run (SettingsEvent.step P) .empty history = t at *
  obtain ⟨htoken, hallowed, hagain⟩ := sent_iff hsent
  constructor
  · intro h
    have hquiet : ¬ allowed P (processToken P t mail.unsubscribeToken) mail.recipient sender.tested = true :=
      fun ha => h.silent [] (fun _ hm => absurd hm List.not_mem_nil) call mail (hagain _ ha) rfl
    constructor
    · -- the token switches off another setting than the one that is tested
      rintro rfl
      apply hquiet
      rw [h.frame, hallowed]
      rintro ⟨-, hname⟩
      rw [htoken] at hname
      exact absurd (Option.some.inj hname) (by decide)
    · -- the row of the token is not valid, so processing it changes nothing
      by_contra hrow
      apply hquiet
      rw [htoken, processToken_getToken, switchOff_rejected _ hrow, hallowed]
  · rintro ⟨hsender, hrow⟩
    have hcarried := (carried_eq_tested_iff sender).mpr hsender
    refine ⟨?_, processToken_frame hP ht htoken⟩
    intro events hon other later hlater hrecipient
    obtain ⟨-, hstill, -⟩ := sent_iff hlater
    have hoff : allowed P (processToken P t mail.unsubscribeToken) mail.recipient sender.tested = false := by
      rw [htoken, processToken_getToken, allowed_switchOff hP ht _ hrow, if_pos ⟨hP.refl _, hcarried.symm⟩]
    have hstored : Stored P (processToken P t mail.unsubscribeToken) :=
      step_stored hP ht (.processToken mail.unsubscribeToken)
    have hrun := run_off hP _ hstored hoff events (fun event hm => hon event hm _ (by rw [htoken, ← hcarried]; rfl))
    rw [hrecipient, hrun] at hstill
    cases hstill

theorem Platform.plain_lawful : Platform.plain.Lawful := by
  constructor
  · intro a
    exact beq_self_eq_true a
  · intro a b h
    exact beq_iff_eq.mpr (beq_iff_eq.mp h).symm
  · intro a b c hab hbc
    exact beq_iff_eq.mpr ((beq_iff_eq.mp hab).trans (beq_iff_eq.mp hbc))

def annUser : User := { id := 1, email := "ann@blnkk.com", name := "ann" }

def bobUser : User := { id := 2, email := "bob@mail.org", name := "bob" }

def annsComment : Comment := { id := 1, requestId := 1, userId := 1, content := "me too" }

def followerMail : Mail where
  recipient := "bob@mail.org"
  subject := .translated "emails.new_follower.intro" (some "ann")
  template := "gun_mailer/users/new_follower"
  nameTo := some "bob"
  topic := .user 1
  unsubscribeToken := getToken "bob@mail.org" .newfollowers

theorem follower_mail_unsubscribes :
    Call.send .plain .empty (.newFollower bobUser annUser) = some followerMail ∧
      Unsubscribes .plain .empty .newFollower followerMail :=
  ⟨by decide, (unsubscribes_iff .plain Platform.plain_lawful [] _ (.newFollower bobUser annUser) followerMail
    (by decide)).mpr ⟨by decide, Or.inr (by decide)⟩⟩

/-- The token of the mail about a comment on a commented request names another
setting than the one that is tested: Bob gets the same mail again. -/
theorem bob_mailed_again :
    ∃ mail, Call.send .plain .empty (.newCommentCommentedRequest bobUser annsComment annUser) = some mail ∧
      mail.recipient = "bob@mail.org" ∧
      Call.send .plain (processToken .plain .empty mail.unsubscribeToken)
        (.newCommentCommentedRequest bobUser annsComment annUser) = some mail := by
  refine ⟨_, rfl, rfl, ?_⟩
  decide +kernel

end Blnkk
