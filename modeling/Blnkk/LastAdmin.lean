import Blnkk.Privileges

/-!
Whether somebody is left who is enabled and an admin. The flag actions of the API
cannot be turned on the user who calls them, the admin panel can.
-/

namespace Blnkk

open Relational

def HasAdmin (db : Db) : Prop := ∃ u ∈ db.users.rows, u.enabled = true ∧ u.admin = true

def User.flags (u : User) : Bool × Bool := (u.enabled, u.admin)

theorem flags_congr (u u' : User) (h : SameFlags u u') : u'.flags = u.flags := by
  rw [User.flags, User.flags, h.1, h.2]

theorem hasAdmin_iff (db : Db) : HasAdmin db ↔ ∃ k, (db.users.get? k).map User.flags = some (true, true) := by
  constructor
  · rintro ⟨u, hu, henabled, hadmin⟩
    refine ⟨u.id, ?_⟩
    rw [Table.get?_of_mem hu, Option.map_some, User.flags, henabled, hadmin]
  · rintro ⟨k, hk⟩
    obtain ⟨u, hu, hflags⟩ := Option.map_eq_some_iff.mp hk
    obtain ⟨henabled, hadmin⟩ := Prod.mk.inj hflags
    exact ⟨u, Table.get?_mem hu, henabled, hadmin⟩

theorem HasAdmin.persists {db db' : Db} (h : HasAdmin db) (hp : Table.Persists SameFlags db.users db'.users) :
    HasAdmin db' := by
  obtain ⟨u, hu, henabled, hadmin⟩ := h
  obtain ⟨u', hu', hflags⟩ := hp u.id u (Table.get?_of_mem hu)
  exact ⟨u', Table.get?_mem hu', hflags.2.trans henabled, hflags.1.trans hadmin⟩

/-- The flag that an action assigns when the controller lets it, to whom and from
which parameter. -/
def UserAction.assigns (db : Db) (me : ℕ) : UserAction → Option (ℕ × Flag × Param)
  | .update _ _ => none
  | .promote id => ofAdmin id .admin true
  | .demote id => ofAdmin id .admin false
  | .enable id => ofAdmin id .enabled true
  | .disable id => ofAdmin id .enabled false
  | .adminUpdate id enabled admin =>
    if ((db.users.get? me).map User.superAdmin).getD false then
      if enabled.truthy then some (id, .enabled, enabled)
      else if admin.truthy then some (id, .admin, admin)
      else none
    else none
where
  ofAdmin (id : ℕ) (flag : Flag) (value : Bool) : Option (ℕ × Flag × Param) :=
    if ((db.users.get? me).map User.admin).getD false ∧ id ≠ me then some (id, flag, .bool value) else none

inductive Assigned (P : Platform) (db after : Db) : Option (ℕ × Flag × Param) → Prop where
  | kept {assigned : Option (ℕ × Flag × Param)} (hp : Table.Persists SameFlags db.users after.users)
    (hn : ∀ id flag value, assigned = some (id, flag, value) → db.users.get? id = none) : Assigned P db after assigned
  | saved (id : ℕ) (flag : Flag) (value : Param) (user : User) (hu : db.users.get? id = some user)
    (ha : after = (user.updateAttributes P db [(flag.name, value)]).2) : Assigned P db after (some (id, flag, value))

section Assigns

variable (P : Platform) (db : Db) (me : ℕ)

theorem sameFlags_refl (t : Table User.id) : Table.Persists SameFlags t t :=
  Table.Persists.refl (fun _ => ⟨rfl, rfl⟩) t

theorem setFlag_assigns (id : ℕ) (flag : Flag) (value : Bool) :
    Assigned P db (UsersController.setFlag P db me id [(flag.name, .bool value)]).2
      (UserAction.assigns.ofAdmin db me id flag value) := by
  unfold UsersController.setFlag UserAction.assigns.ofAdmin
  cases hu : db.users.get? id with
  | none =>
    refine .kept (sameFlags_refl _) ?_
    intro j flag' value' h
    split_ifs at h
    cases h
    exact hu
  | some user =>
    by_cases ha : ((db.users.get? me).map User.admin).getD false ∧ id ≠ me
    · simp only [if_pos ha]
      exact .saved id flag (.bool value) user hu rfl
    · simp only [if_neg ha]
      exact .kept (sameFlags_refl _) (fun _ _ _ h => by cases h)

theorem adminUpdate_assigns (id : ℕ) (enabled admin : Param) :
    Assigned P db (AdminUsersController.update P db me id enabled admin).2
      (UserAction.assigns db me (.adminUpdate id enabled admin)) := by
  unfold AdminUsersController.update
  simp only [UserAction.assigns]
  by_cases hs : ((db.users.get? me).map User.superAdmin).getD false = true
  · rw [if_pos hs, if_pos hs]
    cases hu : db.users.get? id with
    | none =>
      refine .kept (sameFlags_refl _) ?_
      intro j flag value h
      split_ifs at h
      · cases h
        exact hu
      · cases h
        exact hu
    | some user =>
      by_cases he : enabled.truthy = true
      · simp only [if_pos he]
        exact .saved id .enabled enabled user hu rfl
      · by_cases ha : admin.truthy = true
        · simp only [if_neg he, if_pos ha]
          exact .saved id .admin admin user hu rfl
        · simp only [if_neg he, if_neg ha]
          exact .kept (sameFlags_refl _) (fun _ _ _ h => by cases h)
  · rw [if_neg hs, if_neg hs]
    exact .kept (sameFlags_refl _) (fun _ _ _ h => by cases h)

theorem updateProfile_flags (id : ℕ) (params : ParamsHash) :
    Table.Persists SameFlags db.users (UsersController.update P db me id params).2.users := by
  rcases update_cases P db me id params with h | ⟨user, hu, h, -⟩
  · rw [h]
    exact sameFlags_refl _
  · rw [h]
    exact updateAttributes_flags P db (Table.get?_row hu) (assignAll_flags user _ (userParams_flags params))

theorem perform_assigns (action : UserAction) : Assigned P db (action.perform P db me) (action.assigns db me) := by
  cases action with
  | update id params => exact .kept (updateProfile_flags P db me id params) (fun _ _ _ h => by cases h)
  | promote id => exact setFlag_assigns P db me id .admin true
  | demote id => exact setFlag_assigns P db me id .admin false
  | enable id => exact setFlag_assigns P db me id .enabled true
  | disable id => exact setFlag_assigns P db me id .enabled false
  | adminUpdate id enabled admin => exact adminUpdate_assigns P db me id enabled admin

end Assigns

/-- The action takes a flag from the only user who is enabled and an admin. -/
def UserAction.TakesLast (P : Platform) (db : Db) (me : ℕ) (action : UserAction) : Prop :=
  ∃ id flag value user, action.assigns db me = some (id, flag, value) ∧ value.toBoolean = false ∧
    db.users.get? id = some user ∧ db.admits P user = true ∧ user.enabled = true ∧ user.admin = true ∧
    ∀ other ∈ db.users.rows, other.enabled = true → other.admin = true → other.id = id

theorem assign_flags (u : User) (flag : Flag) (value : Param) :
    (u.assign (flag.name, value)).flags =
      match flag with
      | .admin => (u.enabled, value.toBoolean)
      | .enabled => (value.toBoolean, u.admin) := by
  cases flag <;> rfl

theorem perform_hasAdmin_iff (P : Platform) {db : Db} (h : HasAdmin db) (me : ℕ) (action : UserAction) :
    HasAdmin (action.perform P db me) ↔ ¬ action.TakesLast P db me := by
  have hassigned := perform_assigns P db me action
  generalize hafter : action.perform P db me = after at hassigned
  generalize hgiven : action.assigns db me = assigned at hassigned
  cases hassigned with
  | kept hp hn =>
    refine iff_of_true (h.persists hp) ?_
    rintro ⟨id, flag, value, user, hassigns, -, hu, -⟩
    rw [hn id flag value (hgiven.symm.trans hassigns)] at hu
    cases hu
  | saved id flag value user hu ha =>
    have hid : user.id = id := Table.get?_key hu
    have hflags : ∀ k, (after.users.get? k).map User.flags =
        if k = id ∧ db.admits P user = true then some (user.assign (flag.name, value)).flags
        else (db.users.get? k).map User.flags := by
      intro k
      rw [ha, ← hid]
      exact updateAttributes_flag P db (Table.get?_row hu) flag value User.flags flags_congr k
    have htakes : action.TakesLast P db me ↔ value.toBoolean = false ∧ db.admits P user = true ∧
        user.enabled = true ∧ user.admin = true ∧
        ∀ other ∈ db.users.rows, other.enabled = true → other.admin = true → other.id = id := by
      constructor
      · rintro ⟨id', flag', value', user', hassigns, hvalue, hu', hrest⟩
        cases hgiven.symm.trans hassigns
        cases hu.symm.trans hu'
        exact ⟨hvalue, hrest⟩
      · rintro ⟨hvalue, hrest⟩
        exact ⟨id, flag, value, user, hgiven, hvalue, hu, hrest⟩
    rw [htakes]
    constructor
    · rintro hleft ⟨hvalue, hadmits, -, -, hsole⟩
      obtain ⟨k, hk⟩ := (hasAdmin_iff after).mp hleft
      rw [hflags] at hk
      by_cases hki : k = id
      · -- the only admin has lost a flag
        rw [if_pos ⟨hki, hadmits⟩, assign_flags] at hk
        cases flag <;> simp [hvalue] at hk
      · rw [if_neg (fun hboth => hki hboth.1)] at hk
        obtain ⟨other, hother, hboth⟩ := Option.map_eq_some_iff.mp hk
        obtain ⟨henabled, hadmin⟩ := Prod.mk.inj hboth
        exact hki ((Table.get?_key hother).symm.trans (hsole other (Table.get?_mem hother) henabled hadmin))
    · intro hno
      obtain ⟨other, hm, henabled, hadmin⟩ := h
      have hget := Table.get?_of_mem hm
      apply (hasAdmin_iff after).mpr
      by_cases hkept : other.id = id ∧ db.admits P user = true
      · obtain ⟨hoid, hadmits⟩ := hkept
        obtain rfl : user = other := Option.some.inj (hu.symm.trans (hoid ▸ hget))
        cases hvalue : value.toBoolean with
        | true =>
          refine ⟨id, ?_⟩
          rw [hflags, if_pos ⟨rfl, hadmits⟩, assign_flags]
          cases flag <;> simp [hvalue, henabled, hadmin]
        | false =>
          -- there is another one, who is left alone
          have hexists : ∃ third ∈ db.users.rows, third.enabled = true ∧ third.admin = true ∧ third.id ≠ id := by
            by_contra hnone
            refine hno ⟨hvalue, hadmits, henabled, hadmin, fun third hthird he ha' => ?_⟩
            by_contra hne
            exact hnone ⟨third, hthird, he, ha', hne⟩
          obtain ⟨third, hthird, he, ha', hne⟩ := hexists
          refine ⟨third.id, ?_⟩
          rw [hflags, if_neg (fun hboth => hne hboth.1), Table.get?_of_mem hthird, Option.map_some, User.flags, he, ha']
      · refine ⟨other.id, ?_⟩
        rw [hflags, if_neg hkept, hget, Option.map_some, User.flags, henabled, hadmin]

def manageUsers (P : Platform) (db : Db) (entry : ℕ × UserAction) : Db := entry.2.perform P db entry.1

theorem admin_remains_iff (P : Platform) (db : Db) (h : HasAdmin db) (actions : List (ℕ × UserAction)) :
    (∀ n, HasAdmin (Transition.run (manageUsers P) db (actions.take n))) ↔
      Transition.Meets (manageUsers P) (fun db entry => ¬ entry.2.TakesLast P db entry.1) db actions :=
  Transition.forall_states_iff_meets (manageUsers P) (I := HasAdmin)
    (fun _ entry hs => perform_hasAdmin_iff P hs entry.1 entry.2) db h actions

/-- Ann is the admin of the site and a super admin. -/
def annGovernsBob : Db :=
  Transition.run (step .plain) (Db.new { adminEmail := some "ann@blnkk.com" })
    [.signUp "ann@blnkk.com" "ann", .signUp "bob@mail.org" "bob"]

theorem annGovernsBob_hasAdmin : HasAdmin annGovernsBob := by
  unfold HasAdmin
  decide +kernel

/-- Ann makes Bob an admin before Bob demotes Ann. -/
theorem admin_remains_with_bob :
    HasAdmin annGovernsBob ∧
      HasAdmin (Transition.run (manageUsers .plain) annGovernsBob [(1, .promote 2), (2, .demote 1)]) := by
  refine ⟨annGovernsBob_hasAdmin, ?_⟩
  have hmeets : Transition.Meets (manageUsers .plain) (fun db entry => ¬ entry.2.TakesLast .plain db entry.1) annGovernsBob
      [(1, .promote 2), (2, .demote 1)] := by
    refine ⟨?_, ?_, trivial⟩
    · rintro ⟨id, flag, value, user, hassigns, hvalue, -⟩
      have hpromote : UserAction.assigns annGovernsBob 1 (.promote 2) = some (2, .admin, .bool true) := by decide +kernel
      cases hpromote.symm.trans hassigns
      cases hvalue
    · rintro ⟨id, flag, value, user, hassigns, -, -, -, -, -, hsole⟩
      have hdemote : UserAction.assigns (manageUsers .plain annGovernsBob (1, .promote 2)) 2 (.demote 1) =
          some (1, .admin, .bool false) := by decide +kernel
      cases hdemote.symm.trans hassigns
      have hbob : ∃ bob ∈ (manageUsers .plain annGovernsBob (1, .promote 2)).users.rows,
          bob.enabled = true ∧ bob.admin = true ∧ bob.id = 2 := by decide +kernel
      obtain ⟨bob, hm, henabled, hadmin, hid⟩ := hbob
      have hone := hsole bob hm henabled hadmin
      omega
  exact (admin_remains_iff .plain annGovernsBob annGovernsBob_hasAdmin _).mpr hmeets 2

/-- What the API refuses, the admin panel does: Ann, the only admin, gives
the rights up. -/
theorem panel_demotes_last_admin :
    HasAdmin annGovernsBob ∧
      HasAdmin (Transition.run (manageUsers .plain) annGovernsBob [(1, .demote 1)]) ∧
      ¬ HasAdmin (Transition.run (manageUsers .plain) annGovernsBob [(1, .adminUpdate 1 .null (.text "0"))]) := by
  refine ⟨annGovernsBob_hasAdmin, ?_, ?_⟩
  · unfold HasAdmin
    decide +kernel
  · unfold HasAdmin
    decide +kernel

end Blnkk
