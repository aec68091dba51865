import Blnkk.Presence

/-!
What a tenant learns about the presence of users. The store of a connection is
keyed by the id of the watched user alone, and the databases of the tenants use
the same ids.
-/

namespace Blnkk

open Relational

namespace SocketServer

variable {δ : Type} [DecidableEq δ]

/-- The user whose status the event changes in the eyes of the server. -/
def concerns (s : SocketServer δ) : PresenceEvent δ → Option (StatusKind × ℕ)
  | .connect d id cookieUser paramUser key =>
    if s.connections.has (d, id) || (s.connectedUsers d).isNone then none
    else (s.admits d (cookieUser.or paramUser) key).map (fun user => (.connected, user.id))
  | .close _ d id =>
    (s.connections.get? (d, id)).bind (fun c => (s.currentUser d c.sessionUser).bind (fun user =>
      (s.connectedUsers d).bind (fun counts =>
        if counts user.id - 1 ≤ 0 then some (.disconnected, user.id) else none)))
  | .watch .. => none

theorem usersWatchingMe_openConnection (s : SocketServer δ) (d : δ) (id : ℕ) (sessionUser : Option ℕ) (accepted : Bool)
    (user : ℕ) : (s.openConnection d id sessionUser accepted).usersWatchingMe user = s.usersWatchingMe user := by
  simp only [usersWatchingMe, openConnection, Table.ensure_rows]
  split_ifs
  · rfl
  · simp [List.filterMap_append]

theorem statuses_eq (s : SocketServer δ) (event : PresenceEvent δ) :
    s.statuses event = ((s.concerns event).map (fun k => s.announce event.database k.1 k.2)).getD [] := by
  cases event with
  | connect d id cookieUser paramUser key =>
    simp only [statuses, handle, concerns, PresenceEvent.database]
    cases s.connections.has (d, id) with
    | true => rfl
    | false =>
      cases s.admits d (cookieUser.or paramUser) key with
      | none => cases (s.connectedUsers d).isNone <;> rfl
      | some user =>
        have hopen : (s.openConnection d id (cookieUser.or paramUser) true).connectedUsers d = s.connectedUsers d := rfl
        simp only [userConnected, hopen]
        cases s.connectedUsers d with
        | none => rfl
        | some counts =>
          simp only [announce, usersWatchingMe_openConnection]
          rfl
  | close now d id =>
    simp only [statuses, handle, concerns, PresenceEvent.database]
    cases s.connections.get? (d, id) with
    | none => rfl
    | some c =>
      simp only [userDisconnected, Option.bind_some]
      cases s.currentUser d c.sessionUser with
      | none => rfl
      | some user =>
        simp only [Option.bind_some]
        cases s.connectedUsers d with
        | none => rfl
        | some counts =>
          simp only [Option.bind_some]
          split_ifs <;> rfl
  | watch d id userIds =>
    simp only [statuses, handle, concerns]
    cases (s.connections.get? (d, id)).bind (fun c => s.currentUser d c.sessionUser) <;> rfl

def ofTenant (A : δ) (c : Connection δ) : Bool := decide (c.database = A)

/-- The second server has exactly what the first one has of the tenant. -/
structure Agrees (A : δ) (s s' : SocketServer δ) : Prop where
  users : s'.users A = s.users A
  connectedUsers : s'.connectedUsers A = s.connectedUsers A
  connections : s'.connections = s.connections.restrict (ofTenant A)

namespace Agrees

variable {A : δ} {s s' : SocketServer δ}

theorem get? (h : Agrees A s s') (id : ℕ) : s'.connections.get? (A, id) = s.connections.get? (A, id) := by
  rw [h.connections, Table.get?_restrict]
  cases hg : s.connections.get? (A, id) with
  | none => rfl
  | some c =>
    have hk : c.index = (A, id) := Table.get?_key hg
    have hp : ofTenant A c = true := decide_eq_true (Prod.mk.inj hk).1
    simp [Option.filter, hp]

theorem has (h : Agrees A s s') (id : ℕ) : s'.connections.has (A, id) = s.connections.has (A, id) := by
  rw [Table.has, h.get?, Table.has]

theorem currentUser (h : Agrees A s s') (sessionUser : Option ℕ) :
    s'.currentUser A sessionUser = s.currentUser A sessionUser := by
  simp only [SocketServer.currentUser, h.users]

theorem admits (h : Agrees A s s') (sessionUser : Option ℕ) (key : Option String) :
    s'.admits A sessionUser key = s.admits A sessionUser key := by
  simp only [SocketServer.admits, h.currentUser]

theorem concerns (h : Agrees A s s') {event : PresenceEvent δ} (ha : event.database = A) :
    s'.concerns event = s.concerns event := by
  cases event with
  | connect d id cookieUser paramUser key =>
    obtain rfl : d = A := ha
    simp only [SocketServer.concerns, h.has, h.connectedUsers, h.admits]
  | close now d id =>
    obtain rfl : d = A := ha
    simp only [SocketServer.concerns, h.get?, h.connectedUsers, h.currentUser]
  | watch d id userIds => rfl

theorem setCount (h : Agrees A s s') (user : ℕ) (n : ℤ) : Agrees A (s.setCount A user n) (s'.setCount A user n) :=
  ⟨h.users, by simp only [SocketServer.setCount, Function.update_self, h.connectedUsers], h.connections⟩

theorem setUser (h : Agrees A s s') (user : ℕ) (f : SocketUser → SocketUser) (hf : ∀ u, (f u).id = u.id) :
    Agrees A (s.setUser A user f hf) (s'.setUser A user f hf) :=
  ⟨by simp only [SocketServer.setUser, Function.update_self, h.users], h.connectedUsers, h.connections⟩

theorem openConnection (h : Agrees A s s') (id : ℕ) (sessionUser : Option ℕ) (accepted : Bool) :
    Agrees A (s.openConnection A id sessionUser accepted) (s'.openConnection A id sessionUser accepted) := by
  refine ⟨h.users, h.connectedUsers, ?_⟩
  have hsame : ∀ c : Connection δ, c.index = (A, id) → ofTenant A c = true :=
    fun c hc => decide_eq_true (Prod.mk.inj hc).1
  simp only [SocketServer.openConnection, h.connections]
  rw [Table.restrict_ensure _ (fun c hc => (hsame c hc).trans (hsame _ rfl).symm), if_pos (hsame _ rfl)]

theorem closeConnection (h : Agrees A s s') (id : ℕ) :
    Agrees A (s.closeConnection A id) (s'.closeConnection A id) :=
  ⟨h.users, h.connectedUsers, by simp only [SocketServer.closeConnection, h.connections, Table.restrict_erase]⟩

theorem setStore (h : Agrees A s s') (id : ℕ) (store : List (ℕ × ℕ)) :
    Agrees A (s.setStore A id store) (s'.setStore A id store) := by
  refine ⟨h.users, h.connectedUsers, ?_⟩
  simp only [SocketServer.setStore, h.connections]
  exact (Table.restrict_update s.connections (ofTenant A) (A, id) (fun c => { c with store }) (fun _ => rfl)
    (fun _ => rfl)).symm

theorem userConnected (h : Agrees A s s') (user : ℕ) :
    Agrees A (s.userConnected A user).1 (s'.userConnected A user).1 := by
  simp only [SocketServer.userConnected, h.connectedUsers]
  cases s.connectedUsers A with
  | none => exact h
  | some counts => exact (h.setCount user _).setUser user _ _

theorem userDisconnected (h : Agrees A s s') (now : ℕ) (sessionUser : Option ℕ) :
    Agrees A (s.userDisconnected A now sessionUser).1 (s'.userDisconnected A now sessionUser).1 := by
  simp only [SocketServer.userDisconnected, h.currentUser, h.connectedUsers]
  cases s.currentUser A sessionUser with
  | none => exact h
  | some user =>
    cases s.connectedUsers A with
    | none => exact h
    | some counts =>
      simp only
      split_ifs
      · exact (h.setCount user.id _).setUser user.id _ _
      · exact h.setCount user.id _

theorem own_step (h : Agrees A s s') {event : PresenceEvent δ} (ha : event.database = A) :
    Agrees A (s.step event) (s'.step event) := by
  cases event with
  | connect d id cookieUser paramUser key =>
    obtain rfl : d = A := ha
    simp only [step, handle, h.has, h.admits]
    split_ifs
    · exact h
    · cases s.admits d (cookieUser.or paramUser) key with
      | none => exact h.openConnection id _ _
      | some user => exact (h.openConnection id _ _).userConnected user.id
  | close now d id =>
    obtain rfl : d = A := ha
    simp only [step, handle, h.get?]
    cases s.connections.get? (d, id) with
    | none => exact h
    | some c => exact (h.userDisconnected now c.sessionUser).closeConnection id
  | watch d id userIds =>
    obtain rfl : d = A := ha
    simp only [step, handle, h.get?, h.currentUser]
    cases (s.connections.get? (d, id)).bind (fun c => s.currentUser d c.sessionUser) with
    | none => exact h
    | some user => exact h.setStore id _

theorem of_other (h : Agrees A s s') {t : SocketServer δ} (hu : t.users A = s.users A)
    (hc : t.connectedUsers A = s.connectedUsers A)
    (hr : t.connections.restrict (ofTenant A) = s.connections.restrict (ofTenant A)) : Agrees A t s' :=
  ⟨h.users.trans hu.symm, h.connectedUsers.trans hc.symm, h.connections.trans hr.symm⟩

theorem restrict_none {d : δ} (hd : d ≠ A) (s : SocketServer δ) (id : ℕ) :
    (s.connections.restrict (ofTenant A)).get? (d, id) = none := by
  rw [Table.get?_restrict]
  cases hg : s.connections.get? (d, id) with
  | none => rfl
  | some c =>
    have hk : c.index = (d, id) := Table.get?_key hg
    have hp : ofTenant A c = false := decide_eq_false (by rw [(Prod.mk.inj hk).1]; exact hd)
    simp [Option.filter, hp]

theorem other_userConnected (h : Agrees A s s') {d : δ} (hd : d ≠ A) (user : ℕ) :
    Agrees A (s.userConnected d user).1 s' := by
  unfold SocketServer.userConnected
  cases s.connectedUsers d with
  | none => exact h
  | some counts => exact h.of_other (Function.update_of_ne hd.symm _ _) (Function.update_of_ne hd.symm _ _) rfl

theorem other_userDisconnected (h : Agrees A s s') {d : δ} (hd : d ≠ A) (now : ℕ) (sessionUser : Option ℕ) :
    Agrees A (s.userDisconnected d now sessionUser).1 s' := by
  unfold SocketServer.userDisconnected
  cases s.currentUser d sessionUser with
  | none => exact h
  | some user =>
    cases s.connectedUsers d with
    | none => exact h
    | some counts =>
      simp only
      split_ifs
      · exact h.of_other (Function.update_of_ne hd.symm _ _) (Function.update_of_ne hd.symm _ _) rfl
      · exact h.of_other rfl (Function.update_of_ne hd.symm _ _) rfl

theorem other_openConnection (h : Agrees A s s') {d : δ} (hd : d ≠ A) (id : ℕ) (sessionUser : Option ℕ)
    (accepted : Bool) : Agrees A (s.openConnection d id sessionUser accepted) s' := by
  have hsame : ∀ c : Connection δ, c.index = (d, id) → ofTenant A c = false :=
    fun c hc => decide_eq_false (by rw [(Prod.mk.inj hc).1]; exact hd)
  refine h.of_other rfl rfl ?_
  simp only [SocketServer.openConnection]
  rw [Table.restrict_ensure _ (fun c hc => (hsame c hc).trans (hsame _ rfl).symm),
    if_neg (by rw [hsame _ rfl]; exact Bool.false_ne_true)]

theorem other_closeConnection (h : Agrees A s s') {d : δ} (hd : d ≠ A) (id : ℕ) :
    Agrees A (s.closeConnection d id) s' := by
  refine h.of_other rfl rfl ?_
  rw [SocketServer.closeConnection, Table.restrict_erase, Table.erase_of_get?_none (restrict_none hd s id)]

theorem other_setStore (h : Agrees A s s') {d : δ} (hd : d ≠ A) (id : ℕ) (store : List (ℕ × ℕ)) :
    Agrees A (s.setStore d id store) s' := by
  refine h.of_other rfl rfl ?_
  refine (Table.restrict_update s.connections (ofTenant A) (d, id) (fun c => { c with store }) (fun _ => rfl)
    (fun _ => rfl)).trans (Table.update_eq_self (fun c hc => ?_))
  rw [restrict_none hd s id] at hc
  cases hc

theorem other_step (h : Agrees A s s') {event : PresenceEvent δ} (ha : event.database ≠ A) :
    Agrees A (s.step event) s' := by
  cases event with
  | connect d id cookieUser paramUser key =>
    have hd : d ≠ A := ha
    simp only [step, handle]
    split_ifs
    · exact h
    · cases s.admits d (cookieUser.or paramUser) key with
      | none => exact h.other_openConnection hd id _ _
      | some user => exact (h.other_openConnection hd id _ _).other_userConnected hd user.id
  | close now d id =>
    have hd : d ≠ A := ha
    simp only [step, handle]
    cases s.connections.get? (d, id) with
    | none => exact h
    | some c => exact (h.other_userDisconnected hd now c.sessionUser).other_closeConnection hd id
  | watch d id userIds =>
    have hd : d ≠ A := ha
    simp only [step, handle]
    cases (s.connections.get? (d, id)).bind (fun c => s.currentUser d c.sessionUser) with
    | none => exact h
    | some user => exact h.other_setStore hd id _

end Agrees

def tenantStatuses (A : δ) (s : SocketServer δ) (event : PresenceEvent δ) : List (StatusEvent δ) :=
  (s.statuses event).filter (fun sent => decide (sent.database = A))

def Watches (s : SocketServer δ) (d : δ) (receiver user : ℕ) : Prop :=
  ∃ c ∈ s.connections.rows, c.database = d ∧ c.store.lookup user = some receiver

/-- The event is sent exactly to the users of its tenant that watch the user. -/
def Addressed (s : SocketServer δ) (event : PresenceEvent δ) : Prop :=
  ∀ kind receiver user, ⟨kind, event.database, receiver, user⟩ ∈ s.statuses event ↔
    s.concerns event = some (kind, user) ∧ s.Watches event.database receiver user

def WatchedAbroad (s : SocketServer δ) (event : PresenceEvent δ) : Prop :=
  ∃ kind user, s.concerns event = some (kind, user) ∧
    ∃ c ∈ s.connections.rows, c.database ≠ event.database ∧ (c.store.lookup user).isSome = true

theorem statuses_database (s : SocketServer δ) (event : PresenceEvent δ) :
    ∀ sent ∈ s.statuses event, sent.database = event.database := by
  intro sent hm
  rw [statuses_eq] at hm
  cases hc : s.concerns event with
  | none =>
    rw [hc] at hm
    cases hm
  | some k =>
    rw [hc, Option.map_some, Option.getD_some] at hm
    obtain ⟨receiver, -, rfl⟩ := List.mem_map.mp hm
    rfl

theorem tenantStatuses_own (A : δ) (s : SocketServer δ) {event : PresenceEvent δ} (ha : event.database = A) :
    tenantStatuses A s event = s.statuses event := by
  rw [tenantStatuses, List.filter_eq_self]
  intro sent hm
  exact decide_eq_true ((statuses_database s event sent hm).trans ha)

theorem tenantStatuses_other (A : δ) (s : SocketServer δ) {event : PresenceEvent δ} (ha : event.database ≠ A) :
    tenantStatuses A s event = [] := by
  rw [tenantStatuses, List.filter_eq_nil_iff]
  intro sent hm he
  exact ha ((statuses_database s event sent hm).symm.trans (of_decide_eq_true he))

theorem announce_length {A : δ} {s s' : SocketServer δ} (h : Agrees A s s') {event : PresenceEvent δ}
    (ha : event.database = A) : (s'.statuses event).length ≤ (s.statuses event).length := by
  rw [statuses_eq, statuses_eq, h.concerns ha]
  cases s.concerns event with
  | none => exact Nat.le_refl _
  | some k =>
    simp only [Option.map_some, Option.getD_some, announce, List.length_map, usersWatchingMe, h.connections]
    exact (Table.filterMap_restrict_sublist _ _ _).length_le

theorem statuses_agree_iff {A : δ} {s s' : SocketServer δ} (h : Agrees A s s') {event : PresenceEvent δ}
    (ha : event.database = A) : s.statuses event = s'.statuses event ↔ ¬ s.WatchedAbroad event := by
  rw [statuses_eq, statuses_eq, h.concerns ha, WatchedAbroad]
  cases s.concerns event with
  | none => simp
  | some k =>
    obtain ⟨kind, user⟩ := k
    have hinj : Function.Injective (fun receiver => (⟨kind, event.database, receiver, user⟩ : StatusEvent δ)) :=
      fun a b hab => (StatusEvent.mk.inj hab).2.2.1
    simp only [Option.map_some, Option.getD_some, announce, usersWatchingMe, h.connections]
    rw [(List.map_injective_iff.mpr hinj).eq_iff, Table.filterMap_restrict_eq_iff, ha]
    simp only [Option.some.injEq, Prod.mk.injEq]
    constructor
    · rintro hall ⟨kind', user', ⟨rfl, rfl⟩, c, hm, hd, hsome⟩
      rw [hall c hm (decide_eq_false hd)] at hsome
      cases hsome
    · intro hno c hm hd
      by_contra hsome
      exact hno ⟨kind, user, ⟨rfl, rfl⟩, c, hm, of_decide_eq_false hd, Option.isSome_iff_ne_none.mpr hsome⟩

theorem addressed_of_not_watchedAbroad {s : SocketServer δ} {event : PresenceEvent δ} (h : ¬ s.WatchedAbroad event) :
    s.Addressed event := by
  intro kind receiver user
  rw [statuses_eq]
  cases hc : s.concerns event with
  | none => simp
  | some k =>
    obtain ⟨kind', user'⟩ := k
    simp only [Option.map_some, Option.getD_some, announce, usersWatchingMe, List.mem_map, List.mem_filterMap,
      Option.some.injEq, Prod.mk.injEq]
    constructor
    · rintro ⟨receiver', ⟨c, hm, hlookup⟩, he⟩
      obtain ⟨rfl, -, rfl, rfl⟩ := StatusEvent.mk.inj he
      refine ⟨⟨rfl, rfl⟩, c, hm, ?_, hlookup⟩
      by_contra hd
      exact h ⟨kind', user', hc, c, hm, hd, by rw [hlookup, Option.isSome_some]⟩
    · rintro ⟨⟨rfl, rfl⟩, c, hm, -, hlookup⟩
      exact ⟨receiver, ⟨c, hm, hlookup⟩, rfl⟩

end SocketServer

open SocketServer in
theorem tenant_statuses_iff {δ : Type} [DecidableEq δ] (A : δ) (users : δ → Table SocketUser.id) (databases : δ → Bool)
    (events : List (PresenceEvent δ)) :
    (Transition.trace step (tenantStatuses A) (start users databases) events =
        Transition.trace step (tenantStatuses A) (start users databases)
          (events.filter (fun event => decide (event.database = A))) ∧
      Transition.Meets step (fun s event => event.database = A → s.Addressed event) (start users databases) events) ↔
    Transition.Meets step (fun s event => event.database = A → ¬ s.WatchedAbroad event) (start users databases)
      events := by
  have hiff : Transition.trace step (tenantStatuses A) (start users databases) events =
        Transition.trace step (tenantStatuses A) (start users databases)
          (events.filter (fun event => decide (event.database = A))) ↔
      Transition.Meets step (fun s event => decide (event.database = A) = true → ¬ s.WatchedAbroad event)
        (start users databases) events := by
    apply Transition.trace_purge_iff (R := Agrees A)
    · exact fun s s' event h ha => h.own_step (of_decide_eq_true ha)
    · exact fun s s' event h ha => h.other_step (of_decide_eq_false ha)
    · exact fun s event ha => tenantStatuses_other A s (of_decide_eq_false ha)
    · intro s s' event h ha
      rw [tenantStatuses_own A s (of_decide_eq_true ha), tenantStatuses_own A s' (of_decide_eq_true ha)]
      exact announce_length h (of_decide_eq_true ha)
    · intro s s' event h ha
      rw [tenantStatuses_own A s (of_decide_eq_true ha), tenantStatuses_own A s' (of_decide_eq_true ha)]
      exact statuses_agree_iff h (of_decide_eq_true ha)
    · exact ⟨rfl, rfl, rfl⟩
  simp only [decide_eq_true_eq] at hiff
  rw [hiff]
  exact and_iff_left_of_imp
    (Transition.Meets.imp step (fun s event h ha => addressed_of_not_watchedAbroad (h ha)))

def usersOfBoth (_ : String) : Table SocketUser.id :=
  (Table.empty.insertFresh (fun id => { id, socketKey := some "5f3a" })).insertFresh
    (fun id => { id, socketKey := some "77e0" })

/-- User 2 of the second community watches user 1 of that community, and user 1
of the first one connects. -/
def sameIdsInBoth : List (PresenceEvent String) :=
  [.connect "blnkk_b" 1 (some 2) none (some "77e0"), .watch "blnkk_b" 1 (some [1]),
    .connect "blnkk_a" 1 (some 1) none (some "5f3a")]

open SocketServer in
theorem watcher_of_other_tenant_told :
    Transition.trace step (tenantStatuses "blnkk_a") (start usersOfBoth (fun _ => true)) sameIdsInBoth =
        [⟨.connected, "blnkk_a", 2, 1⟩] ∧
      Transition.trace step (tenantStatuses "blnkk_a") (start usersOfBoth (fun _ => true)) sameIdsInBoth ≠
        Transition.trace step (tenantStatuses "blnkk_a") (start usersOfBoth (fun _ => true))
          (sameIdsInBoth.filter (fun event => decide (event.database = "blnkk_a"))) := by
  decide +kernel

end Blnkk
