import Blnkk.Presence

/-!
`connected_users` and the online column against the connections that are open.
-/

namespace Blnkk

open Relational

namespace SocketServer

variable {δ : Type}

/-- What `connected_users[database][user]` evaluates to; every bit of the
integer zero is zero. -/
def counted (s : SocketServer δ) (d : δ) (u : ℕ) : ℤ := ((s.connectedUsers d).map (fun counts => counts u)).getD 0

structure PresentAs (s : SocketServer δ) (d : δ) (u : ℕ) (n : ℕ) : Prop where
  counted : s.counted d u = n
  online : ∀ user, (s.users d).get? u = some user → (user.online = true ↔ 0 < n)

def Known (s : SocketServer δ) : Prop :=
  ∀ c ∈ s.connections.rows, c.accepted = true → (s.currentUser c.database c.sessionUser).isSome = true

theorem currentUser_id (s : SocketServer δ) (d : δ) {sessionUser : Option ℕ} {user : SocketUser} (h : s.currentUser d sessionUser = some user) :
    sessionUser = some user.id ∧ (s.users d).get? user.id = some user := by
  obtain ⟨id, rfl, hget⟩ := Option.bind_eq_some_iff.mp h
  have hid : user.id = id := Table.get?_key hget
  rw [hid]
  exact ⟨rfl, hget⟩

theorem PresentAs.congr {s s' : SocketServer δ} {d : δ} {u n : ℕ} (h : s.PresentAs d u n)
    (hc : s'.counted d u = s.counted d u) (hu : (s'.users d).get? u = (s.users d).get? u) : s'.PresentAs d u n :=
  ⟨hc.trans h.counted, fun user hget => h.online user (hu.symm.trans hget)⟩

theorem admits_currentUser {s : SocketServer δ} {d : δ} {sessionUser : Option ℕ} {key : Option String} {user : SocketUser}
    (h : s.admits d sessionUser key = some user) : s.currentUser d sessionUser = some user :=
  (Option.filter_eq_some_iff.mp h).1

theorem counted_of_none {s : SocketServer δ} {d : δ} (h : s.connectedUsers d = none) (u : ℕ) : s.counted d u = 0 := by
  simp [counted, h]

theorem counted_of_some {s : SocketServer δ} {d : δ} {counts : ℕ → ℤ} (h : s.connectedUsers d = some counts) (u : ℕ) :
    s.counted d u = counts u := by
  simp [counted, h]

theorem Known.of_connections {s s' : SocketServer δ} (h : s.Known)
    (hu : ∀ d sessionUser, (s'.currentUser d sessionUser).isSome = (s.currentUser d sessionUser).isSome)
    (hc : ∀ c ∈ s'.connections.rows, c.accepted = true →
      (s.currentUser c.database c.sessionUser).isSome = true ∨
        ∃ c' ∈ s.connections.rows, c'.accepted = true ∧ c'.database = c.database ∧ c'.sessionUser = c.sessionUser) :
    s'.Known := by
  intro c hm ha
  rw [hu]
  rcases hc c hm ha with hsome | ⟨c', hm', ha', hd, hs⟩
  · exact hsome
  · rw [← hd, ← hs]
    exact h c' hm' ha'

variable [DecidableEq δ]

def openCount (s : SocketServer δ) (d : δ) (u : ℕ) : ℕ :=
  s.connections.count (fun c => decide (c.database = d) && decide (c.sessionUser = some u) && c.accepted)

def Exact (s : SocketServer δ) : Prop := ∀ d u, s.PresentAs d u (s.openCount d u)

section Writes

variable (s : SocketServer δ) (d d' : δ) (u u' : ℕ)

@[simp]
theorem users_setCount (n : ℤ) : (s.setCount d u n).users = s.users := rfl

theorem counted_setUser (f : SocketUser → SocketUser) (hf : ∀ u, (f u).id = u.id) :
    (s.setUser d u f hf).counted d' u' = s.counted d' u' := rfl

theorem counted_setCount {counts : ℕ → ℤ} (h : s.connectedUsers d = some counts) (n : ℤ) :
    (s.setCount d u n).counted d' u' = if d' = d ∧ u' = u then n else s.counted d' u' := by
  by_cases hd : d' = d
  · subst hd
    by_cases hu : u' = u
    · subst hu
      simp [counted, setCount, h]
    · simp [counted, setCount, h, hu]
  · simp [counted, setCount, hd]

theorem get?_setUser (f : SocketUser → SocketUser) (hf : ∀ u, (f u).id = u.id) :
    ((s.setUser d u f hf).users d').get? u' =
      if d' = d ∧ u' = u then ((s.users d').get? u').map f else (s.users d').get? u' := by
  by_cases hd : d' = d
  · subst hd
    simp only [setUser, Function.update_self, Table.get?_update, true_and]
  · simp only [setUser, Function.update_of_ne hd, hd, false_and, if_false]

theorem openCount_openConnection {id : ℕ} (hn : s.connections.has (d, id) = false) (sessionUser : Option ℕ)
    (accepted : Bool) :
    (s.openConnection d id sessionUser accepted).openCount d' u' =
      s.openCount d' u' + if d = d' ∧ sessionUser = some u' ∧ accepted = true then 1 else 0 := by
  have hrows : (s.openConnection d id sessionUser accepted).connections.rows =
      s.connections.rows ++ [{ database := d, id, sessionUser, accepted }] := by
    rw [openConnection, Table.ensure_rows, if_neg (by rw [hn]; exact Bool.false_ne_true)]
  rw [openCount, Table.count_append hrows, openCount]
  congr 1
  simp [and_assoc]

theorem openCount_closeConnection {id : ℕ} {c : Connection δ} (h : s.connections.get? (d, id) = some c) :
    s.openCount d' u' = (s.closeConnection d id).openCount d' u' +
      if d = d' ∧ c.sessionUser = some u' ∧ c.accepted = true then 1 else 0 := by
  have hk : c.index = (d, id) := Table.get?_key h
  have hd : c.database = d := (Prod.mk.inj hk).1
  rw [openCount, Table.count_erase h, openCount, closeConnection]
  congr 1
  simp [hd, and_assoc]

theorem openCount_setStore (id : ℕ) (store : List (ℕ × ℕ)) :
    (s.setStore d id store).openCount d' u' = s.openCount d' u' :=
  Table.count_updateWhere_of s.connections _ (fun c => { c with store }) (fun _ => rfl) _ (fun _ => rfl)

theorem mem_setStore {id : ℕ} {store : List (ℕ × ℕ)} {c : Connection δ} (h : c ∈ (s.setStore d id store).connections.rows) :
    ∃ c' ∈ s.connections.rows, c = if c'.index = (d, id) then { c' with store } else c' := by
  obtain ⟨c', hm, rfl⟩ := List.mem_map.mp h
  exact ⟨c', hm, by simp only [decide_eq_true_eq]⟩

end Writes

theorem exact_iff_at {s' : SocketServer δ} {d : δ} {u : ℕ}
    (h : ∀ d' u', ¬ (d' = d ∧ u' = u) → s'.PresentAs d' u' (s'.openCount d' u')) :
    s'.Exact ↔ s'.PresentAs d u (s'.openCount d u) := by
  refine ⟨fun he => he d u, fun hat d' u' => ?_⟩
  by_cases hk : d' = d ∧ u' = u
  · obtain ⟨rfl, rfl⟩ := hk
    exact hat
  · exact h d' u' hk

/-- A wrong key leads to a closing that takes a connection of the user out of
the count; the count of a new database cannot be kept. -/
def Miscounts (s : SocketServer δ) : PresenceEvent δ → Prop
  | .connect d id cookieUser paramUser key =>
    s.connections.has (d, id) = false ∧ s.connectedUsers d = none ∧
      (s.admits d (cookieUser.or paramUser) key).isSome = true
  | .close _ d id =>
    ∃ c user, s.connections.get? (d, id) = some c ∧ c.accepted = false ∧ s.currentUser d c.sessionUser = some user ∧
      0 < s.openCount d user.id
  | .watch .. => False

theorem rejected_exact {s : SocketServer δ} (hs : s.Exact) (d : δ) {id : ℕ} (hn : s.connections.has (d, id) = false)
    (sessionUser : Option ℕ) : (s.openConnection d id sessionUser false).Exact := by
  intro d' u'
  rw [openCount_openConnection s d d' u' hn, if_neg (by simp), Nat.add_zero]
  exact (hs d' u').congr rfl rfl

theorem connected_exact_iff {s : SocketServer δ} (hs : s.Exact) (d : δ) {id : ℕ}
    (hn : s.connections.has (d, id) = false) {sessionUser : Option ℕ} {user : SocketUser}
    (hu : s.currentUser d sessionUser = some user) :
    ((s.openConnection d id sessionUser true).userConnected d user.id).1.Exact ↔ s.connectedUsers d ≠ none := by
  obtain ⟨rfl, hget⟩ := s.currentUser_id d hu
  have hopen : ∀ d' u', (s.openConnection d id (some user.id) true).openCount d' u' =
      s.openCount d' u' + if d' = d ∧ u' = user.id then 1 else 0 := by
    intro d' u'
    rw [openCount_openConnection s d d' u' hn]
    simp only [Option.some.injEq, and_true, eq_comm]
  cases hc : s.connectedUsers d with
  | none =>
    have hopened : (s.openConnection d id (some user.id) true).connectedUsers d = none := hc
    have he : ((s.openConnection d id (some user.id) true).userConnected d user.id).1 =
        s.openConnection d id (some user.id) true := by
      simp only [userConnected, hopened]
    rw [he]
    refine iff_of_false (fun hex => ?_) (fun h => h rfl)
    have hcount := (hex d user.id).counted
    rw [counted_of_none hopened, hopen, if_pos ⟨rfl, rfl⟩] at hcount
    omega
  | some counts =>
    have hopened : (s.openConnection d id (some user.id) true).connectedUsers d = some counts := hc
    have he : ((s.openConnection d id (some user.id) true).userConnected d user.id).1 =
        ((s.openConnection d id (some user.id) true).setCount d user.id (counts user.id + 1)).setUser d user.id
          (fun u => { u with online := true }) := by
      simp only [userConnected, hopened]
    rw [he]
    refine iff_of_true (fun d' u' => ?_) (by simp)
    have hold := hs d' u'
    have hcount : openCount (((s.openConnection d id (some user.id) true).setCount d user.id (counts user.id + 1)).setUser d
        user.id (fun u => { u with online := true })) d' u' = s.openCount d' u' + if d' = d ∧ u' = user.id then 1 else 0 :=
      hopen d' u'
    rw [hcount]
    by_cases hk : d' = d ∧ u' = user.id
    · obtain ⟨rfl, rfl⟩ := hk
      rw [if_pos ⟨rfl, rfl⟩]
      constructor
      · rw [counted_setUser, counted_setCount _ _ _ _ _ hopened, if_pos ⟨rfl, rfl⟩, ← counted_of_some hc, hold.counted]
        rfl
      · intro row hrow
        rw [get?_setUser, if_pos ⟨rfl, rfl⟩] at hrow
        obtain ⟨old, -, rfl⟩ := Option.map_eq_some_iff.mp hrow
        simp
    · rw [if_neg hk, Nat.add_zero]
      refine hold.congr ?_ ?_
      · rw [counted_setUser, counted_setCount _ _ _ _ _ hopened, if_neg hk]
        rfl
      · rw [get?_setUser, if_neg hk]
        rfl

theorem closed_exact {s : SocketServer δ} (hs : s.Exact) {d : δ} {id : ℕ} {c : Connection δ}
    (hc : s.connections.get? (d, id) = some c) (ha : c.accepted = false) : (s.closeConnection d id).Exact := by
  intro d' u'
  have hcount := openCount_closeConnection s d d' u' hc
  rw [if_neg (by simp [ha]), Nat.add_zero] at hcount
  rw [← hcount]
  exact (hs d' u').congr rfl rfl

structure Disconnected (s s' : SocketServer δ) (d : δ) (u : ℕ) (n : ℤ) : Prop where
  connections : s'.connections = s.connections
  counted : ∀ d' u', s'.counted d' u' = if d' = d ∧ u' = u then max (n - 1) 0 else s.counted d' u'
  others : ∀ d' u', ¬ (d' = d ∧ u' = u) → (s'.users d').get? u' = (s.users d').get? u'
  online : ∀ user, (s.users d).get? u = some user → ∃ user', (s'.users d).get? u = some user' ∧
    (user'.online = true ↔ 1 < n ∧ user.online = true)

theorem userDisconnected_spec {s : SocketServer δ} (now : ℕ) {d : δ} {sessionUser : Option ℕ} {user : SocketUser}
    (hu : s.currentUser d sessionUser = some user) {counts : ℕ → ℤ} (hcounts : s.connectedUsers d = some counts) :
    Disconnected s (s.userDisconnected d now sessionUser).1 d user.id (counts user.id) := by
  by_cases hlast : counts user.id - 1 ≤ 0
  · have he : (s.userDisconnected d now sessionUser).1 = (s.setCount d user.id 0).setUser d user.id
        (fun u => { u with online := false, lastSeenAt := some now }) := by
      simp only [userDisconnected, hu, hcounts, if_pos hlast]
    rw [he]
    refine ⟨rfl, fun d' u' => ?_, fun d' u' hk => ?_, fun row hrow => ?_⟩
    · have hm : max (counts user.id - 1) 0 = 0 := by omega
      rw [counted_setUser, counted_setCount _ _ _ _ _ hcounts, hm]
    · rw [get?_setUser, if_neg hk]
      rfl
    · refine ⟨{ row with online := false, lastSeenAt := some now }, ?_, ?_⟩
      · rw [get?_setUser, if_pos ⟨rfl, rfl⟩, users_setCount, hrow, Option.map_some]
      · refine iff_of_false Bool.false_ne_true ?_
        omega
  · have he : (s.userDisconnected d now sessionUser).1 = s.setCount d user.id (counts user.id - 1) := by
      simp only [userDisconnected, hu, hcounts, if_neg hlast]
    rw [he]
    refine ⟨rfl, fun d' u' => ?_, fun d' u' _ => rfl, fun row hrow => ⟨row, hrow, ?_⟩⟩
    · have hm : max (counts user.id - 1) 0 = counts user.id - 1 := by omega
      rw [counted_setCount _ _ _ _ _ hcounts, hm]
    · have hmore : 1 < counts user.id := by omega
      exact (and_iff_right hmore).symm

theorem disconnected_exact_iff {s : SocketServer δ} (hs : s.Exact) (now : ℕ) {d : δ} {id : ℕ} {c : Connection δ}
    (hc : s.connections.get? (d, id) = some c) {user : SocketUser} (hu : s.currentUser d c.sessionUser = some user)
    {counts : ℕ → ℤ} (hcounts : s.connectedUsers d = some counts) :
    ((s.userDisconnected d now c.sessionUser).1.closeConnection d id).Exact ↔
      c.accepted = true ∨ s.openCount d user.id = 0 := by
  obtain ⟨hsession, hget⟩ := s.currentUser_id d hu
  have hspec := userDisconnected_spec now hu hcounts
  have hat := hs d user.id
  have hn : counts user.id = s.openCount d user.id := (counted_of_some hcounts user.id).symm.trans hat.counted
  have hclose : ∀ d' u', s.openCount d' u' =
      ((s.userDisconnected d now c.sessionUser).1.closeConnection d id).openCount d' u' +
        if (d' = d ∧ u' = user.id) ∧ c.accepted = true then 1 else 0 := by
    intro d' u'
    have hsame : ((s.userDisconnected d now c.sessionUser).1.closeConnection d id).openCount d' u' =
        (s.closeConnection d id).openCount d' u' := by
      simp only [openCount, closeConnection, hspec.connections]
    rw [openCount_closeConnection s d d' u' hc, hsame, hsession]
    simp only [Option.some.injEq, and_assoc, eq_comm]
  rw [exact_iff_at (d := d) (u := user.id)]
  · have hclosed := hclose d user.id
    obtain ⟨user', hget', honline'⟩ := hspec.online user hget
    have honline := hat.online user hget
    have hcounted : ((s.userDisconnected d now c.sessionUser).1.closeConnection d id).counted d user.id =
        max (counts user.id - 1) 0 := (hspec.counted d user.id).trans (if_pos ⟨rfl, rfl⟩)
    constructor
    · intro hpresent
      have hcount := hpresent.counted
      rw [hcounted] at hcount
      by_cases ha : c.accepted = true
      · exact Or.inl ha
      · rw [if_neg (by simp [ha])] at hclosed
        right
        omega
    · intro h
      refine ⟨?_, fun row hrow => ?_⟩
      · rw [hcounted]
        rcases h with ha | hzero
        · rw [if_pos ⟨⟨rfl, rfl⟩, ha⟩] at hclosed
          omega
        · omega
      · cases hget'.symm.trans hrow
        rw [honline', honline]
        rcases h with ha | hzero
        · rw [if_pos ⟨⟨rfl, rfl⟩, ha⟩] at hclosed
          omega
        · omega
  · intro d' u' hk
    have hother := hclose d' u'
    rw [if_neg (fun h => hk h.1), Nat.add_zero] at hother
    rw [← hother]
    exact (hs d' u').congr ((hspec.counted d' u').trans (if_neg hk)) (hspec.others d' u' hk)

theorem close_exact_iff {s : SocketServer δ} (hk : s.Known) (hs : s.Exact) (now : ℕ) (d : δ) (id : ℕ) :
    (s.step (.close now d id)).Exact ↔ ¬ s.Miscounts (.close now d id) := by
  simp only [step, handle, Miscounts]
  cases hc : s.connections.get? (d, id) with
  | none => exact iff_of_true hs (by simp)
  | some c =>
    have hd : c.index = (d, id) := Table.get?_key hc
    have hdc : c.database = d := (Prod.mk.inj hd).1
    simp only [Option.some.injEq, exists_and_left, exists_eq_left']
    cases hu : s.currentUser d c.sessionUser with
    | none =>
      have ha : c.accepted = false := by
        by_contra ha
        have huser := hk c (Table.get?_mem hc) (Bool.not_eq_false _ ▸ ha)
        rw [hdc, hu] at huser
        cases huser
      have he : (s.userDisconnected d now c.sessionUser).1 = s := by simp only [userDisconnected, hu]
      rw [he]
      exact iff_of_true (closed_exact hs hc ha) (by simp)
    | some user =>
      simp only [Option.some.injEq, exists_eq_left']
      cases hcounts : s.connectedUsers d with
      | none =>
        have hzero : s.openCount d user.id = 0 := by
          have hcount := (hs d user.id).counted
          rw [counted_of_none hcounts] at hcount
          omega
        have ha : c.accepted = false := by
          by_contra ha
          have hclosed := openCount_closeConnection s d d user.id hc
          rw [if_pos ⟨rfl, (s.currentUser_id d hu).1, Bool.not_eq_false _ ▸ ha⟩] at hclosed
          omega
        have he : (s.userDisconnected d now c.sessionUser).1 = s := by simp only [userDisconnected, hu, hcounts]
        rw [he]
        exact iff_of_true (closed_exact hs hc ha) (by simp [hzero])
      | some counts =>
        rw [disconnected_exact_iff hs now hc hu hcounts]
        cases c.accepted <;> simp

theorem connect_exact_iff {s : SocketServer δ} (hs : s.Exact) (d : δ) (id : ℕ) (cookieUser paramUser : Option ℕ)
    (key : Option String) :
    (s.step (.connect d id cookieUser paramUser key)).Exact ↔ ¬ s.Miscounts (.connect d id cookieUser paramUser key) := by
  simp only [step, handle, Miscounts]
  cases hn : s.connections.has (d, id) with
  | true => exact iff_of_true hs (by simp)
  | false =>
    cases ha : s.admits d (cookieUser.or paramUser) key with
    | none => exact iff_of_true (rejected_exact hs d hn _) (by simp)
    | some user =>
      simp only [Bool.false_eq_true, if_false]
      rw [connected_exact_iff hs d hn (admits_currentUser ha)]
      simp

theorem watch_exact {s : SocketServer δ} (hs : s.Exact) (d : δ) (id : ℕ) (userIds : Option (List ℕ)) :
    (s.step (.watch d id userIds)).Exact := by
  simp only [step, handle]
  cases (s.connections.get? (d, id)).bind (fun c => s.currentUser d c.sessionUser) with
  | none => exact hs
  | some user =>
    intro d' u'
    simp only [openCount_setStore]
    exact (hs d' u').congr rfl rfl

theorem step_exact_iff (s : SocketServer δ) (event : PresenceEvent δ) (hk : s.Known) (hs : s.Exact) :
    (s.step event).Exact ↔ ¬ s.Miscounts event := by
  cases event with
  | connect d id cookieUser paramUser key => exact connect_exact_iff hs d id cookieUser paramUser key
  | close now d id => exact close_exact_iff hk hs now d id
  | watch d id userIds => exact iff_of_true (watch_exact hs d id userIds) (fun h => h)

theorem currentUser_setUser (s : SocketServer δ) (d : δ) (u : ℕ) (f : SocketUser → SocketUser)
    (hf : ∀ u, (f u).id = u.id) (d' : δ) (sessionUser : Option ℕ) :
    ((s.setUser d u f hf).currentUser d' sessionUser).isSome = (s.currentUser d' sessionUser).isSome := by
  cases sessionUser with
  | none => rfl
  | some u' =>
    simp only [currentUser, Option.bind_some, get?_setUser]
    split_ifs
    · exact Option.isSome_map
    · rfl

theorem userConnected_frame (s : SocketServer δ) (d : δ) (u : ℕ) :
    (s.userConnected d u).1.connections = s.connections ∧
      ∀ d' sessionUser, ((s.userConnected d u).1.currentUser d' sessionUser).isSome =
        (s.currentUser d' sessionUser).isSome := by
  unfold userConnected
  cases s.connectedUsers d with
  | none => exact ⟨rfl, fun _ _ => rfl⟩
  | some counts => exact ⟨rfl, fun d' sessionUser => currentUser_setUser _ d u _ _ d' sessionUser⟩

theorem userDisconnected_frame (s : SocketServer δ) (d : δ) (now : ℕ) (session : Option ℕ) :
    (s.userDisconnected d now session).1.connections = s.connections ∧
      ∀ d' sessionUser, ((s.userDisconnected d now session).1.currentUser d' sessionUser).isSome =
        (s.currentUser d' sessionUser).isSome := by
  unfold userDisconnected
  cases s.currentUser d session with
  | none => exact ⟨rfl, fun _ _ => rfl⟩
  | some user =>
    cases s.connectedUsers d with
    | none => exact ⟨rfl, fun _ _ => rfl⟩
    | some counts =>
      simp only
      split_ifs
      · exact ⟨rfl, fun d' sessionUser => currentUser_setUser _ d user.id _ _ d' sessionUser⟩
      · exact ⟨rfl, fun _ _ => rfl⟩

theorem step_known (s : SocketServer δ) (event : PresenceEvent δ) (h : s.Known) : (s.step event).Known := by
  cases event with
  | connect d id cookieUser paramUser key =>
    simp only [step, handle]
    split_ifs
    · exact h
    · have hopen : ∀ accepted, (accepted = true → (s.currentUser d (cookieUser.or paramUser)).isSome = true) →
          (s.openConnection d id (cookieUser.or paramUser) accepted).Known := by
        intro accepted ha
        refine h.of_connections (fun _ _ => rfl) (fun c hm hc => ?_)
        rw [openConnection, Table.ensure_rows] at hm
        split_ifs at hm
        · exact Or.inr ⟨c, hm, hc, rfl, rfl⟩
        · rcases List.mem_append.mp hm with hm | hm
          · exact Or.inr ⟨c, hm, hc, rfl, rfl⟩
          · rw [List.mem_singleton.mp hm] at hc ⊢
            exact Or.inl (ha hc)
      cases ha : s.admits d (cookieUser.or paramUser) key with
      | none => exact hopen false (fun h => by cases h)
      | some user =>
        obtain ⟨hconn, huser⟩ := userConnected_frame (s.openConnection d id (cookieUser.or paramUser) true) d user.id
        refine (hopen true (fun _ => by rw [admits_currentUser ha, Option.isSome_some])).of_connections huser
          (fun c hm hc => ?_)
        rw [hconn] at hm
        exact Or.inr ⟨c, hm, hc, rfl, rfl⟩
  | close now d id =>
    simp only [step, handle]
    cases s.connections.get? (d, id) with
    | none => exact h
    | some c =>
      obtain ⟨hconn, huser⟩ := userDisconnected_frame s d now c.sessionUser
      refine h.of_connections huser (fun c' hm hc => Or.inr ⟨c', ?_, hc, rfl, rfl⟩)
      rw [← hconn]
      exact (Table.mem_erase.mp hm).1
  | watch d id userIds =>
    simp only [step, handle]
    cases (s.connections.get? (d, id)).bind (fun c => s.currentUser d c.sessionUser) with
    | none => exact h
    | some user =>
      refine h.of_connections (fun _ _ => rfl) (fun c hm hc => ?_)
      obtain ⟨c', hm', rfl⟩ := mem_setStore s d hm
      refine Or.inr ⟨c', hm', ?_⟩
      split_ifs at hc ⊢ <;> exact ⟨hc, rfl, rfl⟩

theorem start_exact (users : δ → Table SocketUser.id) (databases : δ → Bool)
    (hoff : ∀ d, ∀ user ∈ (users d).rows, user.online = false) : (start users databases).Exact := by
  intro d u
  have hzero : (start users databases).openCount d u = 0 := rfl
  rw [hzero]
  refine ⟨?_, fun user hget => ?_⟩
  · simp only [counted, start]
    cases databases d <;> rfl
  · rw [hoff d user (Table.get?_mem hget)]
    simp

end SocketServer

theorem presence_exact_iff {δ : Type} [DecidableEq δ] (users : δ → Table SocketUser.id) (databases : δ → Bool)
    (hoff : ∀ d, ∀ user ∈ (users d).rows, user.online = false) (events : List (PresenceEvent δ)) :
    (∀ n, (Transition.run SocketServer.step (SocketServer.start users databases) (events.take n)).Exact) ↔
      Transition.Meets SocketServer.step (fun s event => ¬ s.Miscounts event) (SocketServer.start users databases) events :=
  Transition.forall_states_iff_meets_of_invariant SocketServer.step (J := SocketServer.Known) SocketServer.step_known
    SocketServer.step_exact_iff _ (fun c hm => by cases hm) (SocketServer.start_exact users databases hoff) events

theorem annsKeys_id (id : ℕ) : ({ id, socketKey := some "5f3a" } : SocketUser).id = id := rfl

def annsKeys (_ : String) : Table SocketUser.id :=
  Table.empty.insertFresh (fun id => { id, socketKey := some "5f3a" }) annsKeys_id

def onTwoDevices : List (PresenceEvent String) :=
  [.connect "blnkk" 1 (some 1) none (some "5f3a"), .connect "blnkk" 2 none (some 1) (some "5f3a"), .close 30 "blnkk" 1]

theorem annsKeys_offline (d : String) : ∀ user ∈ (annsKeys d).rows, user.online = false := by
  intro user hu
  cases List.mem_singleton.mp hu
  rfl

theorem two_devices_exact :
    (∀ d, ∀ user ∈ (annsKeys d).rows, user.online = false) ∧
      ∀ n, (Transition.run SocketServer.step (SocketServer.start annsKeys (fun _ => true)) (onTwoDevices.take n)).Exact := by
  refine ⟨annsKeys_offline, (presence_exact_iff annsKeys (fun _ => true) annsKeys_offline onTwoDevices).mpr ?_⟩
  refine ⟨fun h => ?_, fun h => ?_, ?_, trivial⟩
  · exact absurd h.2.1 (by decide +kernel)
  · exact absurd h.2.1 (by decide +kernel)
  · rintro ⟨c, user, hc, ha, -⟩
    have hget : (Transition.run SocketServer.step (SocketServer.start annsKeys (fun _ => true))
        (onTwoDevices.take 2)).connections.get? ("blnkk", 1) = some ⟨"blnkk", 1, some 1, true, []⟩ := by decide +kernel
    cases hget.symm.trans hc
    cases ha

theorem wrong_key_counts_down :
    (∀ d, ∀ user ∈ (annsKeys d).rows, user.online = false) ∧
      (¬ ∀ n, (Transition.run SocketServer.step (SocketServer.start annsKeys (fun _ => true))
        ([.connect "blnkk" 1 (some 1) none (some "5f3a"), .connect "blnkk" 2 none (some 1) (some "wrong"),
          .close 20 "blnkk" 2].take n)).Exact) ∧
      ¬ ∀ n, (Transition.run SocketServer.step (SocketServer.start annsKeys (fun d => decide (d ≠ "blnkk_new")))
        ([.connect "blnkk_new" 1 (some 1) none (some "5f3a")].take n)).Exact := by
  refine ⟨annsKeys_offline, fun h => ?_, fun h => ?_⟩
  · have hcount := (h 3 "blnkk" 1).counted
    revert hcount
    decide +kernel
  · have hcount := (h 1 "blnkk_new" 1).counted
    revert hcount
    decide +kernel

end Blnkk
