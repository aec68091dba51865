import Blnkk.Lib.Run
import Mathlib.Algebra.Order.Group.Nat
import Mathlib.Tactic.IntervalCases

/-!
The socket of a signed-in browser: `connectToWebSocket` and the handlers of
`socket-connexion` and `connexion-change` of `SessionController`, with `connect`
and `disconnect` of `SocketMessages`. A connection that closes is opened again
after a wait, which doubles each time until a connection opens.
-/

namespace Blnkk

open Transition

/-- `starting` stands for the first request for the user's data, `profiles` for
those made on a sign-in. `reconnect` holds the calls that are left of
`wsReconnectPromise`, which is defined once `promised`. A socket is in `closing`
when the service has disconnected it and its closing is not reported yet. -/
structure SocketSession where
  connected : Bool := false
  hasToGetUserData : Bool := false
  starting : Bool := true
  profiles : ℕ := 0
  wsCurrentTime : ℕ := 5
  remainingSeconds : ℤ := 5
  reconnect : Option ℕ := none
  promised : Bool := false
  wsIsReconnecting : Bool := false
  notice : Bool := false
  isMessagingAvailable : Bool := false
  mustTryToReconnectOnDisconnect : Bool := true
  sockets : List ℕ := []
  closing : List ℕ := []
  dispatcher : Option ℕ := none
  made : ℕ := 0
  -- no variable of the controller: the waits begun since the time was last reset
  failures : ℕ := 0
  deriving DecidableEq

inductive SessionEvent where
  | userLoaded
  | userRefused
  | signedIn
  | profileLoaded
  | profileRefused
  | retry
  | second
  | opened (socket : ℕ)
  | closed (socket : ℕ)
  | signOut
  | signedOut
  | signedOutByServer
  deriving DecidableEq

namespace SocketSession

section Handlers

variable (s : SocketSession)

def connect : SocketSession :=
  { s with
    mustTryToReconnectOnDisconnect := true
    sockets := s.sockets ++ [s.made]
    dispatcher := some s.made
    made := s.made + 1 }

def disconnect : SocketSession :=
  match s.dispatcher with
  | none => s
  | some socket =>
    { s with
      mustTryToReconnectOnDisconnect := false
      sockets := s.sockets.erase socket
      closing := if socket ∈ s.sockets then s.closing ++ [socket] else s.closing }

-- the first test of `connectToWebSocket`
def stopWaiting : SocketSession :=
  { s with
    reconnect := if s.promised then none else s.reconnect
    wsIsReconnecting := s.promised || s.wsIsReconnecting }

def connectToWebSocket : SocketSession :=
  if s.connected then s.stopWaiting.connect else s.stopWaiting

def checkConnectWebSocketInterval : SocketSession :=
  match s.reconnect with
  | none => s
  | some calls =>
    let s := { s with
      remainingSeconds := s.remainingSeconds - 1
      reconnect := if calls ≤ 1 then none else some (calls - 1) }
    if s.remainingSeconds = 0 then s.connectToWebSocket else s

def socketOpened : SocketSession :=
  { s with
    isMessagingAvailable := true
    wsIsReconnecting := false
    reconnect := none
    notice := false
    wsCurrentTime := 5
    failures := 0 }

def waitForReconnect : SocketSession :=
  { s with
    notice := s.notice || decide (s.wsCurrentTime = 10)
    remainingSeconds := s.wsCurrentTime
    reconnect := some s.wsCurrentTime
    promised := true
    wsCurrentTime := if s.wsCurrentTime < 300 then s.wsCurrentTime * 2 else s.wsCurrentTime
    failures := s.failures + 1 }

def socketClosed : SocketSession :=
  let s := { s with isMessagingAvailable := false, wsIsReconnecting := false, reconnect := none }
  if s.mustTryToReconnectOnDisconnect then s.waitForReconnect else s

-- `$timeout.cancel` leaves an interval running
def signOut : SocketSession := { s with notice := false, wsCurrentTime := 5, failures := 0 }

def connexionChange (signedIn : Bool) : SocketSession :=
  { s with
    connected := signedIn
    profiles := if signedIn && s.hasToGetUserData then s.profiles + 1 else s.profiles
    hasToGetUserData := true }

def step : SessionEvent → SocketSession
  | .userLoaded =>
    if s.starting then
      { s with starting := false, connected := true, hasToGetUserData := false }.connectToWebSocket
    else s
  | .userRefused => if s.starting then { s with starting := false, hasToGetUserData := true } else s
  | .signedIn => s.connexionChange true
  | .profileLoaded => if 0 < s.profiles then { s with profiles := s.profiles - 1 }.connectToWebSocket else s
  | .profileRefused =>
    if 0 < s.profiles then { s with profiles := s.profiles - 1, connected := false }.signOut else s
  -- the link is part of the notice, hidden while a connection is tried
  | .retry => if s.notice && !s.wsIsReconnecting then s.connectToWebSocket else s
  | .second => s.checkConnectWebSocketInterval
  | .opened socket => if socket ∈ s.sockets then s.socketOpened else s
  | .closed socket =>
    if socket ∈ s.sockets ++ s.closing then
      { s with sockets := s.sockets.erase socket, closing := s.closing.erase socket }.socketClosed
    else s
  | .signOut => s.signOut
  | .signedOut => (s.connexionChange false).disconnect
  -- also what a refused sign-in does
  | .signedOutByServer => s.connexionChange false

end Handlers

variable {s : SocketSession}

structure Timed (s : SocketSession) : Prop where
  wait : s.wsCurrentTime = min (5 * 2 ^ s.failures) 320
  countdown : ∀ calls, s.reconnect = some calls → s.remainingSeconds = calls ∧ 0 < calls ∧ calls ≤ 320

structure Loading (s : SocketSession) : Prop where
  start : s.starting = true → s.connected = false ∧ s.profiles = 0
  known : s.hasToGetUserData = false → s.profiles = 0 ∧ (s.starting = true ∨ s.connected = true)

/-- A signed-in browser without a socket and without a request for the user's
data has a reconnection under way. -/
structure Alert (s : SocketSession) : Prop extends Timed s, Loading s where
  mustTry : s.connected = true → s.profiles = 0 → s.mustTryToReconnectOnDisconnect = true
  present : s.connected = true → s.profiles = 0 → s.sockets = [] → s.reconnect.isSome = true

theorem doubled_wait {wait failures : ℕ} (h : wait = min (5 * 2 ^ failures) 320) :
    (if wait < 300 then wait * 2 else wait) = min (5 * 2 ^ (failures + 1)) 320 := by
  -- the sixth doubling is the last
  rcases Nat.lt_or_ge failures 6 with hlt | hge
  · subst h
    interval_cases failures <;> rfl
  · have hpow : 2 ^ 6 ≤ 2 ^ failures := Nat.pow_le_pow_right (by omega) hge
    rw [pow_succ]
    split_ifs <;> omega

theorem connectToWebSocket_of_connected (hc : s.connected = true) : s.connectToWebSocket = s.stopWaiting.connect :=
  if_pos hc

theorem connectToWebSocket_of_not_connected (hc : s.connected = false) : s.connectToWebSocket = s.stopWaiting :=
  if_neg (by simp [hc])

theorem Timed.stopWaiting (h : s.Timed) : s.stopWaiting.Timed := by
  refine ⟨h.wait, ?_⟩
  intro calls hcalls
  apply h.countdown calls
  by_cases hp : s.promised = true
  · simp [SocketSession.stopWaiting, hp] at hcalls
  · simpa [SocketSession.stopWaiting, hp] using hcalls

theorem sockets_connect_ne_nil : s.connect.sockets ≠ [] :=
  List.append_ne_nil_of_right_ne_nil _ (List.cons_ne_nil _ _)

theorem sockets_connectToWebSocket_ne_nil (hc : s.connected = true) : s.connectToWebSocket.sockets ≠ [] := by
  rw [connectToWebSocket_of_connected hc]
  exact sockets_connect_ne_nil

theorem alert_connectToWebSocket (ht : s.Timed) (hl : s.Loading) : s.connectToWebSocket.Alert := by
  have hw := ht.stopWaiting
  cases hc : s.connected with
  | true =>
    rw [connectToWebSocket_of_connected hc]
    exact { wait := hw.wait, countdown := hw.countdown, start := hl.start, known := hl.known
            mustTry := fun _ _ => rfl
            present := fun _ _ hnone => absurd hnone sockets_connect_ne_nil }
  | false =>
    rw [connectToWebSocket_of_not_connected hc]
    have hoff : s.stopWaiting.connected ≠ true := by
      change s.connected ≠ true
      simp [hc]
    exact { hw with
            start := hl.start, known := hl.known
            mustTry := fun h => absurd h hoff
            present := fun h => absurd h hoff }

namespace Alert

/-- What the handlers below leave alone is enough for a browser that is not signed in. -/
theorem of_not_connected (ht : s.Timed) (hl : s.Loading) (hc : s.connected = false) : s.Alert :=
  { ht, hl with
    mustTry := fun h => absurd h (by simp [hc])
    present := fun h => absurd h (by simp [hc]) }

theorem checkConnectWebSocketInterval (h : s.Alert) : s.checkConnectWebSocketInterval.Alert := by
  unfold SocketSession.checkConnectWebSocketInterval
  split
  next => exact h
  next calls hcalls =>
    obtain ⟨hleft, hpos, hle⟩ := h.countdown calls hcalls
    have htimed : ({ s with
        remainingSeconds := s.remainingSeconds - 1
        reconnect := if calls ≤ 1 then none else some (calls - 1) } : SocketSession).Timed := by
      refine ⟨h.wait, ?_⟩
      intro calls' hcalls'
      change (if calls ≤ 1 then none else some (calls - 1)) = some calls' at hcalls'
      change s.remainingSeconds - 1 = calls' ∧ 0 < calls' ∧ calls' ≤ 320
      split_ifs at hcalls'
      cases hcalls'
      omega
    dsimp only
    split_ifs with hzero hlast
    · exact alert_connectToWebSocket (by simpa [hlast] using htimed) ⟨h.start, h.known⟩
    · exact alert_connectToWebSocket (by simpa [hlast] using htimed) ⟨h.start, h.known⟩
    · omega
    · next hmore =>
      rw [if_neg hmore] at htimed
      exact { htimed with
              start := h.start, known := h.known, mustTry := h.mustTry
              present := fun _ _ _ => rfl }

theorem socketOpened (h : s.Alert) (hs : s.sockets ≠ []) : s.socketOpened.Alert where
  wait := rfl
  countdown := nofun
  start := h.start
  known := h.known
  mustTry := h.mustTry
  present := fun _ _ hnone => absurd hnone hs

end Alert

theorem Timed.waitForReconnect (h : s.Timed) : s.waitForReconnect.Timed := by
  refine ⟨doubled_wait h.wait, ?_⟩
  intro calls hcalls
  cases hcalls
  have hwait := h.wait
  have hpow : 0 < 2 ^ s.failures := Nat.two_pow_pos _
  exact ⟨rfl, by omega, by omega⟩

theorem Timed.reset (h : s.Timed) (available reconnecting : Bool) :
    ({ s with
      isMessagingAvailable := available
      wsIsReconnecting := reconnecting
      reconnect := none } : SocketSession).Timed :=
  ⟨h.wait, fun _ hcalls => absurd hcalls (Option.some_ne_none _).symm⟩

theorem Alert.socketClosed (ht : s.Timed) (hl : s.Loading)
    (hm : s.connected = true → s.profiles = 0 → s.mustTryToReconnectOnDisconnect = true) :
    s.socketClosed.Alert := by
  have hreset := ht.reset false false
  unfold SocketSession.socketClosed
  by_cases hmust : s.mustTryToReconnectOnDisconnect = true
  · rw [if_pos hmust]
    exact { hreset.waitForReconnect with
            start := hl.start, known := hl.known, mustTry := hm
            present := fun _ _ _ => rfl }
  · rw [if_neg hmust]
    exact { hreset with
            start := hl.start, known := hl.known, mustTry := hm
            present := fun hc hp => absurd (hm hc hp) hmust }

theorem Timed.signOut (h : s.Timed) : s.signOut.Timed := ⟨rfl, h.countdown⟩

theorem Alert.signOut (h : s.Alert) : s.signOut.Alert :=
  { h.toTimed.signOut with start := h.start, known := h.known, mustTry := h.mustTry, present := h.present }

theorem Alert.connexionChange_false (h : s.Alert) : (s.connexionChange false).Alert := by
  refine of_not_connected ⟨h.wait, h.countdown⟩ ⟨fun hstart => ⟨rfl, (h.start hstart).2⟩, ?_⟩ rfl
  intro hknown
  cases hknown

theorem Alert.connexionChange_true (h : s.Alert) (hs : s.starting = false) : (s.connexionChange true).Alert := by
  have hcount : (s.connexionChange true).profiles = if s.hasToGetUserData then s.profiles + 1 else s.profiles := rfl
  -- without a request the browser was signed in before
  have hbefore : (s.connexionChange true).profiles = 0 → s.connected = true ∧ s.profiles = 0 := by
    intro hnone
    cases hget : s.hasToGetUserData with
    | true =>
      rw [hcount, hget] at hnone
      exact absurd hnone (Nat.succ_ne_zero _)
    | false =>
      obtain ⟨hprofiles, hstart | hc⟩ := h.known hget
      · rw [hs] at hstart
        cases hstart
      · exact ⟨hc, hprofiles⟩
  refine { h.toTimed with start := ?_, known := ?_, mustTry := ?_, present := ?_ }
  · intro hstart
    change s.starting = true at hstart
    rw [hs] at hstart
    cases hstart
  · intro hknown
    cases hknown
  · intro _ hnone
    exact h.mustTry (hbefore hnone).1 (hbefore hnone).2
  · intro _ hnone
    exact h.present (hbefore hnone).1 (hbefore hnone).2

theorem Alert.disconnect (h : s.Alert) (hc : s.connected = false) : s.disconnect.Alert := by
  unfold SocketSession.disconnect
  split
  · exact h
  · exact of_not_connected ⟨h.wait, h.countdown⟩ ⟨h.start, h.known⟩ hc

def AfterStart (s : SocketSession) (event : SessionEvent) : Prop := event = .signedIn → s.starting = false

instance (s : SocketSession) (event : SessionEvent) : Decidable (s.AfterStart event) :=
  inferInstanceAs (Decidable (_ → _))

theorem Loading.answered (h : s.Loading) (hp : 0 < s.profiles) (connected : Bool) :
    ({ s with profiles := s.profiles - 1, connected := connected } : SocketSession).Loading := by
  constructor
  · intro hs
    have hnone := (h.start hs).2
    omega
  · intro hget
    have hnone := (h.known hget).1
    omega

theorem Alert.step (event : SessionEvent) (hq : s.AfterStart event) (h : s.Alert) : (s.step event).Alert := by
  cases event with
  | userLoaded =>
    refine iteInduction (motive := Alert) (fun hs => ?_) (fun _ => h)
    apply alert_connectToWebSocket
    · exact ⟨h.wait, h.countdown⟩
    · exact ⟨fun hno => absurd hno Bool.false_ne_true, fun _ => ⟨(h.start hs).2, .inr rfl⟩⟩
  | userRefused =>
    refine iteInduction (motive := Alert) (fun hs => ?_) (fun _ => h)
    apply of_not_connected
    · exact ⟨h.wait, h.countdown⟩
    · exact ⟨fun hno => absurd hno Bool.false_ne_true, fun hno => absurd hno.symm Bool.false_ne_true⟩
    · exact (h.start hs).1
  | signedIn => exact h.connexionChange_true (hq rfl)
  | profileLoaded =>
    refine iteInduction (motive := Alert) (fun hp => ?_) (fun _ => h)
    apply alert_connectToWebSocket
    · exact ⟨h.wait, h.countdown⟩
    · exact h.answered hp s.connected
  | profileRefused =>
    refine iteInduction (motive := Alert) (fun hp => ?_) (fun _ => h)
    apply Alert.signOut
    apply of_not_connected
    · exact ⟨h.wait, h.countdown⟩
    · exact h.answered hp false
    · rfl
  | retry =>
    exact iteInduction (motive := Alert) (fun _ => alert_connectToWebSocket h.toTimed h.toLoading) (fun _ => h)
  | second => exact h.checkConnectWebSocketInterval
  | opened socket =>
    exact iteInduction (motive := Alert) (fun hs => h.socketOpened (List.ne_nil_of_mem hs)) (fun _ => h)
  | closed socket =>
    refine iteInduction (motive := Alert) (fun _ => ?_) (fun _ => h)
    exact Alert.socketClosed ⟨h.wait, h.countdown⟩ ⟨h.start, h.known⟩ h.mustTry
  | signOut => exact h.signOut
  | signedOut => exact h.connexionChange_false.disconnect rfl
  | signedOutByServer => exact h.connexionChange_false

theorem alert_run (events : List SessionEvent) (hq : Meets SocketSession.step AfterStart {} events) :
    (run SocketSession.step {} events).Alert := by
  have hfirst : ({} : SocketSession).Alert :=
    { wait := rfl, countdown := nofun, start := fun _ => ⟨rfl, rfl⟩, known := fun _ => ⟨rfl, .inl rfl⟩
      mustTry := nofun, present := nofun }
  have h := invariant_of_meets SocketSession.step (fun s event => Alert.step event) {} hfirst events hq events.length
  rwa [List.take_length] at h

theorem Alert.second_of_last (h : s.Alert) (hcalls : s.reconnect = some 1) :
    s.step .second =
      ({ s with remainingSeconds := 0, reconnect := none } : SocketSession).connectToWebSocket := by
  have hleft := (h.countdown 1 hcalls).1
  simp [SocketSession.step, SocketSession.checkConnectWebSocketInterval, hcalls, hleft]

theorem Alert.second_of_more (h : s.Alert) {left : ℕ} (hcalls : s.reconnect = some (left + 2)) :
    s.step .second = { s with remainingSeconds := left + 1, reconnect := some (left + 1) } := by
  have hleft := (h.countdown (left + 2) hcalls).1
  have hmore : s.remainingSeconds - 1 = left + 1 := by omega
  have hpos : ¬ ((left : ℤ) + 1 = 0) := by omega
  simp [SocketSession.step, SocketSession.checkConnectWebSocketInterval, hcalls, hmore, hpos]

/-- The countdown ends in an attempt. -/
theorem Alert.attempt (calls : ℕ) (h : s.Alert) (hc : s.connected = true) (hcalls : s.reconnect = some calls) :
    (run SocketSession.step s (List.replicate calls .second)).sockets ≠ [] := by
  induction calls generalizing s with
  | zero => exact absurd (h.countdown 0 hcalls).2.1 (Nat.lt_irrefl 0)
  | succ left ih =>
    rw [List.replicate_succ, run_cons]
    have halert := h.step .second nofun
    cases left with
    | zero =>
      rw [h.second_of_last hcalls]
      apply sockets_connectToWebSocket_ne_nil
      exact hc
    | succ left =>
      rw [h.second_of_more hcalls] at halert ⊢
      exact ih halert hc rfl

end SocketSession

open SocketSession

/-- A signed-in browser is never left without a socket: one is there, or the
user's data are on their way, or a new attempt begins within the present wait.
The wait doubles with each failure in a row, up to 320 seconds. -/
theorem signed_in_browser_reconnects (events : List SessionEvent)
    (hstart : Meets SocketSession.step AfterStart {} events) :
    let s := run SocketSession.step {} events
    s.wsCurrentTime = min (5 * 2 ^ s.failures) 320 ∧
      (s.connected = true → 0 < s.profiles ∨ s.sockets ≠ [] ∨
        ∃ calls ≤ 320, s.reconnect = some calls ∧
          (run SocketSession.step s (List.replicate calls .second)).sockets ≠ []) := by
  intro s
  have h : s.Alert := alert_run events hstart
  refine ⟨h.wait, fun hc => ?_⟩
  by_cases hp : s.profiles = 0
  · by_cases hs : s.sockets = []
    · obtain ⟨calls, hcalls⟩ := Option.isSome_iff_exists.mp (h.present hc hp hs)
      exact .inr (.inr ⟨calls, (h.countdown calls hcalls).2.2, hcalls, h.attempt calls hc hcalls⟩)
    · exact .inr (.inl hs)
  · exact .inl (by omega)


/-- The connection fails twice, then the link in the notice is used. -/
theorem third_attempt_after_retry :
    let events := [.userLoaded, .closed 0] ++ List.replicate 5 .second ++ [.closed 1, .retry, .closed 2]
    let s := run SocketSession.step {} events
    s.connected = true ∧ s.sockets = [] ∧ s.wsCurrentTime = 40 ∧
      (s.connected = true → 0 < s.profiles ∨ s.sockets ≠ [] ∨
        ∃ calls ≤ 320, s.reconnect = some calls ∧
          (run SocketSession.step s (List.replicate calls .second)).sockets ≠ []) :=
  ⟨by decide +kernel, by decide +kernel, by decide +kernel, (signed_in_browser_reconnects _ (by decide +kernel)).2⟩

/-- A sign-in that overtakes the first answer is not followed by a connection. -/
theorem early_sign_in_stays_without_socket :
    let s := run SocketSession.step {} [.signedIn, .userRefused]
    s.connected = true ∧ s.profiles = 0 ∧ s.sockets = [] ∧ s.reconnect = none := by
  decide

namespace SocketSession

def existing (s : SocketSession) : List ℕ := s.sockets ++ s.closing

-- the events at which a socket is made whether or not there is one
def loads (s : SocketSession) : SessionEvent → Bool
  | .userLoaded => s.starting
  | .profileLoaded => decide (0 < s.profiles) && s.connected
  | _ => false

def LoadsAlone (s : SocketSession) (event : SessionEvent) : Prop := s.loads event = true → s.existing = []

instance (s : SocketSession) (event : SessionEvent) : Decidable (s.LoadsAlone event) :=
  inferInstanceAs (Decidable (_ → _))

variable {s : SocketSession}

structure Single (s : SocketSession) : Prop where
  one : s.existing.length ≤ 1
  still : s.existing ≠ [] → s.reconnect = none
  hidden : s.existing ≠ [] → s.notice = true → s.wsIsReconnecting = true
  waited : s.reconnect ≠ none → s.promised = true
  noticed : s.notice = true → s.promised = true

namespace Single

theorem stopWaiting_reconnect (h : s.Single) : s.stopWaiting.reconnect = none := by
  by_cases hp : s.promised = true
  · simp [SocketSession.stopWaiting, hp]
  · have hnone : s.reconnect = none := by_contra fun hr => hp (h.waited hr)
    simp [SocketSession.stopWaiting, hnone]

theorem stopWaiting_wsIsReconnecting (h : s.Single) (hn : s.notice = true) :
    s.stopWaiting.wsIsReconnecting = true := by
  simp [SocketSession.stopWaiting, h.noticed hn]

theorem connectToWebSocket (h : s.Single) (hex : s.connected = true → s.existing = []) :
    s.connectToWebSocket.Single := by
  have hstop := h.stopWaiting_reconnect
  cases hc : s.connected with
  | false =>
    rw [connectToWebSocket_of_not_connected hc]
    exact { one := h.one, still := fun _ => hstop, hidden := fun _ => h.stopWaiting_wsIsReconnecting
            waited := fun hsome => absurd hstop hsome, noticed := h.noticed }
  | true =>
    rw [connectToWebSocket_of_connected hc]
    obtain ⟨hsockets, hclosing⟩ := List.append_eq_nil_iff.mp (hex hc)
    refine { one := ?_, still := fun _ => hstop, hidden := fun _ => h.stopWaiting_wsIsReconnecting
             waited := fun hsome => absurd hstop hsome, noticed := h.noticed }
    change (s.sockets ++ [s.made] ++ s.closing).length ≤ 1
    simp [hsockets, hclosing]

theorem checkConnectWebSocketInterval (h : s.Single) : s.checkConnectWebSocketInterval.Single := by
  unfold SocketSession.checkConnectWebSocketInterval
  split
  next => exact h
  next calls hcalls =>
    -- a countdown runs only while there is no socket
    have hsome : s.reconnect ≠ none := by simp [hcalls]
    have hex : s.existing = [] := by_contra fun hne => hsome (h.still hne)
    have hticked : ({ s with
        remainingSeconds := s.remainingSeconds - 1
        reconnect := if calls ≤ 1 then none else some (calls - 1) } : SocketSession).Single :=
      { one := h.one, still := fun hne => absurd hex hne, hidden := fun hne => absurd hex hne
        waited := fun _ => h.waited hsome, noticed := h.noticed }
    exact iteInduction (motive := Single) (fun _ => hticked.connectToWebSocket fun _ => hex) (fun _ => hticked)

theorem socketOpened (h : s.Single) : s.socketOpened.Single where
  one := h.one
  still := fun _ => rfl
  hidden := fun _ hn => absurd hn Bool.false_ne_true
  waited := fun hsome => absurd rfl hsome
  noticed := fun hn => absurd hn Bool.false_ne_true

theorem signOut (h : s.Single) : s.signOut.Single where
  one := h.one
  still := h.still
  hidden := fun _ hn => absurd hn Bool.false_ne_true
  waited := h.waited
  noticed := fun hn => absurd hn Bool.false_ne_true

/-- The only socket is the one that closes. -/
theorem existing_erase (h : s.Single) {socket : ℕ} (hs : socket ∈ s.existing) :
    s.sockets.erase socket ++ s.closing.erase socket = [] := by
  obtain ⟨other, hother⟩ := List.length_eq_one_iff.mp
    (Nat.le_antisymm h.one (List.length_pos_of_mem hs))
  rw [hother, List.mem_singleton] at hs
  subst hs
  rcases List.append_eq_singleton_iff.mp hother with ⟨hsockets, hclosing⟩ | ⟨hsockets, hclosing⟩
  · simp [hsockets, hclosing]
  · simp [hsockets, hclosing]

theorem closed (h : s.Single) {socket : ℕ} (hs : socket ∈ s.existing) :
    ({ s with
      sockets := s.sockets.erase socket
      closing := s.closing.erase socket } : SocketSession).socketClosed.Single := by
  have hnone := h.existing_erase hs
  refine iteInduction (motive := Single) (fun _ => ?_) (fun _ => ?_)
  · exact { one := (congrArg List.length hnone).trans_le (Nat.zero_le 1)
            still := fun hne => absurd hnone hne
            hidden := fun hne => absurd hnone hne
            waited := fun _ => rfl
            noticed := fun _ => rfl }
  · exact { one := (congrArg List.length hnone).trans_le (Nat.zero_le 1)
            still := fun hne => absurd hnone hne
            hidden := fun hne => absurd hnone hne
            waited := fun hsome => absurd rfl hsome
            noticed := h.noticed }

theorem connexionChange (h : s.Single) (signedIn : Bool) : (s.connexionChange signedIn).Single :=
  ⟨h.one, h.still, h.hidden, h.waited, h.noticed⟩

theorem length_existing_disconnect : s.disconnect.existing.length = s.existing.length := by
  unfold SocketSession.disconnect
  split
  · rfl
  · next socket _ =>
    unfold existing
    by_cases hs : socket ∈ s.sockets
    · have hpos := List.length_pos_of_mem hs
      simp only [if_pos hs, List.length_append, List.length_erase_of_mem hs, List.length_singleton]
      omega
    · simp only [if_neg hs, List.erase_of_not_mem hs]

theorem disconnect (h : s.Single) : s.disconnect.Single := by
  have hlength := length_existing_disconnect (s := s)
  have hex : s.disconnect.existing ≠ [] → s.existing ≠ [] := by
    intro hne hnil
    rw [hnil] at hlength
    exact hne (List.eq_nil_of_length_eq_zero hlength)
  have hframe : s.disconnect.reconnect = s.reconnect ∧ s.disconnect.notice = s.notice ∧
      s.disconnect.wsIsReconnecting = s.wsIsReconnecting ∧ s.disconnect.promised = s.promised := by
    unfold SocketSession.disconnect
    split <;> exact ⟨rfl, rfl, rfl, rfl⟩
  obtain ⟨hreconnect, hnotice, hreconnecting, hpromised⟩ := hframe
  constructor
  · exact hlength.trans_le h.one
  · rw [hreconnect]
    exact fun hne => h.still (hex hne)
  · rw [hnotice, hreconnecting]
    exact fun hne => h.hidden (hex hne)
  · rw [hreconnect, hpromised]
    exact h.waited
  · rw [hnotice, hpromised]
    exact h.noticed

theorem step (event : SessionEvent) (hq : s.LoadsAlone event) (h : s.Single) : (s.step event).Single := by
  cases event with
  | userLoaded =>
    refine iteInduction (motive := Single) (fun hs => ?_) (fun _ => h)
    apply connectToWebSocket
    · exact ⟨h.one, h.still, h.hidden, h.waited, h.noticed⟩
    · exact fun _ => hq hs
  | userRefused =>
    exact iteInduction (motive := Single) (fun _ => ⟨h.one, h.still, h.hidden, h.waited, h.noticed⟩) (fun _ => h)
  | signedIn => exact h.connexionChange true
  | profileLoaded =>
    refine iteInduction (motive := Single) (fun hp => ?_) (fun _ => h)
    apply connectToWebSocket
    · exact ⟨h.one, h.still, h.hidden, h.waited, h.noticed⟩
    · intro hc
      apply hq
      rw [loads, Bool.and_eq_true]
      exact ⟨decide_eq_true hp, hc⟩
  | profileRefused =>
    refine iteInduction (motive := Single) (fun _ => ?_) (fun _ => h)
    apply signOut
    exact ⟨h.one, h.still, h.hidden, h.waited, h.noticed⟩
  | retry =>
    refine iteInduction (motive := Single) (fun hlink => ?_) (fun _ => h)
    apply h.connectToWebSocket
    intro _
    by_contra hne
    -- the link is hidden while there is a socket
    rw [Bool.and_eq_true] at hlink
    simp [h.hidden hne hlink.1] at hlink
  | second => exact h.checkConnectWebSocketInterval
  | opened socket => exact iteInduction (motive := Single) (fun _ => h.socketOpened) (fun _ => h)
  | closed socket => exact iteInduction (motive := Single) (fun hs => h.closed hs) (fun _ => h)
  | signOut => exact h.signOut
  | signedOut => exact (h.connexionChange false).disconnect
  | signedOutByServer => exact h.connexionChange false

/-- A socket made beside another one makes two. -/
theorem loadsAlone_of_step (event : SessionEvent) (hone : (s.step event).existing.length ≤ 1) :
    s.LoadsAlone event := by
  intro hloads
  have hmade : (s.step event).existing.length = s.existing.length + 1 := by
    cases event with
    | userLoaded =>
      change s.starting = true at hloads
      simp [SocketSession.step, hloads, SocketSession.connectToWebSocket, existing, connect, stopWaiting]
      omega
    | profileLoaded =>
      rw [loads, Bool.and_eq_true, decide_eq_true_eq] at hloads
      simp [SocketSession.step, hloads, SocketSession.connectToWebSocket, existing, connect, stopWaiting]
      omega
    | _ => exact absurd hloads Bool.false_ne_true
  exact List.eq_nil_of_length_eq_zero (by omega)

end Single

end SocketSession

/-- There is never a second socket beside the first one exactly when the user's
data never arrive while there is a socket: the countdown and the link of the
notice make none. -/
theorem one_socket_iff_loads_alone (events : List SessionEvent) :
    (∀ n, (run SocketSession.step {} (events.take n)).existing.length ≤ 1) ↔
      Meets SocketSession.step LoadsAlone {} events := by
  have hfirst : ({} : SocketSession).Single :=
    { one := Nat.zero_le 1, still := fun _ => rfl, hidden := fun hne => absurd rfl hne
      waited := fun hsome => absurd rfl hsome, noticed := fun hn => absurd hn Bool.false_ne_true }
  constructor
  · intro hone
    exact meets_of_forall_states SocketSession.step (G := fun s => s.existing.length ≤ 1)
      (fun s event _ => Single.loadsAlone_of_step event) (fun s event => Single.step event) {} hfirst events hone
  · intro hq n
    exact (invariant_of_meets SocketSession.step (fun s event => Single.step event) {} hfirst events hq n).one

/-- Signing out does not stop the countdown: after the next sign-in it makes a
socket, and so do the user's data. -/
theorem countdown_outlives_sign_out :
    let events := [.userLoaded, .closed 0, .signOut, .signedOut, .signedIn] ++ List.replicate 5 .second ++
      [.opened 1, .profileLoaded]
    (run SocketSession.step {} events).sockets = [1, 2] := by
  decide +kernel

end Blnkk
