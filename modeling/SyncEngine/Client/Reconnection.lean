import Mathlib.Algebra.GroupWithZero.Nat
import Mathlib.Data.List.Basic
import SyncEngine.Lib.Transition

/-!
# Connecting again

The connections of `useCollaborativeDoc` (`client/hooks/useCollaborativeDoc.ts`): `connect`, the
handlers `onopen` and `onclose`, `scheduleReconnect`, and the effect that connects when the
component is mounted, or gets a new `connect`, and cleans up.

`connect` and `scheduleReconnect` call each other through a timer, always those of the mount that
called `connect` first, with its token.  Sockets and timers are numbered in the order in which
they are made, and carry that mount.

A run is any sequence of mounts, unmounts and of what browser and server do to sockets and timers.
`connection_lines` is an account of each mount: it has one socket that is not closed, or one timer,
or has come to an end for one of three reasons.  Being unmounted while it has a socket is none of
them: the close event schedules the next attempt, and nobody clears that timer.  A mount that
nothing unmounts ends with a refusal of the server only.
-/

namespace SyncEngine

open Transition

/-- `readyState` of a socket in the browser. -/
inductive SocketState where
  | connecting
  | opened
  | closing
  | closed
deriving DecidableEq

/-- A socket that `connect` has made, and the mount it did so for. -/
structure BrowserSocket where
  mount : Nat
  readyState : SocketState
deriving DecidableEq

/-- A pending `setTimeout(connect, delay)`. -/
structure ReconnectTimer where
  mount : Nat
  delay : Nat
deriving DecidableEq

/-- Why a mount makes no more attempts. -/
inductive EndReason where
  /-- The server closed with 4001 or 4003. -/
  | refused
  /-- The cleanup cleared its timer. -/
  | cleared
  /-- `connect` found an open socket. -/
  | superseded
deriving DecidableEq

/-- The sockets and timers of a page, and the refs of the hook. -/
structure Reconnection where
  sockets : List BrowserSocket
  /-- The timers by their handles; a timer that has fired or was cleared is gone. -/
  timers : List (Option ReconnectTimer)
  wsRef : Option Nat
  reconnectTimer : Option Nat
  reconnectAttempts : Nat
  mounted : Bool
  /-- How often the effect has run. -/
  mounts : Nat
  ended : List (Nat × EndReason)
deriving DecidableEq

/-- What React, the browser or the server does. -/
inductive ConnectionEvent where
  | mount
  | unmount
  | onopen (socket : Nat)
  /-- The server begins to close. -/
  | closing (socket : Nat)
  | onclose (socket code : Nat)
  /-- A timer fires. -/
  | timeout (handle : Nat)

namespace Reconnection

/-- Before the first render. -/
def start : Reconnection := ⟨[], [], none, none, 0, false, 0, []⟩

/-- `ws.readyState`. -/
def readyState (s : Reconnection) (socket : Nat) : Option SocketState :=
  (s.sockets[socket]?).map BrowserSocket.readyState

/-- The socket goes on to another `readyState`. -/
def setReadyState (s : Reconnection) (socket : Nat) (readyState : SocketState) : Reconnection :=
  match s.sockets[socket]? with
  | some ws => { s with sockets := s.sockets.set socket { ws with readyState := readyState } }
  | none => s

/-- `connect`, of the given mount. -/
def connect (s : Reconnection) (mount : Nat) : Reconnection :=
  if s.wsRef.bind s.readyState = some .opened then
    { s with ended := s.ended ++ [(mount, .superseded)] }
  else
    { s with
      sockets := s.sockets ++ [⟨mount, .connecting⟩]
      wsRef := some s.sockets.length }

/-- `Math.min(30_000, 1000 * Math.pow(2, attempts))`. -/
def backoff (attempts : Nat) : Nat := min 30000 (1000 * 2 ^ attempts)

/-- `scheduleReconnect`, of the given mount. -/
def scheduleReconnect (s : Reconnection) (mount : Nat) : Reconnection :=
  { s with
    timers := s.timers ++ [some ⟨mount, backoff s.reconnectAttempts⟩]
    reconnectTimer := some s.timers.length
    reconnectAttempts := s.reconnectAttempts + 1 }

/-- `clearTimeout`. -/
def clearTimeout (s : Reconnection) (handle : Nat) : Reconnection :=
  match s.timers[handle]? with
  | some (some timer) =>
      { s with timers := s.timers.set handle none, ended := s.ended ++ [(timer.mount, .cleared)] }
  | _ => s

/-- `wsRef.current?.close(1000)`: a socket that is not open yet is closed as well. -/
def closeCurrent (s : Reconnection) : Reconnection :=
  match s.wsRef with
  | some socket =>
      if s.readyState socket = some .connecting ∨ s.readyState socket = some .opened then
        s.setReadyState socket .closing
      else s
  | none => s

/-- The cleanup of the effect. -/
def cleanup (s : Reconnection) : Reconnection :=
  let s' := match s.reconnectTimer with
    | some handle => s.clearTimeout handle
    | none => s
  { s'.closeCurrent with mounted := false }

/-- The `onclose` of a socket. -/
def onclose (s : Reconnection) (socket code : Nat) (ws : BrowserSocket) : Reconnection :=
  let s' := s.setReadyState socket .closed
  if code = 4001 ∨ code = 4003 then { s' with ended := s'.ended ++ [(ws.mount, .refused)] }
  else s'.scheduleReconnect ws.mount

/-- One event, if it can happen. -/
def step (s : Reconnection) : ConnectionEvent → Option Reconnection
  | .mount =>
      if s.mounted = true then none
      else some ({ s with mounted := true, mounts := s.mounts + 1 }.connect s.mounts)
  | .unmount => if s.mounted = true then some s.cleanup else none
  | .onopen socket =>
      if s.readyState socket = some .connecting then
        some { s.setReadyState socket .opened with reconnectAttempts := 0 }
      else none
  | .closing socket =>
      if s.readyState socket = some .opened then some (s.setReadyState socket .closing) else none
  | .onclose socket code =>
      match s.sockets[socket]? with
      | some ws => if ws.readyState ≠ .closed then some (s.onclose socket code ws) else none
      | none => none
  | .timeout handle =>
      match s.timers[handle]? with
      | some (some timer) =>
          some ({ s with timers := s.timers.set handle none }.connect timer.mount)
      | _ => none

/-- The hook after any events. -/
def Reachable (s : Reconnection) : Prop := Reach step (fun _ _ => True) start s

/-! ## The account of a mount -/

/-- The socket was made for the mount and is not closed. -/
def Live (m : Nat) (ws : BrowserSocket) : Prop := ws.mount = m ∧ ws.readyState ≠ .closed

instance (m : Nat) : DecidablePred (Live m) := fun ws =>
  inferInstanceAs (Decidable (ws.mount = m ∧ ws.readyState ≠ .closed))

/-- The timer is pending and was set for the mount. -/
def Waiting (m : Nat) (timer : Option ReconnectTimer) : Prop :=
  timer.map ReconnectTimer.mount = some m

instance (m : Nat) : DecidablePred (Waiting m) := fun timer =>
  inferInstanceAs (Decidable (timer.map ReconnectTimer.mount = some m))

/-- The sockets of the mount that are not closed. -/
def live (s : Reconnection) (m : Nat) : Nat := s.sockets.countP fun ws => Live m ws

/-- The timers of the mount. -/
def waiting (s : Reconnection) (m : Nat) : Nat := s.timers.countP fun timer => Waiting m timer

/-- How often the mount has ended. -/
def endings (s : Reconnection) (m : Nat) : Nat := s.ended.countP fun e => e.1 = m

/-- The lines of a mount: its live sockets, its waiting timers, and how often it has ended. -/
def account (s : Reconnection) (m : Nat) : Nat := s.live m + s.waiting m + s.endings m

variable {s s' : Reconnection} {m mount socket handle : Nat}

/-- An entry of a list is replaced. -/
lemma countP_set {α : Type*} {p : α → Prop} [DecidablePred p] {l : List α} {i : Nat} {a x : α}
    (h : l[i]? = some a) :
    (l.set i x).countP (fun y => p y) + (if p a then 1 else 0) =
      l.countP (fun y => p y) + if p x then 1 else 0 := by
  obtain ⟨hi, ha⟩ := List.getElem?_eq_some_iff.mp h
  have hsplit : l = l.take i ++ a :: l.drop (i + 1) := by
    rw [← ha, ← List.drop_eq_getElem_cons hi, List.take_append_drop]
  have hset : l.set i x = l.take i ++ x :: l.drop (i + 1) := List.set_eq_take_append_cons_drop ▸ by
    simp [hi]
  rw [hset]
  conv_rhs => rw [hsplit]
  simp only [List.countP_append, List.countP_cons, decide_eq_true_eq]
  omega

/-- A socket that goes on, in another state. -/
lemma account_setReadyState {readyState : SocketState} {ws : BrowserSocket}
    (hws : s.sockets[socket]? = some ws) (hopen : ws.readyState ≠ .closed)
    (hstate : readyState ≠ .closed) (m : Nat) :
    (s.setReadyState socket readyState).account m = s.account m := by
  have hcount := @countP_set _ (Live m) _ _ _ _ { ws with readyState := readyState } hws
  have hsame : Live m { ws with readyState := readyState } ↔ Live m ws := by
    simp [Live, hopen, hstate]
  simp only [hsame, Nat.add_right_cancel_iff] at hcount
  rw [setReadyState, hws, account, account, live, hcount]
  rfl

lemma account_connect (s : Reconnection) (mount m : Nat) :
    (s.connect mount).account m = s.account m + if mount = m then 1 else 0 := by
  unfold connect
  split_ifs with hopen hm hm
  · simp only [account, live, waiting, endings, List.countP_append, List.countP_singleton, hm,
      decide_true, if_true]
    omega
  · simp only [account, live, waiting, endings, List.countP_append, List.countP_singleton, hm,
      decide_false, Bool.false_eq_true, if_false]
    omega
  · simp only [account, live, waiting, endings, List.countP_append, List.countP_singleton, Live, hm,
      ne_eq, reduceCtorEq, not_false_eq_true, and_self, decide_true, if_true]
    omega
  · simp only [account, live, waiting, endings, List.countP_append, List.countP_singleton, Live, hm,
      false_and, decide_false, Bool.false_eq_true, if_false]
    omega

lemma account_scheduleReconnect (s : Reconnection) (mount m : Nat) :
    (s.scheduleReconnect mount).account m = s.account m + if mount = m then 1 else 0 := by
  simp only [scheduleReconnect, account, live, waiting, endings, List.countP_append,
    List.countP_singleton, Waiting, Option.map_some, Option.some.injEq, decide_eq_true_eq]
  omega

lemma account_timer {timer : ReconnectTimer} (htimer : s.timers[handle]? = some (some timer))
    (m : Nat) :
    ({ s with timers := s.timers.set handle none } : Reconnection).account m +
      (if timer.mount = m then 1 else 0) = s.account m := by
  have hcount := @countP_set _ (Waiting m) _ _ _ _ none htimer
  have hnone : ¬ Waiting m none := by simp [Waiting]
  have hsome : Waiting m (some timer) ↔ timer.mount = m := by simp [Waiting]
  simp only [hsome, if_neg hnone] at hcount
  simp only [account, live, waiting, endings]
  omega

lemma account_clearTimeout (s : Reconnection) (handle m : Nat) :
    (s.clearTimeout handle).account m = s.account m := by
  unfold clearTimeout
  split
  · rename_i timer htimer
    have htaken := account_timer htimer m
    simp only [account, live, waiting, endings, List.countP_append, List.countP_singleton,
      decide_eq_true_eq] at htaken ⊢
    omega
  · rfl

lemma account_closeCurrent (s : Reconnection) (m : Nat) :
    s.closeCurrent.account m = s.account m := by
  unfold closeCurrent
  split
  · rename_i socket hsocket
    split_ifs with hstate
    · obtain ⟨ws, hws⟩ : ∃ ws, s.sockets[socket]? = some ws := by
        cases hget : s.sockets[socket]? with
        | none => simp [readyState, hget] at hstate
        | some ws => exact ⟨ws, rfl⟩
      refine account_setReadyState hws ?_ (by simp) m
      rintro hclosed
      simp [readyState, hws, hclosed] at hstate
    · rfl
  · rfl

lemma account_cleanup (s : Reconnection) (m : Nat) : s.cleanup.account m = s.account m := by
  have hclose : ∀ s : Reconnection,
      ({ s.closeCurrent with mounted := false } : Reconnection).account m = s.account m :=
    fun s => account_closeCurrent s m
  unfold cleanup
  split
  · exact (hclose _).trans (account_clearTimeout s _ m)
  · exact hclose s

/-- A socket closes, and the mount goes on with a timer, or ends. -/
lemma account_onclose {code : Nat} {ws : BrowserSocket} (hws : s.sockets[socket]? = some ws)
    (hopen : ws.readyState ≠ .closed) (m : Nat) :
    (s.onclose socket code ws).account m = s.account m := by
  have hcount := @countP_set _ (Live m) _ _ _ _ { ws with readyState := SocketState.closed } hws
  have hdead : ¬ Live m { ws with readyState := SocketState.closed } := by simp [Live]
  have hlive : Live m ws ↔ ws.mount = m := by simp [Live, hopen]
  rw [if_neg hdead] at hcount
  simp only [hlive] at hcount
  have hclosed : (s.setReadyState socket .closed).account m + (if ws.mount = m then 1 else 0) =
      s.account m := by
    simp only [setReadyState, hws, account, live, waiting, endings]
    omega
  simp only [onclose]
  split_ifs with hcode
  · simp only [account, live, waiting, endings, List.countP_append, List.countP_singleton,
      decide_eq_true_eq] at hclosed ⊢
    omega
  · rw [account_scheduleReconnect]
    exact hclosed

@[simp] lemma mounts_setReadyState (s : Reconnection) (socket : Nat) (readyState : SocketState) :
    (s.setReadyState socket readyState).mounts = s.mounts := by
  unfold setReadyState
  split <;> rfl

@[simp] lemma mounts_clearTimeout (s : Reconnection) (handle : Nat) :
    (s.clearTimeout handle).mounts = s.mounts := by
  unfold clearTimeout
  split <;> rfl

@[simp] lemma mounts_closeCurrent (s : Reconnection) : s.closeCurrent.mounts = s.mounts := by
  unfold closeCurrent
  split
  · split_ifs
    · exact mounts_setReadyState s _ _
    · rfl
  · rfl

lemma mounts_cleanup (s : Reconnection) : s.cleanup.mounts = s.mounts := by
  cases htimer : s.reconnectTimer with
  | none => simp only [cleanup, htimer, mounts_closeCurrent]
  | some handle => simp only [cleanup, htimer, mounts_closeCurrent, mounts_clearTimeout]

/-- Every event leaves each mount its one socket, timer or end. -/
lemma account_step {event : ConnectionEvent} (hstep : s.step event = some s')
    (h : ∀ m, s.account m = if m < s.mounts then 1 else 0) :
    ∀ m, s'.account m = if m < s'.mounts then 1 else 0 := by
  intro m
  cases event with
  | mount =>
      simp only [step] at hstep
      split_ifs at hstep
      obtain rfl := Option.some.inj hstep
      have hmounts : ({ s with mounted := true, mounts := s.mounts + 1 }.connect s.mounts :
          Reconnection).mounts = s.mounts + 1 := by
        unfold connect
        split_ifs <;> rfl
      have hsame : ({ s with mounted := true, mounts := s.mounts + 1 } : Reconnection).account m =
          s.account m := rfl
      rw [account_connect, hsame, h, hmounts]
      split_ifs <;> omega
  | unmount =>
      simp only [step, Option.ite_none_right_eq_some, Option.some.injEq] at hstep
      obtain ⟨-, rfl⟩ := hstep
      rw [account_cleanup, mounts_cleanup, h]
  | onopen socket =>
      simp only [step, Option.ite_none_right_eq_some, Option.some.injEq] at hstep
      obtain ⟨hstate, rfl⟩ := hstep
      obtain ⟨ws, hws, hready⟩ := Option.map_eq_some_iff.mp hstate
      have hmounts : (s.setReadyState socket .opened).mounts = s.mounts := by
        rw [setReadyState, hws]
      have hkept : (s.setReadyState socket .opened).account m = s.account m :=
        account_setReadyState hws (by simp [hready]) (by simp) m
      -- the attempts the handler resets are not counted
      show (s.setReadyState socket .opened).account m = _
      rw [hkept, h]
      simp only [hmounts]
  | closing socket =>
      simp only [step, Option.ite_none_right_eq_some, Option.some.injEq] at hstep
      obtain ⟨hstate, rfl⟩ := hstep
      obtain ⟨ws, hws, hready⟩ := Option.map_eq_some_iff.mp hstate
      have hmounts : (s.setReadyState socket .closing).mounts = s.mounts := by
        rw [setReadyState, hws]
      rw [account_setReadyState hws (by simp [hready]) (by simp), h, hmounts]
  | onclose socket code =>
      simp only [step] at hstep
      split at hstep
      · rename_i ws hws
        simp only [Option.ite_none_right_eq_some, Option.some.injEq] at hstep
        obtain ⟨hopen, rfl⟩ := hstep
        have hmounts : (s.onclose socket code ws).mounts = s.mounts := by
          simp only [onclose, setReadyState, hws]
          split_ifs <;> rfl
        rw [account_onclose hws hopen, h, hmounts]
      · simp at hstep
  | timeout handle =>
      simp only [step] at hstep
      split at hstep
      · rename_i timer htimer
        obtain rfl := Option.some.inj hstep
        have hmounts : (({ s with timers := s.timers.set handle none } : Reconnection).connect
            timer.mount).mounts = s.mounts := by
          unfold connect
          split_ifs <;> rfl
        have htaken := account_timer htimer m
        rw [account_connect, hmounts, ← h]
        exact htaken
      · simp at hstep

/-! ## A component that stays mounted -/

/-- Whatever there is was made for a mount that has been. -/
structure Tagged (s : Reconnection) : Prop where
  sockets : ∀ ws ∈ s.sockets, ws.mount < s.mounts
  timers : ∀ timer, some timer ∈ s.timers → timer.mount < s.mounts
  ended : ∀ e ∈ s.ended, e.1 < s.mounts

lemma tagged_connect (h : s.Tagged) (hmount : mount < s.mounts) : (s.connect mount).Tagged := by
  unfold connect
  split_ifs
  · refine ⟨h.sockets, h.timers, ?_⟩
    simp only [List.mem_append, List.mem_singleton]
    rintro e (he | rfl)
    · exact h.ended e he
    · exact hmount
  · refine ⟨?_, h.timers, h.ended⟩
    simp only [List.mem_append, List.mem_singleton]
    rintro ws (hws | rfl)
    · exact h.sockets ws hws
    · exact hmount

lemma tagged_setReadyState (h : s.Tagged) (socket : Nat) (readyState : SocketState) :
    (s.setReadyState socket readyState).Tagged := by
  unfold setReadyState
  split
  · rename_i ws hws
    refine ⟨fun ws' hws' => ?_, h.timers, h.ended⟩
    rcases List.mem_or_eq_of_mem_set hws' with hws' | rfl
    · exact h.sockets ws' hws'
    · exact h.sockets ws (List.mem_of_getElem? hws)
  · exact h

lemma tagged_timer (h : s.Tagged) (handle : Nat) :
    ({ s with timers := s.timers.set handle none } : Reconnection).Tagged := by
  refine ⟨h.sockets, fun timer htimer => ?_, h.ended⟩
  rcases List.mem_or_eq_of_mem_set htimer with htimer | hnone
  · exact h.timers timer htimer
  · simp at hnone

lemma tagged_clearTimeout (h : s.Tagged) (handle : Nat) : (s.clearTimeout handle).Tagged := by
  unfold clearTimeout
  split
  · rename_i timer htimer
    refine ⟨h.sockets, (tagged_timer h handle).timers, ?_⟩
    simp only [List.mem_append, List.mem_singleton]
    rintro e (he | rfl)
    · exact h.ended e he
    · exact h.timers timer (List.mem_of_getElem? htimer)
  · exact h

lemma tagged_closeCurrent (h : s.Tagged) : s.closeCurrent.Tagged := by
  unfold closeCurrent
  split
  · split_ifs
    · exact tagged_setReadyState h _ _
    · exact h
  · exact h

lemma tagged_cleanup (h : s.Tagged) : s.cleanup.Tagged := by
  have hclosed : ∀ {s : Reconnection}, s.Tagged →
      ({ s.closeCurrent with mounted := false } : Reconnection).Tagged :=
    fun h => ⟨(tagged_closeCurrent h).sockets, (tagged_closeCurrent h).timers,
      (tagged_closeCurrent h).ended⟩
  unfold cleanup
  split
  · exact hclosed (tagged_clearTimeout h _)
  · exact hclosed h

lemma tagged_onclose {code : Nat} {ws : BrowserSocket} (h : s.Tagged)
    (hws : s.sockets[socket]? = some ws) : (s.onclose socket code ws).Tagged := by
  have hmount : ws.mount < (s.setReadyState socket .closed).mounts := by
    rw [mounts_setReadyState]
    exact h.sockets ws (List.mem_of_getElem? hws)
  have hclosed := tagged_setReadyState h socket .closed
  simp only [onclose]
  split_ifs
  · refine ⟨hclosed.sockets, hclosed.timers, ?_⟩
    simp only [List.mem_append, List.mem_singleton]
    rintro e (he | rfl)
    · exact hclosed.ended e he
    · exact hmount
  · refine ⟨hclosed.sockets, ?_, hclosed.ended⟩
    simp only [scheduleReconnect, List.mem_append, List.mem_singleton, Option.some.injEq]
    rintro timer (htimer | rfl)
    · exact hclosed.timers timer htimer
    · exact hmount

lemma tagged_step {event : ConnectionEvent} (h : s.Tagged) (hstep : s.step event = some s') :
    s'.Tagged := by
  cases event with
  | mount =>
      simp only [step] at hstep
      split_ifs at hstep
      obtain rfl := Option.some.inj hstep
      refine tagged_connect ⟨fun ws hws => ?_, fun timer htimer => ?_, fun e he => ?_⟩
        (Nat.lt_succ_self _)
      · exact Nat.lt_succ_of_lt (h.sockets ws hws)
      · exact Nat.lt_succ_of_lt (h.timers timer htimer)
      · exact Nat.lt_succ_of_lt (h.ended e he)
  | unmount =>
      simp only [step, Option.ite_none_right_eq_some, Option.some.injEq] at hstep
      obtain ⟨-, rfl⟩ := hstep
      exact tagged_cleanup h
  | onopen socket =>
      simp only [step, Option.ite_none_right_eq_some, Option.some.injEq] at hstep
      obtain ⟨-, rfl⟩ := hstep
      have hopened := tagged_setReadyState h socket .opened
      exact ⟨hopened.sockets, hopened.timers, hopened.ended⟩
  | closing socket =>
      simp only [step, Option.ite_none_right_eq_some, Option.some.injEq] at hstep
      obtain ⟨-, rfl⟩ := hstep
      exact tagged_setReadyState h socket .closing
  | onclose socket code =>
      simp only [step] at hstep
      split at hstep
      · rename_i ws hws
        simp only [Option.ite_none_right_eq_some, Option.some.injEq] at hstep
        obtain ⟨-, rfl⟩ := hstep
        exact tagged_onclose h hws
      · simp at hstep
  | timeout handle =>
      simp only [step] at hstep
      split at hstep
      · rename_i timer htimer
        obtain rfl := Option.some.inj hstep
        exact tagged_connect (tagged_timer h handle) (h.timers timer (List.mem_of_getElem? htimer))
      · simp at hstep

/-- The only mount goes on until the server refuses it, and its timer, if there is one, has the
delay of the attempts made so far. -/
structure GoesOn (s : Reconnection) : Prop where
  ended : ∀ e ∈ s.ended, e.2 = .refused
  timers : ∀ timer, some timer ∈ s.timers →
    0 < s.reconnectAttempts ∧ timer.delay = backoff (s.reconnectAttempts - 1)

/-- With one mount, a socket that is not closed rules timers out. -/
lemma no_timer (htagged : s.Tagged) (hone : s.mounts = 1) (haccount : s.account 0 = 1)
    {ws : BrowserSocket} (hws : ws ∈ s.sockets) (hopen : ws.readyState ≠ .closed)
    (timer : ReconnectTimer) : some timer ∉ s.timers := by
  intro htimer
  have hlive : 0 < s.live 0 := by
    have hmount := htagged.sockets ws hws
    exact List.countP_pos_iff.mpr ⟨ws, hws, decide_eq_true ⟨by omega, hopen⟩⟩
  have hwaiting : 0 < s.waiting 0 := by
    have hmount := htagged.timers timer htimer
    refine List.countP_pos_iff.mpr ⟨some timer, htimer, decide_eq_true ?_⟩
    rw [Waiting, Option.map_some, show timer.mount = 0 by omega]
  unfold account at haccount
  omega

lemma mem_of_readyState {readyState : SocketState} (h : s.readyState socket = some readyState) :
    ∃ ws ∈ s.sockets, ws.readyState = readyState := by
  obtain ⟨ws, hws, hready⟩ := Option.map_eq_some_iff.mp h
  exact ⟨ws, List.mem_of_getElem? hws, hready⟩

lemma mem_of_open (h : s.wsRef.bind s.readyState = some .opened) :
    ∃ ws ∈ s.sockets, ws.readyState = .opened := by
  obtain ⟨socket, -, hready⟩ := Option.bind_eq_some_iff.mp h
  exact mem_of_readyState hready

lemma goesOn_step {event : ConnectionEvent} (hstep : s.step event = some s') (htagged : s.Tagged)
    (haccount : ∀ m, s.account m = if m < s.mounts then 1 else 0)
    (h : s.mounts = 1 → s.mounted = true → s.GoesOn) (hone : s'.mounts = 1)
    (hmounted : s'.mounted = true) : s'.GoesOn := by
  have hzero : s.mounts = 1 → s.account 0 = 1 := fun hone => by rw [haccount, hone]; rfl
  cases event with
  | mount =>
      simp only [step] at hstep
      split_ifs at hstep
      obtain rfl := Option.some.inj hstep
      have hmounts : s.mounts = 0 := by
        unfold connect at hone
        split_ifs at hone
        · exact Nat.succ.inj hone
        · exact Nat.succ.inj hone
      -- everything there is belongs to a mount, and this is the first
      have hsockets : ∀ ws, ws ∉ s.sockets := fun ws hws => by
        have hmount := htagged.sockets ws hws
        omega
      unfold connect
      split_ifs with hopen
      · obtain ⟨ws, hws, -⟩ := mem_of_open hopen
        exact absurd hws (hsockets ws)
      · refine ⟨fun e he => ?_, fun timer htimer => ?_⟩
        · have hmount := htagged.ended e he
          omega
        · have hmount := htagged.timers timer htimer
          omega
  | unmount =>
      simp only [step, Option.ite_none_right_eq_some, Option.some.injEq] at hstep
      obtain ⟨-, rfl⟩ := hstep
      simp [cleanup] at hmounted
  | onopen socket =>
      simp only [step, Option.ite_none_right_eq_some, Option.some.injEq] at hstep
      obtain ⟨hstate, rfl⟩ := hstep
      obtain ⟨ws, hws, hready⟩ := mem_of_readyState hstate
      have hmounts : s.mounts = 1 := (mounts_setReadyState s socket .opened).symm.trans hone
      have hrest : (s.setReadyState socket .opened).timers = s.timers ∧
          (s.setReadyState socket .opened).ended = s.ended ∧
          (s.setReadyState socket .opened).mounted = s.mounted := by
        unfold setReadyState
        split <;> exact ⟨rfl, rfl, rfl⟩
      obtain ⟨htimers, hended, hsame⟩ := hrest
      have hbefore := h hmounts (hsame ▸ hmounted)
      refine ⟨fun e he => hbefore.ended e (hended ▸ he), fun timer htimer => ?_⟩
      exact absurd (htimers ▸ htimer)
        (no_timer htagged hmounts (hzero hmounts) hws (by simp [hready]) timer)
  | closing socket =>
      simp only [step, Option.ite_none_right_eq_some, Option.some.injEq] at hstep
      obtain ⟨-, rfl⟩ := hstep
      have hmounts : s.mounts = 1 := (mounts_setReadyState s socket .closing).symm.trans hone
      unfold setReadyState at hmounted ⊢
      split at hmounted
      · exact ⟨(h hmounts hmounted).ended, (h hmounts hmounted).timers⟩
      · exact h hmounts hmounted
  | onclose socket code =>
      simp only [step] at hstep
      split at hstep
      · rename_i ws hws
        simp only [Option.ite_none_right_eq_some, Option.some.injEq] at hstep
        obtain ⟨hopen, rfl⟩ := hstep
        have hmounts : s.mounts = 1 := by
          simp only [onclose, setReadyState, hws] at hone
          split_ifs at hone
          · exact hone
          · exact hone
        -- the account of a mount is one: while a socket is there, no timer is
        have hnone := no_timer htagged hmounts (hzero hmounts) (List.mem_of_getElem? hws) hopen
        simp only [onclose, setReadyState, hws] at hmounted ⊢
        split_ifs at hmounted ⊢ with hcode
        · refine ⟨?_, fun timer htimer => absurd htimer (hnone timer)⟩
          simp only [List.mem_append, List.mem_singleton]
          rintro e (he | rfl)
          · exact (h hmounts hmounted).ended e he
          · rfl
        · refine ⟨(h hmounts hmounted).ended, ?_⟩
          simp only [scheduleReconnect, List.mem_append, List.mem_singleton, Option.some.injEq]
          rintro timer (htimer | rfl)
          · exact absurd htimer (hnone timer)
          · exact ⟨Nat.succ_pos _, rfl⟩
      · simp at hstep
  | timeout handle =>
      simp only [step] at hstep
      split at hstep
      · rename_i timer htimer
        obtain rfl := Option.some.inj hstep
        have hmem := List.mem_of_getElem? htimer
        unfold connect at hone hmounted ⊢
        split_ifs at hone hmounted ⊢ with hopen
        · obtain ⟨ws, hws, hready⟩ := mem_of_open hopen
          exact absurd hmem (no_timer htagged hone (hzero hone) hws (by simp [hready]) timer)
        · refine ⟨(h hone hmounted).ended, fun timer' htimer' => ?_⟩
          rcases List.mem_or_eq_of_mem_set htimer' with htimer' | hnone
          · exact (h hone hmounted).timers timer' htimer'
          · simp at hnone
      · simp at hstep

/-! ## The result -/

lemma invariant_of_reachable (h : s.Reachable) :
    s.Tagged ∧ (∀ m, s.account m = if m < s.mounts then 1 else 0) ∧
      (s.mounts = 1 → s.mounted = true → s.GoesOn) := by
  refine Reach.invariant (P := fun s => s.Tagged ∧
    (∀ m, s.account m = if m < s.mounts then 1 else 0) ∧
      (s.mounts = 1 → s.mounted = true → s.GoesOn)) h ?_ ?_
  · refine ⟨⟨?_, ?_, ?_⟩, fun m => rfl, fun hone => ?_⟩
    · simp [start]
    · simp [start]
    · simp [start]
    · simp [start] at hone
  · rintro s event s' ⟨htagged, haccount, hgoes⟩ - hstep
    exact ⟨tagged_step htagged hstep, account_step hstep haccount,
      goesOn_step hstep htagged haccount hgoes⟩

/-- **Every mount has one line**: a socket that is not closed, or a timer, or an end, whatever the
mounts before and after it do.  Nothing but a refusal by the server ends a component that stays
mounted; until then the delay doubles with the attempts, up to half a minute. -/
theorem connection_lines (h : s.Reachable) (hm : m < s.mounts) :
    s.live m + s.waiting m + s.endings m = 1 ∧
      (s.mounts = 1 → s.mounted = true →
        (∀ e ∈ s.ended, e.2 = .refused) ∧
        ∀ timer, some timer ∈ s.timers →
          0 < s.reconnectAttempts ∧
            timer.delay = min 30000 (1000 * 2 ^ (s.reconnectAttempts - 1))) := by
  obtain ⟨-, haccount, hgoes⟩ := invariant_of_reachable h
  refine ⟨(haccount m).trans (if_pos hm), fun hone hmounted => ?_⟩
  exact ⟨(hgoes hone hmounted).ended, (hgoes hone hmounted).timers⟩

/-- The connection is lost twice and the component unmounts while it waits for the third
attempt's socket to open. -/
def unmountedRun : List ConnectionEvent :=
  [.mount, .onopen 0, .onclose 0 1006, .timeout 0, .onclose 1 1006, .timeout 1, .unmount,
    .onclose 2 1006]

/-- The state after it. -/
def unmountedEarly : Reconnection :=
  (runAllowed step (fun _ _ => True) start unmountedRun).get (by decide +kernel)

/-- The first mount of that run waits for a fourth attempt, though the component is gone. -/
theorem connection_lines_unmountedEarly :
    unmountedEarly.mounted = false ∧ unmountedEarly.waiting 0 = 1 ∧
      unmountedEarly.live 0 + unmountedEarly.waiting 0 + unmountedEarly.endings 0 = 1 :=
  ⟨by decide +kernel, by decide +kernel,
    (@connection_lines unmountedEarly 0 (reach_get _) (by decide +kernel)).1⟩

end Reconnection

end SyncEngine
