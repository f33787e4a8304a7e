import Mathlib.Tactic.Linarith
import Mathlib.Tactic.Ring
import SyncEngine.Lib.Transition
import SyncEngine.Server.Connections

/-!
# The count of pending connections

`pendingAuthCount` is to be the number of sockets that are pending: open, without a parseable
message, and still in time.  It counts up with every accepted socket and down in two handlers,
the one of the join timeout and the one of a message that meets no session.

* A socket that closes while it is pending is not counted down, and never will be.
* A message that meets no session counts down whether its socket is pending or not: the messages
  that come while `handleJoin` awaits do, and those after the timeout.

`drift` is what a step adds to the difference of the two, and nothing else is added
(`accounts_step`).  Hence the count is right in every run without such steps
(`pending_accounted`).  A single close is enough to spoil it (`not_forall_pending_accounted`).
-/

namespace SyncEngine

open Transition

/-- The timer is armed while the socket is pending, and only who has spoken has a session. -/
structure AcceptedSocket.Timed (c : AcceptedSocket) : Prop where
  armed : c.joinTimeout = c.isPending
  silent : c.spoke = false → c.sessionId = none

lemma AcceptedSocket.timed_accepted : AcceptedSocket.accepted.Timed := ⟨rfl, fun _ => rfl⟩

lemma AcceptedSocket.Timed.answer {c : AcceptedSocket} (hc : c.Timed)
    (error message reason : String) (code : Nat) :
    ((c.sendError error message).close code reason).Timed :=
  ⟨by simpa using hc.armed, by simpa using hc.silent⟩

namespace Transport

/-- **The account** of the pending connections. -/
structure PendingAccounted (s : Transport) : Prop where
  count : s.pendingAuthCount = s.pending
  nonneg : 0 ≤ s.pendingAuthCount
  allClosed : (∀ c ∈ s.connections, c.readyState = .closed) → s.pendingAuthCount = 0
  /-- A connection was refused only when so many sockets were pending. -/
  refusals : ∀ n ∈ s.refusals, n = maxPendingAuth

/-- The socket is pending. -/
def isPendingAt (s : Transport) (k : Nat) : Bool := (s.connections[k]?).any AcceptedSocket.isPending

/-- A message that can be parsed comes from a pending socket or meets a session, and a socket does
not close while it is pending. -/
def Matched (s : Transport) : TransportAction → Prop
  | .message k (.parsed _) => s.isPendingAt k = true ∨ (s.getSession k).isSome = true
  | .close k => s.isPendingAt k = false
  | _ => True

instance (s : Transport) : DecidablePred s.Matched
  | .message _ (.parsed _) => inferInstanceAs (Decidable (_ ∨ _))
  | .message _ .invalid => isTrue trivial
  | .close k => inferInstanceAs (Decidable (s.isPendingAt k = false))
  | .connect => isTrue trivial
  | .timeout _ => isTrue trivial
  | .resume _ _ _ => isTrue trivial

/-! ## The timers -/

/-- The timers are right, and whoever is in `handleJoin` has spoken. -/
structure Timed (s : Transport) : Prop where
  connections : ∀ (k : Nat) (c : AcceptedSocket), s.connections[k]? = some c → c.Timed
  joins : ∀ call ∈ s.joins, ∃ c, s.connections[call.socket]? = some c ∧ c.spoke = true

variable {s s' : Transport} {k : Nat} {c : AcceptedSocket} {f : AcceptedSocket → AcceptedSocket}

lemma timed_start : Timed start := ⟨by simp [start], by simp [start]⟩

lemma Timed.spoke_of_getSession (hs : s.Timed) (hc : s.connections[k]? = some c)
    {session : WorkerSession Nat} (h : s.getSession k = some session) : c.spoke = true := by
  by_contra hspoke
  have hnone := (hs.connections k c hc).silent (by simpa using hspoke)
  simp [getSession, hc, hnone] at h

lemma Timed.onConnection (hs : s.Timed) (k : Nat)
    (hf : ∀ c, s.connections[k]? = some c → c.Timed → (f c).Timed)
    (hspoke : ∀ c, c.spoke = true → (f c).spoke = true) : (s.onConnection k f).Timed where
  connections := by
    intro k' c' h
    rcases onConnection_cases h with hc | ⟨rfl, c, hc, rfl⟩
    · exact hs.connections k' c' hc
    · exact hf c hc (hs.connections k' c hc)
  joins := by
    intro call hcall
    obtain ⟨c, hc, hspoken⟩ := hs.joins call hcall
    rw [getElem?_onConnection]
    split
    · exact ⟨f c, by rw [hc, Option.map_some], hspoke c hspoken⟩
    · exact ⟨c, hc, hspoken⟩

lemma Timed.congr (hs : s.Timed) (hconnections : s'.connections = s.connections)
    (hjoins : ∀ call' ∈ s'.joins, ∃ call ∈ s.joins, call.socket = call'.socket) : s'.Timed where
  connections := hconnections ▸ hs.connections
  joins := by
    intro call' hcall'
    obtain ⟨call, hcall, hsocket⟩ := hjoins call' hcall'
    rw [hconnections, ← hsocket]
    exact hs.joins call hcall

lemma Timed.connect (hs : s.Timed) : s.connect.Timed := by
  rw [Transport.connect]
  split
  · exact hs.congr rfl fun call hcall => ⟨call, hcall, rfl⟩
  · refine ⟨fun k c hc => ?_, fun call hcall => ?_⟩
    · rcases List.mem_append.mp (List.mem_of_getElem? hc) with hc | hc
      · obtain ⟨k, hk⟩ := List.getElem?_of_mem hc
        exact hs.connections k c hk
      · obtain rfl := List.mem_singleton.mp hc
        exact AcceptedSocket.timed_accepted
    · obtain ⟨c, hc, hspoke⟩ := hs.joins call hcall
      exact ⟨c, List.getElem?_append_left (List.getElem?_eq_some_iff.mp hc).1 ▸ hc, hspoke⟩

lemma Timed.handleJoin (hs : s.Timed) (hk : ∃ c, s.connections[k]? = some c ∧ c.spoke = true)
    (join : Option JoinPayload) : (s.handleJoin k join).Timed := by
  cases join with
  | none => exact hs.onConnection k (fun c _ hc => hc.answer _ _ _ _) (by simp)
  | some msg =>
      rw [Transport.handleJoin]
      split
      · exact hs.onConnection k (fun c _ hc => hc.answer _ _ _ _) (by simp)
      · refine ⟨hs.connections, fun call hcall => ?_⟩
        rcases List.mem_append.mp hcall with hcall | hcall
        · exact hs.joins call hcall
        · obtain rfl := List.mem_singleton.mp hcall
          exact hk

lemma Timed.onMessage (hs : s.Timed) (hc : s.connections[k]? = some c)
    (incoming : IncomingMessage) : (s.onMessage k incoming).Timed := by
  cases incoming with
  | invalid =>
      exact hs.onConnection k (fun c _ hc => ⟨by simpa using hc.armed, by simpa using hc.silent⟩)
        (by simp)
  | parsed join =>
      rw [Transport.onMessage]
      split
      · rename_i session hsession
        refine hs.onConnection k (fun c hc ht => ⟨?_, by simp⟩) (by simp)
        have hspoke := hs.spoke_of_getSession hc hsession
        rw [ht.armed, AcceptedSocket.isPending, AcceptedSocket.isPending, hspoke]
      · have hspoken :=
          hs.onConnection k (f := fun c => { c with spoke := true, joinTimeout := false })
            (fun c _ _ => ⟨by simp [AcceptedSocket.isPending], by simp⟩) (by simp)
        have hdown : (s.countDown k).Timed := ⟨hspoken.connections, hspoken.joins⟩
        exact hdown.handleJoin ⟨_, getElem?_onConnection_self hc _, rfl⟩ join

lemma Timed.onTimeout (hs : s.Timed) (c : AcceptedSocket) : (s.onTimeout k c).Timed := by
  have hfired := hs.onConnection k (f := fun c => { c with joinTimeout := false, timedOut := true })
    (fun c _ ht => ⟨by simp [AcceptedSocket.isPending], ht.silent⟩) fun _ => id
  rw [Transport.onTimeout]
  split
  · have hclosed := hfired.onConnection k (f := (·.close 4001 "Authentication timeout"))
      (fun c _ ht => ⟨by simpa using ht.armed, by simpa using ht.silent⟩) (by simp)
    exact ⟨hclosed.connections, hclosed.joins⟩
  · exact hfired

lemma Timed.onClose (hs : s.Timed) : (s.onClose k).Timed := by
  have hclosed := hs.onConnection k
    (f := fun c => { c with readyState := .closed, joinTimeout := false })
    (fun c _ ht => ⟨by simp [AcceptedSocket.isPending], ht.silent⟩) fun _ => id
  exact ⟨hclosed.connections, hclosed.joins⟩

lemma Timed.resume (hs : s.Timed) {i : Nat} {call : JoinCall} {id : JSString} {result : AwaitResult}
    (hcall : s.joins[i]? = some call) (h : s.resume i call id call.stage result = some s') :
    s'.Timed := by
  have hfinish : (s.finish i).Timed :=
    hs.congr rfl fun call hcall => ⟨call, List.mem_of_mem_eraseIdx hcall, rfl⟩
  rcases resume_cases h with ⟨stage, rfl⟩ | rfl | ⟨error, message, code, reason, rfl⟩ |
    ⟨-, displayName, color, lastSeq, h⟩
  · exact hs.congr rfl fun call hcall => mem_joins_toStage hcall
  · exact hfinish
  · exact hfinish.onConnection call.socket (fun c _ hc => hc.answer _ _ _ _) (by simp)
  · have hregisters := registers_of_register h
    have hset := hs.onConnection call.socket (f := fun c => { c with sessionId := some id })
      (fun c hc ht => ⟨ht.armed, fun hspoke => ?_⟩) fun _ hspoke => hspoke
    · exact hset.congr hregisters.connections hregisters.joins
    · obtain ⟨c', hc', hspoken⟩ := hs.joins call (List.mem_of_getElem? hcall)
      obtain rfl := Option.some.inj (hc.symm.trans hc')
      rw [hspoken] at hspoke
      simp at hspoke

lemma timed_step {a : TransportAction} (hs : s.Timed) (h : s.step a = some s') : s'.Timed := by
  cases move_of_step h with
  | connect => exact hs.connect
  | message hc => exact hs.onMessage hc _
  | timeout _ _ => exact hs.onTimeout _
  | close _ => exact hs.onClose
  | resume hcall h => exact hs.resume hcall h

/-! ## The account -/

/-- What a step adds to the difference of the count and the number of pending sockets. -/
def drift (s : Transport) : TransportAction → Int
  | .message k (.parsed _) =>
      if s.isPendingAt k = true ∨ (s.getSession k).isSome = true then 0 else -1
  | .close k => if s.isPendingAt k = false then 0 else 1
  | _ => 0

lemma drift_eq_zero_iff (s : Transport) (a : TransportAction) : s.drift a = 0 ↔ s.Matched a := by
  cases a with
  | message k incoming =>
      cases incoming with
      | invalid => simp [drift, Matched]
      | parsed join =>
          rw [drift, Matched]
          split <;> simp_all
  | close k => simp [drift, Matched]
  | connect => simp [drift, Matched]
  | timeout k => simp [drift, Matched]
  | resume i result id => simp [drift, Matched]

lemma countP_modify {α : Type*} (p : α → Bool) (f : α → α) {l : List α} {k : Nat} {a : α}
    (h : l[k]? = some a) :
    ((l.modify k f).countP p : Int) = l.countP p - (p a).toNat + (p (f a)).toNat := by
  induction l generalizing k with
  | nil => simp at h
  | cons b l ih =>
      cases k with
      | zero =>
          obtain rfl : b = a := by simpa using h
          cases hb : p b <;> cases hf : p (f b) <;> simp [hb, hf]
      | succ k =>
          have ih := ih (k := k) (by simpa using h)
          simp only [List.modify_succ_cons, List.countP_cons]
          push_cast
          linarith

lemma pending_onConnection (hc : s.connections[k]? = some c) (f : AcceptedSocket → AcceptedSocket) :
    ((s.onConnection k f).pending : Int) = s.pending - c.isPending.toNat + (f c).isPending.toNat :=
  countP_modify _ _ hc

/-- What is done to a connection leaves it pending or not. -/
lemma pending_onConnection_eq (hf : ∀ c, (f c).isPending = c.isPending) :
    (s.onConnection k f).pending = s.pending := by
  cases hc : s.connections[k]? with
  | none =>
      have hlen := List.getElem?_eq_none_iff.mp hc
      rw [pending, onConnection, List.modify_eq_self hlen, ← pending]
  | some c =>
      have h := pending_onConnection hc f
      rw [hf] at h
      omega

lemma pending_onConnection_of_settled (hc : s.connections[k]? = some c)
    (hf : (f c).isPending = false) :
    ((s.onConnection k f).pending : Int) = s.pending - c.isPending.toNat := by
  rw [pending_onConnection hc f, hf, Bool.toNat_false, Nat.cast_zero, add_zero]

lemma isPendingAt_eq (hc : s.connections[k]? = some c) : s.isPendingAt k = c.isPending := by
  rw [isPendingAt, hc, Option.any_some]

/-- `handleJoin` changes neither number. -/
lemma account_handleJoin (s : Transport) (k : Nat) (join : Option JoinPayload) :
    (s.handleJoin k join).pendingAuthCount = s.pendingAuthCount ∧
      (s.handleJoin k join).pending = s.pending ∧
      (s.handleJoin k join).refusals = s.refusals := by
  cases join with
  | none => exact ⟨rfl, pending_onConnection_eq (by simp), rfl⟩
  | some msg =>
      rw [handleJoin]
      split
      · exact ⟨rfl, pending_onConnection_eq (by simp), rfl⟩
      · exact ⟨rfl, rfl, rfl⟩

/-- What a step does to the count, to the number of pending sockets and to the refusals. -/
structure Accounts (s s' : Transport) (drift : Int) : Prop where
  count : s'.pendingAuthCount - s'.pending = s.pendingAuthCount - s.pending + drift
  bound : s.pendingAuthCount ≤ maxPendingAuth → s'.pendingAuthCount ≤ maxPendingAuth
  refusals : s'.refusals = s.refusals ∨
    s'.refusals = s.refusals ++ [s.pending] ∧ (maxPendingAuth : Int) ≤ s.pendingAuthCount

lemma accounts_connect (s : Transport) : s.Accounts s.connect 0 := by
  rw [connect]
  split
  · rename_i hfull
    exact ⟨by simp [pending], fun h => h, Or.inr ⟨rfl, hfull⟩⟩
  · rename_i hfree
    refine ⟨?_, fun _ => Int.add_one_le_of_lt (not_le.mp hfree), Or.inl rfl⟩
    have hone : [AcceptedSocket.accepted].countP AcceptedSocket.isPending = 1 := rfl
    simp [pending, List.countP_append, hone]

lemma accounts_onConnection (hf : ∀ c, (f c).isPending = c.isPending) :
    s.Accounts (s.onConnection k f) 0 := by
  refine ⟨?_, fun h => h, Or.inl rfl⟩
  rw [pending_onConnection_eq hf, add_zero]
  rfl

lemma Timed.accounts_onMessage (hs : s.Timed) (hc : s.connections[k]? = some c)
    (incoming : IncomingMessage) :
    s.Accounts (s.onMessage k incoming) (s.drift (.message k incoming)) := by
  cases incoming with
  | invalid => exact accounts_onConnection (by simp)
  | parsed join =>
      rw [Transport.onMessage, drift, isPendingAt_eq hc]
      split
      · rename_i session hsession
        -- a socket with a session has spoken before
        have hspoke := hs.spoke_of_getSession hc hsession
        have hsettled : c.isPending = false := by simp [AcceptedSocket.isPending, hspoke]
        have hpending := pending_onConnection_of_settled hc (f := fun c => { c with spoke := true })
          (by simp [AcceptedSocket.isPending])
        rw [hsettled, Bool.toNat_false, Nat.cast_zero, sub_zero] at hpending
        refine ⟨?_, fun h => h, Or.inl rfl⟩
        rw [hpending, if_pos (Or.inr (by rw [hsession]; rfl)), add_zero]
        rfl
      · rename_i hsession
        obtain ⟨hcount, hpending, hrefusals⟩ := account_handleJoin (s.countDown k) k join
        have hdown : ((s.countDown k).pending : Int) = s.pending - c.isPending.toNat :=
          pending_onConnection_of_settled hc (by simp [AcceptedSocket.isPending])
        have hone : (s.countDown k).pendingAuthCount = s.pendingAuthCount - 1 := rfl
        refine ⟨?_, fun h => by omega, Or.inl hrefusals⟩
        rw [hcount, hpending, hdown, hone, hsession]
        cases c.isPending with
        | false =>
            simp only [Bool.toNat_false, Nat.cast_zero, Bool.false_eq_true, Option.isSome_none,
              or_self, if_false]
            ring
        | true =>
            simp only [Bool.toNat_true, Nat.cast_one, true_or, if_true]
            ring

lemma Timed.accounts_onTimeout (hs : s.Timed) (hc : s.connections[k]? = some c)
    (harmed : c.joinTimeout = true) : s.Accounts (s.onTimeout k c) 0 := by
  obtain ⟨hpending, hsilent⟩ := hs.connections k c hc
  rw [harmed] at hpending
  have hspoke : c.spoke = false := by
    rw [AcceptedSocket.isPending] at hpending
    simp_all
  have hfired := pending_onConnection_of_settled hc
    (f := fun c => { c with joinTimeout := false, timedOut := true })
    (by simp [AcceptedSocket.isPending])
  rw [← hpending, Bool.toNat_true, Nat.cast_one] at hfired
  rw [Transport.onTimeout, if_pos (by rw [hsilent hspoke]; rfl)]
  set fired := s.onConnection k fun c => { c with joinTimeout := false, timedOut := true }
  have hclosed : (fired.onConnection k (·.close 4001 "Authentication timeout")).pending =
      fired.pending := pending_onConnection_eq (by simp)
  refine ⟨?_, fun h => le_trans (sub_le_self _ zero_le_one) h, Or.inl rfl⟩
  rw [← hclosed] at hfired
  have hcount : fired.pendingAuthCount = s.pendingAuthCount := rfl
  simp only [pending] at hfired ⊢
  rw [hfired, hcount]
  ring

lemma accounts_onClose (hc : s.connections[k]? = some c) :
    s.Accounts (s.onClose k) (s.drift (.close k)) := by
  have hclosed := pending_onConnection_of_settled hc
    (f := fun c => { c with readyState := .closed, joinTimeout := false })
    (by simp [AcceptedSocket.isPending])
  refine ⟨?_, fun h => h, Or.inl rfl⟩
  rw [drift, isPendingAt_eq hc]
  have hcount : (s.onClose k).pendingAuthCount = s.pendingAuthCount := rfl
  have hpending : ((s.onClose k).pending : Int) = s.pending - c.isPending.toNat := hclosed
  rw [hcount, hpending]
  cases c.isPending with
  | false => simp
  | true =>
      simp only [Bool.toNat_true, Nat.cast_one, Bool.true_eq_false, if_false]
      ring

lemma accounts_resume {i : Nat} {call : JoinCall} {id : JSString} {result : AwaitResult}
    (h : s.resume i call id call.stage result = some s') : s.Accounts s' 0 := by
  rcases resume_cases h with ⟨stage, rfl⟩ | rfl | ⟨error, message, code, reason, rfl⟩ |
    ⟨-, displayName, color, lastSeq, h⟩
  · exact ⟨by rw [add_zero]; rfl, fun h => h, Or.inl rfl⟩
  · exact ⟨by rw [add_zero]; rfl, fun h => h, Or.inl rfl⟩
  · have hreject := accounts_onConnection (s := s.finish i) (k := call.socket)
      (f := fun c => (c.sendError error message).close code reason) (by simp)
    exact ⟨hreject.count, hreject.bound, hreject.refusals⟩
  · have hregisters := registers_of_register h
    have hset := accounts_onConnection (s := s) (k := call.socket)
      (f := fun c => { c with sessionId := some id }) fun c => rfl
    have hpending : s'.pending =
        (s.onConnection call.socket fun c => { c with sessionId := some id }).pending := by
      rw [pending, hregisters.connections]
      rfl
    refine ⟨?_, fun h => hregisters.pendingAuthCount ▸ h, Or.inl hregisters.refusals⟩
    rw [hregisters.pendingAuthCount, hpending]
    exact hset.count

/-- **The drift** of a step is all that it adds to the difference. -/
theorem accounts_step {a : TransportAction} (hs : s.Timed) (h : s.step a = some s') :
    s.Accounts s' (s.drift a) := by
  cases move_of_step h with
  | connect => exact s.accounts_connect
  | message hc => exact hs.accounts_onMessage hc _
  | timeout hc harmed => exact hs.accounts_onTimeout hc harmed
  | close hc => exact accounts_onClose hc
  | resume _ h => exact accounts_resume h

/-! ## Runs -/

/-- What a matched step keeps. -/
structure Balanced (s : Transport) : Prop where
  timed : s.Timed
  count : s.pendingAuthCount = s.pending
  bound : s.pendingAuthCount ≤ maxPendingAuth
  refusals : ∀ n ∈ s.refusals, n = maxPendingAuth

lemma balanced_start : Balanced start := ⟨timed_start, rfl, by decide, by simp [start]⟩

lemma balanced_step {a : TransportAction} (hs : s.Balanced) (ha : s.Matched a)
    (h : s.step a = some s') : s'.Balanced := by
  obtain ⟨hcount, hbound, hrefusals⟩ := accounts_step hs.timed h
  rw [(drift_eq_zero_iff s a).mpr ha, add_zero, hs.count, sub_self] at hcount
  refine ⟨timed_step hs.timed h, sub_eq_zero.mp hcount, hbound hs.bound, fun n hn => ?_⟩
  rcases hrefusals with heq | ⟨heq, hfull⟩
  · exact hs.refusals n (heq ▸ hn)
  · rcases List.mem_append.mp (heq ▸ hn) with hn | hn
    · exact hs.refusals n hn
    · rw [List.mem_singleton.mp hn]
      exact_mod_cast hs.count ▸ le_antisymm hs.bound hfull

/-- **The account holds** in every run in which no socket closes while it is pending, and every
message that can be parsed comes from a pending socket or meets a session. -/
theorem pending_accounted (s : Transport) (h : Reach step Matched start s) :
    PendingAccounted s := by
  have hs : s.Balanced := h.invariant balanced_start fun _ _ _ hs ha hstep =>
    balanced_step hs ha hstep
  refine ⟨hs.count, by rw [hs.count]; exact Int.natCast_nonneg _, fun hclosed => ?_, hs.refusals⟩
  have hnone : s.pending = 0 := by
    refine List.countP_eq_zero.mpr fun c hc => ?_
    simp [AcceptedSocket.isPending, hclosed c hc]
  rw [hs.count, hnone, Nat.cast_zero]

/-- Three sockets: one joins and closes, one sends no JSON and runs out of time, one waits. -/
def threeSockets : Transport :=
  (runAllowed step Matched start
    [.connect, .connect, .connect,
      .message 1 .invalid,
      .message 0 (.parsed (some ⟨⟨none, some (JSString.lit "u"), JSString.lit "c"⟩, 0⟩)),
      .timeout 1,
      .resume 0 (.rows (some (JSString.lit "Ann", JSString.lit "red"))) (JSString.lit "id"),
      .message 0 (.parsed none),
      .resume 0 .done (JSString.lit "id"),
      .close 0, .close 1]).get (by decide +kernel)

theorem pending_accounted_threeSockets :
    PendingAccounted threeSockets ∧ threeSockets.pendingAuthCount = 1 := by
  have hreach : Reach step Matched start threeSockets := reach_get _
  exact ⟨pending_accounted threeSockets hreach, by decide +kernel⟩

/-- A socket that connects and closes. -/
def closedBeforeJoin : Transport :=
  (runAllowed step (fun _ _ => True) start [.connect, .close 0]).get (by decide +kernel)

/-- **The account fails**: the socket that closed before it has joined counts for ever. -/
theorem not_forall_pending_accounted :
    ¬ ∀ s, Reach step (fun _ _ => True) start s → PendingAccounted s := by
  intro h
  have hreach : Reach step (fun _ _ => True) start closedBeforeJoin := reach_get _
  have hcount := (h closedBeforeJoin hreach).allClosed (by decide +kernel)
  have hone : closedBeforeJoin.pendingAuthCount = 1 := by decide +kernel
  omega

end Transport

end SyncEngine
