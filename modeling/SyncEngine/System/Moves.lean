import SyncEngine.Server.CallProgress
import SyncEngine.System.Collaboration

/-!
# What an action means for a client

`stepped` is the inversion of `Collaboration.step`, and `step_move` what it comes to for one client:
its connection and its calls change in one of the ways that `Move` lists, or not at all.  What all
clients share, the log and the channel, changes only when a call in process stores or publishes
(`log_step`), and the pool takes a step of its own or none (`pool_step`).

Every invariant of the system is derived from these lemmas and never from `step` itself.
-/

namespace SyncEngine

namespace Collaboration

open WorkerPool

variable {W C : Type*} [DecidableEq W] [DecidableEq C] {P : Participants W C}
  {s s' : Collaboration W C} {a : Action W C}

/-- The actions, each with what it asks for and what it makes of the system. -/
inductive Stepped (P : Participants W C) (s : Collaboration W C) :
    Action W C → Collaboration W C → Prop
  | join (c : C) (hjoin : (s.connections c).join = .connecting) :
      Stepped P s (.join c)
        ({ s with pool := (s.pool.getOrLoadDocument (P.home c)).1 }.setConnection c
          { s.connections c with
            join := .awaitDocument (s.pool.getOrLoadDocument (P.home c)).2 })
  | register (c : C) (n : Nat) (hjoin : (s.connections c).join = .awaitDocument n) :
      Stepped P s (.register c) (s.setConnection c { s.connections c with join := .registered n })
  | acknowledge (c : C) (n : Nat) (loaded : Loaded)
      (hjoin : (s.connections c).join = .registered n)
      (hloaded : s.pool.loaded (P.home c) n = some loaded) :
      Stepped P s (.acknowledge c) { s with
        opHandlers := Function.update s.opHandlers (P.home c) (s.opHandlers (P.home c) + 1)
        connections := Function.update s.connections c
          ({ s.connections c with join := .joined }.send
            [.joinAck (s.joinAckFor P c loaded)]) }
  | edit (c : C) (e : LocalEdit) :
      Stepped P s (.edit c e)
        (s.setConnection c ((s.connections c).runHook ((s.connections c).hook.edit e)))
  | receive (c : C) (msg : OperationMessage) (rest : List OperationMessage)
      (valid : ValidatedOperationMessage) (hserver : (s.connections c).toServer = msg :: rest)
      (hvalid : validateOperation msg = some valid) :
      Stepped P s (.receive c) (s.setConnection c { s.connections c with
        toServer := rest, messageQueue := (s.connections c).messageQueue ++ [valid] })
  | reject (c : C) (msg : OperationMessage) (rest : List OperationMessage)
      (hserver : (s.connections c).toServer = msg :: rest)
      (hvalid : validateOperation msg = none) :
      Stepped P s (.receive c)
        (s.setConnection c ({ s.connections c with toServer := rest }.send
          [.error invalidOperation]))
  | process (c : C) (msg : ValidatedOperationMessage) (rest : List ValidatedOperationMessage)
      (pool : WorkerPool W (C × Nat)) (hidle : (s.connections c).isProcessing = false)
      (hqueue : (s.connections c).messageQueue = msg :: rest)
      (hpool : s.pool.step (.begin (s.callInProcess c) (P.home c) (P.session c) msg) = some pool) :
      Stepped P s (.process c) ({ s with pool := pool }.setConnection c
        { s.connections c with messageQueue := rest, isProcessing := true })
  | advance (c : C) (pool : WorkerPool W (C × Nat))
      (hprocessing : (s.connections c).isProcessing = true)
      (hpool : s.pool.step (.advance (s.callInProcess c)) = some pool) :
      Stepped P s (.advance c) { s with pool := pool }
  | reply (c : C) (call : OperationCall W) (message : ServerMessage)
      (hprocessing : (s.connections c).isProcessing = true)
      (hcall : s.pool.calls (s.callInProcess c) = some call)
      (hreply : replyTo call = some message) :
      Stepped P s (.reply c) (s.setConnection c ({ s.connections c with
        isProcessing := false, processed := (s.connections c).processed + 1 }.send [message]))
  | deliver (w : W) (envelope : OperationEnvelope) (pool : WorkerPool W (C × Nat))
      (hnext : s.pool.channel[s.pool.delivered w]? = some envelope)
      (hpool : s.pool.step (.deliver w) = some pool) :
      Stepped P s (.deliver w) { s with
        pool := pool
        connections := fun c =>
          if P.home c = w then (s.connections c).broadcast (s.opHandlers w) envelope
          else s.connections c }
  | handle (c : C) (message : ServerMessage) (rest : List ServerMessage)
      (hclient : (s.connections c).toClient = message :: rest) :
      Stepped P s (.handle c) (s.setConnection c ({ s.connections c with toClient := rest }.runHook
        ((s.connections c).hook.handleServerMessage message)))
  | background (b : PoolAction W (C × Nat)) (pool : WorkerPool W (C × Nat))
      (hbackground : b.isBackground = true) (hpool : s.pool.step b = some pool) :
      Stepped P s (.background b) { s with pool := pool }

/-- **The inversion of `step`.** -/
theorem stepped (h : s.step P a = some s') : Stepped P s a s' := by
  cases a with
  | join c =>
      rw [step, join] at h
      split at h
      · rename_i hjoin
        obtain rfl := Option.some.inj h
        exact .join c hjoin
      · simp at h
  | register c =>
      rw [step, register] at h
      split at h
      · rename_i n hjoin
        obtain ⟨-, -, rfl⟩ := Option.map_eq_some_iff.mp h
        exact .register c n hjoin
      · simp at h
  | acknowledge c =>
      rw [step, acknowledge] at h
      split at h
      · rename_i n hjoin
        obtain ⟨loaded, hloaded, rfl⟩ := Option.map_eq_some_iff.mp h
        exact .acknowledge c n loaded hjoin hloaded
      · simp at h
  | edit c e =>
      rw [step] at h
      obtain rfl := Option.some.inj h
      exact .edit c e
  | receive c =>
      rw [step, receive] at h
      split at h
      · simp at h
      · rename_i msg rest hserver
        simp only at h
        split at h
        · rename_i valid hvalid
          obtain rfl := Option.some.inj h
          exact .receive c msg rest valid hserver hvalid
        · rename_i hvalid
          obtain rfl := Option.some.inj h
          exact .reject c msg rest hserver hvalid
  | process c =>
      rw [step, process] at h
      split at h
      · rename_i msg rest hidle hqueue
        obtain ⟨pool, hpool, rfl⟩ := Option.map_eq_some_iff.mp h
        exact .process c msg rest pool hidle hqueue hpool
      · simp at h
  | advance c =>
      rw [step, advance] at h
      split at h
      · rename_i hprocessing
        obtain ⟨pool, hpool, rfl⟩ := Option.map_eq_some_iff.mp h
        exact .advance c pool hprocessing hpool
      · simp at h
  | reply c =>
      rw [step, reply] at h
      split at h
      · rename_i hprocessing
        obtain ⟨call, hcall, h⟩ := Option.bind_eq_some_iff.mp h
        obtain ⟨message, hreply, rfl⟩ := Option.map_eq_some_iff.mp h
        exact .reply c call message hprocessing hcall hreply
      · simp at h
  | deliver w =>
      rw [step, deliver] at h
      obtain ⟨envelope, hnext, h⟩ := Option.bind_eq_some_iff.mp h
      obtain ⟨pool, hpool, rfl⟩ := Option.map_eq_some_iff.mp h
      exact .deliver w envelope pool hnext hpool
  | handle c =>
      rw [step, handle] at h
      split at h
      · simp at h
      · rename_i message rest hclient
        obtain rfl := Option.some.inj h
        exact .handle c message rest hclient
  | background b =>
      rw [step] at h
      split at h
      · rename_i hbackground
        obtain ⟨pool, hpool, rfl⟩ := Option.map_eq_some_iff.mp h
        exact .background b pool hbackground hpool
      · simp at h

/-- No call of the client moves, and its worker sees nothing new. -/
structure Aside (P : Participants W C) (s s' : Collaboration W C) (c : C) : Prop where
  calls_eq : ∀ m, s'.pool.calls (c, m) = s.pool.calls (c, m)
  delivered_eq : s'.pool.delivered (P.home c) = s.pool.delivered (P.home c)

/-- What an action means for the client `c`. -/
inductive Move (P : Participants W C) (s s' : Collaboration W C) (c : C) : Action W C → Prop
  /-- Nothing, or somebody else's call moves. -/
  | away {a : Action W C} (haside : Aside P s s' c)
      (hlog : SameLog s.pool s'.pool ∨ ∃ c₀, c₀ ≠ c ∧ a = .advance c₀)
      (hconn : s'.connections c = s.connections c) : Move P s s' c a
  /-- The JOIN arrives, or the session is registered. -/
  | joining {a : Action W C} (stage : JoinStage) (haside : Aside P s s' c)
      (hlog : SameLog s.pool s'.pool) (hbefore : (s.connections c).join ≠ .joined)
      (hstage : stage ≠ .joined)
      (hconn : s'.connections c = { s.connections c with join := stage }) : Move P s s' c a
  | acknowledge (n : Nat) (loaded : Loaded) (haside : Aside P s s' c)
      (hlog : SameLog s.pool s'.pool) (hbefore : (s.connections c).join = .registered n)
      (hloaded : s.pool.loaded (P.home c) n = some loaded)
      (hconn : s'.connections c =
        { s.connections c with join := .joined }.send [.joinAck (s.joinAckFor P c loaded)]) :
      Move P s s' c (.acknowledge c)
  | edit (e : LocalEdit) (haside : Aside P s s' c) (hlog : SameLog s.pool s'.pool)
      (hconn : s'.connections c = (s.connections c).runHook ((s.connections c).hook.edit e)) :
      Move P s s' c (.edit c e)
  | receive (msg : OperationMessage) (rest : List OperationMessage)
      (valid : ValidatedOperationMessage) (haside : Aside P s s' c)
      (hlog : SameLog s.pool s'.pool) (hserver : (s.connections c).toServer = msg :: rest)
      (hvalid : validateOperation msg = some valid)
      (hconn : s'.connections c = { s.connections c with
        toServer := rest, messageQueue := (s.connections c).messageQueue ++ [valid] }) :
      Move P s s' c (.receive c)
  | reject (msg : OperationMessage) (rest : List OperationMessage) (haside : Aside P s s' c)
      (hlog : SameLog s.pool s'.pool) (hserver : (s.connections c).toServer = msg :: rest)
      (hvalid : validateOperation msg = none)
      (hconn : s'.connections c =
        { s.connections c with toServer := rest }.send [.error invalidOperation]) :
      Move P s s' c (.receive c)
  | begin (msg : ValidatedOperationMessage) (rest : List ValidatedOperationMessage)
      (hidle : (s.connections c).isProcessing = false)
      (hqueue : (s.connections c).messageQueue = msg :: rest)
      (hcalls : ∀ m, s'.pool.calls (c, m) = if m = (s.connections c).processed then
        some ⟨P.home c, P.session c, msg, .rateLimit⟩ else s.pool.calls (c, m))
      (hdelivered : s'.pool.delivered = s.pool.delivered) (hlog : SameLog s.pool s'.pool)
      (hconn : s'.connections c =
        { s.connections c with messageQueue := rest, isProcessing := true }) :
      Move P s s' c (.process c)
  | advance (call : OperationCall W) (stage : CallStage)
      (hprocessing : (s.connections c).isProcessing = true)
      (hcall : s.pool.calls (s.callInProcess c) = some call)
      (hcalls : ∀ m, s'.pool.calls (c, m) = if m = (s.connections c).processed then
        some { call with stage := stage } else s.pool.calls (c, m))
      (hdelivered : s'.pool.delivered = s.pool.delivered)
      (hprogress : Progress s.pool s'.pool call call.stage stage)
      (hconn : s'.connections c = s.connections c) : Move P s s' c (.advance c)
  | reply (call : OperationCall W) (message : ServerMessage) (haside : Aside P s s' c)
      (hlog : SameLog s.pool s'.pool) (hprocessing : (s.connections c).isProcessing = true)
      (hcall : s.pool.calls (s.callInProcess c) = some call)
      (hreply : replyTo call = some message)
      (hconn : s'.connections c = { s.connections c with
        isProcessing := false, processed := (s.connections c).processed + 1 }.send [message]) :
      Move P s s' c (.reply c)
  | broadcast (envelope : OperationEnvelope)
      (hnext : s.pool.channel[s.pool.delivered (P.home c)]? = some envelope)
      (hcalls : ∀ m, s'.pool.calls (c, m) = s.pool.calls (c, m))
      (hdelivered : s'.pool.delivered (P.home c) = s.pool.delivered (P.home c) + 1)
      (hlog : SameLog s.pool s'.pool)
      (hconn : s'.connections c =
        (s.connections c).broadcast (s.opHandlers (P.home c)) envelope) :
      Move P s s' c (.deliver (P.home c))
  | handle (message : ServerMessage) (rest : List ServerMessage) (haside : Aside P s s' c)
      (hlog : SameLog s.pool s'.pool) (hclient : (s.connections c).toClient = message :: rest)
      (hconn : s'.connections c = { s.connections c with toClient := rest }.runHook
        ((s.connections c).hook.handleServerMessage message)) : Move P s s' c (.handle c)

/-! ## Inversion -/

/-- Calls are not turned away by the rate limiter or the replay guard. -/
def NotRefused : Action W C → Prop
  | .background (.refuse ..) => False
  | _ => True

/-- Besides, no cache drops its entry and no tombstones are collected. -/
def Undisturbed (s : Collaboration W C) : Action W C → Prop
  | .background (.refuse ..) => False
  | .background (.evict _) => False
  | .background (.job i) => ∀ job ∈ s.pool.jobs[i]?, job.aboutToCollect = none
  | _ => True

instance (s : Collaboration W C) : ∀ a, Decidable (s.Undisturbed a)
  | .background (.refuse ..) => isFalse id
  | .background (.evict _) => isFalse id
  | .background (.job i) =>
      inferInstanceAs (Decidable (∀ job ∈ s.pool.jobs[i]?, job.aboutToCollect = none))
  | .background (.begin ..) | .background (.advance _) | .background (.join _)
  | .background (.load ..) | .background (.deliver _) | .background (.forceSnapshot _)
  | .background (.skipJob _) | .background (.throwAppend _) => isTrue trivial
  | .join _ | .register _ | .acknowledge _ | .edit .. | .receive _ | .process _ | .advance _
  | .reply _ | .deliver _ | .handle _ => isTrue trivial

omit [DecidableEq W] [DecidableEq C] in
lemma Undisturbed.notRefused (h : s.Undisturbed a) : NotRefused a := by
  cases a with
  | background b =>
      cases b with
      | refuse => exact h
      | _ => exact trivial
  | _ => exact trivial

omit [DecidableEq W] in
lemma connections_setConnection (s : Collaboration W C) (c c' : C) (conn : Connection) :
    (s.setConnection c conn).connections c' = if c' = c then conn else s.connections c' :=
  Function.update_apply ..

omit [DecidableEq W] in
/-- An action that changes one connection moves nobody else. -/
lemma move_setConnection {t : Collaboration W C} {c₀ : C} {conn : Connection}
    (hconn : t.connections = s.connections)
    (haside : ∀ c, Aside P s (t.setConnection c₀ conn) c) (hlog : SameLog s.pool t.pool)
    (hself : (t.setConnection c₀ conn).connections c₀ = conn →
      Move P s (t.setConnection c₀ conn) c₀ a) (c : C) :
    Move P s (t.setConnection c₀ conn) c a := by
  by_cases hc : c = c₀
  · subst hc
    exact hself (by rw [connections_setConnection, if_pos rfl])
  · exact .away (haside c) (Or.inl hlog) (by rw [connections_setConnection, if_neg hc, hconn])

omit [DecidableEq W] [DecidableEq C] in
lemma aside_refl (s : Collaboration W C) (conns : C → Connection) (c : C) :
    Aside P s { s with connections := conns } c := ⟨fun _ => rfl, rfl⟩

omit [DecidableEq W] in
/-- The calls of the other clients stay as they are when one call changes. -/
lemma calls_update_of_ne {calls : C × Nat → Option (OperationCall W)} {c c₀ : C} (hc : c ≠ c₀)
    (m m₀ : Nat) (call : Option (OperationCall W)) :
    Function.update calls (c₀, m₀) call (c, m) = calls (c, m) :=
  Function.update_of_ne (fun h => hc (congrArg Prod.fst h)) ..

omit [DecidableEq W] in
lemma calls_update (calls : C × Nat → Option (OperationCall W)) (c : C)
    (m m₀ : Nat) (call : Option (OperationCall W)) :
    Function.update calls (c, m₀) call (c, m) = if m = m₀ then call else calls (c, m) := by
  rw [Function.update_apply]
  simp

/-- **What an action means for a client.** -/
theorem step_move (hrefused : NotRefused a) (h : s.step P a = some s') (c : C) :
    Move P s s' c a := by
  cases stepped h with
  | join c₀ hjoin =>
      have hbefore : (s.connections c₀).join ≠ .joined := by simp [hjoin]
      let asked := s.pool.getOrLoadDocument (P.home c₀)
      exact move_setConnection (s := s) (t := { s with pool := asked.1 }) rfl
        (fun c => ⟨fun _ => rfl, rfl⟩) ⟨rfl, rfl⟩ (fun hconn =>
          .joining (.awaitDocument asked.2) ⟨fun _ => rfl, rfl⟩ ⟨rfl, rfl⟩ hbefore nofun hconn) c
  | register c₀ n hjoin =>
      have hbefore : (s.connections c₀).join ≠ .joined := by simp [hjoin]
      exact move_setConnection rfl (aside_refl s _) ⟨rfl, rfl⟩ (fun hconn =>
        .joining (.registered n) (aside_refl s _ _) ⟨rfl, rfl⟩ hbefore nofun hconn) c
  | acknowledge c₀ n loaded hjoin hloaded =>
      -- the client that is served makes the move; for the others it happens elsewhere
      by_cases hc : c = c₀
      · subst hc
        exact .acknowledge n loaded ⟨fun _ => rfl, rfl⟩ ⟨rfl, rfl⟩ hjoin hloaded
          (Function.update_self ..)
      · exact .away ⟨fun _ => rfl, rfl⟩ (Or.inl ⟨rfl, rfl⟩) (Function.update_of_ne hc ..)
  | edit c₀ e =>
      exact move_setConnection rfl (aside_refl s _) ⟨rfl, rfl⟩ (fun hconn =>
        .edit e (aside_refl s _ _) ⟨rfl, rfl⟩ hconn) c
  | receive c₀ msg rest valid hserver hvalid =>
      exact move_setConnection rfl (aside_refl s _) ⟨rfl, rfl⟩ (fun hconn =>
        .receive msg rest valid (aside_refl s _ _) ⟨rfl, rfl⟩ hserver hvalid hconn) c
  | reject c₀ msg rest hserver hvalid =>
      exact move_setConnection rfl (aside_refl s _) ⟨rfl, rfl⟩ (fun hconn =>
        .reject msg rest (aside_refl s _ _) ⟨rfl, rfl⟩ hserver hvalid hconn) c
  | process c₀ msg rest pool hidle hqueue hpool =>
      rw [WorkerPool.step] at hpool
      split at hpool
      · obtain rfl := Option.some.inj hpool
        by_cases hc : c = c₀
        · subst hc
          exact .begin msg rest hidle hqueue
            (fun m => calls_update s.pool.calls c m (s.connections c).processed _) rfl ⟨rfl, rfl⟩
            (by rw [connections_setConnection, if_pos rfl])
        · exact .away ⟨fun m => calls_update_of_ne hc m _ _, rfl⟩ (Or.inl ⟨rfl, rfl⟩)
            (by rw [connections_setConnection, if_neg hc])
      · simp at hpool
  | advance c₀ pool hprocessing hpool =>
      obtain ⟨call, stage, hcall, hcalls, hdelivered, hprogress⟩ := advance_progress hpool
      by_cases hc : c = c₀
      · subst hc
        refine .advance call stage hprocessing hcall (fun m => ?_) hdelivered hprogress rfl
        rw [hcalls]
        exact calls_update s.pool.calls c m _ _
      · refine .away ⟨fun m => ?_, congrFun hdelivered _⟩ (Or.inr ⟨c₀, Ne.symm hc, rfl⟩) rfl
        rw [hcalls]
        exact calls_update_of_ne hc m _ _
  | reply c₀ call message hprocessing hcall hreply =>
      exact move_setConnection rfl (aside_refl s _) ⟨rfl, rfl⟩ (fun hconn =>
        .reply call message (aside_refl s _ _) ⟨rfl, rfl⟩ hprocessing hcall hreply hconn) c
  | deliver w envelope pool hnext hpool =>
      rw [WorkerPool.step] at hpool
      split at hpool
      · obtain rfl := Option.some.inj hpool
        by_cases hc : P.home c = w
        · subst hc
          exact .broadcast envelope hnext (fun _ => rfl) (Function.update_self ..) ⟨rfl, rfl⟩
            (if_pos rfl)
        · exact .away ⟨fun _ => rfl, Function.update_of_ne hc ..⟩ (Or.inl ⟨rfl, rfl⟩) (if_neg hc)
      · simp at hpool
  | handle c₀ message rest hclient =>
      exact move_setConnection rfl (aside_refl s _) ⟨rfl, rfl⟩ (fun hconn =>
        .handle message rest (aside_refl s _ _) ⟨rfl, rfl⟩ hclient hconn) c
  | background b pool hbackground hpool =>
      have hsame : SameCalls s.pool pool := by
        -- of the background work only a refused append touches a call, and that is excluded
        cases b with
        | refuse k ms => exact absurd hrefused id
        | load w n => exact background_same hpool trivial
        | evict w => exact background_same hpool trivial
        | forceSnapshot w => exact background_same hpool trivial
        | job i => exact background_same hpool trivial
        | skipJob i => exact background_same hpool trivial
        | _ => simp [PoolAction.isBackground] at hbackground
      exact .away ⟨fun m => congrFun hsame.calls_eq _, congrFun hsame.delivered_eq _⟩
        (Or.inl hsame.toSameLog) rfl

/-- The pool takes a step, or stays as it is; the calls are advanced by their sessions. -/
lemma pool_step (h : s.step P a = some s') :
    s'.pool = s.pool ∨ ∃ b, s.pool.step b = some s'.pool ∧
      (∀ k, b = .advance k → ∃ c, a = .advance c ∧ k = s.callInProcess c ∧
        (s.connections c).isProcessing = true ∧ s'.connections = s.connections) ∧
      (b.isBackground = true → a = .background b) := by
  cases stepped h with
  | register | acknowledge | edit | receive | reject | reply | handle => exact Or.inl rfl
  | join c => exact Or.inr ⟨.join (P.home c), rfl, by simp, by simp [PoolAction.isBackground]⟩
  | process c msg rest pool _ _ hpool =>
      exact Or.inr ⟨_, hpool, by simp, by simp [PoolAction.isBackground]⟩
  | advance c pool hprocessing hpool =>
      refine Or.inr ⟨_, hpool, fun k hk => ⟨c, rfl, ?_, hprocessing, rfl⟩,
        by simp [PoolAction.isBackground]⟩
      exact (PoolAction.advance.inj hk).symm
  | deliver w envelope pool _ hpool =>
      exact Or.inr ⟨_, hpool, by simp, by simp [PoolAction.isBackground]⟩
  | background b pool hbackground hpool =>
      refine Or.inr ⟨_, hpool, fun k hk => ?_, fun _ => rfl⟩
      simp [hk, PoolAction.isBackground] at hbackground

/-- Handlers are subscribed by JOINs, and never taken away. -/
lemma opHandlers_step (h : s.step P a = some s') :
    (∀ w, s.opHandlers w ≤ s'.opHandlers w) ∧
      ∀ c, a = .acknowledge c → 0 < s'.opHandlers (P.home c) := by
  cases stepped h with
  | acknowledge c =>
      refine ⟨fun w => ?_, fun c' hc => ?_⟩
      · by_cases hw : w = P.home c
        · subst hw
          simp
        · simp [hw]
      · obtain rfl : c = c' := by simpa using hc
        simp
  | _ => exact ⟨fun _ => le_rfl, by simp⟩

end Collaboration

end SyncEngine
