import SyncEngine.Server.HandleOperation
import SyncEngine.Server.WorkerPool

/-!
# What a failed call leaves behind

A call of `handleOperation` changes three stores one after the other: the guard registers the
nonce in Redis, the operation is applied to the cached replica, and the row is stored.  None of
this is undone when a later step turns the operation away.

`noTrace_iff` lists the failures that leave no trace.  Apart from the rate limit and the replay
check itself they all need the guard to have asked the operations table instead of Redis: a nonce
that Redis registered is taken for a replay from then on, although its operation was never
stored, and the client resends an operation with the nonce it had.
-/

namespace SyncEngine

open ReplicatedList

/-! ## The guard -/

/-- A check that rejects registers nothing, and neither does one that goes past Redis. -/
lemma isReplay_keys_eq {available : Availability} {seconds now : Nat} {keys : NonceKeys}
    {stored : List JSString} {docId nonce : JSString}
    (h : (isReplay available seconds now keys stored docId nonce).2 = true ∨
      available.redisAnswers seconds = false) :
    (isReplay available seconds now keys stored docId nonce).1 = keys := by
  rw [isReplay] at h ⊢
  cases hredis : available.redisAnswers seconds with
  | true =>
      have hreplay := h.resolve_right (by simp [hredis])
      simp only [hredis, if_true, NonceKeys.setNX] at hreplay ⊢
      split <;> simp_all
  | false =>
      simp only [Bool.false_eq_true, if_false]
      split <;> rfl

/-- A nonce that passed the check in Redis does not pass it again. -/
lemma isReplay_again {available : Availability} {seconds now : Nat} {keys : NonceKeys}
    {stored : List JSString} {docId nonce : JSString}
    (hredis : available.redisAnswers seconds = true) :
    (isReplay available seconds now (isReplay available seconds now keys stored docId nonce).1
      stored docId nonce).2 = true := by
  have hseconds : 0 < seconds := by
    rw [Availability.redisAnswers, Bool.and_eq_true] at hredis
    simpa using hredis.2
  have hhas : (keys.setNX now seconds docId nonce).1.has now docId nonce = true :=
    (NonceKeys.has_setNX _ _ _ _ hseconds).mpr (Or.inr ⟨rfl, rfl⟩)
  simp only [isReplay, hredis, if_true]
  rw [NonceKeys.setNX, if_pos hhas]
  rfl

/-! ## The replica -/

namespace RGADocument

/-- The operation finds nothing to do in the replica: its node is known, its anchor is missing, or
the node it deletes is missing or deleted already. -/
def Unaffected (d : RGADocument) : RGAOperation → Prop
  | .insert op => d.indexHas (uidKey op.uid) ∨ ¬ d.indexHas (afterKey op.after)
  | .delete op => ∀ node, d.indexGet (uidKey op.uid) = some node → node.tombstoned = true
  | _ => True

lemma applyInsert_nodes_eq_iff (d : RGADocument) (op : InsertOperation) :
    (d.applyOperation (.insert op)).1.nodes = d.nodes ↔ d.Unaffected (.insert op) := by
  simp only [applyOperation, applyInsert, Unaffected]
  by_cases hknown : d.indexHas (uidKey op.uid) = true
  · simp [hknown]
  · rw [if_neg hknown]
    by_cases hafter : d.indexHas (afterKey op.after) = true
    · have hperm := Chain.splice_perm (Chain.indexHas_afterKey_iff.mp hafter)
        (⟨op.uid, op.value, [], false⟩ : RGANode)
      rw [if_pos hafter]
      refine iff_of_false (fun heq => ?_) fun h => h.elim hknown fun h => h hafter
      have hlength := hperm.length_eq
      simp only at heq
      rw [heq, List.length_cons] at hlength
      omega
    · simp [hknown, hafter]

lemma applyDelete_nodes_eq_iff (d : RGADocument) {op : DeleteOperation} (hroot : op.uid ≠ rootUID) :
    (d.applyOperation (.delete op)).1.nodes = d.nodes ↔ d.Unaffected (.delete op) := by
  simp only [applyOperation, applyDelete, Unaffected, uidKey_inj, hroot, if_false]
  cases hget : d.indexGet (uidKey op.uid) with
  | none => simp
  | some node =>
      cases hdead : node.tombstoned with
      | true => simp [hdead]
      | false =>
          obtain ⟨hmem, huid⟩ := Chain.indexGet_some hget
          refine iff_of_false (fun heq => ?_) fun h => by simpa [hdead] using h node rfl
          simp only [hdead, updateNode, Chain.updateNode] at heq
          have hnode := List.map_inj_left.mp (heq.trans (List.map_id _).symm) node hmem
          rw [if_pos (congrArg uidKey huid)] at hnode
          simpa [hdead] using congrArg RGANode.tombstoned hnode

/-- An edit leaves the node list alone exactly when it finds nothing to do. -/
lemma applyOperation_nodes_eq_iff (d : RGADocument) (msg : ValidatedOperationMessage) :
    (d.applyOperation msg.op).1.nodes = d.nodes ↔ d.Unaffected msg.op := by
  have hedit := msg.isEdit
  have hroot := msg.named_ne_root
  cases hop : msg.op with
  | insert op => exact d.applyInsert_nodes_eq_iff op
  | delete op => exact d.applyDelete_nodes_eq_iff (hroot op.uid (by simp [hop, RGAOperation.named]))
  | format _ => simp [hop, RGAOperation.IsEdit] at hedit
  | rollback _ => simp [hop, RGAOperation.IsEdit] at hedit

end RGADocument

/-! ## Calls that fail -/

section Traces

variable (seconds now : Nat) (session : ClientSession) (msg : ValidatedOperationMessage)
  (faults : Faults)

/-- Between the two states nothing has happened that a later call could notice. -/
structure NoTrace (s s' : Stores) : Prop where
  nodes_eq : s'.document.doc.nodes = s.document.doc.nodes
  operations_eq : s'.db.operations = s.db.operations
  /-- Whenever it is asked, the guard gives the same answer about every nonce. -/
  isReplay_eq : ∀ available later docId nonce,
    (s'.isReplay available seconds later docId nonce).2 =
      (s.isReplay available seconds later docId nonce).2
  /-- The message is accepted later if it would have been without the failed call. -/
  resend_eq : ∀ later,
    (handleOperation seconds later session msg .none s').2.isSuccess =
      (handleOperation seconds later session msg .none s).2.isSuccess

/-- The state when the rate limit or the replay check rejects, and otherwise whenever Redis was not
asked and the call ends before the replica has changed. -/
def EndsBeforeTrace (s : Stores) : Prop :=
  faults.rateLimited ≠ none ∨
  (s.isReplay faults.guard seconds now msg.docId msg.nonce).2 = true ∨
  (faults.guard.redisAnswers seconds = false ∧
    ((msg.call session).siteIdMismatch ≠ none ∨
      (s.cache = none ∧ faults.loadThrows = true) ∨
      (faults.appendThrows = true ∧ s.document.doc.Unaffected msg.op)))

variable {seconds now session msg faults} {s : Stores}

/-- The stores when the replay check has been made. -/
def Stores.checked (s : Stores) (available : Availability) (seconds now : Nat)
    (msg : ValidatedOperationMessage) : Stores :=
  { s with keys := (s.isReplay available seconds now msg.docId msg.nonce).1 }

lemma handleOperation_rateLimited {retryAfterMs : Nat} (s : Stores)
    (hrate : faults.rateLimited = some retryAfterMs) :
    handleOperation seconds now session msg faults s =
      (s, .error (.rateLimited retryAfterMs)) := by
  rw [handleOperation, hrate]

lemma handleOperation_replay {s : Stores} (hrate : faults.rateLimited = none)
    (hreplay : (s.isReplay faults.guard seconds now msg.docId msg.nonce).2 = true) :
    handleOperation seconds now session msg faults s =
      (s.checked faults.guard seconds now msg, .error .replayDetected) := by
  rw [handleOperation, hrate]
  exact if_pos hreplay

lemma handleOperation_passed {s : Stores} (hrate : faults.rateLimited = none)
    (hpassed : (s.isReplay faults.guard seconds now msg.docId msg.nonce).2 = false) :
    handleOperation seconds now session msg faults s =
      match (msg.call session).siteIdMismatch with
      | some error => (s.checked faults.guard seconds now msg, .error error)
      | none => applyAndPersist session msg faults (s.checked faults.guard seconds now msg) := by
  rw [handleOperation, hrate]
  exact if_neg (ne_true_of_eq_false hpassed)

/-- Without faults only the replay check and the site id decide. -/
lemma isSuccess_handleOperation_none (later : Nat) (s : Stores) :
    (handleOperation seconds later session msg .none s).2.isSuccess =
      (!(s.isReplay Faults.none.guard seconds later msg.docId msg.nonce).2 &&
        (msg.call session).siteIdMismatch.isNone) := by
  cases hreplay : (s.isReplay Faults.none.guard seconds later msg.docId msg.nonce).2 with
  | true => rw [handleOperation_replay rfl hreplay]; rfl
  | false =>
      rw [handleOperation_passed rfl hreplay]
      cases (msg.call session).siteIdMismatch with
      | some _ => rfl
      | none => simp [Faults.none, applyAndPersist, persistAndPublish, OperationOutcome.isSuccess]

lemma NoTrace.mk' {s' : Stores} (hnodes : s'.document.doc.nodes = s.document.doc.nodes)
    (hoperations : s'.db.operations = s.db.operations) (hkeys : s'.keys = s.keys)
    (hnonces : s'.otherNonces = s.otherNonces) : NoTrace seconds session msg s s' := by
  have hreplay : ∀ available later docId nonce,
      (s'.isReplay available seconds later docId nonce).2 =
        (s.isReplay available seconds later docId nonce).2 := by
    intro available later docId nonce
    rw [Stores.isReplay, Stores.isReplay, Stores.storedNonces, Stores.storedNonces, hoperations,
      hkeys, hnonces]
  exact ⟨hnodes, hoperations, hreplay, fun later => by
    rw [isSuccess_handleOperation_none, isSuccess_handleOperation_none, hreplay]⟩

lemma NoTrace.refl (s : Stores) : NoTrace seconds session msg s s := .mk' rfl rfl rfl rfl

/-- How far a call comes behind the checks: it ends in the load, in the append, or it stores its
row. -/
lemma applyAndPersist_cases (s : Stores) :
    ((s.cache = none ∧ faults.loadThrows = true) ∧ (applyAndPersist session msg faults s).1 = s) ∨
    (¬ (s.cache = none ∧ faults.loadThrows = true) ∧ faults.appendThrows = true ∧
      (applyAndPersist session msg faults s).1 =
        { s with cache := some (s.document.apply msg.op) }) ∨
    (¬ (s.cache = none ∧ faults.loadThrows = true) ∧ faults.appendThrows = false ∧
      (applyAndPersist session msg faults s).1.db =
        (s.db.appendOperation (msg.call session).params).1) := by
  rw [applyAndPersist]
  by_cases hload : s.cache = none ∧ faults.loadThrows = true
  · rw [if_pos (by simp [hload])]
    exact Or.inl ⟨hload, rfl⟩
  · rw [if_neg (by simpa using hload)]
    refine Or.inr ?_
    rw [persistAndPublish]
    cases happend : faults.appendThrows with
    | true => exact Or.inl ⟨hload, rfl, rfl⟩
    | false =>
        refine Or.inr ⟨hload, rfl, ?_⟩
        simp only [Bool.false_eq_true, if_false]
        split <;> rfl

lemma not_noTrace_of_append {s' : Stores} {params : OperationEnvelope}
    (h : s'.db = (s.db.appendOperation params).1) : ¬ NoTrace seconds session msg s s' := by
  intro htrace
  have hlength := congrArg List.length htrace.operations_eq
  rw [h] at hlength
  simp [Database.appendOperation] at hlength

/-- Behind a check that was passed, a call that has stored nothing leaves no trace if Redis was not
asked and the node list is as before. -/
lemma noTrace_iff_of_passed {s' : Stores}
    (hpassed : (s.isReplay faults.guard seconds now msg.docId msg.nonce).2 = false)
    (hkeys : s'.keys = (s.checked faults.guard seconds now msg).keys) (hdb : s'.db = s.db)
    (hnonces : s'.otherNonces = s.otherNonces) :
    NoTrace seconds session msg s s' ↔
      faults.guard.redisAnswers seconds = false ∧ s'.document.doc.nodes = s.document.doc.nodes := by
  constructor
  · intro htrace
    refine ⟨Bool.eq_false_of_not_eq_true fun hredis => ?_, htrace.nodes_eq⟩
    have hstored : s'.storedNonces = s.storedNonces := by
      rw [Stores.storedNonces, Stores.storedNonces, hdb, hnonces]
    have hagain := htrace.isReplay_eq faults.guard now msg.docId msg.nonce
    rw [hpassed, Stores.isReplay, hkeys, hstored] at hagain
    exact absurd hagain (ne_false_of_eq_true (isReplay_again hredis))
  · rintro ⟨hredis, hnodes⟩
    exact .mk' hnodes (by rw [hdb]) (hkeys.trans (isReplay_keys_eq (Or.inr hredis))) hnonces

/-- **Which failures leave no trace.**  A call leaves the node list, the operations table and the
verdicts of the replay guard as they were, and a later resend as acceptable as it was, if and only
if

* the rate limit or the replay check turned it away, or
* the replay check did not go through Redis, and the call ended at the site id, in a load that
  threw, or in an append that threw after an operation which found nothing to do.

A call that succeeds is none of these: it has stored a row. -/
theorem noTrace_iff (s : Stores) :
    NoTrace seconds session msg s (handleOperation seconds now session msg faults s).1 ↔
      EndsBeforeTrace seconds now session msg faults s := by
  cases hrate : faults.rateLimited with
  | some retryAfterMs =>
      rw [handleOperation_rateLimited s hrate]
      exact iff_of_true (.refl s) (Or.inl (by simp [hrate]))
  | none =>
      cases hreplay : (s.isReplay faults.guard seconds now msg.docId msg.nonce).2 with
      | true =>
          rw [handleOperation_replay hrate hreplay]
          exact iff_of_true (.mk' rfl rfl (isReplay_keys_eq (Or.inl hreplay)) rfl)
            (Or.inr (Or.inl hreplay))
      | false =>
          have hends : EndsBeforeTrace seconds now session msg faults s ↔
              faults.guard.redisAnswers seconds = false ∧
                ((msg.call session).siteIdMismatch ≠ none ∨
                  (s.cache = none ∧ faults.loadThrows = true) ∨
                  (faults.appendThrows = true ∧ s.document.doc.Unaffected msg.op)) := by
            simp [EndsBeforeTrace, hrate, hreplay]
          rw [hends, handleOperation_passed hrate hreplay]
          cases hsite : (msg.call session).siteIdMismatch with
          | some error =>
              rw [noTrace_iff_of_passed hreplay rfl rfl rfl]
              simp [Stores.checked, Stores.document, Stores.loadDocument]
          | none =>
              rcases applyAndPersist_cases (s.checked faults.guard seconds now msg) with
                ⟨hload, hstate⟩ | ⟨hload, happend, hstate⟩ | ⟨hload, happend, hstate⟩
              · rw [hstate, noTrace_iff_of_passed hreplay rfl rfl rfl]
                exact and_congr_right fun _ => iff_of_true rfl (Or.inr (Or.inl hload))
              · rw [hstate, noTrace_iff_of_passed hreplay]
                · refine and_congr_right fun _ => ?_
                  refine Iff.trans (s.document.doc.applyOperation_nodes_eq_iff msg) ?_
                  have hload' : ¬ (s.cache = none ∧ faults.loadThrows = true) := hload
                  simp [happend, hload']
                all_goals rfl
              · refine iff_of_false (not_noTrace_of_append hstate) fun h => ?_
                have hload' : ¬ (s.cache = none ∧ faults.loadThrows = true) := hload
                simpa [happend, hload'] using h.2

end Traces

/-- The append throws with Redis up: the resend of the message is taken for a replay. -/
theorem not_forall_noTrace :
    ¬ ∀ (seconds now : Nat) (session : ClientSession) (msg : ValidatedOperationMessage)
        (faults : Faults) (s : Stores),
      (handleOperation seconds now session msg faults s).2.isSuccess = false →
        NoTrace seconds session msg s (handleOperation seconds now session msg faults s).1 := by
  intro h
  have htrace := h 300 0 Site.siteA.session Site.siteA.first
    { Faults.none with appendThrows := true } .start (by decide)
  exact absurd (htrace.resend_eq 0) (by decide)

end SyncEngine
