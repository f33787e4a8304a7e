import SyncEngine.Lib.Transition
import SyncEngine.Server.FailureTraces

/-!
# What a successful call has done

`handleOperation` returns success once the row is stored and published; whether the operation
could be applied to the replica in step 5 it only looks at for a DELETE, to log it.  An INSERT
whose anchor is not in the replica, collected there or never received, is acknowledged as any
other one and is in the log but not in the document.

`acknowledged_iff` says exactly which acknowledged INSERTs are in the document.  The states of the
pool enter through `WorkerPool.stores`, what a worker and the databases hold, and
`run_call_stores` shows that a call that runs without interruption there does what
`handleOperation` does.
-/

namespace SyncEngine

/-! ## The document after a success -/

section Success

variable {seconds now : Nat} {session : ClientSession} {msg : ValidatedOperationMessage}
  {faults : Faults} {s : Stores}

lemma document_applyAndPersist (h : (applyAndPersist session msg faults s).2.isSuccess = true) :
    (applyAndPersist session msg faults s).1.document.doc =
      (s.document.doc.applyOperation msg.op).1 := by
  rw [applyAndPersist] at h ⊢
  split at h
  · simp [OperationOutcome.isSuccess] at h
  · rename_i hload
    rw [if_neg hload]
    rw [persistAndPublish] at h ⊢
    cases happend : faults.appendThrows with
    | true => simp [happend, OperationOutcome.isSuccess] at h
    | false =>
        simp only [Bool.false_eq_true, if_false]
        split <;> rfl

/-- A call that succeeds has applied the operation to the document it was given. -/
lemma document_of_success
    (h : (handleOperation seconds now session msg faults s).2.isSuccess = true) :
    (handleOperation seconds now session msg faults s).1.document.doc =
      (s.document.doc.applyOperation msg.op).1 := by
  cases hrate : faults.rateLimited with
  | some retryAfterMs =>
      rw [handleOperation_rateLimited s hrate] at h
      simp [OperationOutcome.isSuccess] at h
  | none =>
      cases hreplay : (s.isReplay faults.guard seconds now msg.docId msg.nonce).2 with
      | true =>
          rw [handleOperation_replay hrate hreplay] at h
          simp [OperationOutcome.isSuccess] at h
      | false =>
          rw [handleOperation_passed hrate hreplay] at h ⊢
          cases hsite : (msg.call session).siteIdMismatch with
          | some error => simp [hsite, OperationOutcome.isSuccess] at h
          | none =>
              rw [hsite] at h
              exact document_applyAndPersist h

/-- The node of an INSERT, with the value it carries, is in the document. -/
def RGADocument.Contains (d : RGADocument) (op : InsertOperation) : Prop :=
  ∃ node ∈ d.nodes, node.uid = op.uid ∧ node.value = op.value

instance (d : RGADocument) (op : InsertOperation) : Decidable (d.Contains op) :=
  inferInstanceAs (Decidable (∃ node ∈ d.nodes, _))

/-- An INSERT puts its node into the document, unless its UID is known or its anchor missing. -/
lemma RGADocument.contains_applyInsert (d : RGADocument) (op : InsertOperation) :
    (d.applyOperation (.insert op)).1.Contains op ↔
      d.Contains op ∨ (¬ d.indexHas (uidKey op.uid) ∧ d.indexHas (afterKey op.after)) := by
  simp only [applyOperation, applyInsert]
  by_cases hknown : d.indexHas (uidKey op.uid) = true
  · simp [hknown]
  · rw [if_neg hknown]
    by_cases hafter : d.indexHas (afterKey op.after) = true
    · rw [if_pos hafter]
      refine iff_of_true ⟨⟨op.uid, op.value, [], false⟩, ?_, rfl, rfl⟩ (Or.inr ⟨hknown, hafter⟩)
      have hperm := Chain.splice_perm (Chain.indexHas_afterKey_iff.mp hafter)
        (⟨op.uid, op.value, [], false⟩ : RGANode)
      exact hperm.mem_iff.mpr (List.mem_cons_self ..)
    · simp [hafter]

/-- **An acknowledged INSERT is in the document** if and only if it was there before, or its UID was
not and its anchor was. -/
theorem acknowledged_iff {op : InsertOperation} (hop : msg.op = .insert op)
    (h : (handleOperation seconds now session msg faults s).2.isSuccess = true) :
    (handleOperation seconds now session msg faults s).1.document.doc.Contains op ↔
      s.document.doc.Contains op ∨
        (¬ s.document.doc.indexHas (uidKey op.uid) ∧
          s.document.doc.indexHas (afterKey op.after)) := by
  rw [document_of_success h, hop]
  exact s.document.doc.contains_applyInsert op

end Success

/-- The first character of a new document. -/
theorem acknowledged_iff_first :
    (handleOperation 300 0 Site.siteA.session Site.siteA.first .none .start).1.document.doc.Contains
        ⟨⟨1, Site.siteA.session.siteId⟩, none, .string (JSString.lit "x")⟩ ↔
      Stores.start.document.doc.Contains
        ⟨⟨1, Site.siteA.session.siteId⟩, none, .string (JSString.lit "x")⟩ ∨
        (¬ Stores.start.document.doc.indexHas (uidKey ⟨1, Site.siteA.session.siteId⟩) ∧
          Stores.start.document.doc.indexHas (afterKey none)) :=
  acknowledged_iff rfl (by decide)

/-! ## Calls of the pool -/

namespace WorkerPool

open Transition

variable {W K : Type*}

/-- What a worker of the pool and the databases hold. -/
def stores (s : WorkerPool W K) (w : W) (keys : NonceKeys) (otherNonces : List JSString) :
    Stores where
  keys := keys
  db := s.db
  otherNonces := otherNonces
  cache := (s.workers w).cache.bind fun n => (s.loaded w n).map Loaded.entry

variable [DecidableEq W] [DecidableEq K]

omit [DecidableEq K] in
lemma getOrLoadDocument_cached {s : WorkerPool W K} {w : W} {n : Nat}
    (hcache : (s.workers w).cache = some n) : s.getOrLoadDocument w = (s, n) := by
  have hworker : (s.workers w).getOrLoadDocument = (s.workers w, n) := by
    rw [Worker.getOrLoadDocument, hcache]
  simp only [getOrLoadDocument, hworker, setWorker, Function.update_eq_self]

/-- The entry of a worker that has applied the operation and stored its row. -/
lemma loaded_updateCache (worker : Worker) {n : Nat} {l : Loaded} (hcache : worker.cache = some n)
    (hl : worker.loaded n = some l) (f g : CachedDocument → CachedDocument) :
    (((worker.mutate n f).updateCachedDocument g).cache.bind fun m =>
      (((worker.mutate n f).updateCachedDocument g).loaded m).map Loaded.entry) =
        some (g (f l.entry)) := by
  have hupdate : (worker.mutate n f).updateCachedDocument g = (worker.mutate n f).mutate n g := by
    rw [Worker.updateCachedDocument, Worker.cache_mutate, hcache]
  rw [hupdate, Worker.cache_mutate, Worker.cache_mutate, hcache, Option.bind_some,
    Worker.loaded_mutate, if_pos rfl, Worker.loaded_mutate, if_pos rfl, hl]
  rfl

/-- A call from its beginning to the publication, without interruption. -/
def callActions (k : K) (w : W) (session : ClientSession) (msg : ValidatedOperationMessage) :
    List (PoolAction W K) :=
  .begin k w session msg :: List.replicate 6 (.advance k)

/-- **An uninterrupted call of the pool** does to the worker and the database what
`handleOperation` does when no step fails. -/
theorem run_call_stores {s : WorkerPool W K} {k : K} {w : W} {n : Nat} {l : Loaded}
    {session : ClientSession} {msg : ValidatedOperationMessage} (hk : s.calls k = none)
    (hcache : (s.workers w).cache = some n) (hl : s.loaded w n = some l)
    (hsite : (msg.call session).siteIdMismatch = none) (keys : NonceKeys)
    (otherNonces : List JSString) :
    (s.run (callActions k w session msg)).map (fun s' => s'.stores w keys otherNonces) =
      some (applyAndPersist session msg .none (s.stores w keys otherNonces)).1 := by
  let call : OperationCall W := ⟨w, session, msg, .rateLimit⟩
  let ok := (l.entry.doc.applyOperation msg.op).2
  let envelope := (s.db.appendOperation call.params).2
  -- the states between the awaits
  let s₁ := s.setCall k call
  let s₂ := s₁.callAt k call .replayCheck
  let s₃ := s₂.callAt k { call with stage := .replayCheck } (.awaitDocument n)
  let s₄ := s₃.applyOperation k { call with stage := .awaitDocument n } n l
  let s₅ := s₄.appendOperation k { call with stage := .applied n ok .appending } n ok
  let s₆ := s₅.updateCache k { call with stage := .applied n ok (.appended envelope) } n ok envelope
  let s₇ := (s₆.publish envelope).callAt k
    { call with stage := .applied n ok (.publishing envelope) }
    (.applied n ok (.published envelope))
  have h₁ : s.step (.begin k w session msg) = some s₁ := by simp only [step, hk]; rfl
  have h₂ : s₁.step (.advance k) = some s₂ := by simp [step, s₁, advanceCall, call, s₂]
  have h₃ : s₂.step (.advance k) = some s₃ := by
    have hcached : s₂.getOrLoadDocument w = (s₂, n) := getOrLoadDocument_cached hcache
    have hsite' : ({ call with stage := .replayCheck } : OperationCall W).siteIdMismatch = none :=
      hsite
    simp only [step, s₂, calls_callAt_self, Option.bind_some, advanceCall, hsite']
    rw [hcached]
  have h₄ : s₃.step (.advance k) = some s₄ := by
    have hl₃ : (s₃.workers w).loaded n = some l := hl
    simp only [step, s₃, calls_callAt_self, Option.bind_some, advanceCall]
    rw [hl₃]
    rfl
  have h₅ : s₄.step (.advance k) = some s₅ := by
    simp only [step, s₄, calls_applyOperation, Function.update_self, Option.bind_some, advanceCall]
    rfl
  have h₆ : s₅.step (.advance k) = some s₆ := by
    simp only [step, s₅, calls_appendOperation, Function.update_self, Option.bind_some, advanceCall]
    rfl
  have h₇ : s₆.step (.advance k) = some s₇ := by
    simp only [step, s₆, calls_updateCache, Function.update_self, Option.bind_some, advanceCall]
    rfl
  have hrun : s.run (callActions k w session msg) = some s₇ := by
    simp only [run, callActions, List.replicate, List.foldlM_cons, List.foldlM_nil,
      Option.bind_eq_bind, h₁, h₂, h₃, h₄, h₅, h₆, h₇, Option.bind_some]
    rfl
  have happly : s₄.workers w = (s.workers w).mutate n fun entry =>
      { entry with doc := (entry.doc.applyOperation msg.op).1 } := Function.update_self ..
  have hupdate : s₇.workers w = (s₄.workers w).updateCachedDocument fun entry =>
      { entry with lastSeq := envelope.seq, opsSinceSnapshot := entry.opsSinceSnapshot + 1 } :=
    Function.update_self ..
  have hcache' : (s.stores w keys otherNonces).cache = some l.entry := by
    simp [stores, hcache, hl]
  have hresult : (applyAndPersist session msg .none (s.stores w keys otherNonces)).1 =
      { s.stores w keys otherNonces with
        db := (s.db.appendOperation call.params).1
        cache := some { l.entry with
          doc := (l.entry.doc.applyOperation msg.op).1
          lastSeq := envelope.seq
          opsSinceSnapshot := l.entry.opsSinceSnapshot + 1 } } := by
    simp only [applyAndPersist, persistAndPublish, Faults.none, Stores.document, hcache']
    rfl
  rw [hrun, hresult, Option.map_some, Option.some.injEq]
  simp only [stores, Stores.mk.injEq, true_and]
  refine ⟨rfl, ?_⟩
  simp only [loaded, hupdate, happly]
  exact loaded_updateCache (s.workers w) hcache hl _ _
end WorkerPool

/-! ## A collected anchor -/

lemma Site.uid_ne_root (site : Site) (clock : Nat) :
    (⟨clock, site.session.siteId⟩ : UID) ≠ rootUID :=
  fun h => site.siteId_ne_root (congrArg UID.siteId h)

/-- The site deletes the character it has typed. -/
def Site.deleteFirst (site : Site) : ValidatedOperationMessage where
  docId := JSString.lit "d"
  clientSeq := 2
  op := .delete ⟨⟨1, site.session.siteId⟩⟩
  nonce := JSString.lit "delete"
  isEdit := trivial
  named_ne_root := by
    intro u hu
    obtain rfl : u = ⟨1, site.session.siteId⟩ := by simpa [RGAOperation.named] using hu
    exact site.uid_ne_root 1

/-- The operation of `Site.second`. -/
def Site.secondInsert (site : Site) : InsertOperation :=
  ⟨⟨2, site.session.siteId⟩, some ⟨1, site.session.siteId⟩, .string (JSString.lit "y")⟩

/-- The site types another character behind the first one. -/
def Site.second (site : Site) : ValidatedOperationMessage where
  docId := JSString.lit "d"
  clientSeq := 3
  op := .insert site.secondInsert
  nonce := JSString.lit "second"
  isEdit := trivial
  named_ne_root := by
    intro u hu
    obtain rfl | rfl : u = ⟨2, site.session.siteId⟩ ∨ u = ⟨1, site.session.siteId⟩ := by
      simpa [RGAOperation.named, Site.secondInsert] using hu
    · exact site.uid_ne_root 2
    · exact site.uid_ne_root 1

namespace WorkerPool

open Transition

/-- A character is typed, deleted and collected. -/
def collectedActions (site : Site) : List (PoolAction Unit Bool) :=
  beginAndLoad false () site ++ List.replicate 4 (.advance false) ++
    callActions true () site.session site.deleteFirst ++
    [.forceSnapshot (), .job 0, .job 0, .job 0]

/-- The state they lead to. -/
def collected : WorkerPool Unit Bool :=
  (runAllowed step (fun _ _ => True) (start 100) (collectedActions .siteA)).get (by decide)

/-- The INSERT behind a collected node is acknowledged, and its node is not in the document. -/
theorem not_forall_acknowledged :
    ¬ ∀ (s : WorkerPool Unit Bool), Reach step (fun _ _ => True) (start 100) s →
      ∀ (keys : NonceKeys) (otherNonces : List JSString) (seconds now : Nat)
        (session : ClientSession) (msg : ValidatedOperationMessage) (op : InsertOperation)
        (faults : Faults), msg.op = .insert op →
        (handleOperation seconds now session msg faults (s.stores () keys otherNonces)).2.isSuccess
          = true →
        (handleOperation seconds now session msg faults
          (s.stores () keys otherNonces)).1.document.doc.Contains op := by
  intro h
  have hdoc := h collected (reach_get _) [] [] 300 0 Site.siteA.session Site.siteA.second
    Site.siteA.secondInsert .none rfl (by decide)
  exact absurd hdoc (by decide)

end WorkerPool

end SyncEngine
