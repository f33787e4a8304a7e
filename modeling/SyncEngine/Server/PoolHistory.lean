import SyncEngine.Crdt.Encoding
import SyncEngine.Server.PoolEffect

/-!
# What the pool records

Rows and calls are never taken back (`step_grows`): a stored row stays stored, new rows carry
greater seqs, and what a call has applied and stored stays on record.

`Recorded` ties the two tables together along every run.  Every stored row was stored by a call,
as the operation of its message, and a call holds on to the row it has stored; so every row
carries an operation the server's schema has let through.
-/

namespace SyncEngine

namespace WorkerPool

variable {W K : Type*} [DecidableEq W] [DecidableEq K] {s s' : WorkerPool W K}
  {a : PoolAction W K}

/-! ## Calls -/

/-- A later state of the same call. -/
structure CallGrows (c c' : OperationCall W) : Prop where
  worker_eq : c'.worker = c.worker
  msg_eq : c'.msg = c.msg
  appliedTo : ∀ {n ok}, c.appliedTo = some (n, ok) → c'.appliedTo = some (n, ok)
  stored : ∀ {row}, c.stored = some row → c'.stored = some row

omit [DecidableEq W] in
lemma SameCall.grows {c c' : OperationCall W} (h : SameCall c c') : CallGrows c c' :=
  ⟨h.worker_eq, h.msg_eq, fun ha => h.appliedTo_eq.trans ha, fun hr => h.stored_eq.trans hr⟩

omit [DecidableEq W] in
lemma calls_grow_of_callAt {k : K} {call : OperationCall W} {stage : CallStage}
    (hcall : s.calls k = some call)
    (hcalls : s'.calls = Function.update s.calls k (some { call with stage := stage }))
    (hgrows : CallGrows call { call with stage := stage }) {k' : K} {c : OperationCall W}
    (hc : s.calls k' = some c) : ∃ c', s'.calls k' = some c' ∧ CallGrows c c' := by
  by_cases hk : k' = k
  · subst hk
    obtain rfl : call = c := Option.some.inj (hcall.symm.trans hc)
    exact ⟨_, by rw [hcalls, Function.update_self], hgrows⟩
  · exact ⟨c, by rw [hcalls, Function.update_of_ne hk, hc], (sameCall_refl c).grows⟩

/-- What a step can only add to. -/
structure Grows (s s' : WorkerPool W K) : Prop where
  operations_subset : s.db.operations ⊆ s'.db.operations
  documentSeq_le : s.db.documentSeq ≤ s'.db.documentSeq
  new_row : ∀ row ∈ s'.db.operations, row ∈ s.db.operations ∨ s.db.documentSeq < row.seq
  calls_kept : ∀ k c, s.calls k = some c → ∃ c', s'.calls k = some c' ∧ CallGrows c c'

omit [DecidableEq W] [DecidableEq K] in
/-- The log is as it was. -/
lemma Grows.of_log_eq (hops : s'.db.operations = s.db.operations)
    (hseq : s'.db.documentSeq = s.db.documentSeq)
    (hcalls : ∀ k c, s.calls k = some c → ∃ c', s'.calls k = some c' ∧ CallGrows c c') :
    Grows s s' :=
  ⟨by rw [hops]; exact List.Subset.refl _, hseq.ge, fun row hrow => Or.inl (hops ▸ hrow), hcalls⟩

omit [DecidableEq W] [DecidableEq K] in
lemma calls_kept_of_eq (h : s'.calls = s.calls) (k : K) (c : OperationCall W)
    (hc : s.calls k = some c) : ∃ c', s'.calls k = some c' ∧ CallGrows c c' :=
  ⟨c, by rw [h, hc], (sameCall_refl c).grows⟩

lemma log_insertSnapshot (db : Database) (snapshot : SnapshotRecord) :
    (db.insertSnapshot snapshot).1.operations = db.operations ∧
      (db.insertSnapshot snapshot).1.documentSeq = db.documentSeq := by
  rw [Database.insertSnapshot]
  split <;> exact ⟨rfl, rfl⟩

/-- **Rows and calls are never taken back.** -/
theorem step_grows (h : s.step a = some s') : Grows s s' := by
  cases step_effect h with
  | idle hidle =>
      refine .of_log_eq (by rw [hidle.db_eq]) (by rw [hidle.db_eq]) fun k c hc => ?_
      obtain ⟨c', hc', hsame⟩ := hidle.calls_kept k c hc
      exact ⟨c', hc', hsame.grows⟩
  | load _ _ _ _ _ _ hdb hcalls _ =>
      exact .of_log_eq (by rw [hdb]) (by rw [hdb]) (calls_kept_of_eq hcalls)
  | apply call n loaded hcall hstage _ hs' =>
      subst hs'
      refine .of_log_eq rfl rfl fun k' c hc =>
        calls_grow_of_callAt hcall (calls_applyOperation ..) ⟨rfl, rfl, ?_, ?_⟩ hc
      · simp [OperationCall.appliedTo, hstage]
      · simp [OperationCall.stored, hstage]
  | append call n ok hcall hstage hs' =>
      subst hs'
      refine ⟨fun row hrow => List.mem_append_left _ hrow, Nat.le_succ _, fun row hrow => ?_,
        fun k' c hc =>
        calls_grow_of_callAt hcall (calls_appendOperation ..) ⟨rfl, rfl, ?_, ?_⟩ hc⟩
      · rcases List.mem_append.mp hrow with hrow | hrow
        · exact Or.inl hrow
        · rw [List.mem_singleton.mp hrow]
          exact Or.inr (Nat.lt_succ_self _)
      · simp [OperationCall.appliedTo, hstage]
      · simp [OperationCall.stored, hstage, StoreProgress.envelope]
  | update call n ok envelope hcall hstage hs' =>
      subst hs'
      refine .of_log_eq rfl rfl fun k' c hc =>
        calls_grow_of_callAt hcall (calls_updateCache ..) ⟨rfl, rfl, ?_, ?_⟩ hc
      · simp [OperationCall.appliedTo, hstage]
      · simp [OperationCall.stored, hstage, StoreProgress.envelope]
  | collect job n seq loaded _ _ _ hs' =>
      subst hs'
      exact .of_log_eq rfl rfl (calls_kept_of_eq rfl)
  | save job n snapshot _ _ hs' =>
      subst hs'
      obtain ⟨hops, hseq⟩ := log_insertSnapshot s.db snapshot
      exact .of_log_eq hops hseq (calls_kept_of_eq rfl)
  | reset job _ _ hs' =>
      subst hs'
      exact .of_log_eq rfl rfl (calls_kept_of_eq rfl)
  | prune job _ _ hs' =>
      subst hs'
      exact .of_log_eq rfl rfl (calls_kept_of_eq rfl)

/-! ## Rows and the calls that stored them -/

/-- The log is what the calls have stored. -/
structure Recorded (s : WorkerPool W K) : Prop where
  stored_mem : ∀ k c row, s.calls k = some c → c.stored = some row →
    row ∈ s.db.operations ∧ row.op = c.msg.op
  row_call : ∀ row ∈ s.db.operations, ∃ k c, s.calls k = some c ∧ c.stored = some row
  seq_pos : ∀ row ∈ s.db.operations, 0 < row.seq

omit [DecidableEq W] [DecidableEq K] in
lemma recorded_start (t : Nat) : Recorded (start t : WorkerPool W K) :=
  ⟨by simp [start], by simp [start, Database.empty], by simp [start, Database.empty]⟩

omit [DecidableEq W] in
/-- Where one call comes to another stage that leaves `f` as it was, every call of the new state
was there before with the same `f`. -/
lemma call_old {α : Type*} (f : OperationCall W → α) {k k₀ : K} {call c' : OperationCall W}
    {stage : CallStage} (hcall : s.calls k₀ = some call)
    (hcalls : s'.calls = Function.update s.calls k₀ (some { call with stage := stage }))
    (hf : f { call with stage := stage } = f call) (hc' : s'.calls k = some c') :
    ∃ c, s.calls k = some c ∧ f c = f c' ∧ c'.worker = c.worker ∧ c'.msg = c.msg := by
  rw [hcalls] at hc'
  by_cases hk : k = k₀
  · subst hk
    rw [Function.update_self] at hc'
    obtain rfl := Option.some.inj hc'
    exact ⟨call, hcall, hf.symm, rfl, rfl⟩
  · rw [Function.update_of_ne hk] at hc'
    exact ⟨c', hc', rfl, rfl, rfl⟩

/-- What a call of the new state has stored, it had stored before, or it is the appended row. -/
lemma stored_old (h : s.step a = some s') {k : K} {c' : OperationCall W} {row : OperationEnvelope}
    (hc' : s'.calls k = some c') (hrow : c'.stored = some row) :
    (∃ c, s.calls k = some c ∧ c.stored = some row ∧ c'.msg = c.msg) ∨
      row ∈ s'.db.operations ∧ row.op = c'.msg.op ∧ s.db.documentSeq < row.seq := by
  cases step_effect h with
  | idle hidle =>
      rcases hidle.calls_old k c' hc' with ⟨c, hc, hsame⟩ | ⟨-, -, hnone⟩
      · exact Or.inl ⟨c, hc, hsame.stored_eq ▸ hrow, hsame.msg_eq⟩
      · simp [hnone] at hrow
  | load _ _ _ _ _ _ hdb hcalls _ => exact Or.inl ⟨c', hcalls ▸ hc', hrow, rfl⟩
  | apply call n loaded hcall hstage _ hs' =>
      subst hs'
      obtain ⟨c, hc, hstored, -, hmsg⟩ := call_old OperationCall.stored hcall
        (calls_applyOperation ..)
        (by simp [OperationCall.stored, hstage, StoreProgress.envelope]) hc'
      exact Or.inl ⟨c, hc, hstored.trans hrow, hmsg⟩
  | append call n ok hcall hstage hs' =>
      rename_i k₀
      subst hs'
      by_cases hk : k = k₀
      · subst hk
        rw [appendOperation, calls_callAt_self] at hc'
        obtain rfl := Option.some.inj hc'
        obtain rfl := Option.some.inj hrow
        exact Or.inr ⟨List.mem_append_right _ (List.mem_singleton_self _), rfl, Nat.lt_succ_self _⟩
      · rw [appendOperation, calls_callAt_of_ne _ hk] at hc'
        exact Or.inl ⟨c', hc', hrow, rfl⟩
  | update call n ok envelope hcall hstage hs' =>
      subst hs'
      obtain ⟨c, hc, hstored, -, hmsg⟩ := call_old OperationCall.stored hcall
        (calls_updateCache ..)
        (by simp [OperationCall.stored, hstage, StoreProgress.envelope]) hc'
      exact Or.inl ⟨c, hc, hstored.trans hrow, hmsg⟩
  | collect job n seq loaded _ _ _ hs' =>
      subst hs'
      exact Or.inl ⟨c', hc', hrow, rfl⟩
  | save job n snapshot _ _ hs' =>
      subst hs'
      exact Or.inl ⟨c', hc', hrow, rfl⟩
  | reset job _ _ hs' =>
      subst hs'
      exact Or.inl ⟨c', hc', hrow, rfl⟩
  | prune job _ _ hs' =>
      subst hs'
      exact Or.inl ⟨c', hc', hrow, rfl⟩

/-- A row of the new log was there before, or some call has just stored it. -/
lemma row_old (h : s.step a = some s') {row : OperationEnvelope} (hrow : row ∈ s'.db.operations) :
    row ∈ s.db.operations ∨
      s.db.documentSeq < row.seq ∧ ∃ k c, s'.calls k = some c ∧ c.stored = some row := by
  cases step_effect h with
  | idle hidle => exact Or.inl (hidle.db_eq ▸ hrow)
  | load _ _ _ _ _ _ hdb hcalls _ => exact Or.inl (hdb ▸ hrow)
  | apply call n loaded hcall hstage _ hs' =>
      subst hs'
      exact Or.inl hrow
  | append call n ok hcall hstage hs' =>
      subst hs'
      rcases List.mem_append.mp hrow with hrow | hrow
      · exact Or.inl hrow
      · rw [List.mem_singleton.mp hrow]
        exact Or.inr ⟨Nat.lt_succ_self _, _, _, calls_callAt_self .., rfl⟩
  | update call n ok envelope hcall hstage hs' =>
      subst hs'
      exact Or.inl hrow
  | collect job n seq loaded _ _ _ hs' =>
      subst hs'
      exact Or.inl hrow
  | save job n snapshot _ _ hs' =>
      subst hs'
      exact Or.inl ((log_insertSnapshot s.db snapshot).1 ▸ hrow)
  | reset job _ _ hs' =>
      subst hs'
      exact Or.inl hrow
  | prune job _ _ hs' =>
      subst hs'
      exact Or.inl hrow

lemma Recorded.step (hrec : Recorded s) (h : s.step a = some s') : Recorded s' where
  stored_mem k c' row hc' hrow := by
    rcases stored_old h hc' hrow with ⟨c, hc, hstored, hmsg⟩ | ⟨hmem, hop, -⟩
    · obtain ⟨hmem, hop⟩ := hrec.stored_mem k c row hc hstored
      exact ⟨(step_grows h).operations_subset hmem, hop.trans (by rw [hmsg])⟩
    · exact ⟨hmem, hop⟩
  row_call row hrow := by
    rcases row_old h hrow with hrow | ⟨-, hcall⟩
    · obtain ⟨k, c, hc, hstored⟩ := hrec.row_call row hrow
      obtain ⟨c', hc', hgrows⟩ := (step_grows h).calls_kept k c hc
      exact ⟨k, c', hc', hgrows.stored hstored⟩
    · exact hcall
  seq_pos row hrow := by
    rcases row_old h hrow with hrow | ⟨hlt, -⟩
    · exact hrec.seq_pos row hrow
    · omega

omit [DecidableEq W] [DecidableEq K] in
/-- A stored row is the operation of a validated message. -/
lemma Recorded.exists_msg (hrec : Recorded s) {row : OperationEnvelope}
    (hrow : row ∈ s.db.operations) : ∃ msg : ValidatedOperationMessage, row.op = msg.op := by
  obtain ⟨k, c, hc, hstored⟩ := hrec.row_call row hrow
  exact ⟨c.msg, (hrec.stored_mem k c row hc hstored).2⟩

/-! ## Entries -/

/-- Where an entry of the new state comes from. -/
inductive EntryFrom (s : WorkerPool W K) (w : W) (n : Nat) (l' : Loaded) :
    PoolAction W K → Prop
  | kept {a : PoolAction W K} (h : s.loaded w n = some l') : EntryFrom s w n l' a
  /-- The load has just replayed its rows. -/
  | replayed (snapshot : Option SnapshotRecord) (rows : List OperationEnvelope)
      (hstage : s.stageOf w n = some (.replaying snapshot rows))
      (hl' : l' = ⟨snapshot, rows, replayDelta snapshot rows⟩) : EntryFrom s w n l' (.load w n)
  /-- A call has applied its operation. -/
  | applied {k : K} (call : OperationCall W) (l : Loaded) (hcall : s.calls k = some call)
      (hstage : call.stage = .awaitDocument n) (hworker : call.worker = w)
      (hl : s.loaded w n = some l)
      (hl' : l' = { l with
        entry := { l.entry with doc := (l.entry.doc.applyOperation call.msg.op).1 } }) :
      EntryFrom s w n l' (.advance k)
  /-- A call has moved the seq of the cached entry. -/
  | counted {k : K} (call : OperationCall W) (m : Nat) (ok : Bool) (envelope : OperationEnvelope)
      (l : Loaded) (hcall : s.calls k = some call)
      (hstage : call.stage = .applied m ok (.appended envelope)) (hworker : call.worker = w)
      (hcache : (s.workers w).cache = some n) (hl : s.loaded w n = some l)
      (hl' : l' = { l with entry := { l.entry with
        lastSeq := envelope.seq, opsSinceSnapshot := l.entry.opsSinceSnapshot + 1 } }) :
      EntryFrom s w n l' (.advance k)
  /-- A job has collected the tombstones. -/
  | collected {i : Nat} (l : Loaded) (hl : s.loaded w n = some l)
      (hl' : l' = { l with entry := { l.entry with doc := l.entry.doc.gc.1 } })
      (job : SnapshotJob W) (seq : Nat) (hjob : s.jobs[i]? = some job)
      (hstage : job.stage = .maxSeq n seq) (hseq : seq ≠ 0) : EntryFrom s w n l' (.job i)
  /-- A job has reset the counter. -/
  | reset {i : Nat} (l : Loaded) (hl : s.loaded w n = some l)
      (hl' : l' = { l with entry := { l.entry with opsSinceSnapshot := 0 } }) :
      EntryFrom s w n l' (.job i)

omit [DecidableEq K] in
/-- An entry of the new state after one entry was mutated. -/
lemma loaded_of_mutate {w w₀ : W} {n n₀ : Nat} {f : CachedDocument → CachedDocument} {l' : Loaded}
    (h : (s.setWorker w₀ ((s.workers w₀).mutate n₀ f)).loaded w n = some l') :
    s.loaded w n = some l' ∨ w = w₀ ∧ n = n₀ ∧
      ∃ l, s.loaded w n = some l ∧ l' = { l with entry := f l.entry } := by
  rw [loaded_mutate] at h
  split at h
  · rename_i hwn
    obtain ⟨rfl, rfl⟩ := hwn
    obtain ⟨l, hl, rfl⟩ := Option.map_eq_some_iff.mp h
    exact Or.inr ⟨rfl, rfl, l, hl, rfl⟩
  · exact Or.inl h

omit [DecidableEq K] in
/-- The same for the cached entry. -/
lemma loaded_of_updateCachedDocument {w w₀ : W} {n : Nat} {f : CachedDocument → CachedDocument}
    {l' : Loaded}
    (h : (s.setWorker w₀ ((s.workers w₀).updateCachedDocument f)).loaded w n = some l') :
    s.loaded w n = some l' ∨ w = w₀ ∧ (s.workers w).cache = some n ∧
      ∃ l, s.loaded w n = some l ∧ l' = { l with entry := f l.entry } := by
  cases hcache : (s.workers w₀).cache with
  | none =>
      rw [Worker.updateCachedDocument, hcache, loaded, workers_setWorker] at h
      refine Or.inl ?_
      split at h
      · rename_i hw
        rw [loaded, hw]
        exact h
      · exact h
  | some n₀ =>
      rw [Worker.updateCachedDocument, hcache] at h
      rcases loaded_of_mutate h with h | ⟨rfl, rfl, l, hl, hl'⟩
      · exact Or.inl h
      · exact Or.inr ⟨rfl, hcache, l, hl, hl'⟩

/-- **Where entries come from.** -/
theorem entryFrom (h : s.step a = some s') {w : W} {n : Nat} {l' : Loaded}
    (hl' : s'.loaded w n = some l') : EntryFrom s w n l' a := by
  cases step_effect h with
  | idle hidle =>
      rw [loaded_eq_some] at hl'
      rcases hidle.stageOf_eq w n with hstage | ⟨-, hstage⟩
      · exact .kept (loaded_eq_some.mpr (hstage ▸ hl'))
      · simp [hstage] at hl'
  | load stage stage' hstage hnext hstages _ _ _ _ =>
      rename_i w₀ n₀
      rw [loaded_eq_some, hstages] at hl'
      split at hl'
      · rename_i hwn
        obtain ⟨rfl, rfl⟩ := hwn
        obtain rfl := Option.some.inj hl'
        cases stage with
        | awaitSnapshot => simp [LoadStage.next] at hnext
        | awaitOperations snapshot => simp [LoadStage.next] at hnext
        | replaying snapshot rows =>
            have hloaded : (⟨snapshot, rows, replayDelta snapshot rows⟩ : Loaded) = l' := by
              simpa [LoadStage.next] using hnext
            exact .replayed snapshot rows hstage hloaded.symm
        | resolved l => simp [LoadStage.next] at hnext
      · exact .kept (loaded_eq_some.mpr hl')
  | apply call m l hcall hstage hl hs' =>
      subst hs'
      rcases loaded_of_mutate hl' with hl' | ⟨rfl, rfl, l₀, hl₀, rfl⟩
      · exact .kept hl'
      · exact .applied call l₀ hcall hstage rfl hl₀ rfl
  | append call m ok _ _ hs' =>
      subst hs'
      exact .kept hl'
  | update call m ok envelope hcall hstage hs' =>
      subst hs'
      rcases loaded_of_updateCachedDocument hl' with hl' | ⟨rfl, hcache, l, hl, rfl⟩
      · exact .kept hl'
      · exact .counted call m ok envelope l hcall hstage rfl hcache hl rfl
  | collect job m seq l hjob hstage _ hs' hseq =>
      subst hs'
      rcases loaded_of_mutate hl' with hl' | ⟨rfl, rfl, l₀, hl₀, rfl⟩
      · exact .kept hl'
      · exact .collected l₀ hl₀ rfl job seq hjob hstage hseq
  | save job m snapshot _ _ hs' =>
      subst hs'
      exact .kept hl'
  | reset job _ _ hs' =>
      subst hs'
      rcases loaded_of_updateCachedDocument hl' with hl' | ⟨rfl, hcache, l, hl, rfl⟩
      · exact .kept hl'
      · exact .reset l hl rfl
  | prune job _ _ hs' =>
      subst hs'
      exact .kept hl'

omit [DecidableEq K] in
lemma loaded_kept_mutate {w w₀ : W} {n n₀ : Nat} {f : CachedDocument → CachedDocument} {l : Loaded}
    (h : s.loaded w n = some l) :
    ∃ l', (s.setWorker w₀ ((s.workers w₀).mutate n₀ f)).loaded w n = some l' := by
  rw [loaded_mutate]
  split
  · rename_i hwn
    obtain ⟨rfl, rfl⟩ := hwn
    exact ⟨_, by rw [h]; rfl⟩
  · exact ⟨l, h⟩

omit [DecidableEq K] in
lemma loaded_kept_update {w w₀ : W} {n : Nat} {f : CachedDocument → CachedDocument} {l : Loaded}
    (h : s.loaded w n = some l) :
    ∃ l', (s.setWorker w₀ ((s.workers w₀).updateCachedDocument f)).loaded w n = some l' := by
  cases hcache : (s.workers w₀).cache with
  | some n₀ =>
      rw [Worker.updateCachedDocument, hcache]
      exact loaded_kept_mutate h
  | none =>
      rw [Worker.updateCachedDocument, hcache, loaded, workers_setWorker]
      split
      · rename_i hw
        exact ⟨l, hw ▸ h⟩
      · exact ⟨l, h⟩

lemma loaded_kept (h : s.step a = some s') {w : W} {n : Nat} {l : Loaded}
    (hl : s.loaded w n = some l) : ∃ l', s'.loaded w n = some l' := by
  cases step_effect h with
  | idle hidle =>
      refine ⟨l, loaded_eq_some.mpr ?_⟩
      rw [loaded_eq_some] at hl
      rcases hidle.stageOf_eq w n with hstage | ⟨hnone, -⟩
      · exact hstage.trans hl
      · simp [hnone] at hl
  | load stage stage' hstage hnext hstages _ _ _ _ =>
      rename_i w₀ n₀ _ _ _ _
      rw [loaded_eq_some] at hl
      by_cases hwn : w = w₀ ∧ n = n₀
      · obtain ⟨rfl, rfl⟩ := hwn
        obtain rfl := Option.some.inj (hstage.symm.trans hl)
        simp [LoadStage.next] at hnext
      · exact ⟨l, loaded_eq_some.mpr (by rw [hstages, if_neg hwn, hl])⟩
  | apply call m l₀ _ _ _ hs' =>
      subst hs'
      exact loaded_kept_mutate hl
  | append call m ok _ _ hs' =>
      subst hs'
      exact ⟨l, hl⟩
  | update call m ok envelope _ _ hs' =>
      subst hs'
      exact loaded_kept_update hl
  | collect job m seq l₀ _ _ _ hs' =>
      subst hs'
      exact loaded_kept_mutate hl
  | save job m snapshot _ _ hs' =>
      subst hs'
      exact ⟨l, hl⟩
  | reset job _ _ hs' =>
      subst hs'
      exact loaded_kept_update hl
  | prune job _ _ hs' =>
      subst hs'
      exact ⟨l, hl⟩

/-- What a call of the new state has applied, it had applied before, or it has just applied it. -/
lemma appliedTo_old (h : s.step a = some s') {k : K} {c' : OperationCall W} {n : Nat} {ok : Bool}
    (hc' : s'.calls k = some c') (happlied : c'.appliedTo = some (n, ok)) :
    (∃ c, s.calls k = some c ∧ c.appliedTo = some (n, ok) ∧ c'.worker = c.worker ∧
        c'.msg = c.msg) ∨
      a = .advance k ∧ ∃ call l, s.calls k = some call ∧ call.stage = .awaitDocument n ∧
        c'.worker = call.worker ∧ c'.msg = call.msg ∧ s.loaded call.worker n = some l ∧
        (l.entry.doc.applyOperation call.msg.op).2 = ok ∧
        s'.loaded call.worker n = some { l with
          entry := { l.entry with doc := (l.entry.doc.applyOperation call.msg.op).1 } } := by
  cases step_effect h with
  | idle hidle =>
      rcases hidle.calls_old k c' hc' with ⟨c, hc, hsame⟩ | ⟨-, hnone, -⟩
      · exact Or.inl ⟨c, hc, hsame.appliedTo_eq ▸ happlied, hsame.worker_eq, hsame.msg_eq⟩
      · simp [hnone] at happlied
  | load _ _ _ _ _ _ hdb hcalls _ => exact Or.inl ⟨c', hcalls ▸ hc', happlied, rfl, rfl⟩
  | apply call m l hcall hstage hl hs' =>
      rename_i k₀
      subst hs'
      by_cases hk : k = k₀
      · subst hk
        rw [calls_applyOperation, Function.update_self] at hc'
        obtain rfl := Option.some.inj hc'
        obtain ⟨rfl, rfl⟩ : m = n ∧ (l.entry.doc.applyOperation call.msg.op).2 = ok := by
          simpa [OperationCall.appliedTo] using happlied
        refine Or.inr ⟨rfl, call, l, hcall, hstage, rfl, rfl, hl, rfl, ?_⟩
        exact (loaded_mutate s call.worker call.worker m m _).trans (by simp [hl])
      · rw [calls_applyOperation, Function.update_of_ne hk] at hc'
        exact Or.inl ⟨c', hc', happlied, rfl, rfl⟩
  | append call m ok hcall hstage hs' =>
      subst hs'
      obtain ⟨c, hc, heq, hworker, hmsg⟩ := call_old OperationCall.appliedTo hcall
        (calls_appendOperation ..) (by simp [OperationCall.appliedTo, hstage]) hc'
      exact Or.inl ⟨c, hc, heq.trans happlied, hworker, hmsg⟩
  | update call m ok envelope hcall hstage hs' =>
      subst hs'
      obtain ⟨c, hc, heq, hworker, hmsg⟩ := call_old OperationCall.appliedTo hcall
        (calls_updateCache ..) (by simp [OperationCall.appliedTo, hstage]) hc'
      exact Or.inl ⟨c, hc, heq.trans happlied, hworker, hmsg⟩
  | collect job m seq l _ _ _ hs' =>
      subst hs'
      exact Or.inl ⟨c', hc', happlied, rfl, rfl⟩
  | save job m snapshot _ _ hs' =>
      subst hs'
      exact Or.inl ⟨c', hc', happlied, rfl, rfl⟩
  | reset job _ _ hs' =>
      subst hs'
      exact Or.inl ⟨c', hc', happlied, rfl, rfl⟩
  | prune job _ _ hs' =>
      subst hs'
      exact Or.inl ⟨c', hc', happlied, rfl, rfl⟩

/-- A call has applied its operation to a resolved load. -/
def AppliedLoaded (s : WorkerPool W K) : Prop :=
  ∀ k c n ok, s.calls k = some c → c.appliedTo = some (n, ok) → ∃ l, s.loaded c.worker n = some l

lemma AppliedLoaded.step (hloaded : AppliedLoaded s) (h : s.step a = some s') :
    AppliedLoaded s' := by
  intro k c' n ok hc' happlied
  rcases appliedTo_old h hc' happlied with
    ⟨c, hc, happlied, hworker, -⟩ | ⟨-, call, l, -, -, hworker, -, -, -, hl'⟩
  · obtain ⟨l, hl⟩ := hloaded k c n ok hc happlied
    exact hworker ▸ loaded_kept h hl
  · exact ⟨_, hworker ▸ hl'⟩

/-- A load that is under way in the new state was there before, or has just taken a step. -/
lemma stageOf_old (h : s.step a = some s') {w : W} {n : Nat} {stage' : LoadStage}
    (hstage' : s'.stageOf w n = some stage') (hopen : stage'.isResolved = false) :
    s.stageOf w n = some stage' ∨ stage' = .awaitSnapshot ∨
      ∃ stage, s.stageOf w n = some stage ∧ stage.next s.db = some stage' := by
  -- a mutation of one entry touches no load that is under way
  have hmutate : ∀ {w₀ : W} {n₀ : Nat} {f : CachedDocument → CachedDocument},
      (s.setWorker w₀ ((s.workers w₀).mutate n₀ f)).stageOf w n = some stage' →
        s.stageOf w n = some stage' := by
    intro w₀ n₀ f hst
    rw [stageOf_mutate] at hst
    split at hst
    · rename_i hwn
      obtain ⟨rfl, rfl⟩ := hwn
      obtain ⟨stage, hstage, rfl⟩ := Option.map_eq_some_iff.mp hst
      cases stage with
      | resolved l => simp [LoadStage.mutate, LoadStage.isResolved] at hopen
      | _ => exact hstage
    · exact hst
  have hupdate : ∀ {w₀ : W} {f : CachedDocument → CachedDocument},
      (s.setWorker w₀ ((s.workers w₀).updateCachedDocument f)).stageOf w n = some stage' →
        s.stageOf w n = some stage' := by
    intro w₀ f hst
    cases hcache : (s.workers w₀).cache with
    | some n₀ =>
        rw [Worker.updateCachedDocument, hcache] at hst
        exact hmutate hst
    | none =>
        rw [Worker.updateCachedDocument, hcache, stageOf, workers_setWorker] at hst
        split at hst
        · rename_i hw
          rw [stageOf, hw]
          exact hst
        · exact hst
  cases step_effect h with
  | idle hidle =>
      rcases hidle.stageOf_eq w n with hstage | ⟨-, hstage⟩
      · exact Or.inl (hstage ▸ hstage')
      · exact Or.inr (Or.inl (Option.some.inj (hstage'.symm.trans hstage)))
  | load stage stage₁ hstage hnext hstages _ _ _ _ =>
      rw [hstages] at hstage'
      split at hstage'
      · rename_i hwn
        obtain ⟨rfl, rfl⟩ := hwn
        obtain rfl := Option.some.inj hstage'
        exact Or.inr (Or.inr ⟨stage, hstage, hnext⟩)
      · exact Or.inl hstage'
  | apply call m l _ _ _ hs' =>
      subst hs'
      exact Or.inl (hmutate hstage')
  | append call m ok _ _ hs' =>
      subst hs'
      exact Or.inl hstage'
  | update call m ok envelope _ _ hs' =>
      subst hs'
      exact Or.inl (hupdate hstage')
  | collect job m seq l _ _ _ hs' =>
      subst hs'
      exact Or.inl (hmutate hstage')
  | save job m snapshot _ _ hs' =>
      subst hs'
      exact Or.inl hstage'
  | reset job _ _ hs' =>
      subst hs'
      exact Or.inl (hupdate hstage')
  | prune job _ _ hs' =>
      subst hs'
      exact Or.inl hstage'

/-- What holds of every load: it has to hold of those that begin and those that are over, and to be
kept by what a load does next and by what others do. -/
lemma loads_step {Reads Reads' : LoadStage → Prop} (h : s.step a = some s')
    (hloads : ∀ w n stage, s.stageOf w n = some stage → Reads stage)
    (hbegin : Reads' .awaitSnapshot) (hover : ∀ l, Reads' (.resolved l))
    (hkeep : ∀ stage, Reads stage → Reads' stage)
    (hnext : ∀ stage stage', Reads stage → stage.next s.db = some stage' → Reads' stage') :
    ∀ w n stage, s'.stageOf w n = some stage → Reads' stage := by
  intro w n stage' hstage'
  cases hresolved : stage'.isResolved with
  | true =>
      cases stage' with
      | resolved l => exact hover l
      | _ => simp [LoadStage.isResolved] at hresolved
  | false =>
      rcases stageOf_old h hstage' hresolved with hstage | rfl | ⟨stage, hstage, hnext'⟩
      · exact hkeep stage' (hloads w n stage' hstage)
      · exact hbegin
      · exact hnext stage stage' (hloads w n stage hstage) hnext'

/-! ## Snapshots -/

/-- A snapshot of the new table was there before, or a job has just saved it. -/
lemma snapshot_old (h : s.step a = some s') {snapshot : SnapshotRecord}
    (hsnapshot : snapshot ∈ s'.db.snapshots) : snapshot ∈ s.db.snapshots ∨
      ∃ i job n, a = .job i ∧ s.jobs[i]? = some job ∧ job.stage = .saving n snapshot := by
  cases step_effect h with
  | idle hidle => exact Or.inl (hidle.db_eq ▸ hsnapshot)
  | load _ _ _ _ _ _ hdb _ _ => exact Or.inl (hdb ▸ hsnapshot)
  | save job n snapshot' hjob hstage hs' =>
      subst hs'
      rcases Database.mem_insertSnapshot hsnapshot with hold | rfl
      · exact Or.inl hold
      · exact Or.inr ⟨_, job, n, rfl, hjob, hstage⟩
  | prune job _ _ hs' =>
      subst hs'
      exact Or.inl (s.db.pruneSnapshots_subset _ hsnapshot)
  | apply call m l _ _ _ hs' => exact Or.inl (by subst hs'; exact hsnapshot)
  | append call m ok _ _ hs' => exact Or.inl (by subst hs'; exact hsnapshot)
  | update call m ok envelope _ _ hs' => exact Or.inl (by subst hs'; exact hsnapshot)
  | collect job m seq l _ _ _ hs' => exact Or.inl (by subst hs'; exact hsnapshot)
  | reset job _ _ hs' => exact Or.inl (by subst hs'; exact hsnapshot)

/-- Where a job of the new state comes from. -/
inductive JobFrom (s : WorkerPool W K) (job' : SnapshotJob W) : PoolAction W K → Prop
  | kept {a : PoolAction W K} (h : job' ∈ s.jobs) : JobFrom s job' a
  /-- It has no snapshot to save, and the seq it has read is the greatest stored. -/
  | early {a : PoolAction W K} (hsaving : ∀ n snapshot, job'.stage ≠ .saving n snapshot)
      (hseq : ∀ n seq, job'.stage = .maxSeq n seq → seq = s.db.getMaxSeq) : JobFrom s job' a
  /-- It has just serialized the document. -/
  | collected {i : Nat} (job : SnapshotJob W) (n seq : Nat) (l : Loaded)
      (hjob : s.jobs[i]? = some job) (hstage : job.stage = .maxSeq n seq)
      (hl : s.loaded job.worker n = some l)
      (hstage' : job'.stage = .saving n ⟨seq, l.entry.doc.gc.1.serialize⟩) (hseq : seq ≠ 0) :
      JobFrom s job' (.job i)

omit [DecidableEq W] [DecidableEq K] in
lemma jobFrom_set {i : Nat} {job job' : SnapshotJob W} {stage : JobStage}
    (hjob' : job' ∈ s.jobs.set i { job with stage := stage })
    (hsaving : ∀ n snapshot, stage ≠ .saving n snapshot)
    (hseq : ∀ n seq, stage = .maxSeq n seq → seq = s.db.getMaxSeq) : JobFrom s job' a := by
  rcases List.mem_or_eq_of_mem_set hjob' with hjob' | rfl
  · exact .kept hjob'
  · exact .early hsaving hseq

/-- **Where jobs come from.** -/
theorem jobFrom (h : s.step a = some s') {job' : SnapshotJob W} (hjob' : job' ∈ s'.jobs) :
    JobFrom s job' a := by
  cases step_effect h with
  | idle hidle =>
      rcases hidle.jobs_old job' hjob' with hold | ⟨hsaving, hseq⟩
      · exact .kept hold
      · exact .early hsaving hseq
  | load _ _ _ _ _ _ _ _ hjobs => exact .kept (hjobs ▸ hjob')
  | apply call m l _ _ _ hs' => exact .kept (by subst hs'; exact hjob')
  | append call m ok _ _ hs' => exact .kept (by subst hs'; exact hjob')
  | update call m ok envelope _ _ hs' => exact .kept (by subst hs'; exact hjob')
  | collect job n seq l hjob hstage hl hs' hseq =>
      subst hs'
      rcases List.mem_or_eq_of_mem_set hjob' with hjob' | rfl
      · exact .kept hjob'
      · exact .collected job n seq l hjob hstage hl rfl hseq
  | save job n snapshot _ _ hs' =>
      subst hs'
      exact jobFrom_set hjob' (by split <;> simp) (by split <;> simp)
  | reset job _ _ hs' =>
      subst hs'
      exact jobFrom_set hjob' (by split <;> simp) (by split <;> simp)
  | prune job _ _ hs' =>
      subst hs'
      exact jobFrom_set hjob' (by simp) (by simp)

/-! ## Documents keep their index -/

/-- Every document that is held, stored or about to be stored is indexed. -/
structure AllIndexed (s : WorkerPool W K) : Prop where
  entries : ∀ w n l, s.loaded w n = some l → RGADocument.Indexed l.entry.doc
  loads : ∀ w n stage, s.stageOf w n = some stage → RGADocument.Indexed stage.startDoc
  snapshots : ∀ snapshot ∈ s.db.snapshots, RGADocument.Indexed (snapshotDoc (some snapshot))
  jobs : ∀ job ∈ s.jobs, ∀ n snapshot, job.stage = .saving n snapshot →
    RGADocument.Indexed (snapshotDoc (some snapshot))

omit [DecidableEq W] [DecidableEq K] in
lemma allIndexed_start (t : Nat) : AllIndexed (start t : WorkerPool W K) where
  entries w n l h := by simp [start, loaded, Worker.loaded, Worker.start] at h
  loads w n stage h := by simp [start, stageOf, Worker.start] at h
  snapshots snapshot h := by simp [start, Database.empty] at h
  jobs job h := by simp [start] at h

lemma AllIndexed.step (hs : AllIndexed s) (h : s.step a = some s') : AllIndexed s' where
  entries w n l' hl' := by
    cases entryFrom h hl' with
    | kept hl => exact hs.entries w n l' hl
    | replayed snapshot rows hstage hl'' =>
        subst hl''
        exact (hs.loads w n _ hstage).applyOperations _
    | applied call l _ _ _ hl hl'' =>
        subst hl''
        exact (hs.entries w n l hl).applyOperation _
    | counted call m ok envelope l _ _ _ _ hl hl'' =>
        subst hl''
        exact hs.entries w n l hl
    | collected l hl hl'' =>
        subst hl''
        exact indexed_gc (hs.entries w n l hl)
    | reset l hl hl'' =>
        subst hl''
        exact hs.entries w n l hl
  loads := by
    refine loads_step h hs.loads RGADocument.indexed_empty (fun _ => RGADocument.indexed_empty)
      (fun _ hindexed => hindexed) fun stage stage' hindexed hnext => ?_
    cases stage with
    | awaitSnapshot =>
        obtain rfl := Option.some.inj hnext
        cases hlatest : s.db.loadLatestSnapshot with
        | none => exact RGADocument.indexed_empty
        | some snapshot => exact hs.snapshots snapshot (Database.loadLatestSnapshot_mem hlatest)
    | awaitOperations snapshot =>
        obtain rfl := Option.some.inj hnext
        exact hindexed
    | replaying snapshot rows =>
        obtain rfl := Option.some.inj hnext
        exact RGADocument.indexed_empty
    | resolved l => simp [LoadStage.next] at hnext
  snapshots snapshot hsnapshot := by
    rcases snapshot_old h hsnapshot with hold | ⟨i, job, n, -, hjob, hstage⟩
    · exact hs.snapshots snapshot hold
    · exact hs.jobs job (List.mem_of_getElem? hjob) n snapshot hstage
  jobs job' hjob' n snapshot hstage' := by
    cases jobFrom h hjob' with
    | kept hjob => exact hs.jobs job' hjob n snapshot hstage'
    | early hsaving _ => exact absurd hstage' (hsaving n snapshot)
    | collected job m seq l hjob hstage hl hsaved =>
        obtain ⟨-, rfl⟩ :
            m = n ∧ (⟨seq, l.entry.doc.gc.1.serialize⟩ : SnapshotRecord) = snapshot := by
          simpa using hsaved.symm.trans hstage'
        refine (indexed_gc (hs.entries _ _ l hl)).of_cells_eq ?_
        exact (RGADocument.cells_deserialize _).trans (RGADocument.cells_serialize _)

end WorkerPool

/-- The operation of a validated message does not name the sentinel. -/
lemma ValidatedOperationMessage.uid_ne_root (msg : ValidatedOperationMessage) :
    msg.op.uid ≠ rootUID := by
  refine msg.named_ne_root _ ?_
  cases msg.op <;> simp [RGAOperation.named, RGAOperation.uid]

end SyncEngine
