import SyncEngine.Server.WorkerPool

/-!
# What an action of the pool does

`step_effect` is the inversion of `WorkerPool.step`: an action either does nothing to the tables,
the entries and what calls have applied and stored (`Idle`), or it is one of the few that do, and
then it is exactly the step that `Effect` names.  Invariants of the pool are derived from this
lemma and never from `step` itself.  Where the stage that a call or a snapshot job has come to
matters, `advanceCall_step` and `advanceJob_step` say what it does there.
-/

namespace SyncEngine

namespace WorkerPool

variable {W K : Type*} [DecidableEq W] [DecidableEq K]

/-- The calls agree in everything but the stage, and in what they have applied and stored. -/
structure SameCall (c c' : OperationCall W) : Prop where
  worker_eq : c'.worker = c.worker
  session_eq : c'.session = c.session
  msg_eq : c'.msg = c.msg
  appliedTo_eq : c'.appliedTo = c.appliedTo
  stored_eq : c'.stored = c.stored

/-- Nothing happens to the tables, to an entry, or to what a call has applied and stored. -/
structure Idle (s s' : WorkerPool W K) : Prop where
  db_eq : s'.db = s.db
  stageOf_eq : ∀ w n, s'.stageOf w n = s.stageOf w n ∨
    s.stageOf w n = none ∧ s'.stageOf w n = some .awaitSnapshot
  cache_eq : ∀ w, (s'.workers w).cache = (s.workers w).cache ∨ (s'.workers w).cache = none
  calls_kept : ∀ k c, s.calls k = some c → ∃ c', s'.calls k = some c' ∧ SameCall c c'
  calls_old : ∀ k c', s'.calls k = some c' → (∃ c, s.calls k = some c ∧ SameCall c c') ∨
    s.calls k = none ∧ c'.appliedTo = none ∧ c'.stored = none
  jobs_old : ∀ job ∈ s'.jobs, job ∈ s.jobs ∨ (∀ n snapshot, job.stage ≠ .saving n snapshot) ∧
    ∀ n seq, job.stage = .maxSeq n seq → seq = s.db.getMaxSeq

/-- What a call does next, by the stage it has come to. -/
inductive CallStep (s : WorkerPool W K) (k : K) (call : OperationCall W) :
    CallStage → WorkerPool W K → Prop
  | passLimit : CallStep s k call .rateLimit (s.callAt k call .replayCheck)
  | refuse (error : OperationError) (hmismatch : call.siteIdMismatch = some error) :
      CallStep s k call .replayCheck (s.callAt k call (.failed error))
  | ask (hmismatch : call.siteIdMismatch = none) :
      CallStep s k call .replayCheck ((s.getOrLoadDocument call.worker).1.callAt k call
        (.awaitDocument (s.getOrLoadDocument call.worker).2))
  | apply (n : Nat) (loaded : Loaded) (hloaded : s.loaded call.worker n = some loaded) :
      CallStep s k call (.awaitDocument n) (s.applyOperation k call n loaded)
  | append (n : Nat) (ok : Bool) :
      CallStep s k call (.applied n ok .appending) (s.appendOperation k call n ok)
  | update (n : Nat) (ok : Bool) (envelope : OperationEnvelope) :
      CallStep s k call (.applied n ok (.appended envelope)) (s.updateCache k call n ok envelope)
  | publish (n : Nat) (ok : Bool) (envelope : OperationEnvelope) :
      CallStep s k call (.applied n ok (.publishing envelope))
        ((s.publish envelope).callAt k call (.applied n ok (.published envelope)))
  | finish (n : Nat) (ok : Bool) (envelope : OperationEnvelope) :
      CallStep s k call (.applied n ok (.published envelope))
        ((s.startJob call.worker false).callAt k call (.applied n ok (.done envelope)))

/-- What a snapshot job does next, by the stage it has come to. -/
inductive JobStep (s : WorkerPool W K) (i : Nat) (job : SnapshotJob W) :
    JobStage → WorkerPool W K → Prop
  | loaded (n : Nat) : JobStep s i job (.awaitDocument n) (s.jobAt i job (.awaitMaxSeq n))
  | asked (n : Nat) : JobStep s i job (.awaitMaxSeq n) (s.jobAt i job (.maxSeq n s.db.getMaxSeq))
  | empty (n : Nat) : JobStep s i job (.maxSeq n 0) (s.jobAt i job .done)
  | collect (n seq : Nat) (loaded : Loaded) (hseq : seq ≠ 0)
      (hloaded : s.loaded job.worker n = some loaded) :
      JobStep s i job (.maxSeq n seq) (s.collect i job n seq loaded)
  | save (n : Nat) (snapshot : SnapshotRecord) :
      JobStep s i job (.saving n snapshot) (s.saveSnapshot i job snapshot)
  | compared (seq : Nat) (stage : JobStage) (hstage : stage = .saved ∨ stage = .done) :
      JobStep s i job (.conflict seq) (s.jobAt i job stage)
  | reset : JobStep s i job .saved (s.resetCounter i job)
  | prune : JobStep s i job .pruning (s.pruneOldSnapshots i job)

/-- What an action can do. -/
inductive Effect (s s' : WorkerPool W K) : PoolAction W K → Prop
  | idle {a : PoolAction W K} (h : Idle s s') : Effect s s' a
  | load {w : W} {n : Nat} (stage stage' : LoadStage) (hstage : s.stageOf w n = some stage)
      (hnext : stage.next s.db = some stage')
      (hstages : ∀ w' m, s'.stageOf w' m =
        if w' = w ∧ m = n then some stage' else s.stageOf w' m)
      (hcache : ∀ w', (s'.workers w').cache =
        if w' = w ∧ stage'.isResolved then some n else (s.workers w').cache)
      (hdb : s'.db = s.db) (hcalls : s'.calls = s.calls) (hjobs : s'.jobs = s.jobs) :
      Effect s s' (.load w n)
  | apply {k : K} (call : OperationCall W) (n : Nat) (loaded : Loaded)
      (hcall : s.calls k = some call) (hstage : call.stage = .awaitDocument n)
      (hloaded : s.loaded call.worker n = some loaded)
      (hs' : s' = s.applyOperation k call n loaded) : Effect s s' (.advance k)
  | append {k : K} (call : OperationCall W) (n : Nat) (ok : Bool)
      (hcall : s.calls k = some call) (hstage : call.stage = .applied n ok .appending)
      (hs' : s' = s.appendOperation k call n ok) : Effect s s' (.advance k)
  | update {k : K} (call : OperationCall W) (n : Nat) (ok : Bool) (envelope : OperationEnvelope)
      (hcall : s.calls k = some call) (hstage : call.stage = .applied n ok (.appended envelope))
      (hs' : s' = s.updateCache k call n ok envelope) : Effect s s' (.advance k)
  | collect {i : Nat} (job : SnapshotJob W) (n seq : Nat) (loaded : Loaded)
      (hjob : s.jobs[i]? = some job) (hstage : job.stage = .maxSeq n seq)
      (hloaded : s.loaded job.worker n = some loaded)
      (hs' : s' = s.collect i job n seq loaded) (hseq : seq ≠ 0) : Effect s s' (.job i)
  | save {i : Nat} (job : SnapshotJob W) (n : Nat) (snapshot : SnapshotRecord)
      (hjob : s.jobs[i]? = some job) (hstage : job.stage = .saving n snapshot)
      (hs' : s' = s.saveSnapshot i job snapshot) : Effect s s' (.job i)
  | reset {i : Nat} (job : SnapshotJob W) (hjob : s.jobs[i]? = some job)
      (hstage : job.stage = .saved) (hs' : s' = s.resetCounter i job) : Effect s s' (.job i)
  | prune {i : Nat} (job : SnapshotJob W) (hjob : s.jobs[i]? = some job)
      (hstage : job.stage = .pruning) (hs' : s' = s.pruneOldSnapshots i job) :
      Effect s s' (.job i)

variable {s s' : WorkerPool W K}

/-- **The next step of a call**, from the code. -/
theorem advanceCall_step {k : K} {call : OperationCall W} (h : s.advanceCall k call = some s') :
    CallStep s k call call.stage s' := by
  rw [advanceCall] at h
  cases hstage : call.stage with
  | rateLimit =>
      simp only [hstage, Option.some.injEq] at h
      exact h ▸ .passLimit
  | replayCheck =>
      cases hmismatch : call.siteIdMismatch with
      | some error =>
          simp only [hstage, hmismatch, Option.some.injEq] at h
          exact h ▸ .refuse error hmismatch
      | none =>
          simp only [hstage, hmismatch, Option.some.injEq] at h
          exact h ▸ .ask hmismatch
  | awaitDocument n =>
      simp only [hstage] at h
      obtain ⟨loaded, hloaded, rfl⟩ := Option.map_eq_some_iff.mp h
      exact .apply n loaded hloaded
  | applied n ok progress =>
      cases progress with
      | appending =>
          simp only [hstage, Option.some.injEq] at h
          exact h ▸ .append n ok
      | appended envelope =>
          simp only [hstage, Option.some.injEq] at h
          exact h ▸ .update n ok envelope
      | publishing envelope =>
          simp only [hstage, Option.some.injEq] at h
          exact h ▸ .publish n ok envelope
      | published envelope =>
          simp only [hstage, Option.some.injEq] at h
          exact h ▸ .finish n ok envelope
      | done envelope => simp [hstage] at h
      | threw => simp [hstage] at h
  | failed error => simp [hstage] at h

omit [DecidableEq K] in
/-- **The next step of a snapshot job**, from the code. -/
theorem advanceJob_step {i : Nat} {job : SnapshotJob W} (h : s.advanceJob i job = some s') :
    JobStep s i job job.stage s' := by
  rw [advanceJob] at h
  cases hstage : job.stage with
  | awaitDocument n =>
      simp only [hstage] at h
      obtain ⟨-, -, rfl⟩ := Option.map_eq_some_iff.mp h
      exact .loaded n
  | awaitMaxSeq n =>
      simp only [hstage, Option.some.injEq] at h
      exact h ▸ .asked n
  | maxSeq n seq =>
      simp only [hstage] at h
      split at h
      · rename_i hseq
        subst hseq
        obtain rfl := Option.some.inj h
        exact .empty n
      · rename_i hseq
        obtain ⟨loaded, hloaded, rfl⟩ := Option.map_eq_some_iff.mp h
        exact .collect n seq loaded hseq hloaded
  | saving n snapshot =>
      simp only [hstage, Option.some.injEq] at h
      exact h ▸ .save n snapshot
  | conflict seq =>
      simp only [hstage] at h
      split at h
      · obtain rfl := Option.some.inj h
        refine .compared seq _ ?_
        split
        · exact Or.inl rfl
        · exact Or.inr rfl
      · obtain rfl := Option.some.inj h
        exact .compared seq .done (Or.inr rfl)
  | saved =>
      simp only [hstage, Option.some.injEq] at h
      exact h ▸ .reset
  | pruning =>
      simp only [hstage, Option.some.injEq] at h
      exact h ▸ .prune
  | done => simp [hstage] at h

omit [DecidableEq W] in
lemma sameCall_refl (c : OperationCall W) : SameCall c c := ⟨rfl, rfl, rfl, rfl, rfl⟩

omit [DecidableEq W] in
/-- Only the stage of one call changes, without touching what it has applied and stored. -/
lemma Idle.callAt (h : Idle s s') {k : K} {call : OperationCall W} (hcall : s.calls k = some call)
    (hcalls : s'.calls = s.calls) {stage : CallStage}
    (happlied : ({ call with stage := stage } : OperationCall W).appliedTo = call.appliedTo)
    (hstored : ({ call with stage := stage } : OperationCall W).stored = call.stored) :
    Idle s (s'.callAt k call stage) where
  db_eq := h.db_eq
  stageOf_eq := h.stageOf_eq
  cache_eq := h.cache_eq
  calls_kept k' c hc := by
    by_cases hk : k' = k
    · subst hk
      obtain rfl : call = c := Option.some.inj (hcall.symm.trans hc)
      exact ⟨_, calls_callAt_self .., rfl, rfl, rfl, happlied, hstored⟩
    · exact ⟨c, by rw [calls_callAt_of_ne _ hk, hcalls, hc], sameCall_refl c⟩
  calls_old k' c' hc' := by
    by_cases hk : k' = k
    · subst hk
      rw [calls_callAt_self] at hc'
      obtain rfl := Option.some.inj hc'
      exact Or.inl ⟨call, hcall, rfl, rfl, rfl, happlied, hstored⟩
    · rw [calls_callAt_of_ne _ hk, hcalls] at hc'
      exact Or.inl ⟨c', hc', sameCall_refl c'⟩
  jobs_old := h.jobs_old

omit [DecidableEq W] [DecidableEq K] in
/-- Nothing but the channel, the deliveries, the jobs and the caches' contents may change. -/
lemma idle_of_eq (hdb : s'.db = s.db)
    (hstage : ∀ w n, s'.stageOf w n = s.stageOf w n ∨
      s.stageOf w n = none ∧ s'.stageOf w n = some .awaitSnapshot)
    (hcache : ∀ w, (s'.workers w).cache = (s.workers w).cache ∨ (s'.workers w).cache = none)
    (hcalls : s'.calls = s.calls)
    (hjobs : ∀ job ∈ s'.jobs, job ∈ s.jobs ∨ (∀ n snapshot, job.stage ≠ .saving n snapshot) ∧
      ∀ n seq, job.stage = .maxSeq n seq → seq = s.db.getMaxSeq) : Idle s s' where
  db_eq := hdb
  stageOf_eq := hstage
  cache_eq := hcache
  calls_kept k c hc := ⟨c, by rw [hcalls, hc], sameCall_refl c⟩
  calls_old k c' hc' := Or.inl ⟨c', hcalls ▸ hc', sameCall_refl c'⟩
  jobs_old := hjobs

omit [DecidableEq W] [DecidableEq K] in
lemma idle_refl (s : WorkerPool W K) : Idle s s :=
  idle_of_eq rfl (fun _ _ => Or.inl rfl) (fun _ => Or.inl rfl) rfl fun _ h => Or.inl h

omit [DecidableEq W] [DecidableEq K] in
lemma idle_publish (s : WorkerPool W K) (envelope : OperationEnvelope) :
    Idle s (s.publish envelope) :=
  idle_of_eq rfl (fun _ _ => Or.inl rfl) (fun _ => Or.inl rfl) rfl fun _ h => Or.inl h

omit [DecidableEq K] in
lemma idle_getOrLoadDocument (s : WorkerPool W K) (w : W) : Idle s (s.getOrLoadDocument w).1 := by
  refine idle_of_eq rfl (fun w' n => ?_) (fun w' => Or.inl ?_) rfl fun _ h => Or.inl h
  · simp only [stageOf, getOrLoadDocument, setWorker, Function.update_apply]
    by_cases hw : w' = w
    · subst hw
      simp only [if_true]
      rw [Worker.getOrLoadDocument]
      split
      · exact Or.inl rfl
      · exact Or.inl rfl
      · rcases Nat.lt_trichotomy n (s.workers w').loads.length with h | rfl | h
        · exact Or.inl (List.getElem?_append_left h)
        · exact Or.inr ⟨by simp, by simp⟩
        · refine Or.inl ?_
          rw [List.getElem?_eq_none (by simp; omega), List.getElem?_eq_none (by omega)]
    · simp [hw]
  · simp only [getOrLoadDocument, setWorker, Function.update_apply]
    by_cases hw : w' = w
    · subst hw
      simp
    · simp [hw]

omit [DecidableEq K] in
lemma idle_startJob (s : WorkerPool W K) (w : W) (forced : Bool) :
    Idle s (s.startJob w forced) := by
  have h := idle_getOrLoadDocument s w
  refine idle_of_eq h.db_eq h.stageOf_eq h.cache_eq rfl fun job hjob => ?_
  rcases List.mem_append.mp hjob with hjob | hjob
  · exact h.jobs_old job hjob
  · rw [List.mem_singleton.mp hjob]
    exact Or.inr ⟨by simp, by simp⟩

omit [DecidableEq W] [DecidableEq K] in
lemma idle_jobAt (s : WorkerPool W K) (i : Nat) (job : SnapshotJob W) {stage : JobStage}
    (hsaving : ∀ n snapshot, stage ≠ .saving n snapshot)
    (hseq : ∀ n seq, stage = .maxSeq n seq → seq = s.db.getMaxSeq) :
    Idle s (s.jobAt i job stage) :=
  idle_of_eq rfl (fun _ _ => Or.inl rfl) (fun _ => Or.inl rfl) rfl fun job' hjob' => by
    rcases List.mem_or_eq_of_mem_set hjob' with hjob' | rfl
    · exact Or.inl hjob'
    · exact Or.inr ⟨hsaving, hseq⟩

lemma CallStep.effect {k : K} {call : OperationCall W} (hcall : s.calls k = some call)
    (h : CallStep s k call call.stage s') : Effect s s' (.advance k) := by
  generalize hstage : call.stage = stage at h
  cases h with
  | passLimit =>
      exact .idle ((idle_refl s).callAt hcall rfl (by simp [OperationCall.appliedTo, hstage])
        (by simp [OperationCall.stored, hstage]))
  | refuse error hmismatch =>
      exact .idle ((idle_refl s).callAt hcall rfl (by simp [OperationCall.appliedTo, hstage])
        (by simp [OperationCall.stored, hstage]))
  | ask hmismatch =>
      exact .idle ((idle_getOrLoadDocument s call.worker).callAt hcall rfl
        (by simp [OperationCall.appliedTo, hstage]) (by simp [OperationCall.stored, hstage]))
  | apply n loaded hloaded => exact .apply call n loaded hcall hstage hloaded rfl
  | append n ok => exact .append call n ok hcall hstage rfl
  | update n ok envelope => exact .update call n ok envelope hcall hstage rfl
  | publish n ok envelope =>
      exact .idle ((idle_publish s envelope).callAt hcall rfl
        (OperationCall.appliedTo_of_stage hstage).symm
        (OperationCall.stored_of_stage hstage).symm)
  | finish n ok envelope =>
      exact .idle ((idle_startJob s call.worker false).callAt hcall rfl
        (OperationCall.appliedTo_of_stage hstage).symm
        (OperationCall.stored_of_stage hstage).symm)

lemma JobStep.effect {i : Nat} {job : SnapshotJob W} (hjob : s.jobs[i]? = some job)
    (h : JobStep s i job job.stage s') : Effect s s' (.job i) := by
  generalize hstage : job.stage = stage at h
  cases h with
  | loaded n => exact .idle (idle_jobAt s i job (by simp) (by simp))
  | asked n => exact .idle (idle_jobAt s i job (by simp) (by simp +contextual [eq_comm]))
  | empty n => exact .idle (idle_jobAt s i job (by simp) (by simp))
  | collect n seq loaded hseq hloaded =>
      exact .collect job n seq loaded hjob hstage hloaded rfl hseq
  | save n snapshot => exact .save job n snapshot hjob hstage rfl
  | compared seq stage hcompared =>
      rcases hcompared with rfl | rfl
      · exact .idle (idle_jobAt s i job (by simp) (by simp))
      · exact .idle (idle_jobAt s i job (by simp) (by simp))
  | reset => exact .reset job hjob hstage rfl
  | prune => exact .prune job hjob hstage rfl

lemma throwAppend_eq {k : K} (h : s.step (.throwAppend k) = some s') :
    ∃ call n ok, s.calls k = some call ∧ call.stage = .applied n ok .appending ∧
      s' = s.callAt k call (.applied n ok .threw) := by
  obtain ⟨call, hcall, h⟩ := Option.bind_eq_some_iff.mp h
  rw [throwAppend] at h
  split at h
  · rename_i n ok hstage
    exact ⟨call, n, ok, hcall, hstage, (Option.some.inj h).symm⟩
  · simp at h

/-- **What an action does**: one of the listed effects. -/
theorem step_effect {a : PoolAction W K} (h : s.step a = some s') : Effect s s' a := by
  cases a with
  | begin k w session msg =>
      rw [step] at h
      split at h
      · rename_i hfree
        obtain rfl := Option.some.inj h
        refine .idle ⟨rfl, fun _ _ => Or.inl rfl, fun _ => Or.inl rfl, fun k' c hc => ?_,
          fun k' c' hc' => ?_, fun _ h => Or.inl h⟩
        · have hk : k' ≠ k := fun hk => by simp [hk, hfree] at hc
          -- an older call stands under another name: this one was free
          exact ⟨c, by rw [calls_setCall_of_ne _ hk, hc], sameCall_refl c⟩
        · by_cases hk : k' = k
          · subst hk
            rw [calls_setCall_self] at hc'
            obtain rfl := Option.some.inj hc'
            exact Or.inr ⟨hfree, rfl, rfl⟩
          · rw [calls_setCall_of_ne _ hk] at hc'
            exact Or.inl ⟨c', hc', sameCall_refl c'⟩
      · simp at h
  | advance k =>
      obtain ⟨call, hcall, h⟩ := Option.bind_eq_some_iff.mp h
      exact (advanceCall_step h).effect hcall
  | refuse k ms =>
      obtain ⟨call, hcall, h⟩ := Option.bind_eq_some_iff.mp h
      rw [refuseCall] at h
      split at h
      · rename_i hstage
        obtain rfl := Option.some.inj h
        exact .idle ((idle_refl s).callAt hcall rfl (by simp [OperationCall.appliedTo, hstage])
          (by simp [OperationCall.stored, hstage]))
      · rename_i hstage
        obtain rfl := Option.some.inj h
        exact .idle ((idle_refl s).callAt hcall rfl (by simp [OperationCall.appliedTo, hstage])
          (by simp [OperationCall.stored, hstage]))
      · simp at h
  | throwAppend k =>
      obtain ⟨call, n, ok, hcall, hstage, rfl⟩ := throwAppend_eq h
      exact .idle ((idle_refl s).callAt hcall rfl
        (OperationCall.appliedTo_of_stage hstage).symm
        (OperationCall.stored_of_stage hstage).symm)
  | join w =>
      obtain rfl := Option.some.inj h
      exact .idle (idle_getOrLoadDocument s w)
  | load w n =>
      obtain ⟨worker, hworker, rfl⟩ := Option.map_eq_some_iff.mp h
      obtain ⟨stage, stage', hstage, hnext, hstages, hcache⟩ := Worker.advanceLoad_eq_some hworker
      -- the store of a load shows in its worker alone: another worker keeps its loads and its cache
      refine .load stage stage' hstage hnext (fun w' m => ?_) (fun w' => ?_) rfl rfl rfl
      · simp only [stageOf, setWorker, Function.update_apply]
        by_cases hw : w' = w
        · subst hw
          simp [hstages]
        · simp [hw]
      · simp only [setWorker, Function.update_apply]
        by_cases hw : w' = w
        · subst hw
          simp [hcache]
        · simp [hw]
  | evict w =>
      obtain rfl := Option.some.inj h
      refine .idle (idle_of_eq rfl (fun w' n => Or.inl ?_) (fun w' => ?_) rfl fun _ h => Or.inl h)
      · simp only [stageOf, setWorker, Function.update_apply]
        split
        · rename_i hw
          rw [hw]
          rfl
        · rfl
      · simp only [setWorker, Function.update_apply]
        split
        · exact Or.inr rfl
        · exact Or.inl rfl
  | deliver w =>
      rw [step] at h
      split at h
      · obtain rfl := Option.some.inj h
        exact .idle (idle_of_eq rfl (fun _ _ => Or.inl rfl) (fun _ => Or.inl rfl) rfl
          fun _ h => Or.inl h)
      · simp at h
  | forceSnapshot w =>
      obtain rfl := Option.some.inj h
      exact .idle (idle_startJob s w true)
  | job i =>
      obtain ⟨job, hjob, h⟩ := Option.bind_eq_some_iff.mp h
      exact (advanceJob_step h).effect hjob
  | skipJob i =>
      obtain ⟨job, -, h⟩ := Option.bind_eq_some_iff.mp h
      rw [skipJob] at h
      split at h
      · split at h
        · simp at h
        · split at h
          · obtain rfl := Option.some.inj h
            exact .idle (idle_jobAt s i job (by simp) (by simp))
          · simp at h
      · simp at h

end WorkerPool

end SyncEngine
