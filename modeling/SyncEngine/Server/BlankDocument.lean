import SyncEngine.Server.CacheCompleteness
import SyncEngine.Server.CallProgress

/-!
# Documents that nobody has edited

`Blank` is what holds of the workers before the first call of `handleOperation`: there is nothing
to load, to publish or to save, so every document that is handed out is empty.

`SingleLoad` is about one worker whose cache never drops the document: it is loaded once, and
everybody is given the entry of that load.
-/

namespace SyncEngine

namespace WorkerPool

variable {W K : Type*} [DecidableEq W] [DecidableEq K] {s s' : WorkerPool W K}
  {a : PoolAction W K}

/-! ## Blank documents -/

/-- No operation has arrived. -/
structure Blank (s : WorkerPool W K) : Prop where
  calls : ∀ k, s.calls k = none
  operations : s.db.operations = []
  snapshots : s.db.snapshots = []
  channel : s.channel = []
  entries : ∀ w n l, s.loaded w n = some l → l.entry.doc.cells = []
  loads : ∀ w n stage, s.stageOf w n = some stage → ReadsLog s.db stage
  jobs : ∀ job ∈ s.jobs, ∀ n snapshot, job.stage ≠ .saving n snapshot

omit [DecidableEq W] [DecidableEq K] in
lemma blank_start (snapshotOpsThreshold : Nat) :
    Blank (start snapshotOpsThreshold : WorkerPool W K) where
  calls _ := rfl
  operations := rfl
  snapshots := rfl
  channel := rfl
  entries w n l h := by simp [start, loaded, Worker.loaded, Worker.start] at h
  loads w n stage h := by simp [start, stageOf, Worker.start] at h
  jobs job h := by simp [start] at h

lemma Blank.step (hs : Blank s) (h : s.step a = some s') (hcalls : ∀ k, s'.calls k = none)
    (hcollect : ∀ i, a = .job i → ∀ job ∈ s.jobs[i]?, job.aboutToCollect = none) : Blank s' where
  calls := hcalls
  operations := by
    rcases operations_step h with hsame | ⟨k, call, hcall, -⟩
    · rw [hsame, hs.operations]
    · simp [hs.calls] at hcall
  snapshots := by
    refine List.eq_nil_iff_forall_not_mem.mpr fun snapshot hmem => ?_
    rcases snapshot_old h hmem with hold | ⟨i, job, n, -, hjob, hstage⟩
    · simp [hs.snapshots] at hold
    · exact hs.jobs job (List.mem_of_getElem? hjob) n snapshot hstage
  channel := by
    rcases channel_step h with hsame | ⟨k, call, -, hcall, -, -⟩
    · rw [hsame, hs.channel]
    · simp [hs.calls] at hcall
  entries w n l' hl' := by
    cases entryFrom h hl' with
    | kept hl => exact hs.entries w n l' hl
    | replayed snapshot rows hstage hl'' =>
        obtain ⟨rfl, hrows, -⟩ := hs.loads w n _ hstage
        obtain rfl : rows = [] := List.eq_nil_iff_forall_not_mem.mpr fun row hrow => by
          simpa [hs.operations] using hrows hrow
        rw [hl'']
        rfl
    | applied call l hcall _ _ _ _ => simp [hs.calls] at hcall
    | counted call m ok envelope l hcall _ _ _ _ _ => simp [hs.calls] at hcall
    | collected l hl hl'' job seq hjob hstage hseq =>
        have hnone := hcollect _ rfl job hjob
        simp [SnapshotJob.aboutToCollect, hstage] at hnone
    | reset l hl hl'' =>
        rw [hl'']
        exact hs.entries w n l hl
  loads :=
    loads_step h hs.loads trivial (fun _ => trivial) (fun _ => ReadsLog.of_grows (step_grows h))
      fun _ _ hreads hnext => ReadsLog.of_grows (step_grows h)
        (readsLog_next hs.snapshots (by simp [hs.operations]) hreads hnext)
  jobs job' hjob' n snapshot hstage' := by
    cases jobFrom h hjob' with
    | kept hjob => exact hs.jobs job' hjob n snapshot hstage'
    | early hsaving _ => exact hsaving n snapshot hstage'
    | collected job m seq l hjob hstage hl hsaved hseq =>
        have hnone := hcollect _ rfl job hjob
        simp [SnapshotJob.aboutToCollect, hstage] at hnone

/-! ## One load -/

/-- How a worker changes. -/
inductive WorkerMove (db : Database) (w : Worker) (evicted : Prop) : Worker → Prop
  | same : WorkerMove db w evicted w
  | asked : WorkerMove db w evicted w.getOrLoadDocument.1
  | advanced (n : Nat) {w' : Worker} (h : w.advanceLoad db n = some w') : WorkerMove db w evicted w'
  | mutated (n : Nat) (f : CachedDocument → CachedDocument) : WorkerMove db w evicted (w.mutate n f)
  | evicted (h : evicted) : WorkerMove db w evicted w.evict

lemma workerMove_updateCachedDocument {db : Database} {evicted : Prop} (w : Worker)
    (f : CachedDocument → CachedDocument) : WorkerMove db w evicted (w.updateCachedDocument f) := by
  rw [Worker.updateCachedDocument]
  split
  · exact .mutated _ f
  · exact .same

omit [DecidableEq K] in
lemma workerMove_setWorker {db : Database} {evicted : Prop} {w₀ : W} {worker : Worker}
    (hmove : WorkerMove db (s.workers w₀) evicted worker) (w : W) :
    WorkerMove db (s.workers w) evicted ((s.setWorker w₀ worker).workers w) := by
  rw [workers_setWorker]
  split
  · rename_i hw
    exact hw ▸ hmove
  · exact .same

/-- **How a step changes a worker.** -/
theorem worker_step (h : s.step a = some s') (w : W) :
    WorkerMove s.db (s.workers w) (∃ w, a = .evict w) (s'.workers w) := by
  cases a with
  | begin k w₀ session msg =>
      rw [WorkerPool.step] at h
      split at h
      · obtain rfl := Option.some.inj h
        exact .same
      · simp at h
  | advance k =>
      obtain ⟨call, -, h⟩ := Option.bind_eq_some_iff.mp h
      have hstep := advanceCall_step h
      -- the step is split by stages, which need a variable to be split on
      generalize call.stage = stage at hstep
      cases hstep with
      | passLimit | refuse | append | publish => exact .same
      | ask | finish => exact workerMove_setWorker .asked w
      | apply => exact workerMove_setWorker (.mutated _ _) w
      | update => exact workerMove_setWorker (workerMove_updateCachedDocument _ _) w
  | refuse k ms =>
      obtain ⟨call, -, h⟩ := Option.bind_eq_some_iff.mp h
      rw [refuseCall] at h
      split at h
      · obtain rfl := Option.some.inj h
        exact .same
      · obtain rfl := Option.some.inj h
        exact .same
      · simp at h
  | throwAppend k =>
      obtain ⟨_, _, _, _, _, rfl⟩ := throwAppend_eq h
      exact .same
  | join w₀ =>
      obtain rfl := Option.some.inj h
      exact workerMove_setWorker .asked w
  | load w₀ n =>
      obtain ⟨worker, hworker, rfl⟩ := Option.map_eq_some_iff.mp h
      exact workerMove_setWorker (.advanced n hworker) w
  | evict w₀ =>
      obtain rfl := Option.some.inj h
      exact workerMove_setWorker (.evicted ⟨w₀, rfl⟩) w
  | deliver w₀ =>
      rw [WorkerPool.step] at h
      split at h
      · obtain rfl := Option.some.inj h
        exact .same
      · simp at h
  | forceSnapshot w₀ =>
      obtain rfl := Option.some.inj h
      exact workerMove_setWorker .asked w
  | job i =>
      obtain ⟨job, -, h⟩ := Option.bind_eq_some_iff.mp h
      have hstep := advanceJob_step h
      -- as above, for a job
      generalize job.stage = stage at hstep
      cases hstep with
      | loaded | asked | empty | save | compared | prune => exact .same
      | collect => exact workerMove_setWorker (.mutated _ _) w
      | reset => exact workerMove_setWorker (workerMove_updateCachedDocument _ _) w
  | skipJob i =>
      obtain ⟨job, -, h⟩ := Option.bind_eq_some_iff.mp h
      rw [skipJob] at h
      split at h
      · split at h
        · simp at h
        · split at h
          · obtain rfl := Option.some.inj h
            exact .same
          · simp at h
      · simp at h

/-- A worker that has loaded the document at most once, and holds on to the load. -/
inductive SingleLoad : Worker → Prop
  | start : SingleLoad .start
  | loading (stage : LoadStage) (h : stage.isResolved = false) : SingleLoad ⟨[stage], some 0, none⟩
  | cached (loaded : Loaded) (promise : Option Nat) :
      SingleLoad ⟨[.resolved loaded], promise, some 0⟩

lemma SingleLoad.eq_zero {w : Worker} (h : SingleLoad w) {n : Nat} {l : Loaded}
    (hl : w.loaded n = some l) : n = 0 := by
  rw [Worker.loaded_eq_some] at hl
  have hlt := (List.getElem?_eq_some_iff.mp hl).1
  cases h with
  | start => simp [Worker.start] at hlt
  | loading stage _ => simpa using hlt
  | cached loaded _ => simpa using hlt

lemma SingleLoad.cache_of_loaded {w : Worker} (h : SingleLoad w) {l : Loaded}
    (hl : w.loaded 0 = some l) : w.cache = some 0 := by
  rw [Worker.loaded_eq_some] at hl
  cases h with
  | start => simp [Worker.start] at hl
  | loading stage hopen =>
      obtain rfl : stage = .resolved l := by simpa using hl
      simp [LoadStage.isResolved] at hopen
  | cached loaded promise => rfl

lemma SingleLoad.move {db : Database} {w w' : Worker} {evicted : Prop} (h : SingleLoad w)
    (hmove : WorkerMove db w evicted w') (hkept : ¬ evicted) : SingleLoad w' := by
  cases hmove with
  | same => exact h
  | evicted hevicted => exact absurd hevicted hkept
  | asked =>
      cases h with
      | start => exact .loading .awaitSnapshot rfl
      | loading stage hopen => exact .loading stage hopen
      | cached loaded promise => exact .cached loaded promise
  | mutated n f =>
      cases h with
      | start =>
          have hmutate : Worker.start.mutate n f = .start := by cases n <;> rfl
          rw [hmutate]
          exact .start
      | loading stage hopen =>
          have hsame : stage.mutate f = stage := by
            cases stage with
            | resolved l => simp [LoadStage.isResolved] at hopen
            | _ => rfl
          have hmutate : Worker.mutate ⟨[stage], some 0, none⟩ n f = ⟨[stage], some 0, none⟩ := by
            cases n <;> simp [Worker.mutate, hsame]
          rw [hmutate]
          exact .loading stage hopen
      | cached loaded promise =>
          cases n with
          | zero => exact .cached { loaded with entry := f loaded.entry } promise
          | succ n =>
              have hmutate : Worker.mutate ⟨[.resolved loaded], promise, some 0⟩ (n + 1) f =
                  ⟨[.resolved loaded], promise, some 0⟩ := by simp [Worker.mutate]
              rw [hmutate]
              exact .cached loaded promise
  | advanced n hadvanced =>
      obtain ⟨stage, hstage, hadvanced⟩ := Option.bind_eq_some_iff.mp hadvanced
      obtain ⟨stage', hnext, hadvanced⟩ := Option.bind_eq_some_iff.mp hadvanced
      obtain rfl := Option.some.inj hadvanced
      have hlt := (List.getElem?_eq_some_iff.mp hstage).1
      cases h with
      | start => simp [Worker.start] at hlt
      | loading stage₀ hopen =>
          obtain rfl : n = 0 := by simpa using hlt
          cases hresolved : stage'.isResolved with
          | false => exact .loading stage' hresolved
          | true =>
              cases stage' with
              | resolved l => exact .cached l none
              | _ => simp [LoadStage.isResolved] at hresolved
      | cached loaded promise =>
          obtain rfl : n = 0 := by simpa using hlt
          -- a load that has resolved does not go on
          obtain rfl : .resolved loaded = stage := by simpa using hstage
          simp [LoadStage.next] at hnext

end WorkerPool

end SyncEngine
