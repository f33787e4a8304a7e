import SyncEngine.Server.OperationHandler

/-!
# The workers of a document

Any number of workers serving one document against one database and one Redis channel: the calls
of `handleOperation`, the loads of their caches, the jobs of `server/jobs/snapshot-compactor.ts`
and the publications.  An action is the code between two awaits of one of them; the actions of
different calls, loads and jobs interleave in any order, and every database statement is one
action.

Calls are named by a type `K`, workers by a type `W`.  A call stays in the table when it is done,
which records what was applied to which entry, also when its append has thrown: nobody takes the
operation back from the entry then.  Time plays no part: the rate limiter may let any call through,
and a snapshot may be due at any time by its interval.
-/

namespace SyncEngine

/-! ## Snapshot jobs -/

/-- How far a call of `maybeTakeSnapshot` or `forceSnapshot` has come. -/
inductive JobStage where
  /-- Awaits `getOrLoadDocument`, on the given load. -/
  | awaitDocument (load : Nat)
  /-- Awaits `getMaxSeq`. -/
  | awaitMaxSeq (load : Nat)
  | maxSeq (load : Nat) (seq : Nat)
  /-- Tombstones were collected and the nodes serialized; awaits the INSERT of `saveSnapshot`. -/
  | saving (load : Nat) (snapshot : SnapshotRecord)
  /-- Awaits the `loadLatestSnapshot` of `saveSnapshot` after a conflict. -/
  | conflict (seq : Nat)
  | saved
  /-- Awaits the DELETE of `pruneOldSnapshots`. -/
  | pruning
  | done
deriving DecidableEq

/-- A call of `maybeTakeSnapshot` or `forceSnapshot`. -/
structure SnapshotJob (W : Type*) where
  worker : W
  /-- `forceSnapshot`: no thresholds, no pruning. -/
  forced : Bool
  stage : JobStage

/-- The load and the seq of a snapshot, when serializing the document is the next step. -/
def SnapshotJob.aboutToCollect {W : Type*} (job : SnapshotJob W) : Option (Nat × Nat) :=
  match job.stage with
  | .maxSeq load seq => some (load, seq)
  | _ => none

/-- The rows of `snapshots` that are kept. -/
def maxSnapshotsPerDoc : Nat := 10

/-! ## The pool -/

/-- The workers with their calls and jobs, the database, and the channel of the document in Redis.
-/
structure WorkerPool (W K : Type*) where
  /-- `config.crdt.snapshotOpsThreshold`. -/
  snapshotOpsThreshold : Nat
  db : Database
  workers : W → Worker
  calls : K → Option (OperationCall W)
  jobs : List (SnapshotJob W)
  /-- Everything published on the channel of the document. -/
  channel : List OperationEnvelope
  /-- How many publications a worker's Redis handler has seen. -/
  delivered : W → Nat

/-- What a call, a job, a load or Redis does. -/
inductive PoolAction (W K : Type*) where
  /-- A session of the worker hands a message to `handleOperation`. -/
  | begin (k : K) (worker : W) (session : ClientSession) (msg : ValidatedOperationMessage)
  /-- The next step of a call. -/
  | advance (k : K)
  /-- The rate limiter or the replay guard turns a call away. -/
  | refuse (k : K) (retryAfterMs : Nat)
  /-- The append of a call throws. -/
  | throwAppend (k : K)
  /-- A JOIN asks a worker for the document. -/
  | join (worker : W)
  /-- The next step of a load. -/
  | load (worker : W) (n : Nat)
  | evict (worker : W)
  /-- The next publication reaches a worker's Redis handler. -/
  | deliver (worker : W)
  | forceSnapshot (worker : W)
  /-- The next step of a snapshot job. -/
  | job (i : Nat)
  /-- A job finds that no snapshot is due. -/
  | skipJob (i : Nat)

namespace WorkerPool

variable {W K : Type*}

/-- An empty document that no worker has loaded. -/
def start (snapshotOpsThreshold : Nat) : WorkerPool W K where
  snapshotOpsThreshold := snapshotOpsThreshold
  db := Database.empty
  workers := fun _ => Worker.start
  calls := fun _ => none
  jobs := []
  channel := []
  delivered := fun _ => 0

variable [DecidableEq W] [DecidableEq K]

/-- Another state of a worker. -/
def setWorker (s : WorkerPool W K) (w : W) (worker : Worker) : WorkerPool W K :=
  { s with workers := Function.update s.workers w worker }

/-- Another state of a call. -/
def setCall (s : WorkerPool W K) (k : K) (call : OperationCall W) : WorkerPool W K :=
  { s with calls := Function.update s.calls k (some call) }

/-- `getOrLoadDocument` on a worker. -/
def getOrLoadDocument (s : WorkerPool W K) (w : W) : WorkerPool W K × Nat :=
  let (worker, n) := (s.workers w).getOrLoadDocument
  (s.setWorker w worker, n)

/-- Calls `maybeTakeSnapshot` or `forceSnapshot`, which starts by asking for the document. -/
def startJob (s : WorkerPool W K) (w : W) (forced : Bool) : WorkerPool W K :=
  let (s, n) := s.getOrLoadDocument w
  { s with jobs := s.jobs ++ [⟨w, forced, .awaitDocument n⟩] }

/-! ### The steps of a call -/

/-- A call goes on to another await. -/
def callAt (s : WorkerPool W K) (k : K) (call : OperationCall W) (stage : CallStage) :
    WorkerPool W K :=
  s.setCall k { call with stage := stage }

/-- Step 5: apply to the entry of the load. -/
def applyOperation (s : WorkerPool W K) (k : K) (call : OperationCall W) (n : Nat)
    (loaded : Loaded) : WorkerPool W K :=
  let worker := (s.workers call.worker).mutate n fun entry =>
    { entry with doc := (entry.doc.applyOperation call.msg.op).1 }
  let applied := (loaded.entry.doc.applyOperation call.msg.op).2
  (s.setWorker call.worker worker).callAt k call (.applied n applied .appending)

/-- Step 6: the row is stored. -/
def appendOperation (s : WorkerPool W K) (k : K) (call : OperationCall W) (n : Nat) (ok : Bool) :
    WorkerPool W K :=
  let (db, envelope) := s.db.appendOperation call.params
  ({ s with db := db } : WorkerPool W K).callAt k call (.applied n ok (.appended envelope))

/-- Step 7: update whatever the cache holds by now. -/
def updateCache (s : WorkerPool W K) (k : K) (call : OperationCall W) (n : Nat) (ok : Bool)
    (envelope : OperationEnvelope) : WorkerPool W K :=
  let worker := (s.workers call.worker).updateCachedDocument fun entry =>
    { entry with lastSeq := envelope.seq, opsSinceSnapshot := entry.opsSinceSnapshot + 1 }
  (s.setWorker call.worker worker).callAt k call (.applied n ok (.publishing envelope))

/-- Step 8: the envelope goes out on the channel. -/
def publish (s : WorkerPool W K) (envelope : OperationEnvelope) : WorkerPool W K :=
  { s with channel := s.channel ++ [envelope] }

/-- The code of `handleOperation` from one await to the next. -/
def advanceCall (s : WorkerPool W K) (k : K) (call : OperationCall W) : Option (WorkerPool W K) :=
  match call.stage with
  | .rateLimit => some (s.callAt k call .replayCheck)
  | .replayCheck =>
      match call.siteIdMismatch with
      | some error => some (s.callAt k call (.failed error))
      | none =>
          let (s, n) := s.getOrLoadDocument call.worker
          some (s.callAt k call (.awaitDocument n))
  | .awaitDocument n => ((s.workers call.worker).loaded n).map (s.applyOperation k call n)
  | .applied n ok .appending => some (s.appendOperation k call n ok)
  | .applied n ok (.appended envelope) => some (s.updateCache k call n ok envelope)
  | .applied n ok (.publishing envelope) =>
      some ((s.publish envelope).callAt k call (.applied n ok (.published envelope)))
  | .applied n ok (.published envelope) =>
      -- step 9, and the call returns
      some ((s.startJob call.worker false).callAt k call (.applied n ok (.done envelope)))
  | .applied _ _ (.done _) => none
  | .applied _ _ .threw => none
  | .failed _ => none

/-- The append has not stored anything, and nothing catches its error before the message loop. -/
def throwAppend (s : WorkerPool W K) (k : K) (call : OperationCall W) : Option (WorkerPool W K) :=
  match call.stage with
  | .applied n ok .appending => some (s.callAt k call (.applied n ok .threw))
  | _ => none

/-- The rate limiter or the replay guard turns the call away. -/
def refuseCall (s : WorkerPool W K) (k : K) (call : OperationCall W) (retryAfterMs : Nat) :
    Option (WorkerPool W K) :=
  match call.stage with
  | .rateLimit => some (s.callAt k call (.failed (.rateLimited retryAfterMs)))
  | .replayCheck => some (s.callAt k call (.failed .replayDetected))
  | _ => none

/-! ### The steps of a snapshot job -/

/-- A job goes on to another await. -/
def jobAt (s : WorkerPool W K) (i : Nat) (job : SnapshotJob W) (stage : JobStage) :
    WorkerPool W K :=
  { s with jobs := s.jobs.set i { job with stage := stage } }

/-- Collects the tombstones of the entry and serializes what remains. -/
def collect (s : WorkerPool W K) (i : Nat) (job : SnapshotJob W) (n seq : Nat) (loaded : Loaded) :
    WorkerPool W K :=
  let worker := (s.workers job.worker).mutate n fun entry =>
    { entry with doc := entry.doc.gc.1 }
  (s.setWorker job.worker worker).jobAt i job (.saving n ⟨seq, loaded.entry.doc.gc.1.serialize⟩)

/-- The INSERT of `saveSnapshot`. -/
def saveSnapshot (s : WorkerPool W K) (i : Nat) (job : SnapshotJob W) (snapshot : SnapshotRecord) :
    WorkerPool W K :=
  let (db, stored) := s.db.insertSnapshot snapshot
  ({ s with db := db } : WorkerPool W K).jobAt i job
    (if stored then .saved else .conflict snapshot.seq)

/-- `updateCachedDocument` sets `opsSinceSnapshot` to zero. -/
def resetCounter (s : WorkerPool W K) (i : Nat) (job : SnapshotJob W) : WorkerPool W K :=
  let worker := (s.workers job.worker).updateCachedDocument fun entry =>
    { entry with opsSinceSnapshot := 0 }
  (s.setWorker job.worker worker).jobAt i job (if job.forced then .done else .pruning)

/-- Deletes all but the newest snapshots. -/
def pruneOldSnapshots (s : WorkerPool W K) (i : Nat) (job : SnapshotJob W) : WorkerPool W K :=
  ({ s with db := s.db.pruneSnapshots maxSnapshotsPerDoc } : WorkerPool W K).jobAt i job .done

/-- The code of a snapshot job from one await to the next. -/
def advanceJob (s : WorkerPool W K) (i : Nat) (job : SnapshotJob W) : Option (WorkerPool W K) :=
  match job.stage with
  | .awaitDocument n =>
      ((s.workers job.worker).loaded n).map fun _ => s.jobAt i job (.awaitMaxSeq n)
  | .awaitMaxSeq n => some (s.jobAt i job (.maxSeq n s.db.getMaxSeq))
  | .maxSeq n seq =>
      if seq = 0 then some (s.jobAt i job .done)
      else ((s.workers job.worker).loaded n).map (s.collect i job n seq)
  | .saving _ snapshot => some (s.saveSnapshot i job snapshot)
  | .conflict seq =>
      -- `saveSnapshot` throws unless the latest snapshot is the conflicting one
      match s.db.loadLatestSnapshot with
      | some existing => some (s.jobAt i job (if existing.seq = seq then .saved else .done))
      | none => some (s.jobAt i job .done)
  | .saved => some (s.resetCounter i job)
  | .pruning => some (s.pruneOldSnapshots i job)
  | .done => none

/-- `maybeTakeSnapshot` returns when neither threshold is reached. -/
def skipJob (s : WorkerPool W K) (i : Nat) (job : SnapshotJob W) : Option (WorkerPool W K) :=
  match job.forced, job.stage with
  | false, .awaitDocument n =>
      match (s.workers job.worker).loaded n with
      | none => none
      | some loaded =>
          if loaded.entry.opsSinceSnapshot < s.snapshotOpsThreshold then
            some (s.jobAt i job .done)
          else none
  | _, _ => none

/-- One action, if it can happen. -/
def step (s : WorkerPool W K) : PoolAction W K → Option (WorkerPool W K)
  | .begin k w session msg =>
      match s.calls k with
      | none => some (s.setCall k ⟨w, session, msg, .rateLimit⟩)
      | some _ => none
  | .advance k => (s.calls k).bind (s.advanceCall k)
  | .refuse k retryAfterMs => (s.calls k).bind fun call => s.refuseCall k call retryAfterMs
  | .throwAppend k => (s.calls k).bind (s.throwAppend k)
  | .join w => some (s.getOrLoadDocument w).1
  | .load w n => ((s.workers w).advanceLoad s.db n).map (s.setWorker w)
  | .evict w => some (s.setWorker w (s.workers w).evict)
  | .deliver w =>
      if s.delivered w < s.channel.length then
        some { s with delivered := Function.update s.delivered w (s.delivered w + 1) }
      else none
  | .forceSnapshot w => some (s.startJob w true)
  | .job i => (s.jobs[i]?).bind (s.advanceJob i)
  | .skipJob i => (s.jobs[i]?).bind (s.skipJob i)

/-- The state after a sequence of actions, if each of them is enabled. -/
def run (s : WorkerPool W K) (actions : List (PoolAction W K)) : Option (WorkerPool W K) :=
  actions.foldlM step s

/-! ## Reading a changed state -/

/-- A load of a worker. -/
def stageOf (s : WorkerPool W K) (w : W) (n : Nat) : Option LoadStage := (s.workers w).loads[n]?

/-- A resolved load of a worker. -/
def loaded (s : WorkerPool W K) (w : W) (n : Nat) : Option Loaded := (s.workers w).loaded n

omit [DecidableEq W] [DecidableEq K] in
lemma loaded_eq_some {s : WorkerPool W K} {w : W} {n : Nat} {l : Loaded} :
    s.loaded w n = some l ↔ s.stageOf w n = some (.resolved l) := Worker.loaded_eq_some

omit [DecidableEq W] in
@[simp] lemma calls_setCall_self (s : WorkerPool W K) (k : K) (call : OperationCall W) :
    (s.setCall k call).calls k = some call := Function.update_self ..

omit [DecidableEq W] in
lemma calls_setCall_of_ne (s : WorkerPool W K) {k k' : K} (h : k' ≠ k) (call : OperationCall W) :
    (s.setCall k call).calls k' = s.calls k' := Function.update_of_ne h ..

omit [DecidableEq W] in
@[simp] lemma calls_callAt_self (s : WorkerPool W K) (k : K) (call : OperationCall W)
    (stage : CallStage) : (s.callAt k call stage).calls k = some { call with stage := stage } :=
  Function.update_self ..

omit [DecidableEq W] in
lemma calls_callAt_of_ne (s : WorkerPool W K) {k k' : K} (h : k' ≠ k) (call : OperationCall W)
    (stage : CallStage) : (s.callAt k call stage).calls k' = s.calls k' :=
  Function.update_of_ne h ..

/-! The calls after each of the steps that change one. -/

lemma calls_applyOperation (s : WorkerPool W K) (k : K) (call : OperationCall W) (n : Nat)
    (loaded : Loaded) : (s.applyOperation k call n loaded).calls =
      Function.update s.calls k (some { call with
        stage := .applied n (loaded.entry.doc.applyOperation call.msg.op).2 .appending }) := rfl

omit [DecidableEq W] in
lemma calls_appendOperation (s : WorkerPool W K) (k : K) (call : OperationCall W) (n : Nat)
    (ok : Bool) : (s.appendOperation k call n ok).calls =
      Function.update s.calls k (some { call with
        stage := .applied n ok (.appended (s.db.appendOperation call.params).2) }) := rfl

lemma calls_updateCache (s : WorkerPool W K) (k : K) (call : OperationCall W) (n : Nat) (ok : Bool)
    (envelope : OperationEnvelope) : (s.updateCache k call n ok envelope).calls =
      Function.update s.calls k (some { call with
        stage := .applied n ok (.publishing envelope) }) := rfl

omit [DecidableEq K] in
lemma workers_setWorker (s : WorkerPool W K) (w w' : W) (worker : Worker) :
    (s.setWorker w worker).workers w' = if w' = w then worker else s.workers w' :=
  Function.update_apply ..

omit [DecidableEq K] in
/-- A mutation of one entry, seen from all loads. -/
lemma loaded_mutate (s : WorkerPool W K) (w w' : W) (n m : Nat)
    (f : CachedDocument → CachedDocument) :
    (s.setWorker w ((s.workers w).mutate n f)).loaded w' m =
      if w' = w ∧ m = n then (s.loaded w m).map fun l => { l with entry := f l.entry }
      else s.loaded w' m := by
  rw [loaded, workers_setWorker]
  by_cases hw : w' = w
  · subst hw
    rw [if_pos rfl, Worker.loaded_mutate]
    by_cases hm : m = n <;> simp [hm, loaded]
  · simp [hw, loaded]

omit [DecidableEq K] in
lemma stageOf_mutate (s : WorkerPool W K) (w w' : W) (n m : Nat)
    (f : CachedDocument → CachedDocument) :
    (s.setWorker w ((s.workers w).mutate n f)).stageOf w' m =
      if w' = w ∧ m = n then (s.stageOf w m).map (LoadStage.mutate f) else s.stageOf w' m := by
  rw [stageOf, workers_setWorker]
  by_cases hw : w' = w
  · subst hw
    rw [if_pos rfl, Worker.loads_mutate]
    by_cases hm : m = n <;> simp [hm, stageOf]
  · simp [hw, stageOf]

end WorkerPool

/-! ## First calls -/

/-- A session whose site is not the sentinel's. -/
structure Site where
  session : ClientSession
  siteId_ne_root : session.siteId ≠ rootUID.siteId

/-- A site by its name. -/
def Site.named (siteId : String) (h : JSString.lit siteId ≠ rootUID.siteId) : Site :=
  ⟨⟨JSString.lit siteId, JSString.lit "u", JSString.lit siteId⟩, h⟩

/-- The first site. -/
def Site.siteA : Site := .named "a" (by decide)

/-- The second one. -/
def Site.siteB : Site := .named "b" (by decide)

/-- The first character a site types into a new document. -/
def Site.first (site : Site) : ValidatedOperationMessage where
  docId := JSString.lit "d"
  clientSeq := 1
  op := .insert ⟨⟨1, site.session.siteId⟩, none, .string (JSString.lit "x")⟩
  nonce := site.session.siteId
  isEdit := trivial
  named_ne_root := by
    intro u hu hroot
    obtain rfl : u = ⟨1, site.session.siteId⟩ := by simpa [RGAOperation.named] using hu
    exact site.siteId_ne_root (congrArg UID.siteId hroot)

/-- A worker takes the call for it and loads the document. -/
def WorkerPool.beginAndLoad {W K : Type*} (k : K) (w : W) (site : Site) : List (PoolAction W K) :=
  [.begin k w site.session site.first, .advance k, .advance k, .load w 0, .load w 0, .load w 0]

end SyncEngine
