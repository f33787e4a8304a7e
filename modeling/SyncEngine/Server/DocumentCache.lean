import SyncEngine.Crdt.RgaDocument
import SyncEngine.Server.Persistence

/-!
# The document cache of a worker

One document in the cache of one worker (`server/sync/document-cache.ts`).  `getOrLoadDocument`
returns the cached entry, joins a load that is under way, or starts one; a load awaits the
latest snapshot, then the rows behind it, replays them and puts its entry into the cache.
Between two of these awaits anything can happen.

Promises are numbered by the list `loads`.  A resolved promise keeps its entry: callers hold on
to it and go on mutating it even after the cache has evicted it, so the entry lives in the load
and the cache only names a load.
-/

namespace SyncEngine

/-- What the cache holds for a document. -/
structure CachedDocument where
  doc : RGADocument
  lastSeq : Nat
  opsSinceSnapshot : Nat
deriving DecidableEq, Repr

/-! ## Loading -/

/-- The seq a load starts behind: `fromSeq - 1`. -/
def snapshotSeq : Option SnapshotRecord → Nat
  | some snapshot => snapshot.seq
  | none => 0

/-- The document a load starts from. -/
def snapshotDoc : Option SnapshotRecord → RGADocument
  | some snapshot => RGADocument.deserialize snapshot.data
  | none => RGADocument.empty

/-- The entry `loadDocumentFromDB` builds from what it has read. -/
def replayDelta (snapshot : Option SnapshotRecord) (deltaOps : List OperationEnvelope) :
    CachedDocument where
  doc := (snapshotDoc snapshot).applyOperations (deltaOps.map OperationEnvelope.op)
  lastSeq := deltaOps.foldl (fun lastSeq envelope => max lastSeq envelope.seq)
    (snapshotSeq snapshot)
  opsSinceSnapshot := deltaOps.length

/-- A load that is done: what it read, and the entry it built. -/
structure Loaded where
  snapshot : Option SnapshotRecord
  rows : List OperationEnvelope
  entry : CachedDocument
deriving DecidableEq

/-- How far a load has come. -/
inductive LoadStage where
  /-- Awaits `loadLatestSnapshot`. -/
  | awaitSnapshot
  /-- Awaits `loadOperationsAfterSeq`. -/
  | awaitOperations (snapshot : Option SnapshotRecord)
  /-- The rows have arrived. -/
  | replaying (snapshot : Option SnapshotRecord) (rows : List OperationEnvelope)
  /-- Resolved; the entry is shared by everybody who awaited it. -/
  | resolved (loaded : Loaded)
deriving DecidableEq

namespace LoadStage

/-- The next step of a load. -/
def next (db : Database) : LoadStage → Option LoadStage
  | .awaitSnapshot => some (.awaitOperations db.loadLatestSnapshot)
  | .awaitOperations snapshot =>
      some (.replaying snapshot (db.loadOperationsAfterSeq (snapshotSeq snapshot)))
  | .replaying snapshot rows => some (.resolved ⟨snapshot, rows, replayDelta snapshot rows⟩)
  | .resolved _ => none

/-- The mutator changes an entry in place, once there is one. -/
def mutate (f : CachedDocument → CachedDocument) : LoadStage → LoadStage
  | .resolved loaded => .resolved { loaded with entry := f loaded.entry }
  | stage => stage

/-- The snapshot and the rows the next step replays. -/
def toReplay : LoadStage → Option (Option SnapshotRecord × List OperationEnvelope)
  | .replaying snapshot rows => some (snapshot, rows)
  | _ => none

/-- The document a load under way starts from. -/
def startDoc : LoadStage → RGADocument
  | .awaitOperations snapshot => snapshotDoc snapshot
  | .replaying snapshot _ => snapshotDoc snapshot
  | _ => RGADocument.empty

/-- The promise of the load has resolved. -/
def isResolved : LoadStage → Bool
  | .resolved _ => true
  | _ => false

end LoadStage

/-! ## The cache -/

/-- The state of the cache module on one worker. -/
structure Worker where
  /-- All loads so far; the number of a load is its promise. -/
  loads : List LoadStage
  /-- The promise in `loadingPromises`. -/
  loadingPromise : Option Nat
  /-- The load whose entry is in the LRU cache. -/
  cache : Option Nat
deriving DecidableEq

namespace Worker

/-- A worker that has loaded nothing. -/
def start : Worker := ⟨[], none, none⟩

/-- A resolved load. -/
def loaded (w : Worker) (n : Nat) : Option Loaded :=
  match w.loads[n]? with
  | some (.resolved loaded) => some loaded
  | _ => none

/-- Mutates the entry of a resolved load. -/
def mutate (w : Worker) (n : Nat) (f : CachedDocument → CachedDocument) : Worker :=
  { w with loads := w.loads.modify n (LoadStage.mutate f) }

/-- Returns the load whose entry the caller gets. -/
def getOrLoadDocument (w : Worker) : Worker × Nat :=
  match w.cache, w.loadingPromise with
  | some n, _ => (w, n)
  | none, some n => (w, n)
  | none, none =>
      ({ w with loads := w.loads ++ [.awaitSnapshot], loadingPromise := some w.loads.length },
        w.loads.length)

/-- One step of a load; the last one puts the entry into the cache. -/
def advanceLoad (w : Worker) (db : Database) (n : Nat) : Option Worker := do
  let stage ← w.loads[n]?
  let stage ← stage.next db
  some
    { loads := w.loads.set n stage
      loadingPromise := if stage.isResolved then none else w.loadingPromise
      cache := if stage.isResolved then some n else w.cache }

/-- `updateCachedDocument`: mutates the cached entry, if there is one. -/
def updateCachedDocument (w : Worker) (mutator : CachedDocument → CachedDocument) : Worker :=
  match w.cache with
  | some n => w.mutate n mutator
  | none => w

/-- The LRU cache drops its entry. -/
def evict (w : Worker) : Worker := { w with cache := none }

/-! ## The loads after each of these -/

lemma loaded_eq_some {w : Worker} {n : Nat} {l : Loaded} :
    w.loaded n = some l ↔ w.loads[n]? = some (.resolved l) := by
  rw [loaded]
  split
  · rename_i h
    simp [h]
  · rename_i h
    constructor
    · simp
    · exact fun h' => absurd h' (h l)

lemma loads_mutate (w : Worker) (n m : Nat) (f : CachedDocument → CachedDocument) :
    (w.mutate n f).loads[m]? =
      if m = n then (w.loads[m]?).map (LoadStage.mutate f) else w.loads[m]? := by
  rw [mutate, List.getElem?_modify]
  by_cases h : m = n
  · simp [h]
  · simp [h, Ne.symm h]

@[simp] lemma cache_mutate (w : Worker) (n : Nat) (f : CachedDocument → CachedDocument) :
    (w.mutate n f).cache = w.cache := rfl

/-- A mutation changes the entry of its load and nothing else. -/
lemma loaded_mutate (w : Worker) (n m : Nat) (f : CachedDocument → CachedDocument) :
    (w.mutate n f).loaded m =
      if m = n then (w.loaded m).map fun l => { l with entry := f l.entry } else w.loaded m := by
  rw [loaded, loaded, loads_mutate]
  by_cases h : m = n
  · simp only [h, if_true]
    cases hstage : w.loads[n]? with
    | none => rfl
    | some stage => cases stage <;> rfl
  · simp only [h, if_false]

@[simp] lemma cache_getOrLoadDocument (w : Worker) : w.getOrLoadDocument.1.cache = w.cache := by
  rw [getOrLoadDocument]
  split <;> simp_all

/-- A step of a load moves that load to its next stage. -/
lemma advanceLoad_eq_some {w w' : Worker} {db : Database} {n : Nat}
    (h : w.advanceLoad db n = some w') :
    ∃ stage stage', w.loads[n]? = some stage ∧ stage.next db = some stage' ∧
      (∀ m, w'.loads[m]? = if m = n then some stage' else w.loads[m]?) ∧
      w'.cache = if stage'.isResolved then some n else w.cache := by
  rw [advanceLoad] at h
  obtain ⟨stage, hstage, h⟩ := Option.bind_eq_some_iff.mp h
  obtain ⟨stage', hnext, h⟩ := Option.bind_eq_some_iff.mp h
  obtain rfl := Option.some.inj h
  refine ⟨stage, stage', hstage, hnext, fun m => ?_, rfl⟩
  have hlt : n < w.loads.length := (List.getElem?_eq_some_iff.mp hstage).1
  by_cases hm : m = n
  · subst hm
    simp [List.getElem?_set_self hlt]
  · simp [hm, List.getElem?_set_ne (Ne.symm hm)]

end Worker

end SyncEngine
