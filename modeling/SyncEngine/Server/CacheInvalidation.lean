import SyncEngine.Lib.Transition
import SyncEngine.Server.OfflineMerger

/-!
# Invalidating a cached document

Calls of `getOrLoadDocument` on one worker, interleaved at their awaits with changes of the
database and with `invalidateDocument` (`server/sync/document-cache.ts`), which a restore calls
after its transaction (`server/api/routes/restore.ts`).

`invalidateDocument` deletes the cache entry and leaves the load in flight alone.  Whoever comes
next joins that load, and its entry goes into the cache, whatever it has read.

* A call yields a document read after the last invalidation in every run in which the load in
  flight, at each invalidation, has read nothing that the database no longer holds
  (`invalidation_final`).
* The calls between two invalidations share one entry in every run (`sharing_of_reach`): there is
  never an entry while a load is in flight, and a call finds the one or the other.
* A load that read before a restore and ended after it is the counterexample
  (`not_forall_invalidation_final`).
-/

namespace SyncEngine

open Transition

/-- `invalidateDocument`: `cache.delete(docId)`. -/
def Worker.invalidateDocument (w : Worker) : Worker := w.evict

/-- What the load has read is what it would read now. -/
def LoadStage.UpToDate (db : Database) : LoadStage → Prop
  | .awaitOperations snapshot => snapshot = db.loadLatestSnapshot
  | .replaying snapshot rows =>
      snapshot = db.loadLatestSnapshot ∧ rows = db.loadOperationsAfterSeq (snapshotSeq snapshot)
  | _ => True

instance (db : Database) : (stage : LoadStage) → Decidable (stage.UpToDate db)
  | .awaitSnapshot => inferInstanceAs (Decidable True)
  | .awaitOperations _ => inferInstanceAs (Decidable (_ = _))
  | .replaying _ _ => inferInstanceAs (Decidable (_ ∧ _))
  | .resolved _ => inferInstanceAs (Decidable True)

/-! ## Runs -/

/-- A call of `getOrLoadDocument`. -/
structure CacheCall where
  /-- The load whose promise it awaits, or whose entry it found. -/
  load : Nat
  /-- How many invalidations had returned when it started. -/
  invalidations : Nat
  /-- The database state, by its number, at the last of them. -/
  since : Nat
deriving DecidableEq

/-- The cache of one worker, the database under it, and the calls so far. -/
structure CacheRun where
  worker : Worker
  /-- The earlier states of the database. -/
  past : List Database
  db : Database
  invalidations : Nat
  /-- The number of the database state at the last invalidation, at first that of the start. -/
  invalidatedAt : Nat
  calls : List CacheCall
deriving DecidableEq

/-- What callers, the database or the load in flight do. -/
inductive CacheAction where
  /-- A call of `getOrLoadDocument`. -/
  | getOrLoad
  /-- The next await of the load in flight is over. -/
  | load
  /-- The load in flight throws. -/
  | fail
  /-- Something changes the database. -/
  | write (db : Database)
  | invalidate

namespace CacheRun

/-- A worker without an entry, on some database. -/
def start (db : Database) : CacheRun := ⟨Worker.start, [], db, 0, 0, []⟩

/-- All states of the database, the current one last. -/
def databases (s : CacheRun) : List Database := s.past ++ [s.db]

/-- One action, if it can happen. -/
def step (s : CacheRun) : CacheAction → Option CacheRun
  | .getOrLoad =>
      let (worker, n) := s.worker.getOrLoadDocument
      some { s with
        worker := worker
        calls := s.calls ++ [⟨n, s.invalidations, s.invalidatedAt⟩] }
  | .load => do
      let n ← s.worker.loadingPromise
      let worker ← s.worker.advanceLoad s.db n
      some { s with worker := worker }
  | .fail => do
      let _ ← s.worker.loadingPromise
      some { s with worker := { s.worker with loadingPromise := none } }
  | .write db => some { s with past := s.past ++ [s.db], db := db }
  | .invalidate =>
      some { s with
        worker := s.worker.invalidateDocument
        invalidations := s.invalidations + 1
        invalidatedAt := s.past.length }

/-- The load in flight, if there is one, has read nothing that the database no longer holds. -/
def LoadUpToDate (s : CacheRun) : Prop :=
  ∀ stage ∈ s.worker.loadingPromise.bind (s.worker.loads[·]?), stage.UpToDate s.db

instance (s : CacheRun) : Decidable s.LoadUpToDate :=
  match h : s.worker.loadingPromise.bind (s.worker.loads[·]?) with
  | none => isTrue (by simp [LoadUpToDate, h])
  | some stage => decidable_of_iff (stage.UpToDate s.db) (by simp [LoadUpToDate, h])

/-- Invalidations happen only then. -/
def allowed (s : CacheRun) : CacheAction → Prop
  | .invalidate => s.LoadUpToDate
  | _ => True

instance (s : CacheRun) : (a : CacheAction) → Decidable (s.allowed a)
  | .getOrLoad => inferInstanceAs (Decidable True)
  | .load => inferInstanceAs (Decidable True)
  | .fail => inferInstanceAs (Decidable True)
  | .write _ => inferInstanceAs (Decidable True)
  | .invalidate => inferInstanceAs (Decidable s.LoadUpToDate)

/-! ## What a load has read -/

/-- The snapshot was read from a database state no earlier than number `t`. -/
def SnapshotSince (databases : List Database) (t : Nat) (snapshot : Option SnapshotRecord) : Prop :=
  ∃ t' db, t ≤ t' ∧ databases[t']? = some db ∧ snapshot = db.loadLatestSnapshot

/-- So were the rows behind it. -/
def RowsSince (databases : List Database) (t : Nat) (snapshot : Option SnapshotRecord)
    (rows : List OperationEnvelope) : Prop :=
  ∃ t' db, t ≤ t' ∧ databases[t']? = some db ∧
    rows = db.loadOperationsAfterSeq (snapshotSeq snapshot)

/-- All that a load has read, it has read no earlier than in state `t`; a resolved one has built
its entry from that. -/
def ReadSince (databases : List Database) (t : Nat) : LoadStage → Prop
  | .awaitSnapshot => True
  | .awaitOperations snapshot => SnapshotSince databases t snapshot
  | .replaying snapshot rows =>
      SnapshotSince databases t snapshot ∧ RowsSince databases t snapshot rows
  | .resolved l =>
      SnapshotSince databases t l.snapshot ∧ RowsSince databases t l.snapshot l.rows ∧
        l.entry = replayDelta l.snapshot l.rows

/-- **Invalidation is final**: what a call yields was read no earlier than at the invalidation
before it, and all calls between two invalidations yield one entry. -/
structure Final (s : CacheRun) : Prop where
  since : ∀ c ∈ s.calls, ∀ l, s.worker.loaded c.load = some l →
    ReadSince s.databases c.since (.resolved l)
  shared : ∀ c ∈ s.calls, ∀ c' ∈ s.calls, c.invalidations = c'.invalidations →
    (s.worker.loaded c.load).isSome → (s.worker.loaded c'.load).isSome → c.load = c'.load

end CacheRun

/-! ## The steps of the cache -/

namespace Worker

variable {w w' : Worker} {db : Database} {n : Nat}

/-- A call finds an entry, joins the load in flight, or starts one. -/
lemma getOrLoadDocument_cases (w : Worker) :
    (∃ n, (w.cache = some n ∨ w.cache = none ∧ w.loadingPromise = some n) ∧
        w.getOrLoadDocument = (w, n)) ∨
      (w.cache = none ∧ w.loadingPromise = none ∧
        w.getOrLoadDocument =
          ({ w with
              loads := w.loads ++ [.awaitSnapshot]
              loadingPromise := some w.loads.length }, w.loads.length)) := by
  rw [getOrLoadDocument]
  split
  · rename_i n hcache
    exact Or.inl ⟨n, Or.inl hcache, rfl⟩
  · rename_i n hcache hloading
    exact Or.inl ⟨n, Or.inr ⟨hcache, hloading⟩, rfl⟩
  · rename_i hcache hloading
    exact Or.inr ⟨hcache, hloading, rfl⟩

lemma length_advanceLoad (h : w.advanceLoad db n = some w') :
    w'.loads.length = w.loads.length := by
  rw [advanceLoad] at h
  obtain ⟨old, -, h⟩ := Option.bind_eq_some_iff.mp h
  obtain ⟨stage', -, h⟩ := Option.bind_eq_some_iff.mp h
  obtain rfl := Option.some.inj h
  exact List.length_set

lemma loadingPromise_advanceLoad (h : w.advanceLoad db n = some w') {stage : LoadStage}
    (hstage : w'.loads[n]? = some stage) :
    w'.loadingPromise = if stage.isResolved then none else w.loadingPromise := by
  rw [advanceLoad] at h
  obtain ⟨old, hold, h⟩ := Option.bind_eq_some_iff.mp h
  obtain ⟨stage', -, h⟩ := Option.bind_eq_some_iff.mp h
  obtain rfl := Option.some.inj h
  rw [List.getElem?_set_self (List.getElem?_eq_some_iff.mp hold).1] at hstage
  rw [Option.some.inj hstage]

end Worker

namespace CacheRun

variable {s s' : CacheRun} {a : CacheAction}

/-! ## What a load has read -/

lemma SnapshotSince.mono {databases more : List Database} {t : Nat}
    {snapshot : Option SnapshotRecord} (h : SnapshotSince databases t snapshot) :
    SnapshotSince (databases ++ more) t snapshot := by
  obtain ⟨t', db, hle, hdb, hread⟩ := h
  exact ⟨t', db, hle, List.getElem?_append_left (List.getElem?_eq_some_iff.mp hdb).1 ▸ hdb, hread⟩

lemma RowsSince.mono {databases more : List Database} {t : Nat}
    {snapshot : Option SnapshotRecord} {rows : List OperationEnvelope}
    (h : RowsSince databases t snapshot rows) : RowsSince (databases ++ more) t snapshot rows := by
  obtain ⟨t', db, hle, hdb, hread⟩ := h
  exact ⟨t', db, hle, List.getElem?_append_left (List.getElem?_eq_some_iff.mp hdb).1 ▸ hdb, hread⟩

lemma ReadSince.mono {databases more : List Database} {t : Nat} {stage : LoadStage}
    (h : ReadSince databases t stage) : ReadSince (databases ++ more) t stage := by
  cases stage with
  | awaitSnapshot => trivial
  | awaitOperations snapshot => exact SnapshotSince.mono h
  | replaying snapshot rows => exact ⟨h.1.mono, h.2.mono⟩
  | resolved l => exact ⟨h.1.mono, h.2.1.mono, h.2.2⟩

lemma ReadSince.next {t : Nat} {stage stage' : LoadStage} (h : ReadSince s.databases t stage)
    (ht : t ≤ s.past.length) (hnext : stage.next s.db = some stage') :
    ReadSince s.databases t stage' := by
  have hdb : s.databases[s.past.length]? = some s.db := by simp [databases]
  cases stage with
  | awaitSnapshot =>
      obtain rfl := Option.some.inj hnext
      exact ⟨_, _, ht, hdb, rfl⟩
  | awaitOperations snapshot =>
      obtain rfl := Option.some.inj hnext
      exact ⟨h, _, _, ht, hdb, rfl⟩
  | replaying snapshot rows =>
      obtain rfl := Option.some.inj hnext
      exact ⟨h.1, h.2, rfl⟩
  | resolved l => exact absurd hnext (by simp [LoadStage.next])

lemma readSince_of_upToDate {stage : LoadStage} (h : stage.UpToDate s.db)
    (hopen : stage.isResolved = false) : ReadSince s.databases s.past.length stage := by
  have hdb : s.databases[s.past.length]? = some s.db := by simp [databases]
  cases stage with
  | awaitSnapshot => trivial
  | awaitOperations snapshot => exact ⟨_, _, le_rfl, hdb, h⟩
  | replaying snapshot rows => exact ⟨⟨_, _, le_rfl, hdb, h.1⟩, _, _, le_rfl, hdb, h.2⟩
  | resolved l => exact absurd hopen (by simp [LoadStage.isResolved])

/-! ## The entry and the load in flight -/

/-- The load has failed: it will not come to an entry. -/
def Dead (w : Worker) (n : Nat) : Prop := w.loaded n = none ∧ w.loadingPromise ≠ some n

/-- There is an entry or a load in flight, never both.  Whoever called since the last
invalidation has it, unless the load failed; and so it was before every invalidation. -/
structure Sharing (s : CacheRun) : Prop where
  exclusive : s.worker.cache = none ∨ s.worker.loadingPromise = none
  started : ∀ n, s.worker.cache = some n ∨ s.worker.loadingPromise = some n →
    n < s.worker.loads.length
  inFlight : ∀ n, s.worker.loadingPromise = some n → s.worker.loaded n = none
  load_lt : ∀ c ∈ s.calls, c.load < s.worker.loads.length
  invalidations_le : ∀ c ∈ s.calls, c.invalidations ≤ s.invalidations
  current : ∀ c ∈ s.calls, c.invalidations = s.invalidations →
    Dead s.worker c.load ∨ s.worker.cache = some c.load ∨ s.worker.loadingPromise = some c.load
  shared : ∀ c ∈ s.calls, ∀ c' ∈ s.calls, c.invalidations = c'.invalidations →
    c.load = c'.load ∨ Dead s.worker c.load ∨ Dead s.worker c'.load

lemma sharing_start (db : Database) : Sharing (start db) := by
  constructor <;> simp [start, Worker.start]

/-- A step that adds no call and fails no load but dead ones. -/
lemma Sharing.congr (h : Sharing s) (hcalls : s'.calls = s.calls)
    (hinvalidations : s'.invalidations = s.invalidations)
    (hloads : s'.worker.loads.length = s.worker.loads.length)
    (hexclusive : s'.worker.cache = none ∨ s'.worker.loadingPromise = none)
    (hopen : ∀ n, s'.worker.loadingPromise = some n → s'.worker.loaded n = none)
    (hdead : ∀ n, Dead s.worker n → Dead s'.worker n)
    (hold : ∀ n, s'.worker.cache = some n ∨ s'.worker.loadingPromise = some n →
      s.worker.cache = some n ∨ s.worker.loadingPromise = some n)
    (hcurrent : ∀ n, s.worker.cache = some n ∨ s.worker.loadingPromise = some n →
      Dead s'.worker n ∨ s'.worker.cache = some n ∨ s'.worker.loadingPromise = some n) :
    Sharing s' where
  exclusive := hexclusive
  started := fun n hn => hloads ▸ h.started n (hold n hn)
  inFlight := hopen
  load_lt := by
    rw [hcalls, hloads]
    exact h.load_lt
  invalidations_le := by
    rw [hcalls, hinvalidations]
    exact h.invalidations_le
  current := by
    rw [hcalls, hinvalidations]
    intro c hc hnow
    exact (h.current c hc hnow).elim (fun hc => Or.inl (hdead _ hc)) (hcurrent _)
  shared := by
    rw [hcalls]
    exact fun c hc c' hc' hsame =>
      (h.shared c hc c' hc' hsame).imp_right fun h => h.imp (hdead _) (hdead _)

/-- A call that gets the load which every call since the last invalidation has. -/
lemma Sharing.called (h : Sharing s) {w : Worker} {n : Nat}
    (hloads : s.worker.loads.length ≤ w.loads.length) (hlt : n < w.loads.length)
    (hexclusive : w.cache = none ∨ w.loadingPromise = none)
    (hopen : ∀ m, w.loadingPromise = some m → w.loaded m = none)
    (hdead : ∀ m < s.worker.loads.length, Dead s.worker m → Dead w m)
    (hn : w.cache = some n ∨ w.loadingPromise = some n)
    (hfirst : ∀ c ∈ s.calls, c.invalidations = s.invalidations → Dead w c.load ∨ c.load = n) :
    Sharing { s with
      worker := w
      calls := s.calls ++ [⟨n, s.invalidations, s.invalidatedAt⟩] } where
  exclusive := hexclusive
  started := by
    intro m hm
    suffices heq : m = n from heq ▸ hlt
    rcases hexclusive with hnone | hnone
    · -- no entry: the call has the load that is in flight
      have hn' := hn.resolve_left (by simp [hnone])
      exact Option.some.inj ((hm.resolve_left (by simp [hnone])).symm.trans hn')
    · have hn' := hn.resolve_right (by simp [hnone])
      exact Option.some.inj ((hm.resolve_right (by simp [hnone])).symm.trans hn')
  inFlight := hopen
  load_lt := by
    intro c hc
    rcases List.mem_append.mp hc with hc | hc
    · exact (h.load_lt c hc).trans_le hloads
    · obtain rfl := List.mem_singleton.mp hc
      exact hlt
  invalidations_le := by
    intro c hc
    rcases List.mem_append.mp hc with hc | hc
    · exact h.invalidations_le c hc
    · obtain rfl := List.mem_singleton.mp hc
      exact le_refl s.invalidations
  current := by
    intro c hc hnow
    rcases List.mem_append.mp hc with hc | hc
    · refine (hfirst c hc hnow).imp_right fun heq => ?_
      rw [heq]
      exact hn
    · obtain rfl := List.mem_singleton.mp hc
      exact Or.inr hn
  shared := by
    intro c hc c' hc' hsame
    rcases List.mem_append.mp hc with hc | hc <;> rcases List.mem_append.mp hc' with hc' | hc'
    · exact (h.shared c hc c' hc' hsame).imp_right fun h' =>
        h'.imp (hdead _ (h.load_lt c hc)) (hdead _ (h.load_lt c' hc'))
    · obtain rfl := List.mem_singleton.mp hc'
      exact (hfirst c hc hsame).elim (fun hdead => Or.inr (Or.inl hdead)) Or.inl
    · obtain rfl := List.mem_singleton.mp hc
      exact (hfirst c' hc' hsame.symm).elim (fun hdead => Or.inr (Or.inr hdead))
        fun heq => Or.inl heq.symm
    · rw [List.mem_singleton.mp hc, List.mem_singleton.mp hc']
      exact Or.inl rfl

/-- A call finds what the calls since the last invalidation have, or it is the first of them
whose load may come to an entry. -/
lemma Sharing.getOrLoad (h : Sharing s) (hstep : s.step .getOrLoad = some s') : Sharing s' := by
  simp only [CacheRun.step, Option.some.injEq] at hstep
  subst hstep
  rcases s.worker.getOrLoadDocument_cases with ⟨n, hn, heq⟩ | ⟨hcache, hloading, heq⟩
  · rw [heq]
    have hn' : s.worker.cache = some n ∨ s.worker.loadingPromise = some n :=
      hn.imp_right And.right
    refine h.called le_rfl (h.started n hn') h.exclusive h.inFlight (fun _ _ => id) hn'
      fun c hc hnow => ?_
    rcases h.current c hc hnow, hn with ⟨hdead | hcached | hopen, hn | ⟨hnone, hn⟩⟩
    · exact Or.inl hdead
    · exact Or.inl hdead
    · exact Or.inr (Option.some.inj (hcached.symm.trans hn))
    · simp [hnone] at hcached
    · rcases h.exclusive with hnone | hnone <;> simp_all
    · exact Or.inr (Option.some.inj (hopen.symm.trans hn))
  · rw [heq]
    have hdead : ∀ m < s.worker.loads.length, Dead s.worker m →
        Dead { s.worker with
          loads := s.worker.loads ++ [.awaitSnapshot]
          loadingPromise := some s.worker.loads.length } m := by
      rintro m hm ⟨hnone, -⟩
      refine ⟨?_, fun heq => hm.ne' (Option.some.inj heq)⟩
      rwa [Worker.loaded, List.getElem?_append_left hm, ← Worker.loaded]
    have hopen : ∀ m, some s.worker.loads.length = some m →
        ({ s.worker with
          loads := s.worker.loads ++ [.awaitSnapshot]
          loadingPromise := some s.worker.loads.length } : Worker).loaded m = none := by
      rintro m hm
      obtain rfl := Option.some.inj hm
      simp [Worker.loaded]
    refine h.called (by simp) (by simp) (Or.inl hcache) hopen hdead (Or.inr rfl)
      fun c hc hnow => ?_
    refine Or.inl (hdead _ (h.load_lt c hc) ?_)
    rcases h.current c hc hnow with hdead | hcached | hopen
    · exact hdead
    · simp [hcache] at hcached
    · simp [hloading] at hopen

/-- The load in flight goes on, and may come to its entry. -/
lemma Sharing.load (h : Sharing s) (hstep : s.step .load = some s') : Sharing s' := by
  obtain ⟨n, hn, hstep⟩ := Option.bind_eq_some_iff.mp hstep
  obtain ⟨w, hw, hstep⟩ := Option.bind_eq_some_iff.mp hstep
  obtain rfl := Option.some.inj hstep
  have hnone : s.worker.cache = none := h.exclusive.resolve_right (by simp [hn])
  obtain ⟨stage, stage', hstage, -, hloads, hcache⟩ := Worker.advanceLoad_eq_some hw
  have hstage' : w.loads[n]? = some stage' := (hloads n).trans (if_pos rfl)
  have hloading := Worker.loadingPromise_advanceLoad hw hstage'
  rw [hnone] at hcache
  rw [hn] at hloading
  have hhas : ∀ m, s.worker.cache = some m ∨ s.worker.loadingPromise = some m ↔ m = n := by
    simp [hnone, hn, eq_comm]
  have hhas' : ∀ m, w.cache = some m ∨ w.loadingPromise = some m ↔ m = n := by
    cases hresolved : stage'.isResolved <;> simp [hcache, hloading, hresolved, eq_comm]
  refine h.congr rfl rfl (Worker.length_advanceLoad hw) ?_ ?_ ?_ ?_ ?_
  · cases hresolved : stage'.isResolved <;> simp [hcache, hloading, hresolved]
  · intro m hm
    obtain rfl := (hhas' m).mp (Or.inr hm)
    rw [Worker.loaded, hstage']
    cases stage' with
    | resolved l => simp [hloading, LoadStage.isResolved] at hm
    | _ => rfl
  · rintro m ⟨hm, hne⟩
    have hmn : m ≠ n := fun heq => hne (heq ▸ hn)
    refine ⟨?_, fun heq => hmn ((hhas' m).mp (Or.inr heq))⟩
    show w.loaded m = none
    rwa [Worker.loaded, hloads m, if_neg hmn, ← Worker.loaded]
  · exact fun m hm => (hhas m).mpr ((hhas' m).mp hm)
  · exact fun m hm => Or.inr ((hhas' m).mpr ((hhas m).mp hm))

/-- **Sharing**: every step keeps it, whether it is allowed or not. -/
theorem Sharing.step (h : Sharing s) (hstep : s.step a = some s') : Sharing s' := by
  cases a with
  | getOrLoad => exact h.getOrLoad hstep
  | load => exact h.load hstep
  | fail =>
      obtain ⟨n, hn, hstep⟩ := Option.bind_eq_some_iff.mp hstep
      obtain rfl := Option.some.inj hstep
      have hnone : s.worker.cache = none := h.exclusive.resolve_right (by simp [hn])
      refine h.congr rfl rfl rfl (Or.inl hnone) (by simp) (fun m hm => ⟨hm.1, by simp⟩)
        (by simp [hnone]) fun m hm => Or.inl ⟨h.inFlight m ?_, by simp⟩
      exact hm.resolve_left (by simp [hnone])
  | write db =>
      obtain rfl := Option.some.inj hstep
      exact h.congr rfl rfl rfl h.exclusive h.inFlight (fun _ => id) (fun _ => id) fun _ => Or.inr
  | invalidate =>
      obtain rfl := Option.some.inj hstep
      refine ⟨Or.inl rfl, fun n hn => ?_, h.inFlight, h.load_lt, fun c hc => ?_,
        fun c hc hnow => ?_, h.shared⟩
      · refine h.started n (Or.inr (hn.resolve_left ?_))
        simp [Worker.invalidateDocument, Worker.evict]
      · exact (h.invalidations_le c hc).trans (Nat.le_succ _)
      · have hle := h.invalidations_le c hc
        simp only at hnow
        omega

/-! ## Fresh reads -/

/-- Every call has a load that read nothing older than the last invalidation before the call, and
so do the calls to come. -/
structure Fresh (s : CacheRun) : Prop where
  calls : ∀ c ∈ s.calls, c.since ≤ s.past.length ∧
    ∃ stage, s.worker.loads[c.load]? = some stage ∧ ReadSince s.databases c.since stage
  cached : ∀ n, s.worker.cache = some n →
    ∃ stage, s.worker.loads[n]? = some stage ∧ ReadSince s.databases s.invalidatedAt stage
  inFlight : ∀ n, s.worker.loadingPromise = some n →
    ∃ stage, s.worker.loads[n]? = some stage ∧ stage.isResolved = false ∧
      ReadSince s.databases s.invalidatedAt stage
  invalidatedAt_le : s.invalidatedAt ≤ s.past.length

lemma fresh_start (db : Database) : Fresh (start db) := by
  constructor <;> simp [start, Worker.start]

lemma Fresh.getOrLoad (h : Fresh s) (hstep : s.step .getOrLoad = some s') : Fresh s' := by
  simp only [CacheRun.step, Option.some.injEq] at hstep
  subst hstep
  rcases s.worker.getOrLoadDocument_cases with ⟨n, hn, heq⟩ | ⟨hcache, hloading, heq⟩
  · rw [heq]
    have hread : ∃ stage, s.worker.loads[n]? = some stage ∧
        ReadSince s.databases s.invalidatedAt stage := by
      rcases hn with hn | ⟨-, hn⟩
      · exact h.cached n hn
      · obtain ⟨stage, hstage, -, hread⟩ := h.inFlight n hn
        exact ⟨stage, hstage, hread⟩
    refine ⟨fun c hc => ?_, h.cached, h.inFlight, h.invalidatedAt_le⟩
    rcases List.mem_append.mp hc with hc | hc
    · exact h.calls c hc
    · obtain rfl := List.mem_singleton.mp hc
      exact ⟨h.invalidatedAt_le, hread⟩
  · rw [heq]
    refine ⟨fun c hc => ?_, fun n hn => ?_, fun n hn => ?_, h.invalidatedAt_le⟩
    · rcases List.mem_append.mp hc with hc | hc
      · obtain ⟨hle, stage, hstage, hread⟩ := h.calls c hc
        have hlt := (List.getElem?_eq_some_iff.mp hstage).1
        exact ⟨hle, stage, (List.getElem?_append_left hlt).trans hstage, hread⟩
      · obtain rfl := List.mem_singleton.mp hc
        exact ⟨h.invalidatedAt_le, .awaitSnapshot, by simp, trivial⟩
    · exact absurd hn (by simp [hcache])
    · obtain rfl := Option.some.inj hn
      exact ⟨.awaitSnapshot, by simp, rfl, trivial⟩

lemma Fresh.load (h : Fresh s) (hstep : s.step .load = some s') : Fresh s' := by
  obtain ⟨n, hn, hstep⟩ := Option.bind_eq_some_iff.mp hstep
  obtain ⟨w, hw, hstep⟩ := Option.bind_eq_some_iff.mp hstep
  obtain rfl := Option.some.inj hstep
  obtain ⟨stage, stage', hstage, hnext, hloads, hcache⟩ := Worker.advanceLoad_eq_some hw
  have hstage' : w.loads[n]? = some stage' := (hloads n).trans (if_pos rfl)
  have hloading := Worker.loadingPromise_advanceLoad hw hstage'
  -- a stage that was good enough for `t` is followed by one that is
  have hread : ∀ m t : Nat, t ≤ s.past.length →
      (∃ stage, s.worker.loads[m]? = some stage ∧ ReadSince s.databases t stage) →
      ∃ stage, w.loads[m]? = some stage ∧ ReadSince s.databases t stage := by
    rintro m t ht ⟨old, hold, hread⟩
    by_cases hm : m = n
    · subst hm
      obtain rfl := Option.some.inj (hstage.symm.trans hold)
      exact ⟨stage', hstage', hread.next ht hnext⟩
    · exact ⟨old, by rw [hloads m, if_neg hm, hold], hread⟩
  have hself : ReadSince s.databases s.invalidatedAt stage' := by
    obtain ⟨old, hold, -, hnow⟩ := h.inFlight n hn
    obtain rfl := Option.some.inj (hstage.symm.trans hold)
    exact hnow.next h.invalidatedAt_le hnext
  refine ⟨fun c hc => ?_, fun m hm => ?_, fun m hm => ?_, h.invalidatedAt_le⟩
  · exact ⟨(h.calls c hc).1, hread _ _ (h.calls c hc).1 (h.calls c hc).2⟩
  · change w.cache = some m at hm
    rw [hcache] at hm
    split at hm
    · obtain rfl := Option.some.inj hm
      exact ⟨stage', hstage', hself⟩
    · exact hread m _ h.invalidatedAt_le (h.cached m hm)
  · change w.loadingPromise = some m at hm
    rw [hloading] at hm
    split at hm
    · simp at hm
    · rename_i hopen
      obtain rfl := Option.some.inj (hn.symm.trans hm)
      exact ⟨stage', hstage', by simpa using hopen, hself⟩

/-- An invalidation forgets the entry; the load in flight might as well start over. -/
lemma Fresh.invalidate (h : Fresh s) (hallowed : s.LoadUpToDate)
    (hstep : s.step .invalidate = some s') : Fresh s' := by
  obtain rfl := Option.some.inj hstep
  refine ⟨h.calls, by simp [Worker.invalidateDocument, Worker.evict], fun n hn => ?_, le_rfl⟩
  obtain ⟨stage, hstage, hopen, -⟩ := h.inFlight n hn
  have hfound : s.worker.loadingPromise.bind (s.worker.loads[·]?) = some stage := by
    change s.worker.loadingPromise = some n at hn
    rw [hn, Option.bind_some, hstage]
  exact ⟨stage, hstage, hopen, readSince_of_upToDate (hallowed stage hfound) hopen⟩

lemma Fresh.step (h : Fresh s) (hallowed : s.allowed a) (hstep : s.step a = some s') :
    Fresh s' := by
  cases a with
  | getOrLoad => exact h.getOrLoad hstep
  | load => exact h.load hstep
  | fail =>
      obtain ⟨n, -, hstep⟩ := Option.bind_eq_some_iff.mp hstep
      obtain rfl := Option.some.inj hstep
      exact ⟨h.calls, h.cached, by simp, h.invalidatedAt_le⟩
  | write db =>
      obtain rfl := Option.some.inj hstep
      have hdatabases : ({ s with past := s.past ++ [s.db], db := db } : CacheRun).databases =
          s.databases ++ [db] := rfl
      refine ⟨fun c hc => ?_, fun n hn => ?_, fun n hn => ?_, ?_⟩
      · obtain ⟨hle, stage, hstage, hread⟩ := h.calls c hc
        exact ⟨by simp only [List.length_append]; omega, stage, hstage, hdatabases ▸ hread.mono⟩
      · obtain ⟨stage, hstage, hread⟩ := h.cached n hn
        exact ⟨stage, hstage, hdatabases ▸ hread.mono⟩
      · obtain ⟨stage, hstage, hopen, hread⟩ := h.inFlight n hn
        exact ⟨stage, hstage, hopen, hdatabases ▸ hread.mono⟩
      · have hle := h.invalidatedAt_le
        simp only [List.length_append]
        omega
  | invalidate => exact h.invalidate hallowed hstep

/-! ## Runs -/

/-- The calls between two invalidations share one entry, whatever the run. -/
theorem sharing_of_reach {db : Database} {allowed : CacheRun → CacheAction → Prop}
    (h : Reach step allowed (start db) s) : Sharing s :=
  h.invariant (sharing_start db) fun _ _ _ hs _ hstep => hs.step hstep

/-- **Invalidation is final** in every run in which, at each `invalidateDocument`, the load in
flight has read nothing that the database no longer holds. -/
theorem invalidation_final (db : Database) (s : CacheRun) (h : Reach step allowed (start db) s) :
    Final s := by
  have hfresh : Fresh s :=
    h.invariant (fresh_start db) fun _ _ _ hs hallowed hstep => hs.step hallowed hstep
  have hsharing := sharing_of_reach h
  refine ⟨fun c hc l hl => ?_, fun c hc c' hc' hsame hl hl' => ?_⟩
  · obtain ⟨-, stage, hstage, hread⟩ := hfresh.calls c hc
    rw [Worker.loaded_eq_some.mp hl] at hstage
    exact Option.some.inj hstage ▸ hread
  · rcases hsharing.shared c hc c' hc' hsame with heq | hdead | hdead
    · exact heq
    · simp [hdead.1] at hl
    · simp [hdead.1] at hl'

/-- A document is loaded, edited elsewhere, invalidated and loaded again by two callers. -/
def reloaded : CacheRun :=
  (runAllowed step allowed (start (typedLog 1))
    [.getOrLoad, .load, .load, .load, .write (typedLog 2), .invalidate, .getOrLoad, .load,
      .getOrLoad, .load, .load]).get (by decide +kernel)

/-- Both callers have the second character. -/
theorem invalidation_final_reloaded :
    Final reloaded ∧
      reloaded.calls.map (fun c => (c.load, c.since)) = [(0, 0), (1, 1), (1, 1)] := by
  have hreach : Reach step allowed (start (typedLog 1)) reloaded := reach_get _
  exact ⟨invalidation_final (typedLog 1) reloaded hreach, by decide +kernel⟩

/-- The load has read its rows when the document is changed and invalidated; the next caller
joins it. -/
def joinedStale : CacheRun :=
  (runAllowed step (fun _ _ => True) (start (typedLog 1))
    [.getOrLoad, .load, .load, .write (typedLog 2), .invalidate, .getOrLoad, .load]).get
    (by decide +kernel)

/-- It gets a document without the second character. -/
theorem not_forall_invalidation_final :
    ¬ ∀ (db : Database) (s : CacheRun), Reach step (fun _ _ => True) (start db) s → Final s := by
  intro h
  have hfinal := h (typedLog 1) joinedStale (reach_get _)
  have hcall : (⟨0, 1, 1⟩ : CacheCall) ∈ joinedStale.calls := by decide +kernel
  have hloaded : joinedStale.worker.loaded 0 =
      some ⟨none, [typedRow 1], replayDelta none [typedRow 1]⟩ := by decide +kernel
  obtain ⟨-, ⟨t, db, ht, hdb, hrows⟩, -⟩ := hfinal.since _ hcall _ hloaded
  have hdatabases : joinedStale.databases = [typedLog 1, typedLog 2] := by decide +kernel
  rw [hdatabases] at hdb
  match t, ht with
  | 1, _ =>
      obtain rfl := Option.some.inj hdb
      exact absurd hrows (by decide +kernel)
  | t + 2, _ => simp at hdb

end CacheRun

end SyncEngine
