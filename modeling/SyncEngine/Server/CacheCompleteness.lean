import Mathlib.Data.Fintype.Basic
import SyncEngine.Crdt.Encoding
import SyncEngine.Lib.Transition
import SyncEngine.Server.OfflineMerger
import SyncEngine.Server.PoolHistory

/-!
# Cached replicas and their seq

A JOIN_ACK promises that "operations through this seq are encoded in nodes".  The seq is that of
the cached entry, which every call of the worker moves to the seq of the row it has stored; the
seqs are shared by all workers, and nothing a worker is told through the channel is applied to
its entry.  So the promise is broken as soon as a call moves the seq of an entry past an operation
that was applied elsewhere: on another worker, or to an entry that has been evicted since
(`not_forall_entries_complete`).

`entries_complete` says what keeps it: no call may move the seq of an entry past a row the entry
does not cover (`Covers`), and the rows a load replays must be in causal order.  `CompleteEntry`
is what holds of every entry then, on every run.
-/

namespace SyncEngine

open ReplicatedList CausalReplay Transition

namespace WorkerPool

variable {W K : Type*} [DecidableEq W] [DecidableEq K] {s s' : WorkerPool W K}
  {a : PoolAction W K}

/-! ## Runs that serve the document -/

/-- The steps of serving a document: calls, publications, deliveries, loads and evictions. -/
def Serving : PoolAction W K → Prop
  | .forceSnapshot _ | .job _ | .skipJob _ => False
  | _ => True

instance : DecidablePred (Serving : PoolAction W K → Prop) := fun a => by
  cases a <;> (unfold Serving; infer_instance)

/-- The operation was applied to the entry of load `n`: when the entry was built, or by a call. -/
def Covers (s : WorkerPool W K) (w : W) (n : Nat) (l : Loaded) (op : RGAOperation) : Prop :=
  (∃ row ∈ l.rows, row.op = op) ∨
    ∃ k, ∃ call ∈ s.calls k, call.worker = w ∧ call.appliedTo = some (n, true) ∧ call.msg.op = op

/-- No step moves the seq of an entry past a row the entry does not cover, or replays rows out of
causal order. -/
def KeepsPace (s : WorkerPool W K) : PoolAction W K → Prop
  | .advance k =>
      ∀ call ∈ s.calls k, ∀ envelope ∈ call.aboutToUpdate, ∀ n ∈ (s.workers call.worker).cache,
        ∀ l ∈ s.loaded call.worker n, ∀ row ∈ s.db.operations,
          l.entry.lastSeq < row.seq → row.seq ≤ envelope.seq → s.Covers call.worker n l row.op
  | .load w n =>
      ∀ stage ∈ s.stageOf w n, ∀ read ∈ stage.toReplay,
        CausallyValid (read.2.map OperationEnvelope.op)
  | _ => True

instance [Fintype K] (w : W) (n : Nat) (l : Loaded) (op : RGAOperation) :
    Decidable (s.Covers w n l op) := by
  unfold Covers
  infer_instance

instance [Fintype K] (a : PoolAction W K) : Decidable (s.KeepsPace a) := by
  cases a <;> (unfold KeepsPace; infer_instance)

/-! ## What holds of every entry -/

/-- Every INSERT and DELETE stored up to `seq` has taken effect. -/
def CompleteUpTo (db : Database) (seq : Nat) (cells : List (Cell UID JsValue)) : Prop :=
  ∀ row ∈ db.operations, row.seq ≤ seq → Encodes cells row.op

instance (db : Database) (seq : Nat) (cells : List (Cell UID JsValue)) :
    Decidable (CompleteUpTo db seq cells) := by
  unfold CompleteUpTo
  infer_instance

/-- An entry and what was applied to it. -/
structure CompleteEntry (s : WorkerPool W K) (w : W) (n : Nat) (l : Loaded) : Prop where
  indexed : RGADocument.Indexed l.entry.doc
  lastSeq_le : l.entry.lastSeq ≤ s.db.documentSeq
  complete : CompleteUpTo s.db l.entry.lastSeq l.entry.doc.cells
  rows_encoded : ∀ row ∈ l.rows, Encodes l.entry.doc.cells row.op
  calls_encoded : ∀ k c, s.calls k = some c → c.worker = w → c.appliedTo = some (n, true) →
    Encodes l.entry.doc.cells c.msg.op

/-- A load that is under way has read no snapshot, and a log up to some seq. -/
def ReadsLog (db : Database) : LoadStage → Prop
  | .awaitSnapshot => True
  | .awaitOperations snapshot => snapshot = none
  | .replaying snapshot rows => snapshot = none ∧ rows ⊆ db.operations ∧
      ∀ row ∈ db.operations, ∀ row' ∈ rows, row.seq ≤ row'.seq → row ∈ rows
  | .resolved _ => True

/-- What holds along every run. -/
structure Complete (s : WorkerPool W K) : Prop where
  recorded : Recorded s
  applied_loaded : AppliedLoaded s
  snapshots_nil : s.db.snapshots = []
  loads : ∀ w n stage, s.stageOf w n = some stage → ReadsLog s.db stage
  entries : ∀ w n l, s.loaded w n = some l → CompleteEntry s w n l

omit [DecidableEq W] [DecidableEq K] in
lemma complete_start (t : Nat) : Complete (start t : WorkerPool W K) where
  recorded := recorded_start t
  applied_loaded k c n ok hc := by simp [start] at hc
  snapshots_nil := rfl
  loads w n stage h := by simp [start, stageOf, Worker.start] at h
  entries w n l h := by simp [start, loaded, Worker.loaded, Worker.start] at h

omit [DecidableEq W] [DecidableEq K] in
lemma CompleteUpTo.of_grows {seq : Nat} {cells : List (Cell UID JsValue)} (h : Grows s s')
    (hseq : seq ≤ s.db.documentSeq) (hcomplete : CompleteUpTo s.db seq cells) :
    CompleteUpTo s'.db seq cells := by
  intro row hrow hle
  rcases h.new_row row hrow with hrow | hnew
  · exact hcomplete row hrow hle
  · omega

omit [DecidableEq W] [DecidableEq K] in
lemma ReadsLog.of_grows {stage : LoadStage} (h : Grows s s') (hreads : ReadsLog s.db stage) :
    ReadsLog s'.db stage := by
  cases stage with
  | awaitSnapshot => exact trivial
  | awaitOperations snapshot => exact hreads
  | replaying snapshot rows =>
      obtain ⟨hsnapshot, hsub, hbefore⟩ := hreads
      refine ⟨hsnapshot, fun row hrow => h.operations_subset (hsub hrow), ?_⟩
      intro row hrow row' hrow' hle
      rcases h.new_row row hrow with hrow | hnew
      · exact hbefore row hrow row' hrow' hle
      · have hle' := s.db.operations_le row' (hsub hrow')
        omega
  | resolved l => exact trivial

/-- A load reads no snapshot, and then the log up to some seq. -/
lemma readsLog_next {db : Database} {stage stage' : LoadStage} (hsnapshots : db.snapshots = [])
    (hpos : ∀ row ∈ db.operations, 0 < row.seq) (hreads : ReadsLog db stage)
    (hnext : stage.next db = some stage') : ReadsLog db stage' := by
  cases stage with
  | awaitSnapshot =>
      obtain rfl := Option.some.inj hnext
      cases hlatest : db.loadLatestSnapshot with
      | none => rfl
      | some snapshot =>
          have hmem := Database.loadLatestSnapshot_mem hlatest
          simp [hsnapshots] at hmem
  | awaitOperations snapshot =>
      obtain rfl := Option.some.inj hnext
      obtain rfl : snapshot = none := hreads
      refine ⟨rfl, fun row hrow => (Database.mem_of_mem_loadOperationsAfterSeq hrow).1, ?_⟩
      exact fun row hrow row' hrow' hle =>
        Database.mem_loadOperationsAfterSeq_of_le hrow' hrow (hpos row hrow) hle
  | replaying snapshot rows =>
      obtain rfl := Option.some.inj hnext
      exact trivial
  | resolved l => simp [LoadStage.next] at hnext

omit [DecidableEq W] [DecidableEq K] in
/-- The entry of a load that replays a log in causal order. -/
lemma completeEntry_replayed {w : W} {n : Nat} {rows : List OperationEnvelope}
    (hs : Complete s) (hgrows : Grows s s') (hrec : Recorded s')
    (hreads : ReadsLog s.db (.replaying none rows))
    (hvalid : CausallyValid (rows.map OperationEnvelope.op))
    (hcalls : ∀ k c, s'.calls k = some c → c.worker = w → c.appliedTo ≠ some (n, true)) :
    CompleteEntry s' w n ⟨none, rows, replayDelta none rows⟩ := by
  obtain ⟨-, hsub, hbefore⟩ := hreads
  have hmsg : ∀ op ∈ rows.map OperationEnvelope.op,
      ∃ msg : ValidatedOperationMessage, op = msg.op := by
    intro op hop
    obtain ⟨row, hrow, rfl⟩ := List.mem_map.mp hop
    exact hs.recorded.exists_msg (hsub hrow)
  have hencoded : ∀ row ∈ rows, Encodes (replayDelta none rows).doc.cells row.op := by
    intro row hrow
    refine RGADocument.encodes_of_causallyValid hvalid (fun op hop => ?_) (fun op hop => ?_)
      (List.mem_map_of_mem hrow)
    · obtain ⟨msg, rfl⟩ := hmsg op hop
      exact msg.uid_ne_root
    · obtain ⟨msg, rfl⟩ := hmsg op hop
      exact msg.isEdit
  refine ⟨RGADocument.indexed_empty.applyOperations _, ?_, ?_, hencoded,
    fun k c hc hw happlied => absurd happlied (hcalls k c hc hw)⟩
  · rcases le_foldl_max_seq.mp (le_refl (replayDelta none rows).lastSeq) with hle | ⟨row, hrow, hle⟩
    · exact hle.trans (Nat.zero_le _)
    · exact (hle.trans (s.db.operations_le row (hsub hrow))).trans hgrows.documentSeq_le
  · intro row hrow hle
    rcases le_foldl_max_seq.mp hle with hzero | ⟨row', hrow', hle'⟩
    · have hpos := hrec.seq_pos row hrow
      have hzero' : row.seq ≤ 0 := hzero
      omega
    · rcases hgrows.new_row row hrow with hrow | hnew
      · exact hencoded row (hbefore row hrow row' hrow' hle')
      · have hle'' := s.db.operations_le row' (hsub hrow')
        omega

/-- The operation a call has just applied is encoded, and so is everything that was before. -/
lemma calls_encoded_step (hs : Complete s) (h : s.step a = some s') {w : W} {n : Nat}
    {l' : Loaded} (hl' : s'.loaded w n = some l')
    (hkept : ∀ l, s.loaded w n = some l →
      ∀ op, Encodes l.entry.doc.cells op → Encodes l'.entry.doc.cells op)
    (k : K) (c : OperationCall W) (hc : s'.calls k = some c) (hw : c.worker = w)
    (happlied : c.appliedTo = some (n, true)) : Encodes l'.entry.doc.cells c.msg.op := by
  rcases appliedTo_old h hc happlied with
    ⟨c₀, hc₀, happlied₀, hworker, hmsg⟩ | ⟨-, call, l, -, -, hworker, hmsg, hl, hok, hnew⟩
  · obtain ⟨l, hl⟩ := hs.applied_loaded k c₀ n true hc₀ happlied₀
    have hw₀ : c₀.worker = w := hworker.symm.trans hw
    rw [hw₀] at hl
    rw [hmsg]
    exact hkept l hl _ ((hs.entries w n l hl).calls_encoded k c₀ hc₀ hw₀ happlied₀)
  · have hcall : call.worker = w := hworker.symm.trans hw
    rw [hcall] at hl hnew
    obtain rfl := Option.some.inj (hnew.symm.trans hl')
    rw [hmsg]
    exact RGADocument.encodes_of_applied (hs.entries w n l hl).indexed call.msg.uid_ne_root hok

/-- **One step keeps the entries complete.** -/
lemma Complete.step (hs : Complete s) (hserving : Serving a) (hpace : s.KeepsPace a)
    (h : s.step a = some s') : Complete s' := by
  have hgrows := step_grows h
  have hrec := hs.recorded.step h
  refine ⟨hrec, hs.applied_loaded.step h, ?_, ?_, fun w n l' hl' => ?_⟩
  · -- only snapshot jobs write the table
    refine List.eq_nil_iff_forall_not_mem.mpr fun snapshot hsnapshot => ?_
    rcases snapshot_old h hsnapshot with hold | ⟨i, job, n, rfl, -⟩
    · simp [hs.snapshots_nil] at hold
    · exact hserving
  · exact loads_step h hs.loads trivial (fun _ => trivial) (fun _ => ReadsLog.of_grows hgrows)
      fun _ _ hreads hnext => ReadsLog.of_grows hgrows
        (readsLog_next hs.snapshots_nil hs.recorded.seq_pos hreads hnext)
  · cases entryFrom h hl' with
    | kept hl =>
        have hentry := hs.entries w n l' hl
        refine ⟨hentry.indexed, hentry.lastSeq_le.trans hgrows.documentSeq_le,
          hentry.complete.of_grows hgrows hentry.lastSeq_le, hentry.rows_encoded,
          calls_encoded_step hs h hl' fun l hl₀ op henc => ?_⟩
        obtain rfl := Option.some.inj (hl.symm.trans hl₀)
        exact henc
    | replayed snapshot rows hstage hl'' =>
        obtain rfl : snapshot = none := (hs.loads w n _ hstage).1
        subst hl''
        refine completeEntry_replayed hs hgrows hrec (hs.loads w n _ hstage)
          (hpace (.replaying none rows) (by simp [hstage]) (none, rows) rfl)
          fun k c hc hw happlied => ?_
        rcases appliedTo_old h hc happlied with ⟨c₀, hc₀, happlied₀, hworker, -⟩ | ⟨ha, -⟩
        · -- no call has applied to an entry that is still replaying
          obtain ⟨l, hl⟩ := hs.applied_loaded k c₀ n true hc₀ happlied₀
          rw [← hworker, hw, loaded_eq_some, hstage] at hl
          simp at hl
        · exact absurd ha (by simp)
    | applied call l hcall hstage hworker hl hl'' =>
        subst hl''
        have hentry := hs.entries w n l hl
        have hkeep : ∀ op, Encodes l.entry.doc.cells op →
            Encodes (l.entry.doc.applyOperation call.msg.op).1.cells op :=
          fun op henc => RGADocument.encodes_applyOperation hentry.indexed henc _
        refine ⟨hentry.indexed.applyOperation _, hentry.lastSeq_le.trans hgrows.documentSeq_le,
          fun row hrow hle =>
            hkeep _ (hentry.complete.of_grows hgrows hentry.lastSeq_le row hrow hle),
          fun row hrow => hkeep _ (hentry.rows_encoded row hrow),
          calls_encoded_step hs h hl' fun l₀ hl₀ op henc => ?_⟩
        obtain rfl := Option.some.inj (hl.symm.trans hl₀)
        exact hkeep op henc
    | counted call m ok envelope l hcall hstage hworker hcache hl hl'' =>
        subst hl''
        have hentry := hs.entries w n l hl
        have hstored : call.stored = some envelope := OperationCall.stored_of_stage hstage
        have hmem := (hs.recorded.stored_mem _ call envelope hcall hstored).1
        have henvelope : envelope.seq ≤ s.db.documentSeq := s.db.operations_le _ hmem
        have hcomplete : CompleteUpTo s.db envelope.seq l.entry.doc.cells := by
          intro row hrow hle
          rcases Nat.lt_or_ge l.entry.lastSeq row.seq with hlt | hge
          · -- a row between the old and the new `lastSeq` is covered by what keeping pace says
            have hcovers := hpace call hcall envelope
              (by simp [OperationCall.aboutToUpdate, hstage]) n (hworker ▸ hcache) l (hworker ▸ hl)
              row hrow hlt hle
            rcases hcovers with ⟨row', hrow', hop⟩ | ⟨k, c, hc, hw, happlied, hop⟩
            · exact hop ▸ hentry.rows_encoded row' hrow'
            · exact hop ▸ hentry.calls_encoded k c hc (hw.trans hworker) happlied
          · exact hentry.complete row hrow hge
        refine ⟨hentry.indexed, henvelope.trans hgrows.documentSeq_le,
          hcomplete.of_grows hgrows henvelope, hentry.rows_encoded,
          calls_encoded_step hs h hl' fun l₀ hl₀ op henc => ?_⟩
        obtain rfl := Option.some.inj (hl.symm.trans hl₀)
        exact henc
    | collected l hl hl'' => exact absurd hserving id
    | reset l hl hl'' => exact absurd hserving id

/-! ## Completeness -/

/-- The steps of a document that is served, none of which breaks an entry. -/
def ServesInPace (s : WorkerPool W K) (a : PoolAction W K) : Prop := Serving a ∧ s.KeepsPace a

instance [Fintype K] (s : WorkerPool W K) (a : PoolAction W K) : Decidable (s.ServesInPace a) :=
  inferInstanceAs (Decidable (_ ∧ _))

/-- Every entry that is cached is complete up to its seq, and so are the nodes of every JOIN_ACK
that is built for a fresh join. -/
def EntriesComplete (s : WorkerPool W K) : Prop :=
  (∀ w n l, (s.workers w).cache = some n → s.loaded w n = some l →
      CompleteUpTo s.db l.entry.lastSeq l.entry.doc.cells) ∧
    ∀ w n l sessionId msg reply, s.loaded w n = some l → msg.lastSeq = 0 →
      CompleteUpTo s.db (joinAck sessionId msg reply l.entry).snapshot.seq
        ((joinAck sessionId msg reply l.entry).snapshot.nodes.map SerializedRGANode.cell)

/-- **Cached replicas are complete up to their seq** along every run in which no call moves the
seq of an entry past a row the entry does not cover, and every load replays a causally ordered
log. -/
theorem entries_complete {t : Nat} (h : Reach step ServesInPace (start t) s) :
    s.EntriesComplete := by
  have hs : Complete s := h.invariant (complete_start t) fun s a s' hs hallowed hstep =>
    hs.step hallowed.1 hallowed.2 hstep
  refine ⟨fun w n l _ hl => (hs.entries w n l hl).complete,
    fun w n l sessionId msg reply hl hmsg => ?_⟩
  have hnodes : (joinAck sessionId msg reply l.entry).snapshot.nodes = l.entry.doc.serialize := by
    simp [joinAck, hmsg]
  rw [hnodes, RGADocument.cells_serialize]
  exact (hs.entries w n l hl).complete

/-! ## Two runs -/

/-- One worker stores one operation. -/
theorem entries_complete_one_call :
    ((runAllowed step ServesInPace (start 100)
        (beginAndLoad () () .siteA ++ List.replicate 5 (.advance ()))).get
      (by decide) : WorkerPool Unit Unit).EntriesComplete :=
  entries_complete (reach_get (by decide))

/-- Two workers load the empty document; then the first stores an operation, and the second
another one. -/
def twoWorkersActions : List (PoolAction Bool Bool) :=
  beginAndLoad false false .siteA ++ beginAndLoad true true .siteB ++
    [.advance false, .advance false, .advance true, .advance true, .advance true]

/-- The state they lead to. -/
def twoWorkers : WorkerPool Bool Bool :=
  (runAllowed step (fun _ a => Serving a) (start 100) twoWorkersActions).get (by decide)

/-- The second worker's entry has seq 2 but not the first operation. -/
theorem not_forall_entries_complete :
    ¬ ∀ s : WorkerPool Bool Bool,
      Reach step (fun _ a => Serving a) (start 100) s → s.EntriesComplete := by
  intro h
  have hentry : twoWorkers.loaded true 0 = some ((twoWorkers.loaded true 0).get (by decide)) :=
    (Option.some_get _).symm
  exact absurd ((h twoWorkers (reach_get _)).1 true 0 _ (by decide) hentry) (by decide)

end WorkerPool

end SyncEngine
