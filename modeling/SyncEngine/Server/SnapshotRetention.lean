import SyncEngine.Crdt.RgaDocument
import SyncEngine.Lib.Retention
import SyncEngine.Lib.Transition

/-!
# Which snapshots are kept

The snapshots table with all its rows, for all documents (`server/persistence/snapshot-store.ts`),
and the compactor that drops the old ones (`pruneOldSnapshots` in
`server/jobs/snapshot-compactor.ts`).  A row carries a hash of the text, with which
`verifySnapshot` checks it, and the two counts of the table.

A run stores and prunes in any order: workers do both for the same document without waiting for
each other, save states that are older than what is stored, and save the same seq twice.

`snapshots_retained` is what loading and rolling back can rely on.  What is loaded is intact, is
the newest state ever saved, and the newest one before a revision as long as ten later ones are
not stored; and a save that finds its seq taken gets the row that is there unless a newer one has
been stored.
-/

namespace SyncEngine

open Transition Retention

/-- A row of the table, in its columns. -/
structure SnapshotRow (D H : Type*) where
  id : Nat
  docId : D
  seq : Nat
  data : List SerializedRGANode
  textHash : H
  nodeCount : Nat
  charCount : Nat
deriving DecidableEq

/-- The rows of `snapshots`, with all that were ever stored. -/
structure SnapshotTable (D H : Type*) where
  snapshots : List (SnapshotRow D H)
  /-- Every row that has been stored so far. -/
  saved : List (SnapshotRow D H)
deriving DecidableEq

/-- A statement on the table. -/
inductive SnapshotEvent (D : Type*) where
  /-- `saveSnapshot`; the id is the one the database generates. -/
  | save (id : Nat) (docId : D) (doc : RGADocument) (seq : Nat)
  | prune (docId : D)

/-- Maximum number of snapshots to retain per document. -/
def MAX_SNAPSHOTS_PER_DOC : Nat := 10

/-- The row `saveSnapshot` inserts. -/
def snapshotRow {D H : Type*} (sha256 : JSString → H) (id : Nat) (docId : D) (doc : RGADocument)
    (seq : Nat) : SnapshotRow D H where
  id := id
  docId := docId
  seq := seq
  data := doc.serialize
  textHash := sha256 doc.toText
  nodeCount := doc.serialize.length
  charCount := doc.toText.length

namespace SnapshotTable

variable {D H : Type*} [DecidableEq D] [DecidableEq H] (sha256 : JSString → H)

/-- `WHERE doc_id = $1`. -/
def ofDocument (s : SnapshotTable D H) (docId : D) : List (SnapshotRow D H) :=
  s.snapshots.filter fun row => row.docId = docId

/-- The row with the greatest seq. -/
def loadLatestSnapshot (s : SnapshotTable D H) (docId : D) : Option (SnapshotRow D H) :=
  (newestFirst SnapshotRow.seq (s.ofDocument docId)).head?

/-- The row with the greatest seq up to `targetSeq`. -/
def loadSnapshotBefore (s : SnapshotTable D H) (docId : D) (targetSeq : Nat) :
    Option (SnapshotRow D H) :=
  (newestFirst SnapshotRow.seq
    ((s.ofDocument docId).filter fun row => row.seq ≤ targetSeq)).head?

/-- The text of the row has the hash that it was stored with. -/
def verifySnapshot (row : SnapshotRow D H) : Bool :=
  sha256 (RGADocument.deserialize row.data).toText = row.textHash

/-- `INSERT … ON CONFLICT (doc_id, seq) DO NOTHING`. -/
def insertSnapshot (s : SnapshotTable D H) (row : SnapshotRow D H) : SnapshotTable D H :=
  if ∃ r ∈ s.snapshots, r.docId = row.docId ∧ r.seq = row.seq then s
  else ⟨s.snapshots ++ [row], s.saved ++ [row]⟩

/-- What `saveSnapshot` goes on with when nothing was inserted: the latest row, or an error. -/
def reloadExisting (s : SnapshotTable D H) (docId : D) (seq : Nat) : Option (SnapshotRow D H) :=
  (s.loadLatestSnapshot docId).filter fun existing => existing.seq = seq

/-- The ids that `pruneOldSnapshots` keeps. -/
def keptIds (s : SnapshotTable D H) (docId : D) : List Nat :=
  (newest SnapshotRow.seq MAX_SNAPSHOTS_PER_DOC (s.ofDocument docId)).map SnapshotRow.id

/-- Deletes all but the newest rows of a document. -/
def pruneOldSnapshots (s : SnapshotTable D H) (docId : D) : SnapshotTable D H :=
  { s with
    snapshots := s.snapshots.filter fun row => ¬(row.docId = docId ∧ row.id ∉ s.keptIds docId) }

/-- No two rows have an id, and the database generates none twice. -/
def step (s : SnapshotTable D H) : SnapshotEvent D → Option (SnapshotTable D H)
  | .save id docId doc seq =>
      if id ∈ s.saved.map SnapshotRow.id then none
      else some (s.insertSnapshot (snapshotRow sha256 id docId doc seq))
  | .prune docId => some (s.pruneOldSnapshots docId)

/-- The table after any events. -/
def Reachable (s : SnapshotTable D H) : Prop := Reach (step sha256) (fun _ _ => True) ⟨[], []⟩ s

/-! ## Pruning a document -/

variable {sha256} {s s' : SnapshotTable D H} {row : SnapshotRow D H} {docId d : D}

/-- What holds of the table after every statement. -/
structure Retained (sha256 : JSString → H) (s : SnapshotTable D H) : Prop where
  ids : (s.snapshots.map SnapshotRow.id).Nodup
  seqs : ∀ docId, ((s.ofDocument docId).map SnapshotRow.seq).Nodup
  stored : s.snapshots ⊆ s.saved
  intact : ∀ row ∈ s.saved, verifySnapshot sha256 row = true
  kept : ∀ row ∈ s.saved, row ∈ s.snapshots ∨
    MAX_SNAPSHOTS_PER_DOC ≤ newer SnapshotRow.seq row.seq (s.ofDocument row.docId)

omit [DecidableEq H] in
lemma mem_ofDocument : row ∈ s.ofDocument docId ↔ row ∈ s.snapshots ∧ row.docId = docId := by
  simp [ofDocument]

omit [DecidableEq H] in
lemma ofDocument_prune_of_ne (h : d ≠ docId) :
    (s.pruneOldSnapshots docId).ofDocument d = s.ofDocument d := by
  rw [ofDocument, pruneOldSnapshots, List.filter_filter, ofDocument]
  refine List.filter_congr fun row _ => ?_
  by_cases hd : row.docId = d
  · simp [hd, h]
  · simp [hd]

omit [DecidableEq H] in
lemma ofDocument_prune (hids : (s.snapshots.map SnapshotRow.id).Nodup) (docId : D) :
    ((s.pruneOldSnapshots docId).ofDocument docId).Perm
      (newest SnapshotRow.seq MAX_SNAPSHOTS_PER_DOC (s.ofDocument docId)) := by
  have hleft : (s.pruneOldSnapshots docId).ofDocument docId =
      (s.ofDocument docId).filter fun row => row.id ∈ s.keptIds docId := by
    rw [ofDocument, pruneOldSnapshots, List.filter_filter, ofDocument, List.filter_filter]
    refine List.filter_congr fun row _ => ?_
    by_cases hd : row.docId = docId
    · simp [hd]
    · simp [hd]
  have hperm := newestFirst_perm SnapshotRow.seq (s.ofDocument docId)
  have hunique : ((newestFirst SnapshotRow.seq (s.ofDocument docId)).map SnapshotRow.id).Nodup :=
    (hperm.map SnapshotRow.id).nodup_iff.mpr ((List.filter_sublist.map _).nodup hids)
  rw [hleft]
  exact (hperm.symm.filter _).trans (.of_eq (filter_mem_take hunique MAX_SNAPSHOTS_PER_DOC))

/-! ## The steps -/

omit [DecidableEq D] in
lemma verifySnapshot_snapshotRow (id : Nat) (docId : D) (doc : RGADocument) (seq : Nat) :
    verifySnapshot sha256 (snapshotRow sha256 id docId doc seq) = true := by
  have htext : (RGADocument.deserialize doc.serialize).toText = doc.toText := by
    rw [RGADocument.toText, RGADocument.nodes_deserialize_serialize, RGADocument.toText]
  exact decide_eq_true (congrArg sha256 htext)

lemma retained_save {id seq : Nat} {doc : RGADocument} (h : s.Retained sha256)
    (hid : id ∉ s.saved.map SnapshotRow.id) :
    (s.insertSnapshot (snapshotRow sha256 id docId doc seq)).Retained sha256 := by
  unfold insertSnapshot
  split_ifs with hconflict
  · exact h
  · have hgrow : ∀ d, (⟨s.snapshots ++ [snapshotRow sha256 id docId doc seq],
        s.saved ++ [snapshotRow sha256 id docId doc seq]⟩ : SnapshotTable D H).ofDocument d =
          s.ofDocument d ++ if docId = d then [snapshotRow sha256 id docId doc seq] else [] := by
      intro d
      rw [ofDocument, List.filter_append, ofDocument, List.filter_singleton]
      by_cases hd : docId = d
      · simp [hd, snapshotRow]
      · simp [hd, snapshotRow]
    constructor
    · rw [List.map_append, List.nodup_append]
      refine ⟨h.ids, List.nodup_singleton _, ?_⟩
      rintro i hi j hj rfl
      rw [List.map_singleton, List.mem_singleton] at hj
      subst hj
      exact hid ((List.map_subset _ h.stored) hi)
    · intro d
      rw [hgrow]
      split_ifs with hd
      · rw [List.map_append, List.nodup_append]
        refine ⟨h.seqs d, List.nodup_singleton _, ?_⟩
        rintro i hi j hj rfl
        rw [List.map_singleton, List.mem_singleton] at hj
        subst hj
        obtain ⟨row, hrow, hseq⟩ := List.mem_map.mp hi
        obtain ⟨hmem, hdoc⟩ := mem_ofDocument.mp hrow
        exact hconflict ⟨row, hmem, hdoc.trans hd.symm, hseq⟩
      · rw [List.append_nil]
        exact h.seqs d
    · intro row hrow
      rcases List.mem_append.mp hrow with hrow | hrow
      · exact List.mem_append_left _ (h.stored hrow)
      · exact List.mem_append_right _ hrow
    · intro row hrow
      rcases List.mem_append.mp hrow with hrow | hrow
      · exact h.intact row hrow
      · obtain rfl := List.mem_singleton.mp hrow
        exact verifySnapshot_snapshotRow id docId doc seq
    · intro row hrow
      rcases List.mem_append.mp hrow with hrow | hrow
      · rcases h.kept row hrow with hmem | hnewer
        · exact .inl (List.mem_append_left _ hmem)
        · right
          rw [hgrow, newer, List.countP_append]
          exact hnewer.trans (Nat.le_add_right ..)
      · exact .inl (List.mem_append_right _ hrow)

lemma retained_prune (h : s.Retained sha256) (docId : D) :
    (s.pruneOldSnapshots docId).Retained sha256 := by
  have hperm := ofDocument_prune h.ids docId
  have hsub : ((s.pruneOldSnapshots docId).snapshots).Sublist s.snapshots := List.filter_sublist
  have hcount : ∀ x, newer SnapshotRow.seq x ((s.pruneOldSnapshots docId).ofDocument docId) =
      min MAX_SNAPSHOTS_PER_DOC (newer SnapshotRow.seq x (s.ofDocument docId)) := by
    intro x
    rw [newer_perm hperm, newer_newest]
  constructor
  · exact (hsub.map _).nodup h.ids
  · exact fun d => ((hsub.filter _).map _).nodup (h.seqs d)
  · exact fun row hrow => h.stored (hsub.subset hrow)
  · exact h.intact
  · intro row hrow
    by_cases hd : row.docId = docId
    · rw [hd, hcount]
      have hold := h.kept row hrow
      rw [hd] at hold
      have hnewest : row ∈ newest SnapshotRow.seq MAX_SNAPSHOTS_PER_DOC (s.ofDocument docId) ∨
          MAX_SNAPSHOTS_PER_DOC ≤ newer SnapshotRow.seq row.seq (s.ofDocument docId) := by
        rcases hold with hmem | hnewer
        · exact mem_newest_or (h.seqs docId) (mem_ofDocument.mpr ⟨hmem, hd⟩)
        · exact .inr hnewer
      rcases hnewest with hmem | hnewer
      · exact .inl (mem_ofDocument.mp (hperm.mem_iff.mpr hmem)).1
      · exact .inr (Nat.min_eq_left hnewer).ge
    · rw [ofDocument_prune_of_ne hd]
      rcases h.kept row hrow with hmem | hnewer
      · left
        exact List.mem_filter.mpr ⟨hmem, by simp [hd]⟩
      · exact .inr hnewer

lemma retained_of_reachable (h : s.Reachable sha256) : s.Retained sha256 := by
  refine Reach.invariant h ?_ ?_
  · constructor
    · exact List.nodup_nil
    · exact fun d => List.nodup_nil
    · exact fun row hrow => hrow
    · simp
    · simp
  · rintro s event s' hs - hstep
    cases event with
    | save id docId doc seq =>
        rw [step] at hstep
        split_ifs at hstep with hid
        obtain rfl := Option.some.inj hstep
        exact retained_save hs hid
    | prune docId =>
        obtain rfl := Option.some.inj hstep
        exact retained_prune hs docId

/-! ## The result -/

/-- The latest snapshot is at least as new as every one ever saved. -/
lemma Retained.latest (h : s.Retained sha256) (hrow : row ∈ s.saved) :
    ∃ latest, s.loadLatestSnapshot row.docId = some latest ∧ latest ∈ s.snapshots ∧
      latest.docId = row.docId ∧ row.seq ≤ latest.seq := by
  obtain ⟨r, hr, hle⟩ : ∃ r ∈ s.ofDocument row.docId, row.seq ≤ r.seq := by
    rcases h.kept row hrow with hmem | hnewer
    · exact ⟨row, mem_ofDocument.mpr ⟨hmem, rfl⟩, Nat.le_refl _⟩
    · have hpos : 0 < newer SnapshotRow.seq row.seq (s.ofDocument row.docId) :=
        Nat.lt_of_lt_of_le (by decide) hnewer
      obtain ⟨r, hr, hlt⟩ := List.countP_pos_iff.mp hpos
      exact ⟨r, hr, (of_decide_eq_true hlt).le⟩
  obtain ⟨latest, hlatest⟩ := exists_head SnapshotRow.seq hr
  obtain ⟨hmem, hmax⟩ := le_head hlatest
  obtain ⟨hmem, hdoc⟩ := mem_ofDocument.mp hmem
  exact ⟨latest, hlatest, hmem, hdoc, hle.trans (hmax r hr)⟩

/-- The same for the rows up to a target, as long as ten rows beyond it are not stored. -/
lemma Retained.before (h : s.Retained sha256) (hrow : row ∈ s.saved) {targetSeq : Nat}
    (htarget : row.seq ≤ targetSeq) :
    (∃ base, s.loadSnapshotBefore row.docId targetSeq = some base ∧ base ∈ s.snapshots ∧
        row.seq ≤ base.seq ∧ base.seq ≤ targetSeq) ∨
      MAX_SNAPSHOTS_PER_DOC ≤ newer SnapshotRow.seq targetSeq (s.ofDocument row.docId) := by
  by_cases hexists : ∃ r ∈ s.ofDocument row.docId, row.seq ≤ r.seq ∧ r.seq ≤ targetSeq
  · left
    obtain ⟨r, hr, hle, hbefore⟩ := hexists
    have hr' : r ∈ (s.ofDocument row.docId).filter fun row => row.seq ≤ targetSeq :=
      List.mem_filter.mpr ⟨hr, decide_eq_true hbefore⟩
    obtain ⟨base, hbase⟩ := exists_head SnapshotRow.seq hr'
    obtain ⟨hmem, hmax⟩ := le_head hbase
    obtain ⟨hmem, htarget⟩ := List.mem_filter.mp hmem
    exact ⟨base, hbase, (mem_ofDocument.mp hmem).1, hle.trans (hmax r hr'),
      of_decide_eq_true htarget⟩
  · right
    rcases h.kept row hrow with hmem | hnewer
    · exact absurd ⟨row, mem_ofDocument.mpr ⟨hmem, rfl⟩, Nat.le_refl _, htarget⟩ hexists
    · -- all the rows beyond the saved one are beyond the target
      refine hnewer.trans (List.countP_mono_left fun r hr hlt => ?_)
      have hlt := of_decide_eq_true hlt
      rw [decide_eq_true_eq]
      by_contra hle
      exact hexists ⟨r, hr, hlt.le, by omega⟩

/-- Pruning is not seen by `loadLatestSnapshot`. -/
lemma Retained.latest_prune (h : s.Retained sha256) (hrow : row ∈ s.saved) (d : D) :
    (s.pruneOldSnapshots d).loadLatestSnapshot row.docId = s.loadLatestSnapshot row.docId := by
  have hpruned := retained_prune h d
  obtain ⟨latest, hlatest, hmem, hdoc, -⟩ := h.latest hrow
  obtain ⟨latest', hlatest', hmem', hdoc', -⟩ := hpruned.latest hrow
  have hmem' : latest' ∈ s.snapshots := (List.filter_sublist (l := s.snapshots)).subset hmem'
  have hle : latest'.seq ≤ latest.seq :=
    (le_head hlatest).2 latest' (mem_ofDocument.mpr ⟨hmem', hdoc'⟩)
  have hge : latest.seq ≤ latest'.seq := by
    obtain ⟨r, hr, -, -, hle⟩ := hpruned.latest (h.stored hmem)
    rw [hdoc, hlatest'] at hr
    obtain rfl := Option.some.inj hr
    exact hle
  have hsame : latest' = latest := List.inj_on_of_nodup_map (h.seqs row.docId)
    (mem_ofDocument.mpr ⟨hmem', hdoc'⟩) (mem_ofDocument.mpr ⟨hmem, hdoc⟩) (hle.antisymm hge)
  rw [hlatest, hlatest', hsame]

/-- A save that finds its seq taken gets the row that is there, unless a newer one is stored. -/
lemma Retained.reload (h : s.Retained sha256) (hrow : row ∈ s.saved) :
    (s.reloadExisting row.docId row.seq).isSome = true ↔
      newer SnapshotRow.seq row.seq (s.ofDocument row.docId) = 0 := by
  obtain ⟨latest, hlatest, hmem, hdoc, hle⟩ := h.latest hrow
  rw [reloadExisting, hlatest, Option.isSome_filter, newer, List.countP_eq_zero]
  simp only [Option.any_some, decide_eq_true_eq]
  constructor
  · intro hseq r hr
    have hmax := (le_head hlatest).2 r hr
    omega
  · intro hnone
    have hnot := hnone latest (mem_ofDocument.mpr ⟨hmem, hdoc⟩)
    omega

/-- **What is kept of the snapshots**: however saves and prunings are interleaved, the latest one
is intact and as new as any that was ever saved, and pruning does not change it; there is one for
each revision that one was saved for, or ten newer than the revision; a save whose seq is taken
gets an answer as long as no newer one is stored; and pruning leaves ten at most. -/
theorem snapshots_retained (h : s.Reachable sha256) (hrow : row ∈ s.saved) :
    (∃ latest, s.loadLatestSnapshot row.docId = some latest ∧
      verifySnapshot sha256 latest = true ∧ latest.docId = row.docId ∧ row.seq ≤ latest.seq) ∧
    (∀ targetSeq, row.seq ≤ targetSeq →
      (∃ base, s.loadSnapshotBefore row.docId targetSeq = some base ∧
        verifySnapshot sha256 base = true ∧ row.seq ≤ base.seq ∧ base.seq ≤ targetSeq) ∨
      MAX_SNAPSHOTS_PER_DOC ≤ newer SnapshotRow.seq targetSeq (s.ofDocument row.docId)) ∧
    ((s.reloadExisting row.docId row.seq).isSome = true ↔
      newer SnapshotRow.seq row.seq (s.ofDocument row.docId) = 0) ∧
    ∀ docId, (s.pruneOldSnapshots docId).loadLatestSnapshot row.docId =
        s.loadLatestSnapshot row.docId ∧
      ((s.pruneOldSnapshots docId).ofDocument docId).length ≤ MAX_SNAPSHOTS_PER_DOC := by
  have hs := retained_of_reachable h
  refine ⟨?_, fun targetSeq htarget => ?_, hs.reload hrow, fun docId => ⟨?_, ?_⟩⟩
  · obtain ⟨latest, hlatest, hmem, hdoc, hle⟩ := hs.latest hrow
    exact ⟨latest, hlatest, hs.intact latest (hs.stored hmem), hdoc, hle⟩
  · rcases hs.before hrow htarget with ⟨base, hbase, hmem, hle, hbefore⟩ | hnewer
    · exact .inl ⟨base, hbase, hs.intact base (hs.stored hmem), hle, hbefore⟩
    · exact .inr hnewer
  · exact hs.latest_prune hrow docId
  · rw [(ofDocument_prune hs.ids docId).length_eq]
    exact List.length_take_le _ _

/-- Twelve states of a document are saved, the oldest one last, and the document is pruned. -/
def twelveSaves : List (SnapshotEvent Unit) :=
  ((List.range 11).map fun i => .save i () RGADocument.empty (i + 2)) ++
    [.save 11 () RGADocument.empty 1, .prune ()]

/-- The table after it. -/
def twelveSaved : SnapshotTable Unit Nat :=
  (runAllowed (step List.length) (fun _ _ => True) ⟨[], []⟩ twelveSaves).get (by decide +kernel)

/-- The two oldest of them are gone, and there is none for revision two, but ten newer ones. -/
theorem snapshots_retained_twelve :
    twelveSaved.snapshots.length = 10 ∧
      twelveSaved.loadSnapshotBefore () 2 = none ∧
      (∃ latest, twelveSaved.loadLatestSnapshot () = some latest ∧
        verifySnapshot List.length latest = true ∧ latest.docId = () ∧ 1 ≤ latest.seq) :=
  ⟨by decide +kernel, by decide +kernel,
    (@snapshots_retained _ _ _ _ _ _ (snapshotRow List.length 11 () RGADocument.empty 1)
      (reach_get _) (by decide +kernel)).1⟩

end SnapshotTable

end SyncEngine
