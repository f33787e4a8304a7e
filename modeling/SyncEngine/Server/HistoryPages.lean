import SyncEngine.Server.History

/-!
# Pages of the history

`getHistory` (`server/persistence/history-service.ts`): the operations of a document, newest
first, a page at a time, with their total.  A page is read with an OFFSET, so that operations
which are stored between two reads shift everything behind them; and the rows and the total are
read by two queries of which either may be executed first.

* `history_complete`: who reads the pages one after the other, whatever is stored in between, has
  seen every operation there was at the beginning as soon as a page comes out short, or as soon as
  the total, counted after the rows, is covered.  What is stored in between makes rows come
  twice, and never makes one be skipped.
* If nothing is stored in between, the pages put together are the log, each operation once.
-/

namespace SyncEngine

/-- An entry of a page.  When the operation was stored is left out. -/
structure OperationSummary where
  seq : Nat
  userId : JSString
  displayName : JSString
  opType : JSString
  preview : JSString
deriving DecidableEq

/-- What `getHistory` returns; `start` and `stop` are its `from` and `to`. -/
structure HistoryPage where
  ops : List OperationSummary
  total : Nat
  start : Nat
  stop : Nat
deriving DecidableEq

/-- `op.type`, the column `op_type`. -/
def RGAOperation.opType : RGAOperation → JSString
  | .insert _ => JSString.lit "INSERT"
  | .delete _ => JSString.lit "DELETE"
  | .format _ => JSString.lit "FORMAT"
  | .rollback _ => JSString.lit "ROLLBACK"

/-- A value in a template literal. -/
def JsValue.toTemplate : JsValue → JSString
  | .string s => s
  | .object _ => JSString.lit "[object Object]"

/-- The line for an operation. -/
def buildPreview : RGAOperation → JSString
  | .insert op => JSString.lit "Inserted \"" ++ op.value.toTemplate ++ JSString.lit "\""
  | .delete _ => JSString.lit "Deleted character"
  | op => op.opType

namespace Database

/-- `ORDER BY o.seq DESC`. -/
def newestFirst (db : Database) : List OperationEnvelope :=
  db.operations.insertionSort fun a b => b.seq ≤ a.seq

/-- `LIMIT $2 OFFSET $3`. -/
def historyRows (db : Database) (page pageSize : Nat) : List OperationEnvelope :=
  (db.newestFirst.drop (page * pageSize)).take pageSize

/-- Some operations are stored, one after the other. -/
def appendAll (db : Database) (ops : List OperationEnvelope) : Database :=
  ops.foldl (fun db op => (db.appendOperation op).1) db

end Database

section Pages

variable (displayName : JSString → JSString)

/-- A row joined with its user; `user_id` refers to a user that exists. -/
def summarize (row : OperationEnvelope) : OperationSummary where
  seq := row.seq
  userId := row.userId
  displayName := displayName row.userId
  opType := row.op.opType
  preview := buildPreview row.op

/-- `getHistory`, of what its two queries find. -/
def getHistory (rows counted : Database) (page pageSize : Nat) : HistoryPage where
  ops := (rows.historyRows page pageSize).map (summarize displayName)
  total := counted.operations.length
  start := page * pageSize
  stop := min ((page + 1) * pageSize) counted.operations.length

/-- A call of `getHistory`: what is stored before it, and between its two queries. -/
structure HistoryRead where
  before : List OperationEnvelope
  between : List OperationEnvelope
  /-- The count comes first. -/
  countFirst : Bool

/-- One page, and what the document is after the call. -/
def readPage (db : Database) (page pageSize : Nat) (read : HistoryRead) :
    HistoryPage × Database :=
  let first := db.appendAll read.before
  let second := first.appendAll read.between
  (if read.countFirst then getHistory displayName second first page pageSize
    else getHistory displayName first second page pageSize, second)

/-- The pages from `page` on, one call for each. -/
def readPages (pageSize : Nat) : Database → Nat → List HistoryRead → List HistoryPage
  | _, _, [] => []
  | db, page, read :: reads =>
      (readPage displayName db page pageSize read).1 ::
        readPages pageSize (readPage displayName db page pageSize read).2 (page + 1) reads

/-- The page of a call is the last one: it is short, or covers the total, which was counted after
the rows. -/
def IsLast (pageSize : Nat) (read : HistoryRead) (result : HistoryPage) : Prop :=
  result.ops.length < pageSize ∨
    read.countFirst = false ∧ result.total ≤ result.start + pageSize

end Pages

namespace Database

/-! ## The log as it grows -/

lemma length_newestFirst (db : Database) : db.newestFirst.length = db.operations.length :=
  List.length_insertionSort _ _

lemma mem_newestFirst {db : Database} {row : OperationEnvelope} :
    row ∈ db.newestFirst ↔ row ∈ db.operations := List.mem_insertionSort _

lemma pairwise_newestFirst (db : Database) :
    db.newestFirst.Pairwise fun a b => b.seq < a.seq := by
  have hsorted : db.newestFirst.Pairwise fun a b => b.seq ≤ a.seq :=
    List.pairwise_insertionSort (fun a b : OperationEnvelope => b.seq ≤ a.seq) db.operations
  have hnodup : (db.newestFirst.map OperationEnvelope.seq).Nodup :=
    ((List.perm_insertionSort _ db.operations).map OperationEnvelope.seq).nodup_iff.mpr
      db.operations_unique
  exact (hsorted.and (List.pairwise_map.mp hnodup)).imp fun h =>
    lt_of_le_of_ne h.1 (Ne.symm h.2)

lemma newestFirst_appendOperation (db : Database) (op : OperationEnvelope) :
    (db.appendOperation op).1.newestFirst = (db.appendOperation op).2 :: db.newestFirst := by
  have hperm : (db.appendOperation op).1.newestFirst.Perm
      ((db.appendOperation op).2 :: db.newestFirst) := by
    refine (List.perm_insertionSort _ _).trans ?_
    refine (List.perm_append_singleton _ _).trans (List.Perm.cons _ ?_)
    exact (List.perm_insertionSort _ _).symm
  refine hperm.eq_of_pairwise (fun a b _ _ hab hba => absurd hba (lt_asymm hab))
    (pairwise_newestFirst _) (List.pairwise_cons.mpr ⟨fun row hrow => ?_, pairwise_newestFirst db⟩)
  exact Nat.lt_succ_of_le (db.operations_le row (mem_newestFirst.mp hrow))

lemma newestFirst_appendAll (db : Database) (ops : List OperationEnvelope) :
    db.newestFirst <:+ (db.appendAll ops).newestFirst := by
  refine List.foldlRecOn ops _ (motive := fun db' : Database => db.newestFirst <:+ db'.newestFirst)
    (List.suffix_refl _) fun db' h op _ => ?_
  rw [newestFirst_appendOperation]
  exact h.trans (List.suffix_cons _ _)

lemma mem_drop_of_suffix {rows rows' : List OperationEnvelope} (h : rows <:+ rows') {n : Nat}
    {row : OperationEnvelope} (hrow : row ∈ rows.drop n) : row ∈ rows'.drop n := by
  obtain ⟨front, rfl⟩ := h
  rw [List.drop_append]
  exact List.mem_append_right _ ((List.drop_sublist_drop_left _ (Nat.sub_le _ _)).subset hrow)

end Database

open Database

/-! ## Reading on -/

section Reading

variable {displayName : JSString → JSString} {db : Database} {page pageSize : Nat}
variable {read : HistoryRead} {reads : List HistoryRead} {row : OperationEnvelope}

/-- The database of the rows of a call has what there was before, and what there is after has
them. -/
lemma readPage_rows (db : Database) (page pageSize : Nat) (read : HistoryRead) :
    ∃ rows : Database, db.newestFirst <:+ rows.newestFirst ∧
      rows.newestFirst <:+ (readPage displayName db page pageSize read).2.newestFirst ∧
      (readPage displayName db page pageSize read).1.ops =
        (rows.historyRows page pageSize).map (summarize displayName) ∧
      (read.countFirst = false →
        rows.newestFirst.length ≤ (readPage displayName db page pageSize read).1.total) := by
  have hbefore := newestFirst_appendAll db read.before
  have hbetween := newestFirst_appendAll (db.appendAll read.before) read.between
  cases hcount : read.countFirst with
  | true =>
      refine ⟨(db.appendAll read.before).appendAll read.between, hbefore.trans hbetween,
        List.suffix_refl _, ?_, by simp⟩
      simp [readPage, hcount, getHistory]
  | false =>
      refine ⟨db.appendAll read.before, hbefore, hbetween, ?_, fun _ => ?_⟩
      · simp [readPage, hcount, getHistory]
      · have hle := hbetween.length_le
        rw [length_newestFirst ((db.appendAll read.before).appendAll read.between)] at hle
        simpa [readPage, hcount, getHistory] using hle

/-- One call: a row that the pages have yet to reach is on the page, or still ahead; and nothing is
ahead of a last page. -/
lemma readPage_step (hrow : row ∈ db.newestFirst.drop (page * pageSize)) :
    summarize displayName row ∈ (readPage displayName db page pageSize read).1.ops ∨
      row ∈ (readPage displayName db page pageSize read).2.newestFirst.drop
          ((page + 1) * pageSize) ∧
        ¬ IsLast pageSize read (readPage displayName db page pageSize read).1 := by
  obtain ⟨rows, hbefore, hafter, hops, htotal⟩ :=
    @readPage_rows displayName db page pageSize read
  have hahead := mem_drop_of_suffix hbefore hrow
  rw [← List.take_append_drop pageSize (rows.newestFirst.drop _), List.drop_drop] at hahead
  have hnext : page * pageSize + pageSize = (page + 1) * pageSize := (Nat.succ_mul _ _).symm
  rcases List.mem_append.mp hahead with hpage | hrest
  · left
    rw [hops]
    exact List.mem_map_of_mem hpage
  · right
    rw [hnext] at hrest
    refine ⟨mem_drop_of_suffix hafter hrest, ?_⟩
    have hlt : (page + 1) * pageSize < rows.newestFirst.length := by
      have hpos := List.length_pos_of_mem hrest
      rw [List.length_drop] at hpos
      omega
    rintro (hshort | ⟨hcount, hcovered⟩)
    · rw [hops, List.length_map, historyRows, List.length_take, List.length_drop] at hshort
      omega
    · have hle := htotal hcount
      have hstart : (readPage displayName db page pageSize read).1.start = page * pageSize := by
        simp only [readPage]
        split_ifs <;> rfl
      rw [hstart] at hcovered
      omega

/-- All calls, from a page on. -/
lemma readPages_complete (hreads : reads ≠ [])
    (hlast : ∀ result, (readPages displayName pageSize db page reads).getLast? = some result →
      IsLast pageSize (reads.getLast hreads) result)
    (hrow : row ∈ db.newestFirst.drop (page * pageSize)) :
    ∃ result ∈ readPages displayName pageSize db page reads,
      summarize displayName row ∈ result.ops := by
  induction reads generalizing db page with
  | nil => exact absurd rfl hreads
  | cons read reads ih =>
      rw [readPages] at hlast ⊢
      rcases @readPage_step displayName _ _ _ read _ hrow with hpage | ⟨hrest, hnot⟩
      · exact ⟨_, List.mem_cons_self .., hpage⟩
      · cases reads with
        | nil => exact absurd (hlast _ rfl) hnot
        | cons read' reads =>
            have hne : read' :: reads ≠ [] := by simp
            obtain ⟨result, hresult, hmem⟩ := ih hne (fun result hresult => by
              rw [← List.getLast_cons hne]
              refine hlast result ?_
              rw [List.getLast?_cons, hresult]
              rfl) hrest
            exact ⟨result, List.mem_cons_of_mem _ hresult, hmem⟩

/-- Without operations in between, the pages are the log from the offset on. -/
lemma readPages_quiet
    (hquiet : ∀ read ∈ reads, read.before = [] ∧ read.between = []) :
    (readPages displayName pageSize db page reads).flatMap HistoryPage.ops =
      ((db.newestFirst.drop (page * pageSize)).take (reads.length * pageSize)).map
        (summarize displayName) := by
  induction reads generalizing page with
  | nil => simp [readPages]
  | cons read reads ih =>
      obtain ⟨hbefore, hbetween⟩ := hquiet read (List.mem_cons_self ..)
      have hread : readPage displayName db page pageSize read =
          (getHistory displayName db db page pageSize, db) := by
        simp [readPage, hbefore, hbetween, appendAll]
      have ih' := @ih (page + 1) fun r hr => hquiet r (List.mem_cons_of_mem _ hr)
      rw [readPages, hread, List.flatMap_cons, ih', List.length_cons, Nat.succ_mul reads.length,
        Nat.add_comm (reads.length * pageSize), List.take_add, List.map_append, List.drop_drop,
        ← Nat.succ_mul]
      rfl

/-- **The history is complete.**  Once a page has been the last, the pages show every operation
there was before the first call, whatever was stored in the meantime; and if nothing was, they
show the log, newest first, each operation once. -/
theorem history_complete (displayName : JSString → JSString) {last : HistoryRead}
    (hlast : ∀ result,
      (readPages displayName pageSize db 0 (reads ++ [last])).getLast? = some result →
        IsLast pageSize last result) :
    (∀ row ∈ db.operations, ∃ result ∈ readPages displayName pageSize db 0 (reads ++ [last]),
        summarize displayName row ∈ result.ops) ∧
      ((∀ read ∈ reads ++ [last], read.before = [] ∧ read.between = []) →
        (readPages displayName pageSize db 0 (reads ++ [last])).flatMap HistoryPage.ops =
          db.newestFirst.map (summarize displayName)) := by
  have hne : reads ++ [last] ≠ [] := by simp
  have hcomplete : ∀ row ∈ db.operations,
      ∃ result ∈ readPages displayName pageSize db 0 (reads ++ [last]),
        summarize displayName row ∈ result.ops := by
    intro row hrow
    refine readPages_complete hne (fun result hresult => ?_)
      (by simpa using mem_newestFirst.mpr hrow)
    rw [List.getLast_append_singleton]
    exact hlast result hresult
  refine ⟨hcomplete, fun hquiet => ?_⟩
  have hpages := @readPages_quiet displayName db 0 pageSize _ hquiet
  rw [Nat.zero_mul, List.drop_zero] at hpages
  -- the pages reach the end of the log, since they are complete
  set shown := db.newestFirst.take ((reads ++ [last]).length * pageSize) with hshown
  have hsub : db.newestFirst ⊆ shown := by
    intro row hrow
    obtain ⟨result, hresult, hmem⟩ := hcomplete row (mem_newestFirst.mp hrow)
    have hflat : summarize displayName row ∈
        (readPages displayName pageSize db 0 (reads ++ [last])).flatMap HistoryPage.ops :=
      List.mem_flatMap.mpr ⟨result, hresult, hmem⟩
    rw [hpages] at hflat
    obtain ⟨row', hrow', heq⟩ := List.mem_map.mp hflat
    have hseq : row'.seq = row.seq := congrArg OperationSummary.seq heq
    have hmem' : row' ∈ db.newestFirst := List.mem_of_mem_take hrow'
    rwa [← db.eq_of_seq_eq (mem_newestFirst.mp hmem') (mem_newestFirst.mp hrow) hseq]
  have hnd : db.newestFirst.Nodup :=
    (pairwise_newestFirst db).imp fun hlt heq => absurd hlt (by simp [heq])
  have hle := (List.subperm_of_subset hnd hsub).length_le
  have hall : shown = db.newestFirst := (List.take_sublist _ _).eq_of_length_le hle
  rw [hpages, hall]

/-- Three operations, two pages of two, and an operation that is stored between the reads: the
second page repeats what the first one had at its end. -/
theorem history_complete_repeated :
    let stored (n : Nat) : OperationEnvelope :=
      ⟨JSString.ofNat 7, JSString.ofNat 1, JSString.ofNat 2,
        .delete ⟨⟨n, JSString.lit "site"⟩⟩, 0, n, JSString.ofNat n⟩
    let db := Database.empty.appendAll [stored 1, stored 2, stored 3]
    let reads : List HistoryRead := [⟨[], [], false⟩]
    let last : HistoryRead := ⟨[stored 4], [], false⟩
    let pages := readPages id 2 db 0 (reads ++ [last])
    ((∀ row ∈ db.operations, ∃ result ∈ pages, summarize id row ∈ result.ops) ∧
      ((∀ read ∈ reads ++ [last], read.before = [] ∧ read.between = []) →
        pages.flatMap HistoryPage.ops = db.newestFirst.map (summarize id))) ∧
      pages.map (fun page => page.ops.map OperationSummary.seq) = [[3, 2], [2, 1]] := by
  intro stored db reads last pages
  refine ⟨history_complete id fun result hresult => ?_, by decide +kernel⟩
  have hpage : (readPages id 2 db 0 (reads ++ [last])).getLast? =
      some (getHistory id (db.appendAll [stored 4]) (db.appendAll [stored 4]) 1 2) := by
    decide +kernel
  obtain rfl := Option.some.inj (hpage.symm.trans hresult)
  exact Or.inr ⟨rfl, by decide +kernel⟩

end Reading

end SyncEngine
