import SyncEngine.Client.CollaborativeDoc
import SyncEngine.Crdt.Convergence
import SyncEngine.Lib.SharedOrder
import SyncEngine.Server.OfflineMerger

/-!
# Reconnecting

What a client shows after it has rejoined with `lastSeq > 0` and processed the JOIN_ACK.  Two
code paths meet here: `handleJoin` leaves the nodes out of its reply unless it forces a full
reload, and the client's handler always rebuilds its replica from the nodes it was sent.

So neither the replica nor the queue the client had plays any part: the text is that of the
server's document when it was sent (`cells_of_reload`), and otherwise that of the missed
operations alone, replayed from an empty document (`cells_of_incremental`).  What the reconnect is
for is the server's document with the queued operations applied to it.  `reconnect_text` says which
logs, anchors and queues make this the same: the missed operations must show every node of it, the
anchors of which were then missed as well, and no other.
-/

namespace SyncEngine

open ReplicatedList CausalReplay

/-! ## The client's replay and the server's -/

namespace ClientRGADocument

/-- One operation keeps a client's replica and a server's in step, the server's reading it as the
client does. -/
lemma cells_applyOperation_eq {c : ClientRGADocument} {d : RGADocument} (hcells : c.cells = d.cells)
    (hnd : (ids d.cells).Nodup) (op : RGAOperation) :
    (c.applyOperation op).cells = (d.applyOperation op.asClient).1.cells ∧
      (ids (d.applyOperation op.asClient).1.cells).Nodup := by
  rw [← c.applyOperation_asClient op]
  have hedit : op.asClient.IsEdit := by cases op <;> trivial
  by_cases hroot : op.asClient.uid = rootUID
  · rw [c.cells_applyOperation_root hroot, d.cells_applyOperation_root hroot]
    exact ⟨hcells, hnd⟩
  · obtain ⟨e, he⟩ := exists_edit hedit
    rw [c.cells_applyOperation (hcells ▸ hnd) hroot he,
      RGADocument.cells_applyOperation hnd hroot he, hcells]
    exact ⟨rfl, nodup_ids_step hnd e⟩

lemma cells_applyOperations_eq {c : ClientRGADocument} {d : RGADocument}
    (hcells : c.cells = d.cells) (hnd : (ids d.cells).Nodup) (ops : List RGAOperation) :
    (c.applyOperations ops).cells = (d.applyOperations (ops.map RGAOperation.asClient)).cells := by
  induction ops generalizing c d with
  | nil => exact hcells
  | cons op ops ih =>
      obtain ⟨hcells', hnd'⟩ := cells_applyOperation_eq hcells hnd op
      exact ih hcells' hnd'

end ClientRGADocument

/-! ## The JOIN_ACK -/

variable {db : Database} {sessionId : JSString} {msg : JoinMessage} {cached : CachedDocument}

/-- The replica of a client that has processed a JOIN_ACK. -/
def rejoined (s : CollaborativeDoc) (ack : JoinAckMessage) : Option ClientRGADocument :=
  (s.handleServerMessage (.joinAck ack)).1.docRef

/-- It is rebuilt from the message alone. -/
lemma rejoined_eq (s : CollaborativeDoc) (ack : JoinAckMessage) :
    rejoined s ack =
      some ((ClientRGADocument.deserialize ack.snapshot.nodes ack.siteId).applyOperations
        (ack.missedOps.map OperationEnvelope.op)) := rfl

/-- With a reload it is the server's document. -/
lemma cells_of_reload (s : CollaborativeDoc) (hlast : 0 < msg.lastSeq)
    (hforce : shouldForceFullReload (getMissedOperations db msg.lastSeq) = true) :
    (rejoined s (joinAck sessionId msg (missedReply db msg) cached)).map ClientRGADocument.cells =
      some cached.doc.cells := by
  obtain ⟨hmissed, hnodes⟩ := joinAck_of_reload hlast hforce sessionId cached
  rw [rejoined_eq, hmissed, hnodes, Option.map_some, Option.some.injEq]
  exact (ClientRGADocument.cells_deserialize _ _ _).trans cached.doc.cells_serialize

/-- Without one it is what the missed operations build from nothing. -/
lemma cells_of_incremental (s : CollaborativeDoc) (hlast : 0 < msg.lastSeq)
    (hforce : shouldForceFullReload (getMissedOperations db msg.lastSeq) = false) :
    (rejoined s (joinAck sessionId msg (missedReply db msg) cached)).map ClientRGADocument.cells =
      some (RGADocument.empty.applyOperations
        ((getMissedOperations db msg.lastSeq).map fun row => row.op.asClient)).cells := by
  obtain ⟨hmissed, hnodes⟩ := joinAck_of_incremental hlast hforce sessionId cached
  rw [rejoined_eq, hmissed, hnodes, Option.map_some, Option.some.injEq]
  have hempty : (ClientRGADocument.deserialize []
      (joinAck sessionId msg (missedReply db msg) cached).siteId).cells =
        RGADocument.empty.cells := rfl
  refine (ClientRGADocument.cells_applyOperations_eq hempty (by simp) _).trans ?_
  rw [List.map_map]
  rfl

/-! ## What is to be seen -/

/-- A value that is shown as a nonempty string. -/
def JsValue.IsText (v : JsValue) : Prop := v ≠ .string [] ∧ ∀ json, v ≠ .object json

lemma JsValue.IsText.exists_string {v : JsValue} (h : v.IsText) : ∃ text, v = .string text := by
  cases v with
  | string text => exact ⟨text, rfl⟩
  | object json => exact absurd rfl (h.2 json)

lemma JsValue.IsText.text_ne_nil {v : JsValue} (h : v.IsText) : v.text ≠ [] := by
  cases v with
  | string text => exact fun hnil => h.1 (congrArg JsValue.string hnil)
  | object json => exact absurd rfl (h.2 json)

/-- The operations show the node: an INSERT of it finds its anchor, and no DELETE comes after. -/
abbrev ShownBy (ops : List RGAOperation) (u : UID) : Prop := Lasts (nodeEdits ops) u

/-- The missed operations as the client reads them. -/
def missedEdits (db : Database) (lastSeq : Nat) : List RGAOperation :=
  (getMissedOperations db lastSeq).map fun row => row.op.asClient

/-- The document is indexed, and what it shows are strings. -/
structure Plain (doc : RGADocument) : Prop where
  indexed : doc.Indexed
  strings : ∀ c ∈ doc.cells, c.dead = false → ∃ text, c.value = .string text

/-- The document is what the operations `built` make of nothing.  A UID belongs to one INSERT,
among the queued and the missed operations too, and what the missed ones show are strings. -/
structure BuiltFrom (doc : RGADocument) (built queued missed : List RGAOperation) : Prop where
  cells_eq : doc.cells = (RGADocument.empty.applyOperations built).cells
  one_insert : UniqueGivers Edit.gives (nodeEdits missed ++ nodeEdits (built ++ queued))
  strings : ∀ i, .insert i ∈ missed → ShownBy missed i.uid → ∃ text, i.value = .string text

/-- **What is to be seen is what the JOIN_ACK brings.**  With a reload, the queue adds no node to
what the document shows and takes none away.  Without one, the operations the document was built
from and the queued ones together show the same nodes as the missed operations do alone. -/
def Recovers (db : Database) (lastSeq : Nat) (queued : List RGAOperation) (doc : RGADocument) :
    Prop :=
  if maxTotalPayloadChars < totalChars (getMissedOperations db lastSeq) then
    Plain doc ∧ ∀ u, doc.Shows u ↔ (doc.applyOperations queued).Shows u
  else
    ∃ built, BuiltFrom doc built queued (missedEdits db lastSeq) ∧
      ∀ u, ShownBy (missedEdits db lastSeq) u ↔ ShownBy (built ++ queued) u

/-- One of the two shows every node of the other, and no node is shown as the empty string; so
equal texts cannot come from different nodes. -/
def Comparable (db : Database) (lastSeq : Nat) (queued : List RGAOperation) (doc : RGADocument) :
    Prop :=
  if maxTotalPayloadChars < totalChars (getMissedOperations db lastSeq) then
    Plain doc ∧
      (∀ c ∈ doc.cells ++ (doc.applyOperations queued).cells, c.value.IsText) ∧
      ((∀ u, doc.Shows u → (doc.applyOperations queued).Shows u) ∨
        ∀ u, (doc.applyOperations queued).Shows u → doc.Shows u)
  else
    ∃ built, BuiltFrom doc built queued (missedEdits db lastSeq) ∧
      (∀ i, .insert i ∈ missedEdits db lastSeq ++ (built ++ queued) → i.value.IsText) ∧
      ((∀ u, ShownBy (missedEdits db lastSeq) u → ShownBy (built ++ queued) u) ∨
        ∀ u, ShownBy (built ++ queued) u → ShownBy (missedEdits db lastSeq) u)

/-! ## Texts of live cells -/

/-- The cells that are shown. -/
abbrev live (cells : List (Cell UID JsValue)) : List (Cell UID JsValue) :=
  cells.filter fun c => !c.dead

lemma flatMap_live (f : JsValue → JSString) (cells : List (Cell UID JsValue)) :
    (cells.flatMap fun c => if c.dead then [] else f c.value) =
      (live cells).flatMap fun c => f c.value := by
  induction cells with
  | nil => rfl
  | cons c cells ih => cases hc : c.dead <;> simp [hc, ih]

lemma shownText_eq_live (cells : List (Cell UID JsValue)) :
    shownText cells = (live cells).flatMap fun c => c.value.render :=
  flatMap_live JsValue.render cells

lemma toText_eq_live (doc : RGADocument) :
    doc.toText = (live doc.cells).flatMap fun c => c.value.text :=
  doc.toText_eq_cells.trans (flatMap_live JsValue.text doc.cells)

lemma shown_iff_live {cells : List (Cell UID JsValue)} {u : UID} :
    Shown cells u ↔ u ∈ ids (live cells) := by
  simp [Shown, ids, live, and_assoc, and_comm, and_left_comm]

lemma render_eq_text {cells : List (Cell UID JsValue)}
    (h : ∀ c ∈ cells, ∃ text, c.value = .string text) :
    (cells.flatMap fun c => c.value.render) = cells.flatMap fun c => c.value.text :=
  List.flatMap_congr fun c hc => by
    obtain ⟨text, htext⟩ := h c hc
    rw [htext]
    rfl

/-- A part of a list of nonempty texts reads like the whole only if nothing is missing. -/
lemma eq_of_flatMap_eq {α : Type*} {f : α → JSString} {l m : List α} (h : l.Sublist m)
    (hf : ∀ a ∈ m, f a ≠ []) (heq : l.flatMap f = m.flatMap f) : l = m := by
  have hle : ∀ {l m : List α}, l.Sublist m → (l.flatMap f).length ≤ (m.flatMap f).length := by
    intro l m h
    induction h with
    | slnil => exact Nat.le_refl _
    | cons a h ih => exact ih.trans (by simp)
    | cons_cons a h ih => simpa using ih
  induction h with
  | slnil => rfl
  | cons a h ih =>
      have hlen := congrArg List.length heq
      rw [List.flatMap_cons, List.length_append] at hlen
      have hpos := List.length_pos_iff.mpr (hf a (List.mem_cons_self ..))
      have := hle h
      omega
  | cons_cons a h ih =>
      rw [List.flatMap_cons, List.flatMap_cons] at heq
      rw [ih (fun b hb => hf b (List.mem_cons_of_mem _ hb)) (List.append_cancel_left heq)]

section Texts

variable {sent target : List (Cell UID JsValue)}

/-- Where the same cells are shown, the texts are the same. -/
lemma shownText_of_live_eq (h : live sent = live target)
    (hstrings : ∀ c ∈ live sent, ∃ text, c.value = .string text) :
    shownText sent = (live target).flatMap fun c => c.value.text := by
  rw [shownText_eq_live, render_eq_text hstrings, h]

/-- And only there, when one of the two shows all the other shows. -/
lemma live_eq_of_shownText
    (h : (live sent).Sublist (live target) ∨ (live target).Sublist (live sent))
    (htext : ∀ c ∈ live sent ++ live target, c.value.IsText)
    (heq : shownText sent = (live target).flatMap fun c => c.value.text) :
    live sent = live target := by
  have hsent : ∀ c ∈ live sent, c.value.IsText := fun c hc => htext c (List.mem_append_left _ hc)
  have htarget : ∀ c ∈ live target, c.value.IsText := fun c hc =>
    htext c (List.mem_append_right _ hc)
  rw [shownText_eq_live, render_eq_text fun c hc => (hsent c hc).exists_string] at heq
  rcases h with h | h
  · exact eq_of_flatMap_eq h (fun c hc => (htarget c hc).text_ne_nil) heq
  · exact (eq_of_flatMap_eq h (fun c hc => (hsent c hc).text_ne_nil) heq.symm).symm

end Texts

/-! ## The text after a reconnect -/

/-- The client that has processed the JOIN_ACK shows the server's document with its own queued
operations applied. -/
def ShowsMerged (s : CollaborativeDoc) (clientId sessionId : JSString) (db : Database)
    (cached : CachedDocument) : Prop :=
  (rejoined s (joinAck sessionId (s.joinMessage clientId)
      (missedReply db (s.joinMessage clientId)) cached)).map ClientRGADocument.toText =
    some (cached.doc.applyOperations (s.queueRef.map QueuedOperation.op)).toText

variable {s : CollaborativeDoc} {clientId : JSString}

lemma map_toText (d : Option ClientRGADocument) :
    d.map ClientRGADocument.toText = (d.map ClientRGADocument.cells).map shownText := by
  rw [Option.map_map]
  exact congrArg (fun f => d.map f) (funext ClientRGADocument.toText_eq)

lemma showsMerged_of_reload (hlast : 0 < s.lastSeqRef)
    (hlarge : maxTotalPayloadChars < totalChars (getMissedOperations db s.lastSeqRef)) :
    ShowsMerged s clientId sessionId db cached ↔ shownText cached.doc.cells =
      (live (cached.doc.applyOperations (s.queueRef.map QueuedOperation.op)).cells).flatMap
        fun c => c.value.text := by
  rw [ShowsMerged, map_toText, cells_of_reload s hlast
    ((shouldForceFullReload_getMissedOperations db s.lastSeqRef).mpr hlarge), toText_eq_live]
  simp

lemma showsMerged_of_incremental (hlast : 0 < s.lastSeqRef)
    (hsmall : ¬ maxTotalPayloadChars < totalChars (getMissedOperations db s.lastSeqRef)) :
    ShowsMerged s clientId sessionId db cached ↔
      shownText (replay (nodeEdits (missedEdits db s.lastSeqRef))) =
        (live (cached.doc.applyOperations (s.queueRef.map QueuedOperation.op)).cells).flatMap
          fun c => c.value.text := by
  have hforce : shouldForceFullReload (getMissedOperations db s.lastSeqRef) = false := by
    rw [← Bool.not_eq_true, shouldForceFullReload_getMissedOperations]
    exact hsmall
  rw [ShowsMerged, map_toText, cells_of_incremental s hlast hforce, toText_eq_live,
    ← RGADocument.cells_applyOperations_empty]
  simp [missedEdits, CollaborativeDoc.joinMessage]

lemma BuiltFrom.cells_queued {doc : RGADocument} {built queued missed : List RGAOperation}
    (h : BuiltFrom doc built queued missed) :
    (doc.applyOperations queued).cells = replay (nodeEdits (built ++ queued)) := by
  have hindexed : doc.Indexed :=
    (RGADocument.indexed_empty.applyOperations built).of_cells_eq h.cells_eq
  rw [hindexed.cells_applyOperations, h.cells_eq, RGADocument.cells_applyOperations_empty,
    nodeEdits_append, replay, replay, List.foldl_append]

lemma exists_insert_of_mem_replay {ops : List RGAOperation} {c : Cell UID JsValue}
    (hc : c ∈ replay (nodeEdits ops)) :
    ∃ i, .insert i ∈ ops ∧ i.uid = c.id ∧ i.value = c.value := by
  obtain ⟨a, ha⟩ := exists_insert_of_mem hc
  obtain ⟨op, hop, hedit⟩ := mem_edits.mp ha
  have hmem := (List.mem_filter.mp hop).1
  cases op with
  | insert i =>
      simp only [RGAOperation.edit?, InsertOperation.edit, Option.some.injEq,
        Edit.insert.injEq] at hedit
      exact ⟨i, hmem, hedit.1, hedit.2.2⟩
  | delete del => simp [RGAOperation.edit?] at hedit
  | format f => simp [RGAOperation.edit?] at hedit
  | rollback r => simp [RGAOperation.edit?] at hedit

/-- A reload: the document against the document with the queue. -/
lemma shown_of_reload {doc : RGADocument} {queued : List RGAOperation} (hdoc : doc.Indexed) :
    ((∀ u, doc.Shows u → (doc.applyOperations queued).Shows u) →
        (live doc.cells).Sublist (live (doc.applyOperations queued).cells)) ∧
      ((∀ u, (doc.applyOperations queued).Shows u → doc.Shows u) →
        (live (doc.applyOperations queued).cells).Sublist (live doc.cells)) := by
  have hcells := hdoc.cells_applyOperations queued
  constructor
  · intro h
    rw [hcells]
    exact live_sublist_foldl hdoc.nodup _ fun u hu => hcells ▸ h u hu
  · intro h
    rw [hcells]
    exact live_foldl_sublist hdoc.nodup _ fun u hu => h u (show Shown _ u from hcells ▸ hu)

/-- No reload: the missed operations against the ones the document was built from, and the
queue. -/
lemma BuiltFrom.shown {doc : RGADocument} {built queued missed : List RGAOperation}
    (h : BuiltFrom doc built queued missed) :
    ((∀ u, ShownBy missed u → ShownBy (built ++ queued) u) →
        (live (replay (nodeEdits missed))).Sublist (live (doc.applyOperations queued).cells)) ∧
      ((∀ u, ShownBy (built ++ queued) u → ShownBy missed u) →
        (live (doc.applyOperations queued).cells).Sublist (live (replay (nodeEdits missed)))) := by
  rw [h.cells_queued]
  have hone : UniqueGivers Edit.gives (nodeEdits (built ++ queued) ++ nodeEdits missed) := by
    have hmem : ∀ {e}, e ∈ nodeEdits (built ++ queued) ++ nodeEdits missed →
        e ∈ nodeEdits missed ++ nodeEdits (built ++ queued) := by
      intro e he
      exact List.mem_append.mpr (List.mem_append.mp he).symm
    exact fun e he e' he' => h.one_insert e (hmem he) e' (hmem he')
  exact ⟨live_sublist h.one_insert, live_sublist hone⟩

/-- **A reconnect that loses nothing** is one whose JOIN_ACK brings what is to be seen
(`Recovers`): then the rejoined client shows the server's document with the queued operations
applied.  Where equal texts cannot come from different nodes, it does so only then. -/
theorem reconnect_text (s : CollaborativeDoc) (clientId sessionId : JSString) (db : Database)
    (cached : CachedDocument) (hlast : 0 < s.lastSeqRef) :
    let queued := s.queueRef.map QueuedOperation.op
    (Recovers db s.lastSeqRef queued cached.doc → ShowsMerged s clientId sessionId db cached) ∧
      (Comparable db s.lastSeqRef queued cached.doc → ShowsMerged s clientId sessionId db cached →
        Recovers db s.lastSeqRef queued cached.doc) := by
  intro queued
  -- a forced reload brings the nodes of the server, any other JOIN_ACK the missed operations alone
  by_cases hlarge : maxTotalPayloadChars < totalChars (getMissedOperations db s.lastSeqRef)
  · rw [Recovers, Comparable, if_pos hlarge, if_pos hlarge, showsMerged_of_reload hlast hlarge]
    constructor
    · rintro ⟨hplain, hshows⟩
      have hlive := ((shown_of_reload hplain.indexed).1 fun u => (hshows u).mp).antisymm
        ((shown_of_reload hplain.indexed).2 fun u => (hshows u).mpr)
      refine shownText_of_live_eq hlive fun c hc => ?_
      obtain ⟨hc, hdead⟩ := List.mem_filter.mp hc
      exact hplain.strings c hc (by simpa using hdead)
    · rintro ⟨hplain, htext, hcomp⟩ heq
      have hvalues : ∀ c ∈ live cached.doc.cells ++
          live (cached.doc.applyOperations queued).cells, c.value.IsText := by
        intro c hc
        rw [← List.filter_append] at hc
        exact htext c (List.mem_filter.mp hc).1
      -- the two lists hold their nodes in one order, so equal texts of them are equal lists
      have hlive := live_eq_of_shownText (hcomp.imp (shown_of_reload hplain.indexed).1
        (shown_of_reload hplain.indexed).2) hvalues heq
      refine ⟨hplain, fun u => ?_⟩
      rw [RGADocument.Shows, RGADocument.Shows]
      exact (shown_iff_live.trans (hlive ▸ Iff.rfl)).trans shown_iff_live.symm
  · rw [Recovers, Comparable, if_neg hlarge, if_neg hlarge,
      showsMerged_of_incremental hlast hlarge]
    constructor
    · rintro ⟨built, hbuilt, hshows⟩
      have hlive := (hbuilt.shown.1 fun u => (hshows u).mp).antisymm
        (hbuilt.shown.2 fun u => (hshows u).mpr)
      refine shownText_of_live_eq hlive fun c hc => ?_
      obtain ⟨hmem, hdead⟩ := List.mem_filter.mp hc
      obtain ⟨i, hi, huid, hvalue⟩ := exists_insert_of_mem_replay hmem
      exact hvalue ▸ hbuilt.strings i hi
        (huid ▸ shown_replay_iff.mp ⟨c, hmem, rfl, by simpa using hdead⟩)
    · rintro ⟨built, hbuilt, htext, hcomp⟩ heq
      have hvalues : ∀ c ∈ live (replay (nodeEdits (missedEdits db s.lastSeqRef))) ++
          live (cached.doc.applyOperations queued).cells, c.value.IsText := by
        intro c hc
        rw [hbuilt.cells_queued] at hc
        rcases List.mem_append.mp hc with hc | hc
        · obtain ⟨i, hi, -, hvalue⟩ := exists_insert_of_mem_replay (List.mem_filter.mp hc).1
          exact hvalue ▸ htext i (List.mem_append_left _ hi)
        · obtain ⟨i, hi, -, hvalue⟩ := exists_insert_of_mem_replay (List.mem_filter.mp hc).1
          exact hvalue ▸ htext i (List.mem_append_right _ hi)
      have hlive := live_eq_of_shownText (hcomp.imp hbuilt.shown.1 hbuilt.shown.2) hvalues heq
      refine ⟨built, hbuilt, fun u => ?_⟩
      rw [ShownBy, ShownBy, ← shown_replay_iff, ← shown_replay_iff, ← hbuilt.cells_queued,
        shown_iff_live, shown_iff_live, hlive]

/-- One character, its deletion, and the same character once more. -/
def retypedLog : Database where
  operations := [typedRow 1, { typedRow 2 with op := .delete ⟨⟨1, JSString.lit "a"⟩⟩ },
    { typedRow 3 with op := .insert ⟨⟨3, JSString.lit "a"⟩, none, .string (JSString.lit "x")⟩ }]
  documentSeq := 3
  snapshots := []
  operations_unique := by decide
  operations_le := by decide
  snapshots_unique := List.nodup_nil

/-- A client that has seen the deletion, and has nothing queued. -/
theorem reconnect_text_retyped :
    ShowsMerged ⟨JSString.lit "d", none, [], 0, 2, []⟩ (JSString.lit "b") (JSString.lit "s")
      retypedLog ⟨RGADocument.empty.applyOperations
        (retypedLog.operations.map OperationEnvelope.op), 3, 3⟩ := by
  refine (reconnect_text _ _ _ _ _ (by decide)).1 ?_
  rw [Recovers, if_neg (by decide)]
  refine ⟨retypedLog.operations.map OperationEnvelope.op, ⟨rfl, ?_, ?_⟩, fun u => ?_⟩
  · rw [← nodeEdits_append]
    have hset : EditSet {op | op ∈ retypedLog.operations.map OperationEnvelope.op} :=
      EditSet.of_inserted
        (show ∀ op ∈ retypedLog.operations.map OperationEnvelope.op, op.IsEdit by decide)
        (show ∀ p ∈ retypedLog.operations.map OperationEnvelope.op,
          ∀ q ∈ retypedLog.operations.map OperationEnvelope.op,
            p.inserted ≠ none → p.inserted = q.inserted → p = q by decide)
        (show ∀ p ∈ retypedLog.operations.map OperationEnvelope.op,
          p.inserted ≠ some rootUID by decide)
    exact hset.uniqueGivers (show ∀ op ∈ List.filter _ _, _ ∈ List.map _ _ by decide)
  · intro i hi _
    have hmissed : missedEdits retypedLog 2 =
        [.insert ⟨⟨3, JSString.lit "a"⟩, none, .string (JSString.lit "x")⟩] := by decide
    rw [hmissed, List.mem_singleton] at hi
    exact ⟨_, congrArg InsertOperation.value (RGAOperation.insert.inj hi)⟩
  · rw [ShownBy, ShownBy, ← shown_replay_iff, ← shown_replay_iff, shown_iff_live, shown_iff_live]
    exact iff_of_eq (congrArg (u ∈ ·) (by decide))

/-- A client that has received the only character of the document and rejoins shows nothing. -/
theorem not_forall_reconnect_text :
    ¬ ∀ (s : CollaborativeDoc) (clientId sessionId : JSString) (db : Database)
        (cached : CachedDocument), 0 < s.lastSeqRef →
      ShowsMerged s clientId sessionId db cached := by
  intro h
  let doc := RGADocument.empty.applyOperations [(typedRow 1).op]
  let replica := ClientRGADocument.deserialize doc.serialize (JSString.lit "b")
  have htext := h ⟨JSString.lit "d", some replica, [], 0, 1, replica.toText⟩ (JSString.lit "b")
    (JSString.lit "s") (typedLog 1) ⟨doc, 1, 1⟩ (by decide)
  exact absurd htext (by unfold ShowsMerged; decide)

end SyncEngine
