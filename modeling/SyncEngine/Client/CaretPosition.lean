import Mathlib.Algebra.GroupWithZero.Nat
import SyncEngine.Client.VisibleIndex
import SyncEngine.Shared.Presence

/-!
# Caret positions

The way of a caret from one browser to another: `handleSelect` turns the point into an offset of
the text, `sendCursor` turns the offset into the UID of the node in front of it, and the other
side turns the UID into an index and the index into a point (`client/components/RichTextEditor.tsx`,
`client/hooks/useCollaborativeDoc.ts`, `client/crdt/client-rga.ts`).

The two halves of the editor are inverse (`indexToPoint_handleSelect`), and so are the two walks of
the document.  They do not count the same things: the editor counts code units, the document
nodes, and a character outside the basic plane is one node of two units.

* A caret survives exactly when its offset is at most the number of nodes that are shown
  (`caret_survives_iff`); otherwise the message carries no node at all.
* Where every node that is shown is one unit, every caret survives (`caret_survives_of_units`).
-/

namespace SyncEngine

open ReplicatedList

/-! ## The editor -/

/-- A leaf; its marks are left out. -/
structure SlateText where
  text : JSString
deriving DecidableEq

/-- A paragraph. -/
structure SlateElement where
  children : List SlateText
deriving DecidableEq

/-- A place in the editor: paragraph, leaf, and offset in the leaf. -/
structure Point where
  path : Nat × Nat
  offset : Nat
deriving DecidableEq

namespace RichTextEditor

/-- `'\n'`. -/
def newline : CodeUnit := JSString.codeUnit '\n'

/-- A plain text as a value of the editor: one paragraph for each line. -/
def deserialize (str : JSString) : List SlateElement :=
  if str = [] then [⟨[⟨[]⟩]⟩] else (str.splitOn newline).map fun line => ⟨[⟨line⟩]⟩

/-- The inner loop of `indexToPoint`, over the leaves of paragraph `i` from leaf `j` on. -/
def leafPoint (index count i : Nat) : Nat → Nat → List SlateText → Option Point
  | _, _, [] => none
  | j, leafCount, leaf :: rest =>
      if index ≤ count + leafCount + leaf.text.length then
        some ⟨(i, j), index - count - leafCount⟩
      else leafPoint index count i (j + 1) (leafCount + leaf.text.length) rest

/-- The outer loop, from paragraph `i` on. -/
def indexToPointFrom (index : Nat) : Nat → Nat → List SlateElement → Option Point
  | _, _, [] => none
  | i, count, p :: rest =>
      let pTextLength := (p.children.map fun leaf => leaf.text.length).sum
      let point :=
        if index ≤ count + pTextLength then leafPoint index count i 0 0 p.children else none
      point.orElse fun _ => indexToPointFrom index (i + 1) (count + pTextLength + 1) rest

/-- Converts a string index to a path and an offset. -/
def indexToPoint (index : Nat) (value : List SlateElement) : Option Point :=
  indexToPointFrom index 0 0 value

/-- The length of a paragraph's text, and one for the newline. -/
def paragraphLength (node : SlateElement) : Nat := (node.children.flatMap SlateText.text).length + 1

/-- The offset `handleSelect` reports for a caret. -/
def handleSelect (value : List SlateElement) (anchor : Point) : Nat :=
  ((value.take anchor.path.1).map paragraphLength).sum + anchor.offset

/-- The editor can have its caret there. -/
def IsCaret (value : List SlateElement) (point : Point) : Prop :=
  ∃ p leaf, value[point.path.1]? = some p ∧ p.children[point.path.2]? = some leaf ∧
    point.offset ≤ leaf.text.length

end RichTextEditor

/-! ## The hook -/

/-- `sendCursor`, with the document the hook holds. -/
def sendCursor (docRef : Option ClientRGADocument) (docId sessionId : JSString)
    (afterIndex : Option Nat) : PresenceMessage :=
  let uid := afterIndex.bind fun index => docRef.bind fun d => d.getAfterUID index
  ⟨docId, ⟨sessionId, some ⟨uid, none⟩, false⟩⟩

/-- The point at which `decorate` looks for the leaf that shows the cursor of another user.  Of a
leaf without text it returns nothing, so in an empty paragraph nothing is drawn there. -/
def cursorPoint (docRef : Option ClientRGADocument) (value : List SlateElement)
    (cursor : Option CursorPosition) : Option Point := do
  let cursor ← cursor
  let uid ← cursor.afterUid
  let d ← docRef
  let index ← d.uidToIndex uid
  RichTextEditor.indexToPoint index value

namespace ClientRGADocument

/-- The nodes that are shown. -/
def toNodes (d : ClientRGADocument) : List ClientNode := d.nodes.filter fun n => !n.tombstoned

/-- The replicas show the same nodes. -/
def Converged (d e : ClientRGADocument) : Prop := d.toNodes = e.toNodes

instance (d e : ClientRGADocument) : Decidable (d.Converged e) :=
  inferInstanceAs (Decidable (_ = _))

lemma map_uid_toNodes (d : ClientRGADocument) :
    d.toNodes.map ClientNode.uid = shownIds d.cells := by
  rw [toNodes, shownIds, cells, List.filter_map, ids, List.map_map]
  rfl

end ClientRGADocument

/-! ## The editor's own round trip -/

namespace RichTextEditor

/-- Every paragraph has one leaf, as `deserialize` makes them. -/
def OneLeaf (value : List SlateElement) : Prop := ∀ p ∈ value, ∃ text, p = ⟨[⟨text⟩]⟩

lemma oneLeaf_deserialize (str : JSString) : OneLeaf (deserialize str) := by
  intro p hp
  rw [deserialize] at hp
  split at hp
  · exact ⟨[], List.mem_singleton.mp hp⟩
  · obtain ⟨line, -, rfl⟩ := List.mem_map.mp hp
    exact ⟨line, rfl⟩

@[simp] lemma paragraphLength_leaf (text : JSString) :
    paragraphLength ⟨[⟨text⟩]⟩ = text.length + 1 := by simp [paragraphLength]

/-- The paragraphs in front are passed, and the caret's is found. -/
lemma indexToPointFrom_append {pre post : List SlateElement} {text : JSString} {offset : Nat}
    (hpre : OneLeaf pre) (hoffset : offset ≤ text.length) (i count : Nat) :
    indexToPointFrom (count + (pre.map paragraphLength).sum + offset) i count
        (pre ++ ⟨[⟨text⟩]⟩ :: post) = some ⟨(i + pre.length, 0), offset⟩ := by
  induction pre generalizing i count with
  | nil => simp [indexToPointFrom, leafPoint, hoffset]
  | cons p pre ih =>
      obtain ⟨line, rfl⟩ := hpre p List.mem_cons_self
      have ih' := ih (fun q hq => hpre q (List.mem_cons_of_mem _ hq)) (i + 1)
        (count + line.length + 1)
      have hindex : count + line.length + 1 + (pre.map paragraphLength).sum + offset =
          count + (paragraphLength ⟨[⟨line⟩]⟩ + (pre.map paragraphLength).sum) + offset := by
        rw [paragraphLength_leaf]
        omega
      have hpast : ¬ count + (paragraphLength ⟨[⟨line⟩]⟩ + (pre.map paragraphLength).sum) +
          offset ≤ count + line.length := by
        rw [paragraphLength_leaf]
        omega
      rw [hindex] at ih'
      rw [List.map_cons, List.sum_cons, List.cons_append, indexToPointFrom]
      simp only [List.map_cons, List.map_nil, List.sum_cons, List.sum_nil, Nat.add_zero,
        if_neg hpast, Option.orElse_none, ih', List.length_cons]
      congr 3
      omega

/-- A caret in paragraphs of one leaf. -/
lemma IsCaret.split {value : List SlateElement} {point : Point} (h : IsCaret value point)
    (hone : OneLeaf value) :
    ∃ pre text post, value = pre ++ ⟨[⟨text⟩]⟩ :: post ∧ point.path = (pre.length, 0) ∧
      point.offset ≤ text.length := by
  obtain ⟨p, leaf, hp, hleaf, hoffset⟩ := h
  obtain ⟨text, rfl⟩ := hone p (List.mem_of_getElem? hp)
  obtain ⟨hlt, hget⟩ := List.getElem?_eq_some_iff.mp hp
  obtain ⟨hzero, hleaf⟩ := List.getElem?_eq_some_iff.mp hleaf
  have hsnd : point.path.2 = 0 := by simpa using hzero
  refine ⟨value.take point.path.1, text, value.drop (point.path.1 + 1), ?_, ?_, ?_⟩
  · rw [← hget, List.getElem_cons_drop, List.take_append_drop]
  · rw [List.length_take, Nat.min_eq_left hlt.le, ← hsnd]
  · simp only [hsnd, List.getElem_cons_zero] at hleaf
    subst hleaf
    exact hoffset

/-- **The two conversions of the editor are inverse.** -/
theorem indexToPoint_handleSelect {value : List SlateElement} {point : Point}
    (h : IsCaret value point) (hone : OneLeaf value) :
    indexToPoint (handleSelect value point) value = some point := by
  obtain ⟨pre, text, post, rfl, hpath, hoffset⟩ := h.split hone
  have hpre : OneLeaf pre := fun p hp => hone p (List.mem_append_left _ hp)
  have hpoint : indexToPointFrom (0 + (pre.map paragraphLength).sum + point.offset) 0 0
      (pre ++ ⟨[⟨text⟩]⟩ :: post) = some ⟨(0 + pre.length, 0), point.offset⟩ :=
    indexToPointFrom_append hpre hoffset 0 0
  rw [Nat.zero_add, Nat.zero_add] at hpoint
  rw [indexToPoint, handleSelect, hpath, List.take_left, hpoint, ← hpath]

/-- The lines of a text, with a newline for each, are one unit longer than the text. -/
lemma sum_paragraphLength_deserialize (str : JSString) :
    ((deserialize str).map paragraphLength).sum = str.length + 1 := by
  have hlines : ∀ str : JSString,
      ((str.splitOn newline).map fun line => line.length + 1).sum = str.length + 1 := by
    intro str
    induction str with
    | nil => rfl
    | cons u str ih =>
        rw [List.splitOn_cons_eq_if_modifyHead]
        split
        · rw [List.map_cons, List.sum_cons, ih, List.length_nil, List.length_cons]
          omega
        · cases hsplit : str.splitOn newline with
          | nil => exact absurd hsplit (List.splitOn_ne_nil _ _)
          | cons line lines =>
              rw [hsplit, List.map_cons, List.sum_cons] at ih
              rw [List.modifyHead_cons, List.map_cons, List.sum_cons, List.length_cons,
                List.length_cons]
              omega
  rw [deserialize]
  split
  · rename_i hnil
    rw [hnil]
    rfl
  · rw [List.map_map, ← hlines]
    refine congrArg List.sum (List.map_congr_left fun line _ => ?_)
    rw [Function.comp_apply, paragraphLength_leaf]

lemma handleSelect_le {str : JSString} {point : Point} (h : IsCaret (deserialize str) point) :
    handleSelect (deserialize str) point ≤ str.length := by
  obtain ⟨pre, text, post, hvalue, hpath, hoffset⟩ := h.split (oneLeaf_deserialize str)
  have hsum := sum_paragraphLength_deserialize str
  rw [hvalue, List.map_append, List.sum_append, List.map_cons, List.sum_cons,
    paragraphLength_leaf] at hsum
  rw [handleSelect, hvalue, hpath, List.take_left]
  omega

end RichTextEditor

open RichTextEditor

/-! ## From browser to browser -/

namespace ClientRGADocument

lemma Converged.shownIds_eq {d e : ClientRGADocument} (h : Converged d e) :
    shownIds d.cells = shownIds e.cells := by
  rw [← d.map_uid_toNodes, ← e.map_uid_toNodes, show d.toNodes = e.toNodes from h]

lemma toText_eq_toNodes (d : ClientRGADocument) :
    d.toText = d.toNodes.flatMap fun n => n.value.render := by
  rw [toText, Chain.textOf, toNodes]
  induction d.nodes with
  | nil => rfl
  | cons n nodes ih =>
      rw [List.flatMap_cons, ih]
      cases htomb : n.tombstoned <;> simp [htomb]

lemma Converged.toText_eq {d e : ClientRGADocument} (h : Converged d e) :
    d.toText = e.toText := by
  rw [toText_eq_toNodes, toText_eq_toNodes, show d.toNodes = e.toNodes from h]

/-- Past the nodes that are shown there is no node to name. -/
lemma getAfterUID_eq_none {d : ClientRGADocument} {index : Nat} (h : d.toNodes.length < index) :
    d.getAfterUID index = none := by
  obtain ⟨i, rfl⟩ := Nat.exists_eq_succ_of_ne_zero (Nat.ne_zero_of_lt h)
  rw [getAfterUID, if_neg (Nat.succ_ne_zero i), indexToUID_eq, ← d.map_uid_toNodes]
  exact List.getElem?_eq_none (by rw [List.length_map]; omega)

lemma exists_getAfterUID {d e : ClientRGADocument} (hd : Consistent d) (h : Converged d e)
    {index : Nat} (hpos : 1 ≤ index) (hle : index ≤ d.toNodes.length) :
    ∃ uid, d.getAfterUID index = some uid ∧ e.uidToIndex uid = some index := by
  obtain ⟨uid, hget, hindex⟩ := hd.indexInverse.of_index index hpos
    (by rwa [List.countP_eq_length_filter])
  refine ⟨uid, ?_, ?_⟩
  · rw [getAfterUID, if_neg (Nat.ne_of_gt hpos), hget]
  · rw [← hindex, uidToIndex_eq, uidToIndex_eq, h.shownIds_eq]

end ClientRGADocument

open ClientRGADocument

variable {d e : ClientRGADocument} {point : Point}

/-- The point at which `e` shows the caret that `d` has at `point`. -/
def shownCaret (d e : ClientRGADocument) (docId sessionId : JSString) (point : Point) :
    Option Point :=
  let message := sendCursor (some d) docId sessionId
    (some (handleSelect (deserialize d.toText) point))
  cursorPoint (some e) (deserialize e.toText) message.update.cursor

/-- Beyond the nodes the message carries no node, and nothing is shown. -/
lemma shownCaret_eq_none (docId sessionId : JSString)
    (h : d.toNodes.length < handleSelect (deserialize d.toText) point) :
    shownCaret d e docId sessionId point = none := by
  simp only [shownCaret, sendCursor, Option.bind_some, getAfterUID_eq_none h]
  rfl

/-- Up to there the caret is where it came from. -/
lemma shownCaret_eq_some (docId sessionId : JSString) (hd : Consistent d) (hconv : Converged d e)
    (hpoint : IsCaret (deserialize d.toText) point)
    (hpos : 1 ≤ handleSelect (deserialize d.toText) point)
    (hle : handleSelect (deserialize d.toText) point ≤ d.toNodes.length) :
    shownCaret d e docId sessionId point = some point := by
  obtain ⟨uid, hget, hindex⟩ := exists_getAfterUID hd hconv hpos hle
  simp only [shownCaret, sendCursor, Option.bind_some, hget, cursorPoint, ← hconv.toText_eq]
  simp only [Option.bind_eq_bind, Option.bind_some, hindex]
  exact indexToPoint_handleSelect hpoint (oneLeaf_deserialize _)

/-- **A caret survives exactly** when its offset, in code units, is at most the number of nodes
that are shown. -/
theorem caret_survives_iff (docId sessionId : JSString) (hd : d.Reachable)
    (hconv : Converged d e) (hpoint : IsCaret (deserialize d.toText) point)
    (hpos : 1 ≤ handleSelect (deserialize d.toText) point) :
    shownCaret d e docId sessionId point = some point ↔
      handleSelect (deserialize d.toText) point ≤ d.toNodes.length := by
  refine ⟨fun h => ?_, shownCaret_eq_some docId sessionId hd.consistent hconv hpoint hpos⟩
  by_contra hlt
  rw [shownCaret_eq_none docId sessionId (Nat.lt_of_not_le hlt)] at h
  simp at h

/-- Two lines of one character each, typed in a browser. -/
def twoLines : ClientRGADocument :=
  let d := ((ClientRGADocument.new (JSString.lit "a")).localInsert 0 (JSString.lit "x")).1
  let d := (d.localInsert 1 (JSString.lit "\n")).1
  (d.localInsert 2 (JSString.lit "y")).1

/-- The caret behind the second one survives. -/
theorem caret_survives_twoLines :
    shownCaret twoLines twoLines (JSString.lit "d") (JSString.lit "s") ⟨(1, 0), 1⟩ =
      some ⟨(1, 0), 1⟩ := by
  have hreach : twoLines.Reachable :=
    .localInsert _ _ (.localInsert _ _ (.localInsert _ _ (.new _ _)))
  have hpoint : IsCaret (deserialize twoLines.toText) ⟨(1, 0), 1⟩ :=
    ⟨⟨[⟨JSString.lit "y"⟩]⟩, ⟨JSString.lit "y"⟩, by decide +kernel, rfl, by decide⟩
  exact (caret_survives_iff (JSString.lit "d") (JSString.lit "s") hreach rfl hpoint
    (by decide +kernel)).mpr (by decide +kernel)

/-- One character outside the basic plane, typed in a browser. -/
def smile : ClientRGADocument :=
  ((ClientRGADocument.new (JSString.lit "a")).localInsert 0
    [⟨0xD83D, by decide⟩, ⟨0xDE00, by decide⟩]).1

/-- The caret behind it is at the offset two of a text of one node: it is shown nowhere. -/
theorem not_forall_caret_survives :
    ¬ ∀ (d e : ClientRGADocument) (docId sessionId : JSString) (point : Point),
      d.Reachable → e.Reachable → Converged d e → IsCaret (deserialize d.toText) point →
      1 ≤ handleSelect (deserialize d.toText) point →
      shownCaret d e docId sessionId point = some point := by
  intro h
  have hreach : smile.Reachable := .localInsert _ _ (.new _ _)
  have hpoint : IsCaret (deserialize smile.toText) ⟨(0, 0), 2⟩ :=
    ⟨⟨[⟨[0xD83D, 0xDE00]⟩]⟩, ⟨[0xD83D, 0xDE00]⟩, by decide +kernel, rfl, by decide⟩
  have hshown := h smile smile (JSString.lit "d") (JSString.lit "s") ⟨(0, 0), 2⟩ hreach hreach rfl
    hpoint (by decide +kernel)
  exact absurd hshown (by decide +kernel)

/-! ## Texts of one unit each -/

/-- **Every caret survives** where every node that is shown is one code unit. -/
theorem caret_survives_of_units (docId sessionId : JSString) (hd : d.Reachable)
    (hconv : Converged d e) (hunits : ∀ n ∈ d.toNodes, n.value.render.length = 1)
    (hpoint : IsCaret (deserialize d.toText) point)
    (hpos : 1 ≤ handleSelect (deserialize d.toText) point) :
    shownCaret d e docId sessionId point = some point := by
  have hlength : d.toText.length = d.toNodes.length := by
    rw [toText_eq_toNodes, List.length_flatMap, List.map_congr_left hunits, List.map_const',
      List.sum_replicate_nat, Nat.mul_one]
  exact shownCaret_eq_some docId sessionId hd.consistent hconv hpoint hpos
    (hlength ▸ handleSelect_le hpoint)

end SyncEngine
