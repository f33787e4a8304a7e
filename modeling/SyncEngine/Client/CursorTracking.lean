import SyncEngine.Client.CaretPosition
import SyncEngine.Client.EditorSync
import SyncEngine.Lib.Aging

/-!
# Cursors in a document that changes

The cursor of another user is anchored to a node (`UserPresence.cursor`), and `decorate` looks the
node up in the document as it is then (`uidToIndex`).  Between two PRESENCE messages of that user
the document goes on changing, by what others send and by what is typed here.

`cursor_moves` says where the cursor is then: it moves by the characters that come and go in front
of it, and with its own character it is gone, whatever else is typed there.
-/

namespace SyncEngine

open ReplicatedList

namespace ClientRGADocument

/-- What a replica becomes while it is edited, from here and from elsewhere. -/
inductive Later (d : ClientRGADocument) : ClientRGADocument → Prop
  | refl : Later d d
  | remote {d' : ClientRGADocument} (op : RGAOperation) (h : Later d d') :
      Later d (d'.applyOperation op)
  | localInsert {d' : ClientRGADocument} (index : Nat) (char : JSString) (h : Later d d') :
      Later d (d'.localInsert index char).1
  | localDelete {d' : ClientRGADocument} (index : Nat) (h : Later d d') :
      Later d (d'.localDelete index).1

variable {d d' : ClientRGADocument} {u : UID}

lemma Consistent.ages_applyInsert (h : d.Consistent) (op : InsertOperation) :
    Ages d.cells (d.applyInsert op).cells := by
  by_cases hroot : op.uid = rootUID
  · have hhas : Chain.indexHas ClientNode.uid (uidKey op.uid) d.nodes = true :=
      Chain.indexHas_iff.mpr (Or.inl hroot)
    rw [ClientRGADocument.applyInsert, if_pos hhas]
    exact ages_refl h.nodup
  · rw [d.cells_applyInsert hroot]
    exact ages_step h.nodup _

lemma Consistent.ages_applyDelete (h : d.Consistent) (op : DeleteOperation) :
    Ages d.cells (d.applyDelete op).cells := by
  by_cases hroot : op.uid = rootUID
  · rcases d.applyDelete_cases op with ⟨-, heq | ⟨-, heq⟩⟩ | ⟨hne, -⟩ | ⟨hne, -⟩
    · rw [heq]
      exact ages_refl h.nodup
    · rw [heq]
      exact ages_refl h.nodup
    · exact absurd hroot hne
    · exact absurd hroot hne
  · rw [cells_applyDelete h.nodup hroot]
    exact ages_step h.nodup (.delete op.uid)

lemma Consistent.ages_applyOperation (h : d.Consistent) (op : RGAOperation) :
    Ages d.cells (d.applyOperation op).cells := by
  cases op with
  | insert op => exact h.ages_applyInsert op
  | delete op => exact h.ages_applyDelete op
  | format op => exact h.ages_applyDelete ⟨op.uid⟩
  | rollback op => exact h.ages_applyDelete ⟨op.uid⟩

/-- **A replica ages**, whoever edits it. -/
lemma Later.ages (h : Later d d') (hd : d.Consistent) :
    d'.Consistent ∧ Ages d.cells d'.cells := by
  induction h with
  | refl => exact ⟨hd, ages_refl hd.nodup⟩
  | remote op _ ih =>
      exact ⟨ih.1.applyOperation op, ih.2.trans (ih.1.ages_applyOperation op)⟩
  | localInsert index char _ ih =>
      refine ⟨ih.1.localInsert index char, ih.2.trans ?_⟩
      exact ih.1.tick.ages_applyInsert _
  | @localDelete d' index _ ih =>
      refine ⟨ih.1.localDelete index, ih.2.trans ?_⟩
      rw [ClientRGADocument.localDelete]
      split
      · exact ages_refl ih.1.nodup
      · exact ih.1.ages_applyDelete _

/-- The characters in front of a cursor. -/
def inFront (d : ClientRGADocument) (u : UID) : List UID := before u (shownIds d.cells)

lemma uidToIndex_eq_some {i : Nat} :
    d.uidToIndex u = some i ↔ u ∈ shownIds d.cells ∧ i = (shownIds d.cells).idxOf u + 1 := by
  rw [uidToIndex_eq, Option.ite_none_right_eq_some, Option.some.injEq, eq_comm (a := i)]

/-- **Where a cursor goes**: while its character is there, its index changes by the number of
characters that have come in front of it and of those that have gone; when its character has been
deleted it is shown nowhere, then and later. -/
theorem cursor_moves (hd : d.Reachable) (h : Later d d') :
    (∀ i i', d.uidToIndex u = some i → d'.uidToIndex u = some i' →
      i' + (d.inFront u).countP (fun w => w ∉ shownIds d'.cells) =
        i + (d'.inFront u).countP fun w => w ∉ shownIds d.cells) ∧
      (u ∈ ids d.cells → d.uidToIndex u = none → ∀ value anchor,
        cursorPoint (some d') value (some ⟨some u, anchor⟩) = none) := by
  obtain ⟨hd', hages⟩ := h.ages hd.consistent
  constructor
  · intro i i' hi hi'
    obtain ⟨hu, rfl⟩ := uidToIndex_eq_some.mp hi
    obtain ⟨hu', rfl⟩ := uidToIndex_eq_some.mp hi'
    have hmoves : (shownIds d'.cells).idxOf u +
          (d.inFront u).countP (fun w => w ∉ shownIds d'.cells) =
        (shownIds d.cells).idxOf u +
          (d'.inFront u).countP (fun w => w ∉ shownIds d.cells) :=
      hages.idxOf_add_countP hd'.nodup hu hu'
    omega
  · intro hmem hnone value anchor
    have hgone : u ∉ shownIds d.cells := by
      rw [uidToIndex_eq] at hnone
      exact fun hu => by simp [hu] at hnone
    have hgone' : d'.uidToIndex u = none := by
      rw [uidToIndex_eq, if_neg]
      exact hages.notMem_live hmem hgone
    simp [cursorPoint, hgone']

/-- One character is typed at the beginning, and the first one deleted. -/
def retyped : ClientRGADocument :=
  (twoLines.applyOperation
    (.insert ⟨⟨9, JSString.lit "b"⟩, none, .string (JSString.lit "z")⟩)).applyOperation
      (.delete ⟨⟨1, JSString.lit "a"⟩⟩)

/-- A cursor at the end stays where it is, and one behind the first character is not shown again,
whatever is typed there. -/
theorem cursor_moves_retyped :
    (twoLines.inFront ⟨3, JSString.lit "a"⟩).countP (fun w => w ∉ shownIds retyped.cells) =
        (retyped.inFront ⟨3, JSString.lit "a"⟩).countP (fun w => w ∉ shownIds twoLines.cells) ∧
      ∀ value anchor, cursorPoint (some (retyped.localInsert 0 (JSString.lit "x")).1) value
        (some ⟨some ⟨1, JSString.lit "a"⟩, anchor⟩) = none := by
  have hreach : twoLines.Reachable :=
    .localInsert _ _ (.localInsert _ _ (.localInsert _ _ (.new _ _)))
  have hreach' : retyped.Reachable := .remote _ trivial (.remote _ trivial hreach)
  have hlater : Later twoLines retyped := .remote _ (.remote _ .refl)
  constructor
  · have hmoves := (cursor_moves (u := ⟨3, JSString.lit "a"⟩) hreach hlater).1 3 3
      (by decide +kernel) (by decide +kernel)
    exact Nat.add_left_cancel hmoves
  · exact (cursor_moves hreach' (.localInsert 0 (JSString.lit "x") .refl)).2
      (by decide +kernel) (by decide +kernel)

end ClientRGADocument

end SyncEngine
