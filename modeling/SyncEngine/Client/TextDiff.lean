import SyncEngine.Client.LocalEdits

/-!
# A text change as operations

`diffToOperations` turns a changed text into local edits: it scans the common beginning and the
common end of the two texts, deletes what lies between them in the old one, from its last
character to its first, and inserts what lies between them in the new one.

The two scans may not overlap, since the second runs over what the first left of the texts
(`take_append_middle`).  The deletions and the insertions are each a loop of local edits, whose
effect on the visible values follows from where one local edit lands (`visible_deleteRange`,
`visible_insertRange`).

* **`diffToOperations_realises`**: on a replica that shows one character a node, the changed text
  is what is shown afterwards, and the operations do the same to every replica with the same
  nodes.

The clock of the replica is a natural number here; `Client.MachineDiff` says which changes a replica
takes when it is a JavaScript number.
-/

namespace SyncEngine

open ReplicatedList

/-- A string of one Unicode scalar value. -/
def JsValue.IsScalar : JsValue → Prop
  | .string c => c.IsScalar
  | .object _ => False

instance : DecidablePred JsValue.IsScalar
  | .string c => inferInstanceAs (Decidable c.IsScalar)
  | .object _ => isFalse id

lemma JsValue.IsScalar.exists_string {v : JsValue} (h : v.IsScalar) :
    ∃ c : JSString, v = .string c ∧ c.IsScalar := by
  cases v with
  | string c => exact ⟨c, rfl, h⟩
  | object _ => exact absurd h id

namespace ClientRGADocument

/-! ## The two scans -/

lemma commonLength_le : ∀ l l' : List JSString,
    commonLength l l' ≤ l.length ∧ commonLength l l' ≤ l'.length
  | [], _ => by simp [commonLength]
  | _ :: _, [] => by simp [commonLength]
  | c :: cs, c' :: cs' => by
      have ih := commonLength_le cs cs'
      rw [commonLength]
      split
      · simpa using ih
      · simp

/-- Two texts begin in the same way, as far as the scan went. -/
lemma take_commonLength : ∀ l l' : List JSString,
    l.take (commonLength l l') = l'.take (commonLength l l')
  | [], _ => by simp [commonLength]
  | _ :: _, [] => by simp [commonLength]
  | c :: cs, c' :: cs' => by
      rw [commonLength]
      split
      · rename_i hc
        rw [List.take_succ_cons, List.take_succ_cons, hc, take_commonLength cs cs']
      · rfl

/-- Two texts end in the same way, as far as the scan from the end went. -/
lemma drop_commonLength_reverse (l l' : List JSString) :
    l.drop (l.length - commonLength l.reverse l'.reverse) =
      l'.drop (l'.length - commonLength l.reverse l'.reverse) := by
  have h := take_commonLength l.reverse l'.reverse
  rw [List.take_reverse, List.take_reverse] at h
  exact List.reverse_injective h

/-! ## The two loops -/

/-- The operations do the same to every replica that holds the nodes of `d`. -/
structure ReproducesAll (d : ClientRGADocument) (ops : List RGAOperation)
    (d' : ClientRGADocument) : Prop where
  client : ∀ e : ClientRGADocument, e.nodes = d.nodes → (e.applyOperations ops).nodes = d'.nodes
  server : ∀ e : RGADocument, e.cells = d.cells → (e.applyOperations ops).cells = d'.cells

lemma ReproducesAll.cons {d d₁ d' : ClientRGADocument} {op : RGAOperation}
    {ops : List RGAOperation} (h : Reproduces d op d₁) (hrest : ReproducesAll d₁ ops d') :
    ReproducesAll d (op :: ops) d' :=
  ⟨fun e he => hrest.client (e.applyOperation op) (h.client e he),
    fun e he => hrest.server (e.applyOperation op).1 (h.server e he)⟩

/-- **Local edits are reproduced** by the operations they make. -/
theorem Edits.reproducesAll {d d' : ClientRGADocument} {ops : List RGAOperation}
    (h : Edits d ops d') (hd : Consistent d) : ReproducesAll d ops d' := by
  induction h with
  | nil d => exact ⟨fun _ he => he, fun _ he => he⟩
  | insert index char _ ih =>
      exact .cons (hd.reproduces_localInsert index char) (ih (hd.localInsert index char))
  | @delete d d₁ d' ops op index hop _ ih =>
      have hd₁ := hd.localDelete index
      rw [hop] at hd₁
      exact .cons (hd.reproduces_localDelete hop) (ih hd₁)

/-- Deleting from the last position to the first takes the values between them. -/
lemma visible_deleteRange {n : Nat} {d : ClientRGADocument} (h : Consistent d)
    {pre mid post : List JsValue} (hvisible : visible d.cells = pre ++ mid ++ post)
    (hmid : mid.length = n) :
    visible (d.deleteRange pre.length n).1.cells = pre ++ post ∧
      Consistent (d.deleteRange pre.length n).1 := by
  induction n generalizing d mid post with
  | zero =>
      obtain rfl := List.eq_nil_of_length_eq_zero hmid
      exact ⟨by simpa [deleteRange] using hvisible, h⟩
  | succ n ih =>
      -- the last of the values goes first
      obtain ⟨mid, v, rfl⟩ : ∃ init v, mid = init ++ [v] :=
        ⟨_, _, (List.dropLast_append_getLast
          (List.ne_nil_of_length_pos (hmid.symm ▸ Nat.succ_pos n))).symm⟩
      have hmid' : mid.length = n := by simpa using hmid
      have hsplit : visible d.cells = (pre ++ mid) ++ v :: post := by simpa using hvisible
      have hindex : pre.length + n = (pre ++ mid).length := by simp [hmid']
      obtain ⟨op, hop⟩ := h.deleteLands (pre.length + n) (by simp [hsplit, hmid'])
      have hvisible₁ : visible (d.localDelete (pre.length + n)).1.cells = pre ++ mid ++ post := by
        rw [hop.visible_eq, hsplit, hindex, eraseIdx_length_append]
      exact ih (h.localDelete _) hvisible₁ hmid'

/-- Inserting from a position on puts the characters there, in their order. -/
lemma visible_insertRange (chars : List JSString) {d : ClientRGADocument} (h : Consistent d)
    {pre post : List JsValue} (hvisible : visible d.cells = pre ++ post) :
    visible (d.insertRange pre.length chars).1.cells = pre ++ chars.map .string ++ post := by
  induction chars generalizing d pre with
  | nil => simpa [insertRange] using hvisible
  | cons char chars ih =>
      have hlands := h.insertLands pre.length (by simp [hvisible]) char
      have hvisible₁ : visible (d.localInsert pre.length char).1.cells =
          (pre ++ [.string char]) ++ post := by
        rw [hlands.visible_eq, hvisible, insertIdx_length_append]
        simp
      have ih' := ih (h.localInsert pre.length char) hvisible₁
      rw [List.length_append, List.length_singleton] at ih'
      rw [insertRange]
      simpa using ih'

/-! ## The whole change -/

/-- The shown text is made of the visible values. -/
lemma toText_eq_visible (d : ClientRGADocument) :
    d.toText = (visible d.cells).flatMap JsValue.render := by
  rw [toText_eq, shownText, Chain.textOf, visible, List.flatMap_map]
  induction d.cells with
  | nil => rfl
  | cons c cells ih =>
      cases hc : c.dead
      · simp [hc, ih]
      · simp [hc, ih]

/-- The replica shows one scalar value a node. -/
def ShowsScalars (d : ClientRGADocument) : Prop := ∀ v ∈ visible d.cells, v.IsScalar

instance (d : ClientRGADocument) : Decidable d.ShowsScalars :=
  inferInstanceAs (Decidable (∀ v ∈ visible d.cells, _))

lemma ShowsScalars.visible_eq {d : ClientRGADocument} (h : ShowsScalars d) :
    visible d.cells = d.toText.codePoints.map .string := by
  have hchars : ∃ chars : List JSString, visible d.cells = chars.map .string ∧
      ∀ c ∈ chars, c.IsScalar := by
    revert h
    rw [ShowsScalars]
    induction visible d.cells with
    | nil => exact fun _ => ⟨[], rfl, by simp⟩
    | cons v values ih =>
        intro h
        obtain ⟨c, rfl, hc⟩ := (h v (List.mem_cons_self ..)).exists_string
        obtain ⟨chars, hchars, hscalar⟩ := ih fun w hw => h w (List.mem_cons_of_mem _ hw)
        refine ⟨c :: chars, by rw [hchars]; rfl, fun c' hc' => ?_⟩
        rcases List.mem_cons.mp hc' with rfl | hc'
        · exact hc
        · exact hscalar c' hc'
  obtain ⟨chars, hchars, hscalar⟩ := hchars
  have htext : d.toText = chars.flatten := by
    rw [toText_eq_visible, hchars, List.flatMap_map, List.flatten_eq_flatMap]
    rfl
  rw [hchars, htext, JSString.codePoints_flatten hscalar]

/-- A list is what it begins with, its middle, and what it ends with. -/
lemma take_append_middle (l : List JSString) (p s : Nat) :
    l.take p ++ (l.drop p).take ((l.drop p).length - s) ++
      (l.drop p).drop ((l.drop p).length - s) = l := by
  rw [List.append_assoc, List.take_append_drop, List.take_append_drop]

/-- The visible values after a text change are the characters of the new text. -/
lemma visible_diffToOperations {d : ClientRGADocument} (h : Consistent d) {before after : JSString}
    (hbefore : visible d.cells = before.codePoints.map .string) :
    visible (d.diffToOperations before after).1.cells = after.codePoints.map .string := by
  rw [diffToOperations]
  generalize before.codePoints = b at hbefore ⊢
  generalize after.codePoints = a
  have hp := (commonLength_le b a).1
  have hprefix := take_commonLength b a
  generalize commonLength b a = p at hp hprefix ⊢
  have hsuffix := drop_commonLength_reverse (b.drop p) (a.drop p)
  generalize commonLength (b.drop p).reverse (a.drop p).reverse = s at hsuffix ⊢
  let pre : List JsValue := (b.take p).map .string
  let mid : List JsValue := ((b.drop p).take ((b.drop p).length - s)).map .string
  let post : List JsValue := ((b.drop p).drop ((b.drop p).length - s)).map .string
  have hpre : pre.length = p := by simp [pre, hp]
  have hmid : mid.length = (b.drop p).length - s := by simp [mid]
  have hsplit : visible d.cells = pre ++ mid ++ post := by
    rw [hbefore, ← List.map_append, ← List.map_append, take_append_middle]
  obtain ⟨hdeleted, hconsistent⟩ := visible_deleteRange h hsplit hmid
  have hinserted := visible_insertRange ((a.drop p).take ((a.drop p).length - s))
    hconsistent hdeleted
  rw [hpre] at hinserted
  refine hinserted.trans ?_
  rw [← List.map_append, ← List.map_append, hprefix, hsuffix, take_append_middle]

/-- **`diffToOperations` realises the edit**, on every replica a client can hold: the new text is
shown, and the operations bring every replica with the same nodes to the same nodes. -/
theorem diffToOperations_realises {d : ClientRGADocument} (h : Reachable d) (hd : ShowsScalars d)
    (after : JSString) :
    (d.diffToOperations d.toText after).1.toText = after ∧
      ReproducesAll d (d.diffToOperations d.toText after).2
        (d.diffToOperations d.toText after).1 := by
  refine ⟨?_, (d.edits_diffToOperations d.toText after).reproducesAll h.consistent⟩
  rw [toText_eq_visible, visible_diffToOperations h.consistent hd.visible_eq, List.flatMap_map]
  exact (List.flatten_eq_flatMap.symm).trans (JSString.flatten_codePoints after)

/-- `aa` becomes `aba`, past a tombstone. -/
example :
    ((deserialize [⟨1, [7], .string [97], none, false⟩, ⟨2, [7], .string [98], none, true⟩,
      ⟨3, [7], .string [97], none, false⟩] [5]).diffToOperations [97, 97] [97, 98, 97]).1.toText =
      [97, 98, 97] := by decide

end ClientRGADocument

end SyncEngine
