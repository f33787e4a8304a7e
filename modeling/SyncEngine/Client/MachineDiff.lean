import SyncEngine.Client.MachineClock
import SyncEngine.Client.TextDiff
import SyncEngine.Client.VisibleIndex

/-!
# A text change in machine arithmetic

`diffToOperations` with the increment that a JavaScript number really has.  As long as the clock
stays in the exact range this is the `diffToOperations` of `Client.TextDiff`, and the edit is
realised.  Beyond it the clock stands still: of several characters all but the first are lost, and
a single one may come to stand behind characters of other sites that carry the same clock, where
the scan-right loop passes their nodes.

`diffToOperations_iff` says exactly which changes a replica takes.  The two halves of the argument
are a count of the characters (`length_insertRange`) and the place of a single INSERT whose UID is
new but not the greatest (`visible_insert_single`).
-/

namespace SyncEngine

open ReplicatedList

namespace MachineClock

/-- Inserts the characters one behind the other from the visible position `index` on. -/
def insertRange (d : ClientRGADocument) (index : Nat) :
    List JSString → ClientRGADocument × List RGAOperation
  | [] => (d, [])
  | char :: chars =>
      let (d, op) := localInsert d index char
      let (d, ops) := insertRange d (index + 1) chars
      (d, .insert op :: ops)

/-- `diffToOperations`, with the increment of the machine. -/
def diffToOperations (d : ClientRGADocument) (before after : JSString) :
    ClientRGADocument × List RGAOperation :=
  let prefixLen := ClientRGADocument.commonLength before.codePoints after.codePoints
  let beforeChars := before.codePoints.drop prefixLen
  let afterChars := after.codePoints.drop prefixLen
  let suffixLen := ClientRGADocument.commonLength beforeChars.reverse afterChars.reverse
  let (d, deletes) := d.deleteRange prefixLen (beforeChars.length - suffixLen)
  let (d, inserts) := insertRange d prefixLen (afterChars.take (afterChars.length - suffixLen))
  (d, deletes ++ inserts)

/-! ## The change -/

/-- What is to be done to the text: at `start`, `removed` characters are taken away and the
characters `added` put there. -/
structure Change where
  start : Nat
  removed : Nat
  added : List JSString

open ClientRGADocument (commonLength) in
/-- The change that leaves the common beginning and the common end of two texts alone. -/
def change (before after : List JSString) : Change :=
  let start := commonLength before after
  let suffixLen := commonLength (before.drop start).reverse (after.drop start).reverse
  ⟨start, (before.drop start).length - suffixLen,
    (after.drop start).take ((after.drop start).length - suffixLen)⟩

/-- The replica after a text change. -/
lemma fst_diffToOperations (d : ClientRGADocument) (before after : JSString) :
    (diffToOperations d before after).1 =
      (insertRange (d.deleteRange (change before.codePoints after.codePoints).start
          (change before.codePoints after.codePoints).removed).1
        (change before.codePoints after.codePoints).start
        (change before.codePoints after.codePoints).added).1 := rfl

/-- Both texts around the change. -/
lemma exists_around (before after : List JSString) :
    ∃ pre mid post : List JSString, before = pre ++ mid ++ post ∧
      after = pre ++ (change before after).added ++ post ∧
      pre.length = (change before after).start ∧ mid.length = (change before after).removed := by
  let start := ClientRGADocument.commonLength before after
  let suffixLen := ClientRGADocument.commonLength (before.drop start).reverse
    (after.drop start).reverse
  have hstart : start ≤ before.length := (ClientRGADocument.commonLength_le before after).1
  have hpre : before.take start = after.take start :=
    ClientRGADocument.take_commonLength before after
  have hsuffix := ClientRGADocument.drop_commonLength_reverse (before.drop start)
    (after.drop start)
  refine ⟨_, _, _, (ClientRGADocument.take_append_middle before start suffixLen).symm, ?_, ?_, ?_⟩
  · rw [hpre]
    refine (ClientRGADocument.take_append_middle after start suffixLen).symm.trans ?_
    exact congrArg _ hsuffix.symm
  · exact List.length_take_of_le hstart
  · show (List.take _ _).length = (before.drop start).length - suffixLen
    rw [List.length_take]
    omega

/-! ## The text, counted -/

variable {d : ClientRGADocument}

lemma toText_perm {d d' : ClientRGADocument} {l : List ClientNode}
    (h : d'.nodes.Perm (l ++ d.nodes)) :
    d'.toText.length = (l.flatMap fun n => if n.tombstoned then [] else n.value.render).length +
      d.toText.length := by
  rw [ClientRGADocument.toText, Chain.textOf, (h.flatMap_right _).length_eq, List.flatMap_append,
    List.length_append]
  rfl

/-- A local INSERT whose UID was given leaves the nodes as they are. -/
lemma nodes_localInsert_of_given (h : nextUid d ∈ d.nodes.map ClientNode.uid) (index : Nat)
    (char : JSString) : (localInsert d index char).1.nodes = d.nodes := by
  have hknown : Chain.indexHas ClientNode.uid (uidKey (nextUid d)) d.nodes = true :=
    Chain.indexHas_iff.mpr (Or.inr h)
  let d₁ : ClientRGADocument := { d with clock := increment d.clock }
  show (d₁.applyInsert ⟨nextUid d, d₁.getAfterUID index, .string char⟩).nodes = _
  rw [ClientRGADocument.applyInsert, if_pos hknown]

/-- The positions of characters inserted one behind the other. -/
def positions (index : Nat) : List JSString → List (Nat × JSString)
  | [] => []
  | char :: chars => (index, char) :: positions (index + 1) chars

@[simp] lemma length_positions (index : Nat) (chars : List JSString) :
    (positions index chars).length = chars.length := by
  induction chars generalizing index with
  | nil => rfl
  | cons char chars ih => simp [positions, ih]

/-- The text grows by the characters, and by all of them only if each adds its node. -/
lemma length_insertRange (d : ClientRGADocument) (index : Nat) {chars : List JSString}
    (hchars : ∀ c ∈ chars, c ≠ []) :
    (insertRange d index chars).1.toText.length ≤ d.toText.length + chars.flatten.length ∧
      ((insertRange d index chars).1.toText.length = d.toText.length + chars.flatten.length →
        EachAdds d (positions index chars)) := by
  induction chars generalizing d index with
  | nil => exact ⟨by simp [insertRange], fun _ => trivial⟩
  | cons char chars ih =>
      have hpos := List.length_pos_iff.mpr (hchars char (List.mem_cons_self ..))
      obtain ⟨hle, hall⟩ := ih (localInsert d index char).1 (index + 1)
        fun c hc => hchars c (List.mem_cons_of_mem _ hc)
      have hrange : (insertRange d index (char :: chars)).1 =
          (insertRange (localInsert d index char).1 (index + 1) chars).1 := rfl
      rw [hrange, List.flatten_cons, List.length_append]
      by_cases hnew : nextUid d ∈ d.nodes.map ClientNode.uid
      · have htext : (localInsert d index char).1.toText = d.toText := by
          rw [ClientRGADocument.toText, nodes_localInsert_of_given hnew]
          rfl
        rw [htext] at hle
        exact ⟨by omega, fun heq => by omega⟩
      · have hadds := (addsNode_iff d index char).mpr hnew
        have htext := toText_perm (l := [_]) hadds.added
        simp only [List.flatMap_singleton, Bool.false_eq_true, if_false] at htext
        have hrender : (localInsert d index char).2.value.render = char := rfl
        rw [hrender] at htext
        exact ⟨by omega, fun heq => ⟨hadds, hall (by omega)⟩⟩

/-! ## Deleting a range -/

/-- The first `k` live cells of a list, killed. -/
def killFirst : Nat → List (Cell UID JsValue) → List (Cell UID JsValue)
  | 0, cells => cells
  | _ + 1, [] => []
  | k + 1, c :: cells =>
      if c.dead then c :: killFirst (k + 1) cells else { c with dead := true } :: killFirst k cells

lemma visible_killFirst (k : Nat) (cells : List (Cell UID JsValue)) :
    visible (killFirst k cells) = (visible cells).drop k := by
  induction cells generalizing k with
  | nil => cases k <;> rfl
  | cons c cells ih =>
      cases k with
      | zero => rfl
      | succ k =>
          rw [killFirst]
          cases hc : c.dead
          · rw [if_neg (by simp), visible_cons_of_dead rfl, visible_cons_of_live hc, ih]
            rfl
          · rw [if_pos rfl, visible_cons_of_dead hc, visible_cons_of_dead hc, ih]

/-- What depends on the identifiers alone is the same of the list and of its killed copy. -/
lemma takeWhile_killFirst (p : UID → Bool) (k : Nat) (cells : List (Cell UID JsValue)) :
    (killFirst k cells).takeWhile (fun c => p c.id) =
      killFirst k (cells.takeWhile fun c => p c.id) := by
  induction cells generalizing k with
  | nil => cases k <;> rfl
  | cons c cells ih =>
      cases k with
      | zero => simp [killFirst]
      | succ k =>
          cases hc : c.dead <;> cases hp : p c.id <;> simp [killFirst, hc, hp, ih]

/-- The last of the cells to be killed may be killed first. -/
lemma killFirst_of_split (k : Nat) {l r : List (Cell UID JsValue)} {c : Cell UID JsValue}
    (hl : (visible l).length = k) (hc : c.dead = false) :
    killFirst k (l ++ { c with dead := true } :: r) = killFirst (k + 1) (l ++ c :: r) := by
  induction l generalizing k with
  | nil =>
      obtain rfl : 0 = k := hl
      simp [killFirst, hc]
  | cons b l ih =>
      cases hb : b.dead
      · rw [visible_cons_of_live hb, List.length_cons] at hl
        subst hl
        simp [killFirst, hb, ih]
      · rw [visible_cons_of_dead hb] at hl
        cases k with
        | zero =>
            have h := ih 0 hl
            simp only [killFirst] at h
            simp [killFirst, hb, h]
        | succ k => simp [killFirst, hb, ih (k + 1) hl]

/-- **Deleting a range** kills the first live cells behind what is shown in front of it. -/
lemma cells_deleteRange (h : d.Consistent) {front behind : List (Cell UID JsValue)}
    (hcells : d.cells = front ++ behind) (k : Nat) (hk : k ≤ (visible behind).length) :
    (d.deleteRange (visible front).length k).1.cells = front ++ killFirst k behind := by
  -- on the number of deletions: the loop starts with the last character of the range
  induction k generalizing d behind with
  | zero => simpa [ClientRGADocument.deleteRange, killFirst] using hcells
  | succ k ih =>
      have hlt : (visible front).length + k < (visible d.cells).length := by
        rw [hcells, visible_append, List.length_append]
        omega
      obtain ⟨pre, c, post, hsplit, hc, hlen, hget⟩ :=
        ClientRGADocument.indexToUID_split (d := d) hlt
      -- the cell at that position stands behind `front`
      obtain ⟨l, rfl, rfl⟩ : ∃ l, pre = front ++ l ∧ behind = l ++ c :: post := by
        rcases List.append_eq_append_iff.mp (hcells.symm.trans hsplit) with
          ⟨l, hpre, hbehind⟩ | ⟨m, hfront, hcons⟩
        · exact ⟨l, hpre, hbehind⟩
        · cases m with
          | nil => exact ⟨[], by simpa using hfront.symm, by simpa using hcons.symm⟩
          | cons b m =>
              obtain ⟨rfl, -⟩ := List.cons.inj hcons
              rw [hfront, visible_append, visible_cons_of_live hc, List.length_append,
                List.length_cons] at hlen
              omega
      have hl : (visible l).length = k := by
        rw [visible_append, List.length_append] at hlen
        omega
      have hroot : c.id ≠ rootUID := fun hr => h.root_notMem <| hr ▸ List.mem_map_of_mem
        (hsplit ▸ List.mem_append_right _ (List.mem_cons_self ..))
      have hdelete : d.localDelete ((visible front).length + k) =
          (d.applyDelete ⟨c.id⟩, some ⟨c.id⟩) := by
        rw [ClientRGADocument.localDelete, hget]
      have hnd := h.nodup
      have hkilled : (d.localDelete ((visible front).length + k)).1.cells =
          front ++ (l ++ { c with dead := true } :: post) := by
        rw [hdelete, ← List.append_assoc]
        refine (ClientRGADocument.cells_applyDelete hnd hroot).trans ?_
        rw [hsplit] at hnd ⊢
        exact map_kill_append_cons hnd
      have hle : k ≤ (visible (l ++ { c with dead := true } :: post)).length := by
        rw [visible_append, List.length_append]
        omega
      have hrest := ih (h.localDelete _) hkilled hle
      rw [killFirst_of_split k hl hc] at hrest
      exact hrest

/-! ## The place of an INSERT -/

/-- The cells behind the live cell number `index`, all of them for the position zero. -/
def cellsBehind : Nat → List (Cell UID JsValue) → List (Cell UID JsValue)
  | 0, cells => cells
  | _ + 1, [] => []
  | index + 1, c :: cells =>
      if c.dead then cellsBehind (index + 1) cells else cellsBehind index cells

lemma cellsBehind_append {pre post : List (Cell UID JsValue)} {c : Cell UID JsValue}
    (hc : c.dead = false) {index : Nat} (hlen : (visible pre).length = index) :
    cellsBehind (index + 1) (pre ++ c :: post) = post := by
  induction pre generalizing index with
  | nil =>
      obtain rfl : 0 = index := hlen
      simp [cellsBehind, hc]
  | cons b pre ih =>
      cases hb : b.dead
      · rw [visible_cons_of_live hb, List.length_cons] at hlen
        subst hlen
        simp [cellsBehind, hb, ih rfl]
      · rw [visible_cons_of_dead hb] at hlen
        simp [cellsBehind, hb, ih hlen]

/-- A position cuts a replica in two, and an INSERT at it begins its scan at the cut, also when
cells behind the cut have been killed. -/
lemma exists_front {index : Nat} (hle : index ≤ (visible d.cells).length) :
    ∃ front, d.cells = front ++ cellsBehind index d.cells ∧ (visible front).length = index ∧
      ∀ d' : ClientRGADocument, d'.Consistent → ∀ behind, d'.cells = front ++ behind →
        ∀ x : Cell UID JsValue, place (anchor (d'.getAfterUID index)) x d'.cells =
          front ++ SkipInsert.skipGreater Cell.id x behind := by
  cases index with
  | zero =>
      refine ⟨[], by simp [cellsBehind], rfl, fun d' _ behind hcells x => ?_⟩
      rw [hcells]
      rfl
  | succ index =>
      obtain ⟨pre, c, post, hcells, hc, hlen, -⟩ :=
        ClientRGADocument.indexToUID_split (d := d) (Nat.lt_of_succ_le hle)
      have hfront : (visible (pre ++ [c])).length = index + 1 := by
        rw [visible_append, visible_cons_of_live hc, List.length_append, hlen]
        rfl
      refine ⟨pre ++ [c], ?_, hfront, fun d' hd' behind hcells' x => ?_⟩
      · rw [hcells, cellsBehind_append hc hlen, List.append_assoc]
        rfl
      · have hsplit : d'.cells = pre ++ c :: behind := by rw [hcells', List.append_assoc]; rfl
        have hmem : c ∈ d'.cells := hsplit ▸ List.mem_append_right _ (List.mem_cons_self ..)
        have hne : c.id ≠ rootUID := fun hr => hd'.root_notMem (hr ▸ List.mem_map_of_mem hmem)
        have hshown : (shownIds d'.cells)[index]? = some c.id := by
          rw [hsplit, shownIds, List.filter_append, List.filter_cons_of_pos (by simp [hc]), ids,
            List.map_append, List.map_cons, List.getElem?_append_right]
          · have hpre : (List.map Cell.id (pre.filter fun c => !c.dead)).length = index := by
              rw [← hlen, visible, List.length_map, List.length_map]
            rw [hpre, Nat.sub_self]
            rfl
          · rw [← hlen, visible, List.length_map, List.length_map]
        -- what is shown up to the cut is shown by `d'` too, so the position leads to the same node
        have hanchor : anchor (d'.getAfterUID (index + 1)) = some c.id := by
          rw [ClientRGADocument.getAfterUID, if_neg (Nat.succ_ne_zero index),
            ClientRGADocument.indexToUID_eq, hshown]
          exact anchor_eq_some.mpr ⟨rfl, hne⟩
        have hpre : c.id ∉ ids pre := by
          have hnd : (ids pre ++ c.id :: ids behind).Nodup := by
            have hids := hd'.nodup
            rw [hsplit] at hids
            simpa [ids] using hids
          exact fun hin => (List.nodup_append.mp hnd).2.2 _ hin _ (List.mem_cons_self ..) rfl
        rw [hanchor, hsplit, place, SkipInsert.insertAfter_append hpre,
          SkipInsert.insertAfter_cons_of_eq rfl, List.append_assoc]
        rfl

/-- The nodes that the scan-right loop of a local INSERT at `index` passes. -/
def passed (d : ClientRGADocument) (index : Nat) : List (Cell UID JsValue) :=
  (cellsBehind index d.cells).takeWhile fun c => decide (nextUid d < c.id)

/-- A text change that a replica takes: it adds no character; or the clock stays in the exact range;
or it adds one, under a UID that has not been given, and the characters that come to stand in
front of it, those which the scan-right loop passes and the change leaves, are the same as it. -/
def Takes (d : ClientRGADocument) (before after : JSString) : Prop :=
  let c := change before.codePoints after.codePoints
  c.added = [] ∨ d.clock + c.added.length ≤ 2 ^ 53 ∨
    ∃ char, c.added = [char] ∧ nextUid d ∉ d.nodes.map ClientNode.uid ∧
      ∀ v ∈ (visible (passed d c.start)).drop c.removed, v = .string char

lemma clock_deleteRange (d : ClientRGADocument) (start n : Nat) :
    (d.deleteRange start n).1.clock = d.clock ∧ (d.deleteRange start n).1.siteId = d.siteId := by
  induction n generalizing d with
  | zero => exact ⟨rfl, rfl⟩
  | succ n ih =>
      obtain ⟨hclock, hsite⟩ :=
        @ClientRGADocument.clock_localDelete d _ (start + n) _ (Prod.eta _).symm
      obtain ⟨hclock', hsite'⟩ := ih (d.localDelete (start + n)).1
      exact ⟨hclock'.trans hclock, hsite'.trans hsite⟩

lemma nextUid_deleteRange (d : ClientRGADocument) (start n : Nat) :
    nextUid (d.deleteRange start n).1 = nextUid d := by
  obtain ⟨hclock, hsite⟩ := clock_deleteRange d start n
  rw [nextUid, hclock, hsite, nextUid]

lemma consistent_deleteRange (h : d.Consistent) (start n : Nat) :
    (d.deleteRange start n).1.Consistent := by
  induction n generalizing d with
  | zero => exact h
  | succ n ih => exact ih (h.localDelete (start + n))

lemma ids_deleteRange (h : d.Consistent) (start n : Nat) :
    ids (d.deleteRange start n).1.cells = ids d.cells := by
  induction n generalizing d with
  | zero => rfl
  | succ n ih =>
      refine (ih (h.localDelete (start + n))).trans ?_
      rw [ClientRGADocument.localDelete]
      split
      · rfl
      · rename_i u hget
        have hroot : u ≠ rootUID := fun hr =>
          h.root_notMem (hr ▸ ClientRGADocument.indexToUID_mem hget)
        have hcells : (d.applyDelete ⟨u⟩).cells = d.cells.map (Cell.kill u) :=
          ClientRGADocument.cells_applyDelete h.nodup hroot
        rw [hcells, ids_map_kill]

/-- A local INSERT under a new UID places its node behind its anchor. -/
lemma cells_localInsert (hnew : nextUid d ∉ ids d.cells) (index : Nat) (char : JSString) :
    (localInsert d index char).1.cells =
      place (anchor (d.getAfterUID index)) ⟨nextUid d, .string char, false⟩ d.cells := by
  let d₁ : ClientRGADocument := { d with clock := increment d.clock }
  have hstep := @ClientRGADocument.cells_applyInsert d₁
    ⟨nextUid d, d₁.getAfterUID index, .string char⟩ (nextUid_ne_root d)
  exact hstep.trans (if_neg hnew)

/-- **A single INSERT behind a deletion**: the new character is shown behind those that its scan
passes. -/
lemma visible_insert_single (h : d.Consistent) {pre mid post : List JsValue} {char : JSString}
    (hvisible : visible d.cells = pre ++ mid ++ post)
    (hnew : nextUid d ∉ d.nodes.map ClientNode.uid) :
    ∃ q r, (visible (passed d pre.length)).drop mid.length = q ∧ post = q ++ r ∧
      visible (localInsert (d.deleteRange pre.length mid.length).1 pre.length char).1.cells =
        pre ++ (q ++ .string char :: r) := by
  have hle : pre.length ≤ (visible d.cells).length := by
    rw [hvisible, List.append_assoc, List.length_append]
    omega
  obtain ⟨front, hcells, hfront, hplace⟩ := exists_front hle
  let behind := cellsBehind pre.length d.cells
  obtain ⟨hpre, hbehind⟩ : visible front = pre ∧ visible behind = mid ++ post := by
    refine List.append_inj ?_ hfront
    rw [← List.append_assoc, ← hvisible, ← visible_append]
    exact congrArg visible hcells.symm
  let d₁ := (d.deleteRange pre.length mid.length).1
  have hd₁ : d₁.Consistent := consistent_deleteRange h _ _
  have hcells₁ : d₁.cells = front ++ killFirst mid.length behind := by
    have hdeleted := cells_deleteRange h hcells mid.length (by rw [hbehind]; simp)
    rwa [hfront] at hdeleted
  have hids : ids d₁.cells = ids d.cells := ids_deleteRange h _ _
  have huid : nextUid d₁ = nextUid d := nextUid_deleteRange d _ _
  let x : Cell UID JsValue := ⟨nextUid d, .string char, false⟩
  let greater : Cell UID JsValue → Bool := fun c => decide (nextUid d < c.id)
  have hinserted : (localInsert d₁ pre.length char).1.cells =
      front ++ ((killFirst mid.length behind).takeWhile greater ++
        x :: (killFirst mid.length behind).dropWhile greater) := by
    rw [cells_localInsert (by rw [huid, hids, ClientRGADocument.ids_cells]; exact hnew), huid,
      hplace d₁ hd₁ _ hcells₁, SkipInsert.skipGreater_eq_takeWhile]
  have htake : (killFirst mid.length behind).takeWhile greater =
      killFirst mid.length (passed d pre.length) :=
    takeWhile_killFirst (fun u => decide (nextUid d < u)) mid.length behind
  refine ⟨_, visible ((killFirst mid.length behind).dropWhile greater), rfl, ?_, ?_⟩
  · rw [← visible_killFirst, ← htake, ← visible_append, List.takeWhile_append_dropWhile,
      visible_killFirst, hbehind, List.drop_left]
  · show visible (localInsert d₁ pre.length char).1.cells = _
    rw [hinserted, visible_append, hpre, visible_append, visible_cons_of_live rfl, htake,
      visible_killFirst]

/-! ## The whole change -/

open ClientRGADocument (ReproducesAll Reproduces)

lemma reproducesAll_append {d d₁ d₂ : ClientRGADocument} {ops ops' : List RGAOperation}
    (h : ReproducesAll d ops d₁) (h' : ReproducesAll d₁ ops' d₂) :
    ReproducesAll d (ops ++ ops') d₂ := by
  constructor
  · intro e he
    rw [ClientRGADocument.applyOperations, List.foldl_append]
    exact h'.client _ (h.client e he)
  · intro e he
    rw [RGADocument.applyOperations, List.foldl_append]
    exact h'.server _ (h.server e he)

/-- A local INSERT is reproduced by its operation, whether or not it adds a node. -/
lemma reproduces_localInsert (h : d.Consistent) (index : Nat) (char : JSString) :
    Reproduces d (.insert (localInsert d index char).2) (localInsert d index char).1 :=
  ClientRGADocument.reproduces_of_step h.nodup (nextUid_ne_root d) rfl <|
    ClientRGADocument.cells_applyInsert { d with clock := increment d.clock } (nextUid_ne_root d)

lemma reproducesAll_insertRange (h : d.Consistent) (index : Nat) (chars : List JSString) :
    ReproducesAll d (insertRange d index chars).2 (insertRange d index chars).1 := by
  induction chars generalizing d index with
  | nil => exact ⟨fun _ he => he, fun _ he => he⟩
  | cons char chars ih =>
      exact .cons (reproduces_localInsert h index char)
        (ih (consistent_localInsert h index char) (index + 1))

/-- **Every replica with the same nodes comes to the same nodes**, in any arithmetic. -/
lemma reproducesAll_diffToOperations (h : d.Consistent) (before after : JSString) :
    ReproducesAll d (diffToOperations d before after).2 (diffToOperations d before after).1 := by
  let c := change before.codePoints after.codePoints
  exact reproducesAll_append
    ((d.edits_deleteRange c.start c.removed).reproducesAll h)
    (reproducesAll_insertRange (consistent_deleteRange h c.start c.removed) c.start c.added)

/-- In the exact range the characters are inserted as with a natural number for the clock. -/
lemma insertRange_eq (d : ClientRGADocument) (index : Nat) {chars : List JSString}
    (h : d.clock + chars.length ≤ 2 ^ 53) :
    insertRange d index chars = d.insertRange index chars := by
  induction chars generalizing d index with
  | nil => rfl
  | cons char chars ih =>
      rw [List.length_cons] at h
      have hclock := (d.clock_localInsert index char).1
      cases hinsert : d.localInsert index char with
      | mk d' op =>
          rw [hinsert] at hclock
          have hrest := ih d' (index + 1) (by simp only at hclock; omega)
          simp only [insertRange, ClientRGADocument.insertRange, localInsert_eq (d := d) (by omega),
            hinsert, hrest]

lemma fst_diffToOperations_of_exact {before after : JSString}
    (h : (change before.codePoints after.codePoints).added = [] ∨
      d.clock + (change before.codePoints after.codePoints).added.length ≤ 2 ^ 53) :
    (diffToOperations d before after).1 = (d.diffToOperations before after).1 := by
  let c := change before.codePoints after.codePoints
  have hclock := (clock_deleteRange d c.start c.removed).1
  have hinserted : insertRange (d.deleteRange c.start c.removed).1 c.start c.added =
      (d.deleteRange c.start c.removed).1.insertRange c.start c.added := by
    rcases h with hnone | hroom
    · show insertRange _ _ (change _ _).added = ClientRGADocument.insertRange _ _ (change _ _).added
      rw [hnone]
      rfl
    · exact insertRange_eq _ _ (by rw [hclock]; exact hroom)
  rw [fst_diffToOperations]
  show (insertRange (d.deleteRange c.start c.removed).1 c.start c.added).1 = _
  rw [hinserted]
  rfl

lemma toText_of_visible {chars : List JSString} (h : visible d.cells = chars.map .string) :
    d.toText = chars.flatten := by
  rw [ClientRGADocument.toText_eq_visible, h, List.flatMap_map, List.flatten_eq_flatMap]
  rfl

/-- The text that the replica shows after the change is the new one only if there is room. -/
lemma roomFor_of_toText (h : d.Consistent) {before after : JSString}
    (hbefore : visible d.cells = before.codePoints.map .string)
    (htext : (diffToOperations d before after).1.toText = after) :
    RoomFor d (change before.codePoints after.codePoints).added.length := by
  let c := change before.codePoints after.codePoints
  let d₁ := (d.deleteRange c.start c.removed).1
  obtain ⟨pre, mid, post, hsplit, hafter, hpre, hmid⟩ :=
    exists_around before.codePoints after.codePoints
  have hvisible : visible d.cells = pre.map .string ++ mid.map .string ++ post.map .string := by
    rw [hbefore, ← List.map_append, ← List.map_append, ← hsplit]
  have hdeleted := (ClientRGADocument.visible_deleteRange h hvisible (by simpa using hmid)).1
  rw [List.length_map, hpre, ← List.map_append] at hdeleted
  have hlength := toText_of_visible hdeleted
  have hnonempty : ∀ char ∈ c.added, char ≠ [] := fun char hchar => by
    have hmem : char ∈ after.codePoints := by
      rw [hafter]
      exact List.mem_append_left _ (List.mem_append_right _ hchar)
    rcases JSString.eq_pair_of_mem_codePoints hmem with ⟨u, rfl⟩ | ⟨u, v, -, -, rfl⟩ <;> simp
  have hall := (length_insertRange d₁ c.start hnonempty).2
  have hshown : (insertRange d₁ c.start c.added).1.toText.length =
      d₁.toText.length + c.added.flatten.length := by
    have htotal : (insertRange d₁ c.start c.added).1.toText = after := htext
    have hlong : after.length = (pre ++ c.added ++ post).flatten.length := by
      rw [← hafter, JSString.flatten_codePoints]
    simp only [List.flatten_append, List.length_append] at hlong
    rw [htotal, hlength, hlong, List.flatten_append, List.length_append]
    omega
  have hroom := (eachAdds_iff_roomFor (consistent_deleteRange h c.start c.removed) _).mp
    (hall hshown)
  obtain ⟨hclock, hsite⟩ := clock_deleteRange d c.start c.removed
  have hids : d₁.nodes.map ClientNode.uid = d.nodes.map ClientNode.uid := by
    rw [← ClientRGADocument.ids_cells, ← ClientRGADocument.ids_cells, ids_deleteRange h]
  rwa [RoomFor, hclock, hsite, hids, length_positions] at hroom

/-- The text after a change that adds one character under a new UID. -/
lemma toText_single_iff (h : d.Consistent) (hd : d.ShowsScalars) {after char : JSString}
    (hadded : (change d.toText.codePoints after.codePoints).added = [char])
    (hnew : nextUid d ∉ d.nodes.map ClientNode.uid) :
    (diffToOperations d d.toText after).1.toText = after ↔
      ∀ v ∈ (visible (passed d (change d.toText.codePoints after.codePoints).start)).drop
        (change d.toText.codePoints after.codePoints).removed, v = .string char := by
  obtain ⟨pre, mid, post, hsplit, hafter, hpre, hmid⟩ :=
    exists_around d.toText.codePoints after.codePoints
  have hvisible : visible d.cells = pre.map .string ++ mid.map .string ++ post.map .string := by
    rw [hd.visible_eq, ← List.map_append, ← List.map_append, ← hsplit]
  obtain ⟨q, r, hq, hpost, hshown⟩ := @visible_insert_single _ h _ _ _ char hvisible hnew
  obtain ⟨front, back, rfl, rfl, rfl⟩ := List.map_eq_append_iff.mp hpost
  simp only [List.length_map, hpre, hmid] at hq hshown
  have hscalar : ∀ c ∈ front, c.IsScalar := fun c hc => by
    refine hd (.string c) ?_
    rw [hvisible]
    simp [hc]
  have hmem : char ∈ after.codePoints := by
    rw [hafter, hadded]
    simp
  have htext : (diffToOperations d d.toText after).1.toText =
      pre.flatten ++ ((front.flatten ++ char) ++ back.flatten) := by
    rw [fst_diffToOperations, hadded]
    refine (@toText_of_visible _ (pre ++ (front ++ char :: back)) ?_).trans (by simp)
    exact hshown.trans (by simp)
  have hnext : after = pre.flatten ++ ((char ++ front.flatten) ++ back.flatten) := by
    conv_lhs => rw [← JSString.flatten_codePoints after, hafter, hadded]
    simp
  rw [hq, List.forall_mem_map, htext]
  simp only [JsValue.string.injEq]
  rw [← JSString.flatten_append_comm_iff hmem hscalar]
  conv_lhs => rw [hnext]
  rw [List.append_right_inj, List.append_left_inj]

/-- **Which text changes a replica takes**: the new text is shown, and the operations bring every
replica with the same nodes to the same nodes, exactly for the changes of `Takes`. -/
theorem diffToOperations_iff (h : Reachable d) (hd : d.ShowsScalars) (after : JSString) :
    ((diffToOperations d d.toText after).1.toText = after ∧
      ReproducesAll d (diffToOperations d d.toText after).2
        (diffToOperations d d.toText after).1) ↔ Takes d d.toText after := by
  have hcon := h.consistent
  rw [and_iff_left (reproducesAll_diffToOperations hcon _ _)]
  by_cases hexact : (change d.toText.codePoints after.codePoints).added = [] ∨
      d.clock + (change d.toText.codePoints after.codePoints).added.length ≤ 2 ^ 53
  · refine iff_of_true ?_ (hexact.imp_right Or.inl)
    rw [fst_diffToOperations_of_exact hexact]
    exact (toText_of_visible
      (ClientRGADocument.visible_diffToOperations hcon hd.visible_eq)).trans
        (JSString.flatten_codePoints after)
  obtain ⟨hsome, hroom⟩ := not_or.mp hexact
  by_cases hsingle : ∃ char, (change d.toText.codePoints after.codePoints).added = [char] ∧
      nextUid d ∉ d.nodes.map ClientNode.uid
  · obtain ⟨char, hadded, hnew⟩ := hsingle
    rw [toText_single_iff hcon hd hadded hnew]
    refine ⟨fun hall => Or.inr (Or.inr ⟨char, hadded, hnew, hall⟩), ?_⟩
    rintro (hnone | hle | ⟨char', hadded', -, hall⟩)
    · exact absurd hnone hsome
    · exact absurd hle hroom
    · obtain rfl := List.singleton_inj.mp (hadded.symm.trans hadded')
      exact hall
  · refine iff_of_false (fun htext => ?_) ?_
    · rcases roomFor_of_toText hcon hd.visible_eq htext with hzero | hle | ⟨hone, hnew⟩
      · exact hsome (List.length_eq_zero_iff.mp hzero)
      · exact hroom hle
      · obtain ⟨char, hadded⟩ := List.length_eq_one_iff.mp hone
        exact hsingle ⟨char, hadded, (nextUid_notMem_iff hcon).mpr hnew⟩
    · rintro (hnone | hle | ⟨char, hadded, hnew, -⟩)
      · exact hsome hnone
      · exact hroom hle
      · exact hsingle ⟨char, hadded, hnew⟩

/-- One character, typed in front of another site's with the clock `2 ^ 53`. -/
theorem diffToOperations_iff_single :
    (diffToOperations ((ClientRGADocument.new (JSString.lit
        "6f1d8a52-3c1e-4b7a-9a55-0d2f7c3b9e11")).applyOperation (.insert (remoteInsert (2 ^ 53))))
      ((ClientRGADocument.new (JSString.lit
        "6f1d8a52-3c1e-4b7a-9a55-0d2f7c3b9e11")).applyOperation
          (.insert (remoteInsert (2 ^ 53)))).toText (JSString.lit "ax")).1.toText =
      JSString.lit "ax" :=
  ((diffToOperations_iff (.remote (.insert (remoteInsert (2 ^ 53))) (.new _ 0))
    (by decide +kernel) (JSString.lit "ax")).mpr
      (Or.inr (Or.inr ⟨JSString.lit "a", by decide +kernel, by decide +kernel,
        by decide +kernel⟩))).1

/-- **A character is lost**: after an admitted INSERT with the clock `2 ^ 53`, two characters that
are typed at once become one. -/
theorem not_forall_diffToOperations :
    ¬ ∀ (isUuid : JSString → Bool) (siteId : JSString) (ops : List InsertOperation),
      (∀ op ∈ ops, Admitted isUuid op) →
        ((ClientRGADocument.new siteId).applyOperations (ops.map .insert)).ShowsScalars →
        ∀ after : JSString, (∀ c ∈ after.codePoints, c.IsScalar) →
          (diffToOperations ((ClientRGADocument.new siteId).applyOperations (ops.map .insert))
            ((ClientRGADocument.new siteId).applyOperations (ops.map .insert)).toText
              after).1.toText = after := by
  intro h
  have htext := h _ (JSString.lit "6f1d8a52-3c1e-4b7a-9a55-0d2f7c3b9e11") _
    admitted_remoteInsert (by decide +kernel) (JSString.lit "abx") (by decide)
  revert htext
  decide +kernel

end MachineClock

end SyncEngine
