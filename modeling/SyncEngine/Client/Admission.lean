import SyncEngine.Client.TextDiff
import SyncEngine.Server.InputSanitizer

/-!
# What the client makes and the server admits

The client applies an operation before it sends it; an operation the server's schema refuses stays
in the client's replica alone.  The client makes an operation from UIDs of its replica, from its
own site id and from the characters that are typed or pasted.  The UIDs pass the schema as long as
those of the replica do (`Uuids`), and so does the length of a character; nothing on the client
looks for control characters.

* **`admitted_iff`**: what a client makes in a run of calls is admitted exactly when no character
  it inserts is a control character the schema refuses.
-/

namespace SyncEngine

open ReplicatedList InputSanitizer

variable {isUuid : JSString → Bool}

/-- The string an operation inserts. -/
def RGAOperation.char? : RGAOperation → Option JSString
  | .insert op =>
      match op.value with
      | .string v => some v
      | .object _ => none
  | _ => none

/-! ## The calls on a replica -/

/-- A call on the client's replica: an edit of the user or an operation the server relays. -/
inductive ClientCall where
  | localInsert (index : Nat) (char : JSString)
  | localDelete (index : Nat)
  | diffToOperations (before after : JSString)
  | applyOperation (op : RGAOperation)
deriving DecidableEq, Repr

namespace ClientCall

/-- The characters a text change inserts: what lies between the common beginning and the common
end of the two texts. -/
def insertedPart (before after : JSString) : List JSString :=
  let prefixLen := ClientRGADocument.commonLength before.codePoints after.codePoints
  let beforeChars := before.codePoints.drop prefixLen
  let afterChars := after.codePoints.drop prefixLen
  let suffixLen := ClientRGADocument.commonLength beforeChars.reverse afterChars.reverse
  afterChars.take (afterChars.length - suffixLen)

/-- The characters a call inserts. -/
def chars : ClientCall → List JSString
  | localInsert _ char => [char]
  | localDelete _ => []
  | diffToOperations before after => insertedPart before after
  | applyOperation _ => []

variable (isUuid) in
/-- One code point is typed at a time, and the server relays what it has admitted. -/
def Proper : ClientCall → Prop
  | localInsert _ char => char.codePoints = [char]
  | applyOperation op => RGAOperationSchema isUuid op = true
  | _ => True

instance : DecidablePred (Proper isUuid)
  | localInsert _ char => inferInstanceAs (Decidable (char.codePoints = [char]))
  | localDelete _ => isTrue trivial
  | diffToOperations _ _ => isTrue trivial
  | applyOperation op => inferInstanceAs (Decidable (RGAOperationSchema isUuid op = true))

end ClientCall

namespace ClientRGADocument

/-- The replica after a call, and the operations it returns. -/
def call (d : ClientRGADocument) : ClientCall → ClientRGADocument × List RGAOperation
  | .localInsert index char =>
      ((d.localInsert index char).1, [.insert (d.localInsert index char).2])
  | .localDelete index =>
      ((d.localDelete index).1, (d.localDelete index).2.toList.map .delete)
  | .diffToOperations before after => d.diffToOperations before after
  | .applyOperation op => (d.applyOperation op, [])

/-- A run of calls: the replica at the end, and all operations returned on the way. -/
def calls (d : ClientRGADocument) : List ClientCall → ClientRGADocument × List RGAOperation
  | [] => (d, [])
  | c :: cs => (((d.call c).1.calls cs).1, (d.call c).2 ++ ((d.call c).1.calls cs).2)

/-! ## The sites -/

variable (isUuid) in
/-- The replica's own site and those of its nodes are UUIDs. -/
structure Uuids (d : ClientRGADocument) : Prop where
  siteId : isUuid d.siteId = true
  ids : ∀ u ∈ ReplicatedList.ids d.cells, isUuid u.siteId = true

lemma ids_applyDelete (d : ClientRGADocument) (op : DeleteOperation) :
    ids (d.applyDelete op).cells = ids d.cells := by
  rcases d.applyDelete_cases op with
    ⟨-, heq | ⟨-, heq⟩⟩ | ⟨-, -, heq⟩ | ⟨-, n, -, -, ⟨-, heq⟩ | ⟨-, heq⟩⟩
  · rw [heq]
  · rw [heq]
    rfl
  · rw [heq]
  · rw [heq]
  · rw [heq, ids_cells, ids_cells]
    simp only [Chain.updateNode, List.map_map]
    refine List.map_congr_left fun m _ => ?_
    simp only [Function.comp_apply]
    split <;> rfl

lemma mem_ids_applyInsert {d : ClientRGADocument} {op : InsertOperation} {u : UID}
    (hu : u ∈ ids (d.applyInsert op).cells) : u ∈ ids d.cells ∨ u = op.uid := by
  by_cases hroot : op.uid = rootUID
  · have hhas : Chain.indexHas ClientNode.uid (uidKey op.uid) d.nodes = true :=
      Chain.indexHas_iff.mpr (Or.inl hroot)
    rw [applyInsert, if_pos hhas] at hu
    exact Or.inl hu
  · rw [d.cells_applyInsert hroot] at hu
    exact mem_ids_step hu

lemma Uuids.applyOperation {d : ClientRGADocument} (h : Uuids isUuid d) {op : RGAOperation}
    (hop : RGAOperationSchema isUuid op = true) : Uuids isUuid (d.applyOperation op) := by
  obtain ⟨hedit, hnamed⟩ := isUuid_of_schema hop
  refine ⟨(d.applyOperation_clock op).1 ▸ h.siteId, fun u hu => ?_⟩
  cases op with
  | insert op =>
      rcases mem_ids_applyInsert hu with hold | rfl
      · exact h.ids u hold
      · exact hnamed _ (List.mem_cons_self ..)
  | delete op => exact h.ids u (d.ids_applyDelete op ▸ hu)
  | format _ => exact absurd hedit id
  | rollback _ => exact absurd hedit id

/-- An INSERT made here names a node of the replica and the replica's own site. -/
lemma Uuids.localInsert {d : ClientRGADocument} (h : Uuids isUuid d) (index : Nat)
    (char : JSString) :
    Uuids isUuid (d.localInsert index char).1 ∧
      ∀ u ∈ (RGAOperation.insert (d.localInsert index char).2).named, isUuid u.siteId = true := by
  obtain ⟨-, hsite, huid⟩ := d.clock_localInsert index char
  have hown : isUuid (d.localInsert index char).2.uid.siteId = true := huid ▸ h.siteId
  refine ⟨⟨hsite ▸ h.siteId, fun u hu => ?_⟩, fun u hu => ?_⟩
  · rcases mem_ids_applyInsert hu with hold | rfl
    · exact h.ids u hold
    · exact hown
  · rcases List.mem_cons.mp hu with rfl | hafter
    · exact hown
    · exact h.ids u (getAfterUID_mem (d := { d with clock := d.clock + 1 })
        (Option.mem_toList.mp hafter))

lemma Uuids.localDelete {d d' : ClientRGADocument} (h : Uuids isUuid d) {index : Nat}
    {op : DeleteOperation} (hop : d.localDelete index = (d', some op)) :
    Uuids isUuid d' ∧ isUuid op.uid.siteId = true := by
  obtain ⟨-, hsite⟩ := clock_localDelete hop
  rw [ClientRGADocument.localDelete] at hop
  split at hop
  · simp at hop
  · rename_i u hu
    obtain ⟨rfl, rfl⟩ : d.applyDelete ⟨u⟩ = d' ∧ (⟨u⟩ : DeleteOperation) = op := by simpa using hop
    exact ⟨⟨hsite ▸ h.siteId, fun w hw => h.ids w (d.ids_applyDelete ⟨u⟩ ▸ hw)⟩,
      h.ids u (indexToUID_mem hu)⟩

/-! ## The operations that calls return -/

variable (isUuid) in
/-- What a local edit makes, as far as the schema looks at it apart from the character. -/
structure Sendable (op : RGAOperation) : Prop where
  isEdit : op.IsEdit
  named : ∀ u ∈ op.named, isUuid u.siteId = true
  value : ∀ i, op = .insert i → ∃ v, i.value = .string v

/-- Of a sendable operation the schema looks at the character. -/
lemma Sendable.schema_iff {op : RGAOperation} (h : Sendable isUuid op) :
    RGAOperationSchema isUuid op = true ↔ ∀ v, op.char? = some v → valueSchema v = true := by
  rw [InputSanitizer.schema_iff h.isEdit, and_iff_right h.named]
  constructor
  · intro hvalue v hv
    cases op with
    | insert i =>
        obtain ⟨w, hw, hschema⟩ := hvalue i rfl
        obtain rfl : w = v := by simpa [RGAOperation.char?, hw] using hv
        exact hschema
    | _ => simp [RGAOperation.char?] at hv
  · rintro hchar i rfl
    obtain ⟨v, hv⟩ := h.value i rfl
    exact ⟨v, hv, hchar v (by simp [RGAOperation.char?, hv])⟩

/-- Local edits keep the sites and make sendable operations. -/
lemma Edits.sendable {d d' : ClientRGADocument} {ops : List RGAOperation} (h : Edits d ops d')
    (hd : Uuids isUuid d) : Uuids isUuid d' ∧ ∀ op ∈ ops, Sendable isUuid op := by
  induction h with
  | nil d => exact ⟨hd, by simp⟩
  | insert index char _ ih =>
      obtain ⟨hd₁, hnamed⟩ := hd.localInsert index char
      obtain ⟨hd', hrest⟩ := ih hd₁
      refine ⟨hd', List.forall_mem_cons.mpr ⟨⟨trivial, hnamed, fun i hi => ⟨char, ?_⟩⟩, hrest⟩⟩
      obtain rfl := RGAOperation.insert.inj hi
      rfl
  | delete index hop _ ih =>
      obtain ⟨hd₁, huuid⟩ := hd.localDelete hop
      obtain ⟨hd', hrest⟩ := ih hd₁
      refine ⟨hd', List.forall_mem_cons.mpr ⟨⟨trivial, fun u hu => ?_, by simp⟩, hrest⟩⟩
      rw [List.mem_singleton.mp hu]
      exact huuid

/-- The operations a call of the user returns are local edits. -/
lemma edits_call (d : ClientRGADocument) {c : ClientCall} (hc : ∀ op, c ≠ .applyOperation op) :
    Edits d (d.call c).2 (d.call c).1 := by
  cases c with
  | localInsert index char => exact .insert index char (.nil _)
  | localDelete index =>
      rw [call]
      cases hdelete : d.localDelete index with
      | mk d₁ op? =>
          cases op? with
          | none =>
              obtain rfl := localDelete_none hdelete
              exact .nil _
          | some op => exact .delete index hdelete (.nil _)
  | diffToOperations before after => exact d.edits_diffToOperations before after
  | applyOperation op => exact absurd rfl (hc op)

lemma Uuids.call {d : ClientRGADocument} (h : Uuids isUuid d) {c : ClientCall}
    (hc : c.Proper isUuid) :
    Uuids isUuid (d.call c).1 ∧ ∀ op ∈ (d.call c).2, Sendable isUuid op := by
  by_cases hrelayed : ∃ op, c = .applyOperation op
  · obtain ⟨op, rfl⟩ := hrelayed
    exact ⟨h.applyOperation hc, by simp [ClientRGADocument.call]⟩
  · exact (d.edits_call fun op hop => hrelayed ⟨op, hop⟩).sendable h

/-! ## The characters that calls insert -/

lemma chars_deleteRange (d : ClientRGADocument) (start n : Nat) :
    (d.deleteRange start n).2.filterMap RGAOperation.char? = [] := by
  induction n generalizing d with
  | zero => rfl
  | succ n ih =>
      simp only [deleteRange]
      cases hdelete : d.localDelete (start + n) with
      | mk d₁ op? =>
          cases op? with
          | none => exact ih d₁
          | some op =>
              have hchar : (RGAOperation.delete op).char? = none := rfl
              exact (List.filterMap_cons_none hchar).trans (ih d₁)

lemma chars_insertRange (d : ClientRGADocument) (index : Nat) (chars : List JSString) :
    (d.insertRange index chars).2.filterMap RGAOperation.char? = chars := by
  induction chars generalizing d index with
  | nil => rfl
  | cons char chars ih =>
      have hchar : (RGAOperation.insert (d.localInsert index char).2).char? = some char := rfl
      rw [insertRange]
      exact (List.filterMap_cons_some hchar).trans (congrArg (char :: ·) (ih _ _))

lemma chars_call (d : ClientRGADocument) (c : ClientCall) :
    (d.call c).2.filterMap RGAOperation.char? = c.chars := by
  cases c with
  | localInsert index char => rfl
  | localDelete index => cases h : (d.localDelete index).2 <;> simp [call, h, RGAOperation.char?,
      ClientCall.chars]
  | diffToOperations before after =>
      simp only [call, diffToOperations, List.filterMap_append, chars_deleteRange,
        chars_insertRange, List.nil_append, ClientCall.chars, ClientCall.insertedPart]
  | applyOperation op => rfl

/-- The characters a proper call inserts are single code points. -/
lemma codePoints_of_proper {c : ClientCall} (hc : c.Proper isUuid) {v : JSString}
    (hv : v ∈ c.chars) : v.codePoints = [v] := by
  cases c with
  | localInsert index char =>
      obtain rfl := List.mem_singleton.mp hv
      exact hc
  | localDelete index => simp [ClientCall.chars] at hv
  | diffToOperations before after =>
      exact JSString.codePoints_of_mem (List.mem_of_mem_drop (List.mem_of_mem_take hv))
  | applyOperation op => simp [ClientCall.chars] at hv

/-- Of a single code point the schema asks not to be a control character. -/
lemma valueSchema_iff {v : JSString} (h : v.codePoints = [v]) :
    valueSchema v = true ↔ disallowedControl v = false := by
  obtain ⟨hpos, hle⟩ := JSString.length_of_codePoints h
  have hmax : v.length ≤ 4 := by omega
  simp [valueSchema, h, hpos, hmax]

/-- **What the client makes is admitted exactly when it inserts no refused control character.** -/
theorem admitted_iff (isUuid : JSString → Bool) {d : ClientRGADocument} (hd : Uuids isUuid d)
    {cs : List ClientCall} (hcs : ∀ c ∈ cs, c.Proper isUuid) :
    (∀ op ∈ (d.calls cs).2, RGAOperationSchema isUuid op = true) ↔
      ∀ c ∈ cs, ∀ v ∈ c.chars, disallowedControl v = false := by
  induction cs generalizing d with
  | nil => simp [calls]
  | cons c cs ih =>
      have hc : c.Proper isUuid := hcs c (List.mem_cons_self ..)
      obtain ⟨hd₁, hsendable⟩ := hd.call hc
      have ih' := ih hd₁ fun c' hc' => hcs c' (List.mem_cons_of_mem _ hc')
      have hhead : (∀ op ∈ (d.call c).2, RGAOperationSchema isUuid op = true) ↔
          ∀ v ∈ c.chars, disallowedControl v = false := by
        rw [← d.chars_call c]
        constructor
        · intro hschema v hv
          obtain ⟨op, hop, hchar⟩ := List.mem_filterMap.mp hv
          refine (valueSchema_iff (codePoints_of_proper hc (d.chars_call c ▸ hv))).mp ?_
          exact (hsendable op hop).schema_iff.mp (hschema op hop) v hchar
        · intro hcontrol op hop
          refine (hsendable op hop).schema_iff.mpr fun v hchar => ?_
          have hv := List.mem_filterMap.mpr ⟨op, hop, hchar⟩
          exact (valueSchema_iff (codePoints_of_proper hc (d.chars_call c ▸ hv))).mpr
            (hcontrol v hv)
      rw [calls]
      simp only [List.mem_append, or_imp, forall_and, hhead, ih', List.forall_mem_cons]

/-- The form of a UUID: five groups of hexadecimal digits. -/
def uuidForm (v : JSString) : Bool :=
  v.length == 36 && (v.mapIdx fun i u => if i ∈ [8, 13, 18, 23] then u.val == 45
    else (48 ≤ u.val && u.val ≤ 57) || (65 ≤ u.val && u.val ≤ 70) ||
      (97 ≤ u.val && u.val ≤ 102)).all id

/-- A site. -/
def site : JSString := JSString.lit "9f3c1c62-4b1a-4a77-8f0e-2f1d6a5b7c10"

/-- A pasted line end of two characters, against one of one. -/
theorem admitted_iff_pasted :
    (∀ op ∈ ((new site).calls [.localInsert 0 (JSString.lit "a"),
        .diffToOperations (JSString.lit "a") (JSString.lit "a\nb"), .localDelete 0]).2,
      RGAOperationSchema uuidForm op = true) ↔
    ∀ c ∈ [ClientCall.localInsert 0 (JSString.lit "a"),
        .diffToOperations (JSString.lit "a") (JSString.lit "a\nb"), .localDelete 0],
      ∀ v ∈ c.chars, disallowedControl v = false :=
  admitted_iff uuidForm ⟨by decide, by decide⟩ (by decide)

/-- A pasted carriage return is refused. -/
theorem pasted_return_refused :
    ¬ ∀ (d : ClientRGADocument) (cs : List ClientCall), Uuids uuidForm d →
      (∀ c ∈ cs, c.Proper uuidForm) →
        ∀ op ∈ (d.calls cs).2, RGAOperationSchema uuidForm op = true := by
  intro h
  have hadmitted := h (new site) [.diffToOperations [] (JSString.lit "a\r\nb")]
    ⟨by decide, by decide⟩ (by decide)
  exact absurd hadmitted (by decide)

end ClientRGADocument

end SyncEngine
