import SyncEngine.Client.CaretPosition
import SyncEngine.Client.CollaborativeDoc
import SyncEngine.Client.TextDiff
import SyncEngine.Lib.LastWrite
import SyncEngine.Lib.Transition

/-!
# The editor and the document

How `RichTextEditor` (`client/components/RichTextEditor.tsx`) and the hook it stands on keep each
other up to date: `handleChange` hands a changed text to `localBatchEdit`, and an effect turns a
changed text into a new value.

The value is a state of the component, which the editor itself, Slate, is given as `initialValue`:
it reads it when it is mounted, with the text still empty, and holds its own content from then on.

* `change_overrides`: what the editor holds is what its user has entered last, whatever the server
  has sent.  As long as the document has not arrived, a change stays in the editor; afterwards a
  change makes the document what the editor holds.  What others have written is deleted by its
  operations, on every replica.
* `value_shows_text`: the value, with which carets are computed, follows the text as long as the
  text is changed only where there is a document, and no text arrives while `isLocalUpdate` is left
  set by a change that did not change the text.

A document shows one scalar value a node here, as `localBatchEdit` makes them, and the clocks are
natural numbers (`Client.MachineDiff` has those of the machine).  An effect runs before the next
event.
-/

namespace SyncEngine

open LastWrite

namespace RichTextEditor

/-- The plain text of a value. -/
def serialize (nodes : List SlateElement) : JSString :=
  [newline].intercalate (nodes.map fun n => n.children.flatMap SlateText.text)

/-- **A text comes back from the editor as it was.** -/
lemma serialize_deserialize (str : JSString) : serialize (deserialize str) = str := by
  rw [deserialize]
  split_ifs with hempty
  · rw [hempty]
    rfl
  · rw [serialize, List.map_map]
    have hlines : (str.splitOn newline).map
        ((fun n : SlateElement => n.children.flatMap SlateText.text) ∘
          fun line => ⟨[⟨line⟩]⟩) = str.splitOn newline := by
      simp [Function.comp_def]
    rw [hlines]
    exact List.intercalate_splitOn newline

end RichTextEditor

open RichTextEditor

/-- A tab with a document open. -/
structure EditorTab where
  hook : CollaborativeDoc
  /-- What Slate holds. -/
  children : List SlateElement
  value : List SlateElement
  isLocalUpdate : Bool

/-- What can happen to the page. -/
inductive EditorEvent where
  | message (msg : ServerMessage)
  /-- Slate calls `onChange`, with its content after an edit or a move of the selection. -/
  | change (newValue : List SlateElement) (nonces : Nat → JSString)

namespace EditorTab

/-- The first render, before there is a connection. -/
def mount (docId : JSString) (queue : OfflineQueue) : EditorTab where
  hook := .new docId queue
  children := deserialize []
  value := deserialize []
  isLocalUpdate := false

/-- The effect on `text`, behind a render in which it was `previous` before. -/
def syncText (previous : JSString) (s : EditorTab) : EditorTab :=
  if s.hook.text = previous then s
  else if s.isLocalUpdate then { s with isLocalUpdate := false }
  else if s.hook.text ≠ serialize s.value then { s with value := deserialize s.hook.text }
  else s

/-- The handler of Slate's `onChange`: only another text counts as an edit. -/
def handleChange (s : EditorTab) (newValue : List SlateElement) (nonces : Nat → JSString) :
    EditorTab × List OperationMessage :=
  let nextStr := serialize newValue
  if nextStr ≠ s.hook.text then
    let (hook, messages) := s.hook.localBatchEdit s.hook.text nextStr nonces
    ({ s with hook := hook, value := newValue, isLocalUpdate := true }, messages)
  else ({ s with value := newValue, isLocalUpdate := true }, [])

/-- A change of the editor, with the operations it sends. -/
def change (s : EditorTab) (newValue : List SlateElement) (nonces : Nat → JSString) :
    EditorTab × List OperationMessage :=
  let (s', messages) := { s with children := newValue }.handleChange newValue nonces
  (s'.syncText s.hook.text, messages)

/-- A message of the server arrives, and the effect on `text` runs. -/
def message (s : EditorTab) (msg : ServerMessage) : EditorTab :=
  { s with hook := (s.hook.handleServerMessage msg).1 }.syncText s.hook.text

/-- One event. -/
def step (s : EditorTab) : EditorEvent → EditorTab
  | .message msg => s.message msg
  | .change newValue nonces => (s.change newValue nonces).1

/-- The page after some events. -/
def run (docId : JSString) (queue : OfflineQueue) (events : List EditorEvent) : EditorTab :=
  events.foldl step (mount docId queue)

/-- What the server sends as a snapshot is a document, whose nodes have UIDs of their own. -/
def WellFormed : EditorEvent → Prop
  | .message (.joinAck ack) =>
      (ReplicatedList.ids (ack.snapshot.nodes.map SerializedRGANode.cell)).Nodup ∧
        rootUID ∉ ReplicatedList.ids (ack.snapshot.nodes.map SerializedRGANode.cell)
  | _ => True

instance : DecidablePred WellFormed
  | .message (.joinAck ack) => inferInstanceAs (Decidable
      ((ReplicatedList.ids (ack.snapshot.nodes.map SerializedRGANode.cell)).Nodup ∧
        rootUID ∉ ReplicatedList.ids (ack.snapshot.nodes.map SerializedRGANode.cell)))
  | .message (.opAck _ _) => isTrue trivial
  | .message (.broadcast _) => isTrue trivial
  | .message (.error _) => isTrue trivial
  | .change _ _ => isTrue trivial

/-- What an event leaves in the editor. -/
def entered : EditorEvent → Option (List SlateElement)
  | .message _ => none
  | .change newValue _ => some newValue

variable {s : EditorTab} {event : EditorEvent} {events : List EditorEvent}

@[simp] lemma children_syncText (previous : JSString) (s : EditorTab) :
    (s.syncText previous).children = s.children := by
  unfold syncText
  split_ifs <;> rfl

@[simp] lemma hook_syncText (previous : JSString) (s : EditorTab) :
    (s.syncText previous).hook = s.hook := by
  unfold syncText
  split_ifs <;> rfl

lemma children_step (s : EditorTab) (event : EditorEvent) :
    (s.step event).children = (entered event).getD s.children := by
  cases event with
  | message msg => simp [step, message, entered]
  | change newValue nonces =>
      simp only [step, change, handleChange, entered, children_syncText, Option.getD_some]
      split_ifs <;> rfl

/-- **The editor holds what its user has entered last.** -/
lemma children_run (docId : JSString) (queue : OfflineQueue) (events : List EditorEvent) :
    (run docId queue events).children =
      (lastWrite entered events).getD (deserialize []) := by
  induction events using List.reverseRecOn with
  | nil => rfl
  | append_singleton events event ih =>
      rw [run, List.foldl_concat, children_step, lastWrite_concat]
      cases hentered : entered event with
      | none =>
          rw [Option.getD_none, Option.none_or]
          exact ih
      | some newValue => rfl

/-! ## The replica -/

/-- The text of the hook is that of its replica, one a client can hold. -/
structure Backed (s : EditorTab) : Prop where
  reachable : ∀ doc ∈ s.hook.docRef, doc.Reachable
  text : s.hook.text = (s.hook.docRef.map ClientRGADocument.toText).getD []

end EditorTab

namespace ClientRGADocument

lemma Reachable.applyOperation {d : ClientRGADocument} (h : d.Reachable) (op : RGAOperation) :
    (d.applyOperation op).Reachable := by
  cases op with
  | insert op => exact h.remote (.insert op) trivial
  | delete op => exact h.remote (.delete op) trivial
  | format op => exact h.remote (.delete ⟨op.uid⟩) trivial
  | rollback op => exact h.remote (.delete ⟨(RGAOperation.rollback op).uid⟩) trivial

lemma Reachable.applyOperations {d : ClientRGADocument} (h : d.Reachable)
    (ops : List RGAOperation) : (d.applyOperations ops).Reachable := by
  induction ops generalizing d with
  | nil => exact h
  | cons op ops ih => exact ih (h.applyOperation op)

lemma Edits.reachable {d d' : ClientRGADocument} {ops : List RGAOperation} (h : Edits d ops d')
    (hd : d.Reachable) : d'.Reachable := by
  induction h with
  | nil => exact hd
  | insert index char _ ih => exact ih (hd.localInsert index char)
  | delete index hop _ ih =>
      have hdeleted := hd.localDelete index
      rw [hop] at hdeleted
      exact ih hdeleted

/-- The text a difference was taken to is shown afterwards. -/
lemma toText_diff {d : ClientRGADocument} (h : d.Reachable) (hscalars : d.ShowsScalars)
    (after : JSString) : (d.diffToOperations d.toText after).1.toText = after := by
  rw [toText_eq_visible, visible_diffToOperations h.consistent hscalars.visible_eq,
    List.flatMap_map]
  exact List.flatten_eq_flatMap.symm.trans (JSString.flatten_codePoints after)

end ClientRGADocument

namespace EditorTab

variable {s : EditorTab} {event : EditorEvent} {events : List EditorEvent}
  {doc : ClientRGADocument}

lemma localBatchEdit_of_none {hook : CollaborativeDoc} (h : hook.docRef = none)
    (before after : JSString) (nonces : Nat → JSString) :
    hook.localBatchEdit before after nonces = (hook, []) := by
  rw [CollaborativeDoc.localBatchEdit, h]

/-- What a batch of edits leaves, and what it sends. -/
lemma localBatchEdit_of_some {hook : CollaborativeDoc} (h : hook.docRef = some doc)
    (before after : JSString) (nonces : Nat → JSString) :
    (hook.localBatchEdit before after nonces).1.docRef =
        some (doc.diffToOperations before after).1 ∧
      (hook.localBatchEdit before after nonces).1.text =
        (doc.diffToOperations before after).1.toText ∧
      (hook.localBatchEdit before after nonces).2.map OperationMessage.op =
        (doc.diffToOperations before after).2 := by
  rw [CollaborativeDoc.localBatchEdit, h]
  simp only [CollaborativeDoc.enqueueAll_eq, List.map_map, true_and]
  exact CollaborativeDoc.map_op_toQueue _ nonces _

lemma backed_mount (docId : JSString) (queue : OfflineQueue) : (mount docId queue).Backed where
  reachable := by simp [mount, CollaborativeDoc.new]
  text := rfl

lemma Backed.message (h : s.Backed) {msg : ServerMessage} (hmsg : WellFormed (.message msg)) :
    (s.message msg).Backed := by
  have hhook : (s.message msg).hook = (s.hook.handleServerMessage msg).1 := hook_syncText _ _
  constructor
  · rw [hhook]
    cases msg with
    | joinAck ack =>
        rintro doc hdoc
        obtain rfl := Option.some.inj hdoc
        exact (ClientRGADocument.Reachable.deserialize _ _ 0 hmsg.1 hmsg.2).applyOperations _
    | opAck clientSeq serverSeq => exact h.reachable
    | broadcast envelope =>
        cases hdoc : s.hook.docRef with
        | none =>
            simp [CollaborativeDoc.handleServerMessage, CollaborativeDoc.handleBroadcast, hdoc]
        | some doc =>
            rintro doc' hdoc'
            simp only [CollaborativeDoc.handleServerMessage, CollaborativeDoc.handleBroadcast,
              hdoc] at hdoc'
            obtain rfl := Option.some.inj hdoc'
            exact (h.reachable doc hdoc).applyOperation _
    | error _ => exact h.reachable
  · rw [hhook]
    cases msg with
    | joinAck ack => rfl
    | opAck clientSeq serverSeq => exact h.text
    | broadcast envelope =>
        cases hdoc : s.hook.docRef with
        | none =>
            have htext := h.text
            simpa [CollaborativeDoc.handleServerMessage, CollaborativeDoc.handleBroadcast, hdoc]
              using htext
        | some doc =>
            simp [CollaborativeDoc.handleServerMessage, CollaborativeDoc.handleBroadcast, hdoc]
    | error _ => exact h.text

/-- The hook after a change. -/
lemma hook_change (s : EditorTab) (newValue : List SlateElement) (nonces : Nat → JSString) :
    (s.change newValue nonces).1.hook =
      if serialize newValue ≠ s.hook.text then
        (s.hook.localBatchEdit s.hook.text (serialize newValue) nonces).1
      else s.hook := by
  simp only [change, handleChange, hook_syncText]
  split_ifs <;> rfl

lemma Backed.change (h : s.Backed) (newValue : List SlateElement) (nonces : Nat → JSString) :
    (s.change newValue nonces).1.Backed := by
  have hhook := hook_change s newValue nonces
  split_ifs at hhook with hdiffers
  · constructor
    · rw [hhook]
      cases hdoc : s.hook.docRef with
      | none => rw [localBatchEdit_of_none hdoc, hdoc]; simp
      | some doc =>
          rw [(localBatchEdit_of_some hdoc _ _ nonces).1]
          rintro doc' hdoc'
          obtain rfl := Option.some.inj hdoc'
          exact (doc.edits_diffToOperations _ _).reachable (h.reachable doc hdoc)
    · rw [hhook]
      cases hdoc : s.hook.docRef with
      | none => rw [localBatchEdit_of_none hdoc]; exact h.text
      | some doc =>
          obtain ⟨hdoc', htext, -⟩ :=
            localBatchEdit_of_some hdoc s.hook.text (serialize newValue) nonces
          rw [hdoc', htext]
          rfl
  · constructor
    · rw [hhook]
      exact h.reachable
    · rw [hhook]
      exact h.text

lemma backed_run (docId : JSString) (queue : OfflineQueue)
    (hevents : ∀ event ∈ events, WellFormed event) : (run docId queue events).Backed := by
  induction events using List.reverseRecOn with
  | nil => exact backed_mount docId queue
  | append_singleton events event ih =>
      have ih' := ih fun event hmem => hevents event (List.mem_append_left _ hmem)
      rw [run, List.foldl_concat]
      cases event with
      | message msg => exact ih'.message (hevents _ (List.mem_append_right _ List.mem_cons_self))
      | change newValue nonces => exact ih'.change newValue nonces

/-- A change that is made before the document has arrived stays in the editor. -/
lemma change_of_none (h : s.hook.docRef = none) (newValue : List SlateElement)
    (nonces : Nat → JSString) :
    (s.change newValue nonces).1.hook = s.hook ∧ (s.change newValue nonces).2 = [] := by
  constructor
  · rw [hook_change, localBatchEdit_of_none h, ite_self]
  · simp only [change, handleChange, localBatchEdit_of_none h]
    split_ifs <;> rfl

/-- A change makes the document what the editor holds. -/
lemma change_of_some (hbacked : s.Backed) (hdoc : s.hook.docRef = some doc)
    (hscalars : doc.ShowsScalars) (newValue : List SlateElement) (nonces : Nat → JSString) :
    ∃ doc', (s.change newValue nonces).1.hook.docRef = some doc' ∧
      doc'.toText = serialize newValue ∧
      doc.ReproducesAll ((s.change newValue nonces).2.map OperationMessage.op) doc' := by
  have hreachable := hbacked.reachable doc hdoc
  have htext : s.hook.text = doc.toText := by
    rw [hbacked.text, hdoc]
    rfl
  rw [hook_change]
  by_cases hsame : serialize newValue = s.hook.text
  · rw [if_neg (not_not.mpr hsame)]
    refine ⟨doc, hdoc, (hsame.trans htext).symm, ?_⟩
    have hnone : (s.change newValue nonces).2 = [] := by
      simp [change, handleChange, hsame]
    rw [hnone]
    exact ⟨fun _ he => he, fun _ he => he⟩
  · obtain ⟨hdoc', -, hops⟩ :=
      localBatchEdit_of_some hdoc s.hook.text (serialize newValue) nonces
    rw [if_pos hsame]
    refine ⟨_, hdoc', ?_, ?_⟩
    · rw [htext]
      exact ClientRGADocument.toText_diff hreachable hscalars _
    · have hsent : (s.change newValue nonces).2 =
          (s.hook.localBatchEdit s.hook.text (serialize newValue) nonces).2 := by
        simp [change, handleChange, hsame]
      rw [hsent, hops]
      exact (doc.edits_diffToOperations _ _).reproducesAll hreachable.consistent

/-- **A change overrides the document**: after any run, the editor holds what its user has entered
last, and nothing of what the server has sent.  The next change is lost on the document while there
is none, and makes it what the editor then holds as soon as there is one, on this replica and, by
its operations, on all of them. -/
theorem change_overrides (docId : JSString) (queue : OfflineQueue)
    (hevents : ∀ event ∈ events, WellFormed event) (newValue : List SlateElement)
    (nonces : Nat → JSString) :
    (run docId queue events).children =
        (lastWrite entered events).getD (deserialize []) ∧
      ((run docId queue events).hook.docRef = none →
        ((run docId queue events).change newValue nonces).1.hook = (run docId queue events).hook ∧
          ((run docId queue events).change newValue nonces).2 = []) ∧
      ∀ doc, (run docId queue events).hook.docRef = some doc → doc.ShowsScalars →
        ∃ doc', ((run docId queue events).change newValue nonces).1.hook.docRef = some doc' ∧
          doc'.toText = serialize newValue ∧
          doc.ReproducesAll
            (((run docId queue events).change newValue nonces).2.map OperationMessage.op) doc' :=
  ⟨children_run docId queue events, fun hnone => change_of_none hnone newValue nonces,
    fun _ hdoc hscalars =>
      change_of_some (backed_run docId queue hevents) hdoc hscalars newValue nonces⟩

/-- A document of two characters. -/
def twoCharacters : ServerMessage :=
  .joinAck ⟨JSString.lit "s", JSString.lit "t",
    ⟨2, [⟨1, JSString.lit "u", .string (JSString.lit "h"), none, false⟩,
      ⟨2, JSString.lit "u", .string (JSString.lit "i"), none, false⟩]⟩, []⟩

/-- The editor is blank when the document has arrived, and one letter typed into it deletes what
was there. -/
theorem change_overrides_twoCharacters :
    (run (JSString.lit "d") [] [.message twoCharacters]).hook.text = JSString.lit "hi" ∧
      ∃ doc', ((run (JSString.lit "d") [] [.message twoCharacters]).change
          [⟨[⟨JSString.lit "a"⟩]⟩] fun _ => []).1.hook.docRef = some doc' ∧
        doc'.toText = JSString.lit "a" := by
  refine ⟨by decide +kernel, ?_⟩
  obtain ⟨-, -, harrived⟩ := @change_overrides [.message twoCharacters]
    (JSString.lit "d") [] (by decide) [⟨[⟨JSString.lit "a"⟩]⟩] fun _ => []
  obtain ⟨doc', hdoc, htext, -⟩ := harrived _ rfl (by decide +kernel)
  exact ⟨doc', hdoc, htext⟩

/-! ## The value -/

/-- The value shows the text. -/
def InSync (s : EditorTab) : Prop := serialize s.value = s.hook.text

/-- No text arrives while the flag is set, and the text is changed where there is a document, which
shows one character a node. -/
def Follows (s : EditorTab) : EditorEvent → Prop
  | .message msg =>
      WellFormed (.message msg) ∧
        (s.isLocalUpdate = true → (s.hook.handleServerMessage msg).1.text = s.hook.text)
  | .change newValue _ =>
      serialize newValue = s.hook.text ∨ ∃ doc ∈ s.hook.docRef, doc.ShowsScalars

/-- A message brings the value up to date unless the flag is set. -/
lemma InSync.message_iff (h : s.InSync) (msg : ServerMessage) :
    (s.message msg).InSync ↔
      (s.isLocalUpdate = true → (s.hook.handleServerMessage msg).1.text = s.hook.text) := by
  unfold InSync at h ⊢
  rw [message, hook_syncText]
  by_cases hsame : (s.hook.handleServerMessage msg).1.text = s.hook.text
  · rw [syncText, if_pos hsame]
    simp only [hsame, h, implies_true]
  · rw [syncText, if_neg hsame]
    cases hflag : s.isLocalUpdate with
    | true =>
        rw [if_pos rfl]
        exact ⟨fun hshown => absurd (hshown.symm.trans h) hsame,
          fun hall => absurd (hall rfl) hsame⟩
    | false =>
        have hupdated : (s.hook.handleServerMessage msg).1.text ≠ serialize s.value := h ▸ hsame
        simp only [Bool.false_eq_true, if_false, false_implies, if_pos hupdated,
          serialize_deserialize]

/-- The flag keeps the effect from the value. -/
lemma value_syncText_of_isLocalUpdate (h : s.isLocalUpdate = true) (previous : JSString) :
    (s.syncText previous).value = s.value := by
  rw [syncText, if_pos h]
  split_ifs <;> rfl

lemma value_change (s : EditorTab) (newValue : List SlateElement) (nonces : Nat → JSString) :
    (s.change newValue nonces).1.value = newValue := by
  simp only [change, handleChange]
  by_cases hdiffers : serialize newValue ≠ s.hook.text
  · rw [if_pos hdiffers, value_syncText_of_isLocalUpdate rfl]
  · rw [if_neg hdiffers, value_syncText_of_isLocalUpdate rfl]

lemma Backed.inSync_change (h : s.Backed) {newValue : List SlateElement}
    {nonces : Nat → JSString} (hchange : Follows s (.change newValue nonces)) :
    (s.change newValue nonces).1.InSync := by
  have hhook := hook_change s newValue nonces
  rw [InSync, value_change, hhook]
  split_ifs with hdiffers
  · rcases hchange with hsame | ⟨doc, hdoc, hscalars⟩
    · exact absurd hsame hdiffers
    · obtain ⟨-, htext, -⟩ :=
        localBatchEdit_of_some hdoc s.hook.text (serialize newValue) nonces
      have hbefore : s.hook.text = doc.toText := by
        rw [h.text, hdoc]
        rfl
      rw [htext, hbefore]
      exact (ClientRGADocument.toText_diff (h.reachable doc hdoc) hscalars _).symm
  · exact not_not.mp hdiffers

/-- **The value follows the text**: in every run in which the text is changed only where there is a
document, and no text arrives while the flag is left set, the value shows the text in every state.
At the next message the latter is just what it needs to stay so, and a change that is made before
there is a document must leave the text as it is. -/
theorem value_shows_text (docId : JSString) (queue : OfflineQueue)
    (h : Transition.Reach (fun s event => some (step s event)) Follows (mount docId queue) s) :
    s.InSync ∧
      (∀ msg, (s.message msg).InSync ↔
        (s.isLocalUpdate = true → (s.hook.handleServerMessage msg).1.text = s.hook.text)) ∧
      ∀ newValue nonces, s.hook.docRef = none →
        ((s.change newValue nonces).1.InSync ↔ serialize newValue = s.hook.text) := by
  have hinvariant : s.Backed ∧ s.InSync := by
    refine Transition.Reach.invariant (P := fun s => s.Backed ∧ s.InSync) h
      ⟨backed_mount docId queue, rfl⟩ ?_
    rintro s event s' ⟨hbacked, hsync⟩ hfollows hstep
    obtain rfl := Option.some.inj hstep
    cases event with
    | message msg => exact ⟨hbacked.message hfollows.1, (hsync.message_iff msg).mpr hfollows.2⟩
    | change newValue nonces => exact ⟨hbacked.change _ _, hbacked.inSync_change hfollows⟩
  refine ⟨hinvariant.2, hinvariant.2.message_iff, fun newValue nonces hnone => ?_⟩
  rw [InSync, value_change, (change_of_none hnone newValue nonces).1]

/-- The selection is moved before the document arrives. -/
def clickedEarly : EditorTab :=
  step (mount (JSString.lit "d") []) (.change (deserialize []) fun _ => [])

/-- The move leaves the flag set, and the value misses the document. -/
theorem value_shows_text_clickedEarly :
    clickedEarly.InSync ∧ clickedEarly.isLocalUpdate = true ∧
      ¬ (clickedEarly.message twoCharacters).InSync := by
  obtain ⟨hsync, hnext, -⟩ := @value_shows_text clickedEarly (JSString.lit "d") []
    (.tail (.change (deserialize []) fun _ => []) .refl (.inl (by decide)) rfl)
  refine ⟨hsync, by decide, fun hshown => ?_⟩
  exact absurd ((hnext twoCharacters).mp hshown (by decide)) (by decide +kernel)

end EditorTab

end SyncEngine
