import SyncEngine.Client.LocalEdits

/-!
# The client's replica against the server's

`ClientRGADocument` and `RGADocument` are two copies of one algorithm.  They answer an INSERT and
a DELETE in the same way, in any order and with any gaps.  They part on the third operation of
the shared type: the server's class formats the node, the client's takes whatever is not an
INSERT for a DELETE and tombstones it.

* **`agree_iff`**: the two replicas agree after every step of a sequence exactly when no FORMAT
  of it arrives at a visible node.
-/

namespace SyncEngine

open ReplicatedList

/-- The operation is of a type that the shared union has. -/
def RGAOperation.IsShared : RGAOperation → Prop
  | .rollback _ => False
  | _ => True

instance : DecidablePred RGAOperation.IsShared
  | .insert _ => isTrue trivial
  | .delete _ => isTrue trivial
  | .format _ => isTrue trivial
  | .rollback _ => isFalse id

/-- The two replicas hold the same nodes, in the same order, and count the same. -/
def Agree (server : RGADocument) (client : ClientRGADocument) : Prop :=
  client.cells = server.cells ∧ client.length = server.length

instance (server : RGADocument) (client : ClientRGADocument) : Decidable (Agree server client) :=
  inferInstanceAs (Decidable (_ ∧ _))

/-- A FORMAT of the sequence reaches a node that the document shows when it arrives. -/
def FormatsVisible (ops : List RGAOperation) : Prop :=
  ∃ before op after, ops = before ++ .format op :: after ∧
    (RGADocument.empty.applyOperations before).Shows op.uid

/-! ## One operation -/

/-- The two replicas after the same operations: both count, neither has lost its sentinel. -/
structure InStep (server : RGADocument) (client : ClientRGADocument) : Prop where
  wellFormed : server.WellFormed
  consistent : client.Consistent
  rootTombstoned_eq : client.rootTombstoned = false
  cells_eq : client.cells = server.cells

lemma InStep.agree {server : RGADocument} {client : ClientRGADocument} (h : InStep server client) :
    Agree server client := by
  refine ⟨h.cells_eq, ?_⟩
  have hcounted := h.consistent.counted
  rw [ClientRGADocument.Counted, h.rootTombstoned_eq, length_visible, h.cells_eq] at hcounted
  rw [h.wellFormed.length_eq, ← hcounted]
  simp

lemma inStep_start (siteId : JSString) (initialClock : Nat) :
    InStep .empty (.new siteId initialClock) :=
  ⟨RGADocument.wellFormed_empty, ClientRGADocument.consistent_new siteId initialClock, rfl, rfl⟩

/-- Only a DELETE of the sentinel's UID sets its flag. -/
lemma ClientRGADocument.rootTombstoned_applyOperation (d : ClientRGADocument) {op : RGAOperation}
    (hroot : op.uid ≠ rootUID) : (d.applyOperation op).rootTombstoned = d.rootTombstoned := by
  have hdelete : ∀ u, u ≠ rootUID →
      (d.applyDelete ⟨u⟩).rootTombstoned = d.rootTombstoned := by
    intro u hu
    rcases d.applyDelete_cases ⟨u⟩ with ⟨h, -⟩ | ⟨-, -, heq⟩ | ⟨-, n, -, -, ⟨-, heq⟩ | ⟨-, heq⟩⟩
    · exact absurd h hu
    all_goals rw [heq]
  cases op with
  | insert op =>
      simp only [applyOperation, applyInsert]
      split
      · rfl
      · split <;> rfl
  | delete op => exact hdelete op.uid hroot
  | format op => exact hdelete op.uid hroot
  | rollback op => exact hdelete op.uid hroot

/-- What the client makes of an operation that is not an INSERT. -/
lemma ClientRGADocument.cells_applyOperation_format {d : ClientRGADocument} (h : d.Consistent)
    {op : FormatOperation} (hroot : op.uid ≠ rootUID) :
    (d.applyOperation (.format op)).cells = d.cells.map (Cell.kill op.uid) :=
  cells_applyDelete h.nodup (show (⟨op.uid⟩ : DeleteOperation).uid ≠ rootUID from hroot)

/-- Killing leaves a list alone exactly when it shows no cell of that identifier. -/
lemma map_kill_eq_self_iff {l : List (Cell UID JsValue)} {u : UID} :
    l.map (Cell.kill u) = l ↔ ∀ c ∈ l, c.id = u → c.dead = true := by
  constructor
  · intro h c hc hcu
    obtain ⟨c', -, hkill⟩ := List.mem_map.mp (h.symm ▸ hc)
    have hid : c'.id = u := by rw [← hcu, ← hkill, Cell.kill_id]
    rw [← hkill]
    simp [hid]
  · intro h
    have hkill : ∀ c ∈ l, c.kill u = c := by
      intro c hc
      by_cases hcu : c.id = u
      · exact Cell.kill_of_dead (h c hc hcu)
      · exact Cell.kill_of_ne hcu
    rw [List.map_congr_left hkill, List.map_id']

/-- An operation keeps two replicas in step, unless it formats a node they show. -/
lemma InStep.applyOperation {server : RGADocument} {client : ClientRGADocument}
    (h : InStep server client) {op : RGAOperation} (hshared : op.IsShared)
    (hroot : op.uid ≠ rootUID) (hformat : ∀ f, op = .format f → ¬ server.Shows f.uid) :
    InStep (server.applyOperation op).1 (client.applyOperation op) := by
  refine ⟨h.wellFormed.applyOperation hroot, h.consistent.applyOperation op,
    (client.rootTombstoned_applyOperation hroot).trans h.rootTombstoned_eq, ?_⟩
  cases he : op.edit? with
  | some e =>
      rw [ClientRGADocument.cells_applyOperation h.consistent.nodup hroot he,
        RGADocument.cells_applyOperation h.wellFormed.nodup hroot he, h.cells_eq]
  | none =>
      cases op with
      | insert op => simp [RGAOperation.edit?] at he
      | delete op => simp [RGAOperation.edit?] at he
      | format f =>
          rw [ClientRGADocument.cells_applyOperation_format h.consistent hroot,
            (RGADocument.applyOperation_format_cases server f).1, h.cells_eq,
            map_kill_eq_self_iff]
          intro c hc hcu
          by_contra hlive
          exact hformat f rfl ⟨c, hc, hcu, by simpa using hlive⟩
      | rollback _ => exact absurd hshared id

/-- A FORMAT of a node that is shown takes it away on the client only. -/
lemma InStep.not_agree_format {server : RGADocument} {client : ClientRGADocument}
    (h : InStep server client) {op : FormatOperation} (hroot : op.uid ≠ rootUID)
    (hshows : server.Shows op.uid) :
    ¬ Agree (server.applyOperation (.format op)).1 (client.applyOperation (.format op)) := by
  rintro ⟨hcells, -⟩
  rw [ClientRGADocument.cells_applyOperation_format h.consistent hroot,
    (RGADocument.applyOperation_format_cases server op).1, h.cells_eq,
    map_kill_eq_self_iff] at hcells
  obtain ⟨c, hc, hcu, hlive⟩ := hshows
  rw [hcells c hc hcu] at hlive
  exact Bool.noConfusion hlive

/-! ## Sequences of operations -/

variable {siteId : JSString} {initialClock : Nat} {ops : List RGAOperation}

lemma ClientRGADocument.applyOperations_concat (d : ClientRGADocument) (ops : List RGAOperation)
    (op : RGAOperation) :
    d.applyOperations (ops ++ [op]) = (d.applyOperations ops).applyOperation op :=
  List.foldl_concat ..

/-- Without such a FORMAT the replicas stay in step. -/
lemma inStep_applyOperations (hshared : ∀ op ∈ ops, op.IsShared)
    (hroot : ∀ op ∈ ops, op.uid ≠ rootUID) (hformat : ¬ FormatsVisible ops) :
    InStep (RGADocument.empty.applyOperations ops)
      ((ClientRGADocument.new siteId initialClock).applyOperations ops) := by
  induction ops using List.reverseRecOn with
  | nil => exact inStep_start siteId initialClock
  | append_singleton ops op ih =>
      have hbefore : ¬ FormatsVisible ops := by
        rintro ⟨before, f, after, rfl, hshows⟩
        exact hformat ⟨before, f, after ++ [op], by simp, hshows⟩
      have ih' := ih (fun p hp => hshared p (by simp [hp])) (fun p hp => hroot p (by simp [hp]))
        hbefore
      rw [RGADocument.applyOperations_concat, ClientRGADocument.applyOperations_concat]
      refine ih'.applyOperation (hshared op (by simp)) (hroot op (by simp)) ?_
      rintro f rfl hshows
      exact hformat ⟨ops, f, [], rfl, hshows⟩

/-- The first FORMAT of a node that is shown, if there is one. -/
lemma exists_first_format (h : FormatsVisible ops) :
    ∃ before op after, ops = before ++ .format op :: after ∧ ¬ FormatsVisible before ∧
      (RGADocument.empty.applyOperations before).Shows op.uid := by
  obtain ⟨before, op, after, rfl, hshows⟩ := h
  induction hn : before.length using Nat.strong_induction_on generalizing before op after with
  | _ n ih =>
      by_cases hbefore : FormatsVisible before
      · obtain ⟨before', op', after', rfl, hshows'⟩ := hbefore
        have hlt : before'.length < n := by simp [← hn]
        obtain ⟨b, o, a, heq, hb, ho⟩ := ih _ hlt before' op' (after' ++ .format op :: after)
          hshows' rfl
        exact ⟨b, o, a, by rw [← heq]; simp, hb, ho⟩
      · exact ⟨before, op, after, rfl, hbefore, hshows⟩

/-- **Client and server agree after every step exactly when no FORMAT arrives at a visible
node.** -/
theorem agree_iff (siteId : JSString) (initialClock : Nat) {ops : List RGAOperation}
    (hshared : ∀ op ∈ ops, op.IsShared) (hroot : ∀ op ∈ ops, op.uid ≠ rootUID) :
    (∀ before, before <+: ops → Agree (RGADocument.empty.applyOperations before)
        ((ClientRGADocument.new siteId initialClock).applyOperations before)) ↔
      ¬ FormatsVisible ops := by
  constructor
  · intro hagree hformat
    obtain ⟨before, op, after, rfl, hnone, hshows⟩ := exists_first_format hformat
    have hin : InStep (RGADocument.empty.applyOperations before)
        ((ClientRGADocument.new siteId initialClock).applyOperations before) :=
      inStep_applyOperations (fun p hp => hshared p (by simp [hp]))
        (fun p hp => hroot p (by simp [hp])) hnone
    refine hin.not_agree_format (hroot (.format op) (by simp)) hshows ?_
    have hstep := hagree (before ++ [.format op]) ⟨after, by simp⟩
    rwa [RGADocument.applyOperations_concat, ClientRGADocument.applyOperations_concat] at hstep
  · rintro hformat before ⟨after, rfl⟩
    refine (inStep_applyOperations (fun p hp => hshared p (by simp [hp]))
      (fun p hp => hroot p (by simp [hp])) fun hvisible => hformat ?_).agree
    obtain ⟨b, op, a, rfl, hshows⟩ := hvisible
    exact ⟨b, op, a ++ after, by simp, hshows⟩

/-- A FORMAT of a node that was deleted before it. -/
theorem agree_iff_formatted_late :
    (∀ before, before <+: [.insert ⟨⟨1, [5]⟩, none, .string [97]⟩, .delete ⟨⟨1, [5]⟩⟩,
        .format ⟨⟨1, [5]⟩, [([98], [49])]⟩] → Agree (RGADocument.empty.applyOperations before)
        ((ClientRGADocument.new [6] 0).applyOperations before)) ↔
      ¬ FormatsVisible [.insert ⟨⟨1, [5]⟩, none, .string [97]⟩, .delete ⟨⟨1, [5]⟩⟩,
        .format ⟨⟨1, [5]⟩, [([98], [49])]⟩] :=
  agree_iff [6] 0 (by decide) (by decide)

/-- The server formats a character that the client deletes. -/
theorem format_deletes_on_client :
    ¬ ∀ (siteId : JSString) (ops : List RGAOperation), (∀ op ∈ ops, op.IsShared) →
      (∀ op ∈ ops, op.uid ≠ rootUID) → ∀ before, before <+: ops →
        Agree (RGADocument.empty.applyOperations before)
          ((ClientRGADocument.new siteId 0).applyOperations before) := by
  intro h
  have hagree := h [6] [.insert ⟨⟨1, [5]⟩, none, .string [97]⟩,
    .format ⟨⟨1, [5]⟩, [([98], [49])]⟩] (by decide) (by decide) _ List.prefix_rfl
  exact absurd hagree (by decide)

end SyncEngine
