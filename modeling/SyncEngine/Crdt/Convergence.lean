import Mathlib.Data.Finset.Dedup
import SyncEngine.Crdt.Cells

/-!
# Convergence of replicas

Two replicas that apply the same INSERTs and DELETEs, each in some causally valid order and any
number of times, end in the same state: `applyOperations_eq` says so of whole documents,
`applyOperations_converge` of what a user can observe of them.  Nothing is assumed about how the
clock of a node relates to that of its anchor.

The argument is that of the replicated list: the documents are well formed and unformatted, so
their cells determine them, and the cells are causal replays of the same edits.

The second half says what a causally valid sequence does on the way: it leaves exactly the nodes
it inserted (`mem_ids_applyOperations`), and the operations that succeed after it are exactly
those that keep it causally valid (`applyOperation_iff_causal`).
-/

namespace SyncEngine

open ReplicatedList CausalReplay

/-- INSERTs and DELETEs whose INSERTs carry pairwise distinct UIDs, none of them the
sentinel's. -/
structure EditSet (S : Set RGAOperation) : Prop where
  isEdit : ∀ op ∈ S, op.IsEdit
  insert_inj : ∀ i j : InsertOperation, .insert i ∈ S → .insert j ∈ S → i.uid = j.uid → i = j
  uid_ne_root : ∀ i : InsertOperation, .insert i ∈ S → i.uid ≠ rootUID

namespace EditSet

variable {S : Set RGAOperation}

/-- The same in terms of the inserted nodes, which can be decided for a given finite set. -/
lemma of_inserted (hedit : ∀ op ∈ S, op.IsEdit)
    (hinj : ∀ p ∈ S, ∀ q ∈ S, p.inserted ≠ none → p.inserted = q.inserted → p = q)
    (hroot : ∀ p ∈ S, p.inserted ≠ some rootUID) : EditSet S where
  isEdit := hedit
  insert_inj i j hi hj hij := by
    have h := hinj _ hi _ hj (by simp [RGAOperation.inserted])
      (by simp [RGAOperation.inserted, hij])
    exact RGAOperation.insert.inj h
  uid_ne_root i hi hu := hroot _ hi (congrArg some hu)

lemma gives_unique (hS : EditSet S) {p q : RGAOperation} (hp : p ∈ S) (hq : q ∈ S) {d : UID}
    (hdp : d ∈ p.gives) (hdq : d ∈ q.gives) : p = q := by
  cases p with
  | insert i =>
      cases q with
      | insert j =>
          have hi : i.uid = d := Option.some.inj hdp
          have hj : j.uid = d := Option.some.inj hdq
          rw [hS.insert_inj i j hp hq (hi.trans hj.symm)]
      | _ => exact absurd hdq (by simp [RGAOperation.gives, RGAOperation.inserted])
  | _ => exact absurd hdp (by simp [RGAOperation.gives, RGAOperation.inserted])

lemma gives_ne_root (hS : EditSet S) {p : RGAOperation} (hp : p ∈ S) {d : UID}
    (hd : d ∈ p.gives) : d ≠ rootUID := by
  cases p with
  | insert i =>
      obtain rfl : i.uid = d := Option.some.inj hd
      exact hS.uid_ne_root i hp
  | _ => exact absurd hd (by simp [RGAOperation.gives, RGAOperation.inserted])

/-- No two different edits of the set bring in the same node. -/
lemma uniqueGivers (hS : EditSet S) {ops : List RGAOperation} (hops : ∀ op ∈ ops, op ∈ S) :
    UniqueGivers Edit.gives (edits ops) := by
  intro e he e' he' d hd hd'
  obtain ⟨p, hp, hpe⟩ := mem_edits.mp he
  obtain ⟨q, hq, hqe⟩ := mem_edits.mp he'
  rw [RGAOperation.gives_of_edit hpe] at hd
  rw [RGAOperation.gives_of_edit hqe] at hd'
  have hpq := hS.gives_unique (hops p hp) (hops q hq) hd hd'
  rw [hpq] at hpe
  exact Option.some.inj (hpe.symm.trans hqe)

/-- In a causally valid sequence a DELETE names a node that was inserted, so nothing touches the
sentinel. -/
lemma op_uid_ne_root (hS : EditSet S) {ops : List RGAOperation} (hops : ∀ op ∈ ops, op ∈ S)
    (hvalid : CausallyValid ops) : ∀ op ∈ ops, op.uid ≠ rootUID := by
  intro op hop
  cases op with
  | insert i => exact hS.uid_ne_root i (hops _ hop)
  | delete del =>
      obtain ⟨p, hp, hgives⟩ := hvalid.given hop (d := del.uid) rfl
      exact hS.gives_ne_root (hops p hp) hgives
  | format f => exact absurd (hS.isEdit _ (hops _ hop)) id
  | rollback r => exact absurd (hS.isEdit _ (hops _ hop)) id

end EditSet

/-! ## Replicas and what they have applied -/

/-- The cells are what a causally valid sequence of INSERTs and DELETEs makes of nothing. -/
structure Replays (ops : List RGAOperation) (cells : List (Cell UID JsValue)) : Prop where
  isEdit : ∀ op ∈ ops, op.IsEdit
  causal : CausallyValid ops
  cells_eq : cells = replay (edits ops)

namespace Replays

variable {ops ops' : List RGAOperation} {cells cells' : List (Cell UID JsValue)}

lemma nil : Replays [] [] := ⟨by simp, causal_nil, rfl⟩

lemma mem_ids (h : Replays ops cells) {u : UID} : u ∈ ids cells ↔ ∃ op ∈ ops, u ∈ op.gives := by
  rw [h.cells_eq, mem_ids_replay (h.causal.edits h.isEdit), exists_edits_gives h.isEdit]

lemma apply (h : Replays ops cells) {op : RGAOperation} {e : Edit UID JsValue}
    (he : op.edit? = some e) (hneeds : ∀ u ∈ op.needs, u ∈ ids cells) :
    Replays (ops ++ [op]) (e.step cells) where
  isEdit p hp := by
    rcases List.mem_append.mp hp with hp | hp
    · exact h.isEdit p hp
    · rw [List.mem_singleton.mp hp]
      cases op with
      | format _ => simp [RGAOperation.edit?] at he
      | rollback _ => simp [RGAOperation.edit?] at he
      | _ => trivial
  causal := causal_concat_iff.mpr ⟨h.causal, fun u hu => h.mem_ids.mp (hneeds u hu)⟩
  cells_eq := by
    have hsingle : edits [op] = [e] := by simp [edits, he]
    rw [h.cells_eq, edits_append, hsingle, replay, replay, List.foldl_append]
    rfl

/-- **Replicas that have applied the same operations** have the same cells. -/
theorem cells_unique (h : Replays ops cells) (h' : Replays ops' cells')
    (hmem : ∀ op, op ∈ ops ↔ op ∈ ops') (huniq : UniqueGivers RGAOperation.gives ops) :
    cells = cells' := by
  rw [h.cells_eq, h'.cells_eq]
  refine replay_eq (h.causal.edits h.isEdit) (h'.causal.edits h'.isEdit) (fun e => ?_) ?_
  · simp only [mem_edits, hmem]
  · intro e he e' he' u hu hu'
    obtain ⟨p, hp, hpe⟩ := mem_edits.mp he
    obtain ⟨q, hq, hqe⟩ := mem_edits.mp he'
    rw [RGAOperation.gives_of_edit hpe] at hu
    rw [RGAOperation.gives_of_edit hqe] at hu'
    rw [huniq p hp q hq u hu hu'] at hpe
    exact Option.some.inj (hpe.symm.trans hqe)

end Replays

namespace RGADocument

variable {S : Set RGAOperation}

/-! ## Convergence -/

/-- The cells after a causally valid sequence are a causal replay. -/
lemma cells_of_causal (hS : EditSet S) {ops : List RGAOperation} (hops : ∀ op ∈ ops, op ∈ S)
    (hvalid : CausallyValid ops) :
    (empty.applyOperations ops).cells = replay (edits ops) ∧
      Causal Edit.needs Edit.gives (edits ops) :=
  ⟨cells_empty_applyOperations (hS.op_uid_ne_root hops hvalid)
      fun op hop => hS.isEdit op (hops op hop),
    hvalid.edits fun op hop => hS.isEdit op (hops op hop)⟩

/-- Causally valid sequences of the same edits build the same document. -/
theorem applyOperations_eq (hS : EditSet S) {σ τ : List RGAOperation} (hσ : ∀ op ∈ σ, op ∈ S)
    (hmem : ∀ op, op ∈ σ ↔ op ∈ τ) (hσv : CausallyValid σ) (hτv : CausallyValid τ) :
    empty.applyOperations σ = empty.applyOperations τ := by
  have hτ : ∀ op ∈ τ, op ∈ S := fun op hop => hσ op ((hmem op).mpr hop)
  have hσroot := hS.op_uid_ne_root hσ hσv
  have hτroot := hS.op_uid_ne_root hτ hτv
  have hσedit : ∀ op ∈ σ, op.IsEdit := fun op hop => hS.isEdit op (hσ op hop)
  have hτedit : ∀ op ∈ τ, op.IsEdit := fun op hop => hS.isEdit op (hτ op hop)
  obtain ⟨hσcells, hσcausal⟩ := cells_of_causal hS hσ hσv
  obtain ⟨hτcells, hτcausal⟩ := cells_of_causal hS hτ hτv
  refine ext_of_cells (wellFormed_empty.applyOperations hσroot)
    (wellFormed_empty.applyOperations hτroot) (unformatted_empty.applyOperations hσroot hσedit)
    (unformatted_empty.applyOperations hτroot hτedit) ?_
  rw [hσcells, hτcells]
  refine replay_eq hσcausal hτcausal (fun e => ?_) (hS.uniqueGivers hσ)
  simp only [mem_edits, hmem]

/-- **RGA convergence.**  Two causally valid sequences over a finite set of INSERTs and DELETEs,
each with every operation at least once, end in the same state. -/
theorem applyOperations_converge {S : Finset RGAOperation} (hS : EditSet (S : Set RGAOperation))
    {σ τ : List RGAOperation} (hσ : ∀ op, op ∈ σ ↔ op ∈ S) (hτ : ∀ op, op ∈ τ ↔ op ∈ S)
    (hσv : CausallyValid σ) (hτv : CausallyValid τ) :
    (empty.applyOperations σ).nodes = (empty.applyOperations τ).nodes ∧
      (empty.applyOperations σ).toText = (empty.applyOperations τ).toText ∧
      (empty.applyOperations σ).length = (empty.applyOperations τ).length ∧
      (empty.applyOperations σ).nodeCount = (empty.applyOperations τ).nodeCount := by
  have heq : empty.applyOperations σ = empty.applyOperations τ :=
    applyOperations_eq hS (fun op hop => (hσ op).mp hop)
      (fun op => (hσ op).trans (hτ op).symm) hσv hτv
  rw [heq]
  exact ⟨rfl, rfl, rfl, rfl⟩

/-- Two sites write at the beginning, one of them behind its own character, and the other
deletes; the second replica hears of everything late and twice. -/
theorem applyOperations_converge_two_sites :
    let a : UID := ⟨1, JSString.lit "alice"⟩
    let b : UID := ⟨1, JSString.lit "bob"⟩
    let c : UID := ⟨1, JSString.lit "carol"⟩
    let ia := RGAOperation.insert ⟨a, none, .string (JSString.lit "x")⟩
    let ib := RGAOperation.insert ⟨b, none, .string (JSString.lit "y")⟩
    let ic := RGAOperation.insert ⟨c, some a, .string (JSString.lit "z")⟩
    let da := RGAOperation.delete ⟨a⟩
    (empty.applyOperations [ia, ib, ic, da]).nodes =
        (empty.applyOperations [ib, ia, da, ic, ib, da]).nodes ∧
      (empty.applyOperations [ia, ib, ic, da]).toText =
        (empty.applyOperations [ib, ia, da, ic, ib, da]).toText ∧
      (empty.applyOperations [ia, ib, ic, da]).length =
        (empty.applyOperations [ib, ia, da, ic, ib, da]).length ∧
      (empty.applyOperations [ia, ib, ic, da]).nodeCount =
        (empty.applyOperations [ib, ia, da, ic, ib, da]).nodeCount := by
  intro a b c ia ib ic da
  refine applyOperations_converge (S := [ia, ib, ic, da].toFinset) ?_ ?_ ?_ ?_ ?_
  · exact EditSet.of_inserted (by decide) (by decide) (by decide)
  · exact fun op => List.mem_toFinset.symm
  · intro op
    rw [List.mem_toFinset]
    exact ⟨fun h => (by decide : [ib, ia, da, ic, ib, da] ⊆ [ia, ib, ic, da]) h,
      fun h => (by decide : [ia, ib, ic, da] ⊆ [ib, ia, da, ic, ib, da]) h⟩
  · decide
  · decide

/-! ## On the way -/

/-- An operation whose prerequisite is in the document succeeds. -/
lemma applyOperation_of_needs {d : RGADocument} {op : RGAOperation} (hroot : op.uid ≠ rootUID)
    (hedit : op.IsEdit) (hneeds : ∀ u ∈ op.needs, u ∈ ids d.cells) :
    (d.applyOperation op).2 = true := by
  cases op with
  | insert i =>
      exact (applyOperation_insert_snd hroot).mpr
        (Or.inr fun a ha => hneeds a (anchor_eq_some.mp ha).1)
  | delete del => exact (applyOperation_delete_snd hroot).mpr (hneeds del.uid rfl)
  | format _ => exact absurd hedit id
  | rollback _ => exact absurd hedit id

/-- The document holds exactly the nodes that were inserted. -/
theorem mem_ids_applyOperations (hS : EditSet S) {ops : List RGAOperation}
    (hops : ∀ op ∈ ops, op ∈ S) (hvalid : CausallyValid ops) {u : UID} :
    u ∈ ids (empty.applyOperations ops).cells ↔ ∃ op ∈ ops, u ∈ op.gives := by
  obtain ⟨hcells, hcausal⟩ := cells_of_causal hS hops hvalid
  rw [hcells, mem_ids_replay hcausal,
    exists_edits_gives fun op hop => hS.isEdit op (hops op hop)]

/-- **An operation succeeds exactly where causality allows it**: after a causally valid sequence
the next operation can be applied if and only if the sequence stays causally valid with it. -/
theorem applyOperation_iff_causal (hS : EditSet S) {ops : List RGAOperation} {op : RGAOperation}
    (hops : ∀ p ∈ ops, p ∈ S) (hop : op ∈ S) (hvalid : CausallyValid ops)
    (hroot : op.uid ≠ rootUID) (hneeds : ∀ d ∈ op.needs, d ≠ rootUID) :
    ((empty.applyOperations ops).applyOperation op).2 = true ↔ CausallyValid (ops ++ [op]) := by
  rw [CausallyValid, causal_concat]
  constructor
  · intro happ
    refine ⟨hvalid, ?_⟩
    cases op with
    | insert i =>
        rcases (applyOperation_insert_snd hroot).mp happ with hknown | hafter
        · -- the node is there already: the same INSERT brought it in
          obtain ⟨p, hp, hgives⟩ := (mem_ids_applyOperations hS hops hvalid).mp hknown
          obtain rfl := hS.gives_unique (hops p hp) hop hgives rfl
          exact Or.inl hp
        · refine Or.inr fun d hd => (mem_ids_applyOperations hS hops hvalid).mp ?_
          exact hafter d (anchor_eq_some.mpr ⟨hd, hneeds d hd⟩)
    | delete del =>
        refine Or.inr fun d hd => (mem_ids_applyOperations hS hops hvalid).mp ?_
        obtain rfl : del.uid = d := Option.some.inj hd
        exact (applyOperation_delete_snd hroot).mp happ
    | format f => exact absurd (hS.isEdit _ hop) id
    | rollback r => exact absurd (hS.isEdit _ hop) id
  · rintro ⟨-, hnew⟩
    refine applyOperation_of_needs hroot (hS.isEdit op hop) fun u hu => ?_
    refine (mem_ids_applyOperations hS hops hvalid).mpr ?_
    rcases hnew with hmem | hgiven
    · exact hvalid.given hmem hu
    · exact hgiven u hu

end RGADocument

end SyncEngine
