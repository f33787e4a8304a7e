import Mathlib.Data.Finset.Lattice.Fold
import Mathlib.Order.Lattice.Nat
import SyncEngine.Crdt.Convergence
import SyncEngine.Crdt.RetryLoop

/-!
# Causal buffering is order-independent

Whatever the order in which the envelopes of a finite set arrive, and however often each of them
does, an `OperationLog` with room for them ends with all of them applied, nothing pending, and
the document that applying them in a causal order builds (`deliver_eq_causal_order`).

`Recorded` ties the log to the envelopes applied so far, in the order of their application: the
document is what they build, and that order is causally valid.  One more successful application
keeps it (`Recorded.apply`), hence so does a pass over the buffer and the whole retry loop
(`Recorded.flushBuffer`).  The loop stops only when every buffered envelope is stuck, which
together with `Recorded` is the invariant of a run of deliveries (`Buffered`).  At the end
nothing can be stuck: in a causal order the first envelope that was not applied would have its
prerequisite in the document.

The set must *have* a causal order.  That every anchor and every target is inserted by some
member is not enough: an INSERT that names its own node as anchor stays pending for ever
(`not_forall_deliver_causally_closed`).
-/

namespace SyncEngine

open ReplicatedList CausalReplay RGADocument

/-- Envelopes with pairwise distinct positive seqs and pairwise distinct client keys, whose
operations are INSERTs and DELETEs with distinct inserted UIDs. -/
structure EnvelopeSet (E : Finset OperationEnvelope) : Prop where
  seq_pos : ∀ e ∈ E, 0 < e.seq
  seq_inj : ∀ e ∈ E, ∀ f ∈ E, e.seq = f.seq → e = f
  client_inj : ∀ e ∈ E, ∀ f ∈ E, e.sessionId = f.sessionId → e.clientSeq = f.clientSeq → e = f
  isEdit : ∀ e ∈ E, e.op.IsEdit
  inserted_inj : ∀ e ∈ E, ∀ f ∈ E, e.op.inserted ≠ none → e.op.inserted = f.op.inserted → e = f
  inserted_ne_root : ∀ e ∈ E, e.op.inserted ≠ some rootUID

/-- Every anchor and every target is inserted by some member. -/
def CausallyClosed (E : Finset OperationEnvelope) : Prop :=
  ∀ e ∈ E, ∀ d ∈ e.op.needs, ∃ f ∈ E, d ∈ f.op.gives

/-- A listing of the envelopes in which nothing comes before its prerequisite. -/
structure CausalOrder (E : Finset OperationEnvelope) (order : List OperationEnvelope) : Prop where
  mem_iff : ∀ e, e ∈ order ↔ e ∈ E
  valid : CausallyValid (order.map OperationEnvelope.op)

namespace EnvelopeSet

variable {E : Finset OperationEnvelope}

/-- The operations of the envelopes. -/
lemma editSet (hE : EnvelopeSet E) : EditSet {op | ∃ e ∈ E, e.op = op} := by
  refine EditSet.of_inserted ?_ ?_ ?_
  · rintro op ⟨e, he, rfl⟩
    exact hE.isEdit e he
  · rintro op ⟨e, he, rfl⟩ op' ⟨f, hf, rfl⟩ hne heq
    rw [hE.inserted_inj e he f hf hne heq]
  · rintro op ⟨e, he, rfl⟩
    exact hE.inserted_ne_root e he

lemma mem_ops {l : List OperationEnvelope} (hl : ∀ e ∈ l, e ∈ E) :
    ∀ op ∈ l.map OperationEnvelope.op, op ∈ {op | ∃ e ∈ E, e.op = op} := by
  intro op hop
  obtain ⟨e, he, rfl⟩ := List.mem_map.mp hop
  exact ⟨e, hl e he, rfl⟩

lemma needs_ne_root (hE : EnvelopeSet E) (hclosed : CausallyClosed E) {e : OperationEnvelope}
    (he : e ∈ E) : ∀ d ∈ e.op.needs, d ≠ rootUID := by
  intro d hd
  obtain ⟨f, hf, hgives⟩ := hclosed e he d hd
  exact hE.editSet.gives_ne_root ⟨f, hf, rfl⟩ hgives

lemma uid_ne_root (hE : EnvelopeSet E) (hclosed : CausallyClosed E) {e : OperationEnvelope}
    (he : e ∈ E) : e.op.uid ≠ rootUID := by
  have hedit := hE.isEdit e he
  cases hop : e.op with
  | insert i => exact hE.editSet.uid_ne_root i ⟨e, he, hop⟩
  | delete del =>
      refine hE.needs_ne_root hclosed he del.uid ?_
      rw [hop]
      rfl
  | format f => simp [hop, RGAOperation.IsEdit] at hedit
  | rollback r => simp [hop, RGAOperation.IsEdit] at hedit

end EnvelopeSet

lemma CausalOrder.closed {E : Finset OperationEnvelope} {order : List OperationEnvelope}
    (h : CausalOrder E order) : CausallyClosed E := by
  intro e he d hd
  obtain ⟨op, hop, hgives⟩ :=
    h.valid.given (List.mem_map_of_mem ((h.mem_iff e).mpr he)) hd
  obtain ⟨f, hf, rfl⟩ := List.mem_map.mp hop
  exact ⟨f, (h.mem_iff f).mp hf, hgives⟩

namespace OperationLog

variable {E : Finset OperationEnvelope} {log : OperationLog} {doc : RGADocument}
  {applied : List OperationEnvelope}

/-! ## What has been applied -/

/-- The log and the document after the envelopes `applied`, in this order. -/
structure Recorded (E : Finset OperationEnvelope) (log : OperationLog) (doc : RGADocument)
    (applied : List OperationEnvelope) : Prop where
  subset : ∀ e ∈ applied, e ∈ E
  valid : CausallyValid (applied.map OperationEnvelope.op)
  doc_eq : doc = empty.applyOperations (applied.map OperationEnvelope.op)
  mem_seqs : ∀ n, n ∈ log.appliedSeqs ↔ ∃ e ∈ applied, e.seq = n
  mem_keys : ∀ k, k ∈ log.appliedClientKeys ↔ ∃ e ∈ applied, e.clientKey = k
  maxSeq_eq : log.maxAppliedSeq = applied.toFinset.sup OperationEnvelope.seq

/-- The buffer and the counters play no part in it. -/
lemma Recorded.congr {log' : OperationLog} (h : Recorded E log doc applied)
    (hseqs : log'.appliedSeqs = log.appliedSeqs)
    (hkeys : log'.appliedClientKeys = log.appliedClientKeys)
    (hmax : log'.maxAppliedSeq = log.maxAppliedSeq) : Recorded E log' doc applied where
  subset := h.subset
  valid := h.valid
  doc_eq := h.doc_eq
  mem_seqs := hseqs ▸ h.mem_seqs
  mem_keys := hkeys ▸ h.mem_keys
  maxSeq_eq := hmax ▸ h.maxSeq_eq

lemma recorded_new (n : Nat) : Recorded E (new n) empty [] where
  subset := by simp
  valid := causal_nil
  doc_eq := rfl
  mem_seqs := by simp [new]
  mem_keys := by simp [new]
  maxSeq_eq := rfl

/-- An envelope can be applied exactly when it keeps the order of application causally valid. -/
lemma Recorded.applied_iff (hE : EnvelopeSet E) (hclosed : CausallyClosed E)
    (h : Recorded E log doc applied) {e : OperationEnvelope} (he : e ∈ E) :
    (doc.applyOperation e.op).2 = true ↔
      CausallyValid ((applied ++ [e]).map OperationEnvelope.op) := by
  rw [h.doc_eq, List.map_append]
  exact applyOperation_iff_causal hE.editSet (EnvelopeSet.mem_ops h.subset) ⟨e, he, rfl⟩ h.valid
    (hE.uid_ne_root hclosed he) (hE.needs_ne_root hclosed he)

/-- An envelope whose prerequisite is among the applied ones is not stuck. -/
lemma Recorded.applied_of_given (hE : EnvelopeSet E) (hclosed : CausallyClosed E)
    (h : Recorded E log doc applied) {e : OperationEnvelope} (he : e ∈ E)
    (hgiven : e ∈ applied ∨ ∀ d ∈ e.op.needs, ∃ f ∈ applied, d ∈ f.op.gives) :
    (doc.applyOperation e.op).2 = true := by
  refine (h.applied_iff hE hclosed he).mpr ?_
  rw [List.map_append]
  refine causal_concat.mpr ⟨h.valid, ?_⟩
  rcases hgiven with hmem | hgiven
  · exact Or.inl (List.mem_map_of_mem hmem)
  · refine Or.inr fun d hd => ?_
    obtain ⟨f, hf, hgives⟩ := hgiven d hd
    exact ⟨f.op, List.mem_map_of_mem hf, hgives⟩

/-- One more successful application. -/
lemma Recorded.apply (hE : EnvelopeSet E) (hclosed : CausallyClosed E)
    (h : Recorded E log doc applied) {e : OperationEnvelope} (he : e ∈ E)
    (happ : (doc.applyOperation e.op).2 = true) :
    Recorded E (log.recordApplied e) (doc.applyOperation e.op).1 (applied ++ [e]) where
  subset f hf := by
    rcases List.mem_append.mp hf with hf | hf
    · exact h.subset f hf
    · rwa [List.mem_singleton.mp hf]
  valid := (h.applied_iff hE hclosed he).mp happ
  doc_eq := by
    rw [List.map_append, List.map_singleton, applyOperations_concat, ← h.doc_eq]
  mem_seqs := mem_appliedSeqs_recordApplied h.mem_seqs (hE.seq_pos e he)
  mem_keys := mem_appliedClientKeys_recordApplied h.mem_keys e
  maxSeq_eq := by
    have hpos := hE.seq_pos e he
    have hsup : (applied ++ [e]).toFinset.sup OperationEnvelope.seq =
        max (applied.toFinset.sup OperationEnvelope.seq) e.seq := by
      rw [List.toFinset_append, Finset.sup_union]
      simp
    rw [hsup, ← h.maxSeq_eq]
    simp only [recordApplied, gt_iff_lt, hpos, true_and]
    split <;> omega

/-- Envelopes of a closed set are recorded by every successful application. -/
lemma kept_recorded (hE : EnvelopeSet E) (hclosed : CausallyClosed E) :
    Kept {e | e ∈ E} (Recorded E) where
  apply _ _ _ _ h he happ := h.apply hE hclosed he happ
  buffer _ _ _ _ h := h.congr rfl rfl rfl

/-! ## Deliveries -/

/-- The invariant of a run of deliveries: every delivered envelope was applied or waits in the
buffer, and what waits is stuck. -/
structure Buffered (E : Finset OperationEnvelope) (size : Nat) (log : OperationLog)
    (doc : RGADocument) (delivered applied : List OperationEnvelope) : Prop where
  recorded : Recorded E log doc applied
  covered : ∀ e ∈ delivered, e ∈ applied ∨ ∃ p ∈ log.buffer, p.envelope = e
  buffer_mem : ∀ p ∈ log.buffer, p.envelope ∈ E
  stuck : ∀ p ∈ log.buffer, (doc.applyOperation p.envelope.op).2 = false
  length_le : log.buffer.length ≤ delivered.length
  size_eq : log.maxBufferSize = size

/-- One delivery. -/
lemma Buffered.applyOrBuffer (hE : EnvelopeSet E) (hclosed : CausallyClosed E) {size : Nat}
    {delivered : List OperationEnvelope} (h : Buffered E size log doc delivered applied)
    {e : OperationEnvelope} (he : e ∈ E) (hroom : delivered.length + 1 < size) :
    ∃ applied', Buffered E size (log.applyOrBuffer e doc).1 (log.applyOrBuffer e doc).2.1
      (delivered ++ [e]) applied' := by
  have hrepeat : e ∈ applied → Buffered E size log doc (delivered ++ [e]) applied := by
    intro hmem
    refine ⟨h.recorded, fun f hf => ?_, h.buffer_mem, h.stuck, ?_, h.size_eq⟩
    · rcases List.mem_append.mp hf with hf | hf
      · exact h.covered f hf
      · rw [List.mem_singleton.mp hf]
        exact Or.inl hmem
    · exact h.length_le.trans (by simp)
  rcases log.applyOrBuffer_cases e doc with ⟨happlied, heq⟩ | ⟨happ, -, heq⟩ | ⟨-, hfull, -⟩ |
    ⟨happ, heq⟩
  · rw [heq]
    rw [hasApplied, decide_eq_true_eq] at happlied
    -- either key of the duplicate check names one envelope of the set
    rcases happlied with ⟨-, hseq⟩ | hkey
    · obtain ⟨f, hf, hfe⟩ := (h.recorded.mem_seqs e.seq).mp hseq
      exact ⟨applied, hrepeat (hE.seq_inj f (h.recorded.subset f hf) e he hfe ▸ hf)⟩
    · obtain ⟨f, hf, hfe⟩ := (h.recorded.mem_keys e.clientKey).mp hkey
      obtain ⟨hsession, hclient⟩ := OperationEnvelope.clientKey_inj.mp hfe
      exact ⟨applied, hrepeat
        (hE.client_inj f (h.recorded.subset f hf) e he hsession hclient ▸ hf)⟩
  · -- the envelope is buffered
    rw [heq]
    refine ⟨applied, h.recorded.congr rfl rfl rfl, ?_, ?_, ?_, ?_, h.size_eq⟩
    · intro f hf
      rcases List.mem_append.mp hf with hf | hf
      · rcases h.covered f hf with hmem | ⟨p, hp, heq⟩
        · exact Or.inl hmem
        · exact Or.inr ⟨p, List.mem_append_left _ hp, heq⟩
      · rw [List.mem_singleton.mp hf]
        exact Or.inr ⟨⟨e, 1⟩, by simp, rfl⟩
    · intro p hp
      rcases List.mem_append.mp hp with hp | hp
      · exact h.buffer_mem p hp
      · rwa [List.mem_singleton.mp hp]
    · intro p hp
      rcases List.mem_append.mp hp with hp | hp
      · exact h.stuck p hp
      · rwa [List.mem_singleton.mp hp]
    · simpa using h.length_le
  · -- the buffer does not overflow
    have hle := h.length_le
    have hsize := h.size_eq
    omega
  · rw [heq]
    have hrec := h.recorded.apply hE hclosed he happ
    obtain ⟨more, hflushed, hrec'⟩ := (kept_recorded hE hclosed).flushBuffer hrec h.buffer_mem
    refine ⟨applied ++ [e] ++ more, hrec', ?_, ?_, hflushed.stuck, ?_, ?_⟩
    · intro f hf
      rcases List.mem_append.mp hf with hf | hf
      · rcases h.covered f hf with hmem | ⟨p, hp, rfl⟩
        · exact Or.inl (by simp [hmem])
        · rcases hflushed.covered p hp with hmore | hkept
          · exact Or.inl (List.mem_append_right _ hmore)
          · exact Or.inr hkept
      · exact Or.inl (by simp [List.mem_singleton.mp hf])
    · intro p hp
      obtain ⟨q, hq, heq⟩ := hflushed.buffer_mem p hp
      exact heq ▸ h.buffer_mem q hq
    · exact hflushed.length_le.trans (h.length_le.trans (by simp))
    · exact hflushed.size_eq.trans h.size_eq

/-- A run of deliveries. -/
lemma buffered_deliver (hE : EnvelopeSet E) (hclosed : CausallyClosed E) {size : Nat}
    {deliveries : List OperationEnvelope} (hmem : ∀ e ∈ deliveries, e ∈ E)
    (hroom : deliveries.length < size) :
    ∃ applied, Buffered E size ((new size).deliver empty deliveries).1
      ((new size).deliver empty deliveries).2 deliveries applied := by
  induction deliveries using List.reverseRecOn with
  | nil =>
      exact ⟨[], recorded_new size, by simp, by simp [deliver, new], by simp [deliver, new],
        by simp [deliver, new], rfl⟩
  | append_singleton deliveries e ih =>
      rw [List.length_append, List.length_singleton] at hroom
      obtain ⟨applied, h⟩ := ih (fun f hf => hmem f (by simp [hf])) (by omega)
      have hone := h.applyOrBuffer hE hclosed (hmem e (by simp)) hroom
      simpa only [deliver, List.foldl_append, List.foldl_cons, List.foldl_nil] using hone

/-- Once every envelope has been delivered, all of them have been applied. -/
lemma Buffered.all_applied (hE : EnvelopeSet E) {order : List OperationEnvelope}
    (horder : CausalOrder E order) {size : Nat} {delivered : List OperationEnvelope}
    (h : Buffered E size log doc delivered applied) (hall : ∀ e ∈ E, e ∈ delivered) :
    ∀ e ∈ E, e ∈ applied := by
  have key : ∀ l m : List OperationEnvelope, order = l ++ m → ∀ e ∈ l, e ∈ applied := by
    intro l
    induction l using List.reverseRecOn with
    | nil => simp
    | append_singleton l e ih =>
        intro m hsplit f hf
        have hbefore := ih (e :: m) (by rw [hsplit]; simp)
        rcases List.mem_append.mp hf with hf | hf
        · exact hbefore f hf
        · obtain rfl := List.mem_singleton.mp hf
          have hfE : f ∈ E := (horder.mem_iff f).mp (by rw [hsplit]; simp)
          rcases h.covered f (hall f hfE) with hmem | ⟨p, hp, rfl⟩
          · exact hmem
          · -- a buffered envelope is stuck, although everything before it was applied
            have hv := horder.valid
            rw [hsplit, List.map_append, List.map_append] at hv
            obtain ⟨-, hnew⟩ := causal_concat.mp hv.of_append
            refine absurd (h.recorded.applied_of_given hE horder.closed hfE (Or.inr ?_))
              (by rw [h.stuck p hp]; simp)
            intro d hd
            have hgiven : ∃ g ∈ l.map OperationEnvelope.op, d ∈ g.gives := by
              rcases hnew with hmem | hgiven
              · exact hv.of_append.of_append.given hmem hd
              · exact hgiven d hd
            obtain ⟨op, hop, hgives⟩ := hgiven
            obtain ⟨g, hg, rfl⟩ := List.mem_map.mp hop
            exact ⟨g, hbefore g hg, hgives⟩
  intro e he
  exact key order [] (by simp) e ((horder.mem_iff e).mpr he)

/-- **Causal buffering is order-independent.**  When every envelope of a set that has a causal
order is delivered at least once, in any order, and there are fewer deliveries than the buffer
has places, nothing is left pending, every envelope counts as applied, the maximal seq is known,
and the document is the one the causal order builds. -/
theorem deliver_eq_causal_order (hE : EnvelopeSet E) {order : List OperationEnvelope}
    (horder : CausalOrder E order) {maxBufferSize : Nat} {deliveries : List OperationEnvelope}
    (hmem : ∀ e, e ∈ deliveries ↔ e ∈ E) (hroom : deliveries.length < maxBufferSize) :
    let result := (new maxBufferSize).deliver empty deliveries
    result.1.getPendingOps = [] ∧
      (∀ e ∈ E, result.1.hasApplied e = true) ∧
      result.1.getMaxAppliedSeq = E.sup OperationEnvelope.seq ∧
      result.2.nodes = (empty.applyOperations (order.map OperationEnvelope.op)).nodes := by
  intro result
  obtain ⟨applied, h⟩ :=
    buffered_deliver hE horder.closed (fun e he => (hmem e).mp he) hroom
  have hall := h.all_applied hE horder fun e he => (hmem e).mpr he
  have hiff : ∀ e, e ∈ applied ↔ e ∈ order := fun e =>
    ⟨fun he => (horder.mem_iff e).mpr (h.recorded.subset e he),
      fun he => hall e ((horder.mem_iff e).mp he)⟩
  refine ⟨?_, fun e he => ?_, ?_, ?_⟩
  · refine List.eq_nil_iff_forall_not_mem.mpr fun p hp => ?_
    have happ := h.recorded.applied_of_given hE horder.closed (h.buffer_mem p hp)
      (Or.inl (hall _ (h.buffer_mem p hp)))
    rw [h.stuck p hp] at happ
    exact absurd happ (by simp)
  · have hseq := (h.recorded.mem_seqs e.seq).mpr ⟨e, hall e he, rfl⟩
    simp only [hasApplied, decide_eq_true_eq]
    exact Or.inl ⟨hE.seq_pos e he, hseq⟩
  · rw [getMaxAppliedSeq, h.recorded.maxSeq_eq]
    congr 1
    ext e
    rw [List.mem_toFinset, hiff, horder.mem_iff]
  · rw [h.recorded.doc_eq]
    refine congrArg RGADocument.nodes
      (applyOperations_eq hE.editSet (EnvelopeSet.mem_ops h.recorded.subset) ?_ h.recorded.valid
        horder.valid)
    intro op
    simp only [List.mem_map, hiff]

/-- The second of two characters and its deletion arrive before the first character does, and
one of them twice. -/
theorem deliver_eq_causal_order_reversed :
    let a : UID := ⟨1, JSString.lit "a"⟩
    let b : UID := ⟨2, JSString.lit "a"⟩
    let envelope (op : RGAOperation) (seq : Nat) : OperationEnvelope :=
      ⟨JSString.lit "d", JSString.lit "s", JSString.lit "u", op, seq, seq, JSString.ofNat seq⟩
    let ea := envelope (.insert ⟨a, none, .string (JSString.lit "x")⟩) 1
    let eb := envelope (.insert ⟨b, some a, .string (JSString.lit "y")⟩) 2
    let ec := envelope (.delete ⟨b⟩) 3
    let result := (new 100).deliver empty [ec, eb, eb, ea]
    result.1.getPendingOps = [] ∧
      (∀ e ∈ [ea, eb, ec].toFinset, result.1.hasApplied e = true) ∧
      result.1.getMaxAppliedSeq = [ea, eb, ec].toFinset.sup OperationEnvelope.seq ∧
      result.2.nodes =
        (empty.applyOperations ([ea, eb, ec].map OperationEnvelope.op)).nodes := by
  intro a b envelope ea eb ec
  have hE : EnvelopeSet [ea, eb, ec].toFinset :=
    ⟨by decide, by decide, by decide, by decide, by decide, by decide⟩
  have horder : CausalOrder [ea, eb, ec].toFinset [ea, eb, ec] :=
    ⟨fun e => List.mem_toFinset.symm, by decide⟩
  refine deliver_eq_causal_order hE horder (fun e => ?_) (by decide)
  rw [List.mem_toFinset]
  exact ⟨fun h => (by decide : [ec, eb, eb, ea] ⊆ [ea, eb, ec]) h,
    fun h => (by decide : [ea, eb, ec] ⊆ [ec, eb, eb, ea]) h⟩

/-- Closure under causality alone is not enough: delivering the one INSERT that names its own
node as anchor leaves it pending. -/
theorem not_forall_deliver_causally_closed :
    ¬ ∀ (E : Finset OperationEnvelope) (maxBufferSize : Nat)
        (deliveries : List OperationEnvelope),
      EnvelopeSet E → CausallyClosed E → (∀ e, e ∈ deliveries ↔ e ∈ E) →
      deliveries.length < maxBufferSize →
      ((new maxBufferSize).deliver empty deliveries).1.getPendingOps = [] := by
  intro h
  let a : UID := ⟨1, JSString.lit "a"⟩
  let e : OperationEnvelope := ⟨JSString.lit "d", JSString.lit "s", JSString.lit "u",
    .insert ⟨a, some a, .string (JSString.lit "x")⟩, 1, 1, JSString.lit "n"⟩
  have hpending := h {e} 100 [e]
    ⟨by decide, by decide, by decide, by decide, by decide, by decide⟩ ?_ (by simp) (by decide)
  · exact absurd hpending (by decide)
  · intro f hf d hd
    obtain rfl := Finset.mem_singleton.mp hf
    exact ⟨e, Finset.mem_singleton_self e, hd⟩

end OperationLog

end SyncEngine
