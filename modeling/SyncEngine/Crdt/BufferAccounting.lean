import SyncEngine.Crdt.RetryLoop

/-!
# What becomes of a delivered envelope

An `OperationLog` loses nothing silently.  Envelopes come in any order, any number of times, and
the buffer may overflow; after every call each envelope that was ever passed has been applied,
waits in the buffer, or was given up by an overflow that asked for a reload.

What has been applied has taken effect, and keeps it: no operation brings a tombstone back or
takes a node or an attribute away (`Evolves`), so the effect of an envelope outlasts whatever is
applied after it (`TookEffect`).

* **`accounts_run`**: the account after any sequence of calls, with the bound on the buffer and
  the fact that nothing applicable is left in it.
-/

namespace SyncEngine

open ReplicatedList

/-! ## Effects -/

/-- The names of attributes. -/
def Attributes.keys (a : Attributes) : List JSString := a.map Prod.fst

lemma Attributes.mem_keys_assign {a : Attributes} {k v k' : JSString} :
    k' ∈ (a.assign k v).keys ↔ k' = k ∨ k' ∈ a.keys := by
  induction a with
  | nil => simp [assign, keys]
  | cons p a ih =>
      obtain ⟨l, w⟩ := p
      rw [assign]
      split
      · rename_i h
        simp [keys, h]
      · simp only [keys, List.map_cons, List.mem_cons] at ih ⊢
        rw [ih]
        tauto

lemma Attributes.mem_keys_spread {a b : Attributes} {k : JSString} :
    k ∈ (a.spread b).keys ↔ k ∈ a.keys ∨ k ∈ b.keys := by
  induction b generalizing a with
  | nil => simp [spread, keys]
  | cons p b ih =>
      have hspread : a.spread (p :: b) = (a.assign p.1 p.2).spread b := rfl
      rw [hspread, ih, mem_keys_assign]
      simp only [keys, List.map_cons, List.mem_cons]
      tauto

namespace RGADocument

/-- The operation has taken effect: the node is there, is a tombstone, has the attributes. -/
def TookEffect (d : RGADocument) : RGAOperation → Prop
  | .insert op => op.uid = rootUID ∨ ∃ n ∈ d.nodes, n.uid = op.uid
  | .delete op => op.uid = rootUID ∧ d.root.tombstoned = true ∨
      ∃ n ∈ d.nodes, n.uid = op.uid ∧ n.tombstoned = true
  | .format op => op.uid = rootUID ∧ op.attributes.keys ⊆ d.root.attributes.keys ∨
      ∃ n ∈ d.nodes, n.uid = op.uid ∧ op.attributes.keys ⊆ n.attributes.keys
  | .rollback _ => False

/-- What no operation undoes: nodes, tombstones and attributes stay. -/
structure Evolves (d d' : RGADocument) : Prop where
  root_tombstoned : d.root.tombstoned = true → d'.root.tombstoned = true
  root_keys : d.root.attributes.keys ⊆ d'.root.attributes.keys
  nodes : ∀ n ∈ d.nodes, ∃ n' ∈ d'.nodes, n'.uid = n.uid ∧
    (n.tombstoned = true → n'.tombstoned = true) ∧ n.attributes.keys ⊆ n'.attributes.keys

lemma Evolves.refl (d : RGADocument) : Evolves d d :=
  ⟨id, List.Subset.refl _, fun n hn => ⟨n, hn, rfl, id, List.Subset.refl _⟩⟩

/-- The node under a key changes in a way that keeps what is kept. -/
lemma evolves_updateNode {d : RGADocument} {key : JSString} {f : RGANode → RGANode}
    (hf : ∀ n, (f n).uid = n.uid ∧ (n.tombstoned = true → (f n).tombstoned = true) ∧
      n.attributes.keys ⊆ (f n).attributes.keys) (length : Int) :
    Evolves d { d.updateNode key f with length := length } := by
  refine ⟨id, List.Subset.refl _, fun n hn => ?_⟩
  refine ⟨if uidKey n.uid = key then f n else n, List.mem_map_of_mem hn, ?_⟩
  split
  · exact hf n
  · exact ⟨rfl, id, List.Subset.refl _⟩

/-- **No operation undoes what is kept.** -/
theorem evolves_applyOperation (d : RGADocument) (op : RGAOperation) :
    Evolves d (d.applyOperation op).1 := by
  cases op with
  | insert op =>
      by_cases hroot : op.uid = rootUID
      · have hhas : d.indexHas (uidKey op.uid) = true := indexHas_iff.mpr (Or.inl hroot)
        simp only [applyOperation, applyInsert, hhas, if_true]
        exact .refl d
      rcases applyOperation_insert_cases d hroot with
        ⟨-, heq⟩ | ⟨-, -, nodes, heq, hperm, -⟩ | ⟨-, -, heq⟩
      · rw [heq]
        exact .refl d
      · rw [heq]
        exact ⟨id, List.Subset.refl _, fun n hn =>
          ⟨n, hperm.mem_iff.mpr (List.mem_cons_of_mem _ hn), rfl, id, List.Subset.refl _⟩⟩
      · rw [heq]
        exact .refl d
  | delete op =>
      simp only [applyOperation, applyDelete]
      split
      · split
        · exact .refl d
        · exact ⟨fun _ => rfl, List.Subset.refl _,
            fun n hn => ⟨n, hn, rfl, id, List.Subset.refl _⟩⟩
      · split
        · exact .refl d
        · split
          · exact .refl d
          · refine evolves_updateNode (fun n => ?_) _
            exact ⟨rfl, fun _ => rfl, List.Subset.refl _⟩
  | format op =>
      have hspread : ∀ a : Attributes, a.keys ⊆ (a.spread op.attributes).keys :=
        fun a k hk => Attributes.mem_keys_spread.mpr (Or.inl hk)
      simp only [applyOperation, applyFormat]
      split
      · exact ⟨id, hspread _, fun n hn => ⟨n, hn, rfl, id, List.Subset.refl _⟩⟩
      · split
        · exact .refl d
        · refine evolves_updateNode (fun n => ?_) d.length
          exact ⟨rfl, id, hspread _⟩
  | rollback op => exact .refl d

lemma TookEffect.evolve {d d' : RGADocument} {op : RGAOperation} (h : d.TookEffect op)
    (hevolves : Evolves d d') : d'.TookEffect op := by
  cases op with
  | insert op =>
      rcases h with hroot | ⟨n, hn, hu⟩
      · exact Or.inl hroot
      · obtain ⟨n', hn', hu', -⟩ := hevolves.nodes n hn
        exact Or.inr ⟨n', hn', hu'.trans hu⟩
  | delete op =>
      rcases h with ⟨hroot, htomb⟩ | ⟨n, hn, hu, htomb⟩
      · exact Or.inl ⟨hroot, hevolves.root_tombstoned htomb⟩
      · obtain ⟨n', hn', hu', htomb', -⟩ := hevolves.nodes n hn
        exact Or.inr ⟨n', hn', hu'.trans hu, htomb' htomb⟩
  | format op =>
      rcases h with ⟨hroot, hkeys⟩ | ⟨n, hn, hu, hkeys⟩
      · exact Or.inl ⟨hroot, fun k hk => hevolves.root_keys (hkeys hk)⟩
      · obtain ⟨n', hn', hu', -, hkeys'⟩ := hevolves.nodes n hn
        exact Or.inr ⟨n', hn', hu'.trans hu, fun k hk => hkeys' (hkeys hk)⟩
  | rollback _ => exact absurd h id

/-- **An operation that was applied has taken effect.** -/
theorem tookEffect_applyOperation {d : RGADocument} {op : RGAOperation}
    (h : (d.applyOperation op).2 = true) : (d.applyOperation op).1.TookEffect op := by
  cases op with
  | insert op =>
      by_cases hroot : op.uid = rootUID
      · exact Or.inl hroot
      rcases applyOperation_insert_cases d hroot with
        ⟨hknown, heq⟩ | ⟨-, -, nodes, heq, hperm, -⟩ | ⟨-, -, heq⟩
      · rw [heq]
        rw [ids_cells] at hknown
        exact Or.inr (List.mem_map.mp hknown)
      · rw [heq]
        exact Or.inr ⟨_, hperm.mem_iff.mpr (List.mem_cons_self ..), rfl⟩
      · rw [heq] at h
        exact Bool.noConfusion h
  | delete op =>
      by_cases hroot : op.uid = rootUID
      · refine Or.inl ⟨hroot, ?_⟩
        simp only [applyOperation, applyDelete, hroot, if_true]
        split <;> simp_all
      rcases applyOperation_delete_cases d hroot with
        ⟨-, heq⟩ | ⟨n, hn, hnu, ⟨htomb, heq⟩ | ⟨-, heq⟩⟩
      · rw [heq] at h
        exact Bool.noConfusion h
      · rw [heq]
        exact Or.inr ⟨n, hn, hnu, htomb⟩
      · rw [heq]
        refine Or.inr ⟨{ n with tombstoned := true }, List.mem_map.mpr ⟨n, hn, ?_⟩, hnu, rfl⟩
        rw [if_pos (by rw [hnu])]
  | format op =>
      have hspread : ∀ a : Attributes, op.attributes.keys ⊆ (a.spread op.attributes).keys :=
        fun a k hk => Attributes.mem_keys_spread.mpr (Or.inr hk)
      simp only [applyOperation, applyFormat] at h ⊢
      split
      · rename_i hkey
        exact Or.inl ⟨by simpa using hkey, hspread _⟩
      · rename_i hkey
        rw [if_neg hkey] at h
        split
        · rename_i hnone
          simp [hnone] at h
        · rename_i n hsome
          obtain ⟨hn, hnu⟩ := Chain.indexGet_some hsome
          refine Or.inr ⟨{ n with attributes := n.attributes.spread op.attributes },
            List.mem_map.mpr ⟨n, hn, ?_⟩, hnu, hspread _⟩
          rw [if_pos (by rw [hnu])]
  | rollback op => exact absurd h (by simp [applyOperation])

lemma TookEffect.applyOperation {d : RGADocument} {op : RGAOperation} (h : d.TookEffect op) :
    (d.applyOperation op).2 = true := by
  cases op with
  | insert op =>
      have hhas : d.indexHas (uidKey op.uid) = true := by
        rw [indexHas_iff, ids_cells]
        exact h.imp id fun ⟨n, hn, hu⟩ => List.mem_map.mpr ⟨n, hn, hu⟩
      simp [RGADocument.applyOperation, applyInsert, hhas]
  | delete op =>
      by_cases hroot : op.uid = rootUID
      · simp only [RGADocument.applyOperation, applyDelete, hroot, if_true]
        split <;> rfl
      · refine (applyOperation_delete_snd hroot).mpr ?_
        obtain ⟨n, hn, hu, -⟩ := h.resolve_left fun hr => hroot hr.1
        rw [ids_cells]
        exact List.mem_map.mpr ⟨n, hn, hu⟩
  | format op =>
      simp only [RGADocument.applyOperation, applyFormat]
      split
      · rfl
      · rename_i hkey
        obtain ⟨n, hn, hu, -⟩ := h.resolve_left fun hr => hkey (congrArg uidKey hr.1)
        split
        · rename_i hnone
          refine absurd (List.mem_map.mpr ⟨n, hn, hu⟩) ?_
          rw [← ids_cells]
          exact indexGet_eq_none.mp hnone
        · rfl
  | rollback op => exact absurd h id

end RGADocument

/-! ## The account -/

namespace OperationLog

/-- Envelopes with positive seqs, each with a seq and a client key of its own. -/
structure Distinct (E : Set OperationEnvelope) : Prop where
  seq_pos : ∀ e ∈ E, 0 < e.seq
  seq_inj : ∀ e ∈ E, ∀ f ∈ E, e.seq = f.seq → e = f
  client_inj : ∀ e ∈ E, ∀ f ∈ E, e.sessionId = f.sessionId → e.clientSeq = f.clientSeq → e = f

/-- The envelopes applied so far, in the order of their application, on a document that was
`start` before, while `gaps` reloads were asked for. -/
structure Account (E : Set OperationEnvelope) (start : RGADocument) (gaps : Nat)
    (log : OperationLog) (doc : RGADocument) (applied : List OperationEnvelope) : Prop where
  subset : ∀ e ∈ applied, e ∈ E
  doc_eq : doc = start.applyOperations (applied.map OperationEnvelope.op)
  effect : ∀ e ∈ applied, doc.TookEffect e.op
  mem_seqs : ∀ n, n ∈ log.appliedSeqs ↔ ∃ e ∈ applied, e.seq = n
  mem_keys : ∀ k, k ∈ log.appliedClientKeys ↔ ∃ e ∈ applied, e.clientKey = k
  gaps_eq : log.causalGapExceeded = gaps

variable {E : Set OperationEnvelope} {start doc : RGADocument} {gaps : Nat} {log : OperationLog}
  {applied : List OperationEnvelope}

lemma Account.apply (h : Account E start gaps log doc applied) {e : OperationEnvelope}
    (hE : Distinct E) (he : e ∈ E) (happ : (doc.applyOperation e.op).2 = true) :
    Account E start gaps (log.recordApplied e) (doc.applyOperation e.op).1 (applied ++ [e]) where
  subset f hf := by
    rcases List.mem_append.mp hf with hf | hf
    · exact h.subset f hf
    · rwa [List.mem_singleton.mp hf]
  doc_eq := by
    rw [List.map_append, List.map_singleton, RGADocument.applyOperations_concat, ← h.doc_eq]
  effect f hf := by
    rcases List.mem_append.mp hf with hf | hf
    · exact (h.effect f hf).evolve (doc.evolves_applyOperation e.op)
    · rw [List.mem_singleton.mp hf]
      exact RGADocument.tookEffect_applyOperation happ
  mem_seqs := mem_appliedSeqs_recordApplied h.mem_seqs (hE.seq_pos e he)
  mem_keys := mem_appliedClientKeys_recordApplied h.mem_keys e
  gaps_eq := h.gaps_eq

lemma kept_account (hE : Distinct E) (start : RGADocument) (gaps : Nat) :
    Kept E (Account E start gaps) where
  apply _ _ _ _ h he happ := h.apply hE he happ
  buffer _ _ _ _ h := ⟨h.subset, h.doc_eq, h.effect, h.mem_seqs, h.mem_keys, h.gaps_eq⟩

lemma Account.hasApplied (h : Account E start gaps log doc applied) {e : OperationEnvelope}
    (he : e ∈ applied) : log.hasApplied e = true := by
  rw [OperationLog.hasApplied, decide_eq_true_eq]
  exact Or.inr ((h.mem_keys _).mpr ⟨e, he, rfl⟩)

/-- An envelope that answers `hasApplied` was applied itself, not one that shares a number. -/
lemma Account.mem_of_hasApplied (h : Account E start gaps log doc applied) (hE : Distinct E)
    {e : OperationEnvelope} (he : e ∈ E) (happlied : log.hasApplied e = true) : e ∈ applied := by
  rw [OperationLog.hasApplied, decide_eq_true_eq] at happlied
  rcases happlied with ⟨-, hseq⟩ | hkey
  · obtain ⟨f, hf, hfe⟩ := (h.mem_seqs _).mp hseq
    exact hE.seq_inj f (h.subset f hf) e he hfe ▸ hf
  · obtain ⟨f, hf, hfe⟩ := (h.mem_keys _).mp hkey
    obtain ⟨hsession, hclient⟩ := OperationEnvelope.clientKey_inj.mp hfe
    exact hE.client_inj f (h.subset f hf) e he hsession hclient ▸ hf

/-! ## Runs -/

/-- A run of calls: the log and its document, what was passed, and what each call that dropped
envelopes dropped. -/
structure BufferRun where
  log : OperationLog
  doc : RGADocument
  passed : List OperationEnvelope
  givenUp : List (List OperationEnvelope)

namespace BufferRun

/-- What is lost of some envelopes: those that neither count as applied nor wait. -/
def lost (log : OperationLog) (envelopes : List OperationEnvelope) : List OperationEnvelope :=
  envelopes.filter fun e => !(log.hasApplied e || decide (∃ p ∈ log.getPendingOps, p.envelope = e))

/-- One call.  What it drops is lost of the envelopes that waited and the one passed. -/
def call (s : BufferRun) (e : OperationEnvelope) : BufferRun :=
  let log := (s.log.applyOrBuffer e s.doc).1
  let dropped := lost log (s.log.buffer.map PendingOp.envelope ++ [e])
  { log := log
    doc := (s.log.applyOrBuffer e s.doc).2.1
    passed := s.passed ++ [e]
    givenUp := if dropped = [] then s.givenUp else s.givenUp ++ [dropped] }

/-- A new log on a document, and a sequence of calls. -/
def run (maxBufferSize : Nat) (start : RGADocument) (calls : List OperationEnvelope) : BufferRun :=
  calls.foldl call ⟨.new maxBufferSize, start, [], []⟩

/-- The invariant of a run, with the envelopes applied so far. -/
structure Booked (E : Set OperationEnvelope) (start : RGADocument) (maxBufferSize : Nat)
    (s : BufferRun) (applied : List OperationEnvelope) : Prop where
  account : Account E start s.givenUp.length s.log s.doc applied
  covered : ∀ e ∈ s.passed,
    e ∈ applied ∨ (∃ p ∈ s.log.buffer, p.envelope = e) ∨ ∃ lost ∈ s.givenUp, e ∈ lost
  buffer_mem : ∀ p ∈ s.log.buffer, p.envelope ∈ E
  stuck : ∀ p ∈ s.log.buffer, (s.doc.applyOperation p.envelope.op).2 = false
  full : ∀ dropped ∈ s.givenUp, dropped.length = max 1 maxBufferSize
  bounded : s.log.buffer.length < max 1 maxBufferSize
  size_eq : s.log.maxBufferSize = maxBufferSize

variable {E : Set OperationEnvelope} {start : RGADocument} {maxBufferSize : Nat} {s : BufferRun}
  {applied : List OperationEnvelope}

lemma booked_start : Booked E start maxBufferSize ⟨.new maxBufferSize, start, [], []⟩ [] where
  account := ⟨by simp, rfl, by simp, by simp [OperationLog.new], by simp [OperationLog.new], rfl⟩
  covered := by simp
  buffer_mem := by simp [OperationLog.new]
  stuck := by simp [OperationLog.new]
  full := by simp
  bounded := by simp [OperationLog.new]
  size_eq := rfl

lemma lost_eq_nil {log : OperationLog} {envelopes : List OperationEnvelope}
    (h : ∀ e ∈ envelopes, log.hasApplied e = true ∨ ∃ p ∈ log.buffer, p.envelope = e) :
    lost log envelopes = [] := by
  refine List.filter_eq_nil_iff.mpr fun e he => ?_
  rw [Bool.not_eq_true, Bool.not_eq_false', Bool.or_eq_true, decide_eq_true_eq]
  exact h e he

lemma lost_eq_self {log : OperationLog} {envelopes : List OperationEnvelope}
    (h : ∀ e ∈ envelopes, log.hasApplied e = false) (hbuffer : log.buffer = []) :
    lost log envelopes = envelopes := by
  refine List.filter_eq_self.mpr fun e he => ?_
  simp [h e he, getPendingOps, hbuffer]

lemma Booked.hasApplied_eq_false (h : Booked E start maxBufferSize s applied) (hE : Distinct E)
    {e : OperationEnvelope} (he : e ∈ E) (happ : (s.doc.applyOperation e.op).2 = false) :
    s.log.hasApplied e = false := by
  rw [← Bool.not_eq_true]
  intro happlied
  have heffect := h.account.effect e (h.account.mem_of_hasApplied hE he happlied)
  rw [heffect.applyOperation] at happ
  exact Bool.noConfusion happ

lemma Booked.call (h : Booked E start maxBufferSize s applied) (hE : Distinct E)
    {e : OperationEnvelope} (he : e ∈ E) :
    ∃ applied', Booked E start maxBufferSize (s.call e) applied' := by
  rcases s.log.applyOrBuffer_cases e s.doc with ⟨happlied, heq⟩ | ⟨happ, hroom, heq⟩ |
    ⟨happ, hfull, heq⟩ | ⟨happ, heq⟩
  · -- a repetition
    have hlost : lost s.log (s.log.buffer.map PendingOp.envelope ++ [e]) = [] := by
      refine lost_eq_nil fun f hf => ?_
      rcases List.mem_append.mp hf with hf | hf
      · exact Or.inr (List.mem_map.mp hf)
      · rw [List.mem_singleton.mp hf]
        exact Or.inl happlied
    have hcall : s.call e = { s with passed := s.passed ++ [e] } := by
      simp [BufferRun.call, heq, hlost]
    rw [hcall]
    refine ⟨applied, h.account, fun f hf => ?_, h.buffer_mem, h.stuck, h.full, h.bounded,
      h.size_eq⟩
    rcases List.mem_append.mp hf with hf | hf
    · exact h.covered f hf
    · rw [List.mem_singleton.mp hf]
      exact Or.inl (h.account.mem_of_hasApplied hE he happlied)
  · -- the envelope waits
    have hlost : lost { s.log with buffer := s.log.buffer ++ [⟨e, 1⟩] }
        (s.log.buffer.map PendingOp.envelope ++ [e]) = [] := by
      refine lost_eq_nil fun f hf => Or.inr ?_
      rcases List.mem_append.mp hf with hf | hf
      · obtain ⟨p, hp, hpf⟩ := List.mem_map.mp hf
        exact ⟨p, List.mem_append_left _ hp, hpf⟩
      · exact ⟨⟨e, 1⟩, by simp, (List.mem_singleton.mp hf).symm⟩
    have hcall : s.call e = { s with
        log := { s.log with buffer := s.log.buffer ++ [⟨e, 1⟩] }, passed := s.passed ++ [e] } := by
      simp [BufferRun.call, heq, hlost]
    rw [hcall]
    refine ⟨applied, (kept_account hE _ _).buffer _ _ _ _ h.account, fun f hf => ?_, fun p hp => ?_,
      fun p hp => ?_, h.full, ?_, h.size_eq⟩
    · rcases List.mem_append.mp hf with hf | hf
      · rcases h.covered f hf with hmem | ⟨p, hp, hpf⟩ | hlost
        · exact Or.inl hmem
        · exact Or.inr (Or.inl ⟨p, List.mem_append_left _ hp, hpf⟩)
        · exact Or.inr (Or.inr hlost)
      · rw [List.mem_singleton.mp hf]
        exact Or.inr (Or.inl ⟨⟨e, 1⟩, by simp, rfl⟩)
    · rcases List.mem_append.mp hp with hp | hp
      · exact h.buffer_mem p hp
      · rwa [List.mem_singleton.mp hp]
    · rcases List.mem_append.mp hp with hp | hp
      · exact h.stuck p hp
      · rwa [List.mem_singleton.mp hp]
    · have hsize := h.size_eq
      show (s.log.buffer ++ [(⟨e, 1⟩ : PendingOp)]).length < max 1 maxBufferSize
      rw [List.length_append, List.length_singleton]
      omega
  · -- the buffer overflows: neither the envelope nor what waited was applied before
    have hlost : lost { s.log with
        buffer := [], causalGapExceeded := s.log.causalGapExceeded + 1 }
          (s.log.buffer.map PendingOp.envelope ++ [e]) =
        s.log.buffer.map PendingOp.envelope ++ [e] := by
      refine lost_eq_self (fun f hf => ?_) rfl
      rcases List.mem_append.mp hf with hf | hf
      · obtain ⟨p, hp, rfl⟩ := List.mem_map.mp hf
        exact h.hasApplied_eq_false hE (h.buffer_mem p hp) (h.stuck p hp)
      · rw [List.mem_singleton.mp hf]
        exact h.hasApplied_eq_false hE he happ
    have hcall : s.call e = ⟨{ s.log with
        buffer := [], causalGapExceeded := s.log.causalGapExceeded + 1 }, s.doc, s.passed ++ [e],
          s.givenUp ++ [s.log.buffer.map PendingOp.envelope ++ [e]]⟩ := by
      simp [BufferRun.call, heq, hlost]
    rw [hcall]
    have haccount := h.account
    refine ⟨applied, ⟨haccount.subset, haccount.doc_eq, haccount.effect, haccount.mem_seqs,
      haccount.mem_keys, ?_⟩, fun f hf => ?_, by simp, by simp, fun dropped hdropped => ?_, by simp,
      h.size_eq⟩
    · simp [haccount.gaps_eq]
    · rcases List.mem_append.mp hf with hf | hf
      · rcases h.covered f hf with hmem | ⟨p, hp, hpf⟩ | ⟨dropped, hdropped, hmem⟩
        · exact Or.inl hmem
        · exact Or.inr (Or.inr ⟨_, List.mem_append_right _ (List.mem_singleton.mpr rfl),
            List.mem_append_left _ (List.mem_map.mpr ⟨p, hp, hpf⟩)⟩)
        · exact Or.inr (Or.inr ⟨dropped, List.mem_append_left _ hdropped, hmem⟩)
      · rw [List.mem_singleton.mp hf]
        exact Or.inr (Or.inr ⟨_, List.mem_append_right _ (List.mem_singleton.mpr rfl), by simp⟩)
    · rcases List.mem_append.mp hdropped with hdropped | hdropped
      · exact h.full dropped hdropped
      · -- the envelope took the last place
        have hsize := h.size_eq
        have hbounded := h.bounded
        rw [List.mem_singleton.mp hdropped, List.length_append, List.length_map,
          List.length_singleton]
        omega
  · -- the envelope is applied and the buffer retried
    have hrecorded := h.account.apply hE he happ
    -- `hflushed` says where each waiting envelope went: applied by the retries, or kept
    obtain ⟨more, hflushed, haccount⟩ :=
      (kept_account hE start s.givenUp.length).flushBuffer hrecorded h.buffer_mem
    have hlost : lost ((s.log.recordApplied e).flushBuffer (s.doc.applyOperation e.op).1).1
        (s.log.buffer.map PendingOp.envelope ++ [e]) = [] := by
      refine lost_eq_nil fun f hf => ?_
      rcases List.mem_append.mp hf with hf | hf
      · obtain ⟨p, hp, rfl⟩ := List.mem_map.mp hf
        exact (hflushed.covered p hp).imp
          (fun hmore => haccount.hasApplied (List.mem_append_right _ hmore)) id
      · rw [List.mem_singleton.mp hf]
        exact Or.inl (haccount.hasApplied (by simp))
    have hcall : s.call e = ⟨((s.log.recordApplied e).flushBuffer (s.doc.applyOperation e.op).1).1,
        ((s.log.recordApplied e).flushBuffer (s.doc.applyOperation e.op).1).2, s.passed ++ [e],
          s.givenUp⟩ := by
      simp [BufferRun.call, heq, hlost]
    rw [hcall]
    refine ⟨applied ++ [e] ++ more, haccount, fun f hf => ?_, fun p hp => ?_, hflushed.stuck,
      h.full, Nat.lt_of_le_of_lt hflushed.length_le h.bounded,
      hflushed.size_eq.trans h.size_eq⟩
    · rcases List.mem_append.mp hf with hf | hf
      · rcases h.covered f hf with hmem | ⟨p, hp, rfl⟩ | hlost
        · exact Or.inl (by simp [hmem])
        · rcases hflushed.covered p hp with hmore | hkept
          · exact Or.inl (List.mem_append_right _ hmore)
          · exact Or.inr (Or.inl hkept)
        · exact Or.inr (Or.inr hlost)
      · exact Or.inl (by simp [List.mem_singleton.mp hf])
    · obtain ⟨q, hq, hqp⟩ := hflushed.buffer_mem p hp
      exact hqp ▸ h.buffer_mem q hq

lemma booked_run (hE : Distinct E) (start : RGADocument) (maxBufferSize : Nat)
    {calls : List OperationEnvelope} (hcalls : ∀ e ∈ calls, e ∈ E) :
    ∃ applied, Booked E start maxBufferSize (run maxBufferSize start calls) applied := by
  induction calls using List.reverseRecOn with
  | nil => exact ⟨[], booked_start⟩
  | append_singleton calls e ih =>
      obtain ⟨applied, h⟩ := ih fun f hf => hcalls f (by simp [hf])
      have hrun : run maxBufferSize start (calls ++ [e]) =
          (run maxBufferSize start calls).call e := List.foldl_concat ..
      rw [hrun]
      exact h.call hE (hcalls e (by simp))

lemma passed_run (maxBufferSize : Nat) (start : RGADocument) (calls : List OperationEnvelope) :
    (run maxBufferSize start calls).passed = calls := by
  induction calls using List.reverseRecOn with
  | nil => rfl
  | append_singleton calls e ih =>
      have hrun : run maxBufferSize start (calls ++ [e]) =
          (run maxBufferSize start calls).call e := List.foldl_concat ..
      rw [hrun, BufferRun.call, ih]

/-- Every envelope passed is accounted for. -/
structure Accounts (calls : List OperationEnvelope) (maxBufferSize : Nat) (start : RGADocument)
    (s : BufferRun) : Prop where
  /-- The document is what the applied envelopes made of it. -/
  document : ∃ applied ⊆ calls,
    s.doc = start.applyOperations (applied.map OperationEnvelope.op) ∧
      ∀ e ∈ calls, s.log.hasApplied e = true → e ∈ applied
  /-- An envelope was applied and has taken effect, or it waits, or it was given up. -/
  accounted : ∀ e ∈ calls,
    (s.log.hasApplied e = true ∧ s.doc.TookEffect e.op) ∨
      (∃ p ∈ s.log.getPendingOps, p.envelope = e) ∨ ∃ dropped ∈ s.givenUp, e ∈ dropped
  /-- Envelopes were given up only when they filled the buffer. -/
  overflowed : ∀ dropped ∈ s.givenUp, dropped.length = max 1 maxBufferSize
  /-- Each time envelopes were given up, and only then, a reload was asked for. -/
  notified : s.log.causalGapExceeded = s.givenUp.length
  /-- Nothing that could be applied waits. -/
  stuck : ∀ p ∈ s.log.getPendingOps, (s.doc.applyOperation p.envelope.op).2 = false
  bounded : s.log.getPendingOps.length < max 1 maxBufferSize
  /-- The retry loop comes to an end, on any document. -/
  terminates : ∀ doc, flushLoop s.log.buffer.length s.log doc = some (s.log.flushBuffer doc)

/-- **The causal buffer accounts for every envelope**, after any sequence of calls. -/
theorem accounts_run (start : RGADocument) (maxBufferSize : Nat) {calls : List OperationEnvelope}
    (hcalls : Distinct {e | e ∈ calls}) :
    Accounts calls maxBufferSize start (run maxBufferSize start calls) := by
  obtain ⟨applied, h⟩ := booked_run hcalls start maxBufferSize fun _ he => he
  have hpassed := passed_run maxBufferSize start calls
  refine ⟨⟨applied, h.account.subset, h.account.doc_eq,
      fun e he => h.account.mem_of_hasApplied hcalls he⟩,
    fun e he => ?_, h.full, h.account.gaps_eq, h.stuck, h.bounded,
    fun doc => flushLoop_length le_rfl⟩
  rcases h.covered e (hpassed.symm ▸ he) with hmem | hrest
  · exact Or.inl ⟨h.account.hasApplied hmem, h.account.effect e hmem⟩
  · exact Or.inr hrest

/-- The INSERT of `b` behind `a`, and a FORMAT of `a`, wait for the INSERT of `a`. -/
def waiting : List OperationEnvelope :=
  let site := JSString.lit "s"
  let envelope (op : RGAOperation) (n : Nat) : OperationEnvelope :=
    ⟨JSString.lit "d", site, JSString.lit "u", op, n, n, JSString.lit "n"⟩
  [envelope (.insert ⟨⟨2, site⟩, some ⟨1, site⟩, .string (JSString.lit "b")⟩) 2,
    envelope (.format ⟨⟨1, site⟩, [(JSString.lit "bold", JSString.lit "true")]⟩) 3,
    envelope (.insert ⟨⟨1, site⟩, none, .string (JSString.lit "a")⟩) 1]

/-- Three envelopes out of order, with room for two to wait. -/
theorem accounts_run_waiting : Accounts waiting 3 .empty (run 3 .empty waiting) :=
  accounts_run .empty 3
    ⟨show ∀ e ∈ waiting, 0 < e.seq by decide,
      show ∀ e ∈ waiting, ∀ f ∈ waiting, e.seq = f.seq → e = f by decide,
      show ∀ e ∈ waiting, ∀ f ∈ waiting, e.sessionId = f.sessionId → e.clientSeq = f.clientSeq →
        e = f by decide⟩

end BufferRun

end OperationLog

end SyncEngine
