import SyncEngine.Crdt.Cells
import SyncEngine.Crdt.OperationLog

/-!
# The retry loop of `OperationLog`

What one call of `applyOrBuffer` does (`applyOrBuffer_cases`), and what the loop does that retries
the buffer after a successful application.  A pass over the buffer applies some envelopes and keeps
the others (`Passed`); the loop ends with the first pass that applies none, so everything it leaves
in the buffer is stuck (`Flushed`).

The loop is the same for every account of what has been applied.  Such an account is a relation
between the log, the document and the list of applied envelopes that one more successful
application keeps (`Kept`); the loop then keeps it as well (`Kept.flushBuffer`).

`flushLoop` is the loop with a bound on its passes: it never needs more of them than there are
envelopes in the buffer (`flushLoop_length`).
-/

namespace SyncEngine

open RGADocument

namespace OperationLog

/-! ## One pass -/

/-- What a pass over `l` has done so far: `more` was applied, the rest is kept, and as long as
there was no progress everything kept is stuck. -/
structure Passed (pass : FlushPass) (l : List PendingOp) (result : FlushPass)
    (more : List OperationEnvelope) (kept : List PendingOp) : Prop where
  stillPending_eq : result.stillPending = pass.stillPending ++ kept
  kept_mem : ∀ p ∈ kept, ∃ q ∈ l, q.envelope = p.envelope
  covered : ∀ p ∈ l, p.envelope ∈ more ∨ ∃ q ∈ kept, q.envelope = p.envelope
  size_eq : result.log.maxBufferSize = pass.log.maxBufferSize
  idle : result.progress = false → result.doc = pass.doc ∧
    ∀ p ∈ kept, (pass.doc.applyOperation p.envelope.op).2 = false

lemma progress_foldl {pass : FlushPass} {l : List PendingOp} (h : pass.progress = true) :
    (l.foldl flushOne pass).progress = true := by
  induction l generalizing pass with
  | nil => exact h
  | cons p l ih =>
      refine ih ?_
      cases happ : (pass.doc.applyOperation p.envelope.op).2
      · rw [flushOne_of_stuck happ]
        exact h
      · rw [flushOne_of_applied happ]

/-- An account of the applied envelopes, for envelopes of `E`: successful applications keep it,
and the buffer plays no part in it. -/
structure Kept (E : Set OperationEnvelope)
    (P : OperationLog → RGADocument → List OperationEnvelope → Prop) : Prop where
  apply : ∀ log doc applied e, P log doc applied → e ∈ E → (doc.applyOperation e.op).2 = true →
    P (log.recordApplied e) (doc.applyOperation e.op).1 (applied ++ [e])
  buffer : ∀ log doc applied buffer, P log doc applied →
    P { log with buffer := buffer } doc applied

variable {E : Set OperationEnvelope} {log : OperationLog} {doc : RGADocument}
  {P : OperationLog → RGADocument → List OperationEnvelope → Prop}
  {applied : List OperationEnvelope}

/-- The seqs of the applied envelopes, one of which has just been recorded. -/
lemma mem_appliedSeqs_recordApplied (h : ∀ n, n ∈ log.appliedSeqs ↔ ∃ e ∈ applied, e.seq = n)
    {e : OperationEnvelope} (hpos : 0 < e.seq) (n : Nat) :
    n ∈ (log.recordApplied e).appliedSeqs ↔ ∃ f ∈ applied ++ [e], f.seq = n := by
  simp only [recordApplied, gt_iff_lt, hpos, if_true, Finset.mem_insert, h, List.mem_append,
    List.mem_singleton, or_and_right, exists_or, exists_eq_left]
  rw [or_comm, eq_comm]

/-- Their client keys. -/
lemma mem_appliedClientKeys_recordApplied
    (h : ∀ k, k ∈ log.appliedClientKeys ↔ ∃ e ∈ applied, e.clientKey = k)
    (e : OperationEnvelope) (k : JSString) :
    k ∈ (log.recordApplied e).appliedClientKeys ↔ ∃ f ∈ applied ++ [e], f.clientKey = k := by
  simp only [recordApplied, Finset.mem_insert, h, List.mem_append, List.mem_singleton,
    or_and_right, exists_or, exists_eq_left]
  rw [or_comm, eq_comm]

lemma Kept.foldl_flushOne (hP : Kept E P) {pass : FlushPass} (h : P pass.log pass.doc applied)
    {l : List PendingOp} (hl : ∀ p ∈ l, p.envelope ∈ E) :
    ∃ more kept, Passed pass l (l.foldl flushOne pass) more kept ∧
      P (l.foldl flushOne pass).log (l.foldl flushOne pass).doc (applied ++ more) := by
  -- on the envelopes the pass has still to look at; `applied` grows by those that come in
  induction l generalizing pass applied with
  | nil =>
      refine ⟨[], [], ⟨by simp, by simp, by simp, rfl, fun _ => ⟨rfl, by simp⟩⟩, ?_⟩
      rwa [List.append_nil]
  | cons p l ih =>
      have hp := hl p (List.mem_cons_self ..)
      have hl' : ∀ q ∈ l, q.envelope ∈ E := fun q hq => hl q (List.mem_cons_of_mem _ hq)
      rw [List.foldl_cons]
      cases happ : (pass.doc.applyOperation p.envelope.op).2
      · have hdoc := applyOperation_of_false happ
        have hone := flushOne_of_stuck happ
        rw [hdoc] at hone
        have hrec : P (flushOne pass p).log (flushOne pass p).doc applied := by
          rw [hone]
          exact h
        obtain ⟨more, kept, hpassed, hrec'⟩ := ih hrec hl'
        refine ⟨more, ⟨p.envelope, p.attempts + 1⟩ :: kept, ⟨?_, ?_, ?_, ?_, ?_⟩, hrec'⟩
        · rw [hpassed.stillPending_eq, hone]
          simp
        · intro q hq
          rcases List.mem_cons.mp hq with rfl | hq
          · exact ⟨p, List.mem_cons_self .., rfl⟩
          · obtain ⟨r, hr, heq⟩ := hpassed.kept_mem q hq
            exact ⟨r, List.mem_cons_of_mem _ hr, heq⟩
        · intro q hq
          rcases List.mem_cons.mp hq with rfl | hq
          · exact Or.inr ⟨_, List.mem_cons_self .., rfl⟩
          · rcases hpassed.covered q hq with hmore | ⟨r, hr, heq⟩
            · exact Or.inl hmore
            · exact Or.inr ⟨r, List.mem_cons_of_mem _ hr, heq⟩
        · rw [hpassed.size_eq, hone]
        · intro hidle
          obtain ⟨hdoc', hstuck⟩ := hpassed.idle hidle
          rw [hone] at hdoc' hstuck
          refine ⟨by rw [hone]; exact hdoc', fun q hq => ?_⟩
          rcases List.mem_cons.mp hq with rfl | hq
          · exact happ
          · exact hstuck q hq
      · have hone := flushOne_of_applied happ
        have hrec : P (flushOne pass p).log (flushOne pass p).doc (applied ++ [p.envelope]) := by
          rw [hone]
          exact hP.apply _ _ _ _ h hp happ
        obtain ⟨more, kept, hpassed, hrec'⟩ := ih hrec hl'
        refine ⟨p.envelope :: more, kept, ⟨?_, ?_, ?_, ?_, ?_⟩, by simpa using hrec'⟩
        · rw [hpassed.stillPending_eq, hone]
        · intro q hq
          obtain ⟨r, hr, heq⟩ := hpassed.kept_mem q hq
          exact ⟨r, List.mem_cons_of_mem _ hr, heq⟩
        · intro q hq
          rcases List.mem_cons.mp hq with rfl | hq
          · exact Or.inl (List.mem_cons_self ..)
          · rcases hpassed.covered q hq with hmore | hkept
            · exact Or.inl (List.mem_cons_of_mem _ hmore)
            · exact Or.inr hkept
        · rw [hpassed.size_eq, hone]
          rfl
        · intro hidle
          -- a pass that has applied one is not idle, so nothing is to be said about an idle one
          have hprogress : (l.foldl flushOne (flushOne pass p)).progress = true :=
            progress_foldl (by rw [hone])
          exact absurd hidle (by rw [hprogress]; simp)

/-! ## The loop -/

/-- What the retry loop has done: `more` was applied, and what is left in the buffer is stuck. -/
structure Flushed (log : OperationLog) (result : OperationLog × RGADocument)
    (more : List OperationEnvelope) : Prop where
  buffer_mem : ∀ p ∈ result.1.buffer, ∃ q ∈ log.buffer, q.envelope = p.envelope
  stuck : ∀ p ∈ result.1.buffer, (result.2.applyOperation p.envelope.op).2 = false
  covered : ∀ p ∈ log.buffer, p.envelope ∈ more ∨ ∃ q ∈ result.1.buffer, q.envelope = p.envelope
  size_eq : result.1.maxBufferSize = log.maxBufferSize
  length_le : result.1.buffer.length ≤ log.buffer.length

/-- **The retry loop** keeps every account and leaves only stuck envelopes in the buffer. -/
theorem Kept.flushBuffer (hP : Kept E P) (h : P log doc applied)
    (hbuffer : ∀ p ∈ log.buffer, p.envelope ∈ E) :
    ∃ more, Flushed log (log.flushBuffer doc) more ∧
      P (log.flushBuffer doc).1 (log.flushBuffer doc).2 (applied ++ more) := by
  induction hn : log.buffer.length using Nat.strong_induction_on
    generalizing log doc applied with
  | _ n ih =>
  subst hn
  by_cases hnil : log.buffer = []
  · rw [flushBuffer_of_nil hnil]
    refine ⟨[], ⟨by simp [hnil], by simp [hnil], by simp [hnil], rfl, Nat.le_refl _⟩, ?_⟩
    rwa [List.append_nil]
  let pass : FlushPass := ⟨log, doc, [], false⟩
  have hpass : P pass.log pass.doc applied := h
  obtain ⟨more, kept, hpassed, hrec⟩ := hP.foldl_flushOne hpass hbuffer
  have hstill : (flushPass log doc).stillPending = kept := hpassed.stillPending_eq
  cases hprogress : (flushPass log doc).progress
  · -- the last pass applied nothing, so it found every envelope stuck
    rw [flushBuffer_of_idle hnil hprogress]
    obtain ⟨hdoc, hstuck⟩ := hpassed.idle hprogress
    refine ⟨more, ⟨?_, ?_, ?_, hpassed.size_eq, ?_⟩, hP.buffer _ _ _ _ hrec⟩
    · exact fun p hp => hpassed.kept_mem p (hstill ▸ hp)
    · intro p hp
      show ((flushPass log doc).doc.applyOperation p.envelope.op).2 = false
      rw [show (flushPass log doc).doc = doc from hdoc]
      exact hstuck p (hstill ▸ hp)
    · intro p hp
      rw [hstill]
      exact hpassed.covered p hp
    · exact (length_stillPending_foldl_le ⟨log, doc, [], false⟩ log.buffer).trans (by simp)
  · rw [flushBuffer_of_progress hnil hprogress]
    have hkeptE : ∀ p ∈ (flushPass log doc).stillPending, p.envelope ∈ E := by
      intro p hp
      obtain ⟨q, hq, heq⟩ := hpassed.kept_mem p (hstill ▸ hp)
      exact heq ▸ hbuffer q hq
    have hlt := length_stillPending_lt hprogress
    have hrec₀ : P { (flushPass log doc).log with buffer := (flushPass log doc).stillPending }
        (flushPass log doc).doc (applied ++ more) := hP.buffer _ _ _ _ hrec
    obtain ⟨more', hflushed, hrec'⟩ := ih _ hlt hrec₀ hkeptE rfl
    refine ⟨more ++ more', ⟨?_, hflushed.stuck, ?_, ?_, ?_⟩, by simpa using hrec'⟩
    · intro p hp
      obtain ⟨q, hq, heq⟩ := hflushed.buffer_mem p hp
      obtain ⟨r, hr, heq'⟩ := hpassed.kept_mem q (hstill ▸ hq)
      exact ⟨r, hr, heq'.trans heq⟩
    · intro p hp
      rcases hpassed.covered p hp with hmore | ⟨q, hq, heq⟩
      · exact Or.inl (List.mem_append_left _ hmore)
      · rcases hflushed.covered q (hstill ▸ hq) with hmore | ⟨r, hr, heq'⟩
        · exact Or.inl (List.mem_append_right _ (heq ▸ hmore))
        · exact Or.inr ⟨r, hr, heq'.trans heq⟩
    · exact hflushed.size_eq.trans hpassed.size_eq
    · exact hflushed.length_le.trans hlt.le

/-- The loop with a bound on its passes; `none` when they do not suffice. -/
def flushLoop : Nat → OperationLog → RGADocument → Option (OperationLog × RGADocument)
  | passes, log, doc =>
      if log.buffer = [] then some (log, doc)
      else
        match passes with
        | 0 => none
        | passes + 1 =>
            let pass := flushPass log doc
            let log' := { pass.log with buffer := pass.stillPending }
            if pass.progress then flushLoop passes log' pass.doc else some (log', pass.doc)

/-- **The retry loop terminates**: it takes at most one pass for every envelope in the buffer. -/
theorem flushLoop_length {passes : Nat} {log : OperationLog} {doc : RGADocument}
    (h : log.buffer.length ≤ passes) : flushLoop passes log doc = some (log.flushBuffer doc) := by
  induction passes generalizing log doc with
  | zero =>
      have hnil : log.buffer = [] := List.eq_nil_of_length_eq_zero (Nat.le_zero.mp h)
      rw [flushLoop, if_pos hnil, flushBuffer_of_nil hnil]
  | succ passes ih =>
      by_cases hnil : log.buffer = []
      · rw [flushLoop, if_pos hnil, flushBuffer_of_nil hnil]
      · rw [flushLoop, if_neg hnil]
        simp only
        cases hprogress : (flushPass log doc).progress
        · rw [flushBuffer_of_idle hnil hprogress]
          rfl
        · have hlt := length_stillPending_lt hprogress
          rw [flushBuffer_of_progress hnil hprogress, if_pos rfl]
          exact ih (by simp only; omega)

/-! ## One call -/

/-- What a call does: nothing for an envelope applied before; without the prerequisite the
envelope is buffered, or the whole buffer is given up; and otherwise the envelope is applied and
the buffer retried. -/
lemma applyOrBuffer_cases (log : OperationLog) (e : OperationEnvelope) (doc : RGADocument) :
    (log.hasApplied e = true ∧ log.applyOrBuffer e doc = (log, doc, true)) ∨
    ((doc.applyOperation e.op).2 = false ∧ log.buffer.length + 1 < log.maxBufferSize ∧
      log.applyOrBuffer e doc = ({ log with buffer := log.buffer ++ [⟨e, 1⟩] }, doc, false)) ∨
    ((doc.applyOperation e.op).2 = false ∧ log.maxBufferSize ≤ log.buffer.length + 1 ∧
      log.applyOrBuffer e doc =
        ({ log with buffer := [], causalGapExceeded := log.causalGapExceeded + 1 }, doc, false)) ∨
    ((doc.applyOperation e.op).2 = true ∧
      log.applyOrBuffer e doc =
        (((log.recordApplied e).flushBuffer (doc.applyOperation e.op).1).1,
          ((log.recordApplied e).flushBuffer (doc.applyOperation e.op).1).2, true)) := by
  by_cases happlied : log.hasApplied e = true
  · refine Or.inl ⟨happlied, ?_⟩
    rw [hasApplied, decide_eq_true_eq] at happlied
    rw [applyOrBuffer]
    rcases happlied with hseq | hkey
    · rw [if_pos hseq]
    · by_cases hseq : e.seq > 0 ∧ e.seq ∈ log.appliedSeqs
      · rw [if_pos hseq]
      · rw [if_neg hseq, if_pos hkey]
  have hnot := happlied
  rw [hasApplied, decide_eq_true_eq, not_or] at hnot
  refine Or.inr ?_
  rw [applyOrBuffer, if_neg hnot.1, if_neg hnot.2]
  cases happ : (doc.applyOperation e.op).2
  · have hdoc := applyOperation_of_false happ
    by_cases hroom : log.buffer.length + 1 < log.maxBufferSize
    · refine Or.inl ⟨rfl, hroom, ?_⟩
      have hlt : log.buffer.length < log.maxBufferSize := by omega
      have hle : ¬ (log.buffer ++ [(⟨e, 1⟩ : PendingOp)]).length ≥ log.maxBufferSize := by
        rw [List.length_append, List.length_singleton]
        omega
      simp only [happ, Bool.false_eq_true, if_false, hlt, if_true, hle, hdoc]
    · refine Or.inr (Or.inl ⟨rfl, Nat.not_lt.mp hroom, ?_⟩)
      by_cases hlt : log.buffer.length < log.maxBufferSize
      · have hge : (log.buffer ++ [(⟨e, 1⟩ : PendingOp)]).length ≥ log.maxBufferSize := by
          rw [List.length_append, List.length_singleton]
          omega
        simp only [happ, Bool.false_eq_true, if_false, hlt, if_true, hge, hdoc, forceApplyBuffer]
      · have hge : log.buffer.length ≥ log.maxBufferSize := by omega
        simp only [happ, Bool.false_eq_true, if_false, hlt, hge, if_true, hdoc, forceApplyBuffer]
  · refine Or.inr (Or.inr ⟨rfl, ?_⟩)
    simp only [happ, if_true]

end OperationLog

end SyncEngine
