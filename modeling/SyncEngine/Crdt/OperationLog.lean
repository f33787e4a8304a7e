import Mathlib.Data.Finset.Insert
import SyncEngine.Crdt.RgaDocument

/-!
# `OperationLog`

The in-memory log with causal buffering (`crdt/operation-log.ts`): envelopes that cannot be
applied yet wait in a buffer, and every successful application retries the whole buffer until a
pass makes no progress.  A full buffer is given up as a whole.

The log and the document it applies to are passed along explicitly.  The retry loop
`flushBuffer` terminates because a pass that makes progress leaves fewer envelopes behind
(`length_stillPending_lt`).  The overflow callback is kept as a count of its calls; the times at
which envelopes were first seen are left out, nothing reads them.
-/

namespace SyncEngine

/-- A buffered envelope, with how often it was tried. -/
structure PendingOp where
  envelope : OperationEnvelope
  attempts : Nat
deriving DecidableEq

/-- What has been applied, by seq and by key, and what waits for its predecessor. -/
structure OperationLog where
  appliedSeqs : Finset Nat
  appliedClientKeys : Finset JSString
  buffer : List PendingOp
  maxBufferSize : Nat
  maxAppliedSeq : Nat
  /-- How often `onCausalGapExceeded` was called. -/
  causalGapExceeded : Nat
deriving DecidableEq

/-- `sessionId:clientSeq`. -/
def OperationEnvelope.clientKey (e : OperationEnvelope) : JSString :=
  e.sessionId ++ JSString.colon :: JSString.ofNat e.clientSeq

lemma OperationEnvelope.clientKey_inj {e f : OperationEnvelope} :
    e.clientKey = f.clientKey ↔ e.sessionId = f.sessionId ∧ e.clientSeq = f.clientSeq := by
  constructor
  · exact JSString.colon_ofNat_inj
  · rintro ⟨hs, hc⟩
    rw [clientKey, clientKey, hs, hc]

namespace OperationLog

/-- `new OperationLog(maxBufferSize)`. -/
def new (maxBufferSize : Nat) : OperationLog := ⟨∅, ∅, [], maxBufferSize, 0, 0⟩

/-- An envelope without a seq is recorded by its key only. -/
def recordApplied (log : OperationLog) (envelope : OperationEnvelope) : OperationLog :=
  { log with
    appliedSeqs := if envelope.seq > 0 then insert envelope.seq log.appliedSeqs
      else log.appliedSeqs
    maxAppliedSeq := if envelope.seq > 0 ∧ envelope.seq > log.maxAppliedSeq then envelope.seq
      else log.maxAppliedSeq
    appliedClientKeys := insert envelope.clientKey log.appliedClientKeys }

/-! ## Retrying the buffer -/

/-- The variables of one pass over the buffer. -/
structure FlushPass where
  log : OperationLog
  doc : RGADocument
  stillPending : List PendingOp
  progress : Bool

/-- The loop body: one more attempt at a buffered envelope. -/
def flushOne (pass : FlushPass) (pending : PendingOp) : FlushPass :=
  let (doc, applied) := pass.doc.applyOperation pending.envelope.op
  if applied then
    { pass with log := pass.log.recordApplied pending.envelope, doc := doc, progress := true }
  else
    { pass with
      doc := doc
      stillPending := pass.stillPending ++ [{ pending with attempts := pending.attempts + 1 }] }

/-- Tries every buffered envelope once. -/
def flushPass (log : OperationLog) (doc : RGADocument) : FlushPass :=
  log.buffer.foldl flushOne ⟨log, doc, [], false⟩

lemma flushOne_of_applied {pass : FlushPass} {pending : PendingOp}
    (h : (pass.doc.applyOperation pending.envelope.op).2 = true) :
    flushOne pass pending = ⟨pass.log.recordApplied pending.envelope,
      (pass.doc.applyOperation pending.envelope.op).1, pass.stillPending, true⟩ := by
  simp [flushOne, h]

lemma flushOne_of_stuck {pass : FlushPass} {pending : PendingOp}
    (h : (pass.doc.applyOperation pending.envelope.op).2 = false) :
    flushOne pass pending = ⟨pass.log, (pass.doc.applyOperation pending.envelope.op).1,
      pass.stillPending ++ [⟨pending.envelope, pending.attempts + 1⟩], pass.progress⟩ := by
  simp [flushOne, h]

lemma length_stillPending_foldl_le (pass : FlushPass) (l : List PendingOp) :
    (l.foldl flushOne pass).stillPending.length ≤ pass.stillPending.length + l.length := by
  induction l generalizing pass with
  | nil => exact Nat.le_refl _
  | cons p l ih =>
      have hle := ih (flushOne pass p)
      rw [List.foldl_cons, List.length_cons]
      cases happ : (pass.doc.applyOperation p.envelope.op).2
      · rw [flushOne_of_stuck happ] at hle ⊢
        rw [List.length_append, List.length_singleton] at hle
        omega
      · rw [flushOne_of_applied happ] at hle ⊢
        exact hle.trans (by simp only; omega)

lemma length_stillPending_foldl_lt (pass : FlushPass) (l : List PendingOp)
    (h : pass.progress = false) (hprogress : (l.foldl flushOne pass).progress = true) :
    (l.foldl flushOne pass).stillPending.length < pass.stillPending.length + l.length := by
  induction l generalizing pass with
  | nil => exact absurd hprogress (by simp [h])
  | cons p l ih =>
      rw [List.foldl_cons] at hprogress ⊢
      rw [List.length_cons]
      cases happ : (pass.doc.applyOperation p.envelope.op).2
      · have hlt := ih (flushOne pass p) (by rw [flushOne_of_stuck happ]; exact h) hprogress
        rw [flushOne_of_stuck happ] at hlt ⊢
        rw [List.length_append, List.length_singleton] at hlt
        omega
      · -- this envelope was applied and is not kept
        have hle := length_stillPending_foldl_le (flushOne pass p) l
        rw [flushOne_of_applied happ] at hle ⊢
        exact Nat.lt_of_le_of_lt hle (by simp only; omega)

/-- A pass that makes progress leaves fewer envelopes behind. -/
lemma length_stillPending_lt {log : OperationLog} {doc : RGADocument}
    (h : (flushPass log doc).progress = true) :
    (flushPass log doc).stillPending.length < log.buffer.length := by
  have hlt := length_stillPending_foldl_lt ⟨log, doc, [], false⟩ log.buffer rfl h
  rwa [List.length_nil, Nat.zero_add] at hlt

/-- Passes over the buffer until one makes no progress or nothing is left. -/
def flushBuffer (log : OperationLog) (doc : RGADocument) : OperationLog × RGADocument :=
  if log.buffer = [] then (log, doc)
  else
    let pass := flushPass log doc
    let log' := { pass.log with buffer := pass.stillPending }
    if _h : pass.progress then flushBuffer log' pass.doc else (log', pass.doc)
termination_by log.buffer.length
decreasing_by exact length_stillPending_lt _h

lemma flushBuffer_of_nil {log : OperationLog} (h : log.buffer = []) (doc : RGADocument) :
    log.flushBuffer doc = (log, doc) := by
  rw [flushBuffer, if_pos h]

lemma flushBuffer_of_progress {log : OperationLog} {doc : RGADocument} (hne : log.buffer ≠ [])
    (h : (flushPass log doc).progress = true) :
    log.flushBuffer doc = flushBuffer
      { (flushPass log doc).log with buffer := (flushPass log doc).stillPending }
      (flushPass log doc).doc := by
  rw [flushBuffer, if_neg hne]
  simp only
  rw [dif_pos h]

lemma flushBuffer_of_idle {log : OperationLog} {doc : RGADocument} (hne : log.buffer ≠ [])
    (h : (flushPass log doc).progress = false) :
    log.flushBuffer doc =
      ({ (flushPass log doc).log with buffer := (flushPass log doc).stillPending },
        (flushPass log doc).doc) := by
  rw [flushBuffer, if_neg hne]
  simp only
  rw [dif_neg (by simp [h])]

/-! ## Deliveries -/

/-- Gives the whole buffer up and asks for a reload. -/
def forceApplyBuffer (log : OperationLog) : OperationLog :=
  { log with buffer := [], causalGapExceeded := log.causalGapExceeded + 1 }

/-- Returns true if the operation was applied (now or before), false if it was buffered. -/
def applyOrBuffer (log : OperationLog) (envelope : OperationEnvelope) (doc : RGADocument) :
    OperationLog × RGADocument × Bool :=
  if envelope.seq > 0 ∧ envelope.seq ∈ log.appliedSeqs then (log, doc, true)
  else if envelope.clientKey ∈ log.appliedClientKeys then (log, doc, true)
  else
    let (doc, applied) := doc.applyOperation envelope.op
    if applied then
      let (log, doc) := (log.recordApplied envelope).flushBuffer doc
      (log, doc, true)
    else
      let log := if log.buffer.length < log.maxBufferSize then
          { log with buffer := log.buffer ++ [⟨envelope, 1⟩] }
        else log
      let log := if log.buffer.length ≥ log.maxBufferSize then log.forceApplyBuffer else log
      (log, doc, false)

/-- The buffer. -/
def getPendingOps (log : OperationLog) : List PendingOp := log.buffer

/-- The greatest seq applied. -/
def getMaxAppliedSeq (log : OperationLog) : Nat := log.maxAppliedSeq

/-- An envelope is known by its seq or by its key. -/
def hasApplied (log : OperationLog) (envelope : OperationEnvelope) : Bool :=
  (envelope.seq > 0 ∧ envelope.seq ∈ log.appliedSeqs) ∨
    envelope.clientKey ∈ log.appliedClientKeys

/-- A sequence of deliveries on one document. -/
def deliver (log : OperationLog) (doc : RGADocument) (deliveries : List OperationEnvelope) :
    OperationLog × RGADocument :=
  deliveries.foldl (fun s envelope =>
    let (log, doc, _) := s.1.applyOrBuffer envelope s.2
    (log, doc)) (log, doc)

end OperationLog

end SyncEngine
