import SyncEngine.Server.DocumentCache
import SyncEngine.Shared.Protocol

/-!
# `handleOperation`

One call of the operation handler (`server/sync/operation-handler.ts`), as far as it is local to
the call: its stages, one for every await, the checks it makes, and the row it stores.  What it
does to the worker, the database and the channel is in `Server.WorkerPool`.

Between step 5 of the handler, which applies the operation to the entry it was given, and step 7,
which updates whatever entry is cached by then, lies the await of the append.
-/

namespace SyncEngine

/-- A joined client, as the server knows it. -/
structure ClientSession where
  id : JSString
  userId : JSString
  siteId : JSString
deriving DecidableEq, Repr

/-- The `error` of an `OperationResult`. -/
structure OperationError where
  code : JSString
  message : JSString
deriving DecidableEq, Repr

namespace OperationError

/-- The error of the rate limiter. -/
def rateLimited (retryAfterMs : Nat) : OperationError where
  code := JSString.lit "RATE_LIMITED"
  message := JSString.lit "Rate limit exceeded. Retry after " ++ JSString.ofNat retryAfterMs ++
    JSString.lit "ms"

/-- The error of the replay guard. -/
def replayDetected : OperationError where
  code := JSString.lit "REPLAY_DETECTED"
  message := JSString.lit "Duplicate operation"

/-- The error for a UID of another site. -/
def siteIdMismatch (expected got : JSString) : OperationError where
  code := JSString.lit "INVALID_OPERATION"
  message := JSString.lit "UID siteId mismatch: expected " ++ expected ++
    JSString.lit ", got " ++ got

end OperationError

/-- How far a call is with storing and publishing the operation it has applied. -/
inductive StoreProgress where
  /-- Awaits `appendOperation`. -/
  | appending
  /-- The row has been stored; the cache has not been updated yet. -/
  | appended (envelope : OperationEnvelope)
  /-- Awaits `publishOperation`. -/
  | publishing (envelope : OperationEnvelope)
  | published (envelope : OperationEnvelope)
  /-- The call has returned `envelope`. -/
  | done (envelope : OperationEnvelope)
  /-- `appendOperation` has thrown, and the call with it. -/
  | threw
deriving DecidableEq

/-- The row the call has stored. -/
def StoreProgress.envelope : StoreProgress → Option OperationEnvelope
  | .appending => none
  | .appended envelope => some envelope
  | .publishing envelope => some envelope
  | .published envelope => some envelope
  | .done envelope => some envelope
  | .threw => none

/-- How far a call of `handleOperation` has come. -/
inductive CallStage where
  /-- Awaits `checkRateLimit`. -/
  | rateLimit
  /-- Awaits `isReplay`. -/
  | replayCheck
  /-- Awaits `getOrLoadDocument`, on the given load. -/
  | awaitDocument (load : Nat)
  /-- The operation was applied to the entry of the given load, with the given result. -/
  | applied (load : Nat) (ok : Bool) (progress : StoreProgress)
  | failed (error : OperationError)
deriving DecidableEq

/-- One call of `handleOperation`, by the worker its session is connected to. -/
structure OperationCall (W : Type*) where
  worker : W
  session : ClientSession
  msg : ValidatedOperationMessage
  stage : CallStage

namespace OperationCall

variable {W : Type*}

/-- An INSERT must carry the site id of its session. -/
def siteIdMismatch (call : OperationCall W) : Option OperationError :=
  match call.msg.op with
  | .insert op =>
      if op.uid.siteId ≠ call.session.siteId then
        some (.siteIdMismatch call.session.siteId op.uid.siteId)
      else none
  | _ => none

/-- The parameters of `appendOperation`; the store assigns the seq. -/
def params (call : OperationCall W) : OperationEnvelope where
  docId := call.msg.docId
  sessionId := call.session.id
  userId := call.session.userId
  op := call.msg.op
  seq := 0
  clientSeq := call.msg.clientSeq
  nonce := call.msg.nonce

/-- The load whose entry the operation was applied to, and the result of `applyOperation`. -/
def appliedTo (call : OperationCall W) : Option (Nat × Bool) :=
  match call.stage with
  | .applied load ok _ => some (load, ok)
  | _ => none

/-- The load whose entry the operation is applied to, when that is the next step. -/
def aboutToApply (call : OperationCall W) : Option Nat :=
  match call.stage with
  | .awaitDocument load => some load
  | _ => none

/-- The row the call has stored, when the update of the cache is its next step. -/
def aboutToUpdate (call : OperationCall W) : Option OperationEnvelope :=
  match call.stage with
  | .applied _ _ (.appended envelope) => some envelope
  | _ => none

/-- The row the call has stored. -/
def stored (call : OperationCall W) : Option OperationEnvelope :=
  match call.stage with
  | .applied _ _ progress => progress.envelope
  | _ => none

lemma appliedTo_of_stage {call : OperationCall W} {n : Nat} {ok : Bool} {progress : StoreProgress}
    (h : call.stage = .applied n ok progress) : call.appliedTo = some (n, ok) := by
  rw [appliedTo, h]

lemma stored_of_stage {call : OperationCall W} {n : Nat} {ok : Bool} {progress : StoreProgress}
    (h : call.stage = .applied n ok progress) : call.stored = progress.envelope := by
  rw [stored, h]

/-- Before its operation is applied, a call has stored nothing. -/
lemma stored_of_appliedTo_none {call : OperationCall W} (h : call.appliedTo = none) :
    call.stored = none := by
  cases hstage : call.stage <;> simp_all [appliedTo, stored]

end OperationCall

end SyncEngine
