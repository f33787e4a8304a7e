import SyncEngine.Server.OperationHandler
import SyncEngine.Server.ReplayGuard

/-!
# A call of `handleOperation` from start to end

The pipeline of the operation handler (`server/sync/operation-handler.ts`) as one function on
what it reads and writes: the nonce keys in Redis, the tables of the document, and the worker's
cache entry.  `Faults` says which of the calls it makes refuse or throw; a throw ends the call
where it stands and undoes nothing.

Nothing else happens meanwhile.  The calls of several sessions, interleaved at their awaits, are
in `Server.WorkerPool`.
-/

namespace SyncEngine

/-- What one worker and the databases hold about a document. -/
structure Stores where
  keys : NonceKeys
  db : Database
  /-- The nonces stored with the operations of other documents. -/
  otherNonces : List JSString
  /-- The worker's cache entry. -/
  cache : Option CachedDocument

/-- What goes wrong in a call. -/
structure Faults where
  /-- `checkRateLimit` turns the call away, with its `retryAfterMs`. -/
  rateLimited : Option Nat
  /-- What the replay guard can reach. -/
  guard : Availability
  /-- `getOrLoadDocument` cannot read the database. -/
  loadThrows : Bool
  appendThrows : Bool
  publishThrows : Bool
deriving DecidableEq

/-- All goes well. -/
def Faults.none : Faults := ⟨Option.none, ⟨true, true⟩, false, false, false⟩

/-- How a call ends. -/
inductive OperationOutcome where
  | success (envelope : OperationEnvelope)
  | error (error : OperationError)
  | thrown
deriving DecidableEq

/-- The call has stored the operation. -/
def OperationOutcome.isSuccess : OperationOutcome → Bool
  | .success _ => true
  | _ => false

namespace Stores

/-- A document nobody has edited or loaded. -/
def start : Stores := ⟨[], Database.empty, [], none⟩

/-- The entry `loadDocumentFromDB` builds from the database. -/
def loadDocument (s : Stores) : CachedDocument :=
  let snapshot := s.db.loadLatestSnapshot
  replayDelta snapshot (s.db.loadOperationsAfterSeq (snapshotSeq snapshot))

/-- The entry `getOrLoadDocument` gives. -/
def document (s : Stores) : CachedDocument := s.cache.getD s.loadDocument

/-- The nonces of the operations table. -/
def storedNonces (s : Stores) : List JSString :=
  s.db.operations.map OperationEnvelope.nonce ++ s.otherNonces

/-- A check of the replay guard at time `now`. -/
def isReplay (s : Stores) (available : Availability) (seconds now : Nat)
    (docId nonce : JSString) : NonceKeys × Bool :=
  SyncEngine.isReplay available seconds now s.keys s.storedNonces docId nonce

end Stores

/-- A fresh call of the message. -/
def ValidatedOperationMessage.call (msg : ValidatedOperationMessage) (session : ClientSession) :
    OperationCall Unit := ⟨(), session, msg, .rateLimit⟩

section HandleOperation

variable (seconds now : Nat) (session : ClientSession) (msg : ValidatedOperationMessage)
  (faults : Faults)

/-- Step 5: the entry with the operation applied. -/
def CachedDocument.apply (cached : CachedDocument) (op : RGAOperation) : CachedDocument :=
  { cached with doc := (cached.doc.applyOperation op).1 }

/-- Steps 6 to 10, on a document that has been loaded and has the operation applied. -/
def persistAndPublish (s : Stores) : Stores × OperationOutcome :=
  if faults.appendThrows then (s, .thrown)
  else
    let (db, envelope) := s.db.appendOperation (msg.call session).params
    let s := { s with
      db := db
      cache := s.cache.map fun cached => { cached with
        lastSeq := envelope.seq, opsSinceSnapshot := cached.opsSinceSnapshot + 1 } }
    if faults.publishThrows then (s, .thrown) else (s, .success envelope)

/-- Steps 4 and 5, and what follows. -/
def applyAndPersist (s : Stores) : Stores × OperationOutcome :=
  if s.cache.isNone && faults.loadThrows then (s, .thrown)
  else persistAndPublish session msg faults { s with cache := some (s.document.apply msg.op) }

/-- `handleOperation`. -/
def handleOperation (s : Stores) : Stores × OperationOutcome :=
  match faults.rateLimited with
  | some retryAfterMs => (s, .error (.rateLimited retryAfterMs))
  | none =>
      let (keys, replay) := s.isReplay faults.guard seconds now msg.docId msg.nonce
      let s := { s with keys := keys }
      if replay then (s, .error .replayDetected)
      else
        match (msg.call session).siteIdMismatch with
        | some error => (s, .error error)
        | none => applyAndPersist session msg faults s

end HandleOperation

end SyncEngine
