import SyncEngine.Server.DocumentCache
import SyncEngine.Shared.Protocol

/-!
# Catching up after a reconnect

`getMissedOperations` and `shouldForceFullReload` (`server/sync/offline-merger.ts`), and the part
of `handleJoin` (`server/transport/websocket-server.ts`) that turns them into the JOIN_ACK
(`missedReply`, `joinAck`).

The query returns at most 5000 rows and the reload test asks for more than 5000, so the test on
the number of operations never succeeds (`shouldForceFullReload_getMissedOperations`): only the
payload test can ask for a reload.  `joinAck_complete_iff` says exactly when the JOIN_ACK tells a
reconnecting client everything it missed.
-/

namespace SyncEngine

/-! ## The offline merger -/

/-- `MAX_INCREMENTAL_OPS`. -/
def maxIncrementalOps : Nat := 5000

/-- `MAX_TOTAL_PAYLOAD_CHARS`. -/
def maxTotalPayloadChars : Nat := 500000

/-- `op.value?.length ?? 0`; Slate node objects have no `length`. -/
def JsValue.length : JsValue → Nat
  | .string s => List.length s
  | .object _ => 0

/-- What an envelope adds to the payload: the length of an inserted value. -/
def OperationEnvelope.payloadChars (envelope : OperationEnvelope) : Nat :=
  match envelope.op with
  | .insert op => op.value.length
  | _ => 0

/-- The characters of all payloads. -/
def totalChars (ops : List OperationEnvelope) : Nat :=
  ops.foldl (fun sum envelope => sum + envelope.payloadChars) 0

/-- What was stored behind `lastSeq`, as far as one query goes. -/
def getMissedOperations (db : Database) (lastSeq : Nat) (limit : Nat := 5000) :
    List OperationEnvelope :=
  if lastSeq = 0 then [] else db.loadOperationsAfterSeq lastSeq limit

/-- Too many operations, or too many characters. -/
def shouldForceFullReload (missedOps : List OperationEnvelope) : Bool :=
  if missedOps.length > maxIncrementalOps then true
  else totalChars missedOps > maxTotalPayloadChars

/-- The default limit keeps the test on the number of operations from ever succeeding. -/
lemma shouldForceFullReload_getMissedOperations (db : Database) (lastSeq : Nat) :
    shouldForceFullReload (getMissedOperations db lastSeq) = true ↔
      maxTotalPayloadChars < totalChars (getMissedOperations db lastSeq) := by
  have hle : (getMissedOperations db lastSeq).length ≤ maxIncrementalOps := by
    rw [getMissedOperations, maxIncrementalOps]
    split
    · exact Nat.zero_le _
    · rw [Database.length_loadOperationsAfterSeq]
      exact Nat.min_le_left ..
  rw [shouldForceFullReload, if_neg (Nat.not_lt.mpr hle), decide_eq_true_eq]

/-! ## The reply to a JOIN -/

/-- The local variables of `handleJoin` once the log has been read. -/
structure MissedReply where
  missedOps : List OperationEnvelope
  forceFullLoad : Bool
deriving DecidableEq, Repr

/-- What `handleJoin` makes of the missed operations. -/
def missedReply (db : Database) (msg : JoinMessage) : MissedReply :=
  if msg.lastSeq > 0 then
    let missedOps := getMissedOperations db msg.lastSeq
    let forceFullLoad := shouldForceFullReload missedOps
    ⟨if forceFullLoad then [] else missedOps, forceFullLoad⟩
  else ⟨[], false⟩

/-- The client's persistent id is its site id. -/
def assignSiteId (clientId : JSString) : JSString :=
  if clientId = [] then JSString.lit "global-client" else clientId

/-- The JOIN_ACK, built from the cached document as it is when the message is sent. -/
def joinAck (sessionId : JSString) (msg : JoinMessage) (reply : MissedReply)
    (cached : CachedDocument) : JoinAckMessage where
  sessionId := sessionId
  siteId := assignSiteId msg.clientId
  snapshot :=
    { seq := cached.lastSeq
      nodes := if reply.forceFullLoad || msg.lastSeq = 0 then cached.doc.serialize else [] }
  missedOps := if reply.forceFullLoad then [] else reply.missedOps

/-- The list holds every operation stored behind `lastSeq`, in ascending seq order. -/
structure AllMissed (db : Database) (lastSeq : Nat) (ops : List OperationEnvelope) : Prop where
  complete : ∀ row ∈ db.operations, lastSeq < row.seq → row ∈ ops
  ascending : ops.Pairwise fun a b => a.seq < b.seq

/-- The message carries the document in place of the missed operations. -/
structure CarriesDocument (ack : JoinAckMessage) (cached : CachedDocument) : Prop where
  nodes_eq : ack.snapshot.nodes = cached.doc.serialize
  missedOps_eq : ack.missedOps = []

/-- A client that missed no more operations than the query returns gets them all. -/
lemma allMissed_of_count_le {db : Database} {lastSeq : Nat} (hlast : 0 < lastSeq)
    (hcount : db.countAfterSeq lastSeq ≤ maxIncrementalOps) :
    AllMissed db lastSeq (getMissedOperations db lastSeq) := by
  rw [getMissedOperations, if_neg hlast.ne']
  exact ⟨fun row hrow hseq => (Database.mem_loadOperationsAfterSeq hcount).mpr ⟨hrow, hseq⟩,
    Database.pairwise_loadOperationsAfterSeq ..⟩

lemma not_allMissed_of_lt_count {db : Database} {lastSeq : Nat} (hlast : 0 < lastSeq)
    (hcount : maxIncrementalOps < db.countAfterSeq lastSeq) :
    ¬ AllMissed db lastSeq (getMissedOperations db lastSeq) := by
  intro h
  rw [getMissedOperations, if_neg hlast.ne'] at h
  obtain ⟨row, hrow, hseq, hout⟩ := Database.exists_notMem_loadOperationsAfterSeq hcount
  exact hout (h.complete row hrow hseq)

/-- Without a reload the reply is the list that was read, and no nodes. -/
lemma joinAck_of_incremental {db : Database} {msg : JoinMessage} (hlast : 0 < msg.lastSeq)
    (hforce : shouldForceFullReload (getMissedOperations db msg.lastSeq) = false)
    (sessionId : JSString) (cached : CachedDocument) :
    (joinAck sessionId msg (missedReply db msg) cached).missedOps =
        getMissedOperations db msg.lastSeq ∧
      (joinAck sessionId msg (missedReply db msg) cached).snapshot.nodes = [] := by
  simp [joinAck, missedReply, hlast, hforce, hlast.ne']

/-- With a reload it is the document. -/
lemma joinAck_of_reload {db : Database} {msg : JoinMessage} (hlast : 0 < msg.lastSeq)
    (hforce : shouldForceFullReload (getMissedOperations db msg.lastSeq) = true)
    (sessionId : JSString) (cached : CachedDocument) :
    (joinAck sessionId msg (missedReply db msg) cached).missedOps = [] ∧
      (joinAck sessionId msg (missedReply db msg) cached).snapshot.nodes =
        cached.doc.serialize := by
  simp [joinAck, missedReply, hlast, hforce]

/-! ## Logs of one typist -/

/-- One character, typed behind the one before it. -/
def typedRow (seq : Nat) : OperationEnvelope where
  docId := JSString.lit "d"
  sessionId := JSString.lit "s"
  userId := JSString.lit "u"
  op := .insert ⟨⟨seq, JSString.lit "a"⟩,
    if seq = 1 then none else some ⟨seq - 1, JSString.lit "a"⟩, .string (JSString.lit "x")⟩
  seq := seq
  clientSeq := seq
  nonce := JSString.ofNat seq

/-- The log of `n` characters. -/
def typedLog (n : Nat) : Database where
  operations := (List.range' 1 n).map typedRow
  documentSeq := n
  snapshots := []
  operations_unique := by
    rw [List.map_map]
    exact (List.map_id (List.range' 1 n)).symm ▸ List.nodup_range'
  operations_le := by
    intro row hrow
    obtain ⟨i, hi, rfl⟩ := List.mem_map.mp hrow
    have := List.mem_range'_1.mp hi
    show i ≤ n
    omega
  snapshots_unique := List.nodup_nil

lemma totalChars_le {ops : List OperationEnvelope} {c : Nat}
    (h : ∀ envelope ∈ ops, envelope.payloadChars ≤ c) : totalChars ops ≤ c * ops.length := by
  have key : ∀ (l : List OperationEnvelope) (sum : Nat), (∀ e ∈ l, e.payloadChars ≤ c) →
      l.foldl (fun sum e => sum + e.payloadChars) sum ≤ sum + c * l.length := by
    intro l
    induction l with
    | nil => simp
    | cons e l ih =>
        intro sum hl
        have he := hl e (List.mem_cons_self ..)
        have htail := ih (sum + e.payloadChars) fun f hf => hl f (List.mem_cons_of_mem _ hf)
        rw [List.foldl_cons, List.length_cons, Nat.mul_succ]
        omega
  have hkey := key ops 0 h
  rwa [Nat.zero_add] at hkey

lemma countAfterSeq_typedLog {n lastSeq : Nat} (h : lastSeq ≤ n) :
    (typedLog n).countAfterSeq lastSeq = n - lastSeq := by
  have hsplit : List.range' 1 n =
      List.range' 1 lastSeq ++ List.range' (1 + lastSeq) (n - lastSeq) := by
    rw [List.range'_append_1]
    congr 1
    omega
  rw [Database.countAfterSeq, typedLog, List.countP_map, hsplit, List.countP_append,
    List.countP_eq_zero.mpr, List.countP_eq_length.mpr, List.length_range', Nat.zero_add]
  · intro i hi
    have hmem := List.mem_range'_1.mp hi
    refine decide_eq_true ?_
    show lastSeq < i
    omega
  · intro i hi
    have hmem := List.mem_range'_1.mp hi
    rw [Function.comp_apply, decide_eq_true_eq]
    show ¬ lastSeq < i
    omega

lemma totalChars_typedLog (n lastSeq : Nat) :
    totalChars (getMissedOperations (typedLog n) lastSeq) ≤ maxIncrementalOps := by
  have hchars : ∀ envelope ∈ getMissedOperations (typedLog n) lastSeq,
      envelope.payloadChars ≤ 1 := by
    intro envelope h
    rw [getMissedOperations] at h
    split at h
    · simp at h
    · obtain ⟨hmem, -⟩ := Database.mem_of_mem_loadOperationsAfterSeq h
      obtain ⟨i, -, rfl⟩ := List.mem_map.mp hmem
      exact Nat.le_refl 1
  refine (totalChars_le hchars).trans ?_
  rw [Nat.one_mul, getMissedOperations]
  split
  · exact Nat.zero_le _
  · rw [Database.length_loadOperationsAfterSeq]
    exact Nat.min_le_left ..

/-! ## Completeness -/

/-- More operations than the query returns leave it a full list. -/
lemma getMissedOperations_ne_nil {db : Database} {lastSeq : Nat} (hlast : 0 < lastSeq)
    (hcount : maxIncrementalOps < db.countAfterSeq lastSeq) :
    getMissedOperations db lastSeq ≠ [] := by
  have hlength := Database.length_loadOperationsAfterSeq db lastSeq maxIncrementalOps
  rw [Nat.min_eq_left hcount.le] at hlength
  rw [getMissedOperations, if_neg hlast.ne']
  exact List.ne_nil_of_length_eq_add_one hlength

/-- **Catch-up is complete exactly** when at most 5000 operations were missed, or the first 5000
of them are too large to be sent one by one: then, and only then, the JOIN_ACK holds every missed
operation or the full document in their place. -/
theorem joinAck_complete_iff (db : Database) (sessionId : JSString) (msg : JoinMessage)
    (cached : CachedDocument) (hlast : 0 < msg.lastSeq) :
    (AllMissed db msg.lastSeq (joinAck sessionId msg (missedReply db msg) cached).missedOps ∨
        CarriesDocument (joinAck sessionId msg (missedReply db msg) cached) cached) ↔
      db.countAfterSeq msg.lastSeq ≤ maxIncrementalOps ∨
        maxTotalPayloadChars < totalChars (getMissedOperations db msg.lastSeq) := by
  rw [← shouldForceFullReload_getMissedOperations]
  cases hforce : shouldForceFullReload (getMissedOperations db msg.lastSeq)
  · obtain ⟨hmissed, -⟩ := joinAck_of_incremental hlast hforce sessionId cached
    rw [hmissed]
    by_cases hcount : db.countAfterSeq msg.lastSeq ≤ maxIncrementalOps
    · exact iff_of_true (Or.inl (allMissed_of_count_le hlast hcount)) (Or.inl hcount)
    · have hlt := Nat.lt_of_not_le hcount
      refine iff_of_false ?_ (by simp [hcount])
      rintro (hall | hcarries)
      · exact not_allMissed_of_lt_count hlast hlt hall
      · -- the list that was read is not empty, so the message does not stand for the document
        exact getMissedOperations_ne_nil hlast hlt (hmissed ▸ hcarries.missedOps_eq)
  · obtain ⟨hmissed, hnodes⟩ := joinAck_of_reload hlast hforce sessionId cached
    exact iff_of_true (Or.inr ⟨hnodes, hmissed⟩) (Or.inr rfl)

/-- A client that missed one of two operations. -/
theorem joinAck_complete_iff_two_rows :
    let msg : JoinMessage := ⟨1, JSString.lit "a"⟩
    let cached : CachedDocument := ⟨RGADocument.empty.applyOperations
      ((typedLog 2).operations.map OperationEnvelope.op), 2, 2⟩
    let ack := joinAck (JSString.lit "s") msg (missedReply (typedLog 2) msg) cached
    AllMissed (typedLog 2) msg.lastSeq ack.missedOps ∨ CarriesDocument ack cached :=
  (joinAck_complete_iff (typedLog 2) (JSString.lit "s") ⟨1, JSString.lit "a"⟩ _ (by decide)).mpr
    (Or.inl (by decide))

/-- A client that saw the first of 5002 typed characters is sent 5000 of the other 5001, and no
document. -/
theorem not_forall_joinAck_complete :
    ¬ ∀ (db : Database) (sessionId : JSString) (msg : JoinMessage) (cached : CachedDocument),
      0 < msg.lastSeq →
      AllMissed db msg.lastSeq (joinAck sessionId msg (missedReply db msg) cached).missedOps ∨
        CarriesDocument (joinAck sessionId msg (missedReply db msg) cached) cached := by
  intro h
  let msg : JoinMessage := ⟨1, JSString.lit "a"⟩
  -- the worker has at least the first character in its cache
  let cached : CachedDocument :=
    ⟨(RGADocument.empty.applyOperation (typedRow 1).op).1, 5002, 5002⟩
  have hcount : maxIncrementalOps < (typedLog 5002).countAfterSeq msg.lastSeq := by
    rw [countAfterSeq_typedLog (by decide)]
    decide
  have hforce :
      shouldForceFullReload (getMissedOperations (typedLog 5002) msg.lastSeq) = false := by
    rw [← Bool.not_eq_true, shouldForceFullReload_getMissedOperations]
    have hle := totalChars_typedLog 5002 msg.lastSeq
    have hlt : maxIncrementalOps < maxTotalPayloadChars := by decide
    omega
  have hlast : 0 < msg.lastSeq := by decide
  obtain ⟨hmissed, hnodes⟩ := joinAck_of_incremental hlast hforce (JSString.lit "s") cached
  rcases h (typedLog 5002) (JSString.lit "s") msg cached (by decide) with hall | hfull
  · rw [hmissed] at hall
    exact not_allMissed_of_lt_count (by decide) hcount hall
  · have hnodes' := hnodes.symm.trans hfull.nodes_eq
    exact absurd hnodes' (by decide)

end SyncEngine
