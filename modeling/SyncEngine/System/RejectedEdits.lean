import SyncEngine.Crdt.Encoding
import SyncEngine.Server.FailureTraces
import SyncEngine.System.Reconnect
import SyncEngine.System.ServedTab

/-!
# Rejected edits

What a tab shows against what the log of its document holds.  A local edit is applied at once and
sent; when the server answers it with an ERROR, the hook writes a warning to the console and does
nothing else.  The operation stays in the replica, and in the queue until the next connection.

`replica_logged` says that this is the only way for a tab to show more than the log, apart from
what a failed append leaves in the server's document: in a run where neither happens to an
operation that is not stored already, an idle tab has applied logged operations only.
-/

namespace SyncEngine

open ReplicatedList Transition

/-! ## Documents that rest on a set of operations -/

/-- Every node and every tombstone of the document goes back to an operation of `O`. -/
structure RGADocument.Backed (O : Set RGAOperation) (d : RGADocument) : Prop where
  indexed : RGADocument.Indexed d
  sound : Sound O d.cells

namespace RGADocument

variable {O O' : Set RGAOperation} {d : RGADocument}

lemma Backed.mono (h : Backed O d) (hO : O ⊆ O') : Backed O' d := ⟨h.indexed, h.sound.mono hO⟩

lemma Backed.of_cells_eq {d' : RGADocument} (h : Backed O d) (hcells : d'.cells = d.cells) :
    Backed O d' := ⟨h.indexed.of_cells_eq hcells, hcells ▸ h.sound⟩

lemma Backed.applyOperation (h : Backed O d) {op : RGAOperation} (hop : op ∈ O)
    (hedit : op.IsEdit) : Backed O (d.applyOperation op).1 := by
  by_cases hroot : op.uid = rootUID
  · exact h.of_cells_eq (d.cells_applyOperation_root hroot)
  · exact ⟨h.indexed.applyOperation op, h.sound.applyOperation h.indexed hroot hedit hop⟩

lemma Backed.applyOperations (h : Backed O d) {ops : List RGAOperation}
    (hops : ∀ op ∈ ops, op ∈ O ∧ op.IsEdit) : Backed O (d.applyOperations ops) :=
  List.foldlRecOn ops _ h fun _ hd op hop => hd.applyOperation (hops op hop).1 (hops op hop).2

lemma Backed.gc (h : Backed O d) : Backed O d.gc.1 := ⟨indexed_gc h.indexed, h.sound.gc⟩

lemma backed_empty : Backed O empty := ⟨indexed_empty, sound_nil⟩

end RGADocument

namespace ClientRGADocument

/-- The same for a replica. -/
structure Backed (O : Set RGAOperation) (d : ClientRGADocument) : Prop where
  nodup : (ids d.cells).Nodup
  sound : Sound O d.cells

variable {O O' : Set RGAOperation} {d : ClientRGADocument}

lemma Backed.mono (h : Backed O d) (hO : O ⊆ O') : Backed O' d := ⟨h.nodup, h.sound.mono hO⟩

lemma Backed.applyOperation (h : Backed O d) {op : RGAOperation} (hop : op ∈ O)
    (hedit : op.IsEdit) : Backed O (d.applyOperation op) := by
  by_cases hroot : op.uid = rootUID
  · have hcells := d.cells_applyOperation_root hroot
    exact ⟨hcells ▸ h.nodup, hcells ▸ h.sound⟩
  · obtain ⟨e, he⟩ := exists_edit hedit
    have hcells := cells_applyOperation h.nodup hroot he
    exact ⟨hcells ▸ nodup_ids_step h.nodup e, hcells ▸ h.sound.step hop he⟩

lemma Backed.applyOperations (h : Backed O d) {ops : List RGAOperation}
    (hops : ∀ op ∈ ops, op ∈ O ∧ op.IsEdit) : Backed O (d.applyOperations ops) :=
  List.foldlRecOn ops _ h fun _ hd op hop => hd.applyOperation (hops op hop).1 (hops op hop).2

lemma Backed.edits {d' : ClientRGADocument} {ops : List RGAOperation} (h : Backed O d)
    (hedits : Edits d ops d') (hops : ∀ op ∈ ops, op ∈ O) : Backed O d' := by
  induction hedits with
  | nil => exact h
  | @insert d d' ops index char _ ih =>
      refine ih ?_ fun op hop => hops op (List.mem_cons_of_mem _ hop)
      have hclock : Backed O { d with clock := d.clock + 1 } := ⟨h.nodup, h.sound⟩
      exact hclock.applyOperation (hops _ (List.mem_cons_self ..)) trivial
  | delete index hdelete _ ih =>
      refine ih ?_ fun op hop => hops op (List.mem_cons_of_mem _ hop)
      rw [localDelete] at hdelete
      split at hdelete
      · simp at hdelete
      · obtain ⟨rfl, hop⟩ := Prod.mk.inj hdelete
        obtain rfl := Option.some.inj hop
        exact h.applyOperation (hops (.delete _) (List.mem_cons_self ..)) trivial

end ClientRGADocument

/-! ## What a call does to the stores -/

namespace Stores

variable (seconds now : Nat) (session : ClientSession) (msg : ValidatedOperationMessage)
  (faults : Faults) (s : Stores)

/-- No check turns the call away, and the document is there. -/
def Passes : Prop :=
  faults.rateLimited = none ∧ (s.isReplay faults.guard seconds now msg.docId msg.nonce).2 = false ∧
    (msg.call session).siteIdMismatch = none ∧ ¬ (s.cache = none ∧ faults.loadThrows = true)

/-- The call stores its row. -/
def StoresRow : Prop :=
  s.Passes seconds now session msg faults ∧ faults.appendThrows = false

/-- The call changes the document, and does not store its row. -/
def LosesRow : Prop :=
  s.Passes seconds now session msg faults ∧ faults.appendThrows = true ∧
    ¬ s.document.doc.Unaffected msg.op

variable {seconds now session msg faults s}

/-- A call is turned away, or applies its operation; then the append throws, or the row is
stored. -/
lemma handleOperation_cases {result : Stores × OperationOutcome}
    (hresult : handleOperation seconds now session msg faults s = result) :
    (¬ s.Passes seconds now session msg faults ∧ result.1.db = s.db ∧ result.1.cache = s.cache ∧
      result.2.published = []) ∨
    (s.Passes seconds now session msg faults ∧ faults.appendThrows = true ∧ result.1.db = s.db ∧
      result.1.cache = some (s.document.apply msg.op) ∧ result.2.published = []) ∨
    (s.StoresRow seconds now session msg faults ∧
      result.1.db = (s.db.appendOperation (msg.call session).params).1 ∧
      result.1.cache.map CachedDocument.doc = some (s.document.apply msg.op).doc ∧
      ∀ envelope ∈ result.2.published, envelope.op = msg.op) := by
  subst hresult
  cases hrate : faults.rateLimited with
  | some retryAfterMs =>
      rw [handleOperation_rateLimited s hrate]
      exact Or.inl ⟨fun h => by simp [h.1] at hrate, rfl, rfl, rfl⟩
  | none =>
      cases hreplay : (s.isReplay faults.guard seconds now msg.docId msg.nonce).2 with
      | true =>
          rw [handleOperation_replay hrate hreplay]
          exact Or.inl ⟨fun h => by simp [h.2.1] at hreplay, rfl, rfl, rfl⟩
      | false =>
          rw [handleOperation_passed hrate hreplay]
          cases hsite : (msg.call session).siteIdMismatch with
          | some error => exact Or.inl ⟨fun h => by simp [h.2.2.1] at hsite, rfl, rfl, rfl⟩
          | none =>
              -- the load is asked for only when the document is not cached
              by_cases hload : s.cache = none ∧ faults.loadThrows = true
              · have hthrown : applyAndPersist session msg faults
                    (s.checked faults.guard seconds now msg) =
                      (s.checked faults.guard seconds now msg, .thrown) := by
                  rw [applyAndPersist, if_pos (by simp [Stores.checked, hload])]
                simp only [hthrown]
                exact Or.inl ⟨fun h => h.2.2.2 hload, rfl, rfl, rfl⟩
              · have hpasses : s.Passes seconds now session msg faults :=
                  ⟨hrate, hreplay, hsite, hload⟩
                have happlied : applyAndPersist session msg faults
                    (s.checked faults.guard seconds now msg) =
                      persistAndPublish session msg faults
                        { s.checked faults.guard seconds now msg with
                          cache := some (s.document.apply msg.op) } := by
                  rw [applyAndPersist, if_neg (by simpa [Stores.checked] using hload)]
                  rfl
                simp only [happlied]
                refine Or.inr ?_
                cases happend : faults.appendThrows with
                | true =>
                    rw [persistAndPublish, if_pos happend]
                    exact Or.inl ⟨hpasses, rfl, rfl, rfl, rfl⟩
                | false =>
                    refine Or.inr ⟨⟨hpasses, happend⟩, ?_⟩
                    rw [persistAndPublish, if_neg (by simp [happend])]
                    cases hpublish : faults.publishThrows with
                    | true => exact ⟨rfl, rfl, by simp [OperationOutcome.published]⟩
                    | false =>
                        refine ⟨rfl, rfl, fun envelope henvelope => ?_⟩
                        rw [List.mem_singleton.mp henvelope]
                        rfl

/-- The operations in the log. -/
def logged (s : Stores) : Set RGAOperation := {op | ∃ row ∈ s.db.operations, row.op = op}

/-- The tables and the cache rest on `O`. -/
structure Backed (O : Set RGAOperation) (s : Stores) : Prop where
  rows : ∀ row ∈ s.db.operations, row.op ∈ O ∧ row.op.IsEdit
  snapshots : ∀ snapshot ∈ s.db.snapshots, (RGADocument.deserialize snapshot.data).Backed O
  cache : ∀ cached ∈ s.cache, cached.doc.Backed O

variable {O O' : Set RGAOperation}

lemma Backed.mono (h : s.Backed O) (hO : O ⊆ O') : s.Backed O' where
  rows row hrow := ⟨hO (h.rows row hrow).1, (h.rows row hrow).2⟩
  snapshots snapshot hsnapshot := (h.snapshots snapshot hsnapshot).mono hO
  cache cached hcached := (h.cache cached hcached).mono hO

lemma Backed.document (h : s.Backed O) : s.document.doc.Backed O := by
  rw [Stores.document]
  cases hcache : s.cache with
  | some cached => exact h.cache cached hcache
  | none =>
      have hstart : (snapshotDoc s.db.loadLatestSnapshot).Backed O := by
        cases hlatest : s.db.loadLatestSnapshot with
        | none => exact RGADocument.backed_empty
        | some snapshot => exact h.snapshots snapshot (Database.loadLatestSnapshot_mem hlatest)
      refine hstart.applyOperations fun op hop => ?_
      obtain ⟨row, hrow, rfl⟩ := List.mem_map.mp hop
      exact h.rows row (Database.mem_of_mem_loadOperationsAfterSeq hrow).1

/-- The document after an operation that has changed nothing. -/
lemma cells_apply_of_unaffected (h : s.document.doc.Unaffected msg.op) :
    (s.document.apply msg.op).doc.cells = s.document.doc.cells := by
  rw [RGADocument.cells, RGADocument.cells]
  exact congrArg _ ((s.document.doc.applyOperation_nodes_eq_iff msg).mpr h)

/-- A call whose operation is in `O` if it gets anywhere. -/
lemma Backed.handleOperation (h : s.Backed O)
    (hop : s.StoresRow seconds now session msg faults → msg.op ∈ O)
    (hlost : s.LosesRow seconds now session msg faults → msg.op ∈ O)
    {result : Stores × OperationOutcome}
    (hresult : SyncEngine.handleOperation seconds now session msg faults s = result) :
    result.1.Backed O := by
  rcases handleOperation_cases hresult with
    ⟨-, hdb, hcache, -⟩ | ⟨hpasses, hthrows, hdb, hcache, -⟩ | ⟨hstores, hdb, hcache, -⟩
  · exact ⟨hdb ▸ h.rows, hdb ▸ h.snapshots, hcache ▸ h.cache⟩
  · refine ⟨hdb ▸ h.rows, hdb ▸ h.snapshots, fun cached hcached => ?_⟩
    rw [hcache] at hcached
    obtain rfl := Option.some.inj hcached
    by_cases hunaffected : s.document.doc.Unaffected msg.op
    · exact h.document.of_cells_eq (cells_apply_of_unaffected hunaffected)
    · exact h.document.applyOperation (hlost ⟨hpasses, hthrows, hunaffected⟩) msg.isEdit
  · refine ⟨fun row hrow => ?_, fun snapshot hsnapshot => ?_, fun cached hcached => ?_⟩
    · rw [hdb] at hrow
      rcases List.mem_append.mp hrow with hrow | hrow
      · exact h.rows row hrow
      · rw [List.mem_singleton.mp hrow]
        exact ⟨hop hstores, msg.isEdit⟩
    · rw [hdb] at hsnapshot
      exact h.snapshots snapshot hsnapshot
    · rw [Option.mem_def.mp hcached] at hcache
      have hdoc : cached.doc = (s.document.apply msg.op).doc := Option.some.inj hcache
      rw [hdoc]
      exact h.document.applyOperation (hop hstores) msg.isEdit

/-- A call keeps the log, and adds its operation when it stores its row. -/
lemma logged_handleOperation {result : Stores × OperationOutcome}
    (hresult : SyncEngine.handleOperation seconds now session msg faults s = result) :
    s.logged ⊆ result.1.logged ∧
      (s.StoresRow seconds now session msg faults → msg.op ∈ result.1.logged) ∧
      ∀ envelope ∈ result.2.published, envelope.op ∈ result.1.logged := by
  rcases handleOperation_cases hresult with
    ⟨hturned, hdb, -, hnone⟩ | ⟨-, hthrows, hdb, -, hnone⟩ | ⟨-, hdb, -, hpublished⟩
  · refine ⟨?_, fun hstores => absurd hstores.1 hturned, by simp [hnone]⟩
    simp only [logged, hdb, Set.Subset.refl]
  · refine ⟨?_, fun hstores => by simp [hstores.2] at hthrows, by simp [hnone]⟩
    simp only [logged, hdb, Set.Subset.refl]
  · have hnew : msg.op ∈ result.1.logged := by
      simp only [logged, hdb]
      exact ⟨_, List.mem_append_right _ (List.mem_singleton.mpr rfl), rfl⟩
    refine ⟨?_, fun _ => hnew, fun envelope henvelope => hpublished envelope henvelope ▸ hnew⟩
    rintro op ⟨row, hrow, rfl⟩
    simp only [logged, hdb]
    exact ⟨row, List.mem_append_left _ hrow, rfl⟩

lemma Backed.takeSnapshot (h : s.Backed O) : s.takeSnapshot.Backed O := by
  rw [Stores.takeSnapshot]
  split
  · exact ⟨h.rows, h.snapshots, fun cached hcached => Option.some.inj hcached ▸ h.document⟩
  · have hgc := h.document.gc
    refine ⟨?_, fun snapshot hsnapshot => ?_, fun cached hcached => Option.some.inj hcached ▸ hgc⟩
    · simp only [Database.pruneSnapshots, Database.insertSnapshot]
      split <;> exact h.rows
    · rcases Database.mem_insertSnapshot (Database.pruneSnapshots_subset _ _ hsnapshot) with
        hold | rfl
      · exact h.snapshots snapshot hold
      · refine hgc.of_cells_eq ?_
        rw [RGADocument.cells_deserialize, RGADocument.cells_serialize]

lemma logged_takeSnapshot : s.takeSnapshot.logged = s.logged := by
  simp only [logged, Stores.takeSnapshot, Database.pruneSnapshots, Database.insertSnapshot]
  split
  · rfl
  · split <;> rfl

end Stores

/-- What a message brings rests on `O`. -/
def ServerMessage.Backed (O : Set RGAOperation) : ServerMessage → Prop
  | .joinAck ack => (RGADocument.deserialize ack.snapshot.nodes).Backed O ∧
      ∀ envelope ∈ ack.missedOps, envelope.op ∈ O
  | .broadcast envelope => envelope.op ∈ O
  | _ => True

lemma ServerMessage.Backed.mono {O O' : Set RGAOperation} {message : ServerMessage}
    (h : message.Backed O) (hO : O ⊆ O') : message.Backed O' := by
  cases message with
  | joinAck ack => exact ⟨h.1.mono hO, fun envelope henvelope => hO (h.2 envelope henvelope)⟩
  | broadcast envelope => exact hO h
  | opAck _ _ => trivial
  | error _ => trivial

/-! ## The property -/

namespace ServedTab

/-- The tab has handled the JOIN_ACK of its connection, and nothing is on its way. -/
structure Idle (s : ServedTab) : Prop where
  connected : s.tab.connected = true
  joinAcked : s.tab.joinAcked = true
  toServer : s.tab.toServer = []
  toClient : s.tab.toClient = []

/-- What the replica has applied is stored, and so is what it shows. -/
structure ReplicaLogged (s : ServedTab) : Prop where
  applied : ∀ op ∈ s.applied, op ∈ s.stores.logged
  shown : ∀ doc ∈ s.tab.hook.docRef, Sound s.stores.logged doc.cells

/-- The server does not store the message. -/
def TurnedAway (s : ServedTab) (now : Nat) (faults : Faults) (joined : JoinedSession)
    (msg : OperationMessage) : Prop :=
  match validateOperation msg with
  | some msg => ¬ s.stores.StoresRow s.replayWindowSeconds now joined.session msg faults
  | none => True

/-- It does not store it, but shows it in its document. -/
def Loses (s : ServedTab) (now : Nat) (faults : Faults) (joined : JoinedSession)
    (msg : OperationMessage) : Prop :=
  match validateOperation msg with
  | some msg => s.stores.LosesRow s.replayWindowSeconds now joined.session msg faults
  | none => False

/-- An operation that is not in the log yet is not turned away once the replica has applied it, and
no call changes the document without storing its row. -/
def Kept (s : ServedTab) : ServedAction → Prop
  | .serve now faults => ∀ joined ∈ s.session, ∀ msg ∈ s.tab.toServer.head?,
      msg.op ∉ s.stores.logged →
        (s.TurnedAway now faults joined msg → s.tab.JoinPending ∨ msg.op ∉ s.applied) ∧
          ¬ s.Loses now faults joined msg
  | .peer now session msg faults =>
      msg.op ∉ s.stores.logged →
        ¬ s.stores.LosesRow s.replayWindowSeconds now session msg faults
  | _ => True

/-! ## The invariant -/

/-- What holds along every run that loses no operation. -/
structure Covered (s : ServedTab) : Prop where
  stores : s.stores.Backed s.stores.logged
  session : ∀ joined ∈ s.session,
    (∀ envelope ∈ joined.reply.missedOps, envelope.op ∈ s.stores.logged) ∧
      ∀ cached ∈ joined.held, cached.doc.Backed s.stores.logged
  channel : ∀ envelope ∈ s.channel, envelope.op ∈ s.stores.logged
  toClient : ∀ message ∈ s.tab.toClient, message.Backed s.stores.logged
  /-- Once the JOIN_ACK has been handled, the replica rests on the log and what it has applied. -/
  replica : s.tab.connected = true → ¬ s.tab.JoinPending → ∃ doc,
    s.tab.hook.docRef = some doc ∧ doc.Backed (s.stores.logged ∪ {op | op ∈ s.applied})
  /-- What it has applied is stored or on its way. -/
  applied : s.tab.connected = true → ¬ s.tab.JoinPending → ∀ op ∈ s.applied,
    op ∈ s.stores.logged ∨ ∃ msg ∈ s.tab.toServer, msg.op = op

lemma covered_start (docId clientId userId : JSString) (replayWindowSeconds : Nat) :
    (start docId clientId userId replayWindowSeconds).Covered where
  stores := ⟨by simp [start, Stores.start, Database.empty],
    by simp [start, Stores.start, Database.empty], by simp [start, Stores.start]⟩
  session := by simp [start]
  channel := by simp [start]
  toClient := by simp [start, Tab.start]
  replica := by simp [start, Tab.start]
  applied := by simp [start]

variable {s s' : ServedTab}

/-- A JOIN_ACK that has been handled stays so while no other one arrives. -/
lemma not_joinPending {tab tab' : Tab} (h : ¬ tab'.JoinPending)
    (hacked : tab'.joinAcked = tab.joinAcked)
    (hcount : tab'.toClient.countP ServerMessage.isJoinAck =
      tab.toClient.countP ServerMessage.isJoinAck) : ¬ tab.JoinPending := by
  rwa [Tab.JoinPending, hacked, hcount] at h

lemma Covered.replicaLogged (h : s.Covered) (hidle : s.Idle) : s.ReplicaLogged := by
  have hjoined : ¬ s.tab.JoinPending := by
    simp [Tab.JoinPending, hidle.joinAcked, hidle.toClient]
  have happlied : ∀ op ∈ s.applied, op ∈ s.stores.logged := by
    intro op hop
    refine (h.applied hidle.connected hjoined op hop).resolve_right ?_
    simp [hidle.toServer]
  refine ⟨happlied, fun doc hdoc => ?_⟩
  obtain ⟨doc', hdoc', hbacked⟩ := h.replica hidle.connected hjoined
  obtain rfl : doc' = doc := Option.some.inj (hdoc'.symm.trans hdoc)
  exact hbacked.sound.mono (Set.union_subset (Set.Subset.refl _) happlied)

lemma Covered.withStores (h : s.Covered) {stores : Stores}
    (hlogged : s.stores.logged ⊆ stores.logged) (hbacked : stores.Backed stores.logged) :
    Covered { s with stores := stores } where
  stores := hbacked
  session joined hjoined :=
    ⟨fun envelope henvelope => hlogged ((h.session joined hjoined).1 envelope henvelope),
      fun cached hcached => ((h.session joined hjoined).2 cached hcached).mono hlogged⟩
  channel envelope henvelope := hlogged (h.channel envelope henvelope)
  toClient message hmessage := (h.toClient message hmessage).mono hlogged
  replica hconnected hpending := by
    obtain ⟨doc, hdoc, hbacked⟩ := h.replica hconnected hpending
    exact ⟨doc, hdoc, hbacked.mono (Set.union_subset_union_left _ hlogged)⟩
  applied hconnected hpending op hop :=
    (h.applied hconnected hpending op hop).imp_left fun hop => hlogged hop

lemma Covered.withSocket (h : s.Covered) {tab : Tab} (hclient : tab.toClient = [])
    (hpending : tab.connected = false ∨ tab.joinAcked = false) (joinMessage : JoinMessage) :
    Covered { s with tab := tab, session := none, joinMessage := joinMessage } where
  stores := h.stores
  session := by simp
  channel := h.channel
  toClient := by simp [hclient]
  replica hconnected hjoined := by
    rcases hpending with hclosed | hjoin
    · simp [hclosed] at hconnected
    · exact absurd (Or.inl hjoin) hjoined
  applied hconnected hjoined := by
    rcases hpending with hclosed | hjoin
    · simp [hclosed] at hconnected
    · exact absurd (Or.inl hjoin) hjoined

/-- The server replies to a message of the tab. -/
lemma Covered.withReply (h : s.Covered) {msg : OperationMessage} {rest : List OperationMessage}
    (hserver : s.tab.toServer = msg :: rest)
    (hmsg : msg.op ∈ s.stores.logged ∨ s.tab.JoinPending ∨ msg.op ∉ s.applied)
    {reply : List ServerMessage} (hreply : reply.countP ServerMessage.isJoinAck = 0)
    (hbacked : ∀ message ∈ reply, message.Backed s.stores.logged)
    (accepted : List OperationMessage) :
    Covered { s with
      tab := { s.tab with
        toServer := rest, toClient := s.tab.toClient ++ reply, accepted := accepted } } where
  stores := h.stores
  session := h.session
  channel := h.channel
  toClient message hmessage := by
    rcases List.mem_append.mp hmessage with hmessage | hmessage
    · exact h.toClient message hmessage
    · exact hbacked message hmessage
  replica hconnected hpending :=
    h.replica hconnected (not_joinPending hpending rfl (by simp [hreply]))
  applied hconnected hpending op hop := by
    have hpending' : ¬ s.tab.JoinPending := not_joinPending hpending rfl (by simp [hreply])
    rcases h.applied hconnected hpending' op hop with hlogged | ⟨msg', hmsg', heq⟩
    · exact Or.inl hlogged
    · rw [hserver] at hmsg'
      rcases List.mem_cons.mp hmsg' with rfl | hmsg'
      · subst heq
        exact Or.inl (hmsg.resolve_right fun hor => hor.elim hpending' fun hnot => hnot hop)
      · exact Or.inr ⟨msg', hmsg', heq⟩

lemma Covered.withChannel (h : s.Covered) {channel : List OperationEnvelope}
    (hchannel : ∀ envelope ∈ channel, envelope.op ∈ s.stores.logged) :
    Covered { s with channel := channel } :=
  ⟨h.stores, h.session, hchannel, h.toClient, h.replica, h.applied⟩

/-! ### The steps of the tab -/

lemma Covered.edit (h : s.Covered) (e : UserEdit) : (s.edit e).Covered := by
  obtain ⟨queued, hedited, hsent⟩ := s.tab.hook.edited_userEdit e
  have hops : (s.tab.hook.userEdit e).2.map OperationMessage.op =
      queued.map QueuedOperation.op := by
    rw [hsent, List.map_map]
    rfl
  refine ⟨h.stores, h.session, h.channel, h.toClient, fun hconnected hpending => ?_,
    fun hconnected hpending op hop => ?_⟩
  · obtain ⟨doc, hdoc, hbacked⟩ := h.replica hconnected hpending
    have hmono : s.stores.logged ∪ {op | op ∈ s.applied} ⊆
        s.stores.logged ∪ {op | op ∈ (s.edit e).applied} := by
      refine Set.union_subset_union_right _ fun op hop => ?_
      exact List.mem_append_left _ hop
    rcases hedited.replica with ⟨hsame, -⟩ | ⟨doc₀, doc', hdoc₀, hdoc', hedits⟩
    · exact ⟨doc, hsame.trans hdoc, hbacked.mono hmono⟩
    · obtain rfl : doc₀ = doc := Option.some.inj (hdoc₀.symm.trans hdoc)
      refine ⟨doc', hdoc', (hbacked.mono hmono).edits hedits fun op hop => Or.inr ?_⟩
      exact List.mem_append_right _ (hops ▸ hop)
  · rcases List.mem_append.mp hop with hop | hop
    · refine (h.applied hconnected hpending op hop).imp_right fun ⟨msg, hmsg, heq⟩ => ?_
      refine ⟨msg, ?_, heq⟩
      simp only [ServedTab.edit, Tab.edit, Tab.runHook]
      split
      · exact List.mem_append_left _ hmsg
      · exact hmsg
    · obtain ⟨msg, hmsg, rfl⟩ := List.mem_map.mp hop
      refine Or.inr ⟨msg, ?_, rfl⟩
      have hopen : s.tab.connected = true := hconnected
      simp only [ServedTab.edit, Tab.edit, Tab.runHook, hopen, if_true]
      exact List.mem_append_right _ hmsg

lemma Covered.isEdit (h : s.Covered) {op : RGAOperation} (hop : op ∈ s.stores.logged) :
    op.IsEdit := by
  obtain ⟨row, hrow, rfl⟩ := hop
  exact (h.stores.rows row hrow).2

/-- The hook has handled a message that is not a JOIN_ACK, and has sent nothing. -/
lemma Covered.handle_other (h : s.Covered) {message : ServerMessage} {rest : List ServerMessage}
    (hclient : s.tab.toClient = message :: rest) (hjoin : message.isJoinAck = false)
    {hook : CollaborativeDoc} {applied : List RGAOperation}
    (hreplica : ∀ doc, s.tab.hook.docRef = some doc →
      doc.Backed (s.stores.logged ∪ {op | op ∈ s.applied}) →
      ∃ doc', hook.docRef = some doc' ∧ doc'.Backed (s.stores.logged ∪ {op | op ∈ applied}))
    (happlied : ∀ op ∈ applied, op ∈ s.applied ∨ op ∈ s.stores.logged) :
    Covered { s with
      tab := ({ s.tab with toClient := rest } : Tab).runHook (hook, []), applied := applied } := by
  have hcount : rest.countP ServerMessage.isJoinAck =
      s.tab.toClient.countP ServerMessage.isJoinAck := by
    rw [hclient, List.countP_cons, hjoin]
    rfl
  have hserver : (({ s.tab with toClient := rest } : Tab).runHook (hook, [])).toServer =
      s.tab.toServer := by simp [Tab.runHook]
  refine ⟨h.stores, h.session, h.channel, fun message hmessage => ?_, fun hconnected hjoined => ?_,
    fun hconnected hjoined op hop => ?_⟩
  · exact h.toClient message (hclient ▸ List.mem_cons_of_mem _ hmessage)
  · obtain ⟨doc, hdoc, hbacked⟩ := h.replica hconnected (not_joinPending hjoined rfl hcount)
    exact hreplica doc hdoc hbacked
  · rcases happlied op hop with hop | hop
    · rw [hserver]
      exact h.applied hconnected (not_joinPending hjoined rfl hcount) op hop
    · exact Or.inl hop

lemma Covered.handle (h : s.Covered) (hstep : s.handle = some s') : s'.Covered := by
  rw [ServedTab.handle] at hstep
  split at hstep
  · simp at hstep
  · rename_i message rest hclient
    obtain rfl := Option.some.inj hstep
    have hmessage : message.Backed s.stores.logged :=
      h.toClient message (hclient ▸ List.mem_cons_self ..)
    cases message with
    | joinAck ack =>
        obtain ⟨hnodes, hmissed⟩ := hmessage
        have hops : ∀ op ∈ ack.missedOps.map OperationEnvelope.op, op ∈ s.stores.logged := by
          intro op hop
          obtain ⟨envelope, henvelope, rfl⟩ := List.mem_map.mp hop
          exact hmissed envelope henvelope
        have hcells : (ClientRGADocument.deserialize ack.snapshot.nodes ack.siteId).cells =
            (RGADocument.deserialize ack.snapshot.nodes).cells := by
          rw [ClientRGADocument.cells_deserialize, RGADocument.cells_deserialize]
        have hstart : (ClientRGADocument.deserialize ack.snapshot.nodes ack.siteId).Backed
            s.stores.logged := ⟨hcells ▸ hnodes.indexed.nodup, hcells ▸ hnodes.sound⟩
        have hdoc := hstart.applyOperations fun op hop => ⟨hops op hop, h.isEdit (hops op hop)⟩
        refine ⟨h.stores, h.session, h.channel, fun message hmessage => ?_, fun _ _ => ?_,
          fun _ _ op hop => Or.inl (hops op hop)⟩
        · exact h.toClient message (hclient ▸ List.mem_cons_of_mem _ hmessage)
        · exact ⟨_, rfl, hdoc.mono Set.subset_union_left⟩
    | broadcast envelope =>
        have hop : envelope.op ∈ s.stores.logged := hmessage
        refine h.handle_other hclient rfl (fun doc hdoc hbacked => ?_) fun op hop' => ?_
        · refine ⟨doc.applyOperation envelope.op, ?_, ?_⟩
          · simp [CollaborativeDoc.handleBroadcast, hdoc]
          · have hmono : s.stores.logged ∪ {op | op ∈ s.applied} ⊆
                s.stores.logged ∪ {op | op ∈ s.applied ++ [envelope.op]} :=
              Set.union_subset_union_right _ fun op hop => List.mem_append_left _ hop
            exact (hbacked.mono hmono).applyOperation (Or.inl hop) (h.isEdit hop)
        · rcases List.mem_append.mp hop' with hop' | hop'
          · exact Or.inl hop'
          · exact Or.inr (List.mem_singleton.mp hop' ▸ hop)
    | opAck clientSeq serverSeq =>
        exact h.handle_other hclient rfl (fun doc hdoc hbacked => ⟨doc, hdoc, hbacked⟩)
          fun op hop => Or.inl hop
    | error _ =>
        exact h.handle_other hclient rfl (fun doc hdoc hbacked => ⟨doc, hdoc, hbacked⟩)
          fun op hop => Or.inl hop

/-! ### The steps of the server -/

lemma Covered.joinedDocument (h : s.Covered) {joined : JoinedSession}
    (hjoined : joined ∈ s.session) : (s.joinedDocument joined).doc.Backed s.stores.logged := by
  rw [ServedTab.joinedDocument]
  cases hheld : joined.held with
  | none => exact h.stores.document
  | some cached => exact (h.session joined hjoined).2 cached hheld

lemma mem_missedReply {db : Database} {msg : JoinMessage} {envelope : OperationEnvelope}
    (h : envelope ∈ (missedReply db msg).missedOps) : envelope ∈ db.operations := by
  rw [missedReply] at h
  split at h
  · simp only at h
    split at h
    · simp at h
    · rw [getMissedOperations] at h
      split at h
      · simp at h
      · exact (Database.mem_of_mem_loadOperationsAfterSeq h).1
  · simp at h

lemma Covered.register (h : s.Covered) (sessionId : JSString) : (s.register sessionId).Covered := by
  have hstores : ({ s.stores with cache := some s.stores.document } : Stores).Backed
      s.stores.logged :=
    ⟨h.stores.rows, h.stores.snapshots,
      fun cached hcached => Option.some.inj hcached ▸ h.stores.document⟩
  refine ⟨hstores, fun joined hjoined => ?_, h.channel, h.toClient, h.replica, h.applied⟩
  obtain rfl := Option.some.inj hjoined
  exact ⟨fun envelope henvelope => ⟨envelope, mem_missedReply henvelope, rfl⟩, by simp⟩

lemma Covered.acknowledge (h : s.Covered) {joined : JoinedSession} (hjoined : joined ∈ s.session)
    (hstep : s.onTab (.joinAck (s.joinAckFor joined)) = some s') : s'.Covered := by
  obtain ⟨tab, htab, rfl⟩ := Option.map_eq_some_iff.mp hstep
  simp only [Tab.step] at htab
  split at htab
  · obtain rfl := Option.some.inj htab
    have hack : (ServerMessage.joinAck (s.joinAckFor joined)).Backed s.stores.logged := by
      constructor
      · simp only [joinAckFor, joinAck]
        split
        · refine (h.joinedDocument hjoined).of_cells_eq ?_
          rw [RGADocument.cells_deserialize, RGADocument.cells_serialize]
        · exact RGADocument.backed_empty.of_cells_eq rfl
      · intro envelope henvelope
        simp only [joinAckFor, joinAck] at henvelope
        split at henvelope
        · simp at henvelope
        · exact (h.session joined hjoined).1 envelope henvelope
    have hpending : ({ s.tab with
        joinAcked := true,
        toClient := s.tab.toClient ++ [.joinAck (s.joinAckFor joined)] } : Tab).JoinPending := by
      refine Or.inr ?_
      rw [List.countP_append]
      exact Nat.lt_of_lt_of_le Nat.zero_lt_one (Nat.le_add_left ..)
    refine ⟨h.stores, h.session, h.channel, fun message hmessage => ?_,
      fun _ hnot => absurd hpending hnot, fun _ hnot => absurd hpending hnot⟩
    rcases List.mem_append.mp hmessage with hmessage | hmessage
    · exact h.toClient message hmessage
    · exact List.mem_singleton.mp hmessage ▸ hack
  · simp at htab

lemma Covered.deliver (h : s.Covered) {handlers : Nat} (hstep : s.deliver handlers = some s') :
    s'.Covered := by
  rw [ServedTab.deliver] at hstep
  split at hstep
  · simp at hstep
  · rename_i envelope rest hchannel
    obtain rfl := Option.some.inj hstep
    have hop : envelope.op ∈ s.stores.logged :=
      h.channel envelope (hchannel ▸ List.mem_cons_self ..)
    have hbroadcasts : ∀ message ∈
        (if s.session.isSome then List.replicate handlers (.broadcast envelope) else []),
        message = ServerMessage.broadcast envelope := by
      intro message hmessage
      split at hmessage
      · exact List.eq_of_mem_replicate hmessage
      · simp at hmessage
    have hcount : (if s.session.isSome then List.replicate handlers (.broadcast envelope)
        else []).countP ServerMessage.isJoinAck = 0 := by
      rw [List.countP_eq_zero]
      intro message hmessage
      simp [hbroadcasts message hmessage, ServerMessage.isJoinAck]
    refine ⟨h.stores, h.session, fun envelope henvelope => ?_, fun message hmessage => ?_,
      fun hconnected hjoined =>
        h.replica hconnected (not_joinPending hjoined rfl (by simp [hcount])),
      fun hconnected hjoined =>
        h.applied hconnected (not_joinPending hjoined rfl (by simp [hcount]))⟩
    · exact h.channel envelope (hchannel ▸ List.mem_cons_of_mem _ henvelope)
    · rcases List.mem_append.mp hmessage with hmessage | hmessage
      · exact h.toClient message hmessage
      · rw [hbroadcasts message hmessage]
        exact hop

lemma Covered.evict (h : s.Covered) : s.evict.Covered := by
  refine ⟨⟨h.stores.rows, h.stores.snapshots,
      fun _ hcached => by simp [ServedTab.evict] at hcached⟩,
    fun joined hjoined => ?_, h.channel, h.toClient, h.replica, h.applied⟩
  obtain ⟨before, hbefore, rfl⟩ := Option.map_eq_some_iff.mp hjoined
  refine ⟨(h.session before hbefore).1, fun cached hcached => ?_⟩
  obtain rfl := Option.some.inj hcached
  exact h.joinedDocument hbefore

/-- A call of another client. -/
lemma Covered.call (h : s.Covered) {now : Nat} {session : ClientSession}
    {msg : ValidatedOperationMessage} {faults : Faults} {result : Stores × OperationOutcome}
    (hlost : s.stores.LosesRow s.replayWindowSeconds now session msg faults →
      msg.op ∈ s.stores.logged)
    (hresult : handleOperation s.replayWindowSeconds now session msg faults s.stores = result) :
    Covered { s with stores := result.1, channel := s.channel ++ result.2.published } := by
  obtain ⟨hlogged, hstored, hpublished⟩ := Stores.logged_handleOperation hresult
  have hbacked : result.1.Backed result.1.logged :=
    (h.stores.mono hlogged).handleOperation hstored (fun hlose => hlogged (hlost hlose)) hresult
  refine (h.withStores hlogged hbacked).withChannel fun envelope henvelope => ?_
  rcases List.mem_append.mp henvelope with henvelope | henvelope
  · exact hlogged (h.channel envelope henvelope)
  · exact hpublished envelope henvelope

/-- The answer to the next message of the tab. -/
lemma answer_eq {tab : Tab} {msg : OperationMessage} {rest : List OperationMessage}
    (hserver : tab.toServer = msg :: rest) (f : OperationMessage → List ServerMessage × Bool) :
    tab.answer f = some { tab with
      toServer := rest
      toClient := tab.toClient ++ (f msg).1
      accepted := if (f msg).2 then tab.accepted ++ [msg] else tab.accepted } := by
  rw [Tab.answer, hserver]

/-- The reply to a call is no JOIN_ACK and brings nothing. -/
lemma replyToTab_eq {msg : OperationMessage} {rest : List OperationMessage}
    (hserver : s.tab.toServer = msg :: rest) (stores : Stores) (outcome : OperationOutcome) :
    ∃ reply accepted, reply.countP ServerMessage.isJoinAck = 0 ∧
      (∀ message ∈ reply, ∀ O, message.Backed O) ∧
      s.replyToTab stores outcome = some { s.tab with
        toServer := rest, toClient := s.tab.toClient ++ reply, accepted := accepted } := by
  cases outcome with
  | success envelope =>
      refine ⟨[.opAck msg.clientSeq envelope.seq], _, rfl, ?_,
        answer_eq hserver fun msg => ([.opAck msg.clientSeq envelope.seq], true)⟩
      intro message hmessage O
      exact List.mem_singleton.mp hmessage ▸ trivial
  | error e =>
      refine ⟨[.error ⟨e.code, e.message, some msg.clientSeq⟩], _, rfl, ?_,
        answer_eq hserver fun msg => ([.error ⟨e.code, e.message, some msg.clientSeq⟩], false)⟩
      intro message hmessage O
      exact List.mem_singleton.mp hmessage ▸ trivial
  | thrown => exact ⟨[], _, rfl, by simp, answer_eq hserver fun _ => ([], _)⟩

lemma Covered.serve (h : s.Covered) {now : Nat} {faults : Faults}
    (hkept : s.Kept (.serve now faults)) (hstep : s.serve now faults = some s') : s'.Covered := by
  rw [ServedTab.serve] at hstep
  split at hstep
  · simp at hstep
  · rename_i hserver hsession
    obtain ⟨tab, htab, rfl⟩ := Option.map_eq_some_iff.mp hstep
    simp only [Tab.step, Option.some.injEq] at htab
    subst htab
    let closed : Tab := { s.tab with connected := false, toServer := [], toClient := [] }
    have hclosed : Covered { s with tab := closed, session := none } :=
      h.withSocket rfl (Or.inl rfl) s.joinMessage
    rwa [← hsession] at hclosed
  · rename_i msg rest joined hserver hsession
    have hhead : msg ∈ s.tab.toServer.head? := by rw [hserver]; rfl
    have hkept' := hkept joined hsession msg hhead
    split at hstep
    · rename_i hinvalid
      obtain ⟨tab, htab, rfl⟩ := Option.map_eq_some_iff.mp hstep
      rw [answer_eq hserver] at htab
      obtain rfl := Option.some.inj htab
      refine h.withReply hserver ?_ rfl ?_ _
      · by_cases hlogged : msg.op ∈ s.stores.logged
        · exact Or.inl hlogged
        · have hturned : s.TurnedAway now faults joined msg := by simp [TurnedAway, hinvalid]
          exact Or.inr ((hkept' hlogged).1 hturned)
      · intro message hmessage
        exact List.mem_singleton.mp hmessage ▸ trivial
    · rename_i valid hvalid
      have hop := op_of_validateOperation hvalid
      set result := s.call now faults joined valid with hresult
      obtain ⟨tab, htab, rfl⟩ := Option.map_eq_some_iff.mp hstep
      obtain ⟨reply, accepted, hcount, hreply, heq⟩ := s.replyToTab_eq hserver result.1 result.2
      obtain rfl := Option.some.inj (heq.symm.trans htab)
      have hcalled : Covered { s with
          stores := result.1, channel := s.channel ++ result.2.published } := by
        refine h.call (fun hlose => ?_) hresult.symm
        rw [hop]
        by_contra hlogged
        refine (hkept' hlogged).2 ?_
        simp only [Loses, hvalid]
        exact hlose
      obtain ⟨hlogged, hstored, -⟩ := Stores.logged_handleOperation hresult.symm
      refine hcalled.withReply hserver ?_ hcount
        (fun message hmessage => hreply message hmessage _) _
      by_cases hmsg : msg.op ∈ s.stores.logged
      · exact Or.inl (hlogged hmsg)
      · by_cases hstores : s.stores.StoresRow s.replayWindowSeconds now joined.session valid faults
        · exact Or.inl (hop ▸ hstored hstores)
        · have hturned : s.TurnedAway now faults joined msg := by
            simp only [TurnedAway, hvalid]
            exact hstores
          exact Or.inr ((hkept' hmsg).1 hturned)

/-- **One step.** -/
theorem Covered.step {a : ServedAction} (h : s.Covered) (hkept : s.Kept a)
    (hstep : s.step a = some s') : s'.Covered := by
  cases a with
  | edit e =>
      obtain rfl := Option.some.inj hstep
      exact h.edit e
  | connect =>
      obtain ⟨tab, htab, rfl⟩ := Option.map_eq_some_iff.mp hstep
      simp only [Tab.step] at htab
      split at htab
      · simp at htab
      · obtain rfl := Option.some.inj htab
        exact h.withSocket rfl (Or.inr rfl) _
  | disconnect =>
      simp only [ServedTab.step, Tab.step, Option.map_some, Option.some.injEq] at hstep
      subst hstep
      exact h.withSocket rfl (Or.inl rfl) s.joinMessage
  | reload =>
      simp only [ServedTab.step, Tab.step, Option.map_some, Option.some.injEq] at hstep
      subst hstep
      exact h.withSocket rfl (Or.inl rfl) s.joinMessage
  | handle => exact h.handle hstep
  | register sessionId =>
      simp only [ServedTab.step] at hstep
      split at hstep
      · obtain rfl := Option.some.inj hstep
        exact h.register sessionId
      · simp at hstep
  | acknowledge =>
      obtain ⟨joined, hjoined, hstep⟩ := Option.bind_eq_some_iff.mp hstep
      exact h.acknowledge hjoined hstep
  | serve now faults => exact h.serve hkept hstep
  | peer now session msg faults =>
      obtain rfl := Option.some.inj hstep
      refine h.call (fun hlose => ?_) rfl
      by_contra hlogged
      exact hkept hlogged hlose
  | deliver handlers => exact h.deliver hstep
  | evict =>
      obtain rfl := Option.some.inj hstep
      exact h.evict
  | snapshot =>
      obtain rfl := Option.some.inj hstep
      refine h.withStores Stores.logged_takeSnapshot.ge ?_
      rw [Stores.logged_takeSnapshot]
      exact h.stores.takeSnapshot

/-! ## Runs -/

/-- **Whatever an idle tab has applied is in the log**, in every run in which

* no operation that is not in the log yet is turned away after the tab, having handled its
  JOIN_ACK, has applied it, and
* no call changes the server's document and then fails to store its row. -/
theorem replica_logged {docId clientId userId : JSString} {replayWindowSeconds : Nat}
    (h : Reach step Kept (start docId clientId userId replayWindowSeconds) s) (hidle : s.Idle) :
    s.ReplicaLogged := by
  have hcovered : s.Covered :=
    h.invariant (covered_start ..) fun _ _ _ hs hkept hstep => hs.step hkept hstep
  exact hcovered.replicaLogged hidle

/-! ## One typed character -/

section Examples

instance (d : RGADocument) : DecidablePred d.Unaffected
  | .insert _ => inferInstanceAs (Decidable (_ = true ∨ ¬ _ = true))
  | .delete op =>
      inferInstanceAs (Decidable (∀ node ∈ d.indexGet (uidKey op.uid), node.tombstoned = true))
  | .format _ => isTrue trivial
  | .rollback _ => isTrue trivial

instance (s : Stores) (op : RGAOperation) : Decidable (op ∈ s.logged) :=
  inferInstanceAs (Decidable (∃ row ∈ s.db.operations, row.op = op))

instance (s : Tab) : Decidable s.JoinPending :=
  inferInstanceAs (Decidable (s.joinAcked = false ∨ _))

instance (s : ServedTab) (now : Nat) (faults : Faults) (joined : JoinedSession)
    (msg : OperationMessage) :
    Decidable (s.TurnedAway now faults joined msg) := by
  unfold TurnedAway Stores.StoresRow Stores.Passes
  split <;> infer_instance

instance (s : ServedTab) (now : Nat) (faults : Faults) (joined : JoinedSession)
    (msg : OperationMessage) : Decidable (s.Loses now faults joined msg) := by
  unfold Loses Stores.LosesRow Stores.Passes
  split <;> infer_instance

instance (s : ServedTab) : DecidablePred s.Kept := fun a => by
  cases a <;> unfold Kept Stores.LosesRow Stores.Passes <;> infer_instance

/-- A tab joins an empty document, and its user types a character, which the server handles. -/
def typing (faults : Faults) : List ServedAction :=
  [.connect, .register (JSString.lit "s"), .acknowledge, .handle,
    .edit (.single (.insert 0 (JSString.lit "x") (JSString.lit "n"))), .serve 0 faults, .handle]

/-- The tab before it joins. -/
private def opened : ServedTab := start (JSString.lit "d") (JSString.lit "a") (JSString.lit "u") 300

/-- The connection is lost before the OP_ACK.  On the next one another character is typed and turned
away before the JOIN_ACK, with which the tab sends both again: the first is turned away as a replay,
the second is stored.  Both are broadcast. -/
def rejoining : List ServedAction :=
  (typing .none).dropLast ++
    [.disconnect, .connect, .register (JSString.lit "t"),
      .edit (.single (.insert 1 (JSString.lit "y") (JSString.lit "m"))),
      .serve 0 { Faults.none with rateLimited := some 100 }, .acknowledge, .handle, .handle,
      .serve 0 .none, .handle, .serve 0 .none, .handle, .deliver 1, .handle, .deliver 1, .handle]

/-- The tab after `rejoining`. -/
def rejoined : ServedTab := (runAllowed step Kept opened rejoining).get (by decide +kernel)

theorem replica_logged_typed :
    rejoined.ReplicaLogged ∧ rejoined.stores.db.operations.length = 2 ∧
      rejoined.tab.hook.text = JSString.lit "xy" :=
  ⟨replica_logged (reach_get _) ⟨by decide +kernel, by decide +kernel, by decide +kernel,
    by decide +kernel⟩, by decide +kernel, by decide +kernel⟩

/-- The rate limiter turns the character away, and the tab goes on showing it. -/
theorem not_forall_replica_logged :
    ¬ ∀ s, Reach step (fun _ _ => True) opened s → s.Idle → s.ReplicaLogged := by
  intro h
  have hlogged := h ((runAllowed step (fun _ _ => True) opened
    (typing { Faults.none with rateLimited := some 100 })).get (by decide)) (reach_get _)
    ⟨by decide, by decide, by decide, by decide⟩
  exact absurd hlogged.applied (by decide)

end Examples

end ServedTab

end SyncEngine
