import SyncEngine.Crdt.Convergence
import SyncEngine.Crdt.Encoding
import SyncEngine.Lib.Transition
import SyncEngine.System.CausalFlow

/-!
# Causality of the stored log

A new worker and `reconstructAtSeq` replay the log in the order of its seqs, without any
buffering, so every row has to come after the row that it builds on (`StoredCausally`).  Rows
come from sessions that append independently of each other.

A client builds on what it has made, on what it was broadcast and on the document of its
JOIN_ACK.  The first two are stored by then or are stored before it.  The third is serialized
from memory, where an operation is applied before it is stored: a client that joins in between
can build on an operation whose row comes later (`not_forall_storedCausally`).  It is the only
way: as long as no JOIN_ACK shows a node whose INSERT has not been stored, the log is causally
ordered in every reachable state (`storedCausally`).
-/

namespace SyncEngine

open ReplicatedList CausalReplay Transition

/-- What an operation builds on is stored with a smaller seq, and a replay of the log in the
order of its seqs drops nothing. -/
structure StoredCausally (db : Database) : Prop where
  prerequisite_stored : ∀ row ∈ db.operations, ∀ u, row.op.prerequisite = some u →
    ∃ row' ∈ db.operations, row'.op.inserted = some u ∧ row'.seq < row.seq
  replayed : ∀ pre row post, Database.orderBySeq db.operations = pre ++ row :: post →
    ((RGADocument.empty.applyOperations (pre.map OperationEnvelope.op)).applyOperation row.op).2 =
      true

/-- A causally valid log, in the order of its seqs. -/
lemma storedCausally_of_causallyValid {db : Database}
    (horder : db.operations.Pairwise fun row row' => row.seq < row'.seq)
    (hvalid : CausallyValid (db.operations.map OperationEnvelope.op))
    (hedits : ∀ row ∈ db.operations, row.op.IsEdit ∧ row.op.uid ≠ rootUID) :
    StoredCausally db := by
  -- what a row needs is given by the rows in front of it
  have hgiven : ∀ pre row post, db.operations = pre ++ row :: post →
      CausallyValid (pre.map OperationEnvelope.op) ∧
        ∀ u, row.op.prerequisite = some u → ∃ row' ∈ pre, row'.op.inserted = some u := by
    intro pre row post hsplit
    have hfirst : CausallyValid (pre.map OperationEnvelope.op ++ [row.op]) := by
      have hall : pre.map OperationEnvelope.op ++ [row.op] ++ post.map OperationEnvelope.op =
          db.operations.map OperationEnvelope.op := by rw [hsplit]; simp
      exact Causal.of_append (hall ▸ hvalid)
    obtain ⟨hpre, hneeds⟩ := causal_concat_iff.mp hfirst
    refine ⟨hpre, fun u hu => ?_⟩
    obtain ⟨op, hop, hgives⟩ := hneeds u hu
    obtain ⟨row', hrow', rfl⟩ := List.mem_map.mp hop
    exact ⟨row', hrow', hgives⟩
  refine ⟨fun row hrow u hu => ?_, fun pre row post hsplit => ?_⟩
  · obtain ⟨pre, post, hsplit⟩ := List.append_of_mem hrow
    obtain ⟨row', hrow', hgives⟩ := (hgiven pre row post hsplit).2 u hu
    rw [hsplit] at horder ⊢
    exact ⟨row', by simp [hrow'], hgives,
      (List.pairwise_append.mp horder).2.2 row' hrow' row (List.mem_cons_self ..)⟩
  · have hsorted : Database.orderBySeq db.operations = db.operations :=
      (horder.imp fun h => Nat.le_of_lt h).insertionSort_eq
    rw [hsorted] at hsplit
    obtain ⟨hpre, hneeds⟩ := hgiven pre row post hsplit
    have hmem : ∀ row' ∈ pre, row' ∈ db.operations := fun row' h => hsplit ▸ by simp [h]
    obtain ⟨hedit, hroot⟩ := hedits row (hsplit ▸ by simp)
    -- what the row needs was inserted by a row before it, and nothing takes a node away
    refine RGADocument.applyOperation_of_needs hroot hedit fun u hu => ?_
    obtain ⟨row', hrow', hgives⟩ := hneeds u hu
    have hencodes : Encodes (RGADocument.empty.applyOperations (pre.map OperationEnvelope.op)).cells
        row'.op := by
      refine RGADocument.encodes_of_causallyValid hpre ?_ ?_ (List.mem_map_of_mem hrow') <;>
      · rw [List.forall_mem_map]
        intro row₀ h
        first | exact (hedits row₀ (hmem row₀ h)).2 | exact (hedits row₀ (hmem row₀ h)).1
    obtain ⟨e, he⟩ := exists_edit (hedits row' (hmem row' hrow')).1
    exact settled_gives (hencodes e he) ((RGAOperation.gives_of_edit he).symm ▸ hgives)

namespace Collaboration

open WorkerPool

variable {W C : Type*} [DecidableEq W] [DecidableEq C] {P : Participants W C}
  {s s' : Collaboration W C} {a : Action W C} {c : C}

/-- A JOIN_ACK shows no node whose INSERT has not been stored. -/
def JoinsStored (P : Participants W C) (s : Collaboration W C) : Action W C → Prop
  | .acknowledge c => ∀ doc ∈ s.joinDocument P c, ∀ u ∈ ids doc.cells,
      ∃ row ∈ s.pool.db.operations, row.op.inserted = some u
  | _ => True

/-- What may happen in a run: no call is turned away, no cache drops its entry, no tombstones are
collected, and JOIN_ACKs show only nodes whose INSERT has been stored. -/
def JoinsInStep (P : Participants W C) (s : Collaboration W C) (a : Action W C) : Prop :=
  s.Undisturbed a ∧ s.JoinsStored P a

/-- What every action of such a run keeps. -/
structure LogInvariant (P : Participants W C) (s : Collaboration W C) : Prop
    extends Running P s where
  order : StoresInOrder s.pool
  causal : CausallyValid (Gate.log.record s.pool)
  contributing : ∀ c, Contributing .log s (Gate.log.record s.pool) c

omit [DecidableEq W] [DecidableEq C] in
lemma logInvariant_start (snapshotOpsThreshold : Nat) :
    LogInvariant P (start P snapshotOpsThreshold) where
  toRunning := running_start _
  order := List.Pairwise.nil
  causal := causal_nil
  contributing c := by
    have hpending : (start P snapshotOpsThreshold).pending .log c = [] := by
      simp [pending, inProcess, queued, start]
    rw [Contributing, hpending]
    refine .of_seen causal_nil ?_
    rintro u ⟨v, hv, -⟩
    simp [start, Connection.view, CollaborativeDoc.new, viewFrom] at hv

omit [DecidableEq W] [DecidableEq C] in
lemma told_stored (hrunning : Running P s) (hjoins : s.JoinsStored P a) :
    ∀ u ∈ s.told P a, ∃ op ∈ Gate.log.record s.pool, u ∈ op.gives := by
  intro u hu
  cases a with
  | acknowledge c =>
      obtain ⟨doc, hdoc, hu⟩ := hu
      obtain ⟨row, hrow, hinserted⟩ := hjoins doc hdoc u hu
      exact ⟨row.op, List.mem_map_of_mem hrow, hinserted⟩
  | deliver w =>
      obtain ⟨envelope, henvelope, hu⟩ := hu
      exact ⟨envelope.op, List.mem_map_of_mem (hrunning.pool.published henvelope), hu⟩
  | _ => exact absurd hu id

lemma LogInvariant.step (h : LogInvariant P s) (hallowed : s.JoinsInStep P a)
    (hstep : s.step P a = some s') : LogInvariant P s' := by
  have hrefused := hallowed.1.notRefused
  obtain ⟨hcausal, hcontributing⟩ := contributing_record (g := .log) h.toRunning hrefused hstep
    (by simp) (told_stored h.toRunning hallowed.2) h.causal h.contributing
  refine ⟨h.toRunning.step hrefused hstep, ?_, hcausal, hcontributing⟩
  rcases pool_step hstep with hpool | ⟨b, hb, -⟩
  · exact hpool ▸ h.order
  · exact h.order.step hb

/-- **The stored log is causally ordered** in every state that is reached while JOIN_ACKs show
no node whose INSERT has not been stored. -/
theorem storedCausally {snapshotOpsThreshold : Nat}
    (h : Reach (step P) (JoinsInStep P) (start P snapshotOpsThreshold) s) :
    StoredCausally s.pool.db := by
  have hinv : LogInvariant P s :=
    h.invariant (logInvariant_start _) fun _ _ _ hinv hallowed => hinv.step hallowed
  refine storedCausally_of_causallyValid hinv.order hinv.causal fun row hrow => ?_
  obtain ⟨msg, hmsg⟩ := hinv.pool.recorded.exists_msg hrow
  rw [hmsg]
  exact ⟨msg.isEdit, msg.uid_ne_root⟩

instance (s : Collaboration W C) : ∀ a, Decidable (s.JoinsStored P a)
  | .acknowledge c => inferInstanceAs (Decidable (∀ doc ∈ s.joinDocument P c, ∀ u ∈ ids doc.cells,
      ∃ row ∈ s.pool.db.operations, row.op.inserted = some u))
  | .join _ | .register _ | .edit .. | .receive _ | .process _ | .advance _ | .reply _
  | .deliver _ | .handle _ | .background _ => isTrue trivial

instance (s : Collaboration W C) (a : Action W C) : Decidable (s.JoinsInStep P a) :=
  inferInstanceAs (Decidable (s.Undisturbed a ∧ s.JoinsStored P a))

/-- The first client joins, and its first character is applied on the server. -/
def appliedOnce : List (Action Unit Bool) :=
  [.join false, .background (.load () 0), .background (.load () 0), .background (.load () 0),
    .register false, .acknowledge false, .handle false,
    .edit false (.insert 0 (JSString.lit "x") (JSString.lit "n")), .receive false, .process false,
    .advance false, .advance false, .advance false]

/-- The second client joins, and its character behind the first one is stored. -/
def builtOn : List (Action Unit Bool) :=
  [.join true, .register true, .acknowledge true, .handle true,
    .edit true (.insert 1 (JSString.lit "y") (JSString.lit "m")), .receive true, .process true,
    .advance true, .advance true, .advance true, .advance true]

/-- The second client joins when the first character has been stored. -/
theorem storedCausally_builtOn :
    StoredCausally ((runAllowed (step .pair) (JoinsInStep .pair) (start .pair 100)
      (appliedOnce ++ .advance false :: builtOn)).get (by decide +kernel)).pool.db :=
  storedCausally (reach_get (by decide +kernel))

/-- It joins before that. -/
def builtOnUnstored : Collaboration Unit Bool :=
  (runAllowed (step .pair) Undisturbed (start .pair 100) (appliedOnce ++ builtOn)).get
    (by decide +kernel)

/-- Its character is stored first. -/
theorem not_forall_storedCausally :
    ¬ ∀ s : Collaboration Unit Bool,
      Reach (step .pair) Undisturbed (start .pair 100) s → StoredCausally s.pool.db := by
  intro h
  have hlog := (h builtOnUnstored (reach_get _)).prerequisite_stored
  have hrow : ∃ row ∈ builtOnUnstored.pool.db.operations,
      row.op.prerequisite = some ⟨1, JSString.lit "a"⟩ ∧
        ∀ row' ∈ builtOnUnstored.pool.db.operations,
          row'.op.inserted ≠ some ⟨1, JSString.lit "a"⟩ := by decide +kernel
  obtain ⟨row, hmem, hprerequisite, hnone⟩ := hrow
  obtain ⟨row', hmem', hinserted, -⟩ := hlog row hmem _ hprerequisite
  exact hnone row' hmem' hinserted

end Collaboration

end SyncEngine
