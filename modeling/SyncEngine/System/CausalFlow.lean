import SyncEngine.Lib.OrderedBroadcast
import SyncEngine.System.Sessions

/-!
# The way of an operation

An operation that a client has made waits on the socket, then in the queue of its session, then
in the call that its session is in, until the call has taken it through three gates: it is
applied to the entry of a load, it is stored, and it is published.  As a session makes one call
at a time, the operations of a client pass every gate in the order in which they were made
(`pending_move`).

`contributes_step` is the step lemma of everything that is said about causality: whatever is
recorded at a gate, it is causal together with what any of the clients has yet to take through
it, as long as nobody is told of a node in some other way.
-/

namespace SyncEngine

open ReplicatedList CausalReplay OrderedBroadcast

/-- Where an operation gets known. -/
inductive Gate where
  /-- The entry that the call was given. -/
  | entry
  /-- The log in the database. -/
  | log
  /-- The Redis channel. -/
  | channel
deriving DecidableEq

/-- The call has taken its operation through the gate. -/
def Gate.passed : Gate → CallStage → Bool
  | .entry, .applied .. => true
  | .log, .applied _ _ progress => progress.envelope.isSome
  | .channel, .applied _ _ (.published _) => true
  | .channel, .applied _ _ (.done _) => true
  | _, _ => false

/-- The operations that have been taken through the gate, in order; an entry keeps no record. -/
def Gate.record {W K : Type*} (g : Gate) (pool : WorkerPool W K) : List RGAOperation :=
  match g with
  | .entry => []
  | .log => pool.db.operations.map OperationEnvelope.op
  | .channel => pool.channel.map OperationEnvelope.op

namespace Collaboration

open WorkerPool

variable {W C : Type*} [DecidableEq W] [DecidableEq C] {P : Participants W C}
  {s s' : Collaboration W C} {a : Action W C} {c : C} {g : Gate}

/-! ## Sessions that refuse nothing -/

/-- A call that no check of `handleOperation` turns away. -/
structure ServedCall (P : Participants W C) (c : C) (call : OperationCall W) : Prop where
  worker_eq : call.worker = P.home c
  session_eq : call.session = P.session c
  sent : SentBy (P.siteId c) call.msg.op
  not_failed : ∀ error, call.stage ≠ .failed error

/-- What holds of a client and its session along every run. -/
structure Served (P : Participants W C) (s : Collaboration W C) (c : C) : Prop where
  regular : (s.connections c).Regular (P.siteId c)
  sent : ∀ op ∈ s.queued c, SentBy (P.siteId c) op
  call : ∀ call, s.inProcess c = some call → ServedCall P c call

omit [DecidableEq W] [DecidableEq C] in
lemma served_start (snapshotOpsThreshold : Nat) (c : C) :
    Served P (start P snapshotOpsThreshold) c :=
  ⟨Connection.regular_start _, by simp [queued, start], by simp [inProcess, start]⟩

omit [DecidableEq W] [DecidableEq C] in
lemma ServedCall.siteIdMismatch_eq_none {call : OperationCall W} (h : ServedCall P c call) :
    call.siteIdMismatch = none := by
  rw [OperationCall.siteIdMismatch]
  split
  · rename_i op hop
    have hsite : op.uid.siteId = call.session.siteId := by
      rw [h.session_eq]
      exact h.sent.siteId_eq op.uid (by rw [hop]; rfl)
    rw [if_neg (not_not.mpr hsite)]
  · rfl

omit [DecidableEq W] [DecidableEq C] in
lemma ServedCall.progress {call : OperationCall W} {stage : CallStage} (h : ServedCall P c call)
    (hprogress : Progress s.pool s'.pool call call.stage stage) :
    ServedCall P c { call with stage := stage } := by
  refine ⟨h.worker_eq, h.session_eq, h.sent, fun error hfailed => ?_⟩
  subst hfailed
  generalize call.stage = before at hprogress
  cases hprogress with
  | refuse _ herror _ => simp [h.siteIdMismatch_eq_none] at herror

omit [DecidableEq W] [DecidableEq C] in
/-- **What one action means for a client**, whatever the others do. -/
theorem Served.move (h : Served P s c) (hpool : PoolRegular s.pool) (hmove : Move P s s' c a) :
    Served P s' c ∧ ∃ made, ViewMove P s s' c a made ∧ SessionMove P s s' c a made := by
  obtain ⟨hregular, made, hview, hsession, hmade⟩ := client_move hpool h.regular h.sent hmove
  refine ⟨⟨hregular, fun op hop => ?_, fun call hcall => ?_⟩, made, hview, hsession⟩
  · exact (hsession.queued_subset op hop).elim (h.sent op) (hmade op)
  · cases hsession with
    | queue _ _ hprocess _ => exact h.call call (hprocess ▸ hcall)
    | begin msg _ _ hprocess hqueued =>
        obtain rfl := Option.some.inj (hprocess.symm.trans hcall)
        exact ⟨rfl, rfl, h.sent _ (hqueued ▸ List.mem_cons_self ..), nofun⟩
    | advance call₀ stage hbefore hprocess hprogress _ =>
        obtain rfl := Option.some.inj (hprocess.symm.trans hcall)
        exact (h.call call₀ hbefore).progress hprogress
    | reply _ _ _ _ _ hprocess _ => simp [hprocess] at hcall

/-- What holds of the pool and of every client along every run. -/
structure Running (P : Participants W C) (s : Collaboration W C) : Prop where
  pool : PoolRegular s.pool
  served : ∀ c, Served P s c

omit [DecidableEq W] [DecidableEq C] in
lemma running_start (snapshotOpsThreshold : Nat) : Running P (start P snapshotOpsThreshold) :=
  ⟨poolRegular_start _, served_start _⟩

lemma Running.step (h : Running P s) (hrefused : NotRefused a) (hstep : s.step P a = some s') :
    Running P s' :=
  ⟨h.pool.step hstep, fun c => ((h.served c).move h.pool (step_move hrefused hstep c)).1⟩

/-! ## Gates -/

/-- What a client has made and not yet taken through the gate, oldest first. -/
def pending (g : Gate) (s : Collaboration W C) (c : C) : List RGAOperation :=
  (match s.inProcess c with
    | some call => if g.passed call.stage then [] else [call.msg.op]
    | none => []) ++ s.queued c

omit [DecidableEq W] [DecidableEq C] in
lemma Gate.passed_progress {call : OperationCall W} {stage : CallStage}
    (h : Progress s.pool s'.pool call call.stage stage) (hpassed : g.passed call.stage = true) :
    g.passed stage = true := by
  generalize call.stage = before at h hpassed
  cases h <;> cases g <;> first | rfl | simp [Gate.passed] at hpassed

omit [DecidableEq W] [DecidableEq C] in
/-- A call that has been answered has taken its operation through all gates. -/
lemma passed_of_replyTo {call : OperationCall W} (h : ServedCall P c call)
    {message : ServerMessage} (hreply : replyTo call = some message) :
    g.passed call.stage = true := by
  have hfailed := h.not_failed
  rw [replyTo] at hreply
  split at hreply
  · rename_i hstage
    rw [hstage]
    cases g <;> rfl
  · rename_i error hstage
    exact absurd hstage (hfailed error)
  · simp at hreply

/-- The call that the session of `c` is in takes its operation through the gate. -/
structure Passing (g : Gate) (s s' : Collaboration W C) (c : C) (call : OperationCall W)
    (stage : CallStage) : Prop where
  before : s.inProcess c = some call
  after : s'.inProcess c = some { call with stage := stage }
  progress : Progress s.pool s'.pool call call.stage stage
  closed : g.passed call.stage = false
  passed : g.passed stage = true

/-- How an action changes what a client has yet to take through the gate. -/
inductive PendingMove (g : Gate) (s s' : Collaboration W C) (c : C) :
    Action W C → List RGAOperation → Prop
  | keep {a : Action W C} (made : List RGAOperation)
      (hpassed : ∀ call call', s.inProcess c = some call → s'.inProcess c = some call' →
        g.passed call'.stage = g.passed call.stage)
      (h : s'.pending g c = s.pending g c ++ made) : PendingMove g s s' c a made
  | pass (call : OperationCall W) (stage : CallStage) (hpassing : Passing g s s' c call stage)
      (h : s.pending g c = call.msg.op :: s'.pending g c) : PendingMove g s s' c (.advance c) []

omit [DecidableEq W] [DecidableEq C] in
/-- **Operations pass a gate in the order in which they were made.** -/
theorem Served.pending_move (h : Served P s c) {made : List RGAOperation}
    (hsession : SessionMove P s s' c a made) : PendingMove g s s' c a made := by
  cases hsession with
  | queue _ _ hprocess hqueued =>
      refine .keep made (fun call call' hcall hcall' => ?_) ?_
      · rw [hprocess] at hcall'
        rw [Option.some.inj (hcall'.symm.trans hcall)]
      · rw [pending, pending, hprocess, hqueued, List.append_assoc]
  | begin msg _ hbefore hprocess hqueued =>
      refine .keep [] (fun call call' hcall => by simp [hbefore] at hcall) ?_
      have hclosed : g.passed .rateLimit = false := by cases g <;> rfl
      rw [pending, pending, hbefore, hprocess, hqueued]
      simp [hclosed]
  | advance call stage hbefore hprocess hprogress hqueued =>
      by_cases hsame : g.passed stage = g.passed call.stage
      · refine .keep [] (fun call₀ call' hcall hcall' => ?_) ?_
        · obtain rfl := Option.some.inj (hbefore.symm.trans hcall)
          obtain rfl := Option.some.inj (hprocess.symm.trans hcall')
          exact hsame
        · rw [pending, pending, hbefore, hprocess, hqueued]
          simp [hsame]
      · have hclosed : g.passed call.stage = false := by
          refine Bool.eq_false_iff.mpr fun hpassed => hsame ?_
          rw [hpassed, Gate.passed_progress hprogress hpassed]
        have hpassed : g.passed stage = true := by
          by_contra hopen
          rw [Bool.not_eq_true] at hopen
          exact hsame (hopen.trans hclosed.symm)
        refine .pass call stage ⟨hbefore, hprocess, hprogress, hclosed, hpassed⟩ ?_
        rw [pending, pending, hbefore, hprocess, hqueued]
        simp [hclosed, hpassed]
  | reply call message _ hbefore hreply hprocess hqueued =>
      refine .keep [] (fun call₀ call' _ hcall' => by simp [hprocess] at hcall') ?_
      rw [pending, pending, hbefore, hprocess, hqueued]
      simp [passed_of_replyTo (h.call call hbefore) hreply]

/-- No call takes its operation through the gate. -/
def Quiet (g : Gate) (s s' : Collaboration W C) : Prop :=
  ∀ c call call', s.inProcess c = some call → s'.inProcess c = some call' →
    g.passed call'.stage = g.passed call.stage

/-- A client sees what it sees, and what it makes comes last in what it has yet to take through
the gate. -/
def Goes (P : Participants W C) (g : Gate) (s s' : Collaboration W C) (a : Action W C) (c : C)
    (made : List RGAOperation) : Prop :=
  ViewMove P s s' c a made ∧ s'.pending g c = s.pending g c ++ made

omit [DecidableEq W] [DecidableEq C] in
/-- **What an action means at a gate**: nobody takes an operation through it, or one client does
so with the oldest it has. -/
theorem gate_move (hrunning : Running P s) (hmove : ∀ c, Move P s s' c a) (g : Gate) :
    (Quiet g s s' ∧ ∀ c, ∃ made, Goes P g s s' a c made) ∨
      ∃ c call stage, a = .advance c ∧ Passing g s s' c call stage ∧
        s.pending g c = call.msg.op :: s'.pending g c ∧ ViewMove P s s' c a [] ∧
        ∀ c', c' ≠ c → ∃ made, Goes P g s s' a c' made := by
  have hall : ∀ c, ∃ made, ViewMove P s s' c a made ∧ PendingMove g s s' c a made := by
    intro c
    obtain ⟨-, made, hview, hsession⟩ := (hrunning.served c).move hrunning.pool (hmove c)
    exact ⟨made, hview, (hrunning.served c).pending_move hsession⟩
  by_cases hquiet : Quiet g s s'
  · refine Or.inl ⟨hquiet, fun c => ?_⟩
    obtain ⟨made, hview, hpending⟩ := hall c
    cases hpending with
    | keep _ _ h => exact ⟨made, hview, h⟩
    | pass call stage hpassing _ =>
        have hsame := hquiet c _ _ hpassing.before hpassing.after
        simp [hpassing.closed, hpassing.passed] at hsame
  · simp only [Quiet, not_forall] at hquiet
    obtain ⟨c, call, call', hbefore, hafter, hne⟩ := hquiet
    obtain ⟨made, hview, hpending⟩ := hall c
    cases hpending with
    | keep _ hpassed _ => exact absurd (hpassed call call' hbefore hafter) hne
    | pass call₀ stage hpassing h =>
        refine Or.inr ⟨c, call₀, stage, rfl, hpassing, h, hview, fun c' hc' => ?_⟩
        obtain ⟨made', hview', hpending'⟩ := hall c'
        cases hpending' with
        | keep _ _ h' => exact ⟨made', hview', h'⟩
        | pass _ _ _ _ => exact absurd rfl hc'

/-! ## What is on record -/

omit [DecidableEq W] [DecidableEq C] in
lemma record_congr (h : SameLog s.pool s'.pool) : g.record s'.pool = g.record s.pool := by
  cases g with
  | entry => rfl
  | log => rw [Gate.record, Gate.record, h.operations_eq]
  | channel => rw [Gate.record, Gate.record, h.channel_eq]

omit [DecidableEq W] [DecidableEq C] in
/-- The record grows when an operation passes, and then only. -/
lemma record_of_progress (hg : g ≠ .entry) (hrec : Recorded s.pool) {k : C × Nat}
    {call : OperationCall W} {stage : CallStage} (hcall : s.pool.calls k = some call)
    (h : Progress s.pool s'.pool call call.stage stage) :
    g.record s'.pool = g.record s.pool ++
      if g.passed stage = g.passed call.stage then [] else [call.msg.op] := by
  have hsame : ∀ {before : CallStage}, SameLog s.pool s'.pool → g.passed stage = g.passed before →
      g.record s'.pool = g.record s.pool ++
        if g.passed stage = g.passed before then [] else [call.msg.op] := by
    intro before hsame heq
    rw [if_pos heq, List.append_nil, record_congr hsame]
  generalize hbefore : call.stage = before at h
  cases h with
  | append n ok envelope henvelope hoperations hchannel =>
      cases g with
      | entry => exact absurd rfl hg
      | log =>
          rw [Gate.record, Gate.record, hoperations, henvelope]
          simp [Gate.passed, StoreProgress.envelope, Database.appendOperation, OperationCall.params]
      | channel => simp [Gate.record, hchannel, Gate.passed]
  | publish n ok envelope hoperations hchannel =>
      have hop := (hrec.stored_mem k call envelope hcall
        (OperationCall.stored_of_stage hbefore)).2
      cases g with
      | entry => exact absurd rfl hg
      | log => simp [Gate.record, hoperations, Gate.passed, StoreProgress.envelope]
      | channel => simp [Gate.record, hchannel, Gate.passed, hop]
  | passLimit h => exact hsame h (by cases g <;> rfl)
  | refuse _ _ h => exact hsame h (by cases g <;> rfl)
  | ask _ h => exact hsame h (by cases g <;> rfl)
  | apply _ _ h => exact hsame h (by cases g <;> first | exact absurd rfl hg | rfl)
  | update _ _ _ h => exact hsame h (by cases g <;> rfl)
  | finish _ _ _ h => exact hsame h (by cases g <;> rfl)

lemma advance_inProcess (h : s.step P (.advance c) = some s') :
    ∃ call stage, s.inProcess c = some call ∧ s'.inProcess c = some { call with stage := stage } ∧
      Progress s.pool s'.pool call call.stage stage := by
  cases stepped h with
  | advance c pool hprocessing hpool =>
      obtain ⟨call, stage, hcall, hcalls, -, hprogress⟩ := advance_progress hpool
      refine ⟨call, stage, ?_, ?_, hprogress⟩
      · rw [inProcess, if_pos hprocessing, hcall]
      · rw [inProcess, callInProcess, if_pos hprocessing]
        exact (congrFun hcalls _).trans (Function.update_self ..)

/-- The log and the channel change with the progress of a session's call only. -/
lemma step_progress (h : s.step P a = some s') : SameLog s.pool s'.pool ∨
    ∃ c call stage, s.inProcess c = some call ∧ s'.inProcess c = some { call with stage := stage } ∧
      Progress s.pool s'.pool call call.stage stage := by
  rcases pool_step h with hpool | ⟨b, hb, hadvance, -⟩
  · rw [hpool]
    exact Or.inl ⟨rfl, rfl⟩
  · rcases log_step hb with hsame | ⟨k, -, -, rfl, -⟩
    · exact Or.inl hsame
    · obtain ⟨c, rfl, -⟩ := hadvance k rfl
      exact Or.inr ⟨c, advance_inProcess h⟩

omit [DecidableEq W] [DecidableEq C] in
lemma calls_of_inProcess {call : OperationCall W} (h : s.inProcess c = some call) :
    s.pool.calls (s.callInProcess c) = some call := by
  rw [inProcess] at h
  split at h
  · exact h
  · simp at h

lemma record_of_quiet (hg : g ≠ .entry) (hrec : Recorded s.pool) (h : s.step P a = some s')
    (hquiet : Quiet g s s') : g.record s'.pool = g.record s.pool := by
  rcases step_progress h with hsame | ⟨c, call, stage, hbefore, hafter, hprogress⟩
  · exact record_congr hsame
  · rw [record_of_progress hg hrec (calls_of_inProcess hbefore) hprogress,
      if_pos (hquiet c call _ hbefore hafter), List.append_nil]

omit [DecidableEq W] [DecidableEq C] in
lemma record_of_passing (hg : g ≠ .entry) (hrec : Recorded s.pool) {call : OperationCall W}
    {stage : CallStage} (h : Passing g s s' c call stage) :
    g.record s'.pool = g.record s.pool ++ [call.msg.op] := by
  rw [record_of_progress hg hrec (calls_of_inProcess h.before) h.progress,
    if_neg (by simp [h.passed, h.closed])]

/-! ## What clients build on -/

/-- The nodes a client can build on, or will once it has handled what is waiting. -/
def seen (s : Collaboration W C) (c : C) : Set UID :=
  {u | ∃ v, (s.connections c).view = some v ∧
    (u ∈ ids v.cells ∨ ∃ envelope ∈ v.waiting, u ∈ envelope.op.gives)}

/-- The document a session is about to be sent. -/
def joinDocument (P : Participants W C) (s : Collaboration W C) (c : C) : Option RGADocument :=
  match (s.connections c).join with
  | .registered n => (s.pool.loaded (P.home c) n).map fun loaded => loaded.entry.doc
  | _ => none

/-- The nodes that somebody is told of by an action. -/
def told (P : Participants W C) (s : Collaboration W C) : Action W C → Set UID
  | .acknowledge c => {u | ∃ doc, s.joinDocument P c = some doc ∧ u ∈ ids doc.cells}
  | .deliver _ => {u | ∃ envelope ∈ s.pool.channel, u ∈ envelope.op.gives}
  | _ => ∅

omit [DecidableEq W] [DecidableEq C] in
lemma ViewMove.needs_seen {made : List RGAOperation} (h : ViewMove P s s' c a made) :
    ∀ op ∈ made, op.needs ⊆ s.seen c := by
  cases h with
  | made _ doc doc' op waiting hmade _ _ hbefore _ _ =>
      intro op' hop u hu
      rw [List.mem_singleton.mp hop] at hu
      exact ⟨_, hbefore, Or.inl (hmade.needs_mem u hu)⟩
  | _ => simp

omit [DecidableEq W] [DecidableEq C] in
/-- A client sees what it saw, what it makes and what it is told of. -/
lemma ViewMove.seen_subset {made : List RGAOperation} (h : ViewMove P s s' c a made) :
    ∀ u ∈ s'.seen c, u ∈ s.seen c ∨ (∃ op ∈ made, u ∈ op.gives) ∨ u ∈ s.told P a := by
  rintro u ⟨v, hv, hu⟩
  cases h with
  | same h _ => exact Or.inl ⟨v, h ▸ hv, hu⟩
  | acknowledged n loaded hjoin hloaded _ h =>
      obtain rfl := Option.some.inj (h.symm.trans hv)
      refine Or.inr (Or.inr ⟨loaded.entry.doc, ?_, by simpa using hu⟩)
      simp [joinDocument, hjoin, hloaded]
  | made _ doc doc' op waiting hmade _ _ hbefore h _ =>
      obtain rfl := Option.some.inj (h.symm.trans hv)
      rcases hu with hu | hu
      · obtain ⟨e, he⟩ := exists_edit hmade.isEdit
        rw [hmade.cells_eq e he] at hu
        rcases mem_ids_step hu with hu | hu
        · exact Or.inl ⟨_, hbefore, Or.inl hu⟩
        · exact Or.inr (Or.inl ⟨op, by simp, RGAOperation.gives_of_edit he ▸ hu⟩)
      · exact Or.inl ⟨_, hbefore, Or.inr hu⟩
  | arrived v₀ envelope hnext _ hbefore h _ =>
      obtain rfl := Option.some.inj (h.symm.trans hv)
      rcases hu with hu | ⟨sent, hsent, hu⟩
      · exact Or.inl ⟨_, hbefore, Or.inl hu⟩
      · rcases List.mem_append.mp hsent with hsent | hsent
        · exact Or.inl ⟨_, hbefore, Or.inr ⟨sent, hsent, hu⟩⟩
        · obtain rfl := List.eq_of_mem_replicate hsent
          exact Or.inr (Or.inr ⟨sent, List.mem_of_getElem? hnext, hu⟩)
  | applied doc envelope waiting e he _ _ _ hbefore h _ =>
      obtain rfl := Option.some.inj (h.symm.trans hv)
      refine Or.inl ⟨_, hbefore, ?_⟩
      rcases hu with hu | ⟨sent, hsent, hu⟩
      · rcases mem_ids_step hu with hu | hu
        · exact Or.inl hu
        · exact Or.inr ⟨envelope, by simp, RGAOperation.gives_of_edit he ▸ hu⟩
      · exact Or.inr ⟨sent, by simp [hsent], hu⟩

/-- What one client contributes to a record, `log`. -/
abbrev Contributing (g : Gate) (s : Collaboration W C) (log : List RGAOperation) (c : C) : Prop :=
  Contributes RGAOperation.needs RGAOperation.gives log (s.pending g c) (s.seen c)

omit [DecidableEq W] [DecidableEq C] in
/-- A client goes on contributing to a record, if the record gives what it is told. -/
lemma Goes.contributing {log : List RGAOperation} {made : List RGAOperation}
    (h : Goes P g s s' a c made) (hcontributes : Contributing g s log c)
    (htold : ∀ u ∈ s.told P a, ∃ op ∈ log, u ∈ op.gives) : Contributing g s' log c := by
  obtain ⟨hview, hpending⟩ := h
  have hneeds := hview.needs_seen
  have hseen := hview.seen_subset
  rw [Contributing, hpending]
  have htwo : made = [] ∨ ∃ op, made = [op] := by
    cases hview with
    | made _ _ _ op => exact Or.inr ⟨op, rfl⟩
    | _ => exact Or.inl rfl
  rcases htwo with rfl | ⟨op, rfl⟩
  · rw [List.append_nil]
    refine hcontributes.see fun u hu => ?_
    rcases hseen u hu with hu | ⟨_, hop, _⟩ | hu
    · exact Or.inl hu
    · simp at hop
    · exact Or.inr (htold u hu)
  · have hknown : ∀ u ∈ s.seen c ∪ s.told P a, u ∈ s.seen c ∨ ∃ op ∈ log, u ∈ op.gives :=
      fun u hu => hu.imp id (htold u)
    have htelling := hcontributes.see hknown
    refine htelling.make (fun u hu => Or.inl (hneeds op (by simp) hu)) fun u hu => ?_
    rcases hseen u hu with hu | ⟨op', hop, hu⟩ | hu
    · exact Or.inl (Or.inl hu)
    · exact Or.inr (List.mem_singleton.mp hop ▸ hu)
    · exact Or.inl (Or.inr hu)

omit [DecidableEq W] in
/-- **Causality at a gate.**  If everybody contributes to the record of a gate, and the record
gives what an action tells of, then everybody contributes to the record after the action. -/
theorem contributing_step (hrunning : Running P s) (hmove : ∀ c, Move P s s' c a)
    {log log' : List RGAOperation}
    (hquiet : Quiet g s s' → log' = log)
    (hpassing : ∀ c call stage, a = .advance c → Passing g s s' c call stage →
      log' = log ++ [call.msg.op])
    (htold : ∀ u ∈ s.told P a, ∃ op ∈ log, u ∈ op.gives) (h : ∀ c, Contributing g s log c) :
    ∀ c, Contributing g s' log' c := by
  rcases gate_move hrunning hmove g with
    ⟨hsame, hgoes⟩ | ⟨c₀, call, stage, rfl, hpass, hpending, hview, hothers⟩
  · rw [hquiet hsame]
    intro c
    obtain ⟨made, hgoes⟩ := hgoes c
    exact hgoes.contributing (h c) htold
  · rw [hpassing c₀ call stage rfl hpass]
    have hpublished : Contributes RGAOperation.needs RGAOperation.gives (log ++ [call.msg.op])
        (s'.pending g c₀) (s.seen c₀) := by
      have h₀ := h c₀
      rw [Contributing, hpending] at h₀
      exact h₀.publish
    intro c
    by_cases hc : c = c₀
    · subst hc
      refine hpublished.see fun u hu => ?_
      rcases hview.seen_subset u hu with hu | ⟨_, hop, _⟩ | hu
      · exact Or.inl hu
      · simp at hop
      · exact absurd hu id
    · obtain ⟨made, hgoes⟩ := hothers c hc
      refine hgoes.contributing ((h c).publish_other hpublished.causal_log) fun u hu => ?_
      exact absurd hu id

/-- The same of what is on record at the gate. -/
lemma contributing_record (hrunning : Running P s) (hrefused : NotRefused a)
    (hstep : s.step P a = some s') (hg : g ≠ .entry)
    (htold : ∀ u ∈ s.told P a, ∃ op ∈ g.record s.pool, u ∈ op.gives)
    (hcausal : CausallyValid (g.record s.pool)) (h : ∀ c, Contributing g s (g.record s.pool) c) :
    CausallyValid (g.record s'.pool) ∧ ∀ c, Contributing g s' (g.record s'.pool) c := by
  have hrec := hrunning.pool.recorded
  have hall : ∀ c, Contributing g s' (g.record s'.pool) c :=
    contributing_step hrunning (step_move hrefused hstep)
      (record_of_quiet hg hrec hstep) (fun _ _ _ _ => record_of_passing hg hrec) htold h
  refine ⟨?_, hall⟩
  rcases isEmpty_or_nonempty C with hempty | ⟨⟨c⟩⟩
  · rw [record_of_quiet hg hrec hstep fun c => hempty.elim c]
    exact hcausal
  · exact (hall c).causal_log

end Collaboration

end SyncEngine
