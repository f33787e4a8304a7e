import SyncEngine.System.LiveSession

/-!
# Convergence of live sessions

Whatever the interleaving, the replicas of a live session are equal whenever nothing is in
flight, and no client ever meets an INSERT whose anchor it lacks (`live_session`).

If one worker serves everybody, its cached document agrees with them.  It is one more replica,
which reads the operations at the first gate: a call applies its operation to the only load there
is (`WorkerPool.SingleLoad`), and nobody builds on an operation before that (`Served`).
-/

namespace SyncEngine

open ReplicatedList CausalReplay OrderedBroadcast Transition

namespace Collaboration

open WorkerPool

variable {W C : Type*} [DecidableEq W] [DecidableEq C] {P : Participants W C}
  {s s' : Collaboration W C} {a : Action W C} {c c₀ : C} {w : W} {n : Nat} {l l' : Loaded}
  {ops : List RGAOperation}

/-! ## The entry of a load -/

/-- An entry changes when a session's call applies its operation to it. -/
lemma entry_step (hallowed : s.Undisturbed a) (hstep : s.step P a = some s')
    (hl : s.pool.loaded w n = some l) (hl' : s'.pool.loaded w n = some l') :
    l'.entry.doc = l.entry.doc ∨
      ∃ c call, a = .advance c ∧ s.inProcess c = some call ∧ call.stage = .awaitDocument n := by
  rcases pool_step hstep with hpool | ⟨b, hb, hadvance, hbackground⟩
  · rw [hpool] at hl'
    rw [Option.some.inj (hl.symm.trans hl')]
    exact Or.inl rfl
  · cases entryFrom hb hl' with
    | kept h =>
        rw [Option.some.inj (hl.symm.trans h)]
        exact Or.inl rfl
    | replayed snapshot rows hstage _ =>
        rw [loaded_eq_some, hstage] at hl
        simp at hl
    | applied call l₀ hcall hstage _ _ _ =>
        obtain ⟨c, ha, rfl, hprocessing, -⟩ := hadvance _ rfl
        refine Or.inr ⟨c, call, ha, ?_, hstage⟩
        rw [inProcess, if_pos hprocessing, hcall]
    | counted _ _ _ _ l₀ _ _ _ _ hl₀ hl'' =>
        obtain rfl := Option.some.inj (hl.symm.trans hl₀)
        exact Or.inl (by rw [hl''])
    | collected l₀ _ _ job seq hjob hstage _ =>
        rw [hbackground rfl] at hallowed
        have hnone := hallowed job hjob
        simp [SnapshotJob.aboutToCollect, hstage] at hnone
    | reset l₀ hl₀ hl'' =>
        obtain rfl := Option.some.inj (hl.symm.trans hl₀)
        exact Or.inl (by rw [hl''])

/-- Without a passage it stays as it is. -/
lemma entry_of_quiet (hallowed : s.Undisturbed a) (hstep : s.step P a = some s')
    (hquiet : Quiet .entry s s') (hl : s.pool.loaded w n = some l)
    (hl' : s'.pool.loaded w n = some l') : l'.entry.doc = l.entry.doc := by
  rcases entry_step hallowed hstep hl hl' with hsame | ⟨c, call, rfl, hprocess, hstage⟩
  · exact hsame
  · obtain ⟨call₀, stage, hbefore, hafter, hprogress⟩ := advance_inProcess hstep
    obtain rfl := Option.some.inj (hbefore.symm.trans hprocess)
    have hsame := hquiet c call₀ _ hbefore hafter
    rw [hstage] at hprogress hsame
    cases hprogress with
    | apply => simp [Gate.passed] at hsame

omit [DecidableEq W] [DecidableEq C] in
/-- A call passes the entry when it applies its operation. -/
lemma Passing.of_entry {call : OperationCall W} {stage : CallStage}
    (h : Passing .entry s s' c call stage) :
    ∃ n ok, call.stage = .awaitDocument n ∧ stage = .applied n ok .appending := by
  have hclosed := h.closed
  have hpassed := h.passed
  have hprogress := h.progress
  generalize call.stage = before at hclosed hprogress
  cases hprogress with
  | apply n ok _ => exact ⟨n, ok, rfl, rfl⟩
  | _ => simp [Gate.passed] at hclosed hpassed

omit [DecidableEq W] [DecidableEq C] in
lemma Passing.entry_passed {call : OperationCall W} {stage : CallStage}
    (h : Passing .channel s s' c call stage) : Gate.entry.passed call.stage = true := by
  have hclosed := h.closed
  have hpassed := h.passed
  have hprogress := h.progress
  generalize call.stage = before at hclosed hprogress
  cases hprogress with
  | publish => rfl
  | _ => simp [Gate.passed] at hclosed hpassed

/-- With a passage, the operation is applied. -/
lemma entry_of_passing (hstep : s.step P (.advance c) = some s') {call : OperationCall W}
    {stage : CallStage} (h : Passing .entry s s' c call stage) :
    ∃ n l l', s.pool.loaded call.worker n = some l ∧ s'.pool.loaded call.worker n = some l' ∧
      l'.entry.doc = (l.entry.doc.applyOperation call.msg.op).1 := by
  obtain ⟨n, ok, hbefore, hafter⟩ := h.of_entry
  have hcall := calls_of_inProcess h.before
  have hcall' := calls_of_inProcess h.after
  cases stepped hstep with
  | advance c pool hprocessing hpool =>
      have happlied : ({ call with stage := stage } : OperationCall W).appliedTo = some (n, ok) :=
        OperationCall.appliedTo_of_stage hafter
      rcases appliedTo_old hpool hcall' happlied with
        ⟨c₀, hc₀, happlied₀, -, -⟩ | ⟨-, call₀, l, hcall₀, -, hworker, hmsg, hl, -, hl'⟩
      · obtain rfl := Option.some.inj (hcall.symm.trans hc₀)
        simp [OperationCall.appliedTo, hbefore] at happlied₀
      · obtain rfl := Option.some.inj (hcall.symm.trans hcall₀)
        exact ⟨n, l, _, hl, hl', rfl⟩

/-- The entry of the only worker is a replica too, which has applied `ops`. -/
structure EntryReplays (w : W) (s : Collaboration W C) (ops : List RGAOperation) : Prop where
  loaded : ∃ l, s.pool.loaded w 0 = some l ∧ Replays ops l.entry.doc.cells
  contributing : ∀ c, Contributing .entry s ops c
  /-- What it has applied is on its way to the channel or has got there. -/
  known : ∀ op ∈ ops, op ∈ Gate.channel.record s.pool ∨ ∃ c, op ∈ s.pending .channel c
  /-- It has applied what is on the way from it. -/
  taken : ∀ c call, s.inProcess c = some call → Gate.entry.passed call.stage = true →
    call.msg.op ∈ ops
  published : ∀ op ∈ Gate.channel.record s.pool, op ∈ ops

/-- An operation on its way to the channel is on its way or has got there, after any action. -/
lemma known_step (hrunning : Running P s) (hrefused : NotRefused a)
    (hstep : s.step P a = some s') {op : RGAOperation}
    (h : op ∈ Gate.channel.record s.pool ∨ ∃ c, op ∈ s.pending .channel c) :
    op ∈ Gate.channel.record s'.pool ∨ ∃ c, op ∈ s'.pending .channel c := by
  have hrec := hrunning.pool.recorded
  have hgoes : ∀ {c made}, Goes P .channel s s' a c made → op ∈ s.pending .channel c →
      op ∈ s'.pending .channel c := by
    intro c made hgoes hop
    rw [hgoes.2]
    exact List.mem_append_left _ hop
  rcases gate_move hrunning (step_move hrefused hstep) .channel with
    ⟨hquiet, hall⟩ | ⟨c₀, call, stage, -, hpassing, hpending, -, hothers⟩
  · rw [record_of_quiet (by simp) hrec hstep hquiet]
    refine h.imp id ?_
    rintro ⟨c, hop⟩
    obtain ⟨made, hmade⟩ := hall c
    exact ⟨c, hgoes hmade hop⟩
  · rw [record_of_passing (by simp) hrec hpassing]
    rcases h with hop | ⟨c, hop⟩
    · exact Or.inl (List.mem_append_left _ hop)
    · by_cases hc : c = c₀
      · rw [hc, hpending] at hop
        rcases List.mem_cons.mp hop with rfl | hop
        · exact Or.inl (by simp)
        · exact Or.inr ⟨c₀, hop⟩
      · obtain ⟨made, hmade⟩ := hothers c hc
        exact Or.inr ⟨c, hgoes hmade hop⟩

lemma published_step (hrunning : Running P s) (hrefused : NotRefused a)
    (hstep : s.step P a = some s') (h : EntryReplays w s ops) :
    ∀ op ∈ Gate.channel.record s'.pool, op ∈ ops := by
  have hrec := hrunning.pool.recorded
  rcases gate_move hrunning (step_move hrefused hstep) .channel with
    ⟨hquiet, -⟩ | ⟨c₀, call, stage, -, hpassing, -, -, -⟩
  · rw [record_of_quiet (by simp) hrec hstep hquiet]
    exact h.published
  · rw [record_of_passing (by simp) hrec hpassing]
    intro op hop
    rcases List.mem_append.mp hop with hop | hop
    · exact h.published op hop
    · rw [List.mem_singleton.mp hop]
      exact h.taken c₀ call hpassing.before hpassing.entry_passed

omit [DecidableEq W] [DecidableEq C] in
/-- A call that a session is in was in it before, or it has just begun. -/
lemma SessionMove.inProcess_old {made : List RGAOperation} (h : SessionMove P s s' c a made)
    {call' : OperationCall W} (hcall' : s'.inProcess c = some call') :
    (∃ call, s.inProcess c = some call ∧ call'.msg = call.msg) ∨ call'.stage = .rateLimit := by
  cases h with
  | queue _ _ hprocess _ => exact Or.inl ⟨call', hprocess ▸ hcall', rfl⟩
  | begin msg _ _ hprocess _ =>
      obtain rfl := Option.some.inj (hprocess.symm.trans hcall')
      exact Or.inr rfl
  | advance call stage hbefore hprocess _ _ =>
      obtain rfl := Option.some.inj (hprocess.symm.trans hcall')
      exact Or.inl ⟨call, hbefore, rfl⟩
  | reply _ _ _ _ _ hprocess _ => simp [hprocess] at hcall'

omit [DecidableEq W] [DecidableEq C] in
/-- The entry has applied what is on the way from it, after any action. -/
lemma taken_step (hrunning : Running P s) (hmove : ∀ c, Move P s s' c a) {ops' : List RGAOperation}
    (hold : ∀ c call, s.inProcess c = some call → Gate.entry.passed call.stage = true →
      call.msg.op ∈ ops')
    (hpassing : ∀ c call stage, a = .advance c → Passing .entry s s' c call stage →
      call.msg.op ∈ ops') :
    ∀ c call, s'.inProcess c = some call → Gate.entry.passed call.stage = true →
      call.msg.op ∈ ops' := by
  intro c call' hcall' hpassed
  obtain ⟨-, made, -, hsession⟩ := (hrunning.served c).move hrunning.pool (hmove c)
  rcases hsession.inProcess_old hcall' with ⟨call, hcall, hmsg⟩ | hstage
  · rw [hmsg]
    cases (hrunning.served c).pending_move (g := .entry) hsession with
    | keep _ hsame _ => exact hold c call hcall (hsame call call' hcall hcall' ▸ hpassed)
    | pass call₀ stage hpass _ =>
        obtain rfl := Option.some.inj (hpass.before.symm.trans hcall)
        exact hpassing c call₀ stage rfl hpass
  · simp [hstage, Gate.passed] at hpassed

omit [DecidableEq W] [DecidableEq C] in
lemma EntryReplays.told (h : EntryReplays w s ops) (hlive : Live P s) (hrunning : Running P s) :
    ∀ u ∈ s.told P a, ∃ op ∈ ops, u ∈ op.gives := by
  intro u hu
  obtain ⟨op, hop, hgives⟩ := hlive.told hrunning u hu
  exact ⟨op, h.published op hop, hgives⟩

omit [DecidableEq W] [DecidableEq C] in
/-- A call that passes the entry finds what it builds on there. -/
lemma EntryReplays.needs_met (h : EntryReplays w s ops) {l : Loaded}
    (hl : s.pool.loaded w 0 = some l) {op : RGAOperation} {rest : List RGAOperation}
    (hpending : s.pending .entry c = op :: rest) : ∀ u ∈ op.needs, u ∈ ids l.entry.doc.cells := by
  obtain ⟨l₀, hl₀, hreplays⟩ := h.loaded
  obtain rfl := Option.some.inj (hl₀.symm.trans hl)
  have hcausal := (h.contributing c).causal
  rw [hpending, List.append_cons] at hcausal
  exact fun u hu => hreplays.mem_ids.mpr ((causal_concat_iff.mp hcausal.of_append).2 u hu)

lemma loaded_step (hstep : s.step P a = some s') (hl : s.pool.loaded w n = some l) :
    ∃ l', s'.pool.loaded w n = some l' := by
  rcases pool_step hstep with hpool | ⟨b, hb, -⟩
  · exact ⟨l, hpool ▸ hl⟩
  · exact loaded_kept hb hl

lemma EntryReplays.of_quiet (h : EntryReplays w s ops) (hlive : Live P s) (hrunning : Running P s)
    (hallowed : s.Undisturbed a) (hstep : s.step P a = some s') (hquiet : Quiet .entry s s') :
    EntryReplays w s' ops := by
  have hmove := step_move hallowed.notRefused hstep
  -- a passage would change what the call has passed
  have hnone : ∀ c call stage, ¬ Passing .entry s s' c call stage := by
    intro c call stage hpass
    have hsame := hquiet c call _ hpass.before hpass.after
    simp [hpass.closed, hpass.passed] at hsame
  obtain ⟨l, hl, hreplays⟩ := h.loaded
  obtain ⟨l', hl'⟩ := loaded_step hstep hl
  refine ⟨⟨l', hl', ?_⟩, ?_, fun op hop => ?_, ?_, ?_⟩
  · rw [entry_of_quiet hallowed hstep hquiet hl hl']
    exact hreplays
  · exact contributing_step hrunning hmove (fun _ => rfl)
      (fun c call stage _ hpass => absurd hpass (hnone c call stage)) (h.told hlive hrunning)
      h.contributing
  · exact known_step hrunning hallowed.notRefused hstep (h.known op hop)
  · exact taken_step hrunning hmove h.taken
      fun c call stage _ hpass => absurd hpass (hnone c call stage)
  · exact published_step hrunning hallowed.notRefused hstep h

/-- The entry when a call applies its operation. -/
lemma EntryReplays.of_passing (h : EntryReplays w s ops) (hlive : Live P s)
    (hrunning : Running P s) (hhome : ∀ c, P.home c = w) (hsingle : SingleLoad (s.pool.workers w))
    (hstep : s.step P (.advance c) = some s') {call : OperationCall W} {stage : CallStage}
    (hpassing : Passing .entry s s' c call stage)
    (hpending : s.pending .entry c = call.msg.op :: s'.pending .entry c) :
    EntryReplays w s' (ops ++ [call.msg.op]) := by
  have hmove := step_move (a := .advance c) trivial hstep
  have hunique : ∀ c' call' stage', Action.advance c = Action.advance (W := W) c' →
      Passing .entry s s' c' call' stage' → call' = call := by
    intro c' call' stage' hc hpass
    obtain rfl := Action.advance.inj hc
    exact Option.some.inj (hpass.before.symm.trans hpassing.before)
  obtain ⟨n, l, l', hl, hl', hdoc⟩ := entry_of_passing hstep hpassing
  have hworker : call.worker = w :=
    ((hrunning.served c).call call hpassing.before).worker_eq.trans (hhome c)
  rw [hworker] at hl hl'
  -- the worker has one load, so the call has applied to the entry that is followed
  obtain rfl := hsingle.eq_zero hl
  refine ⟨⟨l', hl', ?_⟩, ?_, fun op hop => ?_, ?_, fun op hop => ?_⟩
  · obtain ⟨l₀, hl₀, hreplays⟩ := h.loaded
    obtain rfl := Option.some.inj (hl₀.symm.trans hl)
    obtain ⟨e, he⟩ := exists_edit call.msg.isEdit
    rw [hdoc, RGADocument.cells_applyOperation
      (hrunning.pool.indexed.entries w 0 l₀ hl).nodup call.msg.uid_ne_root he]
    exact hreplays.apply he (h.needs_met hl hpending)
  · refine contributing_step hrunning hmove (fun hquiet => ?_) (fun c' call' stage' hc hpass => ?_)
      (h.told hlive hrunning) h.contributing
    · have hsame := hquiet c call _ hpassing.before hpassing.after
      simp [hpassing.closed, hpassing.passed] at hsame
    · rw [hunique c' call' stage' hc hpass]
  · rcases List.mem_append.mp hop with hop | hop
    · exact known_step hrunning (a := .advance c) trivial hstep (h.known op hop)
    · -- the call has yet to publish what it has just applied
      obtain ⟨m, ok, -, rfl⟩ := hpassing.of_entry
      refine Or.inr ⟨c, ?_⟩
      rw [pending, hpassing.after, List.mem_singleton.mp hop]
      simp [Gate.passed]
  · refine taken_step hrunning hmove (fun c' call' hcall hpassed => ?_)
      fun c' call' stage' hc hpass => ?_
    · exact List.mem_append_left _ (h.taken c' call' hcall hpassed)
    · rw [hunique c' call' stage' hc hpass]
      simp
  · exact List.mem_append_left _ (published_step hrunning (a := .advance c) trivial hstep h op hop)

/-- **The entry stays a replica**, whatever happens. -/
theorem EntryReplays.step (h : EntryReplays w s ops) (hlive : Live P s) (hrunning : Running P s)
    (hhome : ∀ c, P.home c = w) (hsingle : SingleLoad (s.pool.workers w))
    (hallowed : s.Undisturbed a) (hstep : s.step P a = some s') :
    ∃ ops', EntryReplays w s' ops' := by
  rcases gate_move hrunning (step_move hallowed.notRefused hstep) .entry with
    ⟨hquiet, -⟩ | ⟨c, call, stage, rfl, hpassing, hpending, -, -⟩
  · exact ⟨ops, h.of_quiet hlive hrunning hallowed hstep hquiet⟩
  · exact ⟨_, h.of_passing hlive hrunning hhome hsingle hstep hpassing hpending⟩

/-! ## Runs -/

/-- What every action of a live session keeps. -/
structure LiveRun (P : Participants W C) (s : Collaboration W C) : Prop extends Running P s where
  delivers : DeliversPublished s.pool
  subscribed : Subscribed P s
  single : ∀ w, SingleLoad (s.pool.workers w)
  loaded : ∀ c, (s.connections c).join = .joined → ∃ l, s.pool.loaded (P.home c) 0 = some l
  phase : Unedited s ∨
    Live P s ∧ ∀ w, (∀ c, P.home c = w) → ∃ ops, EntryReplays w s ops

omit [DecidableEq W] [DecidableEq C] in
lemma liveRun_start (snapshotOpsThreshold : Nat) :
    LiveRun P (start P snapshotOpsThreshold : Collaboration W C) where
  toRunning := running_start _
  delivers w := Nat.zero_le _
  subscribed c hjoined := by simp [start] at hjoined
  single w := .start
  loaded c hjoined := by simp [start] at hjoined
  phase := Or.inl (unedited_start _)

lemma singleLoad_step (hallowed : s.Undisturbed a) (hstep : s.step P a = some s')
    (h : SingleLoad (s.pool.workers w)) : SingleLoad (s'.pool.workers w) := by
  rcases pool_step hstep with hpool | ⟨b, hb, -, hbackground⟩
  · exact hpool ▸ h
  · refine h.move (worker_step hb w) ?_
    rintro ⟨w', rfl⟩
    rw [hbackground rfl] at hallowed
    exact hallowed

/-- A session that has joined was given the document of the only load. -/
lemma joined_loaded_step (hallowed : s.Undisturbed a) (hstep : s.step P a = some s')
    (hsingle : SingleLoad (s.pool.workers (P.home c)))
    (h : (s.connections c).join = .joined → ∃ l, s.pool.loaded (P.home c) 0 = some l)
    (hjoined : (s'.connections c).join = .joined) : ∃ l, s'.pool.loaded (P.home c) 0 = some l := by
  rcases (step_move hallowed.notRefused hstep c).joined hjoined with hbefore | ⟨-, n, l, hl⟩
  · obtain ⟨l, hl⟩ := h hbefore
    exact loaded_step hstep hl
  · obtain rfl := hsingle.eq_zero hl
    exact loaded_step hstep hl

omit [DecidableEq W] [DecidableEq C] in
lemma Unedited.entryReplays (h : Unedited s) (hl : s.pool.loaded w 0 = some l) :
    EntryReplays w s [] := by
  have hrecord : Gate.channel.record s.pool = [] := by simp [Gate.record, h.pool.channel]
  refine ⟨⟨l, hl, h.pool.entries w 0 l hl ▸ .nil⟩, fun c => ?_, by simp, fun c call hcall => ?_, ?_⟩
  · exact (h.contributing .entry c)
  · simp [h.inProcess] at hcall
  · simp [hrecord]

lemma LiveRun.step (h : LiveRun P s) (hallowed : s.LiveAction a) (hstep : s.step P a = some s') :
    LiveRun P s' where
  toRunning := h.toRunning.step hallowed.1.notRefused hstep
  delivers := by
    rcases pool_step hstep with hpool | ⟨b, hb, -⟩
    · exact hpool ▸ h.delivers
    · exact h.delivers.step hb
  subscribed := h.subscribed.step hallowed.1.notRefused hstep
  single w := singleLoad_step hallowed.1 hstep (h.single w)
  loaded c := joined_loaded_step hallowed.1 hstep (h.single _) (h.loaded c)
  phase := by
    have hrunning := h.toRunning
    -- once everybody is a replica, everybody remains one
    have hlive : (Live P s ∧ ∀ w, (∀ c, P.home c = w) → ∃ ops, EntryReplays w s ops) →
        Live P s' ∧ ∀ w, (∀ c, P.home c = w) → ∃ ops, EntryReplays w s' ops := by
      rintro ⟨hlive, hentries⟩
      refine ⟨hlive.step hrunning h.delivers h.subscribed hallowed.1.notRefused hstep,
        fun w hhome => ?_⟩
      obtain ⟨ops, hentry⟩ := hentries w hhome
      exact hentry.step hlive hrunning hhome (h.single w) hallowed.1 hstep
    rcases h.phase with hunedited | hphase
    · by_cases hedit : ∃ c e, a = .edit c e
      · obtain ⟨c, e, rfl⟩ := hedit
        refine Or.inr (hlive ⟨hunedited.live hrunning h.delivers hallowed.2, fun w hhome => ?_⟩)
        obtain ⟨doc, hdoc⟩ := Option.isSome_iff_exists.mp (hallowed.2 c)
        obtain ⟨l, hl⟩ := h.loaded c ((hrunning.served c).joined hdoc)
        exact ⟨[], hunedited.entryReplays (hhome c ▸ hl)⟩
      · exact Or.inl (hunedited.step hrunning hallowed.1 (fun c e ha => hedit ⟨c, e, ha⟩) hstep)
    · exact Or.inr (hlive hphase)

/-! ## Convergence -/

/-- No client meets a broadcast INSERT whose anchor it lacks. -/
def NoCausalGap (s : Collaboration W C) : Prop :=
  ∀ c doc envelope rest op, (s.connections c).hook.docRef = some doc →
    (s.connections c).toClient = .broadcast envelope :: rest → envelope.op = .insert op →
    Chain.indexHas ClientNode.uid (afterKey op.after) doc.nodes = true

/-- All replicas have the same nodes, and if there is one worker only, so has its document. -/
structure Converged (P : Participants W C) (s : Collaboration W C) : Prop where
  replicas : ∀ c c' doc doc', (s.connections c).hook.docRef = some doc →
    (s.connections c').hook.docRef = some doc' → doc.nodes = doc'.nodes
  server : ∀ w, (∀ c, P.home c = w) → ∀ c doc, (s.connections c).hook.docRef = some doc →
    ∃ n l, (s.pool.workers w).cache = some n ∧ s.pool.loaded w n = some l ∧
      l.entry.doc.cells = doc.cells

omit [DecidableEq W] [DecidableEq C] in
lemma LiveRun.noCausalGap (h : LiveRun P s) : NoCausalGap s := by
  intro c doc envelope rest op hdoc hwaiting hop
  rw [Chain.indexHas_afterKey_iff, ← ClientRGADocument.ids_cells]
  intro u hu
  have hnext : broadcasts (s.connections c).toClient = envelope :: broadcasts rest := by
    rw [hwaiting]
    rfl
  rcases h.phase with hunedited | ⟨hlive, -⟩
  · have hview := hunedited.views c _ (Connection.view_of_docRef hdoc)
    simp [hnext] at hview
  · obtain ⟨doc₀, applied, hdoc₀, hreplica⟩ := hlive.replicated c
    obtain rfl := Option.some.inj (hdoc.symm.trans hdoc₀)
    rw [hnext, List.map_cons] at hreplica
    exact hreplica.needs_met hlive.causal u (hop ▸ (anchor_eq_some.mp hu).1)

omit [DecidableEq W] [DecidableEq C] in
lemma Quiescent.pending (h : Quiescent s) (g : Gate) (c : C) : s.pending g c = [] := by
  have hprocess : s.inProcess c = none := by
    rw [inProcess, if_neg]
    simp [(h.sessions c).2]
  rw [Collaboration.pending, hprocess, queued, (h.sessions c).1, (h.sockets c).1]
  rfl

omit [DecidableEq W] [DecidableEq C] in
/-- Every replica has read everything. -/
lemma Live.quiescent (h : Live P s) (hquiescent : Quiescent s) {doc : ClientRGADocument}
    (hdoc : (s.connections c).hook.docRef = some doc) :
    ∃ applied, LiveReplica (P.siteId c) (Gate.channel.record s.pool) []
      (Gate.channel.record s.pool).length [] applied doc := by
  obtain ⟨doc₀, applied, hdoc₀, hreplica⟩ := h.replicated c
  obtain rfl := Option.some.inj (hdoc.symm.trans hdoc₀)
  rw [hquiescent.pending, hquiescent.redis, (hquiescent.sockets c).2] at hreplica
  refine ⟨applied, ?_⟩
  rw [Gate.record, List.length_map]
  exact hreplica

omit [DecidableEq W] [DecidableEq C] in
lemma LiveRun.converged (h : LiveRun P s) (hquiescent : Quiescent s) : Converged P s where
  replicas c c' doc doc' hdoc hdoc' := by
    rw [ClientRGADocument.nodes_eq_iff_cells_eq]
    rcases h.phase with hunedited | ⟨hlive, -⟩
    · have hview := hunedited.views c _ (Connection.view_of_docRef hdoc)
      have hview' := hunedited.views c' _ (Connection.view_of_docRef hdoc')
      exact (congrArg View.cells hview).trans (congrArg View.cells hview').symm
    · obtain ⟨applied, hreplica⟩ := hlive.quiescent hquiescent hdoc
      obtain ⟨applied', hreplica'⟩ := hlive.quiescent hquiescent hdoc'
      exact hreplica.cells_unique hreplica'.replays hreplica'.mem_applied
  server w hhome c doc hdoc := by
    obtain ⟨l, hl⟩ := h.loaded c ((h.served c).joined hdoc)
    rw [hhome c] at hl
    refine ⟨0, l, (h.single w).cache_of_loaded hl, hl, ?_⟩
    rcases h.phase with hunedited | ⟨hlive, hentries⟩
    · have hview := hunedited.views c _ (Connection.view_of_docRef hdoc)
      exact (hunedited.pool.entries w 0 l hl).trans (congrArg View.cells hview).symm
    · obtain ⟨ops, hentry⟩ := hentries w hhome
      obtain ⟨l₀, hl₀, hreplays⟩ := hentry.loaded
      obtain rfl := Option.some.inj (hl₀.symm.trans hl)
      obtain ⟨applied, hreplica⟩ := hlive.quiescent hquiescent hdoc
      refine (hreplica.cells_unique hreplays fun op => ⟨fun hop => ?_, hentry.published op⟩).symm
      exact (hentry.known op hop).resolve_right (by simp [hquiescent.pending])

/-- **Live sessions converge.**  Clients that have all opened an empty document before the first
edit never meet an operation that they lack the anchor of; whenever nothing is in flight, all of
them hold the same nodes, and so does the document of the worker if there is only one. -/
theorem live_session {snapshotOpsThreshold : Nat}
    (h : Reach (step P) LiveAction (start P snapshotOpsThreshold) s) :
    NoCausalGap s ∧ (Quiescent s → Converged P s) := by
  have hrun : LiveRun P s :=
    h.invariant (liveRun_start _) fun _ _ _ hrun hallowed => hrun.step hallowed
  exact ⟨hrun.noCausalGap, hrun.converged⟩

instance [Fintype C] (s : Collaboration W C) : ∀ a, Decidable (s.LiveAction a)
  | .edit c e => inferInstanceAs (Decidable (s.Undisturbed (.edit c e) ∧
      ∀ c, (s.connections c).hook.docRef.isSome = true))
  | .join c => inferInstanceAs (Decidable (s.Undisturbed (.join c) ∧ True))
  | .register c => inferInstanceAs (Decidable (s.Undisturbed (.register c) ∧ True))
  | .acknowledge c => inferInstanceAs (Decidable (s.Undisturbed (.acknowledge c) ∧ True))
  | .receive c => inferInstanceAs (Decidable (s.Undisturbed (.receive c) ∧ True))
  | .process c => inferInstanceAs (Decidable (s.Undisturbed (.process c) ∧ True))
  | .advance c => inferInstanceAs (Decidable (s.Undisturbed (.advance c) ∧ True))
  | .reply c => inferInstanceAs (Decidable (s.Undisturbed (.reply c) ∧ True))
  | .deliver w => inferInstanceAs (Decidable (s.Undisturbed (.deliver w) ∧ True))
  | .handle c => inferInstanceAs (Decidable (s.Undisturbed (.handle c) ∧ True))
  | .background b => inferInstanceAs (Decidable (s.Undisturbed (.background b) ∧ True))

/-- Two clients insert a character each, at the same time.  The second one is stored first and
published last, and every client is told of everything twice. -/
def editedTogether : List (Action Unit Bool) :=
  [.join false, .join true, .background (.load () 0), .background (.load () 0),
    .background (.load () 0), .register false, .register true, .acknowledge false,
    .acknowledge true, .handle false, .handle true,
    .edit false (.insert 0 (JSString.lit "x") (JSString.lit "n")),
    .edit true (.insert 0 (JSString.lit "y") (JSString.lit "m")),
    .receive false, .receive true, .process false, .process true, .advance false, .advance false,
    .advance true, .advance true, .advance false, .advance true, .advance true, .advance false,
    .advance false, .advance true, .advance true, .advance true, .advance false, .advance false,
    .reply true, .reply false, .deliver (), .deliver (), .handle false, .handle false,
    .handle false, .handle false, .handle false, .handle true, .handle true, .handle true,
    .handle true, .handle true]

/-- In the end nothing is in flight, and both clients hold both characters. -/
theorem live_session_editedTogether :
    ∃ s ∈ runAllowed (step .pair) LiveAction (start .pair 100) editedTogether,
      Quiescent s ∧ NoCausalGap s ∧ Converged .pair s ∧
        ∀ c, (s.connections c).hook.text = JSString.lit "yx" := by
  have hrun : ∃ s ∈ runAllowed (step .pair) LiveAction (start .pair 100) editedTogether,
      ((∀ c, (s.connections c).toServer = [] ∧ (s.connections c).toClient = []) ∧
        (∀ c, (s.connections c).messageQueue = [] ∧ (s.connections c).isProcessing = false) ∧
        ∀ w, s.pool.delivered w = s.pool.channel.length) ∧
      ∀ c, (s.connections c).hook.text = JSString.lit "yx" := by decide +kernel
  obtain ⟨s, hs, ⟨hsockets, hsessions, hredis⟩, htext⟩ := hrun
  have hquiescent : Quiescent s := ⟨hsockets, hsessions, hredis⟩
  obtain ⟨hgap, hconverged⟩ := live_session (reach_of_runAllowed .refl hs)
  exact ⟨s, hs, hquiescent, hgap, hconverged hquiescent, htext⟩

end Collaboration

end SyncEngine
