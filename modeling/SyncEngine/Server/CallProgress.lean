import SyncEngine.Server.PoolHistory

/-!
# The progress of a call

What one step of a call of `handleOperation` means for everybody else: two of the steps make the
operation known, the append to the readers of the log and the publication to the listeners on the
channel, and no other step touches either (`advance_progress`).  The actions that belong to no
call touch neither the calls nor what is known (`background_same`).
-/

namespace SyncEngine

namespace WorkerPool

variable {W K : Type*} [DecidableEq W] [DecidableEq K] {s s' : WorkerPool W K}

/-- The log and the channel are as they were. -/
structure SameLog (s s' : WorkerPool W K) : Prop where
  operations_eq : s'.db.operations = s.db.operations
  channel_eq : s'.channel = s.channel

/-- One step of a call, from stage to stage, and what it makes known. -/
inductive Progress (s s' : WorkerPool W K) (call : OperationCall W) :
    CallStage → CallStage → Prop
  | passLimit (h : SameLog s s') : Progress s s' call .rateLimit .replayCheck
  | refuse (error : OperationError) (herror : call.siteIdMismatch = some error)
      (h : SameLog s s') : Progress s s' call .replayCheck (.failed error)
  | ask (n : Nat) (h : SameLog s s') : Progress s s' call .replayCheck (.awaitDocument n)
  | apply (n : Nat) (ok : Bool) (h : SameLog s s') :
      Progress s s' call (.awaitDocument n) (.applied n ok .appending)
  | append (n : Nat) (ok : Bool) (envelope : OperationEnvelope)
      (henvelope : envelope = (s.db.appendOperation call.params).2)
      (hoperations : s'.db.operations = s.db.operations ++ [envelope])
      (hchannel : s'.channel = s.channel) :
      Progress s s' call (.applied n ok .appending) (.applied n ok (.appended envelope))
  | update (n : Nat) (ok : Bool) (envelope : OperationEnvelope) (h : SameLog s s') :
      Progress s s' call (.applied n ok (.appended envelope)) (.applied n ok (.publishing envelope))
  | publish (n : Nat) (ok : Bool) (envelope : OperationEnvelope)
      (hoperations : s'.db.operations = s.db.operations)
      (hchannel : s'.channel = s.channel ++ [envelope]) :
      Progress s s' call (.applied n ok (.publishing envelope))
        (.applied n ok (.published envelope))
  | finish (n : Nat) (ok : Bool) (envelope : OperationEnvelope) (h : SameLog s s') :
      Progress s s' call (.applied n ok (.published envelope)) (.applied n ok (.done envelope))

/-- **The next step of a call.** -/
theorem advance_progress {k : K} (h : s.step (.advance k) = some s') :
    ∃ call stage, s.calls k = some call ∧
      s'.calls = Function.update s.calls k (some { call with stage := stage }) ∧
      s'.delivered = s.delivered ∧ Progress s s' call call.stage stage := by
  obtain ⟨call, hcall, h⟩ := Option.bind_eq_some_iff.mp h
  have hstep := advanceCall_step h
  refine ⟨call, ?_⟩
  generalize hstage : call.stage = stage at hstep
  cases hstep with
  | passLimit => exact ⟨_, hcall, rfl, rfl, .passLimit ⟨rfl, rfl⟩⟩
  | refuse error hmismatch => exact ⟨_, hcall, rfl, rfl, .refuse error hmismatch ⟨rfl, rfl⟩⟩
  | ask => exact ⟨_, hcall, rfl, rfl, .ask _ ⟨rfl, rfl⟩⟩
  | apply n loaded => exact ⟨_, hcall, calls_applyOperation .., rfl, .apply n _ ⟨rfl, rfl⟩⟩
  | append n ok => exact ⟨_, hcall, calls_appendOperation .., rfl, .append n ok _ rfl rfl rfl⟩
  | update n ok envelope =>
      exact ⟨_, hcall, calls_updateCache .., rfl, .update n ok envelope ⟨rfl, rfl⟩⟩
  | publish n ok envelope => exact ⟨_, hcall, rfl, rfl, .publish n ok envelope rfl rfl⟩
  | finish n ok envelope => exact ⟨_, hcall, rfl, rfl, .finish n ok envelope ⟨rfl, rfl⟩⟩

/-- Neither the calls nor what is known to anybody change. -/
structure SameCalls (s s' : WorkerPool W K) : Prop extends SameLog s s' where
  calls_eq : s'.calls = s.calls
  delivered_eq : s'.delivered = s.delivered

/-- **Loads, evictions and snapshot jobs** are of no consequence for the calls. -/
theorem background_same {a : PoolAction W K} (h : s.step a = some s')
    (ha : match a with
      | .load .. | .evict _ | .forceSnapshot _ | .job _ | .skipJob _ => True
      | _ => False) : SameCalls s s' := by
  cases a with
  | load w n =>
      obtain ⟨worker, -, rfl⟩ := Option.map_eq_some_iff.mp h
      exact ⟨⟨rfl, rfl⟩, rfl, rfl⟩
  | evict w =>
      obtain rfl := Option.some.inj h
      exact ⟨⟨rfl, rfl⟩, rfl, rfl⟩
  | forceSnapshot w =>
      obtain rfl := Option.some.inj h
      exact ⟨⟨rfl, rfl⟩, rfl, rfl⟩
  | job i =>
      obtain ⟨job, -, h⟩ := Option.bind_eq_some_iff.mp h
      have hstep := advanceJob_step h
      generalize job.stage = stage at hstep
      cases hstep with
      | loaded | asked | empty | collect | compared | reset | prune => exact ⟨⟨rfl, rfl⟩, rfl, rfl⟩
      | save => exact ⟨⟨(log_insertSnapshot s.db _).1, rfl⟩, rfl, rfl⟩
  | skipJob i =>
      obtain ⟨job, -, h⟩ := Option.bind_eq_some_iff.mp h
      rw [skipJob] at h
      split at h
      · split at h
        · simp at h
        · split at h
          · obtain rfl := Option.some.inj h
            exact ⟨⟨rfl, rfl⟩, rfl, rfl⟩
          · simp at h
      · simp at h
  | _ => exact absurd ha id

/-! ## Publications -/

/-- The log and the channel change with the progress of a call only. -/
theorem log_step {a : PoolAction W K} (h : s.step a = some s') :
    SameLog s s' ∨ ∃ k call stage, a = .advance k ∧ s.calls k = some call ∧
      s'.calls k = some { call with stage := stage } ∧ Progress s s' call call.stage stage := by
  cases a with
  | advance k =>
      obtain ⟨call, stage, hcall, hcalls, -, hprogress⟩ := advance_progress h
      exact Or.inr ⟨k, call, stage, rfl, hcall, by rw [hcalls, Function.update_self], hprogress⟩
  | begin k w session msg =>
      rw [step] at h
      split at h
      · obtain rfl := Option.some.inj h
        exact Or.inl ⟨rfl, rfl⟩
      · simp at h
  | refuse k ms =>
      obtain ⟨call, -, h⟩ := Option.bind_eq_some_iff.mp h
      rw [refuseCall] at h
      split at h
      · obtain rfl := Option.some.inj h
        exact Or.inl ⟨rfl, rfl⟩
      · obtain rfl := Option.some.inj h
        exact Or.inl ⟨rfl, rfl⟩
      · simp at h
  | throwAppend k =>
      obtain ⟨_, _, _, _, _, rfl⟩ := throwAppend_eq h
      exact Or.inl ⟨rfl, rfl⟩
  | join w =>
      obtain rfl := Option.some.inj h
      exact Or.inl ⟨rfl, rfl⟩
  | deliver w =>
      rw [step] at h
      split at h
      · obtain rfl := Option.some.inj h
        exact Or.inl ⟨rfl, rfl⟩
      · simp at h
  | load w n => exact Or.inl (background_same h trivial).toSameLog
  | evict w => exact Or.inl (background_same h trivial).toSameLog
  | forceSnapshot w => exact Or.inl (background_same h trivial).toSameLog
  | job i => exact Or.inl (background_same h trivial).toSameLog
  | skipJob i => exact Or.inl (background_same h trivial).toSameLog

omit [DecidableEq W] [DecidableEq K] in
/-- What a step of a call makes known: nothing, the row that it stores, or the row that it
publishes. -/
lemma Progress.log_cases {call : OperationCall W} {before after : CallStage}
    (h : Progress s s' call before after) : SameLog s s' ∨
      (s'.db.operations = s.db.operations ++ [(s.db.appendOperation call.params).2] ∧
        s'.channel = s.channel) ∨
      ∃ n ok envelope, before = .applied n ok (.publishing envelope) ∧
        s'.db.operations = s.db.operations ∧ s'.channel = s.channel ++ [envelope] := by
  cases h with
  | append _ _ envelope henvelope hoperations hchannel =>
      exact Or.inr (Or.inl ⟨henvelope ▸ hoperations, hchannel⟩)
  | publish n ok envelope hoperations hchannel =>
      exact Or.inr (Or.inr ⟨n, ok, envelope, rfl, hoperations, hchannel⟩)
  | passLimit hsame => exact Or.inl hsame
  | refuse _ _ hsame => exact Or.inl hsame
  | ask _ hsame => exact Or.inl hsame
  | apply _ _ hsame => exact Or.inl hsame
  | update _ _ _ hsame => exact Or.inl hsame
  | finish _ _ _ hsame => exact Or.inl hsame

/-- The channel only grows, by what the publishing call has stored. -/
theorem channel_step {a : PoolAction W K} (h : s.step a = some s') :
    s'.channel = s.channel ∨ ∃ k call envelope, s.calls k = some call ∧
      call.stored = some envelope ∧ s'.channel = s.channel ++ [envelope] := by
  rcases log_step h with hsame | ⟨k, call, stage, -, hcall, -, hprogress⟩
  · exact Or.inl hsame.channel_eq
  · rcases hprogress.log_cases with
      hsame | ⟨-, hchannel⟩ | ⟨n, ok, envelope, hstage, -, hchannel⟩
    · exact Or.inl hsame.channel_eq
    · exact Or.inl hchannel
    · exact Or.inr ⟨k, call, envelope, hcall, OperationCall.stored_of_stage hstage, hchannel⟩

/-- The log only grows, by the row that the storing call appends. -/
theorem operations_step {a : PoolAction W K} (h : s.step a = some s') :
    s'.db.operations = s.db.operations ∨ ∃ k call, s.calls k = some call ∧
      s'.db.operations = s.db.operations ++ [(s.db.appendOperation call.params).2] := by
  rcases log_step h with hsame | ⟨k, call, stage, -, hcall, -, hprogress⟩
  · exact Or.inl hsame.operations_eq
  · rcases hprogress.log_cases with hsame | ⟨hoperations, -⟩ | ⟨-, -, -, -, hoperations, -⟩
    · exact Or.inl hsame.operations_eq
    · exact Or.inr ⟨k, call, hcall, hoperations⟩
    · exact Or.inl hoperations

/-- Rows are stored in the order of their seqs. -/
def StoresInOrder (s : WorkerPool W K) : Prop :=
  s.db.operations.Pairwise fun row row' => row.seq < row'.seq

lemma StoresInOrder.step {a : PoolAction W K} (hs : StoresInOrder s) (h : s.step a = some s') :
    StoresInOrder s' := by
  rcases operations_step h with hsame | ⟨-, call, -, hoperations⟩
  · rw [StoresInOrder, hsame]
    exact hs
  · rw [StoresInOrder, hoperations]
    refine List.pairwise_append.mpr ⟨hs, List.pairwise_singleton .., fun row hrow row' hrow' => ?_⟩
    rw [List.mem_singleton.mp hrow']
    exact Nat.lt_succ_of_le (s.db.operations_le row hrow)

/-- Whatever is published has been stored. -/
def PublishesStored (s : WorkerPool W K) : Prop := s.channel ⊆ s.db.operations

lemma PublishesStored.step {a : PoolAction W K} (hs : PublishesStored s) (hrec : Recorded s)
    (h : s.step a = some s') : PublishesStored s' := by
  intro envelope hmem
  refine (step_grows h).operations_subset ?_
  rcases channel_step h with hsame | ⟨k, call, published, hcall, hstored, hchannel⟩
  · exact hs (hsame ▸ hmem)
  · rw [hchannel] at hmem
    rcases List.mem_append.mp hmem with hmem | hmem
    · exact hs hmem
    · rw [List.mem_singleton.mp hmem]
      exact (hrec.stored_mem k call published hcall hstored).1

/-- No worker is ahead of the channel. -/
def DeliversPublished (s : WorkerPool W K) : Prop := ∀ w, s.delivered w ≤ s.channel.length

lemma DeliversPublished.step {a : PoolAction W K} (hs : DeliversPublished s)
    (h : s.step a = some s') : DeliversPublished s' := by
  have hgrows : s.channel.length ≤ s'.channel.length := by
    rcases channel_step h with hsame | ⟨-, -, envelope, -, -, hchannel⟩
    · rw [hsame]
    · simp [hchannel]
  have hrest : s'.delivered = s.delivered → DeliversPublished s' := fun heq w => by
    rw [heq]
    exact (hs w).trans hgrows
  cases a with
  | deliver w =>
      rw [WorkerPool.step] at h
      split at h
      · rename_i hlt
        obtain rfl := Option.some.inj h
        intro w'
        by_cases hw : w' = w
        · subst hw
          simpa using Nat.succ_le_of_lt hlt
        · simpa [hw] using hs w'
      · simp at h
  | advance k =>
      obtain ⟨_, _, _, _, hdelivered, _⟩ := advance_progress h
      exact hrest hdelivered
  | begin k w session msg =>
      rw [WorkerPool.step] at h
      split at h
      · obtain rfl := Option.some.inj h
        exact hrest rfl
      · simp at h
  | refuse k ms =>
      obtain ⟨call, -, h⟩ := Option.bind_eq_some_iff.mp h
      rw [refuseCall] at h
      split at h
      · obtain rfl := Option.some.inj h
        exact hrest rfl
      · obtain rfl := Option.some.inj h
        exact hrest rfl
      · simp at h
  | throwAppend k =>
      obtain ⟨_, _, _, _, _, rfl⟩ := throwAppend_eq h
      exact hrest rfl
  | join w =>
      obtain rfl := Option.some.inj h
      exact hrest rfl
  | load w n => exact hrest (background_same h trivial).delivered_eq
  | evict w => exact hrest (background_same h trivial).delivered_eq
  | forceSnapshot w => exact hrest (background_same h trivial).delivered_eq
  | job i => exact hrest (background_same h trivial).delivered_eq
  | skipJob i => exact hrest (background_same h trivial).delivered_eq

end WorkerPool

end SyncEngine
