import SyncEngine.Lib.LastWrite
import SyncEngine.Server.PresenceKeys

/-!
# The list of collaborators

What a client shows of the others: the list of its JOIN_ACK, which the worker has read from Redis,
and after it every PRESENCE_UPDATE and USER_LEFT as it arrives (`handleServerMessage` in
`client/hooks/useCollaborativeDoc.ts`).
-/

namespace SyncEngine

open LastWrite Transition

/-- What an event tells of a session. -/
def tells (id : JSString) : PresenceEvent → Option (Option UserPresence)
  | .update presence => if presence.sessionId = id then some (some presence) else none
  | .userLeft sessionId _ => if sessionId = id then some none else none

/-- What a list of collaborators shows of a session. -/
def shown (id : JSString) (presence : List UserPresence) : Option UserPresence :=
  presence.find? fun u => u.sessionId = id

variable {id : JSString} {presence : List UserPresence}

lemma shown_filter (id sessionId : JSString) (presence : List UserPresence) :
    shown id (presence.filter fun u => u.sessionId ≠ sessionId) =
      if id = sessionId then none else shown id presence := by
  rw [shown, List.find?_filter]
  split_ifs with hid
  · refine List.find?_eq_none.mpr fun u _ => ?_
    simp [hid]
  · refine congrArg (fun f => presence.find? f) (funext fun u => ?_)
    by_cases hu : u.sessionId = id
    · simp [hu, hid]
    · simp [hu]

lemma shown_onPresenceEvent (id : JSString) (presence : List UserPresence)
    (event : PresenceEvent) :
    shown id (onPresenceEvent presence event) = (tells id event).getD (shown id presence) := by
  cases event with
  | update p =>
      have happend : shown id (onPresenceEvent presence (.update p)) =
          (shown id (presence.filter fun u => u.sessionId ≠ p.sessionId)).or
            (shown id [p]) := List.find?_append
      rw [happend, shown_filter, tells]
      by_cases hid : p.sessionId = id
      · simp [shown, hid]
      · rw [if_neg (Ne.symm hid), if_neg hid]
        simp [shown, hid]
  | userLeft sessionId userId =>
      rw [onPresenceEvent, shown_filter, tells]
      by_cases hid : sessionId = id
      · rw [if_pos hid.symm, if_pos hid, Option.getD_some]
      · rw [if_neg (Ne.symm hid), if_neg hid, Option.getD_none]

lemma nodup_onPresenceEvent (h : (presence.map UserPresence.sessionId).Nodup)
    (event : PresenceEvent) :
    ((onPresenceEvent presence event).map UserPresence.sessionId).Nodup := by
  have hfilter : ∀ sessionId, ((presence.filter fun u => u.sessionId ≠ sessionId).map
      UserPresence.sessionId).Nodup := fun _ => h.sublist (List.filter_sublist.map _)
  cases event with
  | update p =>
      refine nodup_map_append_singleton (hfilter p.sessionId) fun u hu => ?_
      exact of_decide_eq_true (List.mem_filter.mp hu).2
  | userLeft sessionId userId => exact hfilter sessionId

lemma mem_iff_shown (h : (presence.map UserPresence.sessionId).Nodup) {p : UserPresence} :
    p ∈ presence ↔ shown p.sessionId presence = some p := by
  constructor
  · intro hp
    cases hfind : shown p.sessionId presence with
    | none => exact absurd (decide_eq_true rfl) (List.find?_eq_none.mp hfind p hp)
    | some q =>
        have hid : q.sessionId = p.sessionId := by simpa using List.find?_some hfind
        exact congrArg some (List.inj_on_of_nodup_map h (List.mem_of_find?_eq_some hfind) hp hid)
  · exact fun hfind => List.mem_of_find?_eq_some hfind

lemma shown_foldl (id : JSString) (presence : List UserPresence) (events : List PresenceEvent) :
    shown id (events.foldl onPresenceEvent presence) =
      (lastWrite (tells id) events).getD (shown id presence) := by
  have hrun := @read_foldl _ _ _ (tells id) onPresenceEvent (fun l => some (shown id l)) presence
    events fun pre event post _ => by
      rw [shown_onPresenceEvent]
      cases tells id event <;> rfl
  cases hlast : lastWrite (tells id) events <;> simpa [hlast] using hrun

namespace PresenceStore

variable {K : Type*} {s s' : PresenceStore K}

/-- **What a client shows** after its JOIN_ACK: of every session the last PRESENCE_UPDATE, unless
USER_LEFT has come after it; or, if there was neither, what Redis held when the JOIN was
answered. -/
theorem collaborators_shown (h : Reach step Separate start s) (h' : Reach step Separate s s')
    {docId : JSString} (hdoc : JSString.colon ∉ docId) (events : List PresenceEvent) :
    ((events.foldl onPresenceEvent (s.getAllPresence s' docId)).map
        UserPresence.sessionId).Nodup ∧
      ∀ p, p ∈ events.foldl onPresenceEvent (s.getAllPresence s' docId) ↔
        lastWrite (tells p.sessionId) events = some (some p) ∨
          lastWrite (tells p.sessionId) events = none ∧
            (∃ q, s.Shows docId q ∧ q.sessionId = p.sessionId) ∧ s'.Shows docId p := by
  have hs := sound_of_reach h
  have hs' := sound_of_reach (h.trans h')
  have hack := hs.nodup_getAllPresence hs' hdoc
  have hnodup : ((events.foldl onPresenceEvent (s.getAllPresence s' docId)).map
      UserPresence.sessionId).Nodup := by
    generalize s.getAllPresence s' docId = presence at hack
    induction events generalizing presence with
    | nil => exact hack
    | cons event events ih => exact ih _ (nodup_onPresenceEvent hack event)
  refine ⟨hnodup, fun p => ?_⟩
  rw [mem_iff_shown hnodup, shown_foldl, ← hs.mem_getAllPresence hs' hdoc, mem_iff_shown hack]
  cases lastWrite (tells p.sessionId) events with
  | none => simp
  | some last => simp

/-- Who has idled shows up with the next move, and goes with USER_LEFT. -/
theorem collaborators_shown_idled :
    buildInitialPresence (PresenceFanout.collaborator "a" 0).toWorkerSession ∈
        [PresenceEvent.update
          (buildInitialPresence (PresenceFanout.collaborator "a" 0).toWorkerSession),
          .userLeft (JSString.lit "b") (JSString.lit "u")].foldl onPresenceEvent
          (twoPresences.getAllPresence idled (JSString.lit "doc")) ∧
      buildInitialPresence (PresenceFanout.collaborator "b" 1).toWorkerSession ∉
        [PresenceEvent.update
          (buildInitialPresence (PresenceFanout.collaborator "a" 0).toWorkerSession),
          .userLeft (JSString.lit "b") (JSString.lit "u")].foldl onPresenceEvent
          (twoPresences.getAllPresence idled (JSString.lit "doc")) := by
  have hjoined : Reach step Separate start twoPresences := reach_get _
  have hidled : Reach step Separate twoPresences idled := reach_get _
  have hdoc : JSString.colon ∉ JSString.lit "doc" := by decide
  obtain ⟨-, hshown⟩ := collaborators_shown hjoined hidled hdoc [PresenceEvent.update
    (buildInitialPresence (PresenceFanout.collaborator "a" 0).toWorkerSession),
    .userLeft (JSString.lit "b") (JSString.lit "u")]
  constructor
  · exact (hshown _).mpr (.inl (by decide +kernel))
  · intro hmem
    rcases (hshown _).mp hmem with hlast | ⟨hlast, -⟩
    · exact absurd hlast (by decide +kernel)
    · exact absurd hlast (by decide +kernel)

end PresenceStore

end SyncEngine
