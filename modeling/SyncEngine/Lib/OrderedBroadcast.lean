import SyncEngine.Lib.CausalReplay

/-!
# Broadcast through one log

Participants make operations, each building on what its maker has seen, and publish them to one
log, every participant its own ones in the order in which it made them.  Everybody reads the
entries of the log in their order; an entry may be read several times.

Two invariants of a single participant say what this is good for.

* `Contributes`: the log, followed by what the participant has yet to publish, is causal, and
  gives everything the participant has seen.  In particular the log itself is causal.
* `Reads`: of the first `n` entries of the log, each is waiting for the participant or has been
  dealt with.  As the waiting entries are in order, the next one finds what it needs among the
  entries that have been dealt with (`Reads.needs_met`): causal order costs nothing here.
-/

namespace OrderedBroadcast

open CausalReplay

variable {ω ι : Type*} {needs gives : ω → Set ι} {log pending : List ω} {seen seen' : Set ι}
  {o : ω}

/-! ## Contributing to the log -/

/-- What a participant has made and seen goes back to the log and to its own operations. -/
structure Contributes (needs gives : ω → Set ι) (log pending : List ω) (seen : Set ι) : Prop where
  causal : Causal needs gives (log ++ pending)
  given : ∀ d ∈ seen, ∃ p ∈ log ++ pending, d ∈ gives p

namespace Contributes

/-- Who has made nothing yet has seen what the log gives. -/
lemma of_seen (hlog : Causal needs gives log) (hseen : ∀ d ∈ seen, ∃ p ∈ log, d ∈ gives p) :
    Contributes needs gives log [] seen :=
  ⟨by rwa [List.append_nil], by simpa using hseen⟩

/-- The log of a participant is causal. -/
lemma causal_log (h : Contributes needs gives log pending seen) : Causal needs gives log :=
  h.causal.of_append

/-- A participant makes an operation out of what it has seen. -/
lemma make (h : Contributes needs gives log pending seen) (hneeds : needs o ⊆ seen)
    (hseen : ∀ d ∈ seen', d ∈ seen ∨ d ∈ gives o) :
    Contributes needs gives log (pending ++ [o]) seen' where
  causal := by
    rw [← List.append_assoc]
    exact causal_concat_iff.mpr ⟨h.causal, fun d hd => h.given d (hneeds hd)⟩
  given d hd := by
    rcases hseen d hd with hd | hd
    · obtain ⟨p, hp, hgives⟩ := h.given d hd
      exact ⟨p, by simpa [or_assoc] using Or.inl (List.mem_append.mp hp), hgives⟩
    · exact ⟨o, by simp, hd⟩

/-- It publishes its oldest operation. -/
lemma publish (h : Contributes needs gives log (o :: pending) seen) :
    Contributes needs gives (log ++ [o]) pending seen :=
  ⟨by simpa using h.causal, by simpa using h.given⟩

/-- Somebody else publishes an operation. -/
lemma publish_other (h : Contributes needs gives log pending seen)
    (hlog : Causal needs gives (log ++ [o])) :
    Contributes needs gives (log ++ [o]) pending seen where
  causal := hlog.insert h.causal
  given d hd := by
    obtain ⟨p, hp, hgives⟩ := h.given d hd
    rcases List.mem_append.mp hp with hp | hp <;> exact ⟨p, by simp [hp], hgives⟩

/-- The participant sees more of the log. -/
lemma see (h : Contributes needs gives log pending seen)
    (hseen : ∀ d ∈ seen', d ∈ seen ∨ ∃ p ∈ log, d ∈ gives p) :
    Contributes needs gives log pending seen' where
  causal := h.causal
  given d hd := by
    rcases hseen d hd with hd | ⟨p, hp, hgives⟩
    · exact h.given d hd
    · exact ⟨p, by simp [hp], hgives⟩

end Contributes

/-! ## Reading the log -/

/-- Of the first `n` entries of the log, each is waiting or has been dealt with, and the waiting
ones are in the order of the log. -/
def Reads (log : List ω) (n : Nat) (waiting : List ω) (done : ω → Prop) : Prop :=
  ∃ js : List Nat, js.Pairwise (· ≤ ·) ∧ (∀ j ∈ js, j < n) ∧
    js.map (log[·]?) = waiting.map some ∧ ∀ i < n, i ∈ js ∨ ∀ p ∈ log[i]?, done p

variable {n k : Nat} {waiting : List ω} {done done' : ω → Prop}

/-- Who has dealt with the first `n` entries waits for none of them. -/
lemma reads_of_done (h : ∀ p ∈ log.take n, done p) : Reads log n [] done := by
  refine ⟨[], List.Pairwise.nil, by simp, rfl, fun i hi => Or.inr fun p hp => h p ?_⟩
  rw [List.mem_take_iff_getElem]
  obtain ⟨hlt, rfl⟩ := List.getElem?_eq_some_iff.mp hp
  exact ⟨i, by omega, rfl⟩

namespace Reads

lemma mono (h : Reads log n waiting done) (hdone : ∀ p, done p → done' p) :
    Reads log n waiting done' := by
  obtain ⟨js, hsorted, hlt, hjs, hall⟩ := h
  exact ⟨js, hsorted, hlt, hjs, fun i hi => (hall i hi).imp id fun h p hp => hdone p (h p hp)⟩

/-- The log grows. -/
lemma append (h : Reads log n waiting done) (hn : n ≤ log.length) (l : List ω) :
    Reads (log ++ l) n waiting done := by
  obtain ⟨js, hsorted, hlt, hjs, hall⟩ := h
  have hget : ∀ i < n, (log ++ l)[i]? = log[i]? := fun i hi =>
    List.getElem?_append_left (hi.trans_le hn)
  refine ⟨js, hsorted, hlt, ?_, fun i hi => by rw [hget i hi]; exact hall i hi⟩
  rw [← hjs]
  exact List.map_congr_left fun j hj => hget j (hlt j hj)

/-- The next entry arrives, once or several times. -/
lemma deliver (h : Reads log n waiting done) (ho : log[n]? = some o) (hk : 0 < k) :
    Reads log (n + 1) (waiting ++ List.replicate k o) done := by
  obtain ⟨js, hsorted, hlt, hjs, hall⟩ := h
  refine ⟨js ++ List.replicate k n, ?_, fun j hj => ?_, ?_, fun i hi => ?_⟩
  · refine List.pairwise_append.mpr ⟨hsorted, List.pairwise_replicate.mpr (Or.inr le_rfl), ?_⟩
    intro j hj m hm
    rw [List.eq_of_mem_replicate hm]
    exact (hlt j hj).le
  · rcases List.mem_append.mp hj with hj | hj
    · exact (hlt j hj).trans (Nat.lt_succ_self n)
    · rw [List.eq_of_mem_replicate hj]
      exact Nat.lt_succ_self n
  · simp [hjs, ho]
  · rcases Nat.lt_succ_iff_lt_or_eq.mp hi with hi | rfl
    · exact (hall i hi).imp (fun hmem => List.mem_append_left _ hmem) id
    · exact Or.inl (List.mem_append_right _ (List.mem_replicate.mpr ⟨hk.ne', rfl⟩))

/-- The first waiting entry is dealt with. -/
lemma handle (h : Reads log n (o :: waiting) done) (hdone : ∀ p, done p → done' p)
    (ho : done' o) : Reads log n waiting done' := by
  obtain ⟨js, hsorted, hlt, hjs, hall⟩ := h
  cases js with
  | nil => simp at hjs
  | cons j js =>
      obtain ⟨hj, hjs⟩ : log[j]? = some o ∧ js.map (log[·]?) = waiting.map some := by
        simpa using hjs
      refine ⟨js, (List.pairwise_cons.mp hsorted).2, fun i hi => hlt i (by simp [hi]), hjs,
        fun i hi => ?_⟩
      rcases hall i hi with hmem | hi
      · rcases List.mem_cons.mp hmem with rfl | hmem
        · refine Or.inr fun p hp => ?_
          obtain rfl : o = p := Option.some.inj (hj.symm.trans hp)
          exact ho
        · exact Or.inl hmem
      · exact Or.inr fun p hp => hdone p (hi p hp)

lemma mem_log (h : Reads log n waiting done) (ho : o ∈ waiting) : o ∈ log := by
  obtain ⟨js, -, -, hjs, -⟩ := h
  have hmem : some o ∈ js.map (log[·]?) := hjs ▸ List.mem_map_of_mem ho
  obtain ⟨j, -, hj⟩ := List.mem_map.mp hmem
  exact List.mem_of_getElem? hj

/-- What has arrived is waiting or has been dealt with. -/
lemma mem_or_done (h : Reads log n waiting done) (ho : o ∈ log.take n) :
    o ∈ waiting ∨ done o := by
  obtain ⟨js, -, -, hjs, hall⟩ := h
  rw [List.mem_take_iff_getElem] at ho
  obtain ⟨i, hi, rfl⟩ := ho
  have hget : log[i]? = some log[i] := List.getElem?_eq_getElem (by omega)
  rcases hall i (by omega) with hmem | hdone
  · refine Or.inl ?_
    have hsome : some log[i] ∈ waiting.map some := by
      rw [← hjs, ← hget]
      exact List.mem_map_of_mem hmem
    simpa using hsome
  · exact Or.inr (hdone _ hget)

/-- **The next entry finds what it needs** among the entries that have been dealt with. -/
theorem needs_met (h : Reads log n (o :: waiting) done) (hcausal : Causal needs gives log) :
    ∀ d ∈ needs o, ∃ p ∈ log, done p ∧ d ∈ gives p := by
  obtain ⟨js, hsorted, hlt, hjs, hall⟩ := h
  cases js with
  | nil => simp at hjs
  | cons j js =>
      obtain ⟨hj, -⟩ : log[j]? = some o ∧ js.map (log[·]?) = waiting.map some := by
        simpa using hjs
      obtain ⟨hlen, rfl⟩ := List.getElem?_eq_some_iff.mp hj
      have hsplit : log.take j ++ [log[j]] ++ log.drop (j + 1) = log := by
        rw [← List.take_succ_eq_append_getElem hlen, List.take_append_drop]
      have hneeds := (causal_concat_iff.mp (hsplit ▸ hcausal :
        Causal needs gives (log.take j ++ [log[j]] ++ log.drop (j + 1))).of_append).2
      intro d hd
      obtain ⟨p, hp, hgives⟩ := hneeds d hd
      rw [List.mem_take_iff_getElem] at hp
      obtain ⟨i, hi, rfl⟩ := hp
      have hij : i < j := by omega
      refine ⟨_, List.getElem_mem _, ?_, hgives⟩
      -- an earlier entry can no longer be waiting
      rcases hall i (hij.trans (hlt j (by simp))) with hmem | hdone
      · rcases List.mem_cons.mp hmem with rfl | hmem
        · omega
        · have hle := (List.pairwise_cons.mp hsorted).1 i hmem
          omega
      · exact hdone _ (List.getElem?_eq_getElem _)

end Reads

end OrderedBroadcast
