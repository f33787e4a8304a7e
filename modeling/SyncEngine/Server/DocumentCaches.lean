import SyncEngine.Lib.EvictingCache
import SyncEngine.Lib.PerKey
import SyncEngine.Lib.Transition
import SyncEngine.Server.DocumentCache

/-!
# The cache of all documents

The module `server/sync/document-cache.ts` as a worker has it: one `LRUCache` for the entries of
all documents, one map of the loads under way, and the promises of every document mixed.  The
`Worker` is what a single document sees of it.

The LRU cache is any `EvictingCache`; that it has a bounded number of entries, and drops some when
others are stored or after a time, is all that is used of it.

`run_document` is the refinement: a run of the module is, for each document, a run of its `Worker`
with the same calls in the same order, and an `evict` where the cache has dropped its entry.  What
is proved of one document's worker is true of each document in the cache, however many there are
and however few of them fit.
-/

namespace SyncEngine

open Transition PerKey

/-! ## One document -/

/-- What happens to the cache of one document. -/
inductive WorkerEvent where
  | getOrLoadDocument
  | advanceLoad (db : Database) (n : Nat)
  /-- A query of the load throws. -/
  | rejectLoad (n : Nat)
  | updateCachedDocument (mutator : CachedDocument → CachedDocument)
  /-- Somebody who holds the entry of a load mutates it. -/
  | mutate (n : Nat) (f : CachedDocument → CachedDocument)
  | evict

namespace Worker

/-- The `finally` of a load that has thrown. -/
def rejectLoad (w : Worker) : Worker := { w with loadingPromise := none }

/-- A load goes on as long as it is the one under way. -/
def step (w : Worker) : WorkerEvent → Option Worker
  | .getOrLoadDocument => some w.getOrLoadDocument.1
  | .advanceLoad db n => if w.loadingPromise = some n then w.advanceLoad db n else none
  | .rejectLoad n => if w.loadingPromise = some n then some w.rejectLoad else none
  | .updateCachedDocument mutator => some (w.updateCachedDocument mutator)
  | .mutate n f => some (w.mutate n f)
  | .evict => some w.evict

/-- Nothing is cached and nothing is under way. -/
lemma getOrLoadDocument_ask {w : Worker} (hcache : w.cache = none)
    (hloading : w.loadingPromise = none) :
    w.getOrLoadDocument =
      ({ w with loads := w.loads ++ [.awaitSnapshot], loadingPromise := some w.loads.length },
        w.loads.length) := by
  rw [getOrLoadDocument, hcache, hloading]

/-- A step of a load, with the stages it goes from and to. -/
lemma advanceLoad_of {w : Worker} {db : Database} {n : Nat} {stage stage' : LoadStage}
    (hload : w.loads[n]? = some stage) (hnext : stage.next db = some stage') :
    w.advanceLoad db n =
      some
        { loads := w.loads.set n stage'
          loadingPromise := if stage'.isResolved then none else w.loadingPromise
          cache := if stage'.isResolved then some n else w.cache } := by
  rw [advanceLoad, hload, Option.bind_eq_bind, Option.bind_some, hnext]
  rfl

lemma mutate_of {w : Worker} {n : Nat} {stage : LoadStage} (hload : w.loads[n]? = some stage)
    (f : CachedDocument → CachedDocument) :
    w.mutate n f = { w with loads := w.loads.set n (stage.mutate f) } := by
  rw [mutate, List.modify_eq_set_getElem?, hload]
  rfl

end Worker

/-! ## All documents -/

/-- The state of the module, for the documents `D` and an LRU cache with the states `C`. -/
structure CacheModule (D C : Type*) where
  /-- The entries: a document and the load that has built its entry. -/
  cache : C
  /-- The map from documents to the loads under way. -/
  loadingPromises : D → Option Nat
  /-- All loads so far; the number of a load is its promise. -/
  loads : List (D × LoadStage)

/-- A call of the module, an await of a load, or a change of an entry that a caller holds. -/
inductive CacheEvent (D : Type*) where
  | getOrLoadDocument (now : Nat) (docId : D)
  | advanceLoad (now : Nat) (db : D → Database) (n : Nat)
  | rejectLoad (n : Nat)
  | updateCachedDocument (now : Nat) (docId : D) (mutator : CachedDocument → CachedDocument)
  | mutate (n : Nat) (f : CachedDocument → CachedDocument)
  | invalidateDocument (docId : D)

/-- What `getCacheStats` returns.  Here `size` is the number of live keys; that of the cache itself
also counts entries whose time is over and that nobody has asked for since. -/
structure CacheStats (D : Type*) where
  size : Nat
  maxSize : Nat
  keys : List D

namespace CacheModule

variable {D C : Type*} [DecidableEq D] (lru : EvictingCache D Nat C)

/-- The module as it is loaded. -/
def start : CacheModule D C := ⟨lru.empty, fun _ => none, []⟩

/-- Returns the load whose entry the caller gets. -/
def getOrLoadDocument (s : CacheModule D C) (now : Nat) (docId : D) : CacheModule D C × Nat :=
  match lru.get now docId s.cache with
  | (some n, cache) => ({ s with cache := cache }, n)
  | (none, cache) =>
      match s.loadingPromises docId with
      | some n => ({ s with cache := cache }, n)
      | none =>
          ({ cache := cache
             loadingPromises := Function.update s.loadingPromises docId (some s.loads.length)
             loads := s.loads ++ [(docId, .awaitSnapshot)] }, s.loads.length)

/-- One step of a load under way; the last one puts the entry into the cache. -/
def advanceLoad (s : CacheModule D C) (now : Nat) (db : D → Database) (n : Nat) :
    Option (CacheModule D C) :=
  match s.loads[n]? with
  | some (docId, stage) =>
      if s.loadingPromises docId = some n then
        (stage.next (db docId)).map fun stage' =>
          if stage'.isResolved then
            { cache := lru.set now docId n s.cache
              loadingPromises := Function.update s.loadingPromises docId none
              loads := s.loads.set n (docId, stage') }
          else { s with loads := s.loads.set n (docId, stage') }
      else none
  | none => none

/-- A load under way throws. -/
def rejectLoad (s : CacheModule D C) (n : Nat) : Option (CacheModule D C) :=
  match s.loads[n]? with
  | some (docId, _) =>
      if s.loadingPromises docId = some n then
        some { s with loadingPromises := Function.update s.loadingPromises docId none }
      else none
  | none => none

/-- Mutates the entry of a resolved load. -/
def mutate (s : CacheModule D C) (n : Nat) (f : CachedDocument → CachedDocument) :
    CacheModule D C :=
  match s.loads[n]? with
  | some (docId, stage) => { s with loads := s.loads.set n (docId, stage.mutate f) }
  | none => s

/-- Mutates the cached entry, if there is one, and stores it again. -/
def updateCachedDocument (s : CacheModule D C) (now : Nat) (docId : D)
    (mutator : CachedDocument → CachedDocument) : CacheModule D C :=
  match lru.get now docId s.cache with
  | (some n, cache) => { s.mutate n mutator with cache := lru.set now docId n cache }
  | (none, cache) => { s with cache := cache }

/-- The cache drops the document. -/
def invalidateDocument (s : CacheModule D C) (docId : D) : CacheModule D C :=
  { s with cache := lru.delete docId s.cache }

/-- What `/health` says of the cache. -/
def getCacheStats (s : CacheModule D C) : CacheStats D where
  size := (lru.keys s.cache).length
  maxSize := lru.max
  keys := lru.keys s.cache

/-- One event, if it can happen. -/
def step (s : CacheModule D C) : CacheEvent D → Option (CacheModule D C)
  | .getOrLoadDocument now docId => some (s.getOrLoadDocument lru now docId).1
  | .advanceLoad now db n => s.advanceLoad lru now db n
  | .rejectLoad n => s.rejectLoad n
  | .updateCachedDocument now docId mutator => some (s.updateCachedDocument lru now docId mutator)
  | .mutate n f => if n < s.loads.length then some (s.mutate n f) else none
  | .invalidateDocument docId => some (s.invalidateDocument lru docId)

/-! ## What a document sees of a run -/

/-- The document's own cache: its loads with their own numbers. -/
def document (s : CacheModule D C) (d : D) : Worker where
  loads := entriesOf d s.loads
  loadingPromise := (s.loadingPromises d).map (rank d s.loads)
  cache := (lru.entry d s.cache).map (rank d s.loads)

/-- The event of the document's own cache. -/
def ownEvent (s : CacheModule D C) (d : D) : CacheEvent D → List WorkerEvent
  | .getOrLoadDocument _ docId => if docId = d then [.getOrLoadDocument] else []
  | .advanceLoad _ db n =>
      if s.loads[n]?.map Prod.fst = some d then [.advanceLoad (db d) (rank d s.loads n)] else []
  | .rejectLoad n =>
      if s.loads[n]?.map Prod.fst = some d then [.rejectLoad (rank d s.loads n)] else []
  | .updateCachedDocument _ docId mutator =>
      if docId = d then [.updateCachedDocument mutator] else []
  | .mutate n f =>
      if s.loads[n]?.map Prod.fst = some d then [.mutate (rank d s.loads n) f] else []
  | .invalidateDocument _ => []

/-- The cache has dropped the document's entry. -/
def evictions (s s' : CacheModule D C) (d : D) : List WorkerEvent :=
  if (lru.entry d s.cache).isSome ∧ lru.entry d s'.cache = none then [.evict] else []

/-- The run of the document's own cache. -/
def documentRun (d : D) : CacheModule D C → List (CacheEvent D) → List WorkerEvent
  | _, [] => []
  | s, event :: events =>
      match s.step lru event with
      | some s' => s.evictions lru s' d ++ s.ownEvent d event ++ documentRun d s' events
      | none => []

/-! ## The invariant -/

/-- Map and cache name loads of their documents, the map one that is not done, the cache one that
is. -/
structure Sound (s : CacheModule D C) : Prop where
  loading : ∀ d n, s.loadingPromises d = some n →
    ∃ stage : LoadStage, s.loads[n]? = some (d, stage) ∧ stage.isResolved = false
  cached : ∀ d n, lru.entry d s.cache = some n →
    ∃ stage : LoadStage, s.loads[n]? = some (d, stage) ∧ stage.isResolved = true

variable {lru} {s s' : CacheModule D C} {d docId : D} {n m now : Nat}

omit [DecidableEq D] in
lemma sound_start : (start lru).Sound lru where
  loading := by simp [start]
  cached := by simp [start, lru.entry_empty]

omit [DecidableEq D] in
lemma Sound.drop (h : s.Sound lru) {cache : C}
    (hcache : ∀ d, lru.entry d cache = lru.entry d s.cache ∨ lru.entry d cache = none) :
    Sound lru { s with cache := cache } where
  loading := h.loading
  cached d n hentry := by
    rcases hcache d with hsame | hnone
    · exact h.cached d n (hsame ▸ hentry)
    · exact absurd (hnone.symm.trans hentry) (by simp)

/-- The document whose entry is dropped, or is not, has an eviction, or none. -/
lemma document_drop {cache : C}
    (hcache : lru.entry d cache = lru.entry d s.cache ∨ lru.entry d cache = none) :
    runAllowed Worker.step (fun _ _ => True) (s.document lru d)
        (s.evictions lru { s with cache := cache } d) =
      some (document lru { s with cache := cache } d) := by
  unfold evictions
  split_ifs with hlost
  · rw [runAllowed, if_pos trivial]
    simp only [Worker.step, Option.bind_some, runAllowed, Worker.evict, document, hlost.2,
      Option.map_none]
  · rcases hcache with hsame | hnone
    · simp only [runAllowed, document, hsame]
    · have hgone : lru.entry d s.cache = none := by
        by_contra hsome
        exact hlost ⟨Option.isSome_iff_ne_none.mpr hsome, hnone⟩
      simp only [runAllowed, document, hnone, hgone]

/-! ## The steps -/

omit [DecidableEq D] in
lemma loads_set {x : D × LoadStage} (hn : n < s.loads.length) (m : Nat) :
    (s.loads.set n x)[m]? = if m = n then some x else s.loads[m]? := by
  by_cases hm : m = n
  · rw [if_pos hm, hm, List.getElem?_set_self hn]
  · rw [if_neg hm, List.getElem?_set_ne (Ne.symm hm)]

omit [DecidableEq D] in
lemma lt_of_load {x : D × LoadStage} (h : s.loads[n]? = some x) : n < s.loads.length :=
  (List.getElem?_eq_some_iff.mp h).1

/-- A load gets another stage: its document sees it, the others see nothing. -/
lemma document_set {cache : C} {loadingPromises : D → Option Nat} {loads : List (D × LoadStage)}
    {stage : LoadStage} (hload : loads[n]? = some (docId, stage)) (stage' : LoadStage) (d : D) :
    document lru ⟨cache, loadingPromises, loads.set n (docId, stage')⟩ d =
      if docId = d then
        { document lru ⟨cache, loadingPromises, loads⟩ d with
          loads := (entriesOf d loads).set (rank d loads n) stage' }
      else document lru ⟨cache, loadingPromises, loads⟩ d := by
  have hrank : rank d (loads.set n (docId, stage')) = rank d loads :=
    funext fun m => rank_set hload d stage' m
  simp only [document, hrank, entriesOf_set hload]
  split_ifs <;> rfl

omit [DecidableEq D] in
/-- A load gets another stage, and is done after it if it was done before. -/
lemma Sound.set (h : s.Sound lru) {stage stage' : LoadStage}
    (hload : s.loads[n]? = some (docId, stage)) (hstage : stage'.isResolved = stage.isResolved) :
    Sound lru { s with loads := s.loads.set n (docId, stage') } := by
  have hkept : ∀ {d : D} {m : Nat} {st : LoadStage} {b : Bool}, s.loads[m]? = some (d, st) →
      st.isResolved = b → ∃ st' : LoadStage,
        (s.loads.set n (docId, stage'))[m]? = some (d, st') ∧ st'.isResolved = b := by
    intro d m st b hm hst
    rw [loads_set (lt_of_load hload)]
    by_cases hmn : m = n
    · subst hmn
      obtain ⟨rfl, rfl⟩ := Prod.mk.inj (Option.some.inj (hload.symm.trans hm))
      exact ⟨stage', if_pos rfl, hstage.trans hst⟩
    · exact ⟨st, (if_neg hmn).trans hm, hst⟩
  constructor
  · intro d m hm
    obtain ⟨st, hst, hopen⟩ := h.loading d m hm
    exact hkept hst hopen
  · intro d m hm
    obtain ⟨st, hst, hdone⟩ := h.cached d m hm
    exact hkept hst hdone

omit [DecidableEq D] in
lemma evictions_same (s : CacheModule D C) (loadingPromises : D → Option Nat)
    (loads : List (D × LoadStage)) (d : D) :
    s.evictions lru ⟨s.cache, loadingPromises, loads⟩ d = [] := by
  refine if_neg ?_
  rintro ⟨hsome, hnone⟩
  rw [hnone] at hsome
  exact Bool.noConfusion hsome

omit [DecidableEq D] in
lemma evictions_stored (h : lru.entry d s'.cache = some n) : s.evictions lru s' d = [] := by
  refine if_neg ?_
  rintro ⟨-, hnone⟩
  rw [hnone] at h
  simp at h

lemma run_single {w w' : Worker} {event : WorkerEvent} (h : w.step event = some w') :
    runAllowed Worker.step (fun _ _ => True) w [event] = some w' := by
  rw [runAllowed, if_pos trivial, h]
  rfl

/-- A load is asked for when the cache has no entry. -/
lemma document_append (hsound : s.Sound lru) (docId d : D) :
    document lru
        { s with
          loadingPromises := Function.update s.loadingPromises docId (some s.loads.length)
          loads := s.loads ++ [(docId, LoadStage.awaitSnapshot)] } d =
      if docId = d then
        { s.document lru d with
          loads := (s.document lru d).loads ++ [.awaitSnapshot]
          loadingPromise := some (s.document lru d).loads.length }
      else s.document lru d := by
  have hold : ∀ {o : Option Nat}, (∀ n, o = some n → n < s.loads.length) →
      o.map (rank d (s.loads ++ [(docId, LoadStage.awaitSnapshot)])) = o.map (rank d s.loads) := by
    intro o ho
    cases o with
    | none => rfl
    | some n => exact congrArg some (rank_append d _ (ho n rfl).le)
  have hcached : ∀ n, lru.entry d s.cache = some n → n < s.loads.length := fun n hn => by
    obtain ⟨stage, hload, -⟩ := hsound.cached d n hn
    exact lt_of_load hload
  have hloading : ∀ n, s.loadingPromises d = some n → n < s.loads.length := fun n hn => by
    obtain ⟨stage, hload, -⟩ := hsound.loading d n hn
    exact lt_of_load hload
  simp only [document, hold hcached, entriesOf_append, entriesOf_cons, entriesOf_nil]
  by_cases hd : docId = d
  · subst hd
    simp only [if_true, Function.update_self, Option.map_some]
    rw [rank_append docId _ le_rfl, rank_length]
  · simp only [if_neg hd, Function.update_of_ne (Ne.symm hd), hold hloading, List.append_nil]

/-- `getOrLoadDocument`, behind what the cache has dropped: the document's own cache gives the
same load. -/
lemma getOrLoadDocument_document (hsound : s.Sound lru) (now : Nat) (docId : D) :
    (s.getOrLoadDocument lru now docId).1.Sound lru ∧
    ∀ s₁ : CacheModule D C, s₁ = { s with cache := (lru.get now docId s.cache).2 } →
      (s.getOrLoadDocument lru now docId).1.cache = s₁.cache ∧
      (s₁.document lru docId).getOrLoadDocument =
        ((s.getOrLoadDocument lru now docId).1.document lru docId,
          rank docId (s.getOrLoadDocument lru now docId).1.loads
            (s.getOrLoadDocument lru now docId).2) ∧
      ∀ d, docId ≠ d →
        (s.getOrLoadDocument lru now docId).1.document lru d = s₁.document lru d := by
  have hdrop := hsound.drop (lru.get_entry now docId · s.cache)
  have hfst := lru.get_fst now docId s.cache
  unfold getOrLoadDocument
  split
  · rename_i n cache hget
    rw [hget] at hdrop hfst
    refine ⟨hdrop, ?_⟩
    rintro s₁ rfl
    rw [hget]
    refine ⟨rfl, ?_, fun d _ => rfl⟩
    have hentry : (document lru { s with cache := cache } docId).cache =
        some (rank docId s.loads n) := by rw [document, ← hfst]; rfl
    rw [Worker.getOrLoadDocument, hentry]
  · rename_i cache hget
    rw [hget] at hdrop hfst
    have hentry : (document lru { s with cache := cache } docId).cache = none := by
      rw [document, ← hfst]; rfl
    split
    · rename_i n hloading
      refine ⟨hdrop, ?_⟩
      rintro s₁ rfl
      rw [hget]
      refine ⟨rfl, ?_, fun d _ => rfl⟩
      have hpromise : (document lru { s with cache := cache } docId).loadingPromise =
          some (rank docId s.loads n) := by rw [document, hloading]; rfl
      rw [Worker.getOrLoadDocument, hentry, hpromise]
    · rename_i hloading
      have hpromise : (document lru { s with cache := cache } docId).loadingPromise = none := by
        rw [document, hloading]; rfl
      refine ⟨⟨fun d n hn => ?_, fun d n hn => ?_⟩, ?_⟩
      · have hupdate :
            Function.update s.loadingPromises docId (some s.loads.length) d = some n := hn
        by_cases hd : d = docId
        · subst hd
          rw [Function.update_self] at hupdate
          obtain rfl := Option.some.inj hupdate
          exact ⟨.awaitSnapshot, List.getElem?_concat_length, rfl⟩
        · rw [Function.update_of_ne hd] at hupdate
          obtain ⟨stage, hload, hopen⟩ := hsound.loading d n hupdate
          exact ⟨stage, (List.getElem?_append_left (lt_of_load hload)).trans hload, hopen⟩
      · obtain ⟨stage, hload, hdone⟩ := hdrop.cached d n hn
        exact ⟨stage, (List.getElem?_append_left (lt_of_load hload)).trans hload, hdone⟩
      · rintro s₁ rfl
        rw [hget]
        have hdoc := document_append hdrop docId
        refine ⟨rfl, ?_, fun d hd => (hdoc d).trans (if_neg hd)⟩
        rw [Worker.getOrLoadDocument_ask hentry hpromise]
        refine Prod.ext ?_ ?_
        · exact ((hdoc docId).trans (if_pos rfl)).symm
        · rw [rank_append docId _ le_rfl, rank_length]
          rfl

lemma document_loadingPromise (cache : C) (loadingPromises : D → Option Nat)
    (loads : List (D × LoadStage)) (docId d : D) :
    document lru ⟨cache, Function.update loadingPromises docId none, loads⟩ d =
      if docId = d then
        { document lru ⟨cache, loadingPromises, loads⟩ d with loadingPromise := none }
      else document lru ⟨cache, loadingPromises, loads⟩ d := by
  by_cases hd : docId = d
  · subst hd
    simp only [document, Function.update_self, if_true, Option.map_none]
  · simp only [document, Function.update_of_ne (Ne.symm hd), if_neg hd]

/-- The load under way has the same number in its document's own cache, and no other one. -/
lemma loadingPromise_document (h : s.loadingPromises docId = some n) :
    (s.document lru docId).loadingPromise = some (rank docId s.loads n) := by
  rw [document, h]
  rfl

lemma Sound.forget (h : s.Sound lru) (docId : D) :
    Sound lru { s with loadingPromises := Function.update s.loadingPromises docId none } where
  loading d n hn := by
    by_cases hd : d = docId
    · subst hd
      simp at hn
    · exact h.loading d n ((Function.update_of_ne hd ..).symm.trans hn)
  cached := h.cached

omit [DecidableEq D] in
lemma ownLoad {stage : LoadStage} (hload : s.loads[n]? = some (docId, stage)) (d : D) :
    s.loads[n]?.map Prod.fst = some d ↔ docId = d := by
  rw [hload, Option.map_some, Option.some.injEq]

lemma advanceLoad_document (hsound : s.Sound lru) {db : D → Database}
    (h : s.advanceLoad lru now db n = some s') :
    s'.Sound lru ∧ ∀ d, runAllowed Worker.step (fun _ _ => True) (s.document lru d)
      (s.evictions lru s' d ++ s.ownEvent d (.advanceLoad now db n)) =
        some (s'.document lru d) := by
  unfold advanceLoad at h
  split at h
  · rename_i docId stage hload
    split_ifs at h with hunder
    obtain ⟨stage', hnext, rfl⟩ := Option.map_eq_some_iff.mp h
    -- only a load that is not resolved stands under a key of `loadingPromises`
    have hopen : stage.isResolved = false := by
      obtain ⟨st, hst, hopen⟩ := hsound.loading docId n hunder
      obtain ⟨-, rfl⟩ := Prod.mk.inj (Option.some.inj (hload.symm.trans hst))
      exact hopen
    have hown : (s.document lru docId).step (.advanceLoad (db docId) (rank docId s.loads n)) =
        some
          { loads := (s.document lru docId).loads.set (rank docId s.loads n) stage'
            loadingPromise := if stage'.isResolved then none else
              (s.document lru docId).loadingPromise
            cache := if stage'.isResolved then some (rank docId s.loads n) else
              (s.document lru docId).cache } := by
      rw [Worker.step, if_pos (loadingPromise_document hunder)]
      exact Worker.advanceLoad_of (getElem?_rank hload) hnext
    -- a resolved load is stored and may evict any other key; an open one changes its own entry only
    by_cases hdone : stage'.isResolved = true
    · rw [if_pos hdone]
      have hother : ∀ {d : D} {m : Nat} {st : LoadStage}, d ≠ docId → s.loads[m]? = some (d, st) →
          (s.loads.set n (docId, stage'))[m]? = some (d, st) := by
        intro d m st hd hm
        rw [loads_set (lt_of_load hload), if_neg, hm]
        rintro rfl
        exact hd (Prod.mk.inj (Option.some.inj (hm.symm.trans hload))).1
      refine ⟨⟨fun d m hm => ?_, fun d m hm => ?_⟩, fun d => ?_⟩
      · by_cases hd : d = docId
        · subst hd
          simp at hm
        · obtain ⟨st, hst, hopen⟩ :=
            hsound.loading d m ((Function.update_of_ne hd ..).symm.trans hm)
          exact ⟨st, hother hd hst, hopen⟩
      · by_cases hd : d = docId
        · subst hd
          obtain rfl := Option.some.inj ((lru.set_self now d n s.cache).symm.trans hm)
          exact ⟨stage', List.getElem?_set_self (lt_of_load hload), hdone⟩
        · rcases lru.set_entry now docId d n s.cache hd with hsame | hnone
          · obtain ⟨st, hst, hdone⟩ := hsound.cached d m (hsame.symm.trans hm)
            exact ⟨st, hother hd hst, hdone⟩
          · exact absurd (hnone.symm.trans hm) (by simp)
      · by_cases hd : docId = d
        · subst hd
          rw [evictions_stored (lru.set_self now docId n _), List.nil_append, ownEvent,
            if_pos ((ownLoad hload docId).mpr rfl)]
          refine (run_single hown).trans (congrArg some ?_)
          have hrank : rank docId (s.loads.set n (docId, stage')) = rank docId s.loads :=
            funext fun m => rank_set hload docId stage' m
          simp only [document, hdone, if_true, lru.set_self, Function.update_self, hrank,
            entriesOf_set hload, Option.map_some, Option.map_none]
        · rw [ownEvent, if_neg (fun h => hd ((ownLoad hload d).mp h)), List.append_nil]
          refine (document_drop (lru.set_entry now docId d n s.cache (Ne.symm hd))).trans
            (congrArg some ?_)
          rw [document_set hload, if_neg hd, document_loadingPromise, if_neg hd]
    · rw [if_neg hdone]
      refine ⟨hsound.set hload ((Bool.eq_false_iff.mpr hdone).trans hopen.symm), fun d => ?_⟩
      rw [evictions_same, List.nil_append, document_set hload]
      by_cases hd : docId = d
      · subst hd
        rw [ownEvent, if_pos ((ownLoad hload docId).mpr rfl), if_pos rfl]
        refine (run_single hown).trans (congrArg some ?_)
        simp only [if_neg hdone]
        rfl
      · rw [ownEvent, if_neg (fun h => hd ((ownLoad hload d).mp h)), if_neg hd]
        rfl
  · simp at h

lemma rejectLoad_document (hsound : s.Sound lru) (h : s.rejectLoad n = some s') :
    s'.Sound lru ∧ ∀ d, runAllowed Worker.step (fun _ _ => True) (s.document lru d)
      (s.evictions lru s' d ++ s.ownEvent d (.rejectLoad n)) = some (s'.document lru d) := by
  unfold rejectLoad at h
  split at h
  · rename_i docId stage hload
    split_ifs at h with hunder
    obtain rfl := Option.some.inj h
    refine ⟨hsound.forget docId, fun d => ?_⟩
    rw [evictions_same, List.nil_append, document_loadingPromise]
    by_cases hd : docId = d
    · subst hd
      rw [ownEvent, if_pos ((ownLoad hload docId).mpr rfl), if_pos rfl]
      refine run_single ?_
      rw [Worker.step, if_pos (loadingPromise_document hunder)]
      rfl
    · rw [ownEvent, if_neg (fun h => hd ((ownLoad hload d).mp h)), if_neg hd]
      rfl
  · simp at h

@[simp] lemma isResolved_mutate (stage : LoadStage) (f : CachedDocument → CachedDocument) :
    (stage.mutate f).isResolved = stage.isResolved := by
  cases stage <;> rfl

lemma mutate_document (hsound : s.Sound lru) (hn : n < s.loads.length)
    (f : CachedDocument → CachedDocument) :
    (s.mutate n f).Sound lru ∧ ∀ d, runAllowed Worker.step (fun _ _ => True) (s.document lru d)
      (s.evictions lru (s.mutate n f) d ++ s.ownEvent d (.mutate n f)) =
        some ((s.mutate n f).document lru d) := by
  obtain ⟨⟨docId, stage⟩, hload⟩ : ∃ x, s.loads[n]? = some x := ⟨_, List.getElem?_eq_getElem hn⟩
  have hmutate : s.mutate n f = { s with loads := s.loads.set n (docId, stage.mutate f) } := by
    rw [mutate, hload]
  rw [hmutate]
  refine ⟨hsound.set hload (isResolved_mutate stage f), fun d => ?_⟩
  rw [evictions_same, List.nil_append, document_set hload]
  by_cases hd : docId = d
  · subst hd
    rw [ownEvent, if_pos ((ownLoad hload docId).mpr rfl), if_pos rfl]
    exact run_single (congrArg some (Worker.mutate_of (getElem?_rank hload) f))
  · rw [ownEvent, if_neg (fun h => hd ((ownLoad hload d).mp h)), if_neg hd]
    rfl

lemma updateCachedDocument_document (hsound : s.Sound lru) (now : Nat) (docId : D)
    (f : CachedDocument → CachedDocument) :
    (s.updateCachedDocument lru now docId f).Sound lru ∧
    ∀ d, runAllowed Worker.step (fun _ _ => True) (s.document lru d)
      (s.evictions lru (s.updateCachedDocument lru now docId f) d ++
        s.ownEvent d (.updateCachedDocument now docId f)) =
        some ((s.updateCachedDocument lru now docId f).document lru d) := by
  have hget := fun d => lru.get_entry now docId d s.cache
  have hfst := lru.get_fst now docId s.cache
  unfold updateCachedDocument
  split
  · rename_i n cache hres
    simp only [hres] at hget hfst
    have hentry : lru.entry docId s.cache = some n := by
      rcases hget docId with hsame | hnone
      · exact hsame.symm.trans hfst.symm
      · exact absurd (hfst.trans hnone) (by simp)
    obtain ⟨stage, hload, hdone⟩ := hsound.cached docId n hentry
    have hmutate : s.mutate n f = { s with loads := s.loads.set n (docId, stage.mutate f) } := by
      rw [mutate, hload]
    -- the `get` may expire keys and the `set` evict some: another key keeps its entry or loses it
    have hset : ∀ d, d ≠ docId →
        lru.entry d (lru.set now docId n cache) = lru.entry d s.cache ∨
          lru.entry d (lru.set now docId n cache) = none := by
      intro d hd
      rcases lru.set_entry now docId d n cache hd with hsame | hnone
      · rw [hsame]
        exact hget d
      · exact .inr hnone
    have hcache : ∀ d, lru.entry d (lru.set now docId n cache) = lru.entry d s.cache ∨
        lru.entry d (lru.set now docId n cache) = none := by
      intro d
      by_cases hd : d = docId
      · subst hd
        exact .inl ((lru.set_self now d n cache).trans hentry.symm)
      · exact hset d hd
    rw [hmutate]
    have hdropped := hsound.drop hcache
    refine ⟨Sound.set hdropped hload (isResolved_mutate stage f), fun d => ?_⟩
    have hdoc : document lru ⟨lru.set now docId n cache, s.loadingPromises,
        s.loads.set n (docId, stage.mutate f)⟩ d = _ := document_set hload (stage.mutate f) d
    by_cases hd : docId = d
    · subst hd
      rw [evictions_stored (lru.set_self now docId n _), List.nil_append, ownEvent,
        if_pos rfl]
      have hsame : document lru { s with cache := lru.set now docId n cache } docId =
          s.document lru docId := by
        simp only [document, lru.set_self, hentry]
      have hworker : (s.document lru docId).cache = some (rank docId s.loads n) := by
        rw [document, hentry]
        rfl
      rw [hsame, if_pos rfl] at hdoc
      refine run_single (congrArg some ?_)
      rw [Worker.updateCachedDocument, hworker]
      exact (Worker.mutate_of (getElem?_rank hload) f).trans hdoc.symm
    · rw [ownEvent, if_neg hd, List.append_nil]
      refine (document_drop (hcache d)).trans (congrArg some ?_)
      exact (hdoc.trans (if_neg hd)).symm
  · rename_i cache hres
    simp only [hres] at hget hfst
    refine ⟨hsound.drop hget, fun d => ?_⟩
    refine runAllowed_append (document_drop (hget d)) ?_
    by_cases hd : docId = d
    · subst hd
      rw [ownEvent, if_pos rfl]
      refine run_single (congrArg some ?_)
      have hworker : (document lru { s with cache := cache } docId).cache = none := by
        rw [document, ← hfst]
        rfl
      rw [Worker.updateCachedDocument, hworker]
    · rw [ownEvent, if_neg hd]
      rfl

/-- **One event**: each document's own cache drops what the cache has dropped, and takes the event
if it is one of its own. -/
theorem step_document (hsound : s.Sound lru) {event : CacheEvent D}
    (h : s.step lru event = some s') :
    s'.Sound lru ∧ ∀ d, runAllowed Worker.step (fun _ _ => True) (s.document lru d)
      (s.evictions lru s' d ++ s.ownEvent d event) = some (s'.document lru d) := by
  cases event with
  | getOrLoadDocument now docId =>
      obtain rfl := Option.some.inj h
      obtain ⟨hsound', hsame⟩ := getOrLoadDocument_document hsound now docId
      obtain ⟨hcache, hown, hother⟩ := hsame _ rfl
      refine ⟨hsound', fun d => ?_⟩
      have hevictions : s.evictions lru (s.getOrLoadDocument lru now docId).1 d =
          s.evictions lru { s with cache := (lru.get now docId s.cache).2 } d := by
        rw [evictions, evictions, hcache]
      rw [hevictions]
      refine runAllowed_append (document_drop (lru.get_entry now docId d s.cache)) ?_
      by_cases hd : docId = d
      · subst hd
        rw [ownEvent, if_pos rfl]
        exact run_single (congrArg some (congrArg Prod.fst hown))
      · rw [ownEvent, if_neg hd, hother d hd]
        rfl
  | advanceLoad now db n => exact advanceLoad_document hsound h
  | rejectLoad n => exact rejectLoad_document hsound h
  | updateCachedDocument now docId mutator =>
      obtain rfl := Option.some.inj h
      exact updateCachedDocument_document hsound now docId mutator
  | mutate n f =>
      rw [step] at h
      split_ifs at h with hn
      obtain rfl := Option.some.inj h
      exact mutate_document hsound hn f
  | invalidateDocument docId =>
      obtain rfl := Option.some.inj h
      have hdelete := fun d => lru.delete_entry docId d s.cache
      refine ⟨hsound.drop hdelete, fun d => ?_⟩
      rw [ownEvent, List.append_nil]
      exact document_drop (hdelete d)

/-! ## The runs -/

lemma run_document_from (hsound : s.Sound lru) {events : List (CacheEvent D)}
    (hrun : runAllowed (step lru) (fun _ _ => True) s events = some s') :
    s'.Sound lru ∧ ∀ d, runAllowed Worker.step (fun _ _ => True) (s.document lru d)
      (documentRun lru d s events) = some (s'.document lru d) := by
  induction events generalizing s with
  | nil =>
      obtain rfl := Option.some.inj hrun
      exact ⟨hsound, fun d => rfl⟩
  | cons event events ih =>
      rw [runAllowed, if_pos trivial] at hrun
      obtain ⟨t, hstep, hrest⟩ := Option.bind_eq_some_iff.mp hrun
      obtain ⟨hsound', hevent⟩ := step_document hsound hstep
      obtain ⟨hend, hrun⟩ := ih hsound' hrest
      refine ⟨hend, fun d => ?_⟩
      simp only [documentRun, hstep]
      exact runAllowed_append (hevent d) (hrun d)

variable (lru) in
lemma document_start (d : D) : (start lru).document lru d = Worker.start := by
  simp only [document, start, lru.entry_empty]
  rfl

/-- **The cache of all documents refines the cache of one**: what a run of the module does to a
document is a run of that document's own cache, with its own calls and with evictions; the next
call for the document gets the load it would get there, after an eviction or as it is.  The number
of entries stays within the maximum. -/
theorem run_document {events : List (CacheEvent D)}
    (hrun : runAllowed (step lru) (fun _ _ => True) (start lru) events = some s) :
    (∀ d, runAllowed Worker.step (fun _ _ => True) Worker.start
      (documentRun lru d (start lru) events) = some (s.document lru d)) ∧
    (∀ d now, ∃ w ∈ [s.document lru d, (s.document lru d).evict],
      w.getOrLoadDocument =
        ((s.getOrLoadDocument lru now d).1.document lru d,
          rank d (s.getOrLoadDocument lru now d).1.loads (s.getOrLoadDocument lru now d).2)) ∧
    (s.getCacheStats lru).size ≤ (s.getCacheStats lru).maxSize := by
  obtain ⟨hsound, hruns⟩ := run_document_from sound_start hrun
  refine ⟨fun d => ?_, fun d now => ?_, lru.length_keys s.cache⟩
  · rw [← document_start lru d]
    exact hruns d
  · obtain ⟨-, hsame⟩ := getOrLoadDocument_document hsound now d
    obtain ⟨-, hown, -⟩ := hsame _ rfl
    refine ⟨_, ?_, hown⟩
    rw [List.mem_cons, List.mem_singleton]
    rcases lru.get_entry now d d s.cache with hkept | hgone
    · left
      simp only [document, hkept]
    · right
      simp only [Worker.evict, document, hgone, Option.map_none]

/-- A cache of one entry, kept for ten units of time. -/
def oneEntry : EvictingCache Bool Nat (Lru Bool Nat 1) := Lru.cache Bool Nat Nat.one_pos 10

/-- Two documents are asked for, loaded at the same time, and the second one is mutated. -/
def oneEntryRun : List (CacheEvent Bool) :=
  [.getOrLoadDocument 0 true, .getOrLoadDocument 0 false,
    .advanceLoad 1 (fun _ => Database.empty) 1, .advanceLoad 1 (fun _ => Database.empty) 0,
    .advanceLoad 2 (fun _ => Database.empty) 0, .advanceLoad 2 (fun _ => Database.empty) 1,
    .advanceLoad 3 (fun _ => Database.empty) 0, .advanceLoad 4 (fun _ => Database.empty) 1,
    .updateCachedDocument 5 false fun entry => { entry with lastSeq := entry.lastSeq + 1 }]

/-- The state after it. -/
def oneEntryEnd : CacheModule Bool (Lru Bool Nat 1) :=
  (runAllowed (step oneEntry) (fun _ _ => True) (start oneEntry) oneEntryRun).get
    (by decide +kernel)

/-- The second entry takes the place of the first one, which its own cache sees as an eviction. -/
theorem run_document_oneEntry :
    (documentRun oneEntry true (start oneEntry) oneEntryRun).length = 5 ∧
      (oneEntryEnd.document oneEntry true).cache = none ∧
      (oneEntryEnd.document oneEntry false).cache = some 0 ∧
      runAllowed Worker.step (fun _ _ => True) Worker.start
        (documentRun oneEntry true (start oneEntry) oneEntryRun) =
          some (oneEntryEnd.document oneEntry true) :=
  ⟨by decide +kernel, by decide +kernel, by decide +kernel,
    (run_document (Option.some_get _).symm).1 true⟩

end CacheModule

end SyncEngine
