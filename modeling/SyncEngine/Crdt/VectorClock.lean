import Mathlib.Order.Basic
import Mathlib.Order.Lattice
import SyncEngine.Lib.EntryLoop
import SyncEngine.Shared.JsString

/-!
# Vector clocks

`VectorClockManager` and the two free merges (`crdt/vector-clock.ts`, `shared/types/operation.ts`).

A vector clock is an object from site ids to numbers.  What it says of a site is its `entry`, zero
where the site is missing, and clocks are ordered entry by entry.  The three merges compute the
join of that order (`entry_mergeClocks`, `get_merge`), and `dominates` decides it
(`dominates_iff`), whatever keys the two clocks have.

The site ids are UUIDs in the program; nothing here depends on it, apart from the reading of
objects as maps: a key such as `__proto__` would not become an entry.
-/

namespace SyncEngine

open EntryLoop

/-- `siteId → logical clock value`. -/
abbrev VectorClock := EntryMap JSString Nat

namespace VectorClock

/-- `clock[site] ?? 0`. -/
def entry (v : VectorClock) (site : JSString) : Nat := (v.lookup site).getD 0

lemma entry_insert (v : VectorClock) (site : JSString) (clock : Nat) :
    VectorClock.entry (v.insert site clock) = Function.update v.entry site clock := by
  funext site'
  by_cases h : site' = site
  · subst h
    rw [Function.update_self, entry, AList.lookup_insert, Option.getD_some]
  · rw [Function.update_of_ne h, entry, AList.lookup_insert_ne h, entry]

end VectorClock

/-! ## The manager -/

/-- The clock of a replica, one entry a site. -/
structure VectorClockManager where
  clock : EntryMap JSString Nat
deriving DecidableEq

namespace VectorClockManager

/-- `new VectorClockManager(initial)`: a map of the entries. -/
def new (initial : VectorClock := ∅) : VectorClockManager := ⟨initial⟩

/-- `get`. -/
def get (m : VectorClockManager) (siteId : JSString) : Nat := (m.clock.lookup siteId).getD 0

/-- The clock as it is sent. -/
def toObject (m : VectorClockManager) : VectorClock := m.clock

/-- Counts up the entry of the site. -/
def tick (m : VectorClockManager) (siteId : JSString) : VectorClockManager × VectorClock :=
  let m : VectorClockManager := ⟨m.clock.insert siteId (m.get siteId + 1)⟩
  (m, m.toObject)

/-- One turn of the loop of `merge`. -/
def mergeEntry (clock : EntryMap JSString Nat) (site : JSString) (remoteClock : Nat) :
    EntryMap JSString Nat :=
  if remoteClock > (clock.lookup site).getD 0 then clock.insert site remoteClock else clock

/-- The greater entry of the two, site by site. -/
def merge (m : VectorClockManager) (remote : VectorClock) : VectorClockManager × VectorClock :=
  let m : VectorClockManager := ⟨remote.foldl mergeEntry m.clock⟩
  (m, m.toObject)

/-- The test of both loops: the site is not behind. -/
def seen (m : VectorClockManager) (site : JSString) (remoteClock : Nat) : Bool :=
  !(m.get site < remoteClock : Bool)

/-- No entry of the other clock is ahead. -/
def dominates (m : VectorClockManager) (other : VectorClock) : Bool :=
  other.entries.all fun e => m.seen e.1 e.2

/-- Whether all that the operation builds on has been applied. -/
def isCausallyReady (m : VectorClockManager) (opSiteId : JSString) (opClock : Nat)
    (opVectorClock : VectorClock) : Bool :=
  let localSiteClock := m.get opSiteId
  -- the operation is not the next of its site, nor the first, and the site is behind
  if ((localSiteClock : Int) ≠ opClock - 1 ∧ opClock ≠ 1) ∧
      (localSiteClock : Int) < opClock - 1 then
    false
  else opVectorClock.entries.all fun e => e.1 = opSiteId || m.seen e.1 e.2

end VectorClockManager

/-! ## The free merges -/

/-- `result[site] = Math.max(result[site] ?? 0, clock)`. -/
def maxEntry (result : VectorClock) (site : JSString) (clock : Nat) : VectorClock :=
  result.insert site (max ((result.lookup site).getD 0) clock)

/-- `mergeClocks` of `crdt/vector-clock.ts`. -/
def mergeClocks (a b : VectorClock) : VectorClock := b.foldl maxEntry a

/-- `mergeVectorClocks` of `shared/types/operation.ts`, the same text. -/
def mergeVectorClocks (a b : VectorClock) : VectorClock := b.foldl maxEntry a

/-! ## The order -/

lemma local_maxEntry : Local maxEntry fun entry clock => some (max (entry.getD 0) clock) where
  self _ _ _ := AList.lookup_insert _
  other _ _ _ _ h := AList.lookup_insert_ne h

namespace VectorClock

/-- **The free merge takes the join.** -/
lemma entry_mergeClocks (a b : VectorClock) : (mergeClocks a b).entry = a.entry ⊔ b.entry := by
  funext site
  unfold mergeClocks
  rw [entry, local_maxEntry.lookup_foldl, Pi.sup_apply]
  unfold entry
  cases b.lookup site with
  | none => simp
  | some clock => rfl

end VectorClock

namespace VectorClockManager

variable {m : VectorClockManager} {a b c : VectorClock}

/-- A turn of `merge` leaves an entry that is not behind. -/
lemma local_mergeEntry : Local mergeEntry fun entry remoteClock =>
    if remoteClock > entry.getD 0 then some remoteClock else entry where
  self clock site remoteClock := by
    unfold mergeEntry
    split
    · exact AList.lookup_insert _
    · rfl
  other clock site remoteClock site' h := by
    unfold mergeEntry
    split
    · exact AList.lookup_insert_ne h
    · rfl

/-- **The manager's merge takes the join**, although it skips the entries that are not ahead. -/
lemma get_merge (m : VectorClockManager) (remote : VectorClock) :
    (m.merge remote).1.get = m.get ⊔ remote.entry := by
  funext site
  unfold merge
  rw [get, local_mergeEntry.lookup_foldl, Pi.sup_apply]
  unfold get VectorClock.entry
  cases remote.lookup site with
  | none => simp
  | some remoteClock =>
      simp only [Option.elim_some, Option.getD_some]
      split
      · rename_i h
        rw [Option.getD_some, max_eq_right (le_of_lt h)]
      · rename_i h
        rw [max_eq_left (not_lt.mp h)]

lemma get_tick (m : VectorClockManager) (siteId : JSString) :
    (m.tick siteId).1.get = Function.update m.get siteId (m.get siteId + 1) :=
  VectorClock.entry_insert m.clock siteId _

lemma seen_iff {site : JSString} {remoteClock : Nat} :
    m.seen site remoteClock = true ↔ remoteClock ≤ m.get site := by
  simp [seen]

/-- A missing entry is never ahead, so that a loop over the entries checks all sites. -/
lemma forall_entries_le {v : VectorClock} {p : JSString → Prop} :
    (∀ site clock, v.lookup site = some clock → p site → clock ≤ m.get site) ↔
      ∀ site, p site → v.entry site ≤ m.get site := by
  constructor
  · intro h site hp
    unfold VectorClock.entry
    cases hv : v.lookup site with
    | none => exact Nat.zero_le _
    | some clock => exact h site clock hv hp
  · intro h site clock hv hp
    have hle := h site hp
    rwa [VectorClock.entry, hv, Option.getD_some] at hle

/-- **`dominates` decides the order** of the clocks. -/
theorem dominates_iff {other : VectorClock} : m.dominates other = true ↔ other.entry ≤ m.get := by
  have hentries := forall_entries_le (m := m) (v := other) (p := fun _ => True)
  simp only [true_implies] at hentries
  rw [dominates, all_entries_iff]
  simp only [seen_iff]
  exact hentries

end VectorClockManager

/-! ## The laws of merging -/

/-- The first clock has seen all that the second one has. -/
def VectorClock.Dominates (a b : VectorClock) : Prop :=
  (VectorClockManager.new a).dominates b = true

/-- Each of the two has seen all that the other has. -/
def VectorClock.Equivalent (a b : VectorClock) : Prop := a.Dominates b ∧ b.Dominates a

namespace VectorClock

variable {a b c : VectorClock}

lemma dominates_iff_le : a.Dominates b ↔ b.entry ≤ a.entry := VectorClockManager.dominates_iff

lemma equivalent_iff : a.Equivalent b ↔ a.entry = b.entry := by
  unfold Equivalent
  rw [dominates_iff_le, dominates_iff_le, and_comm, le_antisymm_iff]

/-- Vector clocks with their merges as a join-semilattice. -/
structure JoinSemilattice (a b c : VectorClock) : Prop where
  merges_agree : ∀ site, (mergeVectorClocks a b).entry site = (mergeClocks a b).entry site ∧
    ((VectorClockManager.new a).merge b).2.entry site = (mergeClocks a b).entry site
  refl : a.Dominates a
  trans : a.Dominates b → b.Dominates c → a.Dominates c
  antisymm : a.Dominates b → b.Dominates a → ∀ site, a.entry site = b.entry site
  /-- The merge is the least clock above both. -/
  dominates_merge : ∀ m : VectorClockManager, m.dominates (mergeClocks a b) = true ↔
    m.dominates a = true ∧ m.dominates b = true
  comm : (mergeClocks a b).Equivalent (mergeClocks b a)
  assoc : (mergeClocks (mergeClocks a b) c).Equivalent (mergeClocks a (mergeClocks b c))
  idem : (mergeClocks a a).Equivalent a

/-- **Merging vector clocks is taking the join.** -/
theorem join_semilattice (a b c : VectorClock) : JoinSemilattice a b c where
  merges_agree site := by
    have hmerge := (VectorClockManager.new a).get_merge b
    rw [entry_mergeClocks]
    exact ⟨congrFun (entry_mergeClocks a b) site, congrFun hmerge site⟩
  refl := dominates_iff_le.mpr le_rfl
  trans hab hbc :=
    dominates_iff_le.mpr ((dominates_iff_le.mp hbc).trans (dominates_iff_le.mp hab))
  antisymm hab hba := congrFun (equivalent_iff.mp ⟨hab, hba⟩)
  dominates_merge m := by
    simp only [VectorClockManager.dominates_iff, entry_mergeClocks, sup_le_iff]
  comm := by
    rw [equivalent_iff, entry_mergeClocks, entry_mergeClocks, sup_comm]
  assoc := by
    rw [equivalent_iff]
    simp only [entry_mergeClocks, sup_assoc]
  idem := by
    rw [equivalent_iff, entry_mergeClocks, sup_idem]

/-- Clocks over different sites, one of them with a zero entry. -/
example : (mergeClocks (AList.insert [1] 3 (AList.insert [2] 0 ∅))
    (AList.insert [1] 1 (AList.insert [3] 5 ∅))).entry [3] = 5 := by decide

end VectorClock

/-! ## Causal readiness -/

/-- A call that changes a manager. -/
inductive ClockCall where
  | tick (siteId : JSString)
  | merge (remote : VectorClock)

namespace VectorClockManager

variable {m : VectorClockManager}

/-- The manager after some calls. -/
def run (m : VectorClockManager) (calls : List ClockCall) : VectorClockManager :=
  calls.foldl (fun m call =>
    match call with
    | .tick siteId => (m.tick siteId).1
    | .merge remote => (m.merge remote).1) m

lemma get_le_run (m : VectorClockManager) (calls : List ClockCall) : m.get ≤ (m.run calls).get := by
  induction calls generalizing m with
  | nil => exact le_rfl
  | cons call calls ih =>
      refine le_trans ?_ (ih _)
      cases call with
      | tick siteId =>
          rw [get_tick, le_update_iff]
          exact ⟨Nat.le_succ _, fun _ _ => le_rfl⟩
      | merge remote =>
          rw [get_merge]
          exact le_sup_left

/-- What the nested exceptions of the code come down to. -/
lemma isCausallyReady_iff_forall {opSiteId : JSString} {opClock : Nat} {opVectorClock : VectorClock}
    (hclock : 1 ≤ opClock) :
    m.isCausallyReady opSiteId opClock opVectorClock = true ↔
      opClock - 1 ≤ m.get opSiteId ∧
        ∀ site, site ≠ opSiteId → opVectorClock.entry site ≤ m.get site := by
  have hothers : (opVectorClock.entries.all fun e => e.1 = opSiteId || m.seen e.1 e.2) = true ↔
      ∀ site, site ≠ opSiteId → opVectorClock.entry site ≤ m.get site := by
    rw [all_entries_iff (p := fun site clock => site = opSiteId || m.seen site clock),
      ← forall_entries_le]
    simp only [Bool.or_eq_true, decide_eq_true_eq, seen_iff, or_iff_not_imp_left, ne_eq]
  unfold isCausallyReady
  simp only
  split
  · rename_i hbehind
    have hlt : ¬ opClock - 1 ≤ m.get opSiteId := by omega
    simp [hlt]
  · rename_i hnext
    have hle : opClock - 1 ≤ m.get opSiteId := by omega
    rw [hothers]
    exact (and_iff_right hle).symm

/-- **Causal readiness** is that the clock of the operation, with the predecessor for its own site,
is dominated; and whoever is ready stays ready. -/
theorem causally_ready (m : VectorClockManager) (opSiteId : JSString) (opClock : Nat)
    (opVectorClock : VectorClock) (hclock : 1 ≤ opClock) :
    (m.isCausallyReady opSiteId opClock opVectorClock = true ↔
      m.dominates (opVectorClock.insert opSiteId (opClock - 1)) = true) ∧
    (m.isCausallyReady opSiteId opClock opVectorClock = true → ∀ calls : List ClockCall,
      (m.run calls).isCausallyReady opSiteId opClock opVectorClock = true) := by
  simp only [isCausallyReady_iff_forall hclock]
  constructor
  · rw [dominates_iff, VectorClock.entry_insert, update_le_iff]
  · rintro ⟨hown, hothers⟩ calls
    have hrun := m.get_le_run calls
    exact ⟨hown.trans (hrun opSiteId), fun site hsite => (hothers site hsite).trans (hrun site)⟩

/-- The second operation of a site that has seen one of another site. -/
theorem causally_ready_second :
    ((new (AList.insert [1] 1 (AList.insert [2] 4 ∅))).isCausallyReady [1] 2
        (AList.insert [1] 2 (AList.insert [2] 4 ∅)) = true ↔
      (new (AList.insert [1] 1 (AList.insert [2] 4 ∅))).dominates
        ((AList.insert [1] 2 (AList.insert [2] 4 ∅)).insert [1] (2 - 1)) = true) ∧
    ((new (AList.insert [1] 1 (AList.insert [2] 4 ∅))).isCausallyReady [1] 2
        (AList.insert [1] 2 (AList.insert [2] 4 ∅)) = true → ∀ calls : List ClockCall,
      ((new (AList.insert [1] 1 (AList.insert [2] 4 ∅))).run calls).isCausallyReady [1] 2
        (AList.insert [1] 2 (AList.insert [2] 4 ∅)) = true) :=
  causally_ready _ [1] 2 _ (by decide)

end VectorClockManager

end SyncEngine
