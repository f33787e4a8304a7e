import Mathlib.Algebra.GroupWithZero.Nat
import SyncEngine.Client.LocalEdits
import SyncEngine.Server.InputSanitizer

/-!
# The Lamport clock in machine arithmetic

`ClientRGADocument.localInsert` counts its clock up by one.  The clock is a JavaScript number: from
`2 ^ 53` on, `n + 1` is rounded to a number that may be `n` itself (`increment`).  Elsewhere in this
development the clock is a natural number, which is right below `2 ^ 53` (`localInsert_eq`).

`UIDSchema` admits every clock that is a nonnegative integer, and `applyInsert` adopts the clock of
an INSERT.  One INSERT with the clock `2 ^ 53` leaves a replica that gives its next two characters
the same UID; the second one is taken for a duplicate and dropped.

`eachAdds_iff` says how many characters a replica still takes.  It rests on one step: the UID of a
local INSERT is new unless the clock stands still at a UID that the replica has.
(From `10 ^ 21` on JavaScript writes a number with an exponent.  Keys of different clocks differ all
the same, which is all that matters of a key.)
-/

namespace SyncEngine

open ReplicatedList

namespace MachineClock

/-- The natural numbers that are JavaScript numbers. -/
def IsNumber (n : Nat) : Prop := ∃ m e, m < 2 ^ 53 ∧ e ≤ 971 ∧ n = m * 2 ^ e

/-- `n + 1` on JavaScript numbers.  Between `2 ^ 53` and `2 ^ 54` it lies in the middle of two of
them, and the even significand is taken; further on `n` is the nearest. -/
def increment (n : Nat) : Nat :=
  if n < 2 ^ 53 then n + 1
  else if n < 2 ^ 54 ∧ n / 2 % 2 = 1 then n + 2
  else n

/-- `localInsert`, with the increment of the machine. -/
def localInsert (d : ClientRGADocument) (index : Nat) (char : JSString) :
    ClientRGADocument × InsertOperation :=
  let d := { d with clock := increment d.clock }
  let op : InsertOperation := ⟨⟨d.clock, d.siteId⟩, d.getAfterUID index, .string char⟩
  (d.applyInsert op, op)

/-- The replicas of a client whose clock is counted in machine arithmetic. -/
inductive Reachable : ClientRGADocument → Prop
  | new (siteId : JSString) (initialClock : Nat) : Reachable (.new siteId initialClock)
  | deserialize (nodes : List SerializedRGANode) (siteId : JSString) (clock : Nat)
      (hnd : (ids (nodes.map SerializedRGANode.cell)).Nodup)
      (hroot : rootUID ∉ ids (nodes.map SerializedRGANode.cell)) :
      Reachable (.deserialize nodes siteId clock)
  | remote {d : ClientRGADocument} (op : RGAOperation) (h : Reachable d) :
      Reachable (d.applyOperation op)
  | localInsert {d : ClientRGADocument} (index : Nat) (char : JSString) (h : Reachable d) :
      Reachable (localInsert d index char).1
  | localDelete {d : ClientRGADocument} (index : Nat) (h : Reachable d) :
      Reachable (d.localDelete index).1

/-- An INSERT that the server lets through: its UIDs are a UUID with a number each. -/
def Admitted (isUuid : JSString → Bool) (op : InsertOperation) : Prop :=
  InputSanitizer.InsertOpSchema isUuid op = true ∧ ∀ u ∈ (RGAOperation.insert op).named,
    IsNumber u.clock

/-- A local INSERT adds a visible node, whose UID is that of no node so far. -/
structure AddsNode (d : ClientRGADocument) (insert : ClientRGADocument × InsertOperation) :
    Prop where
  fresh : insert.2.uid ∉ d.nodes.map ClientNode.uid
  added : insert.1.nodes.Perm (⟨insert.2.uid, insert.2.value, false⟩ :: d.nodes)

/-- Each of some local INSERTs, at given positions, adds a node. -/
def EachAdds : ClientRGADocument → List (Nat × JSString) → Prop
  | _, [] => True
  | d, (index, char) :: inserts =>
      AddsNode d (localInsert d index char) ∧ EachAdds (localInsert d index char).1 inserts

/-- There is room for `n` local INSERTs: the clock stays in the exact range; or there is but one,
and its clock moves or its UID has not been given. -/
def RoomFor (d : ClientRGADocument) (n : Nat) : Prop :=
  n = 0 ∨ d.clock + n ≤ 2 ^ 53 ∨
    n = 1 ∧ (increment d.clock ≠ d.clock ∨ ⟨d.clock, d.siteId⟩ ∉ d.nodes.map ClientNode.uid)

/-! ## The increment -/

lemma increment_of_lt {n : Nat} (h : n < 2 ^ 53) : increment n = n + 1 := if_pos h

lemma le_increment (n : Nat) : n ≤ increment n := by
  unfold increment
  split
  · omega
  · split <;> omega

lemma increment_pos (n : Nat) : 0 < increment n := by
  unfold increment
  split
  · omega
  · split <;> omega

/-- The clocks that stand still. -/
lemma increment_eq_self_iff {n : Nat} :
    increment n = n ↔ 2 ^ 53 ≤ n ∧ ¬ (n < 2 ^ 54 ∧ n / 2 % 2 = 1) := by
  unfold increment
  split
  · omega
  · split <;> omega

/-- Beyond the exact range a clock moves once at most. -/
lemma increment_increment {n : Nat} (h : 2 ^ 53 ≤ increment n) :
    increment (increment n) = increment n := by
  refine increment_eq_self_iff.mpr ⟨h, ?_⟩
  by_cases hsmall : n < 2 ^ 53
  · rw [increment_of_lt hsmall] at h ⊢
    omega
  · rw [increment, if_neg hsmall]
    split <;> omega

/-- A number from `2 ^ 53` on is even. -/
lemma IsNumber.even {n : Nat} (h : IsNumber n) (hn : 2 ^ 53 ≤ n) : n % 2 = 0 := by
  obtain ⟨m, e, hm, -, rfl⟩ := h
  cases e with
  | zero => omega
  | succ e => rw [Nat.pow_succ, ← Nat.mul_assoc, Nat.mul_mod_left]

/-- **The increment rounds**: it is a number, no number is nearer to `n + 1`, and where another one
is as near its significand is even. -/
theorem increment_nearest {n : Nat} (h : IsNumber n) :
    IsNumber (increment n) ∧
      (∀ x, IsNumber x → ((increment n : Int) - (n + 1)).natAbs ≤ ((x : Int) - (n + 1)).natAbs) ∧
      (2 ^ 53 ≤ n → n < 2 ^ 54 → increment n % 4 = 0) := by
  have heven := h.even
  by_cases hsmall : n < 2 ^ 53
  · rw [increment_of_lt hsmall]
    refine ⟨?_, fun x _ => by omega, by omega⟩
    by_cases hlast : n + 1 < 2 ^ 53
    · exact ⟨n + 1, 0, hlast, by omega, by omega⟩
    · exact ⟨1, 53, by omega, by omega, by omega⟩
  · have hn := heven (by omega)
    -- an odd number is out of reach, so a distance of one is the least
    have hfar : ∀ x, IsNumber x → ((x : Int) - (n + 1)).natAbs ≠ 0 := fun x hx => by
      intro hzero
      have hxeven := hx.even (by omega)
      omega
    unfold increment
    rw [if_neg hsmall]
    split
    · rename_i hodd
      refine ⟨?_, fun x hx => ?_, by omega⟩
      · obtain ⟨k, hk⟩ : ∃ k, n = 2 * k := ⟨n / 2, by omega⟩
        by_cases hlast : k + 1 < 2 ^ 53
        · exact ⟨k + 1, 1, hlast, by omega, by omega⟩
        · exact ⟨1, 54, by omega, by omega, by omega⟩
      · have := hfar x hx
        omega
    · refine ⟨h, fun x hx => ?_, by omega⟩
      have := hfar x hx
      omega

/-! ## A local INSERT -/

variable {d : ClientRGADocument}

/-- In the exact range `localInsert` is the one with a natural number for its clock. -/
theorem localInsert_eq (h : d.clock < 2 ^ 53) (index : Nat) (char : JSString) :
    localInsert d index char = d.localInsert index char := by
  rw [localInsert, increment_of_lt h]
  rfl

/-- The UID of a local INSERT. -/
def nextUid (d : ClientRGADocument) : UID := ⟨increment d.clock, d.siteId⟩

lemma nextUid_ne_root (d : ClientRGADocument) : nextUid d ≠ rootUID := fun h => by
  have hpos := increment_pos d.clock
  have hzero : increment d.clock = 0 := congrArg UID.clock h
  omega

lemma consistent_increment (h : d.Consistent) :
    ClientRGADocument.Consistent { d with clock := increment d.clock } :=
  ⟨h.nodup, h.root_notMem, fun u hu => (h.clock_ge u hu).trans (le_increment _), h.counted⟩

lemma consistent_localInsert (h : d.Consistent) (index : Nat) (char : JSString) :
    (localInsert d index char).1.Consistent :=
  (consistent_increment h).applyInsert _

lemma Reachable.consistent (h : Reachable d) : d.Consistent := by
  induction h with
  | new siteId initialClock => exact ClientRGADocument.consistent_new siteId initialClock
  | deserialize nodes siteId clock hnd hroot =>
      exact ClientRGADocument.consistent_deserialize hnd hroot
  | remote op _ ih => exact ih.applyOperation op
  | localInsert index char _ ih => exact consistent_localInsert ih index char
  | localDelete index _ ih => exact ih.localDelete index

lemma Reachable.remotes (h : Reachable d) (ops : List RGAOperation) :
    Reachable (d.applyOperations ops) :=
  List.foldlRecOn ops _ h fun _ hd op _ => .remote op hd

lemma clock_localInsert (d : ClientRGADocument) (index : Nat) (char : JSString) :
    (localInsert d index char).1.clock = increment d.clock ∧
      (localInsert d index char).1.siteId = d.siteId := by
  unfold localInsert ClientRGADocument.applyInsert
  dsimp only
  split
  · exact ⟨rfl, rfl⟩
  · split
    · exact ⟨if_neg (lt_irrefl _), rfl⟩
    · exact ⟨rfl, rfl⟩

/-- **One step**: a local INSERT adds a node if and only if its UID has not been given. -/
lemma addsNode_iff (d : ClientRGADocument) (index : Nat) (char : JSString) :
    AddsNode d (localInsert d index char) ↔ nextUid d ∉ d.nodes.map ClientNode.uid := by
  refine ⟨AddsNode.fresh, fun hfresh => ⟨hfresh, ?_⟩⟩
  let d₁ : ClientRGADocument := { d with clock := increment d.clock }
  have hknown : ¬ Chain.indexHas ClientNode.uid (uidKey (nextUid d)) d₁.nodes = true := by
    rw [Chain.indexHas_iff]
    exact fun h => h.elim (nextUid_ne_root d) hfresh
  -- the anchor is a node of the replica or none
  have hanchor : ∀ a, anchor (d₁.getAfterUID index) = some a →
      a ∈ d₁.nodes.map ClientNode.uid := fun a ha => by
    rw [← ClientRGADocument.ids_cells]
    exact ClientRGADocument.getAfterUID_mem (anchor_eq_some.mp ha).1
  have hhas := Chain.indexHas_afterKey_iff.mpr hanchor
  have hnodes : (localInsert d index char).1.nodes =
      Chain.splice ClientNode.uid (afterKey (d₁.getAfterUID index))
        ⟨nextUid d, .string char, false⟩ d₁.nodes := by
    show (d₁.applyInsert ⟨nextUid d, d₁.getAfterUID index, .string char⟩).nodes = _
    rw [ClientRGADocument.applyInsert, if_neg hknown, if_pos hhas]
  rw [hnodes]
  exact Chain.splice_perm hanchor _

/-- A clock that is ahead of all nodes has not been given. -/
lemma nextUid_notMem_iff (h : d.Consistent) :
    nextUid d ∉ d.nodes.map ClientNode.uid ↔
      increment d.clock ≠ d.clock ∨ ⟨d.clock, d.siteId⟩ ∉ d.nodes.map ClientNode.uid := by
  by_cases hstill : increment d.clock = d.clock
  · simp [nextUid, hstill]
  · refine iff_of_true (fun hmem => ?_) (Or.inl hstill)
    rw [← ClientRGADocument.ids_cells] at hmem
    have hle : increment d.clock ≤ d.clock := h.clock_ge _ hmem
    exact hstill (hle.antisymm (le_increment _))

/-- After a local INSERT that added its node, whether there is room is a matter of the clock. -/
lemma roomFor_localInsert {index : Nat} {char : JSString}
    (h : AddsNode d (localInsert d index char)) (n : Nat) :
    RoomFor (localInsert d index char).1 n ↔ n = 0 ∨ increment d.clock + n ≤ 2 ^ 53 := by
  obtain ⟨hclock, hsite⟩ := clock_localInsert d index char
  have hgiven : ⟨increment d.clock, d.siteId⟩ ∈
      (localInsert d index char).1.nodes.map ClientNode.uid :=
    List.mem_map_of_mem (h.added.mem_iff.mpr (List.mem_cons_self ..))
  unfold RoomFor
  rw [hclock, hsite]
  constructor
  · rintro (hn | hle | ⟨hone, hmoves | hnew⟩)
    · exact Or.inl hn
    · exact Or.inr hle
    · by_contra hno
      exact hmoves (increment_increment (by omega))
    · exact absurd hgiven hnew
  · rintro (hn | hle)
    · exact Or.inl hn
    · exact Or.inr (Or.inl hle)

lemma eachAdds_iff_roomFor (h : d.Consistent) (inserts : List (Nat × JSString)) :
    EachAdds d inserts ↔ RoomFor d inserts.length := by
  induction inserts generalizing d with
  | nil => exact iff_of_true trivial (Or.inl rfl)
  | cons insert inserts ih =>
      obtain ⟨index, char⟩ := insert
      have hstep : EachAdds d ((index, char) :: inserts) ↔
          nextUid d ∉ d.nodes.map ClientNode.uid ∧
            (inserts.length = 0 ∨ increment d.clock + inserts.length ≤ 2 ^ 53) := by
        rw [← addsNode_iff d index char, EachAdds]
        refine and_congr_right fun hadds => ?_
        rw [ih (consistent_localInsert h index char), roomFor_localInsert hadds]
      have hle := le_increment d.clock
      rw [hstep, nextUid_notMem_iff h, RoomFor, List.length_cons]
      constructor
      · rintro ⟨hnew, hzero | hroom⟩
        · exact Or.inr (Or.inr ⟨by omega, hnew⟩)
        · by_cases hzero : inserts.length = 0
          · exact Or.inr (Or.inr ⟨by omega, hnew⟩)
          · have hnext := increment_of_lt (n := d.clock) (by omega)
            exact Or.inr (Or.inl (by omega))
      · rintro (hnone | hroom | ⟨hone, hnew⟩)
        · omega
        · have hnext := increment_of_lt (n := d.clock) (by omega)
          exact ⟨Or.inl (by omega), Or.inr (by omega)⟩
        · exact ⟨hnew, Or.inl (by omega)⟩

/-- **When a replica takes local INSERTs** after some remote ones: exactly when there is room. -/
theorem eachAdds_iff (h : Reachable d) (ops : List InsertOperation)
    (inserts : List (Nat × JSString)) :
    EachAdds (d.applyOperations (ops.map .insert)) inserts ↔
      RoomFor (d.applyOperations (ops.map .insert)) inserts.length :=
  eachAdds_iff_roomFor (h.remotes _).consistent inserts

/-- An INSERT of another client at the head of the document. -/
def remoteInsert (clock : Nat) : InsertOperation :=
  ⟨⟨clock, JSString.lit "0d2f7c3b-9e11-4b7a-9a55-6f1d8a523c1e"⟩, none, .string (JSString.lit "x")⟩

lemma admitted_remoteInsert :
    ∀ op ∈ [remoteInsert (2 ^ 53)], Admitted (fun s => s.length = 36) op := by
  intro op hop
  obtain rfl := List.mem_singleton.mp hop
  refine ⟨by decide, fun u hu => ?_⟩
  obtain rfl := List.mem_singleton.mp hu
  exact ⟨1, 53, by decide, by decide, by decide⟩

/-- The last clock that leaves room for one local INSERT. -/
theorem eachAdds_iff_lastClock :
    EachAdds ((ClientRGADocument.new (JSString.lit "6f1d8a52-3c1e-4b7a-9a55-0d2f7c3b9e11")
      ).applyOperations ([remoteInsert (2 ^ 53 - 1)].map .insert)) [(0, JSString.lit "a")] :=
  (eachAdds_iff (.new _ 0) [remoteInsert (2 ^ 53 - 1)] [(0, JSString.lit "a")]).mpr
    (Or.inr (Or.inl (by decide +kernel)))

/-- **A jammed replica**: after an admitted INSERT with the clock `2 ^ 53` the second character that
is typed is lost. -/
theorem not_forall_eachAdds :
    ¬ ∀ (isUuid : JSString → Bool) (d : ClientRGADocument), Reachable d →
      ∀ ops : List InsertOperation, (∀ op ∈ ops, Admitted isUuid op) →
        ∀ inserts, EachAdds (d.applyOperations (ops.map .insert)) inserts := by
  intro h
  have hreach : Reachable (.new (JSString.lit "6f1d8a52-3c1e-4b7a-9a55-0d2f7c3b9e11")) :=
    .new _ 0
  have heach := h _ _ hreach _ admitted_remoteInsert [(0, JSString.lit "a"), (1, JSString.lit "b")]
  have hroom := (eachAdds_iff_roomFor (hreach.remotes _).consistent _).mp heach
  have hclock : ((ClientRGADocument.new (JSString.lit "6f1d8a52-3c1e-4b7a-9a55-0d2f7c3b9e11")
      ).applyOperations ([remoteInsert (2 ^ 53)].map .insert)).clock = 2 ^ 53 := by decide +kernel
  rw [RoomFor, hclock] at hroom
  simp at hroom

end MachineClock

end SyncEngine
