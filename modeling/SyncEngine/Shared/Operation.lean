import Mathlib.Data.Prod.Lex
import Mathlib.Order.MinMax
import SyncEngine.Shared.JsString

/-!
# Core types shared by client and server

Unique identifiers and their order, the operations, and the envelope in which an operation is
stored and sent (`shared/types/operation.ts`), with the portable node of a snapshot
(`shared/types/document.ts`).

`compareUID` orders identifiers by clock and then by site, and `uidKey` is the string under
which a replica indexes a node.  Both are connected here to a linear order on `UID`:
`compareUID_pos_iff` says what the comparison decides, `uidKey_injective` that keys identify
nodes, and `uid_order_and_keys` that the two agree.

Of an envelope the fields that some modelled function reads or writes are kept.
-/

namespace SyncEngine

/-! ## Unique identifiers -/

/-- A Lamport clock with the site that made it. -/
structure UID where
  clock : Nat
  siteId : JSString
deriving DecidableEq, Repr

/-- Clock first, ties by site. -/
def UID.lexKey (u : UID) : Nat ×ₗ JSString := toLex (u.clock, u.siteId)

lemma UID.lexKey_injective : Function.Injective UID.lexKey := by
  rintro ⟨c, s⟩ ⟨c', s'⟩ h
  simpa [UID.lexKey] using h

instance : LinearOrder UID where
  toPartialOrder := PartialOrder.lift UID.lexKey UID.lexKey_injective
  le_total a b := le_total a.lexKey b.lexKey
  toDecidableLE a b := inferInstanceAs (Decidable (a.lexKey ≤ b.lexKey))
  toDecidableLT a b := inferInstanceAs (Decidable (a.lexKey < b.lexKey))
  toDecidableEq := inferInstance

lemma UID.lt_iff {a b : UID} :
    a < b ↔ a.clock < b.clock ∨ a.clock = b.clock ∧ a.siteId < b.siteId := by
  show a.lexKey < b.lexKey ↔ _
  rw [UID.lexKey, UID.lexKey, Prod.Lex.toLex_lt_toLex]

/-- Negative, zero or positive as `a` comes before, is, or comes after `b`. -/
def compareUID (a b : UID) : Int :=
  if a.clock ≠ b.clock then (a.clock : Int) - b.clock
  else if a.siteId < b.siteId then -1
  else if b.siteId < a.siteId then 1
  else 0

/-- The test of the scan-right loop decides the order. -/
lemma compareUID_pos_iff {a b : UID} : compareUID a b > 0 ↔ b < a := by
  rw [UID.lt_iff, compareUID]
  split_ifs with hclock hlt hgt
  · omega
  · have hngt : ¬ b.siteId < a.siteId := lt_asymm hlt
    simp only [hngt, and_false, or_false]
    omega
  · have hclock' : a.clock = b.clock := not_not.mp hclock
    simp [hgt, hclock']
  · simp only [hgt, and_false, or_false]
    omega

lemma compareUID_neg_iff {a b : UID} : compareUID a b < 0 ↔ a < b := by
  rw [UID.lt_iff]
  unfold compareUID
  split_ifs with hclock hlt hgt
  · omega
  · have hclock' : a.clock = b.clock := not_not.mp hclock
    simp [hlt, hclock']
  · simp only [hlt, and_false, or_false]
    omega
  · simp only [hlt, and_false, or_false]
    omega

@[simp] lemma compareUID_self (a : UID) : compareUID a a = 0 := by simp [compareUID]

/-- The comparison is zero just for one UID. -/
lemma compareUID_eq_zero_iff {a b : UID} : compareUID a b = 0 ↔ a = b := by
  constructor
  · intro h
    have hge : ¬ a < b := fun hlt => by
      have hneg := compareUID_neg_iff.mpr hlt
      omega
    have hle : ¬ b < a := fun hlt => by
      have hpos := compareUID_pos_iff.mpr hlt
      omega
    exact le_antisymm (not_lt.mp hle) (not_lt.mp hge)
  · rintro rfl
    exact compareUID_self a

/-- Exchanging the arguments turns the sign. -/
lemma sign_compareUID_swap (a b : UID) :
    (compareUID b a).sign = -(compareUID a b).sign := by
  rcases lt_trichotomy a b with hlt | rfl | hgt
  · rw [Int.sign_eq_neg_one_of_neg (compareUID_neg_iff.mpr hlt),
      Int.sign_eq_one_of_pos (compareUID_pos_iff.mpr hlt), Int.neg_neg]
  · simp
  · rw [Int.sign_eq_one_of_pos (compareUID_pos_iff.mpr hgt),
      Int.sign_eq_neg_one_of_neg (compareUID_neg_iff.mpr hgt)]

/-- `clock:siteId`, the key of a node in a replica's index. -/
def uidKey (u : UID) : JSString := JSString.ofNat u.clock ++ JSString.colon :: u.siteId

theorem uidKey_injective : Function.Injective uidKey := by
  rintro ⟨c, s⟩ ⟨c', s'⟩ h
  obtain ⟨rfl, rfl⟩ := JSString.ofNat_colon_inj h
  rfl

@[simp] lemma uidKey_inj {u w : UID} : uidKey u = uidKey w ↔ u = w := uidKey_injective.eq_iff

/-- What the two encodings of the order of nodes promise each other. -/
structure UidOrder : Prop where
  antisymm : ∀ a b, (compareUID b a).sign = -(compareUID a b).sign
  trans : ∀ a b c, compareUID a b < 0 → compareUID b c < 0 → compareUID a c < 0
  total : ∀ a b, ¬ (a.clock = b.clock ∧ a.siteId = b.siteId) →
    compareUID a b < 0 ∨ compareUID b a < 0
  zero_iff : ∀ a b, compareUID a b = 0 ↔ a.clock = b.clock ∧ a.siteId = b.siteId
  key_iff : ∀ a b, uidKey a = uidKey b ↔ compareUID a b = 0

/-- **The order and the keys agree**: the scan of an insertion tells two UIDs apart just where the
index does. -/
theorem uid_order_and_keys : UidOrder where
  antisymm := sign_compareUID_swap
  trans a b c hab hbc :=
    compareUID_neg_iff.mpr ((compareUID_neg_iff.mp hab).trans (compareUID_neg_iff.mp hbc))
  total a b hne := by
    have hne' : a ≠ b := fun heq => hne (heq ▸ ⟨rfl, rfl⟩)
    exact (lt_or_gt_of_ne hne').imp compareUID_neg_iff.mpr compareUID_neg_iff.mpr
  zero_iff a b := by
    rw [compareUID_eq_zero_iff, UID.mk.injEq]
  key_iff a b := by rw [uidKey_inj, compareUID_eq_zero_iff]

/-- The sentinel in front of the document. -/
def rootUID : UID := ⟨0, JSString.lit "__root__"⟩

/-! ## Operations -/

/-- What an insertion carries: a string, or a Slate node object kept as its JSON text. -/
inductive JsValue where
  | string (s : JSString)
  | object (json : JSString)
deriving DecidableEq, Repr

/-- Rich-text attributes, each value as its JSON text, in property order. -/
abbrev Attributes := List (JSString × JSString)

/-- Assign one property: an existing one keeps its place, a new one comes last. -/
def Attributes.assign : Attributes → JSString → JSString → Attributes
  | [], k, v => [(k, v)]
  | (k', v') :: rest, k, v =>
      if k' = k then (k, v) :: rest else (k', v') :: Attributes.assign rest k v

/-- The object spread `{ ...a, ...b }`. -/
def Attributes.spread (a b : Attributes) : Attributes := b.foldl (fun r p => r.assign p.1 p.2) a

/-- Insert `value` behind the node `after` (`none`: at the beginning). -/
structure InsertOperation where
  uid : UID
  after : Option UID
  value : JsValue
deriving DecidableEq, Repr

/-- Tombstone the node `uid`. -/
structure DeleteOperation where
  uid : UID
deriving DecidableEq, Repr

/-- Merge attributes into the node `uid`. -/
structure FormatOperation where
  uid : UID
  attributes : Attributes
deriving DecidableEq, Repr

/-- The sentinel a restore stores in the log; its type is outside the shared union. -/
structure RollbackOperation where
  uid : UID
deriving DecidableEq, Repr

/-- An operation, with the ROLLBACK that only a restore makes. -/
inductive RGAOperation where
  | insert (op : InsertOperation)
  | delete (op : DeleteOperation)
  | format (op : FormatOperation)
  | rollback (op : RollbackOperation)
deriving DecidableEq, Repr

/-- The operation is an INSERT or a DELETE. -/
def RGAOperation.IsEdit : RGAOperation → Prop
  | .insert _ => True
  | .delete _ => True
  | _ => False

instance : DecidablePred RGAOperation.IsEdit
  | .insert _ => isTrue trivial
  | .delete _ => isTrue trivial
  | .format _ => isFalse id
  | .rollback _ => isFalse id

/-- An operation as it is stored and sent; the server assigns `seq`. -/
structure OperationEnvelope where
  docId : JSString
  sessionId : JSString
  userId : JSString
  op : RGAOperation
  seq : Nat
  clientSeq : Nat
  nonce : JSString
deriving DecidableEq, Repr

/-- The greatest of some seqs and the seqs of a list of envelopes reaches `x`. -/
lemma le_foldl_max_seq {ops : List OperationEnvelope} {seq x : Nat} :
    x ≤ ops.foldl (fun lastSeq envelope => max lastSeq envelope.seq) seq ↔
      x ≤ seq ∨ ∃ envelope ∈ ops, x ≤ envelope.seq := by
  induction ops generalizing seq with
  | nil => simp
  | cons envelope ops ih =>
      rw [List.foldl_cons, ih, le_max_iff]
      simp [or_assoc]

/-! ## Snapshots -/

/-- A node without its links; the order of a node array is the document order. -/
structure SerializedRGANode where
  clock : Nat
  siteId : JSString
  value : JsValue
  attributes : Option Attributes
  tombstoned : Bool
deriving DecidableEq, Repr

end SyncEngine
