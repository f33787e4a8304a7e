import Mathlib.Data.Option.Basic

/-!
# A row under READ COMMITTED

One row of a table, as concurrent transactions see and write it.  At most one transaction has an
uncommitted version of the row.  That version is the row lock: its transaction holds it to its
end, and the others, which see the committed version, wait with their writes.

Statements that wait return `none`.  Besides the unconditional write (`update`) there is
`insertDoNothing`, the insertion of a row that may be there already: it leaves a visible row alone
and waits for a row that another transaction has inserted and not committed.

Two lemmas say what a statement can have done (`insertDoNothing_cases`, `update_cases`), the rest
how the versions of the other transactions come through it.
-/

/-- A row with its committed version and the version of the transaction that holds its lock. -/
structure LockedRow (τ V : Type*) where
  committed : Option V
  pending : Option (τ × V)
deriving DecidableEq, Repr

namespace LockedRow

variable {τ V : Type*} [DecidableEq τ] {r r' : LockedRow τ V} {t u : τ} {v w : V}

/-- The uncommitted version of a transaction. -/
def version (r : LockedRow τ V) (t : τ) : Option V :=
  match r.pending with
  | some (u, v) => if u = t then some v else none
  | none => none

/-- What a transaction sees: its own version, or else the committed one. -/
def view (r : LockedRow τ V) (t : τ) : Option V := (r.version t).or r.committed

/-- No other transaction holds the lock. -/
def Free (r : LockedRow τ V) (t : τ) : Prop := ∀ p ∈ r.pending, p.1 = t

instance (r : LockedRow τ V) (t : τ) : Decidable (r.Free t) :=
  inferInstanceAs (Decidable (∀ p ∈ r.pending, _))

/-- `INSERT … ON CONFLICT DO NOTHING`. -/
def insertDoNothing (r : LockedRow τ V) (t : τ) (v : V) : Option (LockedRow τ V) :=
  if (r.view t).isSome then some r
  else if r.Free t then some { r with pending := some (t, v) }
  else none

/-- `UPDATE … RETURNING`, with `none` returned where there is no row. -/
def update (r : LockedRow τ V) (t : τ) (f : V → V) : Option (LockedRow τ V × Option V) :=
  if r.Free t then
    match r.view t with
    | some v => some ({ r with pending := some (t, f v) }, some (f v))
    | none => some (r, none)
  else none

/-- The version of the transaction becomes the committed one. -/
def commit (r : LockedRow τ V) (t : τ) : LockedRow τ V :=
  match r.version t with
  | some v => ⟨some v, none⟩
  | none => r

/-- The version of the transaction is forgotten. -/
def rollback (r : LockedRow τ V) (t : τ) : LockedRow τ V :=
  match r.version t with
  | some _ => { r with pending := none }
  | none => r

/-! ## Versions -/

lemma version_eq_some : r.version t = some v ↔ r.pending = some (t, v) := by
  rw [version]
  cases r.pending with
  | none => simp
  | some p =>
      obtain ⟨u, w⟩ := p
      by_cases h : u = t
      · simp [h]
      · simp [h]

/-- **The lock**: two transactions do not both have a version. -/
theorem version_unique (h : r.version t = some v) (h' : r.version u = some w) : t = u := by
  rw [version_eq_some] at h h'
  rw [h] at h'
  exact congrArg Prod.fst (Option.some.inj h')

@[simp] lemma version_of_pending (c : Option V) (t : τ) (v : V) :
    (⟨c, some (t, v)⟩ : LockedRow τ V).version t = some v := by simp [version]

lemma version_of_pending_ne (c : Option V) (v : V) (h : u ≠ t) :
    (⟨c, some (t, v)⟩ : LockedRow τ V).version u = none := by simp [version, h.symm]

@[simp] lemma version_of_none (c : Option V) (t : τ) :
    (⟨c, none⟩ : LockedRow τ V).version t = none := rfl

/-- Where the lock is free for one transaction, no other has a version. -/
lemma Free.version_of_ne (h : r.Free t) (hu : u ≠ t) : r.version u = none := by
  cases hversion : r.version u with
  | none => rfl
  | some v => exact absurd (h _ (version_eq_some.mp hversion)) hu

lemma view_of_version (h : r.version t = some v) : r.view t = some v := by simp [view, h]

lemma view_of_no_version (h : r.version t = none) : r.view t = r.committed := by simp [view, h]

/-! ## Statements -/

/-- The insertion finds the row, or there was none at all. -/
lemma insertDoNothing_cases (h : r.insertDoNothing t v = some r') :
    ((r.view t).isSome = true ∧ r' = r) ∨
      (r.committed = none ∧ r.pending = none ∧ r' = ⟨none, some (t, v)⟩) := by
  rw [insertDoNothing] at h
  split at h
  · rename_i hview
    exact Or.inl ⟨hview, (Option.some.inj h).symm⟩
  · rename_i hview
    split at h
    · rename_i hfree
      have hnone : r.view t = none := by simpa using hview
      rw [view, Option.or_eq_none_iff] at hnone
      have hpending : r.pending = none := by
        cases hp : r.pending with
        | none => rfl
        | some p =>
            obtain ⟨u, w⟩ := p
            obtain rfl : u = t := hfree _ hp
            have hversion := version_eq_some.mpr hp
            rw [hnone.1] at hversion
            exact absurd hversion (by simp)
      refine Or.inr ⟨hnone.2, hpending, ?_⟩
      rw [← Option.some.inj h, hnone.2]
    · exact absurd h (by simp)

/-- The update holds the lock, and writes the row it sees. -/
lemma update_cases {f : V → V} {returned : Option V} (h : r.update t f = some (r', returned)) :
    r.Free t ∧ ((r.view t = none ∧ r' = r ∧ returned = none) ∨
      ∃ v, r.view t = some v ∧ r' = ⟨r.committed, some (t, f v)⟩ ∧ returned = some (f v)) := by
  rw [update] at h
  split at h
  · rename_i hfree
    refine ⟨hfree, ?_⟩
    cases hview : r.view t with
    | some v =>
        simp only [hview] at h
        obtain ⟨hr, hreturned⟩ := Prod.mk.inj (Option.some.inj h)
        exact Or.inr ⟨v, rfl, hr.symm, hreturned.symm⟩
    | none =>
        simp only [hview] at h
        obtain ⟨hr, hreturned⟩ := Prod.mk.inj (Option.some.inj h)
        exact Or.inl ⟨rfl, hr.symm, hreturned.symm⟩
  · exact absurd h (by simp)

lemma commit_of_version (h : r.version t = some v) : r.commit t = ⟨some v, none⟩ := by
  simp [commit, h]

lemma commit_of_no_version (h : r.version t = none) : r.commit t = r := by simp [commit, h]

lemma rollback_of_version (h : r.version t = some v) : r.rollback t = ⟨r.committed, none⟩ := by
  simp [rollback, h]

lemma rollback_of_no_version (h : r.version t = none) : r.rollback t = r := by
  simp [rollback, h]

@[simp] lemma committed_rollback : (r.rollback t).committed = r.committed := by
  rw [rollback]
  split <;> rfl

@[simp] lemma version_rollback_self : (r.rollback t).version t = none := by
  cases h : r.version t with
  | some v => rw [rollback_of_version h, version_of_none]
  | none => rw [rollback_of_no_version h, h]

/-- The end of one transaction leaves the versions of the others. -/
lemma version_rollback_of_ne (hu : u ≠ t) : (r.rollback t).version u = r.version u := by
  cases h : r.version t with
  | none => rw [rollback_of_no_version h]
  | some v =>
      rw [rollback_of_version h, version_of_none]
      cases hversion : r.version u with
      | none => rfl
      | some w => exact absurd (version_unique hversion h) hu

end LockedRow
