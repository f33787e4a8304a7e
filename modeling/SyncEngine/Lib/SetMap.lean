import Mathlib.Logic.Function.Basic
import Mathlib.Data.List.Nodup

/-!
# Maps to sets

A map from keys to sets, as an index over a collection is kept: a set is made when its first
member is added, and an index that tidies up drops it with its last member.

What such a map is asked for are its `members` at a key.  A key without a set has none, so that
the lemmas on `members` do not tell an empty set from a missing one.  That an index which is kept
with `add` and `remove` has no empty set is at the end.
-/

/-- A map from keys to sets, the members of each in the order in which they were added. -/
abbrev SetMap (κ ν : Type*) := κ → Option (List ν)

namespace SetMap

variable {κ ν : Type*}

/-- No key has a set. -/
def empty : SetMap κ ν := fun _ => none

/-- The members of the set at a key, none without a set. -/
def members (m : SetMap κ ν) (k : κ) : List ν := (m k).getD []

@[simp]
lemma members_empty (k : κ) : (empty : SetMap κ ν).members k = [] := rfl

variable [DecidableEq κ] [DecidableEq ν]

/-- Adds a member, with a new set if there is none. -/
def add (m : SetMap κ ν) (k : κ) (v : ν) : SetMap κ ν :=
  Function.update m k (some (if v ∈ m.members k then m.members k else m.members k ++ [v]))

/-- Takes a member out of the set at a key, if there is a set. -/
def delete (m : SetMap κ ν) (k : κ) (v : ν) : SetMap κ ν :=
  Function.update m k ((m k).map fun vs => vs.filter (· ≠ v))

/-- Drops the set at a key. -/
def drop (m : SetMap κ ν) (k : κ) : SetMap κ ν := Function.update m k none

/-- Takes a member out and drops a set that has become empty. -/
def remove (m : SetMap κ ν) (k : κ) (v : ν) : SetMap κ ν :=
  if (m.delete k v) k = some [] then (m.delete k v).drop k else m.delete k v

variable {m : SetMap κ ν} {k k' : κ} {v v' : ν}

/-! ## Members -/

lemma members_add (m : SetMap κ ν) (k : κ) (v : ν) :
    (m.add k v).members =
      Function.update m.members k
        (if v ∈ m.members k then m.members k else m.members k ++ [v]) := by
  funext k'
  by_cases h : k' = k
  · subst h
    rw [members, add, Function.update_self, Function.update_self]
    rfl
  · rw [members, add, Function.update_of_ne h, Function.update_of_ne h]
    rfl

lemma members_delete (m : SetMap κ ν) (k : κ) (v : ν) :
    (m.delete k v).members = Function.update m.members k ((m.members k).filter (· ≠ v)) := by
  funext k'
  by_cases h : k' = k
  · subst h
    rw [members, delete, Function.update_self, Function.update_self, members]
    cases m k' <;> rfl
  · rw [members, delete, Function.update_of_ne h, Function.update_of_ne h]
    rfl

omit [DecidableEq ν] in
lemma members_drop (m : SetMap κ ν) (k : κ) :
    (m.drop k).members = Function.update m.members k [] := by
  funext k'
  by_cases h : k' = k
  · subst h
    rw [members, drop, Function.update_self, Function.update_self]
    rfl
  · rw [members, drop, Function.update_of_ne h, Function.update_of_ne h]
    rfl

/-- An empty set that is dropped is not missed. -/
lemma members_remove (m : SetMap κ ν) (k : κ) (v : ν) :
    (m.remove k v).members = Function.update m.members k ((m.members k).filter (· ≠ v)) := by
  rw [remove, ← members_delete]
  split
  · rename_i hempty
    have hnil : (m.delete k v).members k = [] := by rw [members, hempty, Option.getD_some]
    rw [members_drop, ← hnil, Function.update_eq_self]
  · rfl

/-- The members are what was there and what was added. -/
lemma mem_members_add :
    v' ∈ (m.add k v).members k' ↔ v' ∈ m.members k' ∨ k' = k ∧ v' = v := by
  rw [members_add]
  by_cases h : k' = k
  · subst h
    rw [Function.update_self]
    split
    · rename_i hv
      exact ⟨Or.inl, fun h' => h'.elim id fun h' => h'.2 ▸ hv⟩
    · simp
  · simp [h]

/-- The members are what was there, without what was taken out. -/
lemma mem_members_remove :
    v' ∈ (m.remove k v).members k' ↔ v' ∈ m.members k' ∧ ¬ (k' = k ∧ v' = v) := by
  rw [members_remove]
  by_cases h : k' = k
  · subst h
    simp
  · simp [h]

lemma nodup_members_add (h : ∀ k, (m.members k).Nodup) (k k' : κ) (v : ν) :
    ((m.add k v).members k').Nodup := by
  rw [members_add]
  by_cases hk : k' = k
  · subst hk
    rw [Function.update_self]
    split
    · exact h k'
    · rename_i hv
      rw [← List.concat_eq_append]
      exact List.Nodup.concat hv (h k')
  · rw [Function.update_of_ne hk]
    exact h k'

lemma nodup_members_remove (h : ∀ k, (m.members k).Nodup) (k k' : κ) (v : ν) :
    ((m.remove k v).members k').Nodup := by
  rw [members_remove]
  by_cases hk : k' = k
  · subst hk
    rw [Function.update_self]
    exact (h k').filter _
  · rw [Function.update_of_ne hk]
    exact h k'

/-- Taking out what is not there changes no set. -/
lemma members_delete_of_notMem (h : v ∉ m.members k) : (m.delete k v).members = m.members := by
  have hfilter : (m.members k).filter (· ≠ v) = m.members k :=
    List.filter_eq_self.mpr fun v' hv' => decide_eq_true fun heq => h (heq ▸ hv')
  rw [members_delete, hfilter, Function.update_eq_self]

/-! ## Empty sets -/

/-- No key has an empty set. -/
def NoEmptySet (m : SetMap κ ν) : Prop := ∀ k, m k ≠ some []

omit [DecidableEq κ] [DecidableEq ν] in
lemma noEmptySet_empty : (empty : SetMap κ ν).NoEmptySet := fun _ => nofun

lemma NoEmptySet.add (h : m.NoEmptySet) (k : κ) (v : ν) : (m.add k v).NoEmptySet := by
  intro k'
  unfold SetMap.add
  by_cases hk : k' = k
  · subst hk
    rw [Function.update_self]
    split
    · rename_i hv
      exact fun heq => List.ne_nil_of_mem hv (Option.some.inj heq)
    · simp
  · rw [Function.update_of_ne hk]
    exact h k'

/-- What `remove` is for. -/
lemma NoEmptySet.remove (h : m.NoEmptySet) (k : κ) (v : ν) : (m.remove k v).NoEmptySet := by
  intro k'
  have hother : k' ≠ k → (m.delete k v) k' = m k' := fun hk => by
    rw [delete, Function.update_of_ne hk]
  unfold SetMap.remove
  split
  · by_cases hk : k' = k
    · subst hk
      rw [drop, Function.update_self]
      nofun
    · rw [drop, Function.update_of_ne hk, hother hk]
      exact h k'
  · rename_i hne
    by_cases hk : k' = k
    · subst hk
      exact hne
    · rw [hother hk]
      exact h k'

end SetMap
