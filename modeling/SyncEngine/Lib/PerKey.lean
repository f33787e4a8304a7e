import Mathlib.Data.List.Basic

/-!
# One numbering for the entries of many keys

A list of entries, each with its key, numbers them in one sequence.  `entriesOf k` is the list of
the entries of one key, which numbers these alone; `rank k` takes the numbers of the first sequence
to those of the second.  What is done to the entry at a number is done to `entriesOf k` at its
rank, if the entry has the key, and otherwise `entriesOf k` does not change.
-/

namespace PerKey

variable {κ α : Type*} [DecidableEq κ] {l : List (κ × α)} {k k' : κ} {n m : Nat} {a a' : α}

/-- The entries of a key. -/
def entriesOf (k : κ) (l : List (κ × α)) : List α := (l.filter fun p => p.1 = k).map Prod.snd

/-- How many entries of the key come before a number. -/
def rank (k : κ) (l : List (κ × α)) (n : Nat) : Nat := (l.take n).countP fun p => p.1 = k

@[simp] lemma entriesOf_nil (k : κ) : entriesOf k ([] : List (κ × α)) = [] := rfl

lemma entriesOf_cons (k : κ) (p : κ × α) (l : List (κ × α)) :
    entriesOf k (p :: l) = if p.1 = k then p.2 :: entriesOf k l else entriesOf k l := by
  rw [entriesOf, List.filter_cons]
  by_cases h : p.1 = k
  · simp [h, entriesOf]
  · simp [h, entriesOf]

@[simp] lemma entriesOf_append (k : κ) (l l' : List (κ × α)) :
    entriesOf k (l ++ l') = entriesOf k l ++ entriesOf k l' := by
  simp [entriesOf]

lemma length_entriesOf (k : κ) (l : List (κ × α)) :
    (entriesOf k l).length = l.countP fun p => p.1 = k := by
  rw [entriesOf, List.length_map, List.countP_eq_length_filter]

omit [DecidableEq κ] in
/-- A list is cut at an entry. -/
lemma split_at (h : l[n]? = some (k, a)) :
    ∃ l₁ l₂, l = l₁ ++ (k, a) :: l₂ ∧ l₁.length = n := by
  obtain ⟨hn, ha⟩ := List.getElem?_eq_some_iff.mp h
  refine ⟨l.take n, l.drop (n + 1), ?_, List.length_take_of_le (Nat.le_of_lt hn)⟩
  rw [← ha, ← List.drop_eq_getElem_cons hn, List.take_append_drop]

lemma rank_of_split (k : κ) (l₁ l₂ : List (κ × α)) :
    rank k (l₁ ++ l₂) l₁.length = (entriesOf k l₁).length := by
  rw [rank, List.take_left, length_entriesOf]

lemma rank_length (k : κ) (l : List (κ × α)) : rank k l l.length = (entriesOf k l).length := by
  rw [rank, List.take_length, length_entriesOf]

lemma rank_append (k : κ) (l' : List (κ × α)) (hn : n ≤ l.length) :
    rank k (l ++ l') n = rank k l n := by
  rw [rank, List.take_append_of_le_length hn, rank]

/-- The entry at a number is the entry of its key at the rank. -/
lemma getElem?_rank (h : l[n]? = some (k, a)) : (entriesOf k l)[rank k l n]? = some a := by
  obtain ⟨l₁, l₂, rfl, rfl⟩ := split_at h
  rw [rank_of_split, entriesOf_append, entriesOf_cons, if_pos rfl]
  simp

/-- An entry is replaced by another one of its key. -/
lemma entriesOf_set (h : l[n]? = some (k', a)) (k : κ) (a' : α) :
    entriesOf k (l.set n (k', a')) =
      if k' = k then (entriesOf k l).set (rank k l n) a' else entriesOf k l := by
  obtain ⟨l₁, l₂, rfl, rfl⟩ := split_at h
  rw [rank_of_split]
  by_cases hk : k' = k
  · simp [hk, entriesOf_cons]
  · simp [hk, entriesOf_cons]

lemma rank_set (h : l[n]? = some (k', a)) (k : κ) (a' : α) (m : Nat) :
    rank k (l.set n (k', a')) m = rank k l m := by
  obtain ⟨l₁, l₂, rfl, rfl⟩ := split_at h
  have hset : (l₁ ++ (k', a) :: l₂).set l₁.length (k', a') = l₁ ++ (k', a') :: l₂ := by
    simp
  rw [hset, rank, rank, List.take_append, List.take_append, List.countP_append, List.countP_append]
  congr 1
  cases m - l₁.length with
  | zero => rfl
  | succ i => simp [List.countP_cons]

end PerKey
