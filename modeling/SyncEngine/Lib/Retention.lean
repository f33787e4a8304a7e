import Mathlib.Data.List.Sort
import Mathlib.Data.List.Nodup

/-!
# Keeping the newest rows

Rows with a number each, their version, of which from time to time all but the `n` newest are
dropped.  `newer x` counts the rows with a version beyond `x`.  Dropping rows does not make it
smaller than `n` if it was not (`newer_newest`), and a row is dropped only if there are `n` newer
ones (`mem_newest_or`): so it stays true, for good, that a row is there or `n` newer ones are.
-/

namespace Retention

variable {ρ : Type*} (version : ρ → Nat) {t t' : List ρ} {r : ρ} {x n : Nat}

/-- The rows, newest first. -/
def newestFirst (t : List ρ) : List ρ := t.insertionSort fun a b => version b ≤ version a

/-- The `n` newest rows. -/
def newest (n : Nat) (t : List ρ) : List ρ := (newestFirst version t).take n

/-- How many rows are beyond a version. -/
def newer (x : Nat) (t : List ρ) : Nat := t.countP fun r => x < version r

lemma newestFirst_perm (t : List ρ) : (newestFirst version t).Perm t := List.perm_insertionSort _ t

lemma pairwise_newestFirst (t : List ρ) :
    (newestFirst version t).Pairwise fun a b => version b ≤ version a :=
  List.pairwise_insertionSort (fun a b : ρ => version b ≤ version a) t

variable {version}

lemma newer_perm (h : t.Perm t') (x : Nat) : newer version x t = newer version x t' :=
  h.countP_eq _

/-- In a descending list the rows beyond a version come first. -/
lemma countP_take {l : List ρ} (h : l.Pairwise fun a b => version b ≤ version a) (x n : Nat) :
    (l.take n).countP (fun r => x < version r) = min n (l.countP fun r => x < version r) := by
  induction l generalizing n with
  | nil => simp
  | cons a l ih =>
      obtain ⟨hle, hrest⟩ := List.pairwise_cons.mp h
      cases n with
      | zero => simp
      | succ n =>
          rw [List.take_succ_cons, List.countP_cons, List.countP_cons, ih hrest]
          by_cases ha : x < version a
          · simp only [ha, decide_true, if_true]
            omega
          · have hnone : l.countP (fun r => x < version r) = 0 := by
              rw [List.countP_eq_zero]
              intro b hb
              have hba := hle b hb
              rw [decide_eq_true_eq]
              omega
            simp [ha, hnone]

/-- **What is dropped are the oldest rows.** -/
theorem newer_newest (x n : Nat) (t : List ρ) :
    newer version x (newest version n t) = min n (newer version x t) := by
  rw [newer, newest, countP_take (pairwise_newestFirst version t), newer,
    (newestFirst_perm version t).countP_eq]

/-- A row that is dropped has `n` newer ones. -/
theorem mem_newest_or (hunique : (t.map version).Nodup) (hr : r ∈ t) :
    r ∈ newest version n t ∨ n ≤ newer version (version r) t := by
  have hmem : r ∈ newestFirst version t := (newestFirst_perm version t).mem_iff.mpr hr
  have hsorted := pairwise_newestFirst version t
  have hnodup : ((newestFirst version t).map version).Nodup :=
    ((newestFirst_perm version t).map version).nodup_iff.mpr hunique
  rw [← List.take_append_drop n (newestFirst version t)] at hmem hsorted hnodup
  rcases List.mem_append.mp hmem with htake | hdrop
  · exact .inl htake
  · right
    have hlen : ((newestFirst version t).take n).length = n := by
      rw [List.length_take, Nat.min_eq_left]
      by_contra hlt
      rw [List.drop_eq_nil_of_le (by omega)] at hdrop
      simp at hdrop
    have hall : ((newestFirst version t).take n).countP (fun r' => version r < version r') = n := by
      rw [← hlen, hlen, List.countP_eq_length.mpr, hlen]
      intro r' hr'
      have hle := (List.pairwise_append.mp hsorted).2.2 r' hr' r hdrop
      have hne : version r' ≠ version r := by
        rw [List.map_append, List.nodup_append] at hnodup
        exact hnodup.2.2 _ (List.mem_map_of_mem hr') _ (List.mem_map_of_mem hdrop)
      rw [decide_eq_true_eq]
      omega
    rw [countP_take (pairwise_newestFirst version t),
      (newestFirst_perm version t).countP_eq] at hall
    rw [newer]
    omega

/-- The first rows of a list, found by a key that is unique. -/
lemma filter_mem_take {κ : Type*} [DecidableEq κ] {f : ρ → κ} {l : List ρ} (h : (l.map f).Nodup)
    (n : Nat) : l.filter (fun r => f r ∈ (l.take n).map f) = l.take n := by
  have hsplit : ∀ l₁ l₂ : List ρ, ((l₁ ++ l₂).map f).Nodup →
      (l₁ ++ l₂).filter (fun r => f r ∈ l₁.map f) = l₁ := by
    intro l₁ l₂ hnodup
    rw [List.map_append, List.nodup_append] at hnodup
    rw [List.filter_append, List.filter_eq_self.mpr, List.filter_eq_nil_iff.mpr, List.append_nil]
    · intro r hr
      rw [decide_eq_true_eq]
      exact fun hmem => hnodup.2.2 _ hmem _ (List.mem_map_of_mem hr) rfl
    · intro r hr
      exact decide_eq_true (List.mem_map_of_mem hr)
  have hall := hsplit (l.take n) (l.drop n) (by rwa [List.take_append_drop])
  rwa [List.take_append_drop] at hall

/-- The newest row there is. -/
lemma le_head (h : (newestFirst version t).head? = some r) :
    r ∈ t ∧ ∀ r' ∈ t, version r' ≤ version r := by
  obtain ⟨rest, hrest⟩ := List.head?_eq_some_iff.mp h
  have hsorted := pairwise_newestFirst version t
  have hperm := newestFirst_perm version t
  rw [hrest] at hsorted hperm
  refine ⟨hperm.mem_iff.mp (List.mem_cons_self ..), fun r' hr' => ?_⟩
  rcases List.mem_cons.mp (hperm.mem_iff.mpr hr') with rfl | hr'
  · exact Nat.le_refl _
  · exact (List.pairwise_cons.mp hsorted).1 r' hr'

variable (version) in
lemma exists_head (hr : r ∈ t) : ∃ r', (newestFirst version t).head? = some r' := by
  cases hhead : (newestFirst version t).head? with
  | some r' => exact ⟨r', rfl⟩
  | none =>
      rw [List.head?_eq_none_iff] at hhead
      have hmem := (newestFirst_perm version t).mem_iff.mpr hr
      rw [hhead] at hmem
      simp at hmem

end Retention
