import Mathlib.Data.List.Pairwise
import Mathlib.Order.Lattice

/-!
# Priority queues in a list

A list whose elements carry a rank of a linear order, the small ranks first, and the insertion
that puts an element in front of the first one with a greater rank.

Elements of one rank stay in the order of their insertion: restricted to a rank, an insertion is
a push at the end (`filter_insert_self`), and it does not show in the other ranks
(`filter_insert_of_neg`).  The first element of an ordered queue has the least rank
(`Ordered.head_le`).
-/

namespace PriorityQueue

variable {ν κ : Type*} [LinearOrder κ] (rank : ν → κ)

/-- Put `x` in front of the first element of a greater rank, or at the end. -/
def insert (x : ν) : List ν → List ν
  | [] => [x]
  | n :: rest => if rank x < rank n then x :: n :: rest else n :: insert x rest

/-- The ranks ascend. -/
def Ordered (l : List ν) : Prop := l.Pairwise fun a b => rank a ≤ rank b

variable {rank}

lemma mem_insert {x y : ν} {l : List ν} : y ∈ insert rank x l ↔ y = x ∨ y ∈ l := by
  induction l with
  | nil => simp [insert]
  | cons n rest ih =>
      rw [insert]
      split
      · simp
      · rw [List.mem_cons, ih, List.mem_cons]
        exact or_left_comm

lemma Ordered.tail {n : ν} {rest : List ν} (h : Ordered rank (n :: rest)) : Ordered rank rest :=
  (List.pairwise_cons.mp h).2

/-- The first element has the least rank. -/
lemma Ordered.head_le {n : ν} {rest : List ν} (h : Ordered rank (n :: rest)) :
    ∀ y ∈ rest, rank n ≤ rank y := (List.pairwise_cons.mp h).1

lemma Ordered.insert {l : List ν} (h : Ordered rank l) (x : ν) :
    Ordered rank (insert rank x l) := by
  induction l with
  | nil => exact List.pairwise_singleton _ _
  | cons n rest ih =>
      rw [PriorityQueue.insert]
      split
      · rename_i hlt
        refine List.pairwise_cons.mpr ⟨fun y hy => ?_, h⟩
        rcases List.mem_cons.mp hy with rfl | hy
        · exact hlt.le
        · exact hlt.le.trans (h.head_le y hy)
      · rename_i hle
        refine List.pairwise_cons.mpr ⟨fun y hy => ?_, ih h.tail⟩
        rcases mem_insert.mp hy with rfl | hy
        · exact le_of_not_gt hle
        · exact h.head_le y hy

/-- **First in, first out**: within a class of elements of its own rank, an insertion is a push
at the end. -/
lemma filter_insert_self {p : ν → Bool} {x : ν} {l : List ν} (hl : Ordered rank l)
    (hx : p x = true) (hp : ∀ y ∈ l, p y = true → rank y ≤ rank x) :
    (insert rank x l).filter p = l.filter p ++ [x] := by
  induction l with
  | nil => simp [insert, hx]
  | cons n rest ih =>
      rw [insert]
      split
      · rename_i hlt
        -- everything behind `x` has a greater rank, so nothing of the class is there
        have hnone : (n :: rest).filter p = [] := by
          refine List.filter_eq_nil_iff.mpr fun y hy hpy => ?_
          refine absurd (hp y hy hpy) (not_le_of_gt ?_)
          rcases List.mem_cons.mp hy with rfl | hy
          · exact hlt
          · exact hlt.trans_le (hl.head_le y hy)
        rw [List.filter_cons_of_pos hx, hnone]
        rfl
      · have hrest := ih hl.tail fun y hy => hp y (List.mem_cons_of_mem _ hy)
        by_cases hn : p n = true
        · rw [List.filter_cons_of_pos hn, List.filter_cons_of_pos hn, hrest, List.cons_append]
        · rw [List.filter_cons_of_neg hn, List.filter_cons_of_neg hn, hrest]

/-- An insertion does not show in a class that the element is not in. -/
lemma filter_insert_of_neg {p : ν → Bool} {x : ν} (hx : ¬ p x = true) (l : List ν) :
    (insert rank x l).filter p = l.filter p := by
  induction l with
  | nil => simp [insert, hx]
  | cons n rest ih =>
      rw [insert]
      split
      · rw [List.filter_cons_of_neg hx]
      · rw [List.filter_cons, List.filter_cons, ih]

end PriorityQueue
