import Mathlib.Order.Lattice
import Mathlib.Data.List.Perm.Basic

/-!
# Insertion that skips greater keys

A list whose elements carry keys of a linear order, and the insertion that starts right behind
an anchor, walks over every element with a *greater* key and stops in front of the first one
that is not greater (`skipGreater`, `insertAfter`).  The list itself need not be sorted: only
the run right behind the anchor is ever compared.

What makes this insertion useful is that it commutes (`skipGreater_comm`,
`insertAfter_skipGreater_comm`, `insertAfter_comm`): two insertions that do not name each other
as anchor may be carried out in either order, on **every** list, whatever the keys and whatever
the anchors.  The stopping element is what carries the argument: an insertion of `x` that lands
strictly inside the run another insertion `y` walks over would have to stop at an element that
is not greater than `x` but greater than `y`.

The remaining lemmas say what an insertion does to the rest of the list: which elements it
holds afterwards, that the other elements keep their order, and how it behaves under a map that
keeps the keys or under a filter that drops elements.
-/

namespace SkipInsert

variable {ν κ : Type*} [LinearOrder κ] (key : ν → κ)

/-- Put `x` in front of the first element whose key is not greater than that of `x`. -/
def skipGreater (x : ν) : List ν → List ν
  | [] => [x]
  | n :: rest => if key x < key n then n :: skipGreater x rest else x :: n :: rest

/-- `skipGreater`, started right behind the first element with key `a`.  Without such an element
the list stays as it is. -/
def insertAfter (a : κ) (x : ν) : List ν → List ν
  | [] => []
  | n :: rest => if key n = a then n :: skipGreater key x rest else n :: insertAfter a x rest

@[simp] lemma skipGreater_nil (x : ν) : skipGreater key x [] = [x] := rfl

@[simp] lemma insertAfter_nil (a : κ) (x : ν) : insertAfter key a x [] = [] := rfl

variable {key}

lemma skipGreater_cons_of_lt {x n : ν} (h : key x < key n) (rest : List ν) :
    skipGreater key x (n :: rest) = n :: skipGreater key x rest := if_pos h

lemma skipGreater_cons_of_not_lt {x n : ν} (h : ¬ key x < key n) (rest : List ν) :
    skipGreater key x (n :: rest) = x :: n :: rest := if_neg h

lemma insertAfter_cons_of_eq {a : κ} {n : ν} (h : key n = a) (x : ν) (rest : List ν) :
    insertAfter key a x (n :: rest) = n :: skipGreater key x rest := if_pos h

lemma insertAfter_cons_of_ne {a : κ} {n : ν} (h : key n ≠ a) (x : ν) (rest : List ν) :
    insertAfter key a x (n :: rest) = n :: insertAfter key a x rest := if_neg h

/-! ## What an insertion holds -/

/-- The new element is added once and every other element stays. -/
lemma skipGreater_perm (x : ν) (l : List ν) : (skipGreater key x l).Perm (x :: l) := by
  induction l with
  | nil => exact List.Perm.refl _
  | cons n rest ih =>
      by_cases h : key x < key n
      · rw [skipGreater_cons_of_lt h]
        exact (ih.cons n).trans (List.Perm.swap x n rest)
      · rw [skipGreater_cons_of_not_lt h]

lemma insertAfter_perm {a : κ} {l : List ν} (ha : a ∈ l.map key) (x : ν) :
    (insertAfter key a x l).Perm (x :: l) := by
  induction l with
  | nil => simp at ha
  | cons n rest ih =>
      by_cases h : key n = a
      · rw [insertAfter_cons_of_eq h]
        exact ((skipGreater_perm x rest).cons n).trans (List.Perm.swap x n rest)
      · rw [insertAfter_cons_of_ne h]
        have ha' : a ∈ rest.map key := by
          rcases List.mem_cons.mp ha with h' | h'
          · exact absurd h'.symm h
          · exact h'
        exact ((ih ha').cons n).trans (List.Perm.swap x n rest)

lemma insertAfter_of_notMem {a : κ} {l : List ν} (ha : a ∉ l.map key) (x : ν) :
    insertAfter key a x l = l := by
  induction l with
  | nil => rfl
  | cons n rest ih =>
      simp only [List.map_cons, List.mem_cons, not_or] at ha
      rw [insertAfter_cons_of_ne (fun h => ha.1 h.symm), ih ha.2]

/-- The elements that were there keep their order. -/
lemma sublist_skipGreater (x : ν) (l : List ν) : l.Sublist (skipGreater key x l) := by
  induction l with
  | nil => exact List.nil_sublist _
  | cons n rest ih =>
      by_cases h : key x < key n
      · rw [skipGreater_cons_of_lt h]
        exact ih.cons_cons n
      · rw [skipGreater_cons_of_not_lt h]
        exact List.sublist_cons_self x (n :: rest)

lemma sublist_insertAfter (a : κ) (x : ν) (l : List ν) :
    l.Sublist (insertAfter key a x l) := by
  induction l with
  | nil => exact List.nil_sublist _
  | cons n rest ih =>
      by_cases h : key n = a
      · rw [insertAfter_cons_of_eq h]
        exact (sublist_skipGreater x rest).cons_cons n
      · rw [insertAfter_cons_of_ne h]
        exact ih.cons_cons n

/-! ## Insertions into a list put together of two -/

/-- What is greater is passed. -/
lemma skipGreater_append {x : ν} {l m : List ν} (h : ∀ n ∈ l, key x < key n) :
    skipGreater key x (l ++ m) = l ++ skipGreater key x m := by
  induction l with
  | nil => rfl
  | cons n rest ih =>
      rw [List.cons_append, skipGreater_cons_of_lt (h n (List.mem_cons_self ..)),
        ih fun m hm => h m (List.mem_cons_of_mem _ hm), List.cons_append]

/-- The new element goes right behind the greater ones at the head. -/
lemma skipGreater_eq_takeWhile (x : ν) (l : List ν) :
    skipGreater key x l =
      (l.takeWhile fun n => decide (key x < key n)) ++
        x :: l.dropWhile fun n => decide (key x < key n) := by
  induction l with
  | nil => rfl
  | cons n rest ih =>
      by_cases h : key x < key n
      · rw [skipGreater_cons_of_lt h, ih, List.takeWhile_cons_of_pos (by simpa using h),
          List.dropWhile_cons_of_pos (by simpa using h), List.cons_append]
      · rw [skipGreater_cons_of_not_lt h, List.takeWhile_cons_of_neg (by simpa using h),
          List.dropWhile_cons_of_neg (by simpa using h), List.nil_append]

/-- What is in front of the anchor is passed. -/
lemma insertAfter_append {a : κ} {x : ν} {l m : List ν} (h : a ∉ l.map key) :
    insertAfter key a x (l ++ m) = l ++ insertAfter key a x m := by
  induction l with
  | nil => rfl
  | cons n rest ih =>
      simp only [List.map_cons, List.mem_cons, not_or] at h
      rw [List.cons_append, insertAfter_cons_of_ne (fun hn => h.1 hn.symm), ih h.2,
        List.cons_append]

/-! ## A greatest element -/

/-- A key that no element exceeds stops the insertion at once. -/
lemma skipGreater_of_forall_le {x : ν} {l : List ν} (h : ∀ n ∈ l, key n ≤ key x) :
    skipGreater key x l = x :: l := by
  cases l with
  | nil => rfl
  | cons n rest => exact skipGreater_cons_of_not_lt (not_lt.mpr (h n (List.mem_cons_self ..))) rest

/-- Its element goes directly behind the anchor. -/
lemma insertAfter_append_cons {x n : ν} {pre post : List ν} (hpre : key n ∉ pre.map key)
    (h : ∀ m ∈ post, key m ≤ key x) :
    insertAfter key (key n) x (pre ++ n :: post) = pre ++ n :: x :: post := by
  rw [insertAfter_append hpre, insertAfter_cons_of_eq rfl, skipGreater_of_forall_le h]

/-! ## Insertions commute -/

/-- Two insertions that start at the head of the same list commute. -/
theorem skipGreater_comm {x y : ν} (hxy : key x ≠ key y) (l : List ν) :
    skipGreater key x (skipGreater key y l) = skipGreater key y (skipGreater key x l) := by
  induction l with
  | nil =>
      rcases lt_or_gt_of_ne hxy with h | h
      · simp [skipGreater, h, h.not_gt]
      · simp [skipGreater, h, h.not_gt]
  | cons n rest ih =>
      by_cases hx : key x < key n <;> by_cases hy : key y < key n
      · rw [skipGreater_cons_of_lt hy, skipGreater_cons_of_lt hx, skipGreater_cons_of_lt hx,
          skipGreater_cons_of_lt hy, ih]
      · -- `y` stops in front of `n`, which `x` walks over: `x` walks over `y` as well
        have h : key x < key y := lt_of_lt_of_le hx (not_lt.mp hy)
        rw [skipGreater_cons_of_not_lt hy, skipGreater_cons_of_lt h,
          skipGreater_cons_of_lt hx, skipGreater_cons_of_not_lt hy]
      · have h : key y < key x := lt_of_lt_of_le hy (not_lt.mp hx)
        rw [skipGreater_cons_of_lt hy, skipGreater_cons_of_not_lt hx,
          skipGreater_cons_of_not_lt hx, skipGreater_cons_of_lt h, skipGreater_cons_of_lt hy]
      · -- both stop in front of `n`: the greater of the two ends up on the left
        rw [skipGreater_cons_of_not_lt hy, skipGreater_cons_of_not_lt hx]
        rcases lt_or_gt_of_ne hxy with h | h
        · rw [skipGreater_cons_of_lt h, skipGreater_cons_of_not_lt hx,
            skipGreater_cons_of_not_lt h.not_gt]
        · rw [skipGreater_cons_of_not_lt h.not_gt, skipGreater_cons_of_lt h,
            skipGreater_cons_of_not_lt hy]

/-- An insertion behind an anchor commutes with one at the head of the list, provided the
latter does not insert the anchor. -/
theorem insertAfter_skipGreater_comm {x y : ν} {b : κ} (hxy : key x ≠ key y) (hb : key x ≠ b)
    (l : List ν) :
    insertAfter key b y (skipGreater key x l) = skipGreater key x (insertAfter key b y l) := by
  induction l with
  | nil => simp [skipGreater, insertAfter, hb]
  | cons n rest ih =>
      by_cases hx : key x < key n
      · rw [skipGreater_cons_of_lt hx]
        by_cases hn : key n = b
        · rw [insertAfter_cons_of_eq hn, insertAfter_cons_of_eq hn, skipGreater_cons_of_lt hx,
            skipGreater_comm hxy]
        · rw [insertAfter_cons_of_ne hn, insertAfter_cons_of_ne hn, skipGreater_cons_of_lt hx, ih]
      · rw [skipGreater_cons_of_not_lt hx, insertAfter_cons_of_ne hb]
        by_cases hn : key n = b
        · rw [insertAfter_cons_of_eq hn, skipGreater_cons_of_not_lt hx]
        · rw [insertAfter_cons_of_ne hn, skipGreater_cons_of_not_lt hx]

/-- **Insertions that do not name each other as anchor commute**, on every list. -/
theorem insertAfter_comm {x y : ν} {a b : κ} (hxy : key x ≠ key y) (ha : key y ≠ a)
    (hb : key x ≠ b) (l : List ν) :
    insertAfter key a x (insertAfter key b y l) = insertAfter key b y (insertAfter key a x l) := by
  induction l with
  | nil => rfl
  | cons n rest ih =>
      by_cases hna : key n = a <;> by_cases hnb : key n = b
      · rw [insertAfter_cons_of_eq hnb, insertAfter_cons_of_eq hna, insertAfter_cons_of_eq hna,
          insertAfter_cons_of_eq hnb, skipGreater_comm hxy]
      · rw [insertAfter_cons_of_ne hnb, insertAfter_cons_of_eq hna, insertAfter_cons_of_eq hna,
          insertAfter_cons_of_ne hnb, insertAfter_skipGreater_comm hxy hb]
      · rw [insertAfter_cons_of_eq hnb, insertAfter_cons_of_ne hna, insertAfter_cons_of_ne hna,
          insertAfter_cons_of_eq hnb, insertAfter_skipGreater_comm hxy.symm ha]
      · rw [insertAfter_cons_of_ne hnb, insertAfter_cons_of_ne hna, insertAfter_cons_of_ne hna,
          insertAfter_cons_of_ne hnb, ih]

/-! ## Insertions under a map -/

section Map

variable {μ : Type*} {key' : μ → κ} {f : ν → μ}

/-- A map that keeps the keys goes through an insertion. -/
lemma map_skipGreater (hf : ∀ n, key' (f n) = key n) (x : ν) (l : List ν) :
    (skipGreater key x l).map f = skipGreater key' (f x) (l.map f) := by
  induction l with
  | nil => rfl
  | cons n rest ih =>
      by_cases h : key x < key n
      · have h' : key' (f x) < key' (f n) := by rw [hf, hf]; exact h
        rw [skipGreater_cons_of_lt h, List.map_cons, List.map_cons, skipGreater_cons_of_lt h', ih]
      · have h' : ¬ key' (f x) < key' (f n) := by rw [hf, hf]; exact h
        rw [skipGreater_cons_of_not_lt h, List.map_cons, List.map_cons,
          skipGreater_cons_of_not_lt h']

lemma map_insertAfter (hf : ∀ n, key' (f n) = key n) (a : κ) (x : ν) (l : List ν) :
    (insertAfter key a x l).map f = insertAfter key' a (f x) (l.map f) := by
  induction l with
  | nil => rfl
  | cons n rest ih =>
      by_cases h : key n = a
      · have h' : key' (f n) = a := by rw [hf]; exact h
        rw [insertAfter_cons_of_eq h, List.map_cons, List.map_cons, insertAfter_cons_of_eq h',
          map_skipGreater hf]
      · have h' : key' (f n) ≠ a := by rw [hf]; exact h
        rw [insertAfter_cons_of_ne h, List.map_cons, List.map_cons, insertAfter_cons_of_ne h', ih]

end Map

/-! ## Insertions under a filter -/

section Filter

variable {p : ν → Bool}

/-- An insertion of an element that is dropped is dropped. -/
lemma filter_skipGreater_of_neg {x : ν} (hx : p x = false) (l : List ν) :
    (skipGreater key x l).filter p = l.filter p := by
  induction l with
  | nil => simp [hx]
  | cons n rest ih =>
      by_cases h : key x < key n
      · rw [skipGreater_cons_of_lt h, List.filter_cons, List.filter_cons, ih]
      · rw [skipGreater_cons_of_not_lt h, List.filter_cons_of_neg (by simp [hx])]

lemma filter_insertAfter_of_neg {x : ν} (hx : p x = false) (a : κ) (l : List ν) :
    (insertAfter key a x l).filter p = l.filter p := by
  induction l with
  | nil => rfl
  | cons n rest ih =>
      by_cases h : key n = a
      · rw [insertAfter_cons_of_eq h, List.filter_cons, List.filter_cons,
          filter_skipGreater_of_neg hx]
      · rw [insertAfter_cons_of_ne h, List.filter_cons, List.filter_cons, ih]

variable (key) in
/-- The elements behind the first one with key `a`. -/
def behind (a : κ) (l : List ν) : List ν := (l.dropWhile fun n => key n ≠ a).tail

/-- Dropping elements goes through an insertion, provided the first element that remains behind
the place of insertion would have stopped it as well. -/
theorem filter_skipGreater {x : ν} (hx : p x = true) {l : List ν}
    (hstop : ∀ n, (l.dropWhile fun n => key x < key n).find? p = some n → ¬ key x < key n) :
    (skipGreater key x l).filter p = skipGreater key x (l.filter p) := by
  induction l with
  | nil => simp [hx]
  | cons n rest ih =>
      by_cases h : key x < key n
      · rw [List.dropWhile_cons_of_pos (by simpa using h)] at hstop
        rw [skipGreater_cons_of_lt h]
        cases hp : p n
        · rw [List.filter_cons_of_neg (by simp [hp]), List.filter_cons_of_neg (by simp [hp]),
            ih hstop]
        · rw [List.filter_cons_of_pos hp, List.filter_cons_of_pos hp, skipGreater_cons_of_lt h,
            ih hstop]
      · rw [List.dropWhile_cons_of_neg (by simpa using h)] at hstop
        rw [skipGreater_cons_of_not_lt h, List.filter_cons_of_pos hx]
        cases hrest : (n :: rest).filter p with
        | nil => rfl
        | cons m rest' =>
            refine (skipGreater_cons_of_not_lt (hstop m ?_) rest').symm
            rw [← List.head?_filter, hrest, List.head?_cons]

theorem filter_insertAfter {x : ν} (hx : p x = true) {a : κ} {l : List ν}
    (ha : ∀ n ∈ l, key n = a → p n = true)
    (hstop : ∀ n, ((behind key a l).dropWhile fun n => key x < key n).find? p = some n →
      ¬ key x < key n) :
    (insertAfter key a x l).filter p = insertAfter key a x (l.filter p) := by
  induction l with
  | nil => rfl
  | cons n rest ih =>
      by_cases h : key n = a
      · have hbehind : behind key a (n :: rest) = rest := by
          rw [behind, List.dropWhile_cons_of_neg (by simpa using h), List.tail_cons]
        rw [hbehind] at hstop
        have hp : p n = true := ha n (List.mem_cons_self ..) h
        rw [insertAfter_cons_of_eq h, List.filter_cons_of_pos hp, List.filter_cons_of_pos hp,
          insertAfter_cons_of_eq h, filter_skipGreater hx hstop]
      · have hbehind : behind key a (n :: rest) = behind key a rest := by
          rw [behind, List.dropWhile_cons_of_pos (by simpa using h), behind]
        rw [hbehind] at hstop
        have ih' := ih (fun m hm => ha m (List.mem_cons_of_mem _ hm)) hstop
        rw [insertAfter_cons_of_ne h]
        cases hp : p n
        · rw [List.filter_cons_of_neg (by simp [hp]), List.filter_cons_of_neg (by simp [hp]), ih']
        · rw [List.filter_cons_of_pos hp, List.filter_cons_of_pos hp, insertAfter_cons_of_ne h, ih']

end Filter

end SkipInsert
