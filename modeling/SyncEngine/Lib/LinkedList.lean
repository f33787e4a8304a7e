import Mathlib.Data.List.Basic

/-!
# Doubly linked lists

Lists of pointers that are held together by two partial functions, `next` and `prev`.
`Linked next prev a l` says that from `a` the `next` pointers lead through `l` to the end, and
that every element of `l` has its predecessor as `prev`; what one meets on the way in either
direction is `Walk`.

The two ways in which such a list changes, splicing an element in (`Linked.insert`) and bypassing
one (`Linked.erase`), are stated for any two functions that differ from the old ones where they
have to, so that it does not matter by which assignments they came about.
-/

namespace LinkedList

variable {ρ : Type*} {next prev next' prev' : ρ → Option ρ} {a x y : ρ} {l pre post : List ρ}

/-- The pointers that one meets from `start` on, until there is none. -/
def Walk (step : ρ → Option ρ) : Option ρ → List ρ → Prop
  | start, [] => start = none
  | start, b :: l => start = some b ∧ Walk step (step b) l

/-- From `a` on, `l` is linked in both directions. -/
def Linked (next prev : ρ → Option ρ) : ρ → List ρ → Prop
  | a, [] => next a = none
  | a, b :: l => next a = some b ∧ prev b = some a ∧ Linked next prev b l

namespace Linked

lemma congr (h : Linked next prev a l) (hnext : ∀ y ∈ a :: l, next' y = next y)
    (hprev : ∀ y ∈ l, prev' y = prev y) : Linked next' prev' a l := by
  induction l generalizing a with
  | nil => exact (hnext a (List.mem_cons_self ..)).trans h
  | cons b l ih =>
      obtain ⟨hb, hpb, hrest⟩ := h
      refine ⟨(hnext a (List.mem_cons_self ..)).trans hb,
        (hprev b (List.mem_cons_self ..)).trans hpb, ih hrest (fun y hy => ?_) fun y hy => ?_⟩
      · exact hnext y (List.mem_cons_of_mem _ hy)
      · exact hprev y (List.mem_cons_of_mem _ hy)

/-! ## Walking -/

/-- Forward one meets the list. -/
theorem walk_next (h : Linked next prev a l) : Walk next (next a) l := by
  induction l generalizing a with
  | nil => exact h
  | cons b l ih => exact ⟨h.1, ih h.2.2⟩

lemma walk_prev_append {m : List ρ} (h : Linked next prev a l) (hm : Walk prev (prev a) m) :
    Walk prev (some (l.getLastD a)) (l.reverse ++ a :: m) := by
  induction l generalizing a m with
  | nil => exact ⟨rfl, hm⟩
  | cons b l ih =>
      obtain ⟨-, hprev, hrest⟩ := h
      have hback : Walk prev (prev b) (a :: m) := ⟨hprev, hm⟩
      rw [List.getLastD_cons, List.reverse_cons, List.append_assoc, List.singleton_append]
      exact ih hrest hback

/-- Backward from the last element one meets the list in reverse, and `a` at the end. -/
theorem walk_prev (h : Linked next prev a l) (ha : prev a = none) :
    Walk prev (some (l.getLastD a)) (a :: l).reverse := by
  have hwalk := h.walk_prev_append (m := []) ha
  rwa [← List.reverse_cons] at hwalk

lemma of_append (h : Linked next prev a (pre ++ post)) :
    Linked next prev (pre.getLastD a) post := by
  induction pre generalizing a with
  | nil => exact h
  | cons b pre ih =>
      rw [List.getLastD_cons]
      exact ih h.2.2

lemma next_eq_head? (h : Linked next prev a l) : next a = l.head? := by
  cases l with
  | nil => exact h
  | cons b l => exact h.1

/-- The last element of a front part is followed by the head of the rest. -/
lemma next_getLastD (h : Linked next prev a (pre ++ post)) :
    next (pre.getLastD a) = post.head? := h.of_append.next_eq_head?

/-- **A loop along `next`** that has fuel for the rest of the list: it ends where the list does, and
goes on behind every element with the rest and less fuel. -/
theorem walk_induction {motive : Nat → Option ρ → List ρ → Prop}
    (hend : ∀ fuel, motive fuel none [])
    (hstep : ∀ fuel b l, next b = l.head? → motive fuel l.head? l →
      motive (fuel + 1) (some b) (b :: l))
    (h : Linked next prev a l) {fuel : Nat} (hfuel : l.length ≤ fuel) :
    motive fuel l.head? l := by
  induction l generalizing a fuel with
  | nil => exact hend fuel
  | cons b l ih =>
      obtain ⟨-, -, hrest⟩ := h
      cases fuel with
      | zero => exact absurd hfuel (Nat.not_succ_le_zero _)
      | succ fuel =>
          exact hstep fuel b l hrest.next_eq_head? (ih hrest (Nat.le_of_succ_le_succ hfuel))

end Linked

/-- The last element of a front part is not among the rest. -/
lemma getLastD_notMem (hnd : (a :: (pre ++ post)).Nodup) : pre.getLastD a ∉ post := by
  intro hmem
  rw [← List.cons_append, List.nodup_append] at hnd
  exact hnd.2.2 _ List.getLastD_mem_cons _ hmem rfl

namespace Linked

/-! ## Changes -/

/-- **Splicing**: `x` is put behind the element that ends the front part. -/
theorem insert (h : Linked next prev a (pre ++ post)) (hnd : (a :: (pre ++ post)).Nodup)
    (hnextp : next' (pre.getLastD a) = some x) (hnextx : next' x = next (pre.getLastD a))
    (hnext : ∀ y ∈ a :: (pre ++ post), y ≠ pre.getLastD a → next' y = next y)
    (hprevx : prev' x = some (pre.getLastD a)) (hprevh : ∀ y ∈ post.head?, prev' y = some x)
    (hprev : ∀ y ∈ pre ++ post, y ∉ post.head? → prev' y = prev y) :
    Linked next' prev' a (pre ++ x :: post) := by
  induction pre generalizing a with
  | nil =>
      rw [List.getLastD_nil] at hnextp hnextx hnext hprevx
      refine ⟨hnextp, hprevx, ?_⟩
      cases post with
      | nil => exact hnextx.trans h
      | cons q post =>
          obtain ⟨hq, -, hrest⟩ := h
          obtain ⟨ha, hnd'⟩ := List.nodup_cons.mp hnd
          refine ⟨hnextx.trans hq, hprevh q rfl, hrest.congr (fun y hy => ?_) fun y hy => ?_⟩
          · exact hnext y (List.mem_cons_of_mem _ hy) fun hya => ha (hya ▸ hy)
          · refine hprev y (List.mem_cons_of_mem _ hy) fun hyq => ?_
            obtain rfl : q = y := by simpa using hyq
            exact (List.nodup_cons.mp hnd').1 hy
  | cons b pre ih =>
      rw [List.getLastD_cons] at hnextp hnextx hnext hprevx
      obtain ⟨hb, hprevb, hrest⟩ := h
      obtain ⟨ha, hnd'⟩ := List.nodup_cons.mp hnd
      have hlast : pre.getLastD b ∈ b :: (pre ++ post) := by
        rw [← List.cons_append]
        exact List.mem_append_left _ List.getLastD_mem_cons
      have hbhead : b ∉ post.head? := fun hmem =>
        (List.nodup_cons.mp hnd').1 (List.mem_append_right _ (List.mem_of_mem_head? hmem))
      refine ⟨(hnext a (List.mem_cons_self ..) fun heq => ha (heq ▸ hlast)).trans hb,
        (hprev b (List.mem_cons_self ..) hbhead).trans hprevb,
        ih hrest hnd' hnextp hnextx (fun y hy => ?_) hprevx fun y hy => ?_⟩
      · exact hnext y (List.mem_cons_of_mem _ hy)
      · exact hprev y (List.mem_cons_of_mem _ hy)

/-- **Bypassing**: the element behind the front part is left out. -/
theorem erase (h : Linked next prev a (pre ++ x :: post)) (hnd : (a :: (pre ++ x :: post)).Nodup)
    (hnextp : next' (pre.getLastD a) = next x)
    (hnext : ∀ y ∈ a :: (pre ++ post), y ≠ pre.getLastD a → next' y = next y)
    (hprevh : ∀ y ∈ post.head?, prev' y = some (pre.getLastD a))
    (hprev : ∀ y ∈ pre ++ post, y ∉ post.head? → prev' y = prev y) :
    Linked next' prev' a (pre ++ post) := by
  induction pre generalizing a with
  | nil =>
      rw [List.getLastD_nil] at hnextp hnext hprevh
      obtain ⟨-, -, hrest⟩ := h
      obtain ⟨ha, hnd'⟩ := List.nodup_cons.mp hnd
      cases post with
      | nil => exact hnextp.trans hrest
      | cons q post =>
          obtain ⟨hq, -, hrest⟩ := hrest
          have hqpost := (List.nodup_cons.mp (List.nodup_cons.mp hnd').2).1
          refine ⟨hnextp.trans hq, hprevh q rfl, hrest.congr (fun y hy => ?_) fun y hy => ?_⟩
          · refine hnext y (List.mem_cons_of_mem _ hy) fun hya => ha ?_
            exact List.mem_cons_of_mem _ (hya ▸ hy)
          · refine hprev y (List.mem_cons_of_mem _ hy) fun hyq => ?_
            obtain rfl : q = y := by simpa using hyq
            exact hqpost hy
  | cons b pre ih =>
      rw [List.getLastD_cons] at hnextp hnext hprevh
      obtain ⟨hb, hprevb, hrest⟩ := h
      obtain ⟨ha, hnd'⟩ := List.nodup_cons.mp hnd
      have hlast : pre.getLastD b ∈ b :: (pre ++ x :: post) := by
        rw [← List.cons_append]
        exact List.mem_append_left _ List.getLastD_mem_cons
      have hbhead : b ∉ post.head? := fun hmem =>
        (List.nodup_cons.mp hnd').1 (List.mem_append_right _
          (List.mem_cons_of_mem _ (List.mem_of_mem_head? hmem)))
      refine ⟨(hnext a (List.mem_cons_self ..) fun heq => ha (heq ▸ hlast)).trans hb,
        (hprev b (List.mem_cons_self ..) hbhead).trans hprevb,
        ih hrest hnd' hnextp (fun y hy => ?_) hprevh fun y hy => ?_⟩
      · exact hnext y (List.mem_cons_of_mem _ hy)
      · exact hprev y (List.mem_cons_of_mem _ hy)

end Linked

end LinkedList
