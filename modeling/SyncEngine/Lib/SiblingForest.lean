import Mathlib.Logic.Relation
import SyncEngine.Lib.SkipInsert

/-!
# Forests in preorder

A list into which elements are inserted behind an anchor, skipping greater ones, is the preorder of
a forest that nobody builds: the forest in which every element is a child of its anchor.  This
module has the forest and shows that the insertions into the list and into the forest agree, as long
as every element is greater than its parent (`Growing`) and siblings stand in descending order
(`Descending`).

* `preorder_insertRoot`, `preorder_insertUnder`: an insertion that skips greater elements passes
  exactly the subtrees of the greater siblings.
* **`exists_block`**: the descendants of an element are one contiguous block right behind it.
* **`exists_cut`**: the blocks of two siblings do not overlap.

A forest is kept as its first element, the forest of that element's children, and the forest of the
elements beside it.
-/

namespace SiblingForest

variable {κ : Type*}

/-- Trees whose nodes have their children and the next siblings. -/
inductive Forest (κ : Type*) where
  | nil
  | cons (id : κ) (children siblings : Forest κ)

namespace Forest

/-- Every element before its children, children from left to right. -/
def preorder : Forest κ → List κ
  | nil => []
  | cons id children siblings => id :: (preorder children ++ preorder siblings)

/-- The elements without a parent. -/
def roots : Forest κ → List κ
  | nil => []
  | cons id _ siblings => id :: roots siblings

/-- Every element with its parent, where the roots have the parent `p`. -/
def edges (p : Option κ) : Forest κ → List (κ × Option κ)
  | nil => []
  | cons id children siblings => (id, p) :: (edges (some id) children ++ edges p siblings)

/-! ## Elements and edges -/

lemma mem_preorder_of_mem_roots {f : Forest κ} {w : κ} (h : w ∈ f.roots) : w ∈ f.preorder := by
  induction f with
  | nil => simp [roots] at h
  | cons id children siblings _ ih =>
      rcases List.mem_cons.mp h with rfl | h
      · exact List.mem_cons_self ..
      · exact List.mem_cons_of_mem _ (List.mem_append_right _ (ih h))

/-- The elements of the list are those with an edge. -/
lemma mem_preorder_iff {f : Forest κ} {p : Option κ} {w : κ} :
    w ∈ f.preorder ↔ ∃ q, (w, q) ∈ f.edges p := by
  induction f generalizing p with
  | nil => simp [preorder, edges]
  | cons id children siblings ihc ihs =>
      simp only [preorder, edges, List.mem_cons, List.mem_append, Prod.mk.injEq]
      rw [ihc (p := some id), ihs (p := p)]
      constructor
      · rintro (rfl | ⟨q, hq⟩ | ⟨q, hq⟩)
        · exact ⟨p, Or.inl ⟨rfl, rfl⟩⟩
        · exact ⟨q, Or.inr (Or.inl hq)⟩
        · exact ⟨q, Or.inr (Or.inr hq)⟩
      · rintro ⟨q, ⟨rfl, -⟩ | hq | hq⟩
        · exact Or.inl rfl
        · exact Or.inr (Or.inl ⟨q, hq⟩)
        · exact Or.inr (Or.inr ⟨q, hq⟩)

/-- A parent is an element itself, unless it is the parent of the roots. -/
lemma parent_cases {f : Forest κ} {p q : Option κ} {w : κ} (h : (w, q) ∈ f.edges p) :
    q = p ∨ ∃ a ∈ f.preorder, q = some a := by
  induction f generalizing p with
  | nil => simp [edges] at h
  | cons id children siblings ihc ihs =>
      simp only [edges, List.mem_cons, List.mem_append, Prod.mk.injEq] at h
      rcases h with ⟨-, rfl⟩ | h | h
      · exact Or.inl rfl
      · rcases ihc h with rfl | ⟨a, ha, rfl⟩
        · exact Or.inr ⟨id, List.mem_cons_self .., rfl⟩
        · exact Or.inr ⟨a, List.mem_cons_of_mem _ (List.mem_append_left _ ha), rfl⟩
      · rcases ihs h with rfl | ⟨a, ha, rfl⟩
        · exact Or.inl rfl
        · exact Or.inr ⟨a, List.mem_cons_of_mem _ (List.mem_append_right _ ha), rfl⟩

/-- The elements of a forest without repetitions: the first one, its descendants, the rest. -/
lemma nodup_cons {id : κ} {children siblings : Forest κ} :
    (cons id children siblings).preorder.Nodup ↔
      (id ∉ children.preorder ∧ id ∉ siblings.preorder) ∧ children.preorder.Nodup ∧
        siblings.preorder.Nodup ∧ ∀ w ∈ children.preorder, w ∉ siblings.preorder := by
  rw [preorder, List.nodup_cons, List.mem_append, not_or, List.nodup_append]
  constructor
  · rintro ⟨hid, hc, hs, hdisjoint⟩
    exact ⟨hid, hc, hs, fun w hw hw' => hdisjoint w hw w hw' rfl⟩
  · rintro ⟨hid, hc, hs, hdisjoint⟩
    exact ⟨hid, hc, hs, fun w hw w' hw' heq => hdisjoint w hw (heq ▸ hw')⟩

/-! ## Order -/

section Order

variable [LinearOrder κ]

/-- Siblings stand in descending order. -/
def Descending : Forest κ → Prop
  | nil => True
  | cons id children siblings =>
      (∀ r ∈ siblings.roots, r < id) ∧ Descending children ∧ Descending siblings

/-- Every element is greater than its parent. -/
def Growing : Forest κ → Prop
  | nil => True
  | cons id children siblings =>
      (∀ r ∈ children.roots, id < r) ∧ Growing children ∧ Growing siblings

/-- What is less than the roots is less than every element. -/
lemma Growing.lt_of_lt_roots {f : Forest κ} (h : f.Growing) {b : κ} (hb : ∀ r ∈ f.roots, b < r) :
    ∀ w ∈ f.preorder, b < w := by
  induction f generalizing b with
  | nil => simp [preorder]
  | cons id children siblings ihc ihs =>
      obtain ⟨hid, hc, hs⟩ := h
      have hbid : b < id := hb id (List.mem_cons_self ..)
      intro w hw
      simp only [preorder, List.mem_cons, List.mem_append] at hw
      rcases hw with rfl | hw | hw
      · exact hbid
      · exact hbid.trans (ihc hc hid w hw)
      · exact ihs hs (fun r hr => hb r (List.mem_cons_of_mem _ hr)) w hw

/-- An element is greater than its parent. -/
lemma Growing.lt_of_edge {f : Forest κ} (h : f.Growing) {p : Option κ} {a w : κ}
    (hp : ∀ b, p = some b → ∀ r ∈ f.roots, b < r) (hw : (w, some a) ∈ f.edges p) : a < w := by
  induction f generalizing p with
  | nil => simp [edges] at hw
  | cons id children siblings ihc ihs =>
      obtain ⟨hid, hc, hs⟩ := h
      simp only [edges, List.mem_cons, List.mem_append, Prod.mk.injEq] at hw
      rcases hw with ⟨rfl, hpa⟩ | hw | hw
      · exact hp a hpa.symm w (List.mem_cons_self ..)
      · refine ihc hc (fun b hb r hr => ?_) hw
        obtain rfl := Option.some.inj hb
        exact hid r hr
      · exact ihs hs (fun b hb r hr => hp b hb r (List.mem_cons_of_mem _ hr)) hw

/-! ## Insertions -/

/-- Put a new root in its place among the roots. -/
def insertRoot (x : κ) : Forest κ → Forest κ
  | nil => cons x nil nil
  | cons id children siblings =>
      if x < id then cons id children (insertRoot x siblings)
      else cons x nil (cons id children siblings)

/-- Put a new child of `a` in its place among the children of `a`. -/
def insertUnder (a x : κ) : Forest κ → Forest κ
  | nil => nil
  | cons id children siblings =>
      if id = a then cons id (insertRoot x children) siblings
      else cons id (insertUnder a x children) (insertUnder a x siblings)

lemma mem_roots_insertRoot {f : Forest κ} {x w : κ} :
    w ∈ (f.insertRoot x).roots ↔ w = x ∨ w ∈ f.roots := by
  induction f with
  | nil => simp [insertRoot, roots]
  | cons id children siblings _ ih =>
      rw [insertRoot]
      split
      · simp only [roots, List.mem_cons, ih]
        exact or_left_comm
      · simp [roots]

lemma roots_insertUnder (f : Forest κ) (a x : κ) : (f.insertUnder a x).roots = f.roots := by
  induction f with
  | nil => rfl
  | cons id children siblings _ ih =>
      rw [insertUnder]
      split
      · rfl
      · rw [roots, roots, ih]

lemma mem_edges_insertRoot {f : Forest κ} {x : κ} {p : Option κ} {e : κ × Option κ} :
    e ∈ (f.insertRoot x).edges p ↔ e = (x, p) ∨ e ∈ f.edges p := by
  induction f with
  | nil => simp [insertRoot, edges]
  | cons id children siblings _ ih =>
      rw [insertRoot]
      split
      · simp only [edges, List.mem_cons, List.mem_append, ih]
        rw [or_left_comm (b := e = (x, p)), or_left_comm]
      · simp [edges]

lemma Descending.insertRoot {f : Forest κ} (h : f.Descending) {x : κ} (hx : x ∉ f.roots) :
    (f.insertRoot x).Descending := by
  induction f with
  | nil => exact ⟨by simp [roots], trivial, trivial⟩
  | cons id children siblings _ ih =>
      obtain ⟨hid, hc, hs⟩ := h
      simp only [roots, List.mem_cons, not_or] at hx
      rw [Forest.insertRoot]
      split
      · rename_i hlt
        refine ⟨fun r hr => ?_, hc, ih hs hx.2⟩
        rcases mem_roots_insertRoot.mp hr with rfl | hr
        · exact hlt
        · exact hid r hr
      · rename_i hlt
        have hgt : id < x := lt_of_le_of_ne (not_lt.mp hlt) (Ne.symm hx.1)
        refine ⟨fun r hr => ?_, trivial, hid, hc, hs⟩
        rcases List.mem_cons.mp hr with rfl | hr
        · exact hgt
        · exact (hid r hr).trans hgt

lemma Growing.insertRoot {f : Forest κ} (h : f.Growing) (x : κ) : (f.insertRoot x).Growing := by
  induction f with
  | nil => exact ⟨by simp [roots], trivial, trivial⟩
  | cons id children siblings _ ih =>
      obtain ⟨hid, hc, hs⟩ := h
      rw [Forest.insertRoot]
      split
      · exact ⟨hid, hc, ih hs⟩
      · exact ⟨by simp [roots], trivial, hid, hc, hs⟩

lemma insertUnder_of_notMem {f : Forest κ} {a x : κ} (ha : a ∉ f.preorder) :
    f.insertUnder a x = f := by
  induction f with
  | nil => rfl
  | cons id children siblings ihc ihs =>
      simp only [preorder, List.mem_cons, List.mem_append, not_or] at ha
      rw [insertUnder, if_neg (Ne.symm ha.1), ihc ha.2.1, ihs ha.2.2]

/-- A new child is inserted once, its parent being there once. -/
lemma mem_edges_insertUnder {f : Forest κ} {a x : κ} (ha : a ∈ f.preorder) (hnd : f.preorder.Nodup)
    {p : Option κ} {e : κ × Option κ} :
    e ∈ (f.insertUnder a x).edges p ↔ e = (x, some a) ∨ e ∈ f.edges p := by
  induction f generalizing p with
  | nil => simp [preorder] at ha
  | cons id children siblings ihc ihs =>
      obtain ⟨⟨hidc, hids⟩, hndc, hnds, hdisjoint⟩ := nodup_cons.mp hnd
      by_cases hid : id = a
      · subst hid
        rw [insertUnder, if_pos rfl]
        simp only [edges, List.mem_cons, List.mem_append, mem_edges_insertRoot, or_assoc]
        exact or_left_comm
      · rw [insertUnder, if_neg hid]
        simp only [preorder, List.mem_cons, List.mem_append] at ha
        rcases ha with h | h | h
        · exact absurd h.symm hid
        · rw [insertUnder_of_notMem (hdisjoint a h)]
          simp only [edges, List.mem_cons, List.mem_append, ihc h hndc, or_assoc]
          exact or_left_comm
        · rw [insertUnder_of_notMem fun hc => hdisjoint a hc h]
          simp only [edges, List.mem_cons, List.mem_append, ihs h hnds]
          rw [or_left_comm (b := e = (x, some a)), or_left_comm]

lemma Descending.insertUnder {f : Forest κ} (h : f.Descending) (a : κ) {x : κ}
    (hx : x ∉ f.preorder) : (f.insertUnder a x).Descending := by
  induction f with
  | nil => exact trivial
  | cons id children siblings ihc ihs =>
      obtain ⟨hid, hc, hs⟩ := h
      simp only [preorder, List.mem_cons, List.mem_append, not_or] at hx
      rw [Forest.insertUnder]
      split
      · exact ⟨hid, hc.insertRoot fun hr => hx.2.1 (mem_preorder_of_mem_roots hr), hs⟩
      · exact ⟨by rwa [roots_insertUnder], ihc hc hx.2.1, ihs hs hx.2.2⟩

lemma Growing.insertUnder {f : Forest κ} (h : f.Growing) {a x : κ} (hax : a < x) :
    (f.insertUnder a x).Growing := by
  induction f with
  | nil => exact trivial
  | cons id children siblings ihc ihs =>
      obtain ⟨hid, hc, hs⟩ := h
      rw [Forest.insertUnder]
      split
      · rename_i hida
        refine ⟨fun r hr => ?_, hc.insertRoot x, hs⟩
        rcases mem_roots_insertRoot.mp hr with rfl | hr
        · exact hida ▸ hax
        · exact hid r hr
      · exact ⟨by rwa [roots_insertUnder], ihc hc, ihs hs⟩

/-! ## Insertions skip whole subtrees -/

/-- In front of what follows a root's subtree, the next root or the rest, stands nothing that is
not less than the root. -/
lemma head_lt {siblings : Forest κ} {rest : List κ} {id : κ} (hid : ∀ r ∈ siblings.roots, r < id)
    (hrest : ∀ h ∈ rest.head?, h < id) : ∀ h ∈ (siblings.preorder ++ rest).head?, h < id := by
  cases siblings with
  | nil => exact hrest
  | cons r children siblings =>
      intro h hh
      obtain rfl : r = h := by simpa [preorder] using hh
      exact hid r (List.mem_cons_self ..)

/-- **A new root**: the insertion passes the subtrees of the greater roots and stops at the first
root that is not greater, or at the rest. -/
theorem preorder_insertRoot {f : Forest κ} (h : f.Growing) {x : κ} {rest : List κ}
    (hrest : ∀ h ∈ rest.head?, h < x) :
    SkipInsert.skipGreater id x (f.preorder ++ rest) = (f.insertRoot x).preorder ++ rest := by
  induction f with
  | nil =>
      cases rest with
      | nil => rfl
      | cons n rest =>
          have hn : ¬ id x < id n := (hrest n rfl).not_gt
          rw [preorder, List.nil_append, SkipInsert.skipGreater_cons_of_not_lt hn]
          rfl
  | cons r children siblings _ ih =>
      obtain ⟨hr, hc, hs⟩ := h
      rw [insertRoot]
      split
      · -- everything below a greater root is greater
        rename_i hlt
        have hsubtree : ∀ n ∈ r :: children.preorder, id x < id n := by
          intro n hn
          rcases List.mem_cons.mp hn with rfl | hn
          · exact hlt
          · exact hlt.trans (hc.lt_of_lt_roots hr n hn)
        have hsplit : (cons r children siblings).preorder ++ rest =
            (r :: children.preorder) ++ (siblings.preorder ++ rest) := by simp [preorder]
        rw [hsplit, SkipInsert.skipGreater_append hsubtree, ih hs]
        simp [preorder]
      · rename_i hlt
        have hsplit : (cons r children siblings).preorder ++ rest =
            r :: (children.preorder ++ siblings.preorder ++ rest) := by simp [preorder]
        rw [hsplit, SkipInsert.skipGreater_cons_of_not_lt hlt]
        simp [preorder]

/-- **A new child**: the insertion behind its parent stays inside the parent's subtree. -/
theorem preorder_insertUnder {f : Forest κ} (hgrowing : f.Growing) (hdescending : f.Descending)
    (hnd : f.preorder.Nodup) {a x : κ} (ha : a ∈ f.preorder) (hax : a < x) {rest : List κ}
    (hrest : ∀ h ∈ rest.head?, ∀ r ∈ f.roots, h < r) :
    SkipInsert.insertAfter id a x (f.preorder ++ rest) = (f.insertUnder a x).preorder ++ rest := by
  induction f generalizing rest with
  | nil => simp [preorder] at ha
  | cons r children siblings ihc ihs =>
      obtain ⟨hr, hgc, hgs⟩ := hgrowing
      obtain ⟨hd, hdc, hds⟩ := hdescending
      obtain ⟨⟨hrc, hrs⟩, hndc, hnds, hdisjoint⟩ := nodup_cons.mp hnd
      have hnext : ∀ h ∈ (siblings.preorder ++ rest).head?, h < r :=
        head_lt hd fun h hh => hrest h hh r (List.mem_cons_self ..)
      have hsplit : (cons r children siblings).preorder ++ rest =
          r :: (children.preorder ++ (siblings.preorder ++ rest)) := by simp [preorder]
      rw [hsplit, insertUnder]
      by_cases hra : r = a
      · subst hra
        have hself : id r = r := rfl
        rw [if_pos rfl, SkipInsert.insertAfter_cons_of_eq hself,
          preorder_insertRoot hgc fun h hh => (hnext h hh).trans hax]
        simp [preorder]
      · have hne : id r ≠ a := hra
        rw [if_neg hra, SkipInsert.insertAfter_cons_of_ne hne]
        simp only [preorder, List.mem_cons, List.mem_append] at ha
        rcases ha with h | h | h
        · exact absurd h.symm hra
        · rw [insertUnder_of_notMem (hdisjoint a h),
            ihc hgc hdc hndc h fun b hb c hc => (hnext b hb).trans (hr c hc)]
          simp [preorder]
        · have hac : a ∉ children.preorder := fun hc => hdisjoint a hc h
          have hac' : a ∉ children.preorder.map id := by simpa using hac
          rw [insertUnder_of_notMem hac, SkipInsert.insertAfter_append hac',
            ihs hgs hds hnds h fun b hb c hc => hrest b hb c (List.mem_cons_of_mem _ hc)]
          simp [preorder]

end Order

/-! ## Descendants -/

/-- `w` is a child of `a`. -/
def Child (edges : List (κ × Option κ)) (a w : κ) : Prop := (w, some a) ∈ edges

/-- The elements below `a`. -/
abbrev Descendant (f : Forest κ) (p : Option κ) : κ → κ → Prop :=
  Relation.TransGen (Child (f.edges p))

lemma Child.mem_preorder {f : Forest κ} {p : Option κ} {a w : κ} (h : Child (f.edges p) a w) :
    w ∈ f.preorder :=
  mem_preorder_iff.mpr ⟨some a, h⟩

/-- Inside a set that no step leaves, a path takes the steps the set knows. -/
lemma transGen_of_closed {r r' : κ → κ → Prop} {S : Set κ}
    (hclosed : ∀ a ∈ S, ∀ b, r' a b → r a b ∧ b ∈ S) {u w : κ} (hu : u ∈ S)
    (h : Relation.TransGen r' u w) : Relation.TransGen r u w ∧ w ∈ S := by
  induction h with
  | single hstep =>
      obtain ⟨hr, hmem⟩ := hclosed u hu _ hstep
      exact ⟨.single hr, hmem⟩
  | tail _ hstep ih =>
      obtain ⟨hr, hmem⟩ := hclosed _ ih.2 _ hstep
      exact ⟨ih.1.tail hr, hmem⟩

section Cons

variable {id : κ} {children siblings : Forest κ} {p : Option κ}

lemma child_of_children {a b : κ} (h : Child (children.edges (some id)) a b) :
    Child ((cons id children siblings).edges p) a b :=
  List.mem_cons_of_mem _ (List.mem_append_left _ h)

lemma child_of_siblings {a b : κ} (h : Child (siblings.edges p) a b) :
    Child ((cons id children siblings).edges p) a b :=
  List.mem_cons_of_mem _ (List.mem_append_right _ h)

lemma descendant_of_children {a b : κ} (h : children.Descendant (some id) a b) :
    (cons id children siblings).Descendant p a b :=
  Relation.TransGen.mono (fun _ _ hc => child_of_children hc) _ _ h

lemma descendant_of_siblings {a b : κ} (h : siblings.Descendant p a b) :
    (cons id children siblings).Descendant p a b :=
  Relation.TransGen.mono (fun _ _ hc => child_of_siblings hc) _ _ h

variable (hnd : (cons id children siblings).preorder.Nodup)
  (hp : ∀ b, p = some b → b ∉ (cons id children siblings).preorder)

include hnd hp

/-- The steps from the first element and from below it stay below it. -/
lemma child_inside {a b : κ} (ha : a ∈ id :: children.preorder)
    (h : Child ((cons id children siblings).edges p) a b) :
    Child (children.edges (some id)) a b := by
  obtain ⟨⟨-, hids⟩, -, -, hdisjoint⟩ := nodup_cons.mp hnd
  have hroot : p ≠ some a := fun hpa => hp a hpa (by
    rcases List.mem_cons.mp ha with rfl | ha
    · exact List.mem_cons_self ..
    · exact List.mem_cons_of_mem _ (List.mem_append_left _ ha))
  have hs : a ∉ siblings.preorder := by
    rcases List.mem_cons.mp ha with rfl | ha
    · exact hids
    · exact hdisjoint a ha
  simp only [Child, edges, List.mem_cons, List.mem_append, Prod.mk.injEq] at h
  rcases h with ⟨-, hpa⟩ | h | h
  · exact absurd hpa.symm hroot
  · exact h
  · rcases parent_cases h with hpa | ⟨c, hc, hac⟩
    · exact absurd hpa.symm hroot
    · obtain rfl := Option.some.inj hac
      exact absurd hc hs

/-- The steps from beside the first element stay beside it. -/
lemma child_beside {a b : κ} (ha : a ∈ siblings.preorder)
    (h : Child ((cons id children siblings).edges p) a b) : Child (siblings.edges p) a b := by
  obtain ⟨⟨-, hids⟩, -, -, hdisjoint⟩ := nodup_cons.mp hnd
  have hroot : p ≠ some a := fun hpa =>
    hp a hpa (List.mem_cons_of_mem _ (List.mem_append_right _ ha))
  simp only [Child, edges, List.mem_cons, List.mem_append, Prod.mk.injEq] at h
  rcases h with ⟨-, hpa⟩ | h | h
  · exact absurd hpa.symm hroot
  · rcases parent_cases h with hai | ⟨c, hc, hac⟩
    · obtain rfl := Option.some.inj hai
      exact absurd ha hids
    · obtain rfl := Option.some.inj hac
      exact absurd ha (hdisjoint a hc)
  · exact h

end Cons

/-- The elements of the forest of children are below their parent. -/
lemma descendant_of_mem {f : Forest κ} {a w : κ} (hw : w ∈ f.preorder) :
    f.Descendant (some a) a w := by
  induction f generalizing a with
  | nil => simp [preorder] at hw
  | cons id children siblings ihc ihs =>
      have hid : Child ((cons id children siblings).edges (some a)) a id :=
        List.mem_cons_self ..
      simp only [preorder, List.mem_cons, List.mem_append] at hw
      rcases hw with rfl | hw | hw
      · exact .single hid
      · exact .head hid (descendant_of_children (ihc hw))
      · exact descendant_of_siblings (ihs hw)

/-- **The descendants of an element** are one block right behind it. -/
theorem exists_block {f : Forest κ} {p : Option κ} (hnd : f.preorder.Nodup)
    (hp : ∀ b, p = some b → b ∉ f.preorder) {u : κ} (hu : u ∈ f.preorder) :
    ∃ before block after, f.preorder = before ++ u :: (block ++ after) ∧
      ∀ w, w ∈ block ↔ f.Descendant p u w := by
  -- on the forest; `u` is its first tree's root, or in that tree, or in the trees beside it
  induction f generalizing p with
  | nil => simp [preorder] at hu
  | cons id children siblings ihc ihs =>
      obtain ⟨⟨hidc, hids⟩, hndc, hnds, hdisjoint⟩ := nodup_cons.mp hnd
      simp only [preorder, List.mem_cons, List.mem_append] at hu
      rcases hu with rfl | hu | hu
      · refine ⟨[], children.preorder, siblings.preorder, rfl,
          fun w => ⟨fun hw => ?_, fun hw => ?_⟩⟩
        · exact descendant_of_children (descendant_of_mem hw)
        · have hstay : ∀ a ∈ {a | a ∈ u :: children.preorder}, ∀ b,
              Child ((cons u children siblings).edges p) a b →
              Child (children.edges (some u)) a b ∧ b ∈ {a | a ∈ u :: children.preorder} := by
            intro a ha b hab
            have hin := child_inside hnd hp ha hab
            exact ⟨hin, List.mem_cons_of_mem _ hin.mem_preorder⟩
          -- a path from `u` stays among its children, which are no one else's
          obtain ⟨hpath, -⟩ := transGen_of_closed hstay (List.mem_cons_self ..) hw
          obtain ⟨c, -, hlast⟩ := Relation.TransGen.tail'_iff.mp hpath
          exact hlast.mem_preorder
      · obtain ⟨before, block, after, heq, hblock⟩ :=
          ihc hndc (fun b hb => Option.some.inj hb ▸ hidc) hu
        refine ⟨id :: before, block, after ++ siblings.preorder, by simp [preorder, heq],
          fun w => (hblock w).trans ⟨fun hw => ?_, fun hw => ?_⟩⟩
        · exact descendant_of_children hw
        · refine (transGen_of_closed (S := {a | a ∈ children.preorder}) ?_ hu hw).1
          intro a ha b hab
          have hin := child_inside hnd hp (List.mem_cons_of_mem _ ha) hab
          exact ⟨hin, hin.mem_preorder⟩
      · have hp' : ∀ b, p = some b → b ∉ siblings.preorder := fun b hb hmem =>
          hp b hb (List.mem_cons_of_mem _ (List.mem_append_right _ hmem))
        obtain ⟨before, block, after, heq, hblock⟩ := ihs hnds hp' hu
        refine ⟨id :: (children.preorder ++ before), block, after, by simp [preorder, heq],
          fun w => (hblock w).trans ⟨fun hw => ?_, fun hw => ?_⟩⟩
        · exact descendant_of_siblings hw
        · refine (transGen_of_closed (S := {a | a ∈ siblings.preorder}) ?_ hu hw).1
          intro a ha b hab
          have hin := child_beside hnd hp ha hab
          exact ⟨hin, hin.mem_preorder⟩

/-- An element has one parent. -/
lemma parent_unique {f : Forest κ} {p q q' : Option κ} (hnd : f.preorder.Nodup) {w : κ}
    (h : (w, q) ∈ f.edges p) (h' : (w, q') ∈ f.edges p) : q = q' := by
  induction f generalizing p with
  | nil => simp [edges] at h
  | cons id children siblings ihc ihs =>
      obtain ⟨⟨hidc, hids⟩, hndc, hnds, hdisjoint⟩ := nodup_cons.mp hnd
      have hmem : ∀ {g : Forest κ} {o r : Option κ}, (w, r) ∈ g.edges o → w ∈ g.preorder :=
        fun hr => mem_preorder_iff.mpr ⟨_, hr⟩
      simp only [edges, List.mem_cons, List.mem_append, Prod.mk.injEq] at h h'
      rcases h with ⟨rfl, rfl⟩ | h | h <;> rcases h' with ⟨hw, rfl⟩ | h' | h'
      · rfl
      · exact absurd (hmem h') hidc
      · exact absurd (hmem h') hids
      · exact absurd (hmem h) (hw ▸ hidc)
      · exact ihc hndc h h'
      · exact absurd (hmem h') (hdisjoint w (hmem h))
      · exact absurd (hmem h) (hw ▸ hids)
      · exact absurd (hmem h) (hdisjoint w (hmem h'))
      · exact ihs hnds h h'

/-! ## Siblings keep apart -/

section Siblings

variable [LinearOrder κ] {f : Forest κ} {u w : κ} {q : Option κ}

/-- An element is not less than what it is below. -/
lemma Growing.lt_of_descendant (hg : f.Growing) (h : f.Descendant none u w) : u < w := by
  have hedge : ∀ {a b}, Child (f.edges none) a b → a < b := fun hab =>
    hg.lt_of_edge (by simp) hab
  induction h with
  | single hstep => exact hedge hstep
  | tail _ hstep ih => exact ih.trans (hedge hstep)

/-- A sibling is not a descendant. -/
lemma Growing.not_descendant (hg : f.Growing) (hnd : f.preorder.Nodup)
    (hu : (u, q) ∈ f.edges none) (hw : (w, q) ∈ f.edges none) : ¬ f.Descendant none u w := by
  intro h
  obtain ⟨c, hpath, hlast⟩ := Relation.TransGen.tail'_iff.mp h
  obtain rfl := parent_unique hnd hw hlast
  have hcu : c < u := hg.lt_of_edge (by simp) hu
  rcases Relation.reflTransGen_iff_eq_or_transGen.mp hpath with heq | hdescendant
  · exact hcu.ne heq
  · exact lt_asymm hcu (hg.lt_of_descendant hdescendant)

/-- The element `a` and everything below it. -/
def Family (f : Forest κ) (a : κ) : Set κ := {v | v = a ∨ f.Descendant none a v}

omit [LinearOrder κ] in
/-- A list without repetitions is split at an element in one way. -/
lemma split_unique {l r l' r' : List κ} {a : κ} (hnd : (l ++ a :: r).Nodup)
    (h : l ++ a :: r = l' ++ a :: r') : l = l' ∧ r = r' := by
  obtain ⟨-, hcons, hdisjoint⟩ := List.nodup_append.mp hnd
  have hl : a ∉ l := fun hin => hdisjoint a hin a (List.mem_cons_self ..) rfl
  obtain ⟨hll, -, hrr⟩ :=
    (List.append_cons_inj_of_notMem hl (List.nodup_cons.mp hcons).1).mp h
  exact ⟨hll, hrr⟩

omit [LinearOrder κ] in
/-- The list can be cut in front of what follows a family. -/
lemma exists_cut_of_mem_after (hnd : f.preorder.Nodup) {before block after : List κ}
    (heq : f.preorder = before ++ u :: (block ++ after))
    (hblock : ∀ v, v ∈ block ↔ f.Descendant none u v) (hw : w ∈ after) :
    (∀ v ∈ f.Family u, v ∈ before ++ u :: block) ∧ ∀ v ∈ f.Family w, v ∈ after := by
  constructor
  · intro v hv
    rcases hv with hvu | hv
    · simp [hvu]
    · exact List.mem_append_right _ (List.mem_cons_of_mem _ ((hblock v).mpr hv))
  · have hmem : w ∈ f.preorder := by
      rw [heq]
      exact List.mem_append_right _ (List.mem_cons_of_mem _ (List.mem_append_right _ hw))
    obtain ⟨before', block', after', heq', hblock'⟩ := exists_block (p := none) hnd (by simp) hmem
    obtain ⟨front, back, rfl⟩ := List.append_of_mem hw
    have hsame : before' ++ w :: (block' ++ after') =
        (before ++ u :: (block ++ front)) ++ w :: back := by
      rw [← heq', heq]
      simp
    have hback := (split_unique (heq' ▸ hnd) hsame).2
    intro v hv
    rcases hv with hvw | hv
    · simp [hvw]
    · have hv' : v ∈ back := hback ▸ List.mem_append_left _ ((hblock' v).mpr hv)
      exact List.mem_append_right _ (List.mem_cons_of_mem _ hv')

/-- **Two siblings' families keep apart**: the list can be cut between them. -/
theorem exists_cut (hg : f.Growing) (hnd : f.preorder.Nodup) (hne : u ≠ w)
    (hu : (u, q) ∈ f.edges none) (hw : (w, q) ∈ f.edges none) :
    ∃ l r, f.preorder = l ++ r ∧
      ((∀ v ∈ f.Family u, v ∈ l) ∧ (∀ v ∈ f.Family w, v ∈ r) ∨
        (∀ v ∈ f.Family w, v ∈ l) ∧ ∀ v ∈ f.Family u, v ∈ r) := by
  have humem : u ∈ f.preorder := mem_preorder_iff.mpr ⟨q, hu⟩
  have hwmem : w ∈ f.preorder := mem_preorder_iff.mpr ⟨q, hw⟩
  obtain ⟨before, block, after, heq, hblock⟩ := exists_block (p := none) hnd (by simp) humem
  obtain ⟨before', block', after', heq', hblock'⟩ := exists_block (p := none) hnd (by simp) hwmem
  by_cases hafter : w ∈ after
  · obtain ⟨hl, hr⟩ := exists_cut_of_mem_after hnd heq hblock hafter
    exact ⟨before ++ u :: block, after, by simp [heq], Or.inl ⟨hl, hr⟩⟩
  · -- `w` is in front of `u`, so `u` is behind the family of `w`
    have hwbefore : w ∈ before := by
      rw [heq] at hwmem
      simp only [List.mem_append, List.mem_cons] at hwmem
      rcases hwmem with h | h | h | h
      · exact h
      · exact absurd h.symm hne
      · exact absurd ((hblock w).mp h) (hg.not_descendant hnd hu hw)
      · exact absurd h hafter
    have hubefore : u ∉ before := fun hin =>
      (List.nodup_append.mp (heq ▸ hnd)).2.2 u hin u (List.mem_cons_self ..) rfl
    have hubefore' : u ∉ before' := by
      obtain ⟨front, back, rfl⟩ := List.append_of_mem hwbefore
      have hsame : before' ++ w :: (block' ++ after') =
          front ++ w :: (back ++ u :: (block ++ after)) := by
        rw [← heq', heq]
        simp
      rw [(split_unique (heq' ▸ hnd) hsame).1]
      exact fun hin => hubefore (List.mem_append_left _ hin)
    have huafter : u ∈ after' := by
      rw [heq'] at humem
      simp only [List.mem_append, List.mem_cons] at humem
      rcases humem with h | h | h | h
      · exact absurd h hubefore'
      · exact absurd h hne
      · exact absurd ((hblock' u).mp h) (hg.not_descendant hnd hw hu)
      · exact h
    obtain ⟨hl, hr⟩ := exists_cut_of_mem_after hnd heq' hblock' huafter
    exact ⟨before' ++ w :: block', after', by simp [heq'], Or.inr ⟨hl, hr⟩⟩

end Siblings

end Forest

end SiblingForest
