import Mathlib.Data.List.Nodup

/-!
# Tables with a key

A table of a database as the list of its rows, each with a key, and the statements on it: `insert`
refuses a key that is there, `update` changes the row with a key, `upsert` is
`INSERT … ON CONFLICT DO UPDATE` and `delete` takes the row with a key away.

Each statement has one lemma on the rows afterwards, one on how many of them have a property that
it does not change, and one on the keys: they stay different (`Keyed`).  `Puts.foldl`
is on rows that are put one after the other, as in a map that is filled from a list.
-/

namespace KeyedTable

variable {ρ κ : Type*} [DecidableEq κ] (key : ρ → κ)

/-- No key occurs twice. -/
def Keyed (t : List ρ) : Prop := (t.map key).Nodup

/-- The row with a key. -/
def lookup (k : κ) (t : List ρ) : Option ρ := t.find? fun x => key x = k

/-- Some row has the key. -/
def hasKey (k : κ) (t : List ρ) : Bool := t.any fun x => key x = k

/-- INSERT, which fails on a key that is there. -/
def insert (x : ρ) (t : List ρ) : Option (List ρ) :=
  if hasKey key (key x) t then none else some (t ++ [x])

/-- UPDATE of the row with the key. -/
def update (k : κ) (f : ρ → ρ) (t : List ρ) : List ρ := t.map fun x => if key x = k then f x else x

/-- The row takes the place of the one with its key, or goes to the end. -/
def upsert (x : ρ) (t : List ρ) : List ρ :=
  if hasKey key (key x) t then update key (key x) (fun _ => x) t else t ++ [x]

/-- `INSERT … ON CONFLICT DO NOTHING`. -/
def insertNew (x : ρ) (t : List ρ) : List ρ := if hasKey key (key x) t then t else t ++ [x]

/-- DELETE of the row with the key. -/
def delete (k : κ) (t : List ρ) : List ρ := t.filter fun x => key x ≠ k

variable {key} {k : κ} {x y : ρ} {t t' : List ρ} {f : ρ → ρ} {p : ρ → Bool}

/-! ## Rows -/

lemma hasKey_iff : hasKey key k t = true ↔ ∃ x ∈ t, key x = k := by
  simp [hasKey]

lemma lookup_mem (h : lookup key k t = some x) : x ∈ t ∧ key x = k :=
  ⟨List.mem_of_find?_eq_some h, by simpa using List.find?_some h⟩

/-- Where keys are different the row with a key is found. -/
lemma lookup_of_mem (ht : Keyed key t) (hx : x ∈ t) : lookup key (key x) t = some x := by
  have hsome : (lookup key (key x) t).isSome = true := by
    rw [lookup, List.find?_isSome]
    exact ⟨x, hx, by simp⟩
  obtain ⟨y, hy⟩ := Option.isSome_iff_exists.mp hsome
  obtain ⟨hmem, hkey⟩ := lookup_mem hy
  rw [hy, List.inj_on_of_nodup_map ht hmem hx hkey]

lemma insert_eq_some (h : insert key x t = some t') :
    t' = t ++ [x] ∧ ∀ y ∈ t, key y ≠ key x := by
  unfold insert at h
  split at h
  · simp at h
  · rename_i hnew
    refine ⟨(Option.some.inj h).symm, fun y hy heq => hnew ?_⟩
    exact hasKey_iff.mpr ⟨y, hy, heq⟩

lemma mem_update :
    y ∈ update key k f t ↔ (y ∈ t ∧ key y ≠ k) ∨ ∃ z ∈ t, key z = k ∧ f z = y := by
  unfold update
  rw [List.mem_map]
  constructor
  · rintro ⟨z, hz, rfl⟩
    by_cases hk : key z = k
    · rw [if_pos hk]
      exact Or.inr ⟨z, hz, hk, rfl⟩
    · rw [if_neg hk]
      exact Or.inl ⟨hz, hk⟩
  · rintro (⟨hy, hk⟩ | ⟨z, hz, hk, rfl⟩)
    · exact ⟨y, hy, if_neg hk⟩
    · exact ⟨z, hz, if_pos hk⟩

lemma mem_upsert : y ∈ upsert key x t ↔ y = x ∨ y ∈ t ∧ key y ≠ key x := by
  unfold upsert
  split
  · rename_i hk
    rw [mem_update]
    obtain ⟨z, hz, hzk⟩ := hasKey_iff.mp hk
    constructor
    · rintro (h | ⟨z, -, -, rfl⟩)
      · exact Or.inr h
      · exact Or.inl rfl
    · rintro (rfl | h)
      · exact Or.inr ⟨z, hz, hzk, rfl⟩
      · exact Or.inl h
  · rename_i hk
    rw [List.mem_append, List.mem_singleton, or_comm]
    refine or_congr_right ⟨fun hy => ⟨hy, fun heq => hk ?_⟩, And.left⟩
    exact hasKey_iff.mpr ⟨y, hy, heq⟩

/-- Every key that is inserted is there. -/
lemma exists_insertNew {k : κ} :
    (∃ y ∈ insertNew key x t, key y = k) ↔ key x = k ∨ ∃ y ∈ t, key y = k := by
  unfold insertNew
  split
  · rename_i hk
    refine ⟨Or.inr, ?_⟩
    rintro (rfl | h)
    · exact hasKey_iff.mp hk
    · exact h
  · simp [or_comm]

lemma mem_or_of_mem_insertNew (h : y ∈ insertNew key x t) : y = x ∨ y ∈ t := by
  unfold insertNew at h
  split at h
  · exact Or.inr h
  · simpa [or_comm] using h

lemma mem_delete : y ∈ delete key k t ↔ y ∈ t ∧ key y ≠ k := by
  simp [delete]

/-! ## Counting -/

/-- An update that does not change what is counted. -/
lemma countP_update (hf : ∀ y ∈ t, key y = k → p (f y) = p y) :
    (update key k f t).countP p = t.countP p := by
  unfold update
  rw [List.countP_map]
  refine List.countP_congr fun y hy => ?_
  by_cases hk : key y = k
  · simp [hk, hf y hy hk]
  · simp [hk]

/-- What is counted is a matter of the key: an upsert adds to it where the key is new. -/
lemma countP_upsert (hp : ∀ y, key y = key x → p y = p x) :
    (upsert key x t).countP p =
      t.countP p + if hasKey key (key x) t then 0 else if p x then 1 else 0 := by
  unfold upsert
  split
  · exact countP_update fun y _ hk => (hp y hk).symm
  · rw [List.countP_append, List.countP_singleton]

lemma countP_delete_le : (delete key k t).countP p ≤ t.countP p :=
  List.filter_sublist.countP_le

/-! ## Keys -/

lemma Keyed.insert (h : Keyed key t) (hinsert : insert key x t = some t') : Keyed key t' := by
  obtain ⟨rfl, hnew⟩ := insert_eq_some hinsert
  unfold Keyed
  rw [List.map_append, List.map_singleton, ← List.concat_eq_append]
  refine List.Nodup.concat (fun hmem => ?_) h
  obtain ⟨y, hy, heq⟩ := List.mem_map.mp hmem
  exact hnew y hy heq

lemma Keyed.update (h : Keyed key t) (hf : ∀ y, key (f y) = key y) (k : κ) :
    Keyed key (update key k f t) := by
  have hkeys : (KeyedTable.update key k f t).map key = t.map key := by
    rw [KeyedTable.update, List.map_map]
    refine List.map_congr_left fun y _ => ?_
    show key (if key y = k then f y else y) = key y
    split
    · exact hf y
    · rfl
  unfold Keyed
  rw [hkeys]
  exact h

lemma Keyed.insertNew (h : Keyed key t) (x : ρ) : Keyed key (insertNew key x t) := by
  unfold KeyedTable.insertNew
  split
  · exact h
  · rename_i hk
    refine h.insert (x := x) ?_
    rw [KeyedTable.insert, if_neg hk]

lemma Keyed.upsert (h : Keyed key t) (x : ρ) : Keyed key (upsert key x t) := by
  unfold KeyedTable.upsert
  split
  · have hsame : KeyedTable.update key (key x) (fun _ => x) t =
        KeyedTable.update key (key x) (fun y => if key y = key x then x else y) t := by
      refine List.map_congr_left fun y _ => ?_
      by_cases hy : key y = key x
      · simp [hy]
      · simp [hy]
    rw [hsame]
    refine h.update (fun y => ?_) _
    split
    · rename_i hk
      exact hk.symm
    · rfl
  · rename_i hk
    refine h.insert (x := x) ?_
    rw [KeyedTable.insert, if_neg hk]

lemma Keyed.delete (h : Keyed key t) (k : κ) : Keyed key (delete key k t) :=
  (List.filter_sublist.map key).nodup h

/-! ## Rows one after the other -/

/-- A statement that puts a row under its key, or leaves the one that is there. -/
structure Puts (key : ρ → κ) (put : ρ → List ρ → List ρ) : Prop where
  keyed : ∀ {x t}, Keyed key t → Keyed key (put x t)
  mem : ∀ {x y t}, y ∈ put x t → y = x ∨ y ∈ t
  exists_key : ∀ {x t k}, (∃ y ∈ put x t, key y = k) ↔ key x = k ∨ ∃ y ∈ t, key y = k

lemma puts_upsert : Puts key (upsert key) where
  keyed h := h.upsert _
  mem h := (mem_upsert.mp h).imp_right And.left
  exists_key := by
    intro x t k
    constructor
    · rintro ⟨y, hy, rfl⟩
      rcases mem_upsert.mp hy with rfl | ⟨hy, -⟩
      · exact Or.inl rfl
      · exact Or.inr ⟨y, hy, rfl⟩
    · rintro (rfl | ⟨y, hy, rfl⟩)
      · exact ⟨x, mem_upsert.mpr (Or.inl rfl), rfl⟩
      · by_cases hk : key y = key x
        · exact ⟨x, mem_upsert.mpr (Or.inl rfl), hk.symm⟩
        · exact ⟨y, mem_upsert.mpr (Or.inr ⟨hy, hk⟩), rfl⟩

lemma puts_insertNew : Puts key (insertNew key) where
  keyed h := h.insertNew _
  mem := mem_or_of_mem_insertNew
  exists_key := exists_insertNew

omit [DecidableEq κ] in
/-- Rows that are put one after the other: keys stay different, and nothing is there that was not
put, and nothing that was put is without a row. -/
theorem Puts.foldl {put : ρ → List ρ → List ρ} (h : Puts key put) (l t : List ρ) :
    (Keyed key t → Keyed key (l.foldl (fun t x => put x t) t)) ∧
      (∀ y ∈ l.foldl (fun t x => put x t) t, y ∈ l ∨ y ∈ t) ∧
      ∀ k, (∃ y ∈ l.foldl (fun t x => put x t) t, key y = k) ↔
        (∃ y ∈ l, key y = k) ∨ ∃ y ∈ t, key y = k := by
  induction l generalizing t with
  | nil => simp
  | cons x l ih =>
      obtain ⟨hkeyed, hmem, hexists⟩ := ih (put x t)
      refine ⟨fun ht => hkeyed (h.keyed ht), fun y hy => ?_, fun k => ?_⟩
      · rcases hmem y hy with hy | hy
        · exact Or.inl (List.mem_cons_of_mem _ hy)
        · rcases h.mem hy with rfl | hy
          · exact Or.inl List.mem_cons_self
          · exact Or.inr hy
      · rw [List.foldl_cons, hexists k, h.exists_key]
        simp [or_assoc, or_left_comm]

end KeyedTable
