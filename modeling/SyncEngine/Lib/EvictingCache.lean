import Mathlib.Data.List.Basic
import Mathlib.Data.List.Nodup

/-!
# Caches that evict

What a program can rely on when it uses a bounded cache with a time to live: a read returns what
was last stored under the key, or nothing, and whatever the cache does, it may drop other entries
but never changes or adds one.  A program that is right for every `EvictingCache` does not depend
on when entries are dropped.

`Lru` is the cache that drops the least recently used entry for a new one, and an entry at the
first read after its time.
-/

/-- A cache with the keys `K`, the values `V` and the states `C`. -/
structure EvictingCache (K V C : Type*) where
  empty : C
  /-- Reads a key at a time. -/
  get : Nat → K → C → Option V × C
  /-- Stores a value at a time. -/
  set : Nat → K → V → C → C
  delete : K → C → C
  /-- The value held for a key, read or not. -/
  entry : K → C → Option V
  keys : C → List K
  max : Nat
  entry_empty (k : K) : entry k empty = none
  get_fst (now : Nat) (k : K) (c : C) : (get now k c).1 = entry k (get now k c).2
  get_entry (now : Nat) (k k' : K) (c : C) :
    entry k' (get now k c).2 = entry k' c ∨ entry k' (get now k c).2 = none
  set_self (now : Nat) (k : K) (v : V) (c : C) : entry k (set now k v c) = some v
  set_entry (now : Nat) (k k' : K) (v : V) (c : C) (h : k' ≠ k) :
    entry k' (set now k v c) = entry k' c ∨ entry k' (set now k v c) = none
  delete_self (k : K) (c : C) : entry k (delete k c) = none
  delete_entry (k k' : K) (c : C) :
    entry k' (delete k c) = entry k' c ∨ entry k' (delete k c) = none
  keys_nodup (c : C) : (keys c).Nodup
  mem_keys (k : K) (c : C) : k ∈ keys c ↔ (entry k c).isSome = true
  length_keys (c : C) : (keys c).length ≤ max

/-! ## Least recently used -/

/-- An entry, and when it was stored or last read. -/
structure LruEntry (K V : Type*) where
  key : K
  value : V
  start : Nat

/-- The entries, the most recently used one first. -/
structure Lru (K V : Type*) (max : Nat) where
  entries : List (LruEntry K V)
  nodup : (entries.map LruEntry.key).Nodup
  length_le : entries.length ≤ max

namespace Lru

variable {K V : Type*} [DecidableEq K] {max : Nat}

/-- The entries of the other keys. -/
def without (k : K) (l : List (LruEntry K V)) : List (LruEntry K V) := l.filter fun e => e.key ≠ k

lemma sublist_without (k : K) (l : List (LruEntry K V)) :
    ((without k l).map LruEntry.key).Sublist (l.map LruEntry.key) :=
  List.filter_sublist.map _

lemma key_notMem_without (k : K) (l : List (LruEntry K V)) :
    k ∉ (without k l).map LruEntry.key := by
  rintro hk
  obtain ⟨e, he, rfl⟩ := List.mem_map.mp hk
  simp [without] at he

lemma find_without {k k' : K} (h : k' ≠ k) (l : List (LruEntry K V)) :
    (without k l).find? (fun e => e.key = k') = l.find? fun e => e.key = k' := by
  rw [without, List.find?_filter]
  refine congrArg (List.find? · l) (funext fun e => ?_)
  by_cases hkey : e.key = k'
  · simp [hkey, h]
  · simp [hkey]

/-- What is found in the first entries is found in all of them. -/
lemma find_take {k : K} (l : List (LruEntry K V)) (n : Nat) :
    (l.take n).find? (fun e => e.key = k) = l.find? (fun e => e.key = k) ∨
      (l.take n).find? (fun e => e.key = k) = none := by
  conv => lhs; rhs; rw [← List.take_append_drop n l, List.find?_append]
  cases (l.take n).find? fun e => e.key = k with
  | none => exact .inr rfl
  | some e => exact .inl rfl

/-- What is kept under a key. -/
def entry (k : K) (c : Lru K V max) : Option V :=
  (c.entries.find? fun e => e.key = k).map LruEntry.value

/-- Drops the key. -/
def delete (k : K) (c : Lru K V max) : Lru K V max where
  entries := without k c.entries
  nodup := c.nodup.sublist (sublist_without k _)
  length_le := Nat.le_trans (List.length_filter_le _ _) c.length_le

/-- The key comes to the front, and the last entry goes if there are too many. -/
def set (now : Nat) (k : K) (v : V) (c : Lru K V max) : Lru K V max where
  entries := (⟨k, v, now⟩ :: without k c.entries).take max
  nodup := by
    refine List.Nodup.sublist ((List.take_sublist max _).map _) ?_
    exact List.nodup_cons.mpr
      ⟨key_notMem_without k _, c.nodup.sublist (sublist_without k _)⟩
  length_le := List.length_take_le max _

/-- An entry that is too old is dropped; another one comes to the front, and is new again. -/
def get (ttl now : Nat) (k : K) (c : Lru K V max) : Option V × Lru K V max :=
  match c.entries.find? fun e => e.key = k with
  | none => (none, c)
  | some e =>
      if ttl < now - e.start then (none, c.delete k) else (some e.value, c.set now k e.value)

lemma delete_self (k : K) (c : Lru K V max) : entry k (c.delete k) = none := by
  rw [entry, Option.map_eq_none_iff, List.find?_eq_none]
  intro e he hkey
  have hmem : e.key ∈ (without k c.entries).map LruEntry.key := List.mem_map_of_mem he
  rw [of_decide_eq_true hkey] at hmem
  exact key_notMem_without k c.entries hmem

lemma delete_of_ne {k k' : K} (h : k' ≠ k) (c : Lru K V max) :
    entry k' (c.delete k) = entry k' c := by
  rw [entry, delete, find_without h, entry]

lemma delete_entry (k k' : K) (c : Lru K V max) :
    entry k' (c.delete k) = entry k' c ∨ entry k' (c.delete k) = none := by
  by_cases h : k' = k
  · subst h
    exact .inr (delete_self k' c)
  · exact .inl (delete_of_ne h c)

lemma set_self (hmax : 0 < max) (now : Nat) (k : K) (v : V) (c : Lru K V max) :
    entry k (c.set now k v) = some v := by
  obtain ⟨n, rfl⟩ := Nat.exists_eq_succ_of_ne_zero (Nat.ne_of_gt hmax)
  simp [entry, set]

lemma set_entry (now : Nat) {k k' : K} (v : V) (c : Lru K V max) (h : k' ≠ k) :
    entry k' (c.set now k v) = entry k' c ∨ entry k' (c.set now k v) = none := by
  have hcons : (⟨k, v, now⟩ :: without k c.entries).find? (fun e => e.key = k') =
      c.entries.find? fun e => e.key = k' := by
    rw [List.find?_cons_of_neg (by simpa using h.symm), find_without h]
  rw [entry, entry, set, ← hcons]
  rcases find_take (⟨k, v, now⟩ :: without k c.entries) max with hfound | hnone
  · exact .inl (congrArg (Option.map LruEntry.value) hfound)
  · exact .inr (by rw [hnone]; rfl)

/-- **An LRU cache is an evicting cache.** -/
def cache (K V : Type*) [DecidableEq K] {max : Nat} (hmax : 0 < max) (ttl : Nat) :
    EvictingCache K V (Lru K V max) where
  empty := ⟨[], List.nodup_nil, Nat.zero_le max⟩
  get := get ttl
  set := set
  delete := delete
  entry := entry
  keys c := c.entries.map LruEntry.key
  max := max
  entry_empty _ := rfl
  get_fst now k c := by
    unfold get
    split
    · rename_i hnone
      rw [entry, hnone]
      rfl
    · split_ifs
      · exact (delete_self k c).symm
      · exact (set_self hmax now k _ c).symm
  get_entry now k k' c := by
    unfold get
    split
    · exact .inl rfl
    · rename_i e hfound
      split_ifs
      · exact delete_entry k k' c
      · by_cases h : k' = k
        · subst h
          left
          rw [set_self hmax, entry, hfound]
          rfl
        · exact set_entry now e.value c h
  set_self := set_self hmax
  set_entry now _ _ v c h := set_entry now v c h
  delete_self := delete_self
  delete_entry := delete_entry
  keys_nodup c := c.nodup
  mem_keys k c := by
    rw [entry, Option.isSome_map, List.find?_isSome, List.mem_map]
    simp
  length_keys c := by
    rw [List.length_map]
    exact c.length_le

end Lru
