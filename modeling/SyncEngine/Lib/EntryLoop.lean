import Mathlib.Data.List.AList

/-!
# Loops over the entries of a map

A loop over the entries of one map that works on another one, where every turn touches the entry at
its own key only.  Since a key occurs once, the order of the entries does not matter: what the loop
makes of a key is said by `Local.lookup_foldl`, and what a loop with an early return decides by
`all_entries_iff`.
-/

namespace EntryLoop

/-- A map, with its entries in some order. -/
abbrev EntryMap (κ ν : Type*) := AList fun _ : κ => ν

variable {κ ν : Type*} [DecidableEq κ]
variable {step : EntryMap κ ν → κ → ν → EntryMap κ ν} {f : Option ν → ν → Option ν}

/-- A turn makes of the entry at its key what `f` says, and leaves the others. -/
structure Local (step : EntryMap κ ν → κ → ν → EntryMap κ ν) (f : Option ν → ν → Option ν) :
    Prop where
  self : ∀ m k v, (step m k v).lookup k = f (m.lookup k) v
  other : ∀ m k v k', k' ≠ k → (step m k v).lookup k' = m.lookup k'

/-- Turns at other keys leave an entry alone. -/
lemma Local.lookup_foldl_of_notMem (h : Local step f) {k : κ}
    {entries : List (Sigma fun _ : κ => ν)}
    (hk : k ∉ entries.keys) (m : EntryMap κ ν) :
    (entries.foldl (fun m e => step m e.1 e.2) m).lookup k = m.lookup k := by
  induction entries generalizing m with
  | nil => rfl
  | cons e entries ih =>
      rw [List.keys_cons, List.mem_cons, not_or] at hk
      rw [List.foldl_cons, ih hk.2, h.other m e.1 e.2 k hk.1]

/-- **What a loop makes of a key**: the turn at the key, if there is one. -/
theorem Local.lookup_foldl (h : Local step f) (m m' : EntryMap κ ν) (k : κ) :
    (m'.foldl step m).lookup k = (m'.lookup k).elim (m.lookup k) (f (m.lookup k)) := by
  obtain ⟨entries, hnodup⟩ := m'
  unfold AList.foldl
  simp only [AList.lookup]
  induction entries generalizing m with
  | nil => rfl
  | cons e entries ih =>
      obtain ⟨hhead, hrest⟩ := List.nodupKeys_cons.mp hnodup
      rw [List.foldl_cons]
      by_cases hk : k = e.1
      · subst hk
        have hlater := h.lookup_foldl_of_notMem hhead (step m e.1 e.2)
        rw [List.dlookup_cons_eq]
        exact hlater.trans (h.self m e.1 e.2)
      · rw [List.dlookup_cons_ne _ _ hk, ih _ hrest]
        have hother : List.dlookup k (step m e.1 e.2).entries = List.dlookup k m.entries :=
          h.other m e.1 e.2 k hk
        rw [hother]

/-- **What a loop with an early return decides**: whether all entries pass the test. -/
theorem all_entries_iff {m : EntryMap κ ν} {p : κ → ν → Bool} :
    m.entries.all (fun e => p e.1 e.2) = true ↔ ∀ k v, m.lookup k = some v → p k v = true := by
  rw [List.all_eq_true]
  constructor
  · intro h k v hk
    exact h ⟨k, v⟩ (AList.mem_lookup_iff.mp hk)
  · rintro h ⟨k, v⟩ hmem
    exact h k v (AList.mem_lookup_iff.mpr hmem)

end EntryLoop
