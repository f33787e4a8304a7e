import Mathlib.Data.List.Induction

/-!
# Registers in which the last write wins

A sequence of operations some of which `write` a value, and a state with a place that can be read.
`lastWrite` is the value of the last operation that writes one.  Where every step of a run leaves
in the place what it writes there, and leaves the place alone when it writes nothing, the whole
run leaves the last value written (`read_foldl`).
-/

namespace LastWrite

variable {ω σ ν : Type*}

/-- One element of a list, which is the last one or has the last one behind it. -/
lemma concat_eq_append_cons {l pre post : List ω} {o p : ω} :
    l ++ [o] = pre ++ p :: post ↔
      post = [] ∧ l = pre ∧ o = p ∨ ∃ post', post = post' ++ [o] ∧ l = pre ++ p :: post' := by
  constructor
  · intro h
    rcases List.eq_nil_or_concat post with rfl | ⟨post', q, rfl⟩
    · obtain ⟨hl, ho⟩ := List.append_inj' h rfl
      exact Or.inl ⟨rfl, hl, List.singleton_inj.mp ho⟩
    · have h' : l ++ [o] = (pre ++ p :: post') ++ [q] := by
        rw [h]
        simp
      obtain ⟨hl, ho⟩ := List.append_inj' h' rfl
      exact Or.inr ⟨post', by rw [List.concat_eq_append, List.singleton_inj.mp ho], hl⟩
  · rintro (⟨rfl, rfl, rfl⟩ | ⟨post', rfl, rfl⟩)
    · rfl
    · simp

/-- What the last operation that writes anything writes. -/
def lastWrite (writes : ω → Option ν) (ops : List ω) : Option ν := ops.reverse.findSome? writes

variable {writes : ω → Option ν} {ops : List ω} {o : ω} {v : ν}

@[simp] lemma lastWrite_nil : lastWrite writes [] = none := rfl

@[simp] lemma lastWrite_concat :
    lastWrite writes (ops ++ [o]) = (writes o).or (lastWrite writes ops) := by
  simp only [lastWrite, List.reverse_append, List.reverse_singleton, List.singleton_append,
    List.findSome?_cons]
  cases writes o <;> rfl

lemma lastWrite_append {ops' : List ω} :
    lastWrite writes (ops ++ ops') = (lastWrite writes ops').or (lastWrite writes ops) := by
  simp [lastWrite, List.findSome?_append]

lemma lastWrite_cons : lastWrite writes (o :: ops) = (lastWrite writes ops).or (writes o) := by
  rw [← List.singleton_append, lastWrite_append]
  simp [lastWrite]

lemma lastWrite_eq_none : lastWrite writes ops = none ↔ ∀ o ∈ ops, writes o = none := by
  simp [lastWrite]

lemma lastWrite_eq_some :
    lastWrite writes ops = some v ↔
      ∃ pre o post, ops = pre ++ o :: post ∧ writes o = some v ∧ ∀ p ∈ post, writes p = none := by
  induction ops using List.reverseRecOn with
  | nil => simp
  | append_singleton ops o ih =>
      rw [lastWrite_concat]
      constructor
      · intro h
        cases ho : writes o with
        | some w =>
            obtain rfl : w = v := by simpa [ho] using h
            exact ⟨ops, o, [], rfl, ho, by simp⟩
        | none =>
            obtain ⟨pre, p, post, rfl, hp, hpost⟩ := ih.mp (by simpa [ho] using h)
            refine ⟨pre, p, post ++ [o], by simp, hp, fun q hq => ?_⟩
            rcases List.mem_append.mp hq with hq | hq
            · exact hpost q hq
            · rw [List.mem_singleton.mp hq, ho]
      · rintro ⟨pre, p, post, hsplit, hp, hpost⟩
        rcases concat_eq_append_cons.mp hsplit with ⟨-, -, rfl⟩ | ⟨post', rfl, hops⟩
        · simp [hp]
        · rw [hpost o (by simp), Option.none_or]
          exact ih.mpr ⟨pre, p, post', hops, hp, fun q hq => hpost q (by simp [hq])⟩

/-- **The last write wins.**  Step by step a run leaves in the place what the operation writes
there, or what was there. -/
theorem read_foldl {apply : σ → ω → σ} {read : σ → Option ν} {s : σ} (ops : List ω)
    (hstep : ∀ pre o post, ops = pre ++ o :: post →
      read (apply (pre.foldl apply s) o) = (writes o).or (read (pre.foldl apply s))) :
    read (ops.foldl apply s) = (lastWrite writes ops).or (read s) := by
  induction ops using List.reverseRecOn with
  | nil => rfl
  | append_singleton ops o ih =>
      have ih' := ih fun pre p post hsplit =>
        hstep pre p (post ++ [o]) (by rw [hsplit]; simp)
      rw [List.foldl_append, List.foldl_cons, List.foldl_nil, hstep ops o [] rfl, ih',
        lastWrite_concat, Option.or_assoc]

end LastWrite
