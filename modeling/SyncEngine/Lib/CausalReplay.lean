import Mathlib.Data.List.Dedup
import Mathlib.Data.List.Induction
import Mathlib.Data.List.Perm.Basic
import Mathlib.Data.Set.Basic

/-!
# Replaying operations in causal order

Operations act on a state; an operation `gives` some identifiers and `needs` others to be there
already.  A sequence is *causal* when, at its first occurrence, every operation finds each
identifier it needs given by an operation before it (`Causal`).  Nothing else is asked of the
order, and an operation may occur any number of times.

`Replayable` collects what an action must satisfy for the order to be immaterial: operations
that neither need nor give what the other gives commute, and an operation that has taken effect
(`settled`) stays in effect and is a no-op from then on.  The main result is `foldl_eq`: two
causal sequences of the same operations lead from one state to the same state, whatever their
order and their repetitions.  It is assembled from two facts of independent use:

* `foldl_eq_of_perm`: folds over two arrangements of one list agree as soon as in both of them
  no element comes before one it depends on;
* `Replayable.foldl_firsts`: repetitions of a causal sequence may be dropped.
-/

namespace CausalReplay

variable {σ ω ι : Type*}

/-! ## Folds over two arrangements -/

/-- An element that commutes with all elements in front of it can be moved to the head. -/
lemma foldl_append_cons_eq {apply : σ → ω → σ} {o : ω} :
    ∀ (α : List ω) (s : σ), (∀ p ∈ α, ∀ t, apply (apply t p) o = apply (apply t o) p) →
      α.foldl apply (apply s o) = apply (α.foldl apply s) o
  | [], _, _ => rfl
  | p :: α, s, h => by
      have hp : apply (apply s o) p = apply (apply s p) o := (h p (by simp) s).symm
      rw [List.foldl_cons, List.foldl_cons, hp]
      exact foldl_append_cons_eq α (apply s p) fun q hq => h q (List.mem_cons_of_mem _ hq)

/-- If `R o p` allows `o` to stand before `p`, and elements that may stand in either order
commute, then two arrangements that both respect `R` have the same fold. -/
theorem foldl_eq_of_perm {apply : σ → ω → σ} {R : ω → ω → Prop} :
    ∀ {l₁ l₂ : List ω}, l₁.Perm l₂ → l₁.Nodup → l₁.Pairwise R → l₂.Pairwise R →
      (∀ o ∈ l₁, ∀ p ∈ l₁, o ≠ p → R o p → R p o →
        ∀ s, apply (apply s o) p = apply (apply s p) o) →
      ∀ s, l₁.foldl apply s = l₂.foldl apply s
  | [], l₂, hperm, _, _, _, _, s => by rw [hperm.nil_eq]
  | o :: l₁, l₂, hperm, hnd, h₁, h₂, hcomm, s => by
      obtain ⟨α, β, rfl⟩ := List.append_of_mem (hperm.subset (List.mem_cons_self ..))
      have htail : l₁.Perm (α ++ β) :=
        (hperm.trans List.perm_middle).cons_inv
      obtain ⟨hfirst, h₁'⟩ := List.pairwise_cons.mp h₁
      obtain ⟨ho, hnd'⟩ := List.nodup_cons.mp hnd
      -- everything in front of `o` in the second arrangement commutes with `o`
      have hmove : ∀ p ∈ α, ∀ t, apply (apply t p) o = apply (apply t o) p := by
        intro p hp t
        have hpl : p ∈ l₁ := htail.symm.subset (List.mem_append_left _ hp)
        have hne : o ≠ p := fun h => ho (h ▸ hpl)
        have hpo : R p o := (List.pairwise_append.mp h₂).2.2 p hp o (List.mem_cons_self ..)
        exact (hcomm o (List.mem_cons_self ..) p (List.mem_cons_of_mem _ hpl) hne
          (hfirst p hpl) hpo t).symm
      have h₂' : (α ++ β).Pairwise R :=
        h₂.sublist ((List.sublist_cons_self o β).append_left α)
      have ih := foldl_eq_of_perm htail hnd' h₁' h₂'
        (fun q hq r hr => hcomm q (List.mem_cons_of_mem _ hq) r (List.mem_cons_of_mem _ hr))
        (apply s o)
      rw [List.foldl_cons, ih, List.foldl_append, List.foldl_append, List.foldl_cons,
        foldl_append_cons_eq α s hmove]

/-! ## Causal sequences -/

/-- At its first occurrence every operation finds the identifiers it needs given by an
operation before it. -/
def Causal (needs gives : ω → Set ι) (ops : List ω) : Prop :=
  ∀ pre o post, ops = pre ++ o :: post → o ∉ pre → ∀ d ∈ needs o, ∃ p ∈ pre, d ∈ gives p

/-- No identifier is given by two different operations of the list. -/
def UniqueGivers (gives : ω → Set ι) (ops : List ω) : Prop :=
  ∀ p ∈ ops, ∀ q ∈ ops, ∀ d, d ∈ gives p → d ∈ gives q → p = q

variable {needs gives : ω → Set ι}

lemma causal_nil : Causal needs gives [] := by
  intro pre o post h
  simp at h

lemma Causal.of_append {l m : List ω} (h : Causal needs gives (l ++ m)) :
    Causal needs gives l := by
  intro pre o post hl
  exact h pre o (post ++ m) (by rw [hl]; simp)

/-- An identifier needed by an operation of a causal sequence is given by one of them. -/
lemma Causal.given {l : List ω} (h : Causal needs gives l) {o : ω} (ho : o ∈ l) {d : ι}
    (hd : d ∈ needs o) : ∃ p ∈ l, d ∈ gives p := by
  obtain ⟨pre, post, hsplit, hfirst⟩ := List.eq_append_cons_of_mem ho
  obtain ⟨p, hp, hgives⟩ := h pre o post hsplit hfirst d hd
  exact ⟨p, hsplit ▸ List.mem_append_left _ hp, hgives⟩

lemma causal_concat {l : List ω} {o : ω} :
    Causal needs gives (l ++ [o]) ↔
      Causal needs gives l ∧ (o ∈ l ∨ ∀ d ∈ needs o, ∃ p ∈ l, d ∈ gives p) := by
  constructor
  · intro h
    refine ⟨h.of_append, ?_⟩
    by_cases ho : o ∈ l
    · exact Or.inl ho
    · exact Or.inr (h l o [] rfl ho)
  · rintro ⟨hl, hnew⟩ pre q post hsplit hq d hd
    rcases List.eq_nil_or_concat post with rfl | ⟨post', r, rfl⟩
    · obtain ⟨rfl, hqo⟩ := List.append_inj' hsplit rfl
      obtain rfl : o = q := by simpa using hqo
      rcases hnew with ho | hnew
      · exact absurd ho hq
      · exact hnew d hd
    · have hsplit' : l ++ [o] = (pre ++ q :: post') ++ [r] := by rw [hsplit]; simp
      obtain ⟨rfl, -⟩ := List.append_inj' hsplit' rfl
      exact hl pre q post' rfl hq d hd

/-- The last operation of a causal sequence finds what it needs, repeated or not. -/
lemma causal_concat_iff {l : List ω} {o : ω} :
    Causal needs gives (l ++ [o]) ↔
      Causal needs gives l ∧ ∀ d ∈ needs o, ∃ p ∈ l, d ∈ gives p := by
  rw [causal_concat]
  refine and_congr_right fun hl => ⟨fun h d hd => ?_, Or.inr⟩
  exact h.elim (fun ho => hl.given ho hd) fun hnew => hnew d hd

/-- Further operations in the middle of a causal sequence do no harm. -/
lemma Causal.insert {l l' m : List ω} (hl' : Causal needs gives (l ++ l'))
    (h : Causal needs gives (l ++ m)) : Causal needs gives (l ++ l' ++ m) := by
  induction m using List.reverseRecOn with
  | nil => rwa [List.append_nil]
  | append_singleton m o ih =>
      rw [← List.append_assoc] at h ⊢
      obtain ⟨hm, hneeds⟩ := causal_concat_iff.mp h
      refine causal_concat_iff.mpr ⟨ih hm, fun d hd => ?_⟩
      obtain ⟨p, hp, hgives⟩ := hneeds d hd
      rcases List.mem_append.mp hp with hp | hp
      · exact ⟨p, by simp [hp], hgives⟩
      · exact ⟨p, by simp [hp], hgives⟩

/-- What two causal sequences have in common is one. -/
lemma Causal.filter_mem [DecidableEq ω] {l m : List ω} (hl : Causal needs gives l)
    (hm : Causal needs gives m) (huniq : UniqueGivers gives (l ++ m)) :
    Causal needs gives (l.filter fun o => decide (o ∈ m)) := by
  induction l using List.reverseRecOn with
  | nil => exact causal_nil
  | append_singleton l o ih =>
      obtain ⟨hl, hneeds⟩ := causal_concat_iff.mp hl
      have ih' := ih hl fun p hp q hq => huniq p (by grind) q (by grind)
      rw [List.filter_append, List.filter_singleton]
      by_cases ho : o ∈ m
      · rw [decide_eq_true ho, cond_true]
        refine causal_concat_iff.mpr ⟨ih', fun d hd => ?_⟩
        obtain ⟨p, hp, hgives⟩ := hneeds d hd
        obtain ⟨q, hq, hgives'⟩ := hm.given ho hd
        obtain rfl := huniq p (by simp [hp]) q (by simp [hq]) d hgives hgives'
        exact ⟨p, List.mem_filter.mpr ⟨hp, decide_eq_true hq⟩, hgives⟩
      · simpa [ho] using ih'

/-- In a causal sequence without repetitions nothing stands before an operation it needs. -/
lemma Causal.pairwise {l : List ω} (h : Causal needs gives l) (hnd : l.Nodup)
    (huniq : UniqueGivers gives l) : l.Pairwise fun o p => ∀ d ∈ needs o, d ∉ gives p := by
  induction l using List.reverseRecOn with
  | nil => exact List.Pairwise.nil
  | append_singleton l p ih =>
      obtain ⟨hl, -⟩ := causal_concat.mp h
      have hp : p ∉ l := by
        rw [List.nodup_append] at hnd
        intro hmem
        exact hnd.2.2 p hmem p (by simp) rfl
      refine List.pairwise_append.mpr ⟨ih hl (List.nodup_append.mp hnd).1 ?_, by simp, ?_⟩
      · exact fun q hq r hr => huniq q (by simp [hq]) r (by simp [hr])
      · intro o ho q hq d hd hgives
        obtain rfl : q = p := by simpa using hq
        obtain ⟨r, hr, hgives'⟩ := hl.given ho hd
        exact hp (huniq r (by simp [hr]) q (by simp) d hgives' hgives ▸ hr)

/-- Causality, position by position. -/
lemma causal_iff_take {l : List ω} :
    Causal needs gives l ↔ ∀ i (h : i < l.length), l[i] ∈ l.take i ∨
      ∀ d ∈ needs l[i], ∃ p ∈ l.take i, d ∈ gives p := by
  constructor
  · intro hl i h
    by_cases ho : l[i] ∈ l.take i
    · exact Or.inl ho
    · refine Or.inr (hl (l.take i) l[i] (l.drop (i + 1)) ?_ ho)
      rw [← List.drop_eq_getElem_cons h, List.take_append_drop]
  · rintro hl pre o post rfl ho
    have hpos := hl pre.length (by simp)
    simp only [List.getElem_append_right (le_refl _), Nat.sub_self, List.getElem_cons_zero,
      List.take_left'] at hpos
    exact hpos.resolve_left ho

instance [DecidableEq ω] {l : List ω}
    [∀ (o : ω) (m : List ω), Decidable (∀ d ∈ needs o, ∃ p ∈ m, d ∈ gives p)] :
    Decidable (Causal needs gives l) :=
  decidable_of_iff _ causal_iff_take.symm

/-! ## First occurrences -/

section Firsts

variable [DecidableEq ω]

/-- The first occurrence of every element, in order. -/
def firsts (l : List ω) : List ω := l.reverse.dedup.reverse

lemma mem_firsts {l : List ω} {o : ω} : o ∈ firsts l ↔ o ∈ l := by
  simp [firsts]

lemma nodup_firsts (l : List ω) : (firsts l).Nodup :=
  List.nodup_reverse.mpr (List.nodup_dedup _)

lemma firsts_concat_of_mem {l : List ω} {o : ω} (h : o ∈ l) : firsts (l ++ [o]) = firsts l := by
  have h' : o ∈ l.reverse := List.mem_reverse.mpr h
  simp [firsts, List.dedup_cons_of_mem h']

lemma firsts_concat_of_notMem {l : List ω} {o : ω} (h : o ∉ l) :
    firsts (l ++ [o]) = firsts l ++ [o] := by
  have h' : o ∉ l.reverse := fun hm => h (List.mem_reverse.mp hm)
  simp [firsts, List.dedup_cons_of_notMem h']

lemma causal_firsts {l : List ω} (h : Causal needs gives l) : Causal needs gives (firsts l) := by
  induction l using List.reverseRecOn with
  | nil => exact causal_nil
  | append_singleton l o ih =>
      obtain ⟨hl, hnew⟩ := causal_concat.mp h
      by_cases ho : o ∈ l
      · rw [firsts_concat_of_mem ho]
        exact ih hl
      · rw [firsts_concat_of_notMem ho]
        refine causal_concat.mpr ⟨ih hl, Or.inr fun d hd => ?_⟩
        obtain ⟨p, hp, hgives⟩ := (hnew.resolve_left ho) d hd
        exact ⟨p, mem_firsts.mpr hp, hgives⟩

end Firsts

/-! ## Replayable actions -/

/-- What makes the order of a causal replay immaterial.  `settled s o` says that `o` has taken
effect in `s`, and `present s` are the identifiers there. -/
structure Replayable (apply : σ → ω → σ) (needs gives : ω → Set ι) (settled : σ → ω → Prop)
    (present : σ → Set ι) : Prop where
  /-- An operation that has taken effect is a no-op. -/
  apply_of_settled : ∀ {s o}, settled s o → apply s o = s
  /-- It stays in effect. -/
  settled_apply : ∀ {s o} p, settled s o → settled (apply s p) o
  /-- What it gives is there. -/
  gives_present : ∀ {s o}, settled s o → gives o ⊆ present s
  /-- An operation whose needs are met takes effect. -/
  settled_self : ∀ {s o}, needs o ⊆ present s → settled (apply s o) o
  /-- Operations that have nothing to do with each other commute. -/
  comm : ∀ {o p}, (∀ d ∈ needs o, d ∉ gives p) → (∀ d ∈ needs p, d ∉ gives o) →
    (∀ d ∈ gives o, d ∉ gives p) → ∀ s, apply (apply s o) p = apply (apply s p) o

namespace Replayable

variable {apply : σ → ω → σ} {settled : σ → ω → Prop} {present : σ → Set ι}

/-- After a causal replay every operation of it is in effect. -/
theorem settled_of_causal (h : Replayable apply needs gives settled present) (s : σ)
    {l : List ω} (hl : Causal needs gives l) : ∀ o ∈ l, settled (l.foldl apply s) o := by
  induction l using List.reverseRecOn with
  | nil => simp
  | append_singleton l p ih =>
      obtain ⟨hl', hnew⟩ := causal_concat.mp hl
      intro o ho
      rw [List.foldl_append, List.foldl_cons, List.foldl_nil]
      rcases List.mem_append.mp ho with hol | hop
      · exact h.settled_apply p (ih hl' o hol)
      · obtain rfl : o = p := by simpa using hop
        rcases hnew with hmem | hgiven
        · exact h.settled_apply o (ih hl' o hmem)
        · refine h.settled_self fun d hd => ?_
          obtain ⟨q, hq, hgives⟩ := hgiven d hd
          exact h.gives_present (ih hl' q hq) hgives

/-- Repetitions may be dropped from a causal replay. -/
theorem foldl_firsts [DecidableEq ω] (h : Replayable apply needs gives settled present) (s : σ)
    {l : List ω} (hl : Causal needs gives l) : (firsts l).foldl apply s = l.foldl apply s := by
  induction l using List.reverseRecOn with
  | nil => rfl
  | append_singleton l o ih =>
      obtain ⟨hl', -⟩ := causal_concat.mp hl
      by_cases ho : o ∈ l
      · rw [firsts_concat_of_mem ho, ih hl', List.foldl_append, List.foldl_cons, List.foldl_nil,
          h.apply_of_settled (h.settled_of_causal s hl' o ho)]
      · rw [firsts_concat_of_notMem ho, List.foldl_append, List.foldl_append, ih hl']

/-- **Causal replays of the same operations agree**, whatever their order and repetitions. -/
theorem foldl_eq (h : Replayable apply needs gives settled present) {l₁ l₂ : List ω}
    (h₁ : Causal needs gives l₁) (h₂ : Causal needs gives l₂) (hmem : ∀ o, o ∈ l₁ ↔ o ∈ l₂)
    (huniq : UniqueGivers gives l₁) (s : σ) : l₁.foldl apply s = l₂.foldl apply s := by
  classical
  have hu₁ : UniqueGivers gives (firsts l₁) :=
    fun p hp q hq => huniq p (mem_firsts.mp hp) q (mem_firsts.mp hq)
  have hu₂ : UniqueGivers gives (firsts l₂) :=
    fun p hp q hq => huniq p ((hmem p).mpr (mem_firsts.mp hp)) q
      ((hmem q).mpr (mem_firsts.mp hq))
  have hperm : (firsts l₁).Perm (firsts l₂) :=
    (List.perm_ext_iff_of_nodup (nodup_firsts l₁) (nodup_firsts l₂)).mpr fun o => by
      rw [mem_firsts, mem_firsts, hmem]
  have hfold : (firsts l₁).foldl apply s = (firsts l₂).foldl apply s :=
    foldl_eq_of_perm hperm (nodup_firsts l₁)
    ((causal_firsts h₁).pairwise (nodup_firsts l₁) hu₁)
    ((causal_firsts h₂).pairwise (nodup_firsts l₂) hu₂)
    (fun o ho p hp hne hop hpo t =>
      h.comm hop hpo (fun d hd hd' => hne (hu₁ o ho p hp d hd hd')) t) s
  rw [← h.foldl_firsts s h₁, hfold, h.foldl_firsts s h₂]

end Replayable

end CausalReplay
