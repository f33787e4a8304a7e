import SyncEngine.Lib.ReplicatedList

/-!
# Replicated lists that age

Edits bring cells in between those of a list and let cells die; they never move or revive one
(`ages_step`).  So the live identifiers that two states of a list have in common come in the same
order in both, and the position of one among the live ones changes by the number of those that
come and go in front of it (`Ages.idxOf_add_countP`).
-/

namespace ReplicatedList

variable {κ V : Type*}

/-- The identifiers that are not deleted. -/
def live (l : List (Cell κ V)) : List κ := ids (l.filter fun c => !c.dead)

/-- The list `l` has become the list `l'`. -/
structure Ages (l l' : List (Cell κ V)) : Prop where
  sublist : (ids l).Sublist (ids l')
  dead : ∀ c ∈ l, c.dead = true → ∀ c' ∈ l', c'.id = c.id → c'.dead = true

variable {l l' l'' : List (Cell κ V)} {u : κ}

lemma mem_live : u ∈ live l ↔ ∃ c ∈ l, c.id = u ∧ c.dead = false := by
  simp only [live, ids, List.mem_map, List.mem_filter, Bool.not_eq_true', and_assoc]
  exact exists_congr fun c => and_congr_right fun _ => and_comm

lemma sublist_live (l : List (Cell κ V)) : (live l).Sublist (ids l) := List.filter_sublist.map _

lemma ages_refl (h : (ids l).Nodup) : Ages l l where
  sublist := List.Sublist.refl _
  dead c hc hdead c' hc' hid := by
    obtain rfl : c' = c := List.inj_on_of_nodup_map h hc' hc hid
    exact hdead

lemma Ages.trans (h : Ages l l') (h' : Ages l' l'') : Ages l l'' where
  sublist := h.sublist.trans h'.sublist
  dead c hc hdead c'' hc'' hid := by
    obtain ⟨c', hc', hid'⟩ := List.mem_map.mp (h.sublist.subset (List.mem_map_of_mem hc))
    exact h'.dead c' hc' (h.dead c hc hdead c' hc' hid') c'' hc'' (hid.trans hid'.symm)

/-- What has died is not live again. -/
lemma Ages.notMem_live (h : Ages l l') (hmem : u ∈ ids l) (hu : u ∉ live l) : u ∉ live l' := by
  intro hlive
  obtain ⟨c, hc, rfl⟩ := List.mem_map.mp hmem
  obtain ⟨c', hc', hid, halive⟩ := mem_live.mp hlive
  have hdead : c.dead = true := by
    by_contra hdead
    exact hu (mem_live.mpr ⟨c, hc, rfl, by simpa using hdead⟩)
  rw [h.dead c hc hdead c' hc' hid] at halive
  simp at halive

/-- **An edit lets a list age.** -/
lemma ages_step [LinearOrder κ] (h : (ids l).Nodup) (e : Edit κ V) : Ages l (e.step l) := by
  cases e with
  | insert u a v =>
      rw [Edit.step]
      split
      · exact ages_refl h
      · rename_i hu
        have hsub := sublist_place a (⟨u, v, false⟩ : Cell κ V) l
        have hnodup : (ids (place a (⟨u, v, false⟩ : Cell κ V) l)).Nodup := by
          have hstep := nodup_ids_step h (.insert u a v)
          rwa [Edit.step, if_neg hu] at hstep
        refine ⟨hsub.map Cell.id, fun c hc hdead c' hc' hid => ?_⟩
        obtain rfl : c' = c := List.inj_on_of_nodup_map hnodup hc' (hsub.subset hc) hid
        exact hdead
  | delete u =>
      refine ⟨by rw [Edit.step, ids_map_kill], fun c hc hdead c' hc' hid => ?_⟩
      obtain ⟨c₀, hc₀, rfl⟩ := List.mem_map.mp hc'
      obtain rfl : c₀ = c := List.inj_on_of_nodup_map h hc₀ hc hid
      rw [Cell.kill_of_dead hdead]
      exact hdead

/-! ## Positions -/

section
variable [DecidableEq κ]

/-- The elements that two parts of a list have in common come in the same order in both. -/
lemma filter_mem_comm {part part' whole : List κ} (h : part.Sublist whole)
    (h' : part'.Sublist whole) (hnd : whole.Nodup) :
    part.filter (fun u => u ∈ part') = part'.filter (fun u => u ∈ part) := by
  refine (hnd.perm_iff_eq_of_sublist (List.filter_sublist.trans h)
    (List.filter_sublist.trans h')).mp ?_
  refine (List.perm_ext_iff_of_nodup ((h.nodup hnd).filter _) ((h'.nodup hnd).filter _)).mpr
    fun u => ?_
  simp only [List.mem_filter, decide_eq_true_eq, and_comm]

/-- The elements in front of one. -/
def before (u : κ) (part : List κ) : List κ := part.take (part.idxOf u)

lemma length_before (u : κ) (part : List κ) : (before u part).length = part.idxOf u := by
  rw [before, List.length_take, Nat.min_eq_left List.idxOf_le_length]

lemma exists_filter_eq {p : κ → Bool} {part : List κ} (hnd : part.Nodup) (hu : u ∈ part)
    (hp : p u = true) :
    ∃ rest, part.filter p = (before u part).filter p ++ u :: rest ∧ u ∉ before u part ∧
      u ∉ rest := by
  obtain ⟨pre, post, rfl, hpre⟩ := List.eq_append_cons_of_mem hu
  have hbefore : before u (pre ++ u :: post) = pre := by
    rw [before, List.idxOf_append, if_neg hpre, List.idxOf_cons_self, Nat.zero_add, List.take_left]
  have hpost : u ∉ post :=
    (List.nodup_cons.mp (hnd.sublist (List.sublist_append_right _ _))).1
  refine ⟨post.filter p, ?_, by rwa [hbefore], fun hmem => hpost (List.mem_of_mem_filter hmem)⟩
  rw [hbefore, List.filter_append, List.filter_cons_of_pos hp]

/-- **How a position changes**: by the elements that have come in front of it and those that have
gone. -/
theorem idxOf_add_countP {part part' whole : List κ} (h : part.Sublist whole)
    (h' : part'.Sublist whole) (hnd : whole.Nodup) (hu : u ∈ part) (hu' : u ∈ part') :
    part'.idxOf u + (before u part).countP (fun w => w ∉ part') =
      part.idxOf u + (before u part').countP (fun w => w ∉ part) := by
  obtain ⟨rest, hfilter, hfront, hrest⟩ :=
    exists_filter_eq (h.nodup hnd) hu (p := fun w => w ∈ part') (decide_eq_true hu')
  obtain ⟨rest', hfilter', hfront', hrest'⟩ :=
    exists_filter_eq (h'.nodup hnd) hu' (p := fun w => w ∈ part) (decide_eq_true hu)
  -- what stays in front of it is the same
  have hcommon := filter_mem_comm h h' hnd
  rw [hfilter, hfilter'] at hcommon
  have hstay := congrArg List.length ((List.append_cons_inj_of_notMem
    (fun hmem => hfront (List.mem_of_mem_filter hmem)) hrest).mp hcommon).1
  rw [← List.countP_eq_length_filter, ← List.countP_eq_length_filter] at hstay
  have hlength := List.length_eq_countP_add_countP (fun w => w ∈ part') (l := before u part)
  have hlength' := List.length_eq_countP_add_countP (fun w => w ∈ part) (l := before u part')
  rw [length_before] at hlength hlength'
  simp only [decide_eq_true_eq] at hlength hlength'
  omega

end

/-- The same for the live identifiers of a list that ages. -/
lemma Ages.idxOf_add_countP [DecidableEq κ] (h : Ages l l') (hnd : (ids l').Nodup)
    (hu : u ∈ live l) (hu' : u ∈ live l') :
    (live l').idxOf u + (before u (live l)).countP (fun w => w ∉ live l') =
      (live l).idxOf u + (before u (live l')).countP (fun w => w ∉ live l) :=
  ReplicatedList.idxOf_add_countP ((sublist_live l).trans h.sublist) (sublist_live l') hnd hu hu'

end ReplicatedList
