import SyncEngine.Lib.CausalReplay
import SyncEngine.Lib.SkipInsert

/-!
# The replicated list

What a replicated growable array is for, over any linearly ordered identifiers `κ` and any
values `V`: a list of cells, each with an identifier, a value and a flag that says whether it
has been deleted.  An insertion places a fresh cell behind its anchor, skipping cells with
greater identifiers; a deletion only sets the flag.

An edit *needs* its anchor or its target to be there and *gives* the identifier it inserts.
With that reading edits are replayable in the sense of `CausalReplay` (`replayable`), and the
convergence theorem `replay_eq` follows: two replicas that received the same edits in any
causal order, any number of times each, hold the same list.
-/

namespace ReplicatedList

open CausalReplay SkipInsert

variable {κ V : Type*}

/-- One element of the list; a deleted element stays in the list with `dead` set. -/
@[ext]
structure Cell (κ V : Type*) where
  id : κ
  value : V
  dead : Bool
deriving DecidableEq, Repr

/-- An edit of the list; `after = none` inserts at the head. -/
inductive Edit (κ V : Type*) where
  | insert (id : κ) (after : Option κ) (value : V)
  | delete (id : κ)
deriving DecidableEq, Repr

/-- The identifiers of the list, deleted cells included. -/
def ids (l : List (Cell κ V)) : List κ := l.map Cell.id

/-- The values shown to the user. -/
def visible (l : List (Cell κ V)) : List V := (l.filter fun c => !c.dead).map Cell.value

namespace Edit

/-- The identifiers an edit relies on. -/
def needs : Edit κ V → Set κ
  | .insert _ after _ => {a | after = some a}
  | .delete u => {u}

/-- The identifier an edit brings in. -/
def gives : Edit κ V → Set κ
  | .insert u _ _ => {u}
  | .delete _ => ∅

@[simp] lemma mem_needs_insert {u d : κ} {a : Option κ} {v : V} :
    d ∈ needs (.insert u a v : Edit κ V) ↔ a = some d := Iff.rfl

@[simp] lemma mem_needs_delete {u d : κ} : d ∈ needs (.delete u : Edit κ V) ↔ d = u := Iff.rfl

@[simp] lemma mem_gives_insert {u d : κ} {a : Option κ} {v : V} :
    d ∈ gives (.insert u a v : Edit κ V) ↔ d = u := Iff.rfl

@[simp] lemma notMem_gives_delete {u d : κ} : d ∉ gives (.delete u : Edit κ V) := id

end Edit

@[simp] lemma ids_nil : ids ([] : List (Cell κ V)) = [] := rfl

@[simp] lemma ids_cons (c : Cell κ V) (l : List (Cell κ V)) : ids (c :: l) = c.id :: ids l := rfl

variable [LinearOrder κ]

/-- Mark the cell as deleted if its identifier is `u`. -/
def Cell.kill (u : κ) (c : Cell κ V) : Cell κ V := { c with dead := c.dead || decide (c.id = u) }

@[simp] lemma Cell.kill_id (u : κ) (c : Cell κ V) : (c.kill u).id = c.id := rfl

@[simp] lemma Cell.kill_value (u : κ) (c : Cell κ V) : (c.kill u).value = c.value := rfl

@[simp] lemma Cell.kill_dead (u : κ) (c : Cell κ V) :
    (c.kill u).dead = (c.dead || decide (c.id = u)) := rfl

lemma Cell.kill_of_ne {u : κ} {c : Cell κ V} (h : c.id ≠ u) : c.kill u = c := by
  simp [Cell.kill, h]

lemma Cell.kill_of_dead {u : κ} {c : Cell κ V} (h : c.dead = true) : c.kill u = c := by
  cases c
  simp_all [Cell.kill]

lemma Cell.kill_comm (u w : κ) (c : Cell κ V) : (c.kill u).kill w = (c.kill w).kill u := by
  ext
  · rfl
  · rfl
  · exact Bool.or_right_comm _ _ _

/-- Put a new cell behind the anchor, or at the head, skipping greater identifiers. -/
def place (after : Option κ) (x : Cell κ V) (l : List (Cell κ V)) : List (Cell κ V) :=
  match after with
  | none => skipGreater Cell.id x l
  | some a => insertAfter Cell.id a x l

/-- The effect of an edit.  An identifier that is already there is not inserted again, and an
insertion whose anchor is missing has no effect. -/
def Edit.step (l : List (Cell κ V)) : Edit κ V → List (Cell κ V)
  | .insert u a v => if u ∈ ids l then l else place a ⟨u, v, false⟩ l
  | .delete u => l.map (Cell.kill u)

/-- The list a sequence of edits builds. -/
def replay (es : List (Edit κ V)) : List (Cell κ V) := es.foldl Edit.step []

/-- The edit has taken effect. -/
def Settled (l : List (Cell κ V)) : Edit κ V → Prop
  | .insert u _ _ => u ∈ ids l
  | .delete u => u ∈ ids l ∧ ∀ c ∈ l, c.id = u → c.dead = true

instance (l : List (Cell κ V)) (e : Edit κ V) : Decidable (Settled l e) := by
  cases e <;> (unfold Settled; infer_instance)

omit [LinearOrder κ] in
/-- Without repeated identifiers, one dead cell shows that its deletion has taken effect. -/
lemma settled_delete_of_dead {l : List (Cell κ V)} (hnd : (ids l).Nodup) {c : Cell κ V}
    (hc : c ∈ l) (hdead : c.dead = true) : Settled l (.delete c.id) := by
  refine ⟨List.mem_map_of_mem hc, fun b hb hbc => ?_⟩
  obtain rfl : b = c := List.inj_on_of_nodup_map hnd hb hc hbc
  exact hdead

/-! ## Identifiers -/

@[simp] lemma ids_map_kill (u : κ) (l : List (Cell κ V)) : ids (l.map (Cell.kill u)) = ids l := by
  simp [ids, Function.comp_def]

/-- A placement either leaves the list alone, its anchor being absent, or adds the new cell. -/
lemma place_cases (a : Option κ) (x : Cell κ V) (l : List (Cell κ V)) :
    (∃ b, a = some b ∧ b ∉ ids l ∧ place a x l = l) ∨
      ((∀ b, a = some b → b ∈ ids l) ∧ (place a x l).Perm (x :: l)) := by
  cases a with
  | none => exact Or.inr ⟨by simp, skipGreater_perm x l⟩
  | some b =>
      by_cases hb : b ∈ ids l
      · exact Or.inr ⟨by simpa using hb, insertAfter_perm hb x⟩
      · exact Or.inl ⟨b, rfl, hb, insertAfter_of_notMem hb x⟩

lemma place_perm {a : Option κ} {l : List (Cell κ V)} (h : ∀ b, a = some b → b ∈ ids l)
    (x : Cell κ V) : (place a x l).Perm (x :: l) := by
  rcases place_cases a x l with ⟨b, hb, hmem, -⟩ | ⟨-, hperm⟩
  · exact absurd (h b hb) hmem
  · exact hperm

lemma mem_ids_place_of_ne {a : Option κ} {x : Cell κ V} {l : List (Cell κ V)} {w : κ}
    (hw : w ≠ x.id) : w ∈ ids (place a x l) ↔ w ∈ ids l := by
  rcases place_cases a x l with ⟨-, -, -, heq⟩ | ⟨-, hperm⟩
  · rw [heq]
  · rw [ids, (hperm.map Cell.id).mem_iff]
    simp [ids, hw]

lemma sublist_place (a : Option κ) (x : Cell κ V) (l : List (Cell κ V)) :
    l.Sublist (place a x l) := by
  cases a with
  | none => exact sublist_skipGreater x l
  | some b => exact sublist_insertAfter b x l

lemma filter_place_of_neg {p : Cell κ V → Bool} {x : Cell κ V} (hx : p x = false) (a : Option κ)
    (l : List (Cell κ V)) : (place a x l).filter p = l.filter p := by
  cases a with
  | none => exact filter_skipGreater_of_neg hx l
  | some b => exact filter_insertAfter_of_neg hx b l

/-- Identifiers are never lost. -/
lemma ids_subset_step (l : List (Cell κ V)) (e : Edit κ V) : ids l ⊆ ids (e.step l) := by
  cases e with
  | insert u a v =>
      rw [Edit.step]
      split
      · exact List.Subset.refl _
      · exact ((sublist_place a _ l).map Cell.id).subset
  | delete u =>
      rw [Edit.step, ids_map_kill]
      exact List.Subset.refl _

/-- The identifiers after an edit are the ones before it and the one it gives. -/
lemma mem_ids_step {l : List (Cell κ V)} {e : Edit κ V} {w : κ} (hw : w ∈ ids (e.step l)) :
    w ∈ ids l ∨ w ∈ e.gives := by
  cases e with
  | insert u a v =>
      rw [Edit.step] at hw
      split at hw
      · exact Or.inl hw
      · by_cases h : w = u
        · exact Or.inr h
        · exact Or.inl ((mem_ids_place_of_ne h).mp hw)
  | delete u =>
      rw [Edit.step, ids_map_kill] at hw
      exact Or.inl hw

lemma nodup_ids_step {l : List (Cell κ V)} (h : (ids l).Nodup) (e : Edit κ V) :
    (ids (e.step l)).Nodup := by
  cases e with
  | insert u a v =>
      rw [Edit.step]
      split
      · exact h
      · rename_i hu
        rcases place_cases a ⟨u, v, false⟩ l with ⟨-, -, -, heq⟩ | ⟨-, hperm⟩
        · rw [heq]
          exact h
        · exact (hperm.map Cell.id).nodup_iff.mpr (List.nodup_cons.mpr ⟨hu, h⟩)
  | delete u =>
      rw [Edit.step, ids_map_kill]
      exact h

/-- A deletion takes exactly one live cell away when its target is live. -/
lemma countP_live_kill {l : List (Cell κ V)} (hnd : (ids l).Nodup) {c : Cell κ V} (hc : c ∈ l)
    (hlive : c.dead = false) :
    (l.map (Cell.kill c.id)).countP (fun c => !c.dead) + 1 = l.countP fun c => !c.dead := by
  induction l with
  | nil => simp at hc
  | cons b l ih =>
      rw [ids_cons, List.nodup_cons] at hnd
      rcases List.mem_cons.mp hc with rfl | hc
      · have hkill : ∀ b ∈ l, b.kill c.id = b := fun b hb =>
          Cell.kill_of_ne fun h => hnd.1 (h ▸ List.mem_map_of_mem hb)
        simp [List.map_congr_left hkill, hlive]
      · have hne : b.id ≠ c.id := fun h => hnd.1 (h ▸ List.mem_map_of_mem hc)
        rw [List.map_cons, Cell.kill_of_ne hne, List.countP_cons, List.countP_cons,
          ← ih hnd.2 hc]
        omega

/-! ## Visible positions -/

section Visible

omit [LinearOrder κ]

@[simp] lemma visible_append (l l' : List (Cell κ V)) :
    visible (l ++ l') = visible l ++ visible l' := by simp [visible]

lemma visible_cons_of_live {c : Cell κ V} (h : c.dead = false) (l : List (Cell κ V)) :
    visible (c :: l) = c.value :: visible l := by simp [visible, h]

lemma visible_cons_of_dead {c : Cell κ V} (h : c.dead = true) (l : List (Cell κ V)) :
    visible (c :: l) = visible l := by simp [visible, h]

lemma length_visible (l : List (Cell κ V)) :
    (visible l).length = l.countP fun c => !c.dead := by
  rw [visible, List.length_map, List.countP_eq_length_filter]

/-- An insertion at the end of the first of two lists. -/
lemma insertIdx_length_append {α : Type*} (l r : List α) (x : α) :
    (l ++ r).insertIdx l.length x = l ++ x :: r := by
  induction l with
  | nil => simp
  | cons a l ih => simpa using ih

lemma eraseIdx_length_append {α : Type*} (l r : List α) (x : α) :
    (l ++ x :: r).eraseIdx l.length = l ++ r := by
  rw [List.eraseIdx_append_of_length_le (Nat.le_refl _), Nat.sub_self]
  rfl

end Visible

/-- A greatest cell placed at the head is shown first. -/
lemma visible_place_none {x : Cell κ V} {l : List (Cell κ V)} (hx : ∀ c ∈ l, c.id ≤ x.id)
    (hlive : x.dead = false) : visible (place none x l) = (visible l).insertIdx 0 x.value := by
  rw [place, skipGreater_of_forall_le hx, visible_cons_of_live hlive]
  rfl

/-- A greatest cell placed behind another one is shown behind what is shown up to that one. -/
lemma visible_place_some {pre post : List (Cell κ V)} {c x : Cell κ V} (hpre : c.id ∉ ids pre)
    (hx : ∀ b ∈ post, b.id ≤ x.id) (hlive : x.dead = false) :
    visible (place (some c.id) x (pre ++ c :: post)) =
      (visible (pre ++ c :: post)).insertIdx (visible (pre ++ [c])).length x.value := by
  have hsplit : ∀ l, pre ++ c :: l = (pre ++ [c]) ++ l := by simp
  rw [place, insertAfter_append_cons hpre hx, hsplit (x :: post), hsplit post,
    visible_append (pre ++ [c]) (x :: post), visible_append (pre ++ [c]) post,
    visible_cons_of_live hlive, insertIdx_length_append]

/-- Where identifiers are not repeated, one cell is killed and no other. -/
lemma map_kill_append_cons {pre post : List (Cell κ V)} {c : Cell κ V}
    (hnd : (ids (pre ++ c :: post)).Nodup) :
    (pre ++ c :: post).map (Cell.kill c.id) = pre ++ { c with dead := true } :: post := by
  have hsplit : (ids pre ++ c.id :: ids post).Nodup := by simpa [ids] using hnd
  obtain ⟨-, hcons, hdisjoint⟩ := List.nodup_append.mp hsplit
  have hkill : ∀ l : List (Cell κ V), c.id ∉ ids l → l.map (Cell.kill c.id) = l := by
    intro l hl
    have hsame : ∀ b ∈ l, b.kill c.id = b := fun b hb =>
      Cell.kill_of_ne fun h => hl (h ▸ List.mem_map_of_mem hb)
    rw [List.map_congr_left hsame, List.map_id']
  have hpre : c.id ∉ ids pre := fun h => hdisjoint _ h _ (List.mem_cons_self ..) rfl
  have hpost : c.id ∉ ids post := (List.nodup_cons.mp hcons).1
  have hself : c.kill c.id = { c with dead := true } := by simp [Cell.kill]
  rw [List.map_append, List.map_cons, hkill pre hpre, hkill post hpost, hself]

/-- Killing a live cell takes its value away and no other. -/
lemma visible_map_kill {pre post : List (Cell κ V)} {c : Cell κ V}
    (hnd : (ids (pre ++ c :: post)).Nodup) (hlive : c.dead = false) :
    visible ((pre ++ c :: post).map (Cell.kill c.id)) =
      (visible (pre ++ c :: post)).eraseIdx (visible pre).length := by
  rw [map_kill_append_cons hnd, visible_append, visible_append, visible_cons_of_dead rfl,
    visible_cons_of_live hlive, eraseIdx_length_append]

/-! ## Edits commute -/

lemma map_kill_place (u : κ) (a : Option κ) {x : Cell κ V} (hx : x.id ≠ u)
    (l : List (Cell κ V)) :
    (place a x l).map (Cell.kill u) = place a x (l.map (Cell.kill u)) := by
  have hkx : x.kill u = x := Cell.kill_of_ne hx
  cases a with
  | none =>
      have h : (skipGreater Cell.id x l).map (Cell.kill u) =
          skipGreater Cell.id (x.kill u) (l.map (Cell.kill u)) :=
        map_skipGreater (Cell.kill_id u) x l
      rwa [hkx] at h
  | some b =>
      have h : (insertAfter Cell.id b x l).map (Cell.kill u) =
          insertAfter Cell.id b (x.kill u) (l.map (Cell.kill u)) :=
        map_insertAfter (Cell.kill_id u) b x l
      rwa [hkx] at h

lemma place_comm {a b : Option κ} {x y : Cell κ V} (hxy : x.id ≠ y.id) (ha : a ≠ some y.id)
    (hb : b ≠ some x.id) (l : List (Cell κ V)) :
    place a x (place b y l) = place b y (place a x l) := by
  have hne : ∀ {c : Option κ} {d e : κ}, c ≠ some e → c = some d → e ≠ d :=
    fun h h' he => h (he ▸ h')
  cases a with
  | none =>
      cases b with
      | none => exact skipGreater_comm hxy l
      | some b => exact (insertAfter_skipGreater_comm hxy (hne hb rfl) l).symm
  | some a =>
      cases b with
      | none => exact insertAfter_skipGreater_comm hxy.symm (hne ha rfl) l
      | some b => exact insertAfter_comm hxy (hne ha rfl) (hne hb rfl) l

/-- An insertion and a deletion of another cell commute. -/
lemma step_insert_delete_comm {u w : κ} (h : u ≠ w) (a : Option κ) (v : V)
    (l : List (Cell κ V)) :
    Edit.step (Edit.step l (.insert u a v)) (.delete w) =
      Edit.step (Edit.step l (.delete w)) (.insert u a v) := by
  simp only [Edit.step, ids_map_kill]
  split
  · rfl
  · exact map_kill_place w a h l

/-- **Edits that do not rely on each other commute**, on every list. -/
theorem step_comm {o p : Edit κ V} (hop : ∀ d ∈ o.needs, d ∉ p.gives)
    (hpo : ∀ d ∈ p.needs, d ∉ o.gives) (hne : ∀ d ∈ o.gives, d ∉ p.gives)
    (l : List (Cell κ V)) :
    Edit.step (Edit.step l o) p = Edit.step (Edit.step l p) o := by
  cases o with
  | insert u a v =>
      cases p with
      | insert w b v' =>
          have huw : u ≠ w := by simpa using hne
          have ha : a ≠ some w := fun h => hop w h rfl
          have hb : b ≠ some u := fun h => hpo u h rfl
          by_cases hu : u ∈ ids l <;> by_cases hw : w ∈ ids l
          · simp [Edit.step, hu, hw]
          · have hu' : u ∈ ids (place b ⟨w, v', false⟩ l) := (mem_ids_place_of_ne huw).mpr hu
            simp [Edit.step, hu, hw, hu']
          · have hw' : w ∈ ids (place a ⟨u, v, false⟩ l) := (mem_ids_place_of_ne huw.symm).mpr hw
            simp [Edit.step, hu, hw, hw']
          · have hu' : u ∉ ids (place b ⟨w, v', false⟩ l) :=
              fun h => hu ((mem_ids_place_of_ne huw).mp h)
            have hw' : w ∉ ids (place a ⟨u, v, false⟩ l) :=
              fun h => hw ((mem_ids_place_of_ne huw.symm).mp h)
            simp only [Edit.step, hu, hw, hu', hw', if_false]
            exact (place_comm huw ha hb l).symm
      | delete w =>
          have huw : w ≠ u := by simpa using hpo
          exact step_insert_delete_comm huw.symm a v l
  | delete u =>
      cases p with
      | insert w b v' =>
          have huw : u ≠ w := by simpa using hop
          exact (step_insert_delete_comm huw.symm b v' l).symm
      | delete w =>
          simp only [Edit.step, List.map_map]
          exact List.map_congr_left fun c _ => Cell.kill_comm u w c

/-! ## Convergence -/

lemma settled_step {l : List (Cell κ V)} {e : Edit κ V} (p : Edit κ V) (h : Settled l e) :
    Settled (p.step l) e := by
  cases e with
  | insert u a v => exact ids_subset_step l p h
  | delete u =>
      refine ⟨ids_subset_step l p h.1, ?_⟩
      cases p with
      | insert w b v' =>
          rw [Edit.step]
          split
          · exact h.2
          · rename_i hw
            intro c hc hcu
            rcases place_cases b ⟨w, v', false⟩ l with ⟨-, -, -, heq⟩ | ⟨-, hperm⟩
            · exact h.2 c (heq ▸ hc) hcu
            · rcases List.mem_cons.mp (hperm.subset hc) with rfl | hcl
              · -- the new cell carries another identifier
                have hwu : w = u := hcu
                exact absurd h.1 (hwu ▸ hw)
              · exact h.2 c hcl hcu
      | delete w =>
          intro c hc hcu
          obtain ⟨c', hc', rfl⟩ := List.mem_map.mp hc
          have hdead : c'.dead = true := h.2 c' hc' (by simpa using hcu)
          simp [hdead]

/-- An edit whose needs are met takes effect. -/
lemma settled_self {l : List (Cell κ V)} {e : Edit κ V} (h : ∀ d ∈ e.needs, d ∈ ids l) :
    Settled (e.step l) e := by
  cases e with
  | insert u a v =>
      rw [Settled, Edit.step]
      split
      · assumption
      · have hperm := place_perm (x := ⟨u, v, false⟩) (l := l) (a := a) fun b hb => h b hb
        exact ((hperm.map Cell.id).mem_iff).mpr (by simp)
  | delete u =>
      refine ⟨ids_subset_step l _ (h u rfl), fun c hc hcu => ?_⟩
      obtain ⟨c', -, rfl⟩ := List.mem_map.mp hc
      have hid : c'.id = u := by simpa using hcu
      simp [hid]

/-- An edit that has taken effect is a no-op. -/
lemma step_of_settled {l : List (Cell κ V)} {e : Edit κ V} (h : Settled l e) : e.step l = l := by
  cases e with
  | insert u a v => exact if_pos h
  | delete u =>
      have hkill : ∀ c ∈ l, c.kill u = c := by
        intro c hc
        by_cases hcu : c.id = u
        · exact Cell.kill_of_dead (h.2 c hc hcu)
        · exact Cell.kill_of_ne hcu
      rw [Edit.step, List.map_congr_left hkill, List.map_id']

omit [LinearOrder κ] in
lemma settled_gives {l : List (Cell κ V)} {e : Edit κ V} (h : Settled l e) :
    e.gives ⊆ {u | u ∈ ids l} := by
  cases e with
  | insert u a v =>
      rintro d rfl
      exact h
  | delete u => exact fun d hd => absurd hd Edit.notMem_gives_delete

/-- Edits of a replicated list are replayable. -/
theorem replayable : Replayable (Edit.step (κ := κ) (V := V)) Edit.needs Edit.gives Settled
    (fun l => {u | u ∈ ids l}) where
  apply_of_settled := step_of_settled
  settled_apply := settled_step
  gives_present := settled_gives
  settled_self := settled_self
  comm := step_comm

/-! ## Lists that have seen more -/

/-- Whatever has taken effect in `l` has taken effect in `l'`. -/
def Behind (l l' : List (Cell κ V)) : Prop := ∀ e, Settled l e → Settled l' e

section Behind

variable {l l' l'' : List (Cell κ V)}

omit [LinearOrder κ] in
lemma Behind.refl (l : List (Cell κ V)) : Behind l l := fun _ h => h

omit [LinearOrder κ] in
lemma Behind.trans (h : Behind l l') (h' : Behind l' l'') : Behind l l'' :=
  fun e he => h' e (h e he)

lemma behind_step (l : List (Cell κ V)) (e : Edit κ V) : Behind l (e.step l) :=
  fun _ h => settled_step e h

omit [LinearOrder κ] in
lemma Behind.ids_subset (h : Behind l l') : ids l ⊆ ids l' := by
  intro u hu
  obtain ⟨c, hc, rfl⟩ := List.mem_map.mp hu
  exact h (.insert c.id none c.value) (List.mem_map_of_mem hc)

/-- What a deletion finds settled after an edit, it found before, or it is that edit. -/
lemma settled_delete_of_step {l : List (Cell κ V)} {e : Edit κ V} {u : κ}
    (h : Settled (e.step l) (.delete u)) : Settled l (.delete u) ∨ e = .delete u ∧ u ∈ ids l := by
  cases e with
  | insert w a v =>
      rw [Edit.step] at h
      split at h
      · exact Or.inl h
      · have hsub := (sublist_place a ⟨w, v, false⟩ l).subset
        refine Or.inl ⟨?_, fun c hc => h.2 c (hsub hc)⟩
        rcases place_cases a ⟨w, v, false⟩ l with ⟨-, -, -, heq⟩ | ⟨-, hperm⟩
        · exact heq ▸ h.1
        · rcases List.mem_cons.mp ((hperm.map Cell.id).subset h.1) with rfl | hu
          · -- the new cell is live
            exact absurd (h.2 _ (hperm.symm.subset (List.mem_cons_self ..)) rfl) Bool.false_ne_true
          · exact hu
  | delete w =>
      by_cases hw : w = u
      · subst hw
        exact Or.inr ⟨rfl, by simpa [Edit.step] using h.1⟩
      · refine Or.inl ⟨by simpa [Edit.step] using h.1, fun c hc hcu => ?_⟩
        have hkill : c.kill w = c := Cell.kill_of_ne fun hcw => hw (hcw.symm.trans hcu)
        exact h.2 c (hkill ▸ List.mem_map_of_mem hc) hcu

/-- **Edits keep the order**: the list that has seen more still has when both see the same. -/
lemma Behind.step (h : Behind l l') (e : Edit κ V) : Behind (e.step l) (e.step l') := by
  have hself : (∀ d ∈ e.needs, d ∈ ids l) → Settled (e.step l') e := fun hneeds =>
    settled_self fun d hd => h.ids_subset (hneeds d hd)
  intro p hp
  cases p with
  | insert u a v =>
      have hmem : u ∈ ids (e.step l) := hp
      by_cases hu : u ∈ ids l
      · exact settled_step e (h (.insert u a v) hu)
      · -- the edit has brought the identifier in, so that its needs are met
        rcases mem_ids_step hmem with hold | hgives
        · exact absurd hold hu
        · cases e with
          | insert w b v' =>
              obtain rfl : u = w := hgives
              rw [Edit.step, if_neg hu] at hmem
              rcases place_cases b ⟨u, v', false⟩ l with ⟨-, -, -, heq⟩ | ⟨hneeds, -⟩
              · exact absurd (heq ▸ hmem) hu
              · exact hself hneeds
          | delete w => exact absurd hgives Edit.notMem_gives_delete
  | delete u =>
      rcases settled_delete_of_step hp with hold | ⟨rfl, hu⟩
      · exact settled_step e (h _ hold)
      · exact hself fun d hd => (Edit.mem_needs_delete.mp hd) ▸ hu

end Behind

/-- **Convergence**: causal replays of the same edits build the same list. -/
theorem replay_eq {es₁ es₂ : List (Edit κ V)} (h₁ : Causal Edit.needs Edit.gives es₁)
    (h₂ : Causal Edit.needs Edit.gives es₂) (hmem : ∀ e, e ∈ es₁ ↔ e ∈ es₂)
    (huniq : UniqueGivers Edit.gives es₁) : replay es₁ = replay es₂ :=
  replayable.foldl_eq h₁ h₂ hmem huniq []

/-- A causal replay holds exactly the identifiers its edits give. -/
lemma mem_ids_replay {es : List (Edit κ V)} (h : Causal Edit.needs Edit.gives es) {u : κ} :
    u ∈ ids (replay es) ↔ ∃ e ∈ es, u ∈ e.gives := by
  constructor
  · clear h
    induction es using List.reverseRecOn with
    | nil => simp [replay]
    | append_singleton es e ih =>
        intro hu
        rw [replay, List.foldl_append, List.foldl_cons, List.foldl_nil] at hu
        rcases mem_ids_step hu with hu | hu
        · obtain ⟨p, hp, hgives⟩ := ih hu
          exact ⟨p, List.mem_append_left _ hp, hgives⟩
        · exact ⟨e, by simp, hu⟩
  · rintro ⟨e, he, hu⟩
    exact settled_gives (replayable.settled_of_causal [] h e he) hu

end ReplicatedList
