import SyncEngine.Lib.ReplicatedList

/-!
# What two replays share

Two replicas of a list need not have received the same edits, nor in a causal order: an insertion
whose anchor is missing is lost.  What a replay holds can nevertheless be read off the edits
(`Arrives`, `Lasts`), and what two replays both hold they list in the same order
(`filter_ids_eq`), as long as an identifier belongs to one insertion.  So a replay that shows no
more than another one shows a part of it, in the same order (`live_sublist`).
-/

namespace ReplicatedList

open CausalReplay

variable {κ V : Type*}

/-! ## What the edits say -/

/-- An insertion of the sequence finds its anchor and brings the identifier in. -/
inductive Arrives : List (Edit κ V) → κ → Prop
  | insert {es : List (Edit κ V)} {u : κ} {a : Option κ} {v : V}
      (anchored : ∀ b, a = some b → Arrives es b) : Arrives (es ++ [.insert u a v]) u
  | append {es : List (Edit κ V)} {u : κ} (e : Edit κ V) (before : Arrives es u) :
      Arrives (es ++ [e]) u

/-- It arrives, and no deletion comes after it. -/
def Lasts (es : List (Edit κ V)) (u : κ) : Prop :=
  Arrives es u ∧ ∀ pre post, es = pre ++ .delete u :: post → ¬ Arrives pre u

lemma not_arrives_nil {u : κ} : ¬ Arrives ([] : List (Edit κ V)) u := by
  intro h
  generalize hes : ([] : List (Edit κ V)) = es at h
  cases h with
  | insert => simp at hes
  | append => simp at hes

lemma arrives_concat {es : List (Edit κ V)} {e : Edit κ V} {u : κ} :
    Arrives (es ++ [e]) u ↔
      Arrives es u ∨ ∃ a v, e = .insert u a v ∧ ∀ b, a = some b → Arrives es b := by
  constructor
  · intro h
    generalize hes : es ++ [e] = fs at h
    cases h with
    | insert anchored =>
        obtain ⟨rfl, heq⟩ := List.append_inj' hes rfl
        exact Or.inr ⟨_, _, List.singleton_inj.mp heq, anchored⟩
    | append e' before =>
        obtain ⟨rfl, -⟩ := List.append_inj' hes rfl
        exact Or.inl before
  · rintro (h | ⟨a, v, rfl, hanchor⟩)
    · exact .append e h
    · exact .insert hanchor

lemma Arrives.append_right {es : List (Edit κ V)} {u : κ} (h : Arrives es u)
    (fs : List (Edit κ V)) : Arrives (es ++ fs) u := by
  induction fs using List.reverseRecOn with
  | nil => rwa [List.append_nil]
  | append_singleton fs e ih =>
      rw [← List.append_assoc]
      exact .append e ih

/-- What arrives was inserted. -/
lemma Arrives.exists_insert {es : List (Edit κ V)} {u : κ} (h : Arrives es u) :
    ∃ a v, .insert u a v ∈ es := by
  induction h with
  | insert anchored => exact ⟨_, _, List.mem_append_right _ (List.mem_singleton_self _)⟩
  | append e before ih =>
      obtain ⟨a, v, hmem⟩ := ih
      exact ⟨a, v, List.mem_append_left _ hmem⟩

/-- The list shows the identifier. -/
def Shown (l : List (Cell κ V)) (u : κ) : Prop := ∃ c ∈ l, c.id = u ∧ c.dead = false

/-- The last edit either keeps what lasted or is what ends it. -/
lemma lasts_concat {es : List (Edit κ V)} {e : Edit κ V} {u : κ} :
    Lasts (es ++ [e]) u ↔
      (Lasts es u ∧ e ≠ .delete u) ∨
        (¬ Arrives es u ∧ ∃ a v, e = .insert u a v ∧ ∀ b, a = some b → Arrives es b) := by
  have hends : ∀ {pre post : List (Edit κ V)}, es ++ [e] = pre ++ .delete u :: post →
      (e = .delete u ∧ es = pre) ∨ ∃ post', es = pre ++ .delete u :: post' := by
    intro pre post heq
    rcases List.eq_nil_or_concat post with rfl | ⟨post', d, rfl⟩
    · obtain ⟨rfl, he⟩ := List.append_inj' heq rfl
      exact Or.inl ⟨List.singleton_inj.mp he, rfl⟩
    · have heq' : es ++ [e] = (pre ++ .delete u :: post') ++ [d] := by rw [heq]; simp
      exact Or.inr ⟨post', (List.append_inj' heq' rfl).1⟩
  constructor
  · rintro ⟨harrives, hkept⟩
    rcases arrives_concat.mp harrives with h | ⟨a, v, rfl, hanchor⟩
    · refine Or.inl ⟨⟨h, fun pre post heq => hkept pre (post ++ [e]) (by rw [heq]; simp)⟩, ?_⟩
      rintro rfl
      exact hkept es [] rfl h
    · by_cases h : Arrives es u
      · refine Or.inl ⟨⟨h, fun pre post heq => ?_⟩, by simp⟩
        exact hkept pre (post ++ [.insert u a v]) (by rw [heq]; simp)
      · exact Or.inr ⟨h, a, v, rfl, hanchor⟩
  · rintro (⟨⟨h, hkept⟩, hne⟩ | ⟨hnew, a, v, rfl, hanchor⟩)
    · refine ⟨.append e h, fun pre post heq => ?_⟩
      rcases hends heq with ⟨he, -⟩ | ⟨post', heq'⟩
      · exact absurd he hne
      · exact hkept pre post' heq'
    · refine ⟨.insert hanchor, fun pre post heq hpre => ?_⟩
      rcases hends heq with ⟨he, -⟩ | ⟨post', heq'⟩
      · simp at he
      · exact hnew (heq' ▸ hpre.append_right _)

variable [LinearOrder κ]

lemma replay_concat (es : List (Edit κ V)) (e : Edit κ V) :
    replay (es ++ [e]) = e.step (replay es) := by
  rw [replay, List.foldl_append]
  rfl

lemma nodup_ids_replay (es : List (Edit κ V)) : (ids (replay es)).Nodup := by
  induction es using List.reverseRecOn with
  | nil => exact List.nodup_nil
  | append_singleton es e ih =>
      rw [replay_concat]
      exact nodup_ids_step ih e

/-- **A replay holds what arrives.** -/
theorem mem_ids_replay_iff {es : List (Edit κ V)} {u : κ} :
    u ∈ ids (replay es) ↔ Arrives es u := by
  induction es using List.reverseRecOn generalizing u with
  | nil => exact iff_of_false List.not_mem_nil not_arrives_nil
  | append_singleton es e ih =>
      rw [replay_concat, arrives_concat, ← ih]
      cases e with
      | delete w => simp [Edit.step]
      | insert w a v =>
          rw [Edit.step]
          have hanchor : (∀ b, a = some b → Arrives es b) ↔
              ∀ b, a = some b → b ∈ ids (replay es) := by simp only [ih]
          split
          · rename_i hw
            refine ⟨Or.inl, ?_⟩
            rintro (h | ⟨a', v', heq, -⟩)
            · exact h
            · exact (Edit.insert.inj heq).1 ▸ hw
          · rename_i hw
            rcases place_cases a ⟨w, v, false⟩ (replay es) with ⟨b, hb, hout, heq⟩ | ⟨hin, hperm⟩
            · rw [heq]
              refine ⟨Or.inl, ?_⟩
              rintro (h | ⟨a', v', heq', ha'⟩)
              · exact h
              · obtain ⟨-, rfl, -⟩ := Edit.insert.inj heq'
                exact absurd (ih.mpr (ha' b hb)) hout
            · rw [ids, (hperm.map Cell.id).mem_iff, List.map_cons, List.mem_cons]
              constructor
              · rintro (rfl | h)
                · exact Or.inr ⟨a, v, rfl, hanchor.mpr hin⟩
                · exact Or.inl h
              · rintro (h | ⟨a', v', heq', -⟩)
                · exact Or.inr h
                · exact Or.inl (Edit.insert.inj heq').1.symm

/-- **It shows what lasts.** -/
theorem shown_replay_iff {es : List (Edit κ V)} {u : κ} : Shown (replay es) u ↔ Lasts es u := by
  unfold Shown
  -- on the last edit, which is the one that may still show or hide a cell
  induction es using List.reverseRecOn with
  | nil => simp [replay, Lasts, not_arrives_nil]
  | append_singleton es e ih =>
      rw [replay_concat, lasts_concat, ← ih]
      cases e with
      | delete w =>
          simp only [Edit.step, List.mem_map, ne_eq, Edit.delete.injEq, reduceCtorEq, false_and,
            exists_false, and_false, or_false]
          constructor
          · rintro ⟨-, ⟨c, hc, rfl⟩, rfl, hlive⟩
            rw [Cell.kill_dead, Bool.or_eq_false_iff, decide_eq_false_iff_not] at hlive
            exact ⟨⟨c, hc, rfl, hlive.1⟩, fun h => hlive.2 h.symm⟩
          · rintro ⟨⟨c, hc, rfl, hlive⟩, hne⟩
            exact ⟨c, ⟨c, hc, Cell.kill_of_ne fun h => hne h.symm⟩, rfl, hlive⟩
      | insert w a v =>
          simp only [ne_eq, reduceCtorEq, not_false_eq_true, and_true, Edit.insert.injEq]
          rw [Edit.step]
          split
          · rename_i hw
            refine ⟨Or.inl, ?_⟩
            rintro (h | ⟨hnew, a', v', ⟨rfl, -⟩, -⟩)
            · exact h
            · exact absurd (mem_ids_replay_iff.mp hw) hnew
          · rename_i hw
            rcases place_cases a ⟨w, v, false⟩ (replay es) with ⟨b, hb, hout, heq⟩ | ⟨hin, hperm⟩
            · rw [heq]
              refine ⟨Or.inl, ?_⟩
              rintro (h | ⟨-, a', v', ⟨-, rfl, -⟩, ha'⟩)
              · exact h
              · exact absurd (mem_ids_replay_iff.mpr (ha' b hb)) hout
            · constructor
              · rintro ⟨c, hc, rfl, hlive⟩
                rcases List.mem_cons.mp (hperm.subset hc) with rfl | hc
                · exact Or.inr ⟨mt mem_ids_replay_iff.mpr hw, a, v, ⟨rfl, rfl, rfl⟩,
                    fun b hb => mem_ids_replay_iff.mp (hin b hb)⟩
                · exact Or.inl ⟨c, hc, rfl, hlive⟩
              · rintro (⟨c, hc, rfl, hlive⟩ | ⟨-, a', v', ⟨rfl, -⟩, -⟩)
                · exact ⟨c, hperm.symm.subset (List.mem_cons_of_mem _ hc), rfl, hlive⟩
                · exact ⟨_, hperm.symm.subset (List.mem_cons_self ..), rfl, rfl⟩

/-- A cell carries the value of an insertion. -/
lemma exists_insert_of_mem {es : List (Edit κ V)} {c : Cell κ V} (hc : c ∈ replay es) :
    ∃ a, .insert c.id a c.value ∈ es := by
  induction es using List.reverseRecOn generalizing c with
  | nil => simp [replay] at hc
  | append_singleton es e ih =>
      have hold : ∀ {c}, c ∈ replay es → ∃ a, .insert c.id a c.value ∈ es ++ [e] := fun hc =>
        (ih hc).imp fun a ha => List.mem_append_left _ ha
      rw [replay_concat] at hc
      cases e with
      | delete w =>
          obtain ⟨c', hc', rfl⟩ := List.mem_map.mp hc
          exact (ih hc').imp fun a ha => List.mem_append_left _ ha
      | insert w a v =>
          rw [Edit.step] at hc
          split at hc
          · exact hold hc
          · rcases place_cases a ⟨w, v, false⟩ (replay es) with ⟨-, -, -, heq⟩ | ⟨-, hperm⟩
            · exact hold (heq ▸ hc)
            · rcases List.mem_cons.mp (hperm.subset hc) with rfl | hc
              · exact ⟨a, by simp⟩
              · exact hold hc

/-! ## The order of what is shared -/

/-- Where a cell goes is a matter of the identifiers. -/
lemma ids_place_congr {l l' : List (Cell κ V)} (h : ids l = ids l') (a : Option κ) (x : Cell κ V) :
    ids (place a x l) = ids (place a x l') := by
  cases a with
  | none =>
      have hmap : ∀ l : List (Cell κ V), ids (SkipInsert.skipGreater Cell.id x l) =
          SkipInsert.skipGreater id x.id (ids l) := fun l =>
        @SkipInsert.map_skipGreater _ _ _ Cell.id _ id Cell.id (fun _ => rfl) x l
      rw [place, place, hmap, hmap, h]
  | some b =>
      have hmap : ∀ l : List (Cell κ V), ids (SkipInsert.insertAfter Cell.id b x l) =
          SkipInsert.insertAfter id b x.id (ids l) := fun l =>
        @SkipInsert.map_insertAfter _ _ _ Cell.id _ id Cell.id (fun _ => rfl) b x l
      rw [place, place, hmap, hmap, h]

lemma sublist_ids_step (l : List (Cell κ V)) (e : Edit κ V) : (ids l).Sublist (ids (e.step l)) := by
  cases e with
  | insert u a v =>
      rw [Edit.step]
      split
      · exact List.Sublist.refl _
      · exact (sublist_place a _ l).map Cell.id
  | delete u =>
      rw [Edit.step, ids_map_kill]

lemma sublist_ids_foldl (l : List (Cell κ V)) (es : List (Edit κ V)) :
    (ids l).Sublist (ids (es.foldl Edit.step l)) := by
  induction es generalizing l with
  | nil => exact List.Sublist.refl _
  | cons e es ih => exact (sublist_ids_step l e).trans (ih (e.step l))

/-- The identifiers of a replay are those of a causal replay of some of its edits. -/
lemma exists_causal (es : List (Edit κ V)) :
    ∃ is ⊆ es, Causal Edit.needs Edit.gives is ∧ ids (replay is) = ids (replay es) := by
  induction es using List.reverseRecOn with
  | nil => exact ⟨[], List.Subset.refl _, causal_nil, rfl⟩
  | append_singleton es e ih =>
      obtain ⟨is, hsub, hcausal, hids⟩ := ih
      have hsub' : is ⊆ es ++ [e] := fun p hp => List.mem_append_left _ (hsub hp)
      rw [replay_concat]
      cases e with
      | delete w => exact ⟨is, hsub', hcausal, by rw [hids, Edit.step, ids_map_kill]⟩
      | insert w a v =>
          rw [Edit.step]
          split
          · exact ⟨is, hsub', hcausal, hids⟩
          · rename_i hw
            rcases place_cases a ⟨w, v, false⟩ (replay es) with ⟨b, hb, hout, heq⟩ | ⟨hin, -⟩
            · exact ⟨is, hsub', hcausal, by rw [heq, hids]⟩
            · refine ⟨is ++ [.insert w a v], ?_, ?_, ?_⟩
              · exact List.append_subset.mpr ⟨hsub', by simp⟩
              · exact causal_concat_iff.mpr ⟨hcausal, fun b hb =>
                  (mem_ids_replay hcausal).mp (hids ▸ hin b hb)⟩
              · rw [replay_concat, Edit.step, if_neg (hids ▸ hw)]
                exact ids_place_congr hids a _

/-- Some edits of a causal replay, replayed alone, list what they hold in the same order. -/
lemma sublist_ids_replay {is ks : List (Edit κ V)} (hi : Causal Edit.needs Edit.gives is)
    (hk : Causal Edit.needs Edit.gives ks) (hsub : ks ⊆ is) (hone : UniqueGivers Edit.gives is) :
    (ids (replay ks)).Sublist (ids (replay is)) := by
  have hboth : Causal Edit.needs Edit.gives (ks ++ is) :=
    Causal.insert (l := []) hk hi
  have heq : replay is = replay (ks ++ is) := by
    refine replay_eq hi hboth (fun e => ?_) hone
    rw [List.mem_append]
    exact ⟨Or.inr, fun h => h.elim (fun hek => hsub hek) id⟩
  have hfold : replay (ks ++ is) = is.foldl Edit.step (replay ks) := List.foldl_append ..
  rw [heq, hfold]
  exact sublist_ids_foldl _ is

/-- Two sublists with the same elements of a property agree on it. -/
lemma filter_eq_of_sublist {α : Type*} {p : α → Bool} {l m : List α} (h : l.Sublist m)
    (hnd : m.Nodup) (hp : ∀ x ∈ m, p x = true → x ∈ l) : l.filter p = m.filter p := by
  refine (h.filter p).eq_of_length_le ?_
  refine (List.subperm_of_subset (hnd.filter p) fun x hx => ?_).length_le
  obtain ⟨hx, hpx⟩ := List.mem_filter.mp hx
  exact List.mem_filter.mpr ⟨hp x hx hpx, hpx⟩

omit [LinearOrder κ] in
/-- The identifiers of the live cells. -/
lemma ids_filter_live {l : List (Cell κ V)} (hnd : (ids l).Nodup) {p : κ → Bool}
    (hp : ∀ u, p u = true ↔ Shown l u) :
    ids (l.filter fun c => !c.dead) = (ids l).filter p := by
  rw [ids, ids, List.filter_map]
  refine congrArg (List.map Cell.id) (List.filter_congr fun c hc => ?_)
  rw [Bool.eq_iff_iff, Function.comp_apply, hp, Bool.not_eq_true']
  refine ⟨fun hlive => ⟨c, hc, rfl, hlive⟩, ?_⟩
  rintro ⟨c', hc', hid, hlive⟩
  exact List.inj_on_of_nodup_map hnd hc' hc hid ▸ hlive

/-- A sublist of the images of a list is one of the list where the images tell the elements
apart. -/
lemma sublist_of_map {α β : Type*} {f : α → β} {l m : List α} (h : (l.map f).Sublist (m.map f))
    (hf : ∀ a ∈ l, ∀ b ∈ m, f a = f b → a = b) : l.Sublist m := by
  obtain ⟨m', hsub, heq⟩ := List.sublist_map_iff.mp h
  have hlen : l.length = m'.length := by simpa using congrArg List.length heq
  have hlm : l = m' := List.ext_getElem hlen fun i hi hi' => by
    refine hf _ (List.getElem_mem hi) _ (hsub.subset (List.getElem_mem hi')) ?_
    have hget := List.getElem_of_eq heq (by simpa using hi)
    simpa using hget
  exact hlm ▸ hsub

omit [LinearOrder κ] in
/-- A list that shows no more than another, in the same order and with the same values. -/
lemma live_sublist_of {l m : List (Cell κ V)} (hl : (ids l).Nodup) (hm : (ids m).Nodup)
    (hval : ∀ c ∈ l, ∀ c' ∈ m, c.id = c'.id → c.value = c'.value)
    (hord : ∀ p : κ → Bool, (∀ u, p u = true → Shown l u ∧ Shown m u) →
      (ids l).filter p = (ids m).filter p)
    (h : ∀ u, Shown l u → Shown m u) :
    (l.filter fun c => !c.dead).Sublist (m.filter fun c => !c.dead) := by
  classical
  refine sublist_of_map (f := Cell.id) ?_ fun c hc c' hc' hid => ?_
  · have hids := ids_filter_live hl fun u => decide_eq_true_iff (p := Shown l u)
    have hids' := ids_filter_live hm fun u => decide_eq_true_iff (p := Shown m u)
    show (ids _).Sublist (ids _)
    rw [hids, hids', hord _ fun u hu => ⟨of_decide_eq_true hu, h u (of_decide_eq_true hu)⟩]
    exact List.monotone_filter_right _ fun u hu => decide_eq_true (h u (of_decide_eq_true hu))
  · obtain ⟨hc, hlive⟩ := List.mem_filter.mp hc
    obtain ⟨hc', hlive'⟩ := List.mem_filter.mp hc'
    rw [Bool.not_eq_true'] at hlive hlive'
    exact Cell.ext hid (hval c hc c' hc' hid) (hlive.trans hlive'.symm)

section Shared

variable {es fs : List (Edit κ V)} (hone : UniqueGivers Edit.gives (es ++ fs))

include hone

/-- **Two replays list what they share in the same order.** -/
theorem filter_ids_eq {p : κ → Bool} (hes : ∀ u, p u = true → Arrives es u)
    (hfs : ∀ u, p u = true → Arrives fs u) :
    (ids (replay es)).filter p = (ids (replay fs)).filter p := by
  classical
  obtain ⟨is, hisub, hicausal, hiids⟩ := exists_causal es
  obtain ⟨js, hjsub, hjcausal, hjids⟩ := exists_causal fs
  have hone' : UniqueGivers Edit.gives (is ++ js) := by
    have hsub : is ++ js ⊆ es ++ fs := List.append_subset.mpr
      ⟨fun e he => List.mem_append_left _ (hisub he),
        fun e he => List.mem_append_right _ (hjsub he)⟩
    exact fun e he e' he' => hone e (hsub he) e' (hsub he')
  have honei : UniqueGivers Edit.gives is := fun e he e' he' =>
    hone' e (List.mem_append_left _ he) e' (List.mem_append_left _ he')
  have honej : UniqueGivers Edit.gives js := fun e he e' he' =>
    hone' e (List.mem_append_right _ he) e' (List.mem_append_right _ he')
  -- the edits both have, a causal replay of its own
  have hcausal := hicausal.filter_mem hjcausal hone'
  have hmem : ∀ u, p u = true → u ∈ ids (replay (is.filter fun e => decide (e ∈ js))) := by
    intro u hu
    have hi : u ∈ ids (replay is) := hiids ▸ mem_ids_replay_iff.mpr (hes u hu)
    have hj : u ∈ ids (replay js) := hjids ▸ mem_ids_replay_iff.mpr (hfs u hu)
    obtain ⟨e, he, hgives⟩ := (mem_ids_replay hicausal).mp hi
    obtain ⟨e', he', hgives'⟩ := (mem_ids_replay hjcausal).mp hj
    obtain rfl := hone' e (List.mem_append_left _ he) e' (List.mem_append_right _ he') u hgives
      hgives'
    exact (mem_ids_replay hcausal).mpr ⟨e, List.mem_filter.mpr ⟨he, decide_eq_true he'⟩, hgives⟩
  have hi := sublist_ids_replay hicausal hcausal (List.filter_subset_self is) honei
  have hj := sublist_ids_replay hjcausal hcausal
    (fun e he => of_decide_eq_true (List.mem_filter.mp he).2) honej
  rw [← hiids, ← hjids, ← filter_eq_of_sublist hi (nodup_ids_replay is) fun u _ => hmem u,
    ← filter_eq_of_sublist hj (nodup_ids_replay js) fun u _ => hmem u]

/-- Two replays have the same values under the identifiers they share. -/
lemma value_eq_of_mem {c c' : Cell κ V} (hc : c ∈ replay es) (hc' : c' ∈ replay fs)
    (hid : c.id = c'.id) : c.value = c'.value := by
  obtain ⟨a, ha⟩ := exists_insert_of_mem hc
  obtain ⟨a', ha'⟩ := exists_insert_of_mem hc'
  have heq := hone _ (List.mem_append_left _ ha) _ (List.mem_append_right _ ha') c.id rfl hid
  exact (Edit.insert.inj heq).2.2

/-- **What lasts in one replay only if it lasts in the other**, the other shows in the same
order. -/
theorem live_sublist (h : ∀ u, Lasts es u → Lasts fs u) :
    ((replay es).filter fun c => !c.dead).Sublist ((replay fs).filter fun c => !c.dead) := by
  refine live_sublist_of (nodup_ids_replay es) (nodup_ids_replay fs)
    (fun c hc c' hc' => value_eq_of_mem hone hc hc') (fun p hp => ?_)
    fun u hu => shown_replay_iff.mpr (h u (shown_replay_iff.mp hu))
  exact filter_ids_eq hone (fun u hu => (shown_replay_iff.mp (hp u hu).1).1)
    fun u hu => (shown_replay_iff.mp (hp u hu).2).1

end Shared

/-! ## What further edits show -/

lemma nodup_ids_foldl {l : List (Cell κ V)} (hnd : (ids l).Nodup) (es : List (Edit κ V)) :
    (ids (es.foldl Edit.step l)).Nodup := by
  induction es generalizing l with
  | nil => exact hnd
  | cons e es ih => exact ih (nodup_ids_step hnd e)

/-- A cell keeps its value. -/
lemma exists_mem_of_foldl {l : List (Cell κ V)} {es : List (Edit κ V)} {c : Cell κ V}
    (hc : c ∈ es.foldl Edit.step l) (hid : c.id ∈ ids l) :
    ∃ c' ∈ l, c'.id = c.id ∧ c'.value = c.value := by
  induction es generalizing l with
  | nil => exact ⟨c, hc, rfl, rfl⟩
  | cons e es ih =>
      obtain ⟨b, hb, hbid, hbval⟩ := ih hc (ids_subset_step l e hid)
      cases e with
      | delete w =>
          obtain ⟨b', hb', rfl⟩ := List.mem_map.mp hb
          exact ⟨b', hb', hbid, hbval⟩
      | insert w a v =>
          rw [Edit.step] at hb
          split at hb
          · exact ⟨b, hb, hbid, hbval⟩
          · rename_i hw
            rcases place_cases a ⟨w, v, false⟩ l with ⟨-, -, -, heq⟩ | ⟨-, hperm⟩
            · exact ⟨b, heq ▸ hb, hbid, hbval⟩
            · rcases List.mem_cons.mp (hperm.subset hb) with rfl | hb
              · -- the new cell carries another identifier
                have hwc : w = c.id := hbid
                exact absurd hid (hwc ▸ hw)
              · exact ⟨b, hb, hbid, hbval⟩

section Further

variable {l : List (Cell κ V)} (hnd : (ids l).Nodup) (es : List (Edit κ V))

include hnd

lemma value_foldl {c c' : Cell κ V} (hc : c ∈ l) (hc' : c' ∈ es.foldl Edit.step l)
    (hid : c.id = c'.id) : c.value = c'.value := by
  obtain ⟨b, hb, hbid, hbval⟩ := exists_mem_of_foldl hc' (hid ▸ List.mem_map_of_mem hc)
  rw [← hbval, List.inj_on_of_nodup_map hnd hc hb (hid.trans hbid.symm)]

lemma filter_ids_foldl {p : κ → Bool} (hp : ∀ u, p u = true → Shown l u) :
    (ids l).filter p = (ids (es.foldl Edit.step l)).filter p :=
  filter_eq_of_sublist (sublist_ids_foldl l es) (nodup_ids_foldl hnd es) fun u _ hu => by
    obtain ⟨c, hc, hid, -⟩ := hp u hu
    exact hid ▸ List.mem_map_of_mem hc

/-- Edits that take nothing away leave what was shown in its order. -/
theorem live_sublist_foldl (h : ∀ u, Shown l u → Shown (es.foldl Edit.step l) u) :
    (l.filter fun c => !c.dead).Sublist ((es.foldl Edit.step l).filter fun c => !c.dead) :=
  live_sublist_of hnd (nodup_ids_foldl hnd es) (fun _ hc _ hc' => value_foldl hnd es hc hc')
    (fun _ hp => filter_ids_foldl hnd es fun u hu => (hp u hu).1) h

/-- So do edits that add nothing. -/
theorem live_foldl_sublist (h : ∀ u, Shown (es.foldl Edit.step l) u → Shown l u) :
    ((es.foldl Edit.step l).filter fun c => !c.dead).Sublist (l.filter fun c => !c.dead) :=
  live_sublist_of (nodup_ids_foldl hnd es) hnd
    (fun _ hc' _ hc hid => (value_foldl hnd es hc hc' hid.symm).symm)
    (fun _ hp => (filter_ids_foldl hnd es fun u hu => (hp u hu).2).symm) h

end Further

end ReplicatedList
