import Mathlib.Data.List.Nodup
import SyncEngine.Lib.LastWrite

/-!
# Stores whose keys expire

A store that is written by commands, `set` with a time to live and `del`, each executed at a time,
and read at a time.  `mem_run` says what the store holds after a history of commands: the last of
each key, if it set it; so that what is read (`get_run`, `mem_keys_iff`) is what was set last, not
longer ago than its time to live.
-/

namespace ExpiringStore

variable {κ ν : Type*}

/-- A value under its key, for a time. -/
structure Entry (κ ν : Type*) where
  key : κ
  value : ν
  /-- The last moment at which it is there. -/
  deadline : Nat
deriving DecidableEq

/-- A command that writes. -/
inductive Command (κ ν : Type*) where
  | set (key : κ) (value : ν) (ttl : Nat)
  | del (key : κ)
deriving DecidableEq

/-- The key that a command writes. -/
def Command.key : Command κ ν → κ
  | .set key _ _ => key
  | .del key => key

/-- The keys that are there at the time `now`. -/
def keys (now : Nat) (store : List (Entry κ ν)) : List κ :=
  (store.filter fun e => now ≤ e.deadline).map Entry.key

variable [DecidableEq κ]

/-- A command is executed at the time `now`. -/
def apply (now : Nat) (store : List (Entry κ ν)) : Command κ ν → List (Entry κ ν)
  | .set key value ttl => (store.filter fun e => e.key ≠ key) ++ [⟨key, value, now + ttl⟩]
  | .del key => store.filter fun e => e.key ≠ key

/-- What a history of commands with their times leaves. -/
def run (history : List (Nat × Command κ ν)) : List (Entry κ ν) :=
  history.foldl (fun store x => apply x.1 store x.2) []

/-- The value, unless its time is over. -/
def get (now : Nat) (store : List (Entry κ ν)) (key : κ) : Option ν :=
  (store.find? fun e => e.key = key ∧ now ≤ e.deadline).map Entry.value

variable {now : Nat} {store : List (Entry κ ν)} {history : List (Nat × Command κ ν)}
  {e : Entry κ ν} {key : κ} {value : ν}

lemma mem_apply {t : Nat} {command : Command κ ν} :
    e ∈ apply t store command ↔
      (e ∈ store ∧ command.key ≠ e.key) ∨
        ∃ ttl, command = .set e.key e.value ttl ∧ e.deadline = t + ttl := by
  cases command with
  | set key value ttl =>
      rw [apply, List.mem_append, List.mem_singleton, List.mem_filter, decide_eq_true_iff]
      constructor
      · rintro (⟨hmem, hkey⟩ | rfl)
        · exact Or.inl ⟨hmem, Ne.symm hkey⟩
        · exact Or.inr ⟨ttl, rfl, rfl⟩
      · rintro (⟨hmem, hkey⟩ | ⟨ttl', hset, hdeadline⟩)
        · exact Or.inl ⟨hmem, Ne.symm hkey⟩
        · obtain ⟨rfl, rfl, rfl⟩ := Command.set.inj hset
          exact Or.inr (by rw [← hdeadline])
  | del key =>
      rw [apply, List.mem_filter, decide_eq_true_iff]
      constructor
      · rintro ⟨hmem, hkey⟩
        exact Or.inl ⟨hmem, Ne.symm hkey⟩
      · rintro (⟨hmem, hkey⟩ | ⟨ttl, hset, -⟩)
        · exact ⟨hmem, Ne.symm hkey⟩
        · exact absurd hset (by simp)

lemma run_concat (history : List (Nat × Command κ ν)) (x : Nat × Command κ ν) :
    run (history ++ [x]) = apply x.1 (run history) x.2 := by
  rw [run, List.foldl_concat, run]

/-- **What the store holds** is what the last command of its key has set. -/
theorem mem_run :
    e ∈ run history ↔
      ∃ pre t ttl post, history = pre ++ (t, .set e.key e.value ttl) :: post ∧
        e.deadline = t + ttl ∧ ∀ x ∈ post, x.2.key ≠ e.key := by
  induction history using List.reverseRecOn with
  | nil => simp [run]
  | append_singleton history x ih =>
      rw [run_concat, mem_apply, ih]
      constructor
      · rintro (⟨⟨pre, t, ttl, post, rfl, hdeadline, hpost⟩, hkey⟩ | ⟨ttl, hset, hdeadline⟩)
        · refine ⟨pre, t, ttl, post ++ [x], by simp, hdeadline, fun y hy => ?_⟩
          rcases List.mem_append.mp hy with hy | hy
          · exact hpost y hy
          · rw [List.mem_singleton.mp hy]
            exact hkey
        · exact ⟨history, x.1, ttl, [], by rw [← hset], hdeadline, by simp⟩
      · rintro ⟨pre, t, ttl, post, hsplit, hdeadline, hpost⟩
        rcases LastWrite.concat_eq_append_cons.mp hsplit with ⟨-, -, rfl⟩ | ⟨post', rfl, hhistory⟩
        · exact Or.inr ⟨ttl, rfl, hdeadline⟩
        · exact Or.inl ⟨⟨pre, t, ttl, post', hhistory, hdeadline,
            fun y hy => hpost y (by simp [hy])⟩, hpost x (by simp)⟩

/-- No key is there twice. -/
lemma nodup_run (history : List (Nat × Command κ ν)) : ((run history).map Entry.key).Nodup := by
  induction history using List.reverseRecOn with
  | nil => simp [run]
  | append_singleton history x ih =>
      rw [run_concat]
      have hfilter : ∀ key, (((run history).filter fun e => e.key ≠ key).map Entry.key).Nodup :=
        fun key => ih.sublist (List.filter_sublist.map _)
      cases x.2 with
      | set key value ttl =>
          rw [apply, List.map_append]
          refine List.nodup_append.mpr ⟨hfilter key, by simp, ?_⟩
          rintro k hk k' hk' rfl
          obtain ⟨e, he, rfl⟩ := List.mem_map.mp hk
          exact of_decide_eq_true (List.mem_filter.mp he).2 (by simpa using hk')
      | del key => exact hfilter key

lemma nodup_keys_run (now : Nat) (history : List (Nat × Command κ ν)) :
    (keys now (run history)).Nodup :=
  (nodup_run history).sublist (List.filter_sublist.map _)

/-- **What is read** was set last, and is not older than its time to live. -/
theorem get_run :
    get now (run history) key = some value ↔
      ∃ pre t ttl post, history = pre ++ (t, .set key value ttl) :: post ∧
        now ≤ t + ttl ∧ ∀ x ∈ post, x.2.key ≠ key := by
  rw [get, Option.map_eq_some_iff]
  constructor
  · rintro ⟨e, he, rfl⟩
    have hfound := List.find?_some he
    obtain ⟨rfl, hlive⟩ := of_decide_eq_true hfound
    obtain ⟨pre, t, ttl, post, hsplit, hdeadline, hpost⟩ :=
      mem_run.mp (List.mem_of_find?_eq_some he)
    exact ⟨pre, t, ttl, post, hsplit, hdeadline ▸ hlive, hpost⟩
  · rintro ⟨pre, t, ttl, post, hsplit, hlive, hpost⟩
    have hmem : (⟨key, value, t + ttl⟩ : Entry κ ν) ∈ run history :=
      mem_run.mpr ⟨pre, t, ttl, post, hsplit, rfl, hpost⟩
    cases hfind : (run history).find? fun e => e.key = key ∧ now ≤ e.deadline with
    | none => exact absurd (decide_eq_true ⟨rfl, hlive⟩) (List.find?_eq_none.mp hfind _ hmem)
    | some e =>
        have hfound := List.find?_some hfind
        obtain ⟨hkey, -⟩ := of_decide_eq_true hfound
        have hsame : e = ⟨key, value, t + ttl⟩ :=
          List.inj_on_of_nodup_map (nodup_run history) (List.mem_of_find?_eq_some hfind) hmem hkey
        exact ⟨e, rfl, by rw [hsame]⟩

/-- The keys that are listed are those that can be read. -/
lemma mem_keys_iff :
    key ∈ keys now (run history) ↔ ∃ value, get now (run history) key = some value := by
  rw [keys, List.mem_map]
  constructor
  · rintro ⟨e, he, rfl⟩
    obtain ⟨hmem, hlive⟩ := List.mem_filter.mp he
    obtain ⟨pre, t, ttl, post, hsplit, hdeadline, hpost⟩ := mem_run.mp hmem
    exact ⟨e.value, get_run.mpr ⟨pre, t, ttl, post, hsplit,
      hdeadline ▸ of_decide_eq_true hlive, hpost⟩⟩
  · rintro ⟨value, hvalue⟩
    obtain ⟨pre, t, ttl, post, hsplit, hlive, hpost⟩ := get_run.mp hvalue
    have hmem : (⟨key, value, t + ttl⟩ : Entry κ ν) ∈ run history :=
      mem_run.mpr ⟨pre, t, ttl, post, hsplit, rfl, hpost⟩
    exact ⟨_, List.mem_filter.mpr ⟨hmem, decide_eq_true hlive⟩, rfl⟩

end ExpiringStore
