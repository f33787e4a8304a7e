import Mathlib.Data.List.Lex
import Mathlib.Order.Fin.Basic

/-!
# JavaScript strings

The strings of the program are JavaScript strings: sequences of UTF-16 code units, compared
code unit by code unit.  Lean's `String` is a sequence of Unicode scalar values; it can hold no
lone surrogate and orders astral characters differently, so site identifiers, map keys and
texts are `JSString`s here.

The two facts the program relies on when it builds keys such as `clock:siteId` are proved at
the end: a decimal number contains no colon and determines the number, so a key determines its
parts (`ofNat_colon_inj`, `colon_ofNat_inj`).
-/

namespace SyncEngine

/-- A UTF-16 code unit. -/
abbrev CodeUnit := Fin 65536

/-- A JavaScript string. -/
abbrev JSString := List CodeUnit

instance : LawfulBEq JSString := inferInstance

namespace JSString

/-- The code unit of a character of the basic plane. -/
def codeUnit (c : Char) : CodeUnit := Fin.ofNat _ c.toNat

/-- A string literal of the source (all of them stay inside the basic plane). -/
def lit (s : String) : JSString := s.toList.map codeUnit

/-- The separator of the program's composite keys. -/
def colon : CodeUnit := codeUnit ':'

/-- A natural number as a template literal renders it. -/
def ofNat (n : Nat) : JSString := (Nat.toDigits 10 n).map codeUnit

/-- The first half of a surrogate pair. -/
def isHighSurrogate (u : CodeUnit) : Bool := 0xD800 ≤ u.val && u.val < 0xDC00

/-- The second half of a pair. -/
def isLowSurrogate (u : CodeUnit) : Bool := 0xDC00 ≤ u.val && u.val < 0xE000

/-- `[...s]`: the code points, a lone surrogate being one of its own. -/
def codePoints : JSString → List JSString
  | [] => []
  | [u] => [[u]]
  | u :: v :: rest =>
      if isHighSurrogate u && isLowSurrogate v then [u, v] :: codePoints rest
      else [u] :: codePoints (v :: rest)

/-- The encoding of one Unicode scalar value: a unit outside the surrogates, or a pair. -/
def IsScalar : JSString → Prop
  | [u] => isHighSurrogate u = false ∧ isLowSurrogate u = false
  | [u, v] => isHighSurrogate u = true ∧ isLowSurrogate v = true
  | _ => False

instance : DecidablePred IsScalar
  | [] => isFalse id
  | [u] => inferInstanceAs (Decidable (isHighSurrogate u = false ∧ isLowSurrogate u = false))
  | [u, v] => inferInstanceAs (Decidable (isHighSurrogate u = true ∧ isLowSurrogate v = true))
  | _ :: _ :: _ :: _ => isFalse id

/-! ## Code points -/

lemma codePoints_cons_of_pair {u v : CodeUnit} (hu : isHighSurrogate u = true)
    (hv : isLowSurrogate v = true) (rest : JSString) :
    codePoints (u :: v :: rest) = [u, v] :: codePoints rest := by
  rw [codePoints, hu, hv]
  rfl

lemma codePoints_cons_of_not_high {u : CodeUnit} (hu : isHighSurrogate u = false)
    (rest : JSString) : codePoints (u :: rest) = [u] :: codePoints rest := by
  cases rest with
  | nil => rfl
  | cons v rest =>
      rw [codePoints, hu]
      rfl

/-- Code points are put together to the text they were taken from. -/
lemma flatten_codePoints (s : JSString) : s.codePoints.flatten = s := by
  fun_induction codePoints s with
  | case1 => rfl
  | case2 u => rfl
  | case3 u v rest hpair ih => simp [ih]
  | case4 u v rest hpair ih => simp [ih]

/-- A text of scalar values is taken apart into them. -/
theorem codePoints_flatten {chars : List JSString} (h : ∀ c ∈ chars, IsScalar c) :
    codePoints chars.flatten = chars := by
  induction chars with
  | nil => rfl
  | cons c chars ih =>
      have hc := h c (List.mem_cons_self ..)
      have ih' := ih fun c' hc' => h c' (List.mem_cons_of_mem _ hc')
      rw [List.flatten_cons]
      match c, hc with
      | [u], hc => rw [List.singleton_append, codePoints_cons_of_not_high hc.1, ih']
      | [u, v], hc => rw [List.cons_append, List.singleton_append,
          codePoints_cons_of_pair hc.1 hc.2, ih']

/-- A code point is one code unit, or a pair of surrogates. -/
lemma eq_pair_of_mem_codePoints {s c : JSString} (h : c ∈ s.codePoints) :
    (∃ u, c = [u]) ∨ ∃ u v, isHighSurrogate u = true ∧
      isLowSurrogate v = true ∧ c = [u, v] := by
  induction s using codePoints.induct with
  | case1 => simp [codePoints] at h
  | case2 u => exact Or.inl ⟨u, by simpa [codePoints] using h⟩
  | case3 u v rest hpair ih =>
      rw [codePoints, if_pos hpair] at h
      rcases List.mem_cons.mp h with rfl | h
      · rw [Bool.and_eq_true] at hpair
        exact Or.inr ⟨u, v, hpair.1, hpair.2, rfl⟩
      · exact ih h
  | case4 u v rest hpair ih =>
      rw [codePoints, if_neg hpair] at h
      rcases List.mem_cons.mp h with rfl | h
      · exact Or.inl ⟨u, rfl⟩
      · exact ih h

lemma not_low_of_high {u : CodeUnit} (h : isHighSurrogate u = true) :
    isLowSurrogate u = false := by
  simp only [isHighSurrogate, isLowSurrogate, Bool.and_eq_true,
    decide_eq_true_eq, Bool.and_eq_false_iff, decide_eq_false_iff_not] at *
  omega

/-- A scalar value that may be read in front of a code point and behind it is that code point. -/
lemma eq_of_append_eq {s c char l m : JSString} (hc : c.IsScalar) (hchar : char ∈ s.codePoints)
    (h : c ++ l = char ++ (c ++ m)) : c = char := by
  rcases eq_pair_of_mem_codePoints hchar with ⟨u, rfl⟩ | ⟨u, v, hu, hv, rfl⟩
  · match c, hc with
    | [a], _ =>
        obtain ⟨rfl, -⟩ := List.cons.inj h
        rfl
    | [a, b], ⟨ha, hb⟩ =>
        obtain ⟨rfl, htail⟩ := List.cons.inj h
        obtain ⟨rfl, -⟩ := List.cons.inj htail
        exact absurd hb (by simp [not_low_of_high ha])
  · match c, hc with
    | [a], ⟨ha, _⟩ =>
        obtain ⟨rfl, -⟩ := List.cons.inj h
        exact absurd hu (by simp [ha])
    | [a, b], _ =>
        obtain ⟨rfl, htail⟩ := List.cons.inj h
        obtain ⟨rfl, -⟩ := List.cons.inj htail
        rfl

/-- A character may stand behind some others instead of in front only if they are the same as
it. -/
lemma flatten_append_comm_iff {s char : JSString} (hchar : char ∈ s.codePoints)
    {chars : List JSString} (hchars : ∀ c ∈ chars, c.IsScalar) :
    chars.flatten ++ char = char ++ chars.flatten ↔ ∀ c ∈ chars, c = char := by
  induction chars with
  | nil => simp
  | cons c chars ih =>
      have ih := ih fun c hc => hchars c (List.mem_cons_of_mem _ hc)
      rw [List.flatten_cons, List.forall_mem_cons]
      constructor
      · intro h
        rw [List.append_assoc] at h
        obtain rfl := eq_of_append_eq (hchars c (List.mem_cons_self ..)) hchar h
        exact ⟨rfl, ih.mp (List.append_cancel_left h)⟩
      · rintro ⟨rfl, hrest⟩
        rw [List.append_assoc, ih.mpr hrest]

/-- A code point of a text is a text of one code point. -/
lemma codePoints_of_mem {s c : JSString} (h : c ∈ s.codePoints) : c.codePoints = [c] := by
  fun_induction codePoints s with
  | case1 => simp at h
  | case2 u =>
      obtain rfl := List.mem_singleton.mp h
      rfl
  | case3 u v rest hpair ih =>
      rcases List.mem_cons.mp h with rfl | h
      · rw [codePoints, if_pos hpair, codePoints]
      · exact ih h
  | case4 u v rest _ ih =>
      rcases List.mem_cons.mp h with rfl | h
      · rfl
      · exact ih h

/-- One code point takes one unit or two. -/
lemma length_of_codePoints {c : JSString} (h : c.codePoints = [c]) :
    1 ≤ c.length ∧ c.length ≤ 2 := by
  match c, h with
  | [], h => simp [codePoints] at h
  | [_], _ => simp
  | [_, _], _ => simp
  | u :: v :: w :: rest, h =>
      rw [codePoints] at h
      split at h <;> simp at h

/-! ## Decimal numbers -/

lemma ofNat_code_lt {c : Char} (h : c.isDigit) : c.toNat < 65536 ∧ c.toNat ≠ 58 := by
  rw [Char.isDigit_iff_toNat] at h
  have h9 : ('9').toNat = 57 := rfl
  omega

lemma colon_notMem_ofNat (n : Nat) : colon ∉ ofNat n := by
  intro h
  obtain ⟨c, hc, hcolon⟩ := List.mem_map.mp h
  obtain ⟨hlt, hne⟩ := ofNat_code_lt (Nat.isDigit_of_mem_toDigits (by decide) (by decide) hc)
  have hval : c.toNat % 65536 = 58 := congrArg Fin.val hcolon
  rw [Nat.mod_eq_of_lt hlt] at hval
  exact hne hval

/-- Rendering loses nothing: reading the digits back gives the number. -/
theorem ofNat_injective : Function.Injective ofNat := by
  intro n m h
  have hback : ∀ k : Nat, (ofNat k).map (fun u => Char.ofNat u.val) = Nat.toDigits 10 k := by
    intro k
    rw [ofNat, List.map_map]
    refine (List.map_congr_left fun c hc => ?_).trans (List.map_id' _)
    have hlt := (ofNat_code_lt (Nat.isDigit_of_mem_toDigits (by decide) (by decide) hc)).1
    have hval : (codeUnit c).val = c.toNat := Nat.mod_eq_of_lt hlt
    rw [Function.comp_apply, hval, Char.ofNat_toNat]
  have hdigits : Nat.toDigits 10 n = Nat.toDigits 10 m := by rw [← hback n, ← hback m, h]
  rw [← Nat.ofDigitChars_ten_toDigits (n := n), hdigits, Nat.ofDigitChars_ten_toDigits]

/-! ## Keys determine their parts -/

lemma split_eq_of_notMem {α : Type*} {c : α} :
    ∀ {l₁ l₂ r₁ r₂ : List α}, c ∉ l₁ → c ∉ l₂ → l₁ ++ c :: r₁ = l₂ ++ c :: r₂ →
      l₁ = l₂ ∧ r₁ = r₂
  | [], [], _, _, _, _, h => by simpa using h
  | [], a :: l₂, _, _, _, h₂, h => by
      obtain ⟨rfl, -⟩ : c = a ∧ _ := by simpa using h
      simp at h₂
  | a :: l₁, [], _, _, h₁, _, h => by
      obtain ⟨rfl, -⟩ : a = c ∧ _ := by simpa using h
      simp at h₁
  | a :: l₁, b :: l₂, _, _, h₁, h₂, h => by
      obtain ⟨rfl, htail⟩ := List.cons_eq_cons.mp h
      obtain ⟨rfl, hr⟩ := split_eq_of_notMem (fun hm => h₁ (List.mem_cons_of_mem _ hm))
        (fun hm => h₂ (List.mem_cons_of_mem _ hm)) htail
      exact ⟨rfl, hr⟩

/-- A key of the form `number:string` determines both parts. -/
theorem ofNat_colon_inj {n m : Nat} {s t : JSString}
    (h : ofNat n ++ colon :: s = ofNat m ++ colon :: t) : n = m ∧ s = t := by
  obtain ⟨hnum, hrest⟩ :=
    split_eq_of_notMem (colon_notMem_ofNat n) (colon_notMem_ofNat m) h
  exact ⟨ofNat_injective hnum, hrest⟩

/-- A key of the form `string:number` determines both parts. -/
theorem colon_ofNat_inj {n m : Nat} {s t : JSString}
    (h : s ++ colon :: ofNat n = t ++ colon :: ofNat m) : s = t ∧ n = m := by
  have hrev := congrArg List.reverse h
  simp only [List.reverse_append, List.reverse_cons, List.append_assoc, List.singleton_append]
    at hrev
  obtain ⟨hnum, hrest⟩ := split_eq_of_notMem
    (fun hm => colon_notMem_ofNat n (List.mem_reverse.mp hm))
    (fun hm => colon_notMem_ofNat m (List.mem_reverse.mp hm)) hrev
  exact ⟨List.reverse_injective hrest, ofNat_injective (List.reverse_injective hnum)⟩

end JSString

end SyncEngine
