/-
  Highlighting/Proofs/Regex/Normal.lean
  =====================================
  **Normal forms match what they were made of.**

  Ranges that touch become one, with the same characters in it
  (`CharSet.contains_simplified`).  Sequences are taken apart and put together
  again with all their ends in order (`Regex.ends_joined`).  A choice between
  single characters becomes a set, so that at most the order of the ends is
  another one (`Regex.mem_ends_among`).

  Words that are spelled out share no beginning: each is a single unit.  So a
  choice between words ends where one of them does
  (`Regex.mem_ends_chosen_spellings`).
-/
import Mathlib.Data.List.SplitBy
import Highlighting.Proofs.Regex.Enclosed
import Highlighting.Proofs.Regex.Language
import Highlighting.Proofs.Regex.Passing

namespace Highlighting

variable {text : Source} {p e : Nat} {c : Char}

/-! ### Sets -/

theorem Char.le_iff_toNat {c d : Char} : c ≤ d ↔ c.toNat ≤ d.toNat := UInt32.le_iff_toNat_le

theorem Char.lt_iff_toNat {c d : Char} : c < d ↔ c.toNat < d.toNat := UInt32.lt_iff_toNat_lt

namespace CharSet

variable {r q : Char × Char} {rs qs : List (Char × Char)} {s : CharSet}

/-- The character lies in the range. -/
def Within (c : Char) (r : Char × Char) : Prop := r.1 ≤ c ∧ c ≤ r.2

/-- Ranges that touch have the characters of both when they become one. -/
theorem within_touching (h : ¬ r.2.toNat + 1 < q.1.toNat) (h' : ¬ q.2.toNat + 1 < r.1.toNat) :
    Within c (if q.1 < r.1 then q.1 else r.1, if q.2 < r.2 then r.2 else q.2) ↔
      Within c r ∨ Within c q := by
  simp only [Within, Char.le_iff_toNat, Char.lt_iff_toNat]
  split_ifs <;> omega

theorem within_insertRange :
    (∃ r' ∈ insertRange r qs, Within c r') ↔ Within c r ∨ ∃ q ∈ qs, Within c q := by
  induction qs generalizing r with
  | nil => simp [insertRange]
  | cons q qs ih =>
    rw [insertRange]
    split
    · simp
    · next htouch =>
      split
      · simp only [List.exists_mem_cons_iff, ih]
        exact or_left_comm
      · next htouch' =>
        rw [ih, within_touching htouch htouch', List.exists_mem_cons_iff, or_assoc]

theorem within_foldl_insertRange :
    (∃ r ∈ rs.foldl (fun qs r => insertRange r qs) qs, Within c r) ↔
      (∃ q ∈ qs, Within c q) ∨ ∃ r ∈ rs, Within c r := by
  induction rs generalizing qs with
  | nil => simp
  | cons r rs ih =>
    rw [List.foldl_cons, ih, within_insertRange, List.exists_mem_cons_iff, or_assoc, or_left_comm]

theorem contains_unionAll (ss : List CharSet) (c : Char) :
    (unionAll ss).contains c = true ↔ ∃ s ∈ ss, s.contains c = true := by
  induction ss with
  | nil => simp [unionAll, contains]
  | cons s ss ih =>
    cases ss with
    | nil => simp [unionAll]
    | cons t ss =>
      show (union s (unionAll (t :: ss))).contains c = true ↔ _
      rw [contains, Bool.or_eq_true, ih, List.exists_mem_cons_iff _ s]

theorem contains_range : (range r.1 r.2).contains c = true ↔ Within c r := by
  rw [contains, Bool.and_eq_true, decide_eq_true_eq, decide_eq_true_eq, Within]

theorem contains_ofRanges : (ofRanges rs).contains c = true ↔ ∃ r ∈ rs, Within c r := by
  rw [ofRanges, contains_unionAll]
  simp only [List.mem_map, exists_exists_and_eq_and, contains_range]
  rw [within_foldl_insertRange]
  constructor
  · rintro (⟨q, hq, -⟩ | ⟨r, hr, h⟩)
    · cases hq
    · exact ⟨r, List.mem_of_mem_filter hr, h⟩
  · rintro ⟨r, hr, h⟩
    exact .inr ⟨r, List.mem_filter.mpr ⟨hr, decide_eq_true (Char.le_trans h.1 h.2)⟩, h⟩

theorem contains_of_ranges? (h : s.ranges? = some rs) :
    s.contains c = true ↔ ∃ r ∈ rs, Within c r := by
  induction s generalizing rs with
  | empty =>
    cases h
    simp [contains]
  | range first last =>
    cases h
    simp [contains, Within]
  | union s t ihs iht =>
    obtain ⟨rs₁, h₁, h⟩ := Option.bind_eq_some_iff.mp h
    obtain ⟨rs₂, h₂, h⟩ := Option.bind_eq_some_iff.mp h
    cases h
    rw [contains, Bool.or_eq_true, ihs h₁, iht h₂]
    simp only [List.mem_append, or_and_right, exists_or]
  | word | digit | space | table | compl | inter | folded => cases h

/-- **A set that is made of ranges keeps its characters.** -/
theorem contains_simplified (h : s.ranges?.isSome = true) (c : Char) :
    s.simplified.contains c = s.contains c := by
  obtain ⟨rs, hrs⟩ := Option.isSome_iff_exists.mp h
  rw [Bool.eq_iff_iff, contains_of_ranges? hrs, ← contains_ofRanges, simplified.eq_def, hrs]

theorem isSome_ranges?_unionAll {ss : List CharSet} (h : ∀ s ∈ ss, s.ranges?.isSome = true) :
    (unionAll ss).ranges?.isSome = true := by
  induction ss with
  | nil => rfl
  | cons s ss ih =>
    have hrest := ih fun t ht => h t (List.mem_cons_of_mem _ ht)
    cases ss with
    | nil => exact h s List.mem_cons_self
    | cons t ss =>
      obtain ⟨rs, hrs⟩ := Option.isSome_iff_exists.mp (h s List.mem_cons_self)
      obtain ⟨qs, hqs⟩ := Option.isSome_iff_exists.mp hrest
      simp [unionAll, ranges?, hrs, hqs]

end CharSet

namespace Regex

variable {r : Regex} {rs ss : List Regex}

/-! ### Sequences -/

theorem ends_seqAll_cons (r : Regex) (rs : List Regex) (p : Nat) :
    (seqAll (r :: rs)).ends text p = (r.ends text p).flatMap ((seqAll rs).ends text) := by
  cases rs with
  | nil => exact (List.flatMap_singleton' _).symm
  | cons s rs => rfl

theorem ends_seqAll_append (rs ss : List Regex) (p : Nat) :
    (seqAll (rs ++ ss)).ends text p =
      ((seqAll rs).ends text p).flatMap ((seqAll ss).ends text) := by
  induction rs generalizing p with
  | nil => exact (List.flatMap_singleton ..).symm
  | cons r rs ih =>
    rw [List.cons_append, ends_seqAll_cons, ends_seqAll_cons, List.flatMap_assoc, funext ih]

theorem ends_seqAll_factors (r : Regex) (p : Nat) :
    (seqAll r.factors).ends text p = r.ends text p := by
  induction r generalizing p with
  | empty | set _ | anchor _ | alt _ _ | group _ _ | rep _ _ _ _ => rfl
  | seq first second ih₁ ih₂ =>
    rw [factors, ends_seqAll_append, ih₁, ends, funext ih₂]

/-- **A sequence in normal form ends as its parts do in turn.** -/
theorem ends_joined (rs : List Regex) (p : Nat) :
    (joined rs).ends text p = (seqAll rs).ends text p := by
  rw [joined]
  induction rs generalizing p with
  | nil => rfl
  | cons r rs ih =>
    rw [List.flatMap_cons, ends_seqAll_append, ends_seqAll_factors, funext ih, ends_seqAll_cons]

/-! ### Choices -/

theorem mem_ends_seq {first second : Regex} :
    e ∈ (seq first second).ends text p ↔ ∃ m ∈ first.ends text p, e ∈ second.ends text m :=
  List.mem_flatMap

theorem altAll_cons (r : Regex) (hrs : rs ≠ []) : altAll (r :: rs) = alt r (altAll rs) := by
  cases rs with
  | nil => exact absurd rfl hrs
  | cons s rs => rfl

theorem mem_ends_altAll (hrs : rs ≠ []) :
    e ∈ (altAll rs).ends text p ↔ ∃ r ∈ rs, e ∈ r.ends text p := by
  induction rs with
  | nil => exact absurd rfl hrs
  | cons r rs ih =>
    cases rs with
    | nil => simp [altAll]
    | cons s rs =>
      rw [altAll_cons r (by simp), ends, List.mem_append, ih (by simp),
        List.exists_mem_cons_iff _ r]

theorem eq_map_of_sets? {sets : List CharSet} (h : sets? rs = some sets) :
    rs = sets.map set := by
  induction rs generalizing sets with
  | nil =>
    cases h
    rfl
  | cons r rs ih =>
    rw [sets?, List.mapM_cons] at h
    obtain ⟨s, hs, h⟩ := Option.bind_eq_some_iff.mp h
    obtain ⟨sets', hsets, h⟩ := Option.bind_eq_some_iff.mp h
    cases h
    rw [List.map_cons, ih hsets]
    cases r with
    | set t =>
      cases hs
      rfl
    | empty | anchor _ | seq _ _ | alt _ _ | group _ _ | rep _ _ _ _ => cases hs

/-- **A choice ends where one of its alternatives does.** -/
theorem mem_ends_among (hrs : rs ≠ []) (hsets : ∀ s, set s ∈ rs → s.ranges?.isSome = true) :
    e ∈ (among rs).ends text p ↔ ∃ r ∈ rs, e ∈ r.ends text p := by
  rw [among]
  split
  · next sets h =>
    obtain rfl := eq_map_of_sets? h
    have hranges := CharSet.isSome_ranges?_unionAll fun s hs => hsets s (List.mem_map_of_mem hs)
    have hmem : ∀ s, e ∈ (set s).ends text p ↔ ∃ c, text[p]? = some c ∧ s.contains c = true ∧
        e = p + 1 := by
      intro s
      rw [ends]
      cases text[p]? with
      | none => simp
      | some c => cases hs : s.contains c <;> simp [hs]
    simp only [List.mem_map, exists_exists_and_eq_and, hmem, CharSet.contains_simplified hranges,
      CharSet.contains_unionAll]
    constructor
    · rintro ⟨c, hc, ⟨s, hs, hcontains⟩, rfl⟩
      exact ⟨s, hs, c, hc, hcontains, rfl⟩
    · rintro ⟨s, hs, c, hc, hcontains, rfl⟩
      exact ⟨c, hc, ⟨s, hs, hcontains⟩, rfl⟩
  · exact mem_ends_altAll hrs

/-! ### Words -/

/-- The word, character by character. -/
def spelling (cs : List Char) : Regex := seqAll (cs.map char)

variable {cs : List Char} {ws : List (List Char)}

theorem mem_language_spelling {w : List Char} : w ∈ (spelling cs).language ↔ w = cs := by
  induction cs generalizing w with
  | nil => rfl
  | cons c cs ih =>
    have hcons : (spelling (c :: cs)).language =
        NumberLiteral.one (CharSet.single c).contains * (spelling cs).language := by
      cases cs with
      | nil => exact (mul_one _).symm
      | cons d cs => rfl
    rw [hcons, Language.mem_mul]
    constructor
    · rintro ⟨_, ⟨d, hd, rfl⟩, v, hv, rfl⟩
      rw [CharSet.contains_single.mp hd, ih.mp hv]
      rfl
    · rintro rfl
      exact ⟨[c], ⟨c, CharSet.contains_single.mpr rfl, rfl⟩, cs, ih.mpr rfl, rfl⟩

theorem isFree_spelling (cs : List Char) : (spelling cs).isFree = true := by
  induction cs with
  | nil => rfl
  | cons c cs ih =>
    cases cs with
    | nil => rfl
    | cons d cs => exact ih

theorem mem_ends_spelling (hp : p ≤ text.size) :
    e ∈ (spelling cs).ends text p ↔ p ≤ e ∧ e ≤ text.size ∧ text.chars ⟨p, e⟩ = cs := by
  rw [mem_ends_iff _ (isFree_spelling cs) hp]
  constructor
  · exact fun h => ⟨h.le, h.le_size, mem_language_spelling.mp h.mem⟩
  · exact fun ⟨hle, hsize, hchars⟩ => ⟨hle, hsize, mem_language_spelling.mpr hchars⟩

theorem alternatives_spelling (cs : List Char) : (spelling cs).alternatives = [spelling cs] := by
  match cs with
  | [] | [_] | _ :: _ :: _ => rfl

theorem factors_spelling (cs : List Char) : (spelling cs).factors = cs.map char := by
  induction cs with
  | nil => rfl
  | cons c cs ih =>
    cases cs with
    | nil => rfl
    | cons d cs =>
      show [char c] ++ (spelling (d :: cs)).factors = _
      rw [ih]
      rfl

/-- All characters of a word are one unit. -/
theorem units_spelling (hcs : cs ≠ []) : (spelling cs).units = [cs.map char] := by
  rw [units, factors_spelling]
  have hliteral : ∀ r ∈ cs.map char, r.isLiteral = true := by
    intro r hr
    obtain ⟨c, -, rfl⟩ := List.mem_map.mp hr
    exact beq_self_eq_true c
  refine List.splitBy_of_isChain (by simpa using hcs) (List.Pairwise.isChain ?_)
  refine List.pairwise_of_forall_mem_list fun r hr s hs => ?_
  rw [hliteral r hr, hliteral s hs]
  rfl

theorem sharedUnits_spellings (hne : ∀ w ∈ ws, w ≠ []) : sharedUnits (ws.map spelling) = [] := by
  cases ws with
  | nil => rfl
  | cons w ws =>
    rw [sharedUnits, List.map_cons, List.map_cons, units_spelling (hne w List.mem_cons_self)]
    rfl

theorem chosen_spellings (hne : ∀ w ∈ ws, w ≠ []) :
    chosen (ws.map spelling) = among (ws.map spelling) := by
  have hflat : (ws.map spelling).flatMap alternatives = ws.map spelling := by
    rw [List.flatMap_map]
    simp only [alternatives_spelling]
    exact List.flatMap_pure_eq_map spelling ws
  rw [chosen, hflat]
  split
  · next r hr =>
    -- a single word is a choice by itself
    obtain ⟨w, rfl, rfl⟩ : ∃ w, ws = [w] ∧ spelling w = r := by simpa using hr
    match w with
    | [] | _ :: _ :: _ => rfl
    | [c] => exact (congrArg set (simplified_single c)).symm
  · rw [sharedUnits_spellings hne]
    rfl

theorem mem_ends_chosen_iff (hws : ws ≠ []) (hne : ∀ w ∈ ws, w ≠ []) :
    e ∈ (chosen (ws.map spelling)).ends text p ↔ ∃ r ∈ ws.map spelling, e ∈ r.ends text p := by
  have hsets : ∀ s, set s ∈ ws.map spelling → s.ranges?.isSome = true := by
    intro s hs
    obtain ⟨w, -, hw⟩ := List.mem_map.mp hs
    match w, hw with
    | [c], rfl => rfl
  rw [chosen_spellings hne, mem_ends_among (by simpa using hws) hsets]

/-- **A choice between words ends where one of them does.** -/
theorem mem_ends_chosen_spellings (hws : ws ≠ []) (hne : ∀ w ∈ ws, w ≠ []) (hp : p ≤ text.size) :
    e ∈ (chosen (ws.map spelling)).ends text p ↔
      p ≤ e ∧ e ≤ text.size ∧ text.chars ⟨p, e⟩ ∈ ws := by
  rw [mem_ends_chosen_iff hws hne]
  simp only [List.mem_map, exists_exists_and_eq_and, mem_ends_spelling hp]
  constructor
  · rintro ⟨w, hw, hle, hsize, rfl⟩
    exact ⟨hle, hsize, hw⟩
  · rintro ⟨hle, hsize, hw⟩
    exact ⟨_, hw, hle, hsize, rfl⟩

end Regex

end Highlighting
