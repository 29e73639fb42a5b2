/-
  Highlighting/Proofs/NumberLiteral.lean
  ======================================
  **Number literals lie within the text**, and are searched for steadily.

  All candidates for the end of a literal are behind its start, since each
  comes from characters that have been looked at (`within_of_matchAt?`).  A
  search looks only where a literal can start, and every one starts there
  (`endAt?_eq_matchAt?`).
-/
import Highlighting.NumberLiteral
import Highlighting.Proofs.Text.Search

namespace Highlighting.NumberLiteral

open Search

variable {text : Source} {digit : Char → Bool} {pos stop : Nat}

theorem lt_size_of_any {p : Char → Bool} (h : (text[pos]?).any p = true) : pos < text.size := by
  rw [Option.any_eq_true] at h
  obtain ⟨c, hc, -⟩ := h
  exact (Array.getElem?_eq_some_iff.mp hc).1

theorem lt_size_of_beq {c : Char} (h : (text[pos]? == some c) = true) : pos < text.size := by
  rw [beq_iff_eq] at h
  exact (Array.getElem?_eq_some_iff.mp h).1

/-! ### Candidates -/

theorem mem_groupEndsFrom {fuel : Nat} {shorter : List Nat} (hpos : pos ≤ text.size)
    (h : stop ∈ groupEndsFrom text digit fuel pos shorter) :
    stop ∈ shorter ∨ pos ≤ stop ∧ stop ≤ text.size := by
  induction fuel generalizing pos shorter with
  | zero =>
    rcases List.mem_cons.mp h with rfl | h
    · exact .inr ⟨Nat.le_refl _, hpos⟩
    · exact .inl h
  | succ fuel ih =>
    have hlater : ∀ {q : Nat}, pos ≤ q → q ≤ text.size →
        stop ∈ groupEndsFrom text digit fuel q (pos :: shorter) →
        stop ∈ shorter ∨ pos ≤ stop ∧ stop ≤ text.size := by
      intro q hq hsize h
      rcases ih hsize h with h | ⟨h1, h2⟩
      · rcases List.mem_cons.mp h with rfl | h
        · exact .inr ⟨Nat.le_refl _, hpos⟩
        · exact .inl h
      · exact .inr ⟨Nat.le_trans hq h1, h2⟩
    rw [groupEndsFrom] at h
    split at h
    · next hdigit => exact hlater (Nat.le_succ _) (lt_size_of_any hdigit) h
    · split at h
      · next hdigit =>
        rw [Bool.and_eq_true] at hdigit
        exact hlater (Nat.le_add_right _ _) (lt_size_of_any hdigit.2) h
      · rcases List.mem_cons.mp h with rfl | h
        · exact .inr ⟨Nat.le_refl _, hpos⟩
        · exact .inl h

theorem mem_groupEnds (h : stop ∈ groupEnds text digit pos) : pos < stop ∧ stop ≤ text.size := by
  rw [groupEnds] at h
  split at h
  · next hdigit =>
    rcases mem_groupEndsFrom (lt_size_of_any hdigit) h with h | h
    · cases h
    · exact h
  · cases h

theorem mem_exponentEnds (h : stop ∈ exponentEnds text pos) : pos < stop ∧ stop ≤ text.size := by
  rw [exponentEnds] at h
  split at h
  · split at h
    · have hstop := mem_groupEnds h
      omega
    · have hstop := mem_groupEnds h
      omega
  · cases h

theorem mem_mantissaEnds (h : stop ∈ mantissaEnds text pos) : pos < stop ∧ stop ≤ text.size := by
  rw [mantissaEnds] at h
  split at h
  · obtain ⟨integer, hinteger, h⟩ := List.mem_flatMap.mp h
    have hint := mem_groupEnds hinteger
    split at h
    · next hpoint =>
      have hlt : integer < text.size := lt_size_of_beq hpoint
      rw [List.mem_append, List.mem_cons, List.mem_singleton] at h
      rcases h with h | rfl | rfl
      · have hstop := mem_groupEnds h
        omega
      · omega
      · omega
    · rw [List.mem_singleton] at h
      subst h
      exact hint
  · split at h
    · have hstop := mem_groupEnds h
      omega
    · cases h

/-! ### Literals -/

theorem within_of_hexEnd? (h : hexEnd? text pos = some stop) :
    pos < stop ∧ stop ≤ text.size := by
  rw [hexEnd?] at h
  split at h
  · have hstop := mem_groupEnds (List.mem_of_find?_eq_some h)
    omega
  · cases h

theorem within_of_decimalEnd? (h : decimalEnd? text pos = some stop) :
    pos < stop ∧ stop ≤ text.size := by
  obtain ⟨mantissa, hmantissa, h⟩ := List.exists_of_findSome?_eq_some h
  have hm := mem_mantissaEnds hmantissa
  rcases List.mem_append.mp (List.mem_of_find?_eq_some h) with h | h
  · have hstop := mem_exponentEnds h
    omega
  · rw [List.mem_singleton] at h
    subst h
    exact hm

theorem within_of_zeroEnd? (h : zeroEnd? text pos = some stop) :
    pos < stop ∧ stop ≤ text.size := by
  rw [zeroEnd?] at h
  split at h
  · next hzero =>
    cases h
    rw [Bool.and_eq_true, Bool.and_eq_true] at hzero
    have hlt : pos < text.size := lt_size_of_beq hzero.1.1
    omega
  · cases h

/-- **A literal takes at least one character of the text.** -/
theorem within_of_matchAt? (h : matchAt? text pos = some stop) :
    pos < stop ∧ stop ≤ text.size := by
  simp only [matchAt?, Option.orElse_eq_orElse, Option.orElse_eq_or, Option.or_eq_some_iff] at h
  have hbody : pos ≤ if (text[pos]? == some '-') = true then pos + 1 else pos := by
    split <;> omega
  rcases h with h | ⟨-, h⟩
  · have hstop := within_of_hexEnd? h
    omega
  · rcases h with h | ⟨-, h⟩
    · have hstop := within_of_decimalEnd? h
      omega
    · have hstop := within_of_zeroEnd? h
      omega

theorem matchAt?_size (text : Source) : matchAt? text text.size = none := by
  cases h : matchAt? text text.size with
  | none => rfl
  | some stop =>
    have hstop := within_of_matchAt? h
    omega

/-! ### What a literal starts with -/

theorem any_of_beq {p : Char → Bool} {c : Char} (h : (text[pos]? == some c) = true)
    (hc : p c = true) : (text[pos]?).any p = true := by
  rw [beq_iff_eq] at h
  rw [h, Option.any_some, hc]

theorem startsUnsigned_of_mem_mantissaEnds (h : stop ∈ mantissaEnds text pos) :
    (text[pos]?).any startsUnsigned = true := by
  rw [mantissaEnds] at h
  split at h
  · next hdigit =>
    rw [Bool.and_eq_true, Option.any_eq_true] at hdigit
    obtain ⟨⟨c, hc, hdigit⟩, -⟩ := hdigit
    rw [Bool.and_eq_true] at hdigit
    rw [hc, Option.any_some, startsUnsigned, hdigit.1, Bool.true_or]
  · split at h
    · next hpoint => exact any_of_beq hpoint rfl
    · cases h

theorem startsUnsigned_of_hexEnd? (h : hexEnd? text pos = some stop) :
    (text[pos]?).any startsUnsigned = true := by
  rw [hexEnd?] at h
  split at h
  · next hzero =>
    rw [Bool.and_eq_true, Bool.and_eq_true] at hzero
    exact any_of_beq hzero.1.1 rfl
  · cases h

theorem startsUnsigned_of_decimalEnd? (h : decimalEnd? text pos = some stop) :
    (text[pos]?).any startsUnsigned = true := by
  obtain ⟨mantissa, hmantissa, -⟩ := List.exists_of_findSome?_eq_some h
  exact startsUnsigned_of_mem_mantissaEnds hmantissa

theorem startsUnsigned_of_zeroEnd? (h : zeroEnd? text pos = some stop) :
    (text[pos]?).any startsUnsigned = true := by
  rw [zeroEnd?] at h
  split at h
  · next hzero =>
    rw [Bool.and_eq_true, Bool.and_eq_true] at hzero
    exact any_of_beq hzero.1.1 rfl
  · cases h

theorem startsLiteral_of_matchAt? (h : matchAt? text pos = some stop) :
    (text[pos]?).any startsLiteral = true := by
  simp only [matchAt?, Option.orElse_eq_orElse, Option.orElse_eq_or, Option.or_eq_some_iff] at h
  split at h
  · next hminus => exact any_of_beq hminus rfl
  · have hunsigned : (text[pos]?).any startsUnsigned = true := by
      rcases h with h | ⟨-, h⟩
      · exact startsUnsigned_of_hexEnd? h
      · rcases h with h | ⟨-, h⟩
        · exact startsUnsigned_of_decimalEnd? h
        · exact startsUnsigned_of_zeroEnd? h
    obtain ⟨c, hc, hstarts⟩ := (Option.any_eq_true _ _).mp hunsigned
    rw [hc, Option.any_some, startsLiteral, hstarts, Bool.true_or]

/-- **No literal is lost by the characters that are passed over.** -/
theorem endAt?_eq_matchAt? (text : Source) (pos : Nat) : endAt? text pos = matchAt? text pos := by
  rw [endAt?]
  split
  · rfl
  · next hstarts =>
    cases h : matchAt? text pos with
    | none => rfl
    | some stop => exact absurd (startsLiteral_of_matchAt? h) hstarts

/-! ### Searches -/

theorem find_eq_ofEnds (text : Source) (pos : Nat) :
    NumberLiteral.find text pos = ofEnds text.size (matchAt? text) pos := by
  rw [NumberLiteral.find, funext (endAt?_eq_matchAt? text)]
  cases hs : ofEnds text.size (matchAt? text) pos with
  | none =>
    rw [ofEnds_eq_none_iff] at hs
    rw [leftmost_eq_none_iff]
    exact fun p h1 h2 => hs p h1 (by omega)
  | some s =>
    obtain ⟨h1, h2, hend, hfirst⟩ := ofEnds_eq_some_iff.mp hs
    have hne : s.start ≠ text.size := by
      intro heq
      rw [heq, matchAt?_size] at hend
      cases hend
    rw [leftmost_eq_some_iff]
    exact ⟨h1, by omega, hend, hfirst⟩

theorem isSteady (text : Source) : IsSteady text.size (NumberLiteral.find text ·) :=
  isSteady_ofEnds.congr (find_eq_ofEnds text)

theorem isWithin (text : Source) : IsWithin text.size (NumberLiteral.find text ·) := by
  apply IsWithin.congr _ (find_eq_ofEnds text)
  apply isWithin_ofEnds
  intro p stop _ h
  have hstop := within_of_matchAt? h
  exact ⟨Nat.le_of_lt hstop.1, hstop.2⟩

end Highlighting.NumberLiteral
