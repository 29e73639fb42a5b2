/-
  Highlighting/Proofs/Pattern/Words.lean
  ======================================
  **What a match of a pattern spells.**

  A pattern that needs one of a few characters meets one of them before it gets
  to a character that it never takes (`Pattern.met_of_needs_of_spares`), and one
  that strays from some does not match in a text of these alone
  (`Pattern.endAt?_eq_none_of_strays`).  One that spells words matches only where
  such a word is (`Pattern.chars_mem_of_spells`), as a whole word if its
  expression says so (`Pattern.isWholeWord`).  The simplest ones take a single
  character (`Pattern.endAt?_char`).
-/
import Highlighting.Proofs.Pattern.Seam
import Highlighting.Proofs.Regex.Words

namespace Highlighting.Pattern

open Search
open Regex (Met)

variable {pattern : Pattern} {text : Source} {c : Char} {cs : List Char} {p q stop : Nat}

/-- Every match has one of the characters. -/
def needs (cs : List Char) : Pattern → Bool
  | regex (.regular (.listing r)) _ _ _ => r.needs cs
  | regex _ _ _ _ | number => false
  | never => true

theorem met_of_needs_of_spares (h : pattern.needs cs = true) (hspares : pattern.spares c = true)
    (hq : text[q]? = some c) (hp : p ≤ q)
    (hend : endAt? (pattern.find text ·) p = some stop) : Met text cs p q := by
  unfold needs at h
  split at h
  · next r _ _ _ =>
    obtain ⟨hsize, e, he, -, -⟩ := endAt?_listing_eq_some_iff.mp hend
    have hmem := List.mem_of_head? he
    exact (r.met_of_needs h hsize hmem).mono (Nat.le_refl p)
      (r.le_of_mem_ends_of_spares hq hspares hp hmem)
  · cases h
  · cases h
  · cases hend

/-- Every match takes a character that is none of these. -/
def strays (cs : List Char) : Pattern → Bool
  | regex (.regular (.listing r)) _ _ _ => r.strays cs
  | regex _ _ _ _ | number => false
  | never => true

/-- **In a text of these characters alone, a pattern that strays does not match.** -/
theorem endAt?_eq_none_of_strays (h : pattern.strays cs = true) (htext : ∀ c ∈ text, c ∈ cs)
    (p : Nat) : endAt? (pattern.find text ·) p = none := by
  cases hend : endAt? (pattern.find text ·) p with
  | none => rfl
  | some stop =>
    unfold strays at h
    split at h
    · next r _ _ _ =>
      obtain ⟨hp, e, he, -, -⟩ := endAt?_listing_eq_some_iff.mp hend
      obtain ⟨c, hc, hstray⟩ := r.exists_stray h hp (List.mem_of_head? he)
      exact absurd (htext c hc) hstray
    · cases h
    · cases h
    · cases hend

/-- Every match takes a character that is none of these, ahead of all of the others. -/
def straysAhead (cs ds : List Char) : Pattern → Bool
  | regex (.regular (.listing r)) _ _ _ =>
    r.takesAhead ds fun s => (cs ++ ds).all fun c => !s.contains c
  | regex _ _ _ _ | number => false
  | never => true

theorem exists_stray_ahead {ds : List Char} (h : pattern.straysAhead cs ds = true)
    (hend : endAt? (pattern.find text ·) p = some stop) :
    ∃ q c, p ≤ q ∧ text[q]? = some c ∧ c ∉ cs ++ ds ∧
      ∀ i, p ≤ i → i < q → ∀ d ∈ ds, text[i]? ≠ some d := by
  unfold straysAhead at h
  split at h
  · next r _ _ _ =>
    obtain ⟨hp, e, he, -, -⟩ := endAt?_listing_eq_some_iff.mp hend
    obtain ⟨q, hpq, -, ⟨c, hc, s, hs, hcontains⟩, hahead⟩ :=
      r.takenAhead_of_takesAhead h hp (List.mem_of_head? he)
    refine ⟨q, c, hpq, hc, fun hmem => ?_, hahead⟩
    have hnot := List.all_eq_true.mp hs c hmem
    rw [hcontains] at hnot
    cases hnot
  · cases h
  · cases h
  · cases hend

/-- Every match is one of the words. -/
def spells (ws : List (List Char)) : Pattern → Bool
  | regex (.regular (.listing r)) _ _ trim =>
    trim == 0 && r.words?.any fun vs => vs.all ws.contains
  | regex _ _ _ _ | number => false
  | never => true

theorem chars_mem_of_spells {ws : List (List Char)} (h : pattern.spells ws = true)
    (hend : endAt? (pattern.find text ·) p = some stop) : text.chars ⟨p, stop⟩ ∈ ws := by
  unfold spells at h
  split at h
  · next r _ _ trim =>
    rw [Bool.and_eq_true, beq_iff_eq] at h
    obtain ⟨rfl, hwords⟩ := h
    obtain ⟨vs, hvs, hall⟩ := (Option.any_eq_true _ _).mp hwords
    obtain ⟨hp, e, he, rfl, -⟩ := endAt?_listing_eq_some_iff.mp hend
    have hmem := r.chars_mem_words hvs hp (List.mem_of_head? he)
    exact List.contains_iff_mem.mp (List.all_eq_true.mp hall _ hmem)
  · cases h
  · cases h
  · cases hend

/-- A match begins and ends at the edge of a word. -/
def isWholeWord : Pattern → Bool
  | regex (.regular (.listing r)) _ _ trim => trim == 0 && r.opensAtEdge && r.closesAtEdge
  | regex _ _ _ _ | number => false
  | never => true

theorem edges_of_isWholeWord (h : pattern.isWholeWord = true)
    (hend : endAt? (pattern.find text ·) p = some stop) :
    Regex.edge.holds text p = true ∧ Regex.edge.holds text stop = true := by
  unfold isWholeWord at h
  split at h
  · next r _ _ trim =>
    simp only [Bool.and_eq_true, beq_iff_eq] at h
    obtain ⟨⟨rfl, hopens⟩, hcloses⟩ := h
    obtain ⟨-, e, he, rfl, -⟩ := endAt?_listing_eq_some_iff.mp hend
    have hmem := List.mem_of_head? he
    exact ⟨r.holds_of_opensAtEdge hopens hmem, r.holds_of_closesAtEdge hcloses hmem⟩
  · cases h
  · cases h
  · cases hend

/-! ### Single characters -/

/-- The pattern takes the character. -/
def char (c : Char) : Pattern := regex (.regular (.listing (.set (.single c)))) none [] 0

theorem endAt?_char : endAt? ((char c).find text ·) p = some stop ↔
    text[p]? = some c ∧ stop = p + 1 := by
  rw [char, endAt?_listing_eq_some_iff]
  constructor
  · rintro ⟨-, e, he, rfl, -⟩
    have hmem := List.mem_of_head? he
    rw [Regex.ends] at hmem
    split at hmem
    · next d hd =>
      split at hmem
      · next hcontains =>
        rw [CharSet.contains_single.mp hcontains] at hd
        exact ⟨hd, List.mem_singleton.mp hmem⟩
      · cases hmem
    · cases hmem
  · rintro ⟨hc, rfl⟩
    have hp := (Array.getElem?_eq_some_iff.mp hc).1
    refine ⟨Nat.le_of_lt hp, p + 1, ?_, rfl, refuses_none text _⟩
    rw [Regex.firstEnd?, Regex.ends, hc]
    dsimp only
    rw [if_pos (CharSet.contains_single.mpr rfl)]
    rfl

theorem endAt?_char_eq_none (hc : text[p]? ≠ some c) : endAt? ((char c).find text ·) p = none := by
  cases hend : endAt? ((char c).find text ·) p with
  | none => rfl
  | some stop => exact absurd (endAt?_char.mp hend).1 hc

end Highlighting.Pattern
