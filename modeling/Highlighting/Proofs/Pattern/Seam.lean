/-
  Highlighting/Proofs/Pattern/Seam.lean
  =====================================
  **Matches of a pattern around a character**, in a text that goes on behind it.

  The guards look at one character at each edge of a match.  So behind the seam
  of `u ++ v` a pattern matches what it matches in `v`, unless a guard refuses
  the character that `u` ends with (`Pattern.endAt?_append_add`).  In front of it
  a pattern matches what it matches in `u`, as long as no guard looks over the
  seam (`Pattern.endAt?_append`); one that runs on over such characters matches
  at the same places at least (`Pattern.near_endAt?`).
-/
import Highlighting.Proofs.Grammar.Listed
import Highlighting.Proofs.NumberLiteral.Seam
import Highlighting.Proofs.Regex.Seam

namespace Highlighting.Pattern

open Search
open Regex (Near)
open Source (EndsWith)

variable {u v : Source} {c : Char} {pattern : Pattern} {p : Nat}

/-! ### Behind the seam -/

/-- What the pattern matches at the start of a text, it matches behind the character. -/
def mayFollow (c : Char) : Pattern → Bool
  | regex (.regular (.listing r)) notAfter _ _ => r.mayFollow c && notAfter != some c
  | regex _ _ _ _ => false
  | number => NumberLiteral.breaks c
  | never => true

/-- So it does where numbers may follow a sign or a point, too. -/
def startsBehind (c : Char) : Pattern → Bool
  | number => !NumberLiteral.continuesWord c
  | pattern => pattern.mayFollow c

theorem startsBehind_of_mayFollow (h : pattern.mayFollow c = true) :
    pattern.startsBehind c = true := by
  cases pattern with
  | regex | never => exact h
  | number => exact (Bool.not_eq_true' _).mpr (NumberLiteral.continuesWord_of_breaks h)

theorem refuses_append_add (hend : EndsWith c u) {notAfter : Option Char}
    (hafter : notAfter ≠ some c) (notBefore : List Char) (s t : Nat) :
    refuses notAfter notBefore (u ++ v) ⟨u.size + s, u.size + t⟩ =
      refuses notAfter notBefore v ⟨s, t⟩ := by
  rw [refuses, refuses, Source.before?_append_add hend, Source.getElem?_append_add]
  cases s with
  | zero =>
    have hguard : (notAfter == some c) = false := beq_eq_false_iff_ne.mpr hafter
    show ((notAfter == some c) || _) = (false || _)
    rw [hguard]
  | succ s => rfl

/-- What is left out at the end of a match has been taken. -/
theorem trim_le {r : Regex} {notAfter : Option Char} {notBefore : List Char} {trim e : Nat}
    {text : Source}
    (hlisted : (regex (.regular (.listing r)) notAfter notBefore trim).isListed = true)
    (hp : p ≤ text.size) (he : r.firstEnd? text p = some e) : trim ≤ e := by
  rw [isListed, Bool.or_eq_true, beq_iff_eq, Bool.and_eq_true, beq_iff_eq, Bool.not_eq_true']
    at hlisted
  rcases hlisted with rfl | ⟨rfl, hr⟩
  · exact Nat.zero_le e
  · have hlt := r.lt_of_mem_ends hr hp (List.mem_of_head? he)
    omega

/-- **Behind the seam the pattern matches what it matches in the rest alone.** -/
theorem endAt?_append_add_of_startsBehind (hend : EndsWith c u) (hlisted : pattern.isListed = true)
    (hbehind : pattern.startsBehind c = true) (p : Nat) :
    endAt? (pattern.find (u ++ v) ·) (u.size + p) =
      (endAt? (pattern.find v ·) p).map (u.size + ·) := by
  have hsize : (u ++ v).size = u.size + v.size := Array.size_append
  rcases Nat.lt_or_ge v.size p with hgt | hp
  · rw [endAt?_of_gt hgt, endAt?_of_gt (by omega)]
    rfl
  have hp' : u.size + p ≤ (u ++ v).size := by omega
  cases pattern with
  | regex e notAfter notBefore trim =>
    have hfollow : mayFollow c (regex e notAfter notBefore trim) = true := hbehind
    unfold mayFollow at hfollow
    split at hfollow
    · next r notAfter notBefore trim heq =>
      cases heq
      rw [Bool.and_eq_true, bne_iff_ne] at hfollow
      have hends : r.firstEnd? (u ++ v) (u.size + p) = (r.firstEnd? v p).map (u.size + ·) := by
        rw [Regex.firstEnd?, Regex.firstEnd?, r.ends_append_add hend hfollow.1, List.head?_map]
      rw [endAt?_listing hp, endAt?_listing hp', hends]
      cases he : r.firstEnd? v p with
      | none => rfl
      | some e =>
        have hstop : u.size + e - trim = u.size + (e - trim) :=
          Nat.add_sub_assoc (trim_le hlisted hp he) u.size
        simp only [Option.map_some, Option.bind_some, guarded, hstop,
          refuses_append_add hend hfollow.2]
        split <;> rfl
    · cases hfollow
    · next heq => cases heq
    · next heq => cases heq
  | number =>
    rw [startsBehind, Bool.not_eq_true'] at hbehind
    rw [endAt?_number hp, endAt?_number hp', NumberLiteral.matchAt?_append_add hbehind hend]
  | never => rfl

theorem endAt?_append_add (hend : EndsWith c u) (hlisted : pattern.isListed = true)
    (hfollow : pattern.mayFollow c = true) (p : Nat) :
    endAt? (pattern.find (u ++ v) ·) (u.size + p) =
      (endAt? (pattern.find v ·) p).map (u.size + ·) :=
  endAt?_append_add_of_startsBehind hend hlisted (startsBehind_of_mayFollow hfollow) p

/-! ### In front of the seam -/

/-- The pattern never takes the character. -/
def spares (c : Char) : Pattern → Bool
  | regex (.regular (.listing r)) _ _ _ => r.spares c
  | regex _ _ _ _ => false
  | number => NumberLiteral.breaks c
  | never => true

/-- A match does not reach beyond such a character. -/
theorem le_of_spares {text : Source} {q stop : Nat} (hq : text[q]? = some c)
    (h : pattern.spares c = true) (hp : p ≤ q)
    (hend : endAt? (pattern.find text ·) p = some stop) : stop ≤ q := by
  unfold spares at h
  split at h
  · obtain ⟨-, e, he, rfl, -⟩ := endAt?_listing_eq_some_iff.mp hend
    have hle := Regex.le_of_mem_ends_of_spares _ hq h hp (List.mem_of_head? he)
    omega
  · cases h
  · have hlt := (Array.getElem?_eq_some_iff.mp hq).1
    rw [endAt?_number (by omega)] at hend
    exact NumberLiteral.le_of_matchAt? h hq hp hend
  · cases hend

/-- The pattern takes the character only as the last one, and only where no guard looks at what
comes next. -/
def stopsAt (c : Char) : Pattern → Bool
  | regex (.regular (.listing r)) _ notBefore _ =>
    r.spares c || r.stopsAt c && notBefore.isEmpty
  | regex _ _ _ _ => false
  | number => NumberLiteral.breaks c
  | never => true

theorem refuses_nil (notAfter : Option Char) (text : Source) (s : Span) :
    refuses notAfter [] text s = (text.before? s.start).any (notAfter == some ·) := by
  have hnone : ∀ c : Option Char, c.any List.nil.contains = false := by
    intro c
    cases c <;> rfl
  rw [refuses, hnone, Bool.or_false]

theorem refuses_none (text : Source) (s : Span) : refuses none [] text s = false := by
  rw [refuses_nil]
  cases text.before? s.start <;> rfl

theorem refuses_append {notAfter : Option Char} {notBefore : List Char} {s : Nat} {t : Nat}
    (hs : s ≤ u.size) (ht : t < u.size ∨ notBefore = []) :
    refuses notAfter notBefore (u ++ v) ⟨s, t⟩ = refuses notAfter notBefore u ⟨s, t⟩ := by
  rcases ht with ht | rfl
  · rw [refuses, refuses, Source.before?_append hs, Array.getElem?_append_left ht]
  · rw [refuses_nil, refuses_nil, Source.before?_append hs]

/-- **In front of the seam the pattern matches what it matches without the text behind.** -/
theorem endAt?_append (hend : EndsWith c u) (hstops : pattern.stopsAt c = true)
    (hp : p < u.size) :
    endAt? (pattern.find (u ++ v) ·) p = endAt? (pattern.find u ·) p := by
  have hp' : p ≤ (u ++ v).size := by
    rw [Array.size_append]
    omega
  unfold stopsAt at hstops
  split at hstops
  · next r notAfter notBefore trim =>
    rw [Bool.or_eq_true, Bool.and_eq_true, List.isEmpty_iff] at hstops
    have hends : r.firstEnd? (u ++ v) p = r.firstEnd? u p := by
      rw [Regex.firstEnd?, Regex.firstEnd?]
      rcases hstops with hspares | ⟨hstops, -⟩
      · rw [r.ends_append_of_spares hend hspares hp]
      · rw [r.ends_append_of_stopsAt hend hstops hp]
    rw [endAt?_listing hp', endAt?_listing (Nat.le_of_lt hp), hends]
    cases he : r.firstEnd? u p with
    | none => rfl
    | some e =>
      have hstop : e - trim < u.size ∨ notBefore = [] := by
        rcases hstops with hspares | ⟨-, hnil⟩
        · have hlt := r.lt_of_mem_ends_of_spares hend hspares hp (List.mem_of_head? he)
          exact .inl (by omega)
        · exact .inr hnil
      simp only [Option.bind_some, guarded, refuses_append (Nat.le_of_lt hp) hstop]
  · cases hstops
  · rw [endAt?_number hp', endAt?_number (Nat.le_of_lt hp),
      NumberLiteral.matchAt?_append hstops hend hp]
  · rfl

/-- The pattern takes a character and runs on over any number of these at its end, and no guard
looks at what comes next. -/
def runsOn (c : Char) : Pattern → Bool
  | regex (.regular (.listing r)) _ notBefore trim =>
    r.runsOn c && !r.nullable && notBefore.isEmpty && trim == 0
  | regex _ _ _ _ | number | never => false

theorem lt_of_runsOn {text : Source} {stop : Nat} (hruns : pattern.runsOn c = true)
    (hend : endAt? (pattern.find text ·) p = some stop) : p < stop := by
  unfold runsOn at hruns
  split at hruns
  · next r _ _ trim =>
    simp only [Bool.and_eq_true, Bool.not_eq_true', beq_iff_eq] at hruns
    obtain ⟨hp, e, he, rfl, -⟩ := endAt?_listing_eq_some_iff.mp hend
    have hlt := r.lt_of_mem_ends hruns.1.1.2 hp (List.mem_of_head? he)
    omega
  · cases hruns
  · cases hruns
  · cases hruns

theorem near_endAt? (hend : EndsWith c u) (hruns : pattern.runsOn c = true) (hp : p < u.size) :
    Near u.size (endAt? (pattern.find u ·) p) (endAt? (pattern.find (u ++ v) ·) p) := by
  have hp' : p ≤ (u ++ v).size := by
    rw [Array.size_append]
    omega
  unfold runsOn at hruns
  split at hruns
  · next r notAfter notBefore trim =>
    simp only [Bool.and_eq_true, List.isEmpty_iff, beq_iff_eq] at hruns
    obtain ⟨⟨⟨hruns, -⟩, rfl⟩, rfl⟩ := hruns
    have hnear := r.near_firstEnd? (v := v) hend hruns hp
    rw [endAt?_listing hp', endAt?_listing (Nat.le_of_lt hp)]
    generalize r.firstEnd? u p = x at hnear
    generalize r.firstEnd? (u ++ v) p = y at hnear
    cases hnear with
    | none => exact .none
    | @some e e' hsame =>
      have hrefuses : refuses notAfter [] (u ++ v) ⟨p, e'⟩ = refuses notAfter [] u ⟨p, e⟩ := by
        rw [refuses_nil, refuses_nil, Source.before?_append (Nat.le_of_lt hp)]
      simp only [Option.bind_some, guarded, Nat.sub_zero, hrefuses]
      split
      · exact .none
      · exact .some hsame
  · cases hruns
  · cases hruns
  · cases hruns

end Highlighting.Pattern
