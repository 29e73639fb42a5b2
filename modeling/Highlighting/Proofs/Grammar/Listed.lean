/-
  Highlighting/Proofs/Grammar/Listed.lean
  =======================================
  **Grammars whose expressions are searched for by the list of their ends.**

  Where a match of such an expression starts and ends can be read off the list
  alone (`Pattern.endAt?_listing`), and nothing has to be taken for granted of
  it: searches for it are steady and keep within the text
  (`Pattern.isReliable_of_isListed`).  It takes a look at the declarations to
  see that a grammar has no other expressions (`Builder.isReliable_of_isListed`).
-/
import Highlighting.Proofs.Grammar.Realized
import Highlighting.Proofs.Regex.Starts

namespace Highlighting

open Search

variable {text : Source} {pos stop : Nat}

namespace Pattern

/-- The expression is searched for by the list of its ends, and takes as many characters as are to
be left out. -/
def isListed : Pattern → Bool
  | regex (.regular (.listing r)) _ _ trim => trim == 0 || trim == 1 && !r.nullable
  | regex _ _ _ _ => false
  | number | never => true

theorem endAt?_of_gt (hpos : text.size < pos) (p : Pattern) :
    endAt? (p.find text ·) pos = none := by
  rw [endAt?, p.find_of_gt hpos]

theorem endAt?_listing {r : Regex} {notAfter : Option Char} {notBefore : List Char} {trim : Nat}
    (hpos : pos ≤ text.size) :
    endAt? ((regex (.regular (.listing r)) notAfter notBefore trim).find text ·) pos =
      (r.firstEnd? text pos).bind fun stop =>
        (guarded notAfter notBefore trim text ⟨pos, stop⟩).map (·.stop) := by
  have hends : endAt? ((Matcher.listing r).find text ·) pos = r.firstEnd? text pos :=
    endAt?_ofEnds hpos
  have hfind : ((regex (.regular (.listing r)) notAfter notBefore trim).find text ·) =
      ofEnds text.size (siftedEnd? ((Matcher.listing r).find text ·)
        (guarded notAfter notBefore trim text)) := by
    funext q
    exact sift_eq_ofEnds (Matcher.isSteady (.listing r) text) (fun _ _ => start_of_guarded)
      (Nat.le_refl _)
  rw [hfind, endAt?_ofEnds hpos, siftedEnd?, hends]

/-- A match of the expression is the first of its ends, if the guards accept that. -/
theorem endAt?_listing_eq_some_iff {r : Regex} {notAfter : Option Char} {notBefore : List Char}
    {trim : Nat} :
    endAt? ((regex (.regular (.listing r)) notAfter notBefore trim).find text ·) pos = some stop ↔
      pos ≤ text.size ∧ ∃ e, r.firstEnd? text pos = some e ∧ stop = e - trim ∧
        refuses notAfter notBefore text ⟨pos, stop⟩ = false := by
  by_cases hpos : pos ≤ text.size
  · rw [endAt?_listing hpos, Option.bind_eq_some_iff]
    constructor
    · rintro ⟨e, he, hguarded⟩
      refine ⟨hpos, e, he, ?_⟩
      simp only [guarded] at hguarded
      split at hguarded
      · cases hguarded
      · next hrefuses =>
        obtain rfl : e - trim = stop := Option.some.inj hguarded
        exact ⟨rfl, Bool.eq_false_iff.mpr hrefuses⟩
    · rintro ⟨-, e, he, rfl, hrefuses⟩
      refine ⟨e, he, ?_⟩
      rw [guarded, hrefuses]
      rfl
  · rw [endAt?_of_gt (Nat.lt_of_not_le hpos)]
    constructor
    · intro h
      cases h
    · rintro ⟨hle, -⟩
      exact absurd hle hpos

/-- A match that takes a character starts with one of the sets that are listed for the
expression. -/
theorem meets_of_endAt?_listing {r : Regex} {notAfter : Option Char} {notBefore : List Char}
    {trim : Nat} (hlt : pos < stop)
    (h : endAt? ((regex (.regular (.listing r)) notAfter notBefore trim).find text ·) pos =
      some stop) : Regex.Meets text (r.starts []) pos := by
  obtain ⟨hpos, e, he, rfl, -⟩ := endAt?_listing_eq_some_iff.mp h
  have hne : e ≠ pos := by omega
  exact r.meets_of_mem_ends hpos (List.mem_of_head? he) hne

theorem endAt?_number (hpos : pos ≤ text.size) :
    endAt? (number.find text ·) pos = NumberLiteral.matchAt? text pos := by
  have hfind : (fun pos => number.find text pos) =
      ofEnds text.size (NumberLiteral.matchAt? text) :=
    funext (NumberLiteral.find_eq_ofEnds text)
  rw [hfind, endAt?_ofEnds hpos]

theorem canTrim_listing {r : Regex} (hr : r.nullable = false) (text : Source) :
    CanTrim text (.regular (.listing r)) 1 := by
  intro pos s hs
  obtain ⟨-, hle, hend, -⟩ := ofEnds_eq_some_iff.mp (show ofEnds _ _ pos = some s from hs)
  exact r.lt_of_mem_ends hr hle (List.mem_of_head? hend)

theorem isReliable_of_isListed {p : Pattern} (h : p.isListed = true) (text : Source) :
    p.IsReliable text := by
  unfold isListed at h
  split at h
  · next r _ _ trim =>
    intro htrim
    rw [Bool.or_eq_true, beq_iff_eq, Bool.and_eq_true, beq_iff_eq, Bool.not_eq_true'] at h
    rcases h with rfl | ⟨rfl, hr⟩
    · exact absurd htrim (Nat.lt_irrefl 0)
    · exact canTrim_listing hr text
  · cases h
  · trivial
  · trivial

end Pattern

namespace Builder

variable {b : Builder} {language : LanguageDecl} {g : Grammar}

/-- All patterns that are declared pass a check, once they are compiled. -/
def allPatterns (b : Builder) (language : LanguageDecl) (check : Pattern → Bool) : Bool :=
  (b.patterns language).all fun p => (p.compile? b.lookbehind).all check

/-- **What all declared patterns pass, all patterns of the grammar pass.** -/
theorem check_of_allPatterns {check : Pattern → Bool} (h : b.finish language = .ok g)
    (hall : b.allPatterns language check = true) :
    ∀ t ∈ g.terminals, check t.pattern = true := by
  intro t ht
  obtain ⟨p, hp, hcompile⟩ := (realizes_of_finish h).patterns t ht
  have hp' := List.all_eq_true.mp hall p hp
  rw [hcompile] at hp'
  exact hp'

theorem isReliable_of_isListed (h : b.finish language = .ok g)
    (hall : b.allPatterns language Pattern.isListed = true) (text : Source) :
    g.IsReliable text :=
  fun t ht => Pattern.isReliable_of_isListed (check_of_allPatterns h hall t ht) text

/-- The mode of a number passes a check. -/
def modeAt (b : Builder) (check : ModeDecl → Bool) (k : Nat) : Bool :=
  b.modes[k]?.any fun slot => slot.any check

theorem exists_of_modeAt {k : Nat} {check : ModeDecl → Bool} (hg : g.Realizes b language)
    (hk : k < g.modes.size) (h : b.modeAt check k = true) :
    ∃ m, check m = true ∧ (g.mode k).Realizes b.lookbehind g.terminals m := by
  obtain ⟨m, hslot, hm⟩ := hg.mode k hk
  rw [modeAt, hslot] at h
  exact ⟨m, h, hm⟩

theorem lt_size_of_modeAt {k : Nat} {check : ModeDecl → Bool} (hfinish : b.finish language = .ok g)
    (h : b.modeAt check k = true) : k < g.modes.size := by
  obtain ⟨slot, hslot, -⟩ := (Option.any_eq_true _ _).mp h
  rw [size_of_finish hfinish]
  exact (Array.getElem?_eq_some_iff.mp hslot).1

end Builder

end Highlighting
