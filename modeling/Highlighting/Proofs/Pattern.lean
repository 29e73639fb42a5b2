/-
  Highlighting/Proofs/Pattern.lean
  ================================
  **Patterns search steadily and within the text**, when their expressions do.

  The guards around an expression look at the match alone, so that they take
  nothing from the steadiness of the search (`Pattern.isSteady_regex`), nor
  from where the matches lie, as long as there is something to leave out
  where something is left out (`Pattern.isWithin_regex`).

  What is left to take for granted is collected in `Pattern.IsReliable`.  The
  search for an extended expression need not be steady: `\K` and `\G` look at
  where it began, and its retries are used up from there on.
-/
import Highlighting.Grammar.Basic
import Highlighting.Proofs.NumberLiteral
import Highlighting.Proofs.Regex.Extended
import Highlighting.Proofs.Regex.Steady

namespace Highlighting

open Search

/-! ### Expressions and patterns -/

namespace Expression

/-- Searches for the expression in the text are steady. -/
def IsSteady (text : Source) (e : Expression) : Prop :=
  Search.IsSteady text.size (e.find text ·)

/-- Searches for the expression in the text keep within it. -/
def IsWithin (text : Source) (e : Expression) : Prop :=
  Search.IsWithin text.size (e.find text ·)

theorem find_of_gt {text : Source} {pos : Nat} (h : text.size < pos) (e : Expression) :
    e.find text pos = none := by
  cases e with
  | regular m => exact m.find_of_gt h
  | extended p => rw [find, Extended.Plan.find, show text.size + 1 - pos = 0 by omega]; rfl

theorem isSteady_regular (m : Matcher) (text : Source) : (regular m).IsSteady text :=
  m.isSteady text

theorem isWithin_regular (m : Matcher) (text : Source) : (regular m).IsWithin text :=
  m.isWithin text

theorem IsSteady.isWithin {text : Source} {e : Expression} (h : e.IsSteady text) :
    e.IsWithin text := by
  cases e with
  | regular m => exact m.isWithin text
  | extended p => exact Extended.Plan.isWithin_of_isSteady h

end Expression

namespace Pattern

/-- Searches for the pattern in the text are steady. -/
def IsSteady (text : Source) (p : Pattern) : Prop := Search.IsSteady text.size (p.find text ·)

def IsWithin (text : Source) (p : Pattern) : Prop := Search.IsWithin text.size (p.find text ·)

theorem find_of_gt {text : Source} {pos : Nat} (h : text.size < pos) (p : Pattern) :
    p.find text pos = none := by
  cases p with
  | regex e notAfter notBefore trim => rw [find, show text.size + 1 - pos = 0 by omega, sift]
  | number => rw [find, NumberLiteral.find, show text.size - pos = 0 by omega, leftmost]
  | never => rfl

theorem start_of_guarded {notAfter : Option Char} {notBefore : List Char} {trim : Nat}
    {text : Source} {s r : Span} (h : guarded notAfter notBefore trim text s = some r) :
    r.start = s.start := by
  simp only [guarded] at h
  split at h
  · cases h
  · cases h
    rfl

theorem isSteady_regex {text : Source} {e : Expression} (he : e.IsSteady text)
    (notAfter : Option Char) (notBefore : List Char) (trim : Nat) :
    (Pattern.regex e notAfter notBefore trim).IsSteady text :=
  isSteady_ofEnds.congr fun _ =>
    sift_eq_ofEnds he (fun _ _ => start_of_guarded) (Nat.le_refl _)

/-- Every match of the expression has the characters to be left out at its end. -/
def CanTrim (text : Source) (e : Expression) (trim : Nat) : Prop :=
  ∀ pos s, e.find text pos = some s → s.start + trim ≤ s.stop

theorem isWithin_regex {text : Source} {e : Expression} {trim : Nat} (he : e.IsWithin text)
    (htrim : 0 < trim → CanTrim text e trim) (notAfter : Option Char) (notBefore : List Char) :
    (Pattern.regex e notAfter notBefore trim).IsWithin text := by
  intro pos r _ hr
  obtain ⟨p, s, hfound, hs, h1, h2, h3⟩ :=
    exists_of_sift he (fun _ hgt => e.find_of_gt hgt) hr
  have hleft : s.start ≤ s.stop - trim := by
    rcases Nat.eq_zero_or_pos trim with rfl | hpos
    · exact h2
    · have hlength := htrim hpos p s hfound
      omega
  simp only [guarded] at hs
  split at hs
  · cases hs
  · cases hs
    exact ⟨h1, hleft, Nat.le_trans (Nat.sub_le _ _) h3⟩

/-- The expression that is searched for, if there is one. -/
def expression? : Pattern → Option Expression
  | regex e _ _ _ => some e
  | number | never => none

/-- What is found lies within the text, for the pattern and for its expression. -/
structure FindsWithin (text : Source) (p : Pattern) : Prop where
  pattern : p.IsWithin text
  expression : ∀ e, p.expression? = some e → e.IsWithin text

/-- **The search for a guarded expression ends**: so do the searches for the expression alone that
it is made of. -/
theorem FindsWithin.exists_sifts {text : Source} {e : Expression} {notAfter : Option Char}
    {notBefore : List Char} {trim : Nat}
    (h : (regex e notAfter notBefore trim).FindsWithin text) (pos : Nat) :
    ∃ rounds ≤ text.size + 1 - pos,
      Sifts text.size (e.find text ·) (guarded notAfter notBefore trim text) pos rounds
        ((regex e notAfter notBefore trim).find text pos) :=
  Search.exists_sifts _ (h.expression e rfl) (fun _ hgt => e.find_of_gt hgt) (Nat.le_refl _)

theorem isSteady_number (text : Source) : Pattern.number.IsSteady text :=
  NumberLiteral.isSteady text

theorem isSteady_never (text : Source) : Pattern.never.IsSteady text :=
  fun _ => (ofEnds_eq_none_iff.mpr fun _ _ _ => rfl).symm

/-! ### What is taken for granted -/

/-- What has to be taken for granted of a pattern, for its searches to be steady and within the
text: that the search for an extended expression is steady, and that there is something to leave
out where something is left out. -/
def IsReliable (text : Source) : Pattern → Prop
  | regex (.regular m) _ _ trim => 0 < trim → CanTrim text (.regular m) trim
  | regex (.extended p) _ _ trim =>
    (Expression.extended p).IsSteady text ∧ (0 < trim → CanTrim text (.extended p) trim)
  | number => True
  | never => True

theorem IsReliable.isSteady {text : Source} {p : Pattern} (h : p.IsReliable text) :
    p.IsSteady text := by
  cases p with
  | regex e notAfter notBefore trim =>
    cases e with
    | regular m => exact isSteady_regex (Expression.isSteady_regular m text) notAfter notBefore trim
    | extended q => exact isSteady_regex h.1 notAfter notBefore trim
  | number => exact isSteady_number text
  | never => exact isSteady_never text

theorem IsReliable.isWithin {text : Source} {p : Pattern} (h : p.IsReliable text) :
    p.IsWithin text := by
  cases p with
  | regex e notAfter notBefore trim =>
    cases e with
    | regular m => exact isWithin_regex (Expression.isWithin_regular m text) h notAfter notBefore
    | extended q => exact isWithin_regex h.1.isWithin h.2 notAfter notBefore
  | number => exact NumberLiteral.isWithin text
  | never =>
    intro pos s _ hs
    cases hs

theorem IsReliable.findsWithin {text : Source} {p : Pattern} (h : p.IsReliable text) :
    p.FindsWithin text := by
  refine ⟨h.isWithin, fun e he => ?_⟩
  cases p with
  | regex e' notAfter notBefore trim =>
    obtain rfl : e' = e := Option.some.inj he
    cases e' with
    | regular m => exact Expression.isWithin_regular m text
    | extended q => exact h.1.isWithin
  | number => cases he
  | never => cases he

end Pattern

/-- Without lookbehind a pattern is searched for by a matcher. -/
theorem PatternDecl.isSteady_of_emulated {p : Pattern} {decl : PatternDecl}
    (h : decl.compile? .emulated = some p) (text : Source) : p.IsSteady text := by
  cases decl with
  | regex r =>
    obtain ⟨e, -, h⟩ : ∃ e, Regex.parse? r.enclosed = some e ∧
        Pattern.regex (.regular (.ofRegex e)) r.notAfter r.notBefore
          (if r.followedBy.isSome then 1 else 0) = p := by
      simpa [compile?, GuardedRegex.compile?, Option.bind_eq_some_iff] using h
    rw [← h]
    exact Pattern.isSteady_regex (Expression.isSteady_regular _ text) _ _ _
  | number =>
    cases h
    exact Pattern.isSteady_number text
  | never =>
    cases h
    exact Pattern.isSteady_never text

namespace Grammar

/-- All patterns of the grammar search the text steadily. -/
def SearchesSteadily (g : Grammar) (text : Source) : Prop :=
  ∀ t ∈ g.terminals, t.pattern.IsSteady text

/-- All patterns of the grammar keep within the text. -/
def SearchesWithin (g : Grammar) (text : Source) : Prop :=
  ∀ t ∈ g.terminals, t.pattern.IsWithin text

/-- All patterns of the grammar and their expressions keep within the text. -/
def FindsWithin (g : Grammar) (text : Source) : Prop :=
  ∀ t ∈ g.terminals, t.pattern.FindsWithin text

theorem FindsWithin.searchesWithin {g : Grammar} {text : Source} (h : g.FindsWithin text) :
    g.SearchesWithin text :=
  fun t ht => (h t ht).pattern

def IsReliable (g : Grammar) (text : Source) : Prop :=
  ∀ t ∈ g.terminals, t.pattern.IsReliable text

theorem IsReliable.searchesSteadily {g : Grammar} {text : Source} (h : g.IsReliable text) :
    g.SearchesSteadily text :=
  fun t ht => (h t ht).isSteady

theorem IsReliable.searchesWithin {g : Grammar} {text : Source} (h : g.IsReliable text) :
    g.SearchesWithin text :=
  fun t ht => (h t ht).isWithin

theorem IsReliable.findsWithin {g : Grammar} {text : Source} (h : g.IsReliable text) :
    g.FindsWithin text :=
  fun t ht => (h t ht).findsWithin

end Grammar

end Highlighting
