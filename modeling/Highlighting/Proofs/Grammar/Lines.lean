/-
  Highlighting/Proofs/Grammar/Lines.lean
  ======================================
  **Grammars that keep lines apart.**

  In such a grammar no pattern sees over a line feed, but for openings that run
  on over any number of them (`Grammar.KeepsLines`).  Those have to open a
  region, so that something is still open at the end of a text that ends with
  one.  And only a region that opens and goes on within a line may end at the
  end of it, without a character (`Mode.EndsWithLine`).

  Whether a grammar is of this kind can be read off its declarations
  (`Builder.keepsLines`).
-/
import Highlighting.Proofs.Pattern.Seam

namespace Highlighting

open Search

namespace Pattern

variable {pattern : Pattern} {text : Source} {pos stop : Nat}

/-- The expression takes a character. -/
def isSolid : Pattern → Bool
  | regex (.regular (.listing r)) _ _ trim => !r.nullable && trim == 0
  | regex _ _ _ _ | number | never => false

theorem lt_of_isSolid (h : pattern.isSolid = true)
    (hend : endAt? (pattern.find text ·) pos = some stop) : pos < stop := by
  unfold isSolid at h
  split at h
  · next r _ _ trim =>
    rw [Bool.and_eq_true, Bool.not_eq_true', beq_iff_eq] at h
    obtain ⟨hpos, e, he, rfl, -⟩ := endAt?_listing_eq_some_iff.mp hend
    have hlt := r.lt_of_mem_ends h.1 hpos (List.mem_of_head? he)
    omega
  · cases h
  · cases h
  · cases h

/-- The pattern matches the end of a line, without a character. -/
def lineEnd : Pattern := regex (.regular (.listing (.anchor (.lineEnd false)))) none [] 0

theorem endAt?_lineEnd (hline : Source.EndsWith '\n' text) :
    endAt? (lineEnd.find text ·) (text.size - 1) = some (text.size - 1) := by
  have hlast : text[text.size - 1]? = some '\n' := hline
  have hholds : (Anchor.lineEnd false).holds text (text.size - 1) = true := by
    rw [Anchor.holds, hlast]
    simp
  refine endAt?_listing_eq_some_iff.mpr
    ⟨Nat.sub_le _ _, text.size - 1, ?_, rfl, refuses_none text _⟩
  rw [Regex.firstEnd?, Regex.ends, if_pos hholds]
  rfl

end Pattern

/-! ### Modes and grammars -/

/-- The pattern of a terminal passes a check. -/
def Grammar.Passes (g : Grammar) (check : Pattern → Bool) (index : Nat) : Prop :=
  ∀ t, g.terminals[index]? = some t → check t.pattern = true

namespace Mode

variable (g : Grammar) (m : Mode)

/-- If a pattern ends the mode, it takes a character. -/
def EndsSolidly : Prop := ∀ t, m.ending = .pattern t → g.Passes Pattern.isSolid t

/-- The region ends with the line at the latest, and nothing in it gets beyond that. -/
structure EndsWithLine (t : Nat) : Prop where
  lineEnd : g.Passes (· == Pattern.lineEnd) t
  opener : g.Passes (Pattern.spares '\n') m.opener
  whole : ∀ k ∈ m.content.contains,
    (g.mode k).ending = .immediate ∧ g.Passes (Pattern.spares '\n') (g.mode k).opener
  illegal : m.content.illegal = none

structure KeepsLines : Prop where
  opener : g.Passes (Pattern.stopsAt '\n') m.opener ∨
    g.Passes (Pattern.runsOn '\n') m.opener ∧ m.ending ≠ .immediate ∧ m.EndsSolidly g
  ending : ∀ t, m.ending = .pattern t → g.Passes (Pattern.stopsAt '\n') t
  solid : m.EndsSolidly g ∨ ∃ t, m.ending = .pattern t ∧ m.EndsWithLine g t
  illegal : ∀ t, m.content.illegal = some t → g.Passes (Pattern.stopsAt '\n') t

end Mode

structure Grammar.KeepsLines (g : Grammar) : Prop where
  listed : ∀ t ∈ g.terminals, t.pattern.isListed = true
  follows : ∀ t ∈ g.terminals, t.pattern.mayFollow '\n' = true
  mode : ∀ k < g.modes.size, (g.mode k).KeepsLines g
  illegal : ∀ t, g.root.illegal = some t → g.Passes (Pattern.stopsAt '\n') t

/-! ### Declarations -/

section Declarations

variable {b : Builder} {language : LanguageDecl} {g : Grammar}

/-- What the pattern compiles to passes a check. -/
def Builder.passes (b : Builder) (check : Pattern → Bool) (p : PatternDecl) : Bool :=
  (p.compile? b.lookbehind).any check

theorem Builder.passes_of_compiles {check : Pattern → Bool} {p : PatternDecl}
    {allowsEmpty : Bool} {index : Nat}
    (hcompiles : Compiles b.lookbehind g.terminals allowsEmpty p index)
    (h : b.passes check p = true) : g.Passes check index := by
  obtain ⟨pattern, hcompile, hterminal⟩ := hcompiles
  intro t ht
  obtain rfl : ⟨pattern, allowsEmpty⟩ = t := Option.some.inj (hterminal.symm.trans ht)
  rw [passes, hcompile] at h
  exact h

namespace ModeDecl

variable (b : Builder) (m : ModeDecl)

def endsSolidly : Bool := m.ending.pattern?.all (b.passes Pattern.isSolid)

def opensWith (check : Pattern → Bool) : Bool := m.opener.any (b.passes check)

def endsWithLine : Bool :=
  m.ending.pattern?.any (b.passes (· == Pattern.lineEnd)) && m.opensWith b (Pattern.spares '\n') &&
    m.illegal.isNone && m.contains.all
      (b.modeAt fun inner => inner.ending == .immediate && inner.opensWith b (Pattern.spares '\n'))

def keepsLines : Bool :=
  (m.opensWith b (Pattern.stopsAt '\n') ||
      m.opensWith b (Pattern.runsOn '\n') && m.ending != .immediate && m.endsSolidly b) &&
    m.ending.pattern?.all (b.passes (Pattern.stopsAt '\n')) &&
    (m.endsSolidly b || m.endsWithLine b) && m.illegal.all (b.passes (Pattern.stopsAt '\n'))

end ModeDecl

namespace Builder

/-- Nothing that is declared sees over a line feed, as far as that matters. -/
def keepsLines (b : Builder) (language : LanguageDecl) : Bool :=
  b.allPatterns language Pattern.isListed && b.allPatterns language (Pattern.mayFollow '\n') &&
    b.modes.all (fun slot => slot.all (·.keepsLines b)) &&
    language.illegal.all (b.passes (Pattern.stopsAt '\n'))

variable {decl : ModeDecl} {m : Mode} {check : Pattern → Bool}

theorem opener_passes (hm : m.Realizes b.lookbehind g.terminals decl)
    (h : decl.opensWith b check = true) : g.Passes check m.opener := by
  obtain ⟨p, hp, hcompiles⟩ := hm.opener
  rw [ModeDecl.opensWith, hp, Option.any_some] at h
  exact passes_of_compiles hcompiles h

theorem exists_ending (hm : m.Realizes b.lookbehind g.terminals decl) {t : Nat}
    (ht : m.ending = .pattern t) :
    ∃ p, decl.ending.pattern? = some p ∧ Compiles b.lookbehind g.terminals true p t := by
  have hending := hm.ending
  rw [ht] at hending
  generalize decl.ending = ending at hending
  cases hending with
  | pattern h => exact ⟨_, rfl, h⟩

theorem ending_passes (hm : m.Realizes b.lookbehind g.terminals decl)
    (h : decl.ending.pattern?.all (b.passes check) = true) :
    ∀ t, m.ending = .pattern t → g.Passes check t := by
  intro t ht
  obtain ⟨p, hp, hcompiles⟩ := exists_ending hm ht
  rw [hp, Option.all_some] at h
  exact passes_of_compiles hcompiles h

theorem illegal_passes {decl : Option PatternDecl} {illegal : Option Nat}
    (hrealizes : Option.Rel (Compiles b.lookbehind g.terminals false) decl illegal)
    (h : decl.all (b.passes check) = true) : ∀ t, illegal = some t → g.Passes check t := by
  rintro t rfl
  cases hrealizes with
  | some hcompiles => exact passes_of_compiles hcompiles h

theorem immediate_iff (hm : m.Realizes b.lookbehind g.terminals decl) :
    m.ending = .immediate ↔ decl.ending = .immediate := by
  have hending := hm.ending
  generalize decl.ending = ending at hending
  generalize m.ending = ending' at hending
  cases hending <;> simp

theorem endsWithLine_spec (hg : g.Realizes b language) (hin : g.InOrder) {k : Nat}
    (hk : k < g.modes.size) (hm : (g.mode k).Realizes b.lookbehind g.terminals decl)
    (h : decl.endsWithLine b = true) :
    ∃ t, (g.mode k).ending = .pattern t ∧ (g.mode k).EndsWithLine g t := by
  simp only [ModeDecl.endsWithLine, Bool.and_eq_true] at h
  obtain ⟨⟨⟨hending, hopener⟩, hillegal⟩, hwhole⟩ := h
  obtain ⟨p, hp, hline⟩ := (Option.any_eq_true _ _).mp hending
  obtain ⟨t, ht⟩ : ∃ t, (g.mode k).ending = .pattern t := by
    have hrealizes := hm.ending
    generalize (g.mode k).ending = ending at hrealizes
    generalize decl.ending = ending' at hrealizes hp
    cases hrealizes with
    | pattern h => exact ⟨_, rfl⟩
    | immediate | never | withParent => cases hp
  refine ⟨t, ht, ?_, opener_passes hm hopener, ?_, ?_⟩
  · obtain ⟨p', hp', hcompiles⟩ := exists_ending hm ht
    obtain rfl : p = p' := Option.some.inj (hp.symm.trans hp')
    exact passes_of_compiles hcompiles hline
  · intro j hj
    have hj' := (hin.mode hk).content.contains j hj
    rw [hm.contains] at hj
    obtain ⟨inner, hinner, hrealizes⟩ :=
      exists_of_modeAt hg hj' (List.all_eq_true.mp hwhole j hj)
    rw [Bool.and_eq_true, beq_iff_eq] at hinner
    exact ⟨(immediate_iff hrealizes).mpr hinner.1, opener_passes hrealizes hinner.2⟩
  · have hrel := hm.illegal
    rw [Option.isNone_iff_eq_none.mp hillegal] at hrel
    generalize (g.mode k).content.illegal = illegal at hrel
    cases hrel
    rfl

/-- **Declarations that keep lines apart make a grammar that does.** -/
theorem keepsLines_of_finish (h : b.finish language = .ok g)
    (hcheck : b.keepsLines language = true) : g.KeepsLines := by
  have hg := realizes_of_finish h
  have hin := inOrder_of_finish h
  simp only [keepsLines, Bool.and_eq_true, Array.all_eq_true_iff_forall_mem] at hcheck
  obtain ⟨⟨⟨hlisted, hfollows⟩, hmodes⟩, hillegal⟩ := hcheck
  refine ⟨check_of_allPatterns h hlisted, check_of_allPatterns h hfollows, ?_,
    illegal_passes hg.illegal hillegal⟩
  intro k hk
  obtain ⟨decl, hslot, hm⟩ := hg.mode k hk
  have hdecl := hmodes (some decl) (Array.mem_of_getElem? hslot)
  simp only [Option.all_some, ModeDecl.keepsLines, Bool.and_eq_true, Bool.or_eq_true,
    bne_iff_ne] at hdecl
  obtain ⟨⟨⟨hopener, hending⟩, hsolid⟩, hinner⟩ := hdecl
  constructor
  · rcases hopener with hcloses | ⟨⟨hruns, hne⟩, hsolid⟩
    · exact .inl (opener_passes hm hcloses)
    · refine .inr ⟨opener_passes hm hruns, ?_, ending_passes hm hsolid⟩
      exact fun himmediate => hne ((immediate_iff hm).mp himmediate)
  · exact ending_passes hm hending
  · rcases hsolid with hsolid | hline
    · exact .inl (ending_passes hm hsolid)
    · exact .inr (endsWithLine_spec hg hin hk hm hline)
  · exact illegal_passes hm.illegal hinner

end Builder

end Declarations

end Highlighting
