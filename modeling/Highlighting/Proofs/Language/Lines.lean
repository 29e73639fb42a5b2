/-
  Highlighting/Proofs/Language/Lines.lean
  =======================================
  **The built-in languages are highlighted line by line.**

  Nothing that is declared in them sees over a line feed, but for what opens a
  region (`Builder.keepsLines`), and no scope is left without a text
  (`Builder.scopesBegin`).  So where a line ends outside of all regions, what
  follows is highlighted as by itself (`lines_are_highlighted_apart`).
-/
import Highlighting.Proofs.Language.BuiltIn
import Highlighting.Proofs.Scan.Seam.Joined

namespace Highlighting

/-! ### Declarations whose scopes begin -/

/-- The lexemes of the mode stay in their line. -/
def ModeDecl.lexemeStays (m : ModeDecl) : Bool :=
  match Builder.modeKeywords m with
  | .ok keywords => keywords.all (·.lexeme.staysInLine)
  | .error _ => false

namespace Builder

variable {b : Builder} {language : LanguageDecl} {g : Grammar}

/-- If the mode has a scope, that encloses the opening match. -/
def beginsAtOnce (b : Builder) : Nat → Bool :=
  b.modeAt fun m => !m.excludesBegin || m.scope.isNone

/-- Modes whose scope begins behind the opening match are only looked for inside of scopes. -/
def scopesBegin (b : Builder) (language : LanguageDecl) : Bool :=
  b.modes.all (fun slot => slot.all fun m =>
      m.lexemeStays && (m.scope.isSome || m.contains.all b.beginsAtOnce)) &&
    language.keywords.all (·.lexeme.staysInLine) && language.contains.all b.beginsAtOnce

theorem not_beginsAtOnce (hg : g.Realizes b language) {m : Nat} (hm : m < g.modes.size)
    (hexcludes : (g.mode m).excludesBegin = true) (hscope : (g.mode m).scope ≠ none) :
    b.beginsAtOnce m ≠ true := by
  intro h
  obtain ⟨decl, hdecl, hrealizes⟩ := exists_of_modeAt hg hm h
  rw [← hrealizes.excludesBegin, ← hrealizes.scope, hexcludes] at hdecl
  exact hscope (Option.isNone_iff_eq_none.mp hdecl)

/-- **Declarations whose scopes begin make a grammar whose scopes do.** -/
theorem scopesBegin_of_finish (h : b.finish language = .ok g)
    (hcheck : b.scopesBegin language = true) : g.ScopesBegin := by
  have hg := realizes_of_finish h
  have hin := inOrder_of_finish h
  simp only [scopesBegin, Bool.and_eq_true, Array.all_eq_true_iff_forall_mem] at hcheck
  obtain ⟨⟨hmodes, hlexeme⟩, hroot⟩ := hcheck
  have hmode : ∀ k < g.modes.size, (∀ t ∈ (g.mode k).content.keywords,
      t.lexeme.staysInLine = true) ∧ ((g.mode k).scope = none →
        ∀ m ∈ (g.mode k).content.contains, b.beginsAtOnce m = true) := by
    intro k hk
    obtain ⟨decl, hslot, hm⟩ := hg.mode k hk
    have hdecl := hmodes (some decl) (Array.mem_of_getElem? hslot)
    rw [Option.all_some, Bool.and_eq_true, Bool.or_eq_true, List.all_eq_true] at hdecl
    obtain ⟨hstays, hinner⟩ := hdecl
    constructor
    · rw [ModeDecl.lexemeStays, hm.keywords] at hstays
      exact (Option.all_eq_true _ _).mp hstays
    · intro hscope m hmem
      rw [hm.scope] at hscope
      rw [hm.contains] at hmem
      refine hinner.resolve_left ?_ m hmem
      rw [hscope]
      exact Bool.false_ne_true
  -- a number of no mode stands for the one that has nothing
  have hother : ∀ k, ¬ k < g.modes.size → g.mode k = default := by
    intro k hk
    rw [Grammar.mode, Array.getElem?_eq_none (Nat.le_of_not_lt hk)]
    rfl
  constructor
  · intro modes m hmem hexcludes hscope
    have hsize : m < g.modes.size := (Scan.contentOf_inOrder hin modes).contains m hmem
    have hnot := not_beginsAtOnce hg hsize hexcludes hscope
    cases modes with
    | nil =>
      have hmem' : m ∈ g.root.contains := hmem
      rw [hg.contains] at hmem'
      exact absurd (List.all_eq_true.mp hroot m hmem') hnot
    | cons k outer =>
      refine ⟨k, outer, rfl, fun hnone => hnot ?_⟩
      by_cases hk : k < g.modes.size
      · exact (hmode k hk).2 hnone m hmem
      · have hmem' : m ∈ (g.mode k).content.contains := hmem
        rw [hother k hk] at hmem'
        cases hmem'
  · intro modes t ht
    cases modes with
    | nil =>
      have ht' : t ∈ g.root.keywords := ht
      rw [hg.keywords] at ht'
      exact (Option.all_eq_true _ _).mp hlexeme t ht'
    | cons k outer =>
      have ht' : t ∈ (g.mode k).content.keywords := ht
      by_cases hk : k < g.modes.size
      · exact (hmode k hk).1 t ht'
      · rw [hother k hk] at ht'
        cases ht'

end Builder

/-! ### The languages -/

namespace Language

/-- The grammar is highlighted line by line. -/
structure HighlightsLines (g : Grammar) : Prop where
  keepsLines : g.KeepsLines
  scopesBegin : g.ScopesBegin

def highlightsLines (language : LanguageDecl) (b : Builder) : Bool :=
  b.keepsLines language && b.scopesBegin language

theorem highlightsLines_of_finish {declare : Construct LanguageDecl} {g : Grammar}
    (h : declares declare highlightsLines = true)
    (hg : (do let (language, b) ← declare (Builder.start .usual); b.finish language) = .ok g) :
    HighlightsLines g := by
  obtain ⟨language, b, -, hg, hcheck⟩ := exists_finish_of_declares h hg
  rw [highlightsLines, Bool.and_eq_true] at hcheck
  exact ⟨Builder.keepsLines_of_finish hg hcheck.1, Builder.scopesBegin_of_finish hg hcheck.2⟩

theorem highlightsLines_solidity : declares Solidity.declare highlightsLines = true :=
  declares_of_workedOut Solidity.workedOut (by decide +kernel)

theorem highlightsLines_yul : declares Yul.declare highlightsLines = true :=
  declares_of_workedOut Yul.workedOut (by decide +kernel)

end Language

/-- **Highlighting composes at the end of a line** that leaves no region open. -/
theorem lines_are_highlighted_apart :
    ∃ solidity yul, Language.Solidity.grammar = .ok solidity ∧ Language.Yul.grammar = .ok yul ∧
      ∀ g ∈ [solidity, yul], ∀ (u v : String) (options : Scan.Options),
        u.toList.getLast? = some '\n' →
        (Scan.run (Scan.task g (Source.ofString u) options) (Scan.State.start g)).regions = [] →
        (g.highlight (u ++ v) options).leaves =
            Token.join (g.highlight u options).leaves (g.highlight v options).leaves ∧
          (g.highlight (u ++ v) options).illegal =
            ((g.highlight u options).illegal || (g.highlight v options).illegal) := by
  obtain ⟨solidity, hsolidity, hs⟩ := Language.exists_solidity
  obtain ⟨yul, hyul, hy⟩ := Language.exists_yul
  refine ⟨solidity, yul, hsolidity, hyul, ?_⟩
  intro g hg u v options hline hroot
  have hends : (Source.ofString u).EndsWith '\n' := by
    rw [Source.EndsWith, Source.ofString]
    simpa [List.getLast?_eq_getElem?] using hline
  have hapart : (∀ source, (Scan.task g source options).IsSound) ∧ Language.HighlightsLines g := by
    rcases List.mem_cons.mp hg with rfl | hg
    · exact ⟨fun source => hs.isSound source options,
        Language.highlightsLines_of_finish Language.highlightsLines_solidity hsolidity⟩
    · obtain rfl := List.mem_singleton.mp hg
      exact ⟨fun source => hy.isSound source options,
        Language.highlightsLines_of_finish Language.highlightsLines_yul hyul⟩
  exact Grammar.highlight_append_of_line hapart.1 hapart.2.keepsLines hapart.2.scopesBegin hends
    hroot

/-- A comment ends with its line, and leaves no region open. -/
theorem commented_lines_are_highlighted_apart :
    ∃ yul, Language.Yul.grammar = .ok yul ∧
      "x := 1 // a\n".toList.getLast? = some '\n' ∧
      (Scan.run (Scan.task yul (Source.ofString "x := 1 // a\n") ⟨false⟩)
        (Scan.State.start yul)).regions = [] ∧
      (yul.highlight ("x := 1 // a\n" ++ "let y") ⟨false⟩).leaves =
        Token.join (yul.highlight "x := 1 // a\n" ⟨false⟩).leaves
          (yul.highlight "let y" ⟨false⟩).leaves ∧
      (yul.highlight ("x := 1 // a\n" ++ "let y") ⟨false⟩).illegal =
        ((yul.highlight "x := 1 // a\n" ⟨false⟩).illegal ||
          (yul.highlight "let y" ⟨false⟩).illegal) := by
  obtain ⟨solidity, yul, -, hyul, hapart⟩ := lines_are_highlighted_apart
  have hline : "x := 1 // a\n".toList.getLast? = some '\n' := by decide
  have hclosed : Language.Yul.grammar.toOption.any (fun g =>
      (Scan.run (Scan.task g (Source.ofString "x := 1 // a\n") ⟨false⟩)
        (Scan.State.start g)).regions.isEmpty) = true := by
    decide +kernel
  rw [hyul] at hclosed
  have hroot := List.isEmpty_iff.mp hclosed
  exact ⟨yul, hyul, hline, hroot, hapart yul (by simp) _ _ _ hline hroot⟩

end Highlighting
