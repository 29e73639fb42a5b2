/-
  Highlighting/Proofs/Language/Relevance.lean
  ===========================================
  **Relevance does not overflow** in the built-in languages.

  How relevant the modes of a language are is written in its declarations
  (`Builder.isBounded`), and the empty word is a keyword of none of them
  (`Language.EmptyWord`).  No mode of the two languages counts for more than
  ten, so that a text would have to have 390 million bytes for a sum to be too
  large (`relevance_never_overflows`).

  This takes searches that keep within the text.  Where a match is found behind
  the position, any number of modes can open with the same character
  (`exists_text_more_relevant_than_long`).
-/
import Highlighting.Proofs.Language.BuiltIn
import Highlighting.Proofs.Language.EmptyWord
import Highlighting.Proofs.Scan.Relevance

namespace Highlighting

open Scan

/-! ### Declarations -/

section Declarations

variable {b : Builder} {language : LanguageDecl} {g : Grammar} {R : Nat}

/-- The mode has no greater relevance, and the words that open it are words. -/
def ModeDecl.isBounded (R : Nat) (m : ModeDecl) : Bool :=
  decide (m.effectiveRelevance.toNat ≤ R) && m.openingWords.all (· != "")

/-- The keywords of a mode are its own, or else the words that open it. -/
theorem ModeDecl.noEmptyWord_of_realizes {lookbehind : Lookbehind} {terminals : Array Terminal}
    {decl : ModeDecl} {m : Mode} (h : m.Realizes lookbehind terminals decl)
    (hkeywords : NoEmptyWord decl.keywords) (hopening : ∀ w ∈ decl.openingWords, w ≠ "") :
    NoEmptyWord m.content.keywords := by
  have hmade := h.keywords
  rw [Builder.modeKeywords] at hmade
  split at hmade
  · next table htable =>
    rw [← Except.ok.inj hmade, ← htable]
    exact hkeywords
  · split at hmade
    · rw [← Except.ok.inj hmade]
      exact noEmptyWord_none
    · obtain ⟨t, ht, hsome⟩ := Builder.exists_of_bind_eq_ok hmade
      rw [← Except.ok.inj hsome]
      exact noEmptyWord_some (KeywordDecl.classify_nil_of_compile ht
        (KeywordDecl.worded_empty.add hopening _))

namespace Builder

def isBounded (R : Nat) (b : Builder) : Bool :=
  b.modes.all fun slot => slot.all (ModeDecl.isBounded R)

/-- **Bounds that were declared hold in the grammar.** -/
theorem bounded_of_finish (h : b.finish language = .ok g) (hcheck : b.isBounded R = true)
    (hworded : b.Worded) (hroot : NoEmptyWord language.keywords) : g.Bounded R := by
  have hg := realizes_of_finish h
  rw [isBounded, Array.all_eq_true_iff_forall_mem] at hcheck
  have hall : ∀ m ∈ g.modes, m.relevance.toNat ≤ R ∧ NoEmptyWord m.content.keywords := by
    intro m hm
    obtain ⟨k, hk, rfl⟩ := Array.mem_iff_getElem.mp hm
    obtain ⟨decl, hslot, hdecl⟩ := hg.mode k hk
    have hmode : g.mode k = g.modes[k] := by
      rw [Grammar.mode, Array.getElem?_eq_getElem hk]
      rfl
    rw [hmode] at hdecl
    have hmem := Array.mem_of_getElem? hslot
    have hbounded := hcheck (some decl) hmem
    simp only [Option.all_some, ModeDecl.isBounded, Bool.and_eq_true, decide_eq_true_eq,
      List.all_eq_true, bne_iff_ne] at hbounded
    exact ⟨hdecl.relevance ▸ hbounded.1,
      ModeDecl.noEmptyWord_of_realizes hdecl (hworded decl hmem) hbounded.2⟩
  exact ⟨fun m hm => (hall m hm).1, hg.keywords ▸ hroot, fun m hm => (hall m hm).2⟩

end Builder

namespace Language

theorem isBounded_solidity : declares Solidity.declare (fun _ b => b.isBounded 10) = true :=
  declares_of_workedOut Solidity.workedOut (by decide +kernel)

theorem isBounded_yul : declares Yul.declare (fun _ b => b.isBounded 10) = true :=
  declares_of_workedOut Yul.workedOut (by decide +kernel)

theorem bounded_of_declares {declare : Construct LanguageDecl}
    (hcheck : declares declare (fun _ b => b.isBounded R) = true)
    (hworded : Construct.Worded (fun language => NoEmptyWord language.keywords) declare)
    (hg : (do let (language, b) ← declare (Builder.start .usual); b.finish language) = .ok g) :
    g.Bounded R := by
  obtain ⟨language, b, hdeclare, hfinish, hbounded⟩ := exists_finish_of_declares hcheck hg
  obtain ⟨hmodes, hroot⟩ := hworded _ (Builder.worded_start .usual) language b hdeclare
  exact Builder.bounded_of_finish hfinish hbounded hmodes hroot

end Language

end Declarations

/-- **Relevance cannot overflow where modes are bounded.**  As long as searches keep within the
text, what a scan has added up is nowhere more than `R + 1` for each character in front, and there
are at least as many bytes; so no sum is too large for a text that is short enough.  The built-in
languages are bounded by ten, and their searches do keep within the text. -/
theorem relevance_never_overflows :
    (∀ (b : Builder) (language : LanguageDecl) (g : Grammar) (R : Nat),
      b.finish language = .ok g → g.Bounded R → ∀ (text : String) (options : Options),
      let source := Source.ofString text
      g.SearchesWithin source →
        (∀ ms s, Ran (Scan.task g source options) (State.start g) ms s →
          s.draft.relevance.toNat ≤ (R + 1) * s.pos ∧ s.pos ≤ source.byteOffset s.pos) ∧
        (g.highlight text options).relevance.toNat ≤ (R + 1) * text.utf8ByteSize ∧
        ((R + 1) * text.utf8ByteSize < 2 ^ 32 →
          Summed.highlight g text options = some (g.highlight text options))) ∧
    ∃ solidity yul, Language.Solidity.grammar = .ok solidity ∧ Language.Yul.grammar = .ok yul ∧
      ∀ g ∈ [solidity, yul], g.Bounded 10 ∧ ∀ (text : String) (options : Options),
        (g.highlight text options).relevance.toNat ≤ 11 * text.utf8ByteSize ∧
        (11 * text.utf8ByteSize < 2 ^ 32 →
          Summed.highlight g text options = some (g.highlight text options)) := by
  have hbytes : ∀ (R : Nat) (text : String),
      (R + 1) * Array.size (Source.ofString text) ≤ (R + 1) * text.utf8ByteSize := by
    intro R text
    rw [← Source.byteOffset_size]
    exact Nat.mul_le_mul_left _ (Source.le_byteOffset (Nat.le_refl _))
  have hresult : ∀ {g : Grammar} {R : Nat}, g.Bounded R → g.InOrder →
      ∀ (text : String) (options : Options), g.SearchesWithin (Source.ofString text) →
        (g.highlight text options).relevance.toNat ≤ (R + 1) * text.utf8ByteSize ∧
        ((R + 1) * text.utf8ByteSize < 2 ^ 32 →
          Summed.highlight g text options = some (g.highlight text options)) := by
    intro g R hg hin text options hwithin
    obtain ⟨-, hle, hsummed⟩ := relevance_le hg hin text options hwithin
    exact ⟨Nat.le_trans hle (hbytes R text),
      fun hlt => hsummed (Nat.lt_of_le_of_lt (hbytes R text) hlt)⟩
  constructor
  · intro b language g R hfinish hg text options source hwithin
    have hin := Builder.inOrder_of_finish hfinish
    refine ⟨fun ms s hran => ?_, hresult hg hin text options hwithin⟩
    obtain ⟨hle, hpos⟩ := (relevance_le hg hin text options hwithin).1 ms s hran
    exact ⟨hle, Source.le_byteOffset hpos⟩
  · obtain ⟨solidity, hsolidity, hs⟩ := Language.exists_solidity
    obtain ⟨yul, hyul, hy⟩ := Language.exists_yul
    refine ⟨solidity, yul, hsolidity, hyul, fun g hmem => ?_⟩
    obtain ⟨hbounded, hsound⟩ :
        g.Bounded 10 ∧ ∀ source options, (Scan.task g source options).IsSound := by
      rcases List.mem_cons.mp hmem with rfl | hmem
      · exact ⟨Language.bounded_of_declares Language.isBounded_solidity
          Language.Solidity.worded_declare hsolidity, hs.isSound⟩
      · obtain rfl := List.mem_singleton.mp hmem
        exact ⟨Language.bounded_of_declares Language.isBounded_yul Language.Yul.worded_declare
          hyul, hy.isSound⟩
    refine ⟨hbounded, fun text options => ?_⟩
    have htask := hsound (Source.ofString text) options
    exact hresult hbounded htask.inOrder text options htask.within

/-- A quoted character, which counts for one when the quotes are closed, and a name in Solidity. -/
theorem relevance_of_quotes_never_overflows :
    let text := "'b'"
    let task := Scan.task Quotes.grammar (Source.ofString text) ⟨false⟩
    let s := State.start Quotes.grammar
    let t := (s.move task ⟨⟨0, 1⟩, .opens 0⟩).next task
    let u := (t.move task ⟨⟨2, 3⟩, .closes 0⟩).next task
    (Quotes.builder.finish Quotes.language = .ok Quotes.grammar ∧ Quotes.grammar.Bounded 1 ∧
      Quotes.grammar.SearchesWithin task.source ∧ (1 + 1) * text.utf8ByteSize < 2 ^ 32) ∧
      (∃ ms, Ran task s ms u) ∧ u.draft.relevance = 1 ∧
      u.draft.relevance.toNat ≤ (1 + 1) * u.pos ∧
      Summed.highlight Quotes.grammar text ⟨false⟩ = some (Quotes.grammar.highlight text ⟨false⟩) ∧
      ∃ solidity, Language.Solidity.grammar = .ok solidity ∧
        Summed.highlight solidity "x" ⟨false⟩ = some (solidity.highlight "x" ⟨false⟩) := by
  intro text task s t u
  have hran : Ran task s [t.move task ⟨⟨2, 3⟩, .closes 0⟩, s.move task ⟨⟨0, 1⟩, .opens 0⟩] u :=
    .move (.move .refl (by decide)) (by decide)
  have hworded : Quotes.builder.Worded := by
    intro m hm
    obtain rfl : m = Quotes.quoted := by simpa [Quotes.builder] using hm
    exact noEmptyWord_none
  have hbounded : Quotes.grammar.Bounded 1 := Builder.bounded_of_finish Quotes.finish_builder
    (by cbv) hworded noEmptyWord_none
  have hwithin := (Quotes.isReliable task.source).searchesWithin
  have hshort : (1 + 1) * text.utf8ByteSize < 2 ^ 32 := by decide
  obtain ⟨hall, solidity, yul, hsolidity, -, hbuiltIn⟩ := relevance_never_overflows
  obtain ⟨hreached, -, hsummed⟩ :=
    hall _ _ _ 1 Quotes.finish_builder hbounded text ⟨false⟩ hwithin
  have hname := (hbuiltIn solidity List.mem_cons_self).2 "x" ⟨false⟩
  exact ⟨⟨Quotes.finish_builder, hbounded, hwithin, hshort⟩, ⟨_, hran⟩, by decide,
    (hreached _ u hran).1, hsummed hshort, solidity, hsolidity, hname.2 (by decide)⟩

/-! ### Where modes open with the same character

With `(?<=\Ka)` an `a` is found behind itself as well, so that one region after the other opens
with it. -/

namespace Stacked

def layer (inside : List Nat) (ending : Ending PatternDecl) : ModeDecl :=
  { ModeDecl.opening (.regex ⟨"(?<=\\Ka)", some '!', [], none⟩) with
    scope := some .string, ending := ending, relevance := some 10, contains := inside }

def builder : Builder :=
  { Builder.start .native with
    modes := #[some (layer [] .withParent), some (layer [0] .withParent),
      some (layer [1] (.pattern (.literal "q")))] }

def language : LanguageDecl := ⟨"toy", [], none, [2], none⟩

theorem worded_builder : builder.Worded := by
  intro m hm
  simp only [builder, List.mem_toArray, List.mem_cons, List.not_mem_nil, or_false,
    Option.some.injEq] at hm
  rcases hm with rfl | rfl | rfl
  · exact noEmptyWord_none
  · exact noEmptyWord_none
  · exact noEmptyWord_none

end Stacked

theorem exists_text_more_relevant_than_long :
    ∃ g, Stacked.builder.finish Stacked.language = .ok g ∧ g.Bounded 10 ∧
      (10 + 1) * "aq".utf8ByteSize < (g.highlight "aq" ⟨false⟩).relevance.toNat := by
  have hrelevance : (Stacked.builder.finish Stacked.language).toOption.map (fun g =>
      (g.highlight "aq" ⟨false⟩).relevance) = some 30 := by
    decide +kernel
  cases hg : Stacked.builder.finish Stacked.language with
  | error e =>
    rw [hg] at hrelevance
    cases hrelevance
  | ok g =>
    rw [hg] at hrelevance
    have hbounded : g.Bounded 10 := Builder.bounded_of_finish hg (by decide +kernel)
      Stacked.worded_builder noEmptyWord_none
    refine ⟨g, rfl, hbounded, ?_⟩
    rw [show (g.highlight "aq" ⟨false⟩).relevance = 30 from Option.some.inj hrelevance]
    decide

end Highlighting
