/-
  Highlighting/Proofs/Scan/Lookbehind.lean
  ========================================
  **However guards are realised, a text is highlighted the same.**

  A scan asks its terminals for one thing, the next match from a position.  So
  grammars with the same modes, whose terminals find the same in a text
  (`Grammar.FindsLike`), are scanned in the same states from start to end.  The
  grammars of one recipe, with guards realised in the one way and in the other,
  are of that kind where the two engines agree.
-/
import Highlighting.Proofs.Grammar.Lookbehind
import Highlighting.Proofs.Pattern.Lookbehind
import Highlighting.Scan.Run

namespace Highlighting

variable {g g' : Grammar} {text : Source}

/-- The grammars differ in their terminals alone, and these find the same in the text. -/
structure Grammar.FindsLike (text : Source) (g g' : Grammar) : Prop where
  modes : g' = { g with terminals := g'.terminals }
  size : g'.terminals.size = g.terminals.size
  find : ∀ (i : Nat) t t', g.terminals[i]? = some t → g'.terminals[i]? = some t' →
    t'.allowsEmpty = t.allowsEmpty ∧ ∀ pos, t'.pattern.find text pos = t.pattern.find text pos

namespace Scan

variable {task task' : Task} {s : State} {f : Found} {modes : List Nat} {barred : List Bar}
  {pos index : Nat} {cache : Cache}

/-- The tasks differ in their terminals alone, and these find the same. -/
structure Task.FindsLike (task task' : Task) : Prop where
  grammar : task.grammar.FindsLike task.source task'.grammar
  eq : task' = { task with grammar := task'.grammar }

namespace Task.FindsLike

variable (h : task.FindsLike task')
include h

theorem source : task'.source = task.source := by rw [h.eq]

theorem mode (m : Nat) : task'.grammar.mode m = task.grammar.mode m := by rw [h.grammar.modes]; rfl

theorem contentOf (modes : List Nat) :
    Scan.contentOf task'.grammar modes = Scan.contentOf task.grammar modes := by
  rw [h.grammar.modes]
  cases modes <;> rfl

/-! ### Searches -/

theorem searchFrom_eq : searchFrom task' barred index pos = searchFrom task barred index pos := by
  simp only [searchFrom, h.source]
  cases ht : task.grammar.terminals[index]? with
  | none =>
    have hnone : task'.grammar.terminals[index]? = none := by
      rw [Array.getElem?_eq_none_iff] at ht ⊢
      rw [h.grammar.size]
      exact ht
    rw [hnone]
  | some t =>
    have hlt : index < task'.grammar.terminals.size := by
      rw [h.grammar.size]
      exact (Array.getElem?_eq_some_iff.mp ht).1
    have ht' := Array.getElem?_eq_getElem hlt
    obtain ⟨hempty, hfind⟩ := h.grammar.find index t _ ht ht'
    have hadmits : admits barred index task'.grammar.terminals[index] = admits barred index t := by
      funext span
      rw [admits, admits, hempty]
    rw [ht']
    simp only [funext hfind, hadmits]

theorem search_eq : search task' barred pos index cache = search task barred pos index cache := by
  have hshortcuts : task'.shortcuts = task.shortcuts := by rw [h.eq]
  simp only [search, hshortcuts, h.searchFrom_eq]

theorem considerAll_eq (early : Bool) (cs : List (Nat × Candidate)) (choice : Choice) :
    considerAll task' barred pos early cs choice = considerAll task barred pos early cs choice := by
  induction cs generalizing choice with
  | nil => rfl
  | cons c cs ih => simp only [considerAll, h.search_eq, ih]

theorem openings_eq : openings task'.grammar modes = openings task.grammar modes := by
  simp only [openings, h.contentOf, h.mode]

theorem closer?_eq (depth : Nat) :
    closer? task'.grammar modes depth = closer? task.grammar modes depth := by
  induction modes generalizing depth with
  | nil => rfl
  | cons m outer ih => simp only [closer?, h.mode, ih]

theorem limits_eq : limits task' modes = limits task modes := by
  have hoptions : task'.options = task.options := by rw [h.eq]
  simp only [limits, h.closer?_eq, h.contentOf, hoptions]

theorem next?_eq (s : State) : s.next? task' = s.next? task := by
  have hshortcuts : task'.shortcuts = task.shortcuts := by rw [h.eq]
  simp only [State.next?, nextMatch, h.considerAll_eq, h.openings_eq, h.limits_eq, hshortcuts]

/-! ### Steps -/

theorem keywords_eq (s : State) : s.keywords task'.grammar = s.keywords task.grammar := by
  rw [State.keywords, State.keywords, h.contentOf]

theorem closedWith_eq (modes : List Nat) :
    State.closedWith task'.grammar modes = State.closedWith task.grammar modes := by
  induction modes with
  | nil => rfl
  | cons m outer ih => simp only [State.closedWith, h.mode, ih]

theorem closingEdge_eq (modes : List Nat) (span : Span) :
    State.closingEdge task'.grammar modes span = State.closingEdge task.grammar modes span := by
  cases modes with
  | nil => rfl
  | cons m outer => simp only [State.closingEdge, h.mode]

theorem opens_eq (mode : Nat) (span : Span) (s : State) :
    s.opens task' mode span = s.opens task mode span := by
  have hshortcuts : task'.shortcuts = task.shortcuts := by rw [h.eq]
  simp only [State.opens, State.takeWhole, State.skip, State.openRegion, h.mode, h.source,
    h.keywords_eq, h.searchFrom_eq, hshortcuts]

theorem closes_eq (depth : Nat) (span : Span) (s : State) :
    s.closes task' depth span = s.closes task depth span := by
  have hmode : task'.grammar.mode = task.grammar.mode := funext h.mode
  simp only [State.closes, State.closedBy, h.source, h.keywords_eq, h.closedWith_eq,
    h.closingEdge_eq, hmode]

theorem meetsIllegal_eq (span : Span) (s : State) :
    s.meetsIllegal task' span = s.meetsIllegal task span := by
  have hroot : task'.grammar.root = task.grammar.root := h.contentOf []
  simp only [State.meetsIllegal, h.source, hroot]

/-- **The same match does the same.** -/
theorem handle_eq (f : Found) (s : State) : s.handle task' f = s.handle task f := by
  simp only [State.handle, h.opens_eq, h.closes_eq, h.meetsIllegal_eq]

/-! ### Scans -/

theorem runFor_eq (n : Nat) (s : State) : runFor task' n s = runFor task n s := by
  induction n generalizing s with
  | zero => rfl
  | succ n ih => simp only [runFor, h.next?_eq, h.handle_eq, ih]

theorem run_eq (s : State) : run task' s = run task s := by
  rw [run, run, h.source, stepBound, stepBound, h.grammar.size, h.runFor_eq]

theorem result_eq (s : State) : result task' s = result task s := by
  have hname : task'.grammar.name = task.grammar.name := by rw [h.grammar.modes]
  simp only [result, h.source, h.keywords_eq, h.mode, hname]

end Task.FindsLike

end Scan

/-- **Grammars whose terminals find the same in a text highlight it the same.** -/
theorem Grammar.FindsLike.highlight_eq {text : String}
    (h : g.FindsLike (Source.ofString text) g') (options : Scan.Options) :
    g'.highlight text options = g.highlight text options := by
  have htask : (Scan.task g (Source.ofString text) options).FindsLike
      (Scan.task g' (Source.ofString text) options) := ⟨h, rfl⟩
  have hstart : Scan.State.start g' = Scan.State.start g := by
    rw [Scan.State.start, Scan.State.start, Scan.State.startWith, Scan.State.startWith, h.size]
  rw [Grammar.highlight, Grammar.highlight, htask.result_eq, htask.run_eq, hstart]

/-- **The two ways to look behind are interchangeable.**  A declared pattern that can be compiled in
both finds the same from every position of every text in which the engines agree on it.  So do the
terminals of the two grammars that a recipe gives; and these highlight a text the same, if the
engines agree in it on all patterns that were declared. -/
theorem lookbehinds_are_interchangeable :
    (∀ (p : PatternDecl) (native emulated : Pattern), p.compile? .native = some native →
      p.compile? .emulated = some emulated →
        ∀ text, p.EnginesAgree text → ∀ pos, native.find text pos = emulated.find text pos) ∧
    ∀ (steps : List BuildStep) (language : LanguageDecl) (native emulated : Grammar),
      (Builder.follow .native steps).finish language = .ok native →
      (Builder.follow .emulated steps).finish language = .ok emulated →
        ∀ (text : String) (options : Scan.Options),
          (∀ p ∈ (Builder.follow .native steps).patterns language,
            p.EnginesAgree (Source.ofString text)) →
          native.highlight text options = emulated.highlight text options := by
  refine ⟨fun p native emulated hnative hemulated text hagree pos =>
    p.find_native_eq_find_emulated hnative hemulated hagree, ?_⟩
  intro steps language native emulated hnative hemulated text options hagree
  rw [Builder.follow_looking .native .native steps] at hnative
  rw [Builder.follow_looking .native .emulated steps] at hemulated
  obtain ⟨hmodes, htwins⟩ := Builder.twins_of_finish hnative hemulated
  have hlike : native.FindsLike (Source.ofString text) emulated := by
    refine ⟨hmodes, htwins.size, fun i t t' ht ht' => ?_⟩
    obtain ⟨hempty, p, hp, hcompiles, hcompiles'⟩ := htwins.same i t t' ht ht'
    exact ⟨hempty, fun pos =>
      (p.find_native_eq_find_emulated hcompiles hcompiles' (hagree p hp)).symm⟩
  exact (hlike.highlight_eq options).symm

theorem lookbehinds_are_interchangeable_behind_dollars :
    let p := (PatternDecl.ofRegex "x").unlessAfter '$'
    let steps := [BuildStep.add ⟨.blank, [.scope .keyword, .opener p]⟩]
    let language : LanguageDecl := ⟨"toy", [], none, [0], none⟩
    let source := Source.ofString "a$x x"
    p.EnginesAgree source ∧
      (∃ q q', p.compile? .native = some q ∧ p.compile? .emulated = some q' ∧
        q.find source 0 = some ⟨4, 5⟩ ∧ q.find source 0 = q'.find source 0) ∧
      ∃ g g', (Builder.follow .native steps).finish language = .ok g ∧
        (Builder.follow .emulated steps).finish language = .ok g' ∧
        g.highlight "a$x x" ⟨false⟩ = g'.highlight "a$x x" ⟨false⟩ := by
  intro p steps language source
  have hnative : p.compile? .native = some (.regex (.extended
      (.seq (.behind true 1 (.set (.range '$' '$'))) (.set (.range 'x' 'x')))) none [] 0) := by
    decide +kernel
  have hemulated : p.compile? .emulated = some (.regex (.regular
      (.listing (.set (.range 'x' 'x')))) (some '$') [] 0) := by
    decide +kernel
  have hagree : p.EnginesAgree source := by
    intro c plan m notBefore trim hplan hm
    cases hnative.symm.trans hplan
    cases hemulated.symm.trans hm
    exact ⟨⟨_, .front _, Extended.Plan.prefers_set _ _⟩,
      by unfold Extended.Plan.KeepsRetries; decide +kernel⟩
  obtain ⟨hfinds, hhighlights⟩ := lookbehinds_are_interchangeable
  refine ⟨hagree, ⟨_, _, hnative, hemulated, by decide +kernel, ?_⟩, ?_⟩
  · exact hfinds p _ _ hnative hemulated source hagree 0
  · have hg : ∃ g, (Builder.follow .native steps).finish language = .ok g := ⟨_, rfl⟩
    have hg' : ∃ g, (Builder.follow .emulated steps).finish language = .ok g := ⟨_, rfl⟩
    obtain ⟨g, hg⟩ := hg
    obtain ⟨g', hg'⟩ := hg'
    refine ⟨g, g', hg, hg', hhighlights steps language g g' hg hg' _ _ fun q hq => ?_⟩
    have hpatterns : (Builder.follow .native steps).patterns language = [p] := rfl
    rw [hpatterns, List.mem_singleton] at hq
    rw [hq]
    exact hagree

end Highlighting
