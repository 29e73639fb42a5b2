/-
  Highlighting/Proofs/Language/Contexts.lean
  ==========================================
  **Literals in Solidity, in Yul and in sections of inline assembly.**

  Both languages look for literals ahead of all else outside of regions, and
  Solidity does so in the blocks of assembly as well.  So a literal has the same
  leaves by itself in either language, and between the braces of a section
  (`literals_are_the_same_in_all_contexts`).
-/
import Highlighting.Proofs.Language.Assembly
import Highlighting.Proofs.Language.DottedNames
import Highlighting.Proofs.Language.Literals
import Highlighting.Proofs.Scan.Stretches

namespace Highlighting

open Scan

/-! ### Literals outside of regions -/

/-- Outside of regions, literals are looked for ahead of all else. -/
structure Grammar.TakesLiterals (g : Grammar) : Prop where
  literals : g.HasLiterals
  contains : Literal.modes <+: g.root.contains

namespace Language

def takesLiterals (language : LanguageDecl) (b : Builder) : Bool :=
  b.hasLiterals && Literal.modes.isPrefixOf language.contains

theorem takesLiterals_solidity : declares Solidity.declare takesLiterals = true :=
  declares_of_workedOut Solidity.workedOut (by decide +kernel)

theorem takesLiterals_yul : declares Yul.declare takesLiterals = true :=
  declares_of_workedOut Yul.workedOut (by decide +kernel)

theorem takesLiterals_of_finish {declare : Construct LanguageDecl} {g : Grammar}
    (h : declares declare takesLiterals = true)
    (hg : (do let (language, b) ← declare (Builder.start .usual); b.finish language) = .ok g) :
    g.TakesLiterals := by
  obtain ⟨language, b, -, hfinish, hcheck⟩ := exists_finish_of_declares h hg
  rw [takesLiterals, Bool.and_eq_true, List.isPrefixOf_iff_prefix] at hcheck
  refine ⟨Builder.hasLiterals_of_finish hfinish hcheck.1, ?_⟩
  rw [(Builder.realizes_of_finish hfinish).contains]
  exact hcheck.2

end Language

namespace Grammar

variable {g : Grammar} {w : String} {n : Node}

/-- Where the text is set off, a scan outside of regions shows the node. -/
def Shows (g : Grammar) (w : String) (n : Node) : Prop :=
  ∀ front rest options, Source.SetOff front rest →
    Crosses (task g (front ++ (Source.ofString w ++ rest)) options) [] front.size
      (front.size + (Source.ofString w).size) [n]

/-- By itself, such a text is that node. -/
theorem Shows.nodes_eq (h : g.Shows w n)
    (hsound : ∀ source options, (task g source options).IsSound) (options : Options) :
    (g.highlight w options).nodes = [n] := by
  have hcross := h #[] #[] options ⟨.inl rfl, .inl rfl⟩
  rw [Array.append_empty, Array.empty_append, show (#[] : Source).size = 0 from rfl,
    Nat.zero_add] at hcross
  exact nodes_of_crosses (hsound _ _) hcross

/-- What is shown as a node wherever it stands is so outside of regions. -/
theorem TakesLiterals.shows (hg : g.TakesLiterals)
    (hsound : ∀ source options, (task g source options).IsSound)
    (hn : Literal.ShownAs (Source.ofString w) n) : g.Shows w n :=
  fun _ _ _ hoff => hn _ _ _ _ ⟨hsound _ _, hg.literals, hg.contains, rfl, hoff⟩

end Grammar

/-! ### Sections of assembly -/

namespace Language.Solidity

/-- Literals are looked for in the outermost block, too, and names are cut out of the text around
it. -/
def hasSection (outer top block : Nat) (language : LanguageDecl) (b : Builder) : Bool :=
  hasAssembly outer top block language b &&
    b.modeAt (fun m => m.scope.isNone && !m.excludesBegin && m.keywords.any fun t =>
      t.lexeme == .listing (.name nameStart nameRest) &&
        t.classify "assembly".toList == some .keyword) outer &&
    b.modeAt (fun m => m.scope.isNone && !m.excludesBegin && m.keywords.any (fun t =>
      t.lexeme == .listing (.name nameStart Yul.nameRest)) &&
        Literal.modes.isPrefixOf m.contains) top

/-- A section of assembly opens with its word, and the outermost block with the brace behind. -/
structure HasSection (g : Grammar) (outer top block : Nat) : Prop where
  assembly : HasAssembly g outer top block
  never : (g.mode outer).ending = .never
  scope_outer : (g.mode outer).scope = none
  scope_top : (g.mode top).scope = none
  excludesBegin_outer : (g.mode outer).excludesBegin = false
  excludesBegin_top : (g.mode top).excludesBegin = false
  keywords_outer : ∃ t, (g.mode outer).content.keywords = some t ∧
    t.lexeme = .listing (.name nameStart nameRest) ∧ t.classify "assembly".toList = some .keyword
  keywords_top : ∃ t, (g.mode top).content.keywords = some t ∧
    t.lexeme = .listing (.name nameStart Yul.nameRest)
  contains_top : Literal.modes <+: (g.mode top).content.contains
  opens_outer : ∀ v options,
    Place.next? (task g (Source.ofString assemblyStart ++ v) options) [] ⟨0, []⟩ =
      some ⟨⟨0, 8⟩, .opens outer⟩
  opens_top : ∀ v options,
    Place.next? (task g (Source.ofString assemblyStart ++ v) options) [] ⟨8, [outer]⟩ =
      some ⟨⟨9, 10⟩, .opens top⟩

theorem hasSection_solidity : declares declare (hasSection 39 36 35) = true :=
  declares_of_workedOut workedOut (by decide +kernel)

theorem exists_keywords {b : Builder} {terminals : Array Terminal} {decl : ModeDecl} {m : Mode}
    {check : KeywordTable → Bool} (hm : m.Realizes b.lookbehind terminals decl)
    (h : decl.keywords.any check = true) : ∃ t, m.content.keywords = some t ∧ check t = true := by
  obtain ⟨t, ht, hcheck⟩ := (Option.any_eq_true _ _).mp h
  have hkeywords := hm.keywords
  rw [Builder.modeKeywords, ht] at hkeywords
  exact ⟨t, (Except.ok.inj hkeywords).symm, hcheck⟩

theorem hasSection_of_finish {outer top block : Nat} {g : Grammar}
    (h : declares declare (hasSection outer top block) = true) (hg : grammar = .ok g)
    (hsound : ∀ source options, (task g source options).IsSound) :
    HasSection g outer top block := by
  obtain ⟨language, b, hdeclare, hfinish, hcheck⟩ := exists_finish_of_declares h hg
  simp only [hasSection, Bool.and_eq_true] at hcheck
  obtain ⟨⟨hassembly, houter⟩, htop⟩ := hcheck
  have hassembly' : HasAssembly g outer top block := by
    refine hasAssembly_of_finish ?_ hg hsound
    rw [declares, hdeclare]
    exact hassembly
  rw [hasAssembly, Bool.and_eq_true, Bool.and_eq_true] at hassembly
  obtain ⟨⟨-, hsection⟩, -⟩ := hassembly
  have hopens : ∀ v options, (g.mode outer).ending = .never ∧ _ ∧ _ := fun v options =>
    Builder.next?_of_opensSection (v := v) hfinish (hsound _ options)
      (show (Source.ofString assemblyStart).EndsWith '\x7b' by unfold Source.EndsWith; decide)
      hassembly'.stopsAtOpening hsection
  obtain ⟨decl, hdecl, hmode⟩ := Builder.exists_of_finish hfinish houter
  obtain ⟨decl', hdecl', hmode'⟩ := Builder.exists_of_finish hfinish htop
  simp only [Bool.and_eq_true, Bool.not_eq_true', Option.isNone_iff_eq_none,
    List.isPrefixOf_iff_prefix] at hdecl hdecl'
  obtain ⟨⟨hscope, hbegin⟩, hkeywords⟩ := hdecl
  obtain ⟨⟨⟨hscope', hbegin'⟩, hkeywords'⟩, hcontains⟩ := hdecl'
  obtain ⟨t, ht, hlexeme⟩ := exists_keywords hmode hkeywords
  obtain ⟨t', ht', hlexeme'⟩ := exists_keywords hmode' hkeywords'
  simp only [Bool.and_eq_true, beq_iff_eq] at hlexeme hlexeme'
  exact ⟨hassembly', (hopens #[] ⟨false⟩).1, hmode.scope.trans hscope, hmode'.scope.trans hscope',
    hmode.excludesBegin.trans hbegin, hmode'.excludesBegin.trans hbegin', ⟨t, ht, hlexeme⟩,
    ⟨t', ht', hlexeme'⟩, hmode'.contains ▸ hcontains, fun v options => (hopens v options).2.1,
    fun v options => (hopens v options).2.2⟩

/-- The scan of a text in the outermost block of a section, with a blank on either side. -/
def sectionTask (g : Grammar) (options : Options) (s : Source) : Task :=
  task g (Source.ofString "assembly \x7b " ++ (s ++ Source.ofString " \x7d")) options

namespace HasSection

variable {g : Grammar} {options : Options} {s : Source} {outer top block p : Nat} {c : Char}
  {scope : Scope} {children : List Node}

theorem getElem?_front (hc : (Source.ofString "assembly \x7b ")[p]? = some c) :
    (sectionTask g options s).source[p]? = some c :=
  (Array.getElem?_append_left (Array.getElem?_eq_some_iff.mp hc).1).trans hc

theorem getElem?_behind (hc : (Source.ofString " \x7d")[p]? = some c) :
    (sectionTask g options s).source[11 + (s.size + p)]? = some c :=
  (Source.getElem?_append_add (Source.ofString "assembly \x7b ") _ _).trans
    ((Source.getElem?_append_add s _ p).trans hc)

theorem size_eq : (sectionTask g options s).source.size = 11 + (s.size + 2) :=
  Array.size_append.trans (congrArg (11 + ·) Array.size_append)

theorem sectionTask_eq : sectionTask g options s = task g (Source.ofString assemblyStart ++
    (Source.ofString " " ++ (s ++ Source.ofString " \x7d"))) options := by
  have hsplit : Source.ofString "assembly \x7b " =
      Source.ofString assemblyStart ++ Source.ofString " " := by decide
  rw [sectionTask, hsplit, Array.append_assoc]

variable (h : HasSection g outer top block) (hsound : (sectionTask g options s).IsSound)
include h

theorem next?_outer : Place.next? (sectionTask g options s) [] ⟨0, []⟩ =
    some ⟨⟨0, 8⟩, .opens outer⟩ := by
  rw [sectionTask_eq]
  exact h.opens_outer _ options

theorem next?_top : Place.next? (sectionTask g options s) [] ⟨8, [outer]⟩ =
    some ⟨⟨9, 10⟩, .opens top⟩ := by
  rw [sectionTask_eq]
  exact h.opens_top _ options

include hsound

/-- The section opens with its word. -/
theorem leads_outer :
    Leads (sectionTask g options s) [] 0 [outer] 8 [.region .keyword [.text "assembly"]] := by
  obtain ⟨t, hkeywords, hlexeme, hclass⟩ := h.keywords_outer
  have hword : (sectionTask g options s).source.extract 0 8 = Source.ofString "assembly" :=
    (Source.extract_append (by decide)).trans (by decide)
  have hchars : (sectionTask g options s).source.chars ⟨0, 8⟩ = "assembly".toList :=
    congrArg Array.toList hword
  have hrecords : Records (sectionTask g options s).source (g.mode outer).content.keywords 0 8
      [.enclosed ((t.classify ((sectionTask g options s).source.chars ⟨0, 8⟩)).map
        KeywordClass.scope) ((sectionTask g options s).source.slice ⟨0, 8⟩)] := by
    rw [hkeywords]
    refine .of_findAll_single (by decide) ?_
    rw [hword, hlexeme]
    exact Matcher.findAll_name (by decide) (by decide)
  rw [Source.slice, hchars, hclass] at hrecords
  have hending : (g.mode outer).ending ≠ .immediate := by simp [h.never]
  exact .opens hsound h.excludesBegin_outer hending h.scope_outer h.next?_outer hrecords

/-- A blank in the outermost block is shown as it is. -/
theorem crosses_blank (hp : (sectionTask g options s).source[p]? = some ' ') :
    Crosses (sectionTask g options s) [top, outer] p (p + 1) [.text " "] := by
  obtain ⟨t, hkeywords, hlexeme⟩ := h.keywords_top
  refine .char hlexeme (by decide) hkeywords hp (by decide) ?_
  refine quiet_of_spared (h.assembly.blocks.signs top (.inl rfl)) hsound [outer] hp
    List.mem_cons_self fun s hs heq => ?_
  have hbrace := isBrace_of_mem hs
  rw [heq] at hbrace
  cases hbrace

/-- The outermost block opens with its brace. -/
theorem leads_top :
    Leads (sectionTask g options s) [outer] 8 [top, outer] 11 [.text " \x7b "] := by
  obtain ⟨t, hkeywords, hlexeme, -⟩ := h.keywords_outer
  obtain ⟨t', hkeywords', hlexeme'⟩ := h.keywords_top
  have hopens : Place.next? (sectionTask g options s) [] ⟨8, [outer]⟩ =
      some ⟨⟨9, 10⟩, .opens top⟩ := h.next?_top
  have hblank : Crosses (sectionTask g options s) [outer] 8 9 [.text " "] :=
    .char hlexeme (by decide) hkeywords (getElem?_front (by decide)) (by decide)
      (Place.quiet_of_next? hsound hopens)
  have hbrace : Leads (sectionTask g options s) [outer] 9 [top, outer] 10 [.text "\x7b"] := by
    obtain ⟨-, u, hclose, -⟩ := (h.assembly.blocks.signs top (.inl rfl)).closes '\x7d' 0
      (List.mem_cons_of_mem _ List.mem_cons_self)
    have hending : (g.mode top).ending ≠ .immediate := by rw [hclose]; exact nofun
    have hrecords : Records (sectionTask g options s).source (g.mode top).content.keywords 9 10
        [.text "\x7b"] := by
      rw [hkeywords']
      exact .of_char hlexeme' (by decide) (getElem?_front (by decide)) (by decide)
    exact .opens hsound h.excludesBegin_top hending h.scope_top
      (Place.next?_at_start hsound hopens) hrecords
  exact (hblank.trans hbrace).trans (h.crosses_blank hsound (getElem?_front (by decide)))

/-- The brace behind the text closes the block, and the section with it. -/
theorem leads_end : Leads (sectionTask g options s) [top, outer] (11 + s.size) []
    (11 + (s.size + 2)) [.text " \x7d"] := by
  obtain ⟨t, hkeywords, hlexeme⟩ := h.keywords_top
  have hbrace : (sectionTask g options s).source[11 + (s.size + 1)]? = some '\x7d' :=
    getElem?_behind (by decide)
  have hcloses : Place.next? (sectionTask g options s) [] ⟨11 + (s.size + 1), [top, outer]⟩ =
      some ⟨⟨11 + (s.size + 1), 11 + (s.size + 2)⟩, .closes 0⟩ :=
    next?_at_sign (h.assembly.blocks.signs top (.inl rfl)) hsound [outer]
      (List.mem_cons_of_mem _ List.mem_cons_self) hbrace
  have hclosed : [top, outer].drop (State.closedBy g [top, outer] 0) = [] := by
    simp [State.closedBy, State.closedWith, h.assembly.blocks.endsParent_top,
      h.assembly.blocks.endsParent_outer]
  have hscopes : ∀ m ∈ [top, outer], (g.mode m).scope = none := by
    simp [h.scope_top, h.scope_outer]
  have hrecords : Records (sectionTask g options s).source (g.mode top).content.keywords
      (11 + (s.size + 1)) (11 + (s.size + 2)) [.text "\x7d"] := by
    rw [hkeywords]
    exact .of_char hlexeme (by decide) hbrace (by decide)
  have hsep : (sectionTask g options s).source.Separates (g.mode top).content.keywords
      (11 + (s.size + 1)) := by
    rw [hkeywords]
    refine separates_of_gap hlexeme (by decide) (.inl ?_)
    rw [hbrace]
    decide
  have hblank : Crosses (sectionTask g options s) [top, outer] (11 + s.size) (11 + (s.size + 1))
      [.text " "] := h.crosses_blank hsound (getElem?_behind (p := 0) (by decide))
  exact hblank.trans
    (.closes hsound hcloses h.assembly.blocks.excludesEnd_top hclosed hscopes hrecords hsep)

/-- **A literal shows its node in a section**, with the rest of that around it. -/
theorem crosses_section (hliterals : g.HasLiterals)
    (hn : Literal.ShownAs s (.region scope children)) :
    Crosses (sectionTask g options s) [] 0 (11 + (s.size + 2))
      [.text " \x7d", .region scope children, .text " \x7b ",
        .region .keyword [.text "assembly"]] := by
  have hfront : (Source.ofString "assembly \x7b ").EndsWith ' ' := by
    unfold Source.EndsWith
    decide
  have hstands : Literal.Stands (sectionTask g options s) [top, outer]
      (Source.ofString "assembly \x7b ") s (Source.ofString " \x7d") :=
    ⟨hsound, hliterals, h.contains_top, rfl, .inr ⟨' ', List.mem_cons_self, hfront⟩,
      .inr ⟨' ', List.mem_cons_self, by decide⟩⟩
  exact (((h.leads_outer hsound).trans (h.leads_top hsound)).trans (hn _ _ _ _ hstands)).trans
    (h.leads_end hsound)

end HasSection

end Language.Solidity

/-! ### Leaves -/

/-- The leaves of a text in a language are those of its grammar. -/
theorem Registry.leaves_eq {r : Registry} {g : Grammar} {language : String}
    (h : r.language? language = some g) (text : String) : r.leaves text language =
      .ok ((g.highlight text r.options).leaves.map fun t => (t.category, t.text)) := by
  rw [leaves, tokensBy, highlight, h]
  rfl

open Language.Solidity in
/-- **A literal is tokenized the same in Solidity, in Yul, and in a section of assembly**, whatever
kind of literal it is. -/
theorem literals_are_the_same_in_all_contexts :
    ∃ r, Registry.withBuiltIns = .ok r ∧ ∀ s : String, Literal.IsLiteral s.toList →
      ∃ ts, r.leaves s "sol" = .ok ts ∧ r.leaves s "yul" = .ok ts ∧
        r.leaves ("assembly \x7b " ++ s ++ " \x7d") "sol" =
          .ok (("keyword", "assembly") :: ("none", " \x7b ") :: ts ++ [("none", " \x7d")]) := by
  obtain ⟨r, solidity, yul, hr⟩ := Registry.exists_isBuiltIn
  refine ⟨r, hr.eq, fun s hs => ?_⟩
  have hsol := Language.takesLiterals_of_finish Language.takesLiterals_solidity hr.declaresSolidity
  have hyul := Language.takesLiterals_of_finish Language.takesLiterals_yul hr.declaresYul
  have hassembly := hasSection_of_finish hasSection_solidity hr.declaresSolidity
    hr.suitsSolidity.isSound
  obtain ⟨scope, children, -, hn⟩ := Literal.exists_shownAs
    (show Literal.IsLiteral (Source.ofString s).toList from hs)
  have hsection : (solidity.highlight ("assembly \x7b " ++ s ++ " \x7d") r.options).nodes =
      [.region .keyword [.text "assembly"], .text " \x7b ", .region scope children,
        .text " \x7d"] := by
    have htask : sectionTask solidity r.options (Source.ofString s) =
        task solidity (Source.ofString ("assembly \x7b " ++ s ++ " \x7d")) r.options := by
      rw [sectionTask, Source.ofString_append, Source.ofString_append, Array.append_assoc]
    have hcross : Crosses (sectionTask solidity r.options (Source.ofString s)) [] 0
        (sectionTask solidity r.options (Source.ofString s)).source.size _ :=
      HasSection.size_eq ▸ hassembly.crosses_section (hr.suitsSolidity.isSound _ _) hsol.literals hn
    rw [htask] at hcross
    exact nodes_of_crosses (hr.suitsSolidity.isSound _ _) hcross
  have hleaves : ∀ {g : Grammar}, g.Shows s (.region scope children) →
      (∀ source options, (task g source options).IsSound) →
        (g.highlight s r.options).leaves = Node.leavesIn none (.region scope children) := by
    intro g hshows hsound
    rw [Highlighted.leaves, hshows.nodes_eq hsound, Node.allLeavesIn, Node.allLeavesIn,
      List.append_nil]
  refine ⟨(Node.leavesIn none (.region scope children)).map fun t => (t.category, t.text),
    ?_, ?_, ?_⟩
  · rw [Registry.leaves_eq hr.sol,
      hleaves (hsol.shows hr.suitsSolidity.isSound hn) hr.suitsSolidity.isSound]
  · rw [Registry.leaves_eq hr.yul, hleaves (hyul.shows hr.suitsYul.isSound hn) hr.suitsYul.isSound]
  · rw [Registry.leaves_eq hr.sol, Highlighted.leaves, hsection]
    simp only [Node.allLeavesIn, Node.leavesIn, List.map_append, List.append_nil]
    rfl

/-- A comment with a marker in it, in all three. -/
theorem comment_is_the_same_in_all_contexts :
    ∃ r, Registry.withBuiltIns = .ok r ∧ Literal.IsLiteral "/* TODO: a*b */".toList ∧
      ∃ ts, r.leaves "/* TODO: a*b */" "sol" = .ok ts ∧ r.leaves "/* TODO: a*b */" "yul" = .ok ts ∧
        r.leaves ("assembly \x7b " ++ "/* TODO: a*b */" ++ " \x7d") "sol" =
          .ok (("keyword", "assembly") :: ("none", " \x7b ") :: ts ++ [("none", " \x7d")]) := by
  obtain ⟨r, hr, hsame⟩ := literals_are_the_same_in_all_contexts
  have hcomment : Literal.IsLiteral "/* TODO: a*b */".toList :=
    .comment ⟨" TODO: a*b ".toList, by decide, by decide +kernel⟩
  exact ⟨r, hr, hcomment, hsame _ hcomment⟩

end Highlighting
