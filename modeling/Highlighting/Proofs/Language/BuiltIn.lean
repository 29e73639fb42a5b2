/-
  Highlighting/Proofs/Language/BuiltIn.lean
  =========================================
  **The built-in languages are accepted**, and take numbers.

  What a grammar is follows from its declarations, so that it is enough to look
  through those: whether all is there and compiles (`Builder.isAccepted`),
  whether all expressions are searched for by the lists of their ends
  (`Pattern.isListed`), and whether the modes for numbers are as they have to be
  (`Builder.takesNumbers`).  The two languages pass, so that the registry has
  them both, and what is a number there is known from the literals alone
  (`number_tokens_are_literals`).
-/
import Highlighting.Registry
import Highlighting.Proofs.Grammar.Listed
import Highlighting.Proofs.Language.Tables
import Highlighting.Proofs.Scan.Numbers

namespace Highlighting

open Search

variable {b : Builder} {language : LanguageDecl} {g : Grammar} {k : Nat}

/-! ### Declarations that take numbers -/

/-- The digits by their places in the order of characters. -/
theorem CharClass.exists_of_isAsciiDigit {c : Char} (h : isAsciiDigit c = true) :
    ∃ n < 10, c = Char.ofNat (48 + n) := by
  rw [isAsciiDigit, Bool.and_eq_true, decide_eq_true_eq, decide_eq_true_eq] at h
  have hleast : 48 ≤ c.toNat := h.1
  have hmost : c.toNat ≤ 57 := h.2
  refine ⟨c.toNat - 48, by omega, ?_⟩
  rw [Nat.add_sub_cancel' hleast, Char.ofNat_toNat]

/-- The characters that a number can start with. -/
def literalStarts : List Char := "-.0123456789".toList

theorem mem_literalStarts {c : Char} (h : NumberLiteral.startsLiteral c = true) :
    c ∈ literalStarts := by
  have hdigit : ∀ n < 10, Char.ofNat (48 + n) ∈ literalStarts := by decide
  rw [NumberLiteral.startsLiteral, NumberLiteral.startsUnsigned, Bool.or_eq_true, Bool.or_eq_true,
    beq_iff_eq, beq_iff_eq] at h
  rcases h with (h | rfl) | rfl
  · obtain ⟨n, hn, rfl⟩ := CharClass.exists_of_isAsciiDigit h
    exact hdigit n hn
  · decide
  · decide

/-- No match starts with one of the characters. -/
def Pattern.shuns (cs : List Char) : Pattern → Bool
  | regex (.regular (.listing r)) _ _ _ => (r.starts []).all fun s => cs.all fun c => !s.contains c
  | regex _ _ _ _ => false
  | number => cs.all fun c => !NumberLiteral.startsLiteral c
  | never => true

theorem Pattern.not_mem_of_shuns {p : Pattern} {cs : List Char} (h : p.shuns cs = true)
    {text : Source} {pos stop : Nat} (hend : endAt? (p.find text ·) pos = some stop)
    (hlt : pos < stop) : ∃ c, text[pos]? = some c ∧ c ∉ cs := by
  unfold shuns at h
  split at h
  · obtain ⟨c, hc, s, hs, hcontains⟩ := meets_of_endAt?_listing hlt hend
    refine ⟨c, hc, fun hmem => ?_⟩
    have hshuns := List.all_eq_true.mp (List.all_eq_true.mp h s hs) c hmem
    rw [hcontains] at hshuns
    cases hshuns
  · cases h
  · have hle : pos ≤ text.size := by
      by_contra hgt
      rw [Pattern.endAt?_of_gt (Nat.lt_of_not_le hgt)] at hend
      cases hend
    rw [endAt?_number hle] at hend
    obtain ⟨c, hc, hstarts⟩ :=
      (Option.any_eq_true _ _).mp (NumberLiteral.startsLiteral_of_matchAt? hend)
    refine ⟨c, hc, fun hmem => ?_⟩
    have hshuns := List.all_eq_true.mp h c hmem
    rw [hstarts] at hshuns
    cases hshuns
  · cases hend

/-- No match of the expression starts with what a number can start with. -/
def Pattern.shunsNumbers : Pattern → Bool
  | regex (.regular (.listing r)) _ _ _ =>
    (r.starts []).all fun s => literalStarts.all fun c => !s.contains c
  | regex _ _ _ _ | number => false
  | never => true

theorem Pattern.shuns_of_shunsNumbers {p : Pattern} (h : p.shunsNumbers = true) :
    p.shuns literalStarts = true := by
  unfold shunsNumbers at h
  split at h
  · exact h
  · cases h
  · cases h
  · rfl

theorem Pattern.avoids_of_shunsNumbers {p : Pattern} (h : p.shunsNumbers = true) :
    p.Avoids NumberLiteral.startsLiteral := by
  intro text pos stop hend hlt
  obtain ⟨c, hc, hnot⟩ := not_mem_of_shuns (shuns_of_shunsNumbers h) hend hlt
  rw [hc, Option.any_some]
  cases hstarts : NumberLiteral.startsLiteral c with
  | false => rfl
  | true => exact absurd (mem_literalStarts hstarts) hnot

/-- The mode takes number literals as a whole. -/
def ModeDecl.isNumber (m : ModeDecl) : Bool :=
  m.scope == some .number && m.opener == some .number && m.ending == .immediate &&
    !m.excludesBegin && m.keywords.isNone && m.openingWords.isEmpty

theorem ModeDecl.isNumberMode {m : ModeDecl} (h : m.isNumber = true)
    (hm : (g.mode k).Realizes b.lookbehind g.terminals m) : g.IsNumberMode k := by
  simp only [isNumber, Bool.and_eq_true, beq_iff_eq, Bool.not_eq_true', Option.isNone_iff_eq_none]
    at h
  obtain ⟨⟨⟨⟨⟨hscope, hopener⟩, hending⟩, hexcludes⟩, hkeywords⟩, hwords⟩ := h
  obtain ⟨p, hp, pattern, hcompile, hterminal⟩ := hm.opener
  obtain rfl : PatternDecl.number = p := Option.some.inj (hopener.symm.trans hp)
  obtain rfl : Pattern.number = pattern := Option.some.inj hcompile
  refine ⟨hm.scope.trans hscope, hterminal, ?_, hm.excludesBegin.trans hexcludes, ?_⟩
  · have hrealizes := hm.ending
    rw [hending] at hrealizes
    generalize (g.mode k).ending = ending at hrealizes
    cases hrealizes
    rfl
  · have hnone := hm.keywords
    rw [Builder.modeKeywords, hkeywords] at hnone
    simp only [hwords, if_true] at hnone
    exact (Except.ok.inj hnone).symm

namespace Builder

/-- One of these modes is for numbers, and those ahead of it open with something else. -/
def reachesNumbers (b : Builder) : List Nat → Bool
  | [] => false
  | k :: rest =>
    b.modeAt ModeDecl.isNumber k ||
      b.modeAt (fun m => m.opener.any fun p =>
        (p.compile? b.lookbehind).any Pattern.shunsNumbers) k && b.reachesNumbers rest

/-- The modes of the number scope are for numbers, and one of them can open outside of all
regions. -/
def takesNumbers (b : Builder) (language : LanguageDecl) : Bool :=
  b.modes.all (fun slot => slot.all fun m => m.scope != some .number || m.isNumber) &&
    b.reachesNumbers language.contains

theorem reachesNumbers_spec {ks : List Nat} (hg : g.Realizes b language)
    (hks : ∀ k ∈ ks, k < g.modes.size) (h : b.reachesNumbers ks = true) :
    ∃ rivals k rest, ks = rivals ++ k :: rest ∧ g.IsNumberMode k ∧
      ∀ m ∈ rivals, ∀ t, g.terminals[(g.mode m).opener]? = some t →
        t.pattern.Avoids NumberLiteral.startsLiteral := by
  induction ks with
  | nil => cases h
  | cons k rest ih =>
    have hk := hks k List.mem_cons_self
    rw [reachesNumbers, Bool.or_eq_true, Bool.and_eq_true] at h
    rcases h with hnumber | ⟨hshuns, hrest⟩
    · obtain ⟨m, hm, hrealizes⟩ := exists_of_modeAt hg hk hnumber
      refine ⟨[], k, rest, rfl, m.isNumberMode hm hrealizes, ?_⟩
      intro m hm
      cases hm
    · obtain ⟨rivals, j, rest', rfl, hj, hrivals⟩ :=
        ih (fun k hk => hks k (List.mem_cons_of_mem _ hk)) hrest
      refine ⟨k :: rivals, j, rest', rfl, hj, ?_⟩
      intro m hm t ht
      rcases List.mem_cons.mp hm with rfl | hm
      · obtain ⟨decl, hdecl, hrealizes⟩ := exists_of_modeAt hg hk hshuns
        obtain ⟨p, hp, pattern, hcompile, hterminal⟩ := hrealizes.opener
        obtain rfl : ⟨pattern, false⟩ = t := Option.some.inj (hterminal.symm.trans ht)
        rw [hp, Option.any_some, hcompile] at hdecl
        exact Pattern.avoids_of_shunsNumbers hdecl
      · exact hrivals m hm t ht

/-- **Declarations that take numbers make a grammar that does.** -/
theorem takesNumbers_of_finish (h : b.finish language = .ok g)
    (hcheck : b.takesNumbers language = true) : g.TakesNumbers := by
  have hg := realizes_of_finish h
  have hin := inOrder_of_finish h
  rw [takesNumbers, Bool.and_eq_true, Array.all_eq_true_iff_forall_mem] at hcheck
  obtain ⟨hwhole, hreaches⟩ := hcheck
  constructor
  · intro k hscope
    by_cases hk : k < g.modes.size
    · obtain ⟨m, hslot, hm⟩ := hg.mode k hk
      have hm' := hwhole (some m) (Array.mem_of_getElem? hslot)
      rw [Option.all_some, Bool.or_eq_true, bne_iff_ne, ← hm.scope] at hm'
      exact m.isNumberMode (hm'.resolve_left (not_not_intro hscope)) hm
    · have hdefault : g.mode k = default := by
        rw [Grammar.mode, Array.getElem?_eq_none (Nat.le_of_not_lt hk)]
        rfl
      rw [hdefault] at hscope
      cases hscope
  · rw [hg.contains]
    exact reachesNumbers_spec hg (hg.contains ▸ hin.root.contains) hreaches

end Builder

/-! ### The languages -/

namespace Language

/-- What is declared passes a check. -/
def declares (declare : Construct LanguageDecl) (check : LanguageDecl → Builder → Bool) : Bool :=
  match declare (Builder.start .usual) with
  | .ok (language, b) => check language b
  | .error _ => false

/-- What is declared is checked where the tables are worked out. -/
theorem declares_of_workedOut {declare : Construct LanguageDecl}
    {check : LanguageDecl → Builder → Bool} (worked : { c : Construct LanguageDecl // declare = c })
    (h : declares worked.1 check = true) : declares declare check = true := by
  rwa [worked.2]

theorem exists_of_declares {declare : Construct LanguageDecl}
    {check : LanguageDecl → Builder → Bool} (h : declares declare check = true) :
    ∃ language b, declare (Builder.start .usual) = .ok (language, b) ∧
      check language b = true := by
  unfold declares at h
  split at h
  · next language b hdeclare => exact ⟨language, b, hdeclare, h⟩
  · cases h

/-- A grammar is finished from what is declared, and that passes the check. -/
theorem exists_finish_of_declares {declare : Construct LanguageDecl}
    {check : LanguageDecl → Builder → Bool} (h : declares declare check = true)
    (hg : (do let (language, b) ← declare (Builder.start .usual); b.finish language) = .ok g) :
    ∃ language b, declare (Builder.start .usual) = .ok (language, b) ∧
      b.finish language = .ok g ∧ check language b = true := by
  obtain ⟨language, b, hdeclare, hcheck⟩ := exists_of_declares h
  rw [Builder.bind_ok hdeclare] at hg
  exact ⟨language, b, hdeclare, hg, hcheck⟩

/-- The language answers to these names, is accepted, has no expressions but those searched for by
the lists of their ends, and takes numbers. -/
def suits (name : String) (aliases : List String) (language : LanguageDecl) (b : Builder) : Bool :=
  language.name == name && language.aliases == aliases && b.isAccepted language &&
    b.allPatterns language Pattern.isListed && b.takesNumbers language

/-- The grammar is that of the language, and all that is declared of numbers holds of it. -/
structure Suits (name : String) (aliases : List String) (g : Grammar) : Prop where
  name : g.name = name
  aliases : g.aliases = aliases
  takesNumbers : g.TakesNumbers
  isSound : ∀ source options, (Scan.task g source options).IsSound

theorem exists_grammar_of_suits {declare : Construct LanguageDecl} {name : String}
    {aliases : List String} (h : declares declare (suits name aliases) = true) :
    ∃ g, (do let (language, b) ← declare (Builder.start .usual); b.finish language) = .ok g ∧
      Suits name aliases g := by
  obtain ⟨language, b, hdeclare, hsuits⟩ := exists_of_declares h
  simp only [suits, Bool.and_eq_true, beq_iff_eq] at hsuits
  obtain ⟨⟨⟨⟨hname, haliases⟩, haccepted⟩, hlisted⟩, hnumbers⟩ := hsuits
  obtain ⟨g, hg⟩ := Builder.exists_finish haccepted
  have hrealizes := Builder.realizes_of_finish hg
  refine ⟨g, ?_, hrealizes.name.trans hname, hrealizes.aliases.trans haliases,
    Builder.takesNumbers_of_finish hg hnumbers, ?_⟩
  · rw [Builder.bind_ok hdeclare]
    exact hg
  · intro source options
    have hreliable := Builder.isReliable_of_isListed hg hlisted source
    exact ⟨Builder.inOrder_of_finish hg, hreliable.searchesSteadily, hreliable.searchesWithin⟩

theorem suits_solidity : declares Solidity.declare (suits "solidity" ["sol"]) = true :=
  declares_of_workedOut Solidity.workedOut (by decide +kernel)

theorem suits_yul : declares Yul.declare (suits "yul" []) = true :=
  declares_of_workedOut Yul.workedOut (by decide +kernel)

theorem exists_solidity : ∃ g, Solidity.grammar = .ok g ∧ Suits "solidity" ["sol"] g :=
  exists_grammar_of_suits suits_solidity

theorem exists_yul : ∃ g, Yul.grammar = .ok g ∧ Suits "yul" [] g :=
  exists_grammar_of_suits suits_yul

end Language

/-! ### The registry -/

namespace Registry

/-- The registry of the built-in languages has the two grammars, under their names. -/
structure IsBuiltIn (r : Registry) (solidity yul : Grammar) : Prop where
  eq : withBuiltIns = .ok r
  suitsSolidity : Language.Suits "solidity" ["sol"] solidity
  suitsYul : Language.Suits "yul" [] yul
  declaresSolidity : Language.Solidity.grammar = .ok solidity
  declaresYul : Language.Yul.grammar = .ok yul
  sol : r.language? "sol" = some solidity
  yul : r.language? "yul" = some yul

theorem exists_isBuiltIn : ∃ r solidity yul, IsBuiltIn r solidity yul := by
  obtain ⟨solidity, hsolidity, hs⟩ := Language.exists_solidity
  obtain ⟨yul, hyul, hy⟩ := Language.exists_yul
  have hs' : Language.Solidity.grammarWith .usual = .ok solidity := hsolidity
  have hy' : Language.Yul.grammarWith .usual = .ok yul := hyul
  have hgrammars : ((empty.register solidity).register yul).grammars = [solidity, yul] := by
    have hne : solidity.name ≠ yul.name := by
      rw [hs.name, hy.name]
      decide
    show place yul [solidity] = [solidity, yul]
    rw [place, if_neg hne, place]
  refine ⟨(empty.register solidity).register yul, solidity, yul, ?_, hs, hy, hsolidity, hyul, ?_,
    ?_⟩
  · simp only [withBuiltIns, builtIns, registerAll, hs', hy']
  · -- no language has that name, so that the alias counts
    simp only [language?, hgrammars, List.find?_cons, Grammar.answersTo, hs.name, hs.aliases,
      hy.name]
    rfl
  · simp only [language?, hgrammars, List.find?_cons, hs.name, hy.name]
    rfl

/-- The tokens of a text in a language are those of its grammar. -/
theorem tokens_eq {r : Registry} {language : String} (h : r.language? language = some g)
    (text : String) : r.tokens text language =
      .ok ((g.highlight text r.options).tokens.map fun t => (t.category, t.text)) := by
  rw [tokens, tokensBy, highlight, h]
  rfl

end Registry

theorem Token.eq_number_iff {t : Token} {text : String} :
    (t.category, t.text) = ("number", text) ↔ t = ⟨some .number, text⟩ := by
  obtain ⟨scope, s⟩ := t
  rw [Prod.mk.injEq, Token.mk.injEq]
  have hscope : Scope.categoryName scope = "number" ↔ scope = some .number := by
    cases scope with
    | none => decide
    | some scope => cases scope <;> decide
  exact and_congr hscope Iff.rfl

/-- **In the built-in languages, a text is one number if and only if it is a literal.** -/
theorem number_tokens_are_literals :
    ∃ r, Registry.withBuiltIns = .ok r ∧ ∀ text,
      (r.tokens text "sol" = .ok [("number", text)] ↔ text.toList ∈ NumberLiteral.literal) ∧
      (r.tokens text "yul" = .ok [("number", text)] ↔ text.toList ∈ NumberLiteral.literal) := by
  obtain ⟨r, solidity, yul, hr⟩ := Registry.exists_isBuiltIn
  have hlanguage : ∀ {g : Grammar} {name : String} {aliases : List String} {language : String},
      Language.Suits name aliases g → r.language? language = some g → ∀ text,
      (r.tokens text language = .ok [("number", text)] ↔
        text.toList ∈ NumberLiteral.literal) := by
    intro g name aliases language hg hlanguage text
    rw [Registry.tokens_eq hlanguage,
      ← Scan.number_token_iff_literal hg.takesNumbers (hg.isSound _ r.options), Except.ok.injEq,
      List.map_eq_singleton_iff]
    constructor
    · rintro ⟨t, ht, htoken⟩
      rw [ht, Token.eq_number_iff.mp htoken]
    · intro ht
      exact ⟨_, ht, rfl⟩
  refine ⟨r, hr.eq, fun text => ?_⟩
  exact ⟨hlanguage hr.suitsSolidity hr.sol text, hlanguage hr.suitsYul hr.yul text⟩

end Highlighting
