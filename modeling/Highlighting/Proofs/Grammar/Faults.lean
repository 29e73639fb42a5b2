/-
  Highlighting/Proofs/Grammar/Faults.lean
  =======================================
  **What a builder refuses, and what it answers then.**

  All that can be wrong with the declarations is listed in the order of the
  modes: for each one that it was never defined, or else its missing opening, its
  patterns that do not compile and the numbers that it contains in vain; then
  what is wrong with the language itself (`Builder.faults`).  A builder makes a
  grammar when the list is empty, and else answers its first entry
  (`reports_finish`).

  The list is empty for complete declarations, in whatever order they were made
  and whatever they refer to (`faults_eq_nil_iff`).
-/
import Highlighting.Proofs.Grammar.Keywords
import Highlighting.Proofs.Grammar.Realized

namespace Highlighting

variable {lookbehind : Lookbehind} {count index : Nat} {terminals terminals' : Array Terminal}

/-! ### Lists of faults -/

def PatternDecl.faults (lookbehind : Lookbehind) (p : PatternDecl) : List GrammarError :=
  if (p.compile? lookbehind).isSome then [] else [.invalidPattern p.describe]

/-- The numbers that none of `count` modes has. -/
def strayFaults (count : Nat) (ns : List Nat) : List GrammarError :=
  (ns.filter (count ≤ ·)).map .undefinedMode

/-- What is wrong with the number `index` and the mode that was declared under it. -/
def slotFaults (lookbehind : Lookbehind) (count index : Nat) :
    Option ModeDecl → List GrammarError
  | none => [.undefinedMode index]
  | some m =>
    (match m.opener with
      | none => [.missingBegin index]
      | some p => p.faults lookbehind) ++
      m.ending.pattern?.toList.flatMap (·.faults lookbehind) ++
      m.illegal.toList.flatMap (·.faults lookbehind) ++ strayFaults count m.contains

/-- All that is wrong with the modes, in their order, and then with the language. -/
def Builder.faults (b : Builder) (language : LanguageDecl) : List GrammarError :=
  b.modes.toList.zipIdx.flatMap (fun (slot, k) => slotFaults b.lookbehind b.modes.size k slot) ++
    language.illegal.toList.flatMap (·.faults b.lookbehind) ++
    strayFaults b.modes.size language.contains

/-! ### Steps that report faults -/

/-- The step fails with the first of the faults, or succeeds where there are none. -/
inductive Reports {α : Type} : Except GrammarError α → List GrammarError → Prop where
  | succeeds (a : α) : Reports (.ok a) []
  | fails (e : GrammarError) (es : List GrammarError) : Reports (.error e) (e :: es)

namespace Reports

variable {α β : Type} {x : Except GrammarError α} {f : α → Except GrammarError β}
  {es es' : List GrammarError}

theorem bind (h : Reports x es) (hf : ∀ a, x = .ok a → Reports (f a) es') :
    Reports (x >>= f) (es ++ es') := by
  cases h with
  | succeeds a => exact hf a rfl
  | fails e es => exact .fails e (es ++ es')

theorem exists_ok_iff (h : Reports x es) : (∃ a, x = .ok a) ↔ es = [] := by
  cases h with
  | succeeds a => simp
  | fails e es => simp

theorem eq_error_iff (h : Reports x es) (e : GrammarError) :
    x = .error e ↔ es.head? = some e := by
  cases h with
  | succeeds a => simp
  | fails e' es => simp

end Reports

namespace Builder

theorem reports_terminal (p : PatternDecl) (allowsEmpty : Bool) (terminals : Array Terminal) :
    Reports (terminal lookbehind p allowsEmpty terminals) (p.faults lookbehind) := by
  rw [terminal, PatternDecl.faults]
  cases p.compile? lookbehind with
  | some pattern => exact .succeeds _
  | none => exact .fails _ []

theorem reports_optionalTerminal (p : Option PatternDecl) (terminals : Array Terminal) :
    Reports (optionalTerminal lookbehind p terminals)
      (p.toList.flatMap (·.faults lookbehind)) := by
  cases p with
  | none => exact .succeeds _
  | some p =>
    rw [Option.toList_some, List.flatMap_singleton, ← List.append_nil (p.faults lookbehind)]
    exact (reports_terminal p false terminals).bind fun _ _ => .succeeds _

theorem reports_endingTerminal (ending : Ending PatternDecl) (terminals : Array Terminal) :
    Reports (endingTerminal lookbehind ending terminals)
      (ending.pattern?.toList.flatMap (·.faults lookbehind)) := by
  cases ending with
  | immediate | never | withParent => exact .succeeds _
  | pattern p =>
    rw [Ending.pattern?, Option.toList_some, List.flatMap_singleton,
      ← List.append_nil (p.faults lookbehind)]
    exact (reports_terminal p true terminals).bind fun _ _ => .succeeds _

theorem reports_checkContains (count : Nat) (ns : List Nat) :
    Reports (checkContains count ns) (strayFaults count ns) := by
  induction ns with
  | nil => exact .succeeds ()
  | cons n ns ih =>
    rw [checkContains, strayFaults, List.filter_cons]
    by_cases hn : n < count
    · rw [if_pos hn, if_neg (by simpa using hn)]
      exact ih
    · rw [if_neg hn, if_pos (by simpa using hn)]
      exact .fails _ _

/-- The words that open a mode make a table: they all have one class. -/
theorem exists_modeKeywords (m : ModeDecl) : ∃ keywords, modeKeywords m = .ok keywords := by
  rw [modeKeywords]
  cases m.keywords with
  | some table => exact ⟨_, rfl⟩
  | none =>
    dsimp only
    split
    · exact ⟨_, rfl⟩
    · have hagree : KeywordDecl.Agree (KeywordDecl.empty.add .keyword m.openingWords).entries :=
        KeywordDecl.agree_add (fun _ he => nomatch he) fun _ he => nomatch he
      have hlexeme : (Regex.parse? KeywordDecl.usualLexeme.toList).isSome = true := by
        decide +kernel
      obtain ⟨r, hr⟩ := Option.isSome_iff_exists.mp hlexeme
      rw [KeywordDecl.compile_eq (d := KeywordDecl.empty.add .keyword m.openingWords) hr hagree]
      exact ⟨_, rfl⟩

theorem reports_compileMode (slot : Option ModeDecl) (terminals : Array Terminal) :
    Reports (compileMode lookbehind count index slot terminals)
      (slotFaults lookbehind count index slot) := by
  cases slot with
  | none => exact .fails _ []
  | some m =>
    simp only [compileMode, slotFaults]
    cases m.opener with
    | none =>
      rw [List.append_assoc, List.append_assoc]
      exact .fails _ _
    | some opener =>
      obtain ⟨keywords, hkeywords⟩ := exists_modeKeywords m
      simp only [hkeywords, List.append_assoc]
      -- what is checked in turn is what is listed in turn
      refine (reports_terminal opener false terminals).bind fun _ _ => ?_
      refine (reports_endingTerminal m.ending _).bind fun _ _ => ?_
      refine (reports_optionalTerminal m.illegal _).bind fun _ _ => ?_
      rw [← List.append_nil (strayFaults count m.contains)]
      exact (reports_checkContains count m.contains).bind fun _ _ => .succeeds _

theorem reports_compileModes (slots : List (Option ModeDecl)) (index : Nat) (modes : Array Mode)
    (terminals : Array Terminal) :
    Reports (compileModes lookbehind count slots index modes terminals)
      ((slots.zipIdx index).flatMap fun (slot, k) => slotFaults lookbehind count k slot) := by
  induction slots generalizing index modes terminals with
  | nil => exact .succeeds _
  | cons slot slots ih =>
    rw [List.zipIdx_cons, List.flatMap_cons]
    exact (reports_compileMode slot terminals).bind fun _ _ => ih _ _ _

/-- **A builder answers the first fault**, and a grammar where there is none. -/
theorem reports_finish (b : Builder) (language : LanguageDecl) :
    Reports (b.finish language) (b.faults language) := by
  rw [faults, List.append_assoc]
  refine (reports_compileModes b.modes.toList 0 #[] #[]).bind fun _ _ => ?_
  refine (reports_optionalTerminal language.illegal _).bind fun _ _ => ?_
  rw [← List.append_nil (strayFaults _ _)]
  exact (reports_checkContains _ language.contains).bind fun _ _ => .succeeds _

end Builder

/-! ### Complete declarations -/

theorem PatternDecl.faults_eq_nil_iff {p : PatternDecl} :
    p.faults lookbehind = [] ↔ (p.compile? lookbehind).isSome = true := by
  rw [faults]
  split
  · next h => simp [h]
  · next h => simp [h]

theorem strayFaults_eq_nil_iff {ns : List Nat} :
    strayFaults count ns = [] ↔ ∀ n ∈ ns, n < count := by
  simp [strayFaults]

/-- Nothing is wrong with a mode that opens, compiles and contains modes. -/
theorem slotFaults_eq_nil_iff {slot : Option ModeDecl} :
    slotFaults lookbehind count index slot = [] ↔
      ∃ m, slot = some m ∧ m.opener.isSome = true ∧
        (∀ p ∈ m.patterns, (p.compile? lookbehind).isSome = true) ∧
          ∀ n ∈ m.contains, n < count := by
  cases slot with
  | none => simp [slotFaults]
  | some m =>
    simp only [slotFaults, ModeDecl.patterns, List.append_eq_nil_iff, List.flatMap_eq_nil_iff,
      strayFaults_eq_nil_iff, PatternDecl.faults_eq_nil_iff, List.mem_append, Option.some.injEq,
      exists_eq_left']
    cases m.opener with
    | none => simp
    | some p =>
      simp only [PatternDecl.faults_eq_nil_iff, Option.toList_some, List.mem_singleton,
        Option.isSome_some, true_and]
      constructor
      · rintro ⟨⟨⟨hopener, hending⟩, hillegal⟩, hcontains⟩
        refine ⟨fun q hq => ?_, hcontains⟩
        rcases hq with (rfl | hq) | hq
        · exact hopener
        · exact hending q hq
        · exact hillegal q hq
      · rintro ⟨hpatterns, hcontains⟩
        exact ⟨⟨⟨hpatterns p (.inl (.inl rfl)), fun q hq => hpatterns q (.inl (.inr hq))⟩,
          fun q hq => hpatterns q (.inr hq)⟩, hcontains⟩

namespace Builder

variable {b : Builder} {language : LanguageDecl}

/-- Nothing is missing: all numbers have modes, all modes open somewhere, all patterns compile, and
what is contained are numbers of modes. -/
structure IsComplete (b : Builder) (language : LanguageDecl) : Prop where
  defined : ∀ k < b.modes.size, ∃ m, b.modes[k]? = some (some m)
  opens : ∀ m, some m ∈ b.modes → m.opener.isSome = true
  compiles : ∀ p ∈ b.patterns language, (p.compile? b.lookbehind).isSome = true
  contained : ∀ m, some m ∈ b.modes → ∀ n ∈ m.contains, n < b.modes.size
  reached : ∀ n ∈ language.contains, n < b.modes.size

/-- **Nothing is wrong with complete declarations.** -/
theorem faults_eq_nil_iff : b.faults language = [] ↔ b.IsComplete language := by
  have hslots : (b.modes.toList.zipIdx.flatMap fun (slot, k) =>
        slotFaults b.lookbehind b.modes.size k slot) = [] ↔
      ∀ slot ∈ b.modes, ∃ m, slot = some m ∧ m.opener.isSome = true ∧
        (∀ p ∈ m.patterns, (p.compile? b.lookbehind).isSome = true) ∧
        ∀ n ∈ m.contains, n < b.modes.size := by
    rw [List.flatMap_eq_nil_iff]
    constructor
    · intro h slot hslot
      obtain ⟨k, hk, rfl⟩ := Array.mem_iff_getElem.mp hslot
      have hentry : (b.modes[k], k) ∈ b.modes.toList.zipIdx := by
        simp [List.mem_zipIdx_iff_getElem?]
      exact slotFaults_eq_nil_iff.mp (h _ hentry)
    · rintro h ⟨slot, k⟩ hentry
      have hslot : slot ∈ b.modes := Array.mem_toList_iff.mp (List.fst_mem_of_mem_zipIdx hentry)
      exact slotFaults_eq_nil_iff.mpr (h slot hslot)
  rw [faults, List.append_eq_nil_iff, List.append_eq_nil_iff, hslots, List.flatMap_eq_nil_iff,
    strayFaults_eq_nil_iff]
  constructor
  · rintro ⟨⟨hmodes, hillegal⟩, hreached⟩
    refine ⟨fun k hk => ?_, fun m hm => ?_, fun p hp => ?_, fun m hm => ?_, hreached⟩
    · obtain ⟨m, hm, -⟩ := hmodes _ (Array.getElem_mem hk)
      exact ⟨m, by rw [Array.getElem?_eq_getElem hk, hm]⟩
    · obtain ⟨m', hm', hopener, -⟩ := hmodes _ hm
      exact Option.some.inj hm' ▸ hopener
    · simp only [patterns, List.mem_append, List.mem_flatMap] at hp
      rcases hp with ⟨slot, hslot, m, hm, hp⟩ | hp
      · obtain ⟨m', rfl, -, hpatterns, -⟩ := hmodes slot (Array.mem_toList_iff.mp hslot)
        rw [Option.toList_some, List.mem_singleton] at hm
        exact hpatterns p (hm ▸ hp)
      · exact PatternDecl.faults_eq_nil_iff.mp (hillegal p hp)
    · obtain ⟨m', hm', -, -, hcontains⟩ := hmodes _ hm
      exact Option.some.inj hm' ▸ hcontains
  · rintro ⟨hdefined, hopens, hcompiles, hcontained, hreached⟩
    refine ⟨⟨fun slot hslot => ?_, fun p hp => ?_⟩, hreached⟩
    · obtain ⟨k, hk, rfl⟩ := Array.mem_iff_getElem.mp hslot
      obtain ⟨m, hm⟩ := hdefined k hk
      have hslot' : b.modes[k] = some m :=
        Option.some.inj ((Array.getElem?_eq_getElem hk).symm.trans hm)
      rw [hslot'] at hslot
      refine ⟨m, hslot', hopens m hslot, fun p hp => hcompiles p ?_, hcontained m hslot⟩
      refine List.mem_append_left _ (List.mem_flatMap.mpr ⟨some m, ?_, ?_⟩)
      · exact Array.mem_toList_iff.mpr hslot
      · simpa using hp
    · exact PatternDecl.faults_eq_nil_iff.mpr (hcompiles p (List.mem_append_right _ hp))

end Builder

end Highlighting
