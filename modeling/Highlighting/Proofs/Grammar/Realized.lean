/-
  Highlighting/Proofs/Grammar/Realized.lean
  =========================================
  **What a builder makes of each declaration.**

  The grammar that `Builder.finish` answers has the modes that were declared,
  under their numbers, and each terminal is what a declared pattern compiles to
  (`Builder.realizes_of_finish`).  So whoever knows the declarations need not
  look into the grammar.

  A builder is accepted when nothing is missing and all patterns compile
  (`Builder.exists_finish`).
-/
import Highlighting.Proofs.Grammar

namespace Highlighting

variable {terminals terminals' : Array Terminal} {count index : Nat} {lookbehind : Lookbehind}
  {allowsEmpty : Bool} {p : PatternDecl} {ps qs : List PatternDecl}

/-! ### Declared patterns -/

def Ending.pattern? : Ending PatternDecl → Option PatternDecl
  | .pattern p => some p
  | .immediate | .never | .withParent => none

def ModeDecl.patterns (m : ModeDecl) : List PatternDecl :=
  m.opener.toList ++ m.ending.pattern?.toList ++ m.illegal.toList

/-- All patterns of the modes and of the language. -/
def Builder.patterns (b : Builder) (language : LanguageDecl) : List PatternDecl :=
  (b.modes.toList.flatMap fun slot => slot.toList.flatMap ModeDecl.patterns) ++
    language.illegal.toList

/-! ### Terminals of declared patterns -/

/-- The number is that of a terminal which the pattern compiles to. -/
def Compiles (lookbehind : Lookbehind) (terminals : Array Terminal) (allowsEmpty : Bool)
    (p : PatternDecl) (index : Nat) : Prop :=
  ∃ pattern, p.compile? lookbehind = some pattern ∧
    terminals[index]? = some ⟨pattern, allowsEmpty⟩

inductive Ending.Realizes (lookbehind : Lookbehind) (terminals : Array Terminal) :
    Ending PatternDecl → Ending Nat → Prop where
  | immediate : Realizes lookbehind terminals .immediate .immediate
  | never : Realizes lookbehind terminals .never .never
  | withParent : Realizes lookbehind terminals .withParent .withParent
  | pattern {p : PatternDecl} {t : Nat} (h : Compiles lookbehind terminals true p t) :
      Realizes lookbehind terminals (.pattern p) (.pattern t)

/-- The mode is what was declared. -/
structure Mode.Realizes (lookbehind : Lookbehind) (terminals : Array Terminal) (decl : ModeDecl)
    (m : Mode) : Prop where
  scope : m.scope = decl.scope
  opener : ∃ p, decl.opener = some p ∧ Compiles lookbehind terminals false p m.opener
  ending : Ending.Realizes lookbehind terminals decl.ending m.ending
  endsParent : m.endsParent = decl.endsParent
  excludesBegin : m.excludesBegin = decl.excludesBegin
  excludesEnd : m.excludesEnd = decl.excludesEnd
  relevance : m.relevance = decl.effectiveRelevance
  keywords : Builder.modeKeywords decl = .ok m.content.keywords
  illegal : Option.Rel (Compiles lookbehind terminals false) decl.illegal m.content.illegal
  contains : m.content.contains = decl.contains

/-- The grammar is what was declared. -/
structure Grammar.Realizes (g : Grammar) (b : Builder) (language : LanguageDecl) : Prop where
  name : g.name = language.name
  aliases : g.aliases = language.aliases
  mode : ∀ k < g.modes.size, ∃ m, b.modes[k]? = some (some m) ∧
    (g.mode k).Realizes b.lookbehind g.terminals m
  keywords : g.root.keywords = language.keywords
  illegal : Option.Rel (Compiles b.lookbehind g.terminals false) language.illegal g.root.illegal
  contains : g.root.contains = language.contains
  patterns : ∀ t ∈ g.terminals, ∃ p ∈ b.patterns language,
    p.compile? b.lookbehind = some t.pattern

/-- All terminals keep their numbers, and the new ones are of these patterns. -/
structure Adds (lookbehind : Lookbehind) (ps : List PatternDecl)
    (terminals terminals' : Array Terminal) : Prop where
  keeps : Keeps lookbehind terminals terminals'
  new : ∀ t ∈ terminals', t ∈ terminals ∨ ∃ p ∈ ps, p.compile? lookbehind = some t.pattern

namespace Adds

theorem refl (terminals : Array Terminal) : Adds lookbehind [] terminals terminals :=
  ⟨.refl terminals, fun _ h => .inl h⟩

theorem trans {terminals'' : Array Terminal} (h : Adds lookbehind ps terminals terminals')
    (h' : Adds lookbehind qs terminals' terminals'') :
    Adds lookbehind (ps ++ qs) terminals terminals'' := by
  refine ⟨h.keeps.trans h'.keeps, fun t ht => ?_⟩
  rcases h'.new t ht with ht | ⟨p, hp, hcompile⟩
  · rcases h.new t ht with ht | ⟨p, hp, hcompile⟩
    · exact .inl ht
    · exact .inr ⟨p, List.mem_append_left _ hp, hcompile⟩
  · exact .inr ⟨p, List.mem_append_right _ hp, hcompile⟩

end Adds

theorem Compiles.mono (h : Compiles lookbehind terminals allowsEmpty p index)
    (hkeeps : Keeps lookbehind terminals terminals') :
    Compiles lookbehind terminals' allowsEmpty p index := by
  obtain ⟨pattern, hcompile, ht⟩ := h
  exact ⟨pattern, hcompile, hkeeps.old index _ ht⟩

theorem Ending.Realizes.mono {e : Ending PatternDecl} {e' : Ending Nat}
    (h : e.Realizes lookbehind terminals e') (hkeeps : Keeps lookbehind terminals terminals') :
    e.Realizes lookbehind terminals' e' := by
  cases h with
  | immediate => exact .immediate
  | never => exact .never
  | withParent => exact .withParent
  | pattern h => exact .pattern (h.mono hkeeps)

theorem relMono {decl : Option PatternDecl} {i : Option Nat}
    (h : Option.Rel (Compiles lookbehind terminals allowsEmpty) decl i)
    (hkeeps : Keeps lookbehind terminals terminals') :
    Option.Rel (Compiles lookbehind terminals' allowsEmpty) decl i := by
  cases h with
  | some h => exact .some (h.mono hkeeps)
  | none => exact .none

theorem Mode.Realizes.mono {decl : ModeDecl} {m : Mode}
    (h : m.Realizes lookbehind terminals decl) (hkeeps : Keeps lookbehind terminals terminals') :
    m.Realizes lookbehind terminals' decl := by
  obtain ⟨p, hp, hcompiles⟩ := h.opener
  exact { h with
    opener := ⟨p, hp, hcompiles.mono hkeeps⟩
    ending := h.ending.mono hkeeps
    illegal := relMono h.illegal hkeeps }

/-! ### Compiling -/

namespace Builder

theorem adds_terminal
    (h : terminal lookbehind p allowsEmpty terminals = .ok (index, terminals')) :
    Adds lookbehind [p] terminals terminals' ∧
      Compiles lookbehind terminals' allowsEmpty p index := by
  have hkeeps := (terminal_spec h).1
  rw [terminal] at h
  split at h
  · next pattern hpattern =>
    cases h
    refine ⟨⟨hkeeps, fun t ht => ?_⟩, pattern, hpattern, by simp⟩
    rcases Array.mem_push.mp ht with ht | rfl
    · exact .inl ht
    · exact .inr ⟨p, List.mem_singleton.mpr rfl, hpattern⟩
  · cases h

theorem adds_optionalTerminal {decl : Option PatternDecl} {i : Option Nat}
    (h : optionalTerminal lookbehind decl terminals = .ok (i, terminals')) :
    Adds lookbehind decl.toList terminals terminals' ∧
      Option.Rel (Compiles lookbehind terminals' false) decl i := by
  cases decl with
  | none =>
    cases h
    exact ⟨.refl _, .none⟩
  | some p =>
    obtain ⟨⟨t, ts⟩, ht, h⟩ := exists_of_bind_eq_ok h
    cases h
    obtain ⟨hadds, hcompiles⟩ := adds_terminal ht
    exact ⟨hadds, .some hcompiles⟩

theorem adds_endingTerminal {e : Ending PatternDecl} {e' : Ending Nat}
    (h : endingTerminal lookbehind e terminals = .ok (e', terminals')) :
    Adds lookbehind e.pattern?.toList terminals terminals' ∧
      e.Realizes lookbehind terminals' e' := by
  cases e with
  | pattern p =>
    obtain ⟨⟨t, ts⟩, ht, h⟩ := exists_of_bind_eq_ok h
    cases h
    obtain ⟨hadds, hcompiles⟩ := adds_terminal ht
    exact ⟨hadds, .pattern hcompiles⟩
  | immediate => cases h; exact ⟨.refl _, .immediate⟩
  | never => cases h; exact ⟨.refl _, .never⟩
  | withParent => cases h; exact ⟨.refl _, .withParent⟩

theorem realizes_compileMode {slot : Option ModeDecl} {m : Mode}
    (h : compileMode lookbehind count index slot terminals = .ok (m, terminals')) :
    ∃ decl, slot = some decl ∧ Adds lookbehind decl.patterns terminals terminals' ∧
      m.Realizes lookbehind terminals' decl := by
  cases slot with
  | none => cases h
  | some decl =>
    simp only [compileMode] at h
    split at h
    · cases h
    · next opener hdecl =>
      obtain ⟨⟨i, ts₁⟩, hopener, h⟩ := exists_of_bind_eq_ok h
      obtain ⟨⟨ending, ts₂⟩, hending, h⟩ := exists_of_bind_eq_ok h
      obtain ⟨keywords, hkeywords, h⟩ := exists_of_bind_eq_ok h
      obtain ⟨⟨illegal, ts₃⟩, hillegal, h⟩ := exists_of_bind_eq_ok h
      obtain ⟨u, hcontains, h⟩ := exists_of_bind_eq_ok h
      cases h
      obtain ⟨hadds₁, hopener'⟩ := adds_terminal hopener
      obtain ⟨hadds₂, hending'⟩ := adds_endingTerminal hending
      obtain ⟨hadds₃, hillegal'⟩ := adds_optionalTerminal hillegal
      have hpatterns : decl.patterns = [opener] ++ decl.ending.pattern?.toList ++
          decl.illegal.toList := by
        rw [ModeDecl.patterns, hdecl]
        rfl
      refine ⟨decl, rfl, ?_, rfl, ⟨opener, hdecl, ?_⟩, hending'.mono hadds₃.keeps, rfl, rfl, rfl,
        rfl, hkeywords, hillegal', rfl⟩
      · rw [hpatterns]
        exact (hadds₁.trans hadds₂).trans hadds₃
      · exact hopener'.mono (hadds₂.keeps.trans hadds₃.keeps)

/-- Modes that were compiled in turn are those declared in these slots. -/
def RealizedAll (lookbehind : Lookbehind) (terminals : Array Terminal)
    (slots : List (Option ModeDecl)) (modes : Array Mode) : Prop :=
  List.Forall₂ (fun slot m => ∃ decl, slot = some decl ∧ m.Realizes lookbehind terminals decl)
    slots modes.toList

theorem realizes_compileModes {slots done : List (Option ModeDecl)} {modes modes' : Array Mode}
    (h : compileModes lookbehind count slots index modes terminals = .ok (modes', terminals'))
    (hmodes : RealizedAll lookbehind terminals done modes) :
    Adds lookbehind (slots.flatMap fun slot => slot.toList.flatMap ModeDecl.patterns) terminals
        terminals' ∧
      RealizedAll lookbehind terminals' (done ++ slots) modes' := by
  induction slots generalizing index modes terminals done with
  | nil =>
    cases h
    rw [List.append_nil]
    exact ⟨.refl _, hmodes⟩
  | cons slot slots ih =>
    obtain ⟨⟨m, ts⟩, hm, hrest⟩ := exists_of_bind_eq_ok h
    obtain ⟨decl, rfl, hadds, hrealizes⟩ := realizes_compileMode hm
    have hpush : RealizedAll lookbehind ts (done ++ [some decl]) (modes.push m) := by
      rw [RealizedAll, Array.toList_push]
      refine List.rel_append ?_ (.cons ⟨decl, rfl, hrealizes⟩ .nil)
      refine hmodes.imp ?_
      rintro _ _ ⟨decl', rfl, hm'⟩
      exact ⟨decl', rfl, hm'.mono hadds.keeps⟩
    obtain ⟨hadds', hall⟩ := ih hrest hpush
    rw [List.append_assoc] at hall
    refine ⟨?_, hall⟩
    rw [List.flatMap_cons, Option.toList_some, List.flatMap_singleton]
    exact hadds.trans hadds'

/-- **A grammar that is accepted is what was declared.** -/
theorem realizes_of_finish {b : Builder} {language : LanguageDecl} {g : Grammar}
    (h : b.finish language = .ok g) : g.Realizes b language := by
  obtain ⟨⟨modes, ts₁⟩, hmodes, h⟩ := exists_of_bind_eq_ok h
  obtain ⟨⟨illegal, ts₂⟩, hillegal, h⟩ := exists_of_bind_eq_ok h
  obtain ⟨u, hcontains, h⟩ := exists_of_bind_eq_ok h
  cases h
  have hnone : RealizedAll b.lookbehind #[] [] #[] := .nil
  obtain ⟨hadds, hall⟩ := realizes_compileModes hmodes hnone
  obtain ⟨hadds', hillegal'⟩ := adds_optionalTerminal hillegal
  refine ⟨rfl, rfl, fun k hk => ?_, rfl, hillegal', rfl, fun t ht => ?_⟩
  · rw [List.nil_append, RealizedAll] at hall
    have hlength : b.modes.size = modes.size := hall.length_eq
    have hk' : k < b.modes.size := Nat.lt_of_lt_of_eq hk hlength.symm
    obtain ⟨decl, hdecl, hrealizes⟩ := hall.get (i := k) (by simpa using hk') (by simpa using hk)
    refine ⟨decl, ?_, ?_⟩
    · rw [Array.getElem?_eq_getElem hk', ← hdecl]
      simp
    · have hmode : Grammar.mode ⟨language.name, language.aliases, modes,
          ⟨language.keywords, illegal, language.contains⟩, ts₂⟩ k = modes[k] := by
        rw [Grammar.mode, Array.getElem?_eq_getElem hk]
        rfl
      rw [hmode]
      have hrealizes' := hrealizes.mono hadds'.keeps
      simpa using hrealizes'
  · rcases (hadds.trans hadds').new t ht with ht | hp
    · exact absurd ht (Array.not_mem_empty t)
    · exact hp

theorem size_of_finish {b : Builder} {language : LanguageDecl} {g : Grammar}
    (h : b.finish language = .ok g) : g.modes.size = b.modes.size := by
  obtain ⟨⟨modes, ts₁⟩, hmodes, h⟩ := exists_of_bind_eq_ok h
  obtain ⟨⟨illegal, ts₂⟩, -, h⟩ := exists_of_bind_eq_ok h
  obtain ⟨u, -, h⟩ := exists_of_bind_eq_ok h
  cases h
  have hnone : RealizedAll b.lookbehind #[] [] #[] := .nil
  exact (realizes_compileModes hmodes hnone).2.length_eq.symm

/-! ### Acceptance -/

end Builder

def PatternDecl.isAccepted (lookbehind : Lookbehind) (p : PatternDecl) : Bool :=
  (p.compile? lookbehind).isSome

def ModeDecl.isAccepted (lookbehind : Lookbehind) (count : Nat) (m : ModeDecl) : Bool :=
  m.opener.any (·.isAccepted lookbehind) && m.ending.pattern?.all (·.isAccepted lookbehind) &&
    (Builder.modeKeywords m).isOk && m.illegal.all (·.isAccepted lookbehind) &&
    m.contains.all fun n => decide (n < count)

namespace Builder

/-- All numbers have modes, all patterns compile, and all numbers used are those of modes. -/
def isAccepted (b : Builder) (language : LanguageDecl) : Bool :=
  b.modes.all (fun slot => slot.any (·.isAccepted b.lookbehind b.modes.size)) &&
    language.illegal.all (·.isAccepted b.lookbehind) &&
    language.contains.all fun n => decide (n < b.modes.size)

theorem bind_ok {α β : Type} {x : Except GrammarError α} {f : α → Except GrammarError β} {a : α}
    (h : x = .ok a) : (x >>= f) = f a := by
  rw [h]
  rfl

theorem exists_terminal (h : p.isAccepted lookbehind = true) (allowsEmpty : Bool)
    (terminals : Array Terminal) :
    ∃ out, terminal lookbehind p allowsEmpty terminals = .ok out := by
  obtain ⟨pattern, hpattern⟩ := Option.isSome_iff_exists.mp h
  rw [terminal, hpattern]
  exact ⟨_, rfl⟩

theorem exists_optionalTerminal {decl : Option PatternDecl}
    (h : decl.all (·.isAccepted lookbehind) = true) (terminals : Array Terminal) :
    ∃ out, optionalTerminal lookbehind decl terminals = .ok out := by
  cases decl with
  | none => exact ⟨_, rfl⟩
  | some p =>
    obtain ⟨out, hout⟩ := exists_terminal h false terminals
    rw [optionalTerminal, bind_ok hout]
    exact ⟨_, rfl⟩

theorem exists_endingTerminal {e : Ending PatternDecl}
    (h : e.pattern?.all (·.isAccepted lookbehind) = true) (terminals : Array Terminal) :
    ∃ out, endingTerminal lookbehind e terminals = .ok out := by
  cases e with
  | pattern p =>
    obtain ⟨out, hout⟩ := exists_terminal h true terminals
    rw [endingTerminal, bind_ok hout]
    exact ⟨_, rfl⟩
  | immediate | never | withParent => exact ⟨_, rfl⟩

theorem checkContains_eq_ok {ns : List Nat} (h : ns.all (fun n => decide (n < count)) = true) :
    checkContains count ns = .ok () := by
  induction ns with
  | nil => rfl
  | cons n ns ih =>
    rw [List.all_cons, Bool.and_eq_true, decide_eq_true_eq] at h
    rw [checkContains, if_pos h.1, ih h.2]

theorem exists_compileMode {m : ModeDecl} (h : m.isAccepted lookbehind count = true)
    (index : Nat) (terminals : Array Terminal) :
    ∃ out, compileMode lookbehind count index (some m) terminals = .ok out := by
  simp only [ModeDecl.isAccepted, Bool.and_eq_true] at h
  obtain ⟨⟨⟨⟨hopener, hending⟩, hkeywords⟩, hillegal⟩, hcontains⟩ := h
  obtain ⟨opener, hdecl, hopener⟩ := (Option.any_eq_true _ _).mp hopener
  obtain ⟨⟨i, ts₁⟩, hout₁⟩ := exists_terminal hopener false terminals
  obtain ⟨⟨e, ts₂⟩, hout₂⟩ := exists_endingTerminal hending ts₁
  obtain ⟨keywords, hout⟩ : ∃ keywords, modeKeywords m = .ok keywords := by
    cases hk : modeKeywords m with
    | ok keywords => exact ⟨keywords, rfl⟩
    | error e =>
      rw [hk] at hkeywords
      cases hkeywords
  obtain ⟨⟨illegal, ts₃⟩, hout₃⟩ := exists_optionalTerminal hillegal ts₂
  simp only [compileMode, hdecl]
  rw [bind_ok hout₁, bind_ok hout₂, bind_ok hout, bind_ok hout₃,
    bind_ok (checkContains_eq_ok hcontains)]
  exact ⟨_, rfl⟩

theorem exists_compileModes {slots : List (Option ModeDecl)}
    (h : ∀ slot ∈ slots, slot.any (·.isAccepted lookbehind count) = true) (index : Nat)
    (modes : Array Mode) (terminals : Array Terminal) :
    ∃ out, compileModes lookbehind count slots index modes terminals = .ok out := by
  induction slots generalizing index modes terminals with
  | nil => exact ⟨_, rfl⟩
  | cons slot slots ih =>
    obtain ⟨m, rfl, hm⟩ := (Option.any_eq_true _ _).mp (h slot List.mem_cons_self)
    obtain ⟨⟨mode, ts⟩, hout⟩ := exists_compileMode hm index terminals
    rw [compileModes, bind_ok hout]
    exact ih (fun slot hslot => h slot (List.mem_cons_of_mem _ hslot)) _ _ _

/-- **A builder is accepted when nothing is missing and all patterns compile.** -/
theorem exists_finish {b : Builder} {language : LanguageDecl}
    (h : b.isAccepted language = true) : ∃ g, b.finish language = .ok g := by
  simp only [isAccepted, Bool.and_eq_true, Array.all_eq_true_iff_forall_mem] at h
  obtain ⟨⟨hmodes, hillegal⟩, hcontains⟩ := h
  obtain ⟨⟨modes, ts₁⟩, hout₁⟩ := exists_compileModes
    (fun slot hslot => hmodes slot (Array.mem_toList_iff.mp hslot)) 0 #[] #[]
  obtain ⟨⟨illegal, ts₂⟩, hout₂⟩ := exists_optionalTerminal hillegal ts₁
  rw [finish, bind_ok hout₁]
  dsimp only
  rw [bind_ok hout₂]
  dsimp only
  rw [bind_ok (checkContains_eq_ok hcontains)]
  exact ⟨_, rfl⟩

end Builder

end Highlighting
