/-
  Highlighting/Proofs/Grammar/Rules.lean
  ======================================
  **Modes that follow a rule**, whatever grammar they are in.

  A rule says what a mode is in terms of patterns instead of terminals (`Rule`).
  So modes of several grammars can follow the same one (`Grammar.Obeys`), and
  what holds inside of regions follows from the rule alone.  Whether a mode
  follows a rule can be read off its declaration (`Builder.obeys_of_finish`).
-/
import Highlighting.Proofs.Grammar.Signs

namespace Highlighting

open Search

/-- What a mode without keywords is, the text of its region including the match at either end. -/
structure Rule where
  scope : Option Scope
  opener : Pattern
  /-- What ends the region, unless the opening match is all of it. -/
  closer : Option Pattern
  illegal : Option Pattern
  contains : List Nat

/-- The region ends as the rule says. -/
inductive Grammar.EndsAs (g : Grammar) : Option Pattern → Ending Nat → Prop where
  | immediate : EndsAs g none .immediate
  | pattern {p : Pattern} {t : Nat} (h : g.terminals[t]? = some ⟨p, true⟩) :
      EndsAs g (some p) (.pattern t)

/-- The mode is as the rule says. -/
structure Grammar.Obeys (g : Grammar) (k : Nat) (r : Rule) : Prop where
  scope : (g.mode k).scope = r.scope
  opener : g.terminals[(g.mode k).opener]? = some ⟨r.opener, false⟩
  ending : g.EndsAs r.closer (g.mode k).ending
  illegal : Option.Rel (fun p t => g.terminals[t]? = some ⟨p, false⟩) r.illegal
    (g.mode k).content.illegal
  contains : (g.mode k).content.contains = r.contains
  keywords : (g.mode k).content.keywords = none
  endsParent : (g.mode k).endsParent = false
  excludesBegin : (g.mode k).excludesBegin = false
  excludesEnd : (g.mode k).excludesEnd = false

theorem Grammar.Obeys.immediate {g : Grammar} {k : Nat} {r : Rule} (h : g.Obeys k r)
    (hr : r.closer = none) : (g.mode k).ending = .immediate := by
  have hending := h.ending
  rw [hr] at hending
  generalize (g.mode k).ending = ending at hending
  cases hending
  rfl

theorem Grammar.Obeys.exists_ending {g : Grammar} {k : Nat} {r : Rule} {p : Pattern}
    (h : g.Obeys k r) (hr : r.closer = some p) :
    ∃ t, (g.mode k).ending = .pattern t ∧ g.terminals[t]? = some ⟨p, true⟩ := by
  have hending := h.ending
  rw [hr] at hending
  generalize (g.mode k).ending = ending at hending
  cases hending with
  | pattern ht => exact ⟨_, rfl, ht⟩

theorem Grammar.Obeys.ne_immediate {g : Grammar} {k : Nat} {r : Rule} {p : Pattern}
    (h : g.Obeys k r) (hr : r.closer = some p) : (g.mode k).ending ≠ .immediate := by
  obtain ⟨t, hending, -⟩ := h.exists_ending hr
  rw [hending]
  exact nofun

/-! ### Inside of regions -/

namespace Scan

variable {task : Task} {ms : List Nat} {k p q stop : Nat} {r : Rule} {pattern : Pattern}

theorem admittedEnd?_eq_some {index : Nat} {allowsEmpty : Bool}
    (ht : task.grammar.terminals[index]? = some ⟨pattern, allowsEmpty⟩) (hlt : p < stop)
    (hend : endAt? (pattern.find task.source ·) p = some stop) :
    admittedEnd? task [] index p = some stop := by
  refine admittedEnd?_eq_some_iff.mpr ⟨_, ht, hend, ?_⟩
  have hempty : Span.isEmpty ⟨p, stop⟩ = false := decide_eq_false (Nat.not_le_of_lt hlt)
  simp only [admits, hempty]
  rfl

theorem admittedEnd?_eq_none {index : Nat} {allowsEmpty : Bool}
    (ht : task.grammar.terminals[index]? = some ⟨pattern, allowsEmpty⟩)
    (hend : endAt? (pattern.find task.source ·) p = none) :
    admittedEnd? task [] index p = none := by
  cases h : admittedEnd? task [] index p with
  | none => rfl
  | some stop =>
    obtain ⟨t, ht', hend', -⟩ := admittedEnd?_eq_some_iff.mp h
    obtain rfl : ⟨pattern, allowsEmpty⟩ = t := Option.some.inj (ht.symm.trans ht')
    rw [hend] at hend'
    cases hend'

/-- None of the modes looked for inside, nor anything illegal, matches at the position. -/
structure Unopened (task : Task) (r : Rule) (p : Nat) : Prop where
  opener : ∀ j ∈ r.contains, admittedEnd? task [] (task.grammar.mode j).opener p = none
  illegal : ∀ i ∈ r.illegal, endAt? (i.find task.source ·) p = none

section Obeys

variable (h : task.grammar.Obeys k r)
include h

theorem closer?_of_obeys (hr : r.closer = some pattern) (ms : List Nat) :
    ∃ t, task.grammar.terminals[t]? = some ⟨pattern, true⟩ ∧
      closer? task.grammar (k :: ms) 0 = some (t, 0) := by
  obtain ⟨t, hending, ht⟩ := h.exists_ending hr
  exact ⟨t, ht, by rw [closer?, hending]⟩

/-- **What matches in a region of the mode**: an opening, the end, or something illegal. -/
theorem cases_of_obeys (hr : r.closer = some pattern) {d : Nat × Candidate}
    (hd : d ∈ candidates task (k :: ms)) (hend : admittedEnd? task [] d.1 p = some stop) :
    (∃ j ∈ r.contains, admittedEnd? task [] (task.grammar.mode j).opener p = some stop) ∨
      d.2 = .closes 0 ∧ endAt? (pattern.find task.source ·) p = some stop ∨
        d.2 = .illegal ∧ ∃ i ∈ r.illegal, endAt? (i.find task.source ·) p = some stop := by
  have hmatch : ∀ {index : Nat} {pattern : Pattern} {allowsEmpty : Bool},
      task.grammar.terminals[index]? = some ⟨pattern, allowsEmpty⟩ →
        admittedEnd? task [] index p = some stop →
          endAt? (pattern.find task.source ·) p = some stop := by
    intro index pattern allowsEmpty ht hend
    obtain ⟨t, ht', hend', -⟩ := admittedEnd?_eq_some_iff.mp hend
    obtain rfl : ⟨pattern, allowsEmpty⟩ = t := Option.some.inj (ht.symm.trans ht')
    exact hend'
  obtain ⟨index, candidate⟩ := d
  cases candidate with
  | opens j =>
    obtain ⟨hj, rfl⟩ := mem_candidates_opens.mp hd
    have hj' : j ∈ (task.grammar.mode k).content.contains := hj
    rw [h.contains] at hj'
    exact .inl ⟨j, hj', hend⟩
  | closes depth =>
    obtain ⟨t, ht, hcloser⟩ := closer?_of_obeys h hr ms
    have hmem := mem_candidates_closes.mp hd
    rw [hcloser] at hmem
    obtain ⟨rfl, rfl⟩ := Prod.mk.inj (Option.some.inj hmem)
    exact .inr (.inl ⟨rfl, hmatch ht hend⟩)
  | illegal =>
    have hmem : (task.grammar.mode k).content.illegal = some index :=
      (mem_candidates_illegal.mp hd).2
    have hillegal := h.illegal
    rw [hmem] at hillegal
    generalize hdecl : r.illegal = decl at hillegal
    cases hillegal with
    | some ht => exact .inr (.inr ⟨rfl, _, rfl, hmatch ht hend⟩)

/-- In a region of the mode only an end is left. -/
theorem eq_closes_of_unopened (hr : r.closer = some pattern) (hp : Unopened task r p)
    {d : Nat × Candidate} (hd : d ∈ candidates task (k :: ms))
    (hend : admittedEnd? task [] d.1 p = some stop) :
    d.2 = .closes 0 ∧ endAt? (pattern.find task.source ·) p = some stop := by
  rcases cases_of_obeys h hr hd hend with ⟨j, hj, hopens⟩ | hcloses | ⟨-, i, hi, hillegal⟩
  · rw [hp.opener j hj] at hopens
    cases hopens
  · exact hcloses
  · rw [hp.illegal i hi] at hillegal
    cases hillegal

theorem quiet_of_obeys (hr : r.closer = some pattern) (hp : Unopened task r p)
    (hclose : endAt? (pattern.find task.source ·) p = none) :
    Quiet task [] (k :: ms) p (p + 1) := by
  intro d hd q hpq hq
  obtain rfl : p = q := by omega
  cases hend : admittedEnd? task [] d.1 p with
  | none => rfl
  | some stop =>
    have hclose' := (eq_closes_of_unopened h hr hp hd hend).2
    rw [hclose] at hclose'
    cases hclose'

/-- **The region ends where its end matches.** -/
theorem next?_closes_of_obeys (hsound : task.IsSound) (hr : r.closer = some pattern)
    (hp : Unopened task r p) (hlt : p < stop)
    (hclose : endAt? (pattern.find task.source ·) p = some stop) :
    Place.next? task [] ⟨p, k :: ms⟩ = some ⟨⟨p, stop⟩, .closes 0⟩ := by
  obtain ⟨t, ht, hcloser⟩ := closer?_of_obeys h hr ms
  refine next?_of_only hsound (d := (t, .closes 0)) (mem_candidates_closes.mpr hcloser)
    (admittedEnd?_eq_some ht hlt hclose) fun e he stop' hend => ?_
  obtain ⟨hcandidate, hclose'⟩ := eq_closes_of_unopened h hr hp he hend
  rw [hclose] at hclose'
  exact ⟨hcandidate, (Option.some.inj hclose').symm⟩

/-- **What is illegal comes next** where nothing else matches. -/
theorem next?_illegal_of_obeys (hsound : task.IsSound) (hr : r.closer = some pattern)
    (hlegal : task.options.ignoreIllegals = false)
    (hopener : ∀ j ∈ r.contains, admittedEnd? task [] (task.grammar.mode j).opener p = none)
    (hclose : endAt? (pattern.find task.source ·) p = none) {i : Pattern} (hi : r.illegal = some i)
    (hlt : p < stop) (hend : endAt? (i.find task.source ·) p = some stop) :
    Place.next? task [] ⟨p, k :: ms⟩ = some ⟨⟨p, stop⟩, .illegal⟩ := by
  have hillegal := h.illegal
  rw [hi] at hillegal
  generalize ht : (task.grammar.mode k).content.illegal = t at hillegal
  cases hillegal with
  | some hterminal =>
    refine next?_of_only hsound (d := (_, .illegal)) (mem_candidates_illegal.mpr ⟨hlegal, ht⟩)
      (admittedEnd?_eq_some hterminal hlt hend) fun e he stop' hend' => ?_
    rcases cases_of_obeys h hr he hend' with
      ⟨j, hj, hopens⟩ | ⟨-, hcloses⟩ | ⟨hcandidate, i', hi', hend''⟩
    · rw [hopener j hj] at hopens
      cases hopens
    · rw [hclose] at hcloses
      cases hcloses
    · obtain rfl : i = i' := Option.some.inj (hi.symm.trans hi')
      exact ⟨hcandidate, Option.some.inj (hend''.symm.trans hend)⟩

end Obeys

end Scan

/-! ### Declarations -/

/-- The ending is what the rule says. -/
def Builder.endsAs (b : Builder) : Option Pattern → Ending PatternDecl → Bool
  | none, .immediate => true
  | some p, .pattern decl => b.passes (· == p) decl
  | _, _ => false

def Builder.isIllegal (b : Builder) : Option Pattern → Option PatternDecl → Bool
  | none, none => true
  | some p, some decl => b.passes (· == p) decl
  | _, _ => false

/-- The mode is declared as the rule says. -/
def ModeDecl.obeys (b : Builder) (m : ModeDecl) (r : Rule) : Bool :=
  m.scope == r.scope && m.opensWith b (· == r.opener) && b.endsAs r.closer m.ending &&
    b.isIllegal r.illegal m.illegal && m.contains == r.contains && m.keywords.isNone &&
    m.openingWords.isEmpty && !m.endsParent && !m.excludesBegin && !m.excludesEnd

def Builder.obeys (b : Builder) (k : Nat) (r : Rule) : Bool := b.modeAt (·.obeys b r) k

namespace Builder

variable {b : Builder} {language : LanguageDecl} {g : Grammar} {k : Nat} {r : Rule}
  {pattern : Pattern}

theorem compiles_eq {p : PatternDecl} {allowsEmpty : Bool} {index : Nat}
    (h : Compiles b.lookbehind g.terminals allowsEmpty p index)
    (hp : b.passes (· == pattern) p = true) :
    g.terminals[index]? = some ⟨pattern, allowsEmpty⟩ := by
  obtain ⟨pattern', hcompile, hterminal⟩ := h
  rw [passes, hcompile, Option.any_some, beq_iff_eq] at hp
  rw [hterminal, hp]

theorem endsAs_of_realizes {closer : Option Pattern} {decl : Ending PatternDecl}
    {ending : Ending Nat}
    (h : Ending.Realizes b.lookbehind g.terminals decl ending)
    (hcheck : b.endsAs closer decl = true) : g.EndsAs closer ending := by
  cases h with
  | immediate =>
    cases closer with
    | none => exact .immediate
    | some p => cases hcheck
  | pattern hcompiles =>
    cases closer with
    | none => cases hcheck
    | some p => exact .pattern (compiles_eq hcompiles hcheck)
  | never | withParent => cases closer <;> cases hcheck

theorem illegal_of_realizes {illegal : Option Pattern} {decl : Option PatternDecl} {t : Option Nat}
    (h : Option.Rel (Compiles b.lookbehind g.terminals false) decl t)
    (hcheck : b.isIllegal illegal decl = true) :
    Option.Rel (fun p t => g.terminals[t]? = some ⟨p, false⟩) illegal t := by
  cases h with
  | none =>
    cases illegal with
    | none => exact .none
    | some p => cases hcheck
  | some hcompiles =>
    cases illegal with
    | none => cases hcheck
    | some p => exact .some (compiles_eq hcompiles hcheck)

/-- **A mode declared as a rule says follows it.** -/
theorem obeys_of_finish (hfinish : b.finish language = .ok g) (h : b.obeys k r = true) :
    g.Obeys k r := by
  obtain ⟨decl, hdecl, hmode⟩ := exists_of_finish hfinish h
  simp only [ModeDecl.obeys, Bool.and_eq_true, Bool.not_eq_true', beq_iff_eq] at hdecl
  obtain ⟨⟨⟨⟨⟨⟨⟨⟨⟨hscope, hopener⟩, hending⟩, hillegal⟩, hcontains⟩, hkeywords⟩, hwords⟩,
    hparent⟩, hbegin⟩, hend⟩ := hdecl
  refine ⟨hmode.scope.trans hscope, ?_, endsAs_of_realizes hmode.ending hending,
    illegal_of_realizes hmode.illegal hillegal, hmode.contains.trans hcontains, ?_,
    hmode.endsParent.trans hparent, hmode.excludesBegin.trans hbegin,
    hmode.excludesEnd.trans hend⟩
  · obtain ⟨p, hp, hcompiles⟩ := hmode.opener
    rw [ModeDecl.opensWith, hp, Option.any_some] at hopener
    exact compiles_eq hcompiles hopener
  · have hnone : modeKeywords decl = .ok none := by
      rw [modeKeywords, Option.isNone_iff_eq_none.mp hkeywords, hwords]
      rfl
    exact Except.ok.inj (hmode.keywords.symm.trans hnone)

end Builder

end Highlighting
