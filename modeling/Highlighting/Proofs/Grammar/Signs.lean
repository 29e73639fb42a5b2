/-
  Highlighting/Proofs/Grammar/Signs.lean
  ======================================
  **Declarations of modes with signs.**

  Whether only a few characters count in a region of a mode, besides what is
  taken as a whole, can be read off its declaration and those of the modes that
  are looked for in it (`Builder.hasSigns`).
-/
import Highlighting.Proofs.Scan.Signs

namespace Highlighting

open Scan

variable {b : Builder} {language : LanguageDecl} {g : Grammar} {marks : List Char}
  {words : List (List Char)} {signs : Signs} {spared : List Char} {k : Nat} {c : Char}

namespace Builder

/-! ### Declarations -/

def interrupts (b : Builder) (marks : List Char) (words : List (List Char)) (spared : List Char) :
    Nat → Bool :=
  b.modeAt fun m => m.opensWith b fun p =>
    spared.all p.spares && (m.ending == .immediate || p.isMarked marks words)

def hasSign (b : Builder) (m : ModeDecl) (s : Char × Candidate) : Bool :=
  match s.2 with
  | .opens k => m.contains.contains k && b.modeAt (·.opensWith b (· == .char s.1)) k
  | .closes depth => depth == 0 && m.ending.pattern?.any (b.passes (· == .char s.1))
  | .illegal => false

def hasSigns (b : Builder) (marks : List Char) (words : List (List Char)) (signs : Signs) :
    Nat → Bool :=
  b.modeAt fun m => signs.all (b.hasSign m) &&
    m.contains.all (fun k => signs.any (·.2 == .opens k) ||
      b.interrupts marks words signs.spared k) &&
    signs.any (·.2 == .closes 0) && m.illegal.isNone &&
    signs.all fun s => signs.all fun s' => s.1 != s'.1 || s == s'

/-! ### Their grammars -/

theorem exists_of_finish {check : ModeDecl → Bool} (hfinish : b.finish language = .ok g)
    (h : b.modeAt check k = true) :
    ∃ m, check m = true ∧ (g.mode k).Realizes b.lookbehind g.terminals m :=
  exists_of_modeAt (realizes_of_finish hfinish) (lt_size_of_modeAt hfinish h) h

theorem illegal_eq_none {decl : ModeDecl} {m : Mode}
    (hm : m.Realizes b.lookbehind g.terminals decl) (h : decl.illegal.isNone = true) :
    m.content.illegal = none := by
  have hillegal := hm.illegal
  rw [Option.isNone_iff_eq_none.mp h] at hillegal
  generalize m.content.illegal = illegal at hillegal
  cases hillegal
  rfl

theorem opener_of_char {decl : ModeDecl} {m : Mode}
    (hm : m.Realizes b.lookbehind g.terminals decl)
    (h : decl.opensWith b (· == .char c) = true) :
    g.terminals[m.opener]? = some ⟨.char c, false⟩ := by
  obtain ⟨p, hp, pattern, hcompile, hterminal⟩ := hm.opener
  rw [ModeDecl.opensWith, hp, Option.any_some, passes, hcompile, Option.any_some, beq_iff_eq] at h
  rw [hterminal, h]

theorem exists_ending_of_char {decl : ModeDecl} {m : Mode}
    (hm : m.Realizes b.lookbehind g.terminals decl)
    (h : decl.ending.pattern?.any (b.passes (· == .char c)) = true) :
    ∃ t, m.ending = .pattern t ∧ g.terminals[t]? = some ⟨.char c, true⟩ := by
  have hending := hm.ending
  generalize decl.ending = ending at hending h
  generalize m.ending = ending' at hending
  cases hending with
  | pattern hcompiles =>
    obtain ⟨pattern, hcompile, hterminal⟩ := hcompiles
    refine ⟨_, rfl, ?_⟩
    rw [Ending.pattern?, Option.any_some, passes, hcompile, Option.any_some, beq_iff_eq] at h
    rw [hterminal, h]
  | immediate | never | withParent => cases h

theorem interrupts_of_finish (hfinish : b.finish language = .ok g)
    (h : b.interrupts marks words spared k = true) : g.Interrupts marks words spared k := by
  obtain ⟨decl, hdecl, hmode⟩ := exists_of_finish hfinish h
  have hpasses := opener_passes hmode hdecl
  have hboth : ∀ t, g.terminals[(g.mode k).opener]? = some t →
      (∀ c ∈ spared, t.pattern.spares c = true) ∧
        (decl.ending = .immediate ∨ t.pattern.isMarked marks words = true) := by
    intro t ht
    have hcheck := hpasses t ht
    rw [Bool.and_eq_true, List.all_eq_true, Bool.or_eq_true, beq_iff_eq] at hcheck
    exact hcheck
  refine ⟨fun c hc t ht => (hboth t ht).1 c hc, ?_⟩
  by_cases himmediate : decl.ending = .immediate
  · exact .inl ((immediate_iff hmode).mpr himmediate)
  · exact .inr fun t ht => (hboth t ht).2.resolve_left himmediate

/-- **Declarations with signs make a mode that has them.** -/
theorem hasSigns_of_finish (hfinish : b.finish language = .ok g)
    (h : b.hasSigns marks words signs k = true) : g.HasSigns marks words signs k := by
  obtain ⟨decl, hdecl, hmode⟩ := exists_of_finish hfinish h
  simp only [Bool.and_eq_true, List.all_eq_true, Bool.or_eq_true, bne_iff_ne, beq_iff_eq] at hdecl
  obtain ⟨⟨⟨⟨hsigns, hothers⟩, hends⟩, hillegal⟩, hdistinct⟩ := hdecl
  constructor
  · intro c j hc
    have hsign := hsigns _ hc
    rw [hasSign, Bool.and_eq_true, List.contains_iff_mem] at hsign
    obtain ⟨decl', hdecl', hmode'⟩ := exists_of_finish hfinish hsign.2
    exact ⟨hmode.contains ▸ hsign.1, opener_of_char hmode' hdecl'⟩
  · intro c depth hc
    have hsign := hsigns _ hc
    rw [hasSign, Bool.and_eq_true, beq_iff_eq] at hsign
    exact ⟨hsign.1, exists_ending_of_char hmode hsign.2⟩
  · intro j hj
    rcases hothers j (hmode.contains ▸ hj) with hsign | hinterrupts
    · obtain ⟨⟨c, candidate⟩, hc, heq⟩ := List.any_eq_true.mp hsign
      obtain rfl := eq_of_beq heq
      exact .inl ⟨c, hc⟩
    · exact .inr (interrupts_of_finish hfinish hinterrupts)
  · obtain ⟨⟨c, candidate⟩, hc, heq⟩ := List.any_eq_true.mp hends
    obtain rfl := eq_of_beq heq
    exact ⟨c, hc⟩
  · exact illegal_eq_none hmode hillegal
  · intro c hc
    have hsign := hsigns _ hc
    cases hsign
  · intro s hs s' hs' heq
    exact (hdistinct s hs s' hs').resolve_left fun hne => hne heq

end Builder

end Highlighting
