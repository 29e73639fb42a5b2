/-
  Highlighting/Proofs/Grammar/Wards.lean
  ======================================
  **Declarations that enforce a ward.**

  Whether a grammar enforces a ward can be read off the declarations of the
  modes that may open (`Builder.enforces`).
-/
import Highlighting.Proofs.Grammar.Signs
import Highlighting.Proofs.Scan.Abandonment

namespace Highlighting

variable {b : Builder} {language : LanguageDecl} {g : Grammar} {w : Ward} {reach shut : List Nat}
  {scope : Option Scope} {decl : ModeDecl} {m : Mode} {k : Nat}

/-! ### Declarations -/

namespace ModeDecl

variable (b : Builder) (w : Ward)

def keepsAround (scope : Option Scope) (m : ModeDecl) : Bool :=
  (m.ending == .immediate || m.scope.isSome) &&
    (!(m.excludesBegin || m.ending == .immediate && m.scope.isNone) ||
      m.opensWith b (Pattern.sparesAll (w.bannedIn scope)) ||
      !m.excludesBegin && m.keywords.isNone && m.openingWords.isEmpty &&
        m.opensWith b (Pattern.takesPair (w.shieldsIn scope) (w.bannedIn scope))) &&
    (!m.excludesEnd || m.ending.pattern?.all (b.passes (Pattern.sparesAll (w.bannedIn scope))))

/-- What the pattern compiles to opens no mode. -/
def opensNone (p : PatternDecl) : Bool :=
  b.modes.all fun slot => slot.all (·.opensWith b fun q => p.compile? b.lookbehind != some q)

def keepsInside (m : ModeDecl) : Bool :=
  (m.excludesBegin || m.opensWith b (Pattern.sparesAll (w.bannedIn m.scope))) &&
    (m.excludesEnd || m.ending.pattern?.all (b.passes (Pattern.sparesAll (w.bannedIn m.scope)))) &&
    (m.ending == .immediate || (w.bannedIn m.scope).isEmpty ||
      m.illegal.any fun p =>
        b.passes (Pattern.takesEach (w.bannedIn m.scope)) p && opensNone b p) &&
    ((w.bannedIn m.scope).isEmpty || m.contains.all (b.modeAt (keepsAround b w m.scope)))

end ModeDecl

namespace Builder

def enforces (b : Builder) (language : LanguageDecl) (w : Ward) (reach shut : List Nat) : Bool :=
  language.contains.all (fun n => reach.contains n || shut.contains n) &&
    reach.all (b.modeAt fun m => m.contains.all (fun n => reach.contains n || shut.contains n) &&
      m.ending != .withParent && (!m.endsParent || !m.excludesEnd) && m.keepsInside b w)

/-! ### Their grammars -/

theorem keepsAround_of_realizes (hm : m.Realizes b.lookbehind g.terminals decl)
    (h : decl.keepsAround b w scope = true) : m.KeepsAround w g scope := by
  simp only [ModeDecl.keepsAround, Bool.and_eq_true, Bool.or_eq_true, beq_iff_eq,
    Bool.not_eq_true'] at h
  obtain ⟨⟨hregion, hopener⟩, hending⟩ := h
  constructor
  · intro hne hnone
    rw [hm.scope] at hnone
    rcases hregion with himmediate | hsome
    · exact hne ((immediate_iff hm).mpr himmediate)
    · rw [hnone] at hsome
      cases hsome
  · intro hbegin
    rcases hopener with (hnot | hspares) | ⟨⟨⟨hexcludes, hkeywords⟩, hwords⟩, hpair⟩
    · have hmust :
          (decl.excludesBegin || decl.ending == .immediate && decl.scope.isNone) = true := by
        rw [hm.excludesBegin, immediate_iff hm, hm.scope] at hbegin
        simpa using hbegin
      rw [hmust] at hnot
      cases hnot
    · exact .inl (opener_passes hm hspares)
    · refine .inr ⟨hm.excludesBegin.trans hexcludes, ?_, opener_passes hm hpair⟩
      have hmode := hm.keywords
      rw [modeKeywords, Option.isNone_iff_eq_none.mp hkeywords] at hmode
      dsimp only at hmode
      rw [if_pos hwords] at hmode
      exact (Except.ok.inj hmode).symm
  · intro hexcludes
    rcases hending with hnot | hspares
    · rw [hm.excludesEnd, hnot] at hexcludes
      cases hexcludes
    · exact ending_passes hm hspares

theorem opener_ne_of_opensNone (hg : g.Realizes b language) {p : PatternDecl} {t : Nat}
    (hcompiles : Compiles b.lookbehind g.terminals false p t)
    (h : ModeDecl.opensNone b p = true) : ∀ k < g.modes.size, (g.mode k).opener ≠ t := by
  rintro k hk rfl
  obtain ⟨decl, hslot, hm⟩ := hg.mode k hk
  rw [ModeDecl.opensNone, Array.all_eq_true_iff_forall_mem] at h
  have hdecl := h (some decl) (Array.mem_of_getElem? hslot)
  obtain ⟨pattern, hcompile, hterminal⟩ := hcompiles
  have hne := opener_passes hm hdecl _ hterminal
  rw [hcompile, bne_self_eq_false] at hne
  cases hne

theorem keepsInside_of_realizes (hfinish : b.finish language = .ok g)
    (hm : m.Realizes b.lookbehind g.terminals decl) (h : decl.keepsInside b w = true) :
    m.KeepsInside w g := by
  simp only [ModeDecl.keepsInside, Bool.and_eq_true, Bool.or_eq_true, beq_iff_eq,
    List.isEmpty_iff, List.all_eq_true] at h
  obtain ⟨⟨⟨hopener, hending⟩, hillegal⟩, hcontains⟩ := h
  rw [← hm.scope] at hopener hending hillegal hcontains
  constructor
  · rw [hm.excludesBegin]
    exact hopener.imp_right (opener_passes hm)
  · rw [hm.excludesEnd]
    exact hending.imp_right (ending_passes hm)
  · rcases hillegal with (himmediate | hnil) | hillegal
    · exact .inl ((immediate_iff hm).mpr himmediate)
    · exact .inr (.inl hnil)
    · obtain ⟨p, hp, hboth⟩ := (Option.any_eq_true _ _).mp hillegal
      rw [Bool.and_eq_true] at hboth
      have hrel := hm.illegal
      rw [hp] at hrel
      generalize m.content.illegal = illegal at hrel
      cases hrel with
      | some hcompiles =>
        exact .inr (.inr ⟨_, rfl, passes_of_compiles hcompiles hboth.1,
          opener_ne_of_opensNone (realizes_of_finish hfinish) hcompiles hboth.2⟩)
  · rw [hm.contains]
    refine hcontains.imp_right fun hall n hn => ?_
    obtain ⟨inner, hinner, hrealizes⟩ := exists_of_finish hfinish (hall n hn)
    exact keepsAround_of_realizes hrealizes hinner

/-- **Declarations that enforce a ward make a grammar that does.** -/
theorem enforces_of_finish (hfinish : b.finish language = .ok g)
    (hwords : ∀ c : KeywordClass, w.banned c.scope = [])
    (h : b.enforces language w reach shut = true) : g.Enforces w reach shut := by
  simp only [enforces, Bool.and_eq_true, List.all_eq_true, Bool.or_eq_true,
    List.contains_iff_mem] at h
  obtain ⟨hroot, hreach⟩ := h
  have hmode : ∀ k ∈ reach, (∀ n ∈ (g.mode k).content.contains, n ∈ reach ∨ n ∈ shut) ∧
      ((g.mode k).ending ≠ .withParent ∧
        ((g.mode k).endsParent = true → (g.mode k).excludesEnd = false)) ∧
      (g.mode k).KeepsInside w g := by
    intro k hk
    obtain ⟨decl, hdecl, hm⟩ := exists_of_finish hfinish (hreach k hk)
    simp only [Bool.and_eq_true, List.all_eq_true, Bool.or_eq_true, List.contains_iff_mem,
      bne_iff_ne, Bool.not_eq_true'] at hdecl
    obtain ⟨⟨⟨hinside, hparent⟩, hends⟩, hkeeps⟩ := hdecl
    refine ⟨?_, ⟨?_, ?_⟩, keepsInside_of_realizes hfinish hm hkeeps⟩
    · rw [hm.contains]
      exact hinside
    · intro heq
      have hending := hm.ending
      rw [heq] at hending
      generalize decl.ending = ending at hending hparent
      cases hending
      exact hparent rfl
    · rw [hm.endsParent, hm.excludesEnd]
      intro htrue
      exact hends.resolve_left (by rw [htrue]; exact Bool.noConfusion)
  refine ⟨hwords, ?_, fun k hk => (hmode k hk).1, fun k hk => (hmode k hk).2.1,
    fun k hk => (hmode k hk).2.2⟩
  rw [(realizes_of_finish hfinish).contains]
  exact hroot

end Builder

end Highlighting
