/-
  Highlighting/Proofs/Grammar/Blocks.lean
  =======================================
  **Declarations with blocks between braces**, and the sections that they are in.

  Whether a grammar has blocks can be read off its declarations
  (`Builder.hasBlocks`).  The text that leads into the outermost block is written
  out, so that which modes open on the way can be worked out
  (`Builder.opensSection`); whatever follows, a scan then comes into the block
  (`Builder.exists_in_section`).
-/
import Highlighting.Proofs.Grammar.Openings
import Highlighting.Proofs.Grammar.Signs
import Highlighting.Proofs.Scan.Blocks

namespace Highlighting

open Scan

variable {b : Builder} {language : LanguageDecl} {g : Grammar} {marks : List Char}
  {words : List (List Char)} {outer top block : Nat}

namespace Builder

/-! ### Declarations of blocks -/

/-- The first mode is around the second, and that one is like the third, but for what closes with
it. -/
def hasBlocks (b : Builder) (marks : List Char) (words : List (List Char))
    (outer top block : Nat) : Bool :=
  b.hasSigns marks words (blockSigns block) top &&
    b.hasSigns marks words (blockSigns block) block &&
    b.modeAt (!·.endsParent) block && b.modeAt (fun m => m.endsParent && !m.excludesEnd) top &&
    b.modeAt (!·.endsParent) outer

/-- **Declarations with blocks make a grammar that has them.** -/
theorem hasBlocks_of_finish (hfinish : b.finish language = .ok g)
    (h : b.hasBlocks marks words outer top block = true) :
    g.HasBlocks marks words outer top block := by
  simp only [hasBlocks, Bool.and_eq_true] at h
  obtain ⟨⟨⟨⟨hsignsTop, hsignsBlock⟩, hblock⟩, htop⟩, houter⟩ := h
  have hendsParent : ∀ {k : Nat}, b.modeAt (!·.endsParent) k = true →
      (g.mode k).endsParent = false := by
    intro k hk
    obtain ⟨decl, hdecl, hmode⟩ := exists_of_finish hfinish hk
    rw [Bool.not_eq_true'] at hdecl
    exact hmode.endsParent.trans hdecl
  obtain ⟨decl, hdecl, hmode⟩ := exists_of_finish hfinish htop
  rw [Bool.and_eq_true, Bool.not_eq_true'] at hdecl
  refine ⟨?_, hendsParent hblock, hmode.endsParent.trans hdecl.1, hendsParent houter,
    hmode.excludesEnd.trans hdecl.2⟩
  rintro m (rfl | rfl)
  · exact hasSigns_of_finish hfinish hsignsTop
  · exact hasSigns_of_finish hfinish hsignsBlock

/-! ### Coming into a section -/

/-- The text leads into a section, whose opening ends at `n`, and with its last character into a
mode in that. -/
def opensSection (b : Builder) (language : LanguageDecl) (text : Source) (outer top n : Nat) :
    Bool :=
  decide (n < text.size) && b.firstOpening? text 0 language.contains == some (outer, n) &&
    b.modeAt (fun m => m.ending == .never && m.illegal.isNone &&
      (List.range (text.size - 1)).all (fun r =>
        decide (r < n) || b.firstOpening? text r m.contains == none) &&
      b.firstOpening? text (text.size - 1) m.contains == some (top, text.size)) outer

section Section

variable {u v : Source} {c : Char} {options : Options} {n bound : Nat} {core : Core}

/-- A region opens with what comes next, and the scan goes on in it. -/
theorem advances_opens {task : Task} {k : Nat} {span : Span}
    (hk : (task.grammar.mode k).ending ≠ .immediate)
    (hnext : core.next? task = some ⟨span, .opens k⟩) (hlt : span.start < bound) :
    ∃ d, core.Advances task bound d ∧ d.pos = span.stop ∧ d.modes = k :: core.modes ∧
      d.barred = core.barred := by
  have honward : (⟨span, .opens k⟩ : Found).IsOnward core.modes := Found.isOnward_of_ne nofun
  have hafter : core.place.after task ⟨span, .opens k⟩ = ⟨span.stop, k :: core.modes⟩ := by
    rw [Place.after]
    exact congrArg (Place.mk span.stop) (if_neg hk)
  have hplace := (Core.place_take honward).trans hafter
  have hmodes : (core.take task ⟨span, .opens k⟩).modes = k :: core.modes :=
    congrArg Place.modes hplace
  refine ⟨_, ⟨⟨_, hnext, honward, hlt, rfl⟩, fun hnil => ?_⟩, congrArg Place.pos hplace, hmodes,
    Core.barred_take honward⟩
  rw [Core.modes, hnil] at hmodes
  cases hmodes

/-- **The section opens first, and then the outermost block in it**, whatever follows. -/
theorem next?_of_opensSection (hfinish : b.finish language = .ok g)
    (hsound : (task g (u ++ v) options).IsSound) (hend : u.EndsWith c)
    (hstops : ∀ t ∈ g.terminals, t.pattern.stopsAt c = true)
    (h : b.opensSection language u outer top n = true) : (g.mode outer).ending = .never ∧
      Place.next? (task g (u ++ v) options) [] ⟨0, []⟩ = some ⟨⟨0, n⟩, .opens outer⟩ ∧
      Place.next? (task g (u ++ v) options) [] ⟨n, [outer]⟩ =
        some ⟨⟨u.size - 1, u.size⟩, .opens top⟩ := by
  have hg := realizes_of_finish hfinish
  rw [opensSection, Bool.and_eq_true, Bool.and_eq_true, decide_eq_true_eq, beq_iff_eq] at h
  obtain ⟨⟨hn, houter⟩, hsection⟩ := h
  have hsize := lt_size_of_modeAt hfinish hsection
  obtain ⟨decl, hdecl, hmode⟩ := exists_of_modeAt hg hsize hsection
  simp only [Bool.and_eq_true, beq_iff_eq, List.all_eq_true, List.mem_range, Bool.or_eq_true,
    decide_eq_true_eq] at hdecl
  obtain ⟨⟨⟨hnever, hillegal⟩, hquiet⟩, htop⟩ := hdecl
  have hnever' : (g.mode outer).ending = .never := by
    have hending := hmode.ending
    rw [hnever] at hending
    generalize (g.mode outer).ending = ending at hending
    cases hending
    rfl
  have hcontains : ∀ k ∈ decl.contains, k < g.modes.size := by
    intro k hk
    rw [← hmode.contains] at hk
    exact (contentOf_inOrder hsound.inOrder [outer]).contains k hk
  have hroot : ∀ k ∈ language.contains, k < g.modes.size := by
    intro k hk
    rw [← hg.contains] at hk
    exact hsound.inOrder.root.contains k hk
  have happend : ∀ {ks : List Nat} {q : Nat}, (∀ k ∈ ks, k < g.modes.size) → q < u.size →
      b.firstOpening? (u ++ v) q ks = b.firstOpening? u q ks :=
    fun hks hq => firstOpening?_append hg hks hend hstops hq
  refine ⟨hnever', ?_, ?_⟩
  · exact next?_of_firstOpening hsound hg [] hg.contains (Nat.le_refl 0)
      (fun r _ hr => absurd hr (Nat.not_lt_zero r)) (fun hlt => absurd hlt (Nat.lt_irrefl 0))
      ((happend hroot (Nat.zero_lt_of_lt hn)).trans houter)
  · -- nothing ends the section or is illegal in it, and its block opens at the last character
    have hlimits : limits (task g (u ++ v) options) [outer] = [] := by
      have hcloser : closer? g [outer] 0 = none := by rw [closer?, hnever']
      have hnone : (contentOf g [outer]).illegal = none := illegal_eq_none hmode hillegal
      show ((closer? g [outer] 0).toList.map fun c => (c.1, Candidate.closes c.2)) ++
        (if options.ignoreIllegals then [] else (contentOf g [outer]).illegal.toList.map _) = []
      rw [hcloser, hnone]
      simp
    refine next?_of_firstOpening hsound hg [outer] hmode.contains
      (show n ≤ u.size - 1 by omega) (fun r hr hlt => ?_) (fun _ => hlimits)
      ((happend hcontains (by omega)).trans htop)
    rw [happend hcontains (by omega)]
    exact (hquiet r hlt).resolve_left (Nat.not_lt_of_le hr)

/-- **A scan comes into the outermost block**, whatever follows. -/
theorem exists_in_section (hfinish : b.finish language = .ok g)
    (hsound : (task g (u ++ v) options).IsSound) (hend : u.EndsWith c)
    (hstops : ∀ t ∈ g.terminals, t.pattern.stopsAt c = true)
    (h : b.opensSection language u outer top n = true)
    (hblocks : g.HasBlocks marks words outer top block) (hbound : u.size ≤ bound) :
    ∃ d, AdvancesTo (task g (u ++ v) options) bound (State.start g).core d ∧ d.pos = u.size ∧
      d.modes = blockModes outer top block 0 ∧ d.barred = [] := by
  obtain ⟨hnever, hfirst, hsecond⟩ := next?_of_opensSection hfinish hsound hend hstops h
  have hsize : 0 < u.size := hend.size_pos
  have hstart : (State.start g).core.next? (task g (u ++ v) options) =
      some ⟨⟨0, n⟩, .opens outer⟩ := hfirst
  obtain ⟨d, hd, hpos, hmodes, hbarred⟩ := advances_opens
    (show (g.mode outer).ending ≠ .immediate by simp [hnever]) hstart
    (show 0 < bound by omega)
  have hnext : d.next? (task g (u ++ v) options) = some ⟨⟨u.size - 1, u.size⟩, .opens top⟩ := by
    have hmodes' : d.modes = [outer] := hmodes
    have hbarred' : d.barred = [] := hbarred
    rw [Core.next?, Core.place, hpos, hmodes', hbarred']
    exact hsecond
  obtain ⟨-, t, hclose, -⟩ := (hblocks.signs top (.inl rfl)).closes '\x7d' 0
    (List.mem_cons_of_mem _ List.mem_cons_self)
  obtain ⟨e, he, hpos', hmodes', hbarred''⟩ := advances_opens
    (show (g.mode top).ending ≠ .immediate by simp [hclose]) hnext
    (show u.size - 1 < bound by omega)
  refine ⟨e, .tail (.single hd) he, hpos', hmodes'.trans ?_, hbarred''.trans hbarred⟩
  rw [hmodes]
  rfl

end Section

end Builder

end Highlighting
