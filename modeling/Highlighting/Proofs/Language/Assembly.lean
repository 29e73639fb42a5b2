/-
  Highlighting/Proofs/Language/Assembly.lean
  ==========================================
  **Sections of inline assembly** in Solidity.

  The blocks of a section nest to any depth, and the outermost one closes the
  section along with itself.  So with balanced braces and nothing around them
  that opens another region, each block closes at its own brace, and what comes
  behind the section is highlighted as by itself (`assembly_blocks_nest`).
-/
import Highlighting.Proofs.Grammar.Blocks
import Highlighting.Proofs.Language.Lines
import Highlighting.Proofs.Scan.Seam.Joined

namespace Highlighting

open Scan (Balanced depth)

namespace Language.Solidity

/-! ### The declarations -/

/-- What leads into a block of assembly. -/
def assemblyStart : String := "assembly \x7b"

/-- Characters that something else than a block starts with, in assembly. -/
def assemblyMarks : List Char := "'\"/._".toList

/-- Words that do. -/
def assemblyWords : List (List Char) := ["function".toList]

def hasAssembly (outer top block : Nat) (language : LanguageDecl) (b : Builder) : Bool :=
  b.hasBlocks assemblyMarks assemblyWords outer top block &&
    b.opensSection language (Source.ofString assemblyStart) outer top "assembly".length &&
    b.allPatterns language fun p => p.stopsAt '\x7b' && p.stopsAt '\x7d' && p.mayFollow '\x7d'

/-- In the grammar, sections of assembly are made of blocks, and no match gets over a brace. -/
structure HasAssembly (g : Grammar) (outer top block : Nat) : Prop where
  blocks : g.HasBlocks assemblyMarks assemblyWords outer top block
  stopsAtOpening : ∀ t ∈ g.terminals, t.pattern.stopsAt '\x7b' = true
  stopsAtClosing : ∀ t ∈ g.terminals, t.pattern.stopsAt '\x7d' = true
  follows : ∀ t ∈ g.terminals, t.pattern.mayFollow '\x7d' = true
  start : ∀ (v : Source) (options : Scan.Options) (n : Nat), 10 ≤ n →
    let task := Scan.task g (Source.ofString assemblyStart ++ v) options
    ∃ d, Scan.AdvancesTo task n (Scan.State.start g).core d ∧ d.pos = 10 ∧
      d.modes = Scan.blockModes outer top block 0 ∧ d.barred = []

theorem hasAssembly_solidity : declares declare (hasAssembly 39 36 35) = true :=
  declares_of_workedOut workedOut (by decide +kernel)

theorem hasAssembly_of_finish {outer top block : Nat} {g : Grammar}
    (h : declares declare (hasAssembly outer top block) = true) (hg : grammar = .ok g)
    (hsound : ∀ source options, (Scan.task g source options).IsSound) :
    HasAssembly g outer top block := by
  obtain ⟨language, b, -, hfinish, hcheck⟩ := exists_finish_of_declares h hg
  rw [hasAssembly, Bool.and_eq_true, Bool.and_eq_true] at hcheck
  obtain ⟨⟨hblocks, hsection⟩, hpatterns⟩ := hcheck
  have hall := Builder.check_of_allPatterns hfinish hpatterns
  simp only [Bool.and_eq_true] at hall
  have hblocks' := Builder.hasBlocks_of_finish hfinish hblocks
  refine ⟨hblocks', fun t ht => (hall t ht).1.1, fun t ht => (hall t ht).1.2,
    fun t ht => (hall t ht).2, fun v options n hn => ?_⟩
  exact Builder.exists_in_section hfinish (hsound _ options)
    (show (Source.ofString assemblyStart).EndsWith '\x7b' by unfold Source.EndsWith; decide)
    (fun t ht => (hall t ht).1.1) hsection hblocks' hn

/-! ### States of the scan -/

section States

variable {s : Scan.Seam} {outer top block : Nat} {b : String}

/-- A section with its text, in front of the seam. -/
structure IsSection (s : Scan.Seam) (outer top block : Nat) (b : String) : Prop where
  front : s.front = Source.ofString (assemblyStart ++ b ++ "\x7d")
  hasAssembly : HasAssembly s.grammar outer top block
  balanced : Balanced b.toList
  unmarked : ∀ c ∈ b.toList, c ∉ assemblyMarks
  wordless : ∀ w ∈ assemblyWords, ¬ w <:+: b.toList

namespace IsSection

variable (h : IsSection s outer top block b)
include h

theorem size_eq : s.size = 10 + b.length + 1 := by
  rw [Scan.Seam.size, h.front, Source.ofString, List.size_toArray, String.toList_append,
    String.toList_append, List.length_append, List.length_append, String.length_toList]
  rfl

theorem stops : s.Stops '\x7d' := by
  refine ⟨?_, h.hasAssembly.stopsAtClosing⟩
  have hlast : s.front = Source.ofString (assemblyStart ++ b) ++ Source.ofString "\x7d" := by
    rw [h.front, Source.ofString_append]
  rw [Source.EndsWith, hlast, Array.size_append]
  exact Source.getElem?_append_add _ _ 0

theorem closing : s.front[10 + b.length]? = some '\x7d' := by
  have hlast := h.stops.endsWith
  rw [Source.EndsWith, ← Scan.Seam.size, h.size_eq, Nat.add_sub_cancel] at hlast
  exact hlast

theorem exists_start : ∃ d, Scan.AdvancesTo s.frontTask s.size (Scan.State.start s.grammar).core d ∧
    d.pos = 10 ∧ d.modes = Scan.blockModes outer top block 0 ∧ d.barred = [] := by
  have hsplit : s.front = Source.ofString assemblyStart ++ Source.ofString (b ++ "\x7d") := by
    rw [h.front, String.append_assoc, Source.ofString_append]
  have hstart := h.hasAssembly.start (Source.ofString (b ++ "\x7d")) s.options s.size
    (by rw [h.size_eq]; omega)
  rw [← hsplit] at hstart
  exact hstart

theorem text : Scan.BlockText assemblyMarks assemblyWords s.front 10 b.toList := by
  rw [h.front]
  exact Scan.blockText_ofString assemblyStart b "\x7d" h.balanced h.unmarked h.wordless

/-- A brace that the scan of the front part takes, it takes in the whole text as well. -/
theorem exists_states {d e : Scan.Core} {f : Scan.Found} {q : Nat} {ch : Char}
    {before after : List Nat}
    (hd : Scan.AdvancesTo s.frontTask s.size (Scan.State.start s.grammar).core d) (hq : q < s.size)
    (he : Scan.TakesBrace s.frontTask s.size d block q ch before after e f) :
    ∃ k, (Scan.runFor s.wholeTask k (Scan.State.start s.grammar)).pos ≤ q ∧
      (Scan.runFor s.wholeTask (k + 1) (Scan.State.start s.grammar)).pos = q + 1 ∧
      (Scan.runFor s.wholeTask (k + 1) (Scan.State.start s.grammar)).modes = after ∧
      ∀ j, 0 < j → j ≤ k →
        (Scan.runFor s.wholeTask j (Scan.State.start s.grammar)).regions ≠ [] := by
  have hpasses : e.Passes s.frontTask s.size (e.take s.frontTask f) :=
    ⟨f, he.next, he.onward, by rw [he.span]; exact hq, rfl⟩
  obtain ⟨k, hk, hk', hinside⟩ :=
    Scan.Seam.exists_states h.stops (Nat.le_refl _) (hd.trans he.advances) hpasses
  refine ⟨k, ?_, ?_, ?_, hinside⟩
  · exact (congrArg Scan.Core.pos hk).trans_le he.pos_le
  · exact (congrArg Scan.Core.pos hk').trans (he.pos_take s.frontSound)
  · rw [← Scan.modes_core, hk']
    exact he.after

/-- **Behind every brace as many regions are open as the text in front says.** -/
theorem exists_at_brace {i : Nat} {c : Char} (hc : b.toList[i]? = some c)
    (hbrace : Scan.isBrace c = true) :
    ∃ k, (Scan.runFor s.wholeTask k (Scan.State.start s.grammar)).pos ≤ 10 + i ∧
      (Scan.runFor s.wholeTask (k + 1) (Scan.State.start s.grammar)).pos = 11 + i ∧
      (Scan.runFor s.wholeTask (k + 1) (Scan.State.start s.grammar)).regions.length =
        2 + depth (b.toList.take (i + 1)) := by
  obtain ⟨d, hd, hpos, hmodes, hbarred⟩ := h.exists_start
  have hi := (List.getElem?_eq_some_iff.mp hc).1
  have hn : 10 + b.toList.length < s.size := by rw [h.size_eq, String.length_toList]; omega
  obtain ⟨e, f, he⟩ := Scan.exists_takesBrace_of_text s.frontSound h.hasAssembly.blocks h.text hpos
    hmodes hbarred hn hi hc hbrace
  obtain ⟨k, hle, hpos', hmodes', -⟩ := h.exists_states hd (by omega) he
  refine ⟨k, hle, by rw [hpos']; omega, ?_⟩
  have hlength := congrArg List.length hmodes'
  rw [Scan.State.modes, List.length_map, Scan.blockModes, List.length_append,
    List.length_replicate] at hlength
  rw [hlength]
  exact Nat.add_comm _ 2

/-- **The brace behind the text closes the section**, and the scan comes to the seam. -/
theorem exists_at_end :
    (∃ k, (Scan.runFor s.wholeTask k (Scan.State.start s.grammar)).pos ≤ 10 + b.length ∧
      (Scan.runFor s.wholeTask (k + 1) (Scan.State.start s.grammar)).pos = 11 + b.length ∧
      (Scan.runFor s.wholeTask (k + 1) (Scan.State.start s.grammar)).regions = [] ∧
      ∀ j, 0 < j → j ≤ k →
        (Scan.runFor s.wholeTask j (Scan.State.start s.grammar)).regions ≠ []) ∧
    ∃ a, s.Arrives a ∧ a.draft.bufferStart = s.size := by
  obtain ⟨d, hd, hpos, hmodes, hbarred⟩ := h.exists_start
  have hsize := h.size_eq
  have hn : 10 + b.toList.length < s.size := by rw [hsize, String.length_toList]; omega
  obtain ⟨e, f, he⟩ := Scan.exists_takesBrace_behind s.frontSound h.hasAssembly.blocks h.text hpos
    hmodes hbarred hn (by rw [String.length_toList]; exact h.closing)
  obtain ⟨k, hle, hpos', hmodes', hinside⟩ := h.exists_states hd hn he
  have hpasses : e.Passes s.frontTask s.size (e.take s.frontTask f) :=
    ⟨f, he.next, he.onward, by rw [he.span]; exact hn, rfl⟩
  have hend : (e.take s.frontTask f).pos = s.size :=
    (he.pos_take s.frontSound).trans (by rw [hsize, String.length_toList])
  have hbuffer : (e.take s.frontTask f).draft.bufferStart = s.size :=
    (he.bufferStart_take h.hasAssembly.blocks rfl).trans (by rw [hsize, String.length_toList])
  rw [String.length_toList] at hle hpos'
  exact ⟨⟨k, hle, by rw [hpos']; omega, List.map_eq_nil_iff.mp hmodes', hinside⟩, _,
    Scan.Seam.arrives_stops h.stops (hd.trans he.advances) hpasses hend
      (List.map_eq_nil_iff.mp he.after), hbuffer⟩

end IsSection

end States

end Language.Solidity

open Language.Solidity in
/-- **Blocks of inline assembly close at their own braces.**  Behind each brace of a balanced text
as many regions are open as the text says, besides the section and its outermost block.  These close
at the brace behind the text and not before, and what follows is highlighted as by itself. -/
theorem assembly_blocks_nest :
    ∃ solidity, Language.Solidity.grammar = .ok solidity ∧
      ∀ (b t : String) (options : Scan.Options), Balanced b.toList →
        (∀ c ∈ b.toList, c ∉ ['\'', '"', '/', '.', '_']) → ¬ "function".toList <:+: b.toList →
        let front := "assembly \x7b" ++ b ++ "\x7d"
        let rest := " " ++ t
        let task := Scan.task solidity (Source.ofString (front ++ rest)) options
        let after := fun n => Scan.runFor task n (Scan.State.start solidity)
        (∀ (i : Nat) (c : Char), b.toList[i]? = some c → c = '\x7b' ∨ c = '\x7d' →
          ∃ k, (after k).pos ≤ 10 + i ∧ (after (k + 1)).pos = 11 + i ∧
            (after (k + 1)).regions.length = 2 + depth (b.toList.take (i + 1))) ∧
        (∃ k, (after k).pos ≤ 10 + b.length ∧ (after (k + 1)).pos = 11 + b.length ∧
          (after (k + 1)).regions = [] ∧ ∀ j, 0 < j → j ≤ k → (after j).regions ≠ []) ∧
        (solidity.highlight (front ++ rest) options).leaves =
          Token.join (solidity.highlight front options).leaves
            (solidity.highlight rest options).leaves := by
  obtain ⟨solidity, hsolidity, hsuits⟩ := Language.exists_solidity
  refine ⟨solidity, hsolidity, ?_⟩
  intro b t options hbalanced hmarks hword front rest task after
  have hassembly := hasAssembly_of_finish hasAssembly_solidity hsolidity hsuits.isSound
  have hlines := Language.highlightsLines_of_finish Language.highlightsLines_solidity hsolidity
  have hend : (Source.ofString front).EndsWith '\x7d' := by
    rw [Source.EndsWith, Source.ofString_append, Array.size_append]
    exact Source.getElem?_append_add _ _ 0
  -- in terms of the seam, so that nothing has to be evaluated
  obtain ⟨s, rfl, rfl, hfront, hrest⟩ : ∃ s : Scan.Seam, s.grammar = solidity ∧
      s.options = options ∧ s.front = Source.ofString front ∧ s.rest = Source.ofString rest := by
    refine ⟨⟨solidity, options, Source.ofString front, Source.ofString rest,
      fun source => hsuits.isSound source options, fun t ht => ?_⟩, rfl, rfl, rfl, rfl⟩
    exact Pattern.endAt?_append_add hend (hlines.keepsLines.listed t ht) (hassembly.follows t ht)
  have htask : task = s.wholeTask := by
    rw [Scan.Seam.wholeTask, hfront, hrest, ← Source.ofString_append]
  have hsection : IsSection s 39 36 35 b := by
    refine ⟨hfront, hassembly, hbalanced, hmarks, ?_⟩
    intro w hw
    rw [List.mem_singleton.mp hw]
    exact hword
  obtain ⟨hclose, a, ha, hbuffer⟩ := hsection.exists_at_end
  refine ⟨fun i c hc hbrace => ?_, ?_, ?_⟩
  · have hbrace' : Scan.isBrace c = true := by
      rw [Scan.isBrace, Bool.or_eq_true, beq_iff_eq, beq_iff_eq]
      exact hbrace
    obtain ⟨k, hk⟩ := hsection.exists_at_brace hc hbrace'
    refine ⟨k, ?_⟩
    show (Scan.runFor task k _).pos ≤ _ ∧ (Scan.runFor task (k + 1) _).pos = _ ∧
      (Scan.runFor task (k + 1) _).regions.length = _
    rw [htask]
    exact hk
  · obtain ⟨k, hk⟩ := hclose
    refine ⟨k, ?_⟩
    show (Scan.runFor task k _).pos ≤ _ ∧ (Scan.runFor task (k + 1) _).pos = _ ∧
      (Scan.runFor task (k + 1) _).regions = [] ∧
      ∀ j, 0 < j → j ≤ k → (Scan.runFor task j _).regions ≠ []
    rw [htask]
    exact hk
  · exact (Scan.Seam.highlight_joined hfront hrest ha hlines.scopesBegin
      (hbuffer ▸ s.parts_size)).1

/-- One block in the outermost one. -/
theorem assembly_with_a_block_nests :
    ∃ solidity, Language.Solidity.grammar = .ok solidity ∧
      let b := " \x7b pop \x7d "
      let front := "assembly \x7b" ++ b ++ "\x7d"
      let rest := " " ++ "let x"
      let task := Scan.task solidity (Source.ofString (front ++ rest)) ⟨false⟩
      let after := fun n => Scan.runFor task n (Scan.State.start solidity)
      (Balanced b.toList ∧ (∀ c ∈ b.toList, c ∉ ['\'', '"', '/', '.', '_']) ∧
        ¬ "function".toList <:+: b.toList) ∧
      (∃ k, (after k).pos ≤ 11 ∧ (after (k + 1)).pos = 12 ∧
        (after (k + 1)).regions.length = 3) ∧
      (∃ k, (after k).pos ≤ 17 ∧ (after (k + 1)).pos = 18 ∧
        (after (k + 1)).regions.length = 2) ∧
      (solidity.highlight (front ++ rest) ⟨false⟩).leaves =
        Token.join (solidity.highlight front ⟨false⟩).leaves
          (solidity.highlight rest ⟨false⟩).leaves := by
  obtain ⟨solidity, hsolidity, hnest⟩ := assembly_blocks_nest
  refine ⟨solidity, hsolidity, ?_⟩
  intro b front rest task after
  have hbalanced : Balanced b.toList := by
    have hahead : ∀ p ∈ b.toList.inits, p.count '\x7d' ≤ p.count '\x7b' := by decide
    exact ⟨fun p hp => hahead p ((List.mem_inits _ _).mpr hp), by decide⟩
  have hmarks : ∀ c ∈ b.toList, c ∉ ['\'', '"', '/', '.', '_'] := by simp [b]
  have hword : ¬ "function".toList <:+: b.toList := by
    have hfirst : 'f' ∈ "function".toList ∧ 'f' ∉ b.toList := by decide
    exact fun h => hfirst.2 (h.subset hfirst.1)
  obtain ⟨hbraces, -, hleaves⟩ := hnest b "let x" ⟨false⟩ hbalanced hmarks hword
  have hopened : 2 + depth (b.toList.take 2) = 3 := by decide
  have hclosed : 2 + depth (b.toList.take 8) = 2 := by decide
  refine ⟨⟨hbalanced, hmarks, hword⟩, ?_, ?_, hleaves⟩
  · have hbrace := hbraces 1 '\x7b' (by decide) (.inl rfl)
    rw [hopened] at hbrace
    exact hbrace
  · have hbrace := hbraces 7 '\x7d' (by decide) (.inr rfl)
    rw [hclosed] at hbrace
    exact hbrace

end Highlighting
