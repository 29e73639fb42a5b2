/-
  Highlighting/Proofs/Scan/Blocks.lean
  ====================================
  **Blocks between braces**, nested to any depth.

  A grammar has blocks (`Grammar.HasBlocks`) when one mode opens at `\x7b`, ends at
  `\x7d` and is looked for in itself, and braces are its only signs.  The outermost
  block is of a mode of its own, which closes the section around along with
  itself.

  So in plain text a scan inside of blocks goes from brace to brace, with one
  more block open behind each `\x7b` and one less behind each `\x7d`
  (`exists_takesBrace_of_text`).
-/
import Highlighting.Proofs.Scan.Brackets
import Highlighting.Proofs.Scan.Signs

namespace Highlighting

open Search

/-! ### Grammars with blocks -/

/-- What braces mean in a block. -/
def blockSigns (block : Nat) : Signs := [('\x7b', .opens block), ('\x7d', .closes 0)]

/-- Blocks between braces, in a section that ends with the outermost of them. -/
structure Grammar.HasBlocks (g : Grammar) (marks : List Char) (words : List (List Char))
    (outer top block : Nat) : Prop where
  signs : ∀ m, m = top ∨ m = block → g.HasSigns marks words (blockSigns block) m
  endsParent_block : (g.mode block).endsParent = false
  endsParent_top : (g.mode top).endsParent = true
  endsParent_outer : (g.mode outer).endsParent = false
  excludesEnd_top : (g.mode top).excludesEnd = false

namespace Scan

variable {g : Grammar} {marks : List Char} {words : List (List Char)} {sec top block : Nat}
  {w : Source} {options : Options} {a b p q m n : Nat} {outer : List Nat} {ch : Char}

def isBrace (c : Char) : Bool := c == '\x7b' || c == '\x7d'

/-- What a brace means in a block. -/
def braceCandidate (block : Nat) (ch : Char) : Candidate :=
  if ch = '\x7b' then .opens block else .closes 0

theorem mem_blockSigns (block : Nat) (h : isBrace ch = true) :
    (ch, braceCandidate block ch) ∈ blockSigns block := by
  rw [isBrace, Bool.or_eq_true, beq_iff_eq, beq_iff_eq] at h
  rcases h with rfl | rfl
  · exact List.mem_cons_self
  · exact List.mem_cons_of_mem _ List.mem_cons_self

theorem isBrace_of_mem {s : Char × Candidate} (h : s ∈ blockSigns block) :
    isBrace s.1 = true := by
  rcases List.mem_cons.mp h with rfl | h
  · rfl
  · rw [List.mem_singleton.mp h]
    rfl

/-- How many blocks are open behind the text. -/
def depth (cs : List Char) : Nat := cs.count '\x7b' - cs.count '\x7d'

/-- Every brace that closes has one that opens in front of it, and the other way around. -/
structure Balanced (cs : List Char) : Prop where
  ahead : ∀ p, p <+: cs → p.count '\x7d' ≤ p.count '\x7b'
  closed : cs.count '\x7b' = cs.count '\x7d'

theorem Balanced.depth_eq_zero {cs : List Char} (h : Balanced cs) : depth cs = 0 := by
  rw [depth, h.closed, Nat.sub_self]

/-- The modes of the regions that are open in a block of that depth. -/
def blockModes (sec top block : Nat) (k : Nat) : List Nat := List.replicate k block ++ [top, sec]

/-- The text of a block from a position on. -/
structure BlockText (marks : List Char) (words : List (List Char)) (w : Source) (a : Nat)
    (cs : List Char) : Prop where
  plain : PlainText marks words w a (a + cs.length)
  chars : ∀ i < cs.length, w[a + i]? = cs[i]?
  balanced : Balanced cs

/-- Between what leads into a block and what is behind, the text of the block is as it is
written. -/
theorem blockText_ofString (front b rest : String) (hb : Balanced b.toList)
    (hmarks : ∀ c ∈ b.toList, c ∉ marks) (hwords : ∀ v ∈ words, ¬ v <:+: b.toList) :
    BlockText marks words (Source.ofString (front ++ b ++ rest)) front.toList.length b.toList := by
  have hget : ∀ i, (Source.ofString (front ++ b ++ rest))[front.toList.length + i]? =
      (b.toList ++ rest.toList)[i]? := by
    intro i
    rw [← Array.getElem?_toList, Source.ofString, String.toList_append, String.toList_append,
      List.append_assoc, List.getElem?_append_right (Nat.le_add_right _ _),
      Nat.add_sub_cancel_left]
  refine ⟨⟨fun q hq hlt c hc hqc => ?_, fun p e hp he hmem => ?_⟩, fun i hi => ?_, hb⟩
  · obtain ⟨i, rfl⟩ := Nat.exists_eq_add_of_le hq
    rw [hget, List.getElem?_append_left (by omega)] at hqc
    exact hmarks c (List.mem_of_getElem? hqc) hc
  · refine hwords _ hmem ?_
    -- the stretch is one of the text of the block
    rw [Source.chars, Array.toList_extract, Source.ofString, String.toList_append,
      String.toList_append, List.append_assoc, List.extract_eq_take_drop]
    obtain ⟨k, rfl⟩ := Nat.exists_eq_add_of_le hp
    show List.take (e - (front.toList.length + k)) _ <:+: b.toList
    rw [List.drop_length_add_append]
    rcases Nat.le_total k b.toList.length with hk | hk
    · rw [List.drop_append_of_le_length hk, List.take_append_of_le_length (by
        rw [List.length_drop]
        omega)]
      exact (List.take_prefix _ _).isInfix.trans (List.drop_suffix _ _).isInfix
    · rw [Nat.sub_eq_zero_of_le (by omega), List.take_zero]
      exact List.nil_infix
  · rw [hget, List.getElem?_append_left hi]

section Walk

variable {cs : List Char} {i k : Nat} {c d : Core} {f : Found}

/-- The scan has come so far into the text of the block, with no brace left in front of that. -/
structure ComesTo (task : Task) (n : Nat) (c : Core) (a i : Nat) (modes : List Nat) (d : Core) :
    Prop where
  advances : AdvancesTo task n c d
  le : a ≤ d.pos
  pos_le : d.pos ≤ a + i
  quiet : ∀ j, d.pos ≤ j → j < a + i → (task.source[j]?).any Scan.isBrace = false
  modes : d.modes = modes

/-- The scan takes the brace next, with regions of these modes open in front of it and behind. -/
structure TakesBrace (task : Task) (n : Nat) (c : Core) (block q : Nat) (ch : Char)
    (before after : List Nat) (d : Core) (f : Found) : Prop where
  advances : AdvancesTo task n c d
  pos_le : d.pos ≤ q
  next : d.next? task = some f
  span : f.span = ⟨q, q + 1⟩
  candidate : f.candidate = braceCandidate block ch
  before : d.modes = before
  after : (d.take task f).modes = after

theorem onward_of_brace {modes : List Nat} (h : f.candidate = braceCandidate block ch) :
    f.IsOnward modes := by
  refine Found.isOnward_of_ne ?_
  rw [h, braceCandidate]
  split <;> exact nofun

theorem TakesBrace.onward {before after : List Nat}
    (h : TakesBrace (task g w options) n c block q ch before after d f) : f.IsOnward d.modes :=
  onward_of_brace h.candidate

theorem TakesBrace.pos_take {before after : List Nat} (hsound : (task g w options).IsSound)
    (h : TakesBrace (task g w options) n c block q ch before after d f) :
    (d.take (task g w options) f).pos = q + 1 := by
  have hafter : (d.place.after (task g w options) f).pos = f.span.stop :=
    Place.pos_after hsound h.next
  rw [← Core.place_take h.onward, h.span] at hafter
  exact hafter

/-- Nothing waits in the buffer behind the outermost block. -/
theorem TakesBrace.bufferStart_take {before after : List Nat}
    (hg : g.HasBlocks marks words sec top block) (hbefore : before = top :: outer)
    (h : TakesBrace (task g w options) n c block q '\x7d' before after d f) :
    (d.take (task g w options) f).draft.bufferStart = q + 1 := by
  have hf : f.candidate = .closes 0 := h.candidate
  have hedge : State.closingEdge g d.modes f.span = q + 1 := by
    rw [h.before, hbefore, h.span, State.closingEdge, hg.excludesEnd_top]
    rfl
  rw [Core.take, hf]
  show (d.draft.closeRegions w _ (State.closingEdge g d.modes f.span) _).bufferStart = q + 1
  rw [Draft.bufferStart_closeRegions, hedge]

theorem depth_take_succ (hcs : Balanced cs) (hi : cs[i]? = some ch) :
    (ch = '\x7b' → depth (cs.take (i + 1)) = depth (cs.take i) + 1) ∧
      (ch = '\x7d' → depth (cs.take i) = depth (cs.take (i + 1)) + 1) ∧
      (Scan.isBrace ch = false → depth (cs.take (i + 1)) = depth (cs.take i)) := by
  have hhere := hcs.ahead _ (List.take_prefix i cs)
  have hnext := hcs.ahead _ (List.take_prefix (i + 1) cs)
  rw [List.take_add_one, hi, Option.toList_some, List.count_append, List.count_append] at hnext
  simp only [depth, List.take_add_one, hi, Option.toList_some, List.count_append,
    List.count_singleton] at hnext ⊢
  refine ⟨?_, ?_, fun hne => ?_⟩
  · rintro rfl
    simp at hnext ⊢
    omega
  · rintro rfl
    simp at hnext ⊢
    omega
  · rw [Scan.isBrace, Bool.or_eq_false_iff] at hne
    simp [hne.1, hne.2]

/-- A block opens at the brace. -/
theorem modes_take_opens (hg : g.HasBlocks marks words sec top block)
    (hf : f.candidate = braceCandidate block '\x7b')
    (hmodes : c.modes = blockModes sec top block k) :
    (c.take (task g w options) f).modes = blockModes sec top block (k + 1) := by
  have hf' : f.candidate = .opens block := hf
  obtain ⟨-, t, hending, -⟩ := (hg.signs block (.inr rfl)).closes '\x7d' 0
    (List.mem_cons_of_mem _ List.mem_cons_self)
  have hopen : ¬ (g.mode block).ending = .immediate := by
    rw [hending]
    exact nofun
  have hafter : c.place.after (task g w options) f = ⟨f.span.stop, block :: c.modes⟩ := by
    rw [Place.after, hf']
    exact congrArg (Place.mk f.span.stop) (if_neg hopen)
  have hplace := (Core.place_take (onward_of_brace hf)).trans hafter
  rw [show (c.take (task g w options) f).modes = block :: c.modes from congrArg Place.modes hplace,
    hmodes]
  rfl

/-- A region closes at the brace, the outermost block together with the section. -/
theorem modes_take_closes (hg : g.HasBlocks marks words sec top block)
    (hf : f.candidate = braceCandidate block '\x7d')
    (hmodes : c.modes = blockModes sec top block k) :
    (c.take (task g w options) f).modes =
      if k = 0 then [] else blockModes sec top block (k - 1) := by
  have hf' : f.candidate = .closes 0 := hf
  have hafter : c.place.after (task g w options) f =
      ⟨f.span.stop, c.modes.drop (State.closedBy g c.modes 0)⟩ := by
    rw [Place.after, hf']
    rfl
  have hplace := (Core.place_take (onward_of_brace hf)).trans hafter
  rw [show (c.take (task g w options) f).modes = _ from congrArg Place.modes hplace, hmodes]
  cases k with
  | zero => simp [blockModes, State.closedBy, State.closedWith, hg.endsParent_top,
      hg.endsParent_outer]
  | succ k => simp [blockModes, List.replicate_succ, State.closedBy, State.closedWith,
      hg.endsParent_block]

theorem exists_cons_blockModes (sec top block k : Nat) :
    ∃ m outer, (m = top ∨ m = block) ∧ blockModes sec top block k = m :: outer := by
  cases k with
  | zero => exact ⟨top, [sec], .inl rfl, rfl⟩
  | succ k => exact ⟨block, blockModes sec top block k, .inr rfl, rfl⟩

/-- **The scan comes to the brace that is next and takes it.** -/
theorem ComesTo.exists_takesBrace (hsound : (task g w options).IsSound)
    (hg : g.HasBlocks marks words sec top block) (hplain : PlainText marks words w a b)
    (h : ComesTo (task g w options) n c a i (blockModes sec top block k) d)
    (hbarred : c.barred = [])
    (hb : a + i ≤ b) (hn : a + i < n) (hch : w[a + i]? = some ch)
    (hbrace : Scan.isBrace ch = true) :
    ∃ e f, TakesBrace (task g w options) n c block (a + i) ch (blockModes sec top block k)
      (if ch = '\x7b' then blockModes sec top block (k + 1)
        else if k = 0 then [] else blockModes sec top block (k - 1)) e f := by
  obtain ⟨m, outer, hm, hcons⟩ := exists_cons_blockModes sec top block k
  have hnone : ∀ j, d.pos ≤ j → j < a + i → ∀ s ∈ blockSigns block, w[j]? ≠ some s.1 := by
    intro j hj hlt s hs hw
    have hquiet := h.quiet j hj hlt
    rw [show (task g w options).source[j]? = some s.1 from hw, Option.any_some,
      isBrace_of_mem hs] at hquiet
    cases hquiet
  obtain ⟨e, he, hle, hsame, hnext⟩ := exists_at_sign (hg.signs m hm) hsound
    (h.modes.trans hcons) (h.advances.barred.trans hbarred) h.pos_le (hplain.mono h.le hb) hnone
    (mem_blockSigns block hbrace) hch hn
  have hmodes : e.modes = blockModes sec top block k := hsame.trans h.modes
  refine ⟨e, _, h.advances.trans he, hle, hnext, rfl, rfl, hmodes, ?_⟩
  rw [Scan.isBrace, Bool.or_eq_true, beq_iff_eq, beq_iff_eq] at hbrace
  rcases hbrace with rfl | rfl
  · exact modes_take_opens hg rfl hmodes
  · exact modes_take_closes hg rfl hmodes

variable (hsound : (task g w options).IsSound) (hg : g.HasBlocks marks words sec top block)
  (htext : BlockText marks words w a cs) (hstart : c.pos = a)
  (hmodes : c.modes = blockModes sec top block 0) (hbarred : c.barred = [])
  (hn : a + cs.length < n)
include hsound hg htext hbarred hn

/-- At a brace of the text, as many blocks are open behind it as the text says. -/
theorem ComesTo.exists_takes_in_text (hi : i < cs.length) (hch : cs[i]? = some ch)
    (hbrace : Scan.isBrace ch = true)
    (h : ComesTo (task g w options) n c a i (blockModes sec top block (depth (cs.take i))) d) :
    ∃ e f, TakesBrace (task g w options) n c block (a + i) ch
      (blockModes sec top block (depth (cs.take i)))
      (blockModes sec top block (depth (cs.take (i + 1)))) e f := by
  obtain ⟨hopens, hcloses, -⟩ := depth_take_succ htext.balanced hch
  obtain ⟨e, f, htakes⟩ := h.exists_takesBrace hsound hg htext.plain hbarred (by omega) (by omega)
    ((htext.chars i hi).trans hch) hbrace
  refine ⟨e, f, ?_⟩
  rw [Scan.isBrace, Bool.or_eq_true, beq_iff_eq, beq_iff_eq] at hbrace
  rcases hbrace with rfl | rfl
  · rw [hopens rfl]
    exact htakes
  · have hdepth := hcloses rfl
    rw [if_neg (by decide), if_neg (by omega), hdepth, Nat.add_sub_cancel] at htakes
    rw [hdepth]
    exact htakes

include hstart hmodes

/-- **The scan comes to every place of the text**, with as many blocks open as the text in front of
it says. -/
theorem exists_comesTo (hi : i ≤ cs.length) :
    ∃ d, ComesTo (task g w options) n c a i (blockModes sec top block (depth (cs.take i))) d := by
  induction i with
  | zero => exact ⟨c, .refl, Nat.le_of_eq hstart.symm, by omega, by omega, hmodes⟩
  | succ i ih =>
    obtain ⟨d, hd⟩ := ih (by omega)
    have hlt : i < cs.length := hi
    have hch : cs[i]? = some cs[i] := List.getElem?_eq_getElem hlt
    cases hbrace : Scan.isBrace cs[i] with
    | false =>
      refine ⟨d, hd.advances, hd.le, Nat.le_succ_of_le hd.pos_le, fun j hj hlt' => ?_, ?_⟩
      · rcases Nat.lt_or_eq_of_le (Nat.le_of_lt_succ hlt') with hlt' | rfl
        · exact hd.quiet j hj hlt'
        · show (w[a + i]?).any Scan.isBrace = false
          rw [htext.chars i hlt, hch]
          exact hbrace
      · rw [(depth_take_succ htext.balanced hch).2.2 hbrace]
        exact hd.modes
    | true =>
      obtain ⟨e, f, he⟩ :=
        hd.exists_takes_in_text hsound hg htext hbarred hn hlt hch hbrace
      have hpos := he.pos_take hsound
      obtain ⟨m, outer, -, hcons⟩ :=
        exists_cons_blockModes sec top block (depth (cs.take (i + 1)))
      refine ⟨_, he.advances.tail ⟨⟨f, he.next, he.onward, ?_, rfl⟩, fun hnil => ?_⟩, ?_, ?_, ?_,
        he.after⟩
      · rw [he.span]
        show a + i < n
        omega
      · have hafter := he.after
        rw [Core.modes, hnil, hcons] at hafter
        cases hafter
      · omega
      · omega
      · omega

/-- **Every brace of the text is taken**, and as many blocks are open behind it as the text says. -/
theorem exists_takesBrace_of_text (hi : i < cs.length) (hch : cs[i]? = some ch)
    (hbrace : Scan.isBrace ch = true) :
    ∃ d f, TakesBrace (task g w options) n c block (a + i) ch
      (blockModes sec top block (depth (cs.take i)))
      (blockModes sec top block (depth (cs.take (i + 1)))) d f := by
  obtain ⟨d, hd⟩ := exists_comesTo hsound hg htext hstart hmodes hbarred hn (Nat.le_of_lt hi)
  exact hd.exists_takes_in_text hsound hg htext hbarred hn hi hch hbrace

/-- **The brace behind the text closes the section.** -/
theorem exists_takesBrace_behind (hclose : w[a + cs.length]? = some '\x7d') :
    ∃ d f, TakesBrace (task g w options) n c block (a + cs.length) '\x7d'
      (blockModes sec top block 0) [] d f := by
  obtain ⟨d, hd⟩ := exists_comesTo hsound hg htext hstart hmodes hbarred hn (Nat.le_refl _)
  rw [List.take_length, htext.balanced.depth_eq_zero] at hd
  obtain ⟨e, f, htakes⟩ := hd.exists_takesBrace hsound hg htext.plain hbarred (Nat.le_refl _) hn
    hclose rfl
  exact ⟨e, f, htakes⟩

end Walk

end Scan

end Highlighting
