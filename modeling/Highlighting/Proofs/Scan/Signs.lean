/-
  Highlighting/Proofs/Scan/Signs.lean
  ===================================
  **Signs**: single characters that open a region, or end the one at hand.

  In plain text (`PlainText`), inside a region of some modes nothing counts but a
  few signs, and what is taken as a whole (`Grammar.HasSigns`).  So the scan comes
  to the next sign, whatever is in front of it, and then takes that
  (`exists_at_sign`).
-/
import Highlighting.Proofs.Grammar.Lines
import Highlighting.Proofs.Pattern.Words
import Highlighting.Proofs.Scan.Clear
import Highlighting.Proofs.Scan.Numbers

namespace Highlighting

open Search

/-! ### Modes with signs -/

/-- Every match has one of the characters, or is one of the words. -/
def Pattern.isMarked (marks : List Char) (words : List (List Char)) (p : Pattern) : Bool :=
  p.needs marks || p.spells words

/-- No match of the opening takes one of the characters, and in plain text the mode is only taken
as a whole. -/
structure Grammar.Interrupts (g : Grammar) (marks : List Char) (words : List (List Char))
    (spared : List Char) (m : Nat) : Prop where
  spares : ∀ c ∈ spared, g.Passes (Pattern.spares c) (g.mode m).opener
  plain : (g.mode m).ending = .immediate ∨ g.Passes (Pattern.isMarked marks words) (g.mode m).opener

/-- Characters with what they mean in a region. -/
abbrev Signs := List (Char × Scan.Candidate)

/-- What no match takes but that of a sign. -/
def Signs.spared (signs : Signs) : List Char := ' ' :: signs.map Prod.fst

/-- In plain text in a region of the mode, only the signs count besides what is taken as a whole. -/
structure Grammar.HasSigns (g : Grammar) (marks : List Char) (words : List (List Char))
    (signs : Signs) (m : Nat) : Prop where
  opens : ∀ c k, (c, Scan.Candidate.opens k) ∈ signs → k ∈ (g.mode m).content.contains ∧
    g.terminals[(g.mode k).opener]? = some ⟨.char c, false⟩
  closes : ∀ c depth, (c, Scan.Candidate.closes depth) ∈ signs → depth = 0 ∧
    ∃ t, (g.mode m).ending = .pattern t ∧ g.terminals[t]? = some ⟨.char c, true⟩
  others : ∀ k ∈ (g.mode m).content.contains, (∃ c, (c, Scan.Candidate.opens k) ∈ signs) ∨
    g.Interrupts marks words signs.spared k
  ends : ∃ c, (c, Scan.Candidate.closes 0) ∈ signs
  illegal : (g.mode m).content.illegal = none
  lawful : ∀ c, (c, Scan.Candidate.illegal) ∉ signs
  distinct : ∀ s ∈ signs, ∀ s' ∈ signs, s.1 = s'.1 → s = s'

namespace Scan

variable {g : Grammar} {marks : List Char} {words : List (List Char)} {signs : Signs}
  {w : Source} {options : Options} {a b p q m n r stop : Nat} {outer : List Nat} {ch : Char}
  {candidate : Candidate}

/-- None of the characters and none of the words is in the stretch. -/
structure PlainText (marks : List Char) (words : List (List Char)) (w : Source) (a b : Nat) :
    Prop where
  marks : ∀ q, a ≤ q → q < b → ∀ c ∈ marks, w[q]? ≠ some c
  words : ∀ p e, a ≤ p → e ≤ b → w.chars ⟨p, e⟩ ∉ words

theorem PlainText.mono (h : PlainText marks words w a b) {a' b' : Nat} (ha : a ≤ a')
    (hb : b' ≤ b) : PlainText marks words w a' b' :=
  ⟨fun q hq hlt => h.marks q (Nat.le_trans ha hq) (Nat.lt_of_lt_of_le hlt hb),
    fun p e hp he => h.words p e (Nat.le_trans ha hp) (Nat.le_trans he hb)⟩

/-- In front of a character that it spares, such a mode is taken as a whole. -/
theorem immediate_of_interrupts {spared : List Char} {t : Terminal} {k : Nat}
    (h : g.Interrupts marks words spared k) (ht : g.terminals[(g.mode k).opener]? = some t)
    (hplain : PlainText marks words w r q) (hle : r ≤ q) (hq : w[q]? = some ch)
    (hch : ch ∈ spared) (hend : endAt? (t.pattern.find w ·) r = some stop) :
    (g.mode k).ending = .immediate := by
  have hspares := h.spares ch hch t ht
  refine h.plain.resolve_right fun hmarked => ?_
  have hcheck := hmarked t ht
  rw [Pattern.isMarked, Bool.or_eq_true] at hcheck
  rcases hcheck with hneeds | hspells
  · obtain ⟨i, hri, hiq, c, hc, hi⟩ := Pattern.met_of_needs_of_spares hneeds hspares hq hle hend
    exact hplain.marks i hri hiq c hc hi
  · exact hplain.words r stop (Nat.le_refl r) (Pattern.le_of_spares hq hspares hle hend)
      (Pattern.chars_mem_of_spells hspells hend)

theorem endAt?_of_sign {index : Nat} {allowsEmpty : Bool}
    (ht : g.terminals[index]? = some ⟨.char ch, allowsEmpty⟩)
    (hend : admittedEnd? (task g w options) [] index r = some stop) :
    w[r]? = some ch ∧ stop = r + 1 := by
  obtain ⟨t, ht', hmatch, -⟩ := admittedEnd?_eq_some_iff.mp hend
  obtain rfl := Option.some.inj (ht.symm.trans ht')
  exact Pattern.endAt?_char.mp hmatch

section Signs

variable (h : g.HasSigns marks words signs m)
include h

/-- **A match is that of a sign, or does not get over a character that is spared.** -/
theorem sign_or_interrupts (hsound : (task g w options).IsSound) {d : Nat × Candidate}
    (hd : d ∈ candidates (task g w options) (m :: outer))
    (hend : admittedEnd? (task g w options) [] d.1 r = some stop) :
    (∃ c, (c, d.2) ∈ signs ∧ w[r]? = some c ∧ stop = r + 1) ∨
      ∃ k t, d.2 = .opens k ∧ g.Interrupts marks words signs.spared k ∧
        g.terminals[(g.mode k).opener]? = some t ∧
        endAt? (t.pattern.find w ·) r = some stop ∧ r < stop := by
  obtain ⟨index, candidate⟩ := d
  cases candidate with
  | opens k =>
    obtain ⟨hk, rfl⟩ := mem_candidates_opens.mp hd
    rcases h.others k hk with ⟨c, hc⟩ | hinterrupts
    · exact .inl ⟨c, hc, endAt?_of_sign (h.opens c k hc).2 hend⟩
    · have hk' := (contentOf_inOrder hsound.inOrder (m :: outer)).contains k hk
      have hlt := (admitted_of_admittedEnd? hsound hend).start_lt (hsound.inOrder.mode hk').opener
      obtain ⟨t, ht, hmatch, -⟩ := admittedEnd?_eq_some_iff.mp hend
      exact .inr ⟨k, t, rfl, hinterrupts, ht, hmatch, hlt⟩
  | closes depth =>
    obtain ⟨c, hc⟩ := h.ends
    obtain ⟨-, t, hending, hterminal⟩ := h.closes c 0 hc
    have hclose : closer? g (m :: outer) 0 = some (t, 0) := by rw [closer?, hending]
    obtain ⟨rfl, rfl⟩ : t = index ∧ 0 = depth := by
      have heq := hclose.symm.trans (mem_candidates_closes.mp hd)
      rw [Option.some.injEq, Prod.mk.injEq] at heq
      exact heq
    exact .inl ⟨c, hc, endAt?_of_sign hterminal hend⟩
  | illegal =>
    have hillegal : (g.mode m).content.illegal = some index := (mem_candidates_illegal.mp hd).2
    rw [h.illegal] at hillegal
    cases hillegal

/-- The sign at hand counts. -/
theorem exists_candidate (outer : List Nat) (hsign : (ch, candidate) ∈ signs)
    (hq : w[q]? = some ch) :
    ∃ index, (index, candidate) ∈ candidates (task g w options) (m :: outer) ∧
      admittedEnd? (task g w options) [] index q = some (q + 1) := by
  have hcounts : ∀ {index : Nat} {allowsEmpty : Bool},
      g.terminals[index]? = some ⟨.char ch, allowsEmpty⟩ →
        admittedEnd? (task g w options) [] index q = some (q + 1) := by
    intro index allowsEmpty ht
    refine admittedEnd?_eq_some_iff.mpr ⟨_, ht, Pattern.endAt?_char.mpr ⟨hq, rfl⟩, ?_⟩
    simp [admits, Span.isEmpty]
  cases candidate with
  | opens k =>
    obtain ⟨hk, hterminal⟩ := h.opens ch k hsign
    exact ⟨_, mem_candidates_opens.mpr ⟨hk, rfl⟩, hcounts hterminal⟩
  | closes depth =>
    obtain ⟨rfl, t, hending, hterminal⟩ := h.closes ch depth hsign
    have hclose : closer? g (m :: outer) 0 = some (t, 0) := by rw [closer?, hending]
    exact ⟨t, mem_candidates_closes.mpr hclose, hcounts hterminal⟩
  | illegal => exact absurd hsign (h.lawful ch)

/-- Nothing else starts where a sign is. -/
theorem next?_at_sign (hsound : (task g w options).IsSound) (outer : List Nat)
    (hsign : (ch, candidate) ∈ signs) (hq : w[q]? = some ch) :
    Place.next? (task g w options) [] ⟨q, m :: outer⟩ = some ⟨⟨q, q + 1⟩, candidate⟩ := by
  obtain ⟨index, hmem, hend⟩ : ∃ index, (index, candidate) ∈
      candidates (task g w options) (m :: outer) ∧
        admittedEnd? (task g w options) [] index q = some (q + 1) :=
    exists_candidate h outer hsign hq
  refine next?_of_only hsound hmem hend fun e he stop hstop => ?_
  rcases sign_or_interrupts h hsound he hstop with
    ⟨c, hc, hw, rfl⟩ | ⟨k, t, -, hinterrupts, ht, hmatch, hlt⟩
  · obtain rfl := Option.some.inj (hw.symm.trans hq)
    have hsame : (c, e.2) = (c, candidate) := h.distinct _ hc _ hsign rfl
    exact ⟨(Prod.mk.inj hsame).2, rfl⟩
  · have hspared : ch ∈ signs.spared := List.mem_cons_of_mem _ (List.mem_map_of_mem hsign)
    have hle := Pattern.le_of_spares hq (hinterrupts.spares ch hspared t ht) (Nat.le_refl q) hmatch
    omega

/-- Nothing starts at a character that is spared and is no sign. -/
theorem quiet_of_spared (hsound : (task g w options).IsSound) (outer : List Nat)
    (hq : w[q]? = some ch) (hch : ch ∈ signs.spared) (hne : ∀ s ∈ signs, s.1 ≠ ch) :
    Quiet (task g w options) [] (m :: outer) q (q + 1) := by
  intro d hd r hqr hr
  obtain rfl : q = r := by omega
  cases hend : admittedEnd? (task g w options) [] d.1 q with
  | none => rfl
  | some stop =>
    rcases sign_or_interrupts h hsound hd hend with
      ⟨c, hc, hw, -⟩ | ⟨k, t, -, hinterrupts, ht, hmatch, hlt⟩
    · exact absurd (Option.some.inj (hw.symm.trans hq)) (hne _ hc)
    · have hle := Pattern.le_of_spares hq (hinterrupts.spares ch hch t ht) (Nat.le_refl q) hmatch
      omega

/-- **Plain text without signs is passed** up to a character that is spared. -/
theorem passable_of_plain (hsound : (task g w options).IsSound) (outer : List Nat)
    (hplain : PlainText marks words w a q)
    (hnone : ∀ i, a ≤ i → i < q → ∀ s ∈ signs, w[i]? ≠ some s.1) (hq : w[q]? = some ch)
    (hch : ch ∈ signs.spared) : Passable (task g w options) (m :: outer) a q := by
  intro d hd r stop hr hlt hend
  rcases sign_or_interrupts h hsound hd hend with
    ⟨c, hc, hw, -⟩ | ⟨k, t, hk, hinterrupts, ht, hmatch, -⟩
  · exact absurd hw (hnone r hr hlt _ hc)
  · exact ⟨k, hk, immediate_of_interrupts hinterrupts ht (hplain.mono hr (Nat.le_refl q))
      (Nat.le_of_lt hlt) hq hch hmatch,
      Pattern.le_of_spares hq (hinterrupts.spares ch hch t ht) (Nat.le_of_lt hlt) hmatch⟩

/-- **The scan comes to the next sign.** -/
theorem exists_at_sign (hsound : (task g w options).IsSound) {c : Core}
    (hmodes : c.modes = m :: outer) (hbarred : c.barred = []) (hle : c.pos ≤ q)
    (hplain : PlainText marks words w c.pos q)
    (hnone : ∀ i, c.pos ≤ i → i < q → ∀ s ∈ signs, w[i]? ≠ some s.1)
    (hsign : (ch, candidate) ∈ signs) (hq : w[q]? = some ch) (hn : q < n) :
    ∃ d, AdvancesTo (task g w options) n c d ∧ d.pos ≤ q ∧ d.modes = c.modes ∧
      d.next? (task g w options) = some ⟨⟨q, q + 1⟩, candidate⟩ := by
  have hspared : ch ∈ signs.spared := List.mem_cons_of_mem _ (List.mem_map_of_mem hsign)
  refine exists_advances_to hsound ?_ hbarred (by rw [hmodes]; exact nofun) hle ?_ rfl hn
  · rw [hmodes]
    exact passable_of_plain h hsound outer hplain hnone hq hspared
  · rw [hmodes]
    exact next?_at_sign h hsound outer hsign hq

end Signs

end Scan

end Highlighting
