/-
  Highlighting/Proofs/Scan/Seam/Buffer.lean
  =========================================
  **The buffer may be flushed between words.**

  Where the lexeme cuts both parts of a text as it cuts the whole
  (`Source.Separates`), as at the end of a line, the text that waits in the
  buffer can be recorded at once or together with what follows: the nodes are
  the same (`Draft.flush_flush`).  For two texts that are recorded one after the
  other are one node.
-/
import Highlighting.Proofs.Regex.Lexemes
import Highlighting.Proofs.Scan.Alongside

namespace Highlighting

open EventLog (Forest)

variable {w : Source} {n stop : Nat}

/-- The position is right behind a line feed. -/
def Source.LineStart (w : Source) (n : Nat) : Prop := 0 < n ∧ w[n - 1]? = some '\n'

theorem Source.LineStart.endsWith (h : w.LineStart n) {a : Nat} (ha : a < n) :
    Source.EndsWith '\n' (w.extract a n) := by
  obtain ⟨hpos, hfeed⟩ := h
  have hlt := (Array.getElem?_eq_some_iff.mp hfeed).1
  rw [EndsWith, Array.getElem?_extract, Array.size_extract]
  have hindex : a + (min n w.size - a - 1) = n - 1 := by omega
  rw [if_pos (by omega), hindex]
  exact hfeed

/-- The lexeme of the table cuts what is in front of the position as without what is behind, and the
other way around. -/
def Source.Separates (w : Source) (keywords : Option KeywordTable) (n : Nat) : Prop :=
  ∀ table ∈ keywords, ∀ a stop, a < n → n < stop → stop ≤ w.size →
    table.lexeme.Parts (w.extract a n) (w.extract n stop)

theorem Source.LineStart.separates (h : w.LineStart n) {keywords : Option KeywordTable}
    (hlexeme : ∀ t ∈ keywords, t.lexeme.staysInLine = true) : w.Separates keywords n :=
  fun table htable _ _ ha _ _ => Matcher.parts_of_line (hlexeme table htable) (h.endsWith ha) _

namespace EventLog.Forest

theorem update_update (f : Forest) (g g' : List Node → List Node) :
    (f.update g).update g' = f.update fun ns => g' (g ns) := by
  obtain ⟨top, scopes⟩ := f
  cases scopes <;> rfl

end EventLog.Forest

namespace Scan.Draft

variable {d e : Draft} {keywords : Option KeywordTable} {table : KeywordTable}
  {a b c base last : Nat}
  {span : Span} {ls : List Span}

/-- The same nodes are recorded. -/
structure SameNodes (w : Source) (d e : Draft) : Prop where
  bufferStart : d.bufferStart = e.bufferStart
  forest : d.forest w = e.forest w
  illegal : d.illegal = e.illegal

theorem congruent_sameNodes (w : Source) : Congruent (SameNodes w) where
  bufferStart_eq h := h.bufferStart
  push ev h := ⟨h.bufferStart, by rw [forest_push, forest_push, h.forest], h.illegal⟩
  hit _ h := ⟨h.bufferStart, h.forest, h.illegal⟩
  setBuffer _ h := ⟨rfl, h.forest, h.illegal⟩
  addRelevance _ h := ⟨h.bufferStart, h.forest, h.illegal⟩

theorem SameNodes.refl (w : Source) (d : Draft) : SameNodes w d d := ⟨rfl, rfl, rfl⟩

theorem SameNodes.addText (h : SameNodes w d e) (span : Span) :
    SameNodes w (d.addText span) (e.addText span) := (congruent_sameNodes w).addText h

/-- A text may be recorded in two parts. -/
theorem addText_addText (w : Source) (d : Draft) (hab : a ≤ b) (hbc : b ≤ c) :
    SameNodes w (d.addText ⟨a, c⟩) ((d.addText ⟨a, b⟩).addText ⟨b, c⟩) := by
  refine ⟨rfl, ?_, rfl⟩
  rcases Nat.eq_or_lt_of_le hab with rfl | hab
  · rw [addText_eq_self d (show Span.stop ⟨a, a⟩ ≤ a from Nat.le_refl a)]
  · rcases Nat.eq_or_lt_of_le hbc with rfl | hbc
    · rw [addText_eq_self _ (show Span.stop ⟨b, b⟩ ≤ b from Nat.le_refl b)]
    · rw [forest_addText w d (Nat.lt_trans hab hbc), forest_addText w _ hbc,
        forest_addText w d hab, Forest.update_update]
      congr 1
      funext ns
      rw [Forest.joinText_joinText, w.slice_append (Nat.le_of_lt hab) (Nat.le_of_lt hbc)]

/-! ### Lexemes -/

theorem addLexemes_append (ls ls' : List Span) (last : Nat) (d : Draft) :
    addLexemes w table base (ls ++ ls') last d =
      addLexemes w table base ls' (addLexemes w table base ls last d).1
        (addLexemes w table base ls last d).2 := by
  induction ls generalizing last d with
  | nil => rfl
  | cons l ls ih =>
    rw [List.cons_append]
    simp only [addLexemes]
    split
    · exact ih last d
    · exact ih _ _

theorem addLexemes_shift (k : Nat) (ls : List Span) (last : Nat) (d : Draft) :
    addLexemes w table base (ls.map (Span.shift k)) last d =
      addLexemes w table (base + k) ls last d := by
  induction ls generalizing last d with
  | nil => rfl
  | cons l ls ih =>
    have hstart : base + (l.shift k).start = base + k + l.start := (Nat.add_assoc ..).symm
    have hstop : base + (l.shift k).stop = base + k + l.stop := (Nat.add_assoc ..).symm
    rw [List.map_cons]
    simp only [addLexemes, hstart, hstop, ih]

/-- The text in front of lexemes may be recorded ahead of them. -/
theorem addLexemes_addText (hlast : last ≤ n) (hstop : n ≤ stop)
    (hls : ∀ l ∈ ls, n ≤ base + l.start) (d : Draft) :
    let r := addLexemes w table base ls last d
    let r' := addLexemes w table base ls n (d.addText ⟨last, n⟩)
    SameNodes w (r.2.addText ⟨r.1, stop⟩) (r'.2.addText ⟨r'.1, stop⟩) := by
  have hcongruent := congruent_sameNodes w
  induction ls generalizing d with
  | nil => exact addText_addText w d hlast hstop
  | cons l ls ih =>
    simp only [addLexemes]
    split
    · exact ih (fun l hl => hls l (List.mem_cons_of_mem _ hl)) d
    · next c _ =>
      -- the first keyword has the text recorded, whichever way
      have htext := addText_addText w d hlast (hls l List.mem_cons_self)
      have hscope := (hcongruent.openScope (some c.scope) htext).addText
        ⟨base + l.start, base + l.stop⟩
      have hkeyword := hcongruent.hit (w.chars ⟨base + l.start, base + l.stop⟩)
        (hcongruent.closeScope (some c.scope) hscope)
      obtain ⟨hend, hrest⟩ := hcongruent.addLexemes w table base ls (base + l.stop) hkeyword
      have hfinal := hrest.addText
        ⟨(addLexemes w table base ls (base + l.stop) (d.addKeyword last
          ⟨base + l.start, base + l.stop⟩ c (w.chars ⟨base + l.start, base + l.stop⟩))).1, stop⟩
      have hend' : (addLexemes w table base ls (base + l.stop) (d.addKeyword last
          ⟨base + l.start, base + l.stop⟩ c (w.chars ⟨base + l.start, base + l.stop⟩))).1 =
          (addLexemes w table base ls (base + l.stop) ((d.addText ⟨last, n⟩).addKeyword n
            ⟨base + l.start, base + l.stop⟩ c (w.chars ⟨base + l.start, base + l.stop⟩))).1 := hend
      rw [← hend']
      exact hfinal

/-! ### Flushing between words -/

/-- **A stretch may be recorded in two parts.** -/
theorem classify_classify (hn : w.Separates keywords n) (ha : a ≤ n) (hstop : n ≤ stop)
    (hsize : stop ≤ w.size) (d : Draft) :
    SameNodes w (d.classify w keywords ⟨a, stop⟩)
      ((d.classify w keywords ⟨a, n⟩).classify w keywords ⟨n, stop⟩) := by
  rcases Nat.eq_or_lt_of_le ha with rfl | ha
  · rw [classify_eq_self w keywords d (show Span.stop ⟨a, a⟩ ≤ a from Nat.le_refl a)]
    exact .refl w _
  rcases Nat.eq_or_lt_of_le hstop with rfl | hstop
  · rw [classify_eq_self w keywords _ (show Span.stop ⟨n, n⟩ ≤ n from Nat.le_refl n)]
    exact .refl w _
  cases keywords with
  | none =>
    rw [classify_none, classify_none, classify_none]
    exact addText_addText w d (Nat.le_of_lt ha) (Nat.le_of_lt hstop)
  | some table =>
    rw [classify_table w table d (Nat.lt_trans ha hstop), classify_table w table d ha,
      classify_table w table _ hstop]
    have hextract : w.extract a stop = w.extract a n ++ w.extract n stop := by
      rw [Array.extract_append_extract, Nat.min_eq_left (Nat.le_of_lt ha),
        Nat.max_eq_right (Nat.le_of_lt hstop)]
    have hsizes : (w.extract a n).size = n - a := by
      rw [Array.size_extract]
      omega
    have hsum : a + (n - a) = n := Nat.add_sub_cancel' (Nat.le_of_lt ha)
    have hbound := (text_addLexemes w table a
      (table.lexeme.ascending_findAll (w.extract a n)) (Nat.zero_le _) (Nat.le_refl a) d).2.1
    rw [hextract, (hn table rfl a stop ha hstop hsize).findAll_append, hsizes]
    simp only [addLexemes_append, addLexemes_shift, hsum]
    rw [hsizes] at hbound
    exact addLexemes_addText (by omega) (Nat.le_of_lt hstop)
      (fun l _ => Nat.le_add_right n l.start) _

/-- Where the buffer starts does not matter for what is recorded. -/
theorem classify_setBuffer (k : Nat) (d : Draft) :
    ({ d with bufferStart := k } : Draft).classify w keywords span =
      { d.classify w keywords span with bufferStart := k } := by
  have hlexemes : ∀ table base ls last (d : Draft),
      addLexemes w table base ls last { d with bufferStart := k } =
        ((addLexemes w table base ls last d).1,
          { (addLexemes w table base ls last d).2 with bufferStart := k }) := by
    intro table base ls
    induction ls with
    | nil => exact fun _ _ => rfl
    | cons l ls ih =>
      intro last d
      simp only [addLexemes]
      split
      · exact ih last d
      · next c _ =>
        exact ih _ (d.addKeyword last ⟨base + l.start, base + l.stop⟩ c
          (w.chars ⟨base + l.start, base + l.stop⟩))
  simp only [classify]
  split
  · rfl
  · cases keywords with
    | none => rfl
    | some table =>
      simp only [hlexemes]
      rfl

/-- **The buffer may be flushed between words**, on the way to where it is flushed anyway. -/
theorem flush_flush (hn : w.Separates keywords n) (hd : d.bufferStart ≤ n) (hstop : n ≤ stop)
    (hsize : stop ≤ w.size) :
    SameNodes w (d.flush w keywords stop) ((d.flush w keywords n).flush w keywords stop) := by
  have hparts := classify_classify hn hd hstop hsize { d with bufferStart := stop }
  have hinner : ({ d.flush w keywords n with bufferStart := stop } : Draft) =
      ({ d with bufferStart := stop } : Draft).classify w keywords ⟨d.bufferStart, n⟩ := by
    rw [flush, classify_setBuffer n, classify_setBuffer stop]
  have houter : (d.flush w keywords n).flush w keywords stop =
      (({ d with bufferStart := stop } : Draft).classify w keywords ⟨d.bufferStart, n⟩).classify w
        keywords ⟨n, stop⟩ := by
    rw [← hinner, flush, bufferStart_flush]
  rw [houter]
  exact hparts

end Scan.Draft

end Highlighting
