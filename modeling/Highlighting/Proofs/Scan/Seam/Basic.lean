/-
  Highlighting/Proofs/Scan/Seam/Basic.lean
  ========================================
  **A text in two parts**, and the scans of both and of the whole.

  What patterns match behind the seam they match in the rest alone
  (`Seam.behind`): nothing there looks at the text in front.  And what a scan
  takes in front of the seam it takes as in the front part alone
  (`Seam.take_front`).

  So the scan of the whole text is that of the one part and then of the other,
  when it comes to the seam with no region open (`Seam.Arrives`).
-/
import Highlighting.Proofs.Grammar.Lines
import Highlighting.Proofs.Scan.Replay

namespace Highlighting.Scan

open Search

/-- A text in two parts, for a grammar whose patterns match behind the seam what they match in the
rest. -/
structure Seam where
  grammar : Grammar
  options : Options
  front : Source
  rest : Source
  sound : ∀ source, (task grammar source options).IsSound
  behind : ∀ t ∈ grammar.terminals, ∀ p,
    endAt? (t.pattern.find (front ++ rest) ·) (front.size + p) =
      (endAt? (t.pattern.find rest ·) p).map (front.size + ·)

namespace Seam

variable {s : Seam} {barred : List Bar} {index p : Nat}

/-- Where the parts meet. -/
def size (s : Seam) : Nat := s.front.size

def frontTask (s : Seam) : Task := task s.grammar s.front s.options

def restTask (s : Seam) : Task := task s.grammar s.rest s.options

def wholeTask (s : Seam) : Task := task s.grammar (s.front ++ s.rest) s.options

theorem frontSound (s : Seam) : s.frontTask.IsSound := s.sound s.front

theorem restSound (s : Seam) : s.restTask.IsSound := s.sound s.rest

theorem wholeSound (s : Seam) : s.wholeTask.IsSound := s.sound (s.front ++ s.rest)

theorem inOrder (s : Seam) : s.grammar.InOrder := s.frontSound.inOrder

/-- A pattern that takes the character at the seam only as the last one matches in front of the
seam what it matches in the front part. -/
theorem admittedEnd?_append {ch : Char} (hend : s.front.EndsWith ch) (hp : p < s.size)
    (h : s.grammar.Passes (Pattern.stopsAt ch) index) :
    admittedEnd? s.wholeTask barred index p = admittedEnd? s.frontTask barred index p := by
  apply Option.ext
  intro stop
  rw [admittedEnd?_eq_some_iff, admittedEnd?_eq_some_iff]
  refine exists_congr fun t => and_congr_right fun ht => ?_
  have hends : endAt? (t.pattern.find (s.front ++ s.rest) ·) p =
      endAt? (t.pattern.find s.front ·) p :=
    Pattern.endAt?_append hend (h t ht) hp
  show endAt? (t.pattern.find (s.front ++ s.rest) ·) p = some stop ∧ _ ↔
    endAt? (t.pattern.find s.front ·) p = some stop ∧ _
  rw [hends]

end Seam

/-! ### Drafts in front of the seam -/

namespace Draft

variable {u v : Source} {keywords : Option KeywordTable} {span : Span} {stop : Nat}

theorem addLexemes_congr {source source' : Source} {table : KeywordTable} {base : Nat}
    {ls : List Span}
    (h : ∀ l ∈ ls, source.chars ⟨base + l.start, base + l.stop⟩ =
      source'.chars ⟨base + l.start, base + l.stop⟩) (last : Nat) (d : Draft) :
    addLexemes source table base ls last d = addLexemes source' table base ls last d := by
  induction ls generalizing last d with
  | nil => rfl
  | cons l ls ih =>
    have hrest := ih fun l hl => h l (List.mem_cons_of_mem _ hl)
    simp only [addLexemes, h l List.mem_cons_self, hrest]

/-- A stretch in front of the seam is recorded as without the text behind. -/
theorem classify_append (h : span.stop ≤ u.size) (d : Draft) :
    classify (u ++ v) keywords span d = classify u keywords span d := by
  cases keywords with
  | none => rfl
  | some table =>
    simp only [classify]
    split
    · rfl
    · next hempty =>
      have hlt : span.start < span.stop := by simpa [Span.isEmpty] using hempty
      have hlexemes : ∀ l ∈ table.lexeme.findAll (u.extract span.start span.stop),
          Source.chars (u ++ v) ⟨span.start + l.start, span.start + l.stop⟩ =
            u.chars ⟨span.start + l.start, span.start + l.stop⟩ := by
        intro l hl
        have hstop := (table.lexeme.ascending_findAll _).stop_le hl
        rw [Array.size_extract] at hstop
        exact Source.chars_append (by omega)
      simp only [Source.extract_append h, addLexemes_congr hlexemes]

theorem flush_append (h : stop ≤ u.size) (d : Draft) :
    flush (u ++ v) keywords stop d = flush u keywords stop d :=
  classify_append h _

theorem addWhole_append {m : Mode} (hle : span.start ≤ span.stop) (h : span.stop ≤ u.size)
    (d : Draft) :
    addWhole (u ++ v) keywords m span d = addWhole u keywords m span d := by
  simp only [addWhole, flush_append h, flush_append (Nat.le_trans hle h), classify_append h]

end Draft

namespace Seam

variable {s : Seam} {c : Core} {f : Found}

/-- **What is taken in front of the seam is taken as without the text behind.** -/
theorem take_front (hle : f.span.start ≤ f.span.stop) (h : f.span.stop ≤ s.size)
    (hillegal : f.candidate = .illegal → f.span.start < f.span.stop) :
    c.take s.wholeTask f = c.take s.frontTask f := by
  have hstart : f.span.start ≤ s.front.size := Nat.le_trans hle h
  rw [Core.take, Core.take]
  cases hf : f.candidate with
  | opens k =>
    have hwhole : c.takeWhole s.wholeTask (s.grammar.mode k) f.span =
        c.takeWhole s.frontTask (s.grammar.mode k) f.span :=
      congrArg (fun draft => { c with draft, pos := f.span.stop })
        (Draft.addWhole_append hle h c.draft)
    have hedge : (if (s.grammar.mode k).excludesBegin then f.span.stop else f.span.start) ≤
        s.front.size := by
      split
      · exact h
      · exact hstart
    have hregion : c.openRegion s.wholeTask k f.span = c.openRegion s.frontTask k f.span :=
      congrArg (fun draft : Draft => { c with
        draft := draft.openScope (s.grammar.mode k).scope
        entries := ⟨k, (s.grammar.mode k).opener, f.span.start, c.draft.checkpoint⟩ :: c.entries
        pos := f.span.stop }) (Draft.flush_append hedge c.draft)
    by_cases hend : (s.grammar.mode k).ending = .immediate
    · exact (if_pos hend).trans (hwhole.trans (if_pos hend).symm)
    · exact (if_neg hend).trans (hregion.trans (if_neg hend).symm)
  | closes depth =>
    have hedge : State.closingEdge s.grammar c.modes f.span ≤ s.front.size := by
      unfold State.closingEdge
      split
      · exact h
      · split
        · exact hstart
        · exact h
    exact congrArg (fun draft : Draft => { c with
      draft := ((c.modes.take (State.closedBy s.grammar c.modes depth)).map
        s.grammar.mode).foldl Draft.closeRegion draft
      entries := c.entries.drop (State.closedBy s.grammar c.modes depth)
      pos := f.span.stop }) (Draft.flush_append hedge c.draft)
  | illegal =>
    cases hentries : c.entries with
    | nil =>
      have hpassed : ∀ source, Draft.passedAt source f.span = f.span.stop :=
        fun source => Draft.passedAt_of_lt (hillegal hf)
      simp only [Core.passOver, Draft.passOver, hpassed]
      exact congrArg (fun draft : Draft => { c with
        draft := { draft.addText ⟨f.span.start, f.span.stop⟩ with bufferStart := f.span.stop }
        pos := f.span.stop }) (Draft.flush_append hstart _)
    | cons e outer => rfl

end Seam

/-! ### Coming to the seam -/

/-- The core is where the scan of the front part ends, and where that of the whole text has no
region open and nothing left to take in front of the seam. -/
structure Seam.Arrives (s : Seam) (a : Core) : Prop where
  front : Runs s.frontTask (State.start s.grammar).core a
  front_end : a.next? s.frontTask = none
  whole : Runs s.wholeTask (State.start s.grammar).core a
  root : a.entries = []
  pos_le : a.pos ≤ s.size
  barred : ∀ b ∈ a.barred, b.2 < s.size
  quiet : Quiet s.wholeTask a.barred [] a.pos s.size

end Highlighting.Scan
