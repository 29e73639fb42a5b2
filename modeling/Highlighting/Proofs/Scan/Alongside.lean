/-
  Highlighting/Proofs/Scan/Alongside.lean
  =======================================
  **A text that stands in a longer one** is recorded there as by itself.

  Two drafts go side by side, one for the part and one for the whole text, where
  the nodes of the second are those of the first on top of what was there before
  (`Draft.Alongside`).  They stay side by side when the same is recorded in both
  (`Core.Alongside.take`), and so to the end of a path
  (`Core.Alongside.takeAll`).

  What is asked of two scans is only that they flush alike: one that stands in
  front of the part has text of its own in the buffer, and records it then.
-/
import Highlighting.Proofs.Scan.Lossless
import Highlighting.Proofs.Scan.Path
import Highlighting.Proofs.Text.Source
import Highlighting.Proofs.Tree.Glue

namespace Highlighting

/-- The part stands in the whole text from a position on. -/
def Source.StandsAt (part : Source) (n : Nat) (whole : Source) : Prop :=
  ∀ p q, q ≤ part.size → whole.extract (n + p) (n + q) = part.extract p q

namespace Source.StandsAt

variable {part whole : Source} {n : Nat} {s : Span}

theorem chars_shift (h : part.StandsAt n whole) (hs : s.stop ≤ part.size) :
    whole.chars (s.shift n) = part.chars s := congrArg Array.toList (h s.start s.stop hs)

theorem slice_shift (h : part.StandsAt n whole) (hs : s.stop ≤ part.size) :
    whole.slice (s.shift n) = part.slice s := congrArg String.ofList (h.chars_shift hs)

end Source.StandsAt

namespace Scan

open EventLog (Forest)

def Found.shift (n : Nat) (f : Found) : Found := ⟨f.span.shift n, f.candidate⟩

/-! ### What is recorded, as nodes -/

namespace Draft

variable {d : Draft} {keywords : Option KeywordTable} {span : Span} {a b : Nat}

/-- The nodes of what is recorded so far. -/
def forest (source : Source) (d : Draft) : Forest :=
  d.events.foldl (Forest.step source) Forest.empty

theorem forest_push (source : Source) (d : Draft) (e : Event) :
    forest source { d with events := d.events.push e } = (d.forest source).step source e :=
  Array.foldl_push ..

theorem forest_openScope (source : Source) (d : Draft) (scope : Scope) :
    (d.openScope (some scope)).forest source =
      { d.forest source with scopes := (scope, []) :: (d.forest source).scopes } :=
  forest_push source d (.opened scope)

theorem forest_closeScope (source : Source) (d : Draft) (scope : Scope) :
    (d.closeScope (some scope)).forest source = (d.forest source).close :=
  forest_push source d .closed

theorem addText_eq_self (d : Draft) (h : span.stop ≤ span.start) : d.addText span = d := by
  have hempty : span.isEmpty = true := decide_eq_true h
  rw [addText, EventLog.addText, hempty]
  rfl

theorem forest_addText (w : Source) (d : Draft) (h : a < b) :
    (d.addText ⟨a, b⟩).forest w = (d.forest w).update (Forest.joinText (w.slice ⟨a, b⟩)) := by
  have hempty : Span.isEmpty ⟨a, b⟩ = false := decide_eq_false (Nat.not_le_of_lt h)
  have hpush : d.addText ⟨a, b⟩ = { d with events := d.events.push (.text ⟨a, b⟩) } := by
    rw [addText, EventLog.addText, hempty]
    rfl
  rw [hpush, forest_push]
  rfl

theorem classify_eq_self (w : Source) (keywords : Option KeywordTable) (d : Draft)
    (h : span.stop ≤ span.start) : d.classify w keywords span = d := by
  have hempty : span.isEmpty = true := decide_eq_true h
  simp only [classify, hempty, if_true]

theorem classify_none (w : Source) (span : Span) (d : Draft) :
    d.classify w none span = d.addText span := by
  simp only [classify]
  split
  · next hempty => exact (addText_eq_self d (of_decide_eq_true hempty)).symm
  · rfl

theorem classify_table (w : Source) (table : KeywordTable) (d : Draft) (h : a < b) :
    d.classify w (some table) ⟨a, b⟩ =
      let r := addLexemes w table a (table.lexeme.findAll (w.extract a b)) a d
      r.2.addText ⟨r.1, b⟩ := by
  have hempty : Span.isEmpty ⟨a, b⟩ = false := decide_eq_false (Nat.not_le_of_lt h)
  simp only [classify, hempty, Bool.false_eq_true, if_false]

end Draft

/-! ### Drafts side by side -/

/-- A part of a text, and what was recorded in front of it. -/
structure Placement where
  part : Source
  whole : Source
  start : Nat
  stands : part.StandsAt start whole
  top : List Node
  illegal : Bool

variable {l : Placement} {d e : Draft} {span : Span} {keywords : Option KeywordTable} {m : Mode}
  {stop : Nat}

/-- The second draft has recorded in the whole text what the first one has in the part, on top of
what was recorded in front of it. -/
structure Draft.Alongside (l : Placement) (d e : Draft) : Prop where
  bufferStart : e.bufferStart = l.start + d.bufferStart
  forest : e.forest l.whole = (d.forest l.part).onto l.top
  illegal : e.illegal = (l.illegal || d.illegal)

namespace Draft.Alongside

/-- What changes neither the log nor the buffer does not matter. -/
theorem of_eq {d' e' : Draft} (h : Alongside l d e)
    (hd : d'.events = d.events ∧ d'.bufferStart = d.bufferStart ∧ d'.illegal = d.illegal)
    (he : e'.events = e.events ∧ e'.bufferStart = e.bufferStart ∧ e'.illegal = e.illegal) :
    Alongside l d' e' := by
  constructor
  · rw [hd.2.1, he.2.1, h.bufferStart]
  · rw [Draft.forest, Draft.forest, hd.1, he.1]
    exact h.forest
  · rw [hd.2.2, he.2.2, h.illegal]

theorem push (h : Alongside l d e) {ev ev' : Event}
    (hev : ∀ f : Forest, f.step l.whole ev' = f.step l.part ev) :
    Alongside l { d with events := d.events.push ev } { e with events := e.events.push ev' } := by
  refine ⟨h.bufferStart, ?_, h.illegal⟩
  rw [Draft.forest_push, Draft.forest_push, h.forest, hev, Forest.step_onto]

theorem addText (h : Alongside l d e) (span : Span) (hspan : span.stop ≤ l.part.size) :
    Alongside l (d.addText span) (e.addText (span.shift l.start)) := by
  simp only [Draft.addText, EventLog.addText, Span.isEmpty_shift]
  split
  · exact h
  · refine h.push fun f => ?_
    rw [Forest.step, Forest.step, l.stands.slice_shift hspan]

theorem openScope (h : Alongside l d e) (scope : Option Scope) :
    Alongside l (d.openScope scope) (e.openScope scope) := by
  cases scope with
  | none => exact h
  | some scope => exact h.push fun f => rfl

theorem closeScope (h : Alongside l d e) (scope : Option Scope) :
    Alongside l (d.closeScope scope) (e.closeScope scope) := by
  cases scope with
  | none => exact h
  | some scope => exact h.push fun f => rfl

theorem setBuffer (h : Alongside l d e) (n : Nat) :
    Alongside l { d with bufferStart := n } { e with bufferStart := l.start + n } :=
  ⟨rfl, h.forest, h.illegal⟩

theorem setIllegal (h : Alongside l d e) :
    Alongside l { d with illegal := true } { e with illegal := true } :=
  ⟨h.bufferStart, h.forest, (Bool.or_true _).symm⟩

theorem addKeyword (h : Alongside l d e) (span : Span) (hspan : span.stop ≤ l.part.size)
    {last : Nat}
    (hstart : span.start ≤ l.part.size) (c : KeywordClass) (w : Word) :
    Alongside l (d.addKeyword last span c w)
      (e.addKeyword (l.start + last) (span.shift l.start) c w) := by
  have htext := h.addText ⟨last, span.start⟩ hstart
  have hkeyword := ((htext.openScope (some c.scope)).addText span hspan).closeScope (some c.scope)
  exact hkeyword.of_eq ⟨rfl, rfl, rfl⟩ ⟨rfl, rfl, rfl⟩

theorem addLexemes (table : KeywordTable) (base : Nat) {ls : List Span}
    (hls : ∀ s ∈ ls, base + s.start ≤ l.part.size ∧ base + s.stop ≤ l.part.size) (last : Nat)
    (h : Alongside l d e) :
    (Draft.addLexemes l.whole table (l.start + base) ls (l.start + last) e).1 =
        l.start + (Draft.addLexemes l.part table base ls last d).1 ∧
      Alongside l (Draft.addLexemes l.part table base ls last d).2
        (Draft.addLexemes l.whole table (l.start + base) ls (l.start + last) e).2 := by
  induction ls generalizing last d e with
  | nil => exact ⟨rfl, h⟩
  | cons s ls ih =>
    have hrest := fun s hs => hls s (List.mem_cons_of_mem _ hs)
    obtain ⟨hstart, hstop⟩ := hls s List.mem_cons_self
    have hshift : (⟨l.start + (base + s.start), l.start + (base + s.stop)⟩ : Span) =
        Span.shift l.start ⟨base + s.start, base + s.stop⟩ := rfl
    have hchars : l.whole.chars (Span.shift l.start ⟨base + s.start, base + s.stop⟩) =
        l.part.chars ⟨base + s.start, base + s.stop⟩ := l.stands.chars_shift hstop
    simp only [Draft.addLexemes, Nat.add_assoc, hshift, hchars]
    split
    · exact ih hrest last h
    · exact ih hrest _
        (h.addKeyword ⟨base + s.start, base + s.stop⟩ hstop hstart _ _)

/-- **A stretch of the part is recorded alike in both.** -/
theorem classify (h : Alongside l d e) (keywords : Option KeywordTable) (span : Span)
    (hspan : span.stop ≤ l.part.size) :
    Alongside l (d.classify l.part keywords span)
      (e.classify l.whole keywords (span.shift l.start)) := by
  simp only [Draft.classify, Span.isEmpty_shift]
  split
  · exact h
  · next hempty =>
    cases keywords with
    | none => exact h.addText span hspan
    | some table =>
      have hextract : l.whole.extract (span.shift l.start).start (span.shift l.start).stop =
          l.part.extract span.start span.stop := l.stands span.start span.stop hspan
      have hls : ∀ s ∈ table.lexeme.findAll (l.part.extract span.start span.stop),
          span.start + s.start ≤ l.part.size ∧ span.start + s.stop ≤ l.part.size := by
        intro s hs
        have hascending := table.lexeme.ascending_findAll (l.part.extract span.start span.stop)
        have hle := hascending.le hs
        have hstop := hascending.stop_le hs
        have hlt : span.start < span.stop := by simpa [Span.isEmpty] using hempty
        rw [Array.size_extract] at hstop
        omega
      obtain ⟨hlast, hlexemes⟩ := h.addLexemes table span.start hls span.start
      simp only [hextract]
      show Alongside l _ (Draft.addText _ ⟨(Draft.addLexemes l.whole table (l.start + span.start)
        _ (l.start + span.start) e).1, l.start + span.stop⟩)
      rw [hlast]
      exact hlexemes.addText ⟨_, span.stop⟩ hspan

theorem flush (h : Alongside l d e) (keywords : Option KeywordTable) (hstop : stop ≤ l.part.size) :
    Alongside l (d.flush l.part keywords stop) (e.flush l.whole keywords (l.start + stop)) := by
  rw [Draft.flush, Draft.flush, h.bufferStart]
  exact (h.setBuffer stop).classify keywords ⟨d.bufferStart, stop⟩ hstop

theorem closeScopes (scopes : List (Option Scope)) (h : Alongside l d e) :
    Alongside l (scopes.foldl Draft.closeScope d) (scopes.foldl Draft.closeScope e) := by
  induction scopes generalizing d e with
  | nil => exact h
  | cons scope scopes ih => exact ih (h.closeScope scope)

end Draft.Alongside

/-! ### Drafts that flush alike -/

/-- However far both are flushed, they are side by side then. -/
def Draft.FlushAlike (l : Placement) (keywords : Option KeywordTable) (d e : Draft) : Prop :=
  ∀ stop ≤ l.part.size,
    Draft.Alongside l (d.flush l.part keywords stop) (e.flush l.whole keywords (l.start + stop))

theorem Draft.flush_setIllegal (source : Source) (keywords : Option KeywordTable) (stop : Nat)
    (d : Draft) :
    flush source keywords stop { d with illegal := true } =
      { d.flush source keywords stop with illegal := true } := by
  have hcongruent : Congruent fun d e : Draft => { d with illegal := true } = e :=
    ⟨fun h => by rw [← h], fun _ h => by rw [← h], fun _ h => by rw [← h]; rfl,
      fun _ h => by rw [← h], fun _ h => by rw [← h]⟩
  exact (hcongruent.flush rfl).symm

namespace Draft.FlushAlike

variable (h : FlushAlike l keywords d e)
include h

theorem addWhole (hle : span.start ≤ span.stop) (hspan : span.stop ≤ l.part.size) :
    Alongside l (d.addWhole l.part keywords m span)
      (e.addWhole l.whole keywords m (span.shift l.start)) := by
  simp only [Draft.addWhole]
  split
  · exact (h span.stop hspan).of_eq ⟨rfl, rfl, rfl⟩ ⟨rfl, rfl, rfl⟩
  · have hopened := (h span.start (Nat.le_trans hle hspan)).openScope m.scope
    have hclosed := (hopened.classify m.content.keywords span hspan).closeScope m.scope
    exact (hclosed.setBuffer span.stop).of_eq ⟨rfl, rfl, rfl⟩ ⟨rfl, rfl, rfl⟩

theorem openRegion (hle : span.start ≤ span.stop) (hspan : span.stop ≤ l.part.size) :
    Alongside l (d.openRegion l.part keywords m span)
      (e.openRegion l.whole keywords m (span.shift l.start)) := by
  rw [Draft.openRegion, Draft.openRegion]
  split
  · exact (h span.stop hspan).openScope m.scope
  · exact (h span.start (Nat.le_trans hle hspan)).openScope m.scope

theorem closeRegions (closed : List Mode) (hstop : stop ≤ l.part.size) :
    Alongside l (d.closeRegions l.part keywords stop closed)
      (e.closeRegions l.whole keywords (l.start + stop) closed) := by
  have hflush := h stop hstop
  rw [Draft.closeRegions, Draft.closeRegions]
  generalize d.flush l.part keywords stop = d' at hflush
  generalize e.flush l.whole keywords (l.start + stop) = e' at hflush
  induction closed generalizing d' e' with
  | nil => exact hflush
  | cons m closed ih =>
    exact ih _ _ ((hflush.closeScope m.scope).of_eq ⟨rfl, rfl, rfl⟩ ⟨rfl, rfl, rfl⟩)

theorem passOver (hlt : span.start < span.stop) (hspan : span.stop ≤ l.part.size) :
    Alongside l (d.passOver l.part keywords span)
      (e.passOver l.whole keywords (span.shift l.start)) := by
  have hpassed : passedAt l.part span = span.stop := passedAt_of_lt hlt
  have hpassed' : passedAt l.whole (span.shift l.start) = l.start + span.stop :=
    passedAt_of_lt (Nat.add_lt_add_left hlt l.start)
  simp only [Draft.passOver, Draft.flush_setIllegal, hpassed, hpassed']
  have hflush := (h span.start (Nat.le_trans (Nat.le_of_lt hlt) hspan)).setIllegal
  exact (hflush.addText span hspan).setBuffer span.stop

end Draft.FlushAlike

/-! ### Cores side by side -/

/-- In the whole text the same regions are open as in the part, and both flush alike. -/
structure Core.Alongside (g : Grammar) (l : Placement) (c d : Core) : Prop where
  modes : d.modes = c.modes
  flush : Draft.FlushAlike l (c.keywords g) c.draft d.draft

namespace Core.Alongside

variable {g : Grammar} {options options' : Options} {c c' : Core} {f : Found} {fs : List Found}
  {barred : List Bar} {p q : Place} {floor : Nat}

theorem keywords_eq (h : c.Alongside g l c') : c'.keywords g = c.keywords g := by
  rw [Core.keywords, h.modes, Core.keywords]

theorem of_draft (hmodes : c'.modes = c.modes) (h : Draft.Alongside l c.draft c'.draft) :
    c.Alongside g l c' := ⟨hmodes, fun _ hstop => h.flush _ hstop⟩

/-- **What is taken in the part and in the whole text leaves both side by side.** -/
theorem take (h : c.Alongside g l c') (honward : f.IsOnward c.modes)
    (hle : f.span.start ≤ f.span.stop) (hspan : f.span.stop ≤ l.part.size)
    (hillegal : f.candidate = .illegal → f.span.start < f.span.stop) :
    (c.take (task g l.part options) f).Alongside g l
      (c'.take (task g l.whole options') (f.shift l.start)) := by
  have hmodes : (c'.take (task g l.whole options') (f.shift l.start)).modes =
      (c.take (task g l.part options) f).modes := by
    have hplace : (c.take (task g l.part options) f).place = _ := Core.place_take honward
    have honward' : (f.shift l.start).IsOnward c'.modes := by
      rw [h.modes]
      exact honward
    have hplace' : (c'.take (task g l.whole options') (f.shift l.start)).place = _ :=
      Core.place_take honward'
    have hafter : (c'.place.after (task g l.whole options') (f.shift l.start)).modes =
        (c.place.after (task g l.part options) f).modes := by
      have hshift : (f.shift l.start).candidate = f.candidate := rfl
      rw [Place.after, Place.after, hshift]
      cases f.candidate with
      | opens m => simp only [Core.place, h.modes]; rfl
      | closes depth => simp only [Core.place, h.modes]; rfl
      | illegal => exact h.modes
    rw [← hplace, ← hplace'] at hafter
    exact hafter
  apply of_draft hmodes
  have hflush := h.flush
  have hshift : (f.shift l.start).candidate = f.candidate := rfl
  rw [Core.take, Core.take, hshift]
  cases hf : f.candidate with
  | opens m =>
    dsimp only
    by_cases hend : (g.mode m).ending = .immediate
    · have hwhole := hflush.addWhole (m := g.mode m) hle hspan
      rw [if_pos (show ((task g l.part options).grammar.mode m).ending = .immediate from hend),
        if_pos (show ((task g l.whole options').grammar.mode m).ending = .immediate from hend)]
      show Draft.Alongside l _ (c'.draft.addWhole l.whole (c'.keywords g) (g.mode m) _)
      rw [h.keywords_eq]
      exact hwhole
    · have hopened := hflush.openRegion (m := g.mode m) hle hspan
      rw [if_neg (show ¬ ((task g l.part options).grammar.mode m).ending = .immediate from hend),
        if_neg (show ¬ ((task g l.whole options').grammar.mode m).ending = .immediate from hend)]
      show Draft.Alongside l _ (c'.draft.openRegion l.whole (c'.keywords g) (g.mode m) _)
      rw [h.keywords_eq]
      exact hopened
  | closes depth =>
    have hedge : State.closingEdge g c.modes (f.span.shift l.start) =
        l.start + State.closingEdge g c.modes f.span := by
      unfold State.closingEdge
      split
      · rfl
      · split <;> rfl
    have hle' : State.closingEdge g c.modes f.span ≤ l.part.size := by
      rcases closingEdge_eq g c.modes f.span with heq | heq
      · omega
      · omega
    show Draft.Alongside l _ (c'.draft.closeRegions l.whole (c'.keywords g)
      (State.closingEdge g c'.modes (f.span.shift l.start))
      ((c'.modes.take (State.closedBy g c'.modes depth)).map g.mode))
    rw [h.keywords_eq, h.modes, hedge]
    exact hflush.closeRegions _ hle'
  | illegal =>
    have hnil : c.modes = [] := honward hf
    have hentries : c.entries = [] := List.map_eq_nil_iff.mp hnil
    have hentries' : c'.entries = [] := List.map_eq_nil_iff.mp (h.modes.trans hnil)
    rw [hentries, hentries']
    show Draft.Alongside l _ (c'.draft.passOver l.whole (c'.keywords g) _)
    rw [h.keywords_eq]
    exact hflush.passOver (hillegal hf) hspan

/-- **Along a path in the part, both stay side by side.** -/
theorem takeAll (hsound : (task g l.part options).IsSound) (h : c.Alongside g l c')
    (hpath : Path (task g l.part options) barred floor c.place fs q) :
    (c.takeAll (task g l.part options) fs).Alongside g l
      (c'.takeAll (task g l.whole options') (fs.map (Found.shift l.start))) := by
  induction fs generalizing c c' with
  | nil => exact h
  | cons f fs ih =>
    obtain ⟨hnext, honward, -, hrest⟩ := hpath
    obtain ⟨-, hle, hsize⟩ := Place.next?_within hsound hnext
    rw [← Core.place_take honward] at hrest
    refine ih (h.take honward hle hsize ?_) hrest
    intro hf
    exact Place.lt_of_next? hsound hnext (by rw [hf]; rfl)

end Core.Alongside

end Scan

end Highlighting
