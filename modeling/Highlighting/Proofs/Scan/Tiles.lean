/-
  Highlighting/Proofs/Scan/Tiles.lean
  ===================================
  **The stretches that are recorded lie side by side.**

  The texts of an event log, in its order, cover the source from its start up to
  some position, without a gap and without an overlap, and none of them is empty
  (`Tiles`).  For the draft of a scan that position is where its buffer starts
  (`Core.Tiled`): what waits in the buffer is what comes next.

  Whatever is recorded is recorded right behind the rest, and a region that is
  taken back leaves the draft that it was opened in.
-/
import Highlighting.Proofs.Scan.Brackets

namespace Highlighting

/-- The spans lead from one position to another, each starting where the one before stops. -/
def Tiles : Nat → List Span → Nat → Prop
  | start, [], stop => start = stop
  | start, s :: ss, stop => s.start = start ∧ s.start < s.stop ∧ Tiles s.stop ss stop

namespace Tiles

variable {a b c : Nat} {ss ts : List Span} {s : Span}

theorem append (h : Tiles a ss b) (h' : Tiles b ts c) : Tiles a (ss ++ ts) c := by
  induction ss generalizing a with
  | nil =>
    obtain rfl : a = b := h
    exact h'
  | cons s ss ih => exact ⟨h.1, h.2.1, ih h.2.2⟩

theorem le (h : Tiles a ss b) : a ≤ b := by
  induction ss generalizing a with
  | nil => exact Nat.le_of_eq h
  | cons s ss ih =>
    obtain ⟨rfl, hlt, hrest⟩ := h
    exact Nat.le_trans (Nat.le_of_lt hlt) (ih hrest)

theorem within (h : Tiles a ss b) (hs : s ∈ ss) : a ≤ s.start ∧ s.start < s.stop ∧ s.stop ≤ b := by
  induction ss generalizing a with
  | nil => cases hs
  | cons s' ss ih =>
    obtain ⟨rfl, hlt, hrest⟩ := h
    rcases List.mem_cons.mp hs with rfl | hs
    · exact ⟨Nat.le_refl _, hlt, hrest.le⟩
    · obtain ⟨hstart, hs'⟩ := ih hrest hs
      exact ⟨Nat.le_trans (Nat.le_of_lt hlt) hstart, hs'⟩

end Tiles

def Event.text? : Event → Option Span
  | .text s => some s
  | _ => none

namespace EventLog

/-- The stretches of text in a log, in its order. -/
def texts (log : EventLog) : List Span := log.toList.filterMap Event.text?

@[simp] theorem texts_openScope (log : EventLog) (scope : Option Scope) :
    (log.openScope scope).texts = log.texts := by
  cases scope <;> simp [openScope, texts, Event.text?]

@[simp] theorem texts_closeScope (log : EventLog) (scope : Option Scope) :
    (log.closeScope scope).texts = log.texts := by
  cases scope <;> simp [closeScope, texts, Event.text?]

theorem texts_addText (log : EventLog) (s : Span) :
    (log.addText s).texts = log.texts ++ if s.isEmpty then [] else [s] := by
  unfold addText
  split <;> simp [texts, Event.text?]

end EventLog

namespace Scan

variable {task : Task} {source : Source} {keywords : Option KeywordTable} {d e : Draft}
  {a b stop : Nat} {span : Span} {m : Mode} {c : Core} {f : Found}

namespace Draft

/-- What is recorded lies side by side, up to the position. -/
def TiledTo (d : Draft) (stop : Nat) : Prop := Tiles 0 d.events.texts stop

theorem tiledTo_empty : empty.TiledTo 0 := rfl

theorem TiledTo.of_texts_eq (h : d.TiledTo stop) (htexts : e.events.texts = d.events.texts) :
    e.TiledTo stop := by
  rw [TiledTo, htexts]
  exact h

theorem TiledTo.openScope (h : d.TiledTo stop) (scope : Option Scope) :
    (d.openScope scope).TiledTo stop :=
  h.of_texts_eq (EventLog.texts_openScope d.events scope)

theorem TiledTo.closeScope (h : d.TiledTo stop) (scope : Option Scope) :
    (d.closeScope scope).TiledTo stop :=
  h.of_texts_eq (EventLog.texts_closeScope d.events scope)

theorem TiledTo.closeScopes (h : d.TiledTo stop) (g : Grammar) (modes : List Nat) :
    (modes.foldl (fun d m => d.closeScope (g.mode m).scope) d).TiledTo stop := by
  induction modes generalizing d with
  | nil => exact h
  | cons m modes ih => exact ih (h.closeScope _)

theorem TiledTo.addText (h : d.TiledTo a) (hle : a ≤ b) : (d.addText ⟨a, b⟩).TiledTo b := by
  rw [TiledTo, Draft.addText, EventLog.texts_addText]
  refine Tiles.append h ?_
  split
  · next hempty =>
    have hle' : b ≤ a := by simpa [Span.isEmpty] using hempty
    exact Nat.le_antisymm hle hle'
  · next hne =>
    have hlt : a < b := by simpa [Span.isEmpty] using hne
    exact ⟨rfl, hlt, rfl⟩

theorem TiledTo.addKeyword (h : d.TiledTo a) (hstart : a ≤ span.start)
    (hle : span.start ≤ span.stop) (c : KeywordClass) (w : Word) :
    (d.addKeyword a span c w).TiledTo span.stop :=
  ((((h.addText hstart).openScope _).addText hle).closeScope _).of_texts_eq rfl

theorem TiledTo.addLexemes (source : Source) (table : KeywordTable) (base : Nat) {size p last : Nat}
    {ls : List Span} (hls : Matcher.Ascending size p ls) (hlast : last ≤ base + p)
    (h : d.TiledTo last) :
    (Draft.addLexemes source table base ls last d).2.TiledTo
      (Draft.addLexemes source table base ls last d).1 := by
  induction ls generalizing p last d with
  | nil => exact h
  | cons l ls ih =>
    obtain ⟨hstart, hle, -, hrest⟩ := hls
    simp only [Draft.addLexemes]
    split
    · exact ih hrest (by omega) h
    · refine ih hrest (Nat.le_refl _) (h.addKeyword ?_ ?_ _ _)
      · exact Nat.le_trans hlast (Nat.add_le_add_left hstart base)
      · exact Nat.add_le_add_left hle base

/-- **A stretch with its keywords is recorded from its start to its end.** -/
theorem TiledTo.classify (h : d.TiledTo span.start) (hle : span.start ≤ span.stop)
    (hsize : span.stop ≤ source.size) :
    (d.classify source keywords span).TiledTo span.stop := by
  simp only [Draft.classify]
  split
  · next hempty =>
    have hle' : span.stop ≤ span.start := by simpa [Span.isEmpty] using hempty
    rwa [← Nat.le_antisymm hle hle']
  · cases keywords with
    | none => exact h.addText hle
    | some table =>
      have hls := table.lexeme.ascending_findAll (source.extract span.start span.stop)
      have hlast := (text_addLexemes source table span.start hls (Nat.zero_le _)
        (Nat.le_refl span.start) d).2.1
      have hstop : (Draft.addLexemes source table span.start
          (table.lexeme.findAll (source.extract span.start span.stop)) span.start d).1 ≤
            span.stop := by
        rw [Array.size_extract] at hlast
        omega
      exact (h.addLexemes source table span.start hls (Nat.le_refl _)).addText hstop

theorem TiledTo.flush (h : d.TiledTo d.bufferStart) (hle : d.bufferStart ≤ stop)
    (hsize : stop ≤ source.size) : (d.flush source keywords stop).TiledTo stop := by
  have hspan : Span.start ⟨d.bufferStart, stop⟩ ≤ Span.stop ⟨d.bufferStart, stop⟩ := hle
  exact (h.of_texts_eq (e := { d with bufferStart := stop }) rfl).classify hspan hsize

section Span

variable (hbuffer : d.bufferStart ≤ span.start) (hle : span.start ≤ span.stop)
  (hsize : span.stop ≤ source.size)
include hbuffer hle hsize

theorem TiledTo.addWhole (h : d.TiledTo d.bufferStart) :
    (d.addWhole source keywords m span).TiledTo span.stop := by
  simp only [Draft.addWhole]
  split
  · exact (h.flush (Nat.le_trans hbuffer hle) hsize).of_texts_eq rfl
  · have hflush : (d.flush source keywords span.start).TiledTo span.start :=
      h.flush hbuffer (Nat.le_trans hle hsize)
    exact (((hflush.openScope m.scope).classify hle hsize).closeScope m.scope).of_texts_eq rfl

theorem TiledTo.openRegion (h : d.TiledTo d.bufferStart) :
    let e := d.openRegion source keywords m span
    e.TiledTo e.bufferStart := by
  have hbufferStart : (d.openRegion source keywords m span).bufferStart =
      if m.excludesBegin then span.stop else span.start := bufferStart_flush _ _ _ _
  simp only [hbufferStart]
  refine TiledTo.openScope (h.flush ?_ ?_) m.scope
  · split <;> omega
  · split <;> omega

theorem TiledTo.closeRegions (h : d.TiledTo d.bufferStart) {edge : Nat}
    (hedge : edge = span.start ∨ edge = span.stop) (closed : List Mode) :
    (d.closeRegions source keywords edge closed).TiledTo edge := by
  have hflush : (d.flush source keywords edge).TiledTo edge := h.flush (by omega) (by omega)
  rw [Draft.closeRegions]
  generalize d.flush source keywords edge = d' at hflush
  induction closed generalizing d' with
  | nil => exact hflush
  | cons m closed ih => exact ih _ ((hflush.closeScope m.scope).of_texts_eq rfl)

theorem TiledTo.passOver (h : d.TiledTo d.bufferStart) :
    (d.passOver source keywords span).TiledTo (passedAt source span) := by
  have hill : ({ d with illegal := true } : Draft).TiledTo d.bufferStart := h.of_texts_eq rfl
  have hflush : ({ d with illegal := true }.flush source keywords span.start).TiledTo span.start :=
    TiledTo.flush (d := { d with illegal := true }) hill hbuffer (Nat.le_trans hle hsize)
  exact (hflush.addText (passedAt_within hle hsize).1).of_texts_eq rfl

end Span

end Draft

/-! ### What a scan keeps -/

/-- What is recorded lies side by side up to where the buffer starts, and did so wherever a
region was opened. -/
structure Core.Tiled (c : Core) : Prop where
  grounded : c.Grounded fun _ u => u.draft.TiledTo u.draft.bufferStart
  tiles : c.draft.TiledTo c.draft.bufferStart

theorem tiled_start (g : Grammar) : (State.start g).core.Tiled :=
  ⟨⟨Draft.counted_empty, trivial⟩, Draft.tiledTo_empty⟩

/-- **Taking a match records its text right behind the rest.** -/
theorem Core.Tiled.take (h : c.Tiled) (hbuffer : c.draft.bufferStart ≤ f.span.start)
    (hle : f.span.start ≤ f.span.stop) (hsize : f.span.stop ≤ task.source.size) :
    (c.take task f).Tiled := by
  refine ⟨h.grounded.take fun _ _ _ => h.tiles, ?_⟩
  rw [Core.take]
  split
  · next index _ =>
    split
    · have hstart : (c.takeWhole task (task.grammar.mode index) f.span).draft.bufferStart =
          f.span.stop := Draft.bufferStart_addWhole _
      rw [hstart]
      exact h.tiles.addWhole hbuffer hle hsize
    · exact h.tiles.openRegion hbuffer hle hsize
  · next depth _ =>
    have hstart : (c.closes task depth f.span).draft.bufferStart =
        State.closingEdge task.grammar c.modes f.span := Draft.bufferStart_closeRegions _ _
    rw [hstart]
    exact h.tiles.closeRegions hbuffer hle hsize (closingEdge_eq _ _ _) _
  · split
    · exact h.tiles.passOver hbuffer hle hsize
    · next e outer hcons =>
      -- the texts lay side by side in the core that the region goes back to
      obtain ⟨u, hu, -, -, halike, -⟩ :=
        (hcons ▸ h.grounded.opened).restore h.grounded.counted
      show (c.draft.restore e.checkpoint).TiledTo (c.draft.restore e.checkpoint).bufferStart
      rw [Draft.TiledTo, halike.events, halike.bufferStart]
      exact hu

theorem Core.Tiled.bar (h : c.Tiled) (b : Bar) : (c.bar b).Tiled :=
  ⟨⟨h.grounded.counted, h.grounded.opened⟩, h.tiles⟩

end Scan

end Highlighting
