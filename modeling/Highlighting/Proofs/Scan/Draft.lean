/-
  Highlighting/Proofs/Scan/Draft.lean
  ===================================
  **Drafts grow, and can be taken back.**

  Whatever is recorded is recorded in small steps: an event at the end of the
  log, a keyword met, a new start of the buffer, some relevance.  A relation
  between drafts that every such step keeps is kept by all that a scan records
  (`Congruent`).  Three are used:

    * a draft extends an earlier one: its logs only became longer
      (`Extends`);
    * the counts of a draft are those of its hit log (`Counted`);
    * two drafts show the same (`Alike`).

  From the first two follows that a draft that is restored to a checkpoint
  shows what the draft did of which the checkpoint is (`restore_alike`).
-/
import Mathlib.Data.List.Count
import Highlighting.Scan.Draft

namespace Highlighting.Scan.Draft

variable {d e : Draft} {source : Source} {keywords : Option KeywordTable} {m : Mode}
  {span : Span} {stop : Nat} {w : Word}

/-! ### Small steps -/

/-- The relation is kept when both drafts take the same small step. -/
structure Congruent (R : Draft → Draft → Prop) : Prop where
  bufferStart_eq : ∀ {d e}, R d e → d.bufferStart = e.bufferStart
  push : ∀ {d e} (ev : Event), R d e →
    R { d with events := d.events.push ev } { e with events := e.events.push ev }
  hit : ∀ {d e} (w : Word), R d e → R (d.hit w) (e.hit w)
  setBuffer : ∀ {d e} (n : Nat), R d e →
    R { d with bufferStart := n } { e with bufferStart := n }
  addRelevance : ∀ {d e} (r : UInt32), R d e →
    R { d with relevance := d.relevance + r } { e with relevance := e.relevance + r }

namespace Congruent

variable {R : Draft → Draft → Prop} (h : Congruent R)
include h

theorem addText (hR : R d e) : R (d.addText span) (e.addText span) := by
  simp only [Draft.addText, EventLog.addText]
  split
  · exact hR
  · exact h.push _ hR

theorem openScope (scope : Option Scope) (hR : R d e) :
    R (d.openScope scope) (e.openScope scope) := by
  cases scope with
  | none => exact hR
  | some scope => exact h.push _ hR

theorem closeScope (scope : Option Scope) (hR : R d e) :
    R (d.closeScope scope) (e.closeScope scope) := by
  cases scope with
  | none => exact hR
  | some scope => exact h.push _ hR

theorem addKeyword (last : Nat) (c : KeywordClass) (hR : R d e) :
    R (d.addKeyword last span c w) (e.addKeyword last span c w) :=
  h.hit w (h.closeScope _ (h.addText (h.openScope _ (h.addText hR))))

/-- The same lexemes are recorded in both drafts, and end at the same place. -/
theorem addLexemes (source : Source) (table : KeywordTable) (base : Nat) (ls : List Span)
    (last : Nat) (hR : R d e) :
    (Draft.addLexemes source table base ls last d).1 =
        (Draft.addLexemes source table base ls last e).1 ∧
      R (Draft.addLexemes source table base ls last d).2
        (Draft.addLexemes source table base ls last e).2 := by
  induction ls generalizing last d e with
  | nil => exact ⟨rfl, hR⟩
  | cons l ls ih =>
    simp only [Draft.addLexemes]
    split
    · exact ih last hR
    · exact ih _ (h.addKeyword _ _ hR)

theorem classify (hR : R d e) :
    R (d.classify source keywords span) (e.classify source keywords span) := by
  simp only [Draft.classify]
  split
  · exact hR
  · cases keywords with
    | none => exact h.addText hR
    | some table =>
      obtain ⟨hlast, hR'⟩ := h.addLexemes source table span.start
        (table.lexeme.findAll (source.extract span.start span.stop)) span.start hR
      simp only [hlast]
      exact h.addText hR'

theorem flush (hR : R d e) : R (d.flush source keywords stop) (e.flush source keywords stop) := by
  simp only [Draft.flush, h.bufferStart_eq hR]
  exact h.classify (h.setBuffer stop hR)

theorem addWhole (hR : R d e) :
    R (d.addWhole source keywords m span) (e.addWhole source keywords m span) := by
  simp only [Draft.addWhole]
  split
  · exact h.addRelevance _ (h.flush hR)
  · exact h.addRelevance _
      (h.setBuffer _ (h.closeScope _ (h.classify (h.openScope _ (h.flush hR)))))

theorem openRegion (hR : R d e) :
    R (d.openRegion source keywords m span) (e.openRegion source keywords m span) :=
  h.openScope _ (h.flush hR)

theorem closeRegions (closed : List Mode) (hR : R d e) :
    R (d.closeRegions source keywords stop closed)
      (e.closeRegions source keywords stop closed) := by
  simp only [Draft.closeRegions]
  have hflush : R (d.flush source keywords stop) (e.flush source keywords stop) := h.flush hR
  generalize d.flush source keywords stop = d' at hflush ⊢
  generalize e.flush source keywords stop = e' at hflush ⊢
  induction closed generalizing d' e' with
  | nil => exact hflush
  | cons m closed ih => exact ih _ _ (h.addRelevance _ (h.closeScope _ hflush))

theorem closeScopes (scopes : List (Option Scope)) (hR : R d e) :
    R (scopes.foldl Draft.closeScope d) (scopes.foldl Draft.closeScope e) := by
  induction scopes generalizing d e with
  | nil => exact hR
  | cons scope scopes ih => exact ih (h.closeScope _ hR)

theorem passOver
    (hill : ∀ {d e}, R d e → R { d with illegal := true } { e with illegal := true })
    (hR : R d e) : R (d.passOver source keywords span) (e.passOver source keywords span) :=
  h.setBuffer _ (h.addText (h.flush (hill hR)))

end Congruent

/-! ### Counts -/

theorem count_hit (d : Draft) (w v : Word) :
    (d.hit w).count v = if w = v then d.count w + 1 else d.count v := by
  rw [count, hit, WordMap.find?_insert]
  split
  · rfl
  · rfl

/-- Each word is counted as often as it stands in the hit log. -/
def Counted (d : Draft) : Prop := ∀ w, d.count w = d.hitLog.toList.count w

theorem counted_empty : Counted empty := fun _ => rfl

theorem Counted.hit (h : d.Counted) (w : Word) : (d.hit w).Counted := by
  intro v
  have hlog : (d.hit w).hitLog.toList = d.hitLog.toList ++ [w] := by simp [Draft.hit]
  rw [count_hit, hlog, List.count_append, List.count_singleton, h w, h v]
  by_cases heq : w = v
  · simp [heq]
  · simp [heq]

/-- A property of one draft that every small step keeps. -/
theorem congruent_of {P : Draft → Prop}
    (push : ∀ {d} ev, P d → P { d with events := d.events.push ev })
    (hit : ∀ {d} w, P d → P (d.hit w))
    (setBuffer : ∀ {d} n, P d → P { d with bufferStart := n })
    (addRelevance : ∀ {d} r, P d → P { d with relevance := d.relevance + r }) :
    Congruent fun d e => P d ∧ d = e where
  bufferStart_eq h := by rw [h.2]
  push ev h := ⟨push ev h.1, by rw [h.2]⟩
  hit w h := ⟨hit w h.1, by rw [h.2]⟩
  setBuffer n h := ⟨setBuffer n h.1, by rw [h.2]⟩
  addRelevance r h := ⟨addRelevance r h.1, by rw [h.2]⟩

theorem congruent_counted : Congruent fun d e => Counted d ∧ d = e :=
  congruent_of (fun _ h => h) (fun w h => h.hit w) (fun _ h => h) (fun _ h => h)

/-! ### Longer logs -/

/-- The logs of the second draft start with those of the first. -/
structure Extends (d e : Draft) : Prop where
  events : d.events.toList <+: e.events.toList
  hitLog : d.hitLog.toList <+: e.hitLog.toList
  illegal : e.illegal = d.illegal

theorem Extends.refl (d : Draft) : d.Extends d :=
  ⟨List.prefix_refl _, List.prefix_refl _, rfl⟩

theorem Extends.trans {c : Draft} (h : c.Extends d) (h' : d.Extends e) : c.Extends e :=
  ⟨h.events.trans h'.events, h.hitLog.trans h'.hitLog, h'.illegal.trans h.illegal⟩

theorem congruent_extends (c : Draft) : Congruent fun d e => c.Extends d ∧ d = e :=
  congruent_of
    (fun _ h => ⟨h.events.trans (by simp), h.hitLog, h.illegal⟩)
    (fun _ h => ⟨h.events, h.hitLog.trans (by simp [hit]), h.illegal⟩)
    (fun _ h => ⟨h.events, h.hitLog, h.illegal⟩)
    (fun _ h => ⟨h.events, h.hitLog, h.illegal⟩)

/-! ### Drafts that show the same -/

/-- The drafts differ at most in how their counts are kept. -/
structure Alike (d e : Draft) : Prop where
  bufferStart : d.bufferStart = e.bufferStart
  relevance : d.relevance = e.relevance
  illegal : d.illegal = e.illegal
  events : d.events = e.events
  hitLog : d.hitLog = e.hitLog
  count : ∀ w, d.count w = e.count w

namespace Alike

theorem refl (d : Draft) : d.Alike d := ⟨rfl, rfl, rfl, rfl, rfl, fun _ => rfl⟩

theorem symm (h : d.Alike e) : e.Alike d :=
  ⟨h.bufferStart.symm, h.relevance.symm, h.illegal.symm, h.events.symm, h.hitLog.symm,
    fun w => (h.count w).symm⟩

theorem trans {c : Draft} (h : c.Alike d) (h' : d.Alike e) : c.Alike e :=
  ⟨h.bufferStart.trans h'.bufferStart, h.relevance.trans h'.relevance,
    h.illegal.trans h'.illegal, h.events.trans h'.events, h.hitLog.trans h'.hitLog,
    fun w => (h.count w).trans (h'.count w)⟩

theorem hit (h : d.Alike e) (w : Word) : (d.hit w).Alike (e.hit w) where
  bufferStart := h.bufferStart
  relevance := by simp only [Draft.hit, h.count w, h.relevance]
  illegal := h.illegal
  events := h.events
  hitLog := by simp only [Draft.hit, h.hitLog]
  count v := by rw [count_hit, count_hit, h.count w, h.count v]

theorem checkpoint (h : d.Alike e) : d.checkpoint = e.checkpoint := by
  simp only [Draft.checkpoint, h.events, h.relevance, h.hitLog, h.bufferStart]

theorem counted (h : d.Alike e) (hd : d.Counted) : e.Counted := by
  intro w
  rw [← h.count w, ← h.hitLog, hd w]

theorem extends_right {c : Draft} (h : d.Alike e) (hd : c.Extends d) : c.Extends e :=
  ⟨h.events ▸ hd.events, h.hitLog ▸ hd.hitLog, h.illegal ▸ hd.illegal⟩

end Alike

theorem congruent_alike : Congruent Alike where
  bufferStart_eq h := h.bufferStart
  push ev h := ⟨h.bufferStart, h.relevance, h.illegal, by rw [h.events], h.hitLog, h.count⟩
  hit w h := h.hit w
  setBuffer _ h := ⟨rfl, h.relevance, h.illegal, h.events, h.hitLog, h.count⟩
  addRelevance r h :=
    ⟨h.bufferStart, by rw [h.relevance], h.illegal, h.events, h.hitLog, h.count⟩

/-! ### Taking back -/

/-- Counting the latest word down leaves the counts of what is left. -/
theorem Counted.forget {front : Array Word} (hd : d.Counted) (hlog : d.hitLog = front.push w) :
    Counted { d with hits := d.hits.insert (d.count w - 1) w, hitLog := d.hitLog.pop } := by
  intro v
  have hv : d.count v = (front.toList ++ [w]).count v := by rw [hd v, hlog, Array.toList_push]
  rw [List.count_append, List.count_singleton] at hv
  rw [count, WordMap.find?_insert]
  show _ = d.hitLog.pop.toList.count v
  rw [hlog, Array.pop_push]
  split
  · next heq =>
    subst heq
    simp only [BEq.rfl, if_true] at hv
    simp only [Option.getD_some]
    omega
  · next hne =>
    rw [beq_false_of_ne hne] at hv
    exact hv

/-- Taking the latest occurrences back leaves the log cut short, with the counts of what is
left. -/
theorem forgetHits_spec (n : Nat) (hd : d.Counted) (hn : n ≤ d.hitLog.size) :
    (d.forgetHits n).Counted ∧
      (d.forgetHits n).hitLog.toList = d.hitLog.toList.take (d.hitLog.size - n) ∧
      (d.forgetHits n).events = d.events ∧ (d.forgetHits n).illegal = d.illegal := by
  induction n generalizing d with
  | zero =>
    refine ⟨hd, ?_, rfl, rfl⟩
    rw [forgetHits, Nat.sub_zero, ← Array.length_toList, List.take_length]
  | succ n ih =>
    have hne : d.hitLog.size ≠ 0 := by omega
    obtain ⟨front, w, hlog⟩ := Array.eq_push_of_size_ne_zero hne
    have hback : d.hitLog.back? = some w := by rw [hlog, Array.back?_push]
    have hsize : d.hitLog.size = front.size + 1 := by rw [hlog, Array.size_push]
    rw [forgetHits, hback]
    obtain ⟨h1, h2, h3, h4⟩ := ih (hd.forget hlog) (by rw [Array.size_pop]; omega)
    refine ⟨h1, ?_, h3, h4⟩
    rw [h2, hsize]
    simp only [hlog, Array.pop_push, Array.toList_push]
    rw [Nat.add_sub_add_right, List.take_append_of_le_length (by simp)]

theorem Counted.restore (hd : d.Counted) (c : Checkpoint) : (d.restore c).Counted :=
  (forgetHits_spec (d.hitLog.size - c.hits) hd (Nat.sub_le _ _)).1

theorem Alike.forgetHits (n : Nat) (h : d.Alike e) : (d.forgetHits n).Alike (e.forgetHits n) := by
  induction n generalizing d e with
  | zero => exact h
  | succ n ih =>
    rw [Draft.forgetHits, Draft.forgetHits, h.hitLog]
    split
    · exact h
    · next w _ =>
      have hcount : ∀ v, ((d.hits.insert (d.count w - 1) w).find? v).getD 0 =
          ((e.hits.insert (e.count w - 1) w).find? v).getD 0 := by
        intro v
        rw [WordMap.find?_insert, WordMap.find?_insert, h.count w]
        split
        · rfl
        · exact h.count v
      exact ih ⟨h.bufferStart, h.relevance, h.illegal, h.events, rfl, hcount⟩

theorem Alike.restore (c : Checkpoint) (h : d.Alike e) : (d.restore c).Alike (e.restore c) := by
  simp only [Draft.restore, h.hitLog]
  have hforget := h.forgetHits (e.hitLog.size - c.hits)
  exact ⟨rfl, rfl, hforget.illegal, by rw [hforget.events], hforget.hitLog, hforget.count⟩

/-- **A draft restored to a checkpoint shows what the draft showed then.** -/
theorem restore_alike (h : d.Extends e) (hd : d.Counted) (he : e.Counted) :
    (e.restore d.checkpoint).Alike d := by
  have hsize : d.hitLog.size ≤ e.hitLog.size := by simpa using h.hitLog.length_le
  obtain ⟨hcounted, hlog, hevents, hill⟩ :=
    forgetHits_spec (e.hitLog.size - d.hitLog.size) he (by omega)
  have hhits : (e.forgetHits (e.hitLog.size - d.hitLog.size)).hitLog = d.hitLog := by
    rw [← Array.toList_inj, hlog, show e.hitLog.size - (e.hitLog.size - d.hitLog.size) =
      d.hitLog.toList.length by simp; omega]
    exact (List.prefix_iff_eq_take.mp h.hitLog).symm
  refine ⟨rfl, rfl, hill.trans h.illegal, ?_, hhits, fun w => ?_⟩
  · show (e.forgetHits (e.hitLog.size - d.hitLog.size)).events.shrink d.events.size = d.events
    rw [hevents, ← Array.toList_inj, Array.toList_shrink, ← Array.length_toList]
    exact (List.prefix_iff_eq_take.mp h.events).symm
  · show (e.forgetHits (e.hitLog.size - d.hitLog.size)).count w = d.count w
    rw [hcounted w, hd w]
    exact congrArg (fun log : Array Word => log.toList.count w) hhits

end Highlighting.Scan.Draft
