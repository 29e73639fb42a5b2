/-
  Highlighting/Proofs/Regex/Bounds.lean
  =====================================
  **Matches lie within the text.**

  An expression only ever moves on through the text, so a match ends between
  its start and the end of the text (`Regex.within_of_mem_ends`).  The threads
  of an automaton keep the start that they were given, which is never ahead of
  the position (`Automaton.run_within`).

  So searches of a matcher keep within the text, and successive matches follow
  one another without an overlap (`Matcher.ascending_findAll`).
-/
import Highlighting.Proofs.Regex.Threads
import Highlighting.Proofs.Text.Search

namespace Highlighting

open Search

variable {text : Source} {pos stop : Nat}

/-! ### Sets of one character -/

theorem CharSet.contains_single {c d : Char} : (single c).contains d = true ↔ d = c := by
  rw [single, contains, Bool.and_eq_true, decide_eq_true_eq, decide_eq_true_eq]
  constructor
  · exact fun h => Char.le_antisymm h.2 h.1
  · rintro rfl
    exact ⟨Char.le_refl d, Char.le_refl d⟩

theorem CharSet.contains_single_eq (c d : Char) : (single c).contains d = (d == c) := by
  rw [Bool.eq_iff_iff, contains_single, beq_iff_eq]

/-! ### Lists of ends -/

namespace Regex

variable {P : Nat → Prop} {step : Nat → List Nat}

/-- What a step keeps holds of all ends of a number of iterations. -/
theorem forall_mem_times (hstep : ∀ p, P p → ∀ q ∈ step p, P q) (n : Nat) (ps : List Nat)
    (hps : ∀ p ∈ ps, P p) : ∀ q ∈ times step n ps, P q := by
  induction n generalizing ps with
  | zero => exact hps
  | succ n ih =>
    intro q hq
    rw [times] at hq
    split at hq
    · cases hq
    · refine ih (ps.flatMap step) ?_ q hq
      intro p hp
      obtain ⟨p', hp', hpstep⟩ := List.mem_flatMap.mp hp
      exact hstep p' (hps p' hp') p hpstep

/-- What a step keeps holds of the ends of iterations that are put in front of others. -/
theorem forall_mem_iterations (hstep : ∀ p, P p → ∀ q ∈ step p, P q) (greedy : Bool)
    (limit pos : Nat) (later : List Nat) (hpos : P pos) (hlater : ∀ q ∈ later, P q) :
    ∀ q ∈ iterations greedy step limit pos later, P q := by
  induction limit generalizing pos later with
  | zero =>
    intro q hq
    rcases List.mem_cons.mp hq with rfl | hq
    · exact hpos
    · exact hlater q hq
  | succ limit ih =>
    have hfurther : ∀ later : List Nat, (∀ q ∈ later, P q) →
        ∀ q ∈ (step pos).foldr (fun stop later =>
          if pos < stop then iterations greedy step limit stop later else later) later, P q := by
      intro later hlater
      have hends := hstep pos hpos
      generalize step pos = stops at hends
      induction stops with
      | nil => exact hlater
      | cons stop stops ihstops =>
        have hrest := ihstops fun q hq => hends q (List.mem_cons_of_mem _ hq)
        rw [List.foldr_cons]
        split
        · exact ih stop _ (hends stop (by simp)) hrest
        · exact hrest
    rw [iterations]
    split
    · refine hfurther (pos :: later) ?_
      intro q hq
      rcases List.mem_cons.mp hq with rfl | hq
      · exact hpos
      · exact hlater q hq
    · intro q hq
      rcases List.mem_cons.mp hq with rfl | hq
      · exact hpos
      · exact hfurther later hlater q hq

/-- **A match ends between its start and the end of the text.** -/
theorem within_of_mem_ends (r : Regex) (hpos : pos ≤ text.size) (h : stop ∈ r.ends text pos) :
    pos ≤ stop ∧ stop ≤ text.size := by
  induction r generalizing pos stop with
  | empty =>
    rw [ends, List.mem_singleton] at h
    subst h
    exact ⟨Nat.le_refl _, hpos⟩
  | set s =>
    rw [ends] at h
    split at h
    · next c hc =>
      have hlt : pos < text.size := (Array.getElem?_eq_some_iff.mp hc).1
      split at h
      · rw [List.mem_singleton] at h
        omega
      · cases h
    · cases h
  | anchor a =>
    rw [ends] at h
    split at h
    · rw [List.mem_singleton] at h
      subst h
      exact ⟨Nat.le_refl _, hpos⟩
    · cases h
  | seq first second ih1 ih2 =>
    rw [ends] at h
    obtain ⟨middle, hmiddle, hstop⟩ := List.mem_flatMap.mp h
    have h1 := ih1 hpos hmiddle
    have h2 := ih2 h1.2 hstop
    exact ⟨Nat.le_trans h1.1 h2.1, h2.2⟩
  | alt first second ih1 ih2 =>
    rw [ends] at h
    rcases List.mem_append.mp h with h | h
    · exact ih1 hpos h
    · exact ih2 hpos h
  | group index body ih =>
    rw [ends] at h
    exact ih hpos h
  | rep greedy least most body ih =>
    obtain ⟨p, hp, hstop⟩ := List.mem_flatMap.mp h
    -- every iteration goes on from a position that is already within the text
    have hstep : ∀ p, pos ≤ p ∧ p ≤ text.size → ∀ q ∈ body.ends text p,
        pos ≤ q ∧ q ≤ text.size := by
      intro p hp q hq
      have hq' := ih hp.2 hq
      exact ⟨Nat.le_trans hp.1 hq'.1, hq'.2⟩
    have hp' := forall_mem_times hstep least [pos]
      (fun q hq => by rw [List.mem_singleton.mp hq]; exact ⟨Nat.le_refl _, hpos⟩) p hp
    exact forall_mem_iterations hstep greedy _ p [] hp' (by simp) stop hstop

theorem within_of_firstEnd? (r : Regex) (hpos : pos ≤ text.size)
    (h : r.firstEnd? text pos = some stop) : pos ≤ stop ∧ stop ≤ text.size :=
  r.within_of_mem_ends hpos (List.mem_of_mem_head? h)

end Regex

/-! ### Threads -/

namespace Automaton

variable {a : Automaton} {since : Nat}

theorem start_of_take? {c : Char} {w : Waiting} {t : Thread} (h : w.take? c = some t) :
    t.start = w.start := by
  rw [Waiting.take?] at h
  split at h
  · split at h
    · cases h
      rfl
    · cases h
  · cases h

/-! ### Runs -/

/-- The agenda with a new attempt, as long as nothing has been found. -/
def attempting (a : Automaton) (anywhere : Bool) (pos : Nat) (agenda : List Thread)
    (best : Option Span) : List Thread :=
  if anywhere && best.isNone then agenda ++ [⟨a.start, pos⟩] else agenda

/-- The threads that the agenda comes to. -/
def settle (a : Automaton) (text : Source) (pos : Nat) (agenda : List Thread) : List Waiting :=
  a.spread text pos (agenda.length + 2 * a.states.size + 1) agenda 0

/-- The match to keep, once these threads wait. -/
def kept (pos : Nat) (ws : List Waiting) (best : Option Span) : Option Span :=
  match ws.find? (·.accepts) with
  | some w => some ⟨w.start, pos⟩
  | none => best

/-- The threads after a character. -/
def after (c : Char) (ws : List Waiting) : List Thread :=
  (ws.takeWhile (!·.accepts)).filterMap (·.take? c)

/-- **One position of a run.** -/
theorem run_succ (anywhere : Bool) (fuel : Nat) (agenda : List Thread) (best : Option Span) :
    let ws := a.settle text pos (a.attempting anywhere pos agenda best)
    a.run text anywhere (fuel + 1) pos agenda best =
      match text[pos]? with
      | none => kept pos ws best
      | some c =>
        if (after c ws).isEmpty && (!anywhere || (kept pos ws best).isSome) then kept pos ws best
        else a.run text anywhere fuel (pos + 1) (after c ws) (kept pos ws best) := rfl

theorem mem_attempting {anywhere : Bool} {agenda : List Thread} {best : Option Span} {t : Thread}
    (h : t ∈ a.attempting anywhere pos agenda best) : t ∈ agenda ∨ t = ⟨a.start, pos⟩ := by
  rw [attempting] at h
  split at h
  · rcases List.mem_append.mp h with h | h
    · exact .inl h
    · exact .inr (List.mem_singleton.mp h)
  · exact .inl h

theorem spreads_settle (a : Automaton) (text : Source) (pos : Nat) (agenda : List Thread) :
    ∃ seen', Spreads a text pos agenda 0 (a.settle text pos agenda) seen' := by
  apply spreads_spread
  have hroom : a.room 0 ≤ a.states.size := room_le
  omega

theorem exists_start_of_mem_settle {agenda : List Thread} {w : Waiting}
    (h : w ∈ a.settle text pos agenda) : ∃ t ∈ agenda, t.start = w.start := by
  obtain ⟨seen', hspreads⟩ := a.spreads_settle text pos agenda
  exact hspreads.exists_start w h

theorem exists_start_of_kept {ws : List Waiting} {best : Option Span} {s : Span}
    (h : kept pos ws best = some s) : (∃ w ∈ ws, s = ⟨w.start, pos⟩) ∨ best = some s := by
  rw [kept] at h
  split at h
  · next w hw =>
    cases h
    exact .inl ⟨w, List.mem_of_find?_eq_some hw, rfl⟩
  · exact .inr h

theorem exists_start_of_mem_after {c : Char} {ws : List Waiting} {t : Thread}
    (h : t ∈ after c ws) : ∃ w ∈ ws, t.start = w.start := by
  obtain ⟨w, hw, htake⟩ := List.mem_filterMap.mp h
  exact ⟨w, (List.takeWhile_sublist _).subset hw, start_of_take? htake⟩

/-- The span lies between the start of a search and the end of the text. -/
abbrev Lies (text : Source) (since : Nat) (s : Span) : Prop :=
  since ≤ s.start ∧ s.start ≤ s.stop ∧ s.stop ≤ text.size

/-- **A run finds a match within the text**, when all its threads started before the
position. -/
theorem run_within (anywhere : Bool) (fuel : Nat) (agenda : List Thread) (best : Option Span)
    (hfuel : pos + fuel ≤ text.size + 1) (hsince : since ≤ pos)
    (hagenda : ∀ t ∈ agenda, since ≤ t.start ∧ t.start ≤ pos)
    (hbest : ∀ s, best = some s → Lies text since s) :
    ∀ s, a.run text anywhere fuel pos agenda best = some s → Lies text since s := by
  induction fuel generalizing pos agenda best with
  | zero => exact hbest
  | succ fuel ih =>
    intro s hs
    rw [run_succ] at hs
    have hstarts : ∀ w ∈ a.settle text pos (a.attempting anywhere pos agenda best),
        since ≤ w.start ∧ w.start ≤ pos := by
      intro w hw
      obtain ⟨t, ht, hstart⟩ := exists_start_of_mem_settle hw
      rw [← hstart]
      rcases mem_attempting ht with ht | rfl
      · exact hagenda t ht
      · exact ⟨hsince, Nat.le_refl _⟩
    generalize a.settle text pos (a.attempting anywhere pos agenda best) = ws at hs hstarts
    have hkept : ∀ s, kept pos ws best = some s → Lies text since s := by
      intro s hs
      rcases exists_start_of_kept hs with ⟨w, hw, rfl⟩ | hs
      · obtain ⟨h1, h2⟩ := hstarts w hw
        exact ⟨h1, h2, by show pos ≤ text.size; omega⟩
      · exact hbest s hs
    cases hc : text[pos]? with
    | none =>
      rw [hc] at hs
      exact hkept s hs
    | some c =>
      rw [hc] at hs
      dsimp only at hs
      split at hs
      · exact hkept s hs
      · refine ih _ _ (by omega) (by omega) ?_ hkept s hs
        intro t ht
        obtain ⟨w, hw, hstart⟩ := exists_start_of_mem_after ht
        obtain ⟨h1, h2⟩ := hstarts w hw
        rw [hstart]
        exact ⟨h1, Nat.le_succ_of_le h2⟩

/-- Behind the text nothing is found. -/
theorem find_of_gt (a : Automaton) (h : text.size < pos) : a.find text pos = none := by
  rw [find, show text.size + 1 - pos = 0 by omega, run]

end Automaton

/-! ### Matchers -/

namespace Matcher

theorem isWithin (m : Matcher) (text : Source) : IsWithin text.size (m.find text ·) := by
  cases m with
  | listing r => exact isWithin_ofEnds fun p stop hp => r.within_of_firstEnd? hp
  | running a =>
    intro pos s hpos hs
    exact Automaton.run_within true _ [] none (by omega) (Nat.le_refl pos) (by simp) (by simp) s hs

theorem find_of_gt (m : Matcher) (h : text.size < pos) : m.find text pos = none := by
  cases m with
  | listing r => rw [find, show text.size + 1 - pos = 0 by omega, leftmost]
  | running a => exact a.find_of_gt h

/-- Spans that follow one another from a position on, with no overlap, within a text of that
size. -/
def Ascending (size : Nat) : Nat → List Span → Prop
  | _, [] => True
  | pos, s :: ss => pos ≤ s.start ∧ s.start ≤ s.stop ∧ s.stop ≤ size ∧ Ascending size s.stop ss

theorem Ascending.stop_le {size : Nat} {ss : List Span} (h : Ascending size pos ss) {s : Span}
    (hs : s ∈ ss) : s.stop ≤ size := by
  induction ss generalizing pos with
  | nil => cases hs
  | cons s' ss ih =>
    obtain ⟨-, -, hstop, hrest⟩ := h
    rcases List.mem_cons.mp hs with rfl | hs
    · exact hstop
    · exact ih hrest hs

theorem Ascending.le {size : Nat} {ss : List Span} (h : Ascending size pos ss) {s : Span}
    (hs : s ∈ ss) : s.start ≤ s.stop := by
  induction ss generalizing pos with
  | nil => cases hs
  | cons s' ss ih =>
    obtain ⟨-, hle, -, hrest⟩ := h
    rcases List.mem_cons.mp hs with rfl | hs
    · exact hle
    · exact ih hrest hs

theorem ascending_findAllFrom (m : Matcher) (fuel : Nat) (last : Option Nat)
    (hpos : pos ≤ text.size) : Ascending text.size pos (m.findAllFrom text fuel pos last) := by
  induction fuel generalizing pos last with
  | zero => trivial
  | succ fuel ih =>
    simp only [findAllFrom]
    split
    · next s hfound =>
      have hs : pos ≤ s.start ∧ s.start ≤ s.stop ∧ s.stop ≤ text.size := by
        split at hfound
        · next s' hs' =>
          have hwithin := m.isWithin text pos s' hpos hs'
          split at hfound
          · rcases Nat.lt_or_ge pos text.size with hlt | hge
            · have := m.isWithin text (pos + 1) s hlt hfound
              omega
            · rw [m.find_of_gt (by omega)] at hfound
              cases hfound
          · cases hfound
            exact hwithin
        · cases hfound
      exact ⟨hs.1, hs.2.1, hs.2.2, ih _ hs.2.2⟩
    · trivial

/-- **Successive matches follow one another without an overlap.** -/
theorem ascending_findAll (m : Matcher) (text : Source) :
    Ascending text.size 0 (m.findAll text) :=
  m.ascending_findAllFrom _ none (Nat.zero_le _)

end Matcher

end Highlighting
