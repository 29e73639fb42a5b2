/-
  Highlighting/Proofs/Regex/Steady.lean
  =====================================
  **Regular expressions search steadily.**

  An automaton looks for matches that start anywhere in one pass, so that the
  threads of a match compete with those of attempts further in front.  Where
  an attempt comes to nothing, it still closes states, and threads behind it
  give way.  But it closes a state only in order to go on from there itself:
  what gives way to it would have come to nothing too (`run_drop_front`).

  So a search that finds no match where it begins could as well have begun one
  character later (`find_succ`), which makes it steady (`Matcher.isSteady`).
-/
import Mathlib.Data.List.TakeWhile
import Highlighting.Proofs.Regex.Bounds

namespace Highlighting

namespace Automaton

variable {a : Automaton} {text : Source} {pos fuel since : Nat}

/-! ### One position of a search -/

/-- How a search goes on once these threads wait. -/
def advance (a : Automaton) (text : Source) (fuel pos : Nat) (ws : List Waiting)
    (best : Option Span) : Option Span :=
  match text[pos]? with
  | none => kept pos ws best
  | some c => a.run text true fuel (pos + 1) (after c ws) (kept pos ws best)

/-- Without threads nothing better is found. -/
theorem run_nil (b : Span) : a.run text true fuel pos [] (some b) = some b := by
  cases fuel with
  | zero => rfl
  | succ fuel =>
    simp only [run, Option.isNone_some, Bool.and_false, Bool.false_eq_true, if_false, spread]
    cases text[pos]? with
    | none => rfl
    | some c => rfl

/-- To stop when no thread is left makes no difference. -/
theorem run_eq_advance (agenda : List Thread) (best : Option Span) :
    a.run text true (fuel + 1) pos agenda best =
      a.advance text fuel pos (a.settle text pos (a.attempting true pos agenda best)) best := by
  rw [run_succ, advance]
  generalize a.settle text pos (a.attempting true pos agenda best) = ws
  cases text[pos]? with
  | none => rfl
  | some c =>
    dsimp only
    split
    · next hstop =>
      rw [Bool.and_eq_true, List.isEmpty_iff, Bool.not_true, Bool.false_or,
        Option.isSome_iff_exists] at hstop
      obtain ⟨hnil, b, hb⟩ := hstop
      rw [hnil, hb, run_nil]
    · rfl

theorem start_of_mem_settle {agenda : List Thread} (h : ∀ t ∈ agenda, t.start = since) :
    ∀ w ∈ a.settle text pos agenda, w.start = since := by
  intro w hw
  obtain ⟨t, ht, hstart⟩ := exists_start_of_mem_settle hw
  rw [← hstart]
  exact h t ht

theorem start_of_mem_after {c : Char} {ws : List Waiting} (h : ∀ w ∈ ws, w.start = since) :
    ∀ t ∈ after c ws, t.start = since := by
  intro t ht
  obtain ⟨w, hw, hstart⟩ := exists_start_of_mem_after ht
  rw [hstart]
  exact h w hw

/-- Once a match has been found, only threads in front can find another. -/
theorem start_of_run {agenda : List Thread} {b : Span} (hagenda : ∀ t ∈ agenda, t.start = since)
    (hb : b.start = since) :
    ∃ s, a.run text true fuel pos agenda (some b) = some s ∧ s.start = since := by
  induction fuel generalizing pos agenda b with
  | zero => exact ⟨b, rfl, hb⟩
  | succ fuel ih =>
    have hattempting : a.attempting true pos agenda (some b) = agenda := rfl
    have hwaits : ∀ w ∈ a.settle text pos agenda, w.start = since := start_of_mem_settle hagenda
    obtain ⟨b', hkept, hb'⟩ :
        ∃ b', kept pos (a.settle text pos agenda) (some b) = some b' ∧ b'.start = since := by
      rw [kept]
      split
      · next w hw => exact ⟨_, rfl, hwaits w (List.mem_of_find?_eq_some hw)⟩
      · exact ⟨b, rfl, hb⟩
    rw [run_eq_advance, hattempting, advance, hkept]
    cases text[pos]? with
    | none => exact ⟨b', rfl, hb'⟩
    | some c => exact ih (start_of_mem_after hwaits) hb'

/-! ### Attempts that come to nothing -/

theorem kept_append {ws : List Waiting} (h : ∀ w ∈ ws, w.accepts = false) (pos : Nat)
    (vs : List Waiting) (best : Option Span) : kept pos (ws ++ vs) best = kept pos vs best := by
  have hnone : ws.find? (·.accepts) = none := by
    rw [List.find?_eq_none]
    intro w hw
    simp [h w hw]
  rw [kept, List.find?_append, hnone, Option.none_or, kept]

theorem after_of_not {c : Char} {ws : List Waiting} (h : ∀ w ∈ ws, w.accepts = false) :
    after c ws = ws.filterMap (·.take? c) := by
  rw [after, List.takeWhile_eq_self_iff.mpr]
  intro w hw
  rw [h w hw]
  rfl

theorem after_append {c : Char} {ws vs : List Waiting} (h : ∀ w ∈ ws, w.accepts = false) :
    after c (ws ++ vs) = after c ws ++ after c vs := by
  have hall : ∀ w ∈ ws, (!w.accepts) = true := by
    intro w hw
    rw [h w hw]
    rfl
  rw [after, List.takeWhile_append_of_pos hall, List.filterMap_append, after_of_not h, after]

/-- Where a thread has found a match, those behind it count no more. -/
theorem kept_append_of_accepts {ws : List Waiting} (h : ∃ w ∈ ws, w.accepts = true) (pos : Nat)
    (vs : List Waiting) (best : Option Span) :
    ∃ w ∈ ws, kept pos (ws ++ vs) best = some ⟨w.start, pos⟩ := by
  obtain ⟨w, hw⟩ := Option.isSome_iff_exists.mp (List.find?_isSome.mpr h)
  refine ⟨w, List.mem_of_find?_eq_some hw, ?_⟩
  rw [kept, List.find?_append, hw, Option.some_or]

theorem after_append_of_accepts {ws : List Waiting} (h : ∃ w ∈ ws, w.accepts = true) (c : Char)
    (vs : List Waiting) : after c (ws ++ vs) = after c ws := by
  rw [after, List.takeWhile_append, if_neg, after]
  intro hlen
  have hself := (List.takeWhile_prefix (fun w : Waiting => !w.accepts)).eq_of_length hlen
  obtain ⟨w, hw, hacc⟩ := h
  have hnot := List.takeWhile_eq_self_iff.mp hself w hw
  simp [hacc] at hnot

theorem accepts_eq_of_state {v w : Waiting} (h : v.state = w.state) : v.accepts = w.accepts := by
  rw [Waiting.accepts, h, Waiting.accepts]

/-- What a thread takes only depends on the state it waits in. -/
theorem state_of_take? {c : Char} {v w : Waiting} {t : Thread} (h : v.state = w.state)
    (ht : v.take? c = some t) : ∃ u, w.take? c = some u ∧ u.state = t.state := by
  rw [Waiting.take?, h] at ht
  rw [Waiting.take?]
  split at ht
  · split at ht
    · next hc =>
      cases ht
      exact ⟨_, if_pos hc, rfl⟩
    · cases ht
  · cases ht

/-- When a thread in front has found a match, the search ends with one of those threads. -/
theorem start_of_advance {us : List Waiting} (hus : ∀ w ∈ us, w.start = since)
    (hacc : ∃ w ∈ us, w.accepts = true) (vs : List Waiting) (best : Option Span) :
    ∃ s, a.advance text fuel pos (us ++ vs) best = some s ∧ s.start = since := by
  obtain ⟨w, hw, hkept⟩ := kept_append_of_accepts hacc pos vs best
  have hstart : (⟨w.start, pos⟩ : Span).start = since := hus w hw
  rw [advance, hkept]
  cases text[pos]? with
  | none => exact ⟨_, rfl, hstart⟩
  | some c =>
    dsimp only
    rw [after_append_of_accepts hacc]
    exact start_of_run (start_of_mem_after hus) hstart

theorem padded_attempting {P : Thread → Prop} {xs ys : List Thread} (h : Padded P xs ys)
    (best : Option Span) :
    Padded P (a.attempting true pos xs best) (a.attempting true pos ys best) := by
  rw [attempting, attempting]
  split
  · exact h.append (.refl _ _)
  · exact h

theorem attempting_append (front xs : List Thread) (best : Option Span) :
    a.attempting true pos (front ++ xs) best = front ++ a.attempting true pos xs best := by
  rw [attempting, attempting]
  split
  · rw [List.append_assoc]
  · rfl

/-- The threads after a character are padded as those that waited were. -/
theorem padded_after {us vs zs : List Waiting} (hquiet : ∀ w ∈ us, w.accepts = false)
    (h : Padded (fun w => w.state ∈ us.map (·.state)) vs zs) (c : Char) :
    Padded (fun t => t.state ∈ (after c us).map (·.state)) (after c vs) (after c zs) := by
  refine Padded.filterMap (P := fun w => w.state ∈ us.map (·.state)) (h.takeWhile ?_) ?_
  · intro w hw
    obtain ⟨v, hv, hstate⟩ := List.mem_map.mp hw
    rw [← accepts_eq_of_state hstate, hquiet v hv]
    rfl
  · intro w t hw htake
    obtain ⟨v, hv, hstate⟩ := List.mem_map.mp hw
    obtain ⟨u, hu, hstate'⟩ := state_of_take? hstate.symm htake
    rw [after_of_not hquiet]
    exact List.mem_map.mpr ⟨u, List.mem_filterMap.mpr ⟨v, hv, hu⟩, hstate'⟩

/-- **Threads in front that come to nothing can be left out.**  The run without them may have
further threads behind, in states where it has one of those. -/
theorem run_drop_front {front xs ys : List Thread} {best : Option Span}
    (hfront : ∀ t ∈ front, t.start = since)
    (hpad : Padded (fun t => t.state ∈ front.map (·.state)) xs ys)
    (hnone : ∀ s, a.run text true fuel pos (front ++ xs) best = some s → s.start ≠ since) :
    a.run text true fuel pos (front ++ xs) best = a.run text true fuel pos ys best := by
  induction fuel generalizing pos front xs ys best with
  | zero => rfl
  | succ fuel ih =>
    rw [run_eq_advance, attempting_append] at hnone
    rw [run_eq_advance, run_eq_advance, attempting_append]
    -- the waiting threads, with those that come from the threads in front apart
    obtain ⟨seen', hall⟩ := a.spreads_settle text pos (front ++ a.attempting true pos xs best)
    obtain ⟨seen'', hys⟩ := a.spreads_settle text pos (a.attempting true pos ys best)
    obtain ⟨us, vs, between, hws, hus, hvs⟩ := hall.exists_of_append
    generalize a.settle text pos (a.attempting true pos ys best) = zs at hys ⊢
    rw [hws] at hnone ⊢
    have hstarts : ∀ w ∈ us, w.start = since := by
      intro w hw
      obtain ⟨t, ht, hstart⟩ := hus.exists_start w hw
      rw [← hstart]
      exact hfront t ht
    have hpadded : Padded (fun w => w.state ∈ us.map (·.state)) vs zs := by
      refine Spreads.padded (fun q hq => hus.isSettled hq (Nat.zero_testBit q)) hvs hys ?_ ?_
      · refine padded_attempting (hpad.mono fun t ht => ?_) best
        obtain ⟨u, hu, hstate⟩ := List.mem_map.mp ht
        rw [← hstate]
        exact hus.testBit_of_mem u hu
      · intro q
        simp
    have hquiet : ∀ w ∈ us, w.accepts = false := by
      intro w hw
      by_contra hacc
      rw [Bool.not_eq_false] at hacc
      obtain ⟨s, hs, hstart⟩ := start_of_advance hstarts ⟨w, hw, hacc⟩ vs best
      exact hnone s hs hstart
    have hkept : kept pos (us ++ vs) best = kept pos zs best := by
      rw [kept_append hquiet, kept, kept, hpadded.find?_eq fun w hw => ?_]
      obtain ⟨v, hv, hstate⟩ := List.mem_map.mp hw
      rw [← accepts_eq_of_state hstate]
      exact hquiet v hv
    rw [advance, hkept] at hnone
    rw [advance, advance, hkept]
    cases hc : text[pos]? with
    | none => rfl
    | some c =>
      rw [hc] at hnone
      dsimp only at hnone ⊢
      rw [after_append hquiet] at hnone ⊢
      exact ih (start_of_mem_after hstarts) (padded_after hquiet hpadded c) hnone

/-! ### Searches -/

/-- **A search that finds no match where it begins could as well begin behind that.** -/
theorem find_succ (a : Automaton) (hpos : pos ≤ text.size)
    (h : ∀ s, a.find text pos = some s → s.start ≠ pos) :
    a.find text pos = a.find text (pos + 1) := by
  have hfuel : text.size + 1 - pos = (text.size + 1 - (pos + 1)) + 1 := by omega
  have hfirst : a.attempting true pos [] none = [⟨a.start, pos⟩] := rfl
  have hstarts : ∀ w ∈ a.settle text pos [⟨a.start, pos⟩], w.start = pos := by
    apply start_of_mem_settle
    intro t ht
    rw [List.mem_singleton.mp ht]
  rw [find, hfuel, run_eq_advance, hfirst] at h ⊢
  have hquiet : ∀ w ∈ a.settle text pos [⟨a.start, pos⟩], w.accepts = false := by
    intro w hw
    by_contra hacc
    rw [Bool.not_eq_false] at hacc
    obtain ⟨s, hs, hstart⟩ := start_of_advance hstarts ⟨w, hw, hacc⟩ [] none
    rw [List.append_nil] at hs
    exact h s hs hstart
  have hkept : kept pos (a.settle text pos [⟨a.start, pos⟩]) none = none := by
    have hnil := kept_append hquiet pos [] none
    rwa [List.append_nil] at hnil
  rw [advance, hkept] at h ⊢
  cases hc : text[pos]? with
  | none =>
    have hsize : text.size ≤ pos := Array.getElem?_eq_none_iff.mp hc
    exact (a.find_of_gt (by omega)).symm
  | some c =>
    rw [hc] at h
    have hdrop := run_drop_front (start_of_mem_after hstarts) (.refl _ [])
      (by rw [List.append_nil]; exact h)
    rwa [List.append_nil] at hdrop

end Automaton

/-- **Searches of a matcher are steady.** -/
theorem Matcher.isSteady (m : Matcher) (text : Source) :
    Search.IsSteady text.size (m.find text ·) := by
  cases m with
  | listing r => exact Search.isSteady_ofEnds.congr fun _ => rfl
  | running a =>
    exact Search.isSteady_of_succ (fun _ h => a.find_of_gt h) fun _ h hne => a.find_succ h hne

end Highlighting
