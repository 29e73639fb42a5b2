/-
  Highlighting/Proofs/Regex/Reaching.lean
  =======================================
  **What a run finds at a position.**

  A matcher can be asked for the leftmost match, or for the preferred match that
  starts at one position.  An automaton answers the first by a run with a new
  attempt at each position, and the second by one attempt alone.  In the first
  run, the threads of the foremost attempt come before all others, so that they
  spread as if they were alone; and when one of them accepts, the others end
  (`agree_run`).  So a match that starts where the search does is the one that
  is preferred there (`Matcher.endAt?_find`).

  The order of the threads decides which match is preferred, and a thread gives
  way where another has been before.  What can be reached at all does not
  depend on that (`Automaton.Reaches`): of two threads in one state, what the
  second comes to the first comes to as well.  So a run ends where a state can
  be reached that accepts, and finds something wherever there is such a way
  (`reaches_of_firstEnd?`, `isSome_firstEnd?`).
-/
import Highlighting.Proofs.Regex.Steady

namespace Highlighting

/-! ### Attempts at one position -/

section Anchored

open Search

namespace Automaton

variable {a : Automaton} {text : Source} {pos fuel since : Nat}

/-! ### Runs of one attempt -/

/-- An agenda comes to one list of waiting threads only. -/
theorem Spreads.unique {agenda : List Thread} {seen seen₁ seen₂ : Nat} {us vs : List Waiting}
    (h₁ : Spreads a text pos agenda seen us seen₁) (h₂ : Spreads a text pos agenda seen vs seen₂) :
    us = vs ∧ seen₁ = seen₂ := by
  induction h₁ generalizing vs seen₂ with
  | done =>
    cases h₂
    exact ⟨rfl, rfl⟩
  | closed hseen _ ih =>
    cases h₂ with
    | closed _ h₂ => exact ih h₂
    | goes hopen _ =>
      rw [hseen] at hopen
      cases hopen
  | goes hopen _ ih =>
    cases h₂ with
    | closed hseen _ =>
      rw [hopen] at hseen
      cases hseen
    | goes _ h₂ =>
      obtain ⟨rfl, rfl⟩ := ih h₂
      exact ⟨rfl, rfl⟩

/-- **Threads in front spread as if they were alone.** -/
theorem exists_settle_append (a : Automaton) (text : Source) (pos : Nat) (front xs : List Thread) :
    ∃ vs, a.settle text pos (front ++ xs) = a.settle text pos front ++ vs ∧
      ∀ w ∈ vs, ∃ t ∈ xs, t.start = w.start := by
  obtain ⟨seen, hall⟩ := a.spreads_settle text pos (front ++ xs)
  obtain ⟨seen', hfront⟩ := a.spreads_settle text pos front
  obtain ⟨us, vs, between, hws, hus, hvs⟩ := hall.exists_of_append
  obtain ⟨rfl, -⟩ := hus.unique hfront
  exact ⟨vs, hws, hvs.exists_start⟩

/-- A single attempt goes on like a search that has found something. -/
def advanceAlone (a : Automaton) (text : Source) (fuel pos : Nat) (ws : List Waiting)
    (best : Option Span) : Option Span :=
  match text[pos]? with
  | none => kept pos ws best
  | some c => a.run text false fuel (pos + 1) (after c ws) (kept pos ws best)

theorem run_alone_nil (best : Option Span) : a.run text false fuel pos [] best = best := by
  cases fuel with
  | zero => rfl
  | succ fuel =>
    rw [run_succ]
    show (match text[pos]? with | none => best | some c => _) = best
    cases text[pos]? with
    | none => rfl
    | some c => rfl

theorem run_alone_eq_advance (agenda : List Thread) (best : Option Span) :
    a.run text false (fuel + 1) pos agenda best =
      a.advanceAlone text fuel pos (a.settle text pos agenda) best := by
  rw [run_succ, advanceAlone]
  show (match text[pos]? with | none => _ | some c => _) = _
  have hagenda : a.attempting false pos agenda best = agenda := rfl
  rw [hagenda]
  cases text[pos]? with
  | none => rfl
  | some c =>
    dsimp only
    split
    · next hstop =>
      rw [Bool.and_eq_true, List.isEmpty_iff] at hstop
      rw [hstop.1, run_alone_nil]
    · rfl

/-- Once a match has been found, no attempt is added. -/
theorem run_found (agenda : List Thread) (b : Span) :
    a.run text true fuel pos agenda (some b) = a.run text false fuel pos agenda (some b) := by
  induction fuel generalizing pos agenda b with
  | zero => rfl
  | succ fuel ih =>
    rw [run_eq_advance, run_alone_eq_advance]
    have hagenda : a.attempting true pos agenda (some b) = agenda := rfl
    rw [hagenda, advance, advanceAlone]
    obtain ⟨b', hkept⟩ : ∃ b', kept pos (a.settle text pos agenda) (some b) = some b' := by
      rw [kept]
      split
      · exact ⟨_, rfl⟩
      · exact ⟨b, rfl⟩
    rw [hkept]
    cases text[pos]? with
    | none => rfl
    | some c => exact ih _ b'

/-! ### A search and its foremost attempt -/

/-- What the attempt at a position finds, the search finds as well; and if it finds nothing, the
search finds nothing that starts there. -/
inductive Agree (since : Nat) : Option Span → Option Span → Prop
  | both {s : Span} (h : s.start = since) : Agree since (some s) (some s)
  | behind {found : Option Span} (h : ∀ s, found = some s → s.start ≠ since) :
      Agree since none found

theorem kept_eq_of_accepts {us : List Waiting} (h : ∃ w ∈ us, w.accepts = true) (pos : Nat)
    (vs : List Waiting) (best : Option Span) :
    ∃ w ∈ us, kept pos (us ++ vs) best = some ⟨w.start, pos⟩ ∧
      kept pos us none = some ⟨w.start, pos⟩ := by
  obtain ⟨w, hw⟩ := Option.isSome_iff_exists.mp (List.find?_isSome.mpr h)
  refine ⟨w, List.mem_of_find?_eq_some hw, ?_, ?_⟩
  · rw [kept, List.find?_append, hw, Option.some_or]
  · rw [kept, hw]

/-- One position of both runs, of which the second has further threads behind. -/
theorem agree_advance {us vs : List Waiting} {best : Option Span}
    (hrun : ∀ {front xs : List Thread} {best : Option Span},
      (∀ t ∈ front, t.start = since) → (∀ t ∈ xs, t.start ≠ since) →
      (∀ b, best = some b → b.start ≠ since) →
      Agree since (a.run text false fuel (pos + 1) front none)
        (a.run text true fuel (pos + 1) (front ++ xs) best))
    (hus : ∀ w ∈ us, w.start = since) (hvs : ∀ w ∈ vs, w.start ≠ since)
    (hbest : ∀ b, best = some b → b.start ≠ since) :
    Agree since (a.advanceAlone text fuel pos us none)
      (a.advance text fuel pos (us ++ vs) best) := by
  rw [advanceAlone, advance]
  by_cases hacc : ∃ w ∈ us, w.accepts = true
  · -- all that is left are threads of the attempt
    obtain ⟨w, hw, hkept, hkept'⟩ := kept_eq_of_accepts hacc pos vs best
    have hstart : (⟨w.start, pos⟩ : Span).start = since := hus w hw
    rw [hkept, hkept']
    cases text[pos]? with
    | none => exact .both hstart
    | some c =>
      dsimp only
      rw [after_append_of_accepts hacc, ← run_found]
      obtain ⟨s, hs, hsince⟩ : ∃ s, a.run text true fuel (pos + 1) (after c us)
          (some ⟨w.start, pos⟩) = some s ∧ s.start = since :=
        start_of_run (start_of_mem_after hus) hstart
      rw [hs]
      exact .both hsince
  · have hquiet : ∀ w ∈ us, w.accepts = false := by
      intro w hw
      by_contra h
      exact hacc ⟨w, hw, eq_true_of_ne_false h⟩
    have hnone : kept pos us none = none := by
      have hnil := kept_append hquiet pos [] none
      rwa [List.append_nil] at hnil
    have hbest' : ∀ b, kept pos vs best = some b → b.start ≠ since := by
      intro b hb
      rcases exists_start_of_kept hb with ⟨w, hw, rfl⟩ | hb
      · exact hvs w hw
      · exact hbest b hb
    rw [kept_append hquiet, hnone]
    cases text[pos]? with
    | none => exact .behind hbest'
    | some c =>
      dsimp only
      rw [after_append hquiet]
      refine hrun (start_of_mem_after hus) ?_ hbest'
      intro t ht
      obtain ⟨w, hw, hstart⟩ := exists_start_of_mem_after ht
      rw [hstart]
      exact hvs w hw

/-- **The foremost attempt decides**, as long as the threads behind it started elsewhere. -/
theorem agree_run {front xs : List Thread} {best : Option Span} (hpos : since < pos)
    (hfront : ∀ t ∈ front, t.start = since) (hxs : ∀ t ∈ xs, t.start ≠ since)
    (hbest : ∀ b, best = some b → b.start ≠ since) :
    Agree since (a.run text false fuel pos front none)
      (a.run text true fuel pos (front ++ xs) best) := by
  induction fuel generalizing pos front xs best with
  | zero => exact .behind hbest
  | succ fuel ih =>
    rw [run_alone_eq_advance, run_eq_advance, attempting_append]
    obtain ⟨vs, hsettle, hvs⟩ := a.exists_settle_append text pos front
      (a.attempting true pos xs best)
    rw [hsettle]
    refine agree_advance (ih (Nat.lt_succ_of_lt hpos)) (start_of_mem_settle hfront) ?_ hbest
    intro w hw
    obtain ⟨t, ht, hstart⟩ := hvs w hw
    rw [← hstart]
    rcases mem_attempting ht with ht | rfl
    · exact hxs t ht
    · exact Nat.ne_of_gt hpos

/-- **What a search finds where it begins is what is preferred there.** -/
theorem endAt?_find (a : Automaton) (hpos : pos ≤ text.size) :
    endAt? (a.find text ·) pos = a.firstEnd? text pos := by
  have hfuel : text.size + 1 - pos = (text.size - pos) + 1 := by omega
  have hagenda : a.attempting true pos [] none = [⟨a.start, pos⟩] := rfl
  have hstarts : ∀ w ∈ a.settle text pos [⟨a.start, pos⟩], w.start = pos := by
    apply start_of_mem_settle
    intro t ht
    rw [List.mem_singleton.mp ht]
  have hagree : Agree pos (a.advanceAlone text (text.size - pos) pos _ none)
      (a.advance text (text.size - pos) pos (_ ++ []) none) :=
    agree_advance (agree_run (Nat.lt_succ_self pos)) hstarts (by simp) (by simp)
  rw [List.append_nil] at hagree
  rw [endAt?, find, firstEnd?, hfuel, run_eq_advance, hagenda, run_alone_eq_advance]
  generalize a.advanceAlone text (text.size - pos) pos _ none = alone at hagree
  generalize a.advance text (text.size - pos) pos _ none = found at hagree
  cases hagree with
  | both h => exact if_pos h
  | @behind found h =>
    cases found with
    | none => rfl
    | some s => exact if_neg (h s rfl)

end Automaton

/-- **What a search finds where it begins is what is preferred there.** -/
theorem Matcher.endAt?_find (m : Matcher) {text : Source} {pos : Nat} (hpos : pos ≤ text.size) :
    endAt? (m.find text ·) pos = m.firstEnd? text pos := by
  cases m with
  | listing r => exact endAt?_ofEnds hpos
  | running a => exact a.endAt?_find hpos

end Anchored

namespace Automaton

variable {a : Automaton} {text : Source} {p pos q e next fuel seen seen' : Nat} {s : AutomatonState}
  {agenda : List Thread} {ws : List Waiting}

/-! ### Ways through the states -/

/-- A thread in the state can go on from the position so that it accepts at the end. -/
inductive Reaches (a : Automaton) (text : Source) : Nat → Nat → Nat → Prop
  | accept {q p : Nat} (hq : a.states[q]? = some .accept) : Reaches a text q p p
  | goes {q r p e : Nat} (hr : r ∈ a.onward text p q) (h : Reaches a text r p e) :
      Reaches a text q p e
  | takes {q next p e : Nat} {s : CharSet} {c : Char} (hq : a.states[q]? = some (.take s next))
      (hc : text[p]? = some c) (hs : s.contains c = true) (h : Reaches a text next (p + 1) e) :
      Reaches a text q p e

/-- What a thread that waits in the state can come to. -/
def Awaits (a : Automaton) (text : Source) (p e : Nat) : AutomatonState → Prop
  | .accept => e = p
  | .take s next => ∃ c, text[p]? = some c ∧ s.contains c = true ∧ a.Reaches text next (p + 1) e
  | .check _ _ | .split _ _ => False

theorem mem_resting : s ∈ a.resting q ↔
    a.states[q]? = some s ∧ (s = .accept ∨ ∃ cs next, s = .take cs next) := by
  rw [resting]
  cases a.states[q]? with
  | none => simp
  | some s' => cases s' <;> simp +contextual [eq_comm]

theorem reaches_of_mem_resting (hs : s ∈ a.resting q) (h : a.Awaits text p e s) :
    a.Reaches text q p e := by
  obtain ⟨hq, rfl | ⟨cs, next, rfl⟩⟩ := mem_resting.mp hs
  · obtain rfl : e = p := h
    exact .accept hq
  · obtain ⟨c, hc, hcs, hnext⟩ := h
    exact .takes hq hc hcs hnext

theorem reaches_accept (hq : a.states[q]? = some .accept) : a.Reaches text q p e ↔ e = p := by
  constructor
  · rintro (haccept | ⟨hr, -⟩ | ⟨hq', -, -, -⟩)
    · rfl
    · rw [onward, hq] at hr
      cases hr
    · cases hq.symm.trans hq'
  · rintro rfl
    exact .accept hq

/-! ### Runs -/

/-- What a waiting thread can come to, a thread of the agenda can. -/
theorem Spreads.exists_reaches (h : Spreads a text pos agenda seen ws seen') {w : Waiting}
    (hw : w ∈ ws) (hwaits : a.Awaits text pos e w.state) :
    ∃ t ∈ agenda, a.Reaches text t.state pos e := by
  induction h with
  | done => cases hw
  | closed _ _ ih =>
    obtain ⟨t, ht, hreaches⟩ := ih hw
    exact ⟨t, List.mem_cons_of_mem _ ht, hreaches⟩
  | @goes t agenda _ _ _ _ _ ih =>
    rcases List.mem_append.mp hw with hw | hw
    · obtain ⟨s, hs, rfl⟩ := List.mem_map.mp hw
      exact ⟨t, List.mem_cons_self, reaches_of_mem_resting hs hwaits⟩
    · obtain ⟨u, hu, hreaches⟩ := ih hw
      rcases List.mem_append.mp hu with hu | hu
      · obtain ⟨q, hq, rfl⟩ := List.mem_map.mp hu
        exact ⟨t, List.mem_cons_self, .goes hq hreaches⟩
      · exact ⟨u, List.mem_cons_of_mem _ hu, hreaches⟩

/-- **What a closed state can come to, a waiting thread can.**  The induction is on the way: each
state on it is closed in the end, as the one before leads there. -/
theorem Spreads.exists_awaits (h : Spreads a text pos agenda 0 ws seen')
    (hq : seen'.testBit q = true) (hreaches : a.Reaches text q pos e) :
    ∃ w ∈ ws, a.Awaits text pos e w.state := by
  have hresting : ∀ {q s}, seen'.testBit q = true → s ∈ a.resting q →
      a.Awaits text pos e s → ∃ w ∈ ws, a.Awaits text pos e w.state := by
    intro q s hq hs hawaits
    obtain ⟨w, hw, rfl⟩ :=
      List.mem_map.mp ((h.isSettled hq (Nat.zero_testBit q)).resting s hs)
    exact ⟨w, hw, hawaits⟩
  induction hreaches with
  | accept haccept => exact hresting hq (mem_resting.mpr ⟨haccept, .inl rfl⟩) rfl
  | goes hr _ ih => exact ih h ((h.isSettled hq (Nat.zero_testBit _)).onward _ hr) hresting
  | takes hstate hc hs hnext =>
    exact hresting hq (mem_resting.mpr ⟨hstate, .inr ⟨_, _, rfl⟩⟩) ⟨_, hc, hs, hnext⟩

theorem exists_awaits_of_kept {best : Option Span} {found : Span}
    (h : kept pos ws best = some found) :
    (∃ w ∈ ws, a.Awaits text pos found.stop w.state) ∨ best = some found := by
  rw [kept] at h
  split at h
  · next w hw =>
    have hacc : w.accepts = true := List.find?_some hw
    have haccept : w.state = .accept := eq_of_beq hacc
    cases h
    refine .inl ⟨w, List.mem_of_find?_eq_some hw, ?_⟩
    rw [haccept]
    rfl
  · exact .inr h

theorem exists_awaits_of_mem_after {c : Char} {t : Thread} (hc : text[pos]? = some c)
    (ht : t ∈ after c ws) (h : a.Reaches text t.state (pos + 1) e) :
    ∃ w ∈ ws, a.Awaits text pos e w.state := by
  obtain ⟨w, hw, htake⟩ := List.mem_filterMap.mp ht
  refine ⟨w, (List.takeWhile_sublist _).subset hw, ?_⟩
  rw [Waiting.take?] at htake
  split at htake
  · next cs next hstate =>
    split at htake
    · next hcs =>
      cases htake
      rw [hstate]
      exact ⟨c, hc, hcs, h⟩
    · cases htake
  · cases htake

/-- **A run ends where one of its threads can accept**, if it finds more than it had. -/
theorem exists_reaches_of_run {best : Option Span} {found : Span}
    (h : a.run text false fuel pos agenda best = some found) :
    (∃ t ∈ agenda, a.Reaches text t.state pos found.stop) ∨ best = some found := by
  induction fuel generalizing pos agenda best with
  | zero => exact .inr h
  | succ fuel ih =>
    obtain ⟨seen', hspreads⟩ := a.spreads_settle text pos agenda
    have hkept : kept pos (a.settle text pos agenda) best = some found →
        (∃ t ∈ agenda, a.Reaches text t.state pos found.stop) ∨ best = some found := by
      intro h
      rcases exists_awaits_of_kept h with ⟨w, hw, hawaits⟩ | h
      · exact .inl (hspreads.exists_reaches hw hawaits)
      · exact .inr h
    rw [run_alone_eq_advance, advanceAlone] at h
    cases hc : text[pos]? with
    | none =>
      rw [hc] at h
      exact hkept h
    | some c =>
      rw [hc] at h
      rcases ih h with ⟨t, ht, hreaches⟩ | h
      · obtain ⟨w, hw, hawaits⟩ := exists_awaits_of_mem_after hc ht hreaches
        exact .inl (hspreads.exists_reaches hw hawaits)
      · exact hkept h

/-- What has been found is only ever replaced. -/
theorem isSome_run (b : Span) : (a.run text false fuel pos agenda (some b)).isSome = true := by
  induction fuel generalizing pos agenda b with
  | zero => rfl
  | succ fuel ih =>
    obtain ⟨b', hkept⟩ : ∃ b', kept pos (a.settle text pos agenda) (some b) = some b' := by
      rw [kept]
      split
      · exact ⟨_, rfl⟩
      · exact ⟨b, rfl⟩
    rw [run_alone_eq_advance, advanceAlone, hkept]
    cases text[pos]? with
    | none => rfl
    | some c => exact ih b'

/-- **A run finds something where one of its threads can accept.** -/
theorem isSome_run_of_reaches {best : Option Span} {t : Thread} (hpos : pos ≤ text.size)
    (hfuel : pos + fuel = text.size + 1) (ht : t ∈ agenda) (h : a.Reaches text t.state pos e) :
    (a.run text false fuel pos agenda best).isSome = true := by
  induction fuel generalizing pos agenda best t with
  | zero => omega
  | succ fuel ih =>
    obtain ⟨seen', hspreads⟩ := a.spreads_settle text pos agenda
    obtain ⟨w, hw, hawaits⟩ := hspreads.exists_awaits (hspreads.testBit_of_mem t ht) h
    rw [run_alone_eq_advance, advanceAlone]
    by_cases hacc : ∃ w ∈ a.settle text pos agenda, w.accepts = true
    · obtain ⟨w, -, hkept, -⟩ := kept_eq_of_accepts hacc pos [] best
      rw [List.append_nil] at hkept
      rw [hkept]
      cases text[pos]? with
      | none => rfl
      | some c => exact isSome_run _
    · have hquiet : ∀ w ∈ a.settle text pos agenda, w.accepts = false := by
        intro w hw
        by_contra h
        exact hacc ⟨w, hw, eq_true_of_ne_false h⟩
      -- the thread that comes to the end takes the character
      cases hstate : w.state with
      | accept =>
        have hnot := hquiet w hw
        rw [Waiting.accepts, hstate] at hnot
        cases hnot
      | take cs next =>
        rw [hstate] at hawaits
        obtain ⟨c, hc, hcs, hreaches⟩ := hawaits
        have hlt : pos < text.size := (Array.getElem?_eq_some_iff.mp hc).1
        have hnext : (⟨next, w.start⟩ : Thread) ∈ after c (a.settle text pos agenda) := by
          rw [after_of_not hquiet]
          refine List.mem_filterMap.mpr ⟨w, hw, ?_⟩
          rw [Waiting.take?, hstate]
          exact if_pos hcs
        rw [hc]
        exact ih hlt (by omega) hnext hreaches
      | check _ _ | split _ _ =>
        rw [hstate] at hawaits
        exact hawaits.elim

theorem reaches_of_firstEnd? (h : a.firstEnd? text p = some e) : a.Reaches text a.start p e := by
  obtain ⟨found, hfound, rfl⟩ := Option.map_eq_some_iff.mp h
  rcases exists_reaches_of_run hfound with ⟨t, ht, hreaches⟩ | hnone
  · rwa [List.mem_singleton.mp ht] at hreaches
  · cases hnone

theorem isSome_firstEnd? (hp : p ≤ text.size) (h : a.Reaches text a.start p e) :
    (a.firstEnd? text p).isSome = true := by
  rw [firstEnd?, Option.isSome_map]
  exact isSome_run_of_reaches hp (by omega) (List.mem_singleton_self _) h

end Automaton

end Highlighting
