/-
  Highlighting/Proofs/Regex/Lexemes.lean
  ======================================
  **Lexemes cut words out of a text in parts.**

  A lexeme that matches in two texts, one behind the other, what it matches in
  each of them (`Matcher.Parts`) cuts the same words out of both
  (`Matcher.Parts.findAll_append`).  For every cut is the leftmost match behind
  the one before (`Matcher.Cuts`), and there is only one way to cut.  So it is
  for one that takes at least one character and no line feed, when the first
  text ends with a line feed (`Matcher.parts_of_line`).
-/
import Highlighting.Proofs.Regex.Seam
import Highlighting.Proofs.Regex.Starts

namespace Highlighting

open Search

variable {u v text : Source} {m : Matcher} {pos stop : Nat} {s : Span} {ss ts : List Span}

namespace Matcher

/-! ### Leftmost matches -/

/-- The match takes a character, and neither takes a line feed nor sees whether one is before. -/
def staysInLine : Matcher → Bool
  | listing r => !r.nullable && r.spares '\n' && r.mayFollow '\n'
  | running _ => false

theorem lt_of_firstEnd? (hm : m.staysInLine = true) (hpos : pos ≤ text.size)
    (h : m.firstEnd? text pos = some stop) : pos < stop ∧ stop ≤ text.size := by
  cases m with
  | running a => cases hm
  | listing r =>
    simp only [staysInLine, Bool.and_eq_true, Bool.not_eq_true'] at hm
    have hmem : stop ∈ r.ends text pos := List.mem_of_mem_head? h
    exact ⟨r.lt_of_mem_ends hm.1.1 hpos hmem, (r.within_of_mem_ends hpos hmem).2⟩

/-- Such a lexeme is searched for by its ends. -/
theorem find_eq_ofEnds (hm : m.staysInLine = true) (text : Source) :
    m.find text = ofEnds text.size (m.firstEnd? text) := by
  cases m with
  | running a => cases hm
  | listing r => rfl

theorem lt_of_find (hm : m.staysInLine = true) (h : m.find text pos = some s) :
    pos ≤ s.start ∧ s.start < s.stop ∧ s.stop ≤ text.size := by
  rw [find_eq_ofEnds hm, ofEnds_eq_some_iff] at h
  obtain ⟨hpos, hsize, hend, -⟩ := h
  obtain ⟨hlt, hle⟩ := lt_of_firstEnd? hm hsize hend
  exact ⟨hpos, hlt, hle⟩

/-! ### Two parts -/

/-- The lexeme takes characters only, and matches in a text of two parts what it matches in each of
them. -/
structure Parts (m : Matcher) (u v : Source) : Prop where
  staysInLine : m.staysInLine = true
  front : ∀ p < u.size, m.firstEnd? (u ++ v) p = m.firstEnd? u p
  rest : ∀ p, m.firstEnd? (u ++ v) (u.size + p) = (m.firstEnd? v p).map (u.size + ·)

theorem parts_of_line (hm : m.staysInLine = true) (hline : Source.EndsWith '\n' u) (v : Source) :
    m.Parts u v := by
  cases m with
  | running a => cases hm
  | listing r =>
    have hstays := hm
    simp only [staysInLine, Bool.and_eq_true] at hstays
    refine ⟨hm, fun p hp => ?_, fun p => ?_⟩
    · exact congrArg List.head? (r.ends_append_of_spares hline hstays.1.2 hp)
    · show ((r.ends (u ++ v) (u.size + p)).head?) = _
      rw [r.ends_append_add hline hstays.2 p, List.head?_map]
      rfl

namespace Parts

variable (h : m.Parts u v)
include h

theorem find_of_some (hs : m.find u pos = some s) : m.find (u ++ v) pos = some s := by
  have hlt := lt_of_find h.staysInLine hs
  rw [find_eq_ofEnds h.staysInLine, ofEnds_eq_some_iff] at hs ⊢
  obtain ⟨hpos, hsize, hend, hfirst⟩ := hs
  refine ⟨hpos, ?_, ?_, ?_⟩
  · rw [Array.size_append]
    omega
  · rw [h.front _ (by omega)]
    exact hend
  · intro p hp hps
    rw [h.front _ (by omega)]
    exact hfirst p hp hps

theorem find_add (pos : Nat) :
    m.find (u ++ v) (u.size + pos) = (m.find v pos).map (Span.shift u.size) := by
  rw [find_eq_ofEnds h.staysInLine, find_eq_ofEnds h.staysInLine]
  cases hv : ofEnds v.size (m.firstEnd? v) pos with
  | none =>
    rw [ofEnds_eq_none_iff] at hv
    refine ofEnds_eq_none_iff.mpr fun p hp hsize => ?_
    obtain ⟨p, rfl⟩ := Nat.exists_eq_add_of_le (Nat.le_trans (Nat.le_add_right _ _) hp)
    rw [Array.size_append] at hsize
    rw [h.rest, hv p (by omega) (by omega)]
    rfl
  | some s =>
    obtain ⟨hpos, hsize, hend, hfirst⟩ := ofEnds_eq_some_iff.mp hv
    refine ofEnds_eq_some_iff.mpr ⟨Nat.add_le_add_left hpos _, ?_, ?_, ?_⟩
    · rw [Array.size_append]
      exact Nat.add_le_add_left hsize _
    · show m.firstEnd? (u ++ v) (u.size + s.start) = _
      rw [h.rest, hend]
      rfl
    · intro p hp hps
      obtain ⟨p, rfl⟩ := Nat.exists_eq_add_of_le (Nat.le_trans (Nat.le_add_right _ _) hp)
      have hps' : u.size + p < u.size + s.start := hps
      rw [h.rest, hfirst p (by omega) (by omega)]
      rfl

theorem find_of_none (hpos : pos ≤ u.size) (hnone : m.find u pos = none) :
    m.find (u ++ v) pos = (m.find v 0).map (Span.shift u.size) := by
  rw [← h.find_add 0, Nat.add_zero]
  rw [find_eq_ofEnds h.staysInLine, ofEnds_eq_none_iff] at hnone
  rw [find_eq_ofEnds h.staysInLine]
  refine ofEnds_resume hpos fun p hp hlt => ?_
  rw [h.front p hlt]
  exact hnone p hp (Nat.le_of_lt hlt)

end Parts

/-! ### Cuts -/

/-- The spans are the successive leftmost matches from a position on. -/
inductive Cuts (m : Matcher) (text : Source) : Nat → List Span → Prop
  | done {pos : Nat} (h : m.find text pos = none) : Cuts m text pos []
  | next {pos : Nat} {s : Span} {ss : List Span} (h : m.find text pos = some s)
      (hrest : Cuts m text s.stop ss) : Cuts m text pos (s :: ss)

theorem Cuts.unique (h : Cuts m text pos ss) (h' : Cuts m text pos ts) : ss = ts := by
  induction h generalizing ts with
  | done hnone =>
    cases h' with
    | done => rfl
    | next hsome =>
      rw [hnone] at hsome
      cases hsome
  | next hsome _ ih =>
    cases h' with
    | done hnone =>
      rw [hnone] at hsome
      cases hsome
    | next hsome' hrest' =>
      obtain rfl := Option.some.inj (hsome.symm.trans hsome')
      rw [ih hrest']

theorem Cuts.lt (hm : m.staysInLine = true) (h : Cuts m text pos ss) (hs : s ∈ ss) :
    s.start < s.stop := by
  induction h with
  | done => cases hs
  | next hsome _ ih =>
    rcases List.mem_cons.mp hs with rfl | hs
    · exact (lt_of_find hm hsome).2.1
    · exact ih hs

/-- The passes of the search are the cuts, as long as there is fuel for each position. -/
theorem cuts_findAllFrom (hm : m.staysInLine = true) {fuel : Nat} (last : Option Nat)
    (hfuel : text.size < pos + fuel) (hpos : pos ≤ text.size) :
    Cuts m text pos (m.findAllFrom text fuel pos last) := by
  induction fuel generalizing pos last with
  | zero => omega
  | succ fuel ih =>
    unfold findAllFrom
    cases hfind : m.find text pos with
    | none => exact .done hfind
    | some s =>
      obtain ⟨hstart, hlt, hstop⟩ := lt_of_find hm hfind
      have hempty : s.isEmpty = false := decide_eq_false (Nat.not_le_of_lt hlt)
      simp only [hempty, Bool.false_and, Bool.false_eq_true, if_false]
      exact .next hfind (ih _ (by omega) hstop)

theorem cuts_findAll (hm : m.staysInLine = true) (text : Source) :
    Cuts m text 0 (m.findAll text) := cuts_findAllFrom hm none (by omega) (Nat.zero_le _)

/-- A lexeme takes a character. -/
theorem lt_of_mem_findAll (hm : m.staysInLine = true) (hs : s ∈ m.findAll text) :
    s.start < s.stop := (cuts_findAll hm text).lt hm hs

section Parts

variable (hparts : m.Parts u v)
include hparts

theorem Cuts.shift (h : Cuts m v pos ss) :
    Cuts m (u ++ v) (u.size + pos) (ss.map (Span.shift u.size)) := by
  induction h with
  | done hnone =>
    refine .done ?_
    rw [hparts.find_add, hnone]
    rfl
  | next hsome _ ih =>
    refine .next ?_ ih
    rw [hparts.find_add, hsome]
    rfl

theorem Cuts.append (h : Cuts m u pos ss) (hpos : pos ≤ u.size) (h' : Cuts m v 0 ts) :
    Cuts m (u ++ v) pos (ss ++ ts.map (Span.shift u.size)) := by
  induction h with
  | done hnone =>
    have hfind := hparts.find_of_none hpos hnone
    cases h' with
    | done hnone' =>
      rw [hnone'] at hfind
      exact .done hfind
    | next hsome hrest =>
      rw [hsome] at hfind
      exact .next hfind (hrest.shift hparts)
  | next hsome _ ih =>
    exact .next (hparts.find_of_some hsome) (ih (lt_of_find hparts.staysInLine hsome).2.2)

/-- **The words of each part are cut out of both.** -/
theorem Parts.findAll_append :
    m.findAll (u ++ v) = m.findAll u ++ (m.findAll v).map (Span.shift u.size) :=
  (cuts_findAll hparts.staysInLine _).unique
    ((cuts_findAll hparts.staysInLine u).append hparts (Nat.zero_le _)
      (cuts_findAll hparts.staysInLine v))

end Parts

end Matcher

end Highlighting
