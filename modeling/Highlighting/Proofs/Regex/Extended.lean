/-
  Highlighting/Proofs/Regex/Extended.lean
  =======================================
  **Extended expressions match within the text.**

  A plan is followed towards a goal, and all that it does is to hand cursors
  on.  So the bounds of what comes out in the end are a matter of the goal: a
  plan keeps its cursors where the goal wants them (`Plan.leads_follow`).  It
  may move back to look behind, but then what comes next is taken up again at
  the position from which it looked.

  A match can still be said to start anywhere, for `\K` moves the start.  Where
  searches are steady it does not (`Plan.isWithin_of_isSteady`).
-/
import Highlighting.Proofs.Regex.Bounds
import Highlighting.Regex.Extended.Match

namespace Highlighting

theorem Matcher.within_of_firstEnd? {text : Source} {pos stop : Nat} (m : Matcher)
    (hpos : pos ≤ text.size) (h : m.firstEnd? text pos = some stop) :
    pos ≤ stop ∧ stop ≤ text.size := by
  cases m with
  | listing r => exact r.within_of_firstEnd? hpos h
  | running a =>
    obtain ⟨s, hs, rfl⟩ := Option.map_eq_some_iff.mp h
    have hagenda : ∀ t ∈ [(⟨a.start, pos⟩ : Automaton.Thread)], pos ≤ t.start ∧ t.start ≤ pos := by
      intro t ht
      rw [List.mem_singleton.mp ht]
      exact ⟨Nat.le_refl _, Nat.le_refl _⟩
    obtain ⟨h1, h2, h3⟩ := Automaton.run_within false _ _ none (by omega) (Nat.le_refl pos)
      hagenda (by simp) s hs
    exact ⟨Nat.le_trans h1 h2, h3⟩

namespace Extended

variable {text : Source} {low since n m fuel count : Nat} {R : Cursor → Prop} {c d : Cursor}
  {goal : Goal} {body : Goal → Goal}

/-! ### Cursors and goals -/

/-- The cursor is within the text from `low` on, and so are the ends of the groups it has
left. -/
structure Cursor.Fits (text : Source) (low : Nat) (c : Cursor) : Prop where
  low_le : low ≤ c.pos
  le_size : c.pos ≤ text.size
  left : ∀ e ∈ c.left, e.2 ≤ text.size

/-- From all cursors that fit the goal only comes to such as `R` holds of. -/
def Leads (text : Source) (low : Nat) (R : Cursor → Prop) (goal : Goal) : Prop :=
  ∀ c n d m, c.Fits text low → goal c n = .matched d m → R d

theorem Cursor.Fits.move (h : c.Fits text low) {pos : Nat} (h1 : low ≤ pos)
    (h2 : pos ≤ text.size) : (c.move pos).Fits text low :=
  ⟨h1, h2, h.left⟩

theorem eq_matched_of_orElse {o : Outcome} {second : Nat → Outcome}
    (h : o.orElse second = .matched d m) : o = .matched d m ∨ ∃ n, second n = .matched d m := by
  cases o with
  | matched c n => exact .inl h
  | failed n =>
    cases n with
    | zero => cases h
    | succ n => exact .inr ⟨n, h⟩
  | cut level n => cases h
  | exhausted => cases h

theorem eq_matched_of_leave {o : Outcome} {level : Nat} (h : o.leave level = .matched d m) :
    o = .matched d m := by
  cases o with
  | matched c n => exact h
  | failed n => cases h
  | cut k n =>
    rw [Outcome.leave] at h
    split at h <;> cases h
  | exhausted => cases h

theorem Leads.orElse {first second : Goal} (h : Leads text low R first)
    (h' : Leads text low R second) :
    Leads text low R fun c n => (first c n).orElse (second c) := by
  intro c n d m hc hgoal
  rcases eq_matched_of_orElse hgoal with hgoal | ⟨n', hgoal⟩
  · exact h c n d m hc hgoal
  · exact h' c n' d m hc hgoal

/-- A condition in front of the goal. -/
theorem Leads.guard {P : Cursor → Prop} [DecidablePred P] (h : Leads text low R goal) :
    Leads text low R fun c n => if P c then goal c n else Outcome.failed n := by
  intro c n d m hc hgoal
  dsimp only at hgoal
  split at hgoal
  · exact h c n d m hc hgoal
  · cases hgoal

/-- A change of the cursor in front of the goal. -/
theorem Leads.comap {low' : Nat} {f : Cursor → Cursor} (h : Leads text low' R goal)
    (hf : ∀ c, c.Fits text low → (f c).Fits text low') :
    Leads text low R fun c n => goal (f c) n :=
  fun c n d m hc hgoal => h (f c) n d m (hf c hc) hgoal

/-- What must not match in front of the goal. -/
theorem Leads.unless {first : Nat → Outcome} (h : Leads text low R goal) (hc : c.Fits text low)
    (hgoal : (match first n with
      | .matched _ n => Outcome.failed n
      | o => o.orElse (goal c)) = .matched d m) : R d := by
  split at hgoal
  · cases hgoal
  · next hnot =>
    rcases eq_matched_of_orElse hgoal with heq | ⟨n', hgoal⟩
    · exact absurd heq (hnot _ _)
    · exact h c n' d m hc hgoal

theorem Leads.committed (h : Leads text low R goal) : Leads text low R (committed goal) := by
  intro c n d m hc hgoal
  rw [Extended.committed] at hgoal
  split at hgoal
  · exact h c n d m hc hgoal
  · next level levels _ =>
    split at hgoal
    · cases hgoal
    · exact h { c with levels } n d m ⟨hc.low_le, hc.le_size, hc.left⟩ hgoal

/-! ### Repetitions -/

section Repetitions

variable (hbody : ∀ goal, Leads text low R goal → Leads text low R (body goal))
include hbody

theorem Leads.iterate (greedy : Bool) (least : Nat) (most : Option Nat)
    (h : Leads text low R goal) :
    Leads text low R (iterate greedy least most body goal fuel count) := by
  induction fuel generalizing count with
  | zero =>
    intro c n d m _ hgoal
    cases hgoal
  | succ fuel ih =>
    intro c n d m hc hgoal
    have hmore : Leads text low R (body (Extended.iterate greedy least most body goal fuel
        (count + 1))) := hbody _ ih
    rw [Extended.iterate] at hgoal
    split at hgoal
    · exact h c n d m hc hgoal
    · split at hgoal
      · exact hmore c n d m hc hgoal
      · split at hgoal
        · exact hmore.orElse h c n d m hc hgoal
        · exact h.orElse hmore c n d m hc hgoal

theorem Leads.iterateNoting (label : Nat) (greedy : Bool) (least : Nat)
    (h : Leads text low R goal) :
    Leads text low R (iterateNoting label greedy least body goal fuel count) := by
  induction fuel generalizing count with
  | zero =>
    intro c n d m _ hgoal
    cases hgoal
  | succ fuel ih =>
    intro c n d m hc hgoal
    have hmore : Leads text low R (body (Extended.iterateNoting label greedy least body goal fuel
        (count + 1))) := hbody _ ih
    have hnoted : { c with noted := c.noted.put label c.pos }.Fits text low :=
      ⟨hc.low_le, hc.le_size, hc.left⟩
    rw [Extended.iterateNoting] at hgoal
    split at hgoal
    · cases hgoal
    · split at hgoal
      · exact hmore c n d m hc hgoal
      · split at hgoal
        · exact hmore.orElse h _ n d m hnoted hgoal
        · exact h.orElse hmore _ n d m hnoted hgoal

end Repetitions

/-! ### Plans -/

theorem length_chars (text : Source) (s : Span) :
    (text.chars s).length = min s.stop text.size - s.start := by
  rw [Source.chars, Array.length_toList, Array.size_extract]

/-- What a group took, taken once more, is within the text as well. -/
theorem Cursor.Fits.again (h : c.Fits text low) {index : Nat} {s : Span}
    (hs : c.taken? index = some s)
    (heq : text.chars ⟨c.pos, c.pos + (s.stop - s.start)⟩ = text.chars s) :
    (c.move (c.pos + (s.stop - s.start))).Fits text low := by
  have hstop : s.stop ≤ text.size := by
    obtain ⟨enteredAt, -, hs⟩ := Option.bind_eq_some_iff.mp hs
    obtain ⟨leftAt, hleft, hs⟩ := Option.bind_eq_some_iff.mp hs
    cases hs
    rw [List.lookup_eq_some_iff] at hleft
    obtain ⟨l, r, hlr, -⟩ := hleft
    exact h.left (index, leftAt) (by rw [hlr]; simp)
  have hlength := congrArg List.length heq
  rw [length_chars, length_chars] at hlength
  have hlow := h.low_le
  have hsize := h.le_size
  dsimp only at hlength
  exact h.move (by omega) (by omega)

theorem Cursor.Fits.openLevel (h : c.Fits text low) : c.openLevel.Fits text low :=
  ⟨h.low_le, h.le_size, h.left⟩

/-- **A plan comes to nothing that its goal does not come to.** -/
theorem Plan.leads_follow (p : Plan) (h : Leads text low R goal) :
    Leads text low R (p.follow text since goal) := by
  induction p generalizing low R goal with
  | skip => exact h
  | matched m =>
    intro c n d k hc hgoal
    rw [follow] at hgoal
    split at hgoal
    · next stop hstop =>
      obtain ⟨h1, h2⟩ := m.within_of_firstEnd? hc.le_size hstop
      exact h _ n d k (hc.move (Nat.le_trans hc.low_le h1) h2) hgoal
    · cases hgoal
  | set s =>
    intro c n d k hc hgoal
    rw [follow] at hgoal
    split at hgoal
    · next ch hch =>
      have hlt : c.pos < text.size := (Array.getElem?_eq_some_iff.mp hch).1
      split at hgoal
      · exact h _ n d k (hc.move (Nat.le_succ_of_le hc.low_le) hlt) hgoal
      · cases hgoal
    · cases hgoal
  | anchor a => exact h.guard
  | seq first second ih1 ih2 => exact ih1 (ih2 h)
  | alt first second ih1 ih2 => exact (ih1 h).orElse (ih2 h)
  | optional greedy body ih =>
    cases greedy with
    | true => exact (ih h).orElse h
    | false => exact h.orElse (ih h)
  | loop greedy least most body ih =>
    intro c n d k hc hgoal
    exact Leads.iterate (fun _ => ih) greedy least most h c n d k hc hgoal
  | watched label greedy least body ih =>
    intro c n d k hc hgoal
    exact Leads.iterateNoting (fun _ => ih) label greedy least h c n d k hc hgoal
  | capture index body ih =>
    have hleave : Leads text low R fun d => goal { d with left := d.left.put index d.pos } := by
      refine h.comap fun e he => ⟨he.low_le, he.le_size, fun x hx => ?_⟩
      rcases List.mem_cons.mp hx with rfl | hx
      · exact he.le_size
      · exact he.left x (List.mem_filter.mp hx).1
    exact (ih hleave).comap fun c hc => ⟨hc.low_le, hc.le_size, hc.left⟩
  | again index =>
    intro c n d k hc hgoal
    rw [follow] at hgoal
    split at hgoal
    · cases hgoal
    · next s hs =>
      dsimp only at hgoal
      split at hgoal
      · next heq => exact h _ n d k (hc.again hs heq) hgoal
      · cases hgoal
  | known index => exact h.guard
  | ahead negated body ih =>
    intro c n d k hc hgoal
    cases negated with
    | false =>
      have hback : Leads text low R fun d => goal (d.move c.pos) :=
        h.comap fun e he => he.move hc.low_le hc.le_size
      exact ih hback c n d k hc hgoal
    | true => exact h.unless hc hgoal
  | behind negated width body ih =>
    intro c n d k hc hgoal
    rw [follow.eq_def] at hgoal
    cases negated with
    | false =>
      dsimp only at hgoal
      split at hgoal
      · cases hgoal
      · -- the body starts further in front, and what comes next goes on from here
        have hback : Leads text 0 R fun d => goal (d.move c.pos) :=
          h.comap fun e he => ⟨hc.low_le, hc.le_size, he.left⟩
        have hfront : (c.move (c.pos - width)).Fits text 0 :=
          ⟨Nat.zero_le _, Nat.le_trans (Nat.sub_le _ _) hc.le_size, hc.left⟩
        exact ih hback _ n d k hfront hgoal
    | true =>
      dsimp only at hgoal
      split at hgoal
      · rcases eq_matched_of_orElse hgoal with heq | ⟨n', hgoal⟩
        · cases heq
        · exact h c n' d k hc hgoal
      · exact h.unless hc hgoal
  | atomic body ih =>
    intro c n d k hc hgoal
    exact ih h.committed c.openLevel n d k hc.openLevel (eq_matched_of_leave hgoal)
  | keep => exact h.comap fun c hc => ⟨hc.low_le, hc.le_size, hc.left⟩
  | origin => exact h.guard
  | conditional condition yes no ih1 ih2 ih3 =>
    intro c n d k hc hgoal
    have hyes : Leads text low R (condition.follow text since
        (committed (yes.follow text since goal))) := ih1 (ih2 h).committed
    exact hyes.orElse (ih3 h) c.openLevel n d k hc.openLevel (eq_matched_of_leave hgoal)

/-! ### Searches -/

namespace Plan

theorem pos_of_search {p : Plan} {pos : Nat} (hsince : since ≤ pos)
    (hfuel : pos + fuel ≤ text.size + 1) (h : p.search text since fuel pos n = .matched d m) :
    since ≤ d.pos ∧ d.pos ≤ text.size := by
  induction fuel generalizing pos n with
  | zero => cases h
  | succ fuel ih =>
    rw [search] at h
    rcases eq_matched_of_orElse h with h | ⟨n', h⟩
    · have hreached : Leads text since (fun d => since ≤ d.pos ∧ d.pos ≤ text.size) reached := by
        intro c n d m hc heq
        cases heq
        exact ⟨hc.low_le, hc.le_size⟩
      refine p.leads_follow hreached (.ofPos pos) n d m ⟨hsince, by show pos ≤ _; omega, ?_⟩ h
      intro e he
      cases he
    · exact ih (by omega) (by omega) h

/-- **A match ends between the position where the search began and the end of the text.** -/
theorem stop_of_find {p : Plan} {pos : Nat} {s : Span} (hpos : pos ≤ text.size)
    (h : p.find text pos = some s) : pos ≤ s.stop ∧ s.stop ≤ text.size := by
  rw [find] at h
  split at h
  · next d n hd =>
    cases h
    exact pos_of_search (Nat.le_refl _) (by omega) hd
  · cases h

theorem isWithin_of_isSteady {p : Plan} (h : Search.IsSteady text.size (p.find text ·)) :
    Search.IsWithin text.size (p.find text ·) := by
  intro pos s _ hs
  -- the match is also found from where it starts, and does not end in front of that
  obtain ⟨h1, h2, hend, -⟩ := Search.ofEnds_eq_some_iff.mp ((h pos).symm.trans hs)
  rw [Search.endAt?] at hend
  split at hend
  · next s' hs' =>
    obtain ⟨h3, h4⟩ := stop_of_find h2 hs'
    split at hend
    · rw [Option.some.inj hend] at h3 h4
      exact ⟨h1, h3, h4⟩
    · cases hend
  · cases hend

end Plan

end Extended

end Highlighting
