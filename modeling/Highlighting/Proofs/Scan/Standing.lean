/-
  Highlighting/Proofs/Scan/Standing.lean
  ======================================
  **The moves that stand**, and what taking a region back leaves of them.

  A move stands until a region is taken back that it opened, or that was open
  when it was made; an opening that is skipped does not stand at all
  (`standing`).  What a scan shows is what the moves that stand have led to, one
  after the other, as if the others had not been made (`Shown`).

  To see that, every open region is traced to the move that opened it
  (`Rooted`): the draft has only been extended since, so that restoring it shows
  what that move was made on.  Hence taking a region back is exact
  (`taking_back_is_exact`).
-/
import Highlighting.Proofs.Scan.Moves
import Highlighting.Proofs.Grammar

namespace Highlighting.Scan

variable {task : Task} {start s t : State} {f : Found} {m : Move} {ms kept before : List Move}
  {os outer : List (Entry × Nat)} {o : Entry × Nat} {d e : Draft}

/-! ### Moves that stand -/

/-- Without the moves since a region was opened inside `depth` others, and without the one that
opened it: those made in the region have more than `depth` regions open. -/
def takeBack (depth : Nat) (ms : List Move) : List Move :=
  (ms.dropWhile fun m => decide (depth < m.state.regions.length)).tail

/-- Those of the moves that stand, latest first. -/
def standing (task : Task) : List Move → List Move
  | [] => []
  | m :: ms =>
    if m.takesBack then takeBack (m.state.regions.length - 1) (standing task ms)
    else if m.skips task then standing task ms
    else m :: standing task ms

theorem standing_subset (task : Task) (ms : List Move) : standing task ms ⊆ ms := by
  induction ms with
  | nil => exact List.Subset.refl _
  | cons m ms ih =>
    have hall : standing task ms ⊆ m :: ms := fun _ h => List.mem_cons_of_mem _ (ih h)
    rw [standing]
    split
    · intro m' hm'
      exact hall ((List.dropWhile_sublist _).subset (List.mem_of_mem_tail hm'))
    · split
      · exact hall
      · exact List.cons_subset_cons _ ih

/-! ### What is shown -/

/-- The states show the same, inside the same regions. -/
structure State.Alike (s t : State) : Prop where
  draft : s.draft.Alike t.draft
  openings : s.openings = t.openings

namespace State.Alike

theorem refl (s : State) : s.Alike s := ⟨.refl _, rfl⟩

theorem symm (h : s.Alike t) : t.Alike s := ⟨h.draft.symm, h.openings.symm⟩

theorem trans {u : State} (h : s.Alike t) (h' : t.Alike u) : s.Alike u :=
  ⟨h.draft.trans h'.draft, h.openings.trans h'.openings⟩

theorem next? (task : Task) (s : State) : (s.next? task).2.Alike s := ⟨.refl _, rfl⟩

end State.Alike

/-- The moves, latest first, lead from one state to another, each made on what those before it
show. -/
inductive Shown (task : Task) (start : State) : List Move → State → Prop where
  | start {s : State} (halike : s.Alike start) : Shown task start [] s
  | move {m : Move} {kept : List Move} {t : State} (h : Shown task start kept m.state)
      (hback : m.takesBack = false) (hskips : m.skips task = false)
      (halike : t.Alike (m.next task)) : Shown task start (m :: kept) t

namespace Shown

theorem alike (h : Shown task start kept s) (halike : t.Alike s) : Shown task start kept t := by
  cases h with
  | start h => exact .start (halike.trans h)
  | move h hback hskips h' => exact .move h hback hskips (halike.trans h')

/-- What is shown before a move is what the move was made on. -/
theorem of_append {inside : List Move} (h : Shown task start (inside ++ m :: before) t) :
    Shown task start before m.state := by
  induction inside generalizing t with
  | nil =>
    cases h with
    | move h _ _ _ => exact h
  | cons m' inside ih =>
    cases h with
    | move h _ _ _ => exact ih h

end Shown

/-! ### Regions go back to the moves that opened them -/

/-- The move opens a region, in this way and with this serial number. -/
def Move.Opens (task : Task) (m : Move) (o : Entry × Nat) : Prop :=
  ∃ index, m.found.candidate = .opens index ∧ m.opensRegion task = true ∧
    o = (⟨index, (task.grammar.mode index).opener, m.found.span.start, m.state.draft.checkpoint⟩,
      m.state.nextSerial)

/-- Every open region was opened by one of the moves, inside the regions around it; the moves
since were made in it, and have only extended the draft. -/
def Rooted (task : Task) : List (Entry × Nat) → List Move → Draft → Prop
  | [], _, _ => True
  | o :: outer, kept, d =>
    ∃ inside m before, kept = inside ++ m :: before ∧
      (∀ m' ∈ inside, outer.length < m'.state.regions.length) ∧ m.Opens task o ∧
      m.state.openings = outer ∧ m.state.draft.Extends d ∧
      Rooted task outer before m.state.draft

theorem length_openings (s : State) : s.openings.length = s.regions.length := List.length_map _

namespace Rooted

theorem extend (h : Rooted task os kept d) (hext : d.Extends e) : Rooted task os kept e := by
  cases os with
  | nil => trivial
  | cons o outer =>
    obtain ⟨inside, m, before, hkept, hinside, hopens, houter, hd, hrooted⟩ := h
    exact ⟨inside, m, before, hkept, hinside, hopens, houter, hd.trans hext, hrooted⟩

theorem push (h : Rooted task os kept d) (hlength : os.length ≤ m.state.regions.length)
    (hext : d.Extends e) : Rooted task os (m :: kept) e := by
  cases os with
  | nil => trivial
  | cons o outer =>
    obtain ⟨inside, m', before, rfl, hinside, hopens, houter, hd, hrooted⟩ := h
    refine ⟨m :: inside, m', before, rfl, ?_, hopens, houter, hd.trans hext, hrooted⟩
    intro m'' hm
    rcases List.mem_cons.mp hm with rfl | hm
    · exact hlength
    · exact hinside m'' hm

theorem tail (h : Rooted task (o :: outer) kept d) : Rooted task outer kept d := by
  obtain ⟨inside, m, before, rfl, hinside, -, houter, hd, hrooted⟩ := h
  have hm : outer.length ≤ m.state.regions.length := by rw [← houter, length_openings]
  -- all of these moves are made inside the regions around
  suffices hall : ∀ kept, (∀ m' ∈ kept, outer.length < m'.state.regions.length) →
      Rooted task outer (kept ++ m :: before) m.state.draft from (hall inside hinside).extend hd
  intro kept hkept
  induction kept with
  | nil => exact hrooted.push hm (.refl _)
  | cons m' kept ih =>
    exact (ih fun m'' h => hkept m'' (List.mem_cons_of_mem _ h)).push
      (Nat.le_of_lt (hkept m' List.mem_cons_self)) (.refl _)

theorem drop (h : Rooted task os kept d) (n : Nat) : Rooted task (os.drop n) kept d := by
  induction n generalizing os with
  | zero => exact h
  | succ n ih =>
    cases os with
    | nil => trivial
    | cons o outer => exact ih h.tail

end Rooted

/-! ### Every state that a scan gets to -/

theorem counted_next (task : Task) (h : m.state.draft.Counted) : (m.next task).draft.Counted := by
  have hturn : Turn task m.state.core m.found (m.next task).core :=
    core_turn task m.state m.found
  show (m.next task).core.draft.Counted
  generalize (m.next task).core = c at hturn ⊢
  cases hturn with
  | taken => exact Core.counted_take h m.found
  | barred => exact h

theorem Shown.counted (hstart : start.draft.Counted) (h : Shown task start kept t) :
    t.draft.Counted := by
  induction h with
  | start halike => exact halike.symm.draft.counted hstart
  | move _ _ _ halike ih => exact halike.symm.draft.counted (counted_next task ih)

/-- The moves that stand show what the scan shows, and opened the regions that are open. -/
structure Standing (task : Task) (start : State) (ms : List Move) (t : State) : Prop where
  shown : Shown task start (standing task ms) t
  rooted : Rooted task t.openings (standing task ms) t.draft

namespace Standing

/-- **What taking a region back leaves** are the moves before it was opened, and what they show. -/
theorem takeBack (hstart : start.draft.Counted) (hshown : Shown task start kept t)
    (hrooted : Rooted task (o :: outer) kept t.draft) :
    ∃ m ∈ kept, m.Opens task o ∧ m.state.openings = outer ∧
      (t.draft.restore o.1.checkpoint).Alike m.state.draft ∧
      Shown task start (Scan.takeBack outer.length kept) m.state ∧
      Rooted task outer (Scan.takeBack outer.length kept) m.state.draft := by
  obtain ⟨inside, m, before, rfl, hinside, hopens, houter, hext, hrooted⟩ := hrooted
  have hm := hshown.of_append
  -- the moves made in the region go, and with them the one that opened it
  have hbefore : Scan.takeBack outer.length (inside ++ m :: before) = before := by
    have hdrop : inside.dropWhile (fun m => decide (outer.length < m.state.regions.length)) = [] :=
      List.dropWhile_eq_nil_iff.mpr fun m' hm' => decide_eq_true (hinside m' hm')
    have hstop : ¬ outer.length < m.state.regions.length := by
      rw [← houter, length_openings]
      exact Nat.lt_irrefl _
    rw [Scan.takeBack, List.dropWhile_append, hdrop, List.isEmpty_nil, if_pos rfl,
      List.dropWhile_cons_of_neg (by simpa using hstop), List.tail_cons]
  rw [hbefore]
  refine ⟨m, by simp, hopens, houter, ?_, hm, hrooted⟩
  obtain ⟨index, -, -, rfl⟩ := hopens
  exact Draft.restore_alike hext (hm.counted hstart) (hshown.counted hstart)

/-- A move that stands adds to what is shown. -/
theorem of_stands {u : State} (h : Standing task start ms m.state) (hback : m.takesBack = false)
    (hskips : m.skips task = false) (hnext : m.next task = u)
    (hrooted : Rooted task u.openings (m :: standing task ms) u.draft) :
    Standing task start (m :: ms) u := by
  have hstanding : standing task (m :: ms) = m :: standing task ms := by
    simp only [standing, hback, hskips, Bool.false_eq_true, if_false]
  exact ⟨hstanding ▸ .move h.shown hback hskips (hnext ▸ .refl _), hstanding ▸ hrooted⟩

/-- **Every move leaves the moves that stand showing what the scan shows.** -/
theorem next (hstart : start.draft.Counted) (h : Standing task start ms m.state) :
    Standing task start (m :: ms) (m.next task) := by
  have hlength : m.state.openings.length ≤ m.state.regions.length :=
    Nat.le_of_eq (length_openings _)
  have hdeed := m.deed task
  generalize hnext : m.next task = u at hdeed
  cases hdeed with
  | @whole index hf hend =>
    refine h.of_stands (by simp [Move.takesBack, State.takesBack, hf])
      (by simp [Move.skips, State.skips, hf, hend]) hnext ?_
    simp only [openings_takeWhole, draft_takeWhole, Move.openings_noted, Move.draft_noted]
    exact h.rooted.push hlength ((Draft.congruent_extends _).addWhole ⟨.refl _, rfl⟩).1
  | @skipped index hf hend hskips =>
    have hback : m.takesBack = false := by simp [Move.takesBack, State.takesBack, hf]
    have hstanding : standing task (m :: ms) = standing task ms := by
      simp only [standing, hback, hskips, Bool.false_eq_true, if_false, if_true]
    -- a skip shows nothing
    have halike : State.Alike (m.noted.skip task (task.grammar.mode index).opener
        m.found.span.start) m.state :=
      ⟨by simpa using Draft.Alike.refl _, by simp⟩
    refine ⟨hstanding ▸ h.shown.alike halike, ?_⟩
    rw [hstanding, halike.openings]
    simpa using h.rooted
  | @opened index hf hend hskips =>
    have hopens : m.opensRegion task = true := by simp [Move.opensRegion, hf, hend, hskips]
    refine h.of_stands (by simp [Move.takesBack, State.takesBack, hf]) hskips hnext ?_
    simp only [openings_openRegion, draft_openRegion, Move.openings_noted, Move.draft_noted,
      Move.nextSerial_noted]
    exact ⟨[], m, _, rfl, by simp, ⟨index, hf, hopens, rfl⟩, rfl,
      ((Draft.congruent_extends _).openRegion ⟨.refl _, rfl⟩).1, h.rooted⟩
  | @closed depth hf =>
    refine h.of_stands (by simp [Move.takesBack, State.takesBack, hf])
      (by simp [Move.skips, State.skips, hf]) hnext ?_
    simp only [openings_closes, draft_closes, Move.openings_noted, Move.draft_noted]
    refine (h.rooted.push hlength ?_).drop _
    exact ((Draft.congruent_extends _).closeRegions _ ⟨.refl _, rfl⟩).1
  | @tookBack r outer hf hback hopenings =>
    obtain ⟨m', -, -, houter, halike, hshown, hrooted⟩ :=
      takeBack hstart h.shown (hopenings ▸ h.rooted)
    have hstanding : standing task (m :: ms) =
        Scan.takeBack (m.noted.abandon r outer).openings.length (standing task ms) := by
      rw [standing, if_pos hback, ← length_openings, hopenings, List.length_cons,
        Nat.add_sub_cancel]
    have halike' : (m.noted.abandon r outer).Alike m'.state := ⟨by simpa using halike, houter.symm⟩
    exact ⟨hstanding ▸ hshown.alike halike',
      hstanding ▸ hrooted.extend (halike'.symm.draft.extends_right (.refl _))⟩
  | passed hf hback _ hregions =>
    refine h.of_stands hback (by simp [Move.skips, State.skips, hf]) hnext ?_
    rw [openings_passed hregions]
    trivial

end Standing

/-- **Whatever a scan has come to, the moves that stand show it.** -/
theorem Ran.standing (h : Ran task (State.start task.grammar) ms t) :
    Standing task (State.start task.grammar) ms t := by
  induction h with
  | refl => exact ⟨.start (.refl _), trivial⟩
  | @move ms t f _ hf ih =>
    exact .next Draft.counted_empty ⟨ih.shown.alike (.next? task t), ih.rooted⟩

/-! ### Taking a region back -/

theorem serialOf_eq (s : State) : serialOf s.regions = (s.openings.head?.map (·.2)).getD 0 := by
  rw [State.openings]
  cases s.regions <;> rfl

/-- Of the word met last there is at least one occurrence to take back. -/
theorem count_pos_of_back (hd : d.Counted) {w : Word} (hw : d.hitLog.back? = some w) :
    0 < d.count w := by
  rw [hd w, List.count_pos_iff, ← Array.mem_def]
  exact Array.mem_of_back? hw

/-- **Taking a region back is exact.**  Whatever has happened since the region was opened, what
is shown afterwards is what was shown before, inside the same regions.  The scan is back where
the opening match starts, which is barred now.  No count is ever to be lowered below zero. -/
theorem taking_back_is_exact (task : Task) :
    (∀ ms s f ms' t f', Ran task (State.start task.grammar) ms s →
      (s.next? task).1 = some f → (s.move task f).opensRegion task = true →
      Ran task ((s.move task f).next task) ms' t →
      (t.next? task).1 = some f' → (t.move task f').takesBack = true →
      serialOf t.regions = s.nextSerial →
      let after := (t.move task f').next task
      after.draft.Alike s.draft ∧ after.openings = s.openings ∧ after.pos = f.span.start ∧
        ∃ index, f.candidate = .opens index ∧
          ((task.grammar.mode index).opener, f.span.start) ∈ after.barred) ∧
    ∀ ms t, Ran task (State.start task.grammar) ms t → ∀ n ≤ t.draft.hitLog.size, ∀ w,
      (t.draft.forgetHits n).hitLog.back? = some w → 0 < (t.draft.forgetHits n).count w := by
  constructor
  · intro ms s f ms' t f' hs hf hopens ht hf' hback hserial after
    obtain ⟨r, outer, hafter, hopenings⟩ := exists_of_takesBack task hback
    have hopenings' : t.openings = (r.entry, r.serial) :: after.openings := by
      rw [show after = _ from hafter]
      exact hopenings
    have hserial' : r.serial = s.nextSerial := by
      rw [serialOf_eq, hopenings'] at hserial
      exact hserial
    have hall := ((Ran.move hs hf).trans ht).standing
    obtain ⟨m, hm, ⟨index, hcandidate, hopens', ho⟩, houter, halike, -⟩ :=
      Standing.takeBack Draft.counted_empty hall.shown (hopenings' ▸ hall.rooted)
    obtain ⟨hentry, hserial''⟩ := Prod.ext_iff.mp ho
    -- the serial number tells that this is the move in question
    obtain rfl : m = s.move task f := hs.eq_of_nextSerial_eq hopens ht
      (standing_subset task _ hm) hopens' (hserial''.symm.trans hserial')
    have hstate : (s.move task f).state.Alike s := .next? task s
    refine ⟨?_, houter.symm.trans hstate.openings, ?_, index, hcandidate, ?_⟩
    · rw [show after = _ from hafter, draft_abandon, Move.draft_noted]
      exact halike.trans hstate.draft
    · rw [show after = _ from hafter]
      exact congrArg Entry.start hentry
    · rw [show after = _ from hafter]
      refine List.mem_cons.mpr (.inl ?_)
      exact (congrArg (fun e : Entry => (e.opener, e.start)) hentry).symm
  · intro ms t ht n hn w hw
    have hcounted : t.draft.Counted := ht.standing.shown.counted Draft.counted_empty
    exact count_pos_of_back (Draft.forgetHits_spec n hcounted hn).1 hw

theorem taking_back_in_quotes_is_exact :
    let task := Scan.task Quotes.grammar (Source.ofString "'a\n'b'") ⟨false⟩
    let s := State.start Quotes.grammar
    let f : Found := ⟨⟨0, 1⟩, .opens 0⟩
    let t := (s.move task f).next task
    let f' : Found := ⟨⟨2, 3⟩, .illegal⟩
    (s.next? task).1 = some f ∧ (s.move task f).opensRegion task = true ∧
      (t.next? task).1 = some f' ∧ (t.move task f').takesBack = true ∧
      serialOf t.regions = s.nextSerial ∧ ((t.move task f').next task).draft.Alike s.draft := by
  intro task s f t f'
  have hf : (s.next? task).1 = some f := by decide +kernel
  have hopens : (s.move task f).opensRegion task = true := by decide +kernel
  have hf' : (t.next? task).1 = some f' := by decide +kernel
  have hback : (t.move task f').takesBack = true := by decide +kernel
  have hexact := (taking_back_is_exact task).1 [] s f [] t f' .refl hf hopens .refl hf' hback rfl
  exact ⟨hf, hopens, hf', hback, rfl, hexact.1⟩

end Highlighting.Scan
