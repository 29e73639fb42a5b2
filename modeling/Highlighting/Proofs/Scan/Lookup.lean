/-
  Highlighting/Proofs/Scan/Lookup.lean
  ====================================
  **Looking a position up in a trail.**

  A trail is in order when neither the starts of its stretches nor their ends
  ever decrease (`Trail.InOrder`).  Halving goes by the ends alone, and comes
  down to a place where one stretch ends before the position and the next one
  does not.  In order, there is one such place only (`lt_firstReaching_iff`), and the
  stretch behind it covers the position if any does (`finds_iff_covers`).

  Without the order a stretch that covers the position may be missed.  But what
  is found covers it in any case (`covers_of_finds`).
-/
import Highlighting.Scan.Trail

namespace Highlighting.Scan.Trail

variable {trail : Trail} {pos base size place stop i j : Nat} {span next : Span}

/-- The position is in a stretch of the trail. -/
def Covers (trail : Trail) (q : Nat) : Prop := ∃ span ∈ trail, span.start ≤ q ∧ q ≤ span.stop

/-! ### Halving -/

theorem endsBefore_of_getElem? (h : trail[place]? = some span) :
    trail.endsBefore pos place = decide (span.stop < pos) := by
  rw [endsBefore, h, Option.any_some]

theorem endsBefore_of_size_le (h : trail.size ≤ place) : trail.endsBefore pos place = false := by
  rw [endsBefore, Array.getElem?_eq_none h, Option.any_none]

/-- Halving only goes up to stretches that end before the position. -/
theorem halve_eq_or_endsBefore (trail : Trail) (pos base size : Nat) :
    trail.halve pos base size = base ∨
      trail.endsBefore pos (trail.halve pos base size) = true := by
  fun_induction halve trail pos base size with
  | case1 => exact .inl rfl
  | case2 base size _ hmiddle ih =>
    rcases ih with heq | hends
    · rw [heq]
      exact .inr hmiddle
    · exact .inr hends
  | case3 base size _ _ ih => exact ih

/-- The stretch at or right behind the place that is left does not end before the position.  It may
be at that place, since of an odd number of places the lower half has one more, which is that of
the stretch that was looked at. -/
theorem exists_halve_le (hstop : trail.endsBefore pos stop = false) (hbase : base ≤ stop)
    (hle : stop ≤ base + size) (hge : base + size ≤ stop + 1) :
    ∃ stop', trail.endsBefore pos stop' = false ∧
      trail.halve pos base size ≤ stop' ∧ stop' ≤ trail.halve pos base size + 1 := by
  fun_induction halve trail pos base size generalizing stop with
  | case1 => exact ⟨stop, hstop, hbase, by omega⟩
  | case2 base size _ _ ih => exact ih hstop (by omega) (by omega) (by omega)
  | case3 base size _ hmiddle ih =>
    exact ih (Bool.eq_false_iff.mpr hmiddle) (by omega) (by omega) (by omega)

/-- **The stretch that is looked at does not end before the position.** -/
theorem endsBefore_firstReaching (trail : Trail) (pos : Nat) :
    trail.endsBefore pos (trail.firstReaching pos) = false := by
  have hend : trail.endsBefore pos trail.size = false := endsBefore_of_size_le (Nat.le_refl _)
  obtain ⟨stop, hstop, hle, hge⟩ :=
    exists_halve_le hend (Nat.zero_le _) (Nat.le_of_eq (Nat.zero_add _).symm) (by omega)
  rw [firstReaching]
  cases hends : trail.endsBefore pos (trail.halve pos 0 trail.size) with
  | true =>
    rw [if_pos rfl]
    obtain rfl : stop = trail.halve pos 0 trail.size + 1 := by
      have hne : stop ≠ trail.halve pos 0 trail.size := by
        rintro rfl
        cases hstop.symm.trans hends
      omega
    exact hstop
  | false =>
    rw [if_neg Bool.false_ne_true]
    exact hends

/-- Right in front of that stretch, if there is one, is a stretch that does. -/
theorem endsBefore_pred_firstReaching (h : 0 < trail.firstReaching pos) :
    trail.endsBefore pos (trail.firstReaching pos - 1) = true := by
  rw [firstReaching] at h ⊢
  cases hends : trail.endsBefore pos (trail.halve pos 0 trail.size) with
  | true =>
    rw [if_pos rfl]
    exact hends
  | false =>
    rw [hends, if_neg Bool.false_ne_true] at h
    rcases halve_eq_or_endsBefore trail pos 0 trail.size with heq | hends'
    · omega
    · cases hends.symm.trans hends'

/-- **What is found covers the position**, whatever the order. -/
theorem covers_of_finds (h : trail.finds pos = true) : trail.Covers pos := by
  rw [finds, Option.any_eq_true] at h
  obtain ⟨span, hspan, hstart⟩ := h
  have hends := endsBefore_firstReaching trail pos
  rw [endsBefore_of_getElem? hspan, decide_eq_false_iff_not] at hends
  exact ⟨span, Array.mem_of_getElem? hspan, of_decide_eq_true hstart, Nat.le_of_not_lt hends⟩

/-! ### Trails in order -/

/-- The stretches lie one behind the other, by their starts and by their ends.  Neighbours may
overlap. -/
structure InOrder (trail : Trail) : Prop where
  le : ∀ span ∈ trail, span.start ≤ span.stop
  ordered : trail.toList.Pairwise fun a b => a.start ≤ b.start ∧ a.stop ≤ b.stop

theorem inOrder_empty : InOrder #[] :=
  ⟨fun _ h => absurd h (Array.not_mem_empty _), .nil⟩

theorem inOrder_push_iff :
    InOrder (trail.push next) ↔ trail.InOrder ∧ next.start ≤ next.stop ∧
      ∀ span ∈ trail, span.start ≤ next.start ∧ span.stop ≤ next.stop := by
  constructor
  · rintro ⟨hle, hordered⟩
    rw [Array.toList_push, List.pairwise_append] at hordered
    obtain ⟨hordered, -, hnext⟩ := hordered
    exact ⟨⟨fun span hspan => hle span (Array.mem_push_of_mem _ hspan), hordered⟩,
      hle next (Array.mem_push_self),
      fun span hspan => hnext span hspan.val next (List.mem_singleton_self _)⟩
  · rintro ⟨⟨hle, hordered⟩, hnext, hbefore⟩
    refine ⟨fun span hspan => ?_, ?_⟩
    · rcases Array.mem_push.mp hspan with hspan | rfl
      · exact hle span hspan
      · exact hnext
    · rw [Array.toList_push, List.pairwise_append]
      refine ⟨hordered, List.pairwise_singleton _ _, fun span hspan other hother => ?_⟩
      obtain rfl := List.mem_singleton.mp hother
      exact hbefore span (Array.mem_def.mpr hspan)

namespace InOrder

theorem of_le (h : trail.InOrder) {a b : Span} (ha : trail[i]? = some a)
    (hb : trail[j]? = some b) (hle : i ≤ j) : a.start ≤ b.start ∧ a.stop ≤ b.stop := by
  rw [← Array.getElem?_toList, List.getElem?_eq_some_iff] at ha hb
  obtain ⟨hi, rfl⟩ := ha
  obtain ⟨hj, rfl⟩ := hb
  rcases Nat.eq_or_lt_of_le hle with rfl | hlt
  · exact ⟨Nat.le_refl _, Nat.le_refl _⟩
  · exact List.pairwise_iff_getElem.mp h.ordered i j hi hj hlt

/-- A stretch may follow that goes on from the last one. -/
theorem push_mono {next' : Span} (h : InOrder (trail.push next)) (hstart : next.start ≤ next'.start)
    (hstop : next.stop ≤ next'.stop) (hle : next'.start ≤ next'.stop) :
    InOrder (trail.push next') := by
  obtain ⟨htrail, -, hbefore⟩ := inOrder_push_iff.mp h
  refine inOrder_push_iff.mpr ⟨htrail, hle, fun span hspan => ?_⟩
  obtain ⟨h1, h2⟩ := hbefore span hspan
  exact ⟨Nat.le_trans h1 hstart, Nat.le_trans h2 hstop⟩

theorem push_again (h : InOrder (trail.push next)) :
    InOrder ((trail.push next).push next) := by
  obtain ⟨-, hle, hbefore⟩ := inOrder_push_iff.mp h
  refine inOrder_push_iff.mpr ⟨h, hle, fun span hspan => ?_⟩
  rcases Array.mem_push.mp hspan with hspan | rfl
  · exact hbefore span hspan
  · exact ⟨Nat.le_refl _, Nat.le_refl _⟩

/-! ### Where it comes down to -/

/-- **Halving comes down to the first stretch that does not end before the position.** -/
theorem lt_firstReaching_iff (h : trail.InOrder) (hspan : trail[place]? = some span) :
    place < trail.firstReaching pos ↔ span.stop < pos := by
  constructor
  · intro hlt
    -- the ends of the stretches up to the one right in front are no greater
    have hends := endsBefore_pred_firstReaching (Nat.zero_lt_of_lt hlt)
    rw [endsBefore, Option.any_eq_true] at hends
    obtain ⟨last, hlast, hstop⟩ := hends
    have hle := (h.of_le hspan hlast (by omega)).2
    exact Nat.lt_of_le_of_lt hle (of_decide_eq_true hstop)
  · intro hstop
    refine Nat.lt_of_not_le fun hge => ?_
    have hlt : trail.firstReaching pos < trail.size :=
      Nat.lt_of_le_of_lt hge (Array.getElem?_eq_some_iff.mp hspan).1
    have hfirst := Array.getElem?_eq_getElem hlt
    have hends := endsBefore_firstReaching trail pos
    rw [endsBefore_of_getElem? hfirst, decide_eq_false_iff_not] at hends
    have hle := (h.of_le hfirst hspan hge).2
    omega

/-- **One look is enough**: the stretch looked at covers the position if any does. -/
theorem finds_iff_covers (h : trail.InOrder) : trail.finds pos = true ↔ trail.Covers pos := by
  refine ⟨covers_of_finds, ?_⟩
  rintro ⟨span, hmem, hstart, hstop⟩
  obtain ⟨place, hspan⟩ := Array.getElem?_of_mem hmem
  have hle : trail.firstReaching pos ≤ place :=
    Nat.le_of_not_lt fun hlt => Nat.not_le_of_lt ((h.lt_firstReaching_iff hspan).mp hlt) hstop
  have hlt : trail.firstReaching pos < trail.size :=
    Nat.lt_of_le_of_lt hle (Array.getElem?_eq_some_iff.mp hspan).1
  have hfirst := Array.getElem?_eq_getElem hlt
  rw [finds, hfirst, Option.any_some, decide_eq_true_eq]
  exact Nat.le_trans (h.of_le hfirst hspan hle).1 hstart

end InOrder

end Highlighting.Scan.Trail
