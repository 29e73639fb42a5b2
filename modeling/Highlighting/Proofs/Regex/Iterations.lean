/-
  Highlighting/Proofs/Regex/Iterations.lean
  =========================================
  **Where iterations get to.**

  The ends of a repetition come in an order, which is what is preferred.  Which
  ends there are is said without it: those that so many iterations lead to
  (`mem_times_iff`), and then up to so many more, each of which gets further
  (`GetsTo`).  As the text is bounded, it makes no difference how many more
  these may be when there are enough of them (`GetsTo.of_le`).
-/
import Mathlib.Tactic.Tauto
import Highlighting.Proofs.Regex.Bounds

namespace Highlighting.Regex

variable {text : Source} {p q e m n limit : Nat} {step : Nat → List Nat}

/-! ### So many iterations -/

theorem mem_times_iff {ps : List Nat} :
    e ∈ times step n ps ↔ ∃ p ∈ ps, e ∈ times step n [p] := by
  induction n generalizing ps with
  | zero => simp [times]
  | succ n ih =>
    have hnext : ∀ ps, e ∈ times step (n + 1) ps ↔ ∃ q ∈ ps.flatMap step, e ∈ times step n [q] := by
      intro ps
      rw [times]
      split
      · next hempty =>
        rw [List.isEmpty_iff.mp hempty]
        simp
      · exact ih
    rw [hnext]
    constructor
    · rintro ⟨q, hq, he⟩
      obtain ⟨p, hp, hq⟩ := List.mem_flatMap.mp hq
      exact ⟨p, hp, (hnext [p]).mpr ⟨q, by simpa using hq, he⟩⟩
    · rintro ⟨p, hp, he⟩
      obtain ⟨q, hq, he⟩ := (hnext [p]).mp he
      exact ⟨q, List.mem_flatMap.mpr ⟨p, hp, by simpa using hq⟩, he⟩

theorem mem_times_succ_iff :
    e ∈ times step (n + 1) [p] ↔ ∃ q ∈ step p, e ∈ times step n [q] := by
  have htimes : times step (n + 1) [p] = times step n (step p) := by simp [times]
  rw [htimes, mem_times_iff]

theorem mem_times_succ_iff' :
    e ∈ times step (n + 1) [p] ↔ ∃ q ∈ times step n [p], e ∈ step q := by
  induction n generalizing p with
  | zero =>
    rw [mem_times_succ_iff]
    simp [times]
  | succ n ih =>
    rw [mem_times_succ_iff]
    simp only [ih, mem_times_succ_iff (n := n)]
    constructor
    · rintro ⟨i, hi, q, hq, he⟩
      exact ⟨q, ⟨i, hi, hq⟩, he⟩
    · rintro ⟨q, ⟨i, hi, hq⟩, he⟩
      exact ⟨i, hi, q, hq, he⟩

/-! ### Up to so many more -/

/-- What up to that many iterations get to, each of which gets further. -/
def GetsTo (step : Nat → List Nat) : Nat → Nat → Nat → Prop
  | 0, p, e => e = p
  | n + 1, p, e => e = p ∨ ∃ q ∈ step p, p < q ∧ GetsTo step n q e

theorem mem_iterations_iff {greedy : Bool} {later : List Nat} :
    e ∈ iterations greedy step limit p later ↔ e ∈ later ∨ GetsTo step limit p e := by
  induction limit generalizing p later with
  | zero =>
    rw [iterations, List.mem_cons, or_comm]
    rfl
  | succ limit ih =>
    have hfurther : ∀ (stops later : List Nat), e ∈ stops.foldr (fun stop later =>
        if p < stop then iterations greedy step limit stop later else later) later ↔
          e ∈ later ∨ ∃ q ∈ stops, p < q ∧ GetsTo step limit q e := by
      intro stops later
      induction stops with
      | nil => simp
      | cons stop stops ihstops =>
        rw [List.foldr_cons, List.exists_mem_cons_iff]
        split
        · next hlt => rw [ih, ihstops, and_iff_right hlt, or_assoc, or_comm (b := GetsTo ..)]
        · next hge => rw [ihstops, iff_false_intro (fun h : p < stop ∧ _ => hge h.1), false_or]
    have hself : ∀ {a b : Prop}, (e = p ∨ a) ∨ b ↔ a ∨ e = p ∨ b := by tauto
    rw [iterations, GetsTo]
    split
    · rw [hfurther, List.mem_cons, hself]
    · rw [List.mem_cons, hfurther, or_left_comm]

namespace GetsTo

theorem refl (step : Nat → List Nat) (n p : Nat) : GetsTo step n p p := by
  cases n with
  | zero => rfl
  | succ n => exact .inl rfl

theorem le_size (hstep : ∀ p q, p ≤ text.size → q ∈ step p → q ≤ text.size) (hp : p ≤ text.size)
    (h : GetsTo step n p e) : e ≤ text.size := by
  induction n generalizing p with
  | zero => exact h ▸ hp
  | succ n ih =>
    rcases h with rfl | ⟨q, hq, -, h⟩
    · exact hp
    · exact ih (hstep p q hp hq) h

/-- There are no more iterations that get further than there are characters left. -/
theorem of_le (hstep : ∀ p q, p ≤ text.size → q ∈ step p → q ≤ text.size) (hp : p ≤ text.size)
    (hlimit : text.size - p ≤ limit) (h : GetsTo step n p e) : GetsTo step limit p e := by
  induction n generalizing p limit with
  | zero => exact h ▸ refl step limit p
  | succ n ih =>
    rcases h with rfl | ⟨q, hq, hlt, h⟩
    · exact refl step limit e
    · have hsize := hstep p q hp hq
      obtain ⟨limit, rfl⟩ := Nat.exists_eq_add_of_le' (show 1 ≤ limit by omega)
      exact .inr ⟨q, hq, hlt, ih hsize (by omega) h⟩

theorem succ (h : GetsTo step n p e) : GetsTo step (n + 1) p e := by
  induction n generalizing p with
  | zero => exact .inl h
  | succ n ih =>
    rcases h with rfl | ⟨q, hq, hlt, h⟩
    · exact .inl rfl
    · exact .inr ⟨q, hq, hlt, ih h⟩

/-- One more iteration in front, which may get nowhere. -/
theorem cons (hle : p ≤ q) (hq : q ∈ step p) (h : GetsTo step n q e) :
    GetsTo step (n + 1) p e := by
  rcases Nat.eq_or_lt_of_le hle with rfl | hlt
  · exact h.succ
  · exact .inr ⟨q, hq, hlt, h⟩

end GetsTo

theorem getsTo_succ_iff (hle : ∀ q ∈ step p, p ≤ q) :
    GetsTo step (n + 1) p e ↔ (∃ q ∈ step p, GetsTo step n q e) ∨ e = p := by
  constructor
  · rintro (rfl | ⟨q, hq, -, h⟩)
    · exact .inr rfl
    · exact .inl ⟨q, hq, h⟩
  · rintro (⟨q, hq, h⟩ | rfl)
    · exact h.cons (hle q hq) hq
    · exact .inl rfl

/-! ### Ends of repetitions -/

theorem mem_ends_rep_some {greedy : Bool} {least most : Nat} {body : Regex} :
    e ∈ (rep greedy least (some most) body).ends text p ↔
      ∃ q ∈ times (body.ends text) least [p], GetsTo (body.ends text) (most - least) q e := by
  rw [ends, List.mem_flatMap]
  simp only [mem_iterations_iff, List.not_mem_nil, false_or]

theorem mem_ends_rep_none {greedy : Bool} {least : Nat} {body : Regex} (hp : p ≤ text.size) :
    e ∈ (rep greedy least none body).ends text p ↔
      ∃ q ∈ times (body.ends text) least [p], ∃ n, GetsTo (body.ends text) n q e := by
  have hstep : ∀ p q, p ≤ text.size → q ∈ body.ends text p → q ≤ text.size :=
    fun p q hp hq => (body.within_of_mem_ends hp hq).2
  rw [ends, List.mem_flatMap]
  simp only [mem_iterations_iff, List.not_mem_nil, false_or]
  constructor
  · rintro ⟨q, hq, h⟩
    exact ⟨q, hq, _, h⟩
  · rintro ⟨q, hq, n, h⟩
    have hwithin : ∀ q ∈ times (body.ends text) least [p], p ≤ q ∧ q ≤ text.size := by
      refine forall_mem_times (P := fun q => p ≤ q ∧ q ≤ text.size) ?_ _ _ ?_
      · intro q hq q' hq'
        obtain ⟨hle, hsize⟩ := body.within_of_mem_ends hq.2 hq'
        exact ⟨Nat.le_trans hq.1 hle, hsize⟩
      · intro q hq
        rw [List.mem_singleton.mp hq]
        exact ⟨Nat.le_refl p, hp⟩
    obtain ⟨hle, hsize⟩ := hwithin q hq
    exact ⟨q, hq, h.of_le hstep hsize (by omega)⟩

end Highlighting.Regex
