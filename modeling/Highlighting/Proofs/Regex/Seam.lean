/-
  Highlighting/Proofs/Regex/Seam.lean
  ===================================
  **Matches around a character**, in a text that goes on behind it.

  Let `u` end with a character.  In `u ++ v`, an expression that never takes that
  character matches in front of the seam just what it matches in `u` alone
  (`Regex.ends_append_of_spares`), and so does one that takes it only at its end
  (`Regex.ends_append_of_stopsAt`).  Where an expression goes on over any number
  of them, at least it matches at the same places, and alike up to the seam
  (`Regex.near_firstEnd?`).

  Behind the seam every expression matches what it matches in `v` alone
  (`Regex.ends_append_add`), as long as none of its conditions tells the
  character from nothing at all in front (`Regex.mayFollow`).
-/
import Highlighting.Proofs.Regex.Bounds
import Highlighting.Proofs.Text.Source

namespace Highlighting

variable {u v : Source} {c : Char} {p : Nat}

/-! ### Conditions -/

theorem Anchor.holds_append (hp : p < u.size) (a : Anchor) :
    a.holds (u ++ v) p = a.holds u p := by
  have hafter : (u ++ v)[p]? = u[p]? := Array.getElem?_append_left hp
  have hbefore : Source.before? (u ++ v) p = u.before? p := Source.before?_append (Nat.le_of_lt hp)
  have hend : (p == (u ++ v).size) = (p == u.size) := by
    rw [beq_eq_false_iff_ne.mpr (Nat.ne_of_lt hp), beq_eq_false_iff_ne, Array.size_append]
    omega
  cases a with
  | textStart => rfl
  | textEnd => exact hend
  | lineStart returns => simp only [holds, hbefore, hafter]
  | lineEnd returns => simp only [holds, hbefore, hafter, hend]
  | word edge ascii => simp only [holds, hbefore, hafter]

/-- Where the condition holds at the start of a text, it holds behind the character. -/
def Anchor.mayFollow (c : Char) : Anchor → Bool
  | textStart => false
  | textEnd => true
  | lineStart _ => c == '\n'
  | lineEnd returns => !returns || c != '\r'
  | word _ ascii => !(if ascii then CharClass.isAsciiWord else CharClass.isWord) c

theorem Anchor.holds_append_add (hend : Source.EndsWith c u) {a : Anchor}
    (ha : a.mayFollow c = true) : a.holds (u ++ v) (u.size + p) = a.holds v p := by
  have hafter : (u ++ v)[u.size + p]? = v[p]? := Source.getElem?_append_add u v p
  have hbefore := Source.before?_append_add hend v p
  have hsize : (u.size + p == (u ++ v).size) = (p == v.size) := by
    rw [Bool.eq_iff_iff, beq_iff_eq, beq_iff_eq, Array.size_append]
    omega
  have hstart : (u.size + p == 0) = false := by
    have hpos := hend.size_pos
    rw [beq_eq_false_iff_ne]
    omega
  cases a with
  | textStart => cases ha
  | textEnd => exact hsize
  | lineStart returns =>
    obtain rfl : c = '\n' := eq_of_beq ha
    simp only [holds, hbefore, hafter, hstart]
    cases p with
    | zero => rfl
    | succ p => rfl
  | lineEnd returns =>
    simp only [holds, hbefore, hafter, hsize]
    cases p with
    | zero =>
      cases returns with
      | false => rfl
      | true =>
        have hne : (some c != some '\r') = true := ha
        show (_ || (_ || (_ && (some c != some '\r')))) = (_ || (_ || (_ && true)))
        rw [hne]
    | succ p => rfl
  | word edge ascii =>
    simp only [holds, hbefore, hafter]
    cases p with
    | zero =>
      have hword : (if ascii then CharClass.isAsciiWord else CharClass.isWord) c = false :=
        (Bool.not_eq_true' _).mp ha
      show edge.holds ((if ascii then CharClass.isAsciiWord else CharClass.isWord) c) _ =
        edge.holds false _
      rw [hword]
    | succ p => rfl

/-! ### Lists of ends -/

namespace Regex

variable {greedy : Bool} {step step' : Nat → List Nat} {size limit limit' pos : Nat}
  {ps later : List Nat}

theorem times_congr {P : Nat → Prop} (hstep : ∀ q, P q → step q = step' q ∧ ∀ e ∈ step q, P e)
    (n : Nat) (hps : ∀ q ∈ ps, P q) : times step n ps = times step' n ps := by
  induction n generalizing ps with
  | zero => rfl
  | succ n ih =>
    have hflat : ps.flatMap step = ps.flatMap step' :=
      List.flatMap_congr fun q hq => (hstep q (hps q hq)).1
    have hP : ∀ e ∈ ps.flatMap step, P e := by
      intro e he
      obtain ⟨q, hq, he⟩ := List.mem_flatMap.mp he
      exact (hstep q (hps q hq)).2 e he
    rw [times, times, ih hP, hflat]

/-- With steps that are the same below a bound, and keep below it, the iterations are the same; a
limit does not matter that leaves room for as many as there can be. -/
theorem iterations_congr (hstep : ∀ q < size, step q = step' q ∧ ∀ e ∈ step q, e < size)
    (hpos : pos < size)
    (hlimit : limit = limit' ∨ size ≤ pos + limit ∧ size ≤ pos + limit') :
    iterations greedy step limit pos later = iterations greedy step' limit' pos later := by
  induction limit generalizing pos limit' later with
  | zero =>
    rcases hlimit with rfl | ⟨hle, -⟩
    · rfl
    · exact absurd hle (Nat.not_le_of_lt hpos)
  | succ limit ih =>
    cases limit' with
    | zero => omega
    | succ limit' =>
      obtain ⟨hsame, hbelow⟩ := hstep pos hpos
      have hfurther : ∀ later,
          (step pos).foldr (fun stop later =>
            if pos < stop then iterations greedy step limit stop later else later) later =
          (step' pos).foldr (fun stop later =>
            if pos < stop then iterations greedy step' limit' stop later else later) later := by
        intro later
        rw [← hsame]
        generalize step pos = stops at hbelow
        induction stops with
        | nil => rfl
        | cons stop stops ihstops =>
          rw [List.foldr_cons, List.foldr_cons,
            ihstops fun e he => hbelow e (List.mem_cons_of_mem _ he)]
          split
          · next hlt =>
            have hstop := hbelow stop List.mem_cons_self
            exact ih hstop (by omega)
          · rfl
      rw [iterations, iterations]
      simp only [hfurther]

/-! ### In front of the seam -/

/-- The expression never takes the character. -/
def spares (c : Char) : Regex → Bool
  | empty | anchor _ => true
  | set s => !s.contains c
  | seq a b | alt a b => a.spares c && b.spares c
  | group _ body | rep _ _ _ body => body.spares c

/-- A match does not reach beyond such a character. -/
theorem le_of_mem_ends_of_spares (r : Regex) {q : Nat} (hq : u[q]? = some c)
    (hr : r.spares c = true) {e : Nat} (hp : p ≤ q) (he : e ∈ r.ends u p) : e ≤ q := by
  induction r generalizing p e with
  | empty =>
    rw [ends, List.mem_singleton] at he
    omega
  | anchor a =>
    rw [ends] at he
    split at he
    · rw [List.mem_singleton] at he
      omega
    · cases he
  | set s =>
    rw [ends] at he
    split at he
    · next c' hc' =>
      split at he
      · next hcontains =>
        have hne : p ≠ q := by
          rintro rfl
          obtain rfl : c = c' := Option.some.inj (hq.symm.trans hc')
          rw [spares, hcontains] at hr
          cases hr
        rw [List.mem_singleton] at he
        omega
      · cases he
    · cases he
  | seq first second ih1 ih2 =>
    rw [spares, Bool.and_eq_true] at hr
    obtain ⟨m, hm, he⟩ := List.mem_flatMap.mp he
    exact ih2 hr.2 (ih1 hr.1 hp hm) he
  | alt first second ih1 ih2 =>
    rw [spares, Bool.and_eq_true] at hr
    rcases List.mem_append.mp he with he | he
    · exact ih1 hr.1 hp he
    · exact ih2 hr.2 hp he
  | group index body ih => exact ih hr hp he
  | rep greedy least most body ih =>
    obtain ⟨m, hm, he⟩ := List.mem_flatMap.mp he
    have hstep : ∀ m, m ≤ q → ∀ e ∈ body.ends u m, e ≤ q := fun m hm e he => ih hr hm he
    have hm' := forall_mem_times hstep least [p]
      (fun m hm => by rw [List.mem_singleton.mp hm]; exact hp) m hm
    exact forall_mem_iterations hstep greedy _ m [] hm' (by simp) e he

theorem lt_of_mem_ends_of_spares (r : Regex) (hend : Source.EndsWith c u)
    (hr : r.spares c = true) {e : Nat} (hp : p < u.size) (he : e ∈ r.ends u p) : e < u.size := by
  have hle := r.le_of_mem_ends_of_spares hend hr (by omega) he
  omega

/-- **An expression that never takes the character matches what it matches without the text
behind.** -/
theorem ends_append_of_spares (r : Regex) (hend : Source.EndsWith c u)
    (hr : r.spares c = true) (hp : p < u.size) : r.ends (u ++ v) p = r.ends u p := by
  induction r generalizing p with
  | empty => rfl
  | anchor a => rw [ends, ends, a.holds_append hp]
  | set s => rw [ends, ends, Array.getElem?_append_left hp]
  | seq first second ih1 ih2 =>
    rw [spares, Bool.and_eq_true] at hr
    rw [ends, ends, ih1 hr.1 hp]
    apply List.flatMap_congr
    intro q hq
    exact ih2 hr.2 (first.lt_of_mem_ends_of_spares hend hr.1 hp hq)
  | alt first second ih1 ih2 =>
    rw [spares, Bool.and_eq_true] at hr
    rw [ends, ends, ih1 hr.1 hp, ih2 hr.2 hp]
  | group index body ih => exact ih hr hp
  | rep greedy least most body ih =>
    have hsame : ∀ q < u.size, body.ends u q = body.ends (u ++ v) q ∧
        ∀ e ∈ body.ends u q, e < u.size := by
      intro q hq
      exact ⟨(ih hr hq).symm, fun e he => body.lt_of_mem_ends_of_spares hend hr hq he⟩
    have hstart : ∀ q ∈ [p], p ≤ q ∧ q < u.size := by
      intro q hq
      rw [List.mem_singleton.mp hq]
      exact ⟨Nat.le_refl _, hp⟩
    have hstep : ∀ q, p ≤ q ∧ q < u.size → body.ends u q = body.ends (u ++ v) q ∧
        ∀ e ∈ body.ends u q, p ≤ e ∧ e < u.size := by
      intro q hq
      refine ⟨(hsame q hq.2).1, fun e he => ⟨?_, (hsame q hq.2).2 e he⟩⟩
      exact Nat.le_trans hq.1 (body.within_of_mem_ends (Nat.le_of_lt hq.2) he).1
    show (times (body.ends (u ++ v)) least [p]).flatMap _ =
      (times (body.ends u) least [p]).flatMap _
    rw [← times_congr hstep least hstart]
    apply List.flatMap_congr
    intro q hq
    obtain ⟨hpq, hq⟩ := forall_mem_times (fun q hq => (hstep q hq).2) least [p] hstart q hq
    refine (iterations_congr hsame hq ?_).symm
    cases most with
    | some m => exact .inl rfl
    | none =>
      have hroom : u.size ≤ q + (u.size + 1 - p) := by omega
      have hroom' : u.size ≤ q + ((u ++ v).size + 1 - p) := by
        rw [Array.size_append]
        omega
      exact .inr ⟨hroom, hroom'⟩

/-- The expression takes the character only as the last one. -/
def stopsAt (c : Char) : Regex → Bool
  | empty | anchor _ | set _ => true
  | seq a b => a.spares c && b.stopsAt c
  | alt a b => a.stopsAt c && b.stopsAt c
  | group _ body => body.stopsAt c
  | rep _ _ _ body => body.spares c

theorem ends_append_of_stopsAt (r : Regex) (hend : Source.EndsWith c u)
    (hr : r.stopsAt c = true) (hp : p < u.size) : r.ends (u ++ v) p = r.ends u p := by
  induction r generalizing p with
  | empty => rfl
  | anchor a => exact (anchor a).ends_append_of_spares hend rfl hp
  | set s => rw [ends, ends, Array.getElem?_append_left hp]
  | seq first second _ ih2 =>
    rw [stopsAt, Bool.and_eq_true] at hr
    rw [ends, ends, first.ends_append_of_spares hend hr.1 hp]
    apply List.flatMap_congr
    intro q hq
    exact ih2 hr.2 (first.lt_of_mem_ends_of_spares hend hr.1 hp hq)
  | alt first second ih1 ih2 =>
    rw [stopsAt, Bool.and_eq_true] at hr
    rw [ends, ends, ih1 hr.1 hp, ih2 hr.2 hp]
  | group index body ih => exact ih hr hp
  | rep greedy least most body _ =>
    exact (rep greedy least most body).ends_append_of_spares hend hr hp

/-- The expression never takes the character, but for a run of characters at its end. -/
def runsOn (c : Char) : Regex → Bool
  | seq a b => a.spares c && b.runsOn c
  | rep greedy least most (.set _) => greedy && least == 0 && most.isNone
  | empty | set _ | anchor _ | alt _ _ | group _ _ | rep _ _ _ _ => false

/-- There are both ends or neither, and they are the same below a bound. -/
inductive Near (size : Nat) : Option Nat → Option Nat → Prop
  | none : Near size none none
  | some {e e' : Nat} (h : e < size → e' = e) : Near size (some e) (some e')

namespace Near

theorem refl (size : Nat) (x : Option Nat) : Near size x x := by
  cases x with
  | none => exact .none
  | some e => exact .some fun _ => rfl

theorem flatMap {f g : Nat → List Nat} {qs : List Nat}
    (h : ∀ q ∈ qs, Near size (f q).head? (g q).head?) :
    Near size (qs.flatMap f).head? (qs.flatMap g).head? := by
  induction qs with
  | nil => exact .none
  | cons q qs ih =>
    have hrest := ih fun q hq => h q (List.mem_cons_of_mem _ hq)
    have hfirst := h q List.mem_cons_self
    rw [List.flatMap_cons, List.flatMap_cons, List.head?_append, List.head?_append]
    generalize (f q).head? = x at hfirst
    generalize (g q).head? = y at hfirst
    cases hfirst with
    | none => exact hrest
    | some h => exact .some h

end Near

/-- A step of a run of characters. -/
theorem iterations_set_succ (text : Source) (s : CharSet) (limit p : Nat) (later : List Nat) :
    iterations true ((set s).ends text) (limit + 1) p later =
      if (text[p]?).any s.contains then
        iterations true ((set s).ends text) limit (p + 1) (p :: later)
      else p :: later := by
  rw [iterations, ends]
  cases text[p]? with
  | none => rfl
  | some c =>
    rw [Option.any_some, if_pos rfl]
    dsimp only
    by_cases hc : s.contains c = true
    · rw [if_pos hc, if_pos hc, List.foldr_cons, if_pos (Nat.lt_succ_self p)]
      rfl
    · rw [if_neg hc, if_neg hc]
      rfl

theorem exists_head?_iterations_set (text : Source) (s : CharSet) (limit p : Nat)
    (later : List Nat) :
    ∃ e, (iterations true ((set s).ends text) limit p later).head? = some e := by
  induction limit generalizing p later with
  | zero => exact ⟨p, rfl⟩
  | succ limit ih =>
    rw [iterations_set_succ]
    split
    · exact ih (p + 1) (p :: later)
    · exact ⟨p, rfl⟩

/-- A run of characters of a set is the same up to the seam. -/
theorem near_iterations_set (s : CharSet) (hp : p ≤ u.size) (hlimit : u.size ≤ p + limit)
    (hlimit' : u.size ≤ p + limit') (later later' : List Nat) :
    Near u.size (iterations true ((set s).ends u) limit p later).head?
      (iterations true ((set s).ends (u ++ v)) limit' p later').head? := by
  induction limit generalizing p limit' later later' with
  | zero =>
    obtain ⟨e, he⟩ := exists_head?_iterations_set (u ++ v) s limit' p later'
    rw [he]
    exact .some fun hlt => absurd hlt (Nat.not_lt_of_le hlimit)
  | succ limit ih =>
    rw [iterations_set_succ]
    rcases Nat.lt_or_ge p u.size with hlt | hge
    · obtain ⟨k, rfl⟩ : ∃ k, limit' = k + 1 := Nat.exists_eq_succ_of_ne_zero (by omega)
      rw [iterations_set_succ, Array.getElem?_append_left hlt]
      split
      · exact ih hlt (by omega) (by omega) _ _
      · exact .refl _ _
    · obtain ⟨e, he⟩ := exists_head?_iterations_set (u ++ v) s limit' p later'
      rw [he, Array.getElem?_eq_none hge]
      exact .some fun hlt => absurd hlt (Nat.not_lt_of_le hge)

theorem near_firstEnd? (r : Regex) (hend : Source.EndsWith c u) (hr : r.runsOn c = true)
    (hp : p < u.size) : Near u.size (r.firstEnd? u p) (r.firstEnd? (u ++ v) p) := by
  induction r generalizing p with
  | seq first second _ ih2 =>
    rw [runsOn, Bool.and_eq_true] at hr
    rw [firstEnd?, firstEnd?, ends, ends, first.ends_append_of_spares hend hr.1 hp]
    exact Near.flatMap fun q hq =>
      ih2 hr.2 (first.lt_of_mem_ends_of_spares hend hr.1 hp hq)
  | rep greedy least most body _ =>
    cases body with
    | set s =>
      rw [runsOn, Bool.and_eq_true, Bool.and_eq_true, beq_iff_eq, Option.isNone_iff_eq_none] at hr
      obtain ⟨⟨rfl, rfl⟩, rfl⟩ := hr
      have hrun : ∀ text : Source, ((rep true 0 none (set s)).firstEnd? text p) =
          (iterations true ((set s).ends text) (text.size + 1 - p) p []).head? := by
        intro text
        show ([p].flatMap _).head? = _
        rw [List.flatMap_singleton]
      rw [hrun, hrun]
      apply near_iterations_set s (Nat.le_of_lt hp)
      · omega
      · rw [Array.size_append]
        omega
    | empty | anchor _ | seq _ _ | alt _ _ | group _ _ | rep _ _ _ _ => cases hr
  | empty | set _ | anchor _ | alt _ _ | group _ _ => cases hr

/-! ### Behind the seam -/

/-- What the expression matches at the start of a text, it matches behind the character. -/
def mayFollow (c : Char) : Regex → Bool
  | empty | set _ => true
  | anchor a => a.mayFollow c
  | seq a b | alt a b => a.mayFollow c && b.mayFollow c
  | group _ body | rep _ _ _ body => body.mayFollow c

theorem times_map {n : Nat} (hstep : ∀ q, step' (n + q) = (step q).map (n + ·)) (k : Nat)
    (ps : List Nat) : times step' k (ps.map (n + ·)) = (times step k ps).map (n + ·) := by
  induction k generalizing ps with
  | zero => rfl
  | succ k ih =>
    have hflat : (ps.map (n + ·)).flatMap step' = (ps.flatMap step).map (n + ·) := by
      rw [List.flatMap_map, List.map_flatMap]
      exact List.flatMap_congr fun q _ => hstep q
    rw [times, times, hflat, ih, List.isEmpty_map]
    split <;> rfl

theorem iterations_map {n : Nat} (hstep : ∀ q, step' (n + q) = (step q).map (n + ·))
    (limit pos : Nat) (later : List Nat) :
    iterations greedy step' limit (n + pos) (later.map (n + ·)) =
      (iterations greedy step limit pos later).map (n + ·) := by
  induction limit generalizing pos later with
  | zero => rfl
  | succ limit ih =>
    have hfurther : ∀ later : List Nat,
        (step' (n + pos)).foldr (fun stop later =>
          if n + pos < stop then iterations greedy step' limit stop later else later)
            (later.map (n + ·)) =
        ((step pos).foldr (fun stop later =>
          if pos < stop then iterations greedy step limit stop later else later) later).map
            (n + ·) := by
      intro later
      rw [hstep]
      induction step pos with
      | nil => rfl
      | cons stop stops ihstops =>
        rw [List.map_cons, List.foldr_cons, List.foldr_cons, ihstops]
        by_cases hlt : pos < stop
        · rw [if_pos hlt, if_pos (Nat.add_lt_add_left hlt n), ih]
        · rw [if_neg hlt, if_neg (fun h => hlt (Nat.lt_of_add_lt_add_left h))]
    rw [iterations, iterations]
    cases greedy with
    | true => exact hfurther (pos :: later)
    | false => exact congrArg ((n + pos) :: ·) (hfurther later)

/-- **Behind the seam an expression matches what it matches in the rest alone.** -/
theorem ends_append_add (r : Regex) (hend : Source.EndsWith c u) (hr : r.mayFollow c = true)
    (p : Nat) : r.ends (u ++ v) (u.size + p) = (r.ends v p).map (u.size + ·) := by
  induction r generalizing p with
  | empty => rfl
  | anchor a =>
    rw [ends, ends, Anchor.holds_append_add hend hr]
    split <;> rfl
  | set s =>
    rw [ends, ends, Source.getElem?_append_add]
    split
    · split <;> rfl
    · rfl
  | seq first second ih1 ih2 =>
    rw [mayFollow, Bool.and_eq_true] at hr
    rw [ends, ends, ih1 hr.1, List.flatMap_map, List.map_flatMap]
    exact List.flatMap_congr fun q _ => ih2 hr.2 q
  | alt first second ih1 ih2 =>
    rw [mayFollow, Bool.and_eq_true] at hr
    rw [ends, ends, ih1 hr.1, ih2 hr.2, List.map_append]
  | group index body ih => exact ih hr p
  | rep greedy least most body ih =>
    have hlimit : (u ++ v).size + 1 - (u.size + p) = v.size + 1 - p := by
      rw [Array.size_append]
      omega
    have htimes := times_map (ih hr) least [p]
    show (times (body.ends (u ++ v)) least [u.size + p]).flatMap _ =
      ((times (body.ends v) least [p]).flatMap _).map _
    rw [List.map_singleton] at htimes
    rw [htimes, List.flatMap_map, List.map_flatMap]
    apply List.flatMap_congr
    intro q _
    rw [hlimit]
    exact iterations_map (ih hr) _ q []

end Regex

end Highlighting
