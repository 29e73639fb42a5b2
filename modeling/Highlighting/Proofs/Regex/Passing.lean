/-
  Highlighting/Proofs/Regex/Passing.lean
  ======================================
  **An automaton finds an end of its expression.**

  The ways through the states of an expression are its ends
  (`Automaton.passesEnds`): that is said of any automaton that has these states
  in it, with whatever comes next behind them (`Automaton.Passes`).  Ways are
  counted in steps for this, since a repetition leads back to where it began.
  So a matcher finds one of the ends (`Matcher.mem_ends_of_firstEnd?`) wherever
  there is one (`Matcher.isSome_firstEnd?`), however it works.
-/
import Highlighting.Proofs.Regex.Iterations
import Highlighting.Proofs.Regex.Reaching

namespace Highlighting

/-! ### Steps -/

namespace Automaton

variable {a : Automaton} {text : Source} {p q r e m n next : Nat} {states : Array AutomatonState}
  {step step' : Nat → Nat → Prop}

/-- A thread in the state can go on from the position in that many steps so that it accepts at the
end. -/
inductive ReachesIn (a : Automaton) (text : Source) : Nat → Nat → Nat → Nat → Prop
  | accept {q p : Nat} (hq : a.states[q]? = some .accept) : ReachesIn a text 0 q p p
  | goes {n q r p e : Nat} (hr : r ∈ a.onward text p q) (h : ReachesIn a text n r p e) :
      ReachesIn a text (n + 1) q p e
  | takes {n q next p e : Nat} {s : CharSet} {c : Char}
      (hq : a.states[q]? = some (.take s next)) (hc : text[p]? = some c)
      (hs : s.contains c = true) (h : ReachesIn a text n next (p + 1) e) :
      ReachesIn a text (n + 1) q p e

theorem reaches_iff : a.Reaches text q p e ↔ ∃ n, a.ReachesIn text n q p e := by
  constructor
  · intro h
    induction h with
    | accept hq => exact ⟨0, .accept hq⟩
    | goes hr _ ih =>
      obtain ⟨n, h⟩ := ih
      exact ⟨n + 1, .goes hr h⟩
    | takes hq hc hs _ ih =>
      obtain ⟨n, h⟩ := ih
      exact ⟨n + 1, .takes hq hc hs h⟩
  · rintro ⟨n, h⟩
    induction h with
    | accept hq => exact .accept hq
    | goes hr _ ih => exact .goes hr ih
    | takes hq hc hs _ ih => exact .takes hq hc hs ih

/-- **Threads pass from the state `entry` to the state `next`** by what the step relates: whatever
they reach they reach by way of that state, in no more steps, and what can be reached from there
they do reach. -/
structure Passes (a : Automaton) (text : Source) (entry next : Nat) (step : Nat → Nat → Prop) :
    Prop where
  within : ∀ {p m}, p ≤ text.size → step p m → p ≤ m ∧ m ≤ text.size
  sound : ∀ {n p e}, p ≤ text.size → a.ReachesIn text n entry p e →
    ∃ m, step p m ∧ ∃ k ≤ n, a.ReachesIn text k next m e
  complete : ∀ {p m e}, p ≤ text.size → step p m → a.Reaches text next m e →
    a.Reaches text entry p e

theorem exists_of_choice {greedy : Bool} {body after : Nat}
    (hq : a.states[q]? = some (choice greedy body after)) (h : a.ReachesIn text n q p e) :
    ∃ k, n = k + 1 ∧ (a.ReachesIn text k body p e ∨ a.ReachesIn text k after p e) := by
  rcases h with haccept | ⟨hr, h⟩ | ⟨hq', -, -, -⟩
  · cases greedy <;> cases hq.symm.trans haccept
  · rw [onward, hq] at hr
    cases greedy with
    | true =>
      rcases List.mem_pair.mp hr with rfl | rfl
      · exact ⟨_, rfl, .inl h⟩
      · exact ⟨_, rfl, .inr h⟩
    | false =>
      rcases List.mem_pair.mp hr with rfl | rfl
      · exact ⟨_, rfl, .inr h⟩
      · exact ⟨_, rfl, .inl h⟩
  · cases greedy <;> cases hq.symm.trans hq'

theorem reaches_of_choice {greedy : Bool} {body after : Nat}
    (hq : a.states[q]? = some (choice greedy body after))
    (h : a.Reaches text body p e ∨ a.Reaches text after p e) : a.Reaches text q p e := by
  have hgoes : body ∈ a.onward text p q ∧ after ∈ a.onward text p q := by
    rw [onward, hq]
    cases greedy <;> simp [choice]
  rcases h with h | h
  · exact .goes hgoes.1 h
  · exact .goes hgoes.2 h

namespace Passes

theorem congr (h : a.Passes text q r step)
    (heq : ∀ p m, p ≤ text.size → (step p m ↔ step' p m)) : a.Passes text q r step' where
  within hp hm := h.within hp ((heq _ _ hp).mpr hm)
  sound hp hreach := by
    obtain ⟨m, hm, hnext⟩ := h.sound hp hreach
    exact ⟨m, (heq _ _ hp).mp hm, hnext⟩
  complete hp hm hreach := h.complete hp ((heq _ _ hp).mpr hm) hreach

theorem refl (a : Automaton) (text : Source) (q : Nat) : a.Passes text q q fun p m => m = p where
  within := by
    rintro p m hp rfl
    exact ⟨Nat.le_refl m, hp⟩
  sound _ hreach := ⟨_, rfl, _, Nat.le_refl _, hreach⟩
  complete _ hm hreach := hm ▸ hreach

theorem trans (h : a.Passes text q r step) (h' : a.Passes text r next step') :
    a.Passes text q next fun p m => ∃ i, step p i ∧ step' i m where
  within := by
    rintro p m hp ⟨i, hi, hm⟩
    obtain ⟨hle, hsize⟩ := h.within hp hi
    obtain ⟨hle', hsize'⟩ := h'.within hsize hm
    exact ⟨Nat.le_trans hle hle', hsize'⟩
  sound hp hreach := by
    obtain ⟨i, hi, k, hk, hreach⟩ := h.sound hp hreach
    obtain ⟨m, hm, k', hk', hreach⟩ := h'.sound (h.within hp hi).2 hreach
    exact ⟨m, ⟨i, hi, hm⟩, k', Nat.le_trans hk' hk, hreach⟩
  complete := by
    rintro p m e hp ⟨i, hi, hm⟩ hreach
    exact h.complete hp hi (h'.complete (h.within hp hi).2 hm hreach)

theorem take {s : CharSet} (hq : a.states[q]? = some (.take s next)) :
    a.Passes text q next fun p m => m ∈ (Regex.set s).ends text p where
  within := Regex.within_of_mem_ends _
  sound := by
    rintro n p e - (haccept | ⟨hr, -⟩ | ⟨hq', hc, hs, hreach⟩)
    · cases hq.symm.trans haccept
    · rw [onward, hq] at hr
      cases hr
    · cases hq.symm.trans hq'
      refine ⟨p + 1, ?_, _, Nat.le_succ _, hreach⟩
      rw [Regex.ends, hc]
      simp [hs]
  complete := by
    intro p m e _ hm hreach
    rw [Regex.ends] at hm
    split at hm
    · next c hc =>
      split at hm
      · next hs =>
        obtain rfl := List.mem_singleton.mp hm
        exact .takes hq hc hs hreach
      · cases hm
    · cases hm

theorem check {cond : Anchor} (hq : a.states[q]? = some (.check cond next)) :
    a.Passes text q next fun p m => m ∈ (Regex.anchor cond).ends text p where
  within := Regex.within_of_mem_ends _
  sound := by
    rintro n p e - (haccept | ⟨hr, hreach⟩ | ⟨hq', -, -, -⟩)
    · cases hq.symm.trans haccept
    · rw [onward, hq] at hr
      dsimp only at hr
      split at hr
      · next hholds =>
        obtain rfl := List.mem_singleton.mp hr
        refine ⟨p, ?_, _, Nat.le_succ _, hreach⟩
        rw [Regex.ends, if_pos hholds]
        exact List.mem_singleton_self p
      · cases hr
    · cases hq.symm.trans hq'
  complete := by
    intro p m e _ hm hreach
    rw [Regex.ends] at hm
    split at hm
    · next hholds =>
      obtain rfl := List.mem_singleton.mp hm
      refine .goes ?_ hreach
      rw [onward, hq]
      dsimp only
      rw [if_pos hholds]
      exact List.mem_singleton_self _
    · cases hm

theorem choice {greedy : Bool} {body after : Nat}
    (hq : a.states[q]? = some (Automaton.choice greedy body after))
    (h : a.Passes text body next step) (h' : a.Passes text after next step') :
    a.Passes text q next fun p m => step p m ∨ step' p m where
  within := by
    rintro p m hp (hm | hm)
    · exact h.within hp hm
    · exact h'.within hp hm
  sound := by
    intro n p e hp hreach
    obtain ⟨k, rfl, hreach | hreach⟩ := exists_of_choice hq hreach
    · obtain ⟨m, hm, k', hk', hreach⟩ := h.sound hp hreach
      exact ⟨m, .inl hm, k', Nat.le_succ_of_le hk', hreach⟩
    · obtain ⟨m, hm, k', hk', hreach⟩ := h'.sound hp hreach
      exact ⟨m, .inr hm, k', Nat.le_succ_of_le hk', hreach⟩
  complete := by
    rintro p m e hp (hm | hm) hreach
    · exact reaches_of_choice hq (.inl (h.complete hp hm hreach))
    · exact reaches_of_choice hq (.inr (h'.complete hp hm hreach))

/-- **A choice that the body leads back to passes through it any number of times.**  The induction
is on the number of steps, of which each time takes at least one. -/
theorem loop {greedy : Bool} {entry : Nat} {step : Nat → List Nat}
    (hq : a.states[q]? = some (Automaton.choice greedy entry next))
    (h : a.Passes text entry q fun p m => m ∈ step p) :
    a.Passes text q next fun p m => ∃ n, Regex.GetsTo step n p m where
  within := by
    rintro p m hp ⟨n, hm⟩
    induction n generalizing p with
    | zero => exact hm ▸ ⟨Nat.le_refl m, hm ▸ hp⟩
    | succ n ih =>
      rcases hm with rfl | ⟨i, hi, hlt, hm⟩
      · exact ⟨Nat.le_refl m, hp⟩
      · obtain ⟨hle, hsize⟩ := ih (h.within hp hi).2 hm
        exact ⟨Nat.le_trans (Nat.le_of_lt hlt) hle, hsize⟩
  sound := by
    intro n
    induction n using Nat.strong_induction_on with
    | h n ih =>
      intro p e hp hreach
      obtain ⟨k, rfl, hreach | hreach⟩ := exists_of_choice hq hreach
      · obtain ⟨i, hi, k', hk', hreach⟩ := h.sound hp hreach
        obtain ⟨hle, hsize⟩ := h.within hp hi
        obtain ⟨m, ⟨l, hm⟩, k'', hk'', hreach⟩ := ih k' (Nat.lt_succ_of_le hk') hsize hreach
        exact ⟨m, ⟨l + 1, hm.cons hle hi⟩, k'',
          Nat.le_succ_of_le (Nat.le_trans hk'' hk'), hreach⟩
      · exact ⟨p, ⟨0, rfl⟩, k, Nat.le_succ k, hreach⟩
  complete := by
    rintro p m e hp ⟨n, hm⟩ hreach
    induction n generalizing p with
    | zero => exact reaches_of_choice hq (.inr (hm ▸ hreach))
    | succ n ih =>
      rcases hm with rfl | ⟨i, hi, -, hm⟩
      · exact reaches_of_choice hq (.inr hreach)
      · exact reaches_of_choice hq (.inl (h.complete hp hi (ih (h.within hp hi).2 hm)))

end Passes

/-! ### States that are added -/

/-- States have been added behind those. -/
structure Extends (states states' : Array AutomatonState) : Prop where
  le : states.size ≤ states'.size
  old : ∀ q < states.size, states'[q]? = states[q]?

namespace Extends

variable {states' states'' : Array AutomatonState}

theorem refl (states : Array AutomatonState) : Extends states states :=
  ⟨Nat.le_refl _, fun _ _ => rfl⟩

theorem trans (h : Extends states states') (h' : Extends states' states'') :
    Extends states states'' where
  le := Nat.le_trans h.le h'.le
  old q hq := by rw [h'.old q (Nat.lt_of_lt_of_le hq h.le), h.old q hq]

theorem push (h : Extends states states') (s : AutomatonState) :
    Extends states (states'.push s) where
  le := by
    rw [Array.size_push]
    exact Nat.le_succ_of_le h.le
  old q hq := by
    rw [Array.getElem?_push, if_neg (Nat.ne_of_lt (Nat.lt_of_lt_of_le hq h.le))]
    exact h.old q hq

/-- The state that a repetition leads back to becomes a choice in the end. -/
theorem loop {held : AutomatonState} (h : Extends (states.push held) states')
    (s : AutomatonState) : Extends states (states'.setIfInBounds states.size s) where
  le := by
    rw [Array.size_setIfInBounds]
    exact Nat.le_trans ((refl states).push held).le h.le
  old q hq := by
    rw [Array.getElem?_setIfInBounds_ne (Nat.ne_of_gt hq)]
    exact ((refl states).push held |>.trans h).old q hq

theorem iterate {f : Nat × Array AutomatonState → Nat × Array AutomatonState}
    (hf : ∀ x, Extends x.2 (f x).2) (n : Nat) (x : Nat × Array AutomatonState) :
    Extends x.2 (Nat.repeat f n x).2 := by
  induction n with
  | zero => exact refl x.2
  | succ n ih => exact ih.trans (hf _)

end Extends

theorem add_alt (first second : Regex) (next : Nat) (states : Array AutomatonState) :
    add (.alt first second) next states =
      Automaton.push (add first next (add second next states).2).2
        (.split (add first next (add second next states).2).1 (add second next states).1) := rfl

/-- The states of copies of an expression, one in front of the other. -/
def copies (body : Regex) : Nat → Nat × Array AutomatonState → Nat × Array AutomatonState :=
  Nat.repeat fun x => add body x.1 x.2

/-- The states of copies of an expression that may be left out, each behind a choice. -/
def surplus (greedy : Bool) (body : Regex) (next : Nat) :
    Nat → Nat × Array AutomatonState → Nat × Array AutomatonState :=
  Nat.repeat fun x =>
    Automaton.push (add body x.1 x.2).2 (Automaton.choice greedy (add body x.1 x.2).1 next)

theorem add_rep_some (greedy : Bool) (least most : Nat) (body : Regex) (next : Nat)
    (states : Array AutomatonState) :
    add (.rep greedy least (some most) body) next states =
      copies body least (surplus greedy body next (most - least) (next, states)) := rfl

theorem add_rep_none (greedy : Bool) (least : Nat) (body : Regex) (next : Nat)
    (states : Array AutomatonState) :
    add (.rep greedy least none body) next states =
      let entry := (add body states.size (states.push .accept)).1
      let looped := (add body states.size (states.push .accept)).2.setIfInBounds states.size
        (Automaton.choice greedy entry next)
      if 0 < least then copies body (least - 1) (entry, looped)
      else if body.nullable then Automaton.push looped (Automaton.choice greedy entry next)
      else (states.size, looped) := rfl

/-- **The states of an expression are added** to those there are. -/
theorem extends_add (r : Regex) (next : Nat) (states : Array AutomatonState) :
    Extends states (add r next states).2 := by
  induction r generalizing next states with
  | empty => exact .refl states
  | set s => exact (Extends.refl states).push _
  | anchor a => exact (Extends.refl states).push _
  | seq first second ih₁ ih₂ => exact (ih₂ next states).trans (ih₁ _ _)
  | alt first second ih₁ ih₂ => exact ((ih₂ next states).trans (ih₁ next _)).push _
  | group index body ih => exact ih next states
  | rep greedy least most body ih =>
    have hcopies : ∀ n x, Extends x.2 (copies body n x).2 := .iterate fun x => ih x.1 x.2
    cases most with
    | some most =>
      rw [add_rep_some]
      exact (Extends.iterate (fun x => (ih x.1 x.2).push _) (most - least) (next, states)).trans
        (hcopies least _)
    | none =>
      have hloop := fun s => (ih states.size (states.push .accept)).loop s
      rw [add_rep_none]
      dsimp only
      split
      · exact (hloop _).trans (hcopies _ (_, _))
      · split
        · exact (hloop _).push _
        · exact hloop _

theorem extends_copies (body : Regex) (n : Nat) (x : Nat × Array AutomatonState) :
    Extends x.2 (copies body n x).2 :=
  .iterate (fun x => extends_add body x.1 x.2) n x

theorem extends_surplus (greedy : Bool) (body : Regex) (next n : Nat)
    (x : Nat × Array AutomatonState) : Extends x.2 (surplus greedy body next n x).2 :=
  .iterate (fun x => (extends_add body x.1 x.2).push _) n x

/-! ### Expressions -/

/-- The automaton has what has been added behind those states. -/
def Contains (a : Automaton) (states added : Array AutomatonState) : Prop :=
  ∀ q, states.size ≤ q → q < added.size → a.states[q]? = added[q]?

namespace Contains

variable {middle added : Array AutomatonState} {s : AutomatonState}

theorem front (h : a.Contains states added) (hext : Extends middle added) :
    a.Contains states middle := by
  intro q hq hlt
  rw [h q hq (Nat.lt_of_lt_of_le hlt hext.le)]
  exact hext.old q hlt

theorem behind (h : a.Contains states added) (hle : states.size ≤ middle.size) :
    a.Contains middle added :=
  fun q hq => h q (Nat.le_trans hle hq)

theorem pushed (h : a.Contains states (middle.push s)) (hle : states.size ≤ middle.size) :
    a.states[middle.size]? = some s := by
  rw [h _ hle (by rw [Array.size_push]; exact Nat.lt_succ_self _), Array.getElem?_push, if_pos rfl]

theorem of_push (h : a.Contains states (middle.push s)) : a.Contains states middle := by
  intro q hq hlt
  rw [h q hq (by rw [Array.size_push]; exact Nat.lt_succ_of_lt hlt), Array.getElem?_push,
    if_neg (Nat.ne_of_lt hlt)]

end Contains

/-- The ways through the states of the expression are its ends, wherever these have been added. -/
def PassesEnds (a : Automaton) (text : Source) (r : Regex) : Prop :=
  ∀ next states, a.Contains states (add r next states).2 →
    a.Passes text (add r next states).1 next fun p m => m ∈ r.ends text p

theorem passes_copies {body : Regex} {entry : Nat} (hbody : a.PassesEnds text body)
    (h : a.Contains states (copies body n (entry, states)).2) :
    a.Passes text (copies body n (entry, states)).1 entry
      fun p m => m ∈ Regex.times (body.ends text) n [p] := by
  induction n with
  | zero => exact (Passes.refl a text entry).congr fun p m _ => List.mem_singleton.symm
  | succ n ih =>
    have hcopies := extends_copies body n (entry, states)
    have hlast := extends_add body (copies body n (entry, states)).1
      (copies body n (entry, states)).2
    exact ((hbody _ _ (h.behind hcopies.le)).trans (ih (h.front hlast))).congr
      fun p m _ => Regex.mem_times_succ_iff.symm

theorem passes_surplus {greedy : Bool} {body : Regex} (hbody : a.PassesEnds text body)
    (h : a.Contains states (surplus greedy body next n (next, states)).2) :
    a.Passes text (surplus greedy body next n (next, states)).1 next
      fun p m => Regex.GetsTo (body.ends text) n p m := by
  induction n with
  | zero => exact .refl a text next
  | succ n ih =>
    have hsurplus := extends_surplus greedy body next n (next, states)
    have hlast := extends_add body (surplus greedy body next n (next, states)).1
      (surplus greedy body next n (next, states)).2
    have hcopy := (hbody _ _ (h.of_push.behind hsurplus.le)).trans (ih (h.of_push.front hlast))
    have hchoice := h.pushed (Nat.le_trans hsurplus.le hlast.le)
    refine (Passes.choice hchoice hcopy (.refl a text next)).congr fun p m hp => ?_
    exact (Regex.getsTo_succ_iff fun q hq => (body.within_of_mem_ends hp hq).1).symm

/-- **The states of a repetition without a bound** lead back to a choice. -/
theorem passes_loop {greedy : Bool} {body : Regex} (hbody : a.PassesEnds text body)
    (h : a.Contains states ((add body states.size (states.push .accept)).2.setIfInBounds states.size
      (Automaton.choice greedy (add body states.size (states.push .accept)).1 next))) :
    a.Passes text (add body states.size (states.push .accept)).1 states.size
        (fun p m => m ∈ body.ends text p) ∧
      a.Passes text states.size next fun p m => ∃ n, Regex.GetsTo (body.ends text) n p m := by
  have hle := (extends_add body states.size (states.push .accept)).le
  rw [Array.size_push] at hle
  have hback : a.states[states.size]? =
      some (Automaton.choice greedy (add body states.size (states.push .accept)).1 next) := by
    rw [h states.size (Nat.le_refl _) (by rw [Array.size_setIfInBounds]; exact hle),
      Array.getElem?_setIfInBounds_self_of_lt hle]
  have hcontains : a.Contains (states.push .accept)
      (add body states.size (states.push .accept)).2 := by
    intro q hq hlt
    rw [Array.size_push] at hq
    rw [h q (Nat.le_of_succ_le hq) (by rwa [Array.size_setIfInBounds]),
      Array.getElem?_setIfInBounds_ne (Nat.ne_of_lt hq)]
  have hentry := hbody _ _ hcontains
  exact ⟨hentry, .loop hback hentry⟩

theorem passes_rep_some {greedy : Bool} {least most : Nat} {body : Regex}
    (hbody : a.PassesEnds text body)
    (h : a.Contains states (add (.rep greedy least (some most) body) next states).2) :
    a.Passes text (add (.rep greedy least (some most) body) next states).1 next
      fun p m => m ∈ (Regex.rep greedy least (some most) body).ends text p := by
  have hsurplus := extends_surplus greedy body next (most - least) (next, states)
  have hcopies := extends_copies body least
    (surplus greedy body next (most - least) (next, states))
  have hfirst := passes_copies hbody (h.behind hsurplus.le)
  have hrest := passes_surplus hbody (h.front hcopies)
  exact (hfirst.trans hrest).congr fun p m _ => Regex.mem_ends_rep_some.symm

theorem passes_rep_none {greedy : Bool} {least : Nat} {body : Regex}
    (hbody : a.PassesEnds text body)
    (h : a.Contains states (add (.rep greedy least none body) next states).2) :
    a.Passes text (add (.rep greedy least none body) next states).1 next
      fun p m => m ∈ (Regex.rep greedy least none body).ends text p := by
  rw [add_rep_none] at h ⊢
  dsimp only at h ⊢
  have hle := (extends_add body states.size (states.push .accept)).le
  rw [Array.size_push] at hle
  generalize hlooped : (add body states.size (states.push .accept)).2.setIfInBounds states.size
    (Automaton.choice greedy (add body states.size (states.push .accept)).1 next) = looped at h ⊢
  have hsize : states.size ≤ looped.size := by
    rw [← hlooped, Array.size_setIfInBounds]
    exact Nat.le_of_succ_le hle
  have hpasses := fun h : a.Contains states looped => passes_loop hbody (hlooped ▸ h)
  have hzero : ∀ p m, (∃ q ∈ Regex.times (body.ends text) 0 [p],
      ∃ n, Regex.GetsTo (body.ends text) n q m) ↔
        ∃ n, Regex.GetsTo (body.ends text) n p m := by
    intro p m
    simp [Regex.times]
  by_cases hleast : 0 < least
  · obtain ⟨least, rfl⟩ := Nat.exists_eq_succ_of_ne_zero (Nat.ne_of_gt hleast)
    rw [if_pos hleast] at h ⊢
    have hcopies := extends_copies body least
      ((add body states.size (states.push .accept)).1, looped)
    obtain ⟨hentry, hloop⟩ := hpasses (h.front hcopies)
    have hfirst := passes_copies hbody (h.behind hsize)
    refine ((hfirst.trans hentry).trans hloop).congr fun p m hp => ?_
    rw [Regex.mem_ends_rep_none hp]
    simp only [Regex.mem_times_succ_iff']
    exact Iff.rfl
  · obtain rfl := Nat.eq_zero_of_not_pos hleast
    rw [if_neg hleast] at h ⊢
    split at h
    · next hnullable =>
      rw [if_pos hnullable]
      obtain ⟨hentry, hloop⟩ := hpasses h.of_push
      refine (Passes.choice (h.pushed hsize) (hentry.trans hloop) (.refl a text next)).congr
        fun p m hp => ?_
      rw [Regex.mem_ends_rep_none hp, hzero]
      constructor
      · rintro (⟨q, hq, n, hm⟩ | rfl)
        · exact ⟨n + 1, hm.cons (body.within_of_mem_ends hp hq).1 hq⟩
        · exact ⟨0, rfl⟩
      · rintro ⟨n, hm⟩
        have hle : ∀ q ∈ body.ends text p, p ≤ q :=
          fun q hq => (body.within_of_mem_ends hp hq).1
        rcases (Regex.getsTo_succ_iff hle).mp hm.succ with ⟨q, hq, hm⟩ | rfl
        · exact .inl ⟨q, hq, n, hm⟩
        · exact .inr rfl
    · next hnullable =>
      rw [if_neg hnullable]
      refine (hpasses h).2.congr fun p m hp => ?_
      rw [Regex.mem_ends_rep_none hp, hzero]

/-- **The ways through the states of an expression are its ends.** -/
theorem passesEnds (a : Automaton) (text : Source) (r : Regex) : a.PassesEnds text r := by
  induction r with
  | empty =>
    intro next states h
    exact (Passes.refl a text next).congr fun p m _ => List.mem_singleton.symm
  | set s =>
    intro next states h
    exact .take (h.pushed (Nat.le_refl _))
  | anchor cond =>
    intro next states h
    exact .check (h.pushed (Nat.le_refl _))
  | seq first second ih₁ ih₂ =>
    intro next states h
    have hsecond := extends_add second next states
    have hfirst := extends_add first (add second next states).1 (add second next states).2
    exact ((ih₁ _ _ (h.behind hsecond.le)).trans (ih₂ _ _ (h.front hfirst))).congr
      fun p m _ => List.mem_flatMap.symm
  | alt first second ih₁ ih₂ =>
    intro next states h
    rw [add_alt] at h ⊢
    have hsecond := extends_add second next states
    have hfirst := extends_add first next (add second next states).2
    have hchoice : a.states[(add first next (add second next states).2).2.size]? =
        some (Automaton.choice true _ _) := h.pushed (Nat.le_trans hsecond.le hfirst.le)
    refine (Passes.choice hchoice (ih₁ _ _ (h.of_push.behind hsecond.le))
      (ih₂ _ _ (h.of_push.front hfirst))).congr fun p m _ => ?_
    rw [Regex.ends, List.mem_append]
  | group index body ih => exact ih
  | rep greedy least most body ih =>
    intro next states h
    cases most with
    | some most => exact passes_rep_some ih h
    | none => exact passes_rep_none ih h

/-- **An automaton can reach the ends of its expression**, and no other. -/
theorem reaches_ofRegex (r : Regex) (hp : p ≤ text.size) :
    (ofRegex r).Reaches text (ofRegex r).start p e ↔ e ∈ r.ends text p := by
  have hcontains : (ofRegex r).Contains #[.accept] (add r 0 #[.accept]).2 := fun _ _ _ => rfl
  have hpasses := (ofRegex r).passesEnds text r 0 _ hcontains
  have haccept : (ofRegex r).states[0]? = some .accept :=
    (extends_add r 0 #[.accept]).old 0 Nat.one_pos
  constructor
  · intro h
    obtain ⟨n, h⟩ := reaches_iff.mp h
    obtain ⟨m, hm, k, -, hreach⟩ := hpasses.sound hp h
    rwa [(reaches_accept haccept).mp (reaches_iff.mpr ⟨k, hreach⟩)]
  · intro h
    exact hpasses.complete hp h ((reaches_accept haccept).mpr rfl)

end Automaton

namespace Matcher

variable {r : Regex} {text : Source} {p e : Nat}

/-- What a matcher prefers is an end of the expression. -/
theorem mem_ends_of_firstEnd? (hp : p ≤ text.size) (h : (ofRegex r).firstEnd? text p = some e) :
    e ∈ r.ends text p := by
  rw [ofRegex] at h
  split at h
  · exact List.mem_of_mem_head? h
  · exact (Automaton.reaches_ofRegex r hp).mp (Automaton.reaches_of_firstEnd? h)

/-- A matcher finds an end of the expression if there is one. -/
theorem isSome_firstEnd? (hp : p ≤ text.size) (h : e ∈ r.ends text p) :
    ((ofRegex r).firstEnd? text p).isSome = true := by
  rw [ofRegex]
  split
  · exact List.isSome_head?.mpr (List.ne_nil_of_mem h)
  · exact Automaton.isSome_firstEnd? hp ((Automaton.reaches_ofRegex r hp).mpr h)

/-- **Where an expression has one end only, a matcher finds that.** -/
theorem firstEnd?_eq_some_iff (hp : p ≤ text.size)
    (hunique : ∀ e ∈ r.ends text p, ∀ e' ∈ r.ends text p, e = e') :
    (ofRegex r).firstEnd? text p = some e ↔ e ∈ r.ends text p := by
  refine ⟨mem_ends_of_firstEnd? hp, fun h => ?_⟩
  obtain ⟨e', he'⟩ := Option.isSome_iff_exists.mp (isSome_firstEnd? hp h)
  rw [he', hunique e h e' (mem_ends_of_firstEnd? hp he')]

end Matcher

end Highlighting
