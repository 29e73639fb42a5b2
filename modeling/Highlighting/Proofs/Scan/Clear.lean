/-
  Highlighting/Proofs/Scan/Clear.lean
  ===================================
  **A scan that takes nothing back**, state by state.

  As long as no region is taken back, nothing is barred and no trail is kept
  (`State.Clear`).  Then a step takes just the match that comes next
  (`State.Clear.move`), so that a chain of such matches that leaves the outermost
  level at once is what the scan does from its start (`exists_entered`).  Over a
  stretch where all matches are taken as a whole, such a chain leads to the match
  behind (`exists_advances_to`).
-/
import Highlighting.Proofs.Scan.Lenient
import Highlighting.Proofs.Scan.Replay

namespace Highlighting.Scan

variable {task : Task} {s t : State} {c d : Core} {f : Found} {n q : Nat}

/-! ### States -/

/-- Nothing is barred, and no region is remembered that was taken back. -/
structure State.Clear (task : Task) (s : State) : Prop where
  barred : s.barred = []
  trails : s.trails = none
  fresh : Fresh task s.barred s.cache

namespace State.Clear

theorem start (task : Task) : (State.start task.grammar).Clear task :=
  ⟨rfl, rfl, Cache.All.replicate _⟩

/-- Without a trail to retrace, no opening is skipped. -/
theorem not_skips (h : s.trails = none) (f : Found) : s.skips task f = false := by
  rw [State.skips]
  split
  · rw [State.retraces, h, Bool.and_false]
  · rfl

theorem takesBack_of_isOnward (h : f.IsOnward s.core.modes) : s.takesBack f = false := by
  rw [State.takesBack, Bool.and_eq_false_iff, decide_eq_false_iff_not, Bool.not_eq_false']
  by_cases hf : f.candidate = .illegal
  · have hmodes : s.modes = [] := (modes_core s).symm.trans (h hf)
    exact .inr (List.isEmpty_iff.mpr (List.map_eq_nil_iff.mp hmodes))
  · exact .inl hf

/-- **A step takes the match that comes next**, and keeps the scan clear. -/
theorem move (hsound : task.IsSound) (h : s.Clear task) (hnext : s.core.next? task = some f)
    (honward : f.IsOnward s.core.modes) :
    (s.next? task).1 = some f ∧ ((s.move task f).next task).Clear task ∧
      ((s.move task f).next task).core = s.core.take task f := by
  have hfound : (s.next? task).1 = some f := (next?_eq_core hsound h.fresh).trans hnext
  have hcore : ((s.next? task).2.handle task f).core = s.core.take task f :=
    core_handle_of_not_skips (not_skips h.trails f)
  refine ⟨hfound, ⟨?_, ?_, ?_⟩, hcore⟩
  · have hbarred : ((s.next? task).2.handle task f).core.barred = s.core.barred := by
      rw [hcore]
      exact Core.barred_take honward
    exact hbarred.trans h.barred
  · have hback : (s.next? task).2.takesBack f = false := takesBack_of_isOnward honward
    exact (trails_handle hback).trans h.trails
  · exact fresh_handle (s := (s.next? task).2) hsound.steady
      (fresh_next? hsound.steady h.fresh) (Place.next?_within hsound hnext).1

end State.Clear

/-! ### Chains of matches -/

/-- The core takes the match that comes next, which starts in front of a bound and takes nothing
back. -/
def Core.Passes (task : Task) (n : Nat) (c d : Core) : Prop :=
  ∃ f, c.next? task = some f ∧ f.IsOnward c.modes ∧ f.span.start < n ∧ d = c.take task f

/-- It does so, and some region is open then. -/
def Core.Advances (task : Task) (n : Nat) (c d : Core) : Prop :=
  c.Passes task n d ∧ d.entries ≠ []

theorem Core.Passes.step (h : c.Passes task n d) : c.Step task d := by
  obtain ⟨f, hnext, -, -, rfl⟩ := h
  exact ⟨f, hnext, rfl⟩

theorem Core.Passes.barred (h : c.Passes task n d) : d.barred = c.barred := by
  obtain ⟨f, -, honward, -, rfl⟩ := h
  exact Core.barred_take honward

abbrev AdvancesTo (task : Task) (n : Nat) : Core → Core → Prop :=
  Relation.ReflTransGen (Core.Advances task n)

theorem AdvancesTo.runs (h : AdvancesTo task n c d) : Runs task c d := by
  induction h with
  | refl => exact .refl
  | tail _ hstep ih => exact ih.tail hstep.1.step

theorem AdvancesTo.barred (h : AdvancesTo task n c d) : d.barred = c.barred := by
  induction h with
  | refl => rfl
  | tail _ hstep ih => exact hstep.1.barred.trans ih

/-- The scan is in the state after so many steps, and has had a region open since the first. -/
structure Entered (task : Task) (k : Nat) (s : State) : Prop where
  ran : ∃ ms, Ran task (State.start task.grammar) ms s ∧ ms.length = k
  clear : s.Clear task
  inside : ∀ j, 0 < j → j ≤ k → (runFor task j (State.start task.grammar)).regions ≠ []

theorem Entered.runFor_eq {k : Nat} (h : Entered task k s) (n : Nat) :
    runFor task (k + n) (State.start task.grammar) = runFor task n s := by
  obtain ⟨ms, hran, rfl⟩ := h.ran
  exact runFor_of_ran hran n

/-- **The next step takes the match that comes next.** -/
theorem Entered.succ {k : Nat} (hsound : task.IsSound) (h : Entered task k s)
    (hnext : s.core.next? task = some f) (honward : f.IsOnward s.core.modes) :
    ∃ t, runFor task (k + 1) (State.start task.grammar) = t ∧ t.core = s.core.take task f ∧
      (t.regions ≠ [] → Entered task (k + 1) t) := by
  obtain ⟨hfound, hclear, hcore⟩ := h.clear.move hsound hnext honward
  have hrun : runFor task (k + 1) (State.start task.grammar) = (s.move task f).next task := by
    rw [h.runFor_eq 1, runFor_step hfound]
    rfl
  refine ⟨_, hrun, hcore, fun hopen => ?_⟩
  obtain ⟨ms, hran, hlength⟩ := h.ran
  refine ⟨⟨_, hran.move hfound, by rw [List.length_cons, hlength]⟩, hclear, ?_⟩
  intro j hj hle
  rcases Nat.lt_or_eq_of_le hle with hlt | rfl
  · exact h.inside j hj (Nat.le_of_lt_succ hlt)
  · rw [hrun]
    exact hopen

/-- **Chains of matches are what the scan does.** -/
theorem exists_entered (hsound : task.IsSound)
    (h : AdvancesTo task n (State.start task.grammar).core c) :
    ∃ k s, Entered task k s ∧ s.core = c := by
  induction h with
  | refl =>
    refine ⟨0, State.start task.grammar, ⟨⟨[], .refl, rfl⟩, .start task, ?_⟩, rfl⟩
    intro j hj hle
    omega
  | tail _ hstep ih =>
    obtain ⟨k, s, hs, rfl⟩ := ih
    obtain ⟨⟨f, hnext, honward, -, rfl⟩, hopen⟩ := hstep
    obtain ⟨t, -, hcore, hentered⟩ := hs.succ hsound hnext honward
    refine ⟨k + 1, t, hentered fun hnil => hopen ?_, hcore⟩
    rw [← hcore, State.core, hnil, List.map_nil]

/-! ### Up to a match -/

/-- All that matches in the stretch is taken as a whole, and does not get over its end. -/
def Passable (task : Task) (modes : List Nat) (a q : Nat) : Prop :=
  ∀ d ∈ candidates task modes, ∀ r stop, a ≤ r → r < q → admittedEnd? task [] d.1 r = some stop →
    ∃ k, d.2 = .opens k ∧ (task.grammar.mode k).ending = .immediate ∧ stop ≤ q

theorem Passable.mono {modes : List Nat} {a a' q : Nat} (h : Passable task modes a q)
    (ha : a ≤ a') : Passable task modes a' q :=
  fun d hd r stop hr => h d hd r stop (Nat.le_trans ha hr)

/-- A match comes next where it is the only one. -/
theorem next?_of_only (hsound : task.IsSound) {modes : List Nat} {d : Nat × Candidate}
    {q stop : Nat} (hd : d ∈ candidates task modes)
    (hend : admittedEnd? task [] d.1 q = some stop)
    (honly : ∀ e ∈ candidates task modes, ∀ stop', admittedEnd? task [] e.1 q = some stop' →
      e.2 = d.2 ∧ stop' = stop) :
    Place.next? task [] ⟨q, modes⟩ = some ⟨⟨q, stop⟩, d.2⟩ := by
  cases hnext : Place.next? task [] ⟨q, modes⟩ with
  | none =>
    have hnone := (Place.next?_eq_none_iff hsound).mp hnext d hd q (Nat.le_refl q)
    rw [hend] at hnone
    cases hnone
  | some f =>
    obtain ⟨j, hj⟩ := List.getElem?_of_mem hd
    obtain ⟨i, index, hi, hpos, hend', hleast⟩ := (Place.next?_eq_some_iff hsound).mp hnext
    have hle := hleast j d q stop hj (Nat.le_refl q) hend
    have hstart : f.span.start = q := by
      have hpos' : q ≤ f.span.start := hpos
      omega
    rw [hstart] at hend'
    obtain ⟨hcandidate, hstop⟩ := honly _ (List.mem_of_getElem? hi) _ hend'
    obtain ⟨⟨start, stop'⟩, candidate⟩ := f
    obtain rfl : start = q := hstart
    obtain rfl : stop' = stop := hstop
    rw [show candidate = d.2 from hcandidate]

/-- **Over a stretch that it passes, the scan comes to the match behind.** -/
theorem exists_advances_to (hsound : task.IsSound) (hpass : Passable task c.modes c.pos q)
    (hbarred : c.barred = []) (hne : c.modes ≠ []) (hle : c.pos ≤ q)
    (hnext : Place.next? task [] ⟨q, c.modes⟩ = some f) (hf : f.span.start = q) (hn : q < n) :
    ∃ d, AdvancesTo task n c d ∧ d.pos ≤ q ∧ d.modes = c.modes ∧ d.next? task = some f := by
  -- by induction on how far the match is
  generalize hk : q - c.pos = k
  induction k using Nat.strong_induction_on generalizing c with
  | _ k ih =>
    obtain ⟨i, index, hi, -, hend, -⟩ := (Place.next?_eq_some_iff hsound).mp hnext
    rw [hf] at hend
    cases hcomes : c.next? task with
    | none =>
      rw [Core.next?, hbarred] at hcomes
      have hnone := (Place.next?_eq_none_iff hsound).mp hcomes _ (List.mem_of_getElem? hi) q hle
      rw [hend] at hnone
      cases hnone
    | some f' =>
      have hcomes' := hcomes
      rw [Core.next?, hbarred] at hcomes
      obtain ⟨i', index', hi', hpos, hend', hleast⟩ := (Place.next?_eq_some_iff hsound).mp hcomes
      have hfirst := hleast i _ q _ hi hle hend
      have hpos' : c.pos ≤ f'.span.start := hpos
      rcases Nat.lt_or_ge f'.span.start q with hlt | hge
      · obtain ⟨m, hm, himmediate, hstop⟩ :=
          hpass _ (List.mem_of_getElem? hi') _ _ hpos' hlt hend'
        have hm' : f'.candidate = .opens m := hm
        have honward : f'.IsOnward c.modes := Found.isOnward_of_ne (by simp [hm'])
        have hlen := Place.lt_of_next? hsound hcomes (by rw [hm']; rfl)
        have hafter : c.place.after task f' = ⟨f'.span.stop, c.modes⟩ := by
          rw [Place.after, hm']
          exact congrArg (Place.mk f'.span.stop) (if_pos himmediate)
        have hplace := (Core.place_take honward).trans hafter
        have hstart : (c.take task f').pos = f'.span.stop := congrArg Place.pos hplace
        have hsame : (c.take task f').modes = c.modes := congrArg Place.modes hplace
        have hstep : c.Advances task n (c.take task f') := by
          refine ⟨⟨f', hcomes', honward, by omega, rfl⟩, fun hnil => hne ?_⟩
          rw [← hsame, Core.modes, hnil, List.map_nil]
        obtain ⟨d, hd, hle', hmodes, hrest⟩ := ih (q - f'.span.stop) (by omega)
          (c := c.take task f') (by rw [hsame, hstart]; exact hpass.mono (by omega))
          ((Core.barred_take honward).trans hbarred) (by rw [hsame]; exact hne)
          (by rw [hstart]; exact hstop) (by rw [hsame]; exact hnext) (by rw [hstart])
        exact ⟨d, .head hstep hd, hle', hmodes.trans hsame, hrest⟩
      · obtain rfl : f'.span.start = q := by omega
        have hhere := Place.next?_at_start hsound hcomes
        obtain rfl : f' = f := Option.some.inj (hhere.symm.trans hnext)
        exact ⟨c, .refl, hle, rfl, hcomes'⟩

end Highlighting.Scan
