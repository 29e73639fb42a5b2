/-
  Highlighting/Proofs/Scan/Termination.lean
  =========================================
  **Every scan ends** within `stepBound` steps.

  A step that bars a match uses up one of the finitely many that can be barred.
  Any other step moves the position ahead or closes a region.  Since regions
  start at different positions, there are never more of them than there are
  characters in front of the position, so that what a bar uses up outweighs
  whatever is gained by going back (`Core.potential_lt`).

  None of this depends on the shortcuts, nor on what is barred at the start
  (`next?_run`).  Nor does it matter whether the searches are steady, as long as
  they keep within the text (`scan_ends`).
-/
import Mathlib.Data.Finset.Card
import Mathlib.Data.Finset.Prod
import Highlighting.Proofs.Scan.Moves
import Highlighting.Proofs.Scan.Path

namespace Highlighting.Scan

open Search

variable {task : Task} {f : Found} {c d : Core} {s t : State} {ms : List Move}
  {es : List Entry} {pos pos' : Nat}

/-! ### Nested regions -/

/-- The regions start one before the other, the innermost before the position. -/
def Nested : Nat → List Entry → Prop
  | _, [] => True
  | pos, e :: outer => e.start < pos ∧ Nested e.start outer

namespace Nested

theorem mono (h : Nested pos es) (hle : pos ≤ pos') : Nested pos' es := by
  cases es with
  | nil => trivial
  | cons e outer => exact ⟨Nat.lt_of_lt_of_le h.1 hle, h.2⟩

theorem drop (h : Nested pos es) (n : Nat) : Nested pos (es.drop n) := by
  induction n generalizing es with
  | zero => exact h
  | succ n ih =>
    cases es with
    | nil => trivial
    | cons e outer => exact ih (h.2.mono (Nat.le_of_lt h.1))

theorem start_lt {e : Entry} (h : Nested pos es) (he : e ∈ es) : e.start < pos := by
  induction es generalizing pos with
  | nil => cases he
  | cons e' outer ih =>
    rcases List.mem_cons.mp he with rfl | he
    · exact h.1
    · exact Nat.lt_trans (ih h.2 he) h.1

theorem length_le (h : Nested pos es) : es.length ≤ pos := by
  induction es generalizing pos with
  | nil => exact Nat.zero_le _
  | cons e outer ih =>
    have hlen := ih h.2
    have hlt := h.1
    rw [List.length_cons]
    omega

end Nested

/-! ### Tidy cores -/

namespace Core

/-- The regions are nested, and no opening that was taken is barred. -/
structure Tidy (task : Task) (c : Core) : Prop where
  nested : Nested c.pos c.entries
  le : c.pos ≤ task.source.size
  openers : ∀ e ∈ c.entries,
    Declares task.grammar.terminals false e.opener ∧ (e.opener, e.start) ∉ c.barred

theorem tidy_start (task : Task) (barred : List Bar) :
    (State.startWith task.grammar barred).core.Tidy task :=
  ⟨trivial, Nat.zero_le _, fun _ he => nomatch he⟩

/-- The matches that can still be barred. -/
def unused (task : Task) (barred : List Bar) : Finset Bar :=
  (Finset.range task.grammar.terminals.size ×ˢ Finset.range (task.source.size + 1)).filter
    (· ∉ barred)

/-- What a step uses up. -/
def potential (task : Task) (c : Core) : Nat :=
  (unused task c.barred).card * (3 * (task.source.size + 1) + 1) +
    (2 * (task.source.size - c.pos) + c.entries.length)

theorem card_unused_le (task : Task) (barred : List Bar) :
    (unused task barred).card ≤ task.grammar.terminals.size * (task.source.size + 1) := by
  have hle := Finset.card_filter_le
    (Finset.range task.grammar.terminals.size ×ˢ Finset.range (task.source.size + 1))
    (· ∉ barred)
  rwa [Finset.card_product, Finset.card_range, Finset.card_range] at hle

theorem card_unused_cons {b : Bar} {barred : List Bar}
    (hindex : b.1 < task.grammar.terminals.size) (hpos : b.2 ≤ task.source.size)
    (hb : b ∉ barred) : (unused task (b :: barred)).card < (unused task barred).card := by
  apply Finset.card_lt_card
  rw [Finset.ssubset_iff_of_subset]
  · refine ⟨b, ?_, ?_⟩
    · rw [unused, Finset.mem_filter, Finset.mem_product, Finset.mem_range, Finset.mem_range]
      exact ⟨⟨hindex, Nat.lt_succ_of_le hpos⟩, hb⟩
    · simp [unused]
  · intro b' hb'
    rw [unused, Finset.mem_filter] at hb' ⊢
    exact ⟨hb'.1, fun hmem => hb'.2 (List.mem_cons_of_mem _ hmem)⟩

/-- Barring a match is worth going back to any place. -/
theorem potential_lt_of_card_lt (hd : d.Tidy task)
    (hcard : (unused task d.barred).card < (unused task c.barred).card) :
    d.potential task < c.potential task := by
  have hlen := hd.nested.length_le
  have hle := hd.le
  rw [potential, potential]
  -- what is left to scan and to close, at any place, is less than one bar is worth
  generalize hk : 3 * (task.source.size + 1) + 1 = k
  have hmul := Nat.mul_le_mul_right k (Nat.succ_le_of_lt hcard)
  rw [Nat.succ_mul] at hmul
  omega

theorem potential_lt_of_barred_eq (d c : Core) (hbarred : d.barred = c.barred)
    (hless : 2 * (task.source.size - d.pos) + d.entries.length <
      2 * (task.source.size - c.pos) + c.entries.length) :
    d.potential task < c.potential task := by
  rw [potential, potential, hbarred]
  omega

/-- A region that is taken back leaves the bar of its opening behind. -/
theorem Tidy.takeBack {e : Entry} {outer : List Entry} (h : c.Tidy task)
    (hcons : c.entries = e :: outer) :
    (c.takeBack e outer).Tidy task ∧ (c.takeBack e outer).potential task < c.potential task := by
  have hnested := h.nested
  have hopeners := h.openers
  have hle := h.le
  rw [hcons] at hnested hopeners
  obtain ⟨hdeclares, hnot⟩ := hopeners e List.mem_cons_self
  have hstart : e.start ≤ task.source.size := Nat.le_trans (Nat.le_of_lt hnested.1) hle
  have htidy : (c.takeBack e outer).Tidy task := by
    refine ⟨hnested.2, hstart, ?_⟩
    intro e' he'
    obtain ⟨hdeclares', hnot'⟩ := hopeners e' (List.mem_cons_of_mem _ he')
    refine ⟨hdeclares', fun hmem => ?_⟩
    rcases List.mem_cons.mp hmem with heq | hmem
    · -- a region further out starts earlier
      have hstart' : e'.start = e.start := congrArg Prod.snd heq
      have hlt := hnested.2.start_lt he'
      omega
    · exact hnot' hmem
  refine ⟨htidy, potential_lt_of_card_lt htidy ?_⟩
  exact card_unused_cons (lt_size_of_declares hdeclares) hstart hnot

section InOrder

variable (hin : task.grammar.InOrder) (hfits : f.Fits task c.barred c.place)
include hin hfits

theorem Tidy.take (h : c.Tidy task) :
    (c.take task f).Tidy task ∧ (c.take task f).potential task < c.potential task := by
  have hwithin : c.pos ≤ f.span.start ∧ f.span.start ≤ f.span.stop ∧
      f.span.stop ≤ task.source.size := hfits.within
  have hle := h.le
  have hlen := h.nested.length_le
  rw [Core.take]
  cases hf : f.candidate with
  | opens m =>
    have hlt : f.span.start < f.span.stop := hfits.start_lt hin (by rw [hf]; rfl)
    obtain ⟨hdeclares, hnot⟩ := hfits.opens hin hf
    have hpos : c.pos ≤ f.span.stop := by omega
    simp only
    split
    · refine ⟨⟨h.nested.mono hpos, hwithin.2.2, h.openers⟩, ?_⟩
      apply potential_lt_of_barred_eq (c.takeWhole task (task.grammar.mode m) f.span) c rfl
      show 2 * (task.source.size - f.span.stop) + c.entries.length < _
      omega
    · -- what opens is not empty, so that the region starts before where the scan goes on
      refine ⟨⟨⟨hlt, h.nested.mono hwithin.1⟩, hwithin.2.2, ?_⟩, ?_⟩
      · intro e he
        rcases List.mem_cons.mp he with rfl | he
        · exact ⟨hdeclares, hnot⟩
        · exact h.openers e he
      · apply potential_lt_of_barred_eq (c.openRegion task m f.span) c rfl
        show 2 * (task.source.size - f.span.stop) + (c.entries.length + 1) < _
        omega
  | closes depth =>
    have hdepth : depth < c.modes.length := hfits.depth_lt hf
    -- an end may be empty, but closes a region
    have hcount := closedBy_pos (g := task.grammar) hdepth
    have hentries : c.modes.length = c.entries.length := List.length_map _
    have hpos : c.pos ≤ f.span.stop := by omega
    refine ⟨⟨(h.nested.drop _).mono hpos, hwithin.2.2, ?_⟩, ?_⟩
    · intro e he
      exact h.openers e (List.mem_of_mem_drop he)
    · apply potential_lt_of_barred_eq (c.closes task depth f.span) c rfl
      show 2 * (task.source.size - f.span.stop) + (c.entries.drop _).length < _
      rw [List.length_drop]
      omega
  | illegal =>
    have hlt : f.span.start < f.span.stop := hfits.start_lt hin (by rw [hf]; rfl)
    simp only
    split
    · next hnil =>
      have hpassed : (c.passOver task f.span).pos = f.span.stop := Draft.passedAt_of_lt hlt
      refine ⟨⟨?_, ?_, h.openers⟩, ?_⟩
      · rw [hpassed]
        exact h.nested.mono (by omega)
      · rw [hpassed]
        exact hwithin.2.2
      · apply potential_lt_of_barred_eq (c.passOver task f.span) c rfl
        rw [hpassed]
        show 2 * (task.source.size - f.span.stop) + c.entries.length < _
        omega
    · next e outer hcons =>
      exact h.takeBack hcons

theorem Tidy.bar {m : Nat} (h : c.Tidy task) (hf : f.candidate = .opens m) :
    let d := c.bar ((task.grammar.mode m).opener, f.span.start)
    d.Tidy task ∧ d.potential task < c.potential task := by
  have hwithin : c.pos ≤ f.span.start ∧ f.span.start ≤ f.span.stop ∧
      f.span.stop ≤ task.source.size := hfits.within
  obtain ⟨hdeclares, hnot⟩ := hfits.opens hin hf
  have htidy : (c.bar ((task.grammar.mode m).opener, f.span.start)).Tidy task := by
    refine ⟨h.nested, h.le, fun e he => ⟨(h.openers e he).1, fun hmem => ?_⟩⟩
    rcases List.mem_cons.mp hmem with heq | hmem
    · -- what is open was opened before the position
      have hstart : e.start = f.span.start := congrArg Prod.snd heq
      have := h.nested.start_lt he
      omega
    · exact (h.openers e he).2 hmem
  refine ⟨htidy, potential_lt_of_card_lt htidy ?_⟩
  exact card_unused_cons (lt_size_of_declares hdeclares)
    (by show f.span.start ≤ task.source.size; omega) hnot

/-- **Every step uses up some of the potential**, and leaves the core tidy. -/
theorem potential_lt (h : c.Tidy task) (hturn : Turn task c f d) :
    d.Tidy task ∧ d.potential task < c.potential task := by
  cases hturn with
  | taken => exact h.take hin hfits
  | barred hf hend => exact h.bar hin hfits hf

end InOrder

end Core

/-! ### Runs -/

/-- All matches that are kept count, and the core is tidy. -/
structure State.Orderly (task : Task) (s : State) : Prop where
  admits : CacheAdmits task s.barred s.cache
  tidy : s.core.Tidy task

theorem orderly_start (task : Task) (barred : List Bar) :
    (State.startWith task.grammar barred).Orderly task :=
  ⟨Cache.All.replicate _, Core.tidy_start task barred⟩

section Within

variable (hin : task.grammar.InOrder) (hwithin : task.grammar.SearchesWithin task.source)
include hin hwithin

theorem State.Orderly.move (h : s.Orderly task) (hf : (s.next? task).1 = some f) :
    ((s.move task f).next task).Orderly task ∧
      ((s.move task f).next task).core.potential task < s.core.potential task := by
  obtain ⟨htidy, hless⟩ := Core.potential_lt hin (s.fits_next? hwithin h.admits hf) h.tidy
    (core_turn task (s.next? task).2 f)
  exact ⟨⟨cacheAdmits_handle hwithin (cacheAdmits_next? hwithin h.admits) f, htidy⟩, hless⟩

/-- **There are no more moves than there is potential.** -/
theorem Ran.length_add_potential_le (h : Ran task s ms t) (hs : s.Orderly task) :
    t.Orderly task ∧ ms.length + t.core.potential task ≤ s.core.potential task := by
  induction h with
  | refl => exact ⟨hs, by simp⟩
  | @move ms t f _ hf ih =>
    obtain ⟨ht, hlen⟩ := ih
    obtain ⟨ht', hless⟩ := ht.move hin hwithin hf
    exact ⟨ht', by rw [List.length_cons]; omega⟩

/-- **What a move bars was not barred before**, and is a terminal at a position of the text. -/
theorem State.Orderly.bar_unused {b : Bar} (h : s.Orderly task) (hf : (s.next? task).1 = some f)
    (hb : (s.move task f).bar? task = some b) :
    b ∉ s.barred ∧ b.1 < task.grammar.terminals.size ∧ b.2 ≤ task.source.size := by
  have hfits := s.fits_next? hwithin h.admits hf
  rw [Move.bar?] at hb
  split at hb
  · next index hcandidate =>
    split at hb
    · cases hb
      obtain ⟨hdeclares, hnot⟩ := hfits.opens hin hcandidate
      obtain ⟨-, hle, hstop⟩ := hfits.within
      exact ⟨hnot, lt_size_of_declares hdeclares, Nat.le_trans hle hstop⟩
    · cases hb
  · cases hb
  · -- the opening of a region that is open is not barred
    obtain ⟨o, ho, rfl⟩ := Option.map_eq_some_iff.mp hb
    have he : o.1 ∈ s.core.entries := by
      rw [← map_entry_openings]
      exact List.mem_map_of_mem (List.mem_of_head? ho)
    obtain ⟨hdeclares, hnot⟩ := h.tidy.openers o.1 he
    exact ⟨hnot, lt_size_of_declares hdeclares,
      Nat.le_trans (Nat.le_of_lt (h.tidy.nested.start_lt he)) h.tidy.le⟩

/-- **There are no more moves that bar something than there is to bar.** -/
theorem Ran.countP_bar_add_card_le (h : Ran task s ms t) (hs : s.Orderly task) :
    (ms.countP fun m => (m.bar? task).isSome) + (Core.unused task t.barred).card ≤
      (Core.unused task s.barred).card := by
  induction h with
  | refl => simp
  | @move ms t f hran hf ih =>
    have ht := (hran.length_add_potential_le hin hwithin hs).1
    rw [List.countP_cons, barred_next, show (t.move task f).state.barred = t.barred from rfl]
    cases hbar : (t.move task f).bar? task with
    | none =>
      simp only [Option.isSome_none, Bool.false_eq_true, if_false, Option.toList_none,
        List.nil_append]
      omega
    | some b =>
      obtain ⟨hnot, hindex, hpos⟩ := ht.bar_unused hin hwithin hf hbar
      have hless := Core.card_unused_cons hindex hpos hnot
      simp only [Option.isSome_some, if_true, Option.toList_some, List.singleton_append]
      omega

end Within

/-- What a scan starts with is enough for all its steps. -/
theorem potential_start_lt (task : Task) (barred : List Bar) :
    (State.startWith task.grammar barred).core.potential task <
      stepBound task.grammar task.source.size := by
  have hcard := Core.card_unused_le task barred
  rw [Core.potential, stepBound]
  show _ * _ + (2 * (task.source.size - 0) + 0) < _
  generalize hk : 3 * (task.source.size + 1) + 1 = k
  have hmul := Nat.mul_le_mul_right k hcard
  rw [Nat.add_mul, Nat.one_mul]
  show (Core.unused task barred).card * k + _ < _
  omega

/-- **A run makes moves until nothing comes next**, whatever is barred at the start. -/
theorem exists_ran_run (hin : task.grammar.InOrder)
    (hwithin : task.grammar.SearchesWithin task.source) (barred : List Bar) :
    let start := State.startWith task.grammar barred
    ∃ ms t, Ran task start ms t ∧ (t.next? task).1 = none ∧
      run task start = (t.next? task).2 := by
  intro start
  obtain ⟨ms, t, hran, hend⟩ :=
    exists_ran_runFor task (stepBound task.grammar task.source.size) start
  refine ⟨ms, t, hran, hend.resolve_left ?_⟩
  rintro ⟨hlength, -⟩
  have hle := (hran.length_add_potential_le hin hwithin (orderly_start task barred)).2
  have hlt : start.core.potential task < _ := potential_start_lt task barred
  omega

section Sound

variable {barred : List Bar} (hsound : task.IsSound)
include hsound

/-- With fresh results only, what comes next hangs on the core. -/
theorem next?_eq_core (hI : Fresh task s.barred s.cache) :
    (s.next? task).1 = s.core.next? task := by
  rw [next?_best hsound.steady hI, Core.next?, Core.place, modes_core]
  rfl

/-- A scan keeps fresh results only. -/
theorem Ran.fresh (hran : Ran task (State.startWith task.grammar barred) ms t) :
    Fresh task t.barred t.cache :=
  hran.inv (P := fun s => Fresh task s.barred s.cache)
    (fun s _ hI hf => fresh_handle (s := (s.next? task).2) hsound.steady
      (fresh_next? hsound.steady hI) (next?_ge (s := s) hsound.steady hI hf))
    (Cache.All.replicate _)

/-- **A run gets to where nothing comes next**, whatever is barred at the start. -/
theorem next?_run (barred : List Bar) :
    ((run task (State.startWith task.grammar barred)).next? task).1 = none := by
  obtain ⟨ms, t, hran, hnone, hrun⟩ := exists_ran_run hsound.inOrder hsound.within barred
  have hfresh : Fresh task t.barred t.cache := hran.fresh hsound
  rw [hrun, next?_eq_core hsound (fresh_next? hsound.steady hfresh), core_next?,
    ← next?_eq_core hsound hfresh, hnone]

end Sound

/-! ### The loops of a scan -/

/-- Looking for a match that counts goes through finitely many matches of the pattern. -/
theorem exists_sifts_searchFrom {index : Nat} {t : Terminal}
    (hwithin : task.grammar.SearchesWithin task.source)
    (ht : task.grammar.terminals[index]? = some t) (barred : List Bar) (pos : Nat) :
    ∃ rounds ≤ task.source.size + 1 - pos,
      Sifts task.source.size (t.pattern.find task.source ·) (Option.guard (admits barred index t))
        pos rounds (searchFrom task barred index pos) := by
  rw [searchFrom, ht]
  exact exists_sifts _ (hwithin t (Array.mem_of_getElem? ht))
    (fun _ hgt => Pattern.find_of_gt hgt t.pattern) (Nat.le_refl _)

/-- **Every scan ends.**  It makes moves until nothing more is found, and is made of no more of
them than `stepBound`, however far it has got.  What it bars where a region is taken back or an
opening is skipped was not barred before, so that there are no more such moves than terminals
times positions.  The loops inside end as well: that over the matches of a terminal until one
counts, and that over the matches of an expression until the guards accept one. -/
theorem scan_ends {b : Builder} {language : LanguageDecl} {g : Grammar}
    (hg : b.finish language = .ok g) (text : String) (options : Options)
    (hwithin : g.FindsWithin (Source.ofString text)) :
    let task := Scan.task g (Source.ofString text) options
    let size := task.source.size
    (∃ ms t, Ran task (State.start g) ms t ∧ (t.next? task).1 = none ∧
      g.highlight text options = result task t) ∧
    (∀ ms t, Ran task (State.start g) ms t →
      ms.length ≤ stepBound g size ∧
      (∀ m ∈ ms, (m.next task).barred = (m.bar? task).toList ++ m.state.barred ∧
        (m.bar? task).isSome = (m.takesBack || m.skips task) ∧
        ∀ bar, m.bar? task = some bar → bar ∉ m.state.barred) ∧
      (ms.countP fun m => m.takesBack || m.skips task) ≤ g.terminals.size * (size + 1)) ∧
    (∀ index t barred pos, g.terminals[index]? = some t → ∃ rounds ≤ size + 1 - pos,
      Sifts size (t.pattern.find task.source ·) (Option.guard (admits barred index t)) pos rounds
        (searchFrom task barred index pos)) ∧
    ∀ t ∈ g.terminals, ∀ e notAfter notBefore trim pos,
      t.pattern = .regex e notAfter notBefore trim → ∃ rounds ≤ size + 1 - pos,
        Sifts size (e.find task.source ·) (Pattern.guarded notAfter notBefore trim task.source) pos
          rounds (t.pattern.find task.source pos) := by
  intro task size
  have hin : task.grammar.InOrder := Builder.inOrder_of_finish hg
  have hsearches : task.grammar.SearchesWithin task.source := hwithin.searchesWithin
  have hstart : (State.start g).Orderly task := orderly_start task []
  refine ⟨?_, fun ms t hran => ⟨?_, fun m hm => ?_, ?_⟩, ?_, ?_⟩
  · obtain ⟨ms, t, hran, hnone, hrun⟩ := exists_ran_run hin hsearches []
    refine ⟨ms, t, hran, hnone, ?_⟩
    have hresult : result task (run task (State.start g)) = result task (t.next? task).2 :=
      congrArg (result task) hrun
    exact hresult
  · have hle := (hran.length_add_potential_le hin hsearches hstart).2
    have hlt : (State.start g).core.potential task < stepBound g size :=
      potential_start_lt task []
    omega
  · refine ⟨barred_next task m, isSome_bar? task m, fun bar hbar => ?_⟩
    obtain ⟨ms', u, f, hran', hf, rfl⟩ := hran.exists_of_mem hm
    have hu := (hran'.length_add_potential_le hin hsearches hstart).1
    exact (hu.bar_unused hin hsearches hf hbar).1
  · have hcount := hran.countP_bar_add_card_le hin hsearches hstart
    have hcard := Core.card_unused_le task []
    simp only [isSome_bar?] at hcount
    exact Nat.le_trans (Nat.le_trans (Nat.le_add_right _ _) hcount) hcard
  · intro index t barred pos ht
    exact exists_sifts_searchFrom hsearches ht barred pos
  · intro t ht e notAfter notBefore trim pos hpattern
    have hfinds := hwithin t ht
    rw [hpattern] at hfinds ⊢
    exact hfinds.exists_sifts pos

theorem scan_of_quotes_ends :
    let task := Scan.task Quotes.grammar (Source.ofString "'a\n'b'") ⟨false⟩
    Quotes.grammar.FindsWithin (Source.ofString "'a\n'b'") ∧
      ∃ ms t, Ran task (State.start Quotes.grammar) ms t ∧ (t.next? task).1 = none ∧
        Quotes.grammar.highlight "'a\n'b'" ⟨false⟩ = result task t :=
  ⟨(Quotes.isReliable _).findsWithin,
    (scan_ends Quotes.finish_builder "'a\n'b'" ⟨false⟩ (Quotes.isReliable _).findsWithin).1⟩

end Highlighting.Scan
