/-
  Highlighting/Proofs/Scan/Replay.lean
  ====================================
  **The result of a scan is that of one which takes nothing back.**

  A scan goes back and forth, and bars matches as it goes.  At any time, what
  it shows is where a path leads that knows all the bars from the start
  (`Survives`): with them, nothing on the way is taken back.  The same is true
  of what it showed where each open region was opened.  For all openings on
  these paths lie behind the bars that are added later.

  So a scan that starts with the bars that another one has come to in the end
  follows such a path to the same result, and takes nothing back
  (`replay_takes_nothing_back`).

  The result of a scan hangs on the core that it comes to (`Core.result`), and
  that core is the only one where nothing comes next.  So to know what a text is
  highlighted as, it is enough to follow the matches that come next, one by one,
  until there are no more (`highlight_eq_result_of_runs`).
-/
import Highlighting.Proofs.Scan.Retrace

namespace Highlighting.Scan

variable {task : Task} {f : Found} {c d u : Core} {s : State} {b : Bar} {barred : List Bar}
  {n : Nat}

/-! ### Paths from the start -/

/-- The core shows what a path from the start leads to, on which nothing is taken back. -/
def Survives (task : Task) (barred : List Bar) (c : Core) : Prop :=
  ∃ fs, Path task barred 0 ⟨0, []⟩ fs c.place ∧
    ((State.start task.grammar).core.takeAll task fs).Alike c

namespace Survives

theorem start (task : Task) (barred : List Bar) :
    Survives task barred (State.start task.grammar).core :=
  ⟨[], Path.refl _, .refl _⟩

theorem alike (h : Survives task barred c) (halike : c.Alike d) (hpos : c.pos = d.pos) :
    Survives task barred d := by
  obtain ⟨fs, hpath, hshows⟩ := h
  refine ⟨fs, ?_, hshows.trans halike⟩
  rw [Core.place, ← hpos, ← halike.modes]
  exact hpath

section Sound

variable (hsound : task.IsSound)
include hsound

/-- Bars that lie ahead change nothing. -/
theorem cons_bar (h : Survives task barred c) (hb : Declares task.grammar.terminals false b.1)
    (hle : c.pos ≤ b.2) : Survives task (b :: barred) c := by
  obtain ⟨fs, hpath, hshows⟩ := h
  exact ⟨fs, hpath.cons_bar hsound hb (.inl hle), hshows⟩

/-- The path goes on to where the next match starts. -/
theorem to_start (h : Survives task c.barred c) (hnext : c.next? task = some f) :
    Survives task c.barred { c with pos := f.span.start } := by
  obtain ⟨fs, hpath, hshows⟩ := h
  exact ⟨fs, hpath.to_start hsound hnext, hshows.draft, hshows.entries⟩

/-- The path goes on with a match that takes nothing back. -/
theorem take (h : Survives task c.barred c) (hnext : c.next? task = some f)
    (honward : f.IsOnward c.modes) : Survives task c.barred (c.take task f) := by
  obtain ⟨fs, hpath, hshows⟩ := h
  refine ⟨fs ++ [f], ?_, ?_⟩
  · rw [Core.place_take honward]
    exact hpath.snoc hsound hnext honward (Nat.zero_le _)
  · rw [Core.takeAll, List.foldl_append]
    exact hshows.take f

end Sound

end Survives

/-! ### What every core shows -/

/-- What the core shows survives, and so does what was shown where each region was opened. -/
structure Core.Surviving (task : Task) (c : Core) : Prop where
  tidy : c.Tidy task
  grounded : c.Grounded fun e u => Survives task c.barred { u with pos := e.start }
  survives : Survives task c.barred c

theorem surviving_start (task : Task) : (State.start task.grammar).core.Surviving task :=
  ⟨Core.tidy_start task [], ⟨Draft.counted_empty, trivial⟩, .start task []⟩

namespace Core.Surviving

variable (hsound : task.IsSound)
include hsound

/-- **What is shown after the next match survives**, with the bar that it may add. -/
theorem take (h : c.Surviving task) (hnext : c.next? task = some f) :
    (c.take task f).Surviving task := by
  have htidy := (h.tidy.take hsound.inOrder (Place.fits_next? hsound hnext)).1
  have hgrounded : (c.take task f).Grounded
      fun e u => Survives task c.barred { u with pos := e.start } :=
    h.grounded.take fun _ _ _ => h.survives.to_start hsound hnext
  by_cases honward : f.IsOnward c.modes
  · have hbarred : (c.take task f).barred = c.barred := Core.barred_take honward
    refine ⟨htidy, ?_, ?_⟩
    · rw [hbarred]
      exact hgrounded
    · rw [hbarred]
      exact h.survives.take hsound hnext honward
  · -- the innermost region is taken back
    obtain ⟨hf, hmodes⟩ : f.candidate = .illegal ∧ c.modes ≠ [] := by
      simpa [Found.IsOnward] using honward
    obtain ⟨e, outer, hcons⟩ : ∃ e outer, c.entries = e :: outer :=
      List.exists_cons_of_ne_nil fun hnil => hmodes (by rw [Core.modes, hnil, List.map_nil])
    have hback : c.take task f = c.takeBack e outer := by simp only [Core.take, hf, hcons]
    obtain ⟨hdeclares, -⟩ := h.tidy.openers e (by rw [hcons]; simp)
    have hnested := h.tidy.nested
    rw [hcons] at hnested
    obtain ⟨u, hu, hentries, -, halike, -⟩ :=
      (hcons ▸ h.grounded.opened).restore h.grounded.counted
    rw [hback] at htidy hgrounded ⊢
    refine ⟨htidy, ⟨hgrounded.counted, hgrounded.opened.imp fun e' he' u' hu' => ?_⟩, ?_⟩
    · exact hu'.cons_bar hsound hdeclares (Nat.le_of_lt (hnested.2.start_lt he'))
    · exact (hu.cons_bar hsound hdeclares (Nat.le_refl _)).alike ⟨halike.symm, hentries⟩ rfl

/-- **What a scan shows at any time survives.** -/
theorem of_runs (h : Runs task (State.start task.grammar).core c) : c.Surviving task := by
  induction h with
  | refl => exact surviving_start task
  | tail _ hstep ih =>
    obtain ⟨f, hnext, rfl⟩ := hstep
    exact ih.take hsound hnext

end Core.Surviving

/-! ### Following the path -/

theorem trails_handle (h : s.takesBack f = false) : (s.handle task f).trails = s.trails := by
  have htrails := trails_leaveTrail f.span s
  have hregions : (s.leaveTrail f.span).regions.isEmpty = s.regions.isEmpty := by
    rw [State.leaveTrail]
    split
    · rfl
    · next heq => rw [heq]; rfl
  rw [State.handle]
  generalize s.leaveTrail f.span = t at htrails hregions
  split
  · rw [State.opens]
    split
    · exact htrails
    · split <;> exact htrails
  · exact htrails
  · next hf =>
    have hnil : t.regions = [] := by
      rw [← List.isEmpty_iff, hregions]
      simpa [State.takesBack, hf] using h
    simp only [State.meetsIllegal, hnil]
    exact htrails

/-- The state is on a path to a place, and has abandoned no region. -/
structure Follows (task : Task) (barred : List Bar) (fs : List Found) (target : Place)
    (s : State) : Prop where
  fresh : Fresh task s.barred s.cache
  barred_eq : s.barred = barred
  trails : s.trails = none
  path : ∃ gs hs, gs ++ hs = fs ∧
    ((State.start task.grammar).core.takeAll task gs).Alike s.core ∧
    Path task barred 0 s.core.place hs target

namespace Follows

variable {fs : List Found} {target : Place}

theorem start (h : Path task barred 0 ⟨0, []⟩ fs target) :
    Follows task barred fs target (State.startWith task.grammar barred) :=
  ⟨Cache.All.replicate _, rfl, rfl, [], fs, rfl, ⟨.refl _, rfl⟩, h⟩

section Sound

variable (hsound : task.IsSound)
include hsound

theorem search (h : Follows task barred fs target s) :
    Follows task barred fs target (s.next? task).2 :=
  ⟨fresh_next? hsound.steady h.fresh, h.barred_eq, h.trails, h.path⟩

/-- **What comes next on the path is neither skipped nor takes anything back.** -/
theorem step (h : Follows task barred fs target s) (hend : target.next? task barred = none)
    (hf : (s.next? task).1 = some f) :
    s.takesBack f = false ∧ s.skips task f = false ∧
      Follows task barred fs target ((s.next? task).2.handle task f) := by
  obtain ⟨gs, hs, hfs, halike, hpath⟩ := h.path
  have hnext : s.core.place.next? task barred = some f := by
    rw [← h.barred_eq]
    exact (next?_eq_core hsound h.fresh).symm.trans hf
  cases hs with
  | nil =>
    -- at the end of the path nothing comes next
    rw [hpath.next?_eq hsound, hend] at hnext
    cases hnext
  | cons g hs =>
    obtain ⟨hnext', honward, -, hrest⟩ := hpath
    obtain rfl : g = f := Option.some.inj (hnext'.symm.trans hnext)
    have htakesBack : s.takesBack g = false := by
      rw [State.takesBack, Bool.and_eq_false_imp, decide_eq_true_eq]
      intro hillegal
      have hnil : s.regions = [] := by
        simpa [Core.place, Core.modes, State.core] using honward hillegal
      rw [hnil]
      rfl
    have hskips : s.skips task g = false := by
      rw [State.skips]
      split
      · simp [State.retraces, h.trails]
      · rfl
    have hcore : ((s.next? task).2.handle task g).core = s.core.take task g :=
      core_handle_of_not_skips hskips
    refine ⟨htakesBack, hskips, ?_, ?_, ?_, gs ++ [g], hs, ?_, ?_, ?_⟩
    · exact fresh_handle hsound.steady (fresh_next? hsound.steady h.fresh)
        (next?_ge (s := s) hsound.steady h.fresh hf)
    · rw [← h.barred_eq]
      exact (congrArg Core.barred hcore).trans (Core.barred_take honward)
    · exact (trails_handle (s := (s.next? task).2) htakesBack).trans h.trails
    · simpa using hfs
    · rw [Core.takeAll, List.foldl_append, hcore]
      exact halike.take g
    · rw [hcore, Core.place_take honward]
      exact hrest

theorem runFor (h : Follows task barred fs target s) (hend : target.next? task barred = none)
    (n : Nat) : Follows task barred fs target (Scan.runFor task n s) :=
  runFor_inv (P := Follows task barred fs target) (fun _ h => h.search hsound)
    (fun _ _ h hf => (h.step hsound hend hf).2.2) n h

/-- Where nothing comes next, all of the path has been followed. -/
theorem alike_of_end (h : Follows task barred fs target s) (hend : (s.next? task).1 = none) :
    ((State.start task.grammar).core.takeAll task fs).Alike s.core := by
  obtain ⟨gs, hs, rfl, halike, hpath⟩ := h.path
  cases hs with
  | nil => rwa [List.append_nil]
  | cons g hs =>
    have hnext : s.core.next? task = some g := by
      rw [Core.next?]
      show s.core.place.next? task s.barred = _
      rw [h.barred_eq]
      exact hpath.1
    rw [next?_eq_core hsound h.fresh, hnext] at hend
    cases hend

end Sound

end Follows

/-! ### The second scan -/

/-- **The result of a scan is that of one which takes nothing back.**  When a text is scanned
again with all those matches barred from the start that the first scan has barred in the end, no
region is taken back, no opening is skipped, and the result is the same. -/
theorem replay_takes_nothing_back {b : Builder} {language : LanguageDecl} {g : Grammar}
    (hg : b.finish language = .ok g) (text : String) (options : Options)
    (hreliable : g.IsReliable (Source.ofString text)) :
    let task := Scan.task g (Source.ofString text) options
    let again := State.startWith g (run task (State.start g)).barred
    (∀ n f, ((runFor task n again).next? task).1 = some f →
      (runFor task n again).takesBack f = false ∧ (runFor task n again).skips task f = false) ∧
    ((run task again).next? task).1 = none ∧
    result task (run task again) = g.highlight text options := by
  intro task again
  have hsound : task.IsSound :=
    ⟨Builder.inOrder_of_finish hg, hreliable.searchesSteadily, hreliable.searchesWithin⟩
  obtain ⟨c, hc⟩ := (Tracks.start task).runFor hsound (stepBound g (Source.ofString text).size)
  have hcend : c.next? task = none := (hc.next?_eq hsound).symm.trans (next?_run hsound [])
  obtain ⟨fs, hpath, halike⟩ := (Core.Surviving.of_runs hsound hc.runs).survives
  have hagain : Follows task c.barred fs c.place again := by
    show Follows task c.barred fs c.place (State.startWith g (run task (State.start g)).barred)
    rw [show (run task (State.start g)).barred = c.barred from hc.barred]
    exact Follows.start hpath
  have hend : ((run task again).next? task).1 = none := next?_run hsound _
  refine ⟨fun n f hf => ?_, hend, ?_⟩
  · obtain ⟨htakesBack, hskips, -⟩ := (hagain.runFor hsound hcend n).step hsound hcend hf
    exact ⟨htakesBack, hskips⟩
  · have hfollowed := (hagain.runFor hsound hcend _).alike_of_end hsound hend
    exact result_eq_of_alike ((hfollowed.symm.trans halike).trans hc.alike.symm)

theorem quotes_replay_takes_nothing_back :
    let task := Scan.task Quotes.grammar (Source.ofString "'a\n'b'") ⟨false⟩
    let again := State.startWith Quotes.grammar (run task (State.start Quotes.grammar)).barred
    Quotes.grammar.IsReliable (Source.ofString "'a\n'b'") ∧
      result task (run task again) = Quotes.grammar.highlight "'a\n'b'" ⟨false⟩ :=
  ⟨Quotes.isReliable _,
    (replay_takes_nothing_back Quotes.finish_builder "'a\n'b'" ⟨false⟩
      (Quotes.isReliable _)).2.2⟩

/-! ### Where the searches are not steady

A string opened by `a` is taken back at the `b`, once an `x` behind that has been found with
`b\Kx`.  The first scan still has that match when it comes to the `x`; the second one searches
from there, and does not find it. -/

namespace Leftover

def literal : ModeDecl :=
  { ModeDecl.opening (.regex ⟨"b\\Kx", some '!', [], none⟩) with scope := some .literal }

def string : ModeDecl :=
  { ModeDecl.opening (.literal "a") with
    scope := some .string, ending := .never, illegal := some (.literal "b"), contains := [0] }

def title : ModeDecl := { ModeDecl.opening (.literal "ab") with scope := some .title }

def builder : Builder :=
  { Builder.start .native with modes := #[some literal, some string, some title] }

def language : LanguageDecl := ⟨"toy", [], none, [1, 2, 0], none⟩

end Leftover

theorem exists_replay_ne_highlight :
    ∃ g, Leftover.builder.finish Leftover.language = .ok g ∧
      let task := Scan.task g (Source.ofString "abx") ⟨false⟩
      let again := State.startWith g (run task (State.start g)).barred
      result task (run task again) ≠ g.highlight "abx" ⟨false⟩ := by
  refine ⟨_, rfl, fun heq => ?_⟩
  have hleaves := congrArg Highlighted.leaves heq
  revert hleaves
  decide +kernel

/-! ### Where a scan ends up -/

/-- The result of a scan that has come to a core where nothing comes next. -/
def Core.result (task : Task) (c : Core) : Highlighted :=
  let g := task.grammar
  let flushed := c.draft.flush task.source (c.keywords g) task.source.size
  let d := c.modes.foldl (fun d m => d.closeScope (g.mode m).scope) flushed
  { language := g.name, relevance := d.relevance, illegal := d.illegal,
    nodes := d.events.nodes task.source }

theorem result_eq_core (s : State) : Scan.result task s = s.core.result task := by
  simp only [Scan.result, Core.result, Core.keywords, modes_core]
  rfl

theorem Core.Alike.result_eq (h : c.Alike d) : c.result task = d.result task := by
  have hflush : (c.draft.flush task.source (c.keywords task.grammar) task.source.size).Alike
      (d.draft.flush task.source (d.keywords task.grammar) task.source.size) := by
    rw [h.keywords]
    exact Draft.congruent_alike.flush h.draft
  have hclosed := Draft.congruent_alike.closeScopes
    (d.modes.map fun m => (task.grammar.mode m).scope) hflush
  rw [List.foldl_map, List.foldl_map] at hclosed
  simp only [Core.result, h.modes, hclosed.relevance, hclosed.illegal, hclosed.events]

section Grammar

variable {g : Grammar} {text : String} {options : Options}
  (hsound : (Scan.task g (Source.ofString text) options).IsSound)
include hsound

/-- A scan comes to a core where nothing comes next, and shows what is there. -/
theorem exists_runs_highlight :
    let task := Scan.task g (Source.ofString text) options
    ∃ c, Runs task (State.start g).core c ∧ c.next? task = none ∧
      g.highlight text options = c.result task := by
  intro task
  obtain ⟨c, hc⟩ := (Tracks.start task).runFor hsound (stepBound g (Source.ofString text).size)
  refine ⟨c, hc.runs, (hc.next?_eq hsound).symm.trans (next?_run hsound []), ?_⟩
  rw [← hc.alike.result_eq, ← result_eq_core]
  rfl

/-- **Whoever takes the matches that come next until there are no more has the result.** -/
theorem highlight_eq_result_of_runs
    (hruns : Runs (Scan.task g (Source.ofString text) options) (State.start g).core c)
    (hend : c.next? (Scan.task g (Source.ofString text) options) = none) :
    g.highlight text options = c.result (Scan.task g (Source.ofString text) options) := by
  obtain ⟨d, hd, hdend, hresult⟩ := exists_runs_highlight hsound
  obtain rfl : d = c := hd.unique hruns hdend hend
  exact hresult

end Grammar

end Highlighting.Scan
