/-
  Highlighting/Proofs/Scan/Retrace.lean
  =====================================
  **Regions that are not opened again are not missed.**

  A scan that opens every region does more than one that skips those which
  would only retrace an abandoned one.  The two are compared step by step
  (`Tracks`): to each step of the second belong one or more of the first.  What
  is skipped, the first opens, follows along the trail of the abandoned region
  to the same illegal match, and takes back (`Core.retrace`).  Then it shows
  what it showed before, with the opening barred, and that is what the second
  did right away.

  Since both get to an end, they end alike (`highlight_eq_opening_all`).
-/
import Highlighting.Proofs.Scan.Termination
import Highlighting.Proofs.Scan.Trail

namespace Highlighting.Scan

variable {task : Task} {f : Found} {c d : Core} {s : State} {m n : Nat}

/-! ### Opening and taking back -/

/-- The counts are right all along. -/
theorem Runs.counted (h : Runs task c d) (hc : c.draft.Counted) : d.draft.Counted := by
  induction h with
  | refl => exact hc
  | tail _ hstep ih =>
    obtain ⟨f, -, rfl⟩ := hstep
    exact Core.counted_take ih f

/-- **A region that begins at a doomed position is taken back again**, and all that is left of it
is a bar for its opening. -/
theorem Core.retrace (hsound : task.IsSound) (hcounted : c.draft.Counted)
    (hnext : c.next? task = some f) (hf : f.candidate = .opens m)
    (hending : (task.grammar.mode m).ending ≠ .immediate)
    (hdoomed : Doomed task c.barred c.modes m f.span.stop) :
    ∃ d, Runs task c d ∧ d.Alike c ∧ d.pos = f.span.start ∧
      d.barred = ((task.grammar.mode m).opener, f.span.start) :: c.barred := by
  obtain ⟨fs, target, g, hpath, hmodes, hillegal, hg⟩ := hdoomed
  have hopen : c.take task f = c.openRegion task m f.span := by
    simp only [Core.take, hf, hending, if_false]
  -- inside the region the scan follows the path, and is back in it at the end
  have hlength : (c.openRegion task m f.span).entries.length = c.modes.length + 1 := by
    simp [Core.openRegion, Core.modes]
  have hpath' : Path task (c.openRegion task m f.span).barred
      (c.openRegion task m f.span).entries.length (c.openRegion task m f.span).place fs target := by
    rw [hlength]
    exact hpath
  obtain ⟨d, hruns, hbarred, hentries, hext, hnext'⟩ := hpath'.back_in_region hsound
    (by rw [hlength, hmodes, List.length_cons]) (by omega)
  have hback : d.take task g = d.takeBack
      ⟨m, (task.grammar.mode m).opener, f.span.start, c.draft.checkpoint⟩ c.entries := by
    simp only [Core.take, hg, hentries, Core.openRegion]
  refine ⟨d.take task g, ?_, ?_, ?_, ?_⟩
  · exact ((Relation.ReflTransGen.single ⟨f, hnext, hopen.symm⟩).trans hruns).tail
      ⟨g, hnext'.trans hillegal, rfl⟩
  · rw [hback]
    refine ⟨Draft.restore_alike ((Core.extends_openRegion m).trans hext) hcounted ?_, rfl⟩
    exact hruns.counted (Draft.congruent_counted.openRegion ⟨hcounted, rfl⟩).1
  · rw [hback]
    rfl
  · rw [hback]
    show _ :: d.barred = _
    rw [hbarred]
    rfl

/-! ### Steps that take a match -/

theorem modes_leaveTrail (span : Span) (s : State) : (s.leaveTrail span).modes = s.modes := by
  rw [← modes_core, core_leaveTrail, modes_core]

/-- **Trails are kept by a step that takes a match.** -/
theorem Kept.handle (hsound : task.IsSound) (h : Kept task c.barred c.pos s)
    (hentries : s.regions.map (·.entry) = c.entries)
    (hopeners : ∀ e ∈ c.entries, Declares task.grammar.terminals false e.opener)
    (hnext : c.next? task = some f) (hstarts : ∀ r ∈ s.regions, r.entry.start < s.pos)
    (hquiet : Quiet task c.barred s.modes s.pos f.span.start) (hskip : s.skips task f = false) :
    Kept task (c.take task f).barred (c.take task f).pos (s.handle task f) := by
  have hmodes : c.modes = s.modes := by
    rw [Core.modes, ← hentries, State.modes, List.map_map]
    rfl
  have hentries' : (s.leaveTrail f.span).regions.map (·.entry) = c.entries :=
    (congrArg Core.entries (core_leaveTrail f.span s)).trans hentries
  have hskip' : ∀ m, f.candidate = .opens m → (task.grammar.mode m).ending ≠ .immediate →
      (task.shortcuts.skipRetraced && (s.leaveTrail f.span).retraces m f.span.stop) = false := by
    intro m hf hending
    rw [retraces_leaveTrail]
    simpa [State.skips, hf, hending] using hskip
  have hkept : Kept task c.barred f.span.start (s.leaveTrail f.span) := by
    refine h.leaveTrail hsound ?_ hstarts hquiet
    rw [← hmodes]
    exact hnext
  have hstart : Place.next? task c.barred ⟨f.span.start, (s.leaveTrail f.span).modes⟩ = some f := by
    rw [modes_leaveTrail, ← hmodes]
    exact Place.next?_at_start hsound hnext
  rw [State.handle]
  generalize s.leaveTrail f.span = t at hkept hstart hentries' hskip'
  have hlength : t.modes.length = t.regions.length := List.length_map _
  obtain ⟨span, candidate⟩ := f
  cases candidate with
  | opens m =>
    by_cases hending : (task.grammar.mode m).ending = .immediate
    · simp only [Core.take, State.opens, hending, if_true]
      have hpath : Path task c.barred t.regions.length ⟨span.start, t.modes⟩ [⟨span, .opens m⟩]
          ⟨span.stop, t.modes⟩ := by
        refine ⟨hstart, Found.isOnward_of_ne (by simp), ?_, ?_⟩
        · simp [Place.after, hending, hlength]
        · simp only [Place.after, hending, if_true]
          exact Path.refl _
      exact hkept.pass hsound (t.takeWhole task _ span) rfl rfl rfl hpath
    · simp only [Core.take, State.opens, hending, if_false, hskip' m rfl hending,
        Bool.false_eq_true]
      exact hkept.openRegion hsound hstart hending
  | closes depth => exact hkept.closes hsound hstart
  | illegal =>
    simp only [Core.take, State.meetsIllegal]
    cases hregions : t.regions with
    | nil =>
      rw [hregions] at hentries'
      simp only [← hentries', List.map_nil]
      have hlt := Place.lt_of_next? hsound hstart rfl
      have hpath : Path task c.barred t.regions.length ⟨span.start, t.modes⟩ [⟨span, .illegal⟩]
          ⟨Draft.passedAt task.source span, t.modes⟩ := by
        refine ⟨hstart, fun _ => ?_, ?_, Path.refl _⟩
        · simp [State.modes, hregions]
        · simp [Place.after, hlength]
      refine hkept.pass hsound _ ?_ ?_ ?_ hpath
      · exact hregions.symm
      · rfl
      · rfl
    | cons r outer =>
      rw [hregions] at hentries'
      simp only [← hentries', List.map_cons]
      refine hkept.abandon hsound hregions (hopeners r.entry ?_) hstart rfl
      simp [← hentries']

/-! ### Steps that skip an opening -/

theorem retraces_spec {q : Nat} (h : s.retraces m q = true) :
    ∃ a, s.trails = some a ∧ a.parent = serialOf s.regions ∧ a.mode = m ∧ a.trail.Covers q := by
  rw [State.retraces] at h
  split at h
  · cases h
  · next a ha =>
    simp only [Bool.and_eq_true, beq_iff_eq] at h
    obtain ⟨⟨hparent, hmode⟩, hfinds⟩ := h
    exact ⟨a, ha, hparent, hmode, Trail.covers_of_finds hfinds⟩

theorem skips_spec (h : s.skips task f = true) :
    ∃ m, f.candidate = .opens m ∧ (task.grammar.mode m).ending ≠ .immediate ∧
      s.retraces m f.span.stop = true ∧
      s.handle task f =
        (s.leaveTrail f.span).skip task (task.grammar.mode m).opener f.span.start := by
  rw [State.skips] at h
  split at h
  · next m hf =>
    simp only [Bool.and_eq_true, decide_eq_true_eq] at h
    obtain ⟨⟨hending, hshortcut⟩, hretraces⟩ := h
    refine ⟨m, hf, hending, hretraces, ?_⟩
    simp only [State.handle, hf, State.opens, hending, if_false, hshortcut, retraces_leaveTrail,
      hretraces, Bool.and_self, if_true]
  · cases h

/-! ### Two scans side by side -/

/-- The scan that takes whatever comes next gets to a core that shows what the state does.  It may
be further on, by a quiet stretch. -/
structure Tracks (task : Task) (s : State) (c : Core) : Prop where
  runs : Runs task (State.start task.grammar).core c
  fresh : Fresh task s.barred s.cache
  tidy : s.core.Tidy task
  alike : s.core.Alike c
  barred : s.barred = c.barred
  le : s.pos ≤ c.pos
  quiet : Quiet task c.barred s.modes s.pos c.pos
  kept : Kept task c.barred c.pos s

namespace Tracks

theorem start (task : Task) :
    Tracks task (State.start task.grammar) (State.start task.grammar).core :=
  { runs := .refl
    fresh := Cache.All.replicate _
    tidy := Core.tidy_start task []
    alike := .refl _
    barred := rfl
    le := Nat.le_refl _
    quiet := Quiet.refl _ _ _ _
    kept := Kept.start task [] }

theorem counted (h : Tracks task s c) : c.draft.Counted := h.runs.counted Draft.counted_empty

theorem modes (h : Tracks task s c) : c.modes = s.modes := by rw [← h.alike.modes, modes_core]

theorem starts_lt (h : Tracks task s c) : ∀ r ∈ s.regions, r.entry.start < s.pos :=
  fun _ hr => h.tidy.nested.start_lt (List.mem_map_of_mem hr)

section Sound

variable (hsound : task.IsSound)
include hsound

/-- Searching changes the cache alone. -/
theorem search (h : Tracks task s c) : Tracks task (s.next? task).2 c :=
  { h with
    fresh := fresh_next? hsound.steady h.fresh
    kept := ⟨h.kept.numbered, h.kept.traced, h.kept.parent_lt, h.kept.doomed⟩ }

/-- The same comes next in both scans. -/
theorem next?_core (h : Tracks task s c) : s.core.next? task = c.next? task := by
  have hquiet := Place.next?_of_quiet hsound h.le h.quiet
  rw [Core.next?, Core.next?, Core.place, Core.place, modes_core, h.modes]
  show Place.next? task s.barred ⟨s.pos, s.modes⟩ = _
  rw [h.barred, hquiet]

theorem next?_eq (h : Tracks task s c) : (s.next? task).1 = c.next? task := by
  rw [next?_eq_core hsound h.fresh, h.next?_core hsound]

/-- A match that one scan takes the other takes as well. -/
theorem handle_of_not_skips (h : Tracks task s c) (hnext : c.next? task = some f)
    (hskip : s.skips task f = false) : Tracks task (s.handle task f) (c.take task f) := by
  have hnext' : s.core.next? task = some f := (h.next?_core hsound).trans hnext
  have hcore := core_handle_of_not_skips hskip
  have hplace : (s.core.take task f).pos = (c.take task f).pos ∧
      (s.core.take task f).barred = (c.take task f).barred := h.alike.take_pos_barred h.barred f
  have hpos : (s.handle task f).pos = (c.take task f).pos :=
    (congrArg Core.pos hcore).trans hplace.1
  have hbarred : (s.handle task f).barred = (c.take task f).barred :=
    (congrArg Core.barred hcore).trans hplace.2
  have hopeners : ∀ e ∈ c.entries, Declares task.grammar.terminals false e.opener := by
    intro e he
    rw [← h.alike.entries] at he
    exact (h.tidy.openers e he).1
  refine ⟨h.runs.tail ⟨f, hnext, rfl⟩, ?_, ?_, ?_, hbarred, Nat.le_of_eq hpos, ?_, ?_⟩
  · exact fresh_handle hsound.steady h.fresh (Place.next?_within hsound hnext').1
  · rw [hcore]
    exact (h.tidy.take hsound.inOrder (Place.fits_next? hsound hnext')).1
  · rw [hcore]
    exact h.alike.take f
  · rw [hpos]
    exact Quiet.refl _ _ _ _
  · refine h.kept.handle hsound h.alike.entries hopeners hnext h.starts_lt ?_ hskip
    rw [← h.barred, ← modes_core s]
    exact Place.quiet_of_next? hsound hnext'

/-- **What one scan skips the other opens and takes back.** -/
theorem handle_of_skips (h : Tracks task s c) (hnext : c.next? task = some f)
    (hskip : s.skips task f = true) : ∃ d, Tracks task (s.handle task f) d := by
  have hnext' : s.core.next? task = some f := (h.next?_core hsound).trans hnext
  have hwithin : c.pos ≤ f.span.start ∧ _ := Place.next?_within hsound hnext
  obtain ⟨m, hf, hending, hretraces, hhandle⟩ := skips_spec hskip
  obtain ⟨a, ha, hparent, rfl, hcovers⟩ := retraces_spec hretraces
  have hlt : f.span.start < f.span.stop := Place.lt_of_next? hsound hnext (by rw [hf]; rfl)
  have hopener := (Place.opens_of_next? hsound hnext hf).1
  have hdoomed : Doomed task c.barred c.modes a.mode f.span.stop := by
    rw [h.modes]
    exact h.kept.doomed a 0 ha hparent.symm f.span.stop (by omega) hcovers
  obtain ⟨d, hruns, halike, hpos, hbarred⟩ :=
    Core.retrace hsound h.counted hnext hf hending hdoomed
  have hquiet : Quiet task c.barred s.modes s.pos f.span.start := by
    rw [← h.barred, ← modes_core s]
    exact Place.quiet_of_next? hsound hnext'
  have hcore : (s.handle task f).core =
      s.core.bar ((task.grammar.mode a.mode).opener, f.span.start) := by
    simp only [core_handle, hf, hskip]
  have hmodes : (s.handle task f).modes = s.modes := by
    rw [← modes_core, hcore, ← modes_core]
    rfl
  refine ⟨d, h.runs.trans hruns, ?_, ?_, ?_, ?_, ?_, ?_, ?_⟩
  · exact fresh_handle hsound.steady h.fresh (Place.next?_within hsound hnext').1
  · rw [hcore]
    exact (h.tidy.bar hsound.inOrder (Place.fits_next? hsound hnext') hf).1
  · rw [hcore]
    exact Core.Alike.trans ⟨h.alike.draft, h.alike.entries⟩ halike.symm
  · rw [hbarred, ← h.barred]
    exact congrArg Core.barred hcore
  · rw [hpos]
    exact (congrArg Core.pos hcore).trans_le (Place.next?_within hsound hnext').1
  · rw [hbarred, hpos, hmodes, show (s.handle task f).pos = s.pos from congrArg Core.pos hcore]
    exact hquiet.cons _
  · rw [hbarred, hpos, hhandle]
    refine Kept.skip hsound ?_ hopener
    refine h.kept.leaveTrail hsound ?_ h.starts_lt hquiet
    rw [← h.modes]
    exact hnext

/-- **The scans stay together.** -/
theorem runFor (h : Tracks task s c) (n : Nat) : ∃ d, Tracks task (Scan.runFor task n s) d := by
  refine runFor_inv (P := fun s => ∃ d, Tracks task s d) ?_ ?_ n ⟨c, h⟩
  · rintro s ⟨d, hd⟩
    exact ⟨d, hd.search hsound⟩
  · rintro s f ⟨d, hd⟩ hf
    have hnext : d.next? task = some f := (hd.next?_eq hsound).symm.trans hf
    cases hskip : (s.next? task).2.skips task f with
    | true => exact (hd.search hsound).handle_of_skips hsound hnext hskip
    | false => exact ⟨_, (hd.search hsound).handle_of_not_skips hsound hnext hskip⟩

end Sound

end Tracks

/-! ### The same result -/

theorem result_eq_of_alike {t : State} (h : s.core.Alike t.core) :
    result task s = result task t := by
  have hmodes : s.modes = t.modes := by rw [← modes_core, h.modes, modes_core]
  have hkeywords : s.keywords task.grammar = t.keywords task.grammar := by
    rw [State.keywords, hmodes, State.keywords]
  have hflush : (s.draft.flush task.source (s.keywords task.grammar) task.source.size).Alike
      (t.draft.flush task.source (t.keywords task.grammar) task.source.size) := by
    rw [hkeywords]
    exact Draft.congruent_alike.flush h.draft
  have hclosed := Draft.congruent_alike.closeScopes
    (t.modes.map fun m => (task.grammar.mode m).scope) hflush
  rw [List.foldl_map, List.foldl_map] at hclosed
  simp only [result, hmodes, hclosed.relevance, hclosed.illegal, hclosed.events]

/-- The task with every region opened, even one that would only retrace another. -/
def Task.openingAll (task : Task) : Task :=
  { task with shortcuts := { task.shortcuts with skipRetraced := false } }

theorem Task.IsSound.openingAll (hsound : task.IsSound) : task.openingAll.IsSound :=
  ⟨hsound.inOrder, hsound.steady, hsound.within⟩

theorem not_skips_openingAll (s : State) (f : Found) : s.skips task.openingAll f = false := by
  rw [State.skips]
  split
  · simp [Task.openingAll]
  · rfl

/-- With every region opened, a scan takes whatever comes next. -/
theorem runs_openingAll (hsound : task.IsSound) (n : Nat) :
    Runs task (State.start task.grammar).core
      (runFor task.openingAll n (State.start task.grammar)).core := by
  have hrun : Fresh task.openingAll (runFor task.openingAll n (State.start task.grammar)).barred
      (runFor task.openingAll n (State.start task.grammar)).cache ∧
      Runs task.openingAll (State.start task.grammar).core
        (runFor task.openingAll n (State.start task.grammar)).core := by
    refine runFor_inv (P := fun s => Fresh task.openingAll s.barred s.cache ∧
      Runs task.openingAll (State.start task.grammar).core s.core) ?_ ?_ n
      ⟨Cache.All.replicate _, .refl⟩
    · intro s hs
      exact ⟨fresh_next? hsound.openingAll.steady hs.1, hs.2⟩
    · intro s f hs hf
      have hnext := (next?_eq_core hsound.openingAll hs.1).symm.trans hf
      refine ⟨fresh_handle hsound.openingAll.steady (fresh_next? hsound.openingAll.steady hs.1)
        (next?_ge (s := s) hsound.openingAll.steady hs.1 hf), hs.2.tail ⟨f, hnext, ?_⟩⟩
      exact core_handle_of_not_skips (not_skips_openingAll _ f)
  exact hrun.2

/-- **Regions that are not opened again are not missed.**  A scan that skips those which would
only retrace an abandoned one ends as one that opens every region, and takes each back again
where its own illegal match occurs. -/
theorem highlight_eq_opening_all {b : Builder} {language : LanguageDecl} {g : Grammar}
    (hg : b.finish language = .ok g) (text : String) (options : Options)
    (hreliable : g.IsReliable (Source.ofString text)) :
    let task := (Scan.task g (Source.ofString text) options).openingAll
    let last := run task (State.start g)
    (last.next? task).1 = none ∧ g.highlight text options = result task last := by
  intro task last
  have hsound : (Scan.task g (Source.ofString text) options).IsSound :=
    ⟨Builder.inOrder_of_finish hg, hreliable.searchesSteadily, hreliable.searchesWithin⟩
  have hlast : (last.next? task).1 = none := next?_run hsound.openingAll []
  refine ⟨hlast, ?_⟩
  -- both scans have got to an end, and there is only one
  obtain ⟨c, hc⟩ := (Tracks.start _).runFor hsound (stepBound g (Source.ofString text).size)
  have hcend : c.next? _ = none := (hc.next?_eq hsound).symm.trans (next?_run hsound [])
  have hruns := runs_openingAll hsound (stepBound g (Source.ofString text).size)
  have hend : Core.next? (Scan.task g (Source.ofString text) options) last.core = none := by
    have hfresh := fresh_runFor hsound.openingAll.steady (s := State.start g)
      (Cache.All.replicate _) (stepBound g (Source.ofString text).size)
    exact (next?_eq_core hsound.openingAll hfresh).symm.trans hlast
  obtain rfl : c = last.core := hc.runs.unique hruns hcend hend
  exact result_eq_of_alike hc.alike

theorem highlight_quotes_eq_opening_all :
    let task := (Scan.task Quotes.grammar (Source.ofString "'a\n'b'") ⟨false⟩).openingAll
    Quotes.grammar.IsReliable (Source.ofString "'a\n'b'") ∧
      Quotes.grammar.highlight "'a\n'b'" ⟨false⟩ =
        result task (run task (State.start Quotes.grammar)) :=
  ⟨Quotes.isReliable _,
    (highlight_eq_opening_all Quotes.finish_builder "'a\n'b'" ⟨false⟩
      (Quotes.isReliable _)).2⟩

/-! ### Where the searches are not steady

With `f\Kx` an `x` is found behind an `f`, though only by a search that began in front of the
`f`.  A string opened by `ga` meets the `x`, passes it as a literal and is taken back at the `%`.
One opened by `f` would not meet that literal, and take `x%` for a comment. -/

namespace Behind

def literal : ModeDecl :=
  { ModeDecl.opening (.regex ⟨"f\\Kx", some '!', [], none⟩) with scope := some .literal }

def comment : ModeDecl := { ModeDecl.opening (.literal "x%") with scope := some .comment }

def string : ModeDecl :=
  { ModeDecl.opening (.ofRegex "ga|f") with
    scope := some .string, ending := .never, illegal := some (.literal "%"), contains := [0, 1] }

def builder : Builder :=
  { Builder.start .native with modes := #[some literal, some comment, some string] }

def language : LanguageDecl := ⟨"toy", [], none, [2], none⟩

end Behind

theorem exists_highlight_ne_opening_all :
    ∃ g, Behind.builder.finish Behind.language = .ok g ∧
      let task := (Scan.task g (Source.ofString "gafx%") ⟨false⟩).openingAll
      g.highlight "gafx%" ⟨false⟩ ≠ result task (run task (State.start g)) := by
  refine ⟨_, rfl, fun heq => ?_⟩
  have hleaves := congrArg Highlighted.leaves heq
  revert hleaves
  decide +kernel

end Highlighting.Scan
