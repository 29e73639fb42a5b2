/-
  Highlighting/Proofs/Scan/Seam/Joined.lean
  =========================================
  **Two texts side by side** are highlighted as each by itself.

  When a scan comes to the seam with no region open, and the text that waits in
  the buffer there may be recorded at once, then the leaves of the whole text
  are those of the front part and those of the rest, where two without a scope
  that meet become one (`Seam.exists_joined`).  Something illegal occurs in the
  whole text when it does in one of the parts.

  When every pattern takes the character at the seam only as its last one, the
  scan of the whole text takes in front of the seam what the scan of the front
  part takes (`Seam.next?_whole`).  So where the front part leaves no region open
  at its very end, the scan of the whole text comes to the seam
  (`Seam.arrives_stops`).
-/
import Highlighting.Proofs.Scan.Clear
import Highlighting.Proofs.Scan.Leaves
import Highlighting.Proofs.Scan.Numbers
import Highlighting.Proofs.Scan.Seam.Behind
import Highlighting.Proofs.Scan.Seam.Buffer
import Highlighting.Proofs.Scan.Seam.Front

namespace Highlighting

open EventLog (Forest)

theorem Source.standsAt_rest (u v : Source) : v.StandsAt u.size (u ++ v) := by
  intro p q _
  exact Source.extract_append_add u v p q

theorem Source.standsAt_front (u v : Source) : u.StandsAt 0 (u ++ v) := by
  intro p q hq
  rw [Nat.zero_add, Nat.zero_add]
  exact Source.extract_append hq

namespace Scan

/-! ### Results side by side -/

section Placement

variable {g : Grammar} {options options' : Options} {l : Placement} {d e : Draft} {c c' : Core}

theorem Core.Alongside.closed (h : c.Alongside g l c')
    (hsize : l.whole.size = l.start + l.part.size) :
    Draft.Alongside l (c.closed (task g l.part options)) (c'.closed (task g l.whole options')) := by
  have hflush := h.flush l.part.size (Nat.le_refl _)
  have hclosed := hflush.closeScopes (c.modes.map fun m => (g.mode m).scope)
  rw [List.foldl_map, List.foldl_map] at hclosed
  rw [Core.closed, Core.closed]
  show Draft.Alongside l _ (c'.modes.foldl _
    (c'.draft.flush l.whole (c'.keywords g) l.whole.size))
  rw [h.modes, h.keywords_eq, hsize]
  exact hclosed

/-- The leaves of the whole text are those in front of the part and those of the part. -/
theorem Draft.Alongside.leaves (h : d.Alongside l e) (hd : d.Grown l.part 0)
    (htop : ∀ n ∈ l.top, n.HasLeaf) :
    Node.allLeavesIn none (e.events.nodes l.whole) =
      Token.join (Node.allLeavesIn none l.top.reverse)
        (Node.allLeavesIn none (d.events.nodes l.part)) := by
  have hnodes : e.events.nodes l.whole = (Forest.glue (d.forest l.part).top l.top).reverse := by
    show ((e.forest l.whole).closeMany (e.forest l.whole).scopes.length).top.reverse = _
    have hnil : (d.forest l.part).scopes.length = 0 := hd.depth
    rw [h.forest, Forest.onto, hnil]
    rfl
  rw [hnodes, hd.toLeafy.nodes_eq, Forest.leaves_glue htop hd.leafy]

end Placement

/-! ### The whole text -/

namespace Seam

variable {s : Seam} {a c : Core} {fs : List Found} {barred : List Bar} {q : Place} {floor : Nat}

/-- **What is taken along a path in the front part is taken as without the text behind.** -/
theorem takeAll_front (h : Path s.frontTask barred floor c.place fs q) :
    c.takeAll s.wholeTask fs = c.takeAll s.frontTask fs := by
  induction fs generalizing c with
  | nil => rw [Core.takeAll, Core.takeAll, List.foldl_nil, List.foldl_nil]
  | cons f fs ih =>
    obtain ⟨hnext, honward, -, hrest⟩ := h
    obtain ⟨-, hle, hsize⟩ := Place.next?_within s.frontSound hnext
    rw [← Core.place_take honward] at hrest
    have htake : c.take s.wholeTask f = c.take s.frontTask f :=
      take_front hle hsize fun hf => Place.lt_of_next? s.frontSound hnext (by rw [hf]; rfl)
    show (c.take s.wholeTask f).takeAll s.wholeTask fs =
      (c.take s.frontTask f).takeAll s.frontTask fs
    rw [htake, ih hrest]

/-- Text that waits in the buffer from this position on may be recorded at the seam. -/
def Parts (s : Seam) (start : Nat) : Prop :=
  ∀ d : Draft, d.bufferStart = start → ∀ stop ≤ s.rest.size,
    Draft.SameNodes (s.front ++ s.rest)
      (d.flush (s.front ++ s.rest) (contentOf s.grammar []).keywords (s.size + stop))
      ((d.flush (s.front ++ s.rest) (contentOf s.grammar []).keywords s.size).flush
        (s.front ++ s.rest) (contentOf s.grammar []).keywords (s.size + stop))

/-! ### The front part -/

/-- The front part in the whole text. -/
def frontPlacement (s : Seam) : Placement :=
  { part := s.front, whole := s.front ++ s.rest, start := 0, top := [], illegal := false,
    stands := Source.standsAt_front s.front s.rest }

/-- What is recorded of the front part is recorded of the whole text. -/
theorem alongside_front
    (h : Path s.frontTask barred floor (State.start s.grammar).core.place fs q) :
    ((State.start s.grammar).core.takeAll s.frontTask fs).Alongside s.grammar s.frontPlacement
      ((State.start s.grammar).core.takeAll s.frontTask fs) := by
  have hstart : (State.start s.grammar).core.Alongside s.grammar s.frontPlacement
      (State.start s.grammar).core := .of_draft rfl ⟨rfl, rfl, rfl⟩
  have hsound : (task s.grammar s.frontPlacement.part s.options).IsSound := s.frontSound
  have htake : ((State.start s.grammar).core.takeAll s.frontTask fs).Alongside s.grammar
      s.frontPlacement ((State.start s.grammar).core.takeAll
        (task s.grammar s.frontPlacement.whole s.options)
        (fs.map (Found.shift s.frontPlacement.start))) := hstart.takeAll hsound h
  have hshift : fs.map (Found.shift s.frontPlacement.start) = fs := by
    conv_rhs => rw [← List.map_id fs]
    refine List.map_congr_left fun f _ => ?_
    show (⟨⟨0 + f.span.start, 0 + f.span.stop⟩, f.candidate⟩ : Found) = f
    rw [Nat.zero_add, Nat.zero_add]
  have hfront : (State.start s.grammar).core.takeAll
      (task s.grammar s.frontPlacement.whole s.options) fs =
        (State.start s.grammar).core.takeAll s.frontTask fs := takeAll_front h
  rw [hshift, hfront] at htake
  exact htake

theorem closed_front {e : Core} (h : e.modes = []) : e.closed s.frontTask =
    e.draft.flush s.front (contentOf s.grammar []).keywords s.size := by
  rw [Core.closed, Core.keywords, h, List.foldl_nil]
  rfl

/-- What the front part shows at its end, where no region is open. -/
structure Shown (s : Seam) (e : Core) : Prop where
  modes : e.modes = []
  grown : (e.closed s.frontTask).Grown s.front 0
  forest : (e.closed s.frontTask).forest (s.front ++ s.rest) =
    (e.closed s.frontTask).forest s.front
  flush : e.draft.flush (s.front ++ s.rest) (contentOf s.grammar []).keywords s.size =
    e.closed s.frontTask

/-- **The scan of the front part shows the same with the text behind.** -/
theorem Arrives.exists_shown (h : s.Arrives a) (hg : s.grammar.ScopesBegin) :
    ∃ e, e.Alike a ∧ s.Shown e := by
  obtain ⟨fs, hpath, halike⟩ : ∃ fs,
      Path s.frontTask a.barred 0 (State.start s.grammar).core.place fs a.place ∧
        ((State.start s.grammar).core.takeAll s.frontTask fs).Alike a :=
    (Core.Surviving.of_runs s.frontSound h.front).survives
  have hpos : ((State.start s.grammar).core.takeAll s.frontTask fs).pos ≤ s.size :=
    Nat.le_trans hpath.quiet_takeAll.2.1 h.pos_le
  have hgrowing : ((State.start s.grammar).core.takeAll s.frontTask fs).Growing s.frontTask :=
    (Core.Growing.start s.frontTask).takeAll hg s.frontSound hpath
  have hbeside := alongside_front hpath
  generalize (State.start s.grammar).core.takeAll s.frontTask fs = e at halike hpos hgrowing hbeside
  have hmodes : e.modes = [] := halike.modes.trans h.modes
  have hflush : e.draft.flush (s.front ++ s.rest) (contentOf s.grammar []).keywords s.size =
      e.closed s.frontTask := by
    rw [closed_front hmodes]
    exact Draft.flush_append (Nat.le_refl _) _
  refine ⟨e, halike, hmodes, hgrowing.closed hg hpos, ?_, hflush⟩
  have hforest : (e.draft.flush (s.front ++ s.rest) (e.keywords s.grammar) (0 + s.size)).forest
      (s.front ++ s.rest) =
        ((e.draft.flush s.front (e.keywords s.grammar) s.size).forest s.front).onto [] :=
    (hbeside.flush s.size (Nat.le_refl _)).forest
  rw [Forest.onto_nil, Core.keywords, hmodes, Nat.zero_add, hflush, ← closed_front hmodes]
    at hforest
  exact hforest

/-! ### The whole text -/

/-- The rest in the whole text, behind what the front part shows. -/
def restPlacement (s : Seam) (e : Core) : Placement :=
  { part := s.rest, whole := s.front ++ s.rest, start := s.size,
    top := ((e.closed s.frontTask).forest s.front).top, illegal := (e.closed s.frontTask).illegal,
    stands := Source.standsAt_rest s.front s.rest }

theorem Shown.alongside_rest {e : Core} (h : s.Shown e) (hparts : s.Parts e.draft.bufferStart) :
    (State.start s.grammar).core.Alongside s.grammar (s.restPlacement e) e := by
  refine ⟨h.modes, fun stop hstop => ?_⟩
  have hseam : Draft.empty.Alongside (s.restPlacement e)
      (e.draft.flush (s.front ++ s.rest) (contentOf s.grammar []).keywords s.size) := by
    refine ⟨Draft.bufferStart_flush _ _ _ _, ?_, ?_⟩
    · have hscopes : ((e.closed s.frontTask).forest s.front).scopes = [] :=
        List.length_eq_zero_iff.mp h.grown.depth
      rw [h.flush]
      show (e.closed s.frontTask).forest (s.front ++ s.rest) =
        (⟨((e.closed s.frontTask).forest s.front).top, []⟩ : Forest)
      rw [h.forest, ← hscopes]
    · rw [h.flush]
      exact (Bool.or_false _).symm
  have hboth := hseam.flush (contentOf s.grammar []).keywords hstop
  have hsame := hparts e.draft rfl stop hstop
  exact ⟨hsame.bufferStart.trans hboth.bufferStart, hsame.forest.trans hboth.forest,
    hsame.illegal.trans hboth.illegal⟩

/-- **The whole text shows what the front part shows and then what the rest shows.** -/
theorem exists_joined (h : s.Arrives a) (hg : s.grammar.ScopesBegin)
    (hparts : s.Parts a.draft.bufferStart)
    (hc : Runs s.restTask (State.start s.grammar).core c) (hcend : c.next? s.restTask = none) :
    ∃ d, Runs s.wholeTask (State.start s.grammar).core d ∧ d.next? s.wholeTask = none ∧
      (d.result s.wholeTask).leaves =
        Token.join (a.result s.frontTask).leaves (c.result s.restTask).leaves ∧
      (d.result s.wholeTask).illegal =
        ((a.result s.frontTask).illegal || (c.result s.restTask).illegal) := by
  obtain ⟨d, fs, hruns, hend, hpath, hrest, hwhole⟩ := exists_path_behind h hc hcend
  obtain ⟨e, halike, hshown⟩ := h.exists_shown hg
  refine ⟨d, hruns, hend, ?_⟩
  have hpath' : Path s.restTask c.barred 0 (State.start s.grammar).core.place fs c.place := hpath
  have hparts' : s.Parts e.draft.bufferStart := by
    rw [halike.draft.bufferStart]
    exact hparts
  have hbeside : ((State.start s.grammar).core.takeAll s.restTask fs).Alongside s.grammar
      (s.restPlacement e) (e.takeAll s.wholeTask (fs.map (Found.shift s.size))) :=
    Core.Alongside.takeAll s.restSound (hshown.alongside_rest hparts') hpath'
  have hgrown : (((State.start s.grammar).core.takeAll s.restTask fs).closed s.restTask).Grown
      s.rest 0 :=
    ((Core.Growing.start s.restTask).takeAll hg s.restSound hpath').closed hg
      (hpath'.pos_takeAll_le s.restSound (Nat.zero_le _))
  have hclosed : ((((State.start s.grammar).core.takeAll s.restTask fs).closed
      s.restTask)).Alongside (s.restPlacement e)
        ((e.takeAll s.wholeTask (fs.map (Found.shift s.size))).closed s.wholeTask) :=
    hbeside.closed Array.size_append
  rw [← ((halike.takeAll _).trans hwhole).result_eq, ← halike.result_eq, ← hrest.result_eq]
  constructor
  · have hfront : (e.result s.frontTask).leaves =
        Node.allLeavesIn none ((e.closed s.frontTask).forest s.front).top.reverse := by
      rw [Highlighted.leaves, Core.nodes_result]
      exact congrArg (Node.allLeavesIn none) hshown.grown.toLeafy.nodes_eq
    rw [hfront]
    exact hclosed.leaves hgrown hshown.grown.leafy
  · exact hclosed.illegal

/-- **The texts are highlighted side by side**, when the scan comes to the seam. -/
theorem highlight_joined {u v : String} (hu : s.front = Source.ofString u)
    (hv : s.rest = Source.ofString v) (h : s.Arrives a) (hg : s.grammar.ScopesBegin)
    (hparts : s.Parts a.draft.bufferStart) :
    (s.grammar.highlight (u ++ v) s.options).leaves =
        Token.join (s.grammar.highlight u s.options).leaves
          (s.grammar.highlight v s.options).leaves ∧
      (s.grammar.highlight (u ++ v) s.options).illegal =
        ((s.grammar.highlight u s.options).illegal ||
          (s.grammar.highlight v s.options).illegal) := by
  have hfrontTask : s.frontTask = task s.grammar (Source.ofString u) s.options := by
    rw [frontTask, hu]
  have hrestTask : s.restTask = task s.grammar (Source.ofString v) s.options := by
    rw [restTask, hv]
  have hwholeTask : s.wholeTask = task s.grammar (Source.ofString (u ++ v)) s.options := by
    rw [wholeTask, hu, hv, Source.ofString_append]
  have hfront := h.front
  have hfrontEnd := h.front_end
  rw [hfrontTask] at hfront hfrontEnd
  have hfrontResult := highlight_eq_result_of_runs (s.sound _) hfront hfrontEnd
  obtain ⟨c, hc, hcend, hrestResult⟩ := exists_runs_highlight (s.sound (Source.ofString v))
  rw [← hrestTask] at hc hcend hrestResult
  obtain ⟨d, hd, hdend, hleaves, hillegal⟩ := exists_joined h hg hparts hc hcend
  rw [hwholeTask] at hd hdend
  have hwholeResult := highlight_eq_result_of_runs (s.sound _) hd hdend
  rw [← hwholeTask] at hwholeResult
  rw [← hfrontTask] at hfrontResult
  rw [hwholeResult, hfrontResult, hrestResult]
  exact ⟨hleaves, hillegal⟩

/-! ### Lines -/

/-- Nothing is lost on the way. -/
theorem lossless_of_runs {task : Task} {d : Core} (hsound : task.IsSound)
    (h : Runs task (State.start task.grammar).core d) : d.Lossless task.source := by
  induction h with
  | refl => exact lossless_start task.grammar task.source
  | tail _ hstep ih =>
    obtain ⟨f, hnext, rfl⟩ := hstep
    obtain ⟨hpos, hle, hsize⟩ := Place.next?_within hsound hnext
    exact ih.take hpos hle hsize

/-- **At the end of a line, the text in the buffer may be recorded.** -/
theorem AtLine.parts (hs : s.AtLine) (hg : s.grammar.ScopesBegin) {start : Nat}
    (hstart : start ≤ s.size) : s.Parts start := by
  intro d hd stop hstop
  have hline : Source.LineStart (s.front ++ s.rest) s.size := by
    refine ⟨hs.line.size_pos, ?_⟩
    exact (Array.getElem?_append_left (Nat.sub_one_lt_of_lt hs.line.size_pos)).trans hs.line
  have hsize : s.size + stop ≤ (s.front ++ s.rest).size := by
    rw [Array.size_append]
    exact Nat.add_le_add_left hstop _
  exact Draft.flush_flush (hline.separates (hg.lexeme [])) (hd ▸ hstart) (Nat.le_add_right _ _)
    hsize

/-- The seam at the end of a line. -/
def ofLine {g : Grammar} {options : Options} {u : Source} (v : Source)
    (hsound : ∀ source, (task g source options).IsSound) (hkeeps : g.KeepsLines)
    (hline : u.EndsWith '\n') : Seam :=
  { grammar := g, options, front := u, rest := v, sound := hsound
    behind := fun t ht => Pattern.endAt?_append_add hline (hkeeps.listed t ht)
      (hkeeps.follows t ht) }

end Seam

/-- A scan comes to a core that has its regions open. -/
theorem exists_runs_run {task : Task} (hsound : task.IsSound) :
    ∃ c, Runs task (State.start task.grammar).core c ∧ c.next? task = none ∧
      (run task (State.start task.grammar)).core.entries = c.entries := by
  obtain ⟨c, hc⟩ := (Tracks.start task).runFor hsound (stepBound task.grammar task.source.size)
  exact ⟨c, hc.runs, (hc.next?_eq hsound).symm.trans (next?_run hsound []), hc.alike.entries⟩

end Scan

/-- **A text behind a line that leaves no region open is highlighted as by itself.** -/
theorem Grammar.highlight_append_of_line {g : Grammar} {u v : String} {options : Scan.Options}
    (hsound : ∀ source, (Scan.task g source options).IsSound) (hkeeps : g.KeepsLines)
    (hbegin : g.ScopesBegin) (hline : (Source.ofString u).EndsWith '\n')
    (hroot :
      (Scan.run (Scan.task g (Source.ofString u) options) (Scan.State.start g)).regions = []) :
    (g.highlight (u ++ v) options).leaves =
        Token.join (g.highlight u options).leaves (g.highlight v options).leaves ∧
      (g.highlight (u ++ v) options).illegal =
        ((g.highlight u options).illegal || (g.highlight v options).illegal) := by
  -- in terms of the seam, so that nothing has to be evaluated
  obtain ⟨s, rfl, rfl, hfront, hrest⟩ : ∃ s : Scan.Seam, s.grammar = g ∧ s.options = options ∧
      s.front = Source.ofString u ∧ s.rest = Source.ofString v :=
    ⟨.ofLine (Source.ofString v) hsound hkeeps hline, rfl, rfl, rfl, rfl⟩
  have htask : Scan.task s.grammar (Source.ofString u) s.options = s.frontTask := by
    rw [Scan.Seam.frontTask, hfront]
  have hs : s.AtLine := ⟨hfront ▸ hline, hkeeps⟩
  obtain ⟨a, ha, haend, hentries⟩ := Scan.exists_runs_run s.frontSound
  have hnil : a.entries = [] := by
    rw [htask] at hroot
    rw [← hentries, Scan.State.core]
    exact List.map_eq_nil_iff.mpr hroot
  have harrives : s.Arrives a := Scan.Seam.arrives_front hs ha haend hnil
  have hbuffer := (Scan.Seam.lossless_of_runs s.frontSound ha).covers.le
  exact Scan.Seam.highlight_joined hfront hrest harrives hbegin
    (hs.parts hbegin (Nat.le_trans hbuffer harrives.pos_le))

/-! ### A seam that no match gets over -/

namespace Scan

/-- No match gets over the character at the seam. -/
structure Seam.Stops (s : Seam) (ch : Char) : Prop where
  endsWith : s.front.EndsWith ch
  stops : ∀ t ∈ s.grammar.terminals, t.pattern.stopsAt ch = true

namespace Seam

variable {s : Seam} {ch : Char} {barred : List Bar} {p : Place} {f : Found} {c d : Core} {n : Nat}

/-- **In front of the seam the same comes next.** -/
theorem next?_whole (hs : s.Stops ch) (h : p.next? s.frontTask barred = some f)
    (hlt : f.span.start < s.size) : p.next? s.wholeTask barred = some f := by
  have hends : ∀ index q, q < s.size →
      admittedEnd? s.wholeTask barred index q = admittedEnd? s.frontTask barred index q :=
    fun index q hq => admittedEnd?_append hs.endsWith hq
      fun t ht => hs.stops t (Array.mem_of_getElem? ht)
  obtain ⟨i, index, hi, hpos, hend, hleast⟩ := (Place.next?_eq_some_iff s.frontSound).mp h
  refine (Place.next?_eq_some_iff s.wholeSound).mpr ⟨i, index, hi, hpos, ?_, ?_⟩
  · rw [hends index _ hlt]
    exact hend
  · intro j e q stop hj hq hstop
    rcases Nat.lt_or_ge q s.size with hfront | hbehind
    · rw [hends e.1 q hfront] at hstop
      exact hleast j e q stop hj hq hstop
    · exact .inl (Nat.lt_of_lt_of_le hlt hbehind)

theorem passes_whole (hs : s.Stops ch) (hn : n ≤ s.size) (h : c.Passes s.frontTask n d) :
    c.Passes s.wholeTask n d := by
  obtain ⟨f, hnext, honward, hlt, rfl⟩ := h
  obtain ⟨-, hle, hsize⟩ := Place.next?_within s.frontSound hnext
  refine ⟨f, next?_whole hs hnext (Nat.lt_of_lt_of_le hlt hn), honward, hlt, ?_⟩
  exact (take_front hle hsize fun hf => Place.lt_of_next? s.frontSound hnext (by rw [hf]; rfl)).symm

/-- **In front of the seam, the scan of the whole text does what that of the front part does.** -/
theorem advancesTo_whole (hs : s.Stops ch) (hn : n ≤ s.size) (h : AdvancesTo s.frontTask n c d) :
    AdvancesTo s.wholeTask n c d := by
  induction h with
  | refl => exact .refl
  | tail _ hstep ih => exact ih.tail ⟨passes_whole hs hn hstep.1, hstep.2⟩

/-- **What the scan of the front part comes to is a state of the scan of the whole text.** -/
theorem exists_states (hs : s.Stops ch) (hn : n ≤ s.size)
    (hc : AdvancesTo s.frontTask n (State.start s.grammar).core c) (hd : c.Passes s.frontTask n d) :
    ∃ k, (runFor s.wholeTask k (State.start s.grammar)).core = c ∧
      (runFor s.wholeTask (k + 1) (State.start s.grammar)).core = d ∧
      ∀ j, 0 < j → j ≤ k → (runFor s.wholeTask j (State.start s.grammar)).regions ≠ [] := by
  obtain ⟨k, t, ht, rfl⟩ := exists_entered s.wholeSound (advancesTo_whole hs hn hc)
  obtain ⟨f, hnext, honward, -, rfl⟩ := passes_whole hs hn hd
  obtain ⟨e, he, hcore, -⟩ := ht.succ s.wholeSound hnext honward
  have hrun : runFor s.wholeTask k (State.start s.grammar) = t := ht.runFor_eq 0
  refine ⟨k, by rw [hrun], ?_, ht.inside⟩
  have he' : runFor s.wholeTask (k + 1) (State.start s.grammar) = e := he
  rw [he', hcore]

/-- **A scan that closes its last region right at the seam comes to it.** -/
theorem arrives_stops (hs : s.Stops ch)
    (hc : AdvancesTo s.frontTask s.size (State.start s.grammar).core c)
    (hd : c.Passes s.frontTask s.size d) (hpos : d.pos = s.size) (hroot : d.entries = []) :
    s.Arrives d := by
  have hfront : Runs s.frontTask (State.start s.grammar).core d := hc.runs.tail hd.step
  have hbarred : d.barred = [] := hd.barred.trans hc.barred
  have hmodes : d.modes = [] := by rw [Core.modes, hroot, List.map_nil]
  refine ⟨hfront, ?_, ?_, hroot, Nat.le_of_eq hpos, ?_, ?_⟩
  · rw [Core.next?, Core.place, hpos, hmodes]
    exact Place.next?_at_end s.frontSound _
  · exact (advancesTo_whole hs (Nat.le_refl _) hc).runs.tail
      (passes_whole hs (Nat.le_refl _) hd).step
  · intro b hb
    rw [hbarred] at hb
    cases hb
  · rw [hpos]
    exact Quiet.refl _ _ _ _

/-- When nothing waits in the buffer at the seam, there is nothing to record. -/
theorem parts_size (s : Seam) : s.Parts s.size := by
  intro d hd stop _
  have hsame : d.flush (s.front ++ s.rest) (contentOf s.grammar []).keywords s.size = d := by
    rw [Draft.flush, hd, Draft.classify_eq_self _ _ _ (Nat.le_refl s.size), ← hd]
  rw [hsame]
  exact .refl _ _

end Seam

end Scan

end Highlighting
