/-
  Highlighting/Proofs/Scan/Spans.lean
  ===================================
  **The text of a region.**

  The node of a region has the text from where the region was opened to the
  match that closed it, or to the end when none did; the modes say to which side
  the matches themselves belong.  It lies in the nodes of the regions around
  (`region_spans_are_exact`).

  A region stays open over the moves since it was opened, with others inside it
  (`Remains`), up to one that closes it with all of them.  The marks of these
  moves are the brackets between its own two, and have the text between.

  The text needs matches that lie ahead of the position.  With one that starts
  behind it the node of a region can begin in front of the region
  (`exists_region_from_before`).
-/
import Highlighting.Proofs.Scan.Pieces
import Highlighting.Proofs.Scan.Termination

namespace Highlighting.Scan

variable {task : Task} {start s t u : State} {m : Move} {f : Found}
  {ms kept since before : List Move} {o : Entry × Nat} {inner outer : List (Entry × Nat)}
  {source : Source} {keywords : Option KeywordTable} {span : Span}

/-! ### Where the text of a region ends -/

/-- The serial numbers of the regions that the move closes. -/
def Move.closedSerials (task : Task) (m : Move) : List Nat :=
  match m.found.candidate with
  | .closes depth =>
    (m.state.openings.take (State.closedBy task.grammar m.state.modes depth)).map (·.2)
  | .opens _ | .illegal => []

/-- Of the moves since a region was opened, latest first, the one that closes it. -/
def closingMove? (task : Task) (serial : Nat) (since : List Move) : Option Move :=
  since.reverse.find? fun m => decide (serial ∈ m.closedSerials task)

/-- Where the text of a region ends: at the match that closes it, on the side that the innermost
mode says, and otherwise with the text. -/
def textStop (task : Task) (serial : Nat) (since : List Move) : Nat :=
  match closingMove? task serial since with
  | some m => State.closingEdge task.grammar m.state.modes m.found.span
  | none => task.source.size

/-- Where the text of a region starts that the move opens. -/
def Move.textStart (task : Task) (m : Move) : Nat :=
  match m.found.candidate with
  | .opens index =>
    if (task.grammar.mode index).excludesBegin then m.found.span.stop else m.found.span.start
  | .closes _ | .illegal => m.found.span.start

/-- The serial number of the region that the move opens, when that has a scope. -/
def Move.scopedSerial? (task : Task) (m : Move) : Option Nat :=
  match m.found.candidate with
  | .opens index =>
    if (task.grammar.mode index).ending = .immediate then none
    else (task.grammar.mode index).scope.map fun _ => m.state.nextSerial
  | .closes _ | .illegal => none

/-! ### Serial numbers -/

/-- Regions have greater serial numbers than those around them. -/
structure State.Numbered (s : State) : Prop where
  ordered : (s.openings.map (·.2)).Pairwise (· > ·)
  below : ∀ n ∈ s.openings.map (·.2), n < s.nextSerial

theorem State.Numbered.of_sublist (h : s.Numbered) (hopenings : u.openings.Sublist s.openings)
    (hserial : u.nextSerial = s.nextSerial) : u.Numbered := by
  have hmap := hopenings.map (·.2)
  refine ⟨h.ordered.sublist hmap, fun n hn => ?_⟩
  rw [hserial]
  exact h.below n (hmap.subset hn)

theorem numbered_next (task : Task) (h : m.state.Numbered) : (m.next task).Numbered := by
  have hnoted := m.openings_noted
  have hserial := m.nextSerial_noted
  have hdeed := m.deed task
  generalize m.next task = u at hdeed
  cases hdeed with
  | whole | skipped => exact h.of_sublist (hnoted ▸ List.Sublist.refl _) hserial
  | opened hf hend hskips =>
    have hnew : ∀ n ∈ m.state.openings.map (·.2), n < m.state.nextSerial := h.below
    rw [← hnoted, ← hserial] at hnew
    have hordered := h.ordered
    rw [← hnoted] at hordered
    refine ⟨.cons hnew hordered, fun n hn => ?_⟩
    rcases List.mem_cons.mp hn with rfl | hn
    · exact Nat.lt_succ_self _
    · exact Nat.lt_succ_of_lt (hnew n hn)
  | closed hf =>
    refine h.of_sublist ?_ hserial
    rw [openings_closes, hnoted]
    exact List.drop_sublist _ _
  | tookBack hf hback hopenings =>
    refine h.of_sublist ?_ hserial
    rw [hopenings]
    exact List.sublist_cons_self _ _
  | passed hf hback hopenings hregions =>
    rw [← hnoted] at hopenings
    refine h.of_sublist ?_ ?_
    · rw [openings_passed hregions]
      exact List.nil_sublist _
    · simp only [State.meetsIllegal, hregions]
      exact hserial

theorem Ran.numbered (h : Ran task (State.start task.grammar) ms t) : t.Numbered := by
  refine h.inv (P := State.Numbered) (fun s f hs _ => ?_)
    ⟨.nil, by simp [State.start, State.startWith, State.openings]⟩
  have hstate : (s.move task f).state.Numbered := ⟨hs.ordered, hs.below⟩
  exact numbered_next task hstate

theorem Ran.pairwise_serial (h : Ran task s ms t) :
    ms.Pairwise fun later earlier =>
      earlier.opensRegion task = true → earlier.state.nextSerial < later.state.nextSerial := by
  induction h with
  | refl => exact .nil
  | move hran hf ih => exact .cons hran.nextSerial_lt ih

theorem standing_sublist (task : Task) (ms : List Move) : (standing task ms).Sublist ms := by
  induction ms with
  | nil => exact List.Sublist.refl _
  | cons m ms ih =>
    rw [standing]
    split
    · exact ((List.tail_sublist _).trans (List.dropWhile_sublist _)).trans (ih.cons m)
    · split
      · exact ih.cons m
      · exact ih.cons_cons m

theorem Shown.stands (h : Shown task start kept t) :
    ∀ m ∈ kept, m.takesBack = false ∧ m.skips task = false := by
  induction h with
  | start => simp
  | move _ hback hskips _ ih =>
    intro m hm
    rcases List.mem_cons.mp hm with rfl | hm
    · exact ⟨hback, hskips⟩
    · exact ih m hm

/-- **No two regions have one serial number.** -/
theorem Ran.nodup_serials (h : Ran task (State.start task.grammar) ms t) :
    ((Scan.standing task ms).reverse.filterMap (Move.scopedSerial? task)).Nodup := by
  have hopens : ∀ m ∈ Scan.standing task ms, ∀ n, m.scopedSerial? task = some n →
      m.opensRegion task = true ∧ m.state.nextSerial = n := by
    intro m hm n hn
    have hskips := (h.standing.shown.stands m hm).2
    rw [Move.scopedSerial?] at hn
    split at hn
    · next index hf =>
      split at hn
      · cases hn
      · next hend =>
        obtain ⟨scope, -, rfl⟩ := Option.map_eq_some_iff.mp hn
        exact ⟨by simp [Move.opensRegion, hf, hend, hskips], rfl⟩
    · cases hn
    · cases hn
  have hordered := h.pairwise_serial.sublist (standing_sublist task ms)
  rw [List.filterMap_reverse, List.nodup_reverse]
  refine List.Pairwise.filterMap _ ?_ (List.Pairwise.and_mem.mp hordered)
  rintro later earlier ⟨hlater, hearlier, hlt⟩ n hn n' hn' rfl
  obtain ⟨-, rfl⟩ := hopens later hlater n hn
  obtain ⟨hopened, heq⟩ := hopens earlier hearlier _ hn'
  have := hlt hopened
  omega

/-! ### Regions that stay open -/

/-- What a move does inside regions: those around stay as they are, unless it closes one. -/
theorem Move.inside_or_closes (hback : m.takesBack = false) (hskips : m.skips task = false)
    (hopenings : m.state.openings = inner ++ outer) :
    (m.closedSerials task ⊆ inner.map (·.2) ∧
      ∃ inner', (m.next task).openings = inner' ++ outer ∧
        readMarks (scopesOf task.grammar inner) (m.marks task) =
          some (scopesOf task.grammar inner')) ∨
      ∃ depth, m.found.candidate = .closes depth ∧
        inner.length < State.closedBy task.grammar m.state.modes depth := by
  have hstretch := readMarks_stretch (scopesOf task.grammar inner) task.source
    (m.state.keywords task.grammar)
  have hdeed := m.deed task
  generalize m.next task = u at hdeed
  cases hdeed with
  | @whole index hf hend =>
    left
    refine ⟨by simp [Move.closedSerials, hf], inner, ?_, ?_⟩
    · rw [openings_takeWhole, Move.openings_noted, hopenings]
    · simp only [Move.marks, hf, if_pos hend]
      exact readMarks_wholeMarks _ _ _ _ _ _
  | skipped hf hend hskipped => cases hskips.symm.trans hskipped
  | @opened index hf hend =>
    left
    refine ⟨by simp [Move.closedSerials, hf],
      (⟨index, (task.grammar.mode index).opener, m.found.span.start, m.noted.draft.checkpoint⟩,
        m.noted.nextSerial) :: inner, ?_, ?_⟩
    · rw [openings_openRegion, Move.openings_noted, hopenings, List.cons_append]
    · simp only [Move.marks, hf, if_neg hend, Move.nextSerial_noted, scopesOf_cons]
      exact readMarks_append (hstretch _) (readMarks_opening _ _ _)
  | @closed depth hf =>
    generalize hcount : State.closedBy task.grammar m.state.modes depth = count
    by_cases hlength : count ≤ inner.length
    · left
      have htake : m.state.openings.take count = inner.take count := by
        rw [hopenings, List.take_append_of_le_length hlength]
      refine ⟨?_, inner.drop count, ?_, ?_⟩
      · simp only [Move.closedSerials, hf, hcount, htake]
        exact List.map_subset _ (List.take_subset _ _)
      · rw [openings_closes, Move.openings_noted, Move.modes_noted, hcount, hopenings,
          List.drop_append_of_le_length hlength]
      · simp only [Move.marks, hf, hcount, htake]
        exact readMarks_append (hstretch _) (readMarks_closingMarks _ _ _)
    · exact .inr ⟨depth, hf, by omega⟩
  | tookBack hf htook => cases hback.symm.trans htook
  | passed hf _ hopenings' hregions =>
    left
    obtain ⟨rfl, rfl⟩ := List.append_eq_nil_iff.mp (hopenings.symm.trans hopenings')
    refine ⟨by simp [Move.closedSerials, hf], [], openings_passed hregions, ?_⟩
    simp only [Move.marks, hf]
    exact readMarks_append (hstretch _) rfl

/-- The region stays open over these moves, latest first, and in the end `inner` are open inside. -/
structure Remains (task : Task) (o : Entry × Nat) (outer : List (Entry × Nat)) (since : List Move)
    (t : State) (inner : List (Entry × Nat)) : Prop where
  openings : t.openings = inner ++ o :: outer
  marks : readMarks [] (written task since) = some (scopesOf task.grammar inner)
  unclosed : ∀ m ∈ since, o.2 ∉ m.closedSerials task

/-- **A region that was opened is still open, or one of the moves since closes it** with those
inside. -/
theorem Shown.remains_or_closes (h : Shown task start (since ++ before) t)
    (hopened : ∀ u, Shown task start before u → u.openings = o :: outer)
    (hnumbered : ∀ m ∈ since, m.state.Numbered) :
    (∃ inner, Remains task o outer since t inner) ∨
      ∃ later m inside inner depth, since = later ++ m :: inside ∧
        Shown task start (inside ++ before) m.state ∧ Remains task o outer inside m.state inner ∧
        m.found.candidate = .closes depth ∧
        inner.length < State.closedBy task.grammar m.state.modes depth := by
  induction since generalizing t with
  | nil => exact .inl ⟨[], hopened t h, rfl, by simp⟩
  | cons m since ih =>
    cases h with
    | move h hback hskips halike =>
      rcases ih h fun m' hm' => hnumbered m' (List.mem_cons_of_mem _ hm') with
        ⟨inner, hremains⟩ | ⟨later, m', inside, inner, depth, rfl, hclosed⟩
      · rcases Move.inside_or_closes hback hskips hremains.openings with
          ⟨hserials, inner', hopenings, hmarks⟩ | ⟨depth, hf, hlength⟩
        · left
          refine ⟨inner', ?_, ?_, fun m' hm' => ?_⟩
          · rw [halike.openings, hopenings]
          · exact readMarks_append hremains.marks hmarks
          · rcases List.mem_cons.mp hm' with rfl | hm'
            · -- the serial number is that of this region, and of none inside
              intro hmem
              have hordered := (hnumbered m' List.mem_cons_self).ordered
              rw [hremains.openings, List.map_append] at hordered
              have hlt := (List.pairwise_append.mp hordered).2.2 _ (hserials hmem) o.2 (by simp)
              exact Nat.lt_irrefl _ hlt
            · exact hremains.unclosed m' hm'
        · exact .inr ⟨[], m, since, inner, depth, rfl, h, hremains, hf, hlength⟩
      · exact .inr ⟨m :: later, m', inside, inner, depth, rfl, hclosed⟩

namespace Remains

theorem closingMove?_eq_none (h : Remains task o outer since t inner) :
    closingMove? task o.2 since = none := by
  rw [closingMove?, List.find?_eq_none]
  intro m hm
  simpa using h.unclosed m (List.mem_reverse.mp hm)

theorem mem_openings (h : Remains task o outer since t inner) : o ∈ t.openings := by
  rw [h.openings]
  simp

theorem closingMove?_eq_some {inside : List Move} {depth : Nat}
    (h : Remains task o outer inside m.state inner) (later : List Move)
    (hf : m.found.candidate = .closes depth)
    (hlength : inner.length < State.closedBy task.grammar m.state.modes depth) :
    closingMove? task o.2 (later ++ m :: inside) = some m := by
  have hclosed : o.2 ∈ m.closedSerials task := by
    simp only [Move.closedSerials, hf]
    refine List.mem_map_of_mem ?_
    rw [h.openings, List.take_append]
    refine List.mem_append_right _ ?_
    obtain ⟨n, hn⟩ := Nat.exists_eq_add_of_lt hlength
    rw [show State.closedBy task.grammar m.state.modes depth - inner.length = n + 1 by omega]
    exact List.mem_cons_self
  have hinside : inside.reverse.find? (fun m => decide (o.2 ∈ m.closedSerials task)) = none :=
    h.closingMove?_eq_none
  rw [closingMove?, List.reverse_append, List.reverse_cons, List.append_assoc, List.find?_append,
    hinside, Option.none_or, List.singleton_append, List.find?_cons_of_pos (by simpa using hclosed)]

end Remains

/-! ### The text of marks -/

section Text

variable {marks marks' : List Mark}

theorem textOfMarks_append (source : Source) (marks marks' : List Mark) :
    textOfMarks source (marks ++ marks') =
      textOfMarks source marks ++ textOfMarks source marks' := by
  simp [textOfMarks, EventLog.text, String.join_append]

/-- Marks have the text that they add to a draft. -/
theorem Draft.Records.text {k : Nat} {d e : Draft} (h : Records marks k d e) (source : Source) :
    e.text source = d.text source ++ textOfMarks source marks := by
  simp [Draft.text, textOfMarks, EventLog.text, h.events, String.join_append]

theorem textOfMarks_stretch (keywords : Option KeywordTable) (hle : span.start ≤ span.stop)
    (hsize : span.stop ≤ source.size) :
    textOfMarks source (stretch source keywords span) = source.slice span := by
  have hrecords := ((Draft.Records.refl .empty).classify source keywords span).text source
  rw [Draft.text_classify keywords hle hsize, List.nil_append] at hrecords
  exact ((String.append_right_inj _).mp hrecords).symm

theorem textOfMarks_closingMarks (source : Source) (g : Grammar) (os : List (Entry × Nat)) :
    textOfMarks source (closingMarks g os) = "" := by
  induction os with
  | nil => rfl
  | cons o os ih =>
    have hclosing : textOfMarks source (closing (some o.2) (g.mode o.1.mode).scope) = "" := by
      cases (g.mode o.1.mode).scope <;> rfl
    rw [closingMarks, List.flatMap_cons, textOfMarks_append, hclosing, String.empty_append]
    exact ih

theorem length_slice (source : Source) {a b : Nat} (hb : b ≤ source.size) :
    (source.slice ⟨a, b⟩).length = b - a := by
  rw [Source.slice, String.length_ofList, Source.chars, Array.length_toList, Array.size_extract,
    Nat.min_eq_left hb]

/-- What follows a beginning of the text, so that together they are a beginning as well. -/
theorem eq_slice_of_append {text : String} {a b : Nat} (ha : a ≤ source.size) (hb : b ≤ source.size)
    (h : source.slice ⟨0, a⟩ ++ text = source.slice ⟨0, b⟩) : text = source.slice ⟨a, b⟩ := by
  have hlength := congrArg String.length h
  rw [String.length_append, length_slice source ha, length_slice source hb] at hlength
  rw [← source.slice_append (Nat.zero_le a) (by omega : a ≤ b)] at h
  exact (String.append_right_inj _).mp h

theorem written_append (task : Task) (ms ms' : List Move) :
    written task (ms ++ ms') = written task ms' ++ written task ms := by
  induction ms with
  | nil => rw [List.nil_append, written, List.append_nil]
  | cons m ms ih => rw [List.cons_append, written, ih, written, List.append_assoc]

end Text

/-! ### Where a scan has got to -/

theorem lossless_next (h : m.state.core.Lossless task.source)
    (hpos : m.state.pos ≤ m.found.span.start) (hle : m.found.span.start ≤ m.found.span.stop)
    (hsize : m.found.span.stop ≤ task.source.size) : (m.next task).core.Lossless task.source := by
  have hturn : Turn task m.state.core m.found (m.next task).core := core_turn task m.state m.found
  generalize (m.next task).core = c at hturn
  cases hturn with
  | taken => exact h.take hpos hle hsize
  | barred => exact h.bar _

/-- **All text is recorded or waits** at every state, where searches keep within the text. -/
theorem Ran.lossless (hwithin : task.grammar.SearchesWithin task.source)
    (h : Ran task (State.start task.grammar) ms t) :
    t.core.Lossless task.source ∧ ∀ m ∈ ms, m.state.core.Lossless task.source ∧
      (m.next task).core.Lossless task.source ∧ m.found.span.start ≤ m.found.span.stop ∧
      m.state.pos ≤ m.found.span.start ∧ m.found.span.stop ≤ task.source.size := by
  suffices hall : CacheAdmits task t.barred t.cache ∧ t.core.Lossless task.source ∧ ∀ m ∈ ms,
      m.state.core.Lossless task.source ∧ (m.next task).core.Lossless task.source ∧
        m.found.span.start ≤ m.found.span.stop ∧ m.state.pos ≤ m.found.span.start ∧
        m.found.span.stop ≤ task.source.size from hall.2
  induction h with
  | refl => exact ⟨Cache.All.replicate _, lossless_start _ _, by simp⟩
  | @move ms t f _ hf ih =>
    obtain ⟨hcache, hlossless, hmoves⟩ := ih
    obtain ⟨hpos, _, -, hle, hsize, -⟩ := next?_admitted hwithin hcache hf
    have hnext := lossless_next (m := t.move task f) hlossless hpos hle hsize
    refine ⟨cacheAdmits_handle hwithin (cacheAdmits_next? hwithin hcache) f, hnext, fun m hm => ?_⟩
    rcases List.mem_cons.mp hm with rfl | hm
    · exact ⟨hlossless, hnext, hle, hpos, hsize⟩
    · exact hmoves m hm

/-- What the moves that stand have written is the text up to the buffer. -/
theorem Shown.text_written (h : Shown task (State.start task.grammar) kept t)
    (hlossless : t.core.Lossless task.source) :
    textOfMarks task.source (written task kept) = task.source.slice ⟨0, t.draft.bufferStart⟩ := by
  have hrecords := h.records.text task.source
  have hstart : (State.start task.grammar).draft.text task.source = "" := by
    simp [State.start, State.startWith, Draft.text, Draft.empty, EventLog.text]
  rw [hstart, String.empty_append] at hrecords
  exact hrecords.symm.trans hlossless.covers.text

theorem bufferStart_of_opens (hskips : m.skips task = false) (hopens : m.Opens task o) :
    (m.next task).openings = o :: m.state.openings ∧
      (m.next task).draft.bufferStart = m.textStart task := by
  obtain ⟨index, hf, hopens, rfl⟩ := hopens
  have hdeed := m.deed task
  generalize m.next task = u at hdeed
  cases hdeed with
  | whole hf' hend => simp [Move.opensRegion, hf', hend] at hopens
  | skipped hf' hend hskipped => cases hskips.symm.trans hskipped
  | @opened index' hf' hend =>
    obtain rfl : index = index' := Candidate.opens.inj (hf.symm.trans hf')
    refine ⟨by simp, ?_⟩
    rw [draft_openRegion, Move.textStart, hf, Draft.openRegion, Draft.openScope]
    exact Draft.bufferStart_flush _ _ _ _
  | closed hf' | tookBack hf' | passed hf' => cases hf.symm.trans hf'

/-! ### Between the brackets of a region -/

namespace Remains

variable {inside : List Move}

/-- The moves in a region, and the closing of those inside it, are brackets that fit. -/
theorem readMarks_inside (h : Remains task o outer inside t inner)
    (keywords : Option KeywordTable) (span : Span) :
    readMarks [] (written task inside ++
      (stretch task.source keywords span ++ closingMarks task.grammar inner)) = some [] := by
  have hclosing := readMarks_closingMarks task.grammar inner inner.length
  rw [List.take_length, List.drop_length] at hclosing
  exact readMarks_append h.marks
    (readMarks_append (readMarks_stretch _ task.source keywords span) hclosing)

/-- **The text between is what was scanned since the region was opened**, and what is recorded
last. -/
theorem text_inside (hkept : Shown task (State.start task.grammar) (inside ++ m :: before) t)
    (hopened : Shown task (State.start task.grammar) (m :: before) u)
    (ht : t.core.Lossless task.source) (hu : u.core.Lossless task.source) {stop : Nat}
    (hle : t.draft.bufferStart ≤ stop) (hsize : stop ≤ task.source.size)
    (keywords : Option KeywordTable) :
    textOfMarks task.source (written task inside ++
      (stretch task.source keywords ⟨t.draft.bufferStart, stop⟩ ++
        closingMarks task.grammar inner)) = task.source.slice ⟨u.draft.bufferStart, stop⟩ := by
  have hu' : u.draft.bufferStart ≤ task.source.size := Nat.le_trans hu.covers.le hu.le
  refine eq_slice_of_append hu' hsize ?_
  have hwritten := hkept.text_written ht
  rw [written_append, textOfMarks_append, hopened.text_written hu] at hwritten
  rw [textOfMarks_append, textOfMarks_append, textOfMarks_closingMarks, String.append_empty,
    textOfMarks_stretch keywords hle hsize, ← String.append_assoc, hwritten]
  exact task.source.slice_append (Nat.zero_le _) hle

end Remains

theorem closingMarks_append {g : Grammar} {scope : Scope}
    (hscope : (g.mode o.1.mode).scope = some scope)
    (inner outer : List (Entry × Nat)) :
    closingMarks g (inner ++ o :: outer) =
      closingMarks g inner ++ .closed (some o.2) :: closingMarks g outer := by
  rw [closingMarks, List.flatMap_append, List.flatMap_cons, closing, hscope]
  rfl

/-- A region with a scope is opened behind all of the text in front of it. -/
theorem marks_of_opens (hopens : m.Opens task o) {scope : Scope}
    (hscope : (task.grammar.mode o.1.mode).scope = some scope) :
    m.marks task = stretch task.source (m.state.keywords task.grammar)
      ⟨m.state.draft.bufferStart, m.textStart task⟩ ++ [.opened (some o.2) scope] := by
  obtain ⟨index, hf, hopens, rfl⟩ := hopens
  have hend : (task.grammar.mode index).ending ≠ .immediate := by
    intro hend
    simp [Move.opensRegion, hf, hend] at hopens
  simp only at hscope
  simp only [Move.marks, Move.textStart, hf, if_neg hend, opening, hscope]
  rfl

/-! ### The owners of marks -/

theorem openers_stretch (source : Source) (keywords : Option KeywordTable) (span : Span) :
    (stretch source keywords span).filterMap Mark.opener? = [] := by
  have hwith : ∀ ks last, (withText source span.stop ks last).filterMap Mark.opener? = [] := by
    intro ks
    induction ks with
    | nil => intro last; rfl
    | cons k ks ih => intro last; exact ih k.1.stop
  simp only [stretch]
  split
  · rfl
  · cases keywords with
    | none => rfl
    | some table => exact hwith _ _

theorem openers_closingMarks (g : Grammar) (os : List (Entry × Nat)) :
    (closingMarks g os).filterMap Mark.opener? = [] := by
  induction os with
  | nil => rfl
  | cons o os ih =>
    rw [closingMarks, List.flatMap_cons, List.filterMap_append, ← closingMarks, ih, closing]
    cases (g.mode o.1.mode).scope <;> rfl

theorem openers_wholeMarks (source : Source) (keywords : Option KeywordTable) (mode : Mode)
    (span : Span) (pos : Nat) :
    (wholeMarks source keywords mode span pos).filterMap Mark.opener? = [] := by
  rw [wholeMarks]
  split
  · exact openers_stretch _ _ _
  · simp only [List.filterMap_append, openers_stretch, opening, closing]
    cases mode.scope <;> rfl

/-- A move opens the scope of a region when it opens one that has a scope. -/
theorem openers_marks (task : Task) (m : Move) :
    (m.marks task).filterMap Mark.opener? = (m.scopedSerial? task).toList := by
  cases hf : m.found.candidate with
  | opens index =>
    simp only [Move.marks, Move.scopedSerial?, hf]
    split
    · exact openers_wholeMarks _ _ _ _ _
    · rw [List.filterMap_append, openers_stretch, opening]
      cases (task.grammar.mode index).scope <;> rfl
  | closes depth =>
    simp only [Move.marks, Move.scopedSerial?, hf, List.filterMap_append, openers_stretch,
      openers_closingMarks]
    rfl
  | illegal =>
    simp only [Move.marks, Move.scopedSerial?, hf, List.filterMap_append, openers_stretch]
    rfl

theorem openers_written (task : Task) (ms : List Move) :
    (written task ms).filterMap Mark.opener? =
      ms.reverse.filterMap (Move.scopedSerial? task) := by
  induction ms with
  | nil => rfl
  | cons m ms ih =>
    rw [written, List.filterMap_append, ih, openers_marks, List.reverse_cons,
      List.filterMap_append]
    cases h : m.scopedSerial? task <;> simp [h]

/-! ### The nodes of regions -/

section Nodes

variable {scope : Scope} {inside later : List Move} {depth : Nat} {back : List Mark}

/-- Where a region closes, those inside it close first. -/
theorem Remains.marks_of_closes (h : Remains task o outer inside m.state inner)
    (hscope : (task.grammar.mode o.1.mode).scope = some scope)
    (hf : m.found.candidate = .closes depth)
    (hlength : inner.length < State.closedBy task.grammar m.state.modes depth) :
    ∃ back, m.marks task = stretch task.source (m.state.keywords task.grammar)
        ⟨m.state.draft.bufferStart, State.closingEdge task.grammar m.state.modes m.found.span⟩ ++
      (closingMarks task.grammar inner ++ .closed (some o.2) :: back) := by
  obtain ⟨n, hn⟩ := Nat.exists_eq_add_of_lt hlength
  have htake : m.state.openings.take (State.closedBy task.grammar m.state.modes depth) =
      inner ++ o :: outer.take n := by
    rw [h.openings, hn, Nat.add_assoc, List.take_length_add_append, List.take_succ_cons]
  refine ⟨closingMarks task.grammar (outer.take n), ?_⟩
  simp only [Move.marks, hf, htake, closingMarks_append hscope]

/-- Between its two brackets a region has what was scanned since it was opened. -/
theorem Remains.exists_lies (h : Remains task o m.state.openings inside u inner)
    (hshown : Shown task (State.start task.grammar) (inside ++ m :: before) u)
    (hopens : m.Opens task o) (hscope : (task.grammar.mode o.1.mode).scope = some scope)
    (keywords : Option KeywordTable) (stop : Nat) {marks : List Mark}
    (hfit : readMarks [] marks = some [])
    (hmarks : marks = written task (m :: before) ++ (written task inside ++
      (stretch task.source keywords ⟨u.draft.bufferStart, stop⟩ ++
        (closingMarks task.grammar inner ++ .closed (some o.2) :: back)))) :
    ∃ children, Piece.Lies (.region (some o.2) scope children) (pieces task.source marks)
        (scopesOf task.grammar m.state.openings) ∧
      (u.core.Lossless task.source → (m.next task).core.Lossless task.source →
        u.draft.bufferStart ≤ stop → stop ≤ task.source.size →
        Node.contents (children.map Piece.node) = task.source.slice ⟨m.textStart task, stop⟩) := by
  have hbefore := hshown.of_append
  obtain ⟨hback, hskips⟩ := hshown.stands m (by simp)
  -- what is in front of the opening leaves the scopes of the regions around
  have hfront := readMarks_append hbefore.readMarks (readMarks_stretch _ task.source
    (m.state.keywords task.grammar) ⟨m.state.draft.bufferStart, m.textStart task⟩)
  have hsplit : marks = (written task before ++ stretch task.source
        (m.state.keywords task.grammar) ⟨m.state.draft.bufferStart, m.textStart task⟩) ++
      .opened (some o.2) scope :: ((written task inside ++
        (stretch task.source keywords ⟨u.draft.bufferStart, stop⟩ ++
          closingMarks task.grammar inner)) ++ .closed (some o.2) :: back) := by
    rw [hmarks, written, marks_of_opens hopens hscope]
    simp only [List.append_assoc, List.cons_append, List.nil_append]
  obtain ⟨children, hlies, htext⟩ := exists_lies_pieces task.source hsplit hfit hfront
    (h.readMarks_inside keywords ⟨u.draft.bufferStart, stop⟩)
  refine ⟨children, hlies, fun hlossless hnext hle hsize => ?_⟩
  rw [htext, ← (bufferStart_of_opens hskips hopens).2]
  exact text_inside hshown (.move hbefore hback hskips (.refl _)) hlossless hnext hle hsize keywords

/-- **The node of a region** that a move opened which stands: it lies in the scopes of the regions
that were open then, and has the text from where the region was opened to where it ends. -/
theorem exists_lies_of_opens (hran : Ran task (State.start task.grammar) ms t)
    (hsplit : standing task ms = since ++ m :: before) (hopens : m.Opens task o)
    (hscope : (task.grammar.mode o.1.mode).scope = some scope) :
    (closingMove? task o.2 since = none → o ∈ t.openings) ∧
      ∃ children, Piece.Lies (.region (some o.2) scope children)
          (pieces task.source (allMarks task ms t)) (scopesOf task.grammar m.state.openings) ∧
        (task.grammar.SearchesWithin task.source → Node.contents (children.map Piece.node) =
          task.source.slice ⟨m.textStart task, textStop task o.2 since⟩) := by
  have hfit := hran.readMarks_allMarks
  have hshown := hran.standing.shown
  rw [hsplit] at hshown
  have hopenings := (bufferStart_of_opens (hshown.stands m (by simp)).2 hopens).1
  have hmem : ∀ m' ∈ since ++ m :: before, m' ∈ ms := by
    rw [← hsplit]
    exact standing_subset task ms
  have hnumbered : ∀ m' ∈ since, m'.state.Numbered := by
    intro m' hm'
    obtain ⟨_, u, f, hu, -, rfl⟩ := hran.exists_of_mem (hmem m' (by simp [hm']))
    exact ⟨hu.numbered.ordered, hu.numbered.below⟩
  have hopened : ∀ u, Shown task (State.start task.grammar) (m :: before) u →
      u.openings = o :: m.state.openings := by
    intro u hu
    cases hu with
    | move _ _ _ halike => exact halike.openings.trans hopenings
  rcases hshown.remains_or_closes hopened hnumbered with
    ⟨inner, hremains⟩ | ⟨later, m', inside, inner, depth, rfl, hshown', hremains, hf, hlength⟩
  · refine ⟨fun _ => hremains.mem_openings, ?_⟩
    obtain ⟨children, hlies, htext⟩ := hremains.exists_lies hshown hopens hscope
      (t.keywords task.grammar) task.source.size hfit
      (by rw [allMarks, hsplit, written_append, hremains.openings, closingMarks_append hscope,
            List.append_assoc])
    refine ⟨children, hlies, fun hwithin => ?_⟩
    obtain ⟨ht, hmoves⟩ := hran.lossless hwithin
    rw [textStop, hremains.closingMove?_eq_none]
    exact htext ht (hmoves m (hmem m (by simp))).2.1 (Nat.le_trans ht.covers.le ht.le)
      (Nat.le_refl _)
  · have hclosing := hremains.closingMove?_eq_some later hf hlength
    refine ⟨fun hnone => (nomatch hclosing.symm.trans hnone), ?_⟩
    obtain ⟨back, hback⟩ := hremains.marks_of_closes hscope hf hlength
    have hinside : written task (m' :: inside) = written task inside ++ _ :=
      congrArg (written task inside ++ ·) hback
    obtain ⟨children, hlies, htext⟩ := hremains.exists_lies hshown' hopens hscope
      (m'.state.keywords task.grammar)
      (State.closingEdge task.grammar m'.state.modes m'.found.span) hfit
      (by rw [allMarks, hsplit, written_append, written_append, hinside]
          simp only [List.append_assoc, List.cons_append]
          rfl)
    refine ⟨children, hlies, fun hwithin => ?_⟩
    obtain ⟨-, hmoves⟩ := hran.lossless hwithin
    obtain ⟨hlossless, -, hle, hpos, hsize⟩ := hmoves m' (hmem m' (by simp))
    have hbuffer : m'.state.draft.bufferStart ≤ m'.state.pos := hlossless.covers.le
    have hedge := closingEdge_eq task.grammar m'.state.modes m'.found.span
    rw [textStop, hclosing]
    exact htext hlossless (hmoves m (hmem m (by simp))).2.1 (by omega) (by omega)

end Nodes

/-- **Region spans are exact.**  A text is highlighted as some state shows it that its scan gets
to, and at the end of its moves as far as searches keep within the text.  Whatever state that is,
its nodes have owners, one node for each region with a scope that was opened by a move that stands,
in the order of the text.

The node of a region lies in the nodes of the regions with scopes that were open when it was
opened.  Where searches keep within the text, it has the text from the start of the opening match,
or from its end when the mode excludes it, to the edge of the match that closes the region on the
side that the innermost mode says then, or else, when the region is still open, to the end. -/
theorem region_spans_are_exact (g : Grammar) (text : String) (options : Options) :
    let task := Scan.task g (Source.ofString text) options
    (∃ ms t, Ran task (State.start g) ms t ∧ g.highlight text options = result task t ∧
      (g.InOrder → g.SearchesWithin task.source → (t.next? task).1 = none)) ∧
    ∀ ms t, Ran task (State.start g) ms t →
      ∃ ps : List Piece, (result task t).nodes = ps.map Piece.node ∧
        Piece.ownersAmong ps = (standing task ms).reverse.filterMap (Move.scopedSerial? task) ∧
        (Piece.ownersAmong ps).Nodup ∧
        ∀ since m before o scope, standing task ms = since ++ m :: before → m.Opens task o →
          (g.mode o.1.mode).scope = some scope →
          (closingMove? task o.2 since = none → o ∈ t.openings) ∧
          ∃ children, Piece.Lies (.region (some o.2) scope children) ps
              (scopesOf g m.state.openings) ∧
            (g.SearchesWithin task.source → Node.contents (children.map Piece.node) =
              task.source.slice ⟨m.textStart task, textStop task o.2 since⟩) := by
  intro task
  constructor
  · by_cases hsound : g.InOrder ∧ g.SearchesWithin task.source
    · have hin : task.grammar.InOrder := hsound.1
      obtain ⟨ms, t, hran, hnone, hrun⟩ := exists_ran_run hin hsound.2 []
      have hresult : g.highlight text options = result task (t.next? task).2 :=
        congrArg (result task) hrun
      exact ⟨ms, t, hran, hresult.trans rfl, fun _ _ => hnone⟩
    · obtain ⟨ms, t, hran, hresult⟩ := exists_ran_highlight g text options
      exact ⟨ms, t, hran, hresult, fun hin hwithin => absurd ⟨hin, hwithin⟩ hsound⟩
  · intro ms t hran
    have hfit := hran.readMarks_allMarks
    have howners := ownersAmong_pieces task.source hfit
    rw [allMarks, List.filterMap_append, List.filterMap_append, openers_written, openers_stretch,
      openers_closingMarks, List.append_nil, List.append_nil, ← allMarks] at howners
    refine ⟨pieces task.source (allMarks task ms t), ?_, howners, ?_, ?_⟩
    · rw [(result_of_ran hran).1]
      exact nodes_eq_pieces task.source hfit
    · rw [howners]
      exact hran.nodup_serials
    · intro since m before o scope hsplit hopens hscope
      exact exists_lies_of_opens hran hsplit hopens hscope

theorem region_spans_in_quotes_are_exact :
    let task := Scan.task Quotes.grammar (Source.ofString "'b'") ⟨false⟩
    let s := State.start Quotes.grammar
    let f : Found := ⟨⟨0, 1⟩, .opens 0⟩
    let t := (s.move task f).next task
    let f' : Found := ⟨⟨2, 3⟩, .closes 0⟩
    let ms := [t.move task f', s.move task f]
    Ran task s ms ((t.move task f').next task) ∧ standing task ms = ms ∧
      Quotes.grammar.SearchesWithin task.source ∧
      ∃ ps children, (result task ((t.move task f').next task)).nodes = ps.map Piece.node ∧
        Piece.Lies (.region (some 1) .string children) ps [] ∧
        Node.contents (children.map Piece.node) = "'b'" := by
  intro task s f t f' ms
  have hran : Ran task s ms ((t.move task f').next task) :=
    .move (.move .refl (by decide +kernel)) (by decide +kernel)
  have hstanding : standing task ms = ms := by
    have hstands : ∀ m ∈ ms, m.takesBack = false ∧ m.skips task = false := by decide +kernel
    have h₁ := hstands _ List.mem_cons_self
    have h₂ := hstands _ (List.mem_cons_of_mem _ List.mem_cons_self)
    simp only [ms, standing, h₁, h₂, Bool.false_eq_true, if_false]
  have hwithin := (Quotes.isReliable task.source).searchesWithin
  obtain ⟨ps, hnodes, -, -, hspans⟩ :=
    (region_spans_are_exact Quotes.grammar "'b'" ⟨false⟩).2 ms _ hran
  have hopens : (s.move task f).Opens task (⟨0, _, 0, s.draft.checkpoint⟩, 1) :=
    ⟨0, rfl, by decide +kernel, rfl⟩
  obtain ⟨-, children, hlies, htext⟩ := hspans [t.move task f'] (s.move task f) [] _ .string
    hstanding hopens (by decide +kernel)
  have hslice : task.source.slice ⟨(s.move task f).textStart task,
      textStop task 1 [t.move task f']⟩ = "'b'" := by decide +kernel
  exact ⟨hran, hstanding, hwithin, ps, children, hnodes, hlies, (htext hwithin).trans hslice⟩

/-! ### Where a match is found behind

A comment that is taken as a whole, and found behind the start of the string that it is in, has the
text in front of the string too. -/

namespace Backward

def remark : ModeDecl :=
  { ModeDecl.opening (.regex ⟨"(?<=\\Kzxa)b", some '!', [], none⟩) with scope := some .comment }

def quoted : ModeDecl :=
  { ModeDecl.opening (.literal "xa") with
    scope := some .string, ending := .never, contains := [0] }

def remarks : Builder := { Builder.start .native with modes := #[some remark, some quoted] }

end Backward

theorem exists_region_from_before :
    ∃ g, Backward.remarks.finish ⟨"toy", [], none, [1], none⟩ = .ok g ∧
      let task := Scan.task g (Source.ofString "zxabc") ⟨false⟩
      ∃ m' m t o, Ran task (State.start g) [m', m] t ∧ (t.next? task).1 = none ∧
        standing task [m', m] = [m', m] ∧ m.Opens task o ∧ (g.mode o.1.mode).scope = some .string ∧
        task.source.slice ⟨m.textStart task, textStop task o.2 [m']⟩ = "xabc" ∧
        (result task t).tokens = [⟨none, "z"⟩, ⟨some .string, "zxabc"⟩] ∧
        (g.highlight "zxabc" ⟨false⟩).tokens = [⟨none, "z"⟩, ⟨some .string, "zxabc"⟩] := by
  let f : Found := ⟨⟨1, 3⟩, .opens 1⟩
  let f' : Found := ⟨⟨0, 4⟩, .opens 0⟩
  have hbefore : (Backward.remarks.finish ⟨"toy", [], none, [1], none⟩).toOption.map (fun g =>
      let task := Scan.task g (Source.ofString "zxabc") ⟨false⟩
      let m := (State.start g).move task f
      let m' := (m.next task).move task f'
      let t := m'.next task
      decide (((State.start g).next? task).1 = some f ∧
        ((m.next task).next? task).1 = some f' ∧ (t.next? task).1 = none ∧
        (m.takesBack = false ∧ m.skips task = false) ∧
        (m'.takesBack = false ∧ m'.skips task = false) ∧ m.opensRegion task = true) &&
      decide ((g.mode 1).scope = some .string ∧
        task.source.slice ⟨m.textStart task, textStop task 1 [m']⟩ = "xabc" ∧
        (result task t).tokens = [⟨none, "z"⟩, ⟨some .string, "zxabc"⟩] ∧
        (g.highlight "zxabc" ⟨false⟩).tokens = [⟨none, "z"⟩, ⟨some .string, "zxabc"⟩])) =
      some true := by
    decide +kernel
  cases hg : Backward.remarks.finish ⟨"toy", [], none, [1], none⟩ with
  | error e =>
    rw [hg] at hbefore
    cases hbefore
  | ok g =>
    rw [hg] at hbefore
    obtain ⟨hscan, hrest⟩ := (Bool.and_eq_true _ _).mp (Option.some.inj hbefore)
    obtain ⟨hf, hf', hnone, h₁, h₂, hopens⟩ := of_decide_eq_true hscan
    refine ⟨g, rfl, _, _, _, (⟨1, _, _, _⟩, 1), .move (.move .refl hf) hf', hnone, ?_,
      ⟨1, rfl, hopens, rfl⟩, of_decide_eq_true hrest⟩
    simp only [standing, h₁, h₂, Bool.false_eq_true, if_false]

end Highlighting.Scan
