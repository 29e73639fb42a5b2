/-
  Highlighting/Proofs/Scan/TrailOrder.lean
  ========================================
  **Trails are in order**, and it takes one look to know whether a position is
  in a trail.

  A stretch of a trail begins where the scan stands, and ends where the next
  match starts.  So it is known at any time of which kind the next one will be
  (`Continues`): in the innermost region it begins at the position, and ends
  at some place `reach` or behind it; in any other region it begins and ends
  at or behind the start of the region inside.

  Mostly the scan goes on behind a match, or where a region started that is
  taken back, and that is where the last stretch has come to.  Only when an
  opening is skipped does the scan stay where it was.  Then no search gives a
  match that starts earlier than the one it gave before
  (`exists_search?_of_skip`), so that the next match does not start before the
  opening either.

  None of this needs the searches to be steady, as long as they keep within the
  text (`trails_are_in_order`).  Where they do not, a trail can go back, and a
  position in it is missed (`exists_position_missed`).
-/
import Highlighting.Proofs.Scan.Cache
import Highlighting.Proofs.Scan.Lookup
import Highlighting.Proofs.Scan.Moves

namespace Highlighting.Scan

variable {task : Task} {s t : State} {f : Found} {m : Mode} {ms : List Move} {rs : List Region}
  {next next' span : Span} {index depth reach x : Nat}

/-! ### What searches give -/

/-- What a search for the terminal gives, with the results that are kept. -/
def State.search? (task : Task) (s : State) (index : Nat) : Option Span :=
  (search task s.barred s.pos index s.cache).1

section Ahead

variable (hahead : task.SearchesAhead)
include hahead

theorem search?_next? (index : Nat) :
    (s.next? task).2.search? task index = s.search? task index :=
  (nextMatch_eq_pick hahead s.modes s.cache).2 index

theorem search?_ge (h : s.search? task index = some span) : s.pos ≤ span.start :=
  search_ge hahead h

theorem isLeast_of_next? (hf : (s.next? task).1 = some f) :
    IsLeast (s.search? task) (candidates task s.modes) f :=
  pick_isLeast ((nextMatch_eq_pick hahead s.modes s.cache).1.symm.trans hf)

/-- A mode that opens was found by the search for its opener. -/
theorem search?_opener_of_next? (hf : (s.next? task).1 = some f) (hopens : f.candidate = .opens x) :
    s.search? task (task.grammar.mode x).opener = some f.span := by
  obtain ⟨index, hmem, hfound⟩ := mem_of_isLeast (isLeast_of_next? hahead hf)
  rw [hopens] at hmem
  obtain ⟨-, rfl⟩ := mem_candidates_opens.mp hmem
  exact hfound

end Ahead

/-! ### What searches give after a skip -/

/-- The last search for the terminal gave a match at the place. -/
def State.resumes (s : State) (index start : Nat) : Bool :=
  (s.cache.search? index).any fun c => decide (c.since ≤ s.pos) && c.found.any (·.start == start)

theorem search?_cache_skip (task : Task) (s : State) (index x i : Nat) :
    (s.skip task index x).cache.search? i =
      if i = index then
        if s.resumes index x then
          some ⟨s.pos, searchFrom task ((index, x) :: s.barred) index (x + 1)⟩
        else none
      else s.cache.search? i := by
  rw [State.skip, ← State.resumes]
  by_cases hresumes : s.resumes index x = true
  · have hlt : index < s.cache.size := by
      obtain ⟨c, hc, -⟩ := (Option.any_eq_true _ _).mp hresumes
      exact lt_size_of_search? hc
    simp only [hresumes, if_true, search?_record, hlt, and_true, @eq_comm _ index]
  · simp only [hresumes, Bool.false_eq_true, if_false, search?_forget, @eq_comm _ index]

/-- A search result that is used and is the match at the place can be resumed. -/
theorem resumes_of_kept {c : Searched} (hkept : s.cache.kept? task s.pos index = some c)
    (hfound : c.found = some span) : s.resumes index span.start = true := by
  obtain ⟨hc, -, hholds⟩ := kept?_eq_some hkept
  simp only [Searched.holdsAt, Bool.and_eq_true, decide_eq_true_eq] at hholds
  simp [State.resumes, hc, hfound, hholds.1]

section Within

variable (hwithin : task.grammar.SearchesWithin task.source)
include hwithin

/-- An earlier result that was used before a skip is used after it, or the one that took its
place. -/
theorem kept?_eq_none_of_skip (hopener : s.search? task index = some span) {i : Nat}
    (h : (s.skip task index span.start).cache.kept? task s.pos i = none) :
    s.cache.kept? task s.pos i = none := by
  rw [Option.eq_none_iff_forall_ne_some]
  intro c hkept
  have hcache := search?_cache_skip task s index span.start i
  by_cases hi : i = index
  · subst hi
    have hpos : s.pos ≤ span.start := search?_ge (searchesAhead_of_within hwithin) hopener
    rw [State.search?, search_of_kept hkept] at hopener
    rw [if_pos rfl, if_pos (resumes_of_kept hkept hopener)] at hcache
    -- the search has gone on behind the match, so that its result still holds
    have hholds : Searched.holdsAt
        ⟨s.pos, searchFrom task ((i, span.start) :: s.barred) i (span.start + 1)⟩ s.pos = true := by
      simp only [Searched.holdsAt, Nat.le_refl, decide_true, Bool.true_and, Option.all_eq_true,
        decide_eq_true_eq]
      intro found hfound
      have hle := (searchFrom_admitted hwithin hfound).1
      omega
    rw [Cache.kept?, hcache, if_pos (kept?_eq_some hkept).2.1, Option.filter_some, if_pos hholds]
      at h
    cases h
  · rw [if_neg hi] at hcache
    cases h.symm.trans ((kept?_congr hcache).trans hkept)

/-- **After a skip, no search gives a match that starts earlier than the one it gave before.** -/
theorem exists_search?_of_skip (hopener : s.search? task index = some span) {i : Nat}
    (h : (s.skip task index span.start).search? task i = some next) :
    ∃ found, s.search? task i = some found ∧ found.start ≤ next.start := by
  have hsearch : (search task ((index, span.start) :: s.barred) s.pos i
      (s.skip task index span.start).cache).1 = some next := h
  cases hkept : (s.skip task index span.start).cache.kept? task s.pos i with
  | some c =>
    rw [search_of_kept hkept] at hsearch
    have hc := (kept?_eq_some hkept).1
    have hcache := search?_cache_skip task s index span.start i
    by_cases hi : i = index
    · subst hi
      rw [if_pos rfl] at hcache
      rw [hcache] at hc
      split at hc
      · obtain rfl := Option.some.inj hc
        exact ⟨span, hopener, Nat.le_of_succ_le (searchFrom_admitted hwithin hsearch).1⟩
      · cases hc
    · rw [if_neg hi] at hcache
      refine ⟨next, ?_, Nat.le_refl _⟩
      rw [State.search?, search_of_kept ((kept?_congr hcache).symm.trans hkept)]
      exact hsearch
  | none =>
    rw [search_of_not_kept hkept] at hsearch
    obtain ⟨found, hfound, hle⟩ := exists_searchFrom_of_cons hwithin hsearch
    refine ⟨found, ?_, hle⟩
    rw [State.search?, search_of_not_kept (kept?_eq_none_of_skip hwithin hopener hkept)]
    exact hfound

end Within

/-! ### Trails that go on -/

/-- The trails are in order, and that of the innermost region may go on with the stretch.  Any
other one may go on where the region inside starts. -/
def Continues : Span → List Region → Prop
  | _, [] => True
  | next, r :: outer =>
    Trail.InOrder (r.trail.push next) ∧ r.entry.start ≤ next.start ∧
      Continues ⟨r.entry.start, r.entry.start⟩ outer

namespace Continues

theorem mono (h : Continues next rs) (hstart : next.start ≤ next'.start)
    (hstop : next.stop ≤ next'.stop) (hle : next'.start ≤ next'.stop) : Continues next' rs := by
  cases rs with
  | nil => trivial
  | cons r outer =>
    obtain ⟨hinner, hr, houter⟩ := h
    exact ⟨hinner.push_mono hstart hstop hle, Nat.le_trans hr hstart, houter⟩

/-- The trail goes on with a stretch, and may do so again. -/
theorem push {r : Region} {outer : List Region} (h : Continues next (r :: outer)) :
    Continues next ({ r with trail := r.trail.push next } :: outer) :=
  ⟨h.1.push_again, h.2⟩

theorem drop (h : Continues ⟨x, x⟩ rs) (n : Nat) : Continues ⟨x, x⟩ (rs.drop n) := by
  induction n generalizing x rs with
  | zero => exact h
  | succ n ih =>
    cases rs with
    | nil => trivial
    | cons r outer =>
      obtain ⟨-, hr, houter⟩ := h
      exact (ih houter).mono hr hr (Nat.le_refl _)

theorem inOrder (h : Continues next rs) : ∀ r ∈ rs, r.trail.InOrder := by
  induction rs generalizing next with
  | nil => intro r hr; cases hr
  | cons r outer ih =>
    obtain ⟨hinner, -, houter⟩ := h
    intro r' hr'
    rcases List.mem_cons.mp hr' with rfl | hr'
    · exact (Trail.inOrder_push_iff.mp hinner).1
    · exact ih houter r' hr'

end Continues

/-! ### What a scan keeps -/

/-- The trails are in order, and the next stretch will end at `reach` or behind it. -/
structure State.Onward (task : Task) (reach : Nat) (s : State) : Prop where
  pos_le : s.pos ≤ reach
  regions : Continues ⟨s.pos, reach⟩ s.regions
  abandoned : ∀ a, s.trails = some a → a.trail.InOrder
  ahead : ∀ c ∈ candidates task s.modes, ∀ span, s.search? task c.1 = some span →
    reach ≤ span.start

theorem onward_start (task : Task) :
    (State.start task.grammar).Onward task 0 where
  pos_le := Nat.le_refl 0
  regions := trivial
  abandoned := fun _ ha => nomatch ha
  ahead := fun _ _ _ _ => Nat.zero_le _

namespace State.Onward

theorem continues_start (h : s.Onward task x) : Continues ⟨x, x⟩ s.regions :=
  h.regions.mono h.pos_le (Nat.le_refl x) (Nat.le_refl x)

section Ahead

variable (hahead : task.SearchesAhead)
include hahead

/-- Searches give nothing in front of the position. -/
theorem of_continues (hregions : Continues ⟨s.pos, s.pos⟩ s.regions)
    (habandoned : ∀ a, s.trails = some a → a.trail.InOrder) : s.Onward task s.pos :=
  ⟨Nat.le_refl _, hregions, habandoned, fun _ _ _ hspan => search_ge hahead hspan⟩

theorem next? (h : s.Onward task reach) (hf : (s.next? task).1 = some f) :
    (s.next? task).2.Onward task f.span.start := by
  obtain ⟨i, index, hi, hfound, hleast⟩ := isLeast_of_next? hahead hf
  have hreach : reach ≤ f.span.start := h.ahead _ (List.mem_of_getElem? hi) f.span hfound
  have hpos : s.pos ≤ f.span.start := Nat.le_trans h.pos_le hreach
  refine ⟨hpos, h.regions.mono (Nat.le_refl _) hreach hpos, h.abandoned, ?_⟩
  intro c hc span hspan
  rw [search?_next? hahead] at hspan
  obtain ⟨j, hj⟩ := List.getElem?_of_mem hc
  have hle := hleast j c span hj hspan
  omega

end Ahead

/-- The stretch up to the match is added to the trail of the innermost region. -/
theorem leaveTrail (h : s.Onward task span.start) :
    (s.leaveTrail span).Onward task span.start := by
  obtain ⟨pos, draft, cache, barred, trails, regions, nextSerial⟩ := s
  cases regions with
  | nil => exact h
  | cons r outer => exact ⟨h.pos_le, h.regions.push, h.abandoned, h.ahead⟩

section Steps

variable (hle : span.start ≤ span.stop)
include hle

theorem continues_stop (h : s.Onward task span.start) :
    Continues ⟨span.stop, span.stop⟩ s.regions :=
  h.continues_start.mono hle hle (Nat.le_refl _)

variable (hahead : task.SearchesAhead)
include hahead

theorem takeWhole (h : s.Onward task span.start) :
    (s.takeWhole task m span).Onward task span.stop := by
  have hregions := h.continues_stop hle
  exact of_continues hahead (s := s.takeWhole task m span) hregions h.abandoned

theorem openRegion (h : s.Onward task span.start) :
    (s.openRegion task index m span).Onward task span.stop := by
  refine of_continues hahead (s := s.openRegion task index m span) ?_ h.abandoned
  refine ⟨Trail.inOrder_push_iff.mpr ⟨Trail.inOrder_empty, Nat.le_refl _, ?_⟩, hle,
    h.continues_start⟩
  intro other hother
  cases Array.not_mem_empty other hother

theorem closes (h : s.Onward task span.start) :
    (s.closes task depth span).Onward task span.stop := by
  have hregions := (h.continues_stop hle).drop (closedBy task.grammar s.modes depth)
  exact of_continues hahead (s := s.closes task depth span) hregions h.abandoned

omit hle in
/-- A region that is taken back leaves its trail behind, and the one around goes on where it
started. -/
theorem meetsIllegal (h : s.Onward task reach) :
    (s.meetsIllegal task span).Onward task (s.meetsIllegal task span).pos := by
  have hregions := h.regions
  refine of_continues hahead ?_ ?_
  · cases hcons : s.regions with
    | nil => simp only [State.meetsIllegal, hcons, Continues]
    | cons r outer =>
      rw [hcons] at hregions
      simp only [State.meetsIllegal, hcons]
      exact hregions.2.2
  · cases hcons : s.regions with
    | nil =>
      simp only [State.meetsIllegal, hcons]
      exact h.abandoned
    | cons r outer =>
      simp only [State.meetsIllegal, hcons]
      intro a ha
      obtain rfl := Option.some.inj ha
      exact h.regions.inOrder r (by rw [hcons]; exact List.mem_cons_self)

end Steps

section Within

variable (hwithin : task.grammar.SearchesWithin task.source)
include hwithin

/-- The scan stays where it was, and nothing comes next that starts before the opening which is
skipped. -/
theorem skip (h : s.Onward task span.start) (hopener : s.search? task index = some span) :
    (s.skip task index span.start).Onward task span.start := by
  refine ⟨h.pos_le, h.regions, h.abandoned, fun c hc next hnext => ?_⟩
  obtain ⟨found, hfound, hle⟩ := exists_search?_of_skip hwithin hopener hnext
  exact Nat.le_trans (h.ahead c hc found hfound) hle

theorem opens (h : s.Onward task span.start) (hle : span.start ≤ span.stop)
    (hopener : s.search? task (task.grammar.mode index).opener = some span) :
    ∃ reach, (s.opens task index span).Onward task reach := by
  have hahead := searchesAhead_of_within hwithin
  rw [State.opens]
  split
  · exact ⟨_, h.takeWhole hle hahead⟩
  · split
    · exact ⟨_, h.skip hwithin hopener⟩
    · exact ⟨_, h.openRegion hle hahead⟩

/-- **A step keeps the trails in order.** -/
theorem handle (h : s.Onward task f.span.start) (hle : f.span.start ≤ f.span.stop)
    (hopener : ∀ index, f.candidate = .opens index →
      s.search? task (task.grammar.mode index).opener = some f.span) :
    ∃ reach, (s.handle task f).Onward task reach := by
  have hahead := searchesAhead_of_within hwithin
  have hleft := h.leaveTrail
  have hsearch : ∀ index, (s.leaveTrail f.span).search? task index = s.search? task index := by
    intro index
    rw [State.leaveTrail]
    split <;> rfl
  rw [State.handle]
  cases hf : f.candidate with
  | opens index => exact hleft.opens hwithin hle ((hsearch _).trans (hopener index hf))
  | closes depth => exact ⟨_, hleft.closes hle hahead⟩
  | illegal => exact ⟨_, hleft.meetsIllegal hahead⟩

end Within

end State.Onward

/-- **Trails are in order at every state that a scan gets to.** -/
theorem Ran.onward (hwithin : task.grammar.SearchesWithin task.source)
    (h : Ran task (State.start task.grammar) ms t) : ∃ reach, t.Onward task reach := by
  have hall : CacheAdmits task t.barred t.cache ∧ ∃ reach, t.Onward task reach := by
    refine h.inv (P := fun s => CacheAdmits task s.barred s.cache ∧ ∃ reach, s.Onward task reach)
      ?_ ⟨Cache.All.replicate _, 0, onward_start task⟩
    rintro s f ⟨hadmits, reach, hs⟩ hf
    have hahead := searchesAhead_of_within hwithin
    obtain ⟨-, _, -, hadmitted⟩ := next?_admitted hwithin hadmits hf
    refine ⟨cacheAdmits_handle hwithin (cacheAdmits_next? hwithin hadmits) f, ?_⟩
    refine (hs.next? hahead hf).handle hwithin hadmitted.le fun index hopens => ?_
    exact (search?_next? hahead _).trans (search?_opener_of_next? hahead hf hopens)
  exact hall.2

/-! ### One look is enough -/

/-- A region would retrace the one abandoned last if it is of the same mode, inside the same
region, and begins in the trail. -/
theorem State.Onward.retraces_iff (h : s.Onward task reach) (mode pos : Nat) :
    s.retraces mode pos = true ↔ ∃ a, s.trails = some a ∧ a.parent = serialOf s.regions ∧
      a.mode = mode ∧ a.trail.Covers pos := by
  rw [State.retraces]
  cases htrails : s.trails with
  | none => simp
  | some a =>
    simp only [Bool.and_eq_true, beq_iff_eq, (h.abandoned a htrails).finds_iff_covers,
      Option.some.injEq, exists_eq_left', and_assoc]

/-- **Trails are in order, and one look tells whether a position is in one.**  At every state that
a scan gets to where searches keep within the text, and also once the stretch up to the next match
has been added to a trail: in the trails of all open regions and in that of the region abandoned
last, no stretch ends before it starts, and neither starts nor ends decrease.  Halving comes down
to the first stretch that does not end before the position it is for.  So a region is held for a
repetition of the abandoned one exactly if that was of the same mode, inside the same region, and
one of the stretches of its trail covers the position at which the new one begins. -/
theorem trails_are_in_order (task : Task)
    (hwithin : task.grammar.SearchesWithin task.source) :
    ∀ ms t, Ran task (State.start task.grammar) ms t → ∀ s,
      s = t ∨ (∃ f, (t.next? task).1 = some f ∧ s = (t.move task f).noted) →
      (∀ r ∈ s.regions, r.trail.InOrder) ∧
      (∀ a, s.trails = some a → a.trail.InOrder ∧
        ∀ pos place span, a.trail[place]? = some span →
          (place < a.trail.firstReaching pos ↔ span.stop < pos)) ∧
      ∀ mode pos, s.retraces mode pos = true ↔ ∃ a, s.trails = some a ∧
        a.parent = serialOf s.regions ∧ a.mode = mode ∧
        ∃ span ∈ a.trail, span.start ≤ pos ∧ pos ≤ span.stop := by
  intro ms t hran s hs
  obtain ⟨reach, hreach⟩ : ∃ reach, s.Onward task reach := by
    obtain ⟨reach, ht⟩ := hran.onward hwithin
    rcases hs with rfl | ⟨f, hf, rfl⟩
    · exact ⟨reach, ht⟩
    · exact ⟨_, (ht.next? (searchesAhead_of_within hwithin) hf).leaveTrail⟩
  refine ⟨hreach.regions.inOrder, fun a ha => ?_, hreach.retraces_iff⟩
  have hordered := hreach.abandoned a ha
  exact ⟨hordered, fun pos place span hspan => hordered.lt_firstReaching_iff hspan⟩

theorem trails_in_quotes_are_in_order :
    let task := Scan.task Quotes.grammar (Source.ofString "'a\n'b'") ⟨false⟩
    ∃ ms t, Ran task (State.start Quotes.grammar) ms t ∧
      Quotes.grammar.SearchesWithin task.source ∧
      (∀ a, t.trails = some a → a.trail.InOrder) ∧
      t.retraces 0 2 = true ∧ t.retraces 0 4 = false := by
  intro task
  have hwithin := (Quotes.isReliable task.source).searchesWithin
  -- the first string is taken back at the end of the line
  obtain ⟨ms, t, hran, hregions, htrails⟩ := exists_ran_trails task 2 (State.start Quotes.grammar)
  have hordered := trails_are_in_order task hwithin ms t hran t (.inl rfl)
  have hlast : (runFor task 2 (State.start Quotes.grammar)).trails.map
      (fun a => (a.parent, a.mode, a.trail)) = some (0, 0, #[⟨1, 2⟩]) := by decide +kernel
  have houter : serialOf (runFor task 2 (State.start Quotes.grammar)).regions = 0 := by
    decide +kernel
  rw [← htrails] at hlast
  rw [← hregions] at houter
  obtain ⟨a, ha, hlast⟩ := Option.map_eq_some_iff.mp hlast
  simp only [Prod.mk.injEq] at hlast
  obtain ⟨hparent, hmode, htrail⟩ := hlast
  refine ⟨ms, t, hran, hwithin, fun a ha => (hordered.2.1 a ha).1, ?_, ?_⟩
  · refine (hordered.2.2 0 2).mpr ⟨a, ha, hparent.trans houter.symm, hmode, ⟨1, 2⟩, ?_, by decide⟩
    simp [htrail]
  · rw [Bool.eq_false_iff]
    intro hretraces
    obtain ⟨a', ha', -, -, span, hspan, -, hle⟩ := (hordered.2.2 0 4).mp hretraces
    obtain rfl := Option.some.inj (ha.symm.trans ha')
    rw [htrail] at hspan
    obtain rfl : span = ⟨1, 2⟩ := by simpa using hspan
    exact absurd hle (by decide)

/-! ### Where a match is found behind

With `\G(?:c\Kn|(?<=\Kcn)!)` the `n` of `cn` is found when the search begins at the `c`, and the
`!` behind `cn` when it begins at the `!`, as a match that starts at the `c`.  A string opened by
the first `c` of `ccn!` looks for it from the second `c` to the `n`, and from the `!` back to the
second `c`, where it is taken back.  Of these two stretches the first covers the place behind the
second `c`, but the second does not reach up to it, and halving goes on behind both.  So another
string opens at the second `c`; that one never looks for anything from where the `!` stands. -/

namespace Overlooked

def mark : ModeDecl := ModeDecl.opening (.literal "n")

def string : ModeDecl :=
  { ModeDecl.opening (.literal "c") with
    scope := some .string, ending := .never,
    illegal := some (.regex ⟨"\\G(?:c\\Kn|(?<=\\Kcn)!)", some '$', [], none⟩), contains := [0] }

def builder : Builder := { Builder.start .native with modes := #[some mark, some string] }

def language : LanguageDecl := ⟨"toy", [], none, [1], none⟩

end Overlooked

theorem exists_position_missed :
    ∃ g, Overlooked.builder.finish Overlooked.language = .ok g ∧
      ∃ ms t a, Ran (Scan.task g (Source.ofString "ccn!") ⟨false⟩) (State.start g) ms t ∧
        t.trails = some a ∧ (∃ span ∈ a.trail, span.stop < span.start) ∧
        a.parent = serialOf t.regions ∧ a.mode = 1 ∧ a.trail.Covers 2 ∧
        t.retraces 1 2 = false := by
  have hmissed : (Overlooked.builder.finish Overlooked.language).toOption.map (fun g =>
      let t := runFor (Scan.task g (Source.ofString "ccn!") ⟨false⟩) 3 (State.start g)
      (t.trails.map (fun a => (a.parent, a.mode, a.trail)), serialOf t.regions, t.retraces 1 2)) =
        some (some (0, 1, #[⟨1, 2⟩, ⟨3, 1⟩]), 0, false) := by
    decide +kernel
  cases hg : Overlooked.builder.finish Overlooked.language with
  | error e =>
    rw [hg] at hmissed
    cases hmissed
  | ok g =>
    rw [hg] at hmissed
    have hlast := Option.some.inj hmissed
    simp only [Prod.mk.injEq] at hlast
    obtain ⟨htrails', hserial, hretraces⟩ := hlast
    obtain ⟨ms, t, hran, hregions, htrails⟩ :=
      exists_ran_trails (Scan.task g (Source.ofString "ccn!") ⟨false⟩) 3 (State.start g)
    rw [← htrails] at htrails'
    rw [← hregions] at hserial
    rw [State.retraces, ← htrails, ← hregions] at hretraces
    obtain ⟨a, ha, hlast⟩ := Option.map_eq_some_iff.mp htrails'
    simp only [Prod.mk.injEq] at hlast
    obtain ⟨hparent, hmode, htrail⟩ := hlast
    refine ⟨g, rfl, ms, t, a, hran, ha, ⟨⟨3, 1⟩, ?_, by decide⟩, hparent.trans hserial.symm, hmode,
      ⟨⟨1, 2⟩, ?_, by decide⟩, hretraces⟩
    · simp [htrail]
    · simp [htrail]

end Highlighting.Scan
