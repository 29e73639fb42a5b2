/-
  Highlighting/Proofs/Scan/Cache.lean
  ===================================
  **The search cache and the early exit change nothing.**

  Every search result that is kept is what a new search from the same position
  would give (`Fresh`).  Three things could spoil that:

    * a match is barred: then only results for its terminal change, and these
      are forgotten or searched for again;
    * the scan goes back: then a result from further on is not used;
    * a result is kept for a later position: then nothing lies between.

  So the next match is the least among fresh searches (`nextMatch_best`), and
  a scan that reuses searches and stops early is a scan that does neither
  (`highlight_eq_searching_afresh`).

  Stopping early takes less: if no search gives anything in front of the
  position, the next match is the best of what searches give, fresh or not
  (`nextMatch_eq_pick`).
-/
import Highlighting.Proofs.Scan.Core
import Highlighting.Proofs.Grammar

namespace Highlighting.Scan

open Search

variable {task : Task} {barred : List Bar} {modes : List Nat} {pos index : Nat} {cache : Cache}
  {s : State} {f : Found}

/-! ### What is kept -/

/-- All results in the cache have the property. -/
def Cache.All (P : Nat → Searched → Prop) (cache : Cache) : Prop :=
  ∀ i c, cache.search? i = some c → P i c

theorem search?_record (cache : Cache) (i j : Nat) (c : Searched) :
    (cache.record i c).search? j =
      if i = j ∧ i < cache.size then some c else cache.search? j := by
  simp only [Cache.record, Cache.search?, Array.getElem?_setIfInBounds]
  by_cases h : i = j
  · subst h
    by_cases hlt : i < cache.size
    · simp [hlt]
    · simp [hlt]
  · simp [h]

theorem search?_forget (cache : Cache) (i j : Nat) :
    (cache.forget i).search? j = if i = j then none else cache.search? j := by
  simp only [Cache.forget, Cache.search?, Array.getElem?_setIfInBounds]
  by_cases h : i = j
  · subst h
    by_cases hlt : i < cache.size
    · simp [hlt]
    · simp [hlt]
  · simp [h]

theorem lt_size_of_search? {c : Searched} (h : cache.search? index = some c) :
    index < cache.size := by
  rw [Cache.search?, Option.join_eq_some_iff] at h
  exact (Array.getElem?_eq_some_iff.mp h).1

namespace Cache.All

variable {P : Nat → Searched → Prop}

theorem replicate (n : Nat) : All P (Array.replicate n none) := by
  intro i c h
  simp [search?, Array.getElem?_replicate] at h
  split at h <;> simp at h

theorem record (h : All P cache) {c : Searched} (hc : P index c) :
    All P (cache.record index c) := by
  intro i c' h'
  rw [search?_record] at h'
  split at h'
  · next heq =>
    obtain rfl : c = c' := by simpa using h'
    exact heq.1 ▸ hc
  · exact h i c' h'

/-- A search gives a result that is kept and holds, or a new one that is kept from now on. -/
theorem search (h : All P cache) (task : Task) (barred : List Bar) (pos index : Nat)
    (hnew : P index ⟨pos, searchFrom task barred index pos⟩) :
    All P (search task barred pos index cache).2 ∧
      ∃ c, P index c ∧ (Scan.search task barred pos index cache).1 = c.found ∧
        (c.holdsAt pos = true ∨ c = ⟨pos, searchFrom task barred index pos⟩) := by
  rw [Scan.search]
  split
  · next c heq =>
    obtain ⟨hkept, hholds⟩ := Option.filter_eq_some_iff.mp heq
    refine ⟨h, c, ?_, rfl, .inl hholds⟩
    split at hkept
    · exact h index c hkept
    · cases hkept
  · exact ⟨h.record hnew, _, hnew, rfl, .inr rfl⟩

end Cache.All

/-- What a step does to the cache and to the bars: nothing, or it forgets all of a terminal of
which it bars a match, or it searches on behind the match that it bars. -/
theorem cache_handle (task : Task) (s : State) (f : Found) :
    let s' := s.handle task f
    s'.cache = s.cache ∧ s'.barred = s.barred ∨
    (∃ b, s'.barred = b :: s.barred ∧ s'.cache = s.cache.forget b.1) ∨
    ∃ b c span, s'.barred = b :: s.barred ∧ b.2 = f.span.start ∧
      s.cache.search? b.1 = some c ∧ c.since ≤ s.pos ∧ c.found = some span ∧ span.start = b.2 ∧
      s'.cache = s.cache.record b.1 ⟨s.pos, searchFrom task (b :: s.barred) b.1 (b.2 + 1)⟩ := by
  have hcache : (s.leaveTrail f.span).cache = s.cache := by
    rw [State.leaveTrail]
    split <;> rfl
  have hbarred : (s.leaveTrail f.span).barred = s.barred := by
    rw [State.leaveTrail]
    split <;> rfl
  have hpos : (s.leaveTrail f.span).pos = s.pos := by
    rw [State.leaveTrail]
    split <;> rfl
  rw [State.handle]
  -- from here on it does not matter that a stretch was added to a trail
  generalize s.leaveTrail f.span = t at hcache hbarred hpos
  split
  · rw [State.opens]
    split
    · exact .inl ⟨hcache, hbarred⟩
    · split
      · rw [State.skip]
        split
        · next hres =>
          simp only [Option.any_eq_true, Bool.and_eq_true, decide_eq_true_eq, beq_iff_eq] at hres
          obtain ⟨c, hc, hle, span, hspan, hstart⟩ := hres
          rw [hcache] at hc
          rw [hpos] at hle
          exact .inr (.inr ⟨_, c, span, by rw [← hbarred], rfl, hc, hle, hspan, hstart,
            by rw [← hbarred, ← hcache, ← hpos]⟩)
        · exact .inr (.inl ⟨_, by rw [← hbarred], by rw [← hcache]⟩)
      · exact .inl ⟨hcache, hbarred⟩
  · exact .inl ⟨hcache, hbarred⟩
  · rw [State.meetsIllegal]
    split
    · next r outer _ =>
      exact .inr (.inl ⟨(r.entry.opener, r.entry.start), by rw [← hbarred]; rfl,
        by rw [← hcache]; rfl⟩)
    · exact .inl ⟨hcache, hbarred⟩

/-! ### Matches that count -/

/-- The span lies within the text, and counts as a match of the terminal. -/
structure Admitted (task : Task) (barred : List Bar) (index : Nat) (span : Span) : Prop where
  le : span.start ≤ span.stop
  stop_le : span.stop ≤ task.source.size
  counts : ∃ t, task.grammar.terminals[index]? = some t ∧ admits barred index t span = true

namespace Admitted

variable {span : Span}

theorem not_barred (h : Admitted task barred index span) : (index, span.start) ∉ barred := by
  obtain ⟨t, -, hadmits⟩ := h.counts
  simp only [admits, Bool.and_eq_true, Bool.not_eq_true'] at hadmits
  simpa using hadmits.2

/-- Where empty matches do not count, a match is not empty. -/
theorem start_lt (h : Admitted task barred index span)
    (hdeclares : Declares task.grammar.terminals false index) : span.start < span.stop := by
  obtain ⟨t, ht, hadmits⟩ := h.counts
  obtain ⟨t', ht', hempty⟩ := hdeclares
  obtain rfl : t = t' := Option.some.inj (ht.symm.trans ht')
  simp only [admits, hempty, Bool.or_false, Bool.and_eq_true, Bool.not_eq_true'] at hadmits
  simpa [Span.isEmpty] using hadmits.1

/-- A bar for another terminal takes nothing away. -/
theorem cons {b : Bar} (h : Admitted task barred index span) (hne : b.1 ≠ index) :
    Admitted task (b :: barred) index span := by
  obtain ⟨t, ht, hadmits⟩ := h.counts
  refine ⟨h.le, h.stop_le, t, ht, ?_⟩
  have hbar : (index, span.start) ≠ b := fun heq => hne (congrArg Prod.fst heq).symm
  simp only [admits, Bool.and_eq_true, Bool.not_eq_true'] at hadmits ⊢
  exact ⟨hadmits.1, by simpa [hbar] using hadmits.2⟩

end Admitted

/-- All matches in the cache count. -/
abbrev CacheAdmits (task : Task) (barred : List Bar) : Cache → Prop :=
  Cache.All fun index c => ∀ span, c.found = some span → Admitted task barred index span

section Within

variable (hwithin : task.grammar.SearchesWithin task.source)
include hwithin

theorem searchFrom_admitted {span : Span} (h : searchFrom task barred index pos = some span) :
    pos ≤ span.start ∧ Admitted task barred index span := by
  rw [searchFrom] at h
  split at h
  · cases h
  · next t ht =>
    obtain ⟨_, s, -, hs, h1, h2, h3⟩ := exists_of_sift (hwithin t (Array.mem_of_getElem? ht))
      (fun pos hgt => Pattern.find_of_gt hgt t.pattern) h
    obtain ⟨rfl, hadmits⟩ := Option.guard_eq_some_iff.mp hs
    exact ⟨h1, h2, h3, t, ht, hadmits⟩

/-- With one more match barred, no search finds anything that starts earlier. -/
theorem exists_searchFrom_of_cons {b : Bar} {span : Span}
    (h : searchFrom task (b :: barred) index pos = some span) :
    ∃ span', searchFrom task barred index pos = some span' ∧ span'.start ≤ span.start := by
  rw [searchFrom] at h ⊢
  split at h
  · cases h
  · next t ht =>
    have hfewer : ∀ s r, Option.guard (admits (b :: barred) index t) s = some r →
        Option.guard (admits barred index t) s = some r := by
      intro s r hguard
      obtain ⟨rfl, hadmits⟩ := Option.guard_eq_some_iff.mp hguard
      refine Option.guard_eq_some_iff.mpr ⟨rfl, ?_⟩
      simp only [admits, Bool.and_eq_true, Bool.not_eq_true', List.contains_cons,
        Bool.or_eq_false_iff] at hadmits ⊢
      exact ⟨hadmits.1, hadmits.2.2⟩
    have hstart : ∀ s r, Option.guard (admits barred index t) s = some r → r.start = s.start :=
      fun s r hguard => congrArg Span.start (Option.guard_eq_some_iff.mp hguard).1.symm
    exact exists_sift_of_sift (hwithin t (Array.mem_of_getElem? ht))
      (fun pos hgt => Pattern.find_of_gt hgt t.pattern) hfewer hstart h

theorem searches_admitted (pos : Nat) (barred : List Bar) :
    Searches task barred pos (CacheAdmits task barred) fun index span =>
      pos ≤ span.start ∧ Admitted task barred index span := by
  intro index cache hI
  obtain ⟨hI', c, hc, hfound, hholds⟩ := hI.search task barred pos index
    fun span hspan => (searchFrom_admitted hwithin hspan).2
  refine ⟨hI', fun span hspan => ?_⟩
  rw [hfound] at hspan
  rcases hholds with hholds | rfl
  · simp only [Searched.holdsAt, hspan, Option.all_some, Bool.and_eq_true,
      decide_eq_true_eq] at hholds
    exact ⟨hholds.2, hc span hspan⟩
  · exact searchFrom_admitted hwithin hspan

/-- **A match that is found begins ahead and counts** as that of a candidate. -/
theorem next?_admitted (hI : CacheAdmits task s.barred s.cache)
    (hf : (s.next? task).1 = some f) :
    s.pos ≤ f.span.start ∧ ∃ index, (index, f.candidate) ∈ candidates task s.modes ∧
      Admitted task s.barred index f.span := by
  obtain ⟨-, hchosen⟩ := nextMatch_inv (searches_admitted hwithin s.pos s.barred) s.modes hI
  obtain ⟨index, hmem, hpos, hadmitted⟩ := hchosen f hf
  exact ⟨hpos, index, hmem, hadmitted⟩

theorem cacheAdmits_next? (hI : CacheAdmits task s.barred s.cache) :
    CacheAdmits task s.barred (s.next? task).2.cache :=
  (nextMatch_inv (searches_admitted hwithin s.pos s.barred) s.modes hI).1

/-- What is kept goes on to count: when a match is barred, those of the same terminal are not
kept. -/
theorem cacheAdmits_handle (hI : CacheAdmits task s.barred s.cache) (f : Found) :
    CacheAdmits task (s.handle task f).barred (s.handle task f).cache := by
  rcases cache_handle task s f with ⟨hc, hb⟩ | ⟨b, hb, hc⟩ | ⟨b, c, span, hb, -, -, -, -, -, hc⟩
  · rw [hc, hb]
    exact hI
  · rw [hc, hb]
    intro i c hkept span hspan
    rw [search?_forget] at hkept
    split at hkept
    · cases hkept
    · next hne => exact (hI i c hkept span hspan).cons hne
  · rw [hc, hb]
    intro i c' hkept span hspan
    rw [search?_record] at hkept
    split at hkept
    · next heq =>
      obtain rfl : _ = c' := by simpa using hkept
      obtain ⟨rfl, -⟩ := heq
      exact (searchFrom_admitted hwithin hspan).2
    · next hne =>
      have hindex : b.1 ≠ i := by
        rintro rfl
        exact hne ⟨rfl, lt_size_of_search? hkept⟩
      exact (hI i c' hkept span hspan).cons hindex

end Within

/-! ### The best match -/

/-- No search finds anything in front of the position where it begins. -/
def Task.SearchesAhead (task : Task) : Prop :=
  ∀ barred index pos span, searchFrom task barred index pos = some span → pos ≤ span.start

theorem searchesAhead_of_within (hwithin : task.grammar.SearchesWithin task.source) :
    task.SearchesAhead :=
  fun _ _ _ _ h => (searchFrom_admitted hwithin h).1

/-- The earlier result that a search from the position uses, if it uses one. -/
def Cache.kept? (task : Task) (pos : Nat) (cache : Cache) (index : Nat) : Option Searched :=
  (if task.shortcuts.reuseSearches then cache.search? index else none).filter (·.holdsAt pos)

theorem search_of_kept {c : Searched} (h : cache.kept? task pos index = some c) :
    search task barred pos index cache = (c.found, cache) := by
  rw [Cache.kept?] at h
  simp only [search, h]

theorem search_of_not_kept (h : cache.kept? task pos index = none) :
    search task barred pos index cache = (searchFrom task barred index pos,
      cache.record index ⟨pos, searchFrom task barred index pos⟩) := by
  rw [Cache.kept?] at h
  simp only [search, h]

theorem kept?_eq_some {c : Searched} (h : cache.kept? task pos index = some c) :
    cache.search? index = some c ∧ task.shortcuts.reuseSearches = true ∧
      c.holdsAt pos = true := by
  obtain ⟨hkept, hholds⟩ := Option.filter_eq_some_iff.mp h
  split at hkept
  · next hreuse => exact ⟨hkept, hreuse, hholds⟩
  · cases hkept

theorem kept?_congr {cache' : Cache} (h : cache'.search? index = cache.search? index) :
    cache'.kept? task pos index = cache.kept? task pos index := by
  rw [Cache.kept?, h, Cache.kept?]

/-- **What a search gives at a position, it goes on to give there**, whatever has been searched
for in between. -/
theorem search_search (i j : Nat) :
    (search task barred pos i (search task barred pos j cache).2).1 =
      (search task barred pos i cache).1 := by
  cases hkept : cache.kept? task pos j with
  | some c => rw [search_of_kept hkept]
  | none =>
    rw [search_of_not_kept hkept]
    by_cases hrecorded : j = i ∧ j < cache.size
    · obtain ⟨rfl, hlt⟩ := hrecorded
      rw [search_of_not_kept hkept]
      cases hnew : (cache.record j ⟨pos, searchFrom task barred j pos⟩).kept? task pos j with
      | some c =>
        have hc := (kept?_eq_some hnew).1
        rw [search?_record, if_pos ⟨rfl, hlt⟩] at hc
        rw [search_of_kept hnew, ← Option.some.inj hc]
      | none => rw [search_of_not_kept hnew]
    · have hsame : (cache.record j ⟨pos, searchFrom task barred j pos⟩).search? i =
          cache.search? i := by rw [search?_record, if_neg hrecorded]
      cases hold : cache.kept? task pos i with
      | some c => rw [search_of_kept hold, search_of_kept ((kept?_congr hsame).trans hold)]
      | none => rw [search_of_not_kept hold, search_of_not_kept ((kept?_congr hsame).trans hold)]

theorem foldl_better_of_startsAt {find : Nat → Option Span} {best : Option Found}
    (hfind : ∀ index span, find index = some span → pos ≤ span.start)
    (h : startsAt best pos = true) (cs : List (Nat × Candidate)) :
    cs.foldl (fun best c => better best c.2 (find c.1)) best = best := by
  induction cs with
  | nil => rfl
  | cons c cs ih =>
    have hkeep : better best c.2 (find c.1) = best := by
      cases hs : find c.1 with
      | none => rfl
      | some s =>
        have hge := hfind c.1 s hs
        cases best with
        | none => cases h
        | some b =>
          have hb : b.span.start = pos := by simpa [startsAt] using h
          -- no search finds anything before the position, where the best match starts
          rw [better, if_neg]
          simp only [improves, decide_eq_true_eq]
          omega
    rw [List.foldl_cons, hkeep]
    exact ih

section Ahead

variable (hahead : task.SearchesAhead)
include hahead

theorem search_ge {span : Span} (h : (search task barred pos index cache).1 = some span) :
    pos ≤ span.start := by
  cases hkept : cache.kept? task pos index with
  | some c =>
    obtain ⟨-, -, hholds⟩ := kept?_eq_some hkept
    rw [search_of_kept hkept] at h
    simp only [Searched.holdsAt, show c.found = some span from h, Option.all_some,
      Bool.and_eq_true, decide_eq_true_eq] at hholds
    exact hholds.2
  | none =>
    rw [search_of_not_kept hkept] at h
    exact hahead barred index pos span h

theorem considerAll_eq_foldl (barred : List Bar) (pos : Nat) (early : Bool)
    (cs : List (Nat × Candidate)) (choice : Choice) :
    let result := considerAll task barred pos early cs choice
    result.best = cs.foldl
        (fun best c => better best c.2 (search task barred pos c.1 choice.cache).1) choice.best ∧
      (∀ index, (search task barred pos index result.cache).1 =
        (search task barred pos index choice.cache).1) ∧
      (result.settled = true → choice.settled = true ∨ startsAt result.best pos = true) := by
  induction cs generalizing choice with
  | nil => exact ⟨rfl, fun _ => rfl, .inl⟩
  | cons c cs ih =>
    rw [considerAll]
    split
    · next hsettled =>
      have hstarts : startsAt choice.best pos = true := by
        rw [Bool.and_eq_true] at hsettled
        exact hsettled.2
      have hfind : ∀ index span, (search task barred pos index choice.cache).1 = some span →
          pos ≤ span.start := fun _ _ => search_ge hahead
      exact ⟨(foldl_better_of_startsAt hfind hstarts _).symm, fun _ => rfl, fun _ => .inr hstarts⟩
    · obtain ⟨hbest, hsame, hsettled⟩ := ih { choice with
        best := better choice.best c.2 (search task barred pos c.1 choice.cache).1
        cache := (search task barred pos c.1 choice.cache).2 }
      refine ⟨?_, fun index => (hsame index).trans (search_search index c.1), hsettled⟩
      rw [hbest, List.foldl_cons]
      simp only [search_search]

/-- **The next match is the best of what searches give**, however early the choice is settled; and
choosing changes nothing about what they give. -/
theorem nextMatch_eq_pick (modes : List Nat) (cache : Cache) :
    (nextMatch task barred modes pos cache).best =
        pick (fun index => (search task barred pos index cache).1) (candidates task modes) ∧
      ∀ index, (search task barred pos index (nextMatch task barred modes pos cache).cache).1 =
        (search task barred pos index cache).1 := by
  obtain ⟨hbest, hsame, hsettled⟩ := considerAll_eq_foldl hahead barred pos
    task.shortcuts.stopEarly (openings task.grammar modes) ⟨none, cache, false⟩
  rw [nextMatch, pick, candidates, List.foldl_append, ← hbest]
  split
  · next hearly =>
    have hstarts := (hsettled hearly).resolve_left Bool.false_ne_true
    have hfind : ∀ index span, (search task barred pos index cache).1 = some span →
        pos ≤ span.start := fun _ _ => search_ge hahead
    exact ⟨(foldl_better_of_startsAt hfind hstarts _).symm, hsame⟩
  · obtain ⟨hbest', hsame', -⟩ := considerAll_eq_foldl hahead barred pos false
      (limits task modes) (considerAll task barred pos task.shortcuts.stopEarly
        (openings task.grammar modes) ⟨none, cache, false⟩)
    refine ⟨?_, fun index => (hsame' index).trans (hsame index)⟩
    rw [hbest']
    simp only [hsame]

end Ahead

/-! ### Fresh searches -/

def admittedEnd? (task : Task) (barred : List Bar) (index pos : Nat) : Option Nat :=
  match task.grammar.terminals[index]? with
  | none => none
  | some t => siftedEnd? (t.pattern.find task.source ·) (Option.guard (admits barred index t)) pos

theorem admittedEnd?_eq_some_iff {stop : Nat} :
    admittedEnd? task barred index pos = some stop ↔
      ∃ t, task.grammar.terminals[index]? = some t ∧
        endAt? (t.pattern.find task.source ·) pos = some stop ∧
        admits barred index t ⟨pos, stop⟩ = true := by
  rw [admittedEnd?]
  cases ht : task.grammar.terminals[index]? with
  | none => simp
  | some t =>
    simp only [siftedEnd?, Option.bind_eq_some_iff, Option.map_eq_some_iff,
      Option.guard_eq_some_iff, Option.some.injEq, exists_eq_left']
    constructor
    · rintro ⟨stop', hend, s, ⟨rfl, hadm⟩, rfl⟩
      exact ⟨hend, hadm⟩
    · rintro ⟨hend, hadm⟩
      exact ⟨stop, hend, _, ⟨rfl, hadm⟩, rfl⟩

/-- One more bar takes one match away. -/
theorem admittedEnd?_cons (b : Bar) :
    admittedEnd? task (b :: barred) index pos =
      if b = (index, pos) then none else admittedEnd? task barred index pos := by
  apply Option.ext
  intro stop
  rw [admittedEnd?_eq_some_iff]
  split
  · next heq =>
    subst heq
    simp [admits]
  · next hne =>
    rw [admittedEnd?_eq_some_iff]
    simp [admits, Ne.symm hne]

section Steady

variable (hsteady : task.grammar.SearchesSteadily task.source)
include hsteady

/-- **A search finds the first position where a match starts that counts.** -/
theorem searchFrom_eq_ofEnds (barred : List Bar) (index pos : Nat) :
    searchFrom task barred index pos =
      ofEnds task.source.size (admittedEnd? task barred index) pos := by
  rw [searchFrom]
  cases ht : task.grammar.terminals[index]? with
  | none =>
    rw [eq_comm, ofEnds_eq_none_iff]
    intro p _ _
    simp [admittedEnd?, ht]
  | some t =>
    have hstart : ∀ s r, Option.guard (admits barred index t) s = some r → r.start = s.start := by
      intro s r h
      rw [(Option.guard_eq_some_iff.mp h).1]
    refine (sift_eq_ofEnds (hsteady t (Array.mem_of_getElem? ht)) hstart (Nat.le_refl _)).trans ?_
    exact ofEnds_congr fun p _ _ => by simp only [admittedEnd?, ht]

theorem searchFrom_ge {span : Span} (h : searchFrom task barred index pos = some span) :
    pos ≤ span.start := by
  rw [searchFrom_eq_ofEnds hsteady, ofEnds_eq_some_iff] at h
  exact h.1

theorem searchesAhead_of_steady : task.SearchesAhead :=
  fun _ _ _ _ h => searchFrom_ge hsteady h

/-- A bar for another terminal, or for a match further back, changes nothing. -/
theorem searchFrom_cons {b : Bar} (h : b.1 ≠ index ∨ b.2 < pos) :
    searchFrom task (b :: barred) index pos = searchFrom task barred index pos := by
  rw [searchFrom_eq_ofEnds hsteady, searchFrom_eq_ofEnds hsteady]
  refine ofEnds_congr fun p hp _ => ?_
  rw [admittedEnd?_cons, if_neg]
  rintro rfl
  simp at h
  omega

/-- What a search found is found by one that begins later, up to the match. -/
theorem searchFrom_resume {since : Nat} (hle : since ≤ pos)
    (h : ∀ span, searchFrom task barred index since = some span → pos ≤ span.start) :
    searchFrom task barred index since = searchFrom task barred index pos := by
  rw [searchFrom_eq_ofEnds hsteady] at h
  rw [searchFrom_eq_ofEnds hsteady, searchFrom_eq_ofEnds hsteady]
  refine ofEnds_resume hle fun p h1 h2 => ?_
  cases hfound : ofEnds task.source.size (admittedEnd? task barred index) since with
  | some span =>
    obtain ⟨-, -, -, hfirst⟩ := ofEnds_eq_some_iff.mp hfound
    exact hfirst p h1 (Nat.lt_of_lt_of_le h2 (h span hfound))
  | none =>
    rcases Nat.lt_or_ge task.source.size p with hgt | hle'
    · -- behind the end of the text no pattern finds anything
      cases hend : admittedEnd? task barred index p with
      | none => rfl
      | some stop =>
        obtain ⟨t, -, hend', -⟩ := admittedEnd?_eq_some_iff.mp hend
        simp [endAt?, Pattern.find_of_gt hgt] at hend'
    · exact ofEnds_eq_none_iff.mp hfound p h1 hle'

/-- Behind a match that is barred, the search can go on. -/
theorem searchFrom_resume_cons {span : Span} {since : Nat}
    (hfound : searchFrom task barred index since = some span) (hsince : since ≤ pos)
    (hpos : pos ≤ span.start) :
    searchFrom task ((index, span.start) :: barred) index pos =
      searchFrom task ((index, span.start) :: barred) index (span.start + 1) := by
  rw [searchFrom_eq_ofEnds hsteady, ofEnds_eq_some_iff] at hfound
  obtain ⟨-, -, -, hfirst⟩ := hfound
  rw [searchFrom_eq_ofEnds hsteady, searchFrom_eq_ofEnds hsteady]
  refine ofEnds_resume (by omega) fun p h1 h2 => ?_
  -- at the match itself it is the new bar that counts, and before it nothing was found
  rw [admittedEnd?_cons]
  split
  · rfl
  · next hne =>
    refine hfirst p (by omega) (Nat.lt_of_le_of_ne (by omega) ?_)
    rintro rfl
    exact hne rfl

/-- Every search result that is kept is what a new search would give. -/
abbrev Fresh (task : Task) (barred : List Bar) : Cache → Prop :=
  Cache.All fun index c => c.found = searchFrom task barred index c.since

/-- **A search that may reuse a result gives what a new one gives.** -/
theorem search_fresh (hI : Fresh task barred cache) (pos index : Nat) :
    Fresh task barred (search task barred pos index cache).2 ∧
      (search task barred pos index cache).1 = searchFrom task barred index pos := by
  obtain ⟨hI', c, hc, hfound, hholds⟩ := hI.search task barred pos index rfl
  refine ⟨hI', hfound.trans ?_⟩
  rcases hholds with hholds | rfl
  · simp only [Searched.holdsAt, Bool.and_eq_true, decide_eq_true_eq, Option.all_eq_true] at hholds
    rw [hc]
    exact searchFrom_resume hsteady hholds.1 fun span hspan => hholds.2 span (hc.trans hspan)
  · rfl

/-! ### The best of fresh searches -/

/-- **The next match is the best of fresh searches**, whatever is kept and however early the
choice is settled. -/
theorem nextMatch_best (hI : Fresh task barred cache) (modes : List Nat) (pos : Nat) :
    Fresh task barred (nextMatch task barred modes pos cache).cache ∧
      (nextMatch task barred modes pos cache).best =
        pick (searchFrom task barred · pos) (candidates task modes) := by
  constructor
  · exact (nextMatch_inv (I := Fresh task barred) (Q := fun _ _ => True)
      (fun index _ hI => ⟨(search_fresh hsteady hI pos index).1, fun _ _ => trivial⟩) modes hI).1
  · rw [(nextMatch_eq_pick (searchesAhead_of_steady hsteady) modes cache).1]
    exact pick_congr fun c _ => (search_fresh hsteady hI pos c.1).2

theorem next?_best (hI : Fresh task s.barred s.cache) :
    (s.next? task).1 = pick (searchFrom task s.barred · s.pos) (candidates task s.modes) :=
  (nextMatch_best hsteady hI s.modes s.pos).2

theorem fresh_next? (hI : Fresh task s.barred s.cache) :
    Fresh task s.barred (s.next? task).2.cache :=
  (nextMatch_best hsteady hI s.modes s.pos).1

theorem next?_ge (hI : Fresh task s.barred s.cache) (hf : (s.next? task).1 = some f) :
    s.pos ≤ f.span.start := by
  rw [next?_best hsteady hI] at hf
  obtain ⟨index, -, hfind⟩ := mem_of_isLeast (pick_isLeast hf)
  exact searchFrom_ge hsteady hfind

/-! ### Every reachable state -/

/-- **A step keeps search results fresh**, whatever it bars. -/
theorem fresh_handle (hI : Fresh task s.barred s.cache) (hle : s.pos ≤ f.span.start) :
    Fresh task (s.handle task f).barred (s.handle task f).cache := by
  rcases cache_handle task s f with ⟨hc, hb⟩ | ⟨b, hb, hc⟩ | ⟨b, c, span, hb, hstart, hkept,
    hsince, hfound, hspan, hc⟩
  · rw [hc, hb]
    exact hI
  · rw [hc, hb]
    intro i c hkept
    rw [search?_forget] at hkept
    split at hkept
    · cases hkept
    · next hne =>
      rw [hI i c hkept, searchFrom_cons hsteady (.inl hne)]
  · rw [hc, hb]
    intro i c' hkept'
    rw [search?_record] at hkept'
    split at hkept'
    · next heq =>
      obtain rfl : _ = c' := by simpa using hkept'
      obtain ⟨rfl, -⟩ := heq
      obtain ⟨index, start⟩ := b
      obtain rfl : span.start = start := hspan
      exact (searchFrom_resume_cons hsteady ((hI index c hkept).symm.trans hfound) hsince
        (le_of_le_of_eq hle hstart.symm)).symm
    · next hne =>
      have hindex : b.1 ≠ i := by
        rintro rfl
        exact hne ⟨rfl, lt_size_of_search? hkept⟩
      rw [hI i c' hkept', searchFrom_cons hsteady (.inl hindex)]

/-- **At every state that a scan gets to, search results are fresh.** -/
theorem fresh_runFor (hI : Fresh task s.barred s.cache) (n : Nat) :
    Fresh task (runFor task n s).barred (runFor task n s).cache :=
  runFor_inv (P := fun s => Fresh task s.barred s.cache) (fun _ hI => fresh_next? hsteady hI)
    (fun s _ hI hf => fresh_handle (s := (s.next? task).2) hsteady (fresh_next? hsteady hI)
      (next?_ge (s := s) hsteady hI hf)) n hI

end Steady

/-! ### The same run without a cache -/

def State.uncached (s : State) : State := { s with cache := #[] }

variable {t : State} {task' : Task}

/-- The tasks agree but for how matches are searched for. -/
structure SameButSearch (task task' : Task) : Prop where
  grammar : task.grammar = task'.grammar
  source : task.source = task'.source
  options : task.options = task'.options
  skipRetraced : task.shortcuts.skipRetraced = task'.shortcuts.skipRetraced

theorem SameButSearch.refl (task : Task) : SameButSearch task task := ⟨rfl, rfl, rfl, rfl⟩

/-- What a step does apart from the cache does not depend on it. -/
theorem uncached_handle (htask : SameButSearch task task') (s : State) (f : Found) :
    (s.handle task f).uncached = (s.uncached.handle task' f).uncached := by
  obtain ⟨grammar, source, options, shortcuts⟩ := task
  obtain ⟨grammar', source', options', shortcuts'⟩ := task'
  obtain ⟨rfl, rfl, rfl, hskip⟩ := htask
  have htrail : s.uncached.leaveTrail f.span = (s.leaveTrail f.span).uncached := by
    obtain ⟨pos, draft, cache, barred, trails, regions, nextSerial⟩ := s
    cases regions <;> rfl
  simp only [State.handle, htrail]
  generalize s.leaveTrail f.span = t
  split
  · next mode _ =>
    simp only [State.opens]
    split
    · rfl
    · have hretraces : t.uncached.retraces mode f.span.stop = t.retraces mode f.span.stop := rfl
      rw [hretraces, show shortcuts.skipRetraced = shortcuts'.skipRetraced from hskip]
      split <;> rfl
  · rfl
  · obtain ⟨pos, draft, cache, barred, trails, regions, nextSerial⟩ := t
    cases regions <;> rfl

theorem next?_eq_of_uncached_eq (htask : SameButSearch task task')
    (hsteady : task.grammar.SearchesSteadily task.source) (hs : Fresh task s.barred s.cache)
    (ht : Fresh task' t.barred t.cache) (h : s.uncached = t.uncached) :
    (s.next? task).1 = (t.next? task').1 := by
  have hsteady' : task'.grammar.SearchesSteadily task'.source :=
    htask.grammar ▸ htask.source ▸ hsteady
  rw [next?_best hsteady hs, next?_best hsteady' ht]
  obtain ⟨grammar, source, options, shortcuts⟩ := task
  obtain ⟨grammar', source', options', shortcuts'⟩ := task'
  obtain ⟨rfl, rfl, rfl, -⟩ := htask
  have hbarred : s.barred = t.barred := congrArg (·.barred) h
  have hpos : s.pos = t.pos := congrArg (·.pos) h
  have hregions : s.regions = t.regions := congrArg (·.regions) h
  rw [State.modes, State.modes, hbarred, hpos, hregions]
  rfl

/-- **Runs that differ in how they search stay together**, apart from what they keep. -/
theorem uncached_runFor (htask : SameButSearch task task')
    (hsteady : task.grammar.SearchesSteadily task.source) (hs : Fresh task s.barred s.cache)
    (ht : Fresh task' t.barred t.cache) (h : s.uncached = t.uncached) (n : Nat) :
    (runFor task n s).uncached = (runFor task' n t).uncached := by
  have hsteady' : task'.grammar.SearchesSteadily task'.source :=
    htask.grammar ▸ htask.source ▸ hsteady
  induction n generalizing s t with
  | zero => exact h
  | succ n ih =>
    have hnext := next?_eq_of_uncached_eq htask hsteady hs ht h
    have hs' := fresh_next? hsteady hs
    have ht' := fresh_next? hsteady' ht
    cases hf : (s.next? task).1 with
    | none =>
      rw [runFor_stop hf, runFor_stop (hnext ▸ hf)]
      exact h
    | some f =>
      rw [runFor_step hf, runFor_step (hnext ▸ hf)]
      refine ih (fresh_handle hsteady hs' (next?_ge (s := s) hsteady hs hf))
        (fresh_handle hsteady' ht' (next?_ge (s := t) hsteady' ht (hnext ▸ hf))) ?_
      rw [uncached_handle htask, uncached_handle (.refl task') (t.next? task').2]
      exact congrArg (fun u => (u.handle task' f).uncached) h

theorem result_eq_of_uncached_eq (htask : SameButSearch task task')
    (h : s.uncached = t.uncached) : result task s = result task' t := by
  obtain ⟨grammar, source, options, shortcuts⟩ := task
  obtain ⟨grammar', source', options', shortcuts'⟩ := task'
  obtain ⟨rfl, rfl, rfl, -⟩ := htask
  have hresult := congrArg (result ⟨grammar, source, options, shortcuts⟩) h
  exact hresult

/-- The task with every search made afresh and no choice settled early. -/
def Task.searchingAfresh (task : Task) : Task :=
  { task with
    shortcuts := { task.shortcuts with reuseSearches := false, stopEarly := false } }

theorem sameButSearch_searchingAfresh (task : Task) :
    SameButSearch task task.searchingAfresh := ⟨rfl, rfl, rfl, rfl⟩

/-- **Neither the search cache nor the early exit can be seen.**  At every state that a scan
gets to, each result that is kept is what a new search would give, and the next match is the
least among new searches for the candidates; so the text is highlighted as it would be with
every search made afresh. -/
theorem highlight_eq_searching_afresh (g : Grammar) (text : String) (options : Options)
    (hsteady : g.SearchesSteadily (Source.ofString text)) :
    let task := Scan.task g (Source.ofString text) options
    (∀ n, let s := runFor task n (State.start g)
      (∀ index c, s.cache.search? index = some c →
        c.found = searchFrom task s.barred index c.since) ∧
      match (s.next? task).1 with
      | none => ∀ c ∈ candidates task s.modes, searchFrom task s.barred c.1 s.pos = none
      | some f => IsLeast (searchFrom task s.barred · s.pos) (candidates task s.modes) f) ∧
    g.highlight text options =
      result task.searchingAfresh (run task.searchingAfresh (State.start g)) := by
  intro task
  have hstart : Fresh task (State.start g).barred (State.start g).cache :=
    Cache.All.replicate g.terminals.size
  constructor
  · intro n s
    have hfresh : Fresh task s.barred s.cache := fresh_runFor hsteady hstart n
    refine ⟨hfresh, ?_⟩
    have hbest := next?_best hsteady hfresh
    split
    · next heq => exact pick_eq_none_iff.mp (hbest.symm.trans heq)
    · next f heq => exact pick_isLeast (hbest.symm.trans heq)
  · have hsame := sameButSearch_searchingAfresh task
    exact result_eq_of_uncached_eq hsame
      (uncached_runFor hsame hsteady hstart (Cache.All.replicate g.terminals.size) rfl _)

theorem highlight_quotes_eq_searching_afresh :
    let task := Scan.task Quotes.grammar (Source.ofString "'a\n'b'") ⟨false⟩
    Quotes.grammar.SearchesSteadily (Source.ofString "'a\n'b'") ∧
      Quotes.grammar.highlight "'a\n'b'" ⟨false⟩ =
        result task.searchingAfresh (run task.searchingAfresh (State.start Quotes.grammar)) := by
  intro task
  -- the guards of the grammar are checked on each match
  have hsteady := Builder.searchesSteadily_of_emulated Quotes.finish_builder rfl
    (Source.ofString "'a\n'b'")
  exact ⟨hsteady, (highlight_eq_searching_afresh Quotes.grammar "'a\n'b'" ⟨false⟩ hsteady).2⟩

end Highlighting.Scan
