/-
  Highlighting/Proofs/Scan/Lenient.lean
  =====================================
  **Ignoring what is illegal is not declaring it.**

  Where nothing illegal is ever looked for, no region is taken back, so that no
  match is barred and no trail is kept (`State.Untroubled`).

  A scan that ignores what is illegal and one of the grammar without it go in
  step (`State.Follows`): at each turn the same match comes next, and both show
  the same.  Their terminals have different numbers, and with these the search
  caches and the openers of regions; nothing else differs.
-/
import Highlighting.Proofs.Grammar.Lenient
import Highlighting.Proofs.Scan.Standing
import Highlighting.Proofs.Scan.Termination

namespace Highlighting.Scan

variable {task task' : Task} {s s' t : State} {f : Found} {m : Move} {ms : List Move}
  {numbers : Array Nat} {cache cache' : Cache} {pos n i : Nat}

/-! ### Scans in which nothing is illegal -/

/-- Nothing illegal is looked for, whatever is open. -/
def Task.IsLenient (task : Task) : Prop :=
  ∀ modes index, (index, Candidate.illegal) ∉ candidates task modes

/-- Nothing was barred, and no region was abandoned; nothing illegal was passed over. -/
structure State.Untroubled (s : State) : Prop where
  barred : s.barred = []
  trails : s.trails = none
  legal : s.draft.illegal = false

theorem untroubled_start (g : Grammar) : (State.start g).Untroubled := ⟨rfl, rfl, rfl⟩

theorem Task.IsLenient.not_illegal (h : task.IsLenient) (hf : (s.next? task).1 = some f) :
    f.candidate ≠ .illegal := by
  intro hillegal
  obtain ⟨index, hmem, -⟩ := (nextMatch_inv (I := fun _ => True) (Q := fun _ _ => True)
    (fun _ _ _ => ⟨trivial, fun _ _ => trivial⟩) s.modes trivial).2 f hf
  rw [hillegal] at hmem
  exact h s.modes index hmem

theorem trails_noted (m : Move) : m.noted.trails = m.state.trails := by
  obtain ⟨regions, heq, -⟩ := leaveTrail_eq m.found.span m.state
  rw [Move.noted, heq]

theorem retraces_of_trails (h : s.trails = none) (index pos : Nat) :
    s.retraces index pos = false := by
  rw [State.retraces, h]

/-- **Without illegal matches a move takes nothing back and skips nothing.** -/
theorem untroubled_next (task : Task) (hs : m.state.Untroubled)
    (hf : m.found.candidate ≠ .illegal) :
    m.takesBack = false ∧ m.skips task = false ∧ (m.next task).Untroubled := by
  have hback : m.takesBack = false := by simp [Move.takesBack, State.takesBack, hf]
  have hskips : m.skips task = false := by
    rw [Move.skips, State.skips]
    split
    · rw [retraces_of_trails hs.trails, Bool.and_false]
    · rfl
  have hbarred := m.barred_noted.trans hs.barred
  have htrails := (trails_noted m).trans hs.trails
  have hlegal : ∀ {e : Draft}, m.state.draft.Extends e → e.illegal = false :=
    fun hext => hext.illegal.trans hs.legal
  refine ⟨hback, hskips, ?_⟩
  have hdeed := m.deed task
  generalize m.next task = u at hdeed
  cases hdeed with
  | whole hf' hend =>
    refine ⟨hbarred, htrails, hlegal ?_⟩
    rw [draft_takeWhole, Move.draft_noted]
    exact ((Draft.congruent_extends _).addWhole ⟨.refl _, rfl⟩).1
  | skipped hf' hend hskipped => cases hskips.symm.trans hskipped
  | opened hf' hend =>
    refine ⟨hbarred, htrails, hlegal ?_⟩
    rw [draft_openRegion, Move.draft_noted]
    exact ((Draft.congruent_extends _).openRegion ⟨.refl _, rfl⟩).1
  | closed hf' =>
    refine ⟨hbarred, htrails, hlegal ?_⟩
    rw [draft_closes, Move.draft_noted]
    exact ((Draft.congruent_extends _).closeRegions _ ⟨.refl _, rfl⟩).1
  | tookBack hf' | passed hf' => exact absurd hf' hf

/-- **Nothing is ever taken back**, barred or skipped where nothing illegal is looked for. -/
theorem Ran.untroubled (h : Ran task s ms t) (htask : task.IsLenient) (hs : s.Untroubled) :
    t.Untroubled ∧ ∀ m ∈ ms, m.takesBack = false ∧ m.skips task = false := by
  induction h with
  | refl => exact ⟨hs, by simp⟩
  | @move ms t f _ hf ih =>
    have hstate : (t.move task f).state.Untroubled := ⟨ih.1.barred, ih.1.trails, ih.1.legal⟩
    obtain ⟨hback, hskips, hnext⟩ := untroubled_next task hstate (htask.not_illegal hf)
    refine ⟨hnext, fun m hm => ?_⟩
    rcases List.mem_cons.mp hm with rfl | hm
    · exact ⟨hback, hskips⟩
    · exact ih.2 m hm

/-! ### The same candidates -/

/-- The second task is the first one without what is illegal, which the first one ignores. -/
structure Task.Softens (numbers : Array Nat) (task task' : Task) : Prop where
  grammar : task.grammar.Softened numbers task'.grammar
  inOrder : task.grammar.InOrder
  source : task'.source = task.source
  shortcuts : task'.shortcuts = task.shortcuts
  ignores : task.options.ignoreIllegals = true

/-- The same candidate, with its terminal numbered differently. -/
def SameCandidate (numbers : Array Nat) (c c' : Nat × Candidate) : Prop :=
  numbers[c'.1]? = some c.1 ∧ c'.2 = c.2

namespace Task.Softens

variable (h : Task.Softens numbers task task')
include h

theorem contentOf (modes : List Nat) :
    Scan.contentOf task'.grammar modes = (Scan.contentOf task.grammar modes).lenient := by
  cases modes with
  | nil => exact h.grammar.root
  | cons m outer => exact (h.grammar.mode m).content

theorem isLenient : task.IsLenient := by
  intro modes index hmem
  cases (mem_candidates_illegal.mp hmem).1.symm.trans h.ignores

theorem isLenient' : task'.IsLenient := by
  intro modes index hmem
  have hillegal := (mem_candidates_illegal.mp hmem).2
  rw [h.contentOf] at hillegal
  cases hillegal

theorem openings (modes : List Nat) :
    List.Forall₂ (SameCandidate numbers) (Scan.openings task.grammar modes)
      (Scan.openings task'.grammar modes) := by
  simp only [Scan.openings, h.contentOf, Content.lenient]
  rw [List.forall₂_map_left_iff, List.forall₂_map_right_iff, List.forall₂_same]
  intro m hm
  have hlt := (contentOf_inOrder h.inOrder modes).contains m hm
  exact ⟨h.grammar.opener m hlt, rfl⟩

theorem closer (modes : List Nat) (depth : Nat) :
    List.Forall₂ (SameCandidate numbers)
      ((closer? task.grammar modes depth).toList.map fun c => (c.1, .closes c.2))
      ((closer? task'.grammar modes depth).toList.map fun c => (c.1, .closes c.2)) := by
  induction modes generalizing depth with
  | nil => exact .nil
  | cons m outer ih =>
    have hending := (h.grammar.mode m).ending
    simp only [closer?]
    generalize (task.grammar.mode m).ending = e at hending
    generalize (task'.grammar.mode m).ending = e' at hending
    cases hending with
    | immediate | never => exact .nil
    | withParent => exact ih (depth + 1)
    | pattern hn => exact .cons ⟨hn, rfl⟩ .nil

theorem limits (modes : List Nat) :
    List.Forall₂ (SameCandidate numbers) (Scan.limits task modes) (Scan.limits task' modes) := by
  have hnone : (Scan.contentOf task'.grammar modes).illegal = none := by
    rw [h.contentOf]
    rfl
  have hnothing : (if task'.options.ignoreIllegals then [] else
      (Scan.contentOf task'.grammar modes).illegal.toList.map fun t => (t, Candidate.illegal)) =
        [] := by
    rw [hnone]
    split <;> rfl
  rw [Scan.limits, Scan.limits, h.ignores, if_pos rfl, hnothing, List.append_nil, List.append_nil]
  exact h.closer modes 0

end Task.Softens

/-! ### The same searches -/

/-- The caches keep the same for the same terminals. -/
structure CachesAgree (numbers : Array Nat) (task task' : Task) (cache cache' : Cache) : Prop where
  size : cache.size = task.grammar.terminals.size
  size' : cache'.size = task'.grammar.terminals.size
  same : ∀ n i : Nat, numbers[n]? = some i → cache'.search? n = cache.search? i

theorem CachesAgree.record (h : CachesAgree numbers task task' cache cache')
    (hnumbers : Renumbers numbers task.grammar.terminals task'.grammar.terminals)
    (hn : numbers[n]? = some i) (c : Searched) :
    CachesAgree numbers task task' (cache.record i c) (cache'.record n c) := by
  refine ⟨?_, ?_, fun m j hm => ?_⟩
  · rw [Cache.record, Array.size_setIfInBounds, h.size]
  · rw [Cache.record, Array.size_setIfInBounds, h.size']
  · obtain ⟨hi, hn'⟩ := hnumbers.lt_size hn
    rw [search?_record, search?_record, h.size, h.size', h.same m j hm]
    simp only [hnumbers.eq_iff hn hm, hi, hn', and_true]

namespace Task.Softens

variable (h : Task.Softens numbers task task')
include h

theorem searchFrom (hn : numbers[n]? = some i) (pos : Nat) :
    Scan.searchFrom task' [] n pos = Scan.searchFrom task [] i pos := by
  have hadmits : admits [] n = admits [] i := rfl
  rw [Scan.searchFrom, Scan.searchFrom, ← h.grammar.terminals.same n i hn, h.source, hadmits]

theorem search (hn : numbers[n]? = some i) (hcache : CachesAgree numbers task task' cache cache')
    (pos : Nat) :
    (Scan.search task' [] pos n cache').1 = (Scan.search task [] pos i cache).1 ∧
      CachesAgree numbers task task' (Scan.search task [] pos i cache).2
        (Scan.search task' [] pos n cache').2 := by
  simp only [Scan.search, h.shortcuts, hcache.same n i hn, h.searchFrom hn]
  split
  · exact ⟨rfl, hcache⟩
  · exact ⟨rfl, hcache.record h.grammar.terminals hn _⟩

theorem considerAll {cs cs' : List (Nat × Candidate)}
    (hcs : List.Forall₂ (SameCandidate numbers) cs cs') (pos : Nat) (early : Bool)
    (best : Option Found) (settled : Bool)
    (hcache : CachesAgree numbers task task' cache cache') :
    let choice := Scan.considerAll task [] pos early cs ⟨best, cache, settled⟩
    let choice' := Scan.considerAll task' [] pos early cs' ⟨best, cache', settled⟩
    choice'.best = choice.best ∧ choice'.settled = choice.settled ∧
      CachesAgree numbers task task' choice.cache choice'.cache := by
  induction hcs generalizing best cache cache' with
  | nil => exact ⟨rfl, rfl, hcache⟩
  | @cons c c' cs cs' hc _ ih =>
    obtain ⟨hfound, hagree⟩ := h.search hc.1 hcache pos
    simp only [Scan.considerAll]
    split
    · exact ⟨rfl, rfl, hcache⟩
    · rw [hfound, hc.2]
      exact ih _ hagree

/-- **The same match comes next.** -/
theorem nextMatch (hcache : CachesAgree numbers task task' cache cache') (modes : List Nat)
    (pos : Nat) :
    (Scan.nextMatch task' [] modes pos cache').best =
        (Scan.nextMatch task [] modes pos cache).best ∧
      CachesAgree numbers task task' (Scan.nextMatch task [] modes pos cache).cache
        (Scan.nextMatch task' [] modes pos cache').cache := by
  obtain ⟨hbest, hsettled, hagree⟩ := h.considerAll (h.openings modes) pos
    task.shortcuts.stopEarly none false hcache
  simp only [Scan.nextMatch, h.shortcuts, hsettled]
  split
  · exact ⟨hbest, hagree⟩
  · generalize Scan.considerAll task [] pos task.shortcuts.stopEarly
      (Scan.openings task.grammar modes) ⟨none, cache, false⟩ = choice at hbest hsettled hagree
    generalize Scan.considerAll task' [] pos task.shortcuts.stopEarly
      (Scan.openings task'.grammar modes) ⟨none, cache', false⟩ = choice' at hbest hsettled hagree
    obtain ⟨best, cache₁, settled⟩ := choice
    obtain ⟨best', cache₁', settled'⟩ := choice'
    obtain rfl : best' = best := hbest
    obtain rfl : settled' = settled := hsettled
    obtain ⟨hbest, -, hagree⟩ := h.considerAll (h.limits modes) pos false best' settled' hagree
    exact ⟨hbest, hagree⟩

end Task.Softens

/-! ### Scans in step -/

/-- The region without the number of the terminal that opened it. -/
def Region.unnumbered (r : Region) : Region := { r with entry := { r.entry with opener := 0 } }

/-- The second state shows what the first one does, and keeps the same. -/
structure State.Follows (numbers : Array Nat) (task task' : Task) (s s' : State) : Prop where
  pos : s'.pos = s.pos
  draft : s'.draft = s.draft
  regions : s'.regions.map Region.unnumbered = s.regions.map Region.unnumbered
  nextSerial : s'.nextSerial = s.nextSerial
  caches : CachesAgree numbers task task' s.cache s'.cache

namespace State.Follows

variable (h : Task.Softens numbers task task')

theorem modes (hs : s.Follows numbers task task' s') : s'.modes = s.modes := by
  have hmodes : ∀ rs : List Region,
      rs.map (·.entry.mode) = (rs.map Region.unnumbered).map (·.entry.mode) := by
    intro rs
    rw [List.map_map]
    rfl
  rw [State.modes, State.modes, hmodes, hmodes s.regions, hs.regions]

theorem leaveTrail (hs : s.Follows numbers task task' s') (span : Span) :
    (s.leaveTrail span).Follows numbers task task' (s'.leaveTrail span) := by
  obtain ⟨hpos, hdraft, hregions, hserial, hcaches⟩ := hs
  obtain ⟨pos, draft, cache, barred, trails, regions, nextSerial⟩ := s
  obtain ⟨pos', draft', cache', barred', trails', regions', nextSerial'⟩ := s'
  simp only at hpos hdraft hregions hserial hcaches
  subst hpos hdraft hserial
  cases regions with
  | nil =>
    obtain rfl := List.map_eq_nil_iff.mp hregions
    exact ⟨rfl, rfl, rfl, rfl, hcaches⟩
  | cons r outer =>
    cases regions' with
    | nil => cases hregions
    | cons r' outer' =>
      obtain ⟨hr, houter⟩ := List.cons.inj hregions
      have hpush : ∀ span : Span, Region.unnumbered { r' with trail := r'.trail.push span } =
          Region.unnumbered { r with trail := r.trail.push span } := by
        intro span
        simp only [Region.unnumbered, Region.mk.injEq] at hr ⊢
        exact ⟨hr.1, hr.2.1, by rw [hr.2.2]⟩
      refine ⟨rfl, rfl, ?_, rfl, hcaches⟩
      simp only [State.leaveTrail, List.map_cons, hpush, houter]

include h

theorem keywords (hs : s.Follows numbers task task' s') :
    s'.keywords task'.grammar = s.keywords task.grammar := by
  rw [State.keywords, State.keywords, hs.modes, h.contentOf]
  rfl

theorem next? (hs : s.Follows numbers task task' s') (hbarred : s.barred = [])
    (hbarred' : s'.barred = []) :
    (s'.next? task').1 = (s.next? task).1 ∧
      (s.next? task).2.Follows numbers task task' (s'.next? task').2 := by
  obtain ⟨hbest, hcaches⟩ := h.nextMatch hs.caches s.modes s.pos
  simp only [State.next?, hbarred, hbarred', hs.modes, hs.pos]
  exact ⟨hbest, rfl, hs.draft, hs.regions, hs.nextSerial, hcaches⟩

theorem closedBy (modes : List Nat) (depth : Nat) :
    State.closedBy task'.grammar modes depth = State.closedBy task.grammar modes depth := by
  have hwith : ∀ modes, State.closedWith task'.grammar modes =
      State.closedWith task.grammar modes := by
    intro modes
    induction modes with
    | nil => rfl
    | cons m outer ih => rw [State.closedWith, State.closedWith, (h.grammar.mode m).endsParent, ih]
  rw [State.closedBy, State.closedBy, hwith]

theorem closingEdge (modes : List Nat) (span : Span) :
    State.closingEdge task'.grammar modes span = State.closingEdge task.grammar modes span := by
  cases modes with
  | nil => rfl
  | cons m outer => rw [State.closingEdge, State.closingEdge, (h.grammar.mode m).excludesEnd]

theorem closeRegions (keywords : Option KeywordTable) (stop : Nat) (modes : List Nat) (d : Draft) :
    d.closeRegions task'.source keywords stop (modes.map task'.grammar.mode) =
      d.closeRegions task.source keywords stop (modes.map task.grammar.mode) := by
  have hclosed : ∀ d : Draft, (modes.map task'.grammar.mode).foldl Draft.closeRegion d =
      (modes.map task.grammar.mode).foldl Draft.closeRegion d := by
    induction modes with
    | nil => exact fun d => rfl
    | cons m modes ih =>
      intro d
      have hm := h.grammar.mode m
      rw [List.map_cons, List.map_cons, List.foldl_cons, List.foldl_cons, Draft.closeRegion,
        hm.scope, hm.relevance, ih]
      rfl
  rw [Draft.closeRegions, Draft.closeRegions, hclosed, h.source]

theorem takeWhole (hs : s.Follows numbers task task' s') (index : Nat) (span : Span) :
    (s.takeWhole task (task.grammar.mode index) span).Follows numbers task task'
      (s'.takeWhole task' (task'.grammar.mode index) span) := by
  have hm := h.grammar.mode index
  refine ⟨rfl, ?_, hs.regions, hs.nextSerial, hs.caches⟩
  simp only [State.takeWhole, Draft.addWhole, hs.draft, hs.keywords h, h.source, hm.excludesBegin,
    hm.scope, hm.relevance, hm.content, Content.lenient]

theorem openRegion (hs : s.Follows numbers task task' s') (index : Nat) (span : Span) :
    (s.openRegion task index (task.grammar.mode index) span).Follows numbers task task'
      (s'.openRegion task' index (task'.grammar.mode index) span) := by
  have hm := h.grammar.mode index
  refine ⟨rfl, ?_, ?_, ?_, hs.caches⟩
  · simp only [State.openRegion, Draft.openRegion, hs.draft, hs.keywords h, h.source,
      hm.excludesBegin, hm.scope]
  · simp only [State.openRegion, List.map_cons, hs.regions, hs.draft, hs.nextSerial,
      Region.unnumbered]
  · rw [State.openRegion, State.openRegion, hs.nextSerial]

theorem closes (hs : s.Follows numbers task task' s') (depth : Nat) (span : Span) :
    (s.closes task depth span).Follows numbers task task' (s'.closes task' depth span) := by
  refine ⟨rfl, ?_, ?_, hs.nextSerial, hs.caches⟩
  · simp only [State.closes, hs.draft, hs.keywords h, hs.modes, closedBy h, closingEdge h,
      closeRegions h]
  · simp only [State.closes, hs.modes, closedBy h, List.map_drop, hs.regions]

/-- **The same match does the same.** -/
theorem handle (hs : s.Follows numbers task task' s') (htrails : s.trails = none)
    (htrails' : s'.trails = none) (hf : f.candidate ≠ .illegal) :
    (s.handle task f).Follows numbers task task' (s'.handle task' f) := by
  have hnoted := hs.leaveTrail f.span
  have hretraces := retraces_of_trails ((trails_leaveTrail f.span s).trans htrails)
  have hretraces' := retraces_of_trails ((trails_leaveTrail f.span s').trans htrails')
  simp only [State.handle]
  split
  · next index hcandidate =>
    have hending := (h.grammar.mode index).ending
    have himmediate : (task'.grammar.mode index).ending = .immediate ↔
        (task.grammar.mode index).ending = .immediate := by
      generalize (task.grammar.mode index).ending = e at hending
      generalize (task'.grammar.mode index).ending = e' at hending
      cases hending <;> simp
    simp only [State.opens, himmediate, hretraces, hretraces', Bool.and_false, Bool.false_eq_true,
      if_false]
    split
    · exact hnoted.takeWhole h index f.span
    · exact hnoted.openRegion h index f.span
  · next depth hcandidate => exact hnoted.closes h depth f.span
  · next hillegal => exact absurd hillegal hf

/-- **Scans that go in step go on in step.** -/
theorem runFor (hs : s.Follows numbers task task' s') (hu : s.Untroubled) (hu' : s'.Untroubled)
    (n : Nat) :
    (Scan.runFor task n s).Follows numbers task task' (Scan.runFor task' n s') ∧
      (Scan.runFor task n s).Untroubled ∧ (Scan.runFor task' n s').Untroubled := by
  induction n generalizing s s' with
  | zero => exact ⟨hs, hu, hu'⟩
  | succ n ih =>
    obtain ⟨hnext, hs₁⟩ := hs.next? h hu.barred hu'.barred
    have hu₁ : (s.next? task).2.Untroubled := ⟨hu.barred, hu.trails, hu.legal⟩
    have hu₁' : (s'.next? task').2.Untroubled := ⟨hu'.barred, hu'.trails, hu'.legal⟩
    cases hf : (s.next? task).1 with
    | none =>
      rw [runFor_stop hf, runFor_stop (hnext.trans hf)]
      exact ⟨hs₁, hu₁, hu₁'⟩
    | some f =>
      have hlegal := h.isLenient.not_illegal hf
      obtain ⟨-, -, hu₂⟩ := untroubled_next (m := s.move task f) task hu₁ hlegal
      obtain ⟨-, -, hu₂'⟩ := untroubled_next (m := s'.move task' f) task' hu₁' hlegal
      rw [runFor_step hf, runFor_step (hnext.trans hf)]
      exact ih (hs₁.handle h hu.trails hu'.trails hlegal) hu₂ hu₂'

theorem result (hs : s.Follows numbers task task' s') :
    Scan.result task' s' = Scan.result task s := by
  have hclosed : ∀ (modes : List Nat) (d : Draft),
      modes.foldl (fun d m => d.closeScope (task'.grammar.mode m).scope) d =
        modes.foldl (fun d m => d.closeScope (task.grammar.mode m).scope) d := by
    intro modes d
    simp only [fun m => (h.grammar.mode m).scope]
  simp only [Scan.result, h.grammar.name, hs.draft, hs.keywords h, hs.modes, hclosed, h.source]

end State.Follows

/-! ### From start to end -/

theorem Task.Softens.follows_start (h : Task.Softens numbers task task') :
    (State.start task.grammar).Follows numbers task task' (State.start task'.grammar) := by
  refine ⟨rfl, rfl, rfl, rfl, Array.size_replicate, Array.size_replicate, fun n i hn => ?_⟩
  obtain ⟨hi, hn'⟩ := h.grammar.terminals.lt_size hn
  simp [State.start, State.startWith, Cache.search?, hi, hn']

theorem runFor_of_ran (h : Ran task s ms t) (n : Nat) :
    runFor task (ms.length + n) s = runFor task n t := by
  induction h generalizing n with
  | refl => rw [List.length_nil, Nat.zero_add]
  | @move ms t f _ hf ih =>
    rw [List.length_cons, Nat.add_assoc, Nat.add_comm 1 n, ih, runFor_step hf]
    rfl

/-- Further turns change nothing once a scan has come to its end. -/
theorem runFor_eq_run (hin : task.grammar.InOrder)
    (hwithin : task.grammar.SearchesWithin task.source)
    (hn : stepBound task.grammar task.source.size ≤ n) :
    runFor task n (State.start task.grammar) = run task (State.start task.grammar) := by
  obtain ⟨ms, t, hran, hnone, hrun⟩ := exists_ran_run hin hwithin []
  have hle := (hran.length_add_potential_le hin hwithin (orderly_start task [])).2
  have hlt := potential_start_lt task []
  obtain ⟨k, rfl⟩ := Nat.exists_eq_add_of_lt (show ms.length < n by omega)
  have hend := runFor_of_ran hran (k + 1)
  rw [runFor_stop hnone, ← hrun] at hend
  rw [Nat.add_assoc]
  exact hend

theorem Task.Softens.searchesWithin (h : Task.Softens numbers task task')
    (hwithin : task.grammar.SearchesWithin task.source) :
    task'.grammar.SearchesWithin task'.source := by
  intro t ht
  obtain ⟨n, hn⟩ := Array.mem_iff_getElem?.mp ht
  have hlt := (Array.getElem?_eq_some_iff.mp hn).1
  rw [← h.grammar.terminals.size] at hlt
  have hsame := h.grammar.terminals.same n _ (Array.getElem?_eq_getElem hlt)
  rw [h.source]
  exact hwithin t (Array.mem_of_getElem? (hsame.trans hn))

/-- **Ignoring what is illegal is not declaring it.**  Take any recipe of a grammar that is
accepted; without all that is said to be illegal, in modes and in the language, it is accepted too.
A scan that ignores what is illegal and any scan of the grammar without it go in step, whatever the
patterns: after each number of turns the same match comes next and the same result is shown, with
nothing illegal.  Neither takes a region back, bars a match or keeps a trail.

So where searches keep within the text, with which scans come to an end, both highlight it the
same. -/
theorem ignoring_illegal_eq_not_declaring (lookbehind : Lookbehind) (steps : List BuildStep)
    (language : LanguageDecl) (g : Grammar)
    (hg : (Builder.follow lookbehind steps).finish language = .ok g) :
    ∃ g', (Builder.follow lookbehind (steps.map BuildStep.lenient)).finish language.lenient =
        .ok g' ∧
      ∀ (text : String) (options : Options),
        let task := Scan.task g (Source.ofString text) ⟨true⟩
        let task' := Scan.task g' (Source.ofString text) options
        (∀ n, let s := runFor task n (State.start g)
          let s' := runFor task' n (State.start g')
          (s.next? task).1 = (s'.next? task').1 ∧ result task s = result task' s' ∧
            (result task s).illegal = false) ∧
        (∀ ms t, Ran task (State.start g) ms t → t.Untroubled ∧
          ∀ m ∈ ms, m.takesBack = false ∧ m.skips task = false) ∧
        (∀ ms t, Ran task' (State.start g') ms t → t.Untroubled ∧
          ∀ m ∈ ms, m.takesBack = false ∧ m.skips task' = false) ∧
        (g.highlight text ⟨true⟩).illegal = false ∧
        (g.SearchesWithin (Source.ofString text) →
          g.highlight text ⟨true⟩ = g'.highlight text options) := by
  obtain ⟨g', numbers, hg', hsoftened⟩ := Builder.finish_lenient hg
  rw [← Builder.follow_lenient] at hg'
  refine ⟨g', hg', fun text options => ?_⟩
  intro task task'
  have hin := Builder.inOrder_of_finish hg
  have h : Task.Softens numbers task task' := ⟨hsoftened, hin, rfl, rfl, rfl⟩
  have hstep := h.follows_start.runFor h (untroubled_start g) (untroubled_start g')
  have hlegal : ∀ {s : State}, s.Untroubled → (result task s).illegal = false := by
    intro s hs
    have hflush : (s.draft.flush task.source (s.keywords g) task.source.size).illegal = false :=
      ((Draft.congruent_extends s.draft).flush ⟨.refl _, rfl⟩).1.illegal.trans hs.legal
    have hclosed : ∀ (modes : List Nat) (d : Draft),
        (modes.foldl (fun d m => d.closeScope (g.mode m).scope) d).illegal = d.illegal := by
      intro modes
      induction modes with
      | nil => exact fun d => rfl
      | cons m modes ih => exact fun d => ih _
    exact (hclosed s.modes _).trans hflush
  have hall : ∀ n, result task (runFor task n (State.start g)) =
      result task' (runFor task' n (State.start g')) :=
    fun n => ((hstep n).1.result h).symm
  refine ⟨fun n => ?_, fun ms t hran => hran.untroubled h.isLenient (untroubled_start g),
    fun ms t hran => hran.untroubled h.isLenient' (untroubled_start g'), hlegal (hstep _).2.1,
    fun hwithin => ?_⟩
  · obtain ⟨hfollows, hs, hs'⟩ := hstep n
    exact ⟨((hfollows.next? h hs.barred hs'.barred).1).symm, hall n, hlegal hs⟩
  · -- both scans come to their ends within the greater of the two bounds
    let bound := max (stepBound g task.source.size) (stepBound g' task'.source.size)
    have hrun : runFor task bound (State.start g) = run task (State.start g) :=
      runFor_eq_run hin hwithin (Nat.le_max_left _ _)
    have hrun' : runFor task' bound (State.start g') = run task' (State.start g') :=
      runFor_eq_run (Builder.inOrder_of_finish hg') (h.searchesWithin hwithin)
        (Nat.le_max_right _ _)
    have hbound := hall bound
    rw [hrun, hrun'] at hbound
    exact hbound

theorem ignoring_illegal_in_quotes_eq_not_declaring :
    let steps := [BuildStep.add ⟨.blank, [.scope .string, .opener (.literal "'"),
      .ending (.pattern (.literal "'")), .illegal (.literal "\n")]⟩]
    (Builder.follow .usual steps).finish Quotes.language = .ok Quotes.grammar ∧
      Quotes.grammar.SearchesWithin (Source.ofString "'a\n'b'") ∧
      ∃ g', (Builder.follow .usual (steps.map BuildStep.lenient)).finish Quotes.language.lenient =
          .ok g' ∧
        Quotes.grammar.highlight "'a\n'b'" ⟨true⟩ = g'.highlight "'a\n'b'" ⟨false⟩ ∧
        (Quotes.grammar.highlight "'a\n'b'" ⟨true⟩).illegal = false := by
  intro steps
  have hfinish : (Builder.follow .usual steps).finish Quotes.language = .ok Quotes.grammar :=
    Quotes.finish_builder
  have hwithin := (Quotes.isReliable (Source.ofString "'a\n'b'")).searchesWithin
  obtain ⟨g', hg', hall⟩ :=
    ignoring_illegal_eq_not_declaring .usual steps Quotes.language Quotes.grammar hfinish
  obtain ⟨-, -, -, hillegal, heq⟩ := hall "'a\n'b'" ⟨false⟩
  exact ⟨hfinish, hwithin, g', hg', heq hwithin, hillegal⟩

end Highlighting.Scan
