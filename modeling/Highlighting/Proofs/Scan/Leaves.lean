/-
  Highlighting/Proofs/Scan/Leaves.lean
  ====================================
  **No scope at the top is empty.**

  A region whose scope begins behind its opening match may end right there, and
  then leaves a scope without any text.  Where such modes are only looked for
  inside of other scopes, and lexemes take a character, every node at the top
  has a leaf (`Core.Growing.closed`).

  All the while, a text has been recorded in the scopes that are open, or waits
  in the buffer for it (`Core.Growing`).
-/
import Highlighting.Proofs.Regex.Lexemes
import Highlighting.Proofs.Scan.Alongside
import Highlighting.Proofs.Scan.Replay

namespace Highlighting

/-- A mode whose scope begins behind its opening match is only looked for inside of scopes, and
lexemes stay in their line. -/
structure Grammar.ScopesBegin (g : Grammar) : Prop where
  inside : ∀ modes, ∀ m ∈ (Scan.contentOf g modes).contains,
    (g.mode m).excludesBegin = true → (g.mode m).scope ≠ none →
      ∃ k outer, modes = k :: outer ∧ (g.mode k).scope ≠ none
  lexeme : ∀ modes, ∀ t ∈ (Scan.contentOf g modes).keywords, t.lexeme.staysInLine = true

namespace EventLog.Forest

variable {f : Forest} {source : Source} {g : List Node → List Node}

/-- There is a text in every node at the top. -/
def IsLeafy (f : Forest) : Prop := ∀ n ∈ f.top, n.HasLeaf

/-- There is a text in one of the open scopes. -/
def HasBegun (f : Forest) : Prop := ∃ s ∈ f.scopes, ∃ n ∈ s.2, n.HasLeaf

/-- The change adds a text, and no node without one. -/
structure Grows (g : List Node → List Node) : Prop where
  leafy : ∀ ns, (∀ n ∈ ns, n.HasLeaf) → ∀ n ∈ g ns, n.HasLeaf
  leaf : ∀ ns, ∃ n ∈ g ns, n.HasLeaf

theorem grows_joinText (s : String) : Grows (joinText s) := by
  constructor
  · intro ns h n hn
    unfold joinText at hn
    split at hn
    · rcases List.mem_cons.mp hn with rfl | hn
      · exact .text _
      · exact h n (List.mem_cons_of_mem _ hn)
    · rcases List.mem_cons.mp hn with rfl | hn
      · exact .text _
      · exact h n hn
  · intro ns
    unfold joinText
    split
    · exact ⟨_, List.mem_cons_self, .text _⟩
    · exact ⟨_, List.mem_cons_self, .text _⟩

theorem grows_cons {n : Node} (hn : n.HasLeaf) : Grows (n :: ·) := by
  refine ⟨fun ns h m hm => ?_, fun ns => ⟨n, List.mem_cons_self, hn⟩⟩
  rcases List.mem_cons.mp hm with rfl | hm
  · exact hn
  · exact h m hm

theorem length_scopes_update (f : Forest) (g : List Node → List Node) :
    (f.update g).scopes.length = f.scopes.length := by
  obtain ⟨top, scopes⟩ := f
  cases scopes <;> rfl

theorem IsLeafy.update (h : f.IsLeafy) (hg : Grows g) : (f.update g).IsLeafy := by
  obtain ⟨top, scopes⟩ := f
  cases scopes with
  | nil => exact hg.leafy top h
  | cons s outer => exact h

theorem hasBegun_update (f : Forest) (hg : Grows g) :
    (f.update g).scopes = [] ∨ (f.update g).HasBegun := by
  obtain ⟨top, scopes⟩ := f
  cases scopes with
  | nil => exact .inl rfl
  | cons s outer => exact .inr ⟨(s.1, g s.2), List.mem_cons_self, hg.leaf s.2⟩

theorem IsLeafy.close (h : f.IsLeafy) (hbegun : f.HasBegun) : f.close.IsLeafy := by
  obtain ⟨top, scopes⟩ := f
  obtain ⟨s, hs, n, hn, hleaf⟩ := hbegun
  cases scopes with
  | nil => cases hs
  | cons s' outer =>
    cases outer with
    | nil =>
      obtain rfl := List.mem_singleton.mp hs
      have hregion : (Node.region s.1 s.2.reverse).HasLeaf :=
        .region (List.mem_reverse.mpr hn) hleaf
      exact (grows_cons hregion).leafy top h
    | cons s'' outer => exact h

theorem hasBegun_close (hbegun : f.HasBegun) : f.close.scopes = [] ∨ f.close.HasBegun := by
  obtain ⟨top, scopes⟩ := f
  obtain ⟨s, hs, n, hn, hleaf⟩ := hbegun
  cases scopes with
  | nil => cases hs
  | cons s' outer =>
    cases outer with
    | nil => exact .inl rfl
    | cons s'' outer =>
      right
      rcases List.mem_cons.mp hs with rfl | hs
      · exact ⟨_, List.mem_cons_self, _, List.mem_cons_self,
          .region (List.mem_reverse.mpr hn) hleaf⟩
      · rcases List.mem_cons.mp hs with rfl | hs
        · exact ⟨_, List.mem_cons_self, n, List.mem_cons_of_mem _ hn, hleaf⟩
        · exact ⟨s, List.mem_cons_of_mem _ hs, n, hn, hleaf⟩

/-- A scope around a text is a node. -/
theorem step_enclosed (scope : Scope) (s : Span) :
    ((f.step source (.opened scope)).step source (.text s)).step source .closed =
      f.update (.region scope [.text (source.slice s)] :: ·) := by
  obtain ⟨top, scopes⟩ := f
  rfl

end EventLog.Forest

namespace Scan

open EventLog (Forest)

variable {source : Source} {keywords : Option KeywordTable} {d : Draft} {span : Span}
  {depth pos stop a b : Nat}

/-! ### Drafts -/

namespace Draft

/-- So many scopes are open, and no node at the top is without a text. -/
structure Leafy (source : Source) (depth : Nat) (d : Draft) : Prop where
  leafy : (d.forest source).IsLeafy
  depth : (d.forest source).scopes.length = depth

/-- There is a text in the open scopes as well. -/
structure Grown (source : Source) (depth : Nat) (d : Draft) : Prop extends
    Leafy source depth d where
  begun : (d.forest source).scopes = [] ∨ (d.forest source).HasBegun

theorem Grown.of_forest {e : Draft} (h : d.Grown source depth)
    (hforest : e.forest source = d.forest source) : e.Grown source depth :=
  ⟨⟨by rw [hforest]; exact h.leafy, by rw [hforest]; exact h.depth⟩, by rw [hforest]; exact h.begun⟩

theorem Leafy.update {e : Draft} {g : List Node → List Node} (h : d.Leafy source depth)
    (hg : Forest.Grows g) (he : e.forest source = (d.forest source).update g) :
    e.Grown source depth := by
  refine ⟨⟨?_, ?_⟩, ?_⟩
  · rw [he]
    exact h.leafy.update hg
  · rw [he, Forest.length_scopes_update]
    exact h.depth
  · rw [he]
    exact Forest.hasBegun_update _ hg

theorem Leafy.addText (h : d.Leafy source depth) (hab : a < b) :
    (d.addText ⟨a, b⟩).Grown source depth :=
  h.update (Forest.grows_joinText _) (forest_addText source d hab)

theorem Grown.addText (h : d.Grown source depth) (span : Span) :
    (d.addText span).Grown source depth := by
  rcases Nat.lt_or_ge span.start span.stop with hlt | hge
  · exact h.toLeafy.addText hlt
  · rw [addText_eq_self d hge]
    exact h

theorem Leafy.of_forest {e : Draft} (h : d.Leafy source depth)
    (hforest : e.forest source = d.forest source) : e.Leafy source depth :=
  ⟨by rw [hforest]; exact h.leafy, by rw [hforest]; exact h.depth⟩

theorem Leafy.addKeyword (h : d.Leafy source depth) (span : Span)
    (hspan : span.start < span.stop) (last : Nat)
    (c : KeywordClass) (w : Word) : (d.addKeyword last span c w).Grown source depth := by
  have htext : (d.addText ⟨last, span.start⟩).Leafy source depth := by
    rcases Nat.lt_or_ge last span.start with hlt | hge
    · exact (h.addText hlt).toLeafy
    · rw [addText_eq_self d hge]
      exact h
  have hleaf : (Node.region c.scope [.text (source.slice span)]).HasLeaf :=
    .region List.mem_cons_self (.text _)
  refine htext.update (Forest.grows_cons hleaf) ?_
  have hempty : span.isEmpty = false := decide_eq_false (Nat.not_le_of_lt hspan)
  have hevents : (d.addKeyword last span c w).events = (((d.addText ⟨last, span.start⟩).events.push
      (.opened c.scope)).push (.text span)).push .closed := by
    show (EventLog.addText ((d.addText ⟨last, span.start⟩).events.push (.opened c.scope))
      span).push .closed = _
    rw [EventLog.addText, hempty]
    rfl
  rw [forest, hevents, Array.foldl_push, Array.foldl_push, Array.foldl_push]
  exact Forest.step_enclosed c.scope span

/-- Keywords that are recorded are texts in the scopes that are open. -/
theorem Leafy.addLexemes {ls : List Span} (h : d.Leafy source depth) (table : KeywordTable)
    (base : Nat) (hls : ∀ l ∈ ls, l.start < l.stop) (last : Nat) :
    let r := addLexemes source table base ls last d
    r = (last, d) ∨ r.2.Grown source depth := by
  induction ls generalizing last d with
  | nil => exact .inl rfl
  | cons l ls ih =>
    have hrest := fun l' hl' => hls l' (List.mem_cons_of_mem _ hl')
    simp only [Draft.addLexemes]
    split
    · exact ih h hrest last
    · next c _ =>
      have hlt := hls l List.mem_cons_self
      have hkeyword := h.addKeyword ⟨base + l.start, base + l.stop⟩
        (Nat.add_lt_add_left hlt base) last c
        (source.chars ⟨base + l.start, base + l.stop⟩)
      rcases ih hkeyword.toLeafy hrest (base + l.stop) with heq | hgrown
      · right
        rw [heq]
        exact hkeyword
      · exact .inr hgrown

/-- **A stretch that is recorded is a text in the scopes that are open.** -/
theorem Leafy.classify (h : d.Leafy source depth)
    (hlexeme : ∀ t ∈ keywords, t.lexeme.staysInLine = true) (hab : a < b) :
    (d.classify source keywords ⟨a, b⟩).Grown source depth := by
  cases keywords with
  | none =>
    rw [classify_none]
    exact h.addText hab
  | some table =>
    rw [classify_table source table d hab]
    have hls : ∀ l ∈ table.lexeme.findAll (source.extract a b), l.start < l.stop :=
      fun l hl => Matcher.lt_of_mem_findAll (hlexeme table rfl) hl
    rcases h.addLexemes table a hls a with heq | hgrown
    · rw [heq]
      exact h.addText hab
    · exact hgrown.addText _

theorem Grown.classify (h : d.Grown source depth)
    (hlexeme : ∀ t ∈ keywords, t.lexeme.staysInLine = true) (span : Span) :
    (d.classify source keywords span).Grown source depth := by
  rcases Nat.lt_or_ge span.start span.stop with hlt | hge
  · exact h.toLeafy.classify hlexeme hlt
  · rw [classify_eq_self source keywords d hge]
    exact h

theorem Grown.openScope {scope : Option Scope} (h : d.Grown source depth)
    (hinside : scope ≠ none → 0 < depth) :
    (d.openScope scope).Grown source (depth + scope.toList.length) := by
  cases scope with
  | none => exact h
  | some scope =>
    have hforest := forest_openScope source d scope
    refine ⟨⟨?_, ?_⟩, .inr ?_⟩
    · rw [hforest]
      exact h.leafy
    · rw [hforest, List.length_cons, h.depth]
      rfl
    · rw [hforest]
      rcases h.begun with hnil | ⟨s, hs, hleaf⟩
      · have hdepth := h.depth
        rw [hnil, List.length_nil] at hdepth
        have hpos := hinside (Option.some_ne_none _)
        omega
      · exact ⟨s, List.mem_cons_of_mem _ hs, hleaf⟩

theorem Leafy.openScope (h : d.Leafy source depth) (scope : Option Scope) :
    (d.openScope scope).Leafy source (depth + scope.toList.length) := by
  cases scope with
  | none => exact h
  | some scope =>
    have hforest := forest_openScope source d scope
    refine ⟨?_, ?_⟩
    · rw [hforest]
      exact h.leafy
    · rw [hforest, List.length_cons, h.depth]
      rfl

theorem Grown.closeScope (scope : Option Scope)
    (h : d.Grown source (depth + scope.toList.length)) :
    (d.closeScope scope).Grown source depth := by
  cases scope with
  | none => exact h
  | some scope =>
    have hforest := forest_closeScope source d scope
    have hbegun : (d.forest source).HasBegun := by
      rcases h.begun with hnil | hbegun
      · have hdepth := h.depth
        rw [hnil] at hdepth
        cases hdepth
      · exact hbegun
    refine ⟨⟨?_, ?_⟩, ?_⟩
    · rw [hforest]
      exact h.leafy.close hbegun
    · have hdepth : (d.forest source).scopes.length = depth + 1 := h.depth
      rw [hforest, Forest.length_scopes_close, hdepth]
      rfl
    · rw [hforest]
      exact Forest.hasBegun_close hbegun

/-- When no scope is open, the nodes are those at the top. -/
theorem Leafy.nodes_eq (h : d.Leafy source 0) :
    d.events.nodes source = (d.forest source).top.reverse := by
  have hnil : (d.forest source).scopes.length = 0 := h.depth
  show ((d.forest source).closeMany (d.forest source).scopes.length).top.reverse = _
  rw [hnil]
  rfl

end Draft

/-! ### Cores -/

/-- What is recorded in the end, with all regions closed. -/
def Core.closed (task : Task) (c : Core) : Draft :=
  c.modes.foldl (fun d m => d.closeScope (task.grammar.mode m).scope)
    (c.draft.flush task.source (c.keywords task.grammar) task.source.size)

theorem Core.nodes_result (task : Task) (c : Core) :
    (c.result task).nodes = (c.closed task).events.nodes task.source := rfl

/-- How many scopes the regions of these modes have open. -/
def scopeDepth (g : Grammar) (modes : List Nat) : Nat :=
  (modes.flatMap fun m => (g.mode m).scope.toList).length

theorem scopeDepth_cons (g : Grammar) (m : Nat) (modes : List Nat) :
    scopeDepth g (m :: modes) = scopeDepth g modes + (g.mode m).scope.toList.length := by
  rw [scopeDepth, List.flatMap_cons, List.length_append, Nat.add_comm]
  rfl

/-- No node at the top is without a text, and once the buffer is recorded, there is one in the
scopes that are open. -/
structure Core.Growing (task : Task) (c : Core) : Prop where
  leafy : c.draft.Leafy task.source (scopeDepth task.grammar c.modes)
  begun : c.draft.bufferStart < c.pos ∨
    c.draft.Grown task.source (scopeDepth task.grammar c.modes)

namespace Core.Growing

variable {task : Task} {c : Core} {f : Found} {fs : List Found} {barred : List Bar} {floor : Nat}
  {q : Place}

theorem start (task : Task) : (State.start task.grammar).core.Growing task := by
  have hleafy : Draft.empty.Leafy task.source 0 := by
    refine ⟨?_, rfl⟩
    intro n hn
    cases hn
  exact ⟨hleafy, .inr ⟨hleafy, .inl rfl⟩⟩

variable (hg : task.grammar.ScopesBegin)
include hg

theorem flush (h : c.Growing task) (hstop : c.pos ≤ stop) :
    (c.draft.flush task.source (c.keywords task.grammar) stop).Grown task.source
      (scopeDepth task.grammar c.modes) := by
  have hlexeme := hg.lexeme c.modes
  rcases h.begun with hlt | hgrown
  · exact (h.leafy.of_forest (e := { c.draft with bufferStart := stop }) rfl).classify hlexeme
      (Nat.lt_of_lt_of_le hlt hstop)
  · exact (hgrown.of_forest (e := { c.draft with bufferStart := stop }) rfl).classify hlexeme _

/-- A mode that has no end is recorded with a text. -/
theorem addWhole {m : Mode} (h : c.Growing task) (hkeywords : ∀ t ∈ m.content.keywords,
    t.lexeme.staysInLine = true) (hpos : c.pos ≤ span.start) (hlt : span.start < span.stop) :
    (c.draft.addWhole task.source (c.keywords task.grammar) m span).Grown task.source
      (scopeDepth task.grammar c.modes) := by
  simp only [Draft.addWhole]
  split
  · exact (h.flush hg (Nat.le_trans hpos (Nat.le_of_lt hlt))).of_forest rfl
  · have hopened := (h.flush hg hpos).toLeafy.openScope m.scope
    have htext := hopened.classify hkeywords hlt
    exact (htext.closeScope m.scope).of_forest rfl

theorem closeRegions (closed rest : List Nat) (hmodes : c.modes = closed ++ rest)
    (h : c.Growing task) (hstop : c.pos ≤ stop) :
    (c.draft.closeRegions task.source (c.keywords task.grammar) stop
      (closed.map task.grammar.mode)).Grown task.source (scopeDepth task.grammar rest) := by
  have hflush := h.flush hg hstop
  rw [hmodes] at hflush
  rw [Draft.closeRegions]
  generalize c.draft.flush task.source (c.keywords task.grammar) stop = d at hflush
  clear hmodes
  induction closed generalizing d with
  | nil => exact hflush
  | cons m closed ih =>
    rw [List.cons_append, scopeDepth_cons] at hflush
    exact ih _ ((hflush.closeScope _).of_forest rfl)

/-- **Whatever comes next is taken so that no scope at the top is empty.** -/
theorem take (hsound : task.IsSound) (h : c.Growing task)
    (hnext : c.place.next? task barred = some f) (honward : f.IsOnward c.modes) :
    (c.take task f).Growing task := by
  obtain ⟨hstart, hle, -⟩ := Place.next?_within hsound hnext
  have hpos : c.pos ≤ f.span.start := hstart
  have hfits := Place.fits_next? hsound hnext
  have hlt : f.candidate.isEnd = false → f.span.start < f.span.stop :=
    Place.lt_of_next? hsound hnext
  rw [Core.take]
  cases hf : f.candidate with
  | opens m =>
    have hlt' : f.span.start < f.span.stop := hlt (by rw [hf]; rfl)
    have hcontains : m ∈ (contentOf task.grammar c.modes).contains := by
      obtain ⟨index, hmem, -⟩ := hfits.admitted
      rw [hf] at hmem
      exact (mem_candidates_opens.mp hmem).1
    dsimp only
    split
    · have hgrown := h.addWhole hg (hg.lexeme [m]) hpos hlt'
      exact ⟨hgrown.toLeafy, .inr hgrown⟩
    · have hdepth : scopeDepth task.grammar (c.openRegion task m f.span).modes =
          scopeDepth task.grammar c.modes + (task.grammar.mode m).scope.toList.length :=
        scopeDepth_cons task.grammar m c.modes
      by_cases hexcludes : (task.grammar.mode m).excludesBegin = true
      · have hgrown : (c.openRegion task m f.span).draft.Grown task.source
            (scopeDepth task.grammar c.modes + (task.grammar.mode m).scope.toList.length) := by
          show (Draft.openRegion ..).Grown _ _
          rw [Draft.openRegion, if_pos hexcludes]
          refine (h.flush hg (Nat.le_trans hpos hle)).openScope fun hscope => ?_
          -- the scope around is counted
          obtain ⟨k, outer, hmodes, hk⟩ := hg.inside c.modes m hcontains hexcludes hscope
          rw [hmodes, scopeDepth_cons]
          cases hscope' : (task.grammar.mode k).scope with
          | none => exact absurd hscope' hk
          | some scope => exact Nat.succ_pos _
        rw [← hdepth] at hgrown
        exact ⟨hgrown.toLeafy, .inr hgrown⟩
      · have hdraft : (c.openRegion task m f.span).draft =
            (c.draft.flush task.source (c.keywords task.grammar) f.span.start).openScope
              (task.grammar.mode m).scope := by
          show Draft.openRegion .. = _
          rw [Draft.openRegion, if_neg hexcludes]
        refine ⟨?_, .inl ?_⟩
        · rw [hdepth, hdraft]
          exact (h.flush hg hpos).toLeafy.openScope _
        · rw [hdraft]
          show (c.draft.flush task.source (c.keywords task.grammar) f.span.start).bufferStart < _
          rw [Draft.bufferStart_flush]
          exact hlt'
  | closes depth =>
    have hstop : c.pos ≤ State.closingEdge task.grammar c.modes f.span := by
      rcases closingEdge_eq task.grammar c.modes f.span with heq | heq
      · omega
      · omega
    have hclosed := h.closeRegions hg (c.modes.take (State.closedBy task.grammar c.modes depth))
      (c.modes.drop (State.closedBy task.grammar c.modes depth)) (List.take_append_drop _ _).symm
      hstop
    have hmodes : (c.closes task depth f.span).modes =
        c.modes.drop (State.closedBy task.grammar c.modes depth) := List.map_drop ..
    rw [← hmodes] at hclosed
    exact ⟨hclosed.toLeafy, .inr hclosed⟩
  | illegal =>
    have hnil : c.modes = [] := honward hf
    have hentries : c.entries = [] := List.map_eq_nil_iff.mp hnil
    have hlt' : f.span.start < f.span.stop := hlt (by rw [hf]; rfl)
    rw [hentries]
    have hgrown : (c.passOver task f.span).draft.Grown task.source
        (scopeDepth task.grammar c.modes) := by
      show (Draft.passOver ..).Grown _ _
      simp only [Draft.passOver, Draft.flush_setIllegal]
      rw [Draft.passedAt_of_lt hlt']
      have hflush := (h.flush hg hpos).of_forest
        (e := { c.draft.flush task.source (c.keywords task.grammar) f.span.start with
          illegal := true }) rfl
      exact (hflush.addText _).of_forest rfl
    exact ⟨hgrown.toLeafy, .inr hgrown⟩

/-- **Along a path, no scope at the top is left empty.** -/
theorem takeAll (hsound : task.IsSound) (h : c.Growing task)
    (hpath : Path task barred floor c.place fs q) : (c.takeAll task fs).Growing task := by
  induction fs generalizing c with
  | nil => exact h
  | cons f fs ih =>
    obtain ⟨hnext, honward, -, hrest⟩ := hpath
    rw [← Core.place_take honward] at hrest
    exact ih (h.take hg hsound hnext honward) hrest

/-- **In the end there is a text in every node at the top.** -/
theorem closed (h : c.Growing task) (hpos : c.pos ≤ task.source.size) :
    (c.closed task).Grown task.source 0 := by
  have hflush := h.flush hg hpos
  rw [Core.closed]
  generalize c.draft.flush task.source (c.keywords task.grammar) task.source.size = d at hflush
  generalize c.modes = modes at hflush
  induction modes generalizing d with
  | nil => exact hflush
  | cons m modes ih =>
    rw [scopeDepth_cons] at hflush
    exact ih _ (hflush.closeScope _)

end Core.Growing

end Scan

end Highlighting
