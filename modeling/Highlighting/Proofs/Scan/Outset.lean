/-
  Highlighting/Proofs/Scan/Outset.lean
  ====================================
  **What the start of a text comes under.**

  A region is only taken back for what is illegal in it.  So when a region opens
  at once, has a scope, and nothing is illegal in it, then the log starts with
  that scope from there on (`Core.StartsWith.of_runs`): whatever else is taken back
  was opened later.

  As no node is without a text (`hasLeaf_of_mem_nodes`), the first leaf is one of
  that region, whatever the rest of the text is (`exists_head?_leaves`).

  A match that was taken back stays barred (`barred_suffix_of_runs`).  So when
  nothing else starts where the text does, its first character is outside of all
  regions: what is recorded first is a text or a keyword
  (`exists_head?_nodes_of_quiet`).
-/
import Highlighting.Proofs.Scan.Leaves
import Highlighting.Proofs.Scan.Marks
import Highlighting.Proofs.Scan.Unclaimed

namespace Highlighting

namespace Scan

variable {task : Task} {c d : Core} {f : Found} {scope : Scope} {k e : Nat}
  {es : List Event}

/-! ### Logs that start with some events -/

namespace Draft

def StartsWith (es : List Event) (d : Draft) : Prop := es <+: d.events.toList

theorem congruent_startsWith (es : List Event) : Congruent fun d e => StartsWith es d ∧ d = e :=
  congruent_of (fun _ h => List.IsPrefix.trans h (by simp)) (fun _ h => h) (fun _ h => h)
    (fun _ h => h)

theorem StartsWith.extend {d d' : Draft} (h : d.StartsWith es) (hext : d.Extends d') :
    d'.StartsWith es :=
  List.IsPrefix.trans h hext.events

end Draft

/-- Whatever takes no region back leaves the events at the start. -/
theorem Draft.StartsWith.take (h : c.draft.StartsWith es) (honward : f.IsOnward c.modes) :
    (c.take task f).draft.StartsWith es := by
  rw [Core.take]
  cases hf : f.candidate with
  | opens m =>
    dsimp only
    split
    · exact h.extend (Core.extends_takeWhole _)
    · exact h.extend (Core.extends_openRegion m)
  | closes depth => exact h.extend (Core.extends_closes depth)
  | illegal =>
    have hentries : c.entries = [] := List.map_eq_nil_iff.mp (honward hf)
    rw [hentries]
    exact ((congruent_startsWith es).passOver (fun h => ⟨h.1, by rw [h.2]⟩) ⟨h, rfl⟩).1

/-- The log starts with the events, and did so when the regions opened that may be taken back. -/
structure Core.StartsWith (task : Task) (es : List Event) (c : Core) : Prop where
  grounded : c.Grounded fun e u =>
    (task.grammar.mode e.mode).content.illegal = none ∨ u.draft.StartsWith es
  draft : c.draft.StartsWith es

namespace Core.StartsWith

/-- **What comes next leaves the events at the start.** -/
theorem take (hsound : task.IsSound) (h : c.StartsWith task es) (hnext : c.next? task = some f) :
    (c.take task f).StartsWith task es := by
  refine ⟨h.grounded.take fun _ _ _ => .inr h.draft, ?_⟩
  by_cases honward : f.IsOnward c.modes
  · exact h.draft.take honward
  · obtain ⟨hf, hmodes⟩ : f.candidate = .illegal ∧ c.modes ≠ [] := by
      simpa [Found.IsOnward] using honward
    obtain ⟨e, outer, hentries⟩ : ∃ e outer, c.entries = e :: outer :=
      List.exists_cons_of_ne_nil fun hnil => hmodes (by rw [Core.modes, hnil]; rfl)
    obtain ⟨u, hground, -, -, halike, -⟩ :=
      (hentries ▸ h.grounded.opened).restore h.grounded.counted
    -- the region that is taken back has something illegal in it
    have hillegal : (task.grammar.mode e.mode).content.illegal ≠ none := by
      obtain ⟨index, hmem, -⟩ := (Place.fits_next? hsound hnext).admitted
      have hplace : c.place.modes = e.mode :: outer.map (·.mode) := by
        rw [Core.place, Core.modes, hentries, List.map_cons]
      rw [hf, hplace] at hmem
      have hindex : (task.grammar.mode e.mode).content.illegal = some index :=
        (mem_candidates_illegal.mp hmem).2
      rw [hindex]
      exact Option.some_ne_none index
    have hstarts := hground.resolve_left hillegal
    rw [Core.take, hf, hentries]
    show es <+: (c.draft.restore e.checkpoint).events.toList
    rw [halike.events]
    exact hstarts

theorem of_runs (hsound : task.IsSound) (h : c.StartsWith task es) (hruns : Runs task c d) :
    d.StartsWith task es := by
  induction hruns with
  | refl => exact h
  | tail _ hstep ih =>
    obtain ⟨f, hnext, rfl⟩ := hstep
    exact ih.take hsound hnext

/-- Where no region is open, all that is recorded stays. -/
theorem of_entries_nil (hcounted : c.draft.Counted) (hentries : c.entries = []) :
    c.StartsWith task c.draft.events.toList :=
  ⟨⟨hcounted, by rw [hentries]; trivial⟩, List.prefix_refl _⟩

/-- **A region that opens at once puts its scope at the start.** -/
theorem of_opens (hscope : (task.grammar.mode k).scope = some scope)
    (hbegin : (task.grammar.mode k).excludesBegin = false)
    (hillegal : (task.grammar.mode k).content.illegal = none) :
    ((State.start task.grammar).core.take task ⟨⟨0, e⟩, .opens k⟩).StartsWith task
      [.opened scope] := by
  have hcongruent := Draft.congruent_startsWith [.opened scope]
  have hgrounded : (State.start task.grammar).core.Grounded fun e u =>
      (task.grammar.mode e.mode).content.illegal = none ∨ u.draft.StartsWith [.opened scope] :=
    ⟨Draft.counted_empty, trivial⟩
  have hopened : (((State.start task.grammar).core.draft.flush task.source
      ((State.start task.grammar).core.keywords task.grammar) 0).openScope
        (task.grammar.mode k).scope).StartsWith [.opened scope] := by
    rw [hscope]
    exact List.prefix_refl _
  refine ⟨hgrounded.take fun index hindex _ => ?_, ?_⟩
  · cases hindex
    exact .inl hillegal
  · rw [Core.take]
    dsimp only
    split
    · simp only [takeWhole, Draft.addWhole, hbegin, Bool.false_eq_true, if_false]
      exact (hcongruent.closeScope _ (hcongruent.classify ⟨hopened, rfl⟩)).1
    · simp only [openRegion, Draft.openRegion, hbegin, Bool.false_eq_true, if_false]
      exact hopened

end Core.StartsWith

/-! ### Leaves -/

section Leaves

variable {g : Grammar} {text : String} {options : Options}
  (hsound : (Scan.task g (Source.ofString text) options).IsSound) (hg : g.ScopesBegin)
include hsound hg

/-- There is a text in every node that is shown. -/
theorem hasLeaf_of_mem_nodes : ∀ n ∈ (g.highlight text options).nodes, n.HasLeaf := by
  obtain ⟨c, hruns, -, hresult⟩ := exists_runs_highlight hsound
  obtain ⟨fs, hpath, halike⟩ := (Core.Surviving.of_runs hsound hruns).survives
  have hgrowing := (Core.Growing.start (Scan.task g (Source.ofString text) options)).takeAll hg
    hsound hpath
  have hgrown := hgrowing.closed hg (hpath.pos_takeAll_le hsound (Nat.zero_le _))
  rw [hresult, ← halike.result_eq, Core.nodes_result, hgrown.toLeafy.nodes_eq]
  exact fun n hn => hgrown.leafy n (List.mem_reverse.mp hn)

/-- **A region with a scope that opens at once has the first leaf**, when nothing is illegal in
it. -/
theorem exists_head?_leaves (hscope : (g.mode k).scope = some scope)
    (hbegin : (g.mode k).excludesBegin = false) (hillegal : (g.mode k).content.illegal = none)
    (hopens : Place.next? (Scan.task g (Source.ofString text) options) [] ⟨0, []⟩ =
      some ⟨⟨0, e⟩, .opens k⟩) :
    ∃ t, (g.highlight text options).leaves.head? = some t ∧ t.scope ≠ none := by
  obtain ⟨c, hruns, hend, hresult⟩ := exists_runs_highlight hsound
  obtain ⟨children, hhead⟩ : ∃ children,
      (g.highlight text options).nodes.head? = some (.region scope children) := by
    rw [hresult]
    rcases hruns.cases_head with rfl | ⟨d, ⟨f, hnext, rfl⟩, hrest⟩
    · have hstart : (State.start g).core.next? (Scan.task g (Source.ofString text) options) =
          some ⟨⟨0, e⟩, .opens k⟩ := hopens
      rw [hend] at hstart
      cases hstart
    · obtain rfl := Option.some.inj (hopens.symm.trans hnext)
      exact Core.exists_nodes_result
        ((Core.StartsWith.of_opens hscope hbegin hillegal).of_runs hsound hrest).draft
  obtain ⟨rest, hnodes⟩ := List.head?_eq_some_iff.mp hhead
  have hleaf : Node.allLeavesIn (some scope) children ≠ [] := by
    have hmem : Node.region scope children ∈ (g.highlight text options).nodes := by
      rw [hnodes]
      exact List.mem_cons_self
    exact (hasLeaf_of_mem_nodes hsound hg _ hmem).leavesIn_ne_nil none
  obtain ⟨t, ts, hts⟩ := List.exists_cons_of_ne_nil hleaf
  refine ⟨t, ?_, Node.scope_of_mem_allLeavesIn scope children t (hts ▸ List.mem_cons_self)⟩
  rw [Highlighted.leaves, hnodes]
  show (Node.allLeavesIn (some scope) children ++ Node.allLeavesIn none rest).head? = some t
  rw [hts]
  rfl

end Leaves

end Scan

/-! ### Logs that start with a text or a keyword -/

/-- A text, or the scope of a keyword. -/
inductive Event.StartsPlain : Event → Prop
  | text (s : Span) : StartsPlain (.text s)
  | keyword (c : KeywordClass) : StartsPlain (.opened c.scope)

/-- A text, or a keyword. -/
inductive Node.IsPlain : Node → Prop
  | text (s : String) : IsPlain (.text s)
  | keyword (c : KeywordClass) (children : List Node) : IsPlain (.region c.scope children)

theorem EventLog.exists_head?_nodes_plain {source : Source} {e : Event} (h : e.StartsPlain)
    (es : List Event) :
    ∃ n, (EventLog.nodes (e :: es).toArray source).head? = some n ∧ n.IsPlain := by
  cases h with
  | text s =>
    obtain ⟨t, hhead⟩ : ∃ t, (EventLog.nodes _ source).head? = _ := head?_nodes_text s es
    exact ⟨_, hhead, .text t⟩
  | keyword c =>
    obtain ⟨ns, hhead⟩ : ∃ ns, (EventLog.nodes _ source).head? = some (.region c.scope ns) :=
      head?_nodes_opened es
    exact ⟨_, hhead, .keyword c ns⟩

namespace Scan

variable {task : Task} {barred barred' : List Bar} {c d : Core} {f : Found} {fs : List Found}
  {q : Place} {floor a b : Nat} {es : List Event}

theorem Mark.textEvents_of_lt {span : Span} (h : span.start < span.stop) :
    textEvents span = [.text span] := by
  have hempty : ¬ span.isEmpty = true := by simp [Span.isEmpty, h]
  rw [textEvents, if_neg hempty]

/-- **A stretch with a character starts with a text or a keyword.** -/
theorem exists_events_stretch (source : Source) (keywords : Option KeywordTable) (h : a < b) :
    ∃ e es, (stretch source keywords ⟨a, b⟩).flatMap Mark.events = e :: es ∧ e.StartsPlain := by
  have hempty : ¬ Span.isEmpty ⟨a, b⟩ = true := by simp [Span.isEmpty, h]
  have htext : Mark.textEvents ⟨a, b⟩ = [.text ⟨a, b⟩] := Mark.textEvents_of_lt h
  unfold stretch
  rw [if_neg hempty]
  cases keywords with
  | none => exact ⟨.text ⟨a, b⟩, [], by simp [Mark.events, htext], .text _⟩
  | some table =>
    dsimp only
    cases keywordsIn source table ⟨a, b⟩ with
    | nil => exact ⟨.text ⟨a, b⟩, [], by simp [withText, Mark.events, htext], .text _⟩
    | cons k ks =>
      -- there may be nothing in front of the first keyword
      by_cases hk : a < k.1.start
      · have htext' : Mark.textEvents ⟨a, k.1.start⟩ = [.text ⟨a, k.1.start⟩] :=
          Mark.textEvents_of_lt hk
        exact ⟨_, _, by simp only [withText, List.flatMap_cons, Mark.events, htext']; rfl, .text _⟩
      · have htext' : Mark.textEvents ⟨a, k.1.start⟩ = [] := by
          rw [Mark.textEvents, if_pos]
          simpa [Span.isEmpty] using hk
        exact ⟨_, _, by simp only [withText, List.flatMap_cons, Mark.events, htext']; rfl,
          .keyword k.2⟩

/-! ### Bars -/

theorem Core.barred_suffix_take (task : Task) (c : Core) (f : Found) :
    c.barred <:+ (c.take task f).barred := by
  by_cases honward : f.IsOnward c.modes
  · rw [Core.barred_take honward]
  · obtain ⟨hf, hmodes⟩ : f.candidate = .illegal ∧ c.modes ≠ [] := by
      simpa [Found.IsOnward] using honward
    obtain ⟨e, outer, hentries⟩ : ∃ e outer, c.entries = e :: outer :=
      List.exists_cons_of_ne_nil fun hnil => hmodes (by rw [Core.modes, hnil]; rfl)
    simp only [Core.take, hf, hentries]
    exact List.suffix_cons _ _

/-- **What is barred stays barred.** -/
theorem barred_suffix_of_runs (h : Runs task c d) : c.barred <:+ d.barred := by
  induction h with
  | refl => exact List.suffix_refl _
  | tail _ hstep ih =>
    obtain ⟨f, -, rfl⟩ := hstep
    exact ih.trans (Core.barred_suffix_take task _ f)

theorem Quiet.of_suffix {modes : List Nat} (h : Quiet task barred modes a b)
    (hsuffix : barred <:+ barred') : Quiet task barred' modes a b := by
  obtain ⟨more, rfl⟩ := hsuffix
  induction more with
  | nil => exact h
  | cons bar more ih => exact ih.cons bar

/-! ### The first thing that is recorded -/

/-- On a path nothing is taken back, so that the events at the start stay there. -/
theorem Path.startsWith_takeAll (h : Path task barred floor c.place fs q)
    (hstarts : c.draft.StartsWith es) : (c.takeAll task fs).draft.StartsWith es := by
  induction fs generalizing c with
  | nil => exact hstarts
  | cons f fs ih =>
    obtain ⟨-, honward, -, hrest⟩ := h
    rw [← Core.place_take honward] at hrest
    exact ih hrest (hstarts.take honward)

/-- The first match puts what is in front of it at the start. -/
theorem exists_startsWith_take (hsound : task.IsSound)
    (hnext : (State.start task.grammar).core.place.next? task barred = some f)
    (hpos : 0 < f.span.start) :
    ∃ e, e.StartsPlain ∧
      ((State.start task.grammar).core.take task f).draft.StartsWith [e] := by
  have hle := (Place.next?_within hsound hnext).2.1
  have hrefl := Draft.Records.refl Draft.empty
  obtain ⟨n, hn, marks, k, hrecords⟩ : ∃ n, 0 < n ∧ ∃ marks k,
      Draft.Records (stretch task.source task.grammar.root.keywords ⟨0, n⟩ ++ marks) k Draft.empty
        ((State.start task.grammar).core.take task f).draft := by
    rw [Core.take]
    cases hf : f.candidate with
    | opens m =>
      dsimp only
      split
      · have hwhole := hrefl.addWhole task.source task.grammar.root.keywords
          (task.grammar.mode m) f.span
        rw [wholeMarks] at hwhole
        split at hwhole
        · exact ⟨f.span.stop, by omega, [], _, by rw [List.append_nil]; exact hwhole⟩
        · exact ⟨f.span.start, hpos, _, _, hwhole⟩
      · have hopen := hrefl.openRegion task.source task.grammar.root.keywords
          (task.grammar.mode m) f.span none
        refine ⟨_, ?_, _, _, hopen⟩
        split <;> omega
    | closes depth => exact absurd ((Place.fits_next? hsound hnext).depth_lt hf) (Nat.not_lt_zero _)
    | illegal =>
      exact ⟨f.span.start, hpos, _, _,
        hrefl.passOver task.source task.grammar.root.keywords f.span⟩
  obtain ⟨e, es, hevents, he⟩ :=
    exists_events_stretch task.source task.grammar.root.keywords hn
  refine ⟨e, he, ?_⟩
  rw [Draft.StartsWith, hrecords.events, List.flatMap_append, hevents]
  simp [Draft.empty]

/-- **No region encloses the first character of a text at whose start all matches are barred.** -/
theorem exists_head?_nodes_of_quiet (hsound : task.IsSound) (hne : 0 < task.source.size)
    (hruns : Runs task (State.start task.grammar).core c)
    (hquiet : Quiet task c.barred [] 0 1) :
    ∃ n, (c.result task).nodes.head? = some n ∧ n.IsPlain := by
  obtain ⟨fs, hpath, halike⟩ := (Core.Surviving.of_runs hsound hruns).survives
  obtain ⟨e, rest, he, hnodes⟩ : ∃ e rest, e.StartsPlain ∧
      (c.result task).nodes = EventLog.nodes (e :: rest).toArray task.source := by
    rw [← halike.result_eq]
    cases fs with
    | nil =>
      -- nothing matches at all
      obtain ⟨e, es, hevents, he⟩ :=
        exists_events_stretch task.source task.grammar.root.keywords hne
      have hrecords := (Draft.Records.refl Draft.empty).flush task.source
        task.grammar.root.keywords task.source.size
      refine ⟨e, es, he, congrArg (EventLog.nodes · task.source) (Array.toList_inj.mp ?_)⟩
      exact hrecords.events.trans hevents
    | cons f fs =>
      obtain ⟨hnext, honward, -, hrest⟩ := hpath
      have hpos : 0 < f.span.start := by
        have hmoved := Place.next?_of_quiet hsound (Nat.zero_le 1) hquiet
        rw [hnext] at hmoved
        exact (Place.next?_within hsound hmoved.symm).1
      obtain ⟨e, he, hstarts⟩ := exists_startsWith_take hsound hnext hpos
      have hplace : ((State.start task.grammar).core.take task f).place =
          (⟨0, []⟩ : Place).after task f := Core.place_take honward
      rw [← hplace] at hrest
      obtain ⟨rest, hrest⟩ :=
        Core.exists_nodes_result_eq task (hrest.startsWith_takeAll hstarts)
      exact ⟨e, rest, he, hrest⟩
  rw [hnodes]
  exact EventLog.exists_head?_nodes_plain he rest

end Scan

end Highlighting
