/-
  Highlighting/Proofs/Scan/Abandonment.lean
  =========================================
  **What a region must not contain never gets into its text.**

  A mode that names some characters as illegal is given up where one of them
  comes next.  So as long as its region goes on, the text that waits in the
  buffer is free of them (`spares_of_quiet`), and so is all that is recorded in
  the scope of the region, when its own delimiters and those of the modes inside
  of it are (`Core.Warded.take`).

  A scan may well go on behind an illegal character for a while, in a region
  inside.  But what is shown in the end is what a scan shows that takes nothing
  back (`Core.Surviving`), and that one never meets an illegal character inside
  of a region.  For this, no opening may be barred in place of an illegal
  character: all bars are for terminals that open modes (`Core.BarsOpeners`).
-/
import Highlighting.Proofs.Grammar.Lines
import Highlighting.Proofs.Scan.Brackets
import Highlighting.Proofs.Scan.Wards

namespace Highlighting

open Search

/-! ### Grammars that enforce a ward -/

variable {w : Ward} {g : Grammar} {reach shut : List Nat}

/-- Where the scope is the closest, the mode may open: it adds nothing banned to the text of that
scope, and lets no region of its own go unnoticed in it. -/
structure Mode.KeepsAround (w : Ward) (g : Grammar) (scope : Option Scope) (m : Mode) : Prop where
  region : m.ending ≠ .immediate → m.scope ≠ none
  opener : m.excludesBegin = true ∨ m.ending = .immediate ∧ m.scope = none →
    g.Passes (Pattern.sparesAll (w.bannedIn scope)) m.opener ∨
      m.excludesBegin = false ∧ m.content.keywords = none ∧
        g.Passes (Pattern.takesPair (w.shieldsIn scope) (w.bannedIn scope)) m.opener
  ending : m.excludesEnd = true → ∀ t, m.ending = .pattern t →
    g.Passes (Pattern.sparesAll (w.bannedIn scope)) t

/-- The text of the mode has nothing banned in it: its delimiters have not, what is banned is
illegal, and nothing inside brings it in. -/
structure Mode.KeepsInside (w : Ward) (g : Grammar) (m : Mode) : Prop where
  opener : m.excludesBegin = true ∨ g.Passes (Pattern.sparesAll (w.bannedIn m.scope)) m.opener
  ending : m.excludesEnd = true ∨ ∀ t, m.ending = .pattern t →
    g.Passes (Pattern.sparesAll (w.bannedIn m.scope)) t
  illegal : m.ending = .immediate ∨ w.bannedIn m.scope = [] ∨
    ∃ t, m.content.illegal = some t ∧ g.Passes (Pattern.takesEach (w.bannedIn m.scope)) t ∧
      ∀ k < g.modes.size, (g.mode k).opener ≠ t
  contains : w.bannedIn m.scope = [] ∨
    ∀ n ∈ m.content.contains, (g.mode n).KeepsAround w g m.scope

/-- **The grammar enforces the ward**, as far as only modes of one list open, and those of another
do not. -/
structure Grammar.Enforces (w : Ward) (reach shut : List Nat) (g : Grammar) : Prop where
  words : ∀ c : KeywordClass, w.banned c.scope = []
  root : ∀ n ∈ g.root.contains, n ∈ reach ∨ n ∈ shut
  inside : ∀ k ∈ reach, ∀ n ∈ (g.mode k).content.contains, n ∈ reach ∨ n ∈ shut
  ends : ∀ k ∈ reach, (g.mode k).ending ≠ .withParent ∧
    ((g.mode k).endsParent = true → (g.mode k).excludesEnd = false)
  mode : ∀ k ∈ reach, (g.mode k).KeepsInside w g

namespace Scan

variable {task : Task} {barred : List Bar} {modes : List Nat} {a b : Nat}

/-! ### Only openers are barred -/

/-- What opened the regions and what is barred opens modes. -/
structure Core.BarsOpeners (g : Grammar) (c : Core) : Prop where
  entries : ∀ e ∈ c.entries, ∃ k < g.modes.size, e.opener = (g.mode k).opener
  barred : ∀ b ∈ c.barred, ∃ k < g.modes.size, b.1 = (g.mode k).opener

namespace Core.BarsOpeners

variable {c : Core} {f : Found}

theorem start (g : Grammar) : (State.start g).core.BarsOpeners g :=
  ⟨fun _ he => (nomatch he), fun _ hb => (nomatch hb)⟩

theorem take (hsound : task.IsSound) (h : c.BarsOpeners task.grammar)
    (hnext : c.next? task = some f) : (c.take task f).BarsOpeners task.grammar := by
  rw [Core.take]
  cases hf : f.candidate with
  | opens m =>
    dsimp only
    split
    · exact ⟨h.entries, h.barred⟩
    · have hm : m < task.grammar.modes.size := by
        obtain ⟨index, hmem, -⟩ := (Place.fits_next? hsound hnext).admitted
        rw [hf] at hmem
        exact (contentOf_inOrder hsound.inOrder c.modes).contains m (mem_candidates_opens.mp hmem).1
      refine ⟨fun e he => ?_, h.barred⟩
      rcases List.mem_cons.mp he with rfl | he
      · exact ⟨m, hm, rfl⟩
      · exact h.entries e he
  | closes depth => exact ⟨fun e he => h.entries e (List.mem_of_mem_drop he), h.barred⟩
  | illegal =>
    dsimp only
    split
    · exact ⟨h.entries, h.barred⟩
    · next e outer hcons =>
      refine ⟨fun e' he' => h.entries e' (by rw [hcons]; exact List.mem_cons_of_mem e he'), ?_⟩
      intro b hb
      rcases List.mem_cons.mp hb with rfl | hb
      · exact h.entries e (by rw [hcons]; exact List.mem_cons_self)
      · exact h.barred b hb

/-- **A scan only ever bars openings.** -/
theorem of_runs (hsound : task.IsSound) (h : Runs task (State.start task.grammar).core c) :
    c.BarsOpeners task.grammar := by
  induction h with
  | refl => exact .start task.grammar
  | tail _ hstep ih =>
    obtain ⟨f, hnext, rfl⟩ := hstep
    exact ih.take hsound hnext

end Core.BarsOpeners

/-! ### The open regions -/

/-- The scopes that regions of these modes have open, innermost first. -/
def openScopes (g : Grammar) (modes : List Nat) : List Scope :=
  modes.flatMap fun m => (g.mode m).scope.toList

theorem openScopes_cons (g : Grammar) (m : Nat) (modes : List Nat) :
    openScopes g (m :: modes) = (g.mode m).scope.toList ++ openScopes g modes := List.flatMap_cons

/-- Each region is of a mode that can open where it is, and one without a scope is in no scope
that bans anything. -/
def Guarded (w : Ward) (g : Grammar) (reach : List Nat) : List Nat → Prop
  | [] => True
  | k :: outer =>
    k ∈ reach ∧ k ∈ (contentOf g outer).contains ∧ (g.mode k).ending ≠ .immediate ∧
      ((g.mode k).scope = none → w.bannedIn (openScopes g outer).head? = []) ∧
        Guarded w g reach outer

namespace Guarded

theorem drop (h : Guarded w g reach modes) (n : Nat) : Guarded w g reach (modes.drop n) := by
  induction n generalizing modes with
  | zero => exact h
  | succ n ih =>
    cases modes with
    | nil => trivial
    | cons k outer => exact ih h.2.2.2.2

/-- Where something is banned, it is by the scope of the innermost region. -/
theorem exists_top (h : Guarded w g reach modes)
    (hne : w.bannedIn (openScopes g modes).head? ≠ []) :
    ∃ k outer, modes = k :: outer ∧ k ∈ reach ∧ (g.mode k).ending ≠ .immediate ∧
      (openScopes g modes).head? = (g.mode k).scope := by
  cases modes with
  | nil => exact absurd rfl hne
  | cons k outer =>
    obtain ⟨hreach, -, hregion, hnone, -⟩ := h
    refine ⟨k, outer, rfl, hreach, hregion, ?_⟩
    rw [openScopes_cons] at hne ⊢
    cases hscope : (g.mode k).scope with
    | none =>
      rw [hscope] at hne
      exact absurd (hnone hscope) hne
    | some s => rfl

variable (hg : g.Enforces w reach shut)
include hg

/-- What can open where something is banned does not bring it in. -/
theorem keepsAround (h : Guarded w g reach modes)
    (hne : w.bannedIn (openScopes g modes).head? ≠ []) {n : Nat}
    (hn : n ∈ (contentOf g modes).contains) :
    (g.mode n).KeepsAround w g (openScopes g modes).head? := by
  obtain ⟨k, outer, rfl, hreach, -, hscope⟩ := h.exists_top hne
  rw [hscope] at hne ⊢
  exact (hg.mode k hreach).contains.resolve_left hne n hn

theorem cons (h : Guarded w g reach modes) {n : Nat} (hreach : n ∈ reach)
    (hn : n ∈ (contentOf g modes).contains) (hregion : (g.mode n).ending ≠ .immediate) :
    Guarded w g reach (n :: modes) := by
  refine ⟨hreach, hn, hregion, fun hscope => ?_, h⟩
  by_contra hne
  exact (h.keepsAround hg hne hn).region hregion hscope

theorem reach_or_shut (h : Guarded w g reach modes) {n : Nat}
    (hn : n ∈ (contentOf g modes).contains) : n ∈ reach ∨ n ∈ shut := by
  cases modes with
  | nil => exact hg.root n hn
  | cons k outer => exact hg.inside k h.1 n hn

end Guarded

theorem endAt?_passes {check : Pattern → Bool} {index p stop : Nat}
    (h : task.grammar.Passes check index) (hend : admittedEnd? task barred index p = some stop) :
    ∃ pattern : Pattern, check pattern = true ∧
      endAt? (pattern.find task.source ·) p = some stop := by
  obtain ⟨t, ht, hend, -⟩ := admittedEnd?_eq_some_iff.mp hend
  exact ⟨t.pattern, h t ht, hend⟩

/-- **In a quiet stretch stands nothing that is banned.** -/
theorem spares_of_quiet (hsound : task.IsSound) (hg : task.grammar.Enforces w reach shut)
    (hlegal : task.options.ignoreIllegals = false) (hmodes : Guarded w task.grammar reach modes)
    (hbars : ∀ b ∈ barred, ∃ k < task.grammar.modes.size, b.1 = (task.grammar.mode k).opener)
    (hquiet : Quiet task barred modes a b) :
    task.source.Spares (w.bannedIn (openScopes task.grammar modes).head?) a b := by
  by_cases hne : w.bannedIn (openScopes task.grammar modes).head? = []
  · exact .of_eq_nil hne
  obtain ⟨k, outer, rfl, hreach, hregion, hscope⟩ := hmodes.exists_top hne
  rw [hscope] at hne ⊢
  obtain ⟨t, ht, htakes, hopeners⟩ :=
    ((hg.mode k hreach).illegal.resolve_left hregion).resolve_left hne
  obtain ⟨terminal, hterminal, -⟩ := (contentOf_inOrder hsound.inOrder (k :: outer)).illegal t ht
  intro p hap hpb c hc hp
  have hend := Pattern.endAt?_of_takesEach (htakes terminal hterminal) hc hp
  have hbar : (t, p) ∉ barred := by
    intro hmem
    obtain ⟨j, hj, hopener⟩ := hbars (t, p) hmem
    exact hopeners j hj hopener.symm
  have hadmitted : admittedEnd? task barred t p = some (p + 1) := by
    refine admittedEnd?_eq_some_iff.mpr ⟨terminal, hterminal, hend, ?_⟩
    simp [admits, Span.isEmpty, hbar]
  rw [hquiet (t, .illegal) (mem_candidates_illegal.mpr ⟨hlegal, ht⟩) p hap hpb] at hadmitted
  cases hadmitted

/-! ### Cores -/

/-- What is recorded keeps to the ward, and what waits in the buffer is free of all that is banned
where it will be recorded. -/
structure Core.Warded (w : Ward) (reach : List Nat) (task : Task) (c : Core) : Prop where
  guarded : Guarded w task.grammar reach c.modes
  draft : c.draft.Kept w task.source (openScopes task.grammar c.modes)
  buffer : task.source.Spares (w.bannedIn (openScopes task.grammar c.modes).head?)
    c.draft.bufferStart c.pos

/-- Regions of these modes may close. -/
theorem Draft.Kept.closeRegions {source : Source} {g : Grammar} {keywords : Option KeywordTable}
    {d : Draft} {stop : Nat} (closed rest : List Nat) (hmodes : modes = closed ++ rest)
    (h : (d.flush source keywords stop).Kept w source (openScopes g modes)) :
    (d.closeRegions source keywords stop (closed.map g.mode)).Kept w source
      (openScopes g rest) := by
  rw [Draft.closeRegions]
  generalize d.flush source keywords stop = e at h
  subst hmodes
  induction closed generalizing e with
  | nil => exact h
  | cons m closed ih =>
    rw [List.cons_append, openScopes_cons] at h
    exact ih _ ((h.closeScope _).of_forest rfl)

namespace Core.Warded

variable {c : Core} {f : Found} {fs : List Found} {q : Place} {floor : Nat} {n stop : Nat}

theorem start (w : Ward) (reach : List Nat) (task : Task) :
    (State.start task.grammar).core.Warded w reach task :=
  ⟨trivial, .empty w task.source, .of_le (Nat.le_refl 0)⟩

variable (hg : task.grammar.Enforces w reach shut)
include hg

/-- Up to an opening match, or up to its end where the match stays outside, the text is free of
what is banned around. -/
theorem spares_opening (h : c.Warded w reach task)
    (hn : n ∈ (contentOf task.grammar c.modes).contains)
    (hspares : task.source.Spares (w.bannedIn (openScopes task.grammar c.modes).head?)
      c.draft.bufferStart f.span.start)
    (hend : admittedEnd? task barred (task.grammar.mode n).opener f.span.start = some f.span.stop) :
    task.source.Spares (w.bannedIn (openScopes task.grammar c.modes).head?) c.draft.bufferStart
      (if (task.grammar.mode n).excludesBegin then f.span.stop else f.span.start) := by
  split
  · next hexcludes =>
    by_cases hne : w.bannedIn (openScopes task.grammar c.modes).head? = []
    · exact .of_eq_nil hne
    · have haround := h.guarded.keepsAround hg hne hn
      rcases haround.opener (.inl hexcludes) with hopener | ⟨hnot, -, -⟩
      · obtain ⟨pattern, hpattern, hend⟩ := endAt?_passes hopener hend
        exact hspares.trans (Pattern.spares_of_sparesAll hpattern hend)
      · rw [hexcludes] at hnot
        cases hnot
  · exact hspares

/-- Where no scope comes about, an opening match is recorded as text of the scope around. -/
theorem classify_unscoped (h : Guarded w task.grammar reach modes) {d : Draft}
    (hd : d.Kept w task.source (openScopes task.grammar modes))
    (hn : n ∈ (contentOf task.grammar modes).contains)
    (himmediate : (task.grammar.mode n).ending = .immediate)
    (hscope : (task.grammar.mode n).scope = none)
    (hend : admittedEnd? task barred (task.grammar.mode n).opener a = some b) :
    (d.classify task.source (task.grammar.mode n).content.keywords ⟨a, b⟩).Kept w task.source
      (openScopes task.grammar modes) := by
  by_cases hne : w.bannedIn (openScopes task.grammar modes).head? = []
  · exact hd.classify hg.words _ (.of_eq_nil hne)
  rcases (h.keepsAround hg hne hn).opener (.inr ⟨himmediate, hscope⟩) with hopener | hpair
  · obtain ⟨pattern, hpattern, hend⟩ := endAt?_passes hopener hend
    exact hd.classify hg.words _ (Pattern.spares_of_sparesAll hpattern hend)
  · obtain ⟨-, hkeywords, hopener⟩ := hpair
    obtain ⟨pattern, hpattern, hend⟩ := endAt?_passes hopener hend
    obtain ⟨s, hs, hbanned, c, hchars⟩ := Pattern.exists_shield_of_takesPair hpattern hend
    rw [hkeywords]
    refine hd.classify_none ⟨a, b⟩ ?_
    rw [Source.slice, String.toList_ofList, hchars]
    exact Ward.keeps_pair hs hbanned

/-- The text of a mode that has no end. -/
theorem addWhole (h : c.Warded w reach task) (hreach : n ∈ reach)
    (hn : n ∈ (contentOf task.grammar c.modes).contains)
    (himmediate : (task.grammar.mode n).ending = .immediate)
    (hspares : task.source.Spares (w.bannedIn (openScopes task.grammar c.modes).head?)
      c.draft.bufferStart f.span.start)
    (hend : admittedEnd? task barred (task.grammar.mode n).opener f.span.start = some f.span.stop) :
    (c.draft.addWhole task.source (c.keywords task.grammar) (task.grammar.mode n) f.span).Kept w
      task.source (openScopes task.grammar c.modes) := by
  have hopening := h.spares_opening hg hn hspares hend
  simp only [Draft.addWhole]
  split
  · next hexcludes =>
    rw [if_pos hexcludes] at hopening
    exact (h.draft.flush hg.words _ hopening).of_forest rfl
  · next hexcludes =>
    have hflush := h.draft.flush hg.words (c.keywords task.grammar) hspares
    refine Draft.Kept.of_forest (Draft.Kept.closeScope (task.grammar.mode n).scope ?_) rfl
    cases hscope : (task.grammar.mode n).scope with
    | none => exact classify_unscoped hg h.guarded hflush hn himmediate hscope hend
    | some s =>
      refine (hflush.openScope (some s)).classify hg.words _ ?_
      have hopener := (hg.mode n hreach).opener.resolve_left hexcludes
      rw [hscope] at hopener
      obtain ⟨pattern, hpattern, hend⟩ := endAt?_passes hopener hend
      exact Pattern.spares_of_sparesAll hpattern hend

theorem openRegion (h : c.Warded w reach task) (hreach : n ∈ reach)
    (hn : n ∈ (contentOf task.grammar c.modes).contains)
    (hregion : (task.grammar.mode n).ending ≠ .immediate)
    (hspares : task.source.Spares (w.bannedIn (openScopes task.grammar c.modes).head?)
      c.draft.bufferStart f.span.start)
    (hend : admittedEnd? task barred (task.grammar.mode n).opener f.span.start = some f.span.stop) :
    (c.openRegion task n f.span).Warded w reach task := by
  have hopening := h.spares_opening hg hn hspares hend
  have hguarded : Guarded w task.grammar reach (n :: c.modes) := h.guarded.cons hg hreach hn hregion
  have hflush := h.draft.flush hg.words (c.keywords task.grammar) hopening
  refine ⟨hguarded, ?_, ?_⟩
  · show Draft.Kept w task.source (openScopes task.grammar (n :: c.modes)) _
    rw [openScopes_cons]
    exact hflush.openScope _
  · show task.source.Spares (w.bannedIn (openScopes task.grammar (n :: c.modes)).head?)
      (c.draft.flush task.source _ _).bufferStart f.span.stop
    rw [Draft.bufferStart_flush]
    split
    · exact .of_le (Nat.le_refl _)
    · next hexcludes =>
      by_cases hne : w.bannedIn (openScopes task.grammar (n :: c.modes)).head? = []
      · exact .of_eq_nil hne
      · obtain ⟨k, outer, heq, -, -, hscope⟩ := hguarded.exists_top hne
        obtain ⟨rfl, rfl⟩ : n = k ∧ c.modes = outer := by simpa using heq
        rw [hscope]
        obtain ⟨pattern, hpattern, hend⟩ :=
          endAt?_passes ((hg.mode n hreach).opener.resolve_left hexcludes) hend
        exact Pattern.spares_of_sparesAll hpattern hend

/-- An end is that of the innermost region. -/
theorem exists_closed (h : Guarded w task.grammar reach modes) {depth index : Nat}
    (hclose : closer? task.grammar modes 0 = some (index, depth)) :
    depth = 0 ∧ ∃ k outer, modes = k :: outer ∧ k ∈ reach ∧
      (task.grammar.mode k).ending = .pattern index := by
  cases modes with
  | nil => cases hclose
  | cons k outer =>
    obtain ⟨hreach, -, -, -, -⟩ := h
    rw [closer?] at hclose
    split at hclose
    · next t ht =>
      cases hclose
      exact ⟨rfl, k, outer, rfl, hreach, ht⟩
    · next hparent => exact absurd hparent (hg.ends k hreach).1
    · cases hclose
    · cases hclose

/-- The text of the innermost region goes up to the edge of its end. -/
theorem spares_closing {k : Nat} {outer : List Nat} {index : Nat} (hmodes : c.modes = k :: outer)
    (h : c.Warded w reach task) (hending : (task.grammar.mode k).ending = .pattern index)
    (hspares : task.source.Spares (w.bannedIn (openScopes task.grammar c.modes).head?)
      c.draft.bufferStart f.span.start)
    (hend : admittedEnd? task barred index f.span.start = some f.span.stop) :
    task.source.Spares (w.bannedIn (openScopes task.grammar c.modes).head?) c.draft.bufferStart
      (State.closingEdge task.grammar c.modes f.span) := by
  rw [hmodes, State.closingEdge, ← hmodes]
  split
  · exact hspares
  · next hexcludes =>
    by_cases hne : w.bannedIn (openScopes task.grammar c.modes).head? = []
    · exact .of_eq_nil hne
    · obtain ⟨k', outer', heq, hreach, -, hscope⟩ := h.guarded.exists_top hne
      obtain ⟨rfl, rfl⟩ : k = k' ∧ outer = outer' := by simpa using hmodes.symm.trans heq
      rw [hscope] at hspares ⊢
      have hcloser := (hg.mode k hreach).ending.resolve_left hexcludes index hending
      obtain ⟨pattern, hpattern, hend⟩ := endAt?_passes hcloser hend
      exact hspares.trans (Pattern.spares_of_sparesAll hpattern hend)

theorem closes (h : c.Warded w reach task) {depth index : Nat}
    (hclose : closer? task.grammar c.modes 0 = some (index, depth))
    (hspares : task.source.Spares (w.bannedIn (openScopes task.grammar c.modes).head?)
      c.draft.bufferStart f.span.start)
    (hend : admittedEnd? task barred index f.span.start = some f.span.stop) :
    (c.closes task depth f.span).Warded w reach task := by
  obtain ⟨rfl, k, outer, hmodes, hreach, hending⟩ := exists_closed hg h.guarded hclose
  have hclosing := h.spares_closing hg hmodes hending hspares hend
  have hdrop : (c.closes task 0 f.span).modes =
      c.modes.drop (State.closedBy task.grammar c.modes 0) := List.map_drop ..
  refine ⟨?_, ?_, ?_⟩
  · rw [hdrop]
    exact h.guarded.drop _
  · rw [hdrop]
    refine Draft.Kept.closeRegions _ _ (List.take_append_drop _ c.modes).symm ?_
    exact h.draft.flush hg.words _ hclosing
  · rw [hdrop]
    show task.source.Spares _ (Draft.closeRegions ..).bufferStart f.span.stop
    rw [Draft.bufferStart_closeRegions, hmodes, State.closingEdge]
    split
    · next hexcludes =>
      -- then the match belongs to the region around
      have hcount : State.closedBy task.grammar (k :: outer) 0 = 1 := by
        have hparent : (task.grammar.mode k).endsParent ≠ true := by
          intro hparent
          rw [(hg.ends k hreach).2 hparent] at hexcludes
          cases hexcludes
        rw [State.closedBy, List.drop_zero, State.closedWith, if_neg hparent]
      rw [hcount, List.drop_one, List.tail_cons]
      have hguarded := h.guarded
      rw [hmodes] at hguarded
      obtain ⟨-, hcontains, -, -, houter⟩ := hguarded
      by_cases hne : w.bannedIn (openScopes task.grammar outer).head? = []
      · exact .of_eq_nil hne
      · have haround := houter.keepsAround hg hne hcontains
        obtain ⟨pattern, hpattern, hend⟩ :=
          endAt?_passes (haround.ending hexcludes index hending) hend
        exact Pattern.spares_of_sparesAll hpattern hend
    · exact .of_le (Nat.le_refl _)

/-- Outside of all regions nothing is banned. -/
theorem passOver (h : c.Warded w reach task) (hnil : c.modes = []) :
    (c.passOver task f.span).Warded w reach task := by
  have hnone : ∀ a b,
      task.source.Spares (w.bannedIn (openScopes task.grammar c.modes).head?) a b := by
    intro a b
    rw [hnil]
    exact .of_eq_nil rfl
  refine ⟨h.guarded, ?_, hnone _ _⟩
  have hflush := h.draft.flush hg.words (c.keywords task.grammar)
    (hnone c.draft.bufferStart f.span.start)
  have htext := hflush.addText ⟨f.span.start, Draft.passedAt task.source f.span⟩ (hnone _ _).keeps
  refine htext.of_forest ?_
  show (Draft.passOver ..).forest task.source = _
  simp only [Draft.passOver, Draft.flush_setIllegal]
  rfl

/-- **Whatever comes next is taken so that nothing that is banned gets into a text.** -/
theorem take (hsound : task.IsSound) (hlegal : task.options.ignoreIllegals = false)
    (hshut : ∀ n ∈ shut, ∀ p, admittedEnd? task barred (task.grammar.mode n).opener p = none)
    (hbars : ∀ b ∈ barred, ∃ k < task.grammar.modes.size, b.1 = (task.grammar.mode k).opener)
    (h : c.Warded w reach task) (hnext : c.place.next? task barred = some f)
    (honward : f.IsOnward c.modes) : (c.take task f).Warded w reach task := by
  obtain ⟨i, index, hi, hpos, hend, -⟩ := (Place.next?_eq_some_iff hsound).mp hnext
  have hmem := List.mem_of_getElem? hi
  have hspares := h.buffer.trans
    (spares_of_quiet hsound hg hlegal h.guarded hbars (Place.quiet_of_next? hsound hnext))
  rw [Core.take]
  cases hf : f.candidate with
  | opens n =>
    rw [hf] at hmem
    obtain ⟨hn, rfl⟩ := mem_candidates_opens.mp hmem
    have hreach : n ∈ reach := by
      rcases h.guarded.reach_or_shut hg hn with hreach | hn
      · exact hreach
      · rw [hshut n hn] at hend
        cases hend
    dsimp only
    split
    · next himmediate =>
      refine ⟨h.guarded, h.addWhole hg hreach hn himmediate hspares hend, .of_le ?_⟩
      exact Nat.le_of_eq (Draft.bufferStart_addWhole _).symm
    · next hregion => exact h.openRegion hg hreach hn hregion hspares hend
  | closes depth =>
    rw [hf] at hmem
    exact h.closes hg (mem_candidates_closes.mp hmem) hspares hend
  | illegal =>
    have hnil : c.modes = [] := honward hf
    have hentries : c.entries = [] := List.map_eq_nil_iff.mp hnil
    rw [hentries]
    exact h.passOver hg hnil

/-- **Along a path, nothing that is banned gets into a text.** -/
theorem takeAll (hsound : task.IsSound) (hlegal : task.options.ignoreIllegals = false)
    (hshut : ∀ n ∈ shut, ∀ p, admittedEnd? task barred (task.grammar.mode n).opener p = none)
    (hbars : ∀ b ∈ barred, ∃ k < task.grammar.modes.size, b.1 = (task.grammar.mode k).opener)
    (h : c.Warded w reach task) (hpath : Path task barred floor c.place fs q) :
    (c.takeAll task fs).Warded w reach task := by
  induction fs generalizing c with
  | nil => exact h
  | cons f fs ih =>
    obtain ⟨hnext, honward, -, hrest⟩ := hpath
    rw [← Core.place_take honward] at hrest
    exact ih (h.take hg hsound hlegal hshut hbars hnext honward) hrest

/-- Regions may still be open in the end, where the rest of the text is free of what is banned. -/
theorem closed (h : c.Warded w reach task)
    (hspares : task.source.Spares (w.bannedIn (openScopes task.grammar c.modes).head?)
      c.pos task.source.size) : (c.closed task).Kept w task.source [] := by
  have hflush := h.draft.flush hg.words (c.keywords task.grammar) (h.buffer.trans hspares)
  rw [Core.closed]
  generalize c.draft.flush task.source (c.keywords task.grammar) task.source.size = d at hflush
  generalize c.modes = modes at hflush
  induction modes generalizing d with
  | nil => exact hflush
  | cons m modes ih =>
    rw [openScopes_cons] at hflush
    exact ih _ (hflush.closeScope _)

/-- What a scan has recorded in the end is also what is recorded on a path, where nothing that is
banned gets into a text. -/
theorem exists_closed_kept (hsound : task.IsSound) (hlegal : task.options.ignoreIllegals = false)
    (hshut : ∀ n ∈ shut, ∀ barred p,
      admittedEnd? task barred (task.grammar.mode n).opener p = none)
    (hruns : Runs task (State.start task.grammar).core c) (hend : c.next? task = none) :
    ∃ d : Core, d.Alike c ∧ (d.closed task).Kept w task.source [] := by
  obtain ⟨fs, hpath, halike⟩ := (Core.Surviving.of_runs hsound hruns).survives
  have hbars := (Core.BarsOpeners.of_runs hsound hruns).barred
  have hwarded := (Core.Warded.start w reach task).takeAll hg hsound hlegal
    (fun n hn p => hshut n hn c.barred p) hbars hpath
  have htail := Path.quiet_takeAll (c := (State.start task.grammar).core) hpath
  generalize (State.start task.grammar).core.takeAll task fs = d at halike hwarded htail
  refine ⟨d, halike, hwarded.closed hg ?_⟩
  refine spares_of_quiet hsound hg hlegal hwarded.guarded hbars fun e he p hp _ => ?_
  exact (Place.next?_eq_none_iff hsound).mp ((htail.next?_eq hsound).trans hend) e he p hp

end Core.Warded

/-- **Every leaf keeps to a ward that the grammar enforces**, where none of the modes opens that
are taken not to. -/
theorem keeps_of_mem_leaves {text : String} {options : Options}
    (hsound : (Scan.task g (Source.ofString text) options).IsSound) (hg : g.Enforces w reach shut)
    (hlegal : options.ignoreIllegals = false)
    (hshut : ∀ n ∈ shut, ∀ barred p,
      admittedEnd? (Scan.task g (Source.ofString text) options) barred (g.mode n).opener p = none)
    {t : Token} (ht : t ∈ (g.highlight text options).leaves) : w.Keeps t.scope t.text.toList := by
  obtain ⟨c, hruns, hend, hresult⟩ := exists_runs_highlight hsound
  obtain ⟨d, halike, hkept⟩ := Core.Warded.exists_closed_kept hg hsound hlegal hshut hruns hend
  rw [hresult, ← halike.result_eq, Highlighted.leaves, Core.nodes_result, hkept.nodes_eq] at ht
  obtain ⟨n, hn, ht⟩ := Node.mem_allLeavesIn.mp ht
  exact hkept.kept.top n (List.mem_reverse.mp hn) t ht

end Scan

end Highlighting
