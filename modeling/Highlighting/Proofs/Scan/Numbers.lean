/-
  Highlighting/Proofs/Scan/Numbers.lean
  =====================================
  **Number tokens are the literals.**

  A grammar takes numbers (`Grammar.TakesNumbers`) when its modes of that scope
  are all those that take a literal as a whole, and one of them can open outside
  of all regions, where the modes ahead of it start with other characters.

  Then a text is one number token if and only if it is a literal
  (`number_token_iff_literal`).  A literal is taken right at the start, up to
  its end, where nothing more comes.  Conversely, what a number token encloses
  is a literal that was found where it stands (`NumbersWhole`), so that a token
  with all of the text is a literal with all of the text.
-/
import Highlighting.Proofs.Grammar.Listed
import Highlighting.Proofs.NumberLiteral.Longest
import Highlighting.Proofs.Scan.Replay
import Highlighting.Proofs.Scan.Marks
import Highlighting.Proofs.Tree.First

namespace Highlighting

open Search
open NumberLiteral (matchAt? startsLiteral)

/-! ### Grammars that take numbers -/

/-- No match of the pattern that takes a character starts with one of the kind. -/
def Pattern.Avoids (kind : Char → Bool) (p : Pattern) : Prop :=
  ∀ text pos stop, endAt? (p.find text ·) pos = some stop → pos < stop →
    (text[pos]?).any kind = false

/-- The mode takes number literals as a whole. -/
structure Grammar.IsNumberMode (g : Grammar) (k : Nat) : Prop where
  scope : (g.mode k).scope = some .number
  opener : g.terminals[(g.mode k).opener]? = some ⟨.number, false⟩
  ending : (g.mode k).ending = .immediate
  excludesBegin : (g.mode k).excludesBegin = false
  keywords : (g.mode k).content.keywords = none

structure Grammar.TakesNumbers (g : Grammar) : Prop where
  whole : ∀ k, (g.mode k).scope = some .number → g.IsNumberMode k
  first : ∃ rivals k rest, g.root.contains = rivals ++ k :: rest ∧ g.IsNumberMode k ∧
    ∀ m ∈ rivals, ∀ t, g.terminals[(g.mode m).opener]? = some t → t.pattern.Avoids startsLiteral

namespace Scan

variable {task : Task} {barred : List Bar} {p : Place} {f : Found} {ms : List Move} {t : State}

/-! ### Texts that are literals -/

/-- At the end of the text only an end can come next. -/
theorem Place.isEnd_of_next? (hsound : task.IsSound) (hpos : task.source.size ≤ p.pos)
    (h : p.next? task barred = some f) : f.candidate.isEnd = true := by
  cases hend : f.candidate.isEnd with
  | true => rfl
  | false =>
    have hwithin := Place.next?_within hsound h
    have hlt := Place.lt_of_next? hsound h hend
    omega

/-- At the end of the text nothing comes next outside of all regions. -/
theorem Place.next?_at_end (hsound : task.IsSound) (barred : List Bar) :
    Place.next? task barred ⟨task.source.size, []⟩ = none := by
  cases h : Place.next? task barred ⟨task.source.size, []⟩ with
  | none => rfl
  | some f =>
    have hend := Place.isEnd_of_next? hsound (Nat.le_refl _) h
    cases hf : f.candidate with
    | closes depth => exact absurd ((Place.fits_next? hsound h).depth_lt hf) (Nat.not_lt_zero _)
    | opens m =>
      rw [hf] at hend
      cases hend
    | illegal =>
      rw [hf] at hend
      cases hend

/-- **A literal that is all of the text comes next.** -/
theorem next?_of_literal (hsound : task.IsSound) (hg : task.grammar.TakesNumbers)
    (h : matchAt? task.source 0 = some task.source.size) :
    ∃ k, task.grammar.IsNumberMode k ∧
      Place.next? task [] ⟨0, []⟩ = some ⟨⟨0, task.source.size⟩, .opens k⟩ := by
  obtain ⟨rivals, k, rest, hcontains, hk, hrivals⟩ := hg.first
  have hlt : 0 < task.source.size := (NumberLiteral.within_of_matchAt? h).1
  refine ⟨k, hk, Place.next?_of_first hsound hcontains (fun m hm => ?_) ?_⟩
  · cases hend : admittedEnd? task [] (task.grammar.mode m).opener 0 with
    | none => rfl
    | some stop =>
      -- a rival would have to start with what a literal starts with
      have hmem : m ∈ task.grammar.root.contains := by
        rw [hcontains]
        exact List.mem_append_left _ hm
      have hopener := (hsound.inOrder.mode (hsound.inOrder.root.contains m hmem)).opener
      have hlt := (admitted_of_admittedEnd? hsound hend).start_lt hopener
      obtain ⟨t, ht, hend, -⟩ := admittedEnd?_eq_some_iff.mp hend
      have havoids := hrivals m hm t ht task.source 0 stop hend hlt
      rw [NumberLiteral.startsLiteral_of_matchAt? h] at havoids
      cases havoids
  · refine admittedEnd?_eq_some_iff.mpr ⟨_, hk.opener, ?_, ?_⟩
    · rw [Pattern.endAt?_number (Nat.zero_le _)]
      exact h
    · have hempty : Span.isEmpty ⟨0, task.source.size⟩ = false :=
        decide_eq_false (Nat.not_le_of_lt hlt)
      simp only [admits, hempty]
      rfl

/-- What is recorded of a text that is one number. -/
theorem nodes_result_literal {g : Grammar} {source : Source} {options : Options} {k : Nat}
    (hk : g.IsNumberMode k) (hlt : 0 < source.size) :
    (((State.start g).core.take (Scan.task g source options)
      ⟨⟨0, source.size⟩, .opens k⟩).result (Scan.task g source options)).nodes =
        [.region .number [.text (source.slice ⟨0, source.size⟩)]] := by
  have hzero : Span.isEmpty ⟨0, 0⟩ = true := rfl
  have hall : Span.isEmpty ⟨0, source.size⟩ = false := decide_eq_false (Nat.not_le_of_lt hlt)
  have hend : Span.isEmpty ⟨source.size, source.size⟩ = true := decide_eq_true (Nat.le_refl _)
  simp only [Core.result, Core.take, Core.takeWhole, Draft.addWhole, Draft.flush, Draft.classify,
    Draft.empty, State.start, State.startWith, State.core, Scan.task, hk.ending, hk.excludesBegin,
    hk.keywords, hk.scope, hzero, hall, hend, if_true, if_false, List.map_nil, Core.modes,
    Bool.false_eq_true]
  simp only [List.foldl_nil, Draft.openScope, Draft.addText, Draft.closeScope, EventLog.openScope,
    EventLog.addText, EventLog.closeScope, hall, Bool.false_eq_true, if_false]
  rfl

/-! ### What number tokens enclose -/

/-- Wherever a number scope opens, it encloses a literal that was found there. -/
inductive NumbersWhole (source : Source) : List Event → Prop
  | nil : NumbersWhole source []
  | number {a b : Nat} {es : List Event} (h : matchAt? source a = some b)
      (hes : NumbersWhole source es) :
      NumbersWhole source (.opened .number :: .text ⟨a, b⟩ :: .closed :: es)
  | other {e : Event} {es : List Event} (h : e ≠ .opened .number) (hes : NumbersWhole source es) :
      NumbersWhole source (e :: es)

namespace NumbersWhole

variable {source : Source} {es es' : List Event}

theorem append (h : NumbersWhole source es) (h' : NumbersWhole source es') :
    NumbersWhole source (es ++ es') := by
  induction h with
  | nil => exact h'
  | number hab _ ih => exact .number hab ih
  | other hne _ ih => exact .other hne ih

theorem of_ne (h : ∀ e ∈ es, e ≠ .opened .number) : NumbersWhole source es := by
  induction es with
  | nil => exact .nil
  | cons e es ih =>
    have he : e ≠ .opened .number := h e List.mem_cons_self
    exact .other he (ih fun e' he' => h e' (List.mem_cons_of_mem _ he'))

theorem of_marks {marks : List Mark} (h : ∀ m ∈ marks, ∀ e ∈ m.events, e ≠ .opened .number) :
    NumbersWhole source (marks.flatMap Mark.events) := by
  apply of_ne
  intro e he
  obtain ⟨m, hm, he⟩ := List.mem_flatMap.mp he
  exact h m hm e he

end NumbersWhole

theorem ne_of_mem_textEvents {span : Span} {e : Event} (h : e ∈ Mark.textEvents span) :
    e ≠ .opened .number := by
  rw [Mark.textEvents] at h
  split at h
  · cases h
  · obtain rfl := List.mem_singleton.mp h
    exact Event.noConfusion

theorem ne_of_mem_keyword {span : Span} {c : KeywordClass} {w : Word} {e : Event}
    (h : e ∈ (Mark.keyword span c w).events) : e ≠ .opened .number := by
  rcases List.mem_cons.mp h with rfl | h
  · cases c <;> decide
  · rcases List.mem_append.mp h with h | h
    · exact ne_of_mem_textEvents h
    · obtain rfl := List.mem_singleton.mp h
      exact Event.noConfusion

/-- No keyword is a number. -/
theorem ne_of_mem_withText {source : Source} {stop : Nat} {ks : List (Span × KeywordClass)}
    {last : Nat} {m : Mark} (h : m ∈ withText source stop ks last) :
    ∀ e ∈ m.events, e ≠ .opened .number := by
  induction ks generalizing last with
  | nil =>
    obtain rfl := List.mem_singleton.mp h
    exact fun e => ne_of_mem_textEvents
  | cons k ks ih =>
    rcases List.mem_cons.mp h with rfl | h
    · exact fun e => ne_of_mem_textEvents
    · rcases List.mem_cons.mp h with rfl | h
      · exact fun e => ne_of_mem_keyword
      · exact ih h

theorem ne_of_mem_stretch {source : Source} {keywords : Option KeywordTable} {span : Span}
    {m : Mark} (h : m ∈ stretch source keywords span) : ∀ e ∈ m.events, e ≠ .opened .number := by
  unfold stretch at h
  split at h
  · cases h
  · cases keywords with
    | none =>
      obtain rfl := List.mem_singleton.mp h
      exact fun e => ne_of_mem_textEvents
    | some table => exact ne_of_mem_withText h

theorem numbersWhole_stretch (source text : Source) (keywords : Option KeywordTable) (span : Span) :
    NumbersWhole text ((stretch source keywords span).flatMap Mark.events) :=
  .of_marks fun _ => ne_of_mem_stretch

theorem ne_of_mem_closing {owner : Option Nat} {scope : Option Scope} {m : Mark}
    (h : m ∈ closing owner scope) : ∀ e ∈ m.events, e ≠ .opened .number := by
  obtain ⟨_, -, rfl⟩ := List.mem_map.mp h
  intro e he
  obtain rfl := List.mem_singleton.mp he
  exact Event.noConfusion

theorem numbersWhole_closing (source : Source) (owner : Option Nat) (scope : Option Scope) :
    NumbersWhole source ((closing owner scope).flatMap Mark.events) :=
  .of_marks fun _ => ne_of_mem_closing

theorem numbersWhole_closingMarks (source : Source) (g : Grammar) (os : List (Entry × Nat)) :
    NumbersWhole source ((closingMarks g os).flatMap Mark.events) := by
  apply NumbersWhole.of_marks
  intro m hm
  obtain ⟨o, -, hm⟩ := List.mem_flatMap.mp hm
  exact ne_of_mem_closing hm

theorem numbersWhole_opening (source : Source) (owner : Option Nat) {scope : Option Scope}
    (h : scope ≠ some .number) :
    NumbersWhole source ((opening owner scope).flatMap Mark.events) := by
  apply NumbersWhole.of_marks
  intro m hm e he
  obtain ⟨s, hs, rfl⟩ := List.mem_map.mp hm
  obtain rfl := List.mem_singleton.mp he
  rintro heq
  obtain rfl : s = .number := Event.opened.inj heq
  exact h (Option.mem_toList.mp hs)

/-- A mode taken as a whole records a literal, if it is one of numbers. -/
theorem numbersWhole_wholeMarks {source : Source} {keywords : Option KeywordTable} {mode : Mode}
    {span : Span} {pos : Nat}
    (h : mode.scope = some .number → mode.excludesBegin = false ∧ mode.content.keywords = none ∧
      matchAt? source span.start = some span.stop) :
    NumbersWhole source ((wholeMarks source keywords mode span pos).flatMap Mark.events) := by
  unfold wholeMarks
  by_cases hexcludes : mode.excludesBegin = true
  · rw [if_pos hexcludes]
    exact numbersWhole_stretch ..
  · rw [if_neg hexcludes, List.flatMap_append]
    refine (numbersWhole_stretch ..).append ?_
    by_cases hscope : mode.scope = some .number
    · obtain ⟨-, hkeywords, hmatch⟩ := h hscope
      have hempty : ¬ span.isEmpty = true := by
        have hlt : span.start < span.stop := (NumberLiteral.within_of_matchAt? hmatch).1
        rw [Span.isEmpty, decide_eq_true_eq]
        omega
      rw [hscope, hkeywords, stretch, if_neg hempty]
      show NumbersWhole source (.opened .number :: (Mark.textEvents span ++ [.closed]))
      rw [Mark.textEvents, if_neg hempty]
      exact .number hmatch .nil
    · rw [List.flatMap_append, List.flatMap_append]
      exact (numbersWhole_opening source none hscope).append
        ((numbersWhole_stretch ..).append (numbersWhole_closing ..))

/-- A mode that comes next opens with a match of its opener. -/
theorem exists_endAt?_of_opens (hsound : task.IsSound) {k : Nat}
    (h : p.next? task barred = some f) (hf : f.candidate = .opens k) :
    ∃ t, task.grammar.terminals[(task.grammar.mode k).opener]? = some t ∧
      endAt? (t.pattern.find task.source ·) f.span.start = some f.span.stop := by
  obtain ⟨i, index, hi, -, hend, -⟩ := (Place.next?_eq_some_iff hsound).mp h
  rw [hf] at hi
  obtain ⟨-, rfl⟩ := mem_candidates_opens.mp (List.mem_of_getElem? hi)
  obtain ⟨t, ht, hend, -⟩ := admittedEnd?_eq_some_iff.mp hend
  exact ⟨t, ht, hend⟩

/-- **A move of a scan records literals**, wherever it opens a number. -/
theorem numbersWhole_move (hsound : task.IsSound) (hg : task.grammar.TakesNumbers)
    (hran : Ran task (State.start task.grammar) ms t) (hf : (t.next? task).1 = some f) :
    NumbersWhole task.source (((t.move task f).marks task).flatMap Mark.events) := by
  have hnext : t.core.next? task = some f := by
    rw [← next?_eq_core hsound (hran.fresh hsound)]
    exact hf
  have hfound : (t.move task f).found = f := rfl
  unfold Move.marks
  rw [hfound]
  cases hcandidate : f.candidate with
  | opens k =>
    by_cases hend : (task.grammar.mode k).ending = .immediate
    · simp only [if_pos hend]
      apply numbersWhole_wholeMarks
      intro hscope
      have hk := hg.whole k hscope
      obtain ⟨t, ht, hmatch⟩ := exists_endAt?_of_opens hsound hnext hcandidate
      obtain rfl : ⟨.number, false⟩ = t := Option.some.inj (hk.opener.symm.trans ht)
      have hwithin := Place.next?_within hsound hnext
      rw [Pattern.endAt?_number (by omega)] at hmatch
      exact ⟨hk.excludesBegin, hk.keywords, hmatch⟩
    · have hscope : (task.grammar.mode k).scope ≠ some .number := by
        intro hscope
        exact hend (hg.whole k hscope).ending
      simp only [if_neg hend, List.flatMap_append]
      exact (numbersWhole_stretch ..).append (numbersWhole_opening _ _ hscope)
  | closes depth =>
    simp only [List.flatMap_append]
    exact (numbersWhole_stretch ..).append (numbersWhole_closingMarks ..)
  | illegal =>
    simp only [List.flatMap_append]
    refine (numbersWhole_stretch ..).append (.of_marks ?_)
    intro m hm
    obtain rfl := List.mem_singleton.mp hm
    exact fun e => ne_of_mem_textEvents

/-- **All that a scan records of numbers is literals.** -/
theorem numbersWhole_allMarks (hsound : task.IsSound) (hg : task.grammar.TakesNumbers)
    (hran : Ran task (State.start task.grammar) ms t) :
    NumbersWhole task.source ((allMarks task ms t).flatMap Mark.events) := by
  have hwritten : ∀ kept : List Move, kept ⊆ ms →
      NumbersWhole task.source ((written task kept).flatMap Mark.events) := by
    intro kept
    induction kept with
    | nil => exact fun _ => .nil
    | cons m kept ih =>
      intro hsubset
      obtain ⟨hm, hkept⟩ := List.cons_subset.mp hsubset
      obtain ⟨ms', u, f, hran', hf, rfl⟩ := hran.exists_of_mem hm
      rw [written, List.flatMap_append]
      exact (ih hkept).append (numbersWhole_move hsound hg hran' hf)
  rw [allMarks, List.flatMap_append, List.flatMap_append]
  exact (hwritten _ (standing_subset task ms)).append
    ((numbersWhole_stretch ..).append (numbersWhole_closingMarks ..))

/-- A log whose only node is a number has the text of a literal. -/
theorem NumbersWhole.matchAt?_of_nodes {source : Source} {es : List Event} {ns : List Node}
    (h : NumbersWhole source es)
    (hnodes : EventLog.nodes es.toArray source = [.region .number ns]) :
    ∃ a b, matchAt? source a = some b ∧ ns = [.text (source.slice ⟨a, b⟩)] := by
  induction h with
  | nil => cases hnodes
  | @number a b es hab hes _ =>
    have hhead : (EventLog.nodes _ source).head? =
        some (.region .number [.text (source.slice ⟨a, b⟩)]) :=
      EventLog.head?_nodes_enclosed ⟨a, b⟩ es
    rw [hnodes] at hhead
    obtain ⟨-, rfl⟩ := Node.region.inj (Option.some.inj hhead)
    exact ⟨a, b, hab, rfl⟩
  | @other e es hne hes ih =>
    cases e with
    | opened scope =>
      obtain ⟨ms, hhead⟩ : ∃ ms, (EventLog.nodes (Event.opened scope :: es).toArray source).head? =
          some (.region scope ms) := EventLog.head?_nodes_opened es
      rw [hnodes] at hhead
      obtain ⟨rfl, -⟩ := Node.region.inj (Option.some.inj hhead)
      exact absurd rfl hne
    | text s =>
      obtain ⟨t, hhead⟩ : ∃ t, (EventLog.nodes (Event.text s :: es).toArray source).head? =
          some (.text t) := EventLog.head?_nodes_text s es
      rw [hnodes] at hhead
      cases hhead
    | closed =>
      -- a close without an open is passed over
      have hpassed : EventLog.nodes (.closed :: es).toArray source =
          EventLog.nodes es.toArray source := by
        rw [EventLog.nodes_toArray, EventLog.nodes_toArray]
        rfl
      exact ih (hpassed.symm.trans hnodes)

/-- Only all of a text is as long as the text. -/
theorem eq_all_of_slice {source : Source} {text : String} {a b : Nat}
    (hsource : source = Source.ofString text) (hab : a < b) (hb : b ≤ source.size)
    (h : source.slice ⟨a, b⟩ = text) : a = 0 ∧ b = source.size := by
  have hsize : source.size = text.toList.length := by
    rw [hsource]
    simp [Source.ofString]
  have hlength : text.toList.length = b - a := by
    rw [← h, Source.slice, String.toList_ofList, Source.chars]
    simp only [Array.length_toList, Array.size_extract, Nat.min_eq_left hb]
  omega

/-- **A text is one number token if and only if it is a literal.** -/
theorem number_token_iff_literal {g : Grammar} {text : String} {options : Options}
    (hg : g.TakesNumbers) (hsound : (Scan.task g (Source.ofString text) options).IsSound) :
    (g.highlight text options).tokens = [⟨some .number, text⟩] ↔
      text.toList ∈ NumberLiteral.literal := by
  have hlist : (Source.ofString text).toList = text.toList := rfl
  rw [← hlist, ← NumberLiteral.matchAt?_zero_eq_size_iff]
  constructor
  · intro htokens
    obtain ⟨n, hnodes, htoken⟩ := List.map_eq_singleton_iff.mp htokens
    obtain ⟨ms, t, hran, hresult⟩ := exists_ran_highlight g text options
    have hlog := (result_of_ran hran).1
    rw [← hresult, hnodes] at hlog
    cases n with
    | text s => cases htoken
    | region scope ns =>
      obtain ⟨hscope, hcontents⟩ := Token.mk.inj htoken
      obtain rfl : scope = .number := Option.some.inj hscope
      obtain ⟨a, b, hab, rfl⟩ :=
        (numbersWhole_allMarks hsound hg hran).matchAt?_of_nodes hlog.symm
      have hwithin := NumberLiteral.within_of_matchAt? hab
      have hslice : (Source.ofString text).slice ⟨a, b⟩ = text :=
        (String.append_empty (s := (Source.ofString text).slice ⟨a, b⟩)).symm.trans hcontents
      obtain ⟨rfl, rfl⟩ := eq_all_of_slice rfl hwithin.1 hwithin.2 hslice
      exact hab
  · intro hmatch
    obtain ⟨k, hk, hnext⟩ := next?_of_literal hsound hg hmatch
    have hlt : 0 < (Source.ofString text).size := (NumberLiteral.within_of_matchAt? hmatch).1
    have hruns : Runs (Scan.task g (Source.ofString text) options) (State.start g).core
        ((State.start g).core.take (Scan.task g (Source.ofString text) options)
          ⟨⟨0, (Source.ofString text).size⟩, .opens k⟩) :=
      .single ⟨_, hnext, rfl⟩
    have hend : Core.next? (Scan.task g (Source.ofString text) options)
        ((State.start g).core.take (Scan.task g (Source.ofString text) options)
          ⟨⟨0, (Source.ofString text).size⟩, .opens k⟩) = none := by
      have hplace := Place.next?_at_end hsound []
      rw [Core.take]
      simp only [if_pos hk.ending]
      exact hplace
    rw [Highlighted.tokens, highlight_eq_result_of_runs hsound hruns hend,
      nodes_result_literal (g := g) hk hlt, Source.slice_ofString]
    simp [Node.token, Node.contents, Node.content]

end Scan

end Highlighting
