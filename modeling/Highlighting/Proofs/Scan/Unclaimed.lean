/-
  Highlighting/Proofs/Scan/Unclaimed.lean
  =======================================
  **Texts that no pattern claims.**

  Where nothing opens outside of all regions, and nothing is illegal there, the
  scan is over at once, and the whole text is recorded with the keywords of the
  outermost level.  If none of its words is one, it stays a single token without
  a scope (`tokens_of_unclaimed`).
-/
import Highlighting.Proofs.Grammar.Lines
import Highlighting.Proofs.Scan.Alongside
import Highlighting.Proofs.Scan.Replay

namespace Highlighting

open Search

namespace Builder

open Scan

variable {b : Builder} {language : LanguageDecl} {check : Pattern → Bool} {g : Grammar}
  {source : Source} {options : Options} {k : Nat}

/-- What can match outside of all regions passes a check. -/
def outermost (b : Builder) (language : LanguageDecl) (check : Pattern → Bool) : Bool :=
  language.contains.all (b.modeAt (·.opensWith b check)) && language.illegal.all (b.passes check)

/-- What can match in a region of the mode does, if no other one is around it. -/
def inside (b : Builder) (check : Pattern → Bool) : Nat → Bool :=
  b.modeAt fun m => m.contains.all (b.modeAt (·.opensWith b check)) &&
    m.ending.pattern?.all (b.passes check) && m.illegal.all (b.passes check)

theorem opener_passes_of_all (hfinish : b.finish language = .ok g) {ks : List Nat}
    (h : ks.all (b.modeAt (·.opensWith b check)) = true) :
    ∀ m ∈ ks, g.Passes check (g.mode m).opener := by
  intro m hm
  have hm' := List.all_eq_true.mp h m hm
  obtain ⟨decl, hdecl, hmode⟩ :=
    exists_of_modeAt (realizes_of_finish hfinish) (lt_size_of_modeAt hfinish hm') hm'
  exact opener_passes hmode hdecl

theorem passes_of_outermost (hfinish : b.finish language = .ok g)
    (h : b.outermost language check = true) :
    ∀ d ∈ candidates (Scan.task g source options) [], g.Passes check d.1 := by
  have hg := realizes_of_finish hfinish
  rw [outermost, Bool.and_eq_true] at h
  rintro ⟨index, candidate⟩ hd
  cases candidate with
  | opens m =>
    obtain ⟨hm, rfl⟩ := mem_candidates_opens.mp hd
    refine opener_passes_of_all hfinish h.1 m ?_
    rw [← hg.contains]
    exact hm
  | closes depth => exact nomatch mem_candidates_closes.mp hd
  | illegal => exact illegal_passes hg.illegal h.2 index (mem_candidates_illegal.mp hd).2

theorem passes_of_inside (hfinish : b.finish language = .ok g) (h : b.inside check k = true) :
    ∀ d ∈ candidates (Scan.task g source options) [k], g.Passes check d.1 := by
  obtain ⟨decl, hdecl, hmode⟩ :=
    exists_of_modeAt (realizes_of_finish hfinish) (lt_size_of_modeAt hfinish h) h
  simp only [Bool.and_eq_true] at hdecl
  obtain ⟨⟨hcontains, hending⟩, hillegal⟩ := hdecl
  rintro ⟨index, candidate⟩ hd
  cases candidate with
  | opens m =>
    obtain ⟨hm, rfl⟩ := mem_candidates_opens.mp hd
    refine opener_passes_of_all hfinish hcontains m ?_
    rw [← hmode.contains]
    exact hm
  | closes depth =>
    obtain ⟨-, m, hm, hclose⟩ := closer?_eq_some (mem_candidates_closes.mp hd)
    obtain rfl := List.mem_singleton.mp (List.mem_of_getElem? hm)
    exact ending_passes hmode hending index hclose
  | illegal => exact illegal_passes hmode.illegal hillegal index (mem_candidates_illegal.mp hd).2

end Builder

namespace Scan

variable {task : Task} {g : Grammar} {text : String} {options : Options} {table : KeywordTable}

/-- The patterns that matter inside regions of the modes match nowhere in the text. -/
def Unclaimed (task : Task) (modes : List Nat) : Prop :=
  ∀ d ∈ candidates task modes, ∀ t, task.grammar.terminals[d.1]? = some t →
    ∀ q, endAt? (t.pattern.find task.source ·) q = none

theorem Unclaimed.next?_eq_none {modes : List Nat} (hsound : task.IsSound)
    (h : Unclaimed task modes) (pos : Nat) : Place.next? task [] ⟨pos, modes⟩ = none := by
  refine (Place.next?_eq_none_iff hsound).mpr fun d hd q _ => ?_
  cases hend : admittedEnd? task [] d.1 q with
  | none => rfl
  | some stop =>
    obtain ⟨t, ht, hmatch, -⟩ := admittedEnd?_eq_some_iff.mp hend
    rw [h d hd t ht q] at hmatch
    cases hmatch

/-- Lexemes that are in no table leave no mark. -/
theorem Draft.addLexemes_of_unclassified {source : Source} {base : Nat} {ls : List Span}
    (h : ∀ l ∈ ls, table.classify (source.chars ⟨base + l.start, base + l.stop⟩) = none)
    (last : Nat) (d : Draft) : addLexemes source table base ls last d = (last, d) := by
  induction ls with
  | nil => rfl
  | cons l ls ih =>
    rw [addLexemes, h l List.mem_cons_self]
    exact ih fun l' hl' => h l' (List.mem_cons_of_mem _ hl')

/-- **A text without anything in it is one token without a scope.** -/
theorem tokens_of_unclaimed (hsound : (Scan.task g (Source.ofString text) options).IsSound)
    (hne : 0 < (Source.ofString text).size)
    (h : Unclaimed (Scan.task g (Source.ofString text) options) [])
    (hkeywords : g.root.keywords = some table)
    (hwords : ∀ l ∈ table.lexeme.findAll (Source.ofString text),
      table.classify ((Source.ofString text).chars l) = none) :
    (g.highlight text options).tokens = [⟨none, text⟩] := by
  have hresult := highlight_eq_result_of_runs hsound .refl (h.next?_eq_none hsound 0)
  generalize hsource : Source.ofString text = source at *
  have hwhole : source.extract 0 source.size = source := Array.extract_size
  have hflushed : (State.start g).core.draft.flush source (some table) source.size =
      { Draft.empty with bufferStart := source.size, events := #[.text ⟨0, source.size⟩] } := by
    show Draft.classify source (some table) ⟨0, source.size⟩
      { Draft.empty with bufferStart := source.size } = _
    rw [Draft.classify_table source table _ hne, hwhole, Draft.addLexemes_of_unclassified]
    · have hempty : Span.isEmpty ⟨0, source.size⟩ = false := decide_eq_false (Nat.not_le_of_lt hne)
      simp only [Draft.addText, EventLog.addText, hempty]
      rfl
    · intro l hl
      rw [Nat.zero_add, Nat.zero_add]
      exact hwords l hl
  have hcontent : (State.start g).core.keywords g = some table := hkeywords
  have hnodes : (g.highlight text options).nodes = [.text (source.slice ⟨0, source.size⟩)] := by
    rw [hresult, Core.result]
    show EventLog.nodes ((State.start g).core.draft.flush source
      ((State.start g).core.keywords g) source.size).events source = _
    rw [hcontent, hflushed]
    rfl
  rw [Highlighted.tokens, hnodes, ← hsource, Source.slice_ofString]
  rfl

/-! ### Texts that are in a region from the start -/

section Region

variable {k n : Nat} {scope : Scope}

theorem exists_runs_opened
    (hopens : Place.next? task [] ⟨0, []⟩ = some ⟨⟨0, n⟩, .opens k⟩)
    (hending : (task.grammar.mode k).ending ≠ .immediate)
    (hscope : (task.grammar.mode k).scope = some scope)
    (hbegin : (task.grammar.mode k).excludesBegin = false)
    (hnone : Place.next? task [] ⟨n, [k]⟩ = none) :
    ∃ c, Runs task (State.start task.grammar).core c ∧ c.next? task = none ∧
      c.draft.events = #[.opened scope] := by
  have honward : (⟨⟨0, n⟩, .opens k⟩ : Found).IsOnward (State.start task.grammar).core.modes :=
    Found.isOnward_of_ne nofun
  refine ⟨_, .single ⟨_, hopens, rfl⟩, ?_, ?_⟩
  · rw [Core.next?, Core.place_take honward, Core.barred_take honward, Place.after]
    simp only [if_neg hending]
    exact hnone
  · rw [Core.take]
    simp only [if_neg hending, Core.openRegion, Draft.openRegion, hbegin, hscope]
    rfl

variable (task) in
/-- What is recorded at the end comes behind what was recorded before. -/
theorem Core.exists_nodes_result_eq {c : Core} {es : List Event}
    (h : es <+: c.draft.events.toList) :
    ∃ rest, (c.result task).nodes = EventLog.nodes (es ++ rest).toArray task.source := by
  have hflush : c.draft.Extends
      (c.draft.flush task.source (c.keywords task.grammar) task.source.size) ∧ _ = _ :=
    (Draft.congruent_extends c.draft).flush ⟨.refl _, rfl⟩
  have hclosed := ((Draft.congruent_extends c.draft).closeScopes
    (c.modes.map fun m => (task.grammar.mode m).scope) hflush).1.events
  rw [List.foldl_map] at hclosed
  obtain ⟨rest, hrest⟩ := h.trans hclosed
  exact ⟨rest, congrArg (EventLog.nodes · task.source) (Array.toList_inj.mp hrest.symm)⟩

theorem Core.exists_nodes_result {c : Core} (h : [.opened scope] <+: c.draft.events.toList) :
    ∃ ns, (c.result task).nodes.head? = some (.region scope ns) := by
  obtain ⟨rest, hnodes⟩ := exists_nodes_result_eq task h
  rw [hnodes]
  exact EventLog.head?_nodes_opened rest

/-- **A region that opens at once, and in which nothing matches, is the first token.** -/
theorem exists_head?_tokens (hsound : (Scan.task g (Source.ofString text) options).IsSound)
    (hopens : Place.next? (Scan.task g (Source.ofString text) options) [] ⟨0, []⟩ =
      some ⟨⟨0, n⟩, .opens k⟩)
    (hending : (g.mode k).ending ≠ .immediate) (hscope : (g.mode k).scope = some scope)
    (hbegin : (g.mode k).excludesBegin = false)
    (h : Unclaimed (Scan.task g (Source.ofString text) options) [k]) :
    ∃ t, (g.highlight text options).tokens.head? = some t ∧ t.scope = some scope := by
  obtain ⟨c, hruns, hend, hevents⟩ :=
    exists_runs_opened hopens hending hscope hbegin (h.next?_eq_none hsound n)
  obtain ⟨ns, hhead⟩ := Core.exists_nodes_result (by rw [hevents])
  refine ⟨⟨some scope, Node.contents ns⟩, ?_, rfl⟩
  rw [Highlighted.tokens, highlight_eq_result_of_runs hsound hruns hend, List.head?_map, hhead]
  rfl

end Region

end Scan

end Highlighting
