/-
  Highlighting/Proofs/Language/Strings.lean
  =========================================
  **Texts that are one string** in Solidity.

  Behind a quote, a string takes items as long as there are any.  What stops
  them is the end of the text, maybe behind a lone backslash, or the quote
  again, or a line feed (`exists_items`).  So there are three cases.  A string
  that is closed by the last character, or not at all, is the only node of the
  text (`nodes_of_wholeString`).  One that is closed earlier is a node that does
  not have all of the text (`head?_nodes_of_closed`).  And one with a line feed
  is taken back (`exists_runs_barred`), so that its quote stays outside of all
  regions (`quiet_of_barred`).
-/
import Highlighting.Proofs.Language.Contexts
import Highlighting.Proofs.Registry
import Highlighting.Proofs.Scan.Outset

namespace Highlighting

open NumberLiteral (Reads char)
open Scan Search
open scoped Computability

/-! ### Texts -/

namespace Literal

/-- A quote, some items, and then the quote again, or a lone backslash, or nothing. -/
def wholeString (q : Char) : Language Char := char q * ((item q)∗ * (char q + char '\\' + 1))

variable {s : Source} {q c : Char} {p e : Nat}

theorem reads_item_single (hp : s[p]? = some c) (hquote : c ≠ q) (hescape : c ≠ '\\')
    (hline : c ≠ '\n') : Reads s (item q) p (p + 1) := by
  refine Reads.add_iff.mpr (.inl (Reads.one_iff.mpr ⟨?_, rfl⟩))
  rw [hp, Option.any_some]
  simp [hquote, hescape, hline]

theorem reads_item_escape (hp : s[p]? = some '\\') (hlt : p + 1 < s.size) :
    Reads s (item q) p (p + 2) := by
  refine Reads.add_iff.mpr (.inr (Reads.mul_iff.mpr ⟨p + 1, Reads.char_iff.mpr ⟨hp, rfl⟩, ?_⟩))
  refine Reads.one_iff.mpr ⟨?_, rfl⟩
  rw [Array.getElem?_eq_getElem hlt]
  rfl

/-- What items do not get over. -/
inductive Stops (s : Source) (q : Char) (e : Nat) : Prop
  | ended (h : e = s.size)
  | backslash (h : s[e]? = some '\\') (hlast : e + 1 = s.size)
  | quote (h : s[e]? = some q)
  | line (h : s[e]? = some '\n')

/-- **Items go on up to a quote or a line feed**, or else to the end of the text, where a lone
backslash may be left. -/
theorem exists_items (q : Char) (hp : p ≤ s.size) : ∃ e, Reads s (item q)∗ p e ∧ Stops s q e := by
  -- by induction on how much is left
  generalize hk : s.size - p = k
  induction k using Nat.strong_induction_on generalizing p with
  | _ k ih =>
    have hrefl : Reads s (item q)∗ p p := Reads.kstar_iff.mpr (.inl ⟨rfl, hp⟩)
    have hstep : ∀ m, p < m → Reads s (item q) p m →
        ∃ e, Reads s (item q)∗ p e ∧ Stops s q e := by
      intro m hlt hitem
      have hle := hitem.le_size
      obtain ⟨e, hitems, hstops⟩ := ih (s.size - m) (by omega) hle rfl
      exact ⟨e, Reads.kstar_iff.mpr (.inr ⟨m, hitem, hitems⟩), hstops⟩
    rcases Nat.eq_or_lt_of_le hp with heq | hlt
    · exact ⟨p, hrefl, .ended heq⟩
    have hc : s[p]? = some s[p] := Array.getElem?_eq_getElem hlt
    by_cases hquote : s[p] = q
    · exact ⟨p, hrefl, .quote (hquote ▸ hc)⟩
    by_cases hline : s[p] = '\n'
    · exact ⟨p, hrefl, .line (hline ▸ hc)⟩
    by_cases hescape : s[p] = '\\'
    · rw [hescape] at hc
      rcases Nat.eq_or_lt_of_le (Nat.succ_le_of_lt hlt) with hlast | hmore
      · exact ⟨p, hrefl, .backslash hc hlast⟩
      · exact hstep (p + 2) (by omega) (reads_item_escape hc hmore)
    · exact hstep (p + 1) (by omega) (reads_item_single hc hquote hescape hline)

/-- What stops the items of a text that is taken to its end. -/
theorem mem_wholeString_iff : s.toList ∈ wholeString q ↔ s[0]? = some q ∧
    ∃ e, Reads s (item q)∗ 1 e ∧ (e = s.size ∨ s[e]? = some '\\' ∧ e + 1 = s.size ∨
      s[e]? = some q ∧ e + 1 = s.size) := by
  have hreads : s.toList ∈ wholeString q ↔ Reads s (wholeString q) 0 s.size := by
    rw [← NumberLiteral.chars_all]
    exact ⟨fun hs => ⟨Nat.zero_le _, Nat.le_refl _, hs⟩, Reads.mem⟩
  rw [hreads]
  simp only [wholeString, Reads.mul_iff, Reads.add_iff, Reads.char_iff, Reads.empty_iff]
  constructor
  · rintro ⟨_, ⟨hquote, rfl⟩, e, hitems, (hclosed | hescape) | ⟨hend, -⟩⟩
    · exact ⟨hquote, e, hitems, .inr (.inr ⟨hclosed.1, hclosed.2.symm⟩)⟩
    · exact ⟨hquote, e, hitems, .inr (.inl ⟨hescape.1, hescape.2.symm⟩)⟩
    · exact ⟨hquote, e, hitems, .inl hend⟩
  · rintro ⟨hquote, e, hitems, hend | ⟨hescape, hend⟩ | ⟨hclosed, hend⟩⟩
    · exact ⟨1, ⟨hquote, rfl⟩, e, hitems, .inr ⟨hend, hitems.le_size⟩⟩
    · exact ⟨1, ⟨hquote, rfl⟩, e, hitems, .inl (.inr ⟨hescape, hend.symm⟩)⟩
    · exact ⟨1, ⟨hquote, rfl⟩, e, hitems, .inl (.inl ⟨hclosed, hend.symm⟩)⟩

/-! ### The region of a text -/

theorem exists_toList (hquote : s[0]? = some q) : ∃ cs, s.toList = [] ++ q :: cs := by
  refine List.head?_eq_some_iff.mp ?_
  rw [List.head?_eq_getElem?, Array.getElem?_toList]
  exact hquote

namespace Stands

variable {task : Task} (h : Stands task [] #[] s #[]) (hq : q ∈ quotes)
include h

theorem source_eq : task.source = s := by
  rw [h.source, Array.append_empty, Array.empty_append]

include hq

theorem next?_quote (hquote : s[0]? = some q) :
    Place.next? task [] ⟨0, []⟩ = some ⟨⟨0, 1⟩, .opens (stringMode q)⟩ := by
  obtain ⟨cs, hcs⟩ := exists_toList hquote
  simpa using h.next?_string hq (.head _) hcs

/-- The other kind of string does not open at the quote. -/
theorem admittedEnd?_other (hquote : s[0]? = some q) {q' : Char} (hq' : q' ∈ quotes)
    (hne : q' ≠ q) :
    admittedEnd? task [] (task.grammar.mode (stringMode q')).opener 0 = none := by
  have hspared : sparedBy [] q [stringMode q'] = true := by
    rcases List.mem_pair.mp hq with rfl | rfl <;> rcases List.mem_pair.mp hq' with rfl | rfl <;>
      first
      | exact absurd rfl hne
      | decide
  obtain ⟨cs, hcs⟩ := exists_toList hquote
  obtain ⟨v, hv⟩ := exists_opening hcs #[]
  refine admittedEnd?_eq_none (h.obeys_stringRule hq').opener ?_
  simpa using h.endAt?_of_sparedBy hv hspared _ (string_mem_rules q' hq') List.mem_cons_self

/-- Up to where the items stop, the region shows them as text. -/
theorem crosses_inside (hitems : Reads s (item q)∗ p e) :
    Crosses task [stringMode q] p e (task.source.textNodes p e) := by
  simpa using h.crosses_items hq hitems

/-- A lone backslash at the end of the text is text. -/
theorem crosses_backslash (hescape : s[e]? = some '\\') (hend : e + 1 = s.size) :
    Crosses task [stringMode q] e s.size (task.source.textNodes e s.size) := by
  have hobeys := h.obeys_stringRule hq
  have hc : task.source[e]? = some '\\' := by rw [h.source_eq, hescape]
  have hsize : task.source.size ≤ e + 1 := by rw [h.source_eq, hend]
  have hunopened : Unopened task (stringRule q) e :=
    h.unopened_of_ne (.inr hsize) (by rw [hc]; decide)
  rw [← hend]
  refine .text hobeys.keywords (Nat.le_succ e)
    (quiet_of_obeys hobeys rfl hunopened (Pattern.endAt?_char_eq_none ?_))
  simpa [hc] using (ne_of_mem_quotes q hq).1.symm

/-- At the end of the text, a string is not closed. -/
theorem next?_at_end : Place.next? task [] ⟨s.size, [stringMode q]⟩ = none := by
  refine (Place.next?_eq_none_iff h.sound).mpr fun d hd p hp => ?_
  have hnone : task.source[p]? = none := by rw [h.source_eq, Array.getElem?_eq_none hp]
  have hunopened : Unopened task (stringRule q) p :=
    h.unopened_of_ne (.inl (by simp [hnone])) (by simp [hnone])
  cases hend : admittedEnd? task [] d.1 p with
  | none => rfl
  | some stop =>
    obtain ⟨-, hclose⟩ := eq_closes_of_unopened (h.obeys_stringRule hq) rfl hunopened hd hend
    rw [Pattern.endAt?_char_eq_none (by simp [hnone])] at hclose
    cases hclose

/-- A line feed is illegal in a string. -/
theorem next?_line (hlegal : task.options.ignoreIllegals = false) (hline : s[e]? = some '\n') :
    Place.next? task [] ⟨e, [stringMode q]⟩ = some ⟨⟨e, e + 1⟩, .illegal⟩ := by
  have hc : task.source[e]? = some '\n' := by rw [h.source_eq, hline]
  refine next?_illegal_of_obeys (h.obeys_stringRule hq) h.sound rfl hlegal (fun j hj => ?_) ?_ rfl
    (Nat.lt_succ_self e) (Pattern.endAt?_char.mpr ⟨hc, rfl⟩)
  · obtain rfl := List.mem_singleton.mp hj
    exact admittedEnd?_eq_none (h.literals _ (.head _)).opener
      (endAt?_escape_eq_none (.inl (by rw [hc]; decide)))
  · refine Pattern.endAt?_char_eq_none ?_
    simpa [hc] using (ne_of_mem_quotes q hq).2.symm

/-- A string that comes to a line feed is taken back, so that its opening is barred. -/
theorem exists_runs_barred (hlegal : task.options.ignoreIllegals = false)
    (hquote : s[0]? = some q) (hitems : Reads s (item q)∗ 1 e) (hline : s[e]? = some '\n') :
    ∃ d, Runs task (State.start task.grammar).core d ∧
      d.barred = [((task.grammar.mode (stringMode q)).opener, 0)] := by
  obtain ⟨fs, hpath⟩ := h.exists_path_items hq hitems
  rw [Array.size_empty, Nat.zero_add, Nat.zero_add] at hpath
  have hopens : (State.start task.grammar).core.next? task =
      some ⟨⟨0, 1⟩, .opens (stringMode q)⟩ := h.next?_quote hq hquote
  have hdoomed : Doomed task [] [] (stringMode q) 1 :=
    ⟨fs, _, _, hpath, rfl, h.next?_line hq hlegal hline, rfl⟩
  obtain ⟨d, hruns, -, -, hbarred⟩ := Core.retrace h.sound Draft.counted_empty hopens rfl
    ((h.obeys_stringRule hq).ne_immediate rfl) hdoomed
  exact ⟨d, hruns, hbarred⟩

/-- A string that comes to its quote is closed, and then is all that is shown. -/
theorem exists_runs_closed (hquote : s[0]? = some q) (hitems : Reads s (item q)∗ 1 e)
    (hclose : s[e]? = some q) :
    ∃ d, Runs task (State.start task.grammar).core d ∧ d.entries = [] ∧
      d.draft.forest task.source =
        ⟨[.region .string [.text (task.source.slice ⟨0, e + 1⟩)]], []⟩ := by
  have hle := hitems.le
  have hobeys := h.obeys_stringRule hq
  obtain ⟨t, hending, -⟩ := hobeys.exists_ending rfl
  have hcloses := h.next?_closing hq hclose
  rw [Array.size_empty, Nat.zero_add] at hcloses
  obtain ⟨d, hruns, hd, hbuffer, hshown⟩ := exists_closed h.sound hobeys.excludesBegin
    hobeys.keywords (h.next?_quote hq hquote) hending hobeys.scope hobeys.excludesEnd
    hobeys.endsParent (h.crosses_inside hq hitems) hcloses (start_at task)
  refine ⟨d, hruns, List.map_eq_nil_iff.mp hd.modes, ?_⟩
  rw [Core.shown, Draft.flush_self _ _ _ (Nat.le_of_eq hbuffer.symm), shown_start,
    EventLog.Forest.glue_textNodes _ (by omega) hle,
    EventLog.Forest.glue_textNodes _ (by omega) (by omega), Source.textNodes,
    if_pos (by omega)] at hshown
  exact hshown

/-- **A string that is closed is the first node**, whatever comes behind it. -/
theorem head?_nodes_of_closed {c : Core} (hquote : s[0]? = some q)
    (hitems : Reads s (item q)∗ 1 e) (hclose : s[e]? = some q)
    (hruns : Runs task (State.start task.grammar).core c) (hend : c.next? task = none) :
    (c.result task).nodes.head? =
      some (.region .string [.text (task.source.slice ⟨0, e + 1⟩)]) := by
  obtain ⟨d, hd, hentries, hforest⟩ := h.exists_runs_closed hq hquote hitems hclose
  have hrecorded : d.StartsWith task d.draft.events.toList :=
    .of_entries_nil (hd.counted Draft.counted_empty) hentries
  have hstarts := hrecorded.of_runs h.sound (hd.to_end hruns hend)
  obtain ⟨rest, hnodes⟩ := Core.exists_nodes_result_eq task hstarts.draft
  have hfirst : EventLog.Forest.First
      (· = .region .string [.text (task.source.slice ⟨0, e + 1⟩)])
      (d.draft.events.toList.foldl (EventLog.Forest.step task.source)
        EventLog.Forest.empty).top := by
    rw [Array.foldl_toList]
    show EventLog.Forest.First _ (d.draft.forest task.source).top
    rw [hforest]
    exact ⟨_, rfl, rfl⟩
  obtain ⟨n, hhead, rfl⟩ := EventLog.exists_head?_nodes_append nofun hfirst rest
  rw [hnodes]
  exact hhead

end Stands

end Literal

/-! ### Grammars -/

/-- Strings are taken as literals are, and nothing else outside of regions starts with a quote. -/
structure Grammar.TakesStrings (g : Grammar) : Prop extends g.TakesLiterals where
  others : ∀ m ∈ g.root.contains, (∃ q ∈ Literal.quotes, m = Literal.stringMode q) ∨
    g.Passes (·.shuns Literal.quotes) (g.mode m).opener
  illegal : ∀ i, g.root.illegal = some i → g.Passes (·.shuns Literal.quotes) i

namespace Language

def sparesQuotes (language : LanguageDecl) (b : Builder) : Bool :=
  language.contains.all (fun m => (Literal.quotes.map Literal.stringMode).contains m ||
    b.modeAt (·.opensWith b (·.shuns Literal.quotes)) m) &&
      language.illegal.all (b.passes (·.shuns Literal.quotes))

theorem sparesQuotes_solidity : declares Solidity.declare sparesQuotes = true :=
  declares_of_workedOut Solidity.workedOut (by decide +kernel)

theorem takesStrings_solidity {g : Grammar} (hg : Solidity.grammar = .ok g) : g.TakesStrings := by
  obtain ⟨language, b, -, hfinish, hcheck⟩ := exists_finish_of_declares sparesQuotes_solidity hg
  have hrealizes := Builder.realizes_of_finish hfinish
  rw [sparesQuotes, Bool.and_eq_true] at hcheck
  refine ⟨takesLiterals_of_finish takesLiterals_solidity hg, fun m hm => ?_, fun i hi => ?_⟩
  · rw [hrealizes.contains] at hm
    have hm' := List.all_eq_true.mp hcheck.1 m hm
    rcases (Bool.or_eq_true _ _).mp hm' with hstring | hshuns
    · obtain ⟨q, hq, rfl⟩ := List.mem_map.mp (List.contains_iff_mem.mp hstring)
      exact .inl ⟨q, hq, rfl⟩
    · obtain ⟨decl, hdecl, hmode⟩ := Builder.exists_of_finish hfinish hshuns
      exact .inr (Builder.opener_passes hmode hdecl)
  · exact Builder.illegal_passes hrealizes.illegal hcheck.2 i hi

end Language

namespace Scan

variable {g : Grammar} {text : String} {options : Options} {q : Char}

/-- With its opening barred, a string leaves nothing that matches at its quote. -/
theorem quiet_of_barred {task : Task} (hg : task.grammar.TakesStrings)
    (h : Literal.Stands task [] #[] task.source #[]) (hq : q ∈ Literal.quotes)
    (hquote : task.source[0]? = some q) :
    Quiet task [((task.grammar.mode (Literal.stringMode q)).opener, 0)] [] 0 1 := by
  intro d hd p _ hp
  obtain rfl : p = 0 := by omega
  rw [admittedEnd?_cons]
  split
  · rfl
  next hne =>
  cases hend : admittedEnd? task [] d.1 0 with
  | none => rfl
  | some stop =>
    exfalso
    have hdeclares := declares_of_mem_candidates h.sound.inOrder hd
    have hshuns : d.2.isEnd = false → ¬ task.grammar.Passes (·.shuns Literal.quotes) d.1 := by
      intro hopens hpass
      rw [hopens] at hdeclares
      have hlt := (admitted_of_admittedEnd? h.sound hend).start_lt hdeclares
      obtain ⟨t, ht, hmatch, -⟩ := admittedEnd?_eq_some_iff.mp hend
      obtain ⟨c, hc, hnot⟩ := Pattern.not_mem_of_shuns (hpass t ht) hmatch hlt
      rw [hquote] at hc
      exact hnot (Option.some.inj hc ▸ hq)
    obtain ⟨index, candidate⟩ := d
    cases candidate with
    | opens m =>
      obtain ⟨hm, rfl⟩ := mem_candidates_opens.mp hd
      rcases hg.others m hm with ⟨q', hq', rfl⟩ | hpass
      · -- the other kind of string does not open at the quote
        have hnone := h.admittedEnd?_other hq hquote hq' fun heq => hne (by rw [heq])
        rw [hend] at hnone
        cases hnone
      · exact hshuns rfl hpass
    | closes depth => exact nomatch mem_candidates_closes.mp hd
    | illegal => exact hshuns rfl (hg.illegal index (mem_candidates_illegal.mp hd).2)

section Text

variable (hsound : (Scan.task g (Source.ofString text) options).IsSound) (hg : g.TakesLiterals)
  (hq : q ∈ Literal.quotes)
include hsound hg

theorem stands_whole : Literal.Stands (Scan.task g (Source.ofString text) options) [] #[]
    (Source.ofString text) #[] :=
  ⟨hsound, hg.literals, hg.contains, by simp [Scan.task], .inl rfl, .inl rfl⟩

include hq

/-- **A string that is closed by the last character, or not at all, is the only node.** -/
theorem nodes_of_wholeString (hs : text.toList ∈ Literal.wholeString q) :
    (g.highlight text options).nodes = [.region .string [.text text]] := by
  have h := stands_whole hsound hg
  have hlist : (Source.ofString text).toList = text.toList := rfl
  rw [← hlist, Literal.mem_wholeString_iff] at hs
  obtain ⟨hquote, e, hitems, hstop⟩ := hs
  have hlt := (Array.getElem?_eq_some_iff.mp hquote).1
  have hobeys := h.obeys_stringRule hq
  have hopen : Crosses (Scan.task g (Source.ofString text) options) [Literal.stringMode q] 1
      (Source.ofString text).size
      ((Source.ofString text).textNodes 1 (Source.ofString text).size) →
        (g.highlight text options).nodes = [.region .string [.text text]] := by
    intro hinside
    have hnodes := nodes_of_opened hsound hobeys.excludesBegin hobeys.keywords
      (hobeys.ne_immediate rfl) hobeys.scope (h.next?_quote hq hquote) hinside (h.next?_at_end hq)
    rw [EventLog.Forest.glue_textNodes _ (Nat.zero_le 1) hlt, Source.textNodes, if_pos hlt,
      Source.slice_ofString] at hnodes
    exact hnodes
  rcases hstop with rfl | ⟨hescape, hend⟩ | ⟨hclose, hend⟩
  · exact hopen (h.crosses_inside hq hitems)
  · have hcross := (h.crosses_inside hq hitems).trans (h.crosses_backslash hq hescape hend)
    rw [EventLog.Forest.glue_textNodes _ hitems.le (by omega)] at hcross
    exact hopen hcross
  · have hstring : Reads (Source.ofString text) (Literal.string q) 0
        (Source.ofString text).size := by
      simp only [Literal.string, Reads.mul_iff, Reads.char_iff, Reads.optional_iff]
      exact ⟨0, .inl ⟨rfl, Nat.zero_le _⟩, 1, ⟨hquote, rfl⟩, e, hitems, hclose, hend.symm⟩
    have hmem := hstring.mem
    rw [NumberLiteral.chars_all] at hmem
    have hcross := h.crosses_string hq hmem
    rw [Array.size_empty, Nat.zero_add, hlist, String.ofList_toList] at hcross
    exact nodes_of_crosses hsound hcross

end Text

/-- **A text that starts with a quote is one string if and only if that string has all of it.** -/
theorem string_token_iff (hg : g.TakesStrings)
    (hsound : (Scan.task g (Source.ofString text) options).IsSound)
    (hlegal : options.ignoreIllegals = false) (hq : q ∈ Literal.quotes)
    (hhead : text.toList.head? = some q) :
    (g.highlight text options).tokens = [⟨some .string, text⟩] ↔
      text.toList ∈ Literal.wholeString q := by
  constructor
  · intro htokens
    have h := stands_whole hsound hg.toTakesLiterals
    have hquote : (Source.ofString text)[0]? = some q := by
      rw [← hhead, List.head?_eq_getElem?]
      exact List.getElem?_toArray
    have hlt := (Array.getElem?_eq_some_iff.mp hquote).1
    have hfirst : ∀ n, (g.highlight text options).nodes.head? = some n →
        n.token = ⟨some .string, text⟩ := by
      intro n hn
      obtain ⟨n', hnodes, htoken⟩ := List.map_eq_singleton_iff.mp htokens
      rw [hnodes] at hn
      exact Option.some.inj hn ▸ htoken
    obtain ⟨c, hruns, hend, hresult⟩ := exists_runs_highlight hsound
    obtain ⟨e, hitems, hstops⟩ := Literal.exists_items q (s := Source.ofString text) hlt
    refine Literal.mem_wholeString_iff.mpr ⟨hquote, e, hitems, ?_⟩
    cases hstops with
    | ended hend => exact .inl hend
    | backslash hescape hlast => exact .inr (.inl ⟨hescape, hlast⟩)
    | quote hclose =>
      -- what the string does not have would be in a node behind it
      have hnode := h.head?_nodes_of_closed hq hquote hitems hclose hruns hend
      rw [← hresult, h.source_eq] at hnode
      have hslice : (Source.ofString text).slice ⟨0, e + 1⟩ = text := by
        simpa [Node.token, Node.contents, Node.content] using hfirst _ hnode
      have he := (Array.getElem?_eq_some_iff.mp hclose).1
      exact .inr (.inr ⟨hclose, (eq_all_of_slice rfl (Nat.succ_pos e) he hslice).2⟩)
    | line hline =>
      -- a string that is taken back leaves its quote outside of all regions
      exfalso
      obtain ⟨d, hd, hbarred⟩ := h.exists_runs_barred hq hlegal hquote hitems hline
      have hquiet := (quiet_of_barred hg h hq hquote).of_suffix
        (hbarred ▸ barred_suffix_of_runs (hd.to_end hruns hend))
      obtain ⟨n, hn, hplain⟩ := exists_head?_nodes_of_quiet hsound hlt hruns hquiet
      rw [← hresult] at hn
      have htoken := congrArg Token.scope (hfirst n hn)
      cases hplain with
      | text s => cases htoken
      | keyword k children => cases k <;> cases htoken
  · intro hs
    rw [Highlighted.tokens, nodes_of_wholeString hsound hg.toTakesLiterals hq hs,
      List.map_singleton]
    simp [Node.token, Node.contents, Node.content]

end Scan

/-! ### Tokens -/

theorem Token.eq_string_iff {t : Token} {text : String} :
    (t.category, t.text) = ("string", text) ↔ t = ⟨some .string, text⟩ := by
  obtain ⟨scope, s⟩ := t
  rw [Prod.mk.injEq, Token.mk.injEq]
  have hscope : Scope.categoryName scope = "string" ↔ scope = some .string := by
    cases scope with
    | none => decide
    | some scope => cases scope <;> decide
  exact and_congr hscope Iff.rfl

/-- **In Solidity, a text that starts with a quote is one string if and only if it goes on with
items** — characters other than the quote, a backslash and a line feed, or a backslash with any
character — up to the quote again, a lone backslash, or nothing. -/
theorem string_tokens_are_literals :
    ∃ r, Registry.withBuiltIns = .ok r ∧ r.options.ignoreIllegals = false ∧
      ∀ q ∈ Literal.quotes, ∀ text : String, text.toList.head? = some q →
        (r.tokens text "sol" = .ok [("string", text)] ↔ text.toList ∈ Literal.wholeString q) := by
  obtain ⟨r, solidity, yul, hr⟩ := Registry.exists_isBuiltIn
  have hlegal : r.options.ignoreIllegals = false :=
    congrArg Options.ignoreIllegals (Registry.options_of_registerAll hr.eq)
  refine ⟨r, hr.eq, hlegal, fun q hq text hhead => ?_⟩
  rw [Registry.tokens_eq hr.sol, ← Scan.string_token_iff
    (Language.takesStrings_solidity hr.declaresSolidity) (hr.suitsSolidity.isSound _ r.options)
    hlegal hq hhead, Except.ok.injEq, List.map_eq_singleton_iff]
  constructor
  · rintro ⟨t, ht, htoken⟩
    rw [ht, Token.eq_string_iff.mp htoken]
  · intro ht
    exact ⟨_, ht, rfl⟩

/-- A string that goes on over a line feed behind a backslash, and is left open. -/
theorem open_string_token :
    ∃ r, Registry.withBuiltIns = .ok r ∧ r.options.ignoreIllegals = false ∧
      '"' ∈ Literal.quotes ∧ "\"it's\\\n".toList.head? = some '"' ∧
        (r.tokens "\"it's\\\n" "sol" = .ok [("string", "\"it's\\\n")] ↔
          "\"it's\\\n".toList ∈ Literal.wholeString '"') := by
  obtain ⟨r, hr, hlegal, htokens⟩ := string_tokens_are_literals
  exact ⟨r, hr, hlegal, by decide, rfl, htokens '"' (by decide) "\"it's\\\n" rfl⟩

end Highlighting
