/-
  Highlighting/Proofs/Language/Sequences.lean
  ===========================================
  **Sequences of simple tokens** in Solidity.

  A simple token is a literal that is no comment, or a name that opens no region
  (`IsSimple`).  Nothing else matches in such a name where only blanks are around
  it, for what opens a region has a character that neither a name nor a blank
  has, or is a number or a word (`sparesTokens`).  So each token of a sequence
  shows the node that it shows by itself, and each separator its text
  (`simple_tokens_do_not_interact`).
-/
import Highlighting.Proofs.Language.Contexts
import Highlighting.Proofs.Language.Names

namespace Highlighting

open Scan Search
open Source (blanks SetOff)

/-- If anything is behind a text that is set off, a blank comes first. -/
theorem Source.SetOff.exists_blank {front rest u : Source} {q : Nat} {c : Char}
    (h : SetOff front rest) (hle : u.size ≤ q) (hq : (u ++ rest)[q]? = some c) :
    ∃ d ∈ blanks, (u ++ rest)[u.size]? = some d := by
  rcases h.rest with rfl | ⟨d, hd, hfirst⟩
  · rw [Array.append_empty, Array.getElem?_eq_none hle] at hq
    cases hq
  · exact ⟨d, hd, (Source.getElem?_append_add u rest 0).trans hfirst⟩

namespace Language.Solidity

/-! ### Patterns of Solidity -/

/-- No blank is in a name. -/
theorem not_contains_of_mem_blanks :
    ∀ c ∈ blanks, nameStart.contains c = false ∧ nameRest.contains c = false := by
  have hall : blanks.all (fun c => !nameStart.contains c && !nameRest.contains c) = true := by
    decide
  intro c hc
  simpa using List.all_eq_true.mp hall c hc

/-- No match of the pattern starts with a blank; and what it matches in a name that is set off is a
number, or one of the words as a whole word. -/
def sparesTokens (p : Pattern) : Bool :=
  p.isLoose && p.shuns blanks && (p.straysAhead nameChars blanks || p == .number ||
    p.spells (openingWords.map String.toList) && p.isWholeWord)

/-- What can match outside of regions spares tokens, literals come first, and names are cut out of
the rest. -/
structure SparesTokens (g : Grammar) : Prop where
  isSound : ∀ source options, (task g source options).IsSound
  takesLiterals : g.TakesLiterals
  outermost : ∀ source options, ∀ d ∈ candidates (task g source options) [],
    g.Passes sparesTokens d.1
  keywords : ∃ t, g.root.keywords = some t ∧ t.lexeme = .listing (.name nameStart nameRest)

theorem sparesTokens_solidity :
    declares declare (fun language b => b.outermost language sparesTokens) = true :=
  declares_of_workedOut workedOut (by decide +kernel)

theorem sparesTokens_of_finish {g : Grammar} (hg : grammar = .ok g)
    (hsound : ∀ source options, (task g source options).IsSound) : SparesTokens g := by
  obtain ⟨language, b, -, hfinish, hcheck⟩ := exists_finish_of_declares sparesTokens_solidity hg
  obtain ⟨words, hkeywords, -⟩ := (sparesNames_of_finish hg).keywords
  exact ⟨hsound, takesLiterals_of_finish takesLiterals_solidity hg,
    fun source options => Builder.passes_of_outermost hfinish hcheck, ⟨_, hkeywords, rfl⟩⟩

/-! ### Names -/

/-- The text is a name without a dollar sign, and no word that opens a region. -/
structure IsPlainName (name : String) : Prop where
  matches_lexeme : MatchesFully lexeme name
  no_dollar : '$' ∉ name.toList
  not_opening : name ∉ openingWords

namespace IsPlainName

variable {name : String} {front rest : Source} {p q stop : Nat} {c : Char}
  (h : IsPlainName name) (hoff : SetOff front rest)
include h

theorem isWord (hq : q < (Source.ofString name).size) :
    ((Source.ofString name ++ rest)[q]?).any CharClass.isWord = true := by
  rw [Array.getElem?_append_left hq, Array.getElem?_eq_getElem hq, Option.any_some]
  have hmem := Array.getElem_mem hq
  refine (isWord_or_of_mem _ (mem_nameChars_of_name h.matches_lexeme _ hmem)).resolve_right ?_
  intro hdollar
  rw [hdollar, Source.ofString, List.mem_toArray] at hmem
  exact h.no_dollar hmem

/-- Inside of the name there is no edge of a word. -/
theorem eq_zero_of_edge (hq : q < (Source.ofString name).size)
    (hedge : Regex.edge.holds (Source.ofString name ++ rest) q = true) : q = 0 := by
  cases q with
  | zero => rfl
  | succ q =>
    have hbefore : ((Source.ofString name ++ rest).before? (q + 1)).any CharClass.isWord = true :=
      h.isWord (Nat.lt_of_succ_lt hq)
    rw [Regex.holds_edge_of_isWord hbefore (h.isWord hq)] at hedge
    cases hedge

theorem size_pos : 0 < (Source.ofString name).size := size_pos_of_name h.matches_lexeme

include hoff

/-- No match that strays ahead of blanks starts in the name. -/
theorem endAt?_of_straysAhead {pattern : Pattern}
    (hstrays : pattern.straysAhead nameChars blanks = true) (hp : p < (Source.ofString name).size) :
    endAt? (pattern.find (Source.ofString name ++ rest) ·) p = none := by
  cases hend : endAt? (pattern.find (Source.ofString name ++ rest) ·) p with
  | none => rfl
  | some stop =>
    obtain ⟨q, c, hpq, hc, hnot, hahead⟩ := Pattern.exists_stray_ahead hstrays hend
    rw [List.mem_append, not_or] at hnot
    rcases Nat.lt_or_ge q (Source.ofString name).size with hlt | hge
    · rw [Array.getElem?_append_left hlt] at hc
      exact absurd (mem_nameChars_of_name h.matches_lexeme c (Array.mem_of_getElem? hc)) hnot.1
    · -- the match would have to get over the blank behind the name
      obtain ⟨d, hd, hblank⟩ := hoff.exists_blank hge hc
      rcases Nat.eq_or_lt_of_le hge with rfl | hlt
      · obtain rfl := Option.some.inj (hc.symm.trans hblank)
        exact absurd hd hnot.2
      · exact absurd hblank (hahead _ (Nat.le_of_lt hp) hlt d hd)

/-- No whole word of those that open regions starts in the name. -/
theorem endAt?_of_spells {pattern : Pattern}
    (hspells : pattern.spells (openingWords.map String.toList) = true)
    (hwhole : pattern.isWholeWord = true) (hp : p < (Source.ofString name).size) :
    endAt? (pattern.find (Source.ofString name ++ rest) ·) p = none := by
  cases hend : endAt? (pattern.find (Source.ofString name ++ rest) ·) p with
  | none => rfl
  | some stop =>
    obtain ⟨word, hword, hspelt⟩ := List.mem_map.mp (Pattern.chars_mem_of_spells hspells hend)
    obtain ⟨hstart, hstop⟩ := Pattern.edges_of_isWholeWord hwhole hend
    obtain rfl := h.eq_zero_of_edge hp hstart
    have hletters : ∀ word ∈ openingWords, word.toList ≠ [] ∧
        blanks.all (fun d => !word.toList.contains d) = true := by decide
    obtain ⟨hne, hblank⟩ := hletters word hword
    rw [List.all_eq_true] at hblank
    have hlist : word.toList = (name.toList ++ rest.toList).take stop := by
      rw [hspelt, Source.chars, Array.toList_extract, Array.toList_append,
        List.extract_eq_take_drop, List.drop_zero, Nat.sub_zero]
      rfl
    have hsize : name.toList.length = (Source.ofString name).size := rfl
    exfalso
    rcases Nat.lt_trichotomy stop (Source.ofString name).size with hlt | heq | hgt
    · have hzero := h.eq_zero_of_edge hlt hstop
      rw [hzero, List.take_zero] at hlist
      exact hne hlist
    · rw [heq, ← hsize, List.take_left] at hlist
      rw [String.toList_inj.mp hlist] at hword
      exact h.not_opening hword
    · rcases hoff.rest with rfl | ⟨d, hd, hfirst⟩
      · rw [List.append_nil, List.take_of_length_le (by omega)] at hlist
        rw [String.toList_inj.mp hlist] at hword
        exact h.not_opening hword
      · have hnot : d ∉ word.toList := by simpa using hblank d hd
        refine hnot ?_
        have hat : (name.toList ++ rest.toList)[name.toList.length]? = some d := by
          rw [List.getElem?_append_right (Nat.le_refl _), Nat.sub_self, Array.getElem?_toList]
          exact hfirst
        rw [hlist]
        exact List.mem_of_getElem? ((List.getElem?_take_of_lt (by omega)).trans hat)

/-- **Nothing matches in a name that is set off.** -/
theorem endAt?_eq_none {pattern : Pattern} (hspares : sparesTokens pattern = true)
    (hp : p < (Source.ofString name).size) :
    endAt? (pattern.find (front ++ (Source.ofString name ++ rest)) ·) (front.size + p) = none := by
  simp only [sparesTokens, Bool.and_eq_true, Bool.or_eq_true, beq_iff_eq] at hspares
  obtain ⟨⟨hloose, -⟩, hspares⟩ := hspares
  rw [Pattern.endAt?_behind hloose hoff.front, Option.map_eq_none_iff]
  rcases hspares with (hstrays | rfl) | ⟨hspells, hwhole⟩
  · exact h.endAt?_of_straysAhead hoff hstrays hp
  · rw [Pattern.endAt?_number (by rw [Array.size_append]; omega)]
    have hfirst : ((Source.ofString name ++ rest)[0]?).any CharClass.isAsciiDigit = false := by
      rw [Array.getElem?_append_left h.size_pos]
      exact any_isAsciiDigit_of_name h.matches_lexeme
    refine NumberLiteral.matchAt?_inside (fun q hq => ?_) hfirst
    have hlt := Nat.lt_of_le_of_lt hq hp
    rw [Array.getElem?_append_left hlt, Array.getElem?_eq_getElem hlt, Option.any_some]
    exact continuesWord_of_mem _
      (mem_nameChars_of_name h.matches_lexeme _ (Array.getElem_mem hlt))
  · exact h.endAt?_of_spells hoff hspells hwhole hp

end IsPlainName

/-! ### Tokens -/

/-- A name that opens no region, or a literal that is no comment. -/
inductive IsSimple (w : String) : Prop
  | name (h : IsPlainName w)
  | number (h : w.toList ∈ NumberLiteral.literal)
  | string {q : Char} (hq : q ∈ Literal.quotes) (h : w.toList ∈ Literal.string q)
  | hexString {q : Char} (hq : q ∈ Literal.quotes) (h : w.toList ∈ Literal.hexString q)

/-- The text is made of blanks. -/
def IsSeparator (s : String) : Prop := s ≠ "" ∧ ∀ c ∈ s.toList, c ∈ blanks

namespace SparesTokens

variable {g : Grammar} {w : String} {n : Node} {text : Source} {options : Options} {a b : Nat}
  (hg : SparesTokens g)
include hg

/-- A stretch is quiet where no pattern matches that spares tokens. -/
theorem quiet (h : ∀ pattern, sparesTokens pattern = true → ∀ p stop, a ≤ p → p < b → p < stop →
    endAt? (pattern.find text ·) p ≠ some stop) : Quiet (task g text options) [] [] a b := by
  rintro ⟨index, candidate⟩ hd p hap hpb
  cases hend : admittedEnd? (task g text options) [] index p with
  | none => rfl
  | some stop =>
    obtain ⟨t, ht, hmatch, -⟩ := admittedEnd?_eq_some_iff.mp hend
    have hnot : candidate.isEnd = false := by
      cases candidate with
      | closes depth => exact nomatch mem_candidates_closes.mp hd
      | opens _ | illegal => rfl
    have hdeclares := declares_of_mem_candidates (hg.isSound text options).inOrder hd
    rw [hnot] at hdeclares
    have hlt := (admitted_of_admittedEnd? (hg.isSound text options) hend).start_lt hdeclares
    exact absurd hmatch (h t.pattern (hg.outermost text options _ hd t ht) p stop hap hpb hlt)

theorem quiet_of_blanks (h : ∀ p, a ≤ p → p < b → ∃ c ∈ blanks, text[p]? = some c) :
    Quiet (task g text options) [] [] a b := by
  refine hg.quiet fun pattern hspares p stop hap hpb hlt hend => ?_
  simp only [sparesTokens, Bool.and_eq_true] at hspares
  obtain ⟨c, hc, hnot⟩ := Pattern.not_mem_of_shuns hspares.1.2 hend hlt
  obtain ⟨d, hd, hblank⟩ := h p hap hpb
  obtain rfl := Option.some.inj (hc.symm.trans hblank)
  exact hnot hd

/-- **A name that is set off shows its text** in the scope of its class. -/
theorem shows_name (h : IsPlainName w) {table : KeywordTable}
    (hkeywords : g.root.keywords = some table)
    (hlexeme : table.lexeme = .listing (.name nameStart nameRest)) :
    g.Shows w (.enclosed ((table.classify w.toList).map KeywordClass.scope) w) := by
  intro front rest options hoff
  have hextract : (front ++ (Source.ofString w ++ rest)).extract front.size
      (front.size + (Source.ofString w).size) = Source.ofString w :=
    Source.extract_between front _ rest
  have hpos := h.size_pos
  have hquiet : Quiet (task g (front ++ (Source.ofString w ++ rest)) options) [] [] front.size
      (front.size + (Source.ofString w).size) := by
    refine hg.quiet fun pattern hspares p stop hap hpb _ hend => ?_
    obtain ⟨p, rfl⟩ := Nat.exists_eq_add_of_le hap
    rw [h.endAt?_eq_none hoff hspares (Nat.lt_of_add_lt_add_left hpb)] at hend
    cases hend
  have hsep : (front ++ (Source.ofString w ++ rest)).Separates (some table) front.size := by
    rcases hoff.front with rfl | ⟨c, hc, hend⟩
    · exact fun _ _ a _ ha => absurd ha (Nat.not_lt_zero a)
    · have hfront := hend.size_pos
      refine separates_of_gap hlexeme (by decide)
        (.inr ⟨front.size - 1, c, by omega, ?_, not_contains_of_mem_blanks c hc⟩)
      exact (Array.getElem?_append_left (by omega)).trans hend
  have hchars : (front ++ (Source.ofString w ++ rest)).chars
      ⟨front.size, front.size + (Source.ofString w).size⟩ = w.toList :=
    congrArg Array.toList hextract
  have hrecords : Records (front ++ (Source.ofString w ++ rest)) (some table) front.size
      (front.size + (Source.ofString w).size)
      [.enclosed ((table.classify w.toList).map KeywordClass.scope) w] := by
    have hsingle : table.lexeme.findAll ((front ++ (Source.ofString w ++ rest)).extract front.size
        (front.size + (Source.ofString w).size)) =
          [⟨0, front.size + (Source.ofString w).size - front.size⟩] := by
      rw [hextract, hlexeme, Nat.add_sub_cancel_left]
      exact Matcher.findAll_name (by decide) (mem_ends_of_name h.matches_lexeme)
    have hrecords := Records.of_findAll_single (Nat.lt_add_of_pos_right hpos) hsingle
    rw [Source.slice, hchars, String.ofList_toList] at hrecords
    exact hrecords
  rw [← hkeywords] at hrecords hsep
  refine .stretch hrecords hsep (Nat.le_add_right _ _) ?_ hquiet
  show _ ≤ (front ++ (Source.ofString w ++ rest)).size
  rw [Array.size_append, Array.size_append]
  omega

/-- **A simple token shows one node wherever it is set off.** -/
theorem exists_shows_of_isSimple (h : IsSimple w) : ∃ n, n.HasLeaf ∧ g.Shows w n := by
  have hliteral : Literal.IsLiteral (Source.ofString w).toList → ∃ n, n.HasLeaf ∧ g.Shows w n := by
    intro hw
    obtain ⟨scope, children, hleaf, hn⟩ := Literal.exists_shownAs hw
    exact ⟨_, hleaf, hg.takesLiterals.shows hg.isSound hn⟩
  cases h with
  | name h =>
    obtain ⟨table, hkeywords, hlexeme⟩ := hg.keywords
    refine ⟨_, ?_, hg.shows_name h hkeywords hlexeme⟩
    cases table.classify w.toList with
    | none => exact .text w
    | some c => exact .region List.mem_cons_self (.text w)
  | number h => exact hliteral (.number h)
  | string hq h => exact hliteral (.string hq h)
  | hexString hq h => exact hliteral (.hexString hq h)

/-- **A separator shows its text**, whatever is around it. -/
theorem crosses_separator {s : String} (hs : IsSeparator s) (front rest : Source)
    (options : Options) :
    Crosses (task g (front ++ (Source.ofString s ++ rest)) options) [] front.size
      (front.size + (Source.ofString s).size) [.text s] := by
  obtain ⟨table, hkeywords, hlexeme⟩ := hg.keywords
  have hpos : 0 < (Source.ofString s).size := by
    refine Nat.pos_of_ne_zero fun hzero => hs.1 ?_
    exact String.toList_inj.mp (List.eq_nil_of_length_eq_zero hzero)
  have hchars : (front ++ (Source.ofString s ++ rest)).chars
      ⟨front.size, front.size + (Source.ofString s).size⟩ = s.toList :=
    congrArg Array.toList (Source.extract_between front (Source.ofString s) rest)
  have hquiet : Quiet (task g (front ++ (Source.ofString s ++ rest)) options) [] [] front.size
      (front.size + (Source.ofString s).size) := by
    refine hg.quiet_of_blanks fun p hap hpb => ?_
    obtain ⟨p, rfl⟩ := Nat.exists_eq_add_of_le hap
    have hp : p < (Source.ofString s).size := Nat.lt_of_add_lt_add_left hpb
    refine ⟨(Source.ofString s)[p], hs.2 _ (List.getElem_mem (l := s.toList) hp), ?_⟩
    rw [Source.getElem?_append_add, Array.getElem?_append_left hp, Array.getElem?_eq_getElem hp]
  have hsize : front.size + (Source.ofString s).size ≤
      (front ++ (Source.ofString s ++ rest)).size := by
    rw [Array.size_append, Array.size_append]
    omega
  have htext : (front ++ (Source.ofString s ++ rest)).textNodes front.size
      (front.size + (Source.ofString s).size) = [.text s] := by
    rw [Source.textNodes, if_pos (Nat.lt_add_of_pos_right hpos), Source.slice, hchars,
      String.ofList_toList]
  rw [← htext]
  exact .gap hlexeme (by decide) hkeywords (Nat.lt_add_of_pos_right hpos) hsize
    (fun c hc => not_contains_of_mem_blanks c (hs.2 c (hchars ▸ hc))) hquiet

end SparesTokens

namespace IsSeparator

variable {s : String} (h : IsSeparator s)
include h

theorem toList_ne_nil : s.toList ≠ [] := fun hnil => h.1 (String.toList_inj.mp hnil)

theorem exists_first (rest : Source) :
    ∃ c ∈ blanks, (Source.ofString s ++ rest)[0]? = some c := by
  obtain ⟨c, cs, hcs⟩ := List.exists_cons_of_ne_nil h.toList_ne_nil
  refine ⟨c, h.2 c (hcs ▸ List.mem_cons_self), ?_⟩
  rw [Source.ofString, hcs, Array.getElem?_append_left (by simp)]
  rfl

theorem exists_last (front : Source) :
    ∃ c ∈ blanks, (front ++ Source.ofString s).EndsWith c := by
  have hpos : 0 < s.toList.length := List.length_pos_iff.mpr h.toList_ne_nil
  have hsize : (Source.ofString s).size = s.toList.length := rfl
  refine ⟨s.toList.getLast h.toList_ne_nil, h.2 _ (List.getLast_mem _), ?_⟩
  rw [Source.EndsWith, Array.size_append, Array.getElem?_append_right (by omega),
    show front.size + (Source.ofString s).size - 1 - front.size = s.toList.length - 1 by omega,
    Source.ofString, List.getElem?_toArray, ← List.getLast?_eq_getElem?,
    List.getLast?_eq_getLast_of_ne_nil h.toList_ne_nil]

end IsSeparator

/-! ### Sequences -/

/-- Between the other two, a scan outside of regions shows the text with these leaves. -/
def HasLeaves (g : Grammar) (options : Options) (front u rest : Source) (ts : List Token) : Prop :=
  ∃ ns : List Node, (∀ n ∈ ns, n.HasLeaf) ∧
    Crosses (task g (front ++ (u ++ rest)) options) [] front.size (front.size + u.size) ns ∧
    Node.allLeavesIn none ns.reverse = ts

/-- **One text behind another has the leaves of both**, joined where they meet. -/
theorem HasLeaves.append {g : Grammar} {options : Options} {front u v rest : Source}
    {ts ts' : List Token} (h : HasLeaves g options front u (v ++ rest) ts)
    (h' : HasLeaves g options (front ++ u) v rest ts') :
    HasLeaves g options front (u ++ v) rest (Token.join ts ts') := by
  obtain ⟨ns, hns, hcross, rfl⟩ := h
  obtain ⟨ns', hns', hcross', rfl⟩ := h'
  rw [Array.append_assoc, Array.size_append, Nat.add_assoc] at hcross'
  refine ⟨EventLog.Forest.glue ns' ns, EventLog.Forest.hasLeaf_glue hns' hns, ?_,
    EventLog.Forest.leaves_glue hns hns'⟩
  rw [Array.append_assoc, Array.size_append]
  exact hcross.trans hcross'

/-- The elements of two lists in turn, as long as there are any of both. -/
def alternate {α : Type} : List α → List α → List α
  | x :: xs, y :: ys => x :: y :: alternate xs ys
  | xs, [] => xs
  | [], ys => ys

namespace SparesTokens

variable {g : Grammar} (hg : SparesTokens g) (options : Options)
include hg

theorem hasLeaves_token {w : String} {front rest : Source} (hw : IsSimple w)
    (hoff : SetOff front rest) : HasLeaves g options front (Source.ofString w) rest
      (g.highlight w options).leaves := by
  obtain ⟨n, hn, hshows⟩ := hg.exists_shows_of_isSimple hw
  refine ⟨[n], List.forall_mem_singleton.mpr hn, hshows front rest options hoff, ?_⟩
  rw [List.reverse_singleton, Highlighted.leaves, hshows.nodes_eq hg.isSound]

/-- **Each token and each separator of a sequence has the leaves that it has by itself**, behind a
blank as well as at the start. -/
theorem hasLeaves_sequence {ws seps : List String} (hlength : seps.length = ws.length - 1)
    (hws : ∀ w ∈ ws, IsSimple w) (hseps : ∀ s ∈ seps, IsSeparator s) {front : Source}
    (hfront : front = #[] ∨ ∃ c ∈ blanks, front.EndsWith c) :
    HasLeaves g options front (Source.ofString (String.join (alternate ws seps))) #[]
      ((alternate (ws.map fun w => (g.highlight w options).leaves)
        (seps.map fun s => [⟨none, s⟩])).foldr Token.join []) := by
  induction seps generalizing ws front with
  | nil =>
    cases ws with
    | nil => exact ⟨[], nofun, .refl _ _ _, rfl⟩
    | cons w ws =>
      obtain rfl : ws = [] := List.eq_nil_of_length_eq_zero hlength.symm
      have htoken := hg.hasLeaves_token options (hws w List.mem_cons_self) ⟨hfront, .inl rfl⟩
      simpa [alternate] using htoken
  | cons s seps ih =>
    cases ws with
    | nil => cases hlength
    | cons w ws =>
      have hs := hseps s List.mem_cons_self
      have hrest := ih (show seps.length = ws.length - 1 from Nat.eq_sub_of_add_eq hlength)
        (fun w' hw' => hws w' (List.mem_cons_of_mem w hw'))
        (fun s' hs' => hseps s' (List.mem_cons_of_mem s hs'))
        (.inr (hs.exists_last (front ++ Source.ofString w)))
      have hseparator : HasLeaves g options (front ++ Source.ofString w) (Source.ofString s)
          (Source.ofString (String.join (alternate ws seps)) ++ #[]) [⟨none, s⟩] :=
        ⟨[.text s], List.forall_mem_singleton.mpr (.text s),
          hg.crosses_separator hs _ _ options, rfl⟩
      have htail := hseparator.append hrest
      have htoken := hg.hasLeaves_token options (hws w List.mem_cons_self)
        ⟨hfront, .inr (hs.exists_first (Source.ofString (String.join (alternate ws seps)) ++ #[]))⟩
      rw [← Array.append_assoc] at htoken
      simp only [List.map_cons, alternate, List.foldr_cons, String.join_cons,
        Source.ofString_append]
      exact htoken.append htail

end SparesTokens

end Language.Solidity

open Language.Solidity in
/-- **Simple tokens do not interact.**  However many of them stand in a text, with blanks in
between, its leaves are those of each token by itself and the separators, where neighbours without
a scope are merged. -/
theorem simple_tokens_do_not_interact :
    ∃ solidity, Language.Solidity.grammar = .ok solidity ∧
      ∀ (options : Options) (ws seps : List String), seps.length = ws.length - 1 →
        (∀ w ∈ ws, IsSimple w) → (∀ s ∈ seps, IsSeparator s) →
        (solidity.highlight (String.join (alternate ws seps)) options).leaves =
          (alternate (ws.map fun w => (solidity.highlight w options).leaves)
            (seps.map fun s => [⟨none, s⟩])).foldr Token.join [] := by
  obtain ⟨solidity, hsolidity, hsuits⟩ := Language.exists_solidity
  have hspares := sparesTokens_of_finish hsolidity hsuits.isSound
  refine ⟨solidity, hsolidity, fun options ws seps hlength hws hseps => ?_⟩
  obtain ⟨ns, -, hcross, hleaves⟩ :=
    hspares.hasLeaves_sequence options hlength hws hseps (.inl rfl)
  rw [Array.append_empty, Array.empty_append, show (#[] : Source).size = 0 from rfl,
    Nat.zero_add] at hcross
  rw [Highlighted.leaves, nodes_of_crosses (hsuits.isSound _ _) hcross, hleaves]

open Language.Solidity in
/-- A namespace with a number behind it, and a string behind the word that could belong to it. -/
theorem sequence_with_a_namespace :
    ∃ solidity, Language.Solidity.grammar = .ok solidity ∧
      let ws := ["msg", ".5", "unicode", "\"\\\"\""]
      let seps := [" ", "\t\n", " "]
      (seps.length = ws.length - 1 ∧ (∀ w ∈ ws, IsSimple w) ∧ ∀ s ∈ seps, IsSeparator s) ∧
        (solidity.highlight (String.join (alternate ws seps)) ⟨false⟩).leaves =
          (alternate (ws.map fun w => (solidity.highlight w ⟨false⟩).leaves)
            (seps.map fun s => [⟨none, s⟩])).foldr Token.join [] := by
  obtain ⟨solidity, hsolidity, hleaves⟩ := simple_tokens_do_not_interact
  refine ⟨solidity, hsolidity, ?_⟩
  intro ws seps
  have hname : ∀ name ∈ ["msg", "unicode"], IsPlainName name := by
    intro name hname
    refine ⟨?_, ?_, ?_⟩
    · unfold Language.MatchesFully
      revert name
      decide +kernel
    · revert name
      decide +kernel
    · revert name
      decide +kernel
  have hmatch : NumberLiteral.matchAt? (Source.ofString ".5") 0 =
      some (Source.ofString ".5").size := by decide +kernel
  have hnumber : ".5".toList ∈ NumberLiteral.literal :=
    NumberLiteral.matchAt?_zero_eq_size_iff.mp hmatch
  have hescape : ['\\', '"'] ∈ Literal.item '"' :=
    .inr ⟨['\\'], ⟨'\\', rfl, rfl⟩, ['"'], ⟨'"', rfl, rfl⟩, rfl⟩
  have hitems : ['\\', '"'] ∈ KStar.kstar (Literal.item '"') :=
    (show Literal.item '"' ≤ KStar.kstar (Literal.item '"') from le_kstar) hescape
  have hquote : ['"'] ∈ NumberLiteral.char '"' := ⟨'"', rfl, rfl⟩
  have hstring : "\"\\\"\"".toList ∈ Literal.string '"' :=
    ⟨[], .inl rfl, _, ⟨_, hquote, _, ⟨_, hitems, _, hquote, rfl⟩, rfl⟩, rfl⟩
  have hws : ∀ w ∈ ws, IsSimple w := by
    simp only [ws, List.forall_mem_cons]
    exact ⟨.name (hname _ (by decide)), .number hnumber, .name (hname _ (by decide)),
      .string (by decide) hstring, nofun⟩
  have hseps : ∀ s ∈ seps, IsSeparator s := by
    have hblanks : ∀ s ∈ [" ", "\t\n", " "], s ≠ "" ∧ s.toList.all blanks.contains = true := by
      decide
    intro s hs
    obtain ⟨hne, hall⟩ := hblanks s hs
    exact ⟨hne, fun c hc => List.contains_iff_mem.mp (List.all_eq_true.mp hall c hc)⟩
  exact ⟨⟨rfl, hws, hseps⟩, hleaves ⟨false⟩ ws seps rfl hws hseps⟩

end Highlighting
