/-
  Highlighting/Proofs/Language/HexStrings.lean
  ============================================
  **Strings of hexadecimal bytes**, and what is almost one.

  Behind `hex` and a quote, the rule for such strings takes bytes with single
  underscores between them, and then the quote, or it does not match at all
  (`Literal.mem_hexDigits_of_endAt?`).  Nothing else opens on the letters of
  `hex` (`Grammar.TakesHexStrings`), so that in the latter case they stay plain
  text, and a string without a mark opens behind them
  (`Scan.nodes_of_notMem_hexDigits`).
-/
import Highlighting.Proofs.Language.DottedNames
import Highlighting.Proofs.Language.Strings
import Highlighting.Proofs.Scan.Unclaimed

namespace Highlighting

open NumberLiteral (Reads char optional)
open Scan Search
open scoped Computability

/-! ### Bytes -/

namespace Literal

/-- Hexadecimal bytes with single underscores between them, if there are any. -/
def hexDigits : Language Char := optional (byte * (optional (char '_') * byte)∗)

theorem hexString_eq (q : Char) :
    hexString q = {"hex".toList} * (char q * (hexDigits * char q)) := rfl

/-- An underscore in front of each byte but the first is one behind each but the last. -/
theorem le_bytes : (byte * optional (char '_'))∗ * byte ≤ byte * (optional (char '_') * byte)∗ := by
  refine kstar_mul_le (le_mul_of_one_le_right' one_le_kstar) ?_
  calc byte * optional (char '_') * (byte * (optional (char '_') * byte)∗)
      = byte * ((optional (char '_') * byte) * (optional (char '_') * byte)∗) := by
        simp only [mul_assoc]
    _ ≤ byte * (optional (char '_') * byte)∗ := by
        gcongr
        exact mul_kstar_le_kstar

theorem language_hexBytes_eq : hexBytes.language = hexDigits := by
  rw [language_hexBytes, le_antisymm le_bytes bytes_le]
  rfl

/-- Whether a text has the form can be read off the ends of the expression. -/
theorem mem_hexDigits_iff {w : List Char} :
    w ∈ hexDigits ↔ w.length ∈ hexBytes.ends w.toArray 0 := by
  have hall : Source.chars w.toArray ⟨0, w.length⟩ = w := NumberLiteral.chars_all w.toArray
  rw [Regex.mem_ends_iff _ (by decide) (Nat.zero_le _), language_hexBytes_eq]
  constructor
  · intro hw
    exact ⟨Nat.zero_le _, Nat.le_refl _, by rwa [hall]⟩
  · intro hreads
    rw [← hall]
    exact hreads.mem

/-! ### What is almost such a string -/

/-- The letters of the mark. -/
def mark : List Char := ['h', 'e', 'x']

/-- A text that has the mark, and behind it a string without an escape. -/
structure IsMarked (text : Source) (q : Char) (body : List Char) : Prop where
  quote : q ∈ quotes
  plain : ∀ c ∈ body, c ≠ q ∧ c ≠ '\\' ∧ c ≠ '\n'
  toList : text.toList = mark ++ q :: (body ++ [q])

namespace IsMarked

variable {text : Source} {q : Char} {body : List Char} {p e : Nat} (h : IsMarked text q body)
include h

theorem size_eq : text.size = body.length + 5 := by
  rw [← Array.length_toList, h.toList]
  simp [mark]

theorem getElem?_eq (p : Nat) : text[p]? = (mark ++ q :: (body ++ [q]))[p]? := by
  rw [← Array.getElem?_toList, h.toList]

theorem getElem?_body (i : Nat) : text[4 + i]? = (body ++ [q])[i]? := by
  rw [h.getElem?_eq, Nat.add_comm 4 i]
  rfl

theorem getElem?_closing : text[4 + body.length]? = some q := by
  rw [h.getElem?_body]
  simp

theorem chars_body : text.chars ⟨4, 4 + body.length⟩ = body := by
  rw [Source.chars, Array.toList_extract, List.extract_eq_take_drop, h.toList]
  simp [mark]

/-- The quote does not come again before the end. -/
theorem eq_of_quote (hp : 4 ≤ p) (hquote : text[p]? = some q) : p = 4 + body.length := by
  obtain ⟨i, rfl⟩ := Nat.exists_eq_add_of_le hp
  rw [h.getElem?_body] at hquote
  rcases Nat.lt_trichotomy i body.length with hlt | rfl | hgt
  · rw [List.getElem?_append_left hlt] at hquote
    exact absurd rfl (h.plain q (List.mem_of_getElem? hquote)).1
  · rfl
  · rw [List.getElem?_eq_none (by simp; omega)] at hquote
    cases hquote

/-- **The rule matches only if what is in the string are bytes.** -/
theorem mem_hexDigits_of_endAt? {q' : Char} (hp : p < 3)
    (hend : endAt? ((hexQuoted q').find text ·) p = some e) : body ∈ hexDigits := by
  obtain ⟨hle, hfirst⟩ := Pattern.endAt?_plain.mp hend
  have hreads := Regex.reads_of_mem_ends _ hle (List.mem_of_head? hfirst)
  simp only [Regex.language, one_mul, language_hexBody, Reads.mul_iff, Reads.char_iff] at hreads
  obtain ⟨_, ⟨hletter, rfl⟩, _, ⟨-, rfl⟩, _, ⟨-, rfl⟩, _, ⟨hquote, rfl⟩, m, hbytes, hclosing, -⟩ :=
    hreads
  -- the word starts with an `h`, as the text does at its start alone
  obtain rfl : p = 0 := by
    rw [h.getElem?_eq] at hletter
    rcases p with _ | _ | _ | p
    · rfl
    · cases hletter
    · cases hletter
    · omega
  obtain rfl : q = q' := by
    rw [h.getElem?_eq] at hquote
    exact Option.some.inj hquote
  obtain rfl := h.eq_of_quote hbytes.le hclosing
  have hmem := hbytes.mem
  rwa [language_hexBytes_eq, h.chars_body] at hmem

/-- The mark and the quote, and what is behind. -/
theorem eq_append : text = (mark ++ [q]).toArray ++ (body ++ [q]).toArray := by
  apply Array.toList_inj.mp
  rw [h.toList]
  simp

theorem reads_items : Reads text (item q)∗ 4 (4 + body.length) := by
  have hsize := h.size_eq
  refine ⟨Nat.le_add_right 4 _, by omega, ?_⟩
  rw [h.chars_body, ← List.flatMap_singleton' body, List.flatMap_def]
  refine Language.join_mem_kstar fun w hw => ?_
  obtain ⟨c, hc, rfl⟩ := List.mem_map.mp hw
  obtain ⟨hquote, hescape, hline⟩ := h.plain c hc
  exact .inl ⟨c, by simp [hquote, hescape, hline], rfl⟩

end IsMarked

/-- The pattern is for strings of bytes, or it has no match at a letter of the mark, whatever
comes behind the quote. -/
def sparesMark (p : Pattern) : Bool :=
  quotes.any (fun q => p == hexQuoted q) || quotes.all fun q => p.stopsAt q &&
    [0, 1, 2].all fun i => endAt? (p.find (mark ++ [q]).toArray ·) i == none

theorem endsWith_mark (q : Char) : Source.EndsWith q (mark ++ [q]).toArray := rfl

/-- **Without bytes in the string, nothing matches at the mark.** -/
theorem IsMarked.endAt?_of_sparesMark {text : Source} {q : Char} {body : List Char}
    (h : IsMarked text q body) (hbody : body ∉ hexDigits) {pattern : Pattern}
    (hspares : sparesMark pattern = true) {p : Nat} (hp : p < 3) :
    endAt? (pattern.find text ·) p = none := by
  rcases (Bool.or_eq_true _ _).mp hspares with hhex | hnone
  · obtain ⟨q', -, heq⟩ := List.any_eq_true.mp hhex
    obtain rfl := eq_of_beq heq
    cases hend : endAt? ((hexQuoted q').find text ·) p with
    | none => rfl
    | some e => exact absurd (h.mem_hexDigits_of_endAt? hp hend) hbody
  · obtain ⟨hstops, hall⟩ := (Bool.and_eq_true _ _).mp (List.all_eq_true.mp hnone q h.quote)
    have hmem : p ∈ [0, 1, 2] := by
      simp only [List.mem_cons, List.not_mem_nil, or_false]
      omega
    rw [h.eq_append, Pattern.endAt?_append (endsWith_mark q) hstops (by simp [mark]; omega)]
    exact eq_of_beq (List.all_eq_true.mp hall p hmem)

/-- Behind the mark, the string with the quote opens, and no other one. -/
theorem IsMarked.endAt?_quoted {text : Source} {q : Char} {body : List Char}
    (h : IsMarked text q body) {q' : Char} (hq' : q' ∈ quotes) :
    endAt? ((quoted q').find text ·) 3 = if q' = q then some 4 else none := by
  have hall : quotes.all (fun q => quotes.all fun q' => (quoted q').stopsAt q &&
      endAt? ((quoted q').find (mark ++ [q]).toArray ·) 3 == if q' = q then some 4 else none) =
        true := by decide +kernel
  obtain ⟨hstops, hend⟩ := (Bool.and_eq_true _ _).mp
    (List.all_eq_true.mp (List.all_eq_true.mp hall q h.quote) q' hq')
  rw [h.eq_append, Pattern.endAt?_append (endsWith_mark q) hstops (by simp [mark])]
  exact eq_of_beq hend

end Literal

/-! ### Grammars -/

/-- Strings are taken as literals are, and the mark is neither a keyword nor do other rules match
there. -/
structure Grammar.TakesHexStrings (g : Grammar) : Prop extends g.TakesLiterals where
  outermost : ∀ source options, ∀ d ∈ candidates (task g source options) [],
    g.Passes Literal.sparesMark d.1
  keywords : ∃ table, g.root.keywords = some table ∧
    table.lexeme.findAll Literal.mark.toArray = [⟨0, 3⟩] ∧ table.classify Literal.mark = none

namespace Language

/-- The rules outside of all regions spare the mark. -/
def sparesMark (language : LanguageDecl) (b : Builder) : Bool :=
  b.outermost language Literal.sparesMark

theorem sparesMark_solidity : declares Solidity.declare sparesMark = true :=
  declares_of_workedOut Solidity.workedOut (by decide +kernel)

theorem sparesMark_yul : declares Yul.declare sparesMark = true :=
  declares_of_workedOut Yul.workedOut (by decide +kernel)

set_option maxRecDepth 4000 in
/-- No word of Solidity is the mark, since none of its lists has it, and no sized type starts so. -/
theorem Solidity.find?_mark : wordsDecl.words.find? Literal.mark = none := by
  cases hfind : wordsDecl.words.find? Literal.mark with
  | none => rfl
  | some c =>
    exfalso
    obtain ⟨e, he, hword⟩ := KeywordDecl.mem_of_find?_words hfind
    have hplain : ∀ w ∈ keywords ++ literals ++ builtIns, w.toList ≠ Literal.mark := by
      decide
    have hstems : ∀ stem ∈ stems, ¬ stem.toList <+: Literal.mark := by decide
    simp only [wordsDecl, KeywordDecl.add, KeywordDecl.withLexeme, KeywordDecl.empty,
      List.nil_append, List.map_append, List.mem_append, List.mem_map] at he
    rcases he with ((⟨v, hv, rfl⟩ | ⟨v, hv, rfl⟩) | ⟨v, hv, rfl⟩) | ⟨v, hv, rfl⟩
    · exact hplain v (by simp [hv]) hword
    · obtain ⟨stem, hstem, hprefix⟩ := hasStem_sizedTypes v hv
      exact hstems stem hstem (hword ▸ hprefix)
    · exact hplain v (by simp [hv]) hword
    · exact hplain v (by simp [hv]) hword

/-- Either lexeme takes the mark as one word. -/
theorem findAll_mark {rest : CharSet} (hrest : rest = Solidity.nameRest ∨ rest = Yul.nameRest) :
    (Matcher.listing (.name Solidity.nameStart rest)).findAll Literal.mark.toArray = [⟨0, 3⟩] := by
  rcases hrest with rfl | rfl
  · exact Matcher.findAll_name (by decide) (by decide)
  · exact Matcher.findAll_name (by decide) (by decide)

theorem takesHexStrings_solidity {g : Grammar} (hg : Solidity.grammar = .ok g) :
    g.TakesHexStrings := by
  obtain ⟨language, b, hdeclare, hfinish, hcheck⟩ :=
    exists_finish_of_declares sparesMark_solidity hg
  have hlexeme : Matcher.ofRegex (lexemeRegex Solidity.lexeme) =
      .listing (.name Solidity.nameStart Solidity.nameRest) := by decide
  refine ⟨takesLiterals_of_finish takesLiterals_solidity hg,
    fun source options => Builder.passes_of_outermost hfinish hcheck,
    ⟨.ofRegex (lexemeRegex Solidity.lexeme), Solidity.wordsDecl.words⟩, ?_, ?_, ?_⟩
  · rw [(Builder.realizes_of_finish hfinish).keywords]
    exact Solidity.keywords_declare Solidity.table_eq _ _ _ hdeclare
  · rw [hlexeme]
    exact findAll_mark (.inl rfl)
  · -- the words are not to be worked out here
    have hfind := Solidity.find?_mark
    generalize Solidity.wordsDecl.words = words at hfind ⊢
    exact hfind

theorem takesHexStrings_yul {g : Grammar} (hg : Yul.grammar = .ok g) : g.TakesHexStrings := by
  obtain ⟨language, b, hdeclare, hfinish, hcheck⟩ := exists_finish_of_declares sparesMark_yul hg
  obtain ⟨words, hkeywords, hwords⟩ := Yul.exists_keywords_of_finish hdeclare hfinish
  refine ⟨takesLiterals_of_finish takesLiterals_yul hg,
    fun source options => Builder.passes_of_outermost hfinish hcheck, _, hkeywords,
    findAll_mark (.inr rfl), ?_⟩
  show words.find? Literal.mark = none
  cases hfind : words.find? Literal.mark with
  | none => rfl
  | some c =>
    exfalso
    obtain ⟨e, he, hword⟩ := hwords _ c hfind
    have hplain : ∀ e ∈ Yul.wordsDecl.entries, e.1.toList ≠ Literal.mark := by decide +kernel
    exact hplain e he hword

end Language

/-! ### Scans -/

namespace Scan

/-- What stands at the start of a text, without a keyword in it, is shown as it is. -/
theorem shown_of_unclassified {task : Task} {table : KeywordTable} {p : Nat} (hp : 0 < p)
    (hkeywords : task.grammar.root.keywords = some table)
    (hwords : ∀ l ∈ table.lexeme.findAll (task.source.extract 0 p),
      table.classify (task.source.chars l) = none) :
    (State.start task.grammar).core.shown task p = ⟨task.source.textNodes 0 p, []⟩ := by
  have hcontent : (State.start task.grammar).core.keywords task.grammar = some table := hkeywords
  have hflushed : (State.start task.grammar).core.draft.flush task.source (some table) p =
      ({ Draft.empty with bufferStart := p }).addText ⟨0, p⟩ := by
    show Draft.classify task.source (some table) ⟨0, p⟩ { Draft.empty with bufferStart := p } = _
    rw [Draft.classify_table task.source table _ hp, Draft.addLexemes_of_unclassified]
    intro l hl
    rw [Nat.zero_add, Nat.zero_add]
    exact hwords l hl
  rw [Core.shown, hcontent, hflushed, Draft.forest_addText_eq]
  exact congrArg (EventLog.Forest.mk · []) (EventLog.Forest.glue_nil _)

section HexStrings

variable {g : Grammar} {text : String} {options : Options} {q : Char} {body : List Char}
  (hsound : (Scan.task g (Source.ofString text) options).IsSound) (hg : g.TakesHexStrings)
  (h : Literal.IsMarked (Source.ofString text) q body)
include hsound hg h

/-- **With bytes in it, the string is the only node.** -/
theorem nodes_of_mem_hexDigits (hbody : body ∈ Literal.hexDigits) :
    (g.highlight text options).nodes = [.region .string [.text text]] := by
  have hstands := stands_whole hsound hg.toTakesLiterals
  have hlist : (Source.ofString text).toList = text.toList := rfl
  have hmem : (Source.ofString text).toList ∈ Literal.hexString q := by
    rw [h.toList, Literal.hexString_eq]
    exact ⟨Literal.mark, rfl, _, ⟨[q], ⟨q, by simp, rfl⟩, _, ⟨body, hbody, [q], ⟨q, by simp, rfl⟩,
      rfl⟩, rfl⟩, rfl⟩
  have hcross := hstands.crosses_hexString h.quote hmem
  rw [Array.size_empty, Nat.zero_add, hlist, String.ofList_toList] at hcross
  exact nodes_of_crosses hsound hcross

omit hsound in
/-- Without bytes in the string, nothing matches at the letters of the mark. -/
theorem quiet_mark (hbody : body ∉ Literal.hexDigits) :
    Quiet (Scan.task g (Source.ofString text) options) [] [] 0 3 := by
  intro d hd p _ hp
  cases hend : admittedEnd? (Scan.task g (Source.ofString text) options) [] d.1 p with
  | none => rfl
  | some stop =>
    obtain ⟨t, ht, hmatch, -⟩ := admittedEnd?_eq_some_iff.mp hend
    have hnone := h.endAt?_of_sparesMark hbody (hg.outermost _ _ d hd t ht) hp
    cases hnone.symm.trans hmatch

omit hsound in
/-- The mark is no keyword, so that it is shown as text. -/
theorem shown_mark : (State.start (Scan.task g (Source.ofString text) options).grammar).core.shown
    (Scan.task g (Source.ofString text) options) 3 = ⟨[.text (.ofList Literal.mark)], []⟩ := by
  obtain ⟨table, hkeywords, hcut, hplain⟩ := hg.keywords
  have hmark : (Source.ofString text).extract 0 3 = Literal.mark.toArray := by
    apply Array.toList_inj.mp
    rw [Array.toList_extract, List.extract_eq_take_drop, h.toList]
    rfl
  have hletters : (Source.ofString text).chars ⟨0, 3⟩ = Literal.mark :=
    congrArg Array.toList hmark
  have hwords : ∀ l ∈ table.lexeme.findAll ((Source.ofString text).extract 0 3),
      table.classify ((Source.ofString text).chars l) = none := by
    intro l hl
    rw [hmark, hcut, List.mem_singleton] at hl
    rw [hl]
    exact (congrArg table.classify hletters).trans hplain
  have hshown : (State.start (Scan.task g (Source.ofString text) options).grammar).core.shown
      (Scan.task g (Source.ofString text) options) 3 =
        ⟨(Source.ofString text).textNodes 0 3, []⟩ :=
    shown_of_unclassified (by decide) hkeywords hwords
  rw [hshown, Source.textNodes, if_pos (by decide), Source.slice, hletters]

/-- The string opens behind the mark, as the first rule or as the second. -/
theorem next?_behind_mark :
    Place.next? (Scan.task g (Source.ofString text) options) [] ⟨3, []⟩ =
      some ⟨⟨3, 4⟩, .opens (Literal.stringMode q)⟩ := by
  have hstands := stands_whole hsound hg.toTakesLiterals
  obtain ⟨more, hmore⟩ := hg.contains
  obtain ⟨ks, ks', hmodes, hahead⟩ : ∃ ks ks', Literal.modes = ks ++ Literal.stringMode q :: ks' ∧
      ∀ j ∈ ks, ∃ q' ∈ Literal.quotes, j = Literal.stringMode q' ∧ q' ≠ q := by
    rcases List.mem_pair.mp h.quote with rfl | rfl
    · exact ⟨[], [2, 3, 4, 6, 7, 8], rfl, by simp⟩
    · exact ⟨[1], [3, 4, 6, 7, 8], rfl, fun j hj => ⟨'\'', by decide, List.mem_singleton.mp hj, by
        decide⟩⟩
  have hcontains : g.root.contains = ks ++ Literal.stringMode q :: (ks' ++ more) := by
    rw [← hmore, hmodes, List.append_assoc, List.cons_append]
  refine Place.next?_of_first hsound hcontains (fun j hj => ?_) ?_
  · obtain ⟨q', hq', rfl, hne⟩ := hahead j hj
    exact admittedEnd?_eq_none (hstands.obeys_stringRule hq').opener
      ((h.endAt?_quoted hq').trans (if_neg hne))
  · exact admittedEnd?_eq_some (hstands.obeys_stringRule h.quote).opener (by decide)
      ((h.endAt?_quoted h.quote).trans (if_pos rfl))

/-- **Without, the mark is text, and a string stands behind it.** -/
theorem nodes_of_notMem_hexDigits (hbody : body ∉ Literal.hexDigits) :
    (g.highlight text options).nodes = [.text (.ofList Literal.mark),
      .region .string [.text (.ofList (q :: (body ++ [q])))]] := by
  have hstands := stands_whole hsound hg.toTakesLiterals
  have hobeys := hstands.obeys_stringRule h.quote
  have hcloses := hstands.next?_closing h.quote h.getElem?_closing
  rw [Array.size_empty, Nat.zero_add] at hcloses
  obtain ⟨t, hending, -⟩ := hobeys.exists_ending rfl
  have hcross := Crosses.region hsound hobeys.excludesBegin hobeys.keywords
    (next?_behind_mark hsound hg h) hending hobeys.scope hobeys.excludesEnd hobeys.endsParent
    (hstands.crosses_inside h.quote h.reads_items) hcloses
  have hsize := h.size_eq
  have hsource : (Scan.task g (Source.ofString text) options).source = Source.ofString text := rfl
  rw [hsource, EventLog.Forest.glue_textNodes _ (by omega) (by omega),
    EventLog.Forest.glue_textNodes _ (by omega) (by omega), Source.textNodes,
    if_pos (by omega)] at hcross
  have hend : 4 + body.length + 1 = (Source.ofString text).size := by omega
  have hstring : (Source.ofString text).chars ⟨3, 4 + body.length + 1⟩ = q :: (body ++ [q]) := by
    rw [Source.chars, Array.toList_extract, List.extract_eq_take_drop, h.toList]
    exact List.take_of_length_le (by simp [Literal.mark]; omega)
  rw [Source.slice, hstring, hend] at hcross
  exact nodes_of_crosses_behind hsound (quiet_mark hg h hbody) (shown_mark hg h) hcross

end HexStrings

end Scan

/-! ### Tokens -/

section Tokens

variable {r : Registry} {g : Grammar} {language : String} {q : Char} {body string : String}
  (hlanguage : r.language? language = some g) (hg : g.TakesHexStrings)
  (hsound : ∀ source options, (Scan.task g source options).IsSound) (hq : q ∈ Literal.quotes)
  (hplain : ∀ c ∈ body.toList, c ≠ q ∧ c ≠ '\\' ∧ c ≠ '\n')
  (hstring : string = String.singleton q ++ body ++ String.singleton q)
include hlanguage hg hsound hq hplain hstring

theorem tokens_of_mem_hexDigits (hbody : body.toList ∈ Literal.hexDigits) :
    r.tokens ("hex" ++ string) language = .ok [("string", "hex" ++ string)] := by
  have h : Literal.IsMarked (Source.ofString ("hex" ++ string)) q body.toList :=
    ⟨hq, hplain, by simp [Source.ofString, hstring, Literal.mark]⟩
  rw [Registry.tokens_eq hlanguage, Highlighted.tokens,
    Scan.nodes_of_mem_hexDigits (hsound _ _) hg h hbody]
  simp [Node.token, Node.contents, Node.content, Token.category, Scope.categoryName, Scope.name]

theorem tokens_of_notMem_hexDigits (hbody : body.toList ∉ Literal.hexDigits) :
    r.tokens ("hex" ++ string) language = .ok [("none", "hex"), ("string", string)] := by
  have h : Literal.IsMarked (Source.ofString ("hex" ++ string)) q body.toList :=
    ⟨hq, hplain, by simp [Source.ofString, hstring, Literal.mark]⟩
  have hlist : String.ofList (q :: (body.toList ++ [q])) = string := by
    simp [← String.toList_inj, hstring]
  rw [Registry.tokens_eq hlanguage, Highlighted.tokens,
    Scan.nodes_of_notMem_hexDigits (hsound _ _) hg h hbody, hlist]
  simp [Node.token, Node.contents, Node.content, Token.category, Scope.categoryName, Scope.name,
    Literal.mark]

end Tokens

/-- **Whether what is in the string are bytes decides what its mark is**, in both languages: part
of the string, or text in front of it. -/
theorem hex_strings_are_recognised_exactly :
    ∃ r, Registry.withBuiltIns = .ok r ∧ ∀ language ∈ ["sol", "yul"], ∀ q ∈ Literal.quotes,
      ∀ body : String, (∀ c ∈ body.toList, c ≠ q ∧ c ≠ '\\' ∧ c ≠ '\n') →
        let string := String.singleton q ++ body ++ String.singleton q
        (body.toList ∈ Literal.hexDigits →
          r.tokens ("hex" ++ string) language = .ok [("string", "hex" ++ string)]) ∧
        (body.toList ∉ Literal.hexDigits →
          r.tokens ("hex" ++ string) language = .ok [("none", "hex"), ("string", string)]) := by
  obtain ⟨r, solidity, yul, hr⟩ := Registry.exists_isBuiltIn
  have hsolidity := Language.takesHexStrings_solidity hr.declaresSolidity
  have hyul := Language.takesHexStrings_yul hr.declaresYul
  refine ⟨r, hr.eq, fun language hmem q hq body hplain => ?_⟩
  simp only [List.mem_cons, List.not_mem_nil, or_false] at hmem
  rcases hmem with rfl | rfl
  · exact ⟨tokens_of_mem_hexDigits hr.sol hsolidity hr.suitsSolidity.isSound hq hplain rfl,
      tokens_of_notMem_hexDigits hr.sol hsolidity hr.suitsSolidity.isSound hq hplain rfl⟩
  · exact ⟨tokens_of_mem_hexDigits hr.yul hyul hr.suitsYul.isSound hq hplain rfl,
      tokens_of_notMem_hexDigits hr.yul hyul hr.suitsYul.isSound hq hplain rfl⟩

/-- Two bytes with an underscore between them, and the same with another one. -/
theorem hex_strings_with_underscores :
    ∃ r, Registry.withBuiltIns = .ok r ∧
      r.tokens "hex\"c0_de\"" "sol" = .ok [("string", "hex\"c0_de\"")] ∧
      r.tokens "hex'c0__de'" "yul" = .ok [("none", "hex"), ("string", "'c0__de'")] := by
  obtain ⟨r, hr, htokens⟩ := hex_strings_are_recognised_exactly
  have hbytes : "c0_de".toList ∈ Literal.hexDigits :=
    Literal.mem_hexDigits_iff.mpr (by decide)
  have hnone : "c0__de".toList ∉ Literal.hexDigits := fun h =>
    absurd (Literal.mem_hexDigits_iff.mp h) (by decide)
  obtain ⟨hwhole, -⟩ := htokens "sol" (by decide) '"' (by decide) "c0_de" (by simp)
  obtain ⟨-, hparts⟩ := htokens "yul" (by decide) '\'' (by decide) "c0__de" (by simp)
  exact ⟨r, hr, hwhole hbytes, hparts hnone⟩

end Highlighting
