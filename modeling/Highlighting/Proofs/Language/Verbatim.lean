/-
  Highlighting/Proofs/Language/Verbatim.lean
  ==========================================
  **The family `verbatim_<n>i_<m>o`** of Yul.

  A member is written with two numbers up to 99.  The rule for it comes last, and
  what is ahead of it has a character that such a word has not, or is a number,
  of which there is none behind a letter (`Language.Yul.TakesVerbatim`).  Where
  the rule matches in a word of the kind, with dollar signs around it or without,
  it matches the whole word (`eq_of_reads_verbatim`), so that the digits alone
  decide whether the word is a member (`verbatim_words_are_decided_by_digits`).
-/
import Highlighting.Proofs.Language.DottedNames
import Highlighting.Proofs.Language.Literals
import Highlighting.Proofs.Regex.WholeWords

namespace Highlighting

open NumberLiteral (Reads one optional)
open Search
open scoped Computability

/-! ### Expressions between edges of words -/

namespace Regex

variable {text : Source} {p e : Nat} {rs ss : List Regex}

theorem language_seqAll_cons (r : Regex) (rs : List Regex) :
    (seqAll (r :: rs)).language = r.language * (seqAll rs).language := by
  cases rs with
  | nil => exact (mul_one _).symm
  | cons s rs => rfl

theorem language_seqAll_append (rs ss : List Regex) :
    (seqAll (rs ++ ss)).language = (seqAll rs).language * (seqAll ss).language := by
  induction rs with
  | nil => exact (one_mul _).symm
  | cons r rs ih =>
    rw [List.cons_append, language_seqAll_cons, language_seqAll_cons, ih, mul_assoc]

/-- The first end is the only one there is. -/
theorem firstEnd?_of_unique {r : Regex} (hmem : e ∈ r.ends text p)
    (h : ∀ e' ∈ r.ends text p, e' = e) : r.firstEnd? text p = some e := by
  rw [firstEnd?]
  cases hends : r.ends text p with
  | nil =>
    rw [hends] at hmem
    cases hmem
  | cons e' es => rw [List.head?_cons, h e' (hends ▸ List.mem_cons_self)]

/-- Between two edges, an expression matches what it matches if both are there. -/
theorem mem_ends_between_edges (hfree : (seqAll rs).isFree = true) (hp : p ≤ text.size) :
    e ∈ (seqAll (.anchor edge :: (rs ++ [.anchor edge]))).ends text p ↔
      edge.holds text p = true ∧ Reads text (seqAll rs).language p e ∧
        edge.holds text e = true := by
  have hlast : ∀ q, e ∈ (seqAll [.anchor edge]).ends text q ↔
      e = q ∧ edge.holds text q = true := fun _ => mem_ends_anchor
  rw [ends_seqAll_cons]
  simp only [List.mem_flatMap, mem_ends_anchor, ends_seqAll_append, hlast]
  constructor
  · rintro ⟨_, ⟨rfl, hstart⟩, _, hreads, rfl, hstop⟩
    exact ⟨hstart, (mem_ends_iff _ hfree hp).mp hreads, hstop⟩
  · rintro ⟨hstart, hreads, hstop⟩
    exact ⟨p, ⟨rfl, hstart⟩, e, (mem_ends_iff _ hfree hp).mpr hreads, rfl, hstop⟩

end Regex

/-! ### Words of the kind -/

namespace Language.Yul

/-- What all words of the kind start with. -/
def stem : List Char := ['v', 'e', 'r', 'b', 'a', 't', 'i', 'm', '_']

/-- The word with the two texts in it. -/
def verbatim (n m : List Char) : List Char := stem ++ (n ++ (['i', '_'] ++ (m ++ ['o'])))

/-- One digit, or two of which the first is not zero. -/
def arity : Language Char := optional (one (CharSet.range '1' '9').contains) *
  one CharClass.isAsciiDigit

/-- The expression for a number. -/
def arityFactors : List Regex :=
  [.rep true 0 (some 1) (.set (.range '1' '9')), .set (.range '0' '9')]

/-- What a member of the family is made of, the edges of the word apart. -/
def verbatimFactors : List Regex :=
  stem.map .char ++ (arityFactors ++ (['i', '_'].map .char ++
    (arityFactors ++ ['o'].map .char)))

theorem lexemeRegex_verbatim : lexemeRegex verbatimRegex =
    .seqAll (.anchor Regex.edge :: (verbatimFactors ++ [.anchor Regex.edge])) := by decide

theorem language_arityFactors : (Regex.seqAll arityFactors).language = arity := by
  have hdigit : one (CharSet.range '0' '9').contains = one CharClass.isAsciiDigit := rfl
  simp only [arityFactors, Regex.seqAll, Regex.language, arity, hdigit, pow_zero, one_mul,
    Nat.sub_zero, pow_one]

theorem mem_language_verbatimFactors {w : List Char} :
    w ∈ (Regex.seqAll verbatimFactors).language ↔
      ∃ n ∈ arity, ∃ m ∈ arity, w = verbatim n m := by
  have hspelling : ∀ cs : List Char, Regex.seqAll (cs.map .char) = .spelling cs := fun _ => rfl
  simp only [verbatimFactors, Regex.language_seqAll_append, language_arityFactors, hspelling,
    Language.mem_mul, Regex.mem_language_spelling]
  constructor
  · rintro ⟨_, rfl, _, ⟨n, hn, _, ⟨_, rfl, _, ⟨m, hm, _, rfl, rfl⟩, rfl⟩, rfl⟩, rfl⟩
    exact ⟨n, hn, m, hm, rfl⟩
  · rintro ⟨n, hn, m, hm, rfl⟩
    exact ⟨_, rfl, _, ⟨n, hn, _, ⟨_, rfl, _, ⟨m, hm, _, rfl, rfl⟩, rfl⟩, rfl⟩, rfl⟩

/-! ### Where the word stands -/

variable {front back n m n' m' a b : List Char} {text : Source} {p e : Nat}

theorem notMem_of_digits {c : Char} (h : ∀ d ∈ n, CharClass.isAsciiDigit d = true)
    (hc : CharClass.isAsciiDigit c = false) : c ∉ n := by
  intro hmem
  rw [h c hmem] at hc
  cases hc

/-- A text with one word of the kind in it. -/
structure IsVerbatim (front n m back : List Char) : Prop where
  front : ∀ c ∈ front, c = '$'
  first : ∀ d ∈ n, CharClass.isAsciiDigit d = true
  second : ∀ d ∈ m, CharClass.isAsciiDigit d = true
  back : ∀ c ∈ back, c = '$'

namespace IsVerbatim

variable (h : IsVerbatim front n m back)
include h

theorem notMem_front {c : Char} (hc : c ≠ '$') : c ∉ front := fun hmem => hc (h.front c hmem)

theorem notMem_back {c : Char} (hc : c ≠ '$') : c ∉ back := fun hmem => hc (h.back c hmem)

/-- **There is no other word of the kind in it**: one letter only is a `v`, and behind the stem the
numbers go up to the next `i` and the next `o`. -/
theorem unique (heq : front ++ (verbatim n m ++ back) = a ++ (verbatim n' m' ++ b)) :
    front = a ∧ n = n' ∧ m = m' ∧ back = b := by
  have hparts : ∀ n m cs, verbatim n m ++ cs =
      'v' :: (stem.tail ++ (n ++ 'i' :: '_' :: (m ++ 'o' :: cs))) := by
    simp [verbatim, stem]
  have ho : 'o' ∉ back := h.notMem_back (by decide)
  have hi : 'i' ∉ '_' :: (m ++ 'o' :: back) := by
    simp [notMem_of_digits h.second (c := 'i') rfl, h.notMem_back (c := 'i') (by decide)]
  have hv : 'v' ∉ stem.tail ++ (n ++ 'i' :: '_' :: (m ++ 'o' :: back)) := by
    simp [stem, notMem_of_digits h.first (c := 'v') rfl, notMem_of_digits h.second (c := 'v') rfl,
      h.notMem_back (c := 'v') (by decide)]
  rw [hparts, hparts] at heq
  obtain ⟨hfront, -, hrest⟩ :=
    (List.append_cons_inj_of_notMem (h.notMem_front (by decide)) hv).mp heq
  obtain ⟨hn, -, hrest⟩ := (List.append_cons_inj_of_notMem (notMem_of_digits h.first rfl) hi).mp
    (List.append_cancel_left hrest)
  obtain ⟨hm, -, hback⟩ := (List.append_cons_inj_of_notMem (notMem_of_digits h.second rfl) ho).mp
    (List.cons.inj hrest).2
  exact ⟨hfront, hn, hm, hback⟩

/-- **Whatever the rule reads is the word.** -/
theorem eq_of_reads (htext : text.toList = front ++ (verbatim n m ++ back))
    (hreads : Reads text (Regex.seqAll verbatimFactors).language p e) :
    p = front.length ∧ e = front.length + (verbatim n m).length ∧ n ∈ arity ∧ m ∈ arity := by
  obtain ⟨n', hn', m', hm', hword⟩ := mem_language_verbatimFactors.mp hreads.mem
  have hle := hreads.le
  have hsize : e ≤ text.toList.length := hreads.le_size
  have hsplit : text.toList = text.toList.take p ++ (verbatim n' m' ++ text.toList.drop e) := by
    rw [← hword, Source.chars, Array.toList_extract, List.extract_eq_take_drop]
    have hrest : text.toList.drop e = (text.toList.drop p).drop (e - p) := by
      rw [List.drop_drop, Nat.add_sub_cancel' hle]
    rw [hrest, List.take_append_drop, List.take_append_drop]
  obtain ⟨hfront, rfl, rfl, -⟩ := h.unique (htext.symm.trans hsplit)
  have hp : front.length = p := by
    rw [hfront, List.length_take, Nat.min_eq_left (Nat.le_trans hle hsize)]
  have hlength := congrArg List.length hword
  rw [Reads.length_chars hreads.le_size] at hlength
  exact ⟨hp.symm, by omega, hn', hm'⟩

end IsVerbatim

/-! ### The rule -/

/-- What the rule of the family looks for. -/
def verbatimPattern : Pattern :=
  .regex (.regular (.listing (lexemeRegex verbatimRegex))) (some '$') ['$'] 0

def verbatimRule : Rule := ⟨some .builtIn, verbatimPattern, none, none, []⟩

theorem isFree_verbatimFactors : (Regex.seqAll verbatimFactors).isFree = true := by decide

/-- **The rule matches only members of the family**, with no dollar sign next to them. -/
theorem IsVerbatim.of_endAt? (h : IsVerbatim front n m back)
    (htext : text.toList = front ++ (verbatim n m ++ back))
    (hend : endAt? (verbatimPattern.find text ·) p = some e) :
    front = [] ∧ back = [] ∧ n ∈ arity ∧ m ∈ arity := by
  obtain ⟨hp, stop, hfirst, rfl, hrefuses⟩ := Pattern.endAt?_listing_eq_some_iff.mp hend
  rw [Regex.firstEnd?, lexemeRegex_verbatim] at hfirst
  obtain ⟨-, hreads, -⟩ := (Regex.mem_ends_between_edges isFree_verbatimFactors hp).mp
    (List.mem_of_head? hfirst)
  obtain ⟨rfl, rfl, hn, hm⟩ := h.eq_of_reads htext hreads
  rw [Pattern.refuses, Bool.or_eq_false_iff] at hrefuses
  obtain ⟨hbefore, hafter⟩ := hrefuses
  refine ⟨?_, ?_, hn, hm⟩
  · rcases List.eq_nil_or_concat front with rfl | ⟨cs, c, rfl⟩
    · rfl
    -- the last character in front would be a dollar sign
    exfalso
    obtain rfl : c = '$' := h.front c (by simp)
    have hlast : text.before? (cs.concat '$').length = some '$' := by
      rw [List.length_concat, Source.before?, ← Array.getElem?_toList, htext]
      simp
    rw [show Span.start ⟨(cs.concat '$').length, _⟩ = (cs.concat '$').length from rfl,
      hlast] at hbefore
    cases hbefore
  · cases back with
    | nil => rfl
    | cons c cs =>
      exfalso
      obtain rfl : c = '$' := h.back c List.mem_cons_self
      have hnext : text[front.length + (verbatim n m).length]? = some '$' := by
        rw [← Array.getElem?_toList, htext]
        simp
      rw [show Span.stop ⟨_, front.length + (verbatim n m).length⟩ =
        front.length + (verbatim n m).length from rfl, hnext] at hafter
      cases hafter

theorem isAsciiDigit_of_contains {c : Char} (h : (CharSet.range '1' '9').contains c = true) :
    CharClass.isAsciiDigit c = true := by
  simp only [CharSet.contains, CharClass.isAsciiDigit, Bool.and_eq_true,
    decide_eq_true_eq] at h ⊢
  exact ⟨Char.le_trans (by decide) h.1, h.2⟩

theorem isAsciiDigit_of_mem_arity (h : n ∈ arity) : ∀ d ∈ n, CharClass.isAsciiDigit d = true := by
  obtain ⟨u, hu, _, ⟨d, hd, rfl⟩, rfl⟩ := Language.mem_mul.mp h
  intro c hc
  rcases List.mem_append.mp hc with hc | hc
  · rcases hu with rfl | ⟨c', hc', rfl⟩
    · cases hc
    · rw [List.mem_singleton.mp hc]
      exact isAsciiDigit_of_contains hc'
  · rw [List.mem_singleton.mp hc]
    exact hd

/-- **The rule matches a member of the family in full.** -/
theorem endAt?_verbatim (hn : n ∈ arity) (hm : m ∈ arity) (htext : text.toList = verbatim n m) :
    endAt? (verbatimPattern.find text ·) 0 = some text.size := by
  have h : IsVerbatim [] n m [] :=
    ⟨nofun, isAsciiDigit_of_mem_arity hn, isAsciiDigit_of_mem_arity hm, nofun⟩
  have hwhole : text.toList = [] ++ (verbatim n m ++ []) := by rw [htext]; simp
  have hsize : text.size = (verbatim n m).length := by rw [← Array.length_toList, htext]
  have hreads : Reads text (Regex.seqAll verbatimFactors).language 0 text.size := by
    refine ⟨Nat.zero_le _, Nat.le_refl _, ?_⟩
    rw [NumberLiteral.chars_all, htext]
    exact mem_language_verbatimFactors.mpr ⟨n, hn, m, hm, rfl⟩
  have hends : ∀ e, e ∈ (lexemeRegex verbatimRegex).ends text 0 ↔ Regex.edge.holds text 0 = true ∧
      Reads text (Regex.seqAll verbatimFactors).language 0 e ∧ Regex.edge.holds text e = true := by
    intro e
    rw [lexemeRegex_verbatim, Regex.mem_ends_between_edges isFree_verbatimFactors (Nat.zero_le _)]
  have hstart : Regex.edge.holds text 0 = true := by
    have hfirst : text[0]? = some 'v' := by
      rw [← Array.getElem?_toList, htext]
      rfl
    have hword : CharClass.isWord 'v' = true := by decide
    rw [Regex.holds_edge_iff, hfirst, Option.any_some, hword]
    exact Bool.false_ne_true
  have hstop : Regex.edge.holds text text.size = true := by
    have hlast : text.before? text.size = some 'o' := by
      have hlength : text.size = (stem ++ (n ++ (['i', '_'] ++ m))).length + 1 := by
        rw [hsize, verbatim]
        simp
        omega
      rw [hlength, Source.before?, ← Array.getElem?_toList, htext, verbatim]
      simp
    have hword : CharClass.isWord 'o' = true := by decide
    rw [Regex.holds_edge_iff, hlast, Array.getElem?_eq_none (Nat.le_refl _), Option.any_some, hword]
    exact Bool.noConfusion
  refine Pattern.endAt?_listing_eq_some_iff.mpr ⟨Nat.zero_le _, text.size, ?_, rfl, ?_⟩
  · refine Regex.firstEnd?_of_unique ((hends _).mpr ⟨hstart, hreads, hstop⟩) fun e he => ?_
    obtain ⟨-, he, -⟩ := h.eq_of_reads hwhole ((hends e).mp he).2.1
    rw [he, hsize, List.length_nil, Nat.zero_add]
  · show (Option.any _ (text.before? 0) || Option.any _ text[text.size]?) = false
    rw [Array.getElem?_eq_none (Nat.le_refl _)]
    rfl

/-! ### The grammar -/

/-- The characters of words of the kind, and of what may stand around them. -/
def verbatimChars : List Char :=
  stem ++ ['o', '$'] ++ ['0', '1', '2', '3', '4', '5', '6', '7', '8', '9']

/-- A match of the pattern has a character that no word of the kind has, or is a number. -/
def sparesVerbatim (p : Pattern) : Bool := p.strays verbatimChars || p == .number

/-- The rule of the family comes last, all others spare its words, and nothing is illegal. -/
def hasVerbatim (language : LanguageDecl) (b : Builder) : Bool :=
  language.contains.dropLast.all (b.modeAt (·.opensWith b sparesVerbatim)) &&
    language.contains.getLast?.any (b.obeys · verbatimRule) && language.illegal.isNone

theorem hasVerbatim_yul : declares declare hasVerbatim = true :=
  declares_of_workedOut workedOut (by decide +kernel)

/-- What decides what words of the kind are. -/
structure TakesVerbatim (g : Grammar) : Prop where
  keywords : ∃ words, g.root.keywords =
      some ⟨.listing (.name Solidity.nameStart nameRest), words⟩ ∧
    ∀ w c, words.find? w = some c → ∃ e ∈ wordsDecl.entries, e.1.toList = w
  contains : ∃ ks k, g.root.contains = ks ++ [k] ∧
    (∀ j ∈ ks, g.Passes sparesVerbatim (g.mode j).opener) ∧ g.Obeys k verbatimRule
  illegal : g.root.illegal = none

theorem takesVerbatim_of_finish {g : Grammar} (hg : grammar = .ok g) : TakesVerbatim g := by
  obtain ⟨language, b, hdeclare, hfinish, hcheck⟩ :=
    exists_finish_of_declares hasVerbatim_yul hg
  have hrealizes := Builder.realizes_of_finish hfinish
  simp only [hasVerbatim, Bool.and_eq_true] at hcheck
  obtain ⟨⟨hothers, hlast⟩, hillegal⟩ := hcheck
  obtain ⟨k, hk, hobeys⟩ := (Option.any_eq_true _ _).mp hlast
  refine ⟨exists_keywords_of_finish hdeclare hfinish, ⟨language.contains.dropLast, k, ?_,
    Builder.opener_passes_of_all hfinish hothers, Builder.obeys_of_finish hfinish hobeys⟩, ?_⟩
  · rw [hrealizes.contains]
    exact (List.dropLast_append_getLast? k hk).symm
  · have hnone := hrealizes.illegal
    rw [Option.isNone_iff_eq_none.mp hillegal] at hnone
    generalize g.root.illegal = illegal at hnone
    cases hnone
    rfl

namespace IsVerbatim

variable (h : IsVerbatim front n m back)
  (htext : text.toList = front ++ (verbatim n m ++ back))
include h htext

theorem mem_verbatimChars : ∀ c ∈ text, c ∈ verbatimChars := by
  have hdigit : ∀ d, CharClass.isAsciiDigit d = true → d ∈ verbatimChars := by
    have hall : ∀ i < 10, Char.ofNat (48 + i) ∈ verbatimChars := by decide
    intro d hd
    obtain ⟨i, hi, rfl⟩ := CharClass.exists_of_isAsciiDigit hd
    exact hall i hi
  have hother : ∀ c ∈ stem ++ ['o', '$'], c ∈ verbatimChars := fun _ => List.mem_append_left _
  have hdollar : '$' ∈ verbatimChars := hother '$' (by decide)
  have hletters : ['i', '_'] ⊆ verbatimChars := by decide
  intro c hc
  have hmem : c ∈ front ++ (verbatim n m ++ back) := htext ▸ Array.mem_toList_iff.mpr hc
  simp only [verbatim, List.mem_append] at hmem
  rcases hmem with hmem | (hmem | hmem | hmem | hmem | hmem) | hmem
  · exact h.front c hmem ▸ hdollar
  · exact hother c (List.mem_append_left _ hmem)
  · exact hdigit c (h.first c hmem)
  · exact hletters hmem
  · exact hdigit c (h.second c hmem)
  · exact hother c (List.mem_append_right _ (List.mem_cons.mpr (.inl (List.mem_singleton.mp hmem))))
  · exact h.back c hmem ▸ hdollar

theorem getElem?_zero : text[0]? = some 'v' ∨ text[0]? = some '$' := by
  rw [← Array.getElem?_toList, htext]
  cases front with
  | nil => exact .inl rfl
  | cons c cs =>
    rw [h.front c List.mem_cons_self]
    exact .inr rfl

/-- Nothing but the rule of the family matches in the text. -/
theorem endAt?_eq_none_of_sparesVerbatim {pattern : Pattern}
    (hspares : sparesVerbatim pattern = true) (p : Nat) :
    endAt? (pattern.find text ·) p = none := by
  have hchars := h.mem_verbatimChars htext
  simp only [sparesVerbatim, Bool.or_eq_true, beq_iff_eq] at hspares
  rcases hspares with hstrays | rfl
  · exact Pattern.endAt?_eq_none_of_strays hstrays hchars p
  rcases Nat.lt_or_ge text.size p with hgt | hle
  · exact Pattern.endAt?_of_gt hgt .number
  have hcontinues : ∀ c ∈ verbatimChars, NumberLiteral.continuesWord c = true :=
    List.all_eq_true.mp (by decide)
  have hfirst : (text[0]?).any CharClass.isAsciiDigit = false := by
    rcases h.getElem?_zero htext with hc | hc <;> rw [hc] <;> rfl
  rw [Pattern.endAt?_number hle]
  exact NumberLiteral.matchAt?_of_name (fun c hc => hcontinues c (hchars c hc)) hfirst p

/-- The text is a single name. -/
theorem size_mem_ends_name :
    text.size ∈ (Regex.name Solidity.nameStart nameRest).ends text 0 := by
  have hrest : ∀ c ∈ verbatimChars, nameRest.contains c = true := List.all_eq_true.mp (by decide)
  have hfirst : (text[0]?).any Solidity.nameStart.contains = true := by
    rcases h.getElem?_zero htext with hc | hc <;> rw [hc] <;> decide
  have hpos : 0 < text.size := by
    obtain ⟨c, hc, -⟩ := (Option.any_eq_true _ _).mp hfirst
    exact (Array.getElem?_eq_some_iff.mp hc).1
  refine List.mem_of_head? (Regex.firstEnd?_name_iff.mpr ⟨hfirst, hpos, fun q _ hq => ?_, ?_⟩)
  · rw [Array.getElem?_eq_getElem hq, Option.any_some]
    exact hrest _ (h.mem_verbatimChars htext _ (Array.getElem_mem hq))
  · rw [Array.getElem?_eq_none (Nat.le_refl _)]
    rfl

/-- The text is no keyword. -/
theorem find?_eq_none {words : WordMap KeywordClass}
    (hwords : ∀ w c, words.find? w = some c → ∃ e ∈ wordsDecl.entries, e.1.toList = w) :
    words.find? text.toList = none := by
  cases hfind : words.find? text.toList with
  | none => rfl
  | some c =>
    exfalso
    obtain ⟨e, he, heq⟩ := hwords _ c hfind
    have hplain : ∀ e ∈ wordsDecl.entries, '$' ∉ e.1.toList ∧ ¬ stem <+: e.1.toList := by
      decide +kernel
    obtain ⟨hdollar, hstem⟩ := hplain e he
    rw [heq, htext] at hdollar hstem
    cases front with
    | nil => exact hstem (by simp [verbatim])
    | cons c cs =>
      rw [h.front c List.mem_cons_self] at hdollar
      exact hdollar List.mem_cons_self

end IsVerbatim

section Tokens

variable {g : Grammar} {source : String} {options : Scan.Options}
  (hg : TakesVerbatim g) (hsound : (Scan.task g (Source.ofString source) options).IsSound)
include hg hsound

/-- **What the rule does not match is a name like any other.** -/
theorem tokens_of_not_member (h : IsVerbatim front n m back)
    (hsource : source.toList = front ++ (verbatim n m ++ back))
    (hnot : ¬ (front = [] ∧ back = [] ∧ n ∈ arity ∧ m ∈ arity)) :
    (g.highlight source options).tokens = [⟨none, source⟩] := by
  obtain ⟨words, hkeywords, hwords⟩ := hg.keywords
  obtain ⟨ks, k, hcontains, hothers, hobeys⟩ := hg.contains
  have htext : (Source.ofString source).toList = front ++ (verbatim n m ++ back) := hsource
  have hends := h.size_mem_ends_name htext
  have hunclaimed : Scan.Unclaimed (Scan.task g (Source.ofString source) options) [] := by
    rintro ⟨index, candidate⟩ hd t ht q
    cases candidate with
    | opens j =>
      obtain ⟨hj, rfl⟩ := Scan.mem_candidates_opens.mp hd
      have hj' : j ∈ ks ++ [k] := hcontains ▸ hj
      rcases List.mem_append.mp hj' with hj' | hj'
      · exact h.endAt?_eq_none_of_sparesVerbatim htext (hothers j hj' t ht) q
      · obtain rfl := List.mem_singleton.mp hj'
        obtain rfl : ⟨verbatimPattern, false⟩ = t := Option.some.inj (hobeys.opener.symm.trans ht)
        cases hend : endAt? (verbatimPattern.find (Source.ofString source) ·) q with
        | none => exact hend
        | some stop => exact absurd (h.of_endAt? htext hend) hnot
    | closes depth => exact nomatch Scan.mem_candidates_closes.mp hd
    | illegal =>
      have hillegal : g.root.illegal = some index := (Scan.mem_candidates_illegal.mp hd).2
      rw [hg.illegal] at hillegal
      cases hillegal
  have hne : 0 < (Source.ofString source).size := by
    obtain ⟨c, hc, -⟩ := (Option.any_eq_true _ _).mp (Regex.any_of_mem_ends_name hends).1
    exact (Array.getElem?_eq_some_iff.mp hc).1
  refine Scan.tokens_of_unclaimed hsound hne hunclaimed hkeywords fun l hl => ?_
  rw [Matcher.findAll_name (by decide) hends, List.mem_singleton] at hl
  have hchars : (Source.ofString source).chars l = (Source.ofString source).toList := by
    rw [hl, NumberLiteral.chars_all]
  rw [KeywordTable.classify, hchars]
  exact h.find?_eq_none htext hwords

/-- **A member of the family is a built-in.** -/
theorem tokens_of_member (hn : n ∈ arity) (hm : m ∈ arity)
    (hsource : source.toList = verbatim n m) :
    (g.highlight source options).tokens = [⟨some .builtIn, source⟩] := by
  obtain ⟨ks, k, hcontains, hothers, hobeys⟩ := hg.contains
  have h : IsVerbatim [] n m [] :=
    ⟨nofun, isAsciiDigit_of_mem_arity hn, isAsciiDigit_of_mem_arity hm, nofun⟩
  have htext : (Source.ofString source).toList = [] ++ (verbatim n m ++ []) := by
    rw [List.append_nil]
    exact hsource
  have hend : endAt? (verbatimPattern.find (Source.ofString source) ·) 0 =
      some (Source.ofString source).size := endAt?_verbatim hn hm hsource
  have hlt : 0 < (Source.ofString source).size := by
    rcases h.getElem?_zero htext with hc | hc <;> exact (Array.getElem?_eq_some_iff.mp hc).1
  have hnext : Scan.Place.next? (Scan.task g (Source.ofString source) options) [] ⟨0, []⟩ =
      some ⟨⟨0, (Source.ofString source).size⟩, .opens k⟩ := by
    refine Scan.Place.next?_of_first hsound hcontains (fun j hj => ?_)
      (Scan.admittedEnd?_eq_some hobeys.opener hlt hend)
    cases hother : Scan.admittedEnd? (Scan.task g (Source.ofString source) options) []
      (g.mode j).opener 0 with
    | none => exact hother
    | some stop =>
      obtain ⟨t, ht, hmatch, -⟩ := Scan.admittedEnd?_eq_some_iff.mp hother
      have hnone := h.endAt?_eq_none_of_sparesVerbatim htext (hothers j hj t ht) 0
      cases hnone.symm.trans hmatch
  have hscope : ((Scan.task g (Source.ofString source) options).grammar.mode k).scope =
      some .builtIn := hobeys.scope
  have hnodes := Scan.nodes_of_crosses hsound (Scan.Crosses.whole hsound hobeys.excludesBegin
    hobeys.keywords hnext (hobeys.immediate rfl))
  rw [hscope,
    show (Scan.task g (Source.ofString source) options).source = .ofString source from rfl,
    Source.slice_ofString] at hnodes
  rw [Highlighted.tokens, hnodes]
  simp [Node.enclosed, Node.token, Node.contents, Node.content]

end Tokens

/-! ### Numbers in decimal digits -/

/-- The text is how one of the numbers up to 99 is written, so that it has no leading zero. -/
def IsArity (n : String) : Prop := ∃ k < 100, n = toString k

/-- Each of them has one digit or two. -/
theorem toList_toString {k : Nat} (hk : k < 100) : (toString k).toList =
    if k < 10 then [Char.ofNat (48 + k)]
    else [Char.ofNat (48 + k / 10), Char.ofNat (48 + k % 10)] := by
  revert k
  decide

theorem mem_arity_iff {n : String} : n.toList ∈ arity ↔ IsArity n := by
  have hdigit : ∀ i < 10, CharClass.isAsciiDigit (Char.ofNat (48 + i)) = true := by decide
  have hleading : ∀ i < 10, (CharSet.range '1' '9').contains (Char.ofNat (48 + i)) = true ↔
      0 < i := by decide
  constructor
  · intro h
    obtain ⟨u, hu, _, ⟨d, hd, rfl⟩, heq⟩ := Language.mem_mul.mp h
    obtain ⟨j, hj, rfl⟩ := CharClass.exists_of_isAsciiDigit hd
    rcases hu with rfl | ⟨c, hc, rfl⟩
    · refine ⟨j, by omega, String.toList_inj.mp (heq.symm.trans ?_)⟩
      rw [toList_toString (by omega), if_pos hj]
      rfl
    · obtain ⟨i, hi, rfl⟩ := CharClass.exists_of_isAsciiDigit (isAsciiDigit_of_contains hc)
      have hpos := (hleading i hi).mp hc
      refine ⟨10 * i + j, by omega, String.toList_inj.mp (heq.symm.trans ?_)⟩
      rw [toList_toString (by omega), if_neg (by omega), show (10 * i + j) / 10 = i by omega,
        show (10 * i + j) % 10 = j by omega]
      rfl
  · rintro ⟨k, hk, rfl⟩
    rw [toList_toString hk]
    by_cases hsmall : k < 10
    · rw [if_pos hsmall]
      exact ⟨[], .inl rfl, _, ⟨_, hdigit k hsmall, rfl⟩, rfl⟩
    · rw [if_neg hsmall]
      exact ⟨_, .inr ⟨_, (hleading (k / 10) (by omega)).mpr (by omega), rfl⟩, _,
        ⟨_, hdigit (k % 10) (by omega), rfl⟩, rfl⟩

end Language.Yul

/-! ### Tokens -/

open Language.Yul in
/-- **The digits decide**: with two numbers up to 99 and without leading zeros, the word is a
built-in, and with any other digits, or with a dollar sign on either side of it, it is one token
without a category. -/
theorem verbatim_words_are_decided_by_digits :
    ∃ r, Registry.withBuiltIns = .ok r ∧ ∀ n m : String, n ≠ "" → m ≠ "" →
      (∀ d ∈ n.toList, CharClass.isAsciiDigit d = true) →
      (∀ d ∈ m.toList, CharClass.isAsciiDigit d = true) →
      let w := "verbatim_" ++ n ++ "i_" ++ m ++ "o"
      (IsArity n ∧ IsArity m → r.tokens w "yul" = .ok [("built_in", w)]) ∧
      (¬ (IsArity n ∧ IsArity m) → r.tokens w "yul" = .ok [("none", w)]) ∧
      ∀ front ∈ ["", "$"], ∀ back ∈ ["", "$"], (front, back) ≠ ("", "") →
        r.tokens (front ++ w ++ back) "yul" = .ok [("none", front ++ w ++ back)] := by
  obtain ⟨r, solidity, yul, hr⟩ := Registry.exists_isBuiltIn
  refine ⟨r, hr.eq, fun n m _ _ hn hm => ?_⟩
  intro w
  have hg := takesVerbatim_of_finish hr.declaresYul
  have hword : w.toList = verbatim n.toList m.toList := by
    simp [w, verbatim, stem]
  refine ⟨?_, ?_, ?_⟩
  · rintro ⟨hn', hm'⟩
    rw [Registry.tokens_eq hr.yul, tokens_of_member hg (hr.suitsYul.isSound _ _)
      (mem_arity_iff.mpr hn') (mem_arity_iff.mpr hm') hword]
    rfl
  · intro hnot
    have h : IsVerbatim [] n.toList m.toList [] := ⟨nofun, hn, hm, nofun⟩
    rw [Registry.tokens_eq hr.yul, tokens_of_not_member hg (hr.suitsYul.isSound _ _) h
      (by simpa using hword) fun h => hnot ⟨mem_arity_iff.mp h.2.2.1, mem_arity_iff.mp h.2.2.2⟩]
    rfl
  · intro front hfront back hback hne
    have hdollars : ∀ {s : String}, s ∈ ["", "$"] → ∀ c ∈ s.toList, c = '$' := by
      intro s hs c hc
      simp only [List.mem_cons, List.not_mem_nil, or_false] at hs
      rcases hs with rfl | rfl
      · cases hc
      · simpa using hc
    have h : IsVerbatim front.toList n.toList m.toList back.toList :=
      ⟨hdollars hfront, hn, hm, hdollars hback⟩
    rw [Registry.tokens_eq hr.yul, tokens_of_not_member hg (hr.suitsYul.isSound _ _) h
      (by simp [hword]) ?_]
    · rfl
    · rintro ⟨hnil, hnil', -⟩
      apply hne
      rw [String.toList_eq_nil_iff.mp hnil, String.toList_eq_nil_iff.mp hnil']

open Language.Yul in
/-- The largest numbers, one that is too large, and a dollar sign behind the word. -/
theorem verbatim_words_of_two_digits :
    ∃ r, Registry.withBuiltIns = .ok r ∧
      r.tokens "verbatim_99i_10o" "yul" = .ok [("built_in", "verbatim_99i_10o")] ∧
      r.tokens "verbatim_100i_0o" "yul" = .ok [("none", "verbatim_100i_0o")] ∧
      r.tokens "verbatim_99i_10o$" "yul" = .ok [("none", "verbatim_99i_10o$")] := by
  obtain ⟨r, hr, htokens⟩ := verbatim_words_are_decided_by_digits
  have hlarge : ¬ IsArity "100" := by
    rintro ⟨k, hk, heq⟩
    have hlength := congrArg (·.toList.length) heq
    rw [toList_toString hk] at hlength
    split at hlength <;> cases hlength
  have hfits : IsArity "99" ∧ IsArity "10" :=
    ⟨⟨99, by decide, by decide⟩, ⟨10, by decide, by decide⟩⟩
  obtain ⟨hmember, -, hdollar⟩ := htokens "99" "10" (by decide) (by decide)
    (List.all_eq_true.mp rfl) (List.all_eq_true.mp rfl)
  obtain ⟨-, hnone, -⟩ := htokens "100" "0" (by decide) (by decide)
    (List.all_eq_true.mp rfl) (List.all_eq_true.mp rfl)
  refine ⟨r, hr, hmember hfits, hnone fun h => hlarge h.1, ?_⟩
  exact hdollar "" (by decide) "$" (by decide) (by decide)

end Highlighting
