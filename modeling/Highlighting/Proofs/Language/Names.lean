/-
  Highlighting/Proofs/Language/Names.lean
  =======================================
  **Names with dollar signs** in Solidity.

  No keyword has a dollar sign, and what opens a region of Solidity has a
  character that no name has, or is a number, or one of a few words
  (`openingWords`).  The edges of a word are also those at a dollar sign.  So a
  name with a dollar sign stays whole if none of these words stands between two
  of them, or between one and an end of the name
  (`names_with_dollars_stay_whole`).
-/
import Highlighting.Proofs.Grammar.Openings
import Highlighting.Proofs.Language.BuiltIn
import Highlighting.Proofs.Pattern.Words
import Highlighting.Proofs.Regex.Names
import Highlighting.Proofs.Scan.Unclaimed

namespace Highlighting

open Search

/-! ### Numbers -/

namespace NumberLiteral

variable {text : Source} {p : Nat}

/-- A digit right behind a name starts no number. -/
theorem matchAt?_eq_none (hminus : text[p]? ≠ some '-') (hpoint : text[p]? ≠ some '.')
    (hword : startsWord text p = false) : matchAt? text p = none := by
  have hmantissa : mantissaEnds text p = [] := by
    simp [mantissaEnds, hword, hpoint]
  simp [matchAt?, hexEnd?, decimalEnd?, zeroEnd?, hminus, hword, hmantissa]

/-- **No number starts in a name**, whatever is behind that. -/
theorem matchAt?_inside (hname : ∀ q ≤ p, (text[q]?).any continuesWord = true)
    (hfirst : (text[0]?).any CharClass.isAsciiDigit = false) : matchAt? text p = none := by
  cases h : matchAt? text p with
  | none => rfl
  | some stop =>
    obtain ⟨c, hc, hstarts⟩ := (Option.any_eq_true _ _).mp (startsLiteral_of_matchAt? h)
    have hcontinues := hname p (Nat.le_refl p)
    rw [hc, Option.any_some] at hcontinues
    have hpoint : c ≠ '.' := by
      rintro rfl
      revert hcontinues
      decide
    have hminus : c ≠ '-' := by
      rintro rfl
      revert hcontinues
      decide
    have hdigit : CharClass.isAsciiDigit c = true := by
      simpa [startsLiteral, startsUnsigned, hpoint, hminus] using hstarts
    cases p with
    | zero =>
      rw [hc, Option.any_some, hdigit] at hfirst
      cases hfirst
    | succ p =>
      have hword : startsWord text (p + 1) = false := by
        rw [startsWord, Source.before?, hname p (Nat.le_succ p)]
        rfl
      rw [matchAt?_eq_none (by rw [hc]; simpa using hminus) (by rw [hc]; simpa using hpoint) hword]
        at h
      cases h

/-- **There is no number in a name.** -/
theorem matchAt?_of_name (hname : ∀ c ∈ text, continuesWord c = true)
    (hfirst : (text[0]?).any CharClass.isAsciiDigit = false) (p : Nat) :
    matchAt? text p = none := by
  rcases Nat.lt_or_ge p text.size with hp | hp
  · refine matchAt?_inside (fun q hq => ?_) hfirst
    rw [Array.getElem?_eq_getElem (Nat.lt_of_le_of_lt hq hp), Option.any_some]
    exact hname _ (Array.getElem_mem _)
  · cases h : matchAt? text p with
    | none => rfl
    | some stop =>
      have hwithin := within_of_matchAt? h
      omega

end NumberLiteral

/-! ### Words between dollar signs -/

/-- The word stands in the name between two dollar signs, or between one and an end of the
name. -/
def HasPart (name word : String) : Prop :=
  ('$' :: word.toList ++ ['$']) <:+: ('$' :: name.toList ++ ['$'])

theorem infix_of_between {s v t : List Char} (hs : s = [] ∨ ∃ s', s = s' ++ ['$'])
    (ht : t = [] ∨ ∃ t', t = '$' :: t') :
    ('$' :: v ++ ['$']) <:+: ('$' :: (s ++ v ++ t) ++ ['$']) := by
  rcases hs with rfl | ⟨s', rfl⟩ <;> rcases ht with rfl | ⟨t', rfl⟩
  · exact ⟨[], [], by simp⟩
  · exact ⟨[], t' ++ ['$'], by simp⟩
  · exact ⟨'$' :: s', [], by simp⟩
  · exact ⟨'$' :: s', t' ++ ['$'], by simp⟩

section Edges

variable {text : Source} {p : Nat} (hname : ∀ c ∈ text, CharClass.isWord c = true ∨ c = '$')
include hname

theorem Source.eq_dollar {c : Char} (hc : text[p]? = some c)
    (h : (text[p]?).any CharClass.isWord = false) : c = '$' := by
  rw [hc, Option.any_some] at h
  refine (hname c (Array.mem_of_getElem? hc)).resolve_left fun hword => ?_
  rw [h] at hword
  cases hword

/-- What is in front of a word, if anything is, ends with a dollar sign. -/
theorem Source.take_of_edge (hp : p ≤ text.size)
    (hbefore : (text.before? p).any CharClass.isWord = false) :
    text.toList.take p = [] ∨ ∃ s, text.toList.take p = s ++ ['$'] := by
  cases p with
  | zero => exact .inl rfl
  | succ p =>
    have hp' : p < text.toList.length := hp
    have hlast : text[p]? = some text.toList[p] := by
      rw [← Array.getElem?_toList, List.getElem?_eq_getElem hp']
    refine .inr ⟨text.toList.take p, ?_⟩
    rw [List.take_succ_eq_append_getElem hp', eq_dollar hname hlast hbefore]

/-- What is behind one starts with a dollar sign. -/
theorem Source.drop_of_edge (hafter : (text[p]?).any CharClass.isWord = false) :
    text.toList.drop p = [] ∨ ∃ t, text.toList.drop p = '$' :: t := by
  rcases Nat.lt_or_ge p text.toList.length with hp | hp
  · have hnext : text[p]? = some text.toList[p] := by
      rw [← Array.getElem?_toList, List.getElem?_eq_getElem hp]
    refine .inr ⟨text.toList.drop (p + 1), ?_⟩
    rw [List.drop_eq_getElem_cons hp, eq_dollar hname hnext hafter]
  · exact .inl (List.drop_eq_nil_of_le hp)

end Edges

/-- **A whole word in a name stands between dollar signs.** -/
theorem hasPart_of_edges {name word : String} {p stop : Nat}
    (hname : ∀ c ∈ Source.ofString name, CharClass.isWord c = true ∨ c = '$')
    (hword : (Source.ofString name).chars ⟨p, stop⟩ = word.toList)
    (hfirst : word.toList.head?.any CharClass.isWord = true)
    (hlast : word.toList.getLast?.any CharClass.isWord = true)
    (hstart : Regex.edge.holds (Source.ofString name) p = true)
    (hstop : Regex.edge.holds (Source.ofString name) stop = true) : HasPart name word := by
  generalize hsource : Source.ofString name = text at *
  have hlist : text.toList = name.toList := by rw [← hsource, Source.ofString]
  have hslice : word.toList = (text.toList.drop p).take (stop - p) := by
    rw [← hword, Source.chars, Array.toList_extract, List.extract_eq_take_drop]
  have hlt : p < stop := by
    by_contra hge
    rw [hslice, Nat.sub_eq_zero_of_le (Nat.le_of_not_lt hge)] at hfirst
    cases hfirst
  have hstopEdge : ((text.before? stop).any CharClass.isWord !=
    (text[stop]?).any CharClass.isWord) = true := hstop
  -- behind the end of the text there is no edge
  have hle : stop ≤ text.size := by
    by_contra hgt
    obtain ⟨n, rfl⟩ := Nat.exists_eq_add_of_lt hlt
    rw [Source.before?, Array.getElem?_eq_none (by omega), Array.getElem?_eq_none (by omega)]
      at hstopEdge
    cases hstopEdge
  have hlength : word.toList.length = stop - p := by
    have hsize : text.toList.length = text.size := rfl
    rw [hslice, List.length_take, List.length_drop]
    omega
  have hletter : ∀ i, i < stop - p → word.toList[i]? = text[p + i]? := by
    intro i hi
    rw [hslice, List.getElem?_take_of_lt hi, List.getElem?_drop, Array.getElem?_toList]
  -- the letters at both ends are word characters, so that what is around them is not
  have hbefore : (text.before? p).any CharClass.isWord = false := by
    rw [List.head?_eq_getElem?, hletter 0 (by omega)] at hfirst
    have hedge : ((text.before? p).any CharClass.isWord !=
      (text[p]?).any CharClass.isWord) = true := hstart
    rw [Nat.add_zero] at hfirst
    rw [hfirst] at hedge
    simpa using hedge
  have hafter : (text[stop]?).any CharClass.isWord = false := by
    have hprevious : text.before? stop = text[p + (stop - p - 1)]? := by
      obtain ⟨n, rfl⟩ := Nat.exists_eq_add_of_lt hlt
      rw [Source.before?]
      congr 1
      omega
    rw [List.getLast?_eq_getElem?, hlength, hletter _ (by omega), ← hprevious] at hlast
    rw [hlast] at hstopEdge
    simpa using hstopEdge
  have hrest : text.toList.drop p = word.toList ++ text.toList.drop stop := by
    have hcut := List.take_append_drop (stop - p) (text.toList.drop p)
    rw [List.drop_drop, Nat.add_sub_of_le (Nat.le_of_lt hlt), ← hslice] at hcut
    exact hcut.symm
  have hsplit : name.toList = text.toList.take p ++ word.toList ++ text.toList.drop stop := by
    rw [← hlist, List.append_assoc, ← hrest, List.take_append_drop]
  rw [HasPart, hsplit]
  exact infix_of_between (Source.take_of_edge hname (by omega) hbefore)
    (Source.drop_of_edge hname hafter)

/-! ### Names of Solidity -/

namespace Language

/-- The written expression matches the text in full. -/
def MatchesFully (written text : String) : Prop :=
  (Source.ofString text).size ∈ (lexemeRegex written).ends (Source.ofString text) 0

namespace Solidity

/-- What a name starts with. -/
def nameStart : CharSet :=
  .union (.range '$' '$') (.union (.range 'A' 'Z') (.union (.range '_' '_') (.range 'a' 'z')))

/-- What it goes on with. -/
def nameRest : CharSet :=
  .union (.range '$' '$') (.union (.range '0' '9')
    (.union (.range 'A' 'Z') (.union (.range '_' '_') (.range 'a' 'z'))))

theorem lexemeRegex_eq : lexemeRegex lexeme = .name nameStart nameRest := by decide

theorem contains_nameRest {c : Char} (h : nameStart.contains c = true) :
    nameRest.contains c = true := by
  simp only [nameStart, nameRest, CharSet.contains, Bool.or_eq_true] at h ⊢
  rcases h with hdollar | hupper | hscore | hlower
  · exact .inl hdollar
  · exact .inr (.inr (.inl hupper))
  · exact .inr (.inr (.inr (.inl hscore)))
  · exact .inr (.inr (.inr (.inr hlower)))

/-- The characters of names. -/
def nameChars : List Char := ((List.range 128).map Char.ofNat).filter nameRest.contains

theorem mem_nameChars {c : Char} (h : nameRest.contains c = true) : c ∈ nameChars := by
  have hsmall : c ≤ 'z' := by
    simp only [nameRest, CharSet.contains, Bool.or_eq_true, Bool.and_eq_true, decide_eq_true_eq]
      at h
    rcases h with ⟨-, h⟩ | ⟨-, h⟩ | ⟨-, h⟩ | ⟨-, h⟩ | ⟨-, h⟩ <;> exact Char.le_trans h (by decide)
  have hlt : c.toNat < 128 := Nat.lt_of_le_of_lt (show c.toNat ≤ 122 from hsmall) (by decide)
  exact List.mem_filter.mpr
    ⟨List.mem_map.mpr ⟨c.toNat, List.mem_range.mpr hlt, Char.ofNat_toNat c⟩, h⟩

theorem continuesWord_of_mem : ∀ c ∈ nameChars, NumberLiteral.continuesWord c = true :=
  List.all_eq_true.mp (by decide)

theorem isWord_or_of_mem : ∀ c ∈ nameChars, CharClass.isWord c = true ∨ c = '$' := by
  have hall : nameChars.all (fun c => CharClass.isWord c || c == '$') = true := by decide
  intro c hc
  simpa using List.all_eq_true.mp hall c hc

theorem not_isAsciiDigit_of_mem : ∀ c ∈ nameChars, nameStart.contains c = true →
    CharClass.isAsciiDigit c = false := by
  have hall :
      nameChars.all (fun c => !nameStart.contains c || !CharClass.isAsciiDigit c) = true := by
    decide
  intro c hc hstart
  simpa [hstart] using List.all_eq_true.mp hall c hc

/-- The words that open a region wherever they stand. -/
def openingWords : List String := [
  "function", "modifier", "event", "constructor", "fallback", "receive", "error", "contract",
  "interface", "library", "struct", "enum", "import", "using", "pragma", "assembly"]

/-- A match of the pattern has a character that no name has, or is a number, or one of the words
as a whole word. -/
def sparesNames (p : Pattern) : Bool :=
  p.strays nameChars || p == .number ||
    p.spells (openingWords.map String.toList) && p.isWholeWord

section Name

variable {name : String} (hname : MatchesFully lexeme name)
include hname

theorem mem_ends_of_name :
    (Source.ofString name).size ∈
      (Regex.name nameStart nameRest).ends (Source.ofString name) 0 := by
  rw [← lexemeRegex_eq]
  exact hname

theorem size_pos_of_name : 0 < (Source.ofString name).size := by
  obtain ⟨hfirst, -⟩ := Regex.any_of_mem_ends_name (mem_ends_of_name hname)
  obtain ⟨c, hc, -⟩ := (Option.any_eq_true _ _).mp hfirst
  exact (Array.getElem?_eq_some_iff.mp hc).1

theorem mem_nameChars_of_name : ∀ c ∈ Source.ofString name, c ∈ nameChars := by
  intro c hc
  obtain ⟨hfirst, hrest⟩ := Regex.any_of_mem_ends_name (mem_ends_of_name hname)
  obtain ⟨p, hp, rfl⟩ := Array.getElem_of_mem hc
  rcases Nat.eq_zero_or_pos p with rfl | hpos
  · rw [Array.getElem?_eq_getElem hp, Option.any_some] at hfirst
    exact mem_nameChars (contains_nameRest hfirst)
  · have hcontains := hrest p hpos hp
    rw [Array.getElem?_eq_getElem hp, Option.any_some] at hcontains
    exact mem_nameChars hcontains

theorem any_isAsciiDigit_of_name :
    ((Source.ofString name)[0]?).any CharClass.isAsciiDigit = false := by
  obtain ⟨hfirst, -⟩ := Regex.any_of_mem_ends_name (mem_ends_of_name hname)
  obtain ⟨c, hc, hstart⟩ := (Option.any_eq_true _ _).mp hfirst
  rw [hc, Option.any_some]
  exact not_isAsciiDigit_of_mem c (mem_nameChars_of_name hname c (Array.mem_of_getElem? hc)) hstart

/-- **Nothing matches in a name** without one of the words between its dollar signs. -/
theorem endAt?_eq_none_of_sparesNames {pattern : Pattern} (hspares : sparesNames pattern = true)
    (hparts : ∀ word ∈ openingWords, ¬ HasPart name word) (p : Nat) :
    endAt? (pattern.find (Source.ofString name) ·) p = none := by
  have hchars := mem_nameChars_of_name hname
  simp only [sparesNames, Bool.or_eq_true, Bool.and_eq_true, beq_iff_eq] at hspares
  rcases hspares with (hstrays | rfl) | ⟨hspells, hwhole⟩
  · exact Pattern.endAt?_eq_none_of_strays hstrays hchars p
  · rcases Nat.lt_or_ge (Source.ofString name).size p with hgt | hle
    · exact Pattern.endAt?_of_gt hgt .number
    · rw [Pattern.endAt?_number hle]
      exact NumberLiteral.matchAt?_of_name (fun c hc => continuesWord_of_mem c (hchars c hc))
        (any_isAsciiDigit_of_name hname) p
  · cases hend : endAt? (pattern.find (Source.ofString name) ·) p with
    | none => rfl
    | some stop =>
      obtain ⟨word, hword, hspelt⟩ := List.mem_map.mp (Pattern.chars_mem_of_spells hspells hend)
      obtain ⟨hstart, hstop⟩ := Pattern.edges_of_isWholeWord hwhole hend
      have hletters : ∀ word ∈ openingWords, word.toList.head?.any CharClass.isWord = true ∧
          word.toList.getLast?.any CharClass.isWord = true := by decide
      obtain ⟨hfirst, hlast⟩ := hletters word hword
      exact absurd (hasPart_of_edges (fun c hc => isWord_or_of_mem c (hchars c hc)) hspelt.symm
        hfirst hlast hstart hstop) (hparts word hword)

end Name

variable {g : Grammar}

/-- A region with the scope opens at the start of the text, and no name has what can match in it. -/
def opensOnName (b : Builder) (language : LanguageDecl) (text : Source) (k n : Nat)
    (scope : Scope) : Bool :=
  b.firstOpening? text 0 language.contains == some (k, n) &&
    b.modeAt (fun m => m.scope == some scope && m.ending != .immediate && !m.excludesBegin) k &&
    b.inside (Pattern.strays nameChars) k

/-- Names are spared where no word opens a region, as `pragma` does. -/
def hasNames (language : LanguageDecl) (b : Builder) : Bool :=
  b.outermost language sparesNames &&
    opensOnName b language (Source.ofString "pragma$") 28 6 .directive

theorem hasNames_solidity : declares declare hasNames = true :=
  declares_of_workedOut workedOut (by decide +kernel)

/-- No keyword has a dollar sign, and all that matches outside of regions spares names. -/
structure SparesNames (g : Grammar) : Prop where
  keywords : ∃ words, g.root.keywords = some ⟨.listing (.name nameStart nameRest), words⟩ ∧
    ∀ w, '$' ∈ w → words.find? w = none
  outermost : ∀ source options, ∀ d ∈ Scan.candidates (Scan.task g source options) [],
    g.Passes sparesNames d.1

theorem sparesNames_of_finish (hg : grammar = .ok g) : SparesNames g := by
  obtain ⟨language, b, hdeclare, hfinish, hcheck⟩ :=
    exists_finish_of_declares hasNames_solidity hg
  rw [hasNames, Bool.and_eq_true] at hcheck
  have hlexeme : Matcher.ofRegex (lexemeRegex lexeme) = .listing (.name nameStart nameRest) := by
    decide
  refine ⟨⟨wordsDecl.words, ?_, fun w => find?_words_of_dollar⟩, fun source options =>
    Builder.passes_of_outermost hfinish hcheck.1⟩
  rw [(Builder.realizes_of_finish hfinish).keywords, ← hlexeme]
  exact keywords_declare table_eq _ _ _ hdeclare

end Solidity

end Language

open Language.Solidity in
/-- **A name with dollar signs is a single token**, when no word that opens a region stands between
them. -/
theorem names_with_dollars_stay_whole (name : String)
    (hname : Language.MatchesFully lexeme name) (hdollar : '$' ∈ name.toList)
    (hparts : ∀ word ∈ openingWords, ¬ HasPart name word) :
    ∃ r, Registry.withBuiltIns = .ok r ∧ r.tokens name "sol" = .ok [("none", name)] := by
  obtain ⟨r, solidity, yul, hr⟩ := Registry.exists_isBuiltIn
  refine ⟨r, hr.eq, ?_⟩
  have hspares := sparesNames_of_finish hr.declaresSolidity
  obtain ⟨words, hkeywords, hwords⟩ := hspares.keywords
  have hends := mem_ends_of_name hname
  have hunclaimed : Scan.Unclaimed (Scan.task solidity (Source.ofString name) r.options) [] :=
    fun d hd t ht q => endAt?_eq_none_of_sparesNames hname
      (hspares.outermost _ _ d hd t ht) hparts q
  have hne : 0 < (Source.ofString name).size := by
    obtain ⟨c, hc, -⟩ := (Option.any_eq_true _ _).mp (Regex.any_of_mem_ends_name hends).1
    exact (Array.getElem?_eq_some_iff.mp hc).1
  have htokens := Scan.tokens_of_unclaimed (hr.suitsSolidity.isSound _ _) hne hunclaimed
    hkeywords fun l hl => ?_
  · rw [Registry.tokens_eq hr.sol, htokens]
    rfl
  · rw [Matcher.findAll_name (by decide) hends, List.mem_singleton] at hl
    have hchars : (Source.ofString name).chars l = name.toList := by
      rw [hl, Source.chars, Array.extract_size, Source.ofString]
    rw [KeywordTable.classify, hchars]
    exact hwords _ hdollar

/-- A namespace of the language behind a dollar sign is a part like any other. -/
theorem name_of_transaction_stays_whole :
    ∃ r, Registry.withBuiltIns = .ok r ∧
      (Language.MatchesFully Language.Solidity.lexeme "id$tx" ∧ '$' ∈ "id$tx".toList ∧
        ∀ word ∈ Language.Solidity.openingWords, ¬ HasPart "id$tx" word) ∧
      r.tokens "id$tx" "sol" = .ok [("none", "id$tx")] := by
  have hname : Language.MatchesFully Language.Solidity.lexeme "id$tx" := by
    unfold Language.MatchesFully
    decide
  have hdollar : '$' ∈ "id$tx".toList := by decide
  have hparts : ∀ word ∈ Language.Solidity.openingWords, ¬ HasPart "id$tx" word := by
    unfold HasPart
    decide
  obtain ⟨r, hr, htokens⟩ := names_with_dollars_stay_whole "id$tx" hname hdollar hparts
  exact ⟨r, hr, ⟨hname, hdollar, hparts⟩, htokens⟩

open Language.Solidity in
/-- A word that opens a region does so in front of a dollar sign as well. -/
theorem exists_name_in_region :
    ∃ r, Registry.withBuiltIns = .ok r ∧ Language.MatchesFully lexeme "pragma$" ∧
      '$' ∈ "pragma$".toList ∧ r.tokens "pragma$" "sol" ≠ .ok [("none", "pragma$")] := by
  obtain ⟨r, solidity, yul, hr⟩ := Registry.exists_isBuiltIn
  have hname : Language.MatchesFully lexeme "pragma$" := by
    unfold Language.MatchesFully
    decide
  refine ⟨r, hr.eq, hname, by decide, fun htokens => ?_⟩
  obtain ⟨language, b, -, hfinish, hcheck⟩ :=
    Language.exists_finish_of_declares hasNames_solidity hr.declaresSolidity
  have hg := Builder.realizes_of_finish hfinish
  simp only [hasNames, opensOnName, Bool.and_eq_true, beq_iff_eq] at hcheck
  obtain ⟨-, ⟨hfirst, hmode⟩, hinside⟩ := hcheck
  obtain ⟨decl, hdecl, hrealizes⟩ :=
    Builder.exists_of_modeAt hg (Builder.lt_size_of_modeAt hfinish hmode) hmode
  simp only [Bool.and_eq_true, beq_iff_eq, bne_iff_ne, Bool.not_eq_true'] at hdecl
  obtain ⟨⟨hscope, hending⟩, hbegin⟩ := hdecl
  have hsound := hr.suitsSolidity.isSound (Source.ofString "pragma$") r.options
  have hopens := Builder.next?_of_firstOpening hsound hg [] hg.contains (Nat.le_refl 0)
    (fun q _ hq => absurd hq (Nat.not_lt_zero q)) (fun hlt => absurd hlt (Nat.lt_irrefl 0)) hfirst
  obtain ⟨t, ht, htscope⟩ := Scan.exists_head?_tokens hsound hopens
    (fun h => hending ((Builder.immediate_iff hrealizes).mp h)) (hrealizes.scope.trans hscope)
    (hrealizes.excludesBegin.trans hbegin) (fun d hd t ht q =>
      Pattern.endAt?_eq_none_of_strays (Builder.passes_of_inside hfinish hinside d hd t ht)
        (mem_nameChars_of_name hname) q)
  rw [Registry.tokens_eq hr.sol, Except.ok.injEq, List.map_eq_singleton_iff] at htokens
  obtain ⟨u, hu, hnone⟩ := htokens
  rw [hu, List.head?_cons, Option.some.injEq] at ht
  obtain ⟨hcategory, -⟩ := Prod.mk.inj hnone
  rw [ht, Token.category, htscope] at hcategory
  revert hcategory
  decide

end Highlighting
