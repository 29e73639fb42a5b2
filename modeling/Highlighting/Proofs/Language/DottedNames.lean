/-
  Highlighting/Proofs/Language/DottedNames.lean
  =============================================
  **Names with dots** in Yul.

  A dot belongs to the names of assembly, but the rules of Yul see the edge of a
  word there.  The rule for function definitions is guarded against dots, and no
  dotted name is a keyword.  Numbers and the built-ins `verbatim_<n>i_<m>o` are
  recognised next to a dot, and so inside of a name.  A dotted name without such
  a part stays whole (`dotted_names_stay_whole`).
-/
import Highlighting.Proofs.Language.Names
import Highlighting.Proofs.Regex.Language

namespace Highlighting

open Search

/-! ### Parts between dots -/

/-- The word stands right behind a dot, up to the next one or to the end. -/
def IsMember (name word : List Char) : Prop := ('.' :: word ++ ['.']) <:+: (name ++ ['.'])

/-- The members of a name. -/
def members (name : List Char) : List (List Char) :=
  ((name ++ ['.']).tails.flatMap List.inits).filterMap fun
    | '.' :: rest => if rest.getLast? = some '.' then some rest.dropLast else none
    | _ => none

theorem mem_members {name word : List Char} (h : IsMember name word) : word ∈ members name := by
  obtain ⟨front, hfront, hback⟩ := List.infix_iff_prefix_suffix.mp h
  refine List.mem_filterMap.mpr ⟨'.' :: (word ++ ['.']), ?_, by simp⟩
  exact List.mem_flatMap.mpr
    ⟨front, (List.mem_tails _ _).mpr hback, (List.mem_inits _ _).mpr hfront⟩

/-- Nothing comes at a position but a dot. -/
def Source.StopsAt (text : Source) (p : Nat) : Prop := ∀ c, text[p]? = some c → c = '.'

section Members

variable {text : Source} {p stop : Nat}

/-- **What stands between two dots is a member**, and so is what stands behind the last one. -/
theorem isMember_of_stopsAt (hpoint : text[p]? = some '.') (hlt : p < stop)
    (hstop : stop ≤ text.size) (hstops : text.StopsAt stop) :
    IsMember text.toList (text.chars ⟨p + 1, stop⟩) := by
  -- with a dot behind the text, there is one at the end of the word in any case
  let full : Source := text ++ #['.']
  have hfirst : full[p]? = some '.' := by
    rw [Array.getElem?_append_left (Nat.lt_of_lt_of_le hlt hstop)]
    exact hpoint
  have hlast : full[stop]? = some '.' := by
    rcases Nat.lt_or_eq_of_le hstop with hin | rfl
    · rw [Array.getElem?_append_left hin, Array.getElem?_eq_getElem hin,
        hstops _ (Array.getElem?_eq_getElem hin)]
    · exact Array.getElem?_append_right (Nat.le_refl _) |>.trans (by simp)
  have hword : full.chars ⟨p + 1, stop⟩ = text.chars ⟨p + 1, stop⟩ := Source.chars_append hstop
  have hparts : full.chars ⟨p, stop + 1⟩ = '.' :: text.chars ⟨p + 1, stop⟩ ++ ['.'] := by
    rw [← full.chars_append_chars (q := stop) (Nat.le_of_lt hlt) (Nat.le_succ stop),
      ← full.chars_append_chars (Nat.le_succ p) hlt, Source.chars_single hfirst,
      Source.chars_single hlast, hword]
    rfl
  have hfull : full.toList = text.toList ++ ['.'] := Array.toList_append
  rw [IsMember, ← hparts, ← hfull]
  exact full.chars_infix _

/-- So is what stands between two ends, if the text is taken to begin with a dot. -/
theorem isMember_of_edges (hbefore : ∀ c, text.before? p = some c → c = '.') (hle : p ≤ stop)
    (hstop : stop ≤ text.size) (hstops : text.StopsAt stop) :
    IsMember ('.' :: text.toList) (text.chars ⟨p, stop⟩) := by
  let full : Source := #['.'] ++ text
  have hfull : full.toList = '.' :: text.toList := Array.toList_append
  have hshift : ∀ q, full[1 + q]? = text[q]? := Source.getElem?_append_add #['.'] text
  have hpoint : full[p]? = some '.' := by
    cases p with
    | zero => exact Array.getElem?_append_left (by decide)
    | succ p =>
      rw [Nat.add_comm, hshift]
      have hp : p < text.size := Nat.lt_of_lt_of_le hle hstop
      rw [Array.getElem?_eq_getElem hp, hbefore _ (Array.getElem?_eq_getElem hp)]
  have hword : full.chars ⟨1 + p, 1 + stop⟩ = text.chars ⟨p, stop⟩ :=
    Source.chars_append_add #['.'] text p stop
  rw [← hfull, ← hword, Nat.add_comm 1 p]
  refine isMember_of_stopsAt hpoint (by omega) ?_ fun c hc => hstops c ?_
  · rw [Array.size_append]
    exact Nat.add_le_add_left hstop 1
  · rw [← hshift]
    exact hc

end Members

/-! ### Numbers in dotted names -/

namespace NumberLiteral

variable {text : Source} {p stop : Nat}

theorem unsigned_le_literal : unsigned ≤ literal := by
  intro w hw
  exact Language.mem_mul.mpr ⟨[], .inl rfl, w, hw, rfl⟩

/-- **A number in a dotted name is one of its members**, with the dot or without. -/
theorem exists_member_of_matchAt? (hname : ∀ c ∈ text, continuesWord c = true ∨ c = '.')
    (hfirst : (text[0]?).any CharClass.isAsciiDigit = false) (h : matchAt? text p = some stop) :
    ∃ w, IsMember text.toList w ∧ (w ∈ literal ∨ '.' :: w ∈ literal) := by
  obtain ⟨hlt, hsize⟩ := within_of_matchAt? h
  obtain ⟨c, hc, hstarts⟩ := (Option.any_eq_true _ _).mp (startsLiteral_of_matchAt? h)
  have hbody : bodyStart text p = p := by
    have hne : c ≠ '-' := by
      rintro rfl
      exact absurd (hname '-' (Array.mem_of_getElem? hc)) (by decide)
    rw [bodyStart, hc, if_neg (by simpa using hne)]
  have haccepts := (matchAt?_eq_some_iff.mp h).1
  rw [hbody] at haccepts
  have hword : text.chars ⟨p, stop⟩ ∈ literal := unsigned_le_literal haccepts.reads.mem
  have hstops : text.StopsAt stop := by
    intro d hd
    refine (hname d (Array.mem_of_getElem? hd)).resolve_left fun hcontinues => ?_
    have hends := haccepts.ends
    rw [endsLiteral, hd, Option.any_some, hcontinues] at hends
    cases hends
  by_cases hpoint : c = '.'
  · -- the literal starts with the dot
    subst hpoint
    refine ⟨text.chars ⟨p + 1, stop⟩, isMember_of_stopsAt hc hlt hsize hstops, .inr ?_⟩
    rwa [← text.chars_append_chars (Nat.le_succ p) hlt, Source.chars_single hc] at hword
  · -- or with a digit, which no name does
    have hdigit : CharClass.isAsciiDigit c = true := by
      rcases hname c (Array.mem_of_getElem? hc) with hcontinues | hdot
      · have hne : c ≠ '-' := by
          rintro rfl
          revert hcontinues
          decide
        simpa [startsLiteral, startsUnsigned, hpoint, hne] using hstarts
      · exact absurd hdot hpoint
    have hfresh : startsWord text p = true := haccepts.fresh (by rw [hc]; exact hdigit)
    cases p with
    | zero =>
      rw [hc, Option.any_some, hdigit] at hfirst
      cases hfirst
    | succ q =>
      have hq : q < text.size := by omega
      have hdot : text[q]? = some '.' := by
        rw [Array.getElem?_eq_getElem hq]
        congr 1
        refine (hname _ (Array.getElem_mem hq)).resolve_left fun hcontinues => ?_
        have hbefore : text.before? (q + 1) = some text[q] := Array.getElem?_eq_getElem hq
        rw [startsWord, hbefore, Option.any_some, hcontinues] at hfresh
        cases hfresh
      exact ⟨_, isMember_of_stopsAt hdot (by omega) hsize hstops, .inl hword⟩

end NumberLiteral

/-! ### Patterns at dots -/

namespace Pattern

variable {pattern : Pattern} {text : Source} {p stop : Nat} {c : Char} {r : Regex}

/-- The guards refuse the character at both edges of a match. -/
def refusesBeside (c : Char) : Pattern → Bool
  | regex _ notAfter notBefore _ => notAfter == some c && notBefore.contains c
  | number => false
  | never => true

theorem beside_of_refusesBeside (h : pattern.refusesBeside c = true)
    (hlisted : pattern.isListed = true) (hend : endAt? (pattern.find text ·) p = some stop) :
    text.before? p ≠ some c ∧ text[stop]? ≠ some c := by
  unfold isListed at hlisted
  split at hlisted
  · rw [refusesBeside, Bool.and_eq_true, beq_iff_eq] at h
    obtain ⟨rfl, hbefore⟩ := h
    obtain ⟨-, e, -, -, hrefuses⟩ := endAt?_listing_eq_some_iff.mp hend
    rw [refuses, Bool.or_eq_false_iff] at hrefuses
    constructor
    · intro hc
      rw [hc] at hrefuses
      simpa using hrefuses.1
    · intro hc
      rw [hc, Option.any_some, hbefore] at hrefuses
      cases hrefuses.2
  · cases hlisted
  · cases h
  · cases hend

/-- The pattern is for the expression, with whatever guards. -/
def isOf (r : Regex) : Pattern → Bool
  | regex e _ _ trim => e == .regular (.listing r) && trim == 0
  | number | never => false

theorem reads_of_isOf (h : pattern.isOf r = true)
    (hend : endAt? (pattern.find text ·) p = some stop) :
    NumberLiteral.Reads text r.language p stop := by
  unfold isOf at h
  split at h
  · rw [Bool.and_eq_true, beq_iff_eq, beq_iff_eq] at h
    obtain ⟨rfl, rfl⟩ := h
    obtain ⟨hp, e, he, rfl, -⟩ := endAt?_listing_eq_some_iff.mp hend
    exact r.reads_of_mem_ends hp (List.mem_of_head? he)
  · cases h
  · cases h

theorem within_of_isListed (h : pattern.isListed = true)
    (hend : endAt? (pattern.find text ·) p = some stop) : p ≤ stop ∧ stop ≤ text.size := by
  have hp : p ≤ text.size := by
    by_contra hgt
    rw [endAt?_of_gt (Nat.lt_of_not_le hgt)] at hend
    cases hend
  rw [endAt?] at hend
  split at hend
  · next s hs =>
    split at hend
    · next hstart =>
      obtain rfl : s.stop = stop := Option.some.inj hend
      have hwithin := (isReliable_of_isListed h text).isWithin p s hp hs
      exact ⟨hstart ▸ hwithin.2.1, hwithin.2.2⟩
    · cases hend
  · cases hend

/-- A match is whole words, with no dot in them. -/
def keepsBetweenDots (pattern : Pattern) : Bool :=
  pattern.isListed && pattern.isSolid && pattern.isWholeWord && pattern.spares '.'

/-- **In a dotted name, whole words stand between two dots**, or between one and an end. -/
theorem dots_of_keepsBetweenDots (hname : ∀ c ∈ text, CharClass.isWord c = true ∨ c = '.')
    (h : pattern.keepsBetweenDots = true) (hend : endAt? (pattern.find text ·) p = some stop) :
    (∀ c, text.before? p = some c → c = '.') ∧ text.StopsAt stop := by
  simp only [keepsBetweenDots, Bool.and_eq_true] at h
  obtain ⟨⟨⟨hlisted, hsolid⟩, hwhole⟩, hspares⟩ := h
  have hlt := lt_of_isSolid hsolid hend
  have hsize := (within_of_isListed hlisted hend).2
  obtain ⟨hstart, hstop⟩ := edges_of_isWholeWord hwhole hend
  -- the characters of the match are those of words, so that those around it are not
  have hword : ∀ q, p ≤ q → q < stop → (text[q]?).any CharClass.isWord = true := by
    intro q hpq hq
    have hq' : q < text.size := Nat.lt_of_lt_of_le hq hsize
    have hchar : text[q]? = some text[q] := Array.getElem?_eq_getElem hq'
    rw [hchar, Option.any_some]
    refine (hname _ (Array.getElem_mem hq')).resolve_right fun hdot => ?_
    exact absurd (le_of_spares (hdot ▸ hchar) hspares hpq hend) (Nat.not_le_of_lt hq)
  have hdot : ∀ c, c ∈ text → CharClass.isWord c = false → c = '.' := by
    intro c hc hnot
    refine (hname c hc).resolve_left fun hyes => ?_
    rw [hnot] at hyes
    cases hyes
  constructor
  · intro c hc
    have hedge : ((text.before? p).any CharClass.isWord !=
      (text[p]?).any CharClass.isWord) = true := hstart
    rw [hc, Option.any_some, hword p (Nat.le_refl p) hlt] at hedge
    refine hdot c ?_ (by simpa using hedge)
    cases p with
    | zero => cases hc
    | succ p => exact Array.mem_of_getElem? hc
  · intro c hc
    obtain ⟨n, rfl⟩ := Nat.exists_eq_succ_of_ne_zero (Nat.ne_of_gt (Nat.zero_lt_of_lt hlt))
    have hedge : ((text[n]?).any CharClass.isWord !=
      (text[n + 1]?).any CharClass.isWord) = true := hstop
    rw [hword n (Nat.le_of_lt_succ hlt) (Nat.lt_succ_self n), hc, Option.any_some] at hedge
    exact hdot c (Array.mem_of_getElem? hc) (by simpa using hedge)

end Pattern

/-! ### Names of Yul -/

namespace Language.Yul

/-- What a name starts with is what a name of Solidity does; it goes on with dots as well. -/
def nameRest : CharSet :=
  .union (.range '$' '$') (.union (.range '.' '.') (.union (.range '0' '9')
    (.union (.range 'A' 'Z') (.union (.range '_' '_') (.range 'a' 'z')))))

theorem lexemeRegex_eq :
    lexemeRegex Assembly.lexeme = .name Solidity.nameStart nameRest := by decide

theorem contains_nameRest_or {c : Char} (h : nameRest.contains c = true) :
    Solidity.nameRest.contains c = true ∨ c = '.' := by
  have hsingle : CharSet.contains (.range '.' '.') c = true → c = '.' := CharSet.contains_single.mp
  simp only [nameRest, Solidity.nameRest, CharSet.contains, Bool.or_eq_true] at h hsingle ⊢
  rcases h with hdollar | hdot | hrest
  · exact .inl (.inl hdollar)
  · exact .inr (hsingle hdot)
  · exact .inl (.inr hrest)

/-- The characters of names without dollar signs. -/
def dottedChars : List Char := '.' :: Solidity.nameChars.filter (· != '$')

theorem continuesWord_or_of_mem :
    ∀ c ∈ dottedChars, NumberLiteral.continuesWord c = true ∨ c = '.' := by
  have hall : dottedChars.all (fun c => NumberLiteral.continuesWord c || c == '.') = true := by
    decide
  intro c hc
  simpa using List.all_eq_true.mp hall c hc

theorem isWord_or_of_mem : ∀ c ∈ dottedChars, CharClass.isWord c = true ∨ c = '.' := by
  have hall : dottedChars.all (fun c => CharClass.isWord c || c == '.') = true := by
    decide
  intro c hc
  simpa using List.all_eq_true.mp hall c hc

/-- The words `verbatim_<n>i_<m>o`. -/
def verbatimWords : Language Char := (lexemeRegex verbatimRegex).language

theorem head?_of_mem_verbatimWords {w : List Char} (h : w ∈ verbatimWords) :
    w.head? = some 'v' := by
  obtain ⟨a, rest, hregex⟩ : ∃ a rest,
      lexemeRegex verbatimRegex = .seq (.anchor a) (.seq (.set (.single 'v')) rest) := ⟨_, _, rfl⟩
  rw [verbatimWords, hregex] at h
  obtain ⟨_, rfl, w, hw, rfl⟩ := Language.mem_mul.mp h
  obtain ⟨_, ⟨c, hc, rfl⟩, v, -, rfl⟩ := Language.mem_mul.mp hw
  rw [CharSet.contains_single.mp hc]
  rfl

/-- A match of the pattern has a character that no dotted name has, or is a number, or stands
between dots: not next to one, or as one of the words of a family. -/
def sparesDotted (p : Pattern) : Bool :=
  p.strays dottedChars || p == .number ||
    p.keepsBetweenDots && (p.refusesBeside '.' || p.isOf (lexemeRegex verbatimRegex))

section Name

variable {name : String} (hname : MatchesFully Assembly.lexeme name) (hdollar : '$' ∉ name.toList)
include hname

theorem mem_ends_of_name : (Source.ofString name).size ∈
    (Regex.name Solidity.nameStart nameRest).ends (Source.ofString name) 0 := by
  rw [← lexemeRegex_eq]
  exact hname

theorem any_isAsciiDigit_of_name :
    ((Source.ofString name)[0]?).any CharClass.isAsciiDigit = false := by
  obtain ⟨hfirst, -⟩ := Regex.any_of_mem_ends_name (mem_ends_of_name hname)
  obtain ⟨c, hc, hstart⟩ := (Option.any_eq_true _ _).mp hfirst
  rw [hc, Option.any_some]
  exact Solidity.not_isAsciiDigit_of_mem c
    (Solidity.mem_nameChars (Solidity.contains_nameRest hstart)) hstart

include hdollar

theorem mem_dottedChars_of_name : ∀ c ∈ Source.ofString name, c ∈ dottedChars := by
  intro c hc
  obtain ⟨hfirst, hrest⟩ := Regex.any_of_mem_ends_name (mem_ends_of_name hname)
  have hmem : c ∈ name.toList := by simpa [Source.ofString] using hc
  have hcontains : Solidity.nameRest.contains c = true ∨ c = '.' := by
    obtain ⟨p, hp, rfl⟩ := Array.getElem_of_mem hc
    rcases Nat.eq_zero_or_pos p with rfl | hpos
    · rw [Array.getElem?_eq_getElem hp, Option.any_some] at hfirst
      exact .inl (Solidity.contains_nameRest hfirst)
    · have hgoes := hrest p hpos hp
      rw [Array.getElem?_eq_getElem hp, Option.any_some] at hgoes
      exact contains_nameRest_or hgoes
  rcases hcontains with hcontains | rfl
  · refine List.mem_cons_of_mem _ (List.mem_filter.mpr ⟨Solidity.mem_nameChars hcontains, ?_⟩)
    rw [bne_iff_ne]
    rintro rfl
    exact hdollar hmem
  · exact List.mem_cons_self

/-- **Nothing matches in a dotted name** that has no number behind a dot, and no member of the
family between dots. -/
theorem endAt?_eq_none_of_sparesDotted {pattern : Pattern} (hdot : '.' ∈ name.toList)
    (hspares : sparesDotted pattern = true)
    (hnumbers : ∀ w, IsMember name.toList w →
      w ∉ NumberLiteral.literal ∧ '.' :: w ∉ NumberLiteral.literal)
    (hverbatim : ∀ w ∈ verbatimWords, ¬ IsMember ('.' :: name.toList) w) (p : Nat) :
    endAt? (pattern.find (Source.ofString name) ·) p = none := by
  have hchars := mem_dottedChars_of_name hname hdollar
  have hlist : (Source.ofString name).toList = name.toList := rfl
  cases hend : endAt? (pattern.find (Source.ofString name) ·) p with
  | none => rfl
  | some stop =>
    exfalso
    simp only [sparesDotted, Bool.or_eq_true, Bool.and_eq_true, beq_iff_eq] at hspares
    rcases hspares with (hstrays | rfl) | ⟨hkeeps, hguards⟩
    · rw [Pattern.endAt?_eq_none_of_strays hstrays hchars p] at hend
      cases hend
    · have hp : p ≤ (Source.ofString name).size := by
        by_contra hgt
        rw [Pattern.endAt?_of_gt (Nat.lt_of_not_le hgt)] at hend
        cases hend
      rw [Pattern.endAt?_number hp] at hend
      obtain ⟨w, hw, hliteral⟩ := NumberLiteral.exists_member_of_matchAt?
        (fun c hc => continuesWord_or_of_mem c (hchars c hc)) (any_isAsciiDigit_of_name hname) hend
      obtain ⟨hwhole, hpoint⟩ := hnumbers w (hlist ▸ hw)
      exact hliteral.elim hwhole hpoint
    · obtain ⟨hbefore, hstops⟩ := Pattern.dots_of_keepsBetweenDots
        (fun c hc => isWord_or_of_mem c (hchars c hc)) hkeeps hend
      simp only [Pattern.keepsBetweenDots, Bool.and_eq_true] at hkeeps
      obtain ⟨⟨⟨hlisted, hsolid⟩, -⟩, hdots⟩ := hkeeps
      obtain ⟨hle, hsize⟩ := Pattern.within_of_isListed hlisted hend
      rcases hguards with hguards | hfamily
      · -- no dot is next to the match, so that it would be all of the name
        obtain ⟨hfront, hback⟩ := Pattern.beside_of_refusesBeside hguards hlisted hend
        have hzero : p = 0 := by
          cases p with
          | zero => rfl
          | succ p =>
            have hbefore' : (Source.ofString name).before? (p + 1) =
                some (Source.ofString name)[p] := Array.getElem?_eq_getElem (by omega)
            exact absurd (hbefore'.trans (congrArg some (hbefore _ hbefore'))) hfront
        have hall : stop = (Source.ofString name).size := by
          by_contra hne
          have hlt : stop < (Source.ofString name).size := Nat.lt_of_le_of_ne hsize hne
          have hnext := Array.getElem?_eq_getElem hlt
          exact hback (hnext.trans (congrArg some (hstops _ hnext)))
        obtain ⟨q, hq, hchar⟩ := List.getElem_of_mem hdot
        have hdot' : (Source.ofString name)[q]? = some '.' := by
          rw [← Array.getElem?_toList, hlist, List.getElem?_eq_getElem hq, hchar]
        have hreach := Pattern.le_of_spares hdot' hdots (hzero ▸ Nat.zero_le q) hend
        rw [hall] at hreach
        exact absurd hreach (Nat.not_le_of_lt hq)
      · refine hverbatim _ (Pattern.reads_of_isOf hfamily hend).mem ?_
        exact hlist ▸ isMember_of_edges hbefore hle hsize hstops

end Name

/-- The rules outside of all regions spare dotted names. -/
def hasDottedNames (language : LanguageDecl) (b : Builder) : Bool :=
  b.outermost language sparesDotted

theorem hasDottedNames_yul : declares declare hasDottedNames = true :=
  declares_of_workedOut workedOut (by decide +kernel)

/-- The words of Yul with their classes. -/
def wordsDecl : KeywordDecl :=
  (((KeywordDecl.empty.withLexeme Assembly.lexeme).add .keyword
    (Assembly.keywords ++ keywords)).add .builtIn (Assembly.builtIns ++ builtIns)).add .literal
    Assembly.literals

theorem table_eq_compile : Assembly.table keywords builtIns = wordsDecl.compile := rfl

/-- The declared language has the table of assembly, with the words of Yul, as its keywords. -/
theorem keywords_declare :
    Construct.Gives (fun language : LanguageDecl =>
      ∃ t, wordsDecl.compile = .ok t ∧ language.keywords = some t) declare := by
  unfold declare
  refine Construct.Gives.lift fun t ht => ?_
  -- none of the other steps changes what is answered in the end
  repeat refine Construct.Gives.bind fun _ => ?_
  exact Construct.Gives.pure ⟨t, table_eq_compile.symm.trans ht, rfl⟩

/-- All that matches outside of regions spares dotted names, and so do the keywords. -/
structure SparesDotted (g : Grammar) : Prop where
  keywords : ∃ words, g.root.keywords =
      some ⟨.listing (.name Solidity.nameStart nameRest), words⟩ ∧
    ∀ w, '.' ∈ w → words.find? w = none
  outermost : ∀ source options, ∀ d ∈ Scan.candidates (Scan.task g source options) [],
    g.Passes sparesDotted d.1

/-- The finished grammar has no keywords but those of Yul. -/
theorem exists_keywords_of_finish {language : LanguageDecl} {b : Builder} {g : Grammar}
    (hdeclare : declare (Builder.start .usual) = .ok (language, b))
    (hfinish : b.finish language = .ok g) :
    ∃ words, g.root.keywords = some ⟨.listing (.name Solidity.nameStart nameRest), words⟩ ∧
      ∀ w c, words.find? w = some c → ∃ e ∈ wordsDecl.entries, e.1.toList = w := by
  obtain ⟨t, ht, hkeywords⟩ := keywords_declare _ _ _ hdeclare
  obtain ⟨r, hparse, hlexeme, hwords⟩ := KeywordDecl.exists_of_compile ht
  have hregex : r = lexemeRegex Assembly.lexeme := by
    rw [lexemeRegex]
    exact (congrArg (Option.getD · Regex.empty) hparse).symm
  have hlisting : Matcher.ofRegex (lexemeRegex Assembly.lexeme) =
      .listing (.name Solidity.nameStart nameRest) := by decide
  refine ⟨t.words, ?_, hwords⟩
  rw [(Builder.realizes_of_finish hfinish).keywords, hkeywords, ← hlisting, ← hregex, ← hlexeme]

theorem sparesDotted_of_finish {g : Grammar} (hg : grammar = .ok g) : SparesDotted g := by
  obtain ⟨language, b, hdeclare, hfinish, hcheck⟩ :=
    exists_finish_of_declares hasDottedNames_yul hg
  obtain ⟨words, hkeywords, hwords⟩ := exists_keywords_of_finish hdeclare hfinish
  refine ⟨⟨words, hkeywords, ?_⟩, fun source options => Builder.passes_of_outermost hfinish hcheck⟩
  intro w hw
  cases hfind : words.find? w with
  | none => rfl
  | some c =>
    obtain ⟨e, he, rfl⟩ := hwords w c hfind
    have hplain : ∀ e ∈ wordsDecl.entries, '.' ∉ e.1.toList := by decide +kernel
    exact absurd hw (hplain e he)

end Language.Yul

/-! ### Tokens -/

open Language.Yul in
/-- **A dotted name is a single token**, when nothing behind its dots is a number, and nothing
between them is one of the family of built-ins. -/
theorem dotted_names_stay_whole (name : String)
    (hname : Language.MatchesFully Language.Assembly.lexeme name) (hdot : '.' ∈ name.toList)
    (hdollar : '$' ∉ name.toList)
    (hnumbers : ∀ w, IsMember name.toList w →
      w ∉ NumberLiteral.literal ∧ '.' :: w ∉ NumberLiteral.literal)
    (hverbatim : ∀ w ∈ verbatimWords, ¬ IsMember ('.' :: name.toList) w) :
    ∃ r, Registry.withBuiltIns = .ok r ∧ r.tokens name "yul" = .ok [("none", name)] := by
  obtain ⟨r, solidity, yul, hr⟩ := Registry.exists_isBuiltIn
  refine ⟨r, hr.eq, ?_⟩
  have hspares := sparesDotted_of_finish hr.declaresYul
  obtain ⟨words, hkeywords, hwords⟩ := hspares.keywords
  have hends := mem_ends_of_name hname
  have hunclaimed : Scan.Unclaimed (Scan.task yul (Source.ofString name) r.options) [] :=
    fun d hd t ht q => endAt?_eq_none_of_sparesDotted hname hdollar hdot
      (hspares.outermost _ _ d hd t ht) hnumbers hverbatim q
  have hne : 0 < (Source.ofString name).size := by
    obtain ⟨c, hc, -⟩ := (Option.any_eq_true _ _).mp (Regex.any_of_mem_ends_name hends).1
    exact (Array.getElem?_eq_some_iff.mp hc).1
  have htokens := Scan.tokens_of_unclaimed (hr.suitsYul.isSound _ _) hne hunclaimed
    hkeywords fun l hl => ?_
  · rw [Registry.tokens_eq hr.yul, htokens]
    rfl
  · rw [Matcher.findAll_name (by decide) hends, List.mem_singleton] at hl
    have hchars : (Source.ofString name).chars l = name.toList := by
      rw [hl, Source.chars, Array.extract_size, Source.ofString]
    rw [KeywordTable.classify, hchars]
    exact hwords _ hdot

/-- A storage slot of a variable is such a name. -/
theorem storage_slot_stays_whole :
    ∃ r, Registry.withBuiltIns = .ok r ∧
      (Language.MatchesFully Language.Assembly.lexeme "x.slot" ∧ '.' ∈ "x.slot".toList ∧
        '$' ∉ "x.slot".toList ∧
        (∀ w, IsMember "x.slot".toList w →
          w ∉ NumberLiteral.literal ∧ '.' :: w ∉ NumberLiteral.literal) ∧
        ∀ w ∈ Language.Yul.verbatimWords, ¬ IsMember ('.' :: "x.slot".toList) w) ∧
      r.tokens "x.slot" "yul" = .ok [("none", "x.slot")] := by
  have hname : Language.MatchesFully Language.Assembly.lexeme "x.slot" := by
    unfold Language.MatchesFully
    decide
  have hnumbers : ∀ w, IsMember "x.slot".toList w →
      w ∉ NumberLiteral.literal ∧ '.' :: w ∉ NumberLiteral.literal := by
    have hall : ∀ w ∈ members "x.slot".toList, NumberLiteral.matchAt? w.toArray 0 ≠ some w.length ∧
        NumberLiteral.matchAt? ('.' :: w).toArray 0 ≠ some (w.length + 1) := by decide
    intro w hw
    obtain ⟨hwhole, hpoint⟩ := hall w (mem_members hw)
    exact ⟨fun h => hwhole (NumberLiteral.matchAt?_zero_eq_size_iff.mpr h),
      fun h => hpoint (NumberLiteral.matchAt?_zero_eq_size_iff.mpr h)⟩
  have hverbatim : ∀ w ∈ Language.Yul.verbatimWords, ¬ IsMember ('.' :: "x.slot".toList) w := by
    have hall : ∀ w ∈ members ('.' :: "x.slot".toList), w.head? ≠ some 'v' := by decide
    intro w hw hmember
    exact hall w (mem_members hmember) (Language.Yul.head?_of_mem_verbatimWords hw)
  obtain ⟨r, hr, htokens⟩ := dotted_names_stay_whole "x.slot" hname (by decide) (by decide)
    hnumbers hverbatim
  exact ⟨r, hr, ⟨hname, by decide, by decide, hnumbers, hverbatim⟩, htokens⟩

/-- A digit behind a dot is a number nevertheless. -/
theorem exists_number_in_dotted_name :
    ∃ r, Registry.withBuiltIns = .ok r ∧ Language.MatchesFully Language.Assembly.lexeme "x.1" ∧
      '.' ∈ "x.1".toList ∧ '$' ∉ "x.1".toList ∧
      r.tokens "x.1" "yul" = .ok [("none", "x"), ("number", ".1")] := by
  obtain ⟨r, solidity, yul, hr⟩ := Registry.exists_isBuiltIn
  have hname : Language.MatchesFully Language.Assembly.lexeme "x.1" := by
    unfold Language.MatchesFully
    decide +kernel
  have htokens : ∀ illegals, Language.Yul.grammar.toOption.any (fun g =>
      decide ((g.highlight "x.1" ⟨illegals⟩).tokens = [⟨none, "x"⟩, ⟨some .number, ".1"⟩])) =
        true := by decide +kernel
  have htokens' := htokens r.options.ignoreIllegals
  rw [hr.declaresYul, Except.toOption, Option.any_some, decide_eq_true_iff] at htokens'
  refine ⟨r, hr.eq, hname, by decide, by decide, ?_⟩
  rw [Registry.tokens_eq hr.yul, htokens']
  rfl

end Highlighting
