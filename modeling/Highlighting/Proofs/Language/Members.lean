/-
  Highlighting/Proofs/Language/Members.lean
  =========================================
  **Names with a member** in Solidity.

  A name, a point and another name may be followed by anything that ends a chain
  of members (`IsAccess`).  Two kinds of patterns match there, up to the member:
  its point, and the name with the point if that is one of the namespaces
  (`OpensAccess`).  No other pattern that is looked for outside of regions matches
  in front of the member (`OpensAccess.of_endAt?`): it would have to get over the
  point, or is a number, or a word that no point may follow.

  The point of a member, and the name of a namespace with its point, take the
  blanks that follow (`Pattern.endAt?_memberOpening`,
  `Pattern.endAt?_namespaceOpening`).  The name is spelled out ahead of the rest
  of the expression (`Regex.ends_spelled`).
-/
import Highlighting.Proofs.Language.DottedNames
import Highlighting.Proofs.Pattern.Literals
import Highlighting.Proofs.Regex.Names

namespace Highlighting

open Search

section Openings

open Regex (RunsTo)

variable {text : Source} {p stop : Nat}

/-! ### A word in front of an expression -/

/-- The word, and the expression behind it. -/
def Regex.spelled : List Char → Regex → Regex
  | [], r => r
  | c :: cs, r => .seq (.set (.single c)) (spelled cs r)

/-- **Behind the word the expression matches as by itself.** -/
theorem Regex.ends_spelled (word : List Char) (r : Regex) (text : Source) (p : Nat) :
    (spelled word r).ends text p =
      if text.chars ⟨p, p + word.length⟩ = word then r.ends text (p + word.length) else [] := by
  induction word generalizing p with
  | nil => rw [List.length_nil, Nat.add_zero, Source.chars_empty, if_pos rfl, spelled]
  | cons c cs ih =>
    have hlength : p + (c :: cs).length = p + 1 + cs.length := by
      rw [List.length_cons]
      omega
    rw [spelled, ends, hlength]
    by_cases hc : text[p]? = some c
    · have hchars : text.chars ⟨p, p + 1 + cs.length⟩ =
          c :: text.chars ⟨p + 1, p + 1 + cs.length⟩ := by
        rw [← text.chars_append_chars (Nat.le_succ p) (Nat.le_add_right _ _),
          Source.chars_single hc]
        rfl
      have hset : (set (.single c)).ends text p = [p + 1] :=
        ends_set_of_any (by rw [hc]; exact CharSet.contains_single.mpr rfl)
      rw [hset, List.flatMap_singleton, ih, hchars]
      simp only [List.cons.injEq, true_and]
    · -- where another character stands, there is neither a match nor the word
      have hset : (set (.single c)).ends text p = [] := by
        refine List.eq_nil_iff_forall_not_mem.mpr fun e he => hc ?_
        obtain ⟨d, hd, hsingle⟩ := (Option.any_eq_true _ _).mp (mem_ends_set.mp he).1
        rw [hd, CharSet.contains_single.mp hsingle]
      have hchars : text.chars ⟨p, p + 1 + cs.length⟩ ≠ c :: cs := by
        intro hword
        have hfirst : (text.chars ⟨p, p + 1 + cs.length⟩)[0]? = some c := by
          rw [hword]
          rfl
        rw [Source.chars, Array.getElem?_toList, Array.getElem?_extract] at hfirst
        split at hfirst
        · exact hc hfirst
        · cases hfirst
      rw [hset, if_neg hchars]
      rfl

namespace Pattern

theorem endAt?_set {s : CharSet} : endAt? ((plain (.set s)).find text ·) p = some stop ↔
    (text[p]?).any s.contains = true ∧ stop = p + 1 := by
  rw [endAt?_plain, Regex.firstEnd?]
  constructor
  · rintro ⟨-, he⟩
    exact Regex.mem_ends_set.mp (List.mem_of_head? he)
  · rintro ⟨hs, rfl⟩
    obtain ⟨c, hc, -⟩ := (Option.any_eq_true _ _).mp hs
    refine ⟨Nat.le_of_lt (Array.getElem?_eq_some_iff.mp hc).1, ?_⟩
    rw [Regex.ends_set_of_any hs]
    rfl

/-! ### Openings -/

/-- A point, and the blanks behind it. -/
def memberOpening : Pattern := plain (.name (.single '.') .space)

theorem endAt?_memberOpening : endAt? (memberOpening.find text ·) p = some stop ↔
    text[p]? = some '.' ∧ RunsTo .space text (p + 1) stop := by
  have hpoint : (text[p]?).any (CharSet.single '.').contains = true ↔ text[p]? = some '.' := by
    rw [Option.any_eq_true]
    constructor
    · rintro ⟨c, hc, hsingle⟩
      rw [hc, CharSet.contains_single.mp hsingle]
    · exact fun hc => ⟨'.', hc, CharSet.contains_single.mpr rfl⟩
  rw [memberOpening, endAt?_plain, Regex.firstEnd?_name_iff, hpoint]
  refine and_iff_right_of_imp fun h => ?_
  exact Nat.le_of_lt (Array.getElem?_eq_some_iff.mp h.1).1

/-- The name of a namespace as a whole word, with a point and the blanks behind it. -/
def namespaceOpening (name : String) : Pattern :=
  regex (.regular (.listing (.seq (.anchor Regex.edge)
    (.spelled name.toList (.name (.single '.') .space))))) (some '$') [] 0

theorem endAt?_namespaceOpening {name : String} :
    endAt? ((namespaceOpening name).find text ·) p = some stop ↔
      Regex.edge.holds text p = true ∧ text.before? p ≠ some '$' ∧
        text.chars ⟨p, p + name.length⟩ = name.toList ∧
        endAt? (memberOpening.find text ·) (p + name.length) = some stop := by
  have hfirst : (Regex.seq (.anchor Regex.edge)
      (.spelled name.toList (.name (.single '.') .space))).firstEnd? text p = some stop ↔
      Regex.edge.holds text p = true ∧ text.chars ⟨p, p + name.length⟩ = name.toList ∧
        (Regex.name (.single '.') .space).firstEnd? text (p + name.length) = some stop := by
    rw [Regex.firstEnd?, Regex.ends, Regex.ends]
    by_cases hedge : Regex.edge.holds text p = true
    · rw [if_pos hedge, List.flatMap_singleton, Regex.ends_spelled, String.length_toList]
      by_cases hword : text.chars ⟨p, p + name.length⟩ = name.toList
      · rw [if_pos hword, ← Regex.firstEnd?]
        simp [hedge, hword]
      · simp [hedge, hword]
    · simp [hedge]
  have hguard : refuses (some '$') [] text ⟨p, stop⟩ = false ↔ text.before? p ≠ some '$' := by
    rw [refuses_nil]
    cases text.before? p with
    | none => simp
    | some c =>
      rw [Option.any_some, beq_eq_false_iff_ne]
      exact ne_comm
  rw [namespaceOpening, endAt?_listing_eq_some_iff, memberOpening, endAt?_plain, hguard]
  constructor
  · rintro ⟨-, e, he, rfl, hbefore⟩
    obtain ⟨hedge, hword, hend⟩ := hfirst.mp he
    have hpoint := (Regex.firstEnd?_name_iff.mp hend).1
    obtain ⟨c, hc, -⟩ := (Option.any_eq_true _ _).mp hpoint
    exact ⟨hedge, hbefore, hword, Nat.le_of_lt (Array.getElem?_eq_some_iff.mp hc).1, hend⟩
  · rintro ⟨hedge, hbefore, hword, hle, hend⟩
    exact ⟨Nat.le_trans (Nat.le_add_right _ _) hle, stop, hfirst.mpr ⟨hedge, hword, hend⟩, rfl,
      hbefore⟩

end Pattern

end Openings

/-! ### Numbers -/

/-- A point in front of no digit starts no number. -/
theorem NumberLiteral.matchAt?_of_point {text : Source} {p : Nat} (hpoint : text[p]? = some '.')
    (hnext : (text[p + 1]?).any CharClass.isAsciiDigit = false) : matchAt? text p = none := by
  have hdigit : CharClass.isAsciiDigit '.' = false := by decide
  have hmantissa : mantissaEnds text p = [] := by
    simp [mantissaEnds, hpoint, hdigit, groupEnds, hnext]
  simp [matchAt?, hexEnd?, decimalEnd?, zeroEnd?, hpoint, hmantissa]

namespace Language.Solidity

/-! ### Characters -/

/-- What ends a chain of members: none of the characters of names, and no point. -/
def delimiters : List Char :=
  ((List.range 128).map Char.ofNat).filter fun c => !Yul.nameRest.contains c

/-- The end of a region of members. -/
def memberEnd : Pattern := .plain (.set (.compl Yul.nameRest))

theorem contains_of_mem_nameChars : ∀ c ∈ nameChars, Yul.nameRest.contains c = true :=
  List.all_eq_true.mp (by decide)

theorem not_contains_of_mem_delimiters {c : Char} (h : c ∈ delimiters) :
    Yul.nameRest.contains c = false := by
  simpa using (List.mem_filter.mp h).2

theorem ne_point_of_mem_delimiters {c : Char} (h : c ∈ delimiters) : c ≠ '.' := by
  rintro rfl
  have hnot := not_contains_of_mem_delimiters h
  revert hnot
  decide

theorem ne_point_of_mem_nameChars : ∀ c ∈ nameChars, c ≠ '.' := by
  have hall : nameChars.all (· != '.') = true := by decide
  intro c hc
  simpa using List.all_eq_true.mp hall c hc

/-- No blank is in a name. -/
theorem not_space_of_mem : ∀ c ∈ nameChars, CharSet.space.contains c = false := by
  have hall : nameChars.all (fun c => !CharSet.space.contains c) = true := by decide
  intro c hc
  simpa using List.all_eq_true.mp hall c hc

/-! ### Texts -/

/-- The text is a name without dollar signs, a point and another name, up to its end or a
delimiter. -/
structure IsAccess (text : Source) (owner : String) (stop : Nat) : Prop where
  owner_eq : text.chars ⟨0, owner.length⟩ = owner.toList
  owner_pos : 0 < owner.length
  no_dollar : ∀ q < owner.length, text[q]? ≠ some '$'
  point : text[owner.length]? = some '.'
  member_pos : owner.length + 1 < stop
  names : ∀ q < stop, q ≠ owner.length → ∃ c ∈ nameChars, text[q]? = some c
  no_digit : ∀ q, q = 0 ∨ q = owner.length + 1 →
    (text[q]?).any CharClass.isAsciiDigit = false
  behind : ∀ c, text[stop]? = some c → c ∈ delimiters

namespace IsAccess

variable {text : Source} {owner : String} {p q stop e : Nat} {c : Char} {pattern : Pattern}
  (h : IsAccess text owner stop)
include h

theorem owner_lt : owner.length < stop := Nat.lt_of_succ_lt h.member_pos

/-- The only point is the one in front of the member. -/
theorem eq_of_point (hq : q ≤ stop) (hpoint : text[q]? = some '.') : q = owner.length := by
  by_contra hne
  rcases Nat.lt_or_eq_of_le hq with hlt | rfl
  · obtain ⟨c, hc, hat⟩ := h.names q hlt hne
    exact ne_point_of_mem_nameChars c hc (Option.some.inj (hat.symm.trans hpoint))
  · exact ne_point_of_mem_delimiters (h.behind _ hpoint) rfl

theorem isWord (hq : q < owner.length) : (text[q]?).any CharClass.isWord = true := by
  obtain ⟨c, hc, hat⟩ := h.names q (Nat.lt_trans hq h.owner_lt) (Nat.ne_of_lt hq)
  rw [hat, Option.any_some]
  refine (isWord_or_of_mem c hc).resolve_right ?_
  rintro rfl
  exact h.no_dollar q hq hat

/-- The owner is one word. -/
theorem eq_zero_of_edge (hq : q < owner.length) (hedge : Regex.edge.holds text q = true) :
    q = 0 := by
  cases q with
  | zero => rfl
  | succ q =>
    have hbefore : (text.before? (q + 1)).any CharClass.isWord = true :=
      h.isWord (Nat.lt_of_succ_lt hq)
    rw [Regex.holds_edge_of_isWord hbefore (h.isWord hq)] at hedge
    cases hedge

/-- Behind the point no blank comes. -/
theorem runsTo_iff : Regex.RunsTo .space text (owner.length + 1) e ↔ e = owner.length + 1 := by
  obtain ⟨c, hc, hat⟩ := h.names (owner.length + 1) h.member_pos (Nat.succ_ne_self _)
  have hspace : (text[owner.length + 1]?).any CharSet.space.contains = false := by
    rw [hat, Option.any_some, not_space_of_mem c hc]
  constructor
  · intro hruns
    rcases Nat.eq_or_lt_of_le hruns.le with heq | hlt
    · exact heq.symm
    · have hall := hruns.all _ (Nat.le_refl _) hlt
      rw [hspace] at hall
      cases hall
  · rintro rfl
    exact ⟨Nat.le_refl _, fun q hq hlt => absurd hlt (Nat.not_lt_of_le hq), hspace⟩

/-! ### What matches -/

theorem endAt?_memberOpening (hq : q ≤ stop) :
    endAt? (Pattern.memberOpening.find text ·) q = some e ↔
      q = owner.length ∧ e = owner.length + 1 := by
  rw [Pattern.endAt?_memberOpening]
  constructor
  · rintro ⟨hpoint, hruns⟩
    obtain rfl := h.eq_of_point hq hpoint
    exact ⟨rfl, h.runsTo_iff.mp hruns⟩
  · rintro ⟨rfl, rfl⟩
    exact ⟨h.point, h.runsTo_iff.mpr rfl⟩

/-- A word that begins in front of the member ends there. -/
theorem le_of_word {w : List Char} (hword : text.chars ⟨q, e⟩ = w) (hw : w ≠ [] ∧ '.' ∉ w)
    (hq : q ≤ owner.length) : q < e ∧ e ≤ owner.length := by
  constructor
  · by_contra hge
    rw [Source.chars, Array.extract_empty_of_stop_le_start (Nat.le_of_not_lt hge)] at hword
    exact hw.1 hword.symm
  · by_contra hgt
    exact hw.2 (hword ▸ Source.mem_chars h.point hq (Nat.lt_of_not_le hgt))

/-- A namespace opens its region only if it is the owner. -/
theorem eq_of_endAt?_namespaceOpening {name : String} (hname : name.toList ≠ [] ∧ '.' ∉ name.toList)
    (hq : q ≤ owner.length)
    (hend : endAt? ((Pattern.namespaceOpening name).find text ·) q = some e) :
    q = 0 ∧ name = owner ∧ e = owner.length + 1 := by
  obtain ⟨hedge, -, hword, hopening⟩ := Pattern.endAt?_namespaceOpening.mp hend
  obtain ⟨hlt, hle⟩ := h.le_of_word hword hname hq
  have hin := Nat.le_trans hle (Nat.le_of_lt h.owner_lt)
  obtain ⟨hstop, rfl⟩ := (h.endAt?_memberOpening hin).mp hopening
  obtain rfl := h.eq_zero_of_edge (by omega) hedge
  rw [hstop, h.owner_eq] at hword
  exact ⟨rfl, (String.toList_inj.mp hword).symm, rfl⟩

/-- No word that opens a region is followed by a point. -/
theorem endAt?_of_spells (hspells : pattern.spells (openingWords.map String.toList) = true)
    (hwhole : pattern.isWholeWord = true) (hlisted : pattern.isListed = true)
    (hbeside : pattern.refusesBeside '.' = true) (hq : q ≤ owner.length) :
    endAt? (pattern.find text ·) q = none := by
  cases hend : endAt? (pattern.find text ·) q with
  | none => rfl
  | some stop =>
    exfalso
    obtain ⟨word, hword, hspelt⟩ := List.mem_map.mp (Pattern.chars_mem_of_spells hspells hend)
    have hletters : ∀ word ∈ openingWords, word.toList ≠ [] ∧ '.' ∉ word.toList := by
      decide
    obtain ⟨hlt, hle⟩ := h.le_of_word hspelt.symm (hletters word hword) hq
    rcases Nat.lt_or_eq_of_le hle with hinside | rfl
    · have hzero := h.eq_zero_of_edge hinside (Pattern.edges_of_isWholeWord hwhole hend).2
      omega
    · exact (Pattern.beside_of_refusesBeside hbeside hlisted hend).2 h.point

theorem endAt?_of_straysAhead (hstrays : pattern.straysAhead nameChars ['.'] = true)
    (hq : q ≤ owner.length) : endAt? (pattern.find text ·) q = none := by
  cases hend : endAt? (pattern.find text ·) q with
  | none => rfl
  | some stop =>
    exfalso
    obtain ⟨r, c, hqr, hc, hnot, hahead⟩ := Pattern.exists_stray_ahead hstrays hend
    rw [List.mem_append, not_or, List.mem_singleton] at hnot
    rcases Nat.lt_trichotomy r owner.length with hlt | rfl | hgt
    · obtain ⟨d, hd, hat⟩ := h.names r (Nat.lt_trans hlt h.owner_lt) (Nat.ne_of_lt hlt)
      obtain rfl := Option.some.inj (hat.symm.trans hc)
      exact hnot.1 hd
    · exact hnot.2 (Option.some.inj (hc.symm.trans h.point))
    · -- the match would have to get over the point
      exact hahead _ hq hgt '.' List.mem_cons_self h.point

theorem matchAt?_eq_none (hq : q ≤ owner.length) : NumberLiteral.matchAt? text q = none := by
  rcases Nat.lt_or_eq_of_le hq with hlt | rfl
  · refine NumberLiteral.matchAt?_inside (fun r hr => ?_) (h.no_digit 0 (.inl rfl))
    have hr' := Nat.lt_of_le_of_lt hr hlt
    obtain ⟨c, hc, hat⟩ := h.names r (Nat.lt_trans hr' h.owner_lt) (Nat.ne_of_lt hr')
    rw [hat, Option.any_some]
    exact continuesWord_of_mem c hc
  · exact NumberLiteral.matchAt?_of_point h.point (h.no_digit _ (.inr rfl))

end IsAccess

theorem exists_of_name {name : String} {q : Nat} (hname : MatchesFully lexeme name)
    (hq : q < (Source.ofString name).size) :
    ∃ c ∈ nameChars, (Source.ofString name)[q]? = some c :=
  ⟨_, mem_nameChars_of_name hname _ (Array.getElem_mem hq), Array.getElem?_eq_getElem hq⟩

/-- **A name with a member is one**, whatever comes behind it. -/
theorem isAccess_of_names {owner member : String} (howner : MatchesFully lexeme owner)
    (hdollar : '$' ∉ owner.toList) (hmember : MatchesFully lexeme member) {v : Source}
    (hv : ∀ c, v[0]? = some c → c ∈ delimiters) :
    IsAccess (Source.ofString (owner ++ "." ++ member) ++ v) owner
      (Source.ofString (owner ++ "." ++ member)).size := by
  have hparts : Source.ofString (owner ++ "." ++ member) =
      Source.ofString owner ++ (#['.'] ++ Source.ofString member) := by
    rw [Source.ofString_append, Source.ofString_append, Array.append_assoc]
    rfl
  have hlength : (Source.ofString owner).size = owner.length := String.length_toList
  have hsize : (Source.ofString (owner ++ "." ++ member)).size =
      owner.length + (1 + (Source.ofString member).size) := by
    rw [hparts, Array.size_append, Array.size_append, hlength]
    rfl
  have hownerPos := size_pos_of_name howner
  have hmemberPos := size_pos_of_name hmember
  rw [hsize, hparts, Array.append_assoc, Array.append_assoc]
  generalize htext : Source.ofString owner ++ (#['.'] ++ (Source.ofString member ++ v)) = text
  have hfront : ∀ q < owner.length, text[q]? = (Source.ofString owner)[q]? := by
    intro q hq
    rw [← htext, Array.getElem?_append_left (hlength.symm ▸ hq)]
  have hpoint : ∀ q, text[owner.length + q]? = (#['.'] ++ (Source.ofString member ++ v))[q]? := by
    intro q
    rw [← htext, ← hlength, Source.getElem?_append_add]
  have hbehind : ∀ q, text[owner.length + (1 + q)]? = (Source.ofString member ++ v)[q]? :=
    fun q => (hpoint _).trans (Source.getElem?_append_add #['.'] _ q)
  have hrest : ∀ q < (Source.ofString member).size,
      text[owner.length + (1 + q)]? = (Source.ofString member)[q]? :=
    fun q hq => (hbehind q).trans (Array.getElem?_append_left hq)
  constructor
  case owner_eq =>
    rw [← htext, ← hlength, Source.chars_append (Nat.le_refl _), Source.chars, Array.extract_size,
      Source.ofString]
  case owner_pos => omega
  case no_dollar =>
    intro q hq hc
    rw [hfront q hq] at hc
    exact hdollar (List.mem_toArray.mp (Array.mem_of_getElem? hc))
  case point => exact (hpoint 0).trans (Array.getElem?_append_left Nat.one_pos)
  case member_pos => omega
  case names =>
    intro q hq hne
    rcases Nat.lt_or_ge q owner.length with hlt | hge
    · rw [hfront q hlt]
      exact exists_of_name howner (hlength.symm ▸ hlt)
    · obtain ⟨r, rfl⟩ := Nat.exists_eq_add_of_lt (Nat.lt_of_le_of_ne hge hne.symm)
      rw [Nat.add_assoc, Nat.add_comm r 1, hrest r (by omega)]
      exact exists_of_name hmember (by omega)
  case no_digit =>
    rintro q (rfl | rfl)
    · rw [hfront 0 (by omega)]
      exact any_isAsciiDigit_of_name howner
    · exact hrest 0 hmemberPos ▸ any_isAsciiDigit_of_name hmember
  case behind =>
    intro c hc
    rw [hbehind] at hc
    exact hv c ((Source.getElem?_append_add _ v 0).symm.trans hc)

/-! ### What opens -/

def namespaceNames : List String := namespaces.map Prod.fst

/-- No match of the pattern starts at a name with a member or at its point, but for the opening of
a region of members. -/
def sparesAccess (p : Pattern) : Bool :=
  p.straysAhead nameChars ['.'] || p == .number ||
    p.spells (openingWords.map String.toList) && p.isWholeWord && p.isListed &&
      p.refusesBeside '.' ||
    p == .memberOpening || namespaceNames.any (p == .namespaceOpening ·)

/-- The pattern opens a region of members at the position. -/
inductive OpensAccess (owner : String) : Pattern → Nat → Prop
  | member : OpensAccess owner .memberOpening owner.length
  | ofNamespace (h : owner ∈ namespaceNames) : OpensAccess owner (.namespaceOpening owner) 0

namespace OpensAccess

variable {owner : String} {pattern : Pattern} {text : Source} {q stop e : Nat}

theorem le (h : OpensAccess owner pattern q) : q ≤ owner.length := by
  cases h with
  | member => exact Nat.le_refl _
  | ofNamespace => exact Nat.zero_le _

/-- The region opens up to the member. -/
theorem endAt?_eq (h : OpensAccess owner pattern q) (haccess : IsAccess text owner stop) :
    endAt? (pattern.find text ·) q = some (owner.length + 1) := by
  have hmember := (haccess.endAt?_memberOpening (Nat.le_of_lt haccess.owner_lt)).mpr ⟨rfl, rfl⟩
  cases h with
  | member => exact hmember
  | ofNamespace hname =>
    refine Pattern.endAt?_namespaceOpening.mpr ⟨?_, nofun, ?_, ?_⟩
    · have hfirst := haccess.isWord haccess.owner_pos
      have hedge : Regex.edge.holds text 0 = (false != (text[0]?).any CharClass.isWord) := rfl
      rw [hedge, hfirst]
      rfl
    · rw [Nat.zero_add]
      exact haccess.owner_eq
    · rw [Nat.zero_add]
      exact hmember

/-- **Nothing else matches in front of the member.** -/
theorem of_endAt? (haccess : IsAccess text owner stop) (hspares : sparesAccess pattern = true)
    (hq : q ≤ owner.length) (hend : endAt? (pattern.find text ·) q = some e) :
    OpensAccess owner pattern q ∧ e = owner.length + 1 := by
  have hin := Nat.le_trans hq (Nat.le_of_lt haccess.owner_lt)
  simp only [sparesAccess, Bool.or_eq_true, Bool.and_eq_true, beq_iff_eq, List.any_eq_true]
    at hspares
  rcases hspares with
    (((hstrays | rfl) | ⟨⟨⟨hspells, hwhole⟩, hlisted⟩, hbeside⟩) | rfl) | ⟨name, hname, rfl⟩
  · rw [haccess.endAt?_of_straysAhead hstrays hq] at hend
    cases hend
  · have hsize := (Array.getElem?_eq_some_iff.mp haccess.point).1
    rw [Pattern.endAt?_number (by omega), haccess.matchAt?_eq_none hq] at hend
    cases hend
  · rw [haccess.endAt?_of_spells hspells hwhole hlisted hbeside hq] at hend
    cases hend
  · obtain ⟨rfl, rfl⟩ := (haccess.endAt?_memberOpening hin).mp hend
    exact ⟨.member, rfl⟩
  · have hletters : ∀ name ∈ namespaceNames, name.toList ≠ [] ∧ '.' ∉ name.toList := by
      decide
    obtain ⟨rfl, rfl, rfl⟩ :=
      haccess.eq_of_endAt?_namespaceOpening (hletters name hname) hq hend
    exact ⟨.ofNamespace hname, rfl⟩

/-- **One opening is ahead of all others**: that of the namespace, if the owner is one. -/
theorem exists_first (hpos : 0 < owner.length) : ∃ pattern start, OpensAccess owner pattern start ∧
    ∀ pattern' q, OpensAccess owner pattern' q → q ≤ start → pattern' = pattern ∧ q = start := by
  by_cases hname : owner ∈ namespaceNames
  · refine ⟨_, _, .ofNamespace hname, fun pattern' q h hq => ?_⟩
    cases h with
    | member => omega
    | ofNamespace => exact ⟨rfl, rfl⟩
  · refine ⟨_, _, .member, fun pattern' q h _ => ?_⟩
    cases h with
    | member => exact ⟨rfl, rfl⟩
    | ofNamespace h => exact absurd h hname

end OpensAccess

end Language.Solidity

end Highlighting
