/-
  Highlighting/Proofs/NumberLiteral/Longest.lean
  ==============================================
  **The literal at a position is the longest one that may end where it ends.**

  What a literal can be is a regular language (`literal`).  The candidates for
  an end are those of its words that start at a position, which is shown piece
  by piece along the definition of the language (`mem_groupEnds_iff` to
  `mem_decimalEnds_iff`).

  They are listed in order of preference, and that turns out to be the order of
  length: wherever a shorter candidate stops, the text goes on with a digit, an
  underscore or the point, so that no exponent starts there
  (`descending_decimalEnds`).  Hence the first candidate that may end where it
  ends is the longest one (`matchAt?_eq_some_iff`).
-/
import Mathlib.Computability.Language
import Mathlib.Order.CompletePartialOrder
import Highlighting.Proofs.NumberLiteral

namespace Highlighting.NumberLiteral

open CharClass (isAsciiDigit isHexDigit)
open scoped Computability

variable {text : Source} {digit : Char → Bool} {p q r pos stop : Nat} {l m : Language Char}

/-! ### The language -/

/-- The words of a single character of a kind. -/
def one (kind : Char → Bool) : Language Char := {w | ∃ c, kind c = true ∧ w = [c]}

def char (c : Char) : Language Char := one (· == c)

def optional (l : Language Char) : Language Char := 1 + l

def isNonzeroDigit (c : Char) : Bool := isAsciiDigit c && c != '0'

/-- Digits with single underscores between them, the first one of a kind of its own. -/
def digits (first digit : Char → Bool) : Language Char :=
  one first * (optional (char '_') * one digit)∗

def group (digit : Char → Bool) : Language Char := digits digit digit

def hexadecimal : Language Char :=
  char '0' * (one (fun c => c == 'x' || c == 'X') * group isHexDigit)

def exponent : Language Char :=
  one (fun c => c == 'e' || c == 'E') *
    (optional (one fun c => c == '-' || c == '+') * group isAsciiDigit)

def mantissa : Language Char :=
  digits isNonzeroDigit isAsciiDigit * optional (char '.' * optional (group isAsciiDigit)) +
    char '.' * group isAsciiDigit

def decimal : Language Char := mantissa * optional exponent

/-- A literal but for its sign. -/
def unsigned : Language Char := hexadecimal + decimal + char '0'

def literal : Language Char := optional (char '-') * unsigned

/-! ### Words in a text -/

/-- The text has a word of the language between two positions. -/
structure Reads (text : Source) (l : Language Char) (p q : Nat) : Prop where
  le : p ≤ q
  le_size : q ≤ text.size
  mem : text.chars ⟨p, q⟩ ∈ l

namespace Reads

theorem chars_append (h : p ≤ q) (h' : q ≤ r) :
    text.chars ⟨p, q⟩ ++ text.chars ⟨q, r⟩ = text.chars ⟨p, r⟩ := by
  simp only [Source.chars, ← Array.toList_append, Array.extract_append_extract,
    Nat.min_eq_left h, Nat.max_eq_right h']

theorem length_chars (h : q ≤ text.size) : (text.chars ⟨p, q⟩).length = q - p := by
  simp only [Source.chars, Array.length_toList, Array.size_extract]
  omega

theorem chars_one (h : p < text.size) : text.chars ⟨p, p + 1⟩ = [text[p]] := by
  have hextract : text.extract p (p + 1) = #[text[p]] := by
    rw [Array.extract_succ_right (by omega) h, Array.extract_empty_of_stop_le_start (Nat.le_refl p)]
    rfl
  rw [Source.chars, hextract]

@[simp] theorem one_iff {kind : Char → Bool} :
    Reads text (one kind) p q ↔ (text[p]?).any kind = true ∧ q = p + 1 := by
  constructor
  · rintro ⟨hle, hsize, c, hc, hchars⟩
    have hlength := length_chars (p := p) hsize
    rw [hchars, List.length_singleton] at hlength
    obtain rfl : q = p + 1 := by omega
    have hlt : p < text.size := by omega
    rw [chars_one hlt, List.cons.injEq] at hchars
    rw [Array.getElem?_eq_getElem hlt, hchars.1]
    exact ⟨hc, rfl⟩
  · rintro ⟨hany, rfl⟩
    have hlt := lt_size_of_any hany
    rw [Array.getElem?_eq_getElem hlt] at hany
    exact ⟨Nat.le_succ p, hlt, text[p], hany, chars_one hlt⟩

@[simp] theorem char_iff {c : Char} :
    Reads text (char c) p q ↔ text[p]? = some c ∧ q = p + 1 := by
  rw [char, one_iff, Option.any_eq_true]
  simp

@[simp] theorem empty_iff : Reads text 1 p q ↔ p = q ∧ p ≤ text.size := by
  constructor
  · rintro ⟨hle, hsize, hmem⟩
    have hlength := length_chars (p := p) hsize
    rw [Language.mem_one] at hmem
    rw [hmem, List.length_nil] at hlength
    omega
  · rintro ⟨rfl, hsize⟩
    refine ⟨Nat.le_refl p, hsize, ?_⟩
    rw [Language.mem_one, ← List.length_eq_zero_iff, length_chars hsize, Nat.sub_self]

@[simp] theorem add_iff : Reads text (l + m) p q ↔ Reads text l p q ∨ Reads text m p q := by
  constructor
  · rintro ⟨hle, hsize, hmem | hmem⟩
    · exact .inl ⟨hle, hsize, hmem⟩
    · exact .inr ⟨hle, hsize, hmem⟩
  · rintro (⟨hle, hsize, hmem⟩ | ⟨hle, hsize, hmem⟩)
    · exact ⟨hle, hsize, .inl hmem⟩
    · exact ⟨hle, hsize, .inr hmem⟩

@[simp] theorem mul_iff :
    Reads text (l * m) p r ↔ ∃ q, Reads text l p q ∧ Reads text m q r := by
  constructor
  · rintro ⟨hle, hsize, hmem⟩
    obtain ⟨v, hv, w, hw, hvw⟩ := Language.mem_mul.mp hmem
    have hlength := length_chars (p := p) hsize
    rw [← hvw, List.length_append] at hlength
    have hq : p + v.length ≤ r := by omega
    -- the words are the two parts of the stretch, since they have their lengths
    have hparts : v = text.chars ⟨p, p + v.length⟩ ∧ w = text.chars ⟨p + v.length, r⟩ := by
      apply List.append_inj (hvw.trans (chars_append (Nat.le_add_right p _) hq).symm)
      rw [length_chars (Nat.le_trans hq hsize)]
      omega
    rw [hparts.1] at hv
    rw [hparts.2] at hw
    exact ⟨p + v.length, ⟨Nat.le_add_right p _, Nat.le_trans hq hsize, hv⟩, hq, hsize, hw⟩
  · rintro ⟨q, ⟨hle, -, hv⟩, hle', hsize, hw⟩
    refine ⟨Nat.le_trans hle hle', hsize, ?_⟩
    rw [← chars_append hle hle']
    exact Language.append_mem_mul hv hw

@[simp] theorem optional_iff :
    Reads text (optional l) p q ↔ p = q ∧ p ≤ text.size ∨ Reads text l p q := by
  rw [optional, add_iff, empty_iff]

theorem kstar_iff :
    Reads text l∗ p r ↔
      p = r ∧ p ≤ text.size ∨ ∃ q, Reads text l p q ∧ Reads text l∗ q r := by
  rw [← mul_iff, ← empty_iff, ← add_iff, Language.one_add_self_mul_kstar_eq_kstar]

end Reads

/-! ### Digit groups -/

/-- Digits behind the first one. -/
def moreDigits (digit : Char → Bool) : Language Char := (optional (char '_') * one digit)∗

theorem reads_digits_iff {first : Char → Bool} :
    Reads text (digits first digit) p r ↔
      (text[p]?).any first = true ∧ Reads text (moreDigits digit) (p + 1) r := by
  rw [digits, moreDigits, Reads.mul_iff]
  simp only [Reads.one_iff, and_assoc, exists_and_left, exists_eq_left]

theorem reads_moreDigits_iff :
    Reads text (moreDigits digit) p r ↔
      p = r ∧ p ≤ text.size ∨
      (text[p]?).any digit = true ∧ Reads text (moreDigits digit) (p + 1) r ∨
      text[p]? = some '_' ∧ (text[p + 1]?).any digit = true ∧
        Reads text (moreDigits digit) (p + 2) r := by
  rw [moreDigits, Reads.kstar_iff]
  refine or_congr_right ?_
  constructor
  · rintro ⟨q, hq, hr⟩
    obtain ⟨q', hq', hq⟩ := Reads.mul_iff.mp hq
    obtain ⟨hdigit, rfl⟩ := Reads.one_iff.mp hq
    rcases Reads.optional_iff.mp hq' with ⟨rfl, -⟩ | hq'
    · exact .inl ⟨hdigit, hr⟩
    · obtain ⟨hunderscore, rfl⟩ := Reads.char_iff.mp hq'
      exact .inr ⟨hunderscore, hdigit, hr⟩
  · rintro (⟨hdigit, hr⟩ | ⟨hunderscore, hdigit, hr⟩)
    · refine ⟨p + 1, Reads.mul_iff.mpr ⟨p, ?_, Reads.one_iff.mpr ⟨hdigit, rfl⟩⟩, hr⟩
      exact Reads.optional_iff.mpr (.inl ⟨rfl, Nat.le_of_lt (lt_size_of_any hdigit)⟩)
    · refine ⟨p + 2, Reads.mul_iff.mpr ⟨p + 1, ?_, Reads.one_iff.mpr ⟨hdigit, rfl⟩⟩, hr⟩
      exact Reads.optional_iff.mpr (.inr (Reads.char_iff.mpr ⟨hunderscore, rfl⟩))

theorem groupEndsFrom_append (fuel pos : Nat) (shorter : List Nat) :
    groupEndsFrom text digit fuel pos shorter =
      groupEndsFrom text digit fuel pos [] ++ shorter := by
  induction fuel generalizing pos shorter with
  | zero => rfl
  | succ fuel ih =>
    rw [groupEndsFrom, groupEndsFrom]
    split
    · rw [ih (pos + 1) (pos :: shorter), ih (pos + 1) [pos], List.append_assoc]
      rfl
    · split
      · rw [ih (pos + 2) (pos :: shorter), ih (pos + 2) [pos], List.append_assoc]
        rfl
      · rfl

/-- **Further digits end where the listing says.** -/
theorem mem_groupEndsFrom_iff (hdigit : digit '_' = false) {fuel : Nat} (hp : p ≤ text.size)
    (hfuel : text.size ≤ p + fuel) :
    r ∈ groupEndsFrom text digit fuel p [] ↔ Reads text (moreDigits digit) p r := by
  induction fuel generalizing p with
  | zero =>
    have hend : text[p]? = none := Array.getElem?_eq_none hfuel
    rw [groupEndsFrom, List.mem_singleton, reads_moreDigits_iff, hend, eq_comm]
    simp [hp]
  | succ fuel ih =>
    rw [groupEndsFrom, reads_moreDigits_iff]
    by_cases hd : (text[p]?).any digit = true
    · have hunderscore : text[p]? ≠ some '_' := by
        intro h
        rw [h, Option.any_some, hdigit] at hd
        cases hd
      rw [if_pos hd, groupEndsFrom_append, List.mem_append, List.mem_singleton,
        ih (lt_size_of_any hd) (by omega), or_comm, eq_comm]
      simp [hd, hunderscore, hp]
    · rw [if_neg hd]
      by_cases hu : text[p]? = some '_' ∧ (text[p + 1]?).any digit = true
      · have htest : (text[p]? == some '_' && (text[p + 1]?).any digit) = true := by
          rw [hu.1, hu.2]
          rfl
        rw [if_pos htest, groupEndsFrom_append, List.mem_append, List.mem_singleton,
          ih (lt_size_of_any hu.2) (by omega), or_comm, eq_comm]
        simp [hu, hdigit, hp]
      · have htest : ¬ (text[p]? == some '_' && (text[p + 1]?).any digit) = true := by
          rw [Bool.and_eq_true, beq_iff_eq]
          exact hu
        rw [if_neg htest, List.mem_singleton]
        constructor
        · rintro rfl
          exact .inl ⟨rfl, hp⟩
        · rintro (⟨rfl, -⟩ | ⟨h, -⟩ | ⟨h, h', -⟩)
          · rfl
          · exact absurd h hd
          · exact absurd ⟨h, h'⟩ hu

theorem mem_groupEnds_iff (hdigit : digit '_' = false) :
    r ∈ groupEnds text digit p ↔ Reads text (group digit) p r := by
  rw [groupEnds, group, reads_digits_iff]
  by_cases hd : (text[p]?).any digit = true
  · rw [if_pos hd, mem_groupEndsFrom_iff hdigit (lt_size_of_any hd) (by omega), and_iff_right hd]
  · rw [if_neg hd]
    simp [hd]

/-- The second end lies before the first, and the text goes on there with a digit or an
underscore. -/
def GoesOn (text : Source) (digit : Char → Bool) (q q' : Nat) : Prop :=
  q' < q ∧ (text[q']?).any (fun c => digit c || c == '_') = true

theorem goesOn_groupEndsFrom {fuel : Nat} (hp : p ≤ text.size) :
    (groupEndsFrom text digit fuel p []).Pairwise (GoesOn text digit) := by
  induction fuel generalizing p with
  | zero => exact List.pairwise_singleton _ _
  | succ fuel ih =>
    have hlater : ∀ q, p < q → q ≤ text.size →
        (text[p]?).any (fun c => digit c || c == '_') = true →
        (groupEndsFrom text digit fuel q [p]).Pairwise (GoesOn text digit) := by
      intro q hq hsize hnext
      rw [groupEndsFrom_append, List.pairwise_append]
      refine ⟨ih hsize, List.pairwise_singleton _ _, ?_⟩
      intro r hr r' hr'
      rw [List.mem_singleton.mp hr']
      rcases mem_groupEndsFrom hsize hr with hr | hr
      · cases hr
      · exact ⟨by omega, hnext⟩
    rw [groupEndsFrom]
    split
    · next hd =>
      refine hlater (p + 1) (Nat.lt_succ_self p) (lt_size_of_any hd) ?_
      obtain ⟨c, hc, hd⟩ := (Option.any_eq_true _ _).mp hd
      simp [hc, hd]
    · split
      · next hu =>
        rw [Bool.and_eq_true, beq_iff_eq] at hu
        refine hlater (p + 2) (by omega) (lt_size_of_any hu.2) ?_
        simp [hu.1]
      · exact List.pairwise_singleton _ _

theorem goesOn_groupEnds (p : Nat) :
    (groupEnds text digit p).Pairwise (GoesOn text digit) := by
  rw [groupEnds]
  split
  · next hd => exact goesOn_groupEndsFrom (lt_size_of_any hd)
  · exact .nil

/-! ### Exponents -/

theorem digit_underscore : isAsciiDigit '_' = false := rfl

theorem hexDigit_underscore : isHexDigit '_' = false := rfl

/-- No digit, point or underscore starts an exponent. -/
theorem exponentEnds_eq_nil
    (h : (text[p]?).any (fun c => isAsciiDigit c || c == '_' || c == '.') = true) :
    exponentEnds text p = [] := by
  obtain ⟨c, hc, h⟩ := (Option.any_eq_true _ _).mp h
  have hne : ¬ (text[p]?).any (fun c => c == 'e' || c == 'E') = true := by
    rw [hc, Option.any_some]
    intro he
    simp only [Bool.or_eq_true, beq_iff_eq] at he h
    rcases he with rfl | rfl
    · revert h
      decide
    · revert h
      decide
  rw [exponentEnds, if_neg hne]

theorem mem_exponentEnds_iff : r ∈ exponentEnds text p ↔ Reads text exponent p r := by
  rw [exponentEnds, exponent, Reads.mul_iff]
  simp only [Reads.one_iff]
  by_cases he : (text[p]?).any (fun c => c == 'e' || c == 'E') = true
  · rw [if_pos he]
    simp only [he, true_and, exists_eq_left, Reads.mul_iff]
    by_cases hsign : (text[p + 1]?).any (fun c => c == '-' || c == '+') = true
    · rw [if_pos hsign, mem_groupEnds_iff digit_underscore]
      constructor
      · intro h
        exact ⟨p + 2, Reads.optional_iff.mpr (.inr (Reads.one_iff.mpr ⟨hsign, rfl⟩)), h⟩
      · rintro ⟨q, hq, h⟩
        rcases Reads.optional_iff.mp hq with ⟨rfl, -⟩ | hq
        · -- a sign is no digit
          have hdigit := (reads_digits_iff.mp h).1
          obtain ⟨c, hc, hsign⟩ := (Option.any_eq_true _ _).mp hsign
          rw [hc, Option.any_some] at hdigit
          simp only [Bool.or_eq_true, beq_iff_eq] at hsign
          rcases hsign with rfl | rfl
          · cases hdigit
          · cases hdigit
        · obtain ⟨-, rfl⟩ := Reads.one_iff.mp hq
          exact h
    · rw [if_neg hsign, mem_groupEnds_iff digit_underscore]
      constructor
      · intro h
        refine ⟨p + 1, Reads.optional_iff.mpr (.inl ⟨rfl, ?_⟩), h⟩
        exact Nat.le_trans h.le h.le_size
      · rintro ⟨q, hq, h⟩
        rcases Reads.optional_iff.mp hq with ⟨rfl, -⟩ | hq
        · exact h
        · exact absurd (Reads.one_iff.mp hq).1 hsign
  · rw [if_neg he]
    simp [he]

theorem descending_exponentEnds (p : Nat) : (exponentEnds text p).Pairwise (· > ·) := by
  rw [exponentEnds]
  split
  · split
    · exact (goesOn_groupEnds _).imp fun h => h.1
    · exact (goesOn_groupEnds _).imp fun h => h.1
  · exact .nil

/-! ### Decimals -/

/-- A digit does not start in the middle of a word. -/
def startsFresh (text : Source) (p : Nat) : Prop :=
  (text[p]?).any isAsciiDigit = true → startsWord text p = true

theorem any_isAsciiDigit_of_nonzero (h : (text[p]?).any isNonzeroDigit = true) :
    (text[p]?).any isAsciiDigit = true := by
  obtain ⟨c, hc, h⟩ := (Option.any_eq_true _ _).mp h
  rw [isNonzeroDigit, Bool.and_eq_true] at h
  rw [hc, Option.any_some]
  exact h.1

/-- Where the part of a decimal before its exponent can end, when its integer part ends there. -/
def fractionEnds (text : Source) (integer : Nat) : List Nat :=
  if text[integer]? == some '.' then
    groupEnds text isAsciiDigit (integer + 1) ++ [integer + 1, integer]
  else [integer]

theorem mem_fractionEnds_iff (hp : p ≤ text.size) :
    r ∈ fractionEnds text p ↔
      Reads text (optional (char '.' * optional (group isAsciiDigit))) p r := by
  rw [fractionEnds, Reads.optional_iff, Reads.mul_iff]
  simp only [Reads.char_iff]
  by_cases hpoint : text[p]? = some '.'
  · have hlt : p < text.size := (Array.getElem?_eq_some_iff.mp hpoint).1
    rw [if_pos (beq_iff_eq.mpr hpoint), List.mem_append, mem_groupEnds_iff digit_underscore]
    simp only [hpoint, true_and, exists_eq_left, Reads.optional_iff, List.mem_cons,
      List.not_mem_nil, or_false]
    constructor
    · rintro (h | rfl | rfl)
      · exact .inr (.inr h)
      · exact .inr (.inl ⟨rfl, hlt⟩)
      · exact .inl ⟨rfl, hp⟩
    · rintro (⟨rfl, -⟩ | ⟨rfl, -⟩ | h)
      · exact .inr (.inr rfl)
      · exact .inr (.inl rfl)
      · exact .inl h
  · rw [if_neg (by simpa using hpoint)]
    simp [hpoint, hp, eq_comm]

theorem mem_mantissaEnds_iff :
    r ∈ mantissaEnds text p ↔ Reads text mantissa p r ∧ startsFresh text p := by
  have hpoint : ∀ q, text[p]? = some '.' → ¬ Reads text
      (digits isNonzeroDigit isAsciiDigit * optional (char '.' * optional (group isAsciiDigit)))
      p q := by
    intro q hc h
    obtain ⟨q', h, -⟩ := Reads.mul_iff.mp h
    have hdigit := (reads_digits_iff.mp h).1
    rw [hc] at hdigit
    revert hdigit
    decide
  have hnonzero : (fun c => isAsciiDigit c && c != '0') = isNonzeroDigit := rfl
  rw [mantissaEnds, mantissa, Reads.add_iff, hnonzero]
  by_cases hc : text[p]? = some '.'
  · -- what starts with a point
    have hfresh : startsFresh text p := by
      intro h
      rw [hc] at h
      cases h
    have hne : ¬ ((text[p]?).any isNonzeroDigit && startsWord text p) = true := by
      rw [hc]
      exact Bool.false_ne_true
    rw [if_neg hne, if_pos (beq_iff_eq.mpr hc), mem_groupEnds_iff digit_underscore]
    simp only [hpoint _ hc, false_or, hfresh, and_true, Reads.mul_iff, Reads.char_iff, hc, true_and,
      exists_eq_left]
  · by_cases hd : (text[p]?).any isNonzeroDigit = true
    · have hdigit := any_isAsciiDigit_of_nonzero hd
      by_cases hw : startsWord text p = true
      · have hfresh : startsFresh text p := fun _ => hw
        rw [if_pos (by rw [hd, hw]; rfl), List.mem_flatMap]
        simp only [hfresh, and_true, Reads.mul_iff, Reads.char_iff, hc, false_and, exists_false,
          or_false]
        refine exists_congr fun q => ?_
        rw [mem_groupEnds_iff digit_underscore, group, reads_digits_iff, reads_digits_iff,
          and_iff_right hd, and_iff_right hdigit]
        refine and_congr_right fun hq => ?_
        exact mem_fractionEnds_iff hq.le_size
      · have hfresh : ¬ startsFresh text p := fun h => hw (h hdigit)
        rw [if_neg (by simp [hw]), if_neg (by simpa using hc)]
        simp [hfresh]
    · rw [if_neg (by simp [hd]), if_neg (by simpa using hc)]
      simp [reads_digits_iff, hd, hc]

/-- The second end lies before the first, and no exponent starts there. -/
def Passed (text : Source) (q q' : Nat) : Prop := q' < q ∧ exponentEnds text q' = []

theorem GoesOn.passed (h : GoesOn text isAsciiDigit q r) : Passed text q r := by
  refine ⟨h.1, exponentEnds_eq_nil ?_⟩
  obtain ⟨c, hc, hd⟩ := (Option.any_eq_true _ _).mp h.2
  rw [hc, Option.any_some, hd]
  rfl

theorem passed_fractionEnds (p : Nat) : (fractionEnds text p).Pairwise (Passed text) := by
  rw [fractionEnds]
  split
  · next hpoint =>
    rw [beq_iff_eq] at hpoint
    have hpassed : Passed text (p + 1) p :=
      ⟨Nat.lt_succ_self p, exponentEnds_eq_nil (by rw [hpoint]; rfl)⟩
    rw [List.pairwise_append]
    refine ⟨(goesOn_groupEnds _).imp GoesOn.passed, ?_, ?_⟩
    · simpa using hpassed
    · intro q hq r hr
      have hlt := (mem_groupEnds hq).1
      simp only [List.mem_cons, List.not_mem_nil, or_false] at hr
      rcases hr with rfl | rfl
      · -- a digit follows the point
        have hdigit := (reads_digits_iff.mp ((mem_groupEnds_iff digit_underscore).mp hq)).1
        refine ⟨hlt, exponentEnds_eq_nil ?_⟩
        obtain ⟨c, hc, hd⟩ := (Option.any_eq_true _ _).mp hdigit
        rw [hc, Option.any_some, hd]
        rfl
      · exact ⟨by omega, hpassed.2⟩
  · exact List.pairwise_singleton _ _

theorem le_of_mem_fractionEnds (h : q ∈ fractionEnds text p) : p ≤ q := by
  rw [fractionEnds] at h
  split at h
  · simp only [List.mem_append, List.mem_cons, List.not_mem_nil, or_false] at h
    rcases h with h | rfl | rfl
    · have hlt := (mem_groupEnds h).1
      omega
    · exact Nat.le_succ p
    · exact Nat.le_refl q
  · rw [List.mem_singleton] at h
    omega

theorem passed_mantissaEnds (p : Nat) : (mantissaEnds text p).Pairwise (Passed text) := by
  rw [mantissaEnds]
  split
  · show ((groupEnds text isAsciiDigit p).flatMap (fractionEnds text)).Pairwise _
    rw [List.pairwise_flatMap]
    refine ⟨fun q _ => passed_fractionEnds q, (goesOn_groupEnds p).imp ?_⟩
    intro q q' hgoes x hx y hy
    have hle := le_of_mem_fractionEnds hx
    -- a digit or an underscore follows the shorter integer part, and no point
    have hpoint : text[q']? ≠ some '.' := by
      intro hpoint
      have hnext := hgoes.2
      rw [hpoint] at hnext
      revert hnext
      decide
    rw [fractionEnds, if_neg (by simpa using hpoint), List.mem_singleton] at hy
    subst hy
    exact ⟨Nat.lt_of_lt_of_le hgoes.1 hle, hgoes.passed.2⟩
  · split
    · exact (goesOn_groupEnds _).imp GoesOn.passed
    · exact .nil

/-- Where a decimal that starts at the position can end, preferred ends first. -/
def decimalEnds (text : Source) (p : Nat) : List Nat :=
  (mantissaEnds text p).flatMap fun q => exponentEnds text q ++ [q]

theorem decimalEnd?_eq (p : Nat) :
    decimalEnd? text p = (decimalEnds text p).find? (endsLiteral text) := by
  rw [decimalEnd?, decimalEnds, List.find?_flatMap]

theorem mem_decimalEnds_iff :
    r ∈ decimalEnds text p ↔ Reads text decimal p r ∧ startsFresh text p := by
  rw [decimalEnds, decimal, List.mem_flatMap, Reads.mul_iff, ← exists_and_right]
  refine exists_congr fun q => ?_
  rw [mem_mantissaEnds_iff, List.mem_append, List.mem_singleton, mem_exponentEnds_iff,
    Reads.optional_iff, and_right_comm]
  refine and_congr_left fun _ => and_congr_right fun hq => ?_
  constructor
  · rintro (h | rfl)
    · exact .inr h
    · exact .inl ⟨rfl, hq.le_size⟩
  · rintro (⟨rfl, -⟩ | h)
    · exact .inr rfl
    · exact .inl h

/-- **Of two decimals the preferred one is the longer one.** -/
theorem descending_decimalEnds (p : Nat) : (decimalEnds text p).Pairwise (· > ·) := by
  rw [decimalEnds, List.pairwise_flatMap]
  constructor
  · intro q _
    rw [List.pairwise_append]
    refine ⟨descending_exponentEnds q, List.pairwise_singleton _ _, ?_⟩
    intro x hx y hy
    rw [List.mem_singleton] at hy
    have hlt := (mem_exponentEnds hx).1
    omega
  · refine (passed_mantissaEnds p).imp ?_
    rintro q q' ⟨hlt, hnil⟩ x hx y hy
    rw [hnil, List.nil_append, List.mem_singleton] at hy
    have hle : q ≤ x := by
      rcases List.mem_append.mp hx with hx | hx
      · exact Nat.le_of_lt (mem_exponentEnds hx).1
      · exact Nat.le_of_eq (List.mem_singleton.mp hx).symm
    omega

/-! ### Literals -/

/-- In a descending list the first element of a kind is the greatest. -/
theorem find?_eq_some_iff_of_descending {ends : List Nat} {accept : Nat → Bool}
    (h : ends.Pairwise (· > ·)) :
    ends.find? accept = some stop ↔
      (stop ∈ ends ∧ accept stop = true) ∧ ∀ e, e ∈ ends ∧ accept e = true → e ≤ stop := by
  induction ends with
  | nil => simp
  | cons e ends ih =>
    obtain ⟨hgt, hrest⟩ := List.pairwise_cons.mp h
    by_cases he : accept e = true
    · rw [List.find?_cons_of_pos he, Option.some.injEq]
      constructor
      · rintro rfl
        refine ⟨⟨List.mem_cons_self, he⟩, ?_⟩
        rintro e' ⟨hmem, -⟩
        rcases List.mem_cons.mp hmem with rfl | hmem
        · exact Nat.le_refl _
        · exact Nat.le_of_lt (hgt e' hmem)
      · rintro ⟨⟨hmem, -⟩, hgreatest⟩
        rcases List.mem_cons.mp hmem with rfl | hmem
        · rfl
        · have hle := hgreatest e ⟨List.mem_cons_self, he⟩
          have hlt := hgt stop hmem
          omega
    · rw [List.find?_cons_of_neg he, ih hrest]
      have hmem : ∀ e', e' ∈ e :: ends ∧ accept e' = true ↔ e' ∈ ends ∧ accept e' = true := by
        intro e'
        refine and_congr_left fun haccept => ?_
        rw [List.mem_cons, or_iff_right]
        rintro rfl
        exact he haccept
      simp only [hmem]

/-- Where the literal at a position begins, but for its sign. -/
def bodyStart (text : Source) (pos : Nat) : Nat :=
  if text[pos]? == some '-' then pos + 1 else pos

/-- A literal without its sign may be read between the positions, with what is around it. -/
structure Accepts (text : Source) (p stop : Nat) : Prop where
  reads : Reads text unsigned p stop
  fresh : startsFresh text p
  ends : endsLiteral text stop = true

theorem startsFresh_of_zero (h : text[p]? = some '0') :
    startsFresh text p ↔ startsWord text p = true := by
  rw [startsFresh, h]
  exact ⟨fun hw => hw rfl, fun hw _ => hw⟩

theorem reads_decimal_ne (h : Reads text decimal p stop) : text[p]? ≠ some '0' := by
  intro hzero
  obtain ⟨q, h, -⟩ := Reads.mul_iff.mp h
  rcases Reads.add_iff.mp h with h | h
  · obtain ⟨q', h, -⟩ := Reads.mul_iff.mp h
    have hdigit := (reads_digits_iff.mp h).1
    rw [hzero] at hdigit
    revert hdigit
    decide
  · obtain ⟨q', h, -⟩ := Reads.mul_iff.mp h
    have hpoint := (Reads.char_iff.mp h).1
    rw [hzero] at hpoint
    cases hpoint

theorem reads_hexadecimal_iff : Reads text hexadecimal p stop ↔
    text[p]? = some '0' ∧ (text[p + 1]?).any (fun c => c == 'x' || c == 'X') = true ∧
      stop ∈ groupEnds text isHexDigit (p + 2) := by
  rw [hexadecimal, Reads.mul_iff, mem_groupEnds_iff hexDigit_underscore]
  simp only [Reads.char_iff, Reads.mul_iff, Reads.one_iff, and_assoc, exists_and_left,
    exists_eq_left]

theorem continuesWord_of_isX {c : Char} (h : (c == 'x' || c == 'X') = true) :
    continuesWord c = true := by
  simp only [Bool.or_eq_true, beq_iff_eq] at h
  rcases h with rfl | rfl <;> rfl

/-- Where an `x` follows a zero, only a hexadecimal literal may be read. -/
theorem accepts_hexadecimal_iff (hzero : text[p]? = some '0')
    (hx : (text[p + 1]?).any (fun c => c == 'x' || c == 'X') = true) :
    Accepts text p stop ↔ startsWord text p = true ∧
      stop ∈ groupEnds text isHexDigit (p + 2) ∧ endsLiteral text stop = true := by
  constructor
  · rintro ⟨hreads, hfresh, hends⟩
    refine ⟨(startsFresh_of_zero hzero).mp hfresh, ?_, hends⟩
    rcases Reads.add_iff.mp hreads with hreads | hreads
    · rcases Reads.add_iff.mp hreads with hreads | hreads
      · exact (reads_hexadecimal_iff.mp hreads).2.2
      · exact absurd hzero (reads_decimal_ne hreads)
    · -- the zero alone does not end where the `x` is
      obtain ⟨-, rfl⟩ := Reads.char_iff.mp hreads
      obtain ⟨c, hc, hx⟩ := (Option.any_eq_true _ _).mp hx
      rw [endsLiteral, hc, Option.any_some, continuesWord_of_isX hx] at hends
      cases hends
  · rintro ⟨hstarts, hmem, hends⟩
    refine ⟨Reads.add_iff.mpr (.inl (Reads.add_iff.mpr (.inl ?_))),
      (startsFresh_of_zero hzero).mpr hstarts, hends⟩
    exact reads_hexadecimal_iff.mpr ⟨hzero, hx, hmem⟩

theorem accepts_zero_iff (hzero : text[p]? = some '0')
    (hx : ¬ (text[p + 1]?).any (fun c => c == 'x' || c == 'X') = true) :
    Accepts text p stop ↔
      startsWord text p = true ∧ endsLiteral text (p + 1) = true ∧ stop = p + 1 := by
  constructor
  · rintro ⟨hreads, hfresh, hends⟩
    rcases Reads.add_iff.mp hreads with hreads | hreads
    · rcases Reads.add_iff.mp hreads with hreads | hreads
      · exact absurd (reads_hexadecimal_iff.mp hreads).2.1 hx
      · exact absurd hzero (reads_decimal_ne hreads)
    · obtain ⟨-, rfl⟩ := Reads.char_iff.mp hreads
      exact ⟨(startsFresh_of_zero hzero).mp hfresh, hends, rfl⟩
  · rintro ⟨hstarts, hends, rfl⟩
    exact ⟨Reads.add_iff.mpr (.inr (Reads.char_iff.mpr ⟨hzero, rfl⟩)),
      (startsFresh_of_zero hzero).mpr hstarts, hends⟩

theorem accepts_decimal_iff (hzero : text[p]? ≠ some '0') :
    Accepts text p stop ↔ stop ∈ decimalEnds text p ∧ endsLiteral text stop = true := by
  rw [mem_decimalEnds_iff]
  constructor
  · rintro ⟨hreads, hfresh, hends⟩
    rcases Reads.add_iff.mp hreads with hreads | hreads
    · rcases Reads.add_iff.mp hreads with hreads | hreads
      · exact absurd (reads_hexadecimal_iff.mp hreads).1 hzero
      · exact ⟨⟨hreads, hfresh⟩, hends⟩
    · exact absurd (Reads.char_iff.mp hreads).1 hzero
  · rintro ⟨⟨hreads, hfresh⟩, hends⟩
    exact ⟨Reads.add_iff.mpr (.inl (Reads.add_iff.mpr (.inr hreads))), hfresh, hends⟩

/-- What is found for the literal without its sign. -/
def bodyEnd? (text : Source) (p : Nat) : Option Nat :=
  hexEnd? text p <|> decimalEnd? text p <|> zeroEnd? text p

/-- **What is found is the longest that may be read.** -/
theorem bodyEnd?_eq_some_iff :
    bodyEnd? text p = some stop ↔
      Accepts text p stop ∧ ∀ e, Accepts text p e → e ≤ stop := by
  by_cases hzero : text[p]? = some '0'
  · have hdecimal : decimalEnd? text p = none := by
      rw [decimalEnd?_eq, List.find?_eq_none]
      intro q hq
      exact absurd hzero (reads_decimal_ne (mem_decimalEnds_iff.mp hq).1)
    by_cases hx : (text[p + 1]?).any (fun c => c == 'x' || c == 'X') = true
    · -- hexadecimal literals
      have hdescending : (groupEnds text isHexDigit (p + 2)).Pairwise (· > ·) :=
        (goesOn_groupEnds _).imp fun h => h.1
      have hnone : zeroEnd? text p = none := by
        obtain ⟨c, hc, hx⟩ := (Option.any_eq_true _ _).mp hx
        rw [zeroEnd?, if_neg]
        simp [endsLiteral, hc, continuesWord_of_isX hx]
      simp only [accepts_hexadecimal_iff hzero hx]
      rw [bodyEnd?, hdecimal, hnone, hexEnd?, hzero, hx]
      by_cases hstarts : startsWord text p = true
      · simp only [hstarts, true_and, Bool.and_self, beq_self_eq_true, if_true]
        rw [← find?_eq_some_iff_of_descending hdescending]
        simp [Option.orElse_eq_orElse]
      · simp [hstarts]
    · -- a zero alone
      simp only [accepts_zero_iff hzero hx]
      rw [bodyEnd?, hdecimal, hexEnd?, if_neg (by simp [hx]), zeroEnd?, hzero]
      simp only [Option.orElse_eq_orElse, Option.orElse_eq_or, Option.none_or, beq_self_eq_true,
        Bool.true_and]
      split
      · next h =>
        rw [Bool.and_eq_true] at h
        simp only [h.1, h.2, true_and, Option.some.injEq]
        constructor
        · rintro rfl
          exact ⟨rfl, fun e he => Nat.le_of_eq he⟩
        · rintro ⟨rfl, -⟩
          rfl
      · next h =>
        rw [Bool.and_eq_true] at h
        simp only [reduceCtorEq, false_iff]
        rintro ⟨⟨h1, h2, -⟩, -⟩
        exact h ⟨h1, h2⟩
  · -- decimals
    simp only [accepts_decimal_iff hzero]
    have hhex : hexEnd? text p = none := by
      rw [hexEnd?, if_neg]
      simp [hzero]
    have hnone : zeroEnd? text p = none := by
      rw [zeroEnd?, if_neg]
      simp [hzero]
    rw [bodyEnd?, hhex, hnone, decimalEnd?_eq,
      ← find?_eq_some_iff_of_descending (descending_decimalEnds p)]
    simp [Option.orElse_eq_orElse]

/-- **The literal at a position is the longest one that may be read there.** -/
theorem matchAt?_eq_some_iff :
    matchAt? text pos = some stop ↔
      Accepts text (bodyStart text pos) stop ∧
        ∀ e, Accepts text (bodyStart text pos) e → e ≤ stop :=
  bodyEnd?_eq_some_iff

/-! ### The text as a whole -/

theorem endsLiteral_size (text : Source) : endsLiteral text text.size = true := by
  rw [endsLiteral, Array.getElem?_eq_none (Nat.le_refl _)]
  rfl

theorem chars_all (text : Source) : text.chars ⟨0, text.size⟩ = text.toList := by
  rw [Source.chars, Array.extract_size]

theorem startsUnsigned_of_reads (h : Reads text unsigned p stop) :
    (text[p]?).any startsUnsigned = true := by
  have hnonzero : (text[p]?).any isNonzeroDigit = true → (text[p]?).any startsUnsigned = true := by
    intro hdigit
    obtain ⟨c, hc, hdigit⟩ := (Option.any_eq_true _ _).mp (any_isAsciiDigit_of_nonzero hdigit)
    rw [hc, Option.any_some, startsUnsigned, hdigit, Bool.true_or]
  rcases Reads.add_iff.mp h with h | h
  · rcases Reads.add_iff.mp h with h | h
    · rw [(reads_hexadecimal_iff.mp h).1]
      rfl
    · obtain ⟨q, h, -⟩ := Reads.mul_iff.mp h
      rcases Reads.add_iff.mp h with h | h
      · obtain ⟨q', h, -⟩ := Reads.mul_iff.mp h
        exact hnonzero (reads_digits_iff.mp h).1
      · obtain ⟨q', h, -⟩ := Reads.mul_iff.mp h
        rw [(Reads.char_iff.mp h).1]
        rfl
  · rw [(Reads.char_iff.mp h).1]
    rfl

/-- **A text is all one literal if and only if it is a word of the language.** -/
theorem matchAt?_zero_eq_size_iff :
    matchAt? text 0 = some text.size ↔ text.toList ∈ literal := by
  have hgreatest : ∀ e, Accepts text (bodyStart text 0) e → e ≤ text.size :=
    fun e he => he.reads.le_size
  have hfresh : startsFresh text (bodyStart text 0) := by
    intro _
    rw [bodyStart, startsWord]
    split
    · next hminus =>
      rw [beq_iff_eq] at hminus
      simp [Source.before?, hminus, continuesWord, CharClass.isAsciiWord, CharClass.isAsciiLetter,
        isAsciiDigit]
    · rfl
  have hreads : text.toList ∈ literal ↔ Reads text literal 0 text.size := by
    rw [← chars_all]
    exact ⟨fun h => ⟨Nat.zero_le _, Nat.le_refl _, h⟩, fun h => h.mem⟩
  rw [matchAt?_eq_some_iff, and_iff_left hgreatest, hreads, literal, Reads.mul_iff]
  constructor
  · rintro ⟨hbody, -, -⟩
    rw [bodyStart] at hbody
    split at hbody
    · next hminus =>
      rw [beq_iff_eq] at hminus
      exact ⟨1, Reads.optional_iff.mpr (.inr (Reads.char_iff.mpr ⟨hminus, rfl⟩)), hbody⟩
    · exact ⟨0, Reads.optional_iff.mpr (.inl ⟨rfl, Nat.zero_le _⟩), hbody⟩
  · rintro ⟨q, hsign, hbody⟩
    refine ⟨?_, hfresh, endsLiteral_size text⟩
    rw [bodyStart]
    rcases Reads.optional_iff.mp hsign with ⟨rfl, -⟩ | hsign
    · -- no literal but for its sign starts with one
      have hplus : text[0]? ≠ some '-' := by
        intro hminus
        have hstarts := startsUnsigned_of_reads hbody
        rw [hminus] at hstarts
        cases hstarts
      rw [if_neg (by simpa using hplus)]
      exact hbody
    · obtain ⟨hminus, rfl⟩ := Reads.char_iff.mp hsign
      rw [if_pos (by rw [hminus]; rfl)]
      exact hbody

end Highlighting.NumberLiteral
