/-
  Highlighting/Proofs/NumberLiteral/Backtracking.lean
  ===================================================
  **Literals are found as a backtracking search finds them.**

  What a literal is can be written as a regular expression (`written`).  For an
  expression the list of ends is in the order in which they are tried: longer
  repetitions first, alternatives from left to right (`Regex.ends`).  The
  candidates that are listed by hand are in that order too, piece by piece: digit
  groups in either way of writing them (`iterations_moreDigits`,
  `flatMap_iterations_closed`), exponents, fractions and what they make up.  So
  the literal at a position is the first end that what is around it permits
  (`matchAt?_eq_find?`).

  That it is the longest one as well (`matchAt?_eq_some_iff`) shows that the two
  ways to choose agree for this expression, which they do not for all.
-/
import Highlighting.Proofs.NumberLiteral.Bytes
import Highlighting.Proofs.Pattern.Words

namespace Highlighting.NumberLiteral

open CharClass (isAsciiDigit isHexDigit)

variable {text : Source} {digit kind : Char → Bool} {s : CharSet} {r : Regex} {p q pos stop : Nat}

/-! ### The expression -/

/-- What a literal is, but for the conditions on what is around it. -/
def written : String :=
  "-?(0[xX]([0-9a-fA-F]_?)*[0-9a-fA-F]|" ++
    "([1-9](_?[0-9])*(\\.(([0-9]_?)*[0-9])?)?|\\.[0-9](_?[0-9])*)([eE][-+]?[0-9](_?[0-9])*)?|" ++
    "0)"

def decimalSet : CharSet := .range '0' '9'

def hexSet : CharSet := .union decimalSet (.union (.range 'A' 'F') (.range 'a' 'f'))

/-- The expression, or nothing. -/
def maybe (r : Regex) : Regex := .rep true 0 (some 1) r

/-- A digit with an underscore that may be in front of it. -/
def nextDigit (s : CharSet) : Regex := .seq (maybe (.char '_')) (.set s)

/-- A digit with an underscore that may be behind it. -/
def digitAhead (s : CharSet) : Regex := .seq (.set s) (maybe (.char '_'))

/-- Any number of further digits. -/
def moreRegex (index : Nat) (s : CharSet) : Regex := .rep true 0 none (.group index (nextDigit s))

/-- A group of digits that is written from its end. -/
def closedRegex (index : Nat) (s : CharSet) : Regex :=
  .seq (.rep true 0 none (.group index (digitAhead s))) (.set s)

def hexRegex : Regex :=
  .seq (.char '0') (.seq (.set (.union (.single 'X') (.single 'x'))) (closedRegex 2 hexSet))

def fractionRegex : Regex :=
  .group 5 (.seq (.char '.') (maybe (.group 6 (closedRegex 7 decimalSet))))

def mantissaRegex : Regex :=
  .alt (.seq (.set (.range '1' '9')) (.seq (moreRegex 4 decimalSet) (maybe fractionRegex)))
    (.seq (.char '.') (.seq (.set decimalSet) (moreRegex 8 decimalSet)))

def exponentRegex : Regex :=
  .seq (.set (.union (.single 'E') (.single 'e')))
    (.seq (maybe (.set (.union (.single '+') (.single '-'))))
      (.seq (.set decimalSet) (moreRegex 10 decimalSet)))

def unsignedRegex : Regex :=
  .alt hexRegex (.alt (.seq (.group 3 mantissaRegex) (maybe (.group 9 exponentRegex))) (.char '0'))

def literalRegex : Regex := .seq (maybe (.char '-')) (.group 1 unsignedRegex)

theorem parse?_written : Regex.parse? written.toList = some literalRegex := by
  decide +kernel

/-! ### Characters -/

theorem contains_either (c d e : Char) :
    (CharSet.union (.single c) (.single d)).contains e = (e == d || e == c) := by
  rw [CharSet.contains, CharSet.contains_single_eq, CharSet.contains_single_eq, Bool.or_comm]

theorem contains_decimalSet (c : Char) : decimalSet.contains c = isAsciiDigit c := rfl

theorem contains_hexSet (c : Char) : hexSet.contains c = isHexDigit c := by
  simp only [hexSet, decimalSet, CharSet.contains, isHexDigit, isAsciiDigit]
  rw [Bool.or_assoc, Bool.or_comm (decide ('A' ≤ c) && decide (c ≤ 'F'))]

theorem contains_nonzero (c : Char) : (CharSet.range '1' '9').contains c = isNonzeroDigit c := by
  have hfirst : '1' ≤ c ↔ '0' ≤ c ∧ c ≠ '0' := by
    have hone : ('1' : Char).val.toNat = 49 := rfl
    have hzero : ('0' : Char).val.toNat = 48 := rfl
    simp only [Char.le_def, UInt32.le_iff_toNat_le, ne_eq, Char.ext_iff, UInt32.toNat_inj.symm,
      hone, hzero]
    omega
  rw [Bool.eq_iff_iff]
  simp only [CharSet.contains, isNonzeroDigit, isAsciiDigit, Bool.and_eq_true, decide_eq_true_eq,
    bne_iff_ne, hfirst]
  tauto

theorem ends_set (hs : ∀ c, s.contains c = kind c) (pos : Nat) :
    (Regex.set s).ends text pos = if (text[pos]?).any kind then [pos + 1] else [] := by
  rw [Regex.ends]
  cases text[pos]? with
  | none => rfl
  | some c => simp only [hs, Option.any_some]

theorem ends_char (c : Char) (pos : Nat) :
    (Regex.char c).ends text pos = if text[pos]? == some c then [pos + 1] else [] := by
  rw [Regex.char, ends_set (CharSet.contains_single_eq c)]
  cases text[pos]? with
  | none => rfl
  | some d => rfl

/-- What may be left out is taken before it is left out. -/
theorem ends_maybe (h : ∀ q ∈ r.ends text pos, pos < q) :
    (maybe r).ends text pos = r.ends text pos ++ [pos] := by
  have hfold : ∀ qs : List Nat, (∀ q ∈ qs, pos < q) →
      qs.foldr (fun q later => if pos < q then q :: later else later) [pos] = qs ++ [pos] := by
    intro qs hqs
    induction qs with
    | nil => rfl
    | cons q qs ih =>
      rw [List.foldr_cons, ih fun q' hq' => hqs q' (List.mem_cons_of_mem _ hq'),
        if_pos (hqs q List.mem_cons_self)]
      rfl
  rw [maybe, Regex.ends, Regex.times, List.flatMap_singleton]
  exact hfold _ h

theorem ends_maybe_set (hs : ∀ c, s.contains c = kind c) (pos : Nat) :
    (maybe (.set s)).ends text pos = if (text[pos]?).any kind then [pos + 1, pos] else [pos] := by
  rw [ends_maybe, ends_set hs]
  · split
    · rfl
    · rfl
  · intro q hq
    rw [ends_set hs] at hq
    split at hq
    · rw [List.mem_singleton] at hq
      omega
    · cases hq

/-! ### Digit groups -/

/-- A further digit ends one character on, or two when an underscore is in front of it. -/
theorem ends_nextDigit (hs : ∀ c, s.contains c = digit c) (hdigit : digit '_' = false) (pos : Nat) :
    (nextDigit s).ends text pos =
      if (text[pos]?).any digit then [pos + 1]
      else if text[pos]? == some '_' && (text[pos + 1]?).any digit then [pos + 2] else [] := by
  have hunderscore : (text[pos]? == some '_') = (text[pos]?).any (· == '_') := by
    cases text[pos]? <;> rfl
  rw [nextDigit, Regex.ends, Regex.char, ends_maybe_set (CharSet.contains_single_eq '_'),
    hunderscore]
  by_cases hu : (text[pos]?).any (· == '_') = true
  · have hd : (text[pos]?).any digit = false := by
      obtain ⟨c, hc, hu⟩ := (Option.any_eq_true _ _).mp hu
      rw [hc, Option.any_some, beq_iff_eq.mp hu, hdigit]
    rw [if_pos hu, List.flatMap_cons, List.flatMap_singleton, ends_set hs, ends_set hs, hd, hu]
    simp
  · rw [if_neg hu, List.flatMap_singleton, ends_set hs, Bool.not_eq_true _ |>.mp hu]
    simp

theorem iterations_moreDigits (hs : ∀ c, s.contains c = digit c) (hdigit : digit '_' = false)
    (n pos : Nat) (later : List Nat) :
    Regex.iterations true ((nextDigit s).ends text) n pos later =
      groupEndsFrom text digit n pos later := by
  induction n generalizing pos later with
  | zero => rfl
  | succ n ih =>
    rw [Regex.iterations, groupEndsFrom, ends_nextDigit hs hdigit, if_pos rfl]
    split
    · simp [ih]
    · split
      · simp [ih]
      · rfl

/-- **Digits that are written from the first one on.** -/
theorem ends_digits {first : CharSet} (hfirst : ∀ c, first.contains c = kind c)
    (hs : ∀ c, s.contains c = digit c) (hdigit : digit '_' = false) (index : Nat)
    (hkind : ∀ c, kind c = true → digit c = true) (pos : Nat) :
    (Regex.seq (.set first) (moreRegex index s)).ends text pos =
      if (text[pos]?).any kind then groupEnds text digit pos else [] := by
  rw [Regex.ends, ends_set hfirst]
  split
  · next h =>
    have hd : (text[pos]?).any digit = true := by
      obtain ⟨c, hc, h⟩ := (Option.any_eq_true _ _).mp h
      rw [hc, Option.any_some, hkind c h]
    have hlimit : text.size + 1 - (pos + 1) = text.size - pos := Nat.add_sub_add_right _ _ _
    rw [List.flatMap_singleton, moreRegex, Regex.ends, Regex.times, List.flatMap_singleton,
      groupEnds, if_pos hd]
    show Regex.iterations true ((nextDigit s).ends text) (text.size + 1 - (pos + 1)) (pos + 1) [] =
      _
    rw [hlimit, iterations_moreDigits hs hdigit]
  · rfl

theorem ends_group (hs : ∀ c, s.contains c = digit c) (hdigit : digit '_' = false)
    (index pos : Nat) :
    (Regex.seq (.set s) (moreRegex index s)).ends text pos = groupEnds text digit pos := by
  rw [ends_digits hs hs hdigit index (fun _ h => h)]
  split
  · rfl
  · next h => rw [groupEnds, if_neg h]

theorem ends_digitAhead (hs : ∀ c, s.contains c = digit c) (pos : Nat) :
    (digitAhead s).ends text pos =
      if (text[pos]?).any digit then
        if text[pos + 1]? == some '_' then [pos + 2, pos + 1] else [pos + 1]
      else [] := by
  have hunderscore : (text[pos + 1]? == some '_') = (text[pos + 1]?).any (· == '_') := by
    cases text[pos + 1]? <;> rfl
  rw [digitAhead, Regex.ends, ends_set hs, hunderscore]
  split
  · rw [List.flatMap_singleton, Regex.char, ends_maybe_set (CharSet.contains_single_eq '_')]
  · rfl

theorem iterations_append {step : Nat → List Nat} (n pos : Nat) (later : List Nat) :
    Regex.iterations true step n pos later = Regex.iterations true step n pos [] ++ later := by
  induction n generalizing pos later with
  | zero => rfl
  | succ n ih =>
    have hfold : ∀ (qs later later' : List Nat),
        qs.foldr (fun q l => if pos < q then Regex.iterations true step n q l else l)
            (later ++ later') =
          qs.foldr (fun q l => if pos < q then Regex.iterations true step n q l else l) later ++
            later' := by
      intro qs later later'
      induction qs with
      | nil => rfl
      | cons q qs ihq =>
        rw [List.foldr_cons, List.foldr_cons, ihq]
        split
        · rw [ih q (_ ++ later'), ih q (List.foldr _ _ _), List.append_assoc]
        · rfl
    rw [Regex.iterations, Regex.iterations]
    exact hfold (step pos) [pos] later

/-- Where no digit is, no further one is taken. -/
theorem iterations_of_none (hs : ∀ c, s.contains c = digit c)
    (hnone : (text[pos]?).any digit = false) (n : Nat) (later : List Nat) :
    Regex.iterations true ((digitAhead s).ends text) n pos later = pos :: later := by
  cases n with
  | zero => rfl
  | succ n =>
    rw [Regex.iterations, ends_digitAhead hs, hnone]
    rfl

/-- **Digits that are written from the last one on**: what the further digits end with is where a
group that starts with the first one ends. -/
theorem flatMap_iterations_closed (hs : ∀ c, s.contains c = digit c) (hdigit : digit '_' = false)
    {n : Nat} (hn : text.size ≤ pos + n) :
    (Regex.iterations true ((digitAhead s).ends text) (n + 1) pos []).flatMap
        ((Regex.set s).ends text) =
      if (text[pos]?).any digit then groupEndsFrom text digit n (pos + 1) [] else [] := by
  by_cases hd : (text[pos]?).any digit = true
  · have hlt : pos < text.size := lt_size_of_any hd
    induction n generalizing pos with
    | zero => omega
    | succ n ih =>
      -- what comes of the further digits from the next one on, if one is there
      have hrest : ∀ q, pos < q →
          (Regex.iterations true ((digitAhead s).ends text) (n + 1) q []).flatMap
              ((Regex.set s).ends text) =
            if (text[q]?).any digit then groupEndsFrom text digit n (q + 1) [] else [] := by
        intro q hq
        by_cases hdq : (text[q]?).any digit = true
        · exact ih (by omega) hdq (lt_size_of_any hdq)
        · rw [iterations_of_none hs (Bool.not_eq_true _ |>.mp hdq), List.flatMap_singleton,
            ends_set hs, if_neg hdq, if_neg hdq]
      rw [Regex.iterations, ends_digitAhead hs, if_pos rfl, if_pos hd, if_pos hd, groupEndsFrom]
      by_cases hu : (text[pos + 1]? == some '_') = true
      · -- the underscore may be left out, but then no digit follows
        have hnone : (text[pos + 1]?).any digit = false := by
          rw [beq_iff_eq.mp hu, Option.any_some, hdigit]
        rw [if_pos hu, hu, hnone]
        simp only [List.foldr_cons, List.foldr_nil, Nat.lt_succ_self, if_true,
          iterations_of_none hs hnone, Nat.lt_add_of_pos_right (Nat.succ_pos 1), Bool.true_and,
          Bool.false_eq_true, if_false]
        rw [iterations_append, List.flatMap_append, hrest (pos + 2) (by omega), List.flatMap_cons,
          List.flatMap_singleton, ends_set hs, ends_set hs, hnone, hd]
        split
        · rw [groupEndsFrom_append _ _ [pos + 1]]
          rfl
        · rfl
      · rw [if_neg hu, Bool.not_eq_true _ |>.mp hu]
        simp only [List.foldr_cons, List.foldr_nil, Nat.lt_succ_self, if_true, Bool.false_and,
          Bool.false_eq_true, if_false]
        rw [iterations_append, List.flatMap_append, hrest (pos + 1) (by omega),
          List.flatMap_singleton, ends_set hs, if_pos hd]
        split
        · rw [groupEndsFrom_append _ _ [pos + 1]]
        · rfl
  · rw [iterations_of_none hs (Bool.not_eq_true _ |>.mp hd), List.flatMap_singleton, ends_set hs,
      if_neg hd, if_neg hd]

theorem ends_closedRegex (hs : ∀ c, s.contains c = digit c) (hdigit : digit '_' = false)
    (index pos : Nat) : (closedRegex index s).ends text pos = groupEnds text digit pos := by
  rw [closedRegex, Regex.ends, Regex.ends, Regex.times, List.flatMap_singleton, groupEnds]
  show (Regex.iterations true ((digitAhead s).ends text) (text.size + 1 - pos) pos []).flatMap _ = _
  by_cases hd : (text[pos]?).any digit = true
  · have hlt : pos < text.size := lt_size_of_any hd
    rw [Nat.succ_sub (Nat.le_of_lt hlt), flatMap_iterations_closed hs hdigit (by omega)]
  · rw [iterations_of_none hs (Bool.not_eq_true _ |>.mp hd), List.flatMap_singleton, ends_set hs]
    rw [if_neg hd, if_neg hd]

/-! ### Literals -/

theorem ends_hexRegex (pos : Nat) :
    hexRegex.ends text pos =
      if text[pos]? == some '0' && (text[pos + 1]?).any (fun c => c == 'x' || c == 'X') then
        groupEnds text isHexDigit (pos + 2)
      else [] := by
  rw [hexRegex, Regex.ends, ends_char]
  by_cases hzero : (text[pos]? == some '0') = true
  · rw [if_pos hzero, hzero, List.flatMap_singleton, Regex.ends, ends_set (contains_either 'X' 'x')]
    rw [Bool.true_and]
    split
    · rw [List.flatMap_singleton, ends_closedRegex contains_hexSet hexDigit_underscore]
    · rfl
  · rw [if_neg hzero, Bool.not_eq_true _ |>.mp hzero]
    rfl

theorem ends_fraction (pos : Nat) :
    (maybe fractionRegex).ends text pos = fractionEnds text pos := by
  have hgroup : ∀ q, (Regex.group 6 (closedRegex 7 decimalSet)).ends text q =
      groupEnds text isAsciiDigit q := by
    intro q
    rw [Regex.ends, ends_closedRegex contains_decimalSet digit_underscore]
  have hends : ∀ q, fractionRegex.ends text q =
      if text[q]? == some '.' then groupEnds text isAsciiDigit (q + 1) ++ [q + 1] else [] := by
    intro q
    rw [fractionRegex, Regex.ends, Regex.ends, ends_char]
    split
    · rw [List.flatMap_singleton, ends_maybe, hgroup]
      intro q' hq'
      rw [hgroup] at hq'
      exact (mem_groupEnds hq').1
    · rfl
  rw [ends_maybe, hends, fractionEnds]
  · split
    · rw [List.append_assoc]
      rfl
    · rfl
  · intro q hq
    rw [hends] at hq
    split at hq
    · rcases List.mem_append.mp hq with hq | hq
      · exact Nat.lt_of_succ_lt (mem_groupEnds hq).1
      · rw [List.mem_singleton] at hq
        omega
    · cases hq

/-- The ends of a mantissa wherever it starts, in the middle of a word too. -/
def looseMantissaEnds (text : Source) (pos : Nat) : List Nat :=
  (if (text[pos]?).any isNonzeroDigit then
    (groupEnds text isAsciiDigit pos).flatMap (fractionEnds text) else []) ++
  if text[pos]? == some '.' then groupEnds text isAsciiDigit (pos + 1) else []

theorem ends_seq_assoc (a b c : Regex) (pos : Nat) :
    (Regex.seq a (.seq b c)).ends text pos = (Regex.seq (.seq a b) c).ends text pos := by
  simp only [Regex.ends, List.flatMap_assoc]

theorem ends_mantissaRegex (pos : Nat) :
    mantissaRegex.ends text pos = looseMantissaEnds text pos := by
  have hnonzero : ∀ c, isNonzeroDigit c = true → isAsciiDigit c = true := by
    intro c h
    rw [isNonzeroDigit, Bool.and_eq_true] at h
    exact h.1
  have hinteger : (Regex.seq (.set (.range '1' '9'))
      (.seq (moreRegex 4 decimalSet) (maybe fractionRegex))).ends text pos =
      if (text[pos]?).any isNonzeroDigit then
        (groupEnds text isAsciiDigit pos).flatMap (fractionEnds text) else [] := by
    rw [ends_seq_assoc, Regex.ends,
      ends_digits contains_nonzero contains_decimalSet digit_underscore 4 hnonzero,
      funext ends_fraction]
    split
    · rfl
    · rfl
  have hpoint : (Regex.seq (.char '.') (.seq (.set decimalSet) (moreRegex 8 decimalSet))).ends
      text pos = if text[pos]? == some '.' then groupEnds text isAsciiDigit (pos + 1) else [] := by
    rw [Regex.ends, ends_char]
    split
    · rw [List.flatMap_singleton, ends_group contains_decimalSet digit_underscore]
    · rfl
  rw [mantissaRegex, Regex.ends, hinteger, hpoint, looseMantissaEnds]

theorem ends_exponentRegex (pos : Nat) : exponentRegex.ends text pos = exponentEnds text pos := by
  rw [exponentRegex, Regex.ends, ends_set (contains_either 'E' 'e'), exponentEnds]
  split
  · rw [List.flatMap_singleton, Regex.ends, ends_maybe_set (contains_either '+' '-')]
    split
    · next hsign =>
      -- a sign is no digit
      have hnone : groupEnds text isAsciiDigit (pos + 1) = [] := by
        obtain ⟨c, hc, hsign⟩ := (Option.any_eq_true _ _).mp hsign
        simp only [Bool.or_eq_true, beq_iff_eq] at hsign
        rw [groupEnds, hc]
        rcases hsign with rfl | rfl
        · rfl
        · rfl
      rw [List.flatMap_cons, List.flatMap_singleton,
        ends_group contains_decimalSet digit_underscore,
        ends_group contains_decimalSet digit_underscore, hnone, List.append_nil]
    · rw [List.flatMap_singleton, ends_group contains_decimalSet digit_underscore]
  · rfl

theorem ends_decimal (pos : Nat) :
    (Regex.seq (.group 3 mantissaRegex) (maybe (.group 9 exponentRegex))).ends text pos =
      (looseMantissaEnds text pos).flatMap fun q => exponentEnds text q ++ [q] := by
  have hexponent : ∀ q, (maybe (.group 9 exponentRegex)).ends text q =
      exponentEnds text q ++ [q] := by
    intro q
    have hends : (Regex.group 9 exponentRegex).ends text q = exponentEnds text q :=
      ends_exponentRegex q
    rw [ends_maybe, hends]
    intro q' hq'
    rw [hends] at hq'
    exact (mem_exponentEnds hq').1
  rw [Regex.ends, Regex.ends, ends_mantissaRegex, funext hexponent]

/-! ### The first end that is permitted -/

instance (text : Source) (p : Nat) : Decidable (startsFresh text p) :=
  inferInstanceAs (Decidable (_ → _))

/-- Where a mantissa may start, its ends are the candidates. -/
theorem mantissaEnds_eq (hfresh : startsFresh text pos) :
    mantissaEnds text pos = looseMantissaEnds text pos := by
  have hfirst : (fun c => isAsciiDigit c && c != '0') = isNonzeroDigit := rfl
  rw [mantissaEnds, hfirst, looseMantissaEnds]
  by_cases hd : (text[pos]?).any isNonzeroDigit = true
  · have hword : startsWord text pos = true := hfresh (any_isAsciiDigit_of_nonzero hd)
    have hpoint : ¬ (text[pos]? == some '.') = true := by
      intro hpoint
      rw [beq_iff_eq.mp hpoint] at hd
      cases hd
    rw [hd, hword, Bool.and_true, if_pos rfl, if_pos rfl, if_neg hpoint, List.append_nil]
    rfl
  · rw [Bool.not_eq_true _ |>.mp hd, Bool.false_and]
    rfl

theorem hexEnd?_eq (hfresh : startsFresh text pos) :
    hexEnd? text pos = (hexRegex.ends text pos).find? (endsLiteral text) := by
  rw [hexEnd?, ends_hexRegex]
  by_cases hzero : text[pos]? = some '0'
  · rw [(startsFresh_of_zero hzero).mp hfresh, Bool.and_true]
    split
    · rfl
    · rfl
  · simp [hzero]

theorem zeroEnd?_eq (hfresh : startsFresh text pos) :
    zeroEnd? text pos = ((Regex.char '0').ends text pos).find? (endsLiteral text) := by
  rw [zeroEnd?, ends_char]
  by_cases hzero : text[pos]? = some '0'
  · rw [(startsFresh_of_zero hzero).mp hfresh, hzero, Bool.and_true]
    cases hends : endsLiteral text (pos + 1) with
    | true => simp [hends]
    | false => simp [hends]
  · simp [hzero]

/-- In the middle of a word no literal starts with a digit. -/
theorem bodyEnd?_eq_none (hfresh : ¬ startsFresh text pos) : bodyEnd? text pos = none := by
  cases hbody : bodyEnd? text pos with
  | none => rfl
  | some stop => exact absurd (bodyEnd?_eq_some_iff.mp hbody).1.fresh hfresh

theorem bodyEnd?_eq_find? (pos : Nat) :
    bodyEnd? text pos =
      (unsignedRegex.ends text pos).find? fun stop =>
        decide (startsFresh text pos) && endsLiteral text stop := by
  by_cases hfresh : startsFresh text pos
  · simp only [hfresh, decide_true, Bool.true_and]
    rw [unsignedRegex, Regex.ends, Regex.ends, List.find?_append, List.find?_append, ends_decimal,
      bodyEnd?, hexEnd?_eq hfresh, zeroEnd?_eq hfresh, decimalEnd?_eq, decimalEnds,
      mantissaEnds_eq hfresh]
    simp only [Option.orElse_eq_orElse, Option.orElse_eq_or]
  · simp only [hfresh, decide_false, Bool.false_and]
    rw [bodyEnd?_eq_none hfresh, eq_comm, List.find?_eq_none]
    intro stop _
    exact Bool.false_ne_true

/-- What is tried without the sign comes to nothing where there is one. -/
theorem ends_literalRegex (pos : Nat) :
    literalRegex.ends text pos = unsignedRegex.ends text (bodyStart text pos) := by
  have hbody : ∀ q, (Regex.group 1 unsignedRegex).ends text q = unsignedRegex.ends text q :=
    fun _ => rfl
  rw [literalRegex, Regex.ends, Regex.char, ends_maybe_set (CharSet.contains_single_eq '-'),
    bodyStart,
    funext hbody]
  by_cases hminus : text[pos]? = some '-'
  · have hnone : unsignedRegex.ends text pos = [] := by
      rw [unsignedRegex, Regex.ends, Regex.ends, ends_hexRegex, ends_decimal, ends_char,
        looseMantissaEnds, hminus]
      rfl
    rw [hminus, if_pos (by rfl), if_pos (by rfl), List.flatMap_cons, List.flatMap_singleton, hnone,
      List.append_nil]
  · have hnot : ¬ (text[pos]?).any (· == '-') = true := by
      intro h
      obtain ⟨c, hc, h⟩ := (Option.any_eq_true _ _).mp h
      rw [hc, beq_iff_eq.mp h] at hminus
      exact hminus rfl
    rw [if_neg hnot, if_neg (by simpa using hminus), List.flatMap_singleton]

/-- **The literal at a position is the first end, in the order in which they are tried, that what
is around it permits.** -/
theorem matchAt?_eq_find? (pos : Nat) :
    matchAt? text pos =
      (literalRegex.ends text pos).find? fun stop =>
        decide (startsFresh text (bodyStart text pos)) && endsLiteral text stop := by
  rw [ends_literalRegex, ← bodyEnd?_eq_find?]
  rfl

/-! ### Searches -/

theorem find_eq_some_iff {span : Span} :
    NumberLiteral.find text pos = some span ↔ pos ≤ span.start ∧
      matchAt? text span.start = some span.stop ∧
      ∀ q, pos ≤ q → q < span.start → matchAt? text q = none := by
  rw [find_eq_ofEnds, Search.ofEnds_eq_some_iff]
  constructor
  · rintro ⟨hpos, -, hfound, hfirst⟩
    exact ⟨hpos, hfound, hfirst⟩
  · rintro ⟨hpos, hfound, hfirst⟩
    have hstop := within_of_matchAt? hfound
    exact ⟨hpos, by omega, hfound, hfirst⟩

theorem find_eq_none_iff :
    NumberLiteral.find text pos = none ↔ ∀ q, pos ≤ q → matchAt? text q = none := by
  rw [find_eq_ofEnds, Search.ofEnds_eq_none_iff]
  constructor
  · intro hnone q hq
    rcases Nat.le_total q text.size with hsize | hsize
    · exact hnone q hq hsize
    · exact matchAt?_of_size_le hsize
  · intro hnone q hq _
    exact hnone q hq

/-- **The literal at a position is the longest that may be read there**, and the first that a
backtracking search for `written` comes to which what is around it permits.  A search finds the
literal that begins first.  All this is so for any characters whatever, and it makes no difference
whether a text is read by its characters or by its bytes. -/
theorem literals_are_longest_and_tried_first (text : Source) (pos : Nat) :
    (∀ stop, matchAt? text pos = some stop ↔
      Accepts text (bodyStart text pos) stop ∧
        ∀ e, Accepts text (bodyStart text pos) e → e ≤ stop) ∧
    (matchAt? text pos = none ↔ ∀ e, ¬ Accepts text (bodyStart text pos) e) ∧
    Regex.parse? written.toList = some literalRegex ∧
    matchAt? text pos = (literalRegex.ends text pos).find? (fun stop =>
      decide (startsFresh text (bodyStart text pos)) && endsLiteral text stop) ∧
    (∀ span, NumberLiteral.find text pos = some span ↔ pos ≤ span.start ∧
      matchAt? text span.start = some span.stop ∧
      ∀ q, pos ≤ q → q < span.start → matchAt? text q = none) ∧
    (NumberLiteral.find text pos = none ↔ ∀ q, pos ≤ q → matchAt? text q = none) ∧
    matchAt? text.bytes (text.byteOffset pos) = (matchAt? text pos).map text.byteOffset :=
  ⟨fun _ => matchAt?_eq_some_iff, matchAt?_eq_none_iff, parse?_written, matchAt?_eq_find? pos,
    fun _ => find_eq_some_iff, find_eq_none_iff, matchAt?_bytes text pos⟩

end Highlighting.NumberLiteral
