/-
  Highlighting/Proofs/Pattern/Literals.lean
  =========================================
  **The patterns of literals**, and the languages of what they are to match.

  A literal is set off when only blanks stand around it (`Source.SetOff`).  Its
  pattern matches it there as in a text of its own: no condition of it sees
  whether there is a blank in front (`Pattern.endAt?_behind`), and what is
  behind, it does not get to.  For a string of hexadecimal bytes and a number,
  the end of the match is the end of the literal (`endAt?_hexQuoted`,
  `endAt?_number_of_literal`); strings with escapes and comments are regions, of
  which only the opening is matched (`endAt?_opening`).
-/
import Highlighting.Proofs.Pattern.Words
import Highlighting.Proofs.Regex.Normal

namespace Highlighting

open NumberLiteral (Reads one char optional breaks)
open Regex (edge)
open Search
open scoped Computability

variable {text front s rest u v : Source} {p q e stop : Nat} {c : Char} {l m : Language Char}

/-! ### Blanks -/

namespace Source

/-- The characters that stand between tokens. -/
def blanks : List Char := [' ', '\t', '\n']

/-- Nothing but a blank stands next to what is between the two. -/
structure SetOff (front rest : Source) : Prop where
  front : front = #[] ∨ ∃ c ∈ blanks, front.EndsWith c
  rest : rest = #[] ∨ ∃ c ∈ blanks, rest[0]? = some c

theorem breaks_of_mem_blanks : ∀ c ∈ blanks, breaks c = true :=
  List.all_eq_true.mp (by decide)

end Source

open Source (blanks SetOff)

namespace Pattern

/-- The pattern sees no blank in front of its match. -/
def isLoose (pattern : Pattern) : Bool := pattern.isListed && blanks.all pattern.mayFollow

/-- **Behind a blank, a pattern matches what it matches in the rest alone.** -/
theorem endAt?_behind {pattern : Pattern} (hloose : pattern.isLoose = true)
    (hfront : front = #[] ∨ ∃ c ∈ blanks, front.EndsWith c) (text : Source) (p : Nat) :
    endAt? (pattern.find (front ++ text) ·) (front.size + p) =
      (endAt? (pattern.find text ·) p).map (front.size + ·) := by
  rw [isLoose, Bool.and_eq_true, List.all_eq_true] at hloose
  rcases hfront with rfl | ⟨c, hc, hend⟩
  · rw [Array.empty_append]
    simp
  · exact endAt?_append_add hend hloose.1 (hloose.2 c hc) p

/-- **An opening is matched as in a text of its own.** -/
theorem endAt?_opening {pattern : Pattern} (hloose : pattern.isLoose = true)
    (hfront : front = #[] ∨ ∃ c ∈ blanks, front.EndsWith c) (hend : u.EndsWith c)
    (hstops : pattern.stopsAt c = true) (hp : p < u.size) (v : Source) :
    endAt? (pattern.find (front ++ (u ++ v)) ·) (front.size + p) =
      (endAt? (pattern.find u ·) p).map (front.size + ·) := by
  rw [endAt?_behind hloose hfront, endAt?_append hend hstops hp]

/-- An expression without conditions around it. -/
def plain (r : Regex) : Pattern := regex (.regular (.listing r)) none [] 0

theorem endAt?_plain {r : Regex} : endAt? ((plain r).find text ·) p = some stop ↔
    p ≤ text.size ∧ r.firstEnd? text p = some stop := by
  rw [plain, endAt?_listing_eq_some_iff]
  constructor
  · rintro ⟨hp, e, he, rfl, -⟩
    exact ⟨hp, he⟩
  · rintro ⟨hp, he⟩
    exact ⟨hp, stop, he, rfl, refuses_none text _⟩

/-- A character of one set, and one of another behind it. -/
def pair (s t : CharSet) : Pattern := plain (.seq (.set s) (.set t))

theorem endAt?_pair {s t : CharSet} : endAt? ((pair s t).find text ·) p = some stop ↔
    (text[p]?).any s.contains = true ∧ (text[p + 1]?).any t.contains = true ∧ stop = p + 2 := by
  rw [pair, endAt?_plain, Regex.firstEnd?, Regex.ends, Regex.ends]
  constructor
  · rintro ⟨-, he⟩
    obtain ⟨m, hm, he⟩ := List.mem_flatMap.mp (List.mem_of_head? he)
    split at hm
    · next c hc =>
      split at hm
      · next hcontains =>
        obtain rfl := List.mem_singleton.mp hm
        rw [Regex.ends] at he
        split at he
        · next d hd =>
          split at he
          · next hcontains' =>
            rw [hc, hd]
            exact ⟨hcontains, hcontains', List.mem_singleton.mp he⟩
          · cases he
        · cases he
      · cases hm
    · cases hm
  · rintro ⟨hs, ht, rfl⟩
    obtain ⟨c, hc, hs⟩ := (Option.any_eq_true _ _).mp hs
    obtain ⟨d, hd, ht⟩ := (Option.any_eq_true _ _).mp ht
    have hp := (Array.getElem?_eq_some_iff.mp hc).1
    refine ⟨Nat.le_of_lt hp, ?_⟩
    rw [hc]
    dsimp only
    rw [if_pos hs, List.flatMap_singleton, Regex.ends, hd]
    dsimp only
    rw [if_pos ht]
    rfl

end Pattern

/-! ### Patterns -/

namespace Literal

def quotes : List Char := ['\'', '"']

def escape : Pattern := .pair (.single '\\') .all

/-- Without a backslash, or with none behind it, there is no escape. -/
theorem endAt?_escape_eq_none (h : text[p]? ≠ some '\\' ∨ text.size ≤ p + 1) :
    endAt? (escape.find text ·) p = none := by
  cases hend : endAt? (escape.find text ·) p with
  | none => rfl
  | some stop =>
    obtain ⟨hfirst, hsecond, -⟩ := Pattern.endAt?_pair.mp hend
    obtain ⟨c, hc, hbackslash⟩ := (Option.any_eq_true _ _).mp hfirst
    rw [CharSet.contains_single] at hbackslash
    rw [hbackslash] at hc
    rcases h with hne | hle
    · exact absurd hc hne
    · rw [Array.getElem?_eq_none hle] at hsecond
      cases hsecond

def quoted (q : Char) : Pattern :=
  .plain (.seq (.rep true 0 (some 1) (.seq (.anchor edge) (.spelling "unicode".toList)))
    (.set (.single q)))

def hexDigit : CharSet := .union (.range '0' '9') (.union (.range 'A' 'F') (.range 'a' 'f'))

/-- Hexadecimal bytes, with single underscores between them. -/
def hexBytes : Regex :=
  .rep true 0 (some 1) (.seq
    (.rep true 0 none (.seq (.rep true 2 (some 2) (.set hexDigit))
      (.rep true 0 (some 1) (.set (.single '_')))))
    (.rep true 2 (some 2) (.set hexDigit)))

/-- What a string of hexadecimal bytes is made of, the edge of a word at its start apart. -/
def hexBody (q : Char) : Regex :=
  .seq (.set (.single 'h')) (.seq (.set (.single 'e')) (.seq (.set (.single 'x'))
    (.seq (.set (.single q)) (.seq hexBytes (.set (.single q))))))

def hexQuoted (q : Char) : Pattern := .plain (.seq (.anchor edge) (hexBody q))

def doctags : List String := ["TODO", "FIXME", "NOTE", "BUG", "OPTIMIZE", "HACK", "XXX"]

def doctag : Pattern :=
  .plain (.seq (.anchor edge) (.seq
    ((doctags.dropLast.map fun w => Regex.spelling w.toList).foldr Regex.alt
      (.spelling "XXX".toList))
    (.set (.single ':'))))

def lineOpening : Pattern := .pair (.single '/') (.single '/')

def blockOpening : Pattern := .pair (.single '/') (.single '*')

def blockEnd : Pattern := .pair (.single '*') (.single '/')

/-! ### Languages -/

/-- A character that is no quote, backslash or line feed, or a backslash with any character. -/
def item (q : Char) : Language Char :=
  one (fun c => c != q && c != '\\' && c != '\n') + char '\\' * one (fun _ => true)

/-- A string up to its closing quote, optionally marked as one of Unicode. -/
def string (q : Char) : Language Char :=
  optional {"unicode".toList} * (char q * ((item q)∗ * char q))

/-- Two hexadecimal digits. -/
def byte : Language Char := one CharClass.isHexDigit * one CharClass.isHexDigit

/-- A string of hexadecimal bytes, with single underscores between them. -/
def hexString (q : Char) : Language Char :=
  {"hex".toList} * (char q * (optional (byte * (optional (char '_') * byte)∗) * char q))

/-- A comment up to the first `*/` behind its opening. -/
def blockComment : Language Char :=
  {w | ∃ body, w = "/*".toList ++ body ++ "*/".toList ∧ ¬ "*/".toList <:+: body ++ ['*']}

theorem isLoose_of_quote : ∀ q ∈ quotes,
    (quoted q).isLoose = true ∧ (hexQuoted q).isLoose = true := by
  have hall : quotes.all (fun q => (quoted q).isLoose && (hexQuoted q).isLoose) = true := by
    decide +kernel
  intro q hq
  exact (Bool.and_eq_true _ _).mp (List.all_eq_true.mp hall q hq)

/-! ### Hexadecimal bytes -/

theorem one_single (c : Char) : one (CharSet.single c).contains = char c := by
  rw [char]
  congr 1
  funext d
  exact CharSet.contains_single_eq c d

theorem one_hexDigit : one hexDigit.contains = one CharClass.isHexDigit := by
  congr 1
  funext d
  simp only [hexDigit, CharSet.contains, CharClass.isHexDigit, CharClass.isAsciiDigit]
  rw [Bool.or_assoc, Bool.or_comm (decide ('A' ≤ d) && decide (d ≤ 'F'))]

/-- An underscore behind each byte but the last is one in front of each but the first. -/
theorem bytes_le : byte * (optional (char '_') * byte)∗ ≤ (byte * optional (char '_'))∗ * byte := by
  refine mul_kstar_le (le_mul_of_one_le_left' one_le_kstar) ?_
  calc (byte * optional (char '_'))∗ * byte * (optional (char '_') * byte)
      = (byte * optional (char '_'))∗ * (byte * optional (char '_')) * byte := by
        simp only [mul_assoc]
    _ ≤ (byte * optional (char '_'))∗ * byte := by
        gcongr
        exact kstar_mul_le_kstar

theorem language_hexBytes :
    hexBytes.language = optional ((byte * optional (char '_'))∗ * byte) := by
  simp only [hexBytes, Regex.language, one_single, one_hexDigit, pow_zero, pow_one, one_mul,
    mul_one, Nat.sub_self, Nat.sub_zero, pow_two]
  rfl

theorem language_hexBody (q : Char) : (hexBody q).language =
    char 'h' * (char 'e' * (char 'x' * (char q * (hexBytes.language * char q)))) := by
  simp only [hexBody, Regex.language, one_single]

theorem hexString_le (q : Char) : hexString q ≤ (hexBody q).language := by
  have hword : ({"hex".toList} : Language Char) = char 'h' * (char 'e' * char 'x') := by
    ext w
    simp only [char, one]
    constructor
    · rintro rfl
      exact ⟨['h'], ⟨'h', rfl, rfl⟩, ['e', 'x'], ⟨['e'], ⟨'e', rfl, rfl⟩, ['x'], ⟨'x', rfl, rfl⟩,
        rfl⟩, rfl⟩
    · rintro ⟨_, ⟨a, ha, rfl⟩, _, ⟨_, ⟨b, hb, rfl⟩, _, ⟨d, hd, rfl⟩, rfl⟩, rfl⟩
      rw [eq_of_beq ha, eq_of_beq hb, eq_of_beq hd]
      rfl
  have hbytes : optional (byte * (optional (char '_') * byte)∗) ≤ hexBytes.language := by
    rw [language_hexBytes]
    exact add_le_add_right bytes_le 1
  rw [hexString, language_hexBody, hword]
  simp only [mul_assoc]
  gcongr

theorem spares_hexBytes {q : Char} (hq : breaks q = true) :
    NumberLiteral.Spares q hexBytes.language := by
  have hdigit := NumberLiteral.spares_one hq fun d => NumberLiteral.breaks_of_isHexDigit (d := d)
  have hbyte : NumberLiteral.Spares q byte := hdigit.mul hdigit
  rw [language_hexBytes]
  exact ((hbyte.mul (NumberLiteral.spares_char hq (by decide)).optional).kstar.mul hbyte).optional

/-- There is only one end that such a string can have. -/
theorem hexBody_unique {q : Char} (hq : breaks q = true) {e e' : Nat}
    (h : Reads text (hexBody q).language p e) (h' : Reads text (hexBody q).language p e') :
    e = e' := by
  have hends : ∀ {e}, Reads text (hexBody q).language p e →
      ∃ m, Reads text hexBytes.language (p + 4) m ∧ text[m]? = some q ∧ e = m + 1 := by
    intro e he
    simp only [language_hexBody, Reads.mul_iff, Reads.char_iff] at he
    obtain ⟨_, ⟨-, rfl⟩, _, ⟨-, rfl⟩, _, ⟨-, rfl⟩, _, ⟨-, rfl⟩, m, hm, hquote, rfl⟩ := he
    exact ⟨m, hm, hquote, rfl⟩
  obtain ⟨m, hm, hquote, rfl⟩ := hends h
  obtain ⟨m', hm', hquote', rfl⟩ := hends h'
  have hle := NumberLiteral.le_of_reads hquote (spares_hexBytes hq) hm.le hm'
  have hle' := NumberLiteral.le_of_reads hquote' (spares_hexBytes hq) hm'.le hm
  omega

/-- **A string of hexadecimal bytes is matched as a whole**, whatever is behind. -/
theorem endAt?_hexQuoted {q : Char} (hq : q ∈ quotes) (hs : s.toList ∈ hexString q)
    (rest : Source) : endAt? ((hexQuoted q).find (s ++ rest) ·) 0 = some s.size := by
  have hbreaks : ∀ q ∈ quotes, breaks q = true := List.all_eq_true.mp (by decide)
  have hfree : (hexBody q).isFree = true := rfl
  have hreads : Reads (s ++ rest) (hexBody q).language 0 s.size := by
    refine (NumberLiteral.reads_append (Nat.le_refl _)).mpr ⟨Nat.zero_le _, Nat.le_refl _, ?_⟩
    rw [NumberLiteral.chars_all]
    exact hexString_le q hs
  have hfirst : (s ++ rest)[0]? = some 'h' := by
    simp only [language_hexBody, Reads.mul_iff, Reads.char_iff] at hreads
    obtain ⟨_, ⟨hfirst, -⟩, -⟩ := hreads
    exact hfirst
  have hedge : edge.holds (s ++ rest) 0 = true := by
    show (false != ((s ++ rest)[0]?).any CharClass.isWord) = true
    rw [hfirst]
    decide +kernel
  refine Pattern.endAt?_plain.mpr ⟨Nat.zero_le _, ?_⟩
  have hends : (Regex.seq (.anchor edge) (hexBody q)).ends (s ++ rest) 0 =
      (hexBody q).ends (s ++ rest) 0 := by
    rw [Regex.ends, Regex.ends, if_pos hedge, List.flatMap_singleton]
  rw [Regex.firstEnd?, hends]
  have hmem := (hexBody q).mem_ends_of_reads hfree hreads
  cases hlist : (hexBody q).ends (s ++ rest) 0 with
  | nil =>
    rw [hlist] at hmem
    cases hmem
  | cons e es =>
    have he : e ∈ (hexBody q).ends (s ++ rest) 0 := hlist ▸ List.mem_cons_self
    rw [List.head?_cons, hexBody_unique (hbreaks q hq)
      (Regex.reads_of_mem_ends _ (Nat.zero_le _) he) hreads]

end Literal

/-! ### Numbers -/

namespace NumberLiteral

/-- A literal does not get over a character that breaks it. -/
theorem matchAt?_of_literal (hs : s.toList ∈ literal)
    (hrest : rest = #[] ∨ ∃ c, breaks c = true ∧ rest[0]? = some c) :
    matchAt? (s ++ rest) 0 = some s.size := by
  have hmatch := matchAt?_zero_eq_size_iff.mpr hs
  rcases hrest with rfl | ⟨c, hbreaks, hc⟩
  · rw [Array.append_empty]
    exact hmatch
  have hpos := (within_of_matchAt? hmatch).1
  have hget : ∀ p < s.size, (s ++ rest)[p]? = s[p]? := fun p hp => Array.getElem?_append_left hp
  have hend : (s ++ rest)[s.size]? = some c := (Source.getElem?_append_add s rest 0).trans hc
  have hstart : bodyStart (s ++ rest) 0 = bodyStart s 0 := by
    rw [bodyStart, bodyStart, hget 0 hpos]
  obtain ⟨⟨hreads, hfresh, -⟩, -⟩ := matchAt?_eq_some_iff.mp hmatch
  have hlt : bodyStart s 0 < s.size := by
    obtain ⟨d, hd, -⟩ := (Option.any_eq_true _ _).mp (startsUnsigned_of_reads hreads)
    exact (Array.getElem?_eq_some_iff.mp hd).1
  refine matchAt?_eq_some_iff.mpr ⟨⟨?_, ?_, ?_⟩, fun e he => ?_⟩
  · rw [hstart]
    exact (reads_append (Nat.le_refl _)).mpr hreads
  · rw [hstart]
    intro hdigit
    rw [hget _ hlt] at hdigit
    rw [startsWord, Source.before?_append (Nat.le_of_lt hlt)]
    exact hfresh hdigit
  · have hnot : continuesWord c = false := by
      simp only [breaks, Bool.not_eq_true', Bool.or_eq_false_iff] at hbreaks
      exact hbreaks.1.1.1
    rw [endsLiteral, hend, Option.any_some, hnot]
    rfl
  · rw [hstart] at he
    exact le_of_reads hend (spares_unsigned hbreaks) (Nat.le_of_lt hlt) he.reads

end NumberLiteral

end Highlighting
