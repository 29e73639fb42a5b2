/-
  Highlighting/Proofs/NumberLiteral/Seam.lean
  ===========================================
  **Number literals around a character** that breaks them, in a text that goes on
  behind it.

  No literal has such a character, nor goes on with one (`spares_unsigned`).  So
  in front of the seam the literals of `u ++ v` are those of `u`
  (`matchAt?_append`).  Behind it they are those of `v`, for which it is enough
  that the character continues no word (`matchAt?_append_add`).
-/
import Highlighting.Proofs.NumberLiteral.Longest
import Highlighting.Proofs.Text.Source

namespace Highlighting.NumberLiteral

open CharClass (isAsciiDigit isHexDigit)
open Source (EndsWith)
open scoped Computability

variable {u v : Source} {c : Char} {p q stop : Nat} {l m : Language Char}

/-! ### Words without a character -/

/-- The character has no place in a literal, and ends a word. -/
def breaks (c : Char) : Bool := !(continuesWord c || c == '.' || c == '-' || c == '+')

theorem continuesWord_of_breaks (hc : breaks c = true) : continuesWord c = false := by
  simp only [breaks, Bool.not_eq_true', Bool.or_eq_false_iff] at hc
  exact hc.1.1.1

/-- No word of the language has the character. -/
def Spares (c : Char) (l : Language Char) : Prop := ∀ w ∈ l, c ∉ w

theorem spares_one (hc : breaks c = true) {kind : Char → Bool}
    (hkind : ∀ d, kind d = true → breaks d = false) : Spares c (one kind) := by
  rintro w ⟨d, hd, rfl⟩ hmem
  obtain rfl : c = d := List.mem_singleton.mp hmem
  rw [hkind c hd] at hc
  cases hc

theorem spares_char (hc : breaks c = true) {d : Char} (hd : breaks d = false) :
    Spares c (char d) := by
  apply spares_one hc
  intro e he
  rwa [eq_of_beq he]

theorem Spares.add (hl : Spares c l) (hm : Spares c m) : Spares c (l + m) := by
  rintro w (hw | hw)
  · exact hl w hw
  · exact hm w hw

theorem Spares.mul (hl : Spares c l) (hm : Spares c m) : Spares c (l * m) := by
  intro w hw hmem
  obtain ⟨x, hx, y, hy, rfl⟩ := Language.mem_mul.mp hw
  rcases List.mem_append.mp hmem with hmem | hmem
  · exact hl x hx hmem
  · exact hm y hy hmem

theorem Spares.optional (hl : Spares c l) : Spares c (optional l) := by
  apply Spares.add ?_ hl
  intro w hw
  rw [(Language.mem_one w).mp hw]
  exact List.not_mem_nil

theorem Spares.kstar (hl : Spares c l) : Spares c l∗ := by
  intro w hw hmem
  obtain ⟨ws, rfl, hws⟩ := Language.mem_kstar.mp hw
  obtain ⟨x, hx, hmem⟩ := List.mem_flatten.mp hmem
  exact hl x (hws x hx) hmem

theorem breaks_of_isAsciiDigit {d : Char} (h : isAsciiDigit d = true) : breaks d = false := by
  simp [breaks, continuesWord, CharClass.isAsciiWord, h]

theorem breaks_of_isHexDigit {d : Char} (h : isHexDigit d = true) : breaks d = false := by
  have hf : 'f' ≤ 'z' := by decide
  have hF : 'F' ≤ 'Z' := by decide
  simp only [isHexDigit, Bool.or_eq_true, Bool.and_eq_true, decide_eq_true_eq] at h
  rcases h with (hdigit | ⟨hle, hge⟩) | ⟨hle, hge⟩
  · exact breaks_of_isAsciiDigit hdigit
  · simp [breaks, continuesWord, CharClass.isAsciiWord, CharClass.isAsciiLetter, hle,
      Char.le_trans hge hf]
  · simp [breaks, continuesWord, CharClass.isAsciiWord, CharClass.isAsciiLetter, hle,
      Char.le_trans hge hF]

theorem breaks_of_either {d a b : Char} (ha : breaks a = false) (hb : breaks b = false)
    (h : (d == a || d == b) = true) : breaks d = false := by
  rcases (Bool.or_eq_true _ _).mp h with h | h
  · rwa [eq_of_beq h]
  · rwa [eq_of_beq h]

theorem spares_digits (hc : breaks c = true) {first digit : Char → Bool}
    (hfirst : ∀ d, first d = true → breaks d = false)
    (hdigit : ∀ d, digit d = true → breaks d = false) : Spares c (digits first digit) :=
  (spares_one hc hfirst).mul
    (((spares_char hc (by decide)).optional).mul (spares_one hc hdigit)).kstar

/-- **No literal has a character that breaks them.** -/
theorem spares_unsigned (hc : breaks c = true) : Spares c unsigned := by
  have hdecimals : Spares c (group isAsciiDigit) :=
    spares_digits hc (fun _ => breaks_of_isAsciiDigit) fun _ => breaks_of_isAsciiDigit
  have hnonzero : ∀ d, isNonzeroDigit d = true → breaks d = false := fun d h =>
    breaks_of_isAsciiDigit ((Bool.and_eq_true _ _).mp h).1
  have hzero : Spares c (char '0') := spares_char hc (by decide)
  have hhexadecimal : Spares c hexadecimal :=
    hzero.mul ((spares_one hc fun _ => breaks_of_either (by decide) (by decide)).mul
      (spares_digits hc (fun _ => breaks_of_isHexDigit) fun _ => breaks_of_isHexDigit))
  have hsign : Spares c (one fun d => d == '-' || d == '+') :=
    spares_one hc fun _ => breaks_of_either (by decide) (by decide)
  have hexponent : Spares c exponent :=
    (spares_one hc fun _ => breaks_of_either (by decide) (by decide)).mul
      (hsign.optional.mul hdecimals)
  have hpoint : Spares c (char '.') := spares_char hc (by decide)
  have hmantissa : Spares c mantissa :=
    ((spares_digits hc hnonzero fun _ => breaks_of_isAsciiDigit).mul
      (hpoint.mul hdecimals.optional).optional).add (hpoint.mul hdecimals)
  exact (hhexadecimal.add (hmantissa.mul hexponent.optional)).add hzero

/-! ### In front of the seam -/

/-- A word without the character does not reach it. -/
theorem le_of_reads (hq : u[q]? = some c) (hl : Spares c l) (hp : p ≤ q)
    (h : Reads u l p stop) : stop ≤ q := by
  by_contra hlt
  obtain ⟨hsize, hchar⟩ := Array.getElem?_eq_some_iff.mp hq
  have hpart : u.chars ⟨p, q⟩ ++ (u.chars ⟨q, q + 1⟩ ++ u.chars ⟨q + 1, stop⟩) =
      u.chars ⟨p, stop⟩ := by
    rw [Reads.chars_append (Nat.le_succ _) (by omega), Reads.chars_append hp (by omega)]
  apply hl _ h.mem
  rw [← hpart, Reads.chars_one hsize, hchar]
  exact List.mem_append_right _ (List.mem_append_left _ (List.mem_singleton.mpr rfl))

theorem lt_of_reads (hend : EndsWith c u) (hl : Spares c l) (hp : p < u.size)
    (h : Reads (u ++ v) l p q) : q < u.size := by
  have hlast : (u ++ v)[u.size - 1]? = some c := by
    rw [Array.getElem?_append_left (by omega)]
    exact hend
  have hle := le_of_reads hlast hl (by omega) h
  omega

/-- **A literal does not reach beyond a character that breaks it.** -/
theorem le_of_matchAt? (hc : breaks c = true) (hq : u[q]? = some c) (hp : p ≤ q)
    (h : matchAt? u p = some stop) : stop ≤ q := by
  have hreads := (matchAt?_eq_some_iff.mp h).1.reads
  refine le_of_reads hq (spares_unsigned hc) ?_ hreads
  rw [bodyStart]
  split
  · next hminus =>
    rw [beq_iff_eq] at hminus
    have hne : p ≠ q := by
      rintro rfl
      rw [hq, Option.some.injEq] at hminus
      rw [hminus] at hc
      cases hc
    omega
  · exact hp

theorem reads_append (hq : q ≤ u.size) : Reads (u ++ v) l p q ↔ Reads u l p q := by
  constructor
  · rintro ⟨hle, -, hmem⟩
    rw [Source.chars_append hq] at hmem
    exact ⟨hle, hq, hmem⟩
  · rintro ⟨hle, -, hmem⟩
    rw [← Source.chars_append hq] at hmem
    exact ⟨hle, Nat.le_trans hq (by rw [Array.size_append]; omega), hmem⟩

theorem accepts_append (hc : breaks c = true) (hend : EndsWith c u) (hp : p < u.size) :
    Accepts (u ++ v) p stop ↔ Accepts u p stop := by
  have hbefore : startsFresh (u ++ v) p ↔ startsFresh u p := by
    rw [startsFresh, startsFresh, startsWord, startsWord, Source.before?_append (Nat.le_of_lt hp),
      Array.getElem?_append_left hp]
  have hends : stop < u.size → endsLiteral (u ++ v) stop = endsLiteral u stop := by
    intro hlt
    rw [endsLiteral, endsLiteral, Array.getElem?_append_left hlt]
  constructor
  · rintro ⟨hreads, hfresh, hstop⟩
    have hlt := lt_of_reads hend (spares_unsigned hc) hp hreads
    rw [hends hlt] at hstop
    exact ⟨(reads_append (Nat.le_of_lt hlt)).mp hreads, hbefore.mp hfresh, hstop⟩
  · rintro ⟨hreads, hfresh, hstop⟩
    have hreads' : Reads (u ++ v) unsigned p stop := (reads_append hreads.le_size).mpr hreads
    rw [← hends (lt_of_reads hend (spares_unsigned hc) hp hreads')] at hstop
    exact ⟨hreads', hbefore.mpr hfresh, hstop⟩

theorem bodyStart_append (hc : breaks c = true) (hend : EndsWith c u) (hp : p < u.size) :
    bodyStart (u ++ v) p = bodyStart u p ∧ bodyStart u p < u.size := by
  rw [bodyStart, bodyStart, Array.getElem?_append_left hp]
  refine ⟨rfl, ?_⟩
  split
  · next hminus =>
    rw [beq_iff_eq] at hminus
    have hne : p ≠ u.size - 1 := by
      rintro rfl
      rw [hend, Option.some.injEq] at hminus
      rw [hminus] at hc
      cases hc
    omega
  · exact hp

theorem matchAt?_append (hc : breaks c = true) (hend : EndsWith c u) (hp : p < u.size) :
    matchAt? (u ++ v) p = matchAt? u p := by
  obtain ⟨hstart, hlt⟩ := bodyStart_append (v := v) hc hend hp
  apply Option.ext
  intro stop
  rw [matchAt?_eq_some_iff, matchAt?_eq_some_iff, hstart]
  simp only [accepts_append hc hend hlt]

/-! ### Behind the seam -/

theorem reads_append_add : Reads (u ++ v) l (u.size + p) (u.size + q) ↔ Reads v l p q := by
  constructor
  · rintro ⟨hle, hsize, hmem⟩
    rw [Source.chars_append_add] at hmem
    rw [Array.size_append] at hsize
    exact ⟨by omega, by omega, hmem⟩
  · rintro ⟨hle, hsize, hmem⟩
    rw [← Source.chars_append_add u v] at hmem
    exact ⟨by omega, by rw [Array.size_append]; omega, hmem⟩

theorem accepts_append_add (hc : continuesWord c = false) (hend : EndsWith c u) :
    Accepts (u ++ v) (u.size + p) (u.size + stop) ↔ Accepts v p stop := by
  have hword : startsWord (u ++ v) (u.size + p) = startsWord v p := by
    rw [startsWord, startsWord, Source.before?_append_add hend]
    cases p with
    | zero =>
      show (!continuesWord c) = true
      rw [hc]
      rfl
    | succ p => rfl
  have hfresh : startsFresh (u ++ v) (u.size + p) ↔ startsFresh v p := by
    rw [startsFresh, startsFresh, hword, Source.getElem?_append_add]
  have hend : endsLiteral (u ++ v) (u.size + stop) = endsLiteral v stop := by
    rw [endsLiteral, endsLiteral, Source.getElem?_append_add]
  constructor
  · rintro ⟨hreads, hstarts, hends⟩
    exact ⟨reads_append_add.mp hreads, hfresh.mp hstarts, hend ▸ hends⟩
  · rintro ⟨hreads, hstarts, hends⟩
    exact ⟨reads_append_add.mpr hreads, hfresh.mpr hstarts, hend.symm ▸ hends⟩

theorem matchAt?_append_add (hc : continuesWord c = false) (hend : EndsWith c u) (p : Nat) :
    matchAt? (u ++ v) (u.size + p) = (matchAt? v p).map (u.size + ·) := by
  have hstart : bodyStart (u ++ v) (u.size + p) = u.size + bodyStart v p := by
    rw [bodyStart, bodyStart, Source.getElem?_append_add]
    split <;> rfl
  apply Option.ext
  intro e
  rw [matchAt?_eq_some_iff, Option.map_eq_some_iff, hstart]
  constructor
  · rintro ⟨haccepts, hgreatest⟩
    obtain ⟨stop, rfl⟩ := Nat.exists_eq_add_of_le
      (Nat.le_trans (Nat.le_add_right _ _) haccepts.reads.le)
    refine ⟨stop, matchAt?_eq_some_iff.mpr ⟨(accepts_append_add hc hend).mp haccepts, ?_⟩, rfl⟩
    intro e he
    exact Nat.le_of_add_le_add_left (hgreatest _ ((accepts_append_add hc hend).mpr he))
  · rintro ⟨stop, hmatch, rfl⟩
    obtain ⟨haccepts, hgreatest⟩ := matchAt?_eq_some_iff.mp hmatch
    refine ⟨(accepts_append_add hc hend).mpr haccepts, ?_⟩
    intro e he
    obtain ⟨e, rfl⟩ := Nat.exists_eq_add_of_le (Nat.le_trans (Nat.le_add_right _ _) he.reads.le)
    exact Nat.add_le_add_left (hgreatest e ((accepts_append_add hc hend).mp he)) _

end Highlighting.NumberLiteral
