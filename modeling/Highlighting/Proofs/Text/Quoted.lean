/-
  Highlighting/Proofs/Text/Quoted.lean
  ====================================
  **A quoted text can be read back.**

  What is written for a character tells which one it is and where it ends,
  whatever follows (`read?_encodeChar`).  Nothing that is written for a character
  begins with a quote, so the closing quote is the first one that a reader comes
  to, and a quoted text in front of anything determines the text
  (`encode_append_inj`).  A line feed is never part of it.

  Most characters that are not shown as they are have their number written in
  hexadecimal digits, which read back as well (`Decimal.valueIn?_toDigits`).
-/
import Highlighting.Decimal.Basic
import Highlighting.Text.Quoted

namespace Highlighting

/-! ### Hexadecimal digits -/

namespace CharClass

variable {c : Char} {n : Nat}

/-- Whether a character is the hexadecimal digit of a value, in lower or upper case. -/
def IsHexDigitOf (n : Nat) (c : Char) : Prop :=
  n < 16 ∧ (c = Nat.digitChar n ∨ c = (Nat.digitChar n).toUpper)

instance (n : Nat) (c : Char) : Decidable (IsHexDigitOf n c) := by
  unfold IsHexDigitOf
  infer_instance

theorem toNat_lt_of_hexValue? (h : hexValue? c = some n) : c.toNat < 128 := by
  have hbound : ∀ d : Char, c ≤ d → d.toNat < 128 → c.toNat < 128 :=
    fun d hle hlt => Nat.lt_of_le_of_lt hle hlt
  simp only [hexValue?, isAsciiDigit, Bool.and_eq_true, decide_eq_true_eq] at h
  split at h
  · next hd => exact hbound _ hd.2 (by decide)
  split at h
  · next hd => exact hbound _ hd.2 (by decide)
  split at h
  · next hd => exact hbound _ hd.2 (by decide)
  · cases h

/-- **The value of a digit**, said through the digits that numbers are written in. -/
theorem hexValue?_eq_some_iff : hexValue? c = some n ↔ IsHexDigitOf n c := by
  constructor
  · intro h
    have hcheck : ∀ k < 128, ∀ v ∈ hexValue? (Char.ofNat k), IsHexDigitOf v (Char.ofNat k) := by
      decide
    have hc := hcheck c.toNat (toNat_lt_of_hexValue? h)
    rw [Char.ofNat_toNat] at hc
    exact hc n h
  · rintro ⟨hn, rfl | rfl⟩
    · have hcheck : ∀ n < 16, hexValue? (Nat.digitChar n) = some n := by decide
      exact hcheck n hn
    · have hcheck : ∀ n < 16, hexValue? (Nat.digitChar n).toUpper = some n := by decide
      exact hcheck n hn

end CharClass

namespace Decimal

open CharClass (hexValue? hexValue?_eq_some_iff)

variable {base : Nat}

/-- One more digit at the end. -/
theorem valueIn?_concat {digits : List Char} {c : Char} {n d : Nat}
    (h : valueIn? base digits = some n) (hc : hexValue? c = some d) (hd : d < base) :
    valueIn? base (digits ++ [c]) = some (base * n + d) := by
  cases digits with
  | nil => simp [valueIn?] at h
  | cons e digits =>
    have hlast : (e :: digits ++ [c]).isEmpty = false := rfl
    simp only [valueIn?, List.isEmpty_cons, hlast, Bool.false_eq_true, if_false,
      List.foldl_append] at h ⊢
    rw [h]
    simp [hc, hd]

theorem valueIn?_singleton {c : Char} {d : Nat} (hc : hexValue? c = some d) (hd : d < base) :
    valueIn? base [c] = some d := by
  simp [valueIn?, hc, hd]

theorem hexValue?_digitChar {n : Nat} (hn : n < 16) : hexValue? (Nat.digitChar n) = some n :=
  hexValue?_eq_some_iff.mpr ⟨hn, .inl rfl⟩

/-- **A number in its digits reads back.** -/
theorem valueIn?_toDigits (h : 1 < base) (hbase : base ≤ 16) (n : Nat) :
    valueIn? base (Nat.toDigits base n) = some n := by
  induction n using Nat.strongRecOn with
  | ind n ih =>
    rw [Nat.toDigits_eq_if h]
    split
    · next hn => exact valueIn?_singleton (hexValue?_digitChar (Nat.lt_of_lt_of_le hn hbase)) hn
    · next hn =>
      have hpos : 0 < n := by omega
      have hmod : n % base < base := Nat.mod_lt n (by omega)
      rw [valueIn?_concat (ih _ (Nat.div_lt_self hpos h))
        (hexValue?_digitChar (Nat.lt_of_lt_of_le hmod hbase)) hmod, Nat.div_add_mod]

theorem hexValue?_of_mem_toDigits {n : Nat} {c : Char} (h : c ∈ Nat.toDigits 16 n) :
    ∃ d, hexValue? c = some d := by
  induction n using Nat.strongRecOn with
  | ind n ih =>
    rw [Nat.toDigits_eq_if (by decide)] at h
    split at h
    · next hn => exact ⟨n, List.mem_singleton.mp h ▸ hexValue?_digitChar hn⟩
    · next hn =>
      rcases List.mem_append.mp h with h | h
      · exact ih _ (Nat.div_lt_self (by omega) (by decide)) h
      · exact ⟨_, List.mem_singleton.mp h ▸ hexValue?_digitChar (Nat.mod_lt n (by decide))⟩

end Decimal

namespace Quoted

variable {c : Char} {cs ds us vs : List Char}

/-! ### The written form of a character -/

/-- The characters with an escape of their own, each with the letter behind its backslash. -/
def shortEscapes : List (Char × Char) :=
  [('\t', 't'), ('\r', 'r'), ('\n', 'n'), ('"', '"'), ('\\', '\\'), ('\x00', '0')]

/-- A code point between braces. -/
def codePoint (c : Char) : List Char := ['\\', 'u', '\x7b'] ++ hexDigits c.toNat ++ ['\x7d']

/-- **A character is written in one of three ways**: by its own escape, by its code point, or as
itself. -/
theorem encodeChar_cases (c : Char) :
    (∃ letter, (c, letter) ∈ shortEscapes ∧ encodeChar c = ['\\', letter]) ∨
      encodeChar c = codePoint c ∨
      ((∀ e ∈ shortEscapes, e.1 ≠ c) ∧ encodeChar c = [c]) := by
  by_cases hshort : ∃ letter, (c, letter) ∈ shortEscapes
  · obtain ⟨letter, hmem⟩ := hshort
    refine .inl ⟨letter, hmem, ?_⟩
    simp only [shortEscapes, List.mem_cons, Prod.mk.injEq, List.not_mem_nil, or_false] at hmem
    rcases hmem with ⟨rfl, rfl⟩ | ⟨rfl, rfl⟩ | ⟨rfl, rfl⟩ | ⟨rfl, rfl⟩ | ⟨rfl, rfl⟩ | ⟨rfl, rfl⟩ <;>
      rfl
  · have hne : ∀ e ∈ shortEscapes, e.1 ≠ c := fun e he heq => hshort ⟨e.2, heq ▸ he⟩
    have hzero : c.toNat ≠ 0 := by
      intro hzero
      have hnul : '\x00' = c := Char.toNat_inj.mp hzero.symm
      exact hne ('\x00', '0') (by decide) hnul
    have hall : encodeChar c = if needsCodePoint c then codePoint c else [c] := by
      simp only [shortEscapes, List.forall_mem_cons] at hne
      simp [encodeChar, codePoint, hzero, hne.1.symm, hne.2.1.symm, hne.2.2.1.symm,
        hne.2.2.2.1.symm, hne.2.2.2.2.1.symm]
    rw [hall]
    split
    · exact .inr (.inl rfl)
    · exact .inr (.inr ⟨hne, rfl⟩)

theorem hexDigits_forall_ne (n : Nat) : ∀ d ∈ hexDigits n, d ≠ '\x7d' ∧ d ≠ '\n' := by
  intro d hd
  obtain ⟨v, hv⟩ := Decimal.hexValue?_of_mem_toDigits hd
  have hbrace : CharClass.hexValue? '\x7d' = none := by decide
  have hfeed : CharClass.hexValue? '\n' = none := by decide
  constructor
  · rintro rfl
    exact absurd (hbrace.symm.trans hv) (by simp)
  · rintro rfl
    exact absurd (hfeed.symm.trans hv) (by simp)

/-- No character is written as something that begins with a quote, nor as nothing. -/
theorem exists_encodeChar (c : Char) : ∃ d ds, encodeChar c = d :: ds ∧ d ≠ '"' := by
  rcases encodeChar_cases c with ⟨letter, -, h⟩ | h | ⟨hne, h⟩
  · exact ⟨'\\', [letter], h, by decide⟩
  · exact ⟨'\\', _, h, by decide⟩
  · exact ⟨c, [], h, (hne ('"', '"') (by decide)).symm⟩

theorem feed_notMem_encodeChar (c : Char) : '\n' ∉ encodeChar c := by
  rcases encodeChar_cases c with ⟨letter, hmem, h⟩ | h | ⟨hne, h⟩
  · have hletter : ∀ e ∈ shortEscapes, '\n' ∉ ['\\', e.2] := by decide
    exact h ▸ hletter _ hmem
  · rw [h, codePoint]
    intro hfeed
    simp only [List.mem_append] at hfeed
    rcases hfeed with (hfeed | hfeed) | hfeed
    · exact absurd hfeed (by decide)
    · exact (hexDigits_forall_ne c.toNat '\n' hfeed).2 rfl
    · exact absurd hfeed (by decide)
  · rw [h, List.mem_singleton]
    exact hne ('\n', 'n') (by decide)

/-! ### Reading a character -/

/-- The character whose written form is at the front, with what follows. -/
def read? : List Char → Option (Char × List Char)
  | '\\' :: 't' :: cs => some ('\t', cs)
  | '\\' :: 'r' :: cs => some ('\r', cs)
  | '\\' :: 'n' :: cs => some ('\n', cs)
  | '\\' :: '"' :: cs => some ('"', cs)
  | '\\' :: '\\' :: cs => some ('\\', cs)
  | '\\' :: '0' :: cs => some ('\x00', cs)
  | '\\' :: 'u' :: '\x7b' :: cs =>
    let digits := cs.takeWhile (· != '\x7d')
    (Decimal.valueIn? 16 digits).map fun n => (Char.ofNat n, cs.drop (digits.length + 1))
  | c :: cs => some (c, cs)
  | [] => none

theorem read?_codePoint (c : Char) (cs : List Char) : read? (codePoint c ++ cs) = some (c, cs) := by
  have hdigits :
      (hexDigits c.toNat ++ '\x7d' :: cs).takeWhile (· != '\x7d') = hexDigits c.toNat := by
    rw [List.takeWhile_append_of_pos fun d hd =>
      bne_iff_ne.mpr (hexDigits_forall_ne c.toNat d hd).1]
    simp
  have hvalue : Decimal.valueIn? 16 (hexDigits c.toNat) = some c.toNat :=
    Decimal.valueIn?_toDigits (by decide) (Nat.le_refl 16) c.toNat
  have hsplit :
      codePoint c ++ cs = '\\' :: 'u' :: '\x7b' :: (hexDigits c.toNat ++ '\x7d' :: cs) := by
    simp [codePoint]
  rw [hsplit, read?, hdigits, hvalue]
  simp

/-- **One character is written and read back**, whatever follows. -/
theorem read?_encodeChar (c : Char) (cs : List Char) :
    read? (encodeChar c ++ cs) = some (c, cs) := by
  rcases encodeChar_cases c with ⟨letter, hmem, h⟩ | h | ⟨hne, h⟩
  · rw [h]
    simp only [shortEscapes, List.mem_cons, Prod.mk.injEq, List.not_mem_nil, or_false] at hmem
    rcases hmem with ⟨rfl, rfl⟩ | ⟨rfl, rfl⟩ | ⟨rfl, rfl⟩ | ⟨rfl, rfl⟩ | ⟨rfl, rfl⟩ | ⟨rfl, rfl⟩ <;>
      rfl
  · rw [h, read?_codePoint]
  · have hslash : c ≠ '\\' := (hne ('\\', '\\') (by decide)).symm
    rw [h, List.singleton_append, read?] <;> simp [hslash]

/-! ### Whole texts -/

/-- The characters up to the closing quote, and what follows it, are determined. -/
theorem flatMap_encodeChar_inj (h : cs.flatMap encodeChar ++ '"' :: us =
    ds.flatMap encodeChar ++ '"' :: vs) : cs = ds ∧ us = vs := by
  have hquote : ∀ (c : Char) (as bs us : List Char), encodeChar c ++ as ++ bs ≠ '"' :: us := by
    intro c as bs us heq
    obtain ⟨d, w, hw, hne⟩ := exists_encodeChar c
    rw [hw] at heq
    exact hne (List.cons.inj heq).1
  induction cs generalizing ds with
  | nil =>
    cases ds with
    | nil => exact ⟨rfl, (List.cons.inj h).2⟩
    | cons d ds => exact absurd h.symm (hquote d _ _ us)
  | cons c cs ih =>
    cases ds with
    | nil => exact absurd h (hquote c _ _ vs)
    | cons d ds =>
      rw [List.flatMap_cons, List.flatMap_cons, List.append_assoc, List.append_assoc] at h
      have hread := congrArg read? h
      rw [read?_encodeChar, read?_encodeChar] at hread
      obtain ⟨hc, hrest⟩ := Prod.mk.inj (Option.some.inj hread)
      obtain ⟨htail, hbehind⟩ := ih hrest
      exact ⟨by rw [hc, htail], hbehind⟩

variable {s t : String}

theorem toList_encode (s : String) :
    (encode s).toList = '"' :: (s.toList.flatMap encodeChar ++ ['"']) := by
  rw [encode, String.toList_ofList, List.cons_append]

/-- **A quoted text is determined by what begins with it.** -/
theorem encode_append_inj (h : (encode s).toList ++ us = (encode t).toList ++ vs) :
    s = t ∧ us = vs := by
  simp only [toList_encode, List.cons_append, List.append_assoc, List.nil_append,
    List.cons.injEq, true_and] at h
  obtain ⟨hs, hrest⟩ := flatMap_encodeChar_inj h
  exact ⟨String.toList_inj.mp hs, hrest⟩

/-- A quoted text stands on one line. -/
theorem feed_notMem_encode (s : String) : '\n' ∉ (encode s).toList := by
  rw [toList_encode]
  intro h
  rcases List.mem_cons.mp h with h | h
  · exact absurd h (by decide)
  rcases List.mem_append.mp h with h | h
  · obtain ⟨c, -, hc⟩ := List.mem_flatMap.mp h
    exact feed_notMem_encodeChar c hc
  · exact absurd h (by decide)

end Quoted

end Highlighting
