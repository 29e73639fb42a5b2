/-
  Highlighting/Proofs/NumberLiteral/Bytes.lean
  ============================================
  **Literals in a text are those in its bytes.**

  All that the search looks at is ASCII: the characters of a literal and those
  that continue a word.  In UTF-8 such a character is one byte, and no other
  character has a byte of this kind.  So whoever reads the bytes, each taken as
  the character with its code (`Source.bytes`), finds the same literals, with
  their ends counted in bytes (`matchAt?_bytes`).
-/
import Highlighting.Proofs.NumberLiteral.Seam
import Highlighting.Proofs.Text.Source

namespace Highlighting

variable {text : Source} {pos p q e : Nat} {c : Char} {w cs : List Char} {kind : Char → Bool}

namespace Source

/-! ### The bytes of a text -/

def bytesOf (c : Char) : List Char := (String.utf8EncodeChar c).map Char.ofUInt8

/-- The bytes of a text, each as the character with its code. -/
def bytes (text : Source) : Source := (text.toList.flatMap bytesOf).toArray

theorem toNat_ofUInt8 (b : UInt8) : (Char.ofUInt8 b).toNat = b.toNat := rfl

theorem bytesOf_of_lt (h : c.toNat < 128) : bytesOf c = [c] := by
  have hval : c.val.toNat < 128 := h
  have hsize : c.utf8Size = 1 := by
    rw [Char.utf8Size_eq_one_iff, UInt32.le_iff_toNat_le]
    exact Nat.le_of_lt_succ h
  have hbyte : Char.ofUInt8 c.val.toUInt8 = c := by
    rw [← Char.toNat_inj, toNat_ofUInt8, UInt32.toNat_toUInt8]
    exact Nat.mod_eq_of_lt (Nat.lt_trans hval (by decide))
  rw [bytesOf, String.utf8EncodeChar_eq_singleton hsize, List.map_singleton, hbyte]

/-- A character that is not ASCII is written with bytes that are not. -/
theorem le_of_mem_bytesOf (h : 128 ≤ c.toNat) : ∀ d ∈ bytesOf c, 128 ≤ d.toNat := by
  have hval : ¬ c.val.toNat ≤ 127 := Nat.not_le_of_lt h
  have hbytes : ∀ b ∈ String.utf8EncodeChar c, 128 ≤ b.toNat := by
    intro b hb
    simp only [String.utf8EncodeChar, if_neg hval] at hb
    split at hb
    · simp only [List.mem_cons, List.not_mem_nil, or_false] at hb
      rcases hb with rfl | rfl <;> rw [UInt8.toNat_ofNat'] <;> omega
    · split at hb
      · simp only [List.mem_cons, List.not_mem_nil, or_false] at hb
        rcases hb with rfl | rfl | rfl <;> rw [UInt8.toNat_ofNat'] <;> omega
      · simp only [List.mem_cons, List.not_mem_nil, or_false] at hb
        rcases hb with rfl | rfl | rfl | rfl <;> rw [UInt8.toNat_ofNat'] <;> omega
  intro d hd
  obtain ⟨b, hb, rfl⟩ := List.mem_map.mp hd
  exact hbytes b hb

theorem length_bytesOf (c : Char) : (bytesOf c).length = c.utf8Size := by
  rw [bytesOf, List.length_map, String.length_utf8EncodeChar]

theorem length_flatMap_bytesOf (text : Source) (pos : Nat) :
    ((text.toList.take pos).flatMap bytesOf).length = text.byteOffset pos := by
  have hsum : ∀ (cs : List Char) (n : Nat),
      cs.foldl (fun n c => n + c.utf8Size) n = n + (cs.flatMap bytesOf).length := by
    intro cs
    induction cs with
    | nil => exact fun n => rfl
    | cons c cs ih =>
      intro n
      rw [List.foldl_cons, ih, List.flatMap_cons, List.length_append, length_bytesOf, Nat.add_assoc]
  rw [byteOffset, hsum, Nat.zero_add]

theorem bytes_eq_append (text : Source) (pos : Nat) :
    text.bytes.toList =
      (text.toList.take pos).flatMap bytesOf ++ (text.toList.drop pos).flatMap bytesOf := by
  rw [← List.flatMap_append, List.take_append_drop]
  rfl

/-- The bytes from a position on are those of the characters from it on. -/
theorem drop_bytes (text : Source) (pos : Nat) :
    text.bytes.toList.drop (text.byteOffset pos) = (text.toList.drop pos).flatMap bytesOf := by
  rw [bytes_eq_append text pos, ← length_flatMap_bytesOf, List.drop_left]

theorem take_bytes (text : Source) (pos : Nat) :
    text.bytes.toList.take (text.byteOffset pos) = (text.toList.take pos).flatMap bytesOf := by
  rw [bytes_eq_append text pos, ← length_flatMap_bytesOf, List.take_left]

theorem byteOffset_le_size (text : Source) (pos : Nat) : text.byteOffset pos ≤ text.bytes.size := by
  rw [← length_flatMap_bytesOf, ← take_bytes, List.length_take, Array.length_toList]
  exact Nat.min_le_right _ _

/-! ### What is around a position -/

/-- Whether a character is of an ASCII kind is seen by any of its bytes. -/
theorem kind_of_mem_bytesOf (hkind : ∀ c, kind c = true → c.toNat < 128) {d : Char}
    (hd : d ∈ bytesOf c) : kind d = kind c := by
  rcases Nat.lt_or_ge c.toNat 128 with hlt | hge
  · rw [bytesOf_of_lt hlt, List.mem_singleton] at hd
    rw [hd]
  · have hnone : ∀ e : Char, 128 ≤ e.toNat → kind e = false := by
      intro e he
      rw [← Bool.not_eq_true]
      intro h
      exact absurd (hkind e h) (Nat.not_lt.mpr he)
    rw [hnone c hge, hnone d (le_of_mem_bytesOf hge d hd)]

theorem bytesOf_ne_nil (c : Char) : bytesOf c ≠ [] := by
  rw [ne_eq, ← List.length_eq_zero_iff, length_bytesOf]
  exact Nat.ne_of_gt (Char.utf8Size_pos c)

theorem any_bytes (hkind : ∀ c, kind c = true → c.toNat < 128) (text : Source) (pos : Nat) :
    (text.bytes[text.byteOffset pos]?).any kind = (text[pos]?).any kind := by
  have hhead : ∀ cs : List Char, ((cs.flatMap bytesOf).head?).any kind = cs.head?.any kind := by
    intro cs
    cases cs with
    | nil => rfl
    | cons c cs =>
      obtain ⟨d, ds, hds⟩ := List.exists_cons_of_ne_nil (bytesOf_ne_nil c)
      have hd : d ∈ bytesOf c := by
        rw [hds]
        exact List.mem_cons_self
      rw [List.flatMap_cons, hds]
      exact kind_of_mem_bytesOf hkind hd
  rw [← Array.getElem?_toList, ← Array.getElem?_toList, ← List.head?_drop, ← List.head?_drop,
    drop_bytes, hhead]

theorem before?_eq (h : pos ≤ text.size) : text.before? pos = (text.toList.take pos).getLast? := by
  cases pos with
  | zero => rfl
  | succ n =>
    rw [before?, List.take_add_one, Array.getElem?_toList, Array.getElem?_eq_getElem h,
      Option.toList_some, List.getLast?_concat]

theorem any_before_bytes (hkind : ∀ c, kind c = true → c.toNat < 128) (h : pos ≤ text.size) :
    (text.bytes.before? (text.byteOffset pos)).any kind = (text.before? pos).any kind := by
  have hlast : ∀ cs : List Char,
      ((cs.flatMap bytesOf).getLast?).any kind = cs.getLast?.any kind := by
    intro cs
    rcases List.eq_nil_or_concat' cs with rfl | ⟨cs, c, rfl⟩
    · rfl
    · obtain ⟨ds, d, hds⟩ := (List.eq_nil_or_concat' (bytesOf c)).resolve_left (bytesOf_ne_nil c)
      have hd : d ∈ bytesOf c := by
        rw [hds]
        exact List.mem_append_right _ (List.mem_singleton.mpr rfl)
      rw [List.flatMap_append, List.flatMap_singleton, hds, ← List.append_assoc,
        List.getLast?_concat, List.getLast?_concat]
      exact kind_of_mem_bytesOf hkind hd
  rw [before?_eq h, before?_eq (byteOffset_le_size text pos), take_bytes, hlast]

/-! ### Words of ASCII characters -/

theorem isPrefix_flatMap_iff (hw : ∀ c ∈ w, c.toNat < 128) :
    w <+: cs.flatMap bytesOf ↔ w <+: cs := by
  induction w generalizing cs with
  | nil => simp
  | cons a w ih =>
    cases cs with
    | nil => simp
    | cons c cs =>
      rcases Nat.lt_or_ge c.toNat 128 with hlt | hge
      · rw [List.flatMap_cons, bytesOf_of_lt hlt, List.singleton_append, List.cons_prefix_cons,
          List.cons_prefix_cons, ih fun d hd => hw d (List.mem_cons_of_mem _ hd)]
      · -- the word and the text already differ in one character
        have ha : a.toNat < 128 := hw a List.mem_cons_self
        obtain ⟨d, ds, hds⟩ := List.exists_cons_of_ne_nil (bytesOf_ne_nil c)
        have hd : 128 ≤ d.toNat := by
          apply le_of_mem_bytesOf hge
          rw [hds]
          exact List.mem_cons_self
        rw [List.flatMap_cons, hds, List.cons_append, List.cons_prefix_cons, List.cons_prefix_cons]
        constructor
        · rintro ⟨rfl, -⟩
          omega
        · rintro ⟨rfl, -⟩
          omega

theorem byteOffset_add (hw : ∀ c ∈ w, c.toNat < 128) (h : w <+: text.toList.drop pos) :
    text.byteOffset (pos + w.length) = text.byteOffset pos + w.length := by
  have hlength : ∀ w : List Char, (∀ c ∈ w, c.toNat < 128) → w.flatMap bytesOf = w := by
    intro w hw
    induction w with
    | nil => rfl
    | cons a w ih =>
      rw [List.flatMap_cons, bytesOf_of_lt (hw a List.mem_cons_self),
        ih fun c hc => hw c (List.mem_cons_of_mem _ hc)]
      rfl
  rw [← length_flatMap_bytesOf, ← length_flatMap_bytesOf, List.take_add,
    ← List.prefix_iff_eq_take.mp h, List.flatMap_append, List.length_append, hlength w hw]

end Source

namespace NumberLiteral

open CharClass (isAsciiDigit isHexDigit)

variable {l : Language Char} {stop : Nat}

theorem reads_iff_isPrefix :
    Reads text l p q ↔ p ≤ text.size ∧ ∃ w ∈ l, w <+: text.toList.drop p ∧ q = p + w.length := by
  have hchars : text.chars ⟨p, q⟩ = (text.toList.drop p).take (q - p) := by
    rw [Source.chars, Array.toList_extract, List.extract_eq_take_drop]
  constructor
  · rintro ⟨hle, hsize, hmem⟩
    refine ⟨Nat.le_trans hle hsize, text.chars ⟨p, q⟩, hmem, ?_, ?_⟩
    · rw [hchars]
      exact List.take_prefix _ _
    · rw [Reads.length_chars hsize]
      omega
  · rintro ⟨hsize, w, hw, hprefix, rfl⟩
    have hlength : w.length ≤ text.size - p := by
      have hle := hprefix.length_le
      rwa [List.length_drop, Array.length_toList] at hle
    refine ⟨Nat.le_add_right _ _, by omega, ?_⟩
    rw [hchars, Nat.add_sub_cancel_left, ← List.prefix_iff_eq_take.mp hprefix]
    exact hw

/-- Words of ASCII characters are read in the bytes where they are read in the text. -/
theorem reads_bytes_iff (hl : ∀ w ∈ l, ∀ c ∈ w, c.toNat < 128) (hp : p ≤ text.size) :
    Reads text.bytes l (text.byteOffset p) e ↔ ∃ q, e = text.byteOffset q ∧ Reads text l p q := by
  simp only [reads_iff_isPrefix, text.drop_bytes, text.byteOffset_le_size, hp, true_and]
  constructor
  · rintro ⟨w, hw, hprefix, rfl⟩
    have hprefix' := (Source.isPrefix_flatMap_iff (hl w hw)).mp hprefix
    exact ⟨p + w.length, (Source.byteOffset_add (hl w hw) hprefix').symm, w, hw, hprefix', rfl⟩
  · rintro ⟨q, rfl, w, hw, hprefix, rfl⟩
    exact ⟨w, hw, (Source.isPrefix_flatMap_iff (hl w hw)).mpr hprefix,
      Source.byteOffset_add (hl w hw) hprefix⟩

/-! ### Literals -/

theorem lt_of_le_z (h : c ≤ 'z') : c.toNat < 128 :=
  Nat.lt_of_le_of_lt (Char.le_def.mp h) (by decide)

theorem lt_of_isAsciiDigit (h : isAsciiDigit c = true) : c.toNat < 128 := by
  have hz : '9' ≤ 'z' := by decide
  simp only [isAsciiDigit, Bool.and_eq_true, decide_eq_true_eq] at h
  exact lt_of_le_z (Char.le_trans h.2 hz)

theorem lt_of_continuesWord (h : continuesWord c = true) : c.toNat < 128 := by
  have hZ : 'Z' ≤ 'z' := by decide
  simp only [continuesWord, CharClass.isAsciiWord, CharClass.isAsciiLetter, Bool.or_eq_true,
    Bool.and_eq_true, decide_eq_true_eq, beq_iff_eq] at h
  rcases h with (((⟨-, hle⟩ | ⟨-, hle⟩) | hdigit) | rfl) | rfl
  · exact lt_of_le_z hle
  · exact lt_of_le_z (Char.le_trans hle hZ)
  · exact lt_of_isAsciiDigit hdigit
  · decide
  · decide

/-- All that does not break a literal is ASCII. -/
theorem lt_of_breaks_eq_false (h : breaks c = false) : c.toNat < 128 := by
  simp only [breaks, Bool.not_eq_false', Bool.or_eq_true, beq_iff_eq] at h
  rcases h with ((hword | rfl) | rfl) | rfl
  · exact lt_of_continuesWord hword
  · decide
  · decide
  · decide

theorem lt_of_mem_unsigned (hw : w ∈ unsigned) (hc : c ∈ w) : c.toNat < 128 := by
  apply lt_of_breaks_eq_false
  rw [← Bool.not_eq_true]
  intro hbreaks
  exact spares_unsigned hbreaks w hw hc

theorem bodyStart_bytes (text : Source) (p : Nat) :
    bodyStart text.bytes (text.byteOffset p) = text.byteOffset (bodyStart text p) := by
  have hminus : ∀ (u : Source) (q : Nat), (u[q]? == some '-') = (u[q]?).any (· == '-') := by
    intro u q
    cases u[q]? <;> rfl
  rw [bodyStart, bodyStart, hminus, hminus,
    Source.any_bytes fun d hd => by rw [beq_iff_eq.mp hd]; decide]
  split
  · next h =>
    have hlt : p < text.size := lt_size_of_any h
    obtain ⟨d, hd, h⟩ := (Option.any_eq_true _ _).mp h
    have hprefix : ['-'] <+: text.toList.drop p := by
      rw [Array.getElem?_eq_getElem hlt, Option.some.injEq] at hd
      rw [List.drop_eq_getElem_cons hlt, List.cons_prefix_cons, Array.getElem_toList, hd]
      exact ⟨(beq_iff_eq.mp h).symm, List.nil_prefix⟩
    have hascii : ∀ c ∈ ['-'], c.toNat < 128 := by simp
    exact (Source.byteOffset_add hascii hprefix).symm
  · rfl

theorem accepts_bytes_iff (hp : p ≤ text.size) :
    Accepts text.bytes (text.byteOffset p) e ↔ ∃ q, e = text.byteOffset q ∧ Accepts text p q := by
  have hfresh : startsFresh text.bytes (text.byteOffset p) ↔ startsFresh text p := by
    simp only [startsFresh, startsWord, Source.any_bytes (fun _ => lt_of_isAsciiDigit),
      Source.any_before_bytes (fun _ => lt_of_continuesWord) hp]
  have hends : ∀ q, endsLiteral text.bytes (text.byteOffset q) = endsLiteral text q := by
    intro q
    simp only [endsLiteral, Source.any_bytes (fun _ => lt_of_continuesWord)]
  have hreads := reads_bytes_iff (e := e) (fun _ hw _ hc => lt_of_mem_unsigned hw hc) hp
  constructor
  · rintro ⟨h, hfresh', hends'⟩
    obtain ⟨q, rfl, h'⟩ := hreads.mp h
    exact ⟨q, rfl, h', hfresh.mp hfresh', by rwa [hends] at hends'⟩
  · rintro ⟨q, rfl, h, hfresh', hends'⟩
    exact ⟨hreads.mpr ⟨q, rfl, h⟩, hfresh.mpr hfresh', by rwa [hends]⟩

/-- Where the longest literal is none, no literal may be read. -/
theorem matchAt?_eq_none_iff :
    matchAt? text pos = none ↔ ∀ e, ¬ Accepts text (bodyStart text pos) e := by
  constructor
  · intro hnone e he
    classical
    -- the longest of those that may be read would be found
    have hlongest : Accepts text (bodyStart text pos)
        (Nat.findGreatest (Accepts text (bodyStart text pos)) text.size) :=
      Nat.findGreatest_spec he.reads.le_size he
    have hfound := matchAt?_eq_some_iff.mpr
      ⟨hlongest, fun e' he' => Nat.le_findGreatest he'.reads.le_size he'⟩
    rw [hnone] at hfound
    cases hfound
  · intro h
    cases hfound : matchAt? text pos with
    | none => rfl
    | some stop => exact absurd (matchAt?_eq_some_iff.mp hfound).1 (h stop)

theorem le_size_of_bodyStart (hpos : pos ≤ text.size) : bodyStart text pos ≤ text.size := by
  rw [bodyStart]
  split
  · next h => exact lt_size_of_beq h
  · exact hpos

theorem matchAt?_of_size_le (hpos : text.size ≤ pos) : matchAt? text pos = none := by
  cases h : matchAt? text pos with
  | none => rfl
  | some stop =>
    have hstop := within_of_matchAt? h
    omega

/-- **The literals of a text are those of its bytes.** -/
theorem matchAt?_bytes (text : Source) (pos : Nat) :
    matchAt? text.bytes (text.byteOffset pos) = (matchAt? text pos).map text.byteOffset := by
  rcases Nat.lt_or_ge text.size pos with hgt | hpos
  · -- beyond the text there is nothing to find
    have hall : text.byteOffset pos = text.bytes.size := by
      rw [← Source.length_flatMap_bytesOf, List.take_of_length_le (Nat.le_of_lt hgt)]
      rfl
    rw [hall, matchAt?_size, matchAt?_of_size_le (Nat.le_of_lt hgt)]
    rfl
  · have haccepts : ∀ {e : Nat}, Accepts text.bytes (bodyStart text.bytes (text.byteOffset pos)) e ↔
        ∃ q, e = text.byteOffset q ∧ Accepts text (bodyStart text pos) q := by
      intro e
      rw [bodyStart_bytes, accepts_bytes_iff (le_size_of_bodyStart hpos)]
    cases hfound : matchAt? text pos with
    | none =>
      rw [Option.map_none, matchAt?_eq_none_iff]
      intro e he
      obtain ⟨q, -, hq⟩ := haccepts.mp he
      exact matchAt?_eq_none_iff.mp hfound q hq
    | some stop =>
      obtain ⟨hstop, hlongest⟩ := matchAt?_eq_some_iff.mp hfound
      rw [Option.map_some, matchAt?_eq_some_iff]
      refine ⟨haccepts.mpr ⟨stop, rfl, hstop⟩, fun e he => ?_⟩
      obtain ⟨q, rfl, hq⟩ := haccepts.mp he
      have hq' : q ∈ Set.Iic text.size := hq.reads.le_size
      have hstop' : stop ∈ Set.Iic text.size := hstop.reads.le_size
      exact (Source.strictMonoOn_byteOffset text).le_iff_le hq' hstop' |>.mpr (hlongest q hq)

end NumberLiteral

end Highlighting
