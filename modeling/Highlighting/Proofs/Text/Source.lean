/-
  Highlighting/Proofs/Text/Source.lean
  ====================================
  **Positions of a text, and texts that go on.**

  A position counts characters, and whoever counts bytes reads it as the number of
  bytes in front (`Source.byteOffset`).  These numbers are in the order of the
  positions (`strictMonoOn_byteOffset`), and every one of them lies between two
  characters of the string, or at an end of it (`isBoundary_of_le`).

  What stands in front of the seam of `u ++ v` is what stands in `u`, and what
  stands behind it is what stands in `v`.  Only who looks back from the start of
  `v` sees something new, which is the character that `u` ends with.
-/
import Mathlib.Order.Interval.Set.Defs
import Mathlib.Order.Monotone.Basic
import Highlighting.Text.Source

namespace Highlighting

/-! ### Positions are the places between characters -/

namespace Source

variable {text : Source} {pos : Nat}

theorem byteOffset_eq (text : Source) (pos : Nat) :
    text.byteOffset pos = (String.ofList (text.toList.take pos)).utf8ByteSize := by
  have hsum : ∀ (cs : List Char) (n : Nat),
      cs.foldl (fun n c => n + c.utf8Size) n = n + (String.ofList cs).utf8ByteSize := by
    intro cs
    induction cs with
    | nil => exact fun n => rfl
    | cons c cs ih =>
      intro n
      have hone : (String.ofList [c]).utf8ByteSize = c.utf8Size := by
        rw [← String.singleton_eq_ofList, String.utf8ByteSize_singleton]
      rw [List.foldl_cons, ih, ← List.singleton_append, String.ofList_append,
        String.utf8ByteSize_append, hone, Nat.add_assoc]
  rw [byteOffset, hsum, Nat.zero_add]

theorem byteOffset_size (s : String) :
    (ofString s).byteOffset (ofString s).size = s.utf8ByteSize := by
  rw [byteOffset_eq, ← Array.length_toList, List.take_length]
  simp [ofString]

theorem byteOffset_lt_succ (h : pos < text.size) :
    text.byteOffset pos < text.byteOffset (pos + 1) := by
  have htake : text.toList.take (pos + 1) = text.toList.take pos ++ [text[pos]] := by
    rw [List.take_add_one, Array.getElem?_toList, Array.getElem?_eq_getElem h, Option.toList_some]
  rw [byteOffset, byteOffset, htake, List.foldl_append]
  exact Nat.lt_add_of_pos_right (Char.utf8Size_pos _)

/-- No character takes less than a byte. -/
theorem le_byteOffset (h : pos ≤ text.size) : pos ≤ text.byteOffset pos := by
  induction pos with
  | zero => exact Nat.zero_le _
  | succ pos ih => exact Nat.lt_of_le_of_lt (ih (Nat.le_of_succ_le h)) (byteOffset_lt_succ h)

/-- **Further on in the text, more bytes are in front.** -/
theorem strictMonoOn_byteOffset (text : Source) :
    StrictMonoOn text.byteOffset (Set.Iic text.size) := by
  intro p _ q hq hlt
  induction q, hlt using Nat.le_induction with
  | base => exact byteOffset_lt_succ hq
  | succ q _ ih =>
    have hlt : q < text.size := hq
    exact Nat.lt_trans (ih (Set.mem_Iic.mpr (Nat.le_of_lt hlt))) (byteOffset_lt_succ hlt)

/-- A position of the text, which cuts no character of the string in two. -/
structure IsBoundary (s : String) (pos : Nat) : Prop where
  le : pos ≤ (ofString s).size
  valid : String.Pos.Raw.IsValid s ⟨(ofString s).byteOffset pos⟩

theorem isBoundary_of_le {s : String} (h : pos ≤ (ofString s).size) : IsBoundary s pos := by
  refine ⟨h, String.Pos.Raw.isValid_iff_exists_take_toList.mpr ⟨pos, ?_⟩⟩
  exact byteOffset_eq (ofString s) pos

end Source

/-! ### A text that goes on behind a character -/

variable {u v : Source} {c : Char} {p q : Nat}

/-- The stretch so much further on. -/
def Span.shift (n : Nat) (s : Span) : Span := ⟨n + s.start, n + s.stop⟩

@[simp] theorem Span.isEmpty_shift (n : Nat) (s : Span) : (s.shift n).isEmpty = s.isEmpty := by
  simp [Span.isEmpty, Span.shift]

namespace Source

theorem ofString_append (s t : String) : ofString (s ++ t) = ofString s ++ ofString t := by
  rw [ofString, String.toList_append, ← List.append_toArray]
  rfl

/-- The text ends with the character. -/
def EndsWith (c : Char) (u : Source) : Prop := u[u.size - 1]? = some c

theorem EndsWith.size_pos (h : EndsWith c u) : 0 < u.size := by
  have hlt := (Array.getElem?_eq_some_iff.mp h).1
  omega

theorem getElem?_append_add (u v : Source) (p : Nat) : (u ++ v)[u.size + p]? = v[p]? := by
  rw [Array.getElem?_append_right (Nat.le_add_right _ _), Nat.add_sub_cancel_left]

theorem before?_append (hp : p ≤ u.size) : before? (u ++ v) p = u.before? p := by
  cases p with
  | zero => rfl
  | succ p => exact Array.getElem?_append_left hp

theorem before?_append_add (hend : EndsWith c u) (v : Source) (p : Nat) :
    before? (u ++ v) (u.size + p) = if p = 0 then some c else v.before? p := by
  cases p with
  | zero =>
    obtain ⟨n, hn⟩ := Nat.exists_eq_succ_of_ne_zero (Nat.ne_of_gt hend.size_pos)
    have hlast : u[n]? = some c := by
      have hend' : u[u.size - 1]? = some c := hend
      rwa [hn] at hend'
    rw [if_pos rfl, Nat.add_zero, before?_append (Nat.le_refl _), hn]
    exact hlast
  | succ p =>
    rw [if_neg (Nat.succ_ne_zero p)]
    exact getElem?_append_add u v p

/-- A stretch in front of the seam. -/
theorem extract_append (hq : q ≤ u.size) : (u ++ v).extract p q = u.extract p q := by
  rw [Array.extract_append, Nat.sub_eq_zero_of_le hq,
    Array.extract_empty_of_stop_le_start (Nat.zero_le _), Array.append_empty]

/-- A stretch behind the seam. -/
theorem extract_append_add (u v : Source) (p q : Nat) :
    (u ++ v).extract (u.size + p) (u.size + q) = v.extract p q := by
  rw [Array.extract_append, Nat.add_sub_cancel_left, Nat.add_sub_cancel_left,
    Array.extract_empty_of_size_le_start (Nat.le_add_right _ _), Array.empty_append]

/-- A text between two others. -/
theorem extract_between (front u rest : Source) :
    (front ++ (u ++ rest)).extract front.size (front.size + u.size) = u := by
  have hshift := extract_append_add front (u ++ rest) 0 u.size
  rw [Nat.add_zero] at hshift
  rw [hshift, extract_append (Nat.le_refl _), Array.extract_size]

theorem chars_append (hq : q ≤ u.size) : chars (u ++ v) ⟨p, q⟩ = u.chars ⟨p, q⟩ :=
  congrArg Array.toList (extract_append hq)

theorem chars_append_add (u v : Source) (p q : Nat) :
    chars (u ++ v) ⟨u.size + p, u.size + q⟩ = v.chars ⟨p, q⟩ :=
  congrArg Array.toList (extract_append_add u v p q)

end Source

end Highlighting
