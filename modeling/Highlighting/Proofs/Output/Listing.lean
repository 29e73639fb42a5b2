/-
  Highlighting/Proofs/Output/Listing.lean
  =======================================
  **The token listing is one line for each token and loses nothing.**

  A line names the category up to its tab, and the text from quote to quote; so
  it determines its token, also in front of further lines (`line_append_inj`).
  The only line feed of a line is its last character, whatever the text holds.
-/
import Highlighting.Output.Listing
import Highlighting.Proofs.Scope
import Highlighting.Proofs.Text.Quoted

namespace Highlighting

namespace Output.Listing

variable {t u : Token} {us vs : List Char}

theorem category_forall_ne (t : Token) : ∀ c ∈ t.category.toList, c ≠ '\t' ∧ c ≠ '\n' :=
  Scope.categoryName_forall_ne t.scope

theorem toList_line (t : Token) :
    (line t).toList = t.category.toList ++ '\t' :: ((Quoted.encode t.text).toList ++ ['\n']) := by
  simp [line]

theorem takeWhile_line (t : Token) (us : List Char) :
    ((line t).toList ++ us).takeWhile (· != '\t') = t.category.toList := by
  rw [toList_line, List.append_assoc, List.takeWhile_append_of_pos fun c hc =>
    bne_iff_ne.mpr (category_forall_ne t c hc).1]
  simp

/-- **A line is determined by what begins with it.** -/
theorem line_append_inj (h : (line t).toList ++ us = (line u).toList ++ vs) : t = u ∧ us = vs := by
  have hcategory : t.category = u.category := by
    have htake := congrArg (List.takeWhile (· != '\t')) h
    rw [takeWhile_line, takeWhile_line] at htake
    exact String.toList_inj.mp htake
  rw [toList_line, toList_line, hcategory, List.append_assoc, List.append_assoc,
    List.append_cancel_left_eq, List.cons_append, List.cons_append, List.append_assoc,
    List.append_assoc] at h
  obtain ⟨htext, hrest⟩ := Quoted.encode_append_inj (List.cons.inj h).2
  have hscope : t.scope = u.scope := Scope.categoryName_injective hcategory
  refine ⟨?_, (List.cons.inj hrest).2⟩
  cases t
  cases u
  simp_all

theorem count_line (t : Token) : (line t).toList.count '\n' = 1 := by
  have hcategory : (t.category.toList).count '\n' = 0 :=
    List.count_eq_zero.mpr fun h => (category_forall_ne t '\n' h).2 rfl
  have htext : (Quoted.encode t.text).toList.count '\n' = 0 :=
    List.count_eq_zero.mpr (Quoted.feed_notMem_encode t.text)
  rw [toList_line, List.count_append, hcategory, List.count_cons, List.count_append, htext]
  rfl

theorem count_lines (ts : List Token) :
    (ts.flatMap fun t => (line t).toList).count '\n' = ts.length := by
  induction ts with
  | nil => rfl
  | cons t ts ih =>
    rw [List.flatMap_cons, List.count_append, count_line, ih, List.length_cons, Nat.add_comm]

/-- Lines one after the other determine the tokens. -/
theorem lines_injective :
    Function.Injective fun ts : List Token => ts.flatMap fun t => (line t).toList := by
  have hne : ∀ t us, (line t).toList ++ us ≠ [] := by
    intro t us
    simp [toList_line]
  intro ts
  induction ts with
  | nil =>
    intro us h
    cases us with
    | nil => rfl
    | cons u us => exact absurd h.symm (hne u _)
  | cons t ts ih =>
    intro us h
    cases us with
    | nil => exact absurd h (hne t _)
    | cons u us =>
      obtain ⟨rfl, hrest⟩ := line_append_inj h
      rw [ih hrest]

theorem toList_render (h : Highlighted) :
    (render h).toList = h.tokens.flatMap fun t => (line t).toList := by
  rw [render, String.toList_join, List.flatMap_map]

/-- **A listing has one line for each token, and determines the tokens**, whatever characters
stand in their texts. -/
theorem listing_determines_tokens (h k : Highlighted) :
    (render h).toList.count '\n' = h.tokens.length ∧
      (render h = render k ↔ h.tokens = k.tokens) := by
  refine ⟨?_, ?_⟩
  · rw [toList_render, count_lines]
  · rw [← String.toList_inj, toList_render, toList_render]
    exact lines_injective.eq_iff

end Output.Listing

end Highlighting
