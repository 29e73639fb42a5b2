/-
  Highlighting/Proofs/Regex/Starts.lean
  =====================================
  **What a match can start with.**

  An expression that is not nullable takes at least one character
  (`Regex.lt_of_mem_ends`), and the first one it takes is from one of the sets
  that `Regex.starts` lists (`Regex.exists_start_of_mem_ends`).  So a look at
  one character of a text rules out most of the patterns of a grammar there.
-/
import Highlighting.Proofs.Pattern

namespace Highlighting

open Search

variable {text : Source} {pos stop : Nat}

namespace Regex

theorem lt_of_mem_ends (r : Regex) (hr : r.nullable = false) (hpos : pos ≤ text.size)
    (h : stop ∈ r.ends text pos) : pos < stop := by
  induction r generalizing pos stop with
  | empty => cases hr
  | anchor a => cases hr
  | set s =>
    rw [ends] at h
    split at h
    · split at h
      · rw [List.mem_singleton] at h
        omega
      · cases h
    · cases h
  | seq first second ih1 ih2 =>
    obtain ⟨middle, hmiddle, hstop⟩ := List.mem_flatMap.mp h
    have h1 := first.within_of_mem_ends hpos hmiddle
    have h2 := second.within_of_mem_ends h1.2 hstop
    rw [nullable, Bool.and_eq_false_iff] at hr
    rcases hr with hr | hr
    · have hlt := ih1 hr hpos hmiddle
      omega
    · have hlt := ih2 hr h1.2 hstop
      omega
  | alt first second ih1 ih2 =>
    rw [nullable, Bool.or_eq_false_iff] at hr
    rcases List.mem_append.mp h with h | h
    · exact ih1 hr.1 hpos h
    · exact ih2 hr.2 hpos h
  | group index body ih => exact ih hr hpos h
  | rep greedy least most body ih =>
    rw [nullable, Bool.or_eq_false_iff, beq_eq_false_iff_ne] at hr
    obtain ⟨hleast, hbody⟩ := hr
    obtain ⟨p, hp, hstop⟩ := List.mem_flatMap.mp h
    have hstep : ∀ q, pos < q ∧ q ≤ text.size → ∀ q' ∈ body.ends text q,
        pos < q' ∧ q' ≤ text.size := by
      intro q hq q' hq'
      have hwithin := body.within_of_mem_ends hq.2 hq'
      omega
    -- the first iteration is one of those that there have to be
    obtain ⟨n, rfl⟩ := Nat.exists_eq_succ_of_ne_zero hleast
    have hp' : pos < p ∧ p ≤ text.size := by
      rw [times] at hp
      split at hp
      · cases hp
      · refine forall_mem_times hstep n _ (fun q hq => ?_) p hp
        rw [List.flatMap_singleton] at hq
        exact ⟨ih hbody hpos hq, (body.within_of_mem_ends hpos hq).2⟩
    exact (forall_mem_iterations hstep greedy _ p [] hp' (by simp) stop hstop).1

/-- The character at a position is in one of the sets. -/
def Meets (text : Source) (sets : List CharSet) (pos : Nat) : Prop :=
  ∃ c, text[pos]? = some c ∧ ∃ s ∈ sets, s.contains c = true

theorem Meets.mono {sets sets' : List CharSet} (h : Meets text sets pos) (hsub : sets ⊆ sets') :
    Meets text sets' pos := by
  obtain ⟨c, hc, s, hs, hcontains⟩ := h
  exact ⟨c, hc, s, hsub hs, hcontains⟩

/-- What may follow is among the sets that a match may start with, when it may be empty. -/
theorem subset_starts (r : Regex) (hr : r.nullable = true) (follow : List CharSet) :
    follow ⊆ r.starts follow := by
  induction r generalizing follow with
  | empty => exact List.Subset.refl _
  | anchor a => exact List.Subset.refl _
  | set s => cases hr
  | seq first second ih1 ih2 =>
    rw [nullable, Bool.and_eq_true] at hr
    exact List.Subset.trans (ih2 hr.2 follow) (ih1 hr.1 _)
  | alt first second ih1 ih2 =>
    rw [nullable, Bool.or_eq_true] at hr
    rw [starts]
    rcases hr with hr | hr
    · exact List.Subset.trans (ih1 hr follow) (List.subset_append_left _ _)
    · exact List.Subset.trans (ih2 hr follow) (List.subset_append_right _ _)
  | group index body ih => exact ih hr follow
  | rep greedy least most body ih =>
    have htest : (least = 0 || body.nullable) = true := by
      rw [nullable, Bool.or_eq_true, beq_iff_eq] at hr
      rw [Bool.or_eq_true, decide_eq_true_eq]
      exact hr
    rw [starts, if_pos htest]
    exact List.subset_append_right _ _

/-- What is taken first is in one of the sets that a match may start with, whatever may follow. -/
theorem starts_mono (r : Regex) (follow : List CharSet) : r.starts [] ⊆ r.starts follow := by
  have hmono : ∀ (r : Regex) {follow follow' : List CharSet}, follow ⊆ follow' →
      r.starts follow ⊆ r.starts follow' := by
    intro r
    induction r with
    | empty => exact fun h => h
    | anchor a => exact fun h => h
    | set s => exact fun _ => List.Subset.refl _
    | seq first second ih1 ih2 => exact fun h => ih1 (ih2 h)
    | alt first second ih1 ih2 =>
      intro _ _ h s hs
      rcases List.mem_append.mp hs with hs | hs
      · exact List.mem_append_left _ (ih1 h hs)
      · exact List.mem_append_right _ (ih2 h hs)
    | group index body ih => exact fun h => ih h
    | rep greedy least most body _ =>
      intro _ _ h s hs
      rw [starts] at hs ⊢
      split at hs
      · next htest =>
        rw [if_pos htest]
        rcases List.mem_append.mp hs with hs | hs
        · exact List.mem_append_left _ hs
        · exact List.mem_append_right _ (h hs)
      · next htest =>
        rw [if_neg htest]
        exact hs
  exact hmono r (List.nil_subset _)

/-- **A match that takes a character starts with one of the sets listed.** -/
theorem meets_of_mem_ends (r : Regex) (hpos : pos ≤ text.size) (h : stop ∈ r.ends text pos)
    (hne : stop ≠ pos) : Meets text (r.starts []) pos := by
  induction r generalizing pos stop with
  | empty =>
    rw [ends, List.mem_singleton] at h
    exact absurd h hne
  | anchor a =>
    rw [ends] at h
    split at h
    · exact absurd (List.mem_singleton.mp h) hne
    · cases h
  | set s =>
    rw [ends] at h
    split at h
    · next c hc =>
      split at h
      · next hcontains => exact ⟨c, hc, s, by simp [starts], hcontains⟩
      · cases h
    · cases h
  | seq first second ih1 ih2 =>
    obtain ⟨middle, hmiddle, hstop⟩ := List.mem_flatMap.mp h
    by_cases hmove : middle = pos
    · -- the first part is passed without a character
      subst hmove
      have hnullable : first.nullable = true := by
        cases hnull : first.nullable with
        | true => rfl
        | false => exact absurd (first.lt_of_mem_ends hnull hpos hmiddle) (Nat.lt_irrefl _)
      exact (ih2 hpos hstop hne).mono (first.subset_starts hnullable _)
    · exact (ih1 hpos hmiddle hmove).mono (first.starts_mono _)
  | alt first second ih1 ih2 =>
    rcases List.mem_append.mp h with h | h
    · exact (ih1 hpos h hne).mono (List.subset_append_left _ _)
    · exact (ih2 hpos h hne).mono (List.subset_append_right _ _)
  | group index body ih => exact ih hpos h hne
  | rep greedy least most body ih =>
    obtain ⟨p, hp, hstop⟩ := List.mem_flatMap.mp h
    -- as long as no iteration has taken a character, the next one starts at the position
    have hstep : ∀ q, (q ≤ text.size ∧ (q = pos ∨ Meets text (body.starts []) pos)) →
        ∀ q' ∈ body.ends text q, q' ≤ text.size ∧ (q' = pos ∨ Meets text (body.starts []) pos) := by
      rintro q ⟨hq, hmeets⟩ q' hq'
      refine ⟨(body.within_of_mem_ends hq hq').2, ?_⟩
      rcases hmeets with rfl | hmeets
      · by_cases hmove : q' = q
        · exact .inl hmove
        · exact .inr (ih hq hq' hmove)
      · exact .inr hmeets
    have hp' := forall_mem_times hstep least [pos]
      (fun q hq => by rw [List.mem_singleton.mp hq]; exact ⟨hpos, .inl rfl⟩) p hp
    obtain ⟨-, hmeets⟩ := forall_mem_iterations hstep greedy _ p [] hp' (by simp) stop hstop
    refine (hmeets.resolve_left hne).mono ?_
    rw [starts]
    split
    · exact List.subset_append_left _ _
    · exact List.Subset.refl _

end Regex

end Highlighting
