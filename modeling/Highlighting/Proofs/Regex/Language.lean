/-
  Highlighting/Proofs/Regex/Language.lean
  =======================================
  **The language of an expression.**

  Whatever an expression matches is a word of a regular language, which says
  nothing of its conditions (`Regex.reads_of_mem_ends`).  One without conditions
  ends where such a word does, and nowhere else (`Regex.mem_ends_iff`): that
  only iterations count that get further does not matter, for a word of a
  repetition can be put together without empty parts.
-/
import Highlighting.Proofs.NumberLiteral.Longest
import Highlighting.Proofs.Regex.Iterations
import Highlighting.Proofs.Regex.Words

namespace Highlighting.Regex

open NumberLiteral (Reads one optional)
open scoped Computability

variable {text : Source} {p q e n limit : Nat} {l : Language Char} {step : Nat → List Nat}

/-- The words that are matched where all conditions hold. -/
def language : Regex → Language Char
  | empty | anchor _ => 1
  | set s => one s.contains
  | seq first second => first.language * second.language
  | alt first second => first.language + second.language
  | group _ body => body.language
  | rep _ least none body => body.language ^ least * body.language∗
  | rep _ least (some most) body =>
    body.language ^ least * optional body.language ^ (most - least)

/-- The expression has no conditions. -/
def isFree : Regex → Bool
  | empty | set _ => true
  | anchor _ => false
  | seq first second | alt first second => first.isFree && second.isFree
  | group _ body | rep _ _ _ body => body.isFree

/-! ### Iterations -/

theorem reads_of_mem_times (hstep : ∀ p ≤ text.size, ∀ q ∈ step p, Reads text l p q)
    (hp : p ≤ text.size) (h : e ∈ times step n [p]) : Reads text (l ^ n) p e := by
  induction n generalizing p with
  | zero =>
    rw [List.mem_singleton.mp h, pow_zero]
    exact Reads.empty_iff.mpr ⟨rfl, hp⟩
  | succ n ih =>
    obtain ⟨q, hq, he⟩ := mem_times_succ_iff.mp h
    have hfirst := hstep p hp q hq
    rw [pow_succ']
    exact Reads.mul_iff.mpr ⟨q, hfirst, ih hfirst.le_size he⟩

theorem mem_times_of_reads (hstep : ∀ p q, Reads text l p q → q ∈ step p)
    (h : Reads text (l ^ n) p e) : e ∈ times step n [p] := by
  induction n generalizing p with
  | zero =>
    rw [pow_zero] at h
    rw [(Reads.empty_iff.mp h).1]
    exact List.mem_singleton_self e
  | succ n ih =>
    rw [pow_succ'] at h
    obtain ⟨q, hq, he⟩ := Reads.mul_iff.mp h
    exact mem_times_succ_iff.mpr ⟨q, hstep p q hq, ih he⟩

theorem Reads.pow_self (hp : p ≤ text.size) : Reads text (optional l ^ n) p p := by
  induction n with
  | zero =>
    rw [pow_zero]
    exact Reads.empty_iff.mpr ⟨rfl, hp⟩
  | succ n ih =>
    rw [pow_succ']
    exact Reads.mul_iff.mpr ⟨p, Reads.optional_iff.mpr (.inl ⟨rfl, hp⟩), ih⟩

theorem reads_of_getsTo (hstep : ∀ p ≤ text.size, ∀ q ∈ step p, Reads text l p q)
    (hp : p ≤ text.size) (h : GetsTo step n p e) : Reads text (optional l ^ n) p e := by
  induction n generalizing p with
  | zero =>
    rw [GetsTo] at h
    rw [h]
    exact Reads.pow_self hp
  | succ n ih =>
    rcases h with rfl | ⟨q, hq, -, he⟩
    · exact Reads.pow_self hp
    · have hfirst := hstep p hp q hq
      rw [pow_succ']
      exact Reads.mul_iff.mpr ⟨q, Reads.optional_iff.mpr (.inr hfirst), ih hfirst.le_size he⟩

/-- Iterations that get nowhere can be left out. -/
theorem getsTo_of_reads (hstep : ∀ p q, Reads text l p q → q ∈ step p) (hn : n ≤ limit)
    (h : Reads text (optional l ^ n) p e) : GetsTo step limit p e := by
  induction n generalizing p limit with
  | zero =>
    rw [pow_zero] at h
    rw [(Reads.empty_iff.mp h).1]
    cases limit with
    | zero => rfl
    | succ limit => exact .inl rfl
  | succ n ih =>
    rw [pow_succ'] at h
    obtain ⟨q, hq, he⟩ := Reads.mul_iff.mp h
    rcases Nat.eq_or_lt_of_le hq.le with rfl | hlt
    · exact ih (Nat.le_of_succ_le hn) he
    · obtain ⟨limit, rfl⟩ := Nat.exists_eq_add_of_le' (Nat.le_trans (Nat.le_add_left 1 n) hn)
      have hq' := (Reads.optional_iff.mp hq).resolve_left fun h => Nat.ne_of_lt hlt h.1
      exact .inr ⟨q, hstep p q hq', hlt, ih (Nat.le_of_succ_le_succ hn) he⟩

theorem reads_kstar_of_pow (h : Reads text (optional l ^ n) p e) : Reads text l∗ p e := by
  induction n generalizing p with
  | zero =>
    rw [pow_zero] at h
    exact Reads.kstar_iff.mpr (.inl (Reads.empty_iff.mp h))
  | succ n ih =>
    rw [pow_succ'] at h
    obtain ⟨q, hq, he⟩ := Reads.mul_iff.mp h
    rcases Reads.optional_iff.mp hq with ⟨rfl, -⟩ | hq
    · exact ih he
    · exact Reads.kstar_iff.mpr (.inr ⟨q, hq, ih he⟩)

/-- A word of a repetition that is not empty starts with a part that is not. -/
theorem Reads.exists_first (h : Reads text l∗ p e) (hlt : p < e) :
    ∃ q, p < q ∧ Reads text l p q ∧ Reads text l∗ q e := by
  obtain ⟨parts, hparts, hall⟩ := Language.mem_kstar_iff_exists_nonempty.mp h.mem
  have hlength : parts.flatten.length = e - p := by
    rw [← hparts, Reads.length_chars h.le_size]
  cases parts with
  | nil =>
    rw [List.flatten_nil, List.length_nil] at hlength
    omega
  | cons w parts =>
    obtain ⟨hw, hne⟩ := hall w List.mem_cons_self
    let first : Language Char := {v | v = w}
    have hsplit : Reads text (first * l∗) p e := by
      refine ⟨h.le, h.le_size, Language.mem_mul.mpr ⟨w, rfl, parts.flatten, ?_, ?_⟩⟩
      · exact Language.join_mem_kstar fun y hy => (hall y (List.mem_cons_of_mem _ hy)).1
      · rw [hparts, List.flatten_cons]
    obtain ⟨q, hq, he⟩ := Reads.mul_iff.mp hsplit
    have hchars : text.chars ⟨p, q⟩ = w := hq.mem
    refine ⟨q, Nat.lt_of_le_of_ne hq.le ?_, ⟨hq.le, hq.le_size, hchars ▸ hw⟩, he⟩
    rintro rfl
    rw [Source.chars_empty] at hchars
    exact hne hchars.symm

/-- **What a repetition reads it reads part by part.** -/
theorem Reads.kstar_induction {R : Nat → Nat → Prop} (h : Reads text l∗ p e)
    (hrefl : ∀ p, R p p)
    (htrans : ∀ p q, p < q → q ≤ e → Reads text l p q → R q e → R p e) : R p e := by
  -- by induction on how much is left
  generalize hk : e - p = k
  induction k using Nat.strong_induction_on generalizing p with
  | _ k ih =>
    rcases Nat.eq_or_lt_of_le h.le with rfl | hlt
    · exact hrefl p
    · obtain ⟨q, hpq, hfirst, hrest⟩ := Reads.exists_first h hlt
      exact htrans p q hpq hrest.le hfirst (ih (e - q) (by omega) hrest rfl)

/-- Such a word is put together from no more parts than it has characters. -/
theorem reads_pow_of_kstar (h : Reads text l∗ p e) (hn : e - p ≤ n) :
    Reads text (optional l ^ n) p e := by
  induction n generalizing p with
  | zero =>
    obtain rfl : p = e := Nat.le_antisymm h.le (Nat.le_of_sub_eq_zero (Nat.le_zero.mp hn))
    exact Reads.pow_self h.le_size
  | succ n ih =>
    rcases Nat.eq_or_lt_of_le h.le with rfl | hlt
    · exact Reads.pow_self h.le_size
    · obtain ⟨q, hpq, hq, he⟩ := Reads.exists_first h hlt
      rw [pow_succ']
      exact Reads.mul_iff.mpr ⟨q, Reads.optional_iff.mpr (.inr hq), ih he (by omega)⟩

/-! ### Ends -/

/-- **A match is a word of the language.** -/
theorem reads_of_mem_ends (r : Regex) (hp : p ≤ text.size) (h : e ∈ r.ends text p) :
    Reads text r.language p e := by
  induction r generalizing p e with
  | empty =>
    obtain rfl : e = p := List.mem_singleton.mp h
    exact Reads.empty_iff.mpr ⟨rfl, hp⟩
  | set s =>
    rw [ends] at h
    split at h
    · next c hc =>
      split at h
      · next hcontains =>
        rw [List.mem_singleton.mp h]
        exact Reads.one_iff.mpr ⟨by rw [hc]; exact hcontains, rfl⟩
      · cases h
    · cases h
  | anchor a =>
    rw [ends] at h
    split at h
    · obtain rfl : e = p := List.mem_singleton.mp h
      exact Reads.empty_iff.mpr ⟨rfl, hp⟩
    · cases h
  | seq first second ih1 ih2 =>
    obtain ⟨q, hq, he⟩ := List.mem_flatMap.mp h
    have hfirst := ih1 hp hq
    exact Reads.mul_iff.mpr ⟨q, hfirst, ih2 hfirst.le_size he⟩
  | alt first second ih1 ih2 =>
    rcases List.mem_append.mp h with h | h
    · exact Reads.add_iff.mpr (.inl (ih1 hp h))
    · exact Reads.add_iff.mpr (.inr (ih2 hp h))
  | group index body ih => exact ih hp h
  | rep greedy least most body ih =>
    obtain ⟨q, hq, he⟩ := List.mem_flatMap.mp h
    have hfirst := reads_of_mem_times (fun p hp q hq => ih hp hq) hp hq
    have hrest := reads_of_getsTo (fun p hp q hq => ih hp hq) hfirst.le_size
      ((mem_iterations_iff.mp he).resolve_left List.not_mem_nil)
    cases most with
    | none => exact Reads.mul_iff.mpr ⟨q, hfirst, reads_kstar_of_pow hrest⟩
    | some most => exact Reads.mul_iff.mpr ⟨q, hfirst, hrest⟩

theorem mem_ends_of_reads (r : Regex) (hfree : r.isFree = true) (h : Reads text r.language p e) :
    e ∈ r.ends text p := by
  induction r generalizing p e with
  | empty => exact List.mem_singleton.mpr (Reads.empty_iff.mp h).1.symm
  | set s =>
    obtain ⟨hc, rfl⟩ := Reads.one_iff.mp h
    obtain ⟨c, hc, hcontains⟩ := (Option.any_eq_true _ _).mp hc
    simp [ends, hc, hcontains]
  | anchor a => cases hfree
  | seq first second ih1 ih2 =>
    rw [isFree, Bool.and_eq_true] at hfree
    obtain ⟨q, hq, he⟩ := Reads.mul_iff.mp h
    exact List.mem_flatMap.mpr ⟨q, ih1 hfree.1 hq, ih2 hfree.2 he⟩
  | alt first second ih1 ih2 =>
    rw [isFree, Bool.and_eq_true] at hfree
    rcases Reads.add_iff.mp h with h | h
    · exact List.mem_append_left _ (ih1 hfree.1 h)
    · exact List.mem_append_right _ (ih2 hfree.2 h)
  | group index body ih => exact ih hfree h
  | rep greedy least most body ih =>
    have hstep : ∀ p q, Reads text body.language p q → q ∈ body.ends text p :=
      fun p q h => ih hfree h
    cases most with
    | none =>
      obtain ⟨q, hq, he⟩ := Reads.mul_iff.mp h
      refine List.mem_flatMap.mpr ⟨q, mem_times_of_reads hstep hq, ?_⟩
      have hlimit : e - q ≤ text.size + 1 - p := by
        have hle := hq.le
        have hsize := he.le_size
        omega
      exact mem_iterations_iff.mpr (.inr (getsTo_of_reads hstep hlimit
        (reads_pow_of_kstar he (Nat.le_refl _))))
    | some most =>
      obtain ⟨q, hq, he⟩ := Reads.mul_iff.mp h
      exact List.mem_flatMap.mpr ⟨q, mem_times_of_reads hstep hq,
        mem_iterations_iff.mpr (.inr (getsTo_of_reads hstep (Nat.le_refl _) he))⟩

/-- **An expression without conditions matches the words of its language.** -/
theorem mem_ends_iff (r : Regex) (hfree : r.isFree = true) (hp : p ≤ text.size) :
    e ∈ r.ends text p ↔ Reads text r.language p e :=
  ⟨r.reads_of_mem_ends hp, r.mem_ends_of_reads hfree⟩

end Highlighting.Regex
