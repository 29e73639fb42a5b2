/-
  Highlighting/Proofs/Detection.lean
  ==================================
  **How the language of a text is told.**

  The best result is the first of the most relevant ones (`IsFirstBest`), where
  plain text comes ahead of all languages, and the second best is the first of
  the most relevant ones that are left then.  For entering results one by one
  into the order of falling relevance leaves equal ones in the order they had
  (`ranked_eq_cons`).

  A language whose result is illegal takes no part, so that any other such
  language may stand in its place (`detection_ranks_by_relevance`).
-/
import Highlighting.Proofs.Grammar
import Highlighting.Proofs.Registry
import Highlighting.Proofs.Scan.Lossless

namespace Highlighting

/-- The result has this place in the list; none is more relevant, and the earlier ones are less. -/
structure IsFirstBest (hs : List Highlighted) (i : Nat) (h : Highlighted) : Prop where
  at_place : hs[i]? = some h
  le : ∀ k ∈ hs, k.relevance ≤ h.relevance
  lt : ∀ k ∈ hs.take i, k.relevance < h.relevance

namespace IsFirstBest

variable {hs : List Highlighted} {h k : Highlighted} {i : Nat}

theorem mem (hbest : IsFirstBest hs i h) : h ∈ hs := List.mem_of_getElem? hbest.at_place

/-- Nothing behind is more relevant. -/
theorem head (hle : ∀ k ∈ hs, k.relevance ≤ h.relevance) : IsFirstBest (h :: hs) 0 h := by
  refine ⟨rfl, fun k hk => ?_, nofun⟩
  rcases List.mem_cons.mp hk with rfl | hk
  · exact UInt32.le_refl _
  · exact hle k hk

/-- A result in front that is less relevant only moves the others. -/
theorem cons (hlt : k.relevance < h.relevance) (hbest : IsFirstBest hs i h) :
    IsFirstBest (k :: hs) (i + 1) h := by
  refine ⟨hbest.at_place, fun j hj => ?_, fun j hj => ?_⟩
  · rcases List.mem_cons.mp hj with rfl | hj
    · exact UInt32.le_of_lt hlt
    · exact hbest.le j hj
  · rw [List.take_succ_cons] at hj
    rcases List.mem_cons.mp hj with rfl | hj
    · exact hlt
    · exact hbest.lt j hj

theorem tail (hbest : IsFirstBest (k :: hs) (i + 1) h) :
    k.relevance < h.relevance ∧ IsFirstBest hs i h := by
  have hlt : ∀ j ∈ k :: hs.take i, j.relevance < h.relevance := hbest.lt
  exact ⟨hlt k List.mem_cons_self, hbest.at_place,
    fun j hj => hbest.le j (List.mem_cons_of_mem k hj),
    fun j hj => hlt j (List.mem_cons_of_mem k hj)⟩

/-- The first result wins unless another is more relevant. -/
theorem eq_head (hbest : IsFirstBest (k :: hs) i h) (hle : h.relevance ≤ k.relevance) : h = k := by
  cases i with
  | zero => exact (Option.some.inj hbest.at_place).symm
  | succ i => exact absurd hbest.tail.1 (UInt32.not_lt.mpr hle)

theorem exists_of_ne_nil (hne : hs ≠ []) : ∃ i h, IsFirstBest hs i h := by
  induction hs with
  | nil => exact absurd rfl hne
  | cons k hs ih =>
    by_cases hnil : hs = []
    · subst hnil
      exact ⟨0, k, head nofun⟩
    · obtain ⟨i, h, hbest⟩ := ih hnil
      by_cases hlt : k.relevance < h.relevance
      · exact ⟨i + 1, h, hbest.cons hlt⟩
      · refine ⟨0, k, head fun j hj => ?_⟩
        exact UInt32.le_trans (hbest.le j hj) (UInt32.not_lt.mp hlt)

end IsFirstBest

namespace Registry

variable {hs : List Highlighted} {h : Highlighted} {i : Nat}

/-- A result as relevant as the others goes to the front. -/
theorem enterRanked_eq_cons (hle : ∀ k ∈ hs, k.relevance ≤ h.relevance) :
    enterRanked h hs = h :: hs := by
  cases hs with
  | nil => rfl
  | cons k hs =>
    rw [enterRanked, if_neg]
    exact UInt32.not_lt.mpr (hle k List.mem_cons_self)

/-- **In order of relevance, the first of the best leads, and the others follow without it.** -/
theorem ranked_eq_cons (hbest : IsFirstBest hs i h) :
    ranked hs = h :: ranked (hs.eraseIdx i) := by
  induction hs generalizing i with
  | nil => cases hbest.at_place
  | cons k hs ih =>
    cases i with
    | zero =>
      obtain rfl : k = h := Option.some.inj hbest.at_place
      refine enterRanked_eq_cons fun j hj => ?_
      exact hbest.le j (List.mem_cons_of_mem k (mem_of_mem_ranked hj))
    | succ i =>
      obtain ⟨hlt, htail⟩ := hbest.tail
      rw [ranked, ih htail, enterRanked, if_pos hlt, List.eraseIdx_cons_succ, ranked]

theorem ranked_eq_nil : ranked hs = [] ↔ hs = [] := by
  constructor
  · intro hnil
    by_contra hne
    obtain ⟨i, h, hbest⟩ := IsFirstBest.exists_of_ne_nil hne
    rw [ranked_eq_cons hbest] at hnil
    cases hnil
  · rintro rfl
    rfl

theorem exists_of_head?_ranked (hhead : (ranked hs).head? = some h) :
    ∃ i, IsFirstBest hs i h := by
  have hne : hs ≠ [] := by
    rintro rfl
    cases hhead
  obtain ⟨i, k, hbest⟩ := IsFirstBest.exists_of_ne_nil hne
  rw [ranked_eq_cons hbest, List.head?_cons] at hhead
  exact ⟨i, Option.some.inj hhead ▸ hbest⟩

/-- A language with an illegal result may be replaced by any other. -/
theorem candidates_replace {before after : List Grammar} {g g' : Grammar}
    {options : Scan.Options} {text : String}
    (hg : (g.highlight text options).illegal = true)
    (hg' : (g'.highlight text options).illegal = true) :
    candidates ⟨before ++ g :: after, options⟩ text =
      candidates ⟨before ++ g' :: after, options⟩ text := by
  simp [candidates, hg, hg']

/-- **Detection ranks by relevance.**  Of plain text and the results of all languages, in the order
of their registration, that met nothing illegal, the best is the first of the most relevant ones,
and the second best the first of the most relevant ones without it.  So plain text wins all ties,
nothing illegal is shown, and a language with an illegal result does not count. -/
theorem detection_ranks_by_relevance (options : Scan.Options) (gs : List Grammar)
    (text : String) :
    let r := registered options gs
    let cs := Highlighted.plaintext text ::
      (r.grammars.map fun g => g.highlight text options).filter fun h => !h.illegal
    let d := r.detect text
    (∃ i, IsFirstBest cs i d.best ∧
      ∀ h, d.second = some h → ∃ j, IsFirstBest (cs.eraseIdx i) j h) ∧
      (d.second = none ↔ cs.length = 1) ∧
      (d.best.relevance = 0 → d.best = .plaintext text) ∧
      (∀ h, d.second = some h → h.relevance = 0 →
        d.best = .plaintext text ∨ h = .plaintext text) ∧
      d.best.illegal = false ∧ (∀ h, d.second = some h → h.illegal = false) ∧
      ∀ before g after, r.grammars = before ++ g :: after →
        (g.highlight text options).illegal = true →
        ∀ g' : Grammar, (g'.highlight text options).illegal = true →
          detect ⟨before ++ g' :: after, options⟩ text = d ∧
            (g'.name = g.name → (r.register g').detect text = d) := by
  intro r cs d
  have hoptions : r.options = options := options_registered options gs
  have hcs : r.candidates text = cs := by rw [candidates, hoptions]
  obtain ⟨i, best, hbest⟩ := IsFirstBest.exists_of_ne_nil (show cs ≠ [] from List.cons_ne_nil _ _)
  have hd : d = ⟨best, (ranked (cs.eraseIdx i)).head?⟩ := by
    show r.detect text = _
    rw [detect, hcs, ranked_eq_cons hbest]
  have hdbest : d.best = best := by rw [hd]
  have hdsecond : d.second = (ranked (cs.eraseIdx i)).head? := by rw [hd]
  have hlength : (cs.eraseIdx i).length = cs.length - 1 :=
    List.length_eraseIdx_of_lt (List.getElem?_eq_some_iff.mp hbest.at_place).1
  have hsecond : ∀ h, d.second = some h → ∃ j, IsFirstBest (cs.eraseIdx i) j h := by
    intro h hh
    rw [hdsecond] at hh
    exact exists_of_head?_ranked hh
  have hlegal : ∀ h ∈ cs, h.illegal = false := by
    intro h hh
    rcases List.mem_cons.mp hh with rfl | hh
    · rfl
    · simpa using (List.mem_filter.mp hh).2
  refine ⟨⟨i, hdbest ▸ hbest, hsecond⟩, ?_, fun hzero => ?_, fun h hh hzero => ?_,
    hlegal _ (hdbest ▸ hbest.mem), fun h hh => ?_, ?_⟩
  · have hpos : 0 < cs.length := Nat.succ_pos _
    rw [hdsecond, List.head?_eq_none_iff, ranked_eq_nil, ← List.length_eq_zero_iff, hlength]
    omega
  · rw [hdbest] at hzero ⊢
    exact hbest.eq_head (hzero ▸ UInt32.le_refl _)
  · obtain ⟨j, hhead⟩ := hsecond h hh
    cases i with
    | zero => exact .inl (hdbest.trans (Option.some.inj hbest.at_place).symm)
    | succ i => exact .inr (hhead.eq_head (hzero ▸ UInt32.le_refl _))
  · obtain ⟨j, hhead⟩ := hsecond h hh
    exact hlegal h (List.mem_of_mem_eraseIdx hhead.mem)
  · intro before g after hgrammars hg g' hg'
    have hr : r = ⟨before ++ g :: after, options⟩ := by rw [← hgrammars, ← hoptions]
    have hsame : detect ⟨before ++ g' :: after, options⟩ text = d := by
      show _ = r.detect text
      rw [hr, detect, detect, candidates_replace hg hg']
    refine ⟨hsame, fun hname => ?_⟩
    have hplace : r.register g' = ⟨before ++ g' :: after, options⟩ := by
      have hnodup : (names (before ++ g :: after)).Nodup :=
        hgrammars ▸ nodup_names_registered options gs
      rw [register, hgrammars, place_eq_of_name hnodup hname.symm, hoptions]
    rw [hplace, hsame]

/-- A language of this name in which nothing but the character is illegal. -/
def refusing (name : String) (c : Char) : Grammar :=
  ⟨name, [], #[], ⟨none, some 0, []⟩, #[⟨Quotes.single c, false⟩]⟩

/-- A string, with a character in it that two other languages refuse. -/
theorem detection_of_quotes_ranks :
    let gs := [refusing "a" '#', Quotes.grammar, refusing "b" '#']
    let r := registered ⟨false⟩ gs
    let d := r.detect "'#'"
    (r.grammars = [] ++ refusing "a" '#' :: [Quotes.grammar, refusing "b" '#'] ∧
      ((refusing "a" '#').highlight "'#'" ⟨false⟩).illegal = true ∧
      ((refusing "a" '\'').highlight "'#'" ⟨false⟩).illegal = true) ∧
      d.second = some (.plaintext "'#'") ∧
      (r.register (refusing "a" '\'')).detect "'#'" = d := by
  intro gs r d
  have hgrammars : r.grammars = [] ++ refusing "a" '#' :: [Quotes.grammar, refusing "b" '#'] := rfl
  have hillegal : ((refusing "a" '#').highlight "'#'" ⟨false⟩).illegal = true := by
    decide +kernel
  have hillegal' : ((refusing "a" '\'').highlight "'#'" ⟨false⟩).illegal = true := by
    decide +kernel
  obtain ⟨-, -, -, htie, -, -, hreplace⟩ := detection_ranks_by_relevance ⟨false⟩ gs "'#'"
  have hsecond : (d.second.map (·.relevance) = some 0) ∧ d.best.relevance = 1 := by
    decide +kernel
  obtain ⟨h, hh, hzero⟩ := Option.map_eq_some_iff.mp hsecond.1
  refine ⟨⟨hgrammars, hillegal, hillegal'⟩, ?_,
    (hreplace [] _ _ hgrammars hillegal _ hillegal').2 rfl⟩
  rcases htie h hh hzero with hbest | hplain
  · have hone := hsecond.2
    rw [show d.best = _ from hbest] at hone
    cases hone
  · rw [hh, hplain]

end Registry

end Highlighting
