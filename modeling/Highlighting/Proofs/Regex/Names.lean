/-
  Highlighting/Proofs/Regex/Names.lean
  ====================================
  **Names**: a character of one set, and any number of characters of another.

  Names are what the lexemes of the built-in languages match.  The longest match
  is preferred (`Regex.firstEnd?_name_iff`), so that a text that is a name in
  full is cut into that one name (`Matcher.findAll_name`), and a text with a
  character between two parts that no name has is cut as each of them
  (`Matcher.parts_of_gap`).
-/
import Mathlib.Data.Nat.Find
import Highlighting.Proofs.Regex.Lexemes

namespace Highlighting

variable {first rest : CharSet} {text : Source} {p e : Nat}

namespace Regex

/-- A character of the first set, and as many of the second as there are. -/
def name (first rest : CharSet) : Regex := .seq (.set first) (.rep true 0 none (.set rest))

theorem mem_ends_set {s : CharSet} :
    e ∈ (set s).ends text p ↔ (text[p]?).any s.contains = true ∧ e = p + 1 := by
  rw [ends]
  cases text[p]? with
  | none => simp
  | some c => cases h : s.contains c <;> simp [h]

theorem ends_set_of_any {s : CharSet} (h : (text[p]?).any s.contains = true) :
    (set s).ends text p = [p + 1] := by
  obtain ⟨c, hc, hcontains⟩ := (Option.any_eq_true _ _).mp h
  simp [ends, hc, hcontains]

/-- What a match of a name is made of. -/
theorem any_of_mem_ends_name (he : e ∈ (name first rest).ends text p) :
    (text[p]?).any first.contains = true ∧
      ∀ q, p < q → q < e → (text[q]?).any rest.contains = true := by
  obtain ⟨m, hm, he⟩ := List.mem_flatMap.mp he
  obtain ⟨hfirst, rfl⟩ := mem_ends_set.mp hm
  refine ⟨hfirst, ?_⟩
  obtain ⟨n, hn, he⟩ := List.mem_flatMap.mp he
  obtain rfl : n = p + 1 := List.mem_singleton.mp hn
  -- all that was taken since the first character is of the second set
  have hstep : ∀ m, (∀ q, p < q → q < m → (text[q]?).any rest.contains = true) →
      ∀ m' ∈ (set rest).ends text m, ∀ q, p < q → q < m' →
        (text[q]?).any rest.contains = true := by
    intro m hm m' hm' q hpq hqm
    obtain ⟨hrest, rfl⟩ := mem_ends_set.mp hm'
    rcases Nat.lt_succ_iff_lt_or_eq.mp hqm with hlt | rfl
    · exact hm q hpq hlt
    · exact hrest
  exact forall_mem_iterations hstep true _ (p + 1) [] (fun q hpq hq => by omega) (by simp) e he

/-- The characters from the one position up to the other, and no further ones, are of the set. -/
structure RunsTo (s : CharSet) (text : Source) (p e : Nat) : Prop where
  le : p ≤ e
  all : ∀ q, p ≤ q → q < e → (text[q]?).any s.contains = true
  ends : (text[e]?).any s.contains = false

theorem exists_runsTo (s : CharSet) (text : Source) (p : Nat) : ∃ e, RunsTo s text p e := by
  have hexists : ∃ e, p ≤ e ∧ (text[e]?).any s.contains = false :=
    ⟨p + text.size, Nat.le_add_right _ _, by rw [Array.getElem?_eq_none (by omega)]; rfl⟩
  obtain ⟨hle, hends⟩ := Nat.find_spec hexists
  refine ⟨Nat.find hexists, hle, fun q hpq hq => ?_, hends⟩
  simpa [hpq] using Nat.find_min hexists hq

theorem RunsTo.le_size {s : CharSet} (h : RunsTo s text p e) (hp : p ≤ text.size) :
    e ≤ text.size := by
  rcases Nat.eq_or_lt_of_le h.le with rfl | hlt
  · exact hp
  · obtain ⟨c, hc, -⟩ := (Option.any_eq_true _ _).mp (h.all (e - 1) (by omega) (by omega))
    have hsize := (Array.getElem?_eq_some_iff.mp hc).1
    omega

/-- As far as the text goes on with characters of the set, the iterations do. -/
theorem head?_iterations_set {s : CharSet} (h : RunsTo s text p e) {limit : Nat}
    (hlimit : e - p ≤ limit) (later : List Nat) :
    (iterations true ((set s).ends text) limit p later).head? = some e := by
  induction limit generalizing p later with
  | zero =>
    obtain rfl : p = e := by have := h.le; omega
    rfl
  | succ limit ih =>
    rw [iterations_set_succ]
    rcases Nat.eq_or_lt_of_le h.le with rfl | hlt
    · rw [h.ends]
      rfl
    · rw [if_pos (h.all p (Nat.le_refl p) hlt)]
      exact ih ⟨hlt, fun q hq => h.all q (by omega), h.ends⟩ (by omega) _

/-- **The preferred match of a name is the longest.** -/
theorem firstEnd?_name_iff : (name first rest).firstEnd? text p = some e ↔
    (text[p]?).any first.contains = true ∧ RunsTo rest text (p + 1) e := by
  have hfirstEnd : ∀ e, (text[p]?).any first.contains = true → RunsTo rest text (p + 1) e →
      (name first rest).firstEnd? text p = some e := by
    intro e hfirst hruns
    obtain ⟨c, hc, -⟩ := (Option.any_eq_true _ _).mp hfirst
    have hlt := (Array.getElem?_eq_some_iff.mp hc).1
    have hle := hruns.le_size hlt
    rw [firstEnd?, name, ends, ends_set_of_any hfirst, List.flatMap_singleton, ends, times,
      List.flatMap_singleton]
    exact head?_iterations_set hruns (by omega) []
  constructor
  · intro h
    have hfirst := (any_of_mem_ends_name (List.mem_of_mem_head? h)).1
    obtain ⟨e', hruns⟩ := exists_runsTo rest text (p + 1)
    obtain rfl : e' = e := Option.some.inj ((hfirstEnd e' hfirst hruns).symm.trans h)
    exact ⟨hfirst, hruns⟩
  · rintro ⟨hfirst, hruns⟩
    exact hfirstEnd e hfirst hruns

/-- A name with all of the text is the preferred match. -/
theorem firstEnd?_name (h : text.size ∈ (name first rest).ends text 0) :
    (name first rest).firstEnd? text 0 = some text.size := by
  obtain ⟨hfirst, hrest⟩ := any_of_mem_ends_name h
  have hlt : 0 < text.size := by
    obtain ⟨c, hc, -⟩ := (Option.any_eq_true _ _).mp hfirst
    exact (Array.getElem?_eq_some_iff.mp hc).1
  refine firstEnd?_name_iff.mpr ⟨hfirst, hlt, fun q hq => hrest q hq, ?_⟩
  rw [Array.getElem?_eq_none (Nat.le_refl _)]
  rfl

end Regex

namespace Matcher

variable {u v : Source}

/-- The text may be cut between the parts: no name has the last character of the first one, or none
goes on with the first character of the second one. -/
def Gap (first rest : CharSet) (u v : Source) : Prop :=
  (∃ c, u.EndsWith c ∧ first.contains c = false ∧ rest.contains c = false) ∨
    (v[0]?).any rest.contains = false

/-- A name does not get over the gap. -/
theorem Gap.le_size (h : Gap first rest u v) (hp : p < u.size)
    (hfirst : ((u ++ v)[p]?).any first.contains = true) (hall : ∀ q, p < q → q < e →
      ((u ++ v)[q]?).any rest.contains = true) :
    e ≤ u.size ∧ (e = u.size → (v[0]?).any rest.contains = false) := by
  rcases h with ⟨c, hc, hnot, hnot'⟩ | h
  · have hlast : (u ++ v)[u.size - 1]? = some c :=
      (Array.getElem?_append_left (by omega)).trans hc
    -- the name does not even get to the last character
    have hlt : e < u.size := by
      by_contra hge
      rcases Nat.lt_or_eq_of_le (Nat.le_sub_one_of_lt hp) with hlt | rfl
      · have hrest := hall (u.size - 1) hlt (by omega)
        rw [hlast, Option.any_some, hnot'] at hrest
        cases hrest
      · rw [hlast, Option.any_some, hnot] at hfirst
        cases hfirst
    exact ⟨Nat.le_of_lt hlt, fun heq => absurd heq (Nat.ne_of_lt hlt)⟩
  · refine ⟨?_, fun _ => h⟩
    by_contra hgt
    have hrest := hall u.size hp (Nat.lt_of_not_le hgt)
    rw [show (u ++ v)[u.size]? = v[0]? from Source.getElem?_append_add u v 0, h] at hrest
    cases hrest

/-- **Names are those of each part.** -/
theorem parts_of_gap (hstays : (listing (.name first rest)).staysInLine = true)
    (h : Gap first rest u v) : (listing (.name first rest)).Parts u v := by
  refine ⟨hstays, fun p hp => ?_, fun p => ?_⟩
  · have hfront : ∀ q < u.size, (u ++ v)[q]? = u[q]? := fun q hq => Array.getElem?_append_left hq
    apply Option.ext
    intro e
    show (Regex.name first rest).firstEnd? (u ++ v) p = some e ↔
      (Regex.name first rest).firstEnd? u p = some e
    rw [Regex.firstEnd?_name_iff, Regex.firstEnd?_name_iff, hfront p hp]
    refine and_congr_right fun hfirst => ⟨fun hruns => ?_, fun hruns => ?_⟩
    · obtain ⟨hle, -⟩ := h.le_size hp ((hfront p hp).symm ▸ hfirst) fun q hq => hruns.all q hq
      refine ⟨hruns.le, fun q hq hqe => hfront q (by omega) ▸ hruns.all q hq hqe, ?_⟩
      rcases Nat.lt_or_eq_of_le hle with hlt | rfl
      · rw [← hfront e hlt]
        exact hruns.ends
      · rw [Array.getElem?_eq_none (Nat.le_refl _)]
        rfl
    · have hsize : e ≤ u.size := hruns.le_size hp
      have hall : ∀ q, p < q → q < e → ((u ++ v)[q]?).any rest.contains = true :=
        fun q hq hqe => (hfront q (by omega)).symm ▸ hruns.all q hq hqe
      obtain ⟨-, hgap⟩ := h.le_size hp ((hfront p hp).symm ▸ hfirst) hall
      refine ⟨hruns.le, hall, ?_⟩
      rcases Nat.lt_or_eq_of_le hsize with hlt | rfl
      · rw [hfront e hlt]
        exact hruns.ends
      · rw [show (u ++ v)[u.size]? = v[0]? from Source.getElem?_append_add u v 0]
        exact hgap rfl
  · have hrest : ∀ q, (u ++ v)[u.size + q]? = v[q]? := Source.getElem?_append_add u v
    obtain ⟨e, hruns⟩ := Regex.exists_runsTo rest v (p + 1)
    have hruns' : Regex.RunsTo rest (u ++ v) (u.size + p + 1) (u.size + e) := by
      have hle := hruns.le
      refine ⟨by omega, fun q hq hqe => ?_, ?_⟩
      · obtain ⟨q, rfl⟩ := Nat.exists_eq_add_of_le (show u.size ≤ q by omega)
        rw [hrest]
        exact hruns.all q (by omega) (by omega)
      · rw [hrest]
        exact hruns.ends
    show (Regex.name first rest).firstEnd? (u ++ v) (u.size + p) =
      ((Regex.name first rest).firstEnd? v p).map (u.size + ·)
    cases hfirst : (v[p]?).any first.contains with
    | true =>
      rw [Regex.firstEnd?_name_iff.mpr ⟨hfirst, hruns⟩,
        Regex.firstEnd?_name_iff.mpr ⟨(hrest p).symm ▸ hfirst, hruns'⟩]
      rfl
    | false =>
      have hnone : ∀ {text : Source} {q : Nat}, (text[q]?).any first.contains = false →
          (Regex.name first rest).firstEnd? text q = none := by
        intro text q hq
        cases hend : (Regex.name first rest).firstEnd? text q with
        | none => rfl
        | some e' =>
          rw [(Regex.firstEnd?_name_iff.mp hend).1] at hq
          cases hq
      rw [hnone hfirst, hnone ((hrest p).symm ▸ hfirst)]
      rfl

end Matcher

/-- **A text that is a name is cut into that name.** -/
theorem Matcher.findAll_name (hstays : (listing (.name first rest)).staysInLine = true)
    (h : text.size ∈ (Regex.name first rest).ends text 0) :
    (listing (.name first rest)).findAll text = [⟨0, text.size⟩] := by
  have hfind : (listing (.name first rest)).find text 0 = some ⟨0, text.size⟩ := by
    rw [find_eq_ofEnds hstays]
    refine Search.ofEnds_eq_some_iff.mpr ⟨Nat.le_refl 0, Nat.zero_le _, Regex.firstEnd?_name h, ?_⟩
    intro q _ hq
    exact absurd hq (Nat.not_lt_zero q)
  have hend : (listing (.name first rest)).find text text.size = none := by
    cases hs : (listing (.name first rest)).find text text.size with
    | none => rfl
    | some s =>
      have hlt := lt_of_find hstays hs
      omega
  exact (cuts_findAll hstays text).unique (.next hfind (.done hend))

end Highlighting
