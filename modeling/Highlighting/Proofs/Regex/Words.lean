/-
  Highlighting/Proofs/Regex/Words.lean
  ====================================
  **What a match spells.**

  An expression without repetitions, whose sets are written out character by
  character, has finitely many words (`Regex.words?`), and every match of it
  spells one of them (`Regex.chars_mem_words`).

  Of other expressions it is often enough to know that every match takes a
  character of some set (`Regex.takes`).  So one that needs a character of a few
  does not match where none of these stands (`Regex.met_of_needs`), and one that
  takes another one does not match in a text of these alone
  (`Regex.exists_stray`).

  Expressions for whole words say so at both ends (`Regex.opensAtEdge`,
  `Regex.closesAtEdge`).
-/
import Highlighting.Proofs.Regex.Seam

namespace Highlighting

variable {text : Source} {p q e : Nat} {cs : List Char}

/-! ### Sets -/

namespace CharSet

/-- The characters of a set that is written with single ones. -/
def chars? : CharSet → Option (List Char)
  | empty => some []
  | range first last => if first = last then some [first] else none
  | union s t => do return (← s.chars?) ++ (← t.chars?)
  | _ => none

theorem mem_of_chars? {s : CharSet} (h : s.chars? = some cs) {c : Char}
    (hc : s.contains c = true) : c ∈ cs := by
  induction s generalizing cs with
  | empty => cases hc
  | range first last =>
    rw [chars?] at h
    split at h
    · next heq =>
      subst heq
      obtain rfl := Option.some.inj h
      rw [contains, Bool.and_eq_true, decide_eq_true_eq, decide_eq_true_eq] at hc
      exact List.mem_singleton.mpr (Char.le_antisymm hc.2 hc.1)
    · cases h
  | union s t ihs iht =>
    rw [chars?] at h
    obtain ⟨ds, hds, h⟩ := Option.bind_eq_some_iff.mp h
    obtain ⟨ds', hds', h⟩ := Option.bind_eq_some_iff.mp h
    obtain rfl := Option.some.inj h
    rw [contains, Bool.or_eq_true] at hc
    rcases hc with hc | hc
    · exact List.mem_append_left _ (ihs hds hc)
    · exact List.mem_append_right _ (iht hds' hc)
  | word | digit | space | table | compl | inter | folded => cases h

end CharSet

theorem Source.chars_append_chars (text : Source) (hpq : p ≤ q) (hqe : q ≤ e) :
    text.chars ⟨p, q⟩ ++ text.chars ⟨q, e⟩ = text.chars ⟨p, e⟩ := by
  rw [chars, chars, chars, ← Array.toList_append, Array.extract_append_extract,
    Nat.min_eq_left hpq, Nat.max_eq_right hqe]

theorem Source.chars_infix (text : Source) (s : Span) : text.chars s <:+: text.toList := by
  rw [chars, Array.toList_extract, List.extract_eq_take_drop]
  exact (List.take_prefix _ _).isInfix.trans (List.drop_suffix _ _).isInfix

theorem Source.chars_empty (text : Source) (p : Nat) : text.chars ⟨p, p⟩ = [] := by
  rw [chars, Array.extract_empty_of_stop_le_start (Nat.le_refl p), Array.toList_empty]

theorem Source.chars_single {c : Char} (h : text[p]? = some c) : text.chars ⟨p, p + 1⟩ = [c] := by
  obtain ⟨hlt, rfl⟩ := Array.getElem?_eq_some_iff.mp h
  have hlt' : p < text.toList.length := hlt
  rw [chars, Array.toList_extract, List.extract_eq_take_drop, Nat.add_sub_cancel_left,
    List.take_one_drop_eq_of_lt_length hlt']
  rfl

theorem Source.mem_chars {c : Char} (h : text[q]? = some c) (hpq : p ≤ q) (hqe : q < e) :
    c ∈ text.chars ⟨p, e⟩ := by
  rw [← text.chars_append_chars hpq (Nat.le_of_lt hqe), ← text.chars_append_chars
    (Nat.le_succ q) hqe, Source.chars_single h]
  exact List.mem_append_right _ List.mem_cons_self

namespace Regex

/-! ### Words -/

/-- The words that the expression matches, when there are finitely many. -/
def words? : Regex → Option (List (List Char))
  | empty | anchor _ => some [[]]
  | set s => s.chars?.map fun cs => cs.map ([·])
  | seq a b => do
    let us ← a.words?
    let vs ← b.words?
    return us.flatMap fun u => vs.map (u ++ ·)
  | alt a b => do return (← a.words?) ++ (← b.words?)
  | group _ body => body.words?
  | rep _ _ _ _ => none

/-- **A match spells one of the words.** -/
theorem chars_mem_words (r : Regex) {ws : List (List Char)} (h : r.words? = some ws)
    (hp : p ≤ text.size) (he : e ∈ r.ends text p) : text.chars ⟨p, e⟩ ∈ ws := by
  induction r generalizing p e ws with
  | empty =>
    obtain rfl := Option.some.inj h
    rw [ends, List.mem_singleton] at he
    rw [he, Source.chars_empty]
    exact List.mem_singleton_self _
  | anchor a =>
    obtain rfl := Option.some.inj h
    rw [ends] at he
    split at he
    · rw [List.mem_singleton] at he
      rw [he, Source.chars_empty]
      exact List.mem_singleton_self _
    · cases he
  | set s =>
    obtain ⟨cs, hcs, rfl⟩ := Option.map_eq_some_iff.mp h
    rw [ends] at he
    split at he
    · next c hc =>
      split at he
      · next hcontains =>
        rw [List.mem_singleton] at he
        rw [he, Source.chars_single hc]
        exact List.mem_map_of_mem (CharSet.mem_of_chars? hcs hcontains)
      · cases he
    · cases he
  | seq first second ih1 ih2 =>
    obtain ⟨us, hus, h⟩ := Option.bind_eq_some_iff.mp h
    obtain ⟨vs, hvs, h⟩ := Option.bind_eq_some_iff.mp h
    obtain rfl := Option.some.inj h
    obtain ⟨m, hm, he⟩ := List.mem_flatMap.mp he
    have hfirst := first.within_of_mem_ends hp hm
    have hsecond := second.within_of_mem_ends hfirst.2 he
    rw [← text.chars_append_chars hfirst.1 hsecond.1]
    exact List.mem_flatMap.mpr ⟨_, ih1 hus hp hm, List.mem_map_of_mem (ih2 hvs hfirst.2 he)⟩
  | alt first second ih1 ih2 =>
    obtain ⟨us, hus, h⟩ := Option.bind_eq_some_iff.mp h
    obtain ⟨vs, hvs, h⟩ := Option.bind_eq_some_iff.mp h
    obtain rfl := Option.some.inj h
    rcases List.mem_append.mp he with he | he
    · exact List.mem_append_left _ (ih1 hus hp he)
    · exact List.mem_append_right _ (ih2 hvs hp he)
  | group index body ih => exact ih h hp he
  | rep greedy least most body ih => cases h

/-! ### Characters that every match has -/

/-- Every match takes a character from a set that passes the check. -/
def takes (check : CharSet → Bool) : Regex → Bool
  | empty | anchor _ => false
  | set s => check s
  | seq a b => a.takes check || b.takes check
  | alt a b => a.takes check && b.takes check
  | group _ body => body.takes check
  | rep _ least _ body => least != 0 && body.takes check

/-- Every match takes a character from such a set ahead of those characters. -/
def takesAhead (cs : List Char) (check : CharSet → Bool) : Regex → Bool
  | empty | anchor _ => false
  | set s => check s
  | seq a b => a.takesAhead cs check || cs.all (a.spares ·) && b.takesAhead cs check
  | alt a b => a.takesAhead cs check && b.takesAhead cs check
  | group _ body => body.takesAhead cs check
  | rep _ least _ body => least != 0 && body.takesAhead cs check

/-- A character of a set that passes stands in the stretch, and none of the others in front of
it. -/
def TakenAhead (cs : List Char) (check : CharSet → Bool) (text : Source) (p e : Nat) : Prop :=
  ∃ q, p ≤ q ∧ q < e ∧
    (∃ c, text[q]? = some c ∧ ∃ s : CharSet, check s = true ∧ s.contains c = true) ∧
    ∀ i, p ≤ i → i < q → ∀ c ∈ cs, text[i]? ≠ some c

theorem TakenAhead.mono {check : CharSet → Bool} (h : TakenAhead cs check text p e) {e' : Nat}
    (he : e ≤ e') : TakenAhead cs check text p e' := by
  obtain ⟨q, hpq, hqe, hc⟩ := h
  exact ⟨q, hpq, Nat.lt_of_lt_of_le hqe he, hc⟩

/-- **A match takes a character from such a set**, ahead of the others. -/
theorem takenAhead_of_takesAhead (r : Regex) {check : CharSet → Bool}
    (h : r.takesAhead cs check = true) (hp : p ≤ text.size) (he : e ∈ r.ends text p) :
    TakenAhead cs check text p e := by
  induction r generalizing p e with
  | empty | anchor _ => cases h
  | set s =>
    rw [ends] at he
    split at he
    · next c hc =>
      split at he
      · next hcontains =>
        rw [List.mem_singleton] at he
        exact ⟨p, Nat.le_refl p, by omega, ⟨c, hc, s, h, hcontains⟩, fun i hpi hi => by omega⟩
      · cases he
    · cases he
  | seq first second ih1 ih2 =>
    obtain ⟨m, hm, he⟩ := List.mem_flatMap.mp he
    have hfirst := first.within_of_mem_ends hp hm
    have hsecond := second.within_of_mem_ends hfirst.2 he
    rw [takesAhead, Bool.or_eq_true, Bool.and_eq_true] at h
    rcases h with h | ⟨hspares, h⟩
    · exact (ih1 h hp hm).mono hsecond.1
    · obtain ⟨q, hmq, hqe, htaken, hahead⟩ := ih2 h hfirst.2 he
      refine ⟨q, Nat.le_trans hfirst.1 hmq, hqe, htaken, fun i hpi hi c hc hat => ?_⟩
      have hle := first.le_of_mem_ends_of_spares hat (List.all_eq_true.mp hspares c hc) hpi hm
      exact hahead i hle hi c hc hat
  | alt first second ih1 ih2 =>
    rw [takesAhead, Bool.and_eq_true] at h
    rcases List.mem_append.mp he with he | he
    · exact ih1 h.1 hp he
    · exact ih2 h.2 hp he
  | group index body ih => exact ih h hp he
  | rep greedy least most body ih =>
    rw [takesAhead, Bool.and_eq_true, bne_iff_ne] at h
    obtain ⟨hleast, hbody⟩ := h
    obtain ⟨m, hm, he⟩ := List.mem_flatMap.mp he
    have hstep : ∀ q, q ≤ text.size ∧ TakenAhead cs check text p q → ∀ q' ∈ body.ends text q,
        q' ≤ text.size ∧ TakenAhead cs check text p q' := by
      intro q hq q' hq'
      have hwithin := body.within_of_mem_ends hq.1 hq'
      exact ⟨hwithin.2, hq.2.mono hwithin.1⟩
    -- the first iteration is one of those that there have to be
    obtain ⟨n, rfl⟩ := Nat.exists_eq_succ_of_ne_zero hleast
    have hm' : m ≤ text.size ∧ TakenAhead cs check text p m := by
      rw [times] at hm
      split at hm
      · cases hm
      · refine forall_mem_times hstep n _ (fun q hq => ?_) m hm
        rw [List.flatMap_singleton] at hq
        exact ⟨(body.within_of_mem_ends hp hq).2, ih hbody hp hq⟩
    exact (forall_mem_iterations hstep greedy _ m [] hm' (by simp) e he).2

theorem takesAhead_nil (r : Regex) (check : CharSet → Bool) :
    r.takesAhead [] check = r.takes check := by
  induction r with
  | empty | anchor _ | set _ => rfl
  | seq first second ih1 ih2 =>
    rw [takesAhead, takes, ih1, ih2, List.all_nil, Bool.true_and]
  | alt first second ih1 ih2 => rw [takesAhead, takes, ih1, ih2]
  | group index body ih => exact ih
  | rep greedy least most body ih => rw [takesAhead, takes, ih]

/-- A character of a set that passes stands in the stretch. -/
def Taken (check : CharSet → Bool) (text : Source) (p e : Nat) : Prop :=
  ∃ q, p ≤ q ∧ q < e ∧ ∃ c, text[q]? = some c ∧ ∃ s : CharSet, check s = true ∧ s.contains c = true

/-- **A match takes a character from such a set.** -/
theorem taken_of_takes (r : Regex) {check : CharSet → Bool} (h : r.takes check = true)
    (hp : p ≤ text.size) (he : e ∈ r.ends text p) : Taken check text p e := by
  obtain ⟨q, hpq, hqe, htaken, -⟩ :=
    r.takenAhead_of_takesAhead ((r.takesAhead_nil check).trans h) hp he
  exact ⟨q, hpq, hqe, htaken⟩

/-- Every match takes one of the characters. -/
def needs (cs : List Char) : Regex → Bool :=
  takes fun s => s.chars?.any fun ds => ds.all cs.contains

/-- One of the characters stands in the stretch. -/
def Met (text : Source) (cs : List Char) (p e : Nat) : Prop :=
  ∃ q, p ≤ q ∧ q < e ∧ ∃ c ∈ cs, text[q]? = some c

theorem Met.mono (h : Met text cs p e) {p' e' : Nat} (hp : p' ≤ p) (he : e ≤ e') :
    Met text cs p' e' := by
  obtain ⟨q, hpq, hqe, hc⟩ := h
  exact ⟨q, Nat.le_trans hp hpq, Nat.lt_of_lt_of_le hqe he, hc⟩

/-- **A match has the character that it needs.** -/
theorem met_of_needs (r : Regex) (h : r.needs cs = true) (hp : p ≤ text.size)
    (he : e ∈ r.ends text p) : Met text cs p e := by
  obtain ⟨q, hpq, hqe, c, hc, s, hs, hcontains⟩ := r.taken_of_takes h hp he
  obtain ⟨ds, hds, hall⟩ := (Option.any_eq_true _ _).mp hs
  have hmem := List.all_eq_true.mp hall c (CharSet.mem_of_chars? hds hcontains)
  exact ⟨q, hpq, hqe, c, List.contains_iff_mem.mp hmem, hc⟩

/-- Every match takes a character that is none of these. -/
def strays (cs : List Char) : Regex → Bool := takes fun s => cs.all fun c => !s.contains c

/-- **A match that strays is not all within the characters.** -/
theorem exists_stray (r : Regex) (h : r.strays cs = true) (hp : p ≤ text.size)
    (he : e ∈ r.ends text p) : ∃ c ∈ text, c ∉ cs := by
  obtain ⟨q, -, -, c, hc, s, hs, hcontains⟩ := r.taken_of_takes h hp he
  refine ⟨c, Array.mem_of_getElem? hc, fun hmem => ?_⟩
  have hnot := List.all_eq_true.mp hs c hmem
  rw [hcontains] at hnot
  cases hnot

/-! ### Edges of words -/

/-- Where a word begins or ends. -/
def edge : Anchor := .word .boundary false

/-- Between two characters of words there is none. -/
theorem holds_edge_of_isWord (hbefore : (text.before? p).any CharClass.isWord = true)
    (hat : (text[p]?).any CharClass.isWord = true) : edge.holds text p = false := by
  have hedge : edge.holds text p = ((text.before? p).any CharClass.isWord !=
    (text[p]?).any CharClass.isWord) := rfl
  rw [hedge, hbefore, hat]
  rfl

/-- The expression begins with the edge of a word. -/
def opensAtEdge : Regex → Bool
  | anchor a => a == edge
  | seq a _ => a.opensAtEdge
  | empty | set _ | alt _ _ | group _ _ | rep _ _ _ _ => false

/-- The expression ends with the edge of a word. -/
def closesAtEdge : Regex → Bool
  | anchor a => a == edge
  | seq _ b => b.closesAtEdge
  | empty | set _ | alt _ _ | group _ _ | rep _ _ _ _ => false

theorem holds_of_mem_ends_anchor {a : Anchor} (he : e ∈ (anchor a).ends text p) :
    e = p ∧ a.holds text p = true := by
  rw [ends] at he
  split at he
  · next hholds => exact ⟨List.mem_singleton.mp he, hholds⟩
  · cases he

theorem holds_of_opensAtEdge (r : Regex) (h : r.opensAtEdge = true) (he : e ∈ r.ends text p) :
    edge.holds text p = true := by
  induction r generalizing e with
  | anchor a =>
    obtain rfl : a = edge := eq_of_beq h
    exact (holds_of_mem_ends_anchor he).2
  | seq first second ih1 ih2 =>
    obtain ⟨m, hm, -⟩ := List.mem_flatMap.mp he
    exact ih1 h hm
  | empty | set _ | alt | group | rep => cases h

theorem holds_of_closesAtEdge (r : Regex) (h : r.closesAtEdge = true) (he : e ∈ r.ends text p) :
    edge.holds text e = true := by
  induction r generalizing p with
  | anchor a =>
    obtain rfl : a = edge := eq_of_beq h
    obtain ⟨rfl, hholds⟩ := holds_of_mem_ends_anchor he
    exact hholds
  | seq first second ih1 ih2 =>
    obtain ⟨m, -, he⟩ := List.mem_flatMap.mp he
    exact ih2 h he
  | empty | set _ | alt | group | rep => cases h

end Regex

end Highlighting
