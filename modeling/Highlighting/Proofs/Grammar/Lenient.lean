/-
  Highlighting/Proofs/Grammar/Lenient.lean
  ========================================
  **A grammar without what is illegal.**

  A builder that is accepted is accepted when it is made lenient too
  (`finish_lenient`).  What comes out has the same modes.  Only the terminals
  are fewer, and therefore numbered differently: a list says for each of them
  which one of the first grammar it is (`Renumbers`).
-/
import Highlighting.Proofs.Grammar
import Highlighting.Proofs.Grammar.Recipe

namespace Highlighting

variable {numbers numbers' : Array Nat} {terminals terminals' added : Array Terminal}
  {lookbehind : Lookbehind} {count index : Nat}

/-! ### Numbers of terminals -/

/-- Each of the second terminals is one of the first, in the same order; the list has its number
there. -/
structure Renumbers (numbers : Array Nat) (terminals terminals' : Array Terminal) : Prop where
  size : numbers.size = terminals'.size
  same : ∀ n i : Nat, numbers[n]? = some i → terminals[i]? = terminals'[n]?
  ordered : numbers.toList.Pairwise (· < ·)

/-- What has a number keeps it. -/
def Extends (numbers numbers' : Array Nat) : Prop :=
  ∀ n i : Nat, numbers[n]? = some i → numbers'[n]? = some i

theorem Extends.refl (numbers : Array Nat) : Extends numbers numbers := fun _ _ h => h

theorem Extends.trans {numbers'' : Array Nat} (h : Extends numbers numbers')
    (h' : Extends numbers' numbers'') : Extends numbers numbers'' :=
  fun n i hi => h' n i (h n i hi)

theorem extends_push (numbers : Array Nat) (i : Nat) : Extends numbers (numbers.push i) := by
  intro n j hj
  have hlt := (Array.getElem?_eq_some_iff.mp hj).1
  rw [Array.getElem?_push_lt hlt, ← hj, Array.getElem?_eq_getElem hlt]

namespace Renumbers

theorem empty : Renumbers #[] #[] #[] := ⟨rfl, by simp, .nil⟩

theorem exists_terminal (h : Renumbers numbers terminals terminals') {n i : Nat}
    (hi : numbers[n]? = some i) : ∃ t, terminals[i]? = some t ∧ terminals'[n]? = some t := by
  have hlt := (Array.getElem?_eq_some_iff.mp hi).1
  rw [h.size] at hlt
  refine ⟨terminals'[n], ?_, Array.getElem?_eq_getElem hlt⟩
  rw [h.same n i hi, Array.getElem?_eq_getElem hlt]

theorem lt_size (h : Renumbers numbers terminals terminals') {n i : Nat}
    (hi : numbers[n]? = some i) : i < terminals.size ∧ n < terminals'.size := by
  obtain ⟨t, ht, ht'⟩ := h.exists_terminal hi
  exact ⟨(Array.getElem?_eq_some_iff.mp ht).1, (Array.getElem?_eq_some_iff.mp ht').1⟩

/-- **No two terminals have the same number.** -/
theorem eq_iff (h : Renumbers numbers terminals terminals') {n m i j : Nat}
    (hi : numbers[n]? = some i) (hj : numbers[m]? = some j) : n = m ↔ i = j := by
  constructor
  · rintro rfl
    exact Option.some.inj (hi.symm.trans hj)
  · rintro rfl
    rw [← Array.getElem?_toList, List.getElem?_eq_some_iff] at hi hj
    obtain ⟨hn, hi⟩ := hi
    obtain ⟨hm, hj⟩ := hj
    have hnodup : numbers.toList.Nodup := h.ordered.imp fun hlt => Nat.ne_of_lt hlt
    exact (List.Nodup.getElem_inj_iff hnodup).mp (hi.trans hj.symm)

/-- A terminal that only the first have. -/
theorem skip (h : Renumbers numbers terminals terminals') (t : Terminal) :
    Renumbers numbers (terminals.push t) terminals' := by
  refine ⟨h.size, fun n i hi => ?_, h.ordered⟩
  rw [Array.getElem?_push_lt (h.lt_size hi).1, ← h.same n i hi,
    Array.getElem?_eq_getElem (h.lt_size hi).1]

/-- A terminal that both have. -/
theorem push (h : Renumbers numbers terminals terminals') (t : Terminal) :
    Renumbers (numbers.push terminals.size) (terminals.push t) (terminals'.push t) := by
  refine ⟨by simp [h.size], fun n i hi => ?_, ?_⟩
  · rw [Array.getElem?_push] at hi
    split at hi
    · next heq =>
      obtain rfl := Option.some.inj hi
      rw [heq, h.size]
      simp
    · have hlt := h.lt_size hi
      rw [Array.getElem?_push_lt hlt.1, Array.getElem?_push_lt hlt.2]
      have hsame := h.same n i hi
      rw [Array.getElem?_eq_getElem hlt.1, Array.getElem?_eq_getElem hlt.2] at hsame
      exact hsame
  · rw [Array.toList_push, List.pairwise_append]
    refine ⟨h.ordered, List.pairwise_singleton _ _, fun i hi j hj => ?_⟩
    obtain ⟨n, hn⟩ := List.mem_iff_getElem?.mp hi
    rw [List.mem_singleton.mp hj]
    exact (h.lt_size (Array.getElem?_toList ▸ hn)).1

end Renumbers

/-! ### Lenient grammars -/

def Content.lenient (c : Content) : Content := { c with illegal := none }

/-- The same ending, with its terminal numbered differently. -/
inductive Ending.Renumbered (numbers : Array Nat) : Ending Nat → Ending Nat → Prop where
  | immediate : Renumbered numbers .immediate .immediate
  | never : Renumbered numbers .never .never
  | withParent : Renumbered numbers .withParent .withParent
  | pattern {n i : Nat} (h : numbers[n]? = some i) : Renumbered numbers (.pattern i) (.pattern n)

/-- The same mode, but for the numbers of terminals, without what is illegal. -/
structure Mode.Softened (numbers : Array Nat) (m m' : Mode) : Prop where
  scope : m'.scope = m.scope
  ending : Ending.Renumbered numbers m.ending m'.ending
  endsParent : m'.endsParent = m.endsParent
  excludesBegin : m'.excludesBegin = m.excludesBegin
  excludesEnd : m'.excludesEnd = m.excludesEnd
  relevance : m'.relevance = m.relevance
  content : m'.content = m.content.lenient

/-- The same grammar, but for the numbers of terminals, without what is illegal. -/
structure Grammar.Softened (numbers : Array Nat) (g g' : Grammar) : Prop where
  name : g'.name = g.name
  terminals : Renumbers numbers g.terminals g'.terminals
  mode : ∀ m, (g.mode m).Softened numbers (g'.mode m)
  opener : ∀ m < g.modes.size, numbers[(g'.mode m).opener]? = some (g.mode m).opener
  root : g'.root = g.root.lenient

theorem Ending.Renumbered.mono {e e' : Ending Nat} (h : e.Renumbered numbers e')
    (hext : Extends numbers numbers') : e.Renumbered numbers' e' := by
  cases h with
  | immediate => exact .immediate
  | never => exact .never
  | withParent => exact .withParent
  | pattern h => exact .pattern (hext _ _ h)

theorem Mode.Softened.mono {m m' : Mode} (h : m.Softened numbers m')
    (hext : Extends numbers numbers') : m.Softened numbers' m' :=
  { h with ending := h.ending.mono hext }

/-! ### Compiling without what is illegal -/

namespace Builder

theorem terminal_lenient {p : PatternDecl} {allowsEmpty : Bool}
    (h : terminal lookbehind p allowsEmpty terminals = .ok (index, added))
    (hnumbers : Renumbers numbers terminals terminals') :
    ∃ n added' numbers', terminal lookbehind p allowsEmpty terminals' = .ok (n, added') ∧
      Renumbers numbers' added added' ∧ Extends numbers numbers' ∧ numbers'[n]? = some index := by
  rw [terminal] at h ⊢
  split at h
  · next pattern _ =>
    cases h
    refine ⟨_, _, _, rfl, hnumbers.push ⟨pattern, allowsEmpty⟩, extends_push _ _, ?_⟩
    rw [← hnumbers.size]
    simp
  · cases h

theorem optionalTerminal_lenient {p : Option PatternDecl} {i : Option Nat}
    (h : optionalTerminal lookbehind p terminals = .ok (i, added))
    (hnumbers : Renumbers numbers terminals terminals') : Renumbers numbers added terminals' := by
  cases p with
  | none =>
    cases h
    exact hnumbers
  | some p =>
    obtain ⟨⟨t, ts⟩, ht, h⟩ := exists_of_bind_eq_ok h
    cases h
    rw [terminal] at ht
    split at ht
    · cases ht
      exact hnumbers.skip _
    · cases ht

theorem endingTerminal_lenient {e : Ending PatternDecl} {e₁ : Ending Nat}
    (h : endingTerminal lookbehind e terminals = .ok (e₁, added))
    (hnumbers : Renumbers numbers terminals terminals') :
    ∃ e₂ added' numbers', endingTerminal lookbehind e terminals' = .ok (e₂, added') ∧
      Renumbers numbers' added added' ∧ Extends numbers numbers' ∧ e₁.Renumbered numbers' e₂ := by
  cases e with
  | pattern p =>
    obtain ⟨⟨t, ts⟩, ht, h⟩ := exists_of_bind_eq_ok h
    cases h
    obtain ⟨n, added', numbers', ht', hnumbers', hext, hn⟩ := terminal_lenient ht hnumbers
    refine ⟨.pattern n, added', numbers', ?_, hnumbers', hext, .pattern hn⟩
    rw [endingTerminal, ht']
    rfl
  | immediate => cases h; exact ⟨_, _, _, rfl, hnumbers, .refl _, .immediate⟩
  | never => cases h; exact ⟨_, _, _, rfl, hnumbers, .refl _, .never⟩
  | withParent => cases h; exact ⟨_, _, _, rfl, hnumbers, .refl _, .withParent⟩

theorem compileMode_lenient {slot : Option ModeDecl} {m : Mode}
    (h : compileMode lookbehind count index slot terminals = .ok (m, added))
    (hnumbers : Renumbers numbers terminals terminals') :
    ∃ m' added' numbers',
      compileMode lookbehind count index (slot.map ModeDecl.lenient) terminals' =
        .ok (m', added') ∧
      Renumbers numbers' added added' ∧ Extends numbers numbers' ∧ m.Softened numbers' m' ∧
        numbers'[m'.opener]? = some m.opener := by
  cases slot with
  | none => cases h
  | some decl =>
    simp only [compileMode] at h
    split at h
    · cases h
    · next opener hdecl =>
      obtain ⟨⟨i, ts₁⟩, hopener, h⟩ := exists_of_bind_eq_ok h
      obtain ⟨⟨e, ts₂⟩, hending, h⟩ := exists_of_bind_eq_ok h
      obtain ⟨keywords, hkeywords, h⟩ := exists_of_bind_eq_ok h
      obtain ⟨⟨illegal, ts₃⟩, hillegal, h⟩ := exists_of_bind_eq_ok h
      obtain ⟨u, hcontains, h⟩ := exists_of_bind_eq_ok h
      cases h
      obtain ⟨n, ts₁', numbers₁, hopener', hnumbers₁, hext₁, hn⟩ :=
        terminal_lenient hopener hnumbers
      obtain ⟨e', ts₂', numbers₂, hending', hnumbers₂, hext₂, he⟩ :=
        endingTerminal_lenient hending hnumbers₁
      have hkeywords' : modeKeywords decl.lenient = .ok keywords := hkeywords
      refine ⟨⟨decl.scope, n, e', decl.endsParent, decl.excludesBegin, decl.excludesEnd,
          decl.effectiveRelevance, ⟨keywords, none, decl.contains⟩⟩, ts₂', numbers₂, ?_,
        optionalTerminal_lenient hillegal hnumbers₂, hext₁.trans hext₂,
        ⟨rfl, he, rfl, rfl, rfl, rfl, rfl⟩, hext₂ _ _ hn⟩
      have hopener'' : decl.lenient.opener = some opener := hdecl
      simp only [Option.map_some, compileMode, hopener'']
      rw [hopener']
      show (endingTerminal lookbehind decl.ending ts₁' >>= _) = _
      rw [hending']
      show (modeKeywords decl.lenient >>= _) = _
      rw [hkeywords']
      show (checkContains count decl.contains >>= _) = _
      rw [hcontains]
      rfl

/-- Modes that were compiled in turn, with and without what is illegal. -/
def SoftenedAll (numbers : Array Nat) (modes modes' : Array Mode) : Prop :=
  modes'.size = modes.size ∧ ∀ (k : Nat) (m : Mode), modes[k]? = some m →
    ∃ m', modes'[k]? = some m' ∧ m.Softened numbers m' ∧ numbers[m'.opener]? = some m.opener

theorem SoftenedAll.push {modes modes' : Array Mode} {m m' : Mode}
    (h : SoftenedAll numbers modes modes') (hext : Extends numbers numbers')
    (hm : m.Softened numbers' m') (hopener : numbers'[m'.opener]? = some m.opener) :
    SoftenedAll numbers' (modes.push m) (modes'.push m') := by
  obtain ⟨hsize, hall⟩ := h
  refine ⟨by simp [hsize], fun k m₁ hk => ?_⟩
  rw [Array.getElem?_push] at hk
  split at hk
  · next heq =>
    obtain rfl := Option.some.inj hk
    exact ⟨m', by rw [heq, ← hsize]; simp, hm, hopener⟩
  · obtain ⟨m₂, hk', hsoft, hopener'⟩ := hall k m₁ hk
    have hlt := (Array.getElem?_eq_some_iff.mp hk').1
    refine ⟨m₂, ?_, hsoft.mono hext, hext _ _ hopener'⟩
    rw [Array.getElem?_push_lt hlt, ← hk', Array.getElem?_eq_getElem hlt]

theorem compileModes_lenient {slots : List (Option ModeDecl)} {modes₁ modes modes' : Array Mode}
    (h : compileModes lookbehind count slots index modes terminals = .ok (modes₁, added))
    (hnumbers : Renumbers numbers terminals terminals')
    (hmodes : SoftenedAll numbers modes modes') :
    ∃ modes₂ added' numbers',
      compileModes lookbehind count (slots.map (·.map ModeDecl.lenient)) index modes' terminals' =
        .ok (modes₂, added') ∧
      Renumbers numbers' added added' ∧ SoftenedAll numbers' modes₁ modes₂ := by
  induction slots generalizing index modes modes' terminals terminals' numbers with
  | nil =>
    cases h
    exact ⟨modes', terminals', numbers, rfl, hnumbers, hmodes⟩
  | cons slot slots ih =>
    obtain ⟨⟨m, ts⟩, hm, h⟩ := exists_of_bind_eq_ok h
    obtain ⟨m', ts', numbers₁, hm', hnumbers₁, hext, hsoft, hopener⟩ :=
      compileMode_lenient hm hnumbers
    obtain ⟨modes₂, added', numbers₂, hrest, hnumbers₂, hall⟩ :=
      ih h hnumbers₁ (hmodes.push hext hsoft hopener)
    refine ⟨modes₂, added', numbers₂, ?_, hnumbers₂, hall⟩
    rw [List.map_cons, compileModes, hm']
    exact hrest

/-- **What is accepted is accepted without what is illegal**, and is the same but for that and for
the numbers of terminals. -/
theorem finish_lenient {b : Builder} {language : LanguageDecl} {g : Grammar}
    (h : b.finish language = .ok g) :
    ∃ g' numbers, b.lenient.finish language.lenient = .ok g' ∧ g.Softened numbers g' := by
  obtain ⟨⟨modes, ts₁⟩, hmodes, h⟩ := exists_of_bind_eq_ok h
  obtain ⟨⟨illegal, ts₂⟩, hillegal, h⟩ := exists_of_bind_eq_ok h
  obtain ⟨u, hcontains, h⟩ := exists_of_bind_eq_ok h
  cases h
  obtain ⟨modes', ts', numbers, hmodes', hnumbers, hsize, hall⟩ :=
    compileModes_lenient hmodes .empty ⟨rfl, by simp⟩
  refine ⟨⟨language.name, language.aliases, modes', ⟨language.keywords, none, language.contains⟩,
    ts'⟩, numbers, ?_, rfl, optionalTerminal_lenient hillegal hnumbers, fun k => ?_, fun k hk => ?_,
    rfl⟩
  · have hcount : b.lenient.modes.size = b.modes.size := Array.size_map
    have hlist : b.lenient.modes.toList = b.modes.toList.map (·.map ModeDecl.lenient) :=
      Array.toList_map
    rw [finish, hcount, hlist]
    show (compileModes b.lookbehind _ _ 0 #[] #[] >>= _) = _
    rw [hmodes']
    show (checkContains b.modes.size language.contains >>= _) = _
    rw [hcontains]
    rfl
  · simp only [Grammar.mode]
    cases hk : modes[k]? with
    | none =>
      have hk' : modes'[k]? = none := by
        rw [Array.getElem?_eq_none_iff] at hk ⊢
        omega
      rw [hk']
      exact ⟨rfl, .immediate, rfl, rfl, rfl, rfl, rfl⟩
    | some m =>
      obtain ⟨m', hk', hsoft, -⟩ := hall k m hk
      rw [hk']
      exact hsoft
  · obtain ⟨m', hk', -, hopener⟩ := hall k modes[k] (Array.getElem?_eq_getElem hk)
    simp only [Grammar.mode, hk', Array.getElem?_eq_getElem hk]
    exact hopener

end Builder

end Highlighting
