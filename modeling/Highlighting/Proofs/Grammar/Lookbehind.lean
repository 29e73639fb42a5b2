/-
  Highlighting/Proofs/Grammar/Lookbehind.lean
  ===========================================
  **One grammar with guards realised in two ways.**

  How guards are realised is settled when the patterns are compiled, and no
  step of the construction asks for it (`Builder.follow_looking`).  So the
  grammars that one recipe gives have all in common but their terminals, and of
  these each is the same declared pattern, compiled in the one way and in the
  other (`Builder.twins_of_finish`).
-/
import Highlighting.Proofs.Grammar.Realized
import Highlighting.Proofs.Grammar.Recipe

namespace Highlighting

variable {l l' : Lookbehind} {ps : List PatternDecl} {ts us ts' us' : Array Terminal}
  {count index : Nat}

/-! ### Recipes -/

namespace Builder

/-- The same modes, with guards realised in that way. -/
def looking (l : Lookbehind) (b : Builder) : Builder := { b with lookbehind := l }

theorem start_declare_looking (base : Base) (b : Builder) :
    Description.start base (b.looking l) =
      (Description.start base b).map fun (m, b) => (m, b.looking l) := by
  cases base with
  | blank => rfl
  | title written => rfl
  | inherited index =>
    simp only [Description.start, inherit, looking]
    cases b.modes[index]? with
    | none => rfl
    | some slot => cases slot <;> rfl

theorem declare_looking (d : Description) (b : Builder) :
    d.declare (b.looking l) = (d.declare b).map fun (m, b) => (m, b.looking l) := by
  rw [Description.declare, Description.declare, start_declare_looking]
  cases Description.start d.base b <;> rfl

/-- **No step depends on how guards are realised.** -/
theorem construct_looking (step : BuildStep) (b : Builder) :
    step.construct (b.looking l) = (step.construct b).map fun (u, b) => (u, b.looking l) := by
  cases step with
  | add d =>
    show (d.declare (b.looking l) >>= fun r => _) = (d.declare b >>= fun r => _).map _
    rw [declare_looking]
    cases d.declare b <;> rfl
  | reserve => rfl
  | define index d =>
    show (d.declare (b.looking l) >>= fun r => define index r.1 r.2) =
      (d.declare b >>= fun r => define index r.1 r.2).map _
    rw [declare_looking]
    cases d.declare b with
    | error e => rfl
    | ok r =>
      show define index r.1 (r.2.looking l) = (define index r.1 r.2).map _
      by_cases hlt : index < r.2.modes.size <;> simp [define, looking, hlt, Except.map]
  | doctag =>
    obtain ⟨lookbehind, modes, doctag?, lineComment?, blockComment?, escape?⟩ := b
    cases doctag? <;> rfl
  | lineComment =>
    obtain ⟨lookbehind, modes, doctag?, lineComment?, blockComment?, escape?⟩ := b
    cases lineComment? <;> cases doctag? <;> rfl
  | blockComment =>
    obtain ⟨lookbehind, modes, doctag?, lineComment?, blockComment?, escape?⟩ := b
    cases blockComment? <;> cases doctag? <;> rfl
  | escape =>
    obtain ⟨lookbehind, modes, doctag?, lineComment?, blockComment?, escape?⟩ := b
    cases escape? <;> rfl

theorem take_looking (step : BuildStep) (b : Builder) :
    (b.looking l).take step = (b.take step).looking l := by
  rw [take, take, construct_looking]
  cases step.construct b <;> rfl

theorem follow_looking (l l' : Lookbehind) (steps : List BuildStep) :
    follow l' steps = (follow l steps).looking l' := by
  have hall : ∀ b : Builder, steps.foldl take (b.looking l') = (steps.foldl take b).looking l' := by
    induction steps with
    | nil => exact fun b => rfl
    | cons step steps ih =>
      intro b
      rw [List.foldl_cons, take_looking, ih, List.foldl_cons]
  exact hall (start l)

end Builder

/-! ### Terminals compiled in two ways -/

/-- The terminals are those of the same declared patterns, in the same order. -/
structure Twins (l l' : Lookbehind) (ps : List PatternDecl) (ts ts' : Array Terminal) : Prop where
  size : ts'.size = ts.size
  same : ∀ (i : Nat) t t', ts[i]? = some t → ts'[i]? = some t' →
    t'.allowsEmpty = t.allowsEmpty ∧
      ∃ p ∈ ps, p.compile? l = some t.pattern ∧ p.compile? l' = some t'.pattern

namespace Twins

theorem empty : Twins l l' ps #[] #[] := ⟨rfl, by simp⟩

theorem push (h : Twins l l' ps ts ts') {p : PatternDecl} {q q' : Pattern} (hp : p ∈ ps)
    (hq : p.compile? l = some q) (hq' : p.compile? l' = some q') (allowsEmpty : Bool) :
    Twins l l' ps (ts.push ⟨q, allowsEmpty⟩) (ts'.push ⟨q', allowsEmpty⟩) := by
  refine ⟨by simp [h.size], fun i t t' ht ht' => ?_⟩
  rw [Array.getElem?_push] at ht ht'
  rw [h.size] at ht'
  split at ht
  · next heq =>
    rw [if_pos heq] at ht'
    cases ht
    cases ht'
    exact ⟨rfl, p, hp, hq, hq'⟩
  · next hne =>
    rw [if_neg hne] at ht'
    exact h.same i t t' ht ht'

end Twins

namespace Builder

theorem twins_terminal {p : PatternDecl} {allowsEmpty : Bool} {i i' : Nat}
    (h : terminal l p allowsEmpty ts = .ok (i, us))
    (h' : terminal l' p allowsEmpty ts' = .ok (i', us')) (htwins : Twins l l' ps ts ts')
    (hp : p ∈ ps) : i' = i ∧ Twins l l' ps us us' := by
  rw [terminal] at h h'
  split at h
  · next q hq =>
    split at h'
    · next q' hq' =>
      cases h
      cases h'
      exact ⟨htwins.size, htwins.push hp hq hq' allowsEmpty⟩
    · cases h'
  · cases h

theorem twins_optionalTerminal {p : Option PatternDecl} {i i' : Option Nat}
    (h : optionalTerminal l p ts = .ok (i, us)) (h' : optionalTerminal l' p ts' = .ok (i', us'))
    (htwins : Twins l l' ps ts ts') (hps : p.toList ⊆ ps) : i' = i ∧ Twins l l' ps us us' := by
  cases p with
  | none =>
    cases h
    cases h'
    exact ⟨rfl, htwins⟩
  | some p =>
    obtain ⟨⟨t, _⟩, ht, h⟩ := exists_of_bind_eq_ok h
    obtain ⟨⟨t', _⟩, ht', h'⟩ := exists_of_bind_eq_ok h'
    cases h
    cases h'
    obtain ⟨rfl, htwins⟩ := twins_terminal ht ht' htwins (hps (by simp))
    exact ⟨rfl, htwins⟩

theorem twins_endingTerminal {e : Ending PatternDecl} {e₁ e₁' : Ending Nat}
    (h : endingTerminal l e ts = .ok (e₁, us)) (h' : endingTerminal l' e ts' = .ok (e₁', us'))
    (htwins : Twins l l' ps ts ts') (hps : e.pattern?.toList ⊆ ps) :
    e₁' = e₁ ∧ Twins l l' ps us us' := by
  cases e with
  | pattern p =>
    obtain ⟨⟨t, _⟩, ht, h⟩ := exists_of_bind_eq_ok h
    obtain ⟨⟨t', _⟩, ht', h'⟩ := exists_of_bind_eq_ok h'
    cases h
    cases h'
    obtain ⟨rfl, htwins⟩ := twins_terminal ht ht' htwins (hps (by simp [Ending.pattern?]))
    exact ⟨rfl, htwins⟩
  | immediate => cases h; cases h'; exact ⟨rfl, htwins⟩
  | never => cases h; cases h'; exact ⟨rfl, htwins⟩
  | withParent => cases h; cases h'; exact ⟨rfl, htwins⟩

theorem twins_compileMode {slot : Option ModeDecl} {m m' : Mode}
    (h : compileMode l count index slot ts = .ok (m, us))
    (h' : compileMode l' count index slot ts' = .ok (m', us')) (htwins : Twins l l' ps ts ts')
    (hps : slot.toList.flatMap ModeDecl.patterns ⊆ ps) : m' = m ∧ Twins l l' ps us us' := by
  cases slot with
  | none => cases h
  | some decl =>
    simp only [Option.toList_some, List.flatMap_singleton, ModeDecl.patterns,
      List.append_subset] at hps
    obtain ⟨⟨hopens, hends⟩, hforbids⟩ := hps
    simp only [compileMode] at h h'
    split at h
    · cases h
    · next opener hdecl =>
      rw [hdecl] at h' hopens
      obtain ⟨⟨i, _⟩, hopener, h⟩ := exists_of_bind_eq_ok h
      obtain ⟨⟨e, _⟩, hending, h⟩ := exists_of_bind_eq_ok h
      obtain ⟨keywords, hkeywords, h⟩ := exists_of_bind_eq_ok h
      obtain ⟨⟨illegal, _⟩, hillegal, h⟩ := exists_of_bind_eq_ok h
      obtain ⟨_, _, h⟩ := exists_of_bind_eq_ok h
      obtain ⟨⟨i', _⟩, hopener', h'⟩ := exists_of_bind_eq_ok h'
      obtain ⟨⟨e', _⟩, hending', h'⟩ := exists_of_bind_eq_ok h'
      obtain ⟨keywords', hkeywords', h'⟩ := exists_of_bind_eq_ok h'
      obtain ⟨⟨illegal', _⟩, hillegal', h'⟩ := exists_of_bind_eq_ok h'
      obtain ⟨_, _, h'⟩ := exists_of_bind_eq_ok h'
      cases h
      cases h'
      obtain ⟨rfl, htwins⟩ := twins_terminal hopener hopener' htwins (hopens (by simp))
      obtain ⟨rfl, htwins⟩ := twins_endingTerminal hending hending' htwins hends
      obtain rfl := Except.ok.inj (hkeywords.symm.trans hkeywords')
      obtain ⟨rfl, htwins⟩ := twins_optionalTerminal hillegal hillegal' htwins hforbids
      exact ⟨rfl, htwins⟩

theorem twins_compileModes {slots : List (Option ModeDecl)} {modes modes₁ modes₁' : Array Mode}
    (h : compileModes l count slots index modes ts = .ok (modes₁, us))
    (h' : compileModes l' count slots index modes ts' = .ok (modes₁', us'))
    (htwins : Twins l l' ps ts ts')
    (hps : (slots.flatMap fun slot => slot.toList.flatMap ModeDecl.patterns) ⊆ ps) :
    modes₁' = modes₁ ∧ Twins l l' ps us us' := by
  induction slots generalizing index modes ts ts' with
  | nil =>
    cases h
    cases h'
    exact ⟨rfl, htwins⟩
  | cons slot slots ih =>
    rw [List.flatMap_cons, List.append_subset] at hps
    obtain ⟨⟨m, _⟩, hm, h⟩ := exists_of_bind_eq_ok h
    obtain ⟨⟨m', _⟩, hm', h'⟩ := exists_of_bind_eq_ok h'
    obtain ⟨rfl, htwins⟩ := twins_compileMode hm hm' htwins hps.1
    exact ih h h' htwins hps.2

/-- **The grammars of one recipe differ in their terminals alone**, and these are the same declared
patterns, compiled in the one way and in the other. -/
theorem twins_of_finish {b : Builder} {language : LanguageDecl} {g g' : Grammar}
    (h : (b.looking l).finish language = .ok g) (h' : (b.looking l').finish language = .ok g') :
    g' = { g with terminals := g'.terminals } ∧
      Twins l l' (b.patterns language) g.terminals g'.terminals := by
  obtain ⟨⟨modes, _⟩, hmodes, h⟩ := exists_of_bind_eq_ok h
  obtain ⟨⟨illegal, _⟩, hillegal, h⟩ := exists_of_bind_eq_ok h
  obtain ⟨_, _, h⟩ := exists_of_bind_eq_ok h
  obtain ⟨⟨modes', _⟩, hmodes', h'⟩ := exists_of_bind_eq_ok h'
  obtain ⟨⟨illegal', _⟩, hillegal', h'⟩ := exists_of_bind_eq_ok h'
  obtain ⟨_, _, h'⟩ := exists_of_bind_eq_ok h'
  cases h
  cases h'
  obtain ⟨rfl, htwins⟩ := twins_compileModes hmodes hmodes' .empty (List.subset_append_left _ _)
  obtain ⟨rfl, htwins⟩ :=
    twins_optionalTerminal hillegal hillegal' htwins (List.subset_append_right _ _)
  exact ⟨rfl, htwins⟩

end Builder

end Highlighting
