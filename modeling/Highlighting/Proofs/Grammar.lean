/-
  Highlighting/Proofs/Grammar.lean
  ================================
  **Grammars that a builder makes.**

  A grammar that `Builder.finish` accepts is in order: what opens a mode and
  what is illegal are terminals of which empty matches do not count, and
  modes contain modes of the same grammar only (`Grammar.InOrder`).  A scan
  needs the first to get on, and the second never to meet a mode that is none.

  All its terminals are of declared patterns, so that with the usual
  lookbehind they search steadily (`Builder.searchesSteadily_of_emulated`).
-/
import Highlighting.Grammar.Builder
import Highlighting.Proofs.Pattern

namespace Highlighting

variable {terminals terminals' : Array Terminal} {count index : Nat} {lookbehind : Lookbehind}

/-- The number of a terminal of which empty matches count, or do not. -/
def Declares (terminals : Array Terminal) (allowsEmpty : Bool) (index : Nat) : Prop :=
  ∃ t, terminals[index]? = some t ∧ t.allowsEmpty = allowsEmpty

/-- What is illegal is a terminal, and what is contained are modes. -/
structure Content.InOrder (count : Nat) (terminals : Array Terminal) (c : Content) : Prop where
  illegal : ∀ t, c.illegal = some t → Declares terminals false t
  contains : ∀ m ∈ c.contains, m < count

/-- What opens a mode and what ends it are terminals, and its content is in order. -/
structure Mode.InOrder (count : Nat) (terminals : Array Terminal) (m : Mode) : Prop where
  opener : Declares terminals false m.opener
  ending : ∀ t, m.ending = .pattern t → Declares terminals true t
  content : m.content.InOrder count terminals

structure Grammar.InOrder (g : Grammar) : Prop where
  modes : ∀ m ∈ g.modes, m.InOrder g.modes.size g.terminals
  root : g.root.InOrder g.modes.size g.terminals

theorem not_declares_both (h : Declares terminals true index)
    (h' : Declares terminals false index) : False := by
  obtain ⟨t, ht, hallows⟩ := h
  obtain ⟨t', ht', hrefuses⟩ := h'
  obtain rfl : t = t' := Option.some.inj (ht.symm.trans ht')
  exact Bool.false_ne_true (hrefuses.symm.trans hallows)

theorem lt_size_of_declares {allowsEmpty : Bool} (h : Declares terminals allowsEmpty index) :
    index < terminals.size := by
  obtain ⟨t, ht, -⟩ := h
  exact (Array.getElem?_eq_some_iff.mp ht).1

namespace Grammar.InOrder

variable {g : Grammar} {m : Nat}

theorem mode (h : g.InOrder) (hm : m < g.modes.size) :
    (g.mode m).InOrder g.modes.size g.terminals := by
  rw [Grammar.mode, Array.getElem?_eq_getElem hm]
  exact h.modes _ (Array.getElem_mem hm)

/-- The mode of a number, or none at all. -/
theorem mode_or_default (h : g.InOrder) (m : Nat) :
    (g.mode m).InOrder g.modes.size g.terminals ∨ g.mode m = default := by
  rcases Nat.lt_or_ge m g.modes.size with hlt | hge
  · exact .inl (h.mode hlt)
  · right
    rw [Grammar.mode, Array.getElem?_eq_none hge]
    rfl

theorem content (h : g.InOrder) (m : Nat) :
    (g.mode m).content.InOrder g.modes.size g.terminals := by
  rcases h.mode_or_default m with hm | hm
  · exact hm.content
  · rw [hm]
    constructor
    · intro t ht
      cases ht
    · intro m hm
      cases hm

theorem ending (h : g.InOrder) {t : Nat} (ht : (g.mode m).ending = .pattern t) :
    Declares g.terminals true t := by
  rcases h.mode_or_default m with hm | hm
  · exact hm.ending t ht
  · rw [hm] at ht
    cases ht

end Grammar.InOrder

/-! ### Terminals are only added -/

/-- All terminals keep their numbers, and the new ones are of declared patterns. -/
structure Keeps (lookbehind : Lookbehind) (terminals terminals' : Array Terminal) : Prop where
  old : ∀ (i : Nat) (t : Terminal), terminals[i]? = some t → terminals'[i]? = some t
  new : ∀ t ∈ terminals', t ∈ terminals ∨
    ∃ p : PatternDecl, p.compile? lookbehind = some t.pattern

theorem Keeps.refl (terminals : Array Terminal) : Keeps lookbehind terminals terminals :=
  ⟨fun _ _ h => h, fun _ h => .inl h⟩

theorem Keeps.trans {terminals'' : Array Terminal} (h : Keeps lookbehind terminals terminals')
    (h' : Keeps lookbehind terminals' terminals'') : Keeps lookbehind terminals terminals'' := by
  refine ⟨fun i t ht => h'.old i t (h.old i t ht), fun t ht => ?_⟩
  rcases h'.new t ht with ht | hp
  · exact h.new t ht
  · exact .inr hp

theorem Declares.mono {allowsEmpty : Bool} (h : Declares terminals allowsEmpty index)
    (hkeeps : Keeps lookbehind terminals terminals') : Declares terminals' allowsEmpty index := by
  obtain ⟨t, ht, hempty⟩ := h
  exact ⟨t, hkeeps.old index t ht, hempty⟩

theorem Content.InOrder.mono {c : Content} (h : c.InOrder count terminals)
    (hkeeps : Keeps lookbehind terminals terminals') : c.InOrder count terminals' :=
  ⟨fun t ht => (h.illegal t ht).mono hkeeps, h.contains⟩

theorem Mode.InOrder.mono {m : Mode} (h : m.InOrder count terminals)
    (hkeeps : Keeps lookbehind terminals terminals') : m.InOrder count terminals' :=
  ⟨h.opener.mono hkeeps, fun t ht => (h.ending t ht).mono hkeeps, h.content.mono hkeeps⟩

namespace Builder

/-- A step that succeeds is followed by what succeeds. -/
theorem exists_of_bind_eq_ok {α β : Type} {x : Except GrammarError α}
    {f : α → Except GrammarError β} {b : β} (h : (x >>= f) = .ok b) :
    ∃ a, x = .ok a ∧ f a = .ok b := by
  cases x with
  | error e => cases h
  | ok a => exact ⟨a, rfl, h⟩

theorem terminal_spec {p : PatternDecl} {allowsEmpty : Bool}
    (h : terminal lookbehind p allowsEmpty terminals = .ok (index, terminals')) :
    Keeps lookbehind terminals terminals' ∧ Declares terminals' allowsEmpty index := by
  rw [terminal] at h
  split at h
  · next pattern hpattern =>
    cases h
    refine ⟨⟨fun i t ht => ?_, fun t ht => ?_⟩, ⟨pattern, allowsEmpty⟩, by simp, rfl⟩
    · have hlt := (Array.getElem?_eq_some_iff.mp ht).1
      rw [Array.getElem?_push_lt hlt, ← ht, Array.getElem?_eq_getElem hlt]
    · rcases Array.mem_push.mp ht with ht | rfl
      · exact .inl ht
      · exact .inr ⟨p, hpattern⟩
  · cases h

theorem optionalTerminal_spec {p : Option PatternDecl} {index : Option Nat}
    (h : optionalTerminal lookbehind p terminals = .ok (index, terminals')) :
    Keeps lookbehind terminals terminals' ∧ ∀ t, index = some t → Declares terminals' false t := by
  cases p with
  | none =>
    cases h
    exact ⟨.refl _, fun _ ht => nomatch ht⟩
  | some p =>
    obtain ⟨⟨t, ts⟩, ht, h⟩ := exists_of_bind_eq_ok h
    cases h
    obtain ⟨hkeeps, hdeclares⟩ := terminal_spec ht
    refine ⟨hkeeps, fun t' ht' => ?_⟩
    cases ht'
    exact hdeclares

theorem endingTerminal_spec {ending : Ending PatternDecl} {ending' : Ending Nat}
    (h : endingTerminal lookbehind ending terminals = .ok (ending', terminals')) :
    Keeps lookbehind terminals terminals' ∧
      ∀ t, ending' = .pattern t → Declares terminals' true t := by
  cases ending with
  | pattern p =>
    obtain ⟨⟨t, ts⟩, ht, h⟩ := exists_of_bind_eq_ok h
    cases h
    obtain ⟨hkeeps, hdeclares⟩ := terminal_spec ht
    refine ⟨hkeeps, fun t' ht' => ?_⟩
    cases ht'
    exact hdeclares
  | immediate => cases h; exact ⟨.refl _, fun _ ht => nomatch ht⟩
  | never => cases h; exact ⟨.refl _, fun _ ht => nomatch ht⟩
  | withParent => cases h; exact ⟨.refl _, fun _ ht => nomatch ht⟩

theorem lt_of_checkContains {ms : List Nat} {u : Unit} (h : checkContains count ms = .ok u) :
    ∀ m ∈ ms, m < count := by
  induction ms with
  | nil => simp
  | cons n ns ih =>
    rw [checkContains] at h
    split at h
    · next hlt =>
      intro m hm
      rcases List.mem_cons.mp hm with rfl | hm
      · exact hlt
      · exact ih h m hm
    · cases h

theorem compileMode_spec {slot : Option ModeDecl} {m : Mode}
    (h : compileMode lookbehind count index slot terminals = .ok (m, terminals')) :
    Keeps lookbehind terminals terminals' ∧ m.InOrder count terminals' := by
  cases slot with
  | none => cases h
  | some decl =>
    simp only [compileMode] at h
    split at h
    · cases h
    · obtain ⟨⟨opener, ts1⟩, hopener, h⟩ := exists_of_bind_eq_ok h
      obtain ⟨⟨ending, ts2⟩, hending, h⟩ := exists_of_bind_eq_ok h
      obtain ⟨keywords, -, h⟩ := exists_of_bind_eq_ok h
      obtain ⟨⟨illegal, ts3⟩, hillegal, h⟩ := exists_of_bind_eq_ok h
      obtain ⟨u, hcontains, h⟩ := exists_of_bind_eq_ok h
      cases h
      obtain ⟨hkeeps1, hopener'⟩ := terminal_spec hopener
      obtain ⟨hkeeps2, hending'⟩ := endingTerminal_spec hending
      obtain ⟨hkeeps3, hillegal'⟩ := optionalTerminal_spec hillegal
      -- what was declared before stays declared, since terminals are only added
      refine ⟨hkeeps1.trans (hkeeps2.trans hkeeps3), ?_, ?_, hillegal',
        lt_of_checkContains hcontains⟩
      · exact hopener'.mono (hkeeps2.trans hkeeps3)
      · intro t ht
        exact (hending' t ht).mono hkeeps3

theorem compileModes_spec {slots : List (Option ModeDecl)} {modes modes' : Array Mode}
    (h : compileModes lookbehind count slots index modes terminals = .ok (modes', terminals'))
    (hmodes : ∀ m ∈ modes, m.InOrder count terminals) :
    Keeps lookbehind terminals terminals' ∧ (∀ m ∈ modes', m.InOrder count terminals') ∧
      modes'.size = modes.size + slots.length := by
  induction slots generalizing index modes terminals with
  | nil =>
    cases h
    exact ⟨.refl _, hmodes, rfl⟩
  | cons slot slots ih =>
    obtain ⟨⟨m, ts⟩, hm, h⟩ := exists_of_bind_eq_ok h
    obtain ⟨hkeeps, horder⟩ := compileMode_spec hm
    have hpush : ∀ k ∈ modes.push m, k.InOrder count ts := by
      intro k hk
      rcases Array.mem_push.mp hk with hk | rfl
      · exact (hmodes k hk).mono hkeeps
      · exact horder
    obtain ⟨hkeeps', hall, hsize⟩ := ih h hpush
    refine ⟨hkeeps.trans hkeeps', hall, ?_⟩
    rw [hsize, Array.size_push, List.length_cons]
    omega

/-- What is known of a grammar that is accepted. -/
theorem finish_spec {b : Builder} {language : LanguageDecl} {g : Grammar}
    (h : b.finish language = .ok g) : Keeps b.lookbehind #[] g.terminals ∧ g.InOrder := by
  obtain ⟨⟨modes, ts1⟩, hmodes, h⟩ := exists_of_bind_eq_ok h
  obtain ⟨⟨illegal, ts2⟩, hillegal, h⟩ := exists_of_bind_eq_ok h
  obtain ⟨u, hcontains, h⟩ := exists_of_bind_eq_ok h
  cases h
  obtain ⟨hkeeps, hall, hsize⟩ := compileModes_spec hmodes (by simp)
  have hcount : modes.size = b.modes.size := by simpa using hsize
  obtain ⟨hkeeps', hillegal'⟩ := optionalTerminal_spec hillegal
  have hcontains' : ∀ m ∈ language.contains, m < modes.size := by
    rw [hcount]
    exact lt_of_checkContains hcontains
  refine ⟨hkeeps.trans hkeeps', fun m hm => ?_, hillegal', hcontains'⟩
  show m.InOrder modes.size ts2
  rw [hcount]
  exact (hall m hm).mono hkeeps'

/-- **A grammar that is accepted is in order.** -/
theorem inOrder_of_finish {b : Builder} {language : LanguageDecl} {g : Grammar}
    (h : b.finish language = .ok g) : g.InOrder :=
  (finish_spec h).2

/-- **Where guards are checked on each match, all patterns search steadily.** -/
theorem searchesSteadily_of_emulated {b : Builder} {language : LanguageDecl} {g : Grammar}
    (h : b.finish language = .ok g) (hemulated : b.lookbehind = .emulated) (text : Source) :
    g.SearchesSteadily text := by
  intro t ht
  rcases (finish_spec h).1.new t ht with ht | ⟨p, hp⟩
  · exact absurd ht (Array.not_mem_empty t)
  · rw [hemulated] at hp
    exact PatternDecl.isSteady_of_emulated hp text

end Builder

/-! ### A small grammar

Text in quotes, which must not run over the end of a line. -/

namespace Quotes

def quoted : ModeDecl :=
  { ModeDecl.opening (.literal "'") with
    scope := some .string, ending := .pattern (.literal "'"), illegal := some (.literal "\n") }

def builder : Builder := { Builder.start .usual with modes := #[some quoted] }

/-- The language with quoted text at the outermost level. -/
def language : LanguageDecl := ⟨"quotes", [], none, [0], none⟩

def single (c : Char) : Pattern := .regex (.regular (.listing (.char c))) none [] 0

/-- What the builder makes of the language. -/
def grammar : Grammar where
  name := "quotes"
  aliases := []
  modes := #[⟨some .string, 0, .pattern 1, false, false, false, 1, ⟨none, some 2, []⟩⟩]
  root := ⟨none, none, [0]⟩
  terminals := #[⟨single '\'', false⟩, ⟨single '\'', true⟩, ⟨single '\n', false⟩]

set_option maxRecDepth 2000 in
theorem finish_builder : builder.finish language = .ok grammar := rfl

theorem exists_single {t : Terminal} (ht : t ∈ grammar.terminals) :
    ∃ c, t.pattern = single c := by
  simp only [grammar, List.mem_toArray, List.mem_cons, List.not_mem_nil, or_false] at ht
  rcases ht with rfl | rfl | rfl
  · exact ⟨'\'', rfl⟩
  · exact ⟨'\'', rfl⟩
  · exact ⟨'\n', rfl⟩

theorem isReliable (text : Source) : grammar.IsReliable text := by
  intro t ht
  obtain ⟨c, hc⟩ := exists_single ht
  rw [hc]
  exact fun h => absurd h (Nat.lt_irrefl 0)

end Quotes

end Highlighting
