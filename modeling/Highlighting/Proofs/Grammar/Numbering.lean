/-
  Highlighting/Proofs/Grammar/Numbering.lean
  ==========================================
  **Whose the terminals of a grammar are.**

  Terminals get their numbers as the patterns are compiled: for each mode what
  opens it, what ends it and what is illegal in it, and at last what is illegal
  at the outermost level.  A compiling step so adds exactly the numbers from the
  size of the list on (`Numbers`), and all the terminals of a grammar, in that
  order, have the numbers `0, 1, 2, …` (`numbers_of_finish`).  From this each of
  them is used once: by one mode, in one role.

  With the faults that `finish` answers (`Builder.reports_finish`), this says
  what comes of any declarations at all.
-/
import Highlighting.Proofs.Grammar.Faults

namespace Highlighting

variable {lookbehind : Lookbehind} {terminals terminals' : Array Terminal} {count index : Nat}

/-! ### The terminals of a mode -/

/-- What a pattern is for, in the mode that has it. -/
inductive Role where
  | opener
  | ending
  | illegal
  deriving DecidableEq, Repr

namespace Role

/-- In the order in which they are compiled. -/
def all : List Role := [.opener, .ending, .illegal]

theorem mem_all (role : Role) : role ∈ all := by
  cases role <;> decide

end Role

def Ending.terminal? : Ending Nat → Option Nat
  | .pattern t => some t
  | .immediate | .never | .withParent => none

def Mode.terminal? (m : Mode) : Role → Option Nat
  | .opener => some m.opener
  | .ending => m.ending.terminal?
  | .illegal => m.content.illegal

/-- The numbers of the terminals of a mode. -/
def Mode.numbers (m : Mode) : List Nat := Role.all.flatMap fun role => (m.terminal? role).toList

theorem Mode.numbers_eq (m : Mode) :
    m.numbers = [m.opener] ++ (m.ending.terminal?.toList ++ m.content.illegal.toList) := by
  rw [numbers, Role.all, List.flatMap_cons, List.flatMap_cons, List.flatMap_singleton]
  rfl

namespace Grammar

/-- The terminal that a mode has in a role.  The outermost level has the number after those of
all modes; nothing opens it and nothing ends it. -/
def terminal? (g : Grammar) (index : Nat) (role : Role) : Option Nat :=
  match g.modes[index]? with
  | some m => m.terminal? role
  | none => if index = g.modes.size ∧ role = .illegal then g.root.illegal else none

/-- Who uses which terminal, from mode to mode. -/
def uses (g : Grammar) : List ((Nat × Role) × Nat) :=
  (List.range g.modeCount).flatMap fun k =>
    Role.all.flatMap fun role => (g.terminal? k role).toList.map ((k, role), ·)

variable {g : Grammar} {k t : Nat} {role : Role}

theorem mem_uses_iff :
    ((k, role), t) ∈ g.uses ↔ k < g.modeCount ∧ g.terminal? k role = some t := by
  simp only [uses, List.mem_flatMap, List.mem_range, List.mem_map, Option.mem_toList,
    Prod.mk.injEq]
  constructor
  · rintro ⟨k', hk, role', -, t', ht, ⟨rfl, rfl⟩, rfl⟩
    exact ⟨hk, ht⟩
  · rintro ⟨hk, ht⟩
    exact ⟨k, hk, role, role.mem_all, t, ht, ⟨rfl, rfl⟩, rfl⟩

theorem terminal?_mode (hk : k < g.modes.size) :
    g.terminal? k role = (g.mode k).terminal? role := by
  rw [terminal?, mode, Array.getElem?_eq_getElem hk]
  rfl

/-- Only the outermost level is opened by nothing. -/
theorem terminal?_opener_eq_none_iff (hk : k < g.modeCount) :
    g.terminal? k .opener = none ↔ k = g.modes.size := by
  rcases Nat.lt_or_eq_of_le (Nat.le_of_lt_succ hk) with hlt | rfl
  · rw [terminal?_mode hlt]
    simp [Mode.terminal?, Nat.ne_of_lt hlt]
  · simp [terminal?]

/-- The terminals of all levels are those of the modes and then that of the outermost level. -/
theorem map_uses :
    g.uses.map Prod.snd = g.modes.toList.flatMap Mode.numbers ++ g.root.illegal.toList := by
  have hmodes : g.modes.toList = (List.range g.modes.size).map g.mode := by
    refine List.ext_getElem (by simp) fun k hk _ => ?_
    have hk' : k < g.modes.size := by simpa using hk
    simp [mode, hk']
  have hroot : (Role.all.flatMap fun role => (g.terminal? g.modes.size role).toList) =
      g.root.illegal.toList := by
    simp [Role.all, terminal?]
  rw [uses, modeCount, List.range_succ, List.flatMap_append, List.map_append, hmodes,
    List.flatMap_map]
  simp only [List.map_flatMap, List.map_map, Function.comp_def, List.map_id',
    List.flatMap_singleton, hroot]
  congr 1
  refine List.flatMap_congr fun k hk => ?_
  rw [Mode.numbers]
  refine List.flatMap_congr fun role _ => ?_
  rw [terminal?_mode (List.mem_range.mp hk)]

end Grammar

/-! ### Numbers in the order of compiling -/

/-- What was added are the terminals of these numbers. -/
structure Numbers (terminals terminals' : Array Terminal) (ns : List Nat) : Prop where
  size : terminals'.size = terminals.size + ns.length
  consecutive : ns = List.range' terminals.size ns.length

namespace Numbers

theorem refl (terminals : Array Terminal) : Numbers terminals terminals [] := ⟨rfl, rfl⟩

theorem trans {terminals'' : Array Terminal} {ns ns' : List Nat}
    (h : Numbers terminals terminals' ns) (h' : Numbers terminals' terminals'' ns') :
    Numbers terminals terminals'' (ns ++ ns') := by
  refine ⟨by rw [h'.size, h.size, List.length_append, Nat.add_assoc], ?_⟩
  have hns' : ns' = List.range' (terminals.size + ns.length) ns'.length := by
    rw [← h.size]
    exact h'.consecutive
  rw [List.length_append, ← List.range'_append_1, ← h.consecutive, ← hns']

end Numbers

namespace Builder

theorem numbers_terminal {p : PatternDecl} {allowsEmpty : Bool}
    (h : terminal lookbehind p allowsEmpty terminals = .ok (index, terminals')) :
    Numbers terminals terminals' [index] := by
  rw [terminal] at h
  split at h
  · cases h
    exact ⟨Array.size_push _, rfl⟩
  · cases h

theorem numbers_optionalTerminal {p : Option PatternDecl} {t : Option Nat}
    (h : optionalTerminal lookbehind p terminals = .ok (t, terminals')) :
    Numbers terminals terminals' t.toList := by
  cases p with
  | none =>
    cases h
    exact .refl _
  | some p =>
    obtain ⟨⟨t, ts⟩, ht, h⟩ := exists_of_bind_eq_ok h
    cases h
    exact numbers_terminal ht

theorem numbers_endingTerminal {ending : Ending PatternDecl} {ending' : Ending Nat}
    (h : endingTerminal lookbehind ending terminals = .ok (ending', terminals')) :
    Numbers terminals terminals' ending'.terminal?.toList := by
  cases ending with
  | immediate | never | withParent =>
    cases h
    exact .refl _
  | pattern p =>
    obtain ⟨⟨t, ts⟩, ht, h⟩ := exists_of_bind_eq_ok h
    cases h
    exact numbers_terminal ht

theorem numbers_compileMode {slot : Option ModeDecl} {m : Mode}
    (h : compileMode lookbehind count index slot terminals = .ok (m, terminals')) :
    Numbers terminals terminals' m.numbers := by
  cases slot with
  | none => cases h
  | some decl =>
    simp only [compileMode] at h
    split at h
    · cases h
    · obtain ⟨⟨opener, ts₁⟩, hopener, h⟩ := exists_of_bind_eq_ok h
      obtain ⟨⟨ending, ts₂⟩, hending, h⟩ := exists_of_bind_eq_ok h
      obtain ⟨keywords, -, h⟩ := exists_of_bind_eq_ok h
      obtain ⟨⟨illegal, ts₃⟩, hillegal, h⟩ := exists_of_bind_eq_ok h
      obtain ⟨u, -, h⟩ := exists_of_bind_eq_ok h
      cases h
      rw [Mode.numbers_eq]
      exact (numbers_terminal hopener).trans
        ((numbers_endingTerminal hending).trans (numbers_optionalTerminal hillegal))

theorem numbers_compileModes {slots : List (Option ModeDecl)} {modes modes' : Array Mode}
    (h : compileModes lookbehind count slots index modes terminals = .ok (modes', terminals')) :
    ∃ new, modes'.toList = modes.toList ++ new ∧
      Numbers terminals terminals' (new.flatMap Mode.numbers) := by
  induction slots generalizing index modes terminals with
  | nil =>
    cases h
    exact ⟨[], (List.append_nil _).symm, .refl _⟩
  | cons slot slots ih =>
    obtain ⟨⟨m, ts⟩, hm, h⟩ := exists_of_bind_eq_ok h
    obtain ⟨new, hnew, hnumbers⟩ := ih h
    refine ⟨m :: new, ?_, ?_⟩
    · rw [hnew, Array.toList_push, List.append_assoc, List.singleton_append]
    · rw [List.flatMap_cons]
      exact (numbers_compileMode hm).trans hnumbers

/-- **The terminals of the modes in turn have the numbers in turn.** -/
theorem numbers_of_finish {b : Builder} {language : LanguageDecl} {g : Grammar}
    (h : b.finish language = .ok g) :
    g.uses.map Prod.snd = List.range g.terminals.size := by
  obtain ⟨⟨modes, ts₁⟩, hmodes, h⟩ := exists_of_bind_eq_ok h
  obtain ⟨⟨illegal, ts₂⟩, hillegal, h⟩ := exists_of_bind_eq_ok h
  obtain ⟨u, -, h⟩ := exists_of_bind_eq_ok h
  cases h
  obtain ⟨new, hnew, hnumbers⟩ := numbers_compileModes hmodes
  rw [List.nil_append] at hnew
  have hall := hnumbers.trans (numbers_optionalTerminal hillegal)
  have hsize := hall.size
  rw [Array.size_empty, Nat.zero_add] at hsize
  rw [Grammar.map_uses, hnew, List.range_eq_range', hsize]
  exact hall.consecutive

end Builder

/-! ### Grammars whose numbers are right -/

namespace Grammar

/-- The modes of the grammar and its outermost level, which comes last, refer to what there is. -/
structure IsNumbered (g : Grammar) : Prop where
  /-- The number of the outermost level is in no list. -/
  contains : ∀ m ∈ g.modes, ∀ n ∈ m.content.contains, n < g.modes.size
  reached : ∀ n ∈ g.root.contains, n < g.modes.size
  /-- The outermost level, and no mode, is opened by nothing. -/
  opener : ∀ k < g.modeCount, g.terminal? k .opener = none ↔ k = g.modes.size
  inRange : ∀ k < g.modeCount, ∀ role t, g.terminal? k role = some t → t < g.terminals.size
  /-- Each terminal has one use. -/
  owner : ∀ t < g.terminals.size,
    ∃! use : Nat × Role, use.1 < g.modeCount ∧ g.terminal? use.1 use.2 = some t
  /-- Empty matches count for those that end a mode, and for no others. -/
  allowsEmpty : ∀ k < g.modeCount, ∀ role t terminal, g.terminal? k role = some t →
    g.terminals[t]? = some terminal → (terminal.allowsEmpty = true ↔ role = .ending)

theorem declares_of_terminal? {g : Grammar} (hin : g.InOrder) {k t : Nat} {role : Role}
    (h : g.terminal? k role = some t) : Declares g.terminals (decide (role = .ending)) t := by
  rw [terminal?] at h
  split at h
  · next m hm =>
    have hm' : m.InOrder g.modes.size g.terminals := hin.modes m (Array.mem_of_getElem? hm)
    cases role with
    | opener => exact Option.some.inj h ▸ hm'.opener
    | ending =>
      refine hm'.ending t ?_
      cases hending : m.ending with
      | pattern t' =>
        rw [Mode.terminal?, hending] at h
        exact congrArg Ending.pattern (Option.some.inj h)
      | immediate | never | withParent =>
        rw [Mode.terminal?, hending] at h
        cases h
    | illegal => exact hm'.content.illegal t h
  · split at h
    · next hroot =>
      rw [hroot.2]
      exact hin.root.illegal t h
    · cases h

end Grammar

namespace Builder

variable {b : Builder} {language : LanguageDecl} {g : Grammar}

theorem lt_size_of_mem_uses (h : b.finish language = .ok g) {use : (Nat × Role) × Nat}
    (huse : use ∈ g.uses) : use.2 < g.terminals.size := by
  rw [← List.mem_range, ← numbers_of_finish h]
  exact List.mem_map_of_mem huse

/-- Each number stands in the list of uses, and stands there once. -/
theorem existsUnique_use (h : b.finish language = .ok g) {t : Nat} (ht : t < g.terminals.size) :
    ∃! use : Nat × Role, use.1 < g.modeCount ∧ g.terminal? use.1 use.2 = some t := by
  have hnumbers : g.uses.map Prod.snd = List.range g.terminals.size := numbers_of_finish h
  have hmem : t ∈ g.uses.map Prod.snd := by
    rw [hnumbers]
    exact List.mem_range.mpr ht
  have hnodup : (g.uses.map Prod.snd).Nodup := by
    rw [hnumbers]
    exact List.nodup_range
  obtain ⟨⟨⟨k, role⟩, t'⟩, huse, rfl⟩ := List.mem_map.mp hmem
  refine ⟨(k, role), Grammar.mem_uses_iff.mp huse, ?_⟩
  rintro ⟨k', role'⟩ huse'
  have hsame : ((k', role'), t') = ((k, role), t') :=
    List.inj_on_of_nodup_map hnodup (Grammar.mem_uses_iff.mpr huse') huse rfl
  exact congrArg Prod.fst hsame

theorem isNumbered_of_finish (h : b.finish language = .ok g) : g.IsNumbered := by
  have hin : g.InOrder := inOrder_of_finish h
  constructor
  case contains =>
    intro m hm
    exact (hin.modes m hm).content.contains
  case reached => exact hin.root.contains
  case opener =>
    intro k hk
    exact Grammar.terminal?_opener_eq_none_iff hk
  case inRange =>
    intro k hk role t ht
    exact lt_size_of_mem_uses h (Grammar.mem_uses_iff.mpr ⟨hk, ht⟩)
  case owner =>
    intro t ht
    exact existsUnique_use h ht
  case allowsEmpty =>
    intro k hk role t terminal ht hterminal
    obtain ⟨terminal', hterminal', hallows⟩ := Grammar.declares_of_terminal? hin ht
    obtain rfl : terminal' = terminal := Option.some.inj (hterminal'.symm.trans hterminal)
    rw [hallows, decide_eq_true_iff]

/-- **What comes of declarations**, whatever steps made them: a grammar if and only if nothing is
missing, and else the first fault in the order of the modes.  The grammar has the modes declared,
and its numbers are right. -/
theorem finish_exact (b : Builder) (language : LanguageDecl) :
    ((∃ g, b.finish language = .ok g) ↔ b.IsComplete language) ∧
      (∀ e, b.finish language = .error e ↔ (b.faults language).head? = some e) ∧
      ∀ g, b.finish language = .ok g → g.modes.size = b.modes.size ∧ g.IsNumbered :=
  ⟨(reports_finish b language).exists_ok_iff.trans faults_eq_nil_iff,
    (reports_finish b language).eq_error_iff,
    fun _ h => ⟨size_of_finish h, isNumbered_of_finish h⟩⟩

theorem finish_exact_quotes :
    Quotes.builder.finish Quotes.language = .ok Quotes.grammar ∧
      Quotes.grammar.modes.size = Quotes.builder.modes.size ∧ Quotes.grammar.IsNumbered :=
  ⟨Quotes.finish_builder, (finish_exact Quotes.builder Quotes.language).2.2 _ Quotes.finish_builder⟩

end Builder

end Highlighting
