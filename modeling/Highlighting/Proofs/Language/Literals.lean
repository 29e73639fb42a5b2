/-
  Highlighting/Proofs/Language/Literals.lean
  ==========================================
  **Literals are the same nodes wherever they stand.**

  The modes of literals follow the same rules in all grammars that have them
  (`Literal.rules`), and where they are looked for ahead of all others, nothing
  else can open on a literal.  So one that is set off by blanks shows the same
  node in any region of any such grammar (`exists_shownAs`): a string
  or a number its own text, and a comment that of its markers besides
  (`Stands.crosses_string`, `crosses_hexString`, `crosses_number`,
  `exists_crosses_comment`).
-/
import Highlighting.Proofs.Grammar.Rules
import Highlighting.Proofs.Language.BuiltIn
import Highlighting.Proofs.Pattern.Literals
import Highlighting.Proofs.Scan.Crossings

namespace Highlighting

open NumberLiteral (Reads)
open Search
open scoped Computability

/-! ### Rules -/

namespace Literal

def stringRule (q : Char) : Rule :=
  { scope := some .string, opener := quoted q, closer := some (.char q),
    illegal := some (.char '\n'), contains := [0] }

def hexStringRule (q : Char) : Rule := ⟨some .string, hexQuoted q, none, none, []⟩

def blockCommentRule : Rule := ⟨some .comment, blockOpening, some blockEnd, none, [5]⟩

/-- The rules of literals and of what is looked for in them, with the numbers of their modes. -/
def rules : List (Nat × Rule) := [
  (0, ⟨none, escape, none, none, []⟩),
  (1, stringRule '\''),
  (2, stringRule '"'),
  (3, hexStringRule '\''),
  (4, hexStringRule '"'),
  (5, ⟨some .doctag, doctag, none, none, []⟩),
  (6, ⟨some .comment, lineOpening, some .lineEnd, none, [5]⟩),
  (7, blockCommentRule),
  (8, ⟨some .number, .number, none, none, []⟩)]

/-- The modes that are looked for wherever literals are. -/
def modes : List Nat := [1, 2, 3, 4, 6, 7, 8]

theorem ne_of_mem_quotes : ∀ q ∈ quotes, q ≠ '\\' ∧ q ≠ '\n' := by
  have hall : quotes.all (fun q => q != '\\' && q != '\n') = true := by decide
  intro q hq
  simpa using List.all_eq_true.mp hall q hq

/-- The modes of strings between quotes of a kind. -/
def stringMode (q : Char) : Nat := if q = '\'' then 1 else 2

def hexStringMode (q : Char) : Nat := if q = '\'' then 3 else 4

/-- None of the modes opens at the start of the text, whatever is behind that. -/
def sparedBy (cs : List Char) (c : Char) (ks : List Nat) : Bool :=
  rules.all fun x => !ks.contains x.1 ||
    x.2.opener.stopsAt c && endAt? (x.2.opener.find (cs ++ [c]).toArray ·) 0 == none

/-- The mode opens with the text, whatever is behind that. -/
def openedBy (cs : List Char) (c : Char) (k : Nat) : Bool :=
  rules.all fun x => x.1 != k || x.2.opener.stopsAt c &&
    endAt? (x.2.opener.find (cs ++ [c]).toArray ·) 0 == some (cs.length + 1)

theorem string_mem_rules : ∀ q ∈ quotes, (stringMode q, stringRule q) ∈ rules := by
  intro q hq
  rcases List.mem_cons.mp hq with rfl | hq
  · exact .tail _ (.head _)
  · rw [List.mem_singleton.mp hq]
    exact .tail _ (.tail _ (.head _))

theorem isLoose_of_mem_rules : ∀ x ∈ rules, x.2.opener.isLoose = true := by
  rw [← List.all_eq_true]
  decide

/-- What opens ahead of numbers starts with no character of theirs. -/
theorem shunsNumbers_of_mem_rules : ∀ x ∈ rules, x.1 ∈ [1, 2, 3, 4, 6, 7] →
    x.2.opener.shunsNumbers = true ∧ x.2.opener.isSolid = true := by
  have hall : rules.all (fun x => !([1, 2, 3, 4, 6, 7] : List Nat).contains x.1 ||
      x.2.opener.shunsNumbers && x.2.opener.isSolid) = true := by decide
  intro x hx hmem
  simpa [hmem] using List.all_eq_true.mp hall x hx

end Literal

/-- The modes of literals are as the rules say. -/
def Grammar.HasLiterals (g : Grammar) : Prop := ∀ x ∈ Literal.rules, g.Obeys x.1 x.2

def Builder.hasLiterals (b : Builder) : Bool := Literal.rules.all fun x => b.obeys x.1 x.2

theorem Builder.hasLiterals_of_finish {b : Builder} {language : LanguageDecl} {g : Grammar}
    (hfinish : b.finish language = .ok g) (h : b.hasLiterals = true) : g.HasLiterals :=
  fun x hx => obeys_of_finish hfinish (List.all_eq_true.mp h x hx)

namespace Literal

open Scan Source

/-- A text that is set off stands in a scan where literals are looked for ahead of all others. -/
structure Stands (task : Task) (ms : List Nat) (front s rest : Source) : Prop where
  sound : task.IsSound
  literals : task.grammar.HasLiterals
  contains : modes <+: (contentOf task.grammar ms).contains
  source : task.source = front ++ (s ++ rest)
  setOff : SetOff front rest

variable {task : Task} {ms ks ks' : List Nat} {front s rest v : Source} {cs : List Char}
  {c q : Char} {k n p e r : Nat}

namespace Stands

section Stands

variable (h : Stands task ms front s rest)
include h

theorem getElem?_eq (hp : p < s.size) : task.source[front.size + p]? = s[p]? := by
  rw [h.source, Source.getElem?_append_add]
  exact Array.getElem?_append_left hp

theorem getElem?_of_some (hp : s[p]? = some c) : task.source[front.size + p]? = some c := by
  rw [h.getElem?_eq (Array.getElem?_eq_some_iff.mp hp).1, hp]

theorem any_of_any {check : Char → Bool} (hp : (s[p]?).any check = true) :
    (task.source[front.size + p]?).any check = true := by
  obtain ⟨c, hc, hcheck⟩ := (Option.any_eq_true _ _).mp hp
  rw [h.getElem?_of_some hc]
  exact hcheck

theorem slice_eq (he : e ≤ s.size) :
    task.source.slice ⟨front.size + p, front.size + e⟩ = s.slice ⟨p, e⟩ := by
  rw [h.source, Source.slice, Source.chars_append_add, Source.chars_append he]
  rfl

theorem slice_all : task.source.slice ⟨front.size, front.size + s.size⟩ = .ofList s.toList := by
  rw [← NumberLiteral.chars_all s]
  exact h.slice_eq (p := 0) (Nat.le_refl _)

theorem textNodes_eq (he : e ≤ s.size) :
    task.source.textNodes (front.size + p) (front.size + e) = s.textNodes p e := by
  rw [Source.textNodes, Source.textNodes, h.slice_eq he]
  split <;> split <;> first | rfl | omega

/-- **A literal opens where its mode matches**, and none of those ahead of it does. -/
theorem next?_opens (hmodes : modes = ks ++ k :: ks') (hlt : front.size < e)
    (hopens : ∀ x ∈ rules, x.1 = k →
      endAt? (x.2.opener.find task.source ·) front.size = some e)
    (hahead : ∀ x ∈ rules, x.1 ∈ ks → endAt? (x.2.opener.find task.source ·) front.size = none) :
    Place.next? task [] ⟨front.size, ms⟩ = some ⟨⟨front.size, e⟩, .opens k⟩ := by
  obtain ⟨more, hmore⟩ := h.contains
  have hcontains : (contentOf task.grammar ms).contains = ks ++ k :: (ks' ++ more) := by
    rw [← hmore, hmodes, List.append_assoc, List.cons_append]
  have hrule : ∀ j ∈ modes, ∃ x ∈ rules, x.1 = j := by
    have hall : modes.all (fun j => rules.any fun x => x.1 == j) = true := by decide
    intro j hj
    obtain ⟨x, hx, heq⟩ := List.any_eq_true.mp (List.all_eq_true.mp hall j hj)
    exact ⟨x, hx, eq_of_beq heq⟩
  refine Place.next?_of_first h.sound hcontains (fun j hj => ?_) ?_
  · obtain ⟨x, hx, rfl⟩ := hrule j (by rw [hmodes]; exact List.mem_append_left _ hj)
    exact admittedEnd?_eq_none (h.literals x hx).opener (hahead x hx hj)
  · obtain ⟨x, hx, rfl⟩ := hrule k (by
      rw [hmodes]
      exact List.mem_append_right _ List.mem_cons_self)
    exact admittedEnd?_eq_some (h.literals x hx).opener hlt (hopens x hx rfl)

/-- The modes do not open where the text starts with one that they spare. -/
theorem endAt?_of_sparedBy (hs : s ++ rest = (cs ++ [c]).toArray ++ v)
    (hspared : sparedBy cs c ks = true) :
    ∀ x ∈ rules, x.1 ∈ ks → endAt? (x.2.opener.find task.source ·) front.size = none := by
  intro x hx hmem
  have hcheck := List.all_eq_true.mp hspared x hx
  simp only [List.contains_iff_mem.mpr hmem, Bool.not_true, Bool.false_or, Bool.and_eq_true,
    beq_iff_eq] at hcheck
  have hend : Source.EndsWith c (cs ++ [c]).toArray := by
    show (cs ++ [c]).toArray[(cs ++ [c]).length - 1]? = some c
    simp
  have hopening := Pattern.endAt?_opening (isLoose_of_mem_rules x hx) h.setOff.front hend hcheck.1
    (p := 0) hend.size_pos v
  rw [hcheck.2, ← hs, ← h.source] at hopening
  exact hopening

/-- **A literal opens with a text by which its mode is opened.** -/
theorem next?_of_openedBy (hs : s ++ rest = (cs ++ [c]).toArray ++ v)
    (hmodes : modes = ks ++ k :: ks') (hopened : openedBy cs c k = true)
    (hspared : sparedBy cs c ks = true) :
    Place.next? task [] ⟨front.size, ms⟩ =
      some ⟨⟨front.size, front.size + (cs.length + 1)⟩, .opens k⟩ := by
  refine h.next?_opens hmodes (by omega) (fun x hx hxk => ?_) (h.endAt?_of_sparedBy hs hspared)
  have hcheck := List.all_eq_true.mp hopened x hx
  simp only [hxk, bne_self_eq_false, Bool.false_or, Bool.and_eq_true, beq_iff_eq] at hcheck
  have hend : Source.EndsWith c (cs ++ [c]).toArray := by
    show (cs ++ [c]).toArray[(cs ++ [c]).length - 1]? = some c
    simp
  have hopening := Pattern.endAt?_opening (isLoose_of_mem_rules x hx) h.setOff.front hend hcheck.1
    (p := 0) hend.size_pos v
  rw [hcheck.2, ← hs, ← h.source] at hopening
  exact hopening

/-! ### Strings -/

theorem obeys_stringRule (hq : q ∈ quotes) : task.grammar.Obeys (stringMode q) (stringRule q) :=
  h.literals _ (string_mem_rules q hq)

/-- Where there is no escape and no line feed, nothing but the end of a string matches. -/
theorem unopened_of_ne (hescape : task.source[p]? ≠ some '\\' ∨ task.source.size ≤ p + 1)
    (hline : task.source[p]? ≠ some '\n') : Unopened task (stringRule q) p := by
  constructor
  · intro j hj
    obtain rfl := List.mem_singleton.mp hj
    exact admittedEnd?_eq_none (h.literals _ (.head _)).opener (endAt?_escape_eq_none hescape)
  · intro i hi
    obtain rfl : Pattern.char '\n' = i := Option.some.inj hi
    exact Pattern.endAt?_char_eq_none hline

theorem unopened_string (hp : s[p]? = some c) (hescape : c ≠ '\\') (hline : c ≠ '\n') :
    Unopened task (stringRule q) (front.size + p) := by
  have hc := h.getElem?_of_some hp
  refine h.unopened_of_ne (.inl ?_) ?_
  · simpa [hc] using hescape
  · simpa [hc] using hline

/-- Nothing matches at a character that is an item by itself. -/
theorem quiet_string (hq : q ∈ quotes) (hp : s[p]? = some c) (hquote : c ≠ q) (hescape : c ≠ '\\')
    (hline : c ≠ '\n') :
    Quiet task [] (stringMode q :: ms) (front.size + p) (front.size + p + 1) := by
  refine quiet_of_obeys (h.obeys_stringRule hq) rfl (h.unopened_string hp hescape hline)
    (Pattern.endAt?_char_eq_none ?_)
  simpa [h.getElem?_of_some hp] using hquote

/-- A backslash takes the character behind it along. -/
theorem next?_escape (hq : q ∈ quotes) (hbackslash : s[p]? = some '\\') (hp : p + 1 < s.size) :
    Place.next? task [] ⟨front.size + p, stringMode q :: ms⟩ =
      some ⟨⟨front.size + p, front.size + p + 2⟩, .opens 0⟩ := by
  have hescape := h.literals _ (.head _)
  have hend : endAt? (escape.find task.source ·) (front.size + p) =
      some (front.size + p + 2) := by
    refine Pattern.endAt?_pair.mpr ⟨?_, ?_, rfl⟩
    · rw [h.getElem?_of_some hbackslash]
      exact CharSet.contains_single.mpr rfl
    · refine h.any_of_any (p := p + 1) ?_
      rw [Array.getElem?_eq_getElem hp]
      rfl
  have hcontains : (contentOf task.grammar (stringMode q :: ms)).contains = [] ++ 0 :: [] :=
    (h.obeys_stringRule hq).contains
  exact Place.next?_of_first h.sound hcontains nofun
    (admittedEnd?_eq_some hescape.opener (by omega) hend)

omit h in
/-- An item is a character by itself, or a backslash with another. -/
theorem cases_item (hitem : Reads s (item q) p e) :
    (e = p + 1 ∧ ∃ c, s[p]? = some c ∧ c ≠ q ∧ c ≠ '\\' ∧ c ≠ '\n') ∨
      (e = p + 2 ∧ s[p]? = some '\\' ∧ p + 1 < s.size) := by
  rcases Reads.add_iff.mp hitem with hplain | hescaped
  · obtain ⟨hany, rfl⟩ := Reads.one_iff.mp hplain
    obtain ⟨c, hc, hne⟩ := (Option.any_eq_true _ _).mp hany
    simp only [Bool.and_eq_true, bne_iff_ne] at hne
    exact .inl ⟨rfl, c, hc, hne.1.1, hne.1.2, hne.2⟩
  · obtain ⟨m, hfirst, hsecond⟩ := Reads.mul_iff.mp hescaped
    obtain ⟨hbackslash, rfl⟩ := Reads.char_iff.mp hfirst
    obtain ⟨hany, rfl⟩ := Reads.one_iff.mp hsecond
    obtain ⟨c, hc, -⟩ := (Option.any_eq_true _ _).mp hany
    exact .inr ⟨rfl, hbackslash, (Array.getElem?_eq_some_iff.mp hc).1⟩

/-- An item of a string is crossed as text. -/
theorem crosses_item (hq : q ∈ quotes) (hitem : Reads s (item q) p e) :
    Crosses task (stringMode q :: ms) (front.size + p) (front.size + e)
      (task.source.textNodes (front.size + p) (front.size + e)) := by
  have hobeys := h.obeys_stringRule hq
  rcases cases_item hitem with ⟨rfl, c, hc, hquote, hescape, hline⟩ | ⟨rfl, hbackslash, hp⟩
  · exact .text hobeys.keywords (by omega) (h.quiet_string hq hc hquote hescape hline)
  · have hescape := h.literals _ (.head _)
    have hcross := Crosses.whole h.sound hescape.excludesBegin hescape.keywords
      (h.next?_escape hq hbackslash hp) (hescape.immediate rfl)
    rw [hescape.scope] at hcross
    rw [show front.size + (p + 2) = front.size + p + 2 by omega, Source.textNodes,
      if_pos (by omega)]
    exact hcross

theorem crosses_items (hq : q ∈ quotes) (hitems : Reads s (item q)∗ p e) :
    Crosses task (stringMode q :: ms) (front.size + p) (front.size + e)
      (task.source.textNodes (front.size + p) (front.size + e)) := by
  refine Regex.Reads.kstar_induction (R := fun p e =>
    Crosses task (stringMode q :: ms) (front.size + p) (front.size + e)
      (task.source.textNodes (front.size + p) (front.size + e))) hitems ?_ ?_
  · intro p
    rw [Source.textNodes, if_neg (Nat.lt_irrefl _)]
    exact .refl task _ _
  · intro p m hpm hme hitem hrest
    rw [← EventLog.Forest.glue_textNodes task.source
      (show front.size + p ≤ front.size + m by omega)
      (show front.size + m ≤ front.size + e by omega)]
    exact (h.crosses_item hq hitem).trans hrest

/-- Over the items of a string a scan stays in its region. -/
theorem exists_path_items (hq : q ∈ quotes) (hitems : Reads s (item q)∗ p e) :
    ∃ fs, Path task [] (ms.length + 1) ⟨front.size + p, stringMode q :: ms⟩ fs
      ⟨front.size + e, stringMode q :: ms⟩ := by
  refine Regex.Reads.kstar_induction (R := fun p e => ∃ fs, Path task [] (ms.length + 1)
    ⟨front.size + p, stringMode q :: ms⟩ fs ⟨front.size + e, stringMode q :: ms⟩) hitems ?_ ?_
  · exact fun p => ⟨[], .refl _⟩
  · rintro p m hpm - hitem ⟨fs, hrest⟩
    rcases cases_item hitem with ⟨rfl, c, hc, hquote, hescape, hline⟩ | ⟨rfl, hbackslash, hp⟩
    · exact ⟨fs, hrest.of_quiet h.sound rfl (Nat.le_succ _)
        (h.quiet_string hq hc hquote hescape hline)⟩
    · have hescape := h.literals _ (.head _)
      have hafter : (⟨front.size + p, stringMode q :: ms⟩ : Place).after task
          ⟨⟨front.size + p, front.size + p + 2⟩, .opens 0⟩ =
            ⟨front.size + (p + 2), stringMode q :: ms⟩ := by
        simp only [Place.after, hescape.immediate rfl, if_true, Nat.add_assoc]
      have honward : (⟨⟨front.size + p, front.size + p + 2⟩, .opens 0⟩ : Found).IsOnward
          (stringMode q :: ms) := Found.isOnward_of_ne (by simp)
      refine ⟨_ :: fs, h.next?_escape hq hbackslash hp, honward, ?_, ?_⟩
      · rw [hafter]
        exact Nat.le_refl _
      · rw [hafter]
        exact hrest

/-- A string is closed by its quote. -/
theorem next?_closing (hq : q ∈ quotes) (hquote : s[e]? = some q) :
    Place.next? task [] ⟨front.size + e, stringMode q :: ms⟩ =
      some ⟨⟨front.size + e, front.size + e + 1⟩, .closes 0⟩ := by
  have hne := ne_of_mem_quotes q hq
  refine next?_closes_of_obeys (h.obeys_stringRule hq) h.sound rfl
    (h.unopened_string hquote hne.1 hne.2) (by omega) ?_
  exact Pattern.endAt?_char.mpr ⟨h.getElem?_of_some hquote, rfl⟩

omit h in
theorem exists_opening {cs' : List Char} (hs : s.toList = cs ++ c :: cs') (rest : Source) :
    ∃ v, s ++ rest = (cs ++ [c]).toArray ++ v := by
  have hsplit : s = (cs ++ c :: cs').toArray := by rw [← hs]
  refine ⟨cs'.toArray ++ rest, ?_⟩
  apply Array.toList_inj.mp
  simp [hsplit]

/-- A string opens with its quote, marked or not. -/
theorem next?_string {cs' : List Char} (hq : q ∈ quotes) (hcs : cs ∈ [[], "unicode".toList])
    (hs : s.toList = cs ++ q :: cs') :
    Place.next? task [] ⟨front.size, ms⟩ =
      some ⟨⟨front.size, front.size + (cs.length + 1)⟩, .opens (stringMode q)⟩ := by
  have hchecks : ∀ q ∈ quotes, ∀ cs ∈ [[], "unicode".toList], ∃ ks ks',
      modes = ks ++ stringMode q :: ks' ∧ openedBy cs q (stringMode q) = true ∧
        sparedBy cs q ks = true := by
    intro q hq cs hcs
    rcases List.mem_cons.mp hq with rfl | hq
    · refine ⟨[], [2, 3, 4, 6, 7, 8], rfl, ?_, ?_⟩
      · revert cs
        decide
      · rw [sparedBy, List.all_eq_true]
        exact fun _ _ => rfl
    · obtain rfl := List.mem_singleton.mp hq
      refine ⟨[1], [3, 4, 6, 7, 8], rfl, ?_, ?_⟩
      · revert cs
        decide
      · revert cs
        decide
  obtain ⟨ks, ks', hmodes, hopened, hspared⟩ := hchecks q hq cs hcs
  obtain ⟨v, hv⟩ := exists_opening hs rest
  exact h.next?_of_openedBy hv hmodes hopened hspared

/-- **A string shows its text**, whatever its items are. -/
theorem crosses_string (hq : q ∈ quotes) (hs : s.toList ∈ string q) :
    Crosses task ms front.size (front.size + s.size)
      [.region .string [.text (.ofList s.toList)]] := by
  have hreads : Reads s (string q) 0 s.size :=
    ⟨Nat.zero_le _, Nat.le_refl _, by rw [NumberLiteral.chars_all]; exact hs⟩
  simp only [string, Reads.mul_iff, Reads.char_iff] at hreads
  obtain ⟨p, hmark, _, ⟨hopening, rfl⟩, e, hitems, hclosing, hsize⟩ := hreads
  have hle := hitems.le
  have hobeys := h.obeys_stringRule hq
  -- with the mark or without, the opening is one of a few texts
  have hcs : s.toList.take p ∈ [[], "unicode".toList] := by
    rcases Reads.optional_iff.mp hmark with ⟨rfl, -⟩ | hmark
    · exact .head _
    · have hword := hmark.mem
      rw [Source.chars, Array.toList_extract, List.extract_eq_take_drop, List.drop_zero,
        Nat.sub_zero] at hword
      rw [show s.toList.take p = "unicode".toList from hword]
      exact .tail _ (.head _)
  obtain ⟨hlt, hquote⟩ := Array.getElem?_eq_some_iff.mp hopening
  have hlt' : p < s.toList.length := hlt
  have hsplit : s.toList = s.toList.take p ++ q :: s.toList.drop (p + 1) := by
    have hcut := List.take_append_drop p s.toList
    rw [List.drop_eq_getElem_cons hlt'] at hcut
    exact hcut.symm.trans (by rw [show s.toList[p] = q from hquote])
  have hlength : (s.toList.take p).length + 1 = p + 1 := by
    rw [List.length_take, Nat.min_eq_left (Nat.le_of_lt hlt')]
  have hopens := h.next?_string hq hcs hsplit
  rw [hlength] at hopens
  have hcloses := h.next?_closing hq hclosing
  rw [Nat.add_assoc, ← hsize] at hcloses
  obtain ⟨t, hending, -⟩ := hobeys.exists_ending rfl
  have hcross := Crosses.region h.sound hobeys.excludesBegin hobeys.keywords hopens hending
    hobeys.scope hobeys.excludesEnd hobeys.endsParent (h.crosses_items hq hitems) hcloses
  rw [EventLog.Forest.glue_textNodes _ (by omega) (by omega),
    EventLog.Forest.glue_textNodes _ (by omega) (by omega), Source.textNodes, if_pos (by omega),
    h.slice_all] at hcross
  exact hcross

/-! ### Literals that are matched as a whole -/

theorem crosses_whole {scope : Scope} {opener : Pattern}
    (hrule : (k, ⟨some scope, opener, none, none, []⟩) ∈ rules)
    (hopens : Place.next? task [] ⟨front.size, ms⟩ =
      some ⟨⟨front.size, front.size + s.size⟩, .opens k⟩) :
    Crosses task ms front.size (front.size + s.size)
      [.region scope [.text (.ofList s.toList)]] := by
  have hobeys := h.literals _ hrule
  have hcross := Crosses.whole h.sound hobeys.excludesBegin hobeys.keywords hopens
    (hobeys.immediate rfl)
  rw [hobeys.scope, h.slice_all] at hcross
  exact hcross

/-- **A string of hexadecimal bytes shows its text.** -/
theorem crosses_hexString (hq : q ∈ quotes) (hs : s.toList ∈ hexString q) :
    Crosses task ms front.size (front.size + s.size)
      [.region .string [.text (.ofList s.toList)]] := by
  have hrule : ∀ q ∈ quotes, (hexStringMode q, hexStringRule q) ∈ rules := by
    intro q hq
    rcases List.mem_cons.mp hq with rfl | hq
    · exact .tail _ (.tail _ (.tail _ (.head _)))
    · rw [List.mem_singleton.mp hq]
      exact .tail _ (.tail _ (.tail _ (.tail _ (.head _))))
  have hopener : ∀ q ∈ quotes, ∀ x ∈ rules, x.1 = hexStringMode q → x.2.opener = hexQuoted q := by
    have hall : quotes.all (fun q => rules.all fun x => x.1 != hexStringMode q ||
        x.2.opener == hexQuoted q) = true := by decide
    intro q hq x hx hxk
    simpa [hxk] using List.all_eq_true.mp (List.all_eq_true.mp hall q hq) x hx
  have hend : endAt? ((hexQuoted q).find task.source ·) front.size =
      some (front.size + s.size) := by
    have hbehind := Pattern.endAt?_behind (isLoose_of_quote q hq).2 h.setOff.front (s ++ rest) 0
    rw [endAt?_hexQuoted hq hs rest, ← h.source] at hbehind
    exact hbehind
  -- the strings ahead do not open on `hex` and a quote
  have hprefix : ∃ v, s ++ rest = ("hex".toList ++ [q]).toArray ++ v := by
    obtain ⟨_, rfl, _, ⟨_, ⟨c, hc, rfl⟩, cs', -, rfl⟩, hsplit⟩ := hs
    obtain rfl := eq_of_beq hc
    exact exists_opening hsplit.symm rest
  obtain ⟨v, hv⟩ := hprefix
  have hchecks : ∀ q ∈ quotes, ∃ ks ks', modes = ks ++ hexStringMode q :: ks' ∧
      sparedBy "hex".toList q ks = true := by
    intro q hq
    rcases List.mem_cons.mp hq with rfl | hq
    · exact ⟨[1, 2], [4, 6, 7, 8], rfl, by decide⟩
    · obtain rfl := List.mem_singleton.mp hq
      exact ⟨[1, 2, 3], [6, 7, 8], rfl, by decide⟩
  obtain ⟨ks, ks', hmodes, hspared⟩ := hchecks q hq
  have hpos : 0 < s.size := by
    obtain ⟨w, hw, w', -, hword⟩ := hs
    have hlength := congrArg List.length hword
    rw [List.length_append, show w = "hex".toList from hw] at hlength
    have hthree : "hex".toList.length = 3 := rfl
    have hsize : s.toList.length = s.size := rfl
    omega
  have hopens := h.next?_opens hmodes (show front.size < front.size + s.size by omega)
    (fun x hx hxk => by rw [hopener q hq x hx hxk]; exact hend) (h.endAt?_of_sparedBy hv hspared)
  exact h.crosses_whole (hrule q hq) hopens

/-- **A number shows its text.** -/
theorem crosses_number (hs : s.toList ∈ NumberLiteral.literal) :
    Crosses task ms front.size (front.size + s.size)
      [.region .number [.text (.ofList s.toList)]] := by
  have hmatch : NumberLiteral.matchAt? (s ++ rest) 0 = some s.size := by
    refine NumberLiteral.matchAt?_of_literal hs (h.setOff.rest.imp_right ?_)
    rintro ⟨c, hc, hrest⟩
    exact ⟨c, Source.breaks_of_mem_blanks c hc, hrest⟩
  have hpos := (NumberLiteral.within_of_matchAt? (NumberLiteral.matchAt?_zero_eq_size_iff.mpr hs)).1
  have hend : endAt? (Pattern.number.find task.source ·) front.size =
      some (front.size + s.size) := by
    have hloose : Pattern.number.isLoose = true := by decide
    have hbehind := Pattern.endAt?_behind hloose h.setOff.front (s ++ rest) 0
    rw [Pattern.endAt?_number (Nat.zero_le _), hmatch, ← h.source] at hbehind
    exact hbehind
  have hstarts : (task.source[front.size]?).any NumberLiteral.startsLiteral = true := by
    rw [Pattern.endAt?_number (by rw [h.source, Array.size_append]; omega)] at hend
    exact NumberLiteral.startsLiteral_of_matchAt? hend
  have hahead : ∀ x ∈ rules, x.1 ∈ [1, 2, 3, 4, 6, 7] →
      endAt? (x.2.opener.find task.source ·) front.size = none := by
    intro x hx hmem
    cases hother : endAt? (x.2.opener.find task.source ·) front.size with
    | none => rfl
    | some stop =>
      obtain ⟨hshuns, hsolid⟩ := shunsNumbers_of_mem_rules x hx hmem
      have havoids := Pattern.avoids_of_shunsNumbers hshuns task.source front.size stop hother
        (Pattern.lt_of_isSolid hsolid hother)
      rw [hstarts] at havoids
      cases havoids
  have hopener : ∀ x ∈ rules, x.1 = 8 → x.2.opener = .number := by
    have hall : rules.all (fun x => x.1 != 8 || x.2.opener == .number) = true := by decide
    intro x hx hxk
    simpa [hxk] using List.all_eq_true.mp hall x hx
  have hopens := h.next?_opens (show modes = [1, 2, 3, 4, 6, 7] ++ 8 :: [] from rfl)
    (show front.size < front.size + s.size by omega)
    (fun x hx hxk => by rw [hopener x hx hxk]; exact hend) hahead
  exact h.crosses_whole (List.mem_of_getElem? (i := 8) rfl) hopens

end Stands

end Stands

/-! ### Comments -/

theorem Stands.obeys_blockComment (h : Stands task ms front s rest) :
    task.grammar.Obeys 7 blockCommentRule :=
  h.literals (7, _) (List.mem_of_getElem? (i := 7) rfl)

/-- The text is a comment, and `r` is where its end starts, which is the first one in it. -/
structure IsComment (s : Source) (r : Nat) : Prop where
  opening : ∃ cs, s.toList = ['/'] ++ '*' :: cs
  two_le : 2 ≤ r
  size : s.size = r + 2
  star : s[r]? = some '*'
  slash : s[r + 1]? = some '/'
  inside : ∀ p, 2 ≤ p → p < r → s[p]? = some '*' → s[p + 1]? ≠ some '/'

theorem exists_isComment (hs : s.toList ∈ blockComment) : ∃ r, IsComment s r := by
  obtain ⟨body, hbody, hfirst⟩ := hs
  have hlist : s.toList = '/' :: '*' :: ((body ++ ['*']) ++ ['/']) := by
    rw [hbody]
    simp
  have hget : ∀ p, s[p + 2]? = ((body ++ ['*']) ++ ['/'])[p]? := by
    intro p
    rw [← Array.getElem?_toList, hlist]
    rfl
  have hsize : s.size = body.length + 4 := by
    rw [← Array.length_toList, hlist]
    simp
  refine ⟨body.length + 2, ⟨_, hlist⟩, Nat.le_add_left 2 _, hsize, ?_, ?_,
    fun p hp hlt hstar hslash => ?_⟩
  · rw [hget]
    simp
  · rw [show body.length + 2 + 1 = body.length + 1 + 2 by omega, hget]
    simp
  · obtain ⟨i, rfl⟩ := Nat.exists_eq_add_of_le' hp
    have hlength : i + 1 < (body ++ ['*']).length := by
      rw [List.length_append, List.length_singleton]
      omega
    rw [hget, List.getElem?_append_left (Nat.lt_of_succ_lt hlength)] at hstar
    rw [show i + 2 + 1 = i + 1 + 2 by omega, hget, List.getElem?_append_left hlength] at hslash
    -- then an end would stand in what is in front of the last slash
    refine hfirst ⟨(body ++ ['*']).take i, (body ++ ['*']).drop (i + 2), ?_⟩
    have hcut := List.take_append_drop i (body ++ ['*'])
    rw [List.drop_eq_getElem_cons (Nat.lt_of_succ_lt hlength), List.drop_eq_getElem_cons hlength,
      (List.getElem?_eq_some_iff.mp hstar).2, (List.getElem?_eq_some_iff.mp hslash).2] at hcut
    rw [List.append_assoc]
    exact hcut

namespace IsComment

variable (hs : IsComment s r)
include hs

theorem endsWith : s.EndsWith '/' := by
  rw [Source.EndsWith, hs.size]
  exact hs.slash

/-- A marker does not get over the end of the comment. -/
theorem le_of_doctag (hp : p ≤ r) (hend : endAt? (doctag.find s ·) p = some e) : p < e ∧ e ≤ r :=
  ⟨Pattern.lt_of_isSolid (by decide) hend,
    Pattern.le_of_spares hs.star (by decide) hp hend⟩

variable (h : Stands task ms front s rest)
include h

/-- In the comment, markers and the end are matched as in that alone. -/
theorem endAt?_eq {pattern : Pattern} (hloose : pattern.isLoose = true)
    (hstops : pattern.stopsAt '/' = true) (hp : p < s.size) :
    endAt? (pattern.find task.source ·) (front.size + p) =
      (endAt? (pattern.find s ·) p).map (front.size + ·) := by
  rw [h.source]
  exact Pattern.endAt?_opening hloose h.setOff.front hs.endsWith hstops hp rest

theorem endAt?_doctag (hp : p < s.size) : endAt? (doctag.find task.source ·) (front.size + p) =
    (endAt? (doctag.find s ·) p).map (front.size + ·) :=
  hs.endAt?_eq h (by decide) (by decide) hp

theorem unopened (hp : p < s.size) (hnone : endAt? (doctag.find s ·) p = none) :
    Unopened task blockCommentRule (front.size + p) := by
  refine ⟨fun j hj => ?_, nofun⟩
  obtain rfl := List.mem_singleton.mp hj
  refine admittedEnd?_eq_none (h.literals (5, _) (List.mem_of_getElem? (i := 5) rfl)).opener ?_
  rw [hs.endAt?_doctag h hp, hnone]
  rfl

/-- A marker is crossed as a whole. -/
theorem crosses_doctag (hp : p ≤ r) (hend : endAt? (doctag.find s ·) p = some e) :
    Crosses task (7 :: ms) (front.size + p) (front.size + e)
      [.region .doctag [.text (s.slice ⟨p, e⟩)]] := by
  obtain ⟨hlt, hle⟩ := hs.le_of_doctag hp hend
  have hsize := hs.size
  have hobeys := h.literals (5, _) (List.mem_of_getElem? (i := 5) rfl)
  have hcontains : (contentOf task.grammar (7 :: ms)).contains = [] ++ 5 :: [] :=
    h.obeys_blockComment.contains
  have hdoctag := hs.endAt?_doctag h (show p < s.size by omega)
  rw [hend] at hdoctag
  have hopens : Place.next? task [] ⟨front.size + p, 7 :: ms⟩ =
      some ⟨⟨front.size + p, front.size + e⟩, .opens 5⟩ :=
    Place.next?_of_first h.sound hcontains nofun
      (admittedEnd?_eq_some hobeys.opener (Nat.add_lt_add_left hlt _) hdoctag)
  have hcross := Crosses.whole h.sound hobeys.excludesBegin hobeys.keywords hopens
    (hobeys.immediate rfl)
  rw [hobeys.scope, h.slice_eq (by omega)] at hcross
  exact hcross

/-- Where no marker starts, a character is crossed as text. -/
theorem crosses_char (hp : 2 ≤ p) (hlt : p < r) (hnone : endAt? (doctag.find s ·) p = none) :
    Crosses task (7 :: ms) (front.size + p) (front.size + (p + 1)) (s.textNodes p (p + 1)) := by
  have hsize := hs.size
  have hobeys := h.obeys_blockComment
  rw [← h.textNodes_eq (show p + 1 ≤ s.size by omega)]
  refine .text hobeys.keywords (by omega)
    (quiet_of_obeys hobeys rfl (hs.unopened h (by omega) hnone) ?_)
  cases hend : endAt? (blockEnd.find task.source ·) (front.size + p) with
  | none => rfl
  | some stop =>
    obtain ⟨hstar, hslash, -⟩ := Pattern.endAt?_pair.mp hend
    rw [h.getElem?_eq (by omega)] at hstar
    rw [Nat.add_assoc, h.getElem?_eq (by omega)] at hslash
    obtain ⟨c, hc, hstar⟩ := (Option.any_eq_true _ _).mp hstar
    obtain ⟨d, hd, hslash⟩ := (Option.any_eq_true _ _).mp hslash
    rw [CharSet.contains_single] at hstar hslash
    exact absurd (hslash ▸ hd) (hs.inside p hp hlt (hstar ▸ hc))

omit h in
/-- **What is in a comment shows the same nodes wherever it stands.** -/
theorem exists_crosses_inside (hp : 2 ≤ p) (hle : p ≤ r) :
    ∃ ns, ∀ {task : Task} {ms : List Nat} {front rest : Source}, Stands task ms front s rest →
      Crosses task (7 :: ms) (front.size + p) (front.size + r) ns := by
  -- by induction on how much is left
  generalize hk : r - p = k
  induction k using Nat.strong_induction_on generalizing p with
  | _ k ih =>
    rcases Nat.eq_or_lt_of_le hle with rfl | hlt
    · exact ⟨[], fun _ => .refl _ _ _⟩
    · cases hend : endAt? (doctag.find s ·) p with
      | some e =>
        obtain ⟨hpe, her⟩ := hs.le_of_doctag hle hend
        obtain ⟨ns, hns⟩ := ih (r - e) (by omega) (by omega) her rfl
        exact ⟨_, fun h => (hs.crosses_doctag h hle hend).trans (hns h)⟩
      | none =>
        obtain ⟨ns, hns⟩ := ih (r - (p + 1)) (by omega) (by omega) hlt rfl
        exact ⟨_, fun h => (hs.crosses_char h hp hlt hend).trans (hns h)⟩

theorem next?_opens : Place.next? task [] ⟨front.size, ms⟩ =
    some ⟨⟨front.size, front.size + 2⟩, .opens 7⟩ := by
  obtain ⟨cs, hcs⟩ := hs.opening
  obtain ⟨v, hv⟩ := Stands.exists_opening hcs rest
  exact h.next?_of_openedBy hv (show modes = [1, 2, 3, 4, 6] ++ 7 :: [8] from rfl)
    (by decide) (by decide)

theorem next?_closes : Place.next? task [] ⟨front.size + r, 7 :: ms⟩ =
    some ⟨⟨front.size + r, front.size + s.size⟩, .closes 0⟩ := by
  have hsize := hs.size
  have hnone : endAt? (doctag.find s ·) r = none := by
    cases hend : endAt? (doctag.find s ·) r with
    | none => rfl
    | some e =>
      have hlt := hs.le_of_doctag (Nat.le_refl r) hend
      omega
  refine next?_closes_of_obeys h.obeys_blockComment h.sound rfl (hs.unopened h (by omega) hnone)
    (by omega) ?_
  refine Pattern.endAt?_pair.mpr ⟨?_, ?_, by omega⟩
  · rw [h.getElem?_of_some hs.star]
    exact CharSet.contains_single.mpr rfl
  · rw [Nat.add_assoc, h.getElem?_of_some hs.slash]
    exact CharSet.contains_single.mpr rfl

end IsComment

/-- **A comment shows the same nodes wherever it stands**, a text among them. -/
theorem exists_crosses_comment (hs : s.toList ∈ blockComment) :
    ∃ children, (∃ t, Node.text t ∈ children) ∧
      ∀ {task : Task} {ms : List Nat} {front rest : Source}, Stands task ms front s rest →
        Crosses task ms front.size (front.size + s.size) [.region .comment children] := by
  obtain ⟨r, hs⟩ := exists_isComment hs
  have hsize := hs.size
  have hle := hs.two_le
  obtain ⟨ns, hns⟩ := hs.exists_crosses_inside (Nat.le_refl 2) hle
  refine ⟨(EventLog.Forest.glue (s.textNodes r s.size)
    (EventLog.Forest.glue ns (s.textNodes 0 2))).reverse, ?_, fun {task ms front rest} h => ?_⟩
  · have htext : ∀ (t : String) (top : List Node), ∃ t',
        Node.text t' ∈ EventLog.Forest.joinText t top := by
      intro t top
      unfold EventLog.Forest.joinText
      split
      · exact ⟨_, List.mem_cons_self⟩
      · exact ⟨_, List.mem_cons_self⟩
    rw [Source.textNodes, if_pos (by omega)]
    obtain ⟨t, ht⟩ := htext (s.slice ⟨r, s.size⟩) (EventLog.Forest.glue ns (s.textNodes 0 2))
    exact ⟨t, List.mem_reverse.mpr ht⟩
  · have hobeys := h.obeys_blockComment
    obtain ⟨t, hending, -⟩ := hobeys.exists_ending rfl
    have hcross := Crosses.region h.sound hobeys.excludesBegin hobeys.keywords (hs.next?_opens h)
      hending hobeys.scope hobeys.excludesEnd hobeys.endsParent (hns h) (hs.next?_closes h)
    rw [h.textNodes_eq (Nat.le_refl _)] at hcross
    have hopening := h.textNodes_eq (p := 0) (e := 2) (by omega)
    rw [Nat.add_zero] at hopening
    rw [hopening] at hcross
    exact hcross

/-! ### All literals -/

/-- The text is a number, a string, a string of hexadecimal bytes or a comment. -/
inductive IsLiteral (w : List Char) : Prop
  | number (h : w ∈ NumberLiteral.literal)
  | string {q : Char} (hq : q ∈ quotes) (h : w ∈ Literal.string q)
  | hexString {q : Char} (hq : q ∈ quotes) (h : w ∈ Literal.hexString q)
  | comment (h : w ∈ blockComment)

/-- The text is shown as the node wherever it stands. -/
def ShownAs (s : Source) (n : Node) : Prop :=
  ∀ task ms front rest, Stands task ms front s rest →
    Crosses task ms front.size (front.size + s.size) [n]

/-- **A literal is shown as the same node wherever it stands.** -/
theorem exists_shownAs (hs : IsLiteral s.toList) :
    ∃ scope children, (Node.region scope children).HasLeaf ∧
      ShownAs s (.region scope children) := by
  cases hs with
  | number h =>
    exact ⟨_, _, .region List.mem_cons_self (.text _), fun _ _ _ _ hs => hs.crosses_number h⟩
  | string hq h =>
    exact ⟨_, _, .region List.mem_cons_self (.text _), fun _ _ _ _ hs => hs.crosses_string hq h⟩
  | hexString hq h =>
    exact ⟨_, _, .region List.mem_cons_self (.text _),
      fun _ _ _ _ hs => hs.crosses_hexString hq h⟩
  | comment h =>
    obtain ⟨children, ⟨t, ht⟩, hcross⟩ := exists_crosses_comment h
    exact ⟨_, children, .region ht (.text t), fun _ _ _ _ hs => hcross hs⟩

end Literal

end Highlighting
