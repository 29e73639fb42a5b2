/-
  Highlighting/Proofs/Language/Delimiters.lean
  ============================================
  **Delimiters at the start of a text** in Solidity.

  What ends a chain of members is an operator, a quote, or a separator.  Nothing
  opens at a separator (`TakesDelimiters.standsAlone`), although the hash is
  illegal.  At an operator some region with a scope opens, whatever comes behind
  it: that of the operator, or that of a comment
  (`TakesDelimiters.exists_head?_leaves`).  And a quote may or may not turn out to
  be the start of a string.
-/
import Highlighting.Proofs.Grammar.Rules
import Highlighting.Proofs.Language.Lines
import Highlighting.Proofs.Language.Members
import Highlighting.Proofs.Scan.Outset
import Highlighting.Proofs.Scan.Seam.Delimiters
import Highlighting.Proofs.Scan.Wards

namespace Highlighting

open Scan Search

namespace Language.Solidity

def operators : List Char := "+-!~*/%<>&^|=".toList

/-- Delimiters that no region begins with. -/
def separators : List Char :=
  delimiters.filter fun c => !operators.contains c && !Literal.quotes.contains c

/-! ### Grammars -/

/-- No region begins with a separator, and only the hash is illegal.  One opens with each of the
operators, and all that do have a scope, and nothing illegal in them. -/
structure TakesDelimiters (g : Grammar) : Prop where
  spares : ∀ m ∈ g.root.contains, g.Passes (·.shuns separators) (g.mode m).opener
  illegal : ∃ i, g.root.illegal = some i ∧ g.terminals[i]? = some ⟨.char '#', false⟩
  opens : ∃ m ∈ g.root.contains, g.Passes (·.takesEach operators) (g.mode m).opener
  covered : ∀ m ∈ g.root.contains, g.Passes (·.shuns operators) (g.mode m).opener ∨
    (g.mode m).scope ≠ none ∧ (g.mode m).excludesBegin = false ∧
      (g.mode m).content.illegal = none

def takesDelimiters (language : LanguageDecl) (b : Builder) : Bool :=
  language.contains.all (b.modeAt (·.opensWith b (·.shuns separators))) &&
    b.isIllegal (some (.char '#')) language.illegal &&
    language.contains.any (b.modeAt (·.opensWith b (·.takesEach operators))) &&
    language.contains.all (b.modeAt fun m => m.opensWith b (·.shuns operators) ||
      m.scope.isSome && !m.excludesBegin && m.illegal.isNone)

theorem takesDelimiters_solidity : declares declare takesDelimiters = true :=
  declares_of_workedOut workedOut (by decide +kernel)

theorem takesDelimiters_of_finish {g : Grammar} (hg : grammar = .ok g) : TakesDelimiters g := by
  obtain ⟨language, b, -, hfinish, hcheck⟩ := exists_finish_of_declares takesDelimiters_solidity hg
  have hrealizes := Builder.realizes_of_finish hfinish
  simp only [takesDelimiters, Bool.and_eq_true] at hcheck
  obtain ⟨⟨⟨hspares, hillegal⟩, hopens⟩, hcovered⟩ := hcheck
  refine ⟨?_, ?_, ?_, ?_⟩
  · rw [hrealizes.contains]
    exact Builder.opener_passes_of_all hfinish hspares
  · have hrel := Builder.illegal_of_realizes hrealizes.illegal hillegal
    generalize g.root.illegal = illegal at hrel
    cases hrel with
    | some ht => exact ⟨_, rfl, ht⟩
  · obtain ⟨m, hm, hopener⟩ := List.any_eq_true.mp hopens
    obtain ⟨decl, hdecl, hmode⟩ := Builder.exists_of_finish hfinish hopener
    rw [hrealizes.contains]
    exact ⟨m, hm, Builder.opener_passes hmode hdecl⟩
  · intro m hm
    rw [hrealizes.contains] at hm
    obtain ⟨decl, hdecl, hmode⟩ :=
      Builder.exists_of_finish hfinish (List.all_eq_true.mp hcovered m hm)
    simp only [Bool.or_eq_true, Bool.and_eq_true, Bool.not_eq_true'] at hdecl
    rcases hdecl with hshuns | ⟨⟨hscope, hbegin⟩, hnone⟩
    · exact .inl (Builder.opener_passes hmode hshuns)
    · refine .inr ⟨?_, hmode.excludesBegin.trans hbegin,
        Builder.illegal_eq_none hmode hnone⟩
      rw [hmode.scope]
      exact Option.isSome_iff_ne_none.mp hscope

/-! ### Names -/

/-- Outside of regions no name has the delimiter. -/
theorem namesLack_of_finish {g : Grammar} {c : Char} (hg : grammar = .ok g)
    (hc : c ∈ delimiters) : NamesLack g c := by
  obtain ⟨words, hkeywords, -⟩ := (sparesNames_of_finish hg).keywords
  have hnot := not_contains_of_mem_delimiters hc
  simp only [Yul.nameRest, CharSet.contains, Bool.or_eq_false_iff] at hnot
  obtain ⟨hdollar, -, hdigit, hupper, hscore, hlower⟩ := hnot
  refine ⟨_, nameStart, nameRest, hkeywords, rfl, by decide, ?_, ?_⟩
  · simp only [nameStart, CharSet.contains, Bool.or_eq_false_iff]
    exact ⟨hdollar, hupper, hscore, hlower⟩
  · simp only [nameRest, CharSet.contains, Bool.or_eq_false_iff]
    exact ⟨hdollar, hdigit, hupper, hscore, hlower⟩

/-! ### The first character -/

namespace TakesDelimiters

variable {g : Grammar} {options : Options} {text : Source} {c : Char} {e : Nat}
  {d : Nat × Candidate} (hg : TakesDelimiters g) (hsound : (task g text options).IsSound)
  (hc : text[0]? = some c)
include hg hsound hc

/-- What matches at the first character opens a region that does not shun it, or is the hash. -/
theorem of_admittedEnd? (hd : d ∈ candidates (task g text options) [])
    (hend : admittedEnd? (task g text options) [] d.1 0 = some e) :
    (∃ m ∈ g.root.contains, d.2 = .opens m ∧
      ∀ cs, g.Passes (·.shuns cs) (g.mode m).opener → c ∉ cs) ∨
    d.2 = .illegal ∧ c = '#' ∧ e = 1 := by
  obtain ⟨index, candidate⟩ := d
  obtain ⟨t, ht, hmatch, -⟩ := admittedEnd?_eq_some_iff.mp hend
  cases candidate with
  | opens m =>
    obtain ⟨hm, rfl⟩ := mem_candidates_opens.mp hd
    have hopener := (hsound.inOrder.mode (hsound.inOrder.root.contains m hm)).opener
    have hlt := (admitted_of_admittedEnd? hsound hend).start_lt hopener
    refine .inl ⟨m, hm, rfl, fun cs hshuns => ?_⟩
    obtain ⟨c', hc', hnot⟩ := Pattern.not_mem_of_shuns (hshuns t ht) hmatch hlt
    obtain rfl := Option.some.inj (hc'.symm.trans hc)
    exact hnot
  | closes depth => exact nomatch mem_candidates_closes.mp hd
  | illegal =>
    obtain ⟨i, hi, hterminal⟩ := hg.illegal
    obtain rfl := Option.some.inj ((mem_candidates_illegal.mp hd).2.symm.trans hi)
    obtain rfl : ⟨.char '#', false⟩ = t := Option.some.inj (hterminal.symm.trans ht)
    obtain ⟨hhash, rfl⟩ := Pattern.endAt?_char.mp hmatch
    exact .inr ⟨rfl, Option.some.inj (hc.symm.trans hhash), rfl⟩

/-- **At an operator a region with a scope opens.** -/
theorem exists_next? (hoperator : c ∈ operators) : ∃ k e,
    Place.next? (task g text options) [] ⟨0, []⟩ = some ⟨⟨0, e⟩, .opens k⟩ ∧
      (g.mode k).scope ≠ none ∧ (g.mode k).excludesBegin = false ∧
      (g.mode k).content.illegal = none := by
  obtain ⟨m, hm, htakes⟩ := hg.opens
  have hmem : ((g.mode m).opener, Candidate.opens m) ∈ candidates (task g text options) [] :=
    mem_candidates_opens.mpr ⟨hm, rfl⟩
  obtain ⟨t, ht, -⟩ := (hsound.inOrder.mode (hsound.inOrder.root.contains m hm)).opener
  have hend : admittedEnd? (task g text options) [] (g.mode m).opener 0 = some 1 :=
    admittedEnd?_eq_some ht Nat.one_pos
      (Pattern.endAt?_of_takesEach (htakes t ht) hoperator hc)
  cases hnext : Place.next? (task g text options) [] ⟨0, []⟩ with
  | none =>
    have hnone := (Place.next?_eq_none_iff hsound).mp hnext _ hmem 0 (Nat.le_refl 0)
    rw [hend] at hnone
    cases hnone
  | some f =>
    obtain ⟨i, index, hi, -, hstop, hleast⟩ := (Place.next?_eq_some_iff hsound).mp hnext
    obtain ⟨j, hj⟩ := List.getElem?_of_mem hmem
    have hstart : f.span.start = 0 := by
      have hfirst := hleast j _ 0 1 hj (Nat.le_refl 0) hend
      omega
    rw [hstart] at hstop
    rcases hg.of_admittedEnd? hsound hc (List.mem_of_getElem? hi) hstop with
      ⟨k, hk, hopens, hshuns⟩ | ⟨-, hhash, -⟩
    · refine ⟨k, f.span.stop, ?_, (hg.covered k hk).resolve_left fun h => hshuns _ h hoperator⟩
      rw [← hstart, ← hopens]
    · rw [hhash] at hoperator
      exact absurd hoperator (by decide)

end TakesDelimiters

/-- **Nothing opens at a separator.** -/
theorem TakesDelimiters.standsAlone {g : Grammar} {options : Options} {c : Char}
    (hg : TakesDelimiters g) (hsound : ∀ text, (task g text options).IsSound)
    (hc : c ∈ separators) : StandsAlone g options c := by
  have hfirst : ∀ v : Source, (#[c] ++ v)[0]? = some c :=
    fun v => Array.getElem?_append_left Nat.one_pos
  have honly : ∀ v, ∀ d ∈ candidates (task g (#[c] ++ v) options) [], ∀ e,
      admittedEnd? (task g (#[c] ++ v) options) [] d.1 0 = some e →
        d.2 = .illegal ∧ c = '#' ∧ e = 1 := by
    intro v d hd e hend
    rcases hg.of_admittedEnd? (hsound _) (hfirst v) hd hend with ⟨m, hm, -, hshuns⟩ | hillegal
    · exact absurd hc (hshuns _ (hg.spares m hm))
    · exact hillegal
  by_cases hhash : c = '#' ∧ options.ignoreIllegals = false
  · obtain ⟨rfl, hcount⟩ := hhash
    obtain ⟨i, hi, ht⟩ := hg.illegal
    refine .inr fun v => ?_
    refine next?_of_only (hsound _) (d := (i, .illegal)) (mem_candidates_illegal.mpr ⟨hcount, hi⟩)
      (admittedEnd?_eq_some ht Nat.one_pos (Pattern.endAt?_char.mpr ⟨hfirst v, rfl⟩))
      fun d hd e hend => ?_
    obtain ⟨hcandidate, -, he⟩ := honly v d hd e hend
    exact ⟨hcandidate, he⟩
  · refine .inl fun v d hd q _ hq => ?_
    obtain rfl : q = 0 := Nat.lt_one_iff.mp hq
    cases hend : admittedEnd? (task g (#[c] ++ v) options) [] d.1 0 with
    | none => rfl
    | some e =>
      obtain ⟨hcandidate, hchar, -⟩ := honly v d hd e hend
      obtain ⟨index, candidate⟩ := d
      obtain rfl : candidate = .illegal := hcandidate
      exact absurd ⟨hchar, (mem_candidates_illegal.mp hd).1⟩ hhash

end Language.Solidity

end Highlighting
