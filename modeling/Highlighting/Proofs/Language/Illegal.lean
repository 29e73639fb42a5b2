/-
  Highlighting/Proofs/Language/Illegal.lean
  =========================================
  **Solidity keeps illegal characters out of its regions.**

  The head of a function has no percent sign in it, and that of a type none of
  the characters that are illegal there; outside of assembly, that is, where
  functions have other heads.  No string goes on over a line feed, except behind
  a backslash (`illegal_characters_never_survive`).
-/
import Highlighting.Proofs.Grammar.Wards
import Highlighting.Proofs.Language.BuiltIn
import Highlighting.Proofs.Language.Tables

namespace Highlighting

namespace Language.Solidity

/-- What is illegal in the heads of declarations. -/
def headWard : Ward where
  banned
    | .function => ['%']
    | .declaration => [':', '"', '[', ']']
    | _ => []
  shields _ := []

/-- What is illegal in strings, unless it is escaped. -/
def lineWard : Ward where
  banned
    | .string | .directiveString => ['\n']
    | _ => []
  shields _ := ['\\']

/-- The modes of a section of assembly come last, and one word leads to them. -/
def enforcesWards (language : LanguageDecl) (b : Builder) : Bool :=
  b.enforces language headWard (List.range 29) [39] &&
    b.modeAt (·.opensWith b (Pattern.spells ["assembly".toList])) 39 &&
    b.enforces language lineWard (List.range 40) []

theorem enforcesWards_solidity : declares declare enforcesWards = true :=
  declares_of_workedOut workedOut (by decide +kernel)

structure EnforcesWards (g : Grammar) : Prop where
  head : g.Enforces headWard (List.range 29) [39]
  assembly : g.Passes (Pattern.spells ["assembly".toList]) (g.mode 39).opener
  line : g.Enforces lineWard (List.range 40) []

theorem enforcesWards_of_finish {g : Grammar} (hg : grammar = .ok g) : EnforcesWards g := by
  obtain ⟨language, b, -, hfinish, hcheck⟩ := exists_finish_of_declares enforcesWards_solidity hg
  simp only [enforcesWards, Bool.and_eq_true] at hcheck
  obtain ⟨⟨hhead, hassembly⟩, hline⟩ := hcheck
  obtain ⟨decl, hdecl, hmode⟩ := Builder.exists_of_finish hfinish hassembly
  exact ⟨Builder.enforces_of_finish hfinish (fun c => by cases c <;> rfl) hhead,
    Builder.opener_passes hmode hdecl,
    Builder.enforces_of_finish hfinish (fun c => by cases c <;> rfl) hline⟩

/-- Without the word there is no section of assembly. -/
theorem EnforcesWards.shut {g : Grammar} (h : EnforcesWards g) {text : String}
    (hassembly : ¬ "assembly".toList <:+: text.toList) (options : Scan.Options) :
    ∀ n ∈ [39], ∀ barred p, Scan.admittedEnd? (Scan.task g (Source.ofString text) options) barred
      (g.mode n).opener p = none := by
  intro n hn barred p
  obtain rfl := List.mem_singleton.mp hn
  cases hend : Scan.admittedEnd? (Scan.task g (Source.ofString text) options) barred
      (g.mode 39).opener p with
  | none => rfl
  | some stop =>
    obtain ⟨pattern, hspells, hend⟩ := Scan.endAt?_passes h.assembly hend
    have hword : (Source.ofString text).chars ⟨p, stop⟩ = "assembly".toList :=
      List.mem_singleton.mp (Pattern.chars_mem_of_spells hspells hend)
    have hinfix := Source.chars_infix (Source.ofString text) ⟨p, stop⟩
    rw [hword] at hinfix
    exact absurd hinfix hassembly

end Language.Solidity

open Language.Solidity in
/-- **Illegal characters never survive in their region.**  However regions nest, end or are given
up, the text of a function's head has no percent sign in it and that of a type's head no colon,
quote or square bracket, as long as there is no assembly; and a line feed in a string follows a
backslash. -/
theorem illegal_characters_never_survive :
    ∃ solidity, Language.Solidity.grammar = .ok solidity ∧ ∀ text : String,
      (¬ "assembly".toList <:+: text.toList → ∀ t ∈ (solidity.highlight text ⟨false⟩).leaves,
        (t.scope = some .function → '%' ∉ t.text.toList) ∧
        (t.scope = some .declaration → ∀ c ∈ [':', '"', '[', ']'], c ∉ t.text.toList)) ∧
      ∀ t ∈ (solidity.highlight text ⟨false⟩).leaves,
        t.scope = some .string ∨ t.scope = some .directiveString →
        ∀ i, t.text.toList[i]? = some '\n' → ∃ j, i = j + 1 ∧ t.text.toList[j]? = some '\\' := by
  obtain ⟨solidity, hsolidity, hsuits⟩ := Language.exists_solidity
  have hwards := enforcesWards_of_finish hsolidity
  refine ⟨solidity, hsolidity, fun text => ?_⟩
  have hsound := hsuits.isSound (Source.ofString text) ⟨false⟩
  constructor
  · intro hassembly t ht
    have hkeeps := Scan.keeps_of_mem_leaves hsound hwards.head rfl (hwards.shut hassembly _) ht
    -- nothing shields what is illegal in a head
    have hfree : ∀ s ∈ t.scope, ∀ c ∈ headWard.banned s, c ∉ t.text.toList := by
      intro s hs c hc hmem
      obtain ⟨i, hi⟩ := List.getElem?_of_mem hmem
      obtain ⟨j, d, -, -, hd⟩ := hkeeps s hs c hc i hi
      cases hd
    exact ⟨fun hscope => hfree .function hscope '%' List.mem_cons_self,
      fun hscope => hfree .declaration hscope⟩
  · intro t ht hscope i hi
    have hkeeps := Scan.keeps_of_mem_leaves hsound hwards.line rfl (fun n hn => nomatch hn) ht
    obtain ⟨s, hs, hbanned⟩ : ∃ s ∈ t.scope, '\n' ∈ lineWard.banned s := by
      rcases hscope with hscope | hscope
      · exact ⟨.string, hscope, List.mem_cons_self⟩
      · exact ⟨.directiveString, hscope, List.mem_cons_self⟩
    obtain ⟨j, d, rfl, hj, hd⟩ := hkeeps s hs '\n' hbanned i hi
    exact ⟨j, rfl, hj.trans (congrArg some (List.mem_singleton.mp hd))⟩

/-- A string that goes on in the next line, and the heads of a function and of a type. -/
theorem escaped_line_feed_survives :
    ∃ solidity, Language.Solidity.grammar = .ok solidity ∧
      let text := "'\\\n'function ;contract "
      ¬ "assembly".toList <:+: text.toList ∧
      (⟨some .function, " "⟩ ∈ (solidity.highlight text ⟨false⟩).leaves ∧ '%' ∉ " ".toList) ∧
      (⟨some .declaration, " "⟩ ∈ (solidity.highlight text ⟨false⟩).leaves ∧
        ∀ c ∈ [':', '"', '[', ']'], c ∉ " ".toList) ∧
      ⟨some .string, "'\\\n'"⟩ ∈ (solidity.highlight text ⟨false⟩).leaves ∧
        "'\\\n'".toList[2]? = some '\n' ∧
        ∃ j, 2 = j + 1 ∧ "'\\\n'".toList[j]? = some '\\' := by
  have hleaves : Language.declares Language.Solidity.declare (fun language b =>
      (b.finish language).toOption.any fun g =>
        (g.highlight "'\\\n'function ;contract " ⟨false⟩).leaves ==
          [⟨some .string, "'\\\n'"⟩, ⟨some .keyword, "function"⟩, ⟨some .function, " "⟩,
            ⟨none, ";"⟩, ⟨some .keyword, "contract"⟩, ⟨some .declaration, " "⟩]) = true :=
    Language.declares_of_workedOut Language.Solidity.workedOut (by decide +kernel)
  obtain ⟨solidity, hsolidity, hclean⟩ := illegal_characters_never_survive
  obtain ⟨language, b, -, hfinish, hcheck⟩ :=
    Language.exists_finish_of_declares hleaves hsolidity
  rw [hfinish] at hcheck
  replace hcheck := eq_of_beq hcheck
  have hassembly : ¬ "assembly".toList <:+: "'\\\n'function ;contract ".toList := by decide
  obtain ⟨hheads, hstrings⟩ := hclean "'\\\n'function ;contract "
  refine ⟨solidity, hsolidity, hassembly, ?_⟩
  rw [hcheck] at hheads hstrings ⊢
  refine ⟨⟨by simp, (hheads hassembly ⟨some .function, " "⟩ (by simp)).1 rfl⟩,
    ⟨by simp, (hheads hassembly ⟨some .declaration, " "⟩ (by simp)).2 rfl⟩, by simp, rfl,
    hstrings ⟨some .string, "'\\\n'"⟩ (by simp) (.inl rfl) 2 rfl⟩

end Highlighting
