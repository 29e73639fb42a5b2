/-
  Highlighting/Proofs/Language/Tables.lean
  ========================================
  **The keyword tables of the built-in languages compile.**

  The table of Solidity is too long to be worked out here.  It compiles because
  its lists have no word in common: every sized type starts with the word it is
  a size of, and no literal or built-in does.  It is the table that the language
  declares (`keywords_declare`), whatever else that takes.

  The tables of assembly compile for the same reason.  With what they are known
  (`table_eq`, `tableOf_eq`) in their places, the declarations are computed
  without entering the words and without reading the lexeme again for each table
  (`Solidity.workedOut`, `Yul.workedOut`).
-/
import Highlighting.Language.Solidity
import Highlighting.Language.Yul
import Highlighting.Proofs.Grammar
import Highlighting.Proofs.Grammar.Keywords

namespace Highlighting

namespace Construct

variable {α β : Type}

/-- All that the construction can answer is of a kind. -/
def Gives (P : α → Prop) (c : Construct α) : Prop := ∀ b a b', c b = .ok (a, b') → P a

theorem Gives.bind {P : β → Prop} {c : Construct α} {k : α → Construct β}
    (h : ∀ a, Gives P (k a)) : Gives P (c >>= k) := by
  intro b r b' hr
  have hr' : (c b >>= fun out => k out.1 out.2) = .ok (r, b') := hr
  obtain ⟨⟨a, b₁⟩, -, hk⟩ := Builder.exists_of_bind_eq_ok hr'
  exact h a b₁ r b' hk

theorem Gives.lift {P : β → Prop} {x : Except GrammarError α} {k : α → Construct β}
    (h : ∀ a, x = .ok a → Gives P (k a)) : Gives P (liftM x >>= k) := by
  cases x with
  | ok a => exact h a rfl
  | error e =>
    intro b r b' hr
    cases hr

theorem Gives.pure {P : α → Prop} {a : α} (h : P a) : Gives P (Pure.pure a : Construct α) := by
  intro b r b' hr
  cases hr
  exact h

end Construct

namespace Language

/-- What a written expression is parsed as. -/
def lexemeRegex (written : String) : Regex := (Regex.parse? written.toList).getD .empty

theorem parse?_lexeme {written : String} (h : (Regex.parse? written.toList).isSome = true) :
    Regex.parse? written.toList = some (lexemeRegex written) := by
  obtain ⟨r, hr⟩ := Option.isSome_iff_exists.mp h
  rw [lexemeRegex, hr]
  rfl

/-- The lexemes are accepted. -/
theorem lexemes_accepted : (Regex.parse? Assembly.lexeme.toList).isSome = true ∧
    (Regex.parse? Solidity.lexeme.toList).isSome = true := by
  decide +kernel

/-! ### Assembly -/

namespace Assembly

variable {moreKeywords moreBuiltIns : List String}

/-- The words of assembly, with those that a dialect adds, and their classes. -/
def wordsDecl (moreKeywords moreBuiltIns : List String) : KeywordDecl :=
  (((KeywordDecl.empty.withLexeme lexeme).add .keyword (keywords ++ moreKeywords)).add .builtIn
    (builtIns ++ moreBuiltIns)).add .literal literals

/-- No word has two classes, those of Yul included. -/
theorem words_apart :
    (∀ w ∈ keywords ++ Yul.keywords, w ∉ builtIns ++ Yul.builtIns) ∧
    (∀ w ∈ (keywords ++ Yul.keywords) ++ (builtIns ++ Yul.builtIns), w ∉ literals) := by
  decide +kernel

/-- **The table of assembly compiles**, with words of Yul or without. -/
theorem table_eq (hkeywords : moreKeywords ⊆ Yul.keywords)
    (hbuiltIns : moreBuiltIns ⊆ Yul.builtIns) :
    table moreKeywords moreBuiltIns =
      .ok ⟨.ofRegex (lexemeRegex lexeme), (wordsDecl moreKeywords moreBuiltIns).words⟩ := by
  have hk : keywords ++ moreKeywords ⊆ keywords ++ Yul.keywords :=
    List.append_subset.mpr
      ⟨List.subset_append_left _ _, List.subset_append_of_subset_right _ hkeywords⟩
  have hb : builtIns ++ moreBuiltIns ⊆ builtIns ++ Yul.builtIns :=
    List.append_subset.mpr
      ⟨List.subset_append_left _ _, List.subset_append_of_subset_right _ hbuiltIns⟩
  refine KeywordDecl.compile_eq (d := wordsDecl moreKeywords moreBuiltIns)
    (parse?_lexeme lexemes_accepted.1) ?_
  apply KeywordDecl.agree_add_apart
  · apply KeywordDecl.agree_add_apart
    · apply KeywordDecl.agree_add_apart
      · simp [KeywordDecl.Agree, KeywordDecl.withLexeme, KeywordDecl.empty]
      · simp [KeywordDecl.withLexeme, KeywordDecl.empty]
    · intro w hw hmem
      have hkeyword : w ∈ keywords ++ moreKeywords := by
        simpa [KeywordDecl.add, KeywordDecl.withLexeme, KeywordDecl.empty] using hw
      exact words_apart.1 w (hk hkeyword) (hb hmem)
  · intro w hw
    have hlisted : w ∈ (keywords ++ moreKeywords) ++ (builtIns ++ moreBuiltIns) := by
      simpa [KeywordDecl.add, KeywordDecl.withLexeme, KeywordDecl.empty] using hw
    apply words_apart.2 w
    rcases List.mem_append.mp hlisted with hkeyword | hbuiltIn
    · exact List.mem_append_left _ (hk hkeyword)
    · exact List.mem_append_right _ (hb hbuiltIn)

end Assembly

theorem Yul.table_eq : Assembly.table Yul.keywords Yul.builtIns =
    .ok ⟨.ofRegex (lexemeRegex Assembly.lexeme),
      (Assembly.wordsDecl Yul.keywords Yul.builtIns).words⟩ :=
  Assembly.table_eq (List.Subset.refl _) (List.Subset.refl _)

/-- The declaration of Yul with its table worked out. -/
def Yul.workedOut : { c : Construct LanguageDecl // declare = c } := ⟨_, by
  unfold declare
  simp only [table_eq]
  rfl⟩

/-! ### Solidity -/

namespace Solidity

/-- The table of a section of assembly. -/
theorem assemblyTable_eq : Assembly.table [] [] =
    .ok ⟨.ofRegex (lexemeRegex Assembly.lexeme), (Assembly.wordsDecl [] []).words⟩ :=
  Assembly.table_eq (List.nil_subset _) (List.nil_subset _)

/-- The table of a rule. -/
theorem tableOf_eq (keywords builtIns : List String) : tableOf keywords builtIns =
    (KeywordDecl.enter (((KeywordDecl.empty.withLexeme lexeme).add .keyword keywords).add .builtIn
      builtIns).entries .nil).map fun words => ⟨.ofRegex (lexemeRegex lexeme), words⟩ :=
  KeywordDecl.compile_of_lexeme (parse?_lexeme lexemes_accepted.2)

/-- The stems of the sized types. -/
def stems : List String := ["bytes", "int", "uint", "fixed", "ufixed"]

def HasStem (w : String) : Prop := ∃ stem ∈ stems, stem.toList <+: w.toList

theorem hasStem_append {stem : String} (h : stem ∈ stems) (rest : String) :
    HasStem (stem ++ rest) := by
  refine ⟨stem, h, ?_⟩
  rw [String.toList_append]
  exact List.prefix_append _ _

theorem hasStem_fixedTypes {stem : String} (h : stem ∈ stems) :
    ∀ w ∈ fixedTypes stem, HasStem w := by
  intro w hw
  simp only [fixedTypes, List.mem_flatMap, List.mem_map] at hw
  obtain ⟨bits, -, places, -, rfl⟩ := hw
  rw [String.append_assoc, String.append_assoc]
  exact hasStem_append h _

theorem hasStem_sizedTypes : ∀ w ∈ sizedTypes, HasStem w := by
  intro w hw
  simp only [sizedTypes, List.mem_append, List.mem_map] at hw
  rcases hw with (((⟨n, -, rfl⟩ | ⟨bits, -, rfl⟩) | ⟨bits, -, rfl⟩) | hw) | hw
  · exact hasStem_append (by decide) _
  · exact hasStem_append (by decide) _
  · exact hasStem_append (by decide) _
  · exact hasStem_fixedTypes (by decide) w hw
  · exact hasStem_fixedTypes (by decide) w hw

/-- The words of Solidity with their classes. -/
def wordsDecl : KeywordDecl :=
  (((KeywordDecl.empty.withLexeme lexeme).add .keyword (keywords ++ sizedTypes)).add .literal
    literals).add .builtIn builtIns

theorem table_eq_compile : table = wordsDecl.compile := rfl

/-- No word of a list without stems is a keyword, when none of the plain keywords is in it. -/
theorem not_mem_keywords {ws : List String} (hplain : ∀ w ∈ keywords, w ∉ ws)
    (hstems : ∀ w ∈ ws, ∀ stem ∈ stems, ¬ stem.toList <+: w.toList) :
    ∀ w ∈ keywords ++ sizedTypes, w ∉ ws := by
  intro w hw hmem
  rcases List.mem_append.mp hw with hw | hw
  · exact hplain w hw hmem
  · obtain ⟨stem, hstem, hprefix⟩ := hasStem_sizedTypes w hw
    exact hstems w hmem stem hstem hprefix

theorem agree_wordsDecl : KeywordDecl.Agree wordsDecl.entries := by
  have hliterals : ∀ w ∈ keywords ++ sizedTypes, w ∉ literals :=
    not_mem_keywords (by decide) (by decide)
  have hbuiltIns : ∀ w ∈ keywords ++ sizedTypes, w ∉ builtIns :=
    not_mem_keywords (by decide) (by decide)
  have hneither : ∀ w ∈ literals, w ∉ builtIns := by decide
  unfold wordsDecl
  refine KeywordDecl.agree_add (KeywordDecl.agree_add (KeywordDecl.agree_add ?_ ?_) ?_) ?_
  · intro e he
    cases he
  · intro e he
    cases he
  · intro e he hmem
    simp only [KeywordDecl.add, KeywordDecl.withLexeme, KeywordDecl.empty, List.nil_append] at he
    obtain ⟨w, hw, rfl⟩ := List.mem_map.mp he
    exact absurd hmem (hliterals w hw)
  · intro e he hmem
    simp only [KeywordDecl.add, KeywordDecl.withLexeme, KeywordDecl.empty, List.nil_append,
      List.mem_append] at he
    rcases he with he | he
    · obtain ⟨w, hw, rfl⟩ := List.mem_map.mp he
      exact absurd hmem (hbuiltIns w hw)
    · obtain ⟨w, hw, rfl⟩ := List.mem_map.mp he
      exact absurd hmem (hneither w hw)

/-- **The table of Solidity compiles.** -/
theorem table_eq : table = .ok ⟨.ofRegex (lexemeRegex lexeme), wordsDecl.words⟩ := by
  rw [table_eq_compile]
  exact KeywordDecl.compile_eq (parse?_lexeme lexemes_accepted.2) agree_wordsDecl

/-- The declared language has the table as its keywords. -/
theorem keywords_declare {t : KeywordTable} (h : table = .ok t) :
    Construct.Gives (fun language : LanguageDecl => language.keywords = some t) declare := by
  unfold declare
  rw [h]
  have htable : ∀ {α : Type} (k : KeywordTable → Construct α),
      (liftM (Except.ok t : Except GrammarError KeywordTable) >>= k) = k t := fun _ => rfl
  rw [htable]
  -- none of the other steps changes what is answered in the end
  repeat refine Construct.Gives.bind fun _ => ?_
  exact Construct.Gives.pure rfl

/-- The declaration with its tables worked out, so that what it declares can be computed. -/
def workedOut : { c : Construct LanguageDecl // declare = c } := ⟨_, by
  unfold declare declareAssembly declarationMode statementMode namespaceMode
  simp only [table_eq, tableOf_eq, assemblyTable_eq]
  rfl⟩

/-! ### Dollar signs -/

theorem dollar_not_mem_append {stem rest : String} (h : '$' ∉ stem.toList)
    (h' : '$' ∉ rest.toList) : '$' ∉ (stem ++ rest).toList := by
  rw [String.toList_append, List.mem_append]
  exact not_or.mpr ⟨h, h'⟩

theorem dollar_not_mem_toString (n : Nat) : '$' ∉ (toString n).toList := by
  intro h
  have hdigits : (toString n).toList = Nat.toDigits 10 n := by
    simp [Nat.toString_eq_repr, Nat.repr]
  rw [hdigits] at h
  exact absurd (Nat.isDigit_of_mem_toDigits (by decide) (by decide) h) (by decide)

theorem dollar_not_mem_fixedTypes {stem : String} (h : '$' ∉ stem.toList) :
    ∀ w ∈ fixedTypes stem, '$' ∉ w.toList := by
  intro w hw
  simp only [fixedTypes, List.mem_flatMap, List.mem_map] at hw
  obtain ⟨bits, -, places, -, rfl⟩ := hw
  exact dollar_not_mem_append (dollar_not_mem_append
    (dollar_not_mem_append h (dollar_not_mem_toString bits)) (by decide))
    (dollar_not_mem_toString places)

theorem dollar_not_mem_sizedTypes : ∀ w ∈ sizedTypes, '$' ∉ w.toList := by
  intro w hw
  simp only [sizedTypes, List.mem_append, List.mem_map] at hw
  rcases hw with (((⟨n, -, rfl⟩ | ⟨bits, -, rfl⟩) | ⟨bits, -, rfl⟩) | hw) | hw
  · exact dollar_not_mem_append (by decide) (dollar_not_mem_toString _)
  · exact dollar_not_mem_append (by decide) (dollar_not_mem_toString _)
  · exact dollar_not_mem_append (by decide) (dollar_not_mem_toString _)
  · exact dollar_not_mem_fixedTypes (by decide) w hw
  · exact dollar_not_mem_fixedTypes (by decide) w hw

/-- **No word of the table has a dollar sign.** -/
theorem find?_words_of_dollar {w : Word} (h : '$' ∈ w) : wordsDecl.words.find? w = none := by
  cases hfind : wordsDecl.words.find? w with
  | none => rfl
  | some c =>
    obtain ⟨e, he, rfl⟩ := KeywordDecl.mem_of_find?_words hfind
    have hplain : ∀ w ∈ keywords ++ literals ++ builtIns, '$' ∉ w.toList := by decide +kernel
    simp only [wordsDecl, KeywordDecl.add, KeywordDecl.withLexeme, KeywordDecl.empty,
      List.nil_append, List.map_append, List.mem_append, List.mem_map] at he
    rcases he with ((⟨v, hv, rfl⟩ | ⟨v, hv, rfl⟩) | ⟨v, hv, rfl⟩) | ⟨v, hv, rfl⟩
    · exact absurd h (hplain v (by simp [hv]))
    · exact absurd h (dollar_not_mem_sizedTypes v hv)
    · exact absurd h (hplain v (by simp [hv]))
    · exact absurd h (hplain v (by simp [hv]))

end Solidity

end Language

end Highlighting
