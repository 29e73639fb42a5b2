/-
  Highlighting/Proofs/Language/EmptyWord.lean
  ===========================================
  **The empty word is no keyword** in the built-in languages.

  A table has no words but those that were listed for it.  So it is enough that
  no list has the empty word, for the tables that are handed from one mode to
  the next as for those that a mode declares for itself.  This is followed
  through the declarations step by step (`Construct.Worded`), for the table of
  Solidity is too long to be looked into.
-/
import Highlighting.Language.Yul
import Highlighting.Proofs.Language.Tables
import Highlighting.Proofs.Scan.Sums

namespace Highlighting

variable {α β : Type} {m : ModeDecl} {t : KeywordTable}

/-! ### Tables -/

theorem noEmptyWord_none : NoEmptyWord none := fun _ ht => nomatch ht

theorem noEmptyWord_some (h : t.classify [] = none) : NoEmptyWord (some t) := by
  intro table htable
  obtain rfl : t = table := Option.some.inj htable
  exact h

namespace KeywordDecl

variable {d : KeywordDecl} {ws : List String}

/-- No word that is listed is empty. -/
def Worded (d : KeywordDecl) : Prop := ∀ e ∈ d.entries, e.1 ≠ ""

theorem worded_empty : empty.Worded := fun _ he => nomatch he

theorem Worded.withLexeme (h : d.Worded) (written : String) : (d.withLexeme written).Worded := h

theorem Worded.add (h : d.Worded) (hws : ∀ w ∈ ws, w ≠ "") (c : KeywordClass) :
    (d.add c ws).Worded := by
  intro e he
  rcases List.mem_append.mp he with he | he
  · exact h e he
  · obtain ⟨w, hw, rfl⟩ := List.mem_map.mp he
    exact hws w hw

/-- **Where no word is empty that is listed, the empty word is not in the table.** -/
theorem classify_nil_of_compile (h : d.compile = .ok t) (hd : d.Worded) :
    t.classify [] = none := by
  obtain ⟨-, -, -, hlisted⟩ := exists_of_compile h
  cases hfind : t.words.find? [] with
  | none => exact hfind
  | some c =>
    obtain ⟨e, he, hnil⟩ := hlisted [] c hfind
    exact absurd (String.toList_eq_nil_iff.mp hnil) (hd e he)

end KeywordDecl

namespace Builder

/-- The empty word is no keyword of any mode that was declared. -/
def Worded (b : Builder) : Prop := ∀ m, some m ∈ b.modes → NoEmptyWord m.keywords

theorem worded_start (lookbehind : Lookbehind) : (start lookbehind).Worded :=
  fun _ hm => absurd hm (Array.not_mem_empty _)

end Builder

/-! ### Constructions -/

namespace Construct

/-- The construction declares no mode with the empty word for a keyword, and what it answers is of
a kind. -/
def Worded (Q : α → Prop) (c : Construct α) : Prop :=
  ∀ b, b.Worded → ∀ a b', c b = .ok (a, b') → b'.Worded ∧ Q a

variable {Q : α → Prop} {R : β → Prop}

theorem Worded.bind {c : Construct α} {k : α → Construct β} (h : Worded Q c)
    (hk : ∀ a, Q a → Worded R (k a)) : Worded R (c >>= k) := by
  intro b hb r b' hr
  have hr' : (c b >>= fun out => k out.1 out.2) = .ok (r, b') := hr
  obtain ⟨⟨a, b₁⟩, hc, hnext⟩ := Builder.exists_of_bind_eq_ok hr'
  obtain ⟨hb₁, ha⟩ := h b hb a b₁ hc
  exact hk a ha b₁ hb₁ r b' hnext

theorem worded_pure {a : α} (h : Q a) : Worded Q (Pure.pure a : Construct α) := by
  intro b hb r b' hr
  cases hr
  exact ⟨hb, h⟩

theorem worded_lift {x : Except GrammarError α} (h : ∀ a, x = .ok a → Q a) :
    Worded Q (liftM x : Construct α) := by
  cases x with
  | ok a => exact worded_pure (h a rfl)
  | error e =>
    intro b _ r b' hr
    cases hr

theorem worded_add (h : NoEmptyWord m.keywords) : Worded (fun _ => True) (Builder.add m) := by
  intro b hb r b' hr
  cases hr
  refine ⟨fun m' hm' => ?_, trivial⟩
  rcases Array.mem_push.mp hm' with hm' | hm'
  · exact hb m' hm'
  · obtain rfl := Option.some.inj hm'
    exact h

theorem worded_reserve : Worded (fun _ => True) Builder.reserve := by
  intro b hb r b' hr
  cases hr
  refine ⟨fun m' hm' => ?_, trivial⟩
  rcases Array.mem_push.mp hm' with hm' | hm'
  · exact hb m' hm'
  · cases hm'

theorem worded_define (index : Nat) (h : NoEmptyWord m.keywords) :
    Worded (fun _ => True) (Builder.define index m) := by
  intro b hb r b' hr
  rw [Builder.define] at hr
  split at hr
  · cases hr
    refine ⟨fun m' hm' => ?_, trivial⟩
    rcases Array.mem_or_eq_of_mem_setIfInBounds hm' with hm' | hm'
    · exact hb m' hm'
    · obtain rfl := Option.some.inj hm'
      exact h
  · cases hr

theorem worded_inherit (index : Nat) :
    Worded (fun m => NoEmptyWord m.keywords) (Builder.inherit index) := by
  intro b hb r b' hr
  rw [Builder.inherit] at hr
  split at hr
  · next hm =>
    cases hr
    exact ⟨hb, hb _ (Array.mem_of_getElem? hm)⟩
  · cases hr

/-- A mode that was made may be changed before it is added, but for its keywords. -/
theorem worded_addMade {x : Except GrammarError ModeDecl} {f : ModeDecl → ModeDecl}
    {k : Nat → Construct β} (hx : ∀ m, x = .ok m → NoEmptyWord m.keywords)
    (hf : ∀ m, (f m).keywords = m.keywords) (hk : ∀ n, Worded R (k n)) :
    Worded R ((liftM x : Construct ModeDecl) >>= fun m => Builder.add (f m) >>= k) := by
  refine (worded_lift hx).bind fun m hm => ?_
  have hadd : Worded (fun _ => True) (Builder.add (f m)) := worded_add (by rwa [hf m])
  exact hadd.bind fun n _ => hk n

/-- A builder may note the number of a shared mode. -/
theorem worded_modify {f : Builder → Builder} (hf : ∀ b, (f b).modes = b.modes) :
    Worded (fun _ => True) (modify f : Construct PUnit) := by
  intro b hb r b' hr
  cases hr
  refine ⟨fun m hm => hb m ?_, trivial⟩
  rwa [← hf b]

theorem worded_get : Worded (fun _ => True) (get : Construct Builder) := by
  intro b hb r b' hr
  cases hr
  exact ⟨hb, trivial⟩

theorem worded_mapM {xs : List α} {f : α → Construct β}
    (h : ∀ x ∈ xs, Worded (fun _ => True) (f x)) : Worded (fun _ => True) (xs.mapM f) := by
  induction xs with
  | nil => exact worded_pure trivial
  | cons x xs ih =>
    obtain ⟨hx, hxs⟩ := List.forall_mem_cons.mp h
    rw [List.mapM_cons]
    exact hx.bind fun _ _ => (ih hxs).bind fun _ _ => worded_pure trivial

end Construct

open Construct

/-! ### Shared modes -/

namespace Builder

/-- A shared mode is declared, and its number noted. -/
theorem worded_note {note : Nat → Builder → Builder} (h : NoEmptyWord m.keywords)
    (hnote : ∀ n b, (note n b).modes = b.modes) :
    Construct.Worded (fun _ => True) (do let n ← add m; modify (note n); return n) := by
  refine (worded_add h).bind fun n _ => (worded_modify (hnote n)).bind fun _ _ => ?_
  exact worded_pure trivial

theorem worded_doctag : Construct.Worded (fun _ => True) doctag := by
  refine worded_get.bind fun b _ => ?_
  cases b.doctag? with
  | some n => exact worded_pure trivial
  | none => exact worded_note noEmptyWord_none fun _ _ => rfl

theorem worded_lineComment : Construct.Worded (fun _ => True) lineComment := by
  refine worded_get.bind fun b _ => ?_
  cases b.lineComment? with
  | some n => exact worded_pure trivial
  | none => exact worded_doctag.bind fun _ _ => worded_note noEmptyWord_none fun _ _ => rfl

theorem worded_blockComment : Construct.Worded (fun _ => True) blockComment := by
  refine worded_get.bind fun b _ => ?_
  cases b.blockComment? with
  | some n => exact worded_pure trivial
  | none => exact worded_doctag.bind fun _ _ => worded_note noEmptyWord_none fun _ _ => rfl

theorem worded_escape : Construct.Worded (fun _ => True) escape := by
  refine worded_get.bind fun b _ => ?_
  cases b.escape? with
  | some n => exact worded_pure trivial
  | none => exact worded_note noEmptyWord_none fun _ _ => rfl

end Builder

namespace Language

theorem worded_stringMode (quote : String) :
    Construct.Worded (fun m => NoEmptyWord m.keywords) (stringMode quote) :=
  Builder.worded_escape.bind fun _ _ => worded_pure noEmptyWord_none

namespace Literals

theorem worded_declare : Construct.Worded (fun _ => True) Literals.declare := by
  refine (worded_stringMode _).bind fun apos hapos => ?_
  refine (worded_stringMode _).bind fun quote hquote => ?_
  refine (worded_add hapos).bind fun _ _ => (worded_add hquote).bind fun _ _ => ?_
  refine (worded_add noEmptyWord_none).bind fun _ _ => ?_
  refine (worded_add noEmptyWord_none).bind fun _ _ => ?_
  refine Builder.worded_lineComment.bind fun _ _ => Builder.worded_blockComment.bind fun _ _ => ?_
  exact (worded_add noEmptyWord_none).bind fun _ _ => worded_pure trivial

theorem worded_directiveStrings (l : Literals) :
    Construct.Worded (fun _ => True) l.directiveStrings := by
  refine (worded_inherit _).bind fun apos hapos => (worded_inherit _).bind fun quote hquote => ?_
  -- only their scope is another
  have hstring : ∀ m : ModeDecl, NoEmptyWord m.keywords → Construct.Worded (fun _ => True)
      (Builder.add { m with scope := some .directiveString }) := fun m hm => worded_add hm
  refine (hstring apos hapos).bind fun _ _ => (hstring quote hquote).bind fun _ _ => ?_
  exact worded_pure trivial

end Literals

/-! ### Assembly -/

namespace Assembly

theorem classify_nil_table {ks bs : List String} (hks : ∀ w ∈ ks, w ≠ "")
    (hbs : ∀ w ∈ bs, w ≠ "") (h : Assembly.table ks bs = .ok t) : t.classify [] = none := by
  have hplain : (∀ w ∈ keywords, w ≠ "") ∧ (∀ w ∈ builtIns, w ≠ "") ∧ ∀ w ∈ literals, w ≠ "" := by
    decide +kernel
  obtain ⟨hkeywords, hbuiltIns, hliterals⟩ := hplain
  exact KeywordDecl.classify_nil_of_compile h
    ((((KeywordDecl.worded_empty.withLexeme lexeme).add
      (List.forall_mem_append.mpr ⟨hkeywords, hks⟩) _).add
      (List.forall_mem_append.mpr ⟨hbuiltIns, hbs⟩) _).add hliterals _)

theorem worded_declare (l : Literals) (h : t.classify [] = none) :
    Construct.Worded (fun _ => True) (Assembly.declare l t) := by
  refine (worded_add noEmptyWord_none).bind fun _ _ => ?_
  refine (worded_add (noEmptyWord_some h)).bind fun _ _ => ?_
  refine (worded_add (noEmptyWord_some h)).bind fun _ _ => ?_
  exact (worded_add noEmptyWord_none).bind fun _ _ => worded_pure trivial

end Assembly

/-- **No mode of Yul has the empty word for a keyword**, and neither has the language. -/
theorem Yul.worded_declare :
    Construct.Worded (fun language => NoEmptyWord language.keywords) Yul.declare := by
  have htable : ∀ t, Assembly.table keywords builtIns = .ok t → t.classify [] = none :=
    fun _ ht => Assembly.classify_nil_table (by decide) (by decide) ht
  refine (worded_lift htable).bind fun t ht => Literals.worded_declare.bind fun l _ => ?_
  refine (Assembly.worded_declare l ht).bind fun _ _ => ?_
  exact (worded_add noEmptyWord_none).bind fun _ _ => worded_pure (noEmptyWord_some ht)

/-! ### Solidity -/

namespace Solidity

theorem classify_nil_table (h : table = .ok t) : t.classify [] = none := by
  have hsized : ∀ w ∈ sizedTypes, w ≠ "" := by
    rintro w hw rfl
    obtain ⟨stem, hstem, hprefix⟩ := hasStem_sizedTypes _ hw
    have hstems : ∀ s ∈ stems, s.toList ≠ [] := by decide
    exact hstems stem hstem (List.prefix_nil.mp hprefix)
  have hkeywords : ∀ w ∈ keywords ++ sizedTypes, w ≠ "" := by
    have hplain : ∀ w ∈ keywords, w ≠ "" := by decide +kernel
    intro w hw
    exact (List.mem_append.mp hw).elim (hplain w) (hsized w)
  have hliterals : ∀ w ∈ literals, w ≠ "" := by decide
  have hbuiltIns : ∀ w ∈ builtIns, w ≠ "" := by decide
  rw [table_eq_compile] at h
  exact KeywordDecl.classify_nil_of_compile h
    ((((KeywordDecl.worded_empty.withLexeme lexeme).add hkeywords _).add hliterals _).add
      hbuiltIns _)

theorem classify_nil_tableOf {ks bs : List String} (hks : ∀ w ∈ ks, w ≠ "")
    (hbs : ∀ w ∈ bs, w ≠ "") (h : tableOf ks bs = .ok t) : t.classify [] = none :=
  KeywordDecl.classify_nil_of_compile h
    (((KeywordDecl.worded_empty.withLexeme lexeme).add hks _).add hbs _)

/-- A mode with a table of its own has the words that are listed for it. -/
theorem worded_withTable {table : Except GrammarError KeywordTable} {f : KeywordTable → ModeDecl}
    (htable : ∀ t, table = .ok t → t.classify [] = none) (hf : ∀ t, (f t).keywords = some t) :
    ∀ m, (do return f (← table) : Except GrammarError ModeDecl) = .ok m →
      NoEmptyWord m.keywords := by
  intro m hm
  obtain ⟨t, ht, hm⟩ := Builder.exists_of_bind_eq_ok hm
  cases hm
  rw [hf]
  exact noEmptyWord_some (htable t ht)

theorem words_declarationMode {words : List String} (hwords : ∀ w ∈ words, w ≠ "") :
    ∀ m, declarationMode words = .ok m → NoEmptyWord m.keywords :=
  worded_withTable (fun _ ht => classify_nil_tableOf hwords (by simp) ht) fun _ => rfl

theorem words_statementMode {words ks bs : List String} (hks : ∀ w ∈ ks, w ≠ "")
    (hbs : ∀ w ∈ bs, w ≠ "") :
    ∀ m, statementMode words ks bs = .ok m → NoEmptyWord m.keywords :=
  worded_withTable (fun _ ht => classify_nil_tableOf hks hbs ht) fun _ => rfl

theorem words_namespaceMode {name : String} {members : List String} {reserved : Nat}
    (hname : ∀ w ∈ name :: members, w ≠ "") :
    ∀ m, namespaceMode name members reserved = .ok m → NoEmptyWord m.keywords :=
  worded_withTable (fun _ ht => classify_nil_tableOf (by simp) hname ht) fun _ => rfl

theorem words_memberMode {opener : PatternDecl} {closer : String} {members : List String}
    (hmembers : ∀ w ∈ members, w ≠ "") :
    ∀ m, memberMode opener closer members = .ok m → NoEmptyWord m.keywords :=
  worded_withTable (fun _ ht => KeywordDecl.classify_nil_of_compile ht
    (KeywordDecl.worded_empty.add hmembers _)) fun _ => rfl

theorem worded_declareAssembly (l : Literals) :
    Construct.Worded (fun _ => True) (declareAssembly l) := by
  have htable : ∀ t, Assembly.table [] [] = .ok t → t.classify [] = none :=
    fun _ ht => Assembly.classify_nil_table (by decide) (by decide) ht
  refine (worded_lift htable).bind fun t ht => (Assembly.worded_declare l ht).bind fun _ _ => ?_
  refine worded_addMade (words_memberMode (by decide)) (fun _ => rfl) fun _ => ?_
  refine worded_addMade (words_memberMode (by decide)) (fun _ => rfl) fun _ => ?_
  refine worded_reserve.bind fun _ _ => (worded_define _ (noEmptyWord_some ht)).bind fun _ _ => ?_
  refine (worded_add (noEmptyWord_some ht)).bind fun _ _ => ?_
  refine (Literals.worded_directiveStrings l).bind fun _ _ => ?_
  exact (worded_lift (words_declarationMode (by decide))).bind fun _ hm => worded_add hm

/-- **No mode of Solidity has the empty word for a keyword**, and neither has the language. -/
theorem worded_declare :
    Construct.Worded (fun language => NoEmptyWord language.keywords) declare := by
  unfold declare
  refine (worded_lift fun _ ht => classify_nil_table ht).bind fun t ht => ?_
  refine Literals.worded_declare.bind fun l _ => ?_
  -- operators, parameters, members, titles and options
  refine (worded_add noEmptyWord_none).bind fun _ _ => ?_
  refine (worded_add (noEmptyWord_some ht)).bind fun _ _ => ?_
  refine worded_addMade (words_memberMode (by decide)) (fun _ => rfl) fun _ => ?_
  refine (worded_add (noEmptyWord_some ht)).bind fun _ _ => ?_
  refine (worded_add noEmptyWord_none).bind fun _ _ => ?_
  -- functions, namespaces, bases, types and records
  refine worded_addMade (words_declarationMode (by decide)) (fun _ => rfl) fun _ => ?_
  refine (worded_mapM fun n hn => ?_).bind fun _ _ => ?_
  · have hnames : ∀ n ∈ namespaces, ∀ w ∈ n.1 :: n.2, w ≠ "" := by decide
    exact (worded_lift (words_namespaceMode (hnames n hn))).bind fun _ hm => worded_add hm
  refine worded_addMade (words_declarationMode (by decide)) (fun _ => rfl) fun _ => ?_
  refine worded_addMade (words_declarationMode (by decide)) (fun _ => rfl) fun _ => ?_
  refine worded_addMade (words_declarationMode (by decide)) (fun _ => rfl) fun _ => ?_
  -- statements and assembly
  refine worded_addMade (words_statementMode (by decide) (by decide)) (fun _ => rfl) fun _ => ?_
  refine worded_addMade (words_statementMode (by decide) (by decide)) (fun _ => rfl) fun _ => ?_
  refine (Literals.worded_directiveStrings l).bind fun _ _ => ?_
  refine worded_addMade (words_statementMode (by decide) (by decide)) (fun _ => rfl) fun _ => ?_
  refine (worded_declareAssembly l).bind fun _ _ => worded_pure (noEmptyWord_some ht)

end Solidity

end Language

end Highlighting
