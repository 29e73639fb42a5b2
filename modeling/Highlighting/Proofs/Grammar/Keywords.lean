/-
  Highlighting/Proofs/Grammar/Keywords.lean
  =========================================
  **Keyword tables.**

  A table compiles when its lexeme does and no word is listed under two classes
  (`KeywordDecl.compile_eq`).  What it then has is named without being worked
  out (`KeywordDecl.words`): a long table takes long to be made, and most facts
  about a grammar do not hang on its words.

  Entries are taken in order.  As long as no word comes under a second class,
  the table has the words that were listed so far, each under its class
  (`KeywordDecl.Lists`), and neither the order of the entries nor how often one
  comes again makes a difference.  The first entry that gives a word a second
  class is the one that is reported (`KeywordDecl.Clashes`).
-/
import Mathlib.Data.Finset.Card
import Mathlib.Data.Finset.Dedup
import Highlighting.Grammar.Keywords

namespace Highlighting

/-! ### Tables that compile -/

namespace KeywordDecl

variable {d : KeywordDecl} {c : KeywordClass} {ws : List String}
  {entries : List (String × KeywordClass)} {table : WordMap KeywordClass}

/-- No word is listed under two classes. -/
def Agree (entries : List (String × KeywordClass)) : Prop :=
  ∀ e ∈ entries, ∀ e' ∈ entries, e.1 = e'.1 → e.2 = e'.2

theorem agree_add (h : Agree d.entries) (hnew : ∀ e ∈ d.entries, e.1 ∈ ws → e.2 = c) :
    Agree (d.add c ws).entries := by
  intro e he e' he' heq
  simp only [add, List.mem_append, List.mem_map] at he he'
  rcases he with he | ⟨w, hw, rfl⟩
  · rcases he' with he' | ⟨w', hw', rfl⟩
    · exact h e he e' he' heq
    · exact hnew e he (heq ▸ hw')
  · rcases he' with he' | ⟨w', hw', rfl⟩
    · exact (hnew e' he' (heq ▸ hw)).symm
    · rfl

/-- Words that are not listed so far may be added under any class. -/
theorem agree_add_apart (h : Agree d.entries) (hapart : ∀ w ∈ d.entries.map Prod.fst, w ∉ ws) :
    Agree (d.add c ws).entries :=
  agree_add h fun e he hmem => absurd hmem (hapart e.1 (List.mem_map_of_mem he))

/-- Entering words comes to an end, when they agree with each other and with the table. -/
theorem exists_enter (h : Agree entries)
    (htable : ∀ e ∈ entries, ∀ known, table.find? e.1.toList = some known → known = e.2) :
    ∃ table', enter entries table = .ok table' := by
  induction entries generalizing table with
  | nil => exact ⟨table, rfl⟩
  | cons e entries ih =>
    obtain ⟨w, c⟩ := e
    have hrest : Agree entries := fun e he e' he' =>
      h e (List.mem_cons_of_mem _ he) e' (List.mem_cons_of_mem _ he')
    rw [enter]
    split
    · next known hknown =>
      rw [if_pos (htable (w, c) List.mem_cons_self known hknown)]
      exact ih hrest fun e he => htable e (List.mem_cons_of_mem _ he)
    · refine ih hrest fun e he known hknown => ?_
      rw [WordMap.find?_insert] at hknown
      split at hknown
      · next heq =>
        obtain rfl := Option.some.inj hknown
        exact h (w, c) List.mem_cons_self e (List.mem_cons_of_mem _ he) (String.toList_inj.mp heq)
      · exact htable e (List.mem_cons_of_mem _ he) known hknown

/-- The words of a table that compiles. -/
def words (d : KeywordDecl) : WordMap KeywordClass :=
  match enter d.entries .nil with
  | .ok table => table
  | .error _ => .nil

/-- Nothing is in a table but what was entered. -/
theorem mem_of_find?_enter {table' : WordMap KeywordClass} {w : Word}
    (henter : enter entries table = .ok table') (h : table'.find? w = some c) :
    table.find? w = some c ∨ ∃ e ∈ entries, e.1.toList = w := by
  induction entries generalizing table with
  | nil =>
    obtain rfl : table = table' := Except.ok.inj henter
    exact .inl h
  | cons e entries ih =>
    obtain ⟨v, c'⟩ := e
    have hrest : ∀ {t : WordMap KeywordClass}, enter entries t = .ok table' →
        t.find? w = some c ∨ ∃ e ∈ (v, c') :: entries, e.1.toList = w := by
      intro t ht
      rcases ih ht with hfind | ⟨e, he, hw⟩
      · exact .inl hfind
      · exact .inr ⟨e, List.mem_cons_of_mem _ he, hw⟩
    rw [enter] at henter
    split at henter
    · split at henter
      · exact hrest henter
      · cases henter
    · rcases hrest henter with hfind | hmem
      · rw [WordMap.find?_insert] at hfind
        split at hfind
        · next heq => exact .inr ⟨_, List.mem_cons_self, heq⟩
        · exact .inl hfind
      · exact .inr hmem

/-- **The words of a table are among those listed.** -/
theorem mem_of_find?_words {w : Word} (h : d.words.find? w = some c) :
    ∃ e ∈ d.entries, e.1.toList = w := by
  rw [words] at h
  split at h
  · next table htable => exact (mem_of_find?_enter htable h).resolve_left nofun
  · cases h

/-- Once the lexeme is known, only the words are left to enter. -/
theorem compile_of_lexeme {r : Regex}
    (hlexeme : Regex.parse? (d.lexeme.getD usualLexeme).toList = some r) :
    d.compile = (enter d.entries .nil).map fun words => ⟨.ofRegex r, words⟩ := by
  unfold compile
  simp only [hlexeme]
  cases enter d.entries .nil <;> rfl

/-- **A table compiles when its lexeme does and no word is listed under two classes.** -/
theorem compile_eq {r : Regex} (hlexeme : Regex.parse? (d.lexeme.getD usualLexeme).toList = some r)
    (h : Agree d.entries) : d.compile = .ok ⟨.ofRegex r, d.words⟩ := by
  obtain ⟨table, htable⟩ : ∃ table, enter d.entries .nil = .ok table :=
    exists_enter h fun _ _ _ hknown => nomatch hknown
  rw [compile_of_lexeme hlexeme, words, htable]
  rfl

/-- **What a table is that has compiled**: it has the lexeme, and no words but those listed. -/
theorem exists_of_compile {t : KeywordTable} (h : d.compile = .ok t) :
    ∃ r, Regex.parse? (d.lexeme.getD usualLexeme).toList = some r ∧ t.lexeme = .ofRegex r ∧
      ∀ w c, t.words.find? w = some c → ∃ e ∈ d.entries, e.1.toList = w := by
  rw [compile] at h
  split at h
  · cases h
  · next r hparse =>
    cases henter : enter d.entries .nil with
    | error e =>
      rw [henter] at h
      cases h
    | ok words =>
      rw [henter] at h
      obtain rfl : ⟨.ofRegex r, words⟩ = t := Except.ok.inj h
      exact ⟨r, hparse, rfl, fun w c hw => (mem_of_find?_enter henter hw).resolve_left nofun⟩

end KeywordDecl

/-! ### The number of words -/

namespace WordMap

variable {α : Type}

@[simp] theorem size_single (value : α) (w : Word) : (single value w).size = 1 := by
  induction w with
  | nil => rfl
  | cons c w ih => simp [single, size, ih]

/-- A map grows by the words that it did not have. -/
theorem size_insert (value : α) (m : WordMap α) (w : Word) :
    (m.insert value w).size = if (m.find? w).isSome then m.size else m.size + 1 := by
  induction m generalizing w with
  | nil => simp [insert, find?, size]
  | stop old others ih =>
    cases w with
    | nil => simp [insert, find?, size]
    | cons c w =>
      simp only [insert, find?, size, ih]
      by_cases hfind : (others.find? (c :: w)).isSome <;> simp [hfind]
  | step letter longer others ihl iho =>
    cases w with
    | nil =>
      simp only [insert, find?, size, iho]
      by_cases hfind : (others.find? []).isSome <;> simp [hfind, Nat.add_assoc]
    | cons c w =>
      by_cases h : letter = c
      · simp only [insert, find?, size, h, if_true, ihl]
        by_cases hfind : (longer.find? w).isSome <;> simp [hfind, Nat.add_right_comm]
      · simp only [insert, find?, size, h, if_false, iho]
        by_cases hfind : (others.find? (c :: w)).isSome <;> simp [hfind, Nat.add_assoc]

end WordMap

namespace KeywordDecl

variable {d : KeywordDecl} {c c' first second : KeywordClass} {w word : String}
  {entries before after : List (String × KeywordClass)} {table : WordMap KeywordClass}

/-! ### Entries that agree -/

theorem Agree.of_append (h : Agree (before ++ after)) : Agree before := by
  intro e he e' he'
  exact h e (List.mem_append_left _ he) e' (List.mem_append_left _ he')

/-- The class that a word was listed under first is the only one. -/
theorem lookup_eq_some_iff (h : Agree entries) :
    entries.lookup w = some c ↔ (w, c) ∈ entries := by
  induction entries with
  | nil => simp
  | cons e entries ih =>
    obtain ⟨v, c'⟩ := e
    have hrest : Agree entries := fun e he e' he' =>
      h e (List.mem_cons_of_mem _ he) e' (List.mem_cons_of_mem _ he')
    rw [List.lookup_cons]
    by_cases hw : w = v
    · subst hw
      simp only [beq_self_eq_true, Option.some.injEq, List.mem_cons, Prod.mk.injEq, true_and]
      constructor
      · rintro rfl
        exact .inl rfl
      · rintro (rfl | hmem)
        · rfl
        · exact h (w, c') List.mem_cons_self (w, c) (List.mem_cons_of_mem _ hmem) rfl
    · rw [beq_eq_false_iff_ne.mpr hw]
      simp [hw, ih hrest]

/-- Entries with the same members agree alike. -/
theorem Agree.congr {entries' : List (String × KeywordClass)} (h : Agree entries)
    (hmem : ∀ e, e ∈ entries' ↔ e ∈ entries) : Agree entries' := by
  intro e he e' he'
  exact h e ((hmem e).mp he) e' ((hmem e').mp he')

/-! ### What a table has -/

/-- The table has the words of the entries, each under its class, and no others. -/
structure Lists (table : WordMap KeywordClass) (entries : List (String × KeywordClass)) : Prop where
  agree : Agree entries
  find? : ∀ w : String, table.find? w.toList = entries.lookup w
  size : table.size = (entries.map Prod.fst).toFinset.card

namespace Lists

theorem nil : Lists .nil [] := ⟨by simp [Agree], fun _ => rfl, rfl⟩

variable (h : Lists table before)
include h

theorem find?_eq_some_iff : table.find? w.toList = some c ↔ (w, c) ∈ before := by
  rw [h.find?, lookup_eq_some_iff h.agree]

theorem notMem_of_find? (hnone : table.find? w.toList = none) : w ∉ before.map Prod.fst := by
  intro hmem
  obtain ⟨⟨v, c⟩, he, rfl⟩ := List.mem_map.mp hmem
  rw [h.find?_eq_some_iff.mpr he] at hnone
  cases hnone

/-- A word that comes again under its class changes nothing. -/
theorem again (hfind : table.find? w.toList = some c) : Lists table (before ++ [(w, c)]) := by
  have hmem : (w, c) ∈ before := h.find?_eq_some_iff.mp hfind
  have hsame : ∀ e, e ∈ before ++ [(w, c)] ↔ e ∈ before := by
    intro e
    simp only [List.mem_append, List.mem_singleton, or_iff_left_iff_imp]
    rintro rfl
    exact hmem
  refine ⟨h.agree.congr hsame, fun v => ?_, ?_⟩
  · rw [List.lookup_append, h.find?]
    cases hv : before.lookup v with
    | some c' => rfl
    | none =>
      -- the word itself is listed
      have hne : v ≠ w := by
        rintro rfl
        rw [← h.find?, hfind] at hv
        cases hv
      simp [List.lookup_cons, beq_eq_false_iff_ne.mpr hne]
  · rw [h.size]
    congr 1
    ext v
    simp only [List.mem_toFinset, List.mem_map, hsame]

/-- A new word is added under its class. -/
theorem insert (hnone : table.find? w.toList = none) :
    Lists (table.insert c w.toList) (before ++ [(w, c)]) := by
  have hnew := h.notMem_of_find? hnone
  refine ⟨?_, fun v => ?_, ?_⟩
  · intro e he e' he' heq
    simp only [List.mem_append, List.mem_singleton] at he he'
    rcases he with he | rfl <;> rcases he' with he' | rfl
    · exact h.agree e he e' he' heq
    · exact absurd (List.mem_map.mpr ⟨e, he, heq⟩) hnew
    · exact absurd (List.mem_map.mpr ⟨e', he', heq.symm⟩) hnew
    · rfl
  · rw [WordMap.find?_insert, List.lookup_append, ← h.find?]
    by_cases hv : w = v
    · subst hv
      simp [hnone]
    · have hv' : ¬ w.toList = v.toList := fun heq => hv (String.toList_inj.mp heq)
      simp [hv', List.lookup_cons, beq_eq_false_iff_ne.mpr (Ne.symm hv)]
  · have hnot : w ∉ (before.map Prod.fst).toFinset := by simpa only [List.mem_toFinset] using hnew
    have hwords : ((before ++ [(w, c)]).map Prod.fst).toFinset =
        Insert.insert w (before.map Prod.fst).toFinset := by
      simp only [List.map_append, List.map_cons, List.map_nil, List.toFinset_append,
        List.toFinset_cons, List.toFinset_nil]
      exact Finset.union_comm _ _
    rw [WordMap.size_insert, hnone, h.size, hwords, Finset.card_insert_of_notMem hnot]
    rfl

end Lists

theorem enter_append (before after : List (String × KeywordClass))
    (table : WordMap KeywordClass) :
    enter (before ++ after) table = enter before table >>= enter after := by
  induction before generalizing table with
  | nil => rfl
  | cons e before ih =>
    obtain ⟨w, c⟩ := e
    rw [List.cons_append, enter, enter]
    cases table.find? w.toList with
    | none => exact ih _
    | some known =>
      dsimp only
      split
      · exact ih _
      · rfl

/-- **Entries that agree make a table of them.** -/
theorem exists_lists (h : Agree entries) : ∃ table, enter entries .nil = .ok table ∧
    Lists table entries := by
  -- entry by entry, so that the table lists those in front of the last
  induction entries using List.reverseRecOn with
  | nil => exact ⟨.nil, rfl, .nil⟩
  | append_singleton entries e ih =>
    obtain ⟨w, c⟩ := e
    obtain ⟨table, henter, hlists⟩ := ih h.of_append
    have hstep : enter (entries ++ [(w, c)]) .nil = enter [(w, c)] table := by
      rw [enter_append, henter]
      rfl
    rw [hstep, enter]
    cases hfind : table.find? w.toList with
    | none => exact ⟨_, rfl, hlists.insert hfind⟩
    | some known =>
      have hknown : (w, known) ∈ entries := hlists.find?_eq_some_iff.mp hfind
      obtain rfl : known = c := h (w, known) (List.mem_append_left _ hknown) (w, c) (by simp) rfl
      exact ⟨table, if_pos rfl, hlists.again hfind⟩

/-! ### Entries that clash -/

/-- The first entry that gives a word another class than the one it was listed under first. -/
def Clashes (entries : List (String × KeywordClass)) (word : String)
    (first second : KeywordClass) : Prop :=
  ∃ before after, entries = before ++ (word, second) :: after ∧ Agree before ∧
    before.lookup word = some first ∧ first ≠ second

theorem Clashes.append (h : Clashes before word first second)
    (after : List (String × KeywordClass)) : Clashes (before ++ after) word first second := by
  obtain ⟨front, rest, rfl, hagree, hfirst, hne⟩ := h
  exact ⟨front, rest ++ after, by simp, hagree, hfirst, hne⟩

theorem Clashes.not_agree (h : Clashes entries word first second) : ¬ Agree entries := by
  obtain ⟨before, after, rfl, hagree, hfirst, hne⟩ := h
  intro hall
  have hmem : (word, first) ∈ before := (lookup_eq_some_iff hagree).mp hfirst
  exact hne (hall (word, first) (List.mem_append_left _ hmem) (word, second) (by simp) rfl)

theorem exists_clashes (h : ¬ Agree entries) : ∃ word first second,
    Clashes entries word first second := by
  induction entries using List.reverseRecOn with
  | nil => exact absurd Lists.nil.agree h
  | append_singleton entries e ih =>
    by_cases hagree : Agree entries
    · -- then it is the last entry that clashes
      obtain ⟨w, c⟩ := e
      obtain ⟨table, -, hlists⟩ := exists_lists hagree
      cases hfind : table.find? w.toList with
      | none => exact absurd (hlists.insert hfind).agree h
      | some known =>
        have hne : known ≠ c := by
          rintro rfl
          exact h (hlists.again hfind).agree
        exact ⟨w, known, c, entries, [], rfl, hagree, by rw [← hlists.find?, hfind], hne⟩
    · obtain ⟨word, first, second, hclash⟩ := ih hagree
      exact ⟨word, first, second, hclash.append [e]⟩

/-- **The first clash is reported**, with both classes. -/
theorem enter_of_clashes (h : Clashes entries word first second) :
    enter entries .nil = .error (.overlappingKeyword word first second) := by
  obtain ⟨before, after, rfl, hagree, hfirst, hne⟩ := h
  obtain ⟨table, henter, hlists⟩ := exists_lists hagree
  have hstep : enter (before ++ (word, second) :: after) .nil =
      enter ((word, second) :: after) table := by
    rw [enter_append, henter]
    rfl
  rw [hstep, enter, hlists.find?, hfirst]
  exact if_neg hne

end KeywordDecl

/-! ### Tables -/

/-- Nothing tells the tables apart. -/
structure KeywordTable.Alike (t t' : KeywordTable) : Prop where
  lexeme : t.lexeme = t'.lexeme
  classify : ∀ w, t.classify w = t'.classify w
  size : t.size = t'.size

namespace KeywordDecl

variable {d : KeywordDecl} {r : Regex}

/-- A table that compiles has the lexeme and lists the words. -/
theorem exists_compile (hlexeme : Regex.parse? (d.lexeme.getD usualLexeme).toList = some r)
    (h : Agree d.entries) :
    ∃ words, d.compile = .ok ⟨.ofRegex r, words⟩ ∧ Lists words d.entries := by
  obtain ⟨words, henter, hlists⟩ := exists_lists h
  refine ⟨words, ?_, hlists⟩
  rw [compile_of_lexeme hlexeme, henter]
  rfl

theorem compile_of_clashes (hlexeme : Regex.parse? (d.lexeme.getD usualLexeme).toList = some r)
    {word : String} {first second : KeywordClass} (h : Clashes d.entries word first second) :
    d.compile = .error (.overlappingKeyword word first second) := by
  rw [compile_of_lexeme hlexeme, enter_of_clashes h]
  rfl

/-- Tables that list entries with the same members are alike. -/
theorem Lists.alike {entries entries' : List (String × KeywordClass)}
    {words words' : WordMap KeywordClass} {m : Matcher} (h : Lists words entries)
    (h' : Lists words' entries') (hmem : ∀ e, e ∈ entries' ↔ e ∈ entries) :
    KeywordTable.Alike ⟨m, words'⟩ ⟨m, words⟩ := by
  refine ⟨rfl, fun w => ?_, ?_⟩
  · apply Option.ext
    intro c
    have hword : w = (String.ofList w).toList := by simp
    show words'.find? w = some c ↔ words.find? w = some c
    rw [hword, h.find?_eq_some_iff, h'.find?_eq_some_iff, hmem]
  · show words'.size = words.size
    rw [h.size, h'.size]
    congr 1
    ext v
    simp only [List.mem_toFinset, List.mem_map, hmem]

/-- **A table compiles exactly if no word is listed under two classes.**  Then it has the words that
are listed, each under its class, and the same ones for the same entries in any order and number.
Otherwise the first entry is reported that gives a word another class than it has. -/
theorem words_have_one_class (d : KeywordDecl) {r : Regex}
    (hlexeme : Regex.parse? (d.lexeme.getD usualLexeme).toList = some r) :
    ((∃ t, d.compile = .ok t) ↔ Agree d.entries) ∧
    (∀ t, d.compile = .ok t → t.lexeme = .ofRegex r ∧
      (∀ (w : String) c, t.classify w.toList = some c ↔ (w, c) ∈ d.entries) ∧
      t.size = (d.entries.map Prod.fst).toFinset.card ∧
      ∀ d' : KeywordDecl, d'.lexeme = d.lexeme → (∀ e, e ∈ d'.entries ↔ e ∈ d.entries) →
        ∃ t', d'.compile = .ok t' ∧ t'.Alike t) ∧
    ∀ error, d.compile = .error error ↔ ∃ word first second,
      error = .overlappingKeyword word first second ∧ Clashes d.entries word first second := by
  by_cases h : Agree d.entries
  · obtain ⟨words, hcompile, hlists⟩ := exists_compile hlexeme h
    refine ⟨⟨fun _ => h, fun _ => ⟨_, hcompile⟩⟩, ?_, ?_⟩
    · intro t ht
      obtain rfl : ⟨.ofRegex r, words⟩ = t := Except.ok.inj (hcompile.symm.trans ht)
      refine ⟨rfl, fun w c => hlists.find?_eq_some_iff, hlists.size, ?_⟩
      intro d' hlexeme' hmem
      rw [← hlexeme'] at hlexeme
      obtain ⟨words', hcompile', hlists'⟩ := exists_compile hlexeme (h.congr hmem)
      exact ⟨_, hcompile', hlists.alike hlists' hmem⟩
    · intro error
      rw [hcompile]
      constructor
      · exact nofun
      · rintro ⟨word, first, second, -, hclash⟩
        exact absurd h hclash.not_agree
  · obtain ⟨word, first, second, hclash⟩ := exists_clashes h
    have herror := compile_of_clashes hlexeme hclash
    refine ⟨⟨?_, fun hagree => absurd hagree h⟩, ?_, ?_⟩
    · rintro ⟨t, ht⟩
      rw [herror] at ht
      cases ht
    · intro t ht
      rw [herror] at ht
      cases ht
    · intro error
      constructor
      · intro he
        rw [herror] at he
        exact ⟨word, first, second, (Except.error.inj he).symm, hclash⟩
      · rintro ⟨word', first', second', rfl, hclash'⟩
        exact compile_of_clashes hlexeme hclash'

/-- A word that is listed twice under its class, and one that is listed under two. -/
theorem words_of_types_have_one_class :
    (let d := ((empty.add .keyword ["int", "if"]).add .literal ["true"]).add .keyword ["int"]
     ∃ r t, Regex.parse? (d.lexeme.getD usualLexeme).toList = some r ∧ d.compile = .ok t ∧
       t.classify "int".toList = some .keyword ∧ t.size = 3) ∧
    (let d := ((empty.add .keyword ["byte", "int"]).add .builtIn ["gas", "int"]).add .literal
       ["byte"]
     ∃ r, Regex.parse? (d.lexeme.getD usualLexeme).toList = some r ∧
       d.compile = .error (.overlappingKeyword "int" .keyword .builtIn)) := by
  have hlexeme : (Regex.parse? usualLexeme.toList).isSome = true := by decide +kernel
  obtain ⟨r, hr⟩ := Option.isSome_iff_exists.mp hlexeme
  constructor
  · intro d
    obtain ⟨hcompiles, htable, -⟩ := words_have_one_class d hr
    have hagree : Agree d.entries := by
      simp [Agree, d, add, empty]
    obtain ⟨t, ht⟩ := hcompiles.mpr hagree
    obtain ⟨-, hclasses, hsize, -⟩ := htable t ht
    refine ⟨r, t, hr, ht, (hclasses "int" .keyword).mpr (by simp [d, add]), ?_⟩
    rw [hsize]
    decide
  · intro d
    obtain ⟨-, -, herror⟩ := words_have_one_class d hr
    refine ⟨r, hr, (herror _).mpr ⟨"int", .keyword, .builtIn, rfl,
      [("byte", .keyword), ("int", .keyword), ("gas", .builtIn)], [("byte", .literal)], rfl, ?_,
      rfl, by simp⟩⟩
    simp [Agree]

end KeywordDecl

end Highlighting
