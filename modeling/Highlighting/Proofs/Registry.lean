/-
  Highlighting/Proofs/Registry.lean
  =================================
  **What a registry holds**, after any sequence of registrations.

  Each name stands once, in the place of its first registration, and has the
  grammar that was registered last under it (`names_registered`,
  `mem_registered`).  A grammar that takes the place of another brings its own
  aliases, and aliases may collide with each other and with names.  So what a
  look-up finds is said in terms of the registry as it is then: a name comes
  ahead of all aliases, and of these the first one in the registry counts
  (`registered_languages_are_found`).
-/
import Mathlib.Data.List.Find
import Mathlib.Data.List.Induction
import Mathlib.Data.List.Nodup
import Highlighting.Registry

namespace Highlighting.Registry

variable {g h : Grammar} {l : List Grammar} {name : String}

/-- The names in a list of grammars. -/
def names (l : List Grammar) : List String := l.map (·.name)

/-- The last grammar of the name. -/
def lastNamed? (l : List Grammar) (name : String) : Option Grammar :=
  (l.filter (·.name == name)).getLast?

/-- What becomes of an empty registry with these options, when grammars are registered in turn. -/
def registered (options : Scan.Options) (gs : List Grammar) : Registry :=
  gs.foldl register ⟨[], options⟩

/-! ### One registration -/

/-- **A name keeps its place**; a new one comes last. -/
theorem names_place (g : Grammar) (l : List Grammar) :
    names (place g l) = if g.name ∈ names l then names l else names l ++ [g.name] := by
  induction l with
  | nil => rfl
  | cons other rest ih =>
    rw [place]
    by_cases heq : other.name = g.name
    · have hmem : g.name ∈ names (other :: rest) := List.mem_map.mpr ⟨other, by simp, heq⟩
      rw [if_pos heq, if_pos hmem, names, names, List.map_cons, List.map_cons, heq]
    · have hcons : g.name ∈ names (other :: rest) ↔ g.name ∈ names rest := by
        rw [names, List.map_cons, List.mem_cons]
        exact ⟨fun hmem => hmem.resolve_left (Ne.symm heq), .inr⟩
      rw [if_neg heq]
      show other.name :: names (place g rest) = _
      rw [ih]
      simp only [hcons]
      split <;> rfl

theorem nodup_names_place (hl : (names l).Nodup) (g : Grammar) : (names (place g l)).Nodup := by
  rw [names_place]
  split
  · exact hl
  · next hnot =>
    refine List.nodup_append.mpr ⟨hl, List.nodup_singleton _, ?_⟩
    intro name hname other hother heq
    rw [List.mem_singleton.mp hother] at heq
    exact hnot (heq ▸ hname)

/-- **The one grammar is in, and those of other names stay.** -/
theorem mem_place (hl : (names l).Nodup) :
    h ∈ place g l ↔ h = g ∨ h ∈ l ∧ h.name ≠ g.name := by
  induction l with
  | nil => simp [place]
  | cons other rest ih =>
    obtain ⟨hnot, hrest⟩ := List.nodup_cons.mp (show (other.name :: names rest).Nodup from hl)
    rw [place]
    by_cases heq : other.name = g.name
    · -- no other grammar in the list has the name
      have hothers : ∀ k ∈ rest, k.name ≠ g.name := by
        intro k hk hname
        exact hnot (List.mem_map.mpr ⟨k, hk, hname.trans heq.symm⟩)
      rw [if_pos heq, List.mem_cons, List.mem_cons]
      constructor
      · rintro (rfl | hmem)
        · exact .inl rfl
        · exact .inr ⟨.inr hmem, hothers h hmem⟩
      · rintro (rfl | ⟨rfl | hmem, hne⟩)
        · exact .inl rfl
        · exact absurd heq hne
        · exact .inr hmem
    · rw [if_neg heq, List.mem_cons, List.mem_cons, ih hrest]
      constructor
      · rintro (rfl | rfl | ⟨hmem, hne⟩)
        · exact .inr ⟨.inl rfl, heq⟩
        · exact .inl rfl
        · exact .inr ⟨.inr hmem, hne⟩
      · rintro (rfl | ⟨rfl | hmem, hne⟩)
        · exact .inr (.inl rfl)
        · exact .inl rfl
        · exact .inr (.inr ⟨hmem, hne⟩)

/-- A grammar takes the place of the one of its name. -/
theorem place_eq_of_name {before after : List Grammar} (hl : (names (before ++ h :: after)).Nodup)
    (hname : h.name = g.name) : place g (before ++ h :: after) = before ++ g :: after := by
  induction before with
  | nil => rw [List.nil_append, place, if_pos hname, List.nil_append]
  | cons other before ih =>
    obtain ⟨hnot, hrest⟩ := List.nodup_cons.mp
      (show (other.name :: names (before ++ h :: after)).Nodup from hl)
    have hne : other.name ≠ g.name := by
      intro heq
      exact hnot (List.mem_map.mpr ⟨h, by simp, hname.trans heq.symm⟩)
    rw [List.cons_append, place, if_neg hne, ih hrest, List.cons_append]

/-! ### Any number of registrations -/

variable {options : Scan.Options} {gs : List Grammar}

theorem registered_append (options : Scan.Options) (gs : List Grammar) (g : Grammar) :
    registered options (gs ++ [g]) = (registered options gs).register g := by
  rw [registered, List.foldl_append]
  rfl

theorem options_registered (options : Scan.Options) (gs : List Grammar) :
    (registered options gs).options = options := by
  induction gs using List.reverseRecOn with
  | nil => rfl
  | append_singleton gs g ih =>
    rw [registered_append]
    exact ih

theorem nodup_names_registered (options : Scan.Options) (gs : List Grammar) :
    (names (registered options gs).grammars).Nodup := by
  induction gs using List.reverseRecOn with
  | nil => exact .nil
  | append_singleton gs g ih =>
    rw [registered_append]
    exact nodup_names_place ih g

/-- Languages that are registered leave the options as they are. -/
theorem options_of_registerAll {r r' : Registry}
    {definitions : List (String × (Lookbehind → Except GrammarError Grammar))}
    (h : registerAll definitions r = .ok r') : r'.options = r.options := by
  induction definitions generalizing r with
  | nil =>
    obtain rfl := Except.ok.inj h
    rfl
  | cons definition rest ih =>
    rw [registerAll] at h
    split at h
    · have hrest := ih h
      exact hrest
    · cases h

/-- **Names are in the order in which they were first registered.** -/
theorem names_registered (options : Scan.Options) (gs : List Grammar) :
    names (registered options gs).grammars = (names gs).eraseDups := by
  induction gs using List.reverseRecOn with
  | nil => rfl
  | append_singleton gs g ih =>
    have hnames : names (gs ++ [g]) = names gs ++ [g.name] := List.map_append
    rw [registered_append, register, names_place, ih, hnames, List.eraseDups_append]
    simp only [List.mem_eraseDups, List.removeAll]
    by_cases hmem : g.name ∈ names gs
    · rw [if_pos hmem, List.filter_cons_of_neg (by simpa using hmem)]
      exact (List.append_nil _).symm
    · rw [if_neg hmem, List.filter_cons_of_pos (by simpa using hmem)]
      rfl

theorem lastNamed?_append (gs : List Grammar) (g : Grammar) (name : String) :
    lastNamed? (gs ++ [g]) name = if g.name = name then some g else lastNamed? gs name := by
  rw [lastNamed?, List.filter_append]
  by_cases heq : g.name = name
  · rw [if_pos heq, List.filter_cons_of_pos (by simpa using heq), List.filter_nil,
      List.getLast?_concat]
  · rw [if_neg heq, List.filter_cons_of_neg (by simpa using heq), List.filter_nil,
      List.append_nil]
    rfl

theorem name_of_lastNamed? (h : lastNamed? gs name = some g) : g.name = name := by
  have hmem := (List.mem_filter.mp (List.mem_of_getLast? h)).2
  exact eq_of_beq hmem

/-- **A grammar is in when it is the last one that was registered under its name.** -/
theorem mem_registered :
    g ∈ (registered options gs).grammars ↔ lastNamed? gs g.name = some g := by
  induction gs using List.reverseRecOn with
  | nil => simp [registered, lastNamed?]
  | append_singleton gs k ih =>
    rw [registered_append, register, mem_place (nodup_names_registered options gs),
      lastNamed?_append, ih]
    by_cases heq : k.name = g.name
    · rw [if_pos heq]
      constructor
      · rintro (rfl | ⟨-, hne⟩)
        · rfl
        · exact absurd heq.symm hne
      · intro hlast
        exact .inl (Option.some.inj hlast).symm
    · rw [if_neg heq]
      constructor
      · rintro (rfl | ⟨hlast, -⟩)
        · exact absurd rfl heq
        · exact hlast
      · intro hlast
        exact .inr ⟨hlast, Ne.symm heq⟩

/-- Looked up by name alone, the grammar is the last one that was registered under it. -/
theorem find?_name_registered (options : Scan.Options) (gs : List Grammar) (name : String) :
    (registered options gs).grammars.find? (·.name == name) = lastNamed? gs name := by
  cases hlast : lastNamed? gs name with
  | some g =>
    have hname := name_of_lastNamed? hlast
    have hmem : g ∈ (registered options gs).grammars := mem_registered.mpr (by rw [hname, hlast])
    obtain ⟨k, hk⟩ : ∃ k, (registered options gs).grammars.find? (·.name == name) = some k :=
      Option.isSome_iff_exists.mp
        (List.find?_isSome.mpr ⟨g, hmem, by simpa using hname⟩)
    -- it is found under its own name, which only the last one has
    have hkname : k.name = name := eq_of_beq (List.find?_some hk :)
    have hkmem := mem_registered.mp (List.mem_of_find?_eq_some hk)
    rw [hkname, hlast] at hkmem
    rw [hk, hkmem]
  | none =>
    refine List.find?_eq_none.mpr fun k hk hname => ?_
    have hkmem := mem_registered.mp hk
    rw [eq_of_beq hname, hlast] at hkmem
    cases hkmem

/-- Where no grammar has the name, only aliases answer to it. -/
theorem find?_answersTo_of_not_named (h : lastNamed? gs name = none) :
    (registered options gs).grammars.find? (·.answersTo name) =
      (registered options gs).grammars.find? (fun g => decide (name ∈ g.aliases)) := by
  refine List.find?_congr fun g hg => ?_
  have hne : g.name ≠ name := by
    rintro rfl
    rw [mem_registered.mp hg] at h
    cases h
  rw [Grammar.answersTo, beq_false_of_ne hne, Bool.false_or, List.contains_eq_mem]

/-- What a look-up finds in a registry. -/
theorem language?_registered (options : Scan.Options) (gs : List Grammar) (name : String) :
    (registered options gs).language? name =
      match lastNamed? gs name with
      | some g => some g
      | none => (registered options gs).grammars.find? fun g => decide (name ∈ g.aliases) := by
  rw [language?, find?_name_registered]
  cases hlast : lastNamed? gs name with
  | some g => rfl
  | none => exact find?_answersTo_of_not_named hlast

/-- **Whatever was registered, each name stands once, in the order of first registrations, with the
grammar registered last under it.**  A look-up finds the grammar of the name, if there is one, or
else the first one with that alias; a text is highlighted with what is found, and where nothing is,
the language is unknown. -/
theorem registered_languages_are_found (options : Scan.Options) (gs : List Grammar) :
    let r := registered options gs
    (names r.grammars).Nodup ∧ names r.grammars = (names gs).eraseDups ∧
      (∀ g, g ∈ r.grammars ↔ lastNamed? gs g.name = some g) ∧
      ∀ name,
        (r.language? name =
          match lastNamed? gs name with
          | some g => some g
          | none => r.grammars.find? fun g => decide (name ∈ g.aliases)) ∧
        (∀ text, r.highlight text name =
          match r.language? name with
          | some g => .ok (g.highlight text options)
          | none => .error (.unknownLanguage name)) ∧
        ∀ text, r.highlight text name = .error (.unknownLanguage name) ↔
          lastNamed? gs name = none ∧ ∀ g ∈ r.grammars, name ∉ g.aliases := by
  intro r
  have hhighlight : ∀ text name, r.highlight text name =
      match r.language? name with
      | some g => .ok (g.highlight text options)
      | none => .error (.unknownLanguage name) := by
    intro text name
    rw [highlight]
    cases r.language? name with
    | none => rfl
    | some g => rw [show r.options = options from options_registered options gs]
  refine ⟨nodup_names_registered options gs, names_registered options gs,
    fun g => mem_registered, fun name => ⟨language?_registered options gs name,
      fun text => hhighlight text name, fun text => ?_⟩⟩
  have hunknown : r.language? name = none ↔
      lastNamed? gs name = none ∧ ∀ g ∈ r.grammars, name ∉ g.aliases := by
    rw [language?_registered]
    cases lastNamed? gs name with
    | some g => simp
    | none => simp [r]
  rw [← hunknown, hhighlight]
  cases r.language? name with
  | some g => simp
  | none => simp

/-- A grammar that is registered again keeps its place and brings new aliases; an alias that is the
name of another grammar is never looked at. -/
example :
    let named := fun (name : String) (aliases : List String) =>
      (⟨name, aliases, #[], ⟨none, none, []⟩, #[]⟩ : Grammar)
    let r := registered ⟨false⟩ [named "a" ["x"], named "b" ["a", "x"], named "a" ["y"]]
    names r.grammars = ["a", "b"] ∧ (r.language? "x").map (·.name) = some "b" ∧
      (r.language? "a").map (·.aliases) = some ["y"] ∧ (r.language? "z").isNone := by
  decide

end Highlighting.Registry
