/-
  Highlighting/Proofs/Config/Settings.lean
  ========================================
  **Settings are what is found in the entries.**

  Where the tables of all settings are there and what is found for a setting has
  its type, settings can be read, and each has the value found for it
  (`Settings.exists_ofEntries`).  The colours come in the order of their names.
-/
import Highlighting.Config.Settings
import Highlighting.Proofs.Config.Layers

namespace Highlighting.Config.Settings

/-- The value of a setting. -/
def value? (s : Settings) : Setting → Option Value
  | .language => some (.string s.language)
  | .ignoreIllegals => some (.boolean s.ignoreIllegals)
  | .format => some (.string s.format)
  | .classPrefix => some (.string s.classPrefix)
  | .color scope => (s.theme.lookup scope).map .string

/-! ### Colours in order -/

/-- Whether colours stand in the order of their names, no name twice. -/
def AreOrdered (theme : List (String × String)) : Prop := theme.Pairwise fun p q => p.1 < q.1

section Ordered

variable {p : String × String} {theme : List (String × String)}

theorem mem_enterSorted {q : String × String} : q ∈ enterSorted p theme ↔ q = p ∨ q ∈ theme := by
  induction theme with
  | nil => simp [enterSorted]
  | cons r theme ih =>
    rw [enterSorted]
    split
    · exact List.mem_cons
    · rw [List.mem_cons, ih, List.mem_cons]
      exact or_left_comm

theorem AreOrdered.enterSorted (h : AreOrdered theme) (hp : ∀ q ∈ theme, q.1 ≠ p.1) :
    AreOrdered (enterSorted p theme) := by
  induction theme with
  | nil => exact List.pairwise_singleton _ _
  | cons r theme ih =>
    obtain ⟨hr, htheme⟩ := List.pairwise_cons.mp h
    rw [Settings.enterSorted]
    split
    · next hlt =>
      refine List.pairwise_cons.mpr ⟨fun q hq => ?_, h⟩
      rcases List.mem_cons.mp hq with rfl | hq
      · exact hlt
      · exact String.lt_trans hlt (hr q hq)
    · next hnot =>
      have hlt : r.1 < p.1 := by
        refine String.not_le.mp fun hle => ?_
        exact hp r List.mem_cons_self (String.le_antisymm (String.not_lt.mp hnot) hle)
      refine List.pairwise_cons.mpr
        ⟨fun q hq => ?_, ih htheme fun q hq => hp q (List.mem_cons_of_mem r hq)⟩
      rcases mem_enterSorted.mp hq with rfl | hq
      · exact hlt
      · exact hr q hq

theorem lookup_enterSorted (hp : ∀ q ∈ theme, q.1 ≠ p.1) (name : String) :
    (enterSorted p theme).lookup name = if name = p.1 then some p.2 else theme.lookup name := by
  induction theme with
  | nil => exact Entries.lookup_cons_eq p.1 p.2 [] name
  | cons r theme ih =>
    rw [enterSorted]
    split
    · exact Entries.lookup_cons_eq p.1 p.2 (r :: theme) name
    · have hr : r.1 ≠ p.1 := hp r List.mem_cons_self
      rw [Entries.lookup_cons_eq r.1 r.2, Entries.lookup_cons_eq r.1 r.2,
        ih fun q hq => hp q (List.mem_cons_of_mem r hq)]
      by_cases hname : name = r.1
      · simp [hname, hr]
      · simp [hname]

end Ordered

/-- **The colours of a theme** are read one by one, and put in order. -/
theorem exists_themeOf : ∀ colors : Entries, colors.AreDistinct →
    (∀ e ∈ colors, ∃ s, e.2 = .string s) →
    ∃ theme, themeOf colors = .ok theme ∧ AreOrdered theme ∧
      ∀ name, (theme.lookup name).map Value.string = colors.lookup name
  | [], _, _ => ⟨[], rfl, List.Pairwise.nil, fun _ => rfl⟩
  | (name, v) :: rest, hdistinct, hstrings => by
    obtain ⟨hnot, hrest⟩ := List.nodup_cons.mp hdistinct
    obtain ⟨theme, hread, hordered, hlookup⟩ :=
      exists_themeOf rest hrest fun e he => hstrings e (List.mem_cons_of_mem _ he)
    obtain ⟨color, rfl : v = .string color⟩ := hstrings _ List.mem_cons_self
    -- a name in front does not come again behind it
    have hapart : ∀ q ∈ theme, q.1 ≠ name := by
      rintro q hq rfl
      have hsome : (theme.lookup q.1).isSome := List.lookup_isSome_iff.mpr ⟨q, hq, by simp⟩
      have hfound : (List.lookup q.1 rest).isSome := by
        rw [← hlookup, Option.isSome_map]
        exact hsome
      obtain ⟨e, he, heq⟩ := List.lookup_isSome_iff.mp hfound
      exact hnot (List.mem_map.mpr ⟨e, he, (beq_iff_eq.mp heq).symm⟩)
    refine ⟨enterSorted (name, color) theme, ?_, hordered.enterSorted hapart, fun other => ?_⟩
    · rw [themeOf, hread]
      rfl
    · rw [lookup_enterSorted hapart, Entries.lookup_cons_eq, ← hlookup]
      split <;> rfl

/-! ### Reading settings -/

/-- **Settings are read where all values have their types**, and have the values found. -/
theorem exists_ofEntries {es : Entries} (hes : es.HasGroups)
    (haccepts : ∀ k v, es.at? k = some v → k.accepts v)
    (hsome : ∀ k, (∀ scope, k ≠ .color scope) → (es.at? k).isSome) :
    ∃ s, ofEntries es = .ok s ∧ AreOrdered s.theme ∧ ∀ k, s.value? k = es.at? k := by
  have hstring : ∀ k, (∀ scope, k ≠ .color scope) → k ≠ .ignoreIllegals →
      ∃ s, es.at? k = some (.string s) := by
    intro k hcolor hk
    obtain ⟨v, hv⟩ := Option.isSome_iff_exists.mp (hsome k hcolor)
    obtain ⟨s, rfl⟩ := Setting.exists_string (haccepts k v hv) hk
    exact ⟨s, hv⟩
  obtain ⟨language, hlanguage⟩ := hstring .language (by simp) (by simp)
  obtain ⟨format, hformat⟩ := hstring .format (by simp) (by simp)
  obtain ⟨classPrefix, hclassPrefix⟩ := hstring .classPrefix (by simp) (by simp)
  obtain ⟨ignoreIllegals, hignoreIllegals⟩ : ∃ b, es.at? .ignoreIllegals = some (.boolean b) := by
    obtain ⟨v, hv⟩ := Option.isSome_iff_exists.mp (hsome .ignoreIllegals (by simp))
    obtain ⟨b, rfl⟩ := Setting.exists_boolean (haccepts _ v hv)
    exact ⟨b, hv⟩
  obtain ⟨highlight, hhighlight, -⟩ := hes .language
  obtain ⟨output, houtput, -⟩ := hes .format
  obtain ⟨colors, hcolors, hdistinct⟩ := hes (.color "")
  have hcolor : ∀ scope, es.at? (.color scope) = colors.lookup scope := fun scope =>
    Entries.at?_of_lookup (k := .color scope) hcolors
  have hstrings : ∀ e ∈ colors, ∃ s, e.2 = .string s := by
    intro e he
    have hfound : es.at? (.color e.1) = some e.2 := (hcolor e.1).trans (hdistinct.lookup_of_mem he)
    exact Setting.exists_string (haccepts _ _ hfound) (by simp)
  obtain ⟨theme, htheme, hordered, hlookup⟩ := exists_themeOf colors hdistinct hstrings
  refine ⟨⟨language, ignoreIllegals, format, classPrefix, theme⟩, ?_, hordered, fun k => ?_⟩
  · have hlanguage' : highlight.lookup "language" = some (.string language) :=
      (Entries.at?_of_lookup (k := .language) hhighlight).symm.trans hlanguage
    have hignoreIllegals' : highlight.lookup "ignore_illegals" = some (.boolean ignoreIllegals) :=
      (Entries.at?_of_lookup (k := .ignoreIllegals) hhighlight).symm.trans hignoreIllegals
    have hformat' : output.lookup "format" = some (.string format) :=
      (Entries.at?_of_lookup (k := .format) houtput).symm.trans hformat
    have hclassPrefix' : output.lookup "class_prefix" = some (.string classPrefix) :=
      (Entries.at?_of_lookup (k := .classPrefix) houtput).symm.trans hclassPrefix
    have hgroups : es.lookup "highlight" = some (.table highlight) ∧
        es.lookup "output" = some (.table output) ∧ es.lookup "theme" = some (.table colors) :=
      ⟨hhighlight, houtput, hcolors⟩
    simp only [ofEntries, hgroups, pairOf, hlanguage', hignoreIllegals', hformat', hclassPrefix',
      textOf, booleanOf, htheme]
    rfl
  · cases k with
    | color scope => exact (hlookup scope).trans (hcolor scope).symm
    | language => exact hlanguage.symm
    | ignoreIllegals => exact hignoreIllegals.symm
    | format => exact hformat.symm
    | classPrefix => exact hclassPrefix.symm

/-! ### Settings of layers -/

/-- **Layers of proper documents have settings**, and each of these has the value assigned last:
by the defaults, the files in order, or the overrides. -/
theorem exists_ofLayers {l : Layers} {docs : List Entries}
    (hdocs : Layers.HasDocuments l.files docs)
    (hproper : ∀ doc ∈ docs, ∀ a ∈ doc.assignments, a.IsProper)
    (hoverrides : ∀ a ∈ l.overridden, a.IsProper) :
    ∃ s, ofLayers l = .ok s ∧ AreOrdered s.theme ∧ ∀ k, s.value? k = given?
      (Layers.defaults.assignments ++ docs.flatMap Entries.assignments ++ l.overridden) k := by
  obtain ⟨es, hentries, hgroups, hat⟩ := Layers.at?_entries hdocs hproper hoverrides
  have haccepts : ∀ k v, es.at? k = some v → k.accepts v := by
    intro k v hv
    rw [hat] at hv
    refine accepts_of_given? (fun a ha => ?_) hv
    rcases List.mem_append.mp ha with ha | ha
    · rcases List.mem_append.mp ha with ha | ha
      · exact Layers.isProper_defaults a ha
      · obtain ⟨doc, hdoc, ha⟩ := List.mem_flatMap.mp ha
        exact hproper doc hdoc a ha
    · exact hoverrides a ha
  have hsome : ∀ k, (∀ scope, k ≠ .color scope) → (es.at? k).isSome := by
    intro k hk
    have hdefault : (given? Layers.defaults.assignments k).isSome := by
      cases k with
      | color scope => exact absurd rfl (hk scope)
      | _ => rfl
    rw [hat, given?_append, given?_append]
    simp [hdefault]
  obtain ⟨s, hs, hordered, hvalue⟩ := exists_ofEntries hgroups haccepts hsome
  refine ⟨s, ?_, hordered, fun k => (hvalue k).trans (hat k)⟩
  rw [ofLayers, hentries]
  exact hs

end Highlighting.Config.Settings
