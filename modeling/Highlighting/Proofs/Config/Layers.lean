/-
  Highlighting/Proofs/Config/Layers.lean
  ======================================
  **Settings are layered key by key.**

  Writing a proper value into a table changes the settings that it assigns, and
  no other (`at?_write`): a table that is written joins the one that is there,
  entry by entry.  So after any number of writes a setting has the value that was
  assigned to it last (`at?_writeAll`), be it by a document, by a later one, or
  by a single override, and it keeps the one from the start if none was.
-/
import Mathlib.Data.List.Nodup
import Highlighting.Proofs.Config.Assignments

namespace Highlighting.Config

/-! ### Entries -/

namespace Entries

theorem lookup_cons_eq {β : Type} (k : String) (v : β) (es : List (String × β)) (other : String) :
    ((k, v) :: es).lookup other = if other = k then some v else es.lookup other := by
  by_cases h : other = k
  · rw [if_pos h, h, List.lookup_cons_self]
  · have hne : (other == k) = false := beq_eq_false_iff_ne.mpr h
    rw [if_neg h, List.lookup_cons, hne]

theorem lookup_set (key : String) (v : Value) (es : Entries) (other : String) :
    (es.set key v).lookup other = if other = key then some v else es.lookup other := by
  induction es with
  | nil => exact lookup_cons_eq key v [] other
  | cons e es ih =>
    obtain ⟨k, old⟩ := e
    rw [set]
    by_cases hk : k = key
    · rw [if_pos hk, lookup_cons_eq, lookup_cons_eq, hk]
      by_cases hother : other = key <;> simp [hother]
    · rw [if_neg hk, lookup_cons_eq, lookup_cons_eq, ih]
      by_cases hother : other = k
      · simp [hother, hk]
      · simp [hother]

/-- Whether no key occurs twice. -/
def AreDistinct (es : Entries) : Prop := (es.map Prod.fst).Nodup

theorem mem_keys_set {key other : String} {v : Value} {es : Entries}
    (h : other ∈ (es.set key v).map Prod.fst) : other = key ∨ other ∈ es.map Prod.fst := by
  induction es with
  | nil => exact .inl (by simpa [set] using h)
  | cons e es ih =>
    obtain ⟨k, old⟩ := e
    rw [set] at h
    split at h
    · exact .inr h
    · rw [List.map_cons, List.mem_cons] at h ⊢
      rcases h with h | h
      · exact .inr (.inl h)
      · exact (ih h).imp_right .inr

theorem AreDistinct.set {es : Entries} (h : es.AreDistinct) (key : String) (v : Value) :
    (es.set key v).AreDistinct := by
  induction es with
  | nil => simp [AreDistinct, Entries.set]
  | cons e es ih =>
    obtain ⟨k, old⟩ := e
    obtain ⟨hnot, hes⟩ := List.nodup_cons.mp h
    rw [Entries.set]
    split
    · exact h
    · next hk =>
      refine List.nodup_cons.mpr ⟨fun hmem => ?_, ih hes⟩
      exact (mem_keys_set hmem).elim hk hnot

theorem AreDistinct.lookup_of_mem {es : Entries} (h : es.AreDistinct) {e : String × Value}
    (he : e ∈ es) : es.lookup e.1 = some e.2 := by
  induction es with
  | nil => cases he
  | cons d es ih =>
    obtain ⟨hnot, hes⟩ := List.nodup_cons.mp h
    rw [lookup_cons_eq d.1 d.2]
    rcases List.mem_cons.mp he with rfl | he
    · rw [if_pos rfl]
    · have hne : e.1 ≠ d.1 := fun heq => hnot (heq ▸ List.mem_map_of_mem he)
      rw [if_neg hne, ih hes he]

/-- The value found for a setting. -/
def at? (es : Entries) (k : Setting) : Option Value :=
  (es.lookup k.group).bind fun v => v.entries.lookup k.name

/-- Whether the tables of all settings are there, with no key twice. -/
def HasGroups (es : Entries) : Prop :=
  ∀ k : Setting, ∃ t : Entries, es.lookup k.group = some (.table t) ∧ t.AreDistinct

theorem at?_of_lookup {es t : Entries} {k : Setting} (h : es.lookup k.group = some (.table t)) :
    es.at? k = t.lookup k.name := by
  rw [at?, h]
  rfl

end Entries

/-! ### Writing a value -/

/-- What stands at a key after a value was entered there: a table joins the one that is there,
any other value replaces it. -/
def Value.entered : Value → Option Value → Value
  | .table incoming, old => joinAll incoming (old.getD (.table []))
  | v, _ => v

theorem Value.enter_eq (v : Value) (name : String) (es : Entries) :
    v.enter name es =
      es.set (Casing.lower name) (v.entered (es.lookup (Casing.lower name))) := by
  cases v <;> rw [Value.enter] <;> simp [Value.entered]

/-- What stands at the first key of a path after a value was written to the path. -/
def KeyPath.entered (p : KeyPath) (v : Value) (old : Option Value) : Value :=
  if p.rest.isEmpty then v.entered old else v.write p.rest (old.getD .nil)

theorem KeyPath.write_eq (p : KeyPath) (v : Value) (es : Entries) :
    p.write v es =
      es.set (Casing.lower p.first) (p.entered v (es.lookup (Casing.lower p.first))) := by
  rw [KeyPath.write, KeyPath.entered]
  split
  · exact v.enter_eq p.first es
  · rw [Value.write]
    rfl

section Write

variable {k : Setting} {v : Value} {first name : String} {rest : List Step}

/-- What is properly assigned at a path that a setting does not depend on is not assigned to the
setting. -/
theorem given?_eq_none_of_apart {path : List Step}
    (hproper : ∀ a ∈ v.assignments path, a.IsProper)
    (hapart : overlaps path [k.group, k.name] = false) : given? (v.assignments path) k = none := by
  refine given?_eq_none fun a ha hpath => ?_
  obtain ⟨more, hmore⟩ := prefix_of_mem_assignments v path a ha
  have hconcerns : overlaps (path ++ more) [k.group, k.name] = true := by
    rw [hmore]
    exact (hproper a ha).concerns_of_path hpath
  rw [overlaps_of_append hconcerns] at hapart
  cases hapart

/-- What is properly assigned at or below the path of a setting is one value of its type, and it
is assigned to the setting. -/
theorem assigned_to_setting
    (hproper : ∀ a ∈ v.assignments (.child first :: .child name :: rest), a.IsProper)
    (hgroup : Casing.lower first = k.group) (hname : Casing.lower name = k.name) :
    rest = [] ∧ k.accepts v ∧
      given? (v.assignments (.child first :: .child name :: rest)) k = some v := by
  have hown : ∀ a ∈ v.assignments (.child first :: .child name :: rest),
      a.path = k.path ∧ k.accepts a.value := by
    intro a ha
    obtain ⟨more, hmore⟩ := prefix_of_mem_assignments v _ a ha
    have hconcerns : a.concerns k := by
      simp [Assignment.concerns, ← hmore, overlaps, hgroup, hname]
    rcases hproper a ha k hconcerns with hown | ⟨⟨other, heq⟩, -⟩
    · exact hown
    · simp [← hmore] at heq
  have hscalar : ∀ es, v ≠ .table es := by
    rintro es rfl
    obtain ⟨a, ha⟩ := List.exists_mem_of_ne_nil _ (assignments_ne_nil (.table es) _)
    obtain ⟨hpath, haccepts⟩ := hown a ha
    rw [Value.assignments] at ha
    split at ha
    · rw [List.mem_singleton.mp ha, Setting.not_accepts_table] at haccepts
      cases haccepts
    · -- what stands in a table lies further down than the setting
      have hlength := (prefix_of_mem_assignmentsIn es _ a ha).2
      rw [hpath] at hlength
      simp only [Setting.path, List.length_cons, List.length_nil] at hlength
      omega
  rw [assignments_of_not_table hscalar] at hown ⊢
  obtain ⟨hpath, haccepts⟩ := hown _ (List.mem_singleton.mpr rfl)
  refine ⟨?_, haccepts, ?_⟩
  · simp only [Setting.path, List.cons.injEq] at hpath
    exact hpath.2.2
  · simp only at hpath
    rw [hpath, given?_self]

/-- A value of the type of a setting takes the place of any other. -/
theorem Value.entered_of_accepts (h : k.accepts v) (old : Option Value) : v.entered old = v := by
  cases v with
  | table es => rw [Setting.not_accepts_table] at h; cases h
  | _ => rfl

theorem Value.write_of_accepts (h : k.accepts v) (old : Value) : v.write [] old = v := by
  cases v with
  | table es => rw [Setting.not_accepts_table] at h; cases h
  | _ => rfl

/-- A table of settings after one entry was written: the entry gives a setting what it assigns. -/
theorem lookup_entered {t : Entries} {w : Value}
    (hproper : ∀ a ∈ v.assignments (.child first :: .child name :: rest), a.IsProper)
    (hgroup : Casing.lower first = k.group) (hw : k.accepts v → rest = [] → w = v) :
    (t.set (Casing.lower name) w).lookup k.name =
      (given? (v.assignments (.child first :: .child name :: rest)) k).or (t.lookup k.name) := by
  rw [Entries.lookup_set]
  by_cases hname : k.name = Casing.lower name
  · obtain ⟨hrest, haccepts, hgiven⟩ := assigned_to_setting hproper hgroup hname.symm
    rw [if_pos hname, hgiven, hw haccepts hrest]
    rfl
  · have hapart : overlaps (.child first :: .child name :: rest) [k.group, k.name] = false := by
      simp [overlaps, hgroup, Ne.symm hname]
    rw [if_neg hname, given?_eq_none_of_apart hproper hapart]
    rfl

/-- **Tables are joined entry by entry.** -/
theorem exists_joinAll (hgroup : Casing.lower first = k.group) :
    ∀ (incoming : Entries) (t : Entries), t.AreDistinct →
      (∀ a ∈ assignmentsIn [.child first] incoming, a.IsProper) →
      ∃ t' : Entries, joinAll incoming (.table t) = .table t' ∧ t'.AreDistinct ∧
        t'.lookup k.name =
          (given? (assignmentsIn [.child first] incoming) k).or (t.lookup k.name) := by
  intro incoming
  induction incoming with
  | nil => exact fun t ht _ => ⟨t, by rw [joinAll], ht, rfl⟩
  | cons e rest ih =>
    obtain ⟨name, v⟩ := e
    intro t ht hproper
    rw [assignmentsIn] at hproper ⊢
    obtain ⟨t', hjoin, hdistinct, hlookup⟩ := ih (v.enter name t)
      (v.enter_eq name t ▸ ht.set _ _) fun a ha => hproper a (List.mem_append_right _ ha)
    refine ⟨t', ?_, hdistinct, ?_⟩
    · rw [joinAll]
      exact hjoin
    · have hproper' : ∀ a ∈ v.assignments [.child first, .child name], a.IsProper :=
        fun a ha => hproper a (List.mem_append_left _ ha)
      rw [hlookup, given?_append, Option.or_assoc, v.enter_eq,
        lookup_entered hproper' hgroup fun haccepts _ => Value.entered_of_accepts haccepts _]
      rfl

/-- **The table of a setting after a write.** -/
theorem exists_entered {p : KeyPath} {t : Entries} (ht : t.AreDistinct)
    (hproper : ∀ a ∈ v.assignments p.steps, a.IsProper)
    (hgroup : Casing.lower p.first = k.group) :
    ∃ t' : Entries, p.entered v (some (.table t)) = .table t' ∧ t'.AreDistinct ∧
      t'.lookup k.name = (given? (v.assignments p.steps) k).or (t.lookup k.name) := by
  obtain ⟨first, rest⟩ := p
  simp only [KeyPath.steps] at hproper hgroup ⊢
  match rest with
  | [] =>
    by_cases hv : ∃ es, v = .table es
    · obtain ⟨incoming, rfl⟩ := hv
      cases incoming with
      | nil =>
        -- an empty table adds nothing
        refine ⟨t, by simp [KeyPath.entered, Value.entered, joinAll], ht, ?_⟩
        rw [given?_eq_none (by simp [Value.assignments, Setting.path])]
        rfl
      | cons e es =>
        rw [Value.assignments, if_neg (by simp)] at hproper ⊢
        exact exists_joinAll hgroup (e :: es) t ht hproper
    · rw [assignments_of_not_table fun es h => hv ⟨es, h⟩] at hproper
      have hconcerns : overlaps [.child first] [k.group, k.name] = true := by
        simp [overlaps, hgroup]
      rcases hproper _ (List.mem_singleton.mpr rfl) k hconcerns with ⟨hpath, -⟩ | ⟨-, htable⟩
      · simp [Setting.path] at hpath
      · exact absurd htable hv
  | .index n :: rest =>
    -- the table would become a list
    obtain ⟨a, ha⟩ :=
      List.exists_mem_of_ne_nil _ (assignments_ne_nil v (.child first :: .index n :: rest))
    obtain ⟨more, hmore⟩ := prefix_of_mem_assignments v _ a ha
    have hconcerns : a.concerns k := by
      simp [Assignment.concerns, ← hmore, overlaps, hgroup]
    rcases hproper a ha k hconcerns with ⟨hpath, -⟩ | ⟨⟨other, hpath⟩, -⟩
    · simp [← hmore, Setting.path] at hpath
    · simp [← hmore] at hpath
  | .child name :: rest =>
    refine ⟨t.set (Casing.lower name) (v.write rest ((t.lookup (Casing.lower name)).getD .nil)),
      by simp [KeyPath.entered, Value.write, Value.entries], ht.set _ _, ?_⟩
    refine lookup_entered hproper hgroup ?_
    rintro haccepts rfl
    exact Value.write_of_accepts haccepts _

/-- **A write changes the settings that it assigns**, and no other. -/
theorem at?_write {es : Entries} (hes : es.HasGroups) {p : KeyPath}
    (hproper : ∀ a ∈ v.assignments p.steps, a.IsProper) :
    (p.write v es).HasGroups ∧
      ∀ k, (p.write v es).at? k = (given? (v.assignments p.steps) k).or (es.at? k) := by
  have hspec : ∀ k : Setting, ∃ t' : Entries, (p.write v es).lookup k.group = some (.table t') ∧
      t'.AreDistinct ∧ t'.lookup k.name = (given? (v.assignments p.steps) k).or (es.at? k) := by
    intro k
    obtain ⟨t, hlookup, ht⟩ := hes k
    rw [p.write_eq, Entries.lookup_set, Entries.at?_of_lookup hlookup]
    by_cases hgroup : k.group = Casing.lower p.first
    · obtain ⟨t', hentered, ht', hvalue⟩ := exists_entered ht hproper hgroup.symm
      rw [if_pos hgroup, ← hgroup, hlookup, hentered]
      exact ⟨t', rfl, ht', hvalue⟩
    · have hapart : overlaps p.steps [k.group, k.name] = false := by
        simp [KeyPath.steps, overlaps, Ne.symm hgroup]
      rw [if_neg hgroup, given?_eq_none_of_apart hproper hapart]
      exact ⟨t, hlookup, ht, rfl⟩
  refine ⟨fun k => ?_, fun k => ?_⟩
  · obtain ⟨t', hlookup, ht', -⟩ := hspec k
    exact ⟨t', hlookup, ht'⟩
  · obtain ⟨t', hlookup, -, hvalue⟩ := hspec k
    rw [Entries.at?_of_lookup hlookup, hvalue]

end Write

/-! ### Writing one after the other -/

/-- Writes values at their paths, the first first. -/
def writeAll (ws : List (KeyPath × Value)) (es : Entries) : Entries :=
  ws.foldl (fun es w => w.1.write w.2 es) es

theorem assigned_cons (w : KeyPath × Value) (ws : List (KeyPath × Value)) :
    assigned (w :: ws) = w.2.assignments w.1.steps ++ assigned ws := rfl

/-- **After any number of writes** a setting has the value that was assigned to it last. -/
theorem at?_writeAll {es : Entries} (hes : es.HasGroups) {ws : List (KeyPath × Value)}
    (hproper : ∀ a ∈ assigned ws, a.IsProper) :
    (writeAll ws es).HasGroups ∧
      ∀ k, (writeAll ws es).at? k = (given? (assigned ws) k).or (es.at? k) := by
  induction ws generalizing es with
  | nil => exact ⟨hes, fun k => rfl⟩
  | cons w ws ih =>
    rw [assigned_cons] at hproper
    obtain ⟨hwritten, hat⟩ := at?_write hes fun a ha => hproper a (List.mem_append_left _ ha)
    obtain ⟨hall, hatAll⟩ := ih hwritten fun a ha => hproper a (List.mem_append_right _ ha)
    refine ⟨hall, fun k => ?_⟩
    rw [writeAll, List.foldl_cons, ← writeAll, hatAll, hat, assigned_cons, given?_append,
      Option.or_assoc]

theorem Layers.merge_eq (doc es : Entries) : Layers.merge doc es = writeAll doc.writes es := by
  rw [Layers.merge, writeAll, Entries.writes, List.foldl_map]
  congr 1
  funext es e
  obtain ⟨key, v⟩ := e
  cases hkey : KeyPath.ofText? key with
  | none =>
    simp only [hkey, Option.getD_none]
    rfl
  | some p => simp only [hkey, Option.getD_some]

namespace Layers

/-! ### The defaults -/

/-- The settings that the defaults name, with their values. -/
def defaultValues : List (Setting × Value) := [
  (.language, .string "auto"), (.ignoreIllegals, .boolean false),
  (.format, .string "ansi"), (.classPrefix, .string "hljs-"),
  (.color "keyword", .string "magenta"), (.color "built_in", .string "cyan"),
  (.color "literal", .string "blue"), (.color "number", .string "yellow"),
  (.color "string", .string "green"), (.color "meta-string", .string "dark_green"),
  (.color "meta", .string "dark_yellow"), (.color "comment", .string "dark_grey"),
  (.color "doctag", .string "red"), (.color "title", .string "blue"),
  (.color "operator", .string "dark_cyan")]

theorem assignments_defaults :
    defaults.assignments = defaultValues.map fun (k, v) => ⟨k.path, v⟩ := rfl

theorem isProper_defaults : ∀ a ∈ defaults.assignments, a.IsProper :=
  isProper_of_values defaultValues assignments_defaults (by decide)

/-- Tables without settings. -/
def blank : Entries := [("highlight", .table []), ("output", .table []), ("theme", .table [])]

theorem at?_defaults :
    (merge defaults []).HasGroups ∧
      ∀ k, (merge defaults []).at? k = given? defaults.assignments k := by
  have hblank : blank.HasGroups := by
    intro k
    cases k <;> exact ⟨[], rfl, List.nodup_nil⟩
  -- the defaults make the tables themselves
  have hmerge : merge defaults [] = merge defaults blank := rfl
  obtain ⟨hgroups, hat⟩ := at?_writeAll hblank isProper_defaults
  rw [hmerge, merge_eq]
  refine ⟨hgroups, fun k => ?_⟩
  have hnone : blank.at? k = none := by
    cases k <;> rfl
  rw [hat, hnone, Option.or_none]
  rfl

/-! ### Layers -/

/-- What the single settings of layers assign. -/
def overridden (l : Layers) : List Assignment := assigned l.overrides

/-- The documents of files, one for each; a file that may be missing can have an empty one. -/
def HasDocuments (files : List FileLayer) (docs : List Entries) : Prop :=
  List.Forall₂ (fun f doc => readFile f = .ok doc) files docs

theorem mergeFiles_eq {files : List FileLayer} {docs : List Entries} (h : HasDocuments files docs)
    (es : Entries) : mergeFiles files es = .ok (writeAll (docs.flatMap Entries.writes) es) := by
  induction h generalizing es with
  | nil => rfl
  | @cons f doc files docs hread _ ih =>
    rw [mergeFiles, hread]
    show mergeFiles files (merge doc es) = _
    rw [ih, merge_eq, List.flatMap_cons, writeAll, writeAll, writeAll, List.foldl_append]

/-- **The value of a setting is the one assigned last**, where the defaults come first, then the
files in order, and then the overrides. -/
theorem at?_entries {l : Layers} {docs : List Entries} (hdocs : HasDocuments l.files docs)
    (hproper : ∀ doc ∈ docs, ∀ a ∈ doc.assignments, a.IsProper)
    (hoverrides : ∀ a ∈ l.overridden, a.IsProper) :
    ∃ es, l.entries = .ok es ∧ es.HasGroups ∧
      ∀ k, es.at? k = given?
        (defaults.assignments ++ docs.flatMap Entries.assignments ++ l.overridden) k := by
  obtain ⟨hdefaults, hatDefaults⟩ := at?_defaults
  have hassigned : assigned (docs.flatMap Entries.writes) = docs.flatMap Entries.assignments := by
    rw [assigned, List.flatMap_assoc]
    rfl
  have hfiles : ∀ a ∈ assigned (docs.flatMap Entries.writes), a.IsProper := by
    intro a ha
    rw [hassigned] at ha
    obtain ⟨doc, hdoc, ha⟩ := List.mem_flatMap.mp ha
    exact hproper doc hdoc a ha
  obtain ⟨hmerged, hatMerged⟩ := at?_writeAll hdefaults hfiles
  obtain ⟨hall, hatAll⟩ := at?_writeAll hmerged hoverrides
  refine ⟨_, ?_, hall, fun k => ?_⟩
  · rw [entries, mergeFiles_eq hdocs]
    rfl
  · rw [hatAll, hatMerged, hatDefaults, given?_append, given?_append, hassigned]
    rfl

end Layers

end Highlighting.Config
