/-
  Highlighting/Proofs/Config/Assignments.lean
  ===========================================
  **A document as a list of assignments.**

  Whatever tables a document is written in, it says of certain paths what value
  stands there.  Written out, that is one assignment for each value
  (`Entries.assignments`).  A setting has a path of its own (`Setting.path`), and
  the value that a document gives it is the one assigned to that path
  (`given?`).

  A document is proper where what it says about settings has the right type and
  is spelled in lower case (`Assignment.IsProper`); about other things it may
  say what it likes.
-/
import Highlighting.Config.Layers

namespace Highlighting.Config

/-! ### Settings and where they are found -/

/-- A single setting; the colours of a theme have one for each name of a scope. -/
inductive Setting where
  | language
  | ignoreIllegals
  | format
  | classPrefix
  | color (scope : String)
  deriving DecidableEq, Repr

namespace Setting

/-- The table that a setting stands in. -/
def group : Setting → String
  | language | ignoreIllegals => "highlight"
  | format | classPrefix => "output"
  | color _ => "theme"

def name : Setting → String
  | language => "language"
  | ignoreIllegals => "ignore_illegals"
  | format => "format"
  | classPrefix => "class_prefix"
  | color scope => scope

def path (k : Setting) : List Step := [.child k.group, .child k.name]

/-- Whether a value has the type of a setting. -/
def accepts : Setting → Value → Bool
  | ignoreIllegals, .boolean _ => true
  | ignoreIllegals, _ => false
  | _, .string _ => true
  | _, _ => false

variable {k : Setting} {v : Value}

theorem exists_boolean (h : ignoreIllegals.accepts v) : ∃ b, v = .boolean b := by
  cases v <;> first | exact ⟨_, rfl⟩ | cases h

theorem exists_string (h : k.accepts v) (hk : k ≠ ignoreIllegals) : ∃ s, v = .string s := by
  cases k <;> cases v <;> first | exact ⟨_, rfl⟩ | exact absurd rfl hk | cases h

theorem not_accepts_table (es : Entries) : k.accepts (.table es) = false := by
  cases k <;> rfl

theorem lower_group (k : Setting) : Casing.lower k.group = k.group := by
  have hlower : ∀ g ∈ ["highlight", "output", "theme"], Casing.lower g = g := by decide
  cases k <;> exact hlower _ (by simp [group])

/-- Only the names of scopes may have capitals. -/
theorem lower_name (hk : ∀ scope, k ≠ color scope) : Casing.lower k.name = k.name := by
  have hlower : ∀ n ∈ ["language", "ignore_illegals", "format", "class_prefix"],
      Casing.lower n = n := by decide
  cases k with
  | color scope => exact absurd rfl (hk scope)
  | _ => exact hlower _ (by decide)

/-- A setting is known by its table and its name there. -/
theorem eq_of_names {j : Setting} (hgroup : j.group = k.group) (hname : j.name = k.name) :
    j = k := by
  cases j <;> cases k <;> simp_all [group, name]

theorem path_injective : Function.Injective path := by
  intro j k h
  simp only [path, List.cons.injEq, Step.child.injEq, and_true] at h
  exact eq_of_names h.1 h.2

end Setting

/-! ### Assignments -/

/-- A value at the end of a path. -/
structure Assignment where
  path : List Step
  value : Value

mutual

/-- What a value at the end of a path assigns.  A table assigns what its entries do; an empty
one is assigned as such. -/
def Value.assignments (path : List Step) : Value → List Assignment
  | .table es => if es.isEmpty then [⟨path, .table []⟩] else assignmentsIn path es
  | v => [⟨path, v⟩]

def assignmentsIn (path : List Step) : List (String × Value) → List Assignment
  | [] => []
  | (name, v) :: rest => v.assignments (path ++ [.child name]) ++ assignmentsIn path rest

end

/-- All steps of a path. -/
def KeyPath.steps (p : KeyPath) : List Step := .child p.first :: p.rest

/-- What a list of values, each at a path, assigns. -/
def assigned (ws : List (KeyPath × Value)) : List Assignment :=
  ws.flatMap fun (p, v) => v.assignments p.steps

/-- The values of a document at its topmost keys.  A key that is no path stands for itself. -/
def Entries.writes (es : Entries) : List (KeyPath × Value) :=
  es.map fun (key, v) => ((KeyPath.ofText? key).getD ⟨key, []⟩, v)

/-- **What a document assigns.** -/
def Entries.assignments (es : Entries) : List Assignment := assigned es.writes

/-- The value that assignments give a setting: the last one at its path. -/
def given? (as : List Assignment) (k : Setting) : Option Value :=
  (as.reverse.find? fun a => a.path = k.path).map (·.value)

/-! ### Proper assignments -/

/-- Whether what is found under names may depend on what is written at a path.  A path that
ends on the way to the names takes their place, one that goes on puts something below, and one
that goes to an item makes a list of the table.  Names are read in lower case. -/
def overlaps : List Step → List String → Bool
  | [], _ => true
  | _, [] => true
  | .index _ :: _, _ => true
  | .child name :: path, other :: names => Casing.lower name == other && overlaps path names

def Assignment.concerns (a : Assignment) (k : Setting) : Bool := overlaps a.path [k.group, k.name]

/-- An assignment that concerns a setting is one to the very path of the setting, of a value of
its type; or it names an empty table. -/
def Assignment.IsProper (a : Assignment) : Prop :=
  ∀ k : Setting, a.concerns k →
    (a.path = k.path ∧ k.accepts a.value) ∨
      ((∃ name, a.path = [.child name]) ∧ ∃ es, a.value = .table es)

/-! ### What is given -/

section Given

variable {as bs : List Assignment} {a : Assignment} {k : Setting} {v : Value}

/-- **Later assignments come first.** -/
theorem given?_append (as bs : List Assignment) (k : Setting) :
    given? (as ++ bs) k = (given? bs k).or (given? as k) := by
  rw [given?, List.reverse_append, List.find?_append, Option.map_or]
  rfl

theorem given?_eq_none (h : ∀ a ∈ as, a.path ≠ k.path) : given? as k = none := by
  rw [given?, Option.map_eq_none_iff, List.find?_eq_none]
  intro a ha
  simpa using h a (List.mem_reverse.mp ha)

theorem exists_of_given? (h : given? as k = some v) : ∃ a ∈ as, a.path = k.path ∧ a.value = v := by
  rw [given?, Option.map_eq_some_iff] at h
  obtain ⟨a, ha, hv⟩ := h
  exact ⟨a, List.mem_reverse.mp (List.mem_of_find?_eq_some ha), by simpa using List.find?_some ha,
    hv⟩

theorem given?_self (k : Setting) (v : Value) : given? [⟨k.path, v⟩] k = some v := by
  simp [given?]

theorem given?_option (j k : Setting) (v : Option Value) :
    given? (v.map fun v => ⟨j.path, v⟩).toList k = if j = k then v else none := by
  split
  · next h =>
    rw [h]
    cases v with
    | none => rfl
    | some v => exact given?_self k v
  · next h =>
    refine given?_eq_none fun a ha hpath => h (Setting.path_injective ?_)
    rw [Option.mem_toList, Option.map_eq_some_iff] at ha
    obtain ⟨v, -, rfl⟩ := ha
    exact hpath

end Given

namespace Assignment.IsProper

variable {a : Assignment} {k : Setting}

/-- A setting that something is properly assigned to is spelled in lower case. -/
theorem lower_name (h : a.IsProper) (hpath : a.path = k.path) : Casing.lower k.name = k.name := by
  by_cases hk : ∃ scope, k = .color scope
  · obtain ⟨scope, rfl⟩ := hk
    -- the assignment concerns the colour whose name is the one in lower case
    have hconcerns : a.concerns (.color (Casing.lower scope)) := by
      simp only [concerns, hpath, Setting.path, overlaps, Bool.and_eq_true, beq_iff_eq, and_true]
      exact ⟨Setting.lower_group (.color scope), rfl⟩
    rcases h _ hconcerns with ⟨heq, -⟩ | ⟨⟨name, heq⟩, -⟩
    · rw [hpath] at heq
      simp only [Setting.path, Setting.name, List.cons.injEq, Step.child.injEq, and_true] at heq
      exact heq.2.symm
    · rw [hpath] at heq
      simp [Setting.path] at heq
  · exact Setting.lower_name fun scope heq => hk ⟨scope, heq⟩

theorem concerns_of_path (h : a.IsProper) (hpath : a.path = k.path) : a.concerns k := by
  simp [concerns, hpath, Setting.path, overlaps, Setting.lower_group, h.lower_name hpath]

/-- What is assigned to a setting has its type. -/
theorem accepts (h : a.IsProper) (hpath : a.path = k.path) : k.accepts a.value := by
  rcases h k (h.concerns_of_path hpath) with ⟨-, haccepts⟩ | ⟨⟨name, heq⟩, -⟩
  · exact haccepts
  · rw [hpath] at heq
    simp [Setting.path] at heq

end Assignment.IsProper

theorem accepts_of_given? {as : List Assignment} {k : Setting} {v : Value}
    (h : ∀ a ∈ as, a.IsProper) (hgiven : given? as k = some v) : k.accepts v := by
  obtain ⟨a, ha, hpath, rfl⟩ := exists_of_given? hgiven
  exact (h a ha).accepts hpath

/-- A value of the right type at the path of a setting, in lower case, is properly assigned. -/
theorem isProper_of_path {k : Setting} {v : Value} (hlower : Casing.lower k.name = k.name)
    (haccepts : k.accepts v) : (⟨k.path, v⟩ : Assignment).IsProper := by
  intro j hconcerns
  simp only [Assignment.concerns, Setting.path, overlaps, Bool.and_eq_true, beq_iff_eq,
    and_true, Setting.lower_group, hlower] at hconcerns
  obtain rfl : k = j := Setting.eq_of_names hconcerns.1 hconcerns.2
  exact .inl ⟨rfl, haccepts⟩

/-- A document that assigns values of the right types to settings, in lower case, is proper. -/
theorem isProper_of_values {as : List Assignment} (values : List (Setting × Value))
    (has : as = values.map fun (k, v) => ⟨k.path, v⟩)
    (hvalues : ∀ e ∈ values, Casing.lower e.1.name = e.1.name ∧ e.1.accepts e.2) :
    ∀ a ∈ as, a.IsProper := by
  intro a ha
  rw [has] at ha
  obtain ⟨e, he, rfl⟩ := List.mem_map.mp ha
  exact isProper_of_path (hvalues e he).1 (hvalues e he).2

/-! ### The paths of assignments -/

section Paths

variable {a : Assignment} {v : Value} {path more : List Step} {names : List String}

theorem assignments_of_not_table (h : ∀ es, v ≠ .table es) (path : List Step) :
    v.assignments path = [⟨path, v⟩] := by
  cases v with
  | table es => exact absurd rfl (h es)
  | _ => rfl

mutual

/-- What a value assigns lies at its path or below. -/
theorem prefix_of_mem_assignments :
    ∀ (v : Value) (path : List Step), ∀ a ∈ v.assignments path, path <+: a.path
  | .table es, path => by
    intro a ha
    rw [Value.assignments] at ha
    split at ha
    · obtain rfl := List.mem_singleton.mp ha
      exact List.prefix_refl path
    · exact (prefix_of_mem_assignmentsIn es path a ha).1
  | .nil, path | .boolean _, path | .integer _, path | .real _, path | .string _, path
  | .array _, path => by
    intro a ha
    rw [assignments_of_not_table (by simp)] at ha
    obtain rfl := List.mem_singleton.mp ha
    exact List.prefix_refl path

theorem prefix_of_mem_assignmentsIn :
    ∀ (es : List (String × Value)) (path : List Step), ∀ a ∈ assignmentsIn path es,
      path <+: a.path ∧ path.length < a.path.length
  | [], path => by simp [assignmentsIn]
  | (name, v) :: rest, path => by
    intro a ha
    rw [assignmentsIn, List.mem_append] at ha
    rcases ha with ha | ha
    · have hbelow := prefix_of_mem_assignments v (path ++ [.child name]) a ha
      have hlength := hbelow.length_le
      rw [List.length_append, List.length_singleton] at hlength
      exact ⟨(List.prefix_append path _).trans hbelow, hlength⟩
    · exact prefix_of_mem_assignmentsIn rest path a ha

end

/-- A value assigns something. -/
theorem assignments_ne_nil : ∀ (v : Value) (path : List Step), v.assignments path ≠ []
  | .table [], path => by simp [Value.assignments]
  | .table ((name, v) :: rest), path => by
    rw [Value.assignments, if_neg (by simp), assignmentsIn]
    exact List.append_ne_nil_of_left_ne_nil (assignments_ne_nil v _) _
  | .nil, path | .boolean _, path | .integer _, path | .real _, path | .string _, path
  | .array _, path => by simp [assignments_of_not_table]

@[simp] theorem overlaps_nil (path : List Step) : overlaps path [] = true := by
  rcases path with _ | ⟨step, path⟩
  · rfl
  · cases step <;> rfl

theorem overlaps_of_append (h : overlaps (path ++ more) names) : overlaps path names := by
  induction path generalizing names with
  | nil => rfl
  | cons step path ih =>
    cases names with
    | nil => simp
    | cons other names =>
      cases step with
      | index n => rfl
      | child name =>
        simp only [List.cons_append, overlaps, Bool.and_eq_true] at h ⊢
        exact ⟨h.1, ih h.2⟩

end Paths

end Highlighting.Config
