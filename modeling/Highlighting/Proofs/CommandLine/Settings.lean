/-
  Highlighting/Proofs/CommandLine/Settings.lean
  =============================================
  **Where a command takes its settings from.**

  Options of the command line come before the file named with `--config`, that
  before the local file, and that before the defaults; and they do so for each
  setting on its own, each colour of the theme included.  A command that detects
  a language has the same settings as one that highlights without options.

  Files and single settings can be put over each other in any interleaving: only
  the order among the files and the one among the single settings count
  (`Layers.addAll_congr`).
-/
import Mathlib
import Highlighting.CommandLine.Run
import Highlighting.Proofs.Config.Settings

namespace Highlighting

namespace Config

/-! ### Files and single settings in any order -/

namespace Layers

/-- A layer that is put over those before. -/
inductive Addition where
  | file (f : FileLayer)
  | override (key : String) (v : Value)

def Addition.file? : Addition → Option FileLayer
  | file f => some f
  | override _ _ => none

def Addition.override? : Addition → Option (String × Value)
  | file _ => none
  | override key v => some (key, v)

def add (l : Layers) : Addition → Except ConfigError Layers
  | .file f => .ok (l.withFile f)
  | .override key v => l.setOverride key v

/-- With further layers, the first first; a key that is no path ends it. -/
def addAll (l : Layers) (as : List Addition) : Except ConfigError Layers := as.foldlM add l

/-- With further single settings, the first first. -/
def setAll (l : Layers) (os : List (String × Value)) : Except ConfigError Layers :=
  os.foldlM (fun l o => l.setOverride o.1 o.2) l

/-- More files below make no difference to a single setting. -/
theorem setOverride_append (l : Layers) (fs : List FileLayer) (key : String) (v : Value) :
    Layers.setOverride ⟨l.files ++ fs, l.overrides⟩ key v =
      (l.setOverride key v).map fun l => ⟨l.files ++ fs, l.overrides⟩ := by
  rw [setOverride, setOverride]
  cases KeyPath.ofText? key <;> rfl

theorem setAll_append (l : Layers) (fs : List FileLayer) (os : List (String × Value)) :
    Layers.setAll ⟨l.files ++ fs, l.overrides⟩ os =
      (l.setAll os).map fun l => ⟨l.files ++ fs, l.overrides⟩ := by
  induction os generalizing l with
  | nil => rfl
  | cons o os ih =>
    rw [setAll, setAll, List.foldlM_cons, List.foldlM_cons, setOverride_append]
    cases l.setOverride o.1 o.2 with
    | error e => rfl
    | ok l' => exact ih l'

/-- **The files come first and the single settings then**, in whatever order they were added. -/
theorem addAll_eq (l : Layers) (as : List Addition) :
    l.addAll as = (l.setAll (as.filterMap Addition.override?)).map fun l =>
      ⟨l.files ++ as.filterMap Addition.file?, l.overrides⟩ := by
  induction as generalizing l with
  | nil =>
    show Except.ok l = Except.ok (⟨l.files ++ [], l.overrides⟩ : Layers)
    rw [List.append_nil]
  | cons a as ih =>
    rw [addAll, List.foldlM_cons]
    cases a with
    | file f =>
      show (l.withFile f).addAll as = _
      rw [ih, withFile, setAll_append]
      show _ = (l.setAll (as.filterMap Addition.override?)).map _
      cases l.setAll (as.filterMap Addition.override?) with
      | error e => rfl
      | ok l' =>
        show Except.ok (⟨l'.files ++ [f] ++ _, l'.overrides⟩ : Layers) =
          .ok ⟨l'.files ++ (f :: _), _⟩
        rw [List.append_assoc, List.singleton_append]
    | override key v =>
      show (l.setOverride key v).bind (·.addAll as) =
        Except.map _ ((l.setOverride key v).bind (·.setAll (as.filterMap Addition.override?)))
      cases l.setOverride key v with
      | error e => rfl
      | ok l' => exact ih l'

theorem addAll_congr {as bs : List Addition} (l : Layers)
    (hfiles : as.filterMap Addition.file? = bs.filterMap Addition.file?)
    (hoverrides : as.filterMap Addition.override? = bs.filterMap Addition.override?) :
    l.addAll as = l.addAll bs := by
  rw [addAll_eq, addAll_eq, hfiles, hoverrides]

end Layers

/-! ### What texts say -/

/-- The path of a setting. -/
def Setting.keyPath (k : Setting) : KeyPath := ⟨k.group, [.child k.name]⟩

/-- Whether a text is a document that says only proper things about settings.  It may give a
setting twice, under a quoted path and in a table; then the later of the two stands for the one that
counts. -/
def IsProperText (text : String) : Prop :=
  ∃ doc, Toml.document? text = some doc ∧ ∀ a ∈ doc.assignments, a.IsProper

/-- The value that a text gives a setting; no text gives none. -/
def textGives? (text : Option String) (k : Setting) : Option Value :=
  (text.bind Toml.document?).bind fun doc => given? doc.assignments k

end Config

namespace CommandLine

open Config

/-! ### Options -/

/-- The value that options of the command line give a setting. -/
def optionGives? (language format : Option String) (ignoreIllegals : Bool) :
    Setting → Option Value
  | .language => language.map .string
  | .format => format.map .string
  | .ignoreIllegals => if ignoreIllegals then some (.boolean true) else none
  | .classPrefix | .color _ => none

/-- The single settings that come from options. -/
def optionOverrides (language format : Option String) (ignoreIllegals : Bool) :
    List (KeyPath × Value) :=
  [Setting.language, .format, .ignoreIllegals].flatMap fun k =>
    ((optionGives? language format ignoreIllegals k).map fun v => (k.keyPath, v)).toList

theorem withOption_eq {l : Layers} {k : Setting} {key : String}
    (hkey : KeyPath.ofText? key = some k.keyPath) (hnew : ∀ o ∈ l.overrides, o.1 ≠ k.keyPath)
    (v : Option Value) :
    withOption key v l =
      .ok ⟨l.files, l.overrides ++ (v.map fun v => (k.keyPath, v)).toList⟩ := by
  cases v with
  | none =>
    rw [withOption, Option.map_none, Option.toList_none, List.append_nil]
  | some v =>
    have hkept : (l.overrides.filter fun o => !decide (o.1 = k.keyPath)) = l.overrides :=
      List.filter_eq_self.mpr fun o ho => by simpa using hnew o ho
    rw [withOption, Layers.setOverride, hkey]
    simp only [hkept]
    rfl

theorem keyPath_of_mem {k : Setting} {v : Option Value} {o : KeyPath × Value}
    (h : o ∈ (v.map fun v => (k.keyPath, v)).toList) : o.1 = k.keyPath := by
  rw [Option.mem_toList, Option.map_eq_some_iff] at h
  obtain ⟨w, -, rfl⟩ := h
  rfl

/-- The options are entered one after the other; each setting has one at most. -/
theorem withOptions_eq (files : List FileLayer) (language format : Option String)
    (ignoreIllegals : Bool) :
    (do
      let l ← withOption "highlight.language" (language.map .string) ⟨files, []⟩
      let l ← withOption "output.format" (format.map .string) l
      let l ← withOption "highlight.ignore_illegals"
        (if ignoreIllegals then some (.boolean true) else none) l
      Settings.ofLayers l) =
      Settings.ofLayers ⟨files, optionOverrides language format ignoreIllegals⟩ := by
  have hlanguage : KeyPath.ofText? "highlight.language" = some Setting.language.keyPath := rfl
  have hformat : KeyPath.ofText? "output.format" = some Setting.format.keyPath := rfl
  have hignore : KeyPath.ofText? "highlight.ignore_illegals" =
      some Setting.ignoreIllegals.keyPath := rfl
  have hapart : Setting.language.keyPath ≠ Setting.format.keyPath ∧
      Setting.language.keyPath ≠ Setting.ignoreIllegals.keyPath ∧
      Setting.format.keyPath ≠ Setting.ignoreIllegals.keyPath := by decide
  rw [withOption_eq hlanguage (by simp)]
  simp only [bind, Except.bind, List.nil_append]
  rw [withOption_eq hformat (by
    intro o ho
    exact keyPath_of_mem ho ▸ hapart.1)]
  simp only
  rw [withOption_eq hignore (by
    intro o ho
    rcases List.mem_append.mp ho with ho | ho
    · exact keyPath_of_mem ho ▸ hapart.2.1
    · exact keyPath_of_mem ho ▸ hapart.2.2)]
  simp [optionOverrides, optionGives?]

/-- **The layers of a command**: the local file, the one that is asked for, and the options. -/
theorem settings_eq (s : Surroundings) (config language format : Option String)
    (ignoreIllegals : Bool) :
    settings s config language format ignoreIllegals = Settings.ofLayers
      ⟨configFile s localConfig false :: (config.map fun name => configFile s name true).toList,
        optionOverrides language format ignoreIllegals⟩ := by
  cases config with
  | none => exact withOptions_eq [configFile s localConfig false] language format ignoreIllegals
  | some name =>
    exact withOptions_eq [configFile s localConfig false, configFile s name true] language format
      ignoreIllegals

/-! ### What comes first -/

theorem assigned_optionOverrides (language format : Option String) (ignoreIllegals : Bool) :
    assigned (optionOverrides language format ignoreIllegals) =
      [Setting.language, .format, .ignoreIllegals].flatMap fun k =>
        ((optionGives? language format ignoreIllegals k).map fun v => ⟨k.path, v⟩).toList := by
  cases language <;> cases format <;> cases ignoreIllegals <;> rfl

/-- An option has the type of its setting. -/
theorem accepts_of_optionGives? {language format : Option String} {ignoreIllegals : Bool}
    {k : Setting} {v : Value} (h : optionGives? language format ignoreIllegals k = some v) :
    k.accepts v := by
  cases k <;> simp only [optionGives?, Option.map_eq_some_iff] at h
  case language => obtain ⟨_, -, rfl⟩ := h; rfl
  case format => obtain ⟨_, -, rfl⟩ := h; rfl
  case ignoreIllegals =>
    split at h
    · cases h; rfl
    · cases h
  all_goals cases h

theorem isProper_options (language format : Option String) (ignoreIllegals : Bool) :
    ∀ a ∈ assigned (optionOverrides language format ignoreIllegals), a.IsProper := by
  intro a ha
  rw [assigned_optionOverrides, List.mem_flatMap] at ha
  obtain ⟨k, hk, ha⟩ := ha
  rw [Option.mem_toList, Option.map_eq_some_iff] at ha
  obtain ⟨v, hv, rfl⟩ := ha
  have hlower : ∀ k ∈ [Setting.language, .format, .ignoreIllegals],
      Casing.lower k.name = k.name := by decide
  exact isProper_of_path (hlower k hk) (accepts_of_optionGives? hv)

theorem given?_options (language format : Option String) (ignoreIllegals : Bool) (k : Setting) :
    given? (assigned (optionOverrides language format ignoreIllegals)) k =
      optionGives? language format ignoreIllegals k := by
  rw [assigned_optionOverrides, List.flatMap_cons, List.flatMap_cons, List.flatMap_cons,
    List.flatMap_nil, List.append_nil, given?_append, given?_append, given?_option, given?_option,
    given?_option]
  cases k <;> simp [optionGives?]

/-- A file that may be missing has a document, if it has a text that is one. -/
theorem exists_document {f : FileLayer}
    (h : ∀ text, f.content = some text → IsProperText text)
    (hrequired : f.content = none → f.required = false) :
    ∃ doc, Layers.readFile f = .ok doc ∧ (∀ a ∈ doc.assignments, a.IsProper) ∧
      ∀ k, textGives? f.content k = given? doc.assignments k := by
  cases hcontent : f.content with
  | none =>
    refine ⟨[], ?_, by simp [Entries.assignments, Entries.writes, assigned], fun k => rfl⟩
    rw [Layers.readFile, hcontent, hrequired hcontent]
    rfl
  | some text =>
    obtain ⟨doc, hdoc, hproper⟩ := h text hcontent
    refine ⟨doc, ?_, hproper, fun k => ?_⟩
    · simp only [Layers.readFile, hcontent, hdoc]
    · simp [textGives?, hdoc]

/-- **Each setting comes from the first layer that defines it**: an option, the file that is
asked for, the local file, the defaults. -/
theorem exists_settings {s : Surroundings} {config : Option String}
    (hlocal : ∀ text, (configFile s localConfig false).content = some text → IsProperText text)
    (hconfig : ∀ name, config = some name →
      ∃ text, (configFile s name true).content = some text ∧ IsProperText text)
    (language format : Option String) (ignoreIllegals : Bool) :
    ∃ e, settings s config language format ignoreIllegals = .ok e ∧ Settings.AreOrdered e.theme ∧
      ∀ k, e.value? k =
        (optionGives? language format ignoreIllegals k).or
          ((textGives? (config.bind fun name => (configFile s name true).content) k).or
            ((textGives? (configFile s localConfig false).content k).or
              (given? Layers.defaults.assignments k))) := by
  -- a missing local file is read like an empty one
  obtain ⟨here, hread, hproper, hgives⟩ : ∃ doc,
      Layers.readFile (configFile s localConfig false) = .ok doc ∧
        (∀ a ∈ doc.assignments, a.IsProper) ∧
        ∀ k, textGives? (configFile s localConfig false).content k = given? doc.assignments k :=
    exists_document hlocal fun _ => rfl
  obtain ⟨asked, hdocs, haskedProper, haskedGives⟩ : ∃ docs : List Entries,
      Layers.HasDocuments (config.map fun name => configFile s name true).toList docs ∧
        (∀ doc ∈ docs, ∀ a ∈ doc.assignments, a.IsProper) ∧
        ∀ k, textGives? (config.bind fun name => (configFile s name true).content) k =
          given? (docs.flatMap Entries.assignments) k := by
    cases config with
    | none => exact ⟨[], .nil, by simp, fun k => rfl⟩
    | some name =>
      obtain ⟨text, htext, hproperText⟩ := hconfig name rfl
      obtain ⟨doc, hdoc, hdocProper, hdocGives⟩ :=
        exists_document (f := configFile s name true)
          (fun other hother => Option.some.inj (htext.symm.trans hother) ▸ hproperText)
          (fun hnone => absurd (hnone.symm.trans htext) (by simp))
      refine ⟨[doc], .cons hdoc .nil, by simpa using hdocProper, fun k => ?_⟩
      rw [List.flatMap_cons, List.flatMap_nil, List.append_nil, ← hdocGives]
      rfl
  obtain ⟨e, he, hordered, hvalue⟩ := Settings.exists_ofLayers
    (l := ⟨configFile s localConfig false :: (config.map fun name => configFile s name true).toList,
      optionOverrides language format ignoreIllegals⟩)
    (.cons hread hdocs) (List.forall_mem_cons.mpr ⟨hproper, haskedProper⟩)
    (isProper_options language format ignoreIllegals)
  refine ⟨e, ?_, hordered, fun k => ?_⟩
  · rw [settings_eq, he]
  · rw [hvalue, given?_append, given?_append, List.flatMap_cons, given?_append, haskedGives, hgives,
      Layers.overridden, given?_options, Option.or_assoc]

/-- **Settings are layered key by key.**  Each setting, and each colour of the theme, has the value
of the option if that was given, and else the one of the file that is asked for, the local file or
the defaults, whichever of these has one first.  A command that detects a language runs under the
settings that the files give without options.  And over any layers, files and single settings can
be added in any interleaving that keeps the order of the files and that of the single settings. -/
theorem settings_are_layered_by_key (s : Surroundings) (o : HighlightOptions)
    (hlocal : ∀ text, (configFile s localConfig false).content = some text → IsProperText text)
    (hconfig : ∀ name, o.config = some name →
      ∃ text, (configFile s name true).content = some text ∧ IsProperText text) :
    let asked := textGives? (o.config.bind fun name => (configFile s name true).content)
    let here := textGives? (configFile s localConfig false).content
    let default := given? Layers.defaults.assignments
    (∃ e : Settings, Settings.AreOrdered e.theme ∧
      (∀ k, e.value? k = (optionGives? o.language o.format o.ignoreIllegals k).or
        ((asked k).or ((here k).or (default k)))) ∧
      runHighlight s o = do
        let text ← sourceText s o.path
        let r ← registry e
        let h ← highlightWith e r text
        renderWith e h) ∧
    (∃ d : Settings, Settings.AreOrdered d.theme ∧
      (∀ k, d.value? k = (asked k).or ((here k).or (default k))) ∧
      ∀ path, runDetect s path o.config = do
        let text ← sourceText s path
        let r ← registry d
        let found := r.detect text
        return detectedLine found.best ++ (found.second.map detectedLine).getD "") ∧
    ∀ (l : Layers) (as bs : List Layers.Addition),
      as.filterMap Layers.Addition.file? = bs.filterMap Layers.Addition.file? →
      as.filterMap Layers.Addition.override? = bs.filterMap Layers.Addition.override? →
      l.addAll as = l.addAll bs := by
  refine ⟨?_, ?_, fun l as bs hfiles hoverrides => l.addAll_congr hfiles hoverrides⟩
  · obtain ⟨e, he, hordered, hvalue⟩ :=
      exists_settings hlocal hconfig o.language o.format o.ignoreIllegals
    refine ⟨e, hordered, hvalue, ?_⟩
    rw [runHighlight, he]
    rfl
  · obtain ⟨d, hd, hordered, hvalue⟩ := exists_settings hlocal hconfig none none false
    refine ⟨d, hordered, fun k => ?_, fun path => ?_⟩
    · have hnone : optionGives? none none false k = none := by
        cases k <;> rfl
      rw [hvalue, hnone, Option.none_or]
    · rw [runDetect, hd]
      rfl

/-- A local file that chooses two colours, too. -/
def localText : String :=
  "[highlight]\nlanguage = \"yul\"\n\n[output]\nformat = \"tokens\"\n\n[theme]\n" ++
    "keyword = \"red\"\nnumber = \"white\"\n"

/-- A file with another language, and with another of the colours at a dotted key. -/
def otherText : String := "theme.number = \"#0a0b0c\"\n[highlight]\nlanguage = \"sol\"\n"

def twoFiles : Surroundings where
  file? name := [("solhl.toml", localText), ("sol.toml", otherText)].lookup name
  input := none

theorem document?_localText : Toml.document? localText = some [
    ("highlight", .table [("language", .string "yul")]),
    ("output", .table [("format", .string "tokens")]),
    ("theme", .table [("keyword", .string "red"), ("number", .string "white")])] := by
  cbv

theorem document?_otherText : Toml.document? otherText = some [
    ("theme", .table [("number", .string "#0a0b0c")]),
    ("highlight", .table [("language", .string "sol")])] := by
  cbv

theorem isProperText_localText : IsProperText localText :=
  ⟨_, document?_localText, isProper_of_values [
    (.language, .string "yul"), (.format, .string "tokens"),
    (.color "keyword", .string "red"), (.color "number", .string "white")] rfl (by decide)⟩

theorem isProperText_otherText : IsProperText otherText :=
  ⟨_, document?_otherText, isProper_of_values [
    (.color "number", .string "#0a0b0c"), (.language, .string "sol")] rfl (by decide)⟩

/-- Two files and two options: each has something that the others lack or change. -/
theorem settings_of_two_files :
    (∀ text, (configFile twoFiles localConfig false).content = some text → IsProperText text) ∧
      (∃ text, (configFile twoFiles "sol.toml" true).content = some text ∧ IsProperText text) ∧
      ∃ e : Settings, e.value? .language = some (.string "sol") ∧
        e.value? .format = some (.string "html") ∧
        e.value? .ignoreIllegals = some (.boolean true) ∧
        e.value? .classPrefix = some (.string "hljs-") ∧
        e.value? (.color "keyword") = some (.string "red") ∧
        e.value? (.color "number") = some (.string "#0a0b0c") ∧
        e.value? (.color "string") = some (.string "green") ∧
        runHighlight twoFiles ⟨none, none, some "html", some "sol.toml", true⟩ = (do
          let text ← sourceText twoFiles none
          let r ← registry e
          let h ← highlightWith e r text
          renderWith e h) := by
  have hlocalText : (configFile twoFiles localConfig false).content = some localText := rfl
  have hotherText : (configFile twoFiles "sol.toml" true).content = some otherText := rfl
  have hlocal : ∀ text, (configFile twoFiles localConfig false).content = some text →
      IsProperText text := by
    rintro text htext
    exact Option.some.inj (hlocalText.symm.trans htext) ▸ isProperText_localText
  have hother : ∃ text, (configFile twoFiles "sol.toml" true).content = some text ∧
      IsProperText text := ⟨otherText, hotherText, isProperText_otherText⟩
  obtain ⟨⟨e, -, hvalue, hrun⟩, -⟩ := settings_are_layered_by_key twoFiles
    ⟨none, none, some "html", some "sol.toml", true⟩ hlocal
    (fun name hname => Option.some.inj hname ▸ hother)
  simp only [Option.bind_some, hlocalText, hotherText, textGives?, document?_localText,
    document?_otherText] at hvalue
  refine ⟨hlocal, hother, e, ?_, ?_, ?_, ?_, ?_, ?_, ?_, hrun⟩ <;> rw [hvalue] <;> rfl

end CommandLine

end Highlighting
