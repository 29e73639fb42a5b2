/-
  Highlighting/Proofs/Tree/Labels.lean
  ====================================
  **A tree shows each character in the scope that it was recorded in.**

  Read character by character, the leaves of a tree say which scope is the
  closest to each (`Node.labelled`), and so does a log, where that is the scope
  opened last among those not closed again (`EventLog.labelled`).  The fold
  keeps the two alike, event by event (`Forest.labelled_step`).

  It also keeps trees canonical: no text is empty, and no two stand side by side
  (`Node.AreCanonical`).  For this, the texts of a log have to be stretches of
  the source, as they are in any log that is put together by recording and
  cutting short (`Recorded`).
-/
import Mathlib.Data.List.Chain
import Highlighting.Proofs.Tree.Kept

namespace Highlighting

/-! ### Characters with their scopes -/

/-- The characters of a token, each with its scope. -/
def Token.labelled (t : Token) : List (Char × Option Scope) := t.text.toList.map (·, t.scope)

namespace Node

/-- The characters of all leaves from left to right, each with the closest scope around it;
`outer` is the one around the nodes. -/
def labelled (outer : Option Scope) (ns : List Node) : List (Char × Option Scope) :=
  (allLeavesIn outer ns).flatMap Token.labelled

variable {outer : Option Scope}

@[simp] theorem labelled_nil : labelled outer [] = [] := rfl

@[simp] theorem labelled_append (ns ms : List Node) :
    labelled outer (ns ++ ms) = labelled outer ns ++ labelled outer ms := by
  simp [labelled, allLeavesIn_append]

@[simp] theorem labelled_text (s : String) :
    labelled outer [.text s] = s.toList.map (·, outer) := by
  simp [labelled, allLeavesIn, leavesIn, Token.labelled]

@[simp] theorem labelled_region (scope : Scope) (children : List Node) :
    labelled outer [.region scope children] = labelled (some scope) children := by
  simp [labelled, allLeavesIn, leavesIn]

end Node

namespace EventLog

/-- The characters of events in order, each with the scope opened last among those that are not
closed again in front of it.  `scopes` are open at the start, innermost first. -/
def labelledFrom (source : Source) : List Scope → List Event → List (Char × Option Scope)
  | _, [] => []
  | scopes, .opened scope :: es => labelledFrom source (scope :: scopes) es
  | scopes, .text s :: es => (source.chars s).map (·, scopes.head?) ++ labelledFrom source scopes es
  -- with no scope open there is nothing to close
  | scopes, .closed :: es => labelledFrom source scopes.tail es

def labelled (log : EventLog) (source : Source) : List (Char × Option Scope) :=
  labelledFrom source [] log.toList

namespace Forest

variable {source : Source} {f : Forest}

/-- The characters of all nodes so far; what is in a scope comes behind what is around it. -/
def labelled (f : Forest) : List (Char × Option Scope) :=
  Node.labelled none f.top.reverse ++
    f.scopes.reverse.flatMap fun s => Node.labelled (some s.1) s.2.reverse

theorem labelled_update {g : List Node → List Node} {cs : List (Char × Option Scope)}
    (hg : ∀ ns, Node.labelled f.closest (g ns).reverse =
      Node.labelled f.closest ns.reverse ++ cs) :
    (f.update g).labelled = f.labelled ++ cs := by
  obtain ⟨top, scopes⟩ := f
  cases scopes with
  | nil =>
    have htop := hg top
    simp only [closest, List.head?_nil, Option.map_none] at htop
    simp [update, labelled, htop]
  | cons s outer =>
    have hinner := hg s.2
    simp only [closest, List.head?_cons, Option.map_some] at hinner
    simp [update, labelled, hinner]

theorem labelled_joinText (scope : Option Scope) (s : String) (ns : List Node) :
    Node.labelled scope (joinText s ns).reverse =
      Node.labelled scope ns.reverse ++ s.toList.map (·, scope) := by
  unfold joinText
  split <;> simp

/-- A scope that closes keeps its characters, and they stay where they were. -/
theorem labelled_close (f : Forest) : f.close.labelled = f.labelled := by
  obtain ⟨top, scopes⟩ := f
  cases scopes with
  | nil => rfl
  | cons s outer =>
    have hregion : ∀ ns, Node.labelled (closest ⟨top, outer⟩)
        (Node.region s.1 s.2.reverse :: ns).reverse =
          Node.labelled (closest ⟨top, outer⟩) ns.reverse ++
            Node.labelled (some s.1) s.2.reverse := by
      intro ns
      simp
    have hclose := labelled_update hregion
    simpa [close, labelled] using hclose

/-- **One event**: what the forest shows with the events still to come stays the same. -/
theorem labelled_step (e : Event) (es : List Event) :
    (f.step source e).labelled ++
        labelledFrom source ((f.step source e).scopes.map Prod.fst) es =
      f.labelled ++ labelledFrom source (f.scopes.map Prod.fst) (e :: es) := by
  cases e with
  | opened scope => simp [step, labelledFrom, labelled]
  | text s =>
    have hjoin := labelled_update (f := f) fun ns =>
      labelled_joinText f.closest (source.slice s) ns
    simp only [step, hjoin, map_fst_update, labelledFrom, List.append_assoc]
    simp [Source.slice, closest]
  | closed => simp only [step, labelled_close, map_fst_close, labelledFrom]

/-- All events, one after the other. -/
theorem labelled_foldl (es : List Event) :
    (es.foldl (step source) f).labelled =
      f.labelled ++ labelledFrom source (f.scopes.map Prod.fst) es := by
  induction es generalizing f with
  | nil => simp [labelledFrom]
  | cons e es ih => rw [List.foldl_cons, ih, labelled_step]

theorem labelled_closeMany (n : Nat) (f : Forest) : (closeMany n f).labelled = f.labelled := by
  induction n generalizing f with
  | zero => rfl
  | succ n ih => rw [closeMany, ih, labelled_close]

end Forest

/-- **The leaves of the tree are the characters of the log, each in its scope.** -/
theorem labelled_nodes (log : EventLog) (source : Source) :
    Node.labelled none (log.nodes source) = log.labelled source := by
  obtain ⟨es⟩ := log
  have hfold : (es.foldl (Forest.step source) .empty).labelled = _ := Forest.labelled_foldl es
  have hfinished : (Forest.finished source .empty es).labelled = labelledFrom source [] es := by
    rw [Forest.finished, Forest.labelled_closeMany, hfold]
    rfl
  -- in the end no scope is open, so the nodes at the top are all there is
  simpa [nodes_toArray, labelled, Forest.labelled, Forest.scopes_finished] using hfinished

end EventLog

/-! ### Canonical trees -/

namespace Node

def IsText : Node → Prop
  | text _ => True
  | region _ _ => False

/-- Two texts never meet: they would be one. -/
def MayMeet (n m : Node) : Prop := ¬ (n.IsText ∧ m.IsText)

/-- No text in the node is empty, and nowhere in it two texts stand side by side. -/
inductive IsCanonical : Node → Prop
  | text {s : String} (hne : s ≠ "") : IsCanonical (.text s)
  | region {scope : Scope} {children : List Node} (each : ∀ n ∈ children, IsCanonical n)
      (apart : children.IsChain MayMeet) : IsCanonical (.region scope children)

/-- The same of nodes side by side. -/
structure AreCanonical (ns : List Node) : Prop where
  each : ∀ n ∈ ns, n.IsCanonical
  apart : ns.IsChain MayMeet

theorem mayMeet_comm {n m : Node} : MayMeet n m ↔ MayMeet m n := by
  unfold MayMeet
  rw [and_comm]

namespace AreCanonical

variable {ns : List Node}

theorem nil : AreCanonical [] := ⟨by simp, .nil⟩

theorem reverse (h : AreCanonical ns) : AreCanonical ns.reverse := by
  refine ⟨by simpa using h.each, ?_⟩
  rw [List.isChain_reverse]
  exact h.apart.imp fun _ _ hmeet => mayMeet_comm.mp hmeet

theorem cons {n : Node} (h : AreCanonical ns) (hn : n.IsCanonical)
    (hmeet : ∀ m ∈ ns.head?, n.MayMeet m) : AreCanonical (n :: ns) := by
  refine ⟨?_, List.isChain_cons.mpr ⟨hmeet, h.apart⟩⟩
  intro m hm
  rcases List.mem_cons.mp hm with rfl | hm
  · exact hn
  · exact h.each m hm

theorem tail {n : Node} (h : AreCanonical (n :: ns)) : AreCanonical ns :=
  ⟨fun m hm => h.each m (List.mem_cons_of_mem n hm), h.apart.tail⟩

/-- A text that joins one in front of it meets what that one met. -/
theorem joinText (h : AreCanonical ns) {s : String} (hne : s ≠ "") :
    AreCanonical (EventLog.Forest.joinText s ns) := by
  unfold EventLog.Forest.joinText
  split
  · next t ns =>
    refine h.tail.cons (.text ?_) ?_
    · simp [hne]
    · exact (List.isChain_cons.mp h.apart).1
  · next hno =>
    refine h.cons (.text hne) ?_
    intro m hm hmeet
    obtain ⟨rest, rfl⟩ : ∃ rest, ns = m :: rest := List.head?_eq_some_iff.mp hm
    cases m with
    | text t => exact hno t rest rfl
    | region scope children => exact hmeet.2

theorem cons_region (h : AreCanonical ns) {scope : Scope} {children : List Node}
    (hchildren : AreCanonical children) :
    AreCanonical (.region scope children.reverse :: ns) :=
  h.cons (.region hchildren.reverse.each hchildren.reverse.apart) fun _ _ hmeet => hmeet.1

end AreCanonical

end Node

namespace EventLog

namespace Forest

variable {source : Source} {f : Forest}

/-- All that is under construction is canonical. -/
structure IsCanonical (f : Forest) : Prop where
  top : Node.AreCanonical f.top
  scopes : ∀ s ∈ f.scopes, Node.AreCanonical s.2

theorem IsCanonical.update {g : List Node → List Node}
    (hg : ∀ ns, Node.AreCanonical ns → Node.AreCanonical (g ns)) (h : f.IsCanonical) :
    (f.update g).IsCanonical := by
  obtain ⟨top, scopes⟩ := f
  cases scopes with
  | nil => exact ⟨hg top h.top, h.scopes⟩
  | cons s outer =>
    refine ⟨h.top, ?_⟩
    intro s' hs'
    rcases List.mem_cons.mp hs' with rfl | hs'
    · exact hg s.2 (h.scopes s List.mem_cons_self)
    · exact h.scopes s' (List.mem_cons_of_mem s hs')

theorem IsCanonical.close (h : f.IsCanonical) : f.close.IsCanonical := by
  obtain ⟨top, scopes⟩ := f
  cases scopes with
  | nil => exact h
  | cons s outer =>
    have houter : IsCanonical ⟨top, outer⟩ :=
      ⟨h.top, fun s' hs' => h.scopes s' (List.mem_cons_of_mem s hs')⟩
    have hinner : Node.AreCanonical s.2 := h.scopes s List.mem_cons_self
    exact houter.update fun ns hns => hns.cons_region hinner

theorem IsCanonical.step {e : Event} (hshown : ∀ s, e = .text s → source.slice s ≠ "")
    (h : f.IsCanonical) : (f.step source e).IsCanonical := by
  cases e with
  | opened scope =>
    refine ⟨h.top, ?_⟩
    intro s hs
    rcases List.mem_cons.mp hs with rfl | hs
    · exact .nil
    · exact h.scopes s hs
  | text s => exact h.update fun ns hns => hns.joinText (hshown s rfl)
  | closed => exact h.close

end Forest

variable {source : Source} {log : EventLog}

/-- **Nodes are canonical** when every text of the log has a character. -/
theorem canonical_nodes (hshown : ∀ s, Event.text s ∈ log → source.slice s ≠ "") :
    Node.AreCanonical (log.nodes source) := by
  obtain ⟨es⟩ := log
  have hempty : Forest.empty.IsCanonical := ⟨.nil, by simp [Forest.empty]⟩
  have hfinished : (Forest.finished source .empty es).IsCanonical := by
    refine Forest.finished_inv (fun f e he hf => hf.step ?_) (fun f hf => hf.close) hempty
    rintro s rfl
    exact hshown s (by simpa using he)
  rw [nodes_toArray]
  exact hfinished.top.reverse

/-! ### Logs as they are recorded -/

/-- A log that is put together by recording stretches of the source and scopes that open and
close, in any order, and by cutting off what was recorded last. -/
inductive Recorded (source : Source) : EventLog → Prop
  | empty : Recorded source #[]
  | text {log : EventLog} {s : Span} (hlog : Recorded source log) (hs : s.stop ≤ source.size) :
      Recorded source (log.addText s)
  | opened {log : EventLog} (hlog : Recorded source log) (scope : Option Scope) :
      Recorded source (log.openScope scope)
  | closed {log : EventLog} (hlog : Recorded source log) (scope : Option Scope) :
      Recorded source (log.closeScope scope)
  | shrunk {log : EventLog} (hlog : Recorded source log) (n : Nat) :
      Recorded source (log.shrink n)

theorem Recorded.slice_ne_empty (h : Recorded source log) {s : Span}
    (hs : Event.text s ∈ log) : source.slice s ≠ "" := by
  induction h with
  | empty => simp at hs
  | @text log s' hlog hbound ih =>
    unfold addText at hs
    split at hs
    · exact ih hs
    · next hne =>
      rcases Array.mem_push.mp hs with hs | hs
      · exact ih hs
      · obtain rfl : s = s' := by simpa using hs
        have hlt : s.start < s.stop := by simpa [Span.isEmpty] using hne
        simp only [Source.slice, Source.chars, ne_eq, String.ofList_eq_empty_iff]
        intro hnil
        have hlength := congrArg List.length hnil
        simp at hlength
        omega
  | opened hlog scope ih =>
    cases scope with
    | none => exact ih hs
    | some scope => exact ih (by simpa [openScope] using hs)
  | closed hlog scope ih =>
    cases scope with
    | none => exact ih hs
    | some scope => exact ih (by simpa [closeScope] using hs)
  | shrunk hlog n ih =>
    apply ih
    rw [Array.mem_def, Array.toList_shrink] at hs
    exact Array.mem_def.mpr (List.mem_of_mem_take hs)

/-- **The tree of a log shows what was recorded**: its leaves are the characters of the texts in
order, each in the scope that was opened last before it and not closed again, and no text in it
is empty or next to another one. -/
theorem nodes_show_recorded (h : Recorded source log) :
    Node.labelled none (log.nodes source) = log.labelled source ∧
      Node.AreCanonical (log.nodes source) :=
  ⟨labelled_nodes log source, canonical_nodes fun _ => h.slice_ne_empty⟩

/-- A close with nothing to close, two texts that become one, a scope that is cut off again, and
one that stays open. -/
theorem nodes_show_unbalanced_log :
    Node.labelled none (EventLog.nodes #[.closed, .text ⟨0, 1⟩, .text ⟨1, 2⟩, .opened .string,
        .text ⟨2, 4⟩] (Source.ofString "ab'c")) =
      [('a', none), ('b', none), ('\'', some .string), ('c', some .string)] ∧
    Node.AreCanonical (EventLog.nodes #[.closed, .text ⟨0, 1⟩, .text ⟨1, 2⟩, .opened .string,
        .text ⟨2, 4⟩] (Source.ofString "ab'c")) := by
  have hsize : (Source.ofString "ab'c").size = 4 := by decide
  have hplain : Recorded (Source.ofString "ab'c") #[.closed, .text ⟨0, 1⟩, .text ⟨1, 2⟩] :=
    ((Recorded.empty.closed (some .string)).text (s := ⟨0, 1⟩) (by simp [hsize])).text
      (s := ⟨1, 2⟩) (by simp [hsize])
  have hcut : Recorded (Source.ofString "ab'c") #[.closed, .text ⟨0, 1⟩, .text ⟨1, 2⟩] :=
    ((hplain.opened (some .comment)).text (s := ⟨2, 3⟩) (by simp [hsize])).shrunk 3
  obtain ⟨hlabelled, hcanonical⟩ :=
    nodes_show_recorded ((hcut.opened (some .string)).text (s := ⟨2, 4⟩) (by simp [hsize]))
  exact ⟨hlabelled.trans (by decide), hcanonical⟩

end EventLog

end Highlighting
