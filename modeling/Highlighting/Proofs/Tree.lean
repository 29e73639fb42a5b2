/-
  Highlighting/Proofs/Tree.lean
  =============================
  **The text of a tree**, read in three ways, and built from an event log.

  The tokens of highlighted text, and its leaves, each have the text of the
  whole when they are put together again (`Highlighted.join_tokens`,
  `Highlighted.join_leaves`).  The fold of an event log into a tree keeps all
  text in order, whatever scopes open and close around it
  (`EventLog.contents_nodes`).
-/
import Highlighting.EventLog

namespace Highlighting

/-! ### Two flat views -/

namespace Node

@[simp] theorem contents_append (ns ms : List Node) :
    contents (ns ++ ms) = contents ns ++ contents ms := by
  induction ns with
  | nil => simp [contents]
  | cons n ns ih => simp [contents, ih, String.append_assoc]

theorem text_token (n : Node) : n.token.text = n.content := by
  cases n <;> simp [token, content]

theorem join_tokens (ns : List Node) :
    String.join ((ns.map token).map (·.text)) = contents ns := by
  induction ns with
  | nil => simp [contents]
  | cons n ns ih => simp [contents, text_token, ← ih, Function.comp_def]

mutual

theorem join_leavesIn (outer : Option Scope) :
    ∀ n : Node, String.join ((n.leavesIn outer).map (·.text)) = n.content
  | text s => by simp [leavesIn, content]
  | region scope children => by
    rw [leavesIn, content, join_allLeavesIn (some scope) children]

theorem join_allLeavesIn (outer : Option Scope) :
    ∀ ns : List Node, String.join ((allLeavesIn outer ns).map (·.text)) = contents ns
  | [] => by simp [allLeavesIn, contents]
  | n :: ns => by
    rw [allLeavesIn, contents, List.map_append, String.join_append, join_leavesIn outer n,
      join_allLeavesIn outer ns]

end

end Node

namespace Highlighted

theorem join_tokens (h : Highlighted) : String.join (h.tokens.map (·.text)) = h.text :=
  Node.join_tokens h.nodes

theorem join_leaves (h : Highlighted) : String.join (h.leaves.map (·.text)) = h.text :=
  Node.join_allLeavesIn none h.nodes

end Highlighted

/-! ### From events to nodes -/

/-- The text that an event adds. -/
def Event.added (source : Source) : Event → String
  | .text s => source.slice s
  | .opened _ => ""
  | .closed => ""

namespace EventLog

def text (source : Source) (log : EventLog) : String :=
  String.join (log.toList.map (·.added source))

namespace Forest

def text (f : Forest) : String :=
  Node.contents f.top.reverse ++
    String.join (f.scopes.reverse.map fun scope => Node.contents scope.2.reverse)

theorem contents_joinText (s : String) (ns : List Node) :
    Node.contents (joinText s ns).reverse = Node.contents ns.reverse ++ s := by
  unfold joinText
  split
  · simp [Node.contents, Node.content, String.append_assoc]
  · simp [Node.contents, Node.content]

/-- What is added at the end of the list in progress is added at the end of the text. -/
theorem text_update {f : Forest} {g : List Node → List Node} {t : String}
    (hg : ∀ ns, Node.contents (g ns).reverse = Node.contents ns.reverse ++ t) :
    (f.update g).text = f.text ++ t := by
  obtain ⟨top, scopes⟩ := f
  cases scopes with
  | nil => simp [update, text, hg]
  | cons scope outer => simp [update, text, hg, String.append_assoc]

theorem text_close (f : Forest) : f.close.text = f.text := by
  obtain ⟨top, scopes⟩ := f
  cases scopes with
  | nil => rfl
  | cons scope outer =>
    obtain ⟨scope, ns⟩ := scope
    have hadd : ∀ ms : List Node, Node.contents (Node.region scope ns.reverse :: ms).reverse =
        Node.contents ms.reverse ++ Node.contents ns.reverse := by
      intro ms
      simp [Node.contents, Node.content]
    rw [close, text_update hadd]
    simp [text, String.append_assoc]

theorem text_step (source : Source) (f : Forest) (e : Event) :
    (f.step source e).text = f.text ++ e.added source := by
  cases e with
  | opened scope => simp [step, text, Event.added, Node.contents]
  | text s => exact text_update (contents_joinText (source.slice s))
  | closed => simp [step, text_close, Event.added]

theorem text_foldl (source : Source) (events : List Event) (f : Forest) :
    (events.foldl (step source) f).text =
      f.text ++ String.join (events.map (·.added source)) := by
  induction events generalizing f with
  | nil => simp
  | cons e events ih => simp [ih, text_step, String.append_assoc]

theorem text_closeMany (n : Nat) (f : Forest) : (closeMany n f).text = f.text := by
  induction n generalizing f with
  | zero => rfl
  | succ n ih => rw [closeMany, ih, text_close]

theorem length_scopes_close (f : Forest) : f.close.scopes.length = f.scopes.length - 1 := by
  obtain ⟨top, scopes⟩ := f
  cases scopes with
  | nil => rfl
  | cons scope outer => cases outer <;> simp [close, update]

theorem length_scopes_closeMany (n : Nat) (f : Forest) :
    (closeMany n f).scopes.length = f.scopes.length - n := by
  induction n generalizing f with
  | zero => rfl
  | succ n ih => rw [closeMany, ih, length_scopes_close, Nat.sub_sub, Nat.add_comm]

end Forest

/-- **The tree of a log has the text of its events.** -/
theorem contents_nodes (log : EventLog) (source : Source) :
    Node.contents (log.nodes source) = log.text source := by
  simp only [nodes, text, ← Array.foldl_toList]
  generalize hf : log.toList.foldl (Forest.step source) Forest.empty = f
  have hclosed : (f.closeMany f.scopes.length).scopes = [] := by
    apply List.eq_nil_of_length_eq_zero
    rw [Forest.length_scopes_closeMany, Nat.sub_self]
  calc Node.contents (f.closeMany f.scopes.length).top.reverse
      = (f.closeMany f.scopes.length).text := by simp [Forest.text, hclosed]
    _ = f.text := Forest.text_closeMany _ _
    _ = String.join (log.toList.map (·.added source)) := by
      rw [← hf, Forest.text_foldl]
      simp [Forest.text, Forest.empty, Node.contents]

/-! ### What the operations do to the text -/

theorem text_push (source : Source) (log : EventLog) (e : Event) :
    text source (log.push e) = log.text source ++ e.added source := by
  simp [text]

@[simp] theorem text_openScope (source : Source) (log : EventLog) (scope : Option Scope) :
    (log.openScope scope).text source = log.text source := by
  cases scope <;> simp [openScope, text_push, Event.added]

@[simp] theorem text_closeScope (source : Source) (log : EventLog) (scope : Option Scope) :
    (log.closeScope scope).text source = log.text source := by
  cases scope <;> simp [closeScope, text_push, Event.added]

theorem text_addText (source : Source) (log : EventLog) (s : Span) :
    (log.addText s).text source = log.text source ++ source.slice s := by
  unfold addText
  split
  · next h =>
    have hle : s.stop ≤ s.start := by simpa [Span.isEmpty] using h
    simp [Source.slice, Source.chars, Array.extract_empty_of_stop_le_start hle]
  · rw [text_push]
    rfl

end EventLog

/-! ### Slices -/

/-- Two stretches of a text side by side are one. -/
theorem Source.slice_append (source : Source) {a b c : Nat} (hab : a ≤ b) (hbc : b ≤ c) :
    source.slice ⟨a, b⟩ ++ source.slice ⟨b, c⟩ = source.slice ⟨a, c⟩ := by
  simp only [slice, chars, ← String.ofList_append, ← Array.toList_append,
    Array.extract_append_extract, Nat.min_eq_left hab, Nat.max_eq_right hbc]

theorem Source.slice_ofString (s : String) :
    (Source.ofString s).slice ⟨0, (Source.ofString s).size⟩ = s := by
  simp [slice, chars, ofString]

end Highlighting
