/-
  Highlighting/Proofs/Output/Terminal.lean
  ========================================
  **On a terminal each text has the colour of the innermost scope that has one.**

  The renderer hands a colour down the tree and lets a scope with a colour of its
  own replace it.  Read from a text node, that colour is the first one on the way
  out through the scopes around it (`renderNodes_eq_join`): scopes without a
  colour are passed over, and what stands beside a scope does not see its colour.

  All that is added to the text are escape sequences.  Deleting them, by a rule
  that knows nothing of colours, gives the text back (`withoutSequences_render`).
-/
import Highlighting.Output.Terminal
import Highlighting.Proofs.Tree

namespace Highlighting

/-! ### Text nodes -/

/-- A text node with the scopes around it, the innermost one first. -/
structure TextNode where
  path : List Scope
  text : String
  deriving DecidableEq, Repr

namespace Node

mutual

/-- The text nodes of a node from left to right; `path` is what stands around the node. -/
def textNodesIn (path : List Scope) : Node → List TextNode
  | text s => [⟨path, s⟩]
  | region scope children => allTextNodesIn (scope :: path) children

def allTextNodesIn (path : List Scope) : List Node → List TextNode
  | [] => []
  | n :: ns => n.textNodesIn path ++ allTextNodesIn path ns

end

mutual

/-- The leaves are the text nodes, each with the first scope of its path. -/
theorem leavesIn_eq_map (path : List Scope) :
    ∀ n : Node, n.leavesIn path.head? =
      (n.textNodesIn path).map fun t => ⟨t.path.head?, t.text⟩
  | text _ => rfl
  | region scope children => allLeavesIn_eq_map (scope :: path) children

theorem allLeavesIn_eq_map (path : List Scope) :
    ∀ ns : List Node, allLeavesIn path.head? ns =
      (allTextNodesIn path ns).map fun t => ⟨t.path.head?, t.text⟩
  | [] => rfl
  | n :: ns => by
    rw [allLeavesIn, allTextNodesIn, List.map_append, leavesIn_eq_map path n,
      allLeavesIn_eq_map path ns]

end

end Node

namespace Highlighted

def textNodes (h : Highlighted) : List TextNode := Node.allTextNodesIn [] h.nodes

/-- The text nodes have all of the text, in order. -/
theorem join_textNodes (h : Highlighted) : String.join (h.textNodes.map (·.text)) = h.text := by
  have hleaves : h.leaves = h.textNodes.map fun t => ⟨t.path.head?, t.text⟩ :=
    Node.allLeavesIn_eq_map [] h.nodes
  rw [← join_leaves h, hleaves, List.map_map]
  rfl

end Highlighted

namespace Output.Terminal

/-! ### Colours along a path -/

/-- The colour of the innermost scope of a path that has one. -/
def innermostColor? (theme : Theme) (path : List Scope) : Option Color :=
  path.findSome? theme.color?

/-- A text node as it is shown: bare where no scope around it has a colour, and else between
the sequence of that colour and the one that resets it. -/
def shown (theme : Theme) (t : TextNode) : String :=
  match innermostColor? theme t.path with
  | some c => sequence (parameters c) ++ t.text ++ resetSequence
  | none => t.text

/-- Going into a scope replaces the colour by that of the scope, if it has one. -/
theorem innermostColor?_cons (theme : Theme) (scope : Scope) (path : List Scope) :
    innermostColor? theme (scope :: path) =
      (theme.color? scope <|> innermostColor? theme path) := by
  rw [innermostColor?, List.findSome?_cons]
  cases theme.color? scope <;> rfl

theorem paint_innermostColor? (theme : Theme) (t : TextNode) :
    paint (innermostColor? theme t.path) t.text = shown theme t := by
  unfold paint shown
  cases innermostColor? theme t.path <;> rfl

mutual

theorem renderNode_eq_join (theme : Theme) (path : List Scope) :
    ∀ n : Node, renderNode theme (innermostColor? theme path) n =
      String.join ((n.textNodesIn path).map (shown theme))
  | .text s => by
    rw [renderNode, Node.textNodesIn, List.map_singleton, ← paint_innermostColor?]
    simp
  | .region scope children => by
    rw [renderNode, Node.textNodesIn, ← innermostColor?_cons,
      renderNodes_eq_join theme (scope :: path) children]

/-- **Nodes are shown as their text nodes, one after the other**: the colour that is handed
down is the innermost one of the path. -/
theorem renderNodes_eq_join (theme : Theme) (path : List Scope) :
    ∀ ns : List Node, renderNodes theme (innermostColor? theme path) ns =
      String.join ((Node.allTextNodesIn path ns).map (shown theme))
  | [] => rfl
  | n :: ns => by
    rw [renderNodes, Node.allTextNodesIn, List.map_append, String.join_append,
      renderNode_eq_join theme path n, renderNodes_eq_join theme path ns]

end

/-! ### Escape sequences -/

/-- Whether a character ends an escape sequence that a bracket has opened. -/
def isFinal (c : Char) : Bool := decide ('@' ≤ c) && decide (c ≤ '~')

/-- A text without its escape sequences, each of which goes from an escape character with a
bracket behind it to the next final character.  `inside` says whether the text begins in the
middle of one. -/
def withoutSequences : (inside : Bool) → List Char → List Char
  | _, [] => []
  | true, c :: cs => withoutSequences (!isFinal c) cs
  | false, '\x1b' :: '[' :: cs => withoutSequences true cs
  | false, c :: cs => c :: withoutSequences false cs

variable {us : List Char}

theorem withoutSequences_append (h : '\x1b' ∉ us) (cs : List Char) :
    withoutSequences false (us ++ cs) = us ++ withoutSequences false cs := by
  induction us with
  | nil => rfl
  | cons c us ih =>
    have hne : c ≠ '\x1b' := fun heq => h (heq ▸ List.mem_cons_self)
    rw [List.cons_append, withoutSequences, ih fun hus => h (List.mem_cons_of_mem c hus)]
    · rfl
    · intro cs' heq
      exact absurd heq hne

theorem withoutSequences_inside (h : ∀ c ∈ us, isFinal c = false) (cs : List Char) :
    withoutSequences true (us ++ 'm' :: cs) = withoutSequences false cs := by
  induction us with
  | nil => rfl
  | cons c us ih =>
    rw [List.cons_append, withoutSequences, h c List.mem_cons_self]
    exact ih fun d hd => h d (List.mem_cons_of_mem c hd)

theorem withoutSequences_sequence {ps : String} (h : ∀ c ∈ ps.toList, isFinal c = false)
    (cs : List Char) :
    withoutSequences false ((sequence ps).toList ++ cs) = withoutSequences false cs := by
  have hsplit : (sequence ps).toList ++ cs = '\x1b' :: '[' :: (ps.toList ++ 'm' :: cs) := by
    simp [sequence]
  rw [hsplit, withoutSequences, withoutSequences_inside h]

theorem isFinal_eq_false_of_all (cs : List Char) (h : cs.all (!isFinal ·) = true) :
    ∀ c ∈ cs, isFinal c = false := by
  simpa using h

theorem isFinal_of_isDigit {c : Char} (h : c.isDigit) : isFinal c = false := by
  have hle : c.toNat ≤ '9'.toNat := (Char.isDigit_iff_toNat.mp h).2
  have hlt : ¬ '@' ≤ c := fun hle' => by
    have : '@'.toNat ≤ c.toNat := hle'
    have : '9'.toNat < '@'.toNat := by decide
    omega
  simp [isFinal, hlt]

theorem isFinal_of_mem_toString {n : Nat} {c : Char} (h : c ∈ (toString n).toList) :
    isFinal c = false := by
  rw [Nat.toString_eq_ofList_toDigits, String.toList_ofList] at h
  exact isFinal_of_isDigit (Nat.isDigit_of_mem_toDigits (by decide) (by decide) h)

/-- The parameters of a colour are numbers with semicolons between them. -/
theorem isFinal_of_mem_parameters {color : Color} {c : Char}
    (h : c ∈ (parameters color).toList) : isFinal c = false := by
  cases color with
  | named color =>
    rw [parameters] at h
    split at h
    · rw [String.toList_append, List.mem_append] at h
      have hfixed := isFinal_eq_false_of_all "38;5;".toList (by decide)
      rcases h with h | h
      · exact hfixed c h
      · exact isFinal_of_mem_toString h
    · exact isFinal_eq_false_of_all "39".toList (by decide) c h
  | rgb r g b =>
    simp only [parameters, String.toList_append, List.mem_append] at h
    have hfixed := isFinal_eq_false_of_all "38;2;".toList (by decide)
    have hbetween := isFinal_eq_false_of_all ";".toList (by decide)
    rcases h with ((((h | h) | h) | h) | h) | h
    · exact hfixed c h
    · exact isFinal_of_mem_toString h
    · exact hbetween c h
    · exact isFinal_of_mem_toString h
    · exact hbetween c h
    · exact isFinal_of_mem_toString h

theorem withoutSequences_shown {theme : Theme} {t : TextNode} (h : '\x1b' ∉ t.text.toList)
    (cs : List Char) :
    withoutSequences false ((shown theme t).toList ++ cs) =
      t.text.toList ++ withoutSequences false cs := by
  have hreset := isFinal_eq_false_of_all "39".toList (by decide)
  rw [shown]
  split
  · next color _ =>
    rw [String.toList_append, String.toList_append, List.append_assoc, List.append_assoc,
      withoutSequences_sequence fun c hc => isFinal_of_mem_parameters hc,
      withoutSequences_append h, resetSequence, withoutSequences_sequence hreset]
  · exact withoutSequences_append h cs

theorem withoutSequences_flatMap {theme : Theme} {ts : List TextNode}
    (h : ∀ t ∈ ts, '\x1b' ∉ t.text.toList) :
    withoutSequences false (ts.flatMap fun t => (shown theme t).toList) =
      ts.flatMap fun t => t.text.toList := by
  induction ts with
  | nil => rfl
  | cons t ts ih =>
    rw [List.flatMap_cons, List.flatMap_cons, withoutSequences_shown (h t List.mem_cons_self),
      ih fun u hu => h u (List.mem_cons_of_mem t hu)]

theorem toList_text (h : Highlighted) :
    h.text.toList = h.textNodes.flatMap fun t => t.text.toList := by
  rw [← h.join_textNodes, String.toList_join, List.flatMap_map]

theorem render_eq_join (theme : Theme) (h : Highlighted) :
    render theme h = String.join (h.textNodes.map (shown theme)) :=
  renderNodes_eq_join theme [] h.nodes

/-- Without its escape sequences the output is the text. -/
theorem withoutSequences_render (theme : Theme) {h : Highlighted}
    (hescape : '\x1b' ∉ h.text.toList) :
    withoutSequences false (render theme h).toList = h.text.toList := by
  have hnodes : ∀ t ∈ h.textNodes, '\x1b' ∉ t.text.toList := by
    intro t ht hmem
    rw [toList_text] at hescape
    exact hescape (List.mem_flatMap.mpr ⟨t, ht, hmem⟩)
  rw [render_eq_join, String.toList_join, List.flatMap_map, withoutSequences_flatMap hnodes,
    ← toList_text]

/-- A theme without colours shows every text bare. -/
theorem render_empty (h : Highlighted) : render .empty h = h.text := by
  have hbare : ∀ t : TextNode, shown .empty t = t.text := by
    intro t
    have hnone : innermostColor? .empty t.path = none :=
      List.findSome?_eq_none_iff.mpr fun _ _ => rfl
    rw [shown, hnone]
  rw [render_eq_join, ← h.join_textNodes, funext hbare]

/-- **Colours follow the innermost scope that has one.**  The output is the text nodes from left
to right, each between the sequence of the colour of that scope and the reset, or bare where no
scope around it has a colour.  So the text is what is left when the escape sequences are deleted,
if it has no escape character itself, and it is all there is when the theme is empty. -/
theorem render_follows_innermost_color (theme : Theme) (h : Highlighted) :
    render theme h = String.join (h.textNodes.map fun t =>
        match t.path.findSome? theme.color? with
        | some c => sequence (parameters c) ++ t.text ++ resetSequence
        | none => t.text) ∧
      ('\x1b' ∉ h.text.toList →
        String.ofList (withoutSequences false (render theme h).toList) = h.text) ∧
      render .empty h = h.text := by
  refine ⟨render_eq_join theme h, fun hescape => ?_, render_empty h⟩
  rw [withoutSequences_render theme hescape, String.ofList_toList]

/-- A directive: the parameters in it show its colour, the keyword has its own, and the semicolon
behind it has none. -/
def directive : Highlighted := ⟨"solidity", 0, false,
  [.region .directive
      [.text "pragma ", .region .params [.text "(x)"], .region .keyword [.text "y"]],
    .text ";"]⟩

theorem render_of_directive :
    '\x1b' ∉ directive.text.toList ∧
      render .usual directive = "\x1b[38;5;3mpragma \x1b[39m" ++ "\x1b[38;5;3m(x)\x1b[39m" ++
        "\x1b[38;5;13my\x1b[39m" ++ ";" ∧
      String.ofList (withoutSequences false (render .usual directive).toList) = "pragma (x)y;" := by
  have hescape : '\x1b' ∉ directive.text.toList := by decide
  obtain ⟨hrender, hdeleted, -⟩ := render_follows_innermost_color .usual directive
  exact ⟨hescape, hrender, hdeleted hescape⟩

end Output.Terminal

end Highlighting
