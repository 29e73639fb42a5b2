/-
  Highlighting/Proofs/Tree/Merged.lean
  ====================================
  **Nodes up to the way their texts are cut.**

  An empty text shows nothing, and neither does the seam between two texts side
  by side.  Dropping the one and joining the other, at every depth, gives the
  canonical form of nodes (`Node.allMerged`).

  Read from left to right, nodes are a list of marks: the characters of the
  texts, and the two ends of each scope.  Marks and canonical forms are two
  readings of the same thing (`Node.allMarks_eq_iff`), since a list of marks
  can be gathered into nodes again (`Mark.gather`).
-/
import Highlighting.Proofs.Tree.Labels

namespace Highlighting

/-! ### Canonical forms -/

namespace Node

/-- A text in front of nodes, joined to a text that is there; an empty one is dropped. -/
def prepend (s : String) : List Node → List Node
  | text t :: ns => text (s ++ t) :: ns
  | ns => if s = "" then ns else text s :: ns

/-- A node in front of nodes that stand in their canonical form. -/
def attach : Node → List Node → List Node
  | text s, ns => prepend s ns
  | region scope children, ns => region scope children :: ns

mutual

def merged : Node → Node
  | text s => text s
  | region scope children => region scope (allMerged children)

/-- **The canonical form of nodes**: empty texts are dropped and neighbouring texts merged, in
the children of a region as at the top. -/
def allMerged : List Node → List Node
  | [] => []
  | n :: ns => n.merged.attach (allMerged ns)

end

variable {ns : List Node}

/-- Behind a text that is put in front of a region nothing changes. -/
theorem prepend_region (s : String) (scope : Scope) (children ns : List Node) :
    prepend s (region scope children :: ns) =
      if s = "" then region scope children :: ns else text s :: region scope children :: ns := rfl

@[simp] theorem prepend_empty (ns : List Node) : prepend "" ns = ns := by
  cases ns with
  | nil => rfl
  | cons n ns =>
    cases n with
    | text t => simp [prepend]
    | region scope children => rfl

/-- Two texts one after the other, or both at once. -/
theorem prepend_prepend (s t : String) (ns : List Node) :
    prepend s (prepend t ns) = prepend (s ++ t) ns := by
  by_cases ht : t = ""
  · simp [ht]
  cases ns with
  | nil => simp [prepend, ht]
  | cons n ns =>
    cases n with
    | text u => simp [prepend, String.append_assoc]
    | region scope children => simp [prepend, ht]

theorem AreCanonical.prepend (h : AreCanonical ns) (s : String) :
    AreCanonical (Node.prepend s ns) := by
  by_cases hs : s = ""
  · rwa [hs, prepend_empty]
  cases ns with
  | nil => simpa [Node.prepend, hs] using AreCanonical.nil.cons (.text hs) (by simp)
  | cons n ns =>
    cases n with
    | text t =>
      refine h.tail.cons (.text (by simp [hs])) ?_
      exact (List.isChain_cons.mp h.apart).1
    | region scope children =>
      simp only [prepend_region, if_neg hs]
      refine h.cons (.text hs) ?_
      intro m hm
      obtain rfl : region scope children = m := by simpa using hm
      exact fun hmeet => hmeet.2

/-- A region in its canonical form, whatever text it may be: the children are canonical. -/
def HasCanonicalChildren : Node → Prop
  | text _ => True
  | region _ children => AreCanonical children

theorem AreCanonical.attach {n : Node} (h : AreCanonical ns) (hn : n.HasCanonicalChildren) :
    AreCanonical (n.attach ns) := by
  cases n with
  | text s => exact h.prepend s
  | region scope children => exact h.cons (.region hn.each hn.apart) fun _ _ hmeet => hmeet.1

mutual

theorem hasCanonicalChildren_merged : ∀ n : Node, n.merged.HasCanonicalChildren
  | text _ => trivial
  | region _ children => canonical_allMerged children

theorem canonical_allMerged : ∀ ns : List Node, AreCanonical (allMerged ns)
  | [] => .nil
  | n :: ns => (canonical_allMerged ns).attach (hasCanonicalChildren_merged n)

end

/-- In front of nodes that it may stand next to, a canonical node is put as it is. -/
theorem attach_of_mayMeet {n : Node} (hn : n.IsCanonical) (hmeet : ∀ m ∈ ns.head?, n.MayMeet m) :
    n.attach ns = n :: ns := by
  cases hn with
  | region each apart => rfl
  | @text s hne =>
    cases ns with
    | nil => simp [attach, prepend, hne]
    | cons m ns =>
      cases m with
      | region scope children => simp [attach, prepend_region, hne]
      | text t => exact absurd ⟨trivial, trivial⟩ (hmeet (text t) rfl)

mutual

theorem IsCanonical.merged_eq : ∀ {n : Node}, n.IsCanonical → n.merged = n
  | text _, _ => rfl
  | region scope children, .region each apart => by
    rw [merged, AreCanonical.allMerged_eq ⟨each, apart⟩]

/-- Canonical nodes are their own canonical form. -/
theorem AreCanonical.allMerged_eq : ∀ {ns : List Node}, AreCanonical ns → allMerged ns = ns
  | [], _ => rfl
  | n :: ns, h => by
    have hn : n.IsCanonical := h.each n List.mem_cons_self
    rw [allMerged, hn.merged_eq, h.tail.allMerged_eq]
    exact attach_of_mayMeet hn (List.isChain_cons.mp h.apart).1

end

end Node

/-! ### Marks -/

/-- What a reader of nodes meets, one after the other. -/
inductive Mark where
  | char (c : Char)
  | opened (scope : Scope)
  | closed
  deriving DecidableEq, Repr

namespace Mark

def char? : Mark → Option Char
  | char c => some c
  | opened _ => none
  | closed => none

end Mark

namespace Node

mutual

/-- The marks of a node from left to right. -/
def marks : Node → List Mark
  | text s => s.toList.map .char
  | region scope children => .opened scope :: (allMarks children ++ [.closed])

def allMarks : List Node → List Mark
  | [] => []
  | n :: ns => n.marks ++ allMarks ns

end

theorem allMarks_prepend (s : String) (ns : List Node) :
    allMarks (prepend s ns) = s.toList.map .char ++ allMarks ns := by
  by_cases hs : s = ""
  · simp [hs]
  cases ns with
  | nil => simp [prepend, hs, allMarks, marks]
  | cons n ns =>
    cases n with
    | text t => simp [prepend, allMarks, marks]
    | region scope children => simp [prepend_region, hs, allMarks, marks]

theorem allMarks_attach (n : Node) (ns : List Node) :
    allMarks (n.attach ns) = n.marks ++ allMarks ns := by
  cases n with
  | text s => exact allMarks_prepend s ns
  | region scope children => rfl

mutual

theorem marks_merged : ∀ n : Node, n.merged.marks = n.marks
  | text _ => rfl
  | region scope children => by
    rw [merged, marks, marks, allMarks_allMerged children]

/-- The canonical form has the marks of the nodes. -/
theorem allMarks_allMerged : ∀ ns : List Node, allMarks (allMerged ns) = allMarks ns
  | [] => rfl
  | n :: ns => by
    rw [allMerged, allMarks_attach, marks_merged n, allMarks_allMerged ns, allMarks]

end

mutual

theorem filterMap_marks : ∀ n : Node, n.marks.filterMap Mark.char? = n.content.toList
  | text s => by
    rw [marks, content, List.filterMap_map]
    exact List.filterMap_some
  | region scope children => by
    rw [marks, content, List.filterMap_cons, List.filterMap_append,
      filterMap_allMarks children]
    simp [Mark.char?]

/-- The characters among the marks are the text. -/
theorem filterMap_allMarks :
    ∀ ns : List Node, (allMarks ns).filterMap Mark.char? = (contents ns).toList
  | [] => by simp [allMarks, contents]
  | n :: ns => by
    rw [allMarks, contents, List.filterMap_append, filterMap_marks n, filterMap_allMarks ns,
      String.toList_append]

end

end Node

/-! ### Back to nodes -/

namespace Mark

/-- A mark in front of what stands behind it.  The nodes at the head belong to the scope that the
mark stands in, those below to the scopes around, and what is still missing of each is on its
left. -/
def gather : Mark → List (List Node) → List (List Node)
  | char c, ns :: outer => Node.prepend (String.singleton c) ns :: outer
  | closed, outer => [] :: outer
  | opened scope, children :: ns :: outer => (.region scope children :: ns) :: outer
  | _, outer => outer

/-- The characters of a text, gathered one by one from its end. -/
theorem foldr_gather_chars (cs : List Char) (ns : List Node) (outer : List (List Node)) :
    (cs.map char).foldr gather (ns :: outer) =
      Node.prepend (String.ofList cs) ns :: outer := by
  induction cs with
  | nil => simp
  | cons c cs ih =>
    rw [List.map_cons, List.foldr_cons, ih, gather, Node.prepend_prepend]
    congr 2
    simp

end Mark

namespace Node

open Mark (gather)

mutual

theorem foldr_gather_marks (ns : List Node) (outer : List (List Node)) :
    ∀ n : Node, n.marks.foldr gather (ns :: outer) = n.merged.attach ns :: outer
  | text s => by
    rw [marks, Mark.foldr_gather_chars, String.ofList_toList]
    rfl
  | region scope children => by
    -- the closing mark starts a list for the children, the opening one puts them into a region
    have hclosed : [Mark.closed].foldr gather (ns :: outer) = [] :: ns :: outer := rfl
    rw [marks, List.foldr_cons, List.foldr_append, hclosed,
      foldr_gather_allMarks (ns :: outer) children]
    rfl

/-- **The marks of nodes are gathered into their canonical form.** -/
theorem foldr_gather_allMarks (outer : List (List Node)) :
    ∀ ns : List Node, (allMarks ns).foldr gather ([] :: outer) = allMerged ns :: outer
  | [] => rfl
  | n :: ns => by
    rw [allMarks, List.foldr_append, foldr_gather_allMarks outer ns,
      foldr_gather_marks (allMerged ns) outer n, allMerged]

end

/-- Nodes have the same marks just when they have the same canonical form. -/
theorem allMarks_eq_iff {ns ms : List Node} :
    allMarks ns = allMarks ms ↔ allMerged ns = allMerged ms := by
  constructor
  · intro h
    have hgather := foldr_gather_allMarks [] ns
    rw [h, foldr_gather_allMarks [] ms] at hgather
    exact (List.cons.inj hgather).1.symm
  · intro h
    rw [← allMarks_allMerged ns, h, allMarks_allMerged ms]

end Node

end Highlighting
