/-
  Highlighting/Proofs/Tree/Glue.lean
  ==================================
  **Trees side by side.**

  An event on top of other nodes gives the nodes that it gives by itself, glued
  to those (`Forest.step_onto`): a text at the start joins a text at the end of
  what is there.

  The leaves of glued nodes are the leaves of both, where two without a scope
  that meet become one (`leaves_glue`), as long as no scope is without a leaf
  (`Node.HasLeaf`).
-/
import Mathlib.Data.List.Basic
import Highlighting.Proofs.Tree.First

namespace Highlighting

/-- One list of leaves behind another.  An unscoped leaf at the end of the first and an unscoped
one at the start of the second are merged. -/
def Token.join (xs ys : List Token) : List Token :=
  match xs.getLast?, ys with
  | some ⟨none, s⟩, ⟨none, t⟩ :: rest => xs.dropLast ++ ⟨none, s ++ t⟩ :: rest
  | _, _ => xs ++ ys

namespace Token

variable {xs ys zs : List Token} {s t : String}

@[simp] theorem join_nil (xs : List Token) : join xs [] = xs := by
  unfold join
  split
  · next h => cases h
  · exact List.append_nil xs

theorem join_unscoped (xs ys : List Token) (s t : String) :
    join (xs ++ [⟨none, s⟩]) (⟨none, t⟩ :: ys) = xs ++ ⟨none, s ++ t⟩ :: ys := by
  unfold join
  rw [List.getLast?_concat, List.dropLast_concat]

/-- Where a scoped leaf is at the seam, nothing is merged. -/
theorem join_of_scoped
    (h : (∀ t ∈ xs.getLast?, t.scope ≠ none) ∨ ∀ t ∈ ys.head?, t.scope ≠ none) :
    join xs ys = xs ++ ys := by
  unfold join
  split
  · next s t rest hlast =>
    rcases h with h | h
    · exact absurd rfl (h _ hlast)
    · exact absurd rfl (h ⟨none, t⟩ rfl)
  · rfl

theorem join_append (xs : List Token) (hne : ys ≠ []) (zs : List Token) :
    join xs (ys ++ zs) = join xs ys ++ zs := by
  cases ys with
  | nil => exact absurd rfl hne
  | cons y ys =>
    unfold join
    rw [List.cons_append]
    split
    · next s t rest hlast heq =>
      obtain ⟨rfl, rfl⟩ := List.cons.inj heq
      simp [hlast]
    · next hno =>
      split
      · next s t rest hlast heq =>
        obtain ⟨rfl, rfl⟩ := List.cons.inj heq
        exact absurd rfl (hno s t (ys ++ zs) hlast)
      · simp

/-! ### Unscoped leaves -/

theorem join_concat_unscoped (xs : List Token) (s : String) (ys : List Token) :
    join (xs ++ [⟨none, s⟩]) ys = xs ++ join [⟨none, s⟩] ys := by
  cases ys with
  | nil => rw [join_nil, join_nil]
  | cons y ys =>
    obtain ⟨scope, t⟩ := y
    cases scope with
    | none => exact join_unscoped xs ys s t
    | some scope =>
      have hscoped : ∀ u ∈ (⟨some scope, t⟩ :: ys : List Token).head?, u.scope ≠ none := by simp
      rw [join_of_scoped (.inr hscoped), join_of_scoped (.inr hscoped), List.append_assoc]

/-- An unscoped leaf at the end is all that can be merged with what is behind. -/
theorem eq_concat_or_join_eq (xs : List Token) :
    (∃ front s, xs = front ++ [⟨none, s⟩]) ∨ ∀ ys, join xs ys = xs ++ ys := by
  cases hlast : xs.getLast? with
  | none => exact .inr fun ys => join_of_scoped (.inl (by simp [hlast]))
  | some t =>
    obtain ⟨scope, s⟩ := t
    cases scope with
    | none =>
      obtain ⟨front, rfl⟩ := List.getLast?_eq_some_iff.mp hlast
      exact .inl ⟨front, s, rfl⟩
    | some scope => exact .inr fun ys => join_of_scoped (.inl (by simp [hlast]))

/-- An unscoped leaf ahead of others stays ahead, and only gets longer. -/
theorem exists_join_unscoped (s : String) (ys : List Token) :
    ∃ t zs, join [⟨none, s⟩] ys = ⟨none, s ++ t⟩ :: zs := by
  cases ys with
  | nil => exact ⟨"", [], by rw [join_nil, String.append_empty]⟩
  | cons y ys =>
    obtain ⟨scope, t⟩ := y
    cases scope with
    | none => exact ⟨t, ys, rfl⟩
    | some scope => exact ⟨"", ⟨some scope, t⟩ :: ys, by rw [String.append_empty]; rfl⟩

/-- An unscoped leaf may be joined to what is in front of it, or to what is behind it first. -/
theorem join_join_unscoped (xs : List Token) (s : String) (ys : List Token) :
    join (join xs [⟨none, s⟩]) ys = join xs (join [⟨none, s⟩] ys) := by
  rcases eq_concat_or_join_eq xs with ⟨front, t, rfl⟩ | hxs
  · rw [join_unscoped, join_concat_unscoped, join_concat_unscoped]
    cases ys with
    | nil => rfl
    | cons y ys =>
      obtain ⟨scope, u⟩ := y
      cases scope with
      | none =>
        show front ++ ⟨none, t ++ s ++ u⟩ :: ys = front ++ ⟨none, t ++ (s ++ u)⟩ :: ys
        rw [String.append_assoc]
      | some scope => rfl
  · rw [hxs, hxs, join_concat_unscoped]

theorem eq_of_join_eq (ht : t ≠ "") (h : join xs ys = join xs (⟨none, t⟩ :: zs)) :
    ys = ⟨none, t⟩ :: zs := by
  rcases eq_concat_or_join_eq xs with ⟨front, s, rfl⟩ | hxs
  · rw [join_unscoped, join_concat_unscoped] at h
    have hjoin : join [⟨none, s⟩] ys = ⟨none, s ++ t⟩ :: zs := List.append_cancel_left h
    -- without a leaf to merge with, the first one would not get longer
    have hlonger : s ≠ s ++ t := fun heq => ht (String.append_eq_left_iff.mp heq.symm)
    cases ys with
    | nil => exact absurd (congrArg Token.text (List.cons.inj hjoin).1) hlonger
    | cons y ys =>
      obtain ⟨scope, u⟩ := y
      cases scope with
      | none =>
        obtain ⟨hfirst, rfl⟩ := List.cons.inj hjoin
        rw [(String.append_right_inj s).mp (congrArg Token.text hfirst)]
      | some scope => exact absurd (congrArg Token.text (List.cons.inj hjoin).1) hlonger
  · rw [hxs, hxs] at h
    exact List.append_cancel_left h

/-- **An unscoped leaf is behind the others** when it starts what is joined to them. -/
theorem join_eq_join_unscoped_iff (hs : s ≠ "") :
    join xs ys = join (join xs [⟨none, s⟩]) zs ↔ ys = join [⟨none, s⟩] zs := by
  rw [join_join_unscoped]
  refine ⟨fun h => ?_, fun h => by rw [h]⟩
  obtain ⟨t, ws, hws⟩ := exists_join_unscoped s zs
  rw [hws] at h ⊢
  exact eq_of_join_eq (fun hnil => hs (String.append_eq_empty_iff.mp hnil).1) h
end Token

/-! ### Nodes with leaves -/

namespace Node

/-- There is a text in the node. -/
inductive HasLeaf : Node → Prop
  | text (s : String) : HasLeaf (.text s)
  | region {scope : Scope} {n : Node} {children : List Node} (hmem : n ∈ children)
      (hn : HasLeaf n) : HasLeaf (.region scope children)

theorem allLeavesIn_append (outer : Option Scope) (ns ms : List Node) :
    allLeavesIn outer (ns ++ ms) = allLeavesIn outer ns ++ allLeavesIn outer ms := by
  induction ns with
  | nil => rfl
  | cons n ns ih => rw [List.cons_append, allLeavesIn, allLeavesIn, ih, List.append_assoc]

theorem allLeavesIn_ne_nil {outer : Option Scope} {n : Node} {ns : List Node} (hmem : n ∈ ns)
    (h : n.leavesIn outer ≠ []) : allLeavesIn outer ns ≠ [] := by
  obtain ⟨front, rest, rfl⟩ := List.append_of_mem hmem
  rw [allLeavesIn_append, allLeavesIn]
  simp [h]

theorem HasLeaf.leavesIn_ne_nil {n : Node} (h : n.HasLeaf) (outer : Option Scope) :
    n.leavesIn outer ≠ [] := by
  induction h generalizing outer with
  | text s => exact List.cons_ne_nil _ _
  | region hmem _ ih => exact allLeavesIn_ne_nil hmem (ih _)

mutual

theorem scope_of_mem_leavesIn (scope : Scope) :
    ∀ n : Node, ∀ t ∈ n.leavesIn (some scope), t.scope ≠ none
  | .text s, t, ht => by
    rw [leavesIn, List.mem_singleton] at ht
    rw [ht]
    exact Option.some_ne_none scope
  | .region inner children, t, ht => scope_of_mem_allLeavesIn inner children t ht

theorem scope_of_mem_allLeavesIn (scope : Scope) :
    ∀ ns : List Node, ∀ t ∈ allLeavesIn (some scope) ns, t.scope ≠ none
  | [], t, ht => by cases ht
  | n :: ns, t, ht => by
    rcases List.mem_append.mp ht with ht | ht
    · exact scope_of_mem_leavesIn scope n t ht
    · exact scope_of_mem_allLeavesIn scope ns t ht

end

end Node

namespace EventLog.Forest

variable {source : Source} {f : Forest} {top : List Node}

/-! ### Gluing -/

theorem joinText_joinText (s t : String) (ns : List Node) :
    joinText t (joinText s ns) = joinText (s ++ t) ns := by
  cases ns with
  | nil => rfl
  | cons n ns =>
    cases n with
    | text u => simp only [joinText, String.append_assoc]
    | region scope children => rfl

/-- Nodes on top of others, all latest first; two texts that meet are one. -/
def glue : List Node → List Node → List Node
  | [], top => top
  | [.text s], top => joinText s top
  | n :: ns, top => n :: glue ns top

theorem glue_cons (n : Node) {ns : List Node} (hne : ns ≠ []) (top : List Node) :
    glue (n :: ns) top = n :: glue ns top := by
  cases ns with
  | nil => exact absurd rfl hne
  | cons m ns => cases n <;> rfl

theorem glue_region (scope : Scope) (children ns top : List Node) :
    glue (.region scope children :: ns) top = .region scope children :: glue ns top := rfl

theorem glue_joinText (s : String) (ns top : List Node) :
    glue (joinText s ns) top = joinText s (glue ns top) := by
  cases ns with
  | nil => rfl
  | cons n ns =>
    cases n with
    | region scope children => rfl
    | text t =>
      cases ns with
      | nil => exact (joinText_joinText t s top).symm
      | cons m ns => rfl

theorem glue_nil (ns : List Node) : glue ns [] = ns := by
  induction ns with
  | nil => rfl
  | cons n ns ih =>
    cases ns with
    | nil => cases n <;> rfl
    | cons m ns => rw [glue_cons n (List.cons_ne_nil m ns), ih]

/-- The forest on top of further nodes. -/
def onto (top : List Node) (f : Forest) : Forest := { f with top := glue f.top top }

theorem onto_nil (f : Forest) : f.onto [] = f := by
  rw [onto, glue_nil]

theorem update_onto {g : List Node → List Node} (hg : ∀ ns, glue (g ns) top = g (glue ns top)) :
    (f.update g).onto top = (f.onto top).update g := by
  obtain ⟨ns, scopes⟩ := f
  cases scopes with
  | nil => exact congrArg (fun ns => (⟨ns, []⟩ : Forest)) (hg ns)
  | cons s outer => rfl

theorem close_onto (f : Forest) (top : List Node) : f.close.onto top = (f.onto top).close := by
  obtain ⟨ns, scopes⟩ := f
  cases scopes with
  | nil => rfl
  | cons s outer =>
    exact update_onto (f := ⟨ns, outer⟩) fun ns => glue_region s.1 s.2.reverse ns top

theorem step_onto (e : Event) : (f.step source e).onto top = (f.onto top).step source e := by
  cases e with
  | opened scope => rfl
  | text s => exact update_onto fun ns => glue_joinText (source.slice s) ns top
  | closed => exact close_onto f top

/-! ### Leaves of glued nodes -/

theorem leaves_joinText (s : String) (h : ∀ n ∈ top, n.HasLeaf) :
    Node.allLeavesIn none (joinText s top).reverse =
      Token.join (Node.allLeavesIn none top.reverse) [⟨none, s⟩] := by
  cases top with
  | nil => rfl
  | cons n ns =>
    rw [List.reverse_cons, Node.allLeavesIn_append]
    cases n with
    | text t =>
      show Node.allLeavesIn none (Node.text (t ++ s) :: ns).reverse =
        Token.join (Node.allLeavesIn none ns.reverse ++ [⟨none, t⟩]) [⟨none, s⟩]
      rw [Token.join_unscoped, List.reverse_cons, Node.allLeavesIn_append]
      rfl
    | region scope children =>
      show Node.allLeavesIn none (Node.text s :: Node.region scope children :: ns).reverse =
        Token.join (Node.allLeavesIn none ns.reverse ++
          (Node.allLeavesIn (some scope) children ++ [])) [⟨none, s⟩]
      have hleaf : Node.allLeavesIn (some scope) children ≠ [] :=
        (h _ List.mem_cons_self).leavesIn_ne_nil none
      have hscoped : ∀ t ∈ (Node.allLeavesIn none ns.reverse ++
          (Node.allLeavesIn (some scope) children ++ [])).getLast?, t.scope ≠ none := by
        intro t ht
        rw [List.append_nil, List.getLast?_append_of_ne_nil _ hleaf] at ht
        exact Node.scope_of_mem_allLeavesIn scope children t (List.mem_of_getLast? ht)
      rw [Token.join_of_scoped (.inl hscoped), List.reverse_cons, List.reverse_cons,
        Node.allLeavesIn_append, Node.allLeavesIn_append]
      rfl

/-- **The leaves of glued nodes** are the leaves of both, joined where they meet. -/
theorem leaves_glue {ns : List Node} (htop : ∀ n ∈ top, n.HasLeaf) (h : ∀ n ∈ ns, n.HasLeaf) :
    Node.allLeavesIn none (glue ns top).reverse =
      Token.join (Node.allLeavesIn none top.reverse) (Node.allLeavesIn none ns.reverse) := by
  induction ns with
  | nil => exact (Token.join_nil _).symm
  | cons n ns ih =>
    have hns : ∀ m ∈ ns, m.HasLeaf := fun m hm => h m (List.mem_cons_of_mem _ hm)
    by_cases hne : ns = []
    · subst hne
      cases n with
      | text s => exact leaves_joinText s htop
      | region scope children =>
        show Node.allLeavesIn none (Node.region scope children :: top).reverse =
          Token.join _ (Node.allLeavesIn (some scope) children ++ [])
        rw [List.reverse_cons, Node.allLeavesIn_append, Token.join_of_scoped]
        · rfl
        · right
          intro t ht
          rw [List.append_nil] at ht
          exact Node.scope_of_mem_allLeavesIn scope children t (List.mem_of_mem_head? ht)
    · have hleaves : Node.allLeavesIn none ns.reverse ≠ [] := by
        obtain ⟨m, rest, rfl⟩ := List.exists_cons_of_ne_nil hne
        have hm := h m (List.mem_cons_of_mem _ List.mem_cons_self)
        exact Node.allLeavesIn_ne_nil (by simp) (hm.leavesIn_ne_nil none)
      rw [glue_cons n hne, List.reverse_cons, List.reverse_cons, Node.allLeavesIn_append,
        Node.allLeavesIn_append, ih hns, Token.join_append _ hleaves]

end EventLog.Forest

end Highlighting
