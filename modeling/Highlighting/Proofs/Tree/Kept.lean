/-
  Highlighting/Proofs/Tree/Kept.lean
  ==================================
  **Characters that are kept out of the texts of a scope.**

  A ward bans characters from the texts of some scopes, but right behind a
  character that shields them.  What is kept to in two stretches is kept to in
  both together (`Ward.Keeps.append`), so that it does not matter how the text of
  a scope comes about: nodes under construction keep to a ward as long as every
  text that is added does (`Forest.Kept.update`).
-/
import Highlighting.Proofs.Tree.Glue

namespace Highlighting

/-- The characters that are banned from the texts of a scope, and those that shield them. -/
structure Ward where
  banned : Scope → List Char
  shields : Scope → List Char

/-! ### Texts -/

namespace Ward

variable {w : Ward} {scope : Option Scope} {cs cs' : List Char}

/-- In the text of the scope, banned characters stand right behind shields only. -/
def Keeps (w : Ward) (scope : Option Scope) (cs : List Char) : Prop :=
  ∀ s ∈ scope, ∀ c ∈ w.banned s, ∀ i, cs[i]? = some c →
    ∃ j d, i = j + 1 ∧ cs[j]? = some d ∧ d ∈ w.shields s

theorem Keeps.append (h : w.Keeps scope cs) (h' : w.Keeps scope cs') :
    w.Keeps scope (cs ++ cs') := by
  intro s hs c hc i hi
  rcases Nat.lt_or_ge i cs.length with hlt | hge
  · rw [List.getElem?_append_left hlt] at hi
    obtain ⟨j, d, rfl, hj, hd⟩ := h s hs c hc i hi
    refine ⟨j, d, rfl, ?_, hd⟩
    rw [List.getElem?_append_left (Nat.lt_of_succ_lt hlt)]
    exact hj
  · obtain ⟨i, rfl⟩ := Nat.exists_eq_add_of_le hge
    rw [List.getElem?_append_right hge, Nat.add_sub_cancel_left] at hi
    obtain ⟨j, d, rfl, hj, hd⟩ := h' s hs c hc i hi
    refine ⟨cs.length + j, d, rfl, ?_, hd⟩
    rw [List.getElem?_append_right (Nat.le_add_right _ _), Nat.add_sub_cancel_left]
    exact hj

/-- The characters that are banned where this scope is the closest. -/
def bannedIn (w : Ward) (scope : Option Scope) : List Char := scope.toList.flatMap w.banned

@[simp] theorem bannedIn_none : w.bannedIn none = [] := rfl

@[simp] theorem bannedIn_some (s : Scope) : w.bannedIn (some s) = w.banned s :=
  List.flatMap_singleton ..

/-- The characters behind which those may stand where this scope is the closest. -/
def shieldsIn (w : Ward) (scope : Option Scope) : List Char := scope.toList.flatMap w.shields

@[simp] theorem shieldsIn_some (s : Scope) : w.shieldsIn (some s) = w.shields s :=
  List.flatMap_singleton ..

/-- A text without banned characters keeps to the ward. -/
theorem keeps_of_forall (h : ∀ c ∈ w.bannedIn scope, c ∉ cs) : w.Keeps scope cs := by
  intro s hs c hc i hi
  obtain rfl : scope = some s := hs
  exact absurd (List.mem_of_getElem? hi) (h c (by rwa [bannedIn_some]))

/-- So does a shield with a character behind it. -/
theorem keeps_pair {c d : Char} (hd : d ∈ w.shieldsIn scope) (hbanned : d ∉ w.bannedIn scope) :
    w.Keeps scope [d, c] := by
  intro s hs c' hc' i hi
  obtain rfl : scope = some s := hs
  rw [shieldsIn_some] at hd
  rw [bannedIn_some] at hbanned
  match i, hi with
  | 0, hi =>
    obtain rfl : d = c' := Option.some.inj hi
    exact absurd hc' hbanned
  | 1, _ => exact ⟨0, d, rfl, rfl, hd⟩

/-- The nodes, in a place where the scope is the closest, keep to the ward. -/
def KeepsAll (w : Ward) (scope : Option Scope) (ns : List Node) : Prop :=
  ∀ n ∈ ns, ∀ t ∈ n.leavesIn scope, w.Keeps t.scope t.text.toList

end Ward

/-! ### Nodes -/

theorem Node.mem_allLeavesIn {scope : Option Scope} {t : Token} {ns : List Node} :
    t ∈ allLeavesIn scope ns ↔ ∃ n ∈ ns, t ∈ n.leavesIn scope := by
  induction ns with
  | nil => simp [allLeavesIn]
  | cons n ns ih => rw [allLeavesIn, List.mem_append, ih, List.exists_mem_cons_iff]

namespace Ward.KeepsAll

variable {w : Ward} {scope : Option Scope} {ns : List Node}

theorem nil : w.KeepsAll scope [] := fun _ hn => nomatch hn

theorem cons {n : Node} (h : w.KeepsAll scope ns)
    (hn : ∀ t ∈ n.leavesIn scope, w.Keeps t.scope t.text.toList) : w.KeepsAll scope (n :: ns) := by
  intro m hm
  rcases List.mem_cons.mp hm with rfl | hm
  · exact hn
  · exact h m hm

theorem joinText (h : w.KeepsAll scope ns) {s : String} (hs : w.Keeps scope s.toList) :
    w.KeepsAll scope (EventLog.Forest.joinText s ns) := by
  have htext : ∀ {s : String}, w.Keeps scope s.toList →
      ∀ t ∈ (Node.text s).leavesIn scope, w.Keeps t.scope t.text.toList := by
    intro s hs t ht
    obtain rfl := List.mem_singleton.mp ht
    exact hs
  unfold EventLog.Forest.joinText
  split
  · next t ns =>
    have ht : w.Keeps scope t.toList :=
      h (.text t) List.mem_cons_self ⟨scope, t⟩ (by simp [Node.leavesIn])
    refine cons (fun n hn => h n (List.mem_cons_of_mem _ hn)) (htext ?_)
    rw [String.toList_append]
    exact ht.append hs
  · exact cons h (htext hs)

/-- A region keeps to the ward when what is in it does. -/
theorem region (h : w.KeepsAll scope ns) {inner : Scope} {ms : List Node}
    (hms : w.KeepsAll (some inner) ms) : w.KeepsAll scope (.region inner ms.reverse :: ns) := by
  refine cons h fun t ht => ?_
  obtain ⟨n, hn, ht⟩ := Node.mem_allLeavesIn.mp ht
  exact hms n (List.mem_reverse.mp hn) t ht

end Ward.KeepsAll

/-! ### Nodes under construction -/

namespace EventLog.Forest

variable {w : Ward} {f : Forest}

/-- The closest of the scopes that are open. -/
def closest (f : Forest) : Option Scope := f.scopes.head?.map Prod.fst

/-- All nodes so far keep to the ward. -/
structure Kept (w : Ward) (f : Forest) : Prop where
  top : w.KeepsAll none f.top
  scopes : ∀ s ∈ f.scopes, w.KeepsAll (some s.1) s.2

theorem map_fst_update (f : Forest) (g : List Node → List Node) :
    (f.update g).scopes.map Prod.fst = f.scopes.map Prod.fst := by
  obtain ⟨top, scopes⟩ := f
  cases scopes <;> rfl

theorem map_fst_close (f : Forest) :
    f.close.scopes.map Prod.fst = (f.scopes.map Prod.fst).tail := by
  obtain ⟨top, scopes⟩ := f
  cases scopes with
  | nil => rfl
  | cons s outer => exact map_fst_update ⟨top, outer⟩ _

theorem Kept.update {g : List Node → List Node} (h : f.Kept w)
    (hg : ∀ ns, w.KeepsAll f.closest ns → w.KeepsAll f.closest (g ns)) : (f.update g).Kept w := by
  obtain ⟨top, scopes⟩ := f
  cases scopes with
  | nil => exact ⟨hg top h.top, h.scopes⟩
  | cons s outer =>
    refine ⟨h.top, fun s' hs' => ?_⟩
    rcases List.mem_cons.mp hs' with rfl | hs'
    · exact hg s.2 (h.scopes s List.mem_cons_self)
    · exact h.scopes s' (List.mem_cons_of_mem _ hs')

theorem Kept.open (h : f.Kept w) (scope : Scope) :
    Kept w { f with scopes := (scope, []) :: f.scopes } := by
  refine ⟨h.top, fun s hs => ?_⟩
  rcases List.mem_cons.mp hs with rfl | hs
  · exact .nil
  · exact h.scopes s hs

theorem Kept.close (h : f.Kept w) : f.close.Kept w := by
  obtain ⟨top, scopes⟩ := f
  cases scopes with
  | nil => exact h
  | cons s outer =>
    have hinner := h.scopes s List.mem_cons_self
    have houter : Kept w ⟨top, outer⟩ :=
      ⟨h.top, fun s' hs' => h.scopes s' (List.mem_cons_of_mem _ hs')⟩
    exact houter.update fun ns hns => hns.region hinner

end EventLog.Forest

end Highlighting
