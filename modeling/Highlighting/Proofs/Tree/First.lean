/-
  Highlighting/Proofs/Tree/First.lean
  ===================================
  **The first node of a log** is known from its first event.

  Events are added at the end, and only a text can grow there.  So what comes
  first at the top stays, as a text or as a scope of the same kind
  (`Forest.finished_inv`): a log that starts with text has a text as its first
  node, and one that starts with a scope has that scope.
-/
import Highlighting.Proofs.Tree

namespace Highlighting

namespace EventLog.Forest

variable {source : Source} {f : Forest} {e : Event} {es : List Event} {scope : Scope}

/-- The first node at the top is of a kind. -/
def First (kind : Node → Prop) (ns : List Node) : Prop := ∃ n, ns.getLast? = some n ∧ kind n

/-- A text of the kind is still one when it grows. -/
def LetsGrow (kind : Node → Prop) : Prop := ∀ s t, kind (.text s) → kind (.text (s ++ t))

theorem First.cons {kind : Node → Prop} {ns : List Node} (h : First kind ns) (n : Node) :
    First kind (n :: ns) := by
  obtain ⟨m, hm, hkind⟩ := h
  refine ⟨m, ?_, hkind⟩
  rw [List.getLast?_cons, hm]
  rfl

theorem First.joinText {kind : Node → Prop} {ns : List Node} (hgrow : LetsGrow kind)
    (h : First kind ns) (s : String) : First kind (Forest.joinText s ns) := by
  unfold Forest.joinText
  split
  · next t ns =>
    obtain ⟨m, hm, hkind⟩ := h
    cases ns with
    | nil =>
      obtain rfl : Node.text t = m := Option.some.inj hm
      exact ⟨.text (t ++ s), rfl, hgrow t s hkind⟩
    | cons n ns => exact ⟨m, hm, hkind⟩
  · exact h.cons _

theorem first_update {kind : Node → Prop} {g : List Node → List Node}
    (hg : ∀ ns, First kind ns → First kind (g ns)) (h : First kind f.top) :
    First kind (f.update g).top := by
  obtain ⟨top, scopes⟩ := f
  cases scopes with
  | nil => exact hg top h
  | cons s outer => exact h

theorem first_close {kind : Node → Prop} (h : First kind f.top) : First kind f.close.top := by
  obtain ⟨top, scopes⟩ := f
  cases scopes with
  | nil => exact h
  | cons s outer => exact first_update (f := ⟨top, outer⟩) (fun _ hns => hns.cons _) h

theorem first_step {kind : Node → Prop} (hgrow : LetsGrow kind) (h : First kind f.top) :
    First kind (f.step source e).top := by
  cases e with
  | opened scope => exact h
  | text s => exact first_update (fun _ hns => hns.joinText hgrow _) h
  | closed => exact first_close h

/-- The first scope at the top, closed or still open, is this one. -/
def Heads (scope : Scope) (f : Forest) : Prop :=
  First (fun n => ∃ ns, n = .region scope ns) f.top ∨
    f.top = [] ∧ ∃ ns, f.scopes.getLast? = some (scope, ns)

theorem letsGrow_region : LetsGrow fun n => ∃ ns, n = .region scope ns := by
  rintro s t ⟨ns, h⟩
  cases h

theorem heads_update {g : List Node → List Node}
    (hkeep : ∀ ns, First (fun n => ∃ ms, n = Node.region scope ms) ns →
      First (fun n => ∃ ms, n = Node.region scope ms) (g ns))
    (h : Heads scope f) : Heads scope (f.update g) := by
  rcases h with h | ⟨htop, ns, hlast⟩
  · exact .inl (first_update hkeep h)
  · obtain ⟨top, scopes⟩ := f
    cases scopes with
    | nil => cases hlast
    | cons s outer =>
      refine .inr ⟨htop, ?_⟩
      cases outer with
      | nil =>
        obtain rfl : s = (scope, ns) := Option.some.inj hlast
        exact ⟨g ns, rfl⟩
      | cons s' outer => exact ⟨ns, hlast⟩

theorem heads_close (h : Heads scope f) : Heads scope f.close := by
  rcases h with h | ⟨htop, ns, hlast⟩
  · exact .inl (first_close h)
  · obtain ⟨top, scopes⟩ := f
    cases scopes with
    | nil => cases hlast
    | cons s outer =>
      obtain rfl : top = [] := htop
      cases outer with
      | nil =>
        obtain rfl : s = (scope, ns) := Option.some.inj hlast
        exact .inl ⟨_, rfl, ns.reverse, rfl⟩
      | cons s' outer =>
        refine .inr ⟨rfl, ?_⟩
        cases outer with
        | nil =>
          obtain rfl : s' = (scope, ns) := Option.some.inj hlast
          exact ⟨_, rfl⟩
        | cons s'' outer => exact ⟨ns, hlast⟩

theorem heads_step (h : Heads scope f) : Heads scope (f.step source e) := by
  cases e with
  | opened scope' =>
    rcases h with h | ⟨htop, ns, hlast⟩
    · exact .inl h
    · refine .inr ⟨htop, ns, ?_⟩
      simp only [step, List.getLast?_cons, hlast]
      rfl
  | text s =>
    exact heads_update (fun _ hns => hns.joinText letsGrow_region _) h
  | closed => exact heads_close h

/-- The forest after the events, with what is still open closed. -/
def finished (source : Source) (f : Forest) (es : List Event) : Forest :=
  let last := es.foldl (step source) f
  last.closeMany last.scopes.length

theorem scopes_finished (f : Forest) (es : List Event) : (finished source f es).scopes = [] := by
  apply List.eq_nil_of_length_eq_zero
  rw [finished, length_scopes_closeMany, Nat.sub_self]

/-- What every event and every close keeps holds in the end. -/
theorem finished_inv {P : Forest → Prop} {es : List Event}
    (hstep : ∀ f, ∀ e ∈ es, P f → P (f.step source e)) (hclose : ∀ f : Forest, P f → P f.close)
    (h : P f) : P (finished source f es) := by
  have hclosed : ∀ n f, P f → P (closeMany n f) := by
    intro n
    induction n with
    | zero => exact fun _ h => h
    | succ n ih => exact fun f h => ih _ (hclose f h)
  induction es generalizing f with
  | nil => exact hclosed _ _ h
  | cons e es ih =>
    exact ih (fun f e he => hstep f e (List.mem_cons_of_mem _ he)) (hstep f e List.mem_cons_self h)

end EventLog.Forest

namespace EventLog

open Forest

variable {source : Source} {es : List Event} {scope : Scope}

theorem nodes_toArray (es : List Event) :
    EventLog.nodes es.toArray source = (finished source Forest.empty es).top.reverse := by
  rw [EventLog.nodes, List.foldl_toArray]
  rfl

/-- The first node that some events put at the top stays there, whatever comes behind them. -/
theorem exists_head?_nodes_append {kind : Node → Prop} (hgrow : LetsGrow kind)
    (h : First kind (es.foldl (step source) Forest.empty).top) (rest : List Event) :
    ∃ n, (EventLog.nodes (es ++ rest).toArray source).head? = some n ∧ kind n := by
  have hfinished : finished source Forest.empty (es ++ rest) =
      finished source (es.foldl (step source) Forest.empty) rest := by
    simp only [finished, List.foldl_append]
  rw [nodes_toArray, List.head?_reverse, hfinished]
  exact finished_inv (P := fun f => First kind f.top) (fun _ _ _ => first_step hgrow)
    (fun _ => first_close) h

/-- A log that starts with a scope has that scope as its first node. -/
theorem head?_nodes_opened (es : List Event) :
    ∃ ns, (EventLog.nodes (Event.opened scope :: es).toArray source).head? =
      some (.region scope ns) := by
  have hstart : Heads scope ⟨[], [(scope, [])]⟩ := .inr ⟨rfl, [], rfl⟩
  rw [nodes_toArray, List.head?_reverse]
  have hheads : Heads scope (finished source ⟨[], [(scope, [])]⟩ es) :=
    finished_inv (P := Heads scope) (fun _ _ _ => heads_step) (fun _ => heads_close) hstart
  rcases hheads with ⟨n, hlast, ns, rfl⟩ | ⟨-, ns, hlast⟩
  · exact ⟨ns, hlast⟩
  · -- in the end no scope is open
    rw [scopes_finished] at hlast
    cases hlast

/-- A log that starts with text has a text as its first node. -/
theorem head?_nodes_text (s : Span) (es : List Event) :
    ∃ t, (EventLog.nodes (Event.text s :: es).toArray source).head? = some (.text t) := by
  have hgrow : LetsGrow fun n => ∃ t, n = .text t := by
    rintro s t ⟨u, h⟩
    exact ⟨s ++ t, rfl⟩
  have hstart : First (fun n => ∃ t, n = .text t)
      ([Event.text s].foldl (step source) Forest.empty).top := ⟨_, rfl, _, rfl⟩
  obtain ⟨n, hhead, t, rfl⟩ := exists_head?_nodes_append hgrow hstart es
  exact ⟨t, hhead⟩

/-- A scope around a text is a node of its own. -/
theorem head?_nodes_enclosed (s : Span) (es : List Event) :
    (EventLog.nodes (Event.opened scope :: .text s :: .closed :: es).toArray source).head? =
      some (.region scope [.text (source.slice s)]) := by
  have hgrow : LetsGrow (· = .region scope [.text (source.slice s)]) := by
    intro s t h
    cases h
  have hstart : First (· = .region scope [.text (source.slice s)])
      ([Event.opened scope, .text s, .closed].foldl (step source) Forest.empty).top := ⟨_, rfl, rfl⟩
  obtain ⟨n, hhead, rfl⟩ := exists_head?_nodes_append hgrow hstart es
  exact hhead

end EventLog

end Highlighting
