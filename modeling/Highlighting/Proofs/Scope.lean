/-
  Highlighting/Proofs/Scope.lean
  ==============================
  **Names of scopes**: each scope has its own, none is the name for text without
  a scope, and none holds a character that an output gives a meaning to.
-/
import Highlighting.Scope

namespace Highlighting.Scope

theorem ofName?_name (scope : Scope) : ofName? scope.name = some scope := by
  cases scope <;> decide

theorem name_injective : Function.Injective name := by
  intro a b h
  have ha := ofName?_name a
  rw [h, ofName?_name b] at ha
  exact (Option.some.inj ha).symm

/-- No name ends in the middle of an attribute. -/
theorem quote_notMem_name (scope : Scope) : '"' ∉ scope.name.toList := by
  cases scope <;> decide

theorem closing_notMem_name (scope : Scope) : '>' ∉ scope.name.toList := by
  cases scope <;> decide

theorem categoryName_injective : Function.Injective categoryName := by
  have hnone : ∀ scope : Scope, scope.name ≠ "none" := by
    intro scope
    cases scope <;> decide
  intro a b h
  cases a with
  | none =>
    cases b with
    | none => rfl
    | some b => exact absurd h.symm (hnone b)
  | some a =>
    cases b with
    | none => exact absurd h (hnone a)
    | some b => rw [name_injective h]

/-- The name of a category is one word. -/
theorem categoryName_forall_ne (scope : Option Scope) :
    ∀ c ∈ (categoryName scope).toList, c ≠ '\t' ∧ c ≠ '\n' := by
  have hall : (categoryName scope).toList.all (fun c => c != '\t' && c != '\n') = true := by
    cases scope with
    | none => decide
    | some scope => cases scope <;> decide
  simpa using hall

end Highlighting.Scope
