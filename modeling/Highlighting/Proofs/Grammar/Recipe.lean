/-
  Highlighting/Proofs/Grammar/Recipe.lean
  =======================================
  **Recipes**: the steps by which a grammar is built, as data.

  A description says of a mode what it starts from and one thing after another
  about it.  A step adds or defines the mode of a description, sets a number
  aside, or asks for a shared mode; where it fails, the builder stays as it is.

  A recipe can be made lenient, which leaves out whatever is said to be illegal.
  It then builds the same modes, none of which has an illegal pattern
  (`Builder.follow_lenient`).
-/
import Highlighting.Grammar.Builder

namespace Highlighting

/-! ### What is illegal is left out -/

def ModeDecl.lenient (m : ModeDecl) : ModeDecl := { m with illegal := none }

def LanguageDecl.lenient (l : LanguageDecl) : LanguageDecl := { l with illegal := none }

def Builder.lenient (b : Builder) : Builder :=
  { b with modes := b.modes.map (·.map ModeDecl.lenient) }

/-! ### Descriptions of modes -/

/-- One thing that is said of a mode. -/
inductive Trait where
  | scope (s : Scope)
  | opener (p : PatternDecl)
  | openingWords (words : List String)
  | ending (e : Ending PatternDecl)
  | endsParent
  | excludesBegin
  | excludesEnd
  | keywords (table : KeywordTable)
  | illegal (p : PatternDecl)
  | relevance (r : UInt32)
  | contains (modes : List Nat)
  | alsoContains (mode : Nat)

namespace Trait

def give (m : ModeDecl) : Trait → ModeDecl
  | scope s => { m with scope := some s }
  | opener p => { m with opener := some p }
  | openingWords words => m.openedByWords words
  | ending e => { m with ending := e }
  | endsParent => { m with endsParent := true }
  | excludesBegin => { m with excludesBegin := true }
  | excludesEnd => { m with excludesEnd := true }
  | keywords table => { m with keywords := some table }
  | illegal p => { m with illegal := some p }
  | relevance r => { m with relevance := some r }
  | contains modes => { m with contains := modes }
  | alsoContains mode => { m with contains := m.contains ++ [mode] }

def isIllegal : Trait → Bool
  | illegal _ => true
  | _ => false

theorem lenient_give (m : ModeDecl) (t : Trait) :
    (t.give m).lenient = if t.isIllegal then m.lenient else t.give m.lenient := by
  cases t <;> rfl

theorem lenient_foldl (traits : List Trait) (m : ModeDecl) :
    (traits.foldl give m).lenient =
      (traits.filter fun t => !t.isIllegal).foldl give m.lenient := by
  induction traits generalizing m with
  | nil => rfl
  | cons t traits ih =>
    rw [List.foldl_cons, ih, lenient_give, List.filter_cons]
    cases t.isIllegal <;> rfl

end Trait

/-- What a mode starts from. -/
inductive Base where
  | blank
  | title (written : String)
  | inherited (index : Nat)

structure Description where
  base : Base
  traits : List Trait

namespace Description

def start : Base → Construct ModeDecl
  | .blank => pure .blank
  | .title written => pure (.title written)
  | .inherited index => Builder.inherit index

def declare (d : Description) : Construct ModeDecl := fun b =>
  (start d.base b).map fun (m, b) => (d.traits.foldl Trait.give m, b)

def lenient (d : Description) : Description :=
  { d with traits := d.traits.filter fun t => !t.isIllegal }

/-- What a lenient builder starts from is what it would be, made lenient. -/
theorem start_lenient (base : Base) (b : Builder) :
    start base b.lenient = (start base b).map fun (m, b) => (m.lenient, b.lenient) := by
  cases base with
  | blank => rfl
  | title written => rfl
  | inherited index =>
    simp only [start, Builder.inherit, Builder.lenient, Array.getElem?_map]
    cases b.modes[index]? with
    | none => rfl
    | some slot => cases slot <;> rfl

theorem declare_lenient (d : Description) (b : Builder) :
    d.lenient.declare b.lenient = (d.declare b).map fun (m, b) => (m.lenient, b.lenient) := by
  rw [declare, declare, lenient, start_lenient]
  cases start d.base b with
  | error e => rfl
  | ok result => simp [Except.map, Trait.lenient_foldl]

end Description

/-! ### Steps -/

inductive BuildStep where
  | add (d : Description)
  | reserve
  | define (index : Nat) (d : Description)
  | doctag
  | lineComment
  | blockComment
  | escape

namespace BuildStep

def construct : BuildStep → Construct Unit
  | add d => do discard (Builder.add (← d.declare))
  | reserve => discard Builder.reserve
  | define index d => do Builder.define index (← d.declare)
  | doctag => discard Builder.doctag
  | lineComment => discard Builder.lineComment
  | blockComment => discard Builder.blockComment
  | escape => discard Builder.escape

def lenient : BuildStep → BuildStep
  | add d => add d.lenient
  | define index d => define index d.lenient
  | step => step

end BuildStep

/-! ### Lenient constructions -/

/-- The construction does to a lenient builder what the other one does, made lenient. -/
def Softens {α : Type} (soften : α → α) (c c' : Construct α) : Prop :=
  ∀ b : Builder, c' b.lenient = (c b).map fun (a, b) => (soften a, b.lenient)

namespace Softens

theorem pure {α : Type} (a : α) : Softens id (Pure.pure a) (Pure.pure a) := fun _ => rfl

theorem bind {α β : Type} {soften : α → α} {soften' : β → β} {c c' : Construct α}
    {k k' : α → Construct β} (h : Softens soften c c')
    (hk : ∀ a, Softens soften' (k a) (k' (soften a))) : Softens soften' (c >>= k) (c' >>= k') := by
  intro b
  show (c' b.lenient >>= fun p => k' p.1 p.2) = (c b >>= fun p => k p.1 p.2).map _
  rw [h b]
  cases c b with
  | error e => rfl
  | ok p => exact hk p.1 p.2

theorem discard {α : Type} {soften : α → α} {c c' : Construct α} (h : Softens soften c c') :
    Softens id (Functor.discard c) (Functor.discard c') := by
  intro b
  show (c' b.lenient >>= fun p => .ok ((), p.2)) = (c b >>= fun p => .ok ((), p.2)).map _
  rw [h b]
  cases c b <;> rfl

theorem get : Softens Builder.lenient MonadState.get MonadState.get := fun _ => rfl

theorem add (m : ModeDecl) : Softens id (Builder.add m) (Builder.add m.lenient) := by
  intro b
  simp [Builder.add, Builder.lenient, Except.map]

theorem reserve : Softens id Builder.reserve Builder.reserve := by
  intro b
  simp [Builder.reserve, Builder.lenient, Except.map]

theorem define (index : Nat) (m : ModeDecl) :
    Softens id (Builder.define index m) (Builder.define index m.lenient) := by
  intro b
  simp only [Builder.define, Builder.lenient, Array.size_map]
  split
  · simp [Except.map, Array.map_setIfInBounds]
  · rfl

theorem declare (d : Description) : Softens ModeDecl.lenient d.declare d.lenient.declare :=
  d.declare_lenient

/-- A shared mode is added, and its number noted. -/
theorem addShared (m : ModeDecl) {note : Nat → Builder → Builder}
    (h : ∀ n b, (note n b).lenient = note n b.lenient) :
    Softens id (do let n ← Builder.add m; modify (note n); return n)
      (do let n ← Builder.add m.lenient; modify (note n); return n) := by
  have hnote : ∀ n, Softens id (modify (note n)) (modify (note n)) := by
    intro n b
    show Except.ok ((), note n b.lenient) = .ok (id (), (note n b).lenient)
    rw [h, id]
  exact (add m).bind fun n => (hnote n).bind fun _ => .pure n

theorem doctag : Softens id Builder.doctag Builder.doctag := by
  refine get.bind fun b => ?_
  rw [show b.lenient.doctag? = b.doctag? from rfl]
  cases b.doctag? with
  | some n => exact .pure n
  | none => exact addShared _ fun _ _ => rfl

theorem lineComment : Softens id Builder.lineComment Builder.lineComment := by
  refine get.bind fun b => ?_
  rw [show b.lenient.lineComment? = b.lineComment? from rfl]
  cases b.lineComment? with
  | some n => exact .pure n
  | none => exact doctag.bind fun tag => addShared _ fun _ _ => rfl

theorem blockComment : Softens id Builder.blockComment Builder.blockComment := by
  refine get.bind fun b => ?_
  rw [show b.lenient.blockComment? = b.blockComment? from rfl]
  cases b.blockComment? with
  | some n => exact .pure n
  | none => exact doctag.bind fun tag => addShared _ fun _ _ => rfl

theorem escape : Softens id Builder.escape Builder.escape := by
  refine get.bind fun b => ?_
  rw [show b.lenient.escape? = b.escape? from rfl]
  cases b.escape? with
  | some n => exact .pure n
  | none => exact addShared _ fun _ _ => rfl

end Softens

/-- **Each step builds the same for lenient descriptions**, without what is illegal. -/
theorem BuildStep.softens (step : BuildStep) :
    Softens id step.construct step.lenient.construct := by
  cases step with
  | add d => exact (Softens.declare d).bind fun m => (Softens.add m).discard
  | reserve => exact Softens.reserve.discard
  | define index d => exact (Softens.declare d).bind fun m => Softens.define index m
  | doctag => exact Softens.doctag.discard
  | lineComment => exact Softens.lineComment.discard
  | blockComment => exact Softens.blockComment.discard
  | escape => exact Softens.escape.discard

/-! ### Recipes -/

/-- A step that fails leaves the builder as it was. -/
def Builder.take (b : Builder) (step : BuildStep) : Builder :=
  match step.construct b with
  | .ok (_, b') => b'
  | .error _ => b

def Builder.follow (lookbehind : Lookbehind) (steps : List BuildStep) : Builder :=
  steps.foldl Builder.take (.start lookbehind)

theorem Builder.take_lenient (b : Builder) (step : BuildStep) :
    b.lenient.take step.lenient = (b.take step).lenient := by
  rw [take, take, step.softens b]
  cases step.construct b <;> rfl

/-- **A lenient recipe builds the same modes without what is illegal.** -/
theorem Builder.follow_lenient (lookbehind : Lookbehind) (steps : List BuildStep) :
    follow lookbehind (steps.map BuildStep.lenient) = (follow lookbehind steps).lenient := by
  have hall : ∀ b : Builder, (steps.map BuildStep.lenient).foldl take b.lenient =
      (steps.foldl take b).lenient := by
    induction steps with
    | nil => exact fun b => rfl
    | cons step steps ih =>
      intro b
      rw [List.map_cons, List.foldl_cons, take_lenient, ih, List.foldl_cons]
  have hstart : (start lookbehind).lenient = start lookbehind := by simp [start, lenient]
  rw [follow, ← hstart, hall]
  rfl

end Highlighting
