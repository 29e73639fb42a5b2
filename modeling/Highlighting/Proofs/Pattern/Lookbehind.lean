/-
  Highlighting/Proofs/Pattern/Lookbehind.lean
  ===========================================
  **The two ways to look behind agree.**

  A guard in front of a pattern is written into its expression, which is then
  searched for choice by choice, or it is checked on each match that a matcher
  finds.  Where the two engines prefer the same match at each position
  (`EnginesAgree`) both come to one result: what the lookbehind passes over is
  what the check refuses, and either search goes on one character later.

  That is for patterns that can be compiled in both ways.  Some can only be
  compiled with the guard outside, for there is room for one repetition only
  behind an item of an extended expression.
-/
import Highlighting.Proofs.Pattern

namespace Highlighting

open Search

variable {text : Source} {c : Char} {f : Nat → Option Nat} {pos fuel n : Nat}

/-! ### Plans that look behind first -/

namespace Extended

variable {p rest : Plan}

namespace Plan

/-- The plan goes on as `rest` where the character does not stand in front. -/
inductive LooksBehind (c : Char) : Plan → Plan → Prop where
  | alone : LooksBehind c (.behind true 1 (.set (.range c c))) .skip
  | front (rest : Plan) : LooksBehind c (.seq (.behind true 1 (.set (.range c c))) rest) rest

/-- A match that the plan comes to from a position starts there and ends where `f` says; and
there is none where `f` says so. -/
def Prefers (text : Source) (p : Plan) (f : Nat → Option Nat) : Prop :=
  ∀ since pos n, pos ≤ text.size →
    match p.follow text since reached (.ofPos pos) n with
    | .matched c _ => c.start = pos ∧ f pos = some c.pos
    | .failed _ => f pos = none
    | .cut _ _ => False
    | .exhausted => True

theorem LooksBehind.follow_eq (h : p.LooksBehind c rest) (since : Nat) (goal : Goal)
    (cursor : Cursor) (n : Nat) :
    p.follow text since goal cursor n =
      if text.before? cursor.pos = some c then .failed n
      else (Outcome.failed n).orElse (rest.follow text since goal cursor) := by
  have hguard : ∀ goal : Goal,
      (Plan.behind true 1 (.set (.range c c))).follow text since goal cursor n =
        if text.before? cursor.pos = some c then .failed n
        else (Outcome.failed n).orElse (goal cursor) := by
    intro goal
    have hset : ∀ d : Cursor, (Plan.set (.range c c)).follow text since reached d n =
        if text[d.pos]? = some c then .matched (d.move (d.pos + 1)) n else .failed n := by
      intro d
      rw [follow]
      cases hch : text[d.pos]? with
      | none => simp
      | some ch =>
        have hsingle : (CharSet.range c c).contains ch = (ch == c) :=
          CharSet.contains_single_eq c ch
        simp [hsingle, reached]
    rw [follow]
    cases hpos : cursor.pos with
    | zero => simp [Source.before?]
    | succ k =>
      have hmoved : (cursor.move (k + 1 - 1)).pos = k := rfl
      rw [if_neg (by omega), hset, hmoved]
      by_cases hc : text[k]? = some c <;> simp [Source.before?, hc]
  cases h with
  | alone => exact hguard goal
  | front rest => exact hguard _

/-- **Looking behind is passing over the positions behind the character.** -/
theorem LooksBehind.prefers (h : p.LooksBehind c rest) (hrest : rest.Prefers text f) :
    p.Prefers text fun pos => if text.before? pos = some c then none else f pos := by
  intro since pos n hpos
  rw [h.follow_eq]
  show match (if text.before? pos = some c then _ else _ : Outcome) with
    | .matched c _ => _ | .failed _ => _ | .cut _ _ => False | .exhausted => True
  by_cases hbefore : text.before? pos = some c
  · simp [hbefore]
  · simp only [hbefore, if_false]
    cases n with
    | zero => trivial
    | succ n => exact hrest since pos n hpos

/-- Of a single character both engines say the same. -/
theorem prefers_set (text : Source) (s : CharSet) :
    (Plan.set s).Prefers text (endAt? ((Matcher.listing (.set s)).find text ·)) := by
  intro since pos n hpos
  have hend : endAt? ((Matcher.listing (.set s)).find text ·) pos =
      (Regex.set s).firstEnd? text pos := endAt?_ofEnds hpos
  have hhere : (Cursor.ofPos pos).pos = pos := rfl
  rw [hend, follow, Regex.firstEnd?, Regex.ends, hhere]
  cases text[pos]? with
  | none => rfl
  | some ch =>
    by_cases hch : s.contains ch = true
    · simp [hch, reached, Cursor.ofPos, Cursor.move]
    · simp [hch]

/-- The search tries one position after the other, as long as it has retries. -/
theorem Prefers.search_eq (h : p.Prefers text f) (since : Nat) (hfuel : pos + fuel ≤ text.size + 1)
    (hends : p.search text since fuel pos n ≠ .exhausted) :
    (match p.search text since fuel pos n with
      | .matched c _ => some (⟨c.start, c.pos⟩ : Span)
      | _ => none) = leftmost f fuel pos := by
  induction fuel generalizing pos n with
  | zero => rfl
  | succ fuel ih =>
    have hhere := h since pos n (by omega)
    rw [search] at hends ⊢
    rw [leftmost]
    cases hfollow : p.follow text since reached (.ofPos pos) n with
    | matched c k =>
      rw [hfollow] at hhere
      rw [hhere.2, ← hhere.1]
      rfl
    | failed k =>
      rw [hfollow] at hhere hends
      rw [hhere]
      cases k with
      | zero => exact absurd rfl hends
      | succ k => exact ih (by omega) hends
    | cut level k =>
      rw [hfollow] at hhere
      exact hhere.elim
    | exhausted =>
      rw [hfollow] at hends
      exact absurd rfl hends

/-- No search in the text uses up its retries. -/
def KeepsRetries (text : Source) (p : Plan) : Prop :=
  ∀ pos ≤ text.size, p.search text pos (text.size + 1 - pos) pos retries ≠ .exhausted

theorem Prefers.find_eq (h : p.Prefers text f) (hends : p.KeepsRetries text) (pos : Nat) :
    p.find text pos = ofEnds text.size f pos := by
  rcases Nat.lt_or_ge text.size pos with hgt | hle
  · rw [find, ofEnds, show text.size + 1 - pos = 0 by omega]
    rfl
  · exact h.search_eq pos (by omega) (hends pos hle)

end Plan

end Extended

/-! ### Patterns -/

/-- In the text, the plan looks behind for the character and for the rest prefers at each position
the match that the matcher finds there; and it never uses up its retries. -/
structure EnginesAgree (text : Source) (c : Char) (plan : Extended.Plan) (m : Matcher) : Prop where
  looksBehind : ∃ rest, plan.LooksBehind c rest ∧ rest.Prefers text (endAt? (m.find text ·))
  keepsRetries : plan.KeepsRetries text

/-- Where the declared pattern has a guard in front, the engines agree on it in the text. -/
def PatternDecl.EnginesAgree (text : Source) (p : PatternDecl) : Prop :=
  ∀ c plan m notBefore trim,
    p.compile? .native = some (.regex (.extended plan) none notBefore trim) →
    p.compile? .emulated = some (.regex (.regular m) (some c) notBefore trim) →
    Highlighting.EnginesAgree text c plan m

theorem EnginesAgree.find_eq {plan : Extended.Plan} {m : Matcher}
    (h : EnginesAgree text c plan m) (notBefore : List Char) (trim : Nat) :
    (Pattern.regex (.extended plan) none notBefore trim).find text pos =
      (Pattern.regex (.regular m) (some c) notBefore trim).find text pos := by
  obtain ⟨rest, hguard, hrest⟩ := h.looksBehind
  have hfind := (hguard.prefers hrest).find_eq h.keepsRetries
  have hsteady : IsSteady text.size (plan.find text ·) := isSteady_ofEnds.congr hfind
  have hnative : (Pattern.regex (.extended plan) none notBefore trim).find text pos =
      ofEnds text.size (siftedEnd? (plan.find text ·) (Pattern.guarded none notBefore trim text))
        pos :=
    sift_eq_ofEnds hsteady (fun _ _ => Pattern.start_of_guarded) (Nat.le_refl _)
  have hemulated : (Pattern.regex (.regular m) (some c) notBefore trim).find text pos =
      ofEnds text.size (siftedEnd? (m.find text ·) (Pattern.guarded (some c) notBefore trim text))
        pos :=
    sift_eq_ofEnds (m.isSteady text) (fun _ _ => Pattern.start_of_guarded) (Nat.le_refl _)
  rw [hnative, hemulated]
  apply ofEnds_congr
  intro p _ hp
  -- what is found at one position: the guard in front is asked before, or afterwards
  have hend : endAt? (plan.find text ·) p =
      if text.before? p = some c then none else endAt? (m.find text ·) p := by
    rw [show (plan.find text ·) = ofEnds text.size _ from funext hfind]
    exact endAt?_ofEnds hp
  rw [siftedEnd?, siftedEnd?, hend]
  by_cases hbefore : text.before? p = some c
  · cases endAt? (m.find text ·) p with
    | none => simp [hbefore]
    | some stop => simp [hbefore, Pattern.guarded, Pattern.refuses]
  · have hguarded : ∀ s : Span, s.start = p → Pattern.guarded none notBefore trim text s =
        Pattern.guarded (some c) notBefore trim text s := by
      intro s hs
      have hnone : (text.before? p).any (none == some ·) =
          (text.before? p).any (some c == some ·) := by
        cases hch : text.before? p with
        | none => rfl
        | some ch =>
          have hne : c ≠ ch := fun heq => hbefore (heq ▸ hch)
          simp [hne]
      simp only [Pattern.guarded, Pattern.refuses, hs, hnone]
    simp only [hbefore, if_false]
    cases endAt? (m.find text ·) p with
    | none => rfl
    | some stop => simp [hguarded]

/-- **However the guard in front is realised, a pattern finds the same.** -/
theorem PatternDecl.find_native_eq_find_emulated {p : PatternDecl} {native emulated : Pattern}
    (hnative : p.compile? .native = some native) (hemulated : p.compile? .emulated = some emulated)
    (hagree : p.EnginesAgree text) : native.find text pos = emulated.find text pos := by
  cases p with
  | number => cases hnative; cases hemulated; rfl
  | never => cases hnative; cases hemulated; rfl
  | regex r =>
    obtain ⟨written, notAfter, notBefore, followedBy⟩ := r
    cases notAfter with
    | none => rw [Option.some.inj (hnative.symm.trans hemulated)]
    | some c =>
      obtain ⟨e, he, hnative'⟩ := Option.bind_eq_some_iff.mp hnative
      obtain ⟨plan, hplan, hnative'⟩ := Option.bind_eq_some_iff.mp hnative'
      obtain ⟨r, hr, hemulated'⟩ := Option.bind_eq_some_iff.mp hemulated
      cases hnative'
      cases hemulated'
      exact (hagree c plan _ _ _ hnative hemulated).find_eq _ _

/-- A regular expression that is none when a lookbehind stands in front: the second repetition has
nothing to repeat. -/
theorem PatternDecl.exists_compiles_emulated_only :
    let written := "a**"
    let p := (PatternDecl.ofRegex written).unlessAfter 'b'
    (Regex.parse? written.toList).isSome ∧ p.compile? .native = none ∧
      ∃ q, p.compile? .emulated = some q ∧
        q.find (Source.ofString "baa a") 0 = some ⟨0, 0⟩ ∧
        q.find (Source.ofString "baa a") 4 = some ⟨4, 5⟩ := by
  refine ⟨by decide +kernel, by decide +kernel, _, rfl, ?_⟩
  decide +kernel

end Highlighting
