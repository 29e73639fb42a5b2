/-
  Highlighting/Proofs/Pattern/Hygiene.lean
  ========================================
  **Compiling a pattern is hygienic.**

  A written expression is put into a group as text, and the character that has
  to follow is written behind it.  As long as the text stays in its group, this
  compiles exactly if the text is an expression by itself, and there is room
  within the limits for the group and the character
  (`GuardedRegex.isSome_compile?_iff`).

  What is compiled then ends where the expression does in front of that
  character, whichever of its alternatives that takes (`Regex.ends_followedBy`).
  So every match is long enough to leave the character out again
  (`GuardedRegex.canTrim`).

  A guard in front that is written into the expression makes it one of another
  kind, which has backreferences, say, but no repetition of a repetition.
-/
import Highlighting.Proofs.Pattern.Leftmost
import Highlighting.Proofs.Regex.Spliced

namespace Highlighting

open Search

variable {text : Source} {pos s e : Nat} {c : Option Char} {own : Regex}

/-! ### The size of expressions -/

namespace Regex

theorem SizeLimit.size_le_followedBy (limit : SizeLimit) (own : Regex) (c : Option Char) :
    limit.size own ≤ limit.size (own.followedBy c) := by
  cases c with
  | none => exact Nat.le_refl _
  | some ch => exact limit.size_le_joined own ch

/-- What keeps the limits in its group keeps them alone. -/
theorem Piece.Fits.of_enclosed {limit : SizeLimit} {p : Piece} (h : (p.enclosed c).Fits limit) :
    p.Fits limit :=
  ⟨Nat.le_trans (Nat.le_trans (Nat.le_add_right _ 1) (Nat.le_add_right _ _)) h.1,
    Nat.le_trans (limit.size_le_followedBy p.expr c) h.2⟩

end Regex

/-- What the plan finds, the matcher finds where it starts. -/
theorem EnginesAgree.find_start {ch : Char} {plan : Extended.Plan} {m : Matcher} {found : Span}
    (h : EnginesAgree text ch plan m) (hfound : plan.find text pos = some found) :
    m.find text found.start = some found := by
  obtain ⟨rest, hguard, hrest⟩ := h.looksBehind
  rw [(hguard.prefers hrest).find_eq h.keepsRetries] at hfound
  obtain ⟨-, -, hend, -⟩ := ofEnds_eq_some_iff.mp hfound
  split at hend
  · cases hend
  · rw [endAt?] at hend
    split at hend
    · next s hs =>
      obtain ⟨hstart, hstop⟩ := Option.ite_none_right_eq_some.mp hend
      rw [hs, Option.some_inj]
      obtain ⟨start, stop⟩ := s
      cases hstart
      cases hstop
      rfl
    · cases hend

namespace GuardedRegex

variable {r : GuardedRegex} {lookbehind : Lookbehind} {limit : Regex.SizeLimit} {pattern : Pattern}

/-! ### What compiles -/

theorem compile?_of_checked (h : r.notAfter = none ∨ lookbehind = .emulated) :
    r.compile? lookbehind limit = (Regex.parse? r.enclosed limit).map fun e =>
      .regex (.regular (.ofRegex e)) r.notAfter r.notBefore r.trim := by
  rw [compile?.eq_def]
  dsimp only
  split
  · next hguard =>
    rcases h with hnone | hchecked
    · rw [hnone] at hguard
      cases hguard
    · cases hchecked
  · cases Regex.parse? r.enclosed limit <;> rfl

/-- **A pattern compiles if its expression is one by itself**, with room for the group and the
character, and no other does whose text stays in its group. -/
theorem isSome_compile?_iff (hstays : Regex.StaysEnclosed r.written.toList)
    (hchecked : r.notAfter = none ∨ lookbehind = .emulated) :
    (r.compile? lookbehind limit).isSome = true ↔
      ∃ p, Regex.piece? r.written.toList = some p ∧
        Regex.parse? r.written.toList limit = some p.expr ∧
          (p.enclosed r.followedBy).Fits limit := by
  rw [compile?_of_checked hchecked, Option.isSome_map, enclosed_eq, Option.isSome_iff_exists]
  simp only [Regex.parse?_eq_some_iff, Regex.piece?_enclosed hstays, Option.map_eq_some_iff]
  constructor
  · rintro ⟨e, q, ⟨p, hp, rfl⟩, hfits, -⟩
    exact ⟨p, hp, ⟨p, hp, hfits.of_enclosed, rfl⟩, hfits⟩
  · rintro ⟨p, hp, -, hfits⟩
    exact ⟨_, _, ⟨p, hp, rfl⟩, hfits, rfl⟩

/-! ### What is matched -/

/-- **An accepted match is one of the expression.** -/
theorem Accepts.mem_ends (h : r.Accepts own text s e) : e ∈ own.ends text s :=
  (Regex.mem_ends_followedBy.mp (Matcher.mem_ends_of_firstEnd? h.start_le h.preferred)).1

/-- **All alternatives count**: a match is preferred wherever one of the ends has the character
behind it. -/
theorem isSome_preferred_iff (hs : s ≤ text.size) :
    ((Matcher.ofRegex (own.followedBy c)).firstEnd? text s).isSome = true ↔
      ∃ e ∈ own.ends text s, ∀ ch, c = some ch → text[e]? = some ch := by
  constructor
  · intro h
    obtain ⟨stop, hstop⟩ := Option.isSome_iff_exists.mp h
    obtain ⟨e, he, -, hfollows⟩ := Regex.exists_of_firstEnd?_followedBy hs hstop
    exact ⟨e, he, hfollows⟩
  · rintro ⟨e, he⟩
    exact Matcher.isSome_firstEnd? hs (Regex.mem_ends_followedBy.mpr he)

theorem trim_eq (r : GuardedRegex) : r.trim = r.followedBy.toList.length := by
  rw [trim]
  cases r.followedBy <;> rfl

theorem canTrim_regular (r : GuardedRegex) (own : Regex) (text : Source) :
    Pattern.CanTrim text (.regular (.ofRegex (own.followedBy r.followedBy))) r.trim := by
  intro pos found hfound
  have hsteady := Matcher.isSteady (.ofRegex (own.followedBy r.followedBy)) text
  obtain ⟨-, hs, hend, -⟩ := ofEnds_eq_some_iff.mp ((hsteady pos).symm.trans hfound)
  rw [Matcher.endAt?_find _ hs] at hend
  obtain ⟨e, he, hstop, -⟩ := Regex.exists_of_firstEnd?_followedBy hs hend
  rw [trim_eq, hstop]
  exact Nat.add_le_add_right (own.within_of_mem_ends hs he).1 _

/-- **There is something to leave out**: the end of a match never moves before its start. -/
theorem canTrim (hown : Regex.parse? r.written.toList limit = some own)
    (hpattern : r.compile? lookbehind limit = some pattern)
    (hagree : r.EngineAgrees text own pattern) :
    ∃ x notAfter, pattern = .regex x notAfter r.notBefore r.trim ∧
      Pattern.CanTrim text x r.trim := by
  rw [compile?.eq_def] at hpattern
  dsimp only at hpattern
  split at hpattern
  · next c hc =>
    obtain ⟨e, -, hpattern⟩ := Option.bind_eq_some_iff.mp hpattern
    obtain ⟨plan, -, hpattern⟩ := Option.bind_eq_some_iff.mp hpattern
    cases hpattern
    refine ⟨_, _, rfl, fun pos found hfound => ?_⟩
    exact canTrim_regular r own text _ found ((hagree c plan hc rfl).find_start hfound)
  · obtain ⟨e, he, hpattern⟩ := Option.bind_eq_some_iff.mp hpattern
    cases hpattern
    rw [enclosed_eq] at he
    obtain rfl := Regex.eq_of_parse?_enclosed hown he
    exact ⟨_, _, rfl, canTrim_regular r own text⟩

/-! ### Hygiene -/

/-- **Compiling a pattern is hygienic.**  With the guard in front outside the expression, an
expression that stays in its group compiles exactly if it is one by itself and there is room within
the limits, whatever the one on the size is.  An expression that compiles finds the leftmost
accepted matches; these are its own, in front of the character, and any of its ends may be the one
that has the character behind it; and there is always something to leave out. -/
theorem compiling_is_hygienic (r : GuardedRegex) (lookbehind : Lookbehind)
    (limit : Regex.SizeLimit) :
    (Regex.StaysEnclosed r.written.toList → r.notAfter = none ∨ lookbehind = .emulated →
      ((r.compile? lookbehind limit).isSome = true ↔
        ∃ p, Regex.piece? r.written.toList = some p ∧
          Regex.parse? r.written.toList limit = some p.expr ∧
          p.depth + 1 + r.followedBy.toList.length ≤ Regex.deepest ∧
          limit.size (p.expr.followedBy r.followedBy) ≤ limit.most)) ∧
    ∀ own pattern, Regex.parse? r.written.toList limit = some own →
      r.compile? lookbehind limit = some pattern → ∀ text, r.EngineAgrees text own pattern →
      (∀ pos s e, pattern.find text pos = some ⟨s, e⟩ ↔
        pos ≤ s ∧ r.Accepts own text s e ∧
          ∀ p, pos ≤ p → p < s → ∀ e', ¬ r.Accepts own text p e') ∧
      (∀ pos, pattern.find text pos = none ↔ ∀ p e, pos ≤ p → ¬ r.Accepts own text p e) ∧
      (∀ s e, r.Accepts own text s e → s ≤ e ∧ e ∈ own.ends text s) ∧
      (∀ s ≤ text.size,
        ((Matcher.ofRegex (own.followedBy r.followedBy)).firstEnd? text s).isSome = true ↔
          ∃ e ∈ own.ends text s, ∀ c, r.followedBy = some c → text[e]? = some c) ∧
      ∃ x notAfter, pattern = .regex x notAfter r.notBefore r.trim ∧
        ∀ pos found, x.find text pos = some found → found.start + r.trim ≤ found.stop := by
  refine ⟨isSome_compile?_iff, fun own pattern hown hpattern text hagree => ?_⟩
  refine ⟨fun pos s e => ?_, fun pos => ?_, fun s e h => ?_, fun s => isSome_preferred_iff,
    canTrim hown hpattern hagree⟩
  · rw [find_eq_checking hown hpattern hagree, find_checking_eq_some_iff]
  · rw [find_eq_checking hown hpattern hagree, find_checking_eq_none_iff]
  · exact ⟨(own.within_of_mem_ends h.start_le h.mem_ends).1, h.mem_ends⟩

theorem compiling_is_hygienic_of_alternatives :
    (let r : GuardedRegex := ⟨"a|ab", some '.', ['!'], some '('⟩
     let text := Source.ofString "ab("
     (∃ p : Regex.Piece, Regex.parse? r.written.toList = some p.expr ∧
       p.depth + 2 ≤ Regex.deepest) ∧
     ∃ own pattern, Regex.parse? r.written.toList = some own ∧
       r.compile? .emulated = some pattern ∧ r.EngineAgrees text own pattern ∧
       pattern.find text 0 = some ⟨0, 2⟩ ∧ r.Accepts own text 0 2 ∧ 2 ∈ own.ends text 0 ∧
       ∃ x notAfter, pattern = .regex x notAfter ['!'] 1 ∧
         ∀ pos found, x.find text pos = some found → found.start + 1 ≤ found.stop) ∧
    (let r : GuardedRegex := ⟨"x", some '$', [], none⟩
     let text := Source.ofString "$x"
     ∃ own pattern, Regex.parse? r.written.toList = some own ∧
       r.compile? .native = some pattern ∧ r.EngineAgrees text own pattern ∧
       pattern.find text 0 = none ∧ ∀ e, ¬ r.Accepts own text 1 e) := by
  constructor
  · intro r text
    have hstays : Regex.StaysEnclosed r.written.toList := ⟨by decide +kernel, by decide +kernel⟩
    have hown : Regex.parse? r.written.toList = some (.alt (.set (.range 'a' 'a'))
        (.seq (.set (.range 'a' 'a')) (.set (.range 'b' 'b')))) := by
      decide +kernel
    have hpattern : r.compile? .emulated = some (r.checking (.alt (.set (.range 'a' 'a'))
        (.seq (.set (.range 'a' 'a')) (.set (.range 'b' 'b'))))) := by
      decide +kernel
    have hagree : r.EngineAgrees text (.alt (.set (.range 'a' 'a'))
        (.seq (.set (.range 'a' 'a')) (.set (.range 'b' 'b'))))
        (r.checking (.alt (.set (.range 'a' 'a'))
          (.seq (.set (.range 'a' 'a')) (.set (.range 'b' 'b'))))) := by
      intro c plan _ hplan
      cases hplan
    have hfound : (r.checking (.alt (.set (.range 'a' 'a'))
        (.seq (.set (.range 'a' 'a')) (.set (.range 'b' 'b'))))).find text 0 = some ⟨0, 2⟩ := by
      decide +kernel
    obtain ⟨hcompiles, hmatches⟩ := compiling_is_hygienic r .emulated .usual
    obtain ⟨p, -, hp, hdepth, -⟩ :=
      (hcompiles hstays (.inr rfl)).mp (Option.isSome_of_eq_some hpattern)
    obtain ⟨hsome, -, hends, -, htrim⟩ := hmatches _ _ hown hpattern text hagree
    obtain ⟨-, haccepts, -⟩ := (hsome 0 0 2).mp hfound
    exact ⟨⟨p, hp, hdepth⟩, _, _, hown, hpattern, hagree, hfound, haccepts, (hends _ _ haccepts).2,
      htrim⟩
  · intro r text
    have hown : Regex.parse? r.written.toList = some (.set (.range 'x' 'x')) := by decide +kernel
    have hpattern : r.compile? .native = some (.regex (.extended
        (.seq (.behind true 1 (.set (.range '$' '$'))) (.set (.range 'x' 'x')))) none [] 0) := by
      decide +kernel
    have hagree : r.EngineAgrees text (.set (.range 'x' 'x')) (.regex (.extended
        (.seq (.behind true 1 (.set (.range '$' '$'))) (.set (.range 'x' 'x')))) none [] 0) := by
      intro c plan hc hplan
      cases hc
      cases hplan
      have hmatcher : Matcher.ofRegex ((Regex.set (.range 'x' 'x')).followedBy r.followedBy) =
          .listing (.set (.range 'x' 'x')) := by
        decide +kernel
      rw [hmatcher]
      exact ⟨⟨_, .front _, Extended.Plan.prefers_set _ _⟩,
        by unfold Extended.Plan.KeepsRetries; decide +kernel⟩
    have hfound : (Pattern.regex (.extended
        (.seq (.behind true 1 (.set (.range '$' '$'))) (.set (.range 'x' 'x')))) none [] 0).find
          text 0 = none := by
      decide +kernel
    obtain ⟨-, hmatches⟩ := compiling_is_hygienic r .native .usual
    obtain ⟨-, hnone, -⟩ := hmatches _ _ hown hpattern text hagree
    exact ⟨_, _, hown, hpattern, hagree, hfound, fun e => (hnone 0).mp hfound 1 e (Nat.zero_le _)⟩

/-- With the guard written into the expression, what compiles is none by itself, as the reference
to a group, or does not compile though it is one, as the repetition of a repetition.  Groups may be
nested so deeply that there is no room for another one around them.  And what closes the group
around it compiles though it is none by itself, and what ends in a comment does not. -/
theorem exists_unhygienic :
    (let r : GuardedRegex := ⟨"(a)\\1", some 'b', [], none⟩
     Regex.parse? r.written.toList = none ∧ r.compile? .emulated = none ∧
       (r.compile? .native).map (·.find (Source.ofString "aa") 0) = some (some ⟨0, 2⟩)) ∧
    (let r : GuardedRegex := ⟨"a**", some 'b', [], none⟩
     (Regex.parse? r.written.toList).isSome = true ∧ (r.compile? .emulated).isSome = true ∧
       r.compile? .native = none) ∧
    (let r : GuardedRegex :=
      ⟨String.ofList (List.replicate 250 '(' ++ 'a' :: List.replicate 250 ')'), none, [], none⟩
     (Regex.parse? r.written.toList).isSome = true ∧ r.compile? .emulated = none) ∧
    (let r : GuardedRegex := ⟨"a)(?:b", none, [], none⟩
     Regex.parse? r.written.toList = none ∧ (r.compile? .emulated).isSome = true) ∧
    (let r : GuardedRegex := ⟨"(?x)a#", none, [], none⟩
     (Regex.parse? r.written.toList).isSome = true ∧ r.compile? .emulated = none) := by
  have hnested : (let r : GuardedRegex :=
      ⟨String.ofList (List.replicate 250 '(' ++ 'a' :: List.replicate 250 ')'), none, [], none⟩
     (Regex.parse? r.written.toList).isSome = true ∧ r.compile? .emulated = none) := by
    intro r
    have hwritten : r.written.toList = List.replicate 250 '(' ++ 'a' :: List.replicate 250 ')' :=
      String.toList_ofList
    rw [compile?_of_checked (.inl rfl), enclosed_eq, hwritten, Option.map_eq_none_iff]
    exact ⟨by decide +kernel, by decide +kernel⟩
  exact ⟨by decide +kernel, by decide +kernel, hnested, by decide +kernel, by decide +kernel⟩

end GuardedRegex

end Highlighting
