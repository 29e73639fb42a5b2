/-
  Highlighting/Proofs/Pattern/Leftmost.lean
  =========================================
  **A pattern finds the leftmost accepted match.**

  What a guarded expression matches is said by its parts alone: at a position
  the expression and the character behind it have a preferred match, and the
  guards let it pass (`GuardedRegex.Accepts`).  The search passes over refused
  matches one at a time, and goes on right behind the start of each, so that it
  comes to the first position where one is accepted (`find_leftmost`).

  An expression with a character behind it matches up to that character: of its
  ends those are left where the character stands, in their order
  (`Regex.ends_followedBy`).
-/
import Highlighting.Proofs.Pattern.Lookbehind
import Highlighting.Proofs.Regex.Enclosed
import Highlighting.Proofs.Regex.Normal

namespace Highlighting

/-! ### An expression with a character behind it -/

section Followed

variable {text : Source} {pos e stop : Nat} {c : Option Char} {own : Regex}

namespace Regex

theorem ends_char (ch : Char) (p : Nat) :
    (char ch).ends text p = if text[p]? = some ch then [p + 1] else [] := by
  rw [char, ends]
  cases hd : text[p]? with
  | none => simp
  | some d => simp [CharSet.contains_single]

/-- **The expression ends in front of the character.**  Of its ends those are left, in their order,
where the character stands. -/
theorem ends_followedBy (own : Regex) (c : Option Char) (text : Source) (p : Nat) :
    (own.followedBy c).ends text p =
      ((own.ends text p).filter fun e => c.all (text[e]? == some ·)).map
        (· + c.toList.length) := by
  cases c with
  | none => simp [followedBy]
  | some ch =>
    have hstep : ∀ e : Nat, (seqAll [char ch]).ends text e =
        if text[e]? = some ch then [e + 1] else [] := ends_char ch
    rw [followedBy, ends_joined, ends_seqAll_cons, funext hstep]
    induction own.ends text p with
    | nil => rfl
    | cons e es ih =>
      rw [List.flatMap_cons, ih, List.filter_cons]
      by_cases he : text[e]? = some ch <;> simp [he]

theorem mem_ends_followedBy {p : Nat} :
    e + c.toList.length ∈ (own.followedBy c).ends text p ↔
      e ∈ own.ends text p ∧ ∀ ch, c = some ch → text[e]? = some ch := by
  simp only [ends_followedBy, List.mem_map, List.mem_filter, Nat.add_right_cancel_iff,
    exists_eq_right, Option.all_eq_true, beq_iff_eq]

/-- **What a matcher prefers is a match of the expression, then the character.** -/
theorem exists_of_firstEnd?_followedBy (hpos : pos ≤ text.size)
    (h : (Matcher.ofRegex (own.followedBy c)).firstEnd? text pos = some stop) :
    ∃ e ∈ own.ends text pos, stop = e + c.toList.length ∧
      ∀ ch, c = some ch → text[e]? = some ch := by
  have hmem := Matcher.mem_ends_of_firstEnd? hpos h
  obtain ⟨e, -, rfl⟩ := List.mem_map.mp (ends_followedBy own c text pos ▸ hmem)
  obtain ⟨he, hfollows⟩ := mem_ends_followedBy.mp hmem
  exact ⟨e, he, rfl, hfollows⟩

end Regex

/-- **A match of an expression with a character behind it ends behind that character.** -/
theorem Matcher.before?_of_firstEnd? {ch : Char} (hpos : pos ≤ text.size)
    (h : (ofRegex (own.followedBy (some ch))).firstEnd? text pos = some stop) :
    pos < stop ∧ text.before? stop = some ch := by
  obtain ⟨e, he, rfl, hfollows⟩ := Regex.exists_of_firstEnd?_followedBy hpos h
  exact ⟨Nat.lt_succ_of_le (own.within_of_mem_ends hpos he).1, hfollows ch rfl⟩

end Followed

/-! ### Accepted matches -/

open Search

variable {text : Source} {pos s e : Nat} {own : Regex}

namespace GuardedRegex

variable {r : GuardedRegex} {lookbehind : Lookbehind} {pattern : Pattern}

/-- **A match is accepted**: from `s`, the expression and the character that has to follow it prefer
the match that ends right behind that character, of which the part up to `e` is taken; and no guard
refuses what stands around that part. -/
structure Accepts (r : GuardedRegex) (own : Regex) (text : Source) (s e : Nat) : Prop where
  start_le : s ≤ text.size
  preferred : (Matcher.ofRegex (own.followedBy r.followedBy)).firstEnd? text s =
    some (e + r.followedBy.toList.length)
  followed : ∀ c, r.followedBy = some c → text[e]? = some c
  notAfter : ∀ c, r.notAfter = some c → text.before? s ≠ some c
  notBefore : ∀ c ∈ r.notBefore, text[e]? ≠ some c

/-- How many characters are left out at the end of a match. -/
def trim (r : GuardedRegex) : Nat := if r.followedBy.isSome then 1 else 0

/-- The pattern that checks its guards on each match. -/
def checking (r : GuardedRegex) (own : Regex) : Pattern :=
  .regex (.regular (.ofRegex (own.followedBy r.followedBy))) r.notAfter r.notBefore r.trim

theorem enclosed_eq (r : GuardedRegex) :
    r.enclosed = "(?:".toList ++ r.written.toList ++ Regex.closing r.followedBy := by
  rw [enclosed, List.append_assoc]
  rfl

/-- Where the guard in front is written into the expression, the engine that reads it agrees on the
expression behind the guard. -/
def EngineAgrees (text : Source) (r : GuardedRegex) (own : Regex) (pattern : Pattern) : Prop :=
  ∀ c plan, r.notAfter = some c →
    pattern = .regex (.extended plan) none r.notBefore r.trim →
    Highlighting.EnginesAgree text c plan (.ofRegex (own.followedBy r.followedBy))

/-- However the guard in front is realised, the search is for the expression as it is written. -/
theorem find_eq_checking {limit : Regex.SizeLimit}
    (hown : Regex.parse? r.written.toList limit = some own)
    (hpattern : r.compile? lookbehind limit = some pattern)
    (hagree : r.EngineAgrees text own pattern) :
    pattern.find text pos = (r.checking own).find text pos := by
  have hregular : ∀ e, Regex.parse? r.enclosed limit = some e →
      e = own.followedBy r.followedBy := by
    intro e he
    rw [enclosed_eq] at he
    exact Regex.eq_of_parse?_enclosed hown he
  rw [compile?.eq_def] at hpattern
  dsimp only at hpattern
  split at hpattern
  · next c hc =>
    obtain ⟨e, -, hpattern⟩ := Option.bind_eq_some_iff.mp hpattern
    obtain ⟨plan, -, hpattern⟩ := Option.bind_eq_some_iff.mp hpattern
    cases hpattern
    rw [checking, hc]
    exact (hagree c plan hc rfl).find_eq _ _
  · obtain ⟨e, he, hpattern⟩ := Option.bind_eq_some_iff.mp hpattern
    cases hpattern
    rw [hregular e he]
    rfl

/-- The end of the accepted match at a position. -/
def acceptedEnd? (r : GuardedRegex) (own : Regex) (text : Source) (s : Nat) : Option Nat :=
  siftedEnd? ((Matcher.ofRegex (own.followedBy r.followedBy)).find text ·)
    (Pattern.guarded r.notAfter r.notBefore r.trim text) s

theorem find_checking (r : GuardedRegex) (own : Regex) :
    (r.checking own).find text pos = ofEnds text.size (r.acceptedEnd? own text) pos :=
  sift_eq_ofEnds (Matcher.isSteady _ text) (fun _ _ => Pattern.start_of_guarded) (Nat.le_refl _)

theorem refuses_eq_false_iff {notAfter : Option Char} {notBefore : List Char} :
    Pattern.refuses notAfter notBefore text ⟨s, e⟩ = false ↔
      (∀ c, notAfter = some c → text.before? s ≠ some c) ∧ ∀ c ∈ notBefore, text[e]? ≠ some c := by
  rw [Pattern.refuses, Bool.or_eq_false_iff]
  apply and_congr
  · rw [Bool.eq_false_iff, ne_eq, Option.any_eq_true]
    constructor
    · intro h c hc hbefore
      exact h ⟨c, hbefore, beq_iff_eq.mpr hc⟩
    · rintro h ⟨c, hbefore, hc⟩
      exact h c (beq_iff_eq.mp hc) hbefore
  · rw [Bool.eq_false_iff, ne_eq, Option.any_eq_true]
    constructor
    · intro h c hc hafter
      exact h ⟨c, hafter, List.contains_iff_mem.mpr hc⟩
    · rintro h ⟨c, hafter, hc⟩
      exact h c (List.contains_iff_mem.mp hc) hafter

theorem guarded_eq_some_iff {notAfter : Option Char} {notBefore : List Char} {trim stop : Nat}
    {t : Span} : Pattern.guarded notAfter notBefore trim text ⟨s, stop⟩ = some t ↔
      t = ⟨s, stop - trim⟩ ∧ Pattern.refuses notAfter notBefore text ⟨s, stop - trim⟩ = false := by
  rw [Pattern.guarded]
  split
  · next h => simp [h]
  · next h =>
    rw [Bool.not_eq_true] at h
    simp [h, eq_comm]

/-- What is left out at the end of a match is the character that has to follow. -/
theorem trim_of_firstEnd? {stop : Nat} (hs : s ≤ text.size)
    (h : (Matcher.ofRegex (own.followedBy r.followedBy)).firstEnd? text s = some stop) :
    stop = stop - r.trim + r.followedBy.toList.length ∧
      ∀ c, r.followedBy = some c → text[stop - r.trim]? = some c := by
  cases hfollow : r.followedBy with
  | none =>
    rw [trim, hfollow]
    exact ⟨rfl, by simp⟩
  | some c =>
    rw [hfollow] at h
    obtain ⟨hlt, hbefore⟩ := Matcher.before?_of_firstEnd? hs h
    obtain ⟨k, rfl⟩ := Nat.exists_eq_succ_of_ne_zero (Nat.ne_zero_of_lt hlt)
    rw [trim, hfollow]
    refine ⟨rfl, ?_⟩
    rintro d hd
    cases hd
    exact hbefore

theorem acceptedEnd?_eq_some_iff (hs : s ≤ text.size) :
    r.acceptedEnd? own text s = some e ↔ r.Accepts own text s e := by
  rw [acceptedEnd?, siftedEnd?, Matcher.endAt?_find _ hs]
  constructor
  · intro h
    obtain ⟨stop, hstop, h⟩ := Option.bind_eq_some_iff.mp h
    obtain ⟨t, ht, rfl⟩ := Option.map_eq_some_iff.mp h
    obtain ⟨rfl, hrefuses⟩ := guarded_eq_some_iff.mp ht
    obtain ⟨hafter, hbefore⟩ := refuses_eq_false_iff.mp hrefuses
    obtain ⟨hlength, hfollowed⟩ := trim_of_firstEnd? hs hstop
    exact ⟨hs, hstop.trans (congrArg some hlength), hfollowed, hafter, hbefore⟩
  · intro h
    refine Option.bind_eq_some_iff.mpr ⟨_, h.preferred, ?_⟩
    obtain ⟨hlength, -⟩ := trim_of_firstEnd? hs h.preferred
    refine Option.map_eq_some_iff.mpr ⟨⟨s, e⟩, guarded_eq_some_iff.mpr ?_, rfl⟩
    rw [show e + r.followedBy.toList.length - r.trim = e by omega]
    exact ⟨rfl, refuses_eq_false_iff.mpr ⟨h.notAfter, h.notBefore⟩⟩

theorem acceptedEnd?_eq_none_iff (hs : s ≤ text.size) :
    r.acceptedEnd? own text s = none ↔ ∀ e, ¬ r.Accepts own text s e := by
  rw [Option.eq_none_iff_forall_ne_some]
  exact forall_congr' fun e => not_congr (acceptedEnd?_eq_some_iff hs)

theorem find_checking_eq_some_iff : (r.checking own).find text pos = some ⟨s, e⟩ ↔
    pos ≤ s ∧ r.Accepts own text s e ∧
      ∀ p, pos ≤ p → p < s → ∀ e', ¬ r.Accepts own text p e' := by
  rw [find_checking, ofEnds_eq_some_iff]
  constructor
  · rintro ⟨hpos, hs, hend, hfirst⟩
    refine ⟨hpos, (acceptedEnd?_eq_some_iff hs).mp hend, fun p hp hlt => ?_⟩
    exact (acceptedEnd?_eq_none_iff (Nat.le_trans (Nat.le_of_lt hlt) hs)).mp (hfirst p hp hlt)
  · rintro ⟨hpos, haccepts, hfirst⟩
    have hs := haccepts.start_le
    refine ⟨hpos, hs, (acceptedEnd?_eq_some_iff hs).mpr haccepts, fun p hp hlt => ?_⟩
    exact (acceptedEnd?_eq_none_iff (Nat.le_trans (Nat.le_of_lt hlt) hs)).mpr (hfirst p hp hlt)

theorem find_checking_eq_none_iff :
    (r.checking own).find text pos = none ↔ ∀ p e, pos ≤ p → ¬ r.Accepts own text p e := by
  rw [find_checking, ofEnds_eq_none_iff]
  constructor
  · intro h p e hp haccepts
    exact (acceptedEnd?_eq_none_iff haccepts.start_le).mp (h p hp haccepts.start_le) e haccepts
  · intro h p hp hsize
    exact (acceptedEnd?_eq_none_iff hsize).mpr fun e => h p e hp

/-- **A pattern finds the leftmost accepted match**, and none only where there is none.  So what it
finds it also finds from any later position up to there. -/
theorem find_leftmost (hown : Regex.parse? r.written.toList = some own)
    (hpattern : r.compile? lookbehind = some pattern) (hagree : r.EngineAgrees text own pattern) :
    (∀ pos s e, pattern.find text pos = some ⟨s, e⟩ ↔
      pos ≤ s ∧ r.Accepts own text s e ∧ ∀ p, pos ≤ p → p < s → ∀ e', ¬ r.Accepts own text p e') ∧
    (∀ pos, pattern.find text pos = none ↔ ∀ p e, pos ≤ p → ¬ r.Accepts own text p e) ∧
    (∀ pos s, pattern.find text pos = some s →
      ∀ pos', pos ≤ pos' → pos' ≤ s.start → pattern.find text pos' = some s) ∧
    ∀ pos, pattern.find text pos = none → ∀ pos', pos ≤ pos' → pattern.find text pos' = none := by
  have hsome : ∀ pos s e, pattern.find text pos = some ⟨s, e⟩ ↔
      pos ≤ s ∧ r.Accepts own text s e ∧
        ∀ p, pos ≤ p → p < s → ∀ e', ¬ r.Accepts own text p e' := by
    intro pos s e
    rw [find_eq_checking hown hpattern hagree, find_checking_eq_some_iff]
  have hnone : ∀ pos, pattern.find text pos = none ↔
      ∀ p e, pos ≤ p → ¬ r.Accepts own text p e := by
    intro pos
    rw [find_eq_checking hown hpattern hagree, find_checking_eq_none_iff]
  refine ⟨hsome, hnone, ?_, ?_⟩
  · -- the same position is the first from any position in between
    rintro pos ⟨s, e⟩ hs pos' hle hle'
    obtain ⟨-, haccepts, hfirst⟩ := (hsome pos s e).mp hs
    exact (hsome pos' s e).mpr ⟨hle', haccepts, fun p hp => hfirst p (Nat.le_trans hle hp)⟩
  · intro pos h pos' hle
    exact (hnone pos').mpr fun p e hp => (hnone pos).mp h p e (Nat.le_trans hle hp)

theorem find_leftmost_of_call :
    (let r : GuardedRegex := ⟨"[a-z]b*", some '.', ['!'], some '('⟩
     let text := Source.ofString ".ab(a(!xb("
     ∃ own pattern, Regex.parse? r.written.toList = some own ∧
       r.compile? .emulated = some pattern ∧ r.EngineAgrees text own pattern ∧
       pattern.find text 0 = some ⟨2, 3⟩ ∧ r.Accepts own text 2 3 ∧
       (∀ e, ¬ r.Accepts own text 1 e) ∧ pattern.find text 1 = some ⟨2, 3⟩) ∧
    (let r : GuardedRegex := ⟨"x", some '$', [], none⟩
     let text := Source.ofString "a$x x"
     ∃ own pattern, Regex.parse? r.written.toList = some own ∧
       r.compile? .native = some pattern ∧ r.EngineAgrees text own pattern ∧
       pattern.find text 0 = some ⟨4, 5⟩ ∧ r.Accepts own text 4 5 ∧
       (∀ e, ¬ r.Accepts own text 2 e) ∧ pattern.find text 3 = some ⟨4, 5⟩) := by
  constructor
  · intro r text
    have hown : Regex.parse? r.written.toList =
        some (.seq (.set (.range 'a' 'z')) (.rep true 0 none (.set (.range 'b' 'b')))) := by
      decide +kernel
    have hpattern : r.compile? .emulated = some (r.checking
        (.seq (.set (.range 'a' 'z')) (.rep true 0 none (.set (.range 'b' 'b'))))) := by
      decide +kernel
    have hagree : r.EngineAgrees text
        (.seq (.set (.range 'a' 'z')) (.rep true 0 none (.set (.range 'b' 'b')))) (r.checking
          (.seq (.set (.range 'a' 'z')) (.rep true 0 none (.set (.range 'b' 'b'))))) := by
      intro c plan _ hplan
      cases hplan
    have hfound : (r.checking
        (.seq (.set (.range 'a' 'z')) (.rep true 0 none (.set (.range 'b' 'b'))))).find text 0 =
          some ⟨2, 3⟩ := by
      decide +kernel
    obtain ⟨hsome, -, hstays, -⟩ := find_leftmost hown hpattern hagree
    obtain ⟨-, haccepts, hfirst⟩ := (hsome 0 2 3).mp hfound
    exact ⟨_, _, hown, hpattern, hagree, hfound, haccepts, hfirst 1 (by decide) (by decide),
      hstays 0 _ hfound 1 (by decide) (by decide)⟩
  · intro r text
    have hown : Regex.parse? r.written.toList = some (.set (.range 'x' 'x')) := by decide +kernel
    have hpattern : r.compile? .native = some (.regex (.extended
        (.seq (.behind true 1 (.set (.range '$' '$'))) (.set (.range 'x' 'x')))) none [] 0) := by
      decide +kernel
    have hagree : r.EngineAgrees text (.set (.range 'x' 'x')) (.regex (.extended
        (.seq (.behind true 1 (.set (.range '$' '$'))) (.set (.range 'x' 'x')))) none [] 0) := by
      intro c plan hc hplan
      cases hc
      cases hplan
      have hmatcher : Matcher.ofRegex ((Regex.set (.range 'x' 'x')).followedBy r.followedBy) =
          .listing (.set (.range 'x' 'x')) := by
        decide +kernel
      rw [hmatcher]
      exact ⟨⟨_, .front _, Extended.Plan.prefers_set _ _⟩,
        by unfold Extended.Plan.KeepsRetries; decide +kernel⟩
    have hfound : (Pattern.regex (.extended
        (.seq (.behind true 1 (.set (.range '$' '$'))) (.set (.range 'x' 'x')))) none [] 0).find
          text 0 = some ⟨4, 5⟩ := by
      decide +kernel
    obtain ⟨hsome, -, hstays, -⟩ := find_leftmost hown hpattern hagree
    obtain ⟨-, haccepts, hfirst⟩ := (hsome 0 4 5).mp hfound
    exact ⟨_, _, hown, hpattern, hagree, hfound, haccepts, hfirst 2 (by decide) (by decide),
      hstays 0 _ hfound 3 (by decide) (by decide)⟩

/-- With the guard written into the expression, other things than the leftmost accepted match are
found: one more plus keeps a repetition from giving back what it has taken, and `\G` holds only
where the search began, so that a later search finds what an earlier one has passed over. -/
theorem exists_leftmost_missed :
    (let r : GuardedRegex := ⟨"a++a", some 'b', [], none⟩
     let text := Source.ofString "aa"
     ∃ own, Regex.parse? r.written.toList = some own ∧ r.Accepts own text 0 2 ∧
       (r.compile? .native).map (·.find text 0) = some none) ∧
    (let r : GuardedRegex := ⟨"\\Gb", some 'x', [], none⟩
     let text := Source.ofString "ab"
     (r.compile? .native).map (·.find text 0) = some none ∧
       (r.compile? .native).map (·.find text 1) = some (some ⟨1, 2⟩)) := by
  constructor
  · intro r text
    have hown : Regex.parse? r.written.toList = some (.seq
        (.rep true 1 none (.rep true 1 none (.set (.range 'a' 'a')))) (.set (.range 'a' 'a'))) := by
      decide +kernel
    refine ⟨_, hown, ?_, by decide +kernel⟩
    have hfirst : ∀ c, r.notAfter = some c → text.before? 0 ≠ some c := by
      intro c _ hbefore
      cases hbefore
    exact ⟨by decide, by decide +kernel, by simp [r], hfirst, by simp [r]⟩
  · exact ⟨by decide +kernel, by decide +kernel⟩

end GuardedRegex

end Highlighting
