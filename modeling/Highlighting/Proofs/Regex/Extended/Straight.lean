/-
  Highlighting/Proofs/Regex/Extended/Straight.lean
  ================================================
  **Plans without repetitions**: what they match, and what a failure costs.

  A plan of characters, conditions, sequences and choices tries the ends of a
  regular expression one after the other, until the goal does not fail at one
  of them (`Plan.Realizes`).  Where the expression has one end at most, that is
  what it prefers (`Realizes.prefers`).

  To come back for another choice takes a retry.  A choice between words of
  which none is there takes one retry less than there are words
  (`spends_words`), and a search that fails at many positions is given up
  before it gets any further (`search_eq_exhausted`).
-/
import Highlighting.Proofs.Pattern.Lookbehind
import Highlighting.Proofs.Regex.Extended.WholeWords

namespace Highlighting.Extended

variable {text : Source} {c : Cursor} {goal : Goal} {since pos k l m n : Nat}

/-! ### Ends -/

/-- The search does not come back for another choice. -/
def Outcome.isFinal : Outcome → Bool
  | matched _ _ | cut _ _ => true
  | failed _ | exhausted => false

namespace Plan

variable {p q : Plan} {r s : Regex}

/-- The plan tries the goal at the ends of the expression.  What has come of it is what has come of
the goal at one of these; and it fails only when the goal has failed at all of them. -/
structure Realizes (text : Source) (p : Plan) (r : Regex) : Prop where
  sound : ∀ (since : Nat) (goal : Goal) (c : Cursor) (n : Nat),
    (p.follow text since goal c n).isFinal = true →
    ∃ e ∈ r.ends text c.pos, ∃ m, goal (c.move e) m = p.follow text since goal c n
  complete : ∀ (since : Nat) (goal : Goal) (c : Cursor) (n k : Nat),
    p.follow text since goal c n = .failed k →
    ∀ e ∈ r.ends text c.pos, ∃ m k, goal (c.move e) m = .failed k

namespace Realizes

theorem of_ends (h : p.Realizes text r)
    (hends : ∀ pos e, e ∈ r.ends text pos ↔ e ∈ s.ends text pos) : p.Realizes text s where
  sound since goal c n hfinal := by
    obtain ⟨e, he, hgoal⟩ := h.sound since goal c n hfinal
    exact ⟨e, (hends _ _).mp he, hgoal⟩
  complete since goal c n k hfailed e he :=
    h.complete since goal c n k hfailed e ((hends _ _).mpr he)

theorem set (s : CharSet) : (Plan.set s).Realizes text (.set s) where
  sound since goal c n hfinal := by
    rw [follow] at hfinal ⊢
    rw [Regex.ends]
    cases hc : text[c.pos]? with
    | none =>
      rw [hc] at hfinal
      cases hfinal
    | some ch =>
      rw [hc] at hfinal
      dsimp only at hfinal ⊢
      split at hfinal
      · next hs =>
        rw [if_pos hs, if_pos hs]
        exact ⟨_, List.mem_singleton_self _, n, rfl⟩
      · cases hfinal
  complete since goal c n k hfailed e he := by
    rw [follow] at hfailed
    rw [Regex.ends] at he
    cases hc : text[c.pos]? with
    | none =>
      rw [hc] at he
      cases he
    | some ch =>
      rw [hc] at he hfailed
      dsimp only at he hfailed
      split at he
      · next hs =>
        rw [if_pos hs] at hfailed
        rw [List.mem_singleton.mp he]
        exact ⟨n, k, hfailed⟩
      · cases he

theorem anchor (a : Anchor) : (Plan.anchor a).Realizes text (.anchor a) where
  sound since goal c n hfinal := by
    rw [follow] at hfinal ⊢
    split at hfinal
    · next ha =>
      rw [if_pos ha]
      exact ⟨c.pos, Regex.mem_ends_anchor.mpr ⟨rfl, ha⟩, n, rfl⟩
    · cases hfinal
  complete since goal c n k hfailed e he := by
    obtain ⟨rfl, ha⟩ := Regex.mem_ends_anchor.mp he
    rw [follow, if_pos ha] at hfailed
    exact ⟨n, k, hfailed⟩

theorem seq (hp : p.Realizes text r) (hq : q.Realizes text s) :
    (Plan.seq p q).Realizes text (.seq r s) where
  sound since goal c n hfinal := by
    rw [follow] at hfinal ⊢
    obtain ⟨e, he, m, hm⟩ := hp.sound since _ c n hfinal
    rw [← hm] at hfinal ⊢
    obtain ⟨e', he', hgoal⟩ := hq.sound since goal (c.move e) m hfinal
    exact ⟨e', List.mem_flatMap.mpr ⟨e, he, he'⟩, hgoal⟩
  complete since goal c n k hfailed e he := by
    rw [follow] at hfailed
    obtain ⟨e', he', he⟩ := List.mem_flatMap.mp he
    obtain ⟨m, k', hm⟩ := hp.complete since _ c n k hfailed e' he'
    exact hq.complete since goal (c.move e') m k' hm e he

theorem alt (hp : p.Realizes text r) (hq : q.Realizes text s) :
    (Plan.alt p q).Realizes text (.alt r s) where
  sound since goal c n hfinal := by
    have hfirst := hp.sound since goal c n
    rw [follow] at hfinal ⊢
    cases hfollow : p.follow text since goal c n with
    | matched d k | cut d k =>
      rw [hfollow] at hfirst
      obtain ⟨e, he, hgoal⟩ := hfirst rfl
      exact ⟨e, List.mem_append_left _ he, hgoal⟩
    | failed k =>
      rw [hfollow] at hfinal
      cases k with
      | zero => cases hfinal
      | succ k =>
        obtain ⟨e, he, hgoal⟩ := hq.sound since goal c k hfinal
        exact ⟨e, List.mem_append_right _ he, hgoal⟩
    | exhausted =>
      rw [hfollow] at hfinal
      cases hfinal
  complete since goal c n k hfailed e he := by
    rw [follow] at hfailed
    cases hfollow : p.follow text since goal c n with
    | matched _ _ | cut _ _ | exhausted =>
      rw [hfollow] at hfailed
      cases hfailed
    | failed k' =>
      rw [hfollow] at hfailed
      cases k' with
      | zero => cases hfailed
      | succ k' =>
        rcases List.mem_append.mp he with he | he
        · exact hp.complete since goal c n _ hfollow e he
        · exact hq.complete since goal c k' k hfailed e he

theorem spelling {cs : List Char} (hcs : cs ≠ []) :
    (Plan.spelling cs).Realizes text (Regex.spelling cs) := by
  induction cs with
  | nil => exact absurd rfl hcs
  | cons c cs ih =>
    cases cs with
    | nil => exact .set _
    | cons d cs => exact (Realizes.set _).seq (ih (by simp))

theorem words {ws : List (List Char)} (hws : ws ≠ []) (hne : ∀ w ∈ ws, w ≠ []) :
    (Plan.words ws).Realizes text (Regex.altAll (ws.map Regex.spelling)) := by
  induction ws with
  | nil => exact absurd rfl hws
  | cons w ws ih =>
    obtain ⟨hw, hrest⟩ := List.forall_mem_cons.mp hne
    cases ws with
    | nil => exact .spelling hw
    | cons w' ws => exact (Realizes.spelling hw).alt (ih (by simp) hrest)

/-- **What has one end at most is preferred to end there.** -/
theorem prefers (h : p.Realizes text r) {f : Nat → Option Nat}
    (hf : ∀ pos ≤ text.size, ∀ e, f pos = some e ↔ e ∈ r.ends text pos) : p.Prefers text f := by
  intro since pos n hpos
  have hsound := h.sound since reached (.ofPos pos) n
  have hcomplete := h.complete since reached (.ofPos pos) n
  cases hfollow : p.follow text since reached (.ofPos pos) n with
  | matched d k =>
    rw [hfollow] at hsound
    obtain ⟨e, he, m, hm⟩ := hsound rfl
    cases hm
    exact ⟨rfl, (hf pos hpos e).mpr he⟩
  | failed k =>
    refine Option.eq_none_iff_forall_ne_some.mpr fun e he => ?_
    obtain ⟨m, k', hm⟩ := hcomplete k hfollow e ((hf pos hpos e).mp he)
    cases hm
  | cut level k =>
    rw [hfollow] at hsound
    obtain ⟨e, he, m, hm⟩ := hsound rfl
    cases hm
  | exhausted => trivial

end Realizes

end Plan

/-! ### Retries -/

/-- With so many retries at first, at least that many have been used without success. -/
def Outcome.Spends (n k : Nat) (o : Outcome) : Prop :=
  o = .exhausted ∨ ∃ m, o = .failed m ∧ m + k ≤ n

theorem Outcome.spends_failed (n : Nat) : (failed n).Spends n 0 := .inr ⟨n, rfl, Nat.le_refl n⟩

/-- The other way is followed with one retry less. -/
theorem Outcome.Spends.orElse {first : Outcome} {second : Nat → Outcome} (h : first.Spends n k)
    (h' : ∀ m, (second m).Spends m l) : (first.orElse second).Spends n (k + 1 + l) := by
  rcases h with rfl | ⟨m, rfl, hm⟩
  · exact .inl rfl
  · cases m with
    | zero => exact .inl rfl
    | succ m =>
      rcases h' m with hexhausted | ⟨m', hm', hle⟩
      · exact .inl hexhausted
      · exact .inr ⟨m', hm', by omega⟩

namespace Plan

variable {p : Plan}

/-- **A choice between words takes a retry for each but the last**, where none of them begins with
the character that stands there. -/
theorem spends_words {ws : List (List Char)} (hws : ws ≠ [])
    (hfirst : ∀ w ∈ ws, ∃ ch cs, w = ch :: cs ∧ text[c.pos]? ≠ some ch) (n : Nat) :
    ((words ws).follow text since goal c n).Spends n (ws.length - 1) := by
  have hspelling : ∀ w ∈ ws, ∀ n, ((spelling w).follow text since goal c n).Spends n 0 := by
    intro w hw n
    obtain ⟨ch, cs, rfl, hne⟩ := hfirst w hw
    have hset : ∀ goal : Goal, (Plan.set (.single ch)).follow text since goal c n = .failed n := by
      intro goal
      rw [follow]
      cases hc : text[c.pos]? with
      | none => rfl
      | some d =>
        refine if_neg fun hcontains => ?_
        rw [hc, CharSet.contains_single.mp hcontains] at hne
        exact hne rfl
    cases cs with
    | nil =>
      rw [spelling, hset]
      exact Outcome.spends_failed n
    | cons d cs =>
      rw [spelling, follow, hset]
      · exact Outcome.spends_failed n
      · simp
  induction ws generalizing n with
  | nil => exact absurd rfl hws
  | cons w ws ih =>
    cases ws with
    | nil => exact hspelling w List.mem_cons_self n
    | cons w' ws =>
      have hrest := fun m => ih (by simp) (fun v hv => hfirst v (List.mem_cons_of_mem _ hv)) m
        fun v hv => hspelling v (List.mem_cons_of_mem _ hv)
      have hboth := (hspelling w List.mem_cons_self n).orElse hrest
      rw [Nat.zero_add, Nat.add_comm] at hboth
      exact hboth

/-- A search that fails from many positions goes on behind them with fewer retries. -/
theorem search_of_spends {count fuel : Nat}
    (h : ∀ q, pos ≤ q → q < pos + count →
      ∀ n, (p.follow text since reached (.ofPos q) n).Spends n k) :
    p.search text since (count + fuel) pos n = .exhausted ∨
      ∃ m, m + count * (k + 1) ≤ n ∧
        p.search text since (count + fuel) pos n = p.search text since fuel (pos + count) m := by
  induction count generalizing pos n with
  | zero => exact .inr ⟨n, by simp, by rw [Nat.zero_add, Nat.add_zero]⟩
  | succ count ih =>
    rw [show count + 1 + fuel = count + fuel + 1 by omega, search]
    rcases h pos (Nat.le_refl pos) (by omega) n with hspent | ⟨m, hm, hle⟩
    · exact .inl (by rw [hspent]; rfl)
    · rw [hm]
      cases m with
      | zero => exact .inl rfl
      | succ m =>
        have hrest : ∀ q, pos + 1 ≤ q → q < pos + 1 + count →
            ∀ n, (p.follow text since reached (.ofPos q) n).Spends n k :=
          fun q hq hlt => h q (by omega) (by omega)
        rcases ih (n := m) hrest with hspent | ⟨m', hle', heq⟩
        · exact .inl hspent
        · refine .inr ⟨m', ?_, ?_⟩
          · rw [Nat.add_mul]
            omega
          · rw [show pos + (count + 1) = pos + 1 + count by omega]
            exact heq

/-- **A search that fails at too many positions is given up.** -/
theorem find_eq_none_of_spends {count : Nat} (hcount : pos + count ≤ text.size + 1)
    (h : ∀ q, pos ≤ q → q < pos + count →
      ∀ n, (p.follow text pos reached (.ofPos q) n).Spends n k)
    (hretries : retries < count * (k + 1)) : p.find text pos = none := by
  obtain ⟨fuel, hfuel⟩ := Nat.exists_eq_add_of_le (Nat.le_sub_of_add_le' hcount)
  rw [find, hfuel]
  rcases search_of_spends (n := retries) h with hspent | ⟨m, hle, -⟩
  · rw [hspent]
  · omega

end Plan

end Highlighting.Extended
