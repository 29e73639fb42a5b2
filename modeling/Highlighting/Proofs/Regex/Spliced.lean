/-
  Highlighting/Proofs/Regex/Spliced.lean
  ======================================
  **A text in a group of its own writes what it writes alone.**

  The text is put between parentheses, with a character behind them.  If that
  is an expression then so is the text, for what the parenthesis completes
  leaves the group open (`Beyond`); and the other way round (`piece?_enclosed`).

  There are two kinds of texts of which this is not so.  One closes a group
  that it has not opened, as `a)(b` does, and so closes the one around it; it
  is an expression between parentheses only.  The other ends in a comment that
  takes the parenthesis along, as `(?x)a#` does; it is an expression only
  alone.  All others stay in their group (`StaysEnclosed`).
-/
import Highlighting.Proofs.Regex.Completed

namespace Highlighting.Regex

variable {tail cs written : List Char} {c : Option Char} {f : Flags} {n taken : Nat}

/-! ### What the reader comes to -/

/-- Whether the reader comes to a place of the kind, with that much of the text left. -/
def Draft.comesTo (kind : Draft → List Char → Bool) : Nat → List Char → Draft → Bool
  | _, [], _ => false
  | taken + 1, _ :: cs, d => comesTo kind taken cs d
  | 0, e :: cs, d => kind d (e :: cs) || match d.next (e :: cs) with
    | some (d, n) => comesTo kind (n - 1) cs d
    | none => false

/-- The text closes a group that it has not opened. -/
def closesOther (written : List Char) : Bool :=
  Draft.comesTo (fun d cs => d.outer.isEmpty && cs.head? == some ')') 0 written .start

/-- The text ends in a comment, so that a parenthesis behind it is skipped. -/
def endsInComment (written : List Char) : Bool :=
  Draft.comesTo (fun d cs => d.level.flags.skip (cs ++ [')']) == (cs ++ [')']).length) 0 written
    .start

/-- **The text stays in its group** when it is put between parentheses. -/
structure StaysEnclosed (written : List Char) : Prop where
  closesOther : closesOther written = false
  endsInComment : endsInComment written = false

/-! ### Whole texts -/

/-- What a text writes, whatever the limits. -/
def piece? (written : List Char) : Option Piece := do
  let d ← readAll Draft.next 0 written .start
  if d.outer.isEmpty then some d.level.body else none

/-- The expression keeps the limits. -/
def Piece.Fits (limit : SizeLimit) (p : Piece) : Prop :=
  p.depth ≤ deepest ∧ limit.size p.expr ≤ limit.most

instance (limit : SizeLimit) (p : Piece) : Decidable (p.Fits limit) :=
  inferInstanceAs (Decidable (_ ∧ _))

theorem piece?_eq_some_iff {p : Piece} :
    piece? written = some p ↔
      ∃ d, readAll Draft.next 0 written .start = some d ∧ d.outer = [] ∧ d.level.body = p := by
  rw [piece?, Option.bind_eq_bind, Option.bind_eq_some_iff]
  simp only [Option.ite_none_right_eq_some, List.isEmpty_iff, Option.some_inj]

/-- **An expression is what is written, within the limits.** -/
theorem parse?_eq_some_iff {limit : SizeLimit} {r : Regex} :
    parse? written limit = some r ↔
      ∃ p, piece? written = some p ∧ p.Fits limit ∧ p.expr = r := by
  have hfinish : ∀ d : Draft, d.finish? limit = some r ↔
      d.outer = [] ∧ d.level.body.Fits limit ∧ d.level.body.expr = r := by
    intro d
    rw [Draft.finish?, Option.ite_none_right_eq_some]
    simp only [Bool.and_eq_true, List.isEmpty_iff, decide_eq_true_eq, SizeLimit.accepts_iff,
      Option.some_inj, Piece.Fits, and_assoc]
  constructor
  · intro h
    obtain ⟨d, hread, hd⟩ := Option.bind_eq_some_iff.mp h
    obtain ⟨houter, hfits, hr⟩ := (hfinish d).mp hd
    exact ⟨_, piece?_eq_some_iff.mpr ⟨d, hread, houter, rfl⟩, hfits, hr⟩
  · rintro ⟨p, hp, hfits, hr⟩
    obtain ⟨d, hread, houter, rfl⟩ := piece?_eq_some_iff.mp hp
    exact Option.bind_eq_some_iff.mpr ⟨d, hread, (hfinish d).mpr ⟨houter, hfits, hr⟩⟩

/-! ### Comments -/

/-- A comment that takes the parenthesis and more takes the parenthesis alone. -/
theorem blankLength_parenthesis {comment : Bool} {rest : List Char}
    (h : blankLength comment (cs ++ ')' :: rest) = (cs ++ ')' :: rest).length) :
    blankLength comment (cs ++ [')']) = (cs ++ [')']).length := by
  induction cs generalizing comment with
  | nil =>
    cases comment with
    | true => rfl
    | false =>
      have hzero : blankLength false ([] ++ ')' :: rest) = 0 := rfl
      rw [hzero] at h
      cases h
  | cons e cs ih =>
    have hcons : ∀ b, 1 + blankLength b (cs ++ ')' :: rest) = (cs ++ ')' :: rest).length + 1 →
        1 + blankLength b (cs ++ [')']) = (cs ++ [')']).length + 1 := by
      intro b hb
      rw [ih (by omega)]
      exact Nat.add_comm _ _
    rw [List.cons_append, List.length_cons] at h ⊢
    cases comment with
    | true => exact hcons _ h
    | false =>
      rw [blankLength] at h ⊢
      split at h
      · next hspace =>
        rw [if_pos hspace]
        exact hcons _ h
      · next hspace =>
        rw [if_neg hspace]
        split at h
        · next hopens =>
          rw [if_pos hopens]
          exact hcons _ h
        · cases h

theorem skip_parenthesis_of_all (h : f.skip (cs ++ closing c) = (cs ++ closing c).length) :
    f.skip (cs ++ [')']) = (cs ++ [')']).length := by
  rw [Flags.skip] at h ⊢
  split at h
  · next hspaced =>
    rw [if_pos hspaced]
    exact blankLength_parenthesis h
  · rw [List.length_append, closing, List.length_cons] at h
    cases h

/-! ### Groups that stay open -/

namespace Draft

variable {d d' : Draft} {l : Level}

theorem outer_of_repetition {least m : Nat} {most : Option Nat} {rest : List Char}
    (h : d.repetition least most m rest = some (d', n)) : d'.outer = d.outer := by
  obtain ⟨d'', hd'', hn⟩ := Option.map_eq_some_iff.mp h
  cases hn
  rw [repeat?] at hd''
  split at hd''
  · split at hd''
    · cases hd''
      rfl
    · cases hd''
  · cases hd''

theorem outer_of_readGroup (h : d.readGroup cs = some (d', n)) (houter : d.outer ≠ []) :
    d'.outer ≠ [] := by
  have hnamed : ∀ rest k, d.readNamed rest (d.level.flags.skip cs) k = some (d', n) →
      d'.outer ≠ [] := by
    intro rest k h
    obtain ⟨name, -, hn⟩ := Option.bind_eq_some_iff.mp h
    cases hn
    exact List.cons_ne_nil _ _
  rw [readGroup] at h
  split at h
  · exact hnamed _ 3 h
  · exact hnamed _ 2 h
  · obtain ⟨⟨flags, grouped, k⟩, -, h⟩ := Option.bind_eq_some_iff.mp h
    dsimp only at h
    split at h
    · cases h
      exact List.cons_ne_nil _ _
    · split at h
      · cases h
      · cases h
        exact houter
  · cases h
    exact List.cons_ne_nil _ _

/-- Only a closing parenthesis closes a group. -/
theorem outer_of_next {e : Char} {rest : List Char} (he : e ≠ ')')
    (h : d.next (e :: rest) = some (d', n)) (houter : d.outer ≠ []) : d'.outer ≠ [] := by
  rw [next.eq_def] at h
  dsimp only at h
  split at h
  · cases h
    exact houter
  · split at h
    · cases h
      exact houter
    · exact absurd rfl he
    · obtain ⟨⟨d'', k⟩, hgroup, hn⟩ := Option.map_eq_some_iff.mp h
      cases hn
      exact outer_of_readGroup hgroup houter
    · obtain ⟨⟨s, k⟩, -, hn⟩ := Option.map_eq_some_iff.mp h
      cases hn
      exact houter
    · rw [outer_of_repetition h]
      exact houter
    · rw [outer_of_repetition h]
      exact houter
    · rw [outer_of_repetition h]
      exact houter
    · obtain ⟨⟨least, most, k⟩, -, h⟩ := Option.bind_eq_some_iff.mp h
      rw [outer_of_repetition h]
      exact houter
    · obtain ⟨s, -, hn⟩ := Option.map_eq_some_iff.mp h
      cases hn
      exact houter
    · cases h
      exact houter
    · cases h
      exact houter
    · obtain ⟨⟨x, k⟩, -, hn⟩ := Option.map_eq_some_iff.mp h
      cases x with
      | char a => cases hn; exact houter
      | set s => cases hn; exact houter
      | anchor a => cases hn; exact houter
    · cases h
      exact houter

/-- The character behind the parenthesis closes no group. -/
theorem outer_of_readAll_escape (h : readAll next 0 (escape c.toList) d = some d')
    (houter : d.outer ≠ []) : d'.outer ≠ [] := by
  cases c with
  | none =>
    cases h
    exact houter
  | some ch =>
    rw [Option.toList_some, escape_singleton] at h
    split at h
    · next hspecial =>
      have hskip : d.level.flags.skip ['\\', ch] = 0 := by
        rw [Flags.skip]
        split <;> rfl
      have hnext : d.next ['\\', ch] =
          some (d.pushSet (d.level.flags.cased (.single ch)), 2) := by
        rw [next.eq_def]
        dsimp only
        rw [hskip]
        dsimp only
        rw [readEscape_special hspecial]
        rfl
      rw [readAll, hnext] at h
      cases h
      exact houter
    · next hplain =>
      obtain ⟨⟨d'', k⟩, hnext, h⟩ := Option.bind_eq_some_iff.mp h
      have hne : ch ≠ ')' := by
        rintro rfl
        exact hplain rfl
      have houter' := outer_of_next hne hnext houter
      cases k - 1 <;> (cases h; exact houter')

/-- Behind what only more text has completed, the group is still open. -/
theorem outer_of_beyond {rest : List Char} {e : Char} {k : Nat}
    (hbeyond : Beyond (closing c) (e :: rest) k)
    (h : readAll next (k - 1) (rest ++ closing c) d = some d') (houter : d.outer ≠ []) :
    d'.outer ≠ [] := by
  rcases hbeyond with rfl | rfl
  · have htaken : readAll next (rest ++ [')']).length ((rest ++ [')']) ++ escape c.toList) d =
        some d' := by
      rw [List.length_append, List.append_assoc]
      exact h
    rw [readAll_taken] at htaken
    exact outer_of_readAll_escape htaken houter
  · have hall : readAll next (rest ++ closing c).length (rest ++ closing c) d = some d' := h
    rw [readAll_length] at hall
    cases hall
    exact houter

/-! ### There and back -/

/-- Unless the text ends in a comment, the parenthesis comes next behind it. -/
theorem readAll_append_of_closed
    (hcomment : comesTo (fun d cs => d.level.flags.skip (cs ++ [')']) == (cs ++ [')']).length)
      taken cs d = false)
    (htaken : taken ≤ cs.length) (h : readAll next taken cs d = some d') (houter : d'.outer = []) :
    readAll next taken (cs ++ closing c) (d.around l) =
      readAll next 0 (closing c) (d'.around l) := by
  induction cs generalizing taken d with
  | nil =>
    obtain rfl := Nat.le_zero.mp htaken
    cases h
    rfl
  | cons e cs ih =>
    rw [List.cons_append]
    cases taken with
    | succ taken => exact ih hcomment (Nat.le_of_succ_le_succ htaken) h
    | zero =>
      obtain ⟨⟨d'', k⟩, hnext, hrest⟩ := Option.bind_eq_some_iff.mp h
      rw [comesTo, hnext, Bool.or_eq_false_iff] at hcomment
      obtain ⟨-, k', hk', hswallows, hnext'⟩ := next_append (l := l) (closes_closing c) hnext
      rw [List.cons_append] at hnext'
      rw [readAll, hnext']
      rcases hk' with ⟨hle, rfl⟩ | ⟨rfl, rfl⟩
      · exact ih hcomment.2 (Nat.sub_le_of_le_add hle) hrest
      · have hne : (e :: cs ++ closing c).length ≠ (e :: cs).length := by
          rw [List.length_append]
          exact Nat.ne_of_gt (Nat.lt_add_of_pos_right (Nat.succ_pos _))
        rcases hswallows hne with hopens | hall
        · have hlast : readAll next cs.length cs d'' = some d' := hrest
          rw [readAll_length] at hlast
          cases hlast
          exact absurd houter hopens
        · rw [skip_parenthesis_of_all hall, beq_self_eq_true] at hcomment
          cases hcomment.1

/-- A parenthesis that cannot be read has no group to close. -/
theorem outer_eq_nil_of_next {rest : List Char} (h : d.next (')' :: rest) = none) :
    d.outer = [] := by
  rw [next.eq_def] at h
  dsimp only at h
  rw [skip_parenthesis] at h
  have hleave := Option.map_eq_none_iff.mp h
  rw [leave?] at hleave
  split at hleave
  · next houter => exact houter
  · cases hleave

/-- What is read between parentheses is read alone, unless it closes a group that it has not
opened. -/
theorem exists_readAll_of_append
    (hcloses : comesTo (fun d cs => d.outer.isEmpty && cs.head? == some ')') taken cs d = false)
    (htaken : taken ≤ cs.length) (h : readAll next taken (cs ++ closing c) (d.around l) = some d')
    (houter : d'.outer = []) : ∃ own, readAll next taken cs d = some own := by
  have haround : ∀ d : Draft, (d.around l).outer ≠ [] := fun d => by simp [around]
  induction cs generalizing taken d with
  | nil =>
    obtain rfl := Nat.le_zero.mp htaken
    exact ⟨d, rfl⟩
  | cons e cs ih =>
    cases taken with
    | succ taken => exact ih hcloses (Nat.le_of_succ_le_succ htaken) h
    | zero =>
      rw [comesTo, Bool.or_eq_false_iff] at hcloses
      obtain ⟨⟨d'', k'⟩, hread, hrest⟩ := Option.bind_eq_some_iff.mp h
      cases hnext : d.next (e :: cs) with
      | none =>
        by_cases he : e = ')'
        · subst he
          rw [outer_eq_nil_of_next hnext] at hcloses
          cases hcloses.1
        · obtain ⟨hbeyond, heq⟩ := beyond_of_next he hnext hread
          exact absurd houter (outer_of_beyond hbeyond hrest (heq ▸ haround d))
      | some r =>
        obtain ⟨own, k⟩ := r
        rw [hnext] at hcloses
        obtain ⟨-, k'', hk, -, hread'⟩ := next_append (l := l) (closes_closing c) hnext
        cases hread'.symm.trans hread
        rw [readAll, hnext]
        rcases hk with ⟨hle, rfl⟩ | ⟨-, rfl⟩
        · exact ih hcloses.2 (Nat.sub_le_of_le_add hle) hrest
        · have hlast : readAll next (cs ++ closing c).length (cs ++ closing c) (own.around l) =
              some d' := hrest
          rw [readAll_length] at hlast
          cases hlast
          exact absurd houter (haround own)

theorem outer_of_readAll_closing (h : readAll next 0 (closing c) (d.around l) = some d')
    (houter : d'.outer = []) : d.outer = [] := by
  cases hopen : d.outer with
  | nil => rfl
  | cons below outer =>
    have hnext : (d.around l).next (closing c) =
        some ({ d with level := below.push ⟨d.level.content, d.level.body.depth + 1, true⟩
                       outer := outer ++ [l] }, 1) := by
      rw [next_closing, leave?, around, hopen]
      rfl
    rw [closing, readAll, ← closing, hnext] at h
    exact absurd houter (outer_of_readAll_escape h (by simp))

end Draft

/-- **A text that stays in its group writes there what it writes alone**, followed by the
character. -/
theorem piece?_enclosed (h : StaysEnclosed written) (c : Option Char) :
    piece? ("(?:".toList ++ written ++ closing c) = (piece? written).map (·.enclosed c) := by
  have hread : ∀ d, readAll Draft.next 0 written .start = some d → d.outer = [] →
      readAll Draft.next 0 ("(?:".toList ++ written ++ closing c) .start = some (d.closed c) ∧
        d.level.index = none := by
    intro d hd houter
    have hbottom := (Draft.readAll_append (closes_closing c) (l := Draft.start.level)
      (.inl ⟨Nat.zero_le _, rfl⟩) hd).1
    rw [Draft.bottom, houter] at hbottom
    rw [List.append_assoc, Draft.readAll_opening, Draft.readAll_append_of_closed h.endsInComment
      (Nat.zero_le _) hd houter, Draft.readAll_closing houter]
    exact ⟨rfl, hbottom⟩
  cases hpiece : piece? written with
  | some p =>
    obtain ⟨d, hd, houter, rfl⟩ := piece?_eq_some_iff.mp hpiece
    obtain ⟨hclosed, hindex⟩ := hread d hd houter
    refine piece?_eq_some_iff.mpr ⟨_, hclosed, ?_, Draft.body_closed hindex⟩
    cases c <;> exact houter
  | none =>
    rw [Option.map_none, Option.eq_none_iff_forall_ne_some]
    intro q hq
    obtain ⟨d', hd', houter', -⟩ := piece?_eq_some_iff.mp hq
    rw [List.append_assoc, Draft.readAll_opening] at hd'
    obtain ⟨d, hd⟩ := Draft.exists_readAll_of_append h.closesOther (Nat.zero_le _) hd' houter'
    -- the text is read to its end, where no group is open
    have houter : d.outer = [] := by
      rcases (Draft.readAll_append (closes_closing c) (l := Draft.start.level)
        (.inl ⟨Nat.zero_le _, rfl⟩) hd).2 with hclosing | hswallowed
      · rw [hclosing] at hd'
        exact Draft.outer_of_readAll_closing hd' houter'
      · cases hswallowed.symm.trans hd'
        simp [Draft.around] at houter'
    rw [piece?_eq_some_iff.mpr ⟨d, hd, houter, rfl⟩] at hpiece
    cases hpiece

end Highlighting.Regex
