/-
  Highlighting/Proofs/Regex/Completed.lean
  ========================================
  **A construct that is completed by what follows opens and closes no group.**

  The reader cannot go on in a text, but could with a closing parenthesis and
  more behind it.  There is one parenthesis fewer then to close a group with,
  for it has been read as a part of something else (`Draft.beyond_of_next`).
-/
import Highlighting.Proofs.Regex.Beyond

namespace Highlighting.Regex

variable {cs : List Char} {c : Option Char} {n : Nat}

/-! ### Counts and groups -/

namespace Draft

variable {d d' : Draft} {l : Level}

/-- The rest of the counts behind a comma, up to the closing brace. -/
def readMost (least n : Nat) (rest : List Char) : Option (Nat × Option Nat × Nat) :=
  match rest with
  | '\x7d' :: _ => some (least, none, n + 2)
  | rest =>
    (readCount rest).1.bind fun most =>
      if least ≤ most && (rest.drop (readCount rest).2).head? == some '\x7d' then
        some (least, some most, n + (readCount rest).2 + 2)
      else none

theorem readMost_plain {least : Nat} {rest : List Char} (h : rest.head? ≠ some '\x7d') :
    readMost least n rest = (readCount rest).1.bind fun most =>
      if least ≤ most && (rest.drop (readCount rest).2).head? == some '\x7d' then
        some (least, some most, n + (readCount rest).2 + 2)
      else none := by
  rw [readMost.eq_def]
  split
  · exact absurd rfl h
  · rfl

theorem readMost_eq_none {least : Nat} {rest : List Char} (h : readMost least n rest = none) :
    readMost least n (rest ++ closing c) = none := by
  have hclose := closes_closing c
  by_cases hhead : rest.head? = some '\x7d'
  · obtain ⟨later, rfl⟩ := List.head?_eq_some_iff.mp hhead
    cases h
  · have hhead' : (rest ++ closing c).head? ≠ some '\x7d' := by
      cases rest with
      | nil => simp [closing]
      | cons e rest => exact hhead
    rw [readMost_plain hhead] at h
    rw [readMost_plain hhead', readCount_append hclose,
      drop_append_of_le (length_readCount_le rest)]
    cases hsecond : (readCount rest).1 with
    | none => rfl
    | some most =>
      rw [hsecond, Option.bind_some] at h
      rw [Option.bind_some]
      cases hlater : rest.drop (readCount rest).2 with
      | nil =>
        refine if_neg fun hclosed => ?_
        rw [Bool.and_eq_true] at hclosed
        cases hclosed.2
      | cons e later =>
        rw [hlater] at h
        exact h

/-- What follows the first count, which is `n` characters long. -/
def readBehind (least n : Nat) : List Char → Option (Nat × Option Nat × Nat)
  | '\x7d' :: _ => some (least, some least, n + 1)
  | ',' :: rest => readMost least n rest
  | _ => none

theorem readCounts_eq (cs : List Char) :
    readCounts cs = (readCount cs).1.bind fun least =>
      readBehind least (readCount cs).2 (cs.drop (readCount cs).2) := by
  rw [readCounts]
  cases hcount : readCount cs with
  | mk low k =>
    refine congrArg (Option.bind low) (funext fun least => ?_)
    dsimp only
    generalize cs.drop k = behind
    split
    · rfl
    · rfl
    · next rest hrest =>
      have hhead : rest.head? ≠ some '\x7d' := by
        intro h
        obtain ⟨later, rfl⟩ := List.head?_eq_some_iff.mp h
        exact hrest later rfl
      exact (readMost_plain hhead).symm
    · next hbrace hcomma hother =>
      rw [readBehind.eq_def]
      split
      · next later => exact absurd rfl (hbrace later)
      · next rest => exact absurd rfl (hother rest)
      · rfl

/-- Counts end at a brace, in front of which there is no parenthesis. -/
theorem readCounts_eq_none (h : readCounts cs = none) : readCounts (cs ++ closing c) = none := by
  rw [readCounts_eq] at h ⊢
  rw [readCount_append (closes_closing c), drop_append_of_le (length_readCount_le cs)]
  cases hleast : (readCount cs).1 with
  | none => rfl
  | some least =>
    rw [hleast, Option.bind_some] at h
    rw [Option.bind_some]
    cases hrest : cs.drop (readCount cs).2 with
    | nil => rfl
    | cons e rest =>
      rw [hrest] at h
      rw [List.cons_append]
      by_cases he : e = '\x7d'
      · subst he
        cases h
      · by_cases he' : e = ','
        · subst he'
          exact readMost_eq_none h
        · rw [readBehind.eq_def]
          split
          · next heq => exact absurd (List.cons.inj heq).1 he
          · next heq => exact absurd (List.cons.inj heq).1 he'
          · rfl

theorem readFlags_of_append {read : List Char} {f' : Flags} {grouped : Bool}
    (hnone : readFlags f read cs = none)
    (h : readFlags f read (cs ++ closing c) = some (f', grouped, n)) :
    n = cs.length + 1 ∧ grouped = false := by
  induction cs generalizing f read f' grouped n with
  | nil =>
    have hends : (decide (')' = ':') || decide (')' = ')')) = true := rfl
    rw [List.nil_append, closing, readFlags, if_pos hends] at h
    split at h
    · cases h
    · cases h
      exact ⟨rfl, rfl⟩
  | cons e cs ih =>
    rw [List.cons_append] at h
    rw [readFlags] at hnone h
    split at h
    · next he =>
      rw [if_pos he, h] at hnone
      cases hnone
    · next he =>
      rw [if_neg he] at hnone
      split at h
      · cases h
      · next hread =>
        rw [if_neg hread] at hnone
        have hgo : ∀ flags : Flags,
            ((readFlags flags (e :: read) cs).bind fun r => some (r.1, r.2.1, r.2.2 + 1)) = none →
            ((readFlags flags (e :: read) (cs ++ closing c)).bind
              fun r => some (r.1, r.2.1, r.2.2 + 1)) = some (f', grouped, n) →
            n = (e :: cs).length + 1 ∧ grouped = false := by
          intro flags hnone h
          obtain ⟨⟨flags', grouped', k⟩, hrest, h⟩ := Option.bind_eq_some_iff.mp h
          cases h
          cases hown : readFlags flags (e :: read) cs with
          | none =>
            obtain ⟨rfl, hgrouped⟩ := ih hown hrest
            exact ⟨rfl, hgrouped⟩
          | some r =>
            rw [hown] at hnone
            cases hnone
        dsimp only at hnone h
        by_cases hminus : e = '-'
        · rw [if_pos hminus] at hnone h
          exact hgo f hnone h
        · rw [if_neg hminus] at hnone h
          obtain ⟨flags, hflags, h⟩ := Option.bind_eq_some_iff.mp h
          rw [hflags] at hnone
          exact hgo flags hnone h

theorem readName_eq_none (h : d.readName cs = none) : d.readName (cs ++ closing c) = none := by
  rw [readName] at h ⊢
  rcases Nat.lt_or_ge (cs.takeWhile (· != '>')).length cs.length with hlt | hge
  · obtain ⟨later, hlater⟩ := drop_takeWhile_of_lt hlt
    rw [takeWhile_append_of_lt hlt, drop_append_of_le (Nat.le_of_lt hlt), hlater]
    rw [hlater] at h
    exact h
  · have hmem : ')' ∈ (cs ++ closing c).takeWhile (· != '>') :=
      parenthesis_mem_takeWhile (by decide) hge _
    generalize (cs ++ closing c).takeWhile (· != '>') = name at hmem
    cases name with
    | nil => cases hmem
    | cons e rest =>
      have hinvalid : (isNameChar true e && rest.all (isNameChar false)) = false := by
        rcases List.mem_cons.mp hmem with rfl | hmem
        · rfl
        · rw [List.all_eq_false.mpr ⟨')', hmem, by decide⟩, Bool.and_false]
      refine if_neg fun hvalid => ?_
      rw [Bool.and_eq_true, Bool.and_eq_true] at hvalid
      exact Bool.false_ne_true (hinvalid.symm.trans hvalid.1.1)

theorem readNamed_eq_none {rest : List Char} {blank k : Nat}
    (h : d.readNamed rest blank k = none) :
    (d.around l).readNamed (rest ++ closing c) blank k = none := by
  cases hname : d.readName rest with
  | none =>
    rw [readNamed, readName_around, readName_eq_none hname]
    rfl
  | some name =>
    rw [readNamed, hname] at h
    cases h

theorem beyond_of_readGroup (hnone : d.readGroup cs = none)
    (h : (d.around l).readGroup (cs ++ closing c) = some (d', n)) :
    Beyond (closing c) cs n ∧ d'.outer = (d.around l).outer := by
  have hclose := closes_closing c
  have hle := skip_le d.level.flags cs
  rw [readGroup] at hnone h
  have hlevel : (d.around l).level.flags = d.level.flags := rfl
  rw [hlevel] at h
  rcases skip_append hclose d.level.flags cs with hskip | ⟨hall, -⟩
  · rw [hskip, drop_append_of_le hle] at h
    generalize d.level.flags.skip cs = blank at *
    split at hnone
    · next rest hrest =>
      rw [hrest] at h
      have hnamed : (d.around l).readNamed (rest ++ closing c) blank 3 = some (d', n) := h
      rw [readNamed_eq_none hnone] at hnamed
      cases hnamed
    · next rest hrest =>
      rw [hrest] at h
      have hnamed : (d.around l).readNamed (rest ++ closing c) blank 2 = some (d', n) := h
      rw [readNamed_eq_none hnone] at hnamed
      cases hnamed
    · next rest hnamed₁ hnamed₂ hrest =>
      have hplain := append_ne_of_ne hclose hnamed₂ hnamed₁
      have hlength := congrArg List.length hrest
      rw [List.length_drop, List.length_cons] at hlength
      rw [hrest, List.cons_append] at h
      split at h
      · next heq => exact absurd (List.cons.inj heq).2 (hplain _).2
      · next heq => exact absurd (List.cons.inj heq).2 (hplain _).1
      · next heq =>
        cases heq
        obtain ⟨⟨flags, grouped, k⟩, hflags, h⟩ := Option.bind_eq_some_iff.mp h
        cases hown : readFlags d.level.flags [] rest with
        | none =>
          -- the switch of flags ends with the parenthesis
          obtain ⟨rfl, rfl⟩ := readFlags_of_append hown hflags
          by_cases hrest' : rest.length + 1 = 1
          · dsimp only at h
            rw [if_neg Bool.false_ne_true, if_pos hrest'] at h
            cases h
          · dsimp only at h
            rw [if_neg Bool.false_ne_true, if_neg hrest'] at h
            cases h
            exact ⟨.inl (by omega), rfl⟩
        | some r =>
          obtain ⟨-, hown'⟩ := readFlags_append hown (closing c)
          cases hown'.symm.trans hflags
          rw [hown] at hnone
          dsimp only [Option.bind_eq_bind, Option.bind_some] at h hnone
          split at h
          · next hgrouped =>
            rw [if_pos hgrouped] at hnone
            cases hnone
          · next hgrouped =>
            rw [if_neg hgrouped] at hnone
            split at h
            · cases h
            · next hk =>
              rw [if_neg hk] at hnone
              cases hnone
      · next hnot => exact absurd rfl (hnot _)
    · cases hnone
  · rw [hall, List.drop_length] at hnone
    cases hnone

theorem repeat?_eq_none {greedy : Bool} {least : Nat} {most : Option Nat}
    (h : d.repeat? greedy least most = none) : (d.around l).repeat? greedy least most = none := by
  have hlevel : (d.around l).level.pieces = d.level.pieces := rfl
  rw [repeat?] at h ⊢
  rw [hlevel]
  cases hpieces : d.level.pieces with
  | nil => rfl
  | cons p ps =>
    rw [hpieces] at h
    dsimp only at h
    split at h
    · cases h
    · next hp => exact if_neg hp

theorem repetition_eq_none {least m : Nat} {most : Option Nat} {rest : List Char}
    (h : d.repetition least most m rest = none) :
    (d.around l).repetition least most m (rest ++ closing c) = none := by
  rw [repetition] at h ⊢
  rw [head?_append (closes_closing c)]
  exact Option.map_eq_none_iff.mpr (repeat?_eq_none (Option.map_eq_none_iff.mp h))

/-- **What only more text completes goes beyond the text**, and opens and closes no group; unless it
is a closing parenthesis that lacks its partner. -/
theorem beyond_of_next {e : Char} {rest : List Char} (he : e ≠ ')')
    (hnone : d.next (e :: rest) = none)
    (h : (d.around l).next (e :: rest ++ closing c) = some (d', n)) :
    Beyond (closing c) (e :: rest) n ∧ d'.outer = (d.around l).outer := by
  have hclose := closes_closing c
  rw [List.cons_append] at h
  rw [next.eq_def] at hnone h
  dsimp only at hnone h
  have hlevel : (d.around l).level.flags = d.level.flags := rfl
  rw [hlevel, ← List.cons_append] at h
  split at hnone
  · cases hnone
  · next hzero =>
    have hskip : d.level.flags.skip (e :: rest ++ closing c) = 0 := by
      rw [skip_append_of_lt hclose (by rw [hzero]; exact Nat.succ_pos _), hzero]
    rw [hskip] at h
    dsimp only at h
    split at hnone
    · cases hnone
    · exact absurd rfl he
    · obtain ⟨⟨d'', k⟩, hgroup, hn⟩ := Option.map_eq_some_iff.mp h
      cases hn
      obtain ⟨hbeyond, houter⟩ := beyond_of_readGroup (Option.map_eq_none_iff.mp hnone) hgroup
      exact ⟨hbeyond.cons _, houter⟩
    · obtain ⟨⟨s, k⟩, hclass, hn⟩ := Option.map_eq_some_iff.mp h
      cases hn
      have hbeyond := overreaches_readClass c _ _ _ _ (Option.map_eq_none_iff.mp hnone) hclass
      exact ⟨hbeyond.cons _, rfl⟩
    · rw [repetition_eq_none hnone] at h
      cases h
    · rw [repetition_eq_none hnone] at h
      cases h
    · rw [repetition_eq_none hnone] at h
      cases h
    · cases hcounts : readCounts rest with
      | none =>
        rw [readCounts_eq_none hcounts] at h
        cases h
      | some r =>
        obtain ⟨least, most, k⟩ := r
        obtain ⟨hk, hcounts'⟩ := readCounts_append hclose hcounts
        rw [hcounts] at hnone
        rw [hcounts'] at h
        dsimp only [Option.bind_eq_bind, Option.bind_some] at hnone h
        rw [drop_append_of_le hk, repetition_eq_none hnone] at h
        cases h
    · rw [Option.map_eq_none_iff.mp hnone] at h
      cases h
    · cases hnone
    · cases hnone
    · obtain ⟨⟨x, k⟩, hescape, hn⟩ := Option.map_eq_some_iff.mp h
      have hbeyond := overreaches_readEscape c _ _ _ _ (Option.map_eq_none_iff.mp hnone) hescape
      cases x with
      | char a =>
        cases hn
        exact ⟨hbeyond.cons _, rfl⟩
      | set s =>
        cases hn
        exact ⟨hbeyond.cons _, rfl⟩
      | anchor a =>
        cases hn
        exact ⟨hbeyond.cons _, rfl⟩
    · cases hnone

end Draft

end Highlighting.Regex
