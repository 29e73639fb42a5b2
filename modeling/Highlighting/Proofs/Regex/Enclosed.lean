/-
  Highlighting/Proofs/Regex/Enclosed.lean
  =======================================
  **An expression in a group of its own** is what it is alone.

  A text that writes an expression can be put between parentheses, with more
  behind them: the reader goes through it as it does without them, with one
  more level around all its own (`Draft.next_append`).  So at the end there is
  one piece, and that is the expression (`parse?_enclosed`).

  The text alone has to write an expression for this.  Between parentheses
  `a)(b` is read as well, as two groups.
-/
import Highlighting.Proofs.Regex.Classes
import Highlighting.Regex.Parser

namespace Highlighting.Regex

variable {tail cs : List Char} {f : Flags} {n : Nat}

/-! ### Counts -/

theorem readCount_append (htail : Closes tail) (cs : List Char) :
    Draft.readCount (cs ++ tail) = Draft.readCount cs := by
  have hspace : CharClass.isSpace ')' = false := by decide
  have hdigit : CharClass.isAsciiDigit ')' = false := by decide
  have hle : ∀ (p : Char → Bool) (cs : List Char), (cs.takeWhile p).length ≤ cs.length :=
    fun p cs => (List.takeWhile_sublist p).length_le
  have hle' := hle CharClass.isSpace cs
  have hle'' := hle CharClass.isAsciiDigit (cs.drop (cs.takeWhile CharClass.isSpace).length)
  rw [List.length_drop] at hle''
  rw [Draft.readCount, Draft.readCount, htail.takeWhile_append hspace, drop_append_of_le hle',
    htail.takeWhile_append hdigit, drop_append_of_le (by omega), htail.takeWhile_append hspace]

theorem length_readCount_le (cs : List Char) : (Draft.readCount cs).2 ≤ cs.length := by
  have hle : ∀ (p : Char → Bool) (cs : List Char), (cs.takeWhile p).length ≤ cs.length :=
    fun p cs => (List.takeWhile_sublist p).length_le
  rw [Draft.readCount]
  dsimp only
  have h₁ := hle CharClass.isSpace cs
  have h₂ := hle CharClass.isAsciiDigit (cs.drop (cs.takeWhile CharClass.isSpace).length)
  generalize (cs.takeWhile CharClass.isSpace).length = before at *
  generalize ((cs.drop before).takeWhile CharClass.isAsciiDigit).length = digits at *
  have h₃ := hle CharClass.isSpace (cs.drop (before + digits))
  rw [List.length_drop] at h₂ h₃
  omega

theorem readCounts_append (htail : Closes tail) {least : Nat} {most : Option Nat}
    (h : Draft.readCounts cs = some (least, most, n)) :
    n ≤ cs.length ∧ Draft.readCounts (cs ++ tail) = some (least, most, n) := by
  have hle := length_readCount_le cs
  rw [Draft.readCounts] at h ⊢
  rw [readCount_append htail]
  cases hcount : Draft.readCount cs with
  | mk low k =>
    rw [hcount] at h hle
    dsimp only at h hle ⊢
    cases low with
    | none => cases h
    | some l =>
      rw [Option.bind_eq_bind, Option.bind_some] at h ⊢
      rw [drop_append_of_le hle]
      split at h
      · next rest hrest =>
        have hlt := length_lt_of_drop_eq_cons hrest
        cases h
        rw [hrest]
        exact ⟨hlt, rfl⟩
      · next rest hrest =>
        have hlength := congrArg List.length hrest
        rw [List.length_drop, List.length_cons, List.length_cons] at hlength
        cases h
        rw [hrest]
        exact ⟨by omega, rfl⟩
      · next rest hopen hrest =>
        have hlength := congrArg List.length hrest
        rw [List.length_drop, List.length_cons] at hlength
        obtain ⟨u, hu, h⟩ := Option.bind_eq_some_iff.mp h
        split at h
        · next hclosed =>
          rw [Bool.and_eq_true, beq_iff_eq] at hclosed
          obtain ⟨later, hlater⟩ := List.head?_eq_some_iff.mp hclosed.2
          have hlt := length_lt_of_drop_eq_cons hlater
          rw [hrest, List.cons_append]
          cases h
          refine ⟨by omega, ?_⟩
          split
          · next heq => exact absurd (List.cons.inj heq).1 (by decide)
          · next heq =>
            -- the second count does not begin with the closing brace
            cases rest with
            | nil => exact absurd hlt (Nat.not_lt_zero _)
            | cons d ds =>
              have hd := (List.cons.inj (List.cons.inj heq).2).1
              exact absurd (congrArg (· :: ds) hd) (hopen ds)
          · next heq =>
            cases heq
            rw [readCount_append htail, hu, drop_append_of_le (Nat.le_of_lt hlt), hlater,
              Option.bind_some]
            exact if_pos (by rw [Bool.and_eq_true]; exact ⟨hclosed.1, rfl⟩)
          · next hnot => exact absurd rfl (hnot _)
        · cases h
      · cases h

/-! ### Groups -/

theorem readFlags_append {f' : Flags} {grouped : Bool} {read : List Char}
    (h : Draft.readFlags f read cs = some (f', grouped, n)) (tail : List Char) :
    n ≤ cs.length ∧ Draft.readFlags f read (cs ++ tail) = some (f', grouped, n) := by
  induction cs generalizing f read f' grouped n with
  | nil => cases h
  | cons c cs ih =>
    rw [List.cons_append, List.length_cons]
    rw [Draft.readFlags] at h ⊢
    split at h
    · next hc =>
      rw [if_pos hc]
      split at h
      · cases h
      · next hlast =>
        rw [if_neg hlast]
        cases h
        exact ⟨Nat.succ_le_succ (Nat.zero_le _), rfl⟩
    · next hc =>
      rw [if_neg hc]
      split at h
      · cases h
      · next hread =>
        rw [if_neg hread]
        have hgo : ∀ flags : Flags,
            ((Draft.readFlags flags (c :: read) cs).bind fun r => some (r.1, r.2.1, r.2.2 + 1)) =
              some (f', grouped, n) →
            n ≤ cs.length + 1 ∧ ((Draft.readFlags flags (c :: read) (cs ++ tail)).bind
              fun r => some (r.1, r.2.1, r.2.2 + 1)) = some (f', grouped, n) := by
          intro flags h
          obtain ⟨⟨flags', grouped', k⟩, hrest, h⟩ := Option.bind_eq_some_iff.mp h
          obtain ⟨hk, hrest'⟩ := ih hrest
          cases h
          rw [hrest']
          exact ⟨Nat.succ_le_succ hk, rfl⟩
        dsimp only at h ⊢
        by_cases hminus : c = '-'
        · rw [if_pos hminus] at h ⊢
          exact hgo f h
        · rw [if_neg hminus] at h ⊢
          obtain ⟨flags, hflags, h⟩ := Option.bind_eq_some_iff.mp h
          rw [hflags]
          exact hgo flags h

theorem readName_append {d : Draft} {name : List Char} (h : d.readName cs = some name)
    (tail : List Char) :
    name.length + 1 ≤ cs.length ∧ d.readName (cs ++ tail) = some name := by
  rw [Draft.readName] at h ⊢
  have hlt : (cs.takeWhile (· != '>')).length < cs.length := by
    rcases Nat.lt_or_ge (cs.takeWhile (· != '>')).length cs.length with hlt | hge
    · exact hlt
    · rw [List.drop_eq_nil_of_le hge] at h
      simp at h
  rw [takeWhile_append_of_lt hlt, drop_append_of_le (Nat.le_of_lt hlt)]
  obtain ⟨c, rest, hrest⟩ : ∃ c rest, cs.drop (cs.takeWhile (· != '>')).length = c :: rest :=
    List.exists_cons_of_length_pos (by rw [List.length_drop]; omega)
  rw [hrest] at h ⊢
  refine ⟨?_, h⟩
  obtain ⟨-, hname⟩ := Option.ite_none_right_eq_some.mp h
  cases hname
  exact hlt

/-! ### Drafts with a level around -/

namespace Draft

variable {d d' : Draft} {l : Level}

/-- With one more level around all others. -/
def around (l : Level) (d : Draft) : Draft := { d with outer := d.outer ++ [l] }

/-- The level that was open first. -/
def bottom (d : Draft) : Level := d.outer.getLastD d.level

theorem bottom_index_of_level {level : Level} (h : level.index = d.level.index) :
    ({ d with level } : Draft).bottom.index = d.bottom.index := by
  rw [bottom, bottom]
  dsimp only
  cases d.outer with
  | nil => exact h
  | cons below outer => rfl

theorem leave?_around (h : d.leave? = some d') :
    (d.around l).leave? = some (d'.around l) ∧ d'.bottom.index = d.bottom.index := by
  rw [leave?] at h
  split at h
  · cases h
  · next below outer houter =>
    cases h
    constructor
    · rw [leave?, around, houter]
      rfl
    · rw [bottom, bottom, houter]
      dsimp only
      cases outer with
      | nil => rfl
      | cons below' outer => rfl

theorem repeat?_around {greedy : Bool} {least : Nat} {most : Option Nat}
    (h : d.repeat? greedy least most = some d') :
    (d.around l).repeat? greedy least most = some (d'.around l) ∧
      d'.bottom.index = d.bottom.index := by
  rw [repeat?] at h
  split at h
  · next p ps hpieces =>
    split at h
    · next hp =>
      cases h
      constructor
      · have hpieces' : (d.around l).level.pieces = p :: ps := hpieces
        rw [repeat?, hpieces']
        exact if_pos hp
      · exact bottom_index_of_level rfl
    · cases h
  · cases h

theorem head?_append (htail : Closes tail) (rest : List Char) :
    ((rest ++ tail).head? == some '?') = (rest.head? == some '?') := by
  obtain ⟨later, rfl⟩ := htail.exists_cons
  cases rest with
  | nil => rfl
  | cons c rest => rfl

theorem repetition_append (htail : Closes tail) {least m : Nat} {most : Option Nat}
    {rest : List Char} (h : d.repetition least most m rest = some (d', n)) :
    n ≤ m + rest.length ∧ d'.bottom.index = d.bottom.index ∧
      (d.around l).repetition least most m (rest ++ tail) = some (d'.around l, n) := by
  rw [repetition] at h ⊢
  rw [head?_append htail]
  obtain ⟨d'', hd'', hn⟩ := Option.map_eq_some_iff.mp h
  obtain ⟨hrepeat, hbottom⟩ := repeat?_around (l := l) hd''
  have hrepeat' : (d.around l).repeat? ((d.around l).level.flags.greed (rest.head? == some '?'))
      least most = some (d''.around l) := hrepeat
  rw [hrepeat']
  cases hn
  refine ⟨?_, hbottom, rfl⟩
  split
  · next hmarked =>
    obtain ⟨later, rfl⟩ := List.head?_eq_some_iff.mp (eq_of_beq hmarked)
    rw [List.length_cons]
    omega
  · omega

theorem bottom_enter (flags : Flags) : (d.enter flags).bottom = d.bottom :=
  List.getLastD_cons ..

theorem bottom_enterNumbered : d.enterNumbered.bottom = d.bottom := List.getLastD_cons ..

/-- As much of the text is read, or all of it and then all that follows. -/
def AsFar (tail cs : List Char) (n n' : Nat) : Prop :=
  n ≤ cs.length ∧ n' = n ∨ n = cs.length ∧ n' = (cs ++ tail).length

theorem AsFar.cons {m : Nat} (h : AsFar tail cs n m) (c : Char) :
    AsFar tail (c :: cs) (n + 1) (m + 1) := by
  rcases h with ⟨hle, rfl⟩ | ⟨rfl, rfl⟩
  · exact .inl ⟨Nat.succ_le_succ hle, rfl⟩
  · exact .inr ⟨rfl, rfl⟩

theorem readName_around (name : List Char) : (d.around l).readName name = d.readName name := rfl

/-- The group whose name is read, behind `k` characters of which `blank` are skipped. -/
def readNamed (d : Draft) (rest : List Char) (blank k : Nat) : Option (Draft × Nat) := do
  let name ← d.readName rest
  return ({ d with names := name :: d.names }.enterNumbered, blank + k + name.length + 1)

theorem readNamed_append {rest : List Char} {blank k : Nat}
    (h : d.readNamed rest blank k = some (d', n)) (tail : List Char) :
    n ≤ blank + k + rest.length ∧ d'.bottom.index = d.bottom.index ∧
      (d.around l).readNamed (rest ++ tail) blank k = some (d'.around l, n) := by
  obtain ⟨name, hname, hn⟩ := Option.bind_eq_some_iff.mp h
  obtain ⟨hle, hname'⟩ := readName_append hname tail
  cases hn
  refine ⟨by omega, congrArg Level.index bottom_enterNumbered, ?_⟩
  rw [readNamed, readName_around, hname']
  rfl

/-- The parenthesis does not make a text that begins like a name. -/
theorem append_ne_of_ne (htail : Closes tail) (h₁ : ∀ r, cs ≠ '<' :: r)
    (h₂ : ∀ r, cs ≠ 'P' :: '<' :: r) (r : List Char) :
    cs ++ tail ≠ '<' :: r ∧ cs ++ tail ≠ 'P' :: '<' :: r := by
  obtain ⟨later, rfl⟩ := htail.exists_cons
  match cs, h₁, h₂ with
  | [], _, _ => simp
  | [c], h₁, _ =>
    have hc : c ≠ '<' := fun heq => h₁ [] (by rw [heq])
    simp [hc]
  | c :: d :: rest, h₁, h₂ =>
    constructor
    · intro heq
      exact h₁ (d :: rest) (by rw [(List.cons.inj heq).1])
    · intro heq
      have htwo := List.cons.inj heq
      exact h₂ rest (by rw [htwo.1, (List.cons.inj htwo.2).1])

theorem readGroup_append (htail : Closes tail) (h : d.readGroup cs = some (d', n)) :
    d'.bottom.index = d.bottom.index ∧ ∃ n', AsFar tail cs n n' ∧ (n' ≠ n → d'.outer ≠ []) ∧
      (d.around l).readGroup (cs ++ tail) = some (d'.around l, n') := by
  have hle := skip_le d.level.flags cs
  rw [readGroup] at h ⊢
  have hlevel : (d.around l).level.flags = d.level.flags := rfl
  rw [hlevel]
  rcases skip_append htail d.level.flags cs with hskip | ⟨hall, hskip⟩
  · rw [hskip, drop_append_of_le hle]
    generalize d.level.flags.skip cs = blank at *
    split at h
    · next rest hrest =>
      have hlength := congrArg List.length hrest
      rw [List.length_drop] at hlength
      simp only [List.length_cons] at hlength
      obtain ⟨hn, hbottom, hnamed⟩ := readNamed_append (l := l) (k := 3) h tail
      refine ⟨hbottom, n, .inl ⟨by omega, rfl⟩, fun hne => absurd rfl hne, ?_⟩
      rw [hrest]
      exact hnamed
    · next rest hrest =>
      have hlength := congrArg List.length hrest
      rw [List.length_drop] at hlength
      simp only [List.length_cons] at hlength
      obtain ⟨hn, hbottom, hnamed⟩ := readNamed_append (l := l) (k := 2) h tail
      refine ⟨hbottom, n, .inl ⟨by omega, rfl⟩, fun hne => absurd rfl hne, ?_⟩
      rw [hrest]
      exact hnamed
    · next rest hnamed₁ hnamed₂ hrest =>
      have hlength := congrArg List.length hrest
      rw [List.length_drop, List.length_cons] at hlength
      obtain ⟨⟨flags, grouped, k⟩, hflags, h⟩ := Option.bind_eq_some_iff.mp h
      obtain ⟨hk, hflags'⟩ := readFlags_append hflags tail
      have hplain := append_ne_of_ne htail hnamed₂ hnamed₁
      have hgroup : d'.bottom.index = d.bottom.index ∧ n = blank + k + 1 ∧
          ((if grouped then some ((d.around l).enter flags, blank + k + 1)
            else if k = 1 then none
            else some ({ d.around l with level := { d.level with flags }.push ⟨empty, 0, false⟩ },
              blank + k + 1)) = some (d'.around l, n)) := by
        dsimp only at h
        split at h
        · next hgrouped =>
          cases h
          exact ⟨congrArg Level.index (bottom_enter _), rfl, if_pos hgrouped⟩
        · next hgrouped =>
          by_cases hk : k = 1
          · rw [if_pos hk] at h
            cases h
          · rw [if_neg hk] at h
            cases h
            exact ⟨bottom_index_of_level rfl, rfl, by rw [if_neg hgrouped, if_neg hk]; rfl⟩
      refine ⟨hgroup.1, n, .inl ⟨by omega, rfl⟩, fun hne => absurd rfl hne, ?_⟩
      rw [hrest, List.cons_append]
      split
      · next heq => exact absurd (List.cons.inj heq).2 (hplain _).2
      · next heq => exact absurd (List.cons.inj heq).2 (hplain _).1
      · next heq =>
        cases heq
        rw [hflags']
        exact hgroup.2.2
      · next hnot => exact absurd rfl (hnot _)
    · next hnot₁ hnot₂ hnot₃ =>
      cases h
      refine ⟨congrArg Level.index bottom_enterNumbered, _, .inl ⟨hle, rfl⟩,
        fun hne => absurd rfl hne, ?_⟩
      have hplain : ∀ r, cs.drop n ++ tail ≠ '?' :: r := by
        intro r heq
        have hhead := head?_append htail (cs.drop n)
        rw [heq] at hhead
        obtain ⟨r', hr'⟩ := List.head?_eq_some_iff.mp (eq_of_beq hhead.symm)
        exact hnot₃ r' hr'
      split
      · next heq => exact absurd heq (hplain _)
      · next heq => exact absurd heq (hplain _)
      · next heq => exact absurd heq (hplain _)
      · rfl
  · -- a comment takes all that follows along
    rw [hskip, List.drop_length]
    rw [hall, List.drop_length] at h
    cases h
    exact ⟨congrArg Level.index bottom_enterNumbered, _, .inr ⟨rfl, rfl⟩,
      fun _ => List.cons_ne_nil _ _, rfl⟩

/-- A construct is read as it is without what follows.  Only a comment takes that along, and when it
is the last that is read, it is skipped or stands behind an opening parenthesis. -/
theorem next_append (htail : Closes tail) (h : d.next cs = some (d', n)) :
    d'.bottom.index = d.bottom.index ∧ ∃ n', AsFar tail cs n n' ∧
      (n' ≠ n → d'.outer ≠ [] ∨ d.level.flags.skip (cs ++ tail) = (cs ++ tail).length) ∧
      (d.around l).next (cs ++ tail) = some (d'.around l, n') := by
  cases cs with
  | nil => cases h
  | cons c rest =>
    rw [List.cons_append]
    rw [next.eq_def] at h ⊢
    dsimp only at h ⊢
    have hlevel : (d.around l).level.flags = d.level.flags := rfl
    rw [hlevel, ← List.cons_append]
    split at h
    · next k hk =>
      cases h
      refine ⟨rfl, ?_⟩
      rcases skip_append htail d.level.flags (c :: rest) with hskip | ⟨hall, hskip⟩
      · rw [hskip, hk]
        refine ⟨k + 1, .inl ⟨?_, rfl⟩, fun hne => absurd rfl hne, rfl⟩
        have hle := skip_le d.level.flags (c :: rest)
        rwa [hk] at hle
      · rw [hskip]
        exact ⟨_, .inr ⟨hk.symm.trans hall, rfl⟩, fun _ => .inr rfl, rfl⟩
    · next hzero =>
      have hskip : d.level.flags.skip (c :: rest ++ tail) = 0 := by
        rw [skip_append_of_lt htail (by rw [hzero]; exact Nat.succ_pos _), hzero]
      rw [hskip]
      dsimp only
      have hpush : ∀ (p : Piece) k, k ≤ rest.length →
          ({ d with level := d.level.push p }, k + 1) = (d', n) →
          d'.bottom.index = d.bottom.index ∧ ∃ n', AsFar tail (c :: rest) n n' ∧
            (n' ≠ n → d'.outer ≠ [] ∨ 0 = (c :: rest ++ tail).length) ∧
            some ({ d.around l with level := d.level.push p }, k + 1) = some (d'.around l, n') := by
        intro p k hk h
        cases h
        exact ⟨bottom_index_of_level rfl, k + 1, .inl ⟨Nat.succ_le_succ hk, rfl⟩,
          fun hne => absurd rfl hne, rfl⟩
      have hrepeat : ∀ {least m most rest'}, m + rest'.length ≤ (c :: rest).length →
          d.repetition least most m rest' = some (d', n) →
          d'.bottom.index = d.bottom.index ∧ ∃ n', AsFar tail (c :: rest) n n' ∧
            (n' ≠ n → d'.outer ≠ [] ∨ 0 = (c :: rest ++ tail).length) ∧
            (d.around l).repetition least most m (rest' ++ tail) = some (d'.around l, n') := by
        intro least m most rest' hm h
        obtain ⟨hle, hbottom, h'⟩ := repetition_append (l := l) htail h
        exact ⟨hbottom, n, .inl ⟨Nat.le_trans hle hm, rfl⟩, fun hne => absurd rfl hne, h'⟩
      have hone : 1 + rest.length ≤ (c :: rest).length := Nat.le_of_eq (Nat.add_comm _ _)
      split at h
      · cases h
        exact ⟨bottom_index_of_level rfl, 1, .inl ⟨Nat.le_add_left 1 _, rfl⟩,
          fun hne => absurd rfl hne, rfl⟩
      · obtain ⟨d'', hleave, hn⟩ := Option.map_eq_some_iff.mp h
        obtain ⟨hleave', hbottom⟩ := leave?_around (l := l) hleave
        cases hn
        refine ⟨hbottom, 1, .inl ⟨Nat.le_add_left 1 _, rfl⟩, fun hne => absurd rfl hne, ?_⟩
        rw [hleave']
        rfl
      · obtain ⟨⟨d'', k⟩, hgroup, hn⟩ := Option.map_eq_some_iff.mp h
        obtain ⟨hbottom, k', hk', hopens, hgroup'⟩ := readGroup_append (l := l) htail hgroup
        cases hn
        refine ⟨hbottom, k' + 1, hk'.cons _,
          fun hne => .inl (hopens fun heq => hne (congrArg (· + 1) heq)), ?_⟩
        rw [hgroup']
        rfl
      · obtain ⟨⟨s, k⟩, hclass, hn⟩ := Option.map_eq_some_iff.mp h
        obtain ⟨hk, hclass'⟩ := keeps_readClass htail _ _ _ _ hclass
        rw [hclass']
        exact hpush _ k hk hn
      · exact hrepeat hone h
      · exact hrepeat hone h
      · exact hrepeat hone h
      · obtain ⟨⟨least, most, k⟩, hcounts, h⟩ := Option.bind_eq_some_iff.mp h
        obtain ⟨hk, hcounts'⟩ := readCounts_append htail hcounts
        rw [hcounts', Option.bind_eq_bind, Option.bind_some]
        dsimp only
        rw [drop_append_of_le hk]
        refine hrepeat ?_ h
        rw [List.length_drop, List.length_cons]
        omega
      · obtain ⟨s, hdot, hn⟩ := Option.map_eq_some_iff.mp h
        rw [hdot]
        exact hpush _ 0 (Nat.zero_le _) hn
      · exact hpush _ 0 (Nat.zero_le _) (Option.some.inj h)
      · exact hpush _ 0 (Nat.zero_le _) (Option.some.inj h)
      · obtain ⟨⟨e, k⟩, hescape, hn⟩ := Option.map_eq_some_iff.mp h
        obtain ⟨hk, hescape'⟩ := keeps_readEscape htail _ _ _ _ hescape
        rw [hescape']
        cases e with
        | char c => exact hpush _ k hk hn
        | set s => exact hpush _ k hk hn
        | anchor a => exact hpush _ k hk hn
      · exact hpush _ 0 (Nat.zero_le _) (Option.some.inj h)

theorem AsFar.pred {c : Char} {m : Nat} (h : AsFar tail (c :: cs) n m) :
    AsFar tail cs (n - 1) (m - 1) := by
  rcases h with ⟨hle, rfl⟩ | ⟨rfl, rfl⟩
  · exact .inl ⟨Nat.sub_le_of_le_add hle, rfl⟩
  · exact .inr ⟨rfl, rfl⟩

theorem readAll_taken {σ : Type} {step : σ → List Char → Option (σ × Nat)} (xs rest : List Char)
    (s : σ) : readAll step xs.length (xs ++ rest) s = readAll step 0 rest s := by
  induction xs with
  | nil => rfl
  | cons x xs ih => exact ih

theorem readAll_length {σ : Type} (step : σ → List Char → Option (σ × Nat)) (cs : List Char)
    (s : σ) : readAll step cs.length cs s = some s := by
  have htaken : readAll step cs.length (cs ++ []) s = some s := readAll_taken cs [] s
  rwa [List.append_nil] at htaken

/-- What is read of a text to its end is read with a level around; if nothing takes along what
follows, that comes next. -/
theorem readAll_append (htail : Closes tail) {taken taken' : Nat}
    (htaken : AsFar tail cs taken taken') (h : readAll next taken cs d = some d') :
    d'.bottom.index = d.bottom.index ∧
      (readAll next taken' (cs ++ tail) (d.around l) = readAll next 0 tail (d'.around l) ∨
        readAll next taken' (cs ++ tail) (d.around l) = some (d'.around l)) := by
  induction cs generalizing taken taken' d with
  | nil =>
    obtain rfl : d = d' := Option.some.inj (by cases taken <;> exact h)
    refine ⟨rfl, ?_⟩
    rcases htaken with ⟨hle, rfl⟩ | ⟨-, rfl⟩
    · obtain rfl := Nat.le_zero.mp hle
      exact .inl rfl
    · exact .inr (readAll_length next tail _)
  | cons c cs ih =>
    rw [List.cons_append]
    cases taken with
    | succ taken =>
      have htaken' := htaken.pred
      rcases htaken with ⟨-, rfl⟩ | ⟨-, rfl⟩
      · exact ih htaken' h
      · exact ih htaken' h
    | zero =>
      obtain ⟨⟨d'', k⟩, hnext, hrest⟩ := Option.bind_eq_some_iff.mp h
      obtain ⟨hbottom, k', hk', -, hnext'⟩ := next_append (l := l) htail hnext
      rcases htaken with ⟨-, rfl⟩ | ⟨hzero, -⟩
      · have hih := ih hk'.pred hrest
        rw [← hbottom]
        refine ⟨hih.1, ?_⟩
        rw [List.cons_append] at hnext'
        rw [readAll, hnext']
        exact hih.2
      · cases hzero

end Draft

/-! ### Enclosed expressions -/

theorem simplified_single (c : Char) : (CharSet.single c).simplified = .single c := by
  rw [CharSet.simplified.eq_def]
  show CharSet.ofRanges [(c, c)] = CharSet.range c c
  simp [CharSet.ofRanges, CharSet.insertRange, CharSet.unionAll]

/-- A closing parenthesis, and the character if there is one. -/
def closing (c : Option Char) : List Char := ')' :: escape c.toList

theorem escape_singleton (c : Char) :
    escape [c] = if isSpecial c then ['\\', c] else [c] := List.append_nil _

theorem blankLength_singleton (c : Char) : blankLength true [c] = 1 := by
  rw [blankLength]
  cases c != '\n' <;> rfl

theorem closes_closing (c : Option Char) : Closes (closing c) := by
  refine ⟨⟨_, rfl⟩, ?_⟩
  cases c with
  | none => rfl
  | some c =>
    have hone := blankLength_singleton c
    rw [closing, Option.toList_some, escape_singleton]
    split
    · show 1 + (1 + blankLength true [c]) = 3
      rw [hone]
    · show 1 + blankLength true [c] = 2
      rw [hone]

theorem skip_parenthesis (f : Flags) (rest : List Char) : f.skip (')' :: rest) = 0 := by
  rw [Flags.skip]
  split <;> rfl

namespace Draft

/-- Before anything is read. -/
def start : Draft := ⟨0, [], .start .usual none, []⟩

theorem readAll_opening (cs : List Char) :
    readAll next 0 ("(?:".toList ++ cs) start = readAll next 0 cs (start.around start.level) := rfl

theorem push_character (d : Draft) (c : Char) :
    d.pushSet (Flags.usual.cased (.single c)) = d.push (char c) := by
  show d.push (set (CharSet.single c).simplified) = _
  rw [simplified_single]
  rfl

theorem readEscape_special {c : Char} (hc : isSpecial c = true) (f : Flags) :
    readEscape f [c] = some (.char c, 1) := by
  rw [isSpecial, List.contains_iff_mem] at hc
  simp only [List.mem_cons, List.not_mem_nil, or_false] at hc
  rcases hc with rfl | rfl | rfl | rfl | rfl | rfl | rfl | rfl | rfl | rfl | rfl | rfl | rfl |
    rfl | rfl | rfl | rfl | rfl
  all_goals rfl

theorem next_character {d : Draft} (c : Char) (hflags : d.level.flags = .usual) :
    readAll next 0 (escape [c]) d = some (d.push (char c)) := by
  have hskip : ∀ cs, d.level.flags.skip cs = 0 := by
    intro cs
    rw [hflags]
    rfl
  rw [escape_singleton]
  split
  · next hc =>
    have hnext : d.next ['\\', c] = some (d.push (char c), 2) := by
      rw [next.eq_def]
      dsimp only
      rw [hskip]
      show (readEscape d.level.flags [c]).map _ = _
      rw [hflags, readEscape_special hc .usual, Option.map_some]
      dsimp only
      rw [push_character]
    rw [readAll, hnext]
    rfl
  · next hc =>
    have hnext : d.next [c] = some (d.push (char c), 1) := by
      rw [next.eq_def]
      dsimp only
      rw [hskip, hflags]
      dsimp only
      split
      all_goals first
        | exact absurd rfl hc
        | rw [push_character]
    rw [readAll, hnext]
    rfl

theorem next_closing (d : Draft) (c : Option Char) : d.next (closing c) = d.leave?.map (·, 1) := by
  rw [closing, next.eq_def]
  dsimp only
  rw [skip_parenthesis]
  rfl

end Draft

/-- What the expression is with the character behind it. -/
def followedBy (own : Regex) : Option Char → Regex
  | none => own
  | some c => joined [own, char c]

/-- In a group of its own, with a character behind. -/
def Piece.enclosed (p : Piece) (c : Option Char) : Piece :=
  ⟨p.expr.followedBy c, p.depth + 1 + c.toList.length, true⟩

namespace Draft

variable {d : Draft} {c : Option Char}

/-- What is read when the parenthesis has closed the group. -/
def closed (d : Draft) (c : Option Char) : Draft :=
  let d := { d with level := start.level.push ⟨d.level.content, d.level.body.depth + 1, true⟩ }
  match c with
  | none => d
  | some c => d.push (char c)

theorem readAll_closing (houter : d.outer = []) :
    readAll next 0 (closing c) (d.around start.level) = some (d.closed c) := by
  have hnext : (d.around start.level).next (closing c) = some (d.closed none, 1) := by
    rw [next_closing, leave?, around, closed, houter]
    rfl
  rw [closing, readAll, ← closing, hnext]
  cases c with
  | none => rfl
  | some c => exact next_character c rfl

theorem body_closed (hindex : d.level.index = none) :
    (d.closed c).level.body = d.level.body.enclosed c := by
  have hcontent : d.level.content = d.level.body.expr := by rw [Level.content, hindex]
  cases c with
  | none =>
    show Piece.mk d.level.content (d.level.body.depth + 1) true = _
    rw [hcontent]
    rfl
  | some c =>
    have hdepth :
        max (max 0 (d.level.body.depth + 1 + 1)) (0 + 1) = d.level.body.depth + 1 + 1 := by
      omega
    show Piece.mk (joined [d.level.content, char c])
      (max (max 0 (d.level.body.depth + 1 + 1)) (0 + 1)) true = _
    rw [hcontent, hdepth]
    rfl

end Draft

theorem expr_of_finish? {limit : SizeLimit} {d : Draft} {r : Regex}
    (h : d.finish? limit = some r) :
    d.outer = [] ∧ d.level.body.expr = r := by
  obtain ⟨hkept, hr⟩ := Option.ite_none_right_eq_some.mp h
  simp only [Bool.and_eq_true, List.isEmpty_iff] at hkept
  exact ⟨hkept.1.1, Option.some.inj hr⟩

/-- **An expression in a group is what it is alone**, and in front of a character it is followed
by that. -/
theorem eq_of_parse?_enclosed {limit : SizeLimit} {own e : Regex} {c : Option Char}
    {written : List Char} (hown : parse? written limit = some own)
    (he : parse? ("(?:".toList ++ written ++ closing c) limit = some e) :
    e = own.followedBy c := by
  obtain ⟨d, hread, hfinish⟩ := Option.bind_eq_some_iff.mp hown
  obtain ⟨d', hread', hfinish'⟩ := Option.bind_eq_some_iff.mp he
  obtain ⟨houter, rfl⟩ := expr_of_finish? hfinish
  obtain ⟨houter', rfl⟩ := expr_of_finish? hfinish'
  have hall := Draft.readAll_append (closes_closing c) (d := Draft.start) (l := Draft.start.level)
    (.inl ⟨Nat.zero_le _, rfl⟩) hread
  rw [List.append_assoc] at hread'
  have hopened := (Draft.readAll_opening (written ++ closing c)).symm.trans hread'
  rcases hall.2 with hclosing | hswallowed
  · -- the parenthesis folds the level of the group, which has no number
    have hindex : d.level.index = none := by
      have hbottom := hall.1
      rwa [Draft.bottom, houter] at hbottom
    rw [hclosing, Draft.readAll_closing houter] at hopened
    obtain rfl := Option.some.inj hopened
    exact congrArg Piece.expr (Draft.body_closed hindex)
  · -- nothing closes the group
    rw [hswallowed] at hopened
    obtain rfl := Option.some.inj hopened
    rw [Draft.around] at houter'
    simp at houter'

end Highlighting.Regex
