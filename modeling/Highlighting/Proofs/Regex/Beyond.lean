/-
  Highlighting/Proofs/Regex/Beyond.lean
  =====================================
  **What only more text completes.**

  A text that writes no expression may be completed by what follows it: behind
  the text of a group that is the closing parenthesis, and perhaps a character.
  But then the parenthesis no longer closes the group.  It is an escaped
  character, or it ends a switch of flags, or it is a member of a class.  So
  what is read of the text goes one character beyond it, or to the end of all
  that follows (`Beyond`).  Here that is said of escapes and of classes.
-/
import Highlighting.Proofs.Regex.Enclosed

namespace Highlighting.Regex

variable {α : Type} {tail cs : List Char} {c : Option Char} {d : Char} {f : Flags} {n : Nat}

/-- It is read one character further than the text goes, or to the end of what follows. -/
def Beyond (tail cs : List Char) (n : Nat) : Prop := n = cs.length + 1 ∨ n = (cs ++ tail).length

/-- What the reader makes of a text only when the other text follows goes beyond it. -/
def Overreaches (tail : List Char) (read : List Char → Option (α × Nat)) : Prop :=
  ∀ cs x n, read cs = none → read (cs ++ tail) = some (x, n) → Beyond tail cs n

theorem Beyond.of_drop {k : Nat} (hk : k ≤ cs.length) (h : Beyond tail (cs.drop k) n) :
    Beyond tail cs (k + n) := by
  rcases h with rfl | rfl
  · exact .inl (by rw [List.length_drop]; omega)
  · exact .inr (by simp only [List.length_append, List.length_drop]; omega)

theorem Beyond.cons (h : Beyond tail cs n) (d : Char) : Beyond tail (d :: cs) (n + 1) := by
  rcases h with rfl | rfl
  · exact .inl rfl
  · exact .inr rfl

theorem Overreaches.behind {β : Type} {read : List Char → Option (α × Nat)}
    (h : Overreaches tail read) {g : α → β} {y : β}
    (hnone : ((read cs).map fun (x, n) => (g x, n + 1)) = none)
    (hread : ((read (cs ++ tail)).map fun (x, n) => (g x, n + 1)) = some (y, n)) (d : Char) :
    Beyond tail (d :: cs) n := by
  obtain ⟨⟨x, m⟩, hx, hm⟩ := Option.map_eq_some_iff.mp hread
  cases hm
  exact (h cs x m (Option.map_eq_none_iff.mp hnone) hx).cons d

theorem Overreaches.own_or_beyond {read : List Char → Option (α × Nat)} {x : α}
    (h : Overreaches tail read) (hkeeps : Keeps tail read)
    (hread : read (cs ++ tail) = some (x, n)) :
    read cs = some (x, n) ∨ Beyond tail cs n := by
  cases hown : read cs with
  | none => exact .inr (h cs x n hown hread)
  | some r =>
    obtain ⟨-, hread'⟩ := hkeeps cs r.1 r.2 hown
    exact .inl (hread'.symm.trans hread)

/-! ### What follows a group -/

/-- A mark that is neither the parenthesis nor a backslash can only be the last that follows. -/
theorem last_of_getElem?_closing (h : (closing c)[n]? = some d) (hd : d ≠ ')') (hd' : d ≠ '\\') :
    n + 1 = (closing c).length := by
  cases n with
  | zero => exact absurd (Option.some.inj h).symm hd
  | succ n =>
    have hget : (escape c.toList)[n]? = some d := h
    rw [closing, List.length_cons]
    cases c with
    | none => cases hget
    | some ch =>
      rw [Option.toList_some, escape_singleton] at hget ⊢
      split at hget
      · next hspecial =>
        rw [if_pos hspecial]
        rcases n with _ | _ | n
        · exact absurd (Option.some.inj hget).symm hd'
        · rfl
        · cases hget
      · next hplain =>
        rw [if_neg hplain]
        cases n with
        | zero => rfl
        | succ n => cases hget

theorem length_of_getElem?_append (h : (cs ++ closing c)[n]? = some d) (hd : d ≠ ')')
    (hd' : d ≠ '\\') (hle : cs.length ≤ n) : n + 1 = (cs ++ closing c).length := by
  rw [List.getElem?_append_right hle] at h
  have hlast := last_of_getElem?_closing h hd hd'
  rw [List.length_append]
  omega

/-- A run up to a mark ends at the mark. -/
theorem drop_takeWhile_of_lt (h : (cs.takeWhile (· != d)).length < cs.length) :
    ∃ later, cs.drop (cs.takeWhile (· != d)).length = d :: later := by
  induction cs with
  | nil => cases h
  | cons e cs ih =>
    rw [List.takeWhile_cons] at h ⊢
    by_cases he : e = d
    · rw [if_neg (by simp [he]), he]
      exact ⟨cs, rfl⟩
    · have hgoes : (e != d) = true := bne_iff_ne.mpr he
      rw [if_pos hgoes] at h ⊢
      exact ih (Nat.lt_of_succ_lt_succ h)

theorem mem_take_closing (h : cs.length < n) : ')' ∈ (cs ++ closing c).take n := by
  obtain ⟨k, hk⟩ := Nat.exists_eq_add_of_lt h
  rw [List.take_append, hk, show cs.length + k + 1 - cs.length = k + 1 by omega, closing,
    List.take_succ_cons]
  simp

/-! ### Escapes -/

theorem hexNumber?_eq_none (h : ')' ∈ cs) : hexNumber? cs = none := by
  have hfold : ∀ (cs : List Char) (value : Option Nat), ')' ∈ cs ∨ value = none →
      cs.foldl (fun n c => do return 16 * (← n) + (← CharClass.hexValue? c)) value = none := by
    intro cs
    induction cs with
    | nil =>
      intro value h
      rcases h with h | rfl
      · cases h
      · rfl
    | cons d cs ih =>
      intro value h
      rw [List.foldl_cons]
      apply ih
      rcases h with h | rfl
      · rcases List.mem_cons.mp h with rfl | h
        · right
          cases value <;> rfl
        · exact .inl h
      · exact .inr rfl
  cases cs with
  | nil => rfl
  | cons d cs => exact hfold _ _ (.inl h)

theorem charOfHex?_eq_none (h : ')' ∈ cs) : charOfHex? cs = none := by
  rw [charOfHex?, hexNumber?_eq_none h]
  rfl

/-- A code point has no parenthesis in it. -/
theorem readCodePoint_eq_none {count : Nat} (h : readCodePoint count cs = none) :
    readCodePoint count (cs ++ closing c) = none := by
  by_cases hcs : cs.head? = some '\x7b'
  · obtain ⟨rest, rfl⟩ := List.head?_eq_some_iff.mp hcs
    rw [readCodePoint_brace] at h
    rw [List.cons_append, readCodePoint_brace]
    rcases Nat.lt_or_ge (rest.takeWhile (· != '\x7d')).length rest.length with hlt | hge
    · obtain ⟨later, hlater⟩ := drop_takeWhile_of_lt hlt
      rw [takeWhile_append_of_lt hlt, drop_append_of_le (Nat.le_of_lt hlt), hlater]
      rw [hlater] at h
      exact h
    · have hmem : ')' ∈ (rest ++ closing c).takeWhile (· != '\x7d') :=
        parenthesis_mem_takeWhile (by decide) hge _
      rw [charOfHex?_eq_none hmem]
      split
      · rfl
      · rfl
  · have hhead : (cs ++ closing c).head? ≠ some '\x7b' := by
      cases cs with
      | nil => simp [closing]
      | cons d cs => exact hcs
    rw [readCodePoint_digits hcs] at h
    rw [readCodePoint_digits hhead]
    rcases Nat.lt_or_ge cs.length count with hlt | hge
    · rw [charOfHex?_eq_none (mem_take_closing hlt)]
      exact ite_self _
    · rw [List.take_append_of_le_length hge]
      exact h

/-- The name of a property goes up to a brace, which can only be the last that follows. -/
theorem overreaches_property (c : Option Char) : Overreaches (closing c) Property.read := by
  intro cs x n hnone h
  cases cs with
  | nil =>
    rw [List.nil_append, closing, readProperty_letter (by decide)] at h
    obtain ⟨s, -, hn⟩ := Option.map_eq_some_iff.mp h
    cases hn
    exact .inl rfl
  | cons d rest =>
    rw [List.cons_append] at h
    by_cases hd : d = '\x7b'
    · subst hd
      rw [readProperty_brace] at hnone h
      generalize Property.query? = query at hnone h
      rcases Nat.lt_or_ge (rest.takeWhile (· != '\x7d')).length rest.length with hlt | hge
      · rw [takeWhile_append_of_lt hlt, if_pos (by rw [List.length_append]; omega)] at h
        rw [if_pos hlt, h] at hnone
        cases hnone
      · split at h
        · next hlt =>
          obtain ⟨s, -, hn⟩ := Option.map_eq_some_iff.mp h
          cases hn
          obtain ⟨later, hlater⟩ := drop_takeWhile_of_lt hlt
          have hmark : (rest ++ closing c)[((rest ++ closing c).takeWhile (· != '\x7d')).length]? =
              some '\x7d' := by
            rw [← List.head?_drop, hlater]
            rfl
          have hrest : rest.length ≤ ((rest ++ closing c).takeWhile (· != '\x7d')).length := by
            rw [List.takeWhile_append]
            split
            · rw [List.length_append]
              exact Nat.le_add_right _ _
            · exact hge
          have hlast := length_of_getElem?_append hmark (by decide) (by decide) hrest
          exact .inr (congrArg (· + 1) hlast)
        · cases h
    · rw [readProperty_letter hd] at hnone h
      generalize Property.named? [d] = found at hnone h
      rw [h] at hnone
      cases hnone

theorem overreaches_readProperty (c : Option Char) (f : Flags) (capital : Bool) :
    Overreaches (closing c) (readProperty f capital) := by
  intro cs x n hnone h
  rw [readProperty_eq] at hnone h
  split at h
  · next hunicode =>
    rw [if_pos hunicode] at hnone
    obtain ⟨⟨⟨s, negated⟩, m⟩, hread, hn⟩ := Option.map_eq_some_iff.mp h
    cases hn
    rcases skip_append (closes_closing c) f cs with hskip | ⟨-, hskip⟩
    · rw [hskip, drop_append_of_le (skip_le f cs)] at hread
      have hbeyond := overreaches_property c _ _ _ (Option.map_eq_none_iff.mp hnone) hread
      rw [hskip]
      exact hbeyond.of_drop (skip_le f cs)
    · rw [hskip, List.drop_length] at hread
      cases hread
  · cases h

theorem readWordEdge_eq_none (h : readWordEdge cs = none) :
    readWordEdge (cs ++ closing c) = none := by
  have hclose := closes_closing c
  have hparenthesis : isEdgeChar ')' = false := by decide
  by_cases hcs : ∃ d rest, cs = '\x7b' :: d :: rest
  · obtain ⟨d, rest, rfl⟩ := hcs
    have hrun := hclose.takeWhile_append hparenthesis (d :: rest)
    rw [List.cons_append] at hrun
    rw [readWordEdge_brace] at h
    rw [List.cons_append, List.cons_append, readWordEdge_brace]
    split at h
    · next hd =>
      rw [if_pos hd, hrun]
      have hle : ((d :: rest).takeWhile isEdgeChar).length ≤ (d :: rest).length :=
        (List.takeWhile_sublist isEdgeChar).length_le
      have hdrop := drop_append_of_le hle (closing c)
      rw [List.cons_append] at hdrop
      rw [hdrop]
      cases hlater : (d :: rest).drop ((d :: rest).takeWhile isEdgeChar).length with
      | nil => rfl
      | cons e later =>
        rw [hlater] at h
        rw [List.cons_append]
        by_cases he : e = '\x7d'
        · subst he
          exact h
        · split
          · next heq => exact absurd (List.cons.inj heq).1 he
          · rfl
    · cases h
  · rw [readWordEdge_plain fun d rest heq => hcs ⟨d, rest, heq⟩] at h
    cases h

theorem overreaches_readEscape (c : Option Char) (f : Flags) :
    Overreaches (closing c) (readEscape f) := by
  intro cs e n hnone h
  cases cs with
  | nil =>
    have hparenthesis : readEscape f ([] ++ closing c) = some (.char ')', 1) := rfl
    rw [hparenthesis] at h
    cases h
    exact .inl rfl
  | cons d rest =>
    rw [List.cons_append] at h
    rw [readEscape.eq_def] at hnone h
    dsimp only at hnone h
    cases hhex : hexDigitCount? d with
    | some count =>
      rw [hhex] at hnone h
      dsimp only at hnone h
      rw [readCodePoint_eq_none (Option.map_eq_none_iff.mp hnone)] at h
      cases h
    | none =>
      rw [hhex] at hnone h
      cases hcontrol : controlChar? d with
      | some control =>
        rw [hcontrol] at hnone
        cases hnone
      | none =>
        rw [hcontrol] at hnone h
        dsimp only at hnone h
        by_cases hclass : Flags.isClassLetter d = true
        · rw [if_pos hclass] at hnone h
          rw [h] at hnone
          cases hnone
        · rw [if_neg hclass] at hnone h
          split at h
          · exact (overreaches_readProperty c f false).behind hnone h _
          · exact (overreaches_readProperty c f true).behind hnone h _
          · rw [readWordEdge_eq_none (Option.map_eq_none_iff.mp hnone)] at h
            cases h
          · cases hnone
          · cases hnone
          · cases hnone
          · cases hnone
          · cases hnone
          · -- a character that stands for itself does so whatever follows
            split at hnone
            all_goals first
              | contradiction
              | rw [h] at hnone; cases hnone

/-! ### Classes -/

namespace Bracket

variable {b b' : Bracket} {outer outer' : List Bracket} {x : CharSet} {m taken : Nat}

theorem overreaches_readItem (c : Option Char) (f : Flags) :
    Overreaches (closing c) (readItem f) := by
  intro cs x n hnone h
  cases cs with
  | nil =>
    rw [List.nil_append, closing, readItem_plain (by decide)] at h
    split at h
    · cases h
      exact .inl rfl
    · cases h
  | cons d rest =>
    rw [List.cons_append] at h
    by_cases hd : d = '\\'
    · subst hd
      rw [readItem_escape] at hnone h
      cases hread : readEscape f (rest ++ closing c) with
      | none =>
        rw [hread] at h
        cases h
      | some r =>
        obtain ⟨e, k⟩ := r
        rcases (overreaches_readEscape c f).own_or_beyond (keeps_readEscape (closes_closing c) f)
          hread with hown | hbeyond
        · rw [hown] at hnone
          rw [hread, hnone] at h
          cases h
        · rw [hread] at h
          cases e with
          | char a =>
            dsimp only at h
            split at h
            · cases h
              exact hbeyond.cons _
            · cases h
          | set s =>
            cases h
            exact hbeyond.cons _
          | anchor a => cases h
    · rw [readItem_plain hd] at hnone h
      rw [h] at hnone
      cases hnone

/-- What follows the parenthesis makes no range. -/
theorem drop_skip_ne_hyphen (f : Flags) (c : Option Char) (later : List Char) :
    (escape c.toList).drop (f.skip (escape c.toList)) ≠ '-' :: later := by
  cases c with
  | none =>
    rw [Option.toList_none]
    simp [escape]
  | some ch =>
    rw [Option.toList_some, escape_singleton]
    split
    · have hskip : f.skip ['\\', ch] = 0 := by
        rw [Flags.skip]
        split <;> rfl
      rw [hskip]
      intro h
      exact absurd (List.cons.inj h).1 (by decide)
    · next hplain =>
      intro h
      cases hskip : f.skip [ch] with
      | zero =>
        rw [hskip] at h
        obtain rfl := (List.cons.inj h).1
        exact hplain rfl
      | succ k =>
        rw [hskip, List.drop_succ_cons, List.drop_nil] at h
        cases h

/-- The set of an item alone. -/
def Item.single : Item → CharSet
  | .char a => .single a
  | .set s => s

/-- The range from an item up to another one. -/
def range? : Item → Item → Option CharSet
  | .char a, .char b => if a ≤ b then some (.range a b) else none
  | _, _ => none

/-- What is read behind a hyphen, when the item in front of it is `k` characters long; it stands
for itself when no range is made. -/
def readRange (f : Flags) (length : Nat) (low : Item) (k : Nat) (second : List Char) :
    Option (CharSet × Nat) :=
  if second.head? == some ']' || second.head? == some '-' then some (low.single, k)
  else (readItem f second).bind fun r =>
    (range? low r.1).map (·, length - second.length + r.2)

theorem readMember_eq (f : Flags) (cs : List Char) :
    readMember f cs = (readItem f cs).bind fun r =>
      match (cs.drop r.2).drop (f.skip (cs.drop r.2)) with
      | '-' :: later => readRange f cs.length r.1 r.2 (later.drop (f.skip later))
      | _ => some (r.1.single, r.2) := by
  rw [readMember]
  refine congrArg (Option.bind _) (funext fun r => ?_)
  obtain ⟨low, k⟩ := r
  dsimp only
  generalize (cs.drop k).drop (f.skip (cs.drop k)) = rest
  by_cases hrest : ∃ later, rest = '-' :: later
  · obtain ⟨later, rfl⟩ := hrest
    show ite _ _ _ = readRange f cs.length low k (later.drop (f.skip later))
    rw [readRange]
    congr 1
    refine congrArg (Option.bind _) (funext fun r => ?_)
    obtain ⟨high, m⟩ := r
    cases low with
    | char a =>
      cases high with
      | char b => by_cases hab : a ≤ b <;> simp [range?, hab]
      | set s => rfl
    | set s => cases high <;> rfl
  · have hplain : ∀ (g : List Char → Option (CharSet × Nat)) y,
        (match rest with | '-' :: later => g later | _ => y) = y := by
      intro g y
      split
      · next later => exact absurd ⟨later, rfl⟩ hrest
      · rfl
    refine (hplain _ _).trans (Eq.trans ?_ (hplain _ _).symm)
    cases low <;> rfl

theorem beyond_of_readRange {low : Item} {k : Nat} {second : List Char}
    (hle : second.length ≤ cs.length) (hnone : readRange f cs.length low k second = none)
    (h : readRange f (cs ++ closing c).length low k (second ++ closing c) = some (x, n)) :
    Beyond (closing c) cs n := by
  have hhead : second ≠ [] → (second ++ closing c).head? = second.head? := by
    intro hne
    obtain ⟨e, es, rfl⟩ := List.exists_cons_of_ne_nil hne
    rfl
  rw [readRange] at hnone h
  split at h
  · next hsingle =>
    -- a hyphen or a bracket stands in the text, or nowhere
    have hne : second ≠ [] := by
      rintro rfl
      cases hsingle
    rw [hhead hne] at hsingle
    rw [if_pos hsingle] at hnone
    cases hnone
  · next hrange =>
    obtain ⟨⟨high, m⟩, hhigh, h⟩ := Option.bind_eq_some_iff.mp h
    obtain ⟨s, hs, hn⟩ := Option.map_eq_some_iff.mp h
    cases hn
    rcases (overreaches_readItem c f).own_or_beyond (keeps_readItem (closes_closing c) f) hhigh with
      hown | hbeyond
    · split at hnone
      · cases hnone
      · rw [hown, Option.bind_some, hs] at hnone
        cases hnone
    · rcases hbeyond with rfl | rfl
      · left
        simp only [List.length_append]
        omega
      · right
        simp only [List.length_append]
        omega

theorem overreaches_readMember (c : Option Char) (f : Flags) :
    Overreaches (closing c) (readMember f) := by
  have hkeeps := keeps_readItem (closes_closing c) f
  intro cs x n hnone h
  rw [readMember_eq] at hnone h
  obtain ⟨⟨low, k⟩, hlow, h⟩ := Option.bind_eq_some_iff.mp h
  dsimp only at h
  rcases (overreaches_readItem c f).own_or_beyond hkeeps hlow with hown | hbeyond
  · obtain ⟨hle, -⟩ := hkeeps _ _ _ hown
    rw [hown, Option.bind_some] at hnone
    dsimp only at hnone
    rw [drop_append_of_le hle] at h
    split at hnone
    · next later hlater =>
      obtain ⟨hskip, hdrop⟩ := drop_skip_append (closes_closing c) hlater
      rw [hskip, hdrop] at h
      have hrange : readRange f (cs ++ closing c).length low k
          ((later ++ closing c).drop (f.skip (later ++ closing c))) = some (x, n) := h
      rcases skip_append (closes_closing c) f later with hskip' | ⟨-, hskip'⟩
      · rw [hskip', drop_append_of_le (skip_le f later)] at hrange
        refine beyond_of_readRange ?_ hnone hrange
        have hlength := congrArg List.length hlater
        simp only [List.length_drop, List.length_cons] at hlength ⊢
        omega
      · rw [hskip', List.drop_length] at hrange
        cases hrange
    · cases hnone
  · -- the item takes the parenthesis, and no hyphen follows it
    have hrest : ∀ later, ((cs ++ closing c).drop k).drop (f.skip ((cs ++ closing c).drop k)) ≠
        '-' :: later := by
      intro later
      rcases hbeyond with rfl | rfl
      · rw [List.drop_append, List.drop_eq_nil_of_le (Nat.le_succ _), List.nil_append,
          Nat.add_sub_cancel_left]
        exact drop_skip_ne_hyphen f c later
      · rw [List.drop_length]
        simp
    split at h
    · next later hlater => exact absurd hlater (hrest later)
    · cases h
      exact hbeyond

theorem own_or_beyond_of_next (hcs : cs ≠ [])
    (h : b.next f outer (cs ++ closing c) = some (b', outer', m)) :
    b.next f outer cs = some (b', outer', m) ∨ Beyond (closing c) cs m := by
  have hclose := closes_closing c
  obtain ⟨e, rest, rfl⟩ := List.exists_cons_of_ne_nil hcs
  rw [next] at h ⊢
  rw [read?_append hclose hcs] at h
  cases hskip : f.skip (e :: rest) with
  | succ k =>
    rcases skip_append hclose f (e :: rest) with hsame | ⟨-, hall⟩
    · rw [hsame, hskip] at h
      exact .inl h
    · rw [hall, List.length_append, List.length_cons, Nat.add_right_comm] at h
      cases h
      right
      right
      rw [List.length_append, List.length_cons, Nat.add_right_comm]
  | zero =>
    rw [skip_append_of_lt hclose (by rw [hskip]; exact Nat.succ_pos _), hskip] at h
    cases hop : SetOperation.read? (e :: rest) with
    | some op =>
      rw [hop] at h
      exact .inl h
    | none =>
      rw [hop] at h
      dsimp only at h ⊢
      rw [List.cons_append, List.head?_cons, ← List.cons_append] at h
      rw [List.head?_cons]
      split at h
      · next hopens =>
        rw [if_pos hopens]
        rw [readNamed_append hclose hcs] at h
        split at h
        · exact .inl h
        · rw [List.cons_append, List.tail_cons] at h
          rw [List.tail_cons]
          rcases start_append hclose f rest with hsame | ⟨-, hall⟩
          · rw [hsame] at h
            exact .inl h
          · cases h
            exact .inr (.inr (congrArg (· + 1) hall))
      · next hopens =>
        rw [if_neg hopens]
        obtain ⟨⟨s, k⟩, hs, hm⟩ := Option.map_eq_some_iff.mp h
        cases hm
        cases hown : readMember f (e :: rest) with
        | none => exact .inr (overreaches_readMember c f _ _ _ hown hs)
        | some r =>
          obtain ⟨s', k'⟩ := r
          cases (readMember_append hclose f hown).symm.trans hs
          exact .inl rfl

/-- A class ends at a bracket. -/
theorem exists_of_readRest (h : readRest f taken cs b outer = some (x, n)) :
    ∃ k, n = k + 1 ∧ cs[k]? = some ']' := by
  induction cs generalizing taken b outer x n with
  | nil => cases taken <;> cases h
  | cons e cs ih =>
    cases taken with
    | succ taken =>
      rw [readRest] at h
      obtain ⟨⟨s, k⟩, hs, h⟩ := Option.bind_eq_some_iff.mp h
      obtain ⟨k', rfl, hget⟩ := ih hs
      cases h
      exact ⟨_, rfl, hget⟩
    | zero =>
      rw [readRest] at h
      split at h
      · next he =>
        obtain ⟨s, hs, h⟩ := Option.bind_eq_some_iff.mp h
        cases outer with
        | nil =>
          cases h
          exact ⟨0, rfl, congrArg some he⟩
        | cons around outer =>
          obtain ⟨⟨s', k⟩, hs', h⟩ := Option.bind_eq_some_iff.mp h
          obtain ⟨k', rfl, hget⟩ := ih hs'
          cases h
          exact ⟨_, rfl, hget⟩
      · obtain ⟨⟨b', outer', m⟩, -, h⟩ := Option.bind_eq_some_iff.mp h
        obtain ⟨⟨s', k⟩, hs', h⟩ := Option.bind_eq_some_iff.mp h
        obtain ⟨k', rfl, hget⟩ := ih hs'
        cases h
        exact ⟨_, rfl, hget⟩

/-- A class that ends within the text needs nothing that follows. -/
theorem readRest_of_append (h : readRest f taken (cs ++ closing c) b outer = some (x, n))
    (hle : n ≤ cs.length) : readRest f taken cs b outer = some (x, n) := by
  induction cs generalizing taken b outer x n with
  | nil =>
    obtain ⟨k, rfl, -⟩ := exists_of_readRest h
    exact absurd hle (Nat.not_succ_le_zero k)
  | cons e cs ih =>
    rw [List.cons_append] at h
    cases taken with
    | succ taken =>
      rw [readRest] at h ⊢
      obtain ⟨⟨s, k⟩, hs, h⟩ := Option.bind_eq_some_iff.mp h
      cases h
      rw [ih hs (Nat.le_of_succ_le_succ hle)]
      rfl
    | zero =>
      rw [readRest] at h ⊢
      by_cases he : e = ']'
      · rw [if_pos he] at h ⊢
        obtain ⟨s, hs, h⟩ := Option.bind_eq_some_iff.mp h
        rw [hs]
        cases outer with
        | nil => exact h
        | cons around outer =>
          obtain ⟨⟨s', k⟩, hs', h⟩ := Option.bind_eq_some_iff.mp h
          cases h
          show (readRest f 0 cs (around.add s) outer).bind _ = _
          rw [ih hs' (Nat.le_of_succ_le_succ hle)]
          rfl
      · rw [if_neg he] at h ⊢
        obtain ⟨⟨b', outer', m⟩, hnext, h⟩ := Option.bind_eq_some_iff.mp h
        obtain ⟨⟨s', k⟩, hs', h⟩ := Option.bind_eq_some_iff.mp h
        cases h
        have hrest := ih hs' (Nat.le_of_succ_le_succ hle)
        have hlt := (readRest_append (closes_closing c) hrest).1
        rw [← List.cons_append] at hnext
        rcases own_or_beyond_of_next (List.cons_ne_nil e cs) hnext with hown | hbeyond
        · rw [hown]
          show (readRest f (m - 1) cs b' outer').bind _ = _
          rw [hrest]
          rfl
        · -- nothing would be left of the text for the bracket
          rcases hbeyond with rfl | rfl
          · rw [List.length_cons] at hlt
            omega
          · simp only [List.length_append, List.length_cons] at hlt
            omega

end Bracket

theorem overreaches_readClass (c : Option Char) (f : Flags) :
    Overreaches (closing c) (readClass f) := by
  intro cs x n hnone h
  rw [readClass] at hnone h
  rcases Bracket.start_append (closes_closing c) f cs with hsame | ⟨-, hall⟩
  · have hle := Bracket.start_le f cs
    rw [hsame] at h
    cases hstart : Bracket.start f cs with
    | mk b k =>
      rw [hstart] at hnone h hle
      dsimp only at hnone h hle
      rw [drop_append_of_le hle] at h
      obtain ⟨⟨s, m⟩, hs, hn⟩ := Option.map_eq_some_iff.mp h
      cases hn
      rcases Nat.lt_or_ge (cs.drop k).length m with hlt | hge
      · obtain ⟨j, rfl, hget⟩ := Bracket.exists_of_readRest hs
        have hlast := length_of_getElem?_append hget (by decide) (by decide)
          (Nat.le_of_lt_succ hlt)
        exact .of_drop hle (.inr hlast)
      · rw [Bracket.readRest_of_append hs hge] at hnone
        cases hnone
  · cases hstart : Bracket.start f (cs ++ closing c) with
    | mk b k =>
      rw [hstart] at h hall
      dsimp only at h hall
      rw [hall, List.drop_length] at h
      cases h

end Highlighting.Regex
