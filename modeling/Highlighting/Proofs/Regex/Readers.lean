/-
  Highlighting/Proofs/Regex/Readers.lean
  ======================================
  **What has been read stays read** when a closing parenthesis follows.

  A reader looks at a text from its front, and stops at a character of its own.
  So one that succeeds on a text comes to the same when more text follows
  (`Keeps`), as long as that does not go on where the reader has stopped.  A
  closing parenthesis never does (`Closes`).  Here this is shown of escapes.

  There is one thing that takes parentheses along: a comment that is still open
  at the end of the text (`skip_append`).  All other readers need something
  behind what they skip, so that they fail where such a comment is.
-/
import Highlighting.Regex.Escape

namespace Highlighting.Regex

variable {α : Type} {tail cs : List Char} {f : Flags} {p : Char → Bool} {n : Nat}

/-- The text begins with a closing parenthesis, and has no line break before its end. -/
structure Closes (tail : List Char) : Prop where
  exists_cons : ∃ rest, tail = ')' :: rest
  blank : blankLength true tail = tail.length

/-- What the reader makes of a text stays the same when the other text follows. -/
def Keeps (tail : List Char) (read : List Char → Option (α × Nat)) : Prop :=
  ∀ cs x n, read cs = some (x, n) → n ≤ cs.length ∧ read (cs ++ tail) = some (x, n)

/-- A reader that goes on behind `k` characters. -/
theorem Keeps.behind {β : Type} {read : List Char → Option (α × Nat)} (h : Keeps tail read)
    {g : α → β} {k m : Nat} {y : β}
    (hread : ((read cs).map fun (x, n) => (g x, n + k)) = some (y, m)) :
    m ≤ cs.length + k ∧ ((read (cs ++ tail)).map fun (x, n) => (g x, n + k)) = some (y, m) := by
  obtain ⟨⟨x, n⟩, hx, hm⟩ := Option.map_eq_some_iff.mp hread
  obtain ⟨hle, hx'⟩ := h cs x n hx
  rw [hx', Option.map_some, hm]
  cases hm
  exact ⟨Nat.add_le_add_right hle k, rfl⟩

/-! ### Runs of characters -/

theorem takeWhile_append_of_lt (h : (cs.takeWhile p).length < cs.length) (tail : List Char) :
    (cs ++ tail).takeWhile p = cs.takeWhile p := by
  rw [List.takeWhile_append, if_neg (Nat.ne_of_lt h)]

theorem Closes.takeWhile_append (htail : Closes tail) (hp : p ')' = false) (cs : List Char) :
    (cs ++ tail).takeWhile p = cs.takeWhile p := by
  obtain ⟨rest, rfl⟩ := htail.exists_cons
  rw [List.takeWhile_append]
  split
  · next h =>
    rw [List.takeWhile_cons_of_neg (by rw [hp]; exact Bool.false_ne_true), List.append_nil]
    exact ((List.takeWhile_prefix p).eq_of_length h).symm
  · rfl

/-- A run that goes on to the end of the text may take the parenthesis. -/
theorem parenthesis_mem_takeWhile (hp : p ')' = true) (h : cs.length ≤ (cs.takeWhile p).length)
    (rest : List Char) : ')' ∈ (cs ++ ')' :: rest).takeWhile p := by
  have hall : cs.takeWhile p = cs := (List.takeWhile_prefix p).eq_of_length_le h
  rw [List.takeWhile_append, if_pos (by rw [hall]), List.takeWhile_cons, if_pos hp]
  simp

theorem length_lt_of_drop_eq_cons {c : Char} {rest : List Char} (h : cs.drop n = c :: rest) :
    n < cs.length := by
  have hlength := congrArg List.length h
  rw [List.length_drop, List.length_cons] at hlength
  omega

theorem drop_append_of_le (h : n ≤ cs.length) (tail : List Char) :
    (cs ++ tail).drop n = cs.drop n ++ tail := List.drop_append_of_le_length h

/-! ### What may be skipped -/

theorem blankLength_le (comment : Bool) (cs : List Char) : blankLength comment cs ≤ cs.length := by
  induction cs generalizing comment with
  | nil => cases comment <;> exact Nat.le_refl 0
  | cons c cs ih =>
    cases comment with
    | true =>
      have hrest := ih (c != '\n')
      rw [blankLength, List.length_cons]
      omega
    | false =>
      have hspace := ih false
      have hcomment := ih true
      rw [blankLength, List.length_cons]
      split
      · omega
      · split
        · omega
        · omega

/-- What stops within a text stops there whatever follows; and what takes all of it stops there too,
unless a comment is open. -/
theorem blankLength_append (htail : Closes tail) (comment : Bool) (cs : List Char) :
    blankLength comment (cs ++ tail) = blankLength comment cs ∨
      blankLength comment cs = cs.length ∧
        blankLength comment (cs ++ tail) = (cs ++ tail).length := by
  induction cs generalizing comment with
  | nil =>
    obtain ⟨rest, rfl⟩ := htail.exists_cons
    cases comment with
    | true => exact .inr ⟨rfl, htail.blank⟩
    | false => exact .inl rfl
  | cons c cs ih =>
    have hcons : ∀ b, 1 + blankLength b (cs ++ tail) = 1 + blankLength b cs ∨
        1 + blankLength b cs = (c :: cs).length ∧
          1 + blankLength b (cs ++ tail) = (c :: (cs ++ tail)).length := by
      intro b
      rcases ih b with h | ⟨h, h'⟩
      · exact .inl (by rw [h])
      · rw [h, h', List.length_cons, List.length_cons]
        exact .inr ⟨Nat.add_comm _ _, Nat.add_comm _ _⟩
    rw [List.cons_append]
    cases comment with
    | true => exact hcons _
    | false =>
      rw [blankLength, blankLength]
      split
      · exact hcons _
      · split
        · exact hcons _
        · exact .inl rfl

theorem skip_le (f : Flags) (cs : List Char) : f.skip cs ≤ cs.length := by
  rw [Flags.skip]
  split
  · exact blankLength_le false cs
  · exact Nat.zero_le _

theorem skip_append (htail : Closes tail) (f : Flags) (cs : List Char) :
    f.skip (cs ++ tail) = f.skip cs ∨
      f.skip cs = cs.length ∧ f.skip (cs ++ tail) = (cs ++ tail).length := by
  rw [Flags.skip, Flags.skip]
  split
  · exact blankLength_append htail false cs
  · exact .inl rfl

theorem skip_append_of_lt (htail : Closes tail) (h : f.skip cs < cs.length) :
    f.skip (cs ++ tail) = f.skip cs := by
  rcases skip_append htail f cs with h' | ⟨h', -⟩
  · exact h'
  · omega

/-- What is left behind what is skipped is left when more follows. -/
theorem drop_skip_append (htail : Closes tail) {c : Char} {rest : List Char}
    (h : cs.drop (f.skip cs) = c :: rest) :
    f.skip (cs ++ tail) = f.skip cs ∧ (cs ++ tail).drop (f.skip cs) = c :: (rest ++ tail) := by
  have hlt := length_lt_of_drop_eq_cons h
  exact ⟨skip_append_of_lt htail hlt, by rw [drop_append_of_le (Nat.le_of_lt hlt), h]; rfl⟩

/-! ### Escapes -/

theorem readCodePoint_brace (count : Nat) (rest : List Char) :
    readCodePoint count ('\x7b' :: rest) =
      match rest.drop (rest.takeWhile (· != '\x7d')).length with
      | '\x7d' :: _ => (charOfHex? (rest.takeWhile (· != '\x7d'))).map
          (·, (rest.takeWhile (· != '\x7d')).length + 2)
      | _ => none := rfl

theorem readCodePoint_digits {count : Nat} (hcs : cs.head? ≠ some '\x7b') :
    readCodePoint count cs =
      if (cs.take count).length = count then (charOfHex? (cs.take count)).map (·, count)
      else none := by
  rw [readCodePoint.eq_def]
  split
  · exact absurd rfl hcs
  · rfl

theorem keeps_readCodePoint {count : Nat} (hcount : 0 < count) (tail : List Char) :
    Keeps tail (readCodePoint count) := by
  intro cs x n h
  by_cases hcs : cs.head? = some '\x7b'
  · obtain ⟨rest, rfl⟩ := List.head?_eq_some_iff.mp hcs
    rw [readCodePoint_brace] at h
    split at h
    · next later hlater =>
      have hlt := length_lt_of_drop_eq_cons hlater
      obtain ⟨d, -, hn⟩ := Option.map_eq_some_iff.mp h
      cases hn
      refine ⟨by rw [List.length_cons]; omega, ?_⟩
      rw [List.cons_append, readCodePoint_brace, takeWhile_append_of_lt hlt,
        drop_append_of_le (Nat.le_of_lt hlt), hlater]
      exact h
    · cases h
  · rw [readCodePoint_digits hcs] at h
    split at h
    · next hlength =>
      have hle : count ≤ cs.length := by
        rw [List.length_take] at hlength
        omega
      have hhead : (cs ++ tail).head? ≠ some '\x7b' := by
        obtain ⟨c, rest, rfl⟩ := List.exists_cons_of_length_pos (Nat.lt_of_lt_of_le hcount hle)
        exact hcs
      obtain ⟨d, -, hn⟩ := Option.map_eq_some_iff.mp h
      cases hn
      refine ⟨hle, ?_⟩
      rw [readCodePoint_digits hhead, List.take_append_of_le_length hle, if_pos hlength, h]
    · cases h

theorem readProperty_brace (rest : List Char) :
    Property.read ('\x7b' :: rest) =
      if (rest.takeWhile (· != '\x7d')).length < rest.length then
        (Property.query? (rest.takeWhile (· != '\x7d'))).map
          (·, (rest.takeWhile (· != '\x7d')).length + 2)
      else none := rfl

theorem readProperty_letter {c : Char} (hc : c ≠ '\x7b') (rest : List Char) :
    Property.read (c :: rest) = (Property.named? [c]).map fun s => ((s, false), 1) := by
  rw [Property.read.eq_def]
  split
  · next h => exact absurd (List.cons.inj h).1 hc
  · next h => rw [(List.cons.inj h).1]
  · next h => cases h

theorem keeps_property (tail : List Char) : Keeps tail Property.read := by
  intro cs x n h
  cases cs with
  | nil => cases h
  | cons c rest =>
    by_cases hc : c = '\x7b'
    · subst hc
      rw [readProperty_brace] at h
      rw [List.cons_append, readProperty_brace]
      -- which names there are is of no account
      generalize Property.query? = query at h ⊢
      split at h
      · next hlt =>
        rw [takeWhile_append_of_lt hlt, if_pos (by rw [List.length_append]; omega)]
        refine ⟨?_, h⟩
        obtain ⟨d, -, hn⟩ := Option.map_eq_some_iff.mp h
        cases hn
        rw [List.length_cons]
        omega
      · cases h
    · rw [readProperty_letter hc] at h
      rw [List.cons_append, readProperty_letter hc]
      refine ⟨?_, h⟩
      generalize Property.named? [c] = found at h
      obtain ⟨s, -, hn⟩ := Option.map_eq_some_iff.mp h
      cases hn
      exact Nat.le_add_left 1 _

theorem readProperty_eq (f : Flags) (capital : Bool) (cs : List Char) :
    readProperty f capital cs =
      if f.unicode then
        (Property.read (cs.drop (f.skip cs))).map fun ((s, negated), n) =>
          (if capital != negated then .compl (f.cased s) else f.cased s, f.skip cs + n)
      else none := by
  rw [readProperty]
  cases f.unicode with
  | false => rfl
  | true =>
    simp only [Bool.not_true, Bool.false_eq_true, if_false, if_true]
    generalize Property.read (cs.drop (f.skip cs)) = found
    cases found with
    | none => rfl
    | some r => rfl

theorem keeps_readProperty (htail : Closes tail) (f : Flags) (capital : Bool) :
    Keeps tail (readProperty f capital) := by
  intro cs x n h
  rw [readProperty_eq] at h ⊢
  split at h
  · next hunicode =>
    obtain ⟨⟨⟨s, negated⟩, m⟩, hread, hn⟩ := Option.map_eq_some_iff.mp h
    -- something is read behind what is skipped
    have hne : cs.drop (f.skip cs) ≠ [] := by
      intro hnil
      rw [hnil] at hread
      cases hread
    obtain ⟨c, rest, hrest⟩ := List.exists_cons_of_ne_nil hne
    obtain ⟨hskip, hdrop⟩ := drop_skip_append htail hrest
    obtain ⟨hle, hread'⟩ := keeps_property tail _ _ _ hread
    rw [hrest, List.cons_append] at hread'
    rw [if_pos hunicode, hskip, hdrop, hread', Option.map_some, hn]
    rw [List.length_drop] at hle
    have hlt := length_lt_of_drop_eq_cons hrest
    cases hn
    exact ⟨by omega, rfl⟩
  · cases h

/-- What a name of a word edge is made of. -/
def isEdgeChar (c : Char) : Bool := CharClass.isAsciiLetter c || c == '-'

theorem readWordEdge_brace (c : Char) (rest : List Char) :
    readWordEdge ('\x7b' :: c :: rest) =
      if isEdgeChar c then
        match (c :: rest).drop ((c :: rest).takeWhile isEdgeChar).length with
        | '\x7d' :: _ => (wordEdge? ((c :: rest).takeWhile isEdgeChar)).map
            (·, ((c :: rest).takeWhile isEdgeChar).length + 2)
        | _ => none
      else some (.boundary, 0) := rfl

theorem readWordEdge_plain (hcs : ∀ c rest, cs ≠ '\x7b' :: c :: rest) :
    readWordEdge cs = some (.boundary, 0) := by
  rw [readWordEdge.eq_def]
  split
  · next c rest => exact absurd rfl (hcs c rest)
  · rfl

theorem keeps_readWordEdge (htail : Closes tail) : Keeps tail readWordEdge := by
  intro cs x n h
  have hparenthesis : isEdgeChar ')' = false := by decide
  by_cases hcs : ∃ c rest, cs = '\x7b' :: c :: rest
  · obtain ⟨c, rest, rfl⟩ := hcs
    have hrun := htail.takeWhile_append hparenthesis (c :: rest)
    rw [readWordEdge_brace] at h
    rw [List.cons_append, List.cons_append, readWordEdge_brace]
    rw [List.cons_append] at hrun
    split at h
    · next hc =>
      rw [if_pos hc, hrun]
      split at h
      · next later hlater =>
        have hlt := length_lt_of_drop_eq_cons hlater
        have hdrop := drop_append_of_le (Nat.le_of_lt hlt) tail
        rw [List.cons_append, hlater] at hdrop
        rw [hdrop]
        refine ⟨?_, h⟩
        obtain ⟨e, -, hn⟩ := Option.map_eq_some_iff.mp h
        cases hn
        rw [List.length_cons]
        omega
      · cases h
    · next hc =>
      rw [if_neg hc]
      cases h
      exact ⟨Nat.zero_le _, rfl⟩
  · have hcs' : ∀ c rest, cs ≠ '\x7b' :: c :: rest := fun c rest heq => hcs ⟨c, rest, heq⟩
    rw [readWordEdge_plain hcs'] at h
    cases h
    refine ⟨Nat.zero_le _, ?_⟩
    obtain ⟨later, rfl⟩ := htail.exists_cons
    -- the parenthesis is no name of an edge
    match cs, hcs' with
    | [], _ => exact readWordEdge_plain (by simp)
    | [d], _ =>
      by_cases hd : d = '\x7b'
      · subst hd
        rw [List.singleton_append, readWordEdge_brace, hparenthesis]
        rfl
      · exact readWordEdge_plain (by simp [hd])
    | d :: c :: rest, hcs' =>
      refine readWordEdge_plain fun c' rest' heq => hcs' c rest ?_
      rw [(List.cons.inj heq).1]

theorem hexDigitCount?_pos {c : Char} {count : Nat} (h : hexDigitCount? c = some count) :
    0 < count := by
  rw [hexDigitCount?.eq_def] at h
  split at h <;> cases h <;> decide

theorem keeps_readEscape (htail : Closes tail) (f : Flags) : Keeps tail (readEscape f) := by
  intro cs e n h
  cases cs with
  | nil => cases h
  | cons c rest =>
    rw [List.cons_append]
    rw [readEscape.eq_def] at h ⊢
    dsimp only at h ⊢
    cases hhex : hexDigitCount? c with
    | some count =>
      rw [hhex] at h
      exact (keeps_readCodePoint (hexDigitCount?_pos hhex) tail).behind h
    | none =>
      rw [hhex] at h
      cases hcontrol : controlChar? c with
      | some control =>
        rw [hcontrol] at h
        cases h
        exact ⟨Nat.le_add_left 1 _, rfl⟩
      | none =>
        rw [hcontrol] at h
        dsimp only at h ⊢
        by_cases hclass : Flags.isClassLetter c = true
        · rw [if_pos hclass] at h ⊢
          refine ⟨?_, h⟩
          obtain ⟨s, -, hn⟩ := Option.map_eq_some_iff.mp h
          cases hn
          exact Nat.le_add_left 1 _
        · rw [if_neg hclass] at h ⊢
          have hone : ∀ {a : Escape}, some (a, 1) = some (e, n) → n ≤ (c :: rest).length := by
            intro a ha
            cases ha
            exact Nat.le_add_left 1 _
          split at h
          · exact (keeps_readProperty htail f false).behind h
          · exact (keeps_readProperty htail f true).behind h
          · exact (keeps_readWordEdge htail).behind
              (g := fun e => Escape.anchor (.word e (!f.unicode))) h
          · exact ⟨hone h, h⟩
          · exact ⟨hone h, h⟩
          · exact ⟨hone h, h⟩
          · exact ⟨hone h, h⟩
          · exact ⟨hone h, h⟩
          · refine ⟨?_, h⟩
            split at h
            · exact hone h
            · cases h

end Highlighting.Regex
