/-
  Highlighting/Proofs/Regex/Classes.lean
  ======================================
  **Bracketed classes stay read** when a closing parenthesis follows.

  A class is read up to its closing bracket, member by member.  Each member is
  read as without the parenthesis (`readMember_append`), for the text in front
  still holds the bracket.  The one thing that might reach further is the name
  of an ASCII class, and no such name has a parenthesis in it.
-/
import Highlighting.Proofs.Regex.Readers
import Highlighting.Regex.Bracket

namespace Highlighting.Regex

variable {tail cs : List Char} {f : Flags} {n : Nat}

namespace Bracket

variable {b b' : Bracket} {outer outer' : List Bracket} {m : Nat}

theorem readItem_escape (f : Flags) (rest : List Char) :
    readItem f ('\\' :: rest) =
      match readEscape f rest with
      | some (.char c, n) => if f.unicode || c.toNat < 128 then some (.char c, n + 1) else none
      | some (.set s, n) => some (.set s, n + 1)
      | _ => none := rfl

theorem readItem_plain {c : Char} (hc : c ≠ '\\') (f : Flags) (rest : List Char) :
    readItem f (c :: rest) = if f.unicode || c.toNat < 128 then some (.char c, 1) else none := by
  rw [readItem.eq_def]
  split
  · next h => cases h
  · next h => exact absurd (List.cons.inj h).1 hc
  · next h => rw [(List.cons.inj h).1]

theorem keeps_readItem (htail : Closes tail) (f : Flags) : Keeps tail (readItem f) := by
  intro cs x n h
  cases cs with
  | nil => cases h
  | cons c rest =>
    rw [List.cons_append]
    by_cases hc : c = '\\'
    · subst hc
      rw [readItem_escape] at h ⊢
      cases hread : readEscape f rest with
      | none =>
        rw [hread] at h
        cases h
      | some r =>
        obtain ⟨hle, hread'⟩ := keeps_readEscape htail f rest r.1 r.2 hread
        rw [hread] at h
        rw [hread']
        refine ⟨?_, h⟩
        obtain ⟨e, k⟩ := r
        cases e with
        | char d =>
          dsimp only at h
          split at h
          · cases h
            exact Nat.succ_le_succ hle
          · cases h
        | set s =>
          cases h
          exact Nat.succ_le_succ hle
        | anchor a => cases h
    · rw [readItem_plain hc] at h ⊢
      refine ⟨?_, h⟩
      split at h
      · cases h
        exact Nat.le_add_left 1 _
      · cases h

theorem read?_cons_cons (c d : Char) (rest : List Char) :
    SetOperation.read? (c :: d :: rest) = SetOperation.read? [c, d] := by
  rw [SetOperation.read?.eq_def]
  split
  · next h => cases h; rfl
  · next h => cases h; rfl
  · next h => cases h; rfl
  · next h₁ h₂ h₃ =>
    rw [SetOperation.read?.eq_def]
    split
    · next h => cases h; exact (h₁ _ rfl).elim
    · next h => cases h; exact (h₂ _ rfl).elim
    · next h => cases h; exact (h₃ _ rfl).elim
    · rfl

theorem read?_append (htail : Closes tail) (hcs : cs ≠ []) :
    SetOperation.read? (cs ++ tail) = SetOperation.read? cs := by
  obtain ⟨later, rfl⟩ := htail.exists_cons
  match cs, hcs with
  | [c], _ => simp [SetOperation.read?]
  | c :: d :: rest, _ =>
    rw [List.cons_append, List.cons_append, read?_cons_cons, read?_cons_cons c d rest]

/-- What is behind the name of an ASCII class when it is complete. -/
def readNamedBody (f : Flags) (negated : Bool) (n : Nat) (body : List Char) :
    Option (CharSet × Nat) :=
  match body.drop (body.takeWhile (· != ':')).length with
  | ':' :: ']' :: _ => do
    let s ← named? (body.takeWhile (· != ':'))
    if negated && !f.unicode then none
    return (if negated then .compl s else s, n + (body.takeWhile (· != ':')).length + 2)
  | _ => none

/-- Whether the class with a name is negated, its name with what follows, and the length in
front. -/
def readNegation : List Char → Bool × List Char × Nat
  | '^' :: rest => (true, rest, 3)
  | rest => (false, rest, 2)

theorem readNamed_eq (f : Flags) (rest : List Char) :
    readNamed f ('[' :: ':' :: rest) =
      readNamedBody f (readNegation rest).1 (readNegation rest).2.2 (readNegation rest).2.1 := rfl

theorem readNegation_append (htail : Closes tail) (rest : List Char) :
    readNegation (rest ++ tail) =
      ((readNegation rest).1, (readNegation rest).2.1 ++ tail, (readNegation rest).2.2) := by
  obtain ⟨later, rfl⟩ := htail.exists_cons
  cases rest with
  | nil => rfl
  | cons c rest =>
    by_cases hc : c = '^'
    · subst hc
      rfl
    · have hplain : ∀ rest, readNegation (c :: rest) = (false, c :: rest, 2) := by
        intro rest
        rw [readNegation.eq_def]
        split
        · next h => exact absurd (List.cons.inj h).1 hc
        · rfl
      rw [List.cons_append, hplain, hplain]
      rfl

theorem named?_eq_none {name : List Char} (h : ')' ∈ name) : named? name = none := by
  have hne : ∀ s : String, ')' ∉ s.toList → String.ofList name ≠ s := by
    intro s hs heq
    rw [← heq, String.toList_ofList] at hs
    exact hs h
  rw [named?]
  split
  all_goals first
    | rfl
    | next heq => exact absurd heq (hne _ (by decide))

theorem readNamedBody_append (htail : Closes tail) (f : Flags) (negated : Bool) (n : Nat)
    (body : List Char) :
    readNamedBody f negated n (body ++ tail) = readNamedBody f negated n body := by
  obtain ⟨later, rfl⟩ := htail.exists_cons
  rw [readNamedBody, readNamedBody]
  rcases Nat.lt_or_ge (body.takeWhile (· != ':')).length body.length with hlt | hge
  · rw [takeWhile_append_of_lt hlt, drop_append_of_le (Nat.le_of_lt hlt)]
    obtain ⟨c, rest, hrest⟩ : ∃ c rest, body.drop (body.takeWhile (· != ':')).length = c :: rest :=
      List.exists_cons_of_length_pos (by rw [List.length_drop]; omega)
    rw [hrest, List.cons_append]
    cases rest with
    | nil => simp
    | cons d rest =>
      by_cases hcd : c = ':' ∧ d = ']'
      · rw [hcd.1, hcd.2]
        rfl
      · split
        · next h => cases h; exact absurd ⟨rfl, rfl⟩ hcd
        · split
          · next h => cases h; exact absurd ⟨rfl, rfl⟩ hcd
          · rfl
  · -- the name would go on with the parenthesis, and no class has such a name
    have hall : body.takeWhile (· != ':') = body :=
      (List.takeWhile_prefix _).eq_of_length_le hge
    have hmem : ')' ∈ (body ++ ')' :: later).takeWhile (· != ':') :=
      parenthesis_mem_takeWhile (by decide) hge later
    rw [hall, List.drop_length, named?_eq_none hmem]
    split
    · rfl
    · rfl

theorem readNamed_eq_none {c d : Char} (h : ¬ (c = '[' ∧ d = ':')) (f : Flags)
    (rest : List Char) : readNamed f (c :: d :: rest) = none := by
  rw [readNamed.eq_def]
  split
  · next heq => cases heq; exact absurd ⟨rfl, rfl⟩ h
  · rfl

/-- A class with a name is one, or is none, whatever follows. -/
theorem readNamed_append (htail : Closes tail) (hcs : cs ≠ []) (f : Flags) :
    readNamed f (cs ++ tail) = readNamed f cs := by
  match cs, hcs with
  | [c], _ =>
    obtain ⟨later, rfl⟩ := htail.exists_cons
    have hnot : ¬ (c = '[' ∧ (')' : Char) = ':') := by
      rintro ⟨-, h⟩
      exact absurd h (by decide)
    rw [List.singleton_append, readNamed_eq_none hnot]
    simp [readNamed]
  | c :: d :: rest, _ =>
    rw [List.cons_append, List.cons_append]
    by_cases hcd : c = '[' ∧ d = ':'
    · rw [hcd.1, hcd.2, readNamed_eq, readNamed_eq, readNegation_append htail,
        readNamedBody_append htail]
    · rw [readNamed_eq_none hcd, readNamed_eq_none hcd]

/-! ### Open brackets -/

/-- Whether a class is negated, and the length up to its members. -/
def startFront (f : Flags) (cs : List Char) : Bool × Nat :=
  match cs.drop (f.skip cs) with
  | '^' :: rest => (true, f.skip cs + 1 + f.skip rest)
  | _ => (false, f.skip cs)

/-- The class with the members that stand for themselves in front, and its length. -/
def startBody (negated : Bool) (n : Nat) (body : List Char) : Bracket × Nat :=
  match (body.takeWhile (· == '-')).length, body with
  | 0, ']' :: _ => (⟨negated, none, .single ']'⟩, n + 1)
  | 0, _ => (⟨negated, none, .empty⟩, n)
  | hyphens, _ => (⟨negated, none, .single '-'⟩, n + hyphens)

theorem start_eq (f : Flags) (cs : List Char) :
    start f cs =
      startBody (startFront f cs).1 (startFront f cs).2 (cs.drop (startFront f cs).2) := rfl

theorem startFront_le (f : Flags) (cs : List Char) : (startFront f cs).2 ≤ cs.length := by
  have hle := skip_le f cs
  rw [startFront]
  split
  · next rest hrest =>
    have hlength := congrArg List.length hrest
    rw [List.length_drop, List.length_cons] at hlength
    have hle' := skip_le f rest
    omega
  · exact hle

theorem startFront_append (htail : Closes tail) (f : Flags) (cs : List Char) :
    startFront f (cs ++ tail) = startFront f cs ∨
      (startFront f cs).2 = cs.length ∧ (startFront f (cs ++ tail)).2 = (cs ++ tail).length := by
  rcases skip_append htail f cs with hskip | ⟨hall, hskip⟩
  · rw [startFront, startFront, hskip, drop_append_of_le (skip_le f cs)]
    cases hrest : cs.drop (f.skip cs) with
    | nil =>
      obtain ⟨later, rfl⟩ := htail.exists_cons
      exact .inl rfl
    | cons c rest =>
      rw [List.cons_append]
      by_cases hc : c = '^'
      · subst hc
        rcases skip_append htail f rest with hskip' | ⟨hall', hskip'⟩
        · exact .inl (by simp only [hskip'])
        · have hlength := congrArg List.length hrest
          rw [List.length_drop, List.length_cons] at hlength
          simp only [hall', hskip', List.length_append]
          exact .inr ⟨by omega, by omega⟩
      · split
        · next h => exact absurd (List.cons.inj h).1 hc
        · split
          · next h => exact absurd (List.cons.inj h).1 hc
          · exact .inl rfl
  · rw [startFront, startFront, hskip, hall, List.drop_length, List.drop_length]
    exact .inr ⟨rfl, rfl⟩

theorem startBody_le (negated : Bool) (n : Nat) (body : List Char) :
    (startBody negated n body).2 ≤ n + body.length := by
  rw [startBody.eq_def]
  split
  · exact Nat.add_le_add_left (Nat.le_add_left 1 _) n
  · exact Nat.le_add_right n _
  · exact Nat.add_le_add_left (List.takeWhile_sublist _).length_le n

theorem startBody_append (htail : Closes tail) (negated : Bool) (n : Nat) (body : List Char) :
    startBody negated n (body ++ tail) = startBody negated n body := by
  have hrun : (body ++ tail).takeWhile (· == '-') = body.takeWhile (· == '-') :=
    htail.takeWhile_append (by decide) body
  cases body with
  | nil =>
    obtain ⟨later, rfl⟩ := htail.exists_cons
    rfl
  | cons c rest =>
    rw [startBody.eq_def, startBody.eq_def, hrun]
    generalize ((c :: rest).takeWhile (· == '-')).length = hyphens
    rw [List.cons_append]
    cases hyphens with
    | zero =>
      by_cases hc : c = ']'
      · subst hc
        rfl
      · split
        · next h => cases h; exact absurd rfl hc
        · split
          · next h => cases h; exact absurd rfl hc
          · rfl
          · next h _ => exact absurd rfl h
        · next h _ => exact absurd rfl h
    | succ k => rfl

theorem start_le (f : Flags) (cs : List Char) : (start f cs).2 ≤ cs.length := by
  have hfront := startFront_le f cs
  have hbody := startBody_le (startFront f cs).1 (startFront f cs).2
    (cs.drop (startFront f cs).2)
  rw [List.length_drop] at hbody
  rw [start_eq]
  omega

/-- What opens a class opens it whatever follows, unless a comment is open. -/
theorem start_append (htail : Closes tail) (f : Flags) (cs : List Char) :
    start f (cs ++ tail) = start f cs ∨
      (start f cs).2 = cs.length ∧ (start f (cs ++ tail)).2 = (cs ++ tail).length := by
  rw [start_eq, start_eq]
  rcases startFront_append htail f cs with hfront | ⟨hall, hall'⟩
  · rw [hfront, drop_append_of_le (startFront_le f cs)]
    exact .inl (startBody_append htail _ _ _)
  · rw [hall, hall', List.drop_length, List.drop_length]
    exact .inr ⟨rfl, rfl⟩

theorem start_append_of_lt (htail : Closes tail) (h : (start f cs).2 < cs.length) :
    start f (cs ++ tail) = start f cs := by
  rcases start_append htail f cs with heq | ⟨hall, -⟩
  · exact heq
  · omega

/-! ### Members -/

/-- What is behind skipped text begins with a hyphen only where it does so without what follows. -/
theorem hyphen_of_append (htail : Closes tail) {rest later : List Char}
    (h : (rest ++ tail).drop (f.skip (rest ++ tail)) = '-' :: later) :
    ∃ later', rest.drop (f.skip rest) = '-' :: later' := by
  rcases skip_append htail f rest with hskip | ⟨-, hskip⟩
  · rw [hskip, drop_append_of_le (skip_le f rest)] at h
    cases hdrop : rest.drop (f.skip rest) with
    | nil =>
      obtain ⟨t, rfl⟩ := htail.exists_cons
      rw [hdrop] at h
      cases h
    | cons c ds =>
      rw [hdrop] at h
      exact ⟨ds, by rw [(List.cons.inj h).1]⟩
  · rw [hskip, List.drop_length] at h
    cases h

theorem readMember_append (htail : Closes tail) (f : Flags) {x : CharSet}
    (h : readMember f cs = some (x, n)) : readMember f (cs ++ tail) = some (x, n) := by
  rw [readMember] at h ⊢
  obtain ⟨⟨low, k⟩, hlow, h⟩ := Option.bind_eq_some_iff.mp h
  obtain ⟨hle, hlow'⟩ := keeps_readItem htail f _ _ _ hlow
  refine Option.bind_eq_some_iff.mpr ⟨_, hlow', ?_⟩
  dsimp only at h ⊢
  rw [drop_append_of_le hle]
  split at h
  · next later hlater =>
    obtain ⟨hskip, hdrop⟩ := drop_skip_append htail hlater
    rw [hskip, hdrop]
    split
    · next heq =>
      cases heq
      cases hsecond : later.drop (f.skip later) with
      | nil =>
        rw [hsecond] at h
        cases h
      | cons d ds =>
        obtain ⟨hskip', hdrop'⟩ := drop_skip_append htail hsecond
        rw [hsecond] at h
        rw [hskip', hdrop']
        split at h
        · next hhead =>
          rw [List.head?_cons] at hhead ⊢
          rw [if_pos hhead]
          exact h
        · next hhead =>
          obtain ⟨⟨high, m⟩, hhigh, h⟩ := Option.bind_eq_some_iff.mp h
          obtain ⟨-, hhigh'⟩ := keeps_readItem htail f _ _ _ hhigh
          have hlength : (cs ++ tail).length - (d :: (ds ++ tail)).length =
              cs.length - (d :: ds).length := by
            simp only [List.length_append, List.length_cons]
            omega
          rw [List.head?_cons] at hhead ⊢
          rw [if_neg hhead, hlength]
          exact Option.bind_eq_some_iff.mpr ⟨_, hhigh', h⟩
    · next hnot => exact absurd rfl (hnot _)
  · next hnot =>
    split
    · next later hlater =>
      obtain ⟨later', hlater'⟩ := hyphen_of_append htail hlater
      exact absurd hlater' (hnot later')
    · exact h

/-! ### Whole classes -/

theorem next_append (htail : Closes tail)
    (h : b.next f outer cs = some (b', outer', m)) (hlt : m < cs.length) :
    b.next f outer (cs ++ tail) = some (b', outer', m) := by
  obtain ⟨c, rest, rfl⟩ := List.exists_cons_of_length_pos (Nat.zero_lt_of_lt hlt)
  rw [next] at h ⊢
  rw [read?_append htail (List.cons_ne_nil c rest)]
  cases hskip : f.skip (c :: rest) with
  | succ k =>
    rw [hskip] at h
    cases h
    rw [skip_append_of_lt htail (by omega), hskip]
  | zero =>
    rw [skip_append_of_lt htail (by rw [hskip]; exact Nat.succ_pos _), hskip]
    rw [hskip] at h
    cases hop : SetOperation.read? (c :: rest) with
    | some op =>
      rw [hop] at h
      exact h
    | none =>
      rw [hop] at h
      dsimp only at h ⊢
      rw [List.cons_append, List.head?_cons] at *
      split at h
      · next hopens =>
        rw [if_pos hopens, ← List.cons_append, readNamed_append htail (List.cons_ne_nil c rest)]
        split at h
        · exact h
        · next hnone =>
          rw [List.cons_append, List.tail_cons]
          rw [List.tail_cons] at h
          cases h
          rw [start_append_of_lt htail (Nat.lt_of_succ_lt_succ hlt)]
      · next hopens =>
        rw [if_neg hopens]
        obtain ⟨⟨s, k⟩, hs, h⟩ := Option.map_eq_some_iff.mp h
        rw [← List.cons_append, readMember_append htail f hs, Option.map_some, h]

/-- What has been read of a class to its end is read when more follows, and ends within the text. -/
theorem readRest_append (htail : Closes tail) {x : CharSet} {taken : Nat}
    (h : readRest f taken cs b outer = some (x, n)) :
    taken < cs.length ∧ n ≤ cs.length ∧ readRest f taken (cs ++ tail) b outer = some (x, n) := by
  induction cs generalizing taken b outer x n with
  | nil => cases taken <;> cases h
  | cons c cs ih =>
    rw [List.cons_append, List.length_cons]
    cases taken with
    | succ taken =>
      rw [readRest] at h ⊢
      obtain ⟨⟨s, k⟩, hs, h⟩ := Option.bind_eq_some_iff.mp h
      obtain ⟨htaken, hk, hs'⟩ := ih hs
      cases h
      rw [hs']
      exact ⟨Nat.succ_lt_succ htaken, Nat.succ_le_succ hk, rfl⟩
    | zero =>
      refine ⟨Nat.succ_pos _, ?_⟩
      rw [readRest] at h ⊢
      by_cases hc : c = ']'
      · rw [if_pos hc] at h ⊢
        obtain ⟨s, hs, h⟩ := Option.bind_eq_some_iff.mp h
        rw [hs]
        cases outer with
        | nil =>
          cases h
          exact ⟨Nat.succ_le_succ (Nat.zero_le _), rfl⟩
        | cons around outer =>
          obtain ⟨⟨s', k⟩, hs', h⟩ := Option.bind_eq_some_iff.mp h
          obtain ⟨-, hk, hs''⟩ := ih hs'
          cases h
          refine ⟨Nat.succ_le_succ hk, ?_⟩
          show (readRest f 0 (cs ++ tail) (around.add s) outer).bind _ = _
          rw [hs'']
          rfl
      · rw [if_neg hc] at h ⊢
        obtain ⟨⟨b', outer', m⟩, hnext, h⟩ := Option.bind_eq_some_iff.mp h
        obtain ⟨⟨s', k⟩, hs', h⟩ := Option.bind_eq_some_iff.mp h
        obtain ⟨hm, hk, hs''⟩ := ih hs'
        have hnext' := next_append htail hnext (by rw [List.length_cons]; omega)
        rw [List.cons_append] at hnext'
        cases h
        refine ⟨Nat.succ_le_succ hk, ?_⟩
        rw [hnext']
        show (readRest f (m - 1) (cs ++ tail) b' outer').bind _ = _
        rw [hs'']
        rfl

end Bracket

theorem keeps_readClass (htail : Closes tail) (f : Flags) : Keeps tail (readClass f) := by
  intro cs x n h
  rw [readClass] at h ⊢
  cases hstart : Bracket.start f cs with
  | mk b k =>
    rw [hstart] at h
    obtain ⟨⟨s, m⟩, hs, hn⟩ := Option.map_eq_some_iff.mp h
    obtain ⟨hpos, hm, hs'⟩ := Bracket.readRest_append htail hs
    rw [List.length_drop] at hpos hm
    have hlt : (Bracket.start f cs).2 < cs.length := by
      rw [hstart]
      show k < cs.length
      omega
    rw [Bracket.start_append_of_lt htail hlt, hstart]
    dsimp only
    rw [drop_append_of_le (by omega), hs']
    cases hn
    exact ⟨by omega, rfl⟩

end Highlighting.Regex
