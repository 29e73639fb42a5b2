/-
  Highlighting/Proofs/Regex/WholeWords.lean
  =========================================
  **Whole words**, as they are written and as they match.

  A list of words is written as its alternatives, between the edges of words.
  Characters of words have no meaning of their own there, so that the reader
  takes them one by one; what it makes of the text in a group of its own is known
  up to the limits (`parse?_enclosed_wholeWords`).

  It matches the runs of word characters that are one of the words
  (`mem_ends_wholeWords`): an edge on either side leaves no room for a shorter
  or a longer match (`Source.IsWordRun.unique`).
-/
import Highlighting.Proofs.Regex.Normal

namespace Highlighting

/-! ### Runs of word characters -/

/-- Word characters from the one position up to the other, and none on either side. -/
structure Source.IsWordRun (text : Source) (p e : Nat) : Prop where
  lt : p < e
  le_size : e ≤ text.size
  all : ∀ c ∈ text.chars ⟨p, e⟩, CharClass.isWord c = true
  behind : (text.before? p).any CharClass.isWord = false
  ahead : (text[e]?).any CharClass.isWord = false

instance (text : Source) (p e : Nat) : Decidable (text.IsWordRun p e) :=
  decidable_of_iff (p < e ∧ e ≤ text.size ∧ (text.chars ⟨p, e⟩).all CharClass.isWord = true ∧
      (text.before? p).any CharClass.isWord = false ∧ (text[e]?).any CharClass.isWord = false)
    ⟨fun ⟨hlt, hsize, hall, hbehind, hahead⟩ =>
        ⟨hlt, hsize, List.all_eq_true.mp hall, hbehind, hahead⟩,
      fun h => ⟨h.lt, h.le_size, List.all_eq_true.mpr h.all, h.behind, h.ahead⟩⟩

namespace Source.IsWordRun

variable {text : Source} {p e e' : Nat}

theorem any_isWord (h : text.IsWordRun p e) {q : Nat} (hpq : p ≤ q) (hqe : q < e) :
    (text[q]?).any CharClass.isWord = true := by
  have hlt : q < text.size := Nat.lt_of_lt_of_le hqe h.le_size
  rw [Array.getElem?_eq_getElem hlt, Option.any_some]
  exact h.all _ (Source.mem_chars (Array.getElem?_eq_getElem hlt) hpq hqe)

theorem le_of_run (h : text.IsWordRun p e) (h' : text.IsWordRun p e') : e' ≤ e := by
  by_contra hlt
  have hword := h'.any_isWord (Nat.le_of_lt h.lt) (Nat.lt_of_not_le hlt)
  rw [h.ahead] at hword
  cases hword

/-- **From a position there is one run at most.** -/
theorem unique (h : text.IsWordRun p e) (h' : text.IsWordRun p e') : e = e' :=
  Nat.le_antisymm (h'.le_of_run h) (h.le_of_run h')

end Source.IsWordRun

namespace Regex

/-! ### Reading -/

variable {c : Char} {cs rest tail : List Char} {ws : List (List Char)}

theorem isSpecial_of_isWord (hc : CharClass.isWord c = true) : isSpecial c = false := by
  have hnone : ['\\', '.', '+', '*', '?', '(', ')', '|', '[', ']', '\x7b', '\x7d', '^', '$',
      '#', '&', '-', '~'].all (fun d => !CharClass.isWord d) = true := by
    decide
  rw [isSpecial, Bool.eq_false_iff, ne_eq, List.contains_iff_mem]
  intro hmem
  have hnot := List.all_eq_true.mp hnone c hmem
  rw [hc] at hnot
  cases hnot

theorem escape_eq_self (h : ∀ c ∈ cs, isSpecial c = false) : escape cs = cs := by
  induction cs with
  | nil => rfl
  | cons c cs ih =>
    obtain ⟨hc, hcs⟩ := List.forall_mem_cons.mp h
    rw [escape, List.flatMap_cons, hc]
    exact congrArg (c :: ·) (ih hcs)

/-- A construct that takes just the characters in front. -/
theorem readAll_of_step {σ : Type} {step : σ → List Char → Option (σ × Nat)} {s s' : σ}
    {xs : List Char} (hxs : xs ≠ []) (h : step s (xs ++ rest) = some (s', xs.length)) :
    readAll step 0 (xs ++ rest) s = readAll step 0 rest s' := by
  obtain ⟨x, xs, rfl⟩ := List.exists_cons_of_ne_nil hxs
  rw [List.cons_append] at h ⊢
  rw [readAll, h]
  exact Draft.readAll_taken xs rest s'

/-- A piece that is a single character. -/
def characterPiece (c : Char) : Piece := ⟨char c, 0, true⟩

/-- A word as a piece. -/
def wordPiece (cs : List Char) : Piece := .join joined (cs.map characterPiece)

theorem joined_chars (cs : List Char) : joined (cs.map char) = spelling cs := by
  rw [joined, spelling, List.flatMap_map]
  exact congrArg seqAll (List.flatMap_pure_eq_map char cs)

theorem chosen_spelling (cs : List Char) : chosen [spelling cs] = spelling cs := by
  rw [chosen, List.flatMap_cons, alternatives_spelling]
  rfl

theorem Piece.expr_join {combine : List Regex → Regex} {ps : List Piece}
    (h : ∀ p, ps = [p] → combine [p.expr] = p.expr) :
    (Piece.join combine ps).expr = combine (ps.map (·.expr)) := by
  match ps with
  | [] => rfl
  | [p] => exact (h p rfl).symm
  | _ :: _ :: _ => rfl

theorem Piece.depth_join_le {combine : List Regex → Regex} {ps : List Piece} {n : Nat}
    (h : ∀ p ∈ ps, p.depth ≤ n) : (Piece.join combine ps).depth ≤ n + 1 := by
  have hfold : ∀ (ps : List Piece) (k : Nat), (∀ p ∈ ps, p.depth ≤ n) → k ≤ n + 1 →
      ps.foldl (fun k p => max k (p.depth + 1)) k ≤ n + 1 := by
    intro ps
    induction ps with
    | nil => exact fun _ _ hk => hk
    | cons p ps ih =>
      intro k hps hk
      obtain ⟨hp, hps⟩ := List.forall_mem_cons.mp hps
      exact ih _ hps (Nat.max_le.mpr ⟨hk, Nat.succ_le_succ hp⟩)
  match ps with
  | [] => exact hfold [] 0 h (Nat.zero_le _)
  | [p] => exact Nat.le_succ_of_le (h p List.mem_cons_self)
  | p :: q :: ps => exact hfold (p :: q :: ps) 0 h (Nat.zero_le _)

theorem expr_wordPiece (cs : List Char) : (wordPiece cs).expr = spelling cs := by
  have hsingle : ∀ p, cs.map characterPiece = [p] → joined [p.expr] = p.expr := by
    intro p hp
    obtain ⟨c, -, rfl⟩ := List.map_eq_singleton_iff.mp hp
    rfl
  rw [wordPiece, Piece.expr_join hsingle, List.map_map]
  exact joined_chars cs

theorem depth_wordPiece_le (cs : List Char) : (wordPiece cs).depth ≤ 1 := by
  refine Piece.depth_join_le fun p hp => ?_
  obtain ⟨c, -, rfl⟩ := List.mem_map.mp hp
  exact Nat.le_refl 0

/-- The words as alternatives. -/
def wordsPiece (ws : List (List Char)) : Piece := .join chosen (ws.map wordPiece)

theorem expr_wordsPiece (ws : List (List Char)) :
    (wordsPiece ws).expr = chosen (ws.map spelling) := by
  have hsingle : ∀ p, ws.map wordPiece = [p] → chosen [p.expr] = p.expr := by
    intro p hp
    obtain ⟨w, -, rfl⟩ := List.map_eq_singleton_iff.mp hp
    rw [expr_wordPiece, chosen_spelling]
  rw [wordsPiece, Piece.expr_join hsingle, List.map_map]
  exact congrArg chosen (List.map_congr_left fun w _ => expr_wordPiece w)

theorem depth_wordsPiece_le (ws : List (List Char)) : (wordsPiece ws).depth ≤ 2 := by
  refine Piece.depth_join_le fun p hp => ?_
  obtain ⟨w, -, rfl⟩ := List.mem_map.mp hp
  exact depth_wordPiece_le w

/-- One of the words, between edges. -/
def wholeWords (ws : List (List Char)) : Regex :=
  joined [anchor edge, chosen (ws.map spelling), anchor edge]

/-- How that is written. -/
def wholeWordsText (ws : List (List Char)) : List Char :=
  "\\b(?:".toList ++ ['|'].intercalate ws ++ ")\\b".toList

namespace Draft

variable {d : Draft}

/-- With further pieces, latest first. -/
def behind (d : Draft) (ps : List Piece) : Draft :=
  { d with level := { d.level with pieces := ps ++ d.level.pieces } }

theorem next_plain (hflags : d.level.flags = .usual) (hc : isSpecial c = false)
    (rest : List Char) : d.next (c :: rest) = some (d.behind [characterPiece c], 1) := by
  have hskip : d.level.flags.skip (c :: rest) = 0 := by
    rw [hflags]
    rfl
  rw [next.eq_def]
  dsimp only
  rw [hskip, hflags]
  dsimp only
  split
  all_goals first
    | exact absurd hc (by decide)
    | rw [push_character]; rfl

theorem readAll_word (hflags : d.level.flags = .usual) (h : ∀ c ∈ cs, isSpecial c = false)
    (tail : List Char) : readAll next 0 (cs ++ tail) d =
      readAll next 0 tail (d.behind (cs.map characterPiece).reverse) := by
  induction cs generalizing d with
  | nil => rfl
  | cons c cs ih =>
    obtain ⟨hc, hcs⟩ := List.forall_mem_cons.mp h
    rw [List.cons_append, readAll, next_plain hflags hc]
    show readAll next 0 (cs ++ tail) (d.behind [characterPiece c]) = _
    rw [ih (by exact hflags) hcs, behind, behind, behind]
    simp

/-- **Alternatives are read one after the other.** -/
theorem readAll_words (hws : ws ≠ []) (h : ∀ w ∈ ws, ∀ c ∈ w, isSpecial c = false)
    (hflags : d.level.flags = .usual) (hpieces : d.level.pieces = []) (tail : List Char) :
    ∃ level : Level, level.flags = .usual ∧ level.index = d.level.index ∧
      level.body = .join chosen (d.level.branches.reverse ++ ws.map wordPiece) ∧
      readAll next 0 (['|'].intercalate ws ++ tail) d = readAll next 0 tail { d with level } := by
  induction ws generalizing d with
  | nil => exact absurd rfl hws
  | cons w ws ih =>
    obtain ⟨hw, hrest⟩ := List.forall_mem_cons.mp h
    have hbranch : (d.behind (w.map characterPiece).reverse).level.branch = wordPiece w := by
      rw [Level.branch, behind, hpieces, List.append_nil, List.reverse_reverse]
      rfl
    cases ws with
    | nil =>
      refine ⟨(d.behind (w.map characterPiece).reverse).level, hflags, rfl, ?_, ?_⟩
      · rw [Level.body, hbranch, List.reverse_cons]
        rfl
      · rw [List.intercalate_singleton, readAll_word hflags hw]
        rfl
    | cons w' ws =>
      obtain ⟨level, hflags', hindex, hbody, hread⟩ :=
        ih (d := (d.behind (w.map characterPiece).reverse).branch) (by simp) hrest hflags rfl
      refine ⟨level, hflags', hindex, ?_, ?_⟩
      · rw [hbody]
        show Piece.join chosen ((_ :: d.level.branches).reverse ++ _) = _
        rw [hbranch, List.reverse_cons, List.append_assoc]
        rfl
      · have hbar : (d.behind (w.map characterPiece).reverse).next
            (['|'] ++ (['|'].intercalate (w' :: ws) ++ tail)) =
              some ((d.behind (w.map characterPiece).reverse).branch, 1) := by
          rw [List.singleton_append, next.eq_def]
          dsimp only
          rw [show (d.behind (w.map characterPiece).reverse).level.flags = .usual from hflags]
          rfl
        rw [List.intercalate_cons_cons, List.append_assoc, List.append_assoc,
          readAll_word hflags hw, readAll_of_step (by simp) hbar, hread]
        rfl

theorem readAll_edge (hflags : d.level.flags = .usual)
    (hrest : ∀ c rest', rest ≠ '\x7b' :: c :: rest') :
    readAll next 0 ('\\' :: 'b' :: rest) d =
      readAll next 0 rest (d.behind [⟨anchor edge, 0, true⟩]) := by
  have hescape : readEscape .usual ('b' :: rest) = some (.anchor edge, 1) := by
    show (readWordEdge rest).map _ = _
    rw [readWordEdge_plain hrest]
    rfl
  have hnext : d.next ('\\' :: 'b' :: rest) = some (d.behind [⟨anchor edge, 0, true⟩], 2) := by
    rw [next.eq_def]
    dsimp only
    rw [hflags]
    show (readEscape .usual ('b' :: rest)).map _ = _
    rw [hescape]
    rfl
  exact readAll_of_step (List.cons_ne_nil '\\' ['b']) hnext

theorem readAll_enter (hflags : d.level.flags = .usual) (rest : List Char) :
    readAll next 0 ('(' :: '?' :: ':' :: rest) d = readAll next 0 rest (d.enter .usual) := by
  have hnext : d.next ('(' :: '?' :: ':' :: rest) = some (d.enter .usual, 3) := by
    rw [next.eq_def]
    dsimp only
    rw [hflags]
    show (d.readGroup ('?' :: ':' :: rest)).map _ = _
    rw [readGroup, hflags]
    rfl
  exact readAll_of_step (List.cons_ne_nil '(' ['?', ':']) hnext

/-- **Whole words are read as three pieces**: the words between two edges. -/
theorem readAll_wholeWords (hws : ws ≠ []) (h : ∀ w ∈ ws, ∀ c ∈ w, isSpecial c = false)
    (hflags : d.level.flags = .usual) (htail : ∀ c rest', tail ≠ '\x7b' :: c :: rest') :
    readAll next 0 (wholeWordsText ws ++ tail) d = readAll next 0 tail
      (d.behind [⟨anchor edge, 0, true⟩,
        ⟨chosen (ws.map spelling), (wordsPiece ws).depth + 1, true⟩, ⟨anchor edge, 0, true⟩]) := by
  have htext : wholeWordsText ws ++ tail = '\\' :: 'b' :: '(' :: '?' :: ':' ::
      (['|'].intercalate ws ++ (')' :: '\\' :: 'b' :: tail)) := by
    show "\\b(?:".toList ++ ['|'].intercalate ws ++ ")\\b".toList ++ tail = _
    simp
  -- the level between the parentheses
  obtain ⟨level, hflags', hindex, hbody, hread⟩ :=
    readAll_words (d := (d.behind [⟨anchor edge, 0, true⟩]).enter .usual) hws h rfl rfl
      (')' :: '\\' :: 'b' :: tail)
  have hcontent : level.content = chosen (ws.map spelling) := by
    rw [Level.content, hindex, hbody]
    exact expr_wordsPiece ws
  have hclose : next { (d.behind [⟨anchor edge, 0, true⟩]).enter .usual with level }
      (')' :: '\\' :: 'b' :: tail) =
        some (d.behind [⟨chosen (ws.map spelling), (wordsPiece ws).depth + 1, true⟩,
          ⟨anchor edge, 0, true⟩], 1) := by
    rw [next.eq_def]
    dsimp only
    rw [skip_parenthesis, leave?]
    dsimp only [enter]
    rw [hcontent, hbody]
    rfl
  have hclosed := readAll_of_step (List.cons_ne_nil ')' []) hclose
  rw [htext, readAll_edge hflags (by simp), readAll_enter (by exact hflags), hread]
  exact hclosed.trans (readAll_edge hflags htail)

end Draft

theorem finish?_of_piece {limit : SizeLimit} {d : Draft} {p : Piece} (houter : d.outer = [])
    (hbody : d.level.body = p) (hdepth : p.depth ≤ deepest) :
    d.finish? limit = if limit.accepts p.expr then some p.expr else none := by
  rw [Draft.finish?, hbody, houter]
  simp [hdepth]

/-- The three pieces as one. -/
def wholeWordsPiece (ws : List (List Char)) : Piece :=
  .join joined [⟨anchor edge, 0, true⟩, ⟨chosen (ws.map spelling), (wordsPiece ws).depth + 1, true⟩,
    ⟨anchor edge, 0, true⟩]

theorem depth_wholeWordsPiece_le (ws : List (List Char)) : (wholeWordsPiece ws).depth ≤ 4 := by
  refine Piece.depth_join_le fun p hp => ?_
  have hwords := depth_wordsPiece_le ws
  simp only [List.mem_cons, List.not_mem_nil, or_false] at hp
  rcases hp with rfl | rfl | rfl
  · exact Nat.zero_le 3
  · exact Nat.succ_le_succ hwords
  · exact Nat.zero_le 3

/-- **What whole words in a group of their own are read as**, up to the limits. -/
theorem parse?_enclosed_wholeWords (limit : SizeLimit) (hws : ws ≠ [])
    (h : ∀ w ∈ ws, ∀ c ∈ w, isSpecial c = false) :
    parse? ("(?:".toList ++ wholeWordsText ws ++ closing none) limit =
      if limit.accepts (wholeWords ws) then some (wholeWords ws) else none := by
  have htail : ∀ c rest', closing none ≠ '\x7b' :: c :: rest' := by simp [closing]
  have hread := Draft.readAll_wholeWords (d := Draft.start.around Draft.start.level) hws h rfl htail
  show (readAll Draft.next 0 _ Draft.start).bind (·.finish? limit) = _
  rw [List.append_assoc, Draft.readAll_opening, hread]
  show (readAll Draft.next 0 (closing none) ((Draft.start.behind _).around _)).bind _ = _
  rw [Draft.readAll_closing rfl]
  have hdepth := depth_wholeWordsPiece_le ws
  exact finish?_of_piece (p := ⟨wholeWords ws, (wholeWordsPiece ws).depth + 1, true⟩) rfl rfl
    (Nat.le_trans (Nat.succ_le_succ hdepth) (by decide))

/-! ### Matching -/

variable {text : Source} {p e : Nat}

theorem mem_ends_anchor {a : Anchor} :
    e ∈ (anchor a).ends text p ↔ e = p ∧ a.holds text p = true := by
  rw [ends]
  cases a.holds text p <;> simp

theorem holds_edge_iff :
    edge.holds text p = true ↔ (text.before? p).any CharClass.isWord ≠
      (text[p]?).any CharClass.isWord := bne_iff_ne

/-- **Whole words match the runs that are one of the words.** -/
theorem mem_ends_wholeWords (hws : ws ≠ []) (hne : ∀ w ∈ ws, w ≠ [])
    (hword : ∀ w ∈ ws, ∀ c ∈ w, CharClass.isWord c = true) (hp : p ≤ text.size) :
    e ∈ (wholeWords ws).ends text p ↔ text.IsWordRun p e ∧ text.chars ⟨p, e⟩ ∈ ws := by
  have hends : e ∈ (wholeWords ws).ends text p ↔ edge.holds text p = true ∧
      (p ≤ e ∧ e ≤ text.size ∧ text.chars ⟨p, e⟩ ∈ ws) ∧ edge.holds text e = true := by
    rw [wholeWords, ends_joined]
    simp only [seqAll, mem_ends_seq, mem_ends_anchor]
    constructor
    · rintro ⟨_, ⟨rfl, hopen⟩, m, hm, rfl, hclose⟩
      exact ⟨hopen, (mem_ends_chosen_spellings hws hne hp).mp hm, hclose⟩
    · rintro ⟨hopen, hm, hclose⟩
      exact ⟨p, ⟨rfl, hopen⟩, e, (mem_ends_chosen_spellings hws hne hp).mpr hm, rfl, hclose⟩
  rw [hends, holds_edge_iff, holds_edge_iff]
  have hinside : text.chars ⟨p, e⟩ ∈ ws → p ≤ e → e ≤ text.size → p < e ∧
      (text[p]?).any CharClass.isWord = true ∧ (text.before? e).any CharClass.isWord = true := by
    intro hmem hle hsize
    have hlt : p < e := by
      refine Nat.lt_of_le_of_ne hle ?_
      rintro rfl
      exact hne _ hmem (text.chars_empty p)
    have hany : ∀ q, p ≤ q → q < e → (text[q]?).any CharClass.isWord = true := by
      intro q hpq hqe
      have hq : q < text.size := Nat.lt_of_lt_of_le hqe hsize
      rw [Array.getElem?_eq_getElem hq, Option.any_some]
      exact hword _ hmem _ (Source.mem_chars (Array.getElem?_eq_getElem hq) hpq hqe)
    obtain ⟨k, rfl⟩ := Nat.exists_eq_succ_of_ne_zero (Nat.ne_zero_of_lt hlt)
    exact ⟨hlt, hany p (Nat.le_refl p) hlt, hany k (Nat.le_of_lt_succ hlt) (Nat.lt_succ_self k)⟩
  constructor
  · rintro ⟨hopen, ⟨hle, hsize, hmem⟩, hclose⟩
    obtain ⟨hlt, hfirst, hlast⟩ := hinside hmem hle hsize
    rw [hfirst] at hopen
    rw [hlast] at hclose
    exact ⟨⟨hlt, hsize, hword _ hmem, eq_false_of_ne_true hopen,
      eq_false_of_ne_true hclose.symm⟩, hmem⟩
  · rintro ⟨hrun, hmem⟩
    obtain ⟨-, hfirst, hlast⟩ := hinside hmem (Nat.le_of_lt hrun.lt) hrun.le_size
    rw [hfirst, hlast, hrun.behind, hrun.ahead]
    exact ⟨Bool.false_ne_true, ⟨Nat.le_of_lt hrun.lt, hrun.le_size, hmem⟩, Bool.noConfusion⟩

/-- **A matcher for whole words finds the run**, if it is one of them. -/
theorem firstEnd?_wholeWords (hws : ws ≠ []) (hne : ∀ w ∈ ws, w ≠ [])
    (hword : ∀ w ∈ ws, ∀ c ∈ w, CharClass.isWord c = true) (hp : p ≤ text.size) :
    (Matcher.ofRegex (wholeWords ws)).firstEnd? text p = some e ↔
      text.IsWordRun p e ∧ text.chars ⟨p, e⟩ ∈ ws := by
  have hmem : ∀ e, e ∈ (wholeWords ws).ends text p ↔ _ :=
    fun _ => mem_ends_wholeWords hws hne hword hp
  rw [Matcher.firstEnd?_eq_some_iff hp, hmem]
  exact fun e he e' he' => ((hmem e).mp he).1.unique ((hmem e').mp he').1

end Regex

end Highlighting
