/-
  Highlighting/Proofs/Regex/Extended/WholeWords.lean
  ==================================================
  **Whole words behind a guard**, read as an extended expression.

  With the guard in front written into it, the expression for whole words is an
  extended one.  Its reader keeps the latest item of a level apart, so that what
  has been read is told by the items once that is settled (`Level.Adds`).

  Edges of words are hard, and the words stand between two of them.  So the plan
  goes through the words choice by choice and character by character
  (`plan?_guardedWords`).
-/
import Highlighting.Proofs.Regex.WholeWords
import Highlighting.Regex.Extended.Parser
import Highlighting.Regex.Extended.Plan

namespace Highlighting.Extended

open Highlighting.Regex (Flags edge isSpecial readAll_of_step simplified_single wholeWordsText)

variable {c : Char} {cs rest tail : List Char} {ws : List (List Char)} {e : Extended}

/-! ### Reading -/

def char (c : Char) : Extended := set (.single c)

/-- The word, character by character. -/
def spelling (cs : List Char) : Extended := seqAll (cs.map char)

theorem grouped_words_ne (hws : ws ≠ []) (hne : ∀ w ∈ ws, w ≠ []) :
    (altAll (ws.map spelling)).grouped ≠ .empty := by
  match ws with
  | [] => exact absurd rfl hws
  | [w] =>
    match w, hne w List.mem_cons_self with
    | [_], _ => exact nofun
    | _ :: _ :: _, _ => exact nofun
  | _ :: _ :: _ => exact nofun

namespace Level

variable {l l' l'' : Level} {es es' : List Extended}

/-- The level has gone on by the items. -/
structure Adds (l l' : Level) (es : List Extended) : Prop where
  opening : l'.opening = l.opening
  alternatives : l'.alternatives = l.alternatives
  items : l'.settle.items = es.reverse ++ l.settle.items

theorem Adds.refl (l : Level) : l.Adds l [] := ⟨rfl, rfl, rfl⟩

theorem Adds.trans (h : l.Adds l' es) (h' : l'.Adds l'' es') : l.Adds l'' (es ++ es') := by
  refine ⟨h'.opening.trans h.opening, h'.alternatives.trans h.alternatives, ?_⟩
  rw [h'.items, h.items, List.reverse_append, List.append_assoc]

theorem adds_push (l : Level) (he : e ≠ .empty) : l.Adds (l.push e) [e] := by
  have hsettle : ∀ l : Level, l.settle.opening = l.opening ∧
      l.settle.alternatives = l.alternatives := by
    intro l
    rw [settle]
    split <;> exact ⟨rfl, rfl⟩
  refine ⟨(hsettle l).1, (hsettle l).2, ?_⟩
  cases e with
  | empty => exact absurd rfl he
  | _ => rfl

/-- What a level that began with nothing says. -/
theorem Adds.sequence (h : (Level.start l.opening).Adds l es) : l.sequence = seqAll es := by
  rw [Level.sequence, h.items]
  show seqAll (es.reverse ++ []).reverse = _
  rw [List.append_nil, List.reverse_reverse]

end Level

namespace Draft

variable {d : Draft}

theorem gap?_eq_zero (hflags : d.flags = .usual) (hc : c ≠ '(') (rest : List Char) :
    d.gap? (c :: rest) = some 0 := by
  rw [gap?, hflags, gapLength.eq_def]
  split
  · next heq => exact absurd (List.cons.inj heq).1 hc
  · simp [Flags.usual]
  · rfl
  all_goals next h _ => cases h

theorem next_plain (hflags : d.flags = .usual) (hc : isSpecial c = false) (rest : List Char) :
    d.next (c :: rest) = some (d.push (char c), 1) := by
  have hgap : d.gap? (c :: rest) = some 0 := by
    refine gap?_eq_zero hflags ?_ rest
    rintro rfl
    exact absurd hc (by decide)
  rw [next.eq_def]
  dsimp only
  rw [hgap]
  dsimp only [Option.bind_eq_bind, Option.bind_some]
  split
  all_goals first
    | exact absurd hc (by decide)
    | rw [pushChar, hflags]; rfl

/-- Characters without a meaning of their own are read one by one. -/
theorem readAll_word (hflags : d.flags = .usual) (h : ∀ c ∈ cs, isSpecial c = false)
    (tail : List Char) : ∃ level : Level, d.level.Adds level (cs.map char) ∧
      Regex.readAll next 0 (cs ++ tail) d = Regex.readAll next 0 tail { d with level } := by
  induction cs generalizing d with
  | nil => exact ⟨d.level, .refl _, rfl⟩
  | cons c cs ih =>
    obtain ⟨hc, hcs⟩ := List.forall_mem_cons.mp h
    obtain ⟨level, hadds, hread⟩ := ih (d := d.push (char c)) hflags hcs
    refine ⟨level, (d.level.adds_push (e := char c) nofun).trans hadds, ?_⟩
    exact (readAll_of_step (List.cons_ne_nil c []) (next_plain hflags hc (cs ++ tail))).trans hread

theorem readAll_bar (hflags : d.flags = .usual) (rest : List Char) :
    Regex.readAll next 0 ('|' :: rest) d =
      Regex.readAll next 0 rest { d with level := d.level.branch } := by
  have hnext : d.next ('|' :: rest) = some ({ d with level := d.level.branch }, 1) := by
    rw [next.eq_def]
    dsimp only
    rw [gap?_eq_zero hflags (by decide)]
    rfl
  exact readAll_of_step (List.cons_ne_nil '|' []) hnext

/-- **Alternatives are read one after the other**, in a level that has begun with nothing. -/
theorem readAll_words (hws : ws ≠ []) (h : ∀ w ∈ ws, ∀ c ∈ w, isSpecial c = false)
    (hflags : d.flags = .usual) (hitems : d.level.settle.items = []) (tail : List Char) :
    ∃ level : Level, level.opening = d.level.opening ∧
      level.body = altAll (d.level.alternatives.reverse ++ ws.map spelling) ∧
      Regex.readAll next 0 (['|'].intercalate ws ++ tail) d =
        Regex.readAll next 0 tail { d with level } := by
  induction ws generalizing d with
  | nil => exact absurd rfl hws
  | cons w ws ih =>
    obtain ⟨hw, hrest⟩ := List.forall_mem_cons.mp h
    have hsequence : ∀ level : Level, d.level.Adds level (w.map char) →
        level.sequence = spelling w := by
      intro level hadds
      rw [Level.sequence, hadds.items, hitems, List.append_nil, List.reverse_reverse]
      rfl
    cases ws with
    | nil =>
      obtain ⟨level, hadds, hread⟩ := readAll_word hflags hw tail
      refine ⟨level, hadds.opening, ?_, ?_⟩
      · rw [Level.body, hsequence level hadds, hadds.alternatives, List.reverse_cons]
        rfl
      · rw [List.intercalate_singleton, hread]
    | cons w' ws =>
      obtain ⟨level, hadds, hread⟩ :=
        readAll_word hflags hw ('|' :: (['|'].intercalate (w' :: ws) ++ tail))
      obtain ⟨level', hopening, hbody, hread'⟩ :=
        ih (d := { d with level := level.branch }) (by simp) hrest hflags rfl
      refine ⟨level', hopening.trans hadds.opening, ?_, ?_⟩
      · rw [hbody]
        show altAll ((level.sequence :: level.alternatives).reverse ++ _) = _
        rw [hsequence level hadds, hadds.alternatives, List.reverse_cons, List.append_assoc]
        rfl
      · rw [List.intercalate_cons_cons, List.append_assoc, List.append_assoc]
        exact hread.trans ((readAll_bar (d := { d with level }) hflags _).trans hread')

theorem readAll_edge (hflags : d.flags = .usual) (hrest : rest.head? ≠ some '\x7b') :
    Regex.readAll next 0 ('\\' :: 'b' :: rest) d =
      Regex.readAll next 0 rest (d.push (.anchor edge)) := by
  have hescape : d.readEscape ('b' :: rest) = some (d.push (.anchor edge), 1) := by
    show (if rest.head? == some '\x7b' then none else some (d.push (.anchor edge), 1)) = _
    rw [if_neg (by simpa using hrest)]
  have hnext : d.next ('\\' :: 'b' :: rest) = some (d.push (.anchor edge), 2) := by
    rw [next.eq_def]
    dsimp only
    rw [gap?_eq_zero hflags (by decide)]
    show (d.readEscape ('b' :: rest)).bind _ = _
    rw [hescape]
    rfl
  exact readAll_of_step (List.cons_ne_nil '\\' ['b']) hnext

/-- With a group open that is nothing but parentheses. -/
def enter (d : Draft) : Draft :=
  { d with level := .start (.plain d.flags), outer := d.level :: d.outer }

theorem readAll_enter (hflags : d.flags = .usual) (hroom : d.outer.length < deepest)
    (rest : List Char) : Regex.readAll next 0 ('(' :: '?' :: ':' :: rest) d =
      Regex.readAll next 0 rest d.enter := by
  have hgap : ∀ cs, d.gap? ('(' :: '?' :: ':' :: cs) = some 0 := by
    intro cs
    rw [gap?, hflags]
    rfl
  have hgroup : d.readGroup ('?' :: ':' :: rest) = some (d.enter, rest) := by
    rw [readGroup, gap?_eq_zero hflags (by decide)]
    show (readFlags d.flags 0 true 0 (':' :: rest)).bind _ = _
    have hread : readFlags d.flags 0 true 0 (':' :: rest) = some (d.flags, true, rest) := by
      rw [hflags]
      rfl
    rw [hread]
    show (d.enter? (.plain d.flags)).bind _ = _
    rw [enter?, if_pos (Nat.succ_le_of_lt hroom)]
    rfl
  have hnext : d.next ('(' :: '?' :: ':' :: rest) = some (d.enter, 3) := by
    rw [next.eq_def]
    dsimp only
    rw [hgap]
    show (if deepest ≤ d.outer.length then none else
      (d.readGroup ('?' :: ':' :: rest)).bind fun p =>
        some (p.1, ('?' :: ':' :: rest).length - p.2.length + 1)) = _
    rw [if_neg (Nat.not_le_of_lt hroom), hgroup, Option.bind_some]
    dsimp only [List.length_cons]
    rw [show rest.length + 1 + 1 - rest.length + 1 = 3 by omega]
  exact readAll_of_step (List.cons_ne_nil '(' ['?', ':']) hnext

/-- A closing parenthesis folds the level of such a group. -/
theorem readAll_leave {below : Level} {outer : List Level} {flags : Flags}
    (hflags : d.flags = .usual) (hnames : d.names = []) (houter : d.outer = below :: outer)
    (hopening : d.level.opening = .plain flags) (rest : List Char) :
    Regex.readAll next 0 (')' :: rest) d =
      Regex.readAll next 0 rest
        { d with level := below.push d.level.body.grouped, outer, flags } := by
  have hnext : d.next (')' :: rest) =
      some ({ d with level := below.push d.level.body.grouped, outer, flags }, 1) := by
    rw [next.eq_def]
    dsimp only
    rw [gap?_eq_zero hflags (by decide)]
    show d.leave?.bind _ = _
    rw [leave?, houter]
    dsimp only
    rw [mayLeave, hnames, hopening]
    simp
  exact readAll_of_step (List.cons_ne_nil ')' []) hnext

/-- **Whole words are read as three items**: the words between two edges. -/
theorem readAll_wholeWords (hws : ws ≠ []) (h : ∀ w ∈ ws, ∀ c ∈ w, isSpecial c = false)
    (hne : ∀ w ∈ ws, w ≠ []) (hflags : d.flags = .usual) (hnames : d.names = [])
    (hroom : d.outer.length < deepest) (htail : tail.head? ≠ some '\x7b') :
    ∃ level : Level,
      d.level.Adds level [anchor edge, (altAll (ws.map spelling)).grouped, anchor edge] ∧
      Regex.readAll next 0 (wholeWordsText ws ++ tail) d =
        Regex.readAll next 0 tail { d with level } := by
  have htext : wholeWordsText ws ++ tail = '\\' :: 'b' :: '(' :: '?' :: ':' ::
      (['|'].intercalate ws ++ (')' :: '\\' :: 'b' :: tail)) := by
    show "\\b(?:".toList ++ ['|'].intercalate ws ++ ")\\b".toList ++ tail = _
    simp
  obtain ⟨level, hopening, hbody, hread⟩ :=
    readAll_words (d := (d.push (anchor edge)).enter) hws h hflags rfl (')' :: '\\' :: 'b' :: tail)
  have hbody' : level.body = altAll (ws.map spelling) := hbody
  refine ⟨(((d.level.push (anchor edge)).push level.body.grouped).push (anchor edge)), ?_, ?_⟩
  · rw [hbody']
    have hedge : anchor edge ≠ .empty := nofun
    exact ((d.level.adds_push hedge).trans (Level.adds_push _ (grouped_words_ne hws hne))).trans
      (Level.adds_push _ hedge)
  · rw [htext, readAll_edge hflags (by simp), readAll_enter (by exact hflags) (by exact hroom),
      hread]
    have hleave := readAll_leave (d := { (d.push (anchor edge)).enter with level }) hflags hnames
      rfl hopening ('\\' :: 'b' :: tail)
    exact hleave.trans (readAll_edge hflags htail)

/-- Before anything is read. -/
def start : Draft := ⟨.usual, 0, [], false, .start .whole, []⟩

/-- The class of a period alone, as it is read. -/
def dot : Extended := set (.union .empty (.single '.'))

/-- **The guard in front is read as one item.** -/
theorem readAll_guard (rest : List Char) :
    Regex.readAll next 0 ("(?<![\\.])".toList ++ rest) start =
      Regex.readAll next 0 rest (start.push (.behind true dot)) := by
  have hopen : start.next ('(' :: '?' :: '<' :: '!' :: ('[' :: '\\' :: '.' :: ']' :: ')' :: rest)) =
      some ({ start with level := .start (.behind true), outer := [start.level] }, 4) := by
    show some (_, _ - _ + 1) = _
    dsimp only [List.length_cons]
    rw [show rest.length + 5 + 1 + 1 + 1 - (rest.length + 5) + 1 = 4 by omega]
    rfl
  have hclass : ({ start with level := .start (.behind true), outer := [start.level] } : Draft).next
      ('[' :: '\\' :: '.' :: ']' :: (')' :: rest)) = some
        ({ start with level := (Level.start (.behind true)).push dot, outer := [start.level] },
          4) := rfl
  have hclose : ({ start with
        level := (Level.start (.behind true)).push dot, outer := [start.level] } : Draft).next
      (')' :: rest) = some (start.push (.behind true dot), 1) := rfl
  have htext : "(?<![\\.])".toList ++ rest =
      '(' :: '?' :: '<' :: '!' :: '[' :: '\\' :: '.' :: ']' :: ')' :: rest := by
    simp
  rw [htext]
  exact (readAll_of_step (List.cons_ne_nil '(' ['?', '<', '!']) hopen).trans
    ((readAll_of_step (List.cons_ne_nil '[' ['\\', '.', ']']) hclass).trans
      (readAll_of_step (List.cons_ne_nil ')' []) hclose))

end Draft

/-- Whole words in a group of their own, behind the guard. -/
def guardedWords (ws : List (List Char)) : Extended :=
  seq (.behind true Draft.dot)
    (group (seq (anchor edge) (seq (altAll (ws.map spelling)).grouped (anchor edge))))

/-- **What whole words behind the guard are read as.** -/
theorem parse?_guardedWords (hws : ws ≠ []) (hne : ∀ w ∈ ws, w ≠ [])
    (h : ∀ w ∈ ws, ∀ c ∈ w, isSpecial c = false) :
    parse? ("(?<![\\.])".toList ++ ('(' :: '?' :: ':' :: (wholeWordsText ws ++ [')']))) =
      some (guardedWords ws) := by
  have htail : [')'].head? ≠ some '\x7b' := by simp
  obtain ⟨level, hadds, hread⟩ := Draft.readAll_wholeWords
    (d := (Draft.start.push (.behind true Draft.dot)).enter) hws h hne rfl rfl (by decide) htail
  have hbody : level.body =
      seq (anchor edge) (seq (altAll (ws.map spelling)).grouped (anchor edge)) := by
    rw [Level.body, hadds.alternatives, Level.sequence, hadds.items]
    rfl
  have hleave := Draft.readAll_leave
    (d := { (Draft.start.push (.behind true Draft.dot)).enter with level }) rfl rfl rfl
    hadds.opening []
  show (Regex.readAll Draft.next 0 _ Draft.start).bind Draft.finish? = _
  rw [Draft.readAll_guard, Draft.readAll_enter rfl (by decide), hread]
  refine (congrArg (Option.bind · Draft.finish?) hleave).trans ?_
  rw [hbody]
  rfl

/-! ### Planning -/

namespace Plan

/-- A word, character by character. -/
def spelling : List Char → Plan
  | [] => .skip
  | [c] => .set (.single c)
  | c :: cs => .seq (.set (.single c)) (spelling cs)

/-- One of the words. -/
def words : List (List Char) → Plan
  | [] => .skip
  | [w] => spelling w
  | w :: ws => .alt (spelling w) (words ws)

end Plan

variable {limit : Regex.SizeLimit} {mentioned : List Nat} {n : Nat}

theorem isLeft_whole (e : Extended) : isLeft mentioned .whole true e = false := by
  rw [isLeft, Bool.not_true, Bool.and_false]

theorem isLeft_choices (e : Extended) : isLeft mentioned .choices true e = false := by
  cases e <;> simp [isLeft]

theorem easyPlan?_char (c : Char) : easyPlan? limit (char c) = some (.set (.single c)) := by
  have hregex : (char c).toRegex? = some (.set (.single c)) := by
    show some (Regex.chosen [.set (CharSet.single c).simplified]) = _
    rw [simplified_single]
    rfl
  rw [easyPlan?, hregex]
  rfl

theorem planAt?_seq {place : Place} {a e : Extended}
    (hleft : isLeft mentioned place true (seq a e) = false) :
    planAt? limit mentioned place true (seq a e) =
      if place != .later && !a.isHard mentioned && a.isFixed then do
        return .seq (← easyPlan? limit a) (← planAt? limit mentioned .front true e)
      else do
        return .seq (← planAt? limit mentioned .whole true a)
          (← planAt? limit mentioned .later true e) := by
  rw [planAt?, hleft]
  rfl

theorem planAt?_seq_easy {place : Place} {a e : Extended} {p q : Plan} (hplace : place ≠ .later)
    (hleft : isLeft mentioned place true (seq a e) = false) (hard : a.isHard mentioned = false)
    (hfixed : a.isFixed = true) (ha : easyPlan? limit a = some p)
    (he : planAt? limit mentioned .front true e n = some (q, n)) :
    planAt? limit mentioned place true (seq a e) n = some (.seq p q, n) := by
  have hlater : (place != .later) = true := bne_iff_ne.mpr hplace
  rw [planAt?_seq hleft, hlater, hard, hfixed, ha]
  show (planAt? limit mentioned .front true e n).bind (fun y => some (Plan.seq p y.1, y.2)) = _
  rw [he]
  rfl

theorem planAt?_seq_hard {place : Place} {a e : Extended} {p q : Plan}
    (hleft : isLeft mentioned place true (seq a e) = false)
    (hard : place = .later ∨ a.isHard mentioned = true)
    (ha : planAt? limit mentioned .whole true a n = some (p, n))
    (he : planAt? limit mentioned .later true e n = some (q, n)) :
    planAt? limit mentioned place true (seq a e) n = some (.seq p q, n) := by
  have hnot : (place != .later && !a.isHard mentioned && a.isFixed) = false := by
    rcases hard with rfl | h
    · rfl
    · rw [h, Bool.not_true, Bool.and_false, Bool.false_and]
  rw [planAt?_seq hleft, hnot]
  show (planAt? limit mentioned .whole true a n).bind (fun x =>
    (planAt? limit mentioned .later true e x.2).bind
      fun y => some (Plan.seq x.1 y.1, y.2)) = _
  rw [ha, Option.bind_some, he]
  rfl

theorem spelling_cons_cons (c d : Char) (cs : List Char) :
    spelling (c :: d :: cs) = seq (char c) (spelling (d :: cs)) := rfl

theorem planAt?_front (hcs : cs ≠ []) :
    planAt? limit mentioned .front true (spelling cs) n = some (.spelling cs, n) := by
  induction cs with
  | nil => exact absurd rfl hcs
  | cons c cs ih =>
    cases cs with
    | nil =>
      show (if isLeft mentioned .front true (char c) then _ else _ : StateT Nat Option Plan) n = _
      rw [if_pos (by rfl)]
      show (easyPlan? limit (char c)).map (·, n) = _
      rw [easyPlan?_char]
      rfl
    | cons d cs => exact planAt?_seq_easy nofun rfl rfl rfl (easyPlan?_char c) (ih (by simp))

/-- Where the rest of a choice or something that stands for itself is asked for, a word is gone
through character by character. -/
theorem planAt?_spelling {place : Place} (hplace : place = .whole ∨ place = .choices)
    (hcs : cs ≠ []) :
    planAt? limit mentioned place true (spelling cs) n = some (.spelling cs, n) := by
  have hleft : ∀ e, isLeft mentioned place true e = false := by
    rcases hplace with rfl | rfl
    · exact isLeft_whole
    · exact isLeft_choices
  have hlater : place ≠ .later := by
    rcases hplace with rfl | rfl <;> exact nofun
  match cs, hcs with
  | [c], _ =>
    show planAt? limit mentioned place true (char c) n = _
    rw [char, planAt?, hleft]
    rfl
  | c :: d :: cs, _ =>
    exact planAt?_seq_easy hlater (hleft _) rfl rfl (easyPlan?_char c) (planAt?_front (by simp))

theorem planAt?_words {place : Place} (hplace : place = .whole ∨ place = .choices) (hws : ws ≠ [])
    (hne : ∀ w ∈ ws, w ≠ []) :
    planAt? limit mentioned place true (altAll (ws.map spelling)) n = some (.words ws, n) := by
  have hleft : ∀ e, isLeft mentioned place true e = false := by
    rcases hplace with rfl | rfl
    · exact isLeft_whole
    · exact isLeft_choices
  induction ws generalizing place with
  | nil => exact absurd rfl hws
  | cons w ws ih =>
    obtain ⟨hw, hrest⟩ := List.forall_mem_cons.mp hne
    cases ws with
    | nil => exact planAt?_spelling hplace hw
    | cons w' ws =>
      show planAt? limit mentioned place true
        (alt (spelling w) (altAll ((w' :: ws).map spelling))) n = _
      rw [planAt?, hleft]
      show (planAt? limit mentioned .whole true (spelling w) n).bind (fun x =>
        (planAt? limit mentioned .choices true (altAll ((w' :: ws).map spelling)) x.2).bind
          fun y => some (Plan.alt x.1 y.1, y.2)) = _
      rw [planAt?_spelling (.inl rfl) hw, Option.bind_some,
        ih (.inr rfl) (by simp) hrest isLeft_choices]
      rfl

/-- Parentheses around the alternatives make no difference. -/
theorem planAt?_grouped {p : Plan} (h : planAt? limit mentioned .whole true e n = some (p, n)) :
    planAt? limit mentioned .whole true e.grouped n = some (p, n) := by
  have hgroup : planAt? limit mentioned .whole true (group e) n = some (p, n) := by
    rw [planAt?, isLeft_whole]
    exact h
  cases e with
  | seq _ _ | alt _ _ => exact hgroup
  | _ => exact h

theorem divided_spelling (cs : List Char) : (spelling cs).divided = spelling cs := by
  induction cs with
  | nil => rfl
  | cons c cs ih =>
    cases cs with
    | nil => rfl
    | cons d cs =>
      rw [spelling_cons_cons, divided, ih]
      rfl

theorem divided_words (ws : List (List Char)) :
    (altAll (ws.map spelling)).divided = altAll (ws.map spelling) := by
  induction ws with
  | nil => rfl
  | cons w ws ih =>
    cases ws with
    | nil => exact divided_spelling w
    | cons w' ws =>
      show (alt (spelling w) (altAll ((w' :: ws).map spelling))).divided = _
      rw [divided, divided_spelling, ih]
      rfl

theorem divided_grouped (h : e.divided = e) : e.grouped.divided = e.grouped := by
  cases e with
  | seq _ _ | alt _ _ => exact congrArg group h
  | _ => exact h

/-- The plan for whole words behind the guard. -/
def wholeWordsPlan (ws : List (List Char)) : Plan :=
  .seq (.behind true 1 (.set (.single '.')))
    (.seq (.anchor edge) (.seq (.words ws) (.anchor edge)))

/-- **How whole words behind the guard are searched for.** -/
theorem plan?_guardedWords (hws : ws ≠ []) (hne : ∀ w ∈ ws, w ≠ []) :
    (guardedWords ws).plan? limit = some (wholeWordsPlan ws) := by
  have hdivided : (guardedWords ws).divided = guardedWords ws := by
    show seq _ (group (seq _ (seq (altAll (ws.map spelling)).grouped.divided _))) = _
    rw [divided_grouped (divided_words ws)]
    rfl
  have hwords : planAt? limit (guardedWords ws).mentioned .later true
      (seq (altAll (ws.map spelling)).grouped (anchor edge)) 0 =
        some (.seq (.words ws) (.anchor edge), 0) := by
    refine planAt?_seq_hard ?_ (.inl rfl) (planAt?_grouped (planAt?_words (.inl rfl) hws hne)) rfl
    simp [isLeft, isHard, isWordAnchor, edge]
  have hgroup : planAt? limit (guardedWords ws).mentioned .later true
      (group (seq (anchor edge) (seq (altAll (ws.map spelling)).grouped (anchor edge)))) 0 =
        some (.seq (.anchor edge) (.seq (.words ws) (.anchor edge)), 0) := by
    have hedge : planAt? limit (guardedWords ws).mentioned .whole true (anchor edge) 0 =
        some (.anchor edge, 0) := rfl
    exact planAt?_seq_hard (isLeft_whole _) (.inr rfl) hedge hwords
  show ((planAt? limit _ .whole true (guardedWords ws).divided).run 0).map _ = _
  rw [hdivided]
  exact congrArg (Option.map _) (planAt?_seq_hard (isLeft_whole _) (.inr rfl) rfl hgroup)

end Highlighting.Extended
