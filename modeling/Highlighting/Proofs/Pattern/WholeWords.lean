/-
  Highlighting/Proofs/Pattern/WholeWords.lean
  ===========================================
  **Words are found as whole words.**

  A list of words finds the leftmost run of word characters that is one of them
  and has no period on either side (`StandsWhole`).  As a run leaves no choice
  of its end, nothing depends on how the words are listed: neither their order
  nor repetitions count, nor that one word begins like another
  (`words_find_whole_words`).

  The two limits are those of the engines.  A list that is too large does not
  compile with the guard checked outside; and with the guard written into the
  expression, a search that tries too many words at too many places is given up
  (`words_missed`).
-/
import Highlighting.Proofs.Pattern.Leftmost
import Highlighting.Proofs.Regex.Extended.Straight

namespace Highlighting

open Regex (wholeWords wholeWordsText)

variable {ws : List String} {text : Source} {p s e : Nat} {lookbehind : Lookbehind}
  {limit : Regex.SizeLimit} {pattern : Pattern}

/-- One of the words stands between the positions: a run of word characters that is in the list,
with no period on either side. -/
structure StandsWhole (ws : List String) (text : Source) (s e : Nat) : Prop where
  run : text.IsWordRun s e
  mem : String.ofList (text.chars ⟨s, e⟩) ∈ ws
  behind : text.before? s ≠ some '.'
  ahead : text[e]? ≠ some '.'

instance (ws : List String) (text : Source) (s e : Nat) : Decidable (StandsWhole ws text s e) :=
  decidable_of_iff (text.IsWordRun s e ∧ String.ofList (text.chars ⟨s, e⟩) ∈ ws ∧
      text.before? s ≠ some '.' ∧ text[e]? ≠ some '.')
    ⟨fun ⟨hrun, hmem, hbehind, hahead⟩ => ⟨hrun, hmem, hbehind, hahead⟩,
      fun h => ⟨h.run, h.mem, h.behind, h.ahead⟩⟩

/-- No search in the text uses up its retries, if it has any. -/
def Pattern.KeepsRetries (text : Source) : Pattern → Prop
  | regex (.extended plan) _ _ _ => plan.KeepsRetries text
  | regex (.regular _) _ _ _ | number | never => True

/-- The words can be searched for: there is one, none is empty, and all are of word characters. -/
structure AreWords (ws : List String) : Prop where
  ne_nil : ws ≠ []
  ne_empty : ∀ w ∈ ws, w ≠ ""
  isWord : ∀ w ∈ ws, ∀ c ∈ w.toList, CharClass.isWord c = true

namespace AreWords

theorem of_all (h : (!ws.isEmpty && ws.all fun w => w != "" && w.toList.all CharClass.isWord) =
    true) : AreWords ws := by
  rw [Bool.and_eq_true, Bool.not_eq_true', List.isEmpty_eq_false_iff, List.all_eq_true] at h
  have hword : ∀ w ∈ ws, w ≠ "" ∧ w.toList.all CharClass.isWord = true := fun w hw => by
    simpa using h.2 w hw
  exact ⟨h.1, fun w hw => (hword w hw).1, fun w hw => List.all_eq_true.mp (hword w hw).2⟩

variable (h : AreWords ws)
include h

theorem map_ne_nil : ws.map (·.toList) ≠ [] := by simpa using h.ne_nil

theorem ne_nil_of_mem : ∀ w ∈ ws.map (·.toList), w ≠ [] := by
  intro w hw
  obtain ⟨v, hv, rfl⟩ := List.mem_map.mp hw
  simpa using h.ne_empty v hv

theorem isWord_of_mem : ∀ w ∈ ws.map (·.toList), ∀ c ∈ w, CharClass.isWord c = true := by
  intro w hw
  obtain ⟨v, hv, rfl⟩ := List.mem_map.mp hw
  exact h.isWord v hv

theorem isSpecial_of_mem :
    ∀ w ∈ ws.map (·.toList), ∀ c ∈ w, Regex.isSpecial c = false :=
  fun w hw c hc => Regex.isSpecial_of_isWord (h.isWord_of_mem w hw c hc)

end AreWords

namespace PatternDecl

/-- What is declared for the words, between its two guards. -/
def wordsRegex (ws : List String) : GuardedRegex :=
  ⟨String.ofList (wholeWordsText (ws.map (·.toList))), some '.', ['.'], none⟩

theorem words_eq (h : AreWords ws) : words ws = regex (wordsRegex ws) := by
  have hescape : (ws.map fun w => Regex.escape w.toList) = ws.map (·.toList) := by
    refine List.map_congr_left fun w hw => Regex.escape_eq_self ?_
    exact h.isSpecial_of_mem _ (List.mem_map_of_mem hw)
  show regex ⟨String.ofList ("\\b(?:".toList ++ ['|'].intercalate _ ++ ")\\b".toList),
    some '.', [] ++ ['.'], none⟩ = _
  rw [hescape]
  rfl

theorem written_wordsRegex (ws : List String) :
    (wordsRegex ws).written.toList = wholeWordsText (ws.map (·.toList)) := String.toList_ofList

theorem enclosed_wordsRegex (ws : List String) : (wordsRegex ws).enclosed =
    "(?:".toList ++ wholeWordsText (ws.map (·.toList)) ++ Regex.closing none := by
  rw [GuardedRegex.enclosed_eq, written_wordsRegex]
  rfl

/-- With the guard checked outside, the words compile within the limit on the size. -/
theorem compile?_words_emulated (limit : Regex.SizeLimit) (h : AreWords ws) :
    (words ws).compile? .emulated limit =
      if limit.accepts (wholeWords (ws.map (·.toList))) then
        some ((wordsRegex ws).checking (wholeWords (ws.map (·.toList)))) else none := by
  rw [words_eq h]
  show (Regex.parse? (wordsRegex ws).enclosed limit).bind _ = _
  rw [enclosed_wordsRegex, Regex.parse?_enclosed_wholeWords limit h.map_ne_nil h.isSpecial_of_mem]
  split <;> rfl

/-- With the guard written into the expression, the words always compile. -/
theorem compile?_words_native (limit : Regex.SizeLimit) (h : AreWords ws) :
    (words ws).compile? .native limit =
      some (.regex (.extended (Extended.wholeWordsPlan (ws.map (·.toList)))) none ['.'] 0) := by
  have hparse : Extended.parse? (GuardedRegex.guardText '.' ++ (wordsRegex ws).enclosed) =
      some (Extended.guardedWords (ws.map (·.toList))) := by
    have htext : GuardedRegex.guardText '.' ++ (wordsRegex ws).enclosed = "(?<![\\.])".toList ++
        ('(' :: '?' :: ':' :: (wholeWordsText (ws.map (·.toList)) ++ [')'])) := by
      rw [enclosed_wordsRegex]
      simp [GuardedRegex.guardText, Regex.closing, Regex.escape, Regex.isSpecial]
    rw [htext]
    exact Extended.parse?_guardedWords h.map_ne_nil h.ne_nil_of_mem h.isSpecial_of_mem
  rw [words_eq h]
  show ((Extended.parse? _).bind fun e => (e.plan? limit).bind _) = _
  rw [hparse, Option.bind_some, Extended.plan?_guardedWords h.map_ne_nil h.ne_nil_of_mem]
  rfl

end PatternDecl

/-! ### What is found -/

/-- What the guards accept of whole words is what stands whole. -/
theorem accepts_words_iff (h : AreWords ws) :
    (PatternDecl.wordsRegex ws).Accepts (wholeWords (ws.map (·.toList))) text s e ↔
      StandsWhole ws text s e := by
  have hmem : text.chars ⟨s, e⟩ ∈ ws.map (·.toList) ↔ String.ofList (text.chars ⟨s, e⟩) ∈ ws := by
    rw [List.mem_map]
    constructor
    · rintro ⟨w, hw, heq⟩
      rwa [← heq, String.ofList_toList]
    · exact fun hw => ⟨_, hw, String.toList_ofList⟩
  constructor
  · intro haccepts
    obtain ⟨hrun, hchars⟩ := (Regex.firstEnd?_wholeWords h.map_ne_nil h.ne_nil_of_mem
      h.isWord_of_mem haccepts.start_le).mp haccepts.preferred
    exact ⟨hrun, hmem.mp hchars, haccepts.notAfter '.' rfl,
      haccepts.notBefore '.' (List.mem_singleton_self _)⟩
  · intro hstands
    have hle := Nat.le_trans (Nat.le_of_lt hstands.run.lt) hstands.run.le_size
    refine ⟨hle, ?_, nofun, ?_, ?_⟩
    · exact (Regex.firstEnd?_wholeWords h.map_ne_nil h.ne_nil_of_mem h.isWord_of_mem hle).mpr
        ⟨hstands.run, hmem.mpr hstands.mem⟩
    · rintro c hc
      cases hc
      exact hstands.behind
    · intro c hc
      rw [List.mem_singleton.mp hc]
      exact hstands.ahead

/-- **The plan for the words prefers what the matcher prefers.** -/
theorem enginesAgree_words (h : AreWords ws)
    (hretries : (Extended.wholeWordsPlan (ws.map (·.toList))).KeepsRetries text) :
    EnginesAgree text '.' (Extended.wholeWordsPlan (ws.map (·.toList)))
      (.ofRegex (wholeWords (ws.map (·.toList)))) := by
  have hrealizes : (Extended.Plan.seq (.anchor Regex.edge)
      (.seq (.words (ws.map (·.toList))) (.anchor Regex.edge))).Realizes text
        (wholeWords (ws.map (·.toList))) := by
    refine Extended.Plan.Realizes.of_ends ((Extended.Plan.Realizes.anchor _).seq
      ((Extended.Plan.Realizes.words h.map_ne_nil h.ne_nil_of_mem).seq (.anchor _))) ?_
    intro pos e
    rw [wholeWords, Regex.ends_joined]
    simp only [Regex.seqAll, Regex.mem_ends_seq, Regex.mem_ends_altAll, h.map_ne_nil,
      Regex.mem_ends_chosen_iff h.map_ne_nil h.ne_nil_of_mem, ne_eq, List.map_eq_nil_iff,
      not_false_eq_true]
  refine ⟨⟨_, .front _, hrealizes.prefers fun pos hpos e => ?_⟩, hretries⟩
  rw [Matcher.endAt?_find _ hpos, Regex.firstEnd?_wholeWords h.map_ne_nil h.ne_nil_of_mem
    h.isWord_of_mem hpos, Regex.mem_ends_wholeWords h.map_ne_nil h.ne_nil_of_mem h.isWord_of_mem
    hpos]

/-- However the guard in front is realised, the search is for the words as they stand whole. -/
theorem find_words (h : AreWords ws)
    (hpattern : (PatternDecl.words ws).compile? lookbehind limit = some pattern)
    (hretries : pattern.KeepsRetries text) (pos : Nat) :
    pattern.find text pos =
      ((PatternDecl.wordsRegex ws).checking (wholeWords (ws.map (·.toList)))).find text pos := by
  cases lookbehind with
  | native =>
    rw [PatternDecl.compile?_words_native limit h] at hpattern
    cases hpattern
    exact (enginesAgree_words h hretries).find_eq ['.'] 0
  | emulated =>
    rw [PatternDecl.compile?_words_emulated limit h] at hpattern
    obtain ⟨-, hpattern⟩ := Option.ite_none_right_eq_some.mp hpattern
    rw [Option.some.inj hpattern]

/-- The leftmost of the words that stands whole is found. -/
theorem find_words_eq_some_iff (h : AreWords ws)
    (hpattern : (PatternDecl.words ws).compile? lookbehind limit = some pattern)
    (hretries : pattern.KeepsRetries text) (pos s e : Nat) :
    pattern.find text pos = some ⟨s, e⟩ ↔ pos ≤ s ∧ StandsWhole ws text s e ∧
      ∀ p, pos ≤ p → p < s → ∀ e', ¬ StandsWhole ws text p e' := by
  simp only [find_words h hpattern hretries, GuardedRegex.find_checking_eq_some_iff,
    accepts_words_iff h]

theorem AreWords.congr {ws' : List String} (h : AreWords ws) (hsame : ∀ w, w ∈ ws' ↔ w ∈ ws) :
    AreWords ws' where
  ne_nil := by
    obtain ⟨w, hw⟩ := List.exists_mem_of_ne_nil ws h.ne_nil
    exact List.ne_nil_of_mem ((hsame w).mpr hw)
  ne_empty w hw := h.ne_empty w ((hsame w).mp hw)
  isWord w hw := h.isWord w ((hsame w).mp hw)

theorem standsWhole_congr {ws' : List String} (hsame : ∀ w, w ∈ ws' ↔ w ∈ ws) :
    StandsWhole ws' text s e ↔ StandsWhole ws text s e :=
  ⟨fun h => ⟨h.run, (hsame _).mp h.mem, h.behind, h.ahead⟩,
    fun h => ⟨h.run, (hsame _).mpr h.mem, h.behind, h.ahead⟩⟩

/-- **Words are found as whole words.**  With the guard written into the expression they always
compile, and with the guard checked outside exactly if their expression is within the limit on the
size, whatever that is.  Then the leftmost of them that stands whole is found, as long as the search
is not given up; and so it does not matter how the same words are listed. -/
theorem words_find_whole_words (limit : Regex.SizeLimit) (h : AreWords ws) :
    ((PatternDecl.words ws).compile? .native limit).isSome = true ∧
    (((PatternDecl.words ws).compile? .emulated limit).isSome = true ↔
      limit.size (wholeWords (ws.map (·.toList))) ≤ limit.most) ∧
    ∀ lookbehind pattern text, (PatternDecl.words ws).compile? lookbehind limit = some pattern →
      pattern.KeepsRetries text →
      (∀ pos s e, pattern.find text pos = some ⟨s, e⟩ ↔ pos ≤ s ∧ StandsWhole ws text s e ∧
        ∀ p, pos ≤ p → p < s → ∀ e', ¬ StandsWhole ws text p e') ∧
      (∀ pos, pattern.find text pos = none ↔ ∀ p e, pos ≤ p → ¬ StandsWhole ws text p e) ∧
      ∀ ws' lookbehind' pattern', (∀ w, w ∈ ws' ↔ w ∈ ws) →
        (PatternDecl.words ws').compile? lookbehind' limit = some pattern' →
        pattern'.KeepsRetries text →
        ∀ pos, pattern'.find text pos = pattern.find text pos := by
  refine ⟨?_, ?_, fun lookbehind pattern text hpattern hretries => ?_⟩
  · rw [PatternDecl.compile?_words_native limit h]
    rfl
  · rw [PatternDecl.compile?_words_emulated limit h, Option.isSome_ite,
      Regex.SizeLimit.accepts_iff]
  have hsome := find_words_eq_some_iff h hpattern hretries
  refine ⟨hsome, fun pos => ?_, fun ws' lookbehind' pattern' hsame hpattern' hretries' pos => ?_⟩
  · simp only [find_words h hpattern hretries, GuardedRegex.find_checking_eq_none_iff,
      accepts_words_iff h]
  · refine Option.ext fun ⟨s, e⟩ => ?_
    rw [hsome, find_words_eq_some_iff (h.congr hsame) hpattern' hretries']
    simp only [standsWhole_congr hsame]

/-- A member, a longer word, and a word for itself. -/
def interfaces : Source := .ofString "a.int interfaces interface"

/-- A member and a longer word are passed over, however the words are listed. -/
theorem interface_found_whole :
    ∃ pattern pattern', (PatternDecl.words ["int", "interface"]).compile? .native = some pattern ∧
      (PatternDecl.words ["interface", "int", "int"]).compile? .emulated = some pattern' ∧
      pattern.find interfaces 0 = some ⟨17, 26⟩ ∧ pattern'.find interfaces 0 = some ⟨17, 26⟩ := by
  have h : AreWords ["int", "interface"] := .of_all (by decide)
  have h' : AreWords ["interface", "int", "int"] := .of_all (by decide)
  obtain ⟨-, hemulated, -⟩ := words_find_whole_words .usual h'
  obtain ⟨-, -, hfind⟩ := words_find_whole_words .usual h
  have hnative := PatternDecl.compile?_words_native .usual h
  obtain ⟨pattern', hpattern'⟩ := Option.isSome_iff_exists.mp (hemulated.mpr (by decide +kernel))
  have hretries : (Extended.wholeWordsPlan (["int", "interface"].map (·.toList))).KeepsRetries
      interfaces := by
    unfold Extended.Plan.KeepsRetries
    decide +kernel
  have hretries' : pattern'.KeepsRetries interfaces := by
    rw [PatternDecl.compile?_words_emulated .usual h'] at hpattern'
    obtain ⟨-, hpattern'⟩ := Option.ite_none_right_eq_some.mp hpattern'
    rw [← Option.some.inj hpattern']
    trivial
  obtain ⟨hsome, -, hsame⟩ := hfind .native _ interfaces hnative hretries
  have hstands : StandsWhole ["int", "interface"] interfaces 17 26 := by decide +kernel
  have hnone : ∀ p < 17, ∀ e < 27, ¬ StandsWhole ["int", "interface"] interfaces p e := by
    decide +kernel
  have hfound := (hsome 0 17 26).mpr ⟨Nat.zero_le _, hstands, fun p _ hp e hstands =>
    hnone p hp e (Nat.lt_succ_of_le hstands.run.le_size) hstands⟩
  refine ⟨_, pattern', hnative, hpattern', hfound, ?_⟩
  rw [hsame _ .emulated pattern' (by simp [or_comm]) hpattern' hretries', hfound]

/-! ### Searches that are given up -/

/-- Letters with a blank behind each, and then one more letter. -/
def spacedOut (letter last : Char) (count : Nat) : Source :=
  ((List.replicate count [letter, ' ']).flatten ++ [last]).toArray

theorem getElem?_spacedOut {letter last : Char} {count q : Nat} (hq : q < 2 * count) :
    (spacedOut letter last count)[q]? = some (if q % 2 = 0 then letter else ' ') := by
  rw [spacedOut, List.getElem?_toArray]
  induction count generalizing q with
  | zero => omega
  | succ count ih =>
    rw [List.replicate_succ, List.flatten_cons, List.append_assoc]
    match q with
    | 0 | 1 => rfl
    | q + 2 =>
      rw [Nat.add_mod_right]
      exact ih (by omega)

theorem size_spacedOut (letter last : Char) (count : Nat) :
    (spacedOut letter last count).size = 2 * count + 1 := by
  simp [spacedOut, Nat.mul_comm]

/-- **A search for words takes a retry for each of them**, and one more, where the edge of a word is
but none of them begins. -/
theorem spends_wholeWords {ws : List (List Char)} {goal : Extended.Goal} {c : Extended.Cursor}
    {since n : Nat} (hws : ws ≠ []) (hbefore : text.before? c.pos ≠ some '.')
    (hedge : Regex.edge.holds text c.pos = true)
    (hfirst : ∀ w ∈ ws, ∃ ch cs, w = ch :: cs ∧ text[c.pos]? ≠ some ch) :
    ((Extended.wholeWordsPlan ws).follow text since goal c n).Spends n ws.length := by
  have hguard : (Extended.wholeWordsPlan ws).LooksBehind '.'
      (.seq (.anchor Regex.edge) (.seq (.words ws) (.anchor Regex.edge))) := .front _
  rw [hguard.follow_eq, if_neg hbefore]
  have hrest : ∀ m, ((Extended.Plan.seq (.anchor Regex.edge)
      (.seq (.words ws) (.anchor Regex.edge))).follow text since goal c m).Spends m
        (ws.length - 1) := by
    intro m
    rw [Extended.Plan.follow, Extended.Plan.follow, if_pos hedge, Extended.Plan.follow]
    exact Extended.Plan.spends_words hws hfirst m
  have hboth := (Extended.Outcome.spends_failed n).orElse hrest
  rwa [Nat.zero_add, Nat.add_sub_cancel' (List.length_pos_iff.mpr hws)] at hboth

section SpacedOut

variable {letter last : Char} {count q : Nat} (hletter : CharClass.isWord letter = true)
include hletter

theorem holds_edge_spacedOut (hq : q < 2 * count) :
    Regex.edge.holds (spacedOut letter last count) q = true := by
  have hblank : CharClass.isWord ' ' = false := by decide
  have hat : ((spacedOut letter last count)[q]?).any CharClass.isWord = decide (q % 2 = 0) := by
    rw [getElem?_spacedOut hq]
    by_cases heven : q % 2 = 0 <;> simp [heven, hletter, hblank]
  rw [Regex.holds_edge_iff, hat]
  cases q with
  | zero => exact Bool.false_ne_true
  | succ q =>
    rw [Source.before?, getElem?_spacedOut (Nat.lt_of_succ_lt hq)]
    rcases Nat.mod_two_eq_zero_or_one q with heven | hodd
    · simp [heven, hletter, Nat.add_mod]
    · simp [hodd, hblank, Nat.add_mod]

theorem before?_spacedOut_ne (hq : q ≤ 2 * count) :
    (spacedOut letter last count).before? q ≠ some '.' := by
  have hdot : CharClass.isWord '.' = false := by decide
  cases q with
  | zero => exact nofun
  | succ q =>
    rw [Source.before?, getElem?_spacedOut hq]
    intro heq
    split at heq
    · rw [Option.some.inj heq, hdot] at hletter
      cases hletter
    · cases heq

/-- The word at the end stands whole. -/
theorem standsWhole_spacedOut (hlast : CharClass.isWord last = true)
    (hmem : String.ofList [last] ∈ ws) :
    StandsWhole ws (spacedOut letter last count) (2 * count) (2 * count + 1) := by
  have hat : (spacedOut letter last count)[2 * count]? = some last := by
    rw [spacedOut, List.getElem?_toArray, List.getElem?_append_right (by simp [Nat.mul_comm])]
    simp [Nat.mul_comm]
  have hsize := size_spacedOut letter last count
  have hend : (spacedOut letter last count)[2 * count + 1]? = none :=
    Array.getElem?_eq_none (Nat.le_of_eq hsize)
  have hchars : Source.chars (spacedOut letter last count) ⟨2 * count, 2 * count + 1⟩ = [last] :=
    Source.chars_single hat
  refine ⟨⟨Nat.lt_succ_self _, Nat.le_of_eq hsize.symm, ?_, ?_, ?_⟩, ?_, ?_, ?_⟩
  · rw [hchars]
    exact fun c hc => List.mem_singleton.mp hc ▸ hlast
  · cases count with
    | zero => rfl
    | succ count =>
      show ((spacedOut letter last (count + 1))[2 * count + 1]?).any CharClass.isWord = false
      rw [getElem?_spacedOut (by omega), if_neg (by omega)]
      decide
  · rw [hend]
    rfl
  · rw [hchars]
    exact hmem
  · exact before?_spacedOut_ne hletter (Nat.le_refl _)
  · rw [hend]
    exact nofun

/-- **Many words at many places**: if none of them begins with the letter, the search is given
up. -/
theorem find_words_spacedOut (h : AreWords ws) (hother : ∀ w ∈ ws, w.toList.head? ≠ some letter)
    (hmany : Extended.Plan.retries < 2 * count * (ws.length + 1)) :
    ((PatternDecl.words ws).compile? .native).map (·.find (spacedOut letter last count) 0) =
      some none := by
  have hspends : ∀ q, 0 ≤ q → q < 0 + 2 * count → ∀ n,
      ((Extended.wholeWordsPlan (ws.map (·.toList))).follow (spacedOut letter last count) 0
        Extended.reached (.ofPos q) n).Spends n ws.length := by
    intro q _ hq n
    rw [Nat.zero_add] at hq
    have hfirst : ∀ w ∈ ws.map (·.toList), ∃ c cs, w = c :: cs ∧
        (spacedOut letter last count)[q]? ≠ some c := by
      intro w hw
      obtain ⟨c, cs, rfl⟩ := List.exists_cons_of_ne_nil (h.ne_nil_of_mem w hw)
      refine ⟨c, cs, rfl, fun hat => ?_⟩
      obtain ⟨v, hv, hvw⟩ := List.mem_map.mp hw
      rw [getElem?_spacedOut hq] at hat
      split at hat
      · exact hother v hv (by rw [hvw]; exact hat.symm)
      · have hword := h.isWord v hv c (by rw [hvw]; exact List.mem_cons_self)
        rw [← Option.some.inj hat] at hword
        exact absurd hword (by decide)
    rw [← List.length_map (·.toList)]
    exact spends_wholeWords h.map_ne_nil (before?_spacedOut_ne hletter (Nat.le_of_lt hq))
      (holds_edge_spacedOut hletter hq) hfirst
  have hplaces : 0 + 2 * count ≤ (spacedOut letter last count).size + 1 := by
    rw [size_spacedOut]
    omega
  have hnone := Extended.Plan.find_eq_none_of_spends hplaces hspends hmany
  have hsift : ∀ fuel accept, Search.sift
      ((Extended.wholeWordsPlan (ws.map (·.toList))).find (spacedOut letter last count) ·) accept
        fuel 0 = none := by
    intro fuel accept
    cases fuel with
    | zero => rfl
    | succ fuel =>
      rw [Search.sift, hnone]
  rw [PatternDecl.compile?_words_native .usual h, Option.map_some]
  exact congrArg some (hsift _ _)

end SpacedOut

/-- Where a word is missed: with many words to try at many places, the search is given up before it
comes to the one that stands whole. -/
theorem words_missed :
    AreWords (List.replicate 1200 "b") ∧
    StandsWhole (List.replicate 1200 "b") (spacedOut 'a' 'b' 600) 1200 1201 ∧
    ((PatternDecl.words (List.replicate 1200 "b")).compile? .native).map
      (·.find (spacedOut 'a' 'b' 600) 0) = some none := by
  have hmem : ∀ w ∈ List.replicate 1200 "b", w = "b" := fun w hw => List.eq_of_mem_replicate hw
  have hwords : AreWords (List.replicate 1200 "b") := by
    refine ⟨List.ne_nil_of_length_eq_add_one (List.length_replicate (n := 1199 + 1)),
      fun w hw => ?_, fun w hw c hc => ?_⟩
    · rw [hmem w hw]
      decide
    · rw [hmem w hw] at hc
      rw [List.mem_singleton.mp hc]
      decide
  refine ⟨hwords, ?_, ?_⟩
  · have hlast : StandsWhole (List.replicate 1200 "b") (spacedOut 'a' 'b' 600) (2 * 600)
        (2 * 600 + 1) :=
      standsWhole_spacedOut (by decide) (by decide) (List.mem_replicate.mpr ⟨by decide, rfl⟩)
    exact hlast
  · refine find_words_spacedOut (by decide) hwords (fun w hw => ?_) ?_
    · rw [hmem w hw]
      decide
    · rw [List.length_replicate]
      decide

end Highlighting
