/-
  Highlighting/Proofs/Scan/Wards.lean
  ===================================
  **Texts that keep to a ward, as they are recorded.**

  A stretch of the text that is free of the characters which a ward bans may be
  recorded with any keywords (`Draft.Kept.classify`), as long as keywords do not
  ban any themselves.  A match is such a stretch if its pattern spares the
  characters (`Pattern.spares_of_sparesAll`); and one that takes a shield with
  the character behind it may be recorded as a whole.
-/
import Highlighting.Proofs.Pattern.Words
import Highlighting.Proofs.Regex.Names
import Highlighting.Proofs.Scan.Leaves
import Highlighting.Proofs.Tree.Kept

namespace Highlighting

open Search

/-- None of the characters stands in the stretch. -/
def Source.Spares (source : Source) (cs : List Char) (a b : Nat) : Prop :=
  ∀ p, a ≤ p → p < b → ∀ c ∈ cs, source[p]? ≠ some c

namespace Source.Spares

variable {source : Source} {cs : List Char} {a b c : Nat}

theorem of_le (h : b ≤ a) : source.Spares cs a b := by
  intro p h1 h2
  omega

theorem of_eq_nil (h : cs = []) : source.Spares cs a b := by
  intro p _ _ c hc
  rw [h] at hc
  cases hc

theorem trans (h : source.Spares cs a b) (h' : source.Spares cs b c) : source.Spares cs a c := by
  intro p h1 h2
  rcases Nat.lt_or_ge p b with hlt | hge
  · exact h p h1 hlt
  · exact h' p hge h2

theorem mono (h : source.Spares cs a b) {a' b' : Nat} (ha : a ≤ a') (hb : b' ≤ b) :
    source.Spares cs a' b' :=
  fun p h1 h2 => h p (Nat.le_trans ha h1) (Nat.lt_of_lt_of_le h2 hb)

theorem keeps {w : Ward} {scope : Option Scope} (h : source.Spares (w.bannedIn scope) a b) :
    w.Keeps scope (source.slice ⟨a, b⟩).toList := by
  refine Ward.keeps_of_forall fun c hc hmem => ?_
  rw [Source.slice, String.toList_ofList, Source.chars, Array.mem_toList_iff] at hmem
  obtain ⟨i, hi⟩ := Array.getElem?_of_mem hmem
  rw [Array.getElem?_extract] at hi
  split at hi
  · next hlt =>
    have hlt' : i < min b source.size - a := hlt
    exact h (a + i) (Nat.le_add_right a i) (by omega) c hc hi
  · cases hi

end Source.Spares

namespace Pattern

variable {pattern : Pattern} {text : Source} {cs ds : List Char} {p q stop : Nat} {c : Char}

/-- The pattern never takes any of the characters. -/
def sparesAll (cs : List Char) (p : Pattern) : Bool := cs.all fun c => p.spares c

theorem spares_of_sparesAll (h : pattern.sparesAll cs = true)
    (hend : endAt? (pattern.find text ·) p = some stop) : text.Spares cs p stop := by
  intro q hp hlt c hc hq
  have hle := le_of_spares hq (List.all_eq_true.mp h c hc) hp hend
  omega

/-- The pattern takes each of the characters, wherever it stands. -/
def takesEach (cs : List Char) : Pattern → Bool
  | regex (.regular (.listing (.set s))) none [] 0 => cs.all s.contains
  | _ => false

theorem endAt?_of_takesEach (h : pattern.takesEach cs = true) (hc : c ∈ cs)
    (hp : text[p]? = some c) : endAt? (pattern.find text ·) p = some (p + 1) := by
  unfold takesEach at h
  split at h
  · next s =>
    have hcontains := List.all_eq_true.mp h c hc
    refine endAt?_listing_eq_some_iff.mpr ⟨?_, p + 1, ?_, rfl, refuses_none text _⟩
    · exact Nat.le_of_lt (Array.getElem?_eq_some_iff.mp hp).1
    · rw [Regex.firstEnd?, Regex.ends, hp]
      dsimp only
      rw [if_pos hcontains]
      rfl
  · cases h

/-- The pattern takes a shield, which is not banned itself, with the character behind it. -/
def takesPair (shields banned : List Char) : Pattern → Bool
  | regex (.regular (.listing (.seq (.set (.range c c')) (.set _)))) _ _ 0 =>
    c == c' && shields.contains c && !banned.contains c
  | _ => false

theorem exists_shield_of_takesPair (h : pattern.takesPair ds cs = true)
    (hend : endAt? (pattern.find text ·) p = some stop) :
    ∃ d ∈ ds, d ∉ cs ∧ ∃ c, text.chars ⟨p, stop⟩ = [d, c] := by
  unfold takesPair at h
  split at h
  · next d d' s _ _ =>
    simp only [Bool.and_eq_true, beq_iff_eq, Bool.not_eq_true', List.contains_iff_mem] at h
    obtain ⟨⟨rfl, hd⟩, hbanned⟩ := h
    obtain ⟨-, e, he, rfl, -⟩ := endAt?_listing_eq_some_iff.mp hend
    obtain ⟨q, hq, he⟩ := List.mem_flatMap.mp (List.mem_of_head? he)
    obtain ⟨hfirst, rfl⟩ := Regex.mem_ends_set.mp hq
    obtain ⟨hsecond, rfl⟩ := Regex.mem_ends_set.mp he
    obtain ⟨c, hc, hcontains⟩ := (Option.any_eq_true _ _).mp hfirst
    obtain ⟨c', hc', -⟩ := (Option.any_eq_true _ _).mp hsecond
    obtain rfl : c = d := CharSet.contains_single.mp hcontains
    refine ⟨c, hd, by simpa using hbanned, c', ?_⟩
    rw [← Source.chars_append_chars text (Nat.le_succ p) (Nat.le_succ (p + 1)),
      Source.chars_single hc, Source.chars_single hc']
    rfl
  · cases h

end Pattern

namespace Scan

open EventLog (Forest)

variable {w : Ward} {source : Source} {d : Draft} {span : Span}
  {scopes : List Scope} {stop a b : Nat}

/-! ### Drafts -/

namespace Draft

/-- What is recorded keeps to the ward, and these scopes are open, innermost first. -/
structure Kept (w : Ward) (source : Source) (scopes : List Scope) (d : Draft) : Prop where
  kept : (d.forest source).Kept w
  scopes : (d.forest source).scopes.map Prod.fst = scopes

namespace Kept

theorem empty (w : Ward) (source : Source) : Draft.empty.Kept w source [] := by
  refine ⟨⟨.nil, ?_⟩, rfl⟩
  intro s hs
  cases hs

theorem of_forest {e : Draft} (h : d.Kept w source scopes)
    (hforest : e.forest source = d.forest source) : e.Kept w source scopes :=
  ⟨by rw [hforest]; exact h.kept, by rw [hforest]; exact h.scopes⟩

theorem closest_eq (h : d.Kept w source scopes) : (d.forest source).closest = scopes.head? := by
  rw [Forest.closest, ← h.scopes, List.head?_map]

/-- A text that keeps to the ward may be added. -/
theorem addText (h : d.Kept w source scopes) (span : Span)
    (hkeeps : w.Keeps scopes.head? (source.slice span).toList) :
    (d.addText span).Kept w source scopes := by
  rcases Nat.lt_or_ge span.start span.stop with hlt | hge
  · have hforest := forest_addText source d hlt
    refine ⟨?_, ?_⟩
    · rw [hforest]
      refine h.kept.update fun ns hns => ?_
      rw [h.closest_eq] at hns ⊢
      exact hns.joinText hkeeps
    · rw [hforest, Forest.map_fst_update, h.scopes]
  · rw [addText_eq_self d hge]
    exact h

theorem openScope (h : d.Kept w source scopes) (scope : Option Scope) :
    (d.openScope scope).Kept w source (scope.toList ++ scopes) := by
  cases scope with
  | none => exact h
  | some scope =>
    have hforest : (d.openScope (some scope)).forest source =
        { d.forest source with scopes := (scope, []) :: (d.forest source).scopes } :=
      forest_push source d (.opened scope)
    refine ⟨?_, ?_⟩
    · rw [hforest]
      exact h.kept.open scope
    · rw [hforest, List.map_cons, h.scopes]
      rfl

theorem closeScope (scope : Option Scope) (h : d.Kept w source (scope.toList ++ scopes)) :
    (d.closeScope scope).Kept w source scopes := by
  cases scope with
  | none => exact h
  | some scope =>
    have hforest : (d.closeScope (some scope)).forest source = (d.forest source).close :=
      forest_push source d .closed
    refine ⟨?_, ?_⟩
    · rw [hforest]
      exact h.kept.close
    · rw [hforest, Forest.map_fst_close, h.scopes]
      rfl

/-- Without keywords, any stretch may be recorded that keeps to the ward as a whole. -/
theorem classify_none (h : d.Kept w source scopes) (span : Span)
    (hkeeps : w.Keeps scopes.head? (source.slice span).toList) :
    (d.classify source none span).Kept w source scopes := by
  simp only [Draft.classify]
  split
  · exact h
  · exact h.addText span hkeeps

section Words

variable (hwords : ∀ c : KeywordClass, w.banned c.scope = [])
include hwords

theorem addKeyword (h : d.Kept w source scopes) (last : Nat) (span : Span)
    (hkeeps : w.Keeps scopes.head? (source.slice ⟨last, span.start⟩).toList) (c : KeywordClass)
    (word : Word) : (d.addKeyword last span c word).Kept w source scopes := by
  have hword : w.Keeps (some c.scope) (source.slice span).toList := by
    refine Ward.keeps_of_forall fun c' hc' => ?_
    rw [Ward.bannedIn_some, hwords c] at hc'
    cases hc'
  have hopened := (h.addText _ hkeeps).openScope (some c.scope)
  have hclosed := (hopened.addText span hword).closeScope (some c.scope)
  exact hclosed.of_forest rfl

theorem addLexemes {ls : List Span} (table : KeywordTable)
    (hspares : source.Spares (w.bannedIn scopes.head?) a b)
    (hls : ∀ l ∈ ls, l.start ≤ l.stop ∧ a + l.stop ≤ b) {last : Nat} (hlast : a ≤ last)
    (h : d.Kept w source scopes) :
    let r := Draft.addLexemes source table a ls last d
    a ≤ r.1 ∧ r.2.Kept w source scopes := by
  induction ls generalizing last d with
  | nil => exact ⟨hlast, h⟩
  | cons l ls ih =>
    have hrest := fun l' hl' => hls l' (List.mem_cons_of_mem _ hl')
    obtain ⟨hle, hstop⟩ := hls l List.mem_cons_self
    simp only [Draft.addLexemes]
    split
    · exact ih hrest hlast h
    · have hbefore : source.Spares (w.bannedIn scopes.head?) last (a + l.start) :=
        hspares.mono hlast (by omega)
      exact ih hrest (Nat.le_add_right a l.stop)
        (h.addKeyword hwords last ⟨a + l.start, a + l.stop⟩ hbefore.keeps _ _)

/-- **A stretch that is free of banned characters may be recorded.** -/
theorem classify (h : d.Kept w source scopes) (keywords : Option KeywordTable)
    (hspares : source.Spares (w.bannedIn scopes.head?) a b) :
    (d.classify source keywords ⟨a, b⟩).Kept w source scopes := by
  rcases Nat.lt_or_ge a b with hlt | hge
  · cases keywords with
    | none => exact h.classify_none ⟨a, b⟩ hspares.keeps
    | some table =>
      rw [classify_table source table d hlt]
      have hascending := table.lexeme.ascending_findAll (source.extract a b)
      have hls : ∀ l ∈ table.lexeme.findAll (source.extract a b),
          l.start ≤ l.stop ∧ a + l.stop ≤ b := by
        intro l hl
        have hstop := hascending.stop_le hl
        rw [Array.size_extract] at hstop
        exact ⟨hascending.le hl, by omega⟩
      obtain ⟨hle, hkept⟩ := h.addLexemes hwords table hspares hls (Nat.le_refl a)
      exact hkept.addText _ (hspares.mono hle (Nat.le_refl b)).keeps
  · rw [classify_eq_self source keywords d hge]
    exact h

theorem flush (h : d.Kept w source scopes) (keywords : Option KeywordTable)
    (hspares : source.Spares (w.bannedIn scopes.head?) d.bufferStart stop) :
    (d.flush source keywords stop).Kept w source scopes :=
  (h.of_forest (e := { d with bufferStart := stop }) rfl).classify hwords keywords hspares

end Words

/-- When no scope is open, the nodes are those at the top. -/
theorem nodes_eq (h : d.Kept w source []) :
    d.events.nodes source = (d.forest source).top.reverse := by
  have hnil : (d.forest source).scopes = [] := List.map_eq_nil_iff.mp h.scopes
  show ((d.forest source).closeMany (d.forest source).scopes.length).top.reverse = _
  rw [hnil]
  rfl

end Kept

end Draft

end Scan

end Highlighting
