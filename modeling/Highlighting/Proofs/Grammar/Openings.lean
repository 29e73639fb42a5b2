/-
  Highlighting/Proofs/Grammar/Openings.lean
  =========================================
  **What opens first.**

  Of the modes that are looked for at a place, the first in their list whose
  opening starts there is the one that opens.  Which one that is on a given text
  can be worked out from the declarations (`Builder.firstOpening?`), without the
  grammar; and it is the same on every text that begins so, where no opening gets
  over the last character (`Builder.opening?_append`).
-/
import Highlighting.Proofs.Pattern.Seam
import Highlighting.Proofs.Grammar.Lines
import Highlighting.Proofs.Scan.Path

namespace Highlighting

open Search

namespace Builder

variable {b : Builder} {language : LanguageDecl} {g : Grammar} {u v w : Source} {c : Char}
  {options : Scan.Options} {ks : List Nat} {k p q stop : Nat}

/-- Where the opening of a mode ends that starts at a position, if it does. -/
def opening? (b : Builder) (text : Source) (q k : Nat) : Option Nat :=
  ((b.modes[k]?.join.bind (·.opener)).bind (·.compile? b.lookbehind)).bind fun p =>
    (endAt? (p.find text ·) q).filter (q < ·)

/-- The first mode of a list that opens at a position, with the end of its opening. -/
def firstOpening? (b : Builder) (text : Source) (q : Nat) (ks : List Nat) : Option (Nat × Nat) :=
  ks.findSome? fun k => (b.opening? text q k).map (k, ·)

theorem exists_opener (hg : g.Realizes b language) (hk : k < g.modes.size) :
    ∃ pattern, g.terminals[(g.mode k).opener]? = some ⟨pattern, false⟩ ∧
      ∀ text q, b.opening? text q k = (endAt? (pattern.find text ·) q).filter (q < ·) := by
  obtain ⟨m, hslot, hm⟩ := hg.mode k hk
  obtain ⟨decl, hdecl, pattern, hcompile, hterminal⟩ := hm.opener
  refine ⟨pattern, hterminal, fun text q => ?_⟩
  rw [opening?, hslot, Option.join_some, Option.bind_some, hdecl, Option.bind_some, hcompile,
    Option.bind_some]

/-- **The openings that count are those of the declarations.** -/
theorem admittedEnd?_opener (hg : g.Realizes b language) (hk : k < g.modes.size) :
    Scan.admittedEnd? (Scan.task g w options) [] (g.mode k).opener q = b.opening? w q k := by
  obtain ⟨pattern, hterminal, hopening⟩ := exists_opener hg hk
  apply Option.ext
  intro stop
  rw [hopening, Scan.admittedEnd?_eq_some_iff, Option.filter_eq_some_iff]
  show (∃ t, g.terminals[(g.mode k).opener]? = some t ∧ _) ↔ _
  rw [hterminal]
  simp only [Option.some.injEq, exists_eq_left', Scan.admits, Span.isEmpty]
  refine and_congr_right fun _ => ?_
  simp

/-- **No opening gets over the character that all patterns stop at.** -/
theorem opening?_append (hg : g.Realizes b language) (hk : k < g.modes.size) (hend : u.EndsWith c)
    (hstops : ∀ t ∈ g.terminals, t.pattern.stopsAt c = true) (hq : q < u.size) :
    b.opening? (u ++ v) q k = b.opening? u q k := by
  obtain ⟨pattern, hterminal, hopening⟩ := exists_opener hg hk
  rw [hopening, hopening,
    Pattern.endAt?_append hend (hstops _ (Array.mem_of_getElem? hterminal)) hq]

theorem firstOpening?_append (hg : g.Realizes b language) (hks : ∀ k ∈ ks, k < g.modes.size)
    (hend : u.EndsWith c) (hstops : ∀ t ∈ g.terminals, t.pattern.stopsAt c = true)
    (hq : q < u.size) : b.firstOpening? (u ++ v) q ks = b.firstOpening? u q ks := by
  rw [firstOpening?, firstOpening?]
  induction ks with
  | nil => rfl
  | cons k ks ih =>
    rw [List.findSome?_cons, List.findSome?_cons, ih fun j hj => hks j (List.mem_cons_of_mem _ hj),
      opening?_append hg (hks k List.mem_cons_self) hend hstops hq]

/-- **The first mode that opens comes next**, when nothing opens in front of it. -/
theorem next?_of_firstOpening (hsound : (Scan.task g w options).IsSound)
    (hg : g.Realizes b language) (modes : List Nat)
    (hks : (Scan.contentOf g modes).contains = ks) (hpq : p ≤ q)
    (hquiet : ∀ r, p ≤ r → r < q → b.firstOpening? w r ks = none)
    (hlimits : p < q → Scan.limits (Scan.task g w options) modes = [])
    (hfirst : b.firstOpening? w q ks = some (k, stop)) :
    Scan.Place.next? (Scan.task g w options) [] ⟨p, modes⟩ = some ⟨⟨q, stop⟩, .opens k⟩ := by
  have hsize : ∀ j ∈ ks, j < g.modes.size := by
    intro j hj
    rw [← hks] at hj
    exact (Scan.contentOf_inOrder hsound.inOrder modes).contains j hj
  have hopenings : Scan.openings g modes = ks.map fun m => ((g.mode m).opener, .opens m) := by
    rw [Scan.openings, hks]
  have hcandidates : Scan.candidates (Scan.task g w options) modes =
      (ks.map fun m => ((g.mode m).opener, Scan.Candidate.opens m)) ++
        Scan.limits (Scan.task g w options) modes := by
    rw [← hopenings]
    rfl
  have hnone : ∀ {r j m : Nat}, ks[j]? = some m → b.firstOpening? w r ks = none →
      Scan.admittedEnd? (Scan.task g w options) [] (g.mode m).opener r = none := by
    intro r j m hm hr
    have hmem := List.mem_of_getElem? hm
    rw [admittedEnd?_opener hg (hsize m hmem)]
    exact Option.map_eq_none_iff.mp (List.findSome?_eq_none_iff.mp hr m hmem)
  obtain ⟨before, m, after, hsplit, hm, hbefore⟩ := List.findSome?_eq_some_iff.mp hfirst
  obtain ⟨stop', hstop, hpair⟩ := Option.map_eq_some_iff.mp hm
  obtain ⟨rfl, rfl⟩ := Prod.mk.inj hpair
  have hhere : ks[before.length]? = some m := by
    rw [hsplit]
    simp
  refine (Scan.Place.next?_eq_some_iff hsound).mpr
    ⟨before.length, (g.mode m).opener, ?_, hpq, ?_, ?_⟩
  · rw [hcandidates, List.getElem?_append_left (by rw [hsplit]; simp), List.getElem?_map, hhere]
    rfl
  · rw [admittedEnd?_opener hg (hsize m (List.mem_of_getElem? hhere))]
    exact hstop
  · intro j d r stop hj hr hend
    by_cases hlt : q < r
    · exact .inl hlt
    rw [hcandidates] at hj
    rcases Nat.lt_or_ge j ks.length with hopens | hlimit
    · rw [List.getElem?_append_left (by simpa using hopens), List.getElem?_map] at hj
      obtain ⟨m', hm', rfl⟩ := Option.map_eq_some_iff.mp hj
      rcases Nat.lt_or_ge r q with hbehind | hge
      · rw [hnone hm' (hquiet r hr hbehind)] at hend
        cases hend
      · obtain rfl : r = q := by omega
        refine .inr ⟨rfl, Nat.le_of_not_lt fun hearlier => ?_⟩
        -- what is ahead in the list does not open here
        have hmem' : m' ∈ before := by
          rw [hsplit, List.getElem?_append_left hearlier] at hm'
          exact List.mem_of_getElem? hm'
        have hopening := Option.map_eq_none_iff.mp (hbefore m' hmem')
        rw [admittedEnd?_opener hg (hsize m' (List.mem_of_getElem? hm')), hopening] at hend
        cases hend
    · rcases Nat.lt_or_ge r q with hbehind | hge
      · rw [List.getElem?_append_right (by simpa using hlimit),
          hlimits (Nat.lt_of_le_of_lt hr hbehind)] at hj
        cases hj
      · refine .inr ⟨by show q = r; omega, Nat.le_trans ?_ hlimit⟩
        rw [hsplit]
        simp

end Builder

end Highlighting
