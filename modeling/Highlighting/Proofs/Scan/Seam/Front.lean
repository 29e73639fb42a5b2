/-
  Highlighting/Proofs/Scan/Seam/Front.lean
  ========================================
  **A scan up to a seam**: how it goes on a text that goes on behind a line feed.

  With a grammar that keeps lines apart, the scan of `u ++ v` does in front of
  the seam what the scan of `u` does, as long as it leaves the seam with no
  region open (`Seam.runs_front`).  For up to there both find the same matches;
  only an opening that runs on over line feeds could end elsewhere, and it leaves
  a region open that nothing ends any more.

  What has to be kept in view for that is collected in `Core.Front`: the only
  region that may end without a character does so with its line.
-/
import Highlighting.Proofs.Grammar.Lines
import Highlighting.Proofs.Scan.Seam.Basic

namespace Highlighting.Scan

open Search
open Regex (Near)

/-- The match opens a region that something has to end which takes a character. -/
def Found.OpensSolidly (g : Grammar) (f : Found) : Prop :=
  ∃ m, f.candidate = .opens m ∧ (g.mode m).ending ≠ .immediate ∧ (g.mode m).EndsSolidly g

namespace Seam

/-- The seam is behind a line feed, and the grammar keeps lines apart. -/
structure AtLine (s : Seam) : Prop where
  line : s.front.EndsWith '\n'
  keeps : s.grammar.KeepsLines

variable {s : Seam} {barred : List Bar} {modes : List Nat} {index p m : Nat} {candidate : Candidate}
  {c d : Core} {f : Found} (hs : s.AtLine)
include hs

/-! ### Matches in front of the seam -/

theorem near_admittedEnd? (hp : p < s.size) (h : s.grammar.Passes (Pattern.runsOn '\n') index) :
    Near s.size (admittedEnd? s.frontTask barred index p)
      (admittedEnd? s.wholeTask barred index p) := by
  have hgrammar : s.frontTask.grammar = s.grammar := rfl
  have hgrammar' : s.wholeTask.grammar = s.grammar := rfl
  rw [admittedEnd?, admittedEnd?, hgrammar, hgrammar']
  cases ht : s.grammar.terminals[index]? with
  | none => exact .none
  | some t =>
    have hnear : Near s.size (endAt? (t.pattern.find s.front ·) p)
        (endAt? (t.pattern.find (s.front ++ s.rest) ·) p) :=
      Pattern.near_endAt? hs.line (h t ht) hp
    have hlt : ∀ text : Source, ∀ e, endAt? (t.pattern.find text ·) p = some e → p < e :=
      fun _ _ => Pattern.lt_of_runsOn (h t ht)
    have hfront := hlt s.front
    have hwhole := hlt (s.front ++ s.rest)
    show Near s.size (siftedEnd? (t.pattern.find s.front ·) _ p)
      (siftedEnd? (t.pattern.find (s.front ++ s.rest) ·) _ p)
    rw [siftedEnd?, siftedEnd?]
    generalize endAt? (t.pattern.find s.front ·) p = x at hnear hfront
    generalize endAt? (t.pattern.find (s.front ++ s.rest) ·) p = y at hnear hwhole
    cases hnear with
    | none => exact .none
    | @some e e' hsame =>
      -- both take a character, so that they count alike
      have hempty : ∀ e, p < e → Span.isEmpty ⟨p, e⟩ = false :=
        fun e he => decide_eq_false (Nat.not_le_of_lt he)
      simp only [Option.bind_some, Option.guard, admits, hempty e (hfront e rfl),
        hempty e' (hwhole e' rfl)]
      split
      · exact .some hsame
      · exact .none

/-- What may come next in front of the seam ends where it ends without the text behind, unless it
opens a region and runs on over line feeds. -/
theorem passes_of_mem_candidates (hmodes : ∀ m ∈ modes, m < s.grammar.modes.size)
    (hmem : (index, candidate) ∈ candidates s.frontTask modes) :
    s.grammar.Passes (Pattern.stopsAt '\n') index ∨
      s.grammar.Passes (Pattern.runsOn '\n') index ∧ ∃ m, candidate = .opens m ∧
        (s.grammar.mode m).ending ≠ .immediate ∧
        (s.grammar.mode m).EndsSolidly s.grammar := by
  cases candidate with
  | opens m =>
    obtain ⟨hm, rfl⟩ := mem_candidates_opens.mp hmem
    have hlt : m < s.grammar.modes.size := (contentOf_inOrder s.inOrder modes).contains m hm
    rcases (hs.keeps.mode m hlt).opener with hcloses | ⟨hruns, hending, hsolid⟩
    · exact .inl hcloses
    · exact .inr ⟨hruns, m, rfl, hending, hsolid⟩
  | closes depth =>
    obtain ⟨-, m, hm, hending⟩ := closer?_eq_some (mem_candidates_closes.mp hmem)
    exact .inl ((hs.keeps.mode m (hmodes m (List.mem_of_getElem? hm))).ending index hending)
  | illegal =>
    have hillegal := (mem_candidates_illegal.mp hmem).2
    cases modes with
    | nil => exact .inl (hs.keeps.illegal index hillegal)
    | cons m outer =>
      exact .inl ((hs.keeps.mode m (hmodes m List.mem_cons_self)).illegal index hillegal)

theorem near_of_mem_candidates (hmodes : ∀ m ∈ modes, m < s.grammar.modes.size)
    (hmem : (index, candidate) ∈ candidates s.frontTask modes) (hp : p < s.size) :
    Near s.size (admittedEnd? s.frontTask barred index p)
      (admittedEnd? s.wholeTask barred index p) := by
  rcases passes_of_mem_candidates hs hmodes hmem with hcloses | ⟨hruns, -⟩
  · rw [admittedEnd?_append hs.line hp hcloses]
    exact .refl _ _
  · exact near_admittedEnd? hs hp hruns

/-- **In front of the seam the same comes next**; only an opening that reaches the seam may end
elsewhere. -/
theorem next?_front (hmodes : ∀ m ∈ modes, m < s.grammar.modes.size)
    (h : Place.next? s.frontTask barred ⟨p, modes⟩ = some f) (hlt : f.span.start < s.size) :
    Place.next? s.wholeTask barred ⟨p, modes⟩ = some f ∨
      f.span.stop = s.size ∧ f.OpensSolidly s.grammar := by
  obtain ⟨i, index, hi, hpos, hend, hleast⟩ := (Place.next?_eq_some_iff s.frontSound).mp h
  have hmem := List.mem_of_getElem? hi
  have hleast' : ∀ (j : Nat) e q stop, (candidates s.wholeTask modes)[j]? = some e → p ≤ q →
      admittedEnd? s.wholeTask barred e.1 q = some stop →
      f.span.start < q ∨ f.span.start = q ∧ i ≤ j := by
    intro j e q stop hj hq hstop
    rcases Nat.lt_or_ge q s.size with hlt | hge
    · have hnear : Near s.size (admittedEnd? s.frontTask barred e.1 q)
          (admittedEnd? s.wholeTask barred e.1 q) :=
        near_of_mem_candidates hs hmodes (List.mem_of_getElem? hj) hlt
      rw [hstop] at hnear
      cases hfront : admittedEnd? s.frontTask barred e.1 q with
      | none =>
        rw [hfront] at hnear
        cases hnear
      | some stop' => exact hleast j e q stop' hj hq hfront
    · exact .inl (Nat.lt_of_lt_of_le hlt hge)
  have hnext : ∀ stop, admittedEnd? s.wholeTask barred index f.span.start = some stop →
      stop = f.span.stop → Place.next? s.wholeTask barred ⟨p, modes⟩ = some f := by
    rintro stop hstop rfl
    exact (Place.next?_eq_some_iff s.wholeSound).mpr ⟨i, index, hi, hpos, hstop, hleast'⟩
  rcases passes_of_mem_candidates hs hmodes hmem with hcloses | ⟨hruns, hopens⟩
  · left
    exact hnext _ ((admittedEnd?_append hs.line hlt hcloses).trans hend) rfl
  · have hnear : Near s.size (admittedEnd? s.frontTask barred index f.span.start)
        (admittedEnd? s.wholeTask barred index f.span.start) := near_admittedEnd? hs hlt hruns
    rw [hend] at hnear
    generalize hy : admittedEnd? s.wholeTask barred index f.span.start = y at hnear
    cases hnear with
    | @some _ e' hsame =>
      have hle : f.span.stop ≤ s.size := (Place.next?_within s.frontSound h).2.2
      rcases Nat.lt_or_eq_of_le hle with hstop | hstop
      · exact .inl (hnext e' hy (hsame hstop))
      · exact .inr ⟨hstop, hopens⟩

/-- Where nothing comes next in the front part, nothing starts up to the seam. -/
theorem quiet_front (hmodes : ∀ m ∈ modes, m < s.grammar.modes.size)
    (h : Place.next? s.frontTask barred ⟨p, modes⟩ = none) :
    Quiet s.wholeTask barred modes p s.size := by
  intro e he q hpq hq
  have hfront := (Place.next?_eq_none_iff s.frontSound).mp h e he q hpq
  have hnear : Near s.size (admittedEnd? s.frontTask barred e.1 q)
      (admittedEnd? s.wholeTask barred e.1 q) := near_of_mem_candidates hs hmodes he hq
  rw [hfront] at hnear
  generalize admittedEnd? s.wholeTask barred e.1 q = y at hnear
  cases hnear
  rfl

end Seam

/-! ### Cores in front of the seam -/

/-- The regions are open in front of the seam, and the only one that may end without a character
is the innermost, in a line that has not ended. -/
structure Core.Front (s : Seam) (c : Core) : Prop where
  atLine : s.AtLine
  pos_le : c.pos ≤ s.size
  entries : ∀ e ∈ c.entries, e.mode < s.grammar.modes.size ∧ e.start < s.size ∧
    Declares s.grammar.terminals false e.opener
  barred : ∀ b ∈ c.barred, b.2 < s.size ∧ Declares s.grammar.terminals false b.1
  outer : ∀ e ∈ c.entries.tail, (s.grammar.mode e.mode).EndsSolidly s.grammar
  inner : ∀ e ∈ c.entries.head?, (s.grammar.mode e.mode).EndsSolidly s.grammar ∨
    c.pos < s.size ∧ ∃ t, (s.grammar.mode e.mode).ending = .pattern t ∧
      (s.grammar.mode e.mode).EndsWithLine s.grammar t

namespace Core.Front

variable {s : Seam} {c : Core} {f : Found}

theorem start (hs : s.AtLine) : (State.start s.grammar).core.Front s := by
  refine ⟨hs, Nat.zero_le _, ?_, ?_, ?_, ?_⟩
  · intro e he
    cases he
  · intro b hb
    cases hb
  · intro e he
    cases he
  · intro e he
    cases he

theorem modes_lt (h : c.Front s) : ∀ m ∈ c.modes, m < s.grammar.modes.size := by
  intro m hm
  obtain ⟨e, he, rfl⟩ := List.mem_map.mp hm
  exact (h.entries e he).1

/-- In a line that has not ended, its end comes next at the latest. -/
theorem admittedEnd?_lineEnd (h : c.Front s) {t m : Nat}
    (hending : (s.grammar.mode m).ending = .pattern t)
    (hline : (s.grammar.mode m).EndsWithLine s.grammar t) :
    admittedEnd? s.frontTask c.barred t (s.size - 1) = some (s.size - 1) := by
  obtain ⟨terminal, hterminal, hempty⟩ := s.inOrder.ending hending
  refine admittedEnd?_eq_some_iff.mpr ⟨terminal, hterminal, ?_, ?_⟩
  · have hpattern : terminal.pattern = Pattern.lineEnd :=
      eq_of_beq (hline.lineEnd terminal hterminal)
    rw [hpattern]
    exact Pattern.endAt?_lineEnd h.atLine.line
  · have hfree : (t, s.size - 1) ∉ c.barred := by
      intro hmem
      exact not_declares_both ⟨terminal, hterminal, hempty⟩ (h.barred _ hmem).2
    rw [admits, hempty, Bool.or_true, Bool.true_and, Bool.not_eq_true']
    simpa using hfree

/-- **What comes next starts in front of the seam.** -/
theorem start_lt (h : c.Front s) (hnext : c.next? s.frontTask = some f) :
    f.span.start < s.size := by
  by_contra hge
  obtain ⟨hpos, hle, hsize⟩ := Place.next?_within s.frontSound hnext
  have hsize' : f.span.stop ≤ s.size := hsize
  have hend : f.candidate.isEnd = true := by
    by_contra hend
    have hlt := Place.lt_of_next? s.frontSound hnext (Bool.eq_false_iff.mpr hend)
    omega
  obtain ⟨depth, hf⟩ : ∃ depth, f.candidate = .closes depth := by
    cases hf : f.candidate with
    | closes depth => exact ⟨depth, rfl⟩
    | opens m =>
      rw [hf] at hend
      cases hend
    | illegal =>
      rw [hf] at hend
      cases hend
  obtain ⟨i, index, hi, -, hadmitted, hleast⟩ := (Place.next?_eq_some_iff s.frontSound).mp hnext
  have hmem := List.mem_of_getElem? hi
  rw [hf] at hmem
  obtain ⟨-, m, hm, hending⟩ : 0 ≤ depth ∧ ∃ m, c.modes[depth]? = some m ∧
      (s.grammar.mode m).ending = .pattern index := closer?_eq_some (mem_candidates_closes.mp hmem)
  -- a region that has to end with a character cannot end there
  have hsolid : ¬ (s.grammar.mode m).EndsSolidly s.grammar := by
    intro hsolid
    obtain ⟨t, ht, hmatch, -⟩ := admittedEnd?_eq_some_iff.mp hadmitted
    have hlt := Pattern.lt_of_isSolid (hsolid index hending t ht) hmatch
    omega
  rw [Core.modes, List.getElem?_map, Option.map_eq_some_iff] at hm
  obtain ⟨e, he, rfl⟩ := hm
  cases depth with
  | succ depth =>
    apply hsolid
    apply h.outer e
    rw [← List.drop_one]
    exact List.mem_of_getElem? (List.getElem?_drop ▸ (Nat.add_comm 1 depth).symm ▸ he)
  | zero =>
    rw [← List.head?_eq_getElem?] at he
    rcases h.inner e he with hinner | ⟨hlt, t, ht, hline⟩
    · exact hsolid hinner
    · obtain rfl : t = index := by
        rw [ht] at hending
        exact Ending.pattern.inj hending
      have hlast := h.admittedEnd?_lineEnd ht hline
      have hbefore := hleast i _ (s.size - 1) (s.size - 1) hi (by show c.pos ≤ _; omega) hlast
      omega

/-- A mode that is whole in a line stays within it. -/
theorem whole_lt (h : c.Front s) (hnext : c.next? s.frontTask = some f)
    (hstart : f.span.start < s.size) {m : Nat}
    (hf : f.candidate = .opens m)
    (hopener : s.grammar.Passes (Pattern.spares '\n') (s.grammar.mode m).opener) :
    f.span.stop < s.size := by
  obtain ⟨i, index, hi, -, hend, -⟩ := (Place.next?_eq_some_iff s.frontSound).mp hnext
  rw [hf] at hi
  obtain ⟨-, rfl⟩ := mem_candidates_opens.mp (List.mem_of_getElem? hi)
  obtain ⟨t, ht, hmatch, -⟩ := admittedEnd?_eq_some_iff.mp hend
  have hpos := h.atLine.line.size_pos
  have hlast := Pattern.le_of_spares h.atLine.line (hopener t ht) (Nat.le_sub_one_of_lt hstart)
    hmatch
  have hle : f.span.stop ≤ s.size - 1 := hlast
  have hsize : 0 < s.size := hpos
  omega

/-- Regions that all have to end with a character. -/
theorem of_solid (hs : s.AtLine) (hpos : c.pos ≤ s.size)
    (hentries : ∀ e ∈ c.entries, e.mode < s.grammar.modes.size ∧ e.start < s.size ∧
      Declares s.grammar.terminals false e.opener)
    (hbarred : ∀ b ∈ c.barred, b.2 < s.size ∧ Declares s.grammar.terminals false b.1)
    (hsolid : ∀ e ∈ c.entries, (s.grammar.mode e.mode).EndsSolidly s.grammar) : c.Front s :=
  ⟨hs, hpos, hentries, hbarred, fun e he => hsolid e (List.mem_of_mem_tail he),
    fun e he => .inl (hsolid e (List.mem_of_mem_head? he))⟩

/-- **What comes next keeps the regions in front of the seam.** -/
theorem take (h : c.Front s) (hnext : c.next? s.frontTask = some f) :
    (c.take s.frontTask f).Front s := by
  have hstart : f.span.start < s.size := h.start_lt hnext
  have hwithin := Place.next?_within s.frontSound hnext
  have hstop : f.span.stop ≤ s.size := hwithin.2.2
  have hfits := Place.fits_next? s.frontSound hnext
  rw [Core.take]
  cases hf : f.candidate with
  | opens m =>
    have hcontains : m ∈ (contentOf s.grammar c.modes).contains := by
      obtain ⟨index, hmem, -⟩ := hfits.admitted
      rw [hf] at hmem
      exact (mem_candidates_opens.mp hmem).1
    have hm : m < s.grammar.modes.size := (contentOf_inOrder s.inOrder c.modes).contains m hcontains
    -- in a region that ends with its line, all that opens is whole and stays within the line
    have hline : ∀ e ∈ c.entries.head?, (s.grammar.mode e.mode).EndsSolidly s.grammar ∨
        (s.grammar.mode m).ending = .immediate ∧ f.span.stop < s.size ∧
          ∃ t, (s.grammar.mode e.mode).ending = .pattern t ∧
            (s.grammar.mode e.mode).EndsWithLine s.grammar t := by
      intro e he
      rcases h.inner e he with hsolid | ⟨-, t, ht, hline⟩
      · exact .inl hsolid
      · obtain ⟨outer, hcons⟩ := List.head?_eq_some_iff.mp he
        rw [Core.modes, hcons] at hcontains
        obtain ⟨hwhole, hopener⟩ := hline.whole m hcontains
        exact .inr ⟨hwhole, h.whole_lt hnext hstart hf hopener, t, ht, hline⟩
    dsimp only
    by_cases hend : (s.grammar.mode m).ending = .immediate
    · have htake : (if (s.frontTask.grammar.mode m).ending = .immediate then
          c.takeWhole s.frontTask (s.frontTask.grammar.mode m) f.span
          else c.openRegion s.frontTask m f.span) =
          c.takeWhole s.frontTask (s.frontTask.grammar.mode m) f.span := if_pos hend
      rw [htake]
      refine ⟨h.atLine, hstop, h.entries, h.barred, h.outer, ?_⟩
      intro e he
      rcases hline e he with hsolid | ⟨-, hlt, hinner⟩
      · exact .inl hsolid
      · exact .inr ⟨hlt, hinner⟩
    · have htake : (if (s.frontTask.grammar.mode m).ending = .immediate then
          c.takeWhole s.frontTask (s.frontTask.grammar.mode m) f.span
          else c.openRegion s.frontTask m f.span) = c.openRegion s.frontTask m f.span := if_neg hend
      rw [htake]
      refine ⟨h.atLine, hstop, ?_, h.barred, ?_, ?_⟩
      · intro e he
        rcases List.mem_cons.mp he with rfl | he
        · exact ⟨hm, hstart, (hfits.opens s.inOrder hf).1⟩
        · exact h.entries e he
      · intro e he
        have he' : e ∈ c.entries := he
        cases hentries : c.entries with
        | nil =>
          rw [hentries] at he'
          cases he'
        | cons e' outer =>
          rw [hentries] at he'
          rcases List.mem_cons.mp he' with rfl | he'
          · rcases hline e (by rw [hentries]; rfl) with hsolid | ⟨hwhole, -⟩
            · exact hsolid
            · exact absurd hwhole hend
          · exact h.outer e (by rw [hentries]; exact he')
      · intro e he
        obtain rfl :
            (⟨m, (s.grammar.mode m).opener, f.span.start, c.draft.checkpoint⟩ : Entry) = e :=
          Option.some.inj he
        rcases (h.atLine.keeps.mode m hm).solid with hsolid | ⟨t, ht, hline⟩
        · exact .inl hsolid
        · exact .inr ⟨h.whole_lt hnext hstart hf hline.opener, t, ht, hline⟩
  | closes depth =>
    have hcount := closedBy_pos (g := s.grammar) (hfits.depth_lt hf)
    have hdrop : ∀ e ∈ c.entries.drop (State.closedBy s.grammar c.modes depth),
        e ∈ c.entries.tail := by
      intro e he
      rw [← List.drop_one]
      exact (List.drop_sublist_drop_left c.entries hcount).subset he
    exact of_solid h.atLine hstop (fun e he => h.entries e (List.mem_of_mem_drop he)) h.barred
      fun e he => h.outer e (hdrop e he)
  | illegal =>
    have hlt : f.span.start < f.span.stop :=
      Place.lt_of_next? s.frontSound hnext (by rw [hf]; rfl)
    dsimp only
    split
    · next hnil =>
      have hpos : (c.passOver s.frontTask f.span).pos ≤ s.size := by
        show Draft.passedAt _ f.span ≤ s.size
        rw [Draft.passedAt_of_lt hlt]
        exact hstop
      exact ⟨h.atLine, hpos, h.entries, h.barred, h.outer, by
        intro e he
        have he' : e ∈ c.entries.head? := he
        rw [hnil] at he'
        cases he'⟩
    · next e outer hcons =>
      have hentry := h.entries
      have houter := h.outer
      rw [hcons] at hentry houter
      obtain ⟨-, hestart, hdeclares⟩ := hentry e List.mem_cons_self
      refine of_solid h.atLine (Nat.le_of_lt hestart)
        (fun e' he' => hentry e' (List.mem_cons_of_mem _ he'))
        ?_ houter
      intro b hb
      rcases List.mem_cons.mp hb with rfl | hb
      · exact ⟨hestart, hdeclares⟩
      · exact h.barred b hb

/-- **A step of the front part is one of the whole text**, or leaves a region open that nothing
ends. -/
theorem step (h : c.Front s) (hnext : c.next? s.frontTask = some f) :
    c.next? s.wholeTask = some f ∧ c.take s.wholeTask f = c.take s.frontTask f ∨
      (c.take s.frontTask f).entries ≠ [] ∧
        (c.take s.frontTask f).next? s.frontTask = none := by
  have hstart := h.start_lt hnext
  have hwithin := Place.next?_within s.frontSound hnext
  rcases Seam.next?_front h.atLine h.modes_lt hnext hstart with hsame | ⟨hstop, m, hf, hend, -⟩
  · left
    refine ⟨hsame, Seam.take_front hwithin.2.1 hwithin.2.2 ?_⟩
    intro hf
    exact Place.lt_of_next? s.frontSound hnext (by rw [hf]; rfl)
  · right
    have htake : c.take s.frontTask f = c.openRegion s.frontTask m f.span := by
      rw [Core.take, hf]
      exact if_neg hend
    constructor
    · rw [htake]
      exact List.cons_ne_nil _ _
    · cases hnone : (c.take s.frontTask f).next? s.frontTask with
      | none => rfl
      | some f' =>
        -- it would have to start in front of the seam
        have hlt := (h.take hnext).start_lt hnone
        have hpos := (Place.next?_within s.frontSound hnone).1
        rw [htake] at hpos
        have hpos' : f.span.stop ≤ f'.span.start := hpos
        omega

end Core.Front

namespace Seam

variable {s : Seam} {c : Core} (hs : s.AtLine)
include hs

/-- **The scan of the whole text does what the scan of the front part does**, when that leaves no
region open. -/
theorem runs_front (h : Runs s.frontTask (State.start s.grammar).core c)
    (hroot : c.entries = []) :
    Runs s.wholeTask (State.start s.grammar).core c ∧ c.Front s := by
  have hstart := Core.Front.start hs
  generalize (State.start s.grammar).core = d at h hstart
  induction h using Relation.ReflTransGen.head_induction_on with
  | refl => exact ⟨.refl, hstart⟩
  | head hstep hrest ih =>
    obtain ⟨f, hnext, rfl⟩ := hstep
    obtain ⟨hruns, hfront⟩ := ih (hstart.take hnext)
    rcases hstart.step hnext with ⟨hsame, htake⟩ | ⟨hne, hstuck⟩
    · exact ⟨Relation.ReflTransGen.head ⟨f, hsame, htake.symm⟩ hruns, hfront⟩
    · -- the scan would end there, with a region open
      rcases hrest.cases_head with heq | ⟨e, ⟨f', hf', -⟩, -⟩
      · rw [heq] at hne
        exact absurd hroot hne
      · rw [hstuck] at hf'
        cases hf'

/-- **A scan that ends its line with no region open comes to the seam.** -/
theorem arrives_front (h : Runs s.frontTask (State.start s.grammar).core c)
    (hend : c.next? s.frontTask = none) (hroot : c.entries = []) : s.Arrives c := by
  obtain ⟨hruns, hfront⟩ := runs_front hs h hroot
  exact ⟨h, hend, hruns, hroot, hfront.pos_le, fun b hb => (hfront.barred b hb).1, by
    have hmodes : c.modes = [] := by rw [Core.modes, hroot, List.map_nil]
    have hnone : Place.next? s.frontTask c.barred ⟨c.pos, c.modes⟩ = none := hend
    rw [hmodes] at hnone
    exact quiet_front hs (List.forall_mem_nil _) hnone⟩

end Seam

end Highlighting.Scan
