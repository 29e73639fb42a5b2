/-
  Highlighting/Proofs/Scan/Path.lean
  ==================================
  **Paths**: stretches of a scan in which nothing is taken back.

  A path goes from place to place by the matches that come next, as long as
  these take no region back, and ends anywhere in the quiet stretch in front
  of the one after.  It may be required not to leave a region (`floor`).

  A path stays one when an opening is barred ahead of it or behind it
  (`Path.cons_bar`).  That is what a scan hangs on that goes back: what it has
  found so far it would find again.

  The scan that takes every match that comes next (`Runs`) follows all paths
  (`Path.foldl_take`).
-/
import Mathlib.Logic.Relation
import Highlighting.Proofs.Scan.Place

namespace Highlighting.Scan

variable {task : Task} {barred : List Bar} {p q r : Place} {f : Found} {fs gs : List Found}
  {floor : Nat} {c d : Core}

/-! ### Places behind matches -/

/-- The match takes no region back, where regions of these modes are open. -/
def Found.IsOnward (modes : List Nat) (f : Found) : Prop := f.candidate = .illegal → modes = []

theorem Found.isOnward_of_ne {modes : List Nat} (h : f.candidate ≠ .illegal) : f.IsOnward modes :=
  fun hillegal => absurd hillegal h

/-- The place behind a match that is taken. -/
def Place.after (task : Task) (f : Found) (p : Place) : Place :=
  match f.candidate with
  | .opens m =>
    ⟨f.span.stop, if (task.grammar.mode m).ending = .immediate then p.modes else m :: p.modes⟩
  | .closes depth => ⟨f.span.stop, p.modes.drop (State.closedBy task.grammar p.modes depth)⟩
  | .illegal => ⟨Draft.passedAt task.source f.span, p.modes⟩

theorem Draft.passedAt_of_lt {source : Source} {span : Span} (h : span.start < span.stop) :
    Draft.passedAt source span = span.stop := by
  rw [Draft.passedAt, if_neg]
  simp [Span.isEmpty, h]

/-- A match that is taken is passed. -/
theorem Place.pos_after (hsound : task.IsSound) (h : p.next? task barred = some f) :
    (p.after task f).pos = f.span.stop := by
  rw [Place.after]
  split
  · rfl
  · rfl
  · next hf => exact Draft.passedAt_of_lt (Place.lt_of_next? hsound h (by rw [hf]; rfl))

/-! ### Paths -/

/-- The matches lead from one place to another, and take nothing back.  All the while at least
`floor` regions are open. -/
def Path (task : Task) (barred : List Bar) (floor : Nat) : Place → List Found → Place → Prop
  | p, [], q => p.modes = q.modes ∧ p.pos ≤ q.pos ∧ Quiet task barred q.modes p.pos q.pos
  | p, f :: fs, q =>
    p.next? task barred = some f ∧ f.IsOnward p.modes ∧
      floor ≤ (p.after task f).modes.length ∧ Path task barred floor (p.after task f) fs q

namespace Path

theorem refl (p : Place) : Path task barred floor p [] p :=
  ⟨rfl, Nat.le_refl _, Quiet.refl _ _ _ _⟩

theorem floor_mono {floor' : Nat} (h : Path task barred floor p fs q) (hle : floor' ≤ floor) :
    Path task barred floor' p fs q := by
  induction fs generalizing p with
  | nil => exact h
  | cons f fs ih =>
    obtain ⟨hnext, honward, hfloor, hrest⟩ := h
    exact ⟨hnext, honward, Nat.le_trans hle hfloor, ih hrest⟩

section Sound

variable (hsound : task.IsSound)
include hsound

/-- A path may begin with a quiet stretch. -/
theorem of_quiet {a : Nat} {modes : List Nat} (hmodes : modes = p.modes) (hle : a ≤ p.pos)
    (hquiet : Quiet task barred p.modes a p.pos) (h : Path task barred floor p fs q) :
    Path task barred floor ⟨a, modes⟩ fs q := by
  subst hmodes
  cases fs with
  | nil =>
    obtain ⟨hmodes, hpos, hquiet'⟩ := h
    rw [hmodes] at hquiet ⊢
    exact ⟨rfl, Nat.le_trans hle hpos, hquiet.trans hquiet'⟩
  | cons f fs =>
    obtain ⟨hnext, honward, hfloor, hrest⟩ := h
    refine ⟨(Place.next?_of_quiet hsound hle hquiet).trans hnext, honward, ?_, ?_⟩
    · exact hfloor
    · exact hrest

theorem append (h : Path task barred floor p fs q) (h' : Path task barred floor q gs r) :
    Path task barred floor p (fs ++ gs) r := by
  induction fs generalizing p with
  | nil =>
    obtain ⟨hmodes, hpos, hquiet⟩ := h
    exact of_quiet hsound hmodes hpos hquiet h'
  | cons f fs ih =>
    obtain ⟨hnext, honward, hfloor, hrest⟩ := h
    exact ⟨hnext, honward, hfloor, ih hrest⟩

/-- A path goes on with the match that comes next at its end. -/
theorem snoc (h : Path task barred floor p fs q) (hnext : q.next? task barred = some f)
    (honward : f.IsOnward q.modes) (hfloor : floor ≤ (q.after task f).modes.length) :
    Path task barred floor p (fs ++ [f]) (q.after task f) :=
  h.append hsound ⟨hnext, honward, hfloor, refl _⟩

/-- A path goes up to where the next match starts. -/
theorem to_start (h : Path task barred floor p fs q) (hnext : q.next? task barred = some f) :
    Path task barred floor p fs ⟨f.span.start, q.modes⟩ := by
  have hend : Path task barred floor q [] ⟨f.span.start, q.modes⟩ :=
    ⟨rfl, (Place.next?_within hsound hnext).1, Place.quiet_of_next? hsound hnext⟩
  have happend := h.append hsound hend
  rwa [List.append_nil] at happend

theorem le (h : Path task barred floor p fs q) : p.pos ≤ q.pos := by
  induction fs generalizing p with
  | nil => exact h.2.1
  | cons f fs ih =>
    obtain ⟨hnext, -, -, hrest⟩ := h
    have hpos := ih hrest
    have hwithin := Place.next?_within hsound hnext
    rw [Place.pos_after hsound hnext] at hpos
    omega

/-- Along a quiet stretch, the same comes next. -/
theorem next?_eq (h : Path task barred floor p [] q) :
    p.next? task barred = q.next? task barred := by
  obtain ⟨hmodes, hle, hquiet⟩ := h
  have hmove := Place.next?_of_quiet hsound hle hquiet
  rw [← hmodes] at hmove
  exact hmove.trans (by rw [hmodes])

/-- **A path stays one when an opening is barred ahead of it or behind it.** -/
theorem cons_bar {b : Bar} (hb : Declares task.grammar.terminals false b.1)
    (h : Path task barred floor p fs q) (hne : q.pos ≤ b.2 ∨ b.2 < p.pos) :
    Path task (b :: barred) floor p fs q := by
  induction fs generalizing p with
  | nil => exact ⟨h.1, h.2.1, h.2.2.cons b⟩
  | cons f fs ih =>
    obtain ⟨hnext, honward, hfloor, hrest⟩ := h
    have hwithin := Place.next?_within hsound hnext
    have hafter := Place.pos_after hsound hnext
    have hle := hrest.le hsound
    -- only the end of a region can be an empty match at the end of the path
    have hkeep : f.span.start ≠ b.2 ∨ f.candidate.isEnd = true := by
      cases hend : f.candidate.isEnd with
      | true => exact .inr rfl
      | false =>
        have hlt := Place.lt_of_next? hsound hnext hend
        left
        omega
    refine ⟨Place.next?_cons hsound hb hnext hkeep, honward, hfloor, ih hrest ?_⟩
    omega

end Sound

end Path

/-! ### Following a path -/

theorem Core.place_take (h : f.IsOnward c.modes) :
    (c.take task f).place = c.place.after task f := by
  rw [Core.take, Place.after]
  cases hf : f.candidate with
  | opens m =>
    by_cases hend : (task.grammar.mode m).ending = .immediate
    · simp only [hend, if_true]
      rfl
    · simp only [hend, if_false]
      rfl
  | closes depth =>
    simp only [Core.place, Core.closes, Core.modes, List.map_drop]
  | illegal =>
    have hnil : c.entries = [] := by simpa [Core.modes] using h hf
    simp only [hnil]
    rfl

theorem Core.barred_take (h : f.IsOnward c.modes) : (c.take task f).barred = c.barred := by
  rw [Core.take]
  split
  · split <;> rfl
  · rfl
  · next hf =>
    have hnil : c.entries = [] := by simpa [Core.modes] using h hf
    simp only [hnil]
    rfl

def Core.next? (task : Task) (c : Core) : Option Found := c.place.next? task c.barred

/-- The second core comes from the first by the match that comes next. -/
def Core.Step (task : Task) (c d : Core) : Prop :=
  ∃ f, c.next? task = some f ∧ d = c.take task f

/-- The second core comes from the first by taking whatever comes next. -/
abbrev Runs (task : Task) : Core → Core → Prop := Relation.ReflTransGen (Core.Step task)

/-- Wherever a scan gets to, it goes on to where it ends. -/
theorem Runs.to_end {e : Core} (hd : Runs task c d) (he : Runs task c e)
    (hend : e.next? task = none) : Runs task d e := by
  have hright : Relator.RightUnique (Core.Step task) := by
    rintro x y z ⟨f, hf, rfl⟩ ⟨f', hf', rfl⟩
    obtain rfl : f = f' := Option.some.inj (hf.symm.trans hf')
    rfl
  rcases Relation.ReflTransGen.total_of_right_unique hright hd he with h | h
  · exact h
  · rcases h.cases_head with rfl | ⟨z, ⟨f, hf, -⟩, -⟩
    · exact .refl
    · rw [hend] at hf
      cases hf

/-- **A scan ends in one way only.** -/
theorem Runs.unique {e : Core} (hd : Runs task c d) (he : Runs task c e)
    (hdend : d.next? task = none) (heend : e.next? task = none) : d = e := by
  rcases (hd.to_end he heend).cases_head with heq | ⟨z, ⟨f, hf, -⟩, -⟩
  · exact heq
  · rw [hdend] at hf
    cases hf

def Core.takeAll (task : Task) (fs : List Found) (c : Core) : Core :=
  fs.foldl (fun c f => c.take task f) c

/-- What is left of a path that was followed is a quiet stretch. -/
theorem Path.quiet_takeAll (h : Path task barred floor c.place fs q) :
    Path task barred floor (c.takeAll task fs).place [] q := by
  induction fs generalizing c with
  | nil => exact h
  | cons f fs ih =>
    obtain ⟨-, honward, -, hrest⟩ := h
    rw [← Core.place_take honward] at hrest
    exact ih hrest

/-- The path stays within the text. -/
theorem Path.pos_takeAll_le (hsound : task.IsSound) (hpos : c.pos ≤ task.source.size)
    (h : Path task barred floor c.place fs q) : (c.takeAll task fs).pos ≤ task.source.size := by
  induction fs generalizing c with
  | nil => exact hpos
  | cons f fs ih =>
    obtain ⟨hnext, honward, -, hrest⟩ := h
    rw [← Core.place_take honward] at hrest
    refine ih ?_ hrest
    have hafter : (c.take task f).pos = f.span.stop := by
      show (c.take task f).place.pos = _
      rw [Core.place_take honward]
      exact Place.pos_after hsound hnext
    rw [hafter]
    exact (Place.next?_within hsound hnext).2.2

/-- **The scan follows the path.** -/
theorem Path.runs (h : Path task barred floor c.place fs q) (hbarred : c.barred = barred) :
    Runs task c (c.takeAll task fs) ∧ (c.takeAll task fs).barred = barred ∧
      Path task barred floor (c.takeAll task fs).place [] q := by
  induction fs generalizing c with
  | nil => exact ⟨.refl, hbarred, h⟩
  | cons f fs ih =>
    obtain ⟨hnext, honward, -, hrest⟩ := h
    rw [← Core.place_take honward] at hrest
    obtain ⟨hruns, hbarred', hend⟩ := ih hrest ((Core.barred_take honward).trans hbarred)
    refine ⟨Relation.ReflTransGen.head ⟨f, ?_, rfl⟩ hruns, hbarred', hend⟩
    rw [Core.next?, hbarred]
    exact hnext

/-- On a path inside of regions the draft is only extended, and the entries of those regions
stay. -/
theorem Path.extends_takeAll {base : List Entry} (h : Path task barred floor c.place fs q)
    (hbase : base <:+ c.entries) (hfloor : base.length ≤ floor) (hpos : 1 ≤ floor) :
    c.draft.Extends (c.takeAll task fs).draft ∧ base <:+ (c.takeAll task fs).entries := by
  induction fs generalizing c with
  | nil => exact ⟨.refl _, hbase⟩
  | cons f fs ih =>
    obtain ⟨hnext, honward, hlen, hrest⟩ := h
    have hplace : (c.take task f).place = c.place.after task f := Core.place_take honward
    rw [← hplace] at hrest hlen
    have hlen' : floor ≤ (c.take task f).entries.length := by
      simpa [Core.place, Core.modes] using hlen
    have hstep : c.draft.Extends (c.take task f).draft ∧ base <:+ (c.take task f).entries := by
      rw [Core.take] at hlen' ⊢
      cases hf : f.candidate with
      | opens m =>
        simp only
        split
        · exact ⟨Core.extends_takeWhole _, hbase⟩
        · exact ⟨Core.extends_openRegion _, hbase.trans (List.suffix_cons _ _)⟩
      | closes depth =>
        simp only [hf] at hlen' ⊢
        refine ⟨Core.extends_closes depth, ?_⟩
        exact List.suffix_of_suffix_length_le hbase (List.drop_suffix _ _)
          (Nat.le_trans hfloor hlen')
      | illegal =>
        -- then no region would be open
        have hnil : c.entries = [] := by simpa [Core.place, Core.modes] using honward hf
        simp only [hf, hnil, Core.passOver, List.length_nil] at hlen'
        omega
    obtain ⟨hext, hsuffix⟩ := ih hrest hstep.2
    exact ⟨hstep.1.trans hext, hsuffix⟩

/-- **A path inside a region that leads back to it** leads to a core with the same regions open,
where comes next what comes next at the end of the path. -/
theorem Path.back_in_region (hsound : task.IsSound)
    (h : Path task c.barred c.entries.length c.place fs q)
    (hback : q.modes.length = c.entries.length) (hpos : 1 ≤ c.entries.length) :
    ∃ d, Runs task c d ∧ d.barred = c.barred ∧ d.entries = c.entries ∧
      c.draft.Extends d.draft ∧ d.next? task = q.next? task c.barred := by
  obtain ⟨hruns, hbarred, hend⟩ := h.runs rfl
  obtain ⟨hext, hsuffix⟩ := h.extends_takeAll (List.suffix_refl _) (Nat.le_refl _) hpos
  refine ⟨c.takeAll task fs, hruns, hbarred, ?_, hext, ?_⟩
  · have hlength : (c.takeAll task fs).entries.length = q.modes.length := by
      rw [← hend.1]
      simp [Core.place, Core.modes]
    exact (hsuffix.eq_of_length (hback.symm.trans hlength.symm)).symm
  · rw [Core.next?, hbarred]
    exact hend.next?_eq hsound

end Highlighting.Scan
