/-
  Highlighting/Proofs/Scan/Relevance.lean
  =======================================
  **No text is more relevant than it is long.**

  What a scan has added up is paid for by the text in front of it
  (`Core.Affords`).  Each character pays for one keyword, as soon as it leaves
  the buffer, and for one mode, as soon as the position has passed it: what
  opens is not empty, so that no two modes open with the same character.  A
  region pays when it opens, although its relevance counts only when it closes.

  When a region is taken back, the scan goes back to where the region was
  opened, and there what was added up then had been paid for
  (`Core.Solvent.step`).
-/
import Highlighting.Proofs.Scan.Sums
import Highlighting.Proofs.Scan.Termination
import Highlighting.Proofs.Text.Source

namespace Highlighting

/-- No mode has a greater relevance, and no table of keywords the empty word. -/
structure Grammar.Bounded (g : Grammar) (R : Nat) : Prop where
  relevance : ∀ m ∈ g.modes, m.relevance.toNat ≤ R
  root : NoEmptyWord g.root.keywords
  words : ∀ m ∈ g.modes, NoEmptyWord m.content.keywords

namespace Grammar.Bounded

variable {g : Grammar} {R : Nat}

/-- What holds of all modes and of none holds of the mode of any number. -/
theorem mode_of_forall {P : Mode → Prop} (h : ∀ m ∈ g.modes, P m) (hdefault : P default)
    (k : Nat) : P (g.mode k) := by
  rw [Grammar.mode]
  cases hm : g.modes[k]? with
  | none => exact hdefault
  | some m => exact h m (Array.mem_of_getElem? hm)

theorem relevance_mode (h : g.Bounded R) (k : Nat) : (g.mode k).relevance.toNat ≤ R :=
  mode_of_forall (P := fun m => m.relevance.toNat ≤ R) h.relevance (Nat.zero_le R) k

theorem words_mode (h : g.Bounded R) (k : Nat) : NoEmptyWord (g.mode k).content.keywords :=
  mode_of_forall (P := fun m => NoEmptyWord m.content.keywords) h.words (fun _ ht => nomatch ht) k

theorem words_contentOf (h : g.Bounded R) (modes : List Nat) :
    NoEmptyWord (Scan.contentOf g modes).keywords := by
  cases modes with
  | nil => exact h.root
  | cons m outer => exact h.words_mode m

end Grammar.Bounded

namespace Scan

variable {task : Task} {f : Found} {c d : Core} {s t : State} {ms : List Move} {R n : Nat}

/-! ### What was paid for -/

namespace Core

/-- What the draft costs and what the open regions are still to cost is paid for by the text up to
the position, of which the buffer is left. -/
structure Affords (R n : Nat) (c : Core) : Prop where
  costs : c.draft.Costs n
  le : n + R * c.entries.length ≤ R * c.pos + c.draft.bufferStart

/-- What was added up is paid for, and it was where the open regions were opened. -/
structure Solvent (R : Nat) (c : Core) : Prop where
  affords : ∃ n, c.Affords R n
  grounded : c.Grounded fun e u => (∃ n, u.Affords R n) ∧ u.pos ≤ e.start
  layered : c.Layered

theorem solvent_start (R : Nat) (g : Grammar) : (State.start g).core.Solvent R :=
  ⟨⟨0, Draft.costs_empty, Nat.zero_le _⟩, ⟨Draft.counted_empty, trivial⟩, layered_start g⟩

/-- There is no more to pay with than the text up to the position. -/
theorem Affords.le_pos (h : c.Affords R n) (hbuffer : c.draft.bufferStart ≤ c.pos) :
    n ≤ (R + 1) * c.pos := by
  have hle := h.le
  rw [Nat.succ_mul]
  omega

theorem Solvent.relevance_le (h : c.Solvent R) : c.draft.relevance.toNat ≤ (R + 1) * c.pos := by
  obtain ⟨n, hn⟩ := h.affords
  exact Nat.le_trans hn.costs.relevance (hn.le_pos h.layered.buffer_le)

end Core

/-! ### Matches that are taken -/

namespace Summed

section Take

variable (hg : task.grammar.Bounded R) (h : c.Affords R n) (hbuffer : c.draft.bufferStart ≤ c.pos)
  (hpos : c.pos ≤ f.span.start)
include hg h hbuffer hpos

/-- What a mode without an end costs is paid for by the text that it takes. -/
theorem exists_pays_takeWhole (hlt : f.span.start < f.span.stop) (index : Nat) :
    let m := task.grammar.mode index
    let d := c.takeWhole task m f.span
    ∃ k, Pays k d.draft (addWhole task.source (c.keywords task.grammar) m f.span c.draft)
      d.draft ∧ d.Affords R k := by
  intro m d
  have hpays : Pays _ d.draft _ d.draft := pays_addWhole (hg.words_contentOf c.modes)
    (hg.words_mode index) (hg.relevance_mode index) h.costs (Nat.le_trans hbuffer hpos)
    (Nat.le_of_lt hlt)
  refine ⟨_, hpays, hpays.costs, ?_⟩
  have hflushed : d.draft.bufferStart = f.span.stop := Draft.bufferStart_addWhole c.draft
  have hpaid : R * (c.pos + 1) ≤ R * f.span.stop := Nat.mul_le_mul_left R (by omega)
  have hle := h.le
  rw [hflushed]
  show _ + R * c.entries.length ≤ R * f.span.stop + f.span.stop
  rw [Nat.mul_succ] at hpaid
  omega

/-- What a region is to cost is paid for by its opening. -/
theorem exists_pays_openRegion (hlt : f.span.start < f.span.stop) (index : Nat) :
    let d := c.openRegion task index f.span
    ∃ k, Pays k d.draft (openRegion task.source (c.keywords task.grammar)
      (task.grammar.mode index) f.span c.draft) d.draft ∧ d.Affords R k := by
  intro d
  have hpays : Pays _ d.draft _ d.draft := pays_openRegion (hg.words_contentOf c.modes) h.costs
  refine ⟨_, hpays, hpays.costs, ?_⟩
  obtain ⟨hstart, -⟩ : f.span.start ≤ d.draft.bufferStart ∧ d.draft.bufferStart ≤ f.span.stop :=
    Draft.bufferStart_openRegion c.draft (Nat.le_of_lt hlt)
  have hpaid : R * (c.pos + 1) ≤ R * f.span.stop := Nat.mul_le_mul_left R (by omega)
  have hle := h.le
  show n + (d.draft.bufferStart - c.draft.bufferStart) + R * (c.entries.length + 1) ≤
    R * f.span.stop + d.draft.bufferStart
  rw [Nat.mul_succ] at hpaid ⊢
  omega

/-- What closes was paid for. -/
theorem exists_pays_closes (hle : f.span.start ≤ f.span.stop) (depth : Nat) :
    let closed := c.modes.take (State.closedBy task.grammar c.modes depth)
    let d := c.closes task depth f.span
    ∃ k, Pays k d.draft (closeRegions task.source (c.keywords task.grammar)
      (State.closingEdge task.grammar c.modes f.span) (closed.map task.grammar.mode) c.draft)
      d.draft ∧ d.Affords R k := by
  intro closed d
  have hrelevance : ∀ m ∈ closed.map task.grammar.mode, m.relevance.toNat ≤ R := by
    intro m hm
    obtain ⟨index, -, rfl⟩ := List.mem_map.mp hm
    exact hg.relevance_mode index
  have hpays : Pays _ d.draft _ d.draft :=
    pays_closeRegions (hg.words_contentOf c.modes) hrelevance h.costs
  refine ⟨_, hpays, hpays.costs, ?_⟩
  have hflushed : d.draft.bufferStart = State.closingEdge task.grammar c.modes f.span :=
    Draft.bufferStart_closeRegions _ _
  have hedge := closingEdge_eq task.grammar c.modes f.span
  have hpaid : R * c.pos ≤ R * f.span.stop := Nat.mul_le_mul_left R (by omega)
  have hlength : R * (closed.map task.grammar.mode).length + R * d.entries.length =
      R * c.entries.length := by
    have hmodes : c.modes.length = c.entries.length := List.length_map _
    have hentries : d.entries.length = _ := List.length_drop
    rw [← Nat.mul_add, List.length_map, List.length_take, hentries]
    congr 1
    omega
  have hafford := h.le
  rw [hflushed]
  show n + _ + R * (closed.map task.grammar.mode).length + R * d.entries.length ≤
    R * f.span.stop + _
  omega

theorem exists_pays_passOver (hlt : f.span.start < f.span.stop) :
    let d := c.passOver task f.span
    ∃ k, Pays k d.draft (passOver task.source (c.keywords task.grammar) f.span c.draft) d.draft ∧
      d.Affords R k := by
  intro d
  have hpays : Pays _ d.draft _ d.draft := pays_passOver (hg.words_contentOf c.modes) h.costs
  refine ⟨_, hpays, hpays.costs, ?_⟩
  have hpassed : Draft.passedAt task.source f.span = f.span.stop := Draft.passedAt_of_lt hlt
  have hpaid : R * c.pos ≤ R * f.span.stop := Nat.mul_le_mul_left R (by omega)
  have hle := h.le
  show _ + R * c.entries.length ≤
    R * Draft.passedAt task.source f.span + Draft.passedAt task.source f.span
  rw [hpassed]
  omega

end Take

/-- **What taking a match costs is paid for**: by the text that is passed, or else by the text in
front of the region that is taken back. -/
theorem exists_pays_take (hg : task.grammar.Bounded R) (hin : task.grammar.InOrder)
    (hfits : f.Fits task c.barred c.place) (h : c.Solvent R) :
    ∃ k, Pays k (c.take task f).draft (take task f c) (c.take task f).draft ∧
      (c.take task f).Affords R k := by
  obtain ⟨n, hn⟩ := h.affords
  have hbuffer := h.layered.buffer_le
  obtain ⟨hpos, hle, -⟩ : c.pos ≤ f.span.start ∧ f.span.start ≤ f.span.stop ∧ _ := hfits.within
  simp only [take, Core.take]
  cases hf : f.candidate with
  | opens index =>
    have hlt : f.span.start < f.span.stop := hfits.start_lt hin (by rw [hf]; rfl)
    simp only
    split
    · exact exists_pays_takeWhole hg hn hbuffer hpos hlt index
    · exact exists_pays_openRegion hg hn hbuffer hpos hlt index
  | closes depth => exact exists_pays_closes hg hn hbuffer hpos hle depth
  | illegal =>
    have hlt : f.span.start < f.span.stop := hfits.start_lt hin (by rw [hf]; rfl)
    cases hentries : c.entries with
    | nil => exact exists_pays_passOver hg hn hbuffer hpos hlt
    | cons e outer =>
      have hopened := h.grounded.opened
      rw [hentries] at hopened
      obtain ⟨u, ⟨⟨k, hk⟩, hstart⟩, houter, -, halike, -⟩ := hopened.restore h.grounded.counted
      have hcosts : (c.draft.restore e.checkpoint).Costs k := hk.costs.alike halike.symm
      refine ⟨k, Pays.of_costs hcosts, hcosts, ?_⟩
      have hpaid : R * u.pos ≤ R * e.start := Nat.mul_le_mul_left R hstart
      have hafford := hk.le
      rw [houter] at hafford
      show k + R * outer.length ≤ R * e.start + (c.draft.restore e.checkpoint).bufferStart
      rw [halike.bufferStart]
      omega

end Summed

/-! ### Runs -/

/-- **A step leaves everything paid for.** -/
theorem Core.Solvent.step (h : c.Solvent R) (hg : task.grammar.Bounded R)
    (hin : task.grammar.InOrder) (hfits : f.Fits task c.barred c.place) (hturn : Turn task c f d) :
    d.Solvent R := by
  obtain ⟨hpos, hle, hsize⟩ := hfits.within
  cases hturn with
  | taken =>
    obtain ⟨k, -, hk⟩ := Summed.exists_pays_take hg hin hfits h
    exact ⟨⟨k, hk⟩, h.grounded.take fun _ _ _ => ⟨h.affords, hpos⟩, h.layered.take hpos hle hsize⟩
  | barred =>
    obtain ⟨k, hk⟩ := h.affords
    exact ⟨⟨k, hk.costs, hk.le⟩, ⟨h.grounded.counted, h.grounded.opened⟩,
      ⟨h.layered.ordered, h.layered.behind, h.layered.buffered, h.layered.buffer_le⟩⟩

section Within

variable (hg : task.grammar.Bounded R) (hin : task.grammar.InOrder)
  (hwithin : task.grammar.SearchesWithin task.source)
include hg hin hwithin

theorem State.Orderly.solvent_move (ho : s.Orderly task) (h : s.core.Solvent R)
    (hf : (s.next? task).1 = some f) : ((s.move task f).next task).core.Solvent R :=
  h.step hg hin (s.fits_next? hwithin ho.admits hf) (core_turn task (s.next? task).2 f)

/-- **Everything is paid for, wherever a scan gets to.** -/
theorem Ran.solvent (h : Ran task (State.start task.grammar) ms t) :
    t.Orderly task ∧ t.core.Solvent R := by
  refine h.inv (P := fun s => s.Orderly task ∧ s.core.Solvent R) (fun s f hs hf => ?_)
    ⟨orderly_start task [], Core.solvent_start R task.grammar⟩
  exact ⟨(hs.1.move hin hwithin hf).1, hs.1.solvent_move hg hin hwithin hs.2 hf⟩

namespace Summed

/-! ### No sum is too large -/

omit hwithin in
/-- Where a whole text cannot cost too much, no step makes too large a sum. -/
theorem handle_eq (hsize : (R + 1) * task.source.size < UInt32.size) (h : s.core.Solvent R)
    (htidy : s.core.Tidy task) (hfits : f.Fits task s.barred s.core.place) :
    handle task f s = some (s.handle task f) := by
  rw [handle]
  cases hskips : s.skips task f with
  | true => exact if_pos rfl
  | false =>
    have hturn := core_turn task s f
    have hle := (Core.potential_lt hin hfits htidy hturn).1.le
    have hbuffer := (h.step hg hin hfits hturn).layered.buffer_le
    have hcore := core_handle_of_not_skips hskips
    obtain ⟨k, hpays, hk⟩ := exists_pays_take hg hin hfits h
    rw [hcore] at hle hbuffer
    have hpaid := Nat.le_trans (hk.le_pos hbuffer) (Nat.mul_le_mul_left (R + 1) hle)
    rw [if_neg Bool.false_ne_true, hpays.eq_some (Nat.lt_of_le_of_lt hpaid hsize), ← hcore]
    rfl

theorem runFor_eq (hsize : (R + 1) * task.source.size < UInt32.size) (ho : s.Orderly task)
    (h : s.core.Solvent R) (n : Nat) : runFor task n s = some (Scan.runFor task n s) := by
  induction n generalizing s with
  | zero => rfl
  | succ n ih =>
    rw [runFor]
    cases hf : (s.next? task).1 with
    | none =>
      rw [runFor_stop hf, show s.next? task = (none, (s.next? task).2) from Prod.ext hf rfl]
    | some f =>
      have hhandle : handle task f (s.next? task).2 = some ((s.move task f).next task) :=
        handle_eq hg hin hsize h ho.tidy (s.fits_next? hwithin ho.admits hf)
      rw [runFor_step hf, show s.next? task = (some f, (s.next? task).2) from Prod.ext hf rfl]
      simp only [hhandle]
      exact ih (ho.move hin hwithin hf).1 (ho.solvent_move hg hin hwithin h hf)

omit hin hwithin in
/-- The rest of the text pays for its keywords. -/
theorem pays_rest (h : s.core.Solvent R) (hpos : s.pos ≤ task.source.size) :
    let d := s.draft.flush task.source (s.keywords task.grammar) task.source.size
    Pays ((R + 1) * task.source.size) d
      (flush task.source (s.keywords task.grammar) task.source.size s.draft) d := by
  intro d
  obtain ⟨n, hn⟩ := h.affords
  have hpays := pays_flush task.source task.source.size (hg.words_contentOf s.modes) hn.costs
  have hbuffer : s.draft.bufferStart ≤ s.pos := h.layered.buffer_le
  have hle : n ≤ R * s.pos + s.draft.bufferStart := Nat.le_trans (Nat.le_add_right _ _) hn.le
  have hpaid : R * s.pos ≤ R * task.source.size := Nat.mul_le_mul_left R hpos
  refine hpays.mono ?_
  show n + (task.source.size - s.draft.bufferStart) ≤ _
  rw [Nat.succ_mul]
  omega

omit hin hwithin in
theorem relevance_result_le (h : s.core.Solvent R) (hpos : s.pos ≤ task.source.size) :
    (Scan.result task s).relevance.toNat ≤ (R + 1) * task.source.size :=
  ((pays_rest hg h hpos).costs.closeScopes task.grammar s.modes).relevance

omit hin hwithin in
theorem result_eq (hsize : (R + 1) * task.source.size < UInt32.size) (h : s.core.Solvent R)
    (hpos : s.pos ≤ task.source.size) : result task s = some (Scan.result task s) := by
  rw [result, (pays_rest hg h hpos).eq_some hsize]
  rfl

end Summed

end Within

/-- **A text is no more relevant than it is long**, and neither is what was read of it on the
way; so that no sum is too large where no sum could be for a text of that length. -/
theorem relevance_le {g : Grammar} (hg : g.Bounded R) (hin : g.InOrder) (text : String)
    (options : Options) (hwithin : g.SearchesWithin (Source.ofString text)) :
    let source := Source.ofString text
    (∀ ms s, Ran (Scan.task g source options) (State.start g) ms s →
      s.draft.relevance.toNat ≤ (R + 1) * s.pos ∧ s.pos ≤ source.size) ∧
    (g.highlight text options).relevance.toNat ≤ (R + 1) * source.size ∧
    ((R + 1) * source.size < UInt32.size →
      Summed.highlight g text options = some (g.highlight text options)) := by
  intro source
  let task := Scan.task g source options
  have hpaid : ∀ {ms s}, Ran task (State.start g) ms s → s.Orderly task ∧ s.core.Solvent R :=
    fun hran => hran.solvent hg hin hwithin
  refine ⟨fun ms s hran => ⟨(hpaid hran).2.relevance_le, (hpaid hran).1.tidy.le⟩, ?_, ?_⟩
  · obtain ⟨ms, t, hran, hresult⟩ := exists_ran_highlight g text options
    rw [hresult]
    exact Summed.relevance_result_le hg (hpaid hran).2 (hpaid hran).1.tidy.le
  · intro hsize
    let last := runFor task (stepBound g source.size) (State.start g)
    have hrun : Summed.runFor task (stepBound g source.size) (State.start g) = some last :=
      Summed.runFor_eq hg hin hwithin hsize (orderly_start task []) (Core.solvent_start R g) _
    obtain ⟨ms, t, hran, hcore⟩ := exists_ran_core task (stepBound g source.size) (State.start g)
    have hlast : last.core.Solvent R ∧ last.core.pos ≤ source.size := by
      rw [show last.core = t.core from hcore.symm]
      exact ⟨(hpaid hran).2, (hpaid hran).1.tidy.le⟩
    show (Summed.runFor task (stepBound g source.size) (State.start g)).bind _ = _
    rw [hrun]
    exact Summed.result_eq hg hsize hlast.1 hlast.2

end Scan

end Highlighting
