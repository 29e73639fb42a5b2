/-
  Highlighting/Proofs/Scan/Stretches.lean
  =======================================
  **Crossing text with keywords.**

  Where no pattern matches, a stretch of text shows what the keywords of the
  region make of it (`Records`).  When names are what the lexeme cuts out, a
  stretch without a name shows its text, and one that is a name shows it in the
  scope of its class.  The stretch may be looked at by itself where no name gets
  over its start (`Crosses.stretch`).

  Regions without a scope of their own are nothing but a change of what is
  looked for (`Leads.opens`, `Leads.closes`).
-/
import Highlighting.Proofs.Regex.Names
import Highlighting.Proofs.Scan.Crossings

namespace Highlighting

variable {first rest : CharSet} {text : Source}

/-- A text in which no name starts is cut into nothing. -/
theorem Matcher.findAll_eq_nil (hstays : (listing (.name first rest)).staysInLine = true)
    (h : ∀ c ∈ text, first.contains c = false) :
    (listing (.name first rest)).findAll text = [] := by
  refine (cuts_findAll hstays text).unique (.done ?_)
  rw [find_eq_ofEnds hstays, Search.ofEnds_eq_none_iff]
  intro p _ _
  cases hend : (listing (.name first rest)).firstEnd? text p with
  | none => rfl
  | some e =>
    obtain ⟨c, hc, hfirst⟩ := (Option.any_eq_true _ _).mp (Regex.firstEnd?_name_iff.mp hend).1
    rw [h c (Array.mem_of_getElem? hc)] at hfirst
    cases hfirst

namespace Scan

open EventLog (Forest)

variable {task : Task} {ms ms' : List Nat} {a b p q r k : Nat} {ns : List Node} {w : Source}
  {keywords : Option KeywordTable} {table : KeywordTable} {core : Core}

/-- A stretch that is recorded with the keywords shows the nodes. -/
def Records (w : Source) (keywords : Option KeywordTable) (a b : Nat) (ns : List Node) : Prop :=
  ∀ d : Draft, (d.classify w keywords ⟨a, b⟩).forest w = (d.forest w).update (Forest.glue ns)

namespace Records

theorem flush (h : Records w keywords a b ns) {d : Draft} (ha : d.bufferStart = a) :
    (d.flush w keywords b).forest w = (d.forest w).update (Forest.glue ns) := by
  rw [Draft.flush, ha]
  exact h { d with bufferStart := b }

/-- Behind a place that separates, the stretch is recorded by itself. -/
theorem flush_of_separates (h : Records w keywords a b ns) (hsep : w.Separates keywords a)
    {d : Draft} (hd : d.bufferStart ≤ a) (hab : a ≤ b) (hb : b ≤ w.size) :
    (d.flush w keywords b).forest w =
      ((d.flush w keywords a).forest w).update (Forest.glue ns) := by
  rw [(Draft.flush_flush hsep hd hab hb).forest]
  exact h.flush (Draft.bufferStart_flush ..)

/-- A stretch without a lexeme shows its text. -/
theorem of_findAll_nil (hab : a < b) (h : table.lexeme.findAll (w.extract a b) = []) :
    Records w (some table) a b [.text (w.slice ⟨a, b⟩)] := by
  intro d
  rw [Draft.classify_table w table d hab, h]
  exact Draft.forest_addText w d hab

/-- A stretch that is a lexeme shows its text in the scope of its class. -/
theorem of_findAll_single (hab : a < b) (h : table.lexeme.findAll (w.extract a b) = [⟨0, b - a⟩]) :
    Records w (some table) a b
      [.enclosed ((table.classify (w.chars ⟨a, b⟩)).map KeywordClass.scope) (w.slice ⟨a, b⟩)] := by
  intro d
  have hstop : a + (b - a) = b := Nat.add_sub_cancel' (Nat.le_of_lt hab)
  rw [Draft.classify_table w table d hab, h]
  simp only [Draft.addLexemes, Nat.add_zero, hstop]
  cases table.classify (w.chars ⟨a, b⟩) with
  | none => exact Draft.forest_addText w d hab
  | some c =>
    show ((d.addKeyword a ⟨a, b⟩ c _).addText ⟨b, b⟩).forest w = _
    rw [Draft.addText_eq_self _ (show Span.stop ⟨b, b⟩ ≤ b from Nat.le_refl b)]
    show (((((d.addText ⟨a, a⟩).openScope (some c.scope)).addText ⟨a, b⟩).closeScope
      (some c.scope)).hit _).forest w = _
    rw [Draft.addText_eq_self _ (show Span.stop ⟨a, a⟩ ≤ a from Nat.le_refl a)]
    show ((((d.openScope (some c.scope)).addText ⟨a, b⟩).closeScope
      (some c.scope))).forest w = _
    rw [Draft.forest_closeScope, Draft.forest_addText _ _ hab, Draft.forest_openScope,
      Forest.close_update_opened]
    rfl

end Records

/-- **Where no pattern matches, the text is shown with its keywords.** -/
theorem Crosses.stretch (h : Records task.source (contentOf task.grammar ms).keywords a b ns)
    (hsep : task.source.Separates (contentOf task.grammar ms).keywords a) (hab : a ≤ b)
    (hb : b ≤ task.source.size) (hquiet : Quiet task [] ms a b) : Crosses task ms a b ns := by
  intro core hcore
  refine ⟨core, .refl, hcore.extend hab hquiet, ?_⟩
  rw [Core.shown, Core.shown, hcore.keywords]
  exact h.flush_of_separates hsep hcore.buffer_le hab hb

/-! ### Gaps between names -/

section Names

variable {first rest : CharSet} (hlexeme : table.lexeme = .listing (.name first rest))
  (hstays : (Matcher.listing (.name first rest)).staysInLine = true)
include hlexeme hstays

/-- No name gets over a position with a character on either side of it that no name has. -/
theorem separates_of_gap (h : (w[a]?).any rest.contains = false ∨
    ∃ p c, a = p + 1 ∧ w[p]? = some c ∧ first.contains c = false ∧ rest.contains c = false) :
    w.Separates (some table) a := by
  intro t ht b stop hba has hsize
  obtain rfl := Option.some.inj ht
  rw [hlexeme]
  refine Matcher.parts_of_gap hstays ?_
  rcases h with hnext | ⟨p, c, rfl, hc, hnot⟩
  · right
    rw [Array.getElem?_extract, if_pos (by omega)]
    exact hnext
  · refine .inl ⟨c, ?_, hnot⟩
    rw [Source.EndsWith, Array.size_extract, Array.getElem?_extract, if_pos (by omega),
      show b + (min (p + 1) w.size - b - 1) = p by omega]
    exact hc

/-- A stretch in which no name starts shows its text. -/
theorem Records.of_gap (hab : a < b) (h : ∀ c ∈ w.chars ⟨a, b⟩, first.contains c = false) :
    Records w (some table) a b (w.textNodes a b) := by
  rw [Source.textNodes, if_pos hab]
  refine .of_findAll_nil hab ?_
  rw [hlexeme]
  exact Matcher.findAll_eq_nil hstays fun c hc => h c (Array.mem_toList_iff.mpr hc)

theorem Records.of_char {c : Char} (hp : w[p]? = some c) (hc : first.contains c = false) :
    Records w (some table) p (p + 1) [.text (.ofList [c])] := by
  rw [← Source.textNodes_single hp]
  refine .of_gap hlexeme hstays (Nat.lt_succ_self p) fun d hd => ?_
  rw [Source.chars_single hp, List.mem_singleton] at hd
  exact hd ▸ hc

/-- **A stretch without a character of names shows its text**, if no pattern matches in it. -/
theorem Crosses.gap (hkeywords : (contentOf task.grammar ms).keywords = some table) (hab : a < b)
    (hb : b ≤ task.source.size)
    (h : ∀ c ∈ task.source.chars ⟨a, b⟩, first.contains c = false ∧ rest.contains c = false)
    (hquiet : Quiet task [] ms a b) : Crosses task ms a b (task.source.textNodes a b) := by
  have hrecords := Records.of_gap hlexeme hstays hab fun c hc => (h c hc).1
  have hsep : task.source.Separates (some table) a := by
    refine separates_of_gap hlexeme hstays (.inl ?_)
    have ha : a < task.source.size := Nat.lt_of_lt_of_le hab hb
    rw [Array.getElem?_eq_getElem ha, Option.any_some]
    refine (h _ ?_).2
    rw [Source.chars, Array.mem_toList_iff, Array.mem_extract_iff_getElem]
    exact ⟨0, (show 0 < min b _ - a by omega), rfl⟩
  rw [← hkeywords] at hrecords hsep
  exact .stretch hrecords hsep (Nat.le_of_lt hab) hb hquiet

/-- A single character is such a stretch. -/
theorem Crosses.char {c : Char} (hkeywords : (contentOf task.grammar ms).keywords = some table)
    (hp : task.source[p]? = some c) (hc : first.contains c = false ∧ rest.contains c = false)
    (hquiet : Quiet task [] ms p (p + 1)) : Crosses task ms p (p + 1) [.text (.ofList [c])] := by
  rw [← Source.textNodes_single hp]
  refine .gap hlexeme hstays hkeywords (Nat.lt_succ_self p) (Array.getElem?_eq_some_iff.mp hp).1
    (fun d hd => ?_) hquiet
  rw [Source.chars_single hp, List.mem_singleton] at hd
  exact hd ▸ hc

end Names

/-- Regions that have no scopes close without a trace. -/
theorem Draft.forest_closeRegions (w : Source) {closed : List Mode} (hscopes : ∀ m ∈ closed,
    m.scope = none) (d : Draft) : (closed.foldl Draft.closeRegion d).forest w = d.forest w ∧
      (closed.foldl Draft.closeRegion d).bufferStart = d.bufferStart := by
  induction closed generalizing d with
  | nil => exact ⟨rfl, rfl⟩
  | cons m closed ih =>
    obtain ⟨hforest, hbuffer⟩ := ih (fun m' hm' => hscopes m' (List.mem_cons_of_mem m hm'))
      (d.closeRegion m)
    rw [List.foldl_cons, hforest, hbuffer, Draft.closeRegion, hscopes m List.mem_cons_self]
    exact ⟨rfl, rfl⟩

section Modes

variable (hsound : task.IsSound)
include hsound

/-- **A region without a scope opens**, and its opening is shown with its keywords. -/
theorem Leads.opens (hbegin : (task.grammar.mode k).excludesBegin = false)
    (hending : (task.grammar.mode k).ending ≠ .immediate)
    (hscope : (task.grammar.mode k).scope = none)
    (hopens : Place.next? task [] ⟨p, ms⟩ = some ⟨⟨p, q⟩, .opens k⟩)
    (h : Records task.source (task.grammar.mode k).content.keywords p q ns) :
    Leads task ms p (k :: ms) q ns := by
  intro core hcore
  have hlt : p < q := Place.lt_of_next? hsound hopens rfl
  have htake : core.take task ⟨⟨p, q⟩, .opens k⟩ = core.openRegion task k ⟨p, q⟩ := if_neg hending
  have hmodes : (core.take task ⟨⟨p, q⟩, .opens k⟩).modes = k :: ms := by
    rw [htake, ← hcore.modes]
    rfl
  have hdraft : (core.take task ⟨⟨p, q⟩, .opens k⟩).draft =
      core.draft.flush task.source (core.keywords task.grammar) p := by
    rw [htake, Core.openRegion]
    simp only [Draft.openRegion, hbegin, hscope]
    rfl
  have hbuffer : (core.take task ⟨⟨p, q⟩, .opens k⟩).draft.bufferStart = p := by
    rw [hdraft]
    exact Draft.bufferStart_flush ..
  refine ⟨_, hcore.step hsound hopens, .of_pos hmodes ?_ ?_ ?_, ?_⟩
  · rw [htake]
    exact hcore.barred
  · rw [htake]
    rfl
  · rw [hbuffer]
    exact Nat.le_of_lt hlt
  · rw [Core.shown, Core.keywords, hmodes]
    show ((core.take task ⟨⟨p, q⟩, .opens k⟩).draft.flush task.source
      (task.grammar.mode k).content.keywords q).forest task.source = _
    rw [h.flush hbuffer, hdraft]
    rfl

/-- **Regions without scopes close**, and the end is shown with the keywords of the innermost. -/
theorem Leads.closes {depth : Nat}
    (hcloses : Place.next? task [] ⟨p, k :: ms⟩ = some ⟨⟨p, q⟩, .closes depth⟩)
    (hend : (task.grammar.mode k).excludesEnd = false)
    (hclosed : (k :: ms).drop (State.closedBy task.grammar (k :: ms) depth) = ms')
    (hscopes : ∀ m ∈ k :: ms, (task.grammar.mode m).scope = none)
    (h : Records task.source (task.grammar.mode k).content.keywords p q ns)
    (hsep : task.source.Separates (task.grammar.mode k).content.keywords p) :
    Leads task (k :: ms) p ms' q ns := by
  intro core hcore
  obtain ⟨hle, hsize⟩ := (Place.next?_within hsound hcloses).2
  have hedge : State.closingEdge task.grammar core.modes ⟨p, q⟩ = q := by
    rw [hcore.modes, State.closingEdge, hend]
    rfl
  have hunscoped : ∀ m ∈ ((k :: ms).take (State.closedBy task.grammar (k :: ms) depth)).map
      task.grammar.mode, m.scope = none := by
    intro m hm
    obtain ⟨j, hj, rfl⟩ := List.mem_map.mp hm
    exact hscopes j (List.mem_of_mem_take hj)
  obtain ⟨hforest, hbuffer⟩ := Draft.forest_closeRegions task.source hunscoped
    (core.draft.flush task.source (core.keywords task.grammar) q)
  have hdraft : (core.take task ⟨⟨p, q⟩, .closes depth⟩).draft =
      ((((k :: ms).take (State.closedBy task.grammar (k :: ms) depth)).map
        task.grammar.mode).foldl Draft.closeRegion
          (core.draft.flush task.source (core.keywords task.grammar) q)) := by
    show Draft.closeRegions task.source (core.keywords task.grammar)
      (State.closingEdge task.grammar core.modes ⟨p, q⟩) _ core.draft = _
    rw [hedge, hcore.modes]
    rfl
  rw [← hdraft, Draft.bufferStart_flush] at hbuffer
  rw [← hdraft] at hforest
  refine ⟨_, hcore.step hsound hcloses, .of_pos ?_ hcore.barred rfl (Nat.le_of_eq hbuffer), ?_⟩
  · rw [← hclosed, ← hcore.modes]
    exact List.map_drop
  · rw [Core.shown, Draft.flush_self _ _ _ (Nat.le_of_eq hbuffer.symm), hforest, Core.shown,
      hcore.keywords]
    exact h.flush_of_separates hsep hcore.buffer_le hle hsize

end Modes

end Scan

end Highlighting
