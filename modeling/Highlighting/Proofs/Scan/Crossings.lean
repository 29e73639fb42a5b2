/-
  Highlighting/Proofs/Scan/Crossings.lean
  =======================================
  **Crossings**: what a scan makes of a stretch of the text.

  A scan is at a position when no match is left that starts in front of it
  (`Core.At`).  Crossing a stretch it comes from one end to the other, with
  regions of the same modes open, and shows some nodes more (`Crosses`); which
  ones does not hang on what was shown before.

  Crossings can be put together: one behind the other (`Leads.trans`), and one
  inside a region that opens in front of it and closes behind it
  (`Crosses.region`).  The nodes of a text are those of its crossing
  (`nodes_of_crosses`).
-/
import Highlighting.Proofs.Regex.Words
import Highlighting.Proofs.Scan.Leaves
import Highlighting.Proofs.Scan.Numbers
import Highlighting.Proofs.Scan.Seam.Buffer
import Highlighting.Proofs.Tree.Glue

namespace Highlighting

/-! ### Nodes -/

/-- The text of a stretch as nodes; there is none for an empty one. -/
def Source.textNodes (w : Source) (a b : Nat) : List Node :=
  if a < b then [.text (w.slice ⟨a, b⟩)] else []

theorem Source.textNodes_single {w : Source} {p : Nat} {c : Char} (h : w[p]? = some c) :
    w.textNodes p (p + 1) = [.text (.ofList [c])] := by
  rw [Source.textNodes, if_pos (Nat.lt_succ_self p), Source.slice, Source.chars_single h]

/-- A text in a scope, if there is one. -/
def Node.enclosed (scope : Option Scope) (s : String) : Node :=
  match scope with
  | some scope => .region scope [.text s]
  | none => .text s

namespace EventLog.Forest

theorem glue_glue (ns ms top : List Node) : glue (glue ns ms) top = glue ns (glue ms top) := by
  induction ns with
  | nil => rfl
  | cons n ns ih =>
    cases ns with
    | nil =>
      cases n with
      | text s => exact glue_joinText s ms top
      | region scope children => rfl
    | cons m ns =>
      have hne : m :: ns ≠ [] := List.cons_ne_nil m ns
      have hne' : glue (m :: ns) ms ≠ [] := by
        intro hnil
        cases m <;> cases ns <;> cases ms with
        | nil => cases hnil
        | cons n' ms => cases n' <;> cases hnil
      rw [glue_cons n hne, glue_cons n hne', glue_cons n hne, ih]

theorem hasLeaf_glue {ns top : List Node} (hns : ∀ n ∈ ns, n.HasLeaf)
    (htop : ∀ n ∈ top, n.HasLeaf) : ∀ n ∈ glue ns top, n.HasLeaf := by
  induction ns with
  | nil => exact htop
  | cons n ns ih =>
    have hn := hns n List.mem_cons_self
    by_cases hne : ns = []
    · subst hne
      cases n with
      | text s => exact (grows_joinText s).leafy top htop
      | region scope children => exact (grows_cons hn).leafy top htop
    · rw [glue_cons n hne]
      exact (grows_cons hn).leafy _ (ih fun m hm => hns m (List.mem_cons_of_mem n hm))

theorem glue_textNodes (w : Source) {a b c : Nat} (hab : a ≤ b) (hbc : b ≤ c) :
    glue (w.textNodes b c) (w.textNodes a b) = w.textNodes a c := by
  rcases Nat.eq_or_lt_of_le hab with rfl | hlt
  · rw [Source.textNodes, Source.textNodes, if_neg (Nat.lt_irrefl a), glue_nil]
  · rcases Nat.eq_or_lt_of_le hbc with rfl | hlt'
    · rw [Source.textNodes, if_neg (Nat.lt_irrefl b)]
      rfl
    · rw [Source.textNodes, Source.textNodes, Source.textNodes, if_pos hlt', if_pos hlt,
        if_pos (Nat.lt_trans hlt hlt'), ← w.slice_append hab hbc]
      rfl

theorem update_glue_nil (f : Forest) : f.update (glue []) = f := by
  obtain ⟨top, scopes⟩ := f
  cases scopes <;> rfl

theorem update_glue_glue (f : Forest) (ns ms : List Node) :
    (f.update (glue ms)).update (glue ns) = f.update (glue (glue ns ms)) := by
  rw [update_update]
  congr 1
  funext top
  exact (glue_glue ns ms top).symm

/-- What was collected in a scope is a node when the scope closes. -/
theorem close_update_opened (f : Forest) (scope : Scope) (g : List Node → List Node) :
    (Forest.update { f with scopes := (scope, []) :: f.scopes } g).close =
      f.update (glue [.region scope (g []).reverse]) := by
  obtain ⟨top, scopes⟩ := f
  cases scopes <;> rfl

end EventLog.Forest

namespace Scan

open EventLog (Forest)

variable {task : Task} {ms ms' ms'' : List Nat} {a b c p q r k : Nat} {ns ns' : List Node}
  {scope : Scope} {core d : Core}

/-! ### What drafts show -/

namespace Draft

variable (w : Source) (d : Draft)

theorem forest_addText_eq (a b : Nat) :
    (d.addText ⟨a, b⟩).forest w = (d.forest w).update (Forest.glue (w.textNodes a b)) := by
  rw [Source.textNodes]
  split
  · next hlt => exact forest_addText w d hlt
  · next hge =>
    rw [addText_eq_self d (Nat.le_of_not_lt hge), Forest.update_glue_nil]

theorem forest_flush_none (stop : Nat) :
    (d.flush w none stop).forest w =
      (d.forest w).update (Forest.glue (w.textNodes d.bufferStart stop)) := by
  rw [flush, classify_none]
  exact forest_addText_eq w { d with bufferStart := stop } d.bufferStart stop

theorem flush_self (keywords : Option KeywordTable) {stop : Nat} (h : stop ≤ d.bufferStart) :
    (d.flush w keywords stop).forest w = d.forest w := by
  rw [flush, classify_eq_self w keywords _ h]
  rfl

/-- A mode without an end records its match in its scope. -/
theorem forest_addWhole {keywords : Option KeywordTable} {m : Mode}
    (hbegin : m.excludesBegin = false)
    (hkeywords : m.content.keywords = none) (hpq : p < q) :
    (d.addWhole w keywords m ⟨p, q⟩).forest w =
      ((d.flush w keywords p).forest w).update
        (Forest.glue [.enclosed m.scope (w.slice ⟨p, q⟩)]) := by
  have hforest : (d.addWhole w keywords m ⟨p, q⟩).forest w =
      ((((d.flush w keywords p).openScope m.scope).addText ⟨p, q⟩).closeScope m.scope).forest w
      := by
    simp only [addWhole, hbegin, hkeywords, classify_none, Bool.false_eq_true, if_false]
    rfl
  rw [hforest]
  cases m.scope with
  | none => exact forest_addText w _ hpq
  | some scope =>
    rw [forest_closeScope, forest_addText _ _ hpq, forest_openScope, Forest.close_update_opened]
    rfl

end Draft

/-! ### Being at a position -/

/-- No match is left that starts in front of the position, and none is barred. -/
structure Core.At (task : Task) (ms : List Nat) (p : Nat) (c : Core) : Prop where
  modes : c.modes = ms
  barred : c.barred = []
  le : c.draft.bufferStart ≤ c.pos
  pos_le : c.pos ≤ p
  quiet : Quiet task [] ms c.pos p

/-- What is shown up to the position, with the buffer recorded. -/
def Core.shown (task : Task) (p : Nat) (c : Core) : Forest :=
  (c.draft.flush task.source (c.keywords task.grammar) p).forest task.source

namespace Core.At

theorem of_pos (hmodes : core.modes = ms) (hbarred : core.barred = []) (hpos : core.pos = p)
    (hbuffer : core.draft.bufferStart ≤ p) : core.At task ms p :=
  ⟨hmodes, hbarred, Nat.le_trans hbuffer (Nat.le_of_eq hpos.symm), Nat.le_of_eq hpos,
    hpos ▸ Quiet.refl task [] ms _⟩

theorem keywords (h : core.At task ms p) :
    core.keywords task.grammar = (contentOf task.grammar ms).keywords := by
  rw [Core.keywords, h.modes]

theorem buffer_le (h : core.At task ms p) : core.draft.bufferStart ≤ p :=
  Nat.le_trans h.le h.pos_le

theorem extend (h : core.At task ms p) (hle : p ≤ q) (hquiet : Quiet task [] ms p q) :
    core.At task ms q :=
  ⟨h.modes, h.barred, h.le, Nat.le_trans h.pos_le hle, h.quiet.trans hquiet⟩

theorem next?_eq (hsound : task.IsSound) (h : core.At task ms p) :
    core.next? task = Place.next? task [] ⟨p, ms⟩ := by
  rw [Core.next?, Core.place, h.modes, h.barred]
  exact Place.next?_of_quiet hsound h.pos_le h.quiet

theorem step (hsound : task.IsSound) (h : core.At task ms p) {f : Found}
    (hnext : Place.next? task [] ⟨p, ms⟩ = some f) : Runs task core (core.take task f) :=
  .single ⟨f, (h.next?_eq hsound).trans hnext, rfl⟩

end Core.At

/-! ### Crossings -/

/-- A scan that is at the one position comes to be at the other, and shows these nodes more. -/
def Leads (task : Task) (ms : List Nat) (a : Nat) (ms' : List Nat) (b : Nat) (ns : List Node) :
    Prop :=
  ∀ core : Core, core.At task ms a → ∃ d, Runs task core d ∧ d.At task ms' b ∧
    d.shown task b = (core.shown task a).update (Forest.glue ns)

/-- With regions of the same modes open at both ends. -/
abbrev Crosses (task : Task) (ms : List Nat) (a b : Nat) (ns : List Node) : Prop :=
  Leads task ms a ms b ns

theorem Leads.refl (task : Task) (ms : List Nat) (a : Nat) : Leads task ms a ms a [] :=
  fun core hcore => ⟨core, .refl, hcore, (Forest.update_glue_nil _).symm⟩

theorem Leads.trans (h : Leads task ms a ms' b ns) (h' : Leads task ms' b ms'' c ns') :
    Leads task ms a ms'' c (Forest.glue ns' ns) := by
  intro core hcore
  obtain ⟨d, hruns, hd, hshown⟩ := h core hcore
  obtain ⟨e, hruns', he, hshown'⟩ := h' d hd
  refine ⟨e, hruns.trans hruns', he, ?_⟩
  rw [hshown', hshown, Forest.update_glue_glue]

/-- **Where nothing matches and there are no keywords, the text is shown as it is.** -/
theorem Crosses.text (hkeywords : (contentOf task.grammar ms).keywords = none) (hab : a ≤ b)
    (hquiet : Quiet task [] ms a b) : Crosses task ms a b (task.source.textNodes a b) := by
  intro core hcore
  refine ⟨core, .refl, hcore.extend hab hquiet, ?_⟩
  rw [Core.shown, Core.shown, hcore.keywords, hkeywords, Draft.forest_flush_none,
    Draft.forest_flush_none, Forest.update_glue_glue, Forest.glue_textNodes _ hcore.buffer_le hab]

section Modes

variable (hsound : task.IsSound) (hbegin : (task.grammar.mode k).excludesBegin = false)
  (hkeywords : (task.grammar.mode k).content.keywords = none)
  (hopens : Place.next? task [] ⟨p, ms⟩ = some ⟨⟨p, q⟩, .opens k⟩)
include hsound hbegin hkeywords hopens

/-- **A mode without an end shows its text in its scope.** -/
theorem Crosses.whole (hending : (task.grammar.mode k).ending = .immediate) :
    Crosses task ms p q [.enclosed (task.grammar.mode k).scope (task.source.slice ⟨p, q⟩)] := by
  intro core hcore
  have hlt : p < q := Place.lt_of_next? hsound hopens rfl
  have htake : core.take task ⟨⟨p, q⟩, .opens k⟩ =
      core.takeWhole task (task.grammar.mode k) ⟨p, q⟩ := if_pos hending
  have hbuffer : (core.take task ⟨⟨p, q⟩, .opens k⟩).draft.bufferStart = q := by
    rw [htake]
    simp only [Core.takeWhole, Draft.addWhole, hbegin, Bool.false_eq_true, if_false]
  refine ⟨_, hcore.step hsound hopens, .of_pos ?_ ?_ ?_ (Nat.le_of_eq hbuffer), ?_⟩
  · rw [htake]
    exact hcore.modes
  · rw [htake]
    exact hcore.barred
  · rw [htake]
    rfl
  · rw [Core.shown, Draft.flush_self _ _ _ (Nat.le_of_eq hbuffer.symm), htake]
    exact Draft.forest_addWhole task.source core.draft hbegin hkeywords hlt

/-- A region opens, and its opening is the first text in it. -/
theorem exists_opened (hending : (task.grammar.mode k).ending ≠ .immediate)
    (hscope : (task.grammar.mode k).scope = some scope) (hcore : core.At task ms p) :
    ∃ d, Runs task core d ∧ d.At task (k :: ms) q ∧
      d.shown task q = Forest.update { core.shown task p with
        scopes := (scope, []) :: (core.shown task p).scopes }
          (Forest.glue (task.source.textNodes p q)) := by
  have hlt : p < q := Place.lt_of_next? hsound hopens rfl
  have htake : core.take task ⟨⟨p, q⟩, .opens k⟩ = core.openRegion task k ⟨p, q⟩ := if_neg hending
  have hmodes : (core.take task ⟨⟨p, q⟩, .opens k⟩).modes = k :: ms := by
    rw [htake, ← hcore.modes]
    rfl
  have hdraft : (core.take task ⟨⟨p, q⟩, .opens k⟩).draft =
      (core.draft.flush task.source (core.keywords task.grammar) p).openScope (some scope) := by
    rw [htake, Core.openRegion, ← hscope]
    show (core.draft.flush _ _ (if (task.grammar.mode k).excludesBegin then q else p)).openScope
      _ = _
    rw [hbegin]
    rfl
  have hbuffer : (core.take task ⟨⟨p, q⟩, .opens k⟩).draft.bufferStart = p := by
    rw [hdraft]
    exact Draft.bufferStart_flush ..
  refine ⟨_, hcore.step hsound hopens, .of_pos hmodes ?_ ?_ ?_, ?_⟩
  · rw [htake]
    exact hcore.barred
  · rw [htake]
    rfl
  · rw [hbuffer]
    exact Nat.le_of_lt hlt
  · have hnone : (core.take task ⟨⟨p, q⟩, .opens k⟩).keywords task.grammar = none := by
      rw [Core.keywords, hmodes]
      exact hkeywords
    rw [Core.shown, hnone, Draft.forest_flush_none, hbuffer, hdraft, Draft.forest_openScope,
      Core.shown]

/-- A region closes, and nothing is left to record of it. -/
theorem exists_closed {e t : Nat} (hending : (task.grammar.mode k).ending = .pattern t)
    (hscope : (task.grammar.mode k).scope = some scope)
    (hend : (task.grammar.mode k).excludesEnd = false)
    (hparent : (task.grammar.mode k).endsParent = false) (hinside : Crosses task (k :: ms) q e ns)
    (hcloses : Place.next? task [] ⟨e, k :: ms⟩ = some ⟨⟨e, r⟩, .closes 0⟩)
    (hcore : core.At task ms p) :
    ∃ d, Runs task core d ∧ d.At task ms r ∧ d.draft.bufferStart = r ∧
      d.shown task r = (core.shown task p).update (Forest.glue [.region scope
        (Forest.glue (task.source.textNodes e r)
          (Forest.glue ns (task.source.textNodes p q))).reverse]) := by
  obtain ⟨d, hruns, hd, hshown⟩ := exists_opened hsound hbegin hkeywords hopens
    (by rw [hending]; exact nofun) hscope hcore
  obtain ⟨e', hruns', he, hshown'⟩ := hinside d hd
  have hle : e ≤ r := (Place.next?_within hsound hcloses).2.1
  have hmodes : e'.modes = k :: ms := he.modes
  have hcount : State.closedBy task.grammar e'.modes 0 = 1 := by
    rw [hmodes, State.closedBy, List.drop_zero, State.closedWith, hparent]
    rfl
  have hedge : State.closingEdge task.grammar e'.modes ⟨e, r⟩ = r := by
    rw [hmodes, State.closingEdge, hend]
    rfl
  have htake : e'.take task ⟨⟨e, r⟩, .closes 0⟩ =
      { e' with
        draft := (e'.draft.flush task.source none r).closeRegion (task.grammar.mode k)
        entries := e'.entries.drop 1
        pos := r } := by
    show e'.closes task 0 ⟨e, r⟩ = _
    have hnone : e'.keywords task.grammar = none := he.keywords.trans hkeywords
    simp only [Core.closes, hcount, hedge, hnone]
    rw [hmodes]
    rfl
  have hbuffer : (e'.take task ⟨⟨e, r⟩, .closes 0⟩).draft.bufferStart = r := by
    rw [htake]
    exact Draft.bufferStart_flush ..
  refine ⟨_, hruns.trans (hruns'.trans (he.step hsound hcloses)),
    .of_pos ?_ ?_ ?_ (Nat.le_of_eq hbuffer), hbuffer, ?_⟩
  · have hdrop : e'.modes.drop 1 = ms := by rw [hmodes, List.drop_one, List.tail_cons]
    rw [htake, ← hdrop]
    exact List.map_drop
  · rw [htake]
    exact he.barred
  · rw [htake]
  · -- the text up to the end is shown in the region
    have hinner : (e'.draft.flush task.source none r).forest task.source =
        (e'.shown task e).update (Forest.glue (task.source.textNodes e r)) := by
      rw [Core.shown, he.keywords, show (contentOf task.grammar (k :: ms)).keywords = none from
        hkeywords, Draft.forest_flush_none, Draft.forest_flush_none, Forest.update_glue_glue,
        Forest.glue_textNodes _ he.buffer_le hle]
    have hclosed : (e'.take task ⟨⟨e, r⟩, .closes 0⟩).draft.forest task.source =
        ((e'.draft.flush task.source none r).forest task.source).close := by
      rw [htake, ← Draft.forest_closeScope task.source _ scope, ← hscope]
      rfl
    rw [Core.shown, Draft.flush_self _ _ _ (Nat.le_of_eq hbuffer.symm), hclosed, hinner, hshown',
      hshown, Forest.update_glue_glue, Forest.update_glue_glue, Forest.close_update_opened,
      Forest.glue_glue, Forest.glue_glue, Forest.glue_nil]

/-- **A region shows what is crossed in it, with its opening and its end around.** -/
theorem Crosses.region {e t : Nat} (hending : (task.grammar.mode k).ending = .pattern t)
    (hscope : (task.grammar.mode k).scope = some scope)
    (hend : (task.grammar.mode k).excludesEnd = false)
    (hparent : (task.grammar.mode k).endsParent = false) (hinside : Crosses task (k :: ms) q e ns)
    (hcloses : Place.next? task [] ⟨e, k :: ms⟩ = some ⟨⟨e, r⟩, .closes 0⟩) :
    Crosses task ms p r [.region scope (Forest.glue (task.source.textNodes e r)
      (Forest.glue ns (task.source.textNodes p q))).reverse] := by
  intro core hcore
  obtain ⟨d, hruns, hd, -, hshown⟩ := exists_closed hsound hbegin hkeywords hopens hending hscope
    hend hparent hinside hcloses hcore
  exact ⟨d, hruns, hd, hshown⟩

end Modes

/-! ### Whole texts -/

theorem start_at (task : Task) : (State.start task.grammar).core.At task [] 0 :=
  .of_pos rfl rfl rfl (Nat.le_refl 0)

theorem shown_start (task : Task) : (State.start task.grammar).core.shown task 0 = Forest.empty :=
  Draft.flush_self _ _ _ (Nat.le_refl 0)

section Whole

variable {g : Grammar} {text : String} {options : Options}
  (hsound : (Scan.task g (Source.ofString text) options).IsSound)
include hsound

/-- What is shown in the end gives the nodes. -/
theorem nodes_of_runs (hruns : Runs (Scan.task g (Source.ofString text) options)
      (State.start g).core d)
    (hend : d.next? (Scan.task g (Source.ofString text) options) = none)
    (hforest : (d.closed (Scan.task g (Source.ofString text) options)).forest
      (Source.ofString text) = ⟨ns, []⟩) : (g.highlight text options).nodes = ns.reverse := by
  rw [highlight_eq_result_of_runs hsound hruns hend, Core.nodes_result]
  show ((Draft.forest _ _).closeMany (Draft.forest _ _).scopes.length).top.reverse = _
  rw [show (Scan.task g (Source.ofString text) options).source = Source.ofString text from rfl,
    hforest]
  rfl

/-- Behind a stretch where nothing matches, the nodes of a text go on with those of the crossing of
the rest. -/
theorem nodes_of_crosses_behind
    (hquiet : Quiet (Scan.task g (Source.ofString text) options) [] [] 0 p)
    (hshown : (State.start g).core.shown (Scan.task g (Source.ofString text) options) p = ⟨ns', []⟩)
    (h : Crosses (Scan.task g (Source.ofString text) options) [] p (Source.ofString text).size
      ns) : (g.highlight text options).nodes = (Forest.glue ns ns').reverse := by
  obtain ⟨d, hruns, hd, hforest⟩ := h _ ((start_at _).extend (Nat.zero_le p) hquiet)
  have hend : d.next? (Scan.task g (Source.ofString text) options) = none :=
    (hd.next?_eq hsound).trans (Place.next?_at_end hsound [])
  refine nodes_of_runs hsound hruns hend ?_
  rw [Core.closed, hd.modes]
  show d.shown (Scan.task g (Source.ofString text) options) (Source.ofString text).size = _
  rw [hforest]
  exact congrArg (Forest.update · (Forest.glue ns)) hshown

/-- **The nodes of a text are those of its crossing.** -/
theorem nodes_of_crosses
    (h : Crosses (Scan.task g (Source.ofString text) options) [] 0 (Source.ofString text).size
      ns) : (g.highlight text options).nodes = ns.reverse := by
  rw [nodes_of_crosses_behind hsound (.refl _ _ _ _) (shown_start _) h, Forest.glue_nil]

/-- **A region that is open from the start to the end of a text is its only node.** -/
theorem nodes_of_opened (hbegin : (g.mode k).excludesBegin = false)
    (hkeywords : (g.mode k).content.keywords = none) (hending : (g.mode k).ending ≠ .immediate)
    (hscope : (g.mode k).scope = some scope)
    (hopens : Place.next? (Scan.task g (Source.ofString text) options) [] ⟨0, []⟩ =
      some ⟨⟨0, q⟩, .opens k⟩)
    (hinside : Crosses (Scan.task g (Source.ofString text) options) [k] q
      (Source.ofString text).size ns)
    (hend : Place.next? (Scan.task g (Source.ofString text) options) []
      ⟨(Source.ofString text).size, [k]⟩ = none) :
    (g.highlight text options).nodes =
      [.region scope (Forest.glue ns ((Source.ofString text).textNodes 0 q)).reverse] := by
  obtain ⟨c, hopened, hc, hshown⟩ := exists_opened hsound hbegin hkeywords hopens hending hscope
    (start_at _)
  obtain ⟨d, hruns, hd, hshown'⟩ := hinside c hc
  show (g.highlight text options).nodes = [_].reverse
  refine nodes_of_runs hsound (hopened.trans hruns) ((hd.next?_eq hsound).trans hend) ?_
  have hclosed : (d.closed (Scan.task g (Source.ofString text) options)).forest
      (Source.ofString text) =
        (d.shown (Scan.task g (Source.ofString text) options)
          (Source.ofString text).size).close := by
    rw [Core.closed, hd.modes, List.foldl_cons, List.foldl_nil,
      show ((Scan.task g (Source.ofString text) options).grammar.mode k).scope = some scope from
        hscope]
    exact Draft.forest_closeScope _ _ scope
  rw [hclosed, hshown', hshown, shown_start, Forest.update_glue_glue, Forest.close_update_opened,
    Forest.glue_glue, Forest.glue_nil]
  rfl

end Whole

end Scan

end Highlighting
