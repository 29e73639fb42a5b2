/-
  Highlighting/Proofs/Scan/Seam/Delimiters.lean
  =============================================
  **A delimiter that a region leaves to the text around it.**

  The match that ends a region may be left out of it.  Its text then belongs to
  the region around, but the scan goes on behind it, so that nothing opens there
  (`HandsBack`).

  When a region without a scope is open at the end of a text, and a character
  behind it is such an end, then that character is a leaf without a scope behind
  the leaves of the text (`HandsBack.leaves_behind`).  When no pattern sees over
  the character, either, the scan comes to a seam (`HandsBack.arrives`), and what
  is behind it has the leaves that it has by itself (`leaves_of_handsBack`).

  A text may start with such a character, too: if nothing opens there
  (`StandsAlone`), it is a leaf without a scope ahead of what it is in front of
  (`leaves_of_standsAlone`).
-/
import Highlighting.Proofs.Scan.Numbers
import Highlighting.Proofs.Scan.Seam.Joined
import Highlighting.Proofs.Scan.Stretches

namespace Highlighting

theorem Source.endsWith_append_single (u : Source) (c : Char) : (u ++ #[c]).EndsWith c := by
  rw [EndsWith, Array.size_append]
  exact (getElem?_append_add u #[c] 0).trans rfl

namespace Scan

open EventLog (Forest)

/-- A region of the mode opens in the text and stays open up to its end.  The character ends the
region there, whatever comes behind it, and is not a part of it. -/
structure HandsBack (g : Grammar) (options : Options) (u : Source) (c : Char) (k p q : Nat) :
    Prop where
  opens : ∀ v : Source, v = #[] ∨ v[0]? = some c →
    Place.next? (task g (u ++ v) options) [] ⟨0, []⟩ = some ⟨⟨p, q⟩, .opens k⟩
  stays : Place.next? (task g u options) [] ⟨q, [k]⟩ = none
  closes : ∀ v : Source, Place.next? (task g (u ++ (#[c] ++ v)) options) [] ⟨q, [k]⟩ =
    some ⟨⟨u.size, u.size + 1⟩, .closes 0⟩
  ending : (g.mode k).ending ≠ .immediate
  scope : (g.mode k).scope = none
  excludesEnd : (g.mode k).excludesEnd = true
  endsParent : (g.mode k).endsParent = false

/-- Outside of regions names are cut out of the text, none of which has the character. -/
structure NamesLack (g : Grammar) (c : Char) : Prop where
  exists_names : ∃ table first rest, g.root.keywords = some table ∧
    table.lexeme = .listing (.name first rest) ∧
    (Matcher.listing (.name first rest)).staysInLine = true ∧
    first.contains c = false ∧ rest.contains c = false

namespace NamesLack

variable {g : Grammar} {c : Char} (h : NamesLack g c)
include h

/-- The character is recorded as its text. -/
theorem forest_flush : (Draft.empty.flush #[c] g.root.keywords 1).forest #[c] =
    ⟨[.text (String.singleton c)], []⟩ := by
  obtain ⟨table, first, rest, hkeywords, hlexeme, hstays, hfirst, -⟩ := h.exists_names
  have hrecords : Records #[c] (some table) 0 1 [.text (.ofList [c])] :=
    .of_char hlexeme hstays rfl hfirst
  rw [hkeywords, hrecords.flush rfl]
  rfl

theorem grown_flush : (Draft.empty.flush #[c] g.root.keywords 1).Grown #[c] 0 := by
  have hforest := h.forest_flush
  refine ⟨⟨?_, ?_⟩, ?_⟩
  · intro n hn
    rw [hforest] at hn
    obtain rfl := List.mem_singleton.mp hn
    exact .text _
  · rw [hforest]
    rfl
  · rw [hforest]
    exact .inl rfl

end NamesLack

namespace HandsBack

variable {g : Grammar} {options : Options} {u v : Source} {c : Char} {k p q : Nat}

/-- The core in the region. -/
def inside (g : Grammar) (options : Options) (w : Source) (k p q : Nat) : Core :=
  (State.start g).core.take (task g w options) ⟨⟨p, q⟩, .opens k⟩

/-- The core behind the end of the region. -/
def behind (g : Grammar) (options : Options) (w : Source) (k p q n : Nat) : Core :=
  (inside g options w k p q).take (task g w options) ⟨⟨n, n + 1⟩, .closes 0⟩

theorem nothing_or_first (c : Char) (v : Source) :
    (#[c] ++ v : Source) = #[] ∨ (#[c] ++ v : Source)[0]? = some c :=
  .inr (Array.getElem?_append_left Nat.one_pos)

theorem barred_inside (w : Source) : (inside g options w k p q).barred = [] :=
  Core.take_barred_of_ne (by simp) _

theorem barred_behind (w : Source) (n : Nat) : (behind g options w k p q n).barred = [] :=
  (Core.take_barred_of_ne (by simp) _).trans (barred_inside w)

variable (h : HandsBack g options u c k p q)
include h

theorem place_inside (w : Source) : (inside g options w k p q).place = ⟨q, [k]⟩ := by
  have htake : inside g options w k p q =
      (State.start g).core.openRegion (task g w options) k ⟨p, q⟩ := if_neg h.ending
  rw [htake]
  rfl

theorem closedBy_eq : State.closedBy g [k] 0 = 1 := by
  simp [State.closedBy, State.closedWith, h.endsParent]

theorem entries_behind (w : Source) (n : Nat) : (behind g options w k p q n).entries = [] := by
  have hmodes : (inside g options w k p q).modes = [k] := congrArg Place.modes (h.place_inside w)
  have hlength : (inside g options w k p q).entries.length = 1 := by
    rw [← List.length_map (·.mode)]
    exact congrArg List.length hmodes
  have hcount : State.closedBy g (inside g options w k p q).modes 0 = 1 := by
    rw [hmodes, h.closedBy_eq]
  show (inside g options w k p q).entries.drop
    (State.closedBy g (inside g options w k p q).modes 0) = []
  rw [hcount]
  exact List.drop_eq_nil_of_le (Nat.le_of_eq hlength)

theorem modes_behind (w : Source) (n : Nat) : (behind g options w k p q n).modes = [] := by
  rw [Core.modes, h.entries_behind, List.map_nil]

/-- The text in the region is recorded up to its end. -/
theorem draft_behind (w : Source) (n : Nat) : (behind g options w k p q n).draft =
    (((inside g options w k p q).draft.flush w
      ((inside g options w k p q).keywords g) n).closeRegion (g.mode k)) := by
  have hmodes : (inside g options w k p q).modes = [k] := congrArg Place.modes (h.place_inside w)
  show Draft.closeRegions w _ (State.closingEdge g (inside g options w k p q).modes ⟨n, n + 1⟩)
    (((inside g options w k p q).modes.take
      (State.closedBy g (inside g options w k p q).modes 0)).map g.mode) _ = _
  rw [hmodes, h.closedBy_eq, State.closingEdge, h.excludesEnd]
  rfl

theorem bufferStart_behind (w : Source) (n : Nat) :
    (behind g options w k p q n).draft.bufferStart = n := by
  rw [h.draft_behind, Draft.closeRegion, h.scope]
  exact Draft.bufferStart_flush ..

/-- The scan comes to be behind the end, with no region open. -/
theorem runs (v : Source) : Runs (task g (u ++ (#[c] ++ v)) options) (State.start g).core
    (behind g options (u ++ (#[c] ++ v)) k p q u.size) := by
  have hopens := h.opens (#[c] ++ v) (nothing_or_first c v)
  refine (Relation.ReflTransGen.single ⟨_, hopens, rfl⟩).tail ⟨_, ?_, rfl⟩
  rw [Core.next?, barred_inside, h.place_inside]
  exact h.closes v

theorem opens_self : Place.next? (task g u options) [] ⟨0, []⟩ = some ⟨⟨p, q⟩, .opens k⟩ := by
  have hopens := h.opens #[] (.inl rfl)
  rwa [Array.append_empty] at hopens

/-- By itself the text ends in the region. -/
theorem runs_inside : Runs (task g u options) (State.start g).core (inside g options u k p q) ∧
    (inside g options u k p q).next? (task g u options) = none := by
  refine ⟨.single ⟨_, h.opens_self, rfl⟩, ?_⟩
  rw [Core.next?, barred_inside, h.place_inside]
  exact h.stays

theorem closed_inside : (inside g options u k p q).closed (task g u options) =
    (inside g options u k p q).draft.flush u ((inside g options u k p q).keywords g) u.size := by
  have hmodes : (inside g options u k p q).modes = [k] := congrArg Place.modes (h.place_inside u)
  rw [Core.closed, hmodes, List.foldl_cons, List.foldl_nil]
  show Draft.closeScope _ (g.mode k).scope = _
  rw [h.scope]
  rfl

variable (hsound : ∀ source, (task g source options).IsSound)
include hsound

/-- Nothing comes next behind the delimiter when that is the last character. -/
theorem next?_behind :
    (behind g options (u ++ #[c]) k p q u.size).next? (task g (u ++ #[c]) options) = none := by
  have hplace : (behind g options (u ++ #[c]) k p q u.size).place =
      ⟨(task g (u ++ #[c]) options).source.size, []⟩ := by
    have hsize : (u ++ #[c]).size = u.size + 1 := Array.size_append
    rw [Core.place, h.modes_behind]
    exact congrArg (Place.mk · []) hsize.symm
  rw [Core.next?, hplace]
  exact Place.next?_at_end (hsound _) _

/-! ### The delimiter -/

/-- The text with the delimiter behind. -/
def frontPlacement (u : Source) (c : Char) : Placement :=
  { part := u, whole := u ++ #[c], start := 0, top := [], illegal := false,
    stands := Source.standsAt_front u #[c] }

/-- What is recorded in the region of the text by itself is recorded with the delimiter behind. -/
theorem alongside_inside : Draft.Alongside (frontPlacement u c)
    ((inside g options u k p q).closed (task g u options))
    ((inside g options (u ++ #[c]) k p q).draft.flush (u ++ #[c])
      ((inside g options (u ++ #[c]) k p q).keywords g) u.size) := by
  obtain ⟨-, hle, hsize⟩ := Place.next?_within (hsound u) h.opens_self
  have hstart : (State.start g).core.Alongside g (frontPlacement u c) (State.start g).core :=
    .of_draft rfl ⟨rfl, rfl, rfl⟩
  have hshift : Found.shift 0 ⟨⟨p, q⟩, .opens k⟩ = ⟨⟨p, q⟩, .opens k⟩ := by
    rw [Found.shift, Span.shift, Nat.zero_add, Nat.zero_add]
  have htake : (inside g options u k p q).Alongside g (frontPlacement u c)
      ((State.start g).core.take (task g (u ++ #[c]) options)
        (Found.shift 0 ⟨⟨p, q⟩, .opens k⟩)) :=
    hstart.take (Found.isOnward_of_ne (by simp)) hle hsize (by simp)
  rw [hshift] at htake
  have hkeywords : (inside g options (u ++ #[c]) k p q).keywords g =
      (inside g options u k p q).keywords g := htake.keywords_eq
  have hflush : Draft.Alongside (frontPlacement u c)
      ((inside g options u k p q).draft.flush u ((inside g options u k p q).keywords g) u.size)
      ((inside g options (u ++ #[c]) k p q).draft.flush (u ++ #[c])
        ((inside g options u k p q).keywords g) (0 + u.size)) := htake.flush u.size (Nat.le_refl _)
  rw [Nat.zero_add] at hflush
  rw [h.closed_inside, hkeywords]
  exact hflush

/-- The delimiter, behind what the text shows by itself. -/
def placement (g : Grammar) (options : Options) (u : Source) (c : Char) (k p q : Nat) :
    Placement :=
  let closed := (inside g options u k p q).closed (task g u options)
  { part := #[c], whole := u ++ #[c], start := u.size, top := (closed.forest u).top,
    illegal := closed.illegal, stands := Source.standsAt_rest u #[c] }

variable (hg : g.ScopesBegin)
include hg

theorem grown_closed : ((inside g options u k p q).closed (task g u options)).Grown u 0 := by
  have hgrowing : (inside g options u k p q).Growing (task g u options) :=
    (Core.Growing.start (task g u options)).take hg (hsound u) h.opens_self
      (Found.isOnward_of_ne nofun)
  refine hgrowing.closed hg ?_
  rw [show (inside g options u k p q).pos = q from congrArg Place.pos (h.place_inside u)]
  exact (Place.next?_within (hsound u) h.opens_self).2.2

/-- Behind the region nothing more is recorded than the text shows by itself. -/
theorem alongside_behind : Draft.empty.Alongside (placement g options u c k p q)
    (behind g options (u ++ #[c]) k p q u.size).draft := by
  have hinside := h.alongside_inside (c := c) hsound
  have hscopes : (((inside g options u k p q).closed (task g u options)).forest u).scopes = [] :=
    List.length_eq_zero_iff.mp (h.grown_closed hsound hg).depth
  refine ⟨h.bufferStart_behind _ _, ?_, ?_⟩
  · rw [h.draft_behind, Draft.closeRegion, h.scope]
    refine hinside.forest.trans ((Forest.onto_nil _).trans ?_)
    show (((inside g options u k p q).closed (task g u options)).forest u) =
      (⟨(((inside g options u k p q).closed (task g u options)).forest u).top, []⟩ : Forest)
    rw [← hscopes]
  · rw [h.draft_behind, Draft.closeRegion, h.scope]
    exact (hinside.illegal.trans (Bool.false_or _)).trans (Bool.or_false _).symm

variable (hnames : NamesLack g c)
include hnames

/-- **The delimiter is a leaf without a scope** behind the leaves of the text. -/
theorem leaves_behind :
    ((behind g options (u ++ #[c]) k p q u.size).result (task g (u ++ #[c]) options)).leaves =
      Token.join ((inside g options u k p q).result (task g u options)).leaves
        [⟨none, String.singleton c⟩] := by
  have hgrown := h.grown_closed hsound hg
  have hmodes := h.modes_behind (u ++ #[c]) u.size
  have hsize : (u ++ #[c]).size = u.size + 1 := Array.size_append
  have hclosed : (behind g options (u ++ #[c]) k p q u.size).closed (task g (u ++ #[c]) options) =
      (behind g options (u ++ #[c]) k p q u.size).draft.flush (u ++ #[c]) g.root.keywords
        (u.size + 1) := by
    rw [Core.closed, Core.keywords, hmodes, ← hsize]
    rfl
  have hflush := (h.alongside_behind hsound hg).flush g.root.keywords
    (show 1 ≤ (#[c] : Source).size from Nat.le_refl 1)
  have hleaves := hflush.leaves hnames.grown_flush hgrown.leafy
  have hnodes : ((inside g options u k p q).closed (task g u options)).events.nodes
      (task g u options).source =
        (((inside g options u k p q).closed (task g u options)).forest u).top.reverse :=
    hgrown.toLeafy.nodes_eq
  rw [Highlighted.leaves, Core.nodes_result, hclosed, Highlighted.leaves, Core.nodes_result, hnodes]
  refine hleaves.trans (congrArg (Token.join _) ?_)
  show Node.allLeavesIn none ((Draft.empty.flush #[c] g.root.keywords 1).events.nodes #[c]) = _
  rw [hnames.grown_flush.toLeafy.nodes_eq, hnames.forest_flush]
  rfl

end HandsBack

/-! ### What is behind the delimiter -/

section Seam

variable {g : Grammar} {options : Options} {u v : Source} {c : Char} {k p q : Nat}
  (hsound : ∀ source, (task g source options).IsSound)
  (hbehind : ∀ t ∈ g.terminals, t.pattern.isListed = true ∧ t.pattern.startsBehind c = true)

/-- The seam behind a delimiter, over which no pattern sees. -/
def Seam.ofDelimiter (u v : Source) : Seam :=
  { grammar := g, options, front := u ++ #[c], rest := v, sound := hsound
    behind := fun t ht =>
      Pattern.endAt?_append_add_of_startsBehind (Source.endsWith_append_single u c)
      (hbehind t ht).1 (hbehind t ht).2 }

/-- **The delimiter may be recorded at the seam**, for no name gets over it. -/
theorem NamesLack.parts (hnames : NamesLack g c) {start : Nat} (hstart : start ≤ u.size + 1) :
    (Seam.ofDelimiter hsound hbehind u v).Parts start := by
  obtain ⟨table, first, rest, hkeywords, hlexeme, hstays, hnot⟩ := hnames.exists_names
  have hsize : (u ++ #[c]).size = u.size + 1 := Array.size_append
  have hlast : (u ++ #[c] ++ v)[u.size]? = some c :=
    (Array.getElem?_append_left (by omega)).trans (Source.getElem?_append_add u #[c] 0)
  have hsep : (u ++ #[c] ++ v).Separates g.root.keywords (u ++ #[c]).size := by
    rw [hkeywords, hsize]
    exact separates_of_gap hlexeme hstays (.inr ⟨u.size, c, rfl, hlast, hnot⟩)
  intro d hd stop hstop
  have hle : (u ++ #[c]).size + stop ≤ (u ++ #[c] ++ v).size := by
    have htotal : (u ++ #[c] ++ v).size = (u ++ #[c]).size + v.size := Array.size_append
    have hstop' : stop ≤ v.size := hstop
    omega
  have hbuffer : d.bufferStart ≤ (u ++ #[c]).size := by omega
  exact Draft.flush_flush hsep hbuffer (Nat.le_add_right _ _) hle

/-- **The scan comes to the seam**, with the delimiter in the buffer. -/
theorem HandsBack.arrives (h : HandsBack g options u c k p q) :
    (Seam.ofDelimiter hsound hbehind u v).Arrives
      (HandsBack.behind g options (u ++ #[c]) k p q u.size) := by
  have hsize : (u ++ #[c]).size = u.size + 1 := Array.size_append
  obtain ⟨-, hle, hstop⟩ := Place.next?_within (hsound u) h.opens_self
  have hstop' : q ≤ u.size := hstop
  -- with the rest behind, the same is taken
  have hinside : inside g options (u ++ #[c] ++ v) k p q = inside g options (u ++ #[c]) k p q :=
    Seam.take_front (s := Seam.ofDelimiter hsound hbehind u v) hle
      (show q ≤ (u ++ #[c]).size by omega) nofun
  have hsame : behind g options (u ++ #[c] ++ v) k p q u.size =
      behind g options (u ++ #[c]) k p q u.size := by
    rw [behind, hinside]
    exact Seam.take_front (s := Seam.ofDelimiter hsound hbehind u v) (Nat.le_succ _)
      (show u.size + 1 ≤ (u ++ #[c]).size by omega) nofun
  have hfront := h.runs #[]
  have hwhole := h.runs v
  rw [Array.append_empty] at hfront
  rw [← Array.append_assoc, hsame] at hwhole
  refine ⟨hfront, h.next?_behind hsound, hwhole, h.entries_behind _ _, Nat.le_of_eq hsize.symm,
    ?_, ?_⟩
  · intro b hb
    rw [barred_behind] at hb
    cases hb
  · show Quiet _ _ [] (u.size + 1) (u ++ #[c]).size
    rw [hsize]
    exact Quiet.refl _ _ _ _

include hsound hbehind in
/-- **The delimiter is a leaf without a scope, and what is behind it has the leaves that it has by
itself.** -/
theorem leaves_of_handsBack {x : String} (y : String) (hg : g.ScopesBegin) (hnames : NamesLack g c)
    (h : HandsBack g options (Source.ofString x) c k p q) :
    (g.highlight (x ++ String.singleton c ++ y) options).leaves =
      Token.join (Token.join (g.highlight x options).leaves [⟨none, String.singleton c⟩])
        (g.highlight y options).leaves := by
  have hfront : Source.ofString (x ++ String.singleton c) = Source.ofString x ++ #[c] := by
    rw [Source.ofString_append, Source.ofString, Source.ofString, String.toList_singleton]
  have hjoined : (g.highlight (x ++ String.singleton c ++ y) options).leaves =
      Token.join (g.highlight (x ++ String.singleton c) options).leaves
        (g.highlight y options).leaves :=
    (Seam.highlight_joined (s := Seam.ofDelimiter hsound hbehind _ (.ofString y)) hfront.symm rfl
      (h.arrives hsound hbehind) hg
      (h.bufferStart_behind _ _ ▸ hnames.parts hsound hbehind (Nat.le_succ _))).1
  have hdelimiter : (g.highlight (x ++ String.singleton c) options).leaves =
      Token.join (g.highlight x options).leaves [⟨none, String.singleton c⟩] := by
    have hruns := h.runs #[]
    have hend := h.next?_behind hsound
    have hleaves := h.leaves_behind hsound hg hnames
    rw [Array.append_empty] at hruns
    rw [← hfront] at hruns hend hleaves
    rw [highlight_eq_result_of_runs (hsound _) hruns hend,
      highlight_eq_result_of_runs (hsound _) h.runs_inside.1 h.runs_inside.2]
    exact hleaves
  rw [hjoined, hdelimiter]

/-! ### Delimiters at the start -/

/-- Nothing opens at the character when it is the first one of a text: nothing starts there, or it
is illegal. -/
def StandsAlone (g : Grammar) (options : Options) (c : Char) : Prop :=
  (∀ v, Quiet (task g (#[c] ++ v) options) [] [] 0 1) ∨
    ∀ v, Place.next? (task g (#[c] ++ v) options) [] ⟨0, []⟩ = some ⟨⟨0, 1⟩, .illegal⟩

include hsound in
/-- **Such a character is recorded as text**, and the scan goes on behind it. -/
theorem StandsAlone.exists_arrives (h : StandsAlone g options c) (hnames : NamesLack g c)
    (v : Source) : ∃ a, (Seam.ofDelimiter hsound hbehind #[] v).Arrives a ∧
      a.draft.bufferStart ≤ 1 ∧
      (a.result (task g #[c] options)).leaves = [⟨none, String.singleton c⟩] := by
  rcases h with hquiet | hillegal
  · have hend : (State.start g).core.next? (task g #[c] options) = none :=
      (Place.next?_of_quiet (hsound _) (Nat.zero_le 1) (hquiet #[])).trans
        (Place.next?_at_end (hsound _) _)
    refine ⟨(State.start g).core, ⟨.refl, hend, .refl, rfl, Nat.zero_le 1, nofun, hquiet v⟩,
      Nat.zero_le 1, ?_⟩
    show Node.allLeavesIn none ((Draft.empty.flush #[c] g.root.keywords 1).events.nodes #[c]) = _
    rw [hnames.grown_flush.toLeafy.nodes_eq, hnames.forest_flush]
    rfl
  · -- what is illegal is passed over, as a text of its own
    have htake : (State.start g).core.take (task g (#[] ++ #[c] ++ v) options)
        ⟨⟨0, 1⟩, .illegal⟩ = (State.start g).core.take (task g (#[] ++ #[c]) options)
          ⟨⟨0, 1⟩, .illegal⟩ :=
      Seam.take_front (s := Seam.ofDelimiter hsound hbehind #[] v)
        (Nat.zero_le 1) (Nat.le_refl 1) fun _ => Nat.one_pos
    refine ⟨(State.start g).core.take (task g #[c] options) ⟨⟨0, 1⟩, .illegal⟩,
      { front := .single ⟨_, hillegal #[], rfl⟩
        front_end := Place.next?_at_end (hsound #[c]) []
        whole := .single ⟨_, hillegal v, htake.symm⟩
        root := rfl
        pos_le := Nat.le_refl 1
        barred := nofun
        quiet := Quiet.refl _ _ _ _ }, Nat.le_refl 1, rfl⟩

include hsound hbehind in
/-- **It is a leaf without a scope ahead of the others.** -/
theorem leaves_of_standsAlone (hg : g.ScopesBegin) (hnames : NamesLack g c)
    (h : StandsAlone g options c) (y : String) :
    (g.highlight (String.singleton c ++ y) options).leaves =
      Token.join [⟨none, String.singleton c⟩] (g.highlight y options).leaves := by
  obtain ⟨a, harrives, hbuffer, hleaves⟩ :=
    h.exists_arrives hsound hbehind hnames (Source.ofString y)
  have hone : Source.ofString (String.singleton c) = #[c] := by
    rw [Source.ofString, String.toList_singleton]
  have hjoined : (g.highlight (String.singleton c ++ y) options).leaves =
      Token.join (g.highlight (String.singleton c) options).leaves
        (g.highlight y options).leaves :=
    (Seam.highlight_joined (s := Seam.ofDelimiter hsound hbehind #[] (.ofString y)) hone.symm rfl
      harrives hg (hnames.parts hsound hbehind hbuffer)).1
  have hruns : Runs (task g #[c] options) (State.start g).core a := harrives.front
  have hend : a.next? (task g #[c] options) = none := harrives.front_end
  rw [← hone] at hruns hend hleaves
  rw [hjoined, highlight_eq_result_of_runs (hsound _) hruns hend, hleaves]

end Seam

end Scan

end Highlighting
