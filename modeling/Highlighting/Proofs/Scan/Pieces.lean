/-
  Highlighting/Proofs/Scan/Pieces.lean
  ====================================
  **The nodes of a log with their owners.**

  A tree of nodes does not tell which region a scope is of.  A piece is a node
  that does: the fold that turns an event log into nodes, made over marks
  instead, gives pieces (`pieces`), and dropping the owners gives the nodes of
  the log (`nodes_eq_pieces`).

  Where the brackets fit, every pair of them is one piece, which lies inside the
  scopes that are unclosed in front of it and has the text of the marks between
  (`exists_lies_pieces`); read from left to right, pieces have the owners in the
  order in which their scopes open (`ownersAmong_pieces`).
-/
import Highlighting.Proofs.Scan.Brackets

namespace Highlighting.Scan

/-- A node, with the owner of its scope. -/
inductive Piece where
  | text (s : String)
  | region (owner : Option Nat) (scope : Scope) (children : List Piece)

namespace Piece

mutual

def node : Piece → Node
  | text s => .text s
  | region _ scope children => .region scope (nodes children)

def nodes : List Piece → List Node
  | [] => []
  | p :: ps => p.node :: nodes ps

end

mutual

/-- The regions that scopes belong to, from left to right. -/
def owners : Piece → List Nat
  | text _ => []
  | region owner _ children => owner.toList ++ ownersAmong children

def ownersAmong : List Piece → List Nat
  | [] => []
  | p :: ps => p.owners ++ ownersAmong ps

end

theorem nodes_eq_map (ps : List Piece) : nodes ps = ps.map node := by
  induction ps with
  | nil => rfl
  | cons p ps ih => rw [nodes, ih, List.map_cons]

theorem ownersAmong_append (ps qs : List Piece) :
    ownersAmong (ps ++ qs) = ownersAmong ps ++ ownersAmong qs := by
  induction ps with
  | nil => rfl
  | cons p ps ih => rw [List.cons_append, ownersAmong, ih, ownersAmong, List.append_assoc]

/-- The piece is one of these, or inside of one, in the scopes that are named innermost first. -/
inductive Lies (p : Piece) : List Piece → List (Option Nat × Scope) → Prop where
  | here {ps : List Piece} (h : p ∈ ps) : Lies p ps []
  | inside {ps children : List Piece} {owner : Option Nat} {scope : Scope}
      {path : List (Option Nat × Scope)} (hmem : region owner scope children ∈ ps)
      (h : Lies p children path) : Lies p ps (path ++ [(owner, scope)])

variable {ps qs children : List Piece} {owner : Option Nat} {scope : Scope}
  {path : List (Option Nat × Scope)}

theorem Lies.mono (h : Lies (region owner scope children) ps path)
    (hmono : ∀ owner scope children, region owner scope children ∈ ps →
      region owner scope children ∈ qs) : Lies (region owner scope children) qs path := by
  cases h with
  | here h => exact .here (hmono _ _ _ h)
  | inside hmem h => exact .inside (hmono _ _ _ hmem) h

end Piece

open Piece

/-- The owner of a scope that is opened, when it is a region. -/
def Mark.opener? : Mark → Option Nat
  | .opened owner _ => owner
  | .text _ | .keyword _ _ _ | .closed _ => none

/-! ### The fold -/

/-- Pieces under construction, as nodes are in a `Forest`. -/
structure Grove where
  top : List Piece
  scopes : List ((Option Nat × Scope) × List Piece)

namespace Grove

variable {f : Grove} {source : Source} {mark : Mark} {marks : List Mark}

def empty : Grove := ⟨[], []⟩

def joinText (s : String) : List Piece → List Piece
  | .text t :: ps => .text (t ++ s) :: ps
  | ps => .text s :: ps

def update (f : Grove) (g : List Piece → List Piece) : Grove :=
  match f.scopes with
  | [] => { f with top := g f.top }
  | (label, ps) :: outer => { f with scopes := (label, g ps) :: outer }

def close (f : Grove) : Grove :=
  match f.scopes with
  | [] => f
  | ((owner, scope), ps) :: outer =>
    Grove.update ⟨f.top, outer⟩ (.region owner scope ps.reverse :: ·)

/-- A stretch of text as a list of pieces. -/
def textOf (source : Source) (s : Span) : List Piece :=
  if s.isEmpty then [] else [.text (source.slice s)]

def step (source : Source) (f : Grove) : Mark → Grove
  | .text s => if s.isEmpty then f else f.update (joinText (source.slice s))
  | .keyword s c _ => f.update (.region none c.scope (textOf source s) :: ·)
  | .opened owner scope => { f with scopes := ((owner, scope), []) :: f.scopes }
  | .closed _ => f.close

/-- The scopes that are unclosed, with their owners. -/
def labels (f : Grove) : List (Option Nat × Scope) := f.scopes.map (·.1)

/-- The same without owners. -/
def forest (f : Grove) : EventLog.Forest :=
  ⟨nodes f.top, f.scopes.map fun s => (s.1.2, nodes s.2)⟩

/-! ### Without owners -/

theorem forest_update {f : Grove} {g : List Piece → List Piece} {g' : List Node → List Node}
    (h : ∀ ps, nodes (g ps) = g' (nodes ps)) : (f.update g).forest = f.forest.update g' := by
  obtain ⟨top, scopes⟩ := f
  cases scopes with
  | nil => simp only [update, forest, EventLog.Forest.update, h, List.map_nil]
  | cons s outer => simp only [update, forest, EventLog.Forest.update, h, List.map_cons]

theorem nodes_joinText (s : String) (ps : List Piece) :
    nodes (joinText s ps) = EventLog.Forest.joinText s (nodes ps) := by
  cases ps with
  | nil => rfl
  | cons p ps => cases p <;> rfl

theorem nodes_reverse (ps : List Piece) : nodes ps.reverse = (nodes ps).reverse := by
  rw [nodes_eq_map, nodes_eq_map, List.map_reverse]

theorem forest_close (f : Grove) : f.close.forest = f.forest.close := by
  obtain ⟨top, scopes⟩ := f
  cases scopes with
  | nil => rfl
  | cons s outer =>
    obtain ⟨⟨owner, scope⟩, ps⟩ := s
    refine forest_update fun qs => ?_
    rw [nodes, node, nodes_reverse]

/-- **A mark does to the pieces what its events do to the nodes.** -/
theorem forest_step (source : Source) (f : Grove) (mark : Mark) :
    (f.step source mark).forest = mark.events.foldl (EventLog.Forest.step source) f.forest := by
  cases mark with
  | text s =>
    simp only [step, Mark.events, Mark.textEvents]
    split
    · rfl
    · exact forest_update (nodes_joinText _)
  | keyword s c w =>
    -- what the keyword opens is closed again with nothing but its text
    have hkeyword : ∀ ps, nodes (.region none c.scope (textOf source s) :: ps) =
        .region c.scope (nodes (textOf source s)) :: nodes ps := fun ps => rfl
    rw [step, forest_update hkeyword, textOf]
    simp only [Mark.events, Mark.textEvents]
    split <;> rfl
  | opened owner scope => rfl
  | closed owner => exact forest_close f

theorem forest_foldl (source : Source) (marks : List Mark) (f : Grove) :
    (marks.foldl (step source) f).forest =
      (marks.flatMap Mark.events).foldl (EventLog.Forest.step source) f.forest := by
  induction marks generalizing f with
  | nil => rfl
  | cons mark marks ih =>
    rw [List.foldl_cons, ih, forest_step, List.flatMap_cons, List.foldl_append]

/-! ### What is unclosed -/

theorem labels_update (f : Grove) (g : List Piece → List Piece) :
    (f.update g).labels = f.labels := by
  obtain ⟨top, scopes⟩ := f
  cases scopes <;> rfl

theorem labels_step {labels : List (Option Nat × Scope)}
    (h : readMark f.labels mark = some labels) : (f.step source mark).labels = labels := by
  cases mark with
  | text s =>
    cases h
    rw [step]
    split
    · rfl
    · exact labels_update _ _
  | keyword s c w =>
    cases h
    exact labels_update _ _
  | opened owner scope =>
    cases h
    rfl
  | closed owner =>
    obtain ⟨top, scopes⟩ := f
    cases scopes with
    | nil => cases h
    | cons s outer =>
      have houter : (if s.1.1 = owner then some (outer.map (·.1)) else none) = some labels := h
      split at houter
      · cases houter
        exact labels_update _ _
      · cases houter

theorem labels_foldl {labels : List (Option Nat × Scope)}
    (h : readMarks f.labels marks = some labels) :
    (marks.foldl (step source) f).labels = labels := by
  induction marks generalizing f with
  | nil => exact Option.some.inj h
  | cons mark marks ih =>
    rw [readMarks, List.foldlM_cons] at h
    obtain ⟨labels', hmark, hrest⟩ := Option.bind_eq_some_iff.mp h
    refine ih ?_
    rw [labels_step hmark]
    exact hrest

/-! ### Inside a scope -/

/-- What is under construction in one more scope, inside of what is under construction around
it. -/
def within (f : Grove) (label : Option Nat × Scope) (g : Grove) : Grove :=
  ⟨g.top, f.scopes ++ (label, f.top) :: g.scopes⟩

theorem update_within (f g : Grove) (label : Option Nat × Scope) (u : List Piece → List Piece) :
    (f.within label g).update u = (f.update u).within label g := by
  obtain ⟨top, scopes⟩ := f
  cases scopes <;> rfl

theorem step_within {labels : List (Option Nat × Scope)} (label : Option Nat × Scope) (g : Grove)
    (h : readMark f.labels mark = some labels) :
    (f.within label g).step source mark = (f.step source mark).within label g := by
  cases mark with
  | text s =>
    simp only [step]
    split
    · rfl
    · exact update_within _ _ _ _
  | keyword s c w => exact update_within _ _ _ _
  | opened owner scope => rfl
  | closed owner =>
    obtain ⟨top, scopes⟩ := f
    cases scopes with
    | nil => cases h
    | cons s outer => exact update_within ⟨top, outer⟩ g label _

/-- **Marks that close only what they open do the same inside a scope.** -/
theorem foldl_within {labels : List (Option Nat × Scope)} (label : Option Nat × Scope) (g : Grove)
    (h : readMarks f.labels marks = some labels) :
    marks.foldl (step source) (f.within label g) =
      (marks.foldl (step source) f).within label g := by
  induction marks generalizing f with
  | nil => rfl
  | cons mark marks ih =>
    rw [readMarks, List.foldlM_cons] at h
    obtain ⟨labels', hmark, hrest⟩ := Option.bind_eq_some_iff.mp h
    rw [List.foldl_cons, step_within label g hmark, List.foldl_cons]
    refine ih ?_
    rw [labels_step hmark]
    exact hrest

/-! ### Owners -/

/-- The owners from left to right: those at the top, and those from each open scope on. -/
def owners (f : Grove) : List Nat :=
  ownersAmong f.top.reverse ++
    f.scopes.reverse.flatMap fun s => s.1.1.toList ++ ownersAmong s.2.reverse

theorem owners_update {f : Grove} {g : List Piece → List Piece} {added : List Nat}
    (h : ∀ ps, ownersAmong (g ps).reverse = ownersAmong ps.reverse ++ added) :
    (f.update g).owners = f.owners ++ added := by
  obtain ⟨top, scopes⟩ := f
  cases scopes with
  | nil => simp [update, owners, h]
  | cons s outer => simp [update, owners, h]

theorem ownersAmong_joinText (s : String) (ps : List Piece) :
    ownersAmong (joinText s ps).reverse = ownersAmong ps.reverse ++ [] := by
  cases ps with
  | nil => rfl
  | cons p ps => cases p <;> simp [joinText, ownersAmong_append, ownersAmong, Piece.owners]

theorem ownersAmong_textOf (source : Source) (s : Span) : ownersAmong (textOf source s) = [] := by
  rw [textOf]
  split <;> rfl

theorem owners_close (f : Grove) : f.close.owners = f.owners := by
  obtain ⟨top, scopes⟩ := f
  cases scopes with
  | nil => rfl
  | cons s outer =>
    obtain ⟨⟨owner, scope⟩, ps⟩ := s
    have hadd : ∀ qs : List Piece, ownersAmong (.region owner scope ps.reverse :: qs).reverse =
        ownersAmong qs.reverse ++ (owner.toList ++ ownersAmong ps.reverse) := by
      intro qs
      simp [ownersAmong_append, ownersAmong, Piece.owners]
    rw [close, owners_update hadd]
    simp [owners]

theorem owners_step (source : Source) (f : Grove) (mark : Mark) :
    (f.step source mark).owners = f.owners ++ mark.opener?.toList := by
  cases mark with
  | text s =>
    rw [step]
    split
    · simp [Mark.opener?]
    · exact owners_update (ownersAmong_joinText _)
  | keyword s c w =>
    refine owners_update fun ps => ?_
    have htext := ownersAmong_textOf source s
    simp [ownersAmong_append, ownersAmong, Piece.owners, Mark.opener?, htext]
  | opened owner scope => simp [step, owners, Mark.opener?, ownersAmong]
  | closed owner => simp [step, owners_close, Mark.opener?]

theorem owners_foldl (source : Source) (marks : List Mark) (f : Grove) :
    (marks.foldl (step source) f).owners = f.owners ++ marks.filterMap Mark.opener? := by
  induction marks generalizing f with
  | nil => simp
  | cons mark marks ih =>
    rw [List.foldl_cons, ih, owners_step, List.append_assoc]
    cases h : mark.opener? <;> simp [h]

/-! ### Where pieces lie -/

/-- The piece lies in one of the lists under construction, in the scopes that are named. -/
def HoldsIn (p : Piece) (top : List Piece) :
    List ((Option Nat × Scope) × List Piece) → List (Option Nat × Scope) → Prop
  | [], path => Lies p top path
  | (label, ps) :: outer, path =>
    (∃ inner, path = inner ++ label :: outer.map (·.1) ∧ Lies p ps inner) ∨
      HoldsIn p top outer path

def Holds (p : Piece) (f : Grove) (path : List (Option Nat × Scope)) : Prop :=
  HoldsIn p f.top f.scopes path

variable {owner : Option Nat} {scope : Scope} {children : List Piece}
  {path : List (Option Nat × Scope)}

theorem Holds.update (h : Holds (.region owner scope children) f path)
    {g : List Piece → List Piece}
    (hg : ∀ ps owner scope children, Piece.region owner scope children ∈ ps →
      Piece.region owner scope children ∈ g ps) :
    Holds (.region owner scope children) (f.update g) path := by
  obtain ⟨top, scopes⟩ := f
  cases scopes with
  | nil => exact Lies.mono h (hg top)
  | cons s outer =>
    rcases h with ⟨inner, hpath, h⟩ | h
    · exact .inl ⟨inner, hpath, h.mono (hg s.2)⟩
    · exact .inr h

/-- A piece that is added lies in all scopes that are unclosed. -/
theorem holds_update {p : Piece} {g : List Piece → List Piece} (hg : ∀ ps, p ∈ g ps) :
    Holds p (f.update g) f.labels := by
  obtain ⟨top, scopes⟩ := f
  cases scopes with
  | nil => exact .here (hg top)
  | cons s outer => exact .inl ⟨[], rfl, .here (hg s.2)⟩

theorem holds_update_of_lies {p : Piece} {ps : List Piece}
    {path : List (Option Nat × Scope)} (h : Lies p ps path) :
    Holds p (f.update (.region owner scope ps.reverse :: ·))
      (path ++ (owner, scope) :: f.labels) := by
  have hlies : ∀ qs, Lies p (.region owner scope ps.reverse :: qs) (path ++ [(owner, scope)]) := by
    intro qs
    refine .inside List.mem_cons_self ?_
    cases h with
    | here h => exact .here (List.mem_reverse.mpr h)
    | inside hmem h => exact .inside (List.mem_reverse.mpr hmem) h
  obtain ⟨top, scopes⟩ := f
  cases scopes with
  | nil => exact hlies top
  | cons s outer => exact .inl ⟨path ++ [(owner, scope)], by simp [labels], hlies s.2⟩

/-- **A piece stays where it is**, whatever is marked after it. -/
theorem Holds.step (h : Holds (.region owner scope children) f path) (mark : Mark) :
    Holds (.region owner scope children) (f.step source mark) path := by
  cases mark with
  | text s =>
    rw [Grove.step]
    split
    · exact h
    · refine h.update fun ps owner scope children hmem => ?_
      cases ps with
      | nil => cases hmem
      | cons p ps =>
        cases p with
        | text t =>
          have hmem' := (List.mem_cons.mp hmem).resolve_left (by simp)
          exact List.mem_cons_of_mem _ hmem'
        | region _ _ _ => exact List.mem_cons_of_mem _ hmem
  | keyword s c w => exact h.update fun ps _ _ _ hmem => List.mem_cons_of_mem _ hmem
  | opened _ _ => exact .inr h
  | closed _ =>
    obtain ⟨top, scopes⟩ := f
    cases scopes with
    | nil => exact h
    | cons s outer =>
      rcases h with ⟨inner, rfl, h⟩ | h
      · exact holds_update_of_lies (f := ⟨top, outer⟩) h
      · have houter : Holds (.region owner scope children) ⟨top, outer⟩ path := h
        exact houter.update fun ps _ _ _ hmem => List.mem_cons_of_mem _ hmem

theorem Holds.foldl (h : Holds (.region owner scope children) f path) (marks : List Mark) :
    Holds (.region owner scope children) (marks.foldl (Grove.step source) f) path := by
  induction marks generalizing f with
  | nil => exact h
  | cons mark marks ih => exact ih (h.step mark)

end Grove

/-! ### The pieces of marks -/

variable {source : Source} {marks front middle back : List Mark}
  {labels : List (Option Nat × Scope)}

/-- The pieces of marks whose brackets fit. -/
def pieces (source : Source) (marks : List Mark) : List Piece :=
  (marks.foldl (Grove.step source) .empty).top.reverse

theorem scopes_foldl (source : Source) (h : readMarks [] marks = some []) :
    (marks.foldl (Grove.step source) .empty).scopes = [] :=
  List.map_eq_nil_iff.mp (Grove.labels_foldl (f := .empty) h)

/-- **Without their owners pieces are the nodes of the log.** -/
theorem nodes_eq_pieces (source : Source) (h : readMarks [] marks = some []) :
    EventLog.nodes (marks.flatMap Mark.events).toArray source =
      (pieces source marks).map Piece.node := by
  have hforest := Grove.forest_foldl source marks .empty
  have hclosed : (marks.foldl (Grove.step source) .empty).forest.scopes = [] := by
    rw [Grove.forest, scopes_foldl source h, List.map_nil]
  rw [hforest] at hclosed
  simp only [EventLog.nodes, List.foldl_toArray']
  have hempty : Grove.empty.forest = EventLog.Forest.empty := rfl
  rw [hempty] at hforest hclosed
  rw [hclosed, List.length_nil, EventLog.Forest.closeMany, ← hforest, pieces, List.map_reverse,
    ← nodes_eq_map]
  rfl

theorem ownersAmong_pieces (source : Source) (h : readMarks [] marks = some []) :
    ownersAmong (pieces source marks) = marks.filterMap Mark.opener? := by
  have howners := Grove.owners_foldl source marks .empty
  rw [Grove.owners, scopes_foldl source h] at howners
  rw [List.reverse_nil, List.flatMap_nil, List.append_nil] at howners
  exact howners

/-- The text that marks add. -/
def textOfMarks (source : Source) (marks : List Mark) : String :=
  EventLog.text source (marks.flatMap Mark.events).toArray

theorem contents_pieces (source : Source) (h : readMarks [] marks = some []) :
    Node.contents ((pieces source marks).map Piece.node) = textOfMarks source marks := by
  rw [← nodes_eq_pieces source h, EventLog.contents_nodes, textOfMarks]

/-- **A pair of brackets is one piece**, in the scopes unclosed in front of it and with the text
of what is between. -/
theorem exists_lies_pieces (source : Source) {owner : Option Nat} {scope : Scope}
    (hmarks : marks = front ++ .opened owner scope :: (middle ++ .closed owner :: back))
    (h : readMarks [] marks = some []) (hfront : readMarks [] front = some labels)
    (hmiddle : readMarks [] middle = some []) :
    ∃ children, Lies (.region owner scope children) (pieces source marks) labels ∧
      Node.contents (children.map Piece.node) = textOfMarks source middle := by
  refine ⟨pieces source middle, ?_, contents_pieces source hmiddle⟩
  have hscopes := scopes_foldl source h
  -- the fold at the opening, right before the closing, and behind it
  generalize hopen : front.foldl (Grove.step source) .empty = f at *
  have hlabels : f.labels = labels := by
    rw [← hopen]
    exact Grove.labels_foldl (f := .empty) hfront
  have hinside : middle.foldl (Grove.step source) (f.step source (.opened owner scope)) =
      (middle.foldl (Grove.step source) .empty).within (owner, scope) f :=
    Grove.foldl_within (f := .empty) (owner, scope) f hmiddle
  have hclosed : ((middle.foldl (Grove.step source) .empty).within (owner, scope) f).step source
      (.closed owner) = f.update (.region owner scope (pieces source middle) :: ·) := by
    rw [Grove.within, scopes_foldl source hmiddle]
    rfl
  have hholds : Grove.Holds (.region owner scope (pieces source middle))
      (marks.foldl (Grove.step source) .empty) labels := by
    rw [hmarks, List.foldl_append, hopen, List.foldl_cons, List.foldl_append, hinside,
      List.foldl_cons, hclosed, ← hlabels]
    exact (Grove.holds_update fun ps => List.mem_cons_self).foldl back
  rw [Grove.Holds, hscopes] at hholds
  exact Lies.mono hholds fun _ _ _ hmem => List.mem_reverse.mpr hmem

end Highlighting.Scan
