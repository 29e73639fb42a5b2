/-
  Highlighting/Proofs/Scan/Sums.lean
  ==================================
  **The scan with every sum checked.**

  A scan adds up in numbers of 32 bits: how often it has met a word, and what
  its text says about the language.  Such a sum can be too large, and then it is
  not the sum.  Here the same scan is defined so that it has no result then.

  What a draft has added up is no more than what was paid for it
  (`Draft.Costs`): one for every keyword, and its relevance for every mode.
  Keywords are paid for with the stretch of text that is recorded, one for each
  character.  As long as the price is a number of 32 bits, so are all sums on
  the way to it (`Pays`).
-/
import Highlighting.Proofs.Scan.Brackets

namespace Highlighting

/-- The empty word is no keyword. -/
def NoEmptyWord (keywords : Option KeywordTable) : Prop :=
  ∀ table ∈ keywords, table.classify [] = none

namespace Scan

variable {n k stop : Nat} {d e : Draft} {m : Mode} {source : Source} {span : Span}
  {keywords : Option KeywordTable}

/-! ### Checked sums -/

namespace Summed

/-- The sum, where it is a number of 32 bits. -/
def sum? (a b : UInt32) : Option UInt32 :=
  if a.toNat + b.toNat < UInt32.size then some (a + b) else none

def addRelevance (r : UInt32) (d : Draft) : Option Draft := do
  return { d with relevance := ← sum? d.relevance r }

def hit (d : Draft) (w : Word) : Option Draft := do
  let count := d.count w + 1
  if count < UInt32.size then
    let relevance ←
      if count ≤ Draft.maxHits then sum? d.relevance (KeywordTable.relevance w)
      else some d.relevance
    return { d with hits := d.hits.insert count w, hitLog := d.hitLog.push w, relevance }
  else none

def addKeyword (d : Draft) (last : Nat) (span : Span) (c : KeywordClass) (w : Word) :
    Option Draft :=
  let d := (d.addText ⟨last, span.start⟩).openScope (some c.scope)
  hit ((d.addText span).closeScope (some c.scope)) w

def addLexemes (source : Source) (table : KeywordTable) (base : Nat) :
    List Span → Nat → Draft → Option (Nat × Draft)
  | [], last, d => some (last, d)
  | l :: ls, last, d =>
    let span : Span := ⟨base + l.start, base + l.stop⟩
    let w := source.chars span
    match table.classify w with
    | none => addLexemes source table base ls last d
    | some c => do addLexemes source table base ls span.stop (← addKeyword d last span c w)

def classify (source : Source) (keywords : Option KeywordTable) (span : Span) (d : Draft) :
    Option Draft :=
  if span.isEmpty then some d
  else match keywords with
    | none => some (d.addText span)
    | some table => do
      let part : Source := source.extract span.start span.stop
      let (last, d) ←
        addLexemes source table span.start (table.lexeme.findAll part) span.start d
      return d.addText ⟨last, span.stop⟩

def flush (source : Source) (keywords : Option KeywordTable) (stop : Nat) (d : Draft) :
    Option Draft :=
  classify source keywords ⟨d.bufferStart, stop⟩ { d with bufferStart := stop }

def addWhole (source : Source) (keywords : Option KeywordTable) (m : Mode) (span : Span)
    (d : Draft) : Option Draft := do
  let d ←
    if m.excludesBegin then flush source keywords span.stop d
    else do
      let d ← flush source keywords span.start d
      let d ← classify source m.content.keywords span (d.openScope m.scope)
      pure { d.closeScope m.scope with bufferStart := span.stop }
  addRelevance m.relevance d

def openRegion (source : Source) (keywords : Option KeywordTable) (m : Mode) (span : Span)
    (d : Draft) : Option Draft := do
  let d ← flush source keywords (if m.excludesBegin then span.stop else span.start) d
  return d.openScope m.scope

def closeRegion (d : Draft) (m : Mode) : Option Draft :=
  addRelevance m.relevance (d.closeScope m.scope)

def closeRegions (source : Source) (keywords : Option KeywordTable) (stop : Nat)
    (closed : List Mode) (d : Draft) : Option Draft := do
  closed.foldlM closeRegion (← flush source keywords stop d)

def passOver (source : Source) (keywords : Option KeywordTable) (span : Span) (d : Draft) :
    Option Draft := do
  let d ← flush source keywords span.start { d with illegal := true }
  return { d.addText ⟨span.start, Draft.passedAt source span⟩ with
    bufferStart := Draft.passedAt source span }

/-- What taking a match makes of the draft. -/
def take (task : Task) (f : Found) (c : Core) : Option Draft :=
  let g := task.grammar
  match f.candidate with
  | .opens index =>
    let m := g.mode index
    if m.ending = .immediate then addWhole task.source (c.keywords g) m f.span c.draft
    else openRegion task.source (c.keywords g) m f.span c.draft
  | .closes depth =>
    closeRegions task.source (c.keywords g) (State.closingEdge g c.modes f.span)
      ((c.modes.take (State.closedBy g c.modes depth)).map g.mode) c.draft
  | .illegal =>
    match c.entries with
    | [] => passOver task.source (c.keywords g) f.span c.draft
    | e :: _ => some (c.draft.restore e.checkpoint)

/-- An opening that is skipped leaves the draft alone. -/
def handle (task : Task) (f : Found) (s : State) : Option State :=
  if s.skips task f then some (s.handle task f)
  else do return { s.handle task f with draft := ← take task f s.core }

def runFor (task : Task) : Nat → State → Option State
  | 0, s => some s
  | fuel + 1, s =>
    match s.next? task with
    | (none, s) => some s
    | (some found, s) => do runFor task fuel (← handle task found s)

def result (task : Task) (s : State) : Option Highlighted := do
  let g := task.grammar
  let d ← flush task.source (s.keywords g) task.source.size s.draft
  let d := s.modes.foldl (fun d m => d.closeScope (g.mode m).scope) d
  return { language := g.name, relevance := d.relevance, illegal := d.illegal,
           nodes := d.events.nodes task.source }

/-- The highlighted text, where no sum on the way is too large. -/
def highlight (g : Grammar) (text : String) (options : Options) : Option Highlighted := do
  let task := Scan.task g (Source.ofString text) options
  result task (← runFor task (stepBound g task.source.size) (State.start g))

end Summed

/-! ### What a draft costs -/

namespace Draft

/-- Neither the relevance nor any count is greater. -/
structure Costs (n : Nat) (d : Draft) : Prop where
  counted : d.Counted
  relevance : d.relevance.toNat ≤ n
  hits : d.hitLog.size ≤ n

theorem costs_empty : Costs 0 empty := ⟨counted_empty, Nat.le_refl 0, Nat.le_refl 0⟩

theorem Costs.count_le (h : d.Costs n) (w : Word) : d.count w ≤ n := by
  rw [h.counted w]
  exact Nat.le_trans List.count_le_length
    (Nat.le_trans (Nat.le_of_eq d.hitLog.length_toList) h.hits)

theorem Costs.mono (h : d.Costs n) (hle : n ≤ k) : d.Costs k :=
  ⟨h.counted, Nat.le_trans h.relevance hle, Nat.le_trans h.hits hle⟩

theorem Costs.addText (h : d.Costs n) (span : Span) : (d.addText span).Costs n :=
  ⟨h.counted, h.relevance, h.hits⟩

theorem Costs.openScope (h : d.Costs n) (scope : Option Scope) : (d.openScope scope).Costs n :=
  ⟨h.counted, h.relevance, h.hits⟩

theorem Costs.closeScope (h : d.Costs n) (scope : Option Scope) : (d.closeScope scope).Costs n :=
  ⟨h.counted, h.relevance, h.hits⟩

theorem Costs.closeScopes (h : d.Costs n) (g : Grammar) (modes : List Nat) :
    (modes.foldl (fun d m => d.closeScope (g.mode m).scope) d).Costs n := by
  induction modes generalizing d with
  | nil => exact h
  | cons m modes ih => exact ih (h.closeScope _)

theorem Costs.setBuffer (h : d.Costs n) (start : Nat) :
    Costs n { d with bufferStart := start } :=
  ⟨h.counted, h.relevance, h.hits⟩

theorem Costs.alike (h : d.Costs n) (halike : d.Alike e) : e.Costs n :=
  ⟨halike.counted h.counted, halike.relevance ▸ h.relevance, halike.hitLog ▸ h.hits⟩

end Draft

theorem toNat_relevance_le (w : Word) : (KeywordTable.relevance w).toNat ≤ 1 := by
  rw [KeywordTable.relevance]
  split
  · exact Nat.zero_le 1
  · exact Nat.le_refl 1

theorem toNat_add_le (a b : UInt32) : (a + b).toNat ≤ a.toNat + b.toNat := by
  rw [UInt32.toNat_add]
  exact Nat.mod_le _ _

namespace Summed

variable {α β : Type} {checked : Option α} {a : α} {b : β}

/-- The draft costs no more than `n`, and where this is a number of 32 bits, the checked result is
there. -/
structure Pays (n : Nat) (d : Draft) (checked : Option α) (a : α) : Prop where
  costs : d.Costs n
  eq_some : n < UInt32.size → checked = some a

theorem Pays.of_costs (h : d.Costs n) : Pays n d (some a) a := ⟨h, fun _ => rfl⟩

theorem Pays.mono (h : Pays n d checked a) (hle : n ≤ k) : Pays k d checked a :=
  ⟨h.costs.mono hle, fun hlt => h.eq_some (Nat.lt_of_le_of_lt hle hlt)⟩

/-- **Prices add up**: what was paid for is paid for, however it goes on. -/
theorem Pays.bind {next : α → Option β} (h : Pays n d checked a) (hle : n ≤ k)
    (hnext : d.Costs n → Pays k e (next a) b) : Pays k e (checked >>= next) b := by
  refine ⟨(hnext h.costs).costs, fun hlt => ?_⟩
  rw [h.eq_some (Nat.lt_of_le_of_lt hle hlt)]
  exact (hnext h.costs).eq_some hlt

theorem sum?_eq {a b : UInt32} (h : a.toNat + b.toNat < UInt32.size) : sum? a b = some (a + b) :=
  if_pos h

theorem pays_addRelevance {r : UInt32} (h : d.Costs n) (hr : r.toNat ≤ k) :
    Pays (n + k) { d with relevance := d.relevance + r } (addRelevance r d)
      { d with relevance := d.relevance + r } := by
  have hsum : d.relevance.toNat + r.toNat ≤ n + k := Nat.add_le_add h.relevance hr
  refine ⟨⟨h.counted, Nat.le_trans (toNat_add_le _ _) hsum, Nat.le_add_right_of_le h.hits⟩, ?_⟩
  intro hlt
  rw [addRelevance, sum?_eq (Nat.lt_of_le_of_lt hsum hlt)]
  rfl

theorem pays_hit (h : d.Costs n) (w : Word) : Pays (n + 1) (d.hit w) (hit d w) (d.hit w) := by
  have hsum : d.relevance.toNat + (KeywordTable.relevance w).toNat ≤ n + 1 :=
    Nat.add_le_add h.relevance (toNat_relevance_le w)
  have hcount : d.count w + 1 ≤ n + 1 := Nat.add_le_add_right (h.count_le w) 1
  refine ⟨⟨h.counted.hit w, ?_, ?_⟩, fun hlt => ?_⟩
  · simp only [Draft.hit]
    split
    · exact Nat.le_trans (toNat_add_le _ _) hsum
    · exact Nat.le_add_right_of_le h.relevance
  · simp only [Draft.hit, Array.size_push]
    exact Nat.add_le_add_right h.hits 1
  · simp only [hit, Draft.hit, sum?_eq (Nat.lt_of_le_of_lt hsum hlt),
      if_pos (Nat.lt_of_le_of_lt hcount hlt)]
    split
    · rfl
    · rfl

/-! ### Stretches of text -/

theorem pays_addKeyword (h : d.Costs n) (last : Nat) (span : Span) (c : KeywordClass) (w : Word) :
    Pays (n + 1) (d.addKeyword last span c w) (addKeyword d last span c w)
      (d.addKeyword last span c w) :=
  pays_hit ((((h.addText _).openScope _).addText span).closeScope _) w

/-- A keyword is a lexeme with characters in it, and no two lexemes share a character. -/
theorem pays_addLexemes {table : KeywordTable} (htable : table.classify [] = none)
    (source : Source) (base last : Nat) {size p : Nat} {ls : List Span}
    (hls : Matcher.Ascending size p ls) (h : d.Costs n) :
    Pays (n + (size - p)) (Draft.addLexemes source table base ls last d).2
      (addLexemes source table base ls last d) (Draft.addLexemes source table base ls last d) := by
  induction ls generalizing p last d n with
  | nil => exact (Pays.of_costs h).mono (Nat.le_add_right _ _)
  | cons l ls ih =>
    obtain ⟨hp, hle, hsize, hrest⟩ := hls
    simp only [addLexemes, Draft.addLexemes]
    cases hclass : table.classify (source.chars ⟨base + l.start, base + l.stop⟩) with
    | none => exact (ih last hrest h).mono (by omega)
    | some c =>
      have hlt : l.start < l.stop := by
        by_contra hge
        have hchars : source.chars ⟨base + l.start, base + l.stop⟩ = [] := by
          simp only [Source.chars, Array.toList_eq_nil_iff, Array.extract_eq_empty_iff]
          omega
        rw [hchars, htable] at hclass
        cases hclass
      have hpays := pays_addKeyword h last ⟨base + l.start, base + l.stop⟩ c
        (source.chars ⟨base + l.start, base + l.stop⟩)
      exact hpays.bind (by omega) fun hcosts => (ih _ hrest hcosts).mono (by omega)

/-- **Keywords are paid for by the stretch that they stand in.** -/
theorem pays_classify (source : Source) (span : Span) (hwords : NoEmptyWord keywords)
    (h : d.Costs n) :
    Pays (n + (span.stop - span.start)) (d.classify source keywords span)
      (classify source keywords span d) (d.classify source keywords span) := by
  simp only [classify, Draft.classify]
  split
  · exact (Pays.of_costs h).mono (Nat.le_add_right _ _)
  · cases keywords with
    | none => exact (Pays.of_costs (h.addText span)).mono (Nat.le_add_right _ _)
    | some table =>
      have hsize : Array.size (source.extract span.start span.stop) ≤ span.stop - span.start := by
        rw [Array.size_extract]
        omega
      have hpays := pays_addLexemes (hwords table rfl) source span.start span.start
        (table.lexeme.ascending_findAll (source.extract span.start span.stop)) h
      exact (hpays.mono (by omega)).bind (Nat.le_refl _) fun hcosts =>
        Pays.of_costs (hcosts.addText _)

theorem pays_flush (source : Source) (stop : Nat) (hwords : NoEmptyWord keywords)
    (h : d.Costs n) :
    Pays (n + (stop - d.bufferStart)) (d.flush source keywords stop)
      (flush source keywords stop d) (d.flush source keywords stop) :=
  pays_classify source ⟨d.bufferStart, stop⟩ hwords (h.setBuffer stop)

/-! ### Regions -/

theorem pays_openRegion (hwords : NoEmptyWord keywords) (h : d.Costs n) :
    Pays (n + ((d.openRegion source keywords m span).bufferStart - d.bufferStart))
      (d.openRegion source keywords m span) (openRegion source keywords m span d)
      (d.openRegion source keywords m span) := by
  have hbuffer : (d.openRegion source keywords m span).bufferStart =
      if m.excludesBegin then span.stop else span.start := Draft.bufferStart_flush _ _ _ _
  rw [hbuffer]
  exact (pays_flush _ _ hwords h).bind (Nat.le_refl _) fun hcosts =>
    Pays.of_costs (hcosts.openScope m.scope)

/-- A mode without an end costs its relevance, and its text pays for the keywords. -/
theorem pays_addWhole (hwords : NoEmptyWord keywords) (hm : NoEmptyWord m.content.keywords)
    (hr : m.relevance.toNat ≤ k) (h : d.Costs n) (hbuffer : d.bufferStart ≤ span.start)
    (hle : span.start ≤ span.stop) :
    Pays (n + (span.stop - d.bufferStart) + k) (d.addWhole source keywords m span)
      (addWhole source keywords m span d) (d.addWhole source keywords m span) := by
  simp only [addWhole, Draft.addWhole]
  split
  · exact (pays_flush _ _ hwords h).bind (by omega) fun hcosts => pays_addRelevance hcosts hr
  · have hflush := pays_flush source span.start hwords h
    have hmatch := pays_classify source span hm (hflush.costs.openScope m.scope)
    -- what is in front of the match and the match itself make up the stretch from the buffer on
    have hstretch : n + (span.start - d.bufferStart) + (span.stop - span.start) =
        n + (span.stop - d.bufferStart) := by omega
    rw [hstretch] at hmatch
    have hclosed := (hmatch.costs.closeScope m.scope).setBuffer span.stop
    exact hflush.bind (by omega) fun _ =>
      hmatch.bind (Nat.le_add_right _ k) fun _ => pays_addRelevance hclosed hr

/-- Regions cost their relevance when they close. -/
theorem pays_closeAll {closed : List Mode} (hr : ∀ m ∈ closed, m.relevance.toNat ≤ k)
    (h : d.Costs n) :
    Pays (n + k * closed.length) (closed.foldl Draft.closeRegion d)
      (closed.foldlM closeRegion d) (closed.foldl Draft.closeRegion d) := by
  induction closed generalizing d n with
  | nil => exact Pays.of_costs h
  | cons m closed ih =>
    obtain ⟨hm, hclosed⟩ := List.forall_mem_cons.mp hr
    rw [List.length_cons, Nat.mul_succ, List.foldlM_cons]
    exact (pays_addRelevance (h.closeScope m.scope) hm).bind (by omega) fun hcosts =>
      (ih hclosed hcosts).mono (by omega)

theorem pays_closeRegions (hwords : NoEmptyWord keywords)
    {closed : List Mode} (hr : ∀ m ∈ closed, m.relevance.toNat ≤ k) (h : d.Costs n) :
    Pays (n + (stop - d.bufferStart) + k * closed.length)
      (d.closeRegions source keywords stop closed) (closeRegions source keywords stop closed d)
      (d.closeRegions source keywords stop closed) :=
  (pays_flush _ _ hwords h).bind (Nat.le_add_right _ _) fun hcosts => pays_closeAll hr hcosts

theorem pays_passOver (hwords : NoEmptyWord keywords) (h : d.Costs n) :
    Pays (n + (span.start - d.bufferStart)) (d.passOver source keywords span)
      (passOver source keywords span d) (d.passOver source keywords span) := by
  have hill : Draft.Costs n { d with illegal := true } := ⟨h.counted, h.relevance, h.hits⟩
  exact (pays_flush _ _ hwords hill).bind (Nat.le_refl _) fun hcosts =>
    Pays.of_costs ((hcosts.addText _).setBuffer _)

end Summed

end Scan

end Highlighting
