/-
  Highlighting/Proofs/Output/Html.lean
  ====================================
  **HTML shows a tree as it is.**

  A document is the marks of the tree, each written out (`toList_renderNodes`).
  No mark is written as the beginning of another one, so the document
  determines the marks (`flatMap_written_injective`), and with them the tree up
  to the way its texts are cut.

  For a reader of the document that means: what is not a tag is text with the
  characters of markup written as entities, and decoding these gives the text of
  the tree back, also where that text looks like a tag or an entity itself
  (`decode_flatMap_escapeChar`).
-/
import Highlighting.Output.Html
import Highlighting.Proofs.Scope
import Highlighting.Proofs.Tree.Merged

namespace Highlighting

namespace Output.Html

/-! ### Entities -/

/-- The entities of a document. -/
def entities : List String := ["&amp;", "&lt;", "&gt;", "&quot;", "&#x27;"]

/-- A text with its entities replaced by what they stand for.  What a replacement puts down is
not looked at again. -/
def decode : List Char → List Char
  | '&' :: 'a' :: 'm' :: 'p' :: ';' :: cs => '&' :: decode cs
  | '&' :: 'l' :: 't' :: ';' :: cs => '<' :: decode cs
  | '&' :: 'g' :: 't' :: ';' :: cs => '>' :: decode cs
  | '&' :: 'q' :: 'u' :: 'o' :: 't' :: ';' :: cs => '"' :: decode cs
  | '&' :: '#' :: 'x' :: '2' :: '7' :: ';' :: cs => '\'' :: decode cs
  | c :: cs => c :: decode cs
  | [] => []

theorem decode_cons {c : Char} (hc : c ≠ '&') (cs : List Char) :
    decode (c :: cs) = c :: decode cs := by
  rw [decode] <;> simp [hc]

/-- The characters that markup is made of. -/
def special : List Char := ['&', '<', '>', '"', '\'']

theorem escapeChar_of_notMem {c : Char} (hc : c ∉ special) : escapeChar c = [c] := by
  simp only [special, List.mem_cons, List.not_mem_nil, or_false, not_or] at hc
  simp [escapeChar, hc]

theorem escapeChar_of_mem {c : Char} (hc : c ∈ special) :
    ∃ e ∈ entities, escapeChar c = e.toList := by
  simp only [special, List.mem_cons, List.not_mem_nil, or_false] at hc
  rcases hc with rfl | rfl | rfl | rfl | rfl
  · exact ⟨"&amp;", by decide, rfl⟩
  · exact ⟨"&lt;", by decide, rfl⟩
  · exact ⟨"&gt;", by decide, rfl⟩
  · exact ⟨"&quot;", by decide, rfl⟩
  · exact ⟨"&#x27;", by decide, rfl⟩

/-- One character is written and read back, whatever follows. -/
theorem decode_escapeChar (c : Char) (cs : List Char) :
    decode (escapeChar c ++ cs) = c :: decode cs := by
  by_cases hc : c ∈ special
  · simp only [special, List.mem_cons, List.not_mem_nil, or_false] at hc
    rcases hc with rfl | rfl | rfl | rfl | rfl <;> rfl
  · have hne : c ≠ '&' := fun h => hc (h ▸ List.mem_cons_self)
    rw [escapeChar_of_notMem hc, List.singleton_append, decode_cons hne]

theorem decode_flatMap_escapeChar (cs : List Char) : decode (cs.flatMap escapeChar) = cs := by
  induction cs with
  | nil => rfl
  | cons c cs ih => rw [List.flatMap_cons, decode_escapeChar, ih]

/-- All occurrences of a character replaced by a text. -/
def replaced (c : Char) (w : String) (cs : List Char) : List Char :=
  cs.flatMap fun d => if d = c then w.toList else [d]

/-- Escaping in one pass is replacing one character after the other, as long as the ampersand
comes first: the entities that the later replacements put down keep theirs. -/
theorem flatMap_escapeChar (cs : List Char) :
    cs.flatMap escapeChar =
      replaced '\'' "&#x27;" (replaced '"' "&quot;" (replaced '>' "&gt;" (replaced '<' "&lt;"
        (replaced '&' "&amp;" cs)))) := by
  simp only [replaced, List.flatMap_assoc]
  congr 1
  funext c
  by_cases hc : c ∈ special
  · simp only [special, List.mem_cons, List.not_mem_nil, or_false] at hc
    rcases hc with rfl | rfl | rfl | rfl | rfl <;> rfl
  · rw [escapeChar_of_notMem hc]
    simp only [special, List.mem_cons, List.not_mem_nil, or_false, not_or] at hc
    simp only [hc, if_false, List.flatMap_singleton]

/-- Text as it may stand between tags. -/
structure IsTextual (cs : List Char) : Prop where
  /-- No character of markup stands for itself. -/
  noMarkup : ∀ c ∈ ['<', '>', '"', '\''], c ∉ cs
  /-- An ampersand is the first character of an entity. -/
  entity : ∀ u v, cs = u ++ '&' :: v → ∃ e ∈ entities, e.toList <+: '&' :: v

theorem notMem_escapeChar {c : Char} (hc : c ∈ ['<', '>', '"', '\'']) (d : Char) :
    c ∉ escapeChar d := by
  by_cases hd : d ∈ special
  · simp only [special, List.mem_cons, List.not_mem_nil, or_false] at hc hd
    rcases hd with rfl | rfl | rfl | rfl | rfl <;>
      rcases hc with rfl | rfl | rfl | rfl <;> decide
  · rw [escapeChar_of_notMem hd, List.mem_singleton]
    rintro rfl
    exact hd (List.mem_cons_of_mem '&' hc)

/-- Only the first character of an entity is an ampersand. -/
theorem eq_nil_of_escapeChar_eq {c : Char} {u v : List Char}
    (h : escapeChar c = u ++ '&' :: v) : u = [] ∧ c ∈ special := by
  by_cases hc : c ∈ special
  · refine ⟨?_, hc⟩
    have htail : '&' ∉ (escapeChar c).tail := by
      simp only [special, List.mem_cons, List.not_mem_nil, or_false] at hc
      rcases hc with rfl | rfl | rfl | rfl | rfl <;> decide
    cases u with
    | nil => rfl
    | cons d u => simp [h] at htail
  · rw [escapeChar_of_notMem hc] at h
    have hlength := congrArg List.length h
    cases u with
    | nil =>
      obtain rfl : c = '&' := (List.cons.inj h).1
      exact absurd List.mem_cons_self hc
    | cons d u => simp at hlength

theorem isTextual_flatMap_escapeChar (cs : List Char) : IsTextual (cs.flatMap escapeChar) := by
  refine ⟨?_, ?_⟩
  · intro c hc hmem
    obtain ⟨d, -, hd⟩ := List.mem_flatMap.mp hmem
    exact notMem_escapeChar hc d hd
  induction cs with
  | nil => simp
  | cons c cs ih =>
    intro u v h
    rw [List.flatMap_cons] at h
    rcases List.append_eq_append_iff.mp h with ⟨w, rfl, hw⟩ | ⟨w, hc, hw⟩
    · exact ih w v hw
    cases w with
    | nil => exact ih [] v hw.symm
    | cons d w =>
      -- the ampersand is written for the character at the front
      obtain ⟨rfl, rfl⟩ := List.cons.inj hw
      obtain ⟨rfl, hspecial⟩ := eq_nil_of_escapeChar_eq hc
      obtain ⟨e, he, heq⟩ := escapeChar_of_mem hspecial
      refine ⟨e, he, ?_⟩
      rw [← heq, hc]
      exact List.prefix_append _ _

/-! ### Marks as they are written -/

/-- What stands in the tag that opens a scope. -/
def inOpenTag (classPrefix : String) (scope : Scope) : String :=
  "span class=\"" ++ classPrefix ++ scope.name ++ "\""

theorem toList_openTag (classPrefix : String) (scope : Scope) :
    (openTag classPrefix scope).toList =
      '<' :: ((inOpenTag classPrefix scope).toList ++ ['>']) := by
  have hclosing : "\">".toList = "\"".toList ++ ['>'] := by decide
  simp only [openTag, inOpenTag, String.toList_append, List.append_assoc, hclosing]
  rfl

/-- What a document has for a mark of the tree. -/
def written (classPrefix : String) : Mark → List Char
  | .char c => escapeChar c
  | .opened scope => (openTag classPrefix scope).toList
  | .closed => "</span>".toList

variable {classPrefix : String}

mutual

theorem toList_renderNode : ∀ n : Node,
    (renderNode classPrefix n).toList = n.marks.flatMap (written classPrefix)
  | .text s => by
    rw [renderNode, Node.marks, escape, String.toList_ofList, List.flatMap_map]
    rfl
  | .region scope children => by
    rw [renderNode, Node.marks, String.toList_append, String.toList_append,
      toList_renderNodes children, List.flatMap_cons, List.flatMap_append, List.flatMap_singleton,
      List.append_assoc]
    rfl

/-- **A document is the marks of its tree, one after the other.** -/
theorem toList_renderNodes : ∀ ns : List Node,
    (renderNodes classPrefix ns).toList = (Node.allMarks ns).flatMap (written classPrefix)
  | [] => by simp [renderNodes, Node.allMarks]
  | n :: ns => by
    rw [renderNodes, Node.allMarks, String.toList_append, List.flatMap_append,
      toList_renderNode n, toList_renderNodes ns]

end

theorem escapeChar_ne_nil (c : Char) : escapeChar c ≠ [] := by
  intro hnil
  have hread := decode_escapeChar c []
  simp [hnil, decode] at hread

/-- The name of a class ends at the quote behind it. -/
theorem openTag_inj {a b : Scope} {cs ds : List Char}
    (h : (openTag classPrefix a).toList ++ cs = (openTag classPrefix b).toList ++ ds) : a = b := by
  simp only [openTag, String.toList_append, List.append_assoc, List.append_cancel_left_eq] at h
  have hname : ∀ (scope : Scope) (us : List Char),
      (scope.name.toList ++ ("\">".toList ++ us)).takeWhile (· != '"') = scope.name.toList := by
    intro scope us
    have hall : ∀ c ∈ scope.name.toList, (c != '"') = true := by
      intro c hc
      have hne : c ≠ '"' := fun heq => scope.quote_notMem_name (heq ▸ hc)
      simpa using hne
    rw [List.takeWhile_append_of_pos hall]
    simp
  have heq := congrArg (List.takeWhile (· != '"')) h
  rw [hname a cs, hname b ds] at heq
  exact Scope.name_injective (String.toList_inj.mp heq)

/-- **No mark is written as the beginning of another one.** -/
theorem eq_of_written_append {a b : Mark} {cs ds : List Char}
    (h : written classPrefix a ++ cs = written classPrefix b ++ ds) : a = b := by
  -- two characters tell what kind of mark stands at the front
  have hchar : ∀ c us vs, (written classPrefix (.char c) ++ us).take 2 ≠ '<' :: vs := by
    intro c us vs htake
    obtain ⟨d, w, hw⟩ := List.exists_cons_of_ne_nil (escapeChar_ne_nil c)
    have hmem : '<' ∉ escapeChar c := notMem_escapeChar List.mem_cons_self c
    rw [written, hw] at htake
    rw [hw, (List.cons.inj htake).1] at hmem
    exact hmem List.mem_cons_self
  have hopen : ∀ scope us,
      (written classPrefix (.opened scope) ++ us).take 2 = ['<', 's'] := by
    intro scope us
    simp [written, openTag]
  have hclose : ∀ us, (written classPrefix .closed ++ us).take 2 = ['<', '/'] := fun _ => rfl
  cases a with
  | char c =>
    cases b with
    | char d =>
      have hread := congrArg decode h
      simp only [written, decode_escapeChar] at hread
      rw [(List.cons.inj hread).1]
    | opened scope => exact absurd (h ▸ hopen scope ds) (hchar c cs _)
    | closed => exact absurd (h ▸ hclose ds) (hchar c cs _)
  | opened scope =>
    cases b with
    | char d => exact absurd (h ▸ hopen scope cs) (hchar d ds _)
    | opened scope' => rw [openTag_inj h]
    | closed =>
      have htake := hopen scope cs
      rw [h, hclose] at htake
      simp at htake
  | closed =>
    cases b with
    | char d => exact absurd (h ▸ hclose cs) (hchar d ds _)
    | opened scope =>
      have htake := hclose cs
      rw [h, hopen] at htake
      simp at htake
    | closed => rfl

theorem written_ne_nil (m : Mark) : written classPrefix m ≠ [] := by
  intro h
  -- what is written as nothing would be the beginning of anything
  have heq : ∀ m', m = m' := by
    intro m'
    have hfront :
        written classPrefix m ++ written classPrefix m' = written classPrefix m' ++ [] := by
      rw [h, List.nil_append, List.append_nil]
    exact eq_of_written_append hfront
  exact absurd ((heq .closed).symm.trans (heq (.opened .string))) (by simp)

theorem flatMap_written_injective :
    Function.Injective (List.flatMap (written classPrefix)) := by
  intro as
  induction as with
  | nil =>
    intro bs h
    cases bs with
    | nil => rfl
    | cons b bs => exact absurd (List.append_eq_nil_iff.mp h.symm).1 (written_ne_nil b)
  | cons a as ih =>
    intro bs h
    cases bs with
    | nil => exact absurd (List.append_eq_nil_iff.mp h).1 (written_ne_nil a)
    | cons b bs =>
      rw [List.flatMap_cons, List.flatMap_cons] at h
      obtain rfl : a = b := eq_of_written_append h
      rw [ih (List.append_cancel_left h)]

/-! ### Between tags -/

/-- The stretches of text between the tags of a document, those before the first tag and behind
the last one with them.  A tag goes from `<` to the next `>`. -/
def texts : (inTag : Bool) → List Char → List (List Char)
  | _, [] => [[]]
  | true, c :: cs => texts (c != '>') cs
  | false, c :: cs =>
    if c = '<' then [] :: texts true cs else (texts false cs).modifyHead (c :: ·)

/-- The tags of a document. -/
def tags : (inTag : Bool) → List Char → List (List Char)
  | _, [] => []
  | true, c :: cs =>
    if c = '>' then [c] :: tags false cs else (tags true cs).modifyHead (c :: ·)
  | false, c :: cs =>
    if c = '<' then (tags true cs).modifyHead (c :: ·) else tags false cs

/-- A document without its tags. -/
def untagged (cs : List Char) : List Char := (texts false cs).flatten

section Cutting

variable {us : List Char}

theorem texts_ne_nil (cs : List Char) : ∀ inTag, texts inTag cs ≠ [] := by
  induction cs with
  | nil => simp [texts]
  | cons c cs ih =>
    intro inTag
    cases inTag with
    | true => exact ih _
    | false =>
      rw [texts]
      split
      · simp
      · simpa using ih false

theorem texts_append (h : '<' ∉ us) (cs : List Char) :
    texts false (us ++ cs) = (texts false cs).modifyHead (us ++ ·) := by
  induction us with
  | nil => exact (congrFun List.modifyHead_id _).symm
  | cons c us ih =>
    have hne : c ≠ '<' := fun heq => h (heq ▸ List.mem_cons_self)
    rw [List.cons_append, texts, if_neg hne, ih fun hus => h (List.mem_cons_of_mem c hus),
      List.modifyHead_modifyHead]
    rfl

theorem tags_append (h : '<' ∉ us) (cs : List Char) : tags false (us ++ cs) = tags false cs := by
  induction us with
  | nil => rfl
  | cons c us ih =>
    have hne : c ≠ '<' := fun heq => h (heq ▸ List.mem_cons_self)
    rw [List.cons_append, tags, if_neg hne, ih fun hus => h (List.mem_cons_of_mem c hus)]

theorem texts_tag (h : '>' ∉ us) (cs : List Char) :
    texts true (us ++ '>' :: cs) = texts false cs := by
  induction us with
  | nil => rfl
  | cons c us ih =>
    have hne : c ≠ '>' := fun heq => h (heq ▸ List.mem_cons_self)
    rw [List.cons_append, texts, bne_iff_ne.mpr hne, ih fun hus => h (List.mem_cons_of_mem c hus)]

theorem tags_tag (h : '>' ∉ us) (cs : List Char) :
    tags true (us ++ '>' :: cs) = (us ++ ['>']) :: tags false cs := by
  induction us with
  | nil => simp [tags]
  | cons c us ih =>
    have hne : c ≠ '>' := fun heq => h (heq ▸ List.mem_cons_self)
    rw [List.cons_append, tags, if_neg hne, ih fun hus => h (List.mem_cons_of_mem c hus)]
    rfl

end Cutting

/-! ### Cutting a document -/

/-- What is written for a mark is a character as it stands in a text, or a tag. -/
theorem written_cases (hclass : '>' ∉ classPrefix.toList) (m : Mark) :
    (∃ c, m = .char c) ∨ (m.char? = none ∧
      ∃ us, '>' ∉ us ∧ written classPrefix m = '<' :: (us ++ ['>'])) := by
  cases m with
  | char c => exact .inl ⟨c, rfl⟩
  | opened scope =>
    refine .inr ⟨rfl, (inOpenTag classPrefix scope).toList, ?_, toList_openTag classPrefix scope⟩
    simp [inOpenTag, hclass, scope.closing_notMem_name]
  | closed => exact .inr ⟨rfl, "/span".toList, by decide, rfl⟩

theorem texts_written_char (c : Char) (cs : List Char) :
    texts false (written classPrefix (.char c) ++ cs) =
      (texts false cs).modifyHead (escapeChar c ++ ·) :=
  texts_append (notMem_escapeChar List.mem_cons_self c) cs

variable {us : List Char}

theorem texts_of_tag (hus : '>' ∉ us) (cs : List Char) :
    texts false ('<' :: (us ++ ['>']) ++ cs) = [] :: texts false cs := by
  rw [List.cons_append, List.append_assoc, texts, if_pos rfl]
  exact congrArg _ (texts_tag hus cs)

theorem tags_of_tag (hus : '>' ∉ us) (cs : List Char) :
    tags false ('<' :: (us ++ ['>']) ++ cs) = ('<' :: (us ++ ['>'])) :: tags false cs := by
  rw [List.cons_append, List.append_assoc, tags, if_pos rfl]
  rw [List.singleton_append, tags_tag hus cs]
  rfl

variable (hclass : '>' ∉ classPrefix.toList)

include hclass

/-- The tags of a document are those of its marks. -/
theorem tags_flatMap_written (ms : List Mark) :
    tags false (ms.flatMap (written classPrefix)) =
      (ms.filter (·.char? = none)).map (written classPrefix) := by
  induction ms with
  | nil => rfl
  | cons m ms ih =>
    rw [List.flatMap_cons]
    rcases written_cases hclass m with ⟨c, rfl⟩ | ⟨hm, us, hus, hwritten⟩
    · rw [written, tags_append (notMem_escapeChar List.mem_cons_self c), ih]
      rfl
    · rw [hwritten, tags_of_tag hus, ih, List.filter_cons, hm, ← hwritten]
      rfl

/-- **What stands between two tags** is text with its characters escaped. -/
theorem exists_of_mem_texts (ms : List Mark) :
    ∀ s ∈ texts false (ms.flatMap (written classPrefix)),
      ∃ cs : List Char, s = cs.flatMap escapeChar := by
  induction ms with
  | nil =>
    intro s hs
    exact ⟨[], List.mem_singleton.mp hs⟩
  | cons m ms ih =>
    intro s hs
    rw [List.flatMap_cons] at hs
    rcases written_cases hclass m with ⟨c, rfl⟩ | ⟨-, us, hus, hwritten⟩
    · rw [texts_written_char] at hs
      cases htexts : texts false (ms.flatMap (written classPrefix)) with
      | nil => simp [htexts] at hs
      | cons t ts =>
        rw [htexts] at hs ih
        rcases List.mem_cons.mp hs with rfl | hs
        · obtain ⟨cs, rfl⟩ := ih t List.mem_cons_self
          exact ⟨c :: cs, rfl⟩
        · exact ih s (List.mem_cons_of_mem t hs)
    · rw [hwritten, texts_of_tag hus] at hs
      rcases List.mem_cons.mp hs with rfl | hs
      · exact ⟨[], rfl⟩
      · exact ih s hs

/-- Without the tags the text is left, escaped. -/
theorem untagged_flatMap_written (ms : List Mark) :
    untagged (ms.flatMap (written classPrefix)) =
      (ms.filterMap Mark.char?).flatMap escapeChar := by
  induction ms with
  | nil => rfl
  | cons m ms ih =>
    rw [untagged] at ih ⊢
    rw [List.flatMap_cons]
    rcases written_cases hclass m with ⟨c, rfl⟩ | ⟨hm, us, hus, hwritten⟩
    · rw [texts_written_char]
      obtain ⟨t, ts, htexts⟩ := List.exists_cons_of_ne_nil
        (texts_ne_nil (ms.flatMap (written classPrefix)) false)
      rw [htexts] at ih ⊢
      rw [List.modifyHead_cons, List.flatten_cons, List.append_assoc, ← List.flatten_cons, ih]
      rfl
    · rw [hwritten, texts_of_tag hus, List.filterMap_cons, hm]
      exact ih

omit hclass

/-- **HTML determines the tree**, whatever texts and scopes stand in it: two documents are the
same just when the nodes are, up to the way their texts are cut.  Without the tags, each of which
opens a scope or closes one, and with its entities read, a document is the text of the nodes, and
what stands between the tags cannot be taken for a tag or for the middle of an entity. -/
theorem renderNodes_determines
    (hclass : ∀ c ∈ ['"', '<', '>', '&'], c ∉ classPrefix.toList) (ns ms : List Node) :
    (renderNodes classPrefix ns = renderNodes classPrefix ms ↔
        Node.allMerged ns = Node.allMerged ms) ∧
      decode (untagged (renderNodes classPrefix ns).toList) = (Node.contents ns).toList ∧
      (∀ t ∈ tags false (renderNodes classPrefix ns).toList,
        t = "</span>".toList ∨ ∃ scope, t = (openTag classPrefix scope).toList) ∧
      ∀ s ∈ texts false (renderNodes classPrefix ns).toList, IsTextual s := by
  have hclosing : '>' ∉ classPrefix.toList := hclass '>' (by decide)
  refine ⟨?_, ?_, ?_, ?_⟩
  · rw [← String.toList_inj, toList_renderNodes, toList_renderNodes,
      flatMap_written_injective.eq_iff]
    exact Node.allMarks_eq_iff
  · rw [toList_renderNodes, untagged_flatMap_written hclosing, decode_flatMap_escapeChar]
    exact Node.filterMap_allMarks ns
  · intro t ht
    rw [toList_renderNodes, tags_flatMap_written hclosing] at ht
    obtain ⟨m, hm, rfl⟩ := List.mem_map.mp ht
    cases m with
    | char c => simp [Mark.char?] at hm
    | opened scope => exact .inr ⟨scope, rfl⟩
    | closed => exact .inl rfl
  · intro s hs
    rw [toList_renderNodes] at hs
    obtain ⟨cs, rfl⟩ := exists_of_mem_texts hclosing _ s hs
    exact isTextual_flatMap_escapeChar cs

/-- A text that imitates a tag and an entity, cut in two ways. -/
theorem renderNodes_of_imitation :
    renderNodes "hljs-" [.text "", .region .keyword [.text "</span>", .text "&lt;"], .text ""] =
        renderNodes "hljs-" [.region .keyword [.text "</span>&lt;"]] ∧
      decode (untagged (renderNodes "hljs-"
        [.text "", .region .keyword [.text "</span>", .text "&lt;"], .text ""]).toList) =
          "</span>&lt;".toList := by
  have hmerged : Node.allMerged
      [.text "", .region .keyword [.text "</span>", .text "&lt;"], .text ""] =
        Node.allMerged [.region .keyword [.text "</span>&lt;"]] := rfl
  have hclass : ∀ c ∈ ['"', '<', '>', '&'], c ∉ "hljs-".toList := by simp
  obtain ⟨hiff, hdecode, -, -⟩ := renderNodes_determines hclass
    [.text "", .region .keyword [.text "</span>", .text "&lt;"], .text ""]
    [.region .keyword [.text "</span>&lt;"]]
  exact ⟨hiff.mpr hmerged, hdecode⟩

end Output.Html

end Highlighting
