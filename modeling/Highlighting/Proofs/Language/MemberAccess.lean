/-
  Highlighting/Proofs/Language/MemberAccess.lean
  ==============================================
  **Regions of members** in Solidity.

  The point behind a name opens a region for the member, and a namespace opens one
  together with its point.  The region ends with the chain of members, at a
  character that is no part of it (`delimiters`).  As nothing else matches in front
  of the member, this is what a scan does, whatever follows
  (`TakesMembers.exists_handsBack`).

  The character is taken with the end of the region: it has no scope, whatever it
  is by itself, and only what is behind it is highlighted as by itself.  So the
  text behind a member keeps its leaves when the character has no scope by itself,
  either (`delimiter_behind_member_is_plain`).
-/
import Highlighting.Proofs.Language.Delimiters

namespace Highlighting

open Scan Search

/-- The leaves of the texts together are those of each by itself. -/
def Grammar.KeepsApart (g : Grammar) (options : Options) (x y : String) : Prop :=
  (g.highlight (x ++ y) options).leaves =
    Token.join (g.highlight x options).leaves (g.highlight y options).leaves

namespace Language.Solidity

/-! ### Grammars -/

/-- The pattern opens a region of members that has no scope and leaves its end outside. -/
structure OpensMembers (g : Grammar) (p : Pattern) (k : Nat) : Prop where
  opener : g.terminals[(g.mode k).opener]? = some ⟨p, false⟩
  ending : g.EndsAs (some memberEnd) (g.mode k).ending
  contains : ∀ m ∈ (g.mode k).content.contains,
    g.Passes (· == .memberOpening) (g.mode m).opener
  illegal : (g.mode k).content.illegal = none
  scope : (g.mode k).scope = none
  excludesEnd : (g.mode k).excludesEnd = true
  endsParent : (g.mode k).endsParent = false

/-- Outside of regions nothing but an opening of members matches in a name with a member, the first
mode that opens so is one of members, and no pattern looks behind a delimiter. -/
structure TakesMembers (g : Grammar) : Prop where
  outermost : ∀ source options, ∀ d ∈ candidates (task g source options) [],
    g.Passes sparesAccess d.1
  opens : ∀ owner p start, OpensAccess owner p start → ∃ before k after,
    g.root.contains = before ++ k :: after ∧ OpensMembers g p k ∧
      ∀ m ∈ before, g.Passes (· != p) (g.mode m).opener
  behind : ∀ t ∈ g.terminals, t.pattern.isListed = true ∧
    ∀ c ∈ delimiters, t.pattern.startsBehind c = true

def opensMembers (b : Builder) (p : Pattern) (m : ModeDecl) : Bool :=
  m.opensWith b (· == p) && b.endsAs (some memberEnd) m.ending &&
    m.contains.all (b.modeAt (·.opensWith b (· == .memberOpening))) && m.illegal.isNone &&
    m.scope.isNone && m.excludesEnd && !m.endsParent

def opensOtherwise (b : Builder) (p : Pattern) : Nat → Bool :=
  b.modeAt (·.opensWith b (· != p))

/-- The first mode that opens with the pattern is one of members. -/
def reachesMembers (b : Builder) (p : Pattern) (ks : List Nat) : Bool :=
  (ks.dropWhile (opensOtherwise b p)).head?.any (b.modeAt (opensMembers b p))

def takesMembers (language : LanguageDecl) (b : Builder) : Bool :=
  b.outermost language sparesAccess &&
    (.memberOpening :: namespaceNames.map .namespaceOpening).all
      (reachesMembers b · language.contains) &&
    b.allPatterns language fun p => p.isListed && delimiters.all p.startsBehind

theorem takesMembers_solidity : declares declare takesMembers = true :=
  declares_of_workedOut workedOut (by decide +kernel)

theorem opensMembers_of_finish {b : Builder} {language : LanguageDecl} {g : Grammar} {p : Pattern}
    {k : Nat} (hfinish : b.finish language = .ok g) (h : b.modeAt (opensMembers b p) k = true) :
    OpensMembers g p k := by
  obtain ⟨decl, hdecl, hmode⟩ := Builder.exists_of_finish hfinish h
  simp only [opensMembers, Bool.and_eq_true, Bool.not_eq_true', Option.isNone_iff_eq_none] at hdecl
  obtain ⟨⟨⟨⟨⟨⟨hopener, hending⟩, hcontains⟩, hillegal⟩, hscope⟩, hexcludes⟩, hparent⟩ := hdecl
  refine ⟨?_, Builder.endsAs_of_realizes hmode.ending hending, ?_, ?_, hmode.scope.trans hscope,
    hmode.excludesEnd.trans hexcludes, hmode.endsParent.trans hparent⟩
  · obtain ⟨p', hp, hcompiles⟩ := hmode.opener
    rw [ModeDecl.opensWith, hp, Option.any_some] at hopener
    exact Builder.compiles_eq hcompiles hopener
  · rw [hmode.contains]
    exact Builder.opener_passes_of_all hfinish hcontains
  · exact Builder.illegal_eq_none hmode (Option.isNone_iff_eq_none.mpr hillegal)

theorem exists_opensMembers {b : Builder} {language : LanguageDecl} {g : Grammar} {p : Pattern}
    (hfinish : b.finish language = .ok g)
    (h : reachesMembers b p language.contains = true) : ∃ before k after,
      g.root.contains = before ++ k :: after ∧ OpensMembers g p k ∧
        ∀ m ∈ before, g.Passes (· != p) (g.mode m).opener := by
  obtain ⟨k, hk, hopens⟩ := (Option.any_eq_true _ _).mp h
  obtain ⟨after, hrest⟩ := List.head?_eq_some_iff.mp hk
  refine ⟨language.contains.takeWhile (opensOtherwise b p), k, after, ?_,
    opensMembers_of_finish hfinish hopens,
    Builder.opener_passes_of_all hfinish List.all_takeWhile⟩
  rw [(Builder.realizes_of_finish hfinish).contains, ← hrest, List.takeWhile_append_dropWhile]

/-- **Declarations that take members make a grammar that does.** -/
theorem takesMembers_of_finish {g : Grammar} (hg : grammar = .ok g) : TakesMembers g := by
  obtain ⟨language, b, -, hfinish, hcheck⟩ := exists_finish_of_declares takesMembers_solidity hg
  simp only [takesMembers, Bool.and_eq_true, List.all_cons, List.all_map, List.all_eq_true]
    at hcheck
  obtain ⟨⟨houter, hmember, hnamespaces⟩, hbehind⟩ := hcheck
  refine ⟨fun source options => Builder.passes_of_outermost hfinish houter, ?_, fun t ht => ?_⟩
  · intro owner p start hopens
    cases hopens with
    | member => exact exists_opensMembers hfinish hmember
    | ofNamespace hname => exact exists_opensMembers hfinish (hnamespaces owner hname)
  · have hcheck := Builder.check_of_allPatterns hfinish hbehind t ht
    rw [Bool.and_eq_true, List.all_eq_true] at hcheck
    exact hcheck

/-! ### Regions of members -/

section Regions

variable {g : Grammar} {options : Options} {text u : Source} {owner : String} {pattern : Pattern}
  {c : Char} {k q start stop e : Nat} {before after : List Nat}

theorem OpensMembers.exists_closer (hk : OpensMembers g pattern k) :
    ∃ t, (g.mode k).ending = .pattern t ∧ closer? g [k] 0 = some (t, 0) ∧
      g.terminals[t]? = some ⟨memberEnd, true⟩ := by
  have hending := hk.ending
  rw [closer?]
  generalize (g.mode k).ending = ending at hending
  cases hending with
  | pattern ht => exact ⟨_, rfl, rfl, ht⟩

/-- **The region ends at what is behind the member**, and nothing else counts in it. -/
theorem OpensMembers.eq_closes (hk : OpensMembers g pattern k) (haccess : IsAccess text owner stop)
    (hq : owner.length < q) (hle : q ≤ stop) {d : Nat × Candidate}
    (hd : d ∈ candidates (task g text options) [k])
    (hend : admittedEnd? (task g text options) [] d.1 q = some e) :
    d.2 = .closes 0 ∧ q = stop ∧ e = q + 1 ∧ text[q]? ≠ none := by
  obtain ⟨index, candidate⟩ := d
  obtain ⟨t, ht, hmatch, -⟩ := admittedEnd?_eq_some_iff.mp hend
  cases candidate with
  | opens m =>
    obtain ⟨hm, rfl⟩ := mem_candidates_opens.mp hd
    have hopener : t.pattern = .memberOpening := eq_of_beq (hk.contains m hm t ht)
    rw [hopener] at hmatch
    have hpoint := ((haccess.endAt?_memberOpening hle).mp hmatch).1
    omega
  | closes depth =>
    obtain ⟨i, -, hcloser, hi⟩ := hk.exists_closer
    obtain ⟨rfl, rfl⟩ := Prod.mk.inj (Option.some.inj
      (hcloser.symm.trans (mem_candidates_closes.mp hd)))
    obtain rfl : ⟨memberEnd, true⟩ = t := Option.some.inj (hi.symm.trans ht)
    obtain ⟨hset, rfl⟩ := Pattern.endAt?_set.mp hmatch
    obtain ⟨c, hc, hnot⟩ := (Option.any_eq_true _ _).mp hset
    have hc' : text[q]? = some c := hc
    refine ⟨rfl, ?_, rfl, by rw [hc']; exact nofun⟩
    by_contra hne
    obtain ⟨d, hd, hat⟩ := haccess.names q (Nat.lt_of_le_of_ne hle hne) (Nat.ne_of_gt hq)
    obtain rfl := Option.some.inj (hat.symm.trans hc')
    rw [CharSet.contains, contains_of_mem_nameChars d hd] at hnot
    cases hnot
  | illegal =>
    have hillegal : (g.mode k).content.illegal = some index := (mem_candidates_illegal.mp hd).2
    rw [hk.illegal] at hillegal
    cases hillegal

/-- It stays open up to the end of the text. -/
theorem OpensMembers.next?_eq_none (hk : OpensMembers g pattern k)
    (haccess : IsAccess text owner text.size) (hsound : (task g text options).IsSound) :
    Place.next? (task g text options) [] ⟨owner.length + 1, [k]⟩ = none := by
  refine (Place.next?_eq_none_iff hsound).mpr fun d hd q hq => ?_
  cases hend : admittedEnd? (task g text options) [] d.1 q with
  | none => rfl
  | some e =>
    have hadmitted := admitted_of_admittedEnd? hsound hend
    have hle : q ≤ text.size := Nat.le_trans hadmitted.le hadmitted.stop_le
    obtain ⟨-, rfl, -, hat⟩ := hk.eq_closes haccess hq hle hd hend
    exact absurd (Array.getElem?_eq_none (Nat.le_refl _)) hat

/-- A delimiter ends it. -/
theorem OpensMembers.next?_closes (hk : OpensMembers g pattern k)
    (haccess : IsAccess text owner stop) (hsound : (task g text options).IsSound)
    (hat : text[stop]? = some c) :
    Place.next? (task g text options) [] ⟨owner.length + 1, [k]⟩ =
      some ⟨⟨stop, stop + 1⟩, .closes 0⟩ := by
  have hquiet : Quiet (task g text options) [] [k] (owner.length + 1) stop := by
    intro d hd q hq hlt
    cases hend : admittedEnd? (task g text options) [] d.1 q with
    | none => rfl
    | some e =>
      have hstop := (hk.eq_closes haccess hq (Nat.le_of_lt hlt) hd hend).2.1
      omega
  obtain ⟨t, -, hcloser, ht⟩ := hk.exists_closer
  have hset : (text[stop]?).any (CharSet.compl Yul.nameRest).contains = true := by
    rw [hat, Option.any_some, CharSet.contains,
      not_contains_of_mem_delimiters (haccess.behind c hat)]
    rfl
  rw [Place.next?_of_quiet hsound (Nat.le_of_lt haccess.member_pos) hquiet]
  refine next?_of_only hsound (d := (t, .closes 0)) (mem_candidates_closes.mpr hcloser)
    (admittedEnd?_eq_some ht (Nat.lt_succ_self stop) (Pattern.endAt?_set.mpr ⟨hset, rfl⟩))
    fun d hd e hend => ?_
  obtain ⟨hcandidate, -, he, -⟩ :=
    hk.eq_closes haccess haccess.owner_lt (Nat.le_refl _) hd hend
  exact ⟨hcandidate, he⟩

namespace TakesMembers

variable (hg : TakesMembers g) (haccess : IsAccess text owner stop)
  (hsound : (task g text options).IsSound)
include hg haccess

/-- Outside of regions, what matches in front of the member opens a region for it. -/
theorem of_admittedEnd? {d : Nat × Candidate} (hd : d ∈ candidates (task g text options) [])
    (hq : q ≤ owner.length) (hend : admittedEnd? (task g text options) [] d.1 q = some e) :
    ∃ t, g.terminals[d.1]? = some t ∧ OpensAccess owner t.pattern q := by
  obtain ⟨t, ht, hmatch, -⟩ := admittedEnd?_eq_some_iff.mp hend
  exact ⟨t, ht, (OpensAccess.of_endAt? haccess (hg.outermost _ _ d hd t ht) hq hmatch).1⟩

include hsound

/-- **A region of members opens first.** -/
theorem next?_opens (hopens : OpensAccess owner pattern start)
    (hfirst : ∀ pattern' q, OpensAccess owner pattern' q → q ≤ start →
      pattern' = pattern ∧ q = start)
    (hcontains : g.root.contains = before ++ k :: after) (hk : OpensMembers g pattern k)
    (hbefore : ∀ m ∈ before, g.Passes (· != pattern) (g.mode m).opener) :
    Place.next? (task g text options) [] ⟨0, []⟩ =
      some ⟨⟨start, owner.length + 1⟩, .opens k⟩ := by
  have hle := hopens.le
  have hquiet : Quiet (task g text options) [] [] 0 start := by
    intro d hd q _ hq
    cases hend : admittedEnd? (task g text options) [] d.1 q with
    | none => rfl
    | some e =>
      obtain ⟨t, -, ht⟩ := hg.of_admittedEnd? haccess hd (by omega) hend
      have hstart := (hfirst _ _ ht (Nat.le_of_lt hq)).2
      omega
  rw [Place.next?_of_quiet hsound (Nat.zero_le start) hquiet]
  refine Place.next?_of_first hsound hcontains (fun m hm => ?_)
    (admittedEnd?_eq_some hk.opener (Nat.lt_succ_of_le hle) (hopens.endAt?_eq haccess))
  cases hend : admittedEnd? (task g text options) [] (g.mode m).opener start with
  | none => exact hend
  | some e =>
    have hmem : ((g.mode m).opener, Candidate.opens m) ∈ candidates (task g text options) [] := by
      refine mem_candidates_opens.mpr ⟨?_, rfl⟩
      show m ∈ g.root.contains
      rw [hcontains]
      exact List.mem_append_left _ hm
    obtain ⟨t, ht, hopens'⟩ := hg.of_admittedEnd? haccess hmem hle hend
    have hother := hbefore m hm t ht
    rw [(hfirst _ _ hopens' (Nat.le_refl _)).1] at hother
    simp at hother

end TakesMembers

/-- **A region of members hands back what ends it.** -/
theorem TakesMembers.exists_handsBack (hg : TakesMembers g)
    (hsound : ∀ text, (task g text options).IsSound)
    (haccess : ∀ v : Source, v = #[] ∨ v[0]? = some c → IsAccess (u ++ v) owner u.size) :
    ∃ k start, HandsBack g options u c k start (owner.length + 1) := by
  have hself := haccess #[] (.inl rfl)
  rw [Array.append_empty] at hself
  obtain ⟨pattern, start, hopens, hfirst⟩ := OpensAccess.exists_first hself.owner_pos
  obtain ⟨before, k, after, hcontains, hk, hbefore⟩ := hg.opens _ _ _ hopens
  obtain ⟨t, hending, -, -⟩ := hk.exists_closer
  refine ⟨k, start, ?_, hk.next?_eq_none hself (hsound u), fun v => ?_, ?_, hk.scope,
    hk.excludesEnd, hk.endsParent⟩
  · exact fun v hv =>
      hg.next?_opens (haccess v hv) (hsound _) hopens hfirst hcontains hk hbefore
  · have hat : (u ++ (#[c] ++ v))[u.size]? = some c :=
      (Source.getElem?_append_add u _ 0).trans (Array.getElem?_append_left Nat.one_pos)
    exact hk.next?_closes (haccess _ (HandsBack.nothing_or_first c v)) (hsound _) hat
  · rw [hending]
    exact nofun

end Regions

/-! ### Leaves -/

section Leaves

variable {g : Grammar} {c : Char}

theorem leaves_of_access (hg : grammar = .ok g)
    (hsound : ∀ text options, (task g text options).IsSound) (options : Options)
    {owner member : String} (howner : MatchesFully lexeme owner) (hdollar : '$' ∉ owner.toList)
    (hmember : MatchesFully lexeme member) (hc : c ∈ delimiters) (rest : String) :
    (g.highlight (owner ++ "." ++ member ++ String.singleton c ++ rest) options).leaves =
      Token.join (Token.join (g.highlight (owner ++ "." ++ member) options).leaves
        [⟨none, String.singleton c⟩]) (g.highlight rest options).leaves := by
  have hmembers := takesMembers_of_finish hg
  have hlines := highlightsLines_of_finish highlightsLines_solidity hg
  have haccess : ∀ v : Source, v = #[] ∨ v[0]? = some c →
      IsAccess (Source.ofString (owner ++ "." ++ member) ++ v) owner
        (Source.ofString (owner ++ "." ++ member)).size := by
    intro v hv
    refine isAccess_of_names howner hdollar hmember fun d hd => ?_
    rcases hv with rfl | hfirst
    · cases hd
    · exact Option.some.inj (hfirst.symm.trans hd) ▸ hc
  obtain ⟨k, start, hback⟩ := hmembers.exists_handsBack (fun text => hsound text options) haccess
  exact leaves_of_handsBack (fun text => hsound text options)
    (fun t ht => ⟨(hmembers.behind t ht).1, (hmembers.behind t ht).2 c hc⟩) rest
    hlines.scopesBegin (namesLack_of_finish hg hc) hback

/-- A separator is a leaf without a scope ahead of the others. -/
theorem leaves_of_separator (hg : grammar = .ok g)
    (hsound : ∀ text options, (task g text options).IsSound) (options : Options)
    (hc : c ∈ separators) (rest : String) :
    (g.highlight (String.singleton c ++ rest) options).leaves =
      Token.join [⟨none, String.singleton c⟩] (g.highlight rest options).leaves := by
  have hsound' := fun text => hsound text options
  have hdelimiter : c ∈ delimiters := (List.mem_filter.mp hc).1
  have hbehind := (takesMembers_of_finish hg).behind
  have hlines := highlightsLines_of_finish highlightsLines_solidity hg
  exact leaves_of_standsAlone hsound'
    (fun t ht => ⟨(hbehind t ht).1, (hbehind t ht).2 c hdelimiter⟩) hlines.scopesBegin
    (namesLack_of_finish hg hdelimiter)
    ((takesDelimiters_of_finish hg).standsAlone hsound' hc) rest

/-- At an operator the first leaf has a scope. -/
theorem exists_head?_leaves_of_operator (hg : grammar = .ok g)
    (hsound : ∀ text options, (task g text options).IsSound) (options : Options)
    (hc : c ∈ operators) (rest : String) :
    ∃ t, (g.highlight (String.singleton c ++ rest) options).leaves.head? = some t ∧
      t.scope ≠ none := by
  have hlines := highlightsLines_of_finish highlightsLines_solidity hg
  have hsound' := hsound (Source.ofString (String.singleton c ++ rest)) options
  have hfirst : (Source.ofString (String.singleton c ++ rest))[0]? = some c := by
    rw [Source.ofString_append, Source.ofString, String.toList_singleton]
    exact Array.getElem?_append_left Nat.one_pos
  obtain ⟨k, e, hopens, hscope, hbegin, hillegal⟩ :=
    (takesDelimiters_of_finish hg).exists_next? hsound' hfirst hc
  obtain ⟨scope, hscope⟩ := Option.ne_none_iff_exists'.mp hscope
  exact exists_head?_leaves hsound' hlines.scopesBegin hscope hbegin hillegal hopens

/-! ### Members and what is behind them -/

section Apart

variable (hg : grammar = .ok g) (hsound : ∀ text options, (task g text options).IsSound)
  (options : Options) {owner member : String} (howner : MatchesFully lexeme owner)
  (hdollar : '$' ∉ owner.toList) (hmember : MatchesFully lexeme member) (hc : c ∈ delimiters)
include hg hsound howner hdollar hmember hc

/-- **A member keeps apart from text that starts with an unscoped character**, and from no other. -/
theorem keepsApart_iff (rest : String) :
    g.KeepsApart options (owner ++ "." ++ member) (String.singleton c ++ rest) ↔
      (g.highlight (String.singleton c ++ rest) options).leaves =
        Token.join [⟨none, String.singleton c⟩] (g.highlight rest options).leaves := by
  have hleaves := leaves_of_access hg hsound options howner hdollar hmember hc rest
  rw [String.append_assoc] at hleaves
  rw [Grammar.KeepsApart, hleaves, eq_comm]
  exact Token.join_eq_join_unscoped_iff String.singleton_ne_empty

theorem not_keepsApart_of_operator (hoperator : c ∈ operators) (rest : String) :
    ¬ g.KeepsApart options (owner ++ "." ++ member) (String.singleton c ++ rest) := by
  intro happart
  have hplain := (keepsApart_iff hg hsound options howner hdollar hmember hc rest).mp happart
  obtain ⟨t, hhead, hscoped⟩ :=
    exists_head?_leaves_of_operator hg hsound options hoperator rest
  obtain ⟨u, ts, hjoin⟩ :=
    Token.exists_join_unscoped (String.singleton c) (g.highlight rest options).leaves
  rw [hplain, hjoin] at hhead
  exact hscoped (Option.some.inj hhead ▸ rfl)

end Apart

end Leaves

end Language.Solidity

open Language.Solidity in
/-- **The character behind a member is a leaf without a scope**, whatever it is by itself, and what
is behind it has the leaves that it has by itself.  So a member keeps apart from the text behind it
if and only if that starts with such a leaf by itself: but for quotes, if and only if it does not
start with an operator. -/
theorem delimiter_behind_member_is_plain (options : Options) (owner member : String) (c : Char)
    (rest : String) (howner : Language.MatchesFully lexeme owner) (hdollar : '$' ∉ owner.toList)
    (hmember : Language.MatchesFully lexeme member) (hc : c ∈ delimiters) :
    ∃ solidity, Language.Solidity.grammar = .ok solidity ∧
      (solidity.highlight (owner ++ "." ++ member ++ String.singleton c ++ rest) options).leaves =
        Token.join (Token.join (solidity.highlight (owner ++ "." ++ member) options).leaves
          [⟨none, String.singleton c⟩]) (solidity.highlight rest options).leaves ∧
      (solidity.KeepsApart options (owner ++ "." ++ member) (String.singleton c ++ rest) ↔
        (solidity.highlight (String.singleton c ++ rest) options).leaves =
          Token.join [⟨none, String.singleton c⟩] (solidity.highlight rest options).leaves) ∧
      (c ∉ Literal.quotes →
        (solidity.KeepsApart options (owner ++ "." ++ member) (String.singleton c ++ rest) ↔
          c ∉ operators)) := by
  obtain ⟨solidity, hsolidity, hsuits⟩ := Language.exists_solidity
  have hiff := keepsApart_iff hsolidity hsuits.isSound options howner hdollar hmember hc rest
  refine ⟨solidity, hsolidity,
    leaves_of_access hsolidity hsuits.isSound options howner hdollar hmember hc rest, hiff,
    fun hquote => ⟨fun happart hoperator => ?_, fun hplain => hiff.mpr ?_⟩⟩
  · exact not_keepsApart_of_operator hsolidity hsuits.isSound options howner hdollar hmember hc
      hoperator rest happart
  · have hseparator : c ∈ separators := by
      refine List.mem_filter.mpr ⟨hc, ?_⟩
      simp [hplain, hquote]
    exact leaves_of_separator hsolidity hsuits.isSound options hseparator rest

open Language.Solidity in
/-- With a blank between, the member of a namespace keeps apart from the sum behind it. -/
theorem sum_with_the_sender :
    ∃ solidity, Language.Solidity.grammar = .ok solidity ∧
      (Language.MatchesFully lexeme "msg" ∧ '$' ∉ "msg".toList ∧
        Language.MatchesFully lexeme "value" ∧ ' ' ∈ delimiters) ∧
      (solidity.highlight ("msg" ++ "." ++ "value" ++ String.singleton ' ' ++ "+ 1")
        ⟨false⟩).leaves =
          Token.join (Token.join (solidity.highlight ("msg" ++ "." ++ "value") ⟨false⟩).leaves
            [⟨none, String.singleton ' '⟩]) (solidity.highlight "+ 1" ⟨false⟩).leaves ∧
      solidity.KeepsApart ⟨false⟩ ("msg" ++ "." ++ "value") (String.singleton ' ' ++ "+ 1") := by
  have hname : ∀ name ∈ ["msg", "value"], Language.MatchesFully lexeme name := by
    unfold Language.MatchesFully
    decide
  have howner := hname "msg" (by decide)
  have hmember := hname "value" (by decide)
  have hdelimiter : ' ' ∈ delimiters := by decide
  obtain ⟨solidity, hsolidity, hleaves, -, happart⟩ := delimiter_behind_member_is_plain ⟨false⟩
    "msg" "value" ' ' "+ 1" howner (by decide) hmember hdelimiter
  exact ⟨solidity, hsolidity, ⟨howner, by decide, hmember, hdelimiter⟩, hleaves,
    (happart (by decide)).mpr (by decide)⟩

open Language.Solidity in
/-- An operator behind a member is none any more. -/
theorem exists_operator_lost_behind_member :
    ∃ solidity, Language.Solidity.grammar = .ok solidity ∧
      (Language.MatchesFully lexeme "a" ∧ '$' ∉ "a".toList ∧ "a" ∉ openingWords ∧
        Language.MatchesFully lexeme "b" ∧ '$' ∉ "b".toList ∧ '+' ∈ delimiters) ∧
      (solidity.highlight "a.b+" ⟨false⟩).leaves ≠
        Token.join (solidity.highlight "a.b" ⟨false⟩).leaves
          (solidity.highlight "+" ⟨false⟩).leaves := by
  obtain ⟨solidity, hsolidity, hsuits⟩ := Language.exists_solidity
  have hname : ∀ name ∈ ["a", "b"], Language.MatchesFully lexeme name := by
    unfold Language.MatchesFully
    decide
  have howner := hname "a" (by decide)
  have hmember := hname "b" (by decide)
  have hdelimiter : '+' ∈ delimiters := by decide
  exact ⟨solidity, hsolidity, ⟨howner, by decide, by decide, hmember, by decide, hdelimiter⟩,
    not_keepsApart_of_operator hsolidity hsuits.isSound ⟨false⟩ howner (by decide) hmember
      hdelimiter (by decide) ""⟩

end Highlighting
