/-
  Highlighting/Proofs/Theme.lean
  ==============================
  **Hexadecimal colours**, and themes that are made from names.

  A text that begins with a number sign names no colour, so it is read channel by
  channel.  A channel is two hexadecimal digits (`IsHexColor`), or one of them
  behind a plus sign (`IsReadAsHex`); nothing else of that length is read.  A
  theme takes its entries in order, and stops at the first that has a scope or a
  colour that is not known.
-/
import Highlighting.Theme
import Highlighting.Proofs.Text.Quoted

namespace Highlighting

open CharClass (hexValue? IsHexDigitOf hexValue?_eq_some_iff)

namespace Color

/-! ### Channels -/

/-- Two hexadecimal digits write the value of a channel. -/
def IsHexByte (first second : Char) (value : Nat) : Prop :=
  ∃ high low, IsHexDigitOf high first ∧ IsHexDigitOf low second ∧ value = 16 * high + low

/-- Two characters are read as the value of a channel: hexadecimal digits, or one of them behind
a plus sign. -/
def IsReadAsByte (first second : Char) (value : Nat) : Prop :=
  IsHexByte first second value ∨ (first = '+' ∧ IsHexDigitOf value second)

/-- A number sign and six hexadecimal digits, with the values of the three pairs. -/
def IsHexColor (text : String) (red green blue : Nat) : Prop :=
  ∃ a b c d e f, text.toList = ['#', a, b, c, d, e, f] ∧
    IsHexByte a b red ∧ IsHexByte c d green ∧ IsHexByte e f blue

/-- A number sign and three channels as they are read. -/
def IsReadAsHex (text : String) (red green blue : Nat) : Prop :=
  ∃ a b c d e f, text.toList = ['#', a, b, c, d, e, f] ∧
    IsReadAsByte a b red ∧ IsReadAsByte c d green ∧ IsReadAsByte e f blue

theorem plus_isNoHexDigit (n : Nat) : ¬ IsHexDigitOf n '+' := by
  rw [← hexValue?_eq_some_iff]
  have hnone : hexValue? '+' = none := by decide
  simp [hnone]

theorem channel?_eq_some_iff {first second : Char} {value : Nat} :
    channel? first second = some value ↔ IsReadAsByte first second value := by
  rw [IsReadAsByte, IsHexByte, channel?]
  split
  · next hplus =>
    rw [hexValue?_eq_some_iff]
    constructor
    · exact fun h => .inr ⟨hplus, h⟩
    · rintro (⟨high, low, hhigh, -, -⟩ | ⟨-, h⟩)
      · exact absurd (hplus ▸ hhigh) (plus_isNoHexDigit high)
      · exact h
  · next hplus =>
    constructor
    · intro h
      simp only [Option.bind_eq_bind, Option.bind_eq_some_iff, Option.pure_def,
        Option.some.injEq] at h
      obtain ⟨high, hhigh, low, hlow, rfl⟩ := h
      exact .inl ⟨high, low, hexValue?_eq_some_iff.mp hhigh, hexValue?_eq_some_iff.mp hlow, rfl⟩
    · rintro (⟨high, low, hhigh, hlow, rfl⟩ | ⟨h, -⟩)
      · simp [hexValue?_eq_some_iff.mpr hhigh, hexValue?_eq_some_iff.mpr hlow]
      · exact absurd h hplus

/-- Without a plus sign only digits are read. -/
theorem isReadAsByte_iff {first second : Char} {value : Nat} (h : first ≠ '+') :
    IsReadAsByte first second value ↔ IsHexByte first second value := by
  simp [IsReadAsByte, h]

theorem isReadAsHex_iff {text : String} (h : '+' ∉ text.toList) {r g b : Nat} :
    IsReadAsHex text r g b ↔ IsHexColor text r g b := by
  have hne : ∀ c ∈ text.toList, c ≠ '+' := fun c hc heq => h (heq ▸ hc)
  have hiff : ∀ a b c d e f, text.toList = ['#', a, b, c, d, e, f] →
      a ≠ '+' ∧ c ≠ '+' ∧ e ≠ '+' := by
    intro a b c d e f htext
    rw [htext] at hne
    exact ⟨hne a (by simp), hne c (by simp), hne e (by simp)⟩
  constructor
  · rintro ⟨a, b', c, d, e, f, htext, hr, hg, hb⟩
    obtain ⟨ha, hc, he⟩ := hiff _ _ _ _ _ _ htext
    exact ⟨a, b', c, d, e, f, htext, (isReadAsByte_iff ha).mp hr, (isReadAsByte_iff hc).mp hg,
      (isReadAsByte_iff he).mp hb⟩
  · rintro ⟨a, b', c, d, e, f, htext, hr, hg, hb⟩
    exact ⟨a, b', c, d, e, f, htext, .inl hr, .inl hg, .inl hb⟩

/-! ### Colours -/

/-- No colour is named by a text that begins with a number sign. -/
theorem find?_lower_eq_none {text : String} {cs : List Char} (h : text.toList = '#' :: cs) :
    NamedColor.all.find? (·.name == Casing.lower text) = none := by
  have hfront : ∃ ds, (Casing.lower text).toList = '#' :: ds := by
    refine ⟨Casing.lowerAfter ['#'] cs, ?_⟩
    rw [Casing.lower, String.toList_ofList, h]
    rfl
  obtain ⟨ds, hds⟩ := hfront
  have hname : ∀ c ∈ NamedColor.all, c.name.toList.head? ≠ some '#' := by decide
  rw [List.find?_eq_none]
  intro c hc heq
  have heq : c.name = Casing.lower text := by simpa using heq
  apply hname c hc
  rw [heq, hds]
  rfl

theorem ofChannels?_eq_some_iff {cs : List Char} {color : Color} :
    ofChannels? cs = some color ↔
      ∃ a b c d e f r g b', cs = [a, b, c, d, e, f] ∧ color = .rgb r g b' ∧
        IsReadAsByte a b r ∧ IsReadAsByte c d g ∧ IsReadAsByte e f b' := by
  constructor
  · intro h
    match cs, h with
    | [a, b, c, d, e, f], h =>
      simp only [ofChannels?, Option.bind_eq_bind, Option.bind_eq_some_iff, Option.pure_def,
        Option.some.injEq] at h
      obtain ⟨r, hr, g, hg, b', hb, rfl⟩ := h
      exact ⟨a, b, c, d, e, f, r, g, b', rfl, rfl, channel?_eq_some_iff.mp hr,
        channel?_eq_some_iff.mp hg, channel?_eq_some_iff.mp hb⟩
  · rintro ⟨a, b, c, d, e, f, r, g, b', rfl, rfl, hr, hg, hb⟩
    simp [ofChannels?, channel?_eq_some_iff.mpr hr, channel?_eq_some_iff.mpr hg,
      channel?_eq_some_iff.mpr hb]

/-- **What a text behind a number sign is read as.** -/
theorem ofText?_eq_some_iff {text : String} {cs : List Char} (h : text.toList = '#' :: cs)
    {color : Color} :
    ofText? text = some color ↔ ∃ r g b, color = .rgb r g b ∧ IsReadAsHex text r g b := by
  have hread : ofText? text = ofChannels? cs := by
    simp only [ofText?, find?_lower_eq_none h, h]
  rw [hread, ofChannels?_eq_some_iff]
  constructor
  · rintro ⟨a, b, c, d, e, f, r, g, b', rfl, hcolor, hr, hg, hb⟩
    exact ⟨r, g, b', hcolor, a, b, c, d, e, f, h, hr, hg, hb⟩
  · rintro ⟨r, g, b', hcolor, a, b, c, d, e, f, htext, hr, hg, hb⟩
    exact ⟨a, b, c, d, e, f, r, g, b', (List.cons.inj (h.symm.trans htext)).2, hcolor, hr, hg, hb⟩

end Color

/-! ### Themes -/

namespace Theme

/-- The entries in front are taken first; a fault among them is the fault of all. -/
theorem withNames_append (t : Theme) (before entries : List (String × String)) :
    t.withNames (before ++ entries) = (t.withNames before).bind (·.withNames entries) := by
  induction before generalizing t with
  | nil => rfl
  | cons entry before ih =>
    rw [List.cons_append, withNames, withNames]
    split
    · rfl
    · split
      · rfl
      · exact ih _

theorem withNames_of_scope_unknown {t : Theme} {scopeName : String}
    (h : Scope.ofName? scopeName = none) (colorName : String) (rest : List (String × String)) :
    t.withNames ((scopeName, colorName) :: rest) = .error (.unknownScope scopeName) := by
  rw [withNames, h]

theorem withNames_of_color_unknown {t : Theme} {scopeName colorName : String} {scope : Scope}
    (hscope : Scope.ofName? scopeName = some scope) (hcolor : Color.ofText? colorName = none)
    (rest : List (String × String)) :
    t.withNames ((scopeName, colorName) :: rest) =
      .error (.unknownColor scopeName colorName) := by
  rw [withNames, hscope, hcolor]

theorem withNames_cons {t : Theme} {scopeName colorName : String} {scope : Scope} {color : Color}
    (hscope : Scope.ofName? scopeName = some scope) (hcolor : Color.ofText? colorName = some color)
    (rest : List (String × String)) :
    t.withNames ((scopeName, colorName) :: rest) = (t.set scope color).withNames rest := by
  rw [withNames, hscope, hcolor]

end Theme

namespace Color

/-- **Hexadecimal colours as they are read.**  A text that begins with a number sign is a colour
just when three channels follow, and then that colour; where no plus sign stands in it, just when
six hexadecimal digits follow.  In a theme, what stands in front of such an entry decides first;
then an unknown scope is the fault of the entry, and after that a text that is no colour.  An
entry without a fault is entered, and those behind it decide. -/
theorem hex_colors_as_read {text : String} (htext : text.toList.head? = some '#') :
    (∀ color, ofText? text = some color ↔ ∃ r g b, color = .rgb r g b ∧ IsReadAsHex text r g b) ∧
      ('+' ∉ text.toList → ∀ r g b, ofText? text = some (.rgb r g b) ↔ IsHexColor text r g b) ∧
      ∀ (t : Theme) (before rest : List (String × String)) (scopeName : String),
        (∀ fault, t.withNames before = .error fault →
          t.withNames (before ++ (scopeName, text) :: rest) = .error fault) ∧
        ∀ t', t.withNames before = .ok t' →
          (Scope.ofName? scopeName = none →
            t.withNames (before ++ (scopeName, text) :: rest) =
              .error (.unknownScope scopeName)) ∧
          ∀ scope, Scope.ofName? scopeName = some scope →
            (∀ r g b, IsReadAsHex text r g b →
              t.withNames (before ++ (scopeName, text) :: rest) =
                (t'.set scope (.rgb r g b)).withNames rest) ∧
            ((¬ ∃ r g b, IsReadAsHex text r g b) →
              t.withNames (before ++ (scopeName, text) :: rest) =
                .error (.unknownColor scopeName text)) := by
  obtain ⟨cs, hcs⟩ : ∃ cs, text.toList = '#' :: cs := by
    cases hlist : text.toList with
    | nil => simp [hlist] at htext
    | cons c cs =>
      rw [hlist, List.head?_cons, Option.some.injEq] at htext
      exact ⟨cs, by rw [htext]⟩
  refine ⟨fun color => ofText?_eq_some_iff hcs, ?_, ?_⟩
  · intro hplus r g b
    rw [ofText?_eq_some_iff hcs, ← isReadAsHex_iff hplus]
    constructor
    · rintro ⟨r', g', b', heq, h⟩
      obtain ⟨rfl, rfl, rfl⟩ := Color.rgb.inj heq
      exact h
    · exact fun h => ⟨r, g, b, rfl, h⟩
  · intro t before rest scopeName
    refine ⟨?_, ?_⟩
    · intro fault hfault
      rw [Theme.withNames_append, hfault]
      rfl
    intro t' hbefore
    have hgoes : t.withNames (before ++ (scopeName, text) :: rest) =
        t'.withNames ((scopeName, text) :: rest) := by
      rw [Theme.withNames_append, hbefore]
      rfl
    refine ⟨fun hscope => ?_, fun scope hscope => ⟨fun r g b hread => ?_, fun hnone => ?_⟩⟩
    · rw [hgoes, Theme.withNames_of_scope_unknown hscope]
    · have hcolor : ofText? text = some (.rgb r g b) :=
        (ofText?_eq_some_iff hcs).mpr ⟨r, g, b, rfl, hread⟩
      rw [hgoes, Theme.withNames_cons hscope hcolor]
    · have hcolor : ofText? text = none := by
        rw [Option.eq_none_iff_forall_ne_some]
        intro color hcolor
        obtain ⟨r, g, b, -, hread⟩ := (ofText?_eq_some_iff hcs).mp hcolor
        exact hnone ⟨r, g, b, hread⟩
      rw [hgoes, Theme.withNames_of_color_unknown hscope hcolor]

/-- A colour in both cases of letters, alone and as the second entry of a theme. -/
theorem hex_color_of_mixed_case :
    "#a5D6fF".toList.head? = some '#' ∧ ofText? "#a5D6fF" = some (.rgb 165 214 255) ∧
      Theme.empty.withNames [("title", "Blue"), ("string", "#a5D6fF"), ("bold", "#12")] =
        .error (.unknownScope "bold") := by
  have hfront : "#a5D6fF".toList.head? = some '#' := by decide
  have hplus : '+' ∉ "#a5D6fF".toList := by decide
  have hdigits : IsHexColor "#a5D6fF" 165 214 255 :=
    ⟨'a', '5', 'D', '6', 'f', 'F', by decide, ⟨10, 5, by decide, by decide, rfl⟩,
      ⟨13, 6, by decide, by decide, rfl⟩, ⟨15, 15, by decide, by decide, rfl⟩⟩
  obtain ⟨-, hcolor, htheme⟩ := hex_colors_as_read hfront
  have hentry := (htheme Theme.empty [("title", "Blue")] [("bold", "#12")] "string").2 _ rfl
  refine ⟨hfront, (hcolor hplus _ _ _).mpr hdigits, ?_⟩
  exact (hentry.2 .string rfl).1 _ _ _ ((isReadAsHex_iff hplus).mpr hdigits)

/-- Plus signs in place of digits are read too. -/
theorem exists_hex_color_with_signs :
    ofText? "#+1+2+3" = some (.rgb 1 2 3) ∧ ¬ ∃ r g b, IsHexColor "#+1+2+3" r g b := by
  refine ⟨by decide, ?_⟩
  rintro ⟨r, g, b, a, b', c, d, e, f, htext, ⟨high, low, hhigh, -, -⟩, -, -⟩
  have ha : a = '+' := by
    have hlist : "#+1+2+3".toList = ['#', '+', '1', '+', '2', '+', '3'] := by decide
    rw [hlist] at htext
    exact (List.cons.inj (List.cons.inj htext).2).1.symm
  exact plus_isNoHexDigit high (ha ▸ hhigh)

end Color

end Highlighting
